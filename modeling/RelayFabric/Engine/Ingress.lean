/- source: engine.rs (handle_inbound .. fed_sealed_ingress), identity_links.rs
   digest: The three ingress paths as programs over the daemon, cut at their lock acquisitions. -/

import RelayFabric.Daemon

namespace RelayFabric

open Lib

/-- Which statements of one ingress call fail; the index is the position in the call's loop. -/
structure Faults where
  findChallenge : Bool
  insertMessage : Bool
  insertRef : Nat → Bool
  routeCount : Nat → Bool
  globalCount : Nat → Bool
  insertDelivery : Nat → Bool

def Faults.none : Faults :=
  ⟨false, false, fun _ => false, fun _ => false, fun _ => false, fun _ => false⟩

def queueFull (io : Faults) (i : Nat) (s : Store) (route : String) (routeMax globalMax : Nat) :
    Bool :=
  let routeCount := if io.routeCount i then 0 else s.pendingCount (some route)
  let globalCount := if io.globalCount i then 0 else s.pendingCount Option.none
  let overRoute := decide (0 < routeMax ∧ routeMax ≤ routeCount)
  overRoute || (!overRoute && decide (0 < globalMax ∧ globalMax ≤ globalCount))

/-- `fan_out_deliveries`, from the `i`-th target on: the routes found full, and the store.
An insertion that fails is only logged. -/
def fanOutDeliveries (io : Faults) (stamp : Int) (messageId : Uuid) (expiresAt : Int)
    (priorityRank routeMax globalMax : Nat) (now : Int) :
    Nat → List (String × Endpoint) → Store → List String × Store
  | _, [], s => ([], s)
  | i, (route, dest) :: rest, s =>
    let full := queueFull io i s route routeMax globalMax
    let stored :=
      if io.insertDelivery i then s
      else if full then s.insertDeadDelivery stamp messageId route dest now expiresAt .queueFull
      else s.insertDelivery stamp messageId route dest now expiresAt priorityRank
    let tail := fanOutDeliveries io stamp messageId expiresAt priorityRank routeMax globalMax now
      (i + 1) rest stored
    (if full && !io.insertDelivery i then route :: tail.1 else tail.1, tail.2)

def insertAttachmentRefs (io : Faults) (messageId : Uuid) : Nat → List String → Store → Store
  | _, [], s => s
  | i, sha :: rest, s =>
    if io.insertRef i then s
    else insertAttachmentRefs io messageId (i + 1) rest (s.insertAttachmentRef messageId sha)

inductive FedIngressOutcome
  | accepted (id : Uuid)
  | rejected (reason : Reason)
  deriving DecidableEq, Repr

def trustRank (level : String) : Nat :=
  if level = "blocked" then 0
  else if level = "seen" then 2
  else if level = "verified" then 3
  else if level = "trusted" then 4
  else 1

def trustDenied (s : Store) (peerNodeId acceptFrom : String) : Bool :=
  decide (trustRank ((s.trustLevel peerNodeId).getD "unknown") < trustRank acceptFrom)

def fedTrustDenied (peerNodeId acceptFrom : String) : Engine Bool :=
  .observe .trust (fun d => trustDenied d.store peerNodeId acceptFrom)

def lastLink (env : Envelope) : Option String :=
  (env.attestations.getLast?.map Attestation.nodeId).or (env.origin.map OriginSig.nodeId)

def checkChainShape (env : Envelope) (peerNodeId : String) (maxHops : Nat) : Option Reason :=
  if maxHops < env.attestations.length then some .hopLimit
  else if (lastLink env).any (fun l => l ≠ peerNodeId) then some .chainPeerMismatch
  else none

def maxCreatedAtSkew : Int := seconds 300

def boundReplayAndClampTtl (now : Int) (env : Envelope) (maxTtlSecs : Nat) : Option Envelope :=
  match checkedAdd env.createdAt (seconds maxTtlSecs) with
  | none => none
  | some deadline =>
    if deadline < now ∨ now + maxCreatedAtSkew < env.createdAt then none
    else some { env with expiresAt := min env.expiresAt (now + seconds maxTtlSecs) }

def recordRejection (s : Store) (stamp now : Int) (env : Envelope) (targetRoute peerNodeId : String)
    (reason : Reason) : Store :=
  (s.insertMessage env).insertDeadDelivery stamp env.id targetRoute
    ⟨fedProtocol, shortNodeId peerNodeId⟩ now env.expiresAt reason

def rejectRecorded (env : Envelope) (targetRoute peerNodeId : String) (reason : Reason) :
    Engine FedIngressOutcome := do
  let now ← utcNow
  .modify (.reject env.id) (fun d =>
    { d with store := recordRejection d.store d.clock.utc now env targetRoute peerNodeId reason })
  pure (.rejected reason)

def isSeen (m : Uuid) : Engine Bool := do
  let cached ← .critical (.peek m) (fun d =>
    let (found, dedup) := d.dedup.isDuplicate m.toText d.clock.instant
    (found, { d with dedup := dedup }))
  if cached then pure true
  else .observe (.existing m) (fun d => (d.store.getMessage m).isSome)

def senderAllowed (m : Uuid) (key : String) (bytes : Nat) : Engine Bool :=
  .critical (.quota m) (fun d =>
    let (ok, limiter) := d.senderLimiter.allow key bytes d.clock.instant
    (ok, { d with senderLimiter := limiter }))

def recordSeen (m : Uuid) (keys : List String) : Engine Unit :=
  .modify (.record m) (fun d =>
    { d with dedup := keys.foldl (fun dedup key => dedup.record key d.clock.instant) d.dedup })

def persistStore (io : Faults) (s : Store) (stamp now : Int) (env : Envelope) (targetRoute : String)
    (destinations : List Endpoint) (routeMax globalMax : Nat) : FedIngressOutcome × Store :=
  if io.insertMessage then (.rejected .storageError, s)
  else (.accepted env.id,
    (fanOutDeliveries io stamp env.id env.expiresAt (priorityRank env.priority) routeMax globalMax
      now 0 (destinations.map (fun dest => (targetRoute, dest))) (s.insertMessage env)).2)

def persistAndFanOut (io : Faults) (env : Envelope) (targetRoute : String)
    (routeCfg : RouteConfig) : Engine FedIngressOutcome := do
  let now ← .observe (.stamp env.id) (fun d => d.clock.utc)
  let limits ← .observe (.caps env.id) (fun d => d.cfg.limits)
  .critical (.persist env.id) (fun d =>
    let (outcome, store) := persistStore io d.store d.clock.utc now env targetRoute
      routeCfg.destinations limits.routeQueueMax limits.globalQueueMax
    (outcome, { d with store := store }))

def chargedBytes (env : Envelope) : Nat :=
  (env.body.utf8ByteSize + (env.attachments.map AttachmentMeta.size).sum) % 2 ^ 64

def acceptFederated (io : Faults) (senderKey : String) (keys : List String) (env : Envelope)
    (targetRoute : String) (routeCfg : RouteConfig) : Engine FedIngressOutcome := do
  if ← senderAllowed env.id senderKey (chargedBytes env) then do
    recordSeen env.id keys
    let receivedAt ← .observe (.stamp env.id) (fun d => d.clock.utc)
    persistAndFanOut io { env with receivedAt := receivedAt } targetRoute routeCfg
  else pure (.rejected .rateLimited)

def fedSenderKey (peerNodeId : String) (env : Envelope) : String :=
  "fed|" ++ shortNodeId peerNodeId ++ ":" ++ env.sender.nativeRef

def fedIngress (K : Crypto) (io : Faults) (peerNodeId : String) (env : Envelope)
    (targetRoute : String) : Engine FedIngressOutcome := do
  let env := { env with priority := "normal" }
  match ← cfgSnapshot Config.federation with
  | none => rejectRecorded env targetRoute peerNodeId .fedConfigMissing
  | some fed =>
    if ← fedTrustDenied peerNodeId fed.acceptFrom then pure (.rejected .trustDenied)
    else match checkChainShape env peerNodeId fed.maxHops with
    | some reason => pure (.rejected reason)
    | none =>
      if !K.verifyChain env then pure (.rejected .badSignature)
      else do
        let now ← utcNow
        match boundReplayAndClampTtl now env fed.maxTtlSecs with
        | none => rejectRecorded env targetRoute peerNodeId .expired
        | some env =>
          if fed.maxHops ≤ env.hops then rejectRecorded env targetRoute peerNodeId .hopLimit
          else if targetRoute ∉ fed.ingressRoutes then
            rejectRecorded env targetRoute peerNodeId .routeNotFederated
          else match ← cfgSnapshot (fun c => c.routeCfg targetRoute) with
          | none => rejectRecorded env targetRoute peerNodeId .fedConfigMissing
          | some routeCfg =>
            if ← isSeen env.id then pure (.rejected .duplicate)
            else
              acceptFederated io (fedSenderKey peerNodeId env) [env.id.toText] env
                targetRoute routeCfg

def sealedKey (sealed : SealedEnvelope) : String :=
  "sealed:" ++ sealed.id ++ ":" ++ toString sealed.expiresAt

def sealedSenderKey (peerNodeId : String) : String := "fed-sealed|" ++ shortNodeId peerNodeId

def sealReason : SealError → Reason
  | .unsupportedAlg => .sealUnsupported
  | .badSeal => .badSeal
  | .badBinding => .sealBinding

def openSeal (K : Crypto) (sealed : SealedEnvelope) : Except Reason Envelope :=
  match K.unsealBytes sealed with
  | .error e => .error (sealReason e)
  | .ok bytes =>
    (K.decode bytes).elim (.error .badSeal) (fun env => .ok { env with priority := "normal" })

def fedSealedIngress (K : Crypto) (io : Faults) (peerNodeId : String) (sealed : SealedEnvelope)
    (targetRoute : String) : Engine FedIngressOutcome := do
  if sealed.alg ≠ sealAlgV1 then pure (.rejected .sealUnsupported)
  else if sealed.expiresAt ≤ timestamp (← utcNow) then pure (.rejected .expired)
  else if ← .critical .headerPeek (fun d =>
      let (found, dedup) := d.dedup.isDuplicate (sealedKey sealed) d.clock.instant
      (found, { d with dedup := dedup })) then pure (.rejected .duplicate)
  else match ← cfgSnapshot Config.federation with
  | none => pure (.rejected .fedConfigMissing)
  | some fed =>
    if ← fedTrustDenied peerNodeId fed.acceptFrom then pure (.rejected .trustDenied)
    else match openSeal K sealed with
    | .error reason => pure (.rejected reason)
    | .ok env => match checkChainShape env peerNodeId fed.maxHops with
    | some reason => pure (.rejected reason)
    | none =>
      if !K.verifyChain env then pure (.rejected .badSignature)
      else if ← isSeen env.id then pure (.rejected .duplicate)
      else do
        let now ← .observe (.sealedRead env.id) (fun d => d.clock.utc)
        match boundReplayAndClampTtl now env fed.maxTtlSecs with
        | none => pure (.rejected .expired)
        | some env =>
          if targetRoute ∉ fed.ingressRoutes then pure (.rejected .routeNotFederated)
          else match ← .observe (.sealedRead env.id) (fun d => d.cfg.routeCfg targetRoute) with
          | none => pure (.rejected .fedConfigMissing)
          | some routeCfg =>
            if ← .observe (.sealedRead env.id)
                (fun d => effectiveAllowGatewayDecryption d.cfg routeCfg) then
              acceptFederated io (sealedSenderKey peerNodeId) [sealedKey sealed, env.id.toText] env
                targetRoute routeCfg
            else pure (.rejected .securityDowngradeRefused)

end RelayFabric
