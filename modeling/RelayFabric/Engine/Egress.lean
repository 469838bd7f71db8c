/- source: engine.rs (process_due .. handle_result), transform.rs, fed/conn.rs (handle_fed_ack)
   digest: Delivery attempts on every egress path, and what their answers do to a row. -/

import RelayFabric.Engine.Ingress

namespace RelayFabric

open Lib

def truncateBody (body : String) (maxChars : Nat) : String :=
  if body.toList.length ≤ maxChars then body
  else String.ofList (body.toList.take (maxChars - 1) ++ ['…'])

def takeBytes : Nat → List Char → List Char
  | _, [] => []
  | n, c :: rest => if c.utf8Size ≤ n then c :: takeBytes (n - c.utf8Size) rest else []

def render (tag : Option String) (body : String) (maxPayload : Option Nat) : String :=
  let full := tag.elim body (fun t => "[" ++ t ++ "]\n" ++ body)
  match maxPayload with
  | none => full
  | some limit =>
    if full.utf8ByteSize ≤ limit then full
    else if limit < 3 then String.ofList (takeBytes limit full.toList)
    else String.ofList (takeBytes (limit - 3) full.toList ++ ['…'])

def attachmentNotes (dropped : List (String × Nat)) (reason : String) : String :=
  String.join (dropped.map (fun (name, size) =>
    if reason = "omitted" then "\n[attachment omitted]"
    else "\n[dropped " ++ name ++ ": " ++ toString size ++ " B over " ++ reason ++ "]"))

def maxFrame : Nat := 16 * 1024 * 1024

def frameHeadroomBytes : Nat := 64 * 1024

def demotion (tp : TransportPolicy) (mime : String) : Option String :=
  if "image/".toList <+: mime.toList ∧ !tp.allowImages then some "image"
  else if "video/".toList <+: mime.toList ∧ !tp.allowVideo then some "video"
  else none

def loadAttachments (K : Crypto) (messageId : Uuid) (maxAttachmentBytes : Option Nat)
    (frameBudget : Nat) (tp : TransportPolicy) :
    List AttachmentMeta → Nat → Engine (List IpcAttachment × String)
  | [], _ => pure ([], "")
  | file :: rest, cumulative => do
    let skip (note : String) : Engine (List IpcAttachment × String) := do
      let (attachments, notes) ←
        loadAttachments K messageId maxAttachmentBytes frameBudget tp rest cumulative
      pure (attachments, note ++ notes)
    match demotion tp file.mime with
    | some kind =>
      skip ("\n[" ++ kind ++ " '" ++ file.filename ++ "' omitted — constrained transport]")
    | none => do
      let owned ← .observe .refs (fun d => d.store.hasAttachmentRef messageId file.sha256)
      let data ← .observe .blob (fun d => if owned then d.cas.get K file.sha256 else none)
      match data with
      | none => skip ("\n[attachment " ++ file.filename ++ " unavailable]")
      | some data =>
        let size := data.length
        if maxAttachmentBytes.any (fun cap => cap < size) then
          skip (attachmentNotes [(file.filename, size)]
            (toString (maxAttachmentBytes.getD 0) ++ " B limit"))
        else if frameBudget < cumulative + size then
          skip (attachmentNotes [(file.filename, size)] (toString frameBudget ++ " B limit"))
        else do
          let (attachments, notes) ← loadAttachments K messageId maxAttachmentBytes
            frameBudget tp rest (cumulative + size)
          pure (⟨file.filename, file.mime, data⟩ :: attachments, notes)

def frameEstimate (body endpoint kind : String) (attachments : List IpcAttachment) : Nat :=
  body.utf8ByteSize + endpoint.utf8ByteSize + kind.utf8ByteSize +
    (attachments.map (fun a =>
      a.data.length + a.filename.utf8ByteSize + a.mime.utf8ByteSize + 64)).sum + 256

def markTerminal (row : Nat) (state : DeliveryState) (reason : Reason) : Engine Unit :=
  .modify (.mark row) (fun d =>
    { d with store := d.store.markTerminal d.clock.utc row state reason })

def retryAt (row : Nat) (nextAttempt : Int) : Engine Unit :=
  .modify (.mark row) (fun d => { d with store := d.store.markRetry d.clock.utc row nextAttempt })

def markAttempting (row : Nat) : Engine Unit :=
  .modify (.attempt row) (fun d => { d with store := d.store.markAttempting d.clock.utc row })

def attemptSend (row : Nat) (now : Int) (handover : Section) (trySend : Daemon → Bool × Daemon) :
    Engine Unit := do
  markAttempting row
  if ← .critical handover trySend then pure ()
  else retryAt row (now + seconds 5)

def budgetAllows (key : String) (rate : Config → Nat) : Engine Bool := do
  let perMinute ← cfgSnapshot rate
  .critical .budget (fun d =>
    let (ok, limiter) := d.budgetLimiter.allow key perMinute d.clock.instant
    (ok, { d with budgetLimiter := limiter }))

def transportBudgetAllows (del : Delivery) : Engine Bool :=
  if 0 < del.priority then
    budgetAllows del.destination.protocol (fun c => c.transportBudget del.destination.protocol)
  else pure true

def processDueIdentity (del : Delivery) (env : Envelope) (now : Int) : Engine Unit := do
  let handle ← .observe .plugins (fun d => d.plugins del.destination.protocol)
  match handle.filter PluginHandle.connected with
  | none => retryAt del.id (now + seconds 5)
  | some h =>
    if !h.capabilities.directMessages then markTerminal del.id .deadLetter .notDirectCapable
    else if ← transportBudgetAllows del then
      attemptSend del.id now (.sendPlugin del.id h.tx) (fun d =>
        d.trySendPlugin del.id h.tx (.sendDirect del.id del.destination.endpoint env.body))
    else retryAt del.id (now + seconds 10)

def splitOnce (sep : Char) : List Char → Option (List Char × List Char)
  | [] => none
  | c :: rest =>
    if c = sep then some ([], rest)
    else (splitOnce sep rest).map (fun (left, right) => (c :: left, right))

theorem splitOnce_append {sep : Char} {left right : List Char} (absent : sep ∉ left) :
    splitOnce sep (left ++ sep :: right) = some (left, right) := by
  induction left with
  | nil => simp [splitOnce]
  | cons c rest ih =>
    rw [List.mem_cons, not_or] at absent
    rw [List.cons_append, splitOnce, if_neg (Ne.symm absent.1), ih absent.2]
    rfl

theorem splitOnce_eq_some {sep : Char} {text left right : List Char}
    (split : splitOnce sep text = some (left, right)) :
    text = left ++ sep :: right ∧ sep ∉ left := by
  induction text generalizing left with
  | nil => simp [splitOnce] at split
  | cons c rest ih =>
    unfold splitOnce at split
    split at split
    · rename_i same
      obtain ⟨rfl, rfl⟩ : [] = left ∧ rest = right := by simpa using split
      exact ⟨by rw [same]; rfl, by simp⟩
    · rename_i other
      obtain ⟨⟨left', right'⟩, found, same⟩ := Option.map_eq_some_iff.mp split
      cases same
      obtain ⟨whole, absent⟩ := ih found
      exact ⟨by rw [whole]; rfl, List.not_mem_cons_of_ne_of_not_mem (Ne.symm other) absent⟩

def fedTarget (endpoint : String) : Option (String × String) :=
  (splitOnce '/' endpoint.toList).map
    (fun (peer, route) => (String.ofList peer, String.ofList route))

/-- A local envelope is pseudonymised and signed; one that carries an origin is left alone. -/
def signedOrigin (K : Crypto) (identityExposure peerName remoteRoute : String) (env : Envelope) :
    Envelope :=
  match env.origin with
  | some _ => env
  | none =>
    let exposed :=
      if identityExposure = "pseudonymous" then
        { env with sender := ⟨K.aliasFor env.source.protocol env.sender.nativeRef
            ("fed:" ++ peerName ++ "/" ++ remoteRoute)⟩ }
      else env
    { exposed with origin := some (K.signOrigin exposed) }

/-- `append_attestation` and the hop count, a wrapping `u32`, once the origin is signed. -/
def attested (K : Crypto) (ts : Int) (env : Envelope) : Envelope :=
  { env with
    attestations := env.attestations ++ [K.attest env ts]
    hops := (env.hops + 1) % 2 ^ 32 }

def resolveSealedKey (K : Crypto) (peerName : String) : Engine (Option Bytes) := do
  match ← cfgSnapshot (fun c => c.peer? peerName) with
  | none => pure none
  | some peer =>
    let advertKey ← .observe .adverts (fun d =>
      ((d.store.listPeerAdverts d.clock.utc).find? (fun a => a.nodeId == peer.nodeId)).bind
        (fun a => (K.advertKey a.advertCbor).bind (fun (node, key) =>
          if node = a.nodeId then key else none)))
    pure ((peer.sealedKey.or advertKey).bind K.publicKey)

def sealedMaxBytes : Nat := maxFrame - 512

def processDueFedSealed (K : Crypto) (del : Delivery) (outEnv : Envelope)
    (peerName remoteRoute : String) (tx : Nat) (now : Int) : Engine Unit := do
  match ← resolveSealedKey K peerName with
  | none => markTerminal del.id .deadLetter .noSealedKey
  | some recipient =>
    let cbor := K.encode outEnv
    if sealedMaxBytes < cbor.length then markTerminal del.id .deadLetter .sealedOversize
    else do
      let maxTtlSecs ← cfgSnapshot (fun c => c.federation.elim 86400 FederationConfig.maxTtlSecs)
      match checkedAdd outEnv.createdAt (seconds maxTtlSecs) with
      | none => markTerminal del.id .deadLetter .expired
      | some expires => do
        let seed ← .observe .entropy Daemon.entropy
        let sealed := K.sealBytes seed cbor outEnv.id.toText (timestamp expires) recipient
        attemptSend del.id now (.sendFed del.id tx) (fun d =>
          d.trySendFed del.id tx (.sealed sealed remoteRoute))

def processDueFed (K : Crypto) (del : Delivery) (env : Envelope) (now : Int) : Engine Unit := do
  match fedTarget del.destination.endpoint with
  | none => markTerminal del.id .failed .fedDestMalformed
  | some (peerName, remoteRoute) =>
    match ← .observe .conns (fun d => d.conns.bind (fun conns => conns peerName)) with
    | none => retryAt del.id (now + seconds 5)
    | some conn =>
      if ← budgetAllows ("fed/" ++ peerName)
          (fun c => (c.peer? peerName).elim 0 PeerConfig.messagesPerMinute) then do
        let exposure ← cfgSnapshot (fun c =>
          c.federation.elim "pseudonymous" FederationConfig.identityExposure)
        let ts ← utcNow
        let outEnv := attested K ts (signedOrigin K exposure peerName remoteRoute env)
        match ← cfgSnapshot (fun c => c.routeCfg del.route) with
        | none => markTerminal del.id .deadLetter .routeConfigMissing
        | some routeCfg =>
          if routeCfg.securityMode = "sealed" then
            processDueFedSealed K del outEnv peerName remoteRoute conn.tx now
          else
            attemptSend del.id now (.sendFed del.id conn.tx) (fun d =>
              d.trySendFed del.id conn.tx (.envelope outEnv remoteRoute))
      else retryAt del.id (now + seconds 5)

/-- The tag a route shows: a verified link's display name in linked mode, else the alias. -/
def displayTag (K : Crypto) (del : Delivery) (env : Envelope) (routeCfg : Option RouteConfig) :
    Engine (Option String) := do
  let pseudonym := K.aliasFor env.source.protocol env.sender.nativeRef del.route
  let tag ← (if routeCfg.any (fun r => r.identityMode == "linked") then
      .observe .links (fun d =>
        (d.store.linkForIdentity env.source.protocol env.sender.nativeRef).elim pseudonym
          Link.displayName)
    else pure pseudonym : Engine String)
  pure (if routeCfg.any (fun r => r.render.tag == "none") then none else some tag)

def outgoingAttachments (K : Crypto) (env : Envelope) (allowed : Bool)
    (maxAttachmentBytes : Option Nat) (tp : TransportPolicy) :
    Engine (List IpcAttachment × String) :=
  if env.attachments = [] then pure ([], "")
  else if allowed then
    loadAttachments K env.id maxAttachmentBytes (maxFrame - frameHeadroomBytes) tp env.attachments 0
  else
    pure ([], attachmentNotes (env.attachments.map (fun a => (a.filename, a.size))) "omitted")

def processDuePlugin (K : Crypto) (del : Delivery) (env : Envelope) (now : Int)
    (maxPayload : Option Nat) (attachmentsAllowed : Bool) (maxAttachmentBytes : Option Nat) :
    Engine Unit := do
  let handle ← .observe .plugins (fun d => d.plugins del.destination.protocol)
  match handle.filter PluginHandle.connected with
  | none => retryAt del.id (now + seconds 5)
  | some h => do
    let tp ← cfgSnapshot (fun c => c.transportPolicy del.destination.protocol)
    if ← transportBudgetAllows del then do
      let capLimit := min (h.capabilities.maxPayload.getD (2 ^ 64 - 1)) tp.maxPayloadBytes
      let limit := tighten maxPayload (some capLimit)
      let routeCfg ← cfgSnapshot (fun c => c.routeCfg del.route)
      let tag ← displayTag K del env routeCfg
      let (attachments, notes) ← outgoingAttachments K env
        (attachmentsAllowed && h.capabilities.attachments) maxAttachmentBytes tp
      let maxChars := (routeCfg.map (fun r => r.render.maxChars)).getD 0
      let truncated := if 0 < maxChars then truncateBody env.body maxChars else env.body
      let body := render tag (truncated ++ notes) limit
      if maxFrame < frameEstimate body del.destination.endpoint env.kind attachments then
        markTerminal del.id .deadLetter .frameOversize
      else
        attemptSend del.id now (.sendPlugin del.id h.tx) (fun d =>
          d.trySendPlugin del.id h.tx
            (.send del.id del.destination.endpoint env.kind body attachments))
    else retryAt del.id (now + seconds 10)

def processDue (K : Crypto) (del : Delivery) (now : Int) : Engine Unit := do
  match ← .observe (.load del.id) (fun d => d.store.getMessage del.messageId) with
  | none => markTerminal del.id .failed .destinationUnknown
  | some env =>
    if env.isExpired now then markTerminal del.id .expired .ttlExpired
    else if maxAttempts ≤ del.attemptCount then markTerminal del.id .deadLetter .retryExhausted
    else if del.route = identityRoute then processDueIdentity del env now
    else do
      let policies ← cfgSnapshot Config.policies
      match evaluate policies env del.destination with
      | .deny _ => markTerminal del.id .deadLetter .policyDenied
      | .allow maxPayload attachmentsAllowed maxAttachmentBytes =>
        if del.destination.protocol = fedProtocol then processDueFed K del env now
        else
          processDuePlugin K del env now maxPayload attachmentsAllowed maxAttachmentBytes

structure DeliveryEvent where
  id : Uuid
  route : String
  state : String
  deriving DecidableEq, Repr

def resultStore (s : Store) (now : Int) (plugin : String) (corr : Nat) (delivered : Bool) :
    Option DeliveryEvent × Store :=
  match s.deliveriesForId corr with
  | none => (none, s)
  | some del =>
    if del.destination.protocol ≠ plugin then (none, s)
    else if delivered then (some ⟨del.messageId, del.route, "delivered"⟩, s.markDelivered now corr)
    else if maxAttempts ≤ del.attemptCount then
      (some ⟨del.messageId, del.route, "dead_letter"⟩,
        s.markTerminal now corr .deadLetter .retryExhausted)
    else
      (some ⟨del.messageId, del.route, "retry"⟩,
        s.markRetry now corr (now + backoff del.attemptCount))

def handleResult (plugin : String) (corr : Nat) (delivered : Bool) :
    Engine (Option DeliveryEvent) :=
  .critical (.result corr) (fun d =>
    let (event, store) := resultStore d.store d.clock.utc plugin corr delivered
    (event, { d with store := store }))

def ackStore (s : Store) (now : Int) (peerKey : String) (messageId : Uuid) : Store :=
  ((s.deliveriesForFedAck messageId peerKey).filter (fun r => r.state == .attempting)).foldl
    (fun s r => s.markDelivered now r.id) s

def handleFedAck (peerKey id : String) : Engine Unit :=
  match Uuid.parseStr id with
  | none => pure ()
  | some messageId => .modify .ack (fun d =>
    { d with store := ackStore d.store d.clock.utc peerKey messageId })

def handleFrame (K : Crypto) (io : Faults) (peerNodeId peerKey : String) (frame : Fed) :
    Engine (Option Fed) := do
  let reply (outcome : FedIngressOutcome) : Option Fed :=
    match outcome with
    | .accepted id => some (.ack id.toText)
    | .rejected _ => none
  match frame with
  | .ping => pure (some .pong)
  | .pong => pure none
  | .unknown => pure none
  | .ack id => do
    handleFedAck peerKey id
    pure none
  | .envelope env targetRoute => do
    let outcome ← fedIngress K io peerNodeId env targetRoute
    pure (reply outcome)
  | .sealed sealed targetRoute => do
    let outcome ← fedSealedIngress K io peerNodeId sealed targetRoute
    pure (reply outcome)

def requeueRow (row : Nat) : Engine Unit :=
  .modify (.requeue row) (fun d => { d with store := d.store.requeue d.clock.utc row })

def removeOrphans (d : Daemon) (purged : List String × Store) : Daemon :=
  { d with store := purged.2, cas := purged.1.foldl Cas.remove d.cas }

def purgeDeadLetters : Engine Unit :=
  .modify .purgeDead (fun d => removeOrphans d d.store.purgeDeadLetters)

def batchLimit : Nat := 32

def takeBatch (now : Int) : Engine (List Delivery) :=
  .critical .snapshot (fun d =>
    let s := d.store.reclaimStale (now - seconds 60)
    (s.dueDeliveries now batchLimit, { d with store := s }))

def retentionPurge (now : Int) : Engine Unit := do
  let retention ← cfgSnapshot Config.retentionSecs
  .modify .purge (fun d => removeOrphans d (d.store.purgeTerminal (now - seconds retention)))
  .modify .purge (fun d => { d with store := d.store.purgeExpiredChallenges now })
  .modify .purge (fun d => { d with store := d.store.purgeExpiredAdverts now })

end RelayFabric
