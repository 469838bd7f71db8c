/- source: engine.rs (fed_ingress, fed_sealed_ingress, persist_and_fan_out)
   digest: Federated ingress as one atomic step: which gate refuses, what an acceptance writes. -/

import RelayFabric.Delivery.Effects

namespace RelayFabric

open List Lib

namespace Daemon

def remembers (d : Daemon) (m : Uuid) : Bool :=
  (d.dedup.isDuplicate m.toText d.clock.instant).1 || (d.store.getMessage m).isSome

def pruned (d : Daemon) : Daemon := { d with dedup := d.dedup.prune d.clock.instant }

theorem pruned_pruned (d : Daemon) : d.pruned.pruned = d.pruned := by
  unfold pruned
  simp [Dedup.prune_prune]

theorem remembers_pruned (d : Daemon) (m : Uuid) : d.pruned.remembers m = d.remembers m := by
  unfold remembers pruned Dedup.isDuplicate
  simp [Dedup.prune_prune]

end Daemon

theorem isSeen_run (m : Uuid) (d : Daemon) : (isSeen m).run d = (d.remembers m, d.pruned) := by
  unfold isSeen Daemon.remembers
  rw [Prog.run_critical_bind]
  cases (d.dedup.isDuplicate m.toText d.clock.instant).1 <;> rfl

def Daemon.recordAll (d : Daemon) (keys : List String) : Dedup :=
  keys.foldl (fun dedup key => dedup.record key d.clock.instant) d.dedup

theorem Daemon.contains_recordAll (d : Daemon) (keys : List String) (key : String) :
    (d.recordAll keys).seen.contains key = true ↔ key ∈ keys ∨
      d.dedup.seen.contains key = true := by
  have folded : ∀ (keys : List String) (dedup : Dedup),
      (keys.foldl (fun dedup key => dedup.record key d.clock.instant) dedup).seen.contains
        key = true ↔ key ∈ keys ∨ dedup.seen.contains key = true := by
    intro keys
    induction keys with
    | nil => simp
    | cons first rest ih =>
      intro dedup
      rw [foldl_cons, ih, Dedup.contains_record]
      simp only [Bool.or_eq_true, decide_eq_true_eq, mem_cons]
      tauto
  exact folded ..

def acceptRun (io : Faults) (senderKey : String) (keys : List String) (env : Envelope)
    (targetRoute : String) (routeCfg : RouteConfig) (d : Daemon) : FedIngressOutcome × Daemon :=
  let charge := d.senderLimiter.allow senderKey (chargedBytes env) d.clock.instant
  let charged := { d with senderLimiter := charge.2 }
  if charge.1 then
    let stored := persistStore io d.store d.clock.utc d.clock.utc
      { env with receivedAt := d.clock.utc } targetRoute routeCfg.destinations
      d.cfg.limits.routeQueueMax d.cfg.limits.globalQueueMax
    (stored.1, { charged with dedup := d.recordAll keys, store := stored.2 })
  else (.rejected .rateLimited, charged)

theorem acceptFederated_run (io : Faults) (senderKey : String) (keys : List String) (env : Envelope)
    (targetRoute : String) (routeCfg : RouteConfig) (d : Daemon) :
    (acceptFederated io senderKey keys env targetRoute routeCfg).run d =
      acceptRun io senderKey keys env targetRoute routeCfg d := by
  unfold acceptFederated acceptRun senderAllowed recordSeen persistAndFanOut
  rw [Prog.run_critical_bind]
  dsimp only
  cases (d.senderLimiter.allow senderKey (chargedBytes env) d.clock.instant).1 <;> rfl

inductive AcceptEffect (io : Faults) (keys : List String) (env : Envelope) (targetRoute : String)
    (routeCfg : RouteConfig) (d : Daemon) : FedIngressOutcome → Daemon → Prop
  | limited (limiter : SenderLimiter) :
      AcceptEffect io keys env targetRoute routeCfg d (.rejected .rateLimited)
        { d with senderLimiter := limiter }
  | failed (limiter : SenderLimiter) (broken : io.insertMessage = true) :
      AcceptEffect io keys env targetRoute routeCfg d (.rejected .storageError)
        { d with senderLimiter := limiter, dedup := d.recordAll keys }
  | stored (limiter : SenderLimiter) (works : io.insertMessage = false) :
      AcceptEffect io keys env targetRoute routeCfg d (.accepted env.id)
        { d with
          senderLimiter := limiter
          dedup := d.recordAll keys
          store := (persistStore io d.store d.clock.utc d.clock.utc
            { env with receivedAt := d.clock.utc } targetRoute routeCfg.destinations
            d.cfg.limits.routeQueueMax d.cfg.limits.globalQueueMax).2 }

theorem acceptRun_effect (io : Faults) (senderKey : String) (keys : List String) (env : Envelope)
    (targetRoute : String) (routeCfg : RouteConfig) (d : Daemon) :
    AcceptEffect io keys env targetRoute routeCfg d
      (acceptRun io senderKey keys env targetRoute routeCfg d).1
      (acceptRun io senderKey keys env targetRoute routeCfg d).2 := by
  unfold acceptRun
  dsimp only
  split
  · cases works : io.insertMessage with
    | true =>
      have outcome : persistStore io d.store d.clock.utc d.clock.utc
          { env with receivedAt := d.clock.utc } targetRoute routeCfg.destinations
          d.cfg.limits.routeQueueMax d.cfg.limits.globalQueueMax =
            (.rejected .storageError, d.store) := if_pos works
      rw [outcome]
      exact .failed _ works
    | false =>
      have outcome : (persistStore io d.store d.clock.utc d.clock.utc
          { env with receivedAt := d.clock.utc } targetRoute routeCfg.destinations
          d.cfg.limits.routeQueueMax d.cfg.limits.globalQueueMax).1 = .accepted env.id := by
        unfold persistStore
        rw [if_neg (by simp [works])]
      rw [outcome]
      exact .stored _ works
  · exact .limited _

structure Refusal where
  reason : Reason
  record : Option Envelope

def fedGate (K : Crypto) (d : Daemon) (peerNodeId : String) (env : Envelope)
    (targetRoute : String) : Except Refusal (Envelope × RouteConfig) :=
  let env := { env with priority := "normal" }
  match d.cfg.federation with
  | none => .error ⟨.fedConfigMissing, some env⟩
  | some fed =>
    if trustDenied d.store peerNodeId fed.acceptFrom then .error ⟨.trustDenied, none⟩
    else match checkChainShape env peerNodeId fed.maxHops with
    | some reason => .error ⟨reason, none⟩
    | none =>
      if !K.verifyChain env then .error ⟨.badSignature, none⟩
      else match boundReplayAndClampTtl d.clock.utc env fed.maxTtlSecs with
      | none => .error ⟨.expired, some env⟩
      | some env =>
        if fed.maxHops ≤ env.hops then .error ⟨.hopLimit, some env⟩
        else if targetRoute ∉ fed.ingressRoutes then .error ⟨.routeNotFederated, some env⟩
        else match d.cfg.routeCfg targetRoute with
        | none => .error ⟨.fedConfigMissing, some env⟩
        | some routeCfg => .ok (env, routeCfg)

def Daemon.refused (d : Daemon) (targetRoute peerNodeId : String) (refusal : Refusal) : Daemon :=
  match refusal.record with
  | none => d
  | some env => { d with store := recordRejection d.store d.clock.utc d.clock.utc env targetRoute
                           peerNodeId refusal.reason }

theorem rejectRecorded_run (env : Envelope) (targetRoute peerNodeId : String) (reason : Reason)
    (d : Daemon) : (rejectRecorded env targetRoute peerNodeId reason).run d =
      (.rejected reason, d.refused targetRoute peerNodeId ⟨reason, some env⟩) := rfl

theorem fedIngress_run (K : Crypto) (io : Faults) (peerNodeId : String) (env : Envelope)
    (targetRoute : String) (d : Daemon) :
    (fedIngress K io peerNodeId env targetRoute).run d =
      match fedGate K d peerNodeId env targetRoute with
      | .error refusal => (.rejected refusal.reason, d.refused targetRoute peerNodeId refusal)
      | .ok (env, routeCfg) =>
        if d.remembers env.id then (.rejected .duplicate, d.pruned)
        else acceptRun io (fedSenderKey peerNodeId env) [env.id.toText] env targetRoute routeCfg
          d.pruned := by
  unfold fedIngress fedGate cfgSnapshot fedTrustDenied utcNow
  generalize ({ env with priority := "normal" } : Envelope) = plain
  rw [Prog.run_observe_bind]
  cases d.cfg.federation with
  | none => exact rejectRecorded_run ..
  | some fed =>
    dsimp only
    rw [Prog.run_observe_bind, Prog.run_ite]
    split
    · rfl
    cases checkChainShape plain peerNodeId fed.maxHops with
    | some reason => rfl
    | none =>
      rw [Prog.run_ite]
      split
      · rfl
      rw [Prog.run_observe_bind]
      cases boundReplayAndClampTtl d.clock.utc plain fed.maxTtlSecs with
      | none => rfl
      | some env =>
        dsimp only
        split
        · rfl
        split
        · rfl
        rw [Prog.run_observe_bind]
        cases d.cfg.routeCfg targetRoute with
        | none => rfl
        | some routeCfg =>
          rw [Prog.run_bind_of (isSeen_run ..), Prog.run_ite, Prog.run_pure,
            acceptFederated_run]

def sealedHeader (d : Daemon) (sealed : SealedEnvelope) : Option (Reason × Daemon) :=
  if sealed.alg ≠ sealAlgV1 then some (.sealUnsupported, d)
  else if sealed.expiresAt ≤ timestamp d.clock.utc then some (.expired, d)
  else if (d.dedup.isDuplicate (sealedKey sealed) d.clock.instant).1 then
    some (.duplicate, d.pruned)
  else none

def sealedGate (K : Crypto) (d : Daemon) (peerNodeId : String) (sealed : SealedEnvelope) :
    Except Reason (Envelope × FederationConfig) :=
  match d.cfg.federation with
  | none => .error .fedConfigMissing
  | some fed =>
    if trustDenied d.store peerNodeId fed.acceptFrom then .error .trustDenied
    else match openSeal K sealed with
    | .error reason => .error reason
    | .ok env => match checkChainShape env peerNodeId fed.maxHops with
    | some reason => .error reason
    | none => if !K.verifyChain env then .error .badSignature else .ok (env, fed)

def sealedRoute (d : Daemon) (fed : FederationConfig) (env : Envelope) (targetRoute : String) :
    Except Reason (Envelope × RouteConfig) :=
  match boundReplayAndClampTtl d.clock.utc env fed.maxTtlSecs with
  | none => .error .expired
  | some env =>
    if targetRoute ∉ fed.ingressRoutes then .error .routeNotFederated
    else match d.cfg.routeCfg targetRoute with
    | none => .error .fedConfigMissing
    | some routeCfg =>
      if effectiveAllowGatewayDecryption d.cfg routeCfg then .ok (env, routeCfg)
      else .error .securityDowngradeRefused

theorem fedSealedIngress_run (K : Crypto) (io : Faults) (peerNodeId : String)
    (sealed : SealedEnvelope) (targetRoute : String) (d : Daemon) :
    (fedSealedIngress K io peerNodeId sealed targetRoute).run d =
      match sealedHeader d sealed with
      | some (reason, d') => (.rejected reason, d')
      | none => match sealedGate K d peerNodeId sealed with
      | .error reason => (.rejected reason, d.pruned)
      | .ok (env, fed) =>
        if d.remembers env.id then (.rejected .duplicate, d.pruned)
        else match sealedRoute d fed env targetRoute with
        | .error reason => (.rejected reason, d.pruned)
        | .ok (env, routeCfg) =>
          acceptRun io (sealedSenderKey peerNodeId) [sealedKey sealed, env.id.toText] env
            targetRoute routeCfg d.pruned := by
  unfold fedSealedIngress sealedHeader sealedGate cfgSnapshot fedTrustDenied utcNow
  split
  · rfl
  rw [Prog.run_observe_bind, Prog.run_ite]
  split
  · rfl
  rw [Prog.run_critical_bind]
  dsimp only
  split
  · rfl
  change Prog.run _ d.pruned = _
  rw [Prog.run_observe_bind]
  have cfg : d.pruned.cfg = d.cfg := rfl
  rw [cfg]
  cases d.cfg.federation with
  | none => rfl
  | some fed =>
    dsimp only
    rw [Prog.run_observe_bind, Prog.run_ite]
    have store : d.pruned.store = d.store := rfl
    rw [store]
    split
    · rfl
    cases openSeal K sealed with
    | error reason => rfl
    | ok env =>
      dsimp only
      cases checkChainShape env peerNodeId fed.maxHops with
      | some reason => rfl
      | none =>
        rw [Prog.run_ite]
        split
        · rfl
        dsimp only
        rw [Prog.run_bind_of (isSeen_run ..), Prog.run_ite, d.remembers_pruned,
          d.pruned_pruned]
        split
        · rfl
        unfold sealedRoute
        rw [Prog.run_observe_bind]
        have clock : d.pruned.clock = d.clock := rfl
        rw [clock]
        cases boundReplayAndClampTtl d.clock.utc env fed.maxTtlSecs with
        | none => rfl
        | some env =>
          rw [Prog.run_ite]
          split
          · rfl
          rw [Prog.run_observe_bind, cfg]
          cases d.cfg.routeCfg targetRoute with
          | none => rfl
          | some routeCfg =>
            dsimp only
            rw [Prog.run_observe_bind, Prog.run_ite, cfg, acceptFederated_run]
            split <;> rfl

structure InWindow (now : Int) (env : Envelope) (maxTtlSecs : Nat) (clamped : Envelope) : Prop where
  id : clamped.id = env.id
  created : clamped.createdAt = env.createdAt
  deadline : now ≤ env.createdAt + seconds maxTtlSecs
  skew : env.createdAt ≤ now + maxCreatedAtSkew
  same : ∃ priority expires, clamped = { env with priority := priority, expiresAt := expires }

variable {env clamped : Envelope} {K : Crypto} {d d' : Daemon} {peerNodeId targetRoute : String}
  {routeCfg : RouteConfig} {reason : Reason} {sealed : SealedEnvelope} {fed : FederationConfig}
  {io : Faults} {id : Uuid}

theorem inWindow_of_bound {now : Int} {maxTtlSecs : Nat}
    (bound : boundReplayAndClampTtl now env maxTtlSecs = some clamped) :
    InWindow now env maxTtlSecs clamped := by
  unfold boundReplayAndClampTtl at bound
  split at bound
  · exact absurd bound (by simp)
  · rename_i deadline fits
    have sum := checkedAdd_eq_some fits
    split at bound
    · exact absurd bound (by simp)
    · rename_i outside
      cases bound
      exact ⟨rfl, rfl, by omega, by omega, env.priority, _, rfl⟩

theorem hops_of_bound {now : Int} {maxTtlSecs : Nat}
    (bound : boundReplayAndClampTtl now env maxTtlSecs = some clamped) :
    clamped.hops = env.hops := by
  obtain ⟨priority, expires, same⟩ := (inWindow_of_bound bound).same
  rw [same]

structure Passed (d : Daemon) (env : Envelope) (targetRoute : String) (clamped : Envelope)
    (routeCfg : RouteConfig) (fed : FederationConfig) : Prop where
  federation : d.cfg.federation = some fed
  window : InWindow d.clock.utc env fed.maxTtlSecs clamped
  listed : targetRoute ∈ fed.ingressRoutes
  route : d.cfg.routeCfg targetRoute = some routeCfg

theorem fedGate_ok (passed : fedGate K d peerNodeId env targetRoute = .ok (clamped, routeCfg)) :
    ∃ fed, Passed d env targetRoute clamped routeCfg fed ∧ env.hops < fed.maxHops := by
  unfold fedGate at passed
  dsimp only at passed
  split at passed
  · cases passed
  rename_i fed federation
  split at passed
  · cases passed
  split at passed
  · cases passed
  split at passed
  · cases passed
  split at passed
  · cases passed
  rename_i bounded bound
  split at passed
  · cases passed
  rename_i hops
  split at passed
  · cases passed
  rename_i listed
  split at passed
  · cases passed
  rename_i found route
  obtain ⟨rfl, rfl⟩ : bounded = clamped ∧ found = routeCfg := by simpa using passed
  obtain ⟨id, created, deadline, skew, same⟩ := inWindow_of_bound bound
  refine ⟨fed, ⟨federation, ⟨id, created, deadline, skew, same⟩, by simpa using listed, route⟩, ?_⟩
  rw [hops_of_bound bound] at hops
  exact Nat.lt_of_not_le hops

theorem chainShape_reason {maxHops : Nat}
    (shape : checkChainShape env peerNodeId maxHops = some reason) : reason ≠ .duplicate := by
  unfold checkChainShape at shape
  split_ifs at shape
  · cases shape
    decide
  · cases shape
    decide

theorem openSeal_reason (closed : openSeal K sealed = .error reason) : reason ≠ .duplicate := by
  unfold openSeal at closed
  split at closed
  · rename_i failure _
    cases closed
    cases failure <;> decide
  · rename_i bytes _
    cases decoded : K.decode bytes with
    | none =>
      rw [decoded] at closed
      cases closed
      decide
    | some env =>
      rw [decoded] at closed
      cases closed

theorem fedGate_error {refusal : Refusal}
    (refused : fedGate K d peerNodeId env targetRoute = .error refusal) :
    refusal.reason ≠ .duplicate ∧ ∀ e, refusal.record = some e → e.id = env.id := by
  have unrecorded {reason : Reason} (same : Except.error (⟨reason, none⟩ : Refusal) =
      (.error refusal : Except Refusal (Envelope × RouteConfig))) (other : reason ≠ .duplicate) :
      refusal.reason ≠ .duplicate ∧ ∀ e, refusal.record = some e → e.id = env.id := by
    cases same
    exact ⟨other, fun e record => absurd record (by simp)⟩
  have recorded {reason : Reason} {e : Envelope} (same : Except.error (⟨reason, some e⟩ : Refusal) =
      (.error refusal : Except Refusal (Envelope × RouteConfig))) (other : reason ≠ .duplicate)
      (id : e.id = env.id) :
      refusal.reason ≠ .duplicate ∧ ∀ e, refusal.record = some e → e.id = env.id := by
    cases same
    refine ⟨other, fun e' record => ?_⟩
    cases record
    exact id
  unfold fedGate at refused
  dsimp only at refused
  split at refused
  · exact recorded refused (by decide) rfl
  split at refused
  · exact unrecorded refused (by decide)
  split at refused
  · rename_i reason shape
    exact unrecorded refused (chainShape_reason shape)
  split at refused
  · exact unrecorded refused (by decide)
  split at refused
  · exact recorded refused (by decide) rfl
  rename_i bounded bound
  have id := (inWindow_of_bound bound).id
  split at refused
  · exact recorded refused (by decide) id
  split at refused
  · exact recorded refused (by decide) id
  split at refused
  · exact recorded refused (by decide) id
  · cases refused

theorem sealedGate_ok (passed : sealedGate K d peerNodeId sealed = .ok (env, fed)) :
    d.cfg.federation = some fed ∧ openSeal K sealed = .ok env := by
  unfold sealedGate at passed
  split at passed
  · cases passed
  rename_i configured federation
  split at passed
  · cases passed
  split at passed
  · cases passed
  rename_i inside opened
  split at passed
  · cases passed
  split at passed
  · cases passed
  obtain ⟨rfl, rfl⟩ : inside = env ∧ configured = fed := by simpa using passed
  exact ⟨federation, opened⟩

theorem sealedGate_error (refused : sealedGate K d peerNodeId sealed = .error reason) :
    reason ≠ .duplicate := by
  unfold sealedGate at refused
  split at refused
  · cases refused
    decide
  split at refused
  · cases refused
    decide
  split at refused
  · rename_i reason' closed
    cases refused
    exact openSeal_reason closed
  split at refused
  · rename_i reason' shape
    cases refused
    exact chainShape_reason shape
  split at refused
  · cases refused
    decide
  · cases refused

theorem sealedRoute_error (refused : sealedRoute d fed env targetRoute = .error reason) :
    reason ≠ .duplicate := by
  unfold sealedRoute at refused
  split at refused
  · cases refused
    decide
  split at refused
  · cases refused
    decide
  split at refused
  · cases refused
    decide
  split at refused
  · cases refused
  · cases refused
    decide

theorem sealedRoute_ok (federation : d.cfg.federation = some fed)
    (passed : sealedRoute d fed env targetRoute = .ok (clamped, routeCfg)) :
    Passed d env targetRoute clamped routeCfg fed := by
  unfold sealedRoute at passed
  split at passed
  · cases passed
  rename_i bounded bound
  split at passed
  · cases passed
  rename_i listed
  split at passed
  · cases passed
  rename_i found route
  split at passed
  · obtain ⟨rfl, rfl⟩ : bounded = clamped ∧ found = routeCfg := by simpa using passed
    exact ⟨federation, inWindow_of_bound bound, by simpa using listed, route⟩
  · cases passed

inductive Presentation
  | plain (env : Envelope)
  | sealed (frame : SealedEnvelope)

namespace Presentation

def envelope? (K : Crypto) : Presentation → Option Envelope
  | .plain env => some env
  | .sealed frame => (openSeal K frame).toOption

def keys (id : Uuid) : Presentation → List String
  | .plain _ => [id.toText]
  | .sealed frame => [sealedKey frame, id.toText]

theorem mem_keys (p : Presentation) (id : Uuid) : id.toText ∈ p.keys id := by
  cases p with
  | plain => exact mem_singleton.mpr rfl
  | sealed => exact mem_cons_of_mem _ (mem_singleton.mpr rfl)

def headerSeen (d : Daemon) : Presentation → Bool
  | .plain _ => false
  | .sealed frame => (d.dedup.isDuplicate (sealedKey frame) d.clock.instant).1

end Presentation

def Fed.presentation : Fed → Option (Presentation × String)
  | .envelope env targetRoute => some (.plain env, targetRoute)
  | .sealed frame targetRoute => some (.sealed frame, targetRoute)
  | .ack _ | .ping | .pong | .unknown => none

def present (K : Crypto) (io : Faults) (peerNodeId : String) (p : Presentation)
    (targetRoute : String) : Engine FedIngressOutcome :=
  match p with
  | .plain env => fedIngress K io peerNodeId env targetRoute
  | .sealed frame => fedSealedIngress K io peerNodeId frame targetRoute

inductive IngressCall
  | inbound (ids : Draws) (plugin endpoint sender kind body : String) (createdAt : Option Int)
      (attachments : List IpcAttachment) (priority : Option String)
  | present (peerNodeId : String) (p : Presentation) (targetRoute : String)
  | around (change : Daemon → Daemon)

def FedIngressOutcome.ids : FedIngressOutcome → List Uuid
  | .accepted id => [id]
  | .rejected _ => []

theorem openSeal_of_opens {frame : SealedEnvelope}
    (opens : (Presentation.sealed frame).envelope? K = some env) : openSeal K frame = .ok env := by
  change (openSeal K frame).toOption = some env at opens
  cases opened : openSeal K frame with
  | error reason => simp [opened, Except.toOption] at opens
  | ok inner =>
    rw [opened] at opens
    exact congrArg Except.ok (Option.some.inj opens)

inductive FedEffect (K : Crypto) (io : Faults) (peerNodeId : String) (p : Presentation)
    (targetRoute : String) (d : Daemon) : FedIngressOutcome → Daemon → Prop
  | refused (reason : Reason) (other : reason ≠ .duplicate) (d' : Daemon)
      (quiet : d' = d ∨ d' = d.pruned) :
      FedEffect K io peerNodeId p targetRoute d (.rejected reason) d'
  | recorded (env e : Envelope) (reason : Reason) (other : reason ≠ .duplicate)
      (is : p = .plain env)
      (gate : fedGate K d peerNodeId env targetRoute = .error ⟨reason, some e⟩)
      (same : e.id = env.id) : FedEffect K io peerNodeId p targetRoute d (.rejected reason)
        (d.refused targetRoute peerNodeId ⟨reason, some e⟩)
  | duplicate (found : p.headerSeen d = true ∨
      ∃ env, p.envelope? K = some env ∧ d.remembers env.id = true) :
      FedEffect K io peerNodeId p targetRoute d (.rejected .duplicate) d.pruned
  | through (env clamped : Envelope) (routeCfg : RouteConfig) (fed : FederationConfig)
      (senderKey : String) (opens : p.envelope? K = some env) (unseen : d.remembers env.id = false)
      (passed : Passed d env targetRoute clamped routeCfg fed) :
      FedEffect K io peerNodeId p targetRoute d
        (acceptRun io senderKey (p.keys env.id) clamped targetRoute routeCfg d.pruned).1
        (acceptRun io senderKey (p.keys env.id) clamped targetRoute routeCfg d.pruned).2

theorem fedIngress_effect (K : Crypto) (io : Faults) (peerNodeId : String) (env : Envelope)
    (targetRoute : String) (d : Daemon) :
    FedEffect K io peerNodeId (.plain env) targetRoute d
      ((fedIngress K io peerNodeId env targetRoute).run d).1
      ((fedIngress K io peerNodeId env targetRoute).run d).2 := by
  rw [fedIngress_run]
  cases gate : fedGate K d peerNodeId env targetRoute with
  | error refusal =>
    obtain ⟨reason, record⟩ := refusal
    obtain ⟨other, records⟩ := fedGate_error gate
    cases record with
    | none => exact .refused reason other d (.inl rfl)
    | some e => exact .recorded env e reason other rfl gate (records e rfl)
  | ok pair =>
    obtain ⟨clamped, routeCfg⟩ := pair
    obtain ⟨fed, passed, _⟩ := fedGate_ok gate
    have named := passed.window.id
    dsimp only
    split
    · rename_i found
      exact .duplicate (.inr ⟨env, rfl, by rw [← named]; exact found⟩)
    · rename_i unseen
      have forgotten : d.remembers env.id = false := by rw [← named]; simpa using unseen
      rw [named]
      exact .through env clamped routeCfg fed _ rfl forgotten passed

theorem sealedHeader_some (refused : sealedHeader d sealed = some (reason, d')) :
    (reason ≠ .duplicate ∧ d' = d) ∨ (reason = .duplicate ∧ d' = d.pruned ∧
      (d.dedup.isDuplicate (sealedKey sealed) d.clock.instant).1 = true) := by
  unfold sealedHeader at refused
  split_ifs at refused with alg late seen
  · cases refused
    exact .inl ⟨by decide, rfl⟩
  · cases refused
    exact .inl ⟨by decide, rfl⟩
  · cases refused
    exact .inr ⟨rfl, rfl, seen⟩

theorem fedSealedIngress_effect (K : Crypto) (io : Faults) (peerNodeId : String)
    (sealed : SealedEnvelope) (targetRoute : String) (d : Daemon) :
    FedEffect K io peerNodeId (.sealed sealed) targetRoute d
      ((fedSealedIngress K io peerNodeId sealed targetRoute).run d).1
      ((fedSealedIngress K io peerNodeId sealed targetRoute).run d).2 := by
  rw [fedSealedIngress_run]
  cases header : sealedHeader d sealed with
  | some refusal =>
    obtain ⟨reason, d'⟩ := refusal
    rcases sealedHeader_some header with ⟨other, rfl⟩ | ⟨rfl, rfl, seen⟩
    · exact .refused reason other _ (.inl rfl)
    · exact .duplicate (.inl seen)
  | none =>
    cases gate : sealedGate K d peerNodeId sealed with
    | error reason => exact .refused reason (sealedGate_error gate) _ (.inr rfl)
    | ok pair =>
      obtain ⟨env, fed⟩ := pair
      obtain ⟨federation, opened⟩ := sealedGate_ok gate
      have opens : (Presentation.sealed sealed).envelope? K = some env := by
        change (openSeal K sealed).toOption = some env
        rw [opened]
        rfl
      dsimp only
      split
      · rename_i found
        exact .duplicate (.inr ⟨env, opens, found⟩)
      · rename_i unseen
        cases way : sealedRoute d fed env targetRoute with
        | error reason => exact .refused reason (sealedRoute_error way) _ (.inr rfl)
        | ok pair =>
          obtain ⟨clamped, routeCfg⟩ := pair
          have passed := sealedRoute_ok federation way
          have named := passed.window.id
          dsimp only
          rw [named]
          exact .through env clamped routeCfg fed _ opens (by simpa using unseen) passed

theorem present_effect (K : Crypto) (io : Faults) (peerNodeId : String) (p : Presentation)
    (targetRoute : String) (d : Daemon) :
    FedEffect K io peerNodeId p targetRoute d ((present K io peerNodeId p targetRoute).run d).1
      ((present K io peerNodeId p targetRoute).run d).2 := by
  cases p with
  | plain env => exact fedIngress_effect ..
  | sealed sealed => exact fedSealedIngress_effect ..

/-- A call that returned `Accepted`: what it was shown had passed every gate under this id, which
was not remembered, and the call ended in the common acceptance. -/
structure Acceptance (io : Faults) (d d' : Daemon) (env : Envelope) (targetRoute : String)
    (id : Uuid) : Prop where
  same : id = env.id
  unseen : d.remembers env.id = false
  passed : ∃ clamped routeCfg fed senderKey keys, Passed d env targetRoute clamped routeCfg fed ∧
    env.id.toText ∈ keys ∧
      acceptRun io senderKey keys clamped targetRoute routeCfg d.pruned = (.accepted id, d')

theorem AcceptEffect.accepted {keys : List String} {outcome : FedIngressOutcome}
    (effect : AcceptEffect io keys env targetRoute routeCfg d outcome d')
    (accepted : outcome = .accepted id) : id = env.id ∧ (d'.store.getMessage id).isSome = true := by
  cases effect with
  | limited | failed => cases accepted
  | stored limiter works =>
    obtain rfl := FedIngressOutcome.accepted.inj accepted
    refine ⟨rfl, ?_⟩
    change Map.contains (persistStore _ _ _ _ _ _ _ _ _).2.messages _ = true
    rw [messages_persistStore, if_neg (by simp [works]), Map.contains_insertOrIgnore]
    simp

theorem Acceptance.stored (acceptance : Acceptance io d d' env targetRoute id) :
    (d'.store.getMessage id).isSome = true := by
  obtain ⟨clamped, routeCfg, _, senderKey, keys, _, _, accepted⟩ := acceptance.passed
  have effect := acceptRun_effect io senderKey keys clamped targetRoute routeCfg d.pruned
  rw [accepted] at effect
  exact (effect.accepted rfl).2

theorem Acceptance.copy (acceptance : Acceptance io d d' env targetRoute id) :
    ∃ priority expires, d'.store.getMessage id = some { env with
      priority := priority
      expiresAt := expires
      receivedAt := d.clock.utc } := by
  obtain ⟨clamped, routeCfg, _, senderKey, keys, passed, _, accepted⟩ := acceptance.passed
  obtain ⟨priority, expires, same⟩ := passed.window.same
  have fresh : d.store.messages env.id = none := by
    have unseen := acceptance.unseen
    simp only [Daemon.remembers, Bool.or_eq_false_iff] at unseen
    have absent : d.store.getMessage env.id = none := by simpa using unseen.2
    exact absent
  have effect := acceptRun_effect io senderKey keys clamped targetRoute routeCfg d.pruned
  rw [accepted] at effect
  refine ⟨priority, expires, ?_⟩
  obtain rfl := acceptance.same
  generalize outcome : FedIngressOutcome.accepted env.id = out at effect
  cases effect with
  | limited | failed => cases outcome
  | stored limiter works =>
    change (persistStore _ _ _ _ _ _ _ _ _).2.messages _ = _
    rw [messages_persistStore, if_neg (by simp [works]), same]
    exact Map.insertOrIgnore_of_none fresh _

theorem FedEffect.accepted {p : Presentation}
    {outcome : FedIngressOutcome} (effect : FedEffect K io peerNodeId p targetRoute d outcome d')
    (accepted : outcome = .accepted id) :
    ∃ env, p.envelope? K = some env ∧ Acceptance io d d' env targetRoute id := by
  cases effect with
  | refused | recorded | duplicate => exact absurd accepted (by simp)
  | through env clamped routeCfg fed senderKey opens unseen passed =>
    have named := passed.window.id
    have same := ((acceptRun_effect ..).accepted accepted).1
    exact ⟨env, opens, same.trans named, unseen, clamped, routeCfg, fed, senderKey, _, passed,
      p.mem_keys env.id, Prod.ext accepted rfl⟩

theorem fedIngress_accepted
    (accepted : ((fedIngress K io peerNodeId env targetRoute).run d).1 = .accepted id) :
    Acceptance io d ((fedIngress K io peerNodeId env targetRoute).run d).2 env targetRoute id := by
  obtain ⟨env', opens, given⟩ := (fedIngress_effect ..).accepted accepted
  cases opens
  exact given

theorem fedSealedIngress_accepted
    (accepted : ((fedSealedIngress K io peerNodeId sealed targetRoute).run d).1 = .accepted id) :
    ∃ env, openSeal K sealed = .ok env ∧
      Acceptance io d ((fedSealedIngress K io peerNodeId sealed targetRoute).run d).2 env
        targetRoute id := by
  obtain ⟨env, opens, given⟩ :=
    (fedSealedIngress_effect ..).accepted accepted
  exact ⟨env, openSeal_of_opens opens, given⟩

end RelayFabric
