/- source: engine.rs (process_due, process_due_identity, process_due_fed)
   digest: The life of one delivery attempt as a typestate, and that egress keeps to it. -/

import RelayFabric.Delivery.Effects

namespace RelayFabric

open Lib
open Prog hiding bind run

/-- Where one run of `process_due` stands: still deciding (with nothing settled, the destination
found away, the budget found spent, or the budget charged), between the counted attempt and the
send, after a refused send, or through. -/
inductive Phase
  | ready | offline | held | charged | sending | refused | done
  deriving DecidableEq, Repr

def Phase.deciding : Phase → Bool
  | .ready | .offline | .held | .charged => true
  | .sending | .refused | .done => false

def Phase.clear : Phase → Bool
  | .ready | .charged => true
  | .offline | .held | .sending | .refused | .done => false

def reachable (d : Daemon) (del : Delivery) : Bool :=
  if del.route ≠ identityRoute ∧ del.destination.protocol = fedProtocol then
    (fedTarget del.destination.endpoint).all (fun target =>
      (d.conns.bind (fun conns => conns target.1)).isSome)
  else (d.plugins del.destination.protocol).any PluginHandle.connected

inductive FrameOf (K : Crypto) (del : Delivery) (m : Uuid) (peer : String) : Fed → Prop
  | plain (route : String) (env : Envelope) (remote : del.destination.protocol = fedProtocol)
      (target : fedTarget del.destination.endpoint = some (peer, route)) (id : env.id = m) :
      FrameOf K del m peer (.envelope env route)
  | sealed (route : String) (env : Envelope) (seed : Nat) (expires : Int) (key : Bytes)
      (remote : del.destination.protocol = fedProtocol)
      (target : fedTarget del.destination.endpoint = some (peer, route)) (id : env.id = m) :
      FrameOf K del m peer
        (.sealed (K.sealBytes seed (K.encode env) env.id.toText expires key) route)

def outgoing (K : Crypto) (ts : Int) (exposure peer route : String) (stored : Envelope) :
    Envelope :=
  attested K ts (signedOrigin K exposure peer route stored)

def sealedKeyOf (K : Crypto) (d d' : Daemon) (peerName : String) : Option Bytes :=
  (d.cfg.peer? peerName).bind (fun peer =>
    (peer.sealedKey.or (((d'.store.listPeerAdverts d'.clock.utc).find? (fun a =>
      a.nodeId == peer.nodeId)).bind (fun a => (K.advertKey a.advertCbor).bind (fun (node, key) =>
        if node = a.nodeId then key else none)))).bind K.publicKey)

/-- The frames federation egress builds in the round that began at `now` for a row whose stored
message has not expired: the outgoing envelope, plain when the row's route was last seen in a mode
other than sealed, or sealed for the peer's key. What it reads, it reads in daemons that are
`ok`. -/
inductive Emission (K : Crypto) (ok : Daemon → Prop) (del : Delivery) (now : Int)
    (stored : Envelope) (peer : String) : Fed → Prop
  | plain (route exposure : String) (ts : Int) (read : Daemon) (fine : ok read) (cfg : RouteConfig)
      (found : read.cfg.routeCfg del.route = some cfg) (mode : cfg.securityMode ≠ "sealed")
      (remote : del.destination.protocol = fedProtocol)
      (target : fedTarget del.destination.endpoint = some (peer, route))
      (live : stored.isExpired now = false) :
      Emission K ok del now stored peer (.envelope (outgoing K ts exposure peer route stored) route)
  | sealed (route exposure : String) (ts : Int) (seed : Nat) (expires : Int) (key : Bytes)
      (read read' read'' : Daemon) (fine : ok read) (fine' : ok read') (fine'' : ok read'')
      (resolved : sealedKeyOf K read read' peer = some key)
      (header : checkedAdd stored.createdAt
        (seconds (read''.cfg.federation.elim 86400 FederationConfig.maxTtlSecs : Nat)) =
        some expires)
      (fits : (K.encode (outgoing K ts exposure peer route stored)).length ≤ sealedMaxBytes)
      (remote : del.destination.protocol = fedProtocol)
      (target : fedTarget del.destination.endpoint = some (peer, route))
      (live : stored.isExpired now = false) :
      Emission K ok del now stored peer
        (.sealed (K.sealBytes seed (K.encode (outgoing K ts exposure peer route stored))
          stored.id.toText (timestamp expires) key) route)

/-- The sections of one attempt at the copy `del` in the round that began at `now`. Federation
frames satisfy `good` for the channel that takes them. -/
inductive EgressStep (good : Nat → Fed → Prop) (del : Delivery) (now : Int) :
    Phase → Section → Daemon → Daemon → Phase → Prop
  | look (q : Phase) (l : Section) (d d' : Daemon) (clear : q.clear = true)
      (store : d'.store = d.store) (budget : d'.budgetLimiter = d.budgetLimiter)
      (wires : d.SameWires d') (cas : d'.cas = d.cas) : EgressStep good del now q l d d' q
  | away (l : Section) (d : Daemon) (unreached : reachable d del = false) :
      EgressStep good del now .ready l d d .offline
  | hold (d : Daemon) (key : String) (perMinute : Nat)
      (spent : (d.budgetLimiter.allow key perMinute d.clock.instant).1 = false) :
      EgressStep good del now .ready .budget d
        { d with budgetLimiter := (d.budgetLimiter.allow key perMinute d.clock.instant).2 } .held
  | charge (d : Daemon) (key : String) (perMinute : Nat)
      (within : (d.budgetLimiter.allow key perMinute d.clock.instant).1 = true) :
      EgressStep good del now .ready .budget d
        { d with budgetLimiter := (d.budgetLimiter.allow key perMinute d.clock.instant).2 } .charged
  | terminate (q : Phase) (d : Daemon) (clear : q.clear = true) (state : DeliveryState)
      (reason : Reason) (finished : state.live = false) (unsent : state ≠ .delivered)
      (spent : reason = .retryExhausted → maxAttempts ≤ del.attemptCount) :
      EgressStep good del now q (.mark del.id) d
        { d with store := d.store.markTerminal d.clock.utc del.id state reason } .done
  | postpone (q : Phase) (d : Daemon) (blocked : q = .offline ∨ q = .held) (next : Int)
      (later : now + seconds 5 ≤ next) :
      EgressStep good del now q (.mark del.id) d
        { d with store := d.store.markRetry d.clock.utc del.id next } .done
  | attempt (q : Phase) (d : Daemon) (clear : q.clear = true)
      (left : del.attemptCount < maxAttempts) :
      EgressStep good del now q (.attempt del.id) d
        { d with store := d.store.markAttempting d.clock.utc del.id } .sending
  | placePlugin (d : Daemon) (tx : Nat) (c : Channel DaemonToPlugin) :
      EgressStep good del now .sending (.sendPlugin del.id tx) d
        { d.countPlaced del.id with pluginChannels := d.pluginChannels.insert tx c } .done
  | placeFed (d : Daemon) (tx : Nat) (c c' : Channel Fed) (frame : Fed) (is : good tx frame)
      (found : d.fedChannels tx = some c) (took : c.trySend frame = some c') :
      EgressStep good del now .sending (.sendFed del.id tx) d
        { d.countPlaced del.id with fedChannels := d.fedChannels.insert tx c' } .done
  | refuse (l : Section) (d : Daemon) (row : l.handover = some del.id)
      (shut : l.hasRoom d = false) : EgressStep good del now .sending l d d .refused
  | requeue (d : Daemon) :
      EgressStep good del now .refused (.mark del.id) d
        { d with store := d.store.markRetry d.clock.utc del.id (now + seconds 5) } .done

section Follows

variable {good : Nat → Fed → Prop} {del : Delivery} {now : Int} {ok : Daemon → Prop} {q : Phase}

abbrev Attempts (good : Nat → Fed → Prop) (del : Delivery) (now : Int) (ok : Daemon → Prop)
    (q : Phase) (p : Engine Unit) : Prop :=
  Follows ok (EgressStep good del now) (fun q _ => q = .done) q p

private theorem attempts_terminal {state : DeliveryState} {reason : Reason} (clear : q.clear = true)
    (finished : state.live = false) (unsent : state ≠ .delivered)
    (spent : reason = .retryExhausted → maxAttempts ≤ del.attemptCount) :
    Attempts good del now ok q (markTerminal del.id state reason) :=
  follows_modify (fun d _ => ⟨.done, .terminate q d clear state reason finished unsent spent, rfl⟩)

private theorem attempts_end {state : DeliveryState} {reason : Reason} (clear : q.clear = true)
    (finished : state.live = false) (unsent : state ≠ .delivered)
    (other : reason ≠ .retryExhausted) :
    Attempts good del now ok q (markTerminal del.id state reason) :=
  attempts_terminal clear finished unsent (fun same => absurd same other)

private theorem attempts_retry {next : Int} (blocked : q = .offline ∨ q = .held)
    (later : now + seconds 5 ≤ next) : Attempts good del now ok q (retryAt del.id next) :=
  follows_modify (fun d _ => ⟨.done, .postpone q d blocked next later, rfl⟩)

private theorem attempts_send {handover : Section} {trySend : Daemon → Bool × Daemon}
    (row : handover.handover = some del.id) (clear : q.clear = true)
    (left : del.attemptCount < maxAttempts)
    (taken : ∀ d, (trySend d).1 = true →
      EgressStep good del now .sending handover d (trySend d).2 .done)
    (refused : ∀ d, (trySend d).1 = false → (trySend d).2 = d ∧ handover.hasRoom d = false) :
    Attempts good del now ok q (attemptSend del.id now handover trySend) := by
  refine follows_modify_bind (fun d _ => ⟨.sending, .attempt q d clear left, ?_⟩)
  refine follows_critical_bind (fun d _ => ?_)
  cases answer : (trySend d).1 with
  | true => exact ⟨.done, taken d answer, follows_pure rfl⟩
  | false =>
    obtain ⟨same, shut⟩ := refused d answer
    refine ⟨.refused, ?_, ?_⟩
    · rw [same]
      exact .refuse handover d row shut
    · exact follows_modify (fun d _ => ⟨.done, .requeue d, rfl⟩)

private theorem any_room_of_refused {φ : Type} {channel : Option (Channel φ)} {frame : φ}
    (refused : channel.bind (fun c => c.trySend frame) = none) :
    channel.any Channel.room = false := by
  cases channel with
  | none => rfl
  | some c => exact Channel.trySend_eq_none.mp refused

private theorem attempts_sendPlugin (clear : q.clear = true) (left : del.attemptCount < maxAttempts)
    (tx : Nat) (frame : DaemonToPlugin) :
    Attempts good del now ok q (attemptSend del.id now (.sendPlugin del.id tx)
      (fun d => d.trySendPlugin del.id tx frame)) := by
  refine attempts_send rfl clear left (fun d taken => ?_) (fun d refused => ?_)
  · unfold Daemon.trySendPlugin at taken ⊢
    cases answer : (d.pluginChannels tx).bind (fun c => c.trySend frame) with
    | none => simp [answer] at taken
    | some c => exact .placePlugin d tx c
  · unfold Daemon.trySendPlugin at refused ⊢
    cases answer : (d.pluginChannels tx).bind (fun c => c.trySend frame) with
    | none => exact ⟨rfl, any_room_of_refused answer⟩
    | some c => simp [answer] at refused

private theorem attempts_sendFed (clear : q.clear = true) (left : del.attemptCount < maxAttempts)
    (tx : Nat) (frame : Fed) (is : good tx frame) :
    Attempts good del now ok q (attemptSend del.id now (.sendFed del.id tx)
      (fun d => d.trySendFed del.id tx frame)) := by
  refine attempts_send rfl clear left (fun d taken => ?_) (fun d refused => ?_)
  · unfold Daemon.trySendFed at taken ⊢
    cases answer : (d.fedChannels tx).bind (fun c => c.trySend frame) with
    | none => simp [answer] at taken
    | some c' =>
      obtain ⟨c, found, took⟩ := Option.bind_eq_some_iff.mp answer
      exact .placeFed d tx c c' frame is found took
  · unfold Daemon.trySendFed at refused ⊢
    cases answer : (d.fedChannels tx).bind (fun c => c.trySend frame) with
    | none => exact ⟨rfl, any_room_of_refused answer⟩
    | some c => simp [answer] at refused

abbrev Looks {α : Type} (good : Nat → Fed → Prop) (del : Delivery) (now : Int)
    (ok : Daemon → Prop) (q : Phase) (p : Engine α) : Prop :=
  Follows ok (EgressStep good del now) (fun q' _ => q' = q) q p

variable {l : Section}

private theorem looks_observe {α : Type} {read : Daemon → α} (clear : q.clear = true) :
    Looks good del now ok q (.observe l read) := by
  refine follows_critical (fun d _ => ⟨q, .look q l d d clear rfl rfl (.refl d) rfl, rfl⟩)

abbrev Reads {α : Type} (p : Engine α) : Prop :=
  Always (fun l d d' => l ≠ .budget ∧ l.handover = none ∧ d' = d) p

theorem reads_observe {α : Type} {read : Daemon → α} (other : l ≠ .budget)
    (none : l.handover = none) : Reads (.observe l read : Engine α) :=
  always_observe (fun _ => ⟨other, none, rfl⟩)

theorem Reads.looks {α : Type} {p : Engine α} (reads : Reads p) (clear : q.clear = true) :
    Looks good del now ok q p := by
  refine follows_within reads (fun q' l d d' same section_ => ?_) rfl
  obtain ⟨_, _, rfl⟩ := section_
  subst same
  exact ⟨_, .look _ l _ _ clear rfl rfl (.refl _) rfl, rfl⟩

private theorem attempts_bind {α : Type} {p : Engine α} {rest : α → Engine Unit}
    (first : Looks good del now ok q p) (second : ∀ a, Attempts good del now ok q (rest a)) :
    Attempts good del now ok q (p >>= rest) := by
  refine follows_bind first (fun q' a same => ?_)
  subst same
  exact second a

private theorem attempts_observe {α : Type} {read : Daemon → α}
    {rest : α → Engine Unit} (clear : q.clear = true)
    (each : ∀ d, ok d → Attempts good del now ok q (rest (read d))) :
    Attempts good del now ok q (.observe l read >>= rest) :=
  follows_observe_bind (fun d fine =>
    ⟨q, .look q l d d clear rfl rfl (.refl d) rfl, each d fine⟩)

private theorem attempts_budget {p : Engine Bool} {rest : Engine Unit} {next : Int}
    (check : Follows ok (EgressStep good del now)
      (fun q' allowed => if allowed then q'.clear = true else q' = .held) .ready p)
    (later : now + seconds 5 ≤ next)
    (go : ∀ q', q'.clear = true → Attempts good del now ok q' rest) :
    Attempts good del now ok .ready (do if ← p then rest else retryAt del.id next) := by
  refine follows_bind check (fun q' allowed stands => ?_)
  cases allowed with
  | true => exact go q' stands
  | false => exact attempts_retry (.inr stands) later

private theorem budgetAllows_check (key : String) (rate : Config → Nat) :
    Follows ok (EgressStep good del now)
      (fun q' allowed => if allowed then q'.clear = true else q' = .held) .ready
      (budgetAllows key rate) := by
  refine follows_bind (looks_observe rfl) (fun q' perMinute same => ?_)
  subst same
  refine follows_critical (fun d _ => ?_)
  cases answer : (d.budgetLimiter.allow key perMinute d.clock.instant).1 with
  | true => exact ⟨.charged, .charge d key perMinute answer, rfl⟩
  | false => exact ⟨.held, .hold d key perMinute answer, rfl⟩

private theorem transportBudget_check :
    Follows ok (EgressStep good del now)
      (fun q' allowed => if allowed then q'.clear = true else q' = .held) .ready
      (transportBudgetAllows del) :=
  follows_ite (fun _ => budgetAllows_check _ _) (fun _ => follows_pure rfl)

private theorem looks_resolveSealedKey (K : Crypto) (peer : String) (clear : q.clear = true) :
    Follows ok (EgressStep good del now) (fun q' key? => q' = q ∧ ∀ key, key? = some key →
      ∃ read read', ok read ∧ ok read' ∧ sealedKeyOf K read read' peer = some key) q
      (resolveSealedKey K peer) := by
  refine follows_observe_bind (fun read fine =>
    ⟨q, .look q _ read read clear rfl rfl (.refl read) rfl, ?_⟩)
  dsimp only
  cases found : read.cfg.peer? peer with
  | none => exact follows_pure ⟨rfl, fun key none => absurd none (by simp)⟩
  | some entry =>
    refine follows_observe_bind (fun read' fine' =>
      ⟨q, .look q _ read' read' clear rfl rfl (.refl read') rfl, follows_pure ⟨rfl, ?_⟩⟩)
    intro key resolved
    refine ⟨read, read', fine, fine', ?_⟩
    unfold sealedKeyOf
    rw [found]
    exact resolved

private theorem later_ten (now : Int) : now + seconds 5 ≤ now + seconds 10 := by
  unfold seconds
  omega

private theorem attempts_plugin {read : Daemon → Option PluginHandle}
    {rest : PluginHandle → Engine Unit} (reads : ∀ d, read d = d.plugins del.destination.protocol)
    (local_ : ¬(del.route ≠ identityRoute ∧ del.destination.protocol = fedProtocol))
    (go : ∀ h, Attempts good del now ok .ready (rest h)) :
    Attempts good del now ok .ready (do
      let handle ← .observe .plugins read
      match handle.filter PluginHandle.connected with
      | none => retryAt del.id (now + seconds 5)
      | some h => rest h) := by
  refine follows_observe_bind (fun d _ => ?_)
  cases found : (read d).filter PluginHandle.connected with
  | none =>
    refine ⟨.offline, .away _ d ?_, attempts_retry (.inl rfl) le_rfl⟩
    rw [reads] at found
    unfold reachable
    rw [if_neg local_]
    cases handle : d.plugins del.destination.protocol with
    | none => rfl
    | some h =>
      rw [handle] at found
      cases up : h.connected with
      | true => simp [Option.filter, up] at found
      | false => exact up
  | some h => exact ⟨.ready, .look .ready _ d d rfl rfl rfl (.refl d) rfl, go h⟩

theorem processDueIdentity_attempts (env : Envelope) (left : del.attemptCount < maxAttempts)
    (notice : del.route = identityRoute) :
    Attempts good del now ok .ready (processDueIdentity del env now) := by
  refine attempts_plugin (fun _ => rfl) (fun other => other.1 notice) (fun h => ?_)
  refine follows_ite (fun _ => attempts_end rfl rfl (by decide) (by decide)) (fun _ => ?_)
  exact attempts_budget transportBudget_check (later_ten now)
    (fun q' clear => attempts_sendPlugin clear left _ _)

theorem signedOrigin_eq (K : Crypto) (exposure peer route : String) (env : Envelope) :
    ∃ sender origin, signedOrigin K exposure peer route env =
      { env with sender := sender, origin := origin } := by
  unfold signedOrigin
  cases env.origin with
  | some o => exact ⟨env.sender, env.origin, rfl⟩
  | none =>
    dsimp only
    split
    · exact ⟨_, _, rfl⟩
    · exact ⟨_, _, rfl⟩

section

variable (K : Crypto) (ts : Int) (exposure peer route : String) (env : Envelope)

theorem outgoing_eq :
    ∃ sender origin link, outgoing K ts exposure peer route env =
      { env with
        sender := sender
        origin := origin
        attestations := env.attestations ++ [link]
        hops := (env.hops + 1) % 2 ^ 32 } := by
  obtain ⟨sender, origin, same⟩ := signedOrigin_eq K exposure peer route env
  unfold outgoing attested
  rw [same]
  exact ⟨sender, origin, _, rfl⟩

theorem outgoing_id :
    (outgoing K ts exposure peer route env).id = env.id := by
  obtain ⟨sender, origin, link, same⟩ := outgoing_eq K ts exposure peer route env
  rw [same]

theorem outgoing_createdAt :
    (outgoing K ts exposure peer route env).createdAt = env.createdAt := by
  obtain ⟨sender, origin, link, same⟩ := outgoing_eq K ts exposure peer route env
  rw [same]

end

theorem Emission.frameOf {K : Crypto} {stored : Envelope} {peer : String} {frame : Fed}
    (emission : Emission K ok del now stored peer frame) : FrameOf K del stored.id peer frame := by
  cases emission with
  | plain route exposure ts read fine cfg found mode remote target live =>
    exact .plain route _ remote target (outgoing_id ..)
  | sealed route exposure ts seed expires key _ _ _ _ _ _ resolved header fits remote target live =>
    have id := outgoing_id K ts exposure peer route stored
    have built := FrameOf.sealed (K := K) (m := stored.id) route
      (outgoing K ts exposure peer route stored) seed (timestamp expires) key remote target id
    rw [id] at built
    exact built

section

variable (K : Crypto)

theorem processDueFedSealed_attempts (stored : Envelope) (exposure peer route : String)
    (ts : Int) (tx : Nat) (clear : q.clear = true) (left : del.attemptCount < maxAttempts)
    (remote : del.destination.protocol = fedProtocol)
    (target : fedTarget del.destination.endpoint = some (peer, route))
    (live : stored.isExpired now = false)
    (is : ∀ frame, Emission K ok del now stored peer frame → good tx frame) :
    Attempts good del now ok q
      (processDueFedSealed K del (outgoing K ts exposure peer route stored) peer route tx now) := by
  have id := outgoing_id K ts exposure peer route stored
  have created := outgoing_createdAt K ts exposure peer route stored
  refine follows_bind (looks_resolveSealedKey K peer clear) (fun q' key found => ?_)
  obtain ⟨rfl, resolves⟩ := found
  cases key with
  | none => exact attempts_end clear rfl (by decide) (by decide)
  | some recipient =>
    obtain ⟨read, read', fine, fine', resolved⟩ := resolves recipient rfl
    refine follows_ite (fun _ => attempts_end clear rfl (by decide) (by decide)) (fun fits => ?_)
    refine attempts_observe clear (fun read'' fine'' => ?_)
    rw [created, id]
    split
    · exact attempts_end clear rfl (by decide) (by decide)
    · rename_i expires header
      refine attempts_bind (looks_observe clear) (fun seed => attempts_sendFed clear left tx _ ?_)
      exact is _ (.sealed route exposure ts seed expires recipient read read' read'' fine
        fine' fine'' resolved header (Nat.le_of_not_lt fits) remote target live)

theorem processDueFed_attempts (env : Envelope) (left : del.attemptCount < maxAttempts)
    (remote : del.route ≠ identityRoute ∧ del.destination.protocol = fedProtocol)
    (live : env.isExpired now = false)
    (is : ∀ d peer conn frame, ok d → (d.conns.bind (fun conns => conns peer)) = some conn →
      Emission K ok del now env peer frame → good conn.tx frame) :
    Attempts good del now ok .ready (processDueFed K del env now) := by
  unfold processDueFed
  cases target : fedTarget del.destination.endpoint with
  | none => exact attempts_end rfl rfl (by decide) (by decide)
  | some pair =>
    obtain ⟨peer, route⟩ := pair
    refine follows_observe_bind (fun d fine => ?_)
    cases found : d.conns.bind (fun conns => conns peer) with
    | none =>
      refine ⟨.offline, .away _ d ?_, attempts_retry (.inl rfl) le_rfl⟩
      simp [reachable, remote, target, found]
    | some conn =>
      have fits := fun frame => is d peer conn frame fine found
      refine ⟨.ready, .look .ready _ d d rfl rfl rfl (.refl d) rfl, ?_⟩
      refine attempts_budget (budgetAllows_check _ _) le_rfl (fun q' clear => ?_)
      refine attempts_bind (looks_observe clear) (fun exposure => ?_)
      refine attempts_bind (looks_observe clear) (fun ts => ?_)
      refine attempts_observe clear (fun read fine' => ?_)
      dsimp only
      cases seen : read.cfg.routeCfg del.route with
      | none => exact attempts_end clear rfl (by decide) (by decide)
      | some routeCfg =>
        refine follows_ite (fun _ => ?_) (fun mode => ?_)
        · exact processDueFedSealed_attempts K env exposure peer route ts conn.tx clear left
            remote.2 target live fits
        · exact attempts_sendFed clear left conn.tx _ (fits _
            (.plain route exposure ts read fine' routeCfg seen mode remote.2 target live))

theorem reads_loadAttachments (m : Uuid) (cap : Option Nat) (budget : Nat)
    (tp : TransportPolicy) (files : List AttachmentMeta) :
    ∀ cumulative, Reads (loadAttachments K m cap budget tp files cumulative) := by
  induction files with
  | nil => exact fun _ => always_pure _
  | cons file rest ih =>
    intro cumulative
    have skipped : ∀ note : String, Reads (do
        let loaded ← loadAttachments K m cap budget tp rest cumulative
        pure (loaded.1, note ++ loaded.2)) :=
      fun note => always_bind (ih cumulative) (fun _ => always_pure _)
    unfold loadAttachments
    split
    · exact skipped _
    refine always_bind (reads_observe (by simp) rfl) (fun owned => ?_)
    refine always_bind (reads_observe (by simp) rfl) (fun data => ?_)
    split
    · exact skipped _
    refine always_ite (skipped _) (always_ite (skipped _) ?_)
    exact always_bind (ih _) (fun _ => always_pure _)

theorem reads_displayTag (del : Delivery) (env : Envelope) (routeCfg : Option RouteConfig) :
    Reads (displayTag K del env routeCfg) := by
  refine always_bind ?_ (fun tag => always_pure _)
  exact always_ite (reads_observe (by simp) rfl) (always_pure _)

theorem reads_outgoingAttachments (env : Envelope) (allowed : Bool)
    (cap : Option Nat) (tp : TransportPolicy) :
    Reads (outgoingAttachments K env allowed cap tp) := by
  refine always_ite (always_pure _) (always_ite ?_ (always_pure _))
  exact reads_loadAttachments ..

theorem processDuePlugin_attempts (env : Envelope) (maxPayload : Option Nat)
    (allowed : Bool) (cap : Option Nat) (left : del.attemptCount < maxAttempts)
    (local_ : ¬(del.route ≠ identityRoute ∧ del.destination.protocol = fedProtocol)) :
    Attempts good del now ok .ready (processDuePlugin K del env now maxPayload allowed cap) := by
  refine attempts_plugin (fun _ => rfl) local_ (fun h => ?_)
  refine attempts_bind (looks_observe rfl) (fun tp => ?_)
  refine attempts_budget transportBudget_check (later_ten now) (fun q' clear => ?_)
  refine attempts_bind (looks_observe clear) (fun routeCfg => ?_)
  refine attempts_bind ((reads_displayTag ..).looks clear) (fun tag => ?_)
  refine attempts_bind ((reads_outgoingAttachments ..).looks clear) (fun loaded => ?_)
  refine follows_ite (fun _ => attempts_end clear rfl (by decide) (by decide)) (fun _ => ?_)
  exact attempts_sendPlugin clear left _ _

theorem processDue_attempts (del : Delivery) (now : Int)
    (is : ∀ d env d' peer conn frame, ok d → d.store.getMessage del.messageId = some env →
      ok d' → (d'.conns.bind (fun conns => conns peer)) = some conn →
        Emission K ok del now env peer frame → good conn.tx frame) :
    Attempts good del now ok .ready (processDue K del now) := by
  refine attempts_observe rfl (fun d fine => ?_)
  cases found : d.store.getMessage del.messageId with
  | none => exact attempts_end rfl rfl (by decide) (by decide)
  | some env =>
    refine follows_ite (fun _ => attempts_end rfl rfl (by decide) (by decide)) (fun live => ?_)
    refine follows_ite (fun spent => attempts_terminal rfl rfl (by decide) (fun _ => spent))
      (fun more => ?_)
    have left : del.attemptCount < maxAttempts := Nat.lt_of_not_le more
    refine follows_ite (fun notice => processDueIdentity_attempts env left notice)
      (fun other => ?_)
    refine attempts_bind (looks_observe rfl) (fun policies => ?_)
    split
    · exact attempts_end rfl rfl (by decide) (by decide)
    refine follows_ite (fun remote => ?_)
      (fun local_ => processDuePlugin_attempts K env _ _ _ left (fun both => local_ both.2))
    exact processDueFed_attempts K env left ⟨other, remote⟩ (by simpa using live)
      (fun d' peer conn frame fine' => is d env d' peer conn frame fine found fine')

end

end Follows

def Current (del : Delivery) (s : Store) : Prop :=
  del.attemptCount < maxAttempts →
    ∃ r, s.row del.id = some r ∧ r.state = .pending ∧ r.attemptCount = del.attemptCount

variable {good : Nat → Fed → Prop} {del : Delivery} {now : Int} {q q' : Phase} {l : Section}
  {d d' : Daemon}

section

variable (step : EgressStep good del now q l d d' q')
include step

theorem EgressStep.still_deciding
    (deciding : q'.deciding = true) : q.deciding = true ∧ d'.store = d.store := by
  cases step with
  | look _ _ _ _ clear store => exact ⟨deciding, store⟩
  | away => exact ⟨rfl, rfl⟩
  | hold => exact ⟨rfl, rfl⟩
  | charge => exact ⟨rfl, rfl⟩
  | terminate | postpone | attempt | placePlugin | placeFed | refuse | requeue =>
    exact absurd deciding (by decide)

theorem EgressStep.messages :
    d'.store.messages = d.store.messages := by
  cases step with
  | look _ _ _ _ clear store => rw [store]
  | _ => rfl

theorem EgressStep.conns :
    d'.conns = d.conns := by
  cases step with
  | look _ _ _ _ clear store budget wires => exact wires.conns
  | _ => rfl

theorem EgressStep.settings :
    d'.cfg = d.cfg ∧ d'.clock = d.clock := by
  cases step with
  | look _ _ _ _ clear store budget wires => exact ⟨wires.cfg, wires.clock⟩
  | _ => exact ⟨rfl, rfl⟩

theorem EgressStep.blobs :
    d'.cas = d.cas ∧ d'.store.attachmentRefs = d.store.attachmentRefs := by
  cases step with
  | look _ _ _ _ clear store budget wires cas => exact ⟨cas, by rw [store]⟩
  | _ => exact ⟨rfl, rfl⟩

theorem EgressStep.fedChannels (tx : Nat) :
    d'.fedChannels tx = d.fedChannels tx ∨ ∃ c c' frame, good tx frame ∧
      d.fedChannels tx = some c ∧ c.trySend frame = some c' ∧ d'.fedChannels tx = some c' := by
  cases step with
  | look _ _ _ _ clear store budget wires => exact .inl (by rw [wires.fedChannels])
  | placeFed _ tx' c c' frame is found took =>
    by_cases same : tx = tx'
    · subst same
      exact .inr ⟨c, c', frame, is, found, took, by simp [Map.insert_apply]⟩
    · exact .inl (by simp [Map.insert_apply, same])
  | _ => exact .inl rfl

end

theorem EgressStep.handover (step : EgressStep good del now .sending l d d' q') :
    l.handover = some del.id := by
  cases step with
  | look _ _ _ _ clear | terminate _ _ clear | attempt _ _ clear => exact absurd clear (by decide)
  | postpone _ _ blocked => exact absurd blocked (by decide)
  | placePlugin | placeFed => rfl
  | refuse _ _ row => exact row

theorem EgressStep.other_row (step : EgressStep good del now q l d d' q') {n : Nat}
    (other : n ≠ del.id) : d'.store.row n = d.store.row n := by
  cases step with
  | look _ _ _ _ clear store => rw [store]
  | terminate | postpone | attempt | requeue => exact Store.row_updateDelivery_ne _ _ _ _ _ other
  | away | hold | charge | placePlugin | placeFed | refuse => rfl

theorem Phase.deciding_of_clear (clear : q.clear = true) : q.deciding = true := by
  cases q <;> simp_all [Phase.clear, Phase.deciding]

theorem EgressStep.row_move (step : EgressStep good del now q l d d' q')
    (current : q.deciding = true → Current del d.store) (n : Nat) :
    PumpMove (d.store.row n) (d'.store.row n) := by
  have kept (o : Option Delivery) : PumpMove o o := .quiet (.keep o)
  cases step with
  | look _ _ _ _ clear store =>
    rw [store]
    exact kept _
  | terminate _ _ clear state reason finished unsent spent =>
    exact Store.move_updateDelivery kept _ _ _ _ _
      (fun r _ live => .terminate r _ state reason live finished unsent) n
  | postpone _ _ blocked next later =>
    exact Store.move_updateDelivery kept _ _ _ _ _
      (fun r _ live => .quiet (.retry r _ next live)) n
  | attempt _ _ clear left =>
    refine Store.move_updateDelivery kept _ _ _ _ _ (fun r found _ => ?_) n
    obtain ⟨r', found', waiting, count⟩ := current (Phase.deciding_of_clear clear) left
    obtain rfl : r' = r := Option.some.inj (found'.symm.trans found)
    exact .attempt r' _ waiting (count ▸ left)
  | requeue =>
    exact Store.move_updateDelivery kept _ _ _ _ _ (fun r _ live => .quiet (.retry r _ _ live)) n
  | away | hold | charge | placePlugin | placeFed | refuse => exact kept _

end RelayFabric
