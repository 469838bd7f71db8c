/- source: engine.rs (handle_inbound, fed_ingress, persist_and_fan_out, fan_out_deliveries)
   digest: Ingress on a database whose statements fail: which failures lose a message. -/

import RelayFabric.Delivery.Arrival
import RelayFabric.Federation.Verdict

namespace RelayFabric

open List Lib

theorem present_ends (K : Crypto) (peerNodeId : String) (p : Presentation) (targetRoute : String)
    (d : Daemon) :
    (∃ reason d', ∀ io, (present K io peerNodeId p targetRoute).run d = (.rejected reason, d')) ∨
      ∃ env clamped routeCfg fed senderKey, d.remembers env.id = false ∧ p.envelope? K = some env ∧
        Passed d env targetRoute clamped routeCfg fed ∧
          ∀ io, (present K io peerNodeId p targetRoute).run d =
            acceptRun io senderKey (p.keys env.id) clamped targetRoute routeCfg d.pruned := by
  cases p with
  | plain env =>
    cases gate : fedGate K d peerNodeId env targetRoute with
    | error refusal =>
      refine .inl ⟨refusal.reason, d.refused targetRoute peerNodeId refusal, fun io => ?_⟩
      exact (fedIngress_run ..).trans (by rw [gate])
    | ok pair =>
      obtain ⟨clamped, routeCfg⟩ := pair
      obtain ⟨fed, passed, _⟩ := fedGate_ok gate
      have named := passed.window.id
      cases seen : d.remembers env.id with
      | true =>
        refine .inl ⟨.duplicate, d.pruned, fun io => ?_⟩
        refine (fedIngress_run ..).trans ?_
        rw [gate]
        exact if_pos (named.symm ▸ seen)
      | false =>
        refine .inr ⟨env, clamped, routeCfg, fed, fedSenderKey peerNodeId clamped, seen,
          rfl, passed, fun io => ?_⟩
        refine (fedIngress_run ..).trans ?_
        rw [gate]
        dsimp only
        rw [named, seen]
        rfl
  | sealed frame =>
    have eq : ∀ io, (present K io peerNodeId (.sealed frame) targetRoute).run d = _ :=
      fun io => fedSealedIngress_run ..
    cases header : sealedHeader d frame with
    | some refusal =>
      exact .inl ⟨refusal.1, refusal.2, fun io => (eq io).trans (by rw [header])⟩
    | none =>
      rw [header] at eq
      cases gate : sealedGate K d peerNodeId frame with
      | error reason => exact .inl ⟨reason, d.pruned, fun io => (eq io).trans (by rw [gate])⟩
      | ok pair =>
        obtain ⟨env, fed⟩ := pair
        obtain ⟨federation, opened⟩ := sealedGate_ok gate
        rw [gate] at eq
        dsimp only at eq
        cases seen : d.remembers env.id with
        | true => exact .inl ⟨.duplicate, d.pruned, fun io => (eq io).trans (if_pos seen)⟩
        | false =>
          rw [seen] at eq
          cases way : sealedRoute d fed env targetRoute with
          | error reason =>
            exact .inl ⟨reason, d.pruned, fun io => (eq io).trans (by rw [way]; rfl)⟩
          | ok pair =>
            obtain ⟨clamped, routeCfg⟩ := pair
            have passed := sealedRoute_ok federation way
            refine .inr ⟨env, clamped, routeCfg, fed, sealedSenderKey peerNodeId, seen, ?_, passed,
              fun io => (eq io).trans ?_⟩
            · change (openSeal K frame).toOption = some env
              rw [opened]
              rfl
            · rw [way]
              dsimp only
              rw [passed.window.id]
              rfl

theorem present_settles (K : Crypto) (peerNodeId : String) (p : Presentation) (targetRoute : String)
    (d : Daemon) :
    (∃ reason d', ∀ io, (present K io peerNodeId p targetRoute).run d = (.rejected reason, d')) ∨
      ∃ env clamped routeCfg limiter, d.remembers env.id = false ∧ p.envelope? K = some env ∧
        d.cfg.routeCfg targetRoute = some routeCfg ∧ clamped.id = env.id ∧ ∀ io,
          (present K io peerNodeId p targetRoute).run d =
            ((persistStore io d.store d.clock.utc d.clock.utc clamped targetRoute
                routeCfg.destinations d.cfg.limits.routeQueueMax d.cfg.limits.globalQueueMax).1,
              { d with
                senderLimiter := limiter
                dedup := d.pruned.recordAll (p.keys env.id)
                store := (persistStore io d.store d.clock.utc d.clock.utc clamped targetRoute
                  routeCfg.destinations d.cfg.limits.routeQueueMax
                  d.cfg.limits.globalQueueMax).2 }) := by
  rcases present_ends K peerNodeId p targetRoute d with
    refused | ⟨env, clamped, routeCfg, fed, senderKey, unseen, opens, passed, eq⟩
  · exact .inl refused
  rcases charge : d.pruned.senderLimiter.allow senderKey (chargedBytes clamped)
    d.pruned.clock.instant with
    ⟨allowed, limiter⟩
  cases allowed with
  | false =>
    refine .inl ⟨.rateLimited, { d.pruned with senderLimiter := limiter }, fun io =>
      (eq io).trans ?_⟩
    unfold acceptRun
    rw [charge]
    rfl
  | true =>
    refine .inr ⟨env, { clamped with receivedAt := d.clock.utc }, routeCfg, limiter, unseen, opens,
      passed.route, passed.window.id, fun io => (eq io).trans ?_⟩
    unfold acceptRun
    rw [charge]
    rfl

theorem Daemon.isDuplicate_recordAll (d : Daemon) (lasting : 0 < d.dedup.ttl) {keys : List String}
    {key : String} (member : key ∈ keys) :
    ((d.recordAll keys).isDuplicate key d.clock.instant).1 = true := by
  have alive : ∀ c : Dedup, c.ttl = d.dedup.ttl → Dedup.fresh d.clock.instant
      (d.clock.instant, c.ttl) = true := by
    intro c same
    unfold Dedup.fresh durationSince
    rw [same, decide_eq_true_eq]
    simpa using lasting
  -- a key stays recorded while others are, and ..
  have folded : ∀ (keys : List String) (c : Dedup), c.ttl = d.dedup.ttl →
      key ∈ keys ∨ c.Holds key d.clock.instant →
        (keys.foldl (fun c key => c.record key d.clock.instant) c).Holds key d.clock.instant := by
    intro keys
    induction keys with
    | nil =>
      intro c _ found
      exact found.resolve_left not_mem_nil
    | cons first rest ih =>
      intro c same found
      refine ih _ same ?_
      rw [Dedup.holds_record]
      split
      · exact .inr (alive c same)
      · rename_i other
        exact found.imp_left (fun listed => (mem_cons.mp listed).resolve_left other)
  exact ((d.recordAll keys).isDuplicate_iff key d.clock.instant).mpr
    (folded keys d.dedup rfl (.inl member))

inductive Offer
  | plugin (a : Arrival)
  | peer (nodeId : String) (p : Presentation) (targetRoute : String)

namespace Offer

/-- One call on a database whose statements fail as given: the identifier under which the message is
now stored, where it was taken, and the daemon. -/
def run (K : Crypto) (io : Faults) (d : Daemon) : Offer → Option Uuid × Daemon
  | .plugin a =>
    let d' := ((a.handle K io).run d).2
    (((d'.store.getMessage a.ids.message).map Envelope.id), d')
  | .peer nodeId p targetRoute =>
    let called := (present K io nodeId p targetRoute).run d
    (called.1.ids.head?, called.2)

def again (ids : Draws) : Offer → Offer
  | .plugin a => .plugin { a with ids := ids }
  | .peer nodeId p targetRoute => .peer nodeId p targetRoute

def Fresh (d : Daemon) : Offer → Prop
  | .plugin a => Arrival.Apart a.ids ∧ d.store.getMessage a.ids.message = none
  | .peer _ _ _ => True

def Enqueued (d : Daemon) (id : Uuid) (targetRoute : String) (destinations : List Endpoint) :
    Prop :=
  (d.store.getMessage id).isSome = true ∧
    (d.store.deliveries.rows.filter (fun r => r.messageId = id)).map
      (fun r => (r.route, r.destination)) = destinations.map (fun dest => (targetRoute, dest))

/-- A failing statement loses nothing: what a peer will see acknowledged is stored and enqueued, and
what was not stored, though a working database would have stored it, is taken when it is offered
again at any later time at which it would be taken had it never been offered. -/
structure Safe (K : Crypto) (io : Faults) (d : Daemon) (offer : Offer) : Prop where
  acked : ∀ nodeId p targetRoute id, offer = .peer nodeId p targetRoute →
    (offer.run K io d).1 = some id → ∃ routeCfg, d.cfg.routeCfg targetRoute = some routeCfg ∧
      Enqueued (offer.run K io d).2 id targetRoute routeCfg.destinations
  retried : (offer.run K io d).1 = none → (offer.run K .none d).1.isSome = true →
    ∀ (ids : Draws) (clock : Clock), (offer.again ids).Fresh (offer.run K io d).2 →
      d.clock.instant ≤ clock.instant →
        ((offer.again ids).run K .none { d with clock := clock }).1.isSome = true →
          ((offer.again ids).run K .none { (offer.run K io d).2 with clock := clock }).1.isSome =
            true

/-- No INSERT of the message row fails, and for a peer's message none of a delivery row. -/
def InsertsWork (io : Faults) (d : Daemon) : Offer → Prop
  | .plugin _ => io.insertMessage = false
  | .peer _ _ targetRoute => io.insertMessage = false ∧ ∀ routeCfg,
      d.cfg.routeCfg targetRoute = some routeCfg →
      ∀ i < routeCfg.destinations.length, io.insertDelivery i = false

theorem insertedTargets_eq_iff (io : Faults) (targets : List (String × Endpoint)) :
    ∀ i, insertedTargets io i targets = targets ↔
      ∀ j < targets.length, io.insertDelivery (i + j) = false := by
  have short : ∀ (targets : List (String × Endpoint)) i,
      (insertedTargets io i targets).length ≤ targets.length := by
    intro targets
    induction targets with
    | nil => exact fun _ => le_rfl
    | cons target rest ih =>
      intro i
      unfold insertedTargets
      have later := ih (i + 1)
      split
      · exact later.trans (Nat.le_succ _)
      · exact Nat.succ_le_succ later
  induction targets with
  | nil => simp [insertedTargets]
  | cons target rest ih =>
    intro i
    unfold insertedTargets
    cases broken : io.insertDelivery i with
    | true =>
      -- a list that lost its head is too short
      refine iff_of_false (fun same => ?_) (fun works => ?_)
      · have length := congrArg List.length same
        have later := short rest (i + 1)
        rw [if_pos rfl, length_cons] at length
        omega
      · have head := works 0 (by simp)
        rw [Nat.add_zero, broken] at head
        cases head
    | false =>
      rw [if_neg (by simp), cons_eq_cons, ih]
      constructor
      · rintro ⟨_, works⟩ j small
        cases j with
        | zero => exact broken
        | succ j =>
          have later := works j (by simpa using small)
          rwa [Nat.add_assoc, Nat.add_comm 1 j] at later
      · intro works
        refine ⟨rfl, fun j small => ?_⟩
        have later := works (j + 1) (by simpa using small)
        rwa [Nat.add_comm j 1, ← Nat.add_assoc] at later

theorem targets_persistStore {io : Faults} {s : Store} {stamp now : Int} {env : Envelope}
    {targetRoute : String} {destinations : List Endpoint} {routeMax globalMax : Nat}
    (works : io.insertMessage = false) (absent : ∀ r ∈ s.deliveries.rows, r.messageId ≠ env.id) :
    ((persistStore io s stamp now env targetRoute destinations routeMax
      globalMax).2.deliveries.rows.filter
        (fun r => r.messageId = env.id)).map (fun r => (r.route, r.destination)) =
      insertedTargets io 0 (destinations.map (fun dest => (targetRoute, dest))) := by
  obtain ⟨new, rows, each⟩ := fanOutDeliveries_rows io stamp env.id env.expiresAt
    (priorityRank env.priority) routeMax globalMax now
    (destinations.map (fun dest => (targetRoute, dest))) 0 (s.insertMessage env)
  have fanned : (∀ r ∈ new, r.messageId = env.id) ∧ new.map (fun r => (r.route, r.destination)) =
      insertedTargets io 0 (destinations.map (fun dest => (targetRoute, dest))) := by
    clear rows
    generalize insertedTargets io 0 (destinations.map (fun dest => (targetRoute, dest))) =
      targets at each ⊢
    induction each with
    | nil => simp
    | cons head _ ih =>
      refine ⟨forall_mem_cons.mpr ⟨head.2.message, ih.1⟩, ?_⟩
      rw [map_cons, ih.2, mem_singleton.mp head.2.target]
  obtain ⟨own, targets⟩ := fanned
  unfold persistStore
  rw [if_neg (by simp [works]), rows, filter_append, map_append,
    filter_eq_nil_iff.mpr (fun r member => by simpa using absent r member),
    filter_eq_self.mpr (fun r member => by simpa using own r member), targets]
  rfl

theorem absent_of_unseen {d : Daemon} {m : Uuid}
    (linked : ∀ r ∈ d.store.deliveries.rows, (d.store.getMessage r.messageId).isSome = true)
    (unseen : d.remembers m = false) : ∀ r ∈ d.store.deliveries.rows, r.messageId ≠ m := by
  intro r member same
  have stored := linked r member
  simp only [Daemon.remembers, Bool.or_eq_false_iff] at unseen
  rw [same, unseen.2] at stored
  cases stored

theorem enqueued_iff {io : Faults} {d : Daemon} {env clamped : Envelope} {targetRoute : String}
    {destinations : List Endpoint} {limiter : SenderLimiter} {cache : Dedup}
    (linked : ∀ r ∈ d.store.deliveries.rows, (d.store.getMessage r.messageId).isSome = true)
    (unseen : d.remembers env.id = false) (named : clamped.id = env.id)
    (works : io.insertMessage = false) :
    Enqueued { d with
        senderLimiter := limiter
        dedup := cache
        store := (persistStore io d.store d.clock.utc d.clock.utc clamped targetRoute destinations
          d.cfg.limits.routeQueueMax d.cfg.limits.globalQueueMax).2 }
        env.id targetRoute destinations ↔
      ∀ i < destinations.length, io.insertDelivery i = false := by
  have absent : ∀ r ∈ d.store.deliveries.rows, r.messageId ≠ clamped.id :=
    named ▸ absent_of_unseen linked unseen
  unfold Enqueued
  rw [← named, targets_persistStore works absent, insertedTargets_eq_iff]
  simp only [length_map, Nat.zero_add, and_iff_right_iff_imp]
  intro _
  change Map.contains (persistStore _ _ _ _ _ _ _ _ _).2.messages _ = true
  rw [messages_persistStore, if_neg (by simp [works]), Map.contains_insertOrIgnore]
  simp

section Peer

theorem persistStore_accepted {io : Faults} {s : Store} {stamp now : Int} {env : Envelope}
    {targetRoute : String} {destinations : List Endpoint} {routeMax globalMax : Nat}
    (works : io.insertMessage = false) :
    (persistStore io s stamp now env targetRoute destinations routeMax globalMax).1 =
      .accepted env.id := by
  unfold persistStore
  rw [if_neg (by simp [works])]

variable {K : Crypto} {io : Faults} {d : Daemon} {nodeId targetRoute : String} {p : Presentation}

theorem run_of_remembers {env : Envelope} (opens : p.envelope? K = some env)
    (remembered : d.remembers env.id = true) : (run K io d (.peer nodeId p targetRoute)).1 =
      none := by
  change ((present K io nodeId p targetRoute).run d).1.ids.head? = none
  cases outcome : ((present K io nodeId p targetRoute).run d).1 with
  | rejected reason => rfl
  | accepted id =>
    obtain ⟨env', opens', acceptance⟩ := (present_effect ..).accepted outcome
    obtain rfl : env = env' := Option.some.inj (opens.symm.trans opens')
    exact absurd (remembered.symm.trans acceptance.unseen) (by simp)

theorem safe_of_insertsWork_peer
    (linked : ∀ r ∈ d.store.deliveries.rows, (d.store.getMessage r.messageId).isSome = true)
    (works : InsertsWork io d (.peer nodeId p targetRoute)) :
    Safe K io d (.peer nodeId p targetRoute) := by
  rcases present_settles K nodeId p targetRoute d with
    ⟨reason, d', refused⟩ | ⟨env, clamped, routeCfg, limiter, unseen, opens, route, named, settled⟩
  · have none : ∀ io, (run K io d (.peer nodeId p targetRoute)).1 = none := fun io => by
      change ((present K io nodeId p targetRoute).run d).1.ids.head? = none
      rw [refused io]
      rfl
    refine ⟨fun _ _ _ id _ taken => ?_, fun _ taken => ?_⟩
    · rw [none io] at taken
      cases taken
    · rw [none] at taken
      cases taken
  · have taken : (run K io d (.peer nodeId p targetRoute)).1 = some env.id := by
      change ((present K io nodeId p targetRoute).run d).1.ids.head? = _
      rw [settled io, persistStore_accepted works.1, named]
      rfl
    refine ⟨fun nodeId' p' targetRoute' id is accepted => ?_, fun lost => ?_⟩
    · obtain ⟨rfl, rfl, rfl⟩ := Offer.peer.inj is
      obtain rfl := Option.some.inj (taken.symm.trans accepted)
      refine ⟨routeCfg, route, ?_⟩
      change Enqueued ((present K io nodeId p targetRoute).run d).2 _ _ _
      rw [settled io]
      exact (enqueued_iff linked unseen named works.1).mpr (works.2 routeCfg route)
    · rw [taken] at lost
      cases lost

theorem insertsWork_of_safe_peer (lasting : 0 < d.dedup.ttl)
    (linked : ∀ r ∈ d.store.deliveries.rows, (d.store.getMessage r.messageId).isSome = true)
    (ready : (run K .none d (.peer nodeId p targetRoute)).1.isSome = true)
    (safe : Safe K io d (.peer nodeId p targetRoute)) :
    InsertsWork io d (.peer nodeId p targetRoute) := by
  rcases present_settles K nodeId p targetRoute d with
    ⟨reason, d', refused⟩ | ⟨env, clamped, routeCfg, limiter, unseen, opens, route, named, settled⟩
  · change ((present K .none nodeId p targetRoute).run d).1.ids.head?.isSome = true at ready
    rw [refused] at ready
    cases ready
  cases broken : io.insertMessage with
  | true =>
    -- the call that could not store the message remembers it, so the next one is a duplicate
    let after : Daemon := { d with
      senderLimiter := limiter
      dedup := d.pruned.recordAll (p.keys env.id) }
    have failed : run K io d (.peer nodeId p targetRoute) = (none, after) := by
      change (((present K io nodeId p targetRoute).run d).1.ids.head?,
        ((present K io nodeId p targetRoute).run d).2) = _
      rw [settled io]
      unfold persistStore
      rw [if_pos broken]
      rfl
    have remembered : after.remembers env.id = true := by
      have duplicate := d.pruned.isDuplicate_recordAll lasting (p.mem_keys env.id)
      exact Bool.or_eq_true_iff.mpr (.inl duplicate)
    have retried := safe.retried
    rw [failed] at retried
    have taken := retried rfl ready ⟨⟨0⟩, ⟨0⟩, ⟨0⟩⟩ d.clock trivial le_rfl ready
    have refused : (run K .none after (.peer nodeId p targetRoute)).1 = none :=
      run_of_remembers opens remembered
    exact absurd ((congrArg Option.isSome refused).symm.trans taken) (by simp)
  | false =>
    have taken : (run K io d (.peer nodeId p targetRoute)).1 = some env.id := by
      change ((present K io nodeId p targetRoute).run d).1.ids.head? = _
      rw [settled io, persistStore_accepted broken, named]
      rfl
    obtain ⟨routeCfg', route', enqueued⟩ := safe.acked nodeId p targetRoute env.id rfl taken
    obtain rfl : routeCfg = routeCfg' := Option.some.inj (route.symm.trans route')
    change Enqueued ((present K io nodeId p targetRoute).run d).2 _ _ _ at enqueued
    rw [settled io] at enqueued
    refine ⟨broken, fun other found => ?_⟩
    obtain rfl : routeCfg = other := Option.some.inj (route.symm.trans found)
    exact (enqueued_iff linked unseen named broken).mp enqueued

end Peer

section Plugin

variable {K : Crypto} {io : Faults} {d : Daemon} {a : Arrival}

theorem passes_of_ready (fresh : Fresh d (.plugin a))
    (ready : (run K .none d (.plugin a)).1.isSome = true) (io : Faults) : a.Passes K io d := by
  change ((((a.handle K .none).run d).2.store.getMessage a.ids.message).map Envelope.id).isSome =
    true at ready
  rw [Option.isSome_map] at ready
  obtain ⟨stored, after⟩ := Option.isSome_iff_exists.mp ready
  have passes := Arrival.passes_of_stored fresh.1 fresh.2 after
  refine { passes with silent := ?_ }
  have unanswered := passes.silent
  unfold Arrival.answers at unanswered ⊢
  split
  · rename_i code
    rw [if_pos code] at unanswered
    split
    · rfl
    · exact unanswered
  · rfl

theorem run_plugin_isSome (fresh : Fresh d (.plugin a)) (passes : a.Passes K io d) :
    (run K io d (.plugin a)).1.isSome = !io.insertMessage := by
  change ((((a.handle K io).run d).2.store.getMessage a.ids.message).map Envelope.id).isSome = _
  rw [Option.isSome_map, Arrival.handle_of_passes passes]
  change Map.contains (inboundStore _ _ _ _ _ _ _).messages _ = _
  have missing : (a.noted K d).store.messages a.ids.message = none :=
    (congrFun (a.noted_untouched K d).messages _).trans fresh.2
  rw [messages_inboundStore]
  cases io.insertMessage with
  | true => simp [Map.contains, missing]
  | false =>
    have named : (a.envelope K (a.noted K d)).id = a.ids.message := rfl
    rw [if_neg (by simp), Map.contains_insertOrIgnore, named, decide_eq_true rfl]
    rfl

theorem run_of_isDuplicate (duplicate : (d.dedup.isDuplicate (a.key K) d.clock.instant).1 = true)
    (absent : d.store.getMessage a.ids.message = none) : (run K io d (.plugin a)).1 = none := by
  change (((a.handle K io).run d).2.store.getMessage a.ids.message).map Envelope.id = none
  rw [Arrival.handle_run, if_pos duplicate]
  exact congrArg (Option.map Envelope.id) absent

theorem safe_of_insertsWork_plugin (fresh : Fresh d (.plugin a))
    (works : InsertsWork io d (.plugin a)) : Safe K io d (.plugin a) := by
  refine ⟨fun _ _ _ _ is => (nomatch is), fun lost ready => ?_⟩
  have taken := run_plugin_isSome fresh (passes_of_ready fresh ready io)
  rw [lost, show io.insertMessage = false from works] at taken
  cases taken

theorem run_of_broken (lasting : 0 < d.dedup.ttl) (fresh : Fresh d (.plugin a))
    (passes : a.Passes K io d)
    (broken : io.insertMessage = true) : ∃ after, run K io d (.plugin a) = (none, after) ∧
      after.store.getMessage a.ids.message = none ∧
        (after.dedup.isDuplicate (a.key K) d.clock.instant).1 = true := by
  have same := a.noted_untouched K d
  have absent : (a.persisted K io (a.noted K d)).store.getMessage a.ids.message = none := by
    change (inboundStore _ _ _ _ _ _ _).messages _ = none
    rw [messages_inboundStore, if_pos broken, same.messages]
    exact fresh.2
  refine ⟨a.persisted K io (a.noted K d), ?_, absent, ?_⟩
  · have handled : ((a.handle K io).run d).2 = a.persisted K io (a.noted K d) := by
      rw [Arrival.handle_of_passes passes]
    refine Prod.ext ?_ handled
    change (((a.handle K io).run d).2.store.getMessage a.ids.message).map Envelope.id = none
    rw [handled, absent]
    rfl
  · have cache : ∀ e : Daemon, (a.persisted K io e).dedup = e.dedup := fun _ => rfl
    rw [cache, same.dedup]
    exact d.pruned.isDuplicate_recordAll lasting (mem_singleton_self (a.key K))

theorem insertsWork_of_safe_plugin (lasting : 0 < d.dedup.ttl) (fresh : Fresh d (.plugin a))
    (ready : (run K .none d (.plugin a)).1.isSome = true) (safe : Safe K io d (.plugin a)) :
    InsertsWork io d (.plugin a) := by
  change io.insertMessage = false
  cases broken : io.insertMessage with
  | false => rfl
  | true =>
    obtain ⟨after, failed, absent, duplicate⟩ :=
      run_of_broken lasting fresh (passes_of_ready fresh ready io) broken
    have retried := safe.retried
    rw [failed] at retried
    have taken := retried rfl ready a.ids d.clock ⟨fresh.1, absent⟩ le_rfl ready
    have dropped : (run K .none { after with clock := d.clock } (.plugin a)).1 = none :=
      run_of_isDuplicate duplicate absent
    exact absurd ((congrArg Option.isSome dropped).symm.trans taken) (by simp)

end Plugin

end Offer

/-- Failing statements lose nothing exactly where the INSERT of the message row works and, for a
peer's message, those of its delivery rows, or a working database would not have taken the call. -/
theorem storage_failure_safe_iff {K : Crypto} {io : Faults} {d : Daemon} {offer : Offer}
    (linked : ∀ r ∈ d.store.deliveries.rows, (d.store.getMessage r.messageId).isSome = true)
    (lasting : 0 < d.dedup.ttl) (fresh : offer.Fresh d) :
    (offer.InsertsWork io d → offer.Safe K io d) ∧
      ((offer.run K .none d).1.isSome = true → (offer.Safe K io d ↔ offer.InsertsWork io d)) := by
  cases offer with
  | plugin a =>
    have holds : Offer.InsertsWork io d (.plugin a) → Offer.Safe K io d (.plugin a) :=
      Offer.safe_of_insertsWork_plugin fresh
    exact ⟨holds, fun ready => ⟨Offer.insertsWork_of_safe_plugin lasting fresh ready, holds⟩⟩
  | peer nodeId p targetRoute =>
    have holds : Offer.InsertsWork io d (.peer nodeId p targetRoute) →
        Offer.Safe K io d (.peer nodeId p targetRoute) := Offer.safe_of_insertsWork_peer linked
    exact ⟨holds, fun ready => ⟨Offer.insertsWork_of_safe_peer lasting linked ready, holds⟩⟩

def Faults.countless : Faults :=
  { Faults.none with routeCount := fun _ => true, globalCount := fun _ => true }

def Faults.rowless : Faults := { Faults.none with insertDelivery := fun _ => true }

def Faults.messageless : Faults := { Faults.none with insertMessage := true }

def Offer.peerGreeting : Offer := .peer "rf:x" (.plain (.hello ⟨7⟩)) "in"

def Offer.pluginGreeting : Offer :=
  .plugin ⟨⟨⟨7⟩, ⟨8⟩, ⟨9⟩⟩, "x", "lobby", "ann", "text", "hello", none, [], none⟩

private theorem relay_linked : ∀ r ∈ (Daemon.relay "gateway").store.deliveries.rows,
    ((Daemon.relay "gateway").store.getMessage r.messageId).isSome = true :=
  fun _ member => absurd member not_mem_nil

private theorem greetings_ready :
    (Offer.peerGreeting.run (.clear "rf:a") .none (.relay "gateway")).1.isSome = true ∧
      (Offer.pluginGreeting.run (.clear "rf:a") .none (.relay "gateway")).1.isSome = true := by
  decide +kernel

theorem storage_failure_safe_iff_greeting :
    Offer.peerGreeting.InsertsWork .countless (.relay "gateway") ∧
      Offer.peerGreeting.Safe (.clear "rf:a") .countless (.relay "gateway") ∧
      (Offer.peerGreeting.run (.clear "rf:a") .none (.relay "gateway")).1.isSome = true ∧
      (Offer.peerGreeting.Safe (.clear "rf:a") .rowless (.relay "gateway") ↔
        Offer.peerGreeting.InsertsWork .rowless (.relay "gateway")) := by
  have works : Offer.peerGreeting.InsertsWork .countless (.relay "gateway") :=
    ⟨rfl, fun _ _ _ _ => rfl⟩
  have fresh : Offer.peerGreeting.Fresh (.relay "gateway") := trivial
  exact ⟨works, (storage_failure_safe_iff relay_linked (by decide) fresh).1 works,
    greetings_ready.1,
    (storage_failure_safe_iff relay_linked (by decide) fresh).2 greetings_ready.1⟩

/-- A peer's greeting is acknowledged though it has no row to deliver; where it cannot be stored,
the next offer on the database that works again is dropped, and so is a plugin's. -/
theorem storage_failure_loses :
    ((Offer.peerGreeting.run (.clear "rf:a") .rowless (.relay "gateway")).1 = some ⟨7⟩ ∧
        (Offer.peerGreeting.run (.clear "rf:a") .rowless
        (.relay "gateway")).2.store.deliveries.rows = []) ∧
      (∀ greeting ∈ [Offer.peerGreeting, .pluginGreeting],
        (greeting.run (.clear "rf:a") .messageless (.relay "gateway")).1 = none ∧
          (greeting.run (.clear "rf:a") .none
            (greeting.run (.clear "rf:a") .messageless (.relay "gateway")).2).1 = none) ∧
      ¬Offer.peerGreeting.Safe (.clear "rf:a") .rowless (.relay "gateway") ∧
      ¬Offer.peerGreeting.Safe (.clear "rf:a") .messageless (.relay "gateway") ∧
      ¬Offer.pluginGreeting.Safe (.clear "rf:a") .messageless (.relay "gateway") := by
  have lasting : 0 < (Daemon.relay "gateway").dedup.ttl := by decide
  refine ⟨by decide +kernel, ?_, fun safe => ?_, fun safe => ?_, fun safe => ?_⟩
  · intro greeting member
    rcases mem_pair.mp member with rfl | rfl
    · decide +kernel
    · decide +kernel
  · have works := Offer.insertsWork_of_safe_peer lasting relay_linked greetings_ready.1 safe
    exact absurd (works.2 _ rfl 0 (by decide)) (by decide)
  · have works := Offer.insertsWork_of_safe_peer lasting relay_linked greetings_ready.1 safe
    exact absurd works.1 (by decide)
  · have works : Faults.messageless.insertMessage = false :=
      Offer.insertsWork_of_safe_plugin lasting
      ⟨⟨by decide, by decide⟩, by decide⟩ greetings_ready.2 safe
    exact absurd works (by decide)

end RelayFabric
