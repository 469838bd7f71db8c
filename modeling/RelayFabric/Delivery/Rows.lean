/- source: storage.rs, engine.rs
   digest: What each statement does to the row under one id. -/

import RelayFabric.Engine.Inbound
import RelayFabric.Engine.Egress

namespace RelayFabric

open List Lib

def Store.row (s : Store) (n : Nat) : Option Delivery := s.deliveries.get? n

def requeued (r : Delivery) (now : Int) : Delivery :=
  { r with state := .pending, nextAttempt := now, attemptCount := 0, reason := none,
           updatedAt := now }

/-- What a section of a task other than the pump, labelled `l` and entered at time `utc`, can do
to the row that store `s` has under the id `n`. -/
inductive CallMove (utc : Int) (l : Section) (s : Store) (n : Nat) :
    Option Delivery → Option Delivery → Prop
  | keep (o : Option Delivery)
      (unasked : l = .requeue n → ∀ r, o = some r → r.state.requeueable = false) :
      CallMove utc l s n o o
  | insert (r : Delivery) (fresh : s.deliveries.next ≤ n) (unsent : r.attemptCount = 0)
      (born : r.state = .pending ∨ r.state = .deadLetter)
      (other : r.reason ≠ some .retryExhausted) : CallMove utc l s n none (some r)
  | delete (r : Delivery) (finished : r.state.live = false) (label : l = .purgeDead) :
      CallMove utc l s n (some r) none
  | deliver (r : Delivery) (sent : r.state = .attempting) :
      CallMove utc l s n (some r) (some { r with state := .delivered, updatedAt := utc })
  | retry (r : Delivery) (next : Int) (live : r.state.live = true)
      (later : utc + seconds 5 ≤ next) :
      CallMove utc l s n (some r)
        (some { r with state := .pending, nextAttempt := next, updatedAt := utc })
  | exhaust (r : Delivery) (live : r.state.live = true) (spent : maxAttempts ≤ r.attemptCount)
      (label : l = .result n) :
      CallMove utc l s n (some r)
        (some { r with state := .deadLetter, reason := some .retryExhausted, updatedAt := utc })
  | requeue (r : Delivery) (label : l = .requeue n) (permits : r.state.requeueable = true) :
      CallMove utc l s n (some r) (some (requeued r utc))

inductive QuietMove : Option Delivery → Option Delivery → Prop
  | keep (o : Option Delivery) : QuietMove o o
  | delete (r : Delivery) (finished : r.state.live = false) : QuietMove (some r) none
  | reclaim (r : Delivery) (sent : r.state = .attempting) :
      QuietMove (some r) (some { r with state := .pending })
  | retry (r : Delivery) (t next : Int) (live : r.state.live = true) :
      QuietMove (some r) (some { r with state := .pending, nextAttempt := next, updatedAt := t })

inductive PumpMove : Option Delivery → Option Delivery → Prop
  | quiet {before after : Option Delivery} (move : QuietMove before after) : PumpMove before after
  | terminate (r : Delivery) (t : Int) (state : DeliveryState) (reason : Reason)
      (live : r.state.live = true) (finished : state.live = false) (unsent : state ≠ .delivered) :
      PumpMove (some r) (some { r with state := state, reason := some reason, updatedAt := t })
  | attempt (r : Delivery) (t : Int) (waiting : r.state = .pending)
      (left : r.attemptCount < maxAttempts) :
      PumpMove (some r) (some { r with state := .attempting, attemptCount := r.attemptCount + 1,
                                       attemptedAt := some t, updatedAt := t })

namespace Store

theorem row_updateDelivery (s : Store) (id : Nat) (guard change keyed) (n : Nat) :
    (s.updateDelivery id guard change keyed).row n =
      if n = id then (s.row n).map (fun r => if guard r then change r else r) else s.row n := by
  unfold row updateDelivery
  rw [Table.get?_update]
  cases found : s.deliveries.get? n with
  | none => simp
  | some r =>
    have keyed := Table.key_of_get? _ found
    by_cases same : n = id <;> simp [keyed, same]

variable {n : Nat} {s s' : Store} {P : Delivery → Prop}

theorem row_updateDelivery_ne (s : Store) (id : Nat) (guard change keyed) (other : n ≠ id) :
    (s.updateDelivery id guard change keyed).row n = s.row n := by
  rw [row_updateDelivery, if_neg other]

theorem move_updateDelivery_at {M : Option Delivery → Option Delivery → Prop} (keep : ∀ o, M o o)
    (s : Store) (id : Nat) (guard : Delivery → Bool) (change : Delivery → Delivery)
    (keyed : ∀ r, (change r).id = r.id)
    (moves : id = n → ∀ r, s.row id = some r → guard r = true → M (some r) (some (change r))) :
    M (s.row n) ((s.updateDelivery id guard change keyed).row n) := by
  rw [row_updateDelivery]
  split
  · rename_i same
    subst same
    cases found : s.row n with
    | none => exact keep _
    | some r =>
      rw [Option.map_some]
      split
      · exact moves rfl r found ‹_›
      · exact keep _
  · exact keep _

theorem move_updateDelivery {M : Option Delivery → Option Delivery → Prop} (keep : ∀ o, M o o)
    (s : Store) (id : Nat) (guard : Delivery → Bool) (change : Delivery → Delivery)
    (keyed : ∀ r, (change r).id = r.id)
    (moves : ∀ r, s.row id = some r → guard r = true → M (some r) (some (change r))) (n : Nat) :
    M (s.row n) ((s.updateDelivery id guard change keyed).row n) :=
  move_updateDelivery_at keep s id guard change keyed (fun _ => moves)

section

variable (s : Store)

theorem row_purgeTerminal (olderThan : Int) (n : Nat) :
    (s.purgeTerminal olderThan).2.row n =
      (s.row n).filter (fun r => !(!r.state.live && decide (r.nextAttempt < olderThan))) :=
  Table.get?_delete _ _ _

theorem row_purgeDeadLetters (n : Nat) :
    s.purgeDeadLetters.2.row n = (s.row n).filter (fun r => !(r.state == .deadLetter)) :=
  Table.get?_delete _ _ _

theorem row_recover (n : Nat) :
    s.recover.row n =
      (s.row n).map (fun r => if r.state == .attempting then { r with state := .pending }
      else r) := by
  unfold row recover
  rw [Table.get?_update]

theorem row_reclaimStale (olderThan : Int) (n : Nat) :
    (s.reclaimStale olderThan).row n = (s.row n).map (fun r =>
      if r.state == .attempting && r.attemptedAt.any (fun t => decide (t < olderThan)) then
        { r with state := .pending } else r) := by
  unfold row reclaimStale
  rw [Table.get?_update]

end

theorem row_congr (same : s'.deliveries = s.deliveries) (n : Nat) : s'.row n = s.row n :=
  congrArg (fun t => t.get? n) same

theorem row_of_next_le (unborn : s.deliveries.next ≤ n) : s.row n = none := by
  cases found : s.row n with
  | none => rfl
  | some r =>
    have below := Table.lt_next_of_get? _ found
    omega

structure Grows (P : Delivery → Prop) (s s' : Store) : Prop where
  next : s.deliveries.next ≤ s'.deliveries.next
  rows : ∀ n, s'.row n = s.row n ∨ (s.deliveries.next ≤ n ∧ ∃ r, s'.row n = some r ∧ P r)

theorem Grows.refl (P : Delivery → Prop) (s : Store) : Grows P s s := ⟨le_rfl, fun _ => .inl rfl⟩

theorem grows_of_deliveries (same : s'.deliveries = s.deliveries) : Grows P s s' :=
  ⟨same ▸ le_rfl, fun n => .inl (row_congr same n)⟩

theorem grows_insertMessage (P : Delivery → Prop) (s : Store) (env : Envelope) :
    Grows P s (s.insertMessage env) := grows_of_deliveries rfl

theorem Grows.trans {s'' : Store} (first : Grows P s s') (second : Grows P s' s'') :
    Grows P s s'' := by
  refine ⟨first.next.trans second.next, fun n => ?_⟩
  rcases second.rows n with same | ⟨unborn, r, found, holds⟩
  · rw [same]
    exact first.rows n
  · exact .inr ⟨first.next.trans unborn, r, found, holds⟩

theorem Grows.mono {P' : Delivery → Prop} (grows : Grows P s s')
    (weaker : ∀ r, P r → P' r) : Grows P' s s' := by
  refine ⟨grows.next, fun n => ?_⟩
  rcases grows.rows n with same | ⟨unborn, r, found, holds⟩
  · exact .inl same
  · exact .inr ⟨unborn, r, found, weaker r holds⟩

theorem grows_insert (s : Store) (make keyed) (holds : ∀ n, P (make n)) :
    Grows P s { s with deliveries := s.deliveries.insert make keyed } := by
  refine ⟨Nat.le_succ _, fun n => ?_⟩
  have rows := Table.get?_insert s.deliveries make keyed n
  by_cases fresh : n = s.deliveries.next
  · rw [if_pos fresh] at rows
    exact .inr ⟨fresh.ge, _, rows, holds _⟩
  · rw [if_neg fresh] at rows
    exact .inl rows

theorem grows_insertDelivery (s : Store) (now : Int) (m : Uuid)
    (route : String) (dest : Endpoint) (next expires : Int) (priority : Nat)
    (holds : ∀ n, P ⟨n, m, route, dest, priority, 0, .pending, none, next, none, expires,
      now, now⟩) :
    Grows P s (s.insertDelivery now m route dest next expires priority) :=
  s.grows_insert _ _ holds

theorem grows_insertDeadDelivery (s : Store) (now : Int) (m : Uuid)
    (route : String) (dest : Endpoint) (next expires : Int) (reason : Reason)
    (holds : ∀ n, P ⟨n, m, route, dest, 2, 0, .deadLetter, some reason, next, none, expires, now,
      now⟩) :
    Grows P s (s.insertDeadDelivery now m route dest next expires reason) :=
  s.grows_insert _ _ holds

end Store

structure Fanned (m : Uuid) (targets : List (String × Endpoint)) (stamp : Int)
    (r : Delivery) : Prop where
  message : r.messageId = m
  target : (r.route, r.destination) ∈ targets
  unsent : r.attemptCount = 0
  born : (r.state = .pending ∧ r.reason = none) ∨
    (r.state = .deadLetter ∧ r.reason = some .queueFull)
  written : r.updatedAt = stamp

def insertedTargets (io : Faults) : Nat → List (String × Endpoint) → List (String × Endpoint)
  | _, [] => []
  | i, target :: rest =>
    if io.insertDelivery i then insertedTargets io (i + 1) rest
    else target :: insertedTargets io (i + 1) rest

section FanOut

variable (io : Faults) (stamp : Int) (m : Uuid) (expires : Int) (rank routeMax globalMax : Nat)
  (now : Int)

theorem fanOutDeliveries_grows (all : List (String × Endpoint)) :
    ∀ (targets : List (String × Endpoint)), (∀ target ∈ targets, target ∈ all) →
      ∀ (i : Nat) (s : Store), s.Grows (Fanned m all stamp)
        (fanOutDeliveries io stamp m expires rank routeMax globalMax now i targets s).2 := by
  intro targets
  induction targets with
  | nil => exact fun _ _ s => .refl _ s
  | cons target rest ih =>
    intro listed i s
    obtain ⟨route, dest⟩ := target
    have here : (route, dest) ∈ all := listed _ mem_cons_self
    refine Store.Grows.trans ?_ (ih (fun t member => listed t (mem_cons_of_mem _ member)) _ _)
    split
    · exact .refl _ s
    · split
      · exact Store.grows_insertDeadDelivery _ _ _ _ _ _ _ _
          (fun _ => ⟨rfl, here, rfl, .inr ⟨rfl, rfl⟩, rfl⟩)
      · exact Store.grows_insertDelivery _ _ _ _ _ _ _ _
          (fun _ => ⟨rfl, here, rfl, .inl ⟨rfl, rfl⟩, rfl⟩)

theorem fanOutDeliveries_rows (targets : List (String × Endpoint)) :
    ∀ (i : Nat) (s : Store), ∃ new,
      (fanOutDeliveries io stamp m expires rank routeMax globalMax now i targets
        s).2.deliveries.rows = s.deliveries.rows ++ new ∧
      List.Forall₂ (fun target r => s.deliveries.next ≤ r.id ∧ Fanned m [target] stamp r)
        (insertedTargets io i targets) new := by
  induction targets with
  | nil => exact fun _ s => ⟨[], (append_nil _).symm, .nil⟩
  | cons target rest ih =>
    intro i s
    obtain ⟨route, dest⟩ := target
    unfold fanOutDeliveries insertedTargets
    dsimp only
    by_cases broken : io.insertDelivery i = true
    · rw [if_pos broken, if_pos broken]
      exact ih ..
    rw [if_neg broken, if_neg broken]
    -- the row of this target, then those of the rest under later ids
    generalize turn : (if queueFull io i s route routeMax globalMax = true then
      s.insertDeadDelivery stamp m route dest now expires .queueFull
      else s.insertDelivery stamp m route dest now expires rank) = stored
    have first : ∃ r, Fanned m [(route, dest)] stamp r ∧ s.deliveries.next ≤ r.id ∧
        stored.deliveries.rows = s.deliveries.rows ++ [r] ∧
        s.deliveries.next ≤ stored.deliveries.next := by
      have here : (route, dest) ∈ [(route, dest)] := mem_singleton_self _
      subst turn
      split
      · exact ⟨_, ⟨rfl, here, rfl, .inr ⟨rfl, rfl⟩, rfl⟩, le_rfl, rfl, Nat.le_succ _⟩
      · exact ⟨_, ⟨rfl, here, rfl, .inl ⟨rfl, rfl⟩, rfl⟩, le_rfl, rfl, Nat.le_succ _⟩
    obtain ⟨r, fanned, fresh, rows, next⟩ := first
    obtain ⟨later, appended, each⟩ := ih (i + 1) stored
    refine ⟨r :: later, ?_, .cons ⟨fresh, fanned⟩ (each.imp ?_)⟩
    · rw [appended, rows, append_assoc]
      rfl
    · exact fun other r' both => ⟨next.trans both.1, both.2⟩

theorem fanOutDeliveries_frame (targets : List (String × Endpoint)) :
    ∀ (i : Nat) (s : Store), ∃ deliveries,
      (fanOutDeliveries io stamp m expires rank routeMax globalMax
      now i targets s).2 = { s with deliveries := deliveries } := by
  induction targets with
  | nil => exact fun _ s => ⟨s.deliveries, rfl⟩
  | cons target rest ih =>
    intro i s
    obtain ⟨route, dest⟩ := target
    have first : ∃ deliveries, (if io.insertDelivery i then s
        else if queueFull io i s route routeMax globalMax then
          s.insertDeadDelivery stamp m route dest now expires .queueFull
        else s.insertDelivery stamp m route dest now expires rank) =
        { s with deliveries := deliveries } := by
      split
      · exact ⟨_, rfl⟩
      · split <;> exact ⟨_, rfl⟩
    obtain ⟨deliveries, stored⟩ := first
    obtain ⟨later, rest⟩ := ih (i + 1) { s with deliveries := deliveries }
    refine ⟨later, ?_⟩
    unfold fanOutDeliveries
    dsimp only
    rw [stored, rest]

theorem messages_fanOutDeliveries (targets : List (String × Endpoint)) (i : Nat) (s : Store) :
    (fanOutDeliveries io stamp m expires rank routeMax globalMax now i targets s).2.messages =
      s.messages := by
  obtain ⟨_, eq⟩ := fanOutDeliveries_frame io stamp m expires rank routeMax globalMax now
    targets i s
  rw [eq]

theorem refs_fanOutDeliveries (targets : List (String × Endpoint)) (i : Nat) (s : Store) :
    (fanOutDeliveries io stamp m expires rank routeMax globalMax now i targets s).2.attachmentRefs =
      s.attachmentRefs := by
  obtain ⟨_, eq⟩ := fanOutDeliveries_frame io stamp m expires rank routeMax globalMax now
    targets i s
  rw [eq]

end FanOut

theorem insertAttachmentRefs_frame (io : Faults) (m : Uuid) (shas : List String) :
    ∀ (i : Nat) (s : Store), ∃ refs,
      insertAttachmentRefs io m i shas s = { s with attachmentRefs := refs } := by
  induction shas with
  | nil => exact fun _ s => ⟨s.attachmentRefs, rfl⟩
  | cons sha rest ih =>
    intro i s
    unfold insertAttachmentRefs
    split
    · exact ⟨s.attachmentRefs, rfl⟩
    · obtain ⟨refs, later⟩ := ih (i + 1) (s.insertAttachmentRef m sha)
      exact ⟨refs, later⟩

theorem insertAttachmentRefs_grows (P : Delivery → Prop) (io : Faults) (m : Uuid)
    (shas : List String) (i : Nat) (s : Store) :
    s.Grows P (insertAttachmentRefs io m i shas s) := by
  obtain ⟨_, eq⟩ := insertAttachmentRefs_frame io m shas i s
  rw [eq]
  exact Store.grows_of_deliveries rfl

theorem messages_insertAttachmentRefs (io : Faults) (m : Uuid) (shas : List String) (i : Nat)
    (s : Store) : (insertAttachmentRefs io m i shas s).messages = s.messages := by
  obtain ⟨_, eq⟩ := insertAttachmentRefs_frame io m shas i s
  rw [eq]

def federatedTargets (targetRoute : String) (destinations : List Endpoint) :
    List (String × Endpoint) :=
  destinations.map (fun dest => (targetRoute, dest))

section Writes

variable (io : Faults) (s : Store) (stamp now : Int) (env : Envelope)

theorem persistStore_grows (targetRoute : String) (destinations : List Endpoint)
    (routeMax globalMax : Nat) :
    s.Grows (Fanned env.id (federatedTargets targetRoute destinations) stamp)
      (persistStore io s stamp now env targetRoute destinations routeMax globalMax).2 := by
  unfold persistStore
  split
  · exact .refl _ s
  · exact (s.grows_insertMessage _ env).trans (fanOutDeliveries_grows io stamp env.id env.expiresAt
      (priorityRank env.priority) routeMax globalMax now _ _ (fun _ member => member) 0 _)

theorem inboundStore_grows (targets : List (String × Endpoint)) (limits : Limits) :
    s.Grows (Fanned env.id targets stamp)
      (inboundStore io s stamp now env targets limits) := by
  unfold inboundStore
  split
  · exact .refl _ s
  · refine (s.grows_insertMessage _ env).trans ?_
    refine (insertAttachmentRefs_grows _ io env.id (env.attachments.map AttachmentMeta.sha256) 0
      (s.insertMessage env)).trans ?_
    exact fanOutDeliveries_grows io stamp env.id env.expiresAt (priorityRank env.priority)
      limits.routeQueueMax limits.globalQueueMax now targets targets (fun _ member => member) 0 _

theorem persistStore_frame (targetRoute : String) (destinations : List Endpoint)
    (routeMax globalMax : Nat) :
    ∃ messages deliveries, (persistStore io s stamp now env targetRoute destinations routeMax
      globalMax).2 = { s with messages := messages, deliveries := deliveries } := by
  unfold persistStore
  split
  · exact ⟨_, _, rfl⟩
  · obtain ⟨deliveries, eq⟩ := fanOutDeliveries_frame io stamp env.id env.expiresAt
      (priorityRank env.priority) routeMax globalMax now
      (destinations.map (fun dest => (targetRoute, dest))) 0 (s.insertMessage env)
    exact ⟨_, deliveries, eq⟩

theorem inboundStore_frame (targets : List (String × Endpoint)) (limits : Limits) :
    ∃ messages refs deliveries, inboundStore io s stamp now env targets limits =
      { s with messages := messages, attachmentRefs := refs, deliveries := deliveries } := by
  unfold inboundStore
  split
  · exact ⟨_, _, _, rfl⟩
  · obtain ⟨refs, first⟩ := insertAttachmentRefs_frame io env.id
      (env.attachments.map AttachmentMeta.sha256) 0 (s.insertMessage env)
    obtain ⟨deliveries, second⟩ := fanOutDeliveries_frame io stamp env.id env.expiresAt
      (priorityRank env.priority) limits.routeQueueMax limits.globalQueueMax now targets 0
      { s.insertMessage env with attachmentRefs := refs }
    rw [first, second]
    exact ⟨_, _, _, rfl⟩

theorem messages_persistStore (targetRoute : String) (destinations : List Endpoint)
    (routeMax globalMax : Nat) :
    (persistStore io s stamp now env targetRoute destinations routeMax globalMax).2.messages =
      if io.insertMessage then s.messages else s.messages.insertOrIgnore env.id env := by
  unfold persistStore
  split
  · rfl
  · exact messages_fanOutDeliveries ..

theorem messages_inboundStore (targets : List (String × Endpoint)) (limits : Limits) :
    (inboundStore io s stamp now env targets limits).messages =
      if io.insertMessage then s.messages else s.messages.insertOrIgnore env.id env := by
  unfold inboundStore
  split
  · rfl
  · exact (messages_fanOutDeliveries ..).trans
      (messages_insertAttachmentRefs io env.id _ 0 (s.insertMessage env))

end Writes

theorem recordRejection_grows (s : Store) (stamp now : Int) (env : Envelope)
    (targetRoute peer : String) (reason : Reason) :
    s.Grows (fun r => r.messageId = env.id ∧ r.attemptCount = 0 ∧ r.state = .deadLetter ∧
        r.reason = some reason ∧ r.nextAttempt = now ∧
        r.destination = ⟨fedProtocol, shortNodeId peer⟩)
      (recordRejection s stamp now env targetRoute peer reason) :=
  (s.grows_insertMessage _ env).trans
    (Store.grows_insertDeadDelivery _ _ _ _ _ _ _ _ (fun _ => ⟨rfl, rfl, rfl, rfl, rfl, rfl⟩))

theorem row_foldl_markDelivered (now : Int) (ids : List Nat) :
    ∀ (s : Store) (n : Nat), (ids.foldl (fun s id => s.markDelivered now id) s).row n =
      (s.row n).map (fun r =>
        if n ∈ ids ∧ r.state = .attempting then { r with state := .delivered, updatedAt := now }
        else r) := by
  induction ids with
  | nil => intro s n; simp
  | cons id rest ih =>
    intro s n
    rw [foldl_cons, ih, Store.markDelivered, Store.row_updateDelivery]
    cases found : s.row n with
    | none => simp
    | some r =>
      by_cases same : n = id
      · by_cases sent : r.state = .attempting <;> simp [same, sent]
      · simp [same]

theorem row_ackStore (s : Store) (now : Int) (peerKey : String) (m : Uuid) (n : Nat) :
    (ackStore s now peerKey m).row n = (s.row n).map (fun r =>
      if r ∈ s.deliveriesForFedAck m peerKey ∧ r.state = .attempting then
        { r with state := .delivered, updatedAt := now }
      else r) := by
  have folded : ackStore s now peerKey m =
      (((s.deliveriesForFedAck m peerKey).filter (fun r => r.state == .attempting)).map
        Delivery.id).foldl (fun s id => s.markDelivered now id) s := by
    rw [ackStore, foldl_map]
  rw [folded, row_foldl_markDelivered]
  cases found : s.row n with
  | none => rfl
  | some r =>
    have member := Table.mem_of_get? _ found
    have keyed := Table.key_of_get? _ found
    simp only [Option.map_some, Option.some.injEq]
    congr 1
    by_cases sent : r.state = .attempting
    · simp only [sent, and_true, mem_map, mem_filter, beq_iff_eq, eq_iff_iff]
      constructor
      · rintro ⟨r', ⟨listed, _⟩, same⟩
        have stored : r' ∈ s.deliveries.rows := (mem_filter.mp listed).1
        rw [inj_on_of_nodup_map s.deliveries.distinct stored member (same.trans keyed.symm)]
          at listed
        exact listed
      · exact fun listed => ⟨r, ⟨listed, sent⟩, keyed⟩
    · simp [sent]

section

variable (s : Store) (utc : Int)

theorem ackStore_move (peerKey : String) (m : Uuid) (n : Nat) :
    CallMove utc .ack s n (s.row n) ((ackStore s utc peerKey m).row n) := by
  rw [row_ackStore]
  cases s.row n with
  | none => exact .keep _ nofun
  | some r =>
    rw [Option.map_some]
    split
    · rename_i both
      exact .deliver r both.2
    · exact .keep _ nofun

theorem resultStore_move (plugin : String) (corr : Nat) (delivered : Bool)
    (n : Nat) :
    CallMove utc (.result corr) s n (s.row n)
    ((resultStore s utc plugin corr delivered).2.row n) := by
  have kept (o : Option Delivery) : CallMove utc (.result corr) s n o o := .keep o nofun
  unfold resultStore
  cases found : s.deliveriesForId corr with
  | none => exact kept _
  | some del =>
    dsimp only
    split_ifs with foreign done spent
    · exact kept _
    · exact Store.move_updateDelivery kept s corr _ _ _
        (fun r _ sent => .deliver r (by simpa using sent)) n
    · refine Store.move_updateDelivery_at kept s corr _ _ _ (fun same r here live => ?_)
      have stored : r = del := Option.some.inj (here.symm.trans found)
      exact .exhaust r live (stored ▸ spent) (by rw [same])
    · refine Store.move_updateDelivery kept s corr _ _ _ (fun r _ live => ?_) n
      exact .retry r _ live (by have wait := five_seconds_le_backoff del.attemptCount; omega)

theorem next_ackStore (peerKey : String) (m : Uuid) :
    (ackStore s utc peerKey m).deliveries.next = s.deliveries.next := by
  have folded (rows : List Delivery) : ∀ s : Store,
      (rows.foldl (fun s r => s.markDelivered utc r.id) s).deliveries.next = s.deliveries.next := by
    induction rows with
    | nil => exact fun _ => rfl
    | cons r rest ih => exact fun s => ih (s.markDelivered utc r.id)
  exact folded _ s

theorem next_resultStore (plugin : String) (corr : Nat) (delivered : Bool) :
    (resultStore s utc plugin corr delivered).2.deliveries.next = s.deliveries.next := by
  unfold resultStore
  split
  · rfl
  · split_ifs <;> rfl

end

theorem confirmLinkStore_frame (s : Store) (challenge : Challenge) (now : Int) :
    ∃ links, confirmLinkStore s challenge now =
      { s.deleteChallenge challenge.id with links := links } := by
  have dropped (s : Store) (protocol reference : String) :
      ∃ links, dropLinkOf s protocol reference = { s with links := links } := by
    unfold dropLinkOf
    cases s.linkForIdentity protocol reference <;> exact ⟨_, rfl⟩
  have inserted (s : Store) (a b c d name : String) (t : Int) :
      ∃ links, s.insertLink a b c d name t = { s with links := links } := by
    unfold Store.insertLink
    dsimp only
    split <;> exact ⟨_, rfl⟩
  obtain ⟨first, target⟩ := dropped (s.deleteChallenge challenge.id) challenge.targetProtocol
    challenge.targetRef
  obtain ⟨second, requester⟩ := dropped { s.deleteChallenge challenge.id with links := first }
    challenge.requesterProtocol challenge.requesterRef
  unfold confirmLinkStore
  dsimp only
  rw [target, requester]
  obtain ⟨third, new⟩ := inserted { s.deleteChallenge challenge.id with links := second }
    challenge.targetProtocol challenge.targetRef challenge.requesterProtocol challenge.requesterRef
    challenge.displayName now
  exact ⟨third, new⟩

theorem messages_ackStore (s : Store) (utc : Int) (peerKey : String) (m : Uuid) :
    (ackStore s utc peerKey m).messages = s.messages := by
  have folded (rows : List Delivery) : ∀ s : Store,
      (rows.foldl (fun s r => s.markDelivered utc r.id) s).messages = s.messages := by
    induction rows with
    | nil => exact fun _ => rfl
    | cons r rest ih => exact fun s => ih (s.markDelivered utc r.id)
  exact folded _ s

theorem messages_resultStore (s : Store) (utc : Int) (plugin : String) (corr : Nat)
    (delivered : Bool) : (resultStore s utc plugin corr delivered).2.messages = s.messages := by
  unfold resultStore
  split
  · rfl
  · split_ifs <;> rfl

end RelayFabric
