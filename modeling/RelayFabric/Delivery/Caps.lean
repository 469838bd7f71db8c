/- source: engine.rs (fan_out_deliveries, enqueue_identity_send), storage.rs (pending_count)
   digest: The queue caps as an invariant of every run, and the rows an accepted message gets. -/

import RelayFabric.Delivery.Station

namespace RelayFabric

open List Lib

def liveOn (route : Option String) (rows : List Delivery) : Nat :=
  (rows.filter (fun r => r.state.live && route.all (r.route == ·))).length

theorem liveOn_append (route : Option String) (rows new : List Delivery) :
    liveOn route (rows ++ new) = liveOn route rows + liveOn route new := by
  unfold liveOn
  rw [filter_append, length_append]

variable {r : Delivery} {s s' : Store} {before after : Option Delivery}

theorem liveOn_dead (route : Option String) (dead : r.state.live = false) :
    liveOn route [r] = 0 := by
  simp [liveOn, dead]

theorem liveOn_le_one (route : Option String) (r : Delivery) : liveOn route [r] ≤ 1 :=
  length_filter_le _ _

theorem liveOn_other {route : String} (other : r.route ≠ route) :
    liveOn (some route) [r] = 0 := by
  simp [liveOn, other]

theorem Store.pendingCount_eq (s : Store) (route : Option String) :
    s.pendingCount route = liveOn route s.deliveries.rows := rfl

theorem Store.pendingCount_le (origin : ∀ n r', s'.row n = some r' → r'.state.live = true →
      ∃ r, s.row n = some r ∧ r.state.live = true ∧ r.route = r'.route) (route : Option String) :
    s'.pendingCount route ≤ s.pendingCount route := by
  refine Table.length_filter_le (fun r' member chosen => ?_)
  obtain ⟨alive, on⟩ := Bool.and_eq_true_iff.mp chosen
  obtain ⟨r, found, live, same⟩ := origin r'.id r' (s'.deliveries.get?_key member) alive
  refine ⟨r, Table.mem_of_get? _ found, Table.key_of_get? _ found, ?_⟩
  rw [live, same, on, Bool.true_and]

def Stays (before after : Option Delivery) : Prop :=
  ∀ r', after = some r' → r'.state.live = true →
    ∃ r, before = some r ∧ r.state.live = true ∧ r.route = r'.route

theorem Stays.refl (o : Option Delivery) : Stays o o := fun r' found live => ⟨r', found, live, rfl⟩

theorem QuietMove.stays (move : QuietMove before after) :
    Stays before after := by
  cases move with
  | keep => exact .refl _
  | delete => exact fun _ found => by cases found
  | reclaim r sent =>
    intro r' found _
    cases found
    exact ⟨r, rfl, by rw [sent]; rfl, rfl⟩
  | retry r t next live =>
    intro r' found _
    cases found
    exact ⟨r, rfl, live, rfl⟩

theorem PumpMove.stays (move : PumpMove before after) :
    Stays before after := by
  cases move with
  | quiet move => exact move.stays
  | terminate r t state reason live =>
    intro r' found _
    cases found
    exact ⟨r, rfl, live, rfl⟩
  | attempt r t waiting =>
    intro r' found _
    cases found
    exact ⟨r, rfl, by rw [waiting]; rfl, rfl⟩

theorem CallMove.stays {utc : Int} {l : Section} {n : Nat} (move : CallMove utc l s n before after)
    (other : l ≠ .requeue n) (known : n < s.deliveries.next) : Stays before after := by
  cases move with
  | keep => exact .refl _
  | insert r fresh => omega
  | delete => exact fun _ found => by cases found
  | deliver r sent =>
    intro r' found live
    cases found
    cases live
  | retry r next live | exhaust r live =>
    intro r' found _
    cases found
    exact ⟨r, rfl, live, rfl⟩
  | requeue r label => exact absurd label other

theorem NodeEffect.stays {good : Delivery → Nat → Fed → Prop} {ok : Daemon → Prop} {σ σ' : Node}
    {v v' : View} {a : Move} (effect : NodeEffect good ok σ v a σ' v') (alone : ∀ i, a ≠ .call i)
    (n : Nat) : Stays (σ.d.store.row n) (σ'.d.store.row n) := by
  rcases effect.row_move n with move | ⟨i, _, _, _, call, _⟩
  · exact move.stays
  · exact absurd call (alone i)

/-- No route but the reserved one has more rows queued than its cap, and all together no more than
theirs. -/
structure Store.Capped (limits : Limits) (s : Store) : Prop where
  route : ∀ name, name ≠ identityRoute → s.pendingCount (some name) ≤ limits.routeQueueMax
  all : s.pendingCount none ≤ limits.globalQueueMax

theorem Store.Capped.of_stays {limits : Limits} (capped : s.Capped limits)
    (stays : ∀ n, Stays (s.row n) (s'.row n)) : s'.Capped limits :=
  ⟨fun name other => (pendingCount_le stays _).trans (capped.route name other),
    (pendingCount_le stays _).trans capped.all⟩

theorem Store.Capped.of_rows {limits : Limits} (capped : s.Capped limits)
    (same : s'.deliveries = s.deliveries) : s'.Capped limits := by
  refine capped.of_stays (fun n => ?_)
  rw [Store.row_congr same n]
  exact .refl _

theorem Store.Capped.add_dead {limits : Limits} (capped : s.Capped limits)
    (rows : s'.deliveries.rows = s.deliveries.rows ++ [r])
    (dead : r.state.live = false) : s'.Capped limits := by
  constructor
  · intro name other
    rw [pendingCount_eq, rows, liveOn_append, liveOn_dead _ dead]
    exact capped.route name other
  · rw [pendingCount_eq, rows, liveOn_append, liveOn_dead _ dead]
    exact capped.all

theorem Store.Capped.add {limits : Limits} (capped : s.Capped limits)
    (rows : s'.deliveries.rows = s.deliveries.rows ++ [r])
    (below : r.route = identityRoute ∨ s.pendingCount (some r.route) < limits.routeQueueMax)
    (all : s.pendingCount none < limits.globalQueueMax) : s'.Capped limits := by
  constructor
  · intro name other
    have old := capped.route name other
    rw [pendingCount_eq] at old ⊢
    rw [rows, liveOn_append]
    by_cases here : r.route = name
    · rcases below with reserved | room
      · exact absurd (here.symm.trans reserved) other
      · rw [here, pendingCount_eq] at room
        have one := liveOn_le_one (some name) r
        omega
    · rw [liveOn_other here]
      exact old
  · rw [pendingCount_eq] at all ⊢
    have one := liveOn_le_one none r
    rw [rows, liveOn_append]
    omega

inductive Placed (limits : Limits) (m : Uuid) (target : String × Endpoint) (rows : List Delivery)
    (r : Delivery) : Prop
  | queued (message : r.messageId = m) (at_ : (r.route, r.destination) = target)
      (waits : r.state = .pending) (clear : r.reason = none)
  | refused (message : r.messageId = m) (at_ : (r.route, r.destination) = target)
      (dead : r.state = .deadLetter) (because : r.reason = some .queueFull)
      (full : limits.routeQueueMax ≤ liveOn (some target.1) rows ∨
        limits.globalQueueMax ≤ liveOn none rows)

inductive Placements (limits : Limits) (m : Uuid) :
    List (String × Endpoint) → List Delivery → List Delivery → Prop
  | nil (rows : List Delivery) : Placements limits m [] rows []
  | cons {target : String × Endpoint} {targets : List (String × Endpoint)} {rows : List Delivery}
      {r : Delivery} {added : List Delivery} (first : Placed limits m target rows r)
      (rest : Placements limits m targets (rows ++ [r]) added) :
      Placements limits m (target :: targets) rows (r :: added)

def Enqueued (limits : Limits) (m : Uuid) (targets : List (String × Endpoint)) (s s' : Store) :
    Prop :=
  ∃ added, s'.deliveries.rows = s.deliveries.rows ++ added ∧
    Placements limits m targets s.deliveries.rows added

theorem queueFull_none {limits : Limits} (route : 0 < limits.routeQueueMax)
    (all : 0 < limits.globalQueueMax) (i : Nat) (s : Store) (name : String) :
    queueFull .none i s name limits.routeQueueMax limits.globalQueueMax = true ↔
      limits.routeQueueMax ≤ s.pendingCount (some name) ∨
        limits.globalQueueMax ≤ s.pendingCount none := by
  unfold queueFull Faults.none
  by_cases first : limits.routeQueueMax ≤ s.pendingCount (some name)
  · simp [route, first]
  · simp [route, all, first]

theorem fanOutDeliveries_cons (stamp : Int) (m : Uuid) (expires : Int)
    (rank routeMax globalMax : Nat)
    (now : Int) (i : Nat) (name : String) (dest : Endpoint) (rest : List (String × Endpoint))
    (s : Store) :
    (fanOutDeliveries .none stamp m expires rank routeMax globalMax now i
      ((name, dest) :: rest) s).2 =
      (fanOutDeliveries .none stamp m expires rank routeMax globalMax now (i + 1) rest
        (if queueFull .none i s name routeMax globalMax then
          s.insertDeadDelivery stamp m name dest now expires .queueFull
        else s.insertDelivery stamp m name dest now expires rank)).2 := rfl

section FanOut

variable {limits : Limits} (route : 0 < limits.routeQueueMax) (all : 0 < limits.globalQueueMax)
  (stamp : Int) (m : Uuid) (expires : Int) (rank : Nat) (now : Int)

include route all

theorem fanOutDeliveries_placed (targets : List (String × Endpoint)) :
    ∀ (i : Nat) (s : Store),
      Enqueued limits m targets s (fanOutDeliveries .none stamp m expires rank limits.routeQueueMax
        limits.globalQueueMax now i targets s).2 ∧
      (s.Capped limits → (fanOutDeliveries .none stamp m expires rank limits.routeQueueMax
        limits.globalQueueMax now i targets s).2.Capped limits) := by
  induction targets with
  | nil =>
    intro i s
    exact ⟨⟨[], (append_nil _).symm, .nil _⟩, fun capped => capped⟩
  | cons target rest ih =>
    intro i s
    obtain ⟨name, dest⟩ := target
    rw [fanOutDeliveries_cons]
    -- the row of this target, then those of the rest beside it
    have follow {stored : Store} {r : Delivery}
        (rows : stored.deliveries.rows = s.deliveries.rows ++ [r])
        (placed : Placed limits m (name, dest) s.deliveries.rows r)
        (capped : s.Capped limits → stored.Capped limits) :
        Enqueued limits m ((name, dest) :: rest) s (fanOutDeliveries .none stamp m expires rank
          limits.routeQueueMax limits.globalQueueMax now (i + 1) rest stored).2 ∧
        (s.Capped limits → (fanOutDeliveries .none stamp m expires rank limits.routeQueueMax
          limits.globalQueueMax now (i + 1) rest stored).2.Capped limits) := by
      obtain ⟨⟨added, appended, later⟩, kept⟩ := ih (i + 1) stored
      rw [rows] at appended later
      refine ⟨⟨r :: added, ?_, .cons placed later⟩, fun start => kept (capped start)⟩
      rw [appended, append_assoc]
      rfl
    cases full : queueFull .none i s name limits.routeQueueMax limits.globalQueueMax with
    | true =>
      have reached := (queueFull_none route all ..).mp full
      rw [if_pos rfl]
      exact follow rfl (.refused rfl rfl rfl rfl reached) (fun capped => capped.add_dead rfl rfl)
    | false =>
      have below : ¬(limits.routeQueueMax ≤ s.pendingCount (some name) ∨
          limits.globalQueueMax ≤ s.pendingCount none) := by
        rw [← queueFull_none route all, full]
        exact Bool.false_ne_true
      rw [if_neg Bool.false_ne_true]
      have first : s.pendingCount (some name) < limits.routeQueueMax := by omega
      have second : s.pendingCount none < limits.globalQueueMax := by omega
      exact follow rfl (.queued rfl rfl rfl rfl) (fun capped => capped.add rfl (.inr first) second)

end FanOut

variable {limits : Limits}

theorem Enqueued.of_rows {m : Uuid} {targets : List (String × Endpoint)} {mid : Store}
    (queued : Enqueued limits m targets mid s') (same : mid.deliveries = s.deliveries) :
    Enqueued limits m targets s s' := by
  unfold Enqueued at queued
  rw [same] at queued
  exact queued

private theorem placed_of_fanOut {m : Uuid} {targets : List (String × Endpoint)} {mid : Store}
    (same : mid.deliveries = s.deliveries)
    (fanned : Enqueued limits m targets mid s' ∧ (mid.Capped limits → s'.Capped limits)) :
    Enqueued limits m targets s s' ∧ (s.Capped limits → s'.Capped limits) :=
  ⟨fanned.1.of_rows same, fun capped => fanned.2 (capped.of_rows same)⟩

theorem inboundStore_placed (route : 0 < limits.routeQueueMax) (all : 0 < limits.globalQueueMax)
    (s : Store) (stamp now : Int) (env : Envelope) (targets : List (String × Endpoint)) :
    Enqueued limits env.id targets s (inboundStore .none s stamp now env targets limits) ∧
      (s.Capped limits → (inboundStore .none s stamp now env targets limits).Capped limits) := by
  refine placed_of_fanOut ?_ (fanOutDeliveries_placed route all stamp env.id env.expiresAt
    (priorityRank env.priority) now targets 0 _)
  obtain ⟨refs, eq⟩ := insertAttachmentRefs_frame .none env.id
    (env.attachments.map AttachmentMeta.sha256) 0 (s.insertMessage env)
  rw [eq]
  rfl

theorem persistStore_placed (route : 0 < limits.routeQueueMax) (all : 0 < limits.globalQueueMax)
    (s : Store) (stamp now : Int) (env : Envelope) (targetRoute : String)
    (destinations : List Endpoint) :
    Enqueued limits env.id (federatedTargets targetRoute destinations) s
        (persistStore .none s stamp now env targetRoute destinations limits.routeQueueMax
          limits.globalQueueMax).2 ∧
      (s.Capped limits → (persistStore .none s stamp now env targetRoute destinations
        limits.routeQueueMax limits.globalQueueMax).2.Capped limits) := by
  have same : (s.insertMessage env).deliveries = s.deliveries := rfl
  exact placed_of_fanOut same (fanOutDeliveries_placed route all stamp env.id env.expiresAt
    (priorityRank env.priority) now _ 0 _)

/-- The targets of the message that a section accepts: what the routes give a plugin's source, the
destinations of the route that a frame names, or the one party of a notice. -/
inductive Accepted (cfg : Config) (e : Errand) : Section → Uuid → List (String × Endpoint) → Prop
  | inbound (m : Uuid) (source : Endpoint) (priority : String)
      (brought : e.brings = some (source, priority)) :
      Accepted cfg e (.inboundPersist m) m (route cfg.routes source)
  | federated (m : Uuid) (targetRoute : String) (routeCfg : RouteConfig)
      (aimed : e.aims = some targetRoute) (found : cfg.routeCfg targetRoute = some routeCfg) :
      Accepted cfg e (.persist m) m (federatedTargets targetRoute routeCfg.destinations)
  | notice (m : Uuid) (dest : Endpoint) : Accepted cfg e (.notice m) m [(identityRoute, dest)]

section Errands

variable {cfg : Config} {e : Errand} {utc : Int} {l : Section} {s s' : Store}

theorem ErrandEffect.enqueued (effect : ErrandEffect (fun d => d.cfg = cfg) e utc l s s')
    (route : 0 < cfg.limits.routeQueueMax) (all : 0 < cfg.limits.globalQueueMax)
    (working : e.io = .none) {m : Uuid} (accepts : l.accepts = some m) :
    ∃ targets, Accepted cfg e l m targets ∧ Enqueued cfg.limits m targets s s' := by
  cases effect with
  | tables _ _ _ quiet =>
    rw [quiet] at accepts
    cases accepts
  | ingress effect =>
    cases effect with
    | keep _ quiet =>
      rw [quiet] at accepts
      cases accepts
    | inbound now env read fine brought =>
      cases accepts
      dsimp only at fine ⊢
      rw [working, fine]
      exact ⟨_, .inbound _ _ _ brought, (inboundStore_placed route all ..).1⟩
    | persist now env targetRoute routeCfg read read' fine fine' aimed found =>
      cases accepts
      dsimp only at fine fine' ⊢
      rw [fine] at found
      rw [working, fine']
      exact ⟨_, .federated _ _ _ aimed found, (persistStore_placed route all ..).1⟩
    | notice now env dest expires read fine normal _ room =>
      cases accepts
      exact ⟨_, .notice _ dest, _, rfl, .cons (.queued rfl rfl rfl rfl) (.nil _)⟩
    | noticeFull now env dest expires read fine normal _ full =>
      cases accepts
      dsimp only at fine
      rw [fine] at full
      exact ⟨_, .notice _ dest, _, rfl, .cons (.refused rfl rfl rfl rfl (.inr full)) (.nil _)⟩
    | reject | confirm | revoke => cases accepts
  | result | ack | requeue | purgeDead => cases accepts

private theorem capped_of_call {limits : Limits} (capped : s.Capped limits)
    (effect : StoreEffect utc l s s') (other : ∀ row, l ≠ .requeue row)
    (next : s'.deliveries.next = s.deliveries.next) : s'.Capped limits := by
  refine capped.of_stays (fun n => ?_)
  intro r' found
  have known := Table.lt_next_of_get? _ found
  rw [next] at known
  exact (effect.row_move n).stays (other n) known r' found

theorem ErrandEffect.capped (effect : ErrandEffect (fun d => d.cfg = cfg) e utc l s s')
    (route : 0 < cfg.limits.routeQueueMax) (all : 0 < cfg.limits.globalQueueMax)
    (working : e.io = .none) (unasked : e.requeues = none) (capped : s.Capped cfg.limits) :
    s'.Capped cfg.limits := by
  cases effect with
  | tables _ _ _ quiet deliveries => exact capped.of_rows deliveries
  | ingress effect =>
    cases effect with
    | keep => exact capped
    | inbound now env read fine brought =>
      dsimp only at fine ⊢
      rw [working, fine]
      exact (inboundStore_placed route all ..).2 capped
    | persist now env targetRoute routeCfg read read' fine fine' =>
      dsimp only at fine' ⊢
      rw [working, fine']
      exact (persistStore_placed route all ..).2 capped
    | reject | noticeFull => exact (capped.of_rows rfl).add_dead rfl rfl
    | notice now env dest expires read fine normal _ room =>
      dsimp only at fine
      rw [fine, not_and, not_le] at room
      exact (capped.of_rows rfl).add rfl (.inl rfl) (room all)
    | confirm => exact capped.of_rows (deliveries_confirmLinkStore ..)
    | revoke => exact capped.of_rows rfl
  | result plugin corr delivered =>
    exact capped_of_call capped (.result plugin corr delivered s) (by rintro _ ⟨⟩)
      (next_resultStore s utc plugin corr delivered)
  | ack peerKey m =>
    exact capped_of_call capped (.ack peerKey m s) (by rintro _ ⟨⟩) (next_ackStore s utc peerKey m)
  | requeue row asked =>
    rw [unasked] at asked
    cases asked
  | purgeDead =>
    have effect : StoreEffect utc .purgeDead s s.purgeDeadLetters.2 := .purgeDead s
    exact capped_of_call capped effect (by rintro _ ⟨⟩) rfl

end Errands

/-- The configuration stays, nothing is requeued, and the store works. -/
def Steady (cfg : Config) : StationMove → Station → Prop
  | .ask e, _ => e.io = .none ∧ e.requeues = none
  | .outside change, h => (change h.node.d).cfg = cfg
  | .pump, _ | .purge, _ | .act _, _ | .restart, _ => True

def Station.next? (h : Station) (i : Nat) : Option (Errand × Section) :=
  h.errands[i]?.bind (fun job => job.2.label?.map (fun l => (job.1, l)))

structure Station.Bounded (cfg : Config) (h : Station) : Prop where
  inv : ∃ v, h.Inv (fun d => d.cfg = cfg) v
  config : h.node.d.cfg = cfg
  errands : ∀ job ∈ h.errands, job.1.io = .none ∧ job.1.requeues = none
  capped : h.node.d.store.Capped cfg.limits

section Runs

variable {K : Crypto} {cfg : Config} {h h' : Station} {a : StationMove}

theorem Station.Bounded.step (bounded : h.Bounded cfg) (route : 0 < cfg.limits.routeQueueMax)
    (all : 0 < cfg.limits.globalQueueMax) (steady : Steady cfg a h)
    (step : Station.step K a h = some h') : h'.Bounded cfg := by
  obtain ⟨v, inv⟩ := bounded.inv
  obtain ⟨v', effect, after⟩ := Station.step_effect step inv bounded.config
  have errands : ∀ job ∈ h'.errands, job.1.io = .none ∧ job.1.requeues = none := by
    refine Station.step_errands (P := fun e => e.io = .none ∧ e.requeues = none) step ?_
      bounded.errands
    rintro e rfl
    exact steady
  have config : h'.node.d.cfg = cfg := by
    by_cases outer : ∃ change, a = .outside change
    · obtain ⟨change, rfl⟩ := outer
      cases step
      exact steady
    · exact (effect.settings (fun change same => outer ⟨change, same⟩)).1.trans bounded.config
  refine ⟨⟨v', after⟩, config, errands, ?_⟩
  cases effect with
  | still _ _ own deliveries => exact bounded.capped.of_rows deliveries
  | own _ b _ _ other apart alone does => exact bounded.capped.of_stays (does.stays alone)
  | act i e l effect next running does =>
    obtain ⟨working, unasked⟩ := bounded.errands _ (mem_of_getElem? running)
    exact does.1.capped route all working unasked bounded.capped

end Runs

/-- Under one configuration, without requeues and storage errors, the queues stay within their caps,
and a section that accepts a message gives each of its targets one row, queued, or refused because a
cap is reached. -/
theorem queues_capped (K : Crypto) (cfg : Config) (route : 0 < cfg.limits.routeQueueMax)
    (all : 0 < cfg.limits.globalQueueMax) (moves : List StationMove) (h₀ h : Station)
    (fresh : h₀.Fresh) (config : h₀.node.d.cfg = cfg) (start : h₀.node.d.store.Capped cfg.limits)
    (met : Meets (Station.step K) (Steady cfg) moves h₀)
    (reached : Station.run K moves h₀ = some h) : h.node.d.store.Capped cfg.limits ∧
      ∀ i e l m h', h.next? i = some (e, l) → l.accepts = some m →
        Station.step K (.act i) h = some h' →
          ∃ targets, Accepted cfg e l m targets ∧
            Enqueued cfg.limits m targets h.node.d.store h'.node.d.store := by
  have bounded : h.Bounded cfg := by
    refine runAll_preserves (Station.Bounded cfg) (fun a s s' steady step held => ?_) moves h₀ h met
      reached ⟨⟨_, fresh.inv⟩, config, ?_, start⟩
    · exact held.step route all steady step
    · rw [fresh.2]
      exact fun job member => absurd member (by simp)
  refine ⟨bounded.capped, fun i e l m h' next accepts step => ?_⟩
  obtain ⟨v, inv⟩ := bounded.inv
  obtain ⟨v', effect, _⟩ := Station.step_effect step inv bounded.config
  cases effect with
  | still _ _ own => exact absurd rfl (own i)
  | own _ b _ _ other => exact absurd rfl (other i)
  | act _ e' l' effect next' running does =>
    obtain ⟨job, found, labelled⟩ := Option.bind_eq_some_iff.mp next
    rw [running] at found
    cases found
    obtain ⟨rfl, rfl⟩ : e' = e ∧ l' = l := by simpa [Prog.label?] using labelled
    have working := (bounded.errands _ (mem_of_getElem? running)).1
    exact does.1.enqueued route all working accepts

def Config.tight : Config :=
  { Config.small with
    routes := [⟨"in", [⟨"x", "lobby"⟩], [⟨"b", "room"⟩, ⟨"c", "room"⟩], "pseudonymous",
      ⟨"alias", 0⟩, "gateway", none⟩]
    limits := ⟨0, 0, 1, 4⟩ }

def Station.empty (cfg : Config) : Station :=
  ⟨⟨Daemon.new cfg .empty ⟨Map.empty, 0, 0⟩ ⟨0, 0⟩ 0 (fun _ => 0), .idle, [], fun _ => 0⟩, []⟩

def lobbyErrand (id : Uuid) (body : String) (priority : Option String) : Errand :=
  .call (.inbound .none ⟨id, ⟨100⟩, ⟨101⟩⟩ "x" "lobby" "ann" "text" body none [] priority)

def tightMoves : List StationMove :=
  StationMove.ask (lobbyErrand ⟨7⟩ "first" none) :: List.replicate 6 (StationMove.act 0)

theorem queues_capped_tight :
    ∃ h h', Station.run (.clear "rf:a") tightMoves (.empty .tight) = some h ∧
      Station.step (.clear "rf:a") (.act 0) h = some h' ∧
      h'.node.d.store.deliveries.rows.map (fun r => (r.destination.protocol, r.state)) =
        [("b", .pending), ("c", .deadLetter)] ∧
      h.node.d.store.Capped Config.tight.limits ∧
      ∃ e targets, Accepted .tight e (.inboundPersist ⟨7⟩) ⟨7⟩ targets ∧
        Enqueued Config.tight.limits ⟨7⟩ targets h.node.d.store h'.node.d.store := by
  obtain ⟨h, reached, h', step, rows, ⟨e, l⟩, next, rfl⟩ :
      ∃ h, Station.run (.clear "rf:a") tightMoves (.empty .tight) = some h ∧
        ∃ h', Station.step (.clear "rf:a") (.act 0) h = some h' ∧
          h'.node.d.store.deliveries.rows.map (fun r => (r.destination.protocol, r.state)) =
            [("b", .pending), ("c", .deadLetter)] ∧
          ∃ p, h.next? 0 = some p ∧ p.2 = .inboundPersist ⟨7⟩ := by
    decide +kernel
  have met : Meets (Station.step (.clear "rf:a")) (Steady .tight) tightMoves (.empty .tight) := by
    refine meets_of_mem (fun a member s => ?_) _
    rcases mem_cons.mp member with rfl | act
    · exact ⟨rfl, rfl⟩
    · rw [eq_of_mem_replicate act]
      trivial
  have start : (Station.empty .tight).node.d.store.Capped Config.tight.limits :=
    ⟨fun _ _ => Nat.zero_le _, Nat.zero_le _⟩
  obtain ⟨capped, queued⟩ := queues_capped (.clear "rf:a") .tight (by decide) (by decide) tightMoves
    (.empty .tight) h ⟨⟨rfl, rfl⟩, rfl⟩ rfl start met reached
  obtain ⟨targets, accepted, placed⟩ := queued 0 e _ ⟨7⟩ h' next rfl step
  exact ⟨h, h', reached, step, rows, capped, e, targets, accepted, placed⟩

end RelayFabric
