/- source: storage.rs (insert_delivery, insert_dead_delivery, requeue), engine.rs (handle_inbound)
   digest: When the rank of a delivery row is that of its message's class. -/

import RelayFabric.Delivery.Caps
import RelayFabric.Retention.Collect

namespace RelayFabric

open Lib

def Store.Ranked (s : Store) : Prop :=
  ∀ n r, s.row n = some r →
    ∃ env, s.messages r.messageId = some env ∧ r.priority = priorityRank env.priority

theorem Store.Ranked.empty : Store.empty.Ranked := fun _ _ found => by cases found

variable {s s' : Store} {before : List (String × Endpoint)}

def Store.Spares (s s' : Store) : Prop :=
  ∀ n r, s'.row n = some r → ∀ env, s.messages r.messageId = some env →
    s'.messages r.messageId = some env

namespace Store.Spares

theorem of_messages (same : s'.messages = s.messages) : s.Spares s' := by
  intro n r found env stored
  rw [same]
  exact stored

theorem of_collected {reported : List String} (collected : Collected s reported s') :
    s.Spares s' := by
  intro n r found env stored
  rw [(collected.rows r (Table.mem_of_get? _ found)).2]
  exact stored

end Store.Spares

theorem StoreEffect.spares {utc : Int} {l : Section} (effect : StoreEffect utc l s s') :
    s.Spares s' := by
  cases effect with
  | ingress effect =>
    rcases effect.messages with same | ⟨env, _, inserted⟩
    · exact .of_messages same
    · intro n r found old stored
      rw [inserted]
      exact Map.insertOrIgnore_of_some stored env.id env
  | result plugin corr delivered =>
    exact .of_messages (messages_resultStore s utc plugin corr delivered)
  | ack peerKey m => exact .of_messages (messages_ackStore s utc peerKey m)
  | requeue row => exact .of_messages rfl
  | purgeDead => exact .of_collected (collected_purgeDeadLetters s)

theorem NodeEffect.spares {good : Delivery → Nat → Fed → Prop} {ok : Daemon → Prop} {σ σ' : Node}
    {v v' : View} {a : Move} (effect : NodeEffect good ok σ v a σ' v') :
    σ.d.store.Spares σ'.d.store := by
  cases effect with
  | quiet _ _ _ store => exact .of_messages (by rw [store])
  | call i l effect next running does => exact does.1.spares
  | snapshot | restart => exact .of_messages rfl
  | attempt now del q' l d' pump held time label current does => exact .of_messages does.messages
  | sweep now l d' pump idle does =>
    obtain ⟨sweeps, _⟩ := does
    generalize d'.store = s' at sweeps
    cases sweeps with
    | keep | challenges | adverts => exact .of_messages rfl
    | purge read fine => exact .of_collected (collected_purgeTerminal _ _)

theorem Store.Ranked.of_address (ranked : s.Ranked)
    (rows : ∀ n r', s'.row n = some r' → ∃ r, s.row n = some r ∧ r.SameAddress r')
    (spares : s.Spares s') : s'.Ranked := by
  intro n r' found
  obtain ⟨r, before, same⟩ := rows n r' found
  obtain ⟨env, stored, rank⟩ := ranked n r before
  refine ⟨env, spares n r' found env ?_, ?_⟩
  · rw [same.message, stored]
  · rw [same.priority, rank]

theorem Store.Ranked.of_tables (ranked : s.Ranked) (deliveries : s'.deliveries = s.deliveries)
    (messages : s'.messages = s.messages) : s'.Ranked := by
  refine ranked.of_address (fun n r' found => ⟨r', ?_, .refl r'⟩) (.of_messages messages)
  rw [← Store.row_congr deliveries n]
  exact found

theorem Store.Ranked.store (ranked : s.Ranked) (env : Envelope)
    (messages : s'.messages = s.messages.insertOrIgnore env.id env)
    (grows : s.Grows (fun r => r.messageId = env.id ∧ r.priority = priorityRank env.priority) s')
    (agree : ∀ old, s.messages env.id = some old →
      priorityRank old.priority = priorityRank env.priority) : s'.Ranked := by
  intro n r' found
  rw [messages]
  rcases grows.rows n with same | ⟨_, r, new, here, rank⟩
  · rw [same] at found
    obtain ⟨stored, present, held⟩ := ranked n r' found
    exact ⟨stored, Map.insertOrIgnore_of_some present env.id env, held⟩
  · obtain rfl := Option.some.inj (found.symm.trans new)
    rw [here]
    cases stored : s.messages env.id with
    | none => exact ⟨env, Map.insertOrIgnore_of_none stored env, rank⟩
    | some old =>
      exact ⟨old, Map.insertOrIgnore_of_some stored env.id env, rank.trans (agree old stored).symm⟩

/-- None of the targets will be refused: the rows that wait, and those of the targets before it,
leave each of them room under both caps. -/
def Limits.fits (limits : Limits) (s : Store) :
    (before targets : List (String × Endpoint)) → Bool
  | _, [] => true
  | before, target :: rest =>
    (limits.routeQueueMax == 0 || decide (s.pendingCount (some target.1) +
      before.countP (fun t => t.1 == target.1) < limits.routeQueueMax)) &&
    (limits.globalQueueMax == 0 ||
      decide (s.pendingCount none + before.length < limits.globalQueueMax)) &&
    limits.fits s (target :: before) rest

structure Ahead (s₀ : Store) (before : List (String × Endpoint)) (s : Store) : Prop where
  route : ∀ name, s.pendingCount (some name) ≤
    s₀.pendingCount (some name) + before.countP (fun t => t.1 == name)
  all : s.pendingCount none ≤ s₀.pendingCount none + before.length

theorem Ahead.more {s₀ : Store} (ahead : Ahead s₀ before s)
    (target : String × Endpoint) : Ahead s₀ (target :: before) s := by
  constructor
  · intro name
    have old := ahead.route name
    rw [List.countP_cons]
    omega
  · have old := ahead.all
    rw [List.length_cons]
    omega

theorem Ahead.insert {s₀ : Store} (ahead : Ahead s₀ before s) {r : Delivery}
    {target : String × Endpoint}
    (rows : s'.deliveries.rows = s.deliveries.rows ++ [r]) (here : r.route = target.1) :
    Ahead s₀ (target :: before) s' := by
  constructor
  · intro name
    have old := ahead.route name
    rw [Store.pendingCount_eq, rows, liveOn_append, ← Store.pendingCount_eq, List.countP_cons]
    by_cases same : target.1 = name
    · have one := liveOn_le_one (some name) r
      rw [if_pos (by simpa using same)]
      omega
    · rw [liveOn_other (by rw [here]; exact same)]
      omega
  · have old := ahead.all
    have one := liveOn_le_one none r
    rw [Store.pendingCount_eq, rows, liveOn_append, ← Store.pendingCount_eq, List.length_cons]
    omega

theorem queueFull_of_fits {limits : Limits} {s₀ : Store} {rest : List (String × Endpoint)}
    {target : String × Endpoint} (ahead : Ahead s₀ before s)
    (fits : limits.fits s₀ before (target :: rest) = true) (io : Faults) (i : Nat) :
    queueFull io i s target.1 limits.routeQueueMax limits.globalQueueMax = false := by
  simp only [Limits.fits, Bool.and_eq_true, Bool.or_eq_true, beq_iff_eq, decide_eq_true_eq] at fits
  have first := ahead.route target.1
  have second := ahead.all
  have routeCount : (if io.routeCount i then 0 else s.pendingCount (some target.1)) ≤
      s.pendingCount (some target.1) := by split <;> omega
  have allCount : (if io.globalCount i then 0 else s.pendingCount none) ≤ s.pendingCount none := by
    split <;> omega
  unfold queueFull
  dsimp only
  generalize (if io.routeCount i then 0 else s.pendingCount (some target.1)) = x at routeCount ⊢
  generalize (if io.globalCount i then 0 else s.pendingCount none) = y at allCount ⊢
  have under : ¬(0 < limits.routeQueueMax ∧ limits.routeQueueMax ≤ x) := by omega
  have below : ¬(0 < limits.globalQueueMax ∧ limits.globalQueueMax ≤ y) := by omega
  rw [decide_eq_false under, decide_eq_false below]
  rfl

theorem fanOutDeliveries_ranked (io : Faults) (stamp : Int) (m : Uuid) (expires : Int) (rank : Nat)
    (limits : Limits) (now : Int) (s₀ : Store) (targets : List (String × Endpoint)) :
    ∀ (before : List (String × Endpoint)) (i : Nat) (s : Store), Ahead s₀ before s →
      rank = 2 ∨ limits.fits s₀ before targets = true →
        s.Grows (fun r => r.messageId = m ∧ r.priority = rank) (fanOutDeliveries io stamp m expires
          rank limits.routeQueueMax limits.globalQueueMax now i targets s).2 := by
  induction targets with
  | nil => exact fun _ _ s _ _ => .refl _ s
  | cons target rest ih =>
    intro before i s ahead kept
    have later : rank = 2 ∨ limits.fits s₀ (target :: before) rest = true := by
      refine kept.imp_right (fun fits => ?_)
      rw [Limits.fits, Bool.and_eq_true] at fits
      exact fits.2
    obtain ⟨name, dest⟩ := target
    unfold fanOutDeliveries
    dsimp only
    by_cases broken : io.insertDelivery i = true
    · rw [if_pos broken]
      exact ih _ (i + 1) s (ahead.more _) later
    rw [if_neg broken]
    cases full : queueFull io i s name limits.routeQueueMax limits.globalQueueMax with
    | true =>
      have normal : 2 = rank := by
        rcases kept with two | fits
        · exact two.symm
        · rw [queueFull_of_fits ahead fits] at full
          cases full
      refine Store.Grows.trans ?_ (ih _ (i + 1) _ (ahead.insert rfl rfl) later)
      exact Store.grows_insertDeadDelivery _ _ _ _ _ _ _ _ (fun _ => ⟨rfl, normal⟩)
    | false =>
      refine Store.Grows.trans ?_ (ih _ (i + 1) _ (ahead.insert rfl rfl) later)
      exact Store.grows_insertDelivery _ _ _ _ _ _ _ _ (fun _ => ⟨rfl, rfl⟩)

def Errand.classAt (e : Errand) : Section → String
  | .inboundPersist _ => (e.brings.map Prod.snd).getD "normal"
  | _ => "normal"

/-- A section keeps ranks if the id it stores under is free or held by a message of the same rank,
and if a plugin's message of another rank than normal finds room for all its targets. -/
def Errand.keepsRank (cfg : Config) (e : Errand) (l : Section) (m : Uuid) (s : Store) : Bool :=
  (s.messages m).all (fun old => priorityRank old.priority == priorityRank (e.classAt l)) &&
    match l, e.brings with
    | .inboundPersist _, some (source, priority) =>
      priorityRank priority == 2 || cfg.limits.fits s [] (route cfg.routes source)
    | _, _ => true

structure Classed (cfg : Config) (e : Errand) (l : Section) (m : Uuid) (s : Store) : Prop where
  agree : ∀ old, s.messages m = some old →
    priorityRank old.priority = priorityRank (e.classAt l)
  room : ∀ source priority, l = .inboundPersist m → e.brings = some (source, priority) →
    priorityRank priority = 2 ∨ cfg.limits.fits s [] (route cfg.routes source) = true

theorem Errand.classed {cfg : Config} {e : Errand} {l : Section} {m : Uuid}
    (keeps : e.keepsRank cfg l m s = true) : Classed cfg e l m s := by
  obtain ⟨agree, room⟩ := Bool.and_eq_true_iff.mp keeps
  constructor
  · intro old stored
    rw [stored] at agree
    simpa using agree
  · rintro source priority rfl brought
    rw [brought] at room
    simpa using room

section Errands

variable {cfg : Config} {e : Errand} {utc : Int} {l : Section} {s s' : Store}

theorem Ahead.start {mid : Store} (same : mid.deliveries = s.deliveries) : Ahead s [] mid := by
  constructor
  · intro name
    rw [Store.pendingCount, same]
    exact Nat.le_add_right _ _
  · rw [Store.pendingCount, same]
    exact Nat.le_add_right _ _

theorem persistStore_ranked (io : Faults) (s : Store) (utc now : Int) {env : Envelope}
    (normal : env.priority = "normal") (targetRoute : String) (destinations : List Endpoint)
    (limits : Limits) : s.Grows (fun r => r.messageId = env.id ∧ r.priority = 2)
      (persistStore io s utc now env targetRoute destinations limits.routeQueueMax
        limits.globalQueueMax).2 := by
  have rank : priorityRank env.priority = 2 := by rw [normal, priorityRank_normal]
  rw [persistStore]
  by_cases broken : io.insertMessage = true
  · rw [if_pos broken]
    exact .refl _ s
  · rw [if_neg broken, rank]
    exact (s.grows_insertMessage _ env).trans (fanOutDeliveries_ranked io utc env.id env.expiresAt 2
      limits now s _ [] 0 _ (Ahead.start rfl) (.inl rfl))

private theorem ranked_of_call (ranked : s.Ranked) (effect : StoreEffect utc l s s')
    (next : s'.deliveries.next = s.deliveries.next) : s'.Ranked := by
  refine ranked.of_address (fun n r' found => ?_) effect.spares
  have known := Table.lt_next_of_get? _ found
  rcases (effect.row_move n).address found with unborn | same
  · omega
  · exact same

theorem ErrandEffect.ranked (effect : ErrandEffect (fun d => d.cfg = cfg) e utc l s s')
    (ranked : s.Ranked) (classed : ∀ m, l.stores = some m → Classed cfg e l m s) : s'.Ranked := by
  cases effect with
  | tables _ _ _ quiet deliveries messages => exact ranked.of_tables deliveries messages
  | ingress effect =>
    cases effect with
    | keep => exact ranked
    | confirm =>
      exact ranked.of_tables (deliveries_confirmLinkStore ..) (messages_confirmLinkStore ..)
    | revoke => exact ranked.of_tables rfl rfl
    | inbound now env read fine brought =>
      dsimp only at fine brought ⊢
      obtain ⟨agree, room⟩ := classed env.id rfl
      have class_ : e.classAt (.inboundPersist env.id) = env.priority := by
        rw [Errand.classAt, brought]
        rfl
      rw [class_] at agree
      by_cases broken : e.io.insertMessage = true
      · rw [inboundStore, if_pos broken]
        exact ranked
      refine ranked.store env ?_ ?_ agree
      · rw [messages_inboundStore, if_neg broken]
      · rw [inboundStore, if_neg broken, fine]
        obtain ⟨refs, eq⟩ := insertAttachmentRefs_frame e.io env.id
          (env.attachments.map AttachmentMeta.sha256) 0 (s.insertMessage env)
        have noted :
          s.Grows (fun r => r.messageId = env.id ∧ r.priority = priorityRank env.priority)
            { s.insertMessage env with attachmentRefs := refs } := Store.grows_of_deliveries rfl
        rw [eq]
        exact noted.trans (fanOutDeliveries_ranked e.io utc env.id env.expiresAt _ cfg.limits
          now s _ [] 0 _ (Ahead.start rfl) (room _ _ rfl brought))
    | persist now env targetRoute routeCfg read read' fine fine' aimed found normal =>
      dsimp only
      obtain ⟨agree, _⟩ := classed env.id rfl
      by_cases broken : e.io.insertMessage = true
      · rw [persistStore, if_pos broken]
        exact ranked
      refine ranked.store env ?_ ?_ (by rw [normal]; exact agree)
      · rw [messages_persistStore, if_neg broken]
      · rw [normal, priorityRank_normal]
        exact persistStore_ranked e.io s utc now normal targetRoute _ read'.cfg.limits
    | reject now env targetRoute peer reason other normal
    | noticeFull now env dest expires read fine normal =>
      obtain ⟨agree, _⟩ := classed env.id rfl
      refine ranked.store env rfl ?_ (by rw [normal]; exact agree)
      refine (s.grows_insertMessage _ env).trans (Store.grows_insertDeadDelivery _ _ _ _ _ _ _ _ ?_)
      exact fun _ => ⟨rfl, by rw [normal, priorityRank_normal]⟩
    | notice now env dest expires read fine normal =>
      obtain ⟨agree, _⟩ := classed env.id rfl
      refine ranked.store env rfl ?_ (by rw [normal]; exact agree)
      exact (s.grows_insertMessage _ env).trans
        (Store.grows_insertDelivery _ _ _ _ _ _ _ _ (fun _ => ⟨rfl, rfl⟩))
  | result plugin corr delivered =>
    exact ranked_of_call ranked (.result plugin corr delivered s)
      (next_resultStore s utc plugin corr delivered)
  | ack peerKey m => exact ranked_of_call ranked (.ack peerKey m s) (next_ackStore s utc peerKey m)
  | requeue row => exact ranked_of_call ranked (.requeue row s) rfl
  | purgeDead =>
    have effect : StoreEffect utc .purgeDead s s.purgeDeadLetters.2 := .purgeDead s
    exact ranked_of_call ranked effect rfl

end Errands

theorem NodeEffect.ranked {good : Delivery → Nat → Fed → Prop} {ok : Daemon → Prop} {σ σ' : Node}
    {v v' : View} {a : Move} (effect : NodeEffect good ok σ v a σ' v') (alone : ∀ i, a ≠ .call i)
    (ranked : σ.d.store.Ranked) : σ'.d.store.Ranked := by
  refine ranked.of_address (fun n r' found => ?_) effect.spares
  rcases effect.row_move n with move | ⟨i, _, _, _, call, _⟩
  · exact move.address found
  · exact absurd call (alone i)

/-- The configuration stays, and every section that stores a message keeps ranks. -/
def Station.orderly (cfg : Config) (h : Station) : StationMove → Bool
  | .act i => (h.next? i).all (fun next => next.2.stores.all (fun m =>
    next.1.keepsRank cfg next.2 m h.node.d.store))
  | .outside change => decide ((change h.node.d).cfg = cfg)
  | .pump | .purge | .ask _ | .restart => true

structure Station.Ranks (cfg : Config) (h : Station) : Prop where
  inv : ∃ v, h.Inv (fun d => d.cfg = cfg) v
  config : h.node.d.cfg = cfg
  ranked : h.node.d.store.Ranked

section Runs

variable {K : Crypto} {cfg : Config} {h h' : Station} {a : StationMove}

theorem Station.next?_of_running {i : Nat} {e : Errand} {l : Section} {effect : Daemon → Daemon}
    {next : Daemon → Engine Unit} (running : h.errands[i]? = some (e, .act l effect next)) :
    h.next? i = some (e, l) := by
  unfold Station.next?
  rw [running]
  rfl

theorem Station.Ranks.step (ranks : h.Ranks cfg) (orderly : h.orderly cfg a = true)
    (step : Station.step K a h = some h') : h'.Ranks cfg := by
  obtain ⟨v, inv⟩ := ranks.inv
  obtain ⟨v', effect, after⟩ := Station.step_effect step inv ranks.config
  have config : h'.node.d.cfg = cfg := by
    by_cases outer : ∃ change, a = .outside change
    · obtain ⟨change, rfl⟩ := outer
      cases step
      exact of_decide_eq_true orderly
    · exact (effect.settings (fun change same => outer ⟨change, same⟩)).1.trans ranks.config
  refine ⟨⟨v', after⟩, config, ?_⟩
  cases effect with
  | still _ _ own deliveries messages => exact ranks.ranked.of_tables deliveries messages
  | own _ b _ _ other apart alone does => exact does.ranked alone ranks.ranked
  | act i e l effect next running does =>
    refine does.1.ranked ranks.ranked (fun m stores => Errand.classed ?_)
    rw [Station.orderly, Station.next?_of_running running] at orderly
    simpa [stores] using orderly

end Runs

/-- Where each section that stores a message keeps ranks, every row stands at the rank of its
message's class, whatever retries, refusals and requeues the run has. -/
theorem ranks_kept (K : Crypto) (cfg : Config) (moves : List StationMove) (h₀ h : Station)
    (fresh : h₀.Fresh) (config : h₀.node.d.cfg = cfg) (start : h₀.node.d.store.Ranked)
    (met : Meets (Station.step K) (fun a h => h.orderly cfg a = true) moves h₀)
    (reached : Station.run K moves h₀ = some h) :
    h.node.d.store.Ranked := by
  have ranks : h.Ranks cfg :=
    runAll_preserves (Station.Ranks cfg)
      (fun a s s' orderly step held => held.step orderly step) moves
      h₀ h met reached ⟨⟨_, fresh.inv⟩, config, start⟩
  exact ranks.ranked

def Config.roomy : Config := { Config.tight with limits := ⟨0, 0, 2, 4⟩ }

def alarmMoves : List StationMove :=
  StationMove.ask (lobbyErrand ⟨7⟩ "fire" (some "emergency")) :: List.replicate 7
    (StationMove.act 0)

theorem ranks_kept_alarm :
    ∃ h, Station.run (.clear "rf:a") alarmMoves (.empty .roomy) = some h ∧
      h.node.d.store.deliveries.rows.map Delivery.priority = [0, 0] ∧ h.node.d.store.Ranked := by
  obtain ⟨h, reached, ranks⟩ :
      ∃ h, Station.run (.clear "rf:a") alarmMoves (.empty .roomy) = some h ∧
        h.node.d.store.deliveries.rows.map Delivery.priority = [0, 0] := by
    decide +kernel
  have met : Meets (Station.step (.clear "rf:a")) (fun a h => h.orderly .roomy a = true) alarmMoves
      (.empty .roomy) := by
    decide +kernel
  exact ⟨h, reached, ranks, ranks_kept _ _ _ _ h ⟨⟨rfl, rfl⟩, rfl⟩ rfl Store.Ranked.empty
    met reached⟩

def refusedMoves : List StationMove :=
  alarmMoves ++ [StationMove.ask (.call (.requeue 2)), StationMove.act 1]

/-- A row of an emergency message waits at the rank of normal. -/
theorem refused_alarm_loses_rank :
    (Station.empty .tight).Fresh ∧ (Station.empty .tight).node.d.store.Ranked ∧
      ∃ h, Station.run (.clear "rf:a") refusedMoves (.empty .tight) = some h ∧
        ∃ r, h.node.d.store.row 2 = some r ∧ r.state = .pending ∧ r.messageId = ⟨7⟩ ∧
          r.priority = 2 ∧
          (h.node.d.store.messages ⟨7⟩).map Envelope.priority = some "emergency" ∧
          priorityRank "emergency" = 0 := by
  refine ⟨⟨⟨rfl, rfl⟩, rfl⟩, Store.Ranked.empty, ?_⟩
  decide +kernel

end RelayFabric
