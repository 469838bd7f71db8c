/- source: engine.rs (fed_ingress, persist_and_fan_out, process_due)
   digest: The rows of a peer's messages rank as normal, and their frames pass a budget check. -/

import RelayFabric.Delivery.Priority

namespace RelayFabric

open Lib Option
open Prog hiding bind run

def Delivery.toPeer (del : Delivery) : Prop :=
  del.route ≠ identityRoute ∧ del.destination.protocol = fedProtocol

instance (del : Delivery) : Decidable del.toPeer := inferInstanceAs (Decidable (_ ∧ _))

def budgetKey (del : Delivery) : String :=
  if del.toPeer then (fedTarget del.destination.endpoint).elim "" (fun target => "fed/" ++ target.1)
  else del.destination.protocol

def budgetRate (del : Delivery) (cfg : Config) : Nat :=
  if del.toPeer then (fedTarget del.destination.endpoint).elim 0 (fun target =>
    (cfg.peer? target.1).elim 0 PeerConfig.messagesPerMinute)
  else cfg.transportBudget del.destination.protocol

structure Toll where
  cfg : Option Config
  passed : Bool

namespace Toll

def fresh : Toll := ⟨none, false⟩

def next (del : Delivery) (t : Toll) (l : Section) (d : Daemon) : Toll :=
  match l with
  | .cfg => { t with cfg := some d.cfg }
  | .budget =>
    { t with passed := t.cfg.any (fun cfg =>
        (d.budgetLimiter.allow (budgetKey del) (budgetRate del cfg) d.clock.instant).1) }
  | _ => t

end Toll

def TollStep (del : Delivery) (t : Toll) (l : Section) (d _d' : Daemon) (t' : Toll) : Prop :=
  t' = t.next del l d ∧ (l.handover ≠ none → t.passed = true)

section Programs

variable {α β : Type} {del : Delivery} {t : Toll}

abbrev Tolled (del : Delivery) (final : Toll → α → Prop) (t : Toll) (p : Engine α) : Prop :=
  Follows (fun _ => True) (TollStep del) final t p

abbrev Unasked (p : Engine α) : Prop := Always (fun l _ _ => l ≠ .budget) p

abbrev Plain (p : Engine α) : Prop := Always (fun l _ _ => l ≠ .budget ∧ l.handover = none) p

private theorem passed_next {l : Section} {d : Daemon} (other : l ≠ .budget) :
    (t.next del l d).passed = t.passed := by
  cases l <;> first | rfl | exact absurd rfl other

private theorem tolled_plain {p : Engine α} (plain : Plain p) :
    Tolled del (fun t' _ => t'.passed = t.passed) t p := by
  refine follows_within plain (fun t' l d d' same section_ => ?_) rfl
  exact ⟨_, ⟨rfl, fun hands => absurd section_.2 hands⟩, (passed_next section_.1).trans same⟩

private theorem tolled_unasked {p : Engine α} (unasked : Unasked p) (passed : t.passed = true) :
    Tolled del (fun _ _ => True) t p := by
  refine follows_final (follows_within unasked (I := fun t => t.passed = true)
    (fun t' l d d' held other => ?_) passed) (fun _ _ _ => trivial)
  exact ⟨_, ⟨rfl, fun _ => held⟩, (passed_next other).trans held⟩

private theorem tolled_end {p : Engine α} (plain : Plain p) : Tolled del (fun _ _ => True) t p :=
  follows_final (tolled_plain plain) (fun _ _ _ => trivial)

private theorem tolled_bind {p : Engine α} {rest : α → Engine β} {final : Toll → β → Prop}
    (plain : Plain p) (second : ∀ t' a, Tolled del final t' (rest a)) :
    Tolled del final t (p >>= rest) :=
  follows_bind (tolled_plain plain) (fun t' a _ => second t' a)

theorem budgetAllows_tolled : Tolled del (fun t' allowed => allowed = true → t'.passed = true) t
    (budgetAllows (budgetKey del) (budgetRate del)) := by
  refine follows_observe_bind (fun read _ => ⟨_, ⟨rfl, fun hands => absurd rfl hands⟩, ?_⟩)
  exact follows_critical
    (fun d _ => ⟨_, ⟨rfl, fun hands => absurd rfl hands⟩, fun allowed => allowed⟩)

private theorem tolled_check {rest retry : Engine Unit} (unasked : Unasked rest)
    (plain : Plain retry) : Tolled del (fun _ _ => True) t (do
      if ← budgetAllows (budgetKey del) (budgetRate del) then rest else retry) := by
  refine follows_bind budgetAllows_tolled (fun t' allowed asked => ?_)
  cases allowed with
  | true => exact tolled_unasked unasked (asked rfl)
  | false => exact tolled_end plain

private theorem plain_observe {l : Section} {read : Daemon → α} (other : l ≠ .budget)
    (none : l.handover = none) : Plain (.observe l read : Engine α) :=
  always_observe (fun _ => ⟨other, none⟩)

private theorem plain_markTerminal (row : Nat) (state : DeliveryState) (reason : Reason) :
    Plain (markTerminal row state reason) :=
  always_modify (fun _ => ⟨by simp, rfl⟩)

private theorem plain_retryAt (row : Nat) (next : Int) : Plain (retryAt row next) :=
  always_modify (fun _ => ⟨by simp, rfl⟩)

private theorem Plain.unasked {p : Engine α} (plain : Plain p) : Unasked p :=
  always_mono plain (fun _ _ _ => And.left)

private theorem unasked_attemptSend {row : Nat} {now : Int} {handover : Section}
    {trySend : Daemon → Bool × Daemon} (other : handover ≠ .budget) :
    Unasked (attemptSend row now handover trySend) := by
  refine always_bind (always_modify (fun _ => by simp)) (fun _ => ?_)
  refine always_bind (always_critical (fun _ => other)) (fun taken => ?_)
  exact always_ite (always_pure _) (plain_retryAt _ _).unasked

private theorem plain_of_reads {p : Engine α} (reads : Reads p) : Plain p :=
  always_mono reads (fun _ _ _ read => ⟨read.1, read.2.1⟩)

private theorem plain_resolveSealedKey (K : Crypto) (peer : String) : Plain
    (resolveSealedKey K peer) := by
  refine always_bind (plain_observe (by simp) rfl) (fun found => ?_)
  cases found with
  | none => exact always_pure _
  | some entry => exact always_bind (plain_observe (by simp) rfl) (fun _ => always_pure _)

private theorem unasked_fedSealed (K : Crypto) (env : Envelope) (peer route : String) (tx : Nat)
    (now : Int) :
    Unasked (processDueFedSealed K del env peer route tx now) := by
  refine always_bind (plain_resolveSealedKey ..).unasked (fun key => ?_)
  cases key with
  | none => exact (plain_markTerminal _ _ _).unasked
  | some recipient =>
    refine always_ite (plain_markTerminal _ _ _).unasked ?_
    refine always_bind (plain_observe (by simp) rfl).unasked (fun maxTtl => ?_)
    split
    · exact (plain_markTerminal _ _ _).unasked
    · refine always_bind (plain_observe (by simp) rfl).unasked (fun seed => ?_)
      exact unasked_attemptSend (by simp)

theorem processDueFed_tolled (K : Crypto) (env : Envelope) (now : Int) (peer : del.toPeer) :
    Tolled del (fun _ _ => True) t (processDueFed K del env now) := by
  unfold processDueFed
  cases target : fedTarget del.destination.endpoint with
  | none => exact tolled_end (plain_markTerminal _ _ _)
  | some pair =>
    obtain ⟨peerName, route⟩ := pair
    refine tolled_bind (plain_observe (by simp) rfl) (fun t' found => ?_)
    cases found with
    | none => exact tolled_end (plain_retryAt _ _)
    | some conn =>
      have key : "fed/" ++ peerName = budgetKey del := by
        rw [budgetKey, if_pos peer, target]
        rfl
      have rate : (fun c : Config => (c.peer? peerName).elim 0 PeerConfig.messagesPerMinute) =
          budgetRate del := by
        funext c
        rw [budgetRate, if_pos peer, target]
        rfl
      rw [key, rate]
      refine tolled_check ?_ (plain_retryAt _ _)
      refine always_bind (plain_observe (by simp) rfl).unasked (fun exposure => ?_)
      refine always_bind (plain_observe (by simp) rfl).unasked (fun ts => ?_)
      refine always_bind (plain_observe (by simp) rfl).unasked (fun found => ?_)
      cases found with
      | none => exact (plain_markTerminal _ _ _).unasked
      | some routeCfg =>
        exact always_ite (unasked_fedSealed ..) (unasked_attemptSend (by simp))

private theorem transportBudget_eq (ranked : 0 < del.priority) (local_ : ¬ del.toPeer) :
    transportBudgetAllows del = budgetAllows (budgetKey del) (budgetRate del) := by
  have rate : (fun c : Config => c.transportBudget del.destination.protocol) = budgetRate del := by
    funext c
    rw [budgetRate, if_neg local_]
  rw [transportBudgetAllows, if_pos ranked, rate, budgetKey, if_neg local_]

theorem processDueIdentity_tolled (env : Envelope) (now : Int) (ranked : 0 < del.priority)
    (local_ : ¬ del.toPeer) : Tolled del (fun _ _ => True) t (processDueIdentity del env now) := by
  unfold processDueIdentity
  rw [transportBudget_eq ranked local_]
  refine tolled_bind (plain_observe (by simp) rfl) (fun t' handle => ?_)
  split
  · exact tolled_end (plain_retryAt _ _)
  · refine follows_ite (fun _ => tolled_end (plain_markTerminal _ _ _)) (fun _ => ?_)
    exact tolled_check (unasked_attemptSend (by simp)) (plain_retryAt _ _)

theorem processDuePlugin_tolled (K : Crypto) (env : Envelope) (now : Int) (maxPayload : Option Nat)
    (allowed : Bool) (cap : Option Nat) (ranked : 0 < del.priority) (local_ : ¬ del.toPeer) :
    Tolled del (fun _ _ => True) t (processDuePlugin K del env now maxPayload allowed cap) := by
  unfold processDuePlugin
  rw [transportBudget_eq ranked local_]
  refine tolled_bind (plain_observe (by simp) rfl) (fun t' handle => ?_)
  split
  · exact tolled_end (plain_retryAt _ _)
  · refine tolled_bind (plain_observe (by simp) rfl) (fun t'' tp => ?_)
    refine tolled_check ?_ (plain_retryAt _ _)
    refine always_bind (plain_observe (by simp) rfl).unasked (fun routeCfg => ?_)
    refine always_bind (plain_of_reads (reads_displayTag ..)).unasked (fun tag => ?_)
    refine always_bind (plain_of_reads (reads_outgoingAttachments ..)).unasked (fun files => ?_)
    exact always_ite (plain_markTerminal _ _ _).unasked (unasked_attemptSend (by simp))

theorem processDue_tolled (K : Crypto) (now : Int) (ranked : 0 < del.priority) :
    Tolled del (fun _ _ => True) t (processDue K del now) := by
  refine tolled_bind (plain_observe (by simp) rfl) (fun t' found => ?_)
  cases found with
  | none => exact tolled_end (plain_markTerminal _ _ _)
  | some env =>
    refine follows_ite (fun _ => tolled_end (plain_markTerminal _ _ _)) (fun _ => ?_)
    refine follows_ite (fun _ => tolled_end (plain_markTerminal _ _ _)) (fun _ => ?_)
    refine follows_ite (fun notice => ?_) (fun other => ?_)
    · exact processDueIdentity_tolled env now ranked (fun peer => peer.1 notice)
    refine tolled_bind (plain_observe (by simp) rfl) (fun t'' policies => ?_)
    split
    · exact tolled_end (plain_markTerminal _ _ _)
    · refine follows_ite (fun fed => ?_) (fun plugin => ?_)
      · exact processDueFed_tolled K env now ⟨other, fed⟩
      · exact processDuePlugin_tolled K env now _ _ _ ranked (fun peer => plugin peer.2)

end Programs

theorem ErrandEffect.normal {ok : Daemon → Prop} {e : Errand} {utc : Int} {l : Section}
    {s s' : Store}
    (effect : ErrandEffect ok e utc l s s') (peer : e.aims ≠ none) {n : Nat} {r : Delivery}
    (unborn : s.deliveries.next ≤ n) (found : s'.row n = some r) : r.priority = 2 := by
  have absent : s.row n = none := Store.row_of_next_le unborn
  have given : s.Grows (fun r => r.priority = 2) s' → r.priority = 2 := by
    intro grows
    rcases grows.rows n with same | ⟨_, r', new, holds⟩
    · rw [same, absent] at found
      cases found
    · obtain rfl := Option.some.inj (new.symm.trans found)
      exact holds
  have none_of_next (next : s'.deliveries.next = s.deliveries.next) : r.priority = 2 := by
    rw [Store.row_of_next_le (next.le.trans unborn)] at found
    cases found
  cases effect with
  | tables _ _ _ quiet deliveries => exact none_of_next (by rw [deliveries])
  | ingress effect =>
    cases effect with
    | keep | revoke => exact none_of_next rfl
    | confirm => exact none_of_next (by rw [deliveries_confirmLinkStore])
    | inbound now env read fine brought =>
      have other : e.aims = none := by
        cases e with
        | call c => cases c <;> first | rfl | cases brought
        | link => rfl
      exact absurd other peer
    | persist now env targetRoute routeCfg read read' fine fine' aimed named normal =>
      have fanned := persistStore_ranked e.io s utc now normal targetRoute routeCfg.destinations
        read'.cfg.limits
      exact given (fanned.mono (fun _ => And.right))
    | reject now env targetRoute peer reason other =>
      exact given ((s.grows_insertMessage _ env).trans
        (Store.grows_insertDeadDelivery _ _ _ _ _ _ _ _ (fun _ => rfl)))
    | notice now env dest expires read fine normal =>
      have rank : priorityRank env.priority = 2 := by rw [normal, priorityRank_normal]
      exact given ((s.grows_insertMessage _ env).trans
        (Store.grows_insertDelivery _ _ _ _ _ _ _ _ (fun _ => rank)))
    | noticeFull =>
      exact given ((s.grows_insertMessage _ _).trans
        (Store.grows_insertDeadDelivery _ _ _ _ _ _ _ _ (fun _ => rfl)))
  | result plugin corr delivered =>
    exact none_of_next (next_resultStore ..)
  | ack peerKey m => exact none_of_next (next_ackStore ..)
  | requeue row | purgeDead => exact none_of_next rfl

def Station.receives (h : Station) : StationMove → Bool
  | .act i => h.errands[i]?.any (fun job => job.1.aims.isSome)
  | .pump | .purge | .ask _ | .outside _ | .restart => false

def Node.tollAfter (σ : Node) (t : Toll) : Toll :=
  match σ.pump with
  | .round _ (some (del, .act l _ _)) _ => t.next del l σ.d
  | .round _ none _ => .fresh
  | .round _ (some (_, .ret _)) _ | .idle | .starting _ | .purging _ => t

/-- A station, the rows that peers' frames have inserted so far, and the check of the attempt under
way. The last two are history variables. -/
structure Ledger where
  station : Station
  remote : Nat → Bool
  toll : Toll

namespace Ledger

abbrev next (w : Ledger) : Nat := w.station.node.d.store.deliveries.next

def step (K : Crypto) (a : StationMove) (w : Ledger) : Option Ledger :=
  (Station.step K a w.station).map (fun h =>
    { station := h
      remote := fun n => w.remote n || (w.station.receives a &&
        decide (w.next ≤ n ∧ n < h.node.d.store.deliveries.next))
      toll := match a with
        | .pump => w.station.node.tollAfter w.toll
        | _ => w.toll })

abbrev run (K : Crypto) : List StationMove → Ledger → Option Ledger := runAll (step K)

def opened (h : Station) : Ledger := ⟨h, fun _ => false, .fresh⟩

structure Inv (v : View) (w : Ledger) : Prop where
  station : w.station.Inv anyDaemon v
  rows : ∀ n r, w.station.node.d.store.row n = some r → w.remote n = true → r.priority = 2
  held : ∀ del ∈ v.held, w.remote del.id = true → del.priority = 2
  born : ∀ n, w.remote n = true → n < w.next
  known : ∀ del ∈ v.held, del.id < w.next
  tolled : ∀ now del p batch, w.station.node.pump = .round now (some (del, p)) batch →
    0 < del.priority → Tolled del (fun _ _ => True) w.toll p

end Ledger

section Step

variable {K : Crypto} {h h' : Station} {v v' : View} {a : StationMove} {w w' : Ledger}

variable {ok : Daemon → Prop} {n : Nat}

section

variable (effect : StationEffect ok h v a h' v')
include effect

theorem StationEffect.next_le :
    h.node.d.store.deliveries.next ≤ h'.node.d.store.deliveries.next := by
  cases effect with
  | still _ _ own deliveries => rw [deliveries]
  | own _ b _ _ other inner alone does => exact does.next_le
  | act i e l effect next running does =>
    rcases does.1.store with call | ⟨same, _⟩
    · exact call.next_le
    · exact (congrArg Table.next same).ge

theorem StationEffect.address {r' : Delivery}
    (found : h'.node.d.store.row n = some r') :
    h.node.d.store.deliveries.next ≤ n ∨ ∃ r, h.node.d.store.row n = some r ∧ r.SameAddress r' := by
  have kept (same : h'.node.d.store.deliveries = h.node.d.store.deliveries) :
      ∃ r, h.node.d.store.row n = some r ∧ r.SameAddress r' := by
    refine ⟨r', ?_, .refl r'⟩
    rw [← Store.row_congr same n]
    exact found
  cases effect with
  | still _ _ own deliveries => exact .inr (kept deliveries)
  | own _ b _ _ other inner alone does => exact does.address found |>.imp_left And.left
  | act i e l effect next running does =>
    rcases does.1.store with call | ⟨same, _⟩
    · exact (call.row_move n).address found
    · exact .inr (kept same)

theorem StationEffect.held {del : Delivery}
    (member : del ∈ v'.held) : del ∈ v.held ∨ h'.node.d.store.row del.id = some del := by
  cases effect with
  | still | act => exact .inl member
  | own _ b _ _ other inner alone does => exact does.held member

end

theorem Node.tolled_pumpStep {σ : Node} {t : Toll}
    (tolled : ∀ now del p batch, σ.pump = .round now (some (del, p)) batch → 0 < del.priority →
      Tolled del (fun _ _ => True) t p) :
    ∀ now del p batch, (σ.pumpStep K).pump = .round now (some (del, p)) batch → 0 < del.priority →
      Tolled del (fun _ _ => True) (σ.tollAfter t) p := by
  intro now del p batch stands ranked
  obtain ⟨d, pump, calls, base⟩ := σ
  match pump with
  | .idle | .starting (.act _ _ _) | .starting (.ret _) | .round _ (some (_, .ret _)) _
  | .round _ none []
  | .purging (.act _ _ _) | .purging (.ret _) => cases stands
  | .round now (some (at_, .act l effect next)) rest =>
    obtain ⟨rfl, same, rfl⟩ := Pump.round.inj stands
    cases same
    obtain ⟨t', ⟨rfl, _⟩, later⟩ := follows_act (tolled _ _ _ _ rfl ranked) (s := d) trivial
    exact later
  | .round now none (first :: rest) =>
    obtain ⟨rfl, same, rfl⟩ := Pump.round.inj stands
    cases same
    exact processDue_tolled K now ranked

theorem Ledger.Inv.tolled_step (inv : w.Inv v) (step : Ledger.step K a w = some w') :
    ∀ now del p batch, w'.station.node.pump = .round now (some (del, p)) batch → 0 < del.priority →
      Tolled del (fun _ _ => True) w'.toll p := by
  obtain ⟨h, moved, rfl⟩ := map_eq_some_iff.mp step
  intro now del p batch stands ranked
  cases a with
  | pump =>
    rw [Station.step] at moved
    obtain ⟨σ, stepped, rfl⟩ := map_eq_some_iff.mp moved
    cases stepped
    exact Node.tolled_pumpStep inv.tolled now del p batch stands ranked
  | purge =>
    obtain ⟨σ, stepped, rfl⟩ := map_eq_some_iff.mp moved
    simp only [Node.step] at stepped
    split at stepped
    · cases stepped
      cases stands
    · cases stepped
  | restart =>
    rw [Station.step] at moved
    obtain ⟨σ, stepped, rfl⟩ := map_eq_some_iff.mp moved
    cases stepped
    cases stands
  | ask | outside =>
    cases moved
    exact inv.tolled now del p batch stands ranked
  | act i =>
    simp only [Station.step] at moved
    split at moved
    · cases moved
      exact inv.tolled now del p batch stands ranked
    · cases moved

theorem Ledger.remote_step (step : Ledger.step K a w = some w') (remote : w'.remote n = true) :
    w.remote n = true ∨ (w.station.receives a = true ∧ w.next ≤ n ∧ n < w'.next) := by
  obtain ⟨h, moved, rfl⟩ := map_eq_some_iff.mp step
  simpa using remote

theorem StationEffect.received (effect : StationEffect ok h v a h' v')
    (receives : h.receives a = true) {r : Delivery}
    (unborn : h.node.d.store.deliveries.next ≤ n) (found : h'.node.d.store.row n = some r) :
    r.priority = 2 := by
  cases effect with
  | still _ _ own => cases a <;> first | cases receives | exact absurd rfl (own _)
  | own _ _ _ _ other => cases a <;> first | cases receives | exact absurd rfl (other _)
  | act i e l effect next running does =>
    have peer : e.aims ≠ none := by
      simpa [Station.receives, running, isSome_iff_ne_none] using receives
    exact does.1.normal peer unborn found

theorem Ledger.Inv.rows_step (inv : w.Inv v)
    (effect : StationEffect anyDaemon w.station v a w'.station v')
    (step : Ledger.step K a w = some w') :
    ∀ n r, w'.station.node.d.store.row n = some r → w'.remote n = true → r.priority = 2 := by
  intro n r found remote
  rcases Ledger.remote_step step remote with old | ⟨receives, unborn, _⟩
  · rcases effect.address found with unborn | ⟨before, there, same⟩
    · exact absurd (inv.born n old) (Nat.not_lt.mpr unborn)
    · rw [same.priority]
      exact inv.rows n before there old
  · exact effect.received receives unborn found

theorem EgressStep.placed {good : Nat → Fed → Prop} {del : Delivery} {now : Int} {q q' : Phase}
    {l : Section} {d d' : Daemon} (does : EgressStep good del now q l d d' q')
    (sent : d'.placed n ≠ d.placed n) : del.id = n ∧ l.handover = some n := by
  have at_row (same : d'.placed = (d.countPlaced del.id).placed) : del.id = n := by
    by_contra other
    rw [same] at sent
    exact sent (Function.update_of_ne (Ne.symm other) _ _)
  cases does with
  | look _ _ _ _ clear store budget wires => exact absurd (congrFun wires.placed n) sent
  | placePlugin tx => exact ⟨at_row rfl, congrArg some (at_row rfl)⟩
  | placeFed tx => exact ⟨at_row rfl, congrArg some (at_row rfl)⟩
  | away | hold | charge | terminate | postpone | attempt | refuse | requeue =>
    exact absurd rfl sent

theorem Node.Inv.placed_pumpStep {σ : Node} (inv : σ.Inv anyFrame anyDaemon v)
    (sent : (σ.pumpStep K).d.placed n ≠ σ.d.placed n) :
    ∃ now del l effect next batch, σ.pump = .round now (some (del, .act l effect next)) batch ∧
      del ∈ v.held ∧ del.id = n ∧ l.handover = some n := by
  obtain ⟨d, pump, calls, base⟩ := σ
  have held := inv.pump
  match pump, held with
  | .idle, _ | .starting (.ret _), _ | .round _ (some (_, .ret _)) _, _ | .round _ none [], _
  | .round _ none (_ :: _), _ | .purging (.ret _), _ => exact absurd rfl sent
  | .starting (.act l effect next), ⟨start, starts, _, _⟩ =>
    obtain ⟨start', does, _⟩ := follows_act starts (s := d) trivial
    change (effect d).placed n ≠ d.placed n at sent
    generalize effect d = d' at does sent
    cases does <;> exact absurd rfl sent
  | .purging (.act l effect next), ⟨now, _, sweeps⟩ =>
    obtain ⟨_, does, _⟩ := follows_act sweeps (s := d) trivial
    exact absurd (congrFun does.2.placed n) sent
  | .round now (some (del, .act l effect next)) batch, ⟨whole, _, _, _, follows, _⟩ =>
    obtain ⟨q', does, _⟩ := follows_act follows (s := d) trivial
    obtain ⟨here, hands⟩ := does.placed sent
    have member : del ∈ v.held := by
      rw [whole]
      exact List.mem_cons_self
    exact ⟨now, del, l, effect, next, batch, rfl, member, here, hands⟩

theorem Ledger.Inv.passed (inv : w.Inv v) (step : Ledger.step K a w = some w')
    (remote : w.remote n = true)
    (sent : w'.station.node.d.placed n ≠ w.station.node.d.placed n) : w.toll.passed = true := by
  obtain ⟨h, moved, rfl⟩ := map_eq_some_iff.mp step
  cases a with
  | pump =>
    rw [Station.step] at moved
    obtain ⟨σ, stepped, rfl⟩ := map_eq_some_iff.mp moved
    cases stepped
    obtain ⟨now, del, l, effect, next, batch, stands, member, rfl, hands⟩ :=
      inv.station.node.placed_pumpStep sent
    have ranked : 0 < del.priority := by
      rw [inv.held del member remote]
      decide
    obtain ⟨t', taken, _⟩ := follows_act (inv.tolled now del _ batch stands ranked)
      (s := w.station.node.d) trivial
    exact taken.2 (by rw [hands]; simp)
  | purge =>
    obtain ⟨σ, stepped, rfl⟩ := map_eq_some_iff.mp moved
    simp only [Node.step] at stepped
    split at stepped
    · cases stepped
      exact absurd rfl sent
    · cases stepped
  | restart =>
    rw [Station.step] at moved
    obtain ⟨σ, stepped, rfl⟩ := map_eq_some_iff.mp moved
    cases stepped
    exact absurd rfl sent
  | ask | outside =>
    cases moved
    exact absurd rfl sent
  | act i =>
    obtain ⟨v', effect, _⟩ := Station.step_effect moved inv.station trivial
    cases effect with
    | still _ _ own => exact absurd rfl (own i)
    | own _ _ _ _ other => exact absurd rfl (other i)
    | act i e l effect next running does => exact absurd (congrFun does.2.placed n) sent

theorem Ledger.Inv.step (inv : w.Inv v) (step : Ledger.step K a w = some w') : ∃ v', w'.Inv v' := by
  have moved : Station.step K a w.station = some w'.station := by
    obtain ⟨h, moved, rfl⟩ := map_eq_some_iff.mp step
    exact moved
  obtain ⟨v', effect, after⟩ := Station.step_effect moved inv.station trivial
  have rows := inv.rows_step effect step
  refine ⟨v', after, rows, fun del member remote => ?_, fun n remote => ?_, fun del member => ?_,
    inv.tolled_step step⟩
  · rcases effect.held member with old | new
    · rcases Ledger.remote_step step remote with before | ⟨_, unborn, _⟩
      · exact inv.held del old before
      · exact absurd (inv.known del old) (Nat.not_lt.mpr unborn)
    · exact rows del.id del new remote
  · rcases Ledger.remote_step step remote with before | ⟨_, _, born⟩
    · exact (inv.born n before).trans_le effect.next_le
    · exact born
  · rcases effect.held member with old | new
    · exact (inv.known del old).trans_le effect.next_le
    · exact Table.lt_next_of_get? _ new

end Step

/-- In every run of a started daemon a row that a peer's frame has inserted has priority 2 as long
as it is there, and a frame for it is taken by a channel only in an attempt whose budget has allowed
it. -/
theorem remote_priority_normal (K : Crypto) (moves : List StationMove) (h₀ : Station) (w : Ledger)
    (fresh : h₀.Fresh) (reached : Ledger.run K moves (.opened h₀) = some w) :
    (∀ n r, w.station.node.d.store.row n = some r → w.remote n = true → r.priority = 2) ∧
      ∀ a w' n, Ledger.step K a w = some w' → w.remote n = true →
        w'.station.node.d.placed n ≠ w.station.node.d.placed n → w.toll.passed = true := by
  have start : (Ledger.opened h₀).Inv .idle := by
    refine ⟨fresh.inv, fun _ _ _ remote => ?_, fun _ member => ?_, fun _ remote => ?_,
      fun _ member => ?_, fun now del p batch stands => ?_⟩
    · cases remote
    · cases member
    · cases remote
    · cases member
    · rw [show (Ledger.opened h₀).station.node.pump = .idle from fresh.1.1] at stands
      cases stands
  obtain ⟨v, inv⟩ := runAll_invariant (fun w => ∃ v, Ledger.Inv v w)
    (fun a s s' step given => by
      obtain ⟨v, inv⟩ := given
      exact inv.step step) reached ⟨_, start⟩
  exact ⟨inv.rows, fun a w' n step remote sent => inv.passed step remote sent⟩

def Envelope.urgent : Envelope :=
  { Envelope.hello ⟨7⟩ with
    priority := "emergency"
    origin := some ⟨"rf:hub", []⟩
    attestations := [⟨"rf:hub", 0, []⟩]
    hops := 1 }

def Station.metered : Station :=
  ⟨{ Node.small .empty with
      d := { Daemon.small .empty with
        cfg := { Config.small with transportBudgets := [("b", 1)] } } }, []⟩

def urgentMoves : List StationMove :=
  StationMove.ask (.call (.envelope .none "rf:hub" .urgent "in")) ::
    List.replicate 12 (StationMove.act 0) ++
      StationMove.outside (Daemon.connectB 4) :: List.replicate 13 StationMove.pump

theorem remote_priority_normal_urgent :
    ∃ w w' r, Ledger.run (.clear "rf:a") urgentMoves (.opened .metered) = some w ∧
      Ledger.step (.clear "rf:a") .pump w = some w' ∧ w.remote 1 = true ∧
      w.station.node.d.store.row 1 = some r ∧ r.priority = 2 ∧
      w.station.node.d.placed 1 = 0 ∧ w'.station.node.d.placed 1 = 1 ∧ w.toll.passed = true := by
  obtain ⟨w, reached, w', step, r, found, remote, before, after⟩ :
      ∃ w, Ledger.run (.clear "rf:a") urgentMoves (.opened .metered) = some w ∧
        ∃ w', Ledger.step (.clear "rf:a") .pump w = some w' ∧
          ∃ r, w.station.node.d.store.row 1 = some r ∧ w.remote 1 = true ∧
            w.station.node.d.placed 1 = 0 ∧ w'.station.node.d.placed 1 = 1 := by
    decide +kernel
  obtain ⟨normal, passes⟩ := remote_priority_normal _ _ _ w ⟨⟨rfl, rfl⟩, rfl⟩ reached
  refine ⟨w, w', r, reached, step, remote, found, normal 1 r found remote, before, after, ?_⟩
  exact passes _ w' 1 step remote (by omega)

end RelayFabric
