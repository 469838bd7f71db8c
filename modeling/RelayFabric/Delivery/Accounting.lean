/- source: engine.rs (process_due, handle_result), storage.rs
   digest: What an attempt count stands for: the frames a channel has taken for the row. -/

import RelayFabric.Delivery.Node

namespace RelayFabric

open Lib Function

namespace Node

/-- The frames that channels took for a row since its insertion or last requeue. -/
def paid (σ : Node) (n : Nat) : Nat := σ.d.placed n - σ.base n

def spent (σ : Node) (n : Nat) : Bool :=
  (σ.d.store.row n).any (fun r => decide (maxAttempts ≤ r.attemptCount))

def handing (σ : Node) : Option Nat := σ.pump.label?.bind Section.handover

def inRound (σ : Node) : Bool :=
  match σ.pump with
  | .idle | .purging _ => false
  | .starting _ | .round _ _ _ => true

/-- No step comes between a counted attempt and its frame: the channel of every handover has
room, the process does not end before a handover, and a row without attempts left is neither
failed by its plugin before its last handover nor requeued within a round. -/
def orderly (σ : Node) : Move → Bool
  | .pump => σ.pump.label?.all (fun l => l.hasRoom σ.d)
  | .call i =>
    match (σ.calls[i]?).bind Prog.label? with
    | some (.requeue n) => !(σ.spent n && σ.inRound)
    | some (.result n) => !(σ.spent n && σ.handing == some n)
    | _ => true
  | .restart => σ.handing.isNone
  | .purge | .spawn _ | .outside _ => true

/-- Every attempt on a row's account was paid for with a frame, but for one whose frame is being
handed over; and a row was given up for want of attempts only after eight frames. -/
structure Accounted (σ : Node) : Prop where
  used : ∀ n r, σ.d.store.row n = some r → σ.handing ≠ some n → r.attemptCount ≤ σ.paid n
  exhausted : ∀ n r, σ.d.store.row n = some r → r.state = .deadLetter →
    r.reason = some .retryExhausted → maxAttempts ≤ σ.paid n

end Node

def View.handing (v : View) : Option Nat :=
  if v.phase = .sending then v.held.head?.map Delivery.id else none

structure Books (v : View) (σ : Node) : Prop where
  opened : ∀ n, σ.base n ≤ σ.d.placed n
  used : ∀ n r, σ.d.store.row n = some r →
    r.attemptCount ≤ σ.paid n + if v.handing = some n then 1 else 0
  exhausted : ∀ n r, σ.d.store.row n = some r → r.state = .deadLetter →
    r.reason = some .retryExhausted → maxAttempts ≤ σ.paid n
  known : ∀ del ∈ v.held, del.id < σ.d.store.deliveries.next
  copies : ∀ del ∈ v.held, maxAttempts ≤ del.attemptCount →
    ∀ r, σ.d.store.row del.id = some r → maxAttempts ≤ r.attemptCount ∧ maxAttempts ≤ σ.paid del.id

section Books

variable {σ σ' : Node} {v v' : View}

variable {n : Nat} {l : Section} {r del : Delivery}

theorem Node.Inv.handing (inv : σ.Inv anyFrame anyDaemon v) (due : v.handing = some n) :
    σ.handing = some n := by
  have sending : v.phase = .sending := by
    by_contra other
    simp [View.handing, other] at due
  have held := inv.pump
  unfold Node.handing
  match σ.pump, held with
  | .idle, view => simp [show v = .idle from view] at sending
  | .starting p, ⟨start, _, view, _⟩ =>
    rw [view] at sending
    cases start <;> cases sending
  | .round now none batch, ⟨view, _⟩ => simp [view] at sending
  | .purging p, ⟨_, view, _⟩ => simp [view] at sending
  | .round now (some (del, .ret _)) batch, ⟨_, _, _, _, follows, _⟩ =>
    have through := Prog.follows_ret follows
    rw [sending] at through
    exact absurd through (by simp)
  | .round now (some (del, .act l effect next)) batch, ⟨whole, _, _, _, follows, _⟩ =>
    obtain ⟨q', does, _⟩ := @Prog.follows_act _ _ _ _ _ _ _ _ _ _ _ follows σ.d trivial
    rw [sending] at does
    have same : del.id = n := by simpa [View.handing, sending, whole] using due
    rw [← same]
    exact does.handover

theorem QuietMove.origin {before after : Option Delivery} (move : QuietMove before after)
    {r' : Delivery} (found : after = some r') :
    ∃ r, before = some r ∧ r.attemptCount = r'.attemptCount ∧
      (r'.state = .deadLetter → r = r') := by
  cases move with
  | keep => exact ⟨r', found, rfl, fun _ => rfl⟩
  | delete r finished => exact absurd found (by simp)
  | reclaim r sent | retry r t next live =>
    cases found
    exact ⟨r, rfl, rfl, by simp⟩

theorem Books.carry_rows (books : Books v σ) (placed : σ'.d.placed = σ.d.placed)
    (base : σ'.base = σ.base) (next : σ.d.store.deliveries.next ≤ σ'.d.store.deliveries.next)
    (origin : ∀ n r', σ'.d.store.row n = some r' → ∃ r, σ.d.store.row n = some r ∧
      r.attemptCount = r'.attemptCount ∧ (r'.state = .deadLetter →
        r'.reason = some .retryExhausted → r = r' ∨ maxAttempts ≤ σ.paid n))
    (handing : v'.handing = v.handing) (held : ∀ del ∈ v'.held, del ∈ v.held) : Books v' σ' := by
  have paid (n : Nat) : σ'.paid n = σ.paid n := by
    unfold Node.paid
    rw [placed, base]
  refine ⟨fun n => ?_, fun n r' found => ?_, fun n r' found dead because => ?_,
    fun del member => ?_, fun del member spent r' found => ?_⟩
  · rw [placed, base]
    exact books.opened n
  · obtain ⟨r, before, count, _⟩ := origin n r' found
    rw [paid, handing, ← count]
    exact books.used n r before
  · obtain ⟨r, before, _, given⟩ := origin n r' found
    rw [paid]
    rcases given dead because with rfl | covered
    · exact books.exhausted n r before dead because
    · exact covered
  · exact (books.known del (held del member)).trans_le next
  · obtain ⟨r, before, count, _⟩ := origin del.id r' found
    rw [paid, ← count]
    exact books.copies del (held del member) spent r before

theorem Books.carry (books : Books v σ) (placed : σ'.d.placed = σ.d.placed)
    (base : σ'.base = σ.base) (next : σ.d.store.deliveries.next ≤ σ'.d.store.deliveries.next)
    (moves : ∀ n, QuietMove (σ.d.store.row n) (σ'.d.store.row n)) (handing : v'.handing = v.handing)
    (held : ∀ del ∈ v'.held, del ∈ v.held) : Books v' σ' := by
  refine books.carry_rows placed base next (fun n r' found => ?_) handing held
  obtain ⟨r, before, count, same⟩ := (moves n).origin found
  exact ⟨r, before, count, fun dead _ => .inl (same dead)⟩

theorem Books.hold {time : Option Int} (books : Books ⟨.done, [], time⟩ σ) {due : List Delivery}
    (taken : ∀ del ∈ due, σ.d.store.row del.id = some del) : Books ⟨.done, due, time⟩ σ := by
  refine { books with known := fun del member => ?_, copies := fun del member spent r found => ?_ }
  · exact Table.lt_next_of_get? _ (taken del member)
  · have same := taken del member
    have covered := books.used del.id del same
    rw [same] at found
    cases found
    have none_due : (View.mk .done [] time).handing = none := rfl
    rw [none_due] at covered
    exact ⟨spent, spent.trans covered⟩

theorem rebase_le {d : Daemon} {base : Nat → Nat} (opened : base n ≤ d.placed n) :
    rebase l d base n ≤ d.placed n := by
  unfold rebase
  split
  · exact le_rfl
  · split_ifs
    · exact le_rfl
    · exact opened

theorem rebase_eq {d : Daemon} {base : Nat → Nat} (found : d.store.row n = some r)
    (other : l = .requeue n → r.state.requeueable = false) :
    rebase l d base n = base n := by
  unfold rebase
  rw [found]
  refine if_neg (fun both => ?_)
  simp [other both.1] at both

private theorem not_requeueable_of_live (live : r.state.live = true) :
    r.state.requeueable = false := by
  revert live
  cases r.state <;> simp [DeliveryState.live, DeliveryState.requeueable]

theorem CallMove.origin {utc : Int} {s : Store} {before after : Option Delivery}
    (move : CallMove utc l s n before after) {r' : Delivery}
    (found : after = some r') :
    (r'.attemptCount = 0 ∧ r'.reason ≠ some .retryExhausted ∧
      (s.deliveries.next ≤ n ∨ (l = .requeue n ∧ ∃ r, before = some r))) ∨
    ∃ r, before = some r ∧ r.attemptCount = r'.attemptCount ∧
      (l = .requeue n → r.state.requeueable = false) ∧
      (r'.state = .deadLetter → r = r' ∨ (maxAttempts ≤ r.attemptCount ∧ l = .result n)) := by
  have kept (r : Delivery) (live : r.state.live = true) :
      l = .requeue n → r.state.requeueable = false := fun _ => not_requeueable_of_live live
  cases move with
  | keep _ unasked =>
    exact .inr ⟨r', found, rfl, fun asked => unasked asked r' found, fun _ => .inl rfl⟩
  | insert r fresh unsent born other =>
    cases found
    exact .inl ⟨unsent, other, .inl fresh⟩
  | delete r finished => exact absurd found (by simp)
  | deliver r sent =>
    cases found
    exact .inr ⟨r, rfl, rfl, kept r (by rw [sent]; rfl), by simp⟩
  | retry r next live later =>
    cases found
    exact .inr ⟨r, rfl, rfl, kept r live, by simp⟩
  | exhaust r live spent label =>
    cases found
    exact .inr ⟨r, rfl, rfl, kept r live, fun _ => .inr ⟨spent, label⟩⟩
  | requeue r label permits =>
    cases found
    exact .inl ⟨rfl, by simp [requeued], .inr ⟨label, r, rfl⟩⟩

theorem Node.Inv.inRound (inv : σ.Inv anyFrame anyDaemon v) (member : del ∈ v.held) :
    σ.inRound = true := by
  have held := inv.pump
  unfold Node.inRound
  match σ.pump, held with
  | .idle, view => simp [show v = .idle from view] at member
  | .purging p, ⟨_, view, _⟩ => simp [view] at member
  | .starting p, _ => rfl
  | .round now current batch, _ => rfl

private theorem spent_of_row (found : σ.d.store.row n = some r)
    (left : maxAttempts ≤ r.attemptCount) : σ.spent n = true := by
  simp [Node.spent, found, left]

section

variable (books : Books v σ)
include books

theorem Books.call (inv : σ.Inv anyFrame anyDaemon v) {i : Nat}
    {effect : Daemon → Daemon} {next : Daemon → Engine Unit}
    (running : σ.calls[i]? = some (.act l effect next)) (does : CallSection l σ.d (effect σ.d))
    (orderly : σ.orderly (.call i) = true) :
    Books v { σ with d := effect σ.d, calls := σ.calls.set i (next σ.d)
                     base := rebase l σ.d σ.base } := by
  have label : (σ.calls[i]?).bind Prog.label? = some l := by
    rw [running]
    rfl
  have requeues (n : Nat) (asked : l = .requeue n) : ¬(σ.spent n = true ∧ σ.inRound = true) := by
    intro both
    simp [Node.orderly, label, asked, both.1, both.2] at orderly
  have results (n : Nat) (answer : l = .result n) (spent : σ.spent n = true) :
      σ.handing ≠ some n := by
    simpa [Node.orderly, label, answer, spent] using orderly
  have placed : (effect σ.d).placed = σ.d.placed := does.2.placed
  -- the account of a row that stays open
  have paid {n : Nat} {r : Delivery} (found : σ.d.store.row n = some r)
      (other : l = .requeue n → r.state.requeueable = false) :
      (effect σ.d).placed n - rebase l σ.d σ.base n = σ.paid n := by
    rw [placed, rebase_eq found other]
    rfl
  refine ⟨fun n => ?_, fun n r' found => ?_, fun n r' found dead because => ?_,
    fun del member => ?_, fun del member spent r' found => ?_⟩
  · change rebase l σ.d σ.base n ≤ (effect σ.d).placed n
    rw [placed]
    exact rebase_le (books.opened n)
  · rcases (does.1.row_move n).origin found with ⟨unsent, _, _⟩ | ⟨r, before, count, other, _⟩
    · omega
    · unfold Node.paid
      rw [paid before other, ← count]
      exact books.used n r before
  · rcases (does.1.row_move n).origin found with ⟨_, reason, _⟩ | ⟨r, before, _, other, given⟩
    · exact absurd because reason
    · unfold Node.paid
      rw [paid before other]
      rcases given dead with rfl | ⟨left, answer⟩
      · exact books.exhausted n r before dead because
      · -- a failed last attempt: its frame has gone out
        have gone : v.handing ≠ some n :=
          fun due => results n answer (spent_of_row before left) (inv.handing due)
        have covered := books.used n r before
        rw [if_neg gone] at covered
        omega
  · exact (books.known del member).trans_le does.1.next_le
  · have born := books.known del member
    rcases (does.1.row_move del.id).origin found with ⟨_, _, new | ⟨asked, r, before⟩⟩ |
      ⟨r, before, count, other, _⟩
    · omega
    · have left := (books.copies del member spent r before).1
      exact absurd ⟨spent_of_row before left, inv.inRound member⟩ (requeues _ asked)
    · unfold Node.paid
      rw [paid before other, ← count]
      exact books.copies del member spent r before

theorem Books.place (due : v.handing = some del.id)
    (idle : v'.handing = none) (held : v'.held = v.held) (store : σ'.d.store = σ.d.store)
    (base : σ'.base = σ.base) (placed : σ'.d.placed = (σ.d.countPlaced del.id).placed) :
    Books v' σ' := by
  have paid (n : Nat) : σ'.paid n = σ.paid n + if del.id = n then 1 else 0 := by
    have opened := books.opened n
    unfold Node.paid
    rw [placed, base]
    by_cases same : del.id = n
    · subst same
      simp only [Daemon.countPlaced, update_self, if_true]
      omega
    · simp [Daemon.countPlaced, update_of_ne (Ne.symm same), same]
  have more (n : Nat) : σ.paid n ≤ σ'.paid n := by
    rw [paid]
    exact Nat.le_add_right _ _
  refine ⟨fun n => ?_, fun n r found => ?_, fun n r found dead because => ?_,
    fun other member => ?_, fun other member spent r found => ?_⟩
  · have opened := books.opened n
    rw [placed, base]
    by_cases same : n = del.id
    · subst same
      simp only [Daemon.countPlaced, update_self]
      omega
    · simpa [Daemon.countPlaced, update_of_ne same] using opened
  · rw [store] at found
    have covered := books.used n r found
    rw [due] at covered
    rw [paid, idle]
    simpa using covered
  · rw [store] at found
    exact (books.exhausted n r found dead because).trans (more n)
  · rw [store]
    exact books.known other (held ▸ member)
  · rw [store] at found
    obtain ⟨left, covered⟩ := books.copies other (held ▸ member) spent r found
    exact ⟨left, covered.trans (more _)⟩

theorem Books.count (idle : v.handing = none)
    (due : v'.handing = some del.id) (held : v'.held = v.held) (t : Int)
    (current : Current del σ.d.store) (left : del.attemptCount < maxAttempts)
    (store : σ'.d.store = σ.d.store.markAttempting t del.id) (base : σ'.base = σ.base)
    (placed : σ'.d.placed = σ.d.placed) : Books v' σ' := by
  obtain ⟨r, found, waiting, count⟩ := current left
  have paid (n : Nat) : σ'.paid n = σ.paid n := by
    unfold Node.paid
    rw [placed, base]
  have here : σ'.d.store.row del.id = some { r with
      state := .attempting, attemptCount := r.attemptCount + 1, attemptedAt := some t
      updatedAt := t } := by
    rw [store, Store.markAttempting, Store.row_updateDelivery, if_pos rfl, found]
    rfl
  have other {n : Nat} (different : n ≠ del.id) : σ'.d.store.row n = σ.d.store.row n := by
    rw [store]
    exact Store.row_updateDelivery_ne _ _ _ _ _ different
  refine ⟨fun n => ?_, fun n r' after => ?_, fun n r' after dead because => ?_,
    fun copy listed => ?_, fun copy listed spent r' after => ?_⟩
  · rw [placed, base]
    exact books.opened n
  · by_cases same : n = del.id
    · subst same
      have covered := books.used _ r found
      rw [idle] at covered
      rw [here] at after
      cases after
      rw [paid, due]
      simpa using covered
    · rw [other same] at after
      have covered := books.used n r' after
      rw [idle] at covered
      rw [paid]
      exact covered.trans (by simp)
  · by_cases same : n = del.id
    · subst same
      rw [here] at after
      cases after
      exact absurd dead (by simp)
    · rw [other same] at after
      rw [paid]
      exact books.exhausted n r' after dead because
  · rw [store]
    exact books.known copy (held ▸ listed)
  · by_cases same : copy.id = del.id
    · have stale := (books.copies copy (held ▸ listed) spent r (same ▸ found)).1
      omega
    · rw [other same] at after
      rw [paid]
      exact books.copies copy (held ▸ listed) spent r' after

theorem Books.attempt {now : Int} {q' : Phase} {d' : Daemon} {pump : Pump}
    (held : v.held.head? = some del) (label : σ.pump.label? = some l)
    (current : v.phase.deciding = true → Current del σ.d.store)
    (does : EgressStep (anyFrame del) del now v.phase l σ.d d' q')
    (orderly : σ.orderly .pump = true) :
    Books { v with phase := q' } { σ with d := d', pump := pump } := by
  obtain ⟨phase, copies, time⟩ := v
  have member : del ∈ copies := List.mem_of_head? held
  have idle {q : Phase} (other : q ≠ .sending) : (View.mk q copies time).handing = none :=
    if_neg other
  have same {q : Phase} (clear : q.clear = true) : q ≠ .sending := by
    rintro rfl
    exact absurd clear (by decide)
  cases does with
  | look _ _ _ _ clear store budget wires =>
    refine books.carry wires.placed rfl (by rw [store]) (fun n => ?_) rfl (fun _ listed => listed)
    rw [store]
    exact .keep _
  | away | hold | charge =>
    refine books.carry rfl rfl le_rfl (fun n => .keep _) ?_ (fun _ listed => listed)
    rw [idle (by decide), idle (by decide)]
  | postpone _ _ blocked next later =>
    refine books.carry rfl rfl le_rfl (fun n => ?_) ?_ (fun _ listed => listed)
    · exact Store.move_updateDelivery .keep _ _ _ _ _ (fun r _ live => .retry r _ next live) n
    · rw [idle (by decide), idle (by rcases blocked with rfl | rfl <;> decide)]
  | requeue =>
    refine books.carry rfl rfl le_rfl (fun n => ?_) ?_ (fun _ listed => listed)
    · exact Store.move_updateDelivery .keep _ _ _ _ _ (fun r _ live => .retry r _ _ live) n
    · rw [idle (by decide), idle (by decide)]
  | refuse _ _ row shut =>
    simp [Node.orderly, label, shut] at orderly
  | terminate _ _ clear state reason finished unsent spent =>
    refine books.carry_rows rfl rfl le_rfl (fun n r' found => ?_) ?_ (fun _ listed => listed)
    · refine Store.move_updateDelivery_at (M := fun before after => ∀ r', after = some r' →
        ∃ r, before = some r ∧ r.attemptCount = r'.attemptCount ∧ (r'.state = .deadLetter →
          r'.reason = some .retryExhausted → r = r' ∨ maxAttempts ≤ σ.paid n)) ?_ _ _ _ _ _ ?_ r'
        found
      · exact fun o r' found => ⟨r', found, rfl, fun _ _ => .inl rfl⟩
      · rintro rfl r before live r' changed
        cases changed
        refine ⟨r, rfl, rfl, fun _ because => .inr ?_⟩
        have left := spent (Option.some.inj because)
        exact (books.copies del member left r before).2
    · rw [idle (by decide), idle (same clear)]
  | attempt _ _ clear left =>
    have due : (View.mk .sending copies time).handing = some del.id := by simp [View.handing, held]
    exact books.count (idle (same clear)) due rfl _ (current (Phase.deciding_of_clear clear)) left
      rfl rfl rfl
  | placePlugin tx c =>
    have due : (View.mk .sending copies time).handing = some del.id := by simp [View.handing, held]
    exact books.place due (idle (by decide)) rfl rfl rfl rfl
  | placeFed tx c c' frame is found took =>
    have due : (View.mk .sending copies time).handing = some del.id := by simp [View.handing, held]
    exact books.place due (idle (by decide)) rfl rfl rfl rfl

theorem Books.step (inv : σ.Inv anyFrame anyDaemon v) {a : Move}
    (effect : NodeEffect anyFrame anyDaemon σ v a σ' v') (orderly : σ.orderly a = true) :
    Books v' σ' := by
  cases effect with
  | quiet _ _ _ store placed base inner view time =>
    have rows (n : Nat) : QuietMove (σ.d.store.row n) (σ'.d.store.row n) := by
      rw [store]
      exact .keep _
    rcases view with rfl | ⟨before, after, held⟩
    · exact books.carry placed base (by rw [store]) rows rfl (fun _ listed => listed)
    · refine books.carry placed base (by rw [store]) rows ?_ held
      unfold View.handing
      rw [if_neg before, if_neg after]
  | call i l effect next running does => exact books.call inv running does orderly
  | snapshot now pump idle =>
    subst idle
    refine Books.hold ?_ (fun del member => (dueDeliveries_subset member).1)
    exact books.carry rfl rfl le_rfl (fun n => reclaimStale_move _ _ n) rfl
      (fun _ listed => listed)
  | attempt now del q' l d' pump held time label current does =>
    exact books.attempt held label current does orderly
  | sweep now l d' pump idle does =>
    exact books.carry does.2.placed rfl does.1.next_eq.ge (fun n => does.1.row_move n) rfl
      (fun _ listed => listed)
  | restart =>
    have none_due : v.handing = none := by
      cases due : v.handing with
      | none => rfl
      | some n => simp [Node.orderly, inv.handing due] at orderly
    exact books.carry rfl rfl le_rfl (fun n => recover_move _ n) none_due.symm (by simp)

end

theorem NodeEffect.capped {a : Move} (effect : NodeEffect anyFrame anyDaemon σ v a σ' v')
    (capped : ∀ n r, σ.d.store.row n = some r → r.attemptCount ≤ maxAttempts) :
    ∀ n r, σ'.d.store.row n = some r → r.attemptCount ≤ maxAttempts := by
  intro n r' found
  rcases effect.row_move n with move | ⟨_, _, _, _, _, _, _, _, move⟩
  · rw [found] at move
    generalize before : σ.d.store.row n = o at move
    cases move with
    | quiet move =>
      obtain ⟨r, rfl, count, _⟩ := move.origin rfl
      rw [← count]
      exact capped n r before
    | terminate r t state reason live finished unsent => exact capped n r before
    | attempt r t waiting left => exact left
  · rcases move.origin found with ⟨unsent, _⟩ | ⟨r, before, count, _⟩
    · omega
    · rw [← count]
      exact capped n r before

end Books

theorem Node.run_capped {K : Crypto} {moves : List Move} {σ₀ σ : Node} (fresh : σ₀.Fresh)
    (start : ∀ n r, σ₀.d.store.row n = some r → r.attemptCount ≤ maxAttempts)
    (reached : Node.run K moves σ₀ = some σ) :
    ∀ n r, σ.d.store.row n = some r → r.attemptCount ≤ maxAttempts := by
  refine (runAll_invariant (fun σ => (∃ v, σ.Inv anyFrame anyDaemon v) ∧
    ∀ n r, σ.d.store.row n = some r → r.attemptCount ≤ maxAttempts) (fun a s s' step given => ?_)
    reached ⟨⟨_, fresh.inv⟩, start⟩).2
  obtain ⟨⟨v, inv⟩, capped⟩ := given
  obtain ⟨v', effect, inv'⟩ := Node.step_any step inv
  exact ⟨⟨v', inv'⟩, effect.capped capped⟩

/-- Attempt accounting: no attempt count passes eight; and in orderly runs every counted attempt is
one frame placed, and a row is given up only after eight of them. -/
theorem attempts_accounted (K : Crypto) (moves : List Move) (σ₀ σ : Node) (fresh : σ₀.Fresh)
    (empty : ∀ n, σ₀.d.store.row n = none) (opened : ∀ n, σ₀.base n = σ₀.d.placed n)
    (reached : Node.run K moves σ₀ = some σ) :
    (∀ n r, σ.d.store.row n = some r → r.attemptCount ≤ maxAttempts) ∧
      (Meets (Node.step K) (fun a σ => σ.orderly a = true) moves σ₀ → σ.Accounted) := by
  refine ⟨Node.run_capped fresh (by simp [empty]) reached, fun met => ?_⟩
  have start : Books .idle σ₀ :=
    ⟨fun n => (opened n).le, by simp [empty], by simp [empty], by simp, by simp⟩
  obtain ⟨v, inv, books⟩ := runAll_preserves
    (fun σ => ∃ v, σ.Inv anyFrame anyDaemon v ∧ Books v σ) (fun a s s' orderly step given => by
      obtain ⟨v, inv, books⟩ := given
      obtain ⟨v', effect, inv'⟩ := Node.step_any step inv
      exact ⟨v', inv', books.step inv effect orderly⟩) moves σ₀ σ met reached ⟨_, fresh.inv, start⟩
  refine ⟨fun n r found idle => ?_, books.exhausted⟩
  have covered := books.used n r found
  rwa [if_neg (fun due => idle (inv.handing due))] at covered

def helloMoves : List Move :=
  .spawn (.inbound .none ⟨⟨1⟩, ⟨2⟩, ⟨3⟩⟩ "x" "lobby" "ann" "text" "hello" none [] none) ::
    List.replicate 7 (.call 0)

def roomyMoves : List Move :=
  Move.outside (Daemon.connectB 256) :: helloMoves ++ List.replicate 15 Move.pump

theorem attempts_accounted_roomy :
    ∃ σ, Node.run (.clear "rf:a") roomyMoves (.small .empty) = some σ ∧
      Meets (Node.step (.clear "rf:a")) (fun a σ => σ.orderly a = true) roomyMoves (.small .empty) ∧
      (σ.d.store.row 1).map Delivery.attemptCount = some 1 ∧ σ.paid 1 = 1 ∧ σ.Accounted := by
  obtain ⟨σ, reached, attempts, paid⟩ :
      ∃ σ, Node.run (.clear "rf:a") roomyMoves (.small .empty) = some σ ∧
        (σ.d.store.row 1).map Delivery.attemptCount = some 1 ∧ σ.paid 1 = 1 := by
    decide +kernel
  have met : Meets (Node.step (.clear "rf:a")) (fun a σ => σ.orderly a = true) roomyMoves
      (.small .empty) := by
    decide +kernel
  exact ⟨σ, reached, met, attempts, paid,
    (attempts_accounted _ _ _ σ ⟨rfl, rfl⟩ (fun _ => rfl) (fun _ => rfl) reached).2 met⟩

def Daemon.stallB (d : Daemon) : Daemon :=
  { d with plugins := d.plugins.insert "b" ⟨7, ⟨true, false, none⟩, true⟩
           pluginChannels := d.pluginChannels.insert 7
             ⟨List.replicate 256 (.send 0 "room" "text" "" []), 256, false⟩ }

def stalledMoves : List Move :=
  Move.outside Daemon.stallB :: helloMoves ++
    (List.replicate 8
    (List.replicate 17 Move.pump ++ [Move.outside (Daemon.later (seconds 5))])).flatten ++
      List.replicate 7 Move.pump

/-- Backpressure alone gives a row up: eight attempts are counted and no frame was placed. -/
theorem stalled_channel_exhausts :
    ∃ σ r, Node.run (.clear "rf:a") stalledMoves (.small .empty) = some σ ∧
      σ.d.store.row 1 = some r ∧ r.state = .deadLetter ∧ r.reason = some .retryExhausted ∧
      σ.paid 1 = 0 := by
  simp only [exists_and_left]
  decide +kernel

end RelayFabric
