/- layer: library
   digest: Weighted events on a time line, and a bound for every window. -/

import Mathlib.Algebra.BigOperators.Group.List.Basic
import Mathlib.Algebra.Ring.Nat
import Mathlib.Data.List.Basic

namespace RelayFabric.Lib

abbrev Event := Int × Nat

def weight (select : Int → Bool) (events : List Event) : Nat :=
  ((events.filter (fun e => select e.1)).map Prod.snd).sum

def within (start width t : Int) : Bool := decide (start ≤ t ∧ t < start + width)

def recent (now width t : Int) : Bool := decide (now - t < width)

theorem weight_append (select : Int → Bool) (events : List Event) (t : Int) (w : Nat) :
    weight select (events ++ [(t, w)]) = weight select events + if select t then w else 0 := by
  unfold weight
  cases chosen : select t <;> simp [chosen]

theorem weight_cons (select : Int → Bool) (e : Event) (rest : List Event) :
    weight select (e :: rest) = (if select e.1 then e.2 else 0) + weight select rest := by
  unfold weight
  cases chosen : select e.1 <;> simp [chosen]

theorem weight_mono {select select' : Int → Bool} {events : List Event}
    (weaker : ∀ e ∈ events, select e.1 = true → select' e.1 = true) :
    weight select events ≤ weight select' events := by
  induction events with
  | nil => exact Nat.le_refl _
  | cons e rest ih =>
    have tail := ih (fun e' member => weaker e' (List.mem_cons_of_mem _ member))
    have head := weaker e List.mem_cons_self
    rw [weight_cons, weight_cons]
    cases chosen : select e.1 with
    | false =>
      simp only [Bool.false_eq_true, if_false]
      omega
    | true =>
      rw [head chosen]
      omega

/-- Sliding windows. If every window holds at most `bound`, and what is recent at `now` leaves room
for one more event, then every window holds at most `bound` after that event. -/
theorem window_append {width now : Int} {bound w : Nat} {events : List Event}
    (holds : ∀ start, weight (within start width) events ≤ bound)
    (room : weight (recent now width) events + w ≤ bound) (start : Int) :
    weight (within start width) (events ++ [(now, w)]) ≤ bound := by
  rw [weight_append]
  split
  · rename_i inside
    have reach : start ≤ now ∧ now < start + width := of_decide_eq_true inside
    -- an event of a window that reaches `now` is still recent there
    have fewer : weight (within start width) events ≤ weight (recent now width) events := by
      refine weight_mono (fun e _ chosen => ?_)
      have here : start ≤ e.1 ∧ e.1 < start + width := of_decide_eq_true chosen
      refine decide_eq_true ?_
      omega
    omega
  · exact holds start

end RelayFabric.Lib
