/- layer: library
   digest: Capped maps whose entries expire. -/

import RelayFabric.Lib.Keyed

namespace RelayFabric.Lib

variable {κ ν : Type} [DecidableEq κ]

abbrev Entries (κ ν : Type) := Keyed (κ × ν) (Prod.fst : κ × ν → κ)

namespace Entries

def remove (t : Entries κ ν) (k : κ) : Entries κ ν := t.keep (fun e => e.1 ≠ k)

theorem mem_remove {t : Entries κ ν} {k : κ} {e : κ × ν} :
    e ∈ (t.remove k).rows ↔ e ∈ t.rows ∧ e.1 ≠ k := by
  simp [remove, Keyed.keep]

theorem get?_remove_self (t : Entries κ ν) (k : κ) : (t.remove k).get? k = none := by
  rw [Keyed.get?_eq_none]
  intro e member
  exact (mem_remove.mp member).2

theorem get?_remove_of_ne (t : Entries κ ν) {k other : κ} (apart : other ≠ k) :
    (t.remove k).get? other = t.get? other := by
  unfold remove
  rw [Keyed.get?_keep]
  cases found : t.get? other with
  | none => rfl
  | some e =>
    have named : e.1 = other := (t.get?_eq_some.mp found).2
    simpa [named] using apart

def insert (t : Entries κ ν) (k : κ) (v : ν) : Entries κ ν :=
  (t.remove k).append (k, v) (get?_remove_self t k)

theorem mem_insert {t : Entries κ ν} {k : κ} {v : ν} {e : κ × ν} :
    e ∈ (t.insert k v).rows ↔ e = (k, v) ∨ e ∈ t.rows ∧ e.1 ≠ k := by
  unfold insert Keyed.append
  rw [List.mem_append, List.mem_singleton, mem_remove, or_comm]

theorem get?_insert (t : Entries κ ν) (k : κ) (v : ν) (other : κ) :
    (t.insert k v).get? other = if other = k then some (k, v) else t.get? other := by
  unfold insert
  rw [Keyed.get?_append]
  split
  · rfl
  · rename_i apart
    exact get?_remove_of_ne t apart

def soonest (deadline : ν → Nat) (t : Entries κ ν) : List (κ × ν) :=
  t.rows.filter (fun e => t.rows.all (fun o => decide (deadline e.2 ≤ deadline o.2)))

/-- Drop one of the entries that expire first, while the map is full. Which of several the map
yields first is `pick`. -/
def evict (deadline : ν → Nat) (cap pick : Nat) : Nat → Entries κ ν → Entries κ ν
  | 0, t => t
  | rounds + 1, t =>
    if t.rows.length < cap then t
    else
      match (soonest deadline t)[pick % (soonest deadline t).length]? with
      | none => t
      | some oldest => evict deadline cap pick rounds (t.remove oldest.1)

theorem mem_of_mem_evict {deadline : ν → Nat} {cap pick rounds : Nat} {t : Entries κ ν}
    {e : κ × ν} (member : e ∈ (evict deadline cap pick rounds t).rows) : e ∈ t.rows := by
  induction rounds generalizing t with
  | zero => exact member
  | succ rounds ih =>
    unfold evict at member
    split at member
    · exact member
    · split at member
      · exact member
      · exact (mem_remove.mp (ih member)).1

def put (deadline : ν → Nat) (cap pick now : Nat) (t : Entries κ ν) (k : κ) (v : ν) :
    Entries κ ν :=
  (evict deadline cap pick t.rows.length (t.keep (fun e => decide (now < deadline e.2)))).insert k v

theorem mem_of_mem_put {deadline : ν → Nat} {cap pick now : Nat} {t : Entries κ ν} {k : κ}
    {v : ν} {e : κ × ν} (member : e ∈ (put deadline cap pick now t k v).rows) :
    e = (k, v) ∨ e ∈ t.rows ∧ e.1 ≠ k := by
  rcases mem_insert.mp member with new | ⟨old, other⟩
  · exact Or.inl new
  · exact Or.inr ⟨List.mem_of_mem_filter (mem_of_mem_evict old), other⟩

end Entries

end RelayFabric.Lib
