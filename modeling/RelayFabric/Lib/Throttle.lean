/- layer: library
   digest: At most one use of a key in each interval. -/

import RelayFabric.Lib.Expiring
import Mathlib.Tactic.Tauto

namespace RelayFabric.Lib.Throttle

variable {κ : Type}

def age (now t : Int) : Int := max (now - t) 0

theorem age_mono {now later : Int} (t : Int) (passed : now ≤ later) : age now t ≤ age later t := by
  unfold age
  omega

def young (interval now : Int) (stamps : Entries κ Int) : Entries κ Int :=
  stamps.keep (fun e => decide (age now e.2 < interval))

theorem mem_young {interval now : Int} {stamps : Entries κ Int} {e : κ × Int} :
    e ∈ (young interval now stamps).rows ↔ e ∈ stamps.rows ∧ age now e.2 < interval := by
  simp [young, Keyed.keep]

def Tracks (interval now : Int) (k : κ) (won : List Int) (stamps : Entries κ Int) : Prop :=
  ∀ t, age now t < interval → ((k, t) ∈ stamps.rows ↔ t ∈ won)

theorem tracks_empty {interval now : Int} {k : κ} :
    Tracks interval now k [] (Keyed.empty : Entries κ Int) :=
  fun _ _ => by simp [Keyed.empty]

theorem Tracks.wait {interval now later : Int} {k : κ} {won : List Int} {stamps : Entries κ Int}
    (tracks : Tracks interval now k won stamps) (passed : now ≤ later) :
    Tracks interval later k won stamps :=
  fun t fresh => tracks t (Int.lt_of_le_of_lt (age_mono t passed) fresh)

variable [DecidableEq κ]

/-- One use of a key. Old stamps are dropped; the use wins, and is stamped, unless the key still has
a stamp. -/
def use (interval now : Int) (stamps : Entries κ Int) (k : κ) : Bool × Entries κ Int :=
  let kept := young interval now stamps
  let due := (kept.get? k).elim true (fun e => decide (interval ≤ age now e.2))
  (due, if due then kept.insert k now else kept)

variable {interval now : Int} {stamps : Entries κ Int} {k : κ}

theorem use_due_iff :
    (use interval now stamps k).1 = true ↔ ∀ t, (k, t) ∈ stamps.rows → interval ≤ age now t := by
  unfold use
  dsimp only
  cases found : (young interval now stamps).get? k with
  | none =>
    refine iff_of_true rfl (fun t member => ?_)
    by_contra fresh
    have kept := mem_young.mpr ⟨member, Int.not_le.mp fresh⟩
    exact (Keyed.get?_eq_none _).mp found (k, t) kept rfl
  | some e =>
    obtain ⟨kept, named⟩ := (Keyed.get?_eq_some _).mp found
    obtain ⟨member, fresh⟩ := mem_young.mp kept
    have here : (k, e.2) ∈ stamps.rows := named ▸ member
    refine iff_of_false ?_ (fun old => absurd (old e.2 here) (Int.not_le.mpr fresh))
    simpa using fresh

theorem mem_use {e : κ × Int} :
    e ∈ (use interval now stamps k).2.rows ↔
      (use interval now stamps k).1 = true ∧ e = (k, now) ∨
        e ∈ stamps.rows ∧ age now e.2 < interval := by
  have rows : (use interval now stamps k).2 =
      if (use interval now stamps k).1 then (young interval now stamps).insert k now
      else young interval now stamps := rfl
  rw [rows]
  by_cases due : (use interval now stamps k).1 = true
  · rw [if_pos due, Entries.mem_insert, mem_young]
    have apart : e ∈ stamps.rows ∧ age now e.2 < interval → e.1 ≠ k := by
      rintro ⟨member, fresh⟩ rfl
      exact absurd (use_due_iff.mp due e.2 member) (Int.not_le.mpr fresh)
    constructor
    · rintro (new | ⟨old, -⟩)
      · exact Or.inl ⟨due, new⟩
      · exact Or.inr old
    · rintro (⟨-, new⟩ | old)
      · exact Or.inl new
      · exact Or.inr ⟨old, apart old⟩
  · rw [if_neg due, mem_young]
    simp [due]

theorem young_of_mem_use (positive : 0 < interval) {e : κ × Int}
    (member : e ∈ (use interval now stamps k).2.rows) : age now e.2 < interval := by
  rcases mem_use.mp member with ⟨-, rfl⟩ | ⟨-, fresh⟩
  · simpa [age] using positive
  · exact fresh

variable {won : List Int}

section

variable (tracks : Tracks interval now k won stamps)
include tracks

theorem Tracks.due_iff :
    (use interval now stamps k).1 = true ↔ ∀ t ∈ won, interval ≤ age now t := by
  rw [use_due_iff]
  constructor
  · intro old t member
    by_contra fresh
    exact fresh (old t ((tracks t (Int.not_le.mp fresh)).mpr member))
  · intro old t member
    by_contra fresh
    exact fresh (old t ((tracks t (Int.not_le.mp fresh)).mp member))

theorem Tracks.use_self :
    Tracks interval now k (if (use interval now stamps k).1 then won ++ [now] else won)
      (use interval now stamps k).2 := by
  intro t fresh
  rw [mem_use, Prod.mk.injEq]
  split
  · rename_i due
    rw [List.mem_append, List.mem_singleton, ← tracks t fresh]
    tauto
  · rename_i refused
    rw [← tracks t fresh]
    tauto

theorem Tracks.use_other {other : κ} (apart : k ≠ other) :
    Tracks interval now k won (use interval now stamps other).2 := by
  intro t fresh
  rw [mem_use, ← tracks t fresh, Prod.mk.injEq]
  tauto

end

end RelayFabric.Lib.Throttle
