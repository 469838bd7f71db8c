/- layer: library
   digest: Auto-increment tables that carry their key discipline, and finite maps as lookups. -/

import Mathlib.Data.List.Nodup
import Mathlib.Data.List.Perm.Subperm
import Mathlib.Logic.Function.Basic

namespace RelayFabric.Lib

open List Function

universe u v

structure Table (α : Type u) (key : α → Nat) where
  rows : List α
  next : Nat
  below : ∀ row ∈ rows, key row < next
  distinct : (rows.map key).Nodup

namespace Table

variable {α : Type u} {key : α → Nat}

def empty : Table α key := ⟨[], 1, by simp, by simp⟩

def get? (t : Table α key) (n : Nat) : Option α := t.rows.find? (fun row => key row == n)

def insert (t : Table α key) (make : Nat → α)
    (keyed : ∀ n, key (make n) = n := by intros; rfl) : Table α key where
  rows := t.rows ++ [make t.next]
  next := t.next + 1
  below := by
    intro row member
    rcases mem_append.mp member with old | new
    · exact Nat.lt_succ_of_lt (t.below row old)
    · rw [mem_singleton.mp new, keyed]
      exact Nat.lt_succ_self _
  distinct := by
    rw [map_append, nodup_append]
    refine ⟨t.distinct, by simp, ?_⟩
    intro a old b new
    obtain ⟨row, member, rfl⟩ := mem_map.mp old
    have fresh : b = t.next := by simpa [keyed] using new
    have bound := t.below row member
    omega

def update (t : Table α key) (select : α → Bool) (change : α → α)
    (keyed : ∀ row, key (change row) = key row := by intros; rfl) : Table α key where
  rows := t.rows.map (fun row => if select row then change row else row)
  next := t.next
  below := by
    intro row member
    obtain ⟨old, present, rfl⟩ := mem_map.mp member
    have bound := t.below old present
    split <;> simpa [keyed] using bound
  distinct := by
    have same : (t.rows.map (fun row => if select row then change row else row)).map key =
        t.rows.map key := by
      rw [map_map]
      refine map_congr_left ?_
      intro row _
      simp only [comp_apply]
      split
      · exact keyed row
      · rfl
    rw [same]
    exact t.distinct

def delete (t : Table α key) (select : α → Bool) : Table α key where
  rows := t.rows.filter (fun row => !select row)
  next := t.next
  below := fun row member => t.below row (mem_filter.mp member).1
  distinct := t.distinct.sublist (filter_sublist.map key)

section

variable (t : Table α key)

theorem get?_eq_some {n : Nat} {row : α} :
    t.get? n = some row ↔ row ∈ t.rows ∧ key row = n := by
  constructor
  · intro found
    exact ⟨mem_of_find?_eq_some found, by simpa using List.find?_some found⟩
  · rintro ⟨member, rfl⟩
    unfold get?
    cases found : t.rows.find? (fun other => key other == key row) with
    | none =>
      have absent := List.find?_eq_none.mp found row member
      simp at absent
    | some other =>
      have same : key other = key row := by simpa using List.find?_some found
      rw [inj_on_of_nodup_map t.distinct (mem_of_find?_eq_some found) member same]

theorem get?_eq_none {n : Nat} :
    t.get? n = none ↔ ∀ row ∈ t.rows, key row ≠ n := by
  simp [get?]

theorem get?_key {row : α} (member : row ∈ t.rows) :
    t.get? (key row) = some row :=
  t.get?_eq_some.mpr ⟨member, rfl⟩

theorem mem_of_get? {n : Nat} {row : α} (found : t.get? n = some row) :
    row ∈ t.rows :=
  (t.get?_eq_some.mp found).1

theorem key_of_get? {n : Nat} {row : α} (found : t.get? n = some row) :
    key row = n :=
  (t.get?_eq_some.mp found).2

theorem lt_next_of_get? {n : Nat} {row : α} (found : t.get? n = some row) :
    n < t.next := by
  obtain ⟨member, rfl⟩ := t.get?_eq_some.mp found
  exact t.below row member

theorem get?_update (select change keyed) (n : Nat) :
    (t.update select change keyed).get? n =
      (t.get? n).map (fun row => if select row then change row else row) := by
  unfold get? update
  rw [List.find?_map]
  congr 1
  congr 1
  funext row
  simp only [comp_apply]
  split
  · rw [keyed]
  · rfl

theorem get?_delete (select : α → Bool) (n : Nat) :
    (t.delete select).get? n = (t.get? n).filter (fun row => !select row) := by
  cases found : t.get? n with
  | none =>
    rw [get?_eq_none] at found
    simpa [get?_eq_none, delete] using fun row member _ => found row member
  | some row =>
    obtain ⟨member, keyed⟩ := t.get?_eq_some.mp found
    cases chosen : select row with
    | true =>
      have gone : (t.delete select).get? n = none := by
        rw [get?_eq_none]
        intro other present same
        have kept := mem_filter.mp present
        have equal := inj_on_of_nodup_map t.distinct kept.1 member (same.trans keyed.symm)
        simp [equal, chosen] at kept
      simp [gone, Option.filter, chosen]
    | false =>
      have stays : (t.delete select).get? n = some row :=
        (get?_eq_some _).mpr ⟨mem_filter.mpr ⟨member, by simp [chosen]⟩, keyed⟩
      simp [stays, Option.filter, chosen]

theorem get?_insert (make keyed) (n : Nat) :
    (t.insert make keyed).get? n = if n = t.next then some (make n) else t.get? n := by
  by_cases fresh : n = t.next
  · subst fresh
    rw [if_pos rfl, get?_eq_some]
    exact ⟨mem_append_right _ (mem_singleton_self _), keyed _⟩
  · rw [if_neg fresh]
    unfold get? insert
    rw [List.find?_append]
    have other : List.find? (fun row => key row == n) [make t.next] = none := by
      simpa [keyed] using Ne.symm fresh
    simp [other]

end

theorem length_filter_le {t t' : Table α key} {select select' : α → Bool}
    (origin : ∀ row' ∈ t'.rows, select' row' = true →
      ∃ row ∈ t.rows, key row = key row' ∧ select row = true) :
    (t'.rows.filter select').length ≤ (t.rows.filter select).length := by
  have distinct : ((t'.rows.filter select').map key).Nodup :=
    t'.distinct.sublist (filter_sublist.map key)
  have within : (t'.rows.filter select').map key ⊆ (t.rows.filter select).map key := by
    intro n member
    obtain ⟨row', kept, rfl⟩ := mem_map.mp member
    obtain ⟨present, chosen⟩ := mem_filter.mp kept
    obtain ⟨row, stored, same, selected⟩ := origin row' present chosen
    exact mem_map.mpr ⟨row, mem_filter.mpr ⟨stored, selected⟩, same⟩
  have fewer := (distinct.subperm within).length_le
  rwa [length_map, length_map] at fewer

end Table

abbrev Map (κ : Type u) (ν : Type v) := κ → Option ν

namespace Map

variable {κ : Type u} {ν : Type v}

def empty : Map κ ν := fun _ => none

def contains (m : Map κ ν) (k : κ) : Bool := (m k).isSome

def insert [DecidableEq κ] (m : Map κ ν) (k : κ) (value : ν) : Map κ ν :=
  Function.update m k (some value)

def insertOrIgnore [DecidableEq κ] (m : Map κ ν) (k : κ) (value : ν) : Map κ ν :=
  if m.contains k then m else m.insert k value

def retain (m : Map κ ν) (keep : κ → ν → Bool) : Map κ ν := fun k => (m k).filter (keep k)

def erase [DecidableEq κ] (m : Map κ ν) (k : κ) : Map κ ν := Function.update m k none

@[simp] theorem contains_empty (k : κ) : (empty : Map κ ν).contains k = false := rfl

theorem insert_apply [DecidableEq κ] (m : Map κ ν) (k : κ) (value : ν) (other : κ) :
    m.insert k value other = if other = k then some value else m other := by
  simp [insert, update_apply]

theorem erase_apply [DecidableEq κ] (m : Map κ ν) (k k' : κ) :
    m.erase k k' = if k' = k then none else m k' := by
  unfold erase
  rw [update_apply]

theorem contains_insert [DecidableEq κ] (m : Map κ ν) (k : κ) (value : ν) (other : κ) :
    (m.insert k value).contains other = (decide (other = k) || m.contains other) := by
  by_cases same : other = k <;> simp [contains, insert_apply, same]

theorem contains_insertOrIgnore [DecidableEq κ] (m : Map κ ν) (k : κ) (value : ν) (other : κ) :
    (m.insertOrIgnore k value).contains other = (decide (other = k) || m.contains other) := by
  unfold insertOrIgnore
  split
  · rename_i present
    by_cases same : other = k <;> simp [same, present]
  · exact contains_insert ..

theorem insertOrIgnore_of_none [DecidableEq κ] {m : Map κ ν} {k : κ} (absent : m k = none)
    (value : ν) : m.insertOrIgnore k value k = some value := by
  unfold insertOrIgnore
  simp [contains, absent, insert]

theorem insertOrIgnore_of_some [DecidableEq κ] {m : Map κ ν} {k : κ} {value : ν}
    (present : m k = some value) (other : κ) (new : ν) :
    m.insertOrIgnore other new k = some value := by
  unfold insertOrIgnore
  split
  · exact present
  · rename_i absent
    rw [insert_apply, if_neg]
    · exact present
    · rintro rfl
      simp [contains, present] at absent

theorem contains_retain (m : Map κ ν) (keep : κ → ν → Bool) (k : κ) :
    (m.retain keep).contains k = true ↔ ∃ value, m k = some value ∧ keep k value = true := by
  cases found : m k <;> simp [contains, retain, found, Option.filter]

theorem retain_retain (m : Map κ ν) (keep : κ → ν → Bool) :
    (m.retain keep).retain keep = m.retain keep := by
  funext k
  cases found : m k with
  | none => simp [retain, found]
  | some value => cases kept : keep k value <;> simp [retain, found, Option.filter, kept]

end Map

end RelayFabric.Lib
