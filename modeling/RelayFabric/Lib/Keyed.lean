/- layer: library
   digest: Tables under a primary key that the caller chooses. -/

import Mathlib.Data.List.Nodup
import Mathlib.Data.List.Perm.Subperm

namespace RelayFabric.Lib

open List

universe u v

/-- Rows no two of which share a key. -/
structure Keyed (α : Type u) {κ : Type v} (key : α → κ) where
  rows : List α
  distinct : (rows.map key).Nodup

namespace Keyed

variable {α : Type u} {κ : Type v} {key : α → κ}

def empty : Keyed α key := ⟨[], by simp⟩

def update (t : Keyed α key) (change : α → α)
    (keyed : ∀ row, key (change row) = key row) : Keyed α key where
  rows := t.rows.map change
  distinct := by
    have same : (t.rows.map change).map key = t.rows.map key := by
      rw [map_map]
      exact map_congr_left (fun row _ => keyed row)
    rw [same]
    exact t.distinct

def keep (t : Keyed α key) (select : α → Bool) : Keyed α key where
  rows := t.rows.filter select
  distinct := t.distinct.sublist (filter_sublist.map key)

theorem length_le {β : Type u} {key' : β → κ} (t : Keyed α key) (other : Keyed β key')
    (keys : ∀ row ∈ t.rows, ∃ found ∈ other.rows, key' found = key row) :
    t.rows.length ≤ other.rows.length := by
  have within : t.rows.map key ⊆ other.rows.map key' := by
    intro k member
    obtain ⟨row, stored, rfl⟩ := mem_map.mp member
    obtain ⟨found, present, same⟩ := keys row stored
    exact mem_map.mpr ⟨found, present, same⟩
  have fewer := (t.distinct.subperm within).length_le
  rw [length_map, length_map] at fewer
  exact fewer

variable [DecidableEq κ]

def get? (t : Keyed α key) (k : κ) : Option α := t.rows.find? (fun row => key row = k)

section

variable (t : Keyed α key)

theorem get?_eq_some {k : κ} {row : α} :
    t.get? k = some row ↔ row ∈ t.rows ∧ key row = k := by
  constructor
  · intro found
    exact ⟨mem_of_find?_eq_some found, by simpa using List.find?_some found⟩
  · rintro ⟨member, rfl⟩
    cases found : t.get? (key row) with
    | none => simpa using List.find?_eq_none.mp found row member
    | some other =>
      have same : key other = key row := by simpa using List.find?_some found
      rw [inj_on_of_nodup_map t.distinct (mem_of_find?_eq_some found) member same]

theorem get?_eq_none {k : κ} :
    t.get? k = none ↔ ∀ row ∈ t.rows, key row ≠ k := by
  simp [get?]

theorem get?_update (change : α → α) (keyed) (k : κ) :
    (t.update change keyed).get? k = (t.get? k).map change := by
  unfold get? update
  rw [List.find?_map]
  congr 2
  funext row
  simp [keyed]

theorem get?_keep (select : α → Bool) (k : κ) :
    (t.keep select).get? k = (t.get? k).filter select := by
  cases found : t.get? k with
  | none =>
    have absent := t.get?_eq_none.mp found
    rw [Option.filter_none, get?_eq_none]
    intro row member
    exact absent row (mem_of_mem_filter member)
  | some row =>
    obtain ⟨member, named⟩ := t.get?_eq_some.mp found
    by_cases selected : select row
    · rw [Option.filter_some_pos selected, get?_eq_some]
      exact ⟨mem_filter.mpr ⟨member, selected⟩, named⟩
    · rw [Option.filter_some_neg (Bool.eq_false_iff.mpr selected), get?_eq_none]
      intro other kept same
      have present : t.get? k = some other :=
        t.get?_eq_some.mpr ⟨mem_of_mem_filter kept, same⟩
      rw [found] at present
      cases present
      exact selected (of_mem_filter kept)

end

def append (t : Keyed α key) (row : α) (fresh : t.get? (key row) = none) : Keyed α key where
  rows := t.rows ++ [row]
  distinct := by
    rw [map_append, nodup_append]
    refine ⟨t.distinct, by simp, ?_⟩
    intro a old b new same
    obtain ⟨other, member, rfl⟩ := mem_map.mp old
    have named : b = key row := by simpa using new
    exact t.get?_eq_none.mp fresh other member (same.trans named)

theorem get?_append (t : Keyed α key) (row : α) (fresh) (k : κ) :
    (t.append row fresh).get? k = if k = key row then some row else t.get? k := by
  split
  · next same =>
    rw [get?_eq_some]
    exact ⟨by simp [append], same.symm⟩
  · next other =>
    unfold get? append
    rw [List.find?_append]
    simp [Ne.symm other]

def insertOrIgnore (t : Keyed α key) (row : α) : Keyed α key :=
  if fresh : t.get? (key row) = none then t.append row fresh else t

/-- `INSERT … ON CONFLICT DO UPDATE`: the row with that key is changed, or else the new one
is inserted. -/
def upsert (t : Keyed α key) (row : α) (change : α → α)
    (keyed : ∀ row, key (change row) = key row) : Keyed α key :=
  if fresh : t.get? (key row) = none then t.append row fresh
  else t.update (fun old => if key old = key row then change old else old)
    (by intro old; split <;> simp [keyed])

theorem get?_insertOrIgnore (t : Keyed α key) (row : α) (k : κ) :
    (t.insertOrIgnore row).get? k =
      if k = key row then some ((t.get? k).getD row) else t.get? k := by
  unfold insertOrIgnore
  split
  · next fresh =>
    rw [get?_append]
    split
    · next same => rw [same, fresh, Option.getD_none]
    · rfl
  · next present =>
    split
    · next same =>
      obtain ⟨old, found⟩ := Option.ne_none_iff_exists'.mp present
      rw [same, found, Option.getD_some]
    · rfl

theorem get?_upsert (t : Keyed α key) (row : α) (change : α → α) (keyed) (k : κ) :
    (t.upsert row change keyed).get? k =
      if k = key row then some ((t.get? k).elim row change) else t.get? k := by
  unfold upsert
  split
  · next fresh =>
    rw [get?_append]
    split
    · next same => rw [same, fresh, Option.elim_none]
    · rfl
  · next present =>
    rw [get?_update]
    cases found : t.get? k with
    | none =>
      have other : k ≠ key row := fun same => present (same ▸ found)
      rw [if_neg other, Option.map_none]
    | some old =>
      have named := (t.get?_eq_some.mp found).2
      rw [Option.map_some, named]
      split <;> rfl

end Keyed

end RelayFabric.Lib
