/- layer: library
   digest: A table cut down to the rows that rank first among those selected. -/

import Mathlib.Data.List.Sort
import RelayFabric.Lib.Keyed

namespace RelayFabric.Lib.Keyed

open List

universe u v

variable {α : Type u} {κ : Type v} {key : α → κ}

/-- `ORDER BY stamp DESC, name`. -/
def LatestFirst {ν : Type v} [LinearOrder ν] (stamp : α → Int) (name : α → ν) (a b : α) : Prop :=
  stamp b < stamp a ∨ stamp b = stamp a ∧ name a ≤ name b

namespace LatestFirst

variable {ν : Type v} [LinearOrder ν] {stamp : α → Int} {name : α → ν}

instance : DecidableRel (LatestFirst stamp name) :=
  fun _ _ => inferInstanceAs (Decidable (_ ∨ _))

theorem total (a b : α) : LatestFirst stamp name a b ∨ LatestFirst stamp name b a := by
  rcases lt_trichotomy (stamp a) (stamp b) with less | same | more
  · exact Or.inr (Or.inl less)
  · rcases le_total (name a) (name b) with le | ge
    · exact Or.inl (Or.inr ⟨same.symm, le⟩)
    · exact Or.inr (Or.inr ⟨same, ge⟩)
  · exact Or.inl (Or.inl more)

theorem trans (a b c : α) (first : LatestFirst stamp name a b)
    (second : LatestFirst stamp name b c) : LatestFirst stamp name a c := by
  rcases first with less | ⟨same, le⟩
  · rcases second with less' | ⟨same', le'⟩
    · exact Or.inl (less'.trans less)
    · exact Or.inl (same' ▸ less)
  · rcases second with less' | ⟨same', le'⟩
    · exact Or.inl (same ▸ less')
    · exact Or.inr ⟨same'.trans same, le.trans le'⟩

theorem antisymm (a b : α) (first : LatestFirst stamp name a b)
    (second : LatestFirst stamp name b a) : name a = name b := by
  rcases first with less | ⟨same, le⟩
  · rcases second with less' | ⟨same', le'⟩
    · omega
    · omega
  · rcases second with less' | ⟨same', le'⟩
    · omega
    · exact le_antisymm le le'

instance : Std.Total (LatestFirst stamp name) := ⟨total⟩

instance : IsTrans α (LatestFirst stamp name) := ⟨trans⟩

end LatestFirst

section

variable (t : Keyed α key) (select : α → Bool) (before : α → α → Prop) [DecidableRel before]

/-- `SELECT … WHERE select ORDER BY before`. -/
def ranked : List α := (t.rows.filter select).insertionSort before

/-- `… LIMIT -1 OFFSET n`. -/
def surplus (n : Nat) : List α := (t.ranked select before).drop n

variable [DecidableEq κ]

/-- `DELETE … WHERE select AND key IN (surplus)`. -/
def prune (n : Nat) : Keyed α key :=
  t.keep (fun row => !(select row && decide (key row ∈ (t.surplus select before n).map key)))

end

variable {t : Keyed α key} {select : α → Bool} {before : α → α → Prop} [DecidableRel before]

theorem mem_ranked {row : α} :
    row ∈ t.ranked select before ↔ row ∈ t.rows ∧ select row = true := by
  unfold ranked
  rw [mem_insertionSort, mem_filter]

theorem ranked_pairwise [Std.Total before] [IsTrans α before] :
    (t.ranked select before).Pairwise before := pairwise_insertionSort before _

theorem length_ranked : (t.ranked select before).length = (t.rows.filter select).length :=
  length_insertionSort _ _

theorem ranked_nodup : ((t.ranked select before).map key).Nodup := by
  have perm := (perm_insertionSort before (t.rows.filter select)).map key
  exact perm.nodup_iff.mpr (t.distinct.sublist (filter_sublist.map _))

variable [DecidableEq κ] {n : Nat}

theorem mem_prune {row : α} : row ∈ (t.prune select before n).rows ↔
    row ∈ t.rows ∧ row ∉ t.surplus select before n := by
  unfold prune keep
  rw [mem_filter]
  refine and_congr_right fun member => ?_
  have selected : ∀ other ∈ t.surplus select before n, other ∈ t.rows ∧ select other = true :=
    fun other dropped => mem_ranked.mp (mem_of_mem_drop dropped)
  simp only [Bool.not_eq_true', Bool.and_eq_false_iff, decide_eq_false_iff_not]
  constructor
  · intro cases dropped
    rcases cases with other | unnamed
    · rw [(selected row dropped).2] at other
      exact Bool.noConfusion other
    · exact unnamed (mem_map_of_mem dropped)
  · intro kept
    refine Or.inr ?_
    rw [mem_map]
    rintro ⟨other, dropped, same⟩
    -- the key determines the row
    have equal := inj_on_of_nodup_map t.distinct (selected other dropped).1 member same
    exact kept (equal ▸ dropped)

theorem selected_prune : ((t.prune select before n).rows.filter select).Perm
    ((t.ranked select before).take n) := by
  have distinct : ∀ u : Keyed α key, u.rows.Nodup := fun u => u.distinct.of_map _
  have ranked : (t.ranked select before).Nodup := ranked_nodup.of_map _
  have parts : (t.ranked select before).take n ++ t.surplus select before n =
      t.ranked select before :=
    take_append_drop _ _
  have apart : ((t.ranked select before).take n).Disjoint (t.surplus select before n) :=
    disjoint_of_nodup_append (parts.symm ▸ ranked)
  refine (perm_ext_iff_of_nodup ((distinct _).filter _) (ranked.sublist (take_sublist _ _))).mpr ?_
  intro row
  rw [mem_filter, mem_prune]
  constructor
  · rintro ⟨⟨member, kept⟩, selected⟩
    have listed : row ∈ (t.ranked select before).take n ++ t.surplus select before n :=
      parts.symm ▸ mem_ranked.mpr ⟨member, selected⟩
    exact (mem_append.mp listed).resolve_right kept
  · intro first
    obtain ⟨member, selected⟩ := mem_ranked.mp (mem_of_mem_take first)
    exact ⟨⟨member, fun dropped => apart first dropped⟩, selected⟩

theorem length_prune_le : ((t.prune select before n).rows.filter select).length ≤ n := by
  rw [selected_prune.length_eq, length_take]
  exact min_le_left _ _

theorem before_of_dropped [Std.Total before] [IsTrans α before] {gone row : α} (old : gone ∈ t.rows)
    (absent : gone ∉ (t.prune select before n).rows) (stays : row ∈ (t.prune select before n).rows)
    (selected : select row = true) : before row gone := by
  have dropped : gone ∈ t.surplus select before n := by
    by_contra kept
    exact absent (mem_prune.mpr ⟨old, kept⟩)
  have first := selected_prune.mem_iff.mp (mem_filter.mpr ⟨stays, selected⟩)
  have order : (t.ranked select before).Pairwise before := ranked_pairwise
  rw [← take_append_drop n (t.ranked select before), pairwise_append] at order
  exact order.2.2 row first gone dropped

theorem mem_prune_iff_few [Std.Total before] [IsTrans α before]
    (antisymm : ∀ a b, before a b → before b a → key a = key b) {row : α} (member : row ∈ t.rows)
    (selected : select row = true) : row ∈ (t.prune select before n).rows ↔
      (t.rows.filter
        (fun other => select other && decide (key other ≠ key row ∧ before other row))).length <
        n := by
  have listed : row ∈ t.ranked select before := mem_ranked.mpr ⟨member, selected⟩
  have distinct : ((t.ranked select before).map key).Nodup := ranked_nodup
  have sorted : (t.ranked select before).Pairwise before := ranked_pairwise
  obtain ⟨front, back, parts⟩ := append_of_mem listed
  rw [parts, map_append, map_cons, nodup_append, nodup_cons] at distinct
  rw [parts, pairwise_append, pairwise_cons] at sorted
  -- the rows before it are those that the order lists before it
  have others :
      (t.rows.filter
        (fun other => select other && decide (key other ≠ key row ∧ before other row))).Perm
        front := by
    have nodup : t.rows.Nodup := t.distinct.of_map _
    have entry : ∀ other, other ∈ t.ranked select before ↔ other ∈ t.rows ∧ select other = true :=
      fun _ => mem_ranked
    refine (perm_ext_iff_of_nodup (nodup.filter _) (distinct.1.of_map _)).mpr ?_
    intro other
    rw [mem_filter, Bool.and_eq_true, decide_eq_true_eq, ← and_assoc, ← entry, parts, mem_append,
      mem_cons]
    constructor
    · rintro ⟨early | rfl | late, apart, earlier⟩
      · exact early
      · exact absurd rfl apart
      · exact absurd (antisymm other row earlier (sorted.2.1.1 other late)) apart
    · intro early
      refine ⟨Or.inl early, ?_, sorted.2.2 other early row mem_cons_self⟩
      exact distinct.2.2 _ (mem_map_of_mem early) _ mem_cons_self
  rw [others.length_eq, mem_prune]
  unfold surplus
  rw [parts]
  constructor
  · rintro ⟨-, kept⟩
    by_contra short
    refine kept ?_
    rw [drop_append_of_le_length (Nat.le_of_not_lt short)]
    exact mem_append_right _ mem_cons_self
  · intro room
    refine ⟨member, fun dropped => ?_⟩
    obtain ⟨k, rfl⟩ : ∃ k, n = front.length + (k + 1) := ⟨n - front.length - 1, by omega⟩
    rw [drop_append, drop_eq_nil_of_le (by omega), nil_append, Nat.add_sub_cancel_left,
      drop_succ_cons] at dropped
    exact distinct.2.1.1 (mem_map_of_mem (mem_of_mem_drop dropped))

theorem prune_of_few (few : (t.rows.filter select).length ≤ n) : t.prune select before n = t := by
  have none : t.surplus select before n = [] := by
    unfold surplus
    rw [drop_eq_nil_iff, length_ranked]
    exact few
  unfold prune keep
  rw [none]
  cases t
  simp

end RelayFabric.Lib.Keyed
