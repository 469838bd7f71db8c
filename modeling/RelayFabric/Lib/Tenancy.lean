/- layer: library
   digest: Guests that take a key one after another, each under a token of its own. -/

import RelayFabric.Lib.Run
import Mathlib.Logic.Function.Basic

namespace RelayFabric.Lib.Tenancy

open Function

inductive Phase
  | arriving
  | stamped (token : Nat)
  | running (token : Nat)
  | closing (token : Nat)
  | gone
  | refused
  deriving DecidableEq, Repr

def Phase.Inside (p : Phase) (token : Nat) : Prop := p = .running token ∨ p = .closing token

def Phase.token? : Phase → Option Nat
  | .stamped t | .running t | .closing t => some t
  | .arriving | .gone | .refused => none

theorem Phase.Inside.token {p : Phase} {t : Nat} (inside : p.Inside t) : p.token? = some t := by
  rcases inside with rfl | rfl
  · rfl
  · rfl

/-- Who holds each key. The last field is a history variable: the guest let in last. -/
structure Hall (κ : Type) where
  holder : κ → Option Nat
  next : Nat
  guests : List (κ × Phase)
  newest : κ → Option Nat

variable {κ : Type}

def Hall.empty : Hall κ := ⟨fun _ => none, 0, [], fun _ => none⟩

def Hall.At (h : Hall κ) (i : Nat) (k : κ) (p : Phase) : Prop := h.guests[i]? = some (k, p)

structure Hall.Inv (firstWins : Bool) (h : Hall κ) : Prop where
  drawn : ∀ i k p t, h.At i k p → p.token? = some t → t < h.next
  own : ∀ i j k k' p p' t, h.At i k p → h.At j k' p' → p.token? = some t →
    p'.token? = some t → i = j
  held : ∀ k t, h.holder k = some t ↔ h.newest k = some t ∧ ∃ i p, h.At i k p ∧ p.Inside t
  first : firstWins = true → ∀ i k p t, h.At i k p → p.Inside t → h.holder k = some t

namespace Hall

variable {firstWins : Bool} {h : Hall κ}

theorem At.of_set {i j : Nat} {k k' : κ} {p p' : Phase} {holder next newest}
    (there : (⟨holder, next, h.guests.set i (k, p), newest⟩ : Hall κ).At j k' p') :
    j = i ∧ k' = k ∧ p' = p ∨ j ≠ i ∧ h.At j k' p' := by
  unfold At at there
  by_cases same : j = i
  · subst same
    have bound : j < h.guests.length := by
      have := (List.getElem?_eq_some_iff.mp there).1
      rwa [List.length_set] at this
    rw [List.getElem?_set_self bound] at there
    obtain ⟨rfl, rfl⟩ := Prod.mk.inj (Option.some.inj there)
    exact Or.inl ⟨rfl, rfl, rfl⟩
  · rw [List.getElem?_set_ne (Ne.symm same)] at there
    exact Or.inr ⟨same, there⟩

theorem At.set_self {i : Nat} {k : κ} {p p' : Phase} {holder next newest} (there : h.At i k p) :
    (⟨holder, next, h.guests.set i (k, p'), newest⟩ : Hall κ).At i k p' :=
  List.getElem?_set_self (List.getElem?_eq_some_iff.mp there).1

theorem At.set_ne {i j : Nat} {k k' : κ} {p p' : Phase} {holder next newest} (other : j ≠ i)
    (there : h.At j k' p') : (⟨holder, next, h.guests.set i (k, p), newest⟩ : Hall κ).At j k' p' :=
  (List.getElem?_set_ne (Ne.symm other)).trans there

theorem inv_empty : (Hall.empty : Hall κ).Inv firstWins := by
  have nobody : ∀ i k p, ¬(Hall.empty : Hall κ).At i k p := fun i k p there => by
    simp [At, Hall.empty] at there
  refine ⟨fun i k p t there => absurd there (nobody i k p),
    fun i j k k' p p' t there => absurd there (nobody i k p), fun k t => ?_,
    fun _ i k p t there => absurd there (nobody i k p)⟩
  constructor
  · intro held
    cases held
  · rintro ⟨newest, -⟩
    cases newest

theorem Inv.quiet (inv : h.Inv firstWins) {i next : Nat} {k : κ} {p p' : Phase} (here : h.At i k p)
    (inside : ∀ t, p'.Inside t ↔ p.Inside t) (grows : h.next ≤ next)
    (token : ∀ t, p'.token? = some t → p.token? = some t ∨ h.next ≤ t ∧ t < next) :
    Inv firstWins { h with next := next, guests := h.guests.set i (k, p') } := by
  have apart : ∀ j k'' p'' t, h.At j k'' p'' → p''.token? = some t → j ≠ i →
      p'.token? ≠ some t := by
    intro j k'' p'' t there named other mine
    have below := inv.drawn j k'' p'' t there named
    rcases token t mine with old | ⟨new, -⟩
    · exact other (inv.own j i k'' k p'' p t there here named old)
    · omega
  refine ⟨fun j k' q t there named => ?_, fun j j' k' k'' q q' t there there' named named' => ?_,
    fun k' t => ?_, fun first j k' q t there within => ?_⟩
  · rcases there.of_set with ⟨rfl, rfl, rfl⟩ | ⟨-, old⟩
    · rcases token t named with old | ⟨-, new⟩
      · exact Nat.lt_of_lt_of_le (inv.drawn j k' p t here old) grows
      · exact new
    · exact Nat.lt_of_lt_of_le (inv.drawn j k' q t old named) grows
  · rcases there.of_set with ⟨rfl, rfl, rfl⟩ | ⟨other, old⟩
    · rcases there'.of_set with ⟨rfl, -, -⟩ | ⟨other', old'⟩
      · rfl
      · exact absurd named (apart j' k'' q' t old' named' other')
    · rcases there'.of_set with ⟨rfl, rfl, rfl⟩ | ⟨other', old'⟩
      · exact absurd named' (apart j k' q t old named other)
      · exact inv.own j j' k' k'' q q' t old old' named named'
  · rw [inv.held k' t]
    refine and_congr_right fun _ => ?_
    constructor
    · rintro ⟨j, q, there, within⟩
      by_cases same : j = i
      · subst same
        obtain ⟨rfl, rfl⟩ := Prod.mk.inj (Option.some.inj (there.symm.trans here))
        exact ⟨j, p', here.set_self, (inside t).mpr within⟩
      · exact ⟨j, q, there.set_ne same, within⟩
    · rintro ⟨j, q, there, within⟩
      rcases there.of_set with ⟨rfl, rfl, rfl⟩ | ⟨-, old⟩
      · exact ⟨j, p, here, (inside t).mp within⟩
      · exact ⟨j, q, old, within⟩
  · rcases there.of_set with ⟨rfl, rfl, rfl⟩ | ⟨-, old⟩
    · exact inv.first first j k' p t here ((inside t).mp within)
    · exact inv.first first j k' q t old within

end Hall

variable [DecidableEq κ]

/-- One guest takes its next step. Under `firstWins` a key that is held is refused; otherwise the
new guest displaces the old one. A guest that leaves frees the key only if it is its own. -/
def Hall.act (firstWins : Bool) (i : Nat) (h : Hall κ) : Option (Hall κ) :=
  match h.guests[i]? with
  | some (k, .arriving) =>
    some { h with next := h.next + 1, guests := h.guests.set i (k, .stamped h.next) }
  | some (k, .stamped t) =>
    if firstWins && (h.holder k).isSome then
      some { h with guests := h.guests.set i (k, .refused) }
    else
      some { h with
        holder := Function.update h.holder k (some t)
        newest := Function.update h.newest k (some t)
        guests := h.guests.set i (k, .running t) }
  | some (k, .running t) => some { h with guests := h.guests.set i (k, .closing t) }
  | some (k, .closing t) =>
    some { h with
      holder := if h.holder k = some t then Function.update h.holder k none else h.holder
      guests := h.guests.set i (k, .gone) }
  | _ => none

namespace Hall

variable {firstWins : Bool} {h h' : Hall κ}

theorem Inv.enter (inv : h.Inv firstWins) {i t : Nat} {k : κ} (here : h.At i k (.stamped t))
    (free : firstWins = true → h.holder k = none) :
    Inv firstWins { h with
      holder := Function.update h.holder k (some t)
      newest := Function.update h.newest k (some t)
      guests := h.guests.set i (k, .running t) } := by
  refine ⟨fun j k' q u there named => ?_, fun j j' k' k'' q q' u there there' named named' => ?_,
    fun k' u => ?_, fun first j k' q u there within => ?_⟩
  · rcases there.of_set with ⟨rfl, rfl, rfl⟩ | ⟨-, old⟩
    · exact inv.drawn j k' (.stamped t) u here named
    · exact inv.drawn j k' q u old named
  · rcases there.of_set with ⟨rfl, rfl, rfl⟩ | ⟨other, old⟩
    · rcases there'.of_set with ⟨rfl, -, -⟩ | ⟨other', old'⟩
      · rfl
      · exact inv.own j j' k' k'' (.stamped t) q' u here old' named named'
    · rcases there'.of_set with ⟨rfl, rfl, rfl⟩ | ⟨other', old'⟩
      · exact inv.own j j' k' k'' q (.stamped t) u old here named named'
      · exact inv.own j j' k' k'' q q' u old old' named named'
  · by_cases same : k' = k
    · subst same
      simp only [update_self, Option.some.injEq]
      constructor
      · rintro rfl
        exact ⟨rfl, i, .running t, here.set_self, Or.inl rfl⟩
      · exact fun both => both.1
    · simp only [update_of_ne same]
      rw [inv.held k' u]
      refine and_congr_right fun _ => ?_
      constructor
      · rintro ⟨j, q, there, within⟩
        have other : j ≠ i := by
          rintro rfl
          exact same (Prod.mk.inj (Option.some.inj (there.symm.trans here))).1
        exact ⟨j, q, there.set_ne other, within⟩
      · rintro ⟨j, q, there, within⟩
        rcases there.of_set with ⟨-, rfl, -⟩ | ⟨-, old⟩
        · exact absurd rfl same
        · exact ⟨j, q, old, within⟩
  · rcases there.of_set with ⟨rfl, rfl, rfl⟩ | ⟨other, old⟩
    · rcases within with same | same
      · obtain rfl := Phase.running.inj same
        exact update_self _ _ _
      · cases same
    · have holds := inv.first first j k' q u old within
      by_cases same : k' = k
      · subst same
        rw [free first] at holds
        cases holds
      · exact (update_of_ne same _ _).trans holds

theorem Inv.leave (inv : h.Inv firstWins) {i t : Nat} {k : κ} (here : h.At i k (.closing t)) :
    Inv firstWins { h with
      holder := if h.holder k = some t then Function.update h.holder k none else h.holder
      guests := h.guests.set i (k, .gone) } := by
  have others : ∀ j k' p' u, h.At j k' p' → p'.Inside u → j ≠ i → u ≠ t := by
    intro j k' p' u there within other same
    exact other (inv.own j i k' k p' (.closing t) t there here (same ▸ within.token) rfl)
  have freed : ∀ k' u,
      (if h.holder k = some t then Function.update h.holder k none else h.holder) k' = some u ↔
        h.holder k' = some u ∧ ¬(k' = k ∧ u = t) := by
    intro k' u
    split
    · rename_i mine
      by_cases same : k' = k
      · subst same
        rw [update_self, mine]
        simp [eq_comm]
      · rw [update_of_ne same]
        simp [same]
    · rename_i another
      constructor
      · intro holds
        refine ⟨holds, ?_⟩
        rintro ⟨rfl, rfl⟩
        exact another holds
      · exact fun both => both.1
  refine ⟨fun j k' q u there named => ?_, fun j j' k' k'' q q' u there there' named named' => ?_,
    fun k' u => ?_, fun first j k' q u there within => ?_⟩
  · rcases there.of_set with ⟨rfl, rfl, rfl⟩ | ⟨-, old⟩
    · cases named
    · exact inv.drawn j k' q u old named
  · rcases there.of_set with ⟨rfl, rfl, rfl⟩ | ⟨other, old⟩
    · cases named
    · rcases there'.of_set with ⟨rfl, rfl, rfl⟩ | ⟨other', old'⟩
      · cases named'
      · exact inv.own j j' k' k'' q q' u old old' named named'
  · rw [freed k' u, inv.held k' u, and_assoc]
    refine and_congr_right fun _ => ?_
    constructor
    · rintro ⟨⟨j, q, there, within⟩, apart⟩
      have other : j ≠ i := by
        rintro rfl
        obtain ⟨rfl, rfl⟩ := Prod.mk.inj (Option.some.inj (there.symm.trans here))
        rcases within with same | same
        · cases same
        · exact apart ⟨rfl, (Phase.closing.inj same).symm⟩
      exact ⟨j, q, there.set_ne other, within⟩
    · rintro ⟨j, q, there, within⟩
      rcases there.of_set with ⟨rfl, rfl, rfl⟩ | ⟨other, old⟩
      · rcases within with same | same
        · cases same
        · cases same
      · exact ⟨⟨j, q, old, within⟩, fun both => others j k' q u old within other both.2⟩
  · rcases there.of_set with ⟨rfl, rfl, rfl⟩ | ⟨other, old⟩
    · rcases within with same | same
      · cases same
      · cases same
    · exact (freed k' u).mpr ⟨inv.first first j k' q u old within,
        fun both => others j k' q u old within other both.2⟩

omit [DecidableEq κ] in
theorem Inv.arrive (inv : h.Inv firstWins) (k : κ) :
    Inv firstWins { h with guests := h.guests ++ [(k, .arriving)] } := by
  have split : ∀ {j k' p'}, At { h with guests := h.guests ++ [(k, .arriving)] } j k' p' →
      h.At j k' p' ∨ p' = .arriving := by
    intro j k' p' there
    unfold At at there ⊢
    rw [List.getElem?_append] at there
    split at there
    · exact Or.inl there
    · have last := List.mem_singleton.mp (List.mem_of_getElem? there)
      exact Or.inr (Prod.mk.inj last).2
  have stays : ∀ {j k' p'}, h.At j k' p' →
      At { h with guests := h.guests ++ [(k, .arriving)] } j k' p' := by
    intro j k' p' there
    have bound := (List.getElem?_eq_some_iff.mp there).1
    exact (List.getElem?_append_left bound).trans there
  have named : ∀ {j k' p' u}, At { h with guests := h.guests ++ [(k, .arriving)] } j k' p' →
      p'.token? = some u → h.At j k' p' := by
    intro j k' p' u there token
    rcases split there with old | rfl
    · exact old
    · cases token
  refine ⟨fun j k' q u there token => inv.drawn j k' q u (named there token) token,
    fun j j' k' k'' q q' u there there' token token' =>
      inv.own j j' k' k'' q q' u (named there token) (named there' token') token token',
    fun k' u => ?_,
    fun first j k' q u there within => inv.first first j k' q u (named there within.token) within⟩
  rw [inv.held k' u]
  refine and_congr_right fun _ => ?_
  constructor
  · rintro ⟨j, q, there, within⟩
    exact ⟨j, q, stays there, within⟩
  · rintro ⟨j, q, there, within⟩
    exact ⟨j, q, named there within.token, within⟩

theorem Inv.act (inv : h.Inv firstWins) {i : Nat} (step : h.act firstWins i = some h') :
    h'.Inv firstWins := by
  unfold Hall.act at step
  split at step
  · rename_i k here
    cases step
    refine inv.quiet here (fun t => ?_) (Nat.le_succ _) (fun t token => ?_)
    · simp [Phase.Inside]
    · cases token
      exact Or.inr ⟨Nat.le_refl _, Nat.lt_succ_self _⟩
  · rename_i k t here
    split at step
    · cases step
      refine inv.quiet here (fun t => ?_) (Nat.le_refl _) (fun t token => ?_)
      · simp [Phase.Inside]
      · cases token
    · rename_i free
      cases step
      refine inv.enter here (fun first => ?_)
      simpa [first] using free
  · rename_i k t here
    cases step
    refine inv.quiet here (fun u => ?_) (Nat.le_refl _) (fun u token => Or.inl token)
    simp [Phase.Inside]
  · rename_i k t here
    cases step
    exact inv.leave here
  · cases step

def Quiescent (h : Hall κ) : Prop :=
  ∀ i k p, h.At i k p → (∃ t, p = .running t) ∨ p = .gone ∨ p = .refused

omit [DecidableEq κ] in
theorem Inv.quiescent (inv : h.Inv firstWins) (quiet : h.Quiescent) (k : κ) :
    (h.holder k).isSome = true ↔ ∃ t i, h.newest k = some t ∧ h.At i k (.running t) := by
  rw [Option.isSome_iff_exists]
  refine exists_congr fun t => ?_
  rw [inv.held k t]
  constructor
  · rintro ⟨newest, i, p, there, within⟩
    rcases within with rfl | rfl
    · exact ⟨i, newest, there⟩
    · rcases quiet i k _ there with ⟨u, running⟩ | gone | refused
      · cases running
      · cases gone
      · cases refused
  · rintro ⟨i, newest, there⟩
    exact ⟨newest, i, _, there, Or.inl rfl⟩

end Hall

end RelayFabric.Lib.Tenancy
