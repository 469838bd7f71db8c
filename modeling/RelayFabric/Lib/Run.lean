/- layer: library
   digest: Finite runs of a partial step function, and the invariant rules over them. -/

import Mathlib.Logic.Basic

namespace RelayFabric.Lib

variable {α σ : Type}

def runAll (step : α → σ → Option σ) : List α → σ → Option σ
  | [], s => some s
  | a :: rest, s => (step a s).bind (runAll step rest)

def Meets (step : α → σ → Option σ) (cond : α → σ → Prop) : List α → σ → Prop
  | [], _ => True
  | a :: rest, s => cond a s ∧ ∀ s', step a s = some s' → Meets step cond rest s'

instance Reaches.decidable {P : σ → Prop} [∀ s, Decidable (P s)] :
    ∀ result : Option σ, Decidable (∃ s, result = some s ∧ P s)
  | none => isFalse (fun ⟨_, reached, _⟩ => nomatch reached)
  | some s => decidable_of_iff (P s)
      ⟨fun holds => ⟨s, rfl, holds⟩, fun ⟨_, reached, holds⟩ => Option.some.inj reached ▸ holds⟩

section

variable {step : α → σ → Option σ}

theorem runAll_append (first second : List α) (s : σ) :
    runAll step (first ++ second) s = (runAll step first s).bind (runAll step second) := by
  induction first generalizing s with
  | nil => rfl
  | cons a rest ih =>
    simp only [List.cons_append, runAll]
    cases step a s with
    | none => rfl
    | some s' => exact ih s'

theorem runAll_concat {moves : List α} {a : α} {s s' s'' : σ} (run : runAll step moves s = some s')
    (last : step a s' = some s'') : runAll step (moves ++ [a]) s = some s'' := by
  rw [runAll_append, run, Option.bind_some, runAll, last]
  rfl

instance Meets.decidable {cond : α → σ → Prop} [∀ a s, Decidable (cond a s)] :
    ∀ (moves : List α) (s : σ), Decidable (Meets step cond moves s)
  | [], _ => isTrue trivial
  | a :: rest, s =>
    match reached : step a s with
    | none => decidable_of_iff (cond a s) (by simp [Meets, reached])
    | some s' =>
      have : Decidable (Meets step cond rest s') := Meets.decidable rest s'
      decidable_of_iff (cond a s ∧ Meets step cond rest s') (by simp [Meets, reached])

theorem runAll_preserves {cond : α → σ → Prop} (Inv : σ → Prop)
    (preserves : ∀ a s s', cond a s → step a s = some s' → Inv s → Inv s') :
    ∀ (moves : List α) (s s' : σ), Meets step cond moves s → runAll step moves s = some s' →
      Inv s → Inv s' := by
  intro moves
  induction moves with
  | nil =>
    intro s s' _ reached inv
    cases reached
    exact inv
  | cons a rest ih =>
    intro s s' met reached inv
    obtain ⟨middle, first, later⟩ := Option.bind_eq_some_iff.mp reached
    exact ih middle s' (met.2 middle first) later (preserves a s middle met.1 first inv)

theorem Meets.and {first second : α → σ → Prop} :
    ∀ {moves : List α} {s : σ}, Meets step first moves s → Meets step second moves s →
      Meets step (fun a s => first a s ∧ second a s) moves s := by
  intro moves
  induction moves with
  | nil => exact fun _ _ => trivial
  | cons a rest ih =>
    intro s one other
    exact ⟨⟨one.1, other.1⟩, fun s' reached => ih (one.2 s' reached) (other.2 s' reached)⟩

theorem meets_of_mem {cond : α → σ → Prop} {moves : List α} (each : ∀ a ∈ moves, ∀ s, cond a s) :
    ∀ s, Meets step cond moves s := by
  induction moves with
  | nil => exact fun _ => trivial
  | cons a rest ih =>
    intro s
    refine ⟨each a List.mem_cons_self s, fun s' _ => ?_⟩
    exact ih (fun b member => each b (List.mem_cons_of_mem _ member)) s'

theorem meets_of_forall {cond : α → σ → Prop} (always : ∀ a s, cond a s) :
    ∀ (moves : List α) (s : σ), Meets step cond moves s :=
  fun _ => meets_of_mem (fun a _ => always a)

theorem runAll_invariant (Inv : σ → Prop)
    (preserves : ∀ a s s', step a s = some s' → Inv s → Inv s') {moves : List α} {s s' : σ}
    (reached : runAll step moves s = some s') (inv : Inv s) : Inv s' :=
  runAll_preserves Inv (fun a s s' (_ : True) => preserves a s s') moves s s'
    (meets_of_forall (fun _ _ => trivial) moves s) reached inv

end

end RelayFabric.Lib
