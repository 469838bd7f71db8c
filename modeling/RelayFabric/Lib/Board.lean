/- layer: library
   digest: A board that shows the last report of each label. -/

import Mathlib.Logic.Function.Basic

namespace RelayFabric.Lib

open Function

/-- The board shows every member that is loud; and what it shows, some member can be heard to have
said and not to have taken back. -/
structure Shows {ι κ : Type} (board : κ → Option Bool) (loud heard : ι → κ → Prop) : Prop where
  raised : ∀ i k, loud i k → board k = some true
  lowered : ∀ k, board k = some true → ∃ i, heard i k

namespace Shows

variable {ι κ : Type} {board : κ → Option Bool} {loud loud' heard heard' : ι → κ → Prop}

theorem quiet (shows_ : Shows board loud heard) (fewer : ∀ i k, loud' i k → loud i k)
    (more : ∀ i k, heard i k → heard' i k) : Shows board loud' heard' := by
  refine ⟨fun i k still => shows_.raised i k (fewer i k still), fun k up => ?_⟩
  obtain ⟨i, said⟩ := shows_.lowered k up
  exact ⟨i, more i k said⟩

theorem report [DecidableEq κ] (shows_ : Shows board loud heard) {name : κ} {up : Bool}
    (fits : ∀ i, loud' i name → up = true) (fewer : ∀ i k, k ≠ name → loud' i k → loud i k)
    (more : ∀ i k, k ≠ name → heard i k → heard' i k) (own : up = true → ∃ i, heard' i name) :
    Shows (Function.update board name (some up)) loud' heard' := by
  constructor
  · intro i k still
    by_cases same : k = name
    · subst same
      rw [update_self, fits i still]
    · rw [update_of_ne same]
      exact shows_.raised i k (fewer i k same still)
  · intro k shown
    by_cases same : k = name
    · subst same
      rw [update_self] at shown
      exact own (Option.some.inj shown)
    · rw [update_of_ne same] at shown
      obtain ⟨i, said⟩ := shows_.lowered k shown
      exact ⟨i, more i k same said⟩

end Shows

end RelayFabric.Lib
