/- layer: library
   digest: Two runs side by side: the unwinding rule for systems in which some moves are hidden. -/

import Mathlib.Logic.Basic

namespace RelayFabric.Lib

variable {α σ : Type}

def drive (step : α → σ → σ) (moves : List α) (s : σ) : σ := moves.foldl (fun s a => step a s) s

section Unwinding

variable {step : α → σ → σ} {hidden : α → Bool} {fine : α → Prop} {R : σ → σ → Prop}

/-- A run is related to the run of its visible moves alone, where a hidden move changes nothing
that the relation sees and a visible one keeps the relation. -/
theorem drive_visible (quiet : ∀ a s t, fine a → hidden a = true → R s t → R (step a s) t)
    (loud : ∀ a s t, fine a → hidden a = false → R s t → R (step a s) (step a t)) (moves : List α) :
    ∀ s t, (∀ a ∈ moves, fine a) → R s t →
      R (drive step moves s) (drive step (moves.filter (fun a => !hidden a)) t) := by
  induction moves with
  | nil => exact fun _ _ _ related => related
  | cons a rest ih =>
    intro s t all related
    have now : fine a := all a List.mem_cons_self
    have later : ∀ b ∈ rest, fine b := fun b member => all b (List.mem_cons_of_mem a member)
    cases seen : hidden a with
    | true =>
      have skipped : (a :: rest).filter (fun a => !hidden a) = rest.filter
          (fun a => !hidden a) := by
        simp [seen]
      rw [skipped]
      exact ih (step a s) t later (quiet a s t now seen related)
    | false =>
      have kept : (a :: rest).filter (fun a => !hidden a) =
          a :: rest.filter (fun a => !hidden a) := by
        simp [seen]
      rw [kept]
      exact ih (step a s) (step a t) later (loud a s t now seen related)

theorem drive_related (refl : ∀ s, R s s) (symm : ∀ s t, R s t → R t s)
    (trans : ∀ s t u, R s t → R t u → R s u)
    (quiet : ∀ a s t, fine a → hidden a = true → R s t → R (step a s) t)
    (loud : ∀ a s t, fine a → hidden a = false → R s t → R (step a s) (step a t))
    {first second : List α} (fine₁ : ∀ a ∈ first, fine a) (fine₂ : ∀ a ∈ second, fine a)
    (same : first.filter (fun a => !hidden a) = second.filter (fun a => !hidden a)) (s : σ) :
    R (drive step first s) (drive step second s) := by
  have left := drive_visible quiet loud first s s fine₁ (refl s)
  have right := drive_visible quiet loud second s s fine₂ (refl s)
  rw [same] at left
  exact trans _ _ _ left (symm _ _ right)

end Unwinding

end RelayFabric.Lib
