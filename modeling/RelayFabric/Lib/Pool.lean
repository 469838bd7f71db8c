/- layer: library
   digest: Programs that run side by side, each at a stage of its own discipline. -/

import RelayFabric.Lib.Prog

namespace RelayFabric.Lib

open List

variable {κ ι σ α Q : Type}

/-- Every program of the list, under the discipline of its kind, stands at its stage; beyond the
list every stage is the first one. -/
structure Staged (step : κ → Q → ι → σ → σ → Q → Prop) (final : Q → α → Prop) (first : Q)
    (stage : Nat → Q) (calls : List (κ × Prog ι σ α)) : Prop where
  follows : ∀ i kind p, calls[i]? = some (kind, p) →
    Prog.Follows (fun _ => True) (step kind) final (stage i) p
  beyond : ∀ i, calls.length ≤ i → stage i = first

namespace Staged

variable {step : κ → Q → ι → σ → σ → Q → Prop} {final : Q → α → Prop} {first : Q}
  {stage : Nat → Q} {calls : List (κ × Prog ι σ α)}

theorem nil : Staged step final first (fun _ => first) ([] : List (κ × Prog ι σ α)) :=
  ⟨fun i kind p found => by simp at found, fun _ _ => rfl⟩

theorem enter (staged : Staged step final first stage calls) {kind : κ} {p : Prog ι σ α} {q : Q}
    (starts : Prog.Follows (fun _ => True) (step kind) final q p) :
    Staged step final first (Function.update stage calls.length q) (calls ++ [(kind, p)]) := by
  constructor
  · intro i kind' p' found
    rw [List.getElem?_append] at found
    split at found
    · next early =>
      rw [Function.update_of_ne (by omega)]
      exact staged.follows i kind' p' found
    · next late =>
      have member := mem_singleton.mp (mem_of_getElem? found)
      have bound := (List.getElem?_eq_some_iff.mp found).1
      rw [length_singleton] at bound
      cases member
      rw [show i = calls.length by omega, Function.update_self]
      exact starts
  · intro i late
    rw [length_append, length_singleton] at late
    rw [Function.update_of_ne (by omega)]
    exact staged.beyond i (by omega)

theorem spawn (staged : Staged step final first stage calls) {kind : κ} {p : Prog ι σ α}
    (starts : Prog.Follows (fun _ => True) (step kind) final first p) :
    Staged step final first stage (calls ++ [(kind, p)]) := by
  have entered := staged.enter starts
  rwa [Function.update_eq_self_iff.mpr (staged.beyond _ (Nat.le_refl _)).symm] at entered

/-- One call runs its next section: the discipline offers the stage it moves to, and every other
call stays at its own. -/
theorem act (staged : Staged step final first stage calls) {i : Nat} {kind : κ}
    {label : ι} {effect : σ → σ} {next : σ → Prog ι σ α}
    (running : calls[i]? = some (kind, .act label effect next)) (s : σ) :
    ∃ q, step kind (stage i) label s (effect s) q ∧
      Staged step final first (Function.update stage i q) (calls.set i (kind, next s)) := by
  obtain ⟨q, offered, later⟩ := Prog.follows_act (staged.follows i kind _ running) (s := s) trivial
  have bound : i < calls.length := (List.getElem?_eq_some_iff.mp running).1
  refine ⟨q, offered, ?_, ?_⟩
  · intro j kind' p found
    by_cases same : j = i
    · subst same
      rw [List.getElem?_set_self bound] at found
      cases found
      rw [Function.update_self]
      exact later
    · rw [List.getElem?_set_ne (Ne.symm same)] at found
      rw [Function.update_of_ne same]
      exact staged.follows j kind' p found
  · intro j late
    rw [length_set] at late
    rw [Function.update_of_ne (by omega)]
    exact staged.beyond j late

end Staged

end RelayFabric.Lib
