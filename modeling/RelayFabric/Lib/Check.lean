/- layer: library
   digest: Checks made one after another, and when all of them pass. -/

import Mathlib.Logic.Basic

namespace RelayFabric.Lib

variable {α ε : Type}

def ensure (holds : Bool) (error : ε) : Except ε Unit :=
  if holds then .ok () else .error error

def checkAll (check : α → Except ε Unit) : List α → Except ε Unit
  | [] => .ok ()
  | x :: rest => do
    check x
    checkAll check rest

def checkInTurn (check : List α → α → Except ε Unit) : List α → List α → Except ε Unit
  | _, [] => .ok ()
  | seen, x :: rest => do
    check seen x
    checkInTurn check (seen ++ [x]) rest

@[simp] theorem ensure_ok {holds : Bool} {error : ε} :
    ensure holds error = .ok () ↔ holds = true := by
  cases holds <;> simp [ensure]

theorem seq_ok {first rest : Except ε Unit} :
    (do first; rest) = .ok () ↔ first = .ok () ∧ rest = .ok () := by
  cases first with
  | error e =>
    constructor
    · intro failed
      cases failed
    · intro both
      cases both.1
  | ok u => exact ⟨fun passed => ⟨rfl, passed⟩, fun both => both.2⟩

theorem checkAll_ok {check : α → Except ε Unit} {entries : List α} :
    checkAll check entries = .ok () ↔ ∀ x ∈ entries, check x = .ok () := by
  induction entries with
  | nil => simp [checkAll]
  | cons x rest ih => rw [checkAll, seq_ok, ih, List.forall_mem_cons]

theorem checkInTurn_ok {check : List α → α → Except ε Unit} {entries : List α} :
    ∀ {seen : List α}, checkInTurn check seen entries = .ok () →
      ∀ x ∈ entries, ∃ before, check before x = .ok () := by
  induction entries with
  | nil => exact fun _ x member => absurd member List.not_mem_nil
  | cons first rest ih =>
    intro seen passed x member
    obtain ⟨head, tail⟩ := seq_ok.mp passed
    rcases List.mem_cons.mp member with rfl | later
    · exact ⟨seen, head⟩
    · exact ih tail x later

end RelayFabric.Lib
