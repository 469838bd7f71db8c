/- layer: library
   digest: Programs cut at their critical sections, with atomic and interleaved readings. -/

import Mathlib.Logic.Relation
import Mathlib.Data.List.Forall2
import Mathlib.Data.List.GetD

namespace RelayFabric.Lib

/-- A program over a shared state, cut where it takes and gives up a lock.
One section changes the state at once; what follows may depend on the state the
section found. -/
inductive Prog (ι σ α : Type) : Type
  | ret (a : α)
  | act (label : ι) (effect : σ → σ) (next : σ → Prog ι σ α)

namespace Prog

variable {ι σ α β Q : Type}

def bind : Prog ι σ α → (α → Prog ι σ β) → Prog ι σ β
  | ret a, rest => rest a
  | act label effect next, rest => act label effect (fun s => (next s).bind rest)

instance : Monad (Prog ι σ) where
  pure := ret
  bind := bind

def critical (label : ι) (body : σ → α × σ) : Prog ι σ α :=
  act label (fun s => (body s).2) (fun s => ret (body s).1)

def observe (label : ι) (read : σ → α) : Prog ι σ α := critical label (fun s => (read s, s))

def modify (label : ι) (write : σ → σ) : Prog ι σ Unit := critical label (fun s => ((), write s))

def run : Prog ι σ α → σ → α × σ
  | ret a, s => (a, s)
  | act _ effect next, s => (next s).run (effect s)

def label? : Prog ι σ α → Option ι
  | ret _ => none
  | act label _ _ => some label

def result? : Prog ι σ α → Option α
  | ret a => some a
  | act _ _ _ => none

@[simp] theorem run_pure (a : α) (s : σ) : (pure a : Prog ι σ α).run s = (a, s) := rfl

@[simp] theorem run_critical (label : ι) (body : σ → α × σ) (s : σ) :
    (critical label body).run s = body s := rfl

@[simp] theorem run_observe (label : ι) (read : σ → α) (s : σ) :
    (observe label read).run s = (read s, s) := rfl

@[simp] theorem run_modify (label : ι) (write : σ → σ) (s : σ) :
    (modify label write).run s = ((), write s) := rfl

@[simp] theorem run_bind (p : Prog ι σ α) (rest : α → Prog ι σ β) (s : σ) :
    (p >>= rest).run s = (rest (p.run s).1).run (p.run s).2 := by
  induction p generalizing s with
  | ret a => rfl
  | act label effect next ih => exact ih ..

theorem run_critical_bind (label : ι) (body : σ → α × σ) (rest : α → Prog ι σ β) (s : σ) :
    (critical label body >>= rest).run s = (rest (body s).1).run (body s).2 := rfl

theorem run_observe_bind (label : ι) (read : σ → α) (rest : α → Prog ι σ β) (s : σ) :
    (observe label read >>= rest).run s = (rest (read s)).run s := rfl

theorem run_modify_bind (label : ι) (write : σ → σ) (rest : Unit → Prog ι σ β) (s : σ) :
    (modify label write >>= rest).run s = (rest ()).run (write s) := rfl

theorem run_bind_of {p : Prog ι σ α} {rest : α → Prog ι σ β} {s s' : σ} {a : α}
    (first : p.run s = (a, s')) : (p >>= rest).run s = (rest a).run s' := by
  rw [run_bind, first]

@[simp] theorem run_ite (c : Prop) [Decidable c] (p q : Prog ι σ α) (s : σ) :
    (if c then p else q).run s = if c then p.run s else q.run s := by
  split <;> rfl

/-- The program keeps to a typestate discipline: from phase `q`, each section it enters is
one the discipline offers there, as long as the states it finds are `ok`, and it returns
only where `final` holds. -/
def Follows (ok : σ → Prop) (step : Q → ι → σ → σ → Q → Prop) (final : Q → α → Prop) :
    Q → Prog ι σ α → Prop
  | q, ret a => final q a
  | q, act label effect next =>
    ∀ s, ok s → ∃ q', step q label s (effect s) q' ∧ Follows ok step final q' (next s)

section Follows

variable {ok : σ → Prop} {step : Q → ι → σ → σ → Q → Prop} {final : Q → α → Prop}
  {done : Q → β → Prop} {q : Q}

theorem follows_pure {a : α} (holds : final q a) :
    Follows ok step final q (pure a : Prog ι σ α) := holds

theorem follows_bind {p : Prog ι σ α} {rest : α → Prog ι σ β} (first : Follows ok step final q p)
    (second : ∀ q' a, final q' a → Follows ok step done q' (rest a)) :
    Follows ok step done q (p >>= rest) := by
  induction p generalizing q with
  | ret a => exact second q a first
  | act label effect next ih =>
    intro s fine
    obtain ⟨q', offered, remains⟩ := first s fine
    exact ⟨q', offered, ih s remains⟩

theorem follows_critical_bind {label : ι} {body : σ → α × σ} {rest : α → Prog ι σ β}
    (each : ∀ s, ok s →
      ∃ q', step q label s (body s).2 q' ∧ Follows ok step done q' (rest (body s).1)) :
    Follows ok step done q (critical label body >>= rest) := each

theorem follows_critical {label : ι} {body : σ → α × σ}
    (each : ∀ s, ok s → ∃ q', step q label s (body s).2 q' ∧ final q' (body s).1) :
    Follows ok step final q (critical label body) := each

theorem follows_observe_bind {label : ι} {read : σ → α} {rest : α → Prog ι σ β}
    (each : ∀ s, ok s → ∃ q', step q label s s q' ∧ Follows ok step done q' (rest (read s))) :
    Follows ok step done q (observe label read >>= rest) := each

theorem follows_modify_bind {label : ι} {write : σ → σ} {rest : Unit → Prog ι σ β}
    (each : ∀ s, ok s → ∃ q', step q label s (write s) q' ∧ Follows ok step done q' (rest ())) :
    Follows ok step done q (modify label write >>= rest) := each

theorem follows_modify {label : ι} {write : σ → σ} {finished : Q → Unit → Prop}
    (each : ∀ s, ok s → ∃ q', step q label s (write s) q' ∧ finished q' ()) :
    Follows ok step finished q (modify label write) := each

theorem follows_ite {c : Prop} [Decidable c] {p p' : Prog ι σ α}
    (yes : c → Follows ok step final q p) (no : ¬c → Follows ok step final q p') :
    Follows ok step final q (if c then p else p') := by
  split
  · exact yes ‹_›
  · exact no ‹_›

theorem follows_act {label : ι} {effect : σ → σ} {next : σ → Prog ι σ α}
    (given : Follows ok step final q (act label effect next)) {s : σ} (fine : ok s) :
    ∃ q', step q label s (effect s) q' ∧ Follows ok step final q' (next s) :=
  given s fine

theorem follows_ret {a : α} (given : Follows ok step final q (ret a : Prog ι σ α)) : final q a :=
  given

theorem follows_final {final' : Q → α → Prop} {p : Prog ι σ α} (given : Follows ok step final q p)
    (weaker : ∀ q a, final q a → final' q a) : Follows ok step final' q p := by
  induction p generalizing q with
  | ret a => exact weaker q a given
  | act label effect next ih =>
    intro s fine
    obtain ⟨q', offered, remains⟩ := given s fine
    exact ⟨q', offered, ih s remains⟩

/-- The invariant rule for atomic runs: what every offered section keeps holds at the end, in a
final phase. -/
theorem follows_run {p : Prog ι σ α} {I : Q → σ → Prop} (given : Follows ok step final q p) {s : σ}
    (fine : ∀ q s, I q s → ok s) (keeps : ∀ q label s s' q', I q s → step q label s s' q' → I q' s')
    (start : I q s) : ∃ q', final q' (p.run s).1 ∧ I q' (p.run s).2 := by
  induction p generalizing q s with
  | ret a => exact ⟨q, given, start⟩
  | act label effect next ih =>
    obtain ⟨q', offered, remains⟩ := given s (fine q s start)
    exact ih s remains (keeps q label s (effect s) q' start offered)

end Follows

inductive MayReturn (ok : σ → Prop) : Prog ι σ α → α → Prop
  | ret (a : α) : MayReturn ok (ret a) a
  | act {label : ι} {effect : σ → σ} {next : σ → Prog ι σ α} {s : σ} {a : α} (fine : ok s)
      (rest : MayReturn ok (next s) a) : MayReturn ok (act label effect next) a

theorem follows_bind_mayReturn {ok : σ → Prop} {step : Q → ι → σ → σ → Q → Prop} {I : Q → Prop}
    {done : Q → β → Prop} {q : Q} {p : Prog ι σ α} {rest : α → Prog ι σ β}
    (first : Follows ok step (fun q' _ => I q') q p)
    (second : ∀ q' a, I q' → MayReturn ok p a → Follows ok step done q' (rest a)) :
    Follows ok step done q (p >>= rest) := by
  induction p generalizing q with
  | ret a => exact second q a first (.ret a)
  | act label effect next ih =>
    intro s fine
    obtain ⟨q', offered, remains⟩ := first s fine
    exact ⟨q', offered, ih s remains (fun q'' a holds returned =>
      second q'' a holds (.act fine returned))⟩

def Throughout (move : ι → σ → σ → Prop) (ok : σ → Prop) (p : Prog ι σ α) : Prop :=
  Follows ok (fun _ label s s' (_ : Unit) => move label s s') (fun _ _ => True) () p

abbrev Always (move : ι → σ → σ → Prop) (p : Prog ι σ α) : Prop := Throughout move (fun _ => True) p

section Always

variable {ok : σ → Prop} {move : ι → σ → σ → Prop}

theorem always_of_follows {p : Prog ι σ α} (given : Follows (fun _ => True)
    (fun _ label s s' (_ : Unit) => move label s s') (fun _ _ => True) () p) :
    Always move p := given

theorem always_pure (a : α) : Throughout move ok (pure a : Prog ι σ α) := trivial

theorem always_bind {p : Prog ι σ α} {rest : α → Prog ι σ β} (first : Throughout move ok p)
    (second : ∀ a, Throughout move ok (rest a)) : Throughout move ok (p >>= rest) :=
  follows_bind first (fun _ a _ => second a)

theorem always_critical {label : ι} {body : σ → α × σ}
    (each : ∀ s, move label s (body s).2) : Throughout move ok (critical label body) :=
  fun s _ => ⟨(), each s, trivial⟩

theorem always_observe {label : ι} {read : σ → α}
    (each : ∀ s, move label s s) : Throughout move ok (observe label read) :=
  fun s _ => ⟨(), each s, trivial⟩

theorem always_observe_bind {label : ι} {read : σ → α} {rest : α → Prog ι σ β}
    (each : ∀ s, move label s s) (second : ∀ s, ok s → Throughout move ok (rest (read s))) :
    Throughout move ok (observe label read >>= rest) :=
  fun s fine => ⟨(), each s, second s fine⟩

theorem always_modify {label : ι} {write : σ → σ}
    (each : ∀ s, move label s (write s)) : Throughout move ok (modify label write) :=
  fun s _ => ⟨(), each s, trivial⟩

theorem always_dite {c : Prop} [Decidable c] {p p' : Prog ι σ α} (yes : c → Throughout move ok p)
    (no : ¬c → Throughout move ok p') : Throughout move ok (if c then p else p') :=
  follows_ite yes no

theorem always_ite {c : Prop} [Decidable c] {p p' : Prog ι σ α} (yes : Throughout move ok p)
    (no : Throughout move ok p') : Throughout move ok (if c then p else p') :=
  always_dite (fun _ => yes) (fun _ => no)

theorem throughout_act {label : ι} {effect : σ → σ} {next : σ → Prog ι σ α}
    (given : Throughout move ok (act label effect next)) {s : σ} (fine : ok s) :
    move label s (effect s) ∧ Throughout move ok (next s) := by
  obtain ⟨_, offered, remains⟩ := given s fine
  exact ⟨offered, remains⟩

theorem always_act {label : ι} {effect : σ → σ} {next : σ → Prog ι σ α}
    (given : Always move (act label effect next)) (s : σ) :
    move label s (effect s) ∧ Always move (next s) :=
  throughout_act given trivial

theorem always_mono {move' : ι → σ → σ → Prop} {p : Prog ι σ α} (given : Throughout move ok p)
    (weaker : ∀ label s s', move label s s' → move' label s s') : Throughout move' ok p := by
  induction p with
  | ret a => exact trivial
  | act label effect next ih =>
    intro s fine
    obtain ⟨_, offered, remains⟩ := given s fine
    exact ⟨(), weaker _ _ _ offered, ih s remains⟩

theorem follows_within {p : Prog ι σ α} {ok : σ → Prop} {step : Q → ι → σ → σ → Q → Prop}
    {I : Q → Prop} {q : Q} (given : Always move p)
    (stays : ∀ q label s s', I q → move label s s' → ∃ q', step q label s s' q' ∧ I q')
    (start : I q) : Follows ok step (fun q' _ => I q') q p := by
  induction p generalizing q with
  | ret a => exact start
  | act label effect next ih =>
    intro s _
    obtain ⟨_, offered, remains⟩ := given s trivial
    obtain ⟨q', taken, within⟩ := stays q label s (effect s) start offered
    exact ⟨q', taken, ih s remains within⟩

theorem follows_of_always {p : Prog ι σ α} {ok : σ → Prop} {step : Q → ι → σ → σ → Q → Prop} {q : Q}
    (given : Always move p) (stays : ∀ label s s', move label s s' → step q label s s' q) :
    Follows ok step (fun q' _ => q' = q) q p := by
  refine follows_within given (fun q' label s s' same offered => ?_) rfl
  subst same
  exact ⟨q', stays label s s' offered, rfl⟩

theorem always_run {p : Prog ι σ α} {I : σ → Prop} (given : Always move p)
    (keeps : ∀ label s s', I s → move label s s' → I s') {s : σ} (start : I s) : I (p.run s).2 := by
  obtain ⟨_, _, holds⟩ := @follows_run ι σ α Unit _ _ _ () p (fun _ s => I s) given s
    (fun _ _ _ => trivial) (fun _ label s s' _ => keeps label s s') start
  exact holds

end Always

-- The rules above are the interface: unfolding the recursion would evaluate the guards of a
-- concrete program.
attribute [irreducible] Follows Throughout

end Prog

end RelayFabric.Lib
