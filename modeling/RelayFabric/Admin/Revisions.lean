/- source: admin.rs (write_config_replacing_current, swap_with_prev, config_put, config_rollback)
   digest: The config file and its retained revisions, one file operation at a time. -/

import Mathlib.Logic.Function.Basic
import RelayFabric.Lib.Run

namespace RelayFabric

open Lib Option Function

/-- The config file, the scratch name, and slot `n` of the history (`.prev`, `.prev.2`, …). -/
inductive ConfigPath
  | live
  | tmp
  | prev (n : Nat)
  deriving DecidableEq, Repr

abbrev Files := ConfigPath → Option String

/-- The operations of a call, each of which occurs once in it. A write that fails leaves a part of
the text. -/
inductive FileOp
  | openTmp
  | write (kept : Nat)
  | remove
  | rename (src dst : ConfigPath)
  | chmod (path : ConfigPath)
  | read
  deriving DecidableEq, Repr

def configHistory : Nat := 5

namespace Files

def attempt (fault : Option FileOp) (op : FileOp) (effect : Files → Option Files) (fs : Files) :
    Except Files Files :=
  if fault = some op then .error fs
  else match effect fs with
    | some fs' => .ok fs'
    | none => .error fs

def move (src dst : ConfigPath) (fs : Files) : Option Files :=
  (fs src).map (fun text => Function.update (Function.update fs src none) dst (some text))

def rename (fault : Option FileOp) (src dst : ConfigPath) (fs : Files) : Except Files Files :=
  fs.attempt fault (.rename src dst) (move src dst)

def chmod (fault : Option FileOp) (path : ConfigPath) (fs : Files) : Except Files Files :=
  fs.attempt fault (.chmod path) some

def openTmp (fault : Option FileOp) (fs : Files) : Except Files Files :=
  fs.attempt fault .openTmp (fun fs => some (Function.update fs .tmp (some "")))

def writeAll (fault : Option FileOp) (text : String) (fs : Files) : Except Files Files :=
  match fault with
  | some (.write kept) =>
    .error (Function.update fs .tmp (some (String.ofList (text.toList.take kept))))
  | _ => .ok (Function.update fs .tmp (some text))

def removeOldest (fault : Option FileOp) (fs : Files) : Files :=
  if fault = some .remove then fs else Function.update fs (.prev configHistory) none

def rotate (fault : Option FileOp) (n : Nat) (fs : Files) : Except Files Files :=
  if (fs (.prev n)).isSome then do
    let fs ← fs.rename fault (.prev n) (.prev (n + 1))
    fs.chmod fault (.prev (n + 1))
  else .ok fs

def rotateAll (fault : Option FileOp) : Nat → Files → Except Files Files
  | 0, fs => .ok fs
  | n + 1, fs => fs.rotate fault (n + 1) >>= rotateAll fault n

def install (fault : Option FileOp) (fs : Files) : Except Files Files :=
  if (fs .live).isSome then do
    let fs ← fs.rename fault .live (.prev 1)
    let fs ← fs.rename fault .tmp .live
    let fs ← fs.chmod fault (.prev 1)
    fs.chmod fault .live
  else do
    let fs ← fs.rename fault .tmp .live
    fs.chmod fault .live

def writeConfigReplacingCurrent (fault : Option FileOp) (text : String) (fs : Files) :
    Except Files Files := do
  let fs ← fs.openTmp fault
  let fs ← fs.writeAll fault text
  let fs ← (fs.removeOldest fault).rotateAll fault (configHistory - 1)
  fs.install fault

def swapWithPrev (fault : Option FileOp) (fs : Files) : Except Files Files := do
  let fs ← fs.rename fault .live .tmp
  let fs ← fs.rename fault (.prev 1) .live
  let fs ← fs.rename fault .tmp (.prev 1)
  let fs ← fs.chmod fault .live
  fs.chmod fault (.prev 1)

def Has (fs : Files) (text : String) : Prop :=
  fs .live = some text ∨ ∃ n, 1 ≤ n ∧ n ≤ configHistory ∧ fs (.prev n) = some text

instance (fs : Files) (text : String) : Decidable (fs.Has text) :=
  decidable_of_iff (fs .live = some text ∨ ∃ n ∈ List.range' 1 configHistory,
    fs (.prev n) = some text) (by
    unfold Has
    refine or_congr Iff.rfl (exists_congr fun n => ?_)
    rw [List.mem_range'_1, and_assoc]
    constructor
    · rintro ⟨lower, upper, same⟩
      exact ⟨lower, by omega, same⟩
    · rintro ⟨lower, upper, same⟩
      exact ⟨lower, by omega, same⟩)

end Files

structure ConfigStore where
  files : Files
  running : String

inductive ConfigCall
  | put (text : String)
  | rollback (loads : Bool)
  deriving DecidableEq, Repr

inductive ConfigStatus
  | ok
  | notFound
  | conflict
  | serverError
  deriving DecidableEq, Repr

namespace ConfigStore

def configPut (fault : Option FileOp) (text : String) (s : ConfigStore) :
    ConfigStatus × ConfigStore :=
  match s.files.writeConfigReplacingCurrent fault text with
  | .error files => (.serverError, { s with files := files })
  | .ok files => (.ok, ⟨files, text⟩)

def configRollback (fault : Option FileOp) (loads : Bool) (s : ConfigStore) :
    ConfigStatus × ConfigStore :=
  match s.files (.prev 1) with
  | none => (.notFound, s)
  | some text =>
    if fault = some .read then (.serverError, s)
    else if !loads then (.conflict, s)
    else match s.files.swapWithPrev fault with
      | .error files => (.serverError, { s with files := files })
      | .ok files => (.ok, ⟨files, text⟩)

def call (s : ConfigStore) (fault : Option FileOp) : ConfigCall → ConfigStatus × ConfigStore
  | .put text => s.configPut fault text
  | .rollback loads => s.configRollback fault loads

def step (move : ConfigCall × Option FileOp) (s : ConfigStore) : Option ConfigStore :=
  some (s.call move.2 move.1).2

def target (s : ConfigStore) : ConfigCall → Option String
  | .put text => some text
  | .rollback _ => s.files (.prev 1)

end ConfigStore

/-- The operation that fails, if any, fails before a rename of the call has taken effect. -/
def Early (fs : Files) : ConfigCall → Option FileOp → Prop
  | _, none => True
  | .put _, some .openTmp => True
  | .put _, some (.write _) => True
  | .put _, some .remove => True
  | .put _, some (.rename (.prev n) dst) => dst = .prev (n + 1) ∧
      ∀ m < configHistory, n < m → fs (.prev m) = none
  | .put _, some (.rename .live dst) =>
    dst = .prev 1 ∧ ∀ m < configHistory, 0 < m → fs (.prev m) = none
  | .rollback _, some .read => True
  | .rollback _, some (.rename .live dst) => dst = .tmp
  | _, some _ => False

structure FailureSafe (s : ConfigStore) (call : ConfigCall) (result : ConfigStatus × ConfigStore) :
    Prop where
  live : ∃ text, result.2.files .live = some text ∧
    (s.files .live = some text ∨ s.target call = some text)
  failed : result.1 = .serverError → result.2.files .live = some result.2.running ∧
    result.2.running = s.running
  kept : ∀ text, (s.files .live = some text ∨ ∃ n, 1 ≤ n ∧ n < configHistory ∧
    s.files (.prev n) = some text) → result.2.files.Has text
  spared : ∀ loads, call = .rollback loads → ∀ text, s.files.Has text → result.2.files.Has text
  keptNext : result.1 = .serverError → ∀ text, (s.files .live = some text ∨ ∃ n, 1 ≤ n ∧
    n < configHistory ∧ s.files (.prev n) = some text) → ∀ new,
    (result.2.configPut none new).1 = .ok ∧ (result.2.configPut none new).2.files.Has text

namespace Files

variable {fault : Option FileOp} {fs : Files} {text : String}

private theorem ok_bind (next : Files → Except Files Files) :
    (Except.ok fs >>= next) = next fs := rfl

private theorem error_bind (next : Files → Except Files Files) :
    (Except.error fs >>= next) = Except.error fs := rfl

theorem rename_ok {src dst : ConfigPath} (works : fault ≠ some (.rename src dst))
    (found : fs src = some text) :
    fs.rename fault src dst =
      .ok (Function.update (Function.update fs src none) dst (some text)) := by
  unfold rename attempt move
  rw [if_neg works, found]
  rfl

theorem rename_fails {src dst : ConfigPath} (fails : fault = some (.rename src dst)) :
    fs.rename fault src dst = .error fs := by
  unfold rename attempt
  rw [if_pos fails]

variable {path : ConfigPath} {n k : Nat} {old : String}

theorem chmod_ok (works : fault ≠ some (.chmod path)) : fs.chmod fault path = .ok fs := by
  unfold chmod attempt
  rw [if_neg works]

def shift (n : Nat) (fs : Files) : Files :=
  Function.update (Function.update fs (.prev n) none) (.prev (n + 1))
    ((fs (.prev n)).or (fs (.prev (n + 1))))

def shiftAll : Nat → Files → Files
  | 0, fs => fs
  | n + 1, fs => shiftAll n (fs.shift (n + 1))

theorem shift_of_ne (ne : path ≠ .prev n) (ne' : path ≠ .prev (n + 1)) :
    fs.shift n path = fs path := by
  unfold shift
  rw [update_of_ne ne', update_of_ne ne]

theorem shift_next (n : Nat) :
    fs.shift n (.prev (n + 1)) = (fs (.prev n)).or (fs (.prev (n + 1))) :=
  update_self ..

theorem shift_self (n : Nat) : fs.shift n (.prev n) = none := by
  have ne : ConfigPath.prev n ≠ .prev (n + 1) := by simp
  unfold shift
  rw [update_of_ne ne, update_self]

theorem rotate_ok (works : fs (.prev n) ≠ none → fault ≠ some (.rename (.prev n) (.prev (n + 1))))
    (mode : fault ≠ some (.chmod (.prev (n + 1)))) : fs.rotate fault n = .ok (fs.shift n) := by
  unfold rotate
  cases found : fs (.prev n) with
  | some text =>
    rw [if_pos isSome_some, rename_ok (works (by rw [found]; exact nofun)) found]
    rw [ok_bind, chmod_ok mode]
    unfold shift
    rw [found]
    rfl
  | none =>
    rw [if_neg (by exact nofun)]
    congr 1
    funext path
    by_cases next : path = .prev (n + 1)
    · rw [next, shift_next, found]
      rfl
    · by_cases same : path = .prev n
      · rw [same, shift_self, found]
      · rw [shift_of_ne same next]

theorem rotateAll_ok
    (works : ∀ n ≤ k, 0 < n → fs (.prev n) ≠ none →
      fault ≠ some (.rename (.prev n) (.prev (n + 1))))
    (modes : ∀ path, fault ≠ some (.chmod path)) : fs.rotateAll fault k = .ok (fs.shiftAll k) := by
  induction k generalizing fs with
  | zero => rfl
  | succ k ih =>
    rw [rotateAll, rotate_ok (works (k + 1) (Nat.le_refl _) (by omega)) (modes _)]
    refine ih ?_
    intro n le positive found
    have other : fs.shift (k + 1) (.prev n) = none ∨ fs.shift (k + 1) (.prev n) = fs (.prev n) := by
      by_cases same : n = k + 1
      · rw [same]
        exact Or.inl (shift_self _)
      · exact Or.inr (shift_of_ne (by simpa using same) (by simp; omega))
    rcases other with none | same
    · exact absurd none found
    · exact works n (by omega) positive (same ▸ found)

theorem rotateAll_fails (fails : fault = some (.rename (.prev n) (.prev (n + 1))))
    (positive : 0 < n) (le : n ≤ k) (found : fs (.prev n) ≠ none)
    (above : ∀ m ≤ k, n < m → fs (.prev m) = none) : fs.rotateAll fault k = .error fs := by
  induction k with
  | zero => omega
  | succ k ih =>
    by_cases last : n = k + 1
    · subst last
      rw [rotateAll, rotate, if_pos (isSome_iff_ne_none.mpr found), rename_fails fails]
      rfl
    · have skipped : fs (.prev (k + 1)) = none := above (k + 1) (Nat.le_refl _) (by omega)
      rw [rotateAll, rotate, if_neg (by rw [skipped]; exact nofun)]
      exact ih (by omega) (fun m bound more => above m (by omega) more)

theorem shiftAll_other (other : ∀ n, path ≠ .prev n) (k : Nat) :
    fs.shiftAll k path = fs path := by
  induction k generalizing fs with
  | zero => rfl
  | succ k ih => rw [shiftAll, ih, shift_of_ne (other _) (other _)]

theorem shiftAll_above (k : Nat) (above : k + 1 < n) : fs.shiftAll k (.prev n) = fs (.prev n) := by
  induction k generalizing fs with
  | zero => rfl
  | succ k ih => rw [shiftAll, ih (by omega), shift_of_ne (by simp; omega) (by simp; omega)]

theorem shiftAll_first (positive : 0 < k) : fs.shiftAll k (.prev 1) = none := by
  induction k generalizing fs with
  | zero => omega
  | succ k ih =>
    rw [shiftAll]
    cases k with
    | zero => exact shift_self 1
    | succ k => exact ih (by omega)

theorem shiftAll_last (k : Nat) (positive : 0 < k) :
    fs.shiftAll k (.prev (k + 1)) = (fs (.prev k)).or (fs (.prev (k + 1))) := by
  cases k with
  | zero => omega
  | succ k => rw [shiftAll, shiftAll_above k (by omega), shift_next]

theorem shiftAll_next (positive : 0 < n) (less : n < k) :
    fs.shiftAll k (.prev (n + 1)) = fs (.prev n) := by
  induction k generalizing fs with
  | zero => omega
  | succ k ih =>
    rw [shiftAll]
    by_cases last : n = k
    · subst last
      rw [shiftAll_last n positive, shift_self, or_none, shift_of_ne (by simp) (by simp; omega)]
    · rw [ih (by omega), shift_of_ne (by simp; omega) (by simp; omega)]

def prepared (fault : Option FileOp) (text : String) (fs : Files) : Files :=
  removeOldest fault (Function.update (Function.update fs .tmp (some "")) .tmp (some text))

theorem prepared_tmp : fs.prepared fault text .tmp = some text := by
  unfold prepared removeOldest
  split
  · exact update_self ..
  · rw [update_of_ne (by exact nofun)]
    exact update_self ..

theorem prepared_other (tmp : path ≠ .tmp) (oldest : path ≠ .prev configHistory) :
    fs.prepared fault text path = fs path := by
  unfold prepared removeOldest
  split
  · rw [update_of_ne tmp, update_of_ne tmp]
  · rw [update_of_ne oldest, update_of_ne tmp, update_of_ne tmp]

theorem prepared_prev (less : n < configHistory) :
    fs.prepared fault text (.prev n) = fs (.prev n) :=
  prepared_other (by exact nofun) (by simp; omega)

theorem prepared_oldest :
    fs.prepared fault text (.prev configHistory) = fs.removeOldest fault (.prev configHistory) := by
  unfold prepared removeOldest
  split
  · rw [update_of_ne (by exact nofun), update_of_ne (by exact nofun)]
  · rw [update_self, update_self]

theorem writeConfig_prepared (opens : fault ≠ some .openTmp)
    (writes : ∀ kept, fault ≠ some (.write kept)) :
    fs.writeConfigReplacingCurrent fault text =
      ((fs.prepared fault text).rotateAll fault (configHistory - 1) >>= install fault) := by
  have opened : fs.openTmp fault = .ok (Function.update fs .tmp (some "")) := by
    unfold openTmp attempt
    rw [if_neg opens]
  have written : ∀ fs : Files, fs.writeAll fault text =
      .ok (Function.update fs .tmp (some text)) := by
    intro fs
    unfold writeAll
    split
    · exact absurd rfl (writes _)
    · rfl
  unfold writeConfigReplacingCurrent
  rw [opened, ok_bind, written, ok_bind]
  rfl

theorem writeConfig_ok (opens : fault ≠ some .openTmp) (writes : ∀ kept, fault ≠ some (.write kept))
    (rotates : ∀ n < configHistory, 0 < n → fs (.prev n) ≠ none →
      fault ≠ some (.rename (.prev n) (.prev (n + 1))))
    (retires : fault ≠ some (.rename .live (.prev 1)))
    (installs : fault ≠ some (.rename .tmp .live))
    (modes : ∀ path, fault ≠ some (.chmod path)) (exists_live : fs .live = some old) :
    ∃ fs', fs.writeConfigReplacingCurrent fault text = .ok fs' ∧ fs' .live = some text ∧
      fs' .tmp = none ∧ fs' (.prev 1) = some old ∧
      (∀ n, 0 < n → n < configHistory - 1 → fs' (.prev (n + 1)) = fs (.prev n)) ∧
      fs' (.prev configHistory) =
        (fs (.prev (configHistory - 1))).or (fs.removeOldest fault (.prev configHistory)) := by
  have rotated : (fs.prepared fault text).rotateAll fault (configHistory - 1) =
      .ok ((fs.prepared fault text).shiftAll (configHistory - 1)) := by
    refine rotateAll_ok ?_ modes
    intro n le positive found
    have less : n < configHistory := by
      omega
    rw [prepared_prev less] at found
    exact rotates n less positive found
  have live : (fs.prepared fault text).shiftAll (configHistory - 1) .live = some old := by
    rw [shiftAll_other (by exact nofun), prepared_other (by exact nofun) (by exact nofun),
      exists_live]
  have tmp : (fs.prepared fault text).shiftAll (configHistory - 1) .tmp = some text := by
    rw [shiftAll_other (by exact nofun), prepared_tmp]
  rw [writeConfig_prepared opens writes, rotated, ok_bind, install, if_pos (by rw [live]; rfl),
    rename_ok retires live, ok_bind,
    rename_ok installs (by
      exact tmp),
    ok_bind, chmod_ok (modes _), ok_bind, chmod_ok (modes _)]
  refine ⟨_, rfl, update_self .., ?_, ?_, ?_, ?_⟩
  · rw [update_of_ne (by exact nofun), update_self]
  · rw [update_of_ne (by exact nofun), update_of_ne (by exact nofun), update_self]
  · intro n positive less
    have next : ConfigPath.prev (n + 1) ≠ .prev 1 := by simp; omega
    rw [update_of_ne (by exact nofun), update_of_ne (by exact nofun),
      update_of_ne next, update_of_ne (by exact nofun), shiftAll_next positive less,
      prepared_prev (by omega)]
  · have oldest : ConfigPath.prev configHistory ≠ .prev 1 := by decide
    change shiftAll (configHistory - 1) _ (.prev (configHistory - 1 + 1)) = _
    rw [shiftAll_last _ (by decide), prepared_prev (by decide)]
    congr 1
    exact prepared_oldest

theorem writeConfig_push (exists_live : fs .live = some old) :
    ∃ fs', fs.writeConfigReplacingCurrent none text = .ok fs' ∧ fs' .live = some text ∧
      fs' .tmp = none ∧ fs' (.prev 1) = some old ∧
      ∀ n, 0 < n → n < configHistory → fs' (.prev (n + 1)) = fs (.prev n) := by
  obtain ⟨fs', done, live, tmp, first, next, last⟩ :=
    @writeConfig_ok none fs text old nofun nofun nofun nofun nofun nofun exists_live
  refine ⟨fs', done, live, tmp, first, ?_⟩
  intro n positive less
  by_cases oldest : n = configHistory - 1
  · subst oldest
    change fs' (.prev configHistory) = _
    rw [last, removeOldest, if_neg nofun, update_self, or_none]
  · exact next n positive (by omega)

def Untouched (fs fs' : Files) : Prop :=
  fs' .live = fs .live ∧ ∀ n, 0 < n → n < configHistory → fs' (.prev n) = fs (.prev n)

theorem untouched_prepared (fault : Option FileOp) (text : String) (fs : Files) :
    fs.Untouched (fs.prepared fault text) :=
  ⟨prepared_other (by exact nofun) (by exact nofun), fun _ _ less => prepared_prev less⟩

theorem writeConfig_early (exists_live : fs .live = some old) (early : Early fs (.put text) fault) :
    (∃ fs', fs.writeConfigReplacingCurrent fault text = .error fs' ∧ fs.Untouched fs') ∨
    ∃ fs', fs.writeConfigReplacingCurrent fault text = .ok fs' ∧ fs' .live = some text ∧
      fs' (.prev 1) = some old ∧
      ∀ n kept, 0 < n → n < configHistory → fs (.prev n) = some kept →
        fs' (.prev (n + 1)) = some kept := by
  -- an operation that a PUT does not come to
  have pushed : fault ≠ some .openTmp → (∀ kept, fault ≠ some (.write kept)) →
      (∀ n < configHistory, 0 < n → fs (.prev n) ≠ none →
        fault ≠ some (.rename (.prev n) (.prev (n + 1)))) →
      fault ≠ some (.rename .live (.prev 1)) → fault ≠ some (.rename .tmp .live) →
      (∀ path, fault ≠ some (.chmod path)) →
      ∃ fs', fs.writeConfigReplacingCurrent fault text = .ok fs' ∧ fs' .live = some text ∧
        fs' (.prev 1) = some old ∧
        ∀ n kept, 0 < n → n < configHistory → fs (.prev n) = some kept →
          fs' (.prev (n + 1)) = some kept := by
    intro opens writes rotates retires installs modes
    obtain ⟨fs', done, live, _, first, next, last⟩ :=
      writeConfig_ok opens writes rotates retires installs modes exists_live
    refine ⟨fs', done, live, first, ?_⟩
    intro n kept positive less found
    by_cases oldest : n = configHistory - 1
    · subst oldest
      change fs' (.prev configHistory) = _
      rw [last, found]
      rfl
    · rw [next n positive (by omega), found]
  cases fault with
  | none => exact Or.inr (pushed nofun nofun nofun nofun nofun nofun)
  | some op =>
    cases op with
    | openTmp =>
      refine Or.inl ⟨fs, ?_, rfl, fun _ _ _ => rfl⟩
      unfold writeConfigReplacingCurrent openTmp attempt
      rw [if_pos rfl, error_bind]
    | write kept =>
      refine Or.inl ⟨_, rfl, ?_, ?_⟩
      · rw [update_of_ne (by exact nofun), update_of_ne (by exact nofun)]
      · intro n _ _
        rw [update_of_ne (by exact nofun), update_of_ne (by exact nofun)]
    | remove => exact Or.inr (pushed nofun nofun nofun nofun nofun nofun)
    | chmod path | read => exact early.elim
    | rename src dst =>
      cases src with
      | tmp => exact early.elim
      | live =>
        obtain ⟨rfl, empty⟩ := early
        refine Or.inl ⟨(fs.prepared (some (.rename .live (.prev 1))) text).shiftAll
          (configHistory - 1), ?_, ?_, ?_⟩
        · have live : (fs.prepared (some (.rename .live (.prev 1))) text).shiftAll
              (configHistory - 1) .live = some old := by
            rw [shiftAll_other (by exact nofun), prepared_other (by exact nofun) (by exact nofun),
              exists_live]
          rw [writeConfig_prepared (by exact nofun) (by exact nofun),
            rotateAll_ok (by exact fun _ _ _ _ => nofun) (by exact nofun), ok_bind,
            install, if_pos (by rw [live]; rfl), rename_fails rfl, error_bind]
        · rw [shiftAll_other (by exact nofun), prepared_other (by exact nofun) (by exact nofun)]
        · intro n positive less
          rw [empty n less positive]
          cases n with
          | zero => omega
          | succ n =>
            cases n with
            | zero => exact shiftAll_first (by decide)
            | succ n => rw [shiftAll_next (by omega) (by omega), prepared_prev (by omega),
                empty _ (by omega) (by omega)]
      | prev n =>
        obtain ⟨rfl, above⟩ := early
        by_cases reached : 0 < n ∧ n < configHistory ∧ fs (.prev n) ≠ none
        · obtain ⟨positive, less, found⟩ := reached
          refine Or.inl ⟨fs.prepared (some (.rename (.prev n) (.prev (n + 1)))) text, ?_,
            untouched_prepared ..⟩
          rw [writeConfig_prepared (by exact nofun) (by exact nofun),
            rotateAll_fails rfl positive (by omega) (by rw [prepared_prev less]; exact found)
              (fun m le more => by
                have within : m < configHistory := by
                  omega
                rw [prepared_prev within]
                exact above m within more),
            error_bind]
        · refine Or.inr (pushed nofun nofun ?_ nofun nofun nofun)
          intro m less positive found same
          obtain rfl : n = m := by simpa using same
          exact reached ⟨positive, less, found⟩

theorem swapWithPrev_ok {kept : String} (exists_live : fs .live = some old)
    (exists_prev : fs (.prev 1) = some kept) :
    ∃ fs', fs.swapWithPrev none = .ok fs' ∧ fs' .live = some kept ∧ fs' .tmp = none ∧
      fs' (.prev 1) = some old ∧ ∀ n, n ≠ 1 → fs' (.prev n) = fs (.prev n) := by
  have quiet : ∀ op, (none : Option FileOp) ≠ some op := nofun
  unfold swapWithPrev
  rw [rename_ok (quiet _) exists_live, ok_bind,
    rename_ok (quiet _) (by
      exact exists_prev),
    ok_bind,
    rename_ok (quiet _) (by
      rw [update_of_ne (by exact nofun), update_of_ne (by exact nofun),
        update_self]),
    ok_bind, chmod_ok (quiet _), ok_bind, chmod_ok (quiet _)]
  refine ⟨_, rfl, ?_, ?_, ?_, ?_⟩
  · rw [update_of_ne (by exact nofun), update_of_ne (by exact nofun), update_self]
  · rw [update_of_ne (by exact nofun), update_self]
  · rw [update_self]
  · intro n other
    have ne : ConfigPath.prev n ≠ .prev 1 := by simpa using other
    rw [update_of_ne ne, update_of_ne (by exact nofun), update_of_ne (by exact nofun),
      update_of_ne ne, update_of_ne (by exact nofun), update_of_ne (by exact nofun)]

end Files

namespace ConfigStore

variable {s : ConfigStore} {call : ConfigCall} {fault : Option FileOp}

section

variable (live : s.files .live = some s.running)
include live

theorem keptNext_of_untouched {files : Files}
    (untouched : s.files.Untouched files) (text new : String)
    (given : s.files .live = some text ∨ ∃ n, 1 ≤ n ∧ n < configHistory ∧
      s.files (.prev n) = some text) :
    (({ s with files := files } : ConfigStore).configPut none new).1 = .ok ∧
      (({ s with files := files } : ConfigStore).configPut none new).2.files.Has text := by
  obtain ⟨same, slots⟩ := untouched
  obtain ⟨files', done, _, _, first, next⟩ :=
    @Files.writeConfig_push files new s.running (same.trans live)
  unfold configPut
  rw [done]
  dsimp only
  refine ⟨rfl, Or.inr ?_⟩
  rcases given with current | ⟨n, positive, less, found⟩
  · refine ⟨1, Nat.le_refl _, by decide, ?_⟩
    rw [first, ← live, current]
  · refine ⟨n + 1, by omega, less, ?_⟩
    rw [next n positive less, slots n positive less, found]

theorem failureSafe_of_untouched {files : Files}
    (untouched : s.files.Untouched files)
    (oldest : ∀ loads, call = .rollback loads → files = s.files)
    (status : ConfigStatus) : FailureSafe s call (status, { s with files := files }) where
  live := ⟨s.running, untouched.1.trans live, Or.inl live⟩
  failed _ := ⟨untouched.1.trans live, rfl⟩
  kept text given := by
    rcases given with current | ⟨n, positive, less, found⟩
    · exact Or.inl (untouched.1.trans current)
    · exact Or.inr ⟨n, positive, by omega, (untouched.2 n positive less).trans found⟩
  spared loads same text has := by
    rw [oldest loads same]
    exact has
  keptNext _ text given new := keptNext_of_untouched live untouched text new given

theorem put_failureSafe {text : String}
    (early : Early s.files (.put text) fault) :
    FailureSafe s (.put text) (s.configPut fault text) ∧
      (s.configPut fault text).2.files .live = some (s.configPut fault text).2.running := by
  unfold configPut
  rcases Files.writeConfig_early live early with
    ⟨files, done, untouched⟩ | ⟨files, done, new, first, next⟩
  · rw [done]
    exact ⟨failureSafe_of_untouched live untouched (by exact nofun) _, untouched.1.trans live⟩
  · rw [done]
    refine ⟨⟨⟨text, new, Or.inr rfl⟩, nofun, ?_, nofun, nofun⟩, new⟩
    intro kept given
    refine Or.inr ?_
    rcases given with current | ⟨n, positive, less, found⟩
    · exact ⟨1, Nat.le_refl _, by decide, first.trans (live.symm.trans current)⟩
    · exact ⟨n + 1, by omega, less, next n kept positive less found⟩

theorem rollback_failureSafe {loads : Bool}
    (early : Early s.files (.rollback loads) fault) :
    FailureSafe s (.rollback loads) (s.configRollback fault loads) ∧
      (s.configRollback fault loads).2.files .live =
      some (s.configRollback fault loads).2.running := by
  have same : ∀ status, FailureSafe s (.rollback loads) (status, s) :=
    failureSafe_of_untouched live ⟨rfl, fun _ _ _ => rfl⟩ (fun _ _ => rfl)
  unfold configRollback
  cases found : s.files (.prev 1) with
  | none => exact ⟨same _, live⟩
  | some text =>
    dsimp only
    split
    · exact ⟨same _, live⟩
    next reads =>
    split
    · exact ⟨same _, live⟩
    cases fault with
    | some op =>
      -- the only other operation that may fail is the first rename
      have first : op = .rename .live .tmp := by
        cases op with
        | rename src dst =>
          cases src with
          | live => rw [show dst = .tmp from early]
          | tmp | prev n => exact early.elim
        | read => exact absurd rfl reads
        | openTmp | write kept | remove | chmod path => exact early.elim
      have failed : s.files.swapWithPrev (some op) = .error s.files := by
        unfold Files.swapWithPrev
        rw [Files.rename_fails (by rw [first])]
        rfl
      rw [failed]
      exact ⟨same _, live⟩
    | none =>
      obtain ⟨files, done, new, _, prev, others⟩ := Files.swapWithPrev_ok live found
      rw [done]
      -- the two texts change places
      have spared : ∀ kept, s.files.Has kept → files.Has kept := by
        intro kept has
        rcases has with current | ⟨n, positive, le, slot⟩
        · refine Or.inr ⟨1, Nat.le_refl _, by decide, ?_⟩
          rw [prev, ← live, current]
        · by_cases newest : n = 1
          · refine Or.inl ?_
            rw [new, ← found, ← newest, slot]
          · exact Or.inr ⟨n, positive, le, (others n newest).trans slot⟩
      refine ⟨⟨⟨text, new, Or.inr found⟩, nofun, ?_, fun _ _ => spared, nofun⟩, new⟩
      intro kept given
      refine spared kept ?_
      rcases given with current | ⟨n, positive, less, slot⟩
      · exact Or.inl current
      · exact Or.inr ⟨n, positive, by omega, slot⟩

theorem call_failureSafe (early : Early s.files call fault) :
    FailureSafe s call (s.call fault call) ∧
      (s.call fault call).2.files .live = some (s.call fault call).2.running := by
  cases call with
  | put text => exact put_failureSafe live early
  | rollback loads => exact rollback_failureSafe live early

end

end ConfigStore

/-- After calls in each of which at most one file operation fails, and that before a rename has
taken effect, the live file holds the running text, and the next such call is safe. -/
theorem config_writes_failure_safe (start : ConfigStore)
    (live : start.files .live = some start.running)
    (moves : List (ConfigCall × Option FileOp)) (s : ConfigStore)
    (early : Meets ConfigStore.step (fun move s => Early s.files move.1 move.2) moves start)
    (reached : runAll ConfigStore.step moves start = some s) :
    s.files .live = some s.running ∧
      ∀ call fault, Early s.files call fault → FailureSafe s call (s.call fault call) := by
  have running : s.files .live = some s.running :=
    runAll_preserves (fun s => s.files .live = some s.running)
      (fun move s s' early done live => by
        cases done
        exact (ConfigStore.call_failureSafe live early).2)
      moves start s early reached live
  exact ⟨running, fun _ _ early => (ConfigStore.call_failureSafe running early).1⟩

def ConfigStore.toy (slots : List String) : ConfigStore where
  files := fun path => match path with
    | .live => some "a"
    | .tmp => none
    | .prev n => if n = 0 then none else slots[n - 1]?
  running := "a"

theorem config_writes_failure_safe_partial :
    ∃ s, runAll ConfigStore.step [(.put "b", some (.write 0)), (.put "b", none)]
      (.toy ["p"]) = some s ∧ s.files .live = some "b" ∧
      FailureSafe s (.rollback true) (s.call (some (.rename .live .tmp)) (.rollback true)) := by
  have reached : ∃ s, runAll ConfigStore.step [(.put "b", some (.write 0)), (.put "b", none)]
      (.toy ["p"]) = some s ∧ s.running = "b" := ⟨_, rfl, rfl⟩
  obtain ⟨s, run, running⟩ := reached
  obtain ⟨live, safe⟩ := config_writes_failure_safe (.toy ["p"]) rfl
    [(.put "b", some (.write 0)), (.put "b", none)] s
    ⟨trivial, fun _ _ => ⟨trivial, fun _ _ => trivial⟩⟩ run
  exact ⟨s, run, by rw [live, running], safe _ _ rfl⟩

/-- The live file is gone when the new one cannot be put in its place, and holds another text than
the running one when a mode cannot be set or slot 1 cannot be written; what only the scratch file
holds is lost in the next PUT. -/
theorem late_failures_lose_config :
    ((ConfigStore.toy ["p"]).call (some (.rename .tmp .live)) (.put "b")).2.files .live = none ∧
    (let r := (ConfigStore.toy ["p"]).call (some (.chmod .live)) (.put "b");
      r.1 = .serverError ∧ r.2.running = "a" ∧ r.2.files .live = some "b") ∧
    (let r := (ConfigStore.toy ["p"]).call (some (.rename .tmp (.prev 1))) (.rollback true);
      r.1 = .serverError ∧ r.2.running = "a" ∧ r.2.files .live = some "p" ∧
        ¬ (r.2.call none (.put "b")).2.files.Has "a") ∧
    (let r := (ConfigStore.toy ["p", "q", "r", "s", "t"]).call (some (.chmod (.prev 5))) (.put "b");
      r.1 = .serverError ∧ ¬ (r.2.call none (.put "b")).2.files.Has "s") := by
  refine ⟨rfl, ⟨rfl, rfl, rfl⟩, ⟨rfl, rfl, rfl, ?_⟩, rfl, ?_⟩
  · decide +kernel
  · decide +kernel

end RelayFabric
