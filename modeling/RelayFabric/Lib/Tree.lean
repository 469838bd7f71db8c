/- layer: library
   digest: Directory trees, and the recursive copy of a tree that changes while it is read. -/

import RelayFabric.Lib.Run
import RelayFabric.Lib.Table

namespace RelayFabric.Lib

open List

inductive Inode (φ : Type)
  | file (content : φ)
  | dir
  | special

def Inode.isSpecial {φ : Type} : Inode φ → Bool
  | .special => true
  | .file _ | .dir => false

abbrev Disk (ν φ : Type) := Map (List ν) (Inode φ)

section

variable {ν φ : Type} [DecidableEq ν] {P : φ → Prop} {path : List ν}

namespace Disk

variable {t t' : Disk ν φ}

def createDir (t : Disk ν φ) (path : List ν) : Option (Disk ν φ) :=
  match t path with
  | none => some (t.insert path .dir)
  | some .dir => some t
  | some _ => none

def write (t : Disk ν φ) (path : List ν) (content : φ) : Option (Disk ν φ) :=
  match t path with
  | none | some (.file _) => some (t.insert path (.file content))
  | some _ => none

def removeFile (t : Disk ν φ) (path : List ν) : Option (Disk ν φ) :=
  match t path with
  | none => some t
  | some .dir => none
  | some _ => some (t.erase path)

structure Holds (P : φ → Prop) (t : Disk ν φ) (path : List ν) : Prop where
  file : ∃ content, P content ∧ t path = some (.file content)
  dirs : ∀ above below, below ≠ [] → above ++ below = path → t above = some .dir

theorem createDir_some (made : t.createDir path = some t') :
    t' path = some .dir ∧ (∀ other, other ≠ path → t' other = t other) ∧
      ∀ other inode, t other = some inode → t' other = some inode := by
  unfold createDir at made
  split at made
  case h_1 absent =>
    cases made
    refine ⟨by simp [Map.insert_apply], fun other apart => by simp [Map.insert_apply, apart],
      fun other inode found => ?_⟩
    have apart : other ≠ path := by
      rintro rfl
      rw [absent] at found
      cases found
    simpa [Map.insert_apply, apart] using found
  case h_2 there =>
    cases made
    exact ⟨there, fun _ _ => rfl, fun _ _ found => found⟩
  case h_3 => cases made

theorem write_some {content : φ} (written : t.write path content = some t') :
    t' path = some (.file content) ∧ (∀ other, other ≠ path → t' other = t other) ∧
      ∀ other, t other = some .dir → t' other = some .dir := by
  have shape : t' = t.insert path (.file content) ∧ t path ≠ some .dir := by
    unfold write at written
    split at written
    case h_1 absent =>
      cases written
      exact ⟨rfl, by simp [absent]⟩
    case h_2 there =>
      cases written
      exact ⟨rfl, by simp [there]⟩
    case h_3 => cases written
  obtain ⟨rfl, plain⟩ := shape
  refine ⟨by simp [Map.insert_apply], fun other apart => by simp [Map.insert_apply, apart],
    fun other found => ?_⟩
  have apart : other ≠ path := by
    rintro rfl
    exact plain found
  simpa [Map.insert_apply, apart] using found

theorem Holds.createDir {made : List ν} (holds : t.Holds P path)
    (step : t.createDir made = some t') : t'.Holds P path := by
  obtain ⟨_, _, kept⟩ := createDir_some step
  obtain ⟨content, meets, found⟩ := holds.file
  exact ⟨⟨content, meets, kept _ _ found⟩,
    fun above below proper split => kept _ _ (holds.dirs above below proper split)⟩

theorem Holds.write {written : List ν} {content : φ} (holds : t.Holds P path)
    (good : written = path → P content) (step : t.write written content = some t') :
    t'.Holds P path := by
  obtain ⟨there, others, kept⟩ := write_some step
  refine ⟨?_, fun above below proper split => kept _ (holds.dirs above below proper split)⟩
  by_cases same : path = written
  · exact ⟨content, good same.symm, same ▸ there⟩
  · obtain ⟨old, meets, found⟩ := holds.file
    exact ⟨old, meets, (others _ same).trans found⟩

/-- The tree holds such a file, and a copy that leaves out what `skip` says comes to it. -/
structure Offers (skip : List ν → Option (Inode φ) → Bool) (P : φ → Prop) (t : Disk ν φ)
    (path : List ν) : Prop extends Holds P t path where
  wanted : ∀ above below, above ≠ [] → above ++ below = path → skip above (t above) = false

omit [DecidableEq ν] in
theorem Holds.present (holds : t.Holds P path) {above below : List ν}
    (split : above ++ below = path) : (t above).isSome = true := by
  cases below with
  | nil =>
    obtain ⟨content, _, found⟩ := holds.file
    rw [append_nil] at split
    rw [split, found]
    rfl
  | cons name rest =>
    rw [holds.dirs above (name :: rest) (cons_ne_nil name rest) split]
    rfl

end Disk

/-- A directory that is being read: the names it had when it was opened, less those that have been
returned and those that have gone since. Of the names that come or go while it is open, the reader
may see any. -/
structure DirStream (ν : Type) where
  dir : List ν
  owed : List ν

structure Walk (ν φ : Type) where
  streams : List (DirStream ν)
  out : Disk ν φ

inductive Walk.Move (ν : Type)
  | entry (name : ν) (listing : List ν)
  | finish

inductive Walk.Fault (ν : Type)
  | create (path : List ν)
  | read (path : List ν)
  | copy (path : List ν)

namespace Walk

def enter (source : Disk ν φ) (path listing : List ν) (w : Walk ν φ) :
    Except (Fault ν) (Walk ν φ) :=
  match w.out.createDir path with
  | none => .error (.create path)
  | some out =>
    match source path with
    | some .dir => .ok ⟨⟨path, listing⟩ :: w.streams, out⟩
    | _ => .error (.read path)

def visit (skip : List ν → Option (Inode φ) → Bool) (source : Disk ν φ) (path listing : List ν)
    (w : Walk ν φ) : Except (Fault ν) (Walk ν φ) :=
  if skip path (source path) then .ok w
  else
    match source path with
    | some .dir => w.enter source path listing
    | some (.file content) =>
      match w.out.write path content with
      | none => .error (.copy path)
      | some out => .ok ⟨w.streams, out⟩
    | _ => .error (.copy path)

def take (name : ν) (stream : DirStream ν) : DirStream ν :=
  { stream with owed := stream.owed.filter (· ≠ name) }

def step (skip : List ν → Option (Inode φ) → Bool) (source : Disk ν φ) :
    Move ν → Walk ν φ → Option (Except (Fault ν) (Walk ν φ))
  | .entry name listing, ⟨stream :: rest, out⟩ =>
    some (visit skip source (stream.dir ++ [name]) listing ⟨take name stream :: rest, out⟩)
  | .finish, ⟨stream :: rest, out⟩ => if stream.owed = [] then some (.ok ⟨rest, out⟩) else none
  | _, ⟨[], _⟩ => none

def refresh (source : Disk ν φ) (w : Walk ν φ) : Walk ν φ :=
  { w with streams := w.streams.map (fun stream =>
      { stream with
        owed := stream.owed.filter (fun name => (source (stream.dir ++ [name])).isSome) }) }

def Lists (source : Disk ν φ) (path listing : List ν) : Prop :=
  ∀ name, (source (path ++ [name])).isSome = true → name ∈ listing

def Faithful (source : Disk ν φ) : Move ν → Walk ν φ → Prop
  | .entry name listing, ⟨stream :: _, _⟩ =>
    source (stream.dir ++ [name]) = some .dir → Lists source (stream.dir ++ [name]) listing
  | _, _ => True

def Rooted (w : Walk ν φ) : Prop :=
  ∀ stream ∈ w.streams, ∀ above below, above ++ below = stream.dir → w.out above = some .dir

def Due (P : φ → Prop) (w : Walk ν φ) (path : List ν) : Prop :=
  w.out.Holds P path ∨
    ∃ stream ∈ w.streams, ∃ name ∈ stream.owed, ∃ below, path = stream.dir ++ name :: below

variable {skip : List ν → Option (Inode φ) → Bool} {source : Disk ν φ} {w w' : Walk ν φ}
  {listing : List ν}

theorem enter_ok (entered : w.enter source path listing = .ok w') :
    source path = some .dir ∧ ∃ out, w.out.createDir path = some out ∧
      w' = ⟨⟨path, listing⟩ :: w.streams, out⟩ := by
  unfold enter at entered
  cases made : w.out.createDir path with
  | none => simp [made] at entered
  | some out =>
    simp only [made] at entered
    split at entered
    case h_1 there => exact ⟨there, out, rfl, (Except.ok.inj entered).symm⟩
    case h_2 => cases entered

theorem visit_ok (visited : w.visit skip source path listing = .ok w') :
    (skip path (source path) = true ∧ w' = w) ∨
      (source path = some .dir ∧ ∃ out, w.out.createDir path = some out ∧
        w' = ⟨⟨path, listing⟩ :: w.streams, out⟩) ∨
      ∃ content out, source path = some (.file content) ∧ skip path (source path) = false ∧
        w.out.write path content = some out ∧ w' = ⟨w.streams, out⟩ := by
  unfold visit at visited
  split at visited
  case isTrue skipped => exact .inl ⟨skipped, (Except.ok.inj visited).symm⟩
  case isFalse kept =>
    split at visited
    case h_1 there => exact .inr (.inl (enter_ok visited))
    case h_2 content there =>
      cases written : w.out.write path content with
      | none => simp [written] at visited
      | some out =>
        simp only [written] at visited
        exact .inr (.inr ⟨content, out, there, by simpa using kept, written,
          (Except.ok.inj visited).symm⟩)
    case h_3 => cases visited

theorem step_cases {a : Move ν} (stepped : w.step skip source a = some (.ok w')) :
    ∃ stream rest, w.streams = stream :: rest ∧
      ((∃ name listing, a = .entry name listing ∧
          visit skip source (stream.dir ++ [name]) listing ⟨take name stream :: rest, w.out⟩ =
            .ok w') ∨
        (a = .finish ∧ stream.owed = [] ∧ w' = ⟨rest, w.out⟩)) := by
  obtain ⟨_ | ⟨stream, rest⟩, out⟩ := w
  · cases a <;> cases stepped
  · refine ⟨stream, rest, rfl, ?_⟩
    cases a with
    | entry name listing => exact .inl ⟨name, listing, rfl, Option.some.inj stepped⟩
    | finish =>
      simp only [step, Option.ite_none_right_eq_some] at stepped
      exact .inr ⟨rfl, stepped.1, (Except.ok.inj (Option.some.inj stepped.2)).symm⟩

theorem visit_dir (visited : w.visit skip source path listing = .ok w') {other : List ν}
    (there : w.out other = some .dir) : w'.out other = some .dir := by
  obtain ⟨_, rfl⟩ | ⟨_, out, made, rfl⟩ | ⟨content, out, _, _, written, rfl⟩ := visit_ok visited
  · exact there
  · exact (Disk.createDir_some made).2.2 other _ there
  · exact (Disk.write_some written).2.2 other there

theorem step_dir {a : Move ν} (stepped : w.step skip source a = some (.ok w')) {other : List ν}
    (there : w.out other = some .dir) : w'.out other = some .dir := by
  obtain ⟨stream, rest, _, ⟨name, listing, _, visited⟩ | ⟨_, _, rfl⟩⟩ := step_cases stepped
  · exact visit_dir visited there
  · exact there

theorem step_skipped {a : Move ν} (stepped : w.step skip source a = some (.ok w'))
    (skipped : ∀ inode, skip path inode = true) : w'.out path = w.out path := by
  obtain ⟨stream, rest, _, ⟨name, listing, _, visited⟩ | ⟨_, _, rfl⟩⟩ := step_cases stepped
  · by_cases same : path = stream.dir ++ [name]
    · subst same
      unfold visit at visited
      rw [if_pos (skipped _)] at visited
      cases visited
      rfl
    · obtain ⟨_, rfl⟩ | ⟨_, out, made, rfl⟩ | ⟨content, out, _, _, written, rfl⟩ := visit_ok visited
      · rfl
      · exact (Disk.createDir_some made).2.1 path same
      · exact (Disk.write_some written).2.1 path same
  · rfl

theorem Rooted.enter (rooted : w.Rooted) (entered : w.enter source path listing = .ok w')
    (parents : ∀ above below, below ≠ [] → above ++ below = path → w.out above = some .dir) :
    w'.Rooted := by
  obtain ⟨_, out, made, rfl⟩ := enter_ok entered
  obtain ⟨there, _, kept⟩ := Disk.createDir_some made
  intro stream member above below split
  rcases mem_cons.mp member with rfl | old
  · by_cases last : below = []
    · rw [last, append_nil] at split
      rw [split]
      exact there
    · exact kept above _ (parents above below last split)
  · exact kept above _ (rooted stream old above below split)

omit [DecidableEq ν] in
theorem Rooted.parents (rooted : w.Rooted) {stream : DirStream ν} (member : stream ∈ w.streams)
    {name : ν} {above below : List ν} (proper : below ≠ [])
    (split : above ++ below = stream.dir ++ [name]) : w.out above = some .dir := by
  obtain ⟨front, last, rfl⟩ := (eq_nil_or_concat' below).resolve_left proper
  rw [← append_assoc] at split
  exact rooted stream member above front (append_inj_left' split rfl)

theorem Rooted.step {a : Move ν} (rooted : w.Rooted)
    (stepped : w.step skip source a = some (.ok w')) : w'.Rooted := by
  obtain ⟨stream, rest, opened, ⟨name, listing, _, visited⟩ | ⟨_, _, rfl⟩⟩ := step_cases stepped
  · have front : stream ∈ w.streams := opened ▸ mem_cons_self
    have taken : Rooted (⟨take name stream :: rest, w.out⟩ : Walk ν φ) := by
      intro other member
      rcases mem_cons.mp member with rfl | old
      · exact rooted stream front
      · exact rooted other (opened ▸ mem_cons_of_mem stream old)
    obtain ⟨_, rfl⟩ | ⟨there, out, made, rfl⟩ | ⟨content, out, _, _, written, rfl⟩ :=
      visit_ok visited
    · exact taken
    · have entered : Walk.enter source (stream.dir ++ [name]) listing
        ⟨take name stream :: rest, w.out⟩ =
          .ok ⟨⟨stream.dir ++ [name], listing⟩ :: take name stream :: rest, out⟩ := by
        simp [Walk.enter, made, there]
      exact taken.enter entered (fun above below proper split => rooted.parents front proper split)
    · intro other member above below split
      exact (Disk.write_some written).2.2 above (taken other member above below split)
  · exact fun other member => rooted other (opened ▸ mem_cons_of_mem stream member)

theorem Due.step {a : Move ν} (due : w.Due P path) (rooted : w.Rooted)
    (offers : source.Offers skip P path) (faithful : Faithful source a w)
    (stepped : w.step skip source a = some (.ok w')) : w'.Due P path := by
  obtain ⟨stream, rest, opened, ⟨name, listing, rfl, visited⟩ | ⟨_, paid, rfl⟩⟩ :=
    step_cases stepped
  · have listed : source (stream.dir ++ [name]) = some .dir →
        Lists source (stream.dir ++ [name]) listing := by
      obtain ⟨streams, out⟩ := w
      obtain rfl : streams = stream :: rest := opened
      exact faithful
    by_cases onWay : ∃ below, path = stream.dir ++ [name] ++ below
    · obtain ⟨below, rfl⟩ := onWay
      have kept : skip (stream.dir ++ [name]) (source (stream.dir ++ [name])) = false :=
        offers.wanted _ below (by simp) rfl
      obtain ⟨skipped, _⟩ | ⟨there, out, made, rfl⟩ | ⟨content, out, there, _, written, rfl⟩ :=
        visit_ok visited
      · rw [kept] at skipped
        cases skipped
      · -- The entry is a directory on the way, and its listing has the next name.
        cases below with
        | nil =>
          obtain ⟨content, _, file⟩ := offers.file
          rw [append_nil, there] at file
          cases file
        | cons next more =>
          have split : stream.dir ++ [name] ++ [next] ++ more =
              stream.dir ++ [name] ++ next :: more := by
            simp
          exact .inr ⟨_, mem_cons_self, next, listed there next (offers.present split), more, rfl⟩
      · cases below with
        | nil =>
          obtain ⟨good, meets, file⟩ := offers.file
          rw [append_nil, there] at file
          obtain rfl := Inode.file.inj (Option.some.inj file)
          obtain ⟨arrived, _, dirs⟩ := Disk.write_some written
          rw [append_nil]
          refine .inl ⟨⟨content, meets, arrived⟩, fun above below proper split => ?_⟩
          exact dirs above (rooted.parents (opened ▸ mem_cons_self) proper split)
        | cons next more =>
          have dir := offers.dirs (stream.dir ++ [name]) (next :: more) (cons_ne_nil _ _) rfl
          rw [there] at dir
          cases dir
    · have taken : Due P (⟨take name stream :: rest, w.out⟩ : Walk ν φ) path := by
        rcases due with arrived | ⟨other, member, next, owed, below, split⟩
        · exact .inl arrived
        · rw [opened] at member
          rcases mem_cons.mp member with rfl | old
          · refine .inr ⟨_, mem_cons_self, next, mem_filter.mpr ⟨owed, ?_⟩, below, split⟩
            have apart : next ≠ name := by
              rintro rfl
              exact onWay ⟨below, by simpa using split⟩
            simpa using apart
          · exact .inr ⟨other, mem_cons_of_mem _ old, next, owed, below, split⟩
      obtain ⟨_, rfl⟩ | ⟨_, out, made, rfl⟩ | ⟨content, out, _, _, written, rfl⟩ := visit_ok visited
      · exact taken
      · rcases taken with arrived | ⟨other, member, rest⟩
        · exact .inl (arrived.createDir made)
        · exact .inr ⟨other, mem_cons_of_mem _ member, rest⟩
      · rcases taken with arrived | later
        · refine .inl (arrived.write (fun same => ?_) written)
          exact absurd ⟨[], by rw [same, append_nil]⟩ onWay
        · exact .inr later
  · rcases due with arrived | ⟨other, member, name, owed, below, split⟩
    · exact .inl arrived
    · rw [opened] at member
      rcases mem_cons.mp member with rfl | old
      · rw [paid] at owed
        cases owed
      · exact .inr ⟨other, old, name, owed, below, split⟩

omit [DecidableEq ν] in
theorem Due.refresh (due : w.Due P path) (holds : source.Holds P path) :
    (w.refresh source).Due P path := by
  rcases due with arrived | ⟨stream, member, name, owed, below, split⟩
  · exact .inl arrived
  · have way : stream.dir ++ [name] ++ below = path := by
      simp [split]
    exact .inr ⟨_, mem_map_of_mem member, name,
      mem_filter.mpr ⟨owed, holds.present way⟩, below, split⟩

omit [DecidableEq ν] in
theorem Rooted.refresh (rooted : w.Rooted) : (w.refresh source).Rooted := by
  intro stream member
  obtain ⟨old, before, rfl⟩ := mem_map.mp member
  exact rooted old before

theorem due_enter (entered : w.enter source [] listing = .ok w') (listed : Lists source [] listing)
    (holds : source.Holds P path) (below : path ≠ []) : w'.Due P path := by
  obtain ⟨_, out, _, rfl⟩ := enter_ok entered
  obtain ⟨name, rest, rfl⟩ := exists_cons_of_ne_nil below
  have way : [name] ++ rest = name :: rest := rfl
  exact .inr ⟨_, mem_cons_self, name, listed name (holds.present way), rest, rfl⟩

omit [DecidableEq ν] in
theorem Due.arrived (due : w.Due P path) (closed : w.streams = []) : w.out.Holds P path := by
  rcases due with arrived | ⟨stream, member, _⟩
  · exact arrived
  · rw [closed] at member
    cases member

def copy (skip : List ν → Option (Inode φ) → Bool) (source : Disk ν φ) (a : Move ν) (w : Walk ν φ) :
    Option (Walk ν φ) :=
  (w.step skip source a).bind Except.toOption

theorem copy_some {a : Move ν} (copied : w.copy skip source a = some w') :
    w.step skip source a = some (.ok w') := by
  obtain ⟨result, stepped, ok⟩ := Option.bind_eq_some_iff.mp copied
  cases result with
  | error fault => cases ok
  | ok next =>
    obtain rfl : next = w' := Option.some.inj ok
    exact stepped

theorem copied_of_offers {moves : List (Move ν)} (rooted : w.Rooted) (due : w.Due P path)
    (offers : source.Offers skip P path)
    (faithful : Meets (copy skip source) (Faithful source) moves w)
    (reached : runAll (copy skip source) moves w = some w') (closed : w'.streams = []) :
    w'.out.Holds P path := by
  have inv := runAll_preserves (fun w => w.Rooted ∧ w.Due P path)
    (fun a w w' listed copied held => by
      have stepped := copy_some copied
      exact ⟨held.1.step stepped, held.2.step held.1 offers listed stepped⟩)
    moves w w' faithful reached ⟨rooted, due⟩
  exact inv.2.arrived closed

end Walk

end

end RelayFabric.Lib
