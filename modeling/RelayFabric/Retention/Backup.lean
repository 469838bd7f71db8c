/- source: backup.rs (is_excluded, copy_tree, snapshot, restore_into)
   digest: A backup taken while the daemon runs, and the blobs of its database. -/

import RelayFabric.Lib.Tree
import RelayFabric.Retention.Blobs

namespace RelayFabric

open List Lib Option

def dbFile : String := "relayfabric.db"
def dbWal : String := "relayfabric.db-wal"
def dbShm : String := "relayfabric.db-shm"
def attachmentsDir : String := "attachments"
def manifestFile : String := "BACKUP_MANIFEST"

def isExcluded (name : String) : Bool :=
  [dbFile, dbWal, dbShm, "admin.sock", "plugins.d"].contains name

/-- What a file has in it, as far as the backup is concerned. The manifest names the time of the
backup and the directory it was taken from. -/
inductive Content
  | bytes (data : Bytes)
  | database (store : Store)
  | manifest (createdAt : Int) (dataDir : String)

def Daemon.disk (d : Daemon) (others : Disk String Content) : Disk String Content := fun path =>
  if path = [] ∨ path = [attachmentsDir] then some .dir
  else if path = [dbFile] then some (.file (.database d.store))
  else
    match path with
    | [dir, name] =>
      if dir = attachmentsDir then (d.cas.blobs name).elim (others path)
        (fun data => some (.file (.bytes data)))
      else others path
    | _ => others path

inductive SnapshotError
  | insideDataDir
  | vacuum
  | files (fault : Walk.Fault String)
  | manifest

inductive Job
  | called
  | checked
  | vacuumed
  | copying (streams : List (DirStream String))
  | returned (result : Except SnapshotError Unit)

structure Snapshot where
  job : Job
  out : Disk String Content

inductive Snapshot.Move
  | check (inside : Bool)
  | vacuum
  | copyTree (listing : List String)
  | walk (a : Walk.Move String)
  | manifest (now : Int) (dataDir : String)

/-- What `copy_tree` leaves out: the excluded names at the top, and special files. -/
def skipCopied (path : List String) (inode : Option (Inode Content)) : Bool :=
  (match path with
    | [name] => isExcluded name
    | _ => false) || inode.any Inode.isSpecial

def vacuumInto (db : Inode Content) (out : Disk String Content) : Option (Disk String Content) :=
  match out [dbFile] with
  | none | some (.file (.bytes [])) => some (out.insert [dbFile] db)
  | some _ => none

namespace Snapshot

def follow (out : Disk String Content) : Except (Walk.Fault String) (Walk String Content) → Snapshot
  | .ok w => ⟨.copying w.streams, w.out⟩
  | .error fault => ⟨.returned (.error (.files fault)), out⟩

def step (source : Disk String Content) : Snapshot.Move → Snapshot → Option Snapshot
  | .check inside, ⟨.called, out⟩ =>
    some (match out.createDir [] with
      | none => ⟨.returned (.error (.files (.create []))), out⟩
      | some made => if inside then ⟨.returned (.error .insideDataDir), out⟩ else ⟨.checked, made⟩)
  | .vacuum, ⟨.checked, out⟩ =>
    some (match source [dbFile] with
      | some (.file db) =>
        (vacuumInto (.file db) out).elim ⟨.returned (.error .vacuum), out⟩ (⟨.vacuumed, ·⟩)
      | _ => ⟨.vacuumed, out⟩)
  | .copyTree listing, ⟨.vacuumed, out⟩ =>
    some (follow out (Walk.enter source [] listing ⟨[], out⟩))
  | .walk a, ⟨.copying streams, out⟩ =>
    (Walk.step skipCopied source a ⟨streams, out⟩).map (follow out)
  | .manifest now dataDir, ⟨.copying [], out⟩ =>
    some ((out.write [manifestFile] (.manifest now dataDir)).elim
      ⟨.returned (.error .manifest), out⟩ (⟨.returned (.ok ()), ·⟩))
  | _, _ => none

def refresh (source : Disk String Content) : Snapshot → Snapshot
  | ⟨.copying streams, out⟩ => ⟨.copying (Walk.refresh source ⟨streams, out⟩).streams, out⟩
  | s => s

def Faithful (source : Disk String Content) : Snapshot.Move → Snapshot → Prop
  | .copyTree listing, _ => Walk.Lists source [] listing
  | .walk a, ⟨.copying streams, out⟩ => Walk.Faithful source a ⟨streams, out⟩
  | _, _ => True

def midway (s : Snapshot) : Bool :=
  match s.job with
  | .vacuumed | .copying _ => true
  | .called | .checked | .returned _ => false

end Snapshot

structure Snap where
  shelf : Shelf
  others : Disk String Content
  snapshot : Snapshot

inductive Snap.Move
  | daemon (a : RelayFabric.Move)
  | outside (change : Disk String Content → Disk String Content)
  | snapshot (m : Snapshot.Move)

namespace Snap

def disk (s : Snap) : Disk String Content := s.shelf.node.d.disk s.others

def settle (s : Snap) : Snap := { s with snapshot := s.snapshot.refresh s.disk }

def step (K : Crypto) : Snap.Move → Snap → Option Snap
  | .daemon a, s => (Shelf.step K a s.shelf).map (fun shelf => settle { s with shelf := shelf })
  | .outside change, s => some (settle { s with others := change s.others })
  | .snapshot m, s =>
    (s.snapshot.step s.disk m).map (fun snapshot => { s with snapshot := snapshot })

abbrev run (K : Crypto) : List Snap.Move → Snap → Option Snap := runAll (step K)

def Faithful (s : Snap) : Snap.Move → Prop
  | .snapshot m => s.snapshot.Faithful s.disk m
  | .daemon _ | .outside _ => True

/-- No purge runs while a call is between its first put and its references, nor while a backup is
between its database and the last of its files. -/
def quiet (s : Snap) : Snap.Move → Bool
  | .daemon a => s.shelf.calm a && (!s.shelf.node.purges a || !s.snapshot.midway)
  | .outside _ | .snapshot _ => true

def start (σ : Node) (others out : Disk String Content) : Snap := ⟨⟨σ, []⟩, others, ⟨.called, out⟩⟩

end Snap

inductive RestoreError
  | noManifest
  | create
  | sidecar (name : String)
  | files (fault : Walk.Fault String)

/-- What `restore_into` leaves out: the manifest at the top, and special files further down. -/
def skipRestored (path : List String) (inode : Option (Inode Content)) : Bool :=
  path == [manifestFile] || (decide (1 < path.length) && inode.any Inode.isSpecial)

/-- The log that an unclean end has left must not be replayed into the restored database. -/
def removeSidecars (dataDir : Disk String Content) : Except RestoreError (Disk String Content) :=
  match dataDir.removeFile [dbWal] with
  | none => .error (.sidecar dbWal)
  | some kept =>
    match kept.removeFile [dbShm] with
    | none => .error (.sidecar dbShm)
    | some kept => .ok kept

def restoreBegin (input dataDir : Disk String Content) (listing : List String) :
    Except RestoreError (Walk String Content) :=
  match input [manifestFile] with
  | some (.file _) =>
    match dataDir.createDir [] with
    | none => .error .create
    | some dataDir => do
      let dataDir ← removeSidecars dataDir
      (Walk.enter input [] listing ⟨[], dataDir⟩).mapError RestoreError.files
  | _ => .error .noManifest

/-- `restore_into` turns the one directory into the other, reading the backup in some order. -/
def RestoredInto (input dataDir result : Disk String Content) : Prop :=
  ∃ listing w moves, restoreBegin input dataDir listing = .ok w ∧ Walk.Lists input [] listing ∧
    Meets (Walk.copy skipRestored input) (Walk.Faithful input) moves w ∧
    runAll (Walk.copy skipRestored input) moves w = some ⟨[], result⟩

def BackupComplete (t : Disk String Content) : Prop :=
  ∃ db, t [dbFile] = some (.file (.database db)) ∧
    ∀ m sha, (m, sha) ∈ db.attachmentRefs → db.messages.contains m = true →
      ∃ data, t [attachmentsDir, sha] = some (.file (.bytes data))

def Content.IsBytes (content : Content) : Prop := ∃ data, content = .bytes data

private theorem prefix_single {name : String} {above below : List String}
    (split : above ++ below = [name]) :
    above = [] ∨ (above = [name] ∧ below = []) := by
  rcases above with _ | ⟨first, rest⟩
  · exact .inl rfl
  · simp_all

private theorem prefix_pair {dir name : String} {above below : List String}
    (split : above ++ below = [dir, name]) :
    above = [] ∨ above = [dir] ∨ (above = [dir, name] ∧ below = []) := by
  rcases above with _ | ⟨first, _ | ⟨second, rest⟩⟩ <;> simp_all

section Disk

variable {d : Daemon} {others : Disk String Content} {sha : String}

theorem Daemon.disk_db : d.disk others [dbFile] = some (.file (.database d.store)) := by
  simp [Daemon.disk, dbFile, attachmentsDir]

theorem Daemon.disk_offers (there : d.cas.blobs.contains sha = true) :
    (d.disk others).Offers skipCopied Content.IsBytes [attachmentsDir, sha] := by
  obtain ⟨data, stored⟩ := isSome_iff_exists.mp there
  have file : d.disk others [attachmentsDir, sha] = some (.file (.bytes data)) := by
    simp [Daemon.disk, stored]
  have dir : d.disk others [attachmentsDir] = some .dir := by
    simp [Daemon.disk]
  refine ⟨⟨⟨_, ⟨data, rfl⟩, file⟩, fun above below proper split => ?_⟩,
    fun above below some split => ?_⟩
  · rcases prefix_pair split with rfl | rfl | ⟨_, rfl⟩
    · simp [Daemon.disk]
    · exact dir
    · exact absurd rfl proper
  · rcases prefix_pair split with rfl | rfl | ⟨rfl, _⟩
    · exact absurd rfl some
    · rw [dir]
      decide
    · rw [file]
      rfl

end Disk

structure Snapshot.Copied (d : Daemon) (db : Store) (out : Disk String Content) : Prop where
  database : out.Holds (· = .database db) [dbFile]
  stocked : ∀ m sha, (m, sha) ∈ db.attachmentRefs → d.cas.blobs.contains sha = true

inductive Snapshot.Sound (d : Daemon) : Snapshot → Prop
  | called (out : Disk String Content) : Snapshot.Sound d ⟨.called, out⟩
  | checked (out : Disk String Content) (root : out [] = some .dir) :
      Snapshot.Sound d ⟨.checked, out⟩
  | vacuumed (out : Disk String Content) (db : Store) (copied : Snapshot.Copied d db out) :
      Snapshot.Sound d ⟨.vacuumed, out⟩
  | copying (streams : List (DirStream String)) (out : Disk String Content) (db : Store)
      (copied : Snapshot.Copied d db out) (rooted : Walk.Rooted ⟨streams, out⟩)
      (due : ∀ m sha, (m, sha) ∈ db.attachmentRefs →
        Walk.Due Content.IsBytes ⟨streams, out⟩ [attachmentsDir, sha]) :
      Snapshot.Sound d ⟨.copying streams, out⟩
  | complete (out : Disk String Content) (db : Store)
      (database : out.Holds (· = .database db) [dbFile])
      (blobs : ∀ m sha, (m, sha) ∈ db.attachmentRefs →
      out.Holds Content.IsBytes [attachmentsDir, sha]) : Snapshot.Sound d ⟨.returned (.ok ()), out⟩
  | failed (out : Disk String Content) (error : SnapshotError) :
      Snapshot.Sound d ⟨.returned (.error error), out⟩

section Step

variable {d : Daemon} {others : Disk String Content} {out : Disk String Content} {s' : Snapshot}
  {m : Snapshot.Move}

theorem Snapshot.Sound.check (step : Snapshot.step (d.disk others) m ⟨.called, out⟩ = some s') :
    s'.Sound d := by
  cases m with
  | check inside =>
    cases step
    cases made : out.createDir [] with
    | none => exact .failed out _
    | some made' =>
      cases inside with
      | true => exact .failed out _
      | false => exact .checked made' (Disk.createDir_some made).1
  | vacuum | copyTree | walk | manifest => cases step

theorem Snapshot.Sound.vacuum (stocked : d.Stocked) (root : out [] = some .dir)
    (step : Snapshot.step (d.disk others) m ⟨.checked, out⟩ = some s') : s'.Sound d := by
  cases m with
  | vacuum =>
    simp only [Snapshot.step, Daemon.disk_db] at step
    cases step
    cases written : vacuumInto (.file (.database d.store)) out with
    | none => exact .failed out _
    | some out' =>
      have shape : out' = out.insert [dbFile] (.file (.database d.store)) := by
        unfold vacuumInto at written
        split at written
        · exact (Option.some.inj written).symm
        · exact (Option.some.inj written).symm
        · cases written
      subst shape
      refine .vacuumed _ d.store ⟨⟨⟨_, rfl, by simp [Map.insert_apply]⟩, ?_⟩,
        fun m sha member => stocked (m, sha) member⟩
      intro above below proper split
      rcases prefix_single split with rfl | ⟨_, rfl⟩
      · simpa [Map.insert_apply] using root
      · exact absurd rfl proper
  | check | copyTree | walk | manifest => cases step

theorem Snapshot.Sound.copyTree {db : Store} (copied : Snapshot.Copied d db out)
    (faithful : Snapshot.Faithful (d.disk others) m ⟨.vacuumed, out⟩)
    (step : Snapshot.step (d.disk others) m ⟨.vacuumed, out⟩ = some s') : s'.Sound d := by
  cases m with
  | copyTree listing =>
    cases step
    cases entered : Walk.enter (d.disk others) [] listing ⟨[], out⟩ with
    | error fault => exact .failed out _
    | ok w =>
      have empty : Walk.Rooted (⟨[], out⟩ : Walk String Content) := by
        intro stream member
        cases member
      have rooted : w.Rooted := empty.enter entered (fun above below proper split =>
        absurd (append_eq_nil_iff.mp split).2 proper)
      have database : w.out.Holds (· = .database db) [dbFile] := by
        obtain ⟨_, made, created, rfl⟩ := Walk.enter_ok entered
        exact copied.database.createDir created
      exact .copying w.streams w.out db ⟨database, copied.stocked⟩ rooted (fun m sha member =>
        Walk.due_enter entered faithful (Daemon.disk_offers (copied.stocked m sha member)).toHolds
          (cons_ne_nil _ _))
  | check | vacuum | walk | manifest => cases step

theorem Snapshot.Copied.walk {db : Store} {streams : List (DirStream String)} {a : Walk.Move String}
    {w : Walk String Content} (copied : Snapshot.Copied d db out)
    (stepped : Walk.step skipCopied (d.disk others) a ⟨streams, out⟩ = some (.ok w)) :
    Snapshot.Copied d db w.out := by
  refine ⟨⟨?_, fun above below proper split => ?_⟩, copied.stocked⟩
  · obtain ⟨content, same, found⟩ := copied.database.file
    have kept : w.out [dbFile] = out [dbFile] := Walk.step_skipped stepped (fun _ => rfl)
    exact ⟨content, same, kept.trans found⟩
  · exact Walk.step_dir stepped (copied.database.dirs above below proper split)

theorem Snapshot.Sound.walk {db : Store} {streams : List (DirStream String)}
    (copied : Snapshot.Copied d db out) (rooted : Walk.Rooted ⟨streams, out⟩)
    (due : ∀ m sha, (m, sha) ∈ db.attachmentRefs →
      Walk.Due Content.IsBytes ⟨streams, out⟩ [attachmentsDir, sha])
    (faithful : Snapshot.Faithful (d.disk others) m ⟨.copying streams, out⟩)
    (step : Snapshot.step (d.disk others) m ⟨.copying streams, out⟩ = some s') : s'.Sound d := by
  cases m with
  | walk a =>
    obtain ⟨result, stepped, rfl⟩ := map_eq_some_iff.mp step
    cases result with
    | error fault => exact .failed out _
    | ok w =>
      exact .copying w.streams w.out db (copied.walk stepped) (rooted.step stepped)
        (fun m sha member => (due m sha member).step rooted
          (Daemon.disk_offers (copied.stocked m sha member)) faithful stepped)
  | manifest now dataDir =>
    cases streams with
    | cons => cases step
    | nil =>
      cases step
      cases written : out.write [manifestFile] (.manifest now dataDir) with
      | none => exact .failed out _
      | some out' =>
        refine .complete out' db (copied.database.write (fun same => ?_) written)
          (fun m sha member => ((due m sha member).arrived rfl).write (fun same => ?_) written)
        · exact absurd same (by decide)
        · exact absurd same (by simp)
  | check | vacuum | copyTree => cases step

theorem Snapshot.Sound.step {s : Snapshot} (sound : s.Sound d) (stocked : d.Stocked)
    (faithful : s.Faithful (d.disk others) m) (step : s.step (d.disk others) m = some s') :
    s'.Sound d := by
  cases sound with
  | called out => exact .check step
  | checked out root => exact .vacuum stocked root step
  | vacuumed out db copied => exact .copyTree copied faithful step
  | copying streams out db copied rooted due => exact .walk copied rooted due faithful step
  | complete out | failed out error => cases m <;> cases step

theorem Snapshot.Sound.refresh {s : Snapshot} {d' : Daemon} (sound : s.Sound d)
    (grows : s.midway = true → ∀ sha, d.cas.blobs.contains sha = true →
      d'.cas.blobs.contains sha = true) :
    (s.refresh (d'.disk others)).Sound d' := by
  cases sound with
  | called out => exact .called out
  | checked out root => exact .checked out root
  | vacuumed out db copied =>
    exact .vacuumed out db ⟨copied.database, fun m sha member =>
      grows rfl sha (copied.stocked m sha member)⟩
  | copying streams out db copied rooted due =>
    have stocked : ∀ m sha, (m, sha) ∈ db.attachmentRefs → d'.cas.blobs.contains sha = true :=
      fun m sha member => grows rfl sha (copied.stocked m sha member)
    exact .copying _ out db ⟨copied.database, stocked⟩ rooted.refresh (fun m sha member =>
      (due m sha member).refresh (Daemon.disk_offers (stocked m sha member)).toHolds)
  | complete out db database blobs => exact .complete out db database blobs
  | failed out error => exact .failed out error

end Step

structure Snap.Inv (s : Snap) : Prop where
  shelf : ∃ v, s.shelf.Inv v
  backup : s.snapshot.Sound s.shelf.node.d

theorem Snap.Inv.step {K : Crypto} {s s' : Snap} {a : Snap.Move} (inv : s.Inv)
    (cond : s.Faithful a ∧ s.quiet a = true) (step : Snap.step K a s = some s') : s'.Inv := by
  obtain ⟨faithful, quiet⟩ := cond
  obtain ⟨v, shelf⟩ := inv.shelf
  cases a with
  | daemon a =>
    simp only [Snap.quiet, Bool.and_eq_true, Bool.or_eq_true, Bool.not_eq_true'] at quiet
    obtain ⟨next, moved, rfl⟩ := map_eq_some_iff.mp step
    refine ⟨shelf.step quiet.1 moved, inv.backup.refresh (fun midway sha there => ?_)⟩
    have still : s.shelf.node.purges a = false := by
      rcases quiet.2 with still | outside
      · exact still
      · rw [midway] at outside
        cases outside
    exact shelf.grows still moved sha there
  | outside change =>
    cases step
    exact ⟨inv.shelf, inv.backup.refresh (fun _ _ there => there)⟩
  | snapshot m =>
    obtain ⟨next, moved, rfl⟩ := map_eq_some_iff.mp step
    exact ⟨inv.shelf, inv.backup.step shelf.stocked faithful moved⟩

section Restore

variable {input dataDir result : Disk String Content} {P : Content → Prop} {path : List String}

theorem restoreBegin_ok {listing : List String} {w : Walk String Content}
    (begun : restoreBegin input dataDir listing = .ok w) :
    ∃ kept, Walk.enter input [] listing ⟨[], kept⟩ = .ok w := by
  unfold restoreBegin at begun
  split at begun
  case h_2 => cases begun
  split at begun
  case h_1 => cases begun
  rename_i made _
  cases removed : removeSidecars made with
  | error e => simp [removed, Bind.bind, Except.bind] at begun
  | ok kept =>
    refine ⟨kept, ?_⟩
    cases entered : Walk.enter input [] listing ⟨[], kept⟩ with
    | error fault => simp [removed, entered, Bind.bind, Except.bind, Except.mapError] at begun
    | ok opened => simpa [removed, entered, Bind.bind, Except.bind, Except.mapError] using begun

theorem RestoredInto.holds (restored : RestoredInto input dataDir result)
    (offers : input.Offers skipRestored P path) (below : path ≠ []) : result.Holds P path := by
  obtain ⟨listing, w, moves, begun, listed, faithful, reached⟩ := restored
  obtain ⟨kept, entered⟩ := restoreBegin_ok begun
  have empty : Walk.Rooted (⟨[], kept⟩ : Walk String Content) := by
    intro stream member
    cases member
  have rooted : w.Rooted := empty.enter entered (fun above below proper split =>
    absurd (append_eq_nil_iff.mp split).2 proper)
  exact Walk.copied_of_offers rooted (Walk.due_enter entered listed offers.toHolds below) offers
    faithful reached rfl

theorem offers_db {db : Store} (holds : input.Holds (· = .database db) [dbFile]) :
    input.Offers skipRestored (· = .database db) [dbFile] := by
  refine ⟨holds, fun above below some split => ?_⟩
  rcases prefix_single split with rfl | ⟨rfl, _⟩
  · exact absurd rfl some
  · rfl

theorem offers_blob {sha : String} (holds : input.Holds Content.IsBytes [attachmentsDir, sha]) :
    input.Offers skipRestored Content.IsBytes [attachmentsDir, sha] := by
  refine ⟨holds, fun above below some split => ?_⟩
  rcases prefix_pair split with rfl | rfl | ⟨rfl, _⟩
  · exact absurd rfl some
  · rfl
  · obtain ⟨content, _, found⟩ := holds.file
    simp [skipRestored, found, Inode.isSpecial]

theorem backupComplete_of_holds {db : Store} (database : input.Holds (· = .database db) [dbFile])
    (blobs : ∀ m sha, (m, sha) ∈ db.attachmentRefs → input.Holds Content.IsBytes
      [attachmentsDir, sha]) :
    BackupComplete input := by
  obtain ⟨_, rfl, found⟩ := database.file
  refine ⟨db, found, fun m sha member _ => ?_⟩
  obtain ⟨_, ⟨data, rfl⟩, there⟩ := (blobs m sha member).file
  exact ⟨data, there⟩

end Restore

/-- Where directories are listed in full and no purge comes between the first put and the references
of a call, or between the database and the last file of the backup: a backup that returns `Ok`, and
every directory it is restored into, has the blob of every reference in its database. -/
theorem backup_consistent (K : Crypto) (moves : List Snap.Move) (σ₀ : Node)
    (others out : Disk String Content) (s : Snap) (fresh : σ₀.Fresh) (stocked : σ₀.d.Stocked)
    (cond : Meets (Snap.step K) (fun a s => s.Faithful a ∧ s.quiet a = true) moves
      (.start σ₀ others out))
    (reached : Snap.run K moves (.start σ₀ others out) = some s)
    (ok : s.snapshot.job = .returned (.ok ())) :
    BackupComplete s.snapshot.out ∧
      ∀ dataDir result, RestoredInto s.snapshot.out dataDir result → BackupComplete result := by
  have start : (Snap.start σ₀ others out).Inv := ⟨⟨_, fresh.shelved stocked⟩, .called out⟩
  have inv := runAll_preserves Snap.Inv (fun a s s' cond step inv => inv.step cond step)
    moves _ _ cond reached start
  obtain ⟨shelf, others', ⟨job, written⟩⟩ := s
  obtain rfl : job = .returned (.ok ()) := ok
  cases inv.backup with
  | complete _ db database blobs =>
    refine ⟨backupComplete_of_holds database blobs, fun dataDir result restored => ?_⟩
    exact backupComplete_of_holds (restored.holds (offers_db database) (cons_ne_nil _ _))
      (fun m sha member => restored.holds (offers_blob (blobs m sha member)) (cons_ne_nil _ _))

def Job.isOk : Job → Bool
  | .returned (.ok _) => true
  | .called | .checked | .vacuumed | .copying _ | .returned (.error _) => false

def databaseNames (t : Disk String Content) (m : Uuid) (sha : String) : Bool :=
  match t [dbFile] with
  | some (.file (.database db)) => db.hasAttachmentRef m sha && db.messages.contains m
  | _ => false

private theorem Job.returned_of_isOk {job : Job} (ok : job.isOk = true) :
    job = .returned (.ok ()) := by
  cases job with
  | returned result =>
    cases result with
    | ok => rfl
    | error => cases ok
  | called | checked | vacuumed | copying => cases ok

private theorem incomplete_of_missing {t : Disk String Content} {m : Uuid} {sha : String}
    (named : databaseNames t m sha = true) (missing : (t [attachmentsDir, sha]).isNone = true) :
    ¬ BackupComplete t := by
  rintro ⟨db, found, blobs⟩
  simp only [databaseNames, Store.hasAttachmentRef, found, Bool.and_eq_true,
    decide_eq_true_eq] at named
  obtain ⟨data, there⟩ := blobs m sha named.1 named.2
  rw [there] at missing
  cases missing

def pictureSha : String := (Crypto.clear "rf:a").sha256 [1]

def Store.pictured : Store :=
  { (Store.empty.insertMessage (Envelope.hello ⟨7⟩)).insertDeadDelivery 0 ⟨7⟩ "in" ⟨"b", "room"⟩ 0
      (seconds 3600) .queueFull with
    attachmentRefs := [(⟨7⟩, pictureSha)] }

def Node.pictured : Node :=
  { Node.small .pictured with
    d := { Daemon.small .pictured with cas := ⟨Map.empty.insert pictureSha [1], 0, 1⟩ } }

def walkMoves (blobs : List String) : List Snap.Move :=
  [.snapshot (.copyTree [dbFile, attachmentsDir]), .snapshot (.walk (.entry dbFile [])),
    .snapshot (.walk (.entry attachmentsDir blobs))] ++
    blobs.map (fun sha => .snapshot (.walk (.entry sha []))) ++
    [.snapshot (.walk .finish), .snapshot (.walk .finish), .snapshot (.manifest 0 "/data")]

def undisturbedMoves : List Snap.Move :=
  [.snapshot (.check false), .snapshot .vacuum, .daemon .pump] ++ walkMoves [pictureSha]

def disturbedMoves : List Snap.Move :=
  [.snapshot (.check false), .snapshot .vacuum, .daemon (.spawn .purgeDead), .daemon (.call 0)] ++
    walkMoves []

private theorem pictured_stocked : Node.pictured.d.Stocked := by
  intro ref member
  obtain rfl := mem_singleton.mp member
  simp [Node.pictured, Map.contains_insert]

private theorem pictured_purged (sha : String) :
    (removeOrphans Node.pictured.d Node.pictured.d.store.purgeDeadLetters).cas.blobs.contains sha =
      false := by
  have orphans : Node.pictured.d.store.purgeDeadLetters.1 = [pictureSha] := by
    decide +kernel
  have valid : Cas.isValidSha pictureSha = true := by
    decide +kernel
  unfold removeOrphans
  rw [orphans]
  simp only [foldl_cons, foldl_nil, Cas.remove, if_pos valid]
  by_cases same : sha = pictureSha <;>
    simp [Map.contains, Map.erase_apply, Node.pictured, Map.insert_apply, Map.empty, same]

private theorem lists_top (d : Daemon) :
    Walk.Lists (d.disk Map.empty) [] [dbFile, attachmentsDir] := by
  intro name there
  by_contra absent
  simp only [mem_cons, not_mem_nil, or_false, not_or] at absent
  simp [Daemon.disk, absent, Map.empty] at there

private theorem lists_blobs {d : Daemon} {shas : List String}
    (all : ∀ sha, d.cas.blobs.contains sha = true → sha ∈ shas) :
    Walk.Lists (d.disk Map.empty) [attachmentsDir] shas := by
  intro name there
  apply all
  have found : (d.disk Map.empty [attachmentsDir, name]).isSome = true := there
  cases stored : d.cas.blobs name with
  | none => simp [Daemon.disk, stored, Map.empty] at found
  | some data => simp [Map.contains, stored]

private theorem faithful_finish (s : Snap) : s.Faithful (.snapshot (.walk .finish)) := by
  obtain ⟨shelf, others, ⟨job, out⟩⟩ := s
  cases job <;> trivial

private theorem faithful_end {K : Crypto} (s : Snap) :
    Meets (Snap.step K) (fun a s => s.Faithful a)
      [.snapshot (.walk .finish), .snapshot (.walk .finish), .snapshot (.manifest 0 "/data")] s :=
  ⟨faithful_finish s, fun s' _ => ⟨faithful_finish s', fun _ _ => ⟨trivial, fun _ _ => trivial⟩⟩⟩

private theorem disturbed_faithful :
    Meets (Snap.step (.clear "rf:a")) (fun a s => s.Faithful a) disturbedMoves
      (.start .pictured Map.empty Map.empty) := by
  refine ⟨trivial, fun s₁ first => ?_⟩
  cases first
  refine ⟨trivial, fun s₂ second => ?_⟩
  cases second
  refine ⟨trivial, fun s₃ third => ?_⟩
  cases third
  refine ⟨trivial, fun s₄ fourth => ?_⟩
  cases fourth
  refine ⟨lists_top _, fun s₅ fifth => ?_⟩
  cases fifth
  refine ⟨fun dir => ?_, fun s₆ sixth => ?_⟩
  · cases dir
  cases sixth
  refine ⟨fun _ => ?_, fun s₇ seventh => ?_⟩
  · refine lists_blobs (fun sha there => ?_)
    have left : (removeOrphans Node.pictured.d
        Node.pictured.d.store.purgeDeadLetters).cas.blobs.contains sha = true := there
    rw [pictured_purged] at left
    cases left
  exact faithful_end s₇

private theorem undisturbed_faithful :
    Meets (Snap.step (.clear "rf:a")) (fun a s => s.Faithful a) undisturbedMoves
      (.start .pictured Map.empty Map.empty) := by
  refine ⟨trivial, fun s₁ first => ?_⟩
  cases first
  refine ⟨trivial, fun s₂ second => ?_⟩
  cases second
  refine ⟨trivial, fun s₃ third => ?_⟩
  cases third
  refine ⟨lists_top _, fun s₄ fourth => ?_⟩
  cases fourth
  refine ⟨fun dir => ?_, fun s₅ fifth => ?_⟩
  · cases dir
  cases fifth
  refine ⟨fun _ => ?_, fun s₆ sixth => ?_⟩
  · refine lists_blobs (fun sha there => ?_)
    have stored : Node.pictured.d.cas.blobs.contains sha = true := there
    simpa [Node.pictured, Map.contains_insert] using stored
  cases sixth
  refine ⟨fun dir => ?_, fun s₇ _ => faithful_end s₇⟩
  cases dir

theorem backup_consistent_undisturbed :
    ∃ s, Snap.run (.clear "rf:a") undisturbedMoves (.start .pictured Map.empty Map.empty) = some s ∧
      databaseNames s.snapshot.out ⟨7⟩ pictureSha = true ∧ BackupComplete s.snapshot.out ∧
        ∀ dataDir result, RestoredInto s.snapshot.out dataDir result → BackupComplete result := by
  obtain ⟨s, reached, ok, named⟩ :
      ∃ s, Snap.run (.clear "rf:a") undisturbedMoves (.start .pictured Map.empty Map.empty) =
        some s ∧
        s.snapshot.job.isOk = true ∧ databaseNames s.snapshot.out ⟨7⟩ pictureSha = true := by
    decide +kernel
  have quiet : Meets (Snap.step (.clear "rf:a")) (fun a s => s.quiet a = true) undisturbedMoves
      (.start .pictured Map.empty Map.empty) := by
    decide +kernel
  exact ⟨s, reached, named, backup_consistent _ _ .pictured Map.empty Map.empty s ⟨rfl, rfl⟩
    pictured_stocked (undisturbed_faithful.and quiet) reached (Job.returned_of_isOk ok)⟩

/-- The purge comes between the two copies: the backup returns `Ok` and has the message with its
reference, and the picture is in neither store. -/
theorem purge_before_files_loses_blob :
    Node.pictured.Fresh ∧ Node.pictured.d.Stocked ∧
      Meets (Snap.step (.clear "rf:a")) (fun a s => s.Faithful a) disturbedMoves
        (.start .pictured Map.empty Map.empty) ∧
      ∃ s, Snap.run (.clear "rf:a") disturbedMoves (.start .pictured Map.empty Map.empty) = some s ∧
        s.snapshot.job = .returned (.ok ()) ∧ ¬ BackupComplete s.snapshot.out := by
  obtain ⟨s, reached, ok, named, missing⟩ :
      ∃ s, Snap.run (.clear "rf:a") disturbedMoves (.start .pictured Map.empty Map.empty) = some s ∧
        s.snapshot.job.isOk = true ∧ databaseNames s.snapshot.out ⟨7⟩ pictureSha = true ∧
        (s.snapshot.out [attachmentsDir, pictureSha]).isNone = true := by
    decide +kernel
  exact ⟨⟨rfl, rfl⟩, pictured_stocked, disturbed_faithful, s, reached, Job.returned_of_isOk ok,
    incomplete_of_missing named missing⟩

end RelayFabric
