/- source: admin.rs (config_put, config_rollback), config.rs (secret_refs), secrets.rs, engine.rs
   digest: Config writes that interleave at their locks, and what they cannot bring in. -/

import Mathlib.Data.List.Dedup
import Mathlib.Data.List.Sort
import RelayFabric.Admin.Revisions
import RelayFabric.Lib.Keyed
import RelayFabric.Lib.Table

namespace RelayFabric

open List Lib Option

inductive SecretRef
  | env (name : String)
  | file (path : String)
  deriving DecidableEq, Repr

namespace SecretRef

def displayForm : SecretRef → String
  | .env name => "$\x7benv:" ++ name ++ "\x7d"
  | .file path => "$\x7bfile:" ++ path ++ "\x7d"

def afterScheme (scheme : String) (inner : List Char) : Option (List Char) :=
  if scheme.toList.isPrefixOf inner then some (inner.drop scheme.length) else none

def ofInner (inner : List Char) : Option SecretRef :=
  if inner.contains '\x7d' || inner.contains '\x7b' then none
  else match afterScheme "env:" inner with
    | some name => if name.isEmpty then none else some (.env (String.ofList name))
    | none => match afterScheme "file:" inner with
      | some path => if path.isEmpty then none else some (.file (String.ofList path))
      | none => none

def parseRef (text : String) : Option SecretRef :=
  match text.toList with
  | '$' :: '\x7b' :: rest => if rest.getLast? = some '\x7d' then ofInner rest.dropLast else none
  | _ => none

end SecretRef

inductive Yaml
  | null
  | bool (value : Bool)
  | number (text : String)
  | string (text : String)
  | sequence (items : List Yaml)
  | mapping (entries : List (Yaml × Yaml))
  | tagged (tag : String) (value : Yaml)

namespace Yaml

mutual

/-- `collect_secret_refs`: the keys of a mapping and tagged values are not looked at. -/
def collectSecretRefs : Yaml → List String
  | .string text => ((SecretRef.parseRef text).map SecretRef.displayForm).toList
  | .sequence items => collectItems items
  | .mapping entries => collectEntries entries
  | .null | .bool _ | .number _ | .tagged _ _ => []

def collectItems : List Yaml → List String
  | [] => []
  | item :: items => collectSecretRefs item ++ collectItems items

def collectEntries : List (Yaml × Yaml) → List String
  | [] => []
  | (_, value) :: entries => collectSecretRefs value ++ collectEntries entries

end

end Yaml

structure PathBuf where
  text : String
  deriving DecidableEq, Repr

namespace PathBuf

/-- Whether the path is absolute, and its components: empty ones are skipped, and so is `.` unless
it comes first. -/
def components (path : PathBuf) : Bool × List (List Char) :=
  (path.text.toList.head? = some '/', match path.text.toList.splitOn '/' with
    | [] => []
    | first :: rest => (if first = [] then [] else [first]) ++
        rest.filter (fun piece => piece ≠ [] ∧ piece ≠ ['.']))

def Same (path other : PathBuf) : Prop := path.components = other.components

instance (path other : PathBuf) : Decidable (path.Same other) :=
  inferInstanceAs (Decidable (path.components = other.components))

end PathBuf

structure PluginEntry where
  name : String
  command : Option String
  config : Yaml

structure FileConfig where
  dataDir : PathBuf
  plugins : Keyed PluginEntry PluginEntry.name

namespace FileConfig

def commands (cfg : FileConfig) : Map String (Option String) :=
  fun name => (cfg.plugins.get? name).map PluginEntry.command

def secretRefs (cfg : FileConfig) : List (String × String) :=
  cfg.plugins.rows.flatMap (fun plugin => plugin.config.collectSecretRefs.map
    (fun ref => (plugin.name, ref)))

def Runs (cfg : FileConfig) (name command : String) : Prop :=
  cfg.commands name = some (some command)

end FileConfig

def rejectedCommandChanges (current : Map String (Option String)) (new : FileConfig) :
    List String :=
  (new.plugins.rows.filterMap (fun plugin => plugin.command.bind (fun command =>
    if (current plugin.name).bind id = some command then none else some plugin.name))).insertionSort
      (· ≤ ·)

/-- The references that the running config does not have, as `"<plugin>: <reference>"`. -/
def rejectedSecretRefChanges (current : List (String × String)) (new : FileConfig) : List String :=
  (((new.secretRefs.filter (fun pair => pair ∉ current)).dedup).insertionSort
    (fun a b => a.1 < b.1 ∨ a.1 = b.1 ∧ a.2 ≤ b.2)).map (fun pair => pair.1 ++ ": " ++ pair.2)

def commandErrors (current : Map String (Option String)) (new : FileConfig) : List String :=
  let rejected := rejectedCommandChanges current new
  if rejected.isEmpty then [] else
    ["plugin command may not be set or changed via the admin API " ++
      "(edit the config file and restart the daemon instead): " ++ ", ".intercalate rejected]

def dataDirErrors (current : PathBuf) (new : FileConfig) : List String :=
  if new.dataDir.Same current then [] else
    ["node.data_dir may not be changed via the admin API " ++
      "(edit the config file and restart the daemon instead)"]

def secretRefErrors (current : List (String × String)) (new : FileConfig) : List String :=
  let rejected := rejectedSecretRefChanges current new
  if rejected.isEmpty then [] else
    ["secret references may not be introduced or moved via the admin API " ++
      "(edit the config file and restart the daemon instead): " ++ ", ".intercalate rejected]

/-- `load_from_str`: the YAML text read by the deserializer, and then what validation and the
secrets say at that moment. -/
def loadFromStr (fromStr : String → Except String FileConfig) (problem : Option String)
    (text : String) : Except String FileConfig :=
  match fromStr text with
  | .error e => .error e
  | .ok cfg => match problem with
    | some e => .error e
    | none => .ok cfg

inductive ConfigReply
  | applied
  | invalid (errors : List String)
  | notFound
  | conflict (errors : List String)
  | serverError
  deriving DecidableEq, Repr

inductive ConfigHandler
  | loaded (text : String) (new : FileConfig)
  | commandsSeen (text : String) (new : FileConfig) (errors : List String)
  | dataDirSeen (text : String) (new : FileConfig) (errors : List String)
  | permitted (text : String) (new : FileConfig)
  | rollingBack
  | applying (new : FileConfig)
  | done (reply : ConfigReply)

structure History where
  live : String
  displaced : List (Option String)
  deriving DecidableEq, Repr

namespace History

def ofFiles (fs : Files) (live : String) : History :=
  ⟨live, (List.range configHistory).map (fun n => fs (.prev (n + 1)))⟩

def push (text : String) (h : History) : History := ⟨text, some h.live :: h.displaced⟩

def swap (h : History) : History :=
  match h.displaced with
  | some kept :: rest => ⟨kept, some h.live :: rest⟩
  | _ => h

structure Kept (h : History) (fs : Files) : Prop where
  live : fs .live = some h.live
  slots : ∀ n < configHistory, fs (.prev (n + 1)) = h.displaced[n]?.join

end History

/-- The daemon as config writes see it. The history is kept for the statements only. -/
structure ConfigDesk where
  files : Files
  cfg : FileConfig
  writer : Option Nat
  calls : List ConfigHandler
  history : History

/-- A request arrives, or one that did takes its next step; `problem` is what validation and the
secrets say if it loads a text. -/
inductive ConfigMove
  | put (text : String) (problem : Option String)
  | rollback
  | step (i : Nat) (problem : Option String)
  deriving DecidableEq, Repr

namespace ConfigDesk

def moveTo (s : ConfigDesk) (i : Nat) (handler : ConfigHandler) : ConfigDesk :=
  { s with calls := s.calls.set i handler }

def applyConfig (s : ConfigDesk) (new : FileConfig) : ConfigDesk :=
  { s with cfg := new, writer := none }

def land (s : ConfigDesk) (i : Nat) (files : Files) (history : History) : ConfigDesk :=
  { s with files := files, writer := some i, history := history }

def putFiles (s : ConfigDesk) (i : Nat) (text : String) (new : FileConfig) : ConfigDesk :=
  match s.files.writeConfigReplacingCurrent none text with
  | .error files => { s with files := files }.moveTo i (.done .serverError)
  | .ok files => (s.land i files (s.history.push text)).moveTo i (.applying new)

def rollbackFiles (fromStr : String → Except String FileConfig) (problem : Option String)
    (s : ConfigDesk) (i : Nat) : ConfigDesk :=
  match s.files (.prev 1) with
  | none => s.moveTo i (.done .notFound)
  | some text => match loadFromStr fromStr problem text with
    | .error e => s.moveTo i (.done (.conflict [e]))
    | .ok new => match s.files.swapWithPrev none with
      | .error files => { s with files := files }.moveTo i (.done .serverError)
      | .ok files => (s.land i files s.history.swap).moveTo i (.applying new)

def advance (fromStr : String → Except String FileConfig) (problem : Option String) (s : ConfigDesk)
    (i : Nat) : ConfigHandler → Option ConfigDesk
  | .loaded text new =>
    some (s.moveTo i (.commandsSeen text new (commandErrors s.cfg.commands new)))
  | .commandsSeen text new errors =>
    some (s.moveTo i (.dataDirSeen text new (errors ++ dataDirErrors s.cfg.dataDir new)))
  | .dataDirSeen text new errors =>
    let errors := errors ++ secretRefErrors s.cfg.secretRefs new
    some (s.moveTo i (if errors.isEmpty then .permitted text new else .done (.invalid errors)))
  | .permitted text new => if s.writer.isNone then some (s.putFiles i text new) else none
  | .rollingBack => if s.writer.isNone then some (s.rollbackFiles fromStr problem i) else none
  | .applying new => some ((s.applyConfig new).moveTo i (.done .applied))
  | .done _ => none

def configPut (fromStr : String → Except String FileConfig) (problem : Option String)
    (text : String) : ConfigHandler :=
  match loadFromStr fromStr problem text with
  | .error e => .done (.invalid [e])
  | .ok new => .loaded text new

def step (fromStr : String → Except String FileConfig) (move : ConfigMove) (s : ConfigDesk) :
    Option ConfigDesk :=
  match move with
  | .put text problem => some { s with calls := s.calls ++ [configPut fromStr problem text] }
  | .rollback => some { s with calls := s.calls ++ [.rollingBack] }
  | .step i problem => match s.calls[i]? with
    | none => none
    | some handler => s.advance fromStr problem i handler

structure Start (fromStr : String → Except String FileConfig) (s : ConfigDesk) : Prop where
  calls : s.calls = []
  writer : s.writer = none
  live : ∃ text, s.files .live = some text ∧ fromStr text = .ok s.cfg ∧
    s.history = History.ofFiles s.files text

def Shows (fromStr : String → Except String FileConfig) (s : ConfigDesk) (cfg : FileConfig) :
    Prop :=
  s.cfg = cfg ∨ ∃ text, s.files.Has text ∧ fromStr text = .ok cfg

def Holds (fromStr : String → Except String FileConfig) (s : ConfigDesk) (cfg : FileConfig) :
    Prop :=
  s.cfg = cfg ∨ ∃ n text, 1 ≤ n ∧ n ≤ configHistory ∧ s.files (.prev n) = some text ∧
    fromStr text = .ok cfg

end ConfigDesk

section Confined

variable (initial : FileConfig → Prop)

def CommandsWithin (cfg : FileConfig) : Prop :=
  ∀ name command, cfg.Runs name command → ∃ old, initial old ∧ old.Runs name command

def DataDirWithin (cfg : FileConfig) : Prop := ∃ old, initial old ∧ cfg.dataDir.Same old.dataDir

def SecretRefsWithin (cfg : FileConfig) : Prop :=
  ∀ pair ∈ cfg.secretRefs, ∃ old, initial old ∧ pair ∈ old.secretRefs

/-- Every command, data directory and secret reference of the config is one of an initial config. -/
structure Confined (cfg : FileConfig) : Prop where
  commands : CommandsWithin initial cfg
  dataDir : DataDirWithin initial cfg
  secretRefs : SecretRefsWithin initial cfg

end Confined

variable {initial : FileConfig → Prop} {current new : FileConfig}

theorem Confined.of_initial (member : initial new) : Confined initial new :=
  ⟨fun _ _ runs => ⟨new, member, runs⟩, ⟨new, member, rfl⟩, fun _ found => ⟨new, member, found⟩⟩

theorem FileConfig.runs_iff {cfg : FileConfig} {name command : String} :
    cfg.Runs name command ↔ ∃ plugin ∈ cfg.plugins.rows, plugin.name = name ∧
      plugin.command = some command := by
  unfold Runs commands
  rw [map_eq_some_iff]
  constructor
  · rintro ⟨plugin, found, runs⟩
    obtain ⟨member, named⟩ := cfg.plugins.get?_eq_some.mp found
    exact ⟨plugin, member, named, runs⟩
  · rintro ⟨plugin, member, named, runs⟩
    exact ⟨plugin, cfg.plugins.get?_eq_some.mpr ⟨member, named⟩, runs⟩

theorem mem_rejectedCommandChanges {running : Map String (Option String)} {name command : String}
    (runs : new.Runs name command) (differs : running name ≠ some (some command)) :
    name ∈ rejectedCommandChanges running new := by
  obtain ⟨plugin, member, rfl, commanded⟩ := FileConfig.runs_iff.mp runs
  have other : (running plugin.name).bind id ≠ some command := by
    intro same
    obtain ⟨inner, found, rfl⟩ := bind_eq_some_iff.mp same
    exact differs found
  unfold rejectedCommandChanges
  rw [mem_insertionSort, mem_filterMap]
  exact ⟨plugin, member, by rw [commanded, bind_some, if_neg other]⟩

theorem mem_rejectedSecretRefChanges {running : List (String × String)} {pair : String × String}
    (found : pair ∈ new.secretRefs) (absent : pair ∉ running) :
    pair.1 ++ ": " ++ pair.2 ∈ rejectedSecretRefChanges running new := by
  unfold rejectedSecretRefChanges
  refine mem_map.mpr ⟨pair, ?_, rfl⟩
  rw [mem_insertionSort, mem_dedup, mem_filter]
  exact ⟨found, decide_eq_true absent⟩

private theorem not_mem_of_silent {rejected : List String} {message entry : String}
    (silent : (if rejected.isEmpty then [] else [message]) = []) : entry ∉ rejected := by
  cases rejected with
  | nil => exact not_mem_nil
  | cons name rest => exact absurd silent (by simp)

theorem CommandsWithin.of_silent (silent : commandErrors current.commands new = [])
    (within : CommandsWithin initial current) : CommandsWithin initial new := by
  intro name command runs
  refine within name command ?_
  by_contra differs
  exact not_mem_of_silent silent (mem_rejectedCommandChanges runs differs)

theorem DataDirWithin.of_silent (silent : dataDirErrors current.dataDir new = [])
    (within : DataDirWithin initial current) : DataDirWithin initial new := by
  obtain ⟨old, member, same⟩ := within
  refine ⟨old, member, ?_⟩
  by_cases equal : new.dataDir.Same current.dataDir
  · exact equal.trans same
  · unfold dataDirErrors at silent
    rw [if_neg equal] at silent
    exact absurd silent (cons_ne_nil _ _)

theorem SecretRefsWithin.of_silent (silent : secretRefErrors current.secretRefs new = [])
    (within : SecretRefsWithin initial current) : SecretRefsWithin initial new := by
  intro pair found
  refine within pair ?_
  by_contra absent
  exact not_mem_of_silent silent (mem_rejectedSecretRefChanges found absent)

namespace History

variable {h : History} {fs fs' : Files} {text : String}

theorem Kept.ofFiles (exists_live : fs .live = some text) : (ofFiles fs text).Kept fs := by
  refine ⟨exists_live, fun n less => ?_⟩
  unfold History.ofFiles
  rw [List.getElem?_map, List.getElem?_range less]
  rfl

theorem Kept.push (kept : h.Kept fs) :
    ∃ fs', fs.writeConfigReplacingCurrent none text = .ok fs' ∧ (h.push text).Kept fs' ∧
      ∀ other, fs'.Has other → other = text ∨ fs.Has other := by
  obtain ⟨fs', written, live, -, first, later⟩ := @Files.writeConfig_push fs text h.live kept.live
  refine ⟨fs', written, ⟨live, ?_⟩, ?_⟩
  · intro n less
    cases n with
    | zero => exact first
    | succ n => rw [later (n + 1) (by omega) less]; exact kept.slots n (by omega)
  · rintro other (found | ⟨n, positive, le, found⟩)
    · exact Or.inl (Option.some.inj (found.symm.trans live))
    · refine Or.inr ?_
      obtain ⟨n, rfl⟩ := Nat.exists_eq_add_of_le' positive
      cases n with
      | zero => exact Or.inl (kept.live.trans (first.symm.trans found))
      | succ n => exact Or.inr ⟨n + 1, by omega, by omega,
          (later (n + 1) (by omega) (by omega)).symm.trans found⟩

theorem Kept.swap (kept : h.Kept fs) (exists_prev : fs (.prev 1) = some text) :
    ∃ fs', fs.swapWithPrev none = .ok fs' ∧ h.swap.Kept fs' ∧ ∀ other, fs'.Has other →
      fs.Has other := by
  obtain ⟨fs', swapped, live, -, first, others⟩ := Files.swapWithPrev_ok kept.live exists_prev
  have newest : h.displaced[0]?.join = some text :=
    (kept.slots 0 (by decide)).symm.trans exists_prev
  obtain ⟨rest, shape⟩ : ∃ rest, h.displaced = some text :: rest := by
    cases shape : h.displaced with
    | nil => rw [shape] at newest; exact absurd newest (by simp)
    | cons head rest =>
      rw [shape] at newest
      exact ⟨rest, by rw [show head = some text from newest]⟩
  have after : h.swap = ⟨text, some h.live :: rest⟩ := by
    unfold History.swap
    rw [shape]
  refine ⟨fs', swapped, ?_, ?_⟩
  · rw [after]
    refine ⟨live, fun n less => ?_⟩
    cases n with
    | zero => exact first
    | succ n =>
      have slot := kept.slots (n + 1) less
      rw [shape] at slot
      exact (others (n + 1 + 1) (by omega)).trans slot
  · rintro other (found | ⟨n, positive, le, found⟩)
    · exact Or.inr ⟨1, by decide, by decide, exists_prev.trans (live.symm.trans found)⟩
    · by_cases only : n = 1
      · subst only
        exact Or.inl (kept.live.trans (first.symm.trans found))
      · exact Or.inr ⟨n, positive, le, (others n only).symm.trans found⟩

end History

def ConfigHandler.Sound (fromStr : String → Except String FileConfig)
    (initial : FileConfig → Prop) : ConfigHandler → Prop
  | .loaded text new => fromStr text = .ok new
  | .commandsSeen text new errors =>
    fromStr text = .ok new ∧ (errors = [] → CommandsWithin initial new)
  | .dataDirSeen text new errors => fromStr text = .ok new ∧
      (errors = [] → CommandsWithin initial new ∧ DataDirWithin initial new)
  | .permitted text new => fromStr text = .ok new ∧ Confined initial new
  | .applying new => Confined initial new
  | .rollingBack | .done _ => True

namespace ConfigDesk

variable {fromStr : String → Except String FileConfig} {problem : Option String} {s s' : ConfigDesk}
  {i : Nat} {handler : ConfigHandler} {text : String}

structure Inv (fromStr : String → Except String FileConfig) (initial : FileConfig → Prop)
    (s : ConfigDesk) : Prop where
  running : Confined initial s.cfg
  texts : ∀ text, s.files.Has text → ∀ cfg, fromStr text = .ok cfg → Confined initial cfg
  calls : ∀ handler ∈ s.calls, handler.Sound fromStr initial
  history : s.history.Kept s.files

theorem ok_of_loadFromStr {cfg : FileConfig} (loads : loadFromStr fromStr problem text = .ok cfg) :
    fromStr text = .ok cfg := by
  unfold loadFromStr at loads
  split at loads
  · cases loads
  · next parsed =>
    split at loads
    · cases loads
    · rw [parsed]
      exact loads

theorem sound_configPut : (configPut fromStr problem text).Sound fromStr initial := by
  unfold configPut
  split
  · trivial
  · next loads => exact ok_of_loadFromStr loads

namespace Inv

section

variable (inv : Inv fromStr initial s)
include inv

theorem arrive (sound : handler.Sound fromStr initial) :
    Inv fromStr initial { s with calls := s.calls ++ [handler] } := by
  refine { inv with calls := ?_ }
  intro other member
  rcases mem_append.mp member with old | new
  · exact inv.calls other old
  · rw [mem_singleton.mp new]
    exact sound

theorem moveTo (sound : handler.Sound fromStr initial) (i : Nat) :
    Inv fromStr initial (s.moveTo i handler) := by
  refine { inv with calls := ?_ }
  intro other member
  rcases mem_or_eq_of_mem_set member with old | new
  · exact inv.calls other old
  · rw [new]
    exact sound

theorem applyConfig (confined : Confined initial new) :
    Inv fromStr initial (s.applyConfig new) := { inv with running := confined }

theorem land {files : Files} {history : History}
    (kept : history.Kept files)
    (texts : ∀ text, files.Has text → ∀ cfg, fromStr text = .ok cfg → Confined initial cfg)
    (i : Nat) :
    Inv fromStr initial (s.land i files history) := ⟨inv.running, texts, inv.calls, kept⟩

theorem putFiles (parsed : fromStr text = .ok new)
    (confined : Confined initial new) (i : Nat) : Inv fromStr initial (s.putFiles i text new) := by
  obtain ⟨files, written, kept, sources⟩ := @History.Kept.push _ _ text inv.history
  unfold ConfigDesk.putFiles
  rw [written]
  refine (inv.land kept ?_ i).moveTo ?_ i
  · intro other found cfg reads
    rcases sources other found with rfl | old
    · obtain rfl := Except.ok.inj (parsed.symm.trans reads)
      exact confined
    · exact inv.texts other old cfg reads
  · exact confined

theorem rollbackFiles (i : Nat) :
    Inv fromStr initial (s.rollbackFiles fromStr problem i) := by
  unfold ConfigDesk.rollbackFiles
  cases found : s.files (.prev 1) with
  | none =>
    refine inv.moveTo ?_ i
    trivial
  | some text =>
    dsimp only
    cases loads : loadFromStr fromStr problem text with
    | error e =>
      refine inv.moveTo ?_ i
      trivial
    | ok new =>
      obtain ⟨files, swapped, kept, sources⟩ := inv.history.swap found
      have slot : s.files.Has text := Or.inr ⟨1, by decide, by decide, found⟩
      dsimp only
      rw [swapped]
      refine (inv.land kept (fun other has => inv.texts other (sources other has)) i).moveTo ?_ i
      exact inv.texts text slot new (ok_of_loadFromStr loads)

theorem advance (sound : handler.Sound fromStr initial)
    (moved : s.advance fromStr problem i handler = some s') : Inv fromStr initial s' := by
  cases handler with
  | loaded text new =>
    cases moved
    refine inv.moveTo ?_ i
    exact ⟨sound, fun silent => inv.running.commands.of_silent silent⟩
  | commandsSeen text new errors =>
    cases moved
    refine inv.moveTo ?_ i
    refine ⟨sound.1, fun silent => ?_⟩
    obtain ⟨before, now⟩ := append_eq_nil_iff.mp silent
    exact ⟨sound.2 before, inv.running.dataDir.of_silent now⟩
  | dataDirSeen text new errors =>
    cases moved
    refine inv.moveTo ?_ i
    split
    · next silent =>
      obtain ⟨before, now⟩ := append_eq_nil_iff.mp (isEmpty_iff.mp silent)
      obtain ⟨commands, dataDir⟩ := sound.2 before
      exact ⟨sound.1, commands, dataDir, inv.running.secretRefs.of_silent now⟩
    · trivial
  | permitted text new =>
    obtain ⟨-, moved⟩ := ite_none_right_eq_some.mp moved
    cases moved
    exact inv.putFiles sound.1 sound.2 i
  | rollingBack =>
    obtain ⟨-, moved⟩ := ite_none_right_eq_some.mp moved
    cases moved
    exact inv.rollbackFiles i
  | applying new =>
    cases moved
    refine (inv.applyConfig sound).moveTo ?_ i
    trivial
  | done reply => cases moved

end

theorem step {move : ConfigMove} (moved : s.step fromStr move = some s')
    (inv : Inv fromStr initial s) : Inv fromStr initial s' := by
  cases move with
  | put text problem =>
    cases moved
    exact inv.arrive sound_configPut
  | rollback =>
    cases moved
    exact inv.arrive trivial
  | step i problem =>
    unfold ConfigDesk.step at moved
    dsimp only at moved
    split at moved
    · cases moved
    · next handler found => exact inv.advance (inv.calls handler (mem_of_getElem? found)) moved

theorem ofStart (begins : Start fromStr s) : Inv fromStr (s.Holds fromStr) s := by
  obtain ⟨text, exists_live, parsed, history⟩ := begins.live
  refine ⟨Confined.of_initial (Or.inl rfl), ?_, ?_, ?_⟩
  · rintro other (live | ⟨n, positive, le, found⟩) cfg reads
    · obtain rfl := Option.some.inj (exists_live.symm.trans live)
      exact Confined.of_initial (Or.inl (Except.ok.inj (parsed.symm.trans reads)))
    · exact Confined.of_initial (Or.inr ⟨n, other, positive, le, found, reads⟩)
  · intro handler member
    rw [begins.calls] at member
    exact absurd member not_mem_nil
  · rw [history]
    exact History.Kept.ofFiles exists_live

theorem confined_of_shows (inv : Inv fromStr initial s) {cfg : FileConfig}
    (shows_cfg : s.Shows fromStr cfg) :
    Confined initial cfg := by
  rcases shows_cfg with rfl | ⟨text, has, parsed⟩
  · exact inv.running
  · exact inv.texts text has cfg parsed

end Inv

/-- However requests interleave, every command, secret reference and data directory that runs, is
live or is retained was there before the first of them, and the slots are the newest displaced
texts. -/
theorem config_writes_confined {start : ConfigDesk} {moves : List ConfigMove}
    (begins : Start fromStr start)
    (run : runAll (ConfigDesk.step fromStr) moves start = some s) :
    (∀ cfg, s.Shows fromStr cfg → Confined (start.Holds fromStr) cfg) ∧ s.history.Kept s.files := by
  have inv : Inv fromStr (start.Holds fromStr) s :=
    runAll_invariant (Inv fromStr (start.Holds fromStr)) (fun _ _ _ => Inv.step) run
      (Inv.ofStart begins)
  exact ⟨fun _ => inv.confined_of_shows, inv.history⟩

def bridgeTexts (text : String) : Except String FileConfig :=
  let plugin (command : String) (config : Yaml) (dataDir : String) : FileConfig :=
    ⟨⟨dataDir⟩, ⟨[⟨"bridge", some command, config⟩], by simp⟩⟩
  if text = "a" then .ok (plugin "run" (.string "$\x7benv:KEY\x7d") "/data")
  else if text = "b" then .ok (plugin "old" .null "/data")
  else if text = "c" then
    .ok (plugin "run" (.mapping [(.string "key", .string "$\x7benv:KEY\x7d")]) "/data/./")
  else .error "no config"

def bridgeStart : ConfigDesk where
  files
    | .live => some "a"
    | .prev 1 => some "b"
    | _ => none
  cfg := ⟨⟨"/data"⟩, ⟨[⟨"bridge", some "run", .string "$\x7benv:KEY\x7d"⟩], by simp⟩⟩
  writer := none
  calls := []
  history := ⟨"a", [some "b", none, none, none, none]⟩

def bridgeMoves : List ConfigMove :=
  [.put "c" none, .step 0 none, .step 0 none, .step 0 none, .rollback, .step 1 none, .step 1 none,
    .step 0 none, .step 0 none]

theorem config_writes_confined_bridge : ∃ s, runAll
    (ConfigDesk.step bridgeTexts) bridgeMoves bridgeStart = some s ∧
    s.files .live = some "c" ∧ s.files (.prev 1) = some "b" ∧ s.files (.prev 2) = some "a" ∧
    s.cfg.Runs "bridge" "run" ∧ Confined (bridgeStart.Holds bridgeTexts) s.cfg ∧
      s.history.Kept s.files := by
  obtain ⟨s, run, live, first, second, runs⟩ :
      ∃ s, runAll (ConfigDesk.step bridgeTexts) bridgeMoves bridgeStart = some s ∧
        s.files .live = some "c" ∧ s.files (.prev 1) = some "b" ∧ s.files (.prev 2) = some "a" ∧
        s.cfg.commands "bridge" = some (some "run") := by decide +kernel
  have begins : Start bridgeTexts bridgeStart := ⟨rfl, rfl, "a", rfl, rfl, rfl⟩
  obtain ⟨confined, kept⟩ := config_writes_confined begins run
  exact ⟨s, run, live, first, second, runs, confined s.cfg (Or.inl rfl), kept⟩

end ConfigDesk

end RelayFabric
