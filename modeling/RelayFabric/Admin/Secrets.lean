/- source: config.rs (resolve_secrets, resolve_value, collect_secret_refs), secrets.rs
   digest: The references that loading a config resolves are those that a write is checked for. -/

import RelayFabric.Admin.Confine

namespace RelayFabric

open List Lib

structure Resolved (α : Type) where
  value : α
  calls : List SecretRef
  errors : List String

def Resolved.both {α β γ : Type} (f : α → β → γ) (first : Resolved α) (second : Resolved β) :
    Resolved γ :=
  ⟨f first.value second.value, first.calls ++ second.calls, first.errors ++ second.errors⟩

namespace Yaml

variable (resolve : SecretRef → Except String String)

mutual

def resolveValue : Yaml → Resolved Yaml
  | .string text => match SecretRef.parseRef text with
    | some r => match resolve r with
      | .ok resolved => ⟨.string resolved, [r], []⟩
      | .error e => ⟨.string text, [r], [e]⟩
    | none => ⟨.string text, [], []⟩
  | .sequence items => { resolveItems items with value := .sequence (resolveItems items).value }
  | .mapping entries =>
    { resolveEntries entries with value := .mapping (resolveEntries entries).value }
  | .null => ⟨.null, [], []⟩
  | .bool value => ⟨.bool value, [], []⟩
  | .number text => ⟨.number text, [], []⟩
  | .tagged tag value => ⟨.tagged tag value, [], []⟩

def resolveItems : List Yaml → Resolved (List Yaml)
  | [] => ⟨[], [], []⟩
  | item :: items => (resolveValue item).both cons (resolveItems items)

/-- The keys of a mapping are distinct, so that inserting them one by one keeps their order. -/
def resolveEntries : List (Yaml × Yaml) → Resolved (List (Yaml × Yaml))
  | [] => ⟨[], [], []⟩
  | (key, value) :: entries =>
    (resolveValue value).both (fun v rest => (key, v) :: rest) (resolveEntries entries)

end

variable (f : String → String)

mutual

def mapStrings : Yaml → Yaml
  | .string text => .string (f text)
  | .sequence items => .sequence (mapItems items)
  | .mapping entries => .mapping (mapEntries entries)
  | .null => .null
  | .bool value => .bool value
  | .number text => .number text
  | .tagged tag value => .tagged tag value

def mapItems : List Yaml → List Yaml
  | [] => []
  | item :: items => mapStrings item :: mapItems items

def mapEntries : List (Yaml × Yaml) → List (Yaml × Yaml)
  | [] => []
  | (key, value) :: entries => (key, mapStrings value) :: mapEntries entries

end

def resolvedText (text : String) : String :=
  ((SecretRef.parseRef text).bind (fun r => (resolve r).toOption)).getD text

end Yaml

def FileConfig.resolveSecrets (resolve : SecretRef → Except String String) (cfg : FileConfig) :
    List (String × SecretRef) × Except String (List (String × Yaml)) :=
  let walks :=
    cfg.plugins.rows.map (fun plugin => (plugin.name, plugin.config.resolveValue resolve))
  let errors := walks.flatMap (fun walk => walk.2.errors)
  (walks.flatMap (fun walk => walk.2.calls.map (fun r => (walk.1, r))),
    if errors = [] then .ok (walks.map (fun walk => (walk.1, walk.2.value)))
    else .error ("; ".intercalate errors))

namespace SecretRef

theorem afterScheme_eq_some {scheme : String} {inner rest : List Char}
    (found : afterScheme scheme inner = some rest) : inner = scheme.toList ++ rest := by
  unfold afterScheme at found
  split at found
  · rename_i starts
    obtain ⟨tail, rfl⟩ := isPrefixOf_iff_prefix.mp starts
    cases found
    rw [← String.length_toList, drop_left]
  · cases found

theorem displayForm_of_ofInner {inner : List Char} {r : SecretRef}
    (found : ofInner inner = some r) :
    r.displayForm.toList = '$' :: '\x7b' :: (inner ++ ['\x7d']) := by
  unfold ofInner at found
  split at found
  · cases found
  · split at found
    · rename_i name scheme
      split at found <;> cases found
      rw [afterScheme_eq_some scheme]
      simp [displayForm]
    · split at found
      · rename_i path scheme
        split at found <;> cases found
        rw [afterScheme_eq_some scheme]
        simp [displayForm]
      · cases found

theorem displayForm_of_parseRef {text : String} {r : SecretRef} (found : parseRef text = some r) :
    r.displayForm = text := by
  unfold parseRef at found
  split at found
  · rename_i rest whole
    split at found
    · rename_i last
      refine String.toList_inj.mp ?_
      rw [displayForm_of_ofInner found, whole, dropLast_append_getLast? _ last]
    · cases found
  · cases found

end SecretRef

structure Resolved.Tells {α : Type} (walk : Resolved α) (value : α) (forms : List String) :
    Prop where
  value : walk.value = value
  forms : walk.calls.map SecretRef.displayForm = forms
  parsed : ∀ r ∈ walk.calls, SecretRef.parseRef r.displayForm = some r

theorem Resolved.Tells.both {α β γ : Type} {first : Resolved α} {second : Resolved β}
    {a : α} {b : β} {forms more : List String} (f : α → β → γ) (one : first.Tells a forms)
    (two : second.Tells b more) : (first.both f second).Tells (f a b) (forms ++ more) := by
  refine ⟨congrArg₂ f one.value two.value, ?_, ?_⟩
  · exact map_append.trans (congrArg₂ _ one.forms two.forms)
  · exact forall_mem_append.mpr ⟨one.parsed, two.parsed⟩

namespace Yaml

variable (resolve : SecretRef → Except String String)

theorem tells_nil {α : Type} (a : α) : Resolved.Tells ⟨a, [], []⟩ a [] := by
  constructor <;> simp

theorem resolveString_tells (text : String) : ((Yaml.string text).resolveValue resolve).Tells
    (.string (resolvedText resolve text)) (collectSecretRefs (.string text)) := by
  unfold resolveValue resolvedText collectSecretRefs
  cases found : SecretRef.parseRef text with
  | none => exact tells_nil _
  | some r =>
    have written := SecretRef.displayForm_of_parseRef found
    cases read : resolve r <;> constructor <;> simp [read, written, found, Except.toOption]

mutual

theorem resolveValue_tells : ∀ v : Yaml, (v.resolveValue resolve).Tells
    (v.mapStrings (resolvedText resolve)) v.collectSecretRefs
  | .string text => resolveString_tells resolve text
  | .sequence items => by
    have walk := resolveItems_tells items
    exact ⟨congrArg _ walk.value, walk.forms, walk.parsed⟩
  | .mapping entries => by
    have walk := resolveEntries_tells entries
    exact ⟨congrArg _ walk.value, walk.forms, walk.parsed⟩
  | .null | .bool _ | .number _ | .tagged _ _ => tells_nil _

theorem resolveItems_tells : ∀ items : List Yaml, (resolveItems resolve items).Tells
    (mapItems (resolvedText resolve) items) (collectItems items)
  | [] => tells_nil _
  | item :: items => (resolveValue_tells item).both _ (resolveItems_tells items)

theorem resolveEntries_tells : ∀ entries : List (Yaml × Yaml),
    (resolveEntries resolve entries).Tells (mapEntries (resolvedText resolve) entries)
      (collectEntries entries)
  | [] => tells_nil _
  | (_, value) :: entries => (resolveValue_tells value).both _ (resolveEntries_tells entries)

end

end Yaml

/-- Loading a config reads the references that `secret_refs` reports of the unresolved one and no
others, and a block that loads differs from what was written only where it has them. -/
theorem secret_refs_resolved (resolve : SecretRef → Except String String) :
    (∀ v : Yaml, (v.resolveValue resolve).calls.map SecretRef.displayForm = v.collectSecretRefs ∧
      (∀ r ∈ (v.resolveValue resolve).calls, SecretRef.parseRef r.displayForm = some r) ∧
      (v.resolveValue resolve).value = v.mapStrings (Yaml.resolvedText resolve)) ∧
    (∀ text, Yaml.resolvedText resolve text = text ∨
      ∃ r, SecretRef.parseRef text = some r ∧ r.displayForm = text ∧
        resolve r = .ok (Yaml.resolvedText resolve text)) ∧
    ∀ cfg : FileConfig,
      (∀ plugin form, (plugin, form) ∈ cfg.secretRefs ↔
        ∃ r, (plugin, r) ∈ (cfg.resolveSecrets resolve).1 ∧ r.displayForm = form) ∧
      ∀ blocks, (cfg.resolveSecrets resolve).2 = .ok blocks →
        blocks = cfg.plugins.rows.map (fun plugin =>
          (plugin.name, plugin.config.mapStrings (Yaml.resolvedText resolve))) := by
  have walk := Yaml.resolveValue_tells resolve
  refine ⟨fun v => ⟨(walk v).forms, (walk v).parsed, (walk v).value⟩, ?_, ?_⟩
  · intro text
    unfold Yaml.resolvedText
    cases found : SecretRef.parseRef text with
    | none => exact .inl rfl
    | some r =>
      cases read : resolve r with
      | error e => exact .inl (by simp [read, Except.toOption])
      | ok value =>
        exact .inr ⟨r, rfl, SecretRef.displayForm_of_parseRef found,
          by simp [read, Except.toOption]⟩
  · intro cfg
    refine ⟨fun plugin form => ?_, fun blocks loaded => ?_⟩
    · simp only [FileConfig.secretRefs, FileConfig.resolveSecrets, mem_flatMap, mem_map,
        ← (walk _).forms]
      aesop
    · simp only [FileConfig.resolveSecrets] at loaded
      split at loaded <;> cases loaded
      simp [(walk _).value]

end RelayFabric
