/- source: policy.rs (evaluate), engine.rs (process_due, load_attachments), config.rs
   digest: What a list of policies decides for a destination, and the blobs that ride out. -/

import RelayFabric.Delivery.Rendering

namespace RelayFabric

open List Lib
open Prog hiding bind run

namespace Policy

def appliesTo (dest : Endpoint) (p : Policy) : Bool :=
  decide (p.destinationProtocol = [] ∨ dest.protocol ∈ p.destinationProtocol)

def denies (env : Envelope) (p : Policy) : Bool :=
  decide (p.rules.deny ∨ env.kind ∈ p.rules.dropKinds)

def rejects (p : Policy) : Bool := p.rules.attachments == some "reject"

end Policy

def limitsFor (dest : Endpoint) (limit : PolicyRules → Option Nat) (policies : List Policy) :
    List Nat :=
  (policies.filter (Policy.appliesTo dest)).filterMap (fun p => limit p.rules)

/-- The first decision lets through no more than the second. -/
def Decision.Within : Decision → Decision → Prop
  | .deny _, _ => True
  | .allow .., .deny _ => False
  | .allow maxPayload allowed maxBytes, .allow maxPayload' allowed' maxBytes' =>
    (∀ n ∈ maxPayload', ∃ m ∈ maxPayload, m ≤ n) ∧ (allowed = true → allowed' = true) ∧
      ∀ n ∈ maxBytes', ∃ m ∈ maxBytes, m ≤ n

section

variable {env : Envelope} {dest : Endpoint} {policies more : List Policy}

theorem min?_tighten (current limit : Option Nat) (rest : List Nat) :
    ((tighten current limit).toList ++ rest).min? =
      (current.toList ++ (limit.toList ++ rest)).min? := by
  cases limit <;> cases current <;> rfl

theorem evaluateFrom_eq (policies : List Policy) (maxPayload : Option Nat) (allowed : Bool)
    (maxBytes : Option Nat) :
    evaluateFrom env dest policies maxPayload allowed maxBytes =
      ((policies.filter (Policy.appliesTo dest)).find? (Policy.denies env)).elim
        (.allow (maxPayload.toList ++ limitsFor dest PolicyRules.maxPayload policies).min?
          (allowed && (policies.filter (Policy.appliesTo dest)).all (fun p => !p.rejects))
          (maxBytes.toList ++ limitsFor dest PolicyRules.maxAttachmentBytes policies).min?)
        (fun p => .deny p.name) := by
  induction policies generalizing maxPayload allowed maxBytes with
  | nil => cases maxPayload <;> cases maxBytes <;> simp [evaluateFrom, limitsFor]
  | cons p rest ih =>
    unfold evaluateFrom
    split
    · rename_i other
      have skipped : p.appliesTo dest = false := by simpa [Policy.appliesTo] using other
      rw [ih, limitsFor, limitsFor, limitsFor, limitsFor, filter_cons_of_neg (by simp [skipped])]
    · rename_i same
      have applies : p.appliesTo dest = true := by
        simpa [Policy.appliesTo, or_iff_not_imp_left] using same
      rw [limitsFor, limitsFor, filter_cons_of_pos applies]
      split
      · rename_i denied
        rw [find?_cons_of_pos (by simpa [Policy.denies] using denied)]
        rfl
      · rename_i spared
        rw [find?_cons_of_neg (by simpa [Policy.denies] using spared), ih, min?_tighten,
          min?_tighten, all_cons, Bool.and_assoc]
        cases one : p.rules.maxPayload <;> cases two : p.rules.maxAttachmentBytes <;>
          simp [limitsFor, one, two, Policy.rejects, bne]

theorem evaluate_eq (policies : List Policy) : evaluate policies env dest =
    ((policies.filter (Policy.appliesTo dest)).find? (Policy.denies env)).elim
      (.allow (limitsFor dest PolicyRules.maxPayload policies).min?
        ((policies.filter (Policy.appliesTo dest)).all (fun p => !p.rejects))
        (limitsFor dest PolicyRules.maxAttachmentBytes policies).min?)
      (fun p => .deny p.name) :=
  evaluateFrom_eq ..

theorem min?_le_of_subset {l l' : List Nat} (included : l ⊆ l') :
    ∀ n ∈ l.min?, ∃ m ∈ l'.min?, m ≤ n := by
  intro n least
  have member := included (min?_mem least)
  cases other : l'.min? with
  | none => exact absurd member (by simp [min?_eq_none_iff.mp other])
  | some m => exact ⟨m, rfl, (min?_eq_some_iff.mp other).2 n member⟩

theorem evaluate_within (included : policies ⊆ more) :
    (evaluate more env dest).Within (evaluate policies env dest) := by
  have matching : policies.filter (Policy.appliesTo dest) ⊆ more.filter (Policy.appliesTo dest) :=
    fun p member => mem_filter.mpr ((mem_filter.mp member).imp_left (@included p))
  rw [evaluate_eq, evaluate_eq]
  cases denied : (more.filter (Policy.appliesTo dest)).find? (Policy.denies env) with
  | some p => exact trivial
  | none =>
    have spared : (policies.filter (Policy.appliesTo dest)).find? (Policy.denies env) = none :=
      find?_eq_none.mpr (fun p member => find?_eq_none.mp denied p (matching member))
    rw [spared]
    refine ⟨min?_le_of_subset (filterMap_subset _ matching), fun allowed => ?_,
      min?_le_of_subset (filterMap_subset _ matching)⟩
    exact all_eq_true.mpr (fun p member => all_eq_true.mp allowed p (matching member))

theorem Decision.Within.antisymm {a b : Decision} (one : a.Within b) (other : b.Within a) :
    a = b ∨ ∃ p q, a = .deny p ∧ b = .deny q := by
  have limits {x y : Option Nat} (low : ∀ n ∈ y, ∃ m ∈ x, m ≤ n) (high : ∀ n ∈ x, ∃ m ∈ y, m ≤ n) :
      x = y := by
    cases x with
    | none => cases y with
      | none => rfl
      | some n => exact absurd (low n rfl) (by simp)
    | some m => cases y with
      | none => exact absurd (high m rfl) (by simp)
      | some n => exact congrArg some (le_antisymm (by simpa using low) (by simpa using high))
  cases a with
  | deny p => cases b with
    | deny q => exact Or.inr ⟨p, q, rfl, rfl⟩
    | allow => exact other.elim
  | allow => cases b with
    | deny q => exact one.elim
    | allow =>
      rw [limits one.1 other.1, limits one.2.2 other.2.2, Bool.eq_iff_iff.mpr ⟨one.2.1, other.2.1⟩]
      exact Or.inl rfl

theorem min?_limits {maxPayload cap : Option Nat} {transport limit : Nat}
    (fits : transport < 2 ^ 64)
    (bound : tighten maxPayload (some (min (cap.getD (2 ^ 64 - 1)) transport)) = some limit) :
    (maxPayload.toList ++ cap.toList ++ [transport]).min? = some limit := by
  have capped :
      (cap.toList ++ [transport]).min? = some (min (cap.getD (2 ^ 64 - 1)) transport) := by
    cases cap with
    | none => exact congrArg some (Nat.min_eq_right (Nat.le_sub_one_of_lt fits)).symm
    | some n => rfl
  cases maxPayload with
  | none => exact capped.trans bound
  | some n => cases cap <;> simp_all [tighten]

end

/-- Policies combine by their set alone, to the tightest of what they say, and `process_due` renders
under the least of the limits that it has read. -/
theorem policy_combination :
    (∀ policies env dest, (∃ name, evaluate policies env dest = .deny name) ↔
      ∃ p ∈ policies, p.appliesTo dest = true ∧ p.denies env = true) ∧
    (∀ policies env dest, (∀ p ∈ policies, p.appliesTo dest = true → p.denies env = false) →
      evaluate policies env dest = .allow (limitsFor dest PolicyRules.maxPayload policies).min?
        ((policies.filter (Policy.appliesTo dest)).all (fun p => !p.rejects))
        (limitsFor dest PolicyRules.maxAttachmentBytes policies).min?) ∧
    (∀ policies more env dest, policies ⊆ more →
      (evaluate more env dest).Within (evaluate policies env dest)) ∧
    (∀ policies others env dest, (∀ p, p ∈ policies ↔ p ∈ others) →
      evaluate policies env dest = evaluate others env dest ∨
        ∃ p q, evaluate policies env dest = .deny p ∧ evaluate others env dest = .deny q) ∧
    ∀ ok K del env now maxPayload allowed cap,
      (∀ d, ok d → (d.cfg.transportPolicy del.destination.protocol).maxPayloadBytes < 2 ^ 64) →
      Follows ok (fun _ l d d' (_ : Unit) => HandsPlugin (fun frame =>
          ∃ r : PluginReads, r.From ok K del env allowed cap ∧
            frame = .send del.id del.destination.endpoint env.kind
              (render r.tag (shortened env.body r.maxChars ++ r.notes)
                (maxPayload.toList ++ r.handle.capabilities.maxPayload.toList ++
                  [r.policy.maxPayloadBytes]).min?)
              r.attachments) l d d')
        (fun _ _ => True) () (processDuePlugin K del env now maxPayload allowed cap) := by
  refine ⟨?_, ?_, ?_, ?_, ?_⟩
  · intro policies env dest
    rw [evaluate_eq]
    cases found : (policies.filter (Policy.appliesTo dest)).find? (Policy.denies env) with
    | none =>
      refine iff_of_false (fun ⟨_, same⟩ => nomatch same) ?_
      rintro ⟨p, member, applies, denies⟩
      exact find?_eq_none.mp found p (mem_filter.mpr ⟨member, applies⟩) denies
    | some p =>
      obtain ⟨member, applies⟩ := mem_filter.mp (mem_of_find?_eq_some found)
      exact iff_of_true ⟨p.name, rfl⟩ ⟨p, member, applies, find?_some found⟩
  · intro policies env dest spared
    have none : (policies.filter (Policy.appliesTo dest)).find? (Policy.denies env) = none := by
      refine find?_eq_none.mpr (fun p member => ?_)
      obtain ⟨listed, applies⟩ := mem_filter.mp member
      simp [spared p listed applies]
    rw [evaluate_eq, none]
    rfl
  · intro policies more env dest included
    exact evaluate_within included
  · intro policies others env dest same
    exact (evaluate_within (fun p => (same p).mpr)).antisymm
      (evaluate_within (fun p => (same p).mp))
  · intro ok K del env now maxPayload allowed cap fits
    refine processDuePlugin_hands K del env now maxPayload allowed cap
      (fun r frame reads builds => ?_)
    obtain ⟨d, fine, same⟩ := reads.policy
    refine ⟨r, reads, ?_⟩
    rw [min?_limits (same ▸ fits d fine) (rfl : r.limit maxPayload = _)]
    exact builds.frame

def TransportPolicy.Carries (tp : TransportPolicy) (mime : String) : Prop :=
  ("image/".toList <+: mime.toList → tp.allowImages = true) ∧
    ("video/".toList <+: mime.toList → tp.allowVideo = true)

/-- What an entry of the metadata gives when `taken` bytes have been loaded before it: a blob of the
message's own within the limits, or the one note that says why there is none. -/
inductive Rides (K : Crypto) (d : Daemon) (m : Uuid) (cap : Option Nat) (budget : Nat)
    (tp : TransportPolicy) (taken : Nat) (file : AttachmentMeta) : IpcAttachment ⊕ String → Prop
  | carried {data : Bytes} (carries : tp.Carries file.mime)
      (owned : d.store.hasAttachmentRef m file.sha256 = true)
      (stored : d.cas.blobs file.sha256 = some data) (sound : K.sha256 data = file.sha256)
      (small : ∀ n ∈ cap, data.length ≤ n) (room : taken + data.length ≤ budget) :
      Rides K d m cap budget tp taken file (.inl ⟨file.filename, file.mime, data⟩)
  | image (is : "image/".toList <+: file.mime.toList) (forbidden : tp.allowImages = false) :
      Rides K d m cap budget tp taken file
        (.inr ("\n[image '" ++ file.filename ++ "' omitted — constrained transport]"))
  | video (is : "video/".toList <+: file.mime.toList) (forbidden : tp.allowVideo = false) :
      Rides K d m cap budget tp taken file
        (.inr ("\n[video '" ++ file.filename ++ "' omitted — constrained transport]"))
  | unavailable (carries : tp.Carries file.mime)
      (missing : d.store.hasAttachmentRef m file.sha256 = true → d.cas.get K file.sha256 = none) :
      Rides K d m cap budget tp taken file
        (.inr ("\n[attachment " ++ file.filename ++ " unavailable]"))
  | large {data : Bytes} {n : Nat} (carries : tp.Carries file.mime)
      (owned : d.store.hasAttachmentRef m file.sha256 = true)
      (stored : d.cas.get K file.sha256 = some data) (limit : cap = some n)
      (large : n < data.length) :
      Rides K d m cap budget tp taken file (.inr ("\n[dropped " ++ file.filename ++ ": " ++
        toString data.length ++ " B over " ++ toString n ++ " B limit]"))
  | crowded {data : Bytes} (carries : tp.Carries file.mime)
      (owned : d.store.hasAttachmentRef m file.sha256 = true)
      (stored : d.cas.get K file.sha256 = some data) (small : ∀ n ∈ cap, data.length ≤ n)
      (full : budget < taken + data.length) :
      Rides K d m cap budget tp taken file (.inr ("\n[dropped " ++ file.filename ++ ": " ++
        toString data.length ++ " B over " ++ toString budget ++ " B limit]"))

def carriedBytes : IpcAttachment ⊕ String → Nat
  | .inl a => a.data.length
  | .inr _ => 0

inductive Loads (K : Crypto) (d : Daemon) (m : Uuid) (cap : Option Nat) (budget : Nat)
    (tp : TransportPolicy) : Nat → List AttachmentMeta → List (IpcAttachment ⊕ String) → Prop
  | nil {taken : Nat} : Loads K d m cap budget tp taken [] []
  | cons {taken : Nat} {file : AttachmentMeta} {rest : List AttachmentMeta}
      {outcome : IpcAttachment ⊕ String} {outcomes : List (IpcAttachment ⊕ String)}
      (rides : Rides K d m cap budget tp taken file outcome)
      (later : Loads K d m cap budget tp (taken + carriedBytes outcome) rest outcomes) :
      Loads K d m cap budget tp taken (file :: rest) (outcome :: outcomes)

theorem attachmentNotes_limit (name : String) (size limit : Nat) :
    attachmentNotes [(name, size)] (toString limit ++ " B limit") =
      "\n[dropped " ++ name ++ ": " ++ toString size ++ " B over " ++ toString limit ++
      " B limit]" := by
  have other : toString limit ++ " B limit" ≠ "omitted" := by
    intro same
    have last := congrArg (fun text => text.toList.getLast?) same
    simp at last
  unfold attachmentNotes
  simp only [map_cons, map_nil, if_neg other]
  simp [String.join, String.append_assoc]

theorem carries_of_demotion {tp : TransportPolicy} {mime : String}
    (fine : demotion tp mime = none) : tp.Carries mime := by
  unfold TransportPolicy.Carries
  unfold demotion at fine
  split at fine
  · cases fine
  · split at fine
    · cases fine
    · grind

theorem rides_of_demotion {K : Crypto} {d : Daemon} {m : Uuid} {cap : Option Nat}
    {budget taken : Nat} {tp : TransportPolicy} {file : AttachmentMeta} {kind : String}
    (demoted : demotion tp file.mime = some kind) :
    Rides K d m cap budget tp taken file
      (.inr ("\n[" ++ kind ++ " '" ++ file.filename ++ "' omitted — constrained transport]")) := by
  unfold demotion at demoted
  split at demoted
  · rename_i image
    cases demoted
    exact .image image.1 (by simpa using image.2)
  · split at demoted
    · rename_i video
      cases demoted
      exact .video video.1 (by simpa using video.2)
    · cases demoted

theorem loadAttachments_loads (K : Crypto) (d : Daemon) (m : Uuid) (cap : Option Nat) (budget : Nat)
    (tp : TransportPolicy) (metas : List AttachmentMeta) : ∀ taken ≤ budget, ∃ outcomes,
      Loads K d m cap budget tp taken metas outcomes ∧
      ((loadAttachments K m cap budget tp metas taken).run d).1 = (outcomes.filterMap Sum.getLeft?,
        String.join (outcomes.filterMap Sum.getRight?)) ∧
      taken + ((outcomes.filterMap Sum.getLeft?).map (fun a => a.data.length)).sum ≤ budget := by
  induction metas with
  | nil => exact fun taken fits => ⟨[], .nil, rfl, fits⟩
  | cons file rest ih =>
    intro taken fits
    have skips (note : String) (rides : Rides K d m cap budget tp taken file (.inr note)) :
        ∃ outcomes, Loads K d m cap budget tp taken (file :: rest) outcomes ∧
        ((do
          let loaded ← loadAttachments K m cap budget tp rest taken
          pure (loaded.1, note ++ loaded.2) : Engine _).run d).1 = (outcomes.filterMap Sum.getLeft?,
          String.join (outcomes.filterMap Sum.getRight?)) ∧
        taken + ((outcomes.filterMap Sum.getLeft?).map (fun a => a.data.length)).sum ≤ budget := by
      obtain ⟨outcomes, each, result, within⟩ := ih taken fits
      refine ⟨.inr note :: outcomes, .cons rides each, ?_, within⟩
      simp [result, filterMap_cons]
    unfold loadAttachments
    cases demoted : demotion tp file.mime with
    | some kind => exact skips _ (rides_of_demotion demoted)
    | none =>
      have carries := carries_of_demotion demoted
      simp only [run_observe_bind]
      by_cases owned : d.store.hasAttachmentRef m file.sha256 = true
      case neg =>
        rw [if_neg owned]
        exact skips _ (.unavailable carries (fun is => absurd is owned))
      rw [if_pos owned]
      cases found : d.cas.get K file.sha256 with
      | none => exact skips _ (.unavailable carries (fun _ => found))
      | some data =>
        dsimp only
        split
        · rename_i large
          obtain ⟨n, rfl, longer⟩ : ∃ n, cap = some n ∧ n < data.length := by
            simpa [Option.any_eq_true] using large
          rw [Option.getD_some, attachmentNotes_limit]
          exact skips _ (.large carries owned found rfl longer)
        · rename_i allowed
          have small : ∀ n ∈ cap, data.length ≤ n := by
            rintro n rfl
            simpa using allowed
          split
          · rename_i full
            rw [attachmentNotes_limit]
            exact skips _ (.crowded carries owned found small full)
          · rename_i room
            obtain ⟨_, stored, sound⟩ : Cas.isValidSha file.sha256 = true ∧
                d.cas.blobs file.sha256 = some data ∧ K.sha256 data = file.sha256 := by
              simpa [Cas.get] using found
            obtain ⟨outcomes, each, result, within⟩ := ih (taken + data.length) (by omega)
            refine ⟨.inl ⟨file.filename, file.mime, data⟩ :: outcomes,
              .cons (.carried carries owned stored sound small (by omega)) each, ?_, ?_⟩
            · simp [result, filterMap_cons]
            · simpa [Nat.add_assoc] using within

/-- Each entry of a message's metadata gives, in order, one blob of the message's own within every
limit, or the one note of the reason why it does not. A federated message owns no blob. -/
theorem attachments_rehydrated (K : Crypto) (d : Daemon) (m : Uuid) (cap : Option Nat)
    (budget : Nat) (tp : TransportPolicy) (metas : List AttachmentMeta) :
    (∃ outcomes, Loads K d m cap budget tp 0 metas outcomes ∧
      ((loadAttachments K m cap budget tp metas 0).run d).1 = (outcomes.filterMap Sum.getLeft?,
        String.join (outcomes.filterMap Sum.getRight?)) ∧
      ((outcomes.filterMap Sum.getLeft?).map (fun a => a.data.length)).sum ≤ budget) ∧
    ((∀ sha, d.store.hasAttachmentRef m sha = false) →
      ((loadAttachments K m cap budget tp metas 0).run d).1.1 = []) ∧
    ∀ io stamp now env targetRoute destinations routeMax globalMax,
      (persistStore io d.store stamp now env targetRoute destinations routeMax
        globalMax).2.attachmentRefs = d.store.attachmentRefs := by
  obtain ⟨outcomes, each, result, within⟩ :=
    loadAttachments_loads K d m cap budget tp metas 0 (Nat.zero_le _)
  refine ⟨⟨outcomes, each, result, by simpa using within⟩, fun unowned => ?_, ?_⟩
  · rw [result]
    clear result within
    generalize 0 = taken at each
    induction each with
    | nil => rfl
    | cons rides _ ih =>
      cases rides with
      | carried _ owned => exact absurd owned (by simp [unowned])
      | image | video | unavailable | large | crowded => exact ih
  · intro io stamp now env targetRoute destinations routeMax globalMax
    obtain ⟨_, _, same⟩ := persistStore_frame io d.store stamp now env targetRoute
      destinations routeMax globalMax
    rw [same]

end RelayFabric
