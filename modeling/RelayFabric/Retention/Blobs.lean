/- source: engine.rs (handle_inbound, pump), cas.rs (put, remove), storage.rs (prune_orphans)
   digest: Blobs and the references to them under concurrent plugin ingress and purges. -/

import RelayFabric.Delivery.Node
import RelayFabric.Retention.Collect

namespace RelayFabric

open List Lib Option
open Prog hiding bind run

def Daemon.Stocked (d : Daemon) : Prop :=
  ∀ ref ∈ d.store.attachmentRefs, d.cas.blobs.contains ref.2 = true

theorem Cas.put_some {K : Crypto} {c : Cas} {data : Bytes} {sha : String}
    (stored : (c.put K data).1 = some sha) : (c.put K data).2.blobs.contains sha = true ∧
      ∀ other, c.blobs.contains other = true → (c.put K data).2.blobs.contains other = true := by
  unfold put at stored ⊢
  dsimp only at stored ⊢
  split_ifs at stored ⊢ with present budget
  · cases stored
    exact ⟨present, fun _ there => there⟩
  · cases stored
    refine ⟨?_, fun other there => ?_⟩
    · rw [Map.contains_insert]
      simp
    · rw [Map.contains_insert, there, Bool.or_true]

theorem Cas.put_none {K : Crypto} {c : Cas} {data : Bytes} (refused : (c.put K data).1 = none) :
    (c.put K data).2 = c := by
  unfold put at refused ⊢
  dsimp only at refused ⊢
  split_ifs at refused ⊢
  rfl

theorem Cas.contains_foldl_remove {sha : String} (shas : List String) :
    ∀ c : Cas, sha ∉ shas → (shas.foldl remove c).blobs.contains sha = c.blobs.contains sha := by
  induction shas with
  | nil => exact fun _ _ => rfl
  | cons first rest ih =>
    intro c absent
    have other : sha ≠ first := fun same => absent (same ▸ mem_cons_self)
    have later : sha ∉ rest := fun member => absent (mem_cons_of_mem first member)
    rw [foldl_cons, ih _ later]
    unfold remove
    split
    · simp [Map.contains, Map.erase, other]
    · rfl

variable {d : Daemon}

theorem Daemon.Stocked.removeOrphans (stocked : d.Stocked) {reported : List String}
    {s' : Store} (collected : Collected d.store reported s') :
    (removeOrphans d (reported, s')).Stocked := by
  intro ref member
  obtain ⟨before, owned⟩ := (collected.refs ref).mp member
  have spared : ref.2 ∉ reported := collected.shared ref.1 ref.2 before owned
  exact (Cas.contains_foldl_remove reported d.cas spared).trans (stocked ref before)

theorem refs_insertAttachmentRefs (io : Faults) (m : Uuid) (shas : List String) :
    ∀ (i : Nat) (s : Store), ∀ ref ∈ (insertAttachmentRefs io m i shas s).attachmentRefs,
      ref ∈ s.attachmentRefs ∨ ref.2 ∈ shas := by
  induction shas with
  | nil => exact fun _ _ _ member => .inl member
  | cons sha rest ih =>
    intro i s ref member
    unfold insertAttachmentRefs at member
    split at member
    · exact .inl member
    · rcases ih (i + 1) _ ref member with old | named
      · rcases mem_append.mp old with before | new
        · exact .inl before
        · rw [mem_singleton.mp new]
          exact .inr mem_cons_self
      · exact .inr (mem_cons_of_mem _ named)

theorem refs_inboundStore (io : Faults) (s : Store) (stamp now : Int) (env : Envelope)
    (targets : List (String × Endpoint)) (limits : Limits) :
    ∀ ref ∈ (inboundStore io s stamp now env targets limits).attachmentRefs,
      ref ∈ s.attachmentRefs ∨ ref.2 ∈ env.attachments.map AttachmentMeta.sha256 := by
  intro ref member
  unfold inboundStore at member
  split at member
  · exact .inl member
  · rw [refs_fanOutDeliveries] at member
    exact refs_insertAttachmentRefs io env.id _ 0 (s.insertMessage env) ref member

inductive BlobStep : List String → Section → Daemon → Daemon → List String → Prop
  | keep (held : List String) (l : Section) (d d' : Daemon) (cas : d'.cas = d.cas)
      (refs : d'.store.attachmentRefs = d.store.attachmentRefs)
      (other : ∀ m, l ≠ .inboundPersist m) : BlobStep held l d d' held
  | put (held : List String) (sha : String) (d d' : Daemon)
      (grows : ∀ other, d.cas.blobs.contains other = true → d'.cas.blobs.contains other = true)
      (stored : d'.cas.blobs.contains sha = true)
      (refs : d'.store.attachmentRefs = d.store.attachmentRefs) :
      BlobStep held .blob d d' (sha :: held)
  | refer (held : List String) (m : Uuid) (d d' : Daemon) (cas : d'.cas = d.cas)
      (refs : ∀ ref ∈ d'.store.attachmentRefs, ref ∈ d.store.attachmentRefs ∨ ref.2 ∈ held) :
      BlobStep held (.inboundPersist m) d d' []
  | purge (d : Daemon) : BlobStep [] .purgeDead d (removeOrphans d d.store.purgeDeadLetters) []

abbrev Holds (held : List String) (p : Engine Unit) : Prop :=
  Follows (fun _ => True) BlobStep (fun _ _ => True) held p

abbrev Keeps {α : Type} (held : List String) (p : Engine α) : Prop :=
  Follows (fun _ => True) BlobStep (fun held' _ => held' = held) held p

section Keeps

variable {α β : Type} {held : List String}

variable {l : Section}

section

variable (other : ∀ m, l ≠ .inboundPersist m)
include other

private theorem keeps_critical {body : Daemon → α × Daemon}
    (cas : ∀ d, (body d).2.cas = d.cas)
    (refs : ∀ d, (body d).2.store.attachmentRefs = d.store.attachmentRefs) :
    Keeps held (.critical l body) :=
  follows_critical (fun d _ => ⟨held, .keep held l d _ (cas d) (refs d) other, rfl⟩)

private theorem keeps_observe {read : Daemon → α} :
    Keeps held (.observe l read : Engine α) :=
  keeps_critical other (fun _ => rfl) (fun _ => rfl)

private theorem keeps_modify {write : Daemon → Daemon}
    (cas : ∀ d, (write d).cas = d.cas)
    (refs : ∀ d, (write d).store.attachmentRefs = d.store.attachmentRefs) :
    Keeps held (.modify l write) :=
  keeps_critical other cas refs

end

private theorem holds_of_keeps {p : Engine α} {rest : α → Engine Unit} (first : Keeps held p)
    (second : ∀ a, Holds held (rest a)) : Holds held (p >>= rest) := by
  refine follows_bind first (fun held' a same => ?_)
  subst same
  exact second a

private theorem keeps_holds {p : Engine Unit} (keeps : Keeps held p) : Holds held p :=
  follows_final keeps (fun _ _ _ => trivial)

private theorem keeps_of_bounds {w : Scope} {p : Engine α}
    (bounds : Always (Footprint.Covers ⟨true, false, true⟩ w) p) : Keeps held p := by
  refine follows_of_always bounds (fun l d d' does => ?_)
  obtain ⟨cas, other⟩ := does.blobs rfl
  exact .keep held l d d' cas (does.ingress.1.refs other) other

end Keeps

theorem ingestAttachments_puts (K : Crypto) (maxBytes : Nat) (attachments : List IpcAttachment) :
    ∀ held, Follows (fun _ => True) BlobStep
      (fun held' (taken : List AttachmentMeta × String) => (∀ sha ∈ held, sha ∈ held') ∧
        ∀ file ∈ taken.1, file.sha256 ∈ held') held (ingestAttachments K maxBytes attachments) := by
  induction attachments with
  | nil =>
    exact fun held => follows_pure ⟨fun _ member => member, fun _ member => absurd member (by simp)⟩
  | cons att rest ih =>
    intro held
    refine follows_ite (fun _ => ?_) (fun _ => ?_)
    · exact follows_bind (ih held) (fun held' taken given => follows_pure given)
    refine follows_critical_bind (fun d _ => ?_)
    cases answer : (d.cas.put K att.data).1 with
    | none =>
      have same := Cas.put_none answer
      refine ⟨held, .keep held _ d _ same rfl (by intro m same; cases same), ?_⟩
      exact follows_bind (ih held) (fun held' taken given => follows_pure given)
    | some sha =>
      obtain ⟨stored, grows⟩ := Cas.put_some answer
      refine ⟨sha :: held, .put held sha d _ grows stored rfl, ?_⟩
      refine follows_bind (ih (sha :: held)) (fun held' taken given => follows_pure ?_)
      refine ⟨fun other member => given.1 other (mem_cons_of_mem sha member), fun file member => ?_⟩
      rcases mem_cons.mp member with rfl | later
      · exact given.1 sha mem_cons_self
      · exact given.2 file later

theorem acceptInbound_holds (K : Crypto) (io : Faults) (ids : Draws) (cfg : Config) (now : Int)
    (source : Endpoint) (sender kind body : String) (createdAt : Option Int)
    (attachments : List IpcAttachment) (priority : Option String) :
    Holds [] (acceptInbound K io ids cfg now source sender kind body createdAt attachments
      priority) := by
  refine follows_ite (fun _ => follows_pure trivial) (fun _ => ?_)
  refine follows_bind (ingestAttachments_puts K _ attachments []) (fun held taken given => ?_)
  refine holds_of_keeps (keeps_observe (by rintro _ ⟨⟩))
    (fun receivedAt => follows_modify (fun d _ => ?_))
  refine ⟨[], .refer held ids.message d _ rfl (fun ref member => ?_), trivial⟩
  rcases refs_inboundStore _ _ _ _ _ _ _ ref member with old | named
  · exact .inl old
  · obtain ⟨file, listed, same⟩ := mem_map.mp named
    rw [← same]
    exact .inr (given.2 file listed)

theorem handleInbound_holds (K : Crypto) (io : Faults) (ids : Draws)
    (plugin endpoint sender kind body : String) (createdAt : Option Int)
    (attachments : List IpcAttachment) (priority : Option String) :
    Holds [] (handleInbound K io ids plugin endpoint sender kind body createdAt attachments
      priority) := by
  refine holds_of_keeps (keeps_observe (by rintro _ ⟨⟩)) (fun cfg => ?_)
  refine holds_of_keeps (keeps_critical (by rintro _ ⟨⟩) (fun _ => rfl) (fun _ => rfl))
    (fun cached => ?_)
  refine follows_ite (fun _ => follows_pure trivial) (fun _ => ?_)
  refine holds_of_keeps (keeps_critical (by rintro _ ⟨⟩) (fun _ => rfl) (fun _ => rfl))
    (fun allowed => ?_)
  refine follows_ite (fun _ => ?_) (fun _ => follows_pure trivial)
  refine holds_of_keeps (keeps_modify (by rintro _ ⟨⟩) (fun _ => rfl) (fun _ => rfl)) (fun _ => ?_)
  refine holds_of_keeps (keeps_observe (by rintro _ ⟨⟩)) (fun now => ?_)
  have accepts := acceptInbound_holds K io ids cfg now ⟨plugin, endpoint⟩ sender kind body createdAt
    attachments priority
  refine follows_ite (fun _ => holds_of_keeps (keeps_observe (by rintro _ ⟨⟩)) (fun found => ?_))
    (fun _ => accepts)
  rcases found with _ | challenge
  · exact holds_of_keeps (keeps_of_bounds (w := .any) (noteFailedLinkGuess_bounds rfl _ _))
      (fun _ => accepts)
  · exact keeps_holds (keeps_of_bounds (w := .any) (confirmLink_bounds rfl _ _ _))

theorem Call.holds (K : Crypto) (c : Call) : Holds [] (c.prog K) := by
  cases c with
  | inbound => exact handleInbound_holds ..
  | envelope =>
    exact holds_of_keeps (keeps_of_bounds (fedIngress_bounds rfl ..))
      (fun _ => follows_pure trivial)
  | sealed =>
    exact holds_of_keeps (keeps_of_bounds (fedSealedIngress_bounds rfl ..))
      (fun _ => follows_pure trivial)
  | result plugin corr delivered =>
    refine holds_of_keeps (keeps_critical (by rintro _ ⟨⟩) (fun _ => rfl) (fun d => ?_))
      (fun _ => follows_pure trivial)
    dsimp only
    unfold resultStore
    split
    · rfl
    · split_ifs <;> rfl
  | ack peerKey id =>
    unfold Call.prog handleFedAck
    dsimp only
    split
    · exact follows_pure trivial
    · refine keeps_holds (keeps_modify (by rintro _ ⟨⟩) (fun _ => rfl) (fun d => ?_))
      have folded (rows : List Delivery) : ∀ s : Store,
          (rows.foldl (fun s r => s.markDelivered d.clock.utc r.id) s).attachmentRefs =
            s.attachmentRefs := by
        induction rows with
        | nil => exact fun _ => rfl
        | cons r rest ih => exact fun s => ih (s.markDelivered d.clock.utc r.id)
      exact folded ..
  | requeue row => exact keeps_holds (keeps_modify (by rintro _ ⟨⟩) (fun _ => rfl) (fun _ => rfl))
  | purgeDead => exact follows_modify (fun d _ => ⟨[], .purge d, trivial⟩)

def Sweeping (l : Section) (d d' : Daemon) : Prop :=
  (d'.cas = d.cas ∧ d'.store.attachmentRefs = d.store.attachmentRefs) ∨
    (l = .purge ∧ ∃ cutoff, d' = removeOrphans d (d.store.purgeTerminal cutoff))

theorem retentionPurge_sweeping (now : Int) : Always Sweeping (retentionPurge now) := by
  refine always_bind (always_observe (fun _ => .inl ⟨rfl, rfl⟩)) (fun retention => ?_)
  refine always_bind (always_modify (fun d => .inr ⟨rfl, _, rfl⟩)) (fun _ => ?_)
  exact always_bind (always_modify (fun _ => .inl ⟨rfl, rfl⟩))
    (fun _ => always_modify (fun _ => .inl ⟨rfl, rfl⟩))

/-- A node, and the calls that have begun to put blobs and not yet stored their message. -/
structure Shelf where
  node : Node
  putting : List Nat

def Node.callLabel (σ : Node) (i : Nat) : Option Section := σ.calls[i]?.bind Prog.label?

def Section.shelve (i : Nat) (opened : List Nat) : Section → List Nat
  | .blob => i :: opened
  | .inboundPersist _ => opened.filter (· ≠ i)
  | _ => opened

def Shelf.step (K : Crypto) : Move → Shelf → Option Shelf
  | .outside change, s =>
    (Node.step K (.outside (fun d => { change d with cas := d.cas })) s.node).map (⟨·, s.putting⟩)
  | .call i, s =>
    (Node.step K (.call i) s.node).map
      (⟨·, (s.node.callLabel i).elim s.putting (Section.shelve i s.putting)⟩)
  | .restart, s => (Node.step K .restart s.node).map (⟨·, []⟩)
  | .pump, s => (Node.step K .pump s.node).map (⟨·, s.putting⟩)
  | .purge, s => (Node.step K .purge s.node).map (⟨·, s.putting⟩)
  | .spawn c, s => (Node.step K (.spawn c) s.node).map (⟨·, s.putting⟩)

abbrev Shelf.run (K : Crypto) : List Move → Shelf → Option Shelf := runAll (Shelf.step K)

def Node.purges (σ : Node) : Move → Bool
  | .pump => σ.pump.label? == some .purge
  | .call i => σ.callLabel i == some .purgeDead
  | .purge | .spawn _ | .outside _ | .restart => false

/-- No purge runs while a call is between its first put and its references. -/
def Shelf.calm (s : Shelf) (a : Move) : Bool := !s.node.purges a || s.putting.isEmpty

structure Shelf.Inv (v : View) (s : Shelf) : Prop where
  node : s.node.Inv anyFrame anyDaemon v
  sweeping : ∀ p, s.node.pump = .purging p → Always Sweeping p
  calls : ∀ i p, s.node.calls[i]? = some p → ∃ held, Holds held p ∧
    (∀ sha ∈ held, s.node.d.cas.blobs.contains sha = true) ∧ (held ≠ [] → i ∈ s.putting)
  stocked : s.node.d.Stocked

theorem Daemon.Stocked.of_eq {d' : Daemon} (stocked : d.Stocked) (cas : d'.cas = d.cas)
    (refs : d'.store.attachmentRefs = d.store.attachmentRefs) : d'.Stocked := by
  unfold Daemon.Stocked
  rw [cas, refs]
  exact stocked

theorem Daemon.Stocked.purgeTerminal (stocked : d.Stocked) (cutoff : Int) :
    (RelayFabric.removeOrphans d (d.store.purgeTerminal cutoff)).Stocked :=
  stocked.removeOrphans (collected_purgeTerminal d.store cutoff)

theorem Daemon.Stocked.purgeDeadLetters (stocked : d.Stocked) :
    (RelayFabric.removeOrphans d d.store.purgeDeadLetters).Stocked :=
  stocked.removeOrphans (collected_purgeDeadLetters d.store)

section Step

variable {K : Crypto} {v : View} {s s' : Shelf}

theorem Shelf.Inv.pumpStep (inv : s.Inv v) :
    (((s.node.pumpStep K).d.cas = s.node.d.cas ∧
        (s.node.pumpStep K).d.store.attachmentRefs = s.node.d.store.attachmentRefs) ∨
      (s.node.pump.label? = some .purge ∧ ∃ cutoff,
        (s.node.pumpStep K).d = removeOrphans s.node.d (s.node.d.store.purgeTerminal cutoff))) ∧
      ∀ p, (s.node.pumpStep K).pump = .purging p → Always Sweeping p := by
  obtain ⟨⟨d, pump, calls, base⟩, opened⟩ := s
  have held := inv.node.pump
  have sweeping := inv.sweeping
  unfold Node.pumpStep
  match pump, held with
  | .idle, _ => exact ⟨.inl ⟨rfl, rfl⟩, nofun⟩
  | .starting (.act l effect next), ⟨start, starts, _, _⟩ =>
    obtain ⟨start', step, _⟩ := follows_act starts (s := d) trivial
    refine ⟨.inl ?_, nofun⟩
    dsimp only
    generalize effect d = d' at step
    cases step <;> exact ⟨rfl, rfl⟩
  | .starting (.ret (now, due)), _ => exact ⟨.inl ⟨rfl, rfl⟩, nofun⟩
  | .round now (some (del, .act l effect next)) batch, ⟨_, _, _, _, follows, _⟩ =>
    obtain ⟨q', does, _⟩ := follows_act follows (s := d) trivial
    exact ⟨.inl does.blobs, nofun⟩
  | .round now (some (del, .ret _)) batch, _ => exact ⟨.inl ⟨rfl, rfl⟩, nofun⟩
  | .round now none (del :: batch), _ => exact ⟨.inl ⟨rfl, rfl⟩, nofun⟩
  | .round now none [], _ => exact ⟨.inl ⟨rfl, rfl⟩, nofun⟩
  | .purging (.act l effect next), _ =>
    obtain ⟨does, later⟩ := always_act (sweeping _ rfl) d
    refine ⟨?_, fun p same => ?_⟩
    · rcases does with kept | ⟨rfl, purged⟩
      · exact .inl kept
      · exact .inr ⟨rfl, purged⟩
    · obtain rfl := Pump.purging.inj same
      exact later
  | .purging (.ret _), _ => exact ⟨.inl ⟨rfl, rfl⟩, nofun⟩

variable {i : Nat} {held held' : List String} {l : Section} {d d' : Daemon}

theorem Shelf.Inv.unheld (inv : s.Inv v) (shut : s.putting = []) {p : Engine Unit}
    (running : s.node.calls[i]? = some p) : Holds [] p := by
  obtain ⟨held, holds, _, opened⟩ := inv.calls i p running
  have none : held = [] := by
    by_contra some
    have listed := opened some
    rw [shut] at listed
    exact absurd listed not_mem_nil
  rw [none] at holds
  exact holds

theorem Node.calls_pumpStep (σ : Node) : (σ.pumpStep K).calls = σ.calls := by
  unfold Node.pumpStep
  split <;> rfl

theorem Shelf.Inv.calls_of_grows (inv : s.Inv v) (calls : s'.node.calls = s.node.calls)
    (shelf : s'.putting = s.putting) (grows : ∀ sha, s.node.d.cas.blobs.contains sha = true →
      s'.node.d.cas.blobs.contains sha = true) :
    ∀ i p, s'.node.calls[i]? = some p → ∃ held, Holds held p ∧
      (∀ sha ∈ held, s'.node.d.cas.blobs.contains sha = true) ∧ (held ≠ [] → i ∈ s'.putting) := by
  intro i p running
  rw [calls] at running
  obtain ⟨held, holds, there, opened⟩ := inv.calls i p running
  exact ⟨held, holds, fun sha member => grows sha (there sha member), shelf ▸ opened⟩

theorem Shelf.Inv.calls_of_shut (inv : s.Inv v) (shut : s.putting = [])
    (calls : s'.node.calls = s.node.calls) :
    ∀ i p, s'.node.calls[i]? = some p → ∃ held, Holds held p ∧
      (∀ sha ∈ held, s'.node.d.cas.blobs.contains sha = true) ∧ (held ≠ [] → i ∈ s'.putting) := by
  intro i p running
  rw [calls] at running
  exact ⟨[], inv.unheld shut running, by simp, by simp⟩

theorem Shelf.Inv.pump (inv : s.Inv v) (calm : s.calm .pump = true)
    (step : Shelf.step K .pump s = some s') : ∃ v', s'.Inv v' := by
  simp only [Shelf.step] at step
  obtain ⟨σ', moved, rfl⟩ := map_eq_some_iff.mp step
  obtain ⟨v', _, node⟩ := Node.step_any moved inv.node
  cases moved
  obtain ⟨does, sweeping⟩ := inv.pumpStep (K := K)
  have same := Node.calls_pumpStep (K := K) s.node
  refine ⟨v', node, sweeping, ?_, ?_⟩
  · rcases does with ⟨cas, _⟩ | ⟨labelled, _⟩
    · exact inv.calls_of_grows same rfl (fun sha there => by rw [cas]; exact there)
    · have shut : s.putting = [] := by
        simpa [Shelf.calm, Node.purges, labelled] using calm
      exact inv.calls_of_shut shut same
  · rcases does with ⟨cas, refs⟩ | ⟨_, cutoff, purged⟩
    · exact inv.stocked.of_eq cas refs
    · dsimp only
      rw [purged]
      exact inv.stocked.purgeTerminal cutoff

section

variable (does : BlobStep held l d d' held')
include does

theorem BlobStep.others {opened : List Nat}
    (shut : l = .purgeDead → opened = []) :
    (∀ j ∈ opened, j ≠ i → j ∈ l.shelve i opened) ∧
      ∀ sha, opened ≠ [] → d.cas.blobs.contains sha = true → d'.cas.blobs.contains sha = true := by
  cases does with
  | keep _ _ _ _ cas refs other =>
    refine ⟨fun j member _ => ?_, fun sha _ there => by rw [cas]; exact there⟩
    unfold Section.shelve
    split
    · exact mem_cons_of_mem i member
    · exact absurd rfl (other _)
    · exact member
  | put _ sha _ _ grows =>
    exact ⟨fun j member _ => mem_cons_of_mem i member, fun sha _ => grows sha⟩
  | refer _ m _ _ cas =>
    refine ⟨fun j member apart => ?_, fun sha _ there => by rw [cas]; exact there⟩
    exact mem_filter.mpr ⟨member, by simpa using apart⟩
  | purge => exact ⟨fun j member _ => member, fun sha opened => absurd (shut rfl) opened⟩

theorem BlobStep.own {opened : List Nat}
    (there : ∀ sha ∈ held, d.cas.blobs.contains sha = true) (within : held ≠ [] → i ∈ opened) :
    (∀ sha ∈ held', d'.cas.blobs.contains sha = true) ∧ (held' ≠ [] → i ∈ l.shelve i opened) := by
  cases does with
  | keep _ _ _ _ cas refs other =>
    refine ⟨fun sha member => by rw [cas]; exact there sha member, fun some => ?_⟩
    unfold Section.shelve
    split
    · exact mem_cons_self
    · exact absurd rfl (other _)
    · exact within some
  | put _ sha _ _ grows stored =>
    refine ⟨fun other member => ?_, fun _ => mem_cons_self⟩
    rcases mem_cons.mp member with rfl | old
    · exact stored
    · exact grows other (there other old)
  | refer | purge => exact ⟨by simp, by simp⟩

theorem BlobStep.stocked
    (there : ∀ sha ∈ held, d.cas.blobs.contains sha = true)
    (stocked : d.Stocked) : d'.Stocked := by
  cases does with
  | keep _ _ _ _ cas refs => exact stocked.of_eq cas refs
  | put _ sha _ _ grows _ refs =>
    intro ref member
    rw [refs] at member
    exact grows ref.2 (stocked ref member)
  | refer _ m _ _ cas refs =>
    intro ref member
    rw [cas]
    rcases refs ref member with old | new
    · exact stocked ref old
    · exact there ref.2 new
  | purge => exact stocked.purgeDeadLetters

end

theorem Shelf.Inv.call (inv : s.Inv v) (calm : s.calm (.call i) = true)
    (step : Shelf.step K (.call i) s = some s') : ∃ v', s'.Inv v' := by
  obtain ⟨σ', moved, rfl⟩ := map_eq_some_iff.mp step
  obtain ⟨v', _, node⟩ := Node.step_any moved inv.node
  simp only [Node.step] at moved
  split at moved
  case h_2 => exact absurd moved (by simp)
  rename_i l effect next running
  cases moved
  have labelled : s.node.callLabel i = some l := by
    unfold Node.callLabel
    rw [running]
    rfl
  have shut : l = .purgeDead → s.putting = [] := by
    intro purging
    simpa [Shelf.calm, Node.purges, labelled, purging] using calm
  obtain ⟨held, holds, there, within⟩ := inv.calls i _ running
  obtain ⟨held', does, later⟩ := follows_act holds (s := s.node.d) trivial
  obtain ⟨kept, grows⟩ := does.others (i := i) shut
  rw [labelled]
  refine ⟨v', node, inv.sweeping, fun j p found => ?_, does.stocked there inv.stocked⟩
  by_cases self : j = i
  · subst self
    have small : j < s.node.calls.length := (List.getElem?_eq_some_iff.mp running).1
    rw [List.getElem?_set_self small] at found
    cases found
    exact ⟨held', later, does.own there within⟩
  · rw [List.getElem?_set_ne (Ne.symm self)] at found
    obtain ⟨others, hold, present, opened⟩ := inv.calls j p found
    refine ⟨others, hold, fun sha member => ?_, fun some => kept j (opened some) self⟩
    have listed : j ∈ s.putting := opened (ne_nil_of_mem member)
    exact grows sha (ne_nil_of_mem listed) (present sha member)

theorem Shelf.Inv.step {a : Move} (inv : s.Inv v) (calm : s.calm a = true)
    (step : Shelf.step K a s = some s') : ∃ v', s'.Inv v' := by
  cases a with
  | pump => exact inv.pump calm step
  | call i => exact inv.call calm step
  | purge =>
    obtain ⟨σ', moved, rfl⟩ := map_eq_some_iff.mp step
    obtain ⟨v', _, node⟩ := Node.step_any moved inv.node
    simp only [Node.step] at moved
    split at moved
    · rename_i now through
      cases moved
      refine ⟨v', node, fun p same => ?_, inv.calls_of_grows rfl rfl (fun _ there => there),
        inv.stocked⟩
      obtain rfl := Pump.purging.inj same
      exact retentionPurge_sweeping now
    · exact absurd moved (by simp)
  | spawn c =>
    simp only [Shelf.step] at step
    obtain ⟨σ', moved, rfl⟩ := map_eq_some_iff.mp step
    obtain ⟨v', _, node⟩ := Node.step_any moved inv.node
    cases moved
    refine ⟨v', node, inv.sweeping, fun i p found => ?_, inv.stocked⟩
    rw [List.getElem?_append] at found
    split at found
    · exact inv.calls i p found
    · obtain rfl := mem_singleton.mp (mem_of_getElem? found)
      exact ⟨[], c.holds K, by simp, by simp⟩
  | outside change =>
    simp only [Shelf.step] at step
    obtain ⟨σ', moved, rfl⟩ := map_eq_some_iff.mp step
    obtain ⟨v', _, node⟩ := Node.step_any moved inv.node
    cases moved
    exact ⟨v', node, inv.sweeping, inv.calls_of_grows rfl rfl (fun _ there => there),
      inv.stocked.of_eq rfl rfl⟩
  | restart =>
    simp only [Shelf.step] at step
    obtain ⟨σ', moved, rfl⟩ := map_eq_some_iff.mp step
    obtain ⟨v', _, node⟩ := Node.step_any moved inv.node
    cases moved
    exact ⟨v', node, by rintro _ ⟨⟩, by simp, inv.stocked.of_eq rfl rfl⟩

theorem BlobStep.grows (does : BlobStep held l d d' held') (still : l ≠ .purgeDead) (sha : String)
    (there : d.cas.blobs.contains sha = true) : d'.cas.blobs.contains sha = true := by
  cases does with
  | keep _ _ _ _ cas | refer _ _ _ _ cas => exact cas ▸ there
  | put _ _ _ _ grows => exact grows sha there
  | purge => exact absurd rfl still

theorem Shelf.Inv.grows {a : Move} (inv : s.Inv v) (still : s.node.purges a = false)
    (step : Shelf.step K a s = some s') (sha : String)
    (there : s.node.d.cas.blobs.contains sha = true) : s'.node.d.cas.blobs.contains sha = true := by
  cases a with
  | pump =>
    simp only [Shelf.step] at step
    obtain ⟨σ', moved, rfl⟩ := map_eq_some_iff.mp step
    cases moved
    rcases (inv.pumpStep (K := K)).1 with ⟨cas, _⟩ | ⟨labelled, _⟩
    · exact (congrArg (fun cas : Cas => cas.blobs.contains sha) cas).trans there
    · simp [Node.purges, labelled] at still
  | call i =>
    obtain ⟨σ', moved, rfl⟩ := map_eq_some_iff.mp step
    simp only [Node.step] at moved
    split at moved
    case h_2 => exact absurd moved (by simp)
    rename_i l effect next running
    cases moved
    obtain ⟨held, holds, _, _⟩ := inv.calls i _ running
    obtain ⟨held', does, _⟩ := follows_act holds (s := s.node.d) trivial
    refine does.grows (fun purging => ?_) sha there
    have labelled : s.node.callLabel i = some l := by
      unfold Node.callLabel
      rw [running]
      rfl
    simp [Node.purges, labelled, purging] at still
  | purge =>
    obtain ⟨σ', moved, rfl⟩ := map_eq_some_iff.mp step
    simp only [Node.step] at moved
    split at moved
    · cases moved
      exact there
    · exact absurd moved (by simp)
  | spawn | outside | restart =>
    simp only [Shelf.step] at step
    obtain ⟨σ', moved, rfl⟩ := map_eq_some_iff.mp step
    cases moved
    exact there

end Step

theorem Node.Fresh.shelved {σ : Node} (fresh : σ.Fresh) (stocked : σ.d.Stocked) :
    Shelf.Inv .idle ⟨σ, []⟩ := by
  refine ⟨fresh.inv, fun p same => ?_, fun i p running => ?_, stocked⟩
  · rw [show σ.pump = .idle from fresh.1] at same
    cases same
  · rw [show σ.calls = [] from fresh.2] at running
    exact absurd running (by simp)

/-- In every run of a started daemon in which no purge section runs while a call is between its
first put and the section that stores its message, every reference of a message names a blob that is
there. -/
theorem references_stocked (K : Crypto) (moves : List Move) (σ₀ : Node) (s : Shelf)
    (fresh : σ₀.Fresh)
    (stocked : σ₀.d.Stocked)
    (calm : Meets (Shelf.step K) (fun a s => s.calm a = true) moves ⟨σ₀, []⟩)
    (reached : Shelf.run K moves ⟨σ₀, []⟩ = some s) :
    ∀ m sha, (m, sha) ∈ s.node.d.store.attachmentRefs → s.node.d.store.messages.contains m = true →
      s.node.d.cas.blobs.contains sha = true := by
  obtain ⟨v, inv⟩ := runAll_preserves (fun s => ∃ v, Shelf.Inv v s)
    (fun a s s' quiet step ⟨v, inv⟩ => inv.step quiet step) moves _ _ calm reached
    ⟨_, fresh.shelved stocked⟩
  intro m sha member _
  exact inv.stocked (m, sha) member

def pictureCall (id : Uuid) (body : String) : Call :=
  .inbound .none ⟨id, ⟨100⟩, ⟨101⟩⟩ "x" "lobby" "ann" "text" body none
    [⟨"a.png", "image/png", [1]⟩] none

def expiryMoves : List Move :=
  Move.spawn (pictureCall ⟨7⟩ "first") :: List.replicate 8 (Move.call 0) ++
    Move.outside (Daemon.later (seconds 3601)) :: List.replicate 8 Move.pump ++ [Move.purge]

def sweptMoves : List Move :=
  expiryMoves ++ [Move.pump, Move.pump, Move.spawn (pictureCall ⟨8⟩ "second")] ++ List.replicate 8
    (Move.call 1)

def raceSweepMoves : List Move :=
  expiryMoves ++ Move.spawn (pictureCall ⟨8⟩ "second") :: List.replicate 6 (Move.call 1) ++
    [Move.pump, Move.pump, Move.call 1, Move.call 1]

def Shelf.small : Shelf := ⟨.small .empty, []⟩

private theorem small_stocked :
    Shelf.small.node.d.Stocked := fun _ member => absurd member not_mem_nil

theorem references_stocked_swept :
    ∃ s, Shelf.run (.clear "rf:a") sweptMoves .small = some s ∧ ∃ sha,
      (⟨8⟩, sha) ∈ s.node.d.store.attachmentRefs ∧ s.node.d.store.messages.contains ⟨8⟩ = true ∧
        s.node.d.store.messages.contains ⟨7⟩ = false ∧ s.node.d.cas.blobs.contains sha = true := by
  obtain ⟨s, reached, named, stored, gone⟩ :
      ∃ s, Shelf.run (.clear "rf:a") sweptMoves .small = some s ∧
        ((⟨8⟩ : Uuid), (Crypto.clear "rf:a").sha256 [1]) ∈ s.node.d.store.attachmentRefs ∧
        s.node.d.store.messages.contains ⟨8⟩ = true ∧ s.node.d.store.messages.contains
        ⟨7⟩ = false := by
    decide +kernel
  have calm : Meets (Shelf.step (.clear "rf:a")) (fun a s => s.calm a = true) sweptMoves
      .small := by
    decide +kernel
  exact ⟨s, reached, _, named, stored, gone,
    references_stocked _ _ (.small .empty) s ⟨rfl, rfl⟩ small_stocked calm reached _ _ named stored⟩

/-- The second message is there with its reference, and the picture is gone. -/
theorem racing_purge_loses_blob :
    Shelf.small.node.Fresh ∧ Shelf.small.node.d.Stocked ∧
      ∃ s, Shelf.run (.clear "rf:a") raceSweepMoves .small = some s ∧ ∃ sha,
        (⟨8⟩, sha) ∈ s.node.d.store.attachmentRefs ∧ s.node.d.store.messages.contains ⟨8⟩ = true ∧
          s.node.d.cas.blobs.contains sha = false := by
  obtain ⟨s, reached, named, stored, gone⟩ :
      ∃ s, Shelf.run (.clear "rf:a") raceSweepMoves .small = some s ∧
        ((⟨8⟩ : Uuid), (Crypto.clear "rf:a").sha256 [1]) ∈ s.node.d.store.attachmentRefs ∧
        s.node.d.store.messages.contains ⟨8⟩ = true ∧
        s.node.d.cas.blobs.contains ((Crypto.clear "rf:a").sha256 [1]) = false := by
    decide +kernel
  exact ⟨⟨rfl, rfl⟩, small_stocked, s, reached, _, named, stored, gone⟩

end RelayFabric
