/- source: storage.rs (purge_terminal, purge_dead_letters, prune_orphans)
   digest: What the two purges delete, and which blobs they report as unreferenced. -/

import RelayFabric.Storage
import Mathlib.Data.List.Dedup

namespace RelayFabric

open List Lib

def Store.Referential (s : Store) : Prop :=
  ∀ r ∈ s.deliveries.rows, s.messages.contains r.messageId = true

/-- A purge turned the first store into the second and reported these blobs: it spared every live
row and the message of every row it kept, it kept nothing else, and it reported each blob whose
last reference it deleted, once. -/
structure Collected (s : Store) (reported : List String) (s' : Store) : Prop where
  live : ∀ r ∈ s.deliveries.rows, r.state.live = true → r ∈ s'.deliveries.rows
  rows : ∀ r ∈ s'.deliveries.rows, r ∈ s.deliveries.rows ∧
    s'.messages r.messageId = s.messages r.messageId
  referential : s.Referential → s'.Referential
  messages : ∀ m env, s'.messages m = some env ↔
    s.messages m = some env ∧ ∃ r ∈ s'.deliveries.rows, r.messageId = m
  refs : ∀ ref, ref ∈ s'.attachmentRefs ↔
    ref ∈ s.attachmentRefs ∧ s'.messages.contains ref.1 = true
  orphans : ∀ sha, sha ∈ reported ↔
    (∃ m, (m, sha) ∈ s.attachmentRefs) ∧ ∀ m, (m, sha) ∉ s'.attachmentRefs
  distinct : reported.Nodup
  shared : ∀ m sha, (m, sha) ∈ s.attachmentRefs → s'.messages.contains m = true → sha ∉ reported

section Prune

variable (s : Store)

private theorem messages_pruneOrphans (m : Uuid) (env : Envelope) :
    s.pruneOrphans.2.messages m = some env ↔
      s.messages m = some env ∧ ∃ r ∈ s.deliveries.rows, r.messageId = m := by
  change (s.messages m).filter (fun _ => s.deliveries.rows.any (fun r => r.messageId == m)) =
    some env ↔ _
  simp

private theorem refs_pruneOrphans (ref : Uuid × String) :
    ref ∈ s.pruneOrphans.2.attachmentRefs ↔
      ref ∈ s.attachmentRefs ∧ s.pruneOrphans.2.messages.contains ref.1 = true :=
  mem_filter

private theorem orphans_pruneOrphans (sha : String) :
    sha ∈ s.pruneOrphans.1 ↔ (∃ m, (m, sha) ∈ s.attachmentRefs) ∧
      ∀ m, (m, sha) ∈ s.attachmentRefs → s.pruneOrphans.2.messages.contains m = false := by
  change sha ∈ ((s.attachmentRefs.map Prod.snd).dedup).filter (fun sha =>
    !s.attachmentRefs.any (fun ref => ref.2 == sha && s.pruneOrphans.2.messages.contains ref.1)) ↔ _
  rw [mem_filter, mem_dedup, mem_map]
  constructor
  · rintro ⟨⟨⟨m, other⟩, listed, rfl⟩, none⟩
    refine ⟨⟨m, listed⟩, fun m' named => ?_⟩
    have absent : ∀ ref ∈ s.attachmentRefs,
        (ref.2 == other && s.pruneOrphans.2.messages.contains ref.1) = false := by
      simpa using none
    simpa using absent (m', other) named
  · rintro ⟨⟨m, listed⟩, gone⟩
    refine ⟨⟨(m, sha), listed, rfl⟩, ?_⟩
    have absent : ∀ ref ∈ s.attachmentRefs,
        ¬(ref.2 == sha && s.pruneOrphans.2.messages.contains ref.1) = true := by
      intro ref named both
      obtain ⟨same, stored⟩ := Bool.and_eq_true_iff.mp both
      have here : ref.2 = sha := by simpa using same
      rw [gone ref.1 (by rw [← here]; exact named)] at stored
      cases stored
    simpa using absent

end Prune

theorem collected_of_delete (s : Store) (old : Delivery → Bool)
    (spares : ∀ r, r.state.live = true → old r = false) :
    Collected s (Store.pruneOrphans { s with deliveries := s.deliveries.delete old }).1
      (Store.pruneOrphans { s with deliveries := s.deliveries.delete old }).2 := by
  set mid : Store := { s with deliveries := s.deliveries.delete old } with deleted
  have kept : ∀ r, r ∈ mid.deliveries.rows ↔ r ∈ s.deliveries.rows ∧ old r = false := by
    intro r
    change r ∈ s.deliveries.rows.filter (fun r => !old r) ↔ _
    rw [mem_filter, Bool.not_eq_true']
  have owned : ∀ r ∈ mid.deliveries.rows,
      mid.pruneOrphans.2.messages r.messageId = s.messages r.messageId := by
    intro r member
    refine Option.ext (fun env => ?_)
    rw [messages_pruneOrphans]
    exact and_iff_left ⟨r, member, rfl⟩
  have unreferenced : ∀ sha, sha ∈ mid.pruneOrphans.1 ↔ (∃ m, (m, sha) ∈ s.attachmentRefs) ∧
      ∀ m, (m, sha) ∉ mid.pruneOrphans.2.attachmentRefs := by
    intro sha
    rw [orphans_pruneOrphans]
    refine and_congr_right (fun _ => forall_congr' (fun m => ?_))
    rw [refs_pruneOrphans, not_and, Bool.not_eq_true]
  refine ⟨?_, ?_, ?_, fun m env => messages_pruneOrphans ..,
    fun ref => refs_pruneOrphans .., unreferenced, ?_, ?_⟩
  · intro r member alive
    exact (kept r).mpr ⟨member, spares r alive⟩
  · intro r member
    exact ⟨((kept r).mp member).1, owned r member⟩
  · intro referential r member
    have before := referential r ((kept r).mp member).1
    unfold Map.contains at before ⊢
    rw [owned r member]
    exact before
  · exact (nodup_dedup _).filter _
  · intro m sha named stored reported
    exact ((unreferenced sha).mp reported).2 m
      ((refs_pruneOrphans mid (m, sha)).mpr ⟨named, stored⟩)

theorem collected_purgeTerminal (s : Store) (cutoff : Int) :
    Collected s (s.purgeTerminal cutoff).1 (s.purgeTerminal cutoff).2 := by
  refine collected_of_delete s _ (fun r alive => ?_)
  simp [alive]

theorem collected_purgeDeadLetters (s : Store) :
    Collected s s.purgeDeadLetters.1 s.purgeDeadLetters.2 := by
  refine collected_of_delete s _ (fun r alive => ?_)
  cases dead : r.state <;> simp [dead, DeliveryState.live] at alive ⊢

/-- Both purges collect soundly and completely, from every state of the database and with every
cutoff. -/
theorem purges_collect (s : Store) (cutoff : Int) :
    Collected s (s.purgeTerminal cutoff).1 (s.purgeTerminal cutoff).2 ∧
      Collected s s.purgeDeadLetters.1 s.purgeDeadLetters.2 :=
  ⟨collected_purgeTerminal s cutoff, collected_purgeDeadLetters s⟩

end RelayFabric
