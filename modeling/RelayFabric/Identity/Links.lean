/- source: storage.rs (link_challenges, identity_links), engine.rs (confirm_link)
   digest: The tables of challenges and links, and what each statement leaves in them. -/

import RelayFabric.Delivery.Rows

namespace RelayFabric

open List Lib

structure Identity where
  protocol : String
  ref : String
  deriving DecidableEq, Repr

def Challenge.target (c : Challenge) : Identity := ⟨c.targetProtocol, c.targetRef⟩

def Challenge.requester (c : Challenge) : Identity := ⟨c.requesterProtocol, c.requesterRef⟩

def Link.a (l : Link) : Identity := ⟨l.aProtocol, l.aRef⟩

def Link.b (l : Link) : Identity := ⟨l.bProtocol, l.bRef⟩

def Link.Touches (l : Link) (who : Identity) : Prop := l.a = who ∨ l.b = who

namespace Store

def createChallenge (s : Store) (code : String) (target requester : Endpoint) (displayName : String)
    (now expires : Int) : Nat × Store :=
  let cleared := s.deleteChallengesForTarget target.protocol target.endpoint
  (cleared.challenges.next,
    { cleared with challenges := cleared.challenges.insert (fun id =>
        { id
          code
          targetProtocol := target.protocol
          targetRef := target.endpoint
          requesterProtocol := requester.protocol
          requesterRef := requester.endpoint
          displayName
          createdAt := now
          expiresAt := expires }) })

def OneLink (s : Store) : Prop :=
  ∀ who, ∀ l ∈ s.links.rows, ∀ m ∈ s.links.rows, l.Touches who → m.Touches who → l = m

def OneChallenge (s : Store) : Prop :=
  ∀ c ∈ s.challenges.rows, ∀ e ∈ s.challenges.rows, c.target = e.target → c = e

structure SameTables (s s' : Store) : Prop where
  links : s'.links = s.links
  challenges : s'.challenges = s.challenges

theorem SameTables.refl (s : Store) : s.SameTables s := ⟨rfl, rfl⟩

variable {s s' : Store} {protocol reference : String} {c : Challenge} {now : Int} {l : Link}

theorem mem_deleteChallengesForTarget :
    c ∈ (s.deleteChallengesForTarget protocol reference).challenges.rows ↔
      c ∈ s.challenges.rows ∧ c.target ≠ ⟨protocol, reference⟩ := by
  unfold deleteChallengesForTarget Table.delete
  simp only [Challenge.target, mem_filter, Bool.not_eq_true', Bool.and_eq_false_iff,
    beq_eq_false_iff_ne, ne_eq, Identity.mk.injEq, not_and_or]

theorem mem_deleteChallenge {id : Nat} :
    c ∈ (s.deleteChallenge id).challenges.rows ↔ c ∈ s.challenges.rows ∧ c.id ≠ id := by
  unfold deleteChallenge Table.delete
  simp

theorem mem_purgeExpiredChallenges :
    c ∈ (s.purgeExpiredChallenges now).challenges.rows ↔
      c ∈ s.challenges.rows ∧ now ≤ c.expiresAt := by
  unfold purgeExpiredChallenges Table.delete
  simp

theorem mem_createChallenge {code : String} {target requester : Endpoint}
    {displayName : String} {expires : Int} :
    c ∈ (s.createChallenge code target requester displayName now expires).2.challenges.rows ↔
      (c ∈ s.challenges.rows ∧ c.target ≠ ⟨target.protocol, target.endpoint⟩) ∨
        c = ⟨s.challenges.next, code, target.protocol, target.endpoint, requester.protocol,
          requester.endpoint, displayName, now, expires⟩ := by
  unfold createChallenge
  dsimp only [Table.insert]
  rw [mem_append, mem_singleton, mem_deleteChallengesForTarget]
  rfl

theorem findActiveChallenge_eq_some {code : String}
    (found : s.findActiveChallenge protocol reference code now = some c) :
    c ∈ s.challenges.rows ∧ c.target = ⟨protocol, reference⟩ ∧ c.code = code ∧
      now < c.expiresAt := by
  have held := List.find?_some found
  simp only [Bool.and_eq_true, beq_iff_eq, decide_eq_true_eq] at held
  refine ⟨mem_of_find?_eq_some found, ?_, held.1.2, held.2⟩
  rw [Challenge.target, held.1.1.1, held.1.1.2]

theorem OneChallenge.of_subset (one : s.OneChallenge)
    (fewer : ∀ c ∈ s'.challenges.rows, c ∈ s.challenges.rows) : s'.OneChallenge :=
  fun c member e member' same => one c (fewer c member) e (fewer e member') same

theorem OneChallenge.createChallenge (one : s.OneChallenge) (code : String)
    (target requester : Endpoint) (displayName : String) (now expires : Int) :
    (s.createChallenge code target requester displayName now expires).2.OneChallenge := by
  intro c member e member' same
  rcases mem_createChallenge.mp member with ⟨old, other⟩ | rfl <;>
    rcases mem_createChallenge.mp member' with ⟨old', other'⟩ | rfl
  · exact one c old e old' same
  · exact absurd same other
  · exact absurd same.symm other'
  · rfl

theorem touches_iff (l : Link) (protocol reference : String) :
    l.Touches ⟨protocol, reference⟩ ↔
      ((l.aProtocol == protocol && l.aRef == reference) ||
        (l.bProtocol == protocol && l.bRef == reference)) = true := by
  simp [Link.Touches, Link.a, Link.b]

theorem linkForIdentity_eq_none :
    s.linkForIdentity protocol reference = none ↔
      ∀ l ∈ s.links.rows, ¬l.Touches ⟨protocol, reference⟩ := by
  unfold linkForIdentity
  simp [touches_iff]

theorem mem_of_linkForIdentity (found : s.linkForIdentity protocol reference = some l) :
    l ∈ s.links.rows ∧ l.Touches ⟨protocol, reference⟩ := by
  have near := List.find?_some found
  exact ⟨mem_reverse.mp (mem_of_find?_eq_some found), (touches_iff _ _ _).mpr near⟩

theorem OneLink.linkForIdentity (one : s.OneLink) (member : l ∈ s.links.rows)
    (who : Identity) (touches : l.Touches who) :
    s.linkForIdentity who.protocol who.ref = some l := by
  cases found : s.linkForIdentity who.protocol who.ref with
  | none => exact absurd touches (linkForIdentity_eq_none.mp found l member)
  | some other =>
    obtain ⟨present, near⟩ := mem_of_linkForIdentity found
    rw [one who other present l member near touches]

theorem OneLink.of_subset (one : s.OneLink)
    (fewer : ∀ l ∈ s'.links.rows, l ∈ s.links.rows) : s'.OneLink :=
  fun who l member m member' => one who l (fewer l member) m (fewer m member')

theorem mem_deleteLink {id : Nat} :
    l ∈ (s.deleteLink id).links.rows ↔ l ∈ s.links.rows ∧ l.id ≠ id := by
  unfold deleteLink Table.delete
  simp

theorem mem_dropLinkOf (one : s.OneLink) (who : Identity) :
    l ∈ (dropLinkOf s who.protocol who.ref).links.rows ↔ l ∈ s.links.rows ∧ ¬l.Touches who := by
  unfold dropLinkOf
  cases found : s.linkForIdentity who.protocol who.ref with
  | none =>
    have free := linkForIdentity_eq_none.mp found
    exact ⟨fun member => ⟨member, free l member⟩, fun kept => kept.1⟩
  | some old =>
    obtain ⟨present, near⟩ := mem_of_linkForIdentity found
    rw [Option.elim_some, mem_deleteLink]
    refine and_congr_right fun member => not_congr ?_
    constructor
    · intro same
      rw [inj_on_of_nodup_map s.links.distinct member present same]
      exact near
    · intro touches
      rw [one who l member old present touches near]

theorem next_dropLinkOf (s : Store) (protocol reference : String) :
    (dropLinkOf s protocol reference).links.next = s.links.next := by
  unfold dropLinkOf
  cases s.linkForIdentity protocol reference <;> rfl

theorem links_insertLink {a b : Identity} (free : ∀ l ∈ s.links.rows, ¬l.Touches a)
    (name : String) (t : Int) :
    (s.insertLink a.protocol a.ref b.protocol b.ref name t).links.rows =
      s.links.rows ++ [⟨s.links.next, a.protocol, a.ref, b.protocol, b.ref, name, t⟩] := by
  have noConflict : s.links.rows.any (fun l => l.aProtocol == a.protocol && l.aRef == a.ref &&
      l.bProtocol == b.protocol && l.bRef == b.ref) = false := by
    rw [any_eq_false]
    intro l member conflict
    simp only [Bool.and_eq_true, beq_iff_eq] at conflict
    refine free l member (.inl ?_)
    rw [Link.a, conflict.1.1.1, conflict.1.1.2]
  unfold insertLink
  dsimp only
  rw [noConflict, if_neg Bool.false_ne_true]
  rfl

def confirmedLink (s : Store) (c : Challenge) (now : Int) : Link :=
  ⟨s.links.next, c.targetProtocol, c.targetRef, c.requesterProtocol, c.requesterRef, c.displayName,
    now⟩

theorem challenges_confirmLinkStore (s : Store) (c : Challenge) (now : Int) :
    (confirmLinkStore s c now).challenges = (s.deleteChallenge c.id).challenges := by
  obtain ⟨_, eq⟩ := confirmLinkStore_frame s c now
  rw [eq]

theorem mem_confirmLinkStore (one : s.OneLink) :
    l ∈ (confirmLinkStore s c now).links.rows ↔
      (l ∈ s.links.rows ∧ ¬l.Touches c.target ∧ ¬l.Touches c.requester) ∨
        l = s.confirmedLink c now := by
  have first : (s.deleteChallenge c.id).OneLink := one
  have second : (dropLinkOf (s.deleteChallenge c.id) c.targetProtocol c.targetRef).OneLink :=
    first.of_subset (fun l member => ((mem_dropLinkOf first c.target).mp member).1)
  have memFree : ∀ l, l ∈ (dropLinkOf (dropLinkOf (s.deleteChallenge c.id) c.targetProtocol
      c.targetRef) c.requesterProtocol c.requesterRef).links.rows ↔
      (l ∈ s.links.rows ∧ ¬l.Touches c.target) ∧ ¬l.Touches c.requester := by
    intro l
    have dropped := mem_dropLinkOf first c.target (l := l)
    exact (mem_dropLinkOf second c.requester).trans (and_congr_left fun _ => dropped)
  unfold confirmLinkStore
  have inserted := links_insertLink (a := c.target) (b := c.requester)
    (fun l member => ((memFree l).mp member).1.2) c.displayName now
  dsimp only [Challenge.target, Challenge.requester] at inserted
  rw [inserted, mem_append, mem_singleton, memFree, and_assoc, next_dropLinkOf, next_dropLinkOf]
  rfl

theorem OneLink.confirmLinkStore (one : s.OneLink) (c : Challenge) (now : Int) :
    (confirmLinkStore s c now).OneLink := by
  -- a link that stays touches neither party of the new one
  have apart : ∀ l : Link, ¬l.Touches c.target ∧ ¬l.Touches c.requester → ∀ who, l.Touches who →
      ¬(s.confirmedLink c now).Touches who := by
    rintro l ⟨offTarget, offRequester⟩ who touches (same | same)
    · rw [← same] at touches
      exact offTarget touches
    · rw [← same] at touches
      exact offRequester touches
  intro who l member m member' touches touches'
  rcases (mem_confirmLinkStore one).mp member with ⟨old, free⟩ | rfl <;>
    rcases (mem_confirmLinkStore one).mp member' with ⟨old', free'⟩ | rfl
  · exact one who l old m old' touches touches'
  · exact absurd touches' (apart l free who touches)
  · exact absurd touches (apart m free' who touches')
  · rfl

theorem OneLink.linkForIdentity_confirmLinkStore (one : s.OneLink) (c : Challenge) (now : Int) :
    (RelayFabric.confirmLinkStore s c now).linkForIdentity c.targetProtocol c.targetRef =
        some (s.confirmedLink c now) ∧
      (RelayFabric.confirmLinkStore s c now).linkForIdentity c.requesterProtocol c.requesterRef =
        some (s.confirmedLink c now) := by
  have member : s.confirmedLink c now ∈ (RelayFabric.confirmLinkStore s c now).links.rows :=
    (mem_confirmLinkStore one).mpr (.inr rfl)
  exact ⟨(one.confirmLinkStore c now).linkForIdentity member c.target (.inl rfl),
    (one.confirmLinkStore c now).linkForIdentity member c.requester (.inr rfl)⟩

end Store

end RelayFabric
