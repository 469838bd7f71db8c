/- source: engine.rs (initiate_link, handle_inbound, confirm_link, note_failed_link_guess)
   digest: Identity-link calls interleaved at the store lock. -/

import RelayFabric.Identity.Links
import RelayFabric.Delivery.Arrival
import RelayFabric.Lib.Pool
import RelayFabric.Lib.Run

namespace RelayFabric

open Lib
open Prog hiding bind run

def Daemon.directCapable (d : Daemon) (plugin : String) : Bool :=
  (d.plugins plugin).any (fun handle => handle.connected && handle.capabilities.directMessages)

def notDirectCapable (protocol : String) (capable : List String) : String :=
  if capable = [] then
    "target plugin is not connected or does not support direct messages; " ++
      "no currently-connected plugins support direct messages"
  else
    "target plugin '" ++ protocol ++ "' is not connected or does not support direct messages; " ++
      "currently direct-capable: " ++ ", ".intercalate capable

def challengeLifetime : Int := seconds (15 * 60)

/-- `initiate_link`: `code` is what `generate_code` draws, `names` lists the plugin map in the order
it is walked. -/
def initiateLink (names : List String) (notice : Uuid) (code : String) (requester target : Endpoint)
    (displayName : String) : Engine (Except String Nat) := do
  .modify .guesses (fun d => { d with
    linkGuesses :=
      d.linkGuesses.filter (fun e => e.1 != target.protocol ++ "|" ++ target.endpoint) })
  let (capable, others) ← .observe .plugins (fun d =>
    (d.directCapable target.protocol, names.filter d.directCapable))
  if !capable then pure (.error (notDirectCapable target.protocol others))
  else do
    let now ← utcNow
    let expires := now + challengeLifetime
    let id ← .critical .create (fun d =>
      let (id, s) := d.store.createChallenge code target requester displayName now expires
      (id, { d with store := s }))
    let maskedRequester := requester.protocol ++ ":" ++ maskRef requester.endpoint
    let body := "RelayFabric verification code: " ++ code ++ " — reply with this code to link " ++
      maskedRequester ++ ". Ignore to refuse."
    match ← enqueueIdentitySend notice target body now expires with
    | .error reason => pure (.error reason)
    | .ok () => pure (.ok id)

inductive DeskStage
  | idle
  | holding (c : Challenge)
  deriving DecidableEq, Repr

inductive DeskStep (who : Identity) : DeskStage → Section → Daemon → Daemon → DeskStage → Prop
  | other (l : Section) (d d' : Daemon) (quiet : ∀ n, l ≠ .confirm n)
      (same : d.store.SameTables d'.store) : DeskStep who .idle l d d' .idle
  | found (d : Daemon) (c : Challenge) (row : c ∈ d.store.challenges.rows)
      (target : c.target = who) : DeskStep who .idle .challenge d d (.holding c)
  | create (d : Daemon) (code : String) (target requester : Endpoint) (displayName : String)
      (now expires : Int) (aim : who = ⟨target.protocol, target.endpoint⟩) :
      DeskStep who .idle .create d { d with
        store := (d.store.createChallenge code target requester displayName now expires).2 } .idle
  | revoke (d : Daemon) :
      DeskStep who .idle .revoke d { d with
        store := d.store.deleteChallengesForTarget who.protocol who.ref } .idle
  | confirm (d : Daemon) (c : Challenge) (now : Int) :
      DeskStep who (.holding c) (.confirm c.id) d { d with
        store := confirmLinkStore d.store c now } .idle

def QuietSection (l : Section) (d d' : Daemon) : Prop :=
  (∀ n, l ≠ .confirm n) ∧ d.store.SameTables d'.store

abbrev AtDesk {α : Type} (who : Identity) (stage : DeskStage) (p : Engine α) : Prop :=
  Follows (fun _ => True) (DeskStep who) (fun q _ => q = .idle) stage p

section Programs

variable {α β : Type} {who : Identity}

theorem atDesk_of_quiet {p : Engine α} (quiet : Always QuietSection p) : AtDesk who .idle p :=
  follows_of_always quiet (fun l d d' does => .other l d d' does.1 does.2)

private theorem desk_bind {p : Engine α} {rest : α → Engine β} (first : AtDesk who .idle p)
    (second : ∀ a, AtDesk who .idle (rest a)) : AtDesk who .idle (p >>= rest) := by
  refine follows_bind first (fun q a idle => ?_)
  rw [idle]
  exact second a

private theorem desk_pure (a : α) : AtDesk who .idle (pure a : Engine α) := follows_pure rfl

private theorem quiet_observe {l : Section} {read : Daemon → α} (other : ∀ n, l ≠ .confirm n) :
    Always QuietSection (.observe l read : Engine α) :=
  always_observe (fun _ => ⟨other, .refl _⟩)

private theorem quiet_critical {l : Section} {body : Daemon → α × Daemon}
    (other : ∀ n, l ≠ .confirm n) (same : ∀ d : Daemon, d.store.SameTables (body d).2.store) :
    Always QuietSection (.critical l body : Engine α) :=
  always_critical (fun d => ⟨other, same d⟩)

private theorem quiet_modify {l : Section} {write : Daemon → Daemon} (other : ∀ n, l ≠ .confirm n)
    (same : ∀ d : Daemon, d.store.SameTables (write d).store) :
    Always QuietSection (.modify l write : Engine Unit) :=
  always_modify (fun d => ⟨other, same d⟩)

theorem IngressEffect.same_tables {w : Scope} {utc : Int} {l : Section} {s s' : Store}
    (effect : IngressEffect w utc l s s') (free : l.linking = false) : s.SameTables s' := by
  cases effect with
  | persist =>
    obtain ⟨_, _, eq⟩ := persistStore_frame ..
    rw [eq]
    exact ⟨rfl, rfl⟩
  | inbound =>
    obtain ⟨_, _, _, eq⟩ := inboundStore_frame ..
    rw [eq]
    exact ⟨rfl, rfl⟩
  | confirm | revoke => cases free
  | keep | reject | notice | noticeFull => exact ⟨rfl, rfl⟩

private theorem quiet_of_bounds {w : Scope} {p : Engine α}
    (bounds : Always (Footprint.Covers ⟨true, true, false⟩ w) p) : Always QuietSection p := by
  refine always_mono bounds (fun l d d' does => ?_)
  have free := (does.links rfl).2
  refine ⟨?_, does.ingress.1.same_tables free⟩
  rintro _ rfl
  cases free

theorem enqueueIdentitySend_quiet (id : Uuid) (dest : Endpoint) (body : String)
    (now expires : Int) : Always QuietSection (enqueueIdentitySend id dest body now expires) :=
  quiet_of_bounds (w := .any) (enqueueIdentitySend_bounds ..)

theorem confirmLink_desk (ids : Draws) (c : Challenge) (now : Int) :
    AtDesk who (.holding c) (confirmLink ids c now) := by
  refine follows_modify_bind (fun d _ => ⟨.idle, .confirm d c now, ?_⟩)
  refine atDesk_of_quiet (always_bind (quiet_observe (by rintro _ ⟨⟩)) (fun ttl => ?_))
  refine always_bind (enqueueIdentitySend_quiet ..) (fun _ => ?_)
  exact always_bind (enqueueIdentitySend_quiet ..) (fun _ => always_pure _)

theorem noteFailedLinkGuess_desk (plugin sender : String) :
    AtDesk ⟨plugin, sender⟩ .idle (noteFailedLinkGuess plugin sender) := by
  refine desk_bind (atDesk_of_quiet (quiet_critical (by rintro _ ⟨⟩) (fun _ => .refl _)))
    (fun count => ?_)
  refine follows_ite (fun _ => desk_pure _) (fun _ => ?_)
  exact follows_modify (fun d _ => ⟨.idle, .revoke d, rfl⟩)

theorem handle_desk (K : Crypto) (io : Faults) (a : Arrival) :
    AtDesk ⟨a.plugin, a.sender⟩ .idle (a.handle K io) := by
  refine follows_observe_bind (fun read _ => ⟨.idle, .other _ _ _ (by rintro _ ⟨⟩) (.refl _), ?_⟩)
  refine desk_bind (atDesk_of_quiet (quiet_critical (by rintro _ ⟨⟩) (fun _ => .refl _)))
    (fun duplicate => ?_)
  refine follows_ite (fun _ => desk_pure _) (fun _ => ?_)
  refine desk_bind (atDesk_of_quiet (quiet_critical (by rintro _ ⟨⟩) (fun _ => .refl _)))
    (fun allowed => ?_)
  refine follows_ite (fun _ => ?_) (fun _ => desk_pure _)
  refine desk_bind (atDesk_of_quiet (quiet_modify (by rintro _ ⟨⟩) (fun _ => .refl _)))
    (fun _ => ?_)
  refine desk_bind (atDesk_of_quiet (quiet_observe (by rintro _ ⟨⟩))) (fun now => ?_)
  have accepts : AtDesk ⟨a.plugin, a.sender⟩ .idle (acceptInbound K io a.ids read.cfg
      now ⟨a.plugin, a.endpoint⟩ a.sender a.kind a.body a.createdAt a.attachments a.priority) :=
    atDesk_of_quiet (quiet_of_bounds (w := .arrival io ⟨a.plugin, a.endpoint⟩ a.priority)
      (acceptInbound_bounds rfl _ _ read trivial _ _ _ _ _ _ _ _ rfl))
  refine follows_ite (fun _ => ?_) (fun _ => accepts)
  -- the lookup: what it finds is in hand until the confirm section
  refine follows_observe_bind (fun d _ => ?_)
  cases lookup : (if io.findChallenge then none
      else d.store.findActiveChallenge a.plugin a.sender (trim a.body) now) with
  | none =>
    exact ⟨.idle, .other _ d d (by rintro _ ⟨⟩) (.refl _), desk_bind (noteFailedLinkGuess_desk _ _)
      (fun _ => accepts)⟩
  | some c =>
    split at lookup
    · cases lookup
    · obtain ⟨row, target, _⟩ := Store.findActiveChallenge_eq_some lookup
      exact ⟨.holding c, .found d c row target, confirmLink_desk _ _ _⟩

theorem initiateLink_desk (names : List String) (notice : Uuid) (code : String)
    (requester target : Endpoint) (displayName : String) :
    AtDesk ⟨target.protocol, target.endpoint⟩ .idle
      (initiateLink names notice code requester target displayName) := by
  refine desk_bind (atDesk_of_quiet (quiet_modify (by rintro _ ⟨⟩) (fun _ => .refl _)))
    (fun _ => ?_)
  refine desk_bind (atDesk_of_quiet (quiet_observe (by rintro _ ⟨⟩))) (fun capable => ?_)
  refine follows_ite (fun _ => desk_pure _) (fun _ => ?_)
  refine desk_bind (atDesk_of_quiet (quiet_observe (by rintro _ ⟨⟩))) (fun now => ?_)
  refine follows_critical_bind (fun d _ => ⟨.idle, .create d code target requester displayName now
    (now + challengeLifetime) rfl, ?_⟩)
  refine desk_bind (atDesk_of_quiet (enqueueIdentitySend_quiet ..)) (fun sent => ?_)
  cases sent <;> exact desk_pure _

end Programs

def Section.confirms : Section → Option Nat
  | .confirm n => some n
  | _ => none

theorem Section.confirms_eq_some {l : Section} {n : Nat} :
    l.confirms = some n ↔ l = .confirm n := by
  cases l <;> simp [Section.confirms]

def Section.decides : Section → Bool
  | .create | .revoke | .confirm _ => true
  | _ => false

def removedChallenges (s s' : Store) : List Nat :=
  (s.challenges.rows.map Challenge.id).filter (fun id => (s'.challenges.get? id).isNone)

/-- A daemon and the calls in flight, each for the identity whose challenges it works on. Two
history variables: the challenges that have led to a link, and those that a call has replaced,
revoked or consumed. -/
structure Desk where
  d : Daemon
  calls : List (Identity × Engine Unit)
  confirmed : List Nat
  retired : List Nat

inductive DeskMove
  | inbound (io : Faults) (a : Arrival)
  | initiate (names : List String) (notice : Uuid) (code : String) (requester target : Endpoint)
      (displayName : String)
  | section (i : Nat)
  | purge (now : Int)
  | unlink (id : Nat)
  | around (change : Daemon → Daemon)

namespace Desk

def step (K : Crypto) : DeskMove → Desk → Option Desk
  | .inbound io a, σ =>
    some { σ with calls := σ.calls ++ [(⟨a.plugin, a.sender⟩, a.handle K io)] }
  | .initiate names notice code requester target displayName, σ =>
    some { σ with calls := σ.calls ++ [(⟨target.protocol, target.endpoint⟩,
      do let _ ← initiateLink names notice code requester target displayName)] }
  | .section i, σ =>
    match σ.calls[i]? with
    | some (who, .act l effect next) =>
      some { d := effect σ.d
             calls := σ.calls.set i (who, next σ.d)
             confirmed := l.confirms.toList ++ σ.confirmed
             retired := removedChallenges σ.d.store (effect σ.d).store ++ σ.retired }
    | _ => none
  | .purge now, σ =>
    some { σ with d := { σ.d with store := σ.d.store.purgeExpiredChallenges now } }
  | .unlink id, σ => some { σ with d := { σ.d with store := σ.d.store.deleteLink id } }
  | .around change, σ =>
    let d' := change σ.d
    some { σ with d := { d' with store := { d'.store with
      links := σ.d.store.links
      challenges := σ.d.store.challenges } } }

abbrev run (K : Crypto) : List DeskMove → Desk → Option Desk := runAll (step K)

def start (d : Daemon) : Desk := ⟨d, [], [], []⟩

def identity (σ : Desk) (i : Nat) : Option Identity := σ.calls[i]?.map Prod.fst

def label (σ : Desk) (i : Nat) : Option Section := σ.calls[i]?.bind (fun call => call.2.label?)

def holds (σ : Desk) (i : Nat) : Bool := ((σ.label i).bind Section.confirms).isSome

/-- A section that creates, revokes or consumes a challenge is entered only while no other call for
the same identity has a challenge in hand. -/
def excludes (σ : Desk) : DeskMove → Bool
  | .section i =>
    !((σ.label i).any Section.decides) ||
      (List.range σ.calls.length).all (fun j =>
        j == i || decide (σ.identity j ≠ σ.identity i) || !σ.holds j)
  | _ => true

end Desk

structure Store.Evolves (s s' : Store) : Prop where
  next : s.challenges.next ≤ s'.challenges.next
  rows : ∀ c ∈ s'.challenges.rows, c ∈ s.challenges.rows ∨ s.challenges.next ≤ c.id

theorem Store.SameTables.evolves {s s' : Store} (same : s.SameTables s') : s.Evolves s' :=
  ⟨same.challenges ▸ le_rfl, fun _ member => .inl (same.challenges ▸ member)⟩

structure Store.Linked (s : Store) : Prop where
  links : s.OneLink
  challenges : s.OneChallenge

namespace DeskStep

variable {who : Identity} {q q' : DeskStage} {l : Section} {d d' : Daemon}

section

variable (step : DeskStep who q l d d' q')
include step

theorem linked (linked : d.store.Linked) : d'.store.Linked := by
  cases step with
  | other _ _ _ quiet same =>
    refine ⟨linked.links.of_subset ?_, linked.challenges.of_subset ?_⟩
    · rw [same.links]
      exact fun _ member => member
    · rw [same.challenges]
      exact fun _ member => member
  | found => exact linked
  | create _ code target requester displayName now expires aim =>
    exact ⟨linked.links, linked.challenges.createChallenge _ _ _ _ _ _⟩
  | revoke =>
    refine ⟨linked.links, linked.challenges.of_subset (fun c member => ?_)⟩
    exact (Store.mem_deleteChallengesForTarget.mp member).1
  | confirm _ c now =>
    refine ⟨linked.links.confirmLinkStore c now, linked.challenges.of_subset (fun e member => ?_)⟩
    rw [Store.challenges_confirmLinkStore] at member
    exact (Store.mem_deleteChallenge.mp member).1

theorem evolves : d.store.Evolves d'.store := by
  cases step with
  | other _ _ _ quiet same => exact same.evolves
  | found => exact ⟨le_rfl, fun _ member => .inl member⟩
  | create _ code target requester displayName now expires aim =>
    refine ⟨Nat.le_succ _, fun c member => ?_⟩
    rcases Store.mem_createChallenge.mp member with ⟨old, _⟩ | rfl
    · exact .inl old
    · exact .inr le_rfl
  | revoke =>
    exact ⟨le_rfl, fun c member => .inl (Store.mem_deleteChallengesForTarget.mp member).1⟩
  | confirm _ c now =>
    constructor
    · rw [Store.challenges_confirmLinkStore]
      exact le_rfl
    · intro e member
      rw [Store.challenges_confirmLinkStore] at member
      exact .inl (Store.mem_deleteChallenge.mp member).1

theorem removes {c : Challenge} (row : c ∈ d.store.challenges.rows)
    (gone : c ∉ d'.store.challenges.rows) :
    l.decides = true ∧ (c.target = who ∨ ∃ e, q = .holding e ∧ e.id = c.id) := by
  cases step with
  | other _ _ _ quiet same =>
    rw [same.challenges] at gone
    exact absurd row gone
  | found => exact absurd row gone
  | create _ code target requester displayName now expires aim =>
    refine ⟨rfl, .inl ?_⟩
    by_contra other
    rw [aim] at other
    exact gone (Store.mem_createChallenge.mpr (.inl ⟨row, other⟩))
  | revoke =>
    refine ⟨rfl, .inl ?_⟩
    by_contra other
    exact gone (Store.mem_deleteChallengesForTarget.mpr ⟨row, other⟩)
  | confirm _ e now =>
    refine ⟨rfl, .inr ⟨e, rfl, ?_⟩⟩
    by_contra other
    rw [Store.challenges_confirmLinkStore] at gone
    exact gone (Store.mem_deleteChallenge.mpr ⟨row, Ne.symm other⟩)

end

theorem confirms {c : Challenge} (step : DeskStep who (.holding c) l d d' q') :
    l = .confirm c.id := by
  cases step
  rfl

theorem holding {n : Nat} (step : DeskStep who q (.confirm n) d d' q') :
    ∃ c, q = .holding c ∧ c.id = n := by
  cases step with
  | other _ _ _ quiet _ => exact absurd rfl (quiet n)
  | confirm _ c now => exact ⟨c, rfl, rfl⟩

end DeskStep

namespace Desk

variable {K : Crypto} {σ σ' : Desk} {stage : Nat → DeskStage}

abbrev Stages (stage : Nat → DeskStage) (σ : Desk) : Prop :=
  Staged DeskStep (fun q (_ : Unit) => q = .idle) .idle stage σ.calls

theorem initiate_stages (names : List String) (notice : Uuid) (code : String)
    (requester target : Endpoint) (displayName : String) :
    AtDesk ⟨target.protocol, target.endpoint⟩ .idle
      (do let _ ← initiateLink names notice code requester target displayName : Engine Unit) :=
  desk_bind (initiateLink_desk ..) (fun _ => desk_pure _)

theorem identity_set {i j : Nat} {who : Identity} {p p' : Engine Unit}
    {calls : List (Identity × Engine Unit)} (running : calls[i]? = some (who, p)) :
    (calls.set i (who, p'))[j]?.map Prod.fst = calls[j]?.map Prod.fst := by
  by_cases same : j = i
  · subst same
    rw [List.getElem?_set_self (List.getElem?_eq_some_iff.mp running).1, running]
    rfl
  · rw [List.getElem?_set_ne (Ne.symm same)]

private theorem step_linked {a : DeskMove} (step : Desk.step K a σ = some σ')
    (stages : σ.Stages stage) (linked : σ.d.store.Linked) :
    (∃ stage', σ'.Stages stage') ∧ σ'.d.store.Linked := by
  cases a with
  | inbound io a =>
    cases step
    exact ⟨⟨stage, stages.spawn (handle_desk ..)⟩, linked⟩
  | initiate names notice code requester target displayName =>
    cases step
    exact ⟨⟨stage, stages.spawn (initiate_stages ..)⟩, linked⟩
  | «section» i =>
    simp only [Desk.step] at step
    split at step
    · next who l effect next running =>
      cases step
      obtain ⟨q, offered, later⟩ := stages.act running σ.d
      exact ⟨⟨_, later⟩, offered.linked linked⟩
    · cases step
  | purge now =>
    cases step
    refine ⟨⟨stage, stages⟩, linked.links, linked.challenges.of_subset (fun c member => ?_)⟩
    exact (Store.mem_purgeExpiredChallenges.mp member).1
  | unlink id =>
    cases step
    refine ⟨⟨stage, stages⟩, linked.links.of_subset (fun l member => ?_), linked.challenges⟩
    exact (Store.mem_deleteLink.mp member).1
  | around change =>
    cases step
    exact ⟨⟨stage, stages⟩, linked.links, linked.challenges⟩

end Desk

/-- However identity-link calls, unlinks and purges interleave at the store lock, each identity is
an endpoint of one link at most and the target of one challenge at most, and the row of the
challenge confirmed next is then the link of both parties. -/
theorem one_link_per_identity (K : Crypto) (moves : List DeskMove) (d : Daemon) (σ : Desk)
    (reached : Desk.run K moves (.start d) = some σ) (empty : d.store.links.rows = [])
    (targets : d.store.OneChallenge) :
    σ.d.store.OneLink ∧ σ.d.store.OneChallenge ∧
      ∀ c now, (confirmLinkStore σ.d.store c now).OneLink ∧
        (confirmLinkStore σ.d.store c now).linkForIdentity c.targetProtocol c.targetRef =
          some (σ.d.store.confirmedLink c now) ∧
        (confirmLinkStore σ.d.store c now).linkForIdentity c.requesterProtocol c.requesterRef =
          some (σ.d.store.confirmedLink c now) := by
  have unlinked : d.store.OneLink := by
    intro who l member
    rw [empty] at member
    cases member
  obtain ⟨_, linked⟩ := runAll_invariant
    (fun σ => (∃ stage, σ.Stages stage) ∧ σ.d.store.Linked)
    (fun a σ σ' step given => by
      obtain ⟨⟨stage, stages⟩, linked⟩ := given
      exact Desk.step_linked step stages linked)
    reached ⟨⟨_, .nil⟩, unlinked, targets⟩
  refine ⟨linked.links, linked.challenges, fun c now => ⟨linked.links.confirmLinkStore c now, ?_⟩⟩
  exact linked.links.linkForIdentity_confirmLinkStore c now

def Daemon.linking : Daemon :=
  { Daemon.small .empty with plugins := Map.empty.insert "s" ⟨1, ⟨true, false, none⟩, true⟩ }

def DeskMove.ask (notice : Uuid) (code : String) : DeskMove :=
  .initiate ["s"] notice code ⟨"x", "bob"⟩ ⟨"s", "ann"⟩ "Ann"

def Arrival.reply (ids : Draws) (code : String) : Arrival :=
  ⟨ids, "s", "lobby", "ann", "text", code, none, [], none⟩

def linkingMoves : List DeskMove :=
  [DeskMove.ask ⟨1⟩ "123456"] ++ List.replicate 7 (DeskMove.section 0) ++
    [DeskMove.inbound .none (.reply ⟨⟨2⟩, ⟨3⟩, ⟨4⟩⟩ "123456")] ++ List.replicate 14
    (DeskMove.section 1)

theorem one_link_per_identity_ann :
    ∃ σ, Desk.run (.clear "rf:a") linkingMoves (.start .linking) = some σ ∧
      σ.d.store.links.rows = [⟨1, "s", "ann", "x", "bob", "Ann", 0⟩] ∧ σ.d.store.OneLink ∧
      σ.d.store.OneChallenge := by
  obtain ⟨σ, reached, rows⟩ :
      ∃ σ, Desk.run (.clear "rf:a") linkingMoves (.start .linking) = some σ ∧
        σ.d.store.links.rows = [⟨1, "s", "ann", "x", "bob", "Ann", 0⟩] := by
    decide +kernel
  have invariant := one_link_per_identity (.clear "rf:a") linkingMoves .linking σ reached rfl
    (fun c member => nomatch member)
  exact ⟨σ, reached, rows, invariant.1, invariant.2.1⟩

end RelayFabric
