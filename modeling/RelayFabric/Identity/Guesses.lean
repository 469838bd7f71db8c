/- source: engine.rs (note_failed_link_guess, handle_inbound, initiate_link)
   digest: How many wrong codes can be tried against one challenge while calls interleave. -/

import RelayFabric.Identity.GuessBook

namespace RelayFabric

open List Lib Option
open Prog hiding bind run

/-- Where a call stands: a reply before and after its code was counted, or with a challenge in hand;
a request before it clears the count and after it is done; or amid a phase of either. -/
inductive GuessStage
  | reply | holding | ask | done
  | amid (p : GuessPhase)
  deriving DecidableEq, Repr

namespace GuessStage

def phase : GuessStage → GuessPhase
  | amid p => p
  | _ => .closed

def asking : GuessStage → Bool
  | ask => true
  | amid p => p.asking
  | _ => false

def replying : GuessStage → Bool
  | reply | holding => true
  | amid p => !p.asking
  | _ => false

end GuessStage

def Section.guessing : Section → Bool
  | .challenge | .guesses | .revoke | .create => true
  | _ => false

structure Daemon.Spares (d d' : Daemon) : Prop where
  clock : d'.clock = d.clock
  guesses : d'.linkGuesses = d.linkGuesses
  next : d'.store.challenges.next = d.store.challenges.next
  rows : ∀ c ∈ d'.store.challenges.rows, c ∈ d.store.challenges.rows

inductive GuessStep (who : Identity) : GuessStage → Section → Daemon → Daemon → GuessStage → Prop
  | quiet (q : GuessStage) (l : Section) (d d' : Daemon) (idle : q = .reply ∨ q = .done)
      (other : l.guessing = false) (spares : d.Spares d') : GuessStep who q l d d' q
  | hit (d : Daemon) : GuessStep who .reply .challenge d d .holding
  | confirm (n : Nat) (d d' : Daemon) (spares : d.Spares d') :
      GuessStep who .holding (.confirm n) d d' .reply
  | miss (d : Daemon) : GuessStep who .reply .challenge d d (.amid .missed)
  | count (d : Daemon)
      (few : (countGuess d.linkGuesses (guessKey who) d.clock.instant).1 < linkCodeMaxGuesses) :
      GuessStep who (.amid .missed) .guesses d { d with
        linkGuesses := (countGuess d.linkGuesses (guessKey who) d.clock.instant).2 } .reply
  | last (d : Daemon)
      (many : ¬(countGuess d.linkGuesses (guessKey who) d.clock.instant).1 < linkCodeMaxGuesses) :
      GuessStep who (.amid .missed) .guesses d { d with
        linkGuesses := (countGuess d.linkGuesses (guessKey who) d.clock.instant).2 } (.amid .spent)
  | revoke (d : Daemon) : GuessStep who (.amid .spent) .revoke d { d with
      store := d.store.deleteChallengesForTarget who.protocol who.ref } .reply
  | clear (d : Daemon) : GuessStep who .ask .guesses d { d with
      linkGuesses := d.linkGuesses.filter (fun e => e.1 != guessKey who) } (.amid .cleared)
  | refuse (d : Daemon) (away : d.directCapable who.protocol = false) :
      GuessStep who (.amid .cleared) .plugins d d .done
  | proceed (d : Daemon) : GuessStep who (.amid .cleared) .plugins d d (.amid .ready)
  | date (d : Daemon) : GuessStep who (.amid .ready) .clock d d (.amid (.aiming d.clock.utc))
  | create (d : Daemon) (code : String) (target requester : Endpoint) (displayName : String)
      (now : Int) (aim : who = ⟨target.protocol, target.endpoint⟩) :
      GuessStep who (.amid (.aiming now)) .create d { d with
        store := (d.store.createChallenge code target requester displayName now
          (now + challengeLifetime)).2 } .done

def GuessStage.final (q : GuessStage) : Prop := q = .reply ∨ q = .done

abbrev AtGuess {α : Type} (who : Identity) (q : GuessStage) (p : Engine α) : Prop :=
  Follows (fun _ => True) (GuessStep who) (fun q _ => q.final) q p

section Programs

variable {α β : Type} {who : Identity} {q : GuessStage}

def SparingSection (l : Section) (d d' : Daemon) : Prop := l.guessing = false ∧ d.Spares d'

private theorem quiet_program {p : Engine α} (idle : q = .reply ∨ q = .done)
    (sparing : Always SparingSection p) :
    Follows (fun _ => True) (GuessStep who) (fun q' _ => q' = q) q p :=
  follows_of_always sparing (fun l d d' does => .quiet q l d d' idle does.1 does.2)

private theorem quiet_bind {p : Engine α} {rest : α → Engine β} (idle : q = .reply ∨ q = .done)
    (sparing : Always SparingSection p) (second : ∀ a, AtGuess who q (rest a)) :
    AtGuess who q (p >>= rest) := by
  refine follows_bind (quiet_program idle sparing) (fun q' a same => ?_)
  rw [same]
  exact second a

private theorem quiet_last {p : Engine α} (idle : q = .reply ∨ q = .done)
    (sparing : Always SparingSection p) : AtGuess who q p :=
  follows_final (quiet_program idle sparing) (fun _ _ same => same ▸ idle)

private theorem sparing_observe {l : Section} (other : l.guessing = false) {read : Daemon → α} :
    Always SparingSection (.observe l read : Engine α) :=
  always_observe (fun _ => ⟨other, rfl, rfl, rfl, fun _ member => member⟩)

private theorem sparing_critical {l : Section} {body : Daemon → α × Daemon}
    (other : l.guessing = false) (clock : ∀ d, (body d).2.clock = d.clock)
    (guesses : ∀ d, (body d).2.linkGuesses = d.linkGuesses)
    (challenges : ∀ d, (body d).2.store.challenges = d.store.challenges) :
    Always SparingSection (.critical l body : Engine α) := by
  refine always_critical (fun d => ⟨other, clock d, guesses d, ?_, ?_⟩)
  · rw [challenges]
  · rw [challenges]
    exact fun _ member => member

private theorem sparing_of_bounds {w : Scope} {p : Engine α}
    (bounds : Always (Footprint.Covers ⟨true, true, false⟩ w) p) : Always SparingSection p := by
  refine always_mono bounds (fun l d d' does => ?_)
  obtain ⟨guesses, free⟩ := does.links rfl
  have same := (does.ingress.1.same_tables free).challenges
  refine ⟨?_, does.ingress.2.clock, guesses, by rw [same],
    by rw [same]; exact fun _ member => member⟩
  cases l <;> first | rfl | cases free

theorem enqueueIdentitySend_sparing (id : Uuid) (dest : Endpoint) (body : String)
    (now expires : Int) : Always SparingSection (enqueueIdentitySend id dest body now expires) :=
  sparing_of_bounds (w := .any) (enqueueIdentitySend_bounds ..)

theorem confirmLink_guess (ids : Draws) (c : Challenge) (now : Int) :
    AtGuess who .holding (confirmLink ids c now) := by
  refine follows_modify_bind (fun d _ => ⟨.reply, .confirm _ d _ ⟨rfl, rfl, ?_, ?_⟩, ?_⟩)
  · show (confirmLinkStore d.store c now).challenges.next = _
    rw [Store.challenges_confirmLinkStore]
    rfl
  · intro e member
    have kept : e ∈ (confirmLinkStore d.store c now).challenges.rows := member
    rw [Store.challenges_confirmLinkStore] at kept
    exact (Store.mem_deleteChallenge.mp kept).1
  · refine quiet_bind (.inl rfl) (sparing_observe rfl) (fun ttl => ?_)
    refine quiet_bind (.inl rfl) (enqueueIdentitySend_sparing ..) (fun _ => ?_)
    exact quiet_bind (.inl rfl) (enqueueIdentitySend_sparing ..) (fun _ => follows_pure (.inl rfl))

theorem noteFailedLinkGuess_guess (plugin sender : String) :
    Follows (fun _ => True) (GuessStep ⟨plugin, sender⟩) (fun q _ => q = .reply) (.amid .missed)
      (noteFailedLinkGuess plugin sender) := by
  refine follows_critical_bind (fun d _ => ?_)
  by_cases few : (countGuess d.linkGuesses (guessKey ⟨plugin, sender⟩) d.clock.instant).1 <
      linkCodeMaxGuesses
  · exact ⟨.reply, .count d few, follows_ite (fun _ => follows_pure rfl)
      (fun many => absurd few many)⟩
  · refine ⟨.amid .spent, .last d few, follows_ite (fun little => absurd little few) (fun _ => ?_)⟩
    exact follows_modify (fun d _ => ⟨.reply, .revoke d, rfl⟩)

theorem handle_guess (K : Crypto) (io : Faults) (a : Arrival) :
    AtGuess ⟨a.plugin, a.sender⟩ .reply (a.handle K io) := by
  have calm {β : Type} {l : Section} {body : Daemon → β × Daemon} := @sparing_critical β l body
  refine follows_observe_bind (fun read _ => ⟨.reply, .quiet .reply _ _ _ (.inl rfl) rfl
    ⟨rfl, rfl, rfl, fun _ member => member⟩, ?_⟩)
  refine quiet_bind (.inl rfl) (calm rfl (fun _ => rfl) (fun _ => rfl) (fun _ => rfl))
    (fun duplicate => ?_)
  refine follows_ite (fun _ => follows_pure (.inl rfl)) (fun _ => ?_)
  refine quiet_bind (.inl rfl) (calm rfl (fun _ => rfl) (fun _ => rfl) (fun _ => rfl))
    (fun allowed => ?_)
  refine follows_ite (fun _ => ?_) (fun _ => follows_pure (.inl rfl))
  refine quiet_bind (.inl rfl) (calm rfl (fun _ => rfl) (fun _ => rfl) (fun _ => rfl)) (fun _ => ?_)
  refine quiet_bind (.inl rfl) (sparing_observe rfl) (fun now => ?_)
  have accepts := sparing_of_bounds (acceptInbound_bounds (w := .arrival io ⟨a.plugin, a.endpoint⟩
    a.priority) rfl K a.ids read trivial now ⟨a.plugin, a.endpoint⟩ a.sender a.kind a.body
    a.createdAt a.attachments a.priority rfl)
  refine follows_ite (fun _ => ?_) (fun _ => quiet_last (.inl rfl) accepts)
  refine follows_observe_bind (fun d _ => ?_)
  cases (if io.findChallenge then none
      else d.store.findActiveChallenge a.plugin a.sender (trim a.body) now) with
  | some c => exact ⟨.holding, .hit d, confirmLink_guess _ c now⟩
  | none =>
    refine ⟨.amid .missed, .miss d, ?_⟩
    refine follows_bind (noteFailedLinkGuess_guess ..) (fun q _ counted => ?_)
    rw [counted]
    exact quiet_last (.inl rfl) accepts

theorem initiateLink_guess (names : List String) (notice : Uuid) (code : String)
    (requester target : Endpoint) (displayName : String) :
    AtGuess ⟨target.protocol, target.endpoint⟩ .ask
      (initiateLink names notice code requester target displayName) := by
  refine follows_modify_bind (fun d _ => ⟨.amid .cleared, .clear d, ?_⟩)
  refine follows_observe_bind (fun d _ => ?_)
  dsimp only
  cases capable : d.directCapable target.protocol with
  | false =>
    exact ⟨.done, .refuse d capable, follows_ite (fun _ => follows_pure (.inr rfl)) nofun⟩
  | true =>
    refine ⟨.amid .ready, .proceed d, follows_ite nofun (fun _ => ?_)⟩
    refine follows_observe_bind (fun d _ => ⟨.amid (.aiming d.clock.utc), .date d, ?_⟩)
    refine follows_critical_bind (fun e _ => ⟨.done, .create e code target requester displayName
      d.clock.utc rfl, ?_⟩)
    refine quiet_bind (.inr rfl) (enqueueIdentitySend_sparing ..) (fun sent => ?_)
    cases sent <;> exact follows_pure (.inr rfl)

end Programs

namespace GuessStep

variable {who : Identity} {q q' : GuessStage} {l : Section} {d d' : Daemon}

theorem asking (step : GuessStep who q l d d' q') (asks : q'.asking = true) :
    q.asking = true ∧ l ≠ .create := by
  cases step with
  | quiet _ _ _ _ idle => rcases idle with rfl | rfl <;> cases asks
  | clear | proceed | date => exact ⟨rfl, nofun⟩
  | hit | confirm | miss | count | last | revoke | refuse | create => cases asks

theorem replying (step : GuessStep who q l d d' q') (replies : q'.replying = true) :
    q.replying = true := by
  cases step with
  | quiet => exact replies
  | hit | confirm | miss | count | last | revoke => rfl
  | clear | proceed | date | refuse | create => cases replies

theorem amid (step : GuessStep who q l d d' q') (busy : q.phase ≠ .closed) :
    (q.asking = true ∧ l ∈ [.plugins, .clock, .create]) ∨
      (q.replying = true ∧ l ∈ [.guesses, .revoke]) := by
  cases step with
  | quiet _ _ _ _ idle => rcases idle with rfl | rfl <;> exact absurd rfl busy
  | hit | confirm | miss | clear => exact absurd rfl busy
  | refuse | proceed | date | create => exact .inl ⟨rfl, by simp⟩
  | count | last | revoke => exact .inr ⟨rfl, by simp⟩

theorem opens (step : GuessStep who q l d d' q') (closed : q.phase = .closed)
    (busy : q'.phase ≠ .closed) : l = .challenge ∨ (l = .guesses ∧ q.asking = true) := by
  cases step with
  | quiet _ _ _ _ idle => rcases idle with rfl | rfl <;> exact absurd rfl busy
  | miss => exact .inl rfl
  | clear => exact .inr ⟨rfl, rfl⟩
  | hit | confirm | count | revoke | refuse | create => exact absurd rfl busy
  | last | proceed | date => cases closed

theorem looks (step : GuessStep who q .challenge d d' q') : q' = .amid .missed ∨ q' = .holding := by
  cases step with
  | quiet _ _ _ _ _ other => cases other
  | hit => exact .inr rfl
  | miss => exact .inl rfl

theorem missed (step : GuessStep who q l d d' (.amid .missed)) : l = .challenge := by
  cases step with
  | quiet _ _ _ _ idle => rcases idle with same | same <;> cases same
  | miss => rfl

theorem confirms (step : GuessStep who .holding l d d' q') : ∃ n, l = .confirm n := by
  cases step with
  | quiet _ _ _ _ idle => rcases idle with same | same <;> cases same
  | confirm n => exact ⟨n, rfl⟩

theorem counts (step : GuessStep who (.amid .missed) l d d' q') : l = .guesses := by
  cases step with
  | quiet _ _ _ _ idle => rcases idle with same | same <;> cases same
  | count | last => rfl

theorem meets (step : GuessStep who (.amid .cleared) l d d' q') : l = .plugins := by
  cases step with
  | quiet _ _ _ _ idle => rcases idle with same | same <;> cases same
  | refuse | proceed => rfl

end GuessStep

theorem AtGuess.holding {who : Identity} {p : Engine Unit} (follows : AtGuess who .holding p)
    (d : Daemon) : ∃ n, p.label? = some (.confirm n) := by
  cases p with
  | ret a => rcases follows_ret follows with same | same <;> cases same
  | act l effect next =>
    obtain ⟨q, offered, _⟩ := follows_act follows (s := d) trivial
    obtain ⟨n, rfl⟩ := offered.confirms
    exact ⟨n, rfl⟩

theorem AtGuess.missed {who : Identity} {p : Engine Unit} (follows : AtGuess who (.amid .missed) p)
    (d : Daemon) : p.label? = some .guesses := by
  cases p with
  | ret a => rcases follows_ret follows with same | same <;> cases same
  | act l effect next =>
    obtain ⟨q, offered, _⟩ := follows_act follows (s := d) trivial
    exact congrArg some offered.counts

namespace GuessBook

variable {base : Nat} {L : GuessBook} {who : Identity} {q q' : GuessStage} {l : Section}
    {d' : Daemon}

def shift (phase : Identity → GuessPhase) (who : Identity) (q q' : GuessStage) :
    Identity → GuessPhase :=
  if q.phase = .closed ∧ q'.phase = .closed then phase else Function.update phase who q'.phase

theorem Inv.spares (inv : L.Inv base) (spares : L.d.Spares d') : Inv base { L with d := d' } := by
  refine inv.drift spares.next spares.rows spares.guesses ?_ ?_
  · rw [spares.clock]
  · rw [spares.clock]
    omega

theorem Inv.act (inv : L.Inv base) (step : GuessStep who q l L.d d' q')
    (plain : Barless who.protocol) (stands : q.phase ≠ .closed → L.phase who = q.phase)
    (free : q.phase = .closed → q'.phase ≠ .closed → L.phase who = .closed)
    (room : q = .amid .missed →
      (liveGuesses L.d.linkGuesses L.d.clock.instant).length < linkCodeMapMax)
    (served : q = .amid .cleared →
      L.d.directCapable who.protocol = true ∨ ∀ c, ¬Aims base L.d who c) :
    Inv base ⟨d', (if q' = .amid .missed then live L.d who else []) ++ L.checks,
      shift L.phase who q q'⟩ := by
  obtain ⟨d, checks, phase⟩ := L
  cases step with
  | quiet _ _ _ _ idle other spares =>
    rcases idle with rfl | rfl <;> exact inv.spares spares
  | hit => exact inv
  | confirm n _ _ spares => exact inv.spares spares
  | miss => exact inv.miss (free rfl nofun) plain
  | count _ few =>
    have counted := inv.count (stands nofun) (room rfl)
    rwa [if_pos few] at counted
  | last _ many =>
    have counted := inv.count (stands nofun) (room rfl)
    rwa [if_neg many] at counted
  | revoke =>
    have deleted : Inv base ⟨{ d with
        store := d.store.deleteChallengesForTarget who.protocol who.ref }, checks, phase⟩ :=
      inv.spares ⟨rfl, rfl, rfl, fun c member => (Store.mem_deleteChallengesForTarget.mp member).1⟩
    refine deleted.rephase who .closed (fun busy => absurd rfl busy) nofun nofun (fun c aims => ?_)
    exact absurd aims.2.2.1 (Store.mem_deleteChallengesForTarget.mp aims.1).2
  | clear => exact inv.clear (free rfl nofun) plain
  | refuse _ away =>
    refine inv.rephase who .closed (fun busy => absurd rfl busy) nofun nofun (fun c aims => ?_)
    rcases served rfl with capable | free
    · exact absurd (away.symm.trans capable) nofun
    · exact absurd aims (free c)
  | proceed =>
    have stage := stands nofun
    refine inv.rephase who .ready (fun _ => plain) (fun _ => inv.cleared who ?_)
      nofun (fun c aims => ?_)
    · rw [stage]
      rfl
    · have counted := (inv.aimed aims).2.1
      rwa [stage] at counted
  | date =>
    have stage := stands nofun
    refine inv.rephase who _ (fun _ => plain) (fun _ => inv.cleared who ?_) ?_ (fun c aims => ?_)
    · rw [stage]
      rfl
    · rintro now ⟨⟩
      exact le_rfl
    · have counted := (inv.aimed aims).2.1
      rwa [stage] at counted
  | create _ code target requester displayName now aim => exact inv.create aim (stands nofun)

end GuessBook

/-- A desk, with two history variables: the requests that have created no challenge yet, and the
challenges that wrong codes have been checked against. -/
structure Watch where
  desk : Desk
  asks : List Nat
  checks : List Nat

namespace Watch

def start (d : Daemon) : Watch := ⟨.start d, [], []⟩

def asked (σ : Watch) : DeskMove → List Nat
  | .initiate .. => σ.desk.calls.length :: σ.asks
  | .section i => if σ.desk.label i = some .create then σ.asks.filter (· != i) else σ.asks
  | _ => σ.asks

/-- A lookup that leaves its call without a challenge to confirm has checked a wrong code against
the live challenges of the identity. -/
def checked (σ : Watch) (after : Desk) : DeskMove → List Nat
  | .section i =>
    if σ.desk.label i = some .challenge ∧ after.holds i = false then
      ((σ.desk.identity i).map (GuessBook.live σ.desk.d)).getD []
    else []
  | _ => []

def step (K : Crypto) (m : DeskMove) (σ : Watch) : Option Watch :=
  (Desk.step K m σ.desk).map (fun desk => ⟨desk, σ.asked m, σ.checked desk m ++ σ.checks⟩)

abbrev run (K : Crypto) : List DeskMove → Watch → Option Watch := runAll (step K)

/-- The call stands between its lookup and the end of its count, or between clearing the count and
creating the challenge. -/
def busy (σ : Watch) (i : Nat) : Bool :=
  (σ.desk.label i).any (fun l =>
    if i ∈ σ.asks then decide (l ∈ [.plugins, .clock, .create])
    else decide (l ∈ [.guesses, .revoke]))

def free (σ : Watch) (i : Nat) : Bool :=
  (List.range σ.desk.calls.length).all (fun j =>
    j == i || decide (σ.desk.identity j ≠ σ.desk.identity i) || !σ.busy j)

def room (d : Daemon) : Bool :=
  decide ((liveGuesses d.linkGuesses d.clock.instant).length < linkCodeMapMax)

def serves (d : Daemon) (who : Identity) : Bool :=
  d.directCapable who.protocol || d.store.challenges.rows.all (fun c =>
    decide (c.expiresAt ≤ d.clock.utc) || decide (guessKey c.target ≠ guessKey who))

/-- A code is looked up, and a count is cleared, while no other call for the identity is busy; a
wrong code is counted while the map has room; a request that has cleared the count is served. Plugin
names have no bar, and around the calls the guesses stay and both clocks go on alike. -/
def admits (σ : Watch) : DeskMove → Bool
  | .inbound _ a => decide (Barless a.plugin)
  | .initiate _ _ _ _ target _ => decide (Barless target.protocol)
  | .section i =>
    match σ.desk.label i with
    | some .challenge => σ.free i
    | some .guesses => if i ∈ σ.asks then σ.free i else room σ.desk.d
    | some .plugins => decide (i ∉ σ.asks) || (σ.desk.identity i).all (serves σ.desk.d)
    | _ => true
  | .around change =>
    let d' := change σ.desk.d
    decide (d'.linkGuesses = σ.desk.d.linkGuesses ∧ σ.desk.d.clock.utc ≤ d'.clock.utc ∧
      d'.clock.utc - σ.desk.d.clock.utc = d'.clock.instant - σ.desk.d.clock.instant)
  | _ => true

def caller (calls : List (Identity × Engine Unit)) (i : Nat) : Option Identity :=
  calls[i]?.map Prod.fst

theorem caller_append {calls : List (Identity × Engine Unit)} {i : Nat} (old : i < calls.length)
    (more : List (Identity × Engine Unit)) : caller (calls ++ more) i = caller calls i := by
  unfold caller
  rw [List.getElem?_append_left old]

structure Manned (stage : Nat → GuessStage) (phase : Identity → GuessPhase)
    (calls : List (Identity × Engine Unit)) (asks : List Nat) : Prop where
  stages : Staged GuessStep (fun q _ => q.final) .reply stage calls
  asking : ∀ i, (stage i).asking = true → i ∈ asks
  replying : ∀ i, (stage i).replying = true → i ∉ asks
  plain : ∀ i who, caller calls i = some who → Barless who.protocol
  stands : ∀ i who, caller calls i = some who → (stage i).phase ≠ .closed →
    phase who = (stage i).phase
  alone : ∀ i j, caller calls i = caller calls j → (stage i).phase ≠ .closed →
    (stage j).phase ≠ .closed → i = j
  held : ∀ who, phase who ≠ .closed →
    ∃ i, caller calls i = some who ∧ (stage i).phase = phase who

structure Inv (base : Nat) (stage : Nat → GuessStage) (phase : Identity → GuessPhase) (σ : Watch) :
    Prop where
  manned : Manned stage phase σ.desk.calls σ.asks
  book : GuessBook.Inv base ⟨σ.desk.d, σ.checks, phase⟩

variable {K : Crypto} {base : Nat} {stage : Nat → GuessStage} {phase : Identity → GuessPhase}
  {calls : List (Identity × Engine Unit)} {asks asks' : List Nat} {σ σ' : Watch} {i : Nat}
  {who : Identity} {q : GuessStage}

theorem Manned.inside (manned : Manned stage phase calls asks) (busy : (stage i).phase ≠ .closed) :
    i < calls.length := by
  by_contra beyond
  rw [manned.stages.beyond i (Nat.le_of_not_lt beyond)] at busy
  exact busy rfl

theorem Manned.busy (manned : Manned stage phase σ.desk.calls σ.asks)
    (busy : (stage i).phase ≠ .closed) : σ.busy i = true := by
  obtain ⟨⟨who, p⟩, found⟩ : ∃ call, σ.desk.calls[i]? = some call :=
    ⟨_, List.getElem?_eq_getElem (manned.inside busy)⟩
  have follows := manned.stages.follows i who p found
  unfold Watch.busy Desk.label
  rw [found]
  cases p with
  | ret a =>
    have final := Prog.follows_ret follows
    rcases final with same | same <;> exact absurd (congrArg GuessStage.phase same) busy
  | act l effect next =>
    obtain ⟨q, offered, _⟩ := Prog.follows_act follows (s := σ.desk.d) trivial
    show (if i ∈ σ.asks then _ else _) = true
    rcases offered.amid busy with ⟨asking, listed⟩ | ⟨replying, listed⟩
    · rw [if_pos (manned.asking i asking), decide_eq_true_eq]
      exact listed
    · rw [if_neg (manned.replying i replying), decide_eq_true_eq]
      exact listed

theorem Manned.enter (manned : Manned stage phase calls asks) {p : Engine Unit}
    (starts : AtGuess who q p) (closed : q.phase = .closed) (plain : Barless who.protocol)
    (asking : q.asking = true → calls.length ∈ asks')
    (replying : q.replying = true → calls.length ∉ asks')
    (others : ∀ i, i ≠ calls.length → (i ∈ asks' ↔ i ∈ asks)) :
    Manned (Function.update stage calls.length q) phase (calls ++ [(who, p)]) asks' := by
  have here : Function.update stage calls.length q calls.length = q := Function.update_self ..
  have there {i : Nat} (other : i ≠ calls.length) :
      Function.update stage calls.length q i = stage i := Function.update_of_ne other ..
  -- a busy call is an old one, with its name
  have old {i : Nat} (busy : (Function.update stage calls.length q i).phase ≠ .closed) :
      (stage i).phase ≠ .closed ∧ i ≠ calls.length ∧
        caller (calls ++ [(who, p)]) i = caller calls i := by
    have other : i ≠ calls.length := by
      rintro rfl
      rw [here] at busy
      exact busy closed
    rw [there other] at busy
    exact ⟨busy, other, caller_append (manned.inside busy) _⟩
  refine ⟨manned.stages.enter starts, ?_, ?_, ?_, ?_, ?_, ?_⟩
  · intro i asks
    by_cases same : i = calls.length
    · rw [same, here] at asks
      exact same ▸ asking asks
    · rw [there same] at asks
      exact (others i same).mpr (manned.asking i asks)
  · intro i replies
    by_cases same : i = calls.length
    · rw [same, here] at replies
      exact same ▸ replying replies
    · rw [there same] at replies
      exact fun member => manned.replying i replies ((others i same).mp member)
  · intro i other named
    unfold caller at named
    rw [List.getElem?_append] at named
    split at named
    · exact manned.plain i other named
    · obtain ⟨call, found, rfl⟩ := Option.map_eq_some_iff.mp named
      rw [mem_singleton.mp (mem_of_getElem? found)]
      exact plain
  · intro i other named busy
    obtain ⟨before, apart, same⟩ := old busy
    rw [there apart]
    exact manned.stands i other (same ▸ named) before
  · intro i j named busy busy'
    obtain ⟨before, _, same⟩ := old busy
    obtain ⟨before', _, same'⟩ := old busy'
    rw [same, same'] at named
    exact manned.alone i j named before before'
  · intro other busy
    obtain ⟨i, named, stands⟩ := manned.held other busy
    have inside := manned.inside (show (stage i).phase ≠ .closed by rw [stands]; exact busy)
    refine ⟨i, ?_, ?_⟩
    · exact (caller_append inside _).trans named
    · rw [there (Nat.ne_of_lt inside)]
      exact stands

theorem shift_self {q' : GuessStage} (opens : q.phase ≠ .closed ∨ q'.phase ≠ .closed) :
    GuessBook.shift phase who q q' who = q'.phase := by
  unfold GuessBook.shift
  rw [if_neg (by tauto), Function.update_self]

theorem shift_of_ne {q' : GuessStage} {other : Identity} (apart : other ≠ who) :
    GuessBook.shift phase who q q' other = phase other := by
  unfold GuessBook.shift
  split
  · rfl
  · exact Function.update_of_ne apart ..

theorem shift_closed {q' : GuessStage} (closed : q.phase = .closed) (closed' : q'.phase = .closed) :
    GuessBook.shift phase who q q' = phase := if_pos ⟨closed, closed'⟩

/-- While another call for the identity is amid a phase, this one is not, before and after. -/
theorem Manned.aside (manned : Manned stage phase calls asks) (mine : caller calls i = some who)
    (free : (stage i).phase = .closed → q.phase ≠ .closed → phase who = .closed) {j : Nat}
    (other : j ≠ i) (same : caller calls j = some who) (busy : (stage j).phase ≠ .closed) :
    (stage i).phase = .closed ∧ q.phase = .closed := by
  have closed : (stage i).phase = .closed := by
    by_contra opened
    exact other (manned.alone j i (same.trans mine.symm) busy opened)
  refine ⟨closed, ?_⟩
  by_contra opens
  rw [manned.stands j who same busy] at free
  exact busy (free closed opens)

theorem Manned.held_shift (manned : Manned stage phase calls asks)
    (mine : caller calls i = some who) {other : Identity}
    (busy : GuessBook.shift phase who (stage i) q other ≠ .closed) :
    ∃ j, caller calls j = some other ∧
      (Function.update stage i q j).phase = GuessBook.shift phase who (stage i) q other := by
  have old (busy : phase other ≠ .closed) (apart : ∀ j, caller calls j = some other →
      (stage j).phase = phase other → j ≠ i) :
      ∃ j, caller calls j = some other ∧ (Function.update stage i q j).phase = phase other := by
    obtain ⟨j, name, stands⟩ := manned.held other busy
    refine ⟨j, name, ?_⟩
    rw [Function.update_of_ne (apart j name stands)]
    exact stands
  by_cases still : (stage i).phase = .closed ∧ q.phase = .closed
  · rw [shift_closed still.1 still.2] at busy ⊢
    refine old busy (fun j _ stands => ?_)
    rintro rfl
    exact busy (stands.symm.trans still.1)
  by_cases shared : other = who
  · subst shared
    rw [shift_self (by tauto)]
    exact ⟨i, mine, by rw [Function.update_self]⟩
  · rw [shift_of_ne shared] at busy ⊢
    refine old busy (fun j name _ => ?_)
    rintro rfl
    exact shared (Option.some.inj (name.symm.trans mine))

section Section

variable {l : Section} {effect : Daemon → Daemon} {next : Daemon → Engine Unit} {d : Daemon}

theorem Manned.act (manned : Manned stage phase calls asks)
    (running : calls[i]? = some (who, .act l effect next))
    (step : GuessStep who (stage i) l d (effect d) q)
    (later : Staged GuessStep (fun q _ => q.final) .reply (Function.update stage i q)
      (calls.set i (who, next d)))
    (free : (stage i).phase = .closed → q.phase ≠ .closed → phase who = .closed)
    (kept : ∀ j, j ∈ asks' ↔ j ∈ asks ∧ (l = .create → j ≠ i)) :
    Manned (Function.update stage i q) (GuessBook.shift phase who (stage i) q)
      (calls.set i (who, next d)) asks' := by
  have here : Function.update stage i q i = q := Function.update_self ..
  have there {j : Nat} (other : j ≠ i) : Function.update stage i q j = stage j :=
    Function.update_of_ne other ..
  have named (j : Nat) : caller (calls.set i (who, next d)) j = caller calls j :=
    Desk.identity_set running
  have mine : caller calls i = some who := by
    unfold caller
    rw [running]
    rfl
  refine ⟨later, ?_, ?_, ?_, ?_, ?_, ?_⟩
  · intro j asking
    rw [kept]
    by_cases same : j = i
    · subst same
      rw [here] at asking
      obtain ⟨before, other⟩ := step.asking asking
      exact ⟨manned.asking j before, fun creates => absurd creates other⟩
    · rw [there same] at asking
      exact ⟨manned.asking j asking, fun _ => same⟩
  · intro j replying member
    rw [kept] at member
    by_cases same : j = i
    · subst same
      rw [here] at replying
      exact manned.replying j (step.replying replying) member.1
    · rw [there same] at replying
      exact manned.replying j replying member.1
  · intro j other name
    exact manned.plain j other ((named j).symm.trans name)
  · intro j other name busy
    rw [named] at name
    by_cases same : j = i
    · subst same
      rw [here] at busy ⊢
      obtain rfl : who = other := Option.some.inj (mine.symm.trans name)
      exact shift_self (.inr busy)
    · rw [there same] at busy ⊢
      by_cases shared : other = who
      · subst shared
        obtain ⟨closed, closed'⟩ := manned.aside mine free same name busy
        rw [shift_closed closed closed']
        exact manned.stands j other name busy
      · rw [shift_of_ne shared]
        exact manned.stands j other name busy
  · intro j k name busy busy'
    rw [named, named] at name
    by_cases first : j = i <;> by_cases second : k = i
    · rw [first, second]
    · rw [first, here] at busy
      rw [there second] at busy'
      rw [first, mine] at name
      exact absurd (manned.aside mine free second name.symm busy').2 busy
    · rw [there first] at busy
      rw [second, here] at busy'
      rw [second, mine] at name
      exact absurd (manned.aside mine free first name busy).2 busy'
    · rw [there first] at busy
      rw [there second] at busy'
      exact manned.alone j k name busy busy'
  · intro other busy
    obtain ⟨j, name, stands⟩ := manned.held_shift mine busy
    exact ⟨j, (named j).trans name, stands⟩

end Section

theorem Inv.closed_of_free (inv : σ.Inv base stage phase) (free : σ.free i = true)
    (mine : σ.desk.identity i = some who) (closed : (stage i).phase = .closed) :
    phase who = .closed := by
  by_contra busy
  obtain ⟨j, name, stands⟩ := inv.manned.held who busy
  have amid : (stage j).phase ≠ .closed := by rwa [stands]
  have apart : j ≠ i := by
    rintro rfl
    exact amid closed
  unfold Watch.free at free
  have other := all_eq_true.mp free j (mem_range.mpr (inv.manned.inside amid))
  rw [inv.manned.busy amid, mine, show σ.desk.identity j = some who from name] at other
  simp [apart] at other

theorem checked_eq {l : Section} {effect : Daemon → Daemon} {next : Daemon → Engine Unit}
    {desk : Desk} (running : σ.desk.calls[i]? = some (who, .act l effect next))
    (calls' : desk.calls = σ.desk.calls.set i (who, next σ.desk.d))
    (step : GuessStep who (stage i) l σ.desk.d (effect σ.desk.d) q)
    (follows : AtGuess who q (next σ.desk.d)) :
    σ.checked desk (.section i) = if q = .amid .missed then GuessBook.live σ.desk.d who
      else [] := by
  have bound : i < σ.desk.calls.length := (List.getElem?_eq_some_iff.mp running).1
  have holds : desk.holds i = (((next σ.desk.d).label?).bind Section.confirms).isSome := by
    unfold Desk.holds Desk.label
    rw [calls', List.getElem?_set_self bound]
    rfl
  have label : σ.desk.label i = some l := by
    unfold Desk.label
    rw [running]
    rfl
  have mine : σ.desk.identity i = some who := by
    unfold Desk.identity
    rw [running]
    rfl
  simp only [checked, label, mine, Option.some.injEq, Option.map_some, Option.getD_some]
  by_cases looks : l = .challenge
  · subst looks
    rcases step.looks with rfl | rfl
    · rw [if_pos ⟨rfl, by rw [holds, follows.missed σ.desk.d]; rfl⟩, if_pos rfl]
    · obtain ⟨n, confirms⟩ := follows.holding σ.desk.d
      rw [if_neg (by rw [holds, confirms]; simp [Section.confirms]), if_neg (by rintro ⟨⟩)]
  · have other : q ≠ .amid .missed := by
      rintro rfl
      exact looks step.missed
    rw [if_neg (fun both => looks both.1), if_neg other]

theorem Inv.section {l : Section} {effect : Daemon → Daemon} {next : Daemon → Engine Unit}
    {desk : Desk}
    (inv : σ.Inv base stage phase) (running : σ.desk.calls[i]? = some (who, .act l effect next))
    (admits : σ.admits (.section i) = true) (after : desk.d = effect σ.desk.d)
    (calls' : desk.calls = σ.desk.calls.set i (who, next σ.desk.d)) :
    ∃ stage' phase', Inv base stage' phase'
      ⟨desk, σ.asked (.section i), σ.checked desk (.section i) ++ σ.checks⟩ := by
  obtain ⟨q, step, later⟩ := inv.manned.stages.act running σ.desk.d
  have label : σ.desk.label i = some l := by
    unfold Desk.label
    rw [running]
    rfl
  have mine : σ.desk.identity i = some who := by
    unfold Desk.identity
    rw [running]
    rfl
  simp only [Watch.admits, label] at admits
  have free : (stage i).phase = .closed → q.phase ≠ .closed → phase who = .closed := by
    intro closed busy
    refine inv.closed_of_free ?_ mine closed
    rcases step.opens closed busy with rfl | ⟨rfl, asking⟩
    · exact admits
    · rwa [if_pos (inv.manned.asking i asking)] at admits
  have book := inv.book.act step (inv.manned.plain i who mine)
    (fun busy => inv.manned.stands i who mine busy) free ?_ ?_
  · refine ⟨Function.update stage i q, GuessBook.shift phase who (stage i) q, ?_, ?_⟩
    · rw [calls']
      refine inv.manned.act running step later free (fun j => ?_)
      simp only [asked, label, Option.some.injEq]
      split
      · next creates => simp [creates]
      · next other => simp [other]
    · have follows := later.follows i who (next σ.desk.d)
        (List.getElem?_set_self (List.getElem?_eq_some_iff.mp running).1)
      rw [Function.update_self] at follows
      rw [checked_eq running calls' step follows, after]
      exact book
  · intro missed
    rw [missed] at step
    have replies := inv.manned.replying i (by rw [missed]; rfl)
    obtain rfl := step.counts
    rw [if_neg replies] at admits
    exact of_decide_eq_true admits
  · intro cleared
    rw [cleared] at step
    have asks := inv.manned.asking i (by rw [cleared]; rfl)
    obtain rfl := step.meets
    simp only [asks, not_true, decide_false, Bool.false_or, mine, Option.all_some, serves,
      Bool.or_eq_true, List.all_eq_true, decide_eq_true_eq] at admits
    refine admits.imp_right (fun none c aims => ?_)
    obtain ⟨row, _, rfl, alive⟩ := aims
    rcases none c row with dead | other
    · exact absurd alive (Int.not_lt.mpr dead)
    · exact other rfl

theorem Inv.step {m : DeskMove} (step : Watch.step K m σ = some σ') (admits : σ.admits m = true)
    (inv : σ.Inv base stage phase) : ∃ stage' phase', σ'.Inv base stage' phase' := by
  obtain ⟨desk, moved, rfl⟩ := Option.map_eq_some_iff.mp step
  have fresh : σ.desk.calls.length ∉ σ.asks :=
    inv.manned.replying _ (by rw [inv.manned.stages.beyond _ le_rfl]; rfl)
  cases m with
  | inbound io a =>
    cases moved
    refine ⟨_, phase, inv.manned.enter (handle_guess K io a) rfl (of_decide_eq_true admits) nofun
      (fun _ => fresh) (fun _ _ => Iff.rfl), inv.book⟩
  | initiate names notice code requester target displayName =>
    cases moved
    have request : AtGuess ⟨target.protocol, target.endpoint⟩ .ask
        (do let _ ← initiateLink names notice code requester target displayName : Engine Unit) :=
      follows_bind (initiateLink_guess ..) (fun _ _ final => follows_pure final)
    refine ⟨_, phase, inv.manned.enter request rfl (of_decide_eq_true admits)
      (fun _ => mem_cons_self) nofun (fun i other => ?_), inv.book⟩
    exact mem_cons.trans (or_iff_right other)
  | «section» i =>
    simp only [Desk.step] at moved
    split at moved
    · next who l effect next running =>
      cases moved
      exact inv.section running admits rfl rfl
    · cases moved
  | purge now =>
    cases moved
    refine ⟨stage, phase, inv.manned, inv.book.spares ⟨rfl, rfl, rfl, fun c member => ?_⟩⟩
    exact (Store.mem_purgeExpiredChallenges.mp member).1
  | unlink id =>
    cases moved
    exact ⟨stage, phase, inv.manned, inv.book.spares ⟨rfl, rfl, rfl, fun _ member => member⟩⟩
  | around change =>
    cases moved
    obtain ⟨guesses, later, alike⟩ := of_decide_eq_true admits
    exact ⟨stage, phase, inv.manned, inv.book.drift rfl (fun _ member => member) guesses
      later alike⟩

end Watch

def guessing (first : Nat) (codes : List String) : List DeskMove :=
  (codes.zipIdx first).flatMap (fun (code, i) =>
    DeskMove.inbound .none (.reply ⟨⟨2⟩, ⟨3⟩, ⟨4⟩⟩ code) :: replicate 7 (DeskMove.section i))

end RelayFabric
