/- source: relayfabric-ui/src/auth.rs (Auth::remove_credential, Auth::login, Auth::session_role)
   digest: A removed credential has no session left, unless a login of it is under way. -/

import RelayFabric.Ui.Console
import RelayFabric.Ui.Registration

namespace RelayFabric.Ui

open List Lib

def Event.revokes (id : String) (before : Bool) : Event → Bool
  | .removed other => before || other == id
  | .stored _ _ _ other _ _ => before && other != id
  | _ => before

def revoked (log : List Event) (id : String) : Bool := log.foldl (Event.revokes id) false

theorem revoked_append (log : List Event) (e : Option Event) (id : String) :
    revoked (log ++ e.toList) id =
      match e with
      | none => revoked log id
      | some e => e.revokes id (revoked log id) := by
  unfold revoked
  rw [foldl_append]
  cases e <;> rfl

def Section.opens (id : String) : Section → Bool
  | .openSession _ credId _ => credId == id
  | _ => false

/-- No credential is removed while a login of it is past the check of its assertion. -/
def Console.settled (move : Move) (σ : Console) : Bool :=
  match move with
  | .act i =>
    match σ.label i with
    | some (.remove id) =>
      (List.range σ.calls.length).all (fun j => !(σ.label j).any (Section.opens id))
    | _ => true
  | _ => true

def Console.Trusts (σ : Console) (stage : Nat → Stage) (id : String) : Prop :=
  id ∈ σ.auth.creds.map CredentialRecord.id ∨ (∃ s ∈ σ.auth.sessions.rows, s.2.credId = id) ∨
    ∃ i role, stage i = .validated id role

structure Console.Revokes (σ : Console) (stage : Nat → Stage) : Prop where
  stages : σ.Stages stage
  distinct : (σ.auth.creds.map CredentialRecord.id).Nodup
  unrevoked : ∀ id, σ.Trusts stage id → revoked σ.log id = false

namespace Console

variable {L : Libraries} {C : AuthConfig} {σ σ' : Console} {stage : Nat → Stage} {move : Move}

theorem Stages.label_of_validated (stages : σ.Stages stage) {i : Nat} {credId : String}
    {role : Role} (validated : stage i = .validated credId role) :
    i < σ.calls.length ∧ (σ.label i).any (Section.opens credId) = true := by
  have bound : i < σ.calls.length := by
    by_contra beyond
    rw [stages.beyond i (by omega)] at validated
    cases validated
  refine ⟨bound, ?_⟩
  obtain ⟨⟨call, p⟩, found⟩ : ∃ running, σ.calls[i]? = some running :=
    ⟨_, List.getElem?_eq_getElem bound⟩
  have follows := stages.follows i _ _ found
  rw [validated] at follows
  unfold Console.label
  rw [found, Option.bind_some, Ui.label_of_validated follows]
  simp [Section.opens]

theorem Trusts.act {i : Nat} {call : Call} {l : Section} {a' : Auth} {q : Stage} {e : Option Event}
    {id : String} {σ' : Console} (inv : σ.Revokes stage) (settled : σ.settled (.act i) = true)
    (labelled : σ.label i = some l) (step : AuthStep call (stage i) l σ.auth a' q e)
    (moved : σ'.auth = a') (trusts : σ'.Trusts (Function.update stage i q) id) :
    (∃ token setup wasEmpty counter time, e = some (.stored token setup wasEmpty id counter time)) ∨
      σ.Trusts stage id ∧ e ≠ some (.removed id) := by
  subst moved
  rcases trusts with registered | ⟨s, member, rfl⟩ | ⟨j, role, validated⟩
  · rcases step.ids with ⟨same, keeps⟩ | ⟨token, setup, wasEmpty, new, counter, time, rfl,
      -, added⟩ | ⟨gone, rfl, -, erased⟩
    · rw [same] at registered
      exact Or.inr ⟨Or.inl registered, keeps id⟩
    · rw [added] at registered
      rcases mem_append.mp registered with old | fresh
      · exact Or.inr ⟨Or.inl old, by rintro ⟨⟩⟩
      · obtain rfl := mem_singleton.mp fresh
        exact Or.inl ⟨token, setup, wasEmpty, counter, time, rfl⟩
    · rw [erased] at registered
      obtain ⟨other, old⟩ := (inv.distinct.mem_erase_iff).mp registered
      refine Or.inr ⟨Or.inl old, fun same => other ?_⟩
      exact (Event.removed.inj (Option.some.inj same)).symm
  · rcases step.sessions member with ⟨old, spared⟩ | ⟨role, opening, rfl⟩
    · exact Or.inr ⟨Or.inr (Or.inl ⟨s, old, rfl⟩), fun same => spared _ same rfl⟩
    · exact Or.inr ⟨Or.inr (Or.inr ⟨i, role, opening⟩), by rintro ⟨⟩⟩
  · by_cases own : j = i
    · subst own
      rw [Function.update_self] at validated
      subst validated
      obtain ⟨registered, token, counter, time, rfl⟩ := step.validates
      exact Or.inr ⟨Or.inl registered, by rintro ⟨⟩⟩
    · rw [Function.update_of_ne own] at validated
      refine Or.inr ⟨Or.inr (Or.inr ⟨j, role, validated⟩), fun removes => ?_⟩
      -- a removal of this id is not entered while the request waits to open its session
      obtain ⟨bound, opens⟩ := inv.stages.label_of_validated validated
      rcases step.ids with ⟨-, keeps⟩ | ⟨_, _, _, _, _, _, stored, -⟩ | ⟨gone, removed, rfl, -⟩
      · exact keeps id removes
      · rw [stored] at removes
        cases removes
      · rw [removed] at removes
        obtain rfl := Event.removed.inj (Option.some.inj removes)
        simp only [Console.settled, labelled] at settled
        have free := all_eq_true.mp settled j (mem_range.mpr bound)
        simp [opens] at free

theorem Revokes.step (inv : σ.Revokes stage) (settled : σ.settled move = true)
    (stepped : Console.step L C move σ = some σ') : ∃ stage', σ'.Revokes stage' := by
  obtain ⟨stage', change, stages⟩ := inv.stages.step stepped
  refine ⟨stage', ?_⟩
  cases change with
  | arrive call p | tick elapsed => exact ⟨stages, inv.distinct, inv.unrevoked⟩
  | act i call l p a' q e labelled called step =>
    refine ⟨stages, step.distinct inv.distinct, fun id trusts => ?_⟩
    rw [revoked_append]
    rcases Trusts.act inv settled labelled step rfl trusts with
      ⟨token, setup, wasEmpty, counter, time, rfl⟩ | ⟨trusted, kept⟩
    · simp [Event.revokes]
    · have before := inv.unrevoked id trusted
      cases e with
      | none => exact before
      | some e =>
        cases e with
        | removed other =>
          have apart : other ≠ id := fun same => kept (by rw [same])
          simpa [Event.revokes, before] using apart
        | issued | redeemed | validated => exact before
        | stored => simp [Event.revokes, before]

end Console

/-- In every run in which no credential is removed while a login of it is past the check of its
assertion, a session that is answered for is one of a credential that is not revoked. -/
theorem removed_credentials_lose_access (L : Libraries) (C : AuthConfig)
    (loaded : List CredentialRecord) (now : Nat) (distinct : (loaded.map CredentialRecord.id).Nodup)
    (moves : List Move) (σ : Console)
    (settled : Meets (Console.step L C) (fun move σ => σ.settled move = true) moves
      (Console.init loaded now))
    (reached : runAll (Console.step L C) moves (Console.init loaded now) = some σ)
    (token : String) :
    (∀ credId role, (σ.auth.sessionInfo token).1 = some (credId, role) →
        revoked σ.log credId = false) ∧
      ∀ role, (σ.auth.sessionRole token).1 = some role →
        ∃ s, σ.auth.sessions.get? token = some (token, s) ∧ s.role = role ∧
          revoked σ.log s.credId = false := by
  have start : ∃ stage, (Console.init loaded now).Revokes stage :=
    ⟨_, Console.Stages.init loaded now, distinct, fun id _ => rfl⟩
  have keeps : ∀ move σ σ', σ.settled move = true → Console.step L C move σ = some σ' →
      (∃ stage, σ.Revokes stage) → ∃ stage, σ'.Revokes stage := by
    rintro move σ σ' settled stepped ⟨stage, inv⟩
    exact inv.step settled stepped
  obtain ⟨stage, inv⟩ := runAll_preserves (fun σ => ∃ stage, σ.Revokes stage) keeps moves _ _
    settled reached start
  have unrevoked : ∀ s, (token, s) ∈ σ.auth.sessions.rows → revoked σ.log s.credId = false :=
    fun s member => inv.unrevoked s.credId (Or.inr (Or.inl ⟨(token, s), member, rfl⟩))
  constructor
  · intro credId role answered
    obtain ⟨s, member, read⟩ := σ.auth.liveSession_eq_some token answered
    obtain ⟨rfl, -⟩ := Prod.mk.inj read
    exact unrevoked s member
  · intro role answered
    obtain ⟨s, member, read⟩ := σ.auth.liveSession_eq_some token answered
    exact ⟨s, σ.auth.sessions.get?_eq_some.mpr ⟨member, rfl⟩, read, unrevoked s member⟩

namespace Sample

def pair : List CredentialRecord := [key "A" .administrator, key "B" .viewer]

def assert (i : Nat) (id challenge session : String) (bytes : Bytes) (counter : Nat) : List Move :=
  [Move.arrive ⟨none, draw challenge bytes, .auth .loginOptions⟩, Move.act i,
    Move.arrive ⟨none, draw session [],
      .auth (.login challenge id (clientData 1 bytes) (authData counter) signature)⟩,
    Move.act (i + 1), Move.act (i + 1)]

def logins : List Move :=
  assert 0 "A" "c" "s" [1] 1 ++ [Move.act 1] ++ assert 2 "B" "d" "t" [2] 1

def removal : List Move := [Move.arrive ⟨some "s", draw "u" [], .auth (.remove "B")⟩, Move.act 4,
  Move.act 4]

end Sample

/-- The viewer's session is opened before the removal, and is gone after it. -/
theorem removed_credentials_lose_access_viewer :
    ∃ σ, runAll (Console.step Sample.libraries Sample.config)
        (Sample.logins ++ [Move.act 3] ++ Sample.removal) (Console.init Sample.pair 0) = some σ ∧
      revoked σ.log "B" = true ∧ (σ.auth.sessionInfo "t").1 = none ∧
      (σ.auth.sessionInfo "s").1 = some ("A", .administrator) ∧ revoked σ.log "A" = false := by
  obtain ⟨σ, reached, gone, absent, present⟩ :
      ∃ σ, runAll (Console.step Sample.libraries Sample.config)
          (Sample.logins ++ [Move.act 3] ++ Sample.removal) (Console.init Sample.pair 0) = some σ ∧
        revoked σ.log "B" = true ∧ (σ.auth.sessionInfo "t").1 = none ∧
        (σ.auth.sessionInfo "s").1 = some ("A", .administrator) := by
    decide +kernel
  have settled : Meets (Console.step Sample.libraries Sample.config)
      (fun move σ => σ.settled move = true) (Sample.logins ++ [Move.act 3] ++ Sample.removal)
      (Console.init Sample.pair 0) := by
    decide +kernel
  have kept := removed_credentials_lose_access Sample.libraries Sample.config Sample.pair 0
    (by decide +kernel) _ σ settled reached "s"
  exact ⟨σ, reached, gone, absent, present, kept.1 "A" .administrator present⟩

/-- The removal comes between the check and the session: it is answered, and the session of the
removed credential is answered for afterwards. -/
theorem removal_misses_login :
    ((runAll (Console.step Sample.libraries Sample.config)
        (Sample.logins ++ Sample.removal ++ [Move.act 3]) (Console.init Sample.pair 0)).map
      (fun σ => (σ.reply 4, revoked σ.log "B", (σ.auth.sessionInfo "t").1,
        (σ.auth.sessionRole "t").1))) =
      some (some .noContent, true, some ("B", .viewer), some .viewer) := by
  decide +kernel

end RelayFabric.Ui
