/- source: relayfabric-ui/src/auth.rs (Auth), relayfabric-ui/src/main.rs (auth_endpoint, proxy)
   digest: Requests to the UI that interleave at the locks, and the stages each goes through. -/

import RelayFabric.Ui.Auth
import RelayFabric.Lib.Pool
import RelayFabric.Lib.Run

namespace RelayFabric.Ui

open List Lib
open Prog hiding bind run

structure Call where
  cookie : Option String
  draw : Draw
  request : Request

/-- What an observer at the locks sees: a challenge issued, one redeemed, a credential stored (with
the setup token or not, in an empty store or not), an assertion accepted, a credential removed. -/
inductive Event
  | issued (token : String) (purpose : Purpose) (expires : Nat)
  | redeemed (token : String) (purpose : Purpose) (time : Nat)
  | stored (token : String) (setup wasEmpty : Bool) (id : String) (counter time : Nat)
  | validated (token id : String) (counter time : Nat)
  | removed (id : String)
  deriving DecidableEq

def Section.event (before after : Auth) : Section → Option Section → Option Event
  | .newChallenge token purpose, _ => some (.issued token purpose (before.now + challengeTtl))
  | .takeChallenge token purpose, _ =>
    if (before.takeChallenge token purpose).1.isSome then some (.redeemed token purpose before.now)
    else none
  | .store token requireEmpty record, _ =>
    if before.creds.length < after.creds.length then
      some (.stored token requireEmpty before.creds.isEmpty record.id record.counter before.now)
    else none
  | .validate token credentialId counter, some (.openSession _ _ _) =>
    some (.validated token credentialId counter before.now)
  | .remove id, _ => if after.creds.length < before.creds.length then some (.removed id) else none
  | _, _ => none

structure Console where
  auth : Auth
  calls : List (Call × AuthProg Reply)
  log : List Event

inductive Move
  | arrive (call : Call)
  | act (i : Nat)
  | tick (elapsed : Nat)

namespace Console

variable (L : Libraries) (C : AuthConfig)

def init (loaded : List CredentialRecord) (now : Nat) : Console := ⟨Auth.load loaded now, [], []⟩

def step : Move → Console → Option Console
  | .arrive call, σ =>
    some { σ with calls := σ.calls ++ [(call, serve L C call.draw call.cookie call.request)] }
  | .act i, σ =>
    match σ.calls[i]? with
    | some (call, .act label effect next) =>
      some ⟨effect σ.auth, σ.calls.set i (call, next σ.auth),
        σ.log ++ (label.event σ.auth (effect σ.auth) (next σ.auth).label?).toList⟩
    | _ => none
  | .tick elapsed, σ => some { σ with auth := { σ.auth with now := σ.auth.now + elapsed } }

def label (σ : Console) (i : Nat) : Option Section := σ.calls[i]?.bind (fun call => call.2.label?)

def reply (σ : Console) (i : Nat) : Option Reply := σ.calls[i]?.bind (fun call => call.2.result?)

end Console

/-- Where a request stands: before it has done anything of its own, and whether it has seen an
administrator's session; with a redeemed challenge in hand; past the check of its assertion. -/
inductive Stage
  | idle (admin : Bool)
  | holding (token : String) (purpose : Purpose) (admin : Bool)
  | validated (credId : String) (role : Role)
  | done

inductive AuthStep (call : Call) : Stage → Section → Auth → Auth → Stage → Option Event → Prop
  | session (token : String) (a : Auth) :
      AuthStep call (.idle false) (.session token) a (a.sessionInfo token).2
        (.idle (isAdmin (a.sessionInfo token).1)) none
  | credentials (admin : Bool) (a : Auth) :
      AuthStep call (.idle admin) .credentials a a (.idle admin) none
  | logout (admin : Bool) (token : String) (a : Auth) :
      AuthStep call (.idle admin) (.logout token) a (a.logout token) .done none
  | newChallenge (admin : Bool) (purpose : Purpose) (a : Auth) :
      AuthStep call (.idle admin) (.newChallenge call.draw.token purpose) a
        (a.newChallenge call.draw.token purpose call.draw.challenge call.draw.pick) .done
        (some (.issued call.draw.token purpose (a.now + challengeTtl)))
  | take (admin : Bool) (token : String) (purpose : Purpose) (challenge : Bytes) (a : Auth)
      (serves : (a.takeChallenge token purpose).1 = some challenge) :
      AuthStep call (.idle admin) (.takeChallenge token purpose) a
        (a.takeChallenge token purpose).2 (.holding token purpose admin)
        (some (.redeemed token purpose a.now))
  | miss (admin : Bool) (token : String) (purpose : Purpose) (a : Auth)
      (fails : (a.takeChallenge token purpose).1 = none) :
      AuthStep call (.idle admin) (.takeChallenge token purpose) a
        (a.takeChallenge token purpose).2 .done none
  | store (token : String) (admin requireEmpty : Bool) (record : CredentialRecord) (a : Auth)
      (bootstrap : requireEmpty = true → record.role = .administrator)
      (allowed : requireEmpty = false → admin = true)
      (alone : requireEmpty = true → a.creds = []) (free : ∀ c ∈ a.creds, c.id ≠ record.id) :
      AuthStep call (.holding token .register admin) (.store token requireEmpty record) a
        (({ a with creds := a.creds ++ [record] }).persist call.draw.works) .done
        (some (.stored token requireEmpty a.creds.isEmpty record.id record.counter a.now))
  | refuse (token : String) (admin requireEmpty : Bool) (record : CredentialRecord) (a : Auth) :
      AuthStep call (.holding token .register admin) (.store token requireEmpty record) a a .done
        none
  | validate (token credentialId : String) (admin : Bool) (counter : Nat) (cred : CredentialRecord)
      (a : Auth) (found : a.creds.find? (fun c => c.id == credentialId) = some cred)
      (advances : counter ≠ 0 ∨ cred.counter ≠ 0 → cred.counter < counter) :
      AuthStep call (.holding token .login admin) (.validate token credentialId counter) a
        (if cred.counter < counter then
          ({ a with creds := Auth.setCounter credentialId counter a.creds }).persist call.draw.works
        else a)
        (.validated credentialId cred.role)
        (some (.validated token credentialId counter a.now))
  | reject (token credentialId : String) (admin : Bool) (counter : Nat) (a : Auth) :
      AuthStep call (.holding token .login admin) (.validate token credentialId counter) a a .done
        none
  | openSession (credId : String) (role : Role) (a : Auth) :
      AuthStep call (.validated credId role) (.openSession call.draw.token credId role) a
        (a.openSession call.draw.token credId role call.draw.pick) .done none
  | remove (id : String) (cred : CredentialRecord) (a : Auth)
      (found : a.creds.find? (fun c => c.id == id) = some cred)
      (others : ¬(cred.role = .administrator ∧
        a.creds.countP (fun c => c.role = .administrator) = 1)) :
      AuthStep call (.idle true) (.remove id) a
        (({ a with
          creds := a.creds.eraseP (fun c => c.id == id)
          sessions := a.sessions.keep (fun s => s.2.credId != id) }).persist call.draw.works)
        .done (some (.removed id))
  | keep (id : String) (a : Auth) : AuthStep call (.idle true) (.remove id) a a .done none

def Stepped (call : Call) (q : Stage) (l : Section) (a a' : Auth) (q' : Stage) : Prop :=
  ∃ e, AuthStep call q l a a' q' e

def Stage.Ends (q : Stage) : Prop := ∀ credId role, q ≠ .validated credId role

theorem Stage.ends_idle (admin : Bool) : (Stage.idle admin).Ends := by rintro _ _ ⟨⟩

theorem Stage.ends_holding (token : String) (purpose : Purpose) (admin : Bool) :
    (Stage.holding token purpose admin).Ends := by rintro _ _ ⟨⟩

theorem Stage.ends_done : Stage.done.Ends := by rintro _ _ ⟨⟩

section

variable {L : Libraries} {C : AuthConfig} {call : Call} {admin : Bool} {token : String}

abbrev Runs {α : Type} (call : Call) (q : Stage) (final : Stage → α → Prop)
    (p : AuthProg α) : Prop :=
  Follows (fun _ => True) (Stepped call) final q p

private theorem runs_sessionOf {cookie : Option String} :
    Runs call (.idle false) (fun q session => q = .idle (isAdmin session)) (sessionOf cookie) := by
  cases cookie with
  | none => exact follows_pure rfl
  | some token =>
    refine follows_critical (fun a _ => ?_)
    exact ⟨_, ⟨none, .session token a⟩, rfl⟩

private theorem runs_hasCredentials :
    Runs call (.idle admin) (fun q _ => q = .idle admin) hasCredentials := by
  refine follows_critical (fun a _ => ?_)
  exact ⟨_, ⟨none, .credentials admin a⟩, rfl⟩

private theorem runs_isBootstrap {setupHeader : Option String} :
    Runs call (.idle admin) (fun q _ => q = .idle admin) (isBootstrap C setupHeader) := by
  refine follows_bind runs_hasCredentials (fun q present stays => ?_)
  exact follows_pure stays

private theorem runs_newChallenge {purpose : Purpose} :
    Runs call (.idle admin) (fun q _ => q = .done) (newChallenge call.draw purpose) := by
  refine follows_modify_bind (fun a _ => ?_)
  exact ⟨_, ⟨_, .newChallenge admin purpose a⟩, follows_pure rfl⟩

private theorem runs_takeChallenge {purpose : Purpose} :
    Runs call (.idle admin)
      (fun q taken => q = if taken.isSome then .holding token purpose admin else .done)
      (takeChallenge token purpose) := by
  refine follows_critical (fun a _ => ?_)
  cases taken : (a.takeChallenge token purpose).1 with
  | none => exact ⟨_, ⟨_, .miss admin token purpose a taken⟩, rfl⟩
  | some challenge => exact ⟨_, ⟨_, .take admin token purpose challenge a taken⟩, rfl⟩

private theorem runs_store {requireEmpty : Bool} {record : CredentialRecord}
    (bootstrap : requireEmpty = true → record.role = .administrator)
    (allowed : requireEmpty = false → admin = true) :
    Runs call (.holding token .register admin) (fun q _ => q = .done)
      (Prog.critical (.store token requireEmpty record)
        (Auth.storeCredential requireEmpty record call.draw.works)) := by
  refine follows_critical (fun a _ => ?_)
  by_cases takes : (requireEmpty = true → a.creds = []) ∧ ∀ c ∈ a.creds, c.id ≠ record.id
  · rw [a.storeCredential_of_free call.draw.works takes.1 takes.2]
    exact ⟨_, ⟨_, .store token admin requireEmpty record a bootstrap allowed takes.1 takes.2⟩, rfl⟩
  · obtain ⟨e, refused⟩ := a.storeCredential_of_taken call.draw.works takes
    rw [refused]
    exact ⟨_, ⟨_, .refuse token admin requireEmpty record a⟩, rfl⟩

variable {clientDataJson : Bytes} {role : Role} {q' : Stage} {l : Section} {a a' : Auth}
  {e : Option Event}

private theorem checkRegistration_role {challenge attestationObject : Bytes}
    {label : String} {record : CredentialRecord}
    (checked : checkRegistration L C challenge clientDataJson attestationObject role label =
      .ok record) : record.role = role := by
  unfold checkRegistration at checked
  cases verified : verifyClientData L clientDataJson "webauthn.create" challenge C.origins with
  | error e =>
    simp only [bind, Except.bind, verified] at checked
    cases checked
  | ok _ =>
    cases parsed : parseAttestationObject L attestationObject C.rpId with
    | error e =>
      simp only [bind, Except.bind, verified, parsed] at checked
      cases checked
    | ok attested =>
      simp only [bind, Except.bind, verified, parsed] at checked
      exact congrArg CredentialRecord.role (Except.ok.inj checked).symm

private theorem runs_register {attestationObject : Bytes} {label : String} {requireEmpty : Bool}
    (bootstrap : requireEmpty = true → role = .administrator)
    (allowed : requireEmpty = false → admin = true) :
    Runs call (.idle admin) (fun q _ => q.Ends)
      (register L C call.draw token clientDataJson attestationObject role label requireEmpty) := by
  refine follows_bind runs_takeChallenge (fun q taken stands => ?_)
  rw [stands]
  cases taken with
  | none => exact follows_pure Stage.ends_done
  | some challenge =>
    cases checked : checkRegistration L C challenge clientDataJson attestationObject role label with
    | error e =>
      simp only [checked]
      exact follows_pure (Stage.ends_holding token .register admin)
    | ok record =>
      simp only [checked]
      refine follows_final (runs_store (fun required => ?_) allowed) (fun q _ ended => ?_)
      · rw [checkRegistration_role checked]
        exact bootstrap required
      · rw [ended]
        exact Stage.ends_done

private theorem runs_validate {credentialId : String} {authenticatorData signature : Bytes} :
    Runs call (.holding token .login admin)
      (fun q outcome => q.Ends ∧ (∃ e, outcome = .error e) ∨
        ∃ found : String × Role, outcome = .ok found ∧ q = .validated found.1 found.2)
      (Prog.critical (.validate token credentialId (signCount authenticatorData))
        (Auth.validate L C credentialId clientDataJson authenticatorData signature
          call.draw.works)) := by
  refine follows_critical (fun a _ => ?_)
  have rejected : ∀ e, ∃ q, Stepped call (.holding token .login admin)
      (.validate token credentialId (signCount authenticatorData)) a a q ∧
      (q.Ends ∧ (∃ e', (Except.error e : Except String (String × Role)) = .error e') ∨
        ∃ found : String × Role, Except.error e = .ok found ∧ q = .validated found.1 found.2) :=
    fun e => ⟨.done, ⟨none, .reject token credentialId admin _ a⟩,
      Or.inl ⟨Stage.ends_done, e, rfl⟩⟩
  unfold Auth.validate
  cases found : a.creds.find? (fun c => c.id == credentialId) with
  | none => exact rejected _
  | some cred =>
    cases accepted : verifyAssertion L authenticatorData clientDataJson signature C.rpId cred.alg
        cred.publicKey with
    | error e => simpa only [accepted] using rejected e
    | ok counter =>
      obtain rfl := verifyAssertion_ok L accepted
      have named : cred.id = credentialId := by simpa using List.find?_some found
      simp only [accepted]
      split
      · exact rejected _
      · next fresh =>
        refine ⟨_, ⟨_, .validate token credentialId admin _ cred a found ?_⟩,
          Or.inr ⟨_, rfl, by rw [named]⟩⟩
        intro nonzero
        by_contra stale
        exact fresh ⟨nonzero, by omega⟩

private theorem runs_login {credentialId : String} {authenticatorData signature : Bytes} :
    Runs call (.idle admin) (fun q _ => q.Ends)
      (login L C call.draw token credentialId clientDataJson authenticatorData signature) := by
  refine follows_bind runs_takeChallenge (fun q taken stands => ?_)
  rw [stands]
  cases taken with
  | none => exact follows_pure Stage.ends_done
  | some challenge =>
    cases verified : verifyClientData L clientDataJson "webauthn.get" challenge C.origins with
    | error e =>
      simp only [verified]
      exact follows_pure (Stage.ends_holding token .login admin)
    | ok _ =>
      simp only [verified]
      refine follows_bind runs_validate (fun q outcome outcomes => ?_)
      rcases outcomes with ⟨ends, e, rfl⟩ | ⟨⟨credId, role⟩, rfl, rfl⟩
      · exact follows_pure ends
      · refine follows_modify_bind (fun a _ => ?_)
        exact ⟨_, ⟨_, .openSession credId role a⟩, follows_pure Stage.ends_done⟩

private theorem runs_removeCredential {id : String} :
    Runs call (.idle true) (fun q _ => q = .done) (removeCredential call.draw id) := by
  refine follows_critical (fun a _ => ?_)
  unfold Auth.removeCredential
  cases found : a.creds.find? (fun c => c.id == id) with
  | none => exact ⟨_, ⟨_, .keep id a⟩, rfl⟩
  | some cred =>
    by_cases last : cred.role = .administrator ∧
        a.creds.countP (fun c => c.role = .administrator) = 1
    · simp only [if_pos last]
      exact ⟨_, ⟨_, .keep id a⟩, rfl⟩
    · simp only [if_neg last]
      exact ⟨_, ⟨_, .remove id cred a found last⟩, rfl⟩

private theorem runs_reply {α : Type} {q : Stage} (ends : q.Ends) (reply : α) :
    Runs call q (fun q _ => q.Ends) (pure reply : AuthProg α) :=
  follows_pure ends

theorem authEndpoint_follows (cookie : Option String) (request : AuthRequest) :
    Runs call (.idle false) (fun q _ => q.Ends) (authEndpoint L C call.draw cookie request) := by
  refine follows_bind runs_sessionOf (fun q session stands => ?_)
  rw [stands]
  have waits := Stage.ends_idle (isAdmin session)
  cases request with
  | session =>
    cases session with
    | some info => exact runs_reply waits _
    | none =>
      refine follows_bind runs_hasCredentials (fun q present stays => ?_)
      rw [stays]
      exact runs_reply waits _
  | loginOptions =>
    refine follows_bind runs_newChallenge (fun q issued ended => ?_)
    rw [ended]
    exact runs_reply Stage.ends_done _
  | login challengeToken id clientDataJson authenticatorData signature =>
    refine follows_bind runs_login (fun q outcome ends => ?_)
    cases outcome with
    | error e | ok found => exact runs_reply ends _
  | registerOptions setupHeader =>
    refine follows_bind runs_isBootstrap (fun q bootstrap stays => ?_)
    rw [stays]
    refine follows_ite (fun _ => runs_reply waits _) (fun _ => ?_)
    refine follows_bind runs_newChallenge (fun q issued ended => ?_)
    rw [ended]
    exact runs_reply Stage.ends_done _
  | register setupHeader challengeToken clientDataJson attestationObject chosen label =>
    refine follows_bind runs_isBootstrap (fun q bootstrap stays => ?_)
    rw [stays]
    refine follows_ite (fun _ => runs_reply waits _) (fun allowed => ?_)
    -- without the setup token only an administrator gets here
    have admin : bootstrap = false → isAdmin session = true := by
      intro without
      simpa [without] using allowed
    refine follows_bind (runs_register (fun required => if_pos required) admin)
      (fun q outcome ends => ?_)
    cases outcome with
    | error e | ok id => exact runs_reply ends _
  | logout =>
    cases cookie with
    | none => exact runs_reply waits _
    | some token =>
      refine follows_modify_bind (fun a _ => ?_)
      exact ⟨_, ⟨_, .logout _ token a⟩, runs_reply Stage.ends_done _⟩
  | credentials =>
    refine follows_ite (fun _ => runs_reply waits _) (fun _ => ?_)
    refine follows_observe_bind (fun a _ => ?_)
    exact ⟨_, ⟨_, .credentials _ a⟩, runs_reply waits _⟩
  | remove id =>
    refine follows_ite (fun _ => runs_reply waits _) (fun allowed => ?_)
    have admin : isAdmin session = true := by simpa using allowed
    rw [admin]
    refine follows_bind runs_removeCredential (fun q outcome ended => ?_)
    rw [ended]
    cases outcome with
    | ok _ => exact runs_reply Stage.ends_done _
    | error e =>
      refine follows_ite (fun _ => runs_reply Stage.ends_done _) (fun _ => ?_)
      exact follows_ite (fun _ => runs_reply Stage.ends_done _)
        (fun _ => runs_reply Stage.ends_done _)

theorem sessionRole_store (a : Auth) (token : String) :
    (a.sessionRole token).2 = (a.sessionInfo token).2 := by
  unfold Auth.sessionRole Auth.sessionInfo Auth.liveSession
  cases a.sessions.get? token with
  | none => rfl
  | some s => by_cases live : a.now < s.2.expires <;> simp [live]

theorem proxy_follows (cookie : Option String) (method path : String) :
    Runs call (.idle false) (fun q _ => q.Ends) (proxy cookie method path) := by
  cases cookie with
  | none => exact runs_reply (Stage.ends_idle false) _
  | some token =>
    refine follows_critical_bind (fun a _ => ?_)
    rw [sessionRole_store]
    refine ⟨_, ⟨none, .session token a⟩, ?_⟩
    have waits := Stage.ends_idle (isAdmin (a.sessionInfo token).1)
    cases (a.sessionRole token).1 with
    | none => exact runs_reply waits _
    | some role =>
      exact follows_ite (fun _ => runs_reply waits _) (fun _ => runs_reply waits _)

theorem serve_follows (call : Call) :
    Runs call (.idle false) (fun q _ => q.Ends)
      (serve L C call.draw call.cookie call.request) := by
  cases served : call.request with
  | auth request => exact authEndpoint_follows ..
  | proxy method path => exact proxy_follows ..

theorem AuthStep.opens {credId : String}
    (step : AuthStep call (.validated credId role) l a a' q' e) :
    l = .openSession call.draw.token credId role := by
  cases step with
  | openSession => rfl

theorem AuthStep.not_done :
    ¬AuthStep call .done l a a' q' e := by
  intro step
  cases step

theorem label_of_validated {credId : String} {p : AuthProg Reply}
    (follows : Runs call (.validated credId role) (fun q _ => q.Ends) p) :
    p.label? = some (.openSession call.draw.token credId role) := by
  cases p with
  | ret reply => exact absurd rfl (follows_ret follows credId role)
  | act l effect next =>
    obtain ⟨_, ⟨_, step⟩, _⟩ :=
      follows_act follows (s := Auth.load [] 0) trivial
    rw [step.opens]
    rfl

theorem label_of_done {p : AuthProg Reply} (follows : Runs call .done (fun q _ => q.Ends) p) :
    p.label? = none := by
  cases p with
  | ret reply => rfl
  | act l effect next =>
    obtain ⟨_, ⟨_, step⟩, _⟩ :=
      follows_act follows (s := Auth.load [] 0) trivial
    exact absurd step AuthStep.not_done

theorem AuthStep.event_eq {q : Stage} {next : AuthProg Reply} (step : AuthStep call q l a a' q' e)
    (later : Runs call q' (fun q _ => q.Ends) next) : l.event a a' next.label? = e := by
  cases step with
  | session | credentials | logout | newChallenge | openSession => rfl
  | take _ token purpose challenge _ serves => simp [Section.event, serves]
  | miss _ token purpose _ fails => simp [Section.event, fails]
  | store token admin requireEmpty record _ bootstrap allowed alone free | refuse | keep =>
    simp [Section.event]
  | validate =>
    rw [label_of_validated later]
    rfl
  | reject =>
    rw [label_of_done later]
    rfl
  | remove id cred _ found _ =>
    have present := mem_of_find?_eq_some found
    have named := List.find?_some found
    have shorter : (a.creds.eraseP (fun c => c.id == id)).length < a.creds.length := by
      have pos := length_pos_of_mem present
      rw [length_eraseP_of_mem present named]
      omega
    simp [Section.event, shorter]

end

section

variable {call : Call} {q q' : Stage} {l : Section} {a a' : Auth} {e : Option Event}

@[simp] theorem Auth.map_id_setCounter (id : String) (counter : Nat)
    (creds : List CredentialRecord) :
    (Auth.setCounter id counter creds).map CredentialRecord.id = creds.map CredentialRecord.id := by
  induction creds with
  | nil => rfl
  | cons c rest ih =>
    unfold Auth.setCounter
    split
    · rfl
    · rw [map_cons, map_cons, ih]

section

variable (step : AuthStep call q l a a' q' e)
include step

theorem AuthStep.ids :
    (a'.creds.map CredentialRecord.id = a.creds.map CredentialRecord.id ∧
        ∀ id, e ≠ some (.removed id)) ∨
      (∃ token setup wasEmpty id counter time,
        e = some (.stored token setup wasEmpty id counter time) ∧
        id ∉ a.creds.map CredentialRecord.id ∧
        a'.creds.map CredentialRecord.id = a.creds.map CredentialRecord.id ++ [id]) ∨
      ∃ id, e = some (.removed id) ∧ l = .remove id ∧
        a'.creds.map CredentialRecord.id = (a.creds.map CredentialRecord.id).erase id := by
  cases step with
  | session token => exact Or.inl ⟨congrArg _ (a.sessionInfo_frame token).1, by rintro _ ⟨⟩⟩
  | credentials | logout | newChallenge | refuse | reject | openSession | keep =>
    exact Or.inl ⟨rfl, by rintro _ ⟨⟩⟩
  | take _ token purpose | miss _ token purpose =>
    exact Or.inl ⟨congrArg _ (a.takeChallenge_frame ..).1, by rintro _ ⟨⟩⟩
  | store token _ requireEmpty record _ _ _ _ free =>
    refine Or.inr (Or.inl ⟨token, requireEmpty, _, record.id, record.counter, _, rfl, ?_, ?_⟩)
    · intro member
      obtain ⟨c, present, same⟩ := mem_map.mp member
      exact free c present same
    · rw [Auth.creds_persist, map_append, map_singleton]
  | validate token credentialId _ counter cred =>
    refine Or.inl ⟨?_, by rintro _ ⟨⟩⟩
    split
    · rw [Auth.creds_persist, Auth.map_id_setCounter]
    · rfl
  | remove id cred =>
    refine Or.inr (Or.inr ⟨id, rfl, rfl, ?_⟩)
    rw [Auth.creds_persist, erase_eq_eraseP', eraseP_map]
    rfl

theorem AuthStep.distinct
    (distinct : (a.creds.map CredentialRecord.id).Nodup) :
    (a'.creds.map CredentialRecord.id).Nodup := by
  rcases step.ids with ⟨same, _⟩ | ⟨_, _, _, id, _, _, _, fresh, added⟩ | ⟨id, _, _, erased⟩
  · rw [same]
    exact distinct
  · rw [added]
    exact nodup_append.mpr ⟨distinct, nodup_singleton id, by
      intro x old y new same
      rw [mem_singleton.mp new] at same
      exact fresh (same ▸ old)⟩
  · rw [erased]
    exact distinct.erase id

theorem AuthStep.sessions {s : String × Session}
    (member : s ∈ a'.sessions.rows) :
    (s ∈ a.sessions.rows ∧ ∀ id, e = some (.removed id) → s.2.credId ≠ id) ∨
      ∃ role, q = .validated s.2.credId role ∧ e = none := by
  cases step with
  | session token =>
    have old := (a.sessionInfo_frame token).2.2.2 s member
    exact Or.inl ⟨old, by rintro _ ⟨⟩⟩
  | credentials | newChallenge | refuse | reject | keep => exact Or.inl ⟨member, by rintro _ ⟨⟩⟩
  | logout => exact Or.inl ⟨(Entries.mem_remove.mp member).1, by rintro _ ⟨⟩⟩
  | take _ token purpose | miss _ token purpose =>
    rw [(a.takeChallenge_frame ..).2.1] at member
    exact Or.inl ⟨member, by rintro _ ⟨⟩⟩
  | store =>
    rw [Auth.sessions_persist] at member
    exact Or.inl ⟨member, by rintro _ ⟨⟩⟩
  | validate =>
    refine Or.inl ⟨?_, by rintro _ ⟨⟩⟩
    split at member
    · rwa [Auth.sessions_persist] at member
    · exact member
  | openSession credId role =>
    rcases Entries.mem_of_mem_put member with rfl | ⟨old, _⟩
    · exact Or.inr ⟨role, rfl, rfl⟩
    · exact Or.inl ⟨old, by rintro _ ⟨⟩⟩
  | remove id =>
    rw [Auth.sessions_persist] at member
    refine Or.inl ⟨mem_of_mem_filter member, ?_⟩
    simpa using of_mem_filter member

end

theorem AuthStep.validates {id : String} {role : Role}
    (step : AuthStep call q l a a' (.validated id role) e) :
    id ∈ a.creds.map CredentialRecord.id ∧
      ∃ token counter time, e = some (.validated token id counter time) := by
  cases step with
  | validate token _ _ counter cred _ found =>
    have named : cred.id = id := by simpa using List.find?_some found
    refine ⟨?_, token, counter, _, rfl⟩
    exact mem_map.mpr ⟨cred, mem_of_find?_eq_some found, named⟩

end

namespace Console

variable {L : Libraries} {C : AuthConfig} {σ σ' : Console} {stage : Nat → Stage} {move : Move}

def Stages (σ : Console) (stage : Nat → Stage) : Prop :=
  Staged Stepped (fun q (_ : Reply) => q.Ends) (.idle false) stage σ.calls

inductive Change (σ : Console) (stage : Nat → Stage) : Move → Console → (Nat → Stage) → Prop
  | arrive (call : Call) (p : AuthProg Reply) :
      Change σ stage (.arrive call) { σ with calls := σ.calls ++ [(call, p)] } stage
  | tick (elapsed : Nat) :
      Change σ stage (.tick elapsed) { σ with auth := { σ.auth with now := σ.auth.now + elapsed } }
        stage
  | act (i : Nat) (call : Call) (l : Section) (p : AuthProg Reply) (a' : Auth) (q : Stage)
      (e : Option Event) (labelled : σ.label i = some l)
      (called : (σ.calls[i]?).map Prod.fst = some call)
      (step : AuthStep call (stage i) l σ.auth a' q e) :
      Change σ stage (.act i) ⟨a', σ.calls.set i (call, p), σ.log ++ e.toList⟩
        (Function.update stage i q)

theorem Stages.init (loaded : List CredentialRecord) (now : Nat) :
    (Console.init loaded now).Stages (fun _ => .idle false) := Staged.nil

theorem Stages.step (stages : σ.Stages stage) (stepped : Console.step L C move σ = some σ') :
    ∃ stage', Change σ stage move σ' stage' ∧ σ'.Stages stage' := by
  cases move with
  | arrive call =>
    cases stepped
    exact ⟨stage, .arrive call _, stages.spawn (serve_follows call)⟩
  | tick elapsed =>
    cases stepped
    exact ⟨stage, .tick elapsed, stages⟩
  | act i =>
    simp only [Console.step] at stepped
    split at stepped
    · next call l effect next running =>
      obtain ⟨q, ⟨e, step⟩, later⟩ := Staged.act stages running σ.auth
      have bound : i < σ.calls.length := (List.getElem?_eq_some_iff.mp running).1
      have follows := later.follows i call (next σ.auth) (List.getElem?_set_self bound)
      rw [Function.update_self] at follows
      rw [step.event_eq follows] at stepped
      cases stepped
      refine ⟨Function.update stage i q, ?_, later⟩
      refine .act i call l (next σ.auth) (effect σ.auth) q e ?_ ?_ step
      · simp [Console.label, running, Prog.label?]
      · rw [running]
        rfl
    · cases stepped

end Console

end RelayFabric.Ui
