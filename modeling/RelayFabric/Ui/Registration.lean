/- source: relayfabric-ui/src/auth.rs (Auth::register, Auth::persist), relayfabric-ui/src/main.rs
   digest: What a refused registration leaves behind. -/

import RelayFabric.Ui.Auth

namespace RelayFabric.Ui

open Lib

structure Ceremony where
  challengeToken : String
  clientDataJson : Bytes
  attestationObject : Bytes
  role : Role
  label : String

namespace Ceremony

variable (L : Libraries) (C : AuthConfig) (draw : Draw)

def register (k : Ceremony) (requireEmpty : Bool) : AuthProg (Except String String) :=
  Ui.register L C draw k.challengeToken k.clientDataJson k.attestationObject k.role k.label
    requireEmpty

def bootstrap (k : Ceremony) : AuthProg Reply :=
  authEndpoint L C draw none (.register (some C.setupToken) k.challengeToken k.clientDataJson
    k.attestationObject (some k.role) k.label)

def Admissible (k : Ceremony) (requireEmpty : Bool) (a : Auth) : Prop :=
  ∃ challenge record, (a.takeChallenge k.challengeToken .register).1 = some challenge ∧
    checkRegistration L C challenge k.clientDataJson k.attestationObject k.role k.label =
      .ok record ∧
    (requireEmpty = true → a.creds = []) ∧ ∀ c ∈ a.creds, c.id ≠ record.id

end Ceremony

section

variable {L : Libraries} {C : AuthConfig} {draw : Draw} {k : Ceremony} {requireEmpty : Bool}
  {a b : Auth}

theorem Ceremony.run_of_admissible (draw : Draw) (admissible : k.Admissible L C requireEmpty a) :
    ∃ record, (k.register L C draw requireEmpty).run a =
      (if draw.works then .ok record.id else .error "cannot persist credential store",
        ({ (a.takeChallenge k.challengeToken .register).2 with
          creds := a.creds ++ [record] }).persist draw.works) := by
  obtain ⟨challenge, record, taken, checked, alone, free⟩ := admissible
  obtain ⟨same, -, -⟩ := a.takeChallenge_frame k.challengeToken .register
  refine ⟨record, ?_⟩
  unfold Ceremony.register Ui.register Ui.takeChallenge
  rw [Prog.run_critical_bind, taken]
  simp only [checked, Prog.run_critical]
  rw [Auth.storeCredential_of_free _ draw.works (by rwa [same]) (by rwa [same]), same]

theorem Ceremony.run_of_not_admissible (draw : Draw) (refused : ¬k.Admissible L C requireEmpty a) :
    ∃ e, (k.register L C draw requireEmpty).run a =
      (.error e, (a.takeChallenge k.challengeToken .register).2) := by
  obtain ⟨same, -, -⟩ := a.takeChallenge_frame k.challengeToken .register
  unfold Ceremony.register Ui.register Ui.takeChallenge
  rw [Prog.run_critical_bind]
  cases taken : (a.takeChallenge k.challengeToken .register).1 with
  | none => exact ⟨_, rfl⟩
  | some challenge =>
    cases checked : checkRegistration L C challenge k.clientDataJson k.attestationObject k.role
        k.label with
    | error e =>
      refine ⟨e, ?_⟩
      simp only [checked]
      rfl
    | ok record =>
      have taken' : ¬((requireEmpty = true → a.creds = []) ∧ ∀ c ∈ a.creds, c.id ≠ record.id) :=
        fun both => refused ⟨challenge, record, taken, checked, both⟩
      rw [← same] at taken'
      simp only [checked, Prog.run_critical]
      exact Auth.storeCredential_of_taken _ draw.works taken'

/-- Two stores that a registration with one token cannot tell apart. -/
structure Auth.Alike (token : String) (a b : Auth) : Prop where
  creds : b.creds = a.creds
  now : b.now = a.now
  challenge : b.challenges.get? token = a.challenges.get? token

theorem Auth.Alike.takeChallenge {token : String} (alike : Auth.Alike token a b)
    (purpose : Purpose) :
    (b.takeChallenge token purpose).1 = (a.takeChallenge token purpose).1 := by
  unfold Auth.takeChallenge
  rw [alike.challenge, alike.now]
  cases a.challenges.get? token <;> rfl

theorem Auth.storeCredential_reply {record : CredentialRecord} {works : Bool}
    (same : b.creds = a.creds) :
    (b.storeCredential requireEmpty record works).1 =
      (a.storeCredential requireEmpty record works).1 := by
  unfold Auth.storeCredential
  rw [same]
  split
  · rfl
  · split <;> rfl

theorem Ceremony.reply_of_alike (alike : Auth.Alike k.challengeToken a b) :
    ((k.register L C draw requireEmpty).run b).1 =
      ((k.register L C draw requireEmpty).run a).1 := by
  have creds : (b.takeChallenge k.challengeToken .register).2.creds =
      (a.takeChallenge k.challengeToken .register).2.creds := by
    rw [(b.takeChallenge_frame _ _).1, (a.takeChallenge_frame _ _).1, alike.creds]
  unfold Ceremony.register Ui.register Ui.takeChallenge
  rw [Prog.run_critical_bind, Prog.run_critical_bind, alike.takeChallenge]
  cases (a.takeChallenge k.challengeToken .register).1 with
  | none => rfl
  | some challenge =>
    cases checked : checkRegistration L C challenge k.clientDataJson k.attestationObject k.role
        k.label with
    | error e =>
      simp only [checked]
      rfl
    | ok record =>
      simp only [checked, Prog.run_critical]
      exact Auth.storeCredential_reply creds

theorem Ceremony.run_bootstrap (k : Ceremony) (a : Auth) :
    ((k.bootstrap L C draw).run a).1 =
      if a.creds = [] then
        match ((({ k with role := .administrator }).register L C draw true).run a).1 with
        | .ok id => .registered id .administrator
        | .error e => .refused 400 e
      else .refused 403 "registration requires administrator" := by
  unfold Ceremony.bootstrap authEndpoint sessionOf isBootstrap hasCredentials
  simp only [Prog.run_bind, Prog.run_pure, Prog.run_observe, Prog.run_ite]
  cases empty : a.creds with
  | nil =>
    have carried : (some C.setupToken == some C.setupToken) = true := beq_self_eq_true _
    simp only [carried, List.isEmpty_nil, Bool.not_true, Bool.not_false, Bool.and_self,
      Bool.and_false, Bool.false_eq_true, if_false, if_true, Ceremony.register]
    cases (Ui.register L C draw k.challengeToken k.clientDataJson k.attestationObject
      Role.administrator k.label true |>.run a).1 <;> rfl
  | cons c rest =>
    simp [isAdmin]

theorem Ceremony.bootstrap_of_alike (alike : Auth.Alike k.challengeToken a b) :
    ((k.bootstrap L C draw).run b).1 = ((k.bootstrap L C draw).run a).1 := by
  have same : ((({ k with role := .administrator }).register L C draw true).run b).1 =
      ((({ k with role := .administrator }).register L C draw true).run a).1 :=
    Ceremony.reply_of_alike ⟨alike.creds, alike.now, alike.challenge⟩
  rw [Ceremony.run_bootstrap, Ceremony.run_bootstrap, alike.creds, same]

end

/-- A refused registration leaves the credentials and any other open bootstrap as they were exactly
when the file can be written or the ceremony is refused before its credential is added. -/
theorem refused_registration_leaves_nothing (L : Libraries) (C : AuthConfig) (draw : Draw)
    (k : Ceremony) (requireEmpty : Bool) (a : Auth) :
    (∀ e, ((k.register L C draw requireEmpty).run a).1 = .error e →
      ((k.register L C draw requireEmpty).run a).2.creds = a.creds ∧
        ∀ (draw' : Draw) (later : Ceremony) (id : String) (role : Role),
          later.challengeToken ≠ k.challengeToken →
          ((later.bootstrap L C draw').run a).1 = .registered id role →
          ((later.bootstrap L C draw').run ((k.register L C draw requireEmpty).run a).2).1 =
            .registered id role) ↔
      (draw.works = true ∨ ¬k.Admissible L C requireEmpty a) := by
  by_cases admissible : k.Admissible L C requireEmpty a
  · obtain ⟨record, ran⟩ := Ceremony.run_of_admissible draw admissible
    cases works : draw.works with
    | true =>
      rw [works] at ran
      refine iff_of_true (fun e refused => ?_) (Or.inl rfl)
      rw [ran] at refused
      cases refused
    | false =>
      -- the credential is there although the registration was refused
      rw [works] at ran
      refine iff_of_false (fun harmless => ?_) (by simp [admissible])
      have refused : ((k.register L C draw requireEmpty).run a).1 =
          .error "cannot persist credential store" := by rw [ran]; rfl
      have kept := (harmless _ refused).1
      rw [ran, Auth.creds_persist] at kept
      have longer := congrArg List.length kept
      rw [List.length_append, List.length_singleton] at longer
      omega
  · obtain ⟨e, ran⟩ := Ceremony.run_of_not_admissible draw admissible
    obtain ⟨creds, -, now⟩ := a.takeChallenge_frame k.challengeToken .register
    refine iff_of_true (fun _ _ => ?_) (Or.inr admissible)
    rw [ran]
    refine ⟨creds, fun draw' later id role other opened => ?_⟩
    rw [← opened]
    refine Ceremony.bootstrap_of_alike ⟨creds, now, ?_⟩
    exact a.get?_takeChallenge_of_ne k.challengeToken other

namespace Sample

def config : AuthConfig := ⟨"setup", "ui.example", ["https://ui.example"]⟩

def draw (token : String) (challenge : Bytes) : Draw := ⟨token, challenge, 0, true⟩

def key (id : String) (role : Role) : CredentialRecord :=
  ⟨id, algEd25519, List.replicate 32 1, 0, role, id⟩

def store : Auth :=
  ((Auth.load [] 0).newChallenge "t" .register [7] 0).newChallenge "u" .register [8] 0

def first : Ceremony := ⟨"t", clientData 0 [7], attestation 0 [1, 2, 3], .administrator, "key"⟩

def second : Ceremony := ⟨"u", clientData 0 [8], attestation 0 [4, 5, 6], .administrator, "key"⟩

end Sample

/-- The file cannot be written: the registration is refused, its credential stays in the store,
and the setup token no longer opens it. -/
theorem unwritten_credential_stays :
    let failing : Draw := ⟨"r", [], 0, false⟩
    let working : Draw := ⟨"s", [], 0, true⟩
    let after :=
    (Sample.first.register Sample.libraries Sample.config failing true).run Sample.store
    after.1 = .error "cannot persist credential store" ∧
      Sample.store.creds = [] ∧ after.2.creds.map CredentialRecord.id = ["AQID"] ∧
      ((Sample.second.bootstrap Sample.libraries Sample.config working).run Sample.store).1 =
        .registered "BAUG" .administrator ∧
      ((Sample.second.bootstrap Sample.libraries Sample.config working).run after.2).1 =
        .refused 403 "registration requires administrator" := by
  decide +kernel

end RelayFabric.Ui
