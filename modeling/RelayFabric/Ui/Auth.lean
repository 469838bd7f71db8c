/- source: relayfabric-ui/src/auth.rs (Auth), relayfabric-ui/src/main.rs (auth_endpoint, proxy)
   digest: The passkey store and its requests, cut where they take and give up a lock. -/

import RelayFabric.Ui.WebAuthn
import RelayFabric.Lib.Expiring
import RelayFabric.Lib.Prog

namespace RelayFabric.Ui

open Lib

inductive Role
  | viewer
  | operator
  | routeAdmin
  | identityAdmin
  | securityAdmin
  | administrator
  deriving DecidableEq

def Role.permits (role : Role) (method path : String) : Bool :=
  let under (start : String) : Bool := start.toList.isPrefixOf path.toList
  if role = .administrator then true
  else if under "/v1/identities" then decide (role = .identityAdmin)
  else if method = "GET" ∨ method = "HEAD" then true
  else
    match role with
    | .viewer => false
    | .operator => under "/v1/queue" || under "/v1/messages"
    | .routeAdmin => under "/v1/config"
    | .identityAdmin => false
    | .securityAdmin => under "/v1/federation" || under "/v1/discovery"
    | .administrator => true

structure CredentialRecord where
  id : String
  alg : Int
  publicKey : Bytes
  counter : Nat
  role : Role
  label : String
  deriving DecidableEq

structure Session where
  credId : String
  role : Role
  expires : Nat
  deriving DecidableEq

inductive Purpose
  | register
  | login
  deriving DecidableEq

structure Challenge where
  bytes : Bytes
  purpose : Purpose
  expires : Nat
  deriving DecidableEq

def sessionTtl : Nat := 12 * 60 * 60 * 1000000000

def challengeTtl : Nat := 5 * 60 * 1000000000

def maxChallenges : Nat := 4096

def maxSessions : Nat := 4096

structure AuthConfig where
  setupToken : String
  rpId : String
  origins : List String

structure Auth where
  creds : List CredentialRecord
  sessions : Entries String Session
  challenges : Entries String Challenge
  file : List CredentialRecord
  now : Nat

namespace Auth

def load (loaded : List CredentialRecord) (now : Nat) : Auth :=
  ⟨loaded, Keyed.empty, Keyed.empty, loaded, now⟩

def persist (a : Auth) (works : Bool) : Auth :=
  if works then { a with file := a.creds } else a

def newChallenge (token : String) (purpose : Purpose) (challenge : Bytes) (pick : Nat) (a : Auth) :
    Auth :=
  { a with
    challenges := a.challenges.put Challenge.expires maxChallenges pick a.now token
      ⟨challenge, purpose, a.now + challengeTtl⟩ }

def takeChallenge (token : String) (purpose : Purpose) (a : Auth) : Option Bytes × Auth :=
  match a.challenges.get? token with
  | none => (none, a)
  | some (_, c) =>
    (if c.purpose = purpose ∧ a.now < c.expires then some c.bytes else none,
      { a with challenges := a.challenges.remove token })

def storeCredential (requireEmpty : Bool) (record : CredentialRecord) (works : Bool) (a : Auth) :
    Except String String × Auth :=
  if requireEmpty = true ∧ a.creds ≠ [] then (.error "setup already completed", a)
  else if a.creds.any (fun c => c.id == record.id) then (.error "credential already registered", a)
  else
    let pushed := { a with creds := a.creds ++ [record] }
    (if works then .ok record.id else .error "cannot persist credential store",
      pushed.persist works)

def setCounter (id : String) (counter : Nat) : List CredentialRecord → List CredentialRecord
  | [] => []
  | c :: rest =>
    if c.id = id then { c with counter := counter } :: rest else c :: setCounter id counter rest

def validate (L : Libraries) (C : AuthConfig) (credentialId : String)
    (clientDataJson authenticatorData signature : Bytes) (works : Bool) (a : Auth) :
    Except String (String × Role) × Auth :=
  match a.creds.find? (fun c => c.id == credentialId) with
  | none => (.error "unknown credential", a)
  | some cred =>
    match verifyAssertion L authenticatorData clientDataJson signature C.rpId cred.alg
        cred.publicKey with
    | .error e => (.error e, a)
    | .ok counter =>
      if (counter ≠ 0 ∨ cred.counter ≠ 0) ∧ counter ≤ cred.counter then
        (.error "authenticator counter regressed (possible cloned credential)", a)
      else
        (.ok (cred.id, cred.role),
          if cred.counter < counter then
            ({ a with creds := setCounter credentialId counter a.creds }).persist works
          else a)

def openSession (token credId : String) (role : Role) (pick : Nat) (a : Auth) : Auth :=
  { a with
    sessions := a.sessions.put Session.expires maxSessions pick a.now token
      ⟨credId, role, a.now + sessionTtl⟩ }

def removeCredential (id : String) (works : Bool) (a : Auth) : Except String Unit × Auth :=
  match a.creds.find? (fun c => c.id == id) with
  | none => (.error "unknown credential", a)
  | some cred =>
    if cred.role = .administrator ∧ a.creds.countP (fun c => c.role = .administrator) = 1 then
      (.error "refusing to delete the last administrator credential", a)
    else
      let removed :=
        { a with
          creds := a.creds.eraseP (fun c => c.id == id)
          sessions := a.sessions.keep (fun s => s.2.credId != id) }
      (if works then .ok () else .error "cannot persist credential store", removed.persist works)

def liveSession {α : Type} (read : Session → α) (token : String) (a : Auth) : Option α × Auth :=
  match a.sessions.get? token with
  | none => (none, a)
  | some (_, s) =>
    if a.now < s.expires then (some (read s), a)
    else (none, { a with sessions := a.sessions.remove token })

def sessionRole (token : String) (a : Auth) : Option Role × Auth := a.liveSession Session.role token

def sessionInfo (token : String) (a : Auth) : Option (String × Role) × Auth :=
  a.liveSession (fun s => (s.credId, s.role)) token

def logout (token : String) (a : Auth) : Auth := { a with sessions := a.sessions.remove token }

section

variable (a : Auth) (token id : String)

@[simp] theorem creds_persist (works : Bool) : (a.persist works).creds = a.creds := by
  cases works <;> rfl

@[simp] theorem sessions_persist (works : Bool) : (a.persist works).sessions = a.sessions := by
  cases works <;> rfl

@[simp] theorem challenges_persist (works : Bool) :
    (a.persist works).challenges = a.challenges := by
  cases works <;> rfl

theorem takeChallenge_frame (purpose : Purpose) :
    (a.takeChallenge token purpose).2.creds = a.creds ∧
      (a.takeChallenge token purpose).2.sessions = a.sessions ∧
      (a.takeChallenge token purpose).2.now = a.now := by
  unfold takeChallenge
  split <;> exact ⟨rfl, rfl, rfl⟩

theorem mem_takeChallenge {purpose : Purpose} {e : String × Challenge}
    (member : e ∈ (a.takeChallenge token purpose).2.challenges.rows) :
    e ∈ a.challenges.rows ∧ e.1 ≠ token := by
  unfold takeChallenge at member
  split at member
  · next absent => exact ⟨member, a.challenges.get?_eq_none.mp absent e member⟩
  · exact Entries.mem_remove.mp member

theorem get?_takeChallenge_of_ne {other : String} (apart : other ≠ token) {purpose : Purpose} :
    (a.takeChallenge token purpose).2.challenges.get? other = a.challenges.get? other := by
  unfold takeChallenge
  split
  · rfl
  · exact Entries.get?_remove_of_ne a.challenges apart

theorem takeChallenge_eq_some {purpose : Purpose} {challenge : Bytes} :
    (a.takeChallenge token purpose).1 = some challenge ↔
      ∃ c, (token, c) ∈ a.challenges.rows ∧ c.purpose = purpose ∧ a.now < c.expires ∧
        c.bytes = challenge := by
  unfold takeChallenge
  constructor
  · intro taken
    split at taken
    · cases taken
    · next name c found =>
      obtain ⟨member, named⟩ := a.challenges.get?_eq_some.mp found
      obtain rfl : name = token := named
      split at taken
      · next serves => exact ⟨c, member, serves.1, serves.2, Option.some.inj taken⟩
      · cases taken
  · rintro ⟨c, member, rfl, live, rfl⟩
    have found : a.challenges.get? token = some (token, c) :=
      a.challenges.get?_eq_some.mpr ⟨member, rfl⟩
    rw [found]
    exact if_pos ⟨rfl, live⟩

theorem storeCredential_of_free {requireEmpty : Bool} {record : CredentialRecord} (works : Bool)
    (alone : requireEmpty = true → a.creds = []) (free : ∀ c ∈ a.creds, c.id ≠ record.id) :
    a.storeCredential requireEmpty record works =
      (if works then .ok record.id else .error "cannot persist credential store",
        ({ a with creds := a.creds ++ [record] }).persist works) := by
  have first : ¬(requireEmpty = true ∧ a.creds ≠ []) := fun both => both.2 (alone both.1)
  have unused : ¬(a.creds.any (fun c => c.id == record.id) = true) := by
    simpa using free
  unfold storeCredential
  rw [if_neg first, if_neg unused]

theorem storeCredential_of_taken {requireEmpty : Bool} {record : CredentialRecord} (works : Bool)
    (taken : ¬((requireEmpty = true → a.creds = []) ∧ ∀ c ∈ a.creds, c.id ≠ record.id)) :
    ∃ e, a.storeCredential requireEmpty record works = (.error e, a) := by
  unfold storeCredential
  split
  · exact ⟨_, rfl⟩
  · next first =>
    split
    · exact ⟨_, rfl⟩
    · next unused =>
      refine absurd ⟨fun required => ?_, by simpa using unused⟩ taken
      by_contra nonempty
      exact first ⟨required, nonempty⟩

theorem liveSession_frame {α : Type} (read : Session → α) :
    (a.liveSession read token).2.creds = a.creds ∧
      (a.liveSession read token).2.challenges = a.challenges ∧
      (a.liveSession read token).2.now = a.now ∧
      ∀ e ∈ (a.liveSession read token).2.sessions.rows, e ∈ a.sessions.rows := by
  unfold liveSession
  split
  · exact ⟨rfl, rfl, rfl, fun e member => member⟩
  · split
    · exact ⟨rfl, rfl, rfl, fun e member => member⟩
    · exact ⟨rfl, rfl, rfl, fun e member => (Entries.mem_remove.mp member).1⟩

theorem sessionInfo_frame :
    (a.sessionInfo token).2.creds = a.creds ∧ (a.sessionInfo token).2.challenges = a.challenges ∧
      (a.sessionInfo token).2.now = a.now ∧
      ∀ e ∈ (a.sessionInfo token).2.sessions.rows, e ∈ a.sessions.rows :=
  a.liveSession_frame ..

theorem liveSession_eq_some {α : Type} {read : Session → α} {found : α}
    (live : (a.liveSession read token).1 = some found) :
    ∃ s, (token, s) ∈ a.sessions.rows ∧ read s = found := by
  unfold liveSession at live
  split at live
  · cases live
  · next name s present =>
    obtain ⟨member, named⟩ := a.sessions.get?_eq_some.mp present
    obtain rfl : name = token := named
    split at live
    · exact ⟨s, member, Option.some.inj live⟩
    · cases live

end

end Auth

inductive Section
  | session (token : String)
  | credentials
  | logout (token : String)
  | newChallenge (token : String) (purpose : Purpose)
  | takeChallenge (token : String) (purpose : Purpose)
  | store (token : String) (requireEmpty : Bool) (record : CredentialRecord)
  | validate (token credentialId : String) (counter : Nat)
  | openSession (token credId : String) (role : Role)
  | remove (id : String)
  deriving DecidableEq

abbrev AuthProg := Prog Section Auth

/-- What the random source and the file system give one request: its token, its challenge, which
of several entries a full map drops, and whether writing the file works. -/
structure Draw where
  token : String
  challenge : Bytes
  pick : Nat
  works : Bool

section

variable (L : Libraries) (C : AuthConfig) (draw : Draw)

def newChallenge (purpose : Purpose) : AuthProg (String × String) := do
  .modify (.newChallenge draw.token purpose)
    (Auth.newChallenge draw.token purpose draw.challenge draw.pick)
  pure (draw.token, b64url draw.challenge)

def takeChallenge (token : String) (purpose : Purpose) : AuthProg (Option Bytes) :=
  .critical (.takeChallenge token purpose) (Auth.takeChallenge token purpose)

def checkRegistration (challenge clientDataJson attestationObject : Bytes) (role : Role)
    (label : String) : Except String CredentialRecord := do
  verifyClientData L clientDataJson "webauthn.create" challenge C.origins
  let attested ← parseAttestationObject L attestationObject C.rpId
  .ok { attested with id := b64url attested.credId, role := role, label := label }

def register (challengeToken : String) (clientDataJson attestationObject : Bytes) (role : Role)
    (label : String) (requireEmpty : Bool) : AuthProg (Except String String) := do
  let taken ← takeChallenge challengeToken .register
  match taken with
  | none => pure (.error "unknown or expired challenge")
  | some challenge =>
    match checkRegistration L C challenge clientDataJson attestationObject role label with
    | .error e => pure (.error e)
    | .ok record =>
      .critical (.store challengeToken requireEmpty record)
        (Auth.storeCredential requireEmpty record draw.works)

def login (challengeToken credentialId : String)
    (clientDataJson authenticatorData signature : Bytes) :
    AuthProg (Except String (String × Role)) := do
  let taken ← takeChallenge challengeToken .login
  match taken with
  | none => pure (.error "unknown or expired challenge")
  | some challenge =>
    match verifyClientData L clientDataJson "webauthn.get" challenge C.origins with
    | .error e => pure (.error e)
    | .ok _ => do
      let validated ← Prog.critical
        (.validate challengeToken credentialId (signCount authenticatorData))
        (Auth.validate L C credentialId clientDataJson authenticatorData signature draw.works)
      match validated with
      | .error e => pure (.error e)
      | .ok (credId, role) => do
        .modify (.openSession draw.token credId role)
          (Auth.openSession draw.token credId role draw.pick)
        pure (.ok (draw.token, role))

def removeCredential (id : String) : AuthProg (Except String Unit) :=
  .critical (.remove id) (Auth.removeCredential id draw.works)

def hasCredentials : AuthProg Bool := .observe .credentials (fun a => !a.creds.isEmpty)

inductive AuthRequest
  | session
  | loginOptions
  | login (challengeToken id : String) (clientDataJson authenticatorData signature : Bytes)
  | registerOptions (setupHeader : Option String)
  | register (setupHeader : Option String) (challengeToken : String)
      (clientDataJson attestationObject : Bytes) (role : Option Role) (label : String)
  | logout
  | credentials
  | remove (id : String)

inductive Request
  | auth (request : AuthRequest)
  | proxy (method path : String)

inductive Reply
  | session (info : Option (String × Role)) (setupRequired : Bool)
  | options (token challenge rpId : String)
  | loggedIn (token : String) (role : Role)
  | registered (id : String) (role : Role)
  | credentials (listed : List (String × Role × String))
  | noContent
  | forwarded
  | refused (status : Nat) (text : String)
  deriving DecidableEq

def isAdmin (session : Option (String × Role)) : Bool :=
  session.any (fun info => info.2 = .administrator)

def sessionOf (cookie : Option String) : AuthProg (Option (String × Role)) :=
  match cookie with
  | none => pure none
  | some token => .critical (.session token) (Auth.sessionInfo token)

def isBootstrap (setupHeader : Option String) : AuthProg Bool := do
  let present ← hasCredentials
  pure (!present && setupHeader == some C.setupToken)

def authEndpoint (cookie : Option String) (request : AuthRequest) : AuthProg Reply := do
  let session ← sessionOf cookie
  let admin := isAdmin session
  match request with
  | .session =>
    match session with
    | some info => pure (.session (some info) false)
    | none => do
      let present ← hasCredentials
      pure (.session none (!present))
  | .loginOptions => do
    let issued ← newChallenge draw .login
    pure (.options issued.1 issued.2 C.rpId)
  | .login challengeToken id clientDataJson authenticatorData signature => do
    let outcome ← login L C draw challengeToken id clientDataJson authenticatorData signature
    match outcome with
    | .ok (token, role) => pure (.loggedIn token role)
    | .error e => pure (.refused 401 e)
  | .registerOptions setupHeader => do
    let bootstrap ← isBootstrap C setupHeader
    if !admin && !bootstrap then pure (.refused 403 "registration requires administrator")
    else do
      let issued ← newChallenge draw .register
      pure (.options issued.1 issued.2 C.rpId)
  | .register setupHeader challengeToken clientDataJson attestationObject chosen label => do
    let bootstrap ← isBootstrap C setupHeader
    if !admin && !bootstrap then pure (.refused 403 "registration requires administrator")
    else do
      let role := if bootstrap then .administrator else chosen.getD .viewer
      let outcome ← register L C draw challengeToken clientDataJson attestationObject role label
        bootstrap
      match outcome with
      | .ok id => pure (.registered id role)
      | .error e => pure (.refused 400 e)
  | .logout =>
    match cookie with
    | none => pure .noContent
    | some token => do
      .modify (.logout token) (Auth.logout token)
      pure .noContent
  | .credentials =>
    if !admin then pure (.refused 403 "administrator only")
    else do
      let listed ← Prog.observe .credentials
        (fun a => a.creds.map (fun c => (c.id, c.role, c.label)))
      pure (.credentials listed)
  | .remove id =>
    if !admin then pure (.refused 403 "administrator only")
    else do
      let outcome ← removeCredential draw id
      match outcome with
      | .ok _ => pure .noContent
      | .error e =>
        if e = "unknown credential" then pure (.refused 404 "")
        else if e = "cannot persist credential store" then pure (.refused 500 e)
        else pure (.refused 409 e)

def proxy (cookie : Option String) (method path : String) : AuthProg Reply := do
  let role ← match cookie with
    | none => pure none
    | some token => Prog.critical (.session token) (Auth.sessionRole token)
  match role with
  | none => pure (.refused 401 "authentication required")
  | some role =>
    if role.permits method path then pure .forwarded
    else pure (.refused 403 "role does not permit this action")

def serve (cookie : Option String) (request : Request) : AuthProg Reply :=
  match request with
  | .auth request => authEndpoint L C draw cookie request
  | .proxy method path => proxy cookie method path

end

end RelayFabric.Ui
