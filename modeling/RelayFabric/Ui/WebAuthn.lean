/- source: relayfabric-ui/src/auth.rs (verify_client_data, parse_auth_data_common, verify_assertion)
   digest: What the relying party checks of a registration and of an assertion. -/

import RelayFabric.Core
import RelayFabric.Lib.Cbor

namespace RelayFabric.Ui

open Lib

structure ClientData where
  ty : String
  challenge : String
  origin : String
  crossOrigin : Option Bool

structure Libraries where
  json : Bytes → Option ClientData
  cbor : Bytes → Option Cbor.Value
  sha256 : Bytes → Bytes
  p256Key : Bytes → Bool
  p256Signature : Bytes → Bool
  p256Verify : Bytes → Bytes → Bytes → Bool
  ed25519Key : Bytes → Bool
  ed25519Verify : Bytes → Bytes → Bytes → Bool

def b64urlDigit (n : Nat) : Char :=
  ("ABCDEFGHIJKLMNOPQRSTUVWXYZabcdefghijklmnopqrstuvwxyz0123456789-_".toList).getD n 'A'

def b64urlChars : Bytes → List Char
  | a :: b :: c :: rest =>
    b64urlDigit (a.toNat / 4) :: b64urlDigit (a.toNat % 4 * 16 + b.toNat / 16) ::
      b64urlDigit (b.toNat % 16 * 4 + c.toNat / 64) :: b64urlDigit (c.toNat % 64) ::
        b64urlChars rest
  | [a, b] =>
    [b64urlDigit (a.toNat / 4), b64urlDigit (a.toNat % 4 * 16 + b.toNat / 16),
      b64urlDigit (b.toNat % 16 * 4)]
  | [a] => [b64urlDigit (a.toNat / 4), b64urlDigit (a.toNat % 4 * 16)]
  | [] => []

def b64url (bytes : Bytes) : String := String.ofList (b64urlChars bytes)

def toAsciiLowercase (chars : List Char) : List Char := chars.map Char.toLower

def splitScheme : List Char → Option (List Char × List Char)
  | ':' :: '/' :: '/' :: rest => some ([], rest)
  | c :: rest => (splitScheme rest).map (fun cut => (c :: cut.1, cut.2))
  | [] => none

def splitOrigin (origin : List Char) : Option (List Char × List Char) := do
  let (scheme, rest) ← splitScheme origin
  let host ← match rest with
    | '[' :: after =>
      if after.contains ']' then some (['['] ++ after.takeWhile (· != ']') ++ [']']) else none
    | _ => some (rest.takeWhile (fun c => c != '/' && c != ':'))
  some (toAsciiLowercase scheme, toAsciiLowercase host)

def isLoopback (host : List Char) : Bool :=
  host == "localhost".toList || host == "127.0.0.1".toList || host == "[::1]".toList

section

variable (L : Libraries)

def verifyClientData (clientDataJson : Bytes) (expectedType : String) (challenge : Bytes)
    (origins : List String) : Except String Unit :=
  match L.json clientDataJson with
  | none => .error "malformed clientDataJSON"
  | some cd =>
    if cd.ty ≠ expectedType then .error "wrong clientData type"
    else if cd.challenge ≠ b64url challenge then .error "challenge mismatch"
    else if cd.crossOrigin = some true then .error "cross-origin ceremony refused"
    else
      let origin := toAsciiLowercase cd.origin.toList
      match splitOrigin origin with
      | none => .error "malformed origin"
      | some (scheme, host) =>
        if scheme ≠ "https".toList ∧ ¬(scheme = "http".toList ∧ isLoopback host = true) then
          .error "origin scheme not allowed (need https, or http on loopback)"
        else if origins.all (fun o => o.toList != origin) then .error "origin not allowed"
        else .ok ()

def byteAt (bytes : Bytes) (i : Nat) : UInt8 := bytes.getD i 0

def signCount (authData : Bytes) : Nat := ofBigEndian ((authData.drop 33).take 4)

def parseAuthDataCommon (authData : Bytes) (rpId : String) (requireUv : Bool) :
    Except String Unit :=
  if authData.length < 37 then .error "authData too short"
  else if authData.take 32 ≠ L.sha256 (Cbor.utf8 rpId) then .error "rpIdHash mismatch"
  else if byteAt authData 32 &&& 0x01 = 0 then .error "user-present flag not set"
  else if requireUv = true ∧ byteAt authData 32 &&& 0x04 = 0 then
    .error "user-verification flag not set (PIN/biometric required)"
  else .ok ()

def algEs256 : Int := -7
def algEd25519 : Int := -8
def crvP256 : Int := 1
def crvEd25519 : Int := 6

def asInteger : Cbor.Value → Option Int
  | .uint n => some n
  | .nint n => some (-1 - n)
  | _ => none

def asBytes : Cbor.Value → Option Bytes
  | .bytes content => some content
  | _ => none

def asText : Cbor.Value → Option String
  | .text content => some content
  | _ => none

def asMap : Cbor.Value → Option (List (Cbor.Value × Cbor.Value))
  | .map entries => some entries
  | _ => none

def asI64 (value : Cbor.Value) : Option Int :=
  (asInteger value).filter (fun n => decide (-2 ^ 63 ≤ n ∧ n < 2 ^ 63))

def coseParam (entries : List (Cbor.Value × Cbor.Value)) (label : Int) : Option Cbor.Value :=
  (entries.find? (fun e => asInteger e.1 == some label)).map (·.2)

def okOr {α : Type} (value : Option α) (message : String) : Except String α :=
  match value with
  | some a => .ok a
  | none => .error message

def parseCoseKey (cbor : Bytes) : Except String (Int × Bytes) := do
  let value ← okOr (L.cbor cbor) "malformed COSE key"
  let entries ← okOr (asMap value) "COSE key is not a map"
  let kty ← okOr ((coseParam entries 1).bind asI64) "COSE key missing kty"
  let alg ← okOr ((coseParam entries 3).bind asI64) "COSE key missing alg"
  let crv ← okOr ((coseParam entries (-1)).bind asI64) "COSE key missing crv"
  if kty = 2 ∧ alg = algEs256 then
    if crv ≠ crvP256 then .error "ES256 key must use curve P-256"
    else do
      let x ← okOr ((coseParam entries (-2)).bind asBytes) "EC2 key missing x"
      let y ← okOr ((coseParam entries (-3)).bind asBytes) "EC2 key missing y"
      if x.length ≠ 32 ∨ y.length ≠ 32 then .error "EC2 coordinates must be 32 bytes"
      else if L.p256Key (0x04 :: x ++ y) = false then .error "EC2 point is not on curve P-256"
      else .ok (algEs256, 0x04 :: x ++ y)
  else if kty = 1 ∧ alg = algEd25519 then
    if crv ≠ crvEd25519 then .error "Ed25519 key must use curve Ed25519"
    else do
      let x ← okOr ((coseParam entries (-2)).bind asBytes) "OKP key missing x"
      if x.length ≠ 32 then .error "Ed25519 key must be 32 bytes"
      else if L.ed25519Key x = false then .error "Ed25519 key is not a valid point"
      else .ok (algEd25519, x)
  else .error "unsupported COSE key type/alg (need ES256 or Ed25519)"

structure Attested where
  credId : Bytes
  alg : Int
  publicKey : Bytes
  counter : Nat

def parseAttestationObject (attestationObject : Bytes) (rpId : String) :
    Except String Attested := do
  let value ← okOr (L.cbor attestationObject) "malformed attestationObject"
  let entries ← okOr (asMap value) "attestationObject is not a map"
  let authData ← okOr
    ((entries.find? (fun e => asText e.1 == some "authData")).bind (fun e => asBytes e.2))
    "attestationObject missing authData"
  parseAuthDataCommon L authData rpId true
  if byteAt authData 32 &&& 0x40 = 0 then .error "no attested credential data"
  -- rpIdHash(32) flags(1) signCount(4) aaguid(16) credIdLen(2) credId
  else if authData.length < 55 then .error "authData too short"
  else
    let credLen := ofBigEndian ((authData.drop 53).take 2)
    if authData.length < 55 + credLen then .error "authData too short"
    else do
      let (alg, key) ← parseCoseKey L (authData.drop (55 + credLen))
      .ok ⟨(authData.drop 55).take credLen, alg, key, signCount authData⟩

def verifySignature (alg : Int) (publicKey signed signature : Bytes) : Except String Unit :=
  if alg = algEs256 then
    if L.p256Key publicKey = false then .error "bad stored ES256 key"
    else if L.p256Signature signature = false then .error "malformed ES256 signature"
    else if L.p256Verify publicKey signed signature = false then
      .error "signature verification failed"
    else .ok ()
  else if alg = algEd25519 then
    if publicKey.length ≠ 32 ∨ L.ed25519Key publicKey = false then .error "bad stored Ed25519 key"
    else if signature.length ≠ 64 then .error "malformed Ed25519 signature"
    else if L.ed25519Verify publicKey signed signature = false then
      .error "signature verification failed"
    else .ok ()
  else .error "unsupported credential alg"

def verifyAssertion (authenticatorData clientDataJson signature : Bytes) (rpId : String) (alg : Int)
    (publicKey : Bytes) : Except String Nat := do
  parseAuthDataCommon L authenticatorData rpId true
  verifySignature L alg publicKey (authenticatorData ++ L.sha256 clientDataJson) signature
  .ok (signCount authenticatorData)

theorem verifyAssertion_ok {authenticatorData clientDataJson signature publicKey : Bytes}
    {rpId : String} {alg : Int} {counter : Nat}
    (accepted : verifyAssertion L authenticatorData clientDataJson signature rpId alg publicKey =
      .ok counter) : counter = signCount authenticatorData := by
  unfold verifyAssertion at accepted
  cases common : parseAuthDataCommon L authenticatorData rpId true with
  | error e =>
    rw [common] at accepted
    cases accepted
  | ok _ =>
    rw [common] at accepted
    cases signed : verifySignature L alg publicKey
        (authenticatorData ++ L.sha256 clientDataJson) signature with
    | error e =>
      simp only [bind, Except.bind, signed] at accepted
      cases accepted
    | ok _ =>
      simp only [bind, Except.bind, signed] at accepted
      exact (Except.ok.inj accepted).symm

end

namespace Sample

def libraries : Libraries where
  json
    | kind :: challenge =>
      some ⟨if kind = 0 then "webauthn.create" else "webauthn.get", b64url challenge,
        "https://ui.example", none⟩
    | [] => none
  cbor
    | 1 :: authData => some (.map [(.text "authData", .bytes authData)])
    | 2 :: x =>
      some (.map [(.uint 1, .uint 1), (.uint 3, .nint 7), (.nint 0, .uint 6), (.nint 1, .bytes x)])
    | _ => none
  sha256 _ := List.replicate 32 0
  p256Key _ := true
  p256Signature _ := true
  p256Verify _ _ _ := true
  ed25519Key _ := true
  ed25519Verify _ _ _ := true

def authData (counter : Nat) : Bytes :=
  List.replicate 32 0 ++ [0x45] ++ bigEndian 4 counter

def attestation (counter : Nat) (credId : Bytes) : Bytes :=
  1 :: authData counter ++ List.replicate 16 0 ++ bigEndian 2 credId.length ++ credId ++
    2 :: List.replicate 32 1

def clientData (kind : UInt8) (challenge : Bytes) : Bytes := kind :: challenge

def signature : Bytes := List.replicate 64 0

end Sample

end RelayFabric.Ui
