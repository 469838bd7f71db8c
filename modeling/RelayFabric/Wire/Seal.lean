/- source: fed/seal.rs, crypto_box, ciborium
   digest: Sealed envelopes, and what an opened one proves about who sealed it. -/

import RelayFabric.Engine.Ingress
import RelayFabric.Wire.Codec

namespace RelayFabric

open List Lib
open Lib.Cbor (Value)

abbrev Key := { bytes : Bytes // bytes.length = 32 }

abbrev Nonce := { bytes : Bytes // bytes.length = 24 }

/-- `crypto_box`: public keys, and `ChaChaBox::new(key, secret)` followed by `encrypt` or
`decrypt`. -/
structure SealBox where
  publicKey : Key → Key
  encrypt : Key → Key → Nonce → Bytes → Bytes
  decrypt : Key → Key → Nonce → Bytes → Option Bytes

structure Encryption where
  recipient : Key
  secret : Key
  nonce : Nonce
  plaintext : Bytes

/-- The box is ideal: what was encrypted to a key opens under its secret, and what opens on the wire
is an encryption that some party has performed. -/
structure SealBox.Ideal (B : SealBox) (performed : Encryption → Prop)
    (wire : SealedEnvelope → Prop) : Prop where
  opens : ∀ (recipient secret : Key) (nonce : Nonce) (plaintext : Bytes),
    B.decrypt (B.publicKey secret) recipient nonce
      (B.encrypt (B.publicKey recipient) secret nonce plaintext) = some plaintext
  authentic : ∀ sealed, wire sealed → ∀ (epk recipient : Key) (nonce : Nonce) (plaintext : Bytes),
    epk.val = sealed.epk → nonce.val = sealed.nonce →
    B.decrypt epk recipient nonce sealed.ct = some plaintext →
    ∃ secret, B.publicKey secret = epk ∧ performed ⟨B.publicKey recipient, secret, nonce, plaintext⟩

def plaintextValue (cbor : Bytes) (id : String) (expiresAt : Int) : Value :=
  .array [.bytes cbor, .text id, intValue expiresAt]

def encodePlaintext (cbor : Bytes) (id : String) (expiresAt : Int) : Bytes :=
  (plaintextValue cbor id expiresAt).encode

structure Sealable (cbor : Bytes) (id : String) (expiresAt : Int) : Prop where
  cbor : cbor.length < 2 ^ 64
  id : Short id
  expiresAt : -2 ^ 63 ≤ expiresAt ∧ expiresAt < 2 ^ 63

abbrev Plaintext := Bytes × String × Int

/-- A decoder that reads back what was encoded; what else it accepts is left open. -/
def ReadsBack (decode : Bytes → Option Plaintext) : Prop :=
  ∀ cbor id expiresAt, Sealable cbor id expiresAt →
    decode (encodePlaintext cbor id expiresAt) = some (cbor, id, expiresAt)

def readPlaintext : Value → Option Plaintext
  | .array (cbor :: id :: expiresAt :: _) => do
    let cbor ← readBytes cbor
    let id ← readText id
    let expiresAt ← readInt expiresAt
    some (cbor, id, expiresAt)
  | _ => none

def decodePlaintext (bytes : Bytes) : Option Plaintext := fromReader readPlaintext bytes

theorem decodePlaintext_readsBack : ReadsBack decodePlaintext := by
  intro cbor id expiresAt sealable
  have sound : Sound .cbor 2 (plaintextValue cbor id expiresAt) := by
    refine .array (by simp) ?_
    intro item member
    simp only [mem_cons, not_mem_nil, or_false] at member
    rcases member with rfl | rfl | rfl
    · exact .raw sealable.cbor 0
    · exact .text sealable.id 0
    · exact .int sealable.expiresAt.1 sealable.expiresAt.2 0
  unfold decodePlaintext encodePlaintext
  rw [fromReader_encode _ (sound.height.trans (by decide)) sound.fits]
  simp only [plaintextValue, readPlaintext, readBytes, readText_text,
    readInt_intValue sealable.expiresAt.1 sealable.expiresAt.2, Option.bind_eq_bind,
    Option.bind_some]

/-- `GenericArray::from_slice` on a slice of another length. -/
inductive Panic
  | lengthMismatch
  deriving DecidableEq, Repr

def nonceFromSlice (nonce : Bytes) : Except Panic Nonce :=
  if length : nonce.length = 24 then .ok ⟨nonce, length⟩ else .error .lengthMismatch

def parseEpk (epk : Bytes) : Except SealError Key :=
  if length : epk.length = 32 then .ok ⟨epk, length⟩ else .error .badSeal

def parseNonce (nonce : Bytes) : Except Panic (Except SealError Nonce) :=
  if nonce.length ≠ 24 then .ok (.error .badSeal)
  else (nonceFromSlice nonce).map .ok

section Seal

variable (B : SealBox) (decode : Bytes → Option Plaintext)

def sealFixed (cbor : Bytes) (id : String) (expiresAt : Int) (recipient secret : Key)
    (nonce : Nonce) : SealedEnvelope where
  alg := sealAlgV1
  id := id
  expiresAt := expiresAt
  epk := (B.publicKey secret).val
  nonce := nonce.val
  ct := B.encrypt recipient secret nonce (encodePlaintext cbor id expiresAt)

def openBox (sealed : SealedEnvelope) (secret epk : Key) (nonce : Nonce) : Except SealError Bytes :=
  match B.decrypt epk secret nonce sealed.ct with
  | none => .error .badSeal
  | some plaintext => match decode plaintext with
    | none => .error .badSeal
    | some (cbor, innerId, innerExpiresAt) =>
      if innerId ≠ sealed.id ∨ innerExpiresAt ≠ sealed.expiresAt then .error .badBinding
      else .ok cbor

def SealBox.unseal (sealed : SealedEnvelope) (secret : Key) :
    Except Panic (Except SealError Bytes) :=
  if sealed.alg ≠ sealAlgV1 then .ok (.error .unsupportedAlg)
  else match parseEpk sealed.epk with
    | .error reason => .ok (.error reason)
    | .ok epk => (parseNonce sealed.nonce).map (fun parsed =>
      parsed.bind (fun nonce => openBox B decode sealed secret epk nonce))

theorem parseNonce_returns (nonce : Bytes) : ∃ result, parseNonce nonce = .ok result := by
  unfold parseNonce nonceFromSlice
  split
  · exact ⟨_, rfl⟩
  · next length =>
    rw [dif_pos (not_not.mp length)]
    exact ⟨_, rfl⟩

variable {B decode} {sealed : SealedEnvelope} {secret : Key}

theorem unseal_returns (B : SealBox) (decode : Bytes → Option Plaintext) (sealed : SealedEnvelope)
    (secret : Key) : ∃ result, B.unseal decode sealed secret = .ok result := by
  unfold SealBox.unseal
  split
  · exact ⟨_, rfl⟩
  · split
    · exact ⟨_, rfl⟩
    · obtain ⟨parsed, eq⟩ := parseNonce_returns sealed.nonce
      rw [eq]
      exact ⟨_, rfl⟩

theorem unseal_parsed (epk : Key) (nonce : Nonce) (alg : sealed.alg = sealAlgV1)
    (sameEpk : epk.val = sealed.epk) (sameNonce : nonce.val = sealed.nonce) :
    B.unseal decode sealed secret = .ok (openBox B decode sealed secret epk nonce) := by
  have parsedEpk : parseEpk sealed.epk = .ok epk := by
    unfold parseEpk
    rw [dif_pos (sameEpk ▸ epk.property)]
    exact congrArg Except.ok (Subtype.ext sameEpk.symm)
  have parsedNonce : parseNonce sealed.nonce = .ok (.ok nonce) := by
    have length : sealed.nonce.length = 24 := sameNonce ▸ nonce.property
    unfold parseNonce nonceFromSlice
    rw [if_neg (not_not.mpr length), dif_pos length]
    exact congrArg (fun n => Except.ok (Except.ok n)) (Subtype.ext sameNonce.symm)
  unfold SealBox.unseal
  rw [if_neg (not_not.mpr alg), parsedEpk, parsedNonce]
  rfl

theorem of_unseal {cbor : Bytes} (opened : B.unseal decode sealed secret = .ok (.ok cbor)) :
    ∃ (epk : Key) (nonce : Nonce) (plaintext : Bytes), epk.val = sealed.epk ∧
      nonce.val = sealed.nonce ∧ B.decrypt epk secret nonce sealed.ct = some plaintext ∧
      decode plaintext = some (cbor, sealed.id, sealed.expiresAt) := by
  by_cases alg : sealed.alg = sealAlgV1
  swap
  · unfold SealBox.unseal at opened
    rw [if_pos alg] at opened
    cases opened
  by_cases epkLength : sealed.epk.length = 32
  swap
  · unfold SealBox.unseal parseEpk at opened
    rw [if_neg (not_not.mpr alg), dif_neg epkLength] at opened
    cases opened
  by_cases nonceLength : sealed.nonce.length = 24
  swap
  · unfold SealBox.unseal parseEpk parseNonce at opened
    rw [if_neg (not_not.mpr alg), dif_pos epkLength, if_pos nonceLength] at opened
    cases opened
  rw [unseal_parsed ⟨_, epkLength⟩ ⟨_, nonceLength⟩ alg rfl rfl] at opened
  refine ⟨⟨_, epkLength⟩, ⟨_, nonceLength⟩, ?_⟩
  unfold openBox at opened
  split at opened
  · cases opened
  · next plaintext decrypted =>
    split at opened
    · cases opened
    · next innerCbor innerId innerExpiresAt decoded =>
      split at opened
      · cases opened
      · next bound =>
        obtain ⟨sameId, sameExpiry⟩ := not_or.mp bound
        have same : innerCbor = cbor := Except.ok.inj (Except.ok.inj opened)
        refine ⟨plaintext, rfl, rfl, decrypted, ?_⟩
        rw [decoded, same, not_not.mp sameId, not_not.mp sameExpiry]

theorem unseal_sealFixed {performed : Encryption → Prop} {wire : SealedEnvelope → Prop}
    (ideal : B.Ideal performed wire) (reads : ReadsBack decode) {cbor : Bytes} {id : String}
    {expiresAt : Int} (sealable : Sealable cbor id expiresAt) (recipient ephemeral : Key)
    (nonce : Nonce) (id' : String) (expiresAt' : Int) :
    B.unseal decode
        { sealFixed B cbor id expiresAt (B.publicKey recipient) ephemeral nonce with
          id := id'
          expiresAt := expiresAt' } recipient =
      .ok (if id ≠ id' ∨ expiresAt ≠ expiresAt' then .error .badBinding else .ok cbor) := by
  rw [unseal_parsed (B.publicKey ephemeral) nonce rfl rfl rfl]
  unfold openBox sealFixed
  rw [ideal.opens]
  dsimp only
  rw [reads cbor id expiresAt sealable]

end Seal

/-- Under an ideal box: what was sealed is unsealed to the same bytes, no wire value makes the
recipient panic, what is unsealed was encrypted by some party with this header, and an honest
envelope with another id or expiry is never unsealed. -/
theorem seal_binds_header (B : SealBox) (performed : Encryption → Prop)
    (wire : SealedEnvelope → Prop)
    (decode : Bytes → Option Plaintext) (ideal : B.Ideal performed wire) (reads : ReadsBack decode)
    (recipient : Key) :
    (∀ cbor id expiresAt ephemeral nonce, Sealable cbor id expiresAt →
      B.unseal decode (sealFixed B cbor id expiresAt (B.publicKey recipient) ephemeral nonce)
        recipient = .ok (.ok cbor)) ∧
    (∀ sealed, ∃ result, B.unseal decode sealed recipient = .ok result) ∧
    (∀ sealed cbor, wire sealed → B.unseal decode sealed recipient = .ok (.ok cbor) →
      ∃ (secret : Key) (nonce : Nonce) (plaintext : Bytes),
        performed ⟨B.publicKey recipient, secret, nonce, plaintext⟩ ∧
        (B.publicKey secret).val = sealed.epk ∧ nonce.val = sealed.nonce ∧
        decode plaintext = some (cbor, sealed.id, sealed.expiresAt) ∧
        ∀ cbor' id' expiresAt', Sealable cbor' id' expiresAt' →
          plaintext = encodePlaintext cbor' id' expiresAt' →
          cbor' = cbor ∧ id' = sealed.id ∧ expiresAt' = sealed.expiresAt) ∧
    (∀ cbor id expiresAt ephemeral nonce id' expiresAt', Sealable cbor id expiresAt →
      (id', expiresAt') ≠ (id, expiresAt) → ∀ cbor',
      B.unseal decode
        { sealFixed B cbor id expiresAt (B.publicKey recipient) ephemeral nonce with
          id := id'
          expiresAt := expiresAt' } recipient ≠ .ok (.ok cbor')) := by
  refine ⟨?_, fun sealed => unseal_returns .., ?_, ?_⟩
  · intro cbor id expiresAt ephemeral nonce sealable
    have opened := unseal_sealFixed ideal reads sealable recipient ephemeral nonce id expiresAt
    rw [if_neg (by simp)] at opened
    exact opened
  · intro sealed cbor onWire opened
    obtain ⟨epk, nonce, plaintext, sameEpk, sameNonce, decrypted, decoded⟩ := of_unseal opened
    obtain ⟨secret, owner, made⟩ :=
      ideal.authentic sealed onWire epk recipient nonce plaintext sameEpk sameNonce decrypted
    refine ⟨secret, nonce, plaintext, made, owner ▸ sameEpk, sameNonce, decoded, ?_⟩
    rintro cbor' id' expiresAt' sealable rfl
    rw [reads cbor' id' expiresAt' sealable] at decoded
    obtain ⟨sameCbor, rest⟩ := Prod.mk.inj (Option.some.inj decoded)
    exact ⟨sameCbor, (Prod.mk.inj rest).1, (Prod.mk.inj rest).2⟩
  · intro cbor id expiresAt ephemeral nonce id' expiresAt' sealable changed cbor' opened
    have different : id ≠ id' ∨ expiresAt ≠ expiresAt' := by
      by_contra same
      obtain ⟨sameId, sameExpiry⟩ := not_or.mp same
      exact changed (by rw [not_not.mp sameId, not_not.mp sameExpiry])
    rw [unseal_sealFixed ideal reads sealable,
      if_pos different] at opened
    cases opened

def SealBox.plain : SealBox where
  publicKey key := key
  encrypt recipient secret nonce plaintext := recipient.val ++ secret.val ++ nonce.val ++ plaintext
  decrypt epk secret nonce ct :=
    if ct.take 88 = secret.val ++ epk.val ++ nonce.val then some (ct.drop 88) else none

def SealBox.plainWire (performed : Encryption → Prop) (sealed : SealedEnvelope) : Prop :=
  ∃ e, performed e ∧ sealed.ct = SealBox.plain.encrypt e.recipient e.secret e.nonce e.plaintext

theorem SealBox.plain_ideal (performed : Encryption → Prop) :
    SealBox.plain.Ideal performed (SealBox.plainWire performed) where
  opens recipient secret nonce plaintext := by
    have length : (recipient.val ++ secret.val ++ nonce.val).length = 88 := by
      simp [recipient.property, secret.property, nonce.property]
    unfold SealBox.plain
    dsimp only
    rw [take_left' length, drop_left' length, if_pos rfl]
  authentic sealed onWire epk recipient nonce plaintext _ _ opened := by
    obtain ⟨e, made, same⟩ := onWire
    have length : (e.recipient.val ++ e.secret.val ++ e.nonce.val).length = 88 := by
      simp [e.recipient.property, e.secret.property, e.nonce.property]
    unfold SealBox.plain at opened same
    dsimp only at opened same
    rw [same, take_left' length, drop_left' length] at opened
    split at opened
    swap
    · cases opened
    next keys =>
    obtain ⟨pair, sameNonce⟩ := append_inj' keys (by rw [e.nonce.property, nonce.property])
    obtain ⟨sameRecipient, sameSecret⟩ :=
      append_inj' pair (by rw [e.secret.property, epk.property])
    refine ⟨epk, rfl, ?_⟩
    have event : (⟨recipient, epk, nonce, plaintext⟩ : Encryption) = e := by
      rw [← Option.some.inj opened, ← Subtype.ext sameRecipient, ← Subtype.ext sameSecret,
        ← Subtype.ext sameNonce]
    exact event ▸ made

/-- One message was sealed; the holder of the key reads it, and its header cannot be changed. -/
theorem seal_binds_header_plain :
    let recipient : Key := ⟨List.replicate 32 7, rfl⟩
    let secret : Key := ⟨List.replicate 32 8, rfl⟩
    let nonce : Nonce := ⟨List.replicate 24 9, rfl⟩
    let performed := fun e => e = ⟨recipient, secret, nonce, encodePlaintext [1, 2] "a" 60⟩
    let sealed := sealFixed .plain [1, 2] "a" 60 recipient secret nonce
    SealBox.plain.Ideal performed (SealBox.plainWire performed) ∧ ReadsBack decodePlaintext ∧
      SealBox.plainWire performed sealed ∧
      SealBox.plain.unseal decodePlaintext sealed recipient = .ok (.ok [1, 2]) ∧
      ∀ cbor, SealBox.plain.unseal decodePlaintext { sealed with id := "b" } recipient ≠
        .ok (.ok cbor) := by
  intro recipient secret nonce performed sealed
  have ideal := SealBox.plain_ideal performed
  have binds := seal_binds_header .plain performed _ decodePlaintext ideal decodePlaintext_readsBack
    recipient
  have sealable : Sealable [1, 2] "a" 60 := ⟨by decide, by decide, by decide⟩
  refine ⟨ideal, decodePlaintext_readsBack, ⟨_, rfl, rfl⟩, binds.1 _ _ _ _ _ sealable, ?_⟩
  exact binds.2.2.2 [1, 2] "a" 60 secret nonce "b" 60 sealable (by decide)

end RelayFabric
