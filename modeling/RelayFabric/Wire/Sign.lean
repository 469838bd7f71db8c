/- source: fed/sign.rs, fed/domains.rs, node_identity.rs
   digest: Origin signatures and attestation chains, and what a chain that verifies proves. -/

import RelayFabric.Wire.Texts

namespace RelayFabric

open List Lib
open Lib.Cbor (Value)

/-- What `fed::sign` takes from `chrono`, `sha2`, `ed25519_dalek` and the standard library. -/
structure Platform extends Chrono where
  sha256 : Bytes → Bytes
  /-- `sort_unstable_by` on the content hash. -/
  sortBySha : List AttachmentMeta → List AttachmentMeta
  sign : String → Bytes → Bytes
  verify : String → Bytes → Bytes → Bool

/-- The documented behaviour of what computes without a key. -/
structure Platform.Faithful (P : Platform) : Prop where
  chrono : P.toChrono.Faithful
  sha256_length : ∀ bytes, (P.sha256 bytes).length = 32
  sort_perm : ∀ attachments, (P.sortBySha attachments).Perm attachments
  verify_length : ∀ node msg sig, P.verify node msg sig = true → sig.length = 64

def noiseStaticV1 : Bytes := utf8 "relayfabric-noise-static-v1:"

def envelopeV1 : Bytes := utf8 "relayfabric-envelope-v1:"

def attestV1 : Bytes := utf8 "relayfabric-attest-v1:"

def advertV1 : Bytes := utf8 "relayfabric-advert-v1:"

inductive SigError
  | missingOrigin | badSignature
  deriving DecidableEq, Repr

def AttachmentMeta.signed (a : AttachmentMeta) : Value :=
  .array [.text a.sha256, .text a.filename, .text a.mime, .uint a.size]

section Chain

variable (P : Platform)

def canonical (env : Envelope) : Value :=
  .array [.text env.id.toText, .text env.source.protocol, .text env.source.endpoint,
    .text env.sender.nativeRef, .text env.kind, .text env.body, .text (P.rfc3339 env.createdAt),
    .array ((P.sortBySha env.attachments).map AttachmentMeta.signed)]

def canonicalBytes (env : Envelope) : Bytes := (canonical P env).encode

def digestCanonical (env : Envelope) : Bytes := P.sha256 (canonicalBytes P env)

def originMessage (env : Envelope) : Bytes := envelopeV1 ++ canonicalBytes P env

def attestationMessage (digest prevSig : Bytes) (ts : Int) : Bytes :=
  attestV1 ++ (digest ++ (prevSig ++ utf8 (P.rfc3339 ts)))

def signOrigin (node : String) (env : Envelope) : OriginSig :=
  ⟨node, P.sign node (originMessage P env)⟩

def verifyOrigin (env : Envelope) : Except SigError Unit :=
  match env.origin with
  | none => .error .missingOrigin
  | some origin =>
    if P.verify origin.nodeId (originMessage P env) origin.sig then .ok () else .error .badSignature

def Envelope.tailSig (env : Envelope) : Option Bytes :=
  match env.attestations.getLast? with
  | some a => some a.sig
  | none => env.origin.map OriginSig.sig

def chainLink (node : String) (env : Envelope) (tail : Bytes) (now : Int) : Attestation :=
  ⟨node, now, P.sign node (attestationMessage P (digestCanonical P env) tail now)⟩

def appendAttestation (node : String) (now : Int) (env : Envelope) : Except SigError Envelope :=
  match env.tailSig with
  | none => .error .missingOrigin
  | some tail =>
    .ok { env with attestations := env.attestations ++ [chainLink P node env tail now] }

def verifyLinks (digest : Bytes) : Bytes → List Attestation → Bool
  | _, [] => true
  | prevSig, a :: rest =>
    P.verify a.nodeId (attestationMessage P digest prevSig a.ts) a.sig &&
      verifyLinks digest a.sig rest

def verifyChain (env : Envelope) : Except SigError Unit :=
  match verifyOrigin P env with
  | .error e => .error e
  | .ok () =>
    if verifyLinks P (digestCanonical P env) ((env.origin.map OriginSig.sig).getD [])
      env.attestations
    then .ok () else .error .badSignature

end Chain

/-- The golden vector of the source's tests. -/
example (sha256 : Bytes → Bytes) (sign : String → Bytes → Bytes)
    (verify : String → Bytes → Bytes → Bool) :
    canonicalBytes ⟨⟨fun _ => "", fun _ => none, fun _ => "2026-08-16T00:00:00+00:00"⟩, sha256,
        id, sign, verify⟩
      (Envelope.new ⟨0x0189f1e4111170008000000000000001⟩ 0 ⟨"mock", "chan"⟩ ⟨"!abcd1234"⟩ "text"
        "hello federation" 0 0 8) =
      [0x88, 0x78, 0x24] ++ utf8 "0189f1e4-1111-7000-8000-000000000001" ++ [0x64] ++ utf8 "mock" ++
        [0x64] ++ utf8 "chan" ++ [0x69] ++ utf8 "!abcd1234" ++ [0x64] ++ utf8 "text" ++ [0x70] ++
        utf8 "hello federation" ++ [0x78, 0x19] ++ utf8 "2026-08-16T00:00:00+00:00" ++ [0x80] := by
  rfl

structure Envelope.SameSigned (e x : Envelope) : Prop where
  id : e.id = x.id
  source : e.source = x.source
  sender : e.sender = x.sender
  kind : e.kind = x.kind
  body : e.body = x.body
  createdAt : e.createdAt = x.createdAt
  attachments : e.attachments.Perm x.attachments

section Bytes

variable {P : Platform} (faithful : P.Faithful)

theorem utf8_injective {s t : String} (same : utf8 s = utf8 t) : s = t := by
  have read := congrArg Cbor.ofUtf8 same
  have left : Cbor.ofUtf8 (utf8 s) = some s := Cbor.ofUtf8_utf8 s
  have right : Cbor.ofUtf8 (utf8 t) = some t := Cbor.ofUtf8_utf8 t
  rw [left, right] at read
  exact Option.some.inj read

theorem AttachmentMeta.signed_injective : Function.Injective AttachmentMeta.signed := by
  intro a b same
  obtain ⟨filename, mime, size, sha⟩ := a
  obtain ⟨filename', mime', size', sha'⟩ := b
  simp only [AttachmentMeta.signed, Value.array.injEq, List.cons.injEq, Value.text.injEq,
    Value.uint.injEq, and_true] at same
  obtain ⟨rfl, rfl, rfl, rfl⟩ := same
  rfl

include faithful in
theorem canonical_sound {env : Envelope} (held : env.Held) : Sound .cbor 4 (canonical P env) := by
  have tuple : ∀ a ∈ P.sortBySha env.attachments, Sound .cbor 2 a.signed := by
    intro a member
    have own := held.attachments.2 a ((faithful.sort_perm env.attachments).mem_iff.mp member)
    refine .array (by simp) ?_
    simp only [forall_mem_cons]
    exact ⟨.text own.sha256 0, .text own.filename 0, .text own.mime 0, .uint own.size 0, by simp⟩
  have count : (P.sortBySha env.attachments).length < 2 ^ 64 := by
    rw [(faithful.sort_perm env.attachments).length_eq]
    exact held.attachments.1
  refine .array (by simp) ?_
  simp only [forall_mem_cons]
  exact ⟨.text env.id.short_toText 2, .text held.protocol 2, .text held.endpoint 2,
    .text held.nativeRef 2, .text held.kind 2, .text held.body 2,
    .text (faithful.chrono.rfc3339_short _) 2, .items count tuple, by simp⟩

variable {e x : Envelope}

include faithful in
theorem sameSigned_of_canonicalBytes (held : e.Held) (held' : x.Held)
    (same : canonicalBytes P e = canonicalBytes P x) : e.SameSigned x := by
  have values := Value.encode_inj (canonical_sound faithful held).fits
    (canonical_sound faithful held').fits same
  simp only [canonical, Value.array.injEq, List.cons.injEq, Value.text.injEq, and_true] at values
  obtain ⟨id, protocol, endpoint, ref, kind, body, created, attachments⟩ := values
  have sorted := AttachmentMeta.signed_injective.list_map attachments
  refine ⟨Uuid.toText_injective id, ?_, ?_, kind, body, ?_, ?_⟩
  · calc e.source = ⟨e.source.protocol, e.source.endpoint⟩ := rfl
      _ = ⟨x.source.protocol, x.source.endpoint⟩ := by rw [protocol, endpoint]
      _ = x.source := rfl
  · calc e.sender = ⟨e.sender.nativeRef⟩ := rfl
      _ = ⟨x.sender.nativeRef⟩ := by rw [ref]
      _ = x.sender := rfl
  · exact faithful.chrono.rfc3339_inj _ _ held.createdAt held'.createdAt created
  · have left := (faithful.sort_perm e.attachments).symm
    rw [sorted] at left
    exact left.trans (faithful.sort_perm x.attachments)

def AttachmentMeta.ShaLe (a b : AttachmentMeta) : Prop := a.sha256 ≤ b.sha256

/-- The sort sorts, and leaves alone what is sorted: up to 20 elements it inserts one by one, and
above that it returns at once when the whole slice is an ascending run. -/
structure Platform.Sorting (P : Platform) : Prop where
  sorted : ∀ attachments, (P.sortBySha attachments).Pairwise AttachmentMeta.ShaLe
  settled : ∀ attachments : List AttachmentMeta, attachments.Pairwise AttachmentMeta.ShaLe →
    P.sortBySha attachments = attachments

/-- Attachments with one content hash have one description. -/
def Envelope.HashedApart (env : Envelope) : Prop :=
  ∀ a ∈ env.attachments, ∀ b ∈ env.attachments, a.sha256 = b.sha256 → a = b

include faithful in
theorem sortBySha_eq_of_perm (sorting : P.Sorting) (apart : e.HashedApart)
    (perm : e.attachments.Perm x.attachments) :
    P.sortBySha e.attachments = P.sortBySha x.attachments := by
  have left := faithful.sort_perm e.attachments
  have right := (faithful.sort_perm x.attachments).trans perm.symm
  refine List.Perm.eq_of_pairwise ?_ (sorting.sorted e.attachments) (sorting.sorted x.attachments)
    (left.trans right.symm)
  intro a b among among' le ge
  exact apart a (left.mem_iff.mp among) b (right.mem_iff.mp among') (le_antisymm le ge)

theorem canonicalBytes_eq_of_sameSigned (same : e.SameSigned x)
    (sorts : P.sortBySha e.attachments = P.sortBySha x.attachments) :
    canonicalBytes P e = canonicalBytes P x := by
  unfold canonicalBytes canonical
  rw [same.id, same.source, same.sender, same.kind, same.body, same.createdAt, sorts]

theorem exists_swap {α : Type} {items : List α} {a b : α} (among : a ∈ items) (among' : b ∈ items)
    (differ : a ≠ b) : ∃ x y left middle right, ((x = a ∧ y = b) ∨ (x = b ∧ y = a)) ∧
      items = left ++ x :: (middle ++ y :: right) := by
  obtain ⟨left, right, rfl⟩ := append_of_mem among
  rcases mem_append.mp among' with before | after
  · obtain ⟨front, middle, rfl⟩ := append_of_mem before
    exact ⟨b, a, front, middle, right, .inr ⟨rfl, rfl⟩, by simp⟩
  · rcases mem_cons.mp after with rfl | after
    · exact absurd rfl differ
    · obtain ⟨middle, rest, rfl⟩ := append_of_mem after
      exact ⟨a, b, left, middle, rest, .inl ⟨rfl, rfl⟩, rfl⟩

include faithful in
theorem exists_reordered (sorting : P.Sorting) (shared : ¬ e.HashedApart) :
    ∃ others : List AttachmentMeta, e.attachments.Perm others ∧
      P.sortBySha others ≠ P.sortBySha e.attachments := by
  unfold Envelope.HashedApart at shared
  push Not at shared
  obtain ⟨a, among, b, among', hash, differ⟩ := shared
  have perm := faithful.sort_perm e.attachments
  obtain ⟨x, y, left, middle, right, which, split⟩ :=
    exists_swap (perm.mem_iff.mpr among) (perm.mem_iff.mpr among') differ
  have equal : x.sha256 = y.sha256 := by
    rcases which with ⟨rfl, rfl⟩ | ⟨rfl, rfl⟩
    · exact hash
    · exact hash.symm
  have other : x ≠ y := by
    rcases which with ⟨rfl, rfl⟩ | ⟨rfl, rfl⟩
    · exact differ
    · exact differ.symm
  have swapped :
      (left ++ y :: (middle ++ x :: right)).Perm (left ++ x :: (middle ++ y :: right)) := by
    refine List.Perm.append_left left ?_
    calc (y :: (middle ++ x :: right)).Perm (y :: x :: (middle ++ right)) := perm_middle.cons y
      _ |>.Perm (x :: y :: (middle ++ right)) := List.Perm.swap x y _
      _ |>.Perm (x :: (middle ++ y :: right)) := perm_middle.symm.cons x
  -- the sort looks at the hashes alone, and the swap does not change their list
  have hashes : (left ++ y :: (middle ++ x :: right)).Pairwise AttachmentMeta.ShaLe := by
    have ordered : ((left ++ x :: (middle ++ y :: right)).map AttachmentMeta.sha256).Pairwise
        (· ≤ ·) := pairwise_map.mpr (split ▸ sorting.sorted e.attachments)
    have keys : (left ++ x :: (middle ++ y :: right)).map AttachmentMeta.sha256 =
        (left ++ y :: (middle ++ x :: right)).map AttachmentMeta.sha256 := by
      simp [equal]
    rw [keys] at ordered
    show List.Pairwise (fun a b : AttachmentMeta => a.sha256 ≤ b.sha256) _
    exact pairwise_map.mp ordered
  refine ⟨left ++ y :: (middle ++ x :: right), ?_, ?_⟩
  · exact (swapped.trans (split ▸ perm)).symm
  · rw [sorting.settled _ hashes, split]
    intro same
    exact other (List.cons.inj (append_cancel_left same)).1.symm

include faithful in
/-- For one envelope, the bytes identify the content exactly when its attachments with one hash
have one description. -/
theorem canonicalBytes_canonical_iff (sorting : P.Sorting) {e : Envelope} (held : e.Held) :
    (∀ x : Envelope, x.Held → (canonicalBytes P e = canonicalBytes P x ↔ e.SameSigned x)) ↔
      e.HashedApart := by
  constructor
  · intro identifies
    by_contra shared
    obtain ⟨others, perm, differ⟩ := exists_reordered faithful sorting shared
    have heldOther : Envelope.Held { e with attachments := others } :=
      { held with attachments := ⟨perm.length_eq ▸ held.attachments.1,
          fun a among => held.attachments.2 a (perm.mem_iff.mpr among)⟩ }
    have same : e.SameSigned { e with attachments := others } :=
      ⟨rfl, rfl, rfl, rfl, rfl, rfl, perm⟩
    have bytes := (identifies _ heldOther).mpr same
    have values := Value.encode_inj (canonical_sound faithful held).fits
      (canonical_sound faithful heldOther).fits bytes
    simp only [canonical, Value.array.injEq, List.cons.injEq, and_true, true_and] at values
    exact differ (AttachmentMeta.signed_injective.list_map values).symm
  · intro apart x held'
    constructor
    · exact sameSigned_of_canonicalBytes faithful held held'
    · intro same
      exact canonicalBytes_eq_of_sameSigned same
        (sortBySha_eq_of_perm faithful sorting apart same.attachments)

theorem domains_apart {domain domain' : Bytes} (long : 14 ≤ domain.length)
    (long' : 14 ≤ domain'.length) (differ : domain.take 14 ≠ domain'.take 14) (a b : Bytes) :
    domain ++ a ≠ domain' ++ b := by
  intro same
  have front := congrArg (List.take 14) same
  rw [take_append_of_le_length long, take_append_of_le_length long'] at front
  exact differ front

include faithful in
theorem attestationMessage_inj {digest digest' prev prev' : Bytes} {ts ts' : Int}
    (digests : digest.length = digest'.length) (prevs : prev.length = prev'.length)
    (range : InRange ts) (range' : InRange ts')
    (same : attestationMessage P digest prev ts = attestationMessage P digest' prev' ts') :
    digest = digest' ∧ prev = prev' ∧ ts = ts' := by
  have rest := append_cancel_left same
  obtain ⟨first, rest⟩ := append_inj rest digests
  obtain ⟨second, third⟩ := append_inj rest prevs
  exact ⟨first, second, faithful.chrono.rfc3339_inj _ _ range range' (utf8_injective third)⟩

end Bytes

section Chains

variable {P : Platform}

def lastSig (prev : Bytes) (links : List Attestation) : Bytes :=
  (links.getLast?.map Attestation.sig).getD prev

theorem lastSig_cons (prev : Bytes) (a : Attestation) (links : List Attestation) :
    lastSig prev (a :: links) = lastSig a.sig links := by
  unfold lastSig
  rw [List.getLast?_cons]
  cases links.getLast? <;> rfl

theorem lastSig_concat (prev : Bytes) (links : List Attestation) (a : Attestation) :
    lastSig prev (links ++ [a]) = a.sig := by
  simp [lastSig]

theorem tailSig_eq {env : Envelope} {o : OriginSig} (signed : env.origin = some o) :
    env.tailSig = some (lastSig o.sig env.attestations) := by
  unfold Envelope.tailSig lastSig
  rw [signed]
  cases env.attestations.getLast? <;> rfl

theorem verifyLinks_append (digest prev : Bytes) (left right : List Attestation) :
    verifyLinks P digest prev (left ++ right) =
      (verifyLinks P digest prev left && verifyLinks P digest (lastSig prev left) right) := by
  induction left generalizing prev with
  | nil => rfl
  | cons a left ih =>
    simp only [cons_append, verifyLinks, ih, lastSig_cons, Bool.and_assoc]

variable {links : List Attestation}

theorem verifyLinks_concat {digest prev : Bytes} {a : Attestation} :
    verifyLinks P digest prev (links ++ [a]) = true ↔ verifyLinks P digest prev links = true ∧
      P.verify a.nodeId (attestationMessage P digest (lastSig prev links) a.ts) a.sig = true := by
  simp [verifyLinks_append, verifyLinks]

theorem verifyChain_ok {env : Envelope} : verifyChain P env = .ok () ↔
    ∃ o, env.origin = some o ∧ P.verify o.nodeId (originMessage P env) o.sig = true ∧
      verifyLinks P (digestCanonical P env) o.sig env.attestations = true := by
  unfold verifyChain verifyOrigin
  cases signed : env.origin with
  | none => simp
  | some o =>
    by_cases first : P.verify o.nodeId (originMessage P env) o.sig = true
    · simp [first]
    · simp [first]

variable (faithful : P.Faithful)

include faithful in
theorem lastSig_length {digest prev : Bytes} (start : prev.length = 64)
    (verified : verifyLinks P digest prev links = true) : (lastSig prev links).length = 64 := by
  induction links generalizing prev with
  | nil => exact start
  | cons a links ih =>
    simp only [verifyLinks, Bool.and_eq_true] at verified
    have size := faithful.verify_length _ _ _ verified.1
    rw [lastSig_cons]
    exact ih size verified.2

/-- In a symbolic model a signature is a term: it names its signer and its message. -/
def Platform.Binding (P : Platform) : Prop :=
  ∀ node msg node' msg' sig, P.verify node msg sig = true → P.verify node' msg' sig = true →
    node = node' ∧ msg = msg'

theorem attest_ne_origin (digest prev : Bytes) (ts : Int) (env : Envelope) :
    attestationMessage P digest prev ts ≠ originMessage P env :=
  domains_apart (by decide) (by decide) (by decide) _ _

include faithful in
theorem links_of_lastSig (binding : P.Binding) {e x : Envelope} {o o' : OriginSig}
    (first : P.verify o.nodeId (originMessage P e) o.sig = true)
    (first' : P.verify o'.nodeId (originMessage P x) o'.sig = true) {links' : List Attestation}
    (range : ∀ a ∈ links, InRange a.ts) (range' : ∀ a ∈ links', InRange a.ts)
    (verified : verifyLinks P (digestCanonical P e) o.sig links = true)
    (verified' : verifyLinks P (digestCanonical P x) o'.sig links' = true)
    (same : lastSig o.sig links = lastSig o'.sig links') : o = o' ∧ links = links' := by
  -- from the end of both chains: equal signatures have equal messages, which name what came before
  induction links using List.reverseRecOn generalizing links' with
  | nil =>
    rcases eq_nil_or_concat' links' with rfl | ⟨before', a', rfl⟩
    · have equal : o.sig = o'.sig := same
      obtain ⟨node, _⟩ := binding _ _ _ _ _ first (equal ▸ first')
      refine ⟨?_, rfl⟩
      calc o = ⟨o.nodeId, o.sig⟩ := rfl
        _ = ⟨o'.nodeId, o'.sig⟩ := by rw [node, equal]
        _ = o' := rfl
    · obtain ⟨_, link⟩ := verifyLinks_concat.mp verified'
      rw [lastSig_concat] at same
      have equal : o.sig = a'.sig := same
      obtain ⟨_, message⟩ := binding _ _ _ _ _ link (equal ▸ first)
      exact absurd message (attest_ne_origin _ _ _ _)
  | append_singleton before a ih =>
    obtain ⟨earlier, link⟩ := verifyLinks_concat.mp verified
    rw [lastSig_concat] at same
    rcases eq_nil_or_concat' links' with rfl | ⟨before', a', rfl⟩
    · have equal : a.sig = o'.sig := same
      obtain ⟨_, message⟩ := binding _ _ _ _ _ link (equal ▸ first')
      exact absurd message (attest_ne_origin _ _ _ _)
    · obtain ⟨earlier', link'⟩ := verifyLinks_concat.mp verified'
      rw [lastSig_concat] at same
      obtain ⟨node, message⟩ := binding _ _ _ _ _ link (same ▸ link')
      have size := lastSig_length faithful (faithful.verify_length _ _ _ first) earlier
      have size' := lastSig_length faithful (faithful.verify_length _ _ _ first') earlier'
      have digests : (digestCanonical P e).length = (digestCanonical P x).length := by
        rw [digestCanonical, digestCanonical, faithful.sha256_length, faithful.sha256_length]
      obtain ⟨_, tail, ts⟩ := attestationMessage_inj faithful digests (size.trans size'.symm)
        (range a (by simp)) (range' a' (by simp)) message
      obtain ⟨origin, rest⟩ := ih (fun a member => range a (mem_append_left _ member))
        (fun a member => range' a (mem_append_left _ member)) earlier earlier' tail
      refine ⟨origin, ?_⟩
      have equal : a = a' :=
        calc a = ⟨a.nodeId, a.ts, a.sig⟩ := rfl
          _ = ⟨a'.nodeId, a'.ts, a'.sig⟩ := by rw [node, ts, same]
          _ = a' := rfl
      rw [rest, equal]

end Chains

inductive SigningCall
  | origin (env : Envelope)
  | attest (env : Envelope) (now : Int)
  | advert (document : Bytes)
  | noiseStatic (key : Bytes)

def SigningCall.message (P : Platform) : SigningCall → Option Bytes
  | .origin env => some (originMessage P env)
  | .attest env now =>
    env.tailSig.map (fun tail => attestationMessage P (digestCanonical P env) tail now)
  | .advert document => some (advertV1 ++ document)
  | .noiseStatic key => some (noiseStaticV1 ++ key)

/-- Honest keys sign what is logged and nobody signs for them; the logged envelopes are values of
the source's types with signatures of 64 bytes. -/
structure HonestLog (P : Platform) (honest : String → Prop) (log : String → SigningCall → Prop) :
    Prop where
  unforgeable : ∀ node msg sig, honest node → P.verify node msg sig = true →
    ∃ call, log node call ∧ call.message P = some msg ∧ sig = P.sign node msg
  signed : ∀ node env, log node (.origin env) → env.Held
  attested : ∀ node env now, log node (.attest env now) →
    env.Held ∧ InRange now ∧ ∀ tail ∈ env.tailSig, tail.length = 64

/-- The links are those that logged calls of `append_attestation` made, each on an envelope with the
signed fields of `e` and with the signature of the link before, the first one with the signature of
the origin. -/
inductive Appended (P : Platform) (log : String → SigningCall → Prop) (e : Envelope) :
    List Attestation → Prop
  | none : Appended P log e []
  | link {links : List Attestation} {node : String} {x : Envelope} {now : Int} {tail : Bytes}
      (before : Appended P log e links) (call : log node (.attest x now)) (same : e.SameSigned x)
      (chained : x.tailSig = some tail)
      (follows : { e with attestations := links }.tailSig = some tail) :
      Appended P log e (links ++ [chainLink P node x tail now])

/-- No logged call attests an envelope whose signed bytes collide with those of `e`. -/
def CollisionFree (P : Platform) (log : String → SigningCall → Prop) (e : Envelope) : Prop :=
  ∀ node x now, log node (.attest x now) → digestCanonical P x = digestCanonical P e →
    canonicalBytes P x = canonicalBytes P e

section Honest

variable {P : Platform} (faithful : P.Faithful) {honest : String → Prop}
  {log : String → SigningCall → Prop} (model : HonestLog P honest log) {e : Envelope}

include model in
theorem origin_call {node : String} {sig : Bytes} (honestly : honest node)
    (verified : P.verify node (originMessage P e) sig = true) :
    ∃ x, log node (.origin x) ∧ canonicalBytes P e = canonicalBytes P x ∧
      sig = P.sign node (originMessage P x) := by
  obtain ⟨call, logged, message, made⟩ := model.unforgeable _ _ _ honestly verified
  cases call with
  | origin x =>
    have same : originMessage P x = originMessage P e := Option.some.inj message
    refine ⟨x, logged, (append_cancel_left same).symm, ?_⟩
    rw [same]
    exact made
  | attest x now =>
    obtain ⟨tail, _, same⟩ := Option.map_eq_some_iff.mp message
    exact absurd same (attest_ne_origin _ _ _ _)
  | advert document =>
    have same : advertV1 ++ document = originMessage P e := Option.some.inj message
    exact absurd same (domains_apart (by decide) (by decide) (by decide) _ _)
  | noiseStatic key =>
    have same : noiseStaticV1 ++ key = originMessage P e := Option.some.inj message
    exact absurd same (domains_apart (by decide) (by decide) (by decide) _ _)

include faithful model in
theorem attest_call (apart : CollisionFree P log e) {node : String} {prev sig : Bytes} {ts : Int}
    (honestly : honest node) (size : prev.length = 64) (range : InRange ts)
    (verified : P.verify node (attestationMessage P (digestCanonical P e) prev ts) sig = true) :
    ∃ x, log node (.attest x ts) ∧ canonicalBytes P e = canonicalBytes P x ∧ x.tailSig = some prev ∧
      (⟨node, ts, sig⟩ : Attestation) = chainLink P node x prev ts := by
  obtain ⟨call, logged, message, made⟩ := model.unforgeable _ _ _ honestly verified
  cases call with
  | attest x now =>
    obtain ⟨tail, found, same⟩ := Option.map_eq_some_iff.mp message
    obtain ⟨_, range', sized⟩ := model.attested node x now logged
    have digests : (digestCanonical P x).length = (digestCanonical P e).length := by
      rw [digestCanonical, digestCanonical, faithful.sha256_length, faithful.sha256_length]
    obtain ⟨digest, rfl, rfl⟩ := attestationMessage_inj faithful digests
      ((sized tail found).trans size.symm) range' range same
    refine ⟨x, logged, (apart node x now logged digest).symm, found, ?_⟩
    unfold chainLink
    rw [digest, made]
  | origin x =>
    have same : originMessage P x = attestationMessage P (digestCanonical P e) prev ts :=
      Option.some.inj message
    exact absurd same.symm (attest_ne_origin _ _ _ _)
  | advert document =>
    have same : advertV1 ++ document = attestationMessage P (digestCanonical P e) prev ts :=
      Option.some.inj message
    exact absurd same (domains_apart (by decide) (by decide) (by decide) _ _)
  | noiseStatic key =>
    have same : noiseStaticV1 ++ key = attestationMessage P (digestCanonical P e) prev ts :=
      Option.some.inj message
    exact absurd same (domains_apart (by decide) (by decide) (by decide) _ _)

include faithful model in
theorem appended_links (apart : CollisionFree P log e) (held : e.Held) {o : OriginSig}
    (signed : e.origin = some o) (start : o.sig.length = 64) {links : List Attestation}
    (honestly : ∀ a ∈ links, honest a.nodeId) (range : ∀ a ∈ links, InRange a.ts)
    (verified : verifyLinks P (digestCanonical P e) o.sig links = true) :
    Appended P log e links := by
  induction links using List.reverseRecOn with
  | nil => exact .none
  | append_singleton before a ih =>
    obtain ⟨earlier, link⟩ := verifyLinks_concat.mp verified
    have rest := ih (fun a member => honestly a (mem_append_left _ member))
      (fun a member => range a (mem_append_left _ member)) earlier
    obtain ⟨x, logged, bytes, found, made⟩ := attest_call faithful model apart
      (honestly a (by simp)) (lastSig_length faithful start earlier) (range a (by simp)) link
    have same := sameSigned_of_canonicalBytes faithful held (model.attested _ _ _ logged).1 bytes
    have follows : { e with attestations := before }.tailSig = some (lastSig o.sig before) :=
      tailSig_eq signed
    rw [show a = chainLink P a.nodeId x (lastSig o.sig before) a.ts from made]
    exact .link rest logged same found follows

theorem verifyChain_take (verified : verifyChain P e = .ok ()) (k : Nat) :
    verifyChain P { e with attestations := e.attestations.take k } = .ok () := by
  obtain ⟨o, signed, first, links⟩ := verifyChain_ok.mp verified
  refine verifyChain_ok.mpr ⟨o, signed, first, ?_⟩
  have split : e.attestations.take k ++ e.attestations.drop k = e.attestations :=
    take_append_drop k e.attestations
  rw [← split, verifyLinks_append, Bool.and_eq_true] at links
  exact links.1

include faithful model in
theorem links_of_call (held : e.Held) (apart : CollisionFree P log e) (binding : P.Binding)
    (checked : ∀ node x now, log node (.attest x now) → verifyChain P x = .ok ()) {o : OriginSig}
    (signed : e.origin = some o) (first : P.verify o.nodeId (originMessage P e) o.sig = true)
    (byLinks : ∀ a ∈ e.attestations, honest a.nodeId)
    (links : verifyLinks P (digestCanonical P e) o.sig e.attestations = true)
    (linked : e.attestations ≠ []) :
    ∃ node x now, log node (.attest x now) ∧ x.origin = e.origin ∧ e.SameSigned x ∧
      appendAttestation P node now x = .ok { x with attestations := e.attestations } := by
  obtain none | ⟨before, a, whole⟩ := eq_nil_or_concat' e.attestations
  · exact absurd none linked
  have range := held.attestations.2
  rw [whole] at links byLinks range
  obtain ⟨earlier, link⟩ := verifyLinks_concat.mp links
  have size := lastSig_length faithful (faithful.verify_length _ _ _ first) earlier
  obtain ⟨x, logged, bytes, found, made⟩ := attest_call faithful model apart (byLinks a (by simp))
    size (range a (by simp)).ts link
  have own := (model.attested _ _ _ logged).1
  obtain ⟨o', signed', first', links'⟩ := verifyChain_ok.mp (checked _ _ _ logged)
  have tails : lastSig o.sig before = lastSig o'.sig x.attestations := by
    rw [tailSig_eq signed'] at found
    exact (Option.some.inj found).symm
  obtain ⟨origins, lists⟩ := links_of_lastSig faithful binding first first'
    (fun a member => (range a (mem_append_left _ member)).ts)
    (fun a member => (own.attestations.2 a member).ts) earlier links' tails
  refine ⟨a.nodeId, x, a.ts, logged, by rw [signed', signed, origins],
    sameSigned_of_canonicalBytes faithful held own bytes, ?_⟩
  subst lists
  have same : a = chainLink P a.nodeId x (lastSig o.sig x.attestations) a.ts := made
  unfold appendAttestation
  rw [found, whole]
  dsimp only
  rw [← same]

include faithful model in
/-- Of an envelope whose chain verifies under honest node ids: its signed fields are those its
origin signed, and its links are those that honest calls made one after the other. Every chain cut
at its end still verifies. -/
theorem chain_tamper_evident (held : e.Held) (verified : verifyChain P e = .ok ())
    (byOrigin : ∀ o ∈ e.origin, honest o.nodeId) (byLinks : ∀ a ∈ e.attestations, honest a.nodeId)
    (apart : CollisionFree P log e) :
    ∃ o, e.origin = some o ∧
      (∃ x, log o.nodeId (.origin x) ∧ o = signOrigin P o.nodeId x ∧ e.SameSigned x) ∧
      Appended P log e e.attestations ∧
      (P.Binding → (∀ node x now, log node (.attest x now) → verifyChain P x = .ok ()) →
        e.attestations ≠ [] → ∃ node x now, log node (.attest x now) ∧ x.origin = e.origin ∧
          e.SameSigned x ∧
          appendAttestation P node now x = .ok { x with attestations := e.attestations }) ∧
      ∀ k, verifyChain P { e with attestations := e.attestations.take k } = .ok () := by
  obtain ⟨o, signed, first, links⟩ := verifyChain_ok.mp verified
  obtain ⟨x, logged, bytes, made⟩ := origin_call model (byOrigin o signed) first
  refine ⟨o, signed, ⟨x, logged, ?_, ?_⟩, ?_, ?_, verifyChain_take verified⟩
  · calc o = ⟨o.nodeId, o.sig⟩ := rfl
      _ = signOrigin P o.nodeId x := by rw [made, signOrigin]
  · exact sameSigned_of_canonicalBytes faithful held (model.signed _ _ logged) bytes
  · exact appended_links faithful model apart held signed
      (faithful.verify_length _ _ _ first) byLinks
      (fun a member => (held.attestations.2 a member).ts) links
  · intro binding checked linked
    exact links_of_call faithful model held apart binding checked signed first byLinks links linked

end Honest

def bookToken (n : UInt8) : Bytes := List.replicate 63 0 ++ [n]

def Platform.unsigned : Platform :=
  ⟨.gregorian, fun _ => List.replicate 32 0, id, fun _ _ => [], fun _ _ _ => false⟩

instance : DecidableRel AttachmentMeta.ShaLe :=
  fun a b => inferInstanceAs (Decidable (a.sha256 ≤ b.sha256))

instance : Std.Total AttachmentMeta.ShaLe := ⟨fun a b => le_total a.sha256 b.sha256⟩

instance : IsTrans AttachmentMeta AttachmentMeta.ShaLe :=
  ⟨fun _ _ _ first second => le_trans first second⟩

def Platform.inserting : Platform :=
  { Platform.unsigned with
    sortBySha := fun attachments => attachments.insertionSort AttachmentMeta.ShaLe }

theorem Platform.inserting_faithful : Platform.inserting.Faithful :=
  ⟨Chrono.gregorian_faithful, fun _ => rfl, fun attachments => perm_insertionSort _ attachments,
    fun _ _ _ verified => absurd verified Bool.false_ne_true⟩

theorem Platform.inserting_sorting : Platform.inserting.Sorting :=
  ⟨fun attachments => pairwise_insertionSort _ attachments, fun _ sorted => sorted.insertionSort_eq⟩

def Envelope.withFiles (first second : AttachmentMeta) : Envelope :=
  { Envelope.hello ⟨7⟩ with attachments := [first, second] }

/-- One blob under two file names, in either order: the content is the same and the bytes are
not. -/
theorem canonicalBytes_order_of_shared_hash :
    let first : AttachmentMeta := ⟨"a.txt", "text/plain", 5, "2c"⟩
    let second : AttachmentMeta := ⟨"b.txt", "text/plain", 5, "2c"⟩
    (Envelope.withFiles first second).SameSigned (.withFiles second first) ∧
      canonicalBytes .inserting (.withFiles first second) ≠
        canonicalBytes .inserting (.withFiles second first) :=
  ⟨⟨rfl, rfl, rfl, rfl, rfl, rfl, List.Perm.swap _ _ _⟩, by decide +kernel⟩

def Envelope.signedGreeting : Envelope :=
  { Envelope.hello ⟨7⟩ with origin := some ⟨"rf:a", bookToken 0⟩ }

def Envelope.sentGreeting : Envelope :=
  { Envelope.signedGreeting with attestations := [⟨"rf:a", 0, bookToken 1⟩], hops := 1 }

def Envelope.relayedGreeting : Envelope :=
  { Envelope.signedGreeting with
    attestations := [⟨"rf:a", 0, bookToken 1⟩, ⟨"rf:b", 1, bookToken 2⟩]
    hops := 2 }

def signatureBook : List (String × Bytes × Bytes) :=
  [("rf:a", originMessage .unsigned (.hello ⟨7⟩), bookToken 0),
    ("rf:a", attestationMessage .unsigned (List.replicate 32 0) (bookToken 0) 0, bookToken 1),
    ("rf:b", attestationMessage .unsigned (List.replicate 32 0) (bookToken 1) 1, bookToken 2)]

def Platform.bookkeeping : Platform :=
  { Platform.unsigned with
    sign := fun node msg =>
      ((signatureBook.find? (fun row => row.1 == node && row.2.1 == msg)).map
        (fun row => row.2.2)).getD []
    verify := fun node msg sig => decide ((node, msg, sig) ∈ signatureBook) }

def greetingLog (node : String) (call : SigningCall) : Prop :=
  (node, call) ∈ [("rf:a", SigningCall.origin (.hello ⟨7⟩)), ("rf:a", .attest .signedGreeting 0),
    ("rf:b", .attest .sentGreeting 1)]

private theorem greetingLog_attest {node : String} {x : Envelope} {now : Int}
    (logged : greetingLog node (.attest x now)) :
    (node = "rf:a" ∧ x = .signedGreeting ∧ now = 0) ∨
      (node = "rf:b" ∧ x = .sentGreeting ∧ now = 1) := by
  simpa [greetingLog] using logged

private theorem verified_in_book {node : String} {msg sig : Bytes}
    (verified : Platform.bookkeeping.verify node msg sig = true) :
    (node, msg, sig) ∈ signatureBook :=
  of_decide_eq_true verified

private theorem bookkeeping_faithful : Platform.bookkeeping.Faithful := by
  refine ⟨Chrono.gregorian_faithful, fun _ => rfl, fun _ => List.Perm.refl _, ?_⟩
  intro node msg sig verified
  have row := verified_in_book verified
  simp only [signatureBook, mem_cons, Prod.mk.injEq, not_mem_nil, or_false] at row
  rcases row with ⟨_, _, rfl⟩ | ⟨_, _, rfl⟩ | ⟨_, _, rfl⟩ <;> rfl

private theorem bookkeeping_binding : Platform.bookkeeping.Binding := by
  have apart : ∀ row ∈ signatureBook, ∀ row' ∈ signatureBook, row.2.2 = row'.2.2 → row = row' := by
    decide +kernel
  intro node msg node' msg' sig verified verified'
  have same := apart _ (verified_in_book verified) _ (verified_in_book verified') rfl
  simpa using same

private theorem signedGreeting_held : Envelope.signedGreeting.Held := by
  refine ⟨by decide, by decide, by decide, by decide, by decide, by decide, by decide, by decide,
    by decide, by decide, by decide, ⟨by decide, fun a member => absurd member not_mem_nil⟩,
    by decide, ?_, ⟨by decide, fun a member => absurd member not_mem_nil⟩, by decide⟩
  intro o is
  cases is
  exact ⟨by decide, by decide⟩

/-- Two blobs, in either order, give the same bytes. -/
theorem canonicalBytes_canonical_files :
    let first : AttachmentMeta := ⟨"a.txt", "text/plain", 5, "2c"⟩
    let second : AttachmentMeta := ⟨"b.txt", "text/plain", 6, "f0"⟩
    (Envelope.withFiles first second).HashedApart ∧
      canonicalBytes .inserting (.withFiles first second) =
        canonicalBytes .inserting (.withFiles second first) := by
  intro first second
  have each : ∀ a ∈ [first, second], a.Held := by
    simp only [forall_mem_cons]
    exact ⟨⟨by decide, by decide, by decide, by decide⟩,
      ⟨by decide, by decide, by decide, by decide⟩, by simp⟩
  have held : ∀ files : List AttachmentMeta, files.Perm [first, second] →
      Envelope.Held { Envelope.hello ⟨7⟩ with attachments := files } := by
    intro files perm
    exact { signedGreeting_held with
      attachments := ⟨by rw [perm.length_eq]; decide, fun a among => each a (perm.mem_iff.mp among)⟩
      origin := nofun }
  have apart : (Envelope.withFiles first second).HashedApart := by
    unfold Envelope.HashedApart
    decide +kernel
  have swap : [second, first].Perm [first, second] := List.Perm.swap _ _ _
  have identifies := (canonicalBytes_canonical_iff Platform.inserting_faithful
    Platform.inserting_sorting (held _ (List.Perm.refl _))).mpr apart
  exact ⟨apart, (identifies _ (held _ swap)).mpr ⟨rfl, rfl, rfl, rfl, rfl, rfl, swap.symm⟩⟩

private theorem sentGreeting_held : Envelope.sentGreeting.Held := by
  refine { signedGreeting_held with attestations := ⟨by decide, ?_⟩, hops := by decide }
  intro a member
  obtain rfl := mem_singleton.mp member
  exact ⟨by decide, by decide, by decide⟩

private theorem relayedGreeting_held : Envelope.relayedGreeting.Held := by
  refine { signedGreeting_held with attestations := ⟨by decide, ?_⟩, hops := by decide }
  intro a member
  rcases mem_cons.mp member with rfl | member
  · exact ⟨by decide, by decide, by decide⟩
  · obtain rfl := mem_singleton.mp member
    exact ⟨by decide, by decide, by decide⟩

private theorem greeting_honest : HonestLog .bookkeeping (fun _ => True) greetingLog := by
  refine ⟨?_, ?_, ?_⟩
  · intro node msg sig _ verified
    have row := verified_in_book verified
    simp only [signatureBook, mem_cons, Prod.mk.injEq, not_mem_nil, or_false] at row
    rcases row with ⟨rfl, rfl, rfl⟩ | ⟨rfl, rfl, rfl⟩ | ⟨rfl, rfl, rfl⟩
    · exact ⟨.origin (.hello ⟨7⟩), by simp [greetingLog], rfl, by decide +kernel⟩
    · exact ⟨.attest .signedGreeting 0, by simp [greetingLog], rfl, by decide +kernel⟩
    · exact ⟨.attest .sentGreeting 1, by simp [greetingLog], rfl, by decide +kernel⟩
  · intro node env logged
    obtain ⟨_, rfl⟩ : node = "rf:a" ∧ env = .hello ⟨7⟩ := by simpa [greetingLog] using logged
    exact { signedGreeting_held with origin := nofun }
  · intro node env now logged
    rcases greetingLog_attest logged with ⟨_, rfl, rfl⟩ | ⟨_, rfl, rfl⟩
    · exact ⟨signedGreeting_held, by decide, by decide⟩
    · exact ⟨sentGreeting_held, by decide, by decide⟩

private theorem greeting_verified : verifyChain .bookkeeping .relayedGreeting = .ok () :=
  verifyChain_ok.mpr ⟨_, rfl, by decide +kernel, by decide +kernel⟩

private theorem greeting_checked (node : String) (x : Envelope) (now : Int)
    (logged : greetingLog node (.attest x now)) : verifyChain .bookkeeping x = .ok () := by
  rcases greetingLog_attest logged with ⟨_, rfl, rfl⟩ | ⟨_, rfl, rfl⟩
  · exact verifyChain_take greeting_verified 0
  · exact verifyChain_take greeting_verified 1

private theorem greeting_apart : CollisionFree .bookkeeping greetingLog .relayedGreeting := by
  intro node x now logged _
  rcases greetingLog_attest logged with ⟨_, rfl, rfl⟩ | ⟨_, rfl, rfl⟩ <;> rfl

/-- The greeting that a relay attested: its links are the list that the relay's own call left. -/
theorem chain_tamper_evident_greeting :
    verifyChain .bookkeeping .relayedGreeting = .ok () ∧
      Appended .bookkeeping greetingLog .relayedGreeting Envelope.relayedGreeting.attestations ∧
      ∃ node x now, greetingLog node (.attest x now) ∧ x.origin = Envelope.relayedGreeting.origin ∧
        appendAttestation .bookkeeping node now x =
          .ok { x with attestations := Envelope.relayedGreeting.attestations } := by
  obtain ⟨o, _, _, appended, exact, _⟩ := chain_tamper_evident bookkeeping_faithful greeting_honest
    relayedGreeting_held greeting_verified (fun _ _ => trivial) (fun _ _ => trivial) greeting_apart
  obtain ⟨node, x, now, logged, origin, _, left⟩ :=
    exact bookkeeping_binding greeting_checked (by decide)
  exact ⟨greeting_verified, appended, node, x, now, logged, origin, left⟩

end RelayFabric
