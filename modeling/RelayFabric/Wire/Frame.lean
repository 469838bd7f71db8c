/- source: fed/conn.rs (decode_inbound), fed/noise.rs (send_frame), engine.rs (process_due_fed)
   digest: Which frames that egress places get through the size limits between it and the peer. -/

import RelayFabric.Wire.Seal
import RelayFabric.Wire.Texts
import RelayFabric.Federation.Posture
import RelayFabric.Federation.Lifetime

namespace RelayFabric

open List Lib Option
open Lib.Cbor (Value headSize)
open Lib.Cbor.Value (record)

def sendFrame (plaintext : Bytes) : Bool :=
  decide (plaintext.length < 2 ^ 32) && decide (plaintext.length ≤ maxFrame)

def smallFrameMaxBytes : Nat := 1024

def advertMaxBytes : Nat := 16 * 1024

def advertFrameWrapBytes : Nat := 32

def envelopeFrameMaxBytes : Nat := 1024 * 1024

def frameCap (tag : String) : Option Nat :=
  match tag with
  | "ping" | "pong" | "ack" | "advert_req" => some smallFrameMaxBytes
  | "advert" => some (advertMaxBytes + advertFrameWrapBytes)
  | "envelope" => some envelopeFrameMaxBytes
  | "sealed" => some maxFrame
  | _ => none

def trustBelowAcceptFrom (d : Daemon) (peerNodeId : String) : Bool :=
  d.cfg.federation.all (fun fed => trustDenied d.store peerNodeId fed.acceptFrom)

/-- `decode_inbound` without the advertisement frames. -/
def decodeInbound (T : Chrono) (d : Daemon) (peerNodeId : String) (bytes : Bytes) : Option Fed := do
  let tag ← peekTag bytes
  let cap ← frameCap tag
  if cap < bytes.length then none
  else
    let permitted := match tag with
      | "envelope" | "sealed" => !trustBelowAcceptFrom d peerNodeId
      | _ => true
    if permitted then decodeTagged T tag bytes else none

def textBytes (s : String) : Nat := headSize s.utf8ByteSize + s.utf8ByteSize

def blobBytes (n : Nat) : Nat := headSize n + n

def attachmentBytes (a : AttachmentMeta) : Nat :=
  27 + textBytes a.filename + textBytes a.mime + headSize a.size + textBytes a.sha256

def originBytes (nodeId : String) (sig : Nat) : Nat := 13 + textBytes nodeId + blobBytes sig

def attestationBytes (T : Chrono) (nodeId : String) (ts : Int) (sig : Nat) : Nat :=
  16 + textBytes nodeId + textBytes (T.iso ts) + blobBytes sig

def gatewayBytes (T : Chrono) (nodeId nativeRef route : String) (ts : Int) (stored : Envelope) :
    Nat :=
  let hops := (stored.hops + 1) % 2 ^ 32
  -- the frame's own map, all field names, and the parts of fixed size
  217 + textBytes route + headSize stored.version + textBytes stored.source.protocol +
    textBytes stored.source.endpoint + textBytes nativeRef + textBytes stored.kind +
    textBytes stored.body + textBytes (T.iso stored.createdAt) +
    textBytes (T.iso stored.receivedAt) +
    textBytes (T.iso stored.expiresAt) + (if stored.replyTo = none then 1 else 17) +
    headSize stored.hopCount + headSize stored.hopLimit +
    (headSize stored.attachments.length + (stored.attachments.map attachmentBytes).sum) +
    textBytes stored.priority +
    (stored.origin.elim (originBytes nodeId 64) (fun o => originBytes o.nodeId o.sig.length)) +
    (headSize (stored.attestations.length + 1) +
      (stored.attestations.map (fun a => attestationBytes T a.nodeId a.ts a.sig.length)).sum +
      attestationBytes T nodeId ts 64) +
    (if hops = 0 then 0 else 5 + headSize hops)

def exposedRef (K : Crypto) (exposure peer route : String) (stored : Envelope) : String :=
  if stored.origin = none ∧ exposure = "pseudonymous" then
    K.aliasFor stored.source.protocol stored.sender.nativeRef ("fed:" ++ peer ++ "/" ++ route)
  else stored.sender.nativeRef

structure Crypto.Signs (K : Crypto) : Prop where
  origin : ∀ env, (K.signOrigin env).nodeId = K.nodeId ∧ (K.signOrigin env).sig.length = 64
  attest : ∀ env ts, (K.attest env ts).nodeId = K.nodeId ∧ (K.attest env ts).ts = ts ∧
    (K.attest env ts).sig.length = 64

theorem size_record (fields : List (String × Value)) : (record fields).size =
    headSize fields.length + (fields.map (fun field => textBytes field.1 + field.2.size)).sum := by
  have entries : Value.sizeEntries (fields.map (fun field => (.text field.1, field.2))) =
      (fields.map (fun field => textBytes field.1 + field.2.size)).sum := by
    induction fields with
    | nil => rfl
    | cons first others ih =>
      simp [Value.sizeEntries, Value.size, ih, textBytes]
  simp [record, Value.size, entries]

theorem size_array {α : Type} {write : α → Value} {bytes : α → Nat}
    (each : ∀ item, (write item).size = bytes item) (items : List α) :
    (Value.array (items.map write)).size = headSize items.length + (items.map bytes).sum := by
  have all : Value.sizeAll (items.map write) = (items.map bytes).sum := by
    induction items with
    | nil => rfl
    | cons first others ih => simp [Value.sizeAll, ih, each]
  simp [Value.size, all]

section Size

variable (T : Chrono)

theorem size_text (s : String) : (Value.text s).size = textBytes s := rfl

theorem size_uint (n : Nat) : (Value.uint n).size = headSize n := rfl

theorem size_bytes (b : Bytes) : (Value.bytes b).size = blobBytes b.length := rfl

theorem size_attachment (a : AttachmentMeta) : a.toValue.size = attachmentBytes a := by
  have names : textBytes "filename" = 9 ∧ textBytes "mime" = 5 ∧ textBytes "size" = 5 ∧
      textBytes "sha256" = 7 := by decide
  obtain ⟨filename, mime, size, sha⟩ := names
  have map : headSize 4 = 1 := by decide
  unfold AttachmentMeta.toValue attachmentBytes
  simp only [size_record, length_cons, length_nil, map_cons, map_nil,
    sum_cons, sum_nil, size_text, size_uint, filename, mime, size, sha, map]
  omega

theorem size_origin (o : OriginSig) :
    (o.toValue .cbor).size = originBytes o.nodeId o.sig.length := by
  have names : textBytes "node_id" = 8 ∧ textBytes "sig" = 4 := by decide
  obtain ⟨node, sig⟩ := names
  have map : headSize 2 = 1 := by decide
  unfold OriginSig.toValue originBytes
  simp only [size_record, length_cons, length_nil, map_cons, map_nil,
    sum_cons, sum_nil, size_text, bytesValue, size_bytes, node, sig, map]
  omega

theorem size_attestation (a : Attestation) :
    (a.toValue T .cbor).size = attestationBytes T a.nodeId a.ts a.sig.length := by
  have names : textBytes "node_id" = 8 ∧ textBytes "ts" = 3 ∧ textBytes "sig" = 4 := by decide
  obtain ⟨node, ts, sig⟩ := names
  have map : headSize 3 = 1 := by decide
  unfold Attestation.toValue attestationBytes
  simp only [size_record, length_cons, length_nil, map_cons, map_nil,
    sum_cons, sum_nil, size_text, bytesValue, size_bytes, node, ts, sig, map]
  omega

theorem size_endpoint (e : Endpoint) :
    e.toValue.size = 19 + textBytes e.protocol + textBytes e.endpoint := by
  have names : textBytes "protocol" = 9 ∧ textBytes "endpoint" = 9 := by decide
  obtain ⟨protocol, endpoint⟩ := names
  have map : headSize 2 = 1 := by decide
  unfold Endpoint.toValue
  simp only [size_record, length_cons, length_nil, map_cons, map_nil,
    sum_cons, sum_nil, size_text, protocol, endpoint, map]
  omega

theorem size_sender (s : Sender) : s.toValue.size = 12 + textBytes s.nativeRef := by
  have name : textBytes "native_ref" = 11 := by decide
  have map : headSize 1 = 1 := by decide
  unfold Sender.toValue
  simp only [size_record, length_cons, length_nil, map_cons, map_nil,
    sum_cons, sum_nil, size_text, name, map]
  omega

theorem size_uuid (u : Uuid) : (uuidValue .cbor u).size = 17 := by
  have sixteen : headSize 16 = 1 := by decide
  simp [uuidValue, size_bytes, blobBytes, sixteen]

theorem size_replyTo (u : Option Uuid) :
    (optionValue (uuidValue .cbor) u).size = if u = none then 1 else 17 := by
  cases u with
  | none => rfl
  | some u => simp [optionValue, size_uuid]

theorem size_envelope {env : Envelope} {o : OriginSig} (signed : env.origin = some o)
    (attested : env.attestations ≠ []) : (env.toValue T .cbor).size =
      188 + headSize env.version + textBytes env.source.protocol + textBytes env.source.endpoint +
      textBytes env.sender.nativeRef + textBytes env.kind + textBytes env.body +
      textBytes (T.iso env.createdAt) + textBytes (T.iso env.receivedAt) +
      textBytes (T.iso env.expiresAt) + (if env.replyTo = none then 1 else 17) +
      headSize env.hopCount + headSize env.hopLimit +
      (headSize env.attachments.length + (env.attachments.map attachmentBytes).sum) +
      textBytes env.priority + originBytes o.nodeId o.sig.length +
      (headSize env.attestations.length +
        (env.attestations.map (fun a => attestationBytes T a.nodeId a.ts a.sig.length)).sum) +
      (if env.hops = 0 then 0 else 5 + headSize env.hops) := by
  have names : textBytes "version" = 8 ∧ textBytes "id" = 3 ∧ textBytes "source" = 7 ∧
      textBytes "sender" = 7 ∧ textBytes "kind" = 5 ∧ textBytes "body" = 5 ∧
      textBytes "created_at" = 11 ∧ textBytes "received_at" = 12 ∧ textBytes "expires_at" = 11 ∧
      textBytes "reply_to" = 9 ∧ textBytes "hop_count" = 10 ∧ textBytes "hop_limit" = 10 ∧
      textBytes "attachments" = 12 ∧ textBytes "priority" = 9 ∧ textBytes "origin" = 7 ∧
      textBytes "attestations" = 13 ∧ textBytes "hops" = 5 := by decide
  obtain ⟨version, id, source, sender, kind, body, created, received, expires, reply, count, limit,
    attachments, priority, origin, attestations, hopsName⟩ := names
  have links := size_array (size_attestation T) env.attestations
  have files := size_array size_attachment env.attachments
  have map (n : Nat) (few : n < 24) : headSize n = 1 := if_pos few
  unfold Envelope.toValue Envelope.fields
  rw [signed, if_neg attested, size_record]
  by_cases zero : env.hops = 0
  · simp only [zero, if_true, map_some, toList_some, append_nil,
      length_append, length_cons, length_nil, map_append, map_cons,
      map_nil, sum_append, sum_cons, sum_nil, size_text, size_uuid, size_replyTo,
      size_endpoint, size_sender, size_origin, size_uint, links, files, version, id, source, sender,
      attestations, map 16 (by decide)]
    omega
  · simp only [zero, if_false, map_some, toList_some,
      length_append, length_cons, length_nil, map_append, map_cons,
      map_nil, sum_append, sum_cons, sum_nil, size_text, size_uuid, size_replyTo,
      size_endpoint, size_sender, size_origin, size_uint, links, files, version, id, source, sender,
      attestations, hopsName, map 17 (by decide)]
    omega

end Size

variable {K : Crypto} {route body : String}

theorem outgoing_parts (signs : K.Signs) (ts : Int) (exposure peer route : String)
    (stored : Envelope) : ∃ own link, outgoing K ts exposure peer route stored =
      { stored with
        sender := ⟨exposedRef K exposure peer route stored⟩
        origin := some (stored.origin.getD own)
        attestations := stored.attestations ++ [link]
        hops := (stored.hops + 1) % 2 ^ 32 } ∧
      (own.nodeId = K.nodeId ∧ own.sig.length = 64) ∧
      link.nodeId = K.nodeId ∧ link.ts = ts ∧ link.sig.length = 64 := by
  let hidden := { stored with sender := ⟨K.aliasFor stored.source.protocol stored.sender.nativeRef
    ("fed:" ++ peer ++ "/" ++ route)⟩ }
  refine ⟨K.signOrigin (if exposure = "pseudonymous" then hidden else stored),
    K.attest (signedOrigin K exposure peer route stored) ts, ?_, signs.origin _, signs.attest _ ts⟩
  unfold outgoing attested signedOrigin exposedRef
  cases signed : stored.origin with
  | some o => simp [signed]
  | none =>
    by_cases pseudonymous : exposure = "pseudonymous"
    · simp [hidden, pseudonymous, signed]
    · simp [pseudonymous]

theorem Envelope.Held.outgoing (signs : K.Signs) (node : Short K.nodeId)
    {stored : Envelope} (held : stored.Held) {ts : Int} (range : InRange ts)
    {exposure peer : String} (ref : Short (exposedRef K exposure peer route stored))
    (room : stored.attestations.length + 1 < 2 ^ 64) :
    (outgoing K ts exposure peer route stored).Held := by
  obtain ⟨own, link, same, ⟨ownNode, ownSig⟩, linkNode, linkTs, linkSig⟩ :=
    outgoing_parts signs ts exposure peer route stored
  rw [same]
  refine { held with nativeRef := ref, origin := ?_, attestations := ⟨by simpa using room, ?_⟩,
                     hops := Nat.mod_lt _ (by decide) }
  · intro o is
    cases is
    cases signed : stored.origin with
    | none => exact ⟨by rwa [getD_none, ownNode], by rw [getD_none, ownSig]; decide⟩
    | some o => exact held.origin o signed
  · intro a member
    rcases mem_append.mp member with old | new
    · exact held.attestations.2 a old
    · obtain rfl := mem_singleton.mp new
      exact ⟨by rwa [linkNode], by rwa [linkTs], by rw [linkSig]; decide⟩

theorem size_gateway_frame (T : Chrono) (signs : K.Signs) (ts : Int)
    (exposure peer route : String) (stored : Envelope) :
    (Fed.toValue T (.envelope (outgoing K ts exposure peer route stored) route)).size =
      gatewayBytes T K.nodeId (exposedRef K exposure peer route stored) route ts stored := by
  obtain ⟨own, link, same, ⟨ownNode, ownSig⟩, node, time, sig⟩ :=
    outgoing_parts signs ts exposure peer route stored
  have origin : originBytes (stored.origin.getD own).nodeId (stored.origin.getD own).sig.length =
      stored.origin.elim (originBytes K.nodeId 64)
      (fun o => originBytes o.nodeId o.sig.length) := by
    cases stored.origin with
    | none => rw [getD_none, ownNode, ownSig, elim_none]
    | some o => rfl
  have names : textBytes "t" = 2 ∧ textBytes "envelope" = 9 ∧ textBytes "env" = 4 ∧
      textBytes "target_route" = 13 := by decide
  obtain ⟨tag, tagged, env, target⟩ := names
  have map : headSize 3 = 1 := by decide
  rw [same]
  unfold Fed.toValue gatewayBytes
  simp only [size_record, length_cons, length_nil, map_cons, map_nil,
    sum_cons, sum_nil, size_text, tag, tagged, env, target, map]
  rw [size_envelope T rfl (by simp)]
  simp only [length_append, length_cons, length_nil, map_append, map_cons,
    map_nil, sum_append, sum_cons, sum_nil, zero_add, node, time, sig]
  omega

/-- The frame is taken by the sender's channel and comes out of the receiver's size and trust gate
as it went in. -/
def Received (T : Chrono) (receiver : Daemon) (sender : String) (frame : Fed) : Prop :=
  sendFrame (frame.encode T) = true ∧ decodeInbound T receiver sender (frame.encode T) = some frame

section Through

variable {T : Chrono}

theorem length_fed_encode (frame : Fed) : (frame.encode T).length = (frame.toValue T).size :=
  Value.length_encode _

theorem decodeInbound_envelope (faithful : T.Faithful) {env : Envelope} {route sender : String}
    {receiver : Daemon} (held : env.Held) (short : Short route)
    (trusted : trustBelowAcceptFrom receiver sender = false) :
    decodeInbound T receiver sender (Fed.encode T (.envelope env route)) =
      if envelopeFrameMaxBytes < (Fed.toValue T (.envelope env route)).size then none
      else some (.envelope env route) := by
  have frame : Fed.Held (.envelope env route) := ⟨held, short⟩
  have back := Fed.decodeTagged_encode (by simp) frame faithful
  unfold decodeInbound
  rw [Fed.peekTag_encode frame faithful]
  simp only [Fed.tag] at back
  simp only [bind_eq_bind, bind_some, Fed.tag, frameCap, trusted, length_fed_encode,
    back]
  rfl

theorem received_iff_size (faithful : T.Faithful) {env : Envelope} {route sender : String}
    {receiver : Daemon} (held : env.Held) (short : Short route)
    (trusted : trustBelowAcceptFrom receiver sender = false) :
    Received T receiver sender (.envelope env route) ↔
      (Fed.toValue T (.envelope env route)).size ≤ envelopeFrameMaxBytes := by
  have inbound := decodeInbound_envelope faithful held short trusted
  unfold Received
  rw [inbound]
  by_cases exceeds : envelopeFrameMaxBytes < (Fed.toValue T (.envelope env route)).size
  · simp only [if_pos exceeds, reduceCtorEq, and_false, false_iff]
    omega
  · have small : (Fed.toValue T (.envelope env route)).size ≤ envelopeFrameMaxBytes := by omega
    have sent : sendFrame (Fed.encode T (.envelope env route)) = true := by
      simp only [sendFrame, length_fed_encode, Bool.and_eq_true, decide_eq_true_eq]
      exact ⟨small.trans_lt (by decide), small.trans (by decide)⟩
    simp [exceeds, sent, small]

end Through

def SealBox.Tags (B : SealBox) : Prop := ∀ recipient secret nonce plaintext,
  (B.encrypt recipient secret nonce plaintext).length = plaintext.length + 16

theorem headSize_le_nine (n : Nat) : headSize n ≤ 9 := by
  unfold headSize
  split_ifs <;> omega

theorem size_intValue_le (i : Int) : (intValue i).size ≤ 9 := by
  unfold intValue
  split_ifs
  · exact headSize_le_nine _
  · exact headSize_le_nine _

theorem textBytes_toText (u : Uuid) : textBytes u.toText = 38 := by
  have single : ∀ cs : List Char, (∀ c ∈ cs, c.utf8Size = 1) → String.utf8Len cs = cs.length := by
    intro cs narrow
    induction cs with
    | nil => rfl
    | cons c cs ih =>
      rw [forall_mem_cons] at narrow
      rw [String.utf8Len_cons, narrow.1, ih narrow.2, length_cons]
  have bytes : u.toText.utf8ByteSize = 36 := by
    rw [Uuid.toText, String.utf8ByteSize_ofList, single _ (fun c => u.utf8Size_of_mem_chars),
      u.length_chars]
  rw [textBytes, bytes]
  decide

theorem length_encodePlaintext_le (cbor : Bytes) (u : Uuid) (expires : Int) :
    (encodePlaintext cbor u.toText expires).length ≤ cbor.length + 57 := by
  have items : headSize 3 = 1 := by decide
  have head := headSize_le_nine cbor.length
  have number := size_intValue_le expires
  unfold encodePlaintext plaintextValue
  rw [Value.length_encode]
  simp only [Value.size, Value.sizeAll, length_cons, length_nil, items]
  have text := textBytes_toText u
  unfold textBytes at text
  omega

theorem size_sealed_le {B : SealBox} (tags : B.Tags) (T : Chrono) (cbor : Bytes) (u : Uuid)
    (expires : Int)
    (recipient secret : Key) (nonce : Nonce) (short : route.toList.length ≤ 32) :
    (Fed.toValue T (.sealed (sealFixed B cbor u.toText expires recipient secret nonce)
      route)).size ≤ cbor.length + 417 := by
  have names : textBytes "t" = 2 ∧ textBytes "sealed" = 7 ∧ textBytes "target_route" = 13 ∧
      textBytes "alg" = 4 ∧ textBytes "id" = 3 ∧ textBytes "expires_at" = 11 ∧ textBytes "epk" = 4 ∧
      textBytes "nonce" = 6 ∧ textBytes "ct" = 3 ∧ textBytes sealAlgV1 = 29 ∧ headSize 3 = 1 ∧
      headSize 6 = 1 ∧ blobBytes 32 = 34 ∧ blobBytes 24 = 26 := by decide
  have target : textBytes route ≤ 9 + 4 * route.toList.length := by
    have head := headSize_le_nine route.utf8ByteSize
    have wide := utf8Len_le route.toList
    rw [← String.utf8ByteSize_ofList, String.ofList_toList] at wide
    unfold textBytes
    omega
  have plaintext := length_encodePlaintext_le cbor u expires
  have box := headSize_le_nine ((encodePlaintext cbor u.toText expires).length + 16)
  have number := size_intValue_le expires
  unfold Fed.toValue SealedEnvelope.toValue sealFixed
  simp only [size_record, length_cons, length_nil, map_cons, map_nil,
    sum_cons, sum_nil, size_text, size_bytes, tags recipient secret nonce _, textBytes_toText,
    (B.publicKey secret).property, nonce.property, names]
  unfold blobBytes
  omega

structure Crypto.SealsWith (K : Crypto) (B : SealBox) : Prop where
  closes : ∀ seed plain id expires (recipient : Key), ∃ ephemeral nonce,
    K.sealBytes seed plain id expires recipient.val =
      sealFixed B plain id expires recipient ephemeral nonce
  keys : ∀ text key, K.publicKey text = some key → key.length = 32

/-- Both ends take the frame: it is within the limit of a channel, and comes out of the gate of
every receiver that trusts the sender enough. -/
def Passes (T : Chrono) (frame : Fed) : Prop :=
  (frame.encode T).length ≤ maxFrame ∧ ∀ receiver sender,
    trustBelowAcceptFrom receiver sender = false → Received T receiver sender frame

theorem passes_sealed {B : SealBox} (tags : B.Tags) {T : Chrono} (faithful : T.Faithful)
    {cbor : Bytes}
    (fits : cbor.length ≤ sealedMaxBytes) (u : Uuid) {expires : Int} (range : InRange expires)
    (recipient secret : Key) (nonce : Nonce) (short : route.toList.length ≤ 32) :
    Passes T (.sealed (sealFixed B cbor u.toText (timestamp expires) recipient secret nonce)
      route) := by
  have size := size_sealed_le tags T cbor u (timestamp expires) recipient secret nonce short
  have margin : sealedMaxBytes + 417 ≤ maxFrame := by decide
  have small := size.trans ((Nat.add_le_add_right fits 417).trans margin)
  have width : maxFrame < 2 ^ 32 := by decide
  rw [← length_fed_encode] at small
  refine ⟨small, fun receiver sender trusted => ⟨?_, ?_⟩⟩
  · rw [sendFrame, Bool.and_eq_true, decide_eq_true_eq, decide_eq_true_eq]
    exact ⟨small.trans_lt width, small⟩
  · have plaintext := length_encodePlaintext_le cbor u (timestamp expires)
    have route64 : Short route := by
      have wide := utf8Len_le route.toList
      rw [← String.utf8ByteSize_ofList, String.ofList_toList] at wide
      unfold Short
      omega
    have second : -2 ^ 63 ≤ timestamp expires ∧ timestamp expires < 2 ^ 63 := by
      obtain ⟨low, high⟩ := range
      unfold minUtc at low
      unfold maxUtc at high
      unfold seconds at low high
      unfold timestamp
      omega
    have held : Fed.Held
        (.sealed (sealFixed B cbor u.toText (timestamp expires) recipient secret nonce) route) := by
      refine ⟨⟨show Short sealAlgV1 by decide, u.short_toText, second, ?_, ?_, ?_⟩, route64⟩
      · exact (B.publicKey secret).property ▸ (by decide)
      · exact nonce.property ▸ (by decide)
      · rw [sealFixed, tags]
        omega
    have back := Fed.decodeTagged_encode (by simp) held faithful
    unfold decodeInbound
    rw [Fed.peekTag_encode held faithful]
    simp only [Fed.tag] at back ⊢
    simp only [bind_eq_bind, bind_some, frameCap, trusted, back,
      if_neg (Nat.not_lt.mpr small)]
    rfl

/-- The margin for sealing is enough: under a target route of 32 characters every sealed frame of an
envelope within the ceiling passes both ends, and so does every sealed frame of egress. -/
theorem sealed_size_margin {B : SealBox} (tags : B.Tags) {K : Crypto} (seals : K.SealsWith B)
    {T : Chrono}
    (faithful : T.Faithful) :
    (∀ (env : Envelope) (route : String) (seed : Nat) (expires : Int) (recipient : Key),
      (K.encode env).length ≤ sealedMaxBytes → route.toList.length ≤ 32 → InRange expires →
        Passes T (.sealed (K.sealBytes seed (K.encode env) env.id.toText (timestamp expires)
          recipient.val) route)) ∧
    ∀ ok del now stored peer sealed route, Emission K ok del now stored peer
      (.sealed sealed route) → route.toList.length ≤ 32 → Passes T (.sealed sealed route) := by
  have each : ∀ (cbor : Bytes) (u : Uuid) (route : String) (seed : Nat) (expires : Int)
      (recipient : Key),
      cbor.length ≤ sealedMaxBytes → route.toList.length ≤ 32 → InRange expires →
        Passes T (.sealed (K.sealBytes seed cbor u.toText (timestamp expires) recipient.val)
        route) := by
    intro cbor u route seed expires recipient fits short range
    obtain ⟨ephemeral, nonce, made⟩ := seals.closes seed cbor u.toText (timestamp expires) recipient
    rw [made]
    exact passes_sealed tags faithful fits u range recipient ephemeral nonce short
  refine ⟨fun env => each (K.encode env) env.id, ?_⟩
  intro ok del now stored peer sealed route emission short
  cases emission with
  | sealed _ exposure ts seed expires key read read' read'' _ _ _ resolved header fits =>
    have length : key.length = 32 := by
      obtain ⟨entry, _, found⟩ := bind_eq_some_iff.mp resolved
      obtain ⟨text, _, parsed⟩ := bind_eq_some_iff.mp found
      exact seals.keys text key parsed
    have range : InRange expires := by
      unfold checkedAdd at header
      split_ifs at header with inside
      exact Option.some.inj header ▸ inside
    exact each _ stored.id route seed expires ⟨key, length⟩ fits short range

def SealBox.padded : SealBox where
  publicKey key := key
  encrypt _ _ _ plaintext := plaintext ++ List.replicate 16 0
  decrypt _ _ _ ct := some (ct.take (ct.length - 16))

def Crypto.padding : Crypto :=
  { Crypto.clear "gateway" with
    publicKey := fun _ => some (List.replicate 32 7)
    sealBytes := fun _ plain id expires _ => sealFixed .padded plain id expires
      ⟨List.replicate 32 7, rfl⟩ ⟨List.replicate 32 8, rfl⟩ ⟨List.replicate 24 9, rfl⟩ }

theorem sealed_size_margin_padded :
    SealBox.padded.Tags ∧ Crypto.padding.SealsWith .padded ∧
      Passes .gregorian (.sealed (Crypto.padding.sealBytes 0 (Crypto.padding.encode (.hello ⟨7⟩))
        (Uuid.toText ⟨7⟩) (timestamp 0) (List.replicate 32 7)) "in") := by
  have tags : SealBox.padded.Tags := fun _ _ _ plaintext => by simp [SealBox.padded]
  have seals : Crypto.padding.SealsWith .padded := by
    refine ⟨fun seed plain id expires recipient =>
      ⟨⟨List.replicate 32 8, rfl⟩, ⟨List.replicate 24 9, rfl⟩, rfl⟩, ?_⟩
    intro text key found
    rw [← Option.some.inj found]
    rfl
  exact ⟨tags, seals, (sealed_size_margin tags seals Chrono.gregorian_faithful).1
    (.hello ⟨7⟩) "in" 0 0 ⟨List.replicate 32 7, rfl⟩ (by decide +kernel) (by decide) (by decide)⟩

/-- Nothing stands in the way of a row for a peer in gateway mode. -/
structure Clearway (d : Daemon) (del : Delivery) (now : Int) (stored : Envelope)
    (peer route : String) (conn : PeerConn) (cfg : RouteConfig) : Prop where
  message : d.store.getMessage del.messageId = some stored
  live : stored.isExpired now = false
  left : del.attemptCount < maxAttempts
  relayed : del.route ≠ identityRoute
  permitted : ∃ maxPayload attachments maxBytes,
    evaluate d.cfg.policies stored del.destination = .allow maxPayload attachments maxBytes
  remote : del.destination.protocol = fedProtocol
  target : fedTarget del.destination.endpoint = some (peer, route)
  connected : (d.conns.bind (fun conns => conns peer)) = some conn
  unbudgeted : (d.cfg.peer? peer).elim 0 PeerConfig.messagesPerMinute = 0
  found : d.cfg.routeCfg del.route = some cfg
  mode : cfg.securityMode ≠ "sealed"

theorem processDue_places (K : Crypto) {d : Daemon} {del : Delivery} {now : Int} {stored : Envelope}
    {peer : String} {conn : PeerConn} {cfg : RouteConfig}
    (clear : Clearway d del now stored peer route conn cfg) {c : Channel Fed}
    (channel : d.fedChannels conn.tx = some c) (room : c.room = true) :
    let exposure := d.cfg.federation.elim "pseudonymous" FederationConfig.identityExposure
    let frame := Fed.envelope (outgoing K d.clock.utc exposure peer route stored) route
    ((processDue K del now).run d).2.fedChannels conn.tx =
      some { c with queue := c.queue ++ [frame] } ∧
      ((processDue K del now).run d).2.store = d.store.markAttempting d.clock.utc del.id := by
  intro exposure frame
  obtain ⟨_, _, _, allowed⟩ := clear.permitted
  have spare : ¬ maxAttempts ≤ del.attemptCount := Nat.not_le.mpr clear.left
  have taken : c.trySend frame = some { c with queue := c.queue ++ [frame] } := by
    cases sent : c.trySend frame with
    | none => exact absurd (Channel.trySend_eq_none.mp sent) (by simp [room])
    | some c' => rw [(Channel.room_of_trySend sent).2]
  have ends : (processDue K del now).run d =
      (attemptSend del.id now (.sendFed del.id conn.tx) (fun d =>
        d.trySendFed del.id conn.tx frame)).run d := by
    simp only [processDue, Prog.run_bind, Prog.run_observe, clear.message, clear.live,
      Bool.false_eq_true, if_false, if_neg spare, if_neg clear.relayed, cfgSnapshot, allowed,
      clear.remote, if_true, processDueFed, clear.target, clear.connected, budgetAllows,
      Prog.run_critical, clear.unbudgeted, BudgetLimiter.allow, utcNow, clear.found,
      if_neg clear.mode, frame, exposure, outgoing]
  rw [ends]
  simp only [attemptSend, markAttempting, Prog.run_bind, Prog.run_modify, Prog.run_critical,
    Daemon.trySendFed, channel, bind_some, taken, if_true, Prog.run_pure]
  exact ⟨by rw [Map.insert_apply, if_pos rfl], rfl⟩

def Built (K : Crypto) (visited : Daemon → Prop) (del : Delivery) (_ : Nat) (frame : Fed) : Prop :=
  ∃ now d stored peer, visited d ∧ d.store.getMessage del.messageId = some stored ∧
    Emission K visited del now stored peer frame

theorem Node.run_built {moves : List Move} {start : Node} (rest : List Move) :
    ∀ (done : List Move) (v : View) (σ : Node), done ++ rest = moves →
      Node.run K done start = some σ →
      σ.Inv (Built K (Visited K start moves)) (Visited K start moves) v →
        ∀ σ', Node.run K rest σ = some σ' → Visited K start moves σ'.d ∧
          ∃ v', σ'.Inv (Built K (Visited K start moves)) (Visited K start moves) v' := by
  induction rest with
  | nil =>
    intro done v σ whole reached inv σ' run
    cases run
    exact ⟨⟨done, σ, ⟨[], whole⟩, reached, rfl⟩, v, inv⟩
  | cons a rest ih =>
    intro done v σ whole reached inv σ' run
    obtain ⟨middle, step, later⟩ := bind_eq_some_iff.mp run
    have seen : Visited K start moves σ.d := ⟨done, σ, ⟨a :: rest, whole⟩, reached, rfl⟩
    obtain ⟨v', _, inv'⟩ := Node.step_effect
      (fun del now d stored _ peer _ _ fine found _ _ emission =>
        (⟨now, d, stored, peer, fine, found, emission⟩ : Built K _ del _ _)) step inv seen
    exact ih (done ++ [a]) v' middle (by simpa using whole) (runAll_concat reached step)
      inv' σ' later

/-- A gateway-mode frame that the pump hands over was built from a message the run stored, and the
peer receives it if and only if its bytes are at most one mebibyte. -/
theorem gateway_frame_received_iff {T : Chrono} (faithful : T.Faithful) {K : Crypto}
    (signs : K.Signs)
    (moves : List Move) (start σ σ' : Node) (n : Nat) (env : Envelope) (route : String)
    (fresh : start.Fresh) (reached : Node.run K moves start = some σ)
    (step : Node.step K .pump σ = some σ') (hands : Hands σ σ' n (.envelope env route))
    (held : env.Held) (short : Short route) :
    ∃ d m stored peer exposure ts, Visited K start moves d ∧ d.store.getMessage m = some stored ∧
      env = outgoing K ts exposure peer route stored ∧
      ∀ receiver, trustBelowAcceptFrom receiver K.nodeId = false →
        (Received T receiver K.nodeId (.envelope env route) ↔
          gatewayBytes T K.nodeId (exposedRef K exposure peer route stored) route ts stored ≤
            envelopeFrameMaxBytes) := by
  obtain ⟨seen, v, inv⟩ := Node.run_built moves [] .idle start rfl rfl fresh.inv σ reached
  obtain ⟨v', effect, _⟩ := Node.step_effect
    (fun del now d stored _ peer _ _ fine found _ _ emission =>
      (⟨now, d, stored, peer, fine, found, emission⟩ : Built K _ del _ _)) step inv seen
  obtain ⟨del, tx, _, _, now, d, stored, peer, visited, found, emission⟩ := effect.hands hands
  generalize is : Fed.envelope env route = frame at emission
  cases emission with
  | plain route' exposure ts =>
    obtain ⟨same, rfl⟩ := Fed.envelope.inj is
    refine ⟨d, del.messageId, stored, peer, exposure, ts, visited, found, same, ?_⟩
    intro receiver trusted
    subst same
    rw [received_iff_size faithful held short trusted, size_gateway_frame T signs]
  | sealed => cases is

def Crypto.signing (node : String) : Crypto :=
  { Crypto.clear node with
    signOrigin := fun _ => ⟨node, List.replicate 64 0⟩
    attest := fun _ ts => ⟨node, ts, List.replicate 64 0⟩ }

theorem Crypto.signing_signs (node : String) : (Crypto.signing node).Signs :=
  ⟨fun _ => ⟨rfl, rfl⟩, fun _ _ => ⟨rfl, rfl, rfl⟩⟩

def Node.gateway : Node := ⟨.relay "gateway", .idle, [], fun _ => 0⟩

def plainMoves : List Move :=
  .spawn (.inbound .none ⟨⟨7⟩, ⟨8⟩, ⟨9⟩⟩ "x" "lobby" "ann" "text" "hello" none [] none) ::
    (List.replicate 7 (Move.call 0) ++ List.replicate 14 Move.pump)

def Envelope.greetingOut : Envelope :=
  { Envelope.hello ⟨7⟩ with
    origin := some ⟨"rf:a", List.replicate 64 0⟩
    attestations := [⟨"rf:a", 0, List.replicate 64 0⟩]
    hops := 1 }

theorem Envelope.greetingOut_held : Envelope.greetingOut.Held := by
  refine ⟨by decide, by decide, by decide, by decide, by decide, by decide, by decide, by decide,
    by decide, by decide, by decide, ⟨by decide, fun a member => absurd member not_mem_nil⟩, by
    decide, ?_, ⟨by decide, ?_⟩, by decide⟩
  · intro o is
    cases is
    exact ⟨by decide, by decide⟩
  · intro a member
    obtain rfl := mem_singleton.mp member
    exact ⟨by decide, by decide, by decide⟩

theorem gateway_frame_received_iff_relay :
    ∃ σ σ', Node.run (.signing "rf:a") plainMoves .gateway = some σ ∧
      Node.step (.signing "rf:a") .pump σ = some σ' ∧ Hands σ σ' 1 (.envelope .greetingOut "in") ∧
      ∃ d m stored peer exposure ts, Visited (.signing "rf:a") .gateway plainMoves d ∧
        d.store.getMessage m = some stored ∧
        Envelope.greetingOut = outgoing (.signing "rf:a") ts exposure peer "in" stored ∧
        ∀ receiver, trustBelowAcceptFrom receiver "rf:a" = false →
          (Received .gregorian receiver "rf:a" (.envelope .greetingOut "in") ↔
            gatewayBytes .gregorian "rf:a"
            (exposedRef (.signing "rf:a") exposure peer "in" stored) "in"
              ts stored ≤ envelopeFrameMaxBytes) := by
  obtain ⟨σ, reached, σ', step, label, before, after⟩ :
      ∃ σ, Node.run (.signing "rf:a") plainMoves .gateway = some σ ∧
        ∃ σ', Node.step (.signing "rf:a") .pump σ = some σ' ∧
          σ.pump.label? = some (.sendFed 1 1) ∧ σ.d.fedChannels 1 = some ⟨[], 64, false⟩ ∧
          σ'.d.fedChannels 1 = some ⟨[.envelope .greetingOut "in"], 64, false⟩ := by
    decide +kernel
  have hands : Hands σ σ' 1 (.envelope .greetingOut "in") := ⟨1, _, _, label, before, rfl, after⟩
  exact ⟨σ, σ', reached, step, hands,
    gateway_frame_received_iff Chrono.gregorian_faithful (Crypto.signing_signs "rf:a")
    plainMoves .gateway
      σ σ' 1 .greetingOut "in" ⟨rfl, rfl⟩ reached step hands Envelope.greetingOut_held (by decide)⟩

def Arrival.saying (body : String) : Arrival :=
  ⟨⟨⟨7⟩, ⟨8⟩, ⟨9⟩⟩, "x", "lobby", "ann", "text", body, none, [], none⟩

def Daemon.told (body : String) : Daemon :=
  (((Arrival.saying body).handle (.signing "rf:a") .none).run (.relay "gateway")).2

def toldRow : Delivery :=
  ⟨1, ⟨7⟩, "in", ⟨"fed", "hub/in"⟩, 2, 0, .pending, none, 0, none, 0 + seconds (3600 : Nat), 0, 0⟩

section

variable (plain : isLinkCode (trim body) = false)
include plain

theorem Daemon.told_eq :
    Daemon.told body = (Arrival.saying body).persisted (.signing "rf:a") .none
      ((Arrival.saying body).recorded (.signing "rf:a") (.relay "gateway")) := by
  have unseen : ((Daemon.relay "gateway").dedup.isDuplicate
      ((Arrival.saying body).key (.signing "rf:a")) (Daemon.relay "gateway").clock.instant).1 =
      false :=
    rfl
  have within : ((Arrival.saying body).charge (.relay "gateway")).1 = true := rfl
  have unasked : (Arrival.saying body).answers .none (.relay "gateway") = none := by
    unfold Arrival.answers
    rw [if_neg (by simpa [Arrival.saying] using plain)]
  have routed : route (Daemon.relay "gateway").cfg.routes (Arrival.saying body).source ≠ [] := by
    show route (Daemon.relay "gateway").cfg.routes ⟨"x", "lobby"⟩ ≠ []
    decide
  have noted : (Arrival.saying body).noted (.signing "rf:a") (.relay "gateway") =
      (Arrival.saying body).recorded (.signing "rf:a") (.relay "gateway") := by
    unfold Arrival.noted
    rw [if_neg (by simpa [Arrival.saying] using plain)]
  unfold Daemon.told
  rw [Arrival.handle_run, unseen, within, unasked, noted]
  simp [Bool.false_eq_true, Bool.true_eq_false, if_neg routed]

theorem told_clearway :
    Clearway (Daemon.told body) toldRow 0
      ((Arrival.saying body).envelope (.signing "rf:a") (.relay "gateway")) "hub" "in" ⟨1, "rf:hub"⟩
      ⟨"in", [⟨"x", "lobby"⟩], [⟨"fed", "hub/in"⟩], "pseudonymous", ⟨"alias", 0⟩, "gateway",
      none⟩ := by
  rw [Daemon.told_eq plain]
  exact ⟨rfl, rfl, by decide, by decide, ⟨none, true, none, rfl⟩, rfl, by decide +kernel, rfl,
    rfl, rfl, by decide⟩

theorem told_row :
    (Daemon.told body).store.row 1 = some toldRow := by
  rw [Daemon.told_eq plain]
  rfl

end

def letters (n : Nat) : String := String.ofList (List.replicate n 'a')

theorem utf8ByteSize_letters (n : Nat) : (letters n).utf8ByteSize = n := by
  have each : String.utf8Len (List.replicate n 'a') = n := by
    induction n with
    | zero => rfl
    | succ n ih =>
      rw [replicate_succ, String.utf8Len_cons, ih]
      rfl
  rw [letters, String.utf8ByteSize_ofList, each]

theorem trim_letters (n : Nat) : trim (letters n) = letters n := by
  have kept : (List.replicate n 'a').dropWhile isWhiteSpace = List.replicate n 'a' := by
    cases n with
    | zero => rfl
    | succ n => rfl
  simp [trim, letters, String.toList_ofList, kept, reverse_replicate]

theorem letters_plain {n : Nat} (long : n ≠ 6) : isLinkCode (trim (letters n)) = false := by
  have length : (letters n).toList.length = n := by
    rw [letters, String.toList_ofList, length_replicate]
  rw [trim_letters]
  simp [isLinkCode, length, long]

theorem told_envelope_held (short : Short body) :
    ((Arrival.saying body).envelope (.signing "rf:a") (.relay "gateway")).Held where
  version := by show 1 < 2 ^ 8; decide
  protocol := by show Short "x"; decide
  endpoint := by show Short "lobby"; decide
  nativeRef := by show Short "ann"; decide
  kind := by show Short "text"; decide
  body := by show Short (body ++ ""); rwa [String.append_empty]
  createdAt := by show InRange 0; decide
  receivedAt := by show InRange 0; decide
  expiresAt := by show InRange (0 + seconds 3600); decide
  hopCount := by show 0 < 2 ^ 8; decide
  hopLimit := by show 8 < 2 ^ 8; decide
  attachments := ⟨by show 0 < 2 ^ 64; decide, fun a member => absurd member not_mem_nil⟩
  priority := by show Short "normal"; decide
  origin := by nofun
  attestations := ⟨by show 0 < 2 ^ 64; decide, fun a member => absurd member not_mem_nil⟩
  hops := by show 0 < 2 ^ 32; decide

def SentInVain (body : String) : Prop :=
  (Daemon.told body).store.row 1 = some toldRow ∧
    ∃ env, ((processDue (.signing "rf:a") toldRow 0).run (.told body)).2.fedChannels 1 =
        some ⟨[.envelope env "in"], 64, false⟩ ∧
      ((processDue (.signing "rf:a") toldRow 0).run (.told body)).2.store =
        (Daemon.told body).store.markAttempting 0 1 ∧
      ∀ (T : Chrono), T.Faithful → ∀ receiver, trustBelowAcceptFrom receiver "rf:a" = false →
        decodeInbound T receiver "rf:a" (Fed.encode T (.envelope env "in")) = none

theorem letters_sent_in_vain {n : Nat} (long : 2 ^ 20 ≤ n) (short : n < 2 ^ 64) :
    SentInVain (letters n) := by
  have clear := told_clearway (letters_plain (show n ≠ 6 by omega))
  have told := Daemon.told_eq (letters_plain (show n ≠ 6 by omega))
  have channel : (Daemon.told (letters n)).fedChannels (⟨1, "rf:hub"⟩ : PeerConn).tx =
      some ⟨[], 64, false⟩ := by
    rw [told]
    rfl
  have room : (⟨[], 64, false⟩ : Channel Fed).room = true := rfl
  have exposure : (Daemon.told (letters n)).cfg.federation.elim "pseudonymous"
      FederationConfig.identityExposure = "pseudonymous" := by
    rw [told]
    rfl
  have clock : (Daemon.told (letters n)).clock.utc = 0 := by
    rw [told]
    rfl
  obtain ⟨placed, attempted⟩ := processDue_places (.signing "rf:a") clear channel room
  simp only [exposure, clock] at placed attempted
  refine ⟨told_row (letters_plain (by omega)), _, placed, attempted, ?_⟩
  · intro T faithful receiver trusted
    have body : ((Arrival.saying (letters n)).envelope (.signing "rf:a") (.relay "gateway")).body =
        letters n := String.append_empty
    have held := told_envelope_held (show Short (letters n) by rwa [Short, utf8ByteSize_letters])
    have out : (outgoing (.signing "rf:a") 0 "pseudonymous" "hub" "in"
        ((Arrival.saying (letters n)).envelope (.signing "rf:a") (.relay "gateway"))).Held :=
      held.outgoing (Crypto.signing_signs "rf:a") (show Short "rf:a" by decide)
        (show InRange 0 by decide) (show Short "ann" by decide) (show 0 + 1 < 2 ^ 64 by decide)
    rw [decodeInbound_envelope faithful out (by decide) trusted,
      size_gateway_frame T (Crypto.signing_signs "rf:a"), if_pos]
    have large : n ≤ textBytes ((Arrival.saying (letters n)).envelope (.signing "rf:a")
        (.relay "gateway")).body := by
      rw [body, textBytes, utf8ByteSize_letters]
      omega
    simp only [gatewayBytes, envelopeFrameMaxBytes]
    omega

theorem mebibyte_sent_in_vain : SentInVain (letters (2 ^ 20)) :=
  letters_sent_in_vain le_rfl (by decide)

end RelayFabric
