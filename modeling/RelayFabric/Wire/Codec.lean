/- source: crates/relay-core/src/lib.rs, fed/wire.rs, fed/seal.rs, serde, ciborium, serde_json
   digest: Envelopes and frames as serde writes them, in CBOR and in JSON, and their readers. -/

import Mathlib.Data.String.Basic
import RelayFabric.Lib.Cbor
import RelayFabric.Daemon

namespace RelayFabric

open List Lib Option
open Lib.Cbor (Value)
open Lib.Cbor.Value (record required defaulted readItems)

theorem utf8Len_le (cs : List Char) : String.utf8Len cs ≤ 4 * cs.length := by
  induction cs with
  | nil => exact Nat.zero_le _
  | cons c rest ih =>
    have one := c.utf8Size_le_four
    rw [String.utf8Len_cons, length_cons]
    omega

structure Chrono where
  iso : Int → String
  parse : String → Option Int
  rfc3339 : Int → String

def InRange (t : Int) : Prop := minUtc ≤ t ∧ t ≤ maxUtc

instance (t : Int) : Decidable (InRange t) := inferInstanceAs (Decidable (_ ∧ _))

/-- The documented behaviour: what is printed is read back, and no two instants print alike. -/
structure Chrono.Faithful (T : Chrono) : Prop where
  parse_iso : ∀ t, InRange t → T.parse (T.iso t) = some t
  iso_short : ∀ t, (T.iso t).utf8ByteSize < 2 ^ 64
  rfc3339_inj : ∀ t u, InRange t → InRange u → T.rfc3339 t = T.rfc3339 u → t = u
  rfc3339_short : ∀ t, (T.rfc3339 t).utf8ByteSize < 2 ^ 64

inductive Format
  | json | cbor
  deriving DecidableEq, Repr

def readText : Value → Option String
  | .text s => some s
  | _ => none

def readUint (bits : Nat) : Value → Option Nat
  | .uint n => if n < 2 ^ bits then some n else none
  | _ => none

def intValue (i : Int) : Value :=
  if 0 ≤ i then .uint i.toNat else .nint (-1 - i).toNat

def readInt : Value → Option Int
  | .uint n => if n < 2 ^ 63 then some n else none
  | .nint n => if n < 2 ^ 63 then some (-1 - n) else none
  | _ => none

def readTime (T : Chrono) (value : Value) : Option Int := (readText value).bind T.parse

def uuidValue : Format → Uuid → Value
  | .json, u => .text u.toText
  | .cbor, u => .bytes (bigEndian 16 u.bits.val)

def readUuid : Format → Value → Option Uuid
  | .json, .text s => Uuid.parseStr s
  | .cbor, .bytes b => if b.length = 16 then Uuid.ofNumber (ofBigEndian b) else none
  | _, _ => none

/-- A `serde_bytes` field: a byte string, or numbers where the format has none. -/
def bytesValue : Format → Bytes → Value
  | .json, b => .array (b.map (fun byte => .uint byte.toNat))
  | .cbor, b => .bytes b

def readByte (value : Value) : Option UInt8 := (readUint 8 value).map UInt8.ofNat

def readBytes : Value → Option Bytes
  | .bytes b => some b
  | .text s => some (utf8 s)
  | value => readItems readByte value

def optionValue {α : Type} (write : α → Value) : Option α → Value
  | none => .null
  | some a => write a

def readOption {α : Type} (read : Value → Option α) : Value → Option (Option α)
  | .null => some none
  | value => (read value).map some

theorem readText_text (s : String) : readText (.text s) = some s := rfl

theorem readUint_uint {bits n : Nat} (fits : n < 2 ^ bits) : readUint bits (.uint n) = some n := by
  simp [readUint, if_pos fits]

theorem readInt_intValue {i : Int} (low : -2 ^ 63 ≤ i) (high : i < 2 ^ 63) :
    readInt (intValue i) = some i := by
  unfold intValue
  split_ifs with sign
  · have fits : i.toNat < 2 ^ 63 := by omega
    simp only [readInt, if_pos fits, Int.toNat_of_nonneg sign]
  · have fits : (-1 - i).toNat < 2 ^ 63 := by omega
    simp only [readInt, if_pos fits]
    congr 1
    omega

theorem readTime_iso {T : Chrono} (faithful : T.Faithful) {t : Int} (range : InRange t) :
    readTime T (.text (T.iso t)) = some t := faithful.parse_iso t range

theorem readUuid_uuidValue (format : Format) (u : Uuid) :
    readUuid format (uuidValue format u) = some u := by
  cases format with
  | json => exact Uuid.parseStr_toText u
  | cbor =>
    have fits : u.bits.val < 256 ^ 16 := u.bits.isLt
    simp only [uuidValue, readUuid, length_bigEndian, if_pos, ofBigEndian_bigEndian fits,
      Uuid.ofNumber]
    exact dif_pos u.bits.isLt

theorem uuidValue_ne_null (format : Format) (u : Uuid) : uuidValue format u ≠ .null := by
  cases format <;> simp [uuidValue]

theorem readBytes_bytesValue (format : Format) (b : Bytes) :
    readBytes (bytesValue format b) = some b := by
  cases format with
  | json =>
    refine Value.readItems_array (fun byte _ => ?_)
    simp [readByte, readUint_uint byte.toNat_lt, UInt8.ofNat_toNat]
  | cbor => rfl

theorem readOption_optionValue {α : Type} {read : Value → Option α} {write : α → Value}
    {a : Option α} (reads : ∀ x ∈ a, read (write x) = some x ∧ write x ≠ .null) :
    readOption read (optionValue write a) = some a := by
  cases a with
  | none => rfl
  | some x =>
    obtain ⟨back, solid⟩ := reads x rfl
    simp [optionValue, readOption, back]

section Records

variable (T : Chrono) (format : Format)

def Endpoint.toValue (e : Endpoint) : Value :=
  record [("protocol", .text e.protocol), ("endpoint", .text e.endpoint)]

def Endpoint.ofValue (value : Value) : Option Endpoint := do
  let protocol ← required "protocol" readText value
  let endpoint ← required "endpoint" readText value
  some ⟨protocol, endpoint⟩

def Sender.toValue (s : Sender) : Value := record [("native_ref", .text s.nativeRef)]

def Sender.ofValue (value : Value) : Option Sender := do
  let nativeRef ← required "native_ref" readText value
  some ⟨nativeRef⟩

def AttachmentMeta.toValue (a : AttachmentMeta) : Value :=
  record [("filename", .text a.filename), ("mime", .text a.mime), ("size", .uint a.size),
    ("sha256", .text a.sha256)]

def AttachmentMeta.ofValue (value : Value) : Option AttachmentMeta := do
  let filename ← required "filename" readText value
  let mime ← required "mime" readText value
  let size ← required "size" (readUint 64) value
  let sha256 ← required "sha256" readText value
  some ⟨filename, mime, size, sha256⟩

def OriginSig.toValue (o : OriginSig) : Value :=
  record [("node_id", .text o.nodeId), ("sig", bytesValue format o.sig)]

def OriginSig.ofValue (value : Value) : Option OriginSig := do
  let nodeId ← required "node_id" readText value
  let sig ← required "sig" readBytes value
  some ⟨nodeId, sig⟩

def Attestation.toValue (a : Attestation) : Value :=
  record [("node_id", .text a.nodeId), ("ts", .text (T.iso a.ts)), ("sig", bytesValue format a.sig)]

def Attestation.ofValue (value : Value) : Option Attestation := do
  let nodeId ← required "node_id" readText value
  let ts ← required "ts" (readTime T) value
  let sig ← required "sig" readBytes value
  some ⟨nodeId, ts, sig⟩

def Envelope.fields (env : Envelope) : List (String × Value) :=
  [("version", .uint env.version), ("id", uuidValue format env.id),
    ("source", env.source.toValue), ("sender", env.sender.toValue), ("kind", .text env.kind),
    ("body", .text env.body), ("created_at", .text (T.iso env.createdAt)),
    ("received_at", .text (T.iso env.receivedAt)), ("expires_at", .text (T.iso env.expiresAt)),
    ("reply_to", optionValue (uuidValue format) env.replyTo), ("hop_count", .uint env.hopCount),
    ("hop_limit", .uint env.hopLimit),
    ("attachments", .array (env.attachments.map AttachmentMeta.toValue)),
    ("priority", .text env.priority)] ++
  (env.origin.map (fun o => ("origin", o.toValue format))).toList ++
  (if env.attestations = [] then []
    else [("attestations", .array (env.attestations.map (Attestation.toValue T format)))]) ++
  (if env.hops = 0 then [] else [("hops", .uint env.hops)])

def Envelope.toValue (env : Envelope) : Value := record (env.fields T format)

def Envelope.ofValue (value : Value) : Option Envelope := do
  let version ← required "version" (readUint 8) value
  let id ← required "id" (readUuid format) value
  let source ← required "source" Endpoint.ofValue value
  let sender ← required "sender" Sender.ofValue value
  let kind ← required "kind" readText value
  let body ← required "body" readText value
  let createdAt ← required "created_at" (readTime T) value
  let receivedAt ← required "received_at" (readTime T) value
  let expiresAt ← required "expires_at" (readTime T) value
  let replyTo ← defaulted "reply_to" (readOption (readUuid format)) none value
  let hopCount ← required "hop_count" (readUint 8) value
  let hopLimit ← required "hop_limit" (readUint 8) value
  let attachments ← defaulted "attachments" (readItems AttachmentMeta.ofValue) [] value
  let priority ← defaulted "priority" readText defaultPriority value
  let origin ← defaulted "origin" (readOption OriginSig.ofValue) none value
  let attestations ← defaulted "attestations" (readItems (Attestation.ofValue T)) [] value
  let hops ← defaulted "hops" (readUint 32) 0 value
  some
    { version, id, source, sender, kind, body, createdAt, receivedAt, expiresAt, replyTo, hopCount,
      hopLimit, attachments, priority, origin, attestations, hops }

end Records

def SealedEnvelope.toValue (frame : SealedEnvelope) : Value :=
  record [("alg", .text frame.alg), ("id", .text frame.id),
    ("expires_at", intValue frame.expiresAt), ("epk", .bytes frame.epk),
    ("nonce", .bytes frame.nonce), ("ct", .bytes frame.ct)]

def SealedEnvelope.ofValue (value : Value) : Option SealedEnvelope := do
  let alg ← required "alg" readText value
  let id ← required "id" readText value
  let expiresAt ← required "expires_at" readInt value
  let epk ← required "epk" readBytes value
  let nonce ← required "nonce" readBytes value
  let ct ← required "ct" readBytes value
  some ⟨alg, id, expiresAt, epk, nonce, ct⟩

def Fed.toValue (T : Chrono) : Fed → Value
  | .envelope env route => record
      [("t", .text "envelope"), ("env", env.toValue T .cbor), ("target_route", .text route)]
  | .sealed frame route => record
      [("t", .text "sealed"), ("sealed", frame.toValue), ("target_route", .text route)]
  | .ack id => record [("t", .text "ack"), ("id", .text id)]
  | .ping => record [("t", .text "ping")]
  | .pong => record [("t", .text "pong")]
  | .unknown => record [("t", .text "unknown")]

def Fed.encode (T : Chrono) (frame : Fed) : Bytes := (frame.toValue T).encode

def Fed.tag : Fed → String
  | .envelope _ _ => "envelope"
  | .sealed _ _ => "sealed"
  | .ack _ => "ack"
  | .ping => "ping"
  | .pong => "pong"
  | .unknown => "unknown"

/-- The nesting that `ciborium::from_reader` follows. -/
def recursionLimit : Nat := 256

def fromReader {α : Type} (read : Value → Option α) (bytes : Bytes) : Option α :=
  (Value.decode recursionLimit bytes).bind (fun parsed => read parsed.1)

def Envelope.encode (T : Chrono) (env : Envelope) : Bytes := (env.toValue T .cbor).encode

def Envelope.decode (T : Chrono) (bytes : Bytes) : Option Envelope :=
  fromReader (Envelope.ofValue T .cbor) bytes

def peekTag (bytes : Bytes) : Option String := fromReader (required "t" readText) bytes

/-- `decode_tagged` without the advertisement frames. -/
def decodeTagged (T : Chrono) (tag : String) (bytes : Bytes) : Option Fed :=
  match tag with
  | "envelope" => do
    let env ← fromReader (required "env" (Envelope.ofValue T .cbor)) bytes
    let route ← fromReader (required "target_route" readText) bytes
    some (.envelope env route)
  | "ack" => (fromReader (required "id" readText) bytes).map Fed.ack
  | "ping" => some .ping
  | "pong" => some .pong
  | "sealed" => do
    let frame ← fromReader (required "sealed" SealedEnvelope.ofValue) bytes
    let route ← fromReader (required "target_route" readText) bytes
    some (.sealed frame route)
  | _ => none

/-- What `serde_json` prints and reads. -/
structure Json where
  print : Value → String
  parse : String → Option Value

/-- The documented behaviour: a value is read back if its integers are of 64 bits and it nests less
than 128 deep. -/
def Json.Faithful (J : Json) : Prop :=
  ∀ value : Value, value.fits = true → value.textual = true → value.height ≤ 127 →
    J.parse (J.print value) = some value

def Envelope.toJson (T : Chrono) (J : Json) (env : Envelope) : String :=
  J.print (env.toValue T .json)

def Envelope.ofJson (T : Chrono) (J : Json) (row : String) : Option Envelope :=
  (J.parse row).bind (Envelope.ofValue T .json)

def Short (s : String) : Prop := s.utf8ByteSize < 2 ^ 64

instance (s : String) : Decidable (Short s) := inferInstanceAs (Decidable (_ < _))

structure AttachmentMeta.Held (a : AttachmentMeta) : Prop where
  filename : Short a.filename
  mime : Short a.mime
  size : a.size < 2 ^ 64
  sha256 : Short a.sha256

structure OriginSig.Held (o : OriginSig) : Prop where
  nodeId : Short o.nodeId
  sig : o.sig.length < 2 ^ 64

structure Attestation.Held (a : Attestation) : Prop where
  nodeId : Short a.nodeId
  ts : InRange a.ts
  sig : a.sig.length < 2 ^ 64

/-- The value is one of the source's `Envelope`: its numbers fit their widths, its instants the
calendar and its strings and vectors the memory. -/
structure Envelope.Held (env : Envelope) : Prop where
  version : env.version < 2 ^ 8
  protocol : Short env.source.protocol
  endpoint : Short env.source.endpoint
  nativeRef : Short env.sender.nativeRef
  kind : Short env.kind
  body : Short env.body
  createdAt : InRange env.createdAt
  receivedAt : InRange env.receivedAt
  expiresAt : InRange env.expiresAt
  hopCount : env.hopCount < 2 ^ 8
  hopLimit : env.hopLimit < 2 ^ 8
  attachments : env.attachments.length < 2 ^ 64 ∧ ∀ a ∈ env.attachments, a.Held
  priority : Short env.priority
  origin : ∀ o ∈ env.origin, o.Held
  attestations : env.attestations.length < 2 ^ 64 ∧ ∀ a ∈ env.attestations, a.Held
  hops : env.hops < 2 ^ 32

structure SealedEnvelope.Held (frame : SealedEnvelope) : Prop where
  alg : Short frame.alg
  id : Short frame.id
  expiresAt : -2 ^ 63 ≤ frame.expiresAt ∧ frame.expiresAt < 2 ^ 63
  epk : frame.epk.length < 2 ^ 64
  nonce : frame.nonce.length < 2 ^ 64
  ct : frame.ct.length < 2 ^ 64

def Fed.Held : Fed → Prop
  | .envelope env route => env.Held ∧ Short route
  | .sealed frame route => frame.Held ∧ Short route
  | .ack id => Short id
  | .ping | .pong | .unknown => True

section Back

variable {T : Chrono} (format : Format)

theorem Endpoint.ofValue_toValue (e : Endpoint) : Endpoint.ofValue e.toValue = some e := rfl

theorem Sender.ofValue_toValue (s : Sender) : Sender.ofValue s.toValue = some s := rfl

theorem AttachmentMeta.ofValue_toValue {a : AttachmentMeta} (held : a.Held) :
    AttachmentMeta.ofValue a.toValue = some a := by
  have size : required "size" (readUint 64) a.toValue = some a.size := readUint_uint held.size
  unfold AttachmentMeta.ofValue
  rw [size]
  rfl

theorem OriginSig.ofValue_toValue (o : OriginSig) :
    OriginSig.ofValue (o.toValue format) = some o := by
  have sig : required "sig" readBytes (o.toValue format) = some o.sig :=
    readBytes_bytesValue format o.sig
  unfold OriginSig.ofValue
  rw [sig]
  rfl

theorem Attestation.ofValue_toValue (faithful : T.Faithful) {a : Attestation} (held : a.Held) :
    Attestation.ofValue T (a.toValue T format) = some a := by
  have ts : required "ts" (readTime T) (a.toValue T format) = some a.ts :=
    readTime_iso faithful held.ts
  have sig : required "sig" readBytes (a.toValue T format) = some a.sig :=
    readBytes_bytesValue format a.sig
  unfold Attestation.ofValue
  rw [ts, sig]
  rfl

def envelopeNames : List String :=
  ["version", "id", "source", "sender", "kind", "body", "created_at", "received_at", "expires_at",
    "reply_to", "hop_count", "hop_limit", "attachments", "priority", "origin",
    "attestations", "hops"]

theorem Envelope.names_sublist (env : Envelope) :
    ((env.fields T format).map Prod.fst).Sublist envelopeNames := by
  have origin : ((env.origin.map (fun o => ("origin", o.toValue format))).toList.map
      Prod.fst).Sublist ["origin"] := by
    cases env.origin with
    | none => exact nil_sublist _
    | some o => exact List.Sublist.refl _
  have attestations : ((if env.attestations = [] then [] else [("attestations",
      Value.array (env.attestations.map (Attestation.toValue T format)))]).map
      Prod.fst).Sublist ["attestations"] := by
    split_ifs
    · exact nil_sublist _
    · exact List.Sublist.refl _
  have hops : ((if env.hops = 0 then [] else [("hops", Value.uint env.hops)]).map
      Prod.fst).Sublist ["hops"] := by
    split_ifs
    · exact nil_sublist _
    · exact List.Sublist.refl _
  simp only [Envelope.fields, map_append]
  exact ((List.Sublist.append (List.Sublist.refl _) origin).append attestations).append hops

theorem Envelope.names_nodup (env : Envelope) : ((env.fields T format).map Prod.fst).Nodup :=
  (env.names_sublist format).nodup (by decide)

variable {env : Envelope}

theorem Envelope.required_back {α : Type} {name : String} {found : Value}
    {read : Value → Option α} {x : α} (member : (name, found) ∈ env.fields T format)
    (reads : read found = some x) : required name read (env.toValue T format) = some x :=
  (Value.required_record (env.names_nodup format) member read).trans reads

theorem Envelope.defaulted_back {α : Type} {name : String} {found : Value}
    {read : Value → Option α} {x : α} (member : (name, found) ∈ env.fields T format)
    (reads : read found = some x) (default : α) :
    defaulted name read default (env.toValue T format) = some x :=
  (Value.defaulted_record (env.names_nodup format) member read default).trans reads

theorem Envelope.origin_back (env : Envelope) :
    defaulted "origin" (readOption OriginSig.ofValue) none (env.toValue T format) =
      some env.origin := by
  cases signed : env.origin with
  | none =>
    refine Value.defaulted_absent ?_ _ _
    simp only [Envelope.fields, signed]
    split_ifs <;> simp
  | some o =>
    have member : ("origin", o.toValue format) ∈ env.fields T format := by
      simp [Envelope.fields, signed]
    exact env.defaulted_back format member
      (congrArg (Option.map some) (o.ofValue_toValue format)) none

theorem Envelope.attestations_back (faithful : T.Faithful) (held : env.Held) :
    defaulted "attestations" (readItems (Attestation.ofValue T)) [] (env.toValue T format) =
      some env.attestations := by
  by_cases empty : env.attestations = []
  · rw [empty]
    refine Value.defaulted_absent ?_ _ _
    simp only [Envelope.fields, empty]
    cases env.origin <;> split_ifs <;> simp
  · have member :
      ("attestations", Value.array (env.attestations.map (Attestation.toValue T format)))
        ∈ env.fields T format := by
      simp [Envelope.fields, empty]
    exact env.defaulted_back format member (Value.readItems_array (fun a among =>
      Attestation.ofValue_toValue format faithful (held.attestations.2 a among))) []

theorem Envelope.hops_back (held : env.Held) :
    defaulted "hops" (readUint 32) 0 (env.toValue T format) = some env.hops := by
  by_cases zero : env.hops = 0
  · rw [zero]
    refine Value.defaulted_absent ?_ _ _
    simp only [Envelope.fields, zero]
    cases env.origin <;> split_ifs <;> simp
  · have member : ("hops", Value.uint env.hops) ∈ env.fields T format := by
      simp [Envelope.fields, zero]
    exact env.defaulted_back format member (readUint_uint held.hops) 0

theorem Envelope.ofValue_toValue (faithful : T.Faithful) (held : env.Held) :
    Envelope.ofValue T format (env.toValue T format) = some env := by
  have version : required "version" (readUint 8) (env.toValue T format) = some env.version :=
    env.required_back format (by simp [Envelope.fields]) (readUint_uint held.version)
  have id : required "id" (readUuid format) (env.toValue T format) = some env.id :=
    env.required_back format (by simp [Envelope.fields]) (readUuid_uuidValue ..)
  have source : required "source" Endpoint.ofValue (env.toValue T format) = some env.source :=
    env.required_back format (by simp [Envelope.fields]) env.source.ofValue_toValue
  have sender : required "sender" Sender.ofValue (env.toValue T format) = some env.sender :=
    env.required_back format (by simp [Envelope.fields]) env.sender.ofValue_toValue
  have kind : required "kind" readText (env.toValue T format) = some env.kind :=
    env.required_back format (by simp [Envelope.fields]) (readText_text env.kind)
  have body : required "body" readText (env.toValue T format) = some env.body :=
    env.required_back format (by simp [Envelope.fields]) (readText_text env.body)
  have createdAt : required "created_at" (readTime T) (env.toValue T format) =
      some env.createdAt :=
    env.required_back format (by simp [Envelope.fields]) (readTime_iso faithful held.createdAt)
  have receivedAt : required "received_at" (readTime T) (env.toValue T format) =
      some env.receivedAt :=
    env.required_back format (by simp [Envelope.fields]) (readTime_iso faithful held.receivedAt)
  have expiresAt : required "expires_at" (readTime T) (env.toValue T format) =
      some env.expiresAt :=
    env.required_back format (by simp [Envelope.fields]) (readTime_iso faithful held.expiresAt)
  have replyTo : defaulted "reply_to" (readOption (readUuid format)) none (env.toValue T format) =
      some env.replyTo :=
    env.defaulted_back format (by simp [Envelope.fields])
      (readOption_optionValue (fun u _ =>
        ⟨readUuid_uuidValue .., uuidValue_ne_null format u⟩)) none
  have hopCount : required "hop_count" (readUint 8) (env.toValue T format) = some env.hopCount :=
    env.required_back format (by simp [Envelope.fields]) (readUint_uint held.hopCount)
  have hopLimit : required "hop_limit" (readUint 8) (env.toValue T format) = some env.hopLimit :=
    env.required_back format (by simp [Envelope.fields]) (readUint_uint held.hopLimit)
  have attachments : defaulted "attachments" (readItems AttachmentMeta.ofValue) []
      (env.toValue T format) = some env.attachments :=
    env.defaulted_back format (by simp [Envelope.fields])
      (Value.readItems_array (fun a among =>
        AttachmentMeta.ofValue_toValue (held.attachments.2 a among))) []
  have priority : defaulted "priority" readText defaultPriority (env.toValue T format) =
      some env.priority :=
    env.defaulted_back format (by simp [Envelope.fields]) (readText_text env.priority) _
  have attestations := Envelope.attestations_back format faithful held
  unfold Envelope.ofValue
  simp only [version, id, source, sender, kind, body, createdAt, receivedAt, expiresAt, replyTo,
    hopCount, hopLimit, attachments, priority, env.origin_back format, attestations,
    Envelope.hops_back format held, bind_eq_bind, bind_some]

end Back

theorem fromReader_encode {α : Type} (read : Value → Option α) {value : Value}
    (deep : value.height ≤ recursionLimit) (small : value.fits = true) :
    fromReader read value.encode = read value := by
  have back := Value.decode_encode deep small []
  rw [append_nil] at back
  unfold fromReader
  rw [back, bind_some]

/-- The format carries the value in full: it fits, it nests at most `n` deep, and it has no byte
string where the format has none. -/
structure Sound (format : Format) (n : Nat) (value : Value) : Prop where
  fits : value.fits = true
  height : value.height ≤ n
  textual : format = .json → value.textual = true

theorem Uuid.short_toText (u : Uuid) : Short u.toText := by
  have bound := utf8Len_le u.chars
  rw [Uuid.length_chars] at bound
  unfold Short Uuid.toText
  rw [String.utf8ByteSize_ofList]
  omega

namespace Sound

variable {format : Format}

theorem text {s : String} (short : Short s) (n : Nat) : Sound format (n + 1) (.text s) :=
  ⟨decide_eq_true short, Nat.le_add_left 1 n, fun _ => rfl⟩

theorem uint {k : Nat} (small : k < 2 ^ 64) (n : Nat) : Sound format (n + 1) (.uint k) :=
  ⟨decide_eq_true small, Nat.le_add_left 1 n, fun _ => rfl⟩

variable {n : Nat}

theorem option {α : Type} {write : α → Value} (all : ∀ a, Sound format (n + 1) (write a))
    (a : Option α) : Sound format (n + 1) (optionValue write a) := by
  cases a with
  | none => exact ⟨rfl, Nat.le_add_left 1 n, fun _ => rfl⟩
  | some x => exact all x

theorem array {items : List Value} (few : items.length < 2 ^ 64)
    (all : ∀ item ∈ items, Sound format n item) : Sound format (n + 1) (.array items) where
  fits := Value.fits_array few (fun item member => (all item member).fits)
  height := Value.height_array (fun item member => (all item member).height)
  textual json := Value.textual_array (fun item member => (all item member).textual json)

theorem items {α : Type} {write : α → Value} {items : List α}
    (few : items.length < 2 ^ 64) (all : ∀ item ∈ items, Sound format n (write item)) :
    Sound format (n + 1) (.array (items.map write)) :=
  .array (by rwa [length_map]) (forall_mem_map.mpr all)

theorem record {fields : List (String × Value)} (few : fields.length < 2 ^ 64)
    (all : ∀ field ∈ fields, Short field.1 ∧ Sound format (n + 1) field.2) :
    Sound format (n + 2) (record fields) where
  fits := Value.fits_record few
    (forall_mem_map.mpr (fun field member => (all field member).1))
    (fun field member => (all field member).2.fits)
  height := Value.height_record (Nat.le_add_left 1 n)
    (fun field member => (all field member).2.height)
  textual json := Value.textual_record (fun field member => (all field member).2.textual json)

theorem raw {b : Bytes} (short : b.length < 2 ^ 64) (n : Nat) : Sound .cbor (n + 1) (.bytes b) :=
  ⟨decide_eq_true short, Nat.le_add_left 1 n, nofun⟩

theorem int {i : Int} (low : -2 ^ 63 ≤ i) (high : i < 2 ^ 63) (n : Nat) :
    Sound format (n + 1) (intValue i) := by
  unfold intValue
  split_ifs with sign
  · exact .uint (by omega) n
  · have small : (-1 - i).toNat < 2 ^ 63 := by omega
    exact ⟨decide_eq_true small, Nat.le_add_left 1 n, fun _ => rfl⟩

theorem mono {m : Nat} {value : Value} (sound : Sound format n value) (le : n ≤ m) :
    Sound format m value := ⟨sound.fits, sound.height.trans le, sound.textual⟩

theorem bytes {b : Bytes} (short : b.length < 2 ^ 64) (n : Nat) :
    Sound format (n + 2) (bytesValue format b) := by
  cases format with
  | json => exact .items short (fun byte _ => .uint (byte.toNat_lt.trans (by decide)) n)
  | cbor => exact raw short (n + 1)

theorem uuid (u : Uuid) (n : Nat) : Sound format (n + 1) (uuidValue format u) := by
  cases format with
  | json => exact .text u.short_toText n
  | cbor =>
    have short : (bigEndian 16 u.bits.val).length < 2 ^ 64 := by
      rw [length_bigEndian]
      decide
    exact raw short n

end Sound

section Wire

variable {T : Chrono} {format : Format}

theorem Endpoint.sound {e : Endpoint} (protocol : Short e.protocol) (endpoint : Short e.endpoint)
    (n : Nat) : Sound format (n + 2) e.toValue := by
  refine .record (by simp) ?_
  simp only [forall_mem_cons]
  exact ⟨⟨by decide, .text protocol n⟩, ⟨by decide, .text endpoint n⟩, by simp⟩

theorem Sender.sound {s : Sender} (nativeRef : Short s.nativeRef) (n : Nat) :
    Sound format (n + 2) s.toValue := by
  refine .record (by simp) ?_
  simp only [forall_mem_cons]
  exact ⟨⟨by decide, .text nativeRef n⟩, by simp⟩

theorem AttachmentMeta.Held.sound {a : AttachmentMeta} (held : a.Held) (n : Nat) :
    Sound format (n + 2) a.toValue := by
  refine .record (by simp) ?_
  simp only [forall_mem_cons]
  exact ⟨⟨by decide, .text held.filename n⟩, ⟨by decide, .text held.mime n⟩,
    ⟨by decide, .uint held.size n⟩, ⟨by decide, .text held.sha256 n⟩, by simp⟩

theorem OriginSig.Held.sound {o : OriginSig} (held : o.Held) (n : Nat) :
    Sound format (n + 3) (o.toValue format) := by
  refine .record (by simp) ?_
  simp only [forall_mem_cons]
  exact ⟨⟨by decide, .text held.nodeId (n + 1)⟩, ⟨by decide, .bytes held.sig n⟩, by simp⟩

theorem Attestation.Held.sound {a : Attestation} (held : a.Held) (faithful : T.Faithful) (n : Nat) :
    Sound format (n + 3) (a.toValue T format) := by
  refine .record (by simp) ?_
  simp only [forall_mem_cons]
  exact ⟨⟨by decide, .text held.nodeId (n + 1)⟩,
    ⟨by decide, .text (faithful.iso_short a.ts) (n + 1)⟩, ⟨by decide, .bytes held.sig n⟩, by simp⟩

theorem Envelope.length_fields_le (env : Envelope) : (env.fields T format).length ≤ 17 := by
  have shorter := (env.names_sublist (T := T) format).length_le
  rwa [length_map] at shorter

variable {env : Envelope} {frame : Fed}

theorem Envelope.Held.sound (held : env.Held) (faithful : T.Faithful) :
    Sound format 5 (env.toValue T format) := by
  have origin : ∀ field ∈ (env.origin.map (fun o => ("origin", o.toValue format))).toList,
      Short field.1 ∧ Sound format 4 field.2 := by
    intro field member
    obtain ⟨o, signed, rfl⟩ := map_eq_some_iff.mp (mem_toList.mp member)
    exact ⟨show Short "origin" by decide, (held.origin o signed).sound 1⟩
  have attestations : ∀ field ∈ (if env.attestations = [] then [] else [("attestations",
      Value.array (env.attestations.map (Attestation.toValue T format)))]),
      Short field.1 ∧ Sound format 4 field.2 := by
    intro field member
    split_ifs at member
    · exact absurd member not_mem_nil
    · obtain rfl := mem_singleton.mp member
      exact ⟨show Short "attestations" by decide, .items held.attestations.1 (fun a among =>
        (held.attestations.2 a among).sound faithful 0)⟩
  have hops : ∀ field ∈ (if env.hops = 0 then [] else [("hops", Value.uint env.hops)]),
      Short field.1 ∧ Sound format 4 field.2 := by
    intro field member
    split_ifs at member
    · exact absurd member not_mem_nil
    · obtain rfl := mem_singleton.mp member
      exact ⟨show Short "hops" by decide, .uint (held.hops.trans (by decide)) 3⟩
  have version : env.version < 2 ^ 64 := held.version.trans (by decide)
  have hopCount : env.hopCount < 2 ^ 64 := held.hopCount.trans (by decide)
  have hopLimit : env.hopLimit < 2 ^ 64 := held.hopLimit.trans (by decide)
  have attachments : Sound format 4 (.array (env.attachments.map AttachmentMeta.toValue)) :=
    .items held.attachments.1 (fun a among => (held.attachments.2 a among).sound 1)
  refine .record (env.length_fields_le.trans_lt (by decide)) ?_
  simp only [Envelope.fields, forall_mem_append]
  refine ⟨⟨⟨?_, origin⟩, attestations⟩, hops⟩
  simp only [forall_mem_cons]
  exact ⟨⟨by decide, .uint version 3⟩, ⟨by decide, .uuid env.id 3⟩,
    ⟨by decide, Endpoint.sound held.protocol held.endpoint 2⟩,
    ⟨by decide, Sender.sound held.nativeRef 2⟩,
    ⟨by decide, .text held.kind 3⟩, ⟨by decide, .text held.body 3⟩,
    ⟨by decide, .text (faithful.iso_short _) 3⟩, ⟨by decide, .text (faithful.iso_short _) 3⟩,
    ⟨by decide, .text (faithful.iso_short _) 3⟩, ⟨by decide, .option (fun u => .uuid u 3) _⟩,
    ⟨by decide, .uint hopCount 3⟩, ⟨by decide, .uint hopLimit 3⟩, ⟨by decide, attachments⟩,
    ⟨by decide, .text held.priority 3⟩, by simp⟩

theorem Envelope.decode_encode (held : env.Held) (faithful : T.Faithful) :
    Envelope.decode T (env.encode T) = some env := by
  have sound : Sound .cbor 5 (env.toValue T .cbor) := held.sound faithful
  unfold Envelope.decode Envelope.encode
  rw [fromReader_encode _ (sound.height.trans (by decide)) sound.fits]
  exact Envelope.ofValue_toValue .cbor faithful held

theorem Envelope.ofJson_toJson {J : Json} (exact : J.Faithful) (held : env.Held)
    (faithful : T.Faithful) : Envelope.ofJson T J (env.toJson T J) = some env := by
  have sound : Sound .json 5 (env.toValue T .json) := held.sound faithful
  unfold Envelope.ofJson Envelope.toJson
  rw [exact _ sound.fits (sound.textual rfl) (sound.height.trans (by decide)), bind_some]
  exact Envelope.ofValue_toValue .json faithful held

theorem SealedEnvelope.Held.sound {frame : SealedEnvelope} (held : frame.Held) :
    Sound .cbor 2 frame.toValue := by
  refine .record (by simp) ?_
  simp only [forall_mem_cons]
  exact ⟨⟨by decide, .text held.alg 0⟩, ⟨by decide, .text held.id 0⟩,
    ⟨by decide, .int held.expiresAt.1 held.expiresAt.2 0⟩, ⟨by decide, .raw held.epk 0⟩,
    ⟨by decide, .raw held.nonce 0⟩, ⟨by decide, .raw held.ct 0⟩, by simp⟩

theorem SealedEnvelope.ofValue_toValue {frame : SealedEnvelope} (held : frame.Held) :
    SealedEnvelope.ofValue frame.toValue = some frame := by
  have expires : required "expires_at" readInt frame.toValue = some frame.expiresAt :=
    readInt_intValue held.expiresAt.1 held.expiresAt.2
  unfold SealedEnvelope.ofValue
  rw [expires]
  rfl

theorem Sound.tagged {tag : String} {fields : List (String × Value)} (short : Short tag)
    (few : fields.length < 2 ^ 32)
    (all : ∀ field ∈ fields, Short field.1 ∧ Sound format 5 field.2) :
    Sound format 6 (Value.record (("t", .text tag) :: fields)) := by
  refine .record (by rw [length_cons]; omega) ?_
  rw [forall_mem_cons]
  exact ⟨⟨show Short "t" by decide, .text short 4⟩, all⟩

theorem Fed.sound (held : frame.Held) (faithful : T.Faithful) :
    Sound .cbor 6 (frame.toValue T) := by
  cases frame with
  | envelope env route =>
    refine .tagged (by decide) (by simp) ?_
    simp only [forall_mem_cons]
    exact ⟨⟨by decide, held.1.sound faithful⟩, ⟨by decide, .text held.2 4⟩, by simp⟩
  | sealed inner route =>
    refine .tagged (by decide) (by simp) ?_
    simp only [forall_mem_cons]
    exact ⟨⟨by decide, held.1.sound.mono (by decide)⟩, ⟨by decide, .text held.2 4⟩, by simp⟩
  | ack id =>
    refine .tagged (by decide) (by simp) ?_
    simp only [forall_mem_cons]
    exact ⟨⟨by decide, .text held 4⟩, by simp⟩
  | ping | pong | unknown => exact .tagged (by decide) (by simp) (by simp)

theorem Fed.fromReader_encode {α : Type} (read : Value → Option α) (held : frame.Held)
    (faithful : T.Faithful) : fromReader read (frame.encode T) = read (frame.toValue T) := by
  have sound := Fed.sound held faithful
  exact RelayFabric.fromReader_encode read (sound.height.trans (by decide)) sound.fits

theorem Fed.peekTag_encode (held : frame.Held) (faithful : T.Faithful) :
    peekTag (frame.encode T) = some frame.tag := by
  unfold peekTag
  rw [Fed.fromReader_encode _ held faithful]
  cases frame <;> rfl

def Fed.ReadFrom (T : Chrono) (bytes : Bytes) : Fed → Prop
  | .envelope env route => fromReader (required "env" (Envelope.ofValue T .cbor)) bytes = some env ∧
      fromReader (required "target_route" readText) bytes = some route
  | .sealed frame route => fromReader (required "sealed" SealedEnvelope.ofValue) bytes =
      some frame ∧ fromReader (required "target_route" readText) bytes = some route
  | .ack id => fromReader (required "id" readText) bytes = some id
  | .ping | .pong => True
  | .unknown => False

theorem Fed.ReadFrom.mono {bytes bytes' : Bytes}
    (keeps : ∀ {α : Type} {name : String} {read : Value → Option α} {a : α},
      fromReader (required name read) bytes = some a →
      fromReader (required name read) bytes' = some a)
    (holds : frame.ReadFrom T bytes) : frame.ReadFrom T bytes' := by
  cases frame with
  | envelope env route | sealed inner route => exact ⟨keeps holds.1, keeps holds.2⟩
  | ack id => exact keeps holds
  | ping | pong => trivial
  | unknown => exact holds

theorem decodeTagged_iff {tag : String} {bytes : Bytes} :
    decodeTagged T tag bytes = some frame ↔ tag = frame.tag ∧ frame.ReadFrom T bytes := by
  constructor
  · intro decoded
    unfold decodeTagged at decoded
    split at decoded
    · obtain ⟨env, env_read, rest⟩ := bind_eq_some_iff.mp decoded
      obtain ⟨route, route_read, built⟩ := bind_eq_some_iff.mp rest
      cases built
      exact ⟨rfl, env_read, route_read⟩
    · obtain ⟨id, read, rfl⟩ := map_eq_some_iff.mp decoded
      exact ⟨rfl, read⟩
    · cases decoded
      exact ⟨rfl, trivial⟩
    · cases decoded
      exact ⟨rfl, trivial⟩
    · obtain ⟨inner, inner_read, rest⟩ := bind_eq_some_iff.mp decoded
      obtain ⟨route, route_read, built⟩ := bind_eq_some_iff.mp rest
      cases built
      exact ⟨rfl, inner_read, route_read⟩
    · cases decoded
  · rintro ⟨rfl, read⟩
    cases frame with
    | envelope env route | sealed inner route =>
      simp only [Fed.tag, decodeTagged, read.1, read.2]; rfl
    | ack id => exact congrArg (Option.map Fed.ack) read
    | ping | pong => rfl
    | unknown => exact read.elim

theorem Fed.readFrom_encode (known : frame ≠ .unknown) (held : frame.Held) (faithful : T.Faithful) :
    frame.ReadFrom T (frame.encode T) := by
  cases frame with
  | envelope env route =>
    exact ⟨(Fed.fromReader_encode _ held faithful).trans
      (Envelope.ofValue_toValue .cbor faithful held.1), Fed.fromReader_encode _ held faithful⟩
  | sealed inner route =>
    exact ⟨(Fed.fromReader_encode _ held faithful).trans (SealedEnvelope.ofValue_toValue held.1),
      Fed.fromReader_encode _ held faithful⟩
  | ack id => exact Fed.fromReader_encode _ held faithful
  | ping | pong => trivial
  | unknown => exact absurd rfl known

theorem Fed.decodeTagged_encode (known : frame ≠ .unknown) (held : frame.Held)
    (faithful : T.Faithful) : decodeTagged T frame.tag (frame.encode T) = some frame :=
  decodeTagged_iff.mpr ⟨rfl, Fed.readFrom_encode known held faithful⟩

end Wire

end RelayFabric
