/- source: fed/advert.rs (Advert, canonical_bytes, sign, verify), serde, ciborium
   digest: Node advertisements, the bytes their signature covers, and their CBOR form. -/

import Mathlib
import RelayFabric.Wire.Frame
import RelayFabric.Wire.Sign

namespace RelayFabric

open List Lib
open Lib.Cbor (Value)
open Lib.Cbor.Value (record required defaulted)

abbrev TextMap (β : Type) := Std.ExtTreeMap String β compare

structure ProtoCaps where
  rx : Bool
  tx : Bool
  text : Bool
  files : Bool
  maxPayload : Option UInt32
  deriving DecidableEq

structure SecurityCaps where
  translate : Bool
  signed : Bool
  sealed : Bool
  sealedKey : Option String
  deriving DecidableEq

structure Advert where
  rfVersion : UInt32
  nodeId : String
  name : String
  services : TextMap Bool
  protocols : TextMap ProtoCaps
  security : SecurityCaps
  expires : Int64
  sig : Bytes

inductive AdvertError
  | invalidExpiry
  | badSignature
  deriving DecidableEq, Repr

def readBool : Value → Option Bool
  | .bool b => some b
  | _ => none

def mapValue {β : Type} (write : β → Value) (m : TextMap β) : Value :=
  record (m.toList.map (fun entry => (entry.1, write entry.2)))

def readEntry {β : Type} (read : Value → Option β) (entry : Value × Value) :
    Option (String × β) := do
  let key ← readText entry.1
  let value ← read entry.2
  some (key, value)

/-- The entries in the order written; a later one replaces an earlier one of its key. -/
def readMap {β : Type} (read : Value → Option β) : Value → Option (TextMap β)
  | .map entries => (entries.mapM (readEntry read)).map (fun list => .ofList list compare)
  | _ => none

def ProtoCaps.toValue (caps : ProtoCaps) : Value :=
  record [("rx", .bool caps.rx), ("tx", .bool caps.tx), ("text", .bool caps.text),
    ("files", .bool caps.files),
    ("max_payload", optionValue (fun n : UInt32 => .uint n.toNat) caps.maxPayload)]

def readU32 (value : Value) : Option UInt32 := (readUint 32 value).map UInt32.ofNat

def ProtoCaps.ofValue (value : Value) : Option ProtoCaps := do
  let rx ← required "rx" readBool value
  let tx ← required "tx" readBool value
  let text ← required "text" readBool value
  let files ← required "files" readBool value
  let maxPayload ← defaulted "max_payload" (readOption readU32) none value
  some ⟨rx, tx, text, files, maxPayload⟩

def SecurityCaps.toValue (caps : SecurityCaps) : Value :=
  record [("translate", .bool caps.translate), ("signed", .bool caps.signed),
    ("sealed", .bool caps.sealed), ("sealed_key", optionValue .text caps.sealedKey)]

def SecurityCaps.ofValue (value : Value) : Option SecurityCaps := do
  let translate ← required "translate" readBool value
  let signed ← required "signed" readBool value
  let sealed ← required "sealed" readBool value
  let sealedKey ← defaulted "sealed_key" (readOption readText) none value
  some ⟨translate, signed, sealed, sealedKey⟩

namespace Advert

def fields (advert : Advert) : List (String × Value) :=
  [("rf_version", .uint advert.rfVersion.toNat), ("node_id", .text advert.nodeId),
    ("name", .text advert.name), ("services", mapValue .bool advert.services),
    ("protocols", mapValue ProtoCaps.toValue advert.protocols),
    ("security", advert.security.toValue), ("expires", intValue advert.expires.toInt),
    ("sig", .bytes advert.sig)]

def toValue (advert : Advert) : Value := record advert.fields

def ofValue (value : Value) : Option Advert := do
  let rfVersion ← required "rf_version" readU32 value
  let nodeId ← required "node_id" readText value
  let name ← required "name" readText value
  let services ← required "services" (readMap readBool) value
  let protocols ← required "protocols" (readMap ProtoCaps.ofValue) value
  let security ← required "security" SecurityCaps.ofValue value
  let expires ← required "expires" readInt value
  let sig ← required "sig" readBytes value
  some ⟨rfVersion, nodeId, name, services, protocols, security, Int64.ofInt expires, sig⟩

def encode (advert : Advert) : Bytes := advert.toValue.encode

def decode (bytes : Bytes) : Option Advert := fromReader ofValue bytes

def canonical (advert : Advert) : Value :=
  .array [.uint advert.rfVersion.toNat, .text advert.nodeId, .text advert.name,
    mapValue .bool advert.services, mapValue ProtoCaps.toValue advert.protocols,
    .array [.bool advert.security.translate, .bool advert.security.signed,
      .bool advert.security.sealed, optionValue .text advert.security.sealedKey],
    intValue advert.expires.toInt]

def canonicalBytes (advert : Advert) : Bytes := advert.canonical.encode

def advertBytes (advert : Advert) : Bytes := advertV1 ++ advert.canonicalBytes

def sign (P : Platform) (node : String) (advert : Advert) : Advert :=
  { advert with sig := P.sign node advert.advertBytes }

def verify (P : Platform) (advert : Advert) : Except AdvertError Unit :=
  if advert.expires.toInt ≤ 0 then .error .invalidExpiry
  else if P.verify advert.nodeId advert.advertBytes advert.sig then .ok ()
  else .error .badSignature

end Advert

theorem TextMap.ofList_toList {β : Type} (m : TextMap β) :
    Std.ExtTreeMap.ofList m.toList compare = m := by
  apply Std.ExtTreeMap.ext_getElem?
  intro key
  cases found : m[key]? with
  | none =>
    apply Std.ExtTreeMap.getElem?_ofList_of_contains_eq_false
    rw [Std.ExtTreeMap.map_fst_toList_eq_keys, Std.ExtTreeMap.contains_keys]
    rw [← Std.ExtTreeMap.isSome_getElem?_eq_contains, found]
    rfl
  | some value =>
    apply Std.ExtTreeMap.getElem?_ofList_of_mem Std.ReflCmp.compare_self
      Std.ExtTreeMap.distinct_keys_toList
    exact Std.ExtTreeMap.mem_toList_iff_getElem?_eq_some.mpr found

theorem readMap_mapValue {β : Type} {read : Value → Option β} {write : β → Value}
    (back : ∀ value, read (write value) = some value) (m : TextMap β) :
    readMap read (mapValue write m) = some m := by
  have entries : ∀ list : List (String × β),
      (list.map (fun entry => (Value.text entry.1, write entry.2))).mapM (readEntry read) =
      some list := by
    intro list
    induction list with
    | nil => rfl
    | cons first others ih =>
      rw [map_cons, mapM_cons, ih]
      simp [readEntry, readText, back]
  unfold mapValue record readMap
  rw [map_map]
  exact (congrArg (Option.map _) (entries m.toList)).trans (congrArg some m.ofList_toList)

theorem readU32_uint (n : UInt32) : readU32 (.uint n.toNat) = some n := by
  unfold readU32
  rw [readUint_uint n.toNat_lt, Option.map_some, UInt32.ofNat_toNat]

theorem ProtoCaps.ofValue_toValue (caps : ProtoCaps) : ofValue caps.toValue = some caps := by
  have payload : defaulted "max_payload" (readOption readU32) none caps.toValue =
      some caps.maxPayload :=
    readOption_optionValue (fun n _ => ⟨readU32_uint n, by simp⟩)
  unfold ofValue
  rw [payload]
  rfl

theorem SecurityCaps.ofValue_toValue (caps : SecurityCaps) : ofValue caps.toValue = some caps := by
  have key : defaulted "sealed_key" (readOption readText) none caps.toValue = some caps.sealedKey :=
    readOption_optionValue (fun s _ => ⟨readText_text s, by simp⟩)
  unfold ofValue
  rw [key]
  rfl

theorem Advert.ofValue_toValue (advert : Advert) : ofValue advert.toValue = some advert := by
  have version : required "rf_version" readU32 advert.toValue = some advert.rfVersion :=
    readU32_uint advert.rfVersion
  have services : required "services" (readMap readBool) advert.toValue = some advert.services :=
    readMap_mapValue (fun _ : Bool => rfl) advert.services
  have protocols : required "protocols" (readMap ProtoCaps.ofValue) advert.toValue =
      some advert.protocols := readMap_mapValue ProtoCaps.ofValue_toValue advert.protocols
  have security : required "security" SecurityCaps.ofValue advert.toValue = some advert.security :=
    advert.security.ofValue_toValue
  have expires : required "expires" readInt advert.toValue = some advert.expires.toInt :=
    readInt_intValue (Int64.le_toInt _) (Int64.toInt_lt _)
  unfold ofValue
  rw [version, services, protocols, security, expires]
  simp only [Option.bind_eq_bind, Option.bind_some, Int64.ofInt_toInt]
  rfl

theorem size_field_le {fields : List (String × Value)} {field : String × Value}
    (member : field ∈ fields) :
    field.1.utf8ByteSize + field.2.size ≤ (record fields).size := by
  have each : textBytes field.1 + field.2.size ≤
      (fields.map (fun field => textBytes field.1 + field.2.size)).sum :=
    single_le_sum (fun _ _ => Nat.zero_le _) _ (mem_map_of_mem member)
  rw [size_record]
  unfold textBytes at each
  unfold textBytes
  omega

theorem length_le_size (fields : List (String × Value)) : fields.length ≤ (record fields).size := by
  have some : ∀ n, 1 ≤ Lib.Cbor.headSize n := by
    intro n
    unfold Lib.Cbor.headSize
    split_ifs <;> omega
  rw [size_record]
  refine Nat.le_trans ?_ (Nat.le_add_left _ _)
  induction fields with
  | nil => exact Nat.zero_le _
  | cons first others ih =>
    rw [length_cons, map_cons, sum_cons]
    have head := some first.1.utf8ByteSize
    unfold textBytes
    unfold textBytes at ih
    omega

theorem Sound.map {β : Type} {write : β → Value} {n : Nat}
    (each : ∀ value, (write value).size < 2 ^ 64 → Sound .cbor (n + 1) (write value))
    {m : TextMap β}
    (small : (mapValue write m).size < 2 ^ 64) : Sound .cbor (n + 2) (mapValue write m) := by
  refine .record ((length_le_size _).trans_lt small) (fun field member => ?_)
  have bound := (size_field_le member).trans_lt small
  obtain ⟨entry, -, rfl⟩ := mem_map.mp member
  dsimp only at bound ⊢
  exact ⟨show entry.1.utf8ByteSize < 2 ^ 64 by omega, each entry.2 (by omega)⟩

theorem Sound.bool (b : Bool) (n : Nat) : Sound .cbor (n + 1) (.bool b) :=
  ⟨rfl, Nat.le_add_left 1 n, fun _ => rfl⟩

theorem ProtoCaps.sound (caps : ProtoCaps) : Sound .cbor 2 caps.toValue := by
  refine .record (by simp) ?_
  simp only [forall_mem_cons]
  exact ⟨⟨by decide, .bool _ 0⟩, ⟨by decide, .bool _ 0⟩, ⟨by decide, .bool _ 0⟩,
    ⟨by decide, .bool _ 0⟩,
    ⟨by decide, .option (fun n : UInt32 => .uint (n.toNat_lt.trans (by decide)) 0) _⟩, by simp⟩

theorem short_of_size {s : String} (small : (Value.text s).size < 2 ^ 64) : Short s :=
  (Nat.le_add_left _ _).trans_lt small

theorem Sound.optionText {s : Option String} (small : (optionValue .text s).size < 2 ^ 64) :
    Sound .cbor 1 (optionValue .text s) := by
  cases s with
  | none => exact ⟨rfl, Nat.le_refl 1, fun _ => rfl⟩
  | some key => exact .text (short_of_size small) 0

theorem fields_small {fields : List (String × Value)} (small : (record fields).size < 2 ^ 64) :
    ∀ field ∈ fields, field.2.size < 2 ^ 64 := by
  intro field member
  exact (Nat.le_add_left _ _).trans_lt ((size_field_le member).trans_lt small)

theorem SecurityCaps.sound {caps : SecurityCaps} (small : caps.toValue.size < 2 ^ 64) :
    Sound .cbor 2 caps.toValue := by
  have fits := fields_small small
  simp only [forall_mem_cons] at fits
  obtain ⟨-, -, -, key, -⟩ := fits
  refine .record (by simp) ?_
  simp only [forall_mem_cons]
  exact ⟨⟨by decide, .bool _ 0⟩, ⟨by decide, .bool _ 0⟩, ⟨by decide, .bool _ 0⟩,
    ⟨by decide, .optionText key⟩, by simp⟩

theorem Advert.sound {advert : Advert} (small : advert.toValue.size < 2 ^ 64) :
    Sound .cbor 4 advert.toValue := by
  have fits := fields_small small
  simp only [fields, forall_mem_cons] at fits
  obtain ⟨-, node, name, services, protocols, security, -, sig, -⟩ := fits
  have version : advert.rfVersion.toNat < 2 ^ 64 := advert.rfVersion.toNat_lt.trans (by decide)
  have signature : advert.sig.length < 2 ^ 64 := (Nat.le_add_left _ _).trans_lt sig
  refine .record (by simp [fields]) ?_
  simp only [fields, forall_mem_cons]
  exact ⟨⟨by decide, .uint version 2⟩, ⟨by decide, .text (short_of_size node) 2⟩,
    ⟨by decide, .text (short_of_size name) 2⟩,
    ⟨by decide, .map (fun b _ => .bool b 1) services⟩,
    ⟨by decide, .map (fun caps _ => caps.sound) protocols⟩,
    ⟨by decide, (SecurityCaps.sound security).mono (by decide)⟩,
    ⟨by decide, .int (Int64.le_toInt _) (Int64.toInt_lt _) 2⟩,
    ⟨by decide, .raw signature 2⟩, by simp⟩

theorem Advert.length_encode (advert : Advert) : advert.encode.length = advert.toValue.size :=
  Value.length_encode _

theorem Advert.decode_encode {advert : Advert} (small : advert.encode.length < 2 ^ 64) :
    decode advert.encode = some advert := by
  rw [length_encode] at small
  have sound := Advert.sound small
  unfold decode encode
  rw [fromReader_encode ofValue (sound.height.trans (by decide)) sound.fits, ofValue_toValue]

/-- `Fed` in full: the frames of the engine and the two of discovery. -/
inductive LinkFrame
  | engine (frame : Fed)
  | advert (advert : Advert)
  | advertReq

namespace LinkFrame

def tag : LinkFrame → String
  | engine frame => frame.tag
  | advert _ => "advert"
  | advertReq => "advert_req"

def toValue (T : Chrono) : LinkFrame → Value
  | engine frame => frame.toValue T
  | advert doc => record [("t", .text "advert"), ("advert", doc.toValue)]
  | advertReq => record [("t", .text "advert_req")]

def encode (T : Chrono) (frame : LinkFrame) : Bytes := (frame.toValue T).encode

def decodeTagged (T : Chrono) (tag : String) (bytes : Bytes) : Option LinkFrame :=
  match tag with
  | "advert" => (fromReader (required "advert" Advert.ofValue) bytes).map advert
  | "advert_req" => some advertReq
  | _ => (RelayFabric.decodeTagged T tag bytes).map engine

def Held : LinkFrame → Prop
  | engine frame => frame.Held
  | advert doc => doc.encode.length < 2 ^ 64
  | advertReq => True

def ReadFrom (T : Chrono) (bytes : Bytes) : LinkFrame → Prop
  | engine frame => frame.ReadFrom T bytes
  | advert doc => fromReader (required "advert" Advert.ofValue) bytes = some doc
  | advertReq => True

variable {T : Chrono} {frame : LinkFrame}

theorem decodeTagged_iff {tag : String} {bytes : Bytes} :
    decodeTagged T tag bytes = some frame ↔ tag = frame.tag ∧ frame.ReadFrom T bytes := by
  constructor
  · intro decoded
    unfold decodeTagged at decoded
    split at decoded
    · obtain ⟨doc, read, rfl⟩ := Option.map_eq_some_iff.mp decoded
      exact ⟨rfl, read⟩
    · cases decoded
      exact ⟨rfl, trivial⟩
    · obtain ⟨inner, read, rfl⟩ := Option.map_eq_some_iff.mp decoded
      exact RelayFabric.decodeTagged_iff.mp read
  · rintro ⟨rfl, read⟩
    cases frame with
    | engine inner =>
      have decoded := RelayFabric.decodeTagged_iff.mpr ⟨rfl, read⟩
      cases inner <;> exact congrArg (Option.map engine) decoded
    | advert doc => exact congrArg (Option.map advert) read
    | advertReq => rfl

theorem sound (held : frame.Held) (faithful : T.Faithful) : Sound .cbor 6 (frame.toValue T) := by
  cases frame with
  | engine inner => exact Fed.sound held faithful
  | advert doc =>
    have small : doc.toValue.size < 2 ^ 64 := doc.length_encode ▸ held
    refine .tagged (by decide) (by simp) ?_
    simp only [forall_mem_cons]
    exact ⟨⟨by decide, (Advert.sound small).mono (by decide)⟩, by simp⟩
  | advertReq => exact .tagged (by decide) (by simp) (by simp)

theorem fromReader_encode {α : Type} (read : Value → Option α) (held : frame.Held)
    (faithful : T.Faithful) : fromReader read (frame.encode T) = read (frame.toValue T) := by
  have sound := sound held faithful
  exact RelayFabric.fromReader_encode read (sound.height.trans (by decide)) sound.fits

theorem peekTag_encode (held : frame.Held) (faithful : T.Faithful) :
    peekTag (frame.encode T) = some frame.tag := by
  unfold peekTag
  rw [fromReader_encode _ held faithful]
  cases frame with
  | engine inner => cases inner <;> rfl
  | advert doc => rfl
  | advertReq => rfl

theorem readFrom_encode (known : frame ≠ engine .unknown) (held : frame.Held)
    (faithful : T.Faithful) : frame.ReadFrom T (frame.encode T) := by
  cases frame with
  | engine inner =>
    exact Fed.readFrom_encode (fun same => known (congrArg engine same)) held faithful
  | advert doc => exact (fromReader_encode _ held faithful).trans doc.ofValue_toValue
  | advertReq => trivial

end LinkFrame

end RelayFabric
