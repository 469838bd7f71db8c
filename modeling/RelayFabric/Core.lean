/- source: crates/relay-core/src/lib.rs, crates/relay-core/src/transport.rs, chrono, uuid
   digest: Envelopes, endpoints, instants, identifiers and transport classes. -/

import Mathlib.Data.List.Basic
import Mathlib.Tactic.NormNum
import Mathlib.Tactic.Ring

namespace RelayFabric

open List

abbrev Bytes := List UInt8

/-- Instants and spans are in nanoseconds: a `DateTime<Utc>` since the epoch, an `Instant` since
boot, a `Duration::seconds`. -/
def seconds (n : Int) : Int := n * 1000000000

def minUtc : Int := seconds (-8334601228800)

def maxUtc : Int := seconds 8210266876799 + 999999999

def checkedAdd (t span : Int) : Option Int :=
  if minUtc ≤ t + span ∧ t + span ≤ maxUtc then some (t + span) else none

def timestamp (t : Int) : Int := t / 1000000000

def durationSince (now earlier : Int) : Int := max (now - earlier) 0

theorem eq_of_toLower_eq {c d : Char} (same : c.toLower = d) (apart : d.isLower = false) :
    c = d := by
  unfold Char.toLower at same
  split at same
  · rename_i upper
    have low : (65 : UInt32) ≤ c.val := upper.1
    have high : c.val ≤ 90 := upper.2
    have lower : ¬(97 ≤ d.val ∧ d.val ≤ 122) := by
      have range : d.isLower = (decide (97 ≤ d.val) && decide (d.val ≤ 122)) := rfl
      simpa [range] using apart
    have value : d.val = c.val + 32 := (congrArg Char.val same).symm
    rw [value] at lower
    simp only [UInt32.le_iff_toNat_le, UInt32.toNat_add] at low high lower
    simp at low high lower
    omega
  · exact same

theorem checkedAdd_eq_some {t span sum : Int} (fits : checkedAdd t span = some sum) :
    sum = t + span := by
  unfold checkedAdd at fits
  split at fits
  · exact (Option.some.inj fits).symm
  · exact absurd fits (by simp)

structure Clock where
  utc : Int
  instant : Int
  deriving DecidableEq, Repr

def hexDigit (n : Nat) : Char := ("0123456789abcdef".toList).getD n '0'

def hexDigits : Nat → Nat → List Char
  | 0, _ => []
  | width + 1, n => hexDigits width (n / 16) ++ [hexDigit (n % 16)]

def hexValue (c : Char) : Option Nat :=
  if '0' ≤ c ∧ c ≤ '9' then some (c.toNat - '0'.toNat)
  else if 'a' ≤ c ∧ c ≤ 'f' then some (c.toNat - 'a'.toNat + 10)
  else if 'A' ≤ c ∧ c ≤ 'F' then some (c.toNat - 'A'.toNat + 10)
  else none

def hexParse (acc : Nat) : List Char → Option Nat
  | [] => some acc
  | c :: rest => (hexValue c).bind (fun v => hexParse (acc * 16 + v) rest)

instance Uuid.range_neZero : NeZero (2 ^ 128) := ⟨by decide⟩

structure Uuid where
  bits : Fin (2 ^ 128)
  deriving DecidableEq, Repr

namespace Uuid

def groups (u : Uuid) : List (List Char) :=
  let n := u.bits.val
  [hexDigits 8 (n / 16 ^ 24), hexDigits 4 (n / 16 ^ 20 % 16 ^ 4),
    hexDigits 4 (n / 16 ^ 16 % 16 ^ 4),
    hexDigits 4 (n / 16 ^ 12 % 16 ^ 4), hexDigits 12 (n % 16 ^ 12)]

def chars (u : Uuid) : List Char := List.intercalate ['-'] u.groups

def toText (u : Uuid) : String := String.ofList u.chars

def ofNumber (n : Nat) : Option Uuid :=
  if fits : n < 2 ^ 128 then some ⟨⟨n, fits⟩⟩ else none

def parseHyphenated (cs : List Char) : Option Uuid :=
  if cs.length = 36 ∧ (cs.drop 8).head? = some '-' ∧ (cs.drop 13).head? = some '-' ∧
      (cs.drop 18).head? = some '-' ∧ (cs.drop 23).head? = some '-' then
    (hexParse 0 (cs.take 8 ++ (cs.drop 9).take 4 ++ (cs.drop 14).take 4 ++ (cs.drop 19).take 4 ++
      cs.drop 24)).bind ofNumber
  else none

def parseStr (s : String) : Option Uuid :=
  let cs := s.toList
  if cs.length = 32 then (hexParse 0 cs).bind ofNumber
  else if cs.length = 38 ∧ cs.head? = some '\x7b' ∧ cs.getLast? = some '\x7d' then
    parseHyphenated ((cs.drop 1).take 36)
  else if cs.length = 45 ∧ cs.take 9 = "urn:uuid:".toList then parseHyphenated (cs.drop 9)
  else parseHyphenated cs

end Uuid

def priorityClasses : List String := ["emergency", "high", "normal", "bulk", "background"]

def defaultPriority : String := "normal"

def priorityRank (priority : String) : Nat :=
  ((priorityClasses.findIdx? (· == priority))).getD 2

theorem priorityRank_normal : priorityRank "normal" = 2 := by decide

structure Endpoint where
  protocol : String
  endpoint : String
  deriving DecidableEq, Repr

structure Sender where
  nativeRef : String
  deriving DecidableEq, Repr

structure AttachmentMeta where
  filename : String
  mime : String
  size : Nat
  sha256 : String
  deriving DecidableEq, Repr

structure OriginSig where
  nodeId : String
  sig : Bytes
  deriving DecidableEq, Repr

structure Attestation where
  nodeId : String
  ts : Int
  sig : Bytes
  deriving DecidableEq, Repr

structure Envelope where
  version : Nat
  id : Uuid
  source : Endpoint
  sender : Sender
  kind : String
  body : String
  createdAt : Int
  receivedAt : Int
  expiresAt : Int
  replyTo : Option Uuid
  hopCount : Nat
  hopLimit : Nat
  attachments : List AttachmentMeta
  priority : String
  origin : Option OriginSig
  attestations : List Attestation
  hops : Nat
  deriving DecidableEq, Repr

namespace Envelope

def new (id : Uuid) (receivedAt : Int) (source : Endpoint) (sender : Sender) (kind body : String)
    (createdAt expiresAt : Int) (hopLimit : Nat) : Envelope where
  version := 1
  id := id
  source := source
  sender := sender
  kind := kind
  body := body
  createdAt := createdAt
  receivedAt := receivedAt
  expiresAt := expiresAt
  replyTo := none
  hopCount := 0
  hopLimit := hopLimit
  attachments := []
  priority := defaultPriority
  origin := none
  attestations := []
  hops := 0

def isExpired (env : Envelope) (now : Int) : Bool := decide (env.expiresAt ≤ now)

end Envelope

structure Capabilities where
  directMessages : Bool
  attachments : Bool
  maxPayload : Option Nat
  deriving DecidableEq, Repr

inductive TransportClass
  | terrestrialInternet | satelliteInternet | reticulum | meshtastic | meshCore | bluetooth
  | localNetwork
  deriving DecidableEq, Repr

structure TransportPolicy where
  maxPayloadBytes : Nat
  allowImages : Bool
  allowVideo : Bool
  compress : Bool
  batchTelemetry : Bool
  deriving DecidableEq, Repr

def TransportPolicy.forClass : TransportClass → TransportPolicy
  | .satelliteInternet => ⟨32 * 1024, false, false, true, true⟩
  | .meshtastic => ⟨237, false, false, true, true⟩
  | .meshCore => ⟨237, false, false, true, true⟩
  | .reticulum => ⟨32 * 1024, true, true, false, true⟩
  | .terrestrialInternet => ⟨16 * 1024 * 1024, true, true, false, false⟩
  | .bluetooth => ⟨65536, true, true, false, true⟩
  | .localNetwork => ⟨16 * 1024 * 1024, true, true, false, false⟩

theorem not_mem_hexDigits {c : Char} (other : ∀ k < 16, hexDigit k ≠ c) (width n : Nat) :
    c ∉ hexDigits width n := by
  induction width generalizing n with
  | zero => exact not_mem_nil
  | succ width ih =>
    intro member
    rcases mem_append.mp member with upper | last
    · exact ih (n / 16) upper
    · exact other (n % 16) (Nat.mod_lt n (by decide)) (mem_singleton.mp last).symm

@[simp] theorem length_hexDigits (width n : Nat) : (hexDigits width n).length = width := by
  induction width generalizing n with
  | zero => rfl
  | succ width ih => simp [hexDigits, ih]

private theorem hexValue_hexDigit {n : Nat} (small : n < 16) : hexValue (hexDigit n) = some n := by
  revert n
  decide

private theorem hexParse_append (acc : Nat) (left right : List Char) :
    hexParse acc (left ++ right) = (hexParse acc left).bind (fun v => hexParse v right) := by
  induction left generalizing acc with
  | nil => rfl
  | cons c rest ih =>
    simp only [cons_append, hexParse]
    cases hexValue c with
    | none => rfl
    | some v => exact ih (acc * 16 + v)

theorem hexParse_hexDigits (acc width n : Nat) (fits : n < 16 ^ width) :
    hexParse acc (hexDigits width n) = some (acc * 16 ^ width + n) := by
  induction width generalizing n with
  | zero =>
    have zero : n = 0 := by simpa using fits
    simp [hexDigits, hexParse, zero]
  | succ width ih =>
    have upper : n / 16 < 16 ^ width := by
      rw [Nat.div_lt_iff_lt_mul (by norm_num)]
      simpa [pow_succ] using fits
    have digit : n % 16 < 16 := Nat.mod_lt _ (by norm_num)
    simp only [hexDigits, hexParse_append, ih (n / 16) upper, Option.bind_some, hexParse,
      hexValue_hexDigit digit, Option.some.injEq]
    have split := Nat.div_add_mod n 16
    calc
      (acc * 16 ^ width + n / 16) * 16 + n % 16
          = acc * 16 ^ (width + 1) + (16 * (n / 16) + n % 16) := by ring
      _ = acc * 16 ^ (width + 1) + n := by rw [split]

namespace Uuid

private theorem chars_eq (u : Uuid) :
    u.chars = hexDigits 8 (u.bits.val / 16 ^ 24) ++ '-' ::
      (hexDigits 4 (u.bits.val / 16 ^ 20 % 16 ^ 4) ++ '-' ::
        (hexDigits 4 (u.bits.val / 16 ^ 16 % 16 ^ 4) ++ '-' ::
          (hexDigits 4 (u.bits.val / 16 ^ 12 % 16 ^ 4) ++ '-' ::
            hexDigits 12 (u.bits.val % 16 ^ 12)))) := by
  simp [chars, groups, List.intercalate, List.intersperse]

theorem length_chars (u : Uuid) : u.chars.length = 36 := by
  simp [chars_eq]

theorem utf8Size_of_mem_chars (u : Uuid) {c : Char} (member : c ∈ u.chars) : c.utf8Size = 1 := by
  by_contra wide
  have other : ∀ k < 16, hexDigit k ≠ c := by
    rintro k small rfl
    have narrow : ∀ k < 16, (hexDigit k).utf8Size = 1 := by decide
    exact wide (narrow k small)
  have digits := not_mem_hexDigits other
  rw [chars_eq] at member
  simp only [mem_append, mem_cons, digits, false_or, or_false, or_self] at member
  exact wide (by rw [member]; decide)

theorem s_not_mem_chars (u : Uuid) : 's' ∉ u.chars := by
  intro member
  have digits := not_mem_hexDigits (c := 's') (by decide)
  rw [chars_eq] at member
  simp [digits] at member

private theorem parseHyphenated_groups {a b c d e : List Char} (la : a.length = 8)
    (lb : b.length = 4) (lc : c.length = 4) (ld : d.length = 4) (le : e.length = 12) :
    parseHyphenated (a ++ '-' :: (b ++ '-' :: (c ++ '-' :: (d ++ '-' :: e)))) =
      (hexParse 0 (a ++ b ++ c ++ d ++ e)).bind ofNumber := by
  unfold parseHyphenated
  simp (disch := omega) [drop_append, la, lb, lc, ld, le, drop_eq_nil_of_le]

theorem parseStr_toText (u : Uuid) : parseStr u.toText = some u := by
  have top : u.bits.val / 16 ^ 24 < 16 ^ 8 := by
    omega
  have number : u.bits.val = ((((u.bits.val / 16 ^ 24) * 16 ^ 4 + u.bits.val / 16 ^ 20 % 16 ^ 4) *
      16 ^ 4 + u.bits.val / 16 ^ 16 % 16 ^ 4) * 16 ^ 4 + u.bits.val / 16 ^ 12 % 16 ^ 4) * 16 ^ 12 +
      u.bits.val % 16 ^ 12 := by
    omega
  have small (k : Nat) : u.bits.val / k % 16 ^ 4 < 16 ^ 4 := Nat.mod_lt _ (by norm_num)
  have low : u.bits.val % 16 ^ 12 < 16 ^ 12 := Nat.mod_lt _ (by norm_num)
  have parsed : parseHyphenated u.chars = some u := by
    rw [chars_eq, parseHyphenated_groups (by simp) (by simp) (by simp) (by simp) (by simp)]
    simp only [hexParse_append, hexParse_hexDigits _ _ _ top, hexParse_hexDigits _ _ _ (small _),
      hexParse_hexDigits _ _ _ low, Option.bind_some, zero_mul, zero_add, ← number, ofNumber]
    exact dif_pos u.bits.isLt
  unfold parseStr toText
  simp [length_chars, parsed]

theorem toText_injective {u w : Uuid} (same : u.toText = w.toText) : u = w := by
  have read := parseStr_toText u
  rw [same, parseStr_toText] at read
  exact (Option.some.inj read).symm

end Uuid

end RelayFabric
