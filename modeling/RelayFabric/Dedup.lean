/- source: dedup.rs (key, Dedup), engine.rs (handle_inbound)
   digest: What one content key says of two messages, and what the duplicate cache answers. -/

import Mathlib
import RelayFabric.Federation.Address
import RelayFabric.Wire.Sign

namespace RelayFabric

open List Lib

theorem leBytes_eq_reverse (n : Nat) : leBytes n = (bigEndian 8 n).reverse := by
  simp [leBytes, bigEndian, range_succ, Nat.div_div_eq_div_mul]

theorem leBytes_inj {n m : Nat} (fits : n < 2 ^ 64) (fits' : m < 2 ^ 64)
    (same : leBytes n = leBytes m) : n = m := by
  rw [leBytes_eq_reverse, leBytes_eq_reverse, reverse_inj] at same
  have back : ofBigEndian (bigEndian 8 n) = n := ofBigEndian_bigEndian fits
  rw [← back, same]
  exact ofBigEndian_bigEndian fits'

def prefixed (field : String) : Bytes := leBytes field.utf8ByteSize ++ utf8 field

theorem prefixed_append_inj {s t : String} (short : Short s) (short' : Short t) {rest rest' : Bytes}
    (same : prefixed s ++ rest = prefixed t ++ rest') : s = t ∧ rest = rest' := by
  unfold prefixed at same
  rw [append_assoc, append_assoc] at same
  obtain ⟨lengths, same⟩ := append_inj same (by simp [leBytes])
  have sizes := leBytes_inj short short' lengths
  obtain ⟨contents, same⟩ := append_inj same sizes
  exact ⟨utf8_injective contents, same⟩

theorem prefixed_inj {fields fields' : List String} (count : fields.length = fields'.length)
    (short : ∀ s ∈ fields, Short s) (short' : ∀ s ∈ fields', Short s)
    (same : fields.flatMap prefixed = fields'.flatMap prefixed) : fields = fields' := by
  induction fields generalizing fields' with
  | nil => exact (length_eq_zero_iff.mp count.symm).symm
  | cons s fields ih =>
    cases fields' with
    | nil => exact absurd count (by simp)
    | cons t fields' =>
      rw [forall_mem_cons] at short short'
      obtain ⟨first, others⟩ := prefixed_append_inj short.1 short'.1 same
      rw [first, ih (Nat.succ.inj count) short.2 short'.2 others]

theorem comma_notMem_of_isValidHex64 {s : String} (hex : isValidHex64 s = true) :
    ',' ∉ s.toList := by
  unfold isValidHex64 at hex
  rw [Bool.and_eq_true, all_eq_true] at hex
  intro member
  exact absurd (hex.2 ',' member) (by decide)

theorem join_ne_empty {s : String} {shas : List String} (hex : isValidHex64 s = true) :
    ",".intercalate (s :: shas) ≠ "" := by
  intro empty
  have letters := congrArg String.toList empty
  have solid : s.toList ≠ [] := by
    intro none
    rw [String.toList_eq_nil_iff.mp none] at hex
    exact absurd hex (by decide)
  cases shas with
  | nil | cons t shas => simp_all

theorem join_inj {shas shas' : List String} (hex : ∀ s ∈ shas, isValidHex64 s = true)
    (hex' : ∀ s ∈ shas', isValidHex64 s = true)
    (same : ",".intercalate shas = ",".intercalate shas') : shas = shas' := by
  cases shas with
  | nil =>
    cases shas' with
    | nil => rfl
    | cons t shas' => exact absurd same.symm (join_ne_empty (hex' t mem_cons_self))
  | cons s shas =>
    cases shas' with
    | nil => exact absurd same (join_ne_empty (hex s mem_cons_self))
    | cons t shas' =>
      have letters := congrArg String.toList same
      rw [String.toList_intercalate, String.toList_intercalate] at letters
      have split : ∀ l : List String, l ≠ [] → (∀ s ∈ l, isValidHex64 s = true) →
          ([','].intercalate (l.map String.toList)).splitOn ',' = l.map String.toList := by
        intro l nonempty hex
        refine splitOn_intercalate ',' ?_ (by simpa using nonempty)
        rw [forall_mem_map]
        exact fun s member => comma_notMem_of_isValidHex64 (hex s member)
      have pieces := congrArg (List.splitOn ',') letters
      rw [show ",".toList = [','] by decide, split _ (by simp) hex, split _ (by simp) hex']
        at pieces
      exact map_injective_iff.mpr (fun _ _ => String.toList_inj.mp) pieces

theorem insertionSort_eq_iff (shas shas' : List String) :
    shas.insertionSort (· ≤ ·) = shas'.insertionSort (· ≤ ·) ↔ shas.Perm shas' := by
  have perm := perm_insertionSort (· ≤ ·) shas
  have perm' := perm_insertionSort (· ≤ ·) shas'
  constructor
  · intro same
    exact perm.symm.trans (same ▸ perm')
  · intro same
    exact ((perm.trans same).trans perm'.symm).eq_of_pairwise'
      (pairwise_insertionSort (· ≤ ·) shas) (pairwise_insertionSort (· ≤ ·) shas')

structure KeyInput where
  protocol : String
  sender : String
  endpoint : String
  body : String
  createdAt : Option Int
  shas : List String

namespace KeyInput

def key (K : Crypto) (m : KeyInput) : String :=
  dedupKey K m.protocol m.sender m.endpoint m.body m.createdAt m.shas

def ts (m : KeyInput) : String := (m.createdAt.map (fun t => toString (timestamp t))).getD ""

def fields (m : KeyInput) : List String :=
  [m.protocol, m.sender, m.endpoint, m.ts, m.body, ",".intercalate (m.shas.insertionSort (· ≤ ·))]

theorem key_eq (K : Crypto) (m : KeyInput) : m.key K = K.sha256 (m.fields.flatMap prefixed) := rfl

structure Held (m : KeyInput) : Prop where
  short : ∀ s ∈ m.fields, Short s
  hex : ∀ s ∈ m.shas, isValidHex64 s = true

theorem ts_eq_iff (a b : KeyInput) :
    a.ts = b.ts ↔ a.createdAt.map timestamp = b.createdAt.map timestamp := by
  have solid : ∀ n : Int, toString n ≠ "" := by
    intro n empty
    cases n with
    | ofNat k => exact Nat.repr_ne_empty empty
    | negSucc k =>
      have letters := congrArg String.toList empty
      change ("-" ++ Nat.repr (k + 1)).toList = _ at letters
      simp at letters
  unfold ts
  cases a.createdAt with
  | none =>
    cases b.createdAt with
    | none => simp
    | some u => simpa using (solid (timestamp u)).symm
  | some t =>
    cases b.createdAt with
    | none => simpa using solid (timestamp t)
    | some u =>
      simp only [Option.map_some, Option.getD_some, Option.some.injEq]
      exact Int.repr_inj

/-- The key tells apart everything about a message but the order of its attachments and the
fraction of its second. -/
theorem key_eq_iff {K : Crypto} (injective : Function.Injective K.sha256) {a b : KeyInput}
    (held : a.Held) (held' : b.Held) :
    a.key K = b.key K ↔ a.protocol = b.protocol ∧ a.sender = b.sender ∧ a.endpoint = b.endpoint ∧
      a.body = b.body ∧ a.createdAt.map timestamp = b.createdAt.map timestamp ∧
      a.shas.Perm b.shas := by
  have sorted : ∀ {m : KeyInput}, m.Held →
      ∀ s ∈ m.shas.insertionSort (· ≤ ·), isValidHex64 s = true := by
    intro m held s member
    exact held.hex s ((mem_insertionSort _).mp member)
  have hashed : a.key K = b.key K ↔ a.fields = b.fields := by
    rw [key_eq, key_eq, injective.eq_iff]
    exact ⟨prefixed_inj rfl held.short held'.short, fun same => by rw [same]⟩
  have joined : ",".intercalate (a.shas.insertionSort (· ≤ ·)) =
      ",".intercalate (b.shas.insertionSort (· ≤ ·)) ↔ a.shas.Perm b.shas := by
    rw [← insertionSort_eq_iff]
    exact ⟨join_inj (sorted held) (sorted held'), fun same => by rw [same]⟩
  rw [hashed, ← ts_eq_iff, ← joined]
  simp only [fields, List.cons.injEq, and_true]
  tauto

def tracing : Crypto :=
  { Crypto.clear "gateway" with
    sha256 := fun bytes => String.ofList (bytes.flatMap (fun b => hexDigits 2 b.toNat)) }

theorem tracing_injective : Function.Injective tracing.sha256 := by
  intro bytes bytes' same
  have letters := String.ofList_injective same
  induction bytes generalizing bytes' with
  | nil => cases bytes' <;> simp_all [hexDigits]
  | cons b bytes ih =>
    cases bytes' with
    | nil => simp_all [hexDigits]
    | cons c bytes' =>
      obtain ⟨digits, rest⟩ := append_inj letters (by simp)
      have parsed := congrArg (hexParse 0) digits
      rw [hexParse_hexDigits 0 2 _ b.toNat_lt, hexParse_hexDigits 0 2 _ c.toNat_lt] at parsed
      have number : b = c := UInt8.toNat_inj.mp (by simpa using parsed)
      rw [number, ih (congrArg String.ofList rest) rest]

/-- Two messages with the attachments swapped and half a second apart. -/
theorem key_eq_iff_swapped :
    let a : KeyInput := ⟨"x", "ann", "lobby", "hello", some 0,
      [String.ofList (List.replicate 64 'a'), String.ofList (List.replicate 64 'b')]⟩
    let b : KeyInput := ⟨"x", "ann", "lobby", "hello", some 500000000,
      [String.ofList (List.replicate 64 'b'), String.ofList (List.replicate 64 'a')]⟩
    a.Held ∧ b.Held ∧ a.key tracing = b.key tracing := by
  intro a b
  have held : a.Held := ⟨by decide +kernel, by decide +kernel⟩
  have held' : b.Held := ⟨by decide +kernel, by decide +kernel⟩
  refine ⟨held, held', (key_eq_iff tracing_injective held held').mpr ?_⟩
  exact ⟨rfl, rfl, rfl, rfl, rfl, List.Perm.swap _ _ _⟩

end KeyInput

namespace Dedup

inductive Call
  | record (key : String) (now : Int)
  | isDuplicate (key : String) (now : Int)
  | setTtl (ttl : Int)
  deriving DecidableEq

def Call.time : Call → Option Int
  | .record _ now => some now
  | .isDuplicate _ now => some now
  | .setTtl _ => none

def call (d : Dedup) : Call → Dedup
  | .record key now => d.record key now
  | .isDuplicate key now => (d.isDuplicate key now).2
  | .setTtl ttl => d.setTtl ttl

def after (d : Dedup) (calls : List Call) : Dedup := calls.foldl call d

def lastRecord (key : String) : Int → List Call → Option (Int × Int)
  | _, [] => none
  | ttl, .record other now :: calls =>
    (lastRecord key ttl calls).or (if key = other then some (now, ttl) else none)
  | ttl, .isDuplicate _ _ :: calls => lastRecord key ttl calls
  | _, .setTtl ttl :: calls => lastRecord key ttl calls

def Call.concerns (key : String) : Call → Bool
  | .record other _ => decide (key = other)
  | .isDuplicate _ _ => false
  | .setTtl _ => true

variable {key : String} {now : Int} {calls : List Call}

def MadeBy (calls : List Call) (now : Int) : Prop := ∀ c ∈ calls, ∀ t ∈ c.time, t ≤ now

theorem MadeBy.cons {c : Call} (made : MadeBy (c :: calls) now) :
    (∀ t ∈ c.time, t ≤ now) ∧ MadeBy calls now := forall_mem_cons.mp made

theorem holds_after (made : MadeBy calls now) (d : Dedup) :
    (d.after calls).Holds key now ↔
      (∃ entry, lastRecord key d.ttl calls = some entry ∧ fresh now entry = true) ∨
        lastRecord key d.ttl calls = none ∧ d.Holds key now := by
  induction calls generalizing d with
  | nil => simp [after, lastRecord]
  | cons c calls ih =>
    have later := ih made.cons.2
    cases c with
    | record other t =>
      have ttl : (d.record other t).ttl = d.ttl := rfl
      change ((d.record other t).after calls).Holds key now ↔ _
      rw [later, holds_record, ttl]
      cases found : lastRecord key d.ttl calls with
      | none =>
        simp only [lastRecord, found]
        split_ifs with same <;> simp
      | some entry => simp [lastRecord, found]
    | isDuplicate other t =>
      change ((d.prune t).after calls).Holds key now ↔ _
      rw [later, holds_prune d (made.cons.1 t rfl)]
      exact Iff.rfl
    | setTtl ttl => exact later (d.setTtl ttl)

theorem MadeBy.of_lastRecord (made : MadeBy calls now) {ttl t ttl' : Int}
    (last : lastRecord key ttl calls = some (t, ttl')) : t ≤ now := by
  induction calls generalizing ttl with
  | nil => exact absurd last (by simp [lastRecord])
  | cons c calls ih =>
    cases c with
    | record other u =>
      rcases Option.or_eq_some_iff.mp last with later | ⟨_, here⟩
      · exact ih made.cons.2 later
      · split_ifs at here
        obtain ⟨rfl, rfl⟩ := Prod.mk.inj (Option.some.inj here)
        exact made.cons.1 u rfl
    | isDuplicate other u | setTtl next => exact ih made.cons.2 last

theorem lastRecord_filter (ttl : Int) :
    lastRecord key ttl (calls.filter (Call.concerns key)) = lastRecord key ttl calls := by
  induction calls generalizing ttl with
  | nil => rfl
  | cons c calls ih =>
    cases c with
    | record other t =>
      by_cases same : key = other
      · have kept : Call.concerns key (.record other t) = true := decide_eq_true same
        rw [filter_cons_of_pos kept]
        simp [lastRecord, ih]
      · rw [filter_cons_of_neg (by simpa [Call.concerns] using same), ih]
        simp [lastRecord, same]
    | isDuplicate other t => exact ih ttl
    | setTtl next => exact ih next

theorem lastRecord_eq_none (unrecorded : ∀ t, Call.record key t ∉ calls) (ttl : Int) :
    lastRecord key ttl calls = none := by
  induction calls generalizing ttl with
  | nil => rfl
  | cons c calls ih =>
    have later := ih (fun t member => unrecorded t (mem_cons_of_mem _ member))
    cases c with
    | record other t =>
      have apart : key ≠ other := fun same => unrecorded t (by simp [same])
      simp [lastRecord, later, apart]
    | isDuplicate other t => exact later ttl
    | setTtl next => exact later next

theorem isDuplicate_after (made : MadeBy calls now) (ttl : Int) :
    (((new ttl).after calls).isDuplicate key now).1 = true ↔
      ∃ t ttl', lastRecord key ttl calls = some (t, ttl') ∧ now - t < ttl' := by
  have empty : ¬ (new ttl).Holds key now := by simp [Holds, new, Map.empty]
  rw [isDuplicate_iff, holds_after made, or_iff_left (fun held => empty held.2)]
  constructor
  · rintro ⟨⟨t, ttl'⟩, last, alive⟩
    unfold fresh durationSince at alive
    rw [decide_eq_true_eq] at alive
    exact ⟨t, ttl', last, by omega⟩
  · rintro ⟨t, ttl', last, within⟩
    have past := made.of_lastRecord last
    refine ⟨(t, ttl'), last, ?_⟩
    unfold fresh durationSince
    rw [decide_eq_true_eq]
    omega

theorem isDuplicate_setTtl (made : MadeBy calls now) (unrecorded : ∀ t, Call.record key t ∉ calls)
    (d : Dedup) (ttl : Int) :
    ((d.after (.setTtl ttl :: calls)).isDuplicate key now).1 =
      ((d.after calls).isDuplicate key now).1 := by
  have idle : ∀ c : Dedup, (c.after calls).Holds key now ↔ c.Holds key now := by
    intro c
    rw [holds_after made, lastRecord_eq_none unrecorded]
    simp
  rw [Bool.eq_iff_iff, isDuplicate_iff, isDuplicate_iff, idle d]
  exact idle (d.setTtl ttl)

/-- The cache refines its history: it answers by the last record of the key and the TTL in force
then, a change of the TTL reaches only later records, and calls for other keys do not matter. -/
theorem cache_refines_history (ttl now : Int) (key : String) (calls : List Call)
    (made : MadeBy calls now) :
    ((((new ttl).after calls).isDuplicate key now).1 = true ↔
        ∃ t ttl', lastRecord key ttl calls = some (t, ttl') ∧ now - t < ttl') ∧
      (∀ before later ttl', calls = before ++ later → (∀ t, Call.record key t ∉ later) →
        (((new ttl).after (before ++ .setTtl ttl' :: later)).isDuplicate key now).1 =
          (((new ttl).after calls).isDuplicate key now).1) ∧
      (((new ttl).after (calls.filter (Call.concerns key))).isDuplicate key now).1 =
        (((new ttl).after calls).isDuplicate key now).1 := by
  refine ⟨isDuplicate_after made ttl, ?_, ?_⟩
  · rintro before later ttl' rfl unrecorded
    have rest : MadeBy later now := fun c member => made c (mem_append_right _ member)
    have split : ∀ calls, (new ttl).after (before ++ calls) =
        ((new ttl).after before).after calls :=
      fun calls => foldl_append
    rw [split, split]
    exact isDuplicate_setTtl rest unrecorded ..
  · have fewer : MadeBy (calls.filter (Call.concerns key)) now :=
      fun c member => made c (mem_filter.mp member).1
    rw [Bool.eq_iff_iff, isDuplicate_after fewer, isDuplicate_after made, lastRecord_filter]

/-- Recorded at second 1 under ten seconds and again at 4 under three, a key is gone at 7 and was
there at 6, whatever else was asked. -/
theorem cache_refines_history_run :
    let calls : List Call :=
      [.record "a" (seconds 1), .setTtl (seconds 3), .isDuplicate "b" (seconds 2),
      .record "a" (seconds 4)]
    MadeBy calls (seconds 6) ∧ (((new (seconds 10)).after calls).isDuplicate "a" (seconds 6)).1 =
      true ∧ (((new (seconds 10)).after calls).isDuplicate "a" (seconds 7)).1 = false := by
  intro calls
  have times : ∀ c ∈ calls, ∀ t ∈ c.time, t ≤ seconds 6 := by decide
  have later : ∀ c ∈ calls, ∀ t ∈ c.time, t ≤ seconds 7 := by decide
  have last : lastRecord "a" (seconds 10) calls = some (seconds 4, seconds 3) := by decide
  refine ⟨times, ?_, ?_⟩
  · exact (cache_refines_history (seconds 10) (seconds 6) "a" calls times).1.mpr
      ⟨seconds 4, seconds 3, last, by decide⟩
  · rw [Bool.eq_false_iff]
    intro found
    obtain ⟨t, ttl', known, within⟩ :=
      (cache_refines_history (seconds 10) (seconds 7) "a" calls later).1.mp found
    obtain ⟨rfl, rfl⟩ := Prod.mk.inj (Option.some.inj (last.symm.trans known))
    exact absurd within (by decide)

end Dedup

end RelayFabric
