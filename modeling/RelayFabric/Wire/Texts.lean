/- source: chrono (DateTime<Utc> in serde, to_rfc3339), serde_json (to_string, from_str)
   digest: The texts of instants and of JSON values, and that they read back. -/

import RelayFabric.Timestamps
import RelayFabric.Wire.Codec

namespace RelayFabric

open List Lib Option
open Lib.Cbor (Value)

section Calendar

def cycleLength : Int := seconds (146097 * 86400)

theorem yearOf_lt_cycle {day : Nat} (inside : day < 146097) : yearOf day < 400 := by
  have cycle : (yearLengths.take 400).sum = 146097 := by decide +kernel
  have days := sum_yearLengths
  have date := (dated (show day < yearLengths.sum by omega)).number
  by_contra late
  have more : (yearLengths.take 400).sum ≤ (yearLengths.take (yearOf day)).sum :=
    (take_sublist_take_left (Nat.le_of_not_lt late)).sum_le_sum (fun _ _ => Nat.zero_le _)
  unfold dayNumber at date
  omega

def yearText (year : Int) : List Char :=
  if 0 ≤ year ∧ year < 10000 then decimal 4 year.toNat
  else (if year < 0 then '-' else '+') ::
    decimal (if year.natAbs < 10 ^ 4 then 4 else if year.natAbs < 10 ^ 5 then 5 else 6) year.natAbs

def readYear : List Char → Option (Int × List Char)
  | '+' :: text => (readDecimal (digitCount text) 0 text).map (fun read => ((read.1 : Int), read.2))
  | '-' :: text =>
    (readDecimal (digitCount text) 0 text).map (fun read => (-(read.1 : Int), read.2))
  | text => (readDecimal 4 0 text).map (fun read => ((read.1 : Int), read.2))

theorem readYear_yearText {year : Int} (small : year.natAbs < 10 ^ 6) {rest : List Char}
    (ends : Ends rest) : readYear (yearText year ++ rest) = some (year, rest) := by
  unfold yearText
  split_ifs with plain negative four five five
  · obtain ⟨code, isDigit⟩ := digit_facts (year.toNat / 10 ^ 3 % 10) (Nat.mod_lt _ (by decide))
    have read := readDecimal_decimal 4 year.toNat 0 rest
    rw [Nat.zero_mul, Nat.zero_add, Nat.mod_eq_of_lt (by omega)] at read
    have unsigned : readYear (decimal 4 year.toNat ++ rest) =
        (readDecimal 4 0 (decimal 4 year.toNat ++ rest)).map
        (fun read => ((read.1 : Int), read.2)) := by
      rw [decimal, cons_append]
      unfold readYear
      split
      · rename_i same
        exact absurd (cons.inj same).1 (ne_of_isDigit isDigit (by decide))
      · rename_i same
        exact absurd (cons.inj same).1 (ne_of_isDigit isDigit (by decide))
      · rfl
    rw [unsigned, read, map_some, Int.toNat_of_nonneg plain.1]
  all_goals
    simp only [cons_append, readYear]
    rw [readDecimal_digitCount ends (by omega), map_some]
    congr 2
    omega

@[irreducible]
def instantText (zone : List Char) (t : Int) : String :=
  let within := ((t - yearZero) % cycleLength).toNat
  String.ofList (yearText ((t - yearZero) / cycleLength * 400 + yearOf (within / 10 ^ 9 / 86400)) ++
    (zonedText within zone).drop 4)

def readInstant (text : String) : Option Int :=
  (readYear text.toList).bind (fun read =>
    match Scan.rfc3339 (decimal 4 (read.1 % 400).toNat ++ read.2) with
    | some (n, []) =>
      let t := n + read.1 / 400 * cycleLength + yearZero
      if InRange t then some t else none
    | _ => none)

def Chrono.gregorian : Chrono where
  iso := instantText ['Z']
  parse := readInstant
  rfc3339 := instantText ['+', '0', '0', ':', '0', '0']

theorem readInstant_instantText {c : Char} {rest : List Char} (other : c.isDigit = false)
    (dotless : c ≠ '.') (utc : Scan.offset (c :: rest) = some (0, [])) {t : Int}
    (range : InRange t) : readInstant (instantText (c :: rest) t) = some t := by
  have zero := yearZero_eq
  have days := sum_yearLengths
  obtain ⟨low, high⟩ := id range
  unfold minUtc at low
  unfold maxUtc at high
  unfold instantText readInstant
  obtain ⟨era, eraIs⟩ : ∃ era, era = (t - yearZero) / cycleLength := ⟨_, rfl⟩
  obtain ⟨within, withinIs⟩ : ∃ n : Nat, n = ((t - yearZero) % cycleLength).toNat := ⟨_, rfl⟩
  have whole : t = within + era * cycleLength + yearZero := by
    unfold cycleLength seconds at *
    omega
  have inside : within / 10 ^ 9 / 86400 < 146097 := by
    unfold cycleLength seconds at *
    omega
  have cycle := yearOf_lt_cycle inside
  obtain ⟨tail, opens, split⟩ : ∃ tail, Ends tail ∧ zonedText within (c :: rest) =
      decimal 4 (yearOf (within / 10 ^ 9 / 86400)) ++ tail := by
    unfold zonedText dateText
    exact ⟨_, ends_cons (by decide) _, append_assoc ..⟩
  have read := rfc3339_zonedText rest other (n := within) (by omega) dotless utc
  rw [split] at read
  have small : (era * 400 + (yearOf (within / 10 ^ 9 / 86400) : Int)).natAbs < 10 ^ 6 := by
    unfold cycleLength seconds at *
    omega
  simp only [← eraIs, ← withinIs, split, String.toList_ofList]
  rw [drop_left' (length_decimal ..), readYear_yearText small opens, bind_some]
  have year : ((era * 400 + (yearOf (within / 10 ^ 9 / 86400) : Int)) % 400).toNat =
      yearOf (within / 10 ^ 9 / 86400) := by omega
  have eras : (era * 400 + (yearOf (within / 10 ^ 9 / 86400) : Int)) / 400 = era := by omega
  simp only [year, eras, read]
  rw [← whole, if_pos range]

theorem instantText_short {zone : List Char} (short : zone.length ≤ 6) (t : Int) :
    (instantText zone t).utf8ByteSize < 2 ^ 64 := by
  have year : ∀ year : Int, (yearText year).length ≤ 7 := by
    intro year
    unfold yearText
    split_ifs <;> simp [length_decimal]
  have fraction : ∀ nano : Nat, (fractionText nano).length ≤ 10 := by
    intro nano
    have width := (fractionWidth_cases nano).1
    unfold fractionText
    split_ifs
    · exact Nat.zero_le _
    · rw [length_cons, length_decimal]
      omega
  unfold instantText
  rw [String.utf8ByteSize_ofList]
  refine (utf8Len_le _).trans_lt ?_
  rw [length_append, length_drop]
  unfold zonedText dateText clockText
  simp only [length_append, length_cons, length_decimal]
  have first := year ((t - yearZero) / cycleLength * 400 +
    yearOf (((t - yearZero) % cycleLength).toNat / 10 ^ 9 / 86400))
  have last := fraction (((t - yearZero) % cycleLength).toNat % 10 ^ 9)
  omega

theorem Chrono.gregorian_faithful : Chrono.gregorian.Faithful := by
  have offset : ∀ t, InRange t → readInstant (Chrono.gregorian.rfc3339 t) = some t := fun t range =>
    readInstant_instantText (by decide) (by decide) rfl range
  refine ⟨fun t range => readInstant_instantText (by decide) (by decide) rfl range,
    instantText_short (by decide), fun t u rangeT rangeU same => ?_,
    instantText_short (by decide)⟩
  exact Option.some.inj ((offset t rangeT).symm.trans (same ▸ offset u rangeU))

example : Chrono.gregorian.iso (seconds 951782399 + 500000000) = "2000-02-28T23:59:59.500Z" ∧
    Chrono.gregorian.rfc3339 minUtc = "-262143-01-01T00:00:00+00:00" := by decide +kernel

end Calendar

namespace Json

def numeral (n : Nat) : List Char := decimal (Nat.log 10 n + 1) n

def readNumeral (text : List Char) : Option (Nat × List Char) :=
  (readDecimal (digitCount text) 0 text).filter (fun read => numeral read.1 ++ read.2 = text)

def escapes : List (Char × Char) :=
  [('\x22', '\x22'), ('\x5c', '\x5c'), ('/', '/'), ('b', '\x08'), ('f', '\x0c'), ('n', '\n'),
    ('r', '\r'), ('t', '\t')]

def escape (c : Char) : List Char :=
  match escapes.find? (fun row => row.2 = c ∧ c ≠ '/') with
  | some row => ['\x5c', row.1]
  | none => if c.toNat < 32 then '\x5c' :: 'u' :: hexDigits 4 c.toNat else [c]

def quoted (s : String) : List Char := '\x22' :: (s.toList.flatMap escape ++ ['\x22'])

def readEscape : List Char → Option (Char × List Char)
  | [] => none
  | c :: text =>
    if c = 'u' then (hexParse 0 (text.take 4)).map (fun n => (Char.ofNat n, text.drop 4))
    else (escapes.find? (fun row => row.1 = c)).map (fun row => (row.2, text))

def readChars : Nat → List Char → Option (List Char × List Char)
  | fuel + 1, c :: text =>
    if c = '\x22' then some ([], text)
    else do
      let (first, text) ← if c = '\x5c' then readEscape text
        else if c.toNat < 32 then none else some (c, text)
      let (others, text) ← readChars fuel text
      some (first :: others, text)
  | _, _ => none

def readQuoted : List Char → Option (String × List Char)
  | [] => none
  | c :: text =>
    if c = '\x22' then (readChars text.length text).map (fun read => (String.ofList read.1, read.2))
    else none

def words : List (List Char × Value) :=
  [("null".toList, .null), ("true".toList, .bool true), ("false".toList, .bool false)]

def readScalar (text : List Char) : Option (Value × List Char) :=
  if text.head? = some '\x22' then (readQuoted text).map (Prod.map .text id)
  else if text.head? = some '-' then (readNumeral text.tail).map (Prod.map
    (fun n => if 0 < n ∧ n ≤ 2 ^ 63 then .nint (n - 1) else .other) id)
  else if text.head?.any Char.isDigit then (readNumeral text).map (Prod.map
    (fun n => if n < 2 ^ 64 then .uint n else .other) id)
  else (words.find? (fun word => word.1.isPrefixOf text)).map
    (fun word => (word.2, text.drop word.1.length))

section Lists

variable {α : Type} (item : List Char → Option (α × List Char)) (close : Char)

def writeTail : List (List Char) → List Char
  | [] => [close]
  | text :: texts => ',' :: (text ++ writeTail texts)

def writeList : List (List Char) → List Char
  | [] => [close]
  | text :: texts => text ++ writeTail close texts

def readTail : Nat → List Char → Option (List α × List Char)
  | fuel + 1, c :: text =>
    if c = close then some ([], text)
    else if c = ',' then do
      let (first, text) ← item text
      let (others, text) ← readTail fuel text
      some (first :: others, text)
    else none
  | _, _ => none

def readList (text : List Char) : Option (List α × List Char) :=
  if text.head? = some close then some ([], text.tail)
  else do
    let (first, text) ← item text
    let (others, text) ← readTail item close text.length text
    some (first :: others, text)

def readEntry (text : List Char) : Option ((Value × α) × List Char) := do
  let (key, text) ← readQuoted text
  match text with
  | ':' :: text => do
    let (value, text) ← item text
    some ((.text key, value), text)
  | _ => none

end Lists

mutual

def write : Value → List Char
  | .uint n => numeral n
  | .nint n => '-' :: numeral (n + 1)
  | .text s => quoted s
  | .array items => '[' :: writeList ']' (writeAll items)
  | .map entries => '\x7b' :: writeList '\x7d' (writeEntries entries)
  | .bool true => "true".toList
  | .bool false => "false".toList
  | .null | .bytes _ | .other => "null".toList

def writeAll : List Value → List (List Char)
  | [] => []
  | item :: items => write item :: writeAll items

def writeEntries : List (Value × Value) → List (List Char)
  | [] => []
  | (key, value) :: entries => (write key ++ ':' :: write value) :: writeEntries entries

end

def read : Nat → List Char → Option (Value × List Char)
  | 0, text => readScalar text
  | depth + 1, text =>
    if text.head? = some '[' then
      (readList (read depth) ']' text.tail).map (Prod.map .array id)
    else if text.head? = some '\x7b' then
      (readList (readEntry (read depth)) '\x7d' text.tail).map (Prod.map .map id)
    else readScalar text

/-- `serde_json`, which stops at 128 open brackets. -/
def compact : Json where
  print value := String.ofList (write value)
  parse row := match read 127 row.toList with
    | some (value, []) => some value
    | _ => none

theorem numeral_lt (n : Nat) : n < 10 ^ (Nat.log 10 n + 1) := Nat.lt_pow_succ_log_self (by decide) n

theorem readNumeral_numeral {rest : List Char} (ends : Ends rest) (n : Nat) :
    readNumeral (numeral n ++ rest) = some (n, rest) := by
  unfold readNumeral
  rw [show numeral n = decimal (Nat.log 10 n + 1) n from rfl,
    readDecimal_digitCount ends (numeral_lt n)]
  simp [numeral]

theorem head?_numeral (n : Nat) : ∃ c tail, numeral n = c :: tail ∧ c.isDigit = true :=
  ⟨_, _, rfl, (digit_facts _ (Nat.mod_lt _ (by decide))).2⟩

theorem readChars_escape (c : Char) (fuel : Nat) (text : List Char) :
    readChars (fuel + 1) (escape c ++ text) =
      (readChars fuel text).map (fun read => (c :: read.1, read.2)) := by
  have table : ∀ row ∈ escapes, row.2 ≠ '/' → row.1 ≠ 'u' ∧
      escapes.find? (fun other => other.1 = row.1) = some row := by decide
  unfold escape
  cases found : escapes.find? (fun row => row.2 = c ∧ c ≠ '/') with
  | some row =>
    have holds := find?_some found
    simp only [decide_eq_true_eq] at holds
    obtain ⟨rfl, slashless⟩ := holds
    obtain ⟨letter, back⟩ := table row (mem_of_find?_eq_some found) slashless
    simp [readChars, readEscape, letter, back, Option.map_eq_bind]
  | none =>
    have plain : c ≠ '\x22' ∧ c ≠ '\x5c' := by
      rw [find?_eq_none] at found
      constructor <;> rintro rfl <;> exact absurd found (by decide)
    dsimp only
    split_ifs with control
    · have parsed := hexParse_hexDigits 0 4 c.toNat (by omega)
      rw [Nat.zero_mul, Nat.zero_add] at parsed
      have taken : (hexDigits 4 c.toNat ++ text).take 4 = hexDigits 4 c.toNat :=
        take_left' (length_hexDigits ..)
      have dropped : (hexDigits 4 c.toNat ++ text).drop 4 = text := drop_left' (length_hexDigits ..)
      simp [readChars, readEscape, taken, dropped, parsed, Option.map_eq_bind]
    · simp [readChars, plain, control, Option.map_eq_bind]

theorem readChars_flatMap (cs : List Char) {fuel : Nat} (enough : cs.length < fuel)
    (rest : List Char) :
    readChars fuel (cs.flatMap escape ++ '\x22' :: rest) = some (cs, rest) := by
  induction cs generalizing fuel with
  | nil =>
    obtain ⟨fuel, rfl⟩ := Nat.exists_eq_succ_of_ne_zero (Nat.ne_of_gt enough)
    rfl
  | cons c cs ih =>
    obtain ⟨fuel, rfl⟩ := Nat.exists_eq_succ_of_ne_zero (Nat.ne_of_gt (Nat.zero_lt_of_lt enough))
    rw [flatMap_cons, append_assoc, readChars_escape, ih (Nat.lt_of_succ_lt_succ enough), map_some]

theorem readQuoted_quoted (s : String) (rest : List Char) :
    readQuoted (quoted s ++ rest) = some (s, rest) := by
  have wide : ∀ c, 1 ≤ (escape c).length := by
    intro c
    unfold escape
    split
    · simp
    · split_ifs <;> simp
  have enough : s.toList.length ≤ (s.toList.flatMap escape).length := by
    generalize s.toList = cs
    induction cs with
    | nil => exact Nat.le_refl _
    | cons c cs ih =>
      rw [flatMap_cons, length_append, length_cons]
      have one := wide c
      omega
  have back := readChars_flatMap s.toList
    (show _ < (s.toList.flatMap escape ++ '\x22' :: rest).length by
      rw [length_append, length_cons]
      omega) rest
  simp only [quoted, readQuoted, cons_append, append_assoc, nil_append, if_true, back, map_some,
    String.ofList_toList]

structure Reads {α : Type} (item : List Char → Option (α × List Char)) (text : List Char) (a : α) :
    Prop where
  opens : text.head? ∉ [none, some ']', some '\x7d']
  back : ∀ rest, Ends rest → item (text ++ rest) = some (a, rest)

section Lists

variable {α : Type} {item : List Char → Option (α × List Char)} {close : Char}
  {texts : List (List Char)} {values : List α}

theorem ends_writeTail (brackets : close ∈ [']', '\x7d']) (texts : List (List Char))
    (rest : List Char) : Ends (writeTail close texts ++ rest) := by
  have digitless : ∀ c ∈ [']', '\x7d'], c.isDigit = false := by simp
  cases texts with
  | nil => exact ends_cons (digitless close brackets) _
  | cons text texts => exact ends_cons (by decide) _

theorem readTail_writeTail (brackets : close ∈ [']', '\x7d'])
    (each : Forall₂ (Reads item) texts values) {fuel : Nat} (enough : texts.length < fuel)
    (rest : List Char) :
    readTail item close fuel (writeTail close texts ++ rest) = some (values, rest) := by
  induction each generalizing fuel with
  | nil =>
    obtain ⟨fuel, rfl⟩ := Nat.exists_eq_succ_of_ne_zero (Nat.ne_of_gt enough)
    simp [writeTail, readTail]
  | @cons text value texts values reads each ih =>
    obtain ⟨fuel, rfl⟩ := Nat.exists_eq_succ_of_ne_zero (Nat.ne_of_gt (Nat.zero_lt_of_lt enough))
    have comma : ',' ≠ close := by
      rintro rfl
      exact absurd brackets (by decide)
    have first := reads.back (writeTail close texts ++ rest) (ends_writeTail brackets texts rest)
    simp only [writeTail, cons_append, append_assoc, readTail, if_neg comma, if_true, first,
      bind_eq_bind, bind_some, ih (Nat.lt_of_succ_lt_succ enough)]

theorem length_lt_writeTail (close : Char) (texts : List (List Char)) :
    texts.length < (writeTail close texts).length := by
  induction texts with
  | nil => exact Nat.zero_lt_one
  | cons text texts ih =>
    rw [writeTail, length_cons, length_cons, length_append]
    omega

theorem readList_writeList (brackets : close ∈ [']', '\x7d'])
    (each : Forall₂ (Reads item) texts values) (rest : List Char) :
    readList item close (writeList close texts ++ rest) = some (values, rest) := by
  cases each with
  | nil => simp [writeList, readList]
  | @cons text value texts values reads each =>
    have opens := reads.opens
    obtain ⟨c, tail, rfl⟩ : ∃ c tail, text = c :: tail := by
      cases text with
      | nil => exact absurd (by simp) opens
      | cons c tail => exact ⟨c, tail, rfl⟩
    have other : ¬ c = close := by
      rintro rfl
      refine opens ?_
      simpa using brackets
    have first := reads.back (writeTail close texts ++ rest) (ends_writeTail brackets texts rest)
    have room : texts.length < (writeTail close texts ++ rest).length := by
      rw [length_append]
      exact (length_lt_writeTail close texts).trans_le (Nat.le_add_right ..)
    have others := readTail_writeTail brackets each room rest
    rw [cons_append] at first
    simp [writeList, readList, other, first, others, -length_append]

theorem Reads.entry {text : List Char} {a : α} (reads : Reads item text a) (key : String) :
    Reads (readEntry item) (quoted key ++ ':' :: text) (.text key, a) := by
  refine ⟨by simp [quoted], fun rest ends => ?_⟩
  unfold readEntry
  rw [append_assoc, readQuoted_quoted]
  simp [reads.back rest ends]

end Lists

theorem Reads.scalar {text : List Char} {value : Value} (reads : Reads readScalar text value)
    (apart : text.head? ∉ [some '[', some '\x7b']) (depth : Nat) :
    Reads (read depth) text value := by
  cases depth with
  | zero => exact reads
  | succ depth =>
    refine ⟨reads.opens, fun rest ends => ?_⟩
    have opens := reads.opens
    cases text with
    | nil => exact absurd (by simp) opens
    | cons c tail =>
      simp only [head?_cons, mem_cons, some.injEq, not_mem_nil, or_false, not_or] at apart
      have back := reads.back rest ends
      rw [cons_append] at back ⊢
      simp [read, apart, back]

theorem reads_numeral {n : Nat} (small : n < 2 ^ 64) : Reads readScalar (numeral n) (.uint n) := by
  obtain ⟨c, tail, split, digit⟩ := head?_numeral n
  have quote := ne_of_isDigit digit (show '\x22'.isDigit = false by decide)
  have minus := ne_of_isDigit digit (show '-'.isDigit = false by decide)
  have bracket := ne_of_isDigit digit (show ']'.isDigit = false by decide)
  have brace := ne_of_isDigit digit (show '\x7d'.isDigit = false by decide)
  refine ⟨by simp [split, bracket, brace], fun rest ends => ?_⟩
  have back := readNumeral_numeral ends n
  unfold readScalar
  rw [back, split]
  simp only [cons_append, head?_cons, some.injEq, quote, minus, if_false, Option.any_some, digit,
    if_true, map_some, Prod.map_apply, if_pos small, id_eq]

theorem reads_negative {n : Nat} (small : n < 2 ^ 63) :
    Reads readScalar ('-' :: numeral (n + 1)) (.nint n) := by
  refine ⟨by simp, fun rest ends => ?_⟩
  have back := readNumeral_numeral ends (n + 1)
  unfold readScalar
  simp [back]
  omega

theorem reads_quoted (s : String) : Reads readScalar (quoted s) (.text s) := by
  refine ⟨by simp [quoted], fun rest _ => ?_⟩
  have back := readQuoted_quoted s rest
  unfold readScalar
  rw [back]
  simp [quoted]

theorem reads_true : Reads readScalar "true".toList (.bool true) := ⟨by decide, fun _ _ => rfl⟩

theorem reads_false : Reads readScalar "false".toList (.bool false) := ⟨by decide, fun _ _ => rfl⟩

theorem reads_null : Reads readScalar "null".toList .null := ⟨by decide, fun _ _ => rfl⟩

mutual

theorem reads_write : ∀ (value : Value) {depth : Nat}, value.fits = true → value.textual = true →
    value.height ≤ depth → Reads (read depth) (write value) value
  | .uint n, depth, fits, _, _ => by
    obtain ⟨c, tail, split, digit⟩ := head?_numeral n
    refine (reads_numeral (of_decide_eq_true fits)).scalar ?_ depth
    have bracket := ne_of_isDigit digit (show '['.isDigit = false by decide)
    have brace := ne_of_isDigit digit (show '\x7b'.isDigit = false by decide)
    simp [split, bracket, brace]
  | .nint n, depth, fits, _, _ => (reads_negative (of_decide_eq_true fits)).scalar (by simp) depth
  | .text s, depth, _, _, _ => (reads_quoted s).scalar (by simp [quoted]) depth
  | .bool true, depth, _, _, _ => reads_true.scalar (by decide) depth
  | .bool false, depth, _, _, _ => reads_false.scalar (by decide) depth
  | .null, depth, _, _, _ => reads_null.scalar (by decide) depth
  | .array items, 0, _, _, low => absurd low (Nat.not_succ_le_zero _)
  | .map entries, 0, _, _, low => absurd low (Nat.not_succ_le_zero _)
  | .array items, depth + 1, fits, textual, low => by
    rw [Value.fits, Bool.and_eq_true] at fits
    have each := reads_writeAll items fits.2 textual (Nat.le_of_succ_le_succ low)
    refine ⟨by simp [write], fun rest _ => ?_⟩
    simp [write, read, readList_writeList (by decide : ']' ∈ _) each rest]
  | .map entries, depth + 1, fits, textual, low => by
    rw [Value.fits, Bool.and_eq_true] at fits
    have each := reads_writeEntries entries fits.2 textual (Nat.le_of_succ_le_succ low)
    refine ⟨by simp [write], fun rest _ => ?_⟩
    simp [write, read, readList_writeList (by decide : '\x7d' ∈ _) each rest]

theorem reads_writeAll : ∀ (items : List Value) {depth : Nat}, Value.fitsAll items = true →
    Value.textualAll items = true → Value.heightAll items ≤ depth →
    Forall₂ (Reads (read depth)) (writeAll items) items
  | [], _, _, _, _ => .nil
  | item :: items, depth, fits, textual, low => by
    rw [Value.fitsAll, Bool.and_eq_true] at fits
    rw [Value.textualAll, Bool.and_eq_true] at textual
    rw [Value.heightAll, max_le_iff] at low
    exact .cons (reads_write item fits.1 textual.1 low.1)
      (reads_writeAll items fits.2 textual.2 low.2)

theorem reads_writeEntries : ∀ (entries : List (Value × Value)) {depth : Nat},
    Value.fitsEntries entries = true → Value.textualEntries entries = true →
    Value.heightEntries entries ≤ depth →
    Forall₂ (Reads (readEntry (read depth))) (writeEntries entries) entries
  | [], _, _, _, _ => .nil
  | (.text key, value) :: entries, depth, fits, textual, low => by
    rw [Value.fitsEntries, Bool.and_eq_true, Bool.and_eq_true] at fits
    rw [Value.textualEntries, Bool.and_eq_true] at textual
    rw [Value.heightEntries, max_le_iff, max_le_iff] at low
    exact .cons ((reads_write value fits.1.2 textual.1 low.1.2).entry key)
      (reads_writeEntries entries fits.2 textual.2 low.2)

end

theorem compact_faithful : compact.Faithful := by
  intro value fits textual low
  have back := (reads_write value fits textual low).back [] ends_nil
  rw [append_nil] at back
  simp [compact, back]

example : compact.print (.map [(.text "a\n", .array [.uint 0, .nint 41, .null])]) =
    "\x7b\"a\\n\":[0,-42,null]\x7d" := by decide +kernel

end Json

end RelayFabric
