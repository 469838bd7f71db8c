/- source: storage.rs (ts, parse_ts), with chrono's to_rfc3339 and parse_from_rfc3339
   digest: Stored timestamps sort as their instants and are read back. -/

import Mathlib
import RelayFabric.Core
import RelayFabric.Lib.Layout

namespace RelayFabric

open List Lib

def isLeapYear (year : Nat) : Bool := year % 4 == 0 && (year % 100 != 0 || year % 400 == 0)

def monthLengths (year : Nat) : List Nat :=
  [31, if isLeapYear year then 29 else 28, 31, 30, 31, 30, 31, 31, 30, 31, 30, 31]

@[irreducible]
def yearLengths : List Nat := (List.range 10000).map (fun year => (monthLengths year).sum)

def dayNumber (year month day : Nat) : Nat :=
  (yearLengths.take year).sum + ((monthLengths year).take month).sum + day

def yearZero : Int := -seconds (dayNumber 1970 0 0 * 86400)

def FourDigitYear (t : Int) : Prop :=
  yearZero ≤ t ∧ t < yearZero + seconds (yearLengths.sum * 86400)

theorem yearZero_eq : yearZero = -seconds 62167219200 := by decide +kernel

theorem sum_yearLengths : yearLengths.sum = 3652425 := by decide +kernel

theorem fourDigitYear_iff {t : Int} :
    FourDigitYear t ↔ -seconds 62167219200 ≤ t ∧ t < seconds 253402300800 := by
  unfold FourDigitYear
  rw [yearZero_eq, sum_yearLengths]
  unfold seconds
  omega

section Print

variable (day second nano : Nat)

def yearOf : Nat := (locate yearLengths day).1

def monthDay : Nat × Nat := locate (monthLengths (yearOf day)) (locate yearLengths day).2

def dateText : List Char :=
  decimal 4 (yearOf day) ++ '-' :: (decimal 2 ((monthDay day).1 + 1) ++
    '-' :: decimal 2 ((monthDay day).2 + 1))

def clockText : List Char :=
  decimal 2 (second / 3600) ++ ':' ::
    (decimal 2 (second / 60 % 60) ++ ':' :: decimal 2 (second % 60))

/-- `SecondsFormat::AutoSi`: the fewest of 3, 6 or 9 digits that lose nothing. -/
def fractionWidth : Nat := if nano % 10 ^ 6 = 0 then 3 else if nano % 10 ^ 3 = 0 then 6 else 9

def fractionText : List Char :=
  if nano = 0 then []
  else '.' :: decimal (fractionWidth nano) (nano / 10 ^ (9 - fractionWidth nano))

end Print

def zonedText (n : Nat) (zone : List Char) : List Char :=
  dateText (n / 10 ^ 9 / 86400) ++ 'T' :: (clockText (n / 10 ^ 9 % 86400) ++
    (fractionText (n % 10 ^ 9) ++ zone))

def stampText (n : Nat) : List Char := zonedText n ['+', '0', '0', ':', '0', '0']

def ts (t : Int) : String := String.ofList (stampText (t - yearZero).toNat)

abbrev Scan := StateT (List Char) Option

namespace Scan

def number (width : Nat) : Scan Nat := fun text => readDecimal width 0 text

def oneOf (allowed : List Char) : Scan Char
  | [] => none
  | c :: text => if c ∈ allowed then some (c, text) else none

def nanosecond : Scan Nat := fun text =>
  let digits := (text.takeWhile Char.isDigit).take 9
  if digits = [] then none
  else (readDecimal digits.length 0 digits).map (fun read =>
    (read.1 * 10 ^ (9 - digits.length), text.dropWhile Char.isDigit))

def fraction : Scan Nat
  | '.' :: text => nanosecond text
  | text => some (0, text)

def offset : Scan Int := do
  let sign ← oneOf ['Z', 'z', '+', '-', '−']
  if sign = 'Z' ∨ sign = 'z' then return 0
  else
    let hours ← number 2
    let _ ← oneOf [':']
    let minutes ← number 2
    if hours < 24 ∧ minutes < 60 then
      return (if sign = '+' then 1 else -1) * ((hours * 3600 + minutes * 60 : Nat) : Int)
    else failure

/-- `parse_rfc3339`, as the nanoseconds since the start of the year 0. A second 60 is the first of
the next minute. -/
def rfc3339 : Scan Int := do
  let year ← number 4
  let _ ← oneOf ['-']
  let month ← number 2
  let _ ← oneOf ['-']
  let day ← number 2
  let _ ← oneOf ['t', 'T', ' ']
  let hour ← number 2
  let _ ← oneOf [':']
  let minute ← number 2
  let _ ← oneOf [':']
  let second ← number 2
  let nano ← fraction
  let east ← offset
  if 1 ≤ month ∧ 1 ≤ day ∧ day ≤ (monthLengths year).getD (month - 1) 0 ∧
      hour < 24 ∧ minute < 60 ∧ second ≤ 60 then
    return seconds ((dayNumber year (month - 1) (day - 1) * 86400 + hour * 3600 + minute * 60 +
      second : Nat) - east) + nano
  else failure

end Scan

def parseFromRfc3339 (text : String) : Option Int :=
  match Scan.rfc3339 text.toList with
  | some (n, []) => some (n + yearZero)
  | _ => none

/-- A text that is no timestamp is read as the present. -/
def parseTs (now : Int) (text : String) : Int := (parseFromRfc3339 text).getD now

theorem length_yearLengths : yearLengths.length = 10000 := by
  unfold yearLengths
  simp

theorem getD_yearLengths {year : Nat} (small : year < 10000) :
    yearLengths.getD year 0 = (monthLengths year).sum := by
  unfold yearLengths
  rw [getD_eq_getElem _ _ (by simpa using small)]
  simp

theorem lt_length_of_getD {lengths : List Nat} {i n : Nat} (short : n < lengths.getD i 0) :
    i < lengths.length := by
  by_contra out
  rw [getD_eq_default _ _ (Nat.le_of_not_lt out)] at short
  exact Nat.not_lt_zero n short

structure Dated (day : Nat) : Prop where
  year : yearOf day < 10000
  month : (monthDay day).1 < 12
  inMonth : (monthDay day).2 < (monthLengths (yearOf day)).getD (monthDay day).1 0
  inYear : (locate yearLengths day).2 < (monthLengths (yearOf day)).sum
  number : dayNumber (yearOf day) (monthDay day).1 (monthDay day).2 = day

theorem dated {day : Nat} (inside : day < yearLengths.sum) : Dated day := by
  obtain ⟨years, inYear⟩ := locate_back inside
  have year := lt_length_of_getD inYear
  rw [length_yearLengths] at year
  rw [getD_yearLengths year] at inYear
  obtain ⟨months, inMonth⟩ := locate_back inYear
  refine ⟨year, lt_length_of_getD inMonth, inMonth, inYear, ?_⟩
  unfold dayNumber
  rw [Nat.add_assoc]
  exact (congrArg _ months).trans years

theorem getD_monthLengths_le (year month : Nat) : (monthLengths year).getD month 0 ≤ 31 := by
  by_cases small : month < 12
  · unfold monthLengths
    cases isLeapYear year <;> interval_cases month <;> decide
  · rw [getD_eq_default _ _ (Nat.le_of_not_lt small)]
    exact Nat.zero_le _

variable {x y : List Char}

theorem dateText_lt {day day' : Nat} (inside : day < yearLengths.sum)
    (inside' : day' < yearLengths.sum)
    (less : day < day' ∨ day = day' ∧ x < y) : dateText day ++ x < dateText day' ++ y := by
  have first := dated inside
  have second := dated inside'
  have long := getD_monthLengths_le (yearOf day) (monthDay day).1
  have long' := getD_monthLengths_le (yearOf day') (monthDay day').1
  have months := first.month
  have months' := second.month
  have days := first.inMonth
  have days' := second.inMonth
  unfold dateText
  simp only [append_assoc, cons_append]
  refine decimal_append_lt first.year second.year ?_
  rcases less with less | ⟨rfl, less⟩
  · refine (locate_lt less inside').imp_right (fun same => ⟨same.1, cons_lt ?_⟩)
    refine decimal_append_lt (by omega) (by omega) ?_
    have within := second.inYear
    have position := same.2
    have years : yearOf day = yearOf day' := same.1
    rw [← years] at within
    have ordered := locate_lt position within
    rw [show locate (monthLengths (yearOf day)) (locate yearLengths day').2 = monthDay day' by
      unfold monthDay; rw [years]] at ordered
    refine ordered.imp Nat.succ_lt_succ (fun same => ⟨congrArg _ same.1, cons_lt ?_⟩)
    exact decimal_append_lt (by omega) (by omega) (Or.inl (Nat.succ_lt_succ same.2))
  · refine Or.inr
      ⟨rfl, cons_lt (decimal_append_lt (by omega) (by omega) (Or.inr ⟨rfl, cons_lt ?_⟩))⟩
    exact decimal_append_lt (by omega) (by omega) (Or.inr ⟨rfl, less⟩)

theorem clockText_lt {second second' : Nat} (inside : second < 86400) (inside' : second' < 86400)
    (less : second < second' ∨ second = second' ∧ x < y) :
    clockText second ++ x < clockText second' ++ y := by
  unfold clockText
  simp only [append_assoc, cons_append]
  refine decimal_append_lt (by omega) (by omega) ?_
  by_cases hours : second / 3600 < second' / 3600
  · exact Or.inl hours
  refine Or.inr ⟨by omega, cons_lt (decimal_append_lt (by omega) (by omega) ?_)⟩
  by_cases minutes : second / 60 % 60 < second' / 60 % 60
  · exact Or.inl minutes
  refine Or.inr ⟨by omega, cons_lt (decimal_append_lt (by omega) (by omega) ?_)⟩
  exact less.imp (by omega) (And.imp_left (by omega))

theorem fractionWidth_cases (nano : Nat) :
    (fractionWidth nano = 3 ∨ fractionWidth nano = 6 ∨ fractionWidth nano = 9) ∧
      nano % 10 ^ (9 - fractionWidth nano) = 0 := by
  unfold fractionWidth
  split_ifs with milli micro
  · exact ⟨Or.inl rfl, milli⟩
  · exact ⟨Or.inr (Or.inl rfl), micro⟩
  · exact ⟨Or.inr (Or.inr rfl), Nat.mod_one nano⟩

theorem lt_decimal_longer {i j n m : Nat} (small : n < 10 ^ i) (small' : m < 10 ^ (i + (j + 1)))
    (le : n ≤ m / 10 ^ (j + 1)) : decimal i n ++ '+' :: x < decimal (i + (j + 1)) m ++ y := by
  rw [decimal_add, append_assoc]
  rw [Nat.pow_add, Nat.mul_comm] at small'
  refine decimal_append_lt small (Nat.div_lt_of_lt_mul small')
    ((Nat.lt_or_eq_of_le le).imp_right ?_)
  intro same
  refine ⟨same, cons_lt_cons_iff.mpr (Or.inl ?_)⟩
  show '+'.toNat < (digit _).toNat
  rw [(digit_facts _ (Nat.mod_lt _ (by decide))).1]
  exact (show 43 < 48 by decide).trans_le (Nat.le_add_right _ _)

theorem decimal_longer_lt {i j n m : Nat} (small : m < 10 ^ i)
    (less : n / 10 ^ j < m) : decimal (i + j) n ++ x < decimal i m ++ y := by
  rw [decimal_add, append_assoc]
  exact decimal_append_lt (less.trans small) small (Or.inl less)

theorem fractionText_lt {nano nano' : Nat} (small : nano' < 10 ^ 9) (less : nano < nano') :
    fractionText nano ++ '+' :: x < fractionText nano' ++ '+' :: y := by
  unfold fractionText
  rw [if_neg (show nano' ≠ 0 by omega)]
  split_ifs with zero
  · exact cons_lt_cons_iff.mpr (Or.inl (by decide))
  obtain ⟨width, trailing⟩ := fractionWidth_cases nano
  obtain ⟨width', trailing'⟩ := fractionWidth_cases nano'
  refine cons_lt ?_
  rcases width with width | width | width <;> rcases width' with width' | width' | width' <;>
    simp only [width, width', Nat.reduceSub, Nat.reducePow] at trailing trailing' ⊢
  · exact decimal_append_lt (by omega) (by omega) (Or.inl (by omega))
  · exact lt_decimal_longer (i := 3) (j := 2) (by omega) (by omega) (by omega)
  · exact lt_decimal_longer (i := 3) (j := 5) (by omega) (by omega) (by omega)
  · exact decimal_longer_lt (i := 3) (j := 3) (by omega) (by omega)
  · exact decimal_append_lt (by omega) (by omega) (Or.inl (by omega))
  · exact lt_decimal_longer (i := 6) (j := 2) (by omega) (by omega) (by omega)
  · exact decimal_longer_lt (i := 3) (j := 6) (by omega) (by omega)
  · exact decimal_longer_lt (i := 6) (j := 3) (by omega) (by omega)
  · exact decimal_append_lt (by omega) (by omega) (Or.inl (by omega))

theorem stampText_lt {n m : Nat} (inside : m / 10 ^ 9 / 86400 < yearLengths.sum) (less : n < m) :
    stampText n < stampText m := by
  refine dateText_lt (by omega) inside ?_
  by_cases days : n / 10 ^ 9 / 86400 < m / 10 ^ 9 / 86400
  · exact Or.inl days
  refine Or.inr ⟨by omega, cons_lt (clockText_lt (by omega) (by omega) ?_)⟩
  by_cases clock : n / 10 ^ 9 % 86400 < m / 10 ^ 9 % 86400
  · exact Or.inl clock
  exact Or.inr ⟨by omega, fractionText_lt (by omega) (by omega)⟩

theorem ascii_stampText (n : Nat) : ∀ c ∈ stampText n, c.toNat < 128 := by
  have fraction : ∀ c ∈ fractionText (n % 10 ^ 9), c.toNat < 128 := by
    unfold fractionText
    split_ifs
    · simp
    · exact forall_mem_cons.mpr ⟨by decide, ascii_decimal _ _⟩
  simp only [stampText, zonedText, dateText, clockText, forall_mem_append, forall_mem_cons]
  have suffix : ∀ c ∈ ['+', '0', '0', ':', '0', '0'], c.toNat < 128 := by simp
  simp only [forall_mem_cons] at suffix
  exact ⟨⟨ascii_decimal _ _, by decide, ascii_decimal _ _, by decide, ascii_decimal _ _⟩, by decide,
    ⟨ascii_decimal _ _, by decide, ascii_decimal _ _, by decide, ascii_decimal _ _⟩,
    fraction, suffix⟩

section Back

variable (rest : List Char)

theorem number_decimal {width n : Nat} (small : n < 10 ^ width) :
    Scan.number width (decimal width n ++ rest) = some (n, rest) := by
  unfold Scan.number
  rw [readDecimal_decimal, Nat.zero_mul, Nat.zero_add, Nat.mod_eq_of_lt small]

theorem oneOf_cons {c : Char} {allowed : List Char} (member : c ∈ allowed) :
    Scan.oneOf allowed (c :: rest) = some (c, rest) := if_pos member

variable {c : Char} (other : c.isDigit = false)

include other in
theorem nanosecond_decimal {width n : Nat} (wide : 0 < width) (few : width ≤ 9)
    (small : n < 10 ^ width) :
    Scan.nanosecond (decimal width n ++ c :: rest) = some (n * 10 ^ (9 - width), c :: rest) := by
  have length := length_decimal width n
  have taken : ((decimal width n ++ c :: rest).takeWhile Char.isDigit).take 9 =
      decimal width n := by
    rw [takeWhile_append_of_pos (isDigit_decimal width n),
      takeWhile_cons_of_neg (Bool.not_eq_true _ ▸ other), append_nil, take_of_length_le (by omega)]
  have dropped : (decimal width n ++ c :: rest).dropWhile Char.isDigit = c :: rest := by
    rw [dropWhile_append_of_pos (isDigit_decimal width n),
      dropWhile_cons_of_neg (Bool.not_eq_true _ ▸ other)]
  have read := readDecimal_decimal width n 0 []
  rw [append_nil, Nat.zero_mul, Nat.zero_add, Nat.mod_eq_of_lt small] at read
  have solid : decimal width n ≠ [] := by
    intro empty
    rw [empty, length_nil] at length
    omega
  unfold Scan.nanosecond
  simp [taken, dropped, if_neg solid, length, read, Option.map_some]

include other in
theorem fraction_fractionText {nano : Nat} (dotless : c ≠ '.') (small : nano < 10 ^ 9) :
    Scan.fraction (fractionText nano ++ c :: rest) = some (nano, c :: rest) := by
  unfold fractionText
  split_ifs with zero
  · rw [zero]
    simp [Scan.fraction, dotless]
  obtain ⟨width, trailing⟩ := fractionWidth_cases nano
  have whole := Nat.div_mul_cancel (Nat.dvd_of_mod_eq_zero trailing)
  have fits : nano / 10 ^ (9 - fractionWidth nano) < 10 ^ fractionWidth nano := by
    apply Nat.div_lt_of_lt_mul
    rw [← Nat.pow_add, show 9 - fractionWidth nano + fractionWidth nano = 9 by omega]
    exact small
  have read := nanosecond_decimal rest other (by omega) (by omega) fits
  rw [whole] at read
  exact read

theorem scan_bind {α β : Type} {scan : Scan α} {next : α → Scan β} {text : List Char} {a : α}
    (read : scan text = some (a, rest)) : (scan >>= next) text = next a rest := by
  show (scan text).bind (fun found => next found.1 found.2) = _
  rw [read, Option.bind_some]

include other in
theorem rfc3339_zonedText {n : Nat} (inside : n / 10 ^ 9 / 86400 < yearLengths.sum)
    (dotless : c ≠ '.') (utc : Scan.offset (c :: rest) = some (0, [])) :
    Scan.rfc3339 (zonedText n (c :: rest)) = some ((n : Int), []) := by
  have date := dated inside
  have long := getD_monthLengths_le (yearOf (n / 10 ^ 9 / 86400)) (monthDay (n / 10 ^ 9 / 86400)).1
  have months := date.month
  have days := date.inMonth
  unfold zonedText dateText clockText Scan.rfc3339
  simp only [append_assoc, cons_append]
  rw [scan_bind _ (number_decimal _ (show _ < 10 ^ 4 from date.year)),
    scan_bind _ (oneOf_cons _ (by simp)), scan_bind _ (number_decimal _ (by omega)),
    scan_bind _ (oneOf_cons _ (by simp)), scan_bind _ (number_decimal _ (by omega)),
    scan_bind _ (oneOf_cons _ (by simp)), scan_bind _ (number_decimal _ (by omega)),
    scan_bind _ (oneOf_cons _ (by simp)), scan_bind _ (number_decimal _ (by omega)),
    scan_bind _ (oneOf_cons _ (by simp)), scan_bind _ (number_decimal _ (by omega)),
    scan_bind _ (fraction_fractionText _ other dotless (by omega)), scan_bind _ utc]
  rw [if_pos ⟨by omega, by omega, days, by omega, by omega, by omega⟩, Nat.add_sub_cancel,
    Nat.add_sub_cancel, date.number]
  have whole : seconds ((n / 10 ^ 9 / 86400 * 86400 + n / 10 ^ 9 % 86400 / 3600 * 3600 +
      n / 10 ^ 9 % 86400 / 60 % 60 * 60 + n / 10 ^ 9 % 86400 % 60 : Nat) - 0) +
      (n % 10 ^ 9 : Nat) = n := by
    unfold seconds
    omega
  exact congrArg (fun t => some (t, [])) whole

end Back

theorem rfc3339_stampText {n : Nat} (inside : n / 10 ^ 9 / 86400 < yearLengths.sum) :
    Scan.rfc3339 (stampText n) = some ((n : Int), []) :=
  rfc3339_zonedText _ (by decide) inside (by decide) rfl

theorem toNat_sub_yearZero {t : Int} (written : FourDigitYear t) :
    ((t - yearZero).toNat : Int) = t - yearZero ∧
      (t - yearZero).toNat / 10 ^ 9 / 86400 < yearLengths.sum := by
  obtain ⟨low, high⟩ := written
  unfold seconds at high
  exact ⟨Int.toNat_of_nonneg (by omega), by omega⟩

theorem parseFromRfc3339_ts {t : Int} (written : FourDigitYear t) :
    parseFromRfc3339 (ts t) = some t := by
  obtain ⟨value, inside⟩ := toNat_sub_yearZero written
  unfold parseFromRfc3339 ts
  rw [String.toList_ofList, rfc3339_stampText inside]
  show some (((t - yearZero).toNat : Int) + yearZero) = some t
  rw [value, Int.sub_add_cancel]

theorem utf8_ts_lt {a b : Int} (written : FourDigitYear a) (written' : FourDigitYear b)
    (less : a < b) : Cbor.utf8 (ts a) < Cbor.utf8 (ts b) := by
  obtain ⟨value, -⟩ := toNat_sub_yearZero written
  obtain ⟨value', inside⟩ := toNat_sub_yearZero written'
  exact utf8_lt (ascii_stampText _) (ascii_stampText _) (stampText_lt inside (by omega))

inductive Comparison
  | lt | le | eq | ge | gt
  deriving DecidableEq, Repr

def Comparison.Holds {α : Type} [LT α] [LE α] : Comparison → α → α → Prop
  | .lt, a, b => a < b
  | .le, a, b => a ≤ b
  | .eq, a, b => a = b
  | .ge, a, b => b ≤ a
  | .gt, a, b => b < a

/-- Stored timestamps compare, byte by byte, as their instants, and read back as them. -/
theorem timestamps_chronological {a b : Int} (written : FourDigitYear a)
    (written' : FourDigitYear b) :
    (Cbor.utf8 (ts a) < Cbor.utf8 (ts b) ↔ a < b) ∧ (∀ now, parseTs now (ts a) = a) ∧
      ∀ op : Comparison, op.Holds (Cbor.utf8 (ts a)) (Cbor.utf8 (ts b)) ↔ op.Holds a b := by
  have order : ∀ {c d : Int}, FourDigitYear c → FourDigitYear d →
      (Cbor.utf8 (ts c) < Cbor.utf8 (ts d) ↔ c < d) := by
    intro c d inside inside'
    refine ⟨fun less => ?_, utf8_ts_lt inside inside'⟩
    rcases lt_trichotomy c d with before | rfl | after
    · exact before
    · exact absurd less (List.lt_irrefl _)
    · exact absurd less (List.lt_asymm (utf8_ts_lt inside' inside after))
  have le : ∀ {c d : Int}, FourDigitYear c → FourDigitYear d →
      (Cbor.utf8 (ts c) ≤ Cbor.utf8 (ts d) ↔ c ≤ d) := by
    intro c d inside inside'
    rw [← List.not_lt, order inside' inside, Int.not_lt]
  refine ⟨order written written', fun now => ?_, fun op => ?_⟩
  · unfold parseTs
    rw [parseFromRfc3339_ts written, Option.getD_some]
  · cases op with
    | lt => exact order written written'
    | le => exact le written written'
    | eq =>
      constructor
      · intro same
        have before := (le written written').mp (List.not_lt.mp (same ▸ List.lt_irrefl _))
        have after := (le written' written).mp (List.not_lt.mp (same ▸ List.lt_irrefl _))
        exact Int.le_antisymm before after
      · intro same
        exact congrArg (fun t => Cbor.utf8 (ts t)) same
    | ge => exact le written' written
    | gt => exact order written' written

/-- A whole second sorts before an instant within it. -/
theorem timestamps_chronological_fraction :
    FourDigitYear (seconds 1) ∧ FourDigitYear (seconds 1 + 500000000) ∧
      Cbor.utf8 (ts (seconds 1)) < Cbor.utf8 (ts (seconds 1 + 500000000)) := by
  have whole : FourDigitYear (seconds 1) := fourDigitYear_iff.mpr (by decide)
  have half : FourDigitYear (seconds 1 + 500000000) := fourDigitYear_iff.mpr (by decide)
  exact ⟨whole, half, (timestamps_chronological whole half).1.mpr (by decide)⟩

example : ts (seconds 951782399 + 500000000) = "2000-02-28T23:59:59.500+00:00" := by decide +kernel

end RelayFabric
