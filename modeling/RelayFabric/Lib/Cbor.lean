/- layer: library
   digest: Concise binary objects: their shortest encoding, and a decoder of well-formed items. -/

import Mathlib.Data.List.Basic
import Mathlib.Data.List.Forall2
import Mathlib.Data.List.Induction
import Mathlib.Tactic.NormNum

namespace RelayFabric.Lib

open List Option

def bigEndian : Nat → Nat → List UInt8
  | 0, _ => []
  | width + 1, n => bigEndian width (n / 256) ++ [UInt8.ofNat n]

def ofBigEndian (bytes : List UInt8) : Nat := bytes.foldl (fun acc b => acc * 256 + b.toNat) 0

@[simp] theorem length_bigEndian (width n : Nat) : (bigEndian width n).length = width := by
  induction width generalizing n with
  | zero => rfl
  | succ width ih => simp [bigEndian, ih]

theorem ofBigEndian_bigEndian {width n : Nat} (fits : n < 256 ^ width) :
    ofBigEndian (bigEndian width n) = n := by
  induction width generalizing n with
  | zero =>
    have zero : n = 0 := by simpa using fits
    rw [zero]
    rfl
  | succ width ih =>
    have upper : n / 256 < 256 ^ width := by
      rw [pow_succ] at fits
      exact Nat.div_lt_of_lt_mul (by omega)
    have split : n / 256 * 256 + n % 256 = n := by omega
    unfold ofBigEndian bigEndian
    rw [foldl_append]
    change ofBigEndian (bigEndian width (n / 256)) * 256 + (UInt8.ofNat n).toNat = n
    rw [ih upper, UInt8.toNat_ofNat']
    exact split

theorem ofBigEndian_lt (bytes : List UInt8) : ofBigEndian bytes < 256 ^ bytes.length := by
  induction bytes using List.reverseRecOn with
  | nil => exact Nat.one_pos
  | append_singleton bytes b ih =>
    have byte := b.toNat_lt
    have split : ofBigEndian (bytes ++ [b]) = ofBigEndian bytes * 256 + b.toNat := by
      unfold ofBigEndian
      rw [foldl_append]
      rfl
    rw [split, length_append, length_singleton, pow_succ]
    omega

def cut (n : Nat) (input : List UInt8) : Option (List UInt8 × List UInt8) :=
  if n ≤ input.length then some (input.take n, input.drop n) else none

theorem cut_append {n : Nat} {front : List UInt8} (length : front.length = n) (rest : List UInt8) :
    cut n (front ++ rest) = some (front, rest) := by
  unfold cut
  rw [if_pos (by simp [length]), take_left' length, drop_left' length]

namespace Cbor

def head (major n : Nat) : List UInt8 :=
  if n < 24 then [UInt8.ofNat (32 * major + n)]
  else if n < 2 ^ 8 then UInt8.ofNat (32 * major + 24) :: bigEndian 1 n
  else if n < 2 ^ 16 then UInt8.ofNat (32 * major + 25) :: bigEndian 2 n
  else if n < 2 ^ 32 then UInt8.ofNat (32 * major + 26) :: bigEndian 4 n
  else UInt8.ofNat (32 * major + 27) :: bigEndian 8 n

def headSize (n : Nat) : Nat :=
  if n < 24 then 1 else if n < 2 ^ 8 then 2 else if n < 2 ^ 16 then 3
  else if n < 2 ^ 32 then 5 else 9

theorem length_head (major n : Nat) : (head major n).length = headSize n := by
  unfold head headSize
  split_ifs <;> simp

def argumentWidth : Nat → Option Nat
  | 24 => some 1
  | 25 => some 2
  | 26 => some 4
  | 27 => some 8
  | _ => none

/-- Read an initial byte and its argument: the major type, the low five bits, the argument and what
follows. There is none after 31, which opens an item without a length or ends it. -/
def readHead : List UInt8 → Option (Nat × Nat × Nat × List UInt8)
  | [] => none
  | b :: rest =>
    if b.toNat % 32 < 24 then some (b.toNat / 32, b.toNat % 32, b.toNat % 32, rest)
    else if b.toNat % 32 = 31 then some (b.toNat / 32, 31, 0, rest)
    else do
      let width ← argumentWidth (b.toNat % 32)
      let (word, rest) ← cut width rest
      some (b.toNat / 32, b.toNat % 32, ofBigEndian word, rest)

inductive IsHead (major n : Nat) : Nat → List UInt8 → Prop
  | short (small : n < 24) : IsHead major n n [UInt8.ofNat (32 * major + n)]
  | word {info width : Nat} (wide : argumentWidth info = some width) (fits : n < 256 ^ width) :
      IsHead major n info (UInt8.ofNat (32 * major + info) :: bigEndian width n)

variable {major : Nat}

theorem initial_byte {info : Nat} (types : major < 8) (small : info < 32) :
    (UInt8.ofNat (32 * major + info)).toNat / 32 = major ∧
      (UInt8.ofNat (32 * major + info)).toNat % 32 = info := by
  rw [UInt8.toNat_ofNat']
  omega

theorem argumentWidth_range {info width : Nat} (wide : argumentWidth info = some width) :
    24 ≤ info ∧ info < 28 := by
  unfold argumentWidth at wide
  split at wide
  · decide
  · decide
  · decide
  · decide
  · cases wide

theorem IsHead.info_lt {n info : Nat} {bytes : List UInt8} (is : IsHead major n info bytes) :
    info < 28 := by
  cases is with
  | short small => omega
  | word wide => exact (argumentWidth_range wide).2

theorem readHead_isHead {n info : Nat} {bytes : List UInt8} (types : major < 8)
    (is : IsHead major n info bytes) (rest : List UInt8) :
    readHead (bytes ++ rest) = some (major, info, n, rest) := by
  cases is with
  | short small =>
    obtain ⟨top, low⟩ := initial_byte types (show n < 32 by omega)
    simp only [cons_append, nil_append, readHead, top, low, if_pos small]
  | @word info width wide fits =>
    obtain ⟨long, short⟩ := argumentWidth_range wide
    obtain ⟨top, low⟩ := initial_byte types (show info < 32 by omega)
    simp only [cons_append, readHead, top, low, if_neg (show ¬ info < 24 by omega),
      if_neg (show ¬ info = 31 by omega), wide, bind_eq_bind, bind_some,
      cut_append (length_bigEndian ..), ofBigEndian_bigEndian fits]

theorem isHead_head {n : Nat} (fits : n < 2 ^ 64) : ∃ info, IsHead major n info (head major n) := by
  unfold head
  split_ifs with tiny byte word double
  · exact ⟨n, .short tiny⟩
  · exact ⟨24, .word rfl byte⟩
  · exact ⟨25, .word rfl word⟩
  · exact ⟨26, .word rfl double⟩
  · exact ⟨27, .word rfl fits⟩

theorem IsHead.opens {n info : Nat} {front : List UInt8} (is : IsHead major n info front)
    (tail : List UInt8) : ∃ b later, front ++ tail = b :: later ∧ b ≠ 0xff := by
  have plain : ∀ low < 28, UInt8.ofNat (32 * major + low) ≠ 0xff := by
    intro low small same
    have number := congrArg UInt8.toNat same
    rw [UInt8.toNat_ofNat'] at number
    have full : (0xff : UInt8).toNat = 255 := rfl
    omega
  cases is with
  | short small => exact ⟨_, tail, rfl, plain n (by omega)⟩
  | word wide => exact ⟨_, _, rfl, plain _ (argumentWidth_range wide).2⟩

/-- The values of the format, with map entries in the order written. The last one stands for what no
reader asks for: a float, or a tagged null. -/
inductive Value where
  | uint (n : Nat)
  | nint (n : Nat)
  | bytes (content : List UInt8)
  | text (content : String)
  | array (items : List Value)
  | map (entries : List (Value × Value))
  | bool (b : Bool)
  | null
  | other

def utf8 (s : String) : List UInt8 := s.toUTF8.data.toList

def ofUtf8 (bytes : List UInt8) : Option String := String.fromUTF8? ⟨bytes.toArray⟩

theorem length_utf8 (s : String) : (utf8 s).length = s.utf8ByteSize := by
  rfl

theorem ofUtf8_utf8 (s : String) : ofUtf8 (utf8 s) = some s := by
  have bytes : (⟨(utf8 s).toArray⟩ : ByteArray) = s.toUTF8 := rfl
  unfold ofUtf8 String.fromUTF8?
  rw [bytes, String.toUTF8_eq_toByteArray, dif_pos]
  rfl

namespace Value

mutual

def encode : Value → List UInt8
  | uint n => head 0 n
  | nint n => head 1 n
  | bytes content => head 2 content.length ++ content
  | text content => head 3 (utf8 content).length ++ utf8 content
  | array items => head 4 items.length ++ encodeAll items
  | map entries => head 5 entries.length ++ encodeEntries entries
  | bool b => head 7 (if b then 21 else 20)
  | null => head 7 22
  | other => UInt8.ofNat (32 * 7 + 25) :: bigEndian 2 0

def encodeAll : List Value → List UInt8
  | [] => []
  | item :: items => encode item ++ encodeAll items

def encodeEntries : List (Value × Value) → List UInt8
  | [] => []
  | (key, value) :: entries => (encode key ++ encode value) ++ encodeEntries entries

end

mutual

def size : Value → Nat
  | uint n => headSize n
  | nint n => headSize n
  | bytes content => headSize content.length + content.length
  | text content => headSize content.utf8ByteSize + content.utf8ByteSize
  | array items => headSize items.length + sizeAll items
  | map entries => headSize entries.length + sizeEntries entries
  | bool _ => 1
  | null => 1
  | other => 3

def sizeAll : List Value → Nat
  | [] => 0
  | item :: items => size item + sizeAll items

def sizeEntries : List (Value × Value) → Nat
  | [] => 0
  | (key, value) :: entries => size key + size value + sizeEntries entries

end

mutual

/-- Every length fits the format's widest word, and every number 64 bits, with or without a sign. -/
def fits : Value → Bool
  | uint n => n < 2 ^ 64
  | nint n => n < 2 ^ 63
  | bytes content => content.length < 2 ^ 64
  | text content => content.utf8ByteSize < 2 ^ 64
  | array items => items.length < 2 ^ 64 && fitsAll items
  | map entries => entries.length < 2 ^ 64 && fitsEntries entries
  | bool _ => true
  | null => true
  | other => true

def fitsAll : List Value → Bool
  | [] => true
  | item :: items => fits item && fitsAll items

def fitsEntries : List (Value × Value) → Bool
  | [] => true
  | (key, value) :: entries => fits key && fits value && fitsEntries entries

end

mutual

/-- The value has a JSON form: no byte string, nothing unknown, and text keys only. -/
def textual : Value → Bool
  | uint _ => true
  | nint _ => true
  | bytes _ => false
  | text _ => true
  | array items => textualAll items
  | map entries => textualEntries entries
  | bool _ => true
  | null => true
  | other => false

def textualAll : List Value → Bool
  | [] => true
  | item :: items => textual item && textualAll items

def textualEntries : List (Value × Value) → Bool
  | [] => true
  | (text _, value) :: entries => textual value && textualEntries entries
  | _ => false

end

mutual

def height : Value → Nat
  | uint _ => 1
  | nint _ => 1
  | bytes _ => 1
  | text _ => 1
  | array items => heightAll items + 1
  | map entries => heightEntries entries + 1
  | bool _ => 1
  | null => 1
  | other => 1

def heightAll : List Value → Nat
  | [] => 0
  | item :: items => max (height item) (heightAll items)

def heightEntries : List (Value × Value) → Nat
  | [] => 0
  | (key, value) :: entries => max (max (height key) (height value)) (heightEntries entries)

end

mutual

theorem length_encode : ∀ value : Value, (encode value).length = size value
  | uint n => length_head 0 n
  | nint n => length_head 1 n
  | bytes content => by simp [encode, size, length_head]
  | text content => by simp [encode, size, length_head, length_utf8]
  | array items => by simp [encode, size, length_head, length_encodeAll items]
  | map entries => by simp [encode, size, length_head, length_encodeEntries entries]
  | bool b => by cases b <;> rfl
  | null => rfl
  | other => rfl

theorem length_encodeAll : ∀ items : List Value, (encodeAll items).length = sizeAll items
  | [] => rfl
  | item :: items => by
    simp [encodeAll, sizeAll, length_encode item, length_encodeAll items]

theorem length_encodeEntries :
    ∀ entries : List (Value × Value), (encodeEntries entries).length = sizeEntries entries
  | [] => rfl
  | (key, value) :: entries => by
    simp [encodeEntries, sizeEntries, length_encode key, length_encode value,
      length_encodeEntries entries, Nat.add_assoc]

end

def readMany {α : Type} (item : List UInt8 → Option (α × List UInt8)) :
    Nat → List UInt8 → Option (List α × List UInt8)
  | 0, input => some ([], input)
  | count + 1, input => do
    let (first, rest) ← item input
    let (others, rest) ← readMany item count rest
    some (first :: others, rest)

def readUntil {α : Type} (item : List UInt8 → Option (α × List UInt8)) :
    Nat → List UInt8 → Option (List α × List UInt8)
  | 0, _ => none
  | _ + 1, [] => none
  | fuel + 1, b :: input =>
    if b = 0xff then some ([], input)
    else do
      let (first, rest) ← item (b :: input)
      let (others, rest) ← readUntil item fuel rest
      some (first :: others, rest)

def readPair {α : Type} (item : List UInt8 → Option (α × List UInt8)) (input : List UInt8) :
    Option ((α × α) × List UInt8) := do
  let (key, rest) ← item input
  let (value, rest) ← item rest
  some ((key, value), rest)

def readSegment (major : Nat) (input : List UInt8) : Option (List UInt8 × List UInt8) := do
  let (found, info, n, rest) ← readHead input
  if found = major ∧ info ≠ 31 then cut n rest else none

def untagged : Value → Value
  | null => other
  | value => value

def decode : Nat → List UInt8 → Option (Value × List UInt8)
  | 0, _ => none
  | depth + 1, input => do
    let (major, info, n, rest) ← readHead input
    match major with
    | 0 => if info = 31 then none else some (uint n, rest)
    | 1 => if info = 31 ∨ 2 ^ 63 ≤ n then none else some (nint n, rest)
    | 2 =>
      if info = 31 then do
        let (parts, rest) ← readUntil (readSegment 2) rest.length rest
        some (bytes parts.flatten, rest)
      else do
        let (content, rest) ← cut n rest
        some (bytes content, rest)
    | 3 =>
      if info = 31 then do
        let (parts, rest) ← readUntil (readSegment 3) rest.length rest
        let parts ← parts.mapM ofUtf8
        some (text (String.join parts), rest)
      else do
        let (content, rest) ← cut n rest
        let content ← ofUtf8 content
        some (text content, rest)
    | 4 => do
      let (items, rest) ← if info = 31 then readUntil (decode depth) rest.length rest
        else readMany (decode depth) n rest
      some (array items, rest)
    | 5 => do
      let (entries, rest) ← if info = 31 then readUntil (readPair (decode depth)) rest.length rest
        else readMany (readPair (decode depth)) n rest
      some (map entries, rest)
    | 6 =>
      if info = 31 then none else do
        let (value, rest) ← decode depth rest
        some (untagged value, rest)
    | _ =>
      match info with
      | 20 => some (bool false, rest)
      | 21 => some (bool true, rest)
      | 22 => some (null, rest)
      | 23 => some (null, rest)
      | 25 => some (other, rest)
      | 26 => some (other, rest)
      | 27 => some (other, rest)
      | _ => none

variable {items : List Value} {entries : List (Value × Value)} {value found : Value} {name : String}
  {fields : List (String × Value)}

/-- The reader takes exactly these bytes, whatever follows them. -/
def Consumes {α : Type} (item : List UInt8 → Option (α × List UInt8)) (bytes : List UInt8) (a : α) :
    Prop := ∀ rest, item (bytes ++ rest) = some (a, rest)

section Consumes

variable {α : Type} {item : List UInt8 → Option (α × List UInt8)} {parts : List (List UInt8)}
  {found : List α}

theorem Consumes.pair {front back : List UInt8} {key value : α} (first : Consumes item front key)
    (second : Consumes item back value) :
    Consumes (readPair item) (front ++ back) (key, value) := by
  intro rest
  unfold readPair
  rw [append_assoc, first, bind_eq_bind, bind_some]
  dsimp only
  rw [second]
  rfl

theorem Consumes.many (each : Forall₂ (Consumes item) parts found) :
    Consumes (readMany item parts.length) parts.flatten found := by
  induction each with
  | nil => exact fun _ => rfl
  | cons first _ ih =>
    intro rest
    rw [flatten_cons, append_assoc, length_cons, readMany, first, bind_eq_bind, bind_some]
    dsimp only
    rw [ih]
    rfl

theorem Consumes.until (each : Forall₂ (Consumes item) parts found)
    (opens : ∀ part ∈ parts, ∃ b later, part = b :: later ∧ b ≠ 0xff) {fuel : Nat}
    (enough : parts.length < fuel) :
    Consumes (readUntil item fuel) (parts.flatten ++ [0xff]) found := by
  induction each generalizing fuel with
  | nil =>
    intro rest
    cases fuel with
    | zero => exact absurd enough (Nat.not_lt_zero _)
    | succ fuel => rfl
  | @cons part a parts found first _ ih =>
    intro rest
    obtain ⟨b, later, rfl, plain⟩ := opens part mem_cons_self
    cases fuel with
    | zero => exact absurd enough (Nat.not_lt_zero _)
    | succ fuel =>
      have tail := ih (fun part member => opens part (mem_cons_of_mem _ member))
        (Nat.lt_of_succ_lt_succ enough) rest
      have head := first (parts.flatten ++ [0xff] ++ rest)
      rw [flatten_cons, append_assoc, append_assoc, cons_append, readUntil, if_neg plain,
        ← cons_append, ← append_assoc (flatten parts), head, bind_eq_bind, bind_some]
      dsimp only
      rw [tail]
      rfl

theorem Consumes.until_length (each : Forall₂ (Consumes item) parts found)
    (opens : ∀ part ∈ parts, ∃ b later, part = b :: later ∧ b ≠ 0xff) (rest : List UInt8) :
    readUntil item (parts.flatten ++ 0xff :: rest).length (parts.flatten ++ 0xff :: rest) =
      some (found, rest) := by
  have short : parts.length ≤ parts.flatten.length := by
    clear each
    induction parts with
    | nil => exact Nat.le_refl _
    | cons part parts ih =>
      obtain ⟨b, later, rfl, _⟩ := opens part mem_cons_self
      have tail := ih (fun part member => opens part (mem_cons_of_mem _ member))
      rw [flatten_cons, length_append, length_cons, length_cons]
      omega
  have enough : parts.length < (parts.flatten ++ 0xff :: rest).length := by
    rw [length_append, length_cons]
    omega
  have read := Consumes.until each opens enough rest
  rwa [append_assoc] at read

end Consumes

theorem encodeAll_eq (items : List Value) : encodeAll items = (items.map encode).flatten := by
  induction items with
  | nil => rfl
  | cons first others ih => rw [encodeAll, ih, map_cons, flatten_cons]

theorem encodeEntries_eq (entries : List (Value × Value)) :
    encodeEntries entries = (entries.map (fun e => encode e.1 ++ encode e.2)).flatten := by
  induction entries with
  | nil => rfl
  | cons first others ih => rw [encodeEntries, ih, map_cons, flatten_cons]

theorem forall₂_map_self {α β : Type} {R : β → α → Prop} {f : α → β} {l : List α}
    (each : ∀ a ∈ l, R (f a) a) : Forall₂ R (l.map f) l :=
  forall₂_map_left_iff.mpr (forall₂_same.mpr each)

theorem fits_of_mem (all : fitsAll items = true) (member : value ∈ items) : fits value = true := by
  induction items with
  | nil => exact absurd member not_mem_nil
  | cons first others ih =>
    obtain ⟨here, later⟩ : fits first = true ∧ fitsAll others = true := by
      simpa [fitsAll] using all
    rcases mem_cons.mp member with rfl | member
    · exact here
    · exact ih later member

theorem fits_of_mem_entries (all : fitsEntries entries = true)
    {entry : Value × Value} (member : entry ∈ entries) :
    fits entry.1 = true ∧ fits entry.2 = true := by
  induction entries with
  | nil => exact absurd member not_mem_nil
  | cons first others ih =>
    obtain ⟨here, later⟩ : (fits first.1 = true ∧ fits first.2 = true) ∧
        fitsEntries others = true := by simpa [fitsEntries] using all
    rcases mem_cons.mp member with rfl | member
    · exact here
    · exact ih later member

theorem height_le_heightAll (member : value ∈ items) :
    height value ≤ heightAll items := by
  induction items with
  | nil => exact absurd member not_mem_nil
  | cons first others ih =>
    rcases mem_cons.mp member with rfl | member
    · exact le_max_left _ _
    · exact (ih member).trans (le_max_right _ _)

theorem height_le_heightEntries {entry : Value × Value} (member : entry ∈ entries) :
    height entry.1 ≤ heightEntries entries ∧ height entry.2 ≤ heightEntries entries := by
  induction entries with
  | nil => exact absurd member not_mem_nil
  | cons first others ih =>
    simp only [heightEntries]
    rcases mem_cons.mp member with rfl | member
    · omega
    · have later := ih member
      omega

section Reads

variable {depth n info : Nat} {front content : List UInt8} {parts : List (List UInt8)}

theorem consumes_uint (is : IsHead 0 n info front) :
    Consumes (decode (depth + 1)) front (uint n) := by
  intro rest
  have low := is.info_lt
  simp [decode, readHead_isHead (show 0 < 8 by decide) is, show info ≠ 31 by omega]

theorem consumes_nint (is : IsHead 1 n info front) (small : n < 2 ^ 63) :
    Consumes (decode (depth + 1)) front (nint n) := by
  intro rest
  have low := is.info_lt
  have signed : ¬(info = 31 ∨ 2 ^ 63 ≤ n) := by omega
  simp only [decode, readHead_isHead (show 1 < 8 by decide) is, bind_eq_bind, bind_some,
    if_neg signed]

theorem consumes_bytes (is : IsHead 2 content.length info front) :
    Consumes (decode (depth + 1)) (front ++ content) (bytes content) := by
  intro rest
  have low := is.info_lt
  simp [decode, readHead_isHead (show 2 < 8 by decide) is, show info ≠ 31 by omega, cut_append]

theorem consumes_text {content : String} (is : IsHead 3 (utf8 content).length info front) :
    Consumes (decode (depth + 1)) (front ++ utf8 content) (text content) := by
  intro rest
  have low := is.info_lt
  simp [decode, readHead_isHead (show 3 < 8 by decide) is, show info ≠ 31 by omega, cut_append,
    ofUtf8_utf8]

theorem consumes_array (is : IsHead 4 parts.length info front)
    (each : Forall₂ (Consumes (decode depth)) parts items) :
    Consumes (decode (depth + 1)) (front ++ parts.flatten) (array items) := by
  intro rest
  have low := is.info_lt
  simp [decode, readHead_isHead (show 4 < 8 by decide) is, show info ≠ 31 by omega,
    Consumes.many each rest]

theorem consumes_map (is : IsHead 5 parts.length info front)
    (each : Forall₂ (Consumes (readPair (decode depth))) parts entries) :
    Consumes (decode (depth + 1)) (front ++ parts.flatten) (map entries) := by
  intro rest
  have low := is.info_lt
  simp [decode, readHead_isHead (show 5 < 8 by decide) is, show info ≠ 31 by omega,
    Consumes.many each rest]

end Reads

theorem decode_encode {depth : Nat} (deep : height value ≤ depth) (small : fits value = true) :
    Consumes (decode depth) (encode value) value := by
  -- on the depth: the items of an array or a map are read with one level less
  induction depth generalizing value with
  | zero =>
    exfalso
    cases value <;> simp [height] at deep
  | succ depth ih =>
    cases value with
    | uint n =>
      have word : n < 2 ^ 64 := by simpa [fits] using small
      obtain ⟨info, is⟩ := isHead_head word
      exact consumes_uint is
    | nint n =>
      have word : n < 2 ^ 63 := by simpa [fits] using small
      obtain ⟨info, is⟩ := isHead_head (word.trans (by decide))
      exact consumes_nint is word
    | bytes content =>
      have word : content.length < 2 ^ 64 := by simpa [fits] using small
      obtain ⟨info, is⟩ := isHead_head word
      exact consumes_bytes is
    | text content =>
      have word : (utf8 content).length < 2 ^ 64 := by
        rw [length_utf8]
        simpa [fits] using small
      obtain ⟨info, is⟩ := isHead_head word
      exact consumes_text is
    | array items =>
      obtain ⟨word, all⟩ : items.length < 2 ^ 64 ∧ fitsAll items = true := by
        simpa [fits] using small
      have within : heightAll items ≤ depth := by simpa [height] using deep
      obtain ⟨info, is⟩ := isHead_head word
      rw [encode, encodeAll_eq]
      refine consumes_array (by rwa [length_map]) (forall₂_map_self (fun value member => ?_))
      exact ih ((height_le_heightAll member).trans within) (fits_of_mem all member)
    | map entries =>
      obtain ⟨word, all⟩ : entries.length < 2 ^ 64 ∧ fitsEntries entries = true := by
        simpa [fits] using small
      have within : heightEntries entries ≤ depth := by simpa [height] using deep
      obtain ⟨info, is⟩ := isHead_head word
      rw [encode, encodeEntries_eq]
      refine consumes_map (by rwa [length_map]) (forall₂_map_self (fun entry member => ?_))
      have heights := height_le_heightEntries member
      have sizes := fits_of_mem_entries all member
      exact Consumes.pair (ih (heights.1.trans within) sizes.1)
        (ih (heights.2.trans within) sizes.2)
    | bool b => cases b <;> exact fun _ => rfl
    | null => exact fun _ => rfl
    | other => exact fun _ => rfl

/-- The bytes are one item of the format, with heads of any width and of any kind that the decoder
passes: integers of 64 bits, strings, arrays and maps with or without a length, tags other than the
two of the bignums, the four known simple values, and floats. A tag counts as a level. -/
inductive WellFormed : Nat → List UInt8 → Prop
  | uint {depth n info : Nat} {front : List UInt8} (is : IsHead 0 n info front) :
      WellFormed (depth + 1) front
  | nint {depth n info : Nat} {front : List UInt8} (is : IsHead 1 n info front)
      (small : n < 2 ^ 63) : WellFormed (depth + 1) front
  | bytes {depth info : Nat} {front content : List UInt8}
      (is : IsHead 2 content.length info front) : WellFormed (depth + 1) (front ++ content)
  | text {depth info : Nat} {front : List UInt8} {content : String}
      (is : IsHead 3 (utf8 content).length info front) :
      WellFormed (depth + 1) (front ++ utf8 content)
  | byteParts {depth : Nat} {parts : List (List UInt8)} (each : ∀ part ∈ parts,
        ∃ info front content, IsHead 2 content.length info front ∧ part = front ++ content) :
      WellFormed (depth + 1) (0x5f :: (parts.flatten ++ [0xff]))
  | textParts {depth : Nat} {parts : List (List UInt8)} (each : ∀ part ∈ parts,
        ∃ info front content, IsHead 3 (utf8 content).length info front ∧
          part = front ++ utf8 content) :
      WellFormed (depth + 1) (0x7f :: (parts.flatten ++ [0xff]))
  | array {depth info : Nat} {front : List UInt8} {parts : List (List UInt8)}
      (is : IsHead 4 parts.length info front) (each : ∀ part ∈ parts, WellFormed depth part) :
      WellFormed (depth + 1) (front ++ parts.flatten)
  | openArray {depth : Nat} {parts : List (List UInt8)}
      (each : ∀ part ∈ parts, WellFormed depth part) :
      WellFormed (depth + 1) (0x9f :: (parts.flatten ++ [0xff]))
  | map {depth info : Nat} {front : List UInt8} {parts : List (List UInt8 × List UInt8)}
      (is : IsHead 5 parts.length info front)
      (keys : ∀ part ∈ parts, WellFormed depth part.1)
      (each : ∀ part ∈ parts, WellFormed depth part.2) :
      WellFormed (depth + 1) (front ++ (parts.map (fun part => part.1 ++ part.2)).flatten)
  | openMap {depth : Nat} {parts : List (List UInt8 × List UInt8)}
      (keys : ∀ part ∈ parts, WellFormed depth part.1)
      (each : ∀ part ∈ parts, WellFormed depth part.2) :
      WellFormed (depth + 1)
      (0xbf :: ((parts.map (fun part => part.1 ++ part.2)).flatten ++ [0xff]))
  | tag {depth n info : Nat} {front content : List UInt8} (is : IsHead 6 n info front)
      (plain : n ≠ 2 ∧ n ≠ 3) (inner : WellFormed depth content) :
      WellFormed (depth + 1) (front ++ content)
  | simple {depth n : Nat} (known : n ∈ [20, 21, 22, 23]) :
      WellFormed (depth + 1) [UInt8.ofNat (32 * 7 + n)]
  | float {depth n info : Nat} {front : List UInt8} (is : IsHead 7 n info front)
      (wide : info ∈ [25, 26, 27]) : WellFormed (depth + 1) front

theorem WellFormed.opens {depth : Nat} {bytes : List UInt8} (well : WellFormed depth bytes) :
    ∃ b later, bytes = b :: later ∧ b ≠ 0xff := by
  cases well with
  | uint is | nint is | float is => simpa using is.opens []
  | bytes is | text is | array is | map is | tag is => exact is.opens _
  | byteParts | textParts | openArray | openMap => exact ⟨_, _, rfl, by decide⟩
  | simple known =>
    refine ⟨_, [], rfl, ?_⟩
    simp only [mem_cons, not_mem_nil, or_false] at known
    rcases known with rfl | rfl | rfl | rfl <;> decide

theorem consumes_segment {info : Nat} {front content : List UInt8} (types : major < 8)
    (is : IsHead major content.length info front) :
    Consumes (readSegment major) (front ++ content) content := by
  intro rest
  have low := is.info_lt
  unfold readSegment
  rw [append_assoc, readHead_isHead types is, bind_eq_bind, bind_some]
  dsimp only
  rw [if_pos ⟨rfl, by omega⟩, cut_append rfl]

theorem exists_found {α β : Type} {R : α → β → Prop} {l : List α} (each : ∀ a ∈ l, ∃ b, R a b) :
    ∃ found, Forall₂ R l found := by
  induction l with
  | nil => exact ⟨[], .nil⟩
  | cons a l ih =>
    obtain ⟨b, here⟩ := each a mem_cons_self
    obtain ⟨found, later⟩ := ih (fun a member => each a (mem_cons_of_mem _ member))
    exact ⟨b :: found, .cons here later⟩

theorem exists_pairs {item : List UInt8 → Option (Value × List UInt8)}
    {parts : List (List UInt8 × List UInt8)}
    (keys : ∀ part ∈ parts, ∃ key, Consumes item part.1 key)
    (values : ∀ part ∈ parts, ∃ value, Consumes item part.2 value) : ∃ found,
    Forall₂ (Consumes (readPair item)) (parts.map (fun part => part.1 ++ part.2)) found := by
  refine exists_found (fun part member => ?_)
  obtain ⟨pair, listed, rfl⟩ := mem_map.mp member
  obtain ⟨key, first⟩ := keys pair listed
  obtain ⟨value, second⟩ := values pair listed
  exact ⟨(key, value), Consumes.pair first second⟩

theorem WellFormed.decode {depth : Nat} {bytes : List UInt8} (well : WellFormed depth bytes) :
    ∃ value, Consumes (Value.decode depth) bytes value := by
  induction well with
  | uint is => exact ⟨_, consumes_uint is⟩
  | nint is small => exact ⟨_, consumes_nint is small⟩
  | bytes is => exact ⟨_, consumes_bytes is⟩
  | text is => exact ⟨_, consumes_text is⟩
  | @byteParts depth parts each =>
    have reads : ∀ part ∈ parts, ∃ content, Consumes (readSegment 2) part content := by
      intro part member
      obtain ⟨info, front, content, is, rfl⟩ := each part member
      exact ⟨content, consumes_segment (by decide) is⟩
    have opens : ∀ part ∈ parts, ∃ b later, part = b :: later ∧ b ≠ 0xff := by
      intro part member
      obtain ⟨info, front, content, is, rfl⟩ := each part member
      exact is.opens content
    obtain ⟨found, all⟩ := exists_found reads
    refine ⟨.bytes found.flatten, fun rest => ?_⟩
    have read := Consumes.until_length all opens rest
    simp [Value.decode, readHead, read, -length_append]
  | @textParts depth parts each =>
    have reads : ∀ part ∈ parts, ∃ content, Consumes (readSegment 3) part (utf8 content) := by
      intro part member
      obtain ⟨info, front, content, is, rfl⟩ := each part member
      exact ⟨content, consumes_segment (by decide) is⟩
    have opens : ∀ part ∈ parts, ∃ b later, part = b :: later ∧ b ≠ 0xff := by
      intro part member
      obtain ⟨info, front, content, is, rfl⟩ := each part member
      exact is.opens (utf8 content)
    obtain ⟨texts, all⟩ := exists_found reads
    refine ⟨.text (String.join texts), fun rest => ?_⟩
    have read := Consumes.until_length (forall₂_map_right_iff.mpr all) opens rest
    have valid : (texts.map utf8).mapM ofUtf8 = some texts := by
      clear all read
      induction texts with
      | nil => rfl
      | cons first others ih =>
        rw [map_cons, mapM_cons, ofUtf8_utf8, ih]
        rfl
    simp [Value.decode, readHead, read, valid, -length_append]
  | array is each ih =>
    obtain ⟨found, all⟩ := exists_found ih
    exact ⟨_, consumes_array is all⟩
  | @openArray depth parts each ih =>
    obtain ⟨found, all⟩ := exists_found ih
    refine ⟨.array found, fun rest => ?_⟩
    have read := Consumes.until_length all (fun part member => (each part member).opens) rest
    simp [Value.decode, readHead, read, -length_append]
  | map is keys each ihKeys ih =>
    obtain ⟨found, all⟩ := exists_pairs ihKeys ih
    exact ⟨_, consumes_map (by rwa [length_map]) all⟩
  | @openMap depth parts keys each ihKeys ih =>
    obtain ⟨found, all⟩ := exists_pairs ihKeys ih
    refine ⟨.map found, fun rest => ?_⟩
    have opens : ∀ part ∈ parts.map (fun part => part.1 ++ part.2),
        ∃ b later, part = b :: later ∧ b ≠ 0xff := by
      intro part member
      obtain ⟨pair, listed, rfl⟩ := mem_map.mp member
      obtain ⟨b, later, same, plain⟩ := (keys pair listed).opens
      exact ⟨b, later ++ pair.2, by rw [same]; rfl, plain⟩
    have read := Consumes.until_length all opens rest
    simp [Value.decode, readHead, read, -length_append]
  | @tag depth n info front content is plain inner ih =>
    obtain ⟨value, read⟩ := ih
    refine ⟨untagged value, fun rest => ?_⟩
    have low := is.info_lt
    simp [Value.decode, readHead_isHead (show 6 < 8 by decide) is, show info ≠ 31 by omega,
      read rest]
  | @simple depth n known =>
    simp only [mem_cons, not_mem_nil, or_false] at known
    rcases known with rfl | rfl | rfl | rfl
    · exact ⟨.bool false, fun _ => rfl⟩
    · exact ⟨.bool true, fun _ => rfl⟩
    · exact ⟨.null, fun _ => rfl⟩
    · exact ⟨.null, fun _ => rfl⟩
  | @float depth n info front is wide =>
    refine ⟨.other, fun rest => ?_⟩
    simp only [mem_cons, not_mem_nil, or_false] at wide
    rcases wide with rfl | rfl | rfl <;>
      simp [Value.decode, readHead_isHead (show 7 < 8 by decide) is]

theorem encode_append_inj {value' : Value} (small : fits value = true)
    (small' : fits value' = true) {rest rest' : List UInt8}
    (same : encode value ++ rest = encode value' ++ rest') : value = value' ∧ rest = rest' := by
  have left := decode_encode (le_max_left (height value) (height value')) small rest
  have right := decode_encode (le_max_right (height value) (height value')) small' rest'
  rw [same, right] at left
  simpa [eq_comm] using left

theorem encode_inj {value' : Value} (small : fits value = true)
    (small' : fits value' = true) (same : encode value = encode value') : value = value' := by
  have extended : encode value ++ [] = encode value' ++ [] := by rw [same]
  exact (encode_append_inj small small' extended).1

def record (fields : List (String × Value)) : Value :=
  map (fields.map (fun field => (text field.1, field.2)))

def isText : Value → Bool
  | text _ => true
  | _ => false

def lookup (name : String) : Value → Option (List Value)
  | map entries =>
    if entries.all (fun entry => entry.1.isText) then
      some (entries.filterMap (fun entry =>
        match entry.1 with
        | text key => if key = name then some entry.2 else none
        | _ => none))
    else none
  | _ => none

def required {α : Type} (name : String) (read : Value → Option α) (value : Value) : Option α :=
  match lookup name value with
  | some [found] => read found
  | _ => none

def defaulted {α : Type} (name : String) (read : Value → Option α) (default : α) (value : Value) :
    Option α :=
  match lookup name value with
  | some [] => some default
  | some [found] => read found
  | _ => none

theorem lookup_record (name : String) (fields : List (String × Value)) :
    lookup name (record fields) =
      some (fields.filterMap (fun field => if field.1 = name then some field.2 else none)) := by
  have keys : (fields.map (fun field => (text field.1, field.2))).all
      (fun entry => entry.1.isText) = true := by
    simp [isText]
  rw [record, lookup, if_pos keys, filterMap_map]
  rfl

theorem lookup_absent (absent : name ∉ fields.map Prod.fst) :
    lookup name (record fields) = some [] := by
  rw [lookup_record, Option.some.injEq, filterMap_eq_nil_iff]
  intro field member
  have other : field.1 ≠ name := fun same => absent (mem_map.mpr ⟨field, member, same⟩)
  rw [if_neg other]

section

variable (nodup : (fields.map Prod.fst).Nodup) (member : (name, found) ∈ fields)
include nodup member

theorem lookup_present :
    lookup name (record fields) = some [found] := by
  induction fields with
  | nil => exact absurd member not_mem_nil
  | cons first others ih =>
    rw [map_cons, nodup_cons] at nodup
    rw [lookup_record, filterMap_cons]
    rcases mem_cons.mp member with rfl | later
    · have rest := lookup_absent nodup.1
      rw [lookup_record, Option.some.injEq] at rest
      simp [rest]
    · have other : first.1 ≠ name := fun same =>
        nodup.1 (mem_map.mpr ⟨_, later, same.symm⟩)
      rw [if_neg other, ← lookup_record]
      exact ih nodup.2 later

theorem required_record {α : Type}
    (read : Value → Option α) : required name read (record fields) = read found := by
  unfold required
  rw [lookup_present nodup member]

theorem defaulted_record {α : Type}
    (read : Value → Option α) (default : α) :
    defaulted name read default (record fields) = read found := by
  unfold defaulted
  rw [lookup_present nodup member]

end

theorem defaulted_absent {α : Type} (absent : name ∉ fields.map Prod.fst) (read : Value → Option α)
    (default : α) :
    defaulted name read default (record fields) = some default := by
  unfold defaulted
  rw [lookup_absent absent]

def encodeMap (entries : List (String × List UInt8)) : List UInt8 :=
  head 5 entries.length ++ (entries.map (fun entry => (text entry.1).encode ++ entry.2)).flatten

/-- A map as another writer may write a record: its fields in any order, among further entries with
well-formed items under other text keys, none of which is longer than a reader's buffer. -/
structure Widens (depth : Nat) (own : List (String × Value))
    (entries extra : List (String × List UInt8)) : Prop where
  order : entries.Perm (own.map (fun field => (field.1, field.2.encode)) ++ extra)
  few : entries.length < 2 ^ 64
  apart : ∀ entry ∈ extra, entry.1 ∉ own.map Prod.fst
  keys : ∀ entry ∈ extra, entry.1.utf8ByteSize ≤ 4096
  items : ∀ entry ∈ extra, WellFormed depth entry.2

def itemValue (depth : Nat) (item : List UInt8) : Value :=
  ((decode depth item).map Prod.fst).getD other

theorem itemValue_of_consumes {depth : Nat} {item : List UInt8}
    (read : Consumes (decode depth) item value) : itemValue depth item = value := by
  have whole := read []
  rw [append_nil] at whole
  rw [itemValue, whole]
  rfl

theorem consumes_encodeMap {depth : Nat} {entries : List (String × List UInt8)}
    (positive : 0 < depth) (few : entries.length < 2 ^ 64)
    (keys : ∀ entry ∈ entries, entry.1.utf8ByteSize < 2 ^ 64)
    (items : ∀ entry ∈ entries, ∃ value, Consumes (decode depth) entry.2 value) :
    Consumes (decode (depth + 1)) (encodeMap entries)
      (record (entries.map (fun entry => (entry.1, itemValue depth entry.2)))) := by
  obtain ⟨info, is⟩ := isHead_head few
  rw [record, List.map_map]
  refine consumes_map (by rwa [length_map]) ?_
  rw [forall₂_map_left_iff, forall₂_map_right_iff, forall₂_same]
  intro entry member
  obtain ⟨value, read⟩ := items entry member
  have small : fits (text entry.1) = true := decide_eq_true (keys entry member)
  have key : Consumes (decode depth) (text entry.1).encode (text entry.1) :=
    decode_encode positive small
  show Consumes _ _ (text entry.1, itemValue depth entry.2)
  rw [itemValue_of_consumes read]
  exact key.pair read

theorem Widens.decode {depth : Nat} {own : List (String × Value)}
    {entries extra : List (String × List UInt8)} (wide : Widens (depth + 1) own entries extra)
    (small : (record own).fits = true) (deep : (record own).height ≤ depth + 2) : ∃ fields more,
      Consumes (Value.decode (depth + 2)) (encodeMap entries) (record fields) ∧
      fields.Perm (own ++ more) ∧ ∀ field ∈ more, field.1 ∉ own.map Prod.fst := by
  obtain ⟨-, all⟩ : own.length < 2 ^ 64 ∧
      fitsEntries (own.map (fun field => (text field.1, field.2))) = true := by
    simpa [record, fits] using small
  have within : heightEntries (own.map (fun field => (text field.1, field.2))) ≤ depth + 1 := by
    simpa [record, height] using deep
  have sound : ∀ field ∈ own, field.1.utf8ByteSize < 2 ^ 64 ∧
      Consumes (Value.decode (depth + 1)) field.2.encode field.2 := by
    intro field member
    have listed : (text field.1, field.2) ∈ own.map (fun field => (text field.1, field.2)) :=
      mem_map_of_mem member
    obtain ⟨key, value⟩ := fits_of_mem_entries all listed
    exact ⟨by simpa [fits] using key,
      decode_encode ((height_le_heightEntries listed).2.trans within) value⟩
  have readable : ∀ entry ∈ entries, entry.1.utf8ByteSize < 2 ^ 64 ∧
      ∃ value, Consumes (Value.decode (depth + 1)) entry.2 value := by
    intro entry member
    rcases mem_append.mp (wide.order.mem_iff.mp member) with mine | foreign
    · obtain ⟨field, listed, rfl⟩ := mem_map.mp mine
      exact ⟨(sound field listed).1, field.2, (sound field listed).2⟩
    · exact ⟨(wide.keys entry foreign).trans_lt (by decide), (wide.items entry foreign).decode⟩
  refine ⟨_, extra.map (fun entry => (entry.1, itemValue (depth + 1) entry.2)),
    consumes_encodeMap (Nat.succ_pos depth) wide.few (fun entry member => (readable entry member).1)
      (fun entry member => (readable entry member).2), ?_, ?_⟩
  · have order := wide.order.map (fun entry => (entry.1, itemValue (depth + 1) entry.2))
    have same : own.map ((fun entry => (entry.1, itemValue (depth + 1) entry.2)) ∘
        (fun field : String × Value => (field.1, field.2.encode))) = own.map id :=
      map_congr_left (fun field member =>
        Prod.ext rfl (itemValue_of_consumes (sound field member).2))
    rwa [map_append, List.map_map, same, List.map_id] at order
  · intro field member
    obtain ⟨entry, foreign, rfl⟩ := mem_map.mp member
    exact wide.apart entry foreign

theorem fits_array (few : items.length < 2 ^ 64)
    (all : ∀ item ∈ items, fits item = true) : fits (array items) = true := by
  have each : fitsAll items = true := by
    clear few
    induction items with
    | nil => rfl
    | cons first others ih =>
      simp only [fitsAll, Bool.and_eq_true]
      exact ⟨all first mem_cons_self,
        ih (fun item member => all item (mem_cons_of_mem _ member))⟩
  simpa only [fits, each, Bool.and_true, decide_eq_true_eq] using few

theorem fits_record (few : fields.length < 2 ^ 64)
    (names : ∀ name ∈ fields.map Prod.fst, name.utf8ByteSize < 2 ^ 64)
    (all : ∀ field ∈ fields, fits field.2 = true) : fits (record fields) = true := by
  have each : fitsEntries (fields.map (fun field => (text field.1, field.2))) = true := by
    clear few
    induction fields with
    | nil => rfl
    | cons first others ih =>
      have name := names first.1 mem_cons_self
      have tail := ih (fun other member => names other (mem_cons_of_mem _ member))
        (fun field member => all field (mem_cons_of_mem _ member))
      simp only [map_cons, fitsEntries, fits, Bool.and_eq_true, decide_eq_true_eq]
      exact ⟨⟨name, all first mem_cons_self⟩, tail⟩
  simpa only [record, fits, each, Bool.and_true, decide_eq_true_eq, length_map] using few

theorem textual_array (all : ∀ item ∈ items, textual item = true) :
    textual (array items) = true := by
  simp only [textual]
  induction items with
  | nil => rfl
  | cons first others ih =>
    simp only [textualAll, Bool.and_eq_true]
    exact ⟨all first mem_cons_self,
      ih (fun item member => all item (mem_cons_of_mem _ member))⟩

theorem textual_record (all : ∀ field ∈ fields, textual field.2 = true) : textual
    (record fields) = true := by
  simp only [record, textual]
  induction fields with
  | nil => rfl
  | cons first others ih =>
    simp only [map_cons, textualEntries, Bool.and_eq_true]
    exact ⟨all first mem_cons_self,
      ih (fun field member => all field (mem_cons_of_mem _ member))⟩

theorem height_array {n : Nat} (all : ∀ item ∈ items, height item ≤ n) :
    height (array items) ≤ n + 1 := by
  simp only [height, Nat.add_le_add_iff_right]
  induction items with
  | nil => exact Nat.zero_le n
  | cons first others ih =>
    simp only [heightAll]
    have here := all first mem_cons_self
    have later := ih (fun item member => all item (mem_cons_of_mem _ member))
    omega

theorem height_record {n : Nat} (positive : 1 ≤ n)
    (all : ∀ field ∈ fields, height field.2 ≤ n) : height (record fields) ≤ n + 1 := by
  simp only [record, height, Nat.add_le_add_iff_right]
  induction fields with
  | nil => exact Nat.zero_le n
  | cons first others ih =>
    simp only [map_cons, heightEntries, height]
    have here := all first mem_cons_self
    have later := ih (fun field member => all field (mem_cons_of_mem _ member))
    omega

def readItems {α : Type} (read : Value → Option α) : Value → Option (List α)
  | array items => items.mapM read
  | _ => none

theorem readItems_array {α : Type} {read : Value → Option α} {write : α → Value} {items : List α}
    (reads : ∀ item ∈ items, read (write item) = some item) :
    readItems read (array (items.map write)) = some items := by
  simp only [readItems]
  induction items with
  | nil => rfl
  | cons first others ih =>
    have tail := ih (fun item member => reads item (mem_cons_of_mem _ member))
    rw [map_cons, mapM_cons, reads first mem_cons_self, tail]
    rfl

end Value

end Cbor

end RelayFabric.Lib
