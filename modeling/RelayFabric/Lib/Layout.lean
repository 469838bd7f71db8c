/- layer: library
   digest: Positions in consecutive stretches, and decimal fields of fixed width. -/

import RelayFabric.Lib.Cbor
import Mathlib.Tactic.Ring

namespace RelayFabric.Lib

open List

/-- Which of consecutive stretches a position falls into, and how far. -/
def locate : List Nat → Nat → Nat × Nat
  | [], n => (0, n)
  | length :: rest, n =>
    if n < length then (0, n) else ((locate rest (n - length)).1 + 1, (locate rest (n - length)).2)

theorem locate_back {lengths : List Nat} {n : Nat} (inside : n < lengths.sum) :
    (lengths.take (locate lengths n).1).sum + (locate lengths n).2 = n ∧
      (locate lengths n).2 < lengths.getD (locate lengths n).1 0 := by
  induction lengths generalizing n with
  | nil => exact absurd inside (Nat.not_lt_zero n)
  | cons length rest ih =>
    rw [sum_cons] at inside
    unfold locate
    split_ifs with here
    · exact ⟨Nat.zero_add n, here⟩
    · obtain ⟨sum, short⟩ := ih (show n - length < rest.sum by omega)
      refine ⟨?_, short⟩
      rw [take_succ_cons, sum_cons, Nat.add_assoc, sum]
      omega

theorem locate_lt {lengths : List Nat} {n m : Nat} (less : n < m) (inside : m < lengths.sum) :
    (locate lengths n).1 < (locate lengths m).1 ∨
      (locate lengths n).1 = (locate lengths m).1 ∧
      (locate lengths n).2 < (locate lengths m).2 := by
  induction lengths generalizing n m with
  | nil => exact absurd inside (Nat.not_lt_zero m)
  | cons length rest ih =>
    rw [sum_cons] at inside
    unfold locate
    split_ifs with first second
    · exact Or.inr ⟨rfl, less⟩
    · exact Or.inl (Nat.succ_pos _)
    · omega
    · refine (ih (show n - length < m - length by omega) (by omega)).imp Nat.succ_lt_succ ?_
      exact And.imp_left (congrArg (· + 1))

def digit (d : Nat) : Char := Char.ofNat (48 + d)

def decimal : Nat → Nat → List Char
  | 0, _ => []
  | width + 1, n => digit (n / 10 ^ width % 10) :: decimal width n

def readDecimal : Nat → Nat → List Char → Option (Nat × List Char)
  | 0, acc, text => some (acc, text)
  | _ + 1, _, [] => none
  | width + 1, acc, c :: text =>
    if c.isDigit then readDecimal width (acc * 10 + (c.toNat - 48)) text else none

theorem digit_facts : ∀ d < 10, (digit d).toNat = 48 + d ∧ (digit d).isDigit = true := by decide

theorem digit_lt {d e : Nat} (less : d < e) (small : e < 10) : digit d < digit e := by
  show (digit d).toNat < (digit e).toNat
  rw [(digit_facts d (less.trans small)).1, (digit_facts e small).1]
  omega

theorem isDigit_decimal (width n : Nat) : ∀ c ∈ decimal width n, c.isDigit = true := by
  induction width with
  | zero => simp [decimal]
  | succ width ih =>
    intro c member
    rcases mem_cons.mp member with rfl | later
    · exact (digit_facts _ (Nat.mod_lt _ (by decide))).2
    · exact ih c later

theorem length_decimal (width n : Nat) : (decimal width n).length = width := by
  induction width with
  | zero => rfl
  | succ width ih => rw [decimal, length_cons, ih]

theorem decimal_add (i j n : Nat) : decimal (i + j) n = decimal i (n / 10 ^ j) ++ decimal j n := by
  induction i with
  | zero => rw [Nat.zero_add, decimal, nil_append]
  | succ i ih =>
    rw [Nat.succ_add, decimal, decimal, ih, Nat.div_div_eq_div_mul, ← Nat.pow_add, Nat.add_comm,
      cons_append]

theorem readDecimal_decimal (width n acc : Nat) (rest : List Char) :
    readDecimal width acc (decimal width n ++ rest) = some (acc * 10 ^ width + n % 10 ^ width,
      rest) := by
  induction width generalizing acc with
  | zero => simp [readDecimal, decimal, Nat.mod_one]
  | succ width ih =>
    obtain ⟨code, isDigit⟩ := digit_facts (n / 10 ^ width % 10) (Nat.mod_lt _ (by decide))
    rw [decimal, cons_append, readDecimal, if_pos isDigit, ih, code, Nat.add_sub_cancel_left,
      Nat.mod_pow_succ, Nat.pow_succ]
    congr 2
    ring

def digitCount (text : List Char) : Nat := (text.takeWhile Char.isDigit).length

def Ends (rest : List Char) : Prop := ∀ c ∈ rest.head?, c.isDigit = false

theorem ne_of_isDigit {c d : Char} (digit : c.isDigit = true) (other : d.isDigit = false) :
    c ≠ d := by
  rintro rfl
  exact Bool.false_ne_true (other.symm.trans digit)

theorem ends_nil : Ends [] := fun _ head => absurd head (Option.not_mem_none _)

theorem ends_cons {c : Char} (other : c.isDigit = false) (rest : List Char) : Ends (c :: rest) := by
  intro first head
  rwa [← Option.mem_some.mp head]

theorem digitCount_decimal {rest : List Char} (ends : Ends rest) (width n : Nat) :
    digitCount (decimal width n ++ rest) = width := by
  have stops : rest.takeWhile Char.isDigit = [] := by
    cases rest with
    | nil => rfl
    | cons c rest => exact takeWhile_cons_of_neg (by simp [ends c rfl])
  unfold digitCount
  rw [takeWhile_append_of_pos (isDigit_decimal width n), stops, append_nil, length_decimal]

theorem readDecimal_digitCount {width n : Nat} {rest : List Char} (ends : Ends rest)
    (small : n < 10 ^ width) :
    readDecimal (digitCount (decimal width n ++ rest)) 0 (decimal width n ++ rest) =
      some (n, rest) := by
  rw [digitCount_decimal ends, readDecimal_decimal, Nat.zero_mul, Nat.zero_add,
    Nat.mod_eq_of_lt small]

theorem cons_lt {c : Char} {x y : List Char} (less : x < y) : c :: x < c :: y :=
  cons_lt_cons_iff.mpr (Or.inr ⟨rfl, less⟩)

theorem decimal_append_lt {width n m : Nat} {x y : List Char} (small : n < 10 ^ width)
    (small' : m < 10 ^ width) (less : n < m ∨ n = m ∧ x < y) :
    decimal width n ++ x < decimal width m ++ y := by
  rw [← Nat.mod_eq_of_lt small, ← Nat.mod_eq_of_lt small'] at less
  clear small small'
  induction width with
  | zero =>
    rw [Nat.pow_zero, Nat.mod_one, Nat.mod_one] at less
    simpa [decimal] using less
  | succ width ih =>
    rw [decimal, decimal, cons_append, cons_append, cons_lt_cons_iff]
    rw [Nat.mod_pow_succ, Nat.mod_pow_succ] at less
    have low := Nat.mod_lt n (Nat.pow_pos (n := width) (show 0 < 10 by decide))
    have low' := Nat.mod_lt m (Nat.pow_pos (n := width) (show 0 < 10 by decide))
    rcases Nat.lt_trichotomy (n / 10 ^ width % 10) (m / 10 ^ width % 10) with first | same | back
    · exact Or.inl (digit_lt first (Nat.mod_lt _ (by decide)))
    · rw [same] at less ⊢
      refine Or.inr ⟨rfl, ih ?_⟩
      exact less.imp (by omega) (And.imp_left (by omega))
    · have step := Nat.mul_le_mul_left (10 ^ width) (Nat.succ_le_of_lt back)
      rw [Nat.mul_succ] at step
      omega

theorem utf8_cons {c : Char} (ascii : c.toNat < 128) (text : List Char) :
    Cbor.utf8 (String.ofList (c :: text)) = UInt8.ofNat c.toNat ::
      Cbor.utf8 (String.ofList text) := by
  have small : c.toNat ≤ 127 := Nat.le_of_lt_succ ascii
  unfold Cbor.utf8
  simp [String.toUTF8, String.toByteArray_ofList, List.utf8Encode, String.utf8EncodeChar, small]

theorem utf8_lt {text text' : List Char} (ascii : ∀ c ∈ text, c.toNat < 128)
    (ascii' : ∀ c ∈ text', c.toNat < 128) (less : text < text') :
    Cbor.utf8 (String.ofList text) < Cbor.utf8 (String.ofList text') := by
  induction text generalizing text' with
  | nil =>
    cases text' with
    | nil => exact absurd less (List.lt_irrefl _)
    | cons d rest' =>
      rw [utf8_cons (ascii' d mem_cons_self)]
      exact nil_lt_cons _ _
  | cons c rest ih =>
    cases text' with
    | nil => exact absurd less (not_lt_nil _)
    | cons d rest' =>
      have code := ascii c mem_cons_self
      have code' := ascii' d mem_cons_self
      rw [utf8_cons code, utf8_cons code', cons_lt_cons_iff]
      refine (cons_lt_cons_iff.mp less).imp (fun first => ?_) (fun same => ?_)
      · have first : c.toNat < d.toNat := first
        rw [UInt8.lt_iff_toNat_lt, UInt8.toNat_ofNat', UInt8.toNat_ofNat']
        omega
      · refine ⟨congrArg (fun e => UInt8.ofNat (Char.toNat e)) same.1, ih ?_ ?_ same.2⟩
        · exact fun e later => ascii e (mem_cons_of_mem _ later)
        · exact fun e later => ascii' e (mem_cons_of_mem _ later)

theorem ascii_decimal (width n : Nat) : ∀ c ∈ decimal width n, c.toNat < 128 := by
  intro c member
  have isDigit := isDigit_decimal width n c member
  simp only [Char.isDigit, Bool.and_eq_true, decide_eq_true_eq] at isDigit
  have high : c.toNat ≤ 57 := isDigit.2
  omega

end RelayFabric.Lib
