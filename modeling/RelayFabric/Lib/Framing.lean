/- layer: library
   digest: Byte streams of payloads behind big-endian lengths, and pieces of bounded size. -/

import RelayFabric.Lib.Cbor

namespace RelayFabric.Lib

open List

section Chunks

variable {α : Type}

def chunksFrom (size : Nat) : Nat → List α → List (List α)
  | 0, _ => []
  | _ + 1, [] => []
  | fuel + 1, items => items.take size :: chunksFrom size fuel (items.drop size)

def chunks (size : Nat) (items : List α) : List (List α) := chunksFrom size items.length items

private theorem flatten_chunksFrom {size : Nat} (pos : 0 < size) (fuel : Nat) (items : List α)
    (enough : items.length ≤ fuel) : (chunksFrom size fuel items).flatten = items := by
  induction fuel generalizing items with
  | zero =>
    have empty : items = [] := length_eq_zero_iff.mp (by omega)
    rw [empty]
    rfl
  | succ fuel ih =>
    cases items with
    | nil => rfl
    | cons a rest =>
      have shorter : ((a :: rest).drop size).length ≤ fuel := by
        rw [length_drop, length_cons]
        rw [length_cons] at enough
        omega
      rw [chunksFrom, flatten_cons, ih _ shorter, take_append_drop]
      exact fun empty => nomatch empty

@[simp] theorem flatten_chunks {size : Nat} (pos : 0 < size) (items : List α) :
    (chunks size items).flatten = items :=
  flatten_chunksFrom pos items.length items le_rfl

private theorem bounds_of_mem_chunksFrom {size : Nat} (pos : 0 < size) (fuel : Nat)
    (items : List α) :
    ∀ piece ∈ chunksFrom size fuel items, 0 < piece.length ∧ piece.length ≤ size := by
  induction fuel generalizing items with
  | zero => exact nofun
  | succ fuel ih =>
    cases items with
    | nil => exact nofun
    | cons a rest =>
      intro piece member
      rw [chunksFrom] at member
      · rcases mem_cons.mp member with rfl | later
        · rw [length_take, length_cons]
          omega
        · exact ih _ piece later
      · exact fun empty => nomatch empty

theorem bounds_of_mem_chunks {size : Nat} {items piece : List α} (pos : 0 < size)
    (member : piece ∈ chunks size items) : 0 < piece.length ∧ piece.length ≤ size :=
  bounds_of_mem_chunksFrom pos items.length items piece member

end Chunks

def framed (width : Nat) (payload : List UInt8) : List UInt8 :=
  bigEndian width payload.length ++ payload

def framedAll (width : Nat) (payloads : List (List UInt8)) : List UInt8 :=
  payloads.flatMap (framed width)

def announced (width : Nat) (buffer : List UInt8) : Nat := ofBigEndian (buffer.take width)

section Framed

variable {width : Nat}

@[simp] theorem length_framed (payload : List UInt8) :
    (framed width payload).length = width + payload.length := by
  simp [framed]

@[simp] theorem framedAll_nil : framedAll width [] = [] := rfl

@[simp] theorem framedAll_cons (payload : List UInt8) (rest : List (List UInt8)) :
    framedAll width (payload :: rest) = framed width payload ++ framedAll width rest :=
  flatMap_cons

@[simp] theorem framedAll_append (first second : List (List UInt8)) :
    framedAll width (first ++ second) = framedAll width first ++ framedAll width second :=
  flatMap_append

variable {buffer rest payload more : List UInt8} {payloads : List (List UInt8)}

theorem take_width_of_append (split : buffer ++ rest = framed width payload ++ more)
    (enough : width ≤ buffer.length) : buffer.take width = bigEndian width payload.length := by
  have front := congrArg (List.take width) split
  rw [take_append_of_le_length enough, framed, append_assoc,
    take_left' (length_bigEndian _ _)] at front
  exact front

theorem announced_of_append (fits : payload.length < 256 ^ width)
    (split : buffer ++ rest = framed width payload ++ more) (enough : width ≤ buffer.length) :
    announced width buffer = payload.length := by
  unfold announced
  rw [take_width_of_append split enough, ofBigEndian_bigEndian fits]

theorem payload_of_append (split : buffer ++ rest = framed width payload ++ more)
    (enough : width + payload.length ≤ buffer.length) :
    (buffer.drop width).take payload.length = payload ∧
      buffer.drop (width + payload.length) ++ rest = more := by
  have whole : buffer.take (width + payload.length) ++
      (buffer.drop (width + payload.length) ++ rest) = framed width payload ++ more := by
    rw [← append_assoc, take_append_drop]
    exact split
  have length : (buffer.take (width + payload.length)).length = (framed width payload).length := by
    rw [length_take, length_framed]
    omega
  obtain ⟨front, back⟩ := append_inj whole length
  refine ⟨?_, back⟩
  rw [take_drop, front, framed, drop_left' (length_bigEndian _ _)]

end Framed

end RelayFabric.Lib
