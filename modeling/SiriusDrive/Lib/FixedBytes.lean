import Mathlib.Algebra.Group.Nat.Defs
import Mathlib.Algebra.Order.Ring.Nat

/-! # Numbers as a fixed number of bytes

Records of fixed layout hold each number in a fixed number of bytes at a fixed
offset. Writing a number and reading it back gives the number, and so does
reading a field out of the middle of a record.
-/

namespace FixedBytes

/-- The number in `width` bytes, the least significant one first. -/
def encode : (width : Nat) → Nat → List UInt8
  | 0, _ => []
  | width + 1, n => UInt8.ofNat n :: encode width (n / 256)

/-- The number with the given bytes. -/
def decode : List UInt8 → Nat
  | [] => 0
  | byte :: bytes => byte.toNat + 256 * decode bytes

/-- An array of bytes that is read as one number, the most significant byte first. -/
def arrayBytes (width : Nat) (value : BitVec (8 * width)) : List UInt8 :=
  (encode width value.toNat).reverse

def arrayOfBytes (width : Nat) (bytes : List UInt8) : BitVec (8 * width) :=
  BitVec.ofNat (8 * width) (decode bytes.reverse)

def field (bytes : List UInt8) (offset width : Nat) : List UInt8 := (bytes.drop offset).take width

@[simp] theorem length_encode (width n : Nat) : (encode width n).length = width := by
  induction width generalizing n with
  | zero => rfl
  | succ width ih => rw [encode, List.length_cons, ih]

theorem decode_encode {width n : Nat} (fits : n < 256 ^ width) : decode (encode width n) = n := by
  induction width generalizing n with
  | zero =>
      rw [pow_zero] at fits
      rw [encode, decode]
      omega
  | succ width ih =>
      have rest : n / 256 < 256 ^ width := by
        apply Nat.div_lt_of_lt_mul
        rw [pow_succ] at fits
        omega
      rw [encode, decode, ih rest, UInt8.toNat_ofNat']
      omega

theorem decode_lt (bytes : List UInt8) : decode bytes < 256 ^ bytes.length := by
  induction bytes with
  | nil => decide
  | cons byte bytes ih =>
      have small : byte.toNat < 256 := byte.toNat_lt
      rw [decode, List.length_cons, pow_succ]
      omega

theorem encode_decode (bytes : List UInt8) : encode bytes.length (decode bytes) = bytes := by
  induction bytes with
  | nil => rfl
  | cons byte bytes ih =>
      have small : byte.toNat < 256 := byte.toNat_lt
      have low : UInt8.ofNat (byte.toNat + 256 * decode bytes) = byte := by
        apply UInt8.toNat_inj.mp
        rw [UInt8.toNat_ofNat']
        omega
      have high : (byte.toNat + 256 * decode bytes) / 256 = decode bytes := by omega
      rw [List.length_cons, decode, encode, low, high, ih]

section Arrays

variable {width : Nat}

private theorem pow_bytes (width : Nat) : 2 ^ (8 * width) = 256 ^ width := by
  rw [pow_mul]
  rfl

@[simp] theorem length_arrayBytes (value : BitVec (8 * width)) :
    (arrayBytes width value).length = width := by
  rw [arrayBytes, List.length_reverse, length_encode]

@[simp] theorem arrayOfBytes_arrayBytes (value : BitVec (8 * width)) :
    arrayOfBytes width (arrayBytes width value) = value := by
  have fits : value.toNat < 256 ^ width := pow_bytes width ▸ value.isLt
  rw [arrayOfBytes, arrayBytes, List.reverse_reverse, decode_encode fits, BitVec.ofNat_toNat,
    BitVec.setWidth_eq]

theorem arrayBytes_arrayOfBytes {bytes : List UInt8} (isWidth : bytes.length = width) :
    arrayBytes width (arrayOfBytes width bytes) = bytes := by
  have reversed : bytes.reverse.length = width := by rw [List.length_reverse, isWidth]
  have small : decode bytes.reverse < 2 ^ (8 * width) := by
    rw [pow_bytes, ← reversed]
    exact decode_lt bytes.reverse
  rw [arrayBytes, arrayOfBytes, BitVec.toNat_ofNat, Nat.mod_eq_of_lt small]
  have back := encode_decode bytes.reverse
  rw [reversed] at back
  rw [back, List.reverse_reverse]

end Arrays

theorem length_field {bytes : List UInt8} {offset width : Nat}
    (fits : offset + width ≤ bytes.length) : (field bytes offset width).length = width := by
  rw [field, List.length_take, List.length_drop]
  omega

/-! ## The bits of a byte -/

theorem getElem?_encode {width i : Nat} (inside : i < width) (n : Nat) :
    (encode width n)[i]? = some (UInt8.ofNat (n / 256 ^ i)) := by
  induction width generalizing n i with
  | zero => omega
  | succ width ih =>
      cases i with
      | zero => rw [encode, List.getElem?_cons_zero, pow_zero, Nat.div_one]
      | succ i =>
          rw [encode, List.getElem?_cons_succ, ih (by omega), Nat.div_div_eq_div_mul, pow_succ,
            Nat.mul_comm]

theorem testBit_decode_cons {byte : UInt8} {bytes : List UInt8} {j : Nat} (low : j < 8) :
    (decode (byte :: bytes)).testBit j = byte.toNat.testBit j := by
  have isLow : decode (byte :: bytes) % 2 ^ 8 = byte.toNat := by
    have small : byte.toNat < 256 := byte.toNat_lt
    rw [decode]
    omega
  rw [← isLow, Nat.testBit_mod_two_pow, decide_eq_true low, Bool.true_and]

/-- The low bits of a number in a part of an array are the bits of the first byte. -/
theorem testBit_decode_field {width offset count j : Nat} (value : BitVec (8 * width))
    (inside : offset < width) (positive : 0 < count) (low : j < 8) :
    (decode (field (arrayBytes width value) offset count)).testBit j =
      value.getMsbD (8 * offset + (7 - j)) := by
  have isByte : (arrayBytes width value)[offset]? =
      some (UInt8.ofNat (value.toNat / 256 ^ (width - 1 - offset))) := by
    rw [arrayBytes, List.getElem?_reverse (by rw [length_encode]; exact inside), length_encode,
      getElem?_encode (by omega)]
  obtain ⟨isShort, isFirst⟩ := List.getElem?_eq_some_iff.mp isByte
  obtain ⟨less, rfl⟩ : ∃ less, count = less + 1 := ⟨count - 1, by omega⟩
  rw [field, List.drop_eq_getElem_cons isShort, isFirst, List.take_succ_cons,
    testBit_decode_cons low, UInt8.toNat_ofNat',
    Nat.testBit_mod_two_pow, decide_eq_true low, Bool.true_and,
    show 256 ^ (width - 1 - offset) = 2 ^ (8 * (width - 1 - offset)) by rw [pow_mul]; rfl,
    Nat.testBit_div_two_pow, BitVec.getMsbD, BitVec.getLsbD, decide_eq_true (by omega),
    Bool.true_and]
  congr 1
  omega

theorem field_head {part : List UInt8} {width : Nat} (isWidth : part.length = width)
    (rest : List UInt8) : field (part ++ rest) 0 width = part := by
  subst isWidth
  rw [field, List.drop_zero, List.take_left]

theorem field_tail {part : List UInt8} {skipped : Nat} (isSkipped : part.length = skipped)
    (rest : List UInt8) (offset width : Nat) :
    field (part ++ rest) (skipped + offset) width = field rest offset width := by
  subst isSkipped
  rw [field, field, ← List.drop_drop, List.drop_left]

/-- A record is the field at an offset followed by the fields after it. -/
theorem field_append_field (bytes : List UInt8) (offset width rest : Nat) :
    field bytes offset width ++ field bytes (offset + width) rest =
      field bytes offset (width + rest) := by
  rw [field, field, field, List.take_add, List.drop_drop]

theorem field_all {bytes : List UInt8} {width : Nat} (isWidth : bytes.length = width) :
    field bytes 0 width = bytes := by
  rw [field, List.drop_zero, ← isWidth, List.take_length]

end FixedBytes
