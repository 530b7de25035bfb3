import Mathlib.Algebra.Order.Ring.Nat

/-! # Hashes that rotate and xor

A word is hashed by xoring it into the hash and rotating the hash by one place.
Such a hash is linear: what a difference in one word does to the hash depends on
the difference and on the number of words that follow, and on nothing else.
-/

namespace RotateXor

variable {w : Nat}

theorem getLsbD_rotateRight_add (x : BitVec w) (r : Nat) {i : Nat} (lt : i < w) :
    (x.rotateRight r).getLsbD i = x.getLsbD ((i + r) % w) := by
  have small : r % w < w := Nat.mod_lt r (by omega)
  have split : (i + r) % w = (i + r % w) % w := by simp
  rw [BitVec.getLsbD_rotateRight, split]
  by_cases low : i < w - r % w
  · have inside : (i + r % w) % w = r % w + i := by
      rw [Nat.mod_eq_of_lt (show i + r % w < w by omega), Nat.add_comm]
    rw [cond_eq_ite, decide_eq_true low, if_pos rfl, inside]
  · have wraps : (i + r % w) % w = i - (w - r % w) := by
      have reduced : i + r % w - w < w := by omega
      rw [Nat.mod_eq_sub_mod (by omega), Nat.mod_eq_of_lt reduced]
      omega
    rw [cond_eq_ite, decide_eq_false low, if_neg Bool.false_ne_true, wraps, decide_eq_true lt,
      Bool.true_and]

@[simp] theorem rotateRight_zero (x : BitVec w) : x.rotateRight 0 = x := by
  apply BitVec.eq_of_getLsbD_eq
  intro i lt
  rw [getLsbD_rotateRight_add x 0 lt, Nat.add_zero, Nat.mod_eq_of_lt lt]

@[simp] theorem zero_rotateRight (r : Nat) : (0#w).rotateRight r = 0#w := by
  apply BitVec.eq_of_getLsbD_eq
  intro i lt
  rw [getLsbD_rotateRight_add _ r lt, BitVec.getLsbD_zero, BitVec.getLsbD_zero]

theorem rotateRight_xor (x y : BitVec w) (r : Nat) :
    (x ^^^ y).rotateRight r = x.rotateRight r ^^^ y.rotateRight r := by
  apply BitVec.eq_of_getLsbD_eq
  intro i lt
  simp only [BitVec.getLsbD_xor, getLsbD_rotateRight_add _ r lt]

theorem rotateRight_rotateRight (x : BitVec w) (r s : Nat) :
    (x.rotateRight r).rotateRight s = x.rotateRight (r + s) := by
  apply BitVec.eq_of_getLsbD_eq
  intro i lt
  have inside : (i + s) % w < w := Nat.mod_lt _ (by omega)
  rw [getLsbD_rotateRight_add _ s lt, getLsbD_rotateRight_add _ r inside,
    getLsbD_rotateRight_add _ (r + s) lt, Nat.mod_add_mod, Nat.add_assoc, Nat.add_comm s r]

theorem rotateRight_eq_zero_iff (x : BitVec w) (r : Nat) : x.rotateRight r = 0#w ↔ x = 0#w := by
  constructor
  · intro isZero
    have back : (x.rotateRight r).rotateRight (w * r - r) = x := by
      rw [rotateRight_rotateRight]
      by_cases empty : w = 0
      · subst empty
        exact Subsingleton.elim _ _
      · have whole : r + (w * r - r) = w * r := by
          have le : r ≤ w * r := Nat.le_mul_of_pos_left r (by omega)
          omega
        rw [whole, ← BitVec.rotateRight_mod_eq_rotateRight, Nat.mul_mod_right, rotateRight_zero]
    rw [← back, isZero, zero_rotateRight]
  · intro isZero
    rw [isZero, zero_rotateRight]

theorem xor_eq_right_iff (x y : BitVec w) : x ^^^ y = y ↔ x = 0#w := by
  rw [← BitVec.xor_eq_zero_iff, BitVec.xor_assoc, BitVec.xor_self, BitVec.xor_zero]

/-! ## The hash -/

def absorb (hash word : BitVec w) : BitVec w := (hash ^^^ word).rotateRight 1

/-- Hash some words in turn. -/
def absorbAll (hash : BitVec w) (words : List (BitVec w)) : BitVec w := words.foldl absorb hash

@[simp] theorem absorbAll_nil (hash : BitVec w) : absorbAll hash [] = hash := rfl

@[simp] theorem absorbAll_cons (hash word : BitVec w) (words : List (BitVec w)) :
    absorbAll hash (word :: words) = absorbAll (absorb hash word) words := rfl

theorem absorbAll_append (hash : BitVec w) (first second : List (BitVec w)) :
    absorbAll hash (first ++ second) = absorbAll (absorbAll hash first) second :=
  List.foldl_append

theorem absorb_xor (x hash word : BitVec w) :
    absorb (x ^^^ hash) word = x.rotateRight 1 ^^^ absorb hash word := by
  rw [absorb, absorb, BitVec.xor_assoc, rotateRight_xor]

theorem absorbAll_xor (x hash : BitVec w) (words : List (BitVec w)) :
    absorbAll (x ^^^ hash) words = x.rotateRight words.length ^^^ absorbAll hash words := by
  induction words generalizing x hash with
  | nil => simp
  | cons word words ih =>
      rw [absorbAll_cons, absorb_xor, ih, rotateRight_rotateRight, List.length_cons,
        Nat.add_comm 1, absorbAll_cons]

/-- Two lists of words of one length whose hashes differ in a rotation of `difference`. -/
structure DiffersBy (difference : BitVec w) (words changed : List (BitVec w)) : Prop where
  length : changed.length = words.length
  hash : ∃ r, ∀ hash, absorbAll hash changed = difference.rotateRight r ^^^ absorbAll hash words

theorem DiffersBy.of_word (difference word : BitVec w) (r : Nat) :
    DiffersBy difference [word] [difference.rotateRight r ^^^ word] where
  length := rfl
  hash := by
    refine ⟨r + 1, ?_⟩
    intro hash
    have moved : hash ^^^ (difference.rotateRight r ^^^ word) =
        difference.rotateRight r ^^^ (hash ^^^ word) := by ac_rfl
    simp only [absorbAll_cons, absorbAll_nil, absorb]
    rw [moved, rotateRight_xor, rotateRight_rotateRight]

theorem DiffersBy.append_right {difference : BitVec w} {words changed : List (BitVec w)}
    (differs : DiffersBy difference words changed) (rest : List (BitVec w)) :
    DiffersBy difference (words ++ rest) (changed ++ rest) where
  length := by rw [List.length_append, List.length_append, differs.length]
  hash := by
    obtain ⟨r, hash⟩ := differs.hash
    refine ⟨r + rest.length, ?_⟩
    intro initial
    rw [absorbAll_append, absorbAll_append, hash, absorbAll_xor, rotateRight_rotateRight]

theorem DiffersBy.append_left {difference : BitVec w} {words changed : List (BitVec w)}
    (differs : DiffersBy difference words changed) (front : List (BitVec w)) :
    DiffersBy difference (front ++ words) (front ++ changed) where
  length := by rw [List.length_append, List.length_append, differs.length]
  hash := by
    obtain ⟨r, hash⟩ := differs.hash
    refine ⟨r, ?_⟩
    intro initial
    rw [absorbAll_append, absorbAll_append, hash]

/-! ## Sums of rotations -/

/-- The sum of some rotations of a word. -/
def spread (offsets : List Nat) (word : BitVec w) : BitVec w :=
  offsets.foldr (fun offset sum => word.rotateRight offset ^^^ sum) 0#w

@[simp] theorem spread_nil (word : BitVec w) : spread [] word = 0#w := rfl

@[simp] theorem spread_cons (offset : Nat) (offsets : List Nat) (word : BitVec w) :
    spread (offset :: offsets) word = word.rotateRight offset ^^^ spread offsets word := rfl

@[simp] theorem spread_zero (offsets : List Nat) : spread offsets (0#w) = 0#w := by
  induction offsets with
  | nil => rfl
  | cons offset offsets ih => rw [spread_cons, ih, zero_rotateRight, BitVec.xor_zero]

theorem spread_xor (offsets : List Nat) (x y : BitVec w) :
    spread offsets (x ^^^ y) = spread offsets x ^^^ spread offsets y := by
  induction offsets with
  | nil => simp
  | cons offset offsets ih =>
      rw [spread_cons, ih, rotateRight_xor, spread_cons, spread_cons]
      ac_rfl

theorem spread_rotateRight (offsets : List Nat) (word : BitVec w) (r : Nat) :
    spread offsets (word.rotateRight r) = (spread offsets word).rotateRight r := by
  induction offsets with
  | nil => simp
  | cons offset offsets ih =>
      rw [spread_cons, ih, spread_cons, rotateRight_xor, rotateRight_rotateRight,
        rotateRight_rotateRight, Nat.add_comm]

theorem spread_comm (first second : List Nat) (word : BitVec w) :
    spread first (spread second word) = spread second (spread first word) := by
  induction second with
  | nil => simp
  | cons offset second ih =>
      rw [spread_cons, spread_xor, ih, spread_rotateRight, spread_cons]

/-- Words with a vanishing sum of rotations are closed under sums of rotations. -/
theorem spread_foldr_eq_zero {offsets : List Nat} {word : BitVec w}
    (vanishes : spread offsets word = 0#w) (sums : List (List Nat)) :
    spread offsets (sums.foldr spread word) = 0#w := by
  induction sums with
  | nil => exact vanishes
  | cons sum sums ih => rw [List.foldr_cons, spread_comm, ih, spread_zero]

/-! ## Repeated words -/

section Repeated

variable {α : Type*} [DecidableEq α]

/-- How many words follow each time a key comes up, if each key stands for some words. -/
def wordsAfter (count : α → Nat) (key : α) : List α → List Nat
  | [] => []
  | x :: xs =>
      if x = key then (xs.map count).sum :: wordsAfter count key xs else wordsAfter count key xs

/-- A difference in the words of one key is added up over all its places. -/
theorem absorbAll_flatMap {words changed : α → List (BitVec w)} {key : α} {difference : BitVec w}
    (others : ∀ x, x ≠ key → changed x = words x)
    (differs : DiffersBy difference (words key) (changed key)) :
    ∃ r, ∀ (keys : List α) (hash : BitVec w), absorbAll hash (keys.flatMap changed) =
      (spread (wordsAfter (fun x => (words x).length) key keys) difference).rotateRight r ^^^
        absorbAll hash (keys.flatMap words) := by
  obtain ⟨r, isHash⟩ := differs.hash
  refine ⟨r, ?_⟩
  intro keys
  induction keys with
  | nil => simp [wordsAfter]
  | cons x xs ih =>
      intro hash
      rw [List.flatMap_cons, List.flatMap_cons, absorbAll_append, absorbAll_append, ih]
      by_cases same : x = key
      · subst same
        have count : (xs.flatMap words).length = (xs.map fun x => (words x).length).sum := by
          rw [List.length_flatMap]
        rw [wordsAfter, if_pos rfl, isHash, absorbAll_xor, spread_cons, rotateRight_xor,
          rotateRight_rotateRight, rotateRight_rotateRight, count, Nat.add_comm r]
        ac_rfl
      · rw [wordsAfter, if_neg same, others x same]

end Repeated

/-! ## One byte of a word of eight bytes

A byte is read as a polynomial over the field of two elements, and rotating a word of
64 bits as the multiplication with a power of the variable modulo `x ^ 64 + 1`, which is
`(x + 1) ^ 64`. A byte is a power of `x + 1`, at most the seventh, times a unit.
-/

/-- The quotient of a byte by `x + 1`, as a power series. -/
def quotient (byte : BitVec 8) : BitVec 8 :=
  let byte := byte ^^^ (byte <<< 1)
  let byte := byte ^^^ (byte <<< 2)
  byte ^^^ (byte <<< 4)

/-- The exponent of `x + 1` in a byte, and what is left of the byte. -/
def factor : Nat → BitVec 8 → Nat × BitVec 8
  | 0, byte => (0, byte)
  | fuel + 1, byte =>
      -- the highest bit is the value of the byte at one
      if (quotient byte).getLsbD 7 then (0, byte)
      else
        let (exponent, rest) := factor fuel (quotient byte)
        (exponent + 1, rest)

/-- Multipliers that lead from a byte to the seventh power of `x + 1`. The unit is inverted
    by raising it to the power 63. -/
def multipliers (byte : BitVec 8) : List (List Nat) :=
  let (exponent, rest) := factor 8 byte
  List.replicate (7 - exponent) [0, 63] ++
    (List.range 6).map fun k =>
      ((List.range 8).filter rest.getLsbD).map fun i => (63 * i * 2 ^ k) % 64

theorem multipliers_byte : ∀ byte : BitVec 8, byte ≠ 0 →
    (multipliers byte).foldr spread (byte.setWidth 64) = 0xFF#64 := by decide +kernel

/-- If the sum of some rotations of any byte vanishes, so does the sum for the byte `0xFF`. -/
theorem spread_ff_eq_zero {offsets : List Nat} {byte : BitVec 8} (nonzero : byte ≠ 0)
    (vanishes : spread offsets (byte.setWidth 64) = 0#64) : spread offsets 0xFF#64 = 0#64 := by
  rw [← multipliers_byte byte nonzero]
  exact spread_foldr_eq_zero vanishes (multipliers byte)

end RotateXor
