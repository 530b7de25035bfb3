import SiriusDrive.Kademlia
import SiriusDrive.Lib.BitPrefix

/-! # The length of an equal prefix

`equalPrefixLength` looks at the low byte of each of the four words and returns its
starting index when one of them differs.
-/

namespace SiriusDrive.Kademlia

open BitPrefix

variable {a b c : PeerKey}

/-- The keys agree in the first bytes of all four words. -/
def SameFirstBytes (a b : PeerKey) : Prop :=
  ∀ i < 4, ∀ j < 8, a.getMsbD (64 * i + j) = b.getMsbD (64 * i + j)

instance (a b : PeerKey) : Decidable (SameFirstBytes a b) :=
  inferInstanceAs (Decidable (∀ i < 4, ∀ j < 8, _))

theorem hasLowBit_eq_false_iff {count xorValue : Nat} :
    hasLowBit count xorValue = false ↔ ∀ j < count, xorValue.testBit j = false := by
  induction count generalizing xorValue with
  | zero => simp [hasLowBit]
  | succ count ih =>
      rw [hasLowBit, Bool.or_eq_false_iff, ih]
      constructor
      · rintro ⟨first, rest⟩ j before
        cases j with
        | zero =>
            rw [Nat.testBit_zero, decide_eq_false_iff_not]
            simpa [Nat.and_one_is_mod] using first
        | succ j =>
            have isZero := rest j (by omega)
            rwa [Nat.testBit_shiftRight, Nat.add_comm] at isZero
      · intro all
        constructor
        · have first := all 0 (by omega)
          rw [Nat.testBit_zero, decide_eq_false_iff_not] at first
          simpa [Nat.and_one_is_mod] using first
        · intro j before
          rw [Nat.testBit_shiftRight, Nat.add_comm]
          exact all (j + 1) (by omega)

theorem testBit_word (key : PeerKey) {i j : Nat} (isWord : i < 4) (low : j < 8) :
    (FixedBytes.decode (FixedBytes.field (FixedBytes.arrayBytes 32 key) (8 * i) 8)).testBit j =
      key.getMsbD (64 * i + (7 - j)) := by
  refine (@FixedBytes.testBit_decode_field 32 (8 * i) 8 j key (by omega) (by omega) low).trans ?_
  rw [← Nat.mul_assoc]

theorem hasLowBit_words_iff {i : Nat} (isWord : i < 4) :
    hasLowBit 8
        (FixedBytes.decode (FixedBytes.field (FixedBytes.arrayBytes 32 a) (8 * i) 8) ^^^
          FixedBytes.decode (FixedBytes.field (FixedBytes.arrayBytes 32 b) (8 * i) 8)) = false ↔
      ∀ j < 8, a.getMsbD (64 * i + j) = b.getMsbD (64 * i + j) := by
  rw [hasLowBit_eq_false_iff]
  constructor
  · intro same j low
    have agrees := same (7 - j) (by omega)
    rw [Nat.testBit_xor, testBit_word a isWord (by omega), testBit_word b isWord (by omega),
      show 7 - (7 - j) = j by omega] at agrees
    simpa using agrees
  · intro same j low
    rw [Nat.testBit_xor, testBit_word a isWord low, testBit_word b isWord low,
      same (7 - j) (by omega), Bool.xor_self]

theorem prefixLoop_zero (pairs : List (Nat × Nat)) :
    prefixLoop 0 pairs =
      if ∀ pair ∈ pairs, hasLowBit 8 (pair.1 ^^^ pair.2) = false then BUCKET_NUMBER - 1 else 0 := by
  induction pairs with
  | nil => rfl
  | cons pair rest ih =>
      rw [prefixLoop]
      by_cases differs : hasLowBit 8 (pair.1 ^^^ pair.2) = true
      · rw [if_pos differs, if_neg]
        intro same
        rw [same pair List.mem_cons_self] at differs
        exact Bool.false_ne_true differs
      · rw [if_neg differs, ih]
        have isFalse := Bool.eq_false_iff.mpr differs
        simp only [List.forall_mem_cons, isFalse, true_and]

/-- The function tells apart whether the first bytes of the words are the same. -/
theorem equalPrefixLength_eq (a b : PeerKey) :
    equalPrefixLength a b = if SameFirstBytes a b then BUCKET_NUMBER - 1 else 0 := by
  rw [equalPrefixLength, prefixLoop_zero]
  have isZip : (words a).zip (words b) = (List.range 4).map fun i =>
      (FixedBytes.decode (FixedBytes.field (FixedBytes.arrayBytes 32 a) (8 * i) 8),
        FixedBytes.decode (FixedBytes.field (FixedBytes.arrayBytes 32 b) (8 * i) 8)) := by
    rw [words, words, List.zip_map']
  rw [isZip]
  congr 1
  simp only [List.forall_mem_map, List.mem_range, eq_iff_iff, SameFirstBytes]
  exact forall₂_congr fun i isWord => hasLowBit_words_iff isWord

theorem not_sameFirstBytes_of_commonPrefix_eq_zero (isZero : commonPrefix a b = 0) :
    ¬ SameFirstBytes a b := by
  intro same
  have differs := getMsbD_ne_commonPrefix (a := a) (b := b) (by omega)
  rw [isZero] at differs
  exact differs (same 0 (by omega) 0 (by omega))

/-- Keys that differ in their last bit only have the same first bytes. -/
theorem sameFirstBytes_of_commonPrefix_eq (isLast : commonPrefix a b = BUCKET_NUMBER - 1) :
    SameFirstBytes a b := by
  intro i isWord j low
  refine getMsbD_eq_of_lt ?_
  rw [isLast, BUCKET_NUMBER]
  omega

/-- The function gives the length of the common prefix of keys that differ in their first bit or in
    their last bit only. A longer prefix leads into a higher bucket only between keys with another
    first byte of a word and keys without one. -/
theorem equalPrefixLength_eq_commonPrefix_iff (a b c : PeerKey) :
    (equalPrefixLength a b = commonPrefix a b ↔
        commonPrefix a b = 0 ∨ commonPrefix a b = BUCKET_NUMBER - 1) ∧
      equalPrefixLength a b ≤ BUCKET_NUMBER - 1 ∧
        ((commonPrefix a b < commonPrefix a c → equalPrefixLength a b < equalPrefixLength a c) ↔
          (commonPrefix a b < commonPrefix a c → ¬ SameFirstBytes a b ∧ SameFirstBytes a c)) := by
  have positive : 0 < BUCKET_NUMBER - 1 := by decide
  refine ⟨⟨?_, ?_⟩, Nat.le_sub_one_of_lt (equalPrefixLength_lt a b), ?_⟩
  · intro isPrefix
    rw [← isPrefix, equalPrefixLength_eq]
    split
    · exact .inr rfl
    · exact .inl rfl
  · rintro (isZero | isLast)
    · rw [equalPrefixLength_eq, if_neg (not_sameFirstBytes_of_commonPrefix_eq_zero isZero), isZero]
    · rw [equalPrefixLength_eq, if_pos (sameFirstBytes_of_commonPrefix_eq isLast), isLast]
  · refine forall_congr' fun _ => ?_
    rw [equalPrefixLength_eq, equalPrefixLength_eq]
    by_cases first : SameFirstBytes a b <;> by_cases second : SameFirstBytes a c <;>
      simp [first, second, positive]

/-- Keys that differ in their second bit, and a longer prefix that leads into a lower bucket. -/
theorem second_bit_is_not_counted :
    equalPrefixLength 0 (1 <<< 254) ≠ commonPrefix 0 (1 <<< 254 : PeerKey) ∧
      commonPrefix 0 (1 <<< 247 : PeerKey) < commonPrefix 0 (1 <<< 191 : PeerKey) ∧
        equalPrefixLength 0 (1 <<< 191) < equalPrefixLength 0 (1 <<< 247) := by
  decide +kernel

end SiriusDrive.Kademlia
