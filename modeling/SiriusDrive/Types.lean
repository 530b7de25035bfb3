import Mathlib.Algebra.Group.Nat.Defs
import Std.Data.TreeMap.Lemmas
import SiriusDrive.Lib.OneShotTimer

/-! # Keys, sizes and hash strings

`Key`, `Hash256` and `InfoHash` are 32-byte arrays. They are read as one
big-endian number, so the order of the numbers is the lexicographic order
`std::map` and `std::set` use for the arrays. Sizes are `uint64_t`: natural
numbers, with `u64` at every operation of the source that may wrap.
-/

namespace SiriusDrive

abbrev Hash256 := BitVec 256
abbrev Key := Hash256
abbrev InfoHash := Hash256
abbrev ReplicatorKey := Key
abbrev ClientKey := Key
abbrev ChannelId := Key

/-- What a `uint64_t` keeps of a number. -/
def u64 (n : Nat) : Nat := n % 2 ^ 64

/-- Subtraction of two `uint64_t` values. -/
def u64Sub (a b : Nat) : Nat := u64 (a + 2 ^ 64 - b)

theorem u64_of_lt {n : Nat} (small : n < 2 ^ 64) : u64 n = n := Nat.mod_eq_of_lt small

theorem u64_lt (n : Nat) : u64 n < 2 ^ 64 := Nat.mod_lt _ (by decide)

theorem u64Sub_of_le {a b : Nat} (le : b ≤ a) (small : a < 2 ^ 64) : u64Sub a b = a - b := by
  have split : a + 2 ^ 64 - b = (a - b) + 2 ^ 64 := by omega
  rw [u64Sub, split, u64, Nat.add_mod_right, Nat.mod_eq_of_lt (by omega)]

/-- `Timer`. -/
abbrev Timer := OneShotTimer

/-- `charToInt`: the value of a hexadecimal digit of either case. The source
    throws `std::invalid_argument` on any other character. -/
def charToInt (input : Char) : Except String Nat :=
  if '0' ≤ input ∧ input ≤ '9' then .ok (input.toNat - '0'.toNat)
  else if 'A' ≤ input ∧ input ≤ 'F' then .ok (input.toNat - 'A'.toNat + 10)
  else if 'a' ≤ input ∧ input ≤ 'f' then .ok (input.toNat - 'a'.toNat + 10)
  else .error "Invalid input string"

/-- The number read from hexadecimal digits, the most significant one first. -/
def hexDigits (acc : Nat) : List Char → Except String Nat
  | [] => .ok acc
  | c :: cs => do
      let digit ← charToInt c
      hexDigits (16 * acc + digit) cs

/-- The last hexadecimal digits of a number, the most significant one first. -/
def hexChars (value : Nat) : Nat → List Char
  | 0 => []
  | n + 1 => Nat.digitChar (value / 16 ^ n % 16) :: hexChars value n

/-- `hashToFileName` and `toString`, which agree: the digits in lower case. -/
def hashToFileName (key : InfoHash) : String := String.ofList (hexChars key.toNat 64)

/-- `stringToByteArray`: 32 bytes from 64 hexadecimal digits. -/
def stringToByteArray (str : String) : Except String Hash256 :=
  if str.toList.length ≠ 64 then .error "Invalid input string"
  else (hexDigits 0 str.toList).map (BitVec.ofNat 256)

theorem length_hexChars (value n : Nat) : (hexChars value n).length = n := by
  induction n with
  | zero => rfl
  | succ n ih => rw [hexChars, List.length_cons, ih]

theorem charToInt_digitChar {digit : Nat} (small : digit < 16) :
    charToInt (Nat.digitChar digit) = .ok digit := by
  have all : ∀ digit < 16, (charToInt (Nat.digitChar digit)).toOption = some digit := by decide
  have isDigit := all digit small
  cases read : charToInt (Nat.digitChar digit) with
  | ok other =>
      rw [read] at isDigit
      exact congrArg Except.ok (Option.some.inj isDigit)
  | error text =>
      rw [read] at isDigit
      cases isDigit

theorem hexDigits_hexChars (acc value n : Nat) :
    hexDigits acc (hexChars value n) = .ok (acc * 16 ^ n + value % 16 ^ n) := by
  induction n generalizing acc with
  | zero => simp [hexChars, hexDigits, Nat.mod_one]
  | succ n ih =>
      rw [hexChars, hexDigits, charToInt_digitChar (Nat.mod_lt _ (by decide))]
      change hexDigits (16 * acc + value / 16 ^ n % 16) (hexChars value n) = _
      rw [ih, Nat.mod_pow_succ, Nat.pow_succ, Nat.add_mul, Nat.mul_comm 16 acc, Nat.mul_assoc,
        Nat.mul_comm 16, Nat.mul_comm (16 ^ n) (value / 16 ^ n % 16)]
      congr 1
      omega

theorem stringToByteArray_hashToFileName (hash : Hash256) :
    stringToByteArray (hashToFileName hash) = .ok hash := by
  rw [stringToByteArray, hashToFileName, String.toList_ofList, length_hexChars, if_neg (by simp),
    hexDigits_hexChars, Except.map]
  congr 1
  apply BitVec.eq_of_toNat_eq
  rw [BitVec.toNat_ofNat, Nat.zero_mul, Nat.zero_add]
  have small : hash.toNat < 2 ^ 256 := hash.isLt
  omega

theorem hashToFileName_injective {hash other : Hash256}
    (same : hashToFileName hash = hashToFileName other) : hash = other := by
  have read := stringToByteArray_hashToFileName hash
  rw [same, stringToByteArray_hashToFileName] at read
  exact (Except.ok.inj read).symm

end SiriusDrive
