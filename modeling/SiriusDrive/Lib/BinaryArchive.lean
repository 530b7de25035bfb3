import Mathlib.Tactic.NormNum
import SiriusDrive.Lib.FixedBytes

/-! # Binary archives

Values are saved one after the other, and loaded again in the same order. What an archive makes of
numbers and strings is left open. A value that is loaded takes something from the input.
-/

/-- What loads one value from the front of an input. -/
structure Loader (ι α : Type) where
  load : List ι → Option (α × List ι)
  shorter : ∀ {input value rest}, load input = some (value, rest) → rest.length < input.length

namespace Loader

variable {ι α β : Type} {save : α → List ι} {fits : α → Prop}

/-- A saved value is loaded again, whatever comes after it. -/
def Reads (loader : Loader ι α) (save : α → List ι) (fits : α → Prop) : Prop :=
  ∀ value rest, fits value → loader.load (save value ++ rest) = some (value, rest)

/-- Load a value, and go on with it and the rest of the input. -/
def run (loader : Loader ι α) (input : List ι) (next : α → List ι → Option β) : Option β :=
  (loader.load input).bind fun loaded => next loaded.1 loaded.2

theorem run_eq_some_iff {loader : Loader ι α} {input : List ι} {next : α → List ι → Option β}
    {result : β} :
    loader.run input next = some result ↔
      ∃ value rest, loader.load input = some (value, rest) ∧ next value rest = some result := by
  rw [run, Option.bind_eq_some_iff, Prod.exists]

theorem Reads.run {loader : Loader ι α} (reads : loader.Reads save fits) {value : α}
    (isFit : fits value) (rest : List ι) (next : α → List ι → Option β) :
    loader.run (save value ++ rest) next = next value rest := by
  rw [Loader.run, reads value rest isFit, Option.bind_some]

theorem run_congr {loader : Loader ι α} {input : List ι} {next other : α → List ι → Option β}
    (agree : ∀ value rest, rest.length < input.length → next value rest = other value rest) :
    loader.run input next = loader.run input other := by
  rw [run, run]
  cases loaded : loader.load input with
  | none => rfl
  | some pair => exact agree pair.1 pair.2 (loader.shorter loaded)

theorem Reads.length_pos {loader : Loader ι α} (reads : loader.Reads save fits) {value : α}
    (isFit : fits value) : 0 < (save value).length := by
  have shorter := loader.shorter (reads value [] isFit)
  rw [List.append_nil] at shorter
  exact shorter

end Loader

/-- What an archive writes for the values it knows. -/
structure OutputArchive (ι : Type) where
  uint32 : UInt32 → List ι
  int32 : Int32 → List ι
  uint64 : UInt64 → List ι
  int64 : Int64 → List ι
  bool : Bool → List ι
  string : String → List ι
  array : BitVec 256 → List ι

/-- How an archive reads the values it knows. -/
structure InputArchive (ι : Type) where
  uint32 : Loader ι UInt32
  int32 : Loader ι Int32
  uint64 : Loader ι UInt64
  int64 : Loader ι Int64
  bool : Loader ι Bool
  string : Loader ι String
  array : Loader ι (BitVec 256)

/-- The size of a string can be written. -/
def FitsString (str : String) : Prop := str.utf8ByteSize < 2 ^ 64

instance decidableFitsString (str : String) : Decidable (FitsString str) :=
  inferInstanceAs (Decidable (_ < _))

theorem utf8ByteSize_ofList_cons (char : Char) (chars : List Char) :
    (String.ofList (char :: chars)).utf8ByteSize =
      char.utf8Size + (String.ofList chars).utf8ByteSize := by
  have split : String.ofList (char :: chars) = String.singleton char ++ String.ofList chars := by
    rw [String.singleton_eq_ofList, ← String.ofList_append, List.singleton_append]
  rw [split, String.utf8ByteSize_append, String.utf8ByteSize_singleton]

theorem utf8ByteSize_le_of_sublist {part chars : List Char} (sub : part.Sublist chars) :
    (String.ofList part).utf8ByteSize ≤ (String.ofList chars).utf8ByteSize := by
  induction sub with
  | slnil => exact Nat.le_refl _
  | cons char _ ih =>
      rw [utf8ByteSize_ofList_cons]
      omega
  | cons_cons char _ ih =>
      rw [utf8ByteSize_ofList_cons, utf8ByteSize_ofList_cons]
      omega

theorem utf8ByteSize_le_mul_length (chars : List Char) :
    (String.ofList chars).utf8ByteSize ≤ 4 * chars.length := by
  induction chars with
  | nil => exact Nat.le_refl 0
  | cons char chars ih =>
      rw [utf8ByteSize_ofList_cons, List.length_cons]
      have small := char.utf8Size_le_four
      omega

theorem FitsString.of_sublist {part str : String} (fits : FitsString str)
    (sub : part.toList.Sublist str.toList) : FitsString part := by
  have le := utf8ByteSize_le_of_sublist sub
  rw [String.ofList_toList, String.ofList_toList] at le
  exact Nat.lt_of_le_of_lt le fits

/-- The values an archive writes are those another one reads. -/
structure InputArchive.Reads {ι : Type} (input : InputArchive ι) (output : OutputArchive ι) :
    Prop where
  uint32 : input.uint32.Reads output.uint32 fun _ => True
  int32 : input.int32.Reads output.int32 fun _ => True
  uint64 : input.uint64.Reads output.uint64 fun _ => True
  int64 : input.int64.Reads output.int64 fun _ => True
  bool : input.bool.Reads output.bool fun _ => True
  string : input.string.Reads output.string FitsString
  array : input.array.Reads output.array fun _ => True

/-- An archive that writes the order of its bytes first. -/
structure PortableArchive (ι : Type) where
  flag : List ι
  output : OutputArchive ι
  openInput : Loader ι (InputArchive ι)

/-- What is written is read again. -/
def PortableArchive.RoundTrips {ι : Type} (archive : PortableArchive ι) : Prop :=
  ∃ input : InputArchive ι, input.Reads archive.output ∧
    ∀ rest, archive.openInput.load (archive.flag ++ rest) = some (input, rest)

/-! ## Bytes, the least significant one first -/

namespace FixedBytes

variable {α : Type}

/-- A number of bytes from the front. -/
def takeBytes (width : Nat) (input : List UInt8) : Option (List UInt8 × List UInt8) :=
  if width ≤ input.length then some (input.take width, input.drop width) else none

theorem takeBytes_append {part : List UInt8} {width : Nat} (isWidth : part.length = width)
    (rest : List UInt8) : takeBytes width (part ++ rest) = some (part, rest) := by
  subst isWidth
  rw [takeBytes, if_pos, List.take_left, List.drop_left]
  rw [List.length_append]
  exact Nat.le_add_right _ _

theorem length_of_takeBytes {width : Nat} {input part rest : List UInt8}
    (taken : takeBytes width input = some (part, rest)) :
    rest.length + width = input.length := by
  rw [takeBytes] at taken
  split at taken
  · cases taken
    rw [List.length_drop]
    omega
  · cases taken

/-- A value that is made of a fixed number of bytes. -/
def fixedLoader (width : Nat) (ofBytes : List UInt8 → α) : Loader UInt8 α where
  load input := (takeBytes (width + 1) input).map fun taken => (ofBytes taken.1, taken.2)
  shorter := by
    intro input value rest loaded
    obtain ⟨⟨part, left⟩, taken, same⟩ := Option.map_eq_some_iff.mp loaded
    cases same
    have length := length_of_takeBytes taken
    change left.length < input.length
    omega

theorem fixedLoader_reads {width : Nat} {ofBytes : List UInt8 → α} {toBytes : α → List UInt8}
    (isWidth : ∀ value, (toBytes value).length = width + 1)
    (back : ∀ value, ofBytes (toBytes value) = value) :
    (fixedLoader width ofBytes).Reads toBytes fun _ => True := by
  intro value rest _
  rw [fixedLoader]
  simp only [takeBytes_append (isWidth value), Option.map_some, back]

theorem lt_pow_four {number : Nat} (small : number < 4294967296) : number < 256 ^ 4 := by
  have same : 256 ^ 4 = 4294967296 := by norm_num
  rw [same]
  exact small

theorem lt_pow_eight {number : Nat} (small : number < 18446744073709551616) :
    number < 256 ^ 8 := by
  have same : 256 ^ 8 = 18446744073709551616 := by norm_num
  rw [same]
  exact small

theorem uint32_lt (value : UInt32) : value.toNat < 256 ^ 4 := by
  have small := value.toNat_lt
  apply lt_pow_four
  omega

theorem uint64_lt (value : UInt64) : value.toNat < 256 ^ 8 := by
  have small := value.toNat_lt
  apply lt_pow_eight
  omega

/-- A string after its size. -/
def saveString (str : String) : List UInt8 :=
  encode 8 str.utf8ByteSize ++ str.toByteArray.data.toList

def loadString (input : List UInt8) : Option (String × List UInt8) :=
  (takeBytes 8 input).bind fun sized =>
    (takeBytes (decode sized.1) sized.2).bind fun taken =>
      (String.fromUTF8? ⟨taken.1.toArray⟩).map fun str => (str, taken.2)

theorem shorter_of_loadString {input rest : List UInt8} {value : String}
    (loaded : loadString input = some (value, rest)) : rest.length < input.length := by
  obtain ⟨sized, isSized, later⟩ := Option.bind_eq_some_iff.mp loaded
  obtain ⟨taken, isTaken, isString⟩ := Option.bind_eq_some_iff.mp later
  obtain ⟨str, _, same⟩ := Option.map_eq_some_iff.mp isString
  obtain ⟨_, isRest⟩ := Prod.mk.inj same
  have first := length_of_takeBytes isSized
  have second := length_of_takeBytes isTaken
  rw [← isRest]
  omega

def stringLoader : Loader UInt8 String where
  load := loadString
  shorter := shorter_of_loadString

theorem load_stringLoader : stringLoader.load = loadString := rfl

theorem fromUTF8?_toByteArray (str : String) : String.fromUTF8? str.toByteArray = some str := by
  simp only [String.fromUTF8?, str.isValidUTF8, dite_true]
  rfl

theorem loadString_saveString {str : String} (isFit : FitsString str) (rest : List UInt8) :
    loadString (saveString str ++ rest) = some (str, rest) := by
  have length : str.toByteArray.data.toList.length = str.utf8ByteSize := by simp
  have fits : str.utf8ByteSize < 256 ^ 8 := by
    rw [FitsString] at isFit
    apply lt_pow_eight
    omega
  have size : decode (encode 8 str.utf8ByteSize) = str.utf8ByteSize := decode_encode fits
  have isSize : (encode 8 str.utf8ByteSize).length = 8 := length_encode 8 _
  rw [loadString, saveString]
  generalize encode 8 str.utf8ByteSize = sized at size isSize ⊢
  rw [List.append_assoc, takeBytes_append isSize]
  simp only [Option.bind_some, size, takeBytes_append length, Array.toArray_toList]
  change (String.fromUTF8? str.toByteArray).map _ = _
  rw [fromUTF8?_toByteArray, Option.map_some]

theorem stringLoader_reads : stringLoader.Reads saveString FitsString := by
  rw [Loader.Reads]
  intro str rest
  rw [load_stringLoader]
  intro isFit
  exact loadString_saveString isFit rest

/-- Numbers and strings with the least significant byte first. -/
def littleEndianOutput : OutputArchive UInt8 where
  uint32 value := encode 4 value.toNat
  int32 value := encode 4 value.toUInt32.toNat
  uint64 value := encode 8 value.toNat
  int64 value := encode 8 value.toUInt64.toNat
  bool value := encode 1 value.toNat
  string := saveString
  array := arrayBytes 32

def littleEndianInput : InputArchive UInt8 where
  uint32 := fixedLoader 3 fun bytes => UInt32.ofNat (decode bytes)
  int32 := fixedLoader 3 fun bytes => (UInt32.ofNat (decode bytes)).toInt32
  uint64 := fixedLoader 7 fun bytes => UInt64.ofNat (decode bytes)
  int64 := fixedLoader 7 fun bytes => (UInt64.ofNat (decode bytes)).toInt64
  bool := fixedLoader 0 fun bytes => decode bytes ≠ 0
  string := stringLoader
  array := fixedLoader 31 (arrayOfBytes 32)

/-- An archive for machines with this order of bytes. -/
def littleEndianArchive : PortableArchive UInt8 where
  flag := [1]
  output := littleEndianOutput
  openInput := fixedLoader 0 fun _ => littleEndianInput

theorem uint32_reads : littleEndianInput.uint32.Reads littleEndianOutput.uint32 fun _ => True := by
  have back (value : UInt32) : UInt32.ofNat (decode (encode 4 value.toNat)) = value := by
    rw [decode_encode (uint32_lt value), UInt32.ofNat_toNat]
  exact @fixedLoader_reads _ 3 (fun bytes => UInt32.ofNat (decode bytes)) (fun value => encode 4 value.toNat)
    (fun value => length_encode 4 _) back

theorem int32_reads : littleEndianInput.int32.Reads littleEndianOutput.int32 fun _ => True := by
  have back (value : Int32) :
      (UInt32.ofNat (decode (encode 4 value.toUInt32.toNat))).toInt32 = value := by
    rw [decode_encode (uint32_lt _), UInt32.ofNat_toNat,
      Int32.toInt32_toUInt32]
  exact @fixedLoader_reads _ 3 (fun bytes => (UInt32.ofNat (decode bytes)).toInt32) (fun value => encode 4 value.toUInt32.toNat)
    (fun value => length_encode 4 _) back

theorem uint64_reads : littleEndianInput.uint64.Reads littleEndianOutput.uint64 fun _ => True := by
  have back (value : UInt64) : UInt64.ofNat (decode (encode 8 value.toNat)) = value := by
    rw [decode_encode (uint64_lt value), UInt64.ofNat_toNat]
  exact @fixedLoader_reads _ 7 (fun bytes => UInt64.ofNat (decode bytes)) (fun value => encode 8 value.toNat)
    (fun value => length_encode 8 _) back

theorem int64_reads : littleEndianInput.int64.Reads littleEndianOutput.int64 fun _ => True := by
  have back (value : Int64) :
      (UInt64.ofNat (decode (encode 8 value.toUInt64.toNat))).toInt64 = value := by
    rw [decode_encode (uint64_lt _), UInt64.ofNat_toNat,
      Int64.toInt64_toUInt64]
  exact @fixedLoader_reads _ 7 (fun bytes => (UInt64.ofNat (decode bytes)).toInt64) (fun value => encode 8 value.toUInt64.toNat)
    (fun value => length_encode 8 _) back

theorem bool_reads : littleEndianInput.bool.Reads littleEndianOutput.bool fun _ => True := by
  have back (value : Bool) : decide (decode (encode 1 value.toNat) ≠ 0) = value := by
    cases value <;> decide
  exact @fixedLoader_reads _ 0 (fun bytes => decide (decode bytes ≠ 0)) (fun value => encode 1 value.toNat)
    (fun value => length_encode 1 _) back

theorem array_reads : littleEndianInput.array.Reads littleEndianOutput.array fun _ => True := by
  have length (value : BitVec 256) : (arrayBytes 32 value).length = 31 + 1 :=
    @length_arrayBytes 32 value
  exact fixedLoader_reads length fun value => @arrayOfBytes_arrayBytes 32 value

theorem littleEndianInput_reads : littleEndianInput.Reads littleEndianOutput where
  uint32 := uint32_reads
  int32 := int32_reads
  uint64 := uint64_reads
  int64 := int64_reads
  bool := bool_reads
  string := stringLoader_reads
  array := array_reads

theorem littleEndianArchive_roundTrips : littleEndianArchive.RoundTrips := by
  refine ⟨littleEndianInput, littleEndianInput_reads, ?_⟩
  intro rest
  rfl

end FixedBytes
