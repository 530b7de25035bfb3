import SiriusDrive.Lib.RotateXor
import SiriusDrive.VerificationDriveTask

/-! # What verification codes say about the files

A code is a rotate-xor hash of all the words of all the files, in the order of the
tree. So the codes of two replicators differ in the rotated difference of their
initial hashes, and a changed byte is seen unless its rotations for the places
where its file is referenced cancel each other.
-/

namespace SiriusDrive

open RotateXor

/-! ## The words that are hashed -/

theorem mixHash_eq (hash value : BitVec 64) : mixHash hash value = absorb hash value := rfl

def bufferWords : List UInt8 → List (BitVec 64)
  | b₀ :: b₁ :: b₂ :: b₃ :: b₄ :: b₅ :: b₆ :: b₇ :: rest =>
      littleEndian [b₀, b₁, b₂, b₃, b₄, b₅, b₆, b₇] :: bufferWords rest
  | tail => [tailValue tail]

theorem calcHash64_eq (hash : BitVec 64) (bytes : List UInt8) :
    calcHash64 hash bytes = absorbAll hash (bufferWords bytes) := by
  fun_induction bufferWords bytes generalizing hash with
  | case1 b₀ b₁ b₂ b₃ b₄ b₅ b₆ b₇ rest ih => rw [calcHash64, ih, absorbAll_cons, mixHash_eq]
  | case2 tail short =>
      rw [calcHash64, mixHash_eq, absorbAll_cons, absorbAll_nil]
      exact short

def fileWords (bytes : List UInt8) : List (BitVec 64) := (readBuffers bytes).flatMap bufferWords

theorem hashFile_eq (hash : BitVec 64) (bytes : List UInt8) :
    hashFile hash bytes = absorbAll hash (fileWords bytes) := by
  rw [hashFile, fileWords]
  induction readBuffers bytes generalizing hash with
  | nil => rfl
  | cons buffer buffers ih =>
      rw [List.foldl_cons, ih, List.flatMap_cons, absorbAll_append, calcHash64_eq]

mutual

/-- The content of the files that are read, in the order of the tree. -/
def Folder.filesRead (driveFolder : DriveFolder) : Folder → List (List UInt8)
  | .mk _ childs => childs.filesRead driveFolder

def Childs.filesRead (driveFolder : DriveFolder) : Childs → List (List UInt8)
  | .nil => []
  | .cons _ (.folder folder) rest => folder.filesRead driveFolder ++ rest.filesRead driveFolder
  | .cons _ (.file file) rest =>
      match driveFolder file.hash with
      | none => []
      | some bytes => bytes :: rest.filesRead driveFolder

end

def Folder.words (fsTree : FsTree) (driveFolder : DriveFolder) : List (BitVec 64) :=
  (fsTree.filesRead driveFolder).flatMap fileWords

mutual

theorem Folder.calculateVerifyCodes_eq (driveFolder : DriveFolder) (folder : Folder)
    (codes : List (BitVec 64)) :
    folder.calculateVerifyCodes driveFolder codes =
      codes.map fun hash => absorbAll hash ((folder.filesRead driveFolder).flatMap fileWords) := by
  cases folder with
  | mk name childs =>
      rw [Folder.calculateVerifyCodes, Folder.filesRead]
      exact Childs.calculateVerifyCodes_eq driveFolder childs codes

theorem Childs.calculateVerifyCodes_eq (driveFolder : DriveFolder) (childs : Childs)
    (codes : List (BitVec 64)) :
    childs.calculateVerifyCodes driveFolder codes =
      codes.map fun hash => absorbAll hash ((childs.filesRead driveFolder).flatMap fileWords) := by
  cases childs with
  | nil => simp [Childs.calculateVerifyCodes, Childs.filesRead]
  | cons key child rest =>
      cases child with
      | folder folder =>
          rw [Childs.calculateVerifyCodes, Childs.filesRead,
            Folder.calculateVerifyCodes_eq driveFolder folder,
            Childs.calculateVerifyCodes_eq driveFolder rest, List.map_map]
          simp only [Function.comp_def, List.flatMap_append, absorbAll_append]
      | file file =>
          rw [Childs.calculateVerifyCodes, Childs.filesRead]
          cases driveFolder file.hash with
          | none => simp
          | some bytes =>
              simp only [Childs.calculateVerifyCodes_eq driveFolder rest, List.map_map,
                Function.comp_def, List.flatMap_cons, absorbAll_append, hashFile_eq]

end

theorem verify_eq (request : VerificationRequest) (fsTree : FsTree) (driveFolder : DriveFolder) :
    verify request fsTree driveFolder = request.replicators.map fun key =>
      absorbAll (initHash request.tx key) (fsTree.words driveFolder) := by
  rw [verify, Folder.calculateVerifyCodes_eq, List.map_map]
  rfl

theorem code_eq (request : VerificationRequest) (fsTree : FsTree) (driveFolder : DriveFolder)
    (i : Fin request.replicators.length) :
    (verify request fsTree driveFolder)[i.val]? =
      some (absorbAll (initHash request.tx request.replicators[i]) (fsTree.words driveFolder)) := by
  rw [verify_eq, List.getElem?_map, List.getElem?_eq_getElem i.isLt, Option.map_some]
  rfl

/-! ## How many words a file has -/

theorem length_bufferWords (bytes : List UInt8) :
    (bufferWords bytes).length = bytes.length / 8 + 1 := by
  fun_induction bufferWords bytes with
  | case1 b₀ b₁ b₂ b₃ b₄ b₅ b₆ b₇ rest ih =>
      simp only [List.length_cons, ih]
      omega
  | case2 tail short =>
      have small : tail.length < 8 := by
        by_contra long
        match tail, long with
        | b₀ :: b₁ :: b₂ :: b₃ :: b₄ :: b₅ :: b₆ :: b₇ :: rest, _ =>
            exact short b₀ b₁ b₂ b₃ b₄ b₅ b₆ b₇ rest rfl
        | [], long | [_], long | [_, _], long | [_, _, _], long | [_, _, _, _], long
        | [_, _, _, _, _], long | [_, _, _, _, _, _], long | [_, _, _, _, _, _, _], long =>
            simp at long
      rw [List.length_singleton, Nat.div_eq_of_lt small]

/-- The number of words of a file: 513 of each full buffer. -/
def wordCount (size : Nat) : Nat :=
  size / 4096 * 513 + if size % 4096 = 0 then 0 else size % 4096 / 8 + 1

theorem wordCount_of_buffer {size : Nat} (nonempty : size ≠ 0) :
    wordCount size = min 4096 size / 8 + 1 + wordCount (size - 4096) := by
  by_cases large : 4096 ≤ size
  · have quotient : size / 4096 = (size - 4096) / 4096 + 1 := by omega
    have rest : size % 4096 = (size - 4096) % 4096 := by omega
    rw [wordCount, wordCount, ← rest, quotient, Nat.min_eq_left large]
    omega
  · have small : size < 4096 := by omega
    rw [wordCount, wordCount, Nat.mod_eq_of_lt small, if_neg nonempty, Nat.min_eq_right (by omega),
      Nat.sub_eq_zero_of_le (by omega), Nat.div_eq_of_lt small]
    simp

theorem length_fileWords (bytes : List UInt8) : (fileWords bytes).length = wordCount bytes.length := by
  rw [fileWords]
  fun_induction readBuffers bytes with
  | case1 bytes empty =>
      have isNil : bytes = [] := List.isEmpty_iff.mp empty
      subst isNil
      rfl
  | case2 bytes nonempty ih =>
      have some : bytes.length ≠ 0 := by
        intro zero
        exact nonempty (List.isEmpty_iff.mpr (List.length_eq_zero_iff.mp zero))
      rw [List.flatMap_cons, List.length_append, ih, length_bufferWords, List.length_take,
        List.length_drop, wordCount_of_buffer some]

/-! ## The code of another replicator -/

def Folder.fileSizes (fsTree : FsTree) (driveFolder : DriveFolder) : List Nat :=
  (fsTree.filesRead driveFolder).map List.length

theorem Folder.length_words (fsTree : FsTree) (driveFolder : DriveFolder) :
    (fsTree.words driveFolder).length = ((fsTree.fileSizes driveFolder).map wordCount).sum := by
  simp only [Folder.words, Folder.fileSizes, List.length_flatMap, List.map_map, Function.comp_def,
    length_fileWords]

/-- The code of a replicator from the code of another one: the difference of their initial
    hashes, rotated once for every word of the files. -/
def codeOfOther (tx : Hash256) (known other : ReplicatorKey) (fileSizes : List Nat)
    (code : BitVec 64) : BitVec 64 :=
  (initHash tx other ^^^ initHash tx known).rotateRight (fileSizes.map wordCount).sum ^^^ code

theorem absorbAll_other (tx : Hash256) (known other : ReplicatorKey) (fsTree : FsTree)
    (driveFolder : DriveFolder) :
    absorbAll (initHash tx other) (fsTree.words driveFolder) =
      codeOfOther tx known other (fsTree.fileSizes driveFolder)
        (absorbAll (initHash tx known) (fsTree.words driveFolder)) := by
  have split : initHash tx other =
      (initHash tx other ^^^ initHash tx known) ^^^ initHash tx known := by
    rw [BitVec.xor_assoc, BitVec.xor_self, BitVec.xor_zero]
  rw [codeOfOther, ← Folder.length_words, ← absorbAll_xor, ← split]

/-- Whatever the files are, the code of any replicator follows from the code of any other one. -/
theorem code_of_other (request : VerificationRequest) (fsTree : FsTree) (driveFolder : DriveFolder)
    (i j : Fin request.replicators.length) :
    (verify request fsTree driveFolder)[j.val]? =
      ((verify request fsTree driveFolder)[i.val]?).map
        (codeOfOther request.tx request.replicators[i] request.replicators[j]
          (fsTree.fileSizes driveFolder)) := by
  rw [code_eq, code_eq, Option.map_some]
  exact congrArg some (absorbAll_other request.tx _ _ fsTree driveFolder)

/-- There is a function that computes the codes of others without the data. -/
theorem codes_need_no_data :
    ∃ compute : Hash256 → ReplicatorKey → ReplicatorKey → List Nat → BitVec 64 → BitVec 64,
      ∀ (request : VerificationRequest) (fsTree : FsTree) (driveFolder : DriveFolder)
        (i j : Fin request.replicators.length), i ≠ j →
        (verify request fsTree driveFolder)[j.val]? =
          ((verify request fsTree driveFolder)[i.val]?).map
            (compute request.tx request.replicators[i] request.replicators[j]
              (fsTree.fileSizes driveFolder)) := by
  refine ⟨codeOfOther, ?_⟩
  intro request fsTree driveFolder i j _
  rw [code_eq, code_eq, Option.map_some]
  exact congrArg some (absorbAll_other request.tx _ _ fsTree driveFolder)

end SiriusDrive
