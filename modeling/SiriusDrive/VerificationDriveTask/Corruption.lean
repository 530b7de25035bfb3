import Mathlib.Data.List.Basic
import SiriusDrive.VerificationDriveTask.Codes

/-! # A changed byte of a file

A byte lies in one word of one buffer of its file. If it is changed, each reference
of the file adds a rotation of the difference to every code.
-/

namespace SiriusDrive

open RotateXor

/-- The difference of two bytes, as a word. -/
def byteDifference (old new : UInt8) : BitVec 64 := (new.toBitVec ^^^ old.toBitVec).setWidth 64

/-! ## One word -/

theorem or_byte (word : BitVec 64) (byte : UInt8) :
    (word <<< 8) ||| byte.toBitVec.setWidth 64 = (word <<< 8) ^^^ byte.toBitVec.setWidth 64 := by
  apply BitVec.eq_of_getLsbD_eq
  intro i lt
  simp only [BitVec.getLsbD_or, BitVec.getLsbD_xor, BitVec.getLsbD_shiftLeft, BitVec.getLsbD_setWidth]
  by_cases low : i < 8
  · simp [low]
  · have none : byte.toBitVec.getLsbD i = false := BitVec.getLsbD_of_ge _ _ (by omega)
    simp [none]

theorem littleEndian_change (pre post : List UInt8) (old new : UInt8) :
    littleEndian (pre ++ new :: post) =
      (byteDifference old new <<< (8 * pre.length)) ^^^ littleEndian (pre ++ old :: post) := by
  induction pre with
  | nil =>
      have split : new.toBitVec = (new.toBitVec ^^^ old.toBitVec) ^^^ old.toBitVec := by
        rw [BitVec.xor_assoc, BitVec.xor_self, BitVec.xor_zero]
      simp only [List.nil_append, littleEndian, or_byte, List.length_nil, Nat.mul_zero,
        BitVec.shiftLeft_zero, byteDifference]
      conv => lhs; rw [split]
      rw [BitVec.setWidth_xor]
      ac_rfl
  | cons byte pre ih =>
      simp only [List.cons_append, littleEndian, or_byte]
      rw [ih, BitVec.shiftLeft_xor_distrib, ← BitVec.shiftLeft_add, List.length_cons, Nat.mul_add,
        Nat.mul_one, BitVec.xor_assoc]

theorem tailValue_eq (bytes : List UInt8) : tailValue bytes = littleEndian bytes.reverse := by
  have fold : ∀ bytes : List UInt8, littleEndian bytes =
      bytes.foldr (fun byte (value : BitVec 64) => (value <<< 8) ||| byte.toBitVec.setWidth 64)
        (0 : BitVec 64) := by
    intro bytes
    induction bytes with
    | nil => rfl
    | cons byte bytes ih => rw [littleEndian, ih, List.foldr_cons]
  rw [fold, List.foldr_reverse, tailValue]

theorem tailValue_change (pre post : List UInt8) (old new : UInt8) :
    tailValue (pre ++ new :: post) =
      (byteDifference old new <<< (8 * post.length)) ^^^ tailValue (pre ++ old :: post) := by
  simp only [tailValue_eq, List.reverse_append, List.reverse_cons, List.append_assoc,
    List.singleton_append]
  rw [littleEndian_change post.reverse pre.reverse old new, List.length_reverse]

theorem shift_byte : ∀ (byte : BitVec 8) (i : Fin 8),
    byte.setWidth 64 <<< (8 * i.val) = (byte.setWidth 64).rotateRight (64 - 8 * i.val) := by
  decide +kernel

theorem differsBy_word {old new : UInt8} {word : BitVec 64} {i : Nat} (small : i < 8) :
    DiffersBy (byteDifference old new) [word]
      [(byteDifference old new <<< (8 * i)) ^^^ word] := by
  rw [byteDifference, shift_byte _ ⟨i, small⟩]
  exact DiffersBy.of_word _ word _

/-! ## One buffer -/

theorem bufferWords_append {word : List UInt8} (full : word.length = 8) (rest : List UInt8) :
    bufferWords (word ++ rest) = littleEndian word :: bufferWords rest := by
  match word, full with
  | [_, _, _, _, _, _, _, _], _ => rfl

theorem bufferWords_short {bytes : List UInt8} (short : bytes.length < 8) :
    bufferWords bytes = [tailValue bytes] := by
  fun_cases bufferWords bytes with
  | case1 b₀ b₁ b₂ b₃ b₄ b₅ b₆ b₇ rest =>
      simp only [List.length_cons] at short
      omega
  | case2 tail => rfl

theorem bufferWords_change (pre post : List UInt8) (old new : UInt8) :
    DiffersBy (byteDifference old new) (bufferWords (pre ++ old :: post))
      (bufferWords (pre ++ new :: post)) := by
  by_cases later : 8 ≤ pre.length
  · -- the byte is in a later word
    have full : (pre.take 8).length = 8 := by rw [List.length_take]; omega
    have rest : (pre.drop 8).length < pre.length := by rw [List.length_drop]; omega
    have split : ∀ byte : UInt8, pre ++ byte :: post =
        pre.take 8 ++ (pre.drop 8 ++ byte :: post) := by
      intro byte
      rw [← List.append_assoc, List.take_append_drop]
    rw [split, split, bufferWords_append full, bufferWords_append full]
    exact (bufferWords_change (pre.drop 8) post old new).append_left [littleEndian (pre.take 8)]
  · by_cases whole : 8 ≤ pre.length + 1 + post.length
    · -- the byte is in the first word
      have split : ∀ byte : UInt8, pre ++ byte :: post =
          (pre ++ byte :: post.take (7 - pre.length)) ++ post.drop (7 - pre.length) := by
        intro byte
        rw [List.append_assoc, List.cons_append, List.take_append_drop]
      have full : ∀ byte : UInt8, (pre ++ byte :: post.take (7 - pre.length)).length = 8 := by
        intro byte
        rw [List.length_append, List.length_cons, List.length_take]
        omega
      rw [split old, split new, bufferWords_append (full old), bufferWords_append (full new),
        littleEndian_change pre _ old new]
      exact (differsBy_word (by omega)).append_right _
    · -- the byte is in the tail
      have short : ∀ byte : UInt8, (pre ++ byte :: post).length < 8 := by
        intro byte
        rw [List.length_append, List.length_cons]
        omega
      rw [bufferWords_short (short old), bufferWords_short (short new),
        tailValue_change pre post old new]
      exact differsBy_word (by omega)
termination_by pre.length

/-! ## One file -/

theorem readBuffers_append {buffer : List UInt8} (full : buffer.length = 4096)
    (rest : List UInt8) : readBuffers (buffer ++ rest) = buffer :: readBuffers rest := by
  have nonempty : ¬ (buffer ++ rest).isEmpty = true := by
    intro empty
    have zero := congrArg List.length (List.isEmpty_iff.mp empty)
    rw [List.length_append, full, List.length_nil] at zero
    omega
  rw [readBuffers, if_neg nonempty, List.take_append_of_le_length (by omega),
    List.drop_append_of_le_length (by omega), List.take_of_length_le (by omega),
    List.drop_of_length_le (by omega), List.nil_append]

theorem readBuffers_first {pre : List UInt8} (first : pre.length < 4096) (byte : UInt8)
    (post : List UInt8) : readBuffers (pre ++ byte :: post) =
      (pre ++ byte :: post.take (4095 - pre.length)) ::
        readBuffers (post.drop (4095 - pre.length)) := by
  have nonempty : ¬ (pre ++ byte :: post).isEmpty = true := by
    cases pre <;> simp
  have one : 4096 - pre.length = (4095 - pre.length) + 1 := by omega
  rw [readBuffers, if_neg nonempty, List.take_append, List.drop_append,
    List.take_of_length_le (by omega), List.drop_of_length_le (by omega), one, List.take_succ_cons,
    List.drop_succ_cons, List.nil_append]

theorem fileWords_change (pre post : List UInt8) (old new : UInt8) :
    DiffersBy (byteDifference old new) (fileWords (pre ++ old :: post))
      (fileWords (pre ++ new :: post)) := by
  by_cases later : 4096 ≤ pre.length
  · have full : (pre.take 4096).length = 4096 := by rw [List.length_take]; omega
    have rest : (pre.drop 4096).length < pre.length := by rw [List.length_drop]; omega
    have split : ∀ byte : UInt8, fileWords (pre ++ byte :: post) =
        bufferWords (pre.take 4096) ++ fileWords (pre.drop 4096 ++ byte :: post) := by
      intro byte
      have parts : pre ++ byte :: post = pre.take 4096 ++ (pre.drop 4096 ++ byte :: post) := by
        rw [← List.append_assoc, List.take_append_drop]
      rw [parts, fileWords, readBuffers_append full, List.flatMap_cons, fileWords]
    rw [split, split]
    exact (fileWords_change (pre.drop 4096) post old new).append_left _
  · have first : pre.length < 4096 := by omega
    rw [fileWords, fileWords, readBuffers_first first, readBuffers_first first,
      List.flatMap_cons, List.flatMap_cons]
    exact (bufferWords_change pre _ old new).append_right _
termination_by pre.length
decreasing_by exact rest

/-! ## All files -/

def DriveFolder.changeByte (driveFolder : DriveFolder) (hash : InfoHash) (position : Nat)
    (byte : UInt8) : DriveFolder := fun other =>
  if other = hash then (driveFolder other).map (·.set position byte) else driveFolder other

def DriveFolder.wordsOf (driveFolder : DriveFolder) (hash : InfoHash) : List (BitVec 64) :=
  fileWords ((driveFolder hash).getD [])

/-- For each reference of a file, how many words are hashed after it. -/
def Folder.wordsAfter (fsTree : FsTree) (driveFolder : DriveFolder) (hash : InfoHash) : List Nat :=
  RotateXor.wordsAfter (fun other => wordCount ((driveFolder other).getD []).length) hash
    fsTree.fileHashes

def Folder.IsStored (fsTree : FsTree) (driveFolder : DriveFolder) : Prop :=
  ∀ hash ∈ fsTree.fileHashes, (driveFolder hash).isSome = true

mutual

theorem Folder.filesRead_eq {driveFolder : DriveFolder} {folder : Folder}
    (stored : folder.IsStored driveFolder) : folder.filesRead driveFolder =
      folder.fileHashes.map fun hash => (driveFolder hash).getD [] := by
  cases folder with
  | mk name childs =>
      rw [Folder.filesRead, Folder.fileHashes]
      exact Childs.filesRead_eq stored

theorem Childs.filesRead_eq {driveFolder : DriveFolder} {childs : Childs}
    (stored : ∀ hash ∈ childs.fileHashes, (driveFolder hash).isSome = true) :
    childs.filesRead driveFolder =
      childs.fileHashes.map fun hash => (driveFolder hash).getD [] := by
  cases childs with
  | nil => rfl
  | cons key child rest =>
      rw [Childs.fileHashes] at stored
      have later : rest.filesRead driveFolder =
          rest.fileHashes.map fun hash => (driveFolder hash).getD [] := by
        apply Childs.filesRead_eq
        intro hash member
        exact stored hash (List.mem_append_right _ member)
      cases child with
      | folder folder =>
          have here : folder.IsStored driveFolder := by
            intro hash member
            exact stored hash (List.mem_append_left _ member)
          rw [Childs.filesRead, Childs.fileHashes, Child.fileHashes, Folder.filesRead_eq here,
            later, List.map_append]
      | file file =>
          have present : (driveFolder file.hash).isSome = true := by
            apply stored
            exact List.mem_append_left _ (List.mem_singleton_self _)
          rw [Childs.filesRead, Childs.fileHashes, Child.fileHashes]
          cases found : driveFolder file.hash with
          | none =>
              rw [found] at present
              cases present
          | some bytes => simp [found, later]

end

theorem Folder.words_eq {driveFolder : DriveFolder} {fsTree : FsTree}
    (stored : fsTree.IsStored driveFolder) :
    fsTree.words driveFolder = fsTree.fileHashes.flatMap driveFolder.wordsOf := by
  rw [Folder.words, Folder.filesRead_eq stored, List.flatMap_map]
  rfl

theorem Folder.isStored_changeByte {driveFolder : DriveFolder} {fsTree : FsTree}
    (stored : fsTree.IsStored driveFolder) (hash : InfoHash) (position : Nat) (byte : UInt8) :
    fsTree.IsStored (driveFolder.changeByte hash position byte) := by
  intro other member
  have present : (driveFolder other).isSome = true := stored other member
  rw [DriveFolder.changeByte]
  split
  · rw [Option.isSome_map]
    exact present
  · exact present

/-- What a changed byte does to the hash of all files, whatever hash it starts with. -/
theorem absorbAll_changeByte {driveFolder : DriveFolder} {fsTree : FsTree}
    (stored : fsTree.IsStored driveFolder) {hash : InfoHash} {bytes : List UInt8}
    (found : driveFolder hash = some bytes) {position : Nat} (inside : position < bytes.length)
    (byte : UInt8) : ∃ r, ∀ initial : BitVec 64,
      absorbAll initial (fsTree.words (driveFolder.changeByte hash position byte)) =
        (spread (fsTree.wordsAfter driveFolder hash)
          (byteDifference bytes[position] byte)).rotateRight r ^^^
            absorbAll initial (fsTree.words driveFolder) := by
  have others : ∀ other, other ≠ hash →
      (driveFolder.changeByte hash position byte).wordsOf other = driveFolder.wordsOf other := by
    intro other ne
    rw [DriveFolder.wordsOf, DriveFolder.changeByte, if_neg ne, DriveFolder.wordsOf]
  have differs : DiffersBy (byteDifference bytes[position] byte) (driveFolder.wordsOf hash)
      ((driveFolder.changeByte hash position byte).wordsOf hash) := by
    rw [DriveFolder.wordsOf, DriveFolder.wordsOf, DriveFolder.changeByte, if_pos rfl, found,
      Option.map_some, Option.getD_some, Option.getD_some,
      List.set_eq_take_append_cons_drop, if_pos inside]
    have whole : bytes = bytes.take position ++ bytes[position] :: bytes.drop (position + 1) := by
      rw [← List.drop_eq_getElem_cons inside, List.take_append_drop]
    conv => arg 2; rw [whole]
    exact fileWords_change _ _ _ _
  obtain ⟨r, isHash⟩ := absorbAll_flatMap others differs
  refine ⟨r, ?_⟩
  intro initial
  have counts : (fun other => (driveFolder.wordsOf other).length) =
      fun other => wordCount ((driveFolder other).getD []).length := by
    funext other
    exact length_fileWords _
  rw [Folder.words_eq (Folder.isStored_changeByte stored hash position byte),
    Folder.words_eq stored, isHash, counts]
  rfl

/-! ## Detecting a corruption -/

/-- Whatever byte of whatever file is changed, the codes of all replicators change. -/
def DetectsCorruption (request : VerificationRequest) (fsTree : FsTree)
    (driveFolder : DriveFolder) : Prop :=
  ∀ hash ∈ fsTree.fileHashes, ∀ bytes, driveFolder hash = some bytes →
    ∀ (position : Fin bytes.length) (byte : UInt8), byte ≠ bytes[position] →
      ∀ i : Fin request.replicators.length,
        (verify request fsTree (driveFolder.changeByte hash position byte))[i.val]? ≠
          (verify request fsTree driveFolder)[i.val]?

/-- The references of a file do not cancel each other: the sum of the byte `0xFF`, rotated
    for each reference by the number of words that follow, is not zero. -/
def Folder.ReferencesCount (fsTree : FsTree) (driveFolder : DriveFolder) : Prop :=
  ∀ hash ∈ fsTree.fileHashes, ((driveFolder hash).getD []).length ≠ 0 →
    spread (fsTree.wordsAfter driveFolder hash) 0xFF#64 ≠ 0#64

/-- A code changes exactly if the rotations of the difference do not cancel each other. -/
theorem code_changeByte_iff {request : VerificationRequest} {fsTree : FsTree}
    {driveFolder : DriveFolder} (stored : fsTree.IsStored driveFolder) {hash : InfoHash}
    {bytes : List UInt8} (found : driveFolder hash = some bytes) {position : Nat}
    (inside : position < bytes.length) (byte : UInt8) (i : Fin request.replicators.length) :
    (verify request fsTree (driveFolder.changeByte hash position byte))[i.val]? =
        (verify request fsTree driveFolder)[i.val]? ↔
      spread (fsTree.wordsAfter driveFolder hash) (byteDifference bytes[position] byte) = 0#64 := by
  obtain ⟨r, isHash⟩ := absorbAll_changeByte stored found inside byte
  rw [code_eq, code_eq, isHash, Option.some.injEq, xor_eq_right_iff, rotateRight_eq_zero_iff]

/-- Corruptions are detected exactly if there is nobody to detect them, or the references of no
    file cancel each other. -/
theorem detectsCorruption_iff {request : VerificationRequest} {fsTree : FsTree}
    {driveFolder : DriveFolder} (stored : fsTree.IsStored driveFolder) :
    DetectsCorruption request fsTree driveFolder ↔
      request.replicators = [] ∨ fsTree.ReferencesCount driveFolder := by
  constructor
  · intro detects
    by_cases nobody : request.replicators = []
    · exact Or.inl nobody
    · right
      intro hash member nonempty cancels
      obtain ⟨bytes, found⟩ := Option.isSome_iff_exists.mp (stored hash member)
      rw [found, Option.getD_some] at nonempty
      have inside : 0 < bytes.length := by omega
      have someone : 0 < request.replicators.length := List.length_pos_iff.mpr nobody
      -- all bits of the first byte are changed
      let byte : UInt8 := ⟨0xFF#8 ^^^ bytes[0].toBitVec⟩
      have difference : byte.toBitVec ^^^ bytes[0].toBitVec = 0xFF#8 := by
        rw [BitVec.xor_assoc, BitVec.xor_self, BitVec.xor_zero]
      have changed : byte ≠ bytes[0] := by
        intro same
        rw [same, BitVec.xor_self] at difference
        cases difference
      apply detects hash member bytes found ⟨0, inside⟩ byte changed ⟨0, someone⟩
      apply (code_changeByte_iff stored found inside byte ⟨0, someone⟩).mpr
      rw [byteDifference, difference]
      exact cancels
  · intro counts hash member bytes found position byte changed i same
    rcases counts with nobody | counts
    · rw [nobody] at i
      exact i.elim0
    · have cancels := (code_changeByte_iff stored found position.isLt byte i).mp same
      have nonempty : ((driveFolder hash).getD []).length ≠ 0 := by
        rw [found, Option.getD_some]
        exact Nat.ne_of_gt (Nat.zero_lt_of_lt position.isLt)
      apply counts hash member nonempty
      apply spread_ff_eq_zero _ cancels
      intro isZero
      apply changed
      exact UInt8.toBitVec_inj.mp (BitVec.xor_eq_zero_iff.mp isZero)

/-- A tree that references a file once. -/
def sampleTree : FsTree :=
  .mk "/" (.cons "a" (.file { name := "a", hash := 1, size := 1 }) .nil)

theorem single_reference_detects :
    DetectsCorruption { tx := 1, shardId := 0, replicators := [1, 2] } sampleTree
      fun _ => some [7] := by
  apply (detectsCorruption_iff (fun _ _ => rfl)).mpr
  right
  intro hash member _
  obtain rfl : hash = 1 := List.mem_singleton.mp member
  decide +kernel

/-- A tree that references a file of 504 bytes, which have 64 words, twice in turn. -/
def doubledTree : FsTree :=
  .mk "/" (.cons "a" (.file { name := "a", hash := 1, size := 504 })
    (.cons "b" (.file { name := "b", hash := 1, size := 504 }) .nil))

theorem doubled_reference_hides_corruption :
    ¬ DetectsCorruption { tx := 1, shardId := 0, replicators := [1, 2] } doubledTree
      fun _ => some (List.replicate 504 0) := by
  intro detects
  have inside : 0 < (List.replicate 504 (0 : UInt8)).length := by
    rw [List.length_replicate]
    decide
  have stored : doubledTree.IsStored fun _ => some (List.replicate 504 0) := fun _ _ => rfl
  apply detects 1 (List.mem_cons_self ..) _ rfl ⟨0, inside⟩ 1 _ ⟨0, by decide⟩
  · apply (code_changeByte_iff stored rfl inside 1 ⟨0, by decide⟩).mpr
    have offsets : doubledTree.wordsAfter (fun _ => some (List.replicate 504 0)) 1 = [64, 0] := by
      decide +kernel
    rw [offsets, spread_cons, spread_cons, spread_nil, BitVec.xor_zero,
      ← BitVec.rotateRight_mod_eq_rotateRight, Nat.mod_self, BitVec.xor_self]
  · rw [Fin.getElem_fin, List.getElem_replicate]
    decide

end SiriusDrive
