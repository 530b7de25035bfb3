import SiriusDrive.ModifyDriveTask.MoveActions

/-! # Moves into a folder's own subtree

`isPathInsideFolder` as a whole, for any `fs::absolute`, and what its answers mean for the moves of
a modification: a folder is never moved below itself, and a name that only begins like the name of
the folder is no obstacle.
-/

namespace SiriusDrive

open FsEntry

/-! ## The whole function -/

/-- `root_path`, of the elements of a path. -/
def rootPath (elements : List String) : String :=
  if elements.head? = some "/" then "/" else ""

/-- `isPathInsideFolder`, with `fs::absolute` as a parameter. There is no answer if `ec` is set. -/
def isPathInsideFolderOf (absolute : FsPath → Option (List String)) (path folder : FsPath) :
    Option Bool := do
  let path0 ← absolute path
  let folder0 ← absolute folder
  if rootPath path0 ≠ rootPath folder0 then return false
  return isPathInsideFolder path0 folder0

/-- The elements of the one path are a proper prefix of those of the other. -/
theorem isPathInsideFolderOf_iff {absolute : FsPath → Option (List String)} {path folder : FsPath}
    {path0 folder0 : List String} (isPath : absolute path = some path0)
    (isFolder : absolute folder = some folder0) (sameRoot : rootPath path0 = rootPath folder0) :
    isPathInsideFolderOf absolute path folder = some true ↔ path0 <+: folder0 ∧ path0 ≠ folder0 := by
  rw [← isPathInsideFolder_iff]
  simp [isPathInsideFolderOf, isPath, isFolder, sameRoot]

namespace LocalFiles

variable {files : LocalFiles} {source destination : FsPath}

/-- `fs::current_path` begins at the root directory. -/
def IsRooted (files : LocalFiles) : Prop :=
  ∀ currentPath, files.currentPath = some currentPath → currentPath.elements.head? = some "/"

theorem IsRooted.rootPath_absolute (rooted : files.IsRooted) {path : FsPath} {path0 : List String}
    (isPath : files.absolute path = some path0) : rootPath path0 = "/" := by
  rw [absolute] at isPath
  split at isPath
  · rename_i isAbsolute
    cases isPath
    exact if_pos isAbsolute
  · obtain ⟨currentPath, isCurrent, rfl⟩ := Option.map_eq_some_iff.mp isPath
    have isRoot := rooted currentPath isCurrent
    rw [rootPath, List.head?_append, isRoot, Option.some_or, if_pos rfl]

/-- The moves of a modification ask the whole function. -/
theorem isPathInside_eq_isPathInsideFolderOf (rooted : files.IsRooted)
    (source destination : FsPath) :
    files.isPathInside source destination =
      isPathInsideFolderOf files.absolute source destination := by
  rw [isPathInside, isPathInsideFolderOf]
  cases isSource : files.absolute source with
  | none => rfl
  | some path0 =>
      cases isDestination : files.absolute destination with
      | none => rfl
      | some folder0 =>
          have sameRoot := (rooted.rootPath_absolute isSource).trans
            (rooted.rootPath_absolute isDestination).symm
          simp [sameRoot]

/-- The path of an entry begins at the root directory if the path of its folder does. -/
theorem isAbsolute_iff {path : FsPath} (named : path.filename ≠ "") :
    path.elements.head? = some "/" ↔ path.parentPath.elements.head? = some "/" := by
  obtain ⟨isKeys, _, notRoot⟩ := FsPath.keys_of_filename named
  rw [← isKeys, FsPath.keys] at notRoot ⊢
  cases isParent : path.parentPath.elements with
  | nil =>
      rw [isParent, List.nil_append] at notRoot
      rw [List.nil_append]
      constructor
      · intro isRoot
        exact absurd (by rw [Option.some.inj isRoot]) notRoot
      · intro never
        cases never
  | cons first rest => rfl

/-- What is in one folder has absolute paths that differ only in the name. -/
theorem absolute_of_parentPath {path0 : List String} (named : source.filename ≠ "")
    (namedAgain : destination.filename ≠ "")
    (sameFolder : destination.parentPath = source.parentPath)
    (isSource : files.absolute source = some path0) :
    ∃ front, path0 = front ++ [source.filename] ∧
      files.absolute destination = some (front ++ [destination.filename]) := by
  obtain ⟨sourceKeys, sourceElements, _⟩ := FsPath.keys_of_filename named
  obtain ⟨destinationKeys, destinationElements, _⟩ := FsPath.keys_of_filename namedAgain
  rw [FsPath.keys] at sourceKeys destinationKeys
  have sameStart := (isAbsolute_iff named).trans (sameFolder ▸ (isAbsolute_iff namedAgain).symm)
  rw [absolute] at isSource ⊢
  by_cases isAbsolute : source.elements.head? = some "/"
  · rw [if_pos isAbsolute] at isSource
    rw [if_pos (sameStart.mp isAbsolute)]
    refine ⟨source.parentPath.elements, ?_, ?_⟩
    · rw [sourceKeys, Option.some.inj isSource]
    · rw [← sameFolder, destinationKeys]
  · rw [if_neg isAbsolute, if_neg sourceElements] at isSource
    rw [if_neg (fun isRoot => isAbsolute (sameStart.mpr isRoot)), if_neg destinationElements]
    obtain ⟨currentPath, isCurrent, same⟩ := Option.map_eq_some_iff.mp isSource
    refine ⟨currentPath.elements ++ "root" :: source.parentPath.elements, ?_, ?_⟩
    · rw [← same, ← sourceKeys, List.append_assoc, List.cons_append]
    · rw [isCurrent, Option.map_some, ← destinationKeys, sameFolder, List.append_assoc,
        List.cons_append]

theorem isPathInside_of_parentPath {path0 : List String} (named : source.filename ≠ "")
    (namedAgain : destination.filename ≠ "")
    (sameFolder : destination.parentPath = source.parentPath)
    (differ : source.filename ≠ destination.filename)
    (isSource : files.absolute source = some path0) :
    files.isPathInside source destination = some false := by
  obtain ⟨front, isFront, isDestination⟩ :=
    absolute_of_parentPath named namedAgain sameFolder isSource
  have apart : isPathInsideFolder (front ++ [source.filename]) (front ++ [destination.filename]) =
      false := by
    rw [isPathInsideFolder_append, isPathInsideFolder, if_neg differ]
  rw [isPathInside, isSource, isDestination, isFront]
  exact congrArg some apart

end LocalFiles

namespace SandboxFsTree

variable {files : LocalFiles} {action : Action} {sandbox : SandboxFsTree}

/-- A folder is to be moved to a place below itself. -/
structure MovesBelow (sandbox : SandboxFsTree) (source destination : FsPath) : Prop where
  isFolder : sandbox.contents.NamesFolder source.keys
  below : source.keys <+: destination.parentPath.elements

/-- An entry is to be moved to another name in the same folder, which begins with its own name. -/
structure MovesBeside (sandbox : SandboxFsTree) (source destination : FsPath) : Prop where
  isThere : sandbox.contents source.keys ≠ none
  named : source.filename ≠ ""
  sameFolder : destination.parentPath = source.parentPath
  longer : ∃ suffix, suffix ≠ "" ∧ destination.filename = source.filename ++ suffix

theorem MovesBelow.differ {source destination : FsPath}
    (moves : sandbox.MovesBelow source destination) : destination ≠ source := by
  rintro rfl
  have length := moves.below.length_le
  rw [FsPath.keys, List.length_append, List.length_singleton] at length
  omega

theorem move_of_movesBelow
    (moves : sandbox.MovesBelow (.parse action.param1) (.parse action.param2)) :
    sandbox.move files action = some sandbox := by
  apply move_of_not_accepts
  intro accepts
  exact LocalFiles.isPathInside_of_inside moves.below moves.differ
    ((accepts_iff.mp accepts).2 moves.isFolder)

theorem MovesBeside.filename_ne {source destination : FsPath}
    (moves : sandbox.MovesBeside source destination) :
    destination.filename ≠ "" ∧ source.filename ≠ destination.filename := by
  obtain ⟨suffix, notEmpty, isLonger⟩ := moves.longer
  rw [isLonger]
  constructor
  · intro isEmpty
    exact moves.named (String.append_eq_empty_iff.mp isEmpty).1
  · intro same
    exact notEmpty (String.append_eq_left_iff.mp same.symm)

/-- The folder the entry is in is there, so that no file is in the way. -/
theorem MovesBeside.isFree {source destination : FsPath}
    (moves : sandbox.MovesBeside source destination) :
    ¬ sandbox.contents.PassesFile destination.parentPath.elements := by
  obtain ⟨entry, isEntry⟩ : ∃ entry, getEntryPtr source sandbox.fsTree.1 = some entry := by
    rw [← Option.ne_none_iff_exists']
    intro missing
    exact moves.isThere (by rw [contents_keys, missing, Option.map_none])
  obtain ⟨folder, isFolder, _⟩ := Option.bind_eq_some_iff.mp isEntry
  rw [moves.sameFolder]
  exact not_passesFile_of_getFolderPtr sandbox.fsTree.2.isFolder isFolder

theorem MovesBeside.notAbove {source destination : FsPath}
    (moves : sandbox.MovesBeside source destination) : ¬ destination.keys <+: source.keys := by
  intro above
  have same : destination.keys = source.keys :=
    above.eq_of_length (by simp [FsPath.keys, moves.sameFolder])
  rw [FsPath.keys, FsPath.keys, moves.sameFolder] at same
  exact moves.filename_ne.2 (List.cons.inj (List.append_cancel_left same)).1.symm

theorem move_of_movesBeside
    (moves : sandbox.MovesBeside (.parse action.param1) (.parse action.param2))
    (isKnown : (files.absolute (.parse action.param1)).isSome) :
    ∃ after, sandbox.move files action = some after ∧
      after.contents = sandbox.contents.move (.parse action.param1) (.parse action.param2) := by
  obtain ⟨path0, isSource⟩ := Option.isSome_iff_exists.mp isKnown
  have names := moves.filename_ne
  have outside := LocalFiles.isPathInside_of_parentPath moves.named names.1 moves.sameFolder names.2
    isSource
  refine move_moves (accepts_iff.mpr ⟨moves.isThere, fun _ => outside⟩) ?_ moves.isFree
    moves.notAbove
  intro same
  exact names.2 (by rw [same])

/-- `isPathInsideFolder` tells whether a path is a proper prefix of another one, and the moves ask
    it. No folder is moved below itself, and an entry is moved to every longer name in its folder. -/
theorem isPathInsideFolder_tellsProperPrefixes :
    (∀ (absolute : FsPath → Option (List String)) (path folder : FsPath)
        (path0 folder0 : List String),
      absolute path = some path0 → absolute folder = some folder0 →
      rootPath path0 = rootPath folder0 →
        (isPathInsideFolderOf absolute path folder = some true ↔
          path0 <+: folder0 ∧ path0 ≠ folder0)) ∧
    (∀ files : LocalFiles, files.IsRooted → ∀ source destination,
      files.isPathInside source destination =
        isPathInsideFolderOf files.absolute source destination) ∧
    (∀ (files : LocalFiles) (action : Action) (sandbox : SandboxFsTree),
      sandbox.MovesBelow (.parse action.param1) (.parse action.param2) →
        sandbox.move files action = some sandbox) ∧
    ∀ (files : LocalFiles) (action : Action) (sandbox : SandboxFsTree),
      sandbox.MovesBeside (.parse action.param1) (.parse action.param2) →
      (files.absolute (.parse action.param1)).isSome →
        ∃ after, sandbox.move files action = some after ∧
          after.contents =
            sandbox.contents.move (.parse action.param1) (.parse action.param2) :=
  ⟨fun _ _ _ _ _ isPath isFolder sameRoot => isPathInsideFolderOf_iff isPath isFolder sameRoot,
    fun _ rooted => LocalFiles.isPathInside_eq_isPathInsideFolderOf rooted,
    fun _ _ _ moves => move_of_movesBelow moves,
    fun _ _ _ moves isKnown => move_of_movesBeside moves isKnown⟩

def moveBelow : Action := { actionId := .move, param1 := "a", param2 := "a/b/c" }

def moveBeside : Action := { actionId := .move, param1 := "a", param2 := "ab" }

theorem nestedSandbox_movesBelow :
    nestedSandbox.MovesBelow (.parse moveBelow.param1) (.parse moveBelow.param2) where
  isFolder := by
    rw [namesFolder_iff]
    have isThere : (getEntryPtr (.parse moveBelow.param1) nestedSandbox.fsTree.1).any
        FsEntry.isFolder = true := by decide +kernel
    exact (Option.any_eq_true _ _).mp isThere
  below := by decide +kernel

theorem nestedSandbox_movesBeside :
    nestedSandbox.MovesBeside (.parse moveBeside.param1) (.parse moveBeside.param2) where
  isThere := by
    rw [contents_keys, ne_eq, Option.map_eq_none_iff]
    decide +kernel
  named := by decide +kernel
  sameFolder := by decide +kernel
  longer := ⟨"b", by decide, by decide +kernel⟩

/-- A folder with a folder in it is not moved into that one, but can get a longer name. -/
theorem isPathInsideFolder_tellsProperPrefixes_nested :
    isPathInsideFolderOf (fun path => some path.elements) (.parse "/a") (.parse "/a/b") =
        some true ∧
      nestedSandbox.move sampleFiles moveBelow = some nestedSandbox ∧
      ∃ after, nestedSandbox.move sampleFiles moveBeside = some after ∧
        after.contents = nestedSandbox.contents.move (.parse "a") (.parse "ab") := by
  obtain ⟨tells, -, below, beside⟩ := isPathInsideFolder_tellsProperPrefixes
  refine ⟨?_, below sampleFiles moveBelow nestedSandbox nestedSandbox_movesBelow,
    beside sampleFiles moveBeside nestedSandbox nestedSandbox_movesBeside (by decide +kernel)⟩
  exact (tells _ (.parse "/a") (.parse "/a/b") _ _ rfl rfl (by decide +kernel)).mpr
    (by decide +kernel)

end SandboxFsTree

end SiriusDrive
