import SiriusDrive.FsTree.Contents
import SiriusDrive.Lib.Transition

/-! # Sequences of operations

The operations of an fs tree one after the other, with any strings for paths and names, and what
they make of the contents of the tree.
-/

namespace SiriusDrive

open KeyedTree

/-- A call of an operation. The strings are those of the caller. -/
inductive FsTreeOperation where
  | addFile (destPath filename : String) (fileHash : InfoHash) (size : Nat)
  | addModifiableFile (destinationPath filename : String) (temporaryHash : InfoHash)
  | addFolder (folderPath : String)
  | moveFlat (srcPathAndName destPathAndName : String)
  | removeFlat (fullPath : String)

/-- A tree with the next node of its statistics. -/
structure FsTreeState where
  fsTree : FsEntryTree
  nextNode : Nat

namespace FsTreeState

variable (state : FsTreeState)

/-- What is left after an operation that may fail. It has used up some nodes. -/
def after (nodes : Nat) : Option FsEntryTree → FsTreeState
  | some fsTree => { fsTree, nextNode := state.nextNode + nodes }
  | none => state

def perform : FsTreeOperation → Option FsTreeState
  | .addFile destPath filename fileHash size =>
      let path := FsPath.parse destPath
      some (state.after (path.elements.length + 1)
        (state.fsTree.addFile state.nextNode path filename fileHash size))
  | .addModifiableFile destinationPath filename temporaryHash =>
      let path := FsPath.parse destinationPath
      some (state.after (path.elements.length + 1)
        (state.fsTree.addModifiableFile state.nextNode path filename temporaryHash))
  | .addFolder folderPath =>
      let path := FsPath.parse folderPath
      some (state.after path.elements.length (state.fsTree.addFolder state.nextNode path))
  | .moveFlat srcPathAndName destPathAndName =>
      let destination := FsPath.parse destPathAndName
      match state.fsTree.moveFlat state.nextNode (FsPath.parse srcPathAndName) destination with
      | .moved fsTree => some (state.after destination.elements.length (some fsTree))
      | .failed => some state
      | .undefined => none
  | .removeFlat fullPath => some (state.after 0 (state.fsTree.removeFlat (FsPath.parse fullPath)))

/-- A tree under any operations, as long as their behaviour is defined. -/
def operationSystem : Transition FsTreeState FsTreeOperation where
  step := perform

def contents : FsContents := state.fsTree.1.contents

end FsTreeState

/-! ## What an operation makes of the contents -/

namespace FsContents

open Classical in
/-- Folders are made on the way, and a leaf comes to a name in the last one, unless a file is on
    the way. -/
noncomputable def addLeaf (contents : FsContents) (path : FsPath) (filename : String)
    (info : EntryInfo) : FsContents :=
  if contents.PassesFile path.elements then contents
  else (contents.addFolders path.elements).put (.leaf info) (path.elements ++ [filename])

/-- A move gets to the point where the entry is taken from its place. -/
structure IsMovable (contents : FsContents) (source destination : FsPath) : Prop where
  isSource : (contents source.keys).isSome
  differ : destination ≠ source
  isFree : ¬ contents.PassesFile destination.parentPath.elements

open Classical in
/-- What an operation makes of the contents of a tree. -/
noncomputable def operate (contents : FsContents) : FsTreeOperation → FsContents
  | .addFile destPath filename fileHash size =>
      contents.addLeaf (.parse destPath) filename
        (.file ⟨filename, fileHash, size⟩ false { node := 0 })
  | .addModifiableFile destinationPath filename temporaryHash =>
      contents.addLeaf (.parse destinationPath) filename
        (.file ⟨filename, temporaryHash, 0⟩ true { node := 0 })
  | .addFolder folderPath =>
      if contents.PassesFile (FsPath.parse folderPath).elements then contents
      else contents.addFolders (FsPath.parse folderPath).elements
  | .moveFlat srcPathAndName destPathAndName =>
      let source := FsPath.parse srcPathAndName
      let destination := FsPath.parse destPathAndName
      if ¬ contents.IsMovable source destination then contents
      -- the entry is moved into itself
      else if source.keys <+: destination.parentPath.elements then contents.remove source.keys
      else contents.move source destination
  | .removeFlat fullPath => contents.remove (FsPath.parse fullPath).keys

end FsContents

namespace FsTreeState

variable {state after : FsTreeState} {operation : FsTreeOperation}

open Classical in
theorem contents_after {nodes : Nat} {option : Option FsEntryTree} {names : List String}
    {added : FsContents} (isSome : ∀ fsTree, option = some fsTree → fsTree.1.contents = added)
    (isNone : option = none ↔ state.contents.PassesFile names) :
    (state.after nodes option).contents =
      if state.contents.PassesFile names then state.contents else added := by
  cases isOption : option with
  | some fsTree =>
      rw [if_neg]
      · exact isSome fsTree isOption
      · intro passes
        cases isOption.symm.trans (isNone.mpr passes)
  | none =>
      rw [if_pos (isNone.mp isOption)]
      rfl

theorem isSome_contents_keys (fsTree : FsEntryTree) (path : FsPath) :
    (fsTree.1.contents path.keys).isSome = (FsEntry.getEntryPtr path fsTree.1).isSome := by
  rw [FsEntry.contents_keys fsTree.2.wellFormed, Option.isSome_map]

theorem isSome_contents_above {root : FsEntry} {front names : List String}
    (above : front <+: names) (isThere : (root.contents names).isSome) :
    (root.contents front).isSome := by
  obtain ⟨rest, rfl⟩ := above
  rw [← Option.ne_none_iff_isSome, ne_eq, FsEntry.contents_eq_none_iff] at isThere ⊢
  intro missing
  apply isThere
  rw [find?_append, missing, Option.bind_none]

theorem remove_addFolders {root : FsEntry} {names folders : List String}
    (isThere : (root.contents names).isSome) (inside : names <+: folders) :
    (root.contents.addFolders folders).remove names = root.contents.remove names := by
  ext address : 1
  by_cases below : names <+: address
  · rw [AddressMap.remove, AddressMap.remove, if_pos below, if_pos below]
  · rw [AddressMap.remove_elsewhere below, AddressMap.remove_elsewhere below, FsContents.addFolders,
      AddressMap.fill]
    split
    · rename_i onWay
      have above : address <+: names := by
        rcases List.prefix_or_prefix_of_prefix onWay inside with above | inside
        · exact above
        · exact absurd inside below
      obtain ⟨info, isInfo⟩ := Option.isSome_iff_exists.mp (isSome_contents_above above isThere)
      rw [isInfo]
      rfl
    · rfl

theorem isMovable_of_prepared {fsTree : FsEntryTree} {nextNode : Nat} {source destination : FsPath}
    {prepared : FsEntry}
    (isPrepared : FsEntry.prepareParent nextNode destination fsTree.1 = some prepared)
    (isSource : (FsEntry.getEntryPtr source fsTree.1).isSome) (differ : destination ≠ source) :
    fsTree.1.contents.IsMovable source destination := by
  refine ⟨(isSome_contents_keys fsTree source).trans isSource, differ, ?_⟩
  intro passes
  rw [(FsEntry.prepareParent_eq_none_iff fsTree.2).mpr passes] at isPrepared
  cases isPrepared

theorem contents_moved {fsTree : FsEntryTree} {moved : FsEntry} {nextNode : Nat}
    {srcPathAndName destPathAndName : String}
    (moves : FsEntry.Moves nextNode (.parse srcPathAndName) (.parse destPathAndName) fsTree.1
      (.moved moved)) :
    moved.contents = fsTree.1.contents.operate (.moveFlat srcPathAndName destPathAndName) := by
  rw [FsContents.operate]
  generalize FsPath.parse srcPathAndName = source at moves ⊢
  generalize FsPath.parse destPathAndName = destination at moves ⊢
  cases moves with
  | same isSource same =>
      rw [if_pos]
      intro movable
      exact movable.differ same
  | @intoItself prepared child isPrepared isChild isSource differ inside lost =>
      have isThere := (isSome_contents_keys fsTree source).trans isSource
      rw [if_neg (not_not_intro (isMovable_of_prepared isPrepared isSource differ)), if_pos inside,
        ← remove_addFolders isThere inside,
        ← FsEntry.contents_prepareParent fsTree.2.isFolder isPrepared]
      ext names : 1
      exact FsEntry.observe_detach FsEntry.hidesStatistics_content isChild names
  | @elsewhere prepared child isPrepared isChild isSource differ outside notAbove =>
      rw [if_neg (not_not_intro (isMovable_of_prepared isPrepared isSource differ)), if_neg outside]
      exact FsEntry.contents_moved fsTree.2 isPrepared isChild isSource outside

theorem contents_failed {fsTree : FsEntryTree} {nextNode : Nat}
    {srcPathAndName destPathAndName : String}
    (moves : FsEntry.Moves nextNode (.parse srcPathAndName) (.parse destPathAndName) fsTree.1
      .failed) :
    fsTree.1.contents = fsTree.1.contents.operate (.moveFlat srcPathAndName destPathAndName) := by
  rw [FsContents.operate]
  generalize FsPath.parse srcPathAndName = source at moves ⊢
  generalize FsPath.parse destPathAndName = destination at moves ⊢
  rw [if_pos]
  intro movable
  cases moves with
  | missing noEntry =>
      have isThere := movable.isSource
      rw [isSome_contents_keys, noEntry] at isThere
      cases isThere
  | noParent isSource differ blocked =>
      exact movable.isFree ((FsEntry.prepareParent_eq_none_iff fsTree.2).mp blocked)

theorem contents_perform (performed : state.perform operation = some after) :
    after.contents = state.contents.operate operation := by
  cases operation with
  | addFile destPath filename fileHash size =>
      cases performed
      exact contents_after (fun _ => FsEntryTree.contents_addFile) FsEntryTree.addFile_eq_none_iff
  | addModifiableFile destinationPath filename temporaryHash =>
      cases performed
      exact contents_after (fun _ => FsEntryTree.contents_addModifiableFile)
        FsEntryTree.addModifiableFile_eq_none_iff
  | addFolder folderPath =>
      cases performed
      exact contents_after (fun _ => FsEntryTree.contents_addFolder) FsEntryTree.addFolder_eq_none_iff
  | moveFlat srcPathAndName destPathAndName =>
      rcases state.fsTree.moves_moveFlat state.nextNode (.parse srcPathAndName)
        (.parse destPathAndName) with ⟨isFailed, moves⟩ | ⟨isUndefined, _⟩ | ⟨moved, isMoved, moves⟩
      · simp only [perform, isFailed, Option.some.injEq] at performed
        rw [← performed]
        exact contents_failed moves
      · simp only [perform, isUndefined, reduceCtorEq] at performed
      · simp only [perform, isMoved, Option.some.injEq] at performed
        rw [← performed]
        exact contents_moved moves
  | removeFlat fullPath =>
      cases performed
      cases removed : state.fsTree.removeFlat (.parse fullPath) with
      | some fsTree => exact FsEntryTree.contents_removeFlat removed
      | none =>
          have missing : state.fsTree.1.contents (FsPath.parse fullPath).keys = none := by
            rw [FsEntry.contents_keys state.fsTree.2.wellFormed,
              FsEntryTree.removeFlat_eq_none_iff.mp removed, Option.map_none]
          exact (FsEntry.remove_of_none missing).symm

end FsTreeState

end SiriusDrive
