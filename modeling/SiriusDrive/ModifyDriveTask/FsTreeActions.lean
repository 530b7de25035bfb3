import SiriusDrive.ActionList
import SiriusDrive.FsTree.Contents
import SiriusDrive.Lib.Transition

/-! # The actions of a modification

`modifyFsTreeInSandbox` performs the actions of the list on a copy of the fs
tree, one after the other. An action that cannot be performed is left out.
-/

namespace SiriusDrive

open FsEntry

/-- What `fs::exists`, `fs::is_directory` and `fs::file_size` say of a path. -/
inductive FileStatus where
  | regularFile (size : Nat)
  | directory
  /-- Something that has no size. -/
  | other
  deriving Repr, DecidableEq

/-- What the actions look up outside the tree. -/
structure LocalFiles where
  /-- What is at `m_driveFolder / m_param1`. -/
  clientFile : String → Option FileStatus
  /-- `fs::current_path`, if it can be told. -/
  currentPath : Option FsPath

/-- The loop of `isPathInsideFolder`: where do the two paths diverge? -/
def isPathInsideFolder : List String → List String → Bool
  | _, [] => false
  | [], _ :: _ => true
  | name :: path, other :: folder => if name = other then isPathInsideFolder path folder else false

theorem isPathInsideFolder_iff {path folder : List String} :
    isPathInsideFolder path folder = true ↔ path <+: folder ∧ path ≠ folder := by
  fun_induction isPathInsideFolder path folder with
  | case1 path =>
      constructor
      · intro never
        cases never
      · rintro ⟨inside, differ⟩
        exact absurd (List.prefix_nil.mp inside) differ
  | case2 other folder => simp
  | case3 path name folder ih =>
      rw [ih, List.cons_prefix_cons]
      simp
  | case4 name path other folder differ =>
      rw [List.cons_prefix_cons]
      simp [differ]

namespace LocalFiles

variable (files : LocalFiles)

/-- `fs::absolute( fs::path( "root" ) / path )`. -/
def absolute (path : FsPath) : Option (List String) :=
  if path.elements.head? = some "/" then some path.elements
  else
    files.currentPath.map fun currentPath =>
      currentPath.elements ++ "root" :: (if path.elements = [] then [""] else path.elements)

/-- The call of `isPathInsideFolder` for a move. It may fail. -/
def isPathInside (source destination : FsPath) : Option Bool := do
  isPathInsideFolder (← files.absolute source) (← files.absolute destination)

end LocalFiles

/-- `m_sandboxFsTree`, and what has been removed from it. -/
structure SandboxFsTree where
  fsTree : FsEntryTree
  /-- The next node of the statistics. -/
  nextNode : Nat
  removedFiles : List InfoHash := []

namespace SandboxFsTree

variable (files : LocalFiles) (action : Action) (sandbox : SandboxFsTree)

/-- Where an uploaded file goes: into the folder `m_param2` names, or to `m_param2` itself. -/
def uploadDestination : FsPath × String :=
  let path := FsPath.parse action.param2
  match getEntryPtr path sandbox.fsTree.1 with
  | some destEntry =>
      if isFolder destEntry then (path, action.filename) else (path.parentPath, path.filename)
  | none => (path.parentPath, path.filename)

/-- `action_list_id::upload`. An exception ends in the log. -/
def upload : SandboxFsTree :=
  match files.clientFile action.param1, stringToByteArray action.param1 with
  | some (.regularFile fileSize), .ok fileHash =>
      let (destFolder, srcFile) := sandbox.uploadDestination action
      match sandbox.fsTree.addFile sandbox.nextNode destFolder srcFile fileHash fileSize with
      | some fsTree =>
          { sandbox with fsTree, nextNode := sandbox.nextNode + destFolder.elements.length + 1 }
      | none => sandbox
  | _, _ => sandbox

/-- `action_list_id::new_folder`. -/
def newFolder : SandboxFsTree :=
  let path := FsPath.parse action.param1
  if (getEntryPtr path sandbox.fsTree.1).isSome then sandbox
  else
    match sandbox.fsTree.addFolder sandbox.nextNode path with
    | some fsTree => { sandbox with fsTree, nextNode := sandbox.nextNode + path.elements.length }
    | none => sandbox

/-- What is left after `moveFlat`, which answers whether it has moved anything. -/
def afterMove (destination : FsPath) : MoveResult FsEntryTree → Option SandboxFsTree
  | .moved fsTree =>
      some { sandbox with fsTree, nextNode := sandbox.nextNode + destination.elements.length }
  | .failed => some sandbox
  | .undefined => none

/-- `action_list_id::move`. Its callback does nothing. -/
def move : Option SandboxFsTree :=
  let source := FsPath.parse action.param1
  let destination := FsPath.parse action.param2
  match getEntryPtr source sandbox.fsTree.1 with
  | none => some sandbox
  | some srcChild =>
      if isFolder srcChild = true ∧ files.isPathInside source destination ≠ some false then
        some sandbox
      else
        sandbox.afterMove destination
          (sandbox.fsTree.moveFlat sandbox.nextNode source destination)

/-- `action_list_id::remove`. -/
def remove : SandboxFsTree :=
  let path := FsPath.parse action.param1
  match getEntryPtr path sandbox.fsTree.1, sandbox.fsTree.removeFlat path with
  | some entry, some fsTree =>
      { sandbox with
        fsTree, removedFiles := sandbox.removedFiles ++ entry.value.fileHash?.toList }
  | _, _ => sandbox

/-- One round of the loop over the actions, if its behaviour is defined. -/
def perform : Option SandboxFsTree :=
  match action.actionId with
  | .upload => some (sandbox.upload files action)
  | .newFolder => some (sandbox.newFolder action)
  | .move => sandbox.move files action
  | .remove => some (sandbox.remove action)

/-- The loop of `modifyFsTreeInSandbox`. -/
def actionSystem : Transition SandboxFsTree Action where
  step sandbox action := sandbox.perform files action

/-! ## What an action makes of the contents -/

def contents : FsContents := FsEntry.contents sandbox.fsTree.1

variable {files action sandbox}

theorem contents_keys (path : FsPath) : sandbox.contents path.keys =
    (getEntryPtr path sandbox.fsTree.1).map fun entry => entry.value.content :=
  FsEntry.contents_keys sandbox.fsTree.2.wellFormed path

theorem namesFolder_iff (path : FsPath) : sandbox.contents.NamesFolder path.keys ↔
    ∃ entry, getEntryPtr path sandbox.fsTree.1 = some entry ∧ isFolder entry = true := by
  rw [FsContents.NamesFolder, contents_keys]
  constructor
  · rintro ⟨info, isInfo, kind⟩
    obtain ⟨entry, isEntry, rfl⟩ := Option.map_eq_some_iff.mp isInfo
    exact ⟨entry, isEntry, EntryInfo.isFolder_content.symm.trans kind⟩
  · rintro ⟨entry, isEntry, kind⟩
    rw [isEntry]
    exact ⟨_, rfl, EntryInfo.isFolder_content.trans kind⟩

/-! ### Uploads -/

theorem uploadDestination_of_folder
    (isFolder : sandbox.contents.NamesFolder (FsPath.parse action.param2).keys) :
    sandbox.uploadDestination action = (FsPath.parse action.param2, action.filename) := by
  obtain ⟨entry, isEntry, kind⟩ := (namesFolder_iff _).mp isFolder
  simp only [uploadDestination, isEntry, kind, if_true]

theorem uploadDestination_of_not
    (notFolder : ¬ sandbox.contents.NamesFolder (FsPath.parse action.param2).keys) :
    sandbox.uploadDestination action =
      ((FsPath.parse action.param2).parentPath, (FsPath.parse action.param2).filename) := by
  simp only [uploadDestination]
  split
  · rename_i entry isEntry
    rw [if_neg]
    intro kind
    exact notFolder ((namesFolder_iff _).mpr ⟨entry, isEntry, kind⟩)
  · rfl

/-- Where the file of an upload is put. -/
def uploadPath (action : Action) (sandbox : SandboxFsTree) : List String :=
  (sandbox.uploadDestination action).1.elements ++ [(sandbox.uploadDestination action).2]

/-- An upload that puts a file into the tree. -/
structure Uploads (files : LocalFiles) (action : Action) (sandbox : SandboxFsTree)
    (fileHash : InfoHash) (fileSize : Nat) : Prop where
  isFile : files.clientFile action.param1 = some (.regularFile fileSize)
  isHash : stringToByteArray action.param1 = .ok fileHash
  isFree : ¬ sandbox.contents.PassesFile (sandbox.uploadDestination action).1.elements

theorem contents_upload {fileHash : InfoHash} {fileSize : Nat}
    (uploads : Uploads files action sandbox fileHash fileSize) :
    (sandbox.upload files action).contents =
      (sandbox.contents.addFolders (sandbox.uploadDestination action).1.elements).put
        (.leaf (.file ⟨(sandbox.uploadDestination action).2, fileHash, fileSize⟩ false
          { node := 0 }))
        (uploadPath action sandbox) := by
  simp only [upload, uploads.isFile, uploads.isHash]
  cases added : sandbox.fsTree.addFile sandbox.nextNode (sandbox.uploadDestination action).1
    (sandbox.uploadDestination action).2 fileHash fileSize with
  | some fsTree => exact FsEntryTree.contents_addFile added
  | none => exact absurd (FsEntryTree.addFile_eq_none_iff.mp added) uploads.isFree

theorem upload_eq_self
    (skips : ∀ fileHash fileSize, ¬ Uploads files action sandbox fileHash fileSize) :
    sandbox.upload files action = sandbox := by
  rw [upload]
  split
  · rename_i fileSize fileHash isFile isHash
    have passes : sandbox.contents.PassesFile (sandbox.uploadDestination action).1.elements := by
      by_contra isFree
      exact skips fileHash fileSize ⟨isFile, isHash, isFree⟩
    simp only [FsEntryTree.addFile_eq_none_iff.mpr passes]
  · rfl

/-! ### New folders -/

/-- A new folder that is put into the tree. -/
structure AddsFolder (action : Action) (sandbox : SandboxFsTree) : Prop where
  isMissing : sandbox.contents (FsPath.parse action.param1).keys = none
  isFree : ¬ sandbox.contents.PassesFile (FsPath.parse action.param1).elements

theorem contents_newFolder (adds : AddsFolder action sandbox) :
    (sandbox.newFolder action).contents =
      sandbox.contents.addFolders (FsPath.parse action.param1).elements := by
  have isMissing := adds.isMissing
  rw [contents_keys, Option.map_eq_none_iff] at isMissing
  simp only [newFolder, isMissing, Option.isSome_none, Bool.false_eq_true, if_false]
  cases added : sandbox.fsTree.addFolder sandbox.nextNode (FsPath.parse action.param1) with
  | some fsTree => exact FsEntryTree.contents_addFolder added
  | none => exact absurd (FsEntryTree.addFolder_eq_none_iff.mp added) adds.isFree

theorem newFolder_eq_self (skips : ¬ AddsFolder action sandbox) :
    sandbox.newFolder action = sandbox := by
  simp only [newFolder]
  split
  · rfl
  · rename_i noEntry
    have isMissing : sandbox.contents (FsPath.parse action.param1).keys = none := by
      rw [contents_keys, Option.not_isSome_iff_eq_none.mp noEntry, Option.map_none]
    have passes : sandbox.contents.PassesFile (FsPath.parse action.param1).elements := by
      by_contra isFree
      exact skips ⟨isMissing, isFree⟩
    simp only [FsEntryTree.addFolder_eq_none_iff.mpr passes]

/-! ### Removals -/

theorem contents_remove (action : Action) (sandbox : SandboxFsTree) :
    (sandbox.remove action).contents =
      sandbox.contents.remove (FsPath.parse action.param1).keys := by
  cases isEntry : getEntryPtr (FsPath.parse action.param1) sandbox.fsTree.1 with
  | none =>
      have missing : sandbox.contents (FsPath.parse action.param1).keys = none := by
        rw [contents_keys, isEntry, Option.map_none]
      simp only [remove, isEntry]
      exact (remove_of_none missing).symm
  | some entry =>
      cases removed : sandbox.fsTree.removeFlat (FsPath.parse action.param1) with
      | none =>
          rw [FsEntryTree.removeFlat_eq_none_iff, isEntry] at removed
          cases removed
      | some fsTree =>
          simp only [remove, isEntry, removed]
          exact FsEntryTree.contents_removeFlat removed

/-! ## A tree with a folder in a folder -/

def sampleFiles : LocalFiles where
  clientFile _ := none
  currentPath := some (.parse "/")

def emptySandbox : SandboxFsTree where
  fsTree := ⟨emptyRoot, isTree_emptyRoot⟩
  nextNode := 1

def nestedSandbox : SandboxFsTree :=
  emptySandbox.newFolder { actionId := .newFolder, param1 := "a/b" }

end SandboxFsTree

end SiriusDrive
