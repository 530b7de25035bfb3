import Mathlib.Algebra.BigOperators.Group.Finset.Basic
import SiriusDrive.Lib.Transition
import SiriusDrive.FsTree.WellFormed
import SiriusDrive.DriveParams
import SiriusDrive.ManualRequests

/-! # The sandbox of a manual modification

`ManualModificationsTask` with its two trees, the streams and iterators it has open,
and the files in the drive folder. A request is one step: the task asserts that the
query before it has ended. An interruption only counts where it changes what a
removal or a move answers, since no request is served after it.
-/

namespace SiriusDrive

/-- How a request can go wrong. -/
inductive SandboxFault where
  /-- An assertion about the sizes. -/
  | assertionFailed
  | undefinedBehaviour
  deriving Repr, DecidableEq

/-- `OpenFile`, opened for writing. -/
structure OpenFile where
  statisticsNode : Nat
  /-- The hash that names the file in the drive folder, until it is removed from there. -/
  hash : Option InfoHash
  /-- The position of the stream. -/
  position : Nat := 0
  deriving Repr, DecidableEq

def OpenFile.unlink (file : OpenFile) (hashes : Finset InfoHash) : OpenFile :=
  { file with hash := file.hash.filter (· ∉ hashes) }

structure Sandbox where
  maxSize : Nat
  torrentHandleMap : TorrentHandleMap
  /-- The sizes of the files in the drive folder, with what is still buffered. -/
  driveFolder : InfoHash → Option Nat
  lowerSandboxFsTree : FsEntryTree
  upperSandboxFsTree : Option FsEntryTree := none
  upperSandboxFilesSize : Nat := 0
  lowerSandboxFilesSize : Nat := 0
  openFilesWrite : List (Nat × OpenFile) := []
  /-- The streams with their statistics nodes. -/
  openFilesRead : List (Nat × Nat) := []
  /-- The iterators with their statistics nodes. -/
  folderIterators : List (Nat × Nat) := []
  callManagedHashes : Finset InfoHash := ∅
  totalFilesOpened : Nat := 0
  totalFolderIteratorsCreated : Nat := 0
  /-- The number of the next statistics node. -/
  nextNode : Nat
  fault : Option SandboxFault := none

/-- The answer to a removal or a move. -/
structure SandboxReply where
  sandbox : Sandbox
  success : Bool

namespace Sandbox

variable (sandbox : Sandbox)

def streamNodes : List Nat :=
  sandbox.openFilesWrite.map (·.2.statisticsNode) ++ sandbox.openFilesRead.map Prod.snd

def handles : List Nat := sandbox.streamNodes ++ sandbox.folderIterators.map Prod.snd

def uniqueFiles (tree : FsEntryTree) : Finset InfoHash := (FsEntry.getUniqueFiles tree.1).toFinset

/-- The sum of the sizes of some files, in 64 bits. -/
def filesSize (missing : Nat) (hashes : Finset InfoHash) : Nat :=
  u64 (∑ hash ∈ hashes, (sandbox.driveFolder hash).getD missing)

/-- What `fs::file_size` gives with an error code. -/
def unknownSize : Nat := 2 ^ 64 - 1

def removeFiles (hashes : Finset InfoHash) : Sandbox :=
  { sandbox with
    driveFolder := fun hash => if hash ∈ hashes then none else sandbox.driveFolder hash
    openFilesWrite := sandbox.openFilesWrite.map fun opened => (opened.1, opened.2.unlink hashes) }

/-- Subtract a size that is asserted to be part of `m_upperSandboxFilesSize`. -/
def subtractSize (size : Nat) : Sandbox :=
  if size ≤ sandbox.upperSandboxFilesSize then
    { sandbox with upperSandboxFilesSize := sandbox.upperSandboxFilesSize - size }
  else { sandbox with fault := some .assertionFailed }

theorem subtractSize_of_le {size : Nat} (le : size ≤ sandbox.upperSandboxFilesSize) :
    sandbox.subtractSize size =
      { sandbox with upperSandboxFilesSize := sandbox.upperSandboxFilesSize - size } := by
  rw [subtractSize, if_pos le]

theorem subtractSize_of_lt {size : Nat} (lt : sandbox.upperSandboxFilesSize < size) :
    sandbox.subtractSize size = { sandbox with fault := some .assertionFailed } := by
  rw [subtractSize, if_neg (Nat.not_le.mpr lt)]

/-! ## Directories -/

/-- `addFolder`, which leaves the tree as it is if it fails. The nodes of new folders come from
    a counter. -/
def addFolderTo (numbered : FsEntryTree × Nat) (path : FsPath) : FsEntryTree × Nat :=
  ((numbered.1.addFolder numbered.2 path).getD numbered.1, numbered.2 + path.elements.length)

/-- `initiateSandboxModifications`. -/
def initiateSandboxModifications (serviceFolders : List FsPath) : Sandbox :=
  let upper := sandbox.lowerSandboxFsTree.initializeStatistics sandbox.handles
  let numbered := serviceFolders.foldl addFolderTo (upper, sandbox.nextNode)
  { sandbox with
    upperSandboxFsTree := some numbered.1
    upperSandboxFilesSize := sandbox.lowerSandboxFilesSize
    nextNode := numbered.2 }

variable (tree : FsEntryTree)

def createDirectories (path : FsPath) : Sandbox :=
  let numbered := addFolderTo (tree, sandbox.nextNode) path
  { sandbox with upperSandboxFsTree := some numbered.1, nextNode := numbered.2 }

/-- `checkUnlock`, by `iterateBranch`. -/
def checkUnlock (path : FsPath) (root : FsEntry) : Bool :=
  if path.elements = [] then FsEntry.totalBlocks root = 0
  else
    (FsEntry.passedFolders path.parentPath.elements root).all
        (fun folder => folder.value.statistics.blocks = 0) &&
      match FsEntry.getEntryPtr path root with
      | some entry => FsEntry.totalBlocks entry = 0
      | none => true

def folderIteratorCreate (path : FsPath) : Sandbox :=
  if checkUnlock path tree.1 then
    match FsEntry.getFolderPtr path.elements tree.1 with
    | some folder =>
        { sandbox with
          upperSandboxFsTree := some (tree.addBlock (FsEntry.statisticsNode folder))
          folderIterators := (sandbox.totalFolderIteratorsCreated, FsEntry.statisticsNode folder) ::
            sandbox.folderIterators
          totalFolderIteratorsCreated := sandbox.totalFolderIteratorsCreated + 1 }
    | none => sandbox
  else sandbox

def folderIteratorDestroy (id : Nat) : Sandbox :=
  match sandbox.folderIterators.find? (·.1 = id) with
  | some iterator =>
      { sandbox with
        upperSandboxFsTree := some (tree.removeBlock iterator.2)
        folderIterators := sandbox.folderIterators.eraseP (·.1 = id) }
  | none => sandbox

/-! ## Files -/

/-- `createStream` and `onFileOpened` for reading. -/
def openForReading (fileId : Nat) (entry : FsEntry) (hash : InfoHash) : Sandbox :=
  if (sandbox.driveFolder hash).isSome then
    { sandbox with
      upperSandboxFsTree := some (tree.addBlock (FsEntry.statisticsNode entry))
      openFilesRead := (fileId, FsEntry.statisticsNode entry) :: sandbox.openFilesRead }
  else sandbox

/-- `createStream` and `onFileOpened` for writing: the file is truncated or created. -/
def openForWriting (fileId : Nat) (path : FsPath) : Sandbox :=
  match FsEntry.getEntryPtr path tree.1 with
  | some entry =>
      match entry.value.fileHash? with
      | some hash =>
          { sandbox with
            driveFolder := Function.update sandbox.driveFolder hash (some 0)
            upperSandboxFsTree := some (tree.addBlock (FsEntry.statisticsNode entry))
            openFilesWrite :=
              (fileId, { statisticsNode := FsEntry.statisticsNode entry, hash := some hash }) ::
                sandbox.openFilesWrite }.subtractSize ((sandbox.driveFolder hash).getD 0)
      | none => { sandbox with fault := some .undefinedBehaviour }
  | none => { sandbox with fault := some .undefinedBehaviour }

/-- `addModifiableFile`, with the hash it inserts into `m_callManagedHashes`. -/
def manageFile (path : FsPath) (temporaryHash : InfoHash) : Option (FsEntryTree × Sandbox) :=
  (tree.addModifiableFile sandbox.nextNode path.parentPath path.filename temporaryHash).map
    fun tree =>
      (tree, { sandbox with
        callManagedHashes := insert temporaryHash sandbox.callManagedHashes
        nextNode := sandbox.nextNode + path.parentPath.elements.length + 1 })

/-- `openFile` for writing. A new file is added twice, and only the hash of the second one is
    kept. -/
def prepareWriting (path : FsPath) (overwrittenHash temporaryHash : InfoHash) :
    Option (FsEntryTree × Sandbox) :=
  match FsEntry.getEntryPtr path tree.1 with
  | some entry =>
      match entry.value.fileHash? with
      | some hash =>
          if hash ∈ sandbox.callManagedHashes then some (tree, sandbox)
          else (tree.removeFlat path).bind fun tree => sandbox.manageFile tree path temporaryHash
      | none => none
  | none =>
      (sandbox.manageFile tree path overwrittenHash).bind fun (added, numbered) =>
        { sandbox with nextNode := numbered.nextNode }.manageFile added path temporaryHash

def openFile (path : FsPath) (mode : OpenFileMode) (overwrittenHash temporaryHash : InfoHash) :
    Sandbox :=
  let fileId := sandbox.totalFilesOpened
  let opened := { sandbox with totalFilesOpened := sandbox.totalFilesOpened + 1 }
  if (FsEntry.getFolderPtr path.parentPath.elements tree.1).isNone || !checkUnlock path tree.1 then
    opened
  else
    match mode with
    | .read =>
        match FsEntry.getEntryPtr path tree.1 with
        | some entry =>
            match entry.value.fileHash? with
            | some hash => opened.openForReading tree fileId entry hash
            | none => opened
        | none => opened
    | .write =>
        match opened.prepareWriting tree path overwrittenHash temporaryHash with
        | some (tree, prepared) => prepared.openForWriting tree fileId path
        | none => opened

/-- A stream writes at its position. The file may have been removed meanwhile. -/
def writeStream (opened : OpenFile) (size : Nat) : InfoHash → Option Nat :=
  match opened.hash with
  | some hash =>
      Function.update sandbox.driveFolder hash
        (some (max ((sandbox.driveFolder hash).getD 0) (opened.position + size)))
  | none => sandbox.driveFolder

def writeFile (fileId size : Nat) : Sandbox :=
  match sandbox.openFilesWrite.find? (·.1 = fileId) with
  | some opened =>
      if sandbox.maxSize < u64 (sandbox.upperSandboxFilesSize + size) then sandbox
      else
        { sandbox with
          upperSandboxFilesSize := u64 (sandbox.upperSandboxFilesSize + size)
          driveFolder := sandbox.writeStream opened.2 size
          openFilesWrite := sandbox.openFilesWrite.map fun other =>
            if other.1 = fileId then
              (fileId, { other.2 with position := other.2.position + size })
            else other }
  | none => sandbox

def closeFile (fileId : Nat) : Sandbox :=
  match sandbox.openFilesRead.find? (·.1 = fileId) with
  | some opened =>
      { sandbox with
        upperSandboxFsTree := some (tree.removeBlock opened.2)
        openFilesRead := sandbox.openFilesRead.eraseP (·.1 = fileId) }
  | none =>
      match sandbox.openFilesWrite.find? (·.1 = fileId) with
      | some opened =>
          { sandbox with
            upperSandboxFsTree := some (tree.removeBlock opened.2.statisticsNode)
            openFilesWrite := sandbox.openFilesWrite.eraseP (·.1 = fileId) }
      | none => sandbox

/-! ## Removing and moving -/

/-- `obtainUnusedFiles`: the files of an entry that were created by this call. -/
def obtainUnusedFiles (entry : FsEntry) : Finset InfoHash :=
  (FsEntry.getUniqueFiles entry).toFinset ∩ sandbox.callManagedHashes

/-- `removeUnusedFiles` and `onRemoved` or `onMoved`: the size is not subtracted if the task has
    been interrupted. -/
def removeUnusedFiles (filesToRemove : Finset InfoHash) (isInterrupted : Bool) : SandboxReply :=
  let removed := sandbox.removeFiles filesToRemove
  if isInterrupted then ⟨removed, false⟩
  else ⟨removed.subtractSize (sandbox.filesSize 0 filesToRemove), true⟩

/-- `processRemoveRequest`. -/
def removeFsTreeEntry (path : FsPath) (isInterrupted : Bool) : SandboxReply :=
  if !checkUnlock path tree.1 then ⟨sandbox, false⟩
  else
    match FsEntry.getEntryPtr path tree.1 with
    | none => ⟨sandbox, false⟩
    | some entry =>
        let filesToRemove := sandbox.obtainUnusedFiles entry
        { sandbox with
          callManagedHashes := sandbox.callManagedHashes \ filesToRemove
          upperSandboxFsTree := some ((tree.removeFlat path).getD tree) }.removeUnusedFiles
            filesToRemove isInterrupted

def overwrittenFiles (destination : FsPath) : Finset InfoHash :=
  match FsEntry.getEntryPtr destination tree.1 with
  | some entry => sandbox.obtainUnusedFiles entry
  | none => ∅

def moveFsTreeEntry (source destination : FsPath) (isInterrupted : Bool) : SandboxReply :=
  if !checkUnlock source tree.1 || !checkUnlock destination tree.1 then ⟨sandbox, false⟩
  else
    let filesToRemove := sandbox.overwrittenFiles tree destination
    let forgotten :=
      { sandbox with callManagedHashes := sandbox.callManagedHashes \ filesToRemove }
    match tree.moveFlat sandbox.nextNode source destination with
    | .failed => ⟨forgotten, false⟩
    | .undefined => ⟨{ forgotten with fault := some .undefinedBehaviour }, false⟩
    | .moved moved =>
        { forgotten with
          upperSandboxFsTree := some moved
          nextNode := sandbox.nextNode + destination.elements.length }.removeUnusedFiles
            filesToRemove isInterrupted

/-! ## Applying -/

/-- `closeFiles`, and the iterators are cleared. -/
def closeHandles : Sandbox :=
  { sandbox with openFilesWrite := [], openFilesRead := [], folderIterators := [] }

/-- What `acceptUpperSandboxModifications` removes. -/
def replacedFiles : Finset InfoHash :=
  (uniqueFiles sandbox.lowerSandboxFsTree).filter fun hash =>
    hash ∉ uniqueFiles tree ∧ ¬ sandbox.torrentHandleMap.contains hash ∧ hash ≠ 0

/-- `acceptUpperSandboxModifications` and `onAppliedSandboxModifications`. -/
def acceptUpperSandboxModifications : Sandbox :=
  let replaced := sandbox.replacedFiles tree
  let accepted :=
    (sandbox.removeFiles replaced).subtractSize (sandbox.filesSize unknownSize replaced)
  { accepted with
    lowerSandboxFsTree := tree
    lowerSandboxFilesSize := accepted.upperSandboxFilesSize
    upperSandboxFsTree := none
    callManagedHashes := ∅ }

/-- `discardUpperSandboxModifications` and `onAppliedSandboxModifications`. -/
def discardUpperSandboxModifications : Sandbox :=
  let removed := (sandbox.removeFiles sandbox.callManagedHashes).subtractSize
    (sandbox.filesSize unknownSize sandbox.callManagedHashes)
  let discarded := { removed with upperSandboxFsTree := none }
  if discarded.fault = none ∧
      discarded.lowerSandboxFilesSize ≠ discarded.upperSandboxFilesSize then
    { discarded with fault := some .assertionFailed }
  else { discarded with upperSandboxFilesSize := 0, callManagedHashes := ∅ }

/-- `applySandboxModifications`, with what `validateSandboxState` gives. The root folder gets a
    new statistics node. -/
def applySandboxModifications (success isValid : Bool) : Sandbox :=
  let closed := { sandbox.closeHandles with nextNode := sandbox.nextNode + 1 }
  if success && isValid then
    closed.acceptUpperSandboxModifications (tree.clearStatisticsNode sandbox.nextNode)
  else closed.discardUpperSandboxModifications

/-- `computeSandboxHash`: what becomes of a modifiable file. -/
def evaluateFile (newHash : InfoHash → InfoHash) (driveFolder : InfoHash → Option Nat)
    (hash : InfoHash) : InfoHash :=
  if 0 < (driveFolder hash).getD 0 then newHash hash else 0

/-- Modifiable files are renamed after their contents, or removed if that file is there. -/
def renameFile (newHash : InfoHash → InfoHash) (driveFolder : InfoHash → Option Nat)
    (hash : InfoHash) : InfoHash → Option Nat :=
  let evaluated := evaluateFile newHash driveFolder hash
  let removed := Function.update driveFolder hash none
  if evaluated = 0 ∨ sandbox.torrentHandleMap.contains evaluated then removed
  else Function.update removed evaluated (driveFolder hash)

/-- `evaluateStorageHash`, with the hashes of the contents. No stream is open. -/
def evaluateStorageHash (newHash : InfoHash → InfoHash) : Sandbox :=
  let modifiable := (FsEntry.modifiableFiles sandbox.lowerSandboxFsTree.1)
  { sandbox with
    lowerSandboxFsTree := sandbox.lowerSandboxFsTree.mapFiles fun file isModifiable =>
      if isModifiable then
        ({ file with
          hash := evaluateFile newHash sandbox.driveFolder file.hash
          size := (sandbox.driveFolder file.hash).getD 0 }, false)
      else (file, false)
    driveFolder := modifiable.foldl (sandbox.renameFile newHash) sandbox.driveFolder }

end Sandbox

/-! ## Runs -/

/-- The requests that change the sandbox. -/
inductive SandboxQuery where
  | initiateSandboxModifications (serviceFolders : List FsPath)
  | openFile (path : FsPath) (mode : OpenFileMode) (overwrittenHash temporaryHash : InfoHash)
  | writeFile (fileId size : Nat)
  | closeFile (fileId : Nat)
  | createDirectories (path : FsPath)
  | folderIteratorCreate (path : FsPath)
  | folderIteratorDestroy (id : Nat)
  | removeFsTreeEntry (path : FsPath)
  | moveFsTreeEntry (source destination : FsPath)
  | applySandboxModifications (success isValid : Bool)
  | evaluateStorageHash (newHash : InfoHash → InfoHash)

namespace Sandbox

variable (sandbox : Sandbox)

def accept (tree : FsEntryTree) : SandboxQuery → Option Sandbox
  | .openFile path mode overwrittenHash temporaryHash =>
      some (sandbox.openFile tree path mode overwrittenHash temporaryHash)
  | .writeFile fileId size => some (sandbox.writeFile fileId size)
  | .closeFile fileId => some (sandbox.closeFile tree fileId)
  | .createDirectories path => some (sandbox.createDirectories tree path)
  | .folderIteratorCreate path => some (sandbox.folderIteratorCreate tree path)
  | .folderIteratorDestroy id => some (sandbox.folderIteratorDestroy tree id)
  | .removeFsTreeEntry path => some (sandbox.removeFsTreeEntry tree path false).sandbox
  | .moveFsTreeEntry source destination =>
      some (sandbox.moveFsTreeEntry tree source destination false).sandbox
  | .applySandboxModifications success isValid =>
      some (sandbox.applySandboxModifications tree success isValid)
  | _ => none

/-- A request. The task asserts that there is a sandbox, or that there is none. -/
def request (query : SandboxQuery) : Option Sandbox :=
  match query, sandbox.upperSandboxFsTree with
  | .initiateSandboxModifications serviceFolders, _ =>
      some (sandbox.initiateSandboxModifications serviceFolders)
  | .evaluateStorageHash newHash, none => some (sandbox.evaluateStorageHash newHash)
  | query, some tree => sandbox.accept tree query
  | _, none => none

/-- The sandbox until something goes wrong. -/
def sandboxSystem : Transition Sandbox SandboxQuery where
  step sandbox query := if sandbox.fault.isSome then none else sandbox.request query

theorem step_cases {sandbox next : Sandbox} {query : SandboxQuery}
    (step : sandboxSystem.step sandbox query = some next) : sandbox.fault = none ∧
      ((∃ serviceFolders, query = .initiateSandboxModifications serviceFolders ∧
          next = sandbox.initiateSandboxModifications serviceFolders) ∨
        (∃ newHash, query = .evaluateStorageHash newHash ∧ sandbox.upperSandboxFsTree = none ∧
          next = sandbox.evaluateStorageHash newHash) ∨
        ∃ tree, sandbox.upperSandboxFsTree = some tree ∧ sandbox.accept tree query = some next) := by
  simp only [sandboxSystem] at step
  split at step
  · cases step
  rename_i noFault
  refine ⟨Option.not_isSome_iff_eq_none.mp noFault, ?_⟩
  cases isOpen : sandbox.upperSandboxFsTree with
  | none =>
      cases query with
      | initiateSandboxModifications serviceFolders =>
          left
          exact ⟨serviceFolders, rfl, by simpa [request] using step.symm⟩
      | evaluateStorageHash newHash =>
          right
          left
          exact ⟨newHash, rfl, rfl, by simpa [request, isOpen] using step.symm⟩
      | _ =>
          simp only [request, isOpen] at step
          cases step
  | some tree =>
      cases query with
      | initiateSandboxModifications serviceFolders =>
          left
          exact ⟨serviceFolders, rfl, by simpa [request] using step.symm⟩
      | evaluateStorageHash newHash =>
          simp only [request, isOpen] at step
          cases step
      | _ =>
          simp only [request, isOpen] at step
          right
          right
          exact ⟨tree, rfl, step⟩

/-- `run`: the task starts with a copy of the committed tree. The nodes of its entries are below
    the given number. -/
def start (committed : FsEntryTree) (nextNode maxSize : Nat) (torrentHandleMap : TorrentHandleMap)
    (driveFolder : InfoHash → Option Nat) : Sandbox where
  maxSize
  torrentHandleMap
  driveFolder
  lowerSandboxFsTree := committed
  nextNode

def sampleTree : FsEntryTree := ⟨FsEntry.emptyRoot, FsEntry.isTree_emptyRoot⟩

/-- A modification of an empty drive. -/
def sampleSandbox : Sandbox := start sampleTree 1 100 ∅ fun _ => none

/-- The sandbox after a run, or as it was if the run is not possible. -/
def after (queries : List SandboxQuery) : Sandbox :=
  (sandboxSystem.exec sandbox queries).getD sandbox

theorem exec_after {sandbox : Sandbox} {queries : List SandboxQuery}
    (isPossible : (sandboxSystem.exec sandbox queries).isSome) :
    sandboxSystem.exec sandbox queries = some (sandbox.after queries) := by
  obtain ⟨next, run⟩ := Option.isSome_iff_exists.mp isPossible
  rw [after, run, Option.getD_some]

end Sandbox

end SiriusDrive
