import SiriusDrive.Lib.StoredTotal
import SiriusDrive.FsTree.FileStates
import SiriusDrive.Sandbox.Moves
import SiriusDrive.Sandbox.Tracking

/-! # The sizes of a sandbox

What the task has written of its own files is what the sandbox is larger by. The task
must not forget a file it has created, nor write to one that it has removed.
-/

namespace SiriusDrive

open FsEntry

namespace FsEntry

def MoveResult.isMoved {τ : Type} (result : MoveResult τ) : Bool :=
  match result with
  | .moved _ => true
  | .failed => false
  | .undefined => false

end FsEntry

namespace Sandbox

open KeyedTree

variable {sandbox next : Sandbox} {tree changed moved : FsEntryTree} {path source destination : FsPath}

/-! ## The balance -/

/-- The size of the files that the call has created. -/
def managedSize (sandbox : Sandbox) : Nat :=
  storedTotal sandbox.driveFolder sandbox.callManagedHashes

/-- The sandbox is larger by what the call has created. -/
def Balanced (sandbox : Sandbox) : Prop :=
  sandbox.upperSandboxFilesSize = sandbox.lowerSandboxFilesSize + sandbox.managedSize

instance (sandbox : Sandbox) : Decidable sandbox.Balanced :=
  inferInstanceAs (Decidable (_ = _))

/-- While a sandbox is open it is balanced, and no assertion about the sizes has failed. -/
structure KeepsBalance (sandbox : Sandbox) : Prop where
  asserted : sandbox.fault ≠ some .assertionFailed
  balanced : sandbox.upperSandboxFsTree.isSome → sandbox.Balanced

instance (sandbox : Sandbox) : Decidable sandbox.KeepsBalance :=
  decidable_of_iff (sandbox.fault ≠ some .assertionFailed ∧
    (sandbox.upperSandboxFsTree.isSome → sandbox.Balanced))
    ⟨fun ⟨asserted, balanced⟩ => ⟨asserted, balanced⟩, fun keeps => ⟨keeps.asserted, keeps.balanced⟩⟩

/-! ## When the balance is kept -/

/-- A random hash that is not in use. -/
structure IsNew (sandbox : Sandbox) (hash : InfoHash) : Prop where
  notStored : sandbox.driveFolder hash = none
  notZero : hash ≠ 0
  noTorrent : sandbox.torrentHandleMap.contains hash = false
  notCommitted : hash ∉ uniqueFiles sandbox.lowerSandboxFsTree

instance (sandbox : Sandbox) (hash : InfoHash) : Decidable (sandbox.IsNew hash) :=
  decidable_of_iff (sandbox.driveFolder hash = none ∧ hash ≠ 0 ∧
    sandbox.torrentHandleMap.contains hash = false ∧
      hash ∉ uniqueFiles sandbox.lowerSandboxFsTree)
    ⟨fun ⟨notStored, notZero, noTorrent, notCommitted⟩ =>
      ⟨notStored, notZero, noTorrent, notCommitted⟩,
    fun isNew => ⟨isNew.notStored, isNew.notZero, isNew.noTorrent, isNew.notCommitted⟩⟩

/-- A move that would remove files of the call is made, and not onto the entry itself. -/
def MovesManaged (sandbox : Sandbox) (tree : FsEntryTree) (source destination : FsPath) : Prop :=
  sandbox.overwrittenFiles tree destination = ∅ ∨ checkUnlock source tree.1 = false ∨
    checkUnlock destination tree.1 = false ∨ (destination ≠ source ∧
      (tree.moveFlat sandbox.nextNode source destination).isMoved = true)

instance (sandbox : Sandbox) (tree : FsEntryTree) (source destination : FsPath) :
    Decidable (sandbox.MovesManaged tree source destination) :=
  inferInstanceAs (Decidable (_ ∨ _ ∨ _ ∨ _))

/-- What is written goes to a file of the call, and is not counted beyond 64 bits. -/
def WritesManaged (sandbox : Sandbox) (fileId size : Nat) : Prop :=
  ∀ opened ∈ sandbox.openFilesWrite.find? (·.1 = fileId),
    sandbox.maxSize < u64 (sandbox.upperSandboxFilesSize + size) ∨
      (opened.2.hash.isSome ∧ sandbox.upperSandboxFilesSize + size < 2 ^ 64)

instance (sandbox : Sandbox) (fileId size : Nat) : Decidable (sandbox.WritesManaged fileId size) :=
  inferInstanceAs (Decidable (∀ _ ∈ _, _))

/-- Random hashes are new, and no hash of a file's contents is one of them. -/
def TakesNewHashes (sandbox : Sandbox) : SandboxQuery → Prop
  | .openFile _ mode _ temporaryHash => mode = .write → sandbox.IsNew temporaryHash
  | .evaluateStorageHash newHash => ∀ hash ∈ modifiableFiles sandbox.lowerSandboxFsTree.1,
      newHash hash ∉ modifiableFiles sandbox.lowerSandboxFsTree.1
  | _ => True

instance (sandbox : Sandbox) : ∀ query, Decidable (sandbox.TakesNewHashes query)
  | .openFile _ _ _ _ => inferInstanceAs (Decidable (_ → _))
  | .evaluateStorageHash _ => inferInstanceAs (Decidable (∀ _ ∈ _, _))
  | .initiateSandboxModifications _ => inferInstanceAs (Decidable True)
  | .writeFile _ _ => inferInstanceAs (Decidable True)
  | .closeFile _ => inferInstanceAs (Decidable True)
  | .createDirectories _ => inferInstanceAs (Decidable True)
  | .folderIteratorCreate _ => inferInstanceAs (Decidable True)
  | .folderIteratorDestroy _ => inferInstanceAs (Decidable True)
  | .removeFsTreeEntry _ => inferInstanceAs (Decidable True)
  | .moveFsTreeEntry _ _ => inferInstanceAs (Decidable True)
  | .applySandboxModifications _ _ => inferInstanceAs (Decidable True)

/-- The requests that forget no file of the call. -/
def KeepsManaged (sandbox : Sandbox) : SandboxQuery → Prop
  | .initiateSandboxModifications _ => sandbox.callManagedHashes = ∅
  | .writeFile fileId size => sandbox.WritesManaged fileId size
  | .moveFsTreeEntry source destination => ∀ tree ∈ sandbox.upperSandboxFsTree,
      sandbox.MovesManaged tree source destination
  | _ => True

instance (sandbox : Sandbox) : ∀ query, Decidable (sandbox.KeepsManaged query)
  | .initiateSandboxModifications _ => inferInstanceAs (Decidable (_ = _))
  | .writeFile _ _ => inferInstanceAs (Decidable (sandbox.WritesManaged _ _))
  | .moveFsTreeEntry _ _ => inferInstanceAs (Decidable (∀ _ ∈ _, _))
  | .openFile _ _ _ _ => inferInstanceAs (Decidable True)
  | .closeFile _ => inferInstanceAs (Decidable True)
  | .createDirectories _ => inferInstanceAs (Decidable True)
  | .folderIteratorCreate _ => inferInstanceAs (Decidable True)
  | .folderIteratorDestroy _ => inferInstanceAs (Decidable True)
  | .removeFsTreeEntry _ => inferInstanceAs (Decidable True)
  | .applySandboxModifications _ _ => inferInstanceAs (Decidable True)
  | .evaluateStorageHash _ => inferInstanceAs (Decidable True)

/-- A sandbox that is discarded started without accepted files. -/
def DiscardsAtZero (sandbox : Sandbox) : SandboxQuery → Prop
  | .applySandboxModifications success isValid =>
      sandbox.fault = none → sandbox.upperSandboxFsTree.isSome → (success && isValid) = false →
        sandbox.lowerSandboxFilesSize = 0
  | _ => True

/-! ## The invariant -/

/-- A modifiable file is stored for the drive alone, and referred to once. -/
def ModifiableAlone (torrentHandleMap : TorrentHandleMap) (tree : FsEntryTree) : Prop :=
  ∀ state ∈ fileStates tree.1, state.isModifiable = true →
    state.hash ≠ 0 ∧ torrentHandleMap.contains state.hash = false ∧
      (getUniqueFiles tree.1).count state.hash ≤ 1

/-- The files of a tree that are stored for the drive alone. -/
def ownFiles (sandbox : Sandbox) (tree : FsEntryTree) : Finset InfoHash :=
  (uniqueFiles tree).filter fun hash => ¬ sandbox.torrentHandleMap.contains hash ∧ hash ≠ 0

/-- The sizes and files of the tree that the sandbox is made from. -/
structure LowerFits (sandbox : Sandbox) : Prop where
  stored : ∀ hash ∈ sandbox.ownFiles sandbox.lowerSandboxFsTree, (sandbox.driveFolder hash).isSome
  size : storedTotal sandbox.driveFolder (sandbox.ownFiles sandbox.lowerSandboxFsTree) ≤
    sandbox.lowerSandboxFilesSize
  small : sandbox.lowerSandboxFilesSize < 2 ^ 64
  alone : ModifiableAlone sandbox.torrentHandleMap sandbox.lowerSandboxFsTree

/-- The files that the call has created. -/
structure ManagedFits (sandbox : Sandbox) : Prop where
  stored : ∀ hash ∈ sandbox.callManagedHashes, (sandbox.driveFolder hash).isSome
  notZero : ∀ hash ∈ sandbox.callManagedHashes, hash ≠ 0
  noTorrent : ∀ hash ∈ sandbox.callManagedHashes, sandbox.torrentHandleMap.contains hash = false
  notCommitted : ∀ hash ∈ sandbox.callManagedHashes, hash ∉ uniqueFiles sandbox.lowerSandboxFsTree

/-- The streams that write. -/
structure StreamsFit (sandbox : Sandbox) : Prop where
  distinct : (sandbox.openFilesWrite.map Prod.fst).Nodup
  below : ∀ opened ∈ sandbox.openFilesWrite, opened.1 < sandbox.totalFilesOpened
  apart : sandbox.openFilesWrite.Pairwise fun one other =>
    ∀ hash, one.2.hash = some hash → other.2.hash ≠ some hash
  managed : ∀ opened ∈ sandbox.openFilesWrite, ∀ hash, opened.2.hash = some hash →
    hash ∈ sandbox.callManagedHashes ∧ sandbox.driveFolder hash = some opened.2.position

/-- The tree of the sandbox, and its size. -/
structure UpperFits (sandbox : Sandbox) (tree : FsEntryTree) : Prop where
  balanced : sandbox.Balanced
  small : sandbox.upperSandboxFilesSize < 2 ^ 64
  known : ∀ hash ∈ uniqueFiles tree,
    hash ∈ uniqueFiles sandbox.lowerSandboxFsTree ∨ hash ∈ sandbox.callManagedHashes
  managed : ∀ state ∈ fileStates tree.1, state.hash ∈ sandbox.callManagedHashes →
    state.isModifiable = true
  alone : ModifiableAlone sandbox.torrentHandleMap tree
  linked : FilesLinked tree.1
  streams : ∀ opened ∈ sandbox.openFilesWrite, ∀ state ∈ fileStates tree.1,
    opened.2.hash = some state.hash → state.node = opened.2.statisticsNode

structure Sized (sandbox : Sandbox) : Prop where
  asserted : sandbox.fault ≠ some .assertionFailed
  lower : sandbox.LowerFits
  managed : sandbox.ManagedFits
  streams : sandbox.StreamsFit
  upper : ∀ tree, sandbox.upperSandboxFsTree = some tree → sandbox.UpperFits tree
  closed : sandbox.upperSandboxFsTree = none → sandbox.callManagedHashes = ∅

/-! ## Trees with fewer files -/

theorem mem_uniqueFiles_iff {hash : InfoHash} :
    hash ∈ uniqueFiles tree ↔ hash ∈ getUniqueFiles tree.1 := List.mem_toFinset

theorem mem_uniqueFiles_of_state {state : FileState} (member : state ∈ fileStates tree.1) :
    state.hash ∈ uniqueFiles tree :=
  mem_uniqueFiles_iff.mpr (mem_getUniqueFiles.mpr ⟨state, member, rfl⟩)

theorem uniqueFiles_subset (files : (fileStates changed.1).Subperm (fileStates tree.1)) :
    uniqueFiles changed ⊆ uniqueFiles tree := by
  intro hash member
  exact mem_uniqueFiles_iff.mpr
    ((getUniqueFiles_subperm files).subset (mem_uniqueFiles_iff.mp member))

theorem ModifiableAlone.smaller {torrentHandleMap : TorrentHandleMap}
    (alone : ModifiableAlone torrentHandleMap tree)
    (files : (fileStates changed.1).Subperm (fileStates tree.1)) :
    ModifiableAlone torrentHandleMap changed := by
  intro state member modifiable
  obtain ⟨notZero, noTorrent, once⟩ := alone state (files.subset member) modifiable
  exact ⟨notZero, noTorrent, ((getUniqueFiles_subperm files).count_le _).trans once⟩

theorem UpperFits.smaller (fits : sandbox.UpperFits tree)
    (files : (fileStates changed.1).Subperm (fileStates tree.1)) (linked : FilesLinked changed.1) :
    sandbox.UpperFits changed where
  balanced := fits.balanced
  small := fits.small
  known hash member := fits.known hash (uniqueFiles_subset files member)
  managed state member := fits.managed state (files.subset member)
  alone := fits.alone.smaller files
  linked := linked
  streams opened isOpened state member := fits.streams opened isOpened state (files.subset member)

theorem UpperFits.once (fits : sandbox.UpperFits tree) {hash : InfoHash}
    (managed : hash ∈ sandbox.callManagedHashes) : (getUniqueFiles tree.1).count hash ≤ 1 := by
  by_cases member : hash ∈ getUniqueFiles tree.1
  · obtain ⟨state, isState, rfl⟩ := mem_getUniqueFiles.mp member
    exact (fits.alone state isState (fits.managed state isState managed)).2.2
  · rw [List.count_eq_zero.mpr member]
    exact Nat.zero_le 1

theorem mem_ownFiles {hash : InfoHash} : hash ∈ sandbox.ownFiles tree ↔
    hash ∈ uniqueFiles tree ∧ sandbox.torrentHandleMap.contains hash = false ∧ hash ≠ 0 := by
  rw [ownFiles, Finset.mem_filter, Bool.not_eq_true]

theorem StreamsFit.fewer (fits : sandbox.StreamsFit) {streams : List (Nat × OpenFile)}
    (fewer : streams.Sublist sandbox.openFilesWrite) {total : Nat}
    (later : sandbox.totalFilesOpened ≤ total) :
    { sandbox with openFilesWrite := streams, totalFilesOpened := total }.StreamsFit where
  distinct := fits.distinct.sublist (fewer.map Prod.fst)
  below opened member := Nat.lt_of_lt_of_le (fits.below opened (fewer.subset member)) later
  apart := fits.apart.sublist fewer
  managed opened member := fits.managed opened (fewer.subset member)

/-- What does not concern the sizes: handles, numbers, and trees with the same files. -/
theorem Sized.frame (sized : sandbox.Sized) (isOpen : sandbox.upperSandboxFsTree = some tree)
    (files : (fileStates changed.1).Subperm (fileStates tree.1)) (linked : FilesLinked changed.1)
    {streams : List (Nat × OpenFile)} (fewer : streams.Sublist sandbox.openFilesWrite)
    {total : Nat} (later : sandbox.totalFilesOpened ≤ total)
    {openFilesRead folderIterators : List (Nat × Nat)} {iterators nextNode : Nat} :
    { sandbox with
      upperSandboxFsTree := some changed
      openFilesWrite := streams
      openFilesRead
      folderIterators
      totalFilesOpened := total
      totalFolderIteratorsCreated := iterators
      nextNode }.Sized where
  asserted := sized.asserted
  lower := { sized.lower with }
  managed := { sized.managed with }
  streams := { sized.streams.fewer fewer later with }
  upper other isOther := by
    cases isOther
    have fits := (sized.upper tree isOpen).smaller files linked
    exact { fits with
      streams := fun opened member => fits.streams opened (fewer.subset member) }
  closed isClosed := by cases isClosed

/-! ## Removing files of the call -/

theorem filesSize_eq {hashes : Finset InfoHash}
    (stored : ∀ hash ∈ hashes, (sandbox.driveFolder hash).isSome)
    (small : storedTotal sandbox.driveFolder hashes < 2 ^ 64) (missing : Nat) :
    sandbox.filesSize missing hashes = storedTotal sandbox.driveFolder hashes := by
  have same : ∑ hash ∈ hashes, (sandbox.driveFolder hash).getD missing =
      storedTotal sandbox.driveFolder hashes := by
    apply Finset.sum_congr rfl
    intro hash member
    obtain ⟨size, isSize⟩ := Option.isSome_iff_exists.mp (stored hash member)
    rw [isSize, Option.getD_some, Option.getD_some]
  rw [filesSize, same, u64, Nat.mod_eq_of_lt small]

theorem unlink_hash {file : OpenFile} {hashes : Finset InfoHash} {hash : InfoHash} :
    (file.unlink hashes).hash = some hash ↔ file.hash = some hash ∧ hash ∉ hashes := by
  rw [OpenFile.unlink, Option.filter_eq_some_iff, decide_eq_true_eq]

theorem StreamsFit.unlink (fits : sandbox.StreamsFit) (removed : Finset InfoHash) :
    { sandbox.removeFiles removed with
      callManagedHashes := sandbox.callManagedHashes \ removed }.StreamsFit where
  distinct := by
    simp only [Sandbox.removeFiles, List.map_map]
    exact fits.distinct
  below opened member := by
    obtain ⟨before, isBefore, rfl⟩ := List.mem_map.mp member
    exact fits.below before isBefore
  apart := by
    apply List.Pairwise.map _ _ fits.apart
    intro one other apart hash here there
    exact apart hash (unlink_hash.mp here).1 (unlink_hash.mp there).1
  managed opened member hash isHash := by
    obtain ⟨before, isBefore, rfl⟩ := List.mem_map.mp member
    obtain ⟨linked, kept⟩ := unlink_hash.mp isHash
    obtain ⟨managed, stored⟩ := fits.managed before isBefore hash linked
    refine ⟨Finset.mem_sdiff.mpr ⟨managed, kept⟩, ?_⟩
    rw [driveFolder_removeFiles, if_neg kept]
    exact stored

theorem storedTotal_removeFiles {removed hashes : Finset InfoHash}
    (disjoint : Disjoint removed hashes) :
    storedTotal (sandbox.removeFiles removed).driveFolder hashes =
      storedTotal sandbox.driveFolder hashes := by
  apply StoredTotal.congr
  intro hash member
  rw [driveFolder_removeFiles, if_neg (Finset.disjoint_right.mp disjoint member)]

/-- The files of the call are not among those of the tree it started from. -/
theorem ManagedFits.disjoint (fits : sandbox.ManagedFits) {removed : Finset InfoHash}
    (subset : removed ⊆ sandbox.callManagedHashes) :
    Disjoint removed (sandbox.ownFiles sandbox.lowerSandboxFsTree) := by
  rw [Finset.disjoint_left]
  intro hash member isOwn
  exact fits.notCommitted hash (subset member) (mem_ownFiles.mp isOwn).1

theorem LowerFits.removeFiles (fits : sandbox.LowerFits) {removed : Finset InfoHash}
    (disjoint : Disjoint removed (sandbox.ownFiles sandbox.lowerSandboxFsTree)) :
    (sandbox.removeFiles removed).LowerFits where
  stored hash member := by
    rw [driveFolder_removeFiles, if_neg (Finset.disjoint_right.mp disjoint member)]
    exact fits.stored hash member
  size := by
    have same := @storedTotal_removeFiles sandbox _ _ disjoint
    exact same.le.trans fits.size
  small := fits.small
  alone := fits.alone

theorem ManagedFits.removeFiles (fits : sandbox.ManagedFits) (removed : Finset InfoHash) :
    { sandbox.removeFiles removed with
      callManagedHashes := sandbox.callManagedHashes \ removed }.ManagedFits where
  stored hash member := by
    obtain ⟨managed, kept⟩ := Finset.mem_sdiff.mp member
    rw [driveFolder_removeFiles, if_neg kept]
    exact fits.stored hash managed
  notZero hash member := fits.notZero hash (Finset.mem_sdiff.mp member).1
  noTorrent hash member := fits.noTorrent hash (Finset.mem_sdiff.mp member).1
  notCommitted hash member := fits.notCommitted hash (Finset.mem_sdiff.mp member).1

theorem Sized.managedSize_le (sized : sandbox.Sized) (isOpen : sandbox.upperSandboxFsTree = some tree)
    {removed : Finset InfoHash} (subset : removed ⊆ sandbox.callManagedHashes) :
    storedTotal sandbox.driveFolder removed ≤ sandbox.upperSandboxFilesSize := by
  have less : storedTotal sandbox.driveFolder removed ≤ sandbox.managedSize :=
    StoredTotal.mono subset
  have balanced := (sized.upper tree isOpen).balanced
  rw [Balanced] at balanced
  omega

theorem Sized.giveUp (sized : sandbox.Sized) (isOpen : sandbox.upperSandboxFsTree = some tree)
    (files : (fileStates changed.1).Subperm (fileStates tree.1)) (linked : FilesLinked changed.1)
    {removed : Finset InfoHash}
    (subset : removed ⊆ sandbox.callManagedHashes)
    (gone : ∀ hash ∈ removed, hash ∉ uniqueFiles changed) {nextNode : Nat} :
    ({ sandbox with
      callManagedHashes := sandbox.callManagedHashes \ removed
      upperSandboxFsTree := some changed
      nextNode }.removeUnusedFiles removed false).sandbox.Sized := by
  have fits := sized.upper tree isOpen
  have less := sized.managedSize_le isOpen subset
  have size := filesSize_eq (fun hash member => sized.managed.stored hash (subset member))
    (Nat.lt_of_le_of_lt less fits.small) 0
  have removes : ({ sandbox with
      callManagedHashes := sandbox.callManagedHashes \ removed
      upperSandboxFsTree := some changed
      nextNode }.removeUnusedFiles removed false).sandbox =
      { sandbox.removeFiles removed with
        callManagedHashes := sandbox.callManagedHashes \ removed
        upperSandboxFsTree := some changed
        upperSandboxFilesSize :=
          sandbox.upperSandboxFilesSize - storedTotal sandbox.driveFolder removed
        nextNode } := by
    rw [← size] at less ⊢
    exact subtractSize_of_le _ less
  rw [removes]
  have smaller := fits.smaller files linked
  constructor
  · exact sized.asserted
  · exact { sized.lower.removeFiles (sized.managed.disjoint subset) with }
  · exact { sized.managed.removeFiles removed with }
  · exact { sized.streams.unlink removed with }
  · intro other isOther
    cases isOther
    constructor
    · have parts := @StoredTotal.sdiff _ sandbox.driveFolder _ _ _ subset
      have kept : storedTotal (sandbox.removeFiles removed).driveFolder
          (sandbox.callManagedHashes \ removed) =
          storedTotal sandbox.driveFolder (sandbox.callManagedHashes \ removed) :=
        storedTotal_removeFiles Finset.disjoint_sdiff
      have balanced := fits.balanced
      rw [Balanced, managedSize] at balanced
      change sandbox.upperSandboxFilesSize - storedTotal sandbox.driveFolder removed =
        sandbox.lowerSandboxFilesSize + storedTotal (sandbox.removeFiles removed).driveFolder
          (sandbox.callManagedHashes \ removed)
      omega
    · exact Nat.lt_of_le_of_lt (Nat.sub_le _ _) fits.small
    · intro hash member
      rcases smaller.known hash member with committed | managed
      · exact .inl committed
      · right
        apply Finset.mem_sdiff.mpr
        exact ⟨managed, fun isRemoved => gone hash isRemoved member⟩
    · intro state member managed
      exact smaller.managed state member (Finset.mem_sdiff.mp managed).1
    · exact smaller.alone
    · exact linked
    · intro opened member state isState isHash
      obtain ⟨before, isBefore, rfl⟩ := List.mem_map.mp member
      exact smaller.streams before isBefore state isState (unlink_hash.mp isHash).1
  · intro isClosed
    cases isClosed

end Sandbox

end SiriusDrive
