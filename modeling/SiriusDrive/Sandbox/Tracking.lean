import SiriusDrive.Sandbox
import SiriusDrive.FsTree.Nodes

/-! # Handles and nodes

Whatever is requested, the blocks of the nodes are the streams and iterators that are
open, and the counters are the sums over the linked entries.
-/

namespace SiriusDrive.Sandbox

open FsEntry KeyedTree

variable {sandbox next : Sandbox} {tree changed : FsEntryTree} {path source destination : FsPath}

/-- The nodes and counters of the sandbox's trees tell what is open. -/
structure Tracked (sandbox : Sandbox) : Prop where
  lower : OwnsNodes sandbox.nextNode (states ownBlocks sandbox.lowerSandboxFsTree.1)
  known : ∀ node ∈ sandbox.handles, node < sandbox.nextNode
  upper : ∀ tree, sandbox.upperSandboxFsTree = some tree →
    tree.Tracks sandbox.nextNode sandbox.handles

/-! ## Handles come and go -/

theorem perm_cons_eraseP {α : Type*} {p : α → Bool} {list : List α} {found : α}
    (isFound : list.find? p = some found) : list.Perm (found :: list.eraseP p) := by
  induction list with
  | nil => cases isFound
  | cons head rest ih =>
      rw [List.find?_cons] at isFound
      split at isFound
      · rename_i holds
        cases isFound
        rw [List.eraseP_cons_of_pos holds]
      · rename_i fails
        rw [List.eraseP_cons_of_neg (by simp [fails])]
        exact ((ih isFound).cons head).trans (List.Perm.swap _ _ _)

theorem Tracked.addHandle (tracked : sandbox.Tracked) {node : Nat}
    (isOpen : tree.Tracks sandbox.nextNode sandbox.handles) (isNode : node < sandbox.nextNode)
    (lower : next.lowerSandboxFsTree = sandbox.lowerSandboxFsTree)
    (same : next.nextNode = sandbox.nextNode)
    (upper : next.upperSandboxFsTree = some (tree.addBlock node))
    (perm : next.handles.Perm (node :: sandbox.handles)) : next.Tracked := by
  refine ⟨?_, ?_, ?_⟩
  · rw [lower, same]
    exact tracked.lower
  · intro other member
    rw [same]
    rcases List.mem_cons.mp (perm.mem_iff.mp member) with rfl | old
    · exact isNode
    · exact tracked.known other old
  · intro other isOther
    rw [upper] at isOther
    cases isOther
    rw [same]
    exact isOpen.addBlock perm

theorem Tracked.removeHandle (tracked : sandbox.Tracked) {node : Nat}
    (isOpen : sandbox.upperSandboxFsTree = some tree)
    (lower : next.lowerSandboxFsTree = sandbox.lowerSandboxFsTree)
    (same : next.nextNode = sandbox.nextNode)
    (upper : next.upperSandboxFsTree = some (tree.removeBlock node))
    (perm : sandbox.handles.Perm (node :: next.handles)) : next.Tracked := by
  refine ⟨?_, ?_, ?_⟩
  · rw [lower, same]
    exact tracked.lower
  · intro other member
    rw [same]
    exact tracked.known other (perm.mem_iff.mpr (List.mem_cons_of_mem _ member))
  · intro other isOther
    rw [upper] at isOther
    cases isOther
    rw [same]
    exact (tracked.upper tree isOpen).removeBlock perm

theorem Tracked.frame (tracked : sandbox.Tracked)
    (lower : next.lowerSandboxFsTree = sandbox.lowerSandboxFsTree)
    (same : next.nextNode = sandbox.nextNode)
    (upper : next.upperSandboxFsTree = sandbox.upperSandboxFsTree)
    (handles : next.handles = sandbox.handles) : next.Tracked := by
  refine ⟨?_, ?_, ?_⟩
  · rw [lower, same]
    exact tracked.lower
  · rw [handles, same]
    exact tracked.known
  · intro tree isOpen
    rw [handles, same]
    exact tracked.upper tree (upper.symm.trans isOpen)

theorem Tracked.replace (tracked : sandbox.Tracked) (bound : Nat)
    (isOpen : changed.Tracks (sandbox.nextNode + bound) sandbox.handles)
    (lower : next.lowerSandboxFsTree = sandbox.lowerSandboxFsTree)
    (grown : next.nextNode = sandbox.nextNode + bound)
    (upper : next.upperSandboxFsTree = some changed)
    (handles : next.handles = sandbox.handles) : next.Tracked := by
  refine ⟨?_, ?_, ?_⟩
  · rw [lower, grown]
    refine ⟨tracked.lower.distinct, ?_⟩
    intro state member
    exact Nat.lt_add_right bound (tracked.lower.below state member)
  · rw [handles, grown]
    intro node member
    exact Nat.lt_add_right bound (tracked.known node member)
  · intro tree isTree
    rw [upper] at isTree
    cases isTree
    rw [handles, grown]
    exact isOpen

/-! ## Sizes and files -/

theorem subtractSize_cases (sandbox : Sandbox) (size : Nat) : ∃ filesSize fault,
    sandbox.subtractSize size = { sandbox with upperSandboxFilesSize := filesSize, fault } := by
  rcases Nat.lt_or_ge sandbox.upperSandboxFilesSize size with lt | le
  · exact ⟨_, _, sandbox.subtractSize_of_lt lt⟩
  · exact ⟨_, _, sandbox.subtractSize_of_le le⟩

theorem Tracked.subtractSize (tracked : sandbox.Tracked) (size : Nat) :
    (sandbox.subtractSize size).Tracked := by
  obtain ⟨filesSize, fault, isNext⟩ := sandbox.subtractSize_cases size
  rw [isNext]
  exact tracked.frame rfl rfl rfl rfl

theorem handles_removeFiles (hashes : Finset InfoHash) :
    (sandbox.removeFiles hashes).handles = sandbox.handles := by
  rw [handles, handles, streamNodes, streamNodes, removeFiles]
  simp only [List.map_map]
  rfl

theorem Tracked.removeFiles (tracked : sandbox.Tracked) (hashes : Finset InfoHash) :
    (sandbox.removeFiles hashes).Tracked :=
  tracked.frame rfl rfl rfl (handles_removeFiles hashes)

theorem Tracked.removeUnusedFiles (tracked : sandbox.Tracked) (hashes : Finset InfoHash)
    (isInterrupted : Bool) :
    (sandbox.removeUnusedFiles hashes isInterrupted).sandbox.Tracked := by
  have removed := tracked.removeFiles hashes
  cases isInterrupted with
  | true => exact removed
  | false => exact removed.subtractSize _

/-! ## Directories -/

theorem tracks_addFolderTo {numbered : FsEntryTree × Nat} {handles : List Nat}
    (tracks : numbered.1.Tracks numbered.2 handles) (known : ∀ node ∈ handles, node < numbered.2)
    (path : FsPath) : (addFolderTo numbered path).1.Tracks (addFolderTo numbered path).2 handles := by
  rw [addFolderTo]
  cases isAdded : numbered.1.addFolder numbered.2 path with
  | none => exact tracks.mono _
  | some added => exact tracks.addFolder known isAdded

theorem tracks_addFolders (paths : List FsPath) {numbered : FsEntryTree × Nat}
    {handles : List Nat} (tracks : numbered.1.Tracks numbered.2 handles)
    (known : ∀ node ∈ handles, node < numbered.2) :
    numbered.2 ≤ (paths.foldl addFolderTo numbered).2 ∧
      (paths.foldl addFolderTo numbered).1.Tracks (paths.foldl addFolderTo numbered).2 handles := by
  induction paths generalizing numbered with
  | nil => exact ⟨Nat.le_refl _, tracks⟩
  | cons path paths ih =>
      have le : numbered.2 ≤ (addFolderTo numbered path).2 := Nat.le_add_right _ _
      obtain ⟨later, all⟩ := ih (tracks_addFolderTo tracks known path) (by
        intro node member
        exact Nat.lt_of_lt_of_le (known node member) le)
      exact ⟨Nat.le_trans le later, all⟩

theorem Tracked.initiateSandboxModifications (tracked : sandbox.Tracked)
    (serviceFolders : List FsPath) :
    (sandbox.initiateSandboxModifications serviceFolders).Tracked := by
  have start := FsEntryTree.tracks_initializeStatistics tracked.lower sandbox.handles
  obtain ⟨le, all⟩ := @tracks_addFolders serviceFolders
    (sandbox.lowerSandboxFsTree.initializeStatistics sandbox.handles, sandbox.nextNode) _ start
    tracked.known
  obtain ⟨bound, grown⟩ := Nat.exists_eq_add_of_le le
  rw [grown] at all
  exact tracked.replace bound all rfl grown rfl rfl

theorem Tracked.createDirectories (tracked : sandbox.Tracked)
    (isOpen : sandbox.upperSandboxFsTree = some tree) (path : FsPath) :
    (sandbox.createDirectories tree path).Tracked := by
  have all := @tracks_addFolderTo (tree, sandbox.nextNode) _ (tracked.upper tree isOpen)
    tracked.known path
  exact tracked.replace path.elements.length all rfl rfl rfl rfl

theorem Tracked.folderIteratorCreate (tracked : sandbox.Tracked)
    (isOpen : sandbox.upperSandboxFsTree = some tree) (path : FsPath) :
    (sandbox.folderIteratorCreate tree path).Tracked := by
  rw [Sandbox.folderIteratorCreate]
  split
  · split
    · rename_i folder isFolder
      have tracks := tracked.upper tree isOpen
      have isNode := tracks.statisticsNode_lt (find?_of_getFolderPtr isFolder)
      exact tracked.addHandle tracks isNode rfl rfl rfl List.perm_middle
    · exact tracked
  · exact tracked

theorem Tracked.folderIteratorDestroy (tracked : sandbox.Tracked)
    (isOpen : sandbox.upperSandboxFsTree = some tree) (id : Nat) :
    (sandbox.folderIteratorDestroy tree id).Tracked := by
  rw [Sandbox.folderIteratorDestroy]
  split
  · rename_i iterator isFound
    have erased := (perm_cons_eraseP isFound).map Prod.snd
    exact tracked.removeHandle isOpen rfl rfl rfl
      ((erased.append_left sandbox.streamNodes).trans List.perm_middle)
  · exact tracked

/-! ## Files -/

theorem Tracked.closeFile (tracked : sandbox.Tracked)
    (isOpen : sandbox.upperSandboxFsTree = some tree) (fileId : Nat) :
    (sandbox.closeFile tree fileId).Tracked := by
  rw [Sandbox.closeFile]
  split
  · rename_i opened isFound
    have erased := (perm_cons_eraseP isFound).map Prod.snd
    have streams := (erased.append_left (sandbox.openFilesWrite.map (·.2.statisticsNode))).trans
      List.perm_middle
    exact tracked.removeHandle isOpen rfl rfl rfl (streams.append_right _)
  · split
    · rename_i opened isFound
      have erased := (perm_cons_eraseP isFound).map (·.2.statisticsNode)
      exact tracked.removeHandle isOpen rfl rfl rfl ((erased.append_right _).append_right _)
    · exact tracked

theorem writeFile_nodes (fileId size : Nat) :
    (sandbox.openFilesWrite.map fun other =>
      if other.1 = fileId then (fileId, { other.2 with position := other.2.position + size })
      else other).map (·.2.statisticsNode) = sandbox.openFilesWrite.map (·.2.statisticsNode) := by
  rw [List.map_map]
  apply List.map_congr_left
  intro other _
  simp only [Function.comp_apply]
  split <;> rfl

theorem Tracked.openForReading (tracked : sandbox.Tracked)
    (tracks : tree.Tracks sandbox.nextNode sandbox.handles) (fileId : Nat) {entry : FsEntry}
    (isEntry : getEntryPtr path tree.1 = some entry) (hash : InfoHash) :
    (sandbox.openForReading tree fileId entry hash).Tracked := by
  rw [Sandbox.openForReading]
  split
  · have isNode := tracks.statisticsNode_lt (find?_of_getEntryPtr isEntry)
    have opened : (sandbox.openFilesWrite.map (·.2.statisticsNode) ++
        statisticsNode entry :: sandbox.openFilesRead.map Prod.snd).Perm
          (statisticsNode entry :: sandbox.streamNodes) := List.perm_middle
    exact tracked.addHandle tracks isNode rfl rfl rfl (opened.append_right _)
  · exact tracked

theorem Tracked.openForWriting (tracked : sandbox.Tracked)
    (tracks : tree.Tracks sandbox.nextNode sandbox.handles) (fileId : Nat) (path : FsPath) :
    (sandbox.openForWriting tree fileId path).Tracked := by
  rw [Sandbox.openForWriting]
  split
  · rename_i entry isEntry
    split
    · have isNode := tracks.statisticsNode_lt (find?_of_getEntryPtr isEntry)
      apply Tracked.subtractSize
      exact tracked.addHandle tracks isNode rfl rfl rfl (List.Perm.refl _)
    · exact tracked.frame rfl rfl rfl rfl
  · exact tracked.frame rfl rfl rfl rfl

theorem Tracked.writeFile (tracked : sandbox.Tracked) (fileId size : Nat) :
    (sandbox.writeFile fileId size).Tracked := by
  rw [Sandbox.writeFile]
  split
  · split
    · exact tracked
    · refine @Tracked.frame sandbox _ tracked rfl rfl rfl ?_
      simp only [handles, streamNodes, writeFile_nodes]
  · exact tracked

theorem manageFile_next {temporaryHash : InfoHash}
    (managed : sandbox.manageFile tree path temporaryHash = some (changed, next)) :
    next = { sandbox with
      callManagedHashes := insert temporaryHash sandbox.callManagedHashes
      nextNode := sandbox.nextNode + path.parentPath.elements.length + 1 } := by
  obtain ⟨added, _, same⟩ := Option.map_eq_some_iff.mp managed
  cases same
  rfl

theorem prepareWriting_next {overwrittenHash temporaryHash : InfoHash}
    (prepared : sandbox.prepareWriting tree path overwrittenHash temporaryHash =
      some (changed, next)) :
    ∃ managed bound, next = { sandbox with
      callManagedHashes := managed, nextNode := sandbox.nextNode + bound } := by
  rw [prepareWriting] at prepared
  split at prepared
  · split at prepared
    · split at prepared
      · cases prepared
        exact ⟨sandbox.callManagedHashes, 0, rfl⟩
      · obtain ⟨removed, _, managed⟩ := Option.bind_eq_some_iff.mp prepared
        refine ⟨insert temporaryHash sandbox.callManagedHashes,
          path.parentPath.elements.length + 1, ?_⟩
        rw [manageFile_next managed, Nat.add_assoc]
    · cases prepared
  · obtain ⟨⟨added, numbered⟩, isAdded, managed⟩ := Option.bind_eq_some_iff.mp prepared
    have first := manageFile_next isAdded
    subst first
    refine ⟨insert temporaryHash sandbox.callManagedHashes,
      path.parentPath.elements.length + 1 + path.parentPath.elements.length + 1, ?_⟩
    rw [manageFile_next managed]
    simp only [Nat.add_assoc]

theorem tracks_manageFile (tracks : tree.Tracks sandbox.nextNode sandbox.handles)
    (known : ∀ node ∈ sandbox.handles, node < sandbox.nextNode) {temporaryHash : InfoHash}
    (free : ∀ replaced, find? path.keys tree.1 = some replaced → linkedTotal replaced = 0)
    (managed : sandbox.manageFile tree path temporaryHash = some (changed, next)) :
    changed.Tracks next.nextNode sandbox.handles := by
  obtain ⟨added, isAdded, same⟩ := Option.map_eq_some_iff.mp managed
  cases same
  exact tracks.addModifiableFile known free isAdded

theorem tracks_prepareWriting (tracks : tree.Tracks sandbox.nextNode sandbox.handles)
    (known : ∀ node ∈ sandbox.handles, node < sandbox.nextNode)
    {overwrittenHash temporaryHash : InfoHash}
    (isFolder : (getFolderPtr path.parentPath.elements tree.1).isSome)
    (prepared : sandbox.prepareWriting tree path overwrittenHash temporaryHash =
      some (changed, next)) : changed.Tracks next.nextNode sandbox.handles := by
  rw [prepareWriting] at prepared
  split at prepared
  · split at prepared
    · split at prepared
      · cases prepared
        exact tracks
      · obtain ⟨removed, isRemoved, managed⟩ := Option.bind_eq_some_iff.mp prepared
        obtain ⟨_, gone⟩ := FsEntryTree.find?_removeFlat isRemoved
        apply tracks_manageFile (tracks.removeFlat isRemoved) known _ managed
        intro replaced isReplaced
        cases gone.symm.trans isReplaced
    · cases prepared
  · rename_i absent
    obtain ⟨⟨added, numbered⟩, isAdded, managed⟩ := Option.bind_eq_some_iff.mp prepared
    have first : added.Tracks numbered.nextNode sandbox.handles := by
      apply tracks_manageFile tracks known _ isAdded
      intro replaced isReplaced
      cases absent.symm.trans (getEntryPtr_of_find? tree.2.wellFormed isReplaced)
    have isNumbered := manageFile_next isAdded
    subst isNumbered
    obtain ⟨file, isFile, same⟩ := Option.map_eq_some_iff.mp isAdded
    cases same
    obtain ⟨_, isNew⟩ := FsEntryTree.find?_addModifiableFile isFolder isFile
    refine @tracks_manageFile
      { sandbox with nextNode := sandbox.nextNode + path.parentPath.elements.length + 1 }
      _ _ _ _ first ?_ _ ?_ managed
    · intro node member
      exact Nat.lt_succ_of_lt (Nat.lt_add_right _ (known node member))
    · intro replaced isReplaced
      cases isNew.symm.trans isReplaced
      rfl

theorem Tracked.openFile (tracked : sandbox.Tracked)
    (isOpen : sandbox.upperSandboxFsTree = some tree) (path : FsPath) (mode : OpenFileMode)
    (overwrittenHash temporaryHash : InfoHash) :
    (sandbox.openFile tree path mode overwrittenHash temporaryHash).Tracked := by
  have counted : { sandbox with totalFilesOpened := sandbox.totalFilesOpened + 1 }.Tracked :=
    tracked.frame rfl rfl rfl rfl
  have tracks := tracked.upper tree isOpen
  simp only [Sandbox.openFile]
  split
  · exact counted
  · rename_i unlocked
    rw [Bool.or_eq_true, not_or] at unlocked
    have isFolder : (getFolderPtr path.parentPath.elements tree.1).isSome := by
      rw [Option.isSome_iff_ne_none]
      simpa using unlocked.1
    cases mode with
    | read =>
        simp only
        split
        · rename_i entry isEntry
          split
          · exact counted.openForReading tracks _ isEntry _
          · exact counted
        · exact counted
    | write =>
        simp only
        split
        · rename_i prepared next isPrepared
          have later := @tracks_prepareWriting
            { sandbox with totalFilesOpened := sandbox.totalFilesOpened + 1 }
            _ _ _ _ tracks tracked.known _ _ isFolder isPrepared
          obtain ⟨managed, bound, isNext⟩ := prepareWriting_next isPrepared
          subst isNext
          have numbered : Tracked { sandbox with
              totalFilesOpened := sandbox.totalFilesOpened + 1
              callManagedHashes := managed
              nextNode := sandbox.nextNode + bound } :=
            tracked.replace bound (tracks.mono bound) rfl rfl isOpen rfl
          exact numbered.openForWriting later _ _
        · exact counted

/-! ## Removing, moving and applying -/

theorem Tracked.removeFsTreeEntry (tracked : sandbox.Tracked)
    (isOpen : sandbox.upperSandboxFsTree = some tree) (path : FsPath) (isInterrupted : Bool) :
    (sandbox.removeFsTreeEntry tree path isInterrupted).sandbox.Tracked := by
  rw [Sandbox.removeFsTreeEntry]
  split
  · exact tracked
  · split
    · exact tracked
    · apply Tracked.removeUnusedFiles
      cases isRemoved : tree.removeFlat path with
      | none => exact tracked.frame rfl rfl isOpen.symm rfl
      | some removed =>
          have tracks := (tracked.upper tree isOpen).removeFlat isRemoved
          exact tracked.replace 0 tracks rfl rfl rfl rfl

/-- An entry that is not locked adds nothing to the counter of its folder. -/
theorem linkedTotal_of_checkUnlock (counts : Counts tree.1)
    (unlocked : checkUnlock path tree.1 = true) {entry : FsEntry}
    (isEntry : getEntryPtr path tree.1 = some entry) : linkedTotal entry = 0 := by
  rw [checkUnlock] at unlocked
  split at unlocked
  · rename_i isEmpty
    have free : totalBlocks tree.1 = 0 := of_decide_eq_true unlocked
    have noParent : path.parentPath.elements = [] := by
      rw [FsPath.elements_parentPath (by simp [isEmpty]), isEmpty]
      rfl
    rw [getEntryPtr, noParent] at isEntry
    have sums := counts.here
    have parts := sums.sum.trans (linkedBlocks_of_childAt sums.distinct isEntry)
    rw [totalBlocks] at free
    omega
  · rw [Bool.and_eq_true] at unlocked
    have last := unlocked.2
    rw [isEntry] at last
    exact linkedTotal_eq_zero (of_decide_eq_true last)

theorem Tracked.moveFsTreeEntry (tracked : sandbox.Tracked)
    (isOpen : sandbox.upperSandboxFsTree = some tree) (source destination : FsPath)
    (isInterrupted : Bool) :
    (sandbox.moveFsTreeEntry tree source destination isInterrupted).sandbox.Tracked := by
  have tracks := tracked.upper tree isOpen
  rw [Sandbox.moveFsTreeEntry]
  split
  · exact tracked
  · rename_i unlocked
    rw [Bool.or_eq_true, not_or, Bool.not_eq_true', Bool.not_eq_true', Bool.not_eq_false,
      Bool.not_eq_false] at unlocked
    rcases tree.moves_moveFlat sandbox.nextNode source destination with
      ⟨isFailed, _⟩ | ⟨isUndefined, _⟩ | ⟨moved, isMoved, moves⟩
    · rw [isFailed]
      exact tracked.frame rfl rfl rfl rfl
    · rw [isUndefined]
      exact tracked.frame rfl rfl rfl rfl
    · rw [isMoved]
      apply Tracked.removeUnusedFiles
      have later := tracks.moveFlat tracked.known
        (fun _ isReplaced => linkedTotal_of_checkUnlock tracks.counts unlocked.2 isReplaced) moves
      exact tracked.replace destination.elements.length later rfl rfl rfl rfl

theorem Tracked.giveUp {bound : Nat} {committed : FsEntryTree}
    (owns : OwnsNodes bound (states ownBlocks committed.1))
    (lower : next.lowerSandboxFsTree = committed) (same : next.nextNode = bound)
    (upper : next.upperSandboxFsTree = none) (handles : next.handles = []) : next.Tracked := by
  refine ⟨?_, ?_, ?_⟩
  · rw [lower, same]
    exact owns
  · rw [handles]
    intro node member
    cases member
  · intro tree isOpen
    rw [upper] at isOpen
    cases isOpen

theorem tracked_acceptUpperSandboxModifications
    (owns : OwnsNodes sandbox.nextNode (states ownBlocks tree.1)) (closed : sandbox.handles = []) :
    (sandbox.acceptUpperSandboxModifications tree).Tracked := by
  obtain ⟨filesSize, fault, isNext⟩ := (sandbox.removeFiles (sandbox.replacedFiles tree)).subtractSize_cases
    (sandbox.filesSize unknownSize (sandbox.replacedFiles tree))
  simp only [acceptUpperSandboxModifications, isNext]
  exact Tracked.giveUp owns rfl rfl rfl ((handles_removeFiles _).trans closed)

theorem tracked_discardUpperSandboxModifications
    (owns : OwnsNodes sandbox.nextNode (states ownBlocks sandbox.lowerSandboxFsTree.1))
    (closed : sandbox.handles = []) : sandbox.discardUpperSandboxModifications.Tracked := by
  obtain ⟨filesSize, fault, isNext⟩ :=
    (sandbox.removeFiles sandbox.callManagedHashes).subtractSize_cases
      (sandbox.filesSize unknownSize sandbox.callManagedHashes)
  have none := (handles_removeFiles sandbox.callManagedHashes).trans closed
  simp only [discardUpperSandboxModifications, isNext]
  split
  · exact Tracked.giveUp owns rfl rfl rfl none
  · exact Tracked.giveUp owns rfl rfl rfl none

theorem Tracked.applySandboxModifications (tracked : sandbox.Tracked)
    (isOpen : sandbox.upperSandboxFsTree = some tree) (success isValid : Bool) :
    (sandbox.applySandboxModifications tree success isValid).Tracked := by
  have owns := (tracked.upper tree isOpen).blocks.toOwnsNodes
  simp only [Sandbox.applySandboxModifications]
  split
  · apply tracked_acceptUpperSandboxModifications
    · exact FsEntryTree.ownsNodes_clearStatisticsNode owns
    · rfl
  · apply tracked_discardUpperSandboxModifications
    · refine ⟨tracked.lower.distinct, ?_⟩
      intro state member
      exact Nat.lt_succ_of_lt (tracked.lower.below state member)
    · rfl

theorem Tracked.evaluateStorageHash (tracked : sandbox.Tracked) (newHash : InfoHash → InfoHash) :
    (sandbox.evaluateStorageHash newHash).Tracked := by
  refine ⟨?_, tracked.known, tracked.upper⟩
  have same : states ownBlocks (sandbox.evaluateStorageHash newHash).lowerSandboxFsTree.1 =
      states ownBlocks sandbox.lowerSandboxFsTree.1 := states_mapFiles _ _
  rw [same]
  exact tracked.lower

/-- Every request keeps the nodes and counters in step with what is open. -/
theorem Tracked.step {query : SandboxQuery} (tracked : sandbox.Tracked)
    (step : sandboxSystem.step sandbox query = some next) : next.Tracked := by
  obtain ⟨_, ⟨_, _, rfl⟩ | ⟨_, _, _, rfl⟩ | ⟨tree, isOpen, accepted⟩⟩ := step_cases step
  · exact tracked.initiateSandboxModifications _
  · exact tracked.evaluateStorageHash _
  · cases query with
    | openFile => cases accepted; exact tracked.openFile isOpen _ _ _ _
    | writeFile => cases accepted; exact tracked.writeFile _ _
    | closeFile => cases accepted; exact tracked.closeFile isOpen _
    | createDirectories => cases accepted; exact tracked.createDirectories isOpen _
    | folderIteratorCreate => cases accepted; exact tracked.folderIteratorCreate isOpen _
    | folderIteratorDestroy => cases accepted; exact tracked.folderIteratorDestroy isOpen _
    | removeFsTreeEntry => cases accepted; exact tracked.removeFsTreeEntry isOpen _ _
    | moveFsTreeEntry => cases accepted; exact tracked.moveFsTreeEntry isOpen _ _ _
    | applySandboxModifications => cases accepted; exact tracked.applySandboxModifications isOpen _ _
    | initiateSandboxModifications => cases accepted
    | evaluateStorageHash => cases accepted

/-! ## The start -/

/-- The nodes of a committed tree are its own, and below a number. -/
def HasOwnNodes (committed : FsEntryTree) (nextNode : Nat) : Prop :=
  OwnsNodes nextNode (states ownBlocks committed.1)

theorem tracked_start {committed : FsEntryTree} {nextNode : Nat}
    (own : HasOwnNodes committed nextNode) (maxSize : Nat) (torrentHandleMap : TorrentHandleMap)
    (driveFolder : InfoHash → Option Nat) :
    (start committed nextNode maxSize torrentHandleMap driveFolder).Tracked :=
  Tracked.giveUp own rfl rfl rfl rfl

end SiriusDrive.Sandbox
