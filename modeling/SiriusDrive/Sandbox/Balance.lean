import SiriusDrive.Sandbox.Applying
import SiriusDrive.Sandbox.Writing

/-! # The balance of the sizes

Along a run the sandbox is larger than what it was made from by the files of the call.
-/

namespace SiriusDrive.Sandbox

open FsEntry KeyedTree

variable {sandbox next : Sandbox} {tree moved : FsEntryTree} {source destination : FsPath}

/-! ## Other handles and directories -/

theorem Sized.closeFile (sized : sandbox.Sized) (isOpen : sandbox.upperSandboxFsTree = some tree)
    (fileId : Nat) : (sandbox.closeFile tree fileId).Sized := by
  have fits := sized.upper tree isOpen
  rw [Sandbox.closeFile]
  split
  · exact sized.frame isOpen (fileStates_changeBlocks tree.2.wellFormed _ _).subperm
      (fits.linked.changeBlocks tree.2.wellFormed _ _) (List.Sublist.refl _) (Nat.le_refl _)
  · split
    · exact sized.frame isOpen (fileStates_changeBlocks tree.2.wellFormed _ _).subperm
        (fits.linked.changeBlocks tree.2.wellFormed _ _) List.eraseP_sublist (Nat.le_refl _)
    · exact sized

theorem Sized.folderIteratorCreate (sized : sandbox.Sized)
    (isOpen : sandbox.upperSandboxFsTree = some tree) (path : FsPath) :
    (sandbox.folderIteratorCreate tree path).Sized := by
  have fits := sized.upper tree isOpen
  rw [Sandbox.folderIteratorCreate]
  split
  · split
    · exact sized.frame isOpen (fileStates_changeBlocks tree.2.wellFormed _ _).subperm
        (fits.linked.changeBlocks tree.2.wellFormed _ _) (List.Sublist.refl _) (Nat.le_refl _)
    · exact sized
  · exact sized

theorem Sized.folderIteratorDestroy (sized : sandbox.Sized)
    (isOpen : sandbox.upperSandboxFsTree = some tree) (id : Nat) :
    (sandbox.folderIteratorDestroy tree id).Sized := by
  have fits := sized.upper tree isOpen
  rw [Sandbox.folderIteratorDestroy]
  split
  · exact sized.frame isOpen (fileStates_changeBlocks tree.2.wellFormed _ _).subperm
      (fits.linked.changeBlocks tree.2.wellFormed _ _) (List.Sublist.refl _) (Nat.le_refl _)
  · exact sized

theorem files_addFolderTo (numbered : FsEntryTree × Nat) (path : FsPath) :
    (fileStates (addFolderTo numbered path).1.1).Perm (fileStates numbered.1.1) ∧
      (FilesLinked numbered.1.1 → FilesLinked (addFolderTo numbered path).1.1) := by
  rw [addFolderTo]
  cases isAdded : numbered.1.addFolder numbered.2 path with
  | none => exact ⟨List.Perm.refl _, id⟩
  | some added =>
      have added := FsEntryTree.some_of_attachWith isAdded
      constructor
      · exact fileStates_addFolder numbered.1.2 added
      · intro linked
        exact linked.addFolder numbered.1.2 added

theorem files_addFolders (paths : List FsPath) (numbered : FsEntryTree × Nat) :
    (fileStates (paths.foldl addFolderTo numbered).1.1).Perm (fileStates numbered.1.1) ∧
      (FilesLinked numbered.1.1 → FilesLinked (paths.foldl addFolderTo numbered).1.1) := by
  induction paths generalizing numbered with
  | nil => exact ⟨List.Perm.refl _, id⟩
  | cons path paths ih =>
      obtain ⟨later, linkedLater⟩ := ih (addFolderTo numbered path)
      obtain ⟨here, linkedHere⟩ := files_addFolderTo numbered path
      exact ⟨later.trans here, linkedLater ∘ linkedHere⟩

theorem Sized.createDirectories (sized : sandbox.Sized)
    (isOpen : sandbox.upperSandboxFsTree = some tree) (path : FsPath) :
    (sandbox.createDirectories tree path).Sized := by
  obtain ⟨files, linked⟩ := files_addFolderTo (tree, sandbox.nextNode) path
  exact sized.frame isOpen files.subperm (linked (sized.upper tree isOpen).linked)
    (List.Sublist.refl _) (Nat.le_refl _)

theorem Sized.initiateSandboxModifications (sized : sandbox.Sized)
    (none : sandbox.callManagedHashes = ∅) (serviceFolders : List FsPath) :
    (sandbox.initiateSandboxModifications serviceFolders).Sized := by
  have unlinked : ∀ opened ∈ sandbox.openFilesWrite, ∀ hash, opened.2.hash ≠ some hash := by
    intro opened isOpened hash linked
    have managed := (sized.streams.managed opened isOpened hash linked).1
    rw [none] at managed
    exact Finset.notMem_empty hash managed
  obtain ⟨files, linked⟩ := files_addFolders serviceFolders
    (sandbox.lowerSandboxFsTree.initializeStatistics sandbox.handles, sandbox.nextNode)
  have same : fileStates (sandbox.lowerSandboxFsTree.initializeStatistics sandbox.handles).1 =
      fileStates sandbox.lowerSandboxFsTree.1 := fileStates_initializeStatistics _ _
  have copied := files.subperm
  simp only [same] at copied
  constructor
  · exact sized.asserted
  · exact { sized.lower with }
  · exact { sized.managed with }
  · exact { sized.streams with }
  · intro tree isTree
    cases isTree
    constructor
    · change sandbox.lowerSandboxFilesSize = sandbox.lowerSandboxFilesSize +
        storedTotal sandbox.driveFolder sandbox.callManagedHashes
      rw [none, StoredTotal.empty, Nat.add_zero]
    · exact sized.lower.small
    · intro hash member
      exact .inl (uniqueFiles_subset copied member)
    · intro state _ managed
      simp only [Sandbox.initiateSandboxModifications, none] at managed
      exact absurd managed (Finset.notMem_empty _)
    · exact sized.lower.alone.smaller copied
    · apply linked
      apply FilesLinked.of_allLinked (allLinked_initializeStatistics _ _)
      intro isFile
      have isFolder := (sandbox.lowerSandboxFsTree.initializeStatistics sandbox.handles).2.isFolder
      exact absurd (isFolder.symm.trans isFile) (by decide)
    · intro opened isOpened state _ isHash
      exact absurd isHash (unlinked opened isOpened _)
  · intro isClosed
    cases isClosed

/-! ## Removing and moving -/

theorem Sized.removeFsTreeEntry (sized : sandbox.Sized)
    (isOpen : sandbox.upperSandboxFsTree = some tree) (path : FsPath) :
    (sandbox.removeFsTreeEntry tree path false).sandbox.Sized := by
  have fits := sized.upper tree isOpen
  rw [Sandbox.removeFsTreeEntry]
  split
  · exact sized
  · split
    · exact sized
    · rename_i entry isEntry
      obtain ⟨removed, isRemoved⟩ : ∃ removed, tree.removeFlat path = some removed := by
        rw [← Option.isSome_iff_exists, FsEntryTree.removeFlat, Option.isSome_attachWith,
          FsEntry.removeFlat, isEntry]
        rfl
      have parts := FsEntryTree.fileStates_removeFlat isEntry isRemoved
      simp only [isRemoved, Option.getD_some]
      apply sized.giveUp isOpen
      · exact (List.sublist_append_right _ _).subperm.trans parts.symm.subperm
      · exact FsEntryTree.filesLinked_removeFlat fits.linked isRemoved
      · exact Finset.inter_subset_right
      · intro hash member isThere
        obtain ⟨isFile, managed⟩ := Finset.mem_inter.mp member
        obtain ⟨_, _, same⟩ :=
          Option.map_eq_some_iff.mp (FsEntryTree.some_of_attachWith isRemoved)
        have gone := notMem_detached tree.2.wellFormed isEntry (fits.once managed)
          (List.mem_toFinset.mp isFile)
        rw [same] at gone
        exact gone (mem_uniqueFiles_iff.mp isThere)

theorem UpperFits.overwritten_gone (fits : sandbox.UpperFits tree) (differ : destination ≠ source)
    (moves : Moves sandbox.nextNode source destination tree.1 (.moved moved.1)) :
    ∀ hash ∈ sandbox.overwrittenFiles tree destination, hash ∉ uniqueFiles moved := by
  generalize isRoot : moved.1 = root at moves
  cases moves with
  | same _ same => exact absurd same differ
  | @intoItself prepared child isPrepared isChild _ _ inside _ =>
      intro hash member isThere
      obtain ⟨managed, names, isFile⟩ := mem_overwrittenFiles.mp member
      have proper := tree.2.prepareParent isPrepared
      have once : (getUniqueFiles prepared).count hash ≤ 1 :=
        ((getUniqueFiles_subperm (fileStates_prepareParent tree.2 isPrepared).subperm).count_le
          hash).trans (fits.once managed)
      obtain ⟨rest, below⟩ := inside.trans (List.prefix_append _ [destination.filename])
      have isInner : hash ∈ getUniqueFiles child := by
        rw [mem_getUniqueFiles_of_find? proper.wellFormed (find?_of_getEntryPtr isChild)]
        refine ⟨rest ++ names, ?_⟩
        rw [fileAt_prepareParent tree.2.isFolder isPrepared, ← List.append_assoc, below]
        exact isFile
      have gone := notMem_detached proper.wellFormed isChild once isInner
      rw [← isRoot] at gone
      exact gone (mem_uniqueFiles_iff.mp isThere)
  | elsewhere isPrepared isChild _ _ outside notAbove =>
      refine ((elsewhere_iff isPrepared isChild outside notAbove isRoot).mpr ?_).1
      rintro hash member ⟨names, elsewhere, isFile⟩
      obtain ⟨managed, _⟩ := mem_overwrittenFiles.mp member
      rw [overwrittenFiles] at member
      split at member
      · rename_i entry isEntry
        have isInner := List.mem_toFinset.mp (Finset.mem_inter.mp member).1
        apply notMem_detached tree.2.wellFormed isEntry (fits.once managed) isInner
        have detached : WellFormed (KeyedTree.modify follow (detachChild destination.filename)
            destination.parentPath.elements tree.1) := (tree.2.modify fun found _ inner =>
          inner.detachChild destination.filename).wellFormed
        rw [mem_getUniqueFiles_iff detached]
        refine ⟨names, ?_⟩
        rw [fileAt_detach isEntry, if_neg elsewhere]
        exact isFile
      · exact absurd member (Finset.notMem_empty hash)

theorem Sized.moveFsTreeEntry (sized : sandbox.Sized)
    (isOpen : sandbox.upperSandboxFsTree = some tree)
    (moves : sandbox.MovesManaged tree source destination) :
    (sandbox.moveFsTreeEntry tree source destination false).sandbox.Sized := by
  have fits := sized.upper tree isOpen
  rw [Sandbox.moveFsTreeEntry]
  split
  · exact sized
  rename_i unlocked
  rw [Bool.or_eq_true, not_or, Bool.not_eq_true', Bool.not_eq_true', Bool.not_eq_false,
    Bool.not_eq_false] at unlocked
  have made : sandbox.overwrittenFiles tree destination = ∅ ∨ (destination ≠ source ∧
      (tree.moveFlat sandbox.nextNode source destination).isMoved = true) := by
    rcases moves with none | locked | locked | made
    · exact .inl none
    · cases locked.symm.trans unlocked.1
    · cases locked.symm.trans unlocked.2
    · exact .inr made
  -- a move that is not made has forgotten nothing
  have kept : (tree.moveFlat sandbox.nextNode source destination).isMoved = false →
      sandbox.callManagedHashes \ sandbox.overwrittenFiles tree destination =
        sandbox.callManagedHashes := by
    intro notMoved
    rcases made with none | ⟨_, isMoved⟩
    · exact forgets_nothing_iff.mpr none
    · cases notMoved.symm.trans isMoved
  rcases tree.moves_moveFlat sandbox.nextNode source destination with
    ⟨isFailed, _⟩ | ⟨isUndefined, _⟩ | ⟨moved, isMoved, moves⟩
  · rw [isFailed] at kept ⊢
    simp only [kept rfl]
    exact sized
  · rw [isUndefined] at kept ⊢
    simp only [kept rfl]
    exact {
      asserted := fun failed => by cases failed
      lower := { sized.lower with }
      managed := { sized.managed with }
      streams := { sized.streams with }
      upper := fun tree isTree => { sized.upper tree isTree with }
      closed := sized.closed }
  · rw [isMoved]
    apply sized.giveUp isOpen (fileStates_moveFlat tree.2 moves) (fits.linked.moveFlat tree.2 moves)
      overwrittenFiles_subset
    rcases made with none | ⟨differ, _⟩
    · rw [none]
      intro hash member
      exact absurd member (Finset.notMem_empty hash)
    · exact fits.overwritten_gone differ moves

/-! ## Runs -/

theorem Sized.step {query : SandboxQuery} (sized : sandbox.Sized) (tracked : sandbox.Tracked)
    (new : sandbox.TakesNewHashes query) (keeps : sandbox.KeepsManaged query) (step : sandboxSystem.step sandbox query = some next) :
    next.Sized := by
  obtain ⟨_, ⟨serviceFolders, rfl, rfl⟩ | ⟨newHash, rfl, closed, rfl⟩ | ⟨tree, isOpen, accepted⟩⟩ :=
    step_cases step
  · exact sized.initiateSandboxModifications keeps serviceFolders
  · exact sized.evaluateStorageHash closed new
  · cases query with
    | openFile => cases accepted; exact sized.openFile tracked isOpen new
    | writeFile => cases accepted; exact sized.writeFile keeps
    | closeFile => cases accepted; exact sized.closeFile isOpen _
    | createDirectories => cases accepted; exact sized.createDirectories isOpen _
    | folderIteratorCreate => cases accepted; exact sized.folderIteratorCreate isOpen _
    | folderIteratorDestroy => cases accepted; exact sized.folderIteratorDestroy isOpen _
    | removeFsTreeEntry => cases accepted; exact sized.removeFsTreeEntry isOpen _
    | moveFsTreeEntry => cases accepted; exact sized.moveFsTreeEntry isOpen (keeps tree isOpen)
    | applySandboxModifications => cases accepted; exact sized.applySandboxModifications isOpen _ _
    | initiateSandboxModifications => cases accepted
    | evaluateStorageHash => cases accepted

theorem isSome_openFile (isSome : sandbox.upperSandboxFsTree.isSome) (path : FsPath)
    (mode : OpenFileMode) (overwrittenHash temporaryHash : InfoHash) :
    (sandbox.openFile tree path mode overwrittenHash temporaryHash).upperSandboxFsTree.isSome := by
  simp only [Sandbox.openFile]
  split
  · exact isSome
  · cases mode with
    | read =>
        simp only
        split
        · split
          · rw [openForReading]
            split
            · rfl
            · exact isSome
          · exact isSome
        · exact isSome
    | write =>
        simp only
        split
        · rename_i changed prepared isPrepared
          obtain ⟨managed, bound, same⟩ := prepareWriting_next isPrepared
          rw [same, Sandbox.openForWriting]
          split
          · split
            · rename_i hash _
              obtain ⟨filesSize, fault, isNext⟩ := subtractSize_cases _
                ((sandbox.driveFolder hash).getD 0)
              rw [isNext]
              rfl
            · exact isSome
          · exact isSome
        · exact isSome

theorem isSome_removeFsTreeEntry (isSome : sandbox.upperSandboxFsTree.isSome) (path : FsPath) :
    (sandbox.removeFsTreeEntry tree path false).sandbox.upperSandboxFsTree.isSome := by
  rw [Sandbox.removeFsTreeEntry]
  split
  · exact isSome
  · split
    · exact isSome
    · obtain ⟨filesSize, fault, isNext, _⟩ := @removeUnusedFiles_sandbox _ false _
      rw [isNext]
      rfl

theorem isSome_moveFsTreeEntry (isSome : sandbox.upperSandboxFsTree.isSome)
    (source destination : FsPath) :
    (sandbox.moveFsTreeEntry tree source destination false).sandbox.upperSandboxFsTree.isSome := by
  rw [Sandbox.moveFsTreeEntry]
  split
  · exact isSome
  · simp only
    split
    · exact isSome
    · exact isSome
    · obtain ⟨filesSize, fault, isNext, _⟩ := @removeUnusedFiles_sandbox _ false _
      rw [isNext]
      rfl

theorem isSome_of_accept {query : SandboxQuery} (isOpen : sandbox.upperSandboxFsTree = some tree)
    (accepted : sandbox.accept tree query = some next) :
    (∃ success isValid, query = .applySandboxModifications success isValid) ∨
      next.upperSandboxFsTree.isSome := by
  have isSome : sandbox.upperSandboxFsTree.isSome := Option.isSome_of_eq_some isOpen
  cases query with
  | applySandboxModifications success isValid =>
      left
      exact ⟨success, isValid, rfl⟩
  | initiateSandboxModifications => cases accepted
  | evaluateStorageHash => cases accepted
  | createDirectories =>
      cases accepted
      exact .inr rfl
  | openFile path mode overwrittenHash temporaryHash =>
      cases accepted
      exact .inr (isSome_openFile isSome path mode overwrittenHash temporaryHash)
  | writeFile fileId size =>
      cases accepted
      right
      rw [Sandbox.writeFile]
      split
      · split <;> exact isSome
      · exact isSome
  | closeFile fileId =>
      cases accepted
      right
      rw [Sandbox.closeFile]
      split
      · rfl
      · split
        · rfl
        · exact isSome
  | folderIteratorCreate path =>
      cases accepted
      right
      rw [Sandbox.folderIteratorCreate]
      split
      · split
        · rfl
        · exact isSome
      · exact isSome
  | folderIteratorDestroy id =>
      cases accepted
      right
      rw [Sandbox.folderIteratorDestroy]
      split
      · rfl
      · exact isSome
  | removeFsTreeEntry path =>
      cases accepted
      exact .inr (isSome_removeFsTreeEntry isSome path)
  | moveFsTreeEntry source destination =>
      cases accepted
      exact .inr (isSome_moveFsTreeEntry isSome source destination)

theorem balanced_accept (sandbox : Sandbox) (tree : FsEntryTree) :
    (sandbox.acceptUpperSandboxModifications tree).Balanced := by
  rw [Balanced, managedSize]
  change _ = _ + storedTotal _ ∅
  rw [StoredTotal.empty]
  rfl

/-- A sandbox that is discarded leaves the size of what was accepted before. -/
theorem Sized.balanced_apply_iff (sized : sandbox.Sized)
    (isOpen : sandbox.upperSandboxFsTree = some tree) (success isValid : Bool) :
    (sandbox.applySandboxModifications tree success isValid).Balanced ↔
      ((success && isValid) = false → sandbox.lowerSandboxFilesSize = 0) := by
  rw [Sandbox.applySandboxModifications]
  split
  · rename_i accepts
    apply iff_of_true (balanced_accept _ _)
    intro refused
    exact absurd (accepts.symm.trans refused) (by decide)
  · rename_i refuses
    have closed := sized.closeHandles isOpen
    have discards := (closed.discardUpperSandboxModifications rfl rfl
      sandbox.upperSandboxFsTree).1
    have same := congrArg Balanced discards
    apply (Iff.of_eq same).trans
    rw [Balanced, managedSize]
    change 0 = sandbox.lowerSandboxFilesSize + storedTotal _ ∅ ↔ _
    rw [StoredTotal.empty]
    constructor
    · intro zero _
      omega
    · intro zero
      have none := zero (Bool.eq_false_iff.mpr refuses)
      omega

/-- After a request the balance is kept unless accepted files are forgotten. -/
theorem Sized.balanced_step_iff {query : SandboxQuery} (sized : sandbox.Sized)
    (tracked : sandbox.Tracked) (balanced : sandbox.Balanced)
    (new : sandbox.TakesNewHashes query) (keeps : sandbox.KeepsManaged query)
    (step : sandboxSystem.step sandbox query = some next) :
    next.Balanced ↔ sandbox.DiscardsAtZero query := by
  have later := sized.step tracked new keeps step
  have ofOpen : next.upperSandboxFsTree.isSome → next.Balanced := by
    intro isOpen
    obtain ⟨tree, isTree⟩ := Option.isSome_iff_exists.mp isOpen
    exact (later.upper tree isTree).balanced
  obtain ⟨noFault, ⟨serviceFolders, rfl, rfl⟩ | ⟨newHash, rfl, closed, rfl⟩ |
    ⟨tree, isOpen, accepted⟩⟩ := step_cases step
  · exact iff_of_true (ofOpen rfl) trivial
  · apply iff_of_true _ trivial
    have none := sized.closed closed
    rw [Balanced, managedSize, none, StoredTotal.empty] at balanced
    rw [Balanced, managedSize]
    change sandbox.upperSandboxFilesSize =
      sandbox.lowerSandboxFilesSize + storedTotal _ sandbox.callManagedHashes
    rw [none, StoredTotal.empty]
    exact balanced
  · rcases isSome_of_accept isOpen accepted with ⟨success, isValid, rfl⟩ | isSome
    · cases accepted
      rw [sized.balanced_apply_iff isOpen]
      constructor
      · intro zero _ _
        exact zero
      · intro zero
        exact zero noFault (Option.isSome_of_eq_some isOpen)
    · apply iff_of_true (ofOpen isSome)
      cases query with
      | applySandboxModifications =>
          cases accepted
          intro _ _ refused
          have closes := (sized.balanced_apply_iff isOpen _ _).mp (ofOpen isSome)
          exact closes refused
      | _ => trivial

/-- The files of the committed tree that have contents are those of torrents, and none of them
    is modifiable. -/
structure IsShared (committed : FsEntryTree) (torrentHandleMap : TorrentHandleMap) : Prop where
  noModifiable : modifiableFiles committed.1 = []
  torrents : ∀ hash ∈ uniqueFiles committed, hash ≠ 0 → torrentHandleMap.contains hash

theorem sized_start {committed : FsEntryTree} {torrentHandleMap : TorrentHandleMap}
    (shared : IsShared committed torrentHandleMap) (nextNode maxSize : Nat)
    (driveFolder : InfoHash → Option Nat) :
    (start committed nextNode maxSize torrentHandleMap driveFolder).Sized := by
  have none : (start committed nextNode maxSize torrentHandleMap driveFolder).ownFiles committed =
      ∅ := by
    rw [Finset.eq_empty_iff_forall_notMem]
    intro hash isOwn
    obtain ⟨member, noTorrent, notZero⟩ := mem_ownFiles.mp isOwn
    have isTorrent := shared.torrents hash member notZero
    exact absurd (noTorrent.symm.trans isTorrent) (by decide)
  constructor
  · intro failed
    cases failed
  · constructor
    · intro hash isOwn
      exact absurd (none ▸ isOwn) (Finset.notMem_empty hash)
    · change storedTotal _ ((start _ _ _ _ _).ownFiles committed) ≤ 0
      rw [none]
      exact Nat.le_refl 0
    · exact Nat.two_pow_pos 64
    · intro state isState modifiable
      have member : state.hash ∈ modifiableFiles committed.1 :=
        mem_modifiableFiles.mpr ⟨state, isState, modifiable, rfl⟩
      rw [shared.noModifiable] at member
      cases member
  · exact ManagedFits.of_empty rfl
  · exact StreamsFit.of_nil rfl
  · intro tree isTree
    cases isTree
  · intro _
    rfl

/-- As long as no file of the call is forgotten, and none is written to after it was removed, an
    open sandbox is balanced. It is balanced all the time if it is only discarded when nothing
    has been accepted. -/
theorem sizes_balance (committed : FsEntryTree) (nextNode : Nat)
    (own : HasOwnNodes committed nextNode) (maxSize : Nat) (torrentHandleMap : TorrentHandleMap)
    (shared : IsShared committed torrentHandleMap) (driveFolder : InfoHash → Option Nat)
    (queries : List SandboxQuery)
    (new : sandboxSystem.Meets TakesNewHashes
      (start committed nextNode maxSize torrentHandleMap driveFolder) queries)
    (keeps : sandboxSystem.Meets KeepsManaged
      (start committed nextNode maxSize torrentHandleMap driveFolder) queries) :
    sandboxSystem.Always KeepsBalance
        (start committed nextNode maxSize torrentHandleMap driveFolder) queries ∧
      (sandboxSystem.Always Balanced
          (start committed nextNode maxSize torrentHandleMap driveFolder) queries ↔
        sandboxSystem.Meets DiscardsAtZero
          (start committed nextNode maxSize torrentHandleMap driveFolder) queries) := by
  have tracked := tracked_start own maxSize torrentHandleMap driveFolder
  have sized := sized_start shared nextNode maxSize driveFolder
  have both := new.and keeps
  constructor
  · apply @Transition.Always.of_invariant _ _ _ _ (fun sandbox => sandbox.Sized ∧ sandbox.Tracked)
      _ _ _ _ _ ⟨sized, tracked⟩ both
    · intro sandbox ⟨sized, _⟩
      refine ⟨sized.asserted, ?_⟩
      intro isOpen
      obtain ⟨tree, isTree⟩ := Option.isSome_iff_exists.mp isOpen
      exact (sized.upper tree isTree).balanced
    · intro sandbox query next ⟨sized, tracked⟩ ⟨new, keeps⟩ step
      exact ⟨sized.step tracked new keeps step, tracked.step step⟩
  · apply @Transition.always_iff_meets _ _ _ _ _
      (fun sandbox => sandbox.Sized ∧ sandbox.Tracked ∧ sandbox.Balanced) _ _ _ _ _ queries _ both
    · intro sandbox ⟨_, _, balanced⟩
      exact balanced
    · intro sandbox query next ⟨sized, tracked, balanced⟩ ⟨new, keeps⟩ atZero step
      exact ⟨sized.step tracked new keeps step, tracked.step step,
        (sized.balanced_step_iff tracked balanced new keeps step).mpr atZero⟩
    · intro sandbox query ⟨sized, tracked, balanced⟩ _ missed
      cases query with
      | applySandboxModifications success isValid =>
          rw [DiscardsAtZero, Classical.not_imp, Classical.not_imp] at missed
          obtain ⟨noFault, isOpen, missed⟩ := missed
          obtain ⟨tree, isTree⟩ := Option.isSome_iff_exists.mp isOpen
          refine ⟨sandbox.applySandboxModifications tree success isValid, ?_, ?_⟩
          · simp only [sandboxSystem, noFault, Option.isSome_none, Bool.false_eq_true, if_false,
              request, isTree, accept]
          · rw [sized.balanced_apply_iff isTree]
            exact missed
      | _ => exact absurd trivial missed
    · refine ⟨sized, tracked, ?_⟩
      rfl

theorem isShared_sampleTree : IsShared sampleTree ∅ := by
  have none : uniqueFiles sampleTree = ∅ := by decide
  constructor
  · decide
  · intro hash member
    rw [none] at member
    exact absurd member (Finset.notMem_empty hash)

/-- A file is written, moved and accepted. -/
def untilAccepted : List SandboxQuery :=
  [.initiateSandboxModifications [], .openFile writtenPath .write 1 2, .writeFile 0 7, .closeFile 0,
    .moveFsTreeEntry writtenPath otherPath, .applySandboxModifications true true]

theorem sampleSandbox_balances : sandboxSystem.Always KeepsBalance sampleSandbox untilAccepted ∧
    (sandboxSystem.Always Balanced sampleSandbox untilAccepted ↔
      sandboxSystem.Meets DiscardsAtZero sampleSandbox untilAccepted) := by
  apply sizes_balance sampleTree 1
  · constructor <;> decide
  · exact isShared_sampleTree
  · decide +kernel
  · decide +kernel

/-- The call forgets the file that it has written, and the sandbox is discarded. -/
def untilForgotten : List SandboxQuery :=
  [.initiateSandboxModifications [], .openFile writtenPath .write 1 2, .writeFile 0 7, .closeFile 0,
    .moveFsTreeEntry otherPath writtenPath, .applySandboxModifications false true]

/-- The sizes are not the same when the sandbox is discarded. -/
theorem forgottenFile_fails : ¬ ∀ (committed : FsEntryTree) (nextNode maxSize : Nat)
    (torrentHandleMap : TorrentHandleMap) (driveFolder : InfoHash → Option Nat)
    (queries : List SandboxQuery), HasOwnNodes committed nextNode →
      IsShared committed torrentHandleMap →
      sandboxSystem.Meets TakesNewHashes
        (start committed nextNode maxSize torrentHandleMap driveFolder) queries →
      sandboxSystem.Always KeepsBalance
        (start committed nextNode maxSize torrentHandleMap driveFolder) queries := by
  intro all
  have keeps := all sampleTree 1 100 ∅ (fun _ => none) untilForgotten (by constructor <;> decide)
    isShared_sampleTree (by decide +kernel)
  have fails : ¬ sandboxSystem.Always KeepsBalance sampleSandbox untilForgotten := by
    decide +kernel
  exact fails keeps

end SiriusDrive.Sandbox
