import SiriusDrive.Sandbox.Tracking

/-! # The locks of a sandbox

A stream or an iterator blocks the node of its entry, and the counters carry the block
up to the folders above. A folder that was created together with its parent is not
linked to it, and hides what is open below it.
-/

namespace SiriusDrive.Sandbox

open FsEntry KeyedTree

variable {sandbox next : Sandbox} {tree changed : FsEntryTree} {path source destination : FsPath}

/-! ## What a lock promises -/

/-- Nothing is open in an entry, and no iterator is on a folder above it. -/
structure IsFree (sandbox : Sandbox) (tree : FsEntryTree) (path : FsPath) : Prop where
  entry (names : List String) (found : FsEntry) :
    find? (path.keys ++ names) tree.1 = some found → statisticsNode found ∉ sandbox.handles
  above (names : List String) (folder : FsEntry) :
    names <+: path.parentPath.elements → find? names tree.1 = some folder →
      isFolder folder = true → statisticsNode folder ∉ sandbox.folderIterators.map Prod.snd

/-- What is moved or removed is free. -/
def LocksSoundly (sandbox : Sandbox) : SandboxQuery → Prop
  | .removeFsTreeEntry path => ∀ tree ∈ sandbox.upperSandboxFsTree,
      (sandbox.removeFsTreeEntry tree path false).success = true → sandbox.IsFree tree path
  | .moveFsTreeEntry source destination => ∀ tree ∈ sandbox.upperSandboxFsTree,
      (sandbox.moveFsTreeEntry tree source destination false).success = true →
        sandbox.IsFree tree source ∧ sandbox.IsFree tree destination
  | _ => True

/-! ## When folders are linked -/

/-- A folder is added below one that is there, or it cannot be added. -/
def AddsLinked (numbered : FsEntryTree × Nat) (path : FsPath) : Prop :=
  (numbered.1.addFolder numbered.2 path).isSome → CreatesLinked path numbered.1.1

instance (numbered : FsEntryTree × Nat) (path : FsPath) : Decidable (AddsLinked numbered path) :=
  inferInstanceAs (Decidable (_ → _))

def AddAllLinked : List FsPath → FsEntryTree × Nat → Prop
  | [], _ => True
  | path :: paths, numbered =>
      AddsLinked numbered path ∧ AddAllLinked paths (addFolderTo numbered path)

instance decidableAddAllLinked : ∀ paths numbered, Decidable (AddAllLinked paths numbered)
  | [], _ => inferInstanceAs (Decidable True)
  | _ :: paths, numbered =>
      haveI := decidableAddAllLinked paths
      inferInstanceAs (Decidable (AddsLinked numbered _ ∧ AddAllLinked paths _))

/-- The move is refused, or makes no folder, or one below a folder that is there. -/
def MovesLinked (sandbox : Sandbox) (tree : FsEntryTree) (source destination : FsPath) : Prop :=
  checkUnlock source tree.1 = false ∨ checkUnlock destination tree.1 = false ∨
    (getEntryPtr source tree.1).isNone ∨ destination = source ∨
      (getFolderPtr destination.parentPath.elements tree.1).isSome ∨
        AddsLinked (tree, sandbox.nextNode) destination.parentPath

instance (sandbox : Sandbox) (tree : FsEntryTree) (source destination : FsPath) :
    Decidable (sandbox.MovesLinked tree source destination) :=
  inferInstanceAs (Decidable (_ ∨ _ ∨ _ ∨ _ ∨ _ ∨ _))

/-- No folder is created together with its parent. -/
def LinksFolders (sandbox : Sandbox) : SandboxQuery → Prop
  | .initiateSandboxModifications serviceFolders => AddAllLinked serviceFolders
      (sandbox.lowerSandboxFsTree.initializeStatistics sandbox.handles, sandbox.nextNode)
  | .createDirectories path => ∀ tree ∈ sandbox.upperSandboxFsTree,
      AddsLinked (tree, sandbox.nextNode) path
  | .moveFsTreeEntry source destination => ∀ tree ∈ sandbox.upperSandboxFsTree,
      sandbox.MovesLinked tree source destination
  | _ => True

instance (sandbox : Sandbox) : ∀ query, Decidable (sandbox.LinksFolders query)
  | .initiateSandboxModifications _ => inferInstanceAs (Decidable (AddAllLinked _ _))
  | .createDirectories _ => inferInstanceAs (Decidable (∀ _ ∈ _, _))
  | .moveFsTreeEntry _ _ => inferInstanceAs (Decidable (∀ _ ∈ _, _))
  | .openFile _ _ _ _ => inferInstanceAs (Decidable True)
  | .writeFile _ _ => inferInstanceAs (Decidable True)
  | .closeFile _ => inferInstanceAs (Decidable True)
  | .folderIteratorCreate _ => inferInstanceAs (Decidable True)
  | .folderIteratorDestroy _ => inferInstanceAs (Decidable True)
  | .removeFsTreeEntry _ => inferInstanceAs (Decidable True)
  | .applySandboxModifications _ _ => inferInstanceAs (Decidable True)
  | .evaluateStorageHash _ => inferInstanceAs (Decidable True)

/-! ## The lock is sound in a linked tree -/

/-- All entries of the sandbox's tree are linked. -/
def IsLinked (sandbox : Sandbox) : Prop :=
  ∀ tree, sandbox.upperSandboxFsTree = some tree → LinkedBut exemptRoot tree.1

theorem mem_passedFolders {root folder : FsEntry} {names elements : List String}
    (isPrefix : names <+: elements) (isFound : find? names root = some folder)
    (wellFormed : WellFormed root) (kind : isFolder folder = true) :
    folder ∈ passedFolders elements root := by
  induction names generalizing root elements with
  | nil =>
      cases isFound
      cases elements with
      | nil => exact List.mem_singleton.mpr rfl
      | cons => exact List.mem_cons_self
  | cons name names ih =>
      obtain ⟨rest, rfl⟩ := isPrefix
      have isFolder' := getFolderPtr_of_find? wellFormed isFound kind
      obtain ⟨child, isChild, later⟩ := Option.bind_eq_some_iff.mp isFound
      rw [getFolderPtr, isChild] at isFolder'
      rw [List.cons_append, passedFolders, isChild]
      simp only at isFolder' ⊢
      split at isFolder'
      · rename_i inner
        rw [if_pos inner]
        apply List.mem_cons_of_mem
        exact ih (List.prefix_append _ _) later (wellFormed.child (mem_of_childAt isChild))
      · cases isFolder'

theorem isFree_of_checkUnlock (tracks : tree.Tracks sandbox.nextNode sandbox.handles)
    (linked : LinkedBut exemptRoot tree.1) (unlocked : checkUnlock path tree.1 = true) : sandbox.IsFree tree path := by
  have notTop : path.keys ≠ [] := by simp [FsPath.keys]
  have iterators : sandbox.folderIterators.map Prod.snd ⊆ sandbox.handles :=
    List.subset_append_right _ _
  rw [checkUnlock] at unlocked
  split at unlocked
  · rename_i isEmpty
    have free : totalBlocks tree.1 = 0 := of_decide_eq_true unlocked
    have notRoot : path.elements ≠ ["/"] := by
      rw [isEmpty]
      decide
    have noParent : path.parentPath.elements = [] := by
      rw [FsPath.elements_parentPath notRoot, isEmpty]
      rfl
    have isKey : path.keys = [""] := by
      rw [FsPath.keys, noParent, FsPath.filename, if_neg notRoot, isEmpty]
      rfl
    constructor
    · intro names found isFound
      rw [isKey] at isFound
      obtain ⟨child, isChild, later⟩ := Option.bind_eq_some_iff.mp isFound
      have member : ("", child) ∈ tree.1.childs := mem_of_childAt isChild
      obtain ⟨inner, here⟩ := linked "" child member
      have none : totalBlocks child = 0 := by
        have sums := tracks.counts.here
        have parts := sums.sum.trans (linkedBlocks_of_childAt sums.distinct isChild)
        rw [linkedTotal, if_pos (here (by decide))] at parts
        rw [totalBlocks] at free
        omega
      have counts : Counts child := tracks.counts.child member
      exact tracks.notMem_of_totalBlocks isFound (totalBlocks_below counts inner none later)
    · intro names folder isPrefix isFound _ onIterator
      rw [noParent, List.prefix_nil] at isPrefix
      subst isPrefix
      cases isFound
      exact tracks.notMem_of_totalBlocks (find?_nil tree.1) free (iterators onIterator)
  · rw [Bool.and_eq_true] at unlocked
    obtain ⟨passed, last⟩ := unlocked
    constructor
    · intro names found isFound
      have parts := isFound
      rw [find?_append] at parts
      obtain ⟨entry, isEntry, later⟩ := Option.bind_eq_some_iff.mp parts
      rw [getEntryPtr_of_find? tree.2.wellFormed isEntry] at last
      have free : totalBlocks entry = 0 := of_decide_eq_true last
      have counts : Counts entry := tracks.counts.found isEntry
      exact tracks.notMem_of_totalBlocks isFound
        (totalBlocks_below counts (linked.found notTop isEntry) free later)
    · intro names folder isPrefix isFound kind onIterator
      have member := mem_passedFolders isPrefix isFound tree.2.wellFormed kind
      have free := of_decide_eq_true (List.all_eq_true.mp passed folder member)
      exact tracks.notMem_of_blocks isFound free (iterators onIterator)

theorem locksSoundly_of_isLinked (tracked : sandbox.Tracked) (linked : sandbox.IsLinked)
    (query : SandboxQuery) :
    sandbox.LocksSoundly query := by
  cases query with
  | removeFsTreeEntry path =>
      intro tree isOpen success
      apply isFree_of_checkUnlock (tracked.upper tree isOpen) (linked tree isOpen)
      rw [removeFsTreeEntry] at success
      split at success
      · cases success
      · rename_i unlocked
        simpa using unlocked
  | moveFsTreeEntry source destination =>
      intro tree isOpen success
      rw [moveFsTreeEntry] at success
      split at success
      · cases success
      · rename_i unlocked
        rw [Bool.or_eq_true, not_or, Bool.not_eq_true', Bool.not_eq_true', Bool.not_eq_false,
          Bool.not_eq_false] at unlocked
        have free : ∀ path, checkUnlock path tree.1 = true → sandbox.IsFree tree path := by
          intro path
          exact isFree_of_checkUnlock (tracked.upper tree isOpen) (linked tree isOpen)
        exact ⟨free source unlocked.1, free destination unlocked.2⟩
  | initiateSandboxModifications => trivial
  | openFile => trivial
  | writeFile => trivial
  | closeFile => trivial
  | createDirectories => trivial
  | folderIteratorCreate => trivial
  | folderIteratorDestroy => trivial
  | applySandboxModifications => trivial
  | evaluateStorageHash => trivial

/-! ## Entries stay linked -/

theorem IsLinked.frame (linked : sandbox.IsLinked)
    (same : next.upperSandboxFsTree = sandbox.upperSandboxFsTree) : next.IsLinked := by
  intro tree isOpen
  exact linked tree (same.symm.trans isOpen)

theorem isLinked_of_upper (upper : next.upperSandboxFsTree = some tree)
    (linked : LinkedBut exemptRoot tree.1) : next.IsLinked := by
  intro other isOther
  cases upper.symm.trans isOther
  exact linked

theorem isLinked_of_closed (closed : next.upperSandboxFsTree = none) : next.IsLinked := by
  intro tree isOpen
  cases closed.symm.trans isOpen

theorem IsLinked.subtractSize (linked : sandbox.IsLinked) (size : Nat) :
    (sandbox.subtractSize size).IsLinked := by
  obtain ⟨filesSize, fault, isNext⟩ := sandbox.subtractSize_cases size
  rw [isNext]
  exact linked.frame rfl

theorem IsLinked.removeUnusedFiles (linked : sandbox.IsLinked) (hashes : Finset InfoHash)
    (isInterrupted : Bool) :
    (sandbox.removeUnusedFiles hashes isInterrupted).sandbox.IsLinked := by
  have removed : (sandbox.removeFiles hashes).IsLinked := linked.frame rfl
  cases isInterrupted with
  | true => exact removed
  | false => exact removed.subtractSize _

theorem linkedBut_addFolderTo {numbered : FsEntryTree × Nat} {path : FsPath}
    (linked : LinkedBut exemptRoot numbered.1.1) (links : AddsLinked numbered path) :
    LinkedBut exemptRoot (addFolderTo numbered path).1.1 := by
  rw [addFolderTo]
  cases isAdded : numbered.1.addFolder numbered.2 path with
  | none => exact linked
  | some added =>
      have known := links (Option.isSome_of_eq_some isAdded)
      exact linked.addFolder known (FsEntryTree.some_of_attachWith isAdded)

theorem linkedBut_addFolders (paths : List FsPath) {numbered : FsEntryTree × Nat}
    (linked : LinkedBut exemptRoot numbered.1.1) (links : AddAllLinked paths numbered) :
    LinkedBut exemptRoot (paths.foldl addFolderTo numbered).1.1 := by
  induction paths generalizing numbered with
  | nil => exact linked
  | cons path paths ih => exact ih (linkedBut_addFolderTo linked links.1) links.2

theorem linkedBut_removeFlat (linked : LinkedBut exemptRoot tree.1)
    (removed : tree.removeFlat path = some changed) : LinkedBut exemptRoot changed.1 := by
  obtain ⟨entry, _, same⟩ := Option.map_eq_some_iff.mp (FsEntryTree.some_of_attachWith removed)
  rw [← same]
  exact linked.detach _ _

theorem linkedBut_manageFile {temporaryHash : InfoHash} (linked : LinkedBut exemptRoot tree.1)
    (isFolder : (getFolderPtr path.parentPath.elements tree.1).isSome)
    (managed : sandbox.manageFile tree path temporaryHash = some (changed, next)) :
    LinkedBut exemptRoot changed.1 ∧
      (getFolderPtr path.parentPath.elements changed.1).isSome := by
  obtain ⟨added, isAdded, same⟩ := Option.map_eq_some_iff.mp managed
  cases same
  refine ⟨?_, (FsEntryTree.find?_addModifiableFile isFolder isAdded).1⟩
  rw [FsEntryTree.addModifiableFile_eq isFolder isAdded]
  exact linked.put _ _ (allLinked_leaf _)

theorem linkedBut_prepareWriting {overwrittenHash temporaryHash : InfoHash}
    (linked : LinkedBut exemptRoot tree.1)
    (isFolder : (getFolderPtr path.parentPath.elements tree.1).isSome)
    (prepared : sandbox.prepareWriting tree path overwrittenHash temporaryHash =
      some (changed, next)) : LinkedBut exemptRoot changed.1 := by
  rw [prepareWriting] at prepared
  split at prepared
  · split at prepared
    · split at prepared
      · cases prepared
        exact linked
      · obtain ⟨removed, isRemoved, managed⟩ := Option.bind_eq_some_iff.mp prepared
        have isThere := (FsEntryTree.find?_removeFlat isRemoved).1
        exact (linkedBut_manageFile (linkedBut_removeFlat linked isRemoved) isThere managed).1
    · cases prepared
  · obtain ⟨⟨added, numbered⟩, isAdded, managed⟩ := Option.bind_eq_some_iff.mp prepared
    obtain ⟨first, isThere⟩ := linkedBut_manageFile linked isFolder isAdded
    exact (linkedBut_manageFile first isThere managed).1

theorem IsLinked.openForWriting (linked : sandbox.IsLinked)
    (isLinked : LinkedBut exemptRoot tree.1) (fileId : Nat) (path : FsPath) :
    (sandbox.openForWriting tree fileId path).IsLinked := by
  rw [Sandbox.openForWriting]
  split
  · split
    · apply IsLinked.subtractSize
      exact isLinked_of_upper rfl (isLinked.changeBlocks _ _)
    · exact linked.frame rfl
  · exact linked.frame rfl

theorem IsLinked.openFile (linked : sandbox.IsLinked)
    (isOpen : sandbox.upperSandboxFsTree = some tree) (path : FsPath) (mode : OpenFileMode)
    (overwrittenHash temporaryHash : InfoHash) :
    (sandbox.openFile tree path mode overwrittenHash temporaryHash).IsLinked := by
  have counted : { sandbox with totalFilesOpened := sandbox.totalFilesOpened + 1 }.IsLinked :=
    linked.frame rfl
  simp only [Sandbox.openFile]
  split
  · exact counted
  · rename_i unlocked
    rw [Bool.or_eq_true, not_or] at unlocked
    have isFolder : (getFolderPtr path.parentPath.elements tree.1).isSome := by
      rw [Option.isSome_iff_ne_none]
      simpa using unlocked.1
    cases mode with
    | read =>
        simp only
        split
        · split
          · rw [openForReading]
            split
            · exact isLinked_of_upper rfl ((linked tree isOpen).changeBlocks _ _)
            · exact counted
          · exact counted
        · exact counted
    | write =>
        simp only
        split
        · rename_i prepared next isPrepared
          have later := linkedBut_prepareWriting (linked tree isOpen) isFolder isPrepared
          have numbered : next.IsLinked := by
            obtain ⟨managed, bound, isNext⟩ := prepareWriting_next isPrepared
            rw [isNext]
            exact counted.frame rfl
          exact numbered.openForWriting later _ _
        · exact counted

theorem IsLinked.closeFile (linked : sandbox.IsLinked)
    (isOpen : sandbox.upperSandboxFsTree = some tree) (fileId : Nat) :
    (sandbox.closeFile tree fileId).IsLinked := by
  rw [Sandbox.closeFile]
  split
  · exact isLinked_of_upper rfl ((linked tree isOpen).changeBlocks _ _)
  · split
    · exact isLinked_of_upper rfl ((linked tree isOpen).changeBlocks _ _)
    · exact linked

theorem IsLinked.writeFile (linked : sandbox.IsLinked) (fileId size : Nat) :
    (sandbox.writeFile fileId size).IsLinked := by
  rw [Sandbox.writeFile]
  split
  · split
    · exact linked
    · exact linked.frame rfl
  · exact linked

theorem IsLinked.folderIteratorCreate (linked : sandbox.IsLinked)
    (isOpen : sandbox.upperSandboxFsTree = some tree) (path : FsPath) :
    (sandbox.folderIteratorCreate tree path).IsLinked := by
  rw [Sandbox.folderIteratorCreate]
  split
  · split
    · exact isLinked_of_upper rfl ((linked tree isOpen).changeBlocks _ _)
    · exact linked
  · exact linked

theorem IsLinked.folderIteratorDestroy (linked : sandbox.IsLinked)
    (isOpen : sandbox.upperSandboxFsTree = some tree) (id : Nat) :
    (sandbox.folderIteratorDestroy tree id).IsLinked := by
  rw [Sandbox.folderIteratorDestroy]
  split
  · exact isLinked_of_upper rfl ((linked tree isOpen).changeBlocks _ _)
  · exact linked

theorem IsLinked.removeFsTreeEntry (linked : sandbox.IsLinked)
    (isOpen : sandbox.upperSandboxFsTree = some tree) (path : FsPath) (isInterrupted : Bool) :
    (sandbox.removeFsTreeEntry tree path isInterrupted).sandbox.IsLinked := by
  rw [Sandbox.removeFsTreeEntry]
  split
  · exact linked
  · split
    · exact linked
    · apply IsLinked.removeUnusedFiles
      cases isRemoved : tree.removeFlat path with
      | none => exact linked.frame isOpen.symm
      | some removed => exact isLinked_of_upper rfl (linkedBut_removeFlat (linked tree isOpen) isRemoved)

theorem IsLinked.moveFsTreeEntry (linked : sandbox.IsLinked)
    (isOpen : sandbox.upperSandboxFsTree = some tree)
    (links : sandbox.MovesLinked tree source destination) (isInterrupted : Bool) :
    (sandbox.moveFsTreeEntry tree source destination isInterrupted).sandbox.IsLinked := by
  have here := linked tree isOpen
  rw [Sandbox.moveFsTreeEntry]
  split
  · exact linked
  · rename_i unlocked
    rw [Bool.or_eq_true, not_or, Bool.not_eq_true', Bool.not_eq_true', Bool.not_eq_false,
      Bool.not_eq_false] at unlocked
    rcases tree.moves_moveFlat sandbox.nextNode source destination with
      ⟨isFailed, _⟩ | ⟨isUndefined, _⟩ | ⟨moved, isMoved, moves⟩
    · rw [isFailed]
      exact linked.frame rfl
    · rw [isUndefined]
      exact linked.frame rfl
    · rw [isMoved]
      apply IsLinked.removeUnusedFiles
      refine isLinked_of_upper rfl (here.moveFlat ?_ moves)
      intro isSource differ isPrepared
      rcases links with locked | locked | missing | same | isThere | links
      · cases locked.symm.trans unlocked.1
      · cases locked.symm.trans unlocked.2
      · rw [Option.isNone_iff_eq_none.mp missing] at isSource
        cases isSource
      · exact absurd same differ
      · exact .inl isThere
      · rw [prepareParent] at isPrepared
        split at isPrepared
        · exact .inl (by assumption)
        · right
          apply links
          rw [FsEntryTree.addFolder, Option.isSome_attachWith]
          exact isPrepared

theorem IsLinked.applySandboxModifications (sandbox : Sandbox) (tree : FsEntryTree)
    (success isValid : Bool) :
    (sandbox.applySandboxModifications tree success isValid).IsLinked := by
  apply isLinked_of_closed
  rw [Sandbox.applySandboxModifications]
  split
  · rfl
  · simp only [discardUpperSandboxModifications]
    split <;> rfl

/-- The requests that link the folders they create leave no hidden entries. -/
theorem IsLinked.step {query : SandboxQuery} (linked : sandbox.IsLinked)
    (links : sandbox.LinksFolders query)
    (step : sandboxSystem.step sandbox query = some next) : next.IsLinked := by
  obtain ⟨_, ⟨serviceFolders, rfl, rfl⟩ | ⟨_, _, closed, rfl⟩ | ⟨tree, isOpen, accepted⟩⟩ :=
    step_cases step
  · refine isLinked_of_upper rfl (linkedBut_addFolders serviceFolders ?_ links)
    exact linkedBut_of_allLinked (allLinked_initializeStatistics _ _)
  · exact isLinked_of_closed closed
  · cases query with
    | openFile => cases accepted; exact linked.openFile isOpen _ _ _ _
    | writeFile => cases accepted; exact linked.writeFile _ _
    | closeFile => cases accepted; exact linked.closeFile isOpen _
    | createDirectories path =>
        cases accepted
        exact isLinked_of_upper rfl (linkedBut_addFolderTo (linked tree isOpen) (links tree isOpen))
    | folderIteratorCreate => cases accepted; exact linked.folderIteratorCreate isOpen _
    | folderIteratorDestroy => cases accepted; exact linked.folderIteratorDestroy isOpen _
    | removeFsTreeEntry => cases accepted; exact linked.removeFsTreeEntry isOpen _ _
    | moveFsTreeEntry => cases accepted; exact linked.moveFsTreeEntry isOpen (links tree isOpen) _
    | applySandboxModifications => cases accepted; exact IsLinked.applySandboxModifications _ _ _ _
    | initiateSandboxModifications => cases accepted
    | evaluateStorageHash => cases accepted

/-! ## Runs -/

/-- As long as no folder is created together with its parent, only what is free is moved or
    removed. -/
theorem locks_soundly (committed : FsEntryTree) (nextNode : Nat)
    (own : HasOwnNodes committed nextNode) (maxSize : Nat) (torrentHandleMap : TorrentHandleMap)
    (driveFolder : InfoHash → Option Nat) (queries : List SandboxQuery)
    (links : sandboxSystem.Meets LinksFolders
      (start committed nextNode maxSize torrentHandleMap driveFolder) queries) :
    sandboxSystem.Meets LocksSoundly
      (start committed nextNode maxSize torrentHandleMap driveFolder) queries := by
  apply @Transition.Meets.of_invariant _ _ _ _ _ (fun sandbox => sandbox.Tracked ∧ sandbox.IsLinked)
    _ _ _ _ _ links
  · intro sandbox query invariant _
    exact locksSoundly_of_isLinked invariant.1 invariant.2 query
  · intro sandbox query next invariant met step
    exact ⟨invariant.1.step step, invariant.2.step met step⟩
  · exact ⟨tracked_start own maxSize torrentHandleMap driveFolder, isLinked_of_closed rfl⟩

def folderPath : FsPath := .single "folder" (by decide)

def untilRemoved : List SandboxQuery :=
  [.initiateSandboxModifications [], .createDirectories folderPath, .folderIteratorCreate folderPath,
    .removeFsTreeEntry folderPath]

theorem sampleSandbox_locks : sandboxSystem.Meets LocksSoundly sampleSandbox untilRemoved := by
  apply locks_soundly sampleTree 1
  · constructor <;> decide
  · decide +kernel

/-- The folder is two levels below one that is not there. -/
def nestedPath : FsPath where
  elements := ["folder", "middle", "inner"]
  noEmptyInside := by decide
  notOnlyEmpty := by decide
  notEmptyInRoot := by decide

def untilNestedIterator : List SandboxQuery :=
  [.initiateSandboxModifications [], .createDirectories nestedPath, .folderIteratorCreate nestedPath]

def nestedSandbox : Sandbox := sampleSandbox.after untilNestedIterator

def nestedTree : FsEntryTree := nestedSandbox.upperSandboxFsTree.get (by decide +kernel)

def nestedFolder : FsEntry :=
  (find? (folderPath.keys ++ ["middle", "inner"]) nestedTree.1).get (by decide +kernel)

/-- A folder is removed although there is an iterator below it. -/
theorem nestedIterator_unlocked : ¬ ∀ (committed : FsEntryTree) (nextNode maxSize : Nat)
    (torrentHandleMap : TorrentHandleMap) (driveFolder : InfoHash → Option Nat)
    (queries : List SandboxQuery), HasOwnNodes committed nextNode →
      sandboxSystem.Meets LocksSoundly
        (start committed nextNode maxSize torrentHandleMap driveFolder) queries := by
  intro all
  have sound := all sampleTree 1 100 ∅ (fun _ => none)
    (untilNestedIterator ++ [.removeFsTreeEntry folderPath]) (by constructor <;> decide)
  have isOpen : nestedSandbox.upperSandboxFsTree = some nestedTree := (Option.some_get _).symm
  have success : (nestedSandbox.removeFsTreeEntry nestedTree folderPath false).success = true := by
    decide +kernel
  have free := sound.last (exec_after (by decide +kernel)) nestedTree isOpen success
  have onFolder : statisticsNode nestedFolder ∈ nestedSandbox.handles := by decide +kernel
  exact free.entry ["middle", "inner"] nestedFolder (Option.some_get _).symm onFolder

end SiriusDrive.Sandbox
