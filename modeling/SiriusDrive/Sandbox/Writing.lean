import SiriusDrive.Sandbox.Sizes

/-! # Opening and writing

A file that is opened for writing is one that the call has created, or it becomes one.
The stream is at the end of its file, and no other stream is on it.
-/

namespace SiriusDrive.Sandbox

open FsEntry KeyedTree

variable {sandbox next : Sandbox} {tree changed : FsEntryTree} {path : FsPath}

/-! ## Writing -/

theorem StreamsFit.other (fits : sandbox.StreamsFit) {one other : Nat × OpenFile}
    (isOne : one ∈ sandbox.openFilesWrite) (isOther : other ∈ sandbox.openFilesWrite)
    (differ : one ≠ other) {hash : InfoHash} (isHash : one.2.hash = some hash) :
    other.2.hash ≠ some hash := by
  have : Std.Symm fun one other : Nat × OpenFile =>
      ∀ hash, one.2.hash = some hash → other.2.hash ≠ some hash :=
    ⟨fun _ _ apart hash there here => apart hash here there⟩
  exact fits.apart.forall isOne isOther differ hash isHash

theorem LowerFits.update (fits : sandbox.LowerFits) {hash : InfoHash}
    (notOwn : hash ∉ sandbox.ownFiles sandbox.lowerSandboxFsTree) (size : Option Nat) :
    { sandbox with driveFolder := Function.update sandbox.driveFolder hash size }.LowerFits where
  stored other isOwn := by
    have differ : other ≠ hash := fun same => notOwn (same ▸ isOwn)
    simp only [Function.update_of_ne differ]
    exact fits.stored other isOwn
  size := by
    have same := @StoredTotal.update_other _ sandbox.driveFolder _ _ _ notOwn size
    exact same.le.trans fits.size
  small := fits.small
  alone := fits.alone

theorem ManagedFits.update (fits : sandbox.ManagedFits) (hash : InfoHash) (size : Nat) :
    { sandbox with
      driveFolder := Function.update sandbox.driveFolder hash (some size) }.ManagedFits where
  stored other managed := by
    by_cases same : other = hash
    · simp only [same, Function.update_self, Option.isSome_some]
    · simp only [Function.update_of_ne same]
      exact fits.stored other managed
  notZero := fits.notZero
  noTorrent := fits.noTorrent
  notCommitted := fits.notCommitted

def advanceStream (streams : List (Nat × OpenFile)) (fileId size : Nat) : List (Nat × OpenFile) :=
  streams.map fun other =>
    if other.1 = fileId then (fileId, { other.2 with position := other.2.position + size })
    else other

theorem StreamsFit.mem_advanceStream (fits : sandbox.StreamsFit) {opened : Nat × OpenFile}
    (member : opened ∈ sandbox.openFilesWrite) {size : Nat} {later : Nat × OpenFile}
    (isLater : later ∈ advanceStream sandbox.openFilesWrite opened.1 size) :
    ∃ other ∈ sandbox.openFilesWrite, later.1 = other.1 ∧ later.2.hash = other.2.hash ∧
      later.2.statisticsNode = other.2.statisticsNode ∧
        later.2.position = other.2.position + if other = opened then size else 0 := by
  obtain ⟨other, isOther, rfl⟩ := List.mem_map.mp isLater
  refine ⟨other, isOther, ?_⟩
  by_cases same : other.1 = opened.1
  · have one : other = opened := List.inj_on_of_nodup_map fits.distinct isOther member same
    rw [if_pos same, if_pos one]
    exact ⟨same.symm, rfl, rfl, rfl⟩
  · have others : other ≠ opened := fun one => same (congrArg Prod.fst one)
    rw [if_neg same, if_neg others]
    exact ⟨rfl, rfl, rfl, rfl⟩

/-- The stream stays at the end of its file, and the others at theirs. -/
theorem StreamsFit.advance (fits : sandbox.StreamsFit) {opened : Nat × OpenFile}
    (member : opened ∈ sandbox.openFilesWrite) {hash : InfoHash}
    (isHash : opened.2.hash = some hash) (size : Nat) :
    { sandbox with
      driveFolder := Function.update sandbox.driveFolder hash (some (opened.2.position + size))
      openFilesWrite := advanceStream sandbox.openFilesWrite opened.1 size }.StreamsFit where
  distinct := by
    have ids : (advanceStream sandbox.openFilesWrite opened.1 size).map Prod.fst =
        sandbox.openFilesWrite.map Prod.fst := by
      rw [advanceStream, List.map_map]
      apply List.map_congr_left
      intro other _
      simp only [Function.comp_apply]
      split
      · exact Eq.symm (by assumption)
      · rfl
    exact ids ▸ fits.distinct
  below later isLater := by
    obtain ⟨other, isOther, id, _⟩ := fits.mem_advanceStream member isLater
    rw [id]
    exact fits.below other isOther
  apart := by
    apply List.Pairwise.map _ _ fits.apart
    intro one other apart name here there
    apply apart name
    · split at here <;> exact here
    · split at there <;> exact there
  managed later isLater name isName := by
    obtain ⟨other, isOther, _, sameHash, _, position⟩ := fits.mem_advanceStream member isLater
    rw [sameHash] at isName
    obtain ⟨isManaged, isStored⟩ := fits.managed other isOther name isName
    refine ⟨isManaged, ?_⟩
    rw [position]
    by_cases one : other = opened
    · subst one
      cases isHash.symm.trans isName
      simp only [Function.update_self, if_true]
    · have differ : name ≠ hash := by
        intro same
        rw [same] at isName
        exact fits.other member isOther (Ne.symm one) isHash isName
      simp only [Function.update_of_ne differ, if_neg one, Nat.add_zero]
      exact isStored

theorem Sized.writeFile (sized : sandbox.Sized) {fileId size : Nat}
    (writes : sandbox.WritesManaged fileId size) :
    (sandbox.writeFile fileId size).Sized := by
  rw [Sandbox.writeFile]
  split
  · rename_i opened isFound
    split
    · exact sized
    rename_i accepted
    rcases writes opened isFound with refused | ⟨linked, small⟩
    · exact absurd refused accepted
    obtain ⟨hash, isHash⟩ := Option.isSome_iff_exists.mp linked
    have member := List.mem_of_find?_eq_some isFound
    have isId : opened.1 = fileId := by simpa using List.find?_some isFound
    subst isId
    obtain ⟨managed, stored⟩ := sized.streams.managed opened member hash isHash
    have counted : u64 (sandbox.upperSandboxFilesSize + size) =
        sandbox.upperSandboxFilesSize + size := Nat.mod_eq_of_lt small
    have written : sandbox.writeStream opened.2 size =
        Function.update sandbox.driveFolder hash (some (opened.2.position + size)) := by
      rw [writeStream, isHash]
      simp only [stored, Option.getD_some, Nat.max_eq_right (Nat.le_add_right _ _)]
    rw [counted, written]
    have notOwn : hash ∉ sandbox.ownFiles sandbox.lowerSandboxFsTree := by
      intro isOwn
      exact sized.managed.notCommitted hash managed (mem_ownFiles.mp isOwn).1
    constructor
    · exact sized.asserted
    · exact { sized.lower.update notOwn (some (opened.2.position + size)) with }
    · exact { sized.managed.update hash (opened.2.position + size) with }
    · exact { sized.streams.advance member isHash size with }
    · intro changed isChanged
      have fits := sized.upper changed isChanged
      refine ⟨?_, small, fits.known, fits.managed, fits.alone, fits.linked, ?_⟩
      · have parts := @StoredTotal.update _ sandbox.driveFolder _ _ _ managed
          (opened.2.position + size)
        have balanced := fits.balanced
        rw [stored, Option.getD_some] at parts
        rw [Balanced, managedSize] at balanced
        change sandbox.upperSandboxFilesSize + size = sandbox.lowerSandboxFilesSize + storedTotal
          (Function.update sandbox.driveFolder hash (some (opened.2.position + size)))
          sandbox.callManagedHashes
        omega
      · intro later isLater state isState isName
        obtain ⟨other, isOther, _, sameHash, sameNode, _⟩ :=
          sized.streams.mem_advanceStream member isLater
        rw [sameNode]
        exact fits.streams other isOther state isState (sameHash.symm.trans isName)
    · exact sized.closed
  · exact sized

/-! ## Opening -/

/-- A file of the call that no stream is open on is opened and truncated. -/
theorem Sized.openForWriting (sized : sandbox.Sized)
    (isOpen : sandbox.upperSandboxFsTree = some tree) {entry : FsEntry} {hash : InfoHash}
    (isEntry : getEntryPtr path tree.1 = some entry) (isHash : entry.value.fileHash? = some hash)
    (managed : hash ∈ sandbox.callManagedHashes)
    (free : statisticsNode entry ∉ sandbox.streamNodes) :
    ({ sandbox with totalFilesOpened := sandbox.totalFilesOpened + 1 }.openForWriting tree
      sandbox.totalFilesOpened path).Sized := by
  have fits := sized.upper tree isOpen
  obtain ⟨isModifiable, isState⟩ := fileState?_of_fileHash? isHash
  have member := mem_fileStates_of_find? tree.2.wellFormed (find?_of_getEntryPtr isEntry) isState
  have unused : ∀ opened ∈ sandbox.openFilesWrite, opened.2.hash ≠ some hash := by
    intro opened isOpened linked
    apply free
    have node : statisticsNode entry = opened.2.statisticsNode :=
      fits.streams opened isOpened _ member linked
    rw [node]
    exact List.mem_append_left _ (List.mem_map.mpr ⟨opened, isOpened, rfl⟩)
  have part := @StoredTotal.update _ sandbox.driveFolder _ _ _ managed 0
  have less : (sandbox.driveFolder hash).getD 0 ≤ sandbox.upperSandboxFilesSize := by
    have whole := @StoredTotal.erase _ sandbox.driveFolder _ _ _ managed
    have balanced := fits.balanced
    rw [Balanced, managedSize] at balanced
    omega
  have notOwn : hash ∉ sandbox.ownFiles sandbox.lowerSandboxFsTree := by
    intro isOwn
    exact sized.managed.notCommitted hash managed (mem_ownFiles.mp isOwn).1
  have smaller : sandbox.UpperFits (tree.addBlock (statisticsNode entry)) :=
    fits.smaller (fileStates_changeBlocks tree.2.wellFormed _ _).subperm
      (fits.linked.changeBlocks tree.2.wellFormed _ _)
  rw [Sandbox.openForWriting, isEntry]
  simp only
  rw [isHash]
  simp only
  rw [subtractSize, if_pos less]
  constructor
  · exact sized.asserted
  · exact { sized.lower.update notOwn (some 0) with }
  · exact { sized.managed.update hash 0 with }
  · constructor
    · rw [List.map_cons, List.nodup_cons]
      refine ⟨?_, sized.streams.distinct⟩
      intro isUsed
      obtain ⟨opened, isOpened, same⟩ := List.mem_map.mp isUsed
      have small := sized.streams.below opened isOpened
      omega
    · intro opened isOpened
      rcases List.mem_cons.mp isOpened with rfl | old
      · exact Nat.lt_succ_self _
      · exact Nat.lt_succ_of_lt (sized.streams.below opened old)
    · apply List.Pairwise.cons _ sized.streams.apart
      intro opened old other isOther
      cases isOther
      exact unused opened old
    · intro opened isOpened other linked
      rcases List.mem_cons.mp isOpened with rfl | old
      · cases linked
        exact ⟨managed, Function.update_self _ _ _⟩
      · obtain ⟨isManaged, stored⟩ := sized.streams.managed opened old other linked
        have differ : other ≠ hash := fun same => unused opened old (same ▸ linked)
        refine ⟨isManaged, ?_⟩
        simp only [Function.update_of_ne differ]
        exact stored
  · intro other isOther
    cases isOther
    refine ⟨?_, ?_, smaller.known, smaller.managed, smaller.alone, smaller.linked, ?_⟩
    · have balanced := fits.balanced
      rw [Balanced, managedSize] at balanced
      change sandbox.upperSandboxFilesSize - (sandbox.driveFolder hash).getD 0 =
        sandbox.lowerSandboxFilesSize + storedTotal
          (Function.update sandbox.driveFolder hash (some 0)) sandbox.callManagedHashes
      omega
    · exact Nat.lt_of_le_of_lt (Nat.sub_le _ _) fits.small
    · intro opened isOpened state isFile linked
      rcases List.mem_cons.mp isOpened with rfl | old
      · cases linked
        have files := (fileStates_changeBlocks tree.2.wellFormed (· + 1)
          (statisticsNode entry)).mem_iff.mp isFile
        rw [state_unique (fits.once managed) files member rfl rfl]
        rfl
      · exact smaller.streams opened old state isFile linked
  · intro isClosed
    cases isClosed

theorem ManagedFits.notMem (fits : sandbox.ManagedFits) {hash : InfoHash}
    (isNew : sandbox.IsNew hash) : hash ∉ sandbox.callManagedHashes := by
  intro managed
  have stored := fits.stored hash managed
  rw [isNew.notStored] at stored
  cases stored

theorem Sized.manage (sized : sandbox.Sized) (isOpen : sandbox.upperSandboxFsTree = some tree)
    {temporaryHash : InfoHash} (isNew : sandbox.IsNew temporaryHash) {node : Nat}
    (files : (fileStates changed.1).Subperm
      (⟨temporaryHash, true, node⟩ :: fileStates tree.1)) (linked : FilesLinked changed.1)
    {nextNode : Nat} :
    { sandbox with
      driveFolder := Function.update sandbox.driveFolder temporaryHash (some 0)
      upperSandboxFsTree := some changed
      callManagedHashes := insert temporaryHash sandbox.callManagedHashes
      nextNode }.Sized := by
  have fits := sized.upper tree isOpen
  have notManaged := sized.managed.notMem isNew
  have notThere : temporaryHash ∉ uniqueFiles tree := by
    intro member
    rcases fits.known temporaryHash member with committed | managed
    · exact isNew.notCommitted committed
    · exact notManaged managed
  have notOwn : temporaryHash ∉ sandbox.ownFiles sandbox.lowerSandboxFsTree := by
    intro isOwn
    exact isNew.notCommitted (mem_ownFiles.mp isOwn).1
  have states : ∀ state ∈ fileStates changed.1, state = ⟨temporaryHash, true, node⟩ ∨
      (state ∈ fileStates tree.1 ∧ state.hash ≠ temporaryHash) := by
    intro state member
    rcases List.mem_cons.mp (files.subset member) with new | old
    · exact .inl new
    · right
      refine ⟨old, ?_⟩
      intro same
      exact notThere (same ▸ mem_uniqueFiles_of_state old)
  have counted : ∀ hash, (getUniqueFiles changed.1).count hash ≤
      (if hash = temporaryHash then 1 else 0) + (getUniqueFiles tree.1).count hash := by
    intro hash
    have hashes : (getUniqueFiles changed.1).Subperm (temporaryHash :: getUniqueFiles tree.1) := by
      obtain ⟨kept, perm, isKept⟩ := files
      rw [getUniqueFiles_eq, getUniqueFiles_eq]
      exact ⟨kept.map FileState.hash, perm.map _, isKept.map FileState.hash⟩
    apply (hashes.count_le hash).trans
    rw [List.count_cons, Nat.add_comm]
    by_cases same : hash = temporaryHash
    · simp [same]
    · simp [same, Ne.symm same]
  constructor
  · exact sized.asserted
  · exact { sized.lower.update notOwn (some 0) with }
  · have updated := sized.managed.update temporaryHash 0
    constructor
    · intro hash member
      rcases Finset.mem_insert.mp member with rfl | old
      · simp only [Function.update_self, Option.isSome_some]
      · exact updated.stored hash old
    · intro hash member
      rcases Finset.mem_insert.mp member with rfl | old
      · exact isNew.notZero
      · exact updated.notZero hash old
    · intro hash member
      rcases Finset.mem_insert.mp member with rfl | old
      · exact isNew.noTorrent
      · exact updated.noTorrent hash old
    · intro hash member
      rcases Finset.mem_insert.mp member with rfl | old
      · exact isNew.notCommitted
      · exact updated.notCommitted hash old
  · refine ⟨sized.streams.distinct, sized.streams.below, sized.streams.apart, ?_⟩
    intro opened isOpened hash linked
    obtain ⟨managed, stored⟩ := sized.streams.managed opened isOpened hash linked
    have differ : hash ≠ temporaryHash := fun same => notManaged (same ▸ managed)
    refine ⟨Finset.mem_insert_of_mem managed, ?_⟩
    simp only [Function.update_of_ne differ]
    exact stored
  · intro other isOther
    cases isOther
    refine ⟨?_, fits.small, ?_, ?_, ?_, linked, ?_⟩
    · have whole := @StoredTotal.insert_new _
        (Function.update sandbox.driveFolder temporaryHash (some 0)) _ _ _ notManaged
      have same := @StoredTotal.update_other _ sandbox.driveFolder _ _ _ notManaged (some 0)
      have balanced := fits.balanced
      rw [Function.update_self, Option.getD_some] at whole
      rw [Balanced, managedSize] at balanced
      change sandbox.upperSandboxFilesSize = sandbox.lowerSandboxFilesSize + storedTotal
        (Function.update sandbox.driveFolder temporaryHash (some 0))
        (insert temporaryHash sandbox.callManagedHashes)
      omega
    · intro hash member
      obtain ⟨state, isState, rfl⟩ :=
        mem_getUniqueFiles.mp (mem_uniqueFiles_iff.mp member)
      rcases states state isState with rfl | ⟨old, _⟩
      · exact .inr (Finset.mem_insert_self _ _)
      · rcases fits.known _ (mem_uniqueFiles_of_state old) with committed | managed
        · exact .inl committed
        · exact .inr (Finset.mem_insert_of_mem managed)
    · intro state isState managed
      rcases states state isState with rfl | ⟨old, differ⟩
      · rfl
      · exact fits.managed state old (Finset.mem_of_mem_insert_of_ne managed differ)
    · intro state isState modifiable
      have few := counted state.hash
      rcases states state isState with rfl | ⟨old, differ⟩
      · refine ⟨isNew.notZero, isNew.noTorrent, ?_⟩
        have none : (getUniqueFiles tree.1).count temporaryHash = 0 :=
          List.count_eq_zero.mpr fun member => notThere (mem_uniqueFiles_iff.mpr member)
        simp only [none, if_true] at few
        exact few
      · obtain ⟨notZero, noTorrent, once⟩ := fits.alone state old modifiable
        rw [if_neg differ, Nat.zero_add] at few
        exact ⟨notZero, noTorrent, few.trans once⟩
    · intro opened isOpened state isState linked
      rcases states state isState with rfl | ⟨old, _⟩
      · exact absurd (sized.streams.managed opened isOpened _ linked).1 notManaged
      · exact fits.streams opened isOpened state old linked
  · intro isClosed
    cases isClosed

theorem prepareWriting_cases {overwrittenHash temporaryHash : InfoHash}
    (isFolder : (getFolderPtr path.parentPath.elements tree.1).isSome)
    (prepared : sandbox.prepareWriting tree path overwrittenHash temporaryHash =
      some (changed, next)) :
    (∃ entry hash, getEntryPtr path tree.1 = some entry ∧ entry.value.fileHash? = some hash ∧
        hash ∈ sandbox.callManagedHashes ∧ changed = tree ∧ next = sandbox) ∨
      ∃ entry nextNode, getEntryPtr path changed.1 = some entry ∧
        entry.value.fileHash? = some temporaryHash ∧ sandbox.nextNode ≤ statisticsNode entry ∧
        (fileStates changed.1).Subperm
          (⟨temporaryHash, true, statisticsNode entry⟩ :: fileStates tree.1) ∧
        (FilesLinked tree.1 → FilesLinked changed.1) ∧
        next = { sandbox with
          callManagedHashes := insert temporaryHash sandbox.callManagedHashes
          nextNode } := by
  rw [prepareWriting] at prepared
  split at prepared
  · rename_i entry isEntry
    split at prepared
    · rename_i hash isHash
      split at prepared
      · rename_i managed
        cases prepared
        left
        exact ⟨entry, hash, isEntry, isHash, managed, rfl, rfl⟩
      · obtain ⟨removed, isRemoved, managed⟩ := Option.bind_eq_some_iff.mp prepared
        obtain ⟨added, isAdded, same⟩ := Option.map_eq_some_iff.mp managed
        cases same
        have isThere := (FsEntryTree.find?_removeFlat isRemoved).1
        obtain ⟨file, isFile, fileHash, node⟩ :=
          FsEntryTree.getEntryPtr_addModifiableFile isThere isAdded
        have files := FsEntryTree.fileStates_addModifiableFile isThere isAdded
        have parts := FsEntryTree.fileStates_removeFlat isEntry isRemoved
        right
        refine ⟨file, _, isFile, fileHash, ?_, ?_, ?_, rfl⟩
        · rw [node]
          exact Nat.le_add_right _ _
        · rw [node]
          apply files.trans
          apply (List.subperm_cons _).mpr
          exact (List.sublist_append_right _ _).subperm.trans parts.symm.subperm
        · intro linked
          have later := FsEntryTree.filesLinked_removeFlat linked isRemoved
          exact FsEntryTree.filesLinked_addModifiableFile later isThere isAdded
    · cases prepared
  · obtain ⟨⟨added, numbered⟩, managed, again⟩ := Option.bind_eq_some_iff.mp prepared
    obtain ⟨first, isAdded, same⟩ := Option.map_eq_some_iff.mp managed
    cases same
    obtain ⟨second, isChanged, same⟩ := Option.map_eq_some_iff.mp again
    cases same
    have isThere := (FsEntryTree.find?_addModifiableFile isFolder isAdded).1
    obtain ⟨file, isFile, fileHash, node⟩ :=
      FsEntryTree.getEntryPtr_addModifiableFile isThere isChanged
    right
    refine ⟨file, _, isFile, fileHash, ?_, ?_, ?_, rfl⟩
    · rw [node]
      simp only
      omega
    · rw [node]
      exact FsEntryTree.fileStates_addModifiableFile_twice isFolder isAdded isChanged
    · intro linked
      have later := FsEntryTree.filesLinked_addModifiableFile linked isFolder isAdded
      exact FsEntryTree.filesLinked_addModifiableFile later isThere isChanged

theorem notMem_of_checkUnlock {nextNode : Nat} {handles : List Nat} {entry : FsEntry}
    (tracks : tree.Tracks nextNode handles) (linked : FilesLinked tree.1)
    (unlocked : checkUnlock path tree.1 = true) (isEntry : getEntryPtr path tree.1 = some entry)
    (isFile : entry.value.isFolder = false) : statisticsNode entry ∉ handles := by
  have isFound := find?_of_getEntryPtr isEntry
  apply tracks.notMem_of_totalBlocks isFound
  rw [checkUnlock] at unlocked
  split at unlocked
  · rename_i isEmpty
    have free : totalBlocks tree.1 = 0 := of_decide_eq_true unlocked
    have notRoot : path.elements ≠ ["/"] := by
      rw [isEmpty]
      decide
    have noParent : path.parentPath.elements = [] := by
      rw [FsPath.elements_parentPath notRoot, isEmpty]
      rfl
    rw [getEntryPtr, noParent] at isEntry
    have isChild : childAt path.filename tree.1.childs = some entry := isEntry
    have isLinked : entry.isLinked = true := by
      have inner := linked.found isFound
      obtain ⟨info, childs⟩ := entry
      exact (filesLinked_node.mp inner).1 isFile
    have sums := tracks.counts.here
    have parts := sums.sum.trans (linkedBlocks_of_childAt sums.distinct isChild)
    rw [linkedTotal, if_pos isLinked] at parts
    rw [totalBlocks] at free
    omega
  · rw [Bool.and_eq_true, isEntry] at unlocked
    exact of_decide_eq_true unlocked.2

theorem Sized.count (sized : sandbox.Sized) (isOpen : sandbox.upperSandboxFsTree = some tree) :
    { sandbox with totalFilesOpened := sandbox.totalFilesOpened + 1 }.Sized := by
  have counted := @Sized.frame _ _ _ sized isOpen (List.Subperm.refl _)
    (sized.upper tree isOpen).linked _ (List.Sublist.refl _) _ (Nat.le_succ _)
    sandbox.openFilesRead sandbox.folderIterators sandbox.totalFolderIteratorsCreated
    sandbox.nextNode
  rw [← isOpen] at counted
  exact counted

theorem openForWriting_stored {entry : FsEntry} {hash : InfoHash}
    (isEntry : getEntryPtr path tree.1 = some entry) (isHash : entry.value.fileHash? = some hash)
    (notStored : sandbox.driveFolder hash = none) (fileId : Nat) :
    sandbox.openForWriting tree fileId path =
      { sandbox with
        driveFolder := Function.update sandbox.driveFolder hash (some 0)
        upperSandboxFsTree := some tree }.openForWriting tree fileId path := by
  simp only [Sandbox.openForWriting, isEntry, isHash, notStored, Function.update_self,
    Function.update_idem, Option.getD_none, Option.getD_some]

theorem Sized.openFile (sized : sandbox.Sized) (tracked : sandbox.Tracked)
    (isOpen : sandbox.upperSandboxFsTree = some tree) {mode : OpenFileMode}
    {overwrittenHash temporaryHash : InfoHash}
    (isNew : mode = .write → sandbox.IsNew temporaryHash) :
    (sandbox.openFile tree path mode overwrittenHash temporaryHash).Sized := by
  have counted := sized.count isOpen
  have fits := sized.upper tree isOpen
  have tracks := tracked.upper tree isOpen
  simp only [Sandbox.openFile]
  split
  · exact counted
  · rename_i accepted
    rw [Bool.or_eq_true, not_or, Bool.not_eq_true', Bool.not_eq_false] at accepted
    have isFolder : (getFolderPtr path.parentPath.elements tree.1).isSome := by
      rw [Option.isSome_iff_ne_none]
      simpa using accepted.1
    cases mode with
    | read =>
        simp only
        split
        · split
          · rw [openForReading]
            split
            · exact sized.frame isOpen (fileStates_changeBlocks tree.2.wellFormed _ _).subperm
                (fits.linked.changeBlocks tree.2.wellFormed _ _) (List.Sublist.refl _)
                (Nat.le_succ _)
            · exact counted
          · exact counted
        · exact counted
    | write =>
        simp only
        split
        · rename_i changed next isPrepared
          rcases prepareWriting_cases isFolder isPrepared with
            ⟨entry, hash, isEntry, isHash, managed, rfl, rfl⟩ |
            ⟨entry, nextNode, isEntry, isHash, isLater, files, linked, rfl⟩
          · have isFile : entry.value.isFolder = false := by
              cases isInfo : entry.value with
              | folder =>
                  rw [isInfo] at isHash
                  cases isHash
              | file => rfl
            have free := notMem_of_checkUnlock tracks fits.linked accepted.2 isEntry isFile
            apply sized.openForWriting isOpen isEntry isHash managed
            intro member
            exact free (List.mem_append_left _ member)
          · have stored := @Sized.manage _ _ _ sized isOpen _ (isNew rfl) _ files
              (linked fits.linked) nextNode
            have opened := stored.openForWriting rfl isEntry isHash (Finset.mem_insert_self _ _) (by
              intro member
              have small := tracked.known _ (List.mem_append_left _ member)
              exact Nat.lt_irrefl _ (Nat.lt_of_lt_of_le small isLater))
            have same := @openForWriting_stored
              { sandbox with
                callManagedHashes := insert temporaryHash sandbox.callManagedHashes
                totalFilesOpened := sandbox.totalFilesOpened + 1
                nextNode }
              changed path entry temporaryHash isEntry isHash (isNew rfl).notStored
              sandbox.totalFilesOpened
            exact (congrArg Sandbox.Sized same).mpr opened
        · exact counted

end SiriusDrive.Sandbox
