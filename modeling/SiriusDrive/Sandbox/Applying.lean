import SiriusDrive.Sandbox.Sizes

/-! # Applying a sandbox

What is accepted takes the place of the files that it replaces; what is discarded takes
the files of the call with it. When the storage hash is evaluated, the files of the drive
get their names.
-/

namespace SiriusDrive.Sandbox

open FsEntry

variable {sandbox : Sandbox} {tree : FsEntryTree}

/-! ## Applying -/

theorem UpperFits.lower_le (fits : sandbox.UpperFits tree) :
    sandbox.lowerSandboxFilesSize ≤ sandbox.upperSandboxFilesSize := by
  have balanced := fits.balanced
  rw [Balanced] at balanced
  omega

theorem StreamsFit.of_nil (noStreams : sandbox.openFilesWrite = []) : sandbox.StreamsFit := by
  constructor
  · rw [noStreams]
    exact List.nodup_nil
  · rw [noStreams]
    intro opened member
    cases member
  · rw [noStreams]
    exact List.Pairwise.nil
  · rw [noStreams]
    intro opened member
    cases member

theorem ManagedFits.of_empty (none : sandbox.callManagedHashes = ∅) : sandbox.ManagedFits := by
  have nothing : ∀ {P : InfoHash → Prop}, ∀ hash ∈ sandbox.callManagedHashes, P hash := by
    intro P hash member
    rw [none] at member
    exact absurd member (Finset.notMem_empty hash)
  exact ⟨nothing, nothing, nothing, nothing⟩

/-- The files of the accepted tree are what remains, or what the call has created. -/
theorem Sized.acceptUpperSandboxModifications (sized : sandbox.Sized)
    (isOpen : sandbox.upperSandboxFsTree = some tree) (noStreams : sandbox.openFilesWrite = [])
    (other : Option FsEntryTree) :
    ({ sandbox with upperSandboxFsTree := other }.acceptUpperSandboxModifications tree).Sized := by
  have fits := sized.upper tree isOpen
  have isReplaced : ∀ hash, hash ∈ sandbox.replacedFiles tree ↔
      hash ∈ sandbox.ownFiles sandbox.lowerSandboxFsTree ∧ hash ∉ uniqueFiles tree := by
    intro hash
    rw [mem_ownFiles, replacedFiles, Finset.mem_filter, Bool.not_eq_true]
    tauto
  have subset : sandbox.replacedFiles tree ⊆ sandbox.ownFiles sandbox.lowerSandboxFsTree :=
    fun hash member => ((isReplaced hash).mp member).1
  have own := sized.lower.size
  have less := fits.lower_le
  have small := fits.small
  have part : storedTotal sandbox.driveFolder (sandbox.replacedFiles tree) ≤
      storedTotal sandbox.driveFolder (sandbox.ownFiles sandbox.lowerSandboxFsTree) :=
    StoredTotal.mono subset
  have size := filesSize_eq (fun hash member => sized.lower.stored hash (subset member))
    (by omega) unknownSize
  have le : sandbox.filesSize unknownSize (sandbox.replacedFiles tree) ≤
      sandbox.upperSandboxFilesSize := by omega
  have accepts : { sandbox with
      upperSandboxFsTree := other }.acceptUpperSandboxModifications tree =
      { sandbox.removeFiles (sandbox.replacedFiles tree) with
        lowerSandboxFsTree := tree
        lowerSandboxFilesSize := sandbox.upperSandboxFilesSize -
          storedTotal sandbox.driveFolder (sandbox.replacedFiles tree)
        upperSandboxFilesSize := sandbox.upperSandboxFilesSize -
          storedTotal sandbox.driveFolder (sandbox.replacedFiles tree)
        upperSandboxFsTree := none
        callManagedHashes := ∅ } := by
    rw [← size]
    exact congrArg (fun accepted : Sandbox =>
      { accepted with
        lowerSandboxFsTree := tree
        lowerSandboxFilesSize := accepted.upperSandboxFilesSize
        upperSandboxFsTree := none
        callManagedHashes := ∅ })
      (subtractSize_of_le ({ sandbox with upperSandboxFsTree := other }.removeFiles
        (sandbox.replacedFiles tree)) le)
  rw [accepts]
  have kept : Disjoint (sandbox.replacedFiles tree) (sandbox.ownFiles tree) := by
    rw [Finset.disjoint_left]
    intro hash replaced isOwn
    exact ((isReplaced hash).mp replaced).2 (mem_ownFiles.mp isOwn).1
  have known : sandbox.ownFiles tree ⊆ (sandbox.ownFiles sandbox.lowerSandboxFsTree \
      sandbox.replacedFiles tree) ∪ sandbox.callManagedHashes := by
    intro hash isOwn
    obtain ⟨member, noTorrent, notZero⟩ := mem_ownFiles.mp isOwn
    rcases fits.known hash member with committed | managed
    · apply Finset.mem_union_left
      apply Finset.mem_sdiff.mpr
      refine ⟨mem_ownFiles.mpr ⟨committed, noTorrent, notZero⟩, ?_⟩
      intro replaced
      exact ((isReplaced hash).mp replaced).2 member
    · exact Finset.mem_union_right _ managed
  constructor
  · exact sized.asserted
  · constructor
    · intro hash isOwn
      change ((sandbox.removeFiles (sandbox.replacedFiles tree)).driveFolder hash).isSome
      have notRemoved := Finset.disjoint_right.mp kept isOwn
      rw [driveFolder_removeFiles, if_neg notRemoved]
      rcases Finset.mem_union.mp (known isOwn) with old | managed
      · exact sized.lower.stored hash (Finset.mem_sdiff.mp old).1
      · exact sized.managed.stored hash managed
    · have same := @storedTotal_removeFiles sandbox _ _ kept
      have most : storedTotal sandbox.driveFolder (sandbox.ownFiles tree) ≤ _ :=
        StoredTotal.mono known
      have apart : Disjoint (sandbox.ownFiles sandbox.lowerSandboxFsTree \
          sandbox.replacedFiles tree) sandbox.callManagedHashes := by
        have disjoint := sized.managed.disjoint (Finset.Subset.refl _)
        exact (disjoint.mono_right Finset.sdiff_subset).symm
      have parts := @StoredTotal.sdiff _ sandbox.driveFolder _ _ _ subset
      have balanced := fits.balanced
      rw [StoredTotal.union apart] at most
      rw [Balanced, managedSize] at balanced
      change storedTotal (sandbox.removeFiles (sandbox.replacedFiles tree)).driveFolder
        (sandbox.ownFiles tree) ≤ sandbox.upperSandboxFilesSize -
          storedTotal sandbox.driveFolder (sandbox.replacedFiles tree)
      omega
    · exact Nat.lt_of_le_of_lt (Nat.sub_le _ _) small
    · exact fits.alone
  · exact ManagedFits.of_empty rfl
  · apply StreamsFit.of_nil
    simp only [Sandbox.removeFiles, noStreams, List.map_nil]
  · intro _ isOther
    cases isOther
  · intro _
    rfl

theorem Sized.discardUpperSandboxModifications (sized : sandbox.Sized)
    (isOpen : sandbox.upperSandboxFsTree = some tree)
    (noStreams : sandbox.openFilesWrite = []) (other : Option FsEntryTree) :
    { sandbox with upperSandboxFsTree := other }.discardUpperSandboxModifications =
      { sandbox.removeFiles sandbox.callManagedHashes with
        upperSandboxFilesSize := 0
        upperSandboxFsTree := none
        callManagedHashes := ∅ } ∧
    ({ sandbox with upperSandboxFsTree := other }.discardUpperSandboxModifications).Sized := by
  have fits := sized.upper tree isOpen
  have less := sized.managedSize_le isOpen (Finset.Subset.refl _)
  have size := filesSize_eq sized.managed.stored (Nat.lt_of_le_of_lt less fits.small) unknownSize
  have balanced := fits.balanced
  rw [Balanced, managedSize] at balanced
  have le : sandbox.filesSize unknownSize sandbox.callManagedHashes ≤
      sandbox.upperSandboxFilesSize := by omega
  have same : sandbox.lowerSandboxFilesSize = sandbox.upperSandboxFilesSize -
      sandbox.filesSize unknownSize sandbox.callManagedHashes := by omega
  have discards : { sandbox with
      upperSandboxFsTree := other }.discardUpperSandboxModifications =
      { sandbox.removeFiles sandbox.callManagedHashes with
        upperSandboxFilesSize := 0
        upperSandboxFsTree := none
        callManagedHashes := ∅ } := by
    have start := congrArg (fun removed : Sandbox =>
      if removed.fault = none ∧ removed.lowerSandboxFilesSize ≠ removed.upperSandboxFilesSize then
        { removed with upperSandboxFsTree := none, fault := some .assertionFailed }
      else
        { removed with
          upperSandboxFsTree := none
          upperSandboxFilesSize := 0
          callManagedHashes := ∅ })
      (subtractSize_of_le ({ sandbox with upperSandboxFsTree := other }.removeFiles
        sandbox.callManagedHashes) le)
    apply start.trans
    apply if_neg
    rintro ⟨_, differ⟩
    exact differ same
  refine ⟨discards, ?_⟩
  rw [discards]
  constructor
  · exact sized.asserted
  · exact { sized.lower.removeFiles (sized.managed.disjoint (Finset.Subset.refl _)) with }
  · exact ManagedFits.of_empty rfl
  · apply StreamsFit.of_nil
    simp only [Sandbox.removeFiles, noStreams, List.map_nil]
  · intro _ isOther
    cases isOther
  · intro _
    rfl

theorem Sized.closeHandles (sized : sandbox.Sized) (isOpen : sandbox.upperSandboxFsTree = some tree) :
    { sandbox.closeHandles with
      upperSandboxFsTree := some (tree.clearStatisticsNode sandbox.nextNode)
      nextNode := sandbox.nextNode + 1 }.Sized := by
  have files : (fileStates (tree.clearStatisticsNode sandbox.nextNode).1).Subperm
      (fileStates tree.1) := by
    rw [fileStates_clearStatisticsNode]
  exact sized.frame isOpen files
    (FsEntryTree.filesLinked_clearStatisticsNode (sized.upper tree isOpen).linked _)
    (List.nil_sublist _) (Nat.le_refl _)

theorem Sized.applySandboxModifications (sized : sandbox.Sized)
    (isOpen : sandbox.upperSandboxFsTree = some tree) (success isValid : Bool) :
    (sandbox.applySandboxModifications tree success isValid).Sized := by
  have closed := sized.closeHandles isOpen
  rw [Sandbox.applySandboxModifications]
  split
  · exact closed.acceptUpperSandboxModifications rfl rfl sandbox.upperSandboxFsTree
  · exact (closed.discardUpperSandboxModifications rfl rfl sandbox.upperSandboxFsTree).2

/-! ## Renaming the modifiable files -/

/-- One file is renamed, and no other one that is still to be renamed. -/
theorem renameFile_fits {newHash : InfoHash → InfoHash} {driveFolder : InfoHash → Option Nat}
    {files : Finset InfoHash} {hash : InfoHash} (member : hash ∈ files)
    (stored : ∀ other ∈ files, (driveFolder other).isSome) :
    ∃ renamed : Finset InfoHash,
      (∀ other ∈ renamed, (sandbox.renameFile newHash driveFolder hash other).isSome) ∧
      storedTotal (sandbox.renameFile newHash driveFolder hash) renamed ≤
        storedTotal driveFolder files ∧
      (∀ other ∈ files, other ≠ hash → other ∈ renamed) ∧
      (evaluateFile newHash driveFolder hash ≠ 0 →
        sandbox.torrentHandleMap.contains (evaluateFile newHash driveFolder hash) = false →
          evaluateFile newHash driveFolder hash ∈ renamed) := by
  simp only [renameFile]
  split
  · rename_i removed
    refine ⟨files.erase hash, ?_, ?_, ?_, ?_⟩
    · intro other isOther
      rw [Function.update_of_ne (Finset.ne_of_mem_erase isOther)]
      exact stored other (Finset.mem_of_mem_erase isOther)
    · rw [StoredTotal.erased]
      exact StoredTotal.mono (Finset.erase_subset _ _)
    · intro other isOther notHash
      exact Finset.mem_erase.mpr ⟨notHash, isOther⟩
    · intro notZero noTorrent
      rcases removed with zero | torrent
      · exact absurd zero notZero
      · exact absurd (noTorrent.symm.trans torrent) (by decide)
  · refine ⟨insert (evaluateFile newHash driveFolder hash) (files.erase hash), ?_, ?_, ?_, ?_⟩
    · intro other isOther
      by_cases same : other = evaluateFile newHash driveFolder hash
      · rw [same, Function.update_self]
        exact stored hash member
      · have kept := Finset.mem_of_mem_insert_of_ne isOther same
        rw [Function.update_of_ne same, Function.update_of_ne (Finset.ne_of_mem_erase kept)]
        exact stored other (Finset.mem_of_mem_erase kept)
    · exact StoredTotal.rename member
    · intro other isOther notHash
      exact Finset.mem_insert_of_mem (Finset.mem_erase.mpr ⟨notHash, isOther⟩)
    · intro _ _
      exact Finset.mem_insert_self _ _

/-- A file that is not renamed, and that none is renamed to, stays as it is. -/
theorem renameFile_of_ne {newHash : InfoHash → InfoHash} {driveFolder : InfoHash → Option Nat}
    {hash other : InfoHash} (notHash : other ≠ hash)
    (notNew : other ≠ evaluateFile newHash driveFolder hash) :
    sandbox.renameFile newHash driveFolder hash other = driveFolder other := by
  simp only [renameFile]
  split
  · rw [Function.update_of_ne notHash]
  · rw [Function.update_of_ne notNew, Function.update_of_ne notHash]

theorem renameFiles_fit {newHash : InfoHash → InfoHash} {modifiable hashes : List InfoHash}
    (fresh : ∀ hash ∈ modifiable, newHash hash ∉ modifiable) (notZero : 0 ∉ modifiable)
    (subset : hashes ⊆ modifiable) (distinct : hashes.Nodup) {driveFolder : InfoHash → Option Nat}
    {files : Finset InfoHash} (members : ∀ hash ∈ hashes, hash ∈ files)
    (stored : ∀ hash ∈ files, (driveFolder hash).isSome) :
    ∃ renamed : Finset InfoHash,
      (∀ hash ∈ renamed,
        (hashes.foldl (sandbox.renameFile newHash) driveFolder hash).isSome) ∧
      storedTotal (hashes.foldl (sandbox.renameFile newHash) driveFolder) renamed ≤
        storedTotal driveFolder files ∧
      (∀ hash ∈ files, hash ∉ hashes → hash ∈ renamed) ∧
      (∀ hash ∈ hashes, evaluateFile newHash driveFolder hash ≠ 0 →
        sandbox.torrentHandleMap.contains (evaluateFile newHash driveFolder hash) = false →
          evaluateFile newHash driveFolder hash ∈ renamed) := by
  induction hashes generalizing driveFolder files with
  | nil =>
      refine ⟨files, stored, Nat.le_refl _, fun hash member _ => member, ?_⟩
      intro hash member
      cases member
  | cons first hashes ih =>
      have isFirst : first ∈ modifiable := subset List.mem_cons_self
      obtain ⟨notFirst, distinct⟩ := List.nodup_cons.mp distinct
      have notNew : ∀ hash ∈ modifiable, hash ≠ evaluateFile newHash driveFolder first := by
        intro hash member same
        rw [evaluateFile] at same
        split at same
        · exact fresh first isFirst (same ▸ member)
        · exact notZero (same ▸ member)
      obtain ⟨once, storedOnce, less, others, new⟩ := @renameFile_fits sandbox newHash driveFolder
        files first (members first List.mem_cons_self) stored
      have inRest : ∀ hash ∈ hashes, hash ≠ first := by
        intro hash member same
        exact notFirst (same ▸ member)
      obtain ⟨renamed, storedLater, lessLater, othersLater, newLater⟩ :=
        ih (List.cons_subset.mp subset).2 distinct (fun hash member =>
          others hash (members hash (List.mem_cons_of_mem _ member)) (inRest hash member))
          storedOnce
      refine ⟨renamed, storedLater, lessLater.trans less, ?_, ?_⟩
      · intro hash member notRenamed
        rw [List.mem_cons, not_or] at notRenamed
        exact othersLater hash (others hash member notRenamed.1) notRenamed.2
      · intro hash member
        rcases List.mem_cons.mp member with rfl | rest
        · intro newNotZero noTorrent
          apply othersLater _ (new newNotZero noTorrent)
          intro isLater
          exact notNew _ (subset (List.mem_cons_of_mem _ isLater)) rfl
        · have same := @renameFile_of_ne sandbox newHash driveFolder first hash (inRest hash rest)
            (notNew hash (subset (List.mem_cons_of_mem _ rest)))
          have later := newLater hash rest
          simp only [evaluateFile, same] at later ⊢
          exact later

theorem LowerFits.modifiable (fits : sandbox.LowerFits) :
    (∀ hash ∈ modifiableFiles sandbox.lowerSandboxFsTree.1,
      hash ∈ sandbox.ownFiles sandbox.lowerSandboxFsTree) ∧
      (modifiableFiles sandbox.lowerSandboxFsTree.1).Nodup := by
  constructor
  · intro hash member
    obtain ⟨state, isState, modifiable, rfl⟩ := mem_modifiableFiles.mp member
    obtain ⟨notZero, noTorrent, _⟩ := fits.alone state isState modifiable
    exact mem_ownFiles.mpr ⟨mem_uniqueFiles_of_state isState, noTorrent, notZero⟩
  · rw [List.nodup_iff_count_le_one]
    intro hash
    by_cases member : hash ∈ modifiableFiles sandbox.lowerSandboxFsTree.1
    · obtain ⟨state, isState, modifiable, rfl⟩ := mem_modifiableFiles.mp member
      exact ((modifiableFiles_sublist _).count_le _).trans
        (fits.alone state isState modifiable).2.2
    · rw [List.count_eq_zero.mpr member]
      exact Nat.zero_le 1

theorem fileStates_evaluateStorageHash (newHash : InfoHash → InfoHash) :
    fileStates (sandbox.evaluateStorageHash newHash).lowerSandboxFsTree.1 =
      (fileStates sandbox.lowerSandboxFsTree.1).map fun state =>
        ⟨if state.isModifiable then evaluateFile newHash sandbox.driveFolder state.hash
          else state.hash, false, state.node⟩ := by
  apply @fileStates_mapFiles _ fun hash isModifiable =>
    (if isModifiable then evaluateFile newHash sandbox.driveFolder hash else hash, false)
  intro content isModifiable
  cases isModifiable <;> rfl

theorem Sized.evaluateStorageHash (sized : sandbox.Sized)
    (isClosed : sandbox.upperSandboxFsTree = none) {newHash : InfoHash → InfoHash}
    (fresh : ∀ hash ∈ modifiableFiles sandbox.lowerSandboxFsTree.1,
      newHash hash ∉ modifiableFiles sandbox.lowerSandboxFsTree.1) :
    (sandbox.evaluateStorageHash newHash).Sized := by
  have none := sized.closed isClosed
  obtain ⟨own, distinct⟩ := sized.lower.modifiable
  obtain ⟨renamed, stored, less, others, new⟩ := @renameFiles_fit sandbox newHash _ _ fresh
    (fun member => (mem_ownFiles.mp (own 0 member)).2.2 rfl) (List.Subset.refl _) distinct _ _ own
    sized.lower.stored
  have states := @fileStates_evaluateStorageHash sandbox newHash
  have known : (sandbox.evaluateStorageHash newHash).ownFiles
      (sandbox.evaluateStorageHash newHash).lowerSandboxFsTree ⊆ renamed := by
    intro hash isOwn
    obtain ⟨member, noTorrent, notZero⟩ := mem_ownFiles.mp isOwn
    obtain ⟨later, isLater, rfl⟩ := mem_getUniqueFiles.mp (mem_uniqueFiles_iff.mp member)
    rw [states] at isLater
    obtain ⟨state, isState, rfl⟩ := List.mem_map.mp isLater
    cases modifiable : state.isModifiable with
    | true =>
        simp only [modifiable, if_true] at noTorrent notZero ⊢
        apply new state.hash _ notZero noTorrent
        exact mem_modifiableFiles.mpr ⟨state, isState, modifiable, rfl⟩
    | false =>
        simp only [modifiable, Bool.false_eq_true, if_false] at noTorrent notZero ⊢
        apply others
        · exact mem_ownFiles.mpr ⟨mem_uniqueFiles_of_state isState, noTorrent, notZero⟩
        · intro isModifiable
          obtain ⟨other, isOther, otherModifiable, same⟩ := mem_modifiableFiles.mp isModifiable
          have once := (sized.lower.alone other isOther otherModifiable).2.2
          have one := state_unique once isOther isState rfl same.symm
          rw [one, modifiable] at otherModifiable
          cases otherModifiable
  have unlinked : ∀ opened ∈ sandbox.openFilesWrite, ∀ hash, opened.2.hash ≠ some hash := by
    intro opened isOpened hash linked
    have managed := (sized.streams.managed opened isOpened hash linked).1
    rw [none] at managed
    exact Finset.notMem_empty hash managed
  constructor
  · exact sized.asserted
  · constructor
    · intro hash isOwn
      exact stored hash (known isOwn)
    · exact (StoredTotal.mono known).trans (less.trans sized.lower.size)
    · exact sized.lower.small
    · intro later isLater modifiable
      rw [states] at isLater
      obtain ⟨state, _, rfl⟩ := List.mem_map.mp isLater
      cases modifiable
  · exact ManagedFits.of_empty none
  · refine ⟨sized.streams.distinct, sized.streams.below, sized.streams.apart, ?_⟩
    intro opened isOpened hash linked
    exact absurd linked (unlinked opened isOpened hash)
  · intro tree isTree
    exact absurd (isClosed.symm.trans isTree) (by simp)
  · exact sized.closed

end SiriusDrive.Sandbox
