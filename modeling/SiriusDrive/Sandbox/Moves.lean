import SiriusDrive.Sandbox
import SiriusDrive.FsTree.Files

/-! # Moves in a sandbox

The files of the destination are taken off the task's list before it is known
whether the move succeeds, and are removed from the drive folder whenever it does.
-/

namespace SiriusDrive.Sandbox

open FsEntry KeyedTree

variable {sandbox : Sandbox} {tree moved : FsEntryTree} {source destination : FsPath}
  {isInterrupted : Bool}

/-! ## What a move promises -/

/-- A request that fails changes nothing. -/
structure IsUnchanged (sandbox after : Sandbox) : Prop where
  tree : after.upperSandboxFsTree = sandbox.upperSandboxFsTree
  managed : after.callManagedHashes = sandbox.callManagedHashes
  files : after.driveFolder = sandbox.driveFolder

/-- A request that succeeds only gives up files which the tree does not refer to. -/
def KeepsReferenced (sandbox after : Sandbox) (moved : FsEntryTree) : Prop :=
  ∀ hash ∈ uniqueFiles moved,
    (hash ∈ sandbox.callManagedHashes → hash ∈ after.callManagedHashes) ∧
      ((sandbox.driveFolder hash).isSome → (after.driveFolder hash).isSome)

/-- The files of the source are found at the destination. -/
def Carries (source destination : FsPath) (tree moved : FsEntryTree) : Prop :=
  ∀ names hash, fileAt (source.keys ++ names) tree.1 = some hash →
    fileAt (destination.keys ++ names) moved.1 = some hash

/-- What is expected of a move: it is answered, and the answer is true to what has been done. -/
def MovesFaithfully (sandbox : Sandbox) (tree : FsEntryTree) (source destination : FsPath)
    (isInterrupted : Bool) : Prop :=
  let reply := sandbox.moveFsTreeEntry tree source destination isInterrupted
  reply.sandbox.fault ≠ some .undefinedBehaviour ∧
    if reply.success then
      ∃ moved, reply.sandbox.upperSandboxFsTree = some moved ∧
        sandbox.KeepsReferenced reply.sandbox moved ∧ Carries source destination tree moved
    else sandbox.IsUnchanged reply.sandbox

/-! ## When it is kept -/

/-- There is nothing to be moved, or it cannot be moved, or it is where it should be. -/
def MovesNothing (sandbox : Sandbox) (tree : FsEntryTree) (source destination : FsPath) : Prop :=
  getEntryPtr source tree.1 = none ∨ destination = source ∨
    prepareParent sandbox.nextNode destination tree.1 = none

/-- The nodes from the source down to the parent of the destination are linked, so that the
    counters of the source would be added to themselves. -/
def LoopsBack (sandbox : Sandbox) (tree : FsEntryTree) (source destination : FsPath) : Prop :=
  ∃ prepared child, prepareParent sandbox.nextNode destination tree.1 = some prepared ∧
    getEntryPtr source prepared = some child ∧
      destination.parentPath.elements.drop source.keys.length ≠ [] ∧
        isLinkedBelow (destination.parentPath.elements.drop source.keys.length) child = true

def RefersOutside (tree : FsEntryTree) (path : FsPath) (hash : InfoHash) : Prop :=
  ∃ names, ¬ path.keys <+: names ∧ fileAt names tree.1 = some hash

def IsLocked (tree : FsEntryTree) (source destination : FsPath) : Prop :=
  checkUnlock source tree.1 = false ∨ checkUnlock destination tree.1 = false

/-- A move that the task can make good. -/
structure SafeMove (sandbox : Sandbox) (tree : FsEntryTree) (source destination : FsPath)
    (isInterrupted : Bool) : Prop where
  /-- Where nothing is moved, the destination has no files of the call. -/
  nothing : sandbox.MovesNothing tree source destination →
    sandbox.overwrittenFiles tree destination = ∅
  finished : ¬ sandbox.MovesNothing tree source destination → isInterrupted = false
  /-- Only an entry without files is moved into itself. -/
  intoItself : ¬ sandbox.MovesNothing tree source destination →
    source.keys <+: destination.parentPath.elements →
      (∀ names, fileAt (source.keys ++ names) tree.1 = none) ∧
        ¬ sandbox.LoopsBack tree source destination
  /-- The source is not below the destination, and what is overwritten is of no further use. -/
  elsewhere : ¬ sandbox.MovesNothing tree source destination →
    ¬ source.keys <+: destination.parentPath.elements → ¬ destination.keys <+: source.keys ∧
      ∀ hash ∈ sandbox.overwrittenFiles tree destination, ¬ RefersOutside tree destination hash

/-! ## The files of the destination -/

theorem mem_uniqueFiles {hash : InfoHash} :
    hash ∈ uniqueFiles tree ↔ ∃ names, fileAt names tree.1 = some hash := by
  rw [uniqueFiles, List.mem_toFinset]
  exact mem_getUniqueFiles_iff tree.2.wellFormed

theorem mem_overwrittenFiles {hash : InfoHash} :
    hash ∈ sandbox.overwrittenFiles tree destination ↔
      hash ∈ sandbox.callManagedHashes ∧
        ∃ names, fileAt (destination.keys ++ names) tree.1 = some hash := by
  rw [overwrittenFiles]
  cases isEntry : getEntryPtr destination tree.1 with
  | none =>
      have missing : find? destination.keys tree.1 = none := by
        rw [Option.eq_none_iff_forall_ne_some]
        intro entry isFound
        have found := getEntryPtr_of_find? tree.2.wellFormed isFound
        exact absurd (isEntry.symm.trans found) (by simp)
      constructor
      · intro member
        exact absurd member (Finset.notMem_empty hash)
      · rintro ⟨_, names, isFile⟩
        rw [fileAt_of_none missing] at isFile
        cases isFile
  | some entry =>
      have found := find?_of_getEntryPtr isEntry
      simp only [obtainUnusedFiles, Finset.mem_inter, List.mem_toFinset,
        mem_getUniqueFiles_of_find? tree.2.wellFormed found]
      exact and_comm

theorem overwrittenFiles_subset :
    sandbox.overwrittenFiles tree destination ⊆ sandbox.callManagedHashes := by
  intro hash member
  exact (mem_overwrittenFiles.mp member).1

theorem forgets_nothing_iff : sandbox.callManagedHashes \ sandbox.overwrittenFiles tree destination =
    sandbox.callManagedHashes ↔ sandbox.overwrittenFiles tree destination = ∅ := by
  rw [sdiff_eq_left]
  constructor
  · intro disjoint
    exact Finset.disjoint_self_iff_empty _ |>.mp (disjoint.mono_left overwrittenFiles_subset)
  · intro none
    rw [none]
    exact Finset.disjoint_empty_right _

/-! ## Replies -/

theorem removeUnusedFiles_success (filesToRemove : Finset InfoHash) :
    (sandbox.removeUnusedFiles filesToRemove isInterrupted).success = !isInterrupted := by
  cases isInterrupted <;> rfl

theorem removeUnusedFiles_sandbox (filesToRemove : Finset InfoHash) :
    ∃ filesSize fault,
      (sandbox.removeUnusedFiles filesToRemove isInterrupted).sandbox =
        { sandbox.removeFiles filesToRemove with upperSandboxFilesSize := filesSize, fault } ∧
      (fault = sandbox.fault ∨ fault = some .assertionFailed) := by
  cases isInterrupted with
  | true => exact ⟨sandbox.upperSandboxFilesSize, sandbox.fault, rfl, .inl rfl⟩
  | false =>
      rcases Nat.lt_or_ge (sandbox.removeFiles filesToRemove).upperSandboxFilesSize
        (sandbox.filesSize 0 filesToRemove) with lt | le
      · refine ⟨_, _, subtractSize_of_lt _ lt, .inr rfl⟩
      · refine ⟨_, _, subtractSize_of_le _ le, .inl rfl⟩

theorem driveFolder_removeFiles (hashes : Finset InfoHash) (hash : InfoHash) :
    (sandbox.removeFiles hashes).driveFolder hash =
      if hash ∈ hashes then none else sandbox.driveFolder hash := rfl

theorem movesFaithfully_of_isLocked (locked : IsLocked tree source destination)
    (noFault : sandbox.fault = none) :
    sandbox.MovesFaithfully tree source destination isInterrupted := by
  have refused : sandbox.moveFsTreeEntry tree source destination isInterrupted =
      ⟨sandbox, false⟩ := by
    rw [moveFsTreeEntry, if_pos]
    rcases locked with isLocked | isLocked <;> simp [isLocked]
  rw [MovesFaithfully, refused]
  refine ⟨?_, rfl, rfl, rfl⟩
  rw [noFault]
  decide

section Unlocked

variable (unlocked : ¬ IsLocked tree source destination)

include unlocked

theorem isUnlocked : (!checkUnlock source tree.1 || !checkUnlock destination tree.1) = false := by
  rw [IsLocked, not_or, Bool.not_eq_false, Bool.not_eq_false] at unlocked
  rw [unlocked.1, unlocked.2]
  rfl

theorem movesFaithfully_of_failed (noFault : sandbox.fault = none)
    (isFailed : tree.moveFlat sandbox.nextNode source destination = .failed) :
    sandbox.MovesFaithfully tree source destination isInterrupted ↔
      sandbox.overwrittenFiles tree destination = ∅ := by
  rw [MovesFaithfully, moveFsTreeEntry, isUnlocked unlocked, isFailed]
  rw [← forgets_nothing_iff]
  constructor
  · rintro ⟨_, unchanged⟩
    exact IsUnchanged.managed unchanged
  · intro managed
    refine ⟨?_, rfl, managed, rfl⟩
    change sandbox.fault ≠ _
    rw [noFault]
    decide

theorem not_movesFaithfully_of_undefined
    (isUndefined : tree.moveFlat sandbox.nextNode source destination = .undefined) :
    ¬ sandbox.MovesFaithfully tree source destination isInterrupted := by
  rw [MovesFaithfully, moveFsTreeEntry, isUnlocked unlocked, isUndefined]
  rintro ⟨answered, _⟩
  exact answered rfl

theorem movesFaithfully_of_moved (isOpen : sandbox.upperSandboxFsTree = some tree)
    (noFault : sandbox.fault = none)
    (isMoved : tree.moveFlat sandbox.nextNode source destination = .moved moved) :
    sandbox.MovesFaithfully tree source destination isInterrupted ↔
      if isInterrupted then moved = tree ∧ sandbox.overwrittenFiles tree destination = ∅
      else (∀ hash ∈ sandbox.overwrittenFiles tree destination, hash ∉ uniqueFiles moved) ∧
        Carries source destination tree moved := by
  obtain ⟨filesSize, fault, isReply, faults⟩ := @removeUnusedFiles_sandbox
    { sandbox with
      callManagedHashes := sandbox.callManagedHashes \ sandbox.overwrittenFiles tree destination
      upperSandboxFsTree := some moved
      nextNode := sandbox.nextNode + destination.elements.length }
    isInterrupted (sandbox.overwrittenFiles tree destination)
  have answered : fault ≠ some .undefinedBehaviour := by
    rcases faults with same | failed
    · rw [same]
      change sandbox.fault ≠ _
      rw [noFault]
      decide
    · rw [failed]
      decide
  simp only [MovesFaithfully, moveFsTreeEntry, isUnlocked unlocked, isMoved, Bool.false_eq_true,
    if_false, isReply, removeUnusedFiles_success]
  cases isInterrupted with
  | true =>
      simp only [Bool.not_true, Bool.false_eq_true, if_false, if_true]
      constructor
      · rintro ⟨_, unchanged⟩
        have same : some moved = some tree := unchanged.tree.trans isOpen
        exact ⟨Option.some.inj same, forgets_nothing_iff.mp unchanged.managed⟩
      · rintro ⟨rfl, none⟩
        refine ⟨answered, isOpen.symm, forgets_nothing_iff.mpr none, ?_⟩
        funext hash
        rw [driveFolder_removeFiles, none, if_neg (Finset.notMem_empty hash)]
  | false =>
      simp only [Bool.not_false, Bool.false_eq_true, if_false, if_true]
      constructor
      · rintro ⟨_, after, isAfter, keeps, carries⟩
        have same : moved = after := Option.some.inj isAfter
        subst same
        refine ⟨?_, carries⟩
        intro hash member referenced
        have kept : hash ∈ sandbox.callManagedHashes \ sandbox.overwrittenFiles tree destination :=
          (keeps hash referenced).1 (overwrittenFiles_subset member)
        exact (Finset.mem_sdiff.mp kept).2 member
      · rintro ⟨unreferenced, carries⟩
        refine ⟨answered, moved, rfl, ?_, carries⟩
        intro hash referenced
        have kept : hash ∉ sandbox.overwrittenFiles tree destination := by
          intro member
          exact unreferenced hash member referenced
        refine ⟨fun managed => Finset.mem_sdiff.mpr ⟨managed, kept⟩, ?_⟩
        rw [driveFolder_removeFiles, if_neg kept]
        exact id

end Unlocked

/-! ## When something is moved -/

theorem safeMove_of_nothing (nothing : sandbox.MovesNothing tree source destination) :
    sandbox.SafeMove tree source destination isInterrupted ↔
      sandbox.overwrittenFiles tree destination = ∅ := by
  constructor
  · intro safe
    exact safe.nothing nothing
  · intro none
    refine ⟨fun _ => none, ?_, ?_, ?_⟩
    · intro something
      exact absurd nothing something
    · intro something
      exact absurd nothing something
    · intro something
      exact absurd nothing something

theorem not_movesNothing {prepared : FsEntry} (isSource : (getEntryPtr source tree.1).isSome)
    (differ : destination ≠ source)
    (isPrepared : prepareParent sandbox.nextNode destination tree.1 = some prepared) :
    ¬ sandbox.MovesNothing tree source destination := by
  rintro (missing | same | blocked)
  · rw [missing] at isSource
    cases isSource
  · exact differ same
  · rw [isPrepared] at blocked
    cases blocked

theorem safeMove_inside (something : ¬ sandbox.MovesNothing tree source destination)
    (inside : source.keys <+: destination.parentPath.elements) :
    sandbox.SafeMove tree source destination isInterrupted ↔ isInterrupted = false ∧
      (∀ names, fileAt (source.keys ++ names) tree.1 = none) ∧
        ¬ sandbox.LoopsBack tree source destination := by
  constructor
  · intro safe
    exact ⟨safe.finished something, safe.intoItself something inside⟩
  · rintro ⟨finished, lost⟩
    refine ⟨fun nothing => absurd nothing something, fun _ => finished, fun _ _ => lost, ?_⟩
    intro _ outside
    exact absurd inside outside

theorem safeMove_outside (something : ¬ sandbox.MovesNothing tree source destination)
    (outside : ¬ source.keys <+: destination.parentPath.elements) :
    sandbox.SafeMove tree source destination isInterrupted ↔ isInterrupted = false ∧
      ¬ destination.keys <+: source.keys ∧
        ∀ hash ∈ sandbox.overwrittenFiles tree destination,
          ¬ RefersOutside tree destination hash := by
  constructor
  · intro safe
    exact ⟨safe.finished something, safe.elsewhere something outside⟩
  · rintro ⟨finished, unreferenced⟩
    refine ⟨fun nothing => absurd nothing something, fun _ => finished, ?_, fun _ _ => unreferenced⟩
    intro _ inside
    exact absurd inside outside

/-! ## Where the files go -/

theorem not_prefix_append {names : List String} (notAbove : ¬ destination.keys <+: source.keys)
    (outside : ¬ source.keys <+: destination.parentPath.elements) :
    ¬ destination.keys <+: source.keys ++ names := by
  intro below
  rcases List.prefix_or_prefix_of_prefix below (List.prefix_append source.keys names) with
    above | inside
  · exact notAbove above
  · rcases List.prefix_concat_iff.mp inside with same | shorter
    · exact notAbove ⟨[], (List.append_nil _).trans same.symm⟩
    · exact outside shorter

/-- A move within the tree gives up what only the destination refers to. -/
theorem elsewhere_iff {prepared child : FsEntry}
    (isPrepared : prepareParent sandbox.nextNode destination tree.1 = some prepared)
    (isChild : getEntryPtr source prepared = some child)
    (outside : ¬ source.keys <+: destination.parentPath.elements)
    (notAbove : ¬ destination.keys <+: source.keys)
    (isMoved : moved.1 = KeyedTree.modify follow
      (putChild destination.filename (mapInfo child (·.rename destination.filename)))
      destination.parentPath.elements
      (KeyedTree.modify follow (detachChild source.filename) source.parentPath.elements prepared)) :
    ((∀ hash ∈ sandbox.overwrittenFiles tree destination, hash ∉ uniqueFiles moved) ∧
        Carries source destination tree moved) ↔
      ∀ hash ∈ sandbox.overwrittenFiles tree destination,
        ¬ RefersOutside tree destination hash := by
  have proper := tree.2.prepareParent isPrepared
  have same := fileAt_prepareParent tree.2.isFolder isPrepared
  have files := fileAt_moved proper isChild (getFolderPtr_prepareParent tree.2 isPrepared) outside
  rw [← isMoved] at files
  have ofSource : ∀ names, fileAt (destination.keys ++ names) moved.1 =
      fileAt (source.keys ++ names) tree.1 := by
    intro names
    rw [files, if_pos (List.prefix_append _ _), List.drop_left, ← same,
      fileAt_append (find?_of_getEntryPtr isChild)]
  constructor
  · rintro ⟨unreferenced, _⟩ hash member ⟨names, elsewhere, isFile⟩
    apply unreferenced hash member
    rw [mem_uniqueFiles]
    by_cases below : source.keys <+: names
    · obtain ⟨rest, rfl⟩ := below
      exact ⟨destination.keys ++ rest, (ofSource rest).trans isFile⟩
    · refine ⟨names, ?_⟩
      rw [files, if_neg elsewhere, if_neg below, same]
      exact isFile
  · intro unreferenced
    constructor
    · intro hash member referenced
      obtain ⟨names, isFile⟩ := mem_uniqueFiles.mp referenced
      apply unreferenced hash member
      by_cases below : destination.keys <+: names
      · obtain ⟨rest, rfl⟩ := below
        exact ⟨source.keys ++ rest, not_prefix_append notAbove outside,
          (ofSource rest).symm.trans isFile⟩
      · refine ⟨names, below, ?_⟩
        rw [files, if_neg below] at isFile
        split at isFile
        · cases isFile
        · exact (same names).symm.trans isFile
    · intro names hash isFile
      exact (ofSource names).trans isFile

theorem intoItself_iff {prepared child : FsEntry}
    (isChild : getEntryPtr source prepared = some child)
    (inside : source.keys <+: destination.parentPath.elements)
    (isMoved : moved.1 = KeyedTree.modify follow (detachChild source.filename)
      source.parentPath.elements prepared) :
    ((∀ hash ∈ sandbox.overwrittenFiles tree destination, hash ∉ uniqueFiles moved) ∧
        Carries source destination tree moved) ↔
      ∀ names, fileAt (source.keys ++ names) tree.1 = none := by
  have files := fileAt_detach isChild
  rw [← isMoved] at files
  have below : source.keys <+: destination.keys := inside.trans (List.prefix_append _ _)
  constructor
  · rintro ⟨_, carries⟩ names
    rw [Option.eq_none_iff_forall_ne_some]
    intro hash isFile
    have arrived := carries names hash isFile
    rw [files, if_pos (below.trans (List.prefix_append _ _))] at arrived
    cases arrived
  · intro noFiles
    constructor
    · intro hash member _
      obtain ⟨_, names, isFile⟩ := mem_overwrittenFiles.mp member
      obtain ⟨rest, isKeys⟩ := below
      rw [← isKeys, List.append_assoc, noFiles] at isFile
      cases isFile
    · intro names hash isFile
      rw [noFiles] at isFile
      cases isFile

theorem moved_ne {prepared : FsEntry} (isSource : (getEntryPtr source tree.1).isSome)
    (gone : observe EntryInfo.isFolder source.keys prepared = none) : prepared ≠ tree.1 := by
  intro same
  obtain ⟨entry, isEntry⟩ := Option.isSome_iff_exists.mp isSource
  rw [same, observe, find?_of_getEntryPtr isEntry] at gone
  cases gone

/-! ## When a move is faithful -/

/-- An interrupted move has changed the tree, but says that it has not been made. -/
theorem interrupted_iff {made : Prop} (changed : moved ≠ tree) :
    (if isInterrupted then
        moved = tree ∧ sandbox.overwrittenFiles tree destination = ∅ else made) ↔
      isInterrupted = false ∧ made := by
  cases isInterrupted with
  | true => simp [changed]
  | false => simp

theorem movesNothing_iff (stays : moved = tree) (same : destination = source) :
    (if isInterrupted then moved = tree ∧ sandbox.overwrittenFiles tree destination = ∅
      else (∀ hash ∈ sandbox.overwrittenFiles tree destination, hash ∉ uniqueFiles moved) ∧
        Carries source destination tree moved) ↔
      sandbox.overwrittenFiles tree destination = ∅ := by
  cases isInterrupted with
  | true => simp [stays]
  | false =>
      simp only [Bool.false_eq_true, if_false]
      constructor
      · rintro ⟨unreferenced, _⟩
        rw [Finset.eq_empty_iff_forall_notMem]
        intro hash member
        apply unreferenced hash member
        obtain ⟨_, names, isFile⟩ := mem_overwrittenFiles.mp member
        rw [stays, mem_uniqueFiles]
        exact ⟨_, isFile⟩
      · intro none
        rw [none, stays, same]
        refine ⟨?_, fun _ _ isFile => isFile⟩
        intro hash member
        exact absurd member (Finset.notMem_empty hash)

theorem safeMove_iff_of_moved
    (moves : Moves sandbox.nextNode source destination tree.1 (.moved moved.1)) :
    (if isInterrupted then moved = tree ∧ sandbox.overwrittenFiles tree destination = ∅
      else (∀ hash ∈ sandbox.overwrittenFiles tree destination, hash ∉ uniqueFiles moved) ∧
        Carries source destination tree moved) ↔
      sandbox.SafeMove tree source destination isInterrupted := by
  generalize isRoot : moved.1 = root at moves
  cases moves with
  | same isSource same =>
      rw [safeMove_of_nothing (.inr (.inl same))]
      exact movesNothing_iff (Subtype.ext isRoot) same
  | intoItself isPrepared isChild isSource differ inside lost =>
      have something := not_movesNothing isSource differ isPrepared
      have changed : moved ≠ tree := by
        intro stays
        apply moved_ne isSource _ (isRoot.symm.trans (congrArg Subtype.val stays))
        rw [observe_detach hidesStatistics_isFolder isChild, if_pos List.prefix_rfl]
      have returns : ¬ sandbox.LoopsBack tree source destination := by
        rintro ⟨prepared', child', isPrepared', isChild', notHere, loops⟩
        obtain rfl := Option.some.inj (isPrepared.symm.trans isPrepared')
        obtain rfl := Option.some.inj (isChild.symm.trans isChild')
        rcases lost with here | broken
        · exact notHere here
        · rw [broken] at loops
          cases loops
      rw [interrupted_iff changed, intoItself_iff isChild inside isRoot,
        safeMove_inside something inside, and_iff_left returns]
  | elsewhere isPrepared isChild isSource differ outside notAbove =>
      have something := not_movesNothing isSource differ isPrepared
      have proper := tree.2.prepareParent isPrepared
      have changed : moved ≠ tree := by
        intro stays
        apply moved_ne isSource _ (isRoot.symm.trans (congrArg Subtype.val stays))
        rw [observe_moved hidesStatistics_isFolder (fun _ _ => EntryInfo.isFolder_rename _)
          proper isChild (getFolderPtr_prepareParent tree.2 isPrepared) outside,
          if_neg notAbove, if_pos List.prefix_rfl]
      rw [interrupted_iff changed, elsewhere_iff isPrepared isChild outside notAbove isRoot,
        safeMove_outside something outside, and_iff_right notAbove]

theorem not_safeMove_of_undefined
    (moves : Moves sandbox.nextNode source destination tree.1 .undefined) :
    ¬ sandbox.SafeMove tree source destination isInterrupted := by
  intro safe
  cases moves with
  | looping isPrepared isChild isSource differ inside loops =>
      have something := not_movesNothing isSource differ isPrepared
      apply (safe.intoItself something inside).2
      rw [not_or, Bool.not_eq_false] at loops
      exact ⟨_, _, isPrepared, isChild, loops⟩
  | overAncestor isSource differ isPrepared outside above =>
      obtain ⟨prepared, isPrepared⟩ := Option.isSome_iff_exists.mp isPrepared
      have something := not_movesNothing isSource differ isPrepared
      exact (safe.elsewhere something outside).1 above

/-- A move is faithful if and only if its paths are locked, or it is safe. -/
theorem movesFaithfully_iff (isOpen : sandbox.upperSandboxFsTree = some tree)
    (noFault : sandbox.fault = none) (source destination : FsPath) (isInterrupted : Bool) :
    sandbox.MovesFaithfully tree source destination isInterrupted ↔
      IsLocked tree source destination ∨
        sandbox.SafeMove tree source destination isInterrupted := by
  by_cases locked : IsLocked tree source destination
  · have faithful : sandbox.MovesFaithfully tree source destination isInterrupted :=
      movesFaithfully_of_isLocked locked noFault
    exact ⟨fun _ => .inl locked, fun _ => faithful⟩
  rw [or_iff_right locked]
  rcases tree.moves_moveFlat sandbox.nextNode source destination with
    ⟨isFailed, moves⟩ | ⟨isUndefined, moves⟩ | ⟨moved, isMoved, moves⟩
  · rw [movesFaithfully_of_failed locked noFault isFailed]
    have nothing : sandbox.MovesNothing tree source destination := by
      cases moves with
      | missing noEntry => exact .inl noEntry
      | noParent _ _ blocked => exact .inr (.inr blocked)
    exact (safeMove_of_nothing nothing).symm
  · exact iff_of_false (not_movesFaithfully_of_undefined locked isUndefined)
      (not_safeMove_of_undefined moves)
  · rw [movesFaithfully_of_moved locked isOpen noFault isMoved]
    exact safeMove_iff_of_moved moves

/-! ## A file that has been written -/

def writtenPath : FsPath := .single "written" (by decide)

def otherPath : FsPath := .single "other" (by decide)

def writtenSandbox : Sandbox := sampleSandbox.after
  [.initiateSandboxModifications [], .openFile writtenPath .write 1 2, .writeFile 0 7, .closeFile 0]

def writtenTree : FsEntryTree := writtenSandbox.upperSandboxFsTree.get (by decide +kernel)

theorem writtenSandbox_isOpen : writtenSandbox.upperSandboxFsTree = some writtenTree :=
  (Option.some_get _).symm

/-- The file is moved to a free place. -/
theorem writtenFile_moves : writtenSandbox.MovesFaithfully writtenTree writtenPath otherPath false := by
  apply (movesFaithfully_iff writtenSandbox_isOpen (by decide +kernel) _ _ _).mpr
  have none : writtenSandbox.overwrittenFiles writtenTree otherPath = ∅ := by decide +kernel
  right
  refine ⟨fun _ => none, fun _ => rfl, ?_, ?_⟩
  · intro _ inside
    exact absurd inside (by decide)
  · intro _ _
    refine ⟨by decide, ?_⟩
    intro hash member
    rw [none] at member
    exact absurd member (Finset.notMem_empty hash)

/-- Moving an entry that is not there to the file fails, but the file is forgotten. -/
theorem missingSource_forgets : ¬ ∀ (sandbox : Sandbox) (tree : FsEntryTree)
    (source destination : FsPath) (isInterrupted : Bool),
    sandbox.upperSandboxFsTree = some tree → sandbox.fault = none →
      sandbox.MovesFaithfully tree source destination isInterrupted := by
  intro all
  have faithful := (all writtenSandbox writtenTree otherPath writtenPath false
    writtenSandbox_isOpen (by decide +kernel)).2
  have failed : (writtenSandbox.moveFsTreeEntry writtenTree otherPath writtenPath false).success =
      false := by decide +kernel
  rw [failed] at faithful
  have forgotten : (writtenSandbox.moveFsTreeEntry writtenTree otherPath writtenPath
      false).sandbox.callManagedHashes = ∅ := by decide +kernel
  have managed : writtenSandbox.callManagedHashes ≠ ∅ := by decide +kernel
  exact managed (faithful.managed.symm.trans forgotten)

end SiriusDrive.Sandbox
