import SiriusDrive.FsTree.Operations
import SiriusDrive.FsTree.SettledBlocks
import SiriusDrive.StreamTask.StreamEntries

/-! # The blocks of the children

A tree with statistics under its operations, while files are opened and closed. Only the last
folder that is created by a path is linked to its parent. The blocks below the others are not
counted in the folders above them.
-/

namespace SiriusDrive

open FsEntry KeyedTree

/-- What is done to a tree with statistics. -/
inductive BlockOperation where
  | addFolder (folderPath : String)
  | addModifiableFile (destinationPath filename : String) (temporaryHash : InfoHash)
  | moveFlat (srcPathAndName destPathAndName : String)
  | removeFlat (fullPath : String)
  /-- A file is opened, or an iterator is made for a folder. -/
  | addBlock (handle : Nat)
  /-- What was opened is closed. -/
  | removeBlock (handle : Nat)

/-- A tree with the next node of its statistics, and the nodes of what is open. -/
structure BlockState where
  fsTree : FsEntryTree
  nextNode : Nat
  handles : List Nat

namespace BlockState

variable (state : BlockState)

/-- `totalBlocks` of an entry, if it is there, is zero. -/
def holdsNoBlocks (keys : List String) : Bool :=
  (find? keys state.fsTree.1).all fun entry => totalBlocks entry = 0

def change (operation : FsTreeOperation) : Option BlockState :=
  (FsTreeState.perform ⟨state.fsTree, state.nextNode⟩ operation).map fun after =>
    { state with fsTree := after.fsTree, nextNode := after.nextNode }

/-- A step, if its behaviour is defined. What an operation takes from its place has no blocks, and
    a block is removed by who added it. -/
def step (state : BlockState) : BlockOperation → Option BlockState
  | .addFolder folderPath => state.change (.addFolder folderPath)
  | .addModifiableFile destinationPath filename temporaryHash =>
      if state.holdsNoBlocks ((FsPath.parse destinationPath).elements ++ [filename]) then
        state.change (.addModifiableFile destinationPath filename temporaryHash)
      else none
  | .moveFlat srcPathAndName destPathAndName =>
      if state.holdsNoBlocks (FsPath.parse srcPathAndName).keys &&
          state.holdsNoBlocks (FsPath.parse destPathAndName).keys then
        state.change (.moveFlat srcPathAndName destPathAndName)
      else none
  | .removeFlat fullPath =>
      if state.holdsNoBlocks (FsPath.parse fullPath).keys then state.change (.removeFlat fullPath)
      else none
  | .addBlock handle =>
      if (addressOf (fun info => info.statistics.node = handle) state.fsTree.1).isSome then
        some { state with
          fsTree := state.fsTree.addBlock handle, handles := handle :: state.handles }
      else none
  | .removeBlock handle =>
      if handle ∈ state.handles then
        some { state with
          fsTree := state.fsTree.removeBlock handle, handles := state.handles.erase handle }
      else none

def blockSystem : Transition BlockState BlockOperation where
  step := step

def initialized (fsTree : FsEntryTree) (nextNode : Nat) (handles : List Nat) : BlockState where
  fsTree := fsTree.initializeStatistics handles
  nextNode := nextNode
  handles := handles

/-- The counter of each folder is the sum over its direct children. -/
def CountsChilds : Prop := All FsEntry.CountsChilds state.fsTree.1

/-- A block is added to an entry only if it and all folders above it are linked. -/
def AddsLinked (state : BlockState) : BlockOperation → Prop
  | .addBlock handle => ∀ address,
      addressOf (fun info => info.statistics.node = handle) state.fsTree.1 = some address →
        isLinkedBelow address state.fsTree.1 = true
  | _ => True

instance decidableAddsLinked : (operation : BlockOperation) → Decidable (state.AddsLinked operation)
  | .addBlock handle => inferInstanceAs (Decidable (∀ address ∈
      addressOf (fun info => info.statistics.node = handle) state.fsTree.1,
        isLinkedBelow address state.fsTree.1 = true))
  | .addFolder .. | .addModifiableFile .. | .moveFlat .. | .removeFlat .. | .removeBlock .. =>
      isTrue trivial

variable {state} {after : BlockState}

theorem totalBlocks_of_holdsNoBlocks {keys : List String} (holdsNone : state.holdsNoBlocks keys = true)
    {entry : FsEntry} (isFound : find? keys state.fsTree.1 = some entry) : totalBlocks entry = 0 := by
  rw [holdsNoBlocks, isFound, Option.all_some] at holdsNone
  exact of_decide_eq_true holdsNone

theorem fsTree_of_change {operation : FsTreeOperation} (changed : state.change operation = some after) :
    ∃ performed, FsTreeState.perform ⟨state.fsTree, state.nextNode⟩ operation = some performed ∧
      after.fsTree = performed.fsTree ∧ after.nextNode = performed.nextNode ∧
      after.handles = state.handles := by
  obtain ⟨performed, isPerformed, rfl⟩ := Option.map_eq_some_iff.mp changed
  exact ⟨performed, isPerformed, rfl, rfl, rfl⟩

/-- Nothing has blocks without being linked. -/
def Settled (state : BlockState) : Prop := FsEntry.Settled state.fsTree.1

theorem Settled.countsChilds (settled : state.Settled) : state.CountsChilds :=
  (settled_iff state.fsTree.2.wellFormed (FsEntry.Settled.counts settled)).mp settled

theorem settled_after {option : Option FsEntryTree} {nodes : Nat} (settled : state.Settled)
    (results : ∀ fsTree, option = some fsTree → FsEntry.Settled fsTree.1) :
    FsEntry.Settled
      (FsTreeState.after ⟨state.fsTree, state.nextNode⟩ nodes option).fsTree.1 := by
  cases isOption : option with
  | none => exact settled
  | some fsTree => exact results fsTree isOption

theorem Settled.addFolder {folderPath : String} (settled : state.Settled)
    (changed : state.change (.addFolder folderPath) = some after) : after.Settled := by
  obtain ⟨performed, isPerformed, same, _⟩ := fsTree_of_change changed
  cases isPerformed
  rw [Settled, same]
  apply settled_after settled
  intro fsTree added
  exact FsEntry.Settled.addFolder settled (FsEntryTree.some_of_attachWith added)

theorem Settled.addModifiableFile {destinationPath filename : String} {temporaryHash : InfoHash}
    (settled : state.Settled)
    (free : state.holdsNoBlocks ((FsPath.parse destinationPath).elements ++ [filename]) = true)
    (changed : state.change (.addModifiableFile destinationPath filename temporaryHash) =
      some after) : after.Settled := by
  obtain ⟨performed, isPerformed, same, _⟩ := fsTree_of_change changed
  cases isPerformed
  rw [Settled, same]
  apply settled_after settled
  intro fsTree added
  exact FsEntry.Settled.addModifiableFile settled state.fsTree.2.wellFormed
    (fun replaced => totalBlocks_of_holdsNoBlocks free) (FsEntryTree.some_of_attachWith added)

theorem Settled.moveFlat {srcPathAndName destPathAndName : String} (settled : state.Settled)
    (noBlocks : state.holdsNoBlocks (FsPath.parse srcPathAndName).keys = true)
    (free : state.holdsNoBlocks (FsPath.parse destPathAndName).keys = true)
    (changed : state.change (.moveFlat srcPathAndName destPathAndName) = some after) :
    after.Settled := by
  obtain ⟨performed, isPerformed, same, _⟩ := fsTree_of_change changed
  rw [Settled, same]
  simp only [FsTreeState.perform] at isPerformed
  rcases state.fsTree.moves_moveFlat state.nextNode (.parse srcPathAndName)
    (.parse destPathAndName) with ⟨isFailed, _⟩ | ⟨isUndefined, _⟩ | ⟨moved, isMoved, moves⟩
  · rw [isFailed] at isPerformed
    cases isPerformed
    exact settled
  · rw [isUndefined] at isPerformed
    cases isPerformed
  · rw [isMoved] at isPerformed
    cases isPerformed
    exact FsEntry.Settled.moveFlat settled state.fsTree.2
      (fun entry => totalBlocks_of_holdsNoBlocks noBlocks)
      (fun replaced => totalBlocks_of_holdsNoBlocks free) moves

theorem Settled.removeFlat {fullPath : String} (settled : state.Settled)
    (changed : state.change (.removeFlat fullPath) = some after) : after.Settled := by
  obtain ⟨performed, isPerformed, same, _⟩ := fsTree_of_change changed
  cases isPerformed
  rw [Settled, same]
  apply settled_after settled
  intro fsTree removed
  exact FsEntry.Settled.removeFlat settled (FsEntryTree.some_of_attachWith removed)

/-- A step keeps the counters right unless it adds a block below something that is not linked. -/
theorem Settled.step {operation : BlockOperation} (settled : state.Settled)
    (adds : state.AddsLinked operation) (stepped : state.step operation = some after) :
    after.Settled := by
  cases operation with
  | addFolder folderPath => exact settled.addFolder stepped
  | addModifiableFile destinationPath filename temporaryHash =>
      obtain ⟨free, changed⟩ := Option.ite_none_right_eq_some.mp stepped
      exact settled.addModifiableFile free changed
  | moveFlat srcPathAndName destPathAndName =>
      obtain ⟨free, changed⟩ := Option.ite_none_right_eq_some.mp stepped
      rw [Bool.and_eq_true] at free
      exact settled.moveFlat free.1 free.2 changed
  | removeFlat fullPath =>
      obtain ⟨_, changed⟩ := Option.ite_none_right_eq_some.mp stepped
      exact settled.removeFlat changed
  | addBlock handle =>
      obtain ⟨isThere, same⟩ := Option.ite_none_right_eq_some.mp stepped
      obtain ⟨address, isAddress⟩ := Option.isSome_iff_exists.mp isThere
      cases same
      exact (settled_addBlock_iff settled state.fsTree.2.wellFormed isAddress).mpr
        (adds address isAddress)
  | removeBlock handle =>
      obtain ⟨_, same⟩ := Option.ite_none_right_eq_some.mp stepped
      cases same
      exact FsEntry.Settled.removeBlock settled handle

/-- A block below something that is not linked is missed by a counter. -/
theorem not_countsChilds_step {operation : BlockOperation} (settled : state.Settled)
    (missed : ¬ state.AddsLinked operation) (stepped : state.step operation = some after) :
    ¬ after.CountsChilds := by
  cases operation with
  | addBlock handle =>
      obtain ⟨isThere, same⟩ := Option.ite_none_right_eq_some.mp stepped
      obtain ⟨address, isAddress⟩ := Option.isSome_iff_exists.mp isThere
      cases same
      intro counts
      apply missed
      intro other isOther
      cases isAddress.symm.trans isOther
      apply (settled_addBlock_iff settled state.fsTree.2.wellFormed isAddress).mp
      have counted : FsEntry.Counts (state.fsTree.addBlock handle).1 :=
        FsEntry.Counts.changeBlocks (FsEntry.Settled.counts settled) _ handle
      exact (settled_iff (state.fsTree.addBlock handle).2.wellFormed counted).mpr counts
  | _ => exact absurd trivial missed

/-- The counters of all folders stay right exactly as long as blocks are only added where
    everything up to the root is linked. -/
theorem countsChilds_always_iff {fsTree : FsEntryTree} {nextNode : Nat} {handles : List Nat}
    {operations : List BlockOperation} {last : BlockState}
    (run : blockSystem.exec (initialized fsTree nextNode handles) operations = some last) :
    blockSystem.Always CountsChilds (initialized fsTree nextNode handles) operations ↔
      blockSystem.Meets AddsLinked (initialized fsTree nextNode handles) operations := by
  have start : (initialized fsTree nextNode handles).Settled :=
    settled_initializeStatistics fsTree.2.wellFormed handles
  apply blockSystem.always_iff_meets (I := Settled) (fun _ settled => settled.countsChilds) _ _
    operations start (blockSystem.meets_enabled run)
  · intro state operation after settled _ adds stepped
    exact settled.step adds stepped
  · intro state operation settled enabled missed
    obtain ⟨after, stepped⟩ := Option.isSome_iff_exists.mp enabled
    exact ⟨after, stepped, not_countsChilds_step settled missed stepped⟩

def shallowOperations : List BlockOperation := [.addFolder "a", .addFolder "a/b", .addBlock 2]

theorem shallow_countsChilds :
    (blockSystem.exec (initialized FsEntryTree.emptyFsTree 1 []) shallowOperations).isSome = true ∧
      blockSystem.Always CountsChilds (initialized FsEntryTree.emptyFsTree 1 [])
        shallowOperations := by
  have isRun : (blockSystem.exec (initialized FsEntryTree.emptyFsTree 1 [])
      shallowOperations).isSome = true := by decide +kernel
  obtain ⟨last, run⟩ := Option.isSome_iff_exists.mp isRun
  exact ⟨isRun, (countsChilds_always_iff run).mpr (by decide +kernel)⟩

def deepOperations : List BlockOperation := [.addFolder "a/b", .addBlock 2]

theorem deep_not_countsChilds : ¬ ∀ (operations : List BlockOperation) (last : BlockState),
    blockSystem.exec (initialized FsEntryTree.emptyFsTree 1 []) operations = some last →
      last.CountsChilds := by
  intro all
  have isRun : (blockSystem.exec (initialized FsEntryTree.emptyFsTree 1 [])
      deepOperations).isSome = true := by decide +kernel
  obtain ⟨last, run⟩ := Option.isSome_iff_exists.mp isRun
  have counts := (all deepOperations last run).here
  have root : last.fsTree.1.value.statistics.childrenBlocks = 0 ∧
      FsEntry.isFolder last.fsTree.1 = true ∧ childBlocks last.fsTree.1.childs = 1 := by
    have seen : (blockSystem.exec (initialized FsEntryTree.emptyFsTree 1 []) deepOperations).map
        (fun last => (last.fsTree.1.value.statistics.childrenBlocks,
          FsEntry.isFolder last.fsTree.1, childBlocks last.fsTree.1.childs)) =
        some (0, true, 1) := by decide +kernel
    rw [run] at seen
    simpa using seen
  have missed := counts root.2.1
  rw [root.1, root.2.2] at missed
  cases missed

/-! ## Blocks and handles -/

/-- The blocks of every node are what is open on it. -/
structure Tracked (state : BlockState) : Prop where
  known : ∀ handle ∈ state.handles, handle < state.nextNode
  tracks : state.fsTree.Tracks state.nextNode state.handles

def RemovesBlock (state : BlockState) : BlockOperation → Prop
  | .removeBlock handle => handle ∈ state.handles → ∀ address entry,
      find? address state.fsTree.1 = some entry → statisticsNode entry = handle →
        0 < entry.value.statistics.blocks
  | _ => True

theorem Tracked.removesBlock (tracked : state.Tracked) (operation : BlockOperation) :
    state.RemovesBlock operation := by
  cases operation with
  | removeBlock handle =>
      intro isOpen address entry isFound isNode
      by_contra none
      have blocks : entry.value.statistics.blocks = 0 := by omega
      apply tracked.tracks.notMem_of_blocks isFound blocks
      rw [isNode]
      exact isOpen
  | _ => trivial

theorem Tracked.replace (tracked : state.Tracked) (nodes : Nat)
    (tracks : after.fsTree.Tracks (state.nextNode + nodes) state.handles)
    (nextNode : after.nextNode = state.nextNode + nodes) (handles : after.handles = state.handles) :
    after.Tracked := by
  constructor
  · rw [handles, nextNode]
    intro handle isOpen
    exact Nat.lt_add_right nodes (tracked.known handle isOpen)
  · rw [handles, nextNode]
    exact tracks

theorem Tracked.after_of_results {option : Option FsEntryTree} {nodes : Nat}
    (tracked : state.Tracked)
    (results : ∀ fsTree, option = some fsTree →
      fsTree.Tracks (state.nextNode + nodes) state.handles)
    (fsTree : after.fsTree = (FsTreeState.after ⟨state.fsTree, state.nextNode⟩ nodes option).fsTree)
    (nextNode : after.nextNode =
      (FsTreeState.after ⟨state.fsTree, state.nextNode⟩ nodes option).nextNode)
    (handles : after.handles = state.handles) : after.Tracked := by
  cases isOption : option with
  | none =>
      rw [isOption] at fsTree nextNode
      apply tracked.replace 0 _ nextNode handles
      rw [fsTree]
      exact tracked.tracks
  | some result =>
      rw [isOption] at fsTree nextNode
      apply tracked.replace nodes _ nextNode handles
      rw [fsTree]
      exact results result isOption

theorem Tracked.moveFlat {srcPathAndName destPathAndName : String} (tracked : state.Tracked)
    (free : state.holdsNoBlocks (FsPath.parse destPathAndName).keys = true)
    (changed : state.change (.moveFlat srcPathAndName destPathAndName) = some after) :
    after.Tracked := by
  obtain ⟨performed, isPerformed, fsTree, nextNode, handles⟩ := fsTree_of_change changed
  simp only [FsTreeState.perform] at isPerformed
  rcases state.fsTree.moves_moveFlat state.nextNode (.parse srcPathAndName)
    (.parse destPathAndName) with ⟨isFailed, _⟩ | ⟨isUndefined, _⟩ | ⟨moved, isMoved, moves⟩
  · rw [isFailed] at isPerformed
    cases isPerformed
    apply tracked.replace 0 _ nextNode handles
    rw [fsTree]
    exact tracked.tracks
  · rw [isUndefined] at isPerformed
    cases isPerformed
  · rw [isMoved] at isPerformed
    cases isPerformed
    apply tracked.replace _ _ nextNode handles
    rw [fsTree]
    apply tracked.tracks.moveFlat tracked.known _ moves
    intro replaced isReplaced
    exact linkedTotal_eq_zero (totalBlocks_of_holdsNoBlocks free (find?_of_getEntryPtr isReplaced))

/-- Every step keeps the blocks of the nodes and what is open together. -/
theorem Tracked.step {operation : BlockOperation} (tracked : state.Tracked)
    (stepped : state.step operation = some after) : after.Tracked := by
  cases operation with
  | addFolder folderPath =>
      obtain ⟨performed, isPerformed, fsTree, nextNode, handles⟩ := fsTree_of_change stepped
      cases isPerformed
      apply tracked.after_of_results _ fsTree nextNode handles
      intro result added
      exact tracked.tracks.addFolder tracked.known added
  | addModifiableFile destinationPath filename temporaryHash =>
      obtain ⟨free, changed⟩ := Option.ite_none_right_eq_some.mp stepped
      obtain ⟨performed, isPerformed, fsTree, nextNode, handles⟩ := fsTree_of_change changed
      cases isPerformed
      apply tracked.after_of_results _ fsTree nextNode handles
      intro result added
      apply tracked.tracks.addModifiableFile tracked.known _ added
      intro replaced isReplaced
      exact linkedTotal_eq_zero (totalBlocks_of_holdsNoBlocks free isReplaced)
  | moveFlat srcPathAndName destPathAndName =>
      obtain ⟨free, changed⟩ := Option.ite_none_right_eq_some.mp stepped
      rw [Bool.and_eq_true] at free
      exact tracked.moveFlat free.2 changed
  | removeFlat fullPath =>
      obtain ⟨_, changed⟩ := Option.ite_none_right_eq_some.mp stepped
      obtain ⟨performed, isPerformed, fsTree, nextNode, handles⟩ := fsTree_of_change changed
      cases isPerformed
      apply tracked.after_of_results _ fsTree nextNode handles
      intro result removed
      exact tracked.tracks.removeFlat removed
  | addBlock handle =>
      obtain ⟨isThere, same⟩ := Option.ite_none_right_eq_some.mp stepped
      obtain ⟨address, isAddress⟩ := Option.isSome_iff_exists.mp isThere
      obtain ⟨entry, isFound, isNode⟩ :=
        find?_of_addressOf state.fsTree.2.wellFormed.uniqueKeys isAddress
      cases same
      constructor
      · intro other isOpen
        rcases List.mem_cons.mp isOpen with rfl | old
        · rw [← of_decide_eq_true isNode]
          exact tracked.tracks.statisticsNode_lt isFound
        · exact tracked.known other old
      · exact tracked.tracks.addBlock (List.Perm.refl _)
  | removeBlock handle =>
      obtain ⟨isOpen, same⟩ := Option.ite_none_right_eq_some.mp stepped
      cases same
      constructor
      · intro other stillOpen
        exact tracked.known other (List.mem_of_mem_erase stillOpen)
      · exact tracked.tracks.removeBlock (List.perm_cons_erase isOpen)

theorem tracked_initialized {fsTree : FsEntryTree} {nextNode : Nat} {handles : List Nat}
    (owns : OwnsNodes nextNode (states ownBlocks fsTree.1))
    (known : ∀ handle ∈ handles, handle < nextNode) :
    (initialized fsTree nextNode handles).Tracked where
  known := known
  tracks := FsEntryTree.tracks_initializeStatistics owns handles

/-- No block is ever removed from a node that has none. -/
theorem removesBlock_always {fsTree : FsEntryTree} {nextNode : Nat} {handles : List Nat}
    (owns : OwnsNodes nextNode (states ownBlocks fsTree.1))
    (known : ∀ handle ∈ handles, handle < nextNode) (operations : List BlockOperation) :
    blockSystem.Meets RemovesBlock (initialized fsTree nextNode handles) operations := by
  have free : blockSystem.Meets (fun _ _ => True) (initialized fsTree nextNode handles) operations :=
    blockSystem.meets_of_forall (P := fun _ => True) fun _ _ => trivial
  apply Transition.Meets.of_invariant (I := Tracked) _ _ (tracked_initialized owns known) free
  · intro state operation tracked _
    exact tracked.removesBlock operation
  · intro state operation after tracked _ stepped
    exact tracked.step stepped

theorem removesBlock_always_sample :
    (blockSystem.exec (initialized FsEntryTree.emptyFsTree 1 [])
      (deepOperations ++ [.removeBlock 2])).isSome = true ∧
    blockSystem.Meets RemovesBlock (initialized FsEntryTree.emptyFsTree 1 [])
      (deepOperations ++ [.removeBlock 2]) := by
  refine ⟨by decide +kernel, removesBlock_always ⟨?_, ?_⟩ (by simp) _⟩
  · decide
  · decide

end BlockState

end SiriusDrive
