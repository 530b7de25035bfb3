import Mathlib.Data.List.Perm.Subperm
import SiriusDrive.FsTree.Links

/-! # The nodes of an fs tree

Every entry has a node of its own, and the blocks of a node are the streams and
iterators that were opened on it. Entries come with new nodes and leave with theirs.
-/

namespace SiriusDrive

open KeyedTree

namespace FsEntry

variable {root folder entry : FsEntry}

/-! ## What the operations do to the values -/

/-- The counters, the links and the names cannot be seen. -/
structure HidesLinks {β : Type*} (obs : EntryInfo → β) : Prop where
  update (info : EntryInfo) (oldTotal newTotal : Nat) : obs (info.update oldTotal newTotal) = obs info
  setLinked (info : EntryInfo) : obs info.setLinked = obs info
  rename (info : EntryInfo) (name : String) : obs (info.rename name) = obs info

section Observations

variable {β : Type*} {obs : EntryInfo → β}

/-- What can be seen of the entries, in some order. -/
def states (obs : EntryInfo → β) (entry : FsEntry) : List β := entry.values.map obs

theorem HidesLinks.follow (hides : HidesLinks obs) (info : EntryInfo) (child changed : FsEntry) :
    obs (FsEntry.follow info child changed) = obs info := by
  rw [FsEntry.follow]
  split
  · exact hides.update _ _ _
  · rfl

theorem HidesLinks.leave (hides : HidesLinks obs) (info : EntryInfo) (child : FsEntry) :
    obs (if isLinked child then info.update (totalBlocks child) 0 else info) = obs info := by
  split
  · exact hides.update _ _ _
  · rfl

theorem states_node (info : EntryInfo) (childs : List (String × FsEntry)) :
    states obs (.node info childs) = obs info :: (childValues childs).map obs := rfl

theorem states_mapInfo {f : EntryInfo → EntryInfo} (hides : ∀ info, obs (f info) = obs info)
    (entry : FsEntry) : states obs (mapInfo entry f) = states obs entry := by
  obtain ⟨info, childs⟩ := entry
  rw [mapInfo, states_node, value_node, childs_node, hides, states_node]

theorem states_linkChild (hides : HidesLinks obs) (wellFormed : WellFormed entry) (name : String) :
    (states obs (linkChild name entry)).Perm (states obs entry) := by
  obtain ⟨info, childs⟩ := entry
  simp only [linkChild]
  split
  · exact List.Perm.refl _
  · rename_i child isChild
    obtain ⟨before, after⟩ := childValues_of_childAt wellFormed.here.1 isChild
    rw [states_node, states_node, hides.update, hides.leave]
    apply List.Perm.cons
    apply ((after (mapInfo child EntryInfo.setLinked)).map obs).trans
    apply List.Perm.trans _ (before.map obs).symm
    rw [List.map_append, List.map_append]
    apply List.Perm.append_right
    exact List.Perm.of_eq (states_mapInfo hides.setLinked child)

theorem states_detachChild (hides : HidesLinks obs) (wellFormed : WellFormed entry) {name : String}
    {child : FsEntry} (isChild : childAt name entry.childs = some child) :
    (states obs entry).Perm (states obs child ++ states obs (detachChild name entry)) := by
  obtain ⟨info, childs⟩ := entry
  rw [childs_node] at isChild
  obtain ⟨before, _⟩ := childValues_of_childAt wellFormed.here.1 isChild
  rw [detachChild, isChild]
  simp only
  rw [states_node, states_node, hides.leave]
  apply List.Perm.trans ((before.map obs).cons _)
  rw [List.map_append]
  exact List.perm_middle.symm

theorem childValues_eraseChild_subperm (wellFormed : WellFormed entry) (name : String) :
    (childValues (eraseChild name entry.childs)).Subperm (childValues entry.childs) := by
  cases isChild : childAt name entry.childs with
  | none =>
      rw [eraseChild_of_absent (childAt_eq_none_iff.mp isChild)]
  | some child =>
      obtain ⟨before, _⟩ := childValues_of_childAt wellFormed.here.1 isChild
      exact (List.sublist_append_right _ _).subperm.trans before.symm.subperm

theorem states_putChild (hides : HidesLinks obs) (wellFormed : WellFormed entry) (name : String)
    (child : FsEntry) :
    (states obs (putChild name child entry)).Subperm (states obs child ++ states obs entry) := by
  obtain ⟨info, childs⟩ := entry
  have erased := childValues_eraseChild_subperm wellFormed name
  have inserted := childValues_insertChild name (mapInfo child EntryInfo.setLinked)
    (eraseChild name childs)
  rw [putChild, states_node, states_node, hides.update]
  apply List.Subperm.trans _ List.perm_middle.symm.subperm
  apply (List.subperm_cons _).mpr
  apply (inserted.map obs).subperm.trans
  rw [List.map_append]
  have same : (mapInfo child EntryInfo.setLinked).values.map obs = states obs child :=
    states_mapInfo hides.setLinked child
  rw [same]
  obtain ⟨kept, perm, isKept⟩ := erased
  exact (List.subperm_append_left _).mpr ⟨kept.map obs, perm.map obs, isKept.map obs⟩

theorem states_link (hides : HidesLinks obs) (wellFormed : WellFormed root) {parent : List String}
    (isFound : find? parent root = some folder) (name : String) :
    (states obs (modify follow (linkChild name) parent root)).Perm (states obs root) := by
  obtain ⟨rest, before, after⟩ := values_modify_perm hides.follow wellFormed.uniqueKeys isFound
  apply (after (linkChild name)).trans
  apply List.Perm.trans _ before.symm
  exact (states_linkChild hides (wellFormed.found isFound) name).append_right rest

theorem states_detach (hides : HidesLinks obs) (wellFormed : WellFormed root) {path : FsPath}
    (isEntry : getEntryPtr path root = some entry) :
    (states obs root).Perm (states obs entry ++
      states obs (modify follow (detachChild path.filename) path.parentPath.elements root)) := by
  obtain ⟨parent, isParent, isChild⟩ := Option.bind_eq_some_iff.mp isEntry
  have isFound := find?_of_getFolderPtr isParent
  obtain ⟨rest, before, after⟩ := values_modify_perm hides.follow wellFormed.uniqueKeys isFound
  have inner := states_detachChild hides (wellFormed.found isFound) isChild
  apply before.trans
  apply (inner.append_right rest).trans
  rw [List.append_assoc]
  exact (after (detachChild path.filename)).symm.append_left _

theorem states_put (hides : HidesLinks obs) (wellFormed : WellFormed root) {parent : List String}
    (isFound : find? parent root = some folder) (name : String) (child : FsEntry) :
    (states obs (modify follow (putChild name child) parent root)).Subperm
      (states obs child ++ states obs root) := by
  obtain ⟨rest, before, after⟩ := values_modify_perm hides.follow wellFormed.uniqueKeys isFound
  apply (after (putChild name child)).subperm.trans
  apply List.Subperm.trans _ (before.symm.append_left (states obs child)).subperm
  rw [← List.append_assoc]
  exact (List.subperm_append_right rest).mpr
    (states_putChild hides (wellFormed.found isFound) name child)

theorem states_newFolders {made : Nat → β}
    (isMade : ∀ name node, obs (.folder name { node := node }) = made node) (nextNode : Nat)
    (name : String) (names : List String) :
    states obs (newFolders nextNode name names) =
      (List.range' nextNode (names.length + 1)).map made := by
  induction names generalizing nextNode name with
  | nil =>
      rw [newFolders, states_node, isMade]
      rfl
  | cons next names ih =>
      have below := ih (nextNode + 1) next
      rw [states] at below
      rw [newFolders, states_node, childValues, childValues, List.append_nil, below, isMade,
        List.length_cons]
      rfl

theorem states_createFolders {made : Nat → β}
    (isMade : ∀ name node, obs (.folder name { node := node }) = made node) {nextNode : Nat}
    {names : List String} (wellFormed : WellFormed root)
    (created : createFolders nextNode names root = some folder) :
    ∃ count, count ≤ names.length ∧ (states obs folder).Perm
      ((List.range' nextNode count).map made ++ states obs root) := by
  induction names generalizing root folder with
  | nil =>
      cases created
      exact ⟨0, Nat.le_refl 0, List.Perm.refl _⟩
  | cons name names ih =>
      obtain ⟨info, childs⟩ := root
      rw [createFolders] at created
      split at created
      · cases created
        refine ⟨names.length + 1, Nat.le_refl _, ?_⟩
        have inserted := childValues_insertChild name (newFolders nextNode name names) childs
        have new := states_newFolders isMade nextNode name names
        rw [states] at new
        rw [states_node, states_node, ← new]
        apply List.Perm.trans ((inserted.map obs).cons _)
        rw [List.map_append]
        exact List.perm_middle.symm
      · rename_i child isChild
        split at created
        · obtain ⟨changed, isChanged, rfl⟩ := Option.map_eq_some_iff.mp created
          obtain ⟨count, le, inner⟩ :=
            ih (wellFormed.child (mem_of_childAt isChild)) isChanged
          refine ⟨count, Nat.le_succ_of_le le, ?_⟩
          obtain ⟨before, after⟩ := childValues_of_childAt wellFormed.here.1 isChild
          have grown : ((childValues (replaceChild name changed childs)).map obs).Perm
              ((List.range' nextNode count).map made ++ (childValues childs).map obs) := by
            apply ((after changed).map obs).trans
            apply List.Perm.trans _ ((before.map obs).symm.append_left _)
            rw [List.map_append, List.map_append, ← List.append_assoc]
            exact inner.append_right _
          rw [states_node, states_node]
          exact (grown.cons _).trans List.perm_middle.symm
        · cases created

theorem states_addFolder {made : Nat → β} (hides : HidesLinks obs)
    (isMade : ∀ name node, obs (.folder name { node := node }) = made node) {nextNode : Nat}
    {path : FsPath} (tree : IsTree root) (added : addFolder nextNode path root = some folder) :
    ∃ count, count ≤ path.elements.length ∧ (states obs folder).Perm
      ((List.range' nextNode count).map made ++ states obs root) := by
  obtain ⟨created, isCreated, rfl⟩ := Option.map_eq_some_iff.mp added
  obtain ⟨count, le, perm⟩ := states_createFolders isMade tree.wellFormed isCreated
  refine ⟨count, le, ?_⟩
  split
  · exact perm
  · obtain ⟨parent, isParent⟩ := find?_parent_of_createFolders tree.isFolder isCreated
    exact (states_link hides (tree.createFolders isCreated).wellFormed isParent _).trans perm

theorem states_prepareParent {made : Nat → β} (hides : HidesLinks obs)
    (isMade : ∀ name node, obs (.folder name { node := node }) = made node) {nextNode : Nat}
    {path : FsPath} (tree : IsTree root) (prepared : prepareParent nextNode path root = some folder) :
    ∃ count, count ≤ path.elements.length ∧ (states obs folder).Perm
      ((List.range' nextNode count).map made ++ states obs root) := by
  rw [prepareParent] at prepared
  split at prepared
  · cases prepared
    exact ⟨0, Nat.zero_le _, List.Perm.refl _⟩
  · obtain ⟨count, le, perm⟩ := states_addFolder hides isMade tree prepared
    exact ⟨count, Nat.le_trans le path.parentPath_prefix.length_le, perm⟩

theorem states_moveFlat {made : Nat → β} (hides : HidesLinks obs)
    (isMade : ∀ name node, obs (.folder name { node := node }) = made node) {nextNode : Nat}
    {source destination : FsPath} {moved : FsEntry} (tree : IsTree root)
    (moves : Moves nextNode source destination root (.moved moved)) :
    ∃ count, count ≤ destination.elements.length ∧ (states obs moved).Subperm
      ((List.range' nextNode count).map made ++ states obs root) := by
  cases moves with
  | same => exact ⟨0, Nat.zero_le _, List.Subperm.refl _⟩
  | intoItself isPrepared isChild =>
      obtain ⟨count, le, perm⟩ := states_prepareParent hides isMade tree isPrepared
      refine ⟨count, le, ?_⟩
      have parts := states_detach hides (tree.prepareParent isPrepared).wellFormed isChild
      exact (List.sublist_append_right _ _).subperm.trans (parts.symm.trans perm).subperm
  | @elsewhere prepared child isPrepared isChild isSource _ outside notAbove =>
      obtain ⟨count, le, perm⟩ := states_prepareParent hides isMade tree isPrepared
      refine ⟨count, le, ?_⟩
      have proper := tree.prepareParent isPrepared
      have parts := states_detach hides proper.wellFormed isChild
      obtain ⟨parent, isParent, _⟩ := getFolderPtr_detach proper isChild
        (getFolderPtr_prepareParent tree isPrepared) outside
      have detached : IsTree (modify follow (detachChild source.filename)
          source.parentPath.elements prepared) := proper.modify fun found _ inner =>
        inner.detachChild source.filename
      have put := states_put hides detached.wellFormed isParent destination.filename
        (mapInfo child (·.rename destination.filename))
      rw [states_mapInfo fun info => hides.rename info _] at put
      exact put.trans (parts.symm.trans perm).subperm

end Observations

theorem find?_place_createFolders {nextNode : Nat} {names : List String} {filename : String}
    (wellFormed : WellFormed root)
    (created : FsEntry.createFolders nextNode names root = some folder) :
    find? (names ++ [filename]) folder = find? (names ++ [filename]) root := by
  cases isFolder : getFolderPtr names root with
  | some last =>
      rw [createFolders_of_getFolderPtr wellFormed isFolder] at created
      cases created
      rfl
  | none =>
      rw [find?_createFolders isFolder created, find?_append, eq_comm]
      cases isLast : find? names root with
      | none => rfl
      | some last =>
          have proper : WellFormed last := wellFormed.found isLast
          rw [Option.bind_some, find?_cons]
          cases isChild : childAt filename last.childs with
          | none => rfl
          | some child =>
              obtain ⟨info, childs⟩ := last
              have kind := proper.isFolder_of_childAt isChild
              rw [getFolderPtr_of_find? wellFormed isLast kind] at isFolder
              cases isFolder

/-! ## Nodes and their blocks -/

def ownBlocks (info : EntryInfo) : Nat × Nat := (info.statistics.node, info.statistics.blocks)

theorem hidesLinks_ownBlocks : HidesLinks ownBlocks where
  update info _ _ := by cases info <;> rfl
  setLinked info := by cases info <;> rfl
  rename info _ := by cases info <;> rfl

theorem ownBlocks_folder (name : String) (node : Nat) :
    ownBlocks (.folder name { node := node }) = (node, 0) := rfl

/-- The nodes are different, and below a number. -/
structure OwnsNodes (nextNode : Nat) (states : List (Nat × Nat)) : Prop where
  distinct : (states.map Prod.fst).Nodup
  below : ∀ state ∈ states, state.1 < nextNode

/-- The blocks of a node are the handles on it. -/
structure TracksBlocks (nextNode : Nat) (handles : List Nat) (states : List (Nat × Nat)) : Prop
    extends OwnsNodes nextNode states where
  counted : ∀ state ∈ states, state.2 = handles.count state.1

section Tracking

variable {nextNode bound count : Nat} {handles : List Nat} {before after : List (Nat × Nat)}

theorem OwnsNodes.grow (owns : OwnsNodes nextNode before) (le : count ≤ bound)
    (grown : after.Subperm ((List.range' nextNode count).map (·, 0) ++ before)) :
    OwnsNodes (nextNode + bound) after := by
  constructor
  · obtain ⟨kept, perm, isKept⟩ := grown
    rw [← (perm.map Prod.fst).nodup_iff]
    apply List.Nodup.sublist (isKept.map Prod.fst)
    rw [List.map_append, List.map_map, List.nodup_append]
    refine ⟨?_, owns.distinct, ?_⟩
    · simp only [Function.comp_def, List.map_id']
      exact List.nodup_range'
    · intro new isNew old isOld same
      obtain ⟨number, member, rfl⟩ := List.mem_map.mp isNew
      obtain ⟨state, isState, rfl⟩ := List.mem_map.mp isOld
      have small := owns.below state isState
      have large : nextNode ≤ number := (List.mem_range'_1.mp member).1
      simp only [Function.comp_apply] at same
      omega
  · intro state member
    rcases List.mem_append.mp (grown.subset member) with new | old
    · obtain ⟨number, isNew, rfl⟩ := List.mem_map.mp new
      have small := (List.mem_range'_1.mp isNew).2
      change number < nextNode + bound
      omega
    · have small := owns.below state old
      omega

theorem TracksBlocks.grow (tracks : TracksBlocks nextNode handles before)
    (known : ∀ node ∈ handles, node < nextNode) (le : count ≤ bound)
    (grown : after.Subperm ((List.range' nextNode count).map (·, 0) ++ before)) :
    TracksBlocks (nextNode + bound) handles after := by
  refine ⟨tracks.toOwnsNodes.grow le grown, ?_⟩
  intro state member
  rcases List.mem_append.mp (grown.subset member) with new | old
  · obtain ⟨number, isNew, rfl⟩ := List.mem_map.mp new
    have large : nextNode ≤ number := (List.mem_range'_1.mp isNew).1
    symm
    apply List.count_eq_zero.mpr
    intro isHandle
    have small := known number isHandle
    omega
  · exact tracks.counted state old

theorem OwnsNodes.of_perm (owns : OwnsNodes nextNode before) (perm : after.Perm before) :
    OwnsNodes nextNode after := by
  constructor
  · rw [(perm.map Prod.fst).nodup_iff]
    exact owns.distinct
  · intro state member
    exact owns.below state (perm.mem_iff.mp member)

theorem TracksBlocks.change (tracks : TracksBlocks nextNode handles before) {node blocks : Nat}
    {f : Nat → Nat} {rest : List (Nat × Nat)} {changed : List Nat}
    (isBefore : before.Perm ((node, blocks) :: rest))
    (isAfter : after.Perm ((node, f blocks) :: rest))
    (counts : ∀ other, changed.count other =
      if other = node then f (handles.count node) else handles.count other) :
    TracksBlocks nextNode changed after := by
  have owns := tracks.toOwnsNodes.of_perm isBefore.symm
  refine ⟨?_, ?_⟩
  · constructor
    · rw [(isAfter.map Prod.fst).nodup_iff]
      exact owns.distinct
    · intro state member
      rcases List.mem_cons.mp (isAfter.mem_iff.mp member) with rfl | old
      · exact owns.below (node, blocks) List.mem_cons_self
      · exact owns.below state (List.mem_cons_of_mem _ old)
  · intro state member
    rw [counts]
    rcases List.mem_cons.mp (isAfter.mem_iff.mp member) with rfl | old
    · have own := tracks.counted (node, blocks) (isBefore.mem_iff.mpr List.mem_cons_self)
      rw [if_pos rfl]
      exact congrArg f own
    · have other : state.1 ≠ node := by
        intro same
        have distinct := owns.distinct
        rw [List.map_cons, List.nodup_cons] at distinct
        apply distinct.1
        exact List.mem_map.mpr ⟨state, old, same⟩
      rw [if_neg other]
      exact tracks.counted state (isBefore.mem_iff.mpr (List.mem_cons_of_mem _ old))

theorem TracksBlocks.unrelated (tracks : TracksBlocks nextNode handles before) {changed : List Nat}
    (counts : ∀ state ∈ before, changed.count state.1 = handles.count state.1) :
    TracksBlocks nextNode changed before := by
  refine ⟨tracks.toOwnsNodes, ?_⟩
  intro state member
  rw [counts state member]
  exact tracks.counted state member

end Tracking

theorem states_changeBlocks (wellFormed : WellFormed root) (f : Nat → Nat) (node : Nat) :
    (∃ blocks rest, (states ownBlocks root).Perm ((node, blocks) :: rest) ∧
        (states ownBlocks (changeBlocks f node root)).Perm ((node, f blocks) :: rest)) ∨
      ((∀ state ∈ states ownBlocks root, state.1 ≠ node) ∧ changeBlocks f node root = root) := by
  rw [changeBlocks]
  split
  · rename_i address isAddress
    obtain ⟨found, isFound, isNode⟩ := find?_of_addressOf wellFormed.uniqueKeys isAddress
    obtain ⟨rest, before, after⟩ :=
      values_modify_perm hidesLinks_ownBlocks.follow wellFormed.uniqueKeys isFound
    obtain ⟨info, childs⟩ := found
    have own : info.statistics.node = node := of_decide_eq_true isNode
    left
    refine ⟨info.statistics.blocks, (childValues childs).map ownBlocks ++ rest, ?_, ?_⟩
    · rw [← own]
      exact before
    · have changed := after (mapInfo · (·.mapBlocks f))
      have same : ownBlocks (info.mapBlocks f) = (node, f info.statistics.blocks) := by
        rw [← own]
        cases info <;> rfl
      rw [← same]
      exact changed
  · rename_i missing
    right
    refine ⟨?_, rfl⟩
    intro state member same
    obtain ⟨info, isInfo, rfl⟩ := List.mem_map.mp member
    have no := addressOf_eq_none missing isInfo
    exact absurd same (of_decide_eq_false no)

theorem TracksBlocks.changeBlocks {nextNode node : Nat} {handles changed : List Nat}
    {f : Nat → Nat} (wellFormed : WellFormed root)
    (tracks : TracksBlocks nextNode handles (states ownBlocks root))
    (counts : ∀ other, changed.count other =
      if other = node then f (handles.count node) else handles.count other) :
    TracksBlocks nextNode changed (states ownBlocks (FsEntry.changeBlocks f node root)) := by
  rcases states_changeBlocks wellFormed f node with ⟨blocks, rest, before, after⟩ | ⟨other, same⟩
  · exact tracks.change before after counts
  · rw [same]
    apply tracks.unrelated
    intro state member
    rw [counts, if_neg (other state member)]

theorem states_initializeStatistics (handles : List Nat) (entry : FsEntry) :
    states ownBlocks (initializeStatistics handles entry) =
      (states ownBlocks entry).map fun state => (state.1, handles.count state.1) := by
  induction entry using KeyedTree.induct with
  | node info childs ih =>
      have below : (childValues (initializeChilds handles childs)).map ownBlocks =
          ((childValues childs).map ownBlocks).map
            fun state => (state.1, handles.count state.1) := by
        induction childs with
        | nil => rfl
        | cons child childs others =>
            obtain ⟨name, child⟩ := child
            have here := ih name child List.mem_cons_self
            rw [← states_mapInfo hidesLinks_ownBlocks.setLinked, states, states] at here
            rw [initializeChilds, childValues, childValues, List.map_append, List.map_append,
              List.map_append, here, others fun other sibling member =>
                ih other sibling (List.mem_cons_of_mem _ member)]
      have own : ∀ childrenBlocks, ownBlocks (info.setStatistics
          { info.statistics with
            blocks := handles.count info.statistics.node
            childrenBlocks }) =
          ((ownBlocks info).1, handles.count (ownBlocks info).1) := by
        intro childrenBlocks
        cases info <;> rfl
      rw [initializeStatistics, states_node, states_node, own, below, List.map_cons]

theorem tracksBlocks_initializeStatistics {nextNode : Nat}
    (owns : OwnsNodes nextNode (states ownBlocks entry)) (handles : List Nat) :
    TracksBlocks nextNode handles (states ownBlocks (initializeStatistics handles entry)) := by
  rw [states_initializeStatistics]
  refine ⟨⟨?_, ?_⟩, ?_⟩
  · rw [List.map_map]
    exact owns.distinct
  · intro state member
    obtain ⟨old, isOld, rfl⟩ := List.mem_map.mp member
    exact owns.below old isOld
  · intro state member
    obtain ⟨old, isOld, rfl⟩ := List.mem_map.mp member
    rfl

theorem states_mapFiles (f : File → Bool → File × Bool) (entry : FsEntry) :
    states ownBlocks (mapFiles f entry) = states ownBlocks entry := by
  rw [states, mapFiles, values_map, List.map_map]
  apply List.map_congr_left
  intro info _
  cases info <;> rfl

end FsEntry

theorem FsEntryTree.ownsNodes_clearStatisticsNode {tree : FsEntryTree} {nextNode : Nat}
    (owns : FsEntry.OwnsNodes nextNode (FsEntry.states FsEntry.ownBlocks tree.1)) :
    FsEntry.OwnsNodes (nextNode + 1)
      (FsEntry.states FsEntry.ownBlocks (tree.clearStatisticsNode nextNode).1) := by
  obtain ⟨⟨info, childs⟩, isTree⟩ := tree
  have cleared : FsEntry.states FsEntry.ownBlocks
      (FsEntryTree.clearStatisticsNode ⟨.node info childs, isTree⟩ nextNode).1 =
      (nextNode, 0) :: (childValues childs).map FsEntry.ownBlocks := by
    cases info <;> rfl
  rw [cleared]
  rw [FsEntry.states_node] at owns
  have distinct := owns.distinct
  rw [List.map_cons, List.nodup_cons] at distinct
  constructor
  · rw [List.map_cons, List.nodup_cons]
    refine ⟨?_, distinct.2⟩
    intro member
    obtain ⟨state, isState, same⟩ := List.mem_map.mp member
    have small := owns.below state (List.mem_cons_of_mem _ isState)
    rw [same] at small
    exact Nat.lt_irrefl _ small
  · intro state member
    rcases List.mem_cons.mp member with rfl | old
    · exact Nat.lt_succ_self nextNode
    · exact Nat.lt_succ_of_lt (owns.below state (List.mem_cons_of_mem _ old))

theorem count_of_perm_cons {handles others : List Nat} {node : Nat}
    (perm : others.Perm (node :: handles)) (other : Nat) :
    others.count other = if other = node then handles.count node + 1 else handles.count other := by
  rw [perm.count_eq, List.count_cons]
  by_cases same : other = node
  · subst same
    simp
  · simp [same, Ne.symm same]

theorem count_of_cons_perm {handles others : List Nat} {node : Nat}
    (perm : handles.Perm (node :: others)) (other : Nat) :
    others.count other = if other = node then handles.count node - 1 else handles.count other := by
  rw [perm.count_eq, perm.count_eq, List.count_cons, List.count_cons]
  by_cases same : other = node
  · subst same
    simp
  · simp [same, Ne.symm same]

/-! ## Trees with handles -/

/-- A tree whose counters tell where the handles are. -/
structure FsEntryTree.Tracks (nextNode : Nat) (handles : List Nat) (tree : FsEntryTree) : Prop where
  blocks : FsEntry.TracksBlocks nextNode handles (FsEntry.states FsEntry.ownBlocks tree.1)
  counts : FsEntry.Counts tree.1

namespace FsEntryTree

open FsEntry

variable {nextNode bound : Nat} {handles : List Nat} {tree changed : FsEntryTree}

theorem Tracks.mono (tracks : tree.Tracks nextNode handles) (bound : Nat) :
    tree.Tracks (nextNode + bound) handles where
  blocks :=
    { distinct := tracks.blocks.distinct
      below state member := Nat.lt_add_right bound (tracks.blocks.below state member)
      counted := tracks.blocks.counted }
  counts := tracks.counts

theorem tracks_initializeStatistics
    (owns : OwnsNodes nextNode (states ownBlocks tree.1)) (handles : List Nat) :
    (tree.initializeStatistics handles).Tracks nextNode handles where
  blocks := tracksBlocks_initializeStatistics owns handles
  counts := counts_initializeStatistics tree.2.wellFormed handles

theorem Tracks.addFolder {path : FsPath} (tracks : tree.Tracks nextNode handles)
    (known : ∀ node ∈ handles, node < nextNode)
    (added : tree.addFolder nextNode path = some changed) :
    changed.Tracks (nextNode + path.elements.length) handles := by
  have added := some_of_attachWith added
  obtain ⟨count, le, perm⟩ := states_addFolder hidesLinks_ownBlocks ownBlocks_folder tree.2 added
  exact {
    blocks := tracks.blocks.grow known le perm.subperm
    counts := tracks.counts.addFolder added }

theorem Tracks.removeFlat {path : FsPath} (tracks : tree.Tracks nextNode handles)
    (removed : tree.removeFlat path = some changed) : changed.Tracks nextNode handles := by
  have removed := some_of_attachWith removed
  have counts := tracks.counts.removeFlat removed
  obtain ⟨entry, isEntry, same⟩ := Option.map_eq_some_iff.mp removed
  have parts := states_detach hidesLinks_ownBlocks tree.2.wellFormed isEntry
  rw [same] at parts
  have smaller := (List.sublist_append_right _ _).subperm.trans parts.symm.subperm
  refine ⟨⟨⟨?_, ?_⟩, ?_⟩, counts⟩
  · obtain ⟨kept, perm, isKept⟩ := smaller
    rw [← (perm.map Prod.fst).nodup_iff]
    exact tracks.blocks.distinct.sublist (isKept.map Prod.fst)
  · intro state member
    exact tracks.blocks.below state (smaller.subset member)
  · intro state member
    exact tracks.blocks.counted state (smaller.subset member)

theorem find?_removeFlat {path : FsPath} (removed : tree.removeFlat path = some changed) :
    (getFolderPtr path.parentPath.elements changed.1).isSome ∧
      find? path.keys changed.1 = none := by
  have removed := some_of_attachWith removed
  obtain ⟨entry, isEntry, same⟩ := Option.map_eq_some_iff.mp removed
  obtain ⟨folder, isFolder, _⟩ := Option.bind_eq_some_iff.mp isEntry
  have outside : ¬ path.keys <+: path.parentPath.elements := by
    intro inside
    have le := inside.length_le
    rw [FsPath.keys, List.length_append, List.length_singleton] at le
    omega
  constructor
  · obtain ⟨found, isFound, kind⟩ :=
      getFolderPtr_detach tree.2 isEntry (Option.isSome_of_eq_some isFolder) outside
    rw [same] at isFound
    rw [getFolderPtr_of_find? changed.2.wellFormed isFound kind]
    rfl
  · have seen := observe_detach hidesStatistics_isFolder isEntry path.keys
    rw [if_pos List.prefix_rfl, same, observe] at seen
    exact Option.map_eq_none_iff.mp seen

theorem addModifiableFile_eq {path : FsPath} {filename : String} {temporaryHash : InfoHash}
    (isFolder : (getFolderPtr path.elements tree.1).isSome)
    (added : tree.addModifiableFile nextNode path filename temporaryHash = some changed) :
    changed.1 = KeyedTree.modify follow
      (putChild filename
        (.node (.file ⟨filename, temporaryHash, 0⟩ true
          { node := nextNode + path.elements.length }) []))
      path.elements tree.1 := by
  have added := some_of_attachWith added
  obtain ⟨folder, isFolder⟩ := Option.isSome_iff_exists.mp isFolder
  rw [FsEntry.addModifiableFile,
    createFolders_of_getFolderPtr tree.2.wellFormed isFolder] at added
  exact (Option.some.inj added).symm

theorem find?_addModifiableFile {path : FsPath} {filename : String} {temporaryHash : InfoHash}
    (isFolder : (getFolderPtr path.elements tree.1).isSome)
    (added : tree.addModifiableFile nextNode path filename temporaryHash = some changed) :
    (getFolderPtr path.elements changed.1).isSome ∧
      find? (path.elements ++ [filename]) changed.1 =
        some (FsEntry.mapInfo (.node (.file ⟨filename, temporaryHash, 0⟩ true
          { node := nextNode + path.elements.length }) []) EntryInfo.setLinked) := by
  have isChanged := addModifiableFile_eq isFolder added
  obtain ⟨folder, isFolder⟩ := Option.isSome_iff_exists.mp isFolder
  have isFound := find?_of_getFolderPtr isFolder
  have kind := isFolder_of_getFolderPtr isFolder tree.2.isFolder
  constructor
  · have there : find? path.elements changed.1 = some (putChild filename
        (.node (.file ⟨filename, temporaryHash, 0⟩ true
          { node := nextNode + path.elements.length }) []) folder) := by
      have below := @find?_modify_below _ _ _ follow (putChild filename
        (.node (.file ⟨filename, temporaryHash, 0⟩ true
          { node := nextNode + path.elements.length }) [])) _ _ _ isFound []
      rw [List.append_nil, find?_nil] at below
      rw [isChanged]
      exact below
    rw [getFolderPtr_of_find? changed.2.wellFormed there]
    · rfl
    · obtain ⟨info, childs⟩ := folder
      exact (EntryInfo.isFolder_update _ _).trans kind
  · obtain ⟨info, childs⟩ := folder
    have absent : childAt filename (KeyedTree.eraseChild filename childs) = none := by
      rw [childAt_eraseChild, if_pos rfl]
    rw [isChanged, find?_modify_below isFound, putChild, find?_cons, childs_node,
      childAt_insertChild absent, if_pos rfl]
    rfl

theorem Tracks.addModifiableFile {path : FsPath} {filename : String} {temporaryHash : InfoHash}
    (tracks : tree.Tracks nextNode handles) (known : ∀ node ∈ handles, node < nextNode)
    (free : ∀ replaced, find? (path.elements ++ [filename]) tree.1 = some replaced →
      linkedTotal replaced = 0)
    (added : tree.addModifiableFile nextNode path filename temporaryHash = some changed) :
    changed.Tracks (nextNode + path.elements.length + 1) handles := by
  obtain ⟨created, isCreated, isChanged⟩ := Option.map_eq_some_iff.mp (some_of_attachWith added)
  obtain ⟨count, le, perm⟩ := states_createFolders ownBlocks_folder tree.2.wellFormed isCreated
  have grown := tracks.blocks.grow known le perm.subperm
  obtain ⟨folder, isFolder, _⟩ := getFolderPtr_createFolders tree.2.isFolder isCreated
  constructor
  · rw [← isChanged]
    apply grown.grow _ (Nat.le_refl 1)
    · exact states_put hidesLinks_ownBlocks (tree.2.createFolders isCreated).wellFormed
        (find?_of_getFolderPtr isFolder) _ _
    · intro node member
      exact Nat.lt_add_right _ (known node member)
  · rw [← isChanged]
    apply (tracks.counts.createFolders isCreated).put
    · refine counts_node.mpr ⟨List.nodup_nil, rfl, ?_⟩
      intro _ _ member
      cases member
    · intro replaced isReplaced
      rw [find?_place_createFolders tree.2.wellFormed isCreated] at isReplaced
      exact free replaced isReplaced

theorem Tracks.moveFlat {source destination : FsPath} (tracks : tree.Tracks nextNode handles)
    (known : ∀ node ∈ handles, node < nextNode)
    (free : ∀ replaced, getEntryPtr destination tree.1 = some replaced → linkedTotal replaced = 0)
    (moves : Moves nextNode source destination tree.1 (.moved changed.1)) :
    changed.Tracks (nextNode + destination.elements.length) handles := by
  obtain ⟨count, le, subperm⟩ :=
    states_moveFlat hidesLinks_ownBlocks ownBlocks_folder tree.2 moves
  exact {
    blocks := tracks.blocks.grow known le subperm
    counts := tracks.counts.moveFlat tree.2 free moves }

theorem Tracks.changeHandles (tracks : tree.Tracks nextNode handles) {others : List Nat}
    {f : Nat → Nat} {node : Nat}
    (counts : ∀ other, others.count other =
      if other = node then f (handles.count node) else handles.count other)
    (isChanged : changed.1 = FsEntry.changeBlocks f node tree.1) :
    changed.Tracks nextNode others where
  blocks := by
    rw [isChanged]
    exact tracks.blocks.changeBlocks tree.2.wellFormed counts
  counts := by
    rw [isChanged]
    exact tracks.counts.changeBlocks f node

theorem Tracks.addBlock {node : Nat} {others : List Nat}
    (tracks : tree.Tracks nextNode handles) (perm : others.Perm (node :: handles)) :
    (tree.addBlock node).Tracks nextNode others :=
  tracks.changeHandles (count_of_perm_cons perm) rfl

theorem Tracks.removeBlock {node : Nat} {others : List Nat}
    (tracks : tree.Tracks nextNode handles) (perm : handles.Perm (node :: others)) :
    (tree.removeBlock node).Tracks nextNode others :=
  tracks.changeHandles (count_of_cons_perm perm) rfl

theorem ownBlocks_mem {names : List String} {found : FsEntry}
    (isFound : find? names tree.1 = some found) :
    ownBlocks found.value ∈ states ownBlocks tree.1 :=
  List.mem_map.mpr ⟨found.value,
    (mem_values_iff tree.2.wellFormed.uniqueKeys).mpr ⟨names, found, isFound, rfl⟩, rfl⟩

theorem Tracks.statisticsNode_lt {names : List String} (tracks : tree.Tracks nextNode handles)
    {found : FsEntry} (isFound : find? names tree.1 = some found) :
    statisticsNode found < nextNode :=
  tracks.blocks.below _ (ownBlocks_mem isFound)

theorem Tracks.notMem_of_blocks
    (tracks : tree.Tracks nextNode handles) {names : List String} {found : FsEntry}
    (isFound : find? names tree.1 = some found) (free : found.value.statistics.blocks = 0) :
    statisticsNode found ∉ handles := by
  have counted := tracks.blocks.counted _ (ownBlocks_mem isFound)
  apply List.count_eq_zero.mp
  exact counted.symm.trans free

theorem Tracks.notMem_of_totalBlocks
    (tracks : tree.Tracks nextNode handles) {names : List String} {found : FsEntry}
    (isFound : find? names tree.1 = some found) (free : totalBlocks found = 0) :
    statisticsNode found ∉ handles := by
  apply tracks.notMem_of_blocks isFound
  rw [totalBlocks] at free
  omega

end FsEntryTree

end SiriusDrive
