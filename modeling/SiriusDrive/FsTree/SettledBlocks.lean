import SiriusDrive.FsTree.Nodes

/-! # Blocks of entries that are not linked

The counter of a folder misses what is not linked to it. The counters still are the sums over all
children as long as nothing that is not linked has blocks.
-/

namespace SiriusDrive

open KeyedTree

namespace FsEntry

variable {root folder entry : FsEntry}

/-- The blocks of all children together, linked or not. -/
def childBlocks (childs : List (String × FsEntry)) : Nat :=
  (childs.map fun child => totalBlocks child.2).sum

theorem childBlocks_cons (name : String) (child : FsEntry) (childs : List (String × FsEntry)) :
    childBlocks ((name, child) :: childs) = totalBlocks child + childBlocks childs := by
  rw [childBlocks, List.map_cons, List.sum_cons, childBlocks]

/-- The counter of a folder is the sum over all its children. -/
def CountsChilds (entry : FsEntry) : Prop :=
  isFolder entry = true →
    entry.value.statistics.childrenBlocks = childBlocks entry.childs

/-- The counter is right, and no child that is not linked has blocks. -/
structure IsSettled (entry : FsEntry) : Prop extends SumsChilds entry where
  idle : ∀ name child, (name, child) ∈ entry.childs → isLinked child = false → totalBlocks child = 0

/-- Nothing in the tree has blocks without being linked. -/
abbrev Settled (entry : FsEntry) : Prop := All IsSettled entry

theorem Settled.counts (settled : Settled entry) : Counts entry :=
  settled.mono fun _ here => here.toSumsChilds

theorem settled_node {info : EntryInfo} {childs : List (String × FsEntry)} :
    Settled (.node info childs) ↔ Counts (.node info childs) ∧
      ∀ name child, (name, child) ∈ childs →
        (isLinked child = false → totalBlocks child = 0) ∧ Settled child := by
  constructor
  · intro settled
    refine ⟨settled.counts, ?_⟩
    intro name child member
    exact ⟨settled.here.idle name child member, settled.child member⟩
  · rintro ⟨counts, each⟩
    obtain ⟨distinct, sum, _⟩ := counts_node.mp counts
    apply All.node
    · exact ⟨⟨distinct, sum⟩, fun name child member => (each name child member).1⟩
    · intro name child member
      exact (each name child member).2

/-! ## The sums -/

theorem linkedTotal_le (child : FsEntry) : linkedTotal child ≤ totalBlocks child := by
  rw [linkedTotal]
  split
  · exact Nat.le_refl _
  · exact Nat.zero_le _

theorem linkedTotal_eq_iff {child : FsEntry} :
    linkedTotal child = totalBlocks child ↔ (isLinked child = false → totalBlocks child = 0) := by
  rw [linkedTotal]
  cases isLinked child with
  | true => simp
  | false => simp [eq_comm]

theorem linkedBlocks_le (childs : List (String × FsEntry)) :
    linkedBlocks childs ≤ childBlocks childs := by
  induction childs with
  | nil => exact Nat.le_refl 0
  | cons child childs ih =>
      obtain ⟨name, child⟩ := child
      have here := linkedTotal_le child
      rw [linkedBlocks_cons, childBlocks_cons]
      omega

theorem linkedBlocks_eq_iff (childs : List (String × FsEntry)) :
    linkedBlocks childs = childBlocks childs ↔
      ∀ name child, (name, child) ∈ childs → isLinked child = false → totalBlocks child = 0 := by
  induction childs with
  | nil => simp [linkedBlocks, childBlocks]
  | cons child childs ih =>
      obtain ⟨name, child⟩ := child
      have here := linkedTotal_le child
      have later := linkedBlocks_le childs
      rw [linkedBlocks_cons, childBlocks_cons]
      constructor
      · intro same other sibling member
        rcases List.mem_cons.mp member with isHere | isLater
        · cases isHere
          apply linkedTotal_eq_iff.mp
          omega
        · refine ih.mp ?_ other sibling isLater
          omega
      · intro idle
        have first := linkedTotal_eq_iff.mpr (idle name child List.mem_cons_self)
        have rest := ih.mpr fun other sibling member =>
          idle other sibling (List.mem_cons_of_mem _ member)
        rw [first, rest]

/-- Where the counters are right for the linked children, they are so for all of them exactly when
    the others have no blocks. -/
theorem settled_iff (wellFormed : WellFormed entry) (counts : Counts entry) :
    Settled entry ↔ All CountsChilds entry := by
  induction entry using KeyedTree.induct with
  | node info childs ih =>
      obtain ⟨distinct, sum, each⟩ := counts_node.mp counts
      constructor
      · intro settled
        apply All.node
        · intro _
          exact sum.trans ((linkedBlocks_eq_iff childs).mpr settled.here.idle)
        · intro name child member
          exact (ih name child member (wellFormed.child member) (each name child member)).mp
            (settled.child member)
      · intro all
        apply settled_node.mpr
        refine ⟨counts, ?_⟩
        intro name child member
        constructor
        · have isFolder : FsEntry.isFolder (.node info childs) = true := by
            by_contra notFolder
            have none : childs = [] := wellFormed.here.2 (by simpa using notFolder)
            rw [none] at member
            cases member
          exact (linkedBlocks_eq_iff childs).mp (sum.symm.trans (all.here isFolder)) name child member
        · exact (ih name child member (wellFormed.child member) (each name child member)).mpr
            (all.child member)

/-! ## Changing an entry -/

/-- The entry has no more blocks than before, and is linked as before. -/
structure Lowers (before after : FsEntry) : Prop where
  isLinked : isLinked after = isLinked before
  totalBlocks : totalBlocks after ≤ totalBlocks before

theorem lowers_self (entry : FsEntry) : Lowers entry entry := ⟨rfl, Nat.le_refl _⟩

theorem Lowers.linkedTotal {before after : FsEntry} (lowers : Lowers before after) :
    linkedTotal after ≤ linkedTotal before := by
  rw [FsEntry.linkedTotal, FsEntry.linkedTotal, lowers.isLinked]
  split
  · exact lowers.totalBlocks
  · exact Nat.le_refl 0

theorem blocks_update (info : EntryInfo) (oldTotal newTotal : Nat) :
    (info.update oldTotal newTotal).statistics.blocks = info.statistics.blocks := by
  cases info <;> rfl

theorem blocks_follow (info : EntryInfo) (child changed : FsEntry) :
    (follow info child changed).statistics.blocks = info.statistics.blocks := by
  rw [follow]
  split
  · exact blocks_update _ _ _
  · rfl

/-- An entry whose own blocks stay has no more blocks than before if its counter is no larger. -/
theorem lowers_of_childrenBlocks {info other : EntryInfo} {childs others : List (String × FsEntry)}
    (blocks : other.statistics.blocks = info.statistics.blocks)
    (isLinked : other.statistics.isLinked = info.statistics.isLinked)
    (le : other.statistics.childrenBlocks ≤ info.statistics.childrenBlocks) :
    Lowers (.node info childs) (.node other others) := by
  refine ⟨isLinked, ?_⟩
  rw [totalBlocks, totalBlocks, value_node, value_node, blocks]
  exact Nat.add_le_add_left le _

theorem Settled.modify {f : FsEntry → FsEntry} {address : List String} (settled : Settled root)
    (changes : ∀ found, find? address root = some found → Settled found →
      Settled (f found) ∧ Lowers found (f found)) :
    Settled (KeyedTree.modify follow f address root) ∧
      Lowers root (KeyedTree.modify follow f address root) := by
  refine All.modify settled changes lowers_self ?_
  intro info childs name child changed here isChild lowers
  have distinct : (childs.map Prod.fst).Nodup := here.distinct
  have before : info.statistics.childrenBlocks =
      linkedTotal child + linkedBlocks (eraseChild name childs) :=
    here.sum.trans (linkedBlocks_of_childAt distinct isChild)
  have after := childrenBlocks_follow before lowers.isLinked
  refine ⟨⟨⟨?_, ?_⟩, ?_⟩, ?_⟩
  · rw [childs_node, keys_replaceChild]
    exact distinct
  · rw [childs_node, linkedBlocks_replaceChild distinct isChild]
    exact after
  · intro other sibling member notLinked
    obtain ⟨⟨first, old⟩, isOld, same⟩ := List.mem_map.mp member
    simp only at same
    split at same
    · cases same
      rw [lowers.isLinked] at notLinked
      have none := here.idle name child (mem_of_childAt isChild) notLinked
      have fewer := lowers.totalBlocks
      omega
    · cases same
      exact here.idle _ _ isOld notLinked
  · apply lowers_of_childrenBlocks (blocks_follow info child changed) (isLinked_follow info child changed)
    have fewer := lowers.linkedTotal
    omega

theorem Settled.mapInfo (settled : Settled entry) {f : EntryInfo → EntryInfo}
    (same : ∀ info, (f info).statistics.childrenBlocks = info.statistics.childrenBlocks) :
    Settled (FsEntry.mapInfo entry f) := by
  obtain ⟨info, childs⟩ := entry
  obtain ⟨counts, each⟩ := settled_node.mp settled
  exact settled_node.mpr ⟨counts.setValue (same info), each⟩

theorem childrenBlocks_setLinked (info : EntryInfo) :
    info.setLinked.statistics.childrenBlocks = info.statistics.childrenBlocks := by
  cases info <;> rfl

theorem isLinked_setLinked (child : FsEntry) :
    isLinked (FsEntry.mapInfo child EntryInfo.setLinked) = true := by
  obtain ⟨info, childs⟩ := child
  cases info <;> rfl

theorem totalBlocks_setLinked (child : FsEntry) :
    totalBlocks (FsEntry.mapInfo child EntryInfo.setLinked) = totalBlocks child := by
  obtain ⟨info, childs⟩ := child
  cases info <;> rfl

theorem childrenBlocks_linkChild {info : EntryInfo} {childs : List (String × FsEntry)}
    {name : String} {child : FsEntry} (here : IsSettled (.node info childs))
    (isChild : childAt name childs = some child) :
    ((if isLinked child then info.update (totalBlocks child) 0 else info).update 0
      (totalBlocks child)).statistics.childrenBlocks = info.statistics.childrenBlocks := by
  have before : info.statistics.childrenBlocks =
      linkedTotal child + linkedBlocks (eraseChild name childs) :=
    here.sum.trans (linkedBlocks_of_childAt here.distinct isChild)
  have total := linkedTotal_eq_iff.mpr (here.idle name child (mem_of_childAt isChild))
  rw [childrenBlocks_update, childrenBlocks_leave before]
  omega

theorem Settled.linkChild (settled : Settled entry) (name : String) :
    Settled (FsEntry.linkChild name entry) ∧ Lowers entry (FsEntry.linkChild name entry) := by
  obtain ⟨info, childs⟩ := entry
  have counted := settled.counts.linkChild name
  obtain ⟨_, each⟩ := settled_node.mp settled
  simp only [FsEntry.linkChild] at counted ⊢
  split at counted
  · exact ⟨settled, lowers_self _⟩
  · rename_i child isChild
    constructor
    · apply settled_node.mpr
      refine ⟨counted.1, ?_⟩
      intro other sibling member
      obtain ⟨⟨first, old⟩, isOld, same⟩ := List.mem_map.mp member
      simp only at same
      split at same
      · cases same
        obtain ⟨_, inner⟩ := each _ _ (mem_of_childAt isChild)
        refine ⟨?_, inner.mapInfo childrenBlocks_setLinked⟩
        intro notLinked
        rw [isLinked_setLinked] at notLinked
        cases notLinked
      · cases same
        exact each _ _ isOld
    · apply lowers_of_childrenBlocks
      · rw [blocks_update]
        split
        · exact blocks_update _ _ _
        · rfl
      · exact counted.2
      · exact Nat.le_of_eq (childrenBlocks_linkChild settled.here isChild)

theorem Settled.detachChild (settled : Settled entry) (name : String) :
    Settled (FsEntry.detachChild name entry) ∧ Lowers entry (FsEntry.detachChild name entry) := by
  obtain ⟨info, childs⟩ := entry
  have counted := settled.counts.detachChild name
  obtain ⟨_, each⟩ := settled_node.mp settled
  simp only [FsEntry.detachChild] at counted ⊢
  split at counted
  · exact ⟨settled, lowers_self _⟩
  · rename_i child isChild
    have before : info.statistics.childrenBlocks =
        linkedTotal child + linkedBlocks (eraseChild name childs) :=
      settled.here.sum.trans (linkedBlocks_of_childAt settled.here.distinct isChild)
    constructor
    · apply settled_node.mpr
      refine ⟨counted.1, ?_⟩
      intro other sibling member
      exact each other sibling (List.mem_filter.mp member).1
    · apply lowers_of_childrenBlocks
      · split
        · exact blocks_update _ _ _
        · rfl
      · exact counted.2
      · rw [childrenBlocks_leave before]
        omega

theorem Settled.putChild (settled : Settled entry) (name : String) {child : FsEntry}
    (inner : Settled child) (noBlocks : totalBlocks child = 0)
    (free : ∀ replaced, childAt name entry.childs = some replaced → linkedTotal replaced = 0) :
    Settled (FsEntry.putChild name child entry) ∧
      Lowers entry (FsEntry.putChild name child entry) := by
  obtain ⟨info, childs⟩ := entry
  have counted := settled.counts.putChild name inner.counts free
  obtain ⟨_, each⟩ := settled_node.mp settled
  have perm := insertChild_perm name (FsEntry.mapInfo child EntryInfo.setLinked)
    (eraseChild name childs)
  rw [FsEntry.putChild] at counted ⊢
  constructor
  · apply settled_node.mpr
    refine ⟨counted.1, ?_⟩
    intro other sibling member
    rcases List.mem_cons.mp (perm.mem_iff.mp member) with same | old
    · cases same
      refine ⟨?_, inner.mapInfo childrenBlocks_setLinked⟩
      intro _
      rw [totalBlocks_setLinked]
      exact noBlocks
    · exact each other sibling (List.mem_filter.mp old).1
  · apply lowers_of_childrenBlocks (blocks_update _ _ _) counted.2
    rw [childrenBlocks_update, noBlocks]
    omega

/-! ## The operations -/

theorem Settled.link (settled : Settled root) (name : String) (parent : List String) :
    Settled (KeyedTree.modify follow (FsEntry.linkChild name) parent root) := by
  apply And.left
  apply settled.modify
  intro found _ inner
  exact inner.linkChild name

theorem Settled.detach (settled : Settled root) (name : String) (parent : List String) :
    Settled (KeyedTree.modify follow (FsEntry.detachChild name) parent root) := by
  apply And.left
  apply settled.modify
  intro found _ inner
  exact inner.detachChild name

theorem Settled.put (settled : Settled root) {name : String} {parent : List String} {child : FsEntry}
    (inner : Settled child) (noBlocks : totalBlocks child = 0)
    (free : ∀ replaced, find? (parent ++ [name]) root = some replaced → linkedTotal replaced = 0) :
    Settled (KeyedTree.modify follow (FsEntry.putChild name child) parent root) := by
  apply And.left
  apply settled.modify
  intro found isFound outer
  apply outer.putChild name inner noBlocks
  intro replaced isReplaced
  apply free
  rw [find?_append, isFound, Option.bind_some, find?_cons, isReplaced]
  rfl

theorem settled_newFolders (nextNode : Nat) (name : String) (names : List String) :
    Settled (newFolders nextNode name names) ∧ totalBlocks (newFolders nextNode name names) = 0 := by
  induction names generalizing nextNode name with
  | nil =>
      refine ⟨settled_node.mpr ⟨(counts_newFolders nextNode name []).1, ?_⟩, rfl⟩
      intro _ _ member
      cases member
  | cons next names ih =>
      obtain ⟨inner, none⟩ := ih (nextNode + 1) next
      refine ⟨settled_node.mpr ⟨(counts_newFolders nextNode name (next :: names)).1, ?_⟩, rfl⟩
      intro other child member
      cases List.mem_singleton.mp member
      exact ⟨fun _ => none, inner⟩

theorem Settled.createFolders {nextNode : Nat} {names : List String} (settled : Settled root)
    (created : FsEntry.createFolders nextNode names root = some folder) : Settled folder := by
  induction names generalizing root folder with
  | nil =>
      cases created
      exact settled
  | cons name names ih =>
      obtain ⟨info, childs⟩ := root
      have counted := settled.counts.createFolders created
      obtain ⟨_, each⟩ := settled_node.mp settled
      rw [FsEntry.createFolders] at created
      split at created
      · cases created
        obtain ⟨inner, none⟩ := settled_newFolders nextNode name names
        apply settled_node.mpr
        refine ⟨counted, ?_⟩
        intro other sibling member
        rcases List.mem_cons.mp ((insertChild_perm _ _ childs).mem_iff.mp member) with same | old
        · cases same
          exact ⟨fun _ => none, inner⟩
        · exact each other sibling old
      · rename_i child isChild
        split at created
        · obtain ⟨changed, isChanged, rfl⟩ := Option.map_eq_some_iff.mp created
          obtain ⟨found, isFound, value⟩ := value_createFolders isChanged (find?_nil child)
          cases isFound
          apply settled_node.mpr
          refine ⟨counted, ?_⟩
          intro other sibling member
          obtain ⟨⟨first, old⟩, isOld, same⟩ := List.mem_map.mp member
          simp only at same
          split at same
          · cases same
            obtain ⟨idle, inner⟩ := each _ _ (mem_of_childAt isChild)
            refine ⟨?_, ih inner isChanged⟩
            rw [isLinked, totalBlocks_of_value value, value]
            exact idle
          · cases same
            exact each _ _ isOld
        · cases created

theorem Settled.addFolder {nextNode : Nat} {path : FsPath} (settled : Settled root)
    (added : FsEntry.addFolder nextNode path root = some folder) : Settled folder := by
  obtain ⟨created, isCreated, rfl⟩ := Option.map_eq_some_iff.mp added
  have grown := settled.createFolders isCreated
  split
  · exact grown
  · exact Settled.link grown _ _

theorem Settled.prepareParent {nextNode : Nat} {path : FsPath} (settled : Settled root)
    (prepared : FsEntry.prepareParent nextNode path root = some folder) : Settled folder := by
  rw [FsEntry.prepareParent] at prepared
  split at prepared
  · cases prepared
    exact settled
  · exact settled.addFolder prepared

theorem Settled.removeFlat {path : FsPath} (settled : Settled root)
    (removed : FsEntry.removeFlat path root = some folder) : Settled folder := by
  obtain ⟨entry, _, rfl⟩ := Option.map_eq_some_iff.mp removed
  exact settled.detach _ _

/-! ## Entries elsewhere -/

theorem totalBlocks_below_linkChild {name : String} {names : List String} {found : FsEntry}
    (settled : Settled root) (isFound : find? names root = some entry)
    (isThere : find? names (FsEntry.linkChild name root) = some found) :
    totalBlocks found ≤ totalBlocks entry := by
  cases names with
  | nil =>
      cases isFound
      cases isThere
      exact (settled.linkChild name).2.totalBlocks
  | cons first rest =>
      obtain ⟨info, childs⟩ := root
      simp only [FsEntry.linkChild] at isThere
      split at isThere
      · cases isFound.symm.trans isThere
        exact Nat.le_refl _
      · rename_i child isChild
        rw [find?_cons, childs_node, childAt_replaceChild] at isThere
        rw [find?_cons, childs_node] at isFound
        by_cases same : first = name
        · subst same
          rw [if_pos rfl, isChild, Option.map_some, Option.bind_some] at isThere
          rw [isChild, Option.bind_some] at isFound
          cases rest with
          | nil =>
              cases isFound
              cases isThere
              exact Nat.le_of_eq (totalBlocks_setLinked _)
          | cons next rest =>
              rw [find?_cons] at isFound isThere
              cases isFound.symm.trans isThere
              exact Nat.le_refl _
        · rw [if_neg same] at isThere
          cases isFound.symm.trans isThere
          exact Nat.le_refl _

theorem totalBlocks_link {name : String} {parent names : List String} {found : FsEntry}
    (settled : Settled root) (isFound : find? names root = some entry)
    (isThere : find? names (KeyedTree.modify follow (FsEntry.linkChild name) parent root) =
      some found) : totalBlocks found ≤ totalBlocks entry := by
  induction parent generalizing root names with
  | nil => exact totalBlocks_below_linkChild settled isFound isThere
  | cons key parent ih =>
      cases names with
      | nil =>
          cases isFound
          cases isThere
          apply Lowers.totalBlocks
          apply And.right
          apply settled.modify
          intro inner _ isSettled
          exact isSettled.linkChild name
      | cons first rest =>
          cases isChild : childAt key root.childs with
          | none =>
              rw [modify_cons_of_none isChild] at isThere
              cases isFound.symm.trans isThere
              exact Nat.le_refl _
          | some child =>
              rw [modify_cons_of_some isChild, find?_cons, childs_node, childAt_replaceChild]
                at isThere
              rw [find?_cons] at isFound
              by_cases same : first = key
              · subst same
                rw [if_pos rfl, isChild, Option.map_some, Option.bind_some] at isThere
                rw [isChild, Option.bind_some] at isFound
                exact ih (settled.child (mem_of_childAt isChild)) isFound isThere
              · rw [if_neg same] at isThere
                cases isFound.symm.trans isThere
                exact Nat.le_refl _

/-- An entry has no more blocks after the parent of another path has been added. -/
theorem totalBlocks_prepareParent {nextNode : Nat} {path : FsPath} {names : List String}
    {found : FsEntry} (settled : Settled root)
    (prepared : prepareParent nextNode path root = some folder)
    (isFound : find? names root = some entry) (isThere : find? names folder = some found) :
    totalBlocks found ≤ totalBlocks entry := by
  rw [FsEntry.prepareParent] at prepared
  split at prepared
  · cases prepared
    cases isFound.symm.trans isThere
    exact Nat.le_refl _
  · obtain ⟨created, isCreated, rfl⟩ := Option.map_eq_some_iff.mp prepared
    obtain ⟨old, isOld, value⟩ := value_createFolders isCreated isFound
    rw [← totalBlocks_of_value value]
    split at isThere
    · cases isOld.symm.trans isThere
      exact Nat.le_refl _
    · exact totalBlocks_link (settled.createFolders isCreated) isOld isThere

theorem Settled.addModifiableFile {nextNode : Nat} {destination : FsPath} {filename : String}
    {temporaryHash : InfoHash} (settled : Settled root) (wellFormed : WellFormed root)
    (free : ∀ replaced, find? (destination.elements ++ [filename]) root = some replaced →
      totalBlocks replaced = 0)
    (added : FsEntry.addModifiableFile nextNode destination filename temporaryHash root =
      some folder) : Settled folder := by
  obtain ⟨created, isCreated, rfl⟩ := Option.map_eq_some_iff.mp added
  apply (settled.createFolders isCreated).put _ rfl
  · intro replaced isReplaced
    rw [find?_place_createFolders wellFormed isCreated] at isReplaced
    exact linkedTotal_eq_zero (free replaced isReplaced)
  · refine settled_node.mpr ⟨counts_node.mpr ⟨List.nodup_nil, rfl, ?_⟩, ?_⟩
    · intro _ _ member
      cases member
    · intro _ _ member
      cases member

theorem Settled.moveFlat {nextNode : Nat} {source destination : FsPath} {moved : FsEntry}
    (settled : Settled root) (tree : IsTree root)
    (noBlocks : ∀ entry, find? source.keys root = some entry → totalBlocks entry = 0)
    (free : ∀ replaced, find? destination.keys root = some replaced → totalBlocks replaced = 0)
    (moves : Moves nextNode source destination root (.moved moved)) : Settled moved := by
  cases moves with
  | same => exact settled
  | intoItself isPrepared => exact (settled.prepareParent isPrepared).detach _ _
  | @elsewhere prepared child isPrepared isChild isSource _ outside notAbove =>
      have grown := settled.prepareParent isPrepared
      have isThere := find?_of_getEntryPtr isChild
      have inner : Settled child := grown.found isThere
      obtain ⟨entry, isEntry⟩ := Option.isSome_iff_exists.mp isSource
      have isFound := find?_of_getEntryPtr isEntry
      have none : totalBlocks child = 0 := by
        have le := totalBlocks_prepareParent settled isPrepared isFound isThere
        rw [noBlocks entry isFound] at le
        exact Nat.le_zero.mp le
      apply Settled.put (grown.detach _ _)
      · apply inner.mapInfo
        intro info
        rw [EntryInfo.statistics_rename]
      · rw [totalBlocks, FsEntry.mapInfo, value_node, EntryInfo.statistics_rename]
        exact none
      · intro replaced isReplaced
        apply linkedTotal_eq_zero
        apply free
        rw [← find?_destination tree isPrepared isChild outside notAbove]
        exact isReplaced

/-! ## Adding and removing blocks -/

theorem childrenBlocks_mapBlocks (info : EntryInfo) (f : Nat → Nat) :
    (info.mapBlocks f).statistics.childrenBlocks = info.statistics.childrenBlocks := by
  cases info <;> rfl

theorem blocks_mapBlocks (info : EntryInfo) (f : Nat → Nat) :
    (info.mapBlocks f).statistics.blocks = f info.statistics.blocks := by
  cases info <;> rfl

theorem isLinked_mapBlocks (info : EntryInfo) (f : Nat → Nat) :
    (info.mapBlocks f).statistics.isLinked = info.statistics.isLinked := by
  cases info <;> rfl

theorem Settled.removeBlock (settled : Settled root) (node : Nat) :
    Settled (FsEntry.removeBlock node root) := by
  rw [FsEntry.removeBlock, FsEntry.changeBlocks]
  split
  · apply And.left
    apply settled.modify
    intro found _ inner
    refine ⟨inner.mapInfo fun info => childrenBlocks_mapBlocks info _, ?_⟩
    obtain ⟨info, childs⟩ := found
    constructor
    · cases info <;> rfl
    · rw [totalBlocks, totalBlocks, FsEntry.mapInfo, value_node, value_node, blocks_mapBlocks,
        childrenBlocks_mapBlocks]
      omega
  · exact settled

def addBlockAt (address : List String) (root : FsEntry) : FsEntry :=
  KeyedTree.modify follow (FsEntry.mapInfo · (·.mapBlocks (· + 1))) address root

theorem counts_addBlockAt (counts : Counts root) (address : List String) :
    Counts (addBlockAt address root) ∧ isLinked (addBlockAt address root) = isLinked root := by
  apply counts.modify
  intro found _ inner
  refine ⟨inner.mapInfo fun info => childrenBlocks_mapBlocks info _, ?_⟩
  exact isLinked_mapBlocks found.value _

theorem addBlockAt_cons {name : String} {child : FsEntry}
    (isChild : childAt name root.childs = some child) (names : List String) :
    addBlockAt (name :: names) root =
      .node (follow root.value child (addBlockAt names child))
        (replaceChild name (addBlockAt names child) root.childs) := modify_cons_of_some isChild names

theorem mem_addBlockAt {name : String} {child : FsEntry}
    (isChild : childAt name root.childs = some child) (names : List String) :
    (name, addBlockAt names child) ∈ (addBlockAt (name :: names) root).childs := by
  rw [addBlockAt_cons isChild, childs_node]
  exact List.mem_map.mpr ⟨(name, child), mem_of_childAt isChild, if_pos rfl⟩

/-- Where all nodes on the way are linked, a new block is counted up to the top. -/
theorem settled_addBlockAt {address : List String} (settled : Settled root)
    (isFound : find? address root = some entry) (linked : isLinkedBelow address root = true) :
    Settled (addBlockAt address root) ∧
      totalBlocks (addBlockAt address root) = totalBlocks root + 1 := by
  induction address generalizing root with
  | nil =>
      refine ⟨settled.mapInfo fun info => childrenBlocks_mapBlocks info _, ?_⟩
      rw [addBlockAt, KeyedTree.modify, totalBlocks, FsEntry.mapInfo, value_node, blocks_mapBlocks,
        childrenBlocks_mapBlocks, totalBlocks]
      omega
  | cons name names ih =>
      obtain ⟨child, isChild, later⟩ := Option.bind_eq_some_iff.mp isFound
      rw [isLinkedBelow, isChild, Bool.and_eq_true] at linked
      obtain ⟨inner, total⟩ := ih (settled.child (mem_of_childAt isChild)) later linked.2
      have same := (counts_addBlockAt (settled.counts.child (mem_of_childAt isChild)) names).2
      have counted := (counts_addBlockAt settled.counts (name :: names)).1
      rw [addBlockAt_cons isChild] at counted ⊢
      obtain ⟨info, childs⟩ := root
      obtain ⟨_, each⟩ := settled_node.mp settled
      constructor
      · apply settled_node.mpr
        refine ⟨counted, ?_⟩
        intro other sibling member
        obtain ⟨⟨first, old⟩, isOld, isSame⟩ := List.mem_map.mp member
        simp only at isSame
        split at isSame
        · cases isSame
          refine ⟨?_, inner⟩
          intro notLinked
          rw [same, linked.1] at notLinked
          cases notLinked
        · cases isSame
          exact each _ _ isOld
      · have before : info.statistics.childrenBlocks =
            linkedTotal child + linkedBlocks (eraseChild name childs) :=
          settled.here.sum.trans (linkedBlocks_of_childAt settled.here.distinct isChild)
        have after := childrenBlocks_follow before same
        rw [linkedTotal, same, if_pos linked.1, total] at after
        rw [linkedTotal, if_pos linked.1] at before
        rw [totalBlocks, totalBlocks, value_node, value_node, blocks_follow]
        omega

theorem not_settled_addBlockAt {address : List String} (settled : Settled root)
    (isFound : find? address root = some entry) (notLinked : isLinkedBelow address root = false) :
    ¬ Settled (addBlockAt address root) := by
  induction address generalizing root with
  | nil => cases notLinked
  | cons name names ih =>
      obtain ⟨child, isChild, later⟩ := Option.bind_eq_some_iff.mp isFound
      have settledChild : Settled child := settled.child (mem_of_childAt isChild)
      intro settledAfter
      have member := mem_addBlockAt isChild names
      cases below : isLinkedBelow names child with
      | false => exact ih settledChild later below (settledAfter.child member)
      | true =>
          rw [isLinkedBelow, isChild] at notLinked
          simp only [below, Bool.and_true] at notLinked
          have total := (settled_addBlockAt settledChild later below).2
          have same := (counts_addBlockAt settledChild.counts names).2
          have none := settledAfter.here.idle _ _ member (same.trans notLinked)
          omega

/-- A block keeps the counters right if its entry and all folders above it are linked. -/
theorem settled_addBlock_iff {node : Nat} {address : List String} (settled : Settled root)
    (wellFormed : WellFormed root)
    (isAddress : addressOf (fun info => info.statistics.node = node) root = some address) :
    Settled (FsEntry.addBlock node root) ↔ isLinkedBelow address root = true := by
  obtain ⟨found, isFound, _⟩ := find?_of_addressOf wellFormed.uniqueKeys isAddress
  rw [FsEntry.addBlock, FsEntry.changeBlocks, isAddress]
  constructor
  · intro later
    by_contra notLinked
    exact not_settled_addBlockAt settled isFound (Bool.not_eq_true _ ▸ notLinked) later
  · intro linked
    exact (settled_addBlockAt settled isFound linked).1

/-! ## The start -/

theorem settled_of_allLinked (counts : Counts entry) (linked : AllLinked entry) : Settled entry := by
  induction entry using KeyedTree.induct with
  | node info childs ih =>
      apply settled_node.mpr
      refine ⟨counts, ?_⟩
      intro name child member
      constructor
      · intro notLinked
        rw [linked.here name child member] at notLinked
        cases notLinked
      · exact ih name child member (counts.child member) (linked.child member)

theorem settled_initializeStatistics (wellFormed : WellFormed entry) (handles : List Nat) :
    Settled (FsEntry.initializeStatistics handles entry) :=
  settled_of_allLinked (counts_initializeStatistics wellFormed handles)
    (allLinked_initializeStatistics handles entry)

end FsEntry

end SiriusDrive
