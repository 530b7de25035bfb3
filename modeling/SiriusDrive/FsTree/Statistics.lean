import SiriusDrive.FsTree.Files

/-! # The counters of an fs tree

The counter of a folder is the sum over the entries that are linked to it. Where all
entries are linked, a folder with no blocks has none below it.
-/

namespace SiriusDrive

open KeyedTree

namespace FsEntry

variable {root folder entry : FsEntry}

/-! ## Sums -/

/-- What an entry adds to the counter of its folder. -/
def linkedTotal (child : FsEntry) : Nat := if isLinked child then totalBlocks child else 0

def linkedBlocks (childs : List (String × FsEntry)) : Nat :=
  (childs.map fun child => linkedTotal child.2).sum

/-- The counter of an entry is the sum over its linked entries. -/
structure SumsChilds (entry : FsEntry) : Prop where
  distinct : (entry.childs.map Prod.fst).Nodup
  sum : entry.value.statistics.childrenBlocks = linkedBlocks entry.childs

/-- The counters are right all over the tree. -/
abbrev Counts (entry : FsEntry) : Prop := All SumsChilds entry

theorem linkedBlocks_perm {childs others : List (String × FsEntry)} (perm : childs.Perm others) :
    linkedBlocks childs = linkedBlocks others := (perm.map _).sum_nat

theorem linkedBlocks_cons (name : String) (child : FsEntry) (childs : List (String × FsEntry)) :
    linkedBlocks ((name, child) :: childs) = linkedTotal child + linkedBlocks childs := by
  rw [linkedBlocks, List.map_cons, List.sum_cons, linkedBlocks]

theorem linkedBlocks_of_childAt {childs : List (String × FsEntry)} {name : String}
    {child : FsEntry} (distinct : (childs.map Prod.fst).Nodup)
    (isChild : childAt name childs = some child) :
    linkedBlocks childs = linkedTotal child + linkedBlocks (eraseChild name childs) := by
  rw [linkedBlocks_perm (perm_of_childAt distinct isChild).1, linkedBlocks_cons]

theorem linkedBlocks_replaceChild {childs : List (String × FsEntry)} {name : String}
    {child : FsEntry} (distinct : (childs.map Prod.fst).Nodup)
    (isChild : childAt name childs = some child) (changed : FsEntry) :
    linkedBlocks (replaceChild name changed childs) =
      linkedTotal changed + linkedBlocks (eraseChild name childs) := by
  rw [linkedBlocks_perm ((perm_of_childAt distinct isChild).2 changed), linkedBlocks_cons]

theorem linkedBlocks_insertChild (name : String) (child : FsEntry)
    (childs : List (String × FsEntry)) :
    linkedBlocks (insertChild name child childs) = linkedTotal child + linkedBlocks childs := by
  rw [linkedBlocks_perm (insertChild_perm name child childs), linkedBlocks_cons]

theorem linkedTotal_setLinked (child : FsEntry) :
    linkedTotal (mapInfo child EntryInfo.setLinked) = totalBlocks child := by
  obtain ⟨info, childs⟩ := child
  cases info <;> rfl

theorem childrenBlocks_update (info : EntryInfo) (oldTotal newTotal : Nat) :
    (info.update oldTotal newTotal).statistics.childrenBlocks =
      info.statistics.childrenBlocks - oldTotal + newTotal := by
  cases info <;> rfl

theorem isLinked_update (info : EntryInfo) (oldTotal newTotal : Nat) :
    (info.update oldTotal newTotal).statistics.isLinked = info.statistics.isLinked := by
  cases info <;> rfl

theorem isLinked_follow (info : EntryInfo) (child changed : FsEntry) :
    (follow info child changed).statistics.isLinked = info.statistics.isLinked := by
  rw [follow]
  split
  · exact isLinked_update _ _ _
  · rfl

theorem childrenBlocks_leave {info : EntryInfo} {child : FsEntry} {rest : Nat}
    (sum : info.statistics.childrenBlocks = linkedTotal child + rest) :
    (if isLinked child then info.update (totalBlocks child) 0
      else info).statistics.childrenBlocks = rest := by
  rw [linkedTotal] at sum
  split
  · rename_i linked
    rw [if_pos linked] at sum
    rw [childrenBlocks_update]
    omega
  · rename_i notLinked
    rw [if_neg notLinked] at sum
    omega

theorem childrenBlocks_follow {info : EntryInfo} {child changed : FsEntry} {rest : Nat}
    (sum : info.statistics.childrenBlocks = linkedTotal child + rest)
    (same : isLinked changed = isLinked child) :
    (follow info child changed).statistics.childrenBlocks = linkedTotal changed + rest := by
  rw [linkedTotal] at sum
  rw [follow, linkedTotal, same]
  split
  · rename_i linked
    rw [if_pos linked] at sum
    rw [childrenBlocks_update]
    omega
  · rename_i notLinked
    rw [if_neg notLinked] at sum
    omega

theorem Counts.modify {f : FsEntry → FsEntry} {address : List String} (counts : Counts root)
    (changes : ∀ found, find? address root = some found → Counts found →
      Counts (f found) ∧ isLinked (f found) = isLinked found) :
    Counts (KeyedTree.modify follow f address root) ∧
      isLinked (KeyedTree.modify follow f address root) = isLinked root := by
  refine @All.modify _ _ _ _ _ _ (fun found changed => isLinked changed = isLinked found) _ counts _
    changes (fun _ => rfl) ?_
  intro info childs name child changed sums isChild same
  have distinct : (childs.map Prod.fst).Nodup := sums.distinct
  refine ⟨⟨?_, ?_⟩, isLinked_follow info child changed⟩
  · rw [childs_node, keys_replaceChild]
    exact distinct
  · rw [childs_node, linkedBlocks_replaceChild distinct isChild]
    exact childrenBlocks_follow (sums.sum.trans (linkedBlocks_of_childAt distinct isChild)) same

theorem counts_node {info : EntryInfo} {childs : List (String × FsEntry)} :
    Counts (.node info childs) ↔ (childs.map Prod.fst).Nodup ∧
      info.statistics.childrenBlocks = linkedBlocks childs ∧
        ∀ name child, (name, child) ∈ childs → Counts child := by
  rw [Counts, all_node]
  constructor
  · rintro ⟨sums, all⟩
    exact ⟨sums.distinct, sums.sum, all⟩
  · rintro ⟨distinct, sum, all⟩
    exact ⟨⟨distinct, sum⟩, all⟩

theorem Counts.setValue {info other : EntryInfo} {childs : List (String × FsEntry)}
    (counts : Counts (.node info childs))
    (same : other.statistics.childrenBlocks = info.statistics.childrenBlocks) :
    Counts (.node other childs) := by
  obtain ⟨distinct, sum, all⟩ := counts_node.mp counts
  exact counts_node.mpr ⟨distinct, same.trans sum, all⟩

theorem Counts.mapInfo (counts : Counts entry) {f : EntryInfo → EntryInfo}
    (same : ∀ info, (f info).statistics.childrenBlocks = info.statistics.childrenBlocks) :
    Counts (FsEntry.mapInfo entry f) := by
  obtain ⟨info, childs⟩ := entry
  exact counts.setValue (same info)

theorem Counts.setLinked (counts : Counts entry) :
    Counts (FsEntry.mapInfo entry EntryInfo.setLinked) := by
  apply counts.mapInfo
  intro info
  cases info <;> rfl

theorem isLinked_leave (info : EntryInfo) (child : FsEntry) :
    (if isLinked child then info.update (totalBlocks child) 0 else info).statistics.isLinked =
      info.statistics.isLinked := by
  split
  · exact isLinked_update _ _ _
  · rfl

theorem Counts.linkChild (counts : Counts entry) (name : String) :
    Counts (FsEntry.linkChild name entry) ∧
      isLinked (FsEntry.linkChild name entry) = isLinked entry := by
  obtain ⟨info, childs⟩ := entry
  obtain ⟨distinct, sum, all⟩ := counts_node.mp counts
  simp only [FsEntry.linkChild]
  split
  · exact ⟨counts, rfl⟩
  · rename_i child isChild
    refine ⟨?_, (isLinked_update _ _ _).trans (isLinked_leave info child)⟩
    apply counts_node.mpr
    refine ⟨?_, ?_, ?_⟩
    · rw [keys_replaceChild]
      exact distinct
    · rw [linkedBlocks_replaceChild distinct isChild, linkedTotal_setLinked,
        childrenBlocks_update, childrenBlocks_leave (sum.trans (linkedBlocks_of_childAt distinct isChild))]
      omega
    · intro other sibling member
      obtain ⟨⟨first, old⟩, isOld, same⟩ := List.mem_map.mp member
      simp only at same
      split at same
      · cases same
        exact Counts.setLinked (all _ _ (mem_of_childAt isChild))
      · cases same
        exact all _ _ isOld

theorem Counts.detachChild (counts : Counts entry) (name : String) :
    Counts (FsEntry.detachChild name entry) ∧
      isLinked (FsEntry.detachChild name entry) = isLinked entry := by
  obtain ⟨info, childs⟩ := entry
  obtain ⟨distinct, sum, all⟩ := counts_node.mp counts
  simp only [FsEntry.detachChild]
  split
  · exact ⟨counts, rfl⟩
  · rename_i child isChild
    refine ⟨?_, isLinked_leave info child⟩
    apply counts_node.mpr
    refine ⟨distinct.sublist (List.filter_sublist.map Prod.fst), ?_, ?_⟩
    · exact childrenBlocks_leave (sum.trans (linkedBlocks_of_childAt distinct isChild))
    · intro other sibling member
      exact all other sibling (List.mem_filter.mp member).1

/-- The entry that is replaced must have no blocks, since it is not subtracted. -/
theorem Counts.putChild (counts : Counts entry) (name : String) {child : FsEntry}
    (inner : Counts child)
    (free : ∀ replaced, childAt name entry.childs = some replaced → linkedTotal replaced = 0) :
    Counts (FsEntry.putChild name child entry) ∧
      isLinked (FsEntry.putChild name child entry) = isLinked entry := by
  obtain ⟨info, childs⟩ := entry
  obtain ⟨distinct, sum, all⟩ := counts_node.mp counts
  have absent : childAt name (eraseChild name childs) = none := by
    rw [childAt_eraseChild, if_pos rfl]
  have perm := insertChild_perm name (FsEntry.mapInfo child EntryInfo.setLinked)
    (eraseChild name childs)
  refine ⟨?_, isLinked_update _ _ _⟩
  rw [FsEntry.putChild]
  apply counts_node.mpr
  refine ⟨?_, ?_, ?_⟩
  · rw [(perm.map Prod.fst).nodup_iff, List.map_cons, List.nodup_cons]
    exact ⟨childAt_eq_none_iff.mp absent, distinct.sublist (List.filter_sublist.map Prod.fst)⟩
  · have rest : linkedBlocks (eraseChild name childs) = linkedBlocks childs := by
      cases isReplaced : childAt name childs with
      | none => rw [eraseChild_of_absent (childAt_eq_none_iff.mp isReplaced)]
      | some replaced =>
          rw [linkedBlocks_of_childAt distinct isReplaced, free replaced isReplaced, Nat.zero_add]
    rw [linkedBlocks_insertChild, linkedTotal_setLinked, childrenBlocks_update, rest, sum]
    omega
  · intro other sibling member
    rcases List.mem_cons.mp (perm.mem_iff.mp member) with same | old
    · cases same
      exact inner.setLinked
    · exact all other sibling (List.mem_filter.mp old).1

/-! ## The operations -/

theorem totalBlocks_of_value {other : FsEntry} (same : other.value = entry.value) :
    totalBlocks other = totalBlocks entry := by
  rw [totalBlocks, totalBlocks, same]

theorem linkedTotal_of_value {other : FsEntry} (same : other.value = entry.value) :
    linkedTotal other = linkedTotal entry := by
  rw [linkedTotal, linkedTotal, isLinked, isLinked, totalBlocks_of_value same, same]

theorem counts_newFolders (nextNode : Nat) (name : String) (names : List String) :
    Counts (newFolders nextNode name names) ∧ linkedTotal (newFolders nextNode name names) = 0 := by
  induction names generalizing nextNode name with
  | nil =>
      refine ⟨counts_node.mpr ⟨List.nodup_nil, rfl, ?_⟩, rfl⟩
      intro _ _ member
      cases member
  | cons next names ih =>
      obtain ⟨inner, none⟩ := ih (nextNode + 1) next
      refine ⟨counts_node.mpr ⟨List.nodup_singleton next, ?_, ?_⟩, rfl⟩
      · rw [linkedBlocks_cons, none]
        rfl
      · intro other child member
        cases List.mem_singleton.mp member
        exact inner

theorem Counts.createFolders {nextNode : Nat} {names : List String} (counts : Counts root)
    (created : FsEntry.createFolders nextNode names root = some folder) : Counts folder := by
  induction names generalizing root folder with
  | nil =>
      cases created
      exact counts
  | cons name names ih =>
      obtain ⟨info, childs⟩ := root
      obtain ⟨distinct, sum, all⟩ := counts_node.mp counts
      rw [FsEntry.createFolders] at created
      split at created
      · rename_i absent
        cases created
        obtain ⟨inner, none⟩ := counts_newFolders nextNode name names
        have perm := insertChild_perm name (newFolders nextNode name names) childs
        apply counts_node.mpr
        refine ⟨?_, ?_, ?_⟩
        · rw [(perm.map Prod.fst).nodup_iff, List.map_cons, List.nodup_cons]
          exact ⟨childAt_eq_none_iff.mp absent, distinct⟩
        · rw [linkedBlocks_insertChild, none, Nat.zero_add]
          exact sum
        · intro other sibling member
          rcases List.mem_cons.mp (perm.mem_iff.mp member) with same | old
          · cases same
            exact inner
          · exact all other sibling old
      · rename_i child isChild
        split at created
        · obtain ⟨changed, isChanged, rfl⟩ := Option.map_eq_some_iff.mp created
          obtain ⟨found, isFound, value⟩ := value_createFolders isChanged (find?_nil child)
          cases isFound
          apply counts_node.mpr
          refine ⟨?_, ?_, ?_⟩
          · rw [keys_replaceChild]
            exact distinct
          · rw [linkedBlocks_replaceChild distinct isChild, linkedTotal_of_value value,
              ← linkedBlocks_of_childAt distinct isChild]
            exact sum
          · intro other sibling member
            obtain ⟨⟨first, old⟩, isOld, same⟩ := List.mem_map.mp member
            simp only at same
            split at same
            · cases same
              exact ih (all _ _ (mem_of_childAt isChild)) isChanged
            · cases same
              exact all _ _ isOld
        · cases created

theorem Counts.link (counts : Counts root) (name : String) (parent : List String) :
    Counts (KeyedTree.modify follow (FsEntry.linkChild name) parent root) := by
  apply And.left
  apply counts.modify
  intro found _ inner
  exact inner.linkChild name

theorem Counts.detach (counts : Counts root) (name : String) (parent : List String) :
    Counts (KeyedTree.modify follow (FsEntry.detachChild name) parent root) := by
  apply And.left
  apply counts.modify
  intro found _ inner
  exact inner.detachChild name

theorem Counts.put (counts : Counts root) {name : String} {parent : List String} {child : FsEntry}
    (inner : Counts child)
    (free : ∀ replaced, find? (parent ++ [name]) root = some replaced → linkedTotal replaced = 0) :
    Counts (KeyedTree.modify follow (FsEntry.putChild name child) parent root) := by
  apply And.left
  apply counts.modify
  intro found isFound outer
  apply outer.putChild name inner
  intro replaced isReplaced
  apply free
  rw [find?_append, isFound, Option.bind_some, find?_cons, isReplaced]
  rfl

theorem Counts.addFolder {nextNode : Nat} {path : FsPath} (counts : Counts root)
    (added : FsEntry.addFolder nextNode path root = some folder) : Counts folder := by
  obtain ⟨created, isCreated, rfl⟩ := Option.map_eq_some_iff.mp added
  have counted := counts.createFolders isCreated
  split
  · exact counted
  · exact Counts.link counted _ _

theorem Counts.prepareParent {nextNode : Nat} {path : FsPath} (counts : Counts root)
    (prepared : FsEntry.prepareParent nextNode path root = some folder) : Counts folder := by
  rw [FsEntry.prepareParent] at prepared
  split at prepared
  · cases prepared
    exact counts
  · exact counts.addFolder prepared

theorem Counts.removeFlat {path : FsPath} (counts : Counts root)
    (removed : FsEntry.removeFlat path root = some folder) : Counts folder := by
  obtain ⟨entry, _, rfl⟩ := Option.map_eq_some_iff.mp removed
  exact counts.detach _ _

theorem linkedTotal_eq_zero (free : totalBlocks entry = 0) : linkedTotal entry = 0 := by
  rw [linkedTotal, free]
  split <;> rfl

theorem find?_destination {nextNode : Nat} {source destination : FsPath} {prepared child : FsEntry}
    (tree : IsTree root) (isPrepared : prepareParent nextNode destination root = some prepared)
    (isChild : getEntryPtr source prepared = some child)
    (outside : ¬ source.keys <+: destination.parentPath.elements)
    (notAbove : ¬ destination.keys <+: source.keys) :
    find? destination.keys (KeyedTree.modify follow (FsEntry.detachChild source.filename)
      source.parentPath.elements prepared) = find? destination.keys root := by
  obtain ⟨parent, isParent, _⟩ := Option.bind_eq_some_iff.mp isChild
  have notBelow : ¬ source.keys <+: destination.keys := by
    intro below
    rcases List.prefix_concat_iff.mp below with same | shorter
    · exact notAbove ⟨[], (List.append_nil _).trans same.symm⟩
    · exact outside shorter
  have notOver : ¬ destination.keys <+: source.parentPath.elements := by
    intro above
    exact notAbove (above.trans (List.prefix_append _ _))
  rw [find?_detach notBelow notOver (find?_of_getFolderPtr isParent)]
  exact find?_keys_prepareParent tree isPrepared

/-- The counters stay right if the entry that is replaced has no blocks. -/
theorem Counts.moveFlat {nextNode : Nat} {source destination : FsPath} {moved : FsEntry}
    (counts : Counts root) (tree : IsTree root)
    (free : ∀ replaced, getEntryPtr destination root = some replaced → linkedTotal replaced = 0)
    (moves : Moves nextNode source destination root (.moved moved)) : Counts moved := by
  cases moves with
  | same => exact counts
  | intoItself isPrepared => exact (counts.prepareParent isPrepared).detach _ _
  | @elsewhere prepared child isPrepared isChild isSource _ outside notAbove =>
      have counted := counts.prepareParent isPrepared
      have inner : Counts child := counted.found (find?_of_getEntryPtr isChild)
      apply Counts.put (counted.detach _ _)
      · apply inner.mapInfo
        intro info
        rw [EntryInfo.statistics_rename]
      · intro replaced isReplaced
        apply free
        apply getEntryPtr_of_find? tree.wellFormed
        rw [← find?_destination tree isPrepared isChild outside notAbove]
        exact isReplaced

theorem Counts.changeBlocks (counts : Counts root) (f : Nat → Nat) (node : Nat) :
    Counts (FsEntry.changeBlocks f node root) := by
  rw [FsEntry.changeBlocks]
  split
  · apply And.left
    apply counts.modify
    intro found _ inner
    constructor
    · apply inner.mapInfo
      intro info
      cases info <;> rfl
    · obtain ⟨info, childs⟩ := found
      cases info <;> rfl
  · exact counts

theorem linkedBlocks_initializeChilds (handles : List Nat) (childs : List (String × FsEntry)) :
    linkedBlocks (initializeChilds handles childs) =
      ((initializeChilds handles childs).map fun child => totalBlocks child.2).sum := by
  induction childs with
  | nil => rfl
  | cons child childs ih =>
      obtain ⟨name, child⟩ := child
      have linked : linkedTotal (FsEntry.mapInfo (initializeStatistics handles child)
          EntryInfo.setLinked) = totalBlocks (FsEntry.mapInfo
            (initializeStatistics handles child) EntryInfo.setLinked) := by
        rw [linkedTotal, if_pos]
        obtain ⟨info, childs⟩ := child
        cases info <;> rfl
      rw [initializeChilds, linkedBlocks_cons, linked, ih, List.map_cons, List.sum_cons]

theorem counts_initializeStatistics (wellFormed : WellFormed entry) (handles : List Nat) :
    Counts (FsEntry.initializeStatistics handles entry) := by
  induction entry using KeyedTree.induct with
  | node info childs ih =>
      have parts := all_node.mp wellFormed
      apply counts_node.mpr
      refine ⟨?_, ?_, ?_⟩
      · rw [keys_initializeChilds]
        exact parts.1.1
      · rw [linkedBlocks_initializeChilds, EntryInfo.statistics_setStatistics]
      · intro name child member
        obtain ⟨before, isBefore, rfl⟩ := mem_initializeChilds member
        exact Counts.setLinked (ih name before isBefore (parts.2 name before isBefore))

end FsEntry

end SiriusDrive
