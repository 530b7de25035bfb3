import SiriusDrive.FsTree.Entries

/-! # Well-formed fs trees

The keys of the entries of a folder are different, and a file has no entries. All
operations on a tree keep this.
-/

namespace SiriusDrive

open KeyedTree

namespace FsEntry

/-- The keys of the entries are different, and only folders have entries. -/
def IsProper (entry : FsEntry) : Prop :=
  (entry.childs.map Prod.fst).Nodup ∧ (isFolder entry = false → entry.childs = [])

abbrev WellFormed (entry : FsEntry) : Prop := All IsProper entry

variable {entry root folder : FsEntry}

theorem WellFormed.uniqueKeys (wellFormed : WellFormed entry) : entry.UniqueKeys :=
  All.mono (fun _ proper => proper.1) wellFormed

/-- The value of an entry may change, but not from a folder to a file. -/
theorem WellFormed.setValue {info other : EntryInfo} {childs : List (String × FsEntry)}
    (wellFormed : WellFormed (.node info childs)) (same : other.isFolder = info.isFolder) :
    WellFormed (.node other childs) := by
  have parts := all_node.mp wellFormed
  refine .node ⟨parts.1.1, ?_⟩ parts.2
  intro notFolder
  exact parts.1.2 (same.symm.trans notFolder)

theorem WellFormed.mapInfo (wellFormed : WellFormed entry) {f : EntryInfo → EntryInfo}
    (same : ∀ info, (f info).isFolder = info.isFolder) : WellFormed (FsEntry.mapInfo entry f) := by
  obtain ⟨info, childs⟩ := entry
  exact wellFormed.setValue (same info)

theorem wellFormed_node {info : EntryInfo} {childs : List (String × FsEntry)}
    (isFolder : info.isFolder = true) (distinct : (childs.map Prod.fst).Nodup)
    (all : ∀ name child, (name, child) ∈ childs → WellFormed child) :
    WellFormed (.node info childs) := by
  refine .node ⟨distinct, ?_⟩ all
  intro notFolder
  exact absurd (isFolder.symm.trans notFolder) (by decide)

theorem WellFormed.isFolder_of_childAt {info : EntryInfo} {childs : List (String × FsEntry)}
    (wellFormed : WellFormed (.node info childs)) {name : String} {child : FsEntry}
    (isChild : childAt name childs = some child) : info.isFolder = true := by
  apply Bool.not_eq_false _ |>.mp
  intro notFolder
  have none : childs = [] := wellFormed.here.2 notFolder
  rw [none] at isChild
  cases isChild

/-! ## Looking up -/

theorem find?_of_getFolderPtr {names : List String}
    (isFound : getFolderPtr names root = some folder) : find? names root = some folder := by
  induction names generalizing root with
  | nil => exact isFound
  | cons name names ih =>
      rw [getFolderPtr] at isFound
      split at isFound
      · rename_i child isChild
        split at isFound
        · rw [find?_cons, isChild]
          exact ih isFound
        · cases isFound
      · cases isFound

theorem getFolderPtr_append (first second : List String) (root : FsEntry) :
    getFolderPtr (first ++ second) root =
      (getFolderPtr first root).bind fun folder => getFolderPtr second folder := by
  induction first generalizing root with
  | nil => rfl
  | cons name first ih =>
      rw [List.cons_append, getFolderPtr, getFolderPtr]
      split
      · split
        · exact ih _
        · rfl
      · rfl

theorem isFolder_of_getFolderPtr {names : List String}
    (isFound : getFolderPtr names root = some folder) (isRoot : isFolder root = true) :
    isFolder folder = true := by
  induction names generalizing root with
  | nil =>
      cases isFound
      exact isRoot
  | cons name names ih =>
      rw [getFolderPtr] at isFound
      split at isFound
      · split at isFound
        · exact ih isFound (by assumption)
        · cases isFound
      · cases isFound

theorem find?_of_getEntryPtr {path : FsPath} (isFound : getEntryPtr path root = some entry) :
    find? path.keys root = some entry := by
  obtain ⟨folder, isFolder, isChild⟩ := Option.bind_eq_some_iff.mp isFound
  rw [FsPath.keys, find?_append, find?_of_getFolderPtr isFolder, Option.bind_some, find?_cons,
    isChild]
  rfl

theorem getFolderPtr_of_find? (wellFormed : WellFormed root) {names : List String}
    (isFound : find? names root = some folder) (isFolder' : isFolder folder = true) :
    getFolderPtr names root = some folder := by
  induction names generalizing root with
  | nil => exact isFound
  | cons name names ih =>
      obtain ⟨child, isChild, later⟩ := Option.bind_eq_some_iff.mp isFound
      have proper : WellFormed child := wellFormed.child (mem_of_childAt isChild)
      have inner : isFolder child = true := by
        cases names with
        | nil =>
            cases later
            exact isFolder'
        | cons next names =>
            obtain ⟨info, childs⟩ := child
            obtain ⟨inner, isInner, _⟩ := Option.bind_eq_some_iff.mp later
            exact proper.isFolder_of_childAt isInner
      rw [getFolderPtr, isChild]
      simp only [inner, if_true]
      exact ih proper later

theorem getEntryPtr_of_find? (wellFormed : WellFormed root) {path : FsPath}
    (isFound : find? path.keys root = some entry) : getEntryPtr path root = some entry := by
  rw [FsPath.keys, find?_append] at isFound
  obtain ⟨folder, isFolder', isEntry⟩ := Option.bind_eq_some_iff.mp isFound
  obtain ⟨child, isChild, same⟩ := Option.bind_eq_some_iff.mp isEntry
  cases same
  have proper : WellFormed folder := wellFormed.found isFolder'
  have inner : isFolder folder = true := by
    obtain ⟨info, childs⟩ := folder
    exact proper.isFolder_of_childAt isChild
  rw [getEntryPtr, getFolderPtr_of_find? wellFormed isFolder' inner]
  exact isChild

/-! ## What can be seen of a changed tree -/

/-- The statistics cannot be seen. -/
def HidesStatistics {β : Type*} (obs : EntryInfo → β) : Prop :=
  ∀ (info : EntryInfo) (statistics : FsEntryStatistics),
    obs (info.setStatistics statistics) = obs info

theorem hidesStatistics_isFolder : HidesStatistics EntryInfo.isFolder :=
  fun _ _ => EntryInfo.isFolder_setStatistics _

section Observations

variable {β : Type*} {obs : EntryInfo → β}

theorem HidesStatistics.follow (hides : HidesStatistics obs) (info : EntryInfo)
    (child changed : FsEntry) : obs (FsEntry.follow info child changed) = obs info := by
  rw [FsEntry.follow]
  split
  · exact hides _ _
  · rfl

theorem observe_mapInfo {f : EntryInfo → EntryInfo} (hides : ∀ info, obs (f info) = obs info)
    (names : List String) (entry : FsEntry) :
    observe obs names (mapInfo entry f) = observe obs names entry := by
  obtain ⟨info, childs⟩ := entry
  cases names with
  | nil => exact congrArg some (hides info)
  | cons name names => rfl

theorem observe_node {info other : EntryInfo} {childs others : List (String × FsEntry)}
    (value : obs other = obs info) {names : List String}
    (same : ∀ name rest, names = name :: rest → childAt name others = childAt name childs) :
    observe obs names (.node other others) = observe obs names (.node info childs) := by
  cases names with
  | nil => exact congrArg some value
  | cons name rest =>
      rw [observe_cons, observe_cons, childs_node, childs_node, same name rest rfl]

theorem observe_detachChild (hides : HidesStatistics obs) (name : String) (entry : FsEntry)
    (names : List String) : observe obs names (detachChild name entry) =
      if [name] <+: names then none else observe obs names entry := by
  obtain ⟨info, childs⟩ := entry
  rw [detachChild]
  split
  · rename_i absent
    split
    · rename_i below
      obtain ⟨rest, rfl⟩ := below
      rw [List.singleton_append, observe_cons, childs_node, absent, Option.bind_none]
    · rfl
  · have value : ∀ child : FsEntry,
        obs (if isLinked child then info.update (totalBlocks child) 0 else info) = obs info := by
      intro child
      split
      · exact hides _ _
      · rfl
    by_cases below : [name] <+: names
    · rw [if_pos below]
      obtain ⟨rest, rfl⟩ := below
      rw [List.singleton_append, observe_cons, childs_node, childAt_eraseChild, if_pos rfl,
        Option.bind_none]
    · rw [if_neg below]
      apply observe_node (value _)
      rintro other rest rfl
      rw [childAt_eraseChild, if_neg]
      rintro rfl
      exact below ⟨rest, rfl⟩

theorem observe_putChild (hides : HidesStatistics obs) (name : String) (child entry : FsEntry)
    (names : List String) : observe obs names (putChild name child entry) =
      if [name] <+: names then observe obs (names.drop 1) child else observe obs names entry := by
  obtain ⟨info, childs⟩ := entry
  have absent : childAt name (KeyedTree.eraseChild name childs) = none := by
    rw [childAt_eraseChild, if_pos rfl]
  rw [putChild]
  split
  · rename_i below
    obtain ⟨rest, rfl⟩ := below
    rw [List.singleton_append, observe_cons, childs_node, childAt_insertChild absent, if_pos rfl,
      Option.bind_some, List.drop_succ_cons, List.drop_zero]
    exact observe_mapInfo (fun info => hides info _) rest child
  · rename_i elsewhere
    apply observe_node (hides _ _)
    rintro other rest rfl
    have ne : other ≠ name := by
      rintro rfl
      exact elsewhere ⟨rest, rfl⟩
    rw [childAt_insertChild absent, if_neg ne, childAt_eraseChild, if_neg ne]

theorem observe_setChild {β : Type*} {obs : EntryInfo → β} (name : String) (child entry : FsEntry)
    (names : List String) : observe obs names (setChild name child entry) =
      if [name] <+: names then observe obs (names.drop 1) child else observe obs names entry := by
  obtain ⟨info, childs⟩ := entry
  have absent : childAt name (KeyedTree.eraseChild name childs) = none := by
    rw [childAt_eraseChild, if_pos rfl]
  rw [setChild]
  split
  · rename_i below
    obtain ⟨rest, rfl⟩ := below
    rw [List.singleton_append, observe_cons, childs_node, childAt_insertChild absent, if_pos rfl,
      Option.bind_some, List.drop_succ_cons, List.drop_zero]
  · rename_i elsewhere
    apply observe_node rfl
    rintro other rest rfl
    have ne : other ≠ name := by
      rintro rfl
      exact elsewhere ⟨rest, rfl⟩
    rw [childAt_insertChild absent, if_neg ne, childAt_eraseChild, if_neg ne]

theorem observe_linkChild (hides : HidesStatistics obs) (name : String) (entry : FsEntry)
    (names : List String) : observe obs names (linkChild name entry) = observe obs names entry := by
  obtain ⟨info, childs⟩ := entry
  simp only [linkChild]
  split
  · rfl
  · rename_i child isChild
    have value : obs ((if isLinked child then info.update (totalBlocks child) 0 else info).update 0
        (totalBlocks child)) = obs info := by
      rw [EntryInfo.update, hides]
      split
      · exact hides _ _
      · rfl
    cases names with
    | nil => exact congrArg some value
    | cons other rest =>
        rw [observe_cons, observe_cons, childs_node, childs_node, childAt_replaceChild]
        by_cases same : other = name
        · subst same
          rw [if_pos rfl, isChild, Option.map_some, Option.bind_some, Option.bind_some]
          exact observe_mapInfo (fun info => hides info _) rest child
        · rw [if_neg same]

theorem observe_detach (hides : HidesStatistics obs) {path : FsPath}
    (isFound : getEntryPtr path root = some entry) (names : List String) :
    observe obs names
        (KeyedTree.modify FsEntry.follow (detachChild path.filename) path.parentPath.elements root) =
      if path.keys <+: names then none else observe obs names root := by
  obtain ⟨folder, isFolder, isChild⟩ := Option.bind_eq_some_iff.mp isFound
  have found := find?_of_getFolderPtr isFolder
  rw [observe_modify hides.follow found, observe_detachChild hides]
  by_cases below : path.parentPath.elements <+: names
  · obtain ⟨rest, rfl⟩ := below
    rw [if_pos (List.prefix_append _ _), List.drop_left, ← observe_append found]
    simp only [FsPath.keys, List.prefix_append_right_inj]
  · have elsewhere : ¬ path.keys <+: names := by
      intro inside
      exact below ((List.prefix_append _ _).trans inside)
    rw [if_neg below, if_neg elsewhere]

theorem observe_put (hides : HidesStatistics obs) {parent : List String} {name : String}
    {child : FsEntry} (isFound : find? parent root = some folder) (names : List String) :
    observe obs names (KeyedTree.modify FsEntry.follow (putChild name child) parent root) =
      if parent ++ [name] <+: names then observe obs (names.drop (parent.length + 1)) child
      else observe obs names root := by
  rw [observe_modify hides.follow isFound, observe_putChild hides]
  by_cases below : parent <+: names
  · obtain ⟨rest, rfl⟩ := below
    rw [if_pos (List.prefix_append _ _), List.drop_left, ← observe_append isFound,
      ← List.drop_drop, List.drop_left]
    simp only [List.prefix_append_right_inj]
  · have elsewhere : ¬ parent ++ [name] <+: names := by
      intro inside
      exact below ((List.prefix_append _ _).trans inside)
    rw [if_neg below, if_neg elsewhere]

/-- An entry has been put under a name of a folder, without a word to the folders above. -/
theorem observe_set {β : Type*} {obs : EntryInfo → β} {parent : List String} {name : String}
    {child : FsEntry} (isFound : find? parent root = some folder) (names : List String) :
    observe obs names (KeyedTree.modify (fun info _ _ => info) (setChild name child) parent root) =
      if parent ++ [name] <+: names then observe obs (names.drop (parent.length + 1)) child
      else observe obs names root := by
  rw [observe_modify (fun _ _ _ => rfl) isFound, observe_setChild]
  by_cases below : parent <+: names
  · obtain ⟨rest, rfl⟩ := below
    rw [if_pos (List.prefix_append _ _), List.drop_left, ← observe_append isFound,
      ← List.drop_drop, List.drop_left]
    simp only [List.prefix_append_right_inj]
  · have elsewhere : ¬ parent ++ [name] <+: names := by
      intro inside
      exact below ((List.prefix_append _ _).trans inside)
    rw [if_neg below, if_neg elsewhere]

theorem observe_link (hides : HidesStatistics obs) {parent : List String} {name : String}
    (isFound : find? parent root = some folder) (names : List String) :
    observe obs names (KeyedTree.modify FsEntry.follow (linkChild name) parent root) =
      observe obs names root := by
  rw [observe_modify hides.follow isFound, observe_linkChild hides]
  split
  · rename_i below
    obtain ⟨rest, rfl⟩ := below
    rw [List.drop_left, ← observe_append isFound]
  · rfl

end Observations

/-! ## Changing the tree -/

theorem WellFormed.modify (wellFormed : WellFormed root) {address : List String}
    {up : EntryInfo → FsEntry → FsEntry → EntryInfo} {f : FsEntry → FsEntry}
    (keeps : ∀ info child changed, (up info child changed).isFolder = info.isFolder)
    (changes : ∀ found, find? address root = some found → WellFormed found →
      WellFormed (f found) ∧ isFolder (f found) = isFolder found) :
    WellFormed (KeyedTree.modify up f address root) ∧
      isFolder (KeyedTree.modify up f address root) = isFolder root := by
  have kept := All.modify (R := fun found changed => isFolder changed = isFolder found) wellFormed
    changes (fun _ => rfl) (by
      intro info childs name child changed proper isChild _
      have kind : (up info child changed).isFolder = info.isFolder := keeps _ _ _
      refine ⟨⟨?_, ?_⟩, kind⟩
      · rw [childs_node, keys_replaceChild]
        exact proper.1
      · intro notFolder
        have none : childs = [] := proper.2 (kind.symm.trans notFolder)
        rw [none] at isChild
        cases isChild)
  exact kept

theorem wellFormed_newFolders (nextNode : Nat) (name : String) (names : List String) :
    WellFormed (newFolders nextNode name names) := by
  induction names generalizing nextNode name with
  | nil => exact wellFormed_node rfl List.nodup_nil (by simp)
  | cons next names ih =>
      refine @wellFormed_node _ [(next, newFolders (nextNode + 1) next names)] rfl
        (List.nodup_singleton next) ?_
      intro other child member
      cases List.mem_singleton.mp member
      exact ih (nextNode + 1) next

theorem WellFormed.insertChild {info : EntryInfo} {childs : List (String × FsEntry)}
    (wellFormed : WellFormed (.node info childs)) (isFolder : info.isFolder = true)
    {name : String} {child : FsEntry} (proper : WellFormed child)
    (absent : childAt name childs = none) :
    WellFormed (.node info (KeyedTree.insertChild name child childs)) := by
  have parts := all_node.mp wellFormed
  have perm := insertChild_perm name child childs
  apply wellFormed_node isFolder
  · rw [(perm.map Prod.fst).nodup_iff, List.map_cons, List.nodup_cons]
    exact ⟨childAt_eq_none_iff.mp absent, parts.1.1⟩
  · intro other sibling member
    rcases List.mem_cons.mp (perm.mem_iff.mp member) with same | old
    · cases same
      exact proper
    · exact parts.2 other sibling old

theorem WellFormed.replaceChild {info : EntryInfo} {childs : List (String × FsEntry)}
    (wellFormed : WellFormed (.node info childs)) {name : String} {changed : FsEntry}
    (proper : WellFormed changed) :
    WellFormed (.node info (KeyedTree.replaceChild name changed childs)) := by
  have parts := all_node.mp wellFormed
  refine .node ⟨?_, ?_⟩ ?_
  · rw [childs_node, keys_replaceChild]
    exact parts.1.1
  · intro notFolder
    have none : childs = [] := parts.1.2 notFolder
    rw [childs_node, none]
    rfl
  · intro other sibling member
    obtain ⟨⟨first, old⟩, isOld, same⟩ := List.mem_map.mp member
    simp only at same
    split at same
    · cases same
      exact proper
    · cases same
      exact parts.2 _ _ isOld

theorem WellFormed.eraseChild {info : EntryInfo} {childs : List (String × FsEntry)}
    (wellFormed : WellFormed (.node info childs)) (name : String) :
    WellFormed (.node info (KeyedTree.eraseChild name childs)) := by
  have parts := all_node.mp wellFormed
  refine .node ⟨parts.1.1.sublist (List.filter_sublist.map Prod.fst), ?_⟩ ?_
  · intro notFolder
    have none : childs = [] := parts.1.2 notFolder
    rw [childs_node, none]
    rfl
  · intro other sibling member
    exact parts.2 other sibling (List.mem_filter.mp member).1

theorem WellFormed.createFolders {nextNode : Nat} {names : List String}
    (wellFormed : WellFormed root) (isRoot : isFolder root = true)
    (created : FsEntry.createFolders nextNode names root = some folder) :
    WellFormed folder ∧ isFolder folder = true := by
  induction names generalizing root folder with
  | nil =>
      cases created
      exact ⟨wellFormed, isRoot⟩
  | cons name names ih =>
      obtain ⟨info, childs⟩ := root
      rw [FsEntry.createFolders] at created
      split at created
      · rename_i absent
        cases created
        exact ⟨wellFormed.insertChild isRoot (wellFormed_newFolders _ _ _) absent, isRoot⟩
      · rename_i child isChild
        split at created
        · rename_i inner
          obtain ⟨changed, isChanged, rfl⟩ := Option.map_eq_some_iff.mp created
          have proper : WellFormed child := wellFormed.child (mem_of_childAt isChild)
          exact ⟨wellFormed.replaceChild (ih proper inner isChanged).1, isRoot⟩
        · cases created

theorem WellFormed.linkChild (wellFormed : WellFormed entry) (name : String) :
    WellFormed (FsEntry.linkChild name entry) ∧
      isFolder (FsEntry.linkChild name entry) = isFolder entry := by
  obtain ⟨info, childs⟩ := entry
  simp only [FsEntry.linkChild]
  split
  · exact ⟨wellFormed, rfl⟩
  · rename_i child isChild
    have proper : WellFormed child := wellFormed.child (mem_of_childAt isChild)
    have linked := proper.mapInfo (fun _ => EntryInfo.isFolder_setLinked)
    have kind : ∀ other : EntryInfo, other.isFolder = info.isFolder →
        WellFormed (.node (other.update 0 (totalBlocks child))
          (KeyedTree.replaceChild name (FsEntry.mapInfo child EntryInfo.setLinked) childs)) ∧
        (other.update 0 (totalBlocks child)).isFolder = info.isFolder := by
      intro other same
      have kept := (EntryInfo.isFolder_update 0 (totalBlocks child)).trans same
      exact ⟨(wellFormed.replaceChild linked).setValue kept, kept⟩
    split
    · exact kind _ (EntryInfo.isFolder_update _ _)
    · exact kind _ rfl

theorem WellFormed.detachChild (wellFormed : WellFormed entry) (name : String) :
    WellFormed (FsEntry.detachChild name entry) ∧
      isFolder (FsEntry.detachChild name entry) = isFolder entry := by
  obtain ⟨info, childs⟩ := entry
  simp only [FsEntry.detachChild]
  split
  · exact ⟨wellFormed, rfl⟩
  · split
    · exact ⟨(wellFormed.eraseChild name).setValue (EntryInfo.isFolder_update _ _),
        EntryInfo.isFolder_update _ _⟩
    · exact ⟨wellFormed.eraseChild name, rfl⟩

theorem WellFormed.putChild (wellFormed : WellFormed entry) (isEntry : isFolder entry = true)
    (name : String) {child : FsEntry} (proper : WellFormed child) :
    WellFormed (FsEntry.putChild name child entry) ∧
      isFolder (FsEntry.putChild name child entry) = isFolder entry := by
  obtain ⟨info, childs⟩ := entry
  have absent : childAt name (KeyedTree.eraseChild name childs) = none := by
    rw [childAt_eraseChild, if_pos rfl]
  have linked := proper.mapInfo (fun _ => EntryInfo.isFolder_setLinked)
  exact ⟨((wellFormed.eraseChild name).insertChild isEntry linked absent).setValue
    (EntryInfo.isFolder_update _ _), EntryInfo.isFolder_update _ _⟩

theorem WellFormed.setChild (wellFormed : WellFormed entry) (isEntry : isFolder entry = true)
    (name : String) {child : FsEntry} (proper : WellFormed child) :
    WellFormed (FsEntry.setChild name child entry) ∧
      isFolder (FsEntry.setChild name child entry) = isFolder entry := by
  obtain ⟨info, childs⟩ := entry
  have absent : childAt name (KeyedTree.eraseChild name childs) = none := by
    rw [childAt_eraseChild, if_pos rfl]
  exact ⟨(wellFormed.eraseChild name).insertChild isEntry proper absent, rfl⟩

theorem wellFormed_leaf (info : EntryInfo) : WellFormed (.node info []) := by
  refine .node ⟨List.nodup_nil, fun _ => rfl⟩ ?_
  intro name child member
  cases member

/-! ## The operations of a tree -/

/-- A tree with a folder at its root. -/
structure IsTree (root : FsEntry) : Prop where
  wellFormed : WellFormed root
  isFolder : isFolder root = true

/-- The root of a drive that holds no files. -/
def emptyRoot : FsEntry := .node (.folder "/" { node := 0 }) []

theorem isTree_emptyRoot : IsTree emptyRoot := by
  constructor
  · exact wellFormed_leaf _
  · rfl

theorem IsTree.modifyWith {address : List String} {up : EntryInfo → FsEntry → FsEntry → EntryInfo}
    {f : FsEntry → FsEntry} (tree : IsTree root)
    (keeps : ∀ info child changed, (up info child changed).isFolder = info.isFolder)
    (changes : ∀ found, find? address root = some found → WellFormed found →
      WellFormed (f found) ∧ FsEntry.isFolder (f found) = FsEntry.isFolder found) :
    IsTree (KeyedTree.modify up f address root) := by
  obtain ⟨wellFormed, kind⟩ := tree.wellFormed.modify keeps changes
  exact ⟨wellFormed, kind.trans tree.isFolder⟩

theorem IsTree.modify {address : List String} {f : FsEntry → FsEntry} (tree : IsTree root)
    (changes : ∀ found, find? address root = some found → WellFormed found →
      WellFormed (f found) ∧ FsEntry.isFolder (f found) = FsEntry.isFolder found) :
    IsTree (KeyedTree.modify follow f address root) :=
  tree.modifyWith isFolder_follow changes

theorem IsTree.createFolders {nextNode : Nat} {names : List String} (tree : IsTree root)
    (created : FsEntry.createFolders nextNode names root = some folder) : IsTree folder := by
  obtain ⟨wellFormed, isFolder⟩ := tree.wellFormed.createFolders tree.isFolder created
  exact ⟨wellFormed, isFolder⟩

theorem getFolderPtr_newFolders (nextNode : Nat) (name : String) (names : List String) :
    ∃ found, getFolderPtr names (newFolders nextNode name names) = some found ∧
      isFolder found = true := by
  induction names generalizing nextNode name with
  | nil => exact ⟨_, rfl, rfl⟩
  | cons next names ih =>
      obtain ⟨found, isFound, isFolder'⟩ := ih (nextNode + 1) next
      refine ⟨found, ?_, isFolder'⟩
      have kind : isFolder (newFolders (nextNode + 1) next names) = true := by
        cases names <;> rfl
      simp only [newFolders, getFolderPtr, childs_node, childAt, if_true, kind]
      exact isFound

theorem getFolderPtr_createFolders {nextNode : Nat} {names : List String}
    (isRoot : isFolder root = true)
    (created : createFolders nextNode names root = some folder) :
    ∃ found, getFolderPtr names folder = some found ∧ isFolder found = true := by
  induction names generalizing root folder with
  | nil =>
      cases created
      exact ⟨root, rfl, isRoot⟩
  | cons name names ih =>
      obtain ⟨info, childs⟩ := root
      rw [createFolders] at created
      split at created
      · rename_i absent
        cases created
        obtain ⟨found, isFound, inner⟩ := getFolderPtr_newFolders nextNode name names
        refine ⟨found, ?_, inner⟩
        have kind : isFolder (newFolders nextNode name names) = true := by
          cases names <;> rfl
        rw [getFolderPtr, childs_node, childAt_insertChild absent, if_pos rfl]
        simp only [kind, if_true]
        exact isFound
      · rename_i child isChild
        split at created
        · rename_i kind
          obtain ⟨changed, isChanged, rfl⟩ := Option.map_eq_some_iff.mp created
          obtain ⟨found, isFound, inner⟩ := ih kind isChanged
          have kept : isFolder changed = true := by
            cases names with
            | nil =>
                cases isChanged
                exact kind
            | cons next names =>
                obtain ⟨other, others⟩ := child
                rw [createFolders] at isChanged
                split at isChanged
                · cases isChanged
                  exact kind
                · split at isChanged
                  · obtain ⟨_, _, rfl⟩ := Option.map_eq_some_iff.mp isChanged
                    exact kind
                  · cases isChanged
          refine ⟨found, ?_, inner⟩
          rw [getFolderPtr, childs_node, childAt_replaceChild, if_pos rfl, isChild,
            Option.map_some]
          simp only [kept, if_true]
          exact isFound
        · cases created

theorem IsTree.addFolder {nextNode : Nat} {path : FsPath} (tree : IsTree root)
    (added : FsEntry.addFolder nextNode path root = some folder) : IsTree folder := by
  obtain ⟨created, isCreated, rfl⟩ := Option.map_eq_some_iff.mp added
  have proper := tree.createFolders isCreated
  split
  · exact proper
  · apply proper.modify
    intro found _ inner
    exact inner.linkChild path.filename

theorem IsTree.addModifiableFile {nextNode : Nat} {destination : FsPath} {filename : String}
    {temporaryHash : InfoHash} (tree : IsTree root)
    (added : FsEntry.addModifiableFile nextNode destination filename temporaryHash root =
      some folder) : IsTree folder := by
  obtain ⟨created, isCreated, rfl⟩ := Option.map_eq_some_iff.mp added
  obtain ⟨destFolder, isDest, isFolder'⟩ := getFolderPtr_createFolders tree.isFolder isCreated
  apply (tree.createFolders isCreated).modify
  intro found isFound inner
  have same := (find?_of_getFolderPtr isDest).symm.trans isFound
  cases same
  exact inner.putChild isFolder' filename (wellFormed_leaf _)

theorem IsTree.addFile {nextNode : Nat} {destination : FsPath} {filename : String}
    {fileHash : InfoHash} {size : Nat} (tree : IsTree root)
    (added : FsEntry.addFile nextNode destination filename fileHash size root = some folder) :
    IsTree folder := by
  obtain ⟨created, isCreated, rfl⟩ := Option.map_eq_some_iff.mp added
  obtain ⟨destFolder, isDest, isFolder'⟩ := getFolderPtr_createFolders tree.isFolder isCreated
  apply (tree.createFolders isCreated).modifyWith fun _ _ _ => rfl
  intro found isFound inner
  have same := (find?_of_getFolderPtr isDest).symm.trans isFound
  cases same
  exact inner.setChild isFolder' filename (wellFormed_leaf _)

theorem IsTree.removeFlat {path : FsPath} (tree : IsTree root)
    (removed : FsEntry.removeFlat path root = some folder) : IsTree folder := by
  obtain ⟨entry, _, rfl⟩ := Option.map_eq_some_iff.mp removed
  apply tree.modify
  intro found _ inner
  exact inner.detachChild path.filename

theorem IsTree.prepareParent {nextNode : Nat} {path : FsPath} (tree : IsTree root)
    (prepared : FsEntry.prepareParent nextNode path root = some folder) : IsTree folder := by
  rw [FsEntry.prepareParent] at prepared
  split at prepared
  · cases prepared
    exact tree
  · exact tree.addFolder prepared

theorem getFolderPtr_detach {path : FsPath} (tree : IsTree root)
    (isChild : getEntryPtr path root = some entry) {names : List String}
    (isFound : (getFolderPtr names root).isSome) (outside : ¬ path.keys <+: names) :
    ∃ found, find? names (KeyedTree.modify follow (detachChild path.filename)
      path.parentPath.elements root) = some found ∧ isFolder found = true := by
  obtain ⟨folder, isFolder⟩ := Option.isSome_iff_exists.mp isFound
  have kind := isFolder_of_getFolderPtr isFolder tree.isFolder
  have seen := observe_detach hidesStatistics_isFolder isChild names
  rw [if_neg outside, observe, observe, find?_of_getFolderPtr isFolder, Option.map_some] at seen
  obtain ⟨found, isFound', same⟩ := Option.map_eq_some_iff.mp seen
  exact ⟨found, isFound', same.trans kind⟩

theorem IsTree.moveChild {source destination : FsPath} {child moved : FsEntry}
    (tree : IsTree root) (isChild : getEntryPtr source root = some child)
    (parent : (getFolderPtr destination.parentPath.elements root).isSome)
    (moves : FsEntry.moveChild source destination child root = .moved moved) : IsTree moved := by
  have detached : IsTree (KeyedTree.modify follow (FsEntry.detachChild source.filename)
      source.parentPath.elements root) := by
    apply tree.modify
    intro found _ inner
    exact inner.detachChild source.filename
  simp only [FsEntry.moveChild] at moves
  split at moves
  · split at moves
    · cases moves
      exact detached
    · cases moves
  · rename_i outside
    split at moves
    · cases moves
    · cases moves
      obtain ⟨folder, isFolder, kind⟩ := getFolderPtr_detach tree isChild parent outside
      apply detached.modify
      intro found isFound inner
      cases isFolder.symm.trans isFound
      have proper : WellFormed child := tree.wellFormed.found (find?_of_getEntryPtr isChild)
      apply inner.putChild kind
      exact proper.mapInfo fun _ => EntryInfo.isFolder_rename _

theorem getFolderPtr_link {path : FsPath} (tree : IsTree root)
    (isFound : (getFolderPtr path.elements root).isSome) :
    (getFolderPtr path.elements (KeyedTree.modify follow (linkChild path.filename)
      path.parentPath.elements root)).isSome := by
  obtain ⟨folder, isFolder'⟩ := Option.isSome_iff_exists.mp isFound
  have kind := isFolder_of_getFolderPtr isFolder' tree.isFolder
  obtain ⟨rest, isPath⟩ := path.parentPath_prefix
  have parts := isFolder'
  rw [← isPath, getFolderPtr_append] at parts
  obtain ⟨parent, isParent, _⟩ := Option.bind_eq_some_iff.mp parts
  have linked : IsTree (KeyedTree.modify follow (linkChild path.filename)
      path.parentPath.elements root) := by
    apply tree.modify
    intro found _ inner
    exact inner.linkChild path.filename
  have seen := @observe_link _ _ _ _ hidesStatistics_isFolder path.parentPath.elements
    path.filename (find?_of_getFolderPtr isParent) path.elements
  rw [observe, observe, find?_of_getFolderPtr isFolder', Option.map_some] at seen
  obtain ⟨found, isFound', sameKind⟩ := Option.map_eq_some_iff.mp seen
  rw [getFolderPtr_of_find? linked.wellFormed isFound' (sameKind.trans kind)]
  rfl

theorem getFolderPtr_addFolder {nextNode : Nat} {path : FsPath} (tree : IsTree root)
    (added : FsEntry.addFolder nextNode path root = some folder) :
    (getFolderPtr path.elements folder).isSome := by
  obtain ⟨created, isCreated, rfl⟩ := Option.map_eq_some_iff.mp added
  obtain ⟨found, isFound, kind⟩ := getFolderPtr_createFolders tree.isFolder isCreated
  split
  · rw [isFound]
    rfl
  · have proper := tree.createFolders isCreated
    exact getFolderPtr_link proper (by rw [isFound]; rfl)

theorem getFolderPtr_prepareParent {nextNode : Nat} {path : FsPath} (tree : IsTree root)
    (prepared : FsEntry.prepareParent nextNode path root = some folder) :
    (getFolderPtr path.parentPath.elements folder).isSome := by
  rw [FsEntry.prepareParent] at prepared
  split at prepared
  · rename_i isFound
    cases prepared
    exact isFound
  · exact getFolderPtr_addFolder tree prepared

theorem IsTree.moveFlat {nextNode : Nat} {source destination : FsPath} {moved : FsEntry}
    (tree : IsTree root)
    (moves : FsEntry.moveFlat nextNode source destination root = .moved moved) : IsTree moved := by
  rw [FsEntry.moveFlat] at moves
  split at moves
  · cases moves
  split at moves
  · cases moves
    exact tree
  split at moves
  · cases moves
  · rename_i prepared isPrepared
    split at moves
    · cases moves
    · rename_i child isChild
      exact (tree.prepareParent isPrepared).moveChild isChild
        (getFolderPtr_prepareParent tree isPrepared) moves

theorem IsTree.changeBlocks (tree : IsTree root) (f : Nat → Nat) (node : Nat) :
    IsTree (FsEntry.changeBlocks f node root) := by
  rw [FsEntry.changeBlocks]
  split
  · apply tree.modify
    intro found _ inner
    exact ⟨inner.mapInfo fun _ => EntryInfo.isFolder_mapBlocks f, EntryInfo.isFolder_mapBlocks f⟩
  · exact tree

theorem keys_initializeChilds (handles : List Nat) (childs : List (String × FsEntry)) :
    (initializeChilds handles childs).map Prod.fst = childs.map Prod.fst := by
  induction childs with
  | nil => rfl
  | cons child childs ih =>
      obtain ⟨name, child⟩ := child
      rw [initializeChilds, List.map_cons, List.map_cons, ih]

theorem mem_initializeChilds {handles : List Nat} {childs : List (String × FsEntry)}
    {name : String} {child : FsEntry} (member : (name, child) ∈ initializeChilds handles childs) :
    ∃ before, (name, before) ∈ childs ∧
      child = mapInfo (initializeStatistics handles before) EntryInfo.setLinked := by
  induction childs with
  | nil => cases member
  | cons head childs ih =>
      obtain ⟨first, before⟩ := head
      rw [initializeChilds] at member
      rcases List.mem_cons.mp member with same | later
      · cases same
        exact ⟨before, List.mem_cons_self, rfl⟩
      · obtain ⟨other, isOther, rfl⟩ := ih later
        exact ⟨other, List.mem_cons_of_mem _ isOther, rfl⟩

theorem WellFormed.initializeStatistics (wellFormed : WellFormed entry) (handles : List Nat) :
    WellFormed (FsEntry.initializeStatistics handles entry) ∧
      isFolder (FsEntry.initializeStatistics handles entry) = isFolder entry := by
  induction entry using KeyedTree.induct with
  | node info childs ih =>
      have parts := all_node.mp wellFormed
      refine ⟨?_, EntryInfo.isFolder_setStatistics _⟩
      refine .node ⟨?_, ?_⟩ ?_
      · rw [childs_node, keys_initializeChilds]
        exact parts.1.1
      · intro notFolder
        have none : childs = [] := parts.1.2 ((EntryInfo.isFolder_setStatistics _).symm.trans notFolder)
        rw [childs_node, none]
        rfl
      · intro name child member
        obtain ⟨before, isBefore, rfl⟩ := mem_initializeChilds member
        have proper := (ih name before isBefore (parts.2 name before isBefore)).1
        exact proper.mapInfo fun _ => EntryInfo.isFolder_setLinked

theorem WellFormed.mapFiles (wellFormed : WellFormed entry) (f : File → Bool → File × Bool) :
    WellFormed (FsEntry.mapFiles f entry) ∧
      isFolder (FsEntry.mapFiles f entry) = isFolder entry := by
  induction entry using KeyedTree.induct with
  | node info childs ih =>
      have parts := all_node.mp wellFormed
      have kind : isFolder (FsEntry.mapFiles f (.node info childs)) = info.isFolder := by
        cases info <;> rfl
      refine ⟨?_, kind⟩
      refine .node ⟨?_, ?_⟩ ?_
      · rw [childs_node, keys_mapChilds]
        exact parts.1.1
      · intro notFolder
        have none : childs = [] := parts.1.2 (kind.symm.trans notFolder)
        rw [childs_node, none]
        rfl
      · intro name child member
        rw [mapChilds_eq] at member
        obtain ⟨⟨other, before⟩, isBefore, same⟩ := List.mem_map.mp member
        cases same
        exact (ih other before isBefore (parts.2 other before isBefore)).1

end FsEntry

/-! ## Trees -/

/-- An fs tree: a folder with proper entries. -/
abbrev FsEntryTree := { root : FsEntry // root.IsTree }

namespace FsEntryTree

variable (tree : FsEntryTree)

theorem some_of_attachWith {option : Option FsEntry} {changed : FsEntryTree}
    {proper : ∀ root, option = some root → FsEntry.IsTree root}
    (isSome : option.attachWith FsEntry.IsTree proper = some changed) :
    option = some changed.1 := by
  cases option with
  | none => cases isSome
  | some root =>
      cases isSome
      rfl

def addFolder (nextNode : Nat) (path : FsPath) : Option FsEntryTree :=
  (FsEntry.addFolder nextNode path tree.1).attachWith FsEntry.IsTree fun _ added =>
    tree.2.addFolder added

def addFile (nextNode : Nat) (destination : FsPath) (filename : String) (fileHash : InfoHash)
    (size : Nat) : Option FsEntryTree :=
  (FsEntry.addFile nextNode destination filename fileHash size tree.1).attachWith FsEntry.IsTree
    fun _ added => tree.2.addFile added

def addModifiableFile (nextNode : Nat) (destination : FsPath) (filename : String)
    (temporaryHash : InfoHash) : Option FsEntryTree :=
  (FsEntry.addModifiableFile nextNode destination filename temporaryHash tree.1).attachWith
    FsEntry.IsTree fun _ added => tree.2.addModifiableFile added

def removeFlat (path : FsPath) : Option FsEntryTree :=
  (FsEntry.removeFlat path tree.1).attachWith FsEntry.IsTree fun _ removed =>
    tree.2.removeFlat removed

def moveFlat (nextNode : Nat) (source destination : FsPath) : FsEntry.MoveResult FsEntryTree :=
  match isMoved : FsEntry.moveFlat nextNode source destination tree.1 with
  | .failed => .failed
  | .moved root => .moved ⟨root, tree.2.moveFlat isMoved⟩
  | .undefined => .undefined

def addBlock (node : Nat) : FsEntryTree := ⟨FsEntry.addBlock node tree.1, tree.2.changeBlocks _ node⟩

def removeBlock (node : Nat) : FsEntryTree :=
  ⟨FsEntry.removeBlock node tree.1, tree.2.changeBlocks _ node⟩

def initializeStatistics (handles : List Nat) : FsEntryTree :=
  ⟨FsEntry.initializeStatistics handles tree.1, (tree.2.wellFormed.initializeStatistics handles).1,
    (tree.2.wellFormed.initializeStatistics handles).2.trans tree.2.isFolder⟩

def mapFiles (f : File → Bool → File × Bool) : FsEntryTree :=
  ⟨FsEntry.mapFiles f tree.1, (tree.2.wellFormed.mapFiles f).1,
    (tree.2.wellFormed.mapFiles f).2.trans tree.2.isFolder⟩

/-- `clearStatisticsNode` gives the root folder a new node. -/
def clearStatisticsNode (nextNode : Nat) : FsEntryTree :=
  ⟨FsEntry.mapInfo tree.1 fun info => info.setStatistics { node := nextNode },
    tree.2.wellFormed.mapInfo fun _ => EntryInfo.isFolder_setStatistics _,
    (EntryInfo.isFolder_setStatistics _).trans tree.2.isFolder⟩

end FsEntryTree

end SiriusDrive
