import SiriusDrive.FsTree.Nodes

/-! # The states of the files

What a task knows of the files of an fs tree: their hashes, which of them may be
changed, and the nodes that are blocked while they are open.
-/

namespace SiriusDrive

open KeyedTree

structure FileState where
  hash : InfoHash
  isModifiable : Bool
  node : Nat
  deriving Repr, DecidableEq

namespace FsEntry

variable {root folder entry other : FsEntry}

def fileState? (info : EntryInfo) : Option FileState :=
  match info with
  | .folder .. => none
  | .file content isModifiable statistics => some ⟨content.hash, isModifiable, statistics.node⟩

theorem hidesLinks_fileState? : HidesLinks fileState? where
  update info _ _ := by cases info <;> rfl
  setLinked info := by cases info <;> rfl
  rename info _ := by cases info <;> rfl

theorem fileState?_folder (name : String) (node : Nat) :
    fileState? (.folder name { node := node }) = none := rfl

def fileStates (entry : FsEntry) : List FileState := (states fileState? entry).filterMap id

theorem fileStates_eq (entry : FsEntry) :
    fileStates entry = entry.values.filterMap fileState? := by
  rw [fileStates, states, List.filterMap_map, Function.id_comp]

theorem getUniqueFiles_eq (entry : FsEntry) :
    getUniqueFiles entry = (fileStates entry).map FileState.hash := by
  rw [fileStates_eq, List.map_filterMap, getUniqueFiles]
  congr 1
  funext info
  cases info <;> rfl

theorem modifiableFiles_eq (entry : FsEntry) : modifiableFiles entry =
    ((fileStates entry).filter FileState.isModifiable).map FileState.hash := by
  rw [fileStates_eq, List.filter_filterMap, List.map_filterMap, modifiableFiles]
  congr 1
  funext info
  cases info with
  | folder => rfl
  | file content isModifiable statistics => cases isModifiable <;> rfl

theorem mem_modifiableFiles {hash : InfoHash} :
    hash ∈ modifiableFiles entry ↔
      ∃ state ∈ fileStates entry, state.isModifiable = true ∧ state.hash = hash := by
  rw [modifiableFiles_eq, List.mem_map]
  constructor
  · rintro ⟨state, member, same⟩
    obtain ⟨isState, modifiable⟩ := List.mem_filter.mp member
    exact ⟨state, isState, modifiable, same⟩
  · rintro ⟨state, isState, modifiable, same⟩
    exact ⟨state, List.mem_filter.mpr ⟨isState, modifiable⟩, same⟩

theorem modifiableFiles_sublist (entry : FsEntry) :
    (modifiableFiles entry).Sublist (getUniqueFiles entry) := by
  rw [modifiableFiles_eq, getUniqueFiles_eq]
  exact List.filter_sublist.map _

theorem mem_getUniqueFiles {hash : InfoHash} :
    hash ∈ getUniqueFiles entry ↔ ∃ state ∈ fileStates entry, state.hash = hash := by
  rw [getUniqueFiles_eq, List.mem_map]

theorem getUniqueFiles_subperm (files : (fileStates other).Subperm (fileStates entry)) :
    (getUniqueFiles other).Subperm (getUniqueFiles entry) := by
  obtain ⟨kept, perm, isKept⟩ := files
  rw [getUniqueFiles_eq, getUniqueFiles_eq]
  exact ⟨kept.map FileState.hash, perm.map _, isKept.map _⟩

/-! ## What the operations do to them -/

theorem fileStates_perm (perm : (states fileState? other).Perm (states fileState? entry)) :
    (fileStates other).Perm (fileStates entry) :=
  perm.filterMap id

theorem fileStates_subperm {added : List (Option FileState)}
    (subperm : (states fileState? other).Subperm (added ++ states fileState? entry)) :
    (fileStates other).Subperm (added.filterMap id ++ fileStates entry) := by
  obtain ⟨kept, perm, isKept⟩ := subperm
  rw [fileStates, fileStates, ← List.filterMap_append]
  exact ⟨kept.filterMap id, perm.filterMap id, isKept.filterMap id⟩

theorem filterMap_newFolders (nextNode count : Nat) :
    ((List.range' nextNode count).map fun _ => (none : Option FileState)).filterMap id = [] := by
  rw [List.filterMap_map]
  exact List.filterMap_eq_nil_iff.mpr fun _ _ => rfl

theorem fileStates_addFolder {nextNode : Nat} {path : FsPath} (tree : IsTree root)
    (added : addFolder nextNode path root = some folder) :
    (fileStates folder).Perm (fileStates root) := by
  obtain ⟨count, _, perm⟩ := states_addFolder hidesLinks_fileState? fileState?_folder tree added
  have files := perm.filterMap id
  rw [List.filterMap_append, filterMap_newFolders] at files
  exact files

theorem fileStates_prepareParent {nextNode : Nat} {path : FsPath} (tree : IsTree root)
    (prepared : prepareParent nextNode path root = some folder) :
    (fileStates folder).Perm (fileStates root) := by
  rw [prepareParent] at prepared
  split at prepared
  · cases prepared
    exact List.Perm.refl _
  · exact fileStates_addFolder tree prepared

theorem fileStates_detach {path : FsPath} (wellFormed : WellFormed root)
    (isEntry : getEntryPtr path root = some entry) :
    (fileStates root).Perm (fileStates entry ++ fileStates
      (modify follow (detachChild path.filename) path.parentPath.elements root)) := by
  have files := (states_detach hidesLinks_fileState? wellFormed isEntry).filterMap id
  rw [List.filterMap_append] at files
  exact files

theorem fileStates_put {parent : List String} (wellFormed : WellFormed root)
    (isFound : find? parent root = some folder) (name : String) (child : FsEntry) :
    (fileStates (modify follow (putChild name child) parent root)).Subperm
      (fileStates child ++ fileStates root) :=
  fileStates_subperm (states_put hidesLinks_fileState? wellFormed isFound name child)

theorem fileStates_put_put {parent : List String} {name : String} {first second : FsEntry}
    (wellFormed : WellFormed root) (isFound : find? parent root = some folder)
    (later : WellFormed (modify follow (putChild name first) parent root)) :
    (fileStates (modify follow (putChild name second) parent
        (modify follow (putChild name first) parent root))).Subperm
      (fileStates second ++ fileStates root) := by
  have isThere : find? parent (modify follow (putChild name first) parent root) =
      some (putChild name first folder) := by
    have below := @find?_modify_below _ _ _ follow (putChild name first) _ _ _ isFound []
    rw [List.append_nil, find?_nil] at below
    exact below
  obtain ⟨rest, before, after⟩ :=
    values_modify_perm hidesLinks_fileState?.follow wellFormed.uniqueKeys isFound
  obtain ⟨others, between, last⟩ :=
    values_modify_perm hidesLinks_fileState?.follow later.uniqueKeys isThere
  have same : others.Perm rest :=
    (List.perm_append_left_iff _).mp (between.symm.trans (after (putChild name first)))
  have replaced : (states fileState? (putChild name second (putChild name first folder))).Subperm
      (states fileState? second ++ states fileState? folder) := by
    have once := states_putChild hidesLinks_fileState? (wellFormed.found isFound) name second
    obtain ⟨info, childs⟩ := folder
    rw [putChild, putChild, eraseChild_insertChild, eraseChild_eraseChild, states_node,
      hidesLinks_fileState?.update, hidesLinks_fileState?.update]
    rw [putChild, states_node, hidesLinks_fileState?.update] at once
    exact once
  apply fileStates_subperm
  apply (last (putChild name second)).subperm.trans
  apply List.Subperm.trans _ (before.symm.append_left _).subperm
  rw [← List.append_assoc]
  apply List.Subperm.trans _ ((List.subperm_append_right rest).mpr replaced)
  exact (same.append_left _).subperm

theorem fileStates_moveFlat {nextNode : Nat} {source destination : FsPath} {moved : FsEntry}
    (tree : IsTree root) (moves : Moves nextNode source destination root (.moved moved)) :
    (fileStates moved).Subperm (fileStates root) := by
  obtain ⟨count, _, subperm⟩ :=
    states_moveFlat hidesLinks_fileState? fileState?_folder tree moves
  have files := fileStates_subperm subperm
  rw [filterMap_newFolders] at files
  exact files

theorem fileStates_changeBlocks (wellFormed : WellFormed root) (f : Nat → Nat) (node : Nat) :
    (fileStates (changeBlocks f node root)).Perm (fileStates root) := by
  rw [changeBlocks]
  split
  · rename_i address isAddress
    obtain ⟨found, isFound, _⟩ := find?_of_addressOf wellFormed.uniqueKeys isAddress
    obtain ⟨rest, before, after⟩ :=
      values_modify_perm hidesLinks_fileState?.follow wellFormed.uniqueKeys isFound
    have same : states fileState? (mapInfo found (·.mapBlocks f)) = states fileState? found := by
      apply states_mapInfo
      intro info
      cases info <;> rfl
    apply fileStates_perm
    apply (after (mapInfo · (·.mapBlocks f))).trans
    rw [← states, ← states, same] at *
    exact before.symm
  · exact List.Perm.refl _

theorem states_fileState?_initializeStatistics (handles : List Nat) (entry : FsEntry) :
    states fileState? (initializeStatistics handles entry) = states fileState? entry := by
  induction entry using KeyedTree.induct with
  | node info childs ih =>
      have below : (childValues (initializeChilds handles childs)).map fileState? =
          (childValues childs).map fileState? := by
        induction childs with
        | nil => rfl
        | cons child childs others =>
            obtain ⟨name, child⟩ := child
            have here := ih name child List.mem_cons_self
            rw [← states_mapInfo hidesLinks_fileState?.setLinked, states, states] at here
            rw [initializeChilds, childValues, childValues, List.map_append, List.map_append,
              here, others fun other sibling member =>
                ih other sibling (List.mem_cons_of_mem _ member)]
      have own : ∀ childrenBlocks, fileState? (info.setStatistics
          { info.statistics with
            blocks := handles.count info.statistics.node
            childrenBlocks }) = fileState? info := by
        intro childrenBlocks
        cases info <;> rfl
      rw [initializeStatistics, states_node, states_node, own, below]

theorem fileStates_initializeStatistics (handles : List Nat) (entry : FsEntry) :
    fileStates (initializeStatistics handles entry) = fileStates entry := by
  rw [fileStates, states_fileState?_initializeStatistics, fileStates]

theorem fileStates_mapFiles {f : File → Bool → File × Bool} {g : InfoHash → Bool → InfoHash × Bool}
    (byHash : ∀ content isModifiable, ((f content isModifiable).1.hash, (f content isModifiable).2) =
      g content.hash isModifiable) (entry : FsEntry) :
    fileStates (mapFiles f entry) = (fileStates entry).map fun state =>
      ⟨(g state.hash state.isModifiable).1, (g state.hash state.isModifiable).2, state.node⟩ := by
  rw [fileStates_eq, mapFiles, values_map, List.filterMap_map, fileStates_eq, List.map_filterMap]
  congr 1
  funext info
  cases info with
  | folder => rfl
  | file content isModifiable statistics =>
      have same := byHash content isModifiable
      rw [Prod.mk.injEq] at same
      simp [fileState?, ← same.1, ← same.2]

theorem fileStates_clearStatisticsNode (tree : FsEntryTree) (nextNode : Nat) :
    fileStates (tree.clearStatisticsNode nextNode).1 = fileStates tree.1 := by
  obtain ⟨⟨info, childs⟩, isTree⟩ := tree
  cases info with
  | folder => rfl
  | file => cases isTree.isFolder

/-! ## Files that are referred to once -/

/-- A file that is counted once and found in an entry is found nowhere else. -/
theorem notMem_detached {path : FsPath} (wellFormed : WellFormed root)
    (isEntry : getEntryPtr path root = some entry) {hash : InfoHash}
    (once : (getUniqueFiles root).count hash ≤ 1) (member : hash ∈ getUniqueFiles entry) :
    hash ∉ getUniqueFiles
      (modify follow (detachChild path.filename) path.parentPath.elements root) := by
  intro again
  have parts := (fileStates_detach wellFormed isEntry).map FileState.hash
  rw [List.map_append, ← getUniqueFiles_eq, ← getUniqueFiles_eq, ← getUniqueFiles_eq] at parts
  have here := List.count_pos_iff.mpr member
  have there := List.count_pos_iff.mpr again
  rw [parts.count_eq, List.count_append] at once
  omega

theorem mem_fileStates_of_find? (wellFormed : WellFormed root) {address : List String}
    (isFound : find? address root = some entry) {state : FileState}
    (isState : fileState? entry.value = some state) : state ∈ fileStates root := by
  rw [fileStates_eq, List.mem_filterMap]
  exact ⟨entry.value,
    (mem_values_iff wellFormed.uniqueKeys).mpr ⟨address, entry, isFound, rfl⟩, isState⟩

theorem fileState?_of_fileHash? {info : EntryInfo} {hash : InfoHash}
    (isHash : info.fileHash? = some hash) :
    ∃ isModifiable, fileState? info = some ⟨hash, isModifiable, info.statistics.node⟩ := by
  cases info with
  | folder => cases isHash
  | file content isModifiable statistics =>
      cases isHash
      exact ⟨isModifiable, rfl⟩

theorem state_unique {hash : InfoHash} (once : (getUniqueFiles root).count hash ≤ 1)
    {one other : FileState} (isOne : one ∈ fileStates root) (isOther : other ∈ fileStates root)
    (oneHash : one.hash = hash) (otherHash : other.hash = hash) : one = other := by
  by_contra differ
  have both : [one, other].Subperm (fileStates root) := by
    apply List.subperm_of_subset
    · exact List.nodup_cons.mpr ⟨by simpa using differ, List.nodup_singleton other⟩
    · intro state member
      rcases List.mem_pair.mp member with rfl | rfl
      · exact isOne
      · exact isOther
  obtain ⟨kept, perm, isKept⟩ := both
  have twice : ([one, other].map FileState.hash).count hash ≤ (getUniqueFiles root).count hash := by
    rw [getUniqueFiles_eq, ← (perm.map FileState.hash).count_eq]
    exact (isKept.map FileState.hash).count_le hash
  simp [oneHash, otherHash] at twice
  omega

end FsEntry

namespace FsEntryTree

open FsEntry

variable {nextNode laterNode : Nat} {tree added changed : FsEntryTree} {path : FsPath}
  {temporaryHash overwrittenHash : InfoHash}

theorem getEntryPtr_addModifiableFile
    (isFolder : (getFolderPtr path.parentPath.elements tree.1).isSome)
    (isAdded : tree.addModifiableFile nextNode path.parentPath path.filename temporaryHash =
      some changed) :
    ∃ entry, getEntryPtr path changed.1 = some entry ∧
      entry.value.fileHash? = some temporaryHash ∧
        statisticsNode entry = nextNode + path.parentPath.elements.length := by
  have isFound := (find?_addModifiableFile isFolder isAdded).2
  exact ⟨_, getEntryPtr_of_find? changed.2.wellFormed isFound, rfl, rfl⟩

theorem fileStates_addModifiableFile
    (isFolder : (getFolderPtr path.parentPath.elements tree.1).isSome)
    (isAdded : tree.addModifiableFile nextNode path.parentPath path.filename temporaryHash =
      some changed) :
    (fileStates changed.1).Subperm
      (⟨temporaryHash, true, nextNode + path.parentPath.elements.length⟩ :: fileStates tree.1) := by
  obtain ⟨folder, isFound⟩ := Option.isSome_iff_exists.mp isFolder
  rw [addModifiableFile_eq isFolder isAdded]
  exact fileStates_put tree.2.wellFormed (find?_of_getFolderPtr isFound) _ _

theorem fileStates_addModifiableFile_twice
    (isFolder : (getFolderPtr path.parentPath.elements tree.1).isSome)
    (isAdded : tree.addModifiableFile nextNode path.parentPath path.filename overwrittenHash =
      some added)
    (isChanged : added.addModifiableFile laterNode path.parentPath path.filename temporaryHash =
      some changed) :
    (fileStates changed.1).Subperm
      (⟨temporaryHash, true, laterNode + path.parentPath.elements.length⟩ ::
        fileStates tree.1) := by
  obtain ⟨folder, isFound⟩ := Option.isSome_iff_exists.mp isFolder
  have first := addModifiableFile_eq isFolder isAdded
  have second := addModifiableFile_eq (find?_addModifiableFile isFolder isAdded).1 isChanged
  have later := added.2.wellFormed
  rw [first] at second later
  rw [second]
  exact fileStates_put_put tree.2.wellFormed (find?_of_getFolderPtr isFound) later

theorem fileStates_removeFlat {entry : FsEntry} (isEntry : getEntryPtr path tree.1 = some entry)
    (removed : tree.removeFlat path = some changed) :
    (fileStates tree.1).Perm (fileStates entry ++ fileStates changed.1) := by
  obtain ⟨_, _, same⟩ := Option.map_eq_some_iff.mp (some_of_attachWith removed)
  rw [← same]
  exact fileStates_detach tree.2.wellFormed isEntry

theorem filesLinked_addModifiableFile (linked : FilesLinked tree.1)
    (isFolder : (getFolderPtr path.parentPath.elements tree.1).isSome)
    (isAdded : tree.addModifiableFile nextNode path.parentPath path.filename temporaryHash =
      some changed) : FilesLinked changed.1 := by
  obtain ⟨folder, isFound⟩ := Option.isSome_iff_exists.mp isFolder
  rw [addModifiableFile_eq isFolder isAdded]
  apply linked.modify tree.2.wellFormed (find?_of_getFolderPtr isFound)
  intro inner
  apply inner.putChild
  intro name child member
  cases member

theorem filesLinked_removeFlat (linked : FilesLinked tree.1)
    (removed : tree.removeFlat path = some changed) : FilesLinked changed.1 := by
  obtain ⟨entry, isEntry, same⟩ := Option.map_eq_some_iff.mp (some_of_attachWith removed)
  rw [← same]
  exact linked.detach tree.2.wellFormed isEntry

theorem filesLinked_clearStatisticsNode (linked : FilesLinked tree.1) (nextNode : Nat) :
    FilesLinked (tree.clearStatisticsNode nextNode).1 := by
  obtain ⟨⟨info, childs⟩, isTree⟩ := tree
  cases info with
  | folder =>
      apply filesLinked_node.mpr
      constructor
      · intro isFile
        cases isFile
      · exact (filesLinked_node.mp linked).2
  | file => cases isTree.isFolder

end FsEntryTree

end SiriusDrive
