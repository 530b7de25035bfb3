import SiriusDrive.FsTree.WellFormed

/-! # The files of an fs tree

Which file is found under which path, and what the operations do to that. Folders
come and go without a file being touched.
-/

namespace SiriusDrive

open KeyedTree

namespace FsEntry

variable {root folder entry : FsEntry}

def fileAt (names : List String) (root : FsEntry) : Option InfoHash :=
  (find? names root).bind fun found => found.value.fileHash?

theorem hidesStatistics_fileHash? : HidesStatistics EntryInfo.fileHash? :=
  fun _ _ => EntryInfo.fileHash?_setStatistics _

theorem fileAt_eq_observe (names : List String) (root : FsEntry) :
    fileAt names root = (observe EntryInfo.fileHash? names root).join := by
  rw [fileAt, observe]
  cases find? names root <;> rfl

theorem fileAt_congr {other : FsEntry} {names others : List String}
    (same : observe EntryInfo.fileHash? names root = observe EntryInfo.fileHash? others other) :
    fileAt names root = fileAt others other := by
  rw [fileAt_eq_observe, fileAt_eq_observe, same]

theorem fileAt_cons (name : String) (names : List String) (root : FsEntry) :
    fileAt (name :: names) root =
      (childAt name root.childs).bind fun child => fileAt names child := by
  rw [fileAt, find?_cons]
  cases childAt name root.childs <;> rfl

theorem fileAt_append {address : List String} (isFound : find? address root = some entry)
    (names : List String) : fileAt (address ++ names) root = fileAt names entry := by
  rw [fileAt, find?_append, isFound]
  rfl

theorem fileAt_of_none {address : List String} (missing : find? address root = none)
    (names : List String) : fileAt (address ++ names) root = none := by
  rw [fileAt, find?_append, missing]
  rfl

theorem mem_getUniqueFiles_iff (wellFormed : WellFormed root) {hash : InfoHash} :
    hash ∈ getUniqueFiles root ↔ ∃ names, fileAt names root = some hash := by
  rw [getUniqueFiles, List.mem_filterMap]
  constructor
  · rintro ⟨info, member, isHash⟩
    obtain ⟨names, found, isFound, same⟩ := (mem_values_iff wellFormed.uniqueKeys).mp member
    refine ⟨names, ?_⟩
    rw [fileAt, isFound, Option.bind_some, same, isHash]
  · rintro ⟨names, isFile⟩
    obtain ⟨found, isFound, isHash⟩ := Option.bind_eq_some_iff.mp isFile
    exact ⟨found.value, (mem_values_iff wellFormed.uniqueKeys).mpr ⟨names, found, isFound, rfl⟩,
      isHash⟩

theorem mem_getUniqueFiles_of_find? (wellFormed : WellFormed root) {address : List String}
    (isFound : find? address root = some entry) {hash : InfoHash} :
    hash ∈ getUniqueFiles entry ↔ ∃ names, fileAt (address ++ names) root = some hash := by
  rw [mem_getUniqueFiles_iff (wellFormed.found isFound)]
  constructor
  · rintro ⟨names, isFile⟩
    exact ⟨names, (fileAt_append isFound names).trans isFile⟩
  · rintro ⟨names, isFile⟩
    exact ⟨names, (fileAt_append isFound names).symm.trans isFile⟩

/-! ## Creating folders -/

theorem fileAt_newFolders (nextNode : Nat) (name : String) (names address : List String) :
    fileAt address (newFolders nextNode name names) = none := by
  induction names generalizing nextNode name address with
  | nil => cases address <;> rfl
  | cons next names ih =>
      cases address with
      | nil => rfl
      | cons first address =>
          rw [newFolders, fileAt_cons, childs_node, childAt]
          split
          · exact ih _ _ address
          · rfl

theorem fileAt_createFolders {nextNode : Nat} {names : List String}
    (created : createFolders nextNode names root = some folder) (address : List String) :
    fileAt address folder = fileAt address root := by
  induction names generalizing root folder address with
  | nil =>
      cases created
      rfl
  | cons name names ih =>
      obtain ⟨info, childs⟩ := root
      rw [createFolders] at created
      split at created
      · rename_i absent
        cases created
        cases address with
        | nil => rfl
        | cons first address =>
            rw [fileAt_cons, fileAt_cons, childs_node, childs_node, childAt_insertChild absent]
            split
            · rename_i same
              rw [same, absent]
              exact fileAt_newFolders _ _ _ _
            · rfl
      · rename_i child isChild
        split at created
        · obtain ⟨changed, isChanged, rfl⟩ := Option.map_eq_some_iff.mp created
          cases address with
          | nil => rfl
          | cons first address =>
              rw [fileAt_cons, fileAt_cons, childs_node, childs_node, childAt_replaceChild]
              split
              · rename_i same
                rw [same, isChild]
                exact ih isChanged address
              · rfl
        · cases created

theorem value_createFolders {nextNode : Nat} {names : List String}
    (created : createFolders nextNode names root = some folder) {address : List String}
    (isFound : find? address root = some entry) :
    ∃ found, find? address folder = some found ∧ found.value = entry.value := by
  induction names generalizing root folder address with
  | nil =>
      cases created
      exact ⟨entry, isFound, rfl⟩
  | cons name names ih =>
      obtain ⟨info, childs⟩ := root
      rw [createFolders] at created
      split at created
      · rename_i absent
        cases created
        cases address with
        | nil =>
            cases isFound
            exact ⟨_, rfl, rfl⟩
        | cons first address =>
            obtain ⟨child, isChild, later⟩ := Option.bind_eq_some_iff.mp isFound
            have other : first ≠ name := by
              intro same
              rw [same, childs_node, absent] at isChild
              cases isChild
            refine ⟨entry, ?_, rfl⟩
            rw [find?_cons, childs_node, childAt_insertChild absent, if_neg other]
            exact isFound
      · rename_i child isChild
        split at created
        · obtain ⟨changed, isChanged, rfl⟩ := Option.map_eq_some_iff.mp created
          cases address with
          | nil =>
              cases isFound
              exact ⟨_, rfl, rfl⟩
          | cons first address =>
              by_cases same : first = name
              · subst same
                rw [find?_cons, childs_node, isChild] at isFound
                obtain ⟨found, isThere, value⟩ := ih isChanged isFound
                refine ⟨found, ?_, value⟩
                rw [find?_cons, childs_node, childAt_replaceChild, if_pos rfl, isChild]
                exact isThere
              · refine ⟨entry, ?_, rfl⟩
                rw [find?_cons, childs_node, childAt_replaceChild, if_neg same]
                exact isFound
        · cases created

theorem find?_newFolders (nextNode : Nat) (name : String) (names : List String) (next : String)
    (rest : List String) : find? (names ++ next :: rest) (newFolders nextNode name names) = none := by
  induction names generalizing nextNode name with
  | nil => rfl
  | cons first names ih =>
      rw [List.cons_append, newFolders, find?_cons, childs_node, childAt, if_pos rfl]
      exact ih _ _

theorem find?_createFolders {nextNode : Nat} {names : List String}
    (missing : getFolderPtr names root = none)
    (created : createFolders nextNode names root = some folder) (next : String)
    (rest : List String) : find? (names ++ next :: rest) folder = none := by
  induction names generalizing root folder with
  | nil => cases missing
  | cons name names ih =>
      obtain ⟨info, childs⟩ := root
      rw [createFolders] at created
      rw [getFolderPtr, childs_node] at missing
      split at created
      · rename_i absent
        cases created
        rw [List.cons_append, find?_cons, childs_node, childAt_insertChild absent, if_pos rfl]
        exact find?_newFolders _ _ _ _ _
      · rename_i child isChild
        split at created
        · rename_i kind
          obtain ⟨changed, isChanged, rfl⟩ := Option.map_eq_some_iff.mp created
          simp only [isChild, kind, if_true] at missing
          rw [List.cons_append, find?_cons, childs_node, childAt_replaceChild, if_pos rfl, isChild]
          exact ih missing isChanged
        · cases created

theorem fileAt_link {parent : List String} {name : String}
    (isFound : find? parent root = some folder) (names : List String) :
    fileAt names (KeyedTree.modify follow (linkChild name) parent root) = fileAt names root := by
  apply fileAt_congr
  exact observe_link hidesStatistics_fileHash? isFound names

theorem find?_parent_of_createFolders {nextNode : Nat} {path : FsPath}
    (isRoot : isFolder root = true)
    (created : createFolders nextNode path.elements root = some folder) :
    ∃ parent, find? path.parentPath.elements folder = some parent := by
  obtain ⟨found, isFound, _⟩ := getFolderPtr_createFolders isRoot created
  obtain ⟨rest, isPath⟩ := path.parentPath_prefix
  rw [← isPath, getFolderPtr_append] at isFound
  obtain ⟨parent, isParent, _⟩ := Option.bind_eq_some_iff.mp isFound
  exact ⟨parent, find?_of_getFolderPtr isParent⟩

theorem fileAt_addFolder {nextNode : Nat} {path : FsPath} (isRoot : isFolder root = true)
    (added : addFolder nextNode path root = some folder) (names : List String) :
    fileAt names folder = fileAt names root := by
  obtain ⟨created, isCreated, rfl⟩ := Option.map_eq_some_iff.mp added
  split
  · exact fileAt_createFolders isCreated names
  · obtain ⟨parent, isParent⟩ := find?_parent_of_createFolders isRoot isCreated
    rw [fileAt_link isParent]
    exact fileAt_createFolders isCreated names

theorem fileAt_prepareParent {nextNode : Nat} {path : FsPath} (isRoot : isFolder root = true)
    (prepared : prepareParent nextNode path root = some folder) (names : List String) :
    fileAt names folder = fileAt names root := by
  rw [prepareParent] at prepared
  split at prepared
  · cases prepared
    rfl
  · exact fileAt_addFolder isRoot prepared names

theorem find?_eq_none_of_observe {β : Type*} {obs : EntryInfo → β} {names others : List String}
    {other : FsEntry} (same : observe obs names root = observe obs others other)
    (missing : find? others other = none) : find? names root = none := by
  rw [observe, observe, missing, Option.map_none] at same
  exact Option.map_eq_none_iff.mp same

theorem find?_keys_prepareParent {nextNode : Nat} {path : FsPath} (tree : IsTree root)
    (prepared : prepareParent nextNode path root = some folder) :
    find? path.keys folder = find? path.keys root := by
  rw [prepareParent] at prepared
  split at prepared
  · cases prepared
    rfl
  · rename_i noParent
    have missing : getFolderPtr path.parentPath.elements root = none :=
      Option.not_isSome_iff_eq_none.mp noParent
    have before : find? path.keys root = none := by
      rw [Option.eq_none_iff_forall_ne_some]
      intro entry isFound
      have isEntry := getEntryPtr_of_find? tree.wellFormed isFound
      rw [getEntryPtr, missing] at isEntry
      cases isEntry
    rw [before]
    obtain ⟨created, isCreated, rfl⟩ := Option.map_eq_some_iff.mp prepared
    have below : find? path.keys created = none := find?_createFolders missing isCreated _ []
    split
    · exact below
    · obtain ⟨parent, isParent⟩ := find?_parent_of_createFolders tree.isFolder isCreated
      exact find?_eq_none_of_observe (@observe_link _ _ _ _ hidesStatistics_isFolder
        path.parentPath.parentPath.elements path.parentPath.filename isParent path.keys) below

/-- An entry is still there after the parent of another path has been added. -/
theorem find?_prepareParent {nextNode : Nat} {path : FsPath} (isRoot : isFolder root = true)
    (prepared : prepareParent nextNode path root = some folder) {names : List String}
    (isFound : find? names root = some entry) : ∃ found, find? names folder = some found := by
  rw [prepareParent] at prepared
  split at prepared
  · cases prepared
    exact ⟨entry, isFound⟩
  · obtain ⟨created, isCreated, rfl⟩ := Option.map_eq_some_iff.mp prepared
    obtain ⟨found, isThere, _⟩ := value_createFolders isCreated isFound
    split
    · exact ⟨found, isThere⟩
    · obtain ⟨parent, isParent⟩ := find?_parent_of_createFolders isRoot isCreated
      have seen := @observe_link _ _ _ _ hidesStatistics_isFolder path.parentPath.parentPath.elements
        path.parentPath.filename isParent names
      rw [observe, observe, isThere, Option.map_some] at seen
      obtain ⟨linked, isLinked, _⟩ := Option.map_eq_some_iff.mp seen
      exact ⟨linked, isLinked⟩

/-! ## Removing and moving -/

theorem fileAt_detach {path : FsPath} (isFound : getEntryPtr path root = some entry)
    (names : List String) :
    fileAt names
        (KeyedTree.modify follow (detachChild path.filename) path.parentPath.elements root) =
      if path.keys <+: names then none else fileAt names root := by
  rw [fileAt_eq_observe, observe_detach hidesStatistics_fileHash? isFound, fileAt_eq_observe]
  split <;> rfl

theorem find?_detach {path : FsPath} {names : List String} (notBelow : ¬ path.keys <+: names)
    (notAbove : ¬ names <+: path.parentPath.elements)
    (isFound : find? path.parentPath.elements root = some folder) :
    find? names
        (KeyedTree.modify follow (detachChild path.filename) path.parentPath.elements root) =
      find? names root := by
  by_cases below : path.parentPath.elements <+: names
  · obtain ⟨rest, rfl⟩ := below
    rw [find?_modify_below isFound, find?_append, isFound, Option.bind_some]
    cases rest with
    | nil => exact absurd (by simp) notAbove
    | cons name rest =>
        obtain ⟨info, childs⟩ := folder
        have other : name ≠ path.filename := by
          intro same
          apply notBelow
          rw [FsPath.keys, same]
          exact (List.prefix_append_right_inj _).mpr ⟨rest, rfl⟩
        rw [detachChild, find?_cons, find?_cons]
        split
        · rfl
        · rw [childs_node, childAt_eraseChild, if_neg other, childs_node]
  · exact find?_modify_apart below notAbove root

/-- What `moveFlat` can come to. -/
inductive Moves (nextNode : Nat) (source destination : FsPath) (root : FsEntry) :
    MoveResult FsEntry → Prop where
  | missing (noEntry : getEntryPtr source root = none) : Moves nextNode source destination root .failed
  | noParent (isSource : (getEntryPtr source root).isSome) (differ : destination ≠ source)
      (blocked : prepareParent nextNode destination root = none) :
      Moves nextNode source destination root .failed
  | same (isSource : (getEntryPtr source root).isSome) (same : destination = source) :
      Moves nextNode source destination root (.moved root)
  | intoItself {prepared child : FsEntry}
      (isPrepared : prepareParent nextNode destination root = some prepared)
      (isChild : getEntryPtr source prepared = some child)
      (isSource : (getEntryPtr source root).isSome) (differ : destination ≠ source)
      (inside : source.keys <+: destination.parentPath.elements)
      (lost : destination.parentPath.elements.drop source.keys.length = [] ∨
        isLinkedBelow (destination.parentPath.elements.drop source.keys.length) child = false) :
      Moves nextNode source destination root
        (.moved (KeyedTree.modify follow (detachChild source.filename) source.parentPath.elements
          prepared))
  | looping {prepared child : FsEntry}
      (isPrepared : prepareParent nextNode destination root = some prepared)
      (isChild : getEntryPtr source prepared = some child)
      (isSource : (getEntryPtr source root).isSome) (differ : destination ≠ source)
      (inside : source.keys <+: destination.parentPath.elements)
      (loops : ¬ (destination.parentPath.elements.drop source.keys.length = [] ∨
        isLinkedBelow (destination.parentPath.elements.drop source.keys.length) child = false)) :
      Moves nextNode source destination root .undefined
  | overAncestor (isSource : (getEntryPtr source root).isSome) (differ : destination ≠ source)
      (isPrepared : (prepareParent nextNode destination root).isSome)
      (outside : ¬ source.keys <+: destination.parentPath.elements)
      (above : destination.keys <+: source.keys) :
      Moves nextNode source destination root .undefined
  | elsewhere {prepared child : FsEntry}
      (isPrepared : prepareParent nextNode destination root = some prepared)
      (isChild : getEntryPtr source prepared = some child)
      (isSource : (getEntryPtr source root).isSome) (differ : destination ≠ source)
      (outside : ¬ source.keys <+: destination.parentPath.elements)
      (notAbove : ¬ destination.keys <+: source.keys) :
      Moves nextNode source destination root
        (.moved (KeyedTree.modify follow
          (putChild destination.filename (mapInfo child (·.rename destination.filename)))
          destination.parentPath.elements
          (KeyedTree.modify follow (detachChild source.filename) source.parentPath.elements
            prepared)))

theorem moves_moveFlat (tree : IsTree root) (nextNode : Nat) (source destination : FsPath) :
    Moves nextNode source destination root (moveFlat nextNode source destination root) := by
  rw [moveFlat]
  split
  · rename_i noEntry
    exact .missing (Option.isNone_iff_eq_none.mp noEntry)
  rename_i isEntry
  have isSource : (getEntryPtr source root).isSome := by
    rw [Option.isSome_iff_ne_none]
    exact fun none => isEntry (Option.isNone_iff_eq_none.mpr none)
  split
  · rename_i same
    exact .same isSource same
  rename_i differ
  split
  · rename_i blocked
    exact .noParent isSource differ blocked
  rename_i prepared isPrepared
  obtain ⟨entry, isEntry⟩ := Option.isSome_iff_exists.mp isSource
  obtain ⟨child, isThere⟩ := find?_prepareParent tree.isFolder isPrepared
    (find?_of_getEntryPtr isEntry)
  have isChild := getEntryPtr_of_find? (tree.prepareParent isPrepared).wellFormed isThere
  rw [isChild]
  simp only [moveChild]
  split
  · rename_i inside
    split
    · rename_i lost
      exact .intoItself isPrepared isChild isSource differ inside lost
    · rename_i loops
      exact .looping isPrepared isChild isSource differ inside loops
  · rename_i outside
    split
    · rename_i above
      exact .overAncestor isSource differ (Option.isSome_of_eq_some isPrepared) outside above
    · rename_i notAbove
      exact .elsewhere isPrepared isChild isSource differ outside notAbove

theorem observe_moved {β : Type*} {obs : EntryInfo → β} (hides : HidesStatistics obs)
    (hidesName : ∀ info name, obs (EntryInfo.rename info name) = obs info)
    {source destination : FsPath} {child : FsEntry} (tree : IsTree root)
    (isChild : getEntryPtr source root = some child)
    (parent : (getFolderPtr destination.parentPath.elements root).isSome)
    (outside : ¬ source.keys <+: destination.parentPath.elements) (names : List String) :
    observe obs names (KeyedTree.modify follow
        (putChild destination.filename (mapInfo child (·.rename destination.filename)))
        destination.parentPath.elements
        (KeyedTree.modify follow (detachChild source.filename) source.parentPath.elements root)) =
      if destination.keys <+: names then observe obs (names.drop destination.keys.length) child
      else if source.keys <+: names then none else observe obs names root := by
  obtain ⟨folder, isFolder, _⟩ := getFolderPtr_detach tree isChild parent outside
  have length : destination.keys.length = destination.parentPath.elements.length + 1 := by
    rw [FsPath.keys, List.length_append, List.length_singleton]
  rw [observe_put hides isFolder, observe_detach hides isChild, length,
    observe_mapInfo fun info => hidesName info _]
  rfl

theorem fileAt_moved {source destination : FsPath} {child : FsEntry} (tree : IsTree root)
    (isChild : getEntryPtr source root = some child)
    (parent : (getFolderPtr destination.parentPath.elements root).isSome)
    (outside : ¬ source.keys <+: destination.parentPath.elements) (names : List String) :
    fileAt names (KeyedTree.modify follow
        (putChild destination.filename (mapInfo child (·.rename destination.filename)))
        destination.parentPath.elements
        (KeyedTree.modify follow (detachChild source.filename) source.parentPath.elements root)) =
      if destination.keys <+: names then fileAt (names.drop destination.keys.length) child
      else if source.keys <+: names then none else fileAt names root := by
  rw [fileAt_eq_observe, observe_moved hidesStatistics_fileHash?
    (fun _ _ => EntryInfo.fileHash?_rename _) tree isChild parent outside, fileAt_eq_observe,
    fileAt_eq_observe]
  split
  · rfl
  · split <;> rfl

end FsEntry

theorem FsEntryTree.moves_moveFlat (tree : FsEntryTree) (nextNode : Nat)
    (source destination : FsPath) :
    (tree.moveFlat nextNode source destination = .failed ∧
        FsEntry.Moves nextNode source destination tree.1 .failed) ∨
      (tree.moveFlat nextNode source destination = .undefined ∧
        FsEntry.Moves nextNode source destination tree.1 .undefined) ∨
      ∃ moved : FsEntryTree, tree.moveFlat nextNode source destination = .moved moved ∧
        FsEntry.Moves nextNode source destination tree.1 (.moved moved.1) := by
  have moves := FsEntry.moves_moveFlat tree.2 nextNode source destination
  rw [FsEntryTree.moveFlat]
  split
  · rename_i isMoved
    rw [isMoved] at moves
    left
    exact ⟨rfl, moves⟩
  · rename_i root isMoved
    rw [isMoved] at moves
    right
    right
    exact ⟨_, rfl, moves⟩
  · rename_i isMoved
    rw [isMoved] at moves
    right
    left
    exact ⟨rfl, moves⟩

end SiriusDrive
