import SiriusDrive.FsTree.Contents
import SiriusDrive.FsTree.Files

/-! # Changing a tree in place

The operations that add to a tree, as they are carried out: `getFolderPtr` creates the folders it
misses one after the other, and a file on its way makes it give up. Nothing is left behind then,
because there are no files in a folder that has just been created.
-/

namespace SiriusDrive

open KeyedTree

namespace FsEntry

namespace InPlace

/-! ## The code -/

/-- `getFolderPtr`: whether the walk comes to its end, and the tree afterwards. -/
def getFolderPtr (createIfNotExist : Bool) (nextNode : Nat) : List String → FsEntry → Bool × FsEntry
  | [], treeWalker => (true, treeWalker)
  | name :: names, .node info childs =>
      match childAt name childs with
      | none =>
          if createIfNotExist then
            let created := getFolderPtr createIfNotExist (nextNode + 1) names
              (.node (.folder name { node := nextNode }) [])
            (created.1, .node info (insertChild name created.2 childs))
          else (false, .node info childs)
      | some child =>
          if isFolder child then
            let walked := getFolderPtr createIfNotExist nextNode names child
            (walked.1, .node info (replaceChild name walked.2 childs))
          else (false, .node info childs)

variable (nextNode : Nat) (destination : FsPath) (filename : String)

/-- `addFile`. -/
def addFile (fileHash : InfoHash) (size : Nat) (root : FsEntry) : Bool × FsEntry :=
  let walked := getFolderPtr true nextNode destination.elements root
  if walked.1 then
    (true, modify (fun info _ _ => info)
      (setChild filename
        (.node (.file ⟨filename, fileHash, size⟩ false
          { node := nextNode + destination.elements.length }) []))
      destination.elements walked.2)
  else (false, walked.2)

/-- `addModifiableFile`. -/
def addModifiableFile (temporaryHash : InfoHash) (root : FsEntry) : Option InfoHash × FsEntry :=
  let walked := getFolderPtr true nextNode destination.elements root
  if walked.1 then
    (some temporaryHash, modify follow
      (putChild filename
        (.node (.file ⟨filename, temporaryHash, 0⟩ true
          { node := nextNode + destination.elements.length }) []))
      destination.elements walked.2)
  else (none, walked.2)

/-- `addFolder`. -/
def addFolder (path : FsPath) (root : FsEntry) : Bool × FsEntry :=
  let walked := getFolderPtr true nextNode path.elements root
  if walked.1 then
    (true, if path.parentPath = path then walked.2
      else modify follow (linkChild path.filename) path.parentPath.elements walked.2)
  else (false, walked.2)

/-! ## The walk -/

variable {nextNode} {names : List String} {root folder : FsEntry}

theorem getFolderPtr_new (nextNode : Nat) (name : String) (names : List String) :
    getFolderPtr true (nextNode + 1) names (.node (.folder name { node := nextNode }) []) =
      (true, newFolders nextNode name names) := by
  induction names generalizing nextNode name with
  | nil => rfl
  | cons next names ih =>
      simp only [getFolderPtr, childAt, if_true, ih]
      rfl

theorem getFolderPtr_of_created (created : createFolders nextNode names root = some folder) :
    getFolderPtr true nextNode names root = (true, folder) := by
  induction names generalizing root folder with
  | nil =>
      cases created
      rfl
  | cons name names ih =>
      obtain ⟨info, childs⟩ := root
      rw [createFolders] at created
      rw [getFolderPtr]
      cases isChild : childAt name childs with
      | none =>
          rw [isChild] at created
          cases created
          simp only [if_true, getFolderPtr_new]
      | some child =>
          rw [isChild] at created
          dsimp only at created ⊢
          split at created
          · rename_i kind
            obtain ⟨changed, isChanged, rfl⟩ := Option.map_eq_some_iff.mp created
            rw [if_pos kind, ih isChanged]
          · cases created

theorem getFolderPtr_of_not_created (wellFormed : WellFormed root)
    (failed : createFolders nextNode names root = none) :
    getFolderPtr true nextNode names root = (false, root) := by
  induction names generalizing root with
  | nil => cases failed
  | cons name names ih =>
      obtain ⟨info, childs⟩ := root
      have parts := all_node.mp wellFormed
      rw [createFolders] at failed
      rw [getFolderPtr]
      cases isChild : childAt name childs with
      | none =>
          rw [isChild] at failed
          cases failed
      | some child =>
          rw [isChild] at failed
          dsimp only at failed ⊢
          split at failed
          · rename_i kind
            have inner := ih (parts.2 name child (mem_of_childAt isChild))
              (Option.map_eq_none_iff.mp failed)
            have same : replaceChild name child childs = childs :=
              replaceChild_self parts.1.1 isChild
            rw [if_pos kind, inner, same]
          · rename_i notFolder
            rw [if_neg notFolder]

/-! ## The operations agree -/

/-- The walk does what `createFolders` does. -/
theorem getFolderPtr_eq (wellFormed : WellFormed root) (nextNode : Nat) (names : List String) :
    getFolderPtr true nextNode names root =
      ((createFolders nextNode names root).isSome,
        (createFolders nextNode names root).getD root) := by
  cases isCreated : createFolders nextNode names root with
  | some created => exact getFolderPtr_of_created isCreated
  | none => exact getFolderPtr_of_not_created wellFormed isCreated

variable (nextNode) {destination} {filename}

theorem addFile_eq (wellFormed : WellFormed root) (fileHash : InfoHash) (size : Nat) :
    addFile nextNode destination filename fileHash size root =
      ((FsEntry.addFile nextNode destination filename fileHash size root).isSome,
        (FsEntry.addFile nextNode destination filename fileHash size root).getD root) := by
  rw [addFile, FsEntry.addFile, getFolderPtr_eq wellFormed]
  cases createFolders nextNode destination.elements root <;> rfl

theorem addModifiableFile_eq (wellFormed : WellFormed root) (temporaryHash : InfoHash) :
    addModifiableFile nextNode destination filename temporaryHash root =
      ((FsEntry.addModifiableFile nextNode destination filename temporaryHash root).map
          fun _ => temporaryHash,
        (FsEntry.addModifiableFile nextNode destination filename temporaryHash root).getD
          root) := by
  rw [addModifiableFile, FsEntry.addModifiableFile, getFolderPtr_eq wellFormed]
  cases createFolders nextNode destination.elements root <;> rfl

theorem addFolder_eq (wellFormed : WellFormed root) (path : FsPath) :
    addFolder nextNode path root =
      ((FsEntry.addFolder nextNode path root).isSome,
        (FsEntry.addFolder nextNode path root).getD root) := by
  rw [addFolder, FsEntry.addFolder, getFolderPtr_eq wellFormed]
  cases createFolders nextNode path.elements root <;> rfl

/-! ## The operations are atomic -/

/-- A change fails if and only if a file is on its way, and leaves the tree as it was then. One
    that succeeds does to the contents what it has to, and leaves all entries as they were but
    those that are replaced. `obs` is what is seen of an entry. -/
structure IsAtomic (obs : EntryInfo → EntryInfo) (onWay : List String)
    (change : FsContents → FsContents) (replaced : List (List String)) (root : FsEntry)
    (result : Bool × FsEntry) : Prop where
  fails : result.1 = false ↔ (contents root).PassesFile onWay
  unchanged : result.1 = false → result.2 = root
  changed : result.1 = true → contents result.2 = change (contents root)
  kept : result.1 = true → ∀ address info, (∀ path ∈ replaced, ¬ path <+: address) →
    observe obs address root = some info → observe obs address result.2 = some info

theorem isAtomic_of_option {obs : EntryInfo → EntryInfo} {onWay : List String}
    {change : FsContents → FsContents} {replaced : List (List String)} {option : Option FsEntry}
    (fails : option = none ↔ (contents root).PassesFile onWay)
    (changed : ∀ folder, option = some folder → contents folder = change (contents root))
    (kept : ∀ folder, option = some folder → ∀ address info,
      (∀ path ∈ replaced, ¬ path <+: address) →
      observe obs address root = some info → observe obs address folder = some info) :
    IsAtomic obs onWay change replaced root (option.isSome, option.getD root) := by
  cases option with
  | none =>
      exact ⟨⟨fun _ => fails.mp rfl, fun _ => rfl⟩, fun _ => rfl,
        fun never => absurd never Bool.false_ne_true, fun never => absurd never Bool.false_ne_true⟩
  | some folder =>
      refine ⟨⟨fun never => absurd never.symm Bool.false_ne_true, ?_⟩,
        fun never => absurd never.symm Bool.false_ne_true, fun _ => changed folder rfl,
        fun _ => kept folder rfl⟩
      intro passes
      cases fails.mpr passes

theorem observe_created {obs : EntryInfo → EntryInfo} {address : List String} {info : EntryInfo}
    (created : createFolders nextNode names root = some folder)
    (isThere : observe obs address root = some info) : observe obs address folder = some info := by
  obtain ⟨entry, isFound, rfl⟩ := Option.map_eq_some_iff.mp isThere
  obtain ⟨found, isKept, same⟩ := value_createFolders created isFound
  rw [observe, isKept, Option.map_some, same]

variable (tree : FsEntryTree) (destination : FsPath) (filename : String)

theorem isAtomic_getFolderPtr (names : List String) :
    IsAtomic id names (·.addFolders names) [] tree.1
      (getFolderPtr true nextNode names tree.1) := by
  rw [getFolderPtr_eq tree.2.wellFormed]
  apply isAtomic_of_option (createFolders_eq_none_iff tree.2.isFolder)
  · exact fun folder created => contents_createFolders created
  · exact fun folder created address info _ isThere => observe_created nextNode created isThere

theorem isAtomic_addFile (fileHash : InfoHash) (size : Nat) :
    IsAtomic id destination.elements
      (fun contents => (contents.addFolders destination.elements).put
        (.leaf (.file ⟨filename, fileHash, size⟩ false { node := 0 }))
        (destination.elements ++ [filename]))
      [destination.elements ++ [filename]] tree.1
      (addFile nextNode destination filename fileHash size tree.1) := by
  rw [addFile_eq nextNode tree.2.wellFormed]
  apply isAtomic_of_option (addFile_eq_none_iff tree.2.isFolder)
  · exact fun folder added => contents_addFile tree.2.isFolder added
  · intro folder added address info elsewhere isThere
    obtain ⟨created, isCreated, rfl⟩ := Option.map_eq_some_iff.mp added
    obtain ⟨found, isFound, _⟩ := getFolderPtr_createFolders tree.2.isFolder isCreated
    rw [observe_set (find?_of_getFolderPtr isFound), if_neg (elsewhere _ (List.mem_singleton_self _))]
    exact observe_created nextNode isCreated isThere

theorem isAtomic_addModifiableFile (temporaryHash : InfoHash) :
    IsAtomic EntryInfo.content destination.elements
      (fun contents => (contents.addFolders destination.elements).put
        (.leaf (.file ⟨filename, temporaryHash, 0⟩ true { node := 0 }))
        (destination.elements ++ [filename]))
      [destination.elements ++ [filename]] tree.1
      ((addModifiableFile nextNode destination filename temporaryHash tree.1).1.isSome,
        (addModifiableFile nextNode destination filename temporaryHash tree.1).2) := by
  rw [addModifiableFile_eq nextNode tree.2.wellFormed, Option.isSome_map]
  apply isAtomic_of_option (addModifiableFile_eq_none_iff tree.2.isFolder)
  · exact fun folder added => contents_addModifiableFile tree.2.isFolder added
  · intro folder added address info elsewhere isThere
    obtain ⟨created, isCreated, rfl⟩ := Option.map_eq_some_iff.mp added
    obtain ⟨found, isFound, _⟩ := getFolderPtr_createFolders tree.2.isFolder isCreated
    rw [observe_put hidesStatistics_content (find?_of_getFolderPtr isFound),
      if_neg (elsewhere _ (List.mem_singleton_self _))]
    exact observe_created nextNode isCreated isThere

theorem isAtomic_addFolder (path : FsPath) :
    IsAtomic EntryInfo.content path.elements (·.addFolders path.elements) [] tree.1
      (addFolder nextNode path tree.1) := by
  rw [addFolder_eq nextNode tree.2.wellFormed]
  apply isAtomic_of_option (addFolder_eq_none_iff tree.2.isFolder)
  · exact fun folder added => contents_addFolder tree.2.isFolder added
  · intro folder added address info _ isThere
    have same : observe EntryInfo.content address folder =
        (contents tree.1).addFolders path.elements address :=
      congrFun (contents_addFolder tree.2.isFolder added) address
    have isInfo : contents tree.1 address = some info := isThere
    rw [same, FsContents.addFolders, AddressMap.fill]
    simp [isInfo]

/-- The operations that add to a tree are atomic. What is seen of an entry that is left alone is
    all of it where no node is linked, and else all but its counters. -/
theorem operations_isAtomic (tree : FsEntryTree) (nextNode : Nat) (path : FsPath)
    (filename : String) (hash : InfoHash) (size : Nat) :
    IsAtomic id path.elements (·.addFolders path.elements) [] tree.1
        (getFolderPtr true nextNode path.elements tree.1) ∧
      IsAtomic id path.elements
        (fun contents => (contents.addFolders path.elements).put
          (.leaf (.file ⟨filename, hash, size⟩ false { node := 0 })) (path.elements ++ [filename]))
        [path.elements ++ [filename]] tree.1
        (addFile nextNode path filename hash size tree.1) ∧
      IsAtomic EntryInfo.content path.elements
        (fun contents => (contents.addFolders path.elements).put
          (.leaf (.file ⟨filename, hash, 0⟩ true { node := 0 })) (path.elements ++ [filename]))
        [path.elements ++ [filename]] tree.1
        ((addModifiableFile nextNode path filename hash tree.1).1.isSome,
          (addModifiableFile nextNode path filename hash tree.1).2) ∧
      IsAtomic EntryInfo.content path.elements (·.addFolders path.elements) [] tree.1
        (addFolder nextNode path tree.1) :=
  ⟨isAtomic_getFolderPtr nextNode tree path.elements,
    isAtomic_addFile nextNode tree path filename hash size,
    isAtomic_addModifiableFile nextNode tree path filename hash,
    isAtomic_addFolder nextNode tree path⟩

end InPlace

end FsEntry

end SiriusDrive
