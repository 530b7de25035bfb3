import SiriusDrive.FsTree.Files
import SiriusDrive.Lib.AddressMap

/-! # The contents of an fs tree

What is written to a file of an fs tree: all of it but the statistics. Each
operation is told by what it does to the contents.
-/

namespace SiriusDrive

open KeyedTree

def EntryInfo.content (info : EntryInfo) : EntryInfo := info.setStatistics { node := 0 }

namespace EntryInfo

variable {info : EntryInfo}

@[simp] theorem isFolder_content : info.content.isFolder = info.isFolder :=
  isFolder_setStatistics _

theorem content_rename (name : String) : (info.rename name).content = info.content.rename name := by
  cases info <;> rfl

end EntryInfo

abbrev FsContents := AddressMap String EntryInfo

namespace FsContents

def newFolder (address : List String) : EntryInfo :=
  .folder (address.getLast?.getD "") { node := 0 }

/-- Folders are made where there is nothing. -/
def addFolders (contents : FsContents) (names : List String) : FsContents :=
  contents.fill names newFolder

/-- A file stands on the way to an address. -/
def PassesFile (contents : FsContents) (names : List String) : Prop :=
  contents.Stops names fun info => info.isFolder = false

/-- There is a folder at an address. -/
def NamesFolder (contents : FsContents) (names : List String) : Prop :=
  ∃ info, contents names = some info ∧ info.isFolder = true

/-- The entry at the source is taken away, and comes to the destination under its name. -/
def move (contents : FsContents) (source destination : FsPath) : FsContents :=
  ((contents.addFolders destination.parentPath.elements).remove source.keys).put
    ((contents.below source.keys).mapTop (·.rename destination.filename)) destination.keys

end FsContents

namespace FsEntry

variable {root folder entry : FsEntry}

def contents (root : FsEntry) : FsContents := fun names => observe EntryInfo.content names root

theorem hidesStatistics_content : HidesStatistics EntryInfo.content := by
  intro info statistics
  cases info <;> rfl

theorem contents_nil (root : FsEntry) : contents root [] = some root.value.content := rfl

theorem contents_cons (name : String) (names : List String) (root : FsEntry) :
    contents root (name :: names) =
      (childAt name root.childs).bind fun child => contents child names := observe_cons _ _ _

theorem contents_of_find? {names : List String} (isFound : find? names root = some entry) :
    contents root names = some entry.value.content := by
  rw [contents, observe, isFound, Option.map_some]

theorem contents_eq_none_iff {names : List String} :
    contents root names = none ↔ find? names root = none := Option.map_eq_none_iff

theorem below_contents {names : List String} (isFound : find? names root = some entry) :
    (contents root).below names = contents entry := by
  ext rest : 1
  exact observe_append isFound rest

theorem contents_mapInfo {f g : EntryInfo → EntryInfo}
    (commutes : ∀ info, (f info).content = g info.content) :
    contents (mapInfo entry f) = (contents entry).mapTop g := by
  ext names : 1
  cases names with
  | nil => exact congrArg some (commutes entry.value)
  | cons name names => rfl

theorem contents_keys (wellFormed : WellFormed root) (path : FsPath) :
    contents root path.keys = (getEntryPtr path root).map fun entry => entry.value.content := by
  cases isEntry : getEntryPtr path root with
  | some entry => exact contents_of_find? (find?_of_getEntryPtr isEntry)
  | none =>
      rw [Option.map_none, contents_eq_none_iff, Option.eq_none_iff_forall_ne_some]
      intro entry isFound
      have found := getEntryPtr_of_find? wellFormed isFound
      exact absurd (isEntry.symm.trans found) (by simp)

theorem isFolder_of_contents (wellFormed : WellFormed root) {names : List String} {name : String}
    {rest : List String} {info : EntryInfo}
    (isThere : contents root (names ++ name :: rest) = some info) :
    ∃ top, contents root names = some top ∧ top.isFolder = true := by
  obtain ⟨entry, isEntry, _⟩ := Option.map_eq_some_iff.mp isThere
  rw [find?_append] at isEntry
  obtain ⟨folder, isFolder, later⟩ := Option.bind_eq_some_iff.mp isEntry
  obtain ⟨child, isChild, _⟩ := Option.bind_eq_some_iff.mp later
  refine ⟨_, contents_of_find? isFolder, ?_⟩
  rw [EntryInfo.isFolder_content]
  obtain ⟨value, childs⟩ := folder
  exact WellFormed.isFolder_of_childAt (wellFormed.found isFolder) isChild

theorem remove_of_none {names : List String} (missing : contents root names = none) :
    (contents root).remove names = contents root := by
  ext address : 1
  by_cases below : names <+: address
  · obtain ⟨rest, rfl⟩ := below
    rw [AddressMap.remove, if_pos (List.prefix_append _ _), eq_comm, contents_eq_none_iff,
      find?_append, contents_eq_none_iff.mp missing, Option.bind_none]
  · exact AddressMap.remove_elsewhere below

/-! ## Creating folders -/

theorem contents_newFolders (nextNode : Nat) (name : String) (names address : List String) :
    contents (newFolders nextNode name names) address =
      if address <+: names then some (FsContents.newFolder (name :: address)) else none := by
  induction names generalizing nextNode name address with
  | nil =>
      cases address with
      | nil => rfl
      | cons first address => simp [newFolders, contents_cons, childAt]
  | cons next names ih =>
      cases address with
      | nil => rfl
      | cons first address =>
          rw [newFolders, contents_cons, childs_node, childAt]
          by_cases same : next = first
          · subst same
            rw [if_pos rfl, Option.bind_some, ih]
            simp only [List.cons_prefix_cons, true_and]
            rfl
          · have elsewhere : ¬ first :: address <+: next :: names := by
              rw [List.cons_prefix_cons]
              exact fun both => same both.1.symm
            rw [if_neg same, if_neg elsewhere]
            rfl

theorem contents_createFolders {nextNode : Nat} {names : List String}
    (created : createFolders nextNode names root = some folder) :
    contents folder = (contents root).addFolders names := by
  ext address : 1
  induction names generalizing root folder address with
  | nil =>
      cases created
      rw [FsContents.addFolders, AddressMap.fill]
      split
      · rename_i onWay
        rw [List.prefix_nil.mp onWay]
        rfl
      · rfl
  | cons name names ih =>
      obtain ⟨info, childs⟩ := root
      rw [createFolders] at created
      cases address with
      | nil =>
          rw [FsContents.addFolders, AddressMap.fill, if_pos List.nil_prefix, contents_nil,
            contents_nil]
          split at created
          · cases created
            rfl
          · split at created
            · obtain ⟨changed, isChanged, rfl⟩ := Option.map_eq_some_iff.mp created
              rfl
            · cases created
      | cons first address =>
          rw [FsContents.addFolders, AddressMap.fill, contents_cons, contents_cons, childs_node]
          simp only [List.cons_prefix_cons]
          split at created
          · rename_i absent
            cases created
            rw [childs_node, childAt_insertChild absent]
            by_cases same : first = name
            · subst same
              rw [if_pos rfl, absent, Option.bind_some, Option.bind_none, contents_newFolders]
              simp only [true_and, Option.getD_none]
            · simp only [same, false_and, if_false]
          · rename_i child isChild
            split at created
            · obtain ⟨changed, isChanged, rfl⟩ := Option.map_eq_some_iff.mp created
              rw [childs_node, childAt_replaceChild]
              by_cases same : first = name
              · subst same
                simp only [if_true, isChild, Option.map_some, Option.bind_some, true_and]
                rw [ih isChanged address, FsContents.addFolders, AddressMap.fill]
                -- a folder is there, and below it the last name is the same
                cases address with
                | nil => simp [contents_nil]
                | cons next address => rfl
              · simp only [same, false_and, if_false]
            · cases created

theorem createFolders_eq_none_iff {nextNode : Nat} {names : List String}
    (isRoot : isFolder root = true) :
    createFolders nextNode names root = none ↔ (contents root).PassesFile names := by
  have notHere : ∀ {root : FsEntry} {info : EntryInfo}, isFolder root = true →
      contents root [] = some info → info.isFolder = true := by
    intro root info kind isInfo
    rw [contents_nil] at isInfo
    cases isInfo
    exact EntryInfo.isFolder_content.trans kind
  induction names generalizing root with
  | nil =>
      rw [createFolders]
      constructor
      · intro never
        cases never
      · rintro ⟨front, info, onWay, isInfo, isFile⟩
        rw [List.prefix_nil.mp onWay] at isInfo
        rw [notHere isRoot isInfo] at isFile
        cases isFile
  | cons name names ih =>
      obtain ⟨top, childs⟩ := root
      rw [createFolders]
      split
      · rename_i absent
        constructor
        · intro never
          cases never
        · rintro ⟨front, info, onWay, isInfo, isFile⟩
          cases front with
          | nil =>
              rw [notHere isRoot isInfo] at isFile
              cases isFile
          | cons first front =>
              rw [(List.cons_prefix_cons.mp onWay).1, contents_cons, childs_node, absent] at isInfo
              cases isInfo
      · rename_i child isChild
        have inner : ∀ front,
            contents (.node top childs) (name :: front) = contents child front := by
          intro front
          rw [contents_cons, childs_node, isChild, Option.bind_some]
        split
        · rename_i kind
          refine Option.map_eq_none_iff.trans ((ih kind).trans ?_)
          constructor
          · rintro ⟨front, info, onWay, isInfo, isFile⟩
            exact ⟨name :: front, info, List.cons_prefix_cons.mpr ⟨rfl, onWay⟩,
              (inner front).trans isInfo, isFile⟩
          · rintro ⟨front, info, onWay, isInfo, isFile⟩
            cases front with
            | nil =>
                rw [notHere isRoot isInfo] at isFile
                cases isFile
            | cons first front =>
                obtain ⟨rfl, later⟩ := List.cons_prefix_cons.mp onWay
                exact ⟨front, info, later, (inner front).symm.trans isInfo, isFile⟩
        · rename_i notFolder
          refine iff_of_true rfl ⟨[name], child.value.content, ?_, ?_, ?_⟩
          · exact List.cons_prefix_cons.mpr ⟨rfl, List.nil_prefix⟩
          · exact inner []
          · exact EntryInfo.isFolder_content.trans (Bool.eq_false_iff.mpr notFolder)

theorem contents_addFolder {nextNode : Nat} {path : FsPath} (isRoot : isFolder root = true)
    (added : addFolder nextNode path root = some folder) :
    contents folder = (contents root).addFolders path.elements := by
  obtain ⟨created, isCreated, rfl⟩ := Option.map_eq_some_iff.mp added
  rw [← contents_createFolders isCreated]
  split
  · rfl
  · obtain ⟨parent, isParent⟩ := find?_parent_of_createFolders isRoot isCreated
    ext names : 1
    exact observe_link hidesStatistics_content isParent names

theorem addFolder_eq_none_iff {nextNode : Nat} {path : FsPath} (isRoot : isFolder root = true) :
    addFolder nextNode path root = none ↔ (contents root).PassesFile path.elements := by
  rw [addFolder, Option.map_eq_none_iff, createFolders_eq_none_iff isRoot]

/-! ## Files -/

theorem contents_set {parent : List String} {name : String} {child : FsEntry}
    (isFound : find? parent root = some folder) :
    contents (KeyedTree.modify (fun info _ _ => info) (setChild name child) parent root) =
      (contents root).put (contents child) (parent ++ [name]) := by
  have length : (parent ++ [name]).length = parent.length + 1 := by
    rw [List.length_append, List.length_singleton]
  ext names : 1
  rw [contents, observe_set isFound, AddressMap.put, length]
  rfl

theorem contents_addFile {nextNode : Nat} {destination : FsPath} {filename : String}
    {fileHash : InfoHash} {size : Nat} (isRoot : isFolder root = true)
    (added : addFile nextNode destination filename fileHash size root = some folder) :
    contents folder = ((contents root).addFolders destination.elements).put
      (.leaf (.file ⟨filename, fileHash, size⟩ false { node := 0 }))
      (destination.elements ++ [filename]) := by
  obtain ⟨created, isCreated, rfl⟩ := Option.map_eq_some_iff.mp added
  obtain ⟨found, isFound, _⟩ := getFolderPtr_createFolders isRoot isCreated
  rw [contents_set (find?_of_getFolderPtr isFound), contents_createFolders isCreated]
  congr 1
  ext names : 1
  cases names <;> rfl

theorem contents_put {parent : List String} {name : String} {child : FsEntry}
    (isFound : find? parent root = some folder) :
    contents (KeyedTree.modify follow (putChild name child) parent root) =
      (contents root).put (contents child) (parent ++ [name]) := by
  have length : (parent ++ [name]).length = parent.length + 1 := by
    rw [List.length_append, List.length_singleton]
  ext names : 1
  rw [contents, observe_put hidesStatistics_content isFound, AddressMap.put, length]
  rfl

theorem contents_addModifiableFile {nextNode : Nat} {destination : FsPath} {filename : String}
    {temporaryHash : InfoHash} (isRoot : isFolder root = true)
    (added : addModifiableFile nextNode destination filename temporaryHash root = some folder) :
    contents folder = ((contents root).addFolders destination.elements).put
      (.leaf (.file ⟨filename, temporaryHash, 0⟩ true { node := 0 }))
      (destination.elements ++ [filename]) := by
  obtain ⟨created, isCreated, rfl⟩ := Option.map_eq_some_iff.mp added
  obtain ⟨found, isFound, _⟩ := getFolderPtr_createFolders isRoot isCreated
  rw [contents_put (find?_of_getFolderPtr isFound), contents_createFolders isCreated]
  congr 1
  ext names : 1
  cases names <;> rfl

theorem addModifiableFile_eq_none_iff {nextNode : Nat} {destination : FsPath} {filename : String}
    {temporaryHash : InfoHash} (isRoot : isFolder root = true) :
    addModifiableFile nextNode destination filename temporaryHash root = none ↔
      (contents root).PassesFile destination.elements := by
  rw [addModifiableFile, Option.map_eq_none_iff, createFolders_eq_none_iff isRoot]

theorem addFile_eq_none_iff {nextNode : Nat} {destination : FsPath} {filename : String}
    {fileHash : InfoHash} {size : Nat} (isRoot : isFolder root = true) :
    addFile nextNode destination filename fileHash size root = none ↔
      (contents root).PassesFile destination.elements := by
  rw [addFile, Option.map_eq_none_iff, createFolders_eq_none_iff isRoot]

/-! ## Removing and moving -/

theorem contents_removeFlat {path : FsPath} (removed : removeFlat path root = some folder) :
    contents folder = (contents root).remove path.keys := by
  obtain ⟨entry, isEntry, rfl⟩ := Option.map_eq_some_iff.mp removed
  ext names : 1
  exact observe_detach hidesStatistics_content isEntry names

theorem contents_prepareParent {nextNode : Nat} {path : FsPath} (isRoot : isFolder root = true)
    (prepared : prepareParent nextNode path root = some folder) :
    contents folder = (contents root).addFolders path.parentPath.elements := by
  rw [prepareParent] at prepared
  split at prepared
  · rename_i isThere
    cases prepared
    obtain ⟨parent, isParent⟩ := Option.isSome_iff_exists.mp isThere
    refine (AddressMap.fill_eq_self ?_).symm
    rintro front ⟨rest, isPath⟩
    rw [← isPath, getFolderPtr_append] at isParent
    obtain ⟨above, isAbove, _⟩ := Option.bind_eq_some_iff.mp isParent
    rw [contents_of_find? (find?_of_getFolderPtr isAbove)]
    rfl
  · exact contents_addFolder isRoot prepared

theorem not_passesFile_of_getFolderPtr {names : List String} (isRoot : isFolder root = true)
    (isFound : getFolderPtr names root = some folder) : ¬ (contents root).PassesFile names := by
  rintro ⟨front, info, ⟨rest, isPath⟩, isInfo, isFile⟩
  rw [← isPath, getFolderPtr_append] at isFound
  obtain ⟨above, isAbove, _⟩ := Option.bind_eq_some_iff.mp isFound
  rw [contents_of_find? (find?_of_getFolderPtr isAbove)] at isInfo
  cases isInfo
  have kind : above.value.isFolder = true := isFolder_of_getFolderPtr isAbove isRoot
  rw [EntryInfo.isFolder_content, kind] at isFile
  cases isFile

theorem prepareParent_eq_none_iff {nextNode : Nat} {path : FsPath} (tree : IsTree root) :
    prepareParent nextNode path root = none ↔
      (contents root).PassesFile path.parentPath.elements := by
  rw [prepareParent]
  split
  · rename_i isThere
    obtain ⟨parent, isParent⟩ := Option.isSome_iff_exists.mp isThere
    exact iff_of_false (by simp) (not_passesFile_of_getFolderPtr tree.isFolder isParent)
  · exact addFolder_eq_none_iff tree.isFolder

theorem contents_moved {nextNode : Nat} {source destination : FsPath} {prepared child : FsEntry}
    (tree : IsTree root) (isPrepared : prepareParent nextNode destination root = some prepared)
    (isChild : getEntryPtr source prepared = some child)
    (isSource : (getEntryPtr source root).isSome)
    (outside : ¬ source.keys <+: destination.parentPath.elements) :
    contents (KeyedTree.modify follow
        (putChild destination.filename (mapInfo child (·.rename destination.filename)))
        destination.parentPath.elements
        (KeyedTree.modify follow (detachChild source.filename) source.parentPath.elements
          prepared)) = (contents root).move source destination := by
  have proper := tree.prepareParent isPrepared
  have made := contents_prepareParent tree.isFolder isPrepared
  obtain ⟨entry, isEntry⟩ := Option.isSome_iff_exists.mp isSource
  -- what is below the source has not been made with the parent
  have same : (contents root).below source.keys = contents child := by
    rw [← below_contents (find?_of_getEntryPtr isChild), made]
    ext rest : 1
    rw [AddressMap.below, AddressMap.below, FsContents.addFolders, AddressMap.fill, if_neg]
    intro onWay
    exact outside ((List.prefix_append _ _).trans onWay)
  obtain ⟨folder, isFolder, _⟩ := getFolderPtr_detach proper isChild
    (getFolderPtr_prepareParent tree isPrepared) outside
  have length : destination.keys.length = destination.parentPath.elements.length + 1 := by
    rw [FsPath.keys, List.length_append, List.length_singleton]
  ext names : 1
  rw [contents, observe_put hidesStatistics_content isFolder,
    observe_detach hidesStatistics_content isChild, FsContents.move, ← made, same,
    ← contents_mapInfo fun _ => EntryInfo.content_rename _, AddressMap.put, length]
  rfl

end FsEntry

/-! ## Trees -/

namespace FsEntryTree

variable {tree changed : FsEntryTree} {nextNode : Nat}

theorem contents_addFile {destination : FsPath} {filename : String} {fileHash : InfoHash}
    {size : Nat}
    (added : tree.addFile nextNode destination filename fileHash size = some changed) :
    changed.1.contents = (tree.1.contents.addFolders destination.elements).put
      (.leaf (.file ⟨filename, fileHash, size⟩ false { node := 0 }))
      (destination.elements ++ [filename]) :=
  FsEntry.contents_addFile tree.2.isFolder (some_of_attachWith added)

theorem addFile_eq_none_iff {destination : FsPath} {filename : String} {fileHash : InfoHash}
    {size : Nat} : tree.addFile nextNode destination filename fileHash size = none ↔
      tree.1.contents.PassesFile destination.elements := by
  rw [addFile, Option.attachWith_eq_none_iff, FsEntry.addFile_eq_none_iff tree.2.isFolder]

theorem contents_addModifiableFile {destination : FsPath} {filename : String}
    {temporaryHash : InfoHash}
    (added : tree.addModifiableFile nextNode destination filename temporaryHash = some changed) :
    changed.1.contents = (tree.1.contents.addFolders destination.elements).put
      (.leaf (.file ⟨filename, temporaryHash, 0⟩ true { node := 0 }))
      (destination.elements ++ [filename]) :=
  FsEntry.contents_addModifiableFile tree.2.isFolder (some_of_attachWith added)

theorem addModifiableFile_eq_none_iff {destination : FsPath} {filename : String}
    {temporaryHash : InfoHash} :
    tree.addModifiableFile nextNode destination filename temporaryHash = none ↔
      tree.1.contents.PassesFile destination.elements := by
  rw [addModifiableFile, Option.attachWith_eq_none_iff,
    FsEntry.addModifiableFile_eq_none_iff tree.2.isFolder]

theorem contents_addFolder {path : FsPath} (added : tree.addFolder nextNode path = some changed) :
    changed.1.contents = tree.1.contents.addFolders path.elements :=
  FsEntry.contents_addFolder tree.2.isFolder (some_of_attachWith added)

theorem addFolder_eq_none_iff {path : FsPath} :
    tree.addFolder nextNode path = none ↔ tree.1.contents.PassesFile path.elements := by
  rw [addFolder, Option.attachWith_eq_none_iff, FsEntry.addFolder_eq_none_iff tree.2.isFolder]

theorem contents_removeFlat {path : FsPath} (removed : tree.removeFlat path = some changed) :
    changed.1.contents = tree.1.contents.remove path.keys :=
  FsEntry.contents_removeFlat (some_of_attachWith removed)

theorem removeFlat_eq_none_iff {path : FsPath} :
    tree.removeFlat path = none ↔ FsEntry.getEntryPtr path tree.1 = none := by
  rw [removeFlat, Option.attachWith_eq_none_iff, FsEntry.removeFlat, Option.map_eq_none_iff]

end FsEntryTree

end SiriusDrive
