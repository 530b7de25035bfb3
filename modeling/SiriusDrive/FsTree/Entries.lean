import Mathlib.Algebra.Order.Ring.Nat
import SiriusDrive.FsTree
import SiriusDrive.Lib.KeyedTree

/-! # The entries of an fs tree

`FsTree` as its own operations see it: files and folders under their names, each
with the node that counts the open streams and iterators below it.
-/

namespace SiriusDrive

/-! ## Paths -/

/-- `fs::path`, as the list an iteration over it gives. Only a path that ends with a separator
    has an empty element. -/
structure FsPath where
  elements : List String
  noEmptyInside : "" ∉ elements.dropLast
  notOnlyEmpty : elements ≠ [""]
  notEmptyInRoot : elements ≠ ["/", ""]
  deriving DecidableEq

namespace FsPath

variable (path : FsPath)

/-- The root directory is its own parent. -/
def parentPath : FsPath :=
  if path.elements = ["/"] then path
  else
    { elements := path.elements.dropLast
      noEmptyInside := fun member => path.noEmptyInside (List.dropLast_subset _ member)
      notOnlyEmpty := fun same => path.noEmptyInside (by simp [same])
      notEmptyInRoot := fun same => path.noEmptyInside (by simp [same]) }

/-- The root directory has an empty filename. -/
def filename : String :=
  if path.elements = ["/"] then "" else path.elements.getLast?.getD ""

/-- The keys under which the entry of a path is found. -/
def keys : List String := path.parentPath.elements ++ [path.filename]

def single (name : String) (notEmpty : name ≠ "") : FsPath where
  elements := [name]
  noEmptyInside := List.not_mem_nil
  notOnlyEmpty same := notEmpty (List.cons.inj same).1
  notEmptyInRoot := by simp

/-- The parts of a string between separators. -/
def names (str : String) : List String :=
  ((str.toList.splitOn '/').map String.ofList).filter (· ≠ "")

/-- The elements of the path a string spells. Separators in front are the root directory, and one
    at the end stands before an empty element. -/
def spelled (str : String) : List String :=
  (if str.toList.head? = some '/' then ["/"] else []) ++ names str ++
    (if names str ≠ [] ∧ str.toList.getLast? = some '/' then [""] else [])

/-- The parts between separators are parts of the whole without separators in them. -/
theorem part_of_mem_splitOn {separator : Char} {chars part : List Char}
    (member : part ∈ chars.splitOn separator) : separator ∉ part ∧ part.Sublist chars := by
  induction chars generalizing part with
  | nil =>
      rw [List.splitOn_nil, List.mem_singleton] at member
      rw [member]
      exact ⟨List.not_mem_nil, List.Sublist.refl []⟩
  | cons char chars ih =>
      rw [List.splitOn_cons_eq_if_modifyHead] at member
      split at member
      · rcases List.mem_cons.mp member with rfl | later
        · exact ⟨List.not_mem_nil, List.nil_sublist _⟩
        · exact ⟨(ih later).1, (ih later).2.cons char⟩
      · rename_i other
        cases isSplit : chars.splitOn separator with
        | nil => exact absurd isSplit (List.splitOn_ne_nil _ _)
        | cons first rest =>
            rw [isSplit] at member ih
            rcases List.mem_cons.mp member with rfl | later
            · have isFirst := ih List.mem_cons_self
              rw [List.mem_cons, not_or]
              refine ⟨⟨?_, isFirst.1⟩, isFirst.2.cons_cons char⟩
              rintro rfl
              exact other (beq_self_eq_true separator)
            · have isPart := ih (List.mem_cons_of_mem _ later)
              exact ⟨isPart.1, isPart.2.cons char⟩

theorem mem_names {str name : String} (member : name ∈ names str) : name ≠ "" ∧ name ≠ "/" := by
  obtain ⟨isPart, notEmpty⟩ := List.mem_filter.mp member
  obtain ⟨part, isSplit, rfl⟩ := List.mem_map.mp isPart
  refine ⟨of_decide_eq_true notEmpty, ?_⟩
  intro same
  apply (part_of_mem_splitOn isSplit).1
  rw [← String.toList_ofList (l := part), same]
  decide

def parse (str : String) : FsPath where
  elements := spelled str
  noEmptyInside := by
    have front : "" ∉ (if str.toList.head? = some '/' then ["/"] else []) ++ names str := by
      rw [List.mem_append, not_or]
      refine ⟨?_, fun member => (mem_names member).1 rfl⟩
      split <;> simp
    rw [spelled]
    by_cases ends : names str ≠ [] ∧ str.toList.getLast? = some '/'
    · rw [if_pos ends, List.dropLast_concat]
      exact front
    · rw [if_neg ends, List.append_nil]
      exact fun member => front (List.dropLast_subset _ member)
  notOnlyEmpty := by
    intro same
    rw [spelled] at same
    cases isName : names str with
    | nil => split at same <;> simp [isName] at same
    | cons first rest =>
        have notEmpty : first ≠ "" := (mem_names (isName ▸ List.mem_cons_self)).1
        split at same <;> simp [isName, notEmpty] at same
  notEmptyInRoot := by
    intro same
    rw [spelled] at same
    cases isName : names str with
    | nil => split at same <;> simp [isName] at same
    | cons first rest =>
        have isPart := mem_names (isName ▸ List.mem_cons_self : first ∈ names str)
        split at same <;> simp [isName, isPart.1, isPart.2] at same

/-- Separators that follow each other count once, and one at the end stands for an empty name. -/
example : (parse "/a//b/").elements = ["/", "a", "b", ""] := by decide +kernel

variable {path}

theorem elements_parentPath (notRoot : path.elements ≠ ["/"]) :
    path.parentPath.elements = path.elements.dropLast := by
  rw [parentPath, if_neg notRoot]

theorem parentPath_prefix (path : FsPath) : path.parentPath.elements <+: path.elements := by
  by_cases isRoot : path.elements = ["/"]
  · exact ⟨[], by rw [List.append_nil, parentPath, if_pos isRoot]⟩
  · rw [elements_parentPath isRoot]
    exact List.dropLast_prefix _

theorem keys_eq_elements (notRoot : path.elements ≠ ["/"]) (notEmpty : path.elements ≠ []) :
    path.keys = path.elements := by
  rw [keys, elements_parentPath notRoot, filename, if_neg notRoot,
    List.getLast?_eq_some_getLast notEmpty, Option.getD_some]
  exact List.dropLast_append_getLast notEmpty

end FsPath

/-! ## Entries -/

/-- `FolderStatisticsNode` and `FileStatisticsNode`. `m_parent` is the node of the enclosing
    folder if the node is linked. -/
structure FsEntryStatistics where
  /-- The identity of the node. -/
  node : Nat
  blocks : Nat := 0
  /-- `m_childrenBlocks`; files have none. -/
  childrenBlocks : Nat := 0
  isLinked : Bool := false
  deriving Repr, DecidableEq

/-- A file or a folder without its children. -/
inductive EntryInfo where
  /-- `streamId` is there if the folder `m_isaStream`. -/
  | folder (name : String) (statistics : FsEntryStatistics) (streamId : Option Hash256 := none)
  | file (file : File) (isModifiable : Bool) (statistics : FsEntryStatistics)
  deriving Repr, DecidableEq

namespace EntryInfo

variable (info : EntryInfo)

def isFolder : Bool :=
  match info with
  | .folder .. => true
  | .file .. => false

def statistics : FsEntryStatistics :=
  match info with
  | .folder _ statistics _ => statistics
  | .file _ _ statistics => statistics

def setStatistics (statistics : FsEntryStatistics) : EntryInfo :=
  match info with
  | .folder name _ streamId => .folder name statistics streamId
  | .file content isModifiable _ => .file content isModifiable statistics

def rename (name : String) : EntryInfo :=
  match info with
  | .folder _ statistics streamId => .folder name statistics streamId
  | .file content isModifiable statistics => .file { content with name } isModifiable statistics

/-- `m_name`. -/
def name : String :=
  match info with
  | .folder name _ _ => name
  | .file content _ _ => content.name

def fileHash? : Option InfoHash :=
  match info with
  | .folder .. => none
  | .file content .. => some content.hash

/-- What `FolderStatisticsNode::update` does to the node itself. -/
def update (oldTotal newTotal : Nat) : EntryInfo :=
  info.setStatistics
    { info.statistics with childrenBlocks := info.statistics.childrenBlocks - oldTotal + newTotal }

def mapBlocks (f : Nat → Nat) : EntryInfo :=
  info.setStatistics { info.statistics with blocks := f info.statistics.blocks }

def setLinked : EntryInfo := info.setStatistics { info.statistics with isLinked := true }

variable {info}

@[simp] theorem isFolder_setStatistics (statistics : FsEntryStatistics) :
    (info.setStatistics statistics).isFolder = info.isFolder := by
  cases info <;> rfl

@[simp] theorem statistics_setStatistics (statistics : FsEntryStatistics) :
    (info.setStatistics statistics).statistics = statistics := by
  cases info <;> rfl

@[simp] theorem fileHash?_setStatistics (statistics : FsEntryStatistics) :
    (info.setStatistics statistics).fileHash? = info.fileHash? := by
  cases info <;> rfl

@[simp] theorem isFolder_rename (name : String) : (info.rename name).isFolder = info.isFolder := by
  cases info <;> rfl

@[simp] theorem statistics_rename (name : String) :
    (info.rename name).statistics = info.statistics := by
  cases info <;> rfl

@[simp] theorem fileHash?_rename (name : String) : (info.rename name).fileHash? = info.fileHash? := by
  cases info <;> rfl

@[simp] theorem name_setStatistics (statistics : FsEntryStatistics) :
    (info.setStatistics statistics).name = info.name := by
  cases info <;> rfl

@[simp] theorem name_rename (name : String) : (info.rename name).name = name := by
  cases info <;> rfl

@[simp] theorem isFolder_update (oldTotal newTotal : Nat) :
    (info.update oldTotal newTotal).isFolder = info.isFolder := isFolder_setStatistics _

@[simp] theorem isFolder_setLinked : info.setLinked.isFolder = info.isFolder :=
  isFolder_setStatistics _

@[simp] theorem isFolder_mapBlocks (f : Nat → Nat) : (info.mapBlocks f).isFolder = info.isFolder :=
  isFolder_setStatistics _

end EntryInfo

/-- `Folder::Child`, or the root folder. -/
abbrev FsEntry := KeyedTree String EntryInfo

namespace FsEntry

open KeyedTree

variable (entry : FsEntry)

def isFolder : Bool := entry.value.isFolder

def isLinked : Bool := entry.value.statistics.isLinked

def statisticsNode : Nat := entry.value.statistics.node

/-- `FsEntryStatistics::totalBlocks`. -/
def totalBlocks : Nat := entry.value.statistics.blocks + entry.value.statistics.childrenBlocks

def mapInfo (f : EntryInfo → EntryInfo) : FsEntry := .node (f entry.value) entry.childs

/-- `FolderStatisticsNode::update` reaches the enclosing folder of a linked entry. -/
def follow (info : EntryInfo) (child changed : FsEntry) : EntryInfo :=
  if isLinked child then info.update (totalBlocks child) (totalBlocks changed) else info

@[simp] theorem isFolder_follow (info : EntryInfo) (child changed : FsEntry) :
    (follow info child changed).isFolder = info.isFolder := by
  rw [follow]
  split
  · exact EntryInfo.isFolder_update _ _
  · rfl

/-! ## Looking up -/

/-- `getFolderPtr`, without creation: every element has to be a folder. -/
def getFolderPtr : List String → FsEntry → Option FsEntry
  | [], folder => some folder
  | name :: names, folder =>
      match childAt name folder.childs with
      | some child => if isFolder child then getFolderPtr names child else none
      | none => none

/-- `getEntryPtr`. -/
def getEntryPtr (path : FsPath) (root : FsEntry) : Option FsEntry :=
  (getFolderPtr path.parentPath.elements root).bind fun folder =>
    childAt path.filename folder.childs

/-- `getUniqueFiles`: the hashes of all files. -/
def getUniqueFiles : List InfoHash := entry.values.filterMap EntryInfo.fileHash?

def modifiableFiles : List InfoHash :=
  entry.values.filterMap fun info =>
    match info with
    | .folder .. => none
    | .file content isModifiable _ => if isModifiable then some content.hash else none

/-- The folders `iterateBranch` passes on the way to the last element. -/
def passedFolders : List String → FsEntry → List FsEntry
  | [], folder => [folder]
  | name :: names, folder =>
      folder :: match childAt name folder.childs with
        | some child => if isFolder child then passedFolders names child else []
        | none => []

/-! ## Statistics -/

mutual

/-- `initializeStatistics`: all entries are linked. The streams and iterators in `handles` are
    given by the nodes they block. -/
def initializeStatistics (handles : List Nat) : FsEntry → FsEntry
  | .node info childs =>
      let childs := initializeChilds handles childs
      .node (info.setStatistics
        { info.statistics with
          blocks := handles.count info.statistics.node
          childrenBlocks := (childs.map fun child => totalBlocks child.2).sum }) childs

def initializeChilds (handles : List Nat) : List (String × FsEntry) → List (String × FsEntry)
  | [] => []
  | (name, child) :: childs =>
      (name, mapInfo (initializeStatistics handles child) EntryInfo.setLinked) ::
        initializeChilds handles childs

end

/-- Change the number of blocks of a node, if there still is an entry with it. -/
def changeBlocks (f : Nat → Nat) (node : Nat) (root : FsEntry) : FsEntry :=
  match addressOf (fun info => info.statistics.node = node) root with
  | some address => modify follow (mapInfo · (·.mapBlocks f)) address root
  | none => root

/-- `addBlock`. -/
def addBlock : Nat → FsEntry → FsEntry := changeBlocks (· + 1)

/-- `removeBlock`. -/
def removeBlock : Nat → FsEntry → FsEntry := changeBlocks (· - 1)

/-- `mapFiles`. -/
def mapFiles (f : File → Bool → File × Bool) (entry : FsEntry) : FsEntry :=
  entry.map fun info =>
    match info with
    | .folder .. => info
    | .file content isModifiable statistics =>
        .file (f content isModifiable).1 (f content isModifiable).2 statistics

/-! ## Changing the tree -/

/-- Folders inside each other, none of them linked, with nodes from a number on. -/
def newFolders (nextNode : Nat) (name : String) : List String → FsEntry
  | [] => .node (.folder name { node := nextNode }) []
  | next :: names =>
      .node (.folder name { node := nextNode }) [(next, newFolders (nextNode + 1) next names)]

/-- `getFolderPtr` with creation. It fails at a file, before anything is created. -/
def createFolders (nextNode : Nat) : List String → FsEntry → Option FsEntry
  | [], folder => some folder
  | name :: names, .node info childs =>
      match childAt name childs with
      | none => some (.node info (insertChild name (newFolders nextNode name names) childs))
      | some child =>
          if isFolder child then
            (createFolders nextNode names child).map fun changed =>
              .node info (replaceChild name changed childs)
          else none

/-- `setStatisticsParent` of a child: it is taken from its old parent, and comes to this one. -/
def linkChild (name : String) : FsEntry → FsEntry
  | .node info childs =>
      match childAt name childs with
      | none => .node info childs
      | some child =>
          let info := if isLinked child then info.update (totalBlocks child) 0 else info
          .node (info.update 0 (totalBlocks child))
            (replaceChild name (mapInfo child EntryInfo.setLinked) childs)

/-- Erase a child whose node has lost its parent. -/
def detachChild (name : String) : FsEntry → FsEntry
  | .node info childs =>
      match childAt name childs with
      | none => .node info childs
      | some child =>
          .node (if isLinked child then info.update (totalBlocks child) 0 else info)
            (eraseChild name childs)

/-- Put an entry that is not linked in the place of the child with its name. -/
def setChild (name : String) (child : FsEntry) : FsEntry → FsEntry
  | .node info childs => .node info (insertChild name child (eraseChild name childs))

/-- Put a linked entry in the place of the child with its name, whose node is left as it is. -/
def putChild (name : String) (child : FsEntry) : FsEntry → FsEntry
  | .node info childs =>
      .node (info.update 0 (totalBlocks child))
        (insertChild name (mapInfo child EntryInfo.setLinked) (eraseChild name childs))

/-- `addFolder`. Only the last folder is linked to its parent. -/
def addFolder (nextNode : Nat) (path : FsPath) (root : FsEntry) : Option FsEntry :=
  (createFolders nextNode path.elements root).map fun root =>
    if path.parentPath = path then root
    else modify follow (linkChild path.filename) path.parentPath.elements root

/-- `addFile`. The entry with the name of the file is erased, whatever it is, and nobody is told
    that its node has gone. -/
def addFile (nextNode : Nat) (destination : FsPath) (filename : String) (fileHash : InfoHash)
    (size : Nat) (root : FsEntry) : Option FsEntry :=
  (createFolders nextNode destination.elements root).map fun root =>
    modify (fun info _ _ => info)
      (setChild filename
        (.node (.file ⟨filename, fileHash, size⟩ false
          { node := nextNode + destination.elements.length }) []))
      destination.elements root

/-- `addModifiableFile`. -/
def addModifiableFile (nextNode : Nat) (destination : FsPath) (filename : String)
    (temporaryHash : InfoHash) (root : FsEntry) : Option FsEntry :=
  (createFolders nextNode destination.elements root).map fun root =>
    modify follow
      (putChild filename
        (.node (.file ⟨filename, temporaryHash, 0⟩ true
          { node := nextNode + destination.elements.length }) []))
      destination.elements root

/-- `removeFlat`; nothing is removed if there is no such entry. -/
def removeFlat (path : FsPath) (root : FsEntry) : Option FsEntry :=
  (getEntryPtr path root).map fun _ =>
    modify follow (detachChild path.filename) path.parentPath.elements root

/-- The nodes on the way to an entry, below some folder, are all linked. -/
def isLinkedBelow : List String → FsEntry → Bool
  | [], _ => true
  | name :: names, folder =>
      match childAt name folder.childs with
      | some child => isLinked child && isLinkedBelow names child
      | none => true

/-- What `moveFlat` comes to. -/
inductive MoveResult (τ : Type) where
  | failed
  | moved (root : τ)
  /-- A folder is used after it was destroyed, or `update` does not return. -/
  | undefined

/-- `moveFlat` when the parent of the destination exists. -/
def moveChild (source destination : FsPath) (child root : FsEntry) :
    MoveResult FsEntry :=
  let inside := source.keys <+: destination.parentPath.elements
  if inside then
    let rest := destination.parentPath.elements.drop source.keys.length
    -- the entry is moved into itself: it is lost with its new parent
    if rest = [] ∨ isLinkedBelow rest child = false then
      .moved (modify follow (detachChild source.filename) source.parentPath.elements root)
    else .undefined
  else if destination.keys <+: source.keys then .undefined
  else
    .moved (modify follow
      (putChild destination.filename (mapInfo child (·.rename destination.filename)))
      destination.parentPath.elements
      (modify follow (detachChild source.filename) source.parentPath.elements root))

/-- `moveFlat` looks for the parent of the destination, and adds it if it is missing. -/
def prepareParent (nextNode : Nat) (path : FsPath) (root : FsEntry) : Option FsEntry :=
  if (getFolderPtr path.parentPath.elements root).isSome then some root
  else addFolder nextNode path.parentPath root

/-- `moveFlat`. -/
def moveFlat (nextNode : Nat) (source destination : FsPath) (root : FsEntry) :
    MoveResult FsEntry :=
  if (getEntryPtr source root).isNone then .failed
  else if destination = source then .moved root
  else
    match prepareParent nextNode destination root with
    | none => .failed
    | some root =>
        match getEntryPtr source root with
        | none => .failed
        | some child => moveChild source destination child root

end FsEntry

end SiriusDrive
