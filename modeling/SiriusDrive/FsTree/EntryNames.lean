import SiriusDrive.FsTree.Operations
import SiriusDrive.StreamTask.StreamEntries

/-! # Names and keys

The entries of a folder have their names as keys. What holds of the keys and the entries of a tree,
and of what an operation puts into it, holds after the operation.
-/

namespace SiriusDrive

open KeyedTree

namespace FsContents

variable {P : String → EntryInfo → Prop} {contents : FsContents}

/-! ## What operations add -/

/-- `P` holds of folders that are made on a way. -/
def AddsFolders (P : String → EntryInfo → Prop) (names : List String) : Prop :=
  ∀ name ∈ names, P name (newFolder [name])

/-- `P` holds of what an operation puts into the tree, under the keys it gets there. -/
def Adds (P : String → EntryInfo → Prop) (contents : FsContents) : FsTreeOperation → Prop
  | .addFile destPath filename fileHash size =>
      ¬ contents.PassesFile (FsPath.parse destPath).elements →
        AddsFolders P (FsPath.parse destPath).elements ∧
          P filename (.file ⟨filename, fileHash, size⟩ false { node := 0 })
  | .addModifiableFile destinationPath filename temporaryHash =>
      ¬ contents.PassesFile (FsPath.parse destinationPath).elements →
        AddsFolders P (FsPath.parse destinationPath).elements ∧
          P filename (.file ⟨filename, temporaryHash, 0⟩ true { node := 0 })
  | .addFolder folderPath =>
      ¬ contents.PassesFile (FsPath.parse folderPath).elements →
        AddsFolders P (FsPath.parse folderPath).elements
  | .moveFlat srcPathAndName destPathAndName =>
      let source := FsPath.parse srcPathAndName
      let destination := FsPath.parse destPathAndName
      contents.IsMovable source destination → ¬ source.keys <+: destination.parentPath.elements →
        AddsFolders P destination.parentPath.elements ∧
          ∀ info, contents source.keys = some info →
            P destination.filename (info.rename destination.filename)
  | .removeFlat _ => True

theorem everyEntry_addFolders {names : List String} (every : contents.EveryEntry P)
    (adds : AddsFolders P names) : (contents.addFolders names).EveryEntry P := by
  apply every.fill
  intro front key onWay
  have made : newFolder (front ++ [key]) = newFolder [key] := by
    rw [newFolder, newFolder, List.getLast?_concat, List.getLast?_singleton]
  rw [made]
  exact adds key (onWay.subset (List.mem_append_right _ (List.mem_singleton_self key)))

theorem everyEntry_addLeaf {path : FsPath} {filename : String} {info : EntryInfo}
    (every : contents.EveryEntry P)
    (adds : ¬ contents.PassesFile path.elements → AddsFolders P path.elements ∧ P filename info) :
    (contents.addLeaf path filename info).EveryEntry P := by
  rw [addLeaf]
  split
  · exact every
  · rename_i free
    obtain ⟨folders, leaf⟩ := adds free
    apply (everyEntry_addFolders every folders).put (AddressMap.everyEntry_leaf _)
    intro value isTop
    cases isTop
    exact leaf

/-- What holds of the entries of a tree, and of what an operation puts into it, holds afterwards. -/
theorem everyEntry_operate {operation : FsTreeOperation} (every : contents.EveryEntry P)
    (adds : contents.Adds P operation) : (contents.operate operation).EveryEntry P := by
  cases operation with
  | addFile destPath filename fileHash size => exact everyEntry_addLeaf every adds
  | addModifiableFile destinationPath filename temporaryHash => exact everyEntry_addLeaf every adds
  | addFolder folderPath =>
      rw [operate]
      split
      · exact every
      · rename_i free
        exact everyEntry_addFolders every (adds free)
  | moveFlat srcPathAndName destPathAndName =>
      simp only [operate]
      split
      · exact every
      rename_i movable
      split
      · exact every.remove
      · rename_i outside
        obtain ⟨folders, moved⟩ := adds (not_not.mp movable) outside
        apply (everyEntry_addFolders every folders).remove.put (every.below.mapTop _)
        intro value isTop
        obtain ⟨info, isInfo, rfl⟩ := Option.map_eq_some_iff.mp isTop
        rw [AddressMap.below, List.append_nil] at isInfo
        exact moved info isInfo
  | removeFlat fullPath => exact every.remove

/-! ## The entries that are added are there -/

variable {Q : String → Prop}

theorem names_of_everyEntry {names : List String} (every : contents.EveryEntry fun key _ => Q key)
    (isThere : ∀ front, front <+: names → (contents front).isSome) : ∀ name ∈ names, Q name := by
  intro name member
  obtain ⟨front, rest, rfl⟩ := List.append_of_mem member
  have onWay : front ++ [name] <+: front ++ name :: rest := ⟨rest, by simp⟩
  obtain ⟨info, isInfo⟩ := Option.isSome_iff_exists.mp (isThere _ onWay)
  exact every front name info isInfo

theorem isSome_addFolders {names front : List String} (onWay : front <+: names) :
    (contents.addFolders names front).isSome := by
  rw [addFolders, AddressMap.fill, if_pos onWay]
  rfl

theorem isSome_put {other : FsContents} {names front : List String} {name : String}
    (isThere : ∀ front, front <+: names → (contents front).isSome) (top : (other []).isSome)
    (onWay : front <+: names ++ [name]) :
    (contents.put other (names ++ [name]) front).isSome := by
  rcases List.prefix_concat_iff.mp onWay with rfl | above
  · have below := @AddressMap.put_below _ _ contents other (names ++ [name]) [] _
    rw [List.append_nil] at below
    rw [below]
    exact top
  · rw [AddressMap.put_elsewhere]
    · exact isThere front above
    · intro below
      have shorter := (below.trans above).length_le
      rw [List.length_append, List.length_singleton] at shorter
      omega

theorem names_of_addLeaf {path : FsPath} {filename : String} {info : EntryInfo}
    (every : (contents.addLeaf path filename info).EveryEntry fun key _ => Q key)
    (free : ¬ contents.PassesFile path.elements) :
    (AddsFolders (fun key _ => Q key) path.elements) ∧ Q filename := by
  rw [addLeaf, if_neg free] at every
  have names := names_of_everyEntry every fun front =>
    isSome_put (fun front => isSome_addFolders) rfl
  refine ⟨?_, ?_⟩
  · intro name member
    exact names name (List.mem_append_left _ member)
  · exact names filename (List.mem_append_right _ (List.mem_singleton_self filename))

/-- Keys are kept with `Q` only by the operations that add nothing else. -/
theorem everyEntry_operate_iff (every : contents.EveryEntry fun key _ => Q key)
    (operation : FsTreeOperation) :
    ((contents.operate operation).EveryEntry fun key _ => Q key) ↔
      contents.Adds (fun key _ => Q key) operation := by
  refine ⟨?_, everyEntry_operate every⟩
  intro later
  cases operation with
  | addFile destPath filename fileHash size => exact names_of_addLeaf later
  | addModifiableFile destinationPath filename temporaryHash => exact names_of_addLeaf later
  | addFolder folderPath =>
      intro free
      rw [operate, if_neg free] at later
      exact names_of_everyEntry later fun front => isSome_addFolders
  | moveFlat srcPathAndName destPathAndName =>
      intro movable outside
      simp only [operate] at later
      rw [if_neg (not_not_intro movable), if_neg outside, move] at later
      generalize FsPath.parse srcPathAndName = source at movable outside later
      generalize FsPath.parse destPathAndName = destination at movable outside later ⊢
      have names := names_of_everyEntry later fun front => isSome_put (by
        intro front onWay
        rw [AddressMap.remove_elsewhere fun below => outside (below.trans onWay)]
        exact isSome_addFolders onWay) (by
        rw [AddressMap.mapTop, Option.isSome_map, AddressMap.below, List.append_nil]
        exact movable.isSource)
      refine ⟨?_, ?_⟩
      · intro name member
        exact names name (List.mem_append_left _ member)
      · intro info _
        exact names destination.filename
          (List.mem_append_right _ (List.mem_singleton_self destination.filename))
  | removeFlat fullPath => trivial

end FsContents

/-! ## Keys are names -/

namespace EntryInfo

@[simp] theorem name_content (info : EntryInfo) : info.content.name = info.name :=
  name_setStatistics _

@[simp] theorem name_markStream (streamId : Hash256) (info : EntryInfo) :
    (info.markStream streamId).name = info.name := by
  cases info <;> rfl

def HasKey (key : String) (info : EntryInfo) : Prop := info.name = key

end EntryInfo

namespace FsContents

variable {contents : FsContents}

theorem adds_hasKey (contents : FsContents) (operation : FsTreeOperation) :
    contents.Adds EntryInfo.HasKey operation := by
  have folders (names : List String) : AddsFolders EntryInfo.HasKey names := by
    intro name _
    rfl
  cases operation with
  | addFile destPath filename fileHash size => exact fun _ => ⟨folders _, rfl⟩
  | addModifiableFile destinationPath filename temporaryHash => exact fun _ => ⟨folders _, rfl⟩
  | addFolder folderPath => exact fun _ => folders _
  | moveFlat srcPathAndName destPathAndName =>
      intro _ _
      exact ⟨folders _, fun info _ => EntryInfo.name_rename _⟩
  | removeFlat fullPath => trivial

theorem hasKey_fillStreamFolder {folder : List String} {streamId : Hash256} {files : List File}
    (every : contents.EveryEntry EntryInfo.HasKey) :
    (contents.fillStreamFolder folder streamId files).EveryEntry EntryInfo.HasKey := by
  rw [fillStreamFolder]
  apply AddressMap.EveryEntry.mapAt
  · apply every.supplyAll
    intro front key info member
    obtain ⟨file, _, same⟩ := List.mem_map.mp member
    obtain ⟨address, rfl⟩ := Prod.mk.inj same
    obtain ⟨_, keys⟩ := List.append_inj' address rfl
    exact (List.cons.inj keys).1
  · intro key info named
    rw [EntryInfo.HasKey, EntryInfo.name_markStream]
    exact named

end FsContents

/-- What changes an fs tree: its operations, and the end of a stream. -/
inductive FsTreeChange where
  | operation (operation : FsTreeOperation)
  | completeStreamFinishing (createTorrentFile : String → InfoHash) (request : StreamRequest)
      (finishInfo : List FinishStreamChunkInfo)

/-- An operation that does not move an entry to a place above or below it. -/
def FsTreeOperation.IsApart : FsTreeOperation → Prop
  | .moveFlat srcPathAndName destPathAndName =>
      let source := FsPath.parse srcPathAndName
      let destination := FsPath.parse destPathAndName
      destination ≠ source → ¬ source.keys <+: destination.keys ∧ ¬ destination.keys <+: source.keys
  | _ => True

/-- A change that does not move an entry to a place above or below it. -/
def FsTreeChange.IsApart : FsTreeChange → Prop
  | operation call => call.IsApart
  | completeStreamFinishing .. => True

namespace FsEntry

/-- The children of all folders have their names as keys. -/
def IsNamed (root : FsEntry) : Prop :=
  ∀ address folder, find? address root = some folder →
    ∀ key child, (key, child) ∈ folder.childs → child.value.name = key

theorem differ_of_undefined {root : FsEntry} {nextNode : Nat} {source destination : FsPath}
    (moves : Moves nextNode source destination root .undefined) :
    destination ≠ source ∧
      (source.keys <+: destination.parentPath.elements ∨ destination.keys <+: source.keys) := by
  cases moves with
  | looping isPrepared isChild isSource differ inside => exact ⟨differ, Or.inl inside⟩
  | overAncestor isSource differ isPrepared outside above => exact ⟨differ, Or.inr above⟩

theorem isNamed_iff {root : FsEntry} (wellFormed : WellFormed root) :
    IsNamed root ↔ root.contents.EveryEntry EntryInfo.HasKey := by
  constructor
  · intro named front key info isThere
    obtain ⟨entry, isFound, rfl⟩ := Option.map_eq_some_iff.mp isThere
    rw [find?_append] at isFound
    obtain ⟨folder, isFolder, isEntry⟩ := Option.bind_eq_some_iff.mp isFound
    obtain ⟨child, isChild, same⟩ := Option.bind_eq_some_iff.mp isEntry
    cases same
    rw [EntryInfo.HasKey, EntryInfo.name_content]
    exact named front folder isFolder key entry (mem_of_childAt isChild)
  · intro every address folder isFound key child member
    obtain ⟨info, childs⟩ := folder
    have distinct := (wellFormed.found isFound).here.1
    have isChild : find? (address ++ [key]) root = some child := by
      rw [find?_append, isFound, Option.bind_some, find?_cons, childAt_of_mem distinct member]
      rfl
    have named := every address key _ (contents_of_find? isChild)
    rw [EntryInfo.HasKey, EntryInfo.name_content] at named
    exact named

end FsEntry

namespace FsTreeState

variable {state after : FsTreeState}

def change (state : FsTreeState) : FsTreeChange → Option FsTreeState
  | .operation operation => state.perform operation
  | .completeStreamFinishing createTorrentFile request finishInfo =>
      some (state.after
        ((FsPath.parse request.folder).elements.length + (savedFiles finishInfo).length + 1)
        (state.fsTree.completeStreamFinishing createTorrentFile state.nextNode request finishInfo))

/-- A tree under any changes, as long as their behaviour is defined. -/
def changeSystem : Transition FsTreeState FsTreeChange where
  step := change

def IsNamed (state : FsTreeState) : Prop := FsEntry.IsNamed state.fsTree.1

theorem isNamed_iff (state : FsTreeState) :
    state.IsNamed ↔ state.contents.EveryEntry EntryInfo.HasKey :=
  FsEntry.isNamed_iff state.fsTree.2.wellFormed

theorem creatable_of_completeStreamFinishing {fsTree changed : FsEntryTree}
    {createTorrentFile : String → InfoHash} {nextNode : Nat} {request : StreamRequest}
    {finishInfo : List FinishStreamChunkInfo}
    (completed : fsTree.completeStreamFinishing createTorrentFile nextNode request finishInfo =
      some changed) :
    ¬ fsTree.1.contents.PassesFile (FsPath.parse request.folder).elements := by
  intro passes
  have isCompleted := (Option.attachWith_eq_some_iff _).mp completed
  obtain ⟨streamFolder, isStreamFolder, _⟩ := Option.map_eq_some_iff.mp isCompleted
  -- the tree is as before if the folder could not be added
  rw [(FsEntry.addFolder_eq_none_iff fsTree.2.isFolder).mpr passes, Option.getD_none]
    at isStreamFolder
  exact FsEntry.not_passesFile_of_getFolderPtr fsTree.2.isFolder isStreamFolder passes

theorem IsNamed.change {fsTreeChange : FsTreeChange} (named : state.IsNamed)
    (changed : state.change fsTreeChange = some after) : after.IsNamed := by
  rw [isNamed_iff] at named ⊢
  cases fsTreeChange with
  | operation operation =>
      rw [contents_perform changed]
      exact FsContents.everyEntry_operate named (FsContents.adds_hasKey _ operation)
  | completeStreamFinishing createTorrentFile request finishInfo =>
      cases changed
      cases completed : state.fsTree.completeStreamFinishing createTorrentFile state.nextNode request
        finishInfo with
      | none => exact named
      | some fsTree =>
          obtain ⟨other, isOther, isContents⟩ := FsEntryTree.contents_completeStreamFinishing
            createTorrentFile state.nextNode finishInfo (creatable_of_completeStreamFinishing completed)
          cases completed.symm.trans isOther
          change fsTree.1.contents.EveryEntry _
          rw [isContents]
          apply FsContents.hasKey_fillStreamFolder
          exact FsContents.everyEntry_addFolders named fun name _ => rfl

theorem change_isSome {fsTreeChange : FsTreeChange} (apart : fsTreeChange.IsApart)
    (state : FsTreeState) : (state.change fsTreeChange).isSome := by
  cases fsTreeChange with
  | completeStreamFinishing => rfl
  | operation operation =>
      cases operation with
      | moveFlat srcPathAndName destPathAndName =>
          simp only [change, perform]
          rcases state.fsTree.moves_moveFlat state.nextNode (.parse srcPathAndName)
            (.parse destPathAndName) with ⟨isFailed, _⟩ | ⟨_, moves⟩ | ⟨moved, isMoved, _⟩
          · rw [isFailed]
            rfl
          · have places := FsEntry.differ_of_undefined moves
            have later := apart places.1
            rcases places.2 with inside | above
            · exact absurd (inside.trans (List.prefix_append _ _)) later.1
            · exact absurd above later.2
          · rw [isMoved]
            rfl
      | _ => rfl

def empty : FsTreeState := { fsTree := FsEntryTree.emptyFsTree, nextNode := 1 }

/-- Whatever is done to an empty tree, its entries have their names as keys. Changes that move
    nothing to a place above or below it can all be done. -/
theorem isNamed_changes (changes : List FsTreeChange) :
    (∀ last, changeSystem.exec empty changes = some last → last.IsNamed) ∧
      ((∀ change ∈ changes, change.IsApart) → (changeSystem.exec empty changes).isSome) := by
  constructor
  · intro last run
    have start : empty.IsNamed := by
      intro address folder isFound key child member
      cases address <;> cases isFound
      cases member
    exact changeSystem.invariant_of_step (fun _ _ _ named => named.change) start run
  · intro apart
    exact changeSystem.exec_isSome fun change member => change_isSome (apart change member)

/-- A file is moved to another folder, and a stream is finished. -/
def sampleChanges : List FsTreeChange :=
  [.operation (.addFile "a" "b" 7 10), .operation (.moveFlat "a/b" "c/d"),
    .completeStreamFinishing (fun _ => 1) FsEntryTree.liveRequest FsEntryTree.liveFinishInfo]

theorem isNamed_changes_sample :
    ∃ last, changeSystem.exec empty sampleChanges = some last ∧ last.IsNamed := by
  have apart : ∀ change ∈ sampleChanges, change.IsApart := by
    intro change member
    rcases List.mem_cons.mp member with rfl | member
    · trivial
    rcases List.mem_cons.mp member with rfl | member
    · intro _
      have notBelow : ¬ (FsPath.parse "a/b").keys <+: (FsPath.parse "c/d").keys := by decide +kernel
      have notAbove : ¬ (FsPath.parse "c/d").keys <+: (FsPath.parse "a/b").keys := by decide +kernel
      exact ⟨notBelow, notAbove⟩
    · rw [List.mem_singleton.mp member]
      trivial
  obtain ⟨last, run⟩ := Option.isSome_iff_exists.mp ((isNamed_changes sampleChanges).2 apart)
  exact ⟨last, run, (isNamed_changes sampleChanges).1 last run⟩

end FsTreeState

end SiriusDrive
