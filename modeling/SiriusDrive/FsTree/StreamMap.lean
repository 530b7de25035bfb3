import SiriusDrive.Lib.TreeWalk
import SiriusDrive.StreamTask.StreamEntries

/-! # The folders of streams

`updateStreamMap` walks through all folders of the fs tree for the streams that are stored there.
`findStreamFolder` calls itself for the folders of a folder, but does not return what it finds.
-/

namespace SiriusDrive

open KeyedTree

namespace EntryInfo

/-- `m_isaStream` is set, and this is the stream. -/
def IsStream (streamId : Hash256) (info : EntryInfo) : Prop :=
  match info with
  | .folder _ _ (some id) => id = streamId
  | _ => False

instance decidableIsStream (streamId : Hash256) : DecidablePred (IsStream streamId) := fun info =>
  match info with
  | .folder _ _ (some id) => inferInstanceAs (Decidable (id = streamId))
  | .folder _ _ none => isFalse id
  | .file .. => isFalse id

end EntryInfo

namespace FsEntry

/-! ## The code -/

mutual

/-- `findStreamFolder`. -/
def findStreamFolder (streamId : Hash256) : FsEntry → Option FsEntry
  | .node _ childs => findStreamChild streamId childs

/-- The loop over the children. -/
def findStreamChild (streamId : Hash256) : List (String × FsEntry) → Option FsEntry
  | [] => none
  | (_, child) :: rest =>
      if isFolder child then
        if child.value.IsStream streamId then some child
        else
          -- the result of the inner call is dropped
          let _ := findStreamFolder streamId child
          findStreamChild streamId rest
      else findStreamChild streamId rest

end

mutual

/-- The folders `iterateAllFolders` calls its function for. -/
def allFolders : FsEntry → List FsEntry
  | .node _ childs => childFolders childs

def childFolders : List (String × FsEntry) → List FsEntry
  | [] => []
  | (_, child) :: rest =>
      (if isFolder child then child :: allFolders child else []) ++ childFolders rest

end

mutual

/-- `iterate` with a function that stops at a file named like a playlist: the hash of the file. -/
def playlistHash : FsEntry → Option InfoHash
  | .node _ childs => childPlaylistHash childs

def childPlaylistHash : List (String × FsEntry) → Option InfoHash
  | [] => none
  | (_, child) :: rest =>
      (match child.value with
        | .folder .. => playlistHash child
        | .file content _ _ =>
            if content.name = playlistFileName then some content.hash else none).or
        (childPlaylistHash rest)

end

/-- The function `updateStreamMap` calls for each folder. -/
def noteStream (streamMap : Std.TreeMap Hash256 InfoHash) (folder : FsEntry) :
    Std.TreeMap Hash256 InfoHash :=
  match folder.value with
  | .folder _ _ (some streamId) =>
      match playlistHash folder with
      | some hash => streamMap.insert streamId hash
      | none => streamMap
  | _ => streamMap

/-- `updateStreamMap`. -/
def updateStreamMap (fsTree : FsEntry) : Std.TreeMap Hash256 InfoHash :=
  (allFolders fsTree).foldl noteStream ∅

/-- `acceptGetPlaylistHashRequest`: the hash that is sent back, if any. -/
def acceptGetPlaylistHashRequest (streamId : Hash256) (fsTree : FsEntry) : Option InfoHash :=
  (findStreamFolder streamId fsTree).bind playlistHash

variable {streamId : Hash256} {entry root : FsEntry}

/-! ## The folders that are found -/

theorem isFolder_of_isStream (isStream : entry.value.IsStream streamId) : isFolder entry = true := by
  obtain ⟨info, childs⟩ := entry
  cases info with
  | folder => rfl
  | file => exact isStream.elim

theorem findStreamFolder_isSome_iff : (findStreamFolder streamId entry).isSome = true ↔
    ∃ name child, (name, child) ∈ entry.childs ∧ child.value.IsStream streamId := by
  obtain ⟨info, childs⟩ := entry
  rw [findStreamFolder, childs_node]
  induction childs with
  | nil => simp [findStreamChild]
  | cons head rest ih =>
      obtain ⟨first, sibling⟩ := head
      have later : (∃ name child, (name, child) ∈ (first, sibling) :: rest ∧
          child.value.IsStream streamId) ↔ sibling.value.IsStream streamId ∨
            ∃ name child, (name, child) ∈ rest ∧ child.value.IsStream streamId := by
        constructor
        · rintro ⟨name, child, member, isStream⟩
          rcases List.mem_cons.mp member with same | isLater
          · cases same
            exact .inl isStream
          · exact .inr ⟨name, child, isLater, isStream⟩
        · rintro (isStream | ⟨name, child, isLater, isStream⟩)
          · exact ⟨first, sibling, List.mem_cons_self, isStream⟩
          · exact ⟨name, child, List.mem_cons_of_mem _ isLater, isStream⟩
      rw [later, findStreamChild]
      by_cases isStream : sibling.value.IsStream streamId
      · rw [if_pos (isFolder_of_isStream isStream), if_pos isStream]
        simp [isStream]
      · rw [if_neg isStream, ite_self, ih]
        simp [isStream]

theorem mem_childFolders {childs : List (String × FsEntry)} {folder : FsEntry} :
    folder ∈ childFolders childs ↔ ∃ name child, (name, child) ∈ childs ∧
      isFolder child = true ∧ (folder = child ∨ folder ∈ allFolders child) := by
  induction childs with
  | nil => simp [childFolders]
  | cons head rest ih =>
      obtain ⟨first, sibling⟩ := head
      rw [childFolders, List.mem_append, ih]
      constructor
      · rintro (here | ⟨name, child, member, found⟩)
        · split at here
          · rename_i kind
            exact ⟨first, sibling, List.mem_cons_self, kind, List.mem_cons.mp here⟩
          · cases here
        · exact ⟨name, child, List.mem_cons_of_mem _ member, found⟩
      · rintro ⟨name, child, member, kind, found⟩
        rcases List.mem_cons.mp member with same | later
        · cases same
          left
          rw [if_pos kind]
          exact List.mem_cons.mpr found
        · exact .inr ⟨name, child, later, kind, found⟩

theorem isFolder_of_mem_entriesBelow (proper : IsProper entry) {address path : List String}
    {below : FsEntry} (visited : (path, below) ∈ entriesBelow address entry) :
    isFolder entry = true := by
  by_contra isFile
  obtain ⟨info, childs⟩ := entry
  have none : childs = [] := proper.2 (Bool.eq_false_iff.mpr isFile)
  subst none
  cases visited

theorem mem_allFolders (wellFormed : WellFormed entry) (address : List String) {folder : FsEntry} :
    folder ∈ allFolders entry ↔
      ∃ path, (path, folder) ∈ entriesBelow address entry ∧ isFolder folder = true := by
  induction entry using KeyedTree.induct generalizing address with
  | node info childs ih =>
      have parts := all_node.mp wellFormed
      rw [allFolders, entriesBelow, mem_childFolders]
      simp only [mem_childEntries]
      constructor
      · rintro ⟨name, child, member, kind, rfl | inner⟩
        · exact ⟨_, ⟨name, folder, member, .inl rfl⟩, kind⟩
        · obtain ⟨path, visited, kind⟩ :=
            (ih name child member (parts.2 name child member) (address ++ [name])).mp inner
          exact ⟨path, ⟨name, child, member, .inr visited⟩, kind⟩
      · rintro ⟨path, ⟨name, child, member, here | visited⟩, kind⟩
        · cases here
          exact ⟨name, folder, member, kind, .inl rfl⟩
        · have isInner := isFolder_of_mem_entriesBelow (parts.2 name child member).here visited
          have inner := ih name child member (parts.2 name child member) (address ++ [name])
          exact ⟨name, child, member, isInner, .inr (inner.mpr ⟨path, visited, kind⟩)⟩

theorem mem_noteStream_iff {streamMap : Std.TreeMap Hash256 InfoHash} {folder : FsEntry} :
    streamId ∈ noteStream streamMap folder ↔ streamId ∈ streamMap ∨
      folder.value.IsStream streamId ∧ (playlistHash folder).isSome = true := by
  rw [noteStream]
  split
  · rename_i name statistics id isFolder
    have isStream : folder.value.IsStream streamId ↔ id = streamId := by
      rw [isFolder]
      rfl
    split
    · rename_i hash isHash
      rw [Std.TreeMap.mem_insert, Std.LawfulEqCmp.compare_eq_iff_eq, isHash, isStream, or_comm]
      simp
    · rename_i noHash
      simp [noHash]
  · rename_i noStream
    have isNone : ¬ folder.value.IsStream streamId := by
      intro isStream
      rw [EntryInfo.IsStream] at isStream
      · exact isStream
      · exact noStream
    simp [isNone]

theorem mem_updateStreamMap_iff : streamId ∈ updateStreamMap root ↔
    ∃ folder ∈ allFolders root,
      folder.value.IsStream streamId ∧ (playlistHash folder).isSome = true := by
  have general : ∀ (folders : List FsEntry) (streamMap : Std.TreeMap Hash256 InfoHash),
      streamId ∈ folders.foldl noteStream streamMap ↔ streamId ∈ streamMap ∨
        ∃ folder ∈ folders, folder.value.IsStream streamId ∧
          (playlistHash folder).isSome = true := by
    intro folders
    induction folders with
    | nil => simp
    | cons folder folders ih =>
        intro streamMap
        rw [List.foldl_cons, ih, mem_noteStream_iff, List.exists_mem_cons_iff, or_assoc]
  rw [updateStreamMap, general]
  simp

/-! ## Nested folders -/

def IsStreamAt (streamId : Hash256) (root : FsEntry) (address : List String) : Prop :=
  ∃ folder, find? address root = some folder ∧ folder.value.IsStream streamId

/-- `findStreamFolder` finds a stream that has a folder below the root, and so every stream that
    is recorded. -/
structure FindsStream (streamId : Hash256) (root : FsEntry) : Prop where
  finds : (findStreamFolder streamId root).isSome = true ↔
    ∃ address, address ≠ [] ∧ IsStreamAt streamId root address
  findsRecorded : streamId ∈ updateStreamMap root → (findStreamFolder streamId root).isSome = true

theorem findStreamFolder_isSome_iff_isStreamAt (wellFormed : WellFormed root) :
    (findStreamFolder streamId root).isSome = true ↔ ∃ name, IsStreamAt streamId root [name] := by
  have distinct : (root.childs.map Prod.fst).Nodup := wellFormed.here.1
  rw [findStreamFolder_isSome_iff]
  constructor
  · rintro ⟨name, child, member, isStream⟩
    refine ⟨name, child, ?_, isStream⟩
    rw [find?_cons, childAt_of_mem distinct member]
    rfl
  · rintro ⟨name, child, found, isStream⟩
    obtain ⟨_, isChild, same⟩ := Option.bind_eq_some_iff.mp found
    cases same
    exact ⟨name, child, mem_of_childAt isChild, isStream⟩

/-- A stream is found unless all its folders are inside other folders. -/
theorem findsStream_iff (streamId : Hash256) (tree : FsEntryTree) :
    FindsStream streamId tree.1 ↔
      ((∃ address, 2 ≤ address.length ∧ IsStreamAt streamId tree.1 address) →
        ∃ name, IsStreamAt streamId tree.1 [name]) := by
  have found := @findStreamFolder_isSome_iff_isStreamAt streamId _ tree.2.wellFormed
  constructor
  · rintro ⟨finds, _⟩ ⟨address, deep, isStream⟩
    apply found.mp
    apply finds.mpr
    refine ⟨address, ?_, isStream⟩
    rintro rfl
    simp at deep
  · intro shallow
    have finds : (findStreamFolder streamId tree.1).isSome = true ↔
        ∃ address, address ≠ [] ∧ IsStreamAt streamId tree.1 address := by
      rw [found]
      constructor
      · rintro ⟨name, isStream⟩
        exact ⟨[name], List.cons_ne_nil _ _, isStream⟩
      · rintro ⟨address, notRoot, isStream⟩
        cases address with
        | nil => exact absurd rfl notRoot
        | cons name rest =>
            cases rest with
            | nil => exact ⟨name, isStream⟩
            | cons next rest => exact shallow ⟨_, by simp, isStream⟩
    refine ⟨finds, ?_⟩
    intro recorded
    obtain ⟨folder, member, isStream, _⟩ := mem_updateStreamMap_iff.mp recorded
    obtain ⟨path, visited, _⟩ := (mem_allFolders tree.2.wellFormed []).mp member
    obtain ⟨address, notEmpty, _, isFound⟩ :=
      (mem_entriesBelow_iff tree.2.wellFormed.uniqueKeys).mp visited
    exact finds.mpr ⟨address, notEmpty, folder, isFound, isStream⟩

/-- A stream that was saved in a folder inside a folder. -/
def nestedStream : FsEntryTree :=
  (FsEntryTree.emptyFsTree.completeStreamFinishing (fun _ => 1) 1
    { FsEntryTree.liveRequest with folder := "a/live" } []).getD FsEntryTree.emptyFsTree

/-- The stream is recorded, but nobody gets the hash of its playlist. -/
theorem not_findsStream_nested : ¬ ∀ (streamId : Hash256) (tree : FsEntryTree),
    FindsStream streamId tree.1 := by
  intro all
  have found := (all 40 nestedStream).findsRecorded (by decide +kernel)
  exact absurd found (by decide +kernel)

end FsEntry

end SiriusDrive
