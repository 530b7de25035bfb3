import SiriusDrive.StreamTask.StreamFolder

/-! # The entries of a finished stream

The folder of a stream has the playlist and the saved chunks of the stream unless it
had other entries with their names: the old entries stay.
-/

namespace SiriusDrive

/-- The entry is a file with some hash and size. -/
def EntryInfo.Stores (hash : InfoHash) (size : Nat) : EntryInfo → Prop
  | .folder .. => False
  | .file content _ _ => content.hash = hash ∧ content.size = size

instance EntryInfo.decidableStores (hash : InfoHash) (size : Nat) (info : EntryInfo) :
    Decidable (info.Stores hash size) := by
  cases info with
  | folder => exact isFalse id
  | file content => exact inferInstanceAs (Decidable (_ ∧ _))

theorem EntryInfo.stores_ofFile (file : File) : (EntryInfo.ofFile file).Stores file.hash file.size :=
  ⟨rfl, rfl⟩

theorem EntryInfo.Stores.unique {hash other : InfoHash} {size otherSize : Nat} {info : EntryInfo}
    (stores : info.Stores hash size) (storesOther : info.Stores other otherSize) :
    hash = other ∧ size = otherSize := by
  cases info with
  | folder => exact stores.elim
  | file content =>
      obtain ⟨rfl, rfl⟩ := stores
      exact storesOther

namespace FsContents

variable {contents after : FsContents} {folder names : List String} {streamId : Hash256}

/-- There is a file with some hash and size. -/
def HoldsFile (contents : FsContents) (names : List String) (file : File) : Prop :=
  ∃ info, contents names = some info ∧ info.Stores file.hash file.size

/-- The folder of a stream has become what the stream makes of it. -/
structure HoldsStream (before after : FsContents) (folder : List String) (streamId : Hash256)
    (saved : List File) (playlist : File) : Prop where
  holdsPlaylist : after.HoldsFile (folder ++ [playlist.name]) playlist
  holdsSaved : ∀ file ∈ saved, after.HoldsFile (folder ++ [file.name]) file
  marked : ∃ name statistics old, before folder = some (.folder name statistics old) ∧
    after folder = some (.folder name statistics (some streamId))
  unchanged : ∀ names, names ≠ folder → (∀ file ∈ saved ++ [playlist],
    names ≠ folder ++ [file.name]) → after names = before names

/-- An entry with the name of the file, if there is one, already is that file. -/
def Admits (contents : FsContents) (folder : List String) (file : File) : Prop :=
  ∀ info, contents (folder ++ [file.name]) = some info → info.Stores file.hash file.size

theorem fillStreamFolder_of_ne {files : List File} (elsewhere : names ≠ folder) :
    contents.fillStreamFolder folder streamId files names =
      contents.supplyAll (files.map fun file => (folder ++ [file.name], .ofFile file)) names :=
  AddressMap.mapAt_of_ne elsewhere

theorem append_ne_folder (name : String) : folder ++ [name] ≠ folder := by
  intro same
  simp at same

/-- The entry of a file in the folder: an old one, or the first file with its name. -/
theorem fillStreamFolder_file {files : List File} (name : String) :
    contents.fillStreamFolder folder streamId files (folder ++ [name]) =
      (contents (folder ++ [name])).or ((files.find? (·.name = name)).map EntryInfo.ofFile) := by
  rw [fillStreamFolder_of_ne (append_ne_folder name), AddressMap.supplyAll_apply, List.find?_map]
  simp only [Function.comp_def, List.append_cancel_left_eq, List.cons.injEq, and_true,
    Option.map_map]

theorem HoldsFile.admits {files : List File} {file : File}
    (holds : (contents.fillStreamFolder folder streamId files).HoldsFile (folder ++ [file.name]) file) :
    contents.Admits folder file := by
  intro info isThere
  obtain ⟨other, isOther, stores⟩ := holds
  rw [fillStreamFolder_file, isThere, Option.some_or] at isOther
  cases isOther
  exact stores

/-- A file is held if the folder admits it and all files with its name are the same. -/
theorem holdsFile_of_admits {files : List File} {file : File} (admits : contents.Admits folder file)
    (member : file ∈ files)
    (same : ∀ other ∈ files, other.name = file.name → other.hash = file.hash ∧ other.size = file.size) :
    (contents.fillStreamFolder folder streamId files).HoldsFile (folder ++ [file.name]) file := by
  rw [HoldsFile, fillStreamFolder_file]
  cases isThere : contents (folder ++ [file.name]) with
  | some info => exact ⟨info, Option.some_or, admits info isThere⟩
  | none =>
      cases isFirst : files.find? (·.name = file.name) with
      | none =>
          have notNamed := List.find?_eq_none.mp isFirst file member
          simp at notNamed
      | some first =>
          have named : first.name = file.name := by
            simpa using List.find?_some isFirst
          obtain ⟨hash, size⟩ := same first (List.mem_of_find?_eq_some isFirst) named
          refine ⟨.ofFile first, rfl, ?_⟩
          rw [← hash, ← size]
          exact EntryInfo.stores_ofFile first

theorem fillStreamFolder_elsewhere {files : List File} (notFolder : names ≠ folder)
    (elsewhere : ∀ file ∈ files, names ≠ folder ++ [file.name]) :
    contents.fillStreamFolder folder streamId files names = contents names := by
  rw [fillStreamFolder_of_ne notFolder]
  apply AddressMap.supplyAll_elsewhere
  intro entry member same
  obtain ⟨file, isFile, rfl⟩ := List.mem_map.mp member
  exact elsewhere file isFile same.symm

theorem fillStreamFolder_folder {files : List File} :
    contents.fillStreamFolder folder streamId files folder =
      (contents folder).map (·.markStream streamId) := by
  rw [fillStreamFolder, AddressMap.mapAt, if_pos rfl]
  congr 1
  apply AddressMap.supplyAll_elsewhere
  intro entry member same
  obtain ⟨file, _, rfl⟩ := List.mem_map.mp member
  exact append_ne_folder file.name same

theorem addFolders_below (contents : FsContents) (folder : List String) (name : String) :
    contents.addFolders folder (folder ++ [name]) = contents (folder ++ [name]) := by
  rw [addFolders, AddressMap.fill, if_neg]
  intro onWay
  have shorter := onWay.length_le
  simp at shorter

theorem folder_of_addFolders (creatable : ¬ contents.PassesFile folder) :
    ∃ name statistics old, contents.addFolders folder folder = some (.folder name statistics old) := by
  rw [addFolders, AddressMap.fill, if_pos (List.prefix_refl _)]
  cases isThere : contents folder with
  | none => exact ⟨_, _, _, rfl⟩
  | some info =>
      cases info with
      | folder name statistics old => exact ⟨name, statistics, old, rfl⟩
      | file content isModifiable statistics =>
          exact absurd ⟨folder, _, List.prefix_refl _, isThere, rfl⟩ creatable

end FsContents

theorem hashToFileName_ne_playlist (hash : InfoHash) : hashToFileName hash ≠ playlistFileName := by
  intro same
  have length := congrArg (fun name => name.toList.length) same
  simp only [hashToFileName, String.toList_ofList, length_hexChars] at length
  revert length
  decide

theorem mem_savedFiles {finishInfo : List FinishStreamChunkInfo} {file : File} :
    file ∈ savedFiles finishInfo ↔
      ∃ chunkInfo ∈ finishInfo, chunkInfo.saveOnDrive = true ∧ chunkInfo.file = file := by
  simp only [savedFiles, List.mem_map, List.mem_filter, and_assoc]

/-- A folder can take the files of a stream: it has no other entries with their names, and the
    finish info gives each saved chunk one size. -/
structure TakesStream (contents : FsContents) (folder : List String)
    (finishInfo : List FinishStreamChunkInfo) (playlist : File) : Prop where
  admitsPlaylist : contents.Admits folder playlist
  admitsSaved : ∀ file ∈ savedFiles finishInfo, contents.Admits folder file
  sizes : ∀ first ∈ finishInfo, ∀ second ∈ finishInfo, first.saveOnDrive = true →
    second.saveOnDrive = true → first.chunkInfoHash = second.chunkInfoHash →
      first.sizeBytes = second.sizeBytes

namespace FsEntryTree

/-- The sandbox of a finished stream holds the stream if and only if its folder can take it. -/
theorem completeStreamFinishing_holds_iff (createTorrentFile : String → InfoHash) (nextNode : Nat)
    (request : StreamRequest) (finishInfo : List FinishStreamChunkInfo) (fsTree : FsEntryTree)
    (creatable : ¬ fsTree.1.contents.PassesFile (FsPath.parse request.folder).elements) :
    (∃ sandboxFsTree,
        fsTree.completeStreamFinishing createTorrentFile nextNode request finishInfo =
          some sandboxFsTree ∧
        FsContents.HoldsStream (fsTree.1.contents.addFolders (FsPath.parse request.folder).elements)
          sandboxFsTree.1.contents (FsPath.parse request.folder).elements request.streamId
          (savedFiles finishInfo) (playlistFile createTorrentFile finishInfo)) ↔
      TakesStream fsTree.1.contents (FsPath.parse request.folder).elements finishInfo
        (playlistFile createTorrentFile finishInfo) := by
  obtain ⟨changed, completed, isContents⟩ :=
    contents_completeStreamFinishing createTorrentFile nextNode finishInfo creatable
  generalize (FsPath.parse request.folder).elements = folder at *
  -- a folder that is made on the way is not there under the name of a file
  have sameAdmits (file : File) : (fsTree.1.contents.addFolders folder).Admits folder file ↔
      fsTree.1.contents.Admits folder file := by
    rw [FsContents.Admits, FsContents.Admits, FsContents.addFolders_below]
  have named {file : File} (isSaved : file ∈ savedFiles finishInfo) :
      file.name ≠ (playlistFile createTorrentFile finishInfo).name := by
    obtain ⟨chunkInfo, _, _, rfl⟩ := mem_savedFiles.mp isSaved
    exact hashToFileName_ne_playlist chunkInfo.chunkInfoHash
  constructor
  · rintro ⟨sandboxFsTree, isCompleted, holds⟩
    cases completed.symm.trans isCompleted
    rw [isContents] at holds
    constructor
    · exact (sameAdmits _).mp holds.holdsPlaylist.admits
    · intro file isSaved
      exact (sameAdmits file).mp (holds.holdsSaved file isSaved).admits
    · intro first isFirst second isSecond savesFirst savesSecond sameHash
      obtain ⟨info, isInfo, stores⟩ :=
        holds.holdsSaved first.file (mem_savedFiles.mpr ⟨first, isFirst, savesFirst, rfl⟩)
      obtain ⟨other, isOther, storesOther⟩ :=
        holds.holdsSaved second.file (mem_savedFiles.mpr ⟨second, isSecond, savesSecond, rfl⟩)
      have sameName : second.file.name = first.file.name := congrArg hashToFileName sameHash.symm
      rw [sameName, isInfo] at isOther
      cases isOther
      exact (stores.unique storesOther).2
  · intro takes
    refine ⟨changed, completed, ?_⟩
    rw [isContents]
    constructor
    · apply FsContents.holdsFile_of_admits ((sameAdmits _).mpr takes.admitsPlaylist)
        (List.mem_append_right _ (List.mem_singleton_self _))
      intro other member sameName
      rcases List.mem_append.mp member with isSaved | isPlaylist
      · exact absurd sameName (named isSaved)
      · rw [List.mem_singleton.mp isPlaylist]
        exact ⟨rfl, rfl⟩
    · intro file isSaved
      apply FsContents.holdsFile_of_admits ((sameAdmits file).mpr (takes.admitsSaved file isSaved))
        (List.mem_append_left _ isSaved)
      intro other member sameName
      rcases List.mem_append.mp member with otherSaved | isPlaylist
      · obtain ⟨first, isFirst, savesFirst, rfl⟩ := mem_savedFiles.mp otherSaved
        obtain ⟨second, isSecond, savesSecond, rfl⟩ := mem_savedFiles.mp isSaved
        have sameHash : first.chunkInfoHash = second.chunkInfoHash :=
          hashToFileName_injective sameName
        exact ⟨sameHash, takes.sizes first isFirst second isSecond savesFirst savesSecond sameHash⟩
      · rw [List.mem_singleton.mp isPlaylist] at sameName
        exact absurd sameName.symm (named isSaved)
    · obtain ⟨name, statistics, old, isFolder⟩ := FsContents.folder_of_addFolders creatable
      refine ⟨name, statistics, old, isFolder, ?_⟩
      rw [FsContents.fillStreamFolder_folder, isFolder]
      rfl
    · intro names notFolder elsewhere
      exact FsContents.fillStreamFolder_elsewhere notFolder elsewhere

/-! ## Samples -/

def liveRequest : StreamRequest where
  streamId := 40
  streamerKey := 41
  folder := "live"
  maxSizeBytes := 1000

def liveFinishInfo : List FinishStreamChunkInfo :=
  [{ chunkIndex := 0, chunkInfoHash := 11, durationMks := 2500000, sizeBytes := 30 }]

def emptyFsTree : FsEntryTree := ⟨FsEntry.emptyRoot, FsEntry.isTree_emptyRoot⟩

/-- A stream has been saved in the folder before. -/
def streamedFsTree : FsEntryTree :=
  (emptyFsTree.completeStreamFinishing (fun _ => 1) 1 { liveRequest with streamId := 39 } []).getD
    emptyFsTree

theorem creatable_of_addFolder {fsTree : FsEntryTree} {nextNode : Nat} {path : FsPath}
    (added : (fsTree.addFolder nextNode path).isSome = true) :
    ¬ fsTree.1.contents.PassesFile path.elements := by
  rw [← @addFolder_eq_none_iff _ nextNode]
  intro none
  rw [none] at added
  cases added

/-- The first stream into a folder. -/
theorem emptyFsTree_holdsStream :
    ∃ sandboxFsTree,
      emptyFsTree.completeStreamFinishing (fun _ => 2) 1 liveRequest liveFinishInfo =
        some sandboxFsTree ∧
      FsContents.HoldsStream (emptyFsTree.1.contents.addFolders (FsPath.parse "live").elements)
        sandboxFsTree.1.contents (FsPath.parse "live").elements 40 (savedFiles liveFinishInfo)
        (playlistFile (fun _ => 2) liveFinishInfo) := by
  apply (completeStreamFinishing_holds_iff (fun _ => 2) 1 liveRequest liveFinishInfo emptyFsTree
    (@creatable_of_addFolder _ 1 _ (by decide +kernel))).mpr
  have nothing (file : File) :
      emptyFsTree.1.contents.Admits (FsPath.parse liveRequest.folder).elements file := by
    have isPath : (FsPath.parse liveRequest.folder).elements = ["live"] := by decide +kernel
    intro info isThere
    rw [isPath] at isThere
    cases isThere
  constructor
  · exact nothing _
  · exact fun file _ => nothing file
  · intro first isFirst second isSecond _ _ _
    rw [List.mem_singleton.mp isFirst, List.mem_singleton.mp isSecond]

/-- The second stream keeps the playlist of the first. -/
theorem streamedFsTree_keepsPlaylist :
    ¬ ∀ (createTorrentFile : String → InfoHash) (nextNode : Nat) (request : StreamRequest)
        (finishInfo : List FinishStreamChunkInfo) (fsTree : FsEntryTree),
      ¬ fsTree.1.contents.PassesFile (FsPath.parse request.folder).elements →
      ∃ sandboxFsTree,
        fsTree.completeStreamFinishing createTorrentFile nextNode request finishInfo =
          some sandboxFsTree ∧
        FsContents.HoldsStream (fsTree.1.contents.addFolders (FsPath.parse request.folder).elements)
          sandboxFsTree.1.contents (FsPath.parse request.folder).elements request.streamId
          (savedFiles finishInfo) (playlistFile createTorrentFile finishInfo) := by
  intro all
  obtain ⟨sandboxFsTree, completed, holds⟩ := all (fun _ => 2) 3 liveRequest liveFinishInfo
    streamedFsTree (@creatable_of_addFolder _ 3 _ (by decide +kernel))
  obtain ⟨info, isThere, stores⟩ := holds.holdsPlaylist
  have kept : ((streamedFsTree.completeStreamFinishing (fun _ => 2) 3 liveRequest
      liveFinishInfo).bind fun tree => tree.1.contents ["live", "playlist.m3u8"]) =
      some (.ofFile (playlistFile (fun _ => 1) [])) := by decide +kernel
  rw [completed, Option.bind_some] at kept
  have isPath : (FsPath.parse liveRequest.folder).elements = ["live"] := by decide +kernel
  rw [isPath] at isThere
  cases isThere.symm.trans kept
  exact absurd stores.1 (by decide +kernel)

end FsEntryTree

end SiriusDrive
