import SiriusDrive.FsTree.Contents
import SiriusDrive.TaskEvents

/-! # The folder of a finished stream

What `completeStreamFinishing` makes of the fs tree: the folder of the stream gets an
entry for each chunk that is saved and one for the playlist. An entry is only added
where the folder has none with the name.
-/

namespace SiriusDrive

open KeyedTree

/-! ## The playlist -/

/-- `PLAYLIST_FILE_NAME`. -/
def playlistFileName : String := "playlist.m3u8"

/-- A hash as a stream prints it, in upper case. -/
def printHash (hash : InfoHash) : String :=
  String.ofList ((hexChars hash.toNat 64).map Char.toUpper)

/-- The duration of the longest chunk in seconds, but at least one. -/
def maxDuration (finishInfo : List FinishStreamChunkInfo) : Nat :=
  finishInfo.foldl (fun maxDuration chunkInfo =>
    let seconds := (chunkInfo.durationMks + 100000 - 1) % 2 ^ 32 / 1000000
    if maxDuration < seconds then seconds else maxDuration) 1

def chunkLines (chunkInfo : FinishStreamChunkInfo) : List String :=
  ["#EXTINF:" ++ toString (chunkInfo.durationMks / 1000000) ++ "." ++
      toString (chunkInfo.durationMks % 1000000),
    printHash chunkInfo.chunkInfoHash]

def playlistTxt (finishInfo : List FinishStreamChunkInfo) : String :=
  String.join ((["#EXTM3U", "#EXT-X-VERSION:3",
    "#EXT-X-TARGETDURATION:" ++ toString (maxDuration finishInfo),
    "#EXT-X-MEDIA-SEQUENCE:" ++ toString 0] ++ finishInfo.flatMap chunkLines).map (· ++ "\n"))

/-! ## The entries of the folder -/

def FinishStreamChunkInfo.file (chunkInfo : FinishStreamChunkInfo) : File where
  name := hashToFileName chunkInfo.chunkInfoHash
  hash := chunkInfo.chunkInfoHash
  size := chunkInfo.sizeBytes

/-- The files of the chunks with `m_saveOnDrive`. -/
def savedFiles (finishInfo : List FinishStreamChunkInfo) : List File :=
  (finishInfo.filter (·.saveOnDrive)).map (·.file)

/-- The file of the playlist, with what `createTorrentFile` makes of its text. -/
def playlistFile (createTorrentFile : String → InfoHash)
    (finishInfo : List FinishStreamChunkInfo) : File where
  name := playlistFileName
  hash := createTorrentFile (playlistTxt finishInfo)
  size := (playlistTxt finishInfo).utf8ByteSize

namespace EntryInfo

/-- `m_isaStream` and `m_streamId` are set. -/
def markStream (streamId : Hash256) : EntryInfo → EntryInfo
  | .folder name statistics _ => .folder name statistics (some streamId)
  | .file content isModifiable statistics => .file content isModifiable statistics

@[simp] theorem isFolder_markStream (streamId : Hash256) (info : EntryInfo) :
    (info.markStream streamId).isFolder = info.isFolder := by
  cases info <;> rfl

theorem content_markStream (streamId : Hash256) (info : EntryInfo) :
    (info.markStream streamId).content = info.content.markStream streamId := by
  cases info <;> rfl

def ofFile (file : File) : EntryInfo := .file file false { node := 0 }

end EntryInfo

namespace FsEntry

variable {root folder entry : FsEntry}

/-- `m_childs.emplace` of a file under its name. -/
def emplaceFile (node : Nat) (file : File) : FsEntry → FsEntry
  | .node info childs =>
      match childAt file.name childs with
      | some _ => .node info childs
      | none => .node info (insertChild file.name (.node (.file file false { node }) []) childs)

/-- Files are emplaced in turn, with nodes from a number on. -/
def emplaceFiles (nextNode : Nat) : List File → FsEntry → FsEntry
  | [], folder => folder
  | file :: files, folder => emplaceFiles (nextNode + 1) files (emplaceFile nextNode file folder)

def fillStreamFolder (nextNode : Nat) (streamId : Hash256) (files : List File)
    (streamFolder : FsEntry) : FsEntry :=
  mapInfo (emplaceFiles nextNode files streamFolder) (·.markStream streamId)

/-- `completeStreamFinishing`, as far as the fs tree goes. That the folder could not be added is
    only logged; without the folder nothing more is done. -/
def completeStreamFinishing (createTorrentFile : String → InfoHash) (nextNode : Nat)
    (request : StreamRequest) (finishInfo : List FinishStreamChunkInfo) (fsTree : FsEntry) :
    Option FsEntry :=
  let folder := FsPath.parse request.folder
  let sandboxFsTree := (addFolder nextNode folder fsTree).getD fsTree
  (getFolderPtr folder.elements sandboxFsTree).map fun _ =>
    modify (fun info _ _ => info)
      (fillStreamFolder (nextNode + folder.elements.length) request.streamId
        (savedFiles finishInfo ++ [playlistFile createTorrentFile finishInfo]))
      folder.elements sandboxFsTree

/-! ## The tree stays proper -/

theorem WellFormed.emplaceFile (wellFormed : WellFormed entry) (isEntry : isFolder entry = true)
    (node : Nat) (file : File) :
    WellFormed (FsEntry.emplaceFile node file entry) ∧
      isFolder (FsEntry.emplaceFile node file entry) = true := by
  obtain ⟨info, childs⟩ := entry
  rw [FsEntry.emplaceFile]
  split
  · exact ⟨wellFormed, isEntry⟩
  · rename_i absent
    exact ⟨wellFormed.insertChild isEntry (wellFormed_leaf _) absent, isEntry⟩

theorem WellFormed.emplaceFiles (wellFormed : WellFormed entry) (isEntry : isFolder entry = true)
    (nextNode : Nat) (files : List File) :
    WellFormed (FsEntry.emplaceFiles nextNode files entry) ∧
      isFolder (FsEntry.emplaceFiles nextNode files entry) = true := by
  induction files generalizing nextNode entry with
  | nil => exact ⟨wellFormed, isEntry⟩
  | cons file files ih =>
      obtain ⟨proper, kind⟩ := WellFormed.emplaceFile wellFormed isEntry nextNode file
      exact ih proper kind (nextNode + 1)

theorem WellFormed.fillStreamFolder (wellFormed : WellFormed entry)
    (isEntry : isFolder entry = true) (nextNode : Nat) (streamId : Hash256) (files : List File) :
    WellFormed (FsEntry.fillStreamFolder nextNode streamId files entry) ∧
      isFolder (FsEntry.fillStreamFolder nextNode streamId files entry) = isFolder entry := by
  obtain ⟨proper, kind⟩ := WellFormed.emplaceFiles wellFormed isEntry nextNode files
  refine ⟨WellFormed.mapInfo proper (EntryInfo.isFolder_markStream streamId), ?_⟩
  rw [isEntry]
  exact (EntryInfo.isFolder_markStream streamId _).trans kind

theorem IsTree.getD_addFolder (tree : IsTree root) (nextNode : Nat) (path : FsPath) :
    IsTree ((FsEntry.addFolder nextNode path root).getD root) := by
  cases added : FsEntry.addFolder nextNode path root with
  | none => exact tree
  | some folder => exact tree.addFolder added

theorem IsTree.completeStreamFinishing {createTorrentFile : String → InfoHash} {nextNode : Nat}
    {request : StreamRequest} {finishInfo : List FinishStreamChunkInfo} (tree : IsTree root)
    (completed : FsEntry.completeStreamFinishing createTorrentFile nextNode request finishInfo root =
      some folder) : IsTree folder := by
  obtain ⟨streamFolder, isStreamFolder, rfl⟩ := Option.map_eq_some_iff.mp completed
  have proper := tree.getD_addFolder nextNode (FsPath.parse request.folder)
  apply proper.modifyWith fun _ _ _ => rfl
  intro found isFound inner
  cases (find?_of_getFolderPtr isStreamFolder).symm.trans isFound
  exact WellFormed.fillStreamFolder inner (isFolder_of_getFolderPtr isStreamFolder proper.isFolder)
    _ _ _

/-! ## The contents -/

theorem contents_emplaceFile (node : Nat) (file : File) (folder : FsEntry) :
    contents (emplaceFile node file folder) =
      (contents folder).supply [file.name] (.ofFile file) := by
  obtain ⟨info, childs⟩ := folder
  ext names : 1
  rw [emplaceFile, AddressMap.supply]
  split
  · rename_i child isChild
    split
    · rename_i here
      rw [here, contents_cons, childs_node, isChild]
      rfl
    · rfl
  · rename_i absent
    cases names with
    | nil => rfl
    | cons name rest =>
        rw [contents_cons, childs_node, childAt_insertChild absent]
        by_cases same : name = file.name
        · subst same
          rw [if_pos rfl, Option.bind_some, contents_cons, childs_node, absent]
          cases rest with
          | nil =>
              rw [if_pos rfl]
              rfl
          | cons next rest =>
              rw [if_neg (by simp)]
              rfl
        · have elsewhere : name :: rest ≠ [file.name] := by
            intro here
            exact same (List.cons.inj here).1
          rw [if_neg same, if_neg elsewhere]
          exact (contents_cons name rest (.node info childs)).symm

theorem contents_emplaceFiles (nextNode : Nat) (files : List File) (folder : FsEntry) :
    contents (emplaceFiles nextNode files folder) =
      (contents folder).supplyAll (files.map fun file => ([file.name], .ofFile file)) := by
  induction files generalizing nextNode folder with
  | nil => rfl
  | cons file files ih =>
      rw [emplaceFiles, ih, contents_emplaceFile]
      rfl

end FsEntry

/-- The files come to a folder that has no entries with their names, and it is marked. -/
def FsContents.fillStreamFolder (contents : FsContents) (folder : List String)
    (streamId : Hash256) (files : List File) : FsContents :=
  (contents.supplyAll (files.map fun file => (folder ++ [file.name], .ofFile file))).mapAt folder
    (·.markStream streamId)

namespace FsEntry

variable {root folder : FsEntry}

theorem contents_fillStreamFolder {names : List String}
    (isFound : find? names root = some folder) (nextNode : Nat) (streamId : Hash256)
    (files : List File) :
    contents (modify (fun info _ _ => info) (fillStreamFolder nextNode streamId files) names root) =
      (contents root).fillStreamFolder names streamId files := by
  ext address : 1
  rw [contents, observe_modify (fun _ _ _ => rfl) isFound, FsContents.fillStreamFolder,
    AddressMap.mapAt]
  have marked : contents (fillStreamFolder nextNode streamId files folder) =
      (contents (emplaceFiles nextNode files folder)).mapTop (·.markStream streamId) :=
    contents_mapInfo fun info => EntryInfo.content_markStream streamId info
  by_cases below : names <+: address
  · obtain ⟨rest, rfl⟩ := below
    rw [if_pos (List.prefix_append _ _), List.drop_left]
    change contents (fillStreamFolder nextNode streamId files folder) rest = _
    have inside : (contents root).supplyAll
        (files.map fun file => (names ++ [file.name], .ofFile file)) (names ++ rest) =
        contents (emplaceFiles nextNode files folder) rest := by
      rw [contents_emplaceFiles, AddressMap.supplyAll_apply, AddressMap.supplyAll_apply,
        ← below_contents isFound, List.find?_map, List.find?_map]
      simp only [Function.comp_def, List.append_cancel_left_eq, Option.map_map]
      rfl
    rw [marked, inside]
    cases rest with
    | nil => rw [List.append_nil, if_pos rfl]; rfl
    | cons name rest => rw [if_neg (by simp)]; rfl
  · have notHere : address ≠ names := by
      rintro rfl
      exact below (List.prefix_refl _)
    rw [if_neg below, if_neg notHere]
    symm
    apply AddressMap.supplyAll_elsewhere
    rintro entry member rfl
    obtain ⟨file, _, rfl⟩ := List.mem_map.mp member
    exact below (List.prefix_append _ _)

end FsEntry

namespace FsEntryTree

variable {tree changed : FsEntryTree}

variable (tree) in
def completeStreamFinishing (createTorrentFile : String → InfoHash) (nextNode : Nat)
    (request : StreamRequest) (finishInfo : List FinishStreamChunkInfo) : Option FsEntryTree :=
  (FsEntry.completeStreamFinishing createTorrentFile nextNode request finishInfo tree.1).attachWith
    FsEntry.IsTree fun _ completed => tree.2.completeStreamFinishing completed

theorem contents_completeStreamFinishing (createTorrentFile : String → InfoHash) (nextNode : Nat)
    {request : StreamRequest} (finishInfo : List FinishStreamChunkInfo)
    (creatable : ¬ tree.1.contents.PassesFile (FsPath.parse request.folder).elements) :
    ∃ changed, tree.completeStreamFinishing createTorrentFile nextNode request finishInfo =
        some changed ∧
      changed.1.contents =
        (tree.1.contents.addFolders (FsPath.parse request.folder).elements).fillStreamFolder
          (FsPath.parse request.folder).elements request.streamId
          (savedFiles finishInfo ++ [playlistFile createTorrentFile finishInfo]) := by
  cases added : FsEntry.addFolder nextNode (FsPath.parse request.folder) tree.1 with
  | none => exact absurd ((FsEntry.addFolder_eq_none_iff tree.2.isFolder).mp added) creatable
  | some root =>
      obtain ⟨streamFolder, isFolder⟩ :=
        Option.isSome_iff_exists.mp (FsEntry.getFolderPtr_addFolder tree.2 added)
      have completed : FsEntry.completeStreamFinishing createTorrentFile nextNode request finishInfo
          tree.1 = some (modify (fun info _ _ => info)
            (FsEntry.fillStreamFolder (nextNode + (FsPath.parse request.folder).elements.length)
              request.streamId (savedFiles finishInfo ++ [playlistFile createTorrentFile finishInfo]))
            (FsPath.parse request.folder).elements root) := by
        simp only [FsEntry.completeStreamFinishing, added, Option.getD_some, isFolder,
          Option.map_some]
      refine ⟨⟨_, tree.2.completeStreamFinishing completed⟩, ?_, ?_⟩
      · rw [completeStreamFinishing]
        exact (Option.attachWith_eq_some_iff _).mpr completed
      · rw [FsEntry.contents_fillStreamFolder (FsEntry.find?_of_getFolderPtr isFolder),
          FsEntry.contents_addFolder tree.2.isFolder added]

end FsEntryTree

end SiriusDrive
