import Mathlib.Data.Finset.Card
import SiriusDrive.Lib.Transition
import SiriusDrive.RcptPacket
import SiriusDrive.TaskEvents

/-! # The viewer of a live stream

`DefaultViewerSession` asks the replicators of a drive for the chunks of a stream and
downloads them one by one. When the stream has ended it asks for the hash of the
playlist, and downloads what the playlist names.
-/

namespace SiriusDrive

open FixedBytes

/-- `ChunkInfo` with its signature. -/
structure SignedChunkInfo extends ChunkInfo where
  sign : Signature
  deriving Repr, DecidableEq

namespace SignedChunkInfo

/-- The buffers a streamer signs, one after the other. -/
def signedBytes (info : SignedChunkInfo) : List UInt8 :=
  FixedBytes.arrayBytes 32 info.streamId ++ (encode 4 info.chunkIndex ++
    (FixedBytes.arrayBytes 32 info.chunkInfoHash ++
      (encode 4 info.durationMks ++ encode 8 info.sizeBytes)))

end SignedChunkInfo

/-- `ViewerChunkInfo`. -/
structure ViewerChunkInfo extends SignedChunkInfo where
  offsetMs : Nat
  isDownloaded : Bool := false
  deriving Repr, DecidableEq

/-- `udp::endpoint`, as a number that respects the order of `std::map`. -/
abbrev Endpoint := Nat

/-- What a viewer downloads, one at a time. -/
inductive ViewerDownload where
  | chunk
  | playlist
  | savedChunk
  deriving Repr, DecidableEq

/-- `DefaultViewerSession`. -/
structure ViewerSession where
  liveStreamId : Option Hash256 := none
  streamerKey : Key := 0
  replicatorSet : Finset ReplicatorKey := ∅
  chunkInfoList : List ViewerChunkInfo := []
  /-- `m_downloadingLtHandle`. -/
  downloading : Option (ViewerDownload × InfoHash) := none
  /-- The download has failed, which does not reset the handle. -/
  downloadHasFailed : Bool := false
  tobeDownloadedChunkIndex : Nat := 0
  playlistInfoHashMap : Std.TreeMap Endpoint InfoHash := ∅
  playlistInfoHashReceived : Bool := false
  downloadStreamPlaylistInfoHash : Option InfoHash := none
  /-- What `startDownloadFinishedStream` has posted. -/
  postedDownloads : Nat := 0
  /-- The chunks of the playlist, from the one the iterator is at. -/
  downloadStreamChunks : List InfoHash := []
  /-- An assertion has failed, or an empty optional has been read. -/
  isBroken : Bool := false

namespace ViewerSession

variable (verify : Key → List UInt8 → Signature → Bool) (session : ViewerSession)

def startWatchingLiveStream (streamId : Hash256) (streamerKey : Key)
    (replicators : List ReplicatorKey) : ViewerSession :=
  if session.liveStreamId.isSome then { session with isBroken := true }
  else
    { session with
      liveStreamId := some streamId
      streamerKey
      replicatorSet := session.replicatorSet ∪ replicators.toFinset }

/-! ## Chunks -/

/-- `addChunkInfo`: false if the rest of the response is of no use. -/
def addChunkInfo (info : SignedChunkInfo) : ViewerSession × Bool :=
  let newIndex := session.chunkInfoList.length % 2 ^ 32
  if newIndex ≠ info.chunkIndex then (session, newIndex > info.chunkIndex)
  else if !verify session.streamerKey info.signedBytes info.sign then (session, false)
  else
    let offsetMs :=
      match session.chunkInfoList.getLast? with
      | some last => (last.offsetMs + last.durationMks) % 2 ^ 32
      | none => 0
    ({ session with
        chunkInfoList := session.chunkInfoList ++ [{ toSignedChunkInfo := info, offsetMs }] }, true)

/-- The loop over the chunks of a response. -/
def addChunkInfos (session : ViewerSession) : List SignedChunkInfo → ViewerSession × Bool
  | [] => (session, true)
  | info :: infos =>
      if (session.addChunkInfo verify info).2 then
        (session.addChunkInfo verify info).1.addChunkInfos infos
      else ((session.addChunkInfo verify info).1, false)

theorem addChunkInfo_eq (info : SignedChunkInfo) : ∃ chunkInfoList,
    (session.addChunkInfo verify info).1 = { session with chunkInfoList } := by
  simp only [addChunkInfo]
  split
  · exact ⟨session.chunkInfoList, rfl⟩
  · split
    · exact ⟨session.chunkInfoList, rfl⟩
    · exact ⟨_, rfl⟩

theorem addChunkInfos_eq (infos : List SignedChunkInfo) : ∃ chunkInfoList,
    (session.addChunkInfos verify infos).1 = { session with chunkInfoList } := by
  induction infos generalizing session with
  | nil => exact ⟨session.chunkInfoList, rfl⟩
  | cons info infos ih =>
      obtain ⟨first, isFirst⟩ := session.addChunkInfo_eq verify info
      rw [addChunkInfos, isFirst]
      split
      · exact ih { session with chunkInfoList := first }
      · exact ⟨first, rfl⟩

def downloadPlaylist : ViewerSession :=
  match session.downloadStreamPlaylistInfoHash with
  | some playlistInfoHash => { session with downloading := some (.playlist, playlistInfoHash) }
  | none => { session with isBroken := true }

/-- The chunk `tryLoadNextChunk` downloads when nothing else is being downloaded. -/
def loadChunk : ViewerSession :=
  match session.chunkInfoList[session.tobeDownloadedChunkIndex]? with
  | none => session
  | some chunkInfo =>
      if session.tobeDownloadedChunkIndex ≠ chunkInfo.chunkIndex then
        { session with isBroken := true }
      else
        { session with
          tobeDownloadedChunkIndex := session.tobeDownloadedChunkIndex + 1
          downloading := some (.chunk, chunkInfo.chunkInfoHash) }

def tryLoadNextChunk : ViewerSession :=
  if session.downloading.isSome then session
  else if session.downloadStreamPlaylistInfoHash.isSome then session.downloadPlaylist
  else session.loadChunk

/-- The response to 'get-chunks-info': an index, and the chunk infos that could be read. -/
def onChunksInfo (chunkIndex : Nat) (infos : List SignedChunkInfo) (isComplete : Bool) :
    ViewerSession :=
  -- the stream has ended, or has not begun
  if chunkIndex = 0xffffFFFF ∨ chunkIndex = 0xffffFFF0 then session
  else if (session.addChunkInfos verify infos).2 && isComplete then
    (session.addChunkInfos verify infos).1.tryLoadNextChunk
  else (session.addChunkInfos verify infos).1

/-! ## The playlist -/

/-- The loop over the answers: the first hash which has been met often enough before. -/
def electedHash (enough : Nat) (votingMap : Std.TreeMap InfoHash Nat) :
    List InfoHash → Option InfoHash
  | [] => none
  | hash :: hashes =>
      if (votingMap[hash]?).getD 0 ≥ enough then some hash
      else electedHash enough (votingMap.insert hash ((votingMap[hash]?).getD 0 + 1)) hashes

/-- The number both thresholds are made of. -/
def voteThreshold : Nat := session.replicatorSet.card * 2 / 3 + 1

def startDownloadFinishedStream (playlistInfoHash : InfoHash) : ViewerSession :=
  { session with
    downloadStreamPlaylistInfoHash := some playlistInfoHash
    postedDownloads := session.postedDownloads + 1 }

/-- The hash that is accepted with the answers that have come in. -/
def acceptedHash : Option InfoHash :=
  if session.playlistInfoHashMap.size > session.voteThreshold then
    electedHash session.voteThreshold ∅ (session.playlistInfoHashMap.toList.map Prod.snd)
  else none

def noteAnswer (endpoint : Endpoint) (playlistInfoHash : InfoHash) : ViewerSession :=
  { session with
    playlistInfoHashMap := session.playlistInfoHashMap.insert endpoint playlistInfoHash }

/-- The answer is for the stream that is watched, and has been awaited. -/
def IsAwaited (streamId : Hash256) : Prop :=
  session.playlistInfoHashReceived = false ∧ session.liveStreamId = some streamId

instance (streamId : Hash256) : Decidable (session.IsAwaited streamId) :=
  inferInstanceAs (Decidable (_ ∧ _))

def onPlaylistHash (endpoint : Endpoint) (streamId : Hash256) (playlistInfoHash : InfoHash) :
    ViewerSession :=
  if session.playlistInfoHashReceived then session
  else if session.liveStreamId = none then { session with isBroken := true }
  else if session.liveStreamId ≠ some streamId then session
  else
    let session := session.noteAnswer endpoint playlistInfoHash
    match session.acceptedHash with
    | some hash => { session with playlistInfoHashReceived := true }.startDownloadFinishedStream hash
    | none => session

/-- What `startDownloadFinishedStream` posts. -/
def runPostedDownload : ViewerSession :=
  let session := { session with postedDownloads := session.postedDownloads - 1 }
  if session.downloading.isSome then session else session.downloadPlaylist

/-- The chunk has been downloaded while the stream was live. -/
def hasChunk (hash : InfoHash) : Bool :=
  match session.chunkInfoList.find? (·.chunkInfoHash = hash) with
  | some chunkInfo => chunkInfo.isDownloaded
  | none => false

/-- `continueDownloadChunks`, from the first chunk that is left. -/
def continueDownloadChunks (chunks : List InfoHash) : ViewerSession :=
  match chunks.dropWhile session.hasChunk with
  | [] => { session with downloadStreamChunks := [] }
  | hash :: rest =>
      { session with downloadStreamChunks := hash :: rest, downloading := some (.savedChunk, hash) }

def markDownloaded : ViewerSession :=
  { session with
    chunkInfoList := session.chunkInfoList.modify (session.tobeDownloadedChunkIndex - 1)
      ({ · with isDownloaded := true }) }

/-- The notification `download_complete`, with the chunks `downloadChunks` finds in the playlist
    unless it gives up. -/
def downloadCompleted (chunks : Option (List InfoHash)) : ViewerDownload → ViewerSession
  | .chunk => { session.markDownloaded with downloading := none }.tryLoadNextChunk
  | .playlist =>
      let session := { session with downloading := none, downloadStreamPlaylistInfoHash := none }
      match chunks with
      | some chunks => session.continueDownloadChunks chunks
      | none => session
  | .savedChunk =>
      { session with downloading := none }.continueDownloadChunks session.downloadStreamChunks.tail

/-! ## The system -/

inductive ViewerEvent where
  | startWatchingLiveStream (streamId : Hash256) (streamerKey : Key)
      (replicators : List ReplicatorKey)
  | chunksInfo (chunkIndex : Nat) (infos : List SignedChunkInfo) (isComplete : Bool)
  | playlistHash (endpoint : Endpoint) (streamId : Hash256) (playlistInfoHash : InfoHash)
  | runPostedDownload
  | downloadCompleted (chunks : Option (List InfoHash))
  | downloadFailed

/-- What an event does to the viewer. An event that cannot happen has no result. -/
def handle : ViewerEvent → Option ViewerSession
  | .startWatchingLiveStream streamId streamerKey replicators =>
      some (session.startWatchingLiveStream streamId streamerKey replicators)
  | .chunksInfo chunkIndex infos isComplete =>
      some (session.onChunksInfo verify chunkIndex infos isComplete)
  | .playlistHash endpoint streamId playlistInfoHash =>
      some (session.onPlaylistHash endpoint streamId playlistInfoHash)
  | .runPostedDownload =>
      if session.postedDownloads = 0 then none else some session.runPostedDownload
  | .downloadCompleted chunks =>
      match session.downloading with
      | some (download, _) =>
          if session.downloadHasFailed then none else some (session.downloadCompleted chunks download)
      | none => none
  | .downloadFailed =>
      if session.downloading.isSome then some { session with downloadHasFailed := true } else none

/-- The viewer under everything the replicators answer, until it has broken the program. -/
def viewerSystem : Transition ViewerSession ViewerEvent where
  step session event := if session.isBroken then none else session.handle verify event

end ViewerSession

end SiriusDrive
