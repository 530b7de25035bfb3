import SiriusDrive.ViewerSession

/-! # What the downloads of a viewer leave alone

To download something changes neither the chunk infos of a viewer nor the answers it has.
-/

namespace SiriusDrive.ViewerSession

variable {session after : ViewerSession}

/-- The chunk infos that are held, without what the viewer knows about their download. -/
def chunkInfos (session : ViewerSession) : List SignedChunkInfo :=
  session.chunkInfoList.map (·.toSignedChunkInfo)

/-- Only what is downloaded has changed. -/
structure Downloads (session after : ViewerSession) : Prop where
  chunkInfos : after.chunkInfos = session.chunkInfos
  liveStreamId : after.liveStreamId = session.liveStreamId
  streamerKey : after.streamerKey = session.streamerKey
  replicatorSet : after.replicatorSet = session.replicatorSet
  map : after.playlistInfoHashMap = session.playlistInfoHashMap
  received : after.playlistInfoHashReceived = session.playlistInfoHashReceived
  postedDownloads : after.postedDownloads ≤ session.postedDownloads

namespace Downloads

theorem refl (session : ViewerSession) : Downloads session session :=
  ⟨rfl, rfl, rfl, rfl, rfl, rfl, Nat.le_refl _⟩

end Downloads

theorem downloads_downloadPlaylist : Downloads session session.downloadPlaylist := by
  rw [downloadPlaylist]
  split <;> exact ⟨rfl, rfl, rfl, rfl, rfl, rfl, Nat.le_refl _⟩

theorem downloads_loadChunk : Downloads session session.loadChunk := by
  rw [loadChunk]
  split
  · exact .refl session
  · split <;> exact ⟨rfl, rfl, rfl, rfl, rfl, rfl, Nat.le_refl _⟩

theorem downloads_tryLoadNextChunk : Downloads session session.tryLoadNextChunk := by
  rw [tryLoadNextChunk]
  split
  · exact .refl session
  · split
    · exact downloads_downloadPlaylist
    · exact downloads_loadChunk

theorem downloads_runPostedDownload : Downloads session session.runPostedDownload := by
  simp only [runPostedDownload]
  split
  · exact ⟨rfl, rfl, rfl, rfl, rfl, rfl, Nat.sub_le _ _⟩
  · have later := @downloads_downloadPlaylist
      { session with postedDownloads := session.postedDownloads - 1 }
    exact { later with postedDownloads := later.postedDownloads.trans (Nat.sub_le _ _) }

theorem downloads_continueDownloadChunks (chunks : List InfoHash) :
    Downloads session (session.continueDownloadChunks chunks) := by
  rw [continueDownloadChunks]
  split <;> exact ⟨rfl, rfl, rfl, rfl, rfl, rfl, Nat.le_refl _⟩

theorem chunkInfos_markDownloaded : session.markDownloaded.chunkInfos = session.chunkInfos := by
  simp only [chunkInfos, markDownloaded]
  apply List.ext_getElem?
  intro index
  rw [List.getElem?_map, List.getElem?_map, List.getElem?_modify]
  cases session.chunkInfoList[index]? with
  | none => rfl
  | some info =>
      split <;> rfl

theorem downloads_downloadCompleted (chunks : Option (List InfoHash)) (download : ViewerDownload) :
    Downloads session (session.downloadCompleted chunks download) := by
  cases download with
  | chunk =>
      have later := @downloads_tryLoadNextChunk { session.markDownloaded with downloading := none }
      exact { later with chunkInfos := later.chunkInfos.trans chunkInfos_markDownloaded }
  | playlist =>
      simp only [downloadCompleted]
      split
      · rename_i chunks
        have later := @downloads_continueDownloadChunks
          { session with downloading := none, downloadStreamPlaylistInfoHash := none } chunks
        exact { later with }
      · exact ⟨rfl, rfl, rfl, rfl, rfl, rfl, Nat.le_refl _⟩
  | savedChunk =>
      have later := @downloads_continueDownloadChunks { session with downloading := none }
        session.downloadStreamChunks.tail
      exact { later with }

def ViewerEvent.isDownload : ViewerEvent → Bool
  | .runPostedDownload | .downloadCompleted _ | .downloadFailed => true
  | .startWatchingLiveStream .. | .chunksInfo .. | .playlistHash .. => false

theorem downloads_handle {verify : Key → List UInt8 → Signature → Bool} {event : ViewerEvent}
    (isDownload : event.isDownload = true) (step : session.handle verify event = some after) :
    Downloads session after := by
  cases event with
  | startWatchingLiveStream streamId streamerKey replicators => cases isDownload
  | chunksInfo chunkIndex infos isComplete => cases isDownload
  | playlistHash endpoint streamId playlistInfoHash => cases isDownload
  | runPostedDownload =>
      simp only [handle] at step
      split at step
      · cases step
      · cases step
        exact downloads_runPostedDownload
  | downloadCompleted chunks =>
      simp only [handle] at step
      split at step
      · split at step
        · cases step
        · cases step
          exact downloads_downloadCompleted chunks _
      · cases step
  | downloadFailed =>
      simp only [handle] at step
      split at step
      · cases step
        exact ⟨rfl, rfl, rfl, rfl, rfl, rfl, Nat.le_refl _⟩
      · cases step

end SiriusDrive.ViewerSession
