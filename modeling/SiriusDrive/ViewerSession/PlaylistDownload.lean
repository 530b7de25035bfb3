import SiriusDrive.ViewerSession.Downloads

/-! # The download of a playlist

When a viewer has accepted the hash of a playlist it stores the hash and posts the download,
which begins once nothing else is being downloaded.
-/

namespace SiriusDrive.ViewerSession

open Transition

variable {verify : Key → List UInt8 → Signature → Bool} {session base after : ViewerSession}
  {events : List ViewerEvent}

/-- The playlist whose download a step has posted. -/
def startedIn (session : ViewerSession) (_event : ViewerEvent) (after : ViewerSession) :
    List InfoHash :=
  if after.postedDownloads = session.postedDownloads + 1 then
    after.downloadStreamPlaylistInfoHash.toList
  else []

/-- The playlist whose download has begun with a step. -/
def downloadedIn (session : ViewerSession) (_event : ViewerEvent) (after : ViewerSession) :
    List InfoHash :=
  match after.downloading with
  | some (.playlist, hash) => if session.downloading = after.downloading then [] else [hash]
  | _ => []

/-- The playlists whose download a viewer has posted. -/
def startedPlaylists (verify : Key → List UInt8 → Signature → Bool) (session : ViewerSession)
    (events : List ViewerEvent) : List InfoHash :=
  (viewerSystem verify).trace ((viewerSystem verify).ofStep startedIn) session events

def downloadedPlaylists (verify : Key → List UInt8 → Signature → Bool) (session : ViewerSession)
    (events : List ViewerEvent) : List InfoHash :=
  (viewerSystem verify).trace ((viewerSystem verify).ofStep downloadedIn) session events

theorem startedIn_of_le {event : ViewerEvent}
    (le : after.postedDownloads ≤ session.postedDownloads) : startedIn session event after = [] :=
  if_neg (by omega)

theorem startedIn_of_posted {event : ViewerEvent} {hash : InfoHash}
    (posted : after.postedDownloads = session.postedDownloads + 1)
    (stored : after.downloadStreamPlaylistInfoHash = some hash) :
    startedIn session event after = [hash] := by
  rw [startedIn, if_pos posted, stored]
  rfl

theorem downloadedIn_of_same {event : ViewerEvent} (same : after.downloading = session.downloading) :
    downloadedIn session event after = [] := by
  unfold downloadedIn
  split
  · exact if_pos same.symm
  · rfl

theorem downloadedIn_of_ne {event : ViewerEvent}
    (other : ∀ hash, after.downloading ≠ some (.playlist, hash)) :
    downloadedIn session event after = [] := by
  unfold downloadedIn
  split
  · rename_i hash isPlaylist
    exact absurd isPlaylist (other hash)
  · rfl

theorem downloadedIn_of_playlist {event : ViewerEvent} {hash : InfoHash}
    (begins : after.downloading = some (.playlist, hash))
    (other : ∀ hash, session.downloading ≠ some (.playlist, hash)) :
    downloadedIn session event after = [hash] := by
  unfold downloadedIn
  rw [begins]
  exact if_neg (other hash)

theorem handle_of_step {event : ViewerEvent}
    (step : (viewerSystem verify).step session event = some after) :
    session.handle verify event = some after := by
  simp only [viewerSystem] at step
  split at step
  · cases step
  · exact step

/-! ## How far the download is -/

/-- A playlist is waited for, being downloaded or has been downloaded, with the hashes whose
    download was posted and those whose download has begun. -/
inductive PlaylistStage (session : ViewerSession) : List InfoHash → List InfoHash → Prop
  | nothing (received : session.playlistInfoHashReceived = false)
      (stored : session.downloadStreamPlaylistInfoHash = none)
      (live : ∀ download ∈ session.downloading, download.1 = .chunk) :
      PlaylistStage session [] []
  | waits (hash : InfoHash) (received : session.playlistInfoHashReceived = true)
      (stored : session.downloadStreamPlaylistInfoHash = some hash)
      (live : ∀ download ∈ session.downloading, download.1 = .chunk)
      (due : 0 < session.postedDownloads ∨ session.downloading.isSome = true) :
      PlaylistStage session [hash] []
  | downloads (hash : InfoHash) (received : session.playlistInfoHashReceived = true)
      (stored : session.downloadStreamPlaylistInfoHash = some hash)
      (downloading : session.downloading = some (.playlist, hash)) :
      PlaylistStage session [hash] [hash]
  | done (hash : InfoHash) (received : session.playlistInfoHashReceived = true)
      (stored : session.downloadStreamPlaylistInfoHash = none)
      (other : ∀ download ∈ session.downloading, download.1 ≠ .playlist) :
      PlaylistStage session [hash] [hash]

/-- What the stage depends on. -/
structure SameDownload (session after : ViewerSession) : Prop where
  received : after.playlistInfoHashReceived = session.playlistInfoHashReceived
  stored : after.downloadStreamPlaylistInfoHash = session.downloadStreamPlaylistInfoHash
  downloading : after.downloading = session.downloading
  postedDownloads : after.postedDownloads = session.postedDownloads

/-- A step takes the download of the playlist from stage to stage. -/
def PlaylistSteps (session : ViewerSession) (event : ViewerEvent) (after : ViewerSession) : Prop :=
  ∀ started begun, session.PlaylistStage started begun →
    after.PlaylistStage (started ++ session.startedIn event after)
      (begun ++ session.downloadedIn event after)

section
variable {event : ViewerEvent} {started begun : List InfoHash}

theorem ne_playlist_of_live (live : ∀ download ∈ session.downloading, download.1 = .chunk)
    (hash : InfoHash) : session.downloading ≠ some (.playlist, hash) := by
  intro isPlaylist
  cases live _ isPlaylist

/-- A step that posts and begins no download. -/
theorem PlaylistStage.quiet (stage : after.PlaylistStage started begun)
    (fewer : after.postedDownloads ≤ session.postedDownloads)
    (nothing : session.downloadedIn event after = []) :
    after.PlaylistStage (started ++ session.startedIn event after)
      (begun ++ session.downloadedIn event after) := by
  rw [startedIn_of_le fewer, nothing, List.append_nil, List.append_nil]
  exact stage

/-- A step that begins a download. -/
theorem PlaylistStage.begins {hash : InfoHash} (stage : after.PlaylistStage started [hash])
    (fewer : after.postedDownloads ≤ session.postedDownloads)
    (isPlaylist : after.downloading = some (.playlist, hash))
    (other : ∀ hash, session.downloading ≠ some (.playlist, hash)) :
    after.PlaylistStage (started ++ session.startedIn event after)
      ([] ++ session.downloadedIn event after) := by
  rw [startedIn_of_le fewer, downloadedIn_of_playlist isPlaylist other, List.append_nil]
  exact stage

/-- A step that posts a download. -/
theorem PlaylistStage.posts {hash : InfoHash} (stage : after.PlaylistStage [hash] [])
    (posted : after.postedDownloads = session.postedDownloads + 1)
    (stored : after.downloadStreamPlaylistInfoHash = some hash)
    (same : after.downloading = session.downloading) :
    after.PlaylistStage ([] ++ session.startedIn event after)
      ([] ++ session.downloadedIn event after) := by
  rw [startedIn_of_posted posted stored, downloadedIn_of_same same]
  exact stage

theorem playlistSteps_of_same (same : SameDownload session after) :
    session.PlaylistSteps event after := by
  intro started begun stage
  refine .quiet ?_ (Nat.le_of_eq same.postedDownloads) (downloadedIn_of_same same.downloading)
  cases stage with
  | nothing received stored live =>
      exact .nothing (same.received.trans received) (same.stored.trans stored)
        (same.downloading ▸ live)
  | waits hash received stored live due =>
      refine .waits hash (same.received.trans received) (same.stored.trans stored)
        (same.downloading ▸ live) ?_
      rw [same.postedDownloads, same.downloading]
      exact due
  | downloads hash received stored downloading =>
      exact .downloads hash (same.received.trans received) (same.stored.trans stored)
        (same.downloading.trans downloading)
  | done hash received stored other =>
      exact .done hash (same.received.trans received) (same.stored.trans stored)
        (same.downloading ▸ other)

theorem downloading_loadChunk (idle : base.downloading = none) :
    base.loadChunk.downloadStreamPlaylistInfoHash = base.downloadStreamPlaylistInfoHash ∧
      base.loadChunk.postedDownloads = base.postedDownloads ∧
      ∀ download ∈ base.loadChunk.downloading, download.1 = .chunk := by
  rw [loadChunk]
  split
  · exact ⟨rfl, rfl, by simp [idle]⟩
  · split
    · exact ⟨rfl, rfl, by simp [idle]⟩
    · refine ⟨rfl, rfl, ?_⟩
      intro download isThere
      cases isThere
      rfl

theorem downloadPlaylist_of_some {hash : InfoHash}
    (stored : base.downloadStreamPlaylistInfoHash = some hash) :
    base.downloadPlaylist = { base with downloading := some (.playlist, hash) } := by
  rw [downloadPlaylist, stored]

theorem downloadPlaylist_of_none (stored : base.downloadStreamPlaylistInfoHash = none) :
    base.downloadPlaylist = { base with isBroken := true } := by
  rw [downloadPlaylist, stored]

/-- Nothing else is being downloaded: the playlist is, if its hash is stored. -/
theorem playlistSteps_downloadPlaylist
    (received : base.playlistInfoHashReceived = session.playlistInfoHashReceived)
    (stored : base.downloadStreamPlaylistInfoHash = session.downloadStreamPlaylistInfoHash)
    (fewer : base.postedDownloads ≤ session.postedDownloads) (idle : base.downloading = none)
    (notPlaylist : ∀ hash, session.downloading ≠ some (.playlist, hash)) :
    session.PlaylistSteps event base.downloadPlaylist := by
  intro started begun stage
  cases stage with
  | nothing isReceived none live =>
      have broken := downloadPlaylist_of_none (stored.trans none)
      rw [broken]
      exact .quiet (.nothing (received.trans isReceived) (stored.trans none) (by simp [idle])) fewer
        (downloadedIn_of_ne (by simp [idle]))
  | waits hash isReceived isHash =>
      have begins := downloadPlaylist_of_some (stored.trans isHash)
      rw [begins]
      exact .begins (.downloads hash (received.trans isReceived) (stored.trans isHash) rfl) fewer rfl
        notPlaylist
  | downloads hash _ _ isPlaylist => exact absurd isPlaylist (notPlaylist hash)
  | done hash isReceived none other =>
      have broken := downloadPlaylist_of_none (stored.trans none)
      rw [broken]
      exact .quiet (.done hash (received.trans isReceived) (stored.trans none) (by simp [idle])) fewer
        (downloadedIn_of_ne (by simp [idle]))

/-- The viewer looks for something to download, after the download of a chunk or at any time. -/
theorem playlistSteps_tryLoadNextChunk
    (received : base.playlistInfoHashReceived = session.playlistInfoHashReceived)
    (stored : base.downloadStreamPlaylistInfoHash = session.downloadStreamPlaylistInfoHash)
    (posted : base.postedDownloads = session.postedDownloads)
    (downloading : base.downloading = session.downloading ∨ base.downloading = none ∧
      ∀ hash, session.downloading ≠ some (.playlist, hash)) :
    session.PlaylistSteps event base.tryLoadNextChunk := by
  by_cases busy : base.downloading.isSome = true
  · -- the download that is running goes on
    have same : base.downloading = session.downloading := by
      rcases downloading with same | ⟨idle, -⟩
      · exact same
      · simp [idle] at busy
    rw [tryLoadNextChunk, if_pos busy]
    exact playlistSteps_of_same ⟨received, stored, same, posted⟩
  · have idle : base.downloading = none := by simpa using busy
    have notPlaylist : ∀ hash, session.downloading ≠ some (.playlist, hash) := by
      rcases downloading with same | ⟨-, other⟩
      · intro hash
        rw [← same, idle]
        simp
      · exact other
    rw [tryLoadNextChunk, if_neg busy]
    cases isStored : base.downloadStreamPlaylistInfoHash with
    | some hash =>
        rw [if_pos (Option.isSome_some)]
        exact playlistSteps_downloadPlaylist received stored (Nat.le_of_eq posted) idle notPlaylist
    | none =>
        have same := isStored.symm.trans stored
        rw [if_neg (by simp)]
        obtain ⟨sameStored, samePosted, live⟩ := downloading_loadChunk idle
        have sameReceived := (@downloads_loadChunk base).received.trans received
        intro started begun stage
        refine .quiet ?_ (Nat.le_of_eq (samePosted.trans posted))
          (downloadedIn_of_ne (ne_playlist_of_live live))
        cases stage with
        | nothing isReceived =>
            exact .nothing (sameReceived.trans isReceived) (sameStored.trans isStored) live
        | waits hash _ isHash => cases same.trans isHash
        | downloads hash _ _ isPlaylist => exact absurd isPlaylist (notPlaylist hash)
        | done hash isReceived =>
            refine .done hash (sameReceived.trans isReceived) (sameStored.trans isStored) ?_
            intro download isThere
            rw [live download isThere]
            exact ViewerDownload.noConfusion

theorem playlistSteps_runPostedDownload : session.PlaylistSteps event session.runPostedDownload := by
  simp only [runPostedDownload]
  split
  · rename_i busy
    intro started begun stage
    refine .quiet ?_ (Nat.sub_le _ _) (downloadedIn_of_same rfl)
    cases stage with
    | nothing received stored live => exact .nothing received stored live
    | waits hash received stored live => exact .waits hash received stored live (.inr busy)
    | downloads hash received stored downloading => exact .downloads hash received stored downloading
    | done hash received stored other => exact .done hash received stored other
  · rename_i busy
    have idle : session.downloading = none := by simpa using busy
    exact playlistSteps_downloadPlaylist rfl rfl (Nat.sub_le _ _) idle (by simp [idle])

/-- The chunks a playlist names are downloaded when the playlist has been. -/
theorem playlistSteps_of_done
    (received : after.playlistInfoHashReceived = session.playlistInfoHashReceived)
    (stored : after.downloadStreamPlaylistInfoHash = none)
    (posted : after.postedDownloads = session.postedDownloads)
    (other : ∀ download ∈ after.downloading, download.1 ≠ .playlist)
    (notLive : ∃ download ∈ session.downloading, download.1 ≠ .chunk) :
    session.PlaylistSteps event after := by
  obtain ⟨download, isThere, notChunk⟩ := notLive
  have notPlaylist : ∀ hash, after.downloading ≠ some (.playlist, hash) := by
    intro hash isPlaylist
    exact other _ isPlaylist rfl
  intro started begun stage
  refine .quiet ?_ (Nat.le_of_eq posted) (downloadedIn_of_ne notPlaylist)
  cases stage with
  | nothing _ _ live => exact absurd (live _ isThere) notChunk
  | waits _ _ _ live => exact absurd (live _ isThere) notChunk
  | downloads hash isReceived => exact .done hash (received.trans isReceived) stored other
  | done hash isReceived => exact .done hash (received.trans isReceived) stored other

theorem downloading_continueDownloadChunks (idle : base.downloading = none)
    (chunks : List InfoHash) :
    (base.continueDownloadChunks chunks).downloadStreamPlaylistInfoHash =
        base.downloadStreamPlaylistInfoHash ∧
      (base.continueDownloadChunks chunks).postedDownloads = base.postedDownloads ∧
      ∀ download ∈ (base.continueDownloadChunks chunks).downloading, download.1 ≠ .playlist := by
  rw [continueDownloadChunks]
  split
  · exact ⟨rfl, rfl, by simp [idle]⟩
  · refine ⟨rfl, rfl, ?_⟩
    intro download isThere
    cases isThere
    exact ViewerDownload.noConfusion

theorem playlistSteps_downloadCompleted {download : ViewerDownload} {hash : InfoHash}
    (isDownload : session.downloading = some (download, hash)) (chunks : Option (List InfoHash)) :
    session.PlaylistSteps event (session.downloadCompleted chunks download) := by
  have received := (@downloads_downloadCompleted session chunks download).received
  cases download with
  | chunk =>
      refine playlistSteps_tryLoadNextChunk rfl rfl rfl (.inr ⟨rfl, ?_⟩)
      intro other isPlaylist
      cases isDownload.symm.trans isPlaylist
  | playlist =>
      simp only [downloadCompleted] at received ⊢
      split
      · rename_i chunks
        obtain ⟨stored, posted, other⟩ := @downloading_continueDownloadChunks
          { session with downloading := none, downloadStreamPlaylistInfoHash := none } rfl chunks
        exact playlistSteps_of_done received stored posted other ⟨_, isDownload, by simp⟩
      · exact playlistSteps_of_done rfl rfl rfl (by simp) ⟨_, isDownload, by simp⟩
  | savedChunk =>
      simp only [downloadCompleted] at received ⊢
      obtain ⟨stored, posted, other⟩ := @downloading_continueDownloadChunks
        { session with downloading := none } rfl session.downloadStreamChunks.tail
      intro started begun stage
      cases stage with
      | nothing _ _ live => cases live _ isDownload
      | waits _ _ _ live => cases live _ isDownload
      | downloads _ _ _ isPlaylist => cases isDownload.symm.trans isPlaylist
      | done hash isReceived none notPlaylist =>
          exact playlistSteps_of_done received (stored.trans none) posted other
            ⟨_, isDownload, by simp⟩ _ _ (.done hash isReceived none notPlaylist)

theorem playlistSteps_onChunksInfo (chunkIndex : Nat) (infos : List SignedChunkInfo)
    (isComplete : Bool) :
    session.PlaylistSteps event (session.onChunksInfo verify chunkIndex infos isComplete) := by
  obtain ⟨chunkInfoList, isAdded⟩ := session.addChunkInfos_eq verify infos
  rw [onChunksInfo, isAdded]
  split
  · exact playlistSteps_of_same ⟨rfl, rfl, rfl, rfl⟩
  · split
    · exact playlistSteps_tryLoadNextChunk rfl rfl rfl (.inl rfl)
    · exact playlistSteps_of_same ⟨rfl, rfl, rfl, rfl⟩

/-- The vote is over once a hash has been accepted. -/
theorem playlistSteps_onPlaylistHash (endpoint : Endpoint) (streamId : Hash256)
    (playlistInfoHash : InfoHash) :
    session.PlaylistSteps event (session.onPlaylistHash endpoint streamId playlistInfoHash) := by
  rw [onPlaylistHash]
  split
  · exact playlistSteps_of_same ⟨rfl, rfl, rfl, rfl⟩
  · rename_i notReceived
    split
    · exact playlistSteps_of_same ⟨rfl, rfl, rfl, rfl⟩
    · split
      · exact playlistSteps_of_same ⟨rfl, rfl, rfl, rfl⟩
      · simp only
        split
        · rename_i hash accepted
          intro started begun stage
          cases stage with
          | nothing received stored live =>
              exact .posts (.waits hash rfl rfl live (.inl (Nat.succ_pos _))) rfl rfl rfl
          | waits _ received => exact absurd received notReceived
          | downloads _ received => exact absurd received notReceived
          | done _ received => exact absurd received notReceived
        · exact playlistSteps_of_same ⟨rfl, rfl, rfl, rfl⟩

theorem playlistSteps_handle (step : session.handle verify event = some after) :
    session.PlaylistSteps event after := by
  cases event with
  | startWatchingLiveStream streamId streamerKey replicators =>
      cases step
      rw [startWatchingLiveStream]
      split
      · exact playlistSteps_of_same ⟨rfl, rfl, rfl, rfl⟩
      · exact playlistSteps_of_same ⟨rfl, rfl, rfl, rfl⟩
  | chunksInfo chunkIndex infos isComplete =>
      cases step
      exact playlistSteps_onChunksInfo chunkIndex infos isComplete
  | playlistHash endpoint streamId playlistInfoHash =>
      cases step
      exact playlistSteps_onPlaylistHash endpoint streamId playlistInfoHash
  | runPostedDownload =>
      simp only [handle] at step
      split at step
      · cases step
      · cases step
        exact playlistSteps_runPostedDownload
  | downloadCompleted chunks =>
      simp only [handle] at step
      split at step
      · rename_i download hash isDownload
        split at step
        · cases step
        · cases step
          exact playlistSteps_downloadCompleted isDownload chunks
      · cases step
  | downloadFailed =>
      simp only [handle] at step
      split at step
      · cases step
        exact playlistSteps_of_same ⟨rfl, rfl, rfl, rfl⟩
      · cases step

end

theorem playlistStage_of_run {started begun : List InfoHash}
    (stage : session.PlaylistStage started begun)
    (run : (viewerSystem verify).exec session events = some after) :
    after.PlaylistStage (started ++ startedPlaylists verify session events)
      (begun ++ downloadedPlaylists verify session events) := by
  induction events generalizing session started begun with
  | nil =>
      cases run
      simpa [startedPlaylists, downloadedPlaylists, trace] using stage
  | cons event events ih =>
      obtain ⟨next, step, rest⟩ := (exec_cons_iff _).mp run
      have later := ih (playlistSteps_handle (handle_of_step step) started begun stage) rest
      rw [startedPlaylists, downloadedPlaylists, trace_cons step, trace_cons step, ofStep_eq step,
        ofStep_eq step, ← List.append_assoc, ← List.append_assoc]
      exact later

/-- The viewer downloads what it has posted, and nothing is left of that when it has nothing to
    download any more. -/
structure DownloadsStarted (verify : Key → List UInt8 → Signature → Bool)
    (events : List ViewerEvent) (after : ViewerSession) : Prop where
  started : ∀ hash ∈ downloadedPlaylists verify {} events, hash ∈ startedPlaylists verify {} events
  downloaded : after.postedDownloads = 0 → after.downloading = none →
    ∀ hash ∈ startedPlaylists verify {} events, hash ∈ downloadedPlaylists verify {} events

theorem PlaylistStage.downloads_started {started begun : List InfoHash}
    (stage : session.PlaylistStage started begun) :
    (∀ hash ∈ begun, hash ∈ started) ∧ (session.postedDownloads = 0 → session.downloading = none →
      ∀ hash ∈ started, hash ∈ begun) := by
  cases stage with
  | nothing => exact ⟨fun hash isBegun => isBegun, fun _ _ hash isStarted => isStarted⟩
  | waits hash _ _ _ due =>
      refine ⟨fun other isBegun => (nomatch isBegun), fun nonePosted idle => ?_⟩
      rcases due with isPosted | busy
      · omega
      · simp [idle] at busy
  | downloads => exact ⟨fun hash isBegun => isBegun, fun _ _ hash isStarted => isStarted⟩
  | done => exact ⟨fun hash isBegun => isBegun, fun _ _ hash isStarted => isStarted⟩

theorem downloadsStarted (run : (viewerSystem verify).exec {} events = some after) :
    DownloadsStarted verify events after := by
  have stage := playlistStage_of_run (.nothing rfl rfl (by simp)) run
  obtain ⟨started, downloaded⟩ := stage.downloads_started
  exact ⟨started, downloaded⟩

end SiriusDrive.ViewerSession
