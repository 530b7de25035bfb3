import SiriusDrive.StreamTask
import SiriusDrive.UpdateDriveTaskBase.Version
import SiriusDrive.UpdateDriveTaskBase.Work

/-! # The progress of a stream

What the functions of a stream task that download chunks and complete the stream have
in common: they drop nothing that is scheduled, leave the members of the base class for
the approval alone, and at most stage a sandbox.
-/

namespace SiriusDrive

def ModifyApprovalTaskBase.collecting (task : ModifyApprovalTaskBase) :
    ReceivedOpinions × Timer × List SentApproval :=
  (task.receivedOpinions, task.modifyOpinionTimer, task.sentApprovals)

namespace StreamTask

/-- The functions between download chunks or complete the stream, with a sandbox if
    there is one. -/
structure Proceeds (sandbox : Option SandboxResult) (before after : StreamTask) : Prop where
  work : before.toUpdateDriveTaskBase.Extends after.toUpdateDriveTaskBase
  version : after.version = before.version ∨
    ∃ result ∈ sandbox, after.version = { before.version with staged := some result.rootHash }
  request : after.request = before.request
  collecting : after.collecting = before.collecting

variable {sandbox : Option SandboxResult} {before middle after : StreamTask}

theorem Proceeds.refl (task : StreamTask) : Proceeds sandbox task task :=
  ⟨.refl _, .inl rfl, rfl, rfl⟩

theorem Proceeds.trans (first : Proceeds none before middle)
    (second : Proceeds sandbox middle after) : Proceeds sandbox before after where
  work := first.work.trans second.work
  version := by
    have same : middle.version = before.version := by
      rcases first.version with same | ⟨result, isResult, -⟩
      · exact same
      · simp at isResult
    exact same ▸ second.version
  request := second.request.trans first.request
  collecting := second.collecting.trans first.collecting

theorem Proceeds.comp (second : Proceeds sandbox middle after)
    (first : Proceeds none before middle) : Proceeds sandbox before after :=
  first.trans second

theorem Proceeds.weaken (proceeds : Proceeds none before after) : Proceeds sandbox before after :=
  (Proceeds.refl after).comp proceeds

variable (task : StreamTask)

/-- Functions of the base class proceed if they drop nothing and keep the version. -/
theorem proceeds_base {f : UpdateDriveTaskBase → UpdateDriveTaskBase}
    (work : task.toUpdateDriveTaskBase.Extends (f task.toUpdateDriveTaskBase))
    (version : (f task.toUpdateDriveTaskBase).version = task.version) :
    Proceeds sandbox task (task.base f) :=
  ⟨work, .inl version, rfl, rfl⟩

theorem proceeds_executeOnSessionThread (job : SessionJob) :
    Proceeds sandbox task (task.base (·.executeOnSessionThread job)) :=
  task.proceeds_base (task.persists_executeOnSessionThread job).toExtends rfl

theorem proceeds_executeOnBackgroundThread (job : BackgroundJob) :
    Proceeds sandbox task (task.base (·.executeOnBackgroundThread job)) :=
  task.proceeds_base (task.persists_executeOnBackgroundThread job).toExtends rfl

/-! ## Chunks -/

theorem proceeds_tryDownloadNextChunk : Proceeds sandbox task task.tryDownloadNextChunk := by
  simp only [tryDownloadNextChunk]
  split
  · exact .refl task
  · exact task.proceeds_executeOnSessionThread _

theorem proceeds_storeChunkInfo (chunkInfo : ChunkInfo) :
    Proceeds sandbox task (task.storeChunkInfo chunkInfo) := by
  simp only [storeChunkInfo]
  split <;> exact ⟨.refl _, .inl rfl, rfl, rfl⟩

theorem proceeds_acceptChunkInfoMessage (chunkInfo : ChunkInfo) (isVerified : Bool) :
    Proceeds sandbox task (task.acceptChunkInfoMessage chunkInfo isVerified) := by
  simp only [acceptChunkInfoMessage]
  split
  · exact .refl task
  · split
    · exact .refl task
    · exact (proceeds_tryDownloadNextChunk _).comp (task.proceeds_storeChunkInfo chunkInfo)

theorem proceeds_downloadChunk (chunkInfo : ChunkInfo) :
    Proceeds sandbox task (task.downloadChunk chunkInfo) := by
  simp only [downloadChunk]
  split
  · exact task.proceeds_tryDownloadNextChunk
  · exact ⟨⟨rfl, id, List.Subset.refl _, List.Subset.refl _, List.Subset.refl _⟩, .inl rfl, rfl, rfl⟩

theorem proceeds_startNextChunk : Proceeds sandbox task task.startNextChunk := by
  simp only [startNextChunk]
  split
  · exact .refl task
  · split
    · split
      · exact task.proceeds_base (task.leaves_break _).persists.toExtends rfl
      · exact ⟨.refl _, .inl rfl, rfl, rfl⟩
      · exact (proceeds_downloadChunk _ _).comp ⟨.refl _, .inl rfl, rfl, rfl⟩
    · split
      · exact .refl task
      · exact ⟨.refl _, .inl rfl, rfl, rfl⟩
      · exact (proceeds_downloadChunk _ _).comp ⟨.refl _, .inl rfl, rfl, rfl⟩

theorem proceeds_endDownload :
    Proceeds sandbox task (task.base fun base => { base with downloadingLtHandle := none }) :=
  task.proceeds_base ⟨rfl, id, List.Subset.refl _, List.Subset.refl _, List.Subset.refl _⟩ rfl

theorem proceeds_chunkDownloaded : Proceeds sandbox task task.chunkDownloaded := by
  simp only [chunkDownloaded]
  split
  · exact (proceeds_executeOnBackgroundThread _ _).comp
      ((proceeds_tryDownloadNextChunk _).comp task.proceeds_endDownload)
  · exact (proceeds_tryDownloadNextChunk _).comp task.proceeds_endDownload

theorem proceeds_downloadCompleted (torrent : Torrent) :
    Proceeds sandbox task (task.downloadCompleted torrent) := by
  simp only [downloadCompleted]
  split
  · exact task.proceeds_executeOnBackgroundThread _
  · exact task.proceeds_chunkDownloaded

theorem proceeds_downloadFailed (torrent : Torrent) :
    Proceeds sandbox task (task.downloadFailed torrent) := by
  have erased : Proceeds none task (task.base fun base =>
      { base with
        drive := { base.drive with
          torrentHandleMap := base.drive.torrentHandleMap.erase torrent.infoHash } }) :=
    task.proceeds_base ⟨rfl, id, List.Subset.refl _, List.Subset.refl _, List.Subset.refl _⟩ rfl
  simp only [downloadFailed]
  split
  · exact erased.weaken
  · exact (proceeds_tryDownloadNextChunk _).comp ((proceeds_endDownload _).comp erased)

theorem proceeds_onMetadataReceived (torrent : Torrent) (totalSize : Nat) (isValid : Bool) :
    Proceeds sandbox task (task.onMetadataReceived torrent totalSize isValid) := by
  have set (torrent : Torrent) : Proceeds none task (task.base (·.setTorrent torrent)) :=
    task.proceeds_base ⟨rfl, id, List.Subset.refl _, List.Subset.refl _, List.Subset.refl _⟩ rfl
  simp only [onMetadataReceived]
  split
  · exact (set _).weaken
  · exact (proceeds_downloadFailed _ _).comp (set _)

/-! ## The end of the stream -/

theorem proceeds_acceptFinishStreamTx (finishStream : StreamFinishRequest) :
    Proceeds sandbox task (task.acceptFinishStreamTx finishStream) := by
  simp only [acceptFinishStreamTx]
  split
  · exact .refl task
  · split
    · exact .refl task
    · split
      · exact (proceeds_executeOnBackgroundThread _ _).comp ⟨.refl _, .inl rfl, rfl, rfl⟩
      · exact ⟨⟨rfl, id, List.Subset.refl _, List.Subset.refl _, List.Subset.refl _⟩, .inl rfl, rfl, rfl⟩

theorem proceeds_completeStreamFinishing (result : SandboxResult) :
    Proceeds (some result) task (task.completeStreamFinishing result) := by
  have staged : Proceeds (some result) task (task.base fun base =>
      { base with
        sandboxFsTree := some result.fsTree
        sandboxRootHash := some result.rootHash }.setSandboxSizes result) :=
    ⟨⟨rfl, id, List.Subset.refl _, List.Subset.refl _, List.Subset.refl _⟩,
      .inr ⟨result, rfl, rfl⟩, rfl, rfl⟩
  simp only [completeStreamFinishing]
  split
  · exact staged
  · exact ⟨staged.work.trans (UpdateDriveTaskBase.persists_executeOnSessionThread _ _).toExtends,
      staged.version, rfl, rfl⟩

theorem proceeds_requestMissing (indices : List Nat) :
    Proceeds sandbox task (indices.foldl requestMissingChunkInfo task) := by
  induction indices generalizing task with
  | nil => exact .refl task
  | cons index indices ih => exact (ih _).comp ⟨.refl _, .inl rfl, rfl, rfl⟩

theorem proceeds_checkFinishCondition (result : Option SandboxResult) :
    Proceeds result task (task.checkFinishCondition result) := by
  simp only [checkFinishCondition]
  split
  · exact .refl task
  · split
    · exact .refl task
    · split
      · exact task.proceeds_requestMissing _
      · split
        · split
          · exact task.proceeds_completeStreamFinishing _
          · exact task.proceeds_base
              ⟨rfl, id, List.Subset.refl _, List.Subset.refl _, List.Subset.refl _⟩ rfl
        · exact .refl task

theorem proceeds_continueFinishStream (result : Option SandboxResult) :
    Proceeds result task (task.continueFinishStream result) := by
  simp only [continueFinishStream]
  split
  · exact .refl task
  · split
    · exact task.proceeds_executeOnSessionThread _
    · exact task.proceeds_checkFinishCondition result

theorem proceeds_parseFinishInfoFile (loaded : List FinishStreamChunkInfo) (complete : Bool)
    (result : Option SandboxResult) :
    Proceeds result task (task.parseFinishInfoFile loaded complete result) := by
  have kept : Proceeds none task { task with finishInfo := loaded } :=
    ⟨.refl _, .inl rfl, rfl, rfl⟩
  simp only [parseFinishInfoFile]
  split
  · exact (proceeds_continueFinishStream _ result).comp kept
  · exact kept.weaken

/-! ## Jobs -/

/-- The jobs of the session thread that neither validate opinions nor complete the
    stream. -/
theorem proceeds_runSessionJob {job : SessionJob} {after : StreamTask}
    (step : task.runSessionJob job = some after) (unvalidated : job ≠ .myOpinionIsCreated)
    (incomplete : job ≠ .modifyIsCompleted) : Proceeds sandbox task after := by
  cases job with
  | startNextChunk =>
      obtain rfl := Option.some.inj step
      exact task.proceeds_startNextChunk
  | requestMissingChunkInfo =>
      obtain rfl := Option.some.inj step
      exact ⟨.refl _, .inl rfl, rfl, rfl⟩
  | myRootHashIsCalculated =>
      obtain rfl := Option.some.inj step
      exact task.proceeds_base (task.leaves_myRootHashIsCalculated _ _).persists.toExtends
        (task.version_myRootHashIsCalculated _ _)
  | onCumulativeUploadsUpdated =>
      obtain rfl := Option.some.inj step
      exact task.proceeds_base (task.leaves_onCumulativeUploadsUpdated _).persists.toExtends
        (task.version_onCumulativeUploadsUpdated _)
  | synchronizationIsCompleted =>
      obtain rfl := Option.some.inj step
      exact task.proceeds_base (task.leaves_synchronizationIsCompleted _).persists.toExtends rfl
  | downloadNotification =>
      simp only [runSessionJob] at step
      split at step
      · obtain rfl := Option.some.inj step
        exact task.proceeds_downloadCompleted _
      · simp at step
  | myOpinionIsCreated => exact absurd rfl unvalidated
  | modifyIsCompleted => exact absurd rfl incomplete
  | modifyIsCompletedWithError | downloadMissingFiles | createUnusedFileList | unusedFilesRemoved
  | runNextTask => simp [runSessionJob] at step

theorem proceeds_continueSynchronizing (result : FileSystemResult) :
    Proceeds sandbox task (task.continueSynchronizingDriveWithSandbox result) := by
  cases result with
  | done =>
      exact (proceeds_executeOnSessionThread _ _).comp
        (task.proceeds_base ⟨rfl, id, List.Subset.refl _, List.Subset.refl _, List.Subset.refl _⟩ rfl)
  | exception =>
      exact task.proceeds_base task.leaves_finishTask.persists.toExtends task.version_finishTask

theorem proceeds_runBackgroundJob {job : BackgroundJob} {result : BackgroundResult}
    {after : StreamTask} (step : task.runBackgroundJob job result = some after) :
    Proceeds result.sandbox? task after := by
  simp only [runBackgroundJob] at step
  split at step
  · obtain rfl := Option.some.inj step
    exact task.proceeds_base (task.persists_runSaveJob _).toExtends (task.version_runSaveJob _)
  · obtain rfl := Option.some.inj step
    exact task.proceeds_continueSynchronizing _
  · obtain rfl := Option.some.inj step
    exact task.proceeds_parseFinishInfoFile _ _ _
  · obtain rfl := Option.some.inj step
    exact task.proceeds_checkFinishCondition _
  · obtain rfl := Option.some.inj step
    exact task.proceeds_checkFinishCondition _
  · simp at step

end StreamTask

end SiriusDrive
