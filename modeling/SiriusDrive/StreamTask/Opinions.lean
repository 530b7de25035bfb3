import SiriusDrive.StreamTask.Approvals

/-! # The own opinion of a stream

A stream task forms its own opinion once the uploads have been counted, and keeps it in
all other steps. None of the opinions it receives comes to the members of the base class.
-/

namespace SiriusDrive

namespace StreamTask

variable (task : StreamTask)

/-- The own opinion a job of the session thread forms. -/
def formedBy : SessionJob → Option ApprovalTransactionInfo
  | .onCumulativeUploadsUpdated =>
      if task.taskIsInterrupted then none
      else task.sandboxRootHash.map (task.formMyOpinion task.request.streamId)
  | _ => none

def formsOpinion : TaskEvent → Option ApprovalTransactionInfo
  | .runSessionJob => task.sessionJobs.head?.bind task.formedBy
  | _ => none

/-! ## Functions that leave the own opinion alone -/

theorem myOpinion_base {f : UpdateDriveTaskBase → UpdateDriveTaskBase}
    (frame : (f task.toUpdateDriveTaskBase).opinionView = task.opinionView) :
    (task.base f).myOpinion = task.myOpinion :=
  congrArg OpinionView.myOpinion frame

@[simp] theorem myOpinion_tryDownloadNextChunk :
    task.tryDownloadNextChunk.myOpinion = task.myOpinion := by
  rw [tryDownloadNextChunk]
  split <;> rfl

@[simp] theorem myOpinion_downloadChunk (chunkInfo : ChunkInfo) :
    (task.downloadChunk chunkInfo).myOpinion = task.myOpinion := by
  rw [downloadChunk]
  split
  · exact task.myOpinion_tryDownloadNextChunk
  · rfl

@[simp] theorem myOpinion_startNextChunk : task.startNextChunk.myOpinion = task.myOpinion := by
  simp only [startNextChunk]
  split
  · rfl
  · split
    · split
      · rfl
      · rfl
      · exact myOpinion_downloadChunk _ _
    · split
      · rfl
      · rfl
      · exact myOpinion_downloadChunk _ _

@[simp] theorem myOpinion_acceptChunkInfoMessage (chunkInfo : ChunkInfo) (isVerified : Bool) :
    (task.acceptChunkInfoMessage chunkInfo isVerified).myOpinion = task.myOpinion := by
  rw [acceptChunkInfoMessage]
  split
  · rfl
  · split
    · rfl
    · rw [myOpinion_tryDownloadNextChunk, storeChunkInfo]
      split <;> rfl

@[simp] theorem myOpinion_downloadCompleted (torrent : Torrent) :
    (task.downloadCompleted torrent).myOpinion = task.myOpinion := by
  rw [downloadCompleted]
  split
  · rfl
  · simp only [chunkDownloaded]
    split
    · exact myOpinion_tryDownloadNextChunk _
    · exact myOpinion_tryDownloadNextChunk _

@[simp] theorem myOpinion_onMetadataReceived (torrent : Torrent) (totalSize : Nat)
    (isValid : Bool) :
    (task.onMetadataReceived torrent totalSize isValid).myOpinion = task.myOpinion := by
  rw [onMetadataReceived]
  split
  · rfl
  · simp only [downloadFailed]
    split
    · rfl
    · exact myOpinion_tryDownloadNextChunk _

@[simp] theorem myOpinion_acceptFinishStreamTx (finishStream : StreamFinishRequest) :
    (task.acceptFinishStreamTx finishStream).myOpinion = task.myOpinion := by
  simp only [acceptFinishStreamTx]
  split
  · rfl
  · split
    · rfl
    · split <;> rfl

theorem myOpinion_requestMissing (indices : List Nat) :
    (indices.foldl requestMissingChunkInfo task).myOpinion = task.myOpinion := by
  induction indices generalizing task with
  | nil => rfl
  | cons index indices ih => exact ih _

@[simp] theorem myOpinion_checkFinishCondition (result : Option SandboxResult) :
    (task.checkFinishCondition result).myOpinion = task.myOpinion := by
  simp only [checkFinishCondition]
  split
  · rfl
  · split
    · rfl
    · split
      · exact task.myOpinion_requestMissing _
      · split
        · split
          · simp only [completeStreamFinishing]
            split <;> rfl
          · rfl
        · rfl

@[simp] theorem myOpinion_parseFinishInfoFile (loaded : List FinishStreamChunkInfo)
    (complete : Bool) (result : Option SandboxResult) :
    (task.parseFinishInfoFile loaded complete result).myOpinion = task.myOpinion := by
  simp only [parseFinishInfoFile]
  split
  · simp only [continueFinishStream]
    split
    · rfl
    · split
      · rfl
      · exact myOpinion_checkFinishCondition _ _
  · rfl

theorem myOpinion_opinionTimerExpired (approval : ModifyApprovalTaskBase) :
    approval.opinionTimerExpired.myOpinion = approval.myOpinion := by
  rw [ModifyApprovalTaskBase.opinionTimerExpired]
  split
  · rfl
  · split
    · rfl
    · rfl

theorem myOpinion_checkOpinionNumber (approval : ModifyApprovalTaskBase) :
    approval.checkOpinionNumberAndStartTimer.myOpinion = approval.myOpinion := by
  rw [ModifyApprovalTaskBase.checkOpinionNumberAndStartTimer]
  split
  · exact myOpinion_opinionTimerExpired _
  · split
    · split <;> rfl
    · rfl

theorem myOpinion_myOpinionIsCreated (approval : ModifyApprovalTaskBase) :
    approval.myOpinionIsCreated.myOpinion = approval.myOpinion := by
  simp only [ModifyApprovalTaskBase.myOpinionIsCreated]
  split
  · exact congrArg OpinionView.myOpinion approval.opinionView_finishTask
  · split
    · rfl
    · split
      · exact congrArg OpinionView.myOpinion (UpdateDriveTaskBase.opinionView_startSynchronizing _)
      · exact myOpinion_checkOpinionNumber _

@[simp] theorem myOpinion_breakTask : task.breakTask.myOpinion = task.myOpinion :=
  task.myOpinion_base (UpdateDriveTaskBase.opinionView_breakTorrentDownload _ _)

/-! ## Steps -/

variable {task} {after : StreamTask}

theorem myOpinion_runSessionJob {job : SessionJob} (step : task.runSessionJob job = some after) :
    after.myOpinion = (task.formedBy job).or task.myOpinion := by
  cases job with
  | startNextChunk =>
      obtain rfl := Option.some.inj step
      exact task.myOpinion_startNextChunk
  | requestMissingChunkInfo =>
      obtain rfl := Option.some.inj step
      rfl
  | myRootHashIsCalculated =>
      obtain rfl := Option.some.inj step
      exact task.myOpinion_base (UpdateDriveTaskBase.opinionView_myRootHashIsCalculated _ _ _)
  | onCumulativeUploadsUpdated =>
      obtain rfl := Option.some.inj step
      simp only [formedBy, base, approval, ModifyApprovalTaskBase.base,
        UpdateDriveTaskBase.onCumulativeUploadsUpdated]
      split
      · exact congrArg OpinionView.myOpinion task.opinionView_finishTask
      · split
        · rename_i noRoot
          rw [noRoot]
          rfl
        · rename_i rootHash isRoot
          rw [isRoot]
          rfl
  | myOpinionIsCreated =>
      obtain rfl := Option.some.inj step
      exact myOpinion_myOpinionIsCreated _
  | synchronizationIsCompleted =>
      obtain rfl := Option.some.inj step
      rfl
  | modifyIsCompleted =>
      obtain rfl := Option.some.inj step
      exact task.myOpinion_base (UpdateDriveTaskBase.opinionView_modifyIsCompleted _ _)
  | downloadNotification =>
      simp only [runSessionJob] at step
      split at step
      · obtain rfl := Option.some.inj step
        exact task.myOpinion_downloadCompleted _
      · cases step
  | modifyIsCompletedWithError | downloadMissingFiles | createUnusedFileList | unusedFilesRemoved
  | runNextTask => cases step

theorem myOpinion_runBackgroundJob {job : BackgroundJob} {result : BackgroundResult}
    (step : task.runBackgroundJob job result = some after) : after.myOpinion = task.myOpinion := by
  simp only [runBackgroundJob] at step
  split at step
  · obtain rfl := Option.some.inj step
    exact task.myOpinion_base (UpdateDriveTaskBase.opinionView_runSaveJob _ _)
  · obtain rfl := Option.some.inj step
    simp only [continueSynchronizingDriveWithSandbox]
    split
    · rfl
    · exact task.myOpinion_base (UpdateDriveTaskBase.opinionView_finishTask _)
  · obtain rfl := Option.some.inj step
    exact task.myOpinion_parseFinishInfoFile _ _ _
  · obtain rfl := Option.some.inj step
    exact task.myOpinion_checkFinishCondition _
  · obtain rfl := Option.some.inj step
    exact task.myOpinion_checkFinishCondition _
  · cases step

theorem myOpinion_interrupted (interrupted : Bool) :
    (if interrupted then task else task.breakTask).myOpinion = task.myOpinion := by
  split
  · rfl
  · exact task.myOpinion_breakTask

theorem myOpinion_of_step {event : TaskEvent} (step : streamSystem.step task event = some after) :
    after.myOpinion = (task.formsOpinion event).or task.myOpinion := by
  obtain ⟨-, handles⟩ := handles_of_step step
  cases handles with
  | runSessionJob jobs run =>
      rw [myOpinion_runSessionJob run, formsOpinion, jobs]
      rfl
  | runBackgroundJob jobs run =>
      have kept := myOpinion_runBackgroundJob run
      exact kept
  | torrentsRemoved found =>
      exact task.myOpinion_base (UpdateDriveTaskBase.opinionView_onTorrentsRemoved _ _)
  | metadataReceived found totalSize isValid => exact task.myOpinion_onMetadataReceived _ _ _
  | modifyOpinionTimerExpired pending => exact myOpinion_opinionTimerExpired _
  | shareMyOpinionTimerExpired pending =>
      simp only [approval, ModifyApprovalTaskBase.shareMyOpinionTimerExpired]
      split <;> rfl
  | opinionReceived anOpinion =>
      simp only [processedModifyOpinion]
      split
      · split
        · exact myOpinion_checkOpinionNumber _
        · rfl
      · rfl
  | approvalTxPublished transaction =>
      simp only [onApprovalTxPublished]
      split
      · rfl
      · split
        · exact myOpinion_base _ (UpdateDriveTaskBase.opinionView_startSynchronizingAfter _ _)
        · exact myOpinion_breakTask _
  | cancelModify cancelRequest =>
      simp only [shouldCancelModify]
      split
      · rfl
      · split
        · exact task.myOpinion_breakTask
        · rfl
  | driveClose | manualSynchronize => exact myOpinion_interrupted _
  | terminate => exact myOpinion_breakTask _
  | chunkInfoReceived chunkInfo isVerified => exact task.myOpinion_acceptChunkInfoMessage _ _
  | finishStream finishStream => exact task.myOpinion_acceptFinishStreamTx _
  | torrentFinished | pieceReceived | approvalTxFailed | setReplicators
  | setMinReplicatorsNumber => rfl

end StreamTask

end SiriusDrive
