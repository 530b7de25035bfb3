import SiriusDrive.ModifyDriveTask.Steps
import SiriusDrive.StreamTask.Steps
import SiriusDrive.SynchronizationTask.Steps
import SiriusDrive.UpdateDriveTaskBase.Records

/-! # The records of the tasks

Modifications, streams and synchronizations record their approval by the jobs they
share. Everything else they do leaves the records alone.
-/

namespace SiriusDrive

open UpdateDriveTaskBase (RecordsStep records_executeOnSessionThread
  records_executeOnBackgroundThread)

/-! ## Modifications -/

namespace ModifyDriveTask

variable (task : ModifyDriveTask)

theorem records_breakTask : task.breakTask.records = task.records := by
  have kept := task.records_breakTorrentDownload fun base =>
    base.records_tryBreakTask task.modifyApproveTxReceived
  exact kept

theorem records_interrupt :
    (if task.taskIsInterrupted then task else task.breakTask).records = task.records := by
  split
  · rfl
  · exact task.records_breakTask

theorem records_modifyIsCompletedWithError (status : ModificationStatus) :
    (task.modifyIsCompletedWithError status).records = task.records :=
  records_executeOnBackgroundThread _ rfl

theorem records_prepareDownloadMissingFiles :
    task.prepareDownloadMissingFiles.records = task.records := by
  unfold prepareDownloadMissingFiles
  cases task.actionListFile with
  | none => rfl
  | some file =>
      have schedules (task : ModifyDriveTask) {job : SessionJob} (other : job ≠ .modifyIsCompleted) :
          (task.base (·.executeOnSessionThread job)).records = task.records :=
        records_executeOnSessionThread _ other
      cases file with
      | undecodable loaded =>
          simp only
          split
          · exact schedules task (by simp)
          · exact (schedules _ (by simp)).trans (schedules task (by simp))
      | actions actionList =>
          simp only
          split
          · rfl
          · exact schedules _ (by simp)

theorem records_downloadMissingFiles : task.downloadMissingFiles.records = task.records := by
  simp only [downloadMissingFiles]
  split
  · rfl
  · rfl
  · exact records_executeOnBackgroundThread _ rfl

theorem records_downloadCompleted (torrent : Torrent) :
    (task.downloadCompleted torrent).records = task.records := by
  simp only [downloadCompleted]
  split
  · simp only [actionListDownloaded]
    split
    · rfl
    · exact records_executeOnBackgroundThread _ rfl
  · exact records_downloadMissingFiles _

theorem records_onMetadataReceived (torrent : Torrent) (totalSize : Nat) (isValid : Bool) :
    (task.onMetadataReceived torrent totalSize isValid).records = task.records := by
  simp only [onMetadataReceived]
  split
  · rfl
  · exact records_modifyIsCompletedWithError _ _

theorem records_modifyFsTreeInSandbox (result : SandboxResult) :
    (task.modifyFsTreeInSandbox result).records = task.records := by
  simp only [modifyFsTreeInSandbox]
  split
  · split
    · exact records_executeOnSessionThread _ (by simp)
    · exact records_executeOnSessionThread _ (by simp)
  · rfl

theorem records_copyDriveToSandbox : task.copyDriveToSandbox.records = task.records :=
  records_executeOnSessionThread _ (by simp)

theorem records_processedModifyOpinion (anOpinion : ApprovalTransactionInfo) :
    (task.processedModifyOpinion anOpinion).1.records = task.records := by
  simp only [processedModifyOpinion]
  split
  · rfl
  · split
    · split
      · exact ModifyApprovalTaskBase.records_checkOpinionNumber _
      · rfl
    · rfl

theorem records_onApprovalTxPublished
    (transaction : PublishedModificationApprovalTransactionInfo) :
    (task.onApprovalTxPublished transaction).1.records = task.records := by
  simp only [onApprovalTxPublished]
  split
  · rfl
  · split
    · split
      · rfl
      · exact UpdateDriveTaskBase.records_startSynchronizingAfter _ _
    · exact records_breakTask _

theorem records_onApprovalTxFailed (transactionHash : Hash256) :
    (task.onApprovalTxFailed transactionHash).records = task.records := by
  simp only [onApprovalTxFailed]
  split <;> rfl

theorem records_shouldCancelModify (cancelRequest : ModificationCancelRequest) :
    (task.shouldCancelModify cancelRequest).1.records = task.records := by
  simp only [shouldCancelModify]
  split
  · rfl
  · split
    · exact task.records_breakTask
    · rfl

variable {task} {after : ModifyDriveTask}

theorem recordsStep_runSessionJob {job : SessionJob} {rest : List SessionJob}
    (jobs : task.sessionJobs = job :: rest)
    (run : (task.base fun base => { base with sessionJobs := rest }).runSessionJob job = some after) :
    RecordsStep task.request.transactionHash task.toUpdateDriveTaskBase
      after.toUpdateDriveTaskBase := by
  cases job with
  | modifyIsCompletedWithError =>
      obtain rfl := Option.some.inj run
      exact .of_sessionJob jobs (by simp) (records_modifyIsCompletedWithError _ _)
  | downloadMissingFiles =>
      obtain rfl := Option.some.inj run
      exact .of_sessionJob jobs (by simp) (records_downloadMissingFiles _)
  | myRootHashIsCalculated =>
      obtain rfl := Option.some.inj run
      exact .of_sessionJob jobs (by simp) (UpdateDriveTaskBase.records_myRootHashIsCalculated _ _ _)
  | onCumulativeUploadsUpdated =>
      obtain rfl := Option.some.inj run
      exact .of_sessionJob jobs (by simp) (UpdateDriveTaskBase.records_onCumulativeUploadsUpdated _ _)
  | myOpinionIsCreated =>
      obtain rfl := Option.some.inj run
      exact .of_sessionJob jobs (by simp) (ModifyApprovalTaskBase.records_myOpinionIsCreated _)
  | synchronizationIsCompleted =>
      obtain rfl := Option.some.inj run
      exact UpdateDriveTaskBase.recordsStep_synchronizationIsCompleted jobs
  | modifyIsCompleted =>
      obtain rfl := Option.some.inj run
      exact UpdateDriveTaskBase.recordsStep_modifyIsCompleted jobs
  | downloadNotification =>
      simp only [runSessionJob] at run
      split at run
      · obtain rfl := Option.some.inj run
        exact .of_sessionJob jobs (by simp) (records_downloadCompleted _ _)
      · cases run
  | createUnusedFileList | unusedFilesRemoved | startNextChunk | requestMissingChunkInfo
  | runNextTask => cases run

theorem recordsStep_runBackgroundJob {job : BackgroundJob} {rest : List BackgroundJob}
    {result : BackgroundResult} (jobs : task.backgroundJobs = job :: rest)
    (run : (task.base fun base => { base with backgroundJobs := rest }).runBackgroundJob job result =
      some after) :
    RecordsStep task.request.transactionHash task.toUpdateDriveTaskBase
      after.toUpdateDriveTaskBase := by
  simp only [runBackgroundJob] at run
  split at run
  · obtain rfl := Option.some.inj run
    exact UpdateDriveTaskBase.recordsStep_runSaveJob jobs
  · obtain rfl := Option.some.inj run
    exact .of_backgroundJob jobs rfl (ModifyApprovalTaskBase.records_continueSynchronizing _ _)
  · obtain rfl := Option.some.inj run
    exact .of_backgroundJob jobs rfl (records_prepareDownloadMissingFiles _)
  · obtain rfl := Option.some.inj run
    exact .of_backgroundJob jobs rfl (records_modifyFsTreeInSandbox _ _)
  · obtain rfl := Option.some.inj run
    exact .of_backgroundJob jobs rfl (records_copyDriveToSandbox _)
  · cases run

theorem recordsStep {event : TaskEvent} (handles : task.Handles event after) :
    RecordsStep task.request.transactionHash task.toUpdateDriveTaskBase
      after.toUpdateDriveTaskBase := by
  cases handles with
  | runSessionJob jobs run => exact recordsStep_runSessionJob jobs run
  | runBackgroundJob jobs run => exact recordsStep_runBackgroundJob jobs run
  | torrentsRemoved => exact .of_same (UpdateDriveTaskBase.records_onTorrentsRemoved _ _)
  | metadataReceived => exact .of_same (task.records_onMetadataReceived _ _ _)
  | torrentFinished => exact .of_same (records_executeOnBackgroundThread _ rfl)
  | modifyOpinionTimerExpired =>
      exact .of_same (ModifyApprovalTaskBase.records_opinionTimerExpired _)
  | shareMyOpinionTimerExpired =>
      exact .of_same (ModifyApprovalTaskBase.records_shareMyOpinionTimerExpired _)
  | opinionReceived => exact .of_same (task.records_processedModifyOpinion _)
  | approvalTxPublished => exact .of_same (task.records_onApprovalTxPublished _)
  | approvalTxFailed => exact .of_same (task.records_onApprovalTxFailed _)
  | cancelModify => exact .of_same (task.records_shouldCancelModify _)
  | driveClose | manualSynchronize => exact .of_same task.records_interrupt
  | terminate => exact .of_same (records_breakTask _)
  | pieceReceived | setReplicators | setMinReplicatorsNumber | chunkInfoReceived | finishStream =>
      exact .of_same rfl

end ModifyDriveTask

/-! ## Streams -/

namespace StreamTask

variable (task : StreamTask)

theorem records_sessionJob {job : SessionJob} (other : job ≠ .modifyIsCompleted) :
    (task.base (·.executeOnSessionThread job)).records = task.records :=
  records_executeOnSessionThread _ other

theorem records_backgroundJob {job : BackgroundJob} (other : job.savedApproval? = none) :
    (task.base (·.executeOnBackgroundThread job)).records = task.records :=
  records_executeOnBackgroundThread _ other

theorem records_breakTask : task.breakTask.records = task.records := by
  have kept := task.records_breakTorrentDownload fun base =>
    base.records_tryBreakTask task.shadowing.modifyApproveTxReceived
  exact kept

theorem records_interrupt :
    (if task.taskIsInterrupted then task else task.breakTask).records = task.records := by
  split
  · rfl
  · exact task.records_breakTask

theorem records_tryDownloadNextChunk : task.tryDownloadNextChunk.records = task.records := by
  simp only [tryDownloadNextChunk]
  split
  · rfl
  · exact task.records_sessionJob (by simp)

theorem records_acceptChunkInfoMessage (chunkInfo : ChunkInfo) (isVerified : Bool) :
    (task.acceptChunkInfoMessage chunkInfo isVerified).records = task.records := by
  have stores : (task.storeChunkInfo chunkInfo).records = task.records := by
    simp only [storeChunkInfo]
    split <;> rfl
  simp only [acceptChunkInfoMessage]
  split
  · rfl
  · split
    · rfl
    · exact (records_tryDownloadNextChunk _).trans stores

theorem records_downloadChunk (chunkInfo : ChunkInfo) :
    (task.downloadChunk chunkInfo).records = task.records := by
  simp only [downloadChunk]
  split
  · exact task.records_tryDownloadNextChunk
  · rfl

theorem records_startNextChunk : task.startNextChunk.records = task.records := by
  simp only [startNextChunk]
  split
  · rfl
  · split
    · split
      · rfl
      · rfl
      · exact records_downloadChunk _ _
    · split
      · rfl
      · rfl
      · exact records_downloadChunk _ _

theorem records_downloadCompleted (torrent : Torrent) :
    (task.downloadCompleted torrent).records = task.records := by
  simp only [downloadCompleted]
  split
  · exact task.records_backgroundJob rfl
  · simp only [chunkDownloaded]
    split
    · exact (records_backgroundJob _ rfl).trans (records_tryDownloadNextChunk _)
    · exact records_tryDownloadNextChunk _

theorem records_downloadFailed (torrent : Torrent) :
    (task.downloadFailed torrent).records = task.records := by
  simp only [downloadFailed]
  split
  · rfl
  · exact records_tryDownloadNextChunk _

theorem records_onMetadataReceived (torrent : Torrent) (totalSize : Nat) (isValid : Bool) :
    (task.onMetadataReceived torrent totalSize isValid).records = task.records := by
  simp only [onMetadataReceived]
  split
  · rfl
  · exact records_downloadFailed _ _

theorem records_acceptFinishStreamTx (finishStream : StreamFinishRequest) :
    (task.acceptFinishStreamTx finishStream).records = task.records := by
  simp only [acceptFinishStreamTx]
  split
  · rfl
  · split
    · rfl
    · split
      · exact records_backgroundJob _ rfl
      · rfl

theorem records_checkFinishCondition (result : Option SandboxResult) :
    (task.checkFinishCondition result).records = task.records := by
  have requests (task : StreamTask) (chunks : List Nat) :
      (chunks.foldl requestMissingChunkInfo task).records = task.records := by
    induction chunks generalizing task with
    | nil => rfl
    | cons chunk chunks ih => exact ih _
  have completes (result : SandboxResult) :
      (task.completeStreamFinishing result).records = task.records := by
    simp only [completeStreamFinishing]
    split
    · rfl
    · exact records_sessionJob _ (by simp)
  simp only [checkFinishCondition]
  split
  · rfl
  · split
    · rfl
    · split
      · exact requests task _
      · split
        · cases result with
          | some result => exact completes result
          | none => rfl
        · rfl

theorem records_parseFinishInfoFile (loaded : List FinishStreamChunkInfo) (complete : Bool)
    (result : Option SandboxResult) :
    (task.parseFinishInfoFile loaded complete result).records = task.records := by
  simp only [parseFinishInfoFile]
  split
  · simp only [continueFinishStream]
    split
    · rfl
    · split
      · exact records_sessionJob _ (by simp)
      · exact records_checkFinishCondition _ _
  · rfl

theorem records_continueSynchronizing (result : FileSystemResult) :
    (task.continueSynchronizingDriveWithSandbox result).records = task.records := by
  cases result with
  | done => exact records_sessionJob _ (by simp)
  | exception => exact task.records_finishTask

theorem records_processedModifyOpinion (anOpinion : ApprovalTransactionInfo) :
    (task.processedModifyOpinion anOpinion).1.records = task.records := by
  simp only [processedModifyOpinion]
  split
  · split
    · exact ModifyApprovalTaskBase.records_checkOpinionNumber _
    · rfl
  · rfl

theorem records_onApprovalTxPublished
    (transaction : PublishedModificationApprovalTransactionInfo) :
    (task.onApprovalTxPublished transaction).1.records = task.records := by
  simp only [onApprovalTxPublished]
  split
  · rfl
  · split
    · exact UpdateDriveTaskBase.records_startSynchronizingAfter _ _
    · exact records_breakTask _

theorem records_shouldCancelModify (cancelRequest : ModificationCancelRequest) :
    (task.shouldCancelModify cancelRequest).1.records = task.records := by
  simp only [shouldCancelModify]
  split
  · rfl
  · split
    · exact task.records_breakTask
    · rfl

variable {task} {after : StreamTask}

theorem recordsStep_runSessionJob {job : SessionJob} {rest : List SessionJob}
    (jobs : task.sessionJobs = job :: rest)
    (run : (task.base fun base => { base with sessionJobs := rest }).runSessionJob job = some after) :
    RecordsStep task.request.streamId task.toUpdateDriveTaskBase after.toUpdateDriveTaskBase := by
  cases job with
  | startNextChunk =>
      obtain rfl := Option.some.inj run
      exact .of_sessionJob jobs (by simp) (records_startNextChunk _)
  | requestMissingChunkInfo =>
      obtain rfl := Option.some.inj run
      exact .of_sessionJob jobs (by simp) rfl
  | myRootHashIsCalculated =>
      obtain rfl := Option.some.inj run
      exact .of_sessionJob jobs (by simp) (UpdateDriveTaskBase.records_myRootHashIsCalculated _ _ _)
  | onCumulativeUploadsUpdated =>
      obtain rfl := Option.some.inj run
      exact .of_sessionJob jobs (by simp) (UpdateDriveTaskBase.records_onCumulativeUploadsUpdated _ _)
  | myOpinionIsCreated =>
      obtain rfl := Option.some.inj run
      exact .of_sessionJob jobs (by simp) (ModifyApprovalTaskBase.records_myOpinionIsCreated _)
  | synchronizationIsCompleted =>
      obtain rfl := Option.some.inj run
      exact UpdateDriveTaskBase.recordsStep_synchronizationIsCompleted jobs
  | modifyIsCompleted =>
      obtain rfl := Option.some.inj run
      exact UpdateDriveTaskBase.recordsStep_modifyIsCompleted jobs
  | downloadNotification =>
      simp only [runSessionJob] at run
      split at run
      · obtain rfl := Option.some.inj run
        exact .of_sessionJob jobs (by simp) (records_downloadCompleted _ _)
      · cases run
  | modifyIsCompletedWithError | downloadMissingFiles | createUnusedFileList | unusedFilesRemoved
  | runNextTask => cases run

theorem recordsStep_runBackgroundJob {job : BackgroundJob} {rest : List BackgroundJob}
    {result : BackgroundResult} (jobs : task.backgroundJobs = job :: rest)
    (run : (task.base fun base => { base with backgroundJobs := rest }).runBackgroundJob job result =
      some after) :
    RecordsStep task.request.streamId task.toUpdateDriveTaskBase after.toUpdateDriveTaskBase := by
  simp only [runBackgroundJob] at run
  split at run
  · obtain rfl := Option.some.inj run
    exact UpdateDriveTaskBase.recordsStep_runSaveJob jobs
  · obtain rfl := Option.some.inj run
    exact .of_backgroundJob jobs rfl (records_continueSynchronizing _ _)
  · obtain rfl := Option.some.inj run
    exact .of_backgroundJob jobs rfl (records_parseFinishInfoFile _ _ _ _)
  · obtain rfl := Option.some.inj run
    exact .of_backgroundJob jobs rfl (records_checkFinishCondition _ _)
  · obtain rfl := Option.some.inj run
    exact .of_backgroundJob jobs rfl (records_checkFinishCondition _ _)
  · cases run

theorem recordsStep {event : TaskEvent} (handles : task.Handles event after) :
    RecordsStep task.request.streamId task.toUpdateDriveTaskBase after.toUpdateDriveTaskBase := by
  cases handles with
  | runSessionJob jobs run => exact recordsStep_runSessionJob jobs run
  | runBackgroundJob jobs run => exact recordsStep_runBackgroundJob jobs run
  | torrentsRemoved => exact .of_same (UpdateDriveTaskBase.records_onTorrentsRemoved _ _)
  | metadataReceived => exact .of_same (task.records_onMetadataReceived _ _ _)
  | torrentFinished => exact .of_same (records_executeOnBackgroundThread _ rfl)
  | modifyOpinionTimerExpired =>
      exact .of_same (ModifyApprovalTaskBase.records_opinionTimerExpired _)
  | shareMyOpinionTimerExpired =>
      exact .of_same (ModifyApprovalTaskBase.records_shareMyOpinionTimerExpired _)
  | opinionReceived => exact .of_same (task.records_processedModifyOpinion _)
  | approvalTxPublished => exact .of_same (task.records_onApprovalTxPublished _)
  | cancelModify => exact .of_same (task.records_shouldCancelModify _)
  | driveClose | manualSynchronize => exact .of_same task.records_interrupt
  | terminate => exact .of_same (records_breakTask _)
  | chunkInfoReceived => exact .of_same (task.records_acceptChunkInfoMessage _ _)
  | finishStream => exact .of_same (task.records_acceptFinishStreamTx _)
  | pieceReceived | approvalTxFailed | setReplicators | setMinReplicatorsNumber =>
      exact .of_same rfl

end StreamTask

/-! ## Synchronizations -/

namespace SynchronizationTask

variable (task : SynchronizationTask)

theorem records_breakTask : task.breakTask.records = task.records :=
  UpdateDriveTaskBase.records_breakTorrentDownload _ fun _ => rfl

theorem records_interrupt :
    (if task.taskIsInterrupted then task else task.breakTask).records = task.records := by
  split
  · rfl
  · exact task.records_breakTask

theorem records_modifyDriveInSandbox (metaFilesSize sandboxDriveSize fsTreeSize : Nat) :
    (task.modifyDriveInSandbox metaFilesSize sandboxDriveSize fsTreeSize).records = task.records :=
  records_executeOnSessionThread _ (by simp)

theorem records_deserializeFsTree (fsTree : Option FsTree) :
    (task.deserializeFsTree fsTree).records = task.records := by
  cases fsTree with
  | some fsTree => exact records_executeOnSessionThread _ (by simp)
  | none => rfl

theorem records_createUnusedFileList : task.createUnusedFileList.records = task.records := by
  simp only [createUnusedFileList]
  split <;> rfl

theorem records_removeUnusedFiles (missingFiles : List InfoHash) :
    (task.removeUnusedFiles missingFiles).records = task.records :=
  records_executeOnSessionThread _ (by simp)

theorem records_downloadMissingFiles : task.downloadMissingFiles.records = task.records := by
  simp only [downloadMissingFiles]
  split
  · exact records_executeOnBackgroundThread _ rfl
  · rfl

theorem records_unusedFilesRemoved : task.unusedFilesRemoved.records = task.records := by
  simp only [unusedFilesRemoved, startDownloadMissingFiles]
  split
  · exact task.records_finishTask
  · split
    · rfl
    · exact records_downloadMissingFiles _

theorem records_downloadCompleted (torrent : Torrent) :
    (task.downloadCompleted torrent).records = task.records := by
  simp only [downloadCompleted]
  split
  · exact records_executeOnBackgroundThread _ rfl
  · exact task.records_downloadMissingFiles

theorem records_myOpinionIsCreated : task.myOpinionIsCreatedOverride.records = task.records := by
  have inherited (task : SynchronizationTask) : task.myOpinionIsCreated.records = task.records := by
    simp only [myOpinionIsCreated]
    split
    · exact task.records_finishTask
    · exact UpdateDriveTaskBase.records_startSynchronizing _
  simp only [myOpinionIsCreatedOverride]
  split
  · exact inherited _
  · rfl
  · exact inherited _

theorem records_onMetadataReceived (torrent : Torrent) (totalSize : Nat) (isValid : Bool) :
    (task.onMetadataReceived torrent totalSize isValid).records = task.records := by
  simp only [onMetadataReceived]
  split <;> rfl

theorem records_onApprovalTxPublished : task.onApprovalTxPublished.1.records = task.records := by
  simp only [onApprovalTxPublished]
  split
  · split
    · rfl
    · exact task.records_breakTask
  · rfl

variable {task} {after : SynchronizationTask}

/-- The modification is saved as the approved one before it is counted as approved. -/
theorem recordsStep_continueSynchronizing {result : FileSystemResult} {rest : List BackgroundJob}
    (jobs : task.backgroundJobs = .continueSynchronizingDriveWithSandbox :: rest) :
    RecordsStep task.modificationTransactionHash task.toUpdateDriveTaskBase
      ((task.base fun base => { base with
        backgroundJobs := rest }).continueSynchronizingDriveWithSandbox
        result).toUpdateDriveTaskBase := by
  have popped := task.records_popBackgroundJob jobs rfl
  cases result with
  | exception => exact .of_same ((UpdateDriveTaskBase.records_finishTask _).trans popped)
  | done =>
      have announces : ((task.base fun base => { base with
          backgroundJobs := rest }).continueSynchronizingDriveWithSandbox .done).records =
          { task.records with savedModification := some task.modificationTransactionHash } := by
        rw [← popped]
        exact records_executeOnSessionThread _ (by simp)
      unfold RecordsStep
      rw [announces]
      exact .announces

theorem recordsStep_runSessionJob {job : SessionJob} {rest : List SessionJob}
    (jobs : task.sessionJobs = job :: rest)
    (run : (task.base fun base => { base with sessionJobs := rest }).runSessionJob job = some after) :
    RecordsStep task.modificationTransactionHash task.toUpdateDriveTaskBase
      after.toUpdateDriveTaskBase := by
  cases job with
  | createUnusedFileList =>
      obtain rfl := Option.some.inj run
      exact .of_sessionJob jobs (by simp) (records_createUnusedFileList _)
  | unusedFilesRemoved =>
      obtain rfl := Option.some.inj run
      exact .of_sessionJob jobs (by simp) (records_unusedFilesRemoved _)
  | myRootHashIsCalculated =>
      obtain rfl := Option.some.inj run
      exact .of_sessionJob jobs (by simp) (UpdateDriveTaskBase.records_myRootHashIsCalculated _ _ _)
  | onCumulativeUploadsUpdated =>
      obtain rfl := Option.some.inj run
      exact .of_sessionJob jobs (by simp) (UpdateDriveTaskBase.records_onCumulativeUploadsUpdated _ _)
  | myOpinionIsCreated =>
      obtain rfl := Option.some.inj run
      exact .of_sessionJob jobs (by simp) (records_myOpinionIsCreated _)
  | synchronizationIsCompleted =>
      obtain rfl := Option.some.inj run
      exact UpdateDriveTaskBase.recordsStep_synchronizationIsCompleted jobs
  | modifyIsCompleted =>
      obtain rfl := Option.some.inj run
      exact UpdateDriveTaskBase.recordsStep_modifyIsCompleted jobs
  | downloadNotification =>
      simp only [runSessionJob] at run
      split at run
      · obtain rfl := Option.some.inj run
        exact .of_sessionJob jobs (by simp) (records_downloadCompleted _ _)
      · cases run
  | modifyIsCompletedWithError | downloadMissingFiles | startNextChunk | requestMissingChunkInfo
  | runNextTask => cases run

theorem recordsStep_runBackgroundJob {job : BackgroundJob} {rest : List BackgroundJob}
    {result : BackgroundResult} (jobs : task.backgroundJobs = job :: rest)
    (run : (task.base fun base => { base with backgroundJobs := rest }).runBackgroundJob job result =
      some after) :
    RecordsStep task.modificationTransactionHash task.toUpdateDriveTaskBase
      after.toUpdateDriveTaskBase := by
  simp only [runBackgroundJob] at run
  split at run
  · obtain rfl := Option.some.inj run
    exact UpdateDriveTaskBase.recordsStep_runSaveJob jobs
  · obtain rfl := Option.some.inj run
    exact recordsStep_continueSynchronizing jobs
  · obtain rfl := Option.some.inj run
    exact .of_backgroundJob jobs rfl (records_modifyDriveInSandbox _ _ _ _)
  · obtain rfl := Option.some.inj run
    exact .of_backgroundJob jobs rfl (records_modifyDriveInSandbox _ _ _ _)
  · obtain rfl := Option.some.inj run
    exact .of_backgroundJob jobs rfl (records_deserializeFsTree _ _)
  · obtain rfl := Option.some.inj run
    exact .of_backgroundJob jobs rfl (records_removeUnusedFiles _ _)
  · cases run

theorem recordsStep {event : TaskEvent} (handles : task.Handles event after) :
    RecordsStep task.modificationTransactionHash task.toUpdateDriveTaskBase
      after.toUpdateDriveTaskBase := by
  cases handles with
  | runSessionJob jobs run => exact recordsStep_runSessionJob jobs run
  | runBackgroundJob jobs run => exact recordsStep_runBackgroundJob jobs run
  | torrentsRemoved => exact .of_same (UpdateDriveTaskBase.records_onTorrentsRemoved _ _)
  | metadataReceived => exact .of_same (task.records_onMetadataReceived _ _ _)
  | torrentFinished => exact .of_same (records_executeOnBackgroundThread _ rfl)
  | approvalTxPublished => exact .of_same task.records_onApprovalTxPublished
  | driveClose | manualSynchronize => exact .of_same task.records_interrupt
  | terminate => exact .of_same (records_breakTask _)
  | pieceReceived | setReplicators | setMinReplicatorsNumber | opinionReceived | approvalTxFailed
  | cancelModify | chunkInfoReceived | finishStream => exact .of_same rfl

end SynchronizationTask

end SiriusDrive
