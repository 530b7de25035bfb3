import SiriusDrive.FlatDrive
import SiriusDrive.ModifyDriveTask.Steps
import SiriusDrive.UpdateDriveTaskBase.UploadsStep

/-! # The uploads of a modification

No step of a modification task but the one that counts its uploads and the one that
approves them changes the uploads.
-/

namespace SiriusDrive

namespace ModifyDriveTask

open UpdateDriveTaskBase (Moves GoesOn)

/-- The task goes on for its request, scheduling nothing but for some stages. -/
structure MovesOn (new : List UpdateStage) (before after : ModifyDriveTask) : Prop where
  moves : Moves new before.toUpdateDriveTaskBase after.toUpdateDriveTaskBase
  request : after.request = before.request
  received : after.modifyApproveTxReceived = before.modifyApproveTxReceived

structure UploadsStep (event : TaskEvent) (before after : ModifyDriveTask) : Prop where
  base : UpdateDriveTaskBase.UploadsStep (before.modifyApproveTxReceived = true) event
    before.request.transactionHash before.request.maxDataSize before.toUpdateDriveTaskBase
    after.toUpdateDriveTaskBase
  request : after.request = before.request
  received : after.modifyApproveTxReceived = before.modifyApproveTxReceived

variable {new : List UpdateStage} {before middle after : ModifyDriveTask}

theorem MovesOn.refl (task : ModifyDriveTask) : MovesOn new task task := ⟨.refl _, rfl, rfl⟩

theorem MovesOn.comp (second : MovesOn new middle after) (first : MovesOn new before middle) :
    MovesOn new before after :=
  ⟨first.moves.trans second.moves, second.request.trans first.request,
    second.received.trans first.received⟩

theorem MovesOn.uploadsStep (moves : MovesOn [] before after) (event : TaskEvent) :
    UploadsStep event before after :=
  ⟨.goesOn moves.moves.goesOn_nil, moves.request, moves.received⟩

variable (task : ModifyDriveTask)

theorem movesOn_base {f : UpdateDriveTaskBase → UpdateDriveTaskBase}
    (moves : Moves new task.toUpdateDriveTaskBase (f task.toUpdateDriveTaskBase)) :
    MovesOn new task (task.base f) :=
  ⟨moves, rfl, rfl⟩

theorem movesOn_of_same {task after : ModifyDriveTask}
    (same : after.toUpdateDriveTaskBase = task.toUpdateDriveTaskBase)
    (request : after.request = task.request)
    (received : after.modifyApproveTxReceived = task.modifyApproveTxReceived) :
    MovesOn new task after :=
  ⟨same ▸ .refl _, request, received⟩

theorem movesOn_sessionJob (job : SessionJob) :
    MovesOn job.stage?.toList task (task.base (·.executeOnSessionThread job)) :=
  task.movesOn_base (task.moves_executeOnSessionThread job)

theorem movesOn_backgroundJob (job : BackgroundJob) :
    MovesOn job.stage?.toList task (task.base (·.executeOnBackgroundThread job)) :=
  task.movesOn_base (task.moves_executeOnBackgroundThread job)

theorem movesOn_break (fault : Fault) : MovesOn new task (task.base (·.break_ fault)) :=
  task.movesOn_base (task.moves_break fault)

theorem movesOn_modifyIsCompletedWithError (status : ModificationStatus) :
    MovesOn [] task (task.modifyIsCompletedWithError status) := by
  refine task.movesOn_base ?_
  exact (UpdateDriveTaskBase.moves_executeOnBackgroundThread _ .copyDriveToSandbox).comp
    (.of_eq rfl rfl rfl rfl rfl rfl rfl rfl)

theorem movesOn_prepareDownloadMissingFiles :
    MovesOn [] task task.prepareDownloadMissingFiles := by
  have selects (before : ModifyDriveTask) (missedFileSet : List Hash256) :
      MovesOn [] before ({ before with missedFileSet }.base
        (·.executeOnSessionThread .downloadMissingFiles)) :=
    (movesOn_sessionJob _ .downloadMissingFiles).comp (movesOn_of_same rfl rfl rfl)
  unfold prepareDownloadMissingFiles
  split
  · exact .refl task
  · rename_i file _
    cases file with
    | undecodable loaded =>
        have undecodable := task.movesOn_sessionJob
          (.modifyIsCompletedWithError "modify drive: invalid 'ActionList'" .invalidActionList)
        simp only
        split
        · exact (movesOn_break _ _).comp undecodable
        · exact (selects _ _).comp undecodable
    | actions actionList =>
        simp only
        split
        · exact task.movesOn_break _
        · exact selects task _

theorem movesOn_download (use : DownloadUse) (infoHash : InfoHash) :
    MovesOn [] task (task.download use infoHash) :=
  task.movesOn_base (.of_eq rfl rfl rfl rfl rfl rfl rfl rfl)

theorem movesOn_run : MovesOn [] task task.run := by
  have resets : MovesOn [] task
      (task.approval fun approval => { approval with uploadedDataSize := 0 }) :=
    movesOn_of_same rfl rfl rfl
  unfold run
  simp only
  split
  · refine (movesOn_download _ .actionList _).comp (MovesOn.comp ?_ resets)
    exact (movesOn_backgroundJob _ .prepareDownloadMissingFiles).comp (movesOn_of_same rfl rfl rfl)
  · exact (movesOn_download _ .actionList _).comp resets

theorem movesOn_downloadMissingFiles : MovesOn [] task task.downloadMissingFiles := by
  unfold downloadMissingFiles
  split
  · exact task.movesOn_break _
  · exact ⟨.of_eq rfl rfl rfl rfl rfl rfl rfl rfl, rfl, rfl⟩
  · rename_i missedFileSet _
    have clears : MovesOn [] task ({ task with missedFileSet }.base fun base =>
        { base with downloadingLtHandle := none }) :=
      ⟨.of_eq rfl rfl rfl rfl rfl rfl rfl rfl, rfl, rfl⟩
    exact (movesOn_backgroundJob _ .modifyFsTreeInSandbox).comp clears

theorem movesOn_addUploadedDataSize (downloadedSize : Nat) :
    MovesOn [] task (task.addUploadedDataSize downloadedSize) :=
  movesOn_of_same rfl rfl rfl

theorem movesOn_downloadCompleted (torrent : Torrent) :
    MovesOn [] task (task.downloadCompleted torrent) := by
  unfold downloadCompleted
  split
  · unfold actionListDownloaded
    split
    · exact .refl task
    · have receives : MovesOn [] task
          ({ task.addUploadedDataSize torrent.uploadedDataSize with
            actionListIsReceived := true }.base fun base =>
            { base with
              fsTreeOrActionListHandle := base.downloadingLtHandle
              downloadingLtHandle := none }) :=
        ⟨.of_eq rfl rfl rfl rfl rfl rfl rfl rfl, rfl, rfl⟩
      exact (movesOn_backgroundJob _ .prepareDownloadMissingFiles).comp receives
  · exact (movesOn_downloadMissingFiles _).comp (task.movesOn_addUploadedDataSize _)

theorem movesOn_modifyFsTreeInSandbox (result : SandboxResult) :
    MovesOn [] task (task.modifyFsTreeInSandbox result) := by
  unfold modifyFsTreeInSandbox
  split
  · simp only
    split
    · exact (movesOn_sessionJob _ (.modifyIsCompletedWithError _ _)).comp
        (task.movesOn_base (.of_eq rfl rfl rfl rfl rfl rfl rfl rfl))
    · exact (movesOn_sessionJob _ .myRootHashIsCalculated).comp
        (task.movesOn_base (.of_eq rfl rfl rfl rfl rfl rfl rfl rfl))
  · exact task.movesOn_break _

theorem movesOn_copyDriveToSandbox : MovesOn [] task task.copyDriveToSandbox := by
  refine task.movesOn_base ?_
  exact (UpdateDriveTaskBase.moves_executeOnSessionThread _ .myRootHashIsCalculated).comp
    (.of_eq rfl rfl rfl rfl rfl rfl rfl rfl)

theorem movesOn_onMetadataReceived (torrent : Torrent) (totalSize : Nat) (isValid : Bool) :
    MovesOn [] task (task.onMetadataReceived torrent totalSize isValid) := by
  unfold onMetadataReceived
  split
  · exact task.movesOn_base (.of_eq rfl rfl rfl rfl rfl rfl rfl rfl)
  · refine MovesOn.comp (movesOn_modifyIsCompletedWithError _ _) ?_
    exact ⟨.of_eq rfl rfl rfl rfl rfl rfl rfl rfl, rfl, rfl⟩

theorem movesOn_processedModifyOpinion (anOpinion : ApprovalTransactionInfo) :
    MovesOn [] task (task.processedModifyOpinion anOpinion).1 := by
  unfold processedModifyOpinion
  split
  · exact .refl task
  · split
    · split
      · have checks (stored : ModifyDriveTask) :
            MovesOn [] stored (stored.approval (·.checkOpinionNumberAndStartTimer)) :=
          ⟨stored.moves_checkOpinionNumber, rfl, ModifyApprovalTaskBase.received_checkOpinionNumber⟩
        exact (checks _).comp (movesOn_of_same rfl rfl rfl)
      · exact .refl task
    · exact movesOn_of_same rfl rfl rfl

theorem movesOn_onApprovalTxFailed (transactionHash : Hash256) :
    MovesOn [] task (task.onApprovalTxFailed transactionHash) := by
  unfold onApprovalTxFailed
  split
  · exact ⟨.of_eq rfl rfl rfl rfl rfl rfl rfl rfl, rfl, rfl⟩
  · exact .refl task

variable {task}

theorem movesOn_popSessionJob {job : SessionJob} {rest : List SessionJob}
    (jobs : task.sessionJobs = job :: rest) :
    MovesOn [] task (task.base fun base => { base with sessionJobs := rest }) :=
  task.movesOn_base (UpdateDriveTaskBase.moves_popSessionJob jobs)

theorem movesOn_popBackgroundJob {job : BackgroundJob} {rest : List BackgroundJob}
    (jobs : task.backgroundJobs = job :: rest) :
    MovesOn [] task (task.base fun base => { base with backgroundJobs := rest }) :=
  task.movesOn_base (UpdateDriveTaskBase.moves_popBackgroundJob jobs)

theorem uploadsStep_runSessionJob {job : SessionJob} {rest : List SessionJob}
    (jobs : task.sessionJobs = job :: rest)
    (step : (task.base fun base => { base with sessionJobs := rest }).runSessionJob job =
      some after) : UploadsStep .runSessionJob task after := by
  cases job with
  | modifyIsCompletedWithError =>
      obtain rfl := Option.some.inj step
      exact ((movesOn_modifyIsCompletedWithError _ _).comp
        (movesOn_popSessionJob jobs)).uploadsStep _
  | downloadMissingFiles =>
      obtain rfl := Option.some.inj step
      exact ((movesOn_downloadMissingFiles _).comp (movesOn_popSessionJob jobs)).uploadsStep _
  | myRootHashIsCalculated =>
      obtain rfl := Option.some.inj step
      exact ⟨UpdateDriveTaskBase.uploadsStep_myRootHashIsCalculated jobs rfl, rfl, rfl⟩
  | onCumulativeUploadsUpdated =>
      obtain rfl := Option.some.inj step
      exact ⟨.goesOn (UpdateDriveTaskBase.goesOn_onCumulativeUploadsUpdated jobs rfl), rfl, rfl⟩
  | myOpinionIsCreated =>
      obtain rfl := Option.some.inj step
      exact ⟨.goesOn (ModifyApprovalTaskBase.goesOn_myOpinionIsCreated jobs), rfl,
        ModifyApprovalTaskBase.received_myOpinionIsCreated⟩
  | synchronizationIsCompleted =>
      obtain rfl := Option.some.inj step
      exact ⟨UpdateDriveTaskBase.uploadsStep_synchronizationIsCompleted jobs rfl, rfl, rfl⟩
  | modifyIsCompleted =>
      obtain rfl := Option.some.inj step
      exact ⟨.goesOn (UpdateDriveTaskBase.goesOn_modifyIsCompleted jobs rfl), rfl, rfl⟩
  | downloadNotification handle =>
      unfold runSessionJob at step
      simp only at step
      split at step
      · obtain rfl := Option.some.inj step
        exact ((movesOn_downloadCompleted _ _).comp (movesOn_popSessionJob jobs)).uploadsStep _
      · simp at step
  | createUnusedFileList | unusedFilesRemoved | startNextChunk | requestMissingChunkInfo
  | runNextTask => simp [runSessionJob] at step

theorem uploadsStep_continueSynchronizing {result : FileSystemResult} {rest : List BackgroundJob}
    (jobs : task.backgroundJobs = .continueSynchronizingDriveWithSandbox :: rest) :
    UploadsStep (.runBackgroundJob (.fileSystem result)) task
      ((task.base fun base => { base with backgroundJobs := rest }).approval
        (·.continueSynchronizingDriveWithSandbox result)) := by
  have popped := UpdateDriveTaskBase.moves_popBackgroundJob jobs
  rcases ModifyApprovalTaskBase.moves_continueSynchronizing
    (task.base fun base => { base with backgroundJobs := rest }).toModifyApprovalTaskBase result with
    ⟨rfl, moves⟩ | moves
  · exact ⟨.fails ⟨rfl, by rw [jobs]; rfl⟩ (popped.trans_nil moves).fails, rfl, rfl⟩
  · refine ⟨.goesOn ((popped.trans_nil moves).goesOn ?_), by cases result <;> rfl,
      by cases result <;> rfl⟩
    intro stage isNew
    obtain rfl := List.mem_singleton.mp isNew
    exact (task.hasStage_of_backgroundJob (jobs ▸ List.mem_cons_self) rfl).justifies

theorem uploadsStep_runBackgroundJob {job : BackgroundJob} {rest : List BackgroundJob}
    {result : BackgroundResult} (jobs : task.backgroundJobs = job :: rest)
    (step : (task.base fun base => { base with backgroundJobs := rest }).runBackgroundJob job
      result = some after) : UploadsStep (.runBackgroundJob result) task after := by
  have popped := movesOn_popBackgroundJob jobs
  unfold runBackgroundJob at step
  split at step
  · obtain rfl := Option.some.inj step
    exact ⟨.goesOn (UpdateDriveTaskBase.goesOn_runSaveJob jobs), rfl, rfl⟩
  · obtain rfl := Option.some.inj step
    exact uploadsStep_continueSynchronizing jobs
  · obtain rfl := Option.some.inj step
    exact ((movesOn_prepareDownloadMissingFiles _).comp popped).uploadsStep _
  · obtain rfl := Option.some.inj step
    exact ((movesOn_modifyFsTreeInSandbox _ _).comp popped).uploadsStep _
  · obtain rfl := Option.some.inj step
    exact ((movesOn_copyDriveToSandbox _).comp popped).uploadsStep _
  · simp at step

theorem uploadsStep {event : TaskEvent} (isInternal : event.isInternal = true)
    (step : modifyDriveSystem.step task event = some after) : UploadsStep event task after := by
  obtain ⟨-, handles⟩ := handles_of_step step
  cases handles with
  | runSessionJob jobs run => exact uploadsStep_runSessionJob jobs run
  | runBackgroundJob jobs run => exact uploadsStep_runBackgroundJob jobs run
  | torrentsRemoved found =>
      exact ⟨.goesOn (UpdateDriveTaskBase.goesOn_onTorrentsRemoved found), rfl, rfl⟩
  | metadataReceived found totalSize isValid =>
      exact (task.movesOn_onMetadataReceived _ _ _).uploadsStep _
  | @torrentFinished handle torrent found =>
      exact (task.movesOn_base (task.moves_torrentFinished torrent)).uploadsStep _
  | pieceReceived uploader size =>
      exact (task.movesOn_base (task.moves_addTraffic uploader size)).uploadsStep _
  | modifyOpinionTimerExpired pending =>
      have moves : MovesOn [] task (task.approval fun approval =>
          { approval with modifyOpinionTimer := .expired }.opinionTimerExpired) :=
        ⟨ModifyApprovalTaskBase.moves_opinionTimerExpired
          { task.toModifyApprovalTaskBase with modifyOpinionTimer := .expired }, rfl,
          ModifyApprovalTaskBase.received_opinionTimerExpired⟩
      exact moves.uploadsStep _
  | shareMyOpinionTimerExpired pending =>
      have moves : MovesOn [] task (task.approval (·.shareMyOpinionTimerExpired)) :=
        ⟨task.moves_shareMyOpinionTimerExpired, rfl,
          ModifyApprovalTaskBase.received_shareMyOpinionTimerExpired⟩
      exact moves.uploadsStep _
  | opinionReceived | approvalTxPublished | approvalTxFailed | cancelModify | driveClose
  | manualSynchronize | terminate | setReplicators | setMinReplicatorsNumber
  | chunkInfoReceived | finishStream => simp [TaskEvent.isInternal] at isInternal

theorem opinionController_of_counts {event : TaskEvent}
    (isCount : task.toUpdateDriveTaskBase.CountsUploads event)
    (step : modifyDriveSystem.step task event = some after) :
    after.drive.opinionController = task.drive.opinionController.updateCumulativeUploads
      task.drive.modifyTrafficMap task.request.transactionHash task.drive.modifyDonatorShard task.request.maxDataSize := by
  obtain ⟨rfl, rest, popped⟩ := isCount.pop
  unfold modifyDriveSystem at step
  simp only at step
  split at step
  · simp at step
  unfold handle at step
  simp only [popped] at step
  obtain rfl := Option.some.inj step
  have counted := (UpdateDriveTaskBase.myRootHashIsCalculated_cases
    { task.toUpdateDriveTaskBase with sessionJobs := rest } task.request.transactionHash task.request.maxDataSize).resolve_left
    fun ends => by simp [isCount.2.2] at ends
  exact counted.opinionController

end ModifyDriveTask

end SiriusDrive
