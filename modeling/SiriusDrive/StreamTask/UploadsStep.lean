import SiriusDrive.FlatDrive
import SiriusDrive.StreamTask.Steps
import SiriusDrive.UpdateDriveTaskBase.UploadsStep

/-! # The uploads of a stream

As for a modification, two steps change the uploads. The messages of a streamer
come from outside of the task, but they only schedule downloads.
-/

namespace SiriusDrive

namespace StreamTask

open UpdateDriveTaskBase (Moves GoesOn)

/-- The task goes on for its request, scheduling nothing but for some stages. -/
structure MovesOn (new : List UpdateStage) (before after : StreamTask) : Prop where
  moves : Moves new before.toUpdateDriveTaskBase after.toUpdateDriveTaskBase
  request : after.request = before.request
  received : after.shadowing.modifyApproveTxReceived = before.shadowing.modifyApproveTxReceived
  inherited : after.modifyApproveTxReceived = before.modifyApproveTxReceived

structure UploadsStep (event : TaskEvent) (before after : StreamTask) : Prop where
  base : UpdateDriveTaskBase.UploadsStep (before.modifyApproveTxReceived = true) event
    before.request.streamId before.request.maxSizeBytes before.toUpdateDriveTaskBase
    after.toUpdateDriveTaskBase
  request : after.request = before.request
  received : after.shadowing.modifyApproveTxReceived = before.shadowing.modifyApproveTxReceived
  inherited : after.modifyApproveTxReceived = before.modifyApproveTxReceived

variable {new : List UpdateStage} {before middle after : StreamTask}

theorem MovesOn.refl (task : StreamTask) : MovesOn new task task := ⟨.refl _, rfl, rfl, rfl⟩

theorem MovesOn.comp (second : MovesOn new middle after) (first : MovesOn new before middle) :
    MovesOn new before after :=
  ⟨first.moves.trans second.moves, second.request.trans first.request,
    second.received.trans first.received, second.inherited.trans first.inherited⟩

theorem MovesOn.uploadsStep (moves : MovesOn [] before after) (event : TaskEvent) :
    UploadsStep event before after :=
  ⟨.goesOn moves.moves.goesOn_nil, moves.request, moves.received, moves.inherited⟩

theorem movesOn_of_same {task after : StreamTask}
    (same : after.toUpdateDriveTaskBase = task.toUpdateDriveTaskBase)
    (request : after.request = task.request)
    (received : after.shadowing.modifyApproveTxReceived = task.shadowing.modifyApproveTxReceived)
    (inherited : after.modifyApproveTxReceived = task.modifyApproveTxReceived) :
    MovesOn new task after :=
  ⟨same ▸ .refl _, request, received, inherited⟩

variable (task : StreamTask)

theorem movesOn_base {f : UpdateDriveTaskBase → UpdateDriveTaskBase}
    (moves : Moves new task.toUpdateDriveTaskBase (f task.toUpdateDriveTaskBase)) :
    MovesOn new task (task.base f) :=
  ⟨moves, rfl, rfl, rfl⟩

theorem movesOn_sessionJob (job : SessionJob) :
    MovesOn job.stage?.toList task (task.base (·.executeOnSessionThread job)) :=
  task.movesOn_base (task.moves_executeOnSessionThread job)

theorem movesOn_backgroundJob (job : BackgroundJob) :
    MovesOn job.stage?.toList task (task.base (·.executeOnBackgroundThread job)) :=
  task.movesOn_base (task.moves_executeOnBackgroundThread job)

theorem movesOn_requestMissingChunkInfo (chunkIndex : Nat) :
    MovesOn new task (task.requestMissingChunkInfo chunkIndex) :=
  movesOn_of_same rfl rfl rfl rfl

theorem movesOn_tryDownloadNextChunk : MovesOn [] task task.tryDownloadNextChunk := by
  unfold tryDownloadNextChunk
  split
  · exact .refl task
  · exact task.movesOn_sessionJob .startNextChunk

theorem movesOn_storeChunkInfo (chunkInfo : ChunkInfo) :
    MovesOn new task (task.storeChunkInfo chunkInfo) := by
  unfold storeChunkInfo
  split <;> exact movesOn_of_same rfl rfl rfl rfl

theorem movesOn_acceptChunkInfoMessage (chunkInfo : ChunkInfo) (isVerified : Bool) :
    MovesOn [] task (task.acceptChunkInfoMessage chunkInfo isVerified) := by
  unfold acceptChunkInfoMessage
  split
  · exact .refl task
  · split
    · exact .refl task
    · exact (movesOn_tryDownloadNextChunk _).comp (task.movesOn_storeChunkInfo chunkInfo)

theorem movesOn_downloadChunk (chunkInfo : ChunkInfo) :
    MovesOn [] task (task.downloadChunk chunkInfo) := by
  unfold downloadChunk
  split
  · exact task.movesOn_tryDownloadNextChunk
  · exact task.movesOn_base (.of_eq rfl rfl rfl rfl rfl rfl rfl rfl)

theorem movesOn_startNextChunk : MovesOn [] task task.startNextChunk := by
  unfold startNextChunk
  split
  · exact .refl task
  split
  · split
    · exact task.movesOn_base (task.moves_break _)
    · exact task.movesOn_requestMissingChunkInfo _
    · exact (movesOn_downloadChunk _ _).comp (movesOn_of_same rfl rfl rfl rfl)
  · split
    · exact .refl task
    · exact task.movesOn_requestMissingChunkInfo _
    · exact (movesOn_downloadChunk _ _).comp (movesOn_of_same rfl rfl rfl rfl)

theorem movesOn_chunkDownloaded : MovesOn [] task task.chunkDownloaded := by
  have clears : MovesOn [] task
      (task.base fun base => { base with downloadingLtHandle := none }) :=
    task.movesOn_base (.of_eq rfl rfl rfl rfl rfl rfl rfl rfl)
  unfold chunkDownloaded
  simp only
  split
  · exact (movesOn_backgroundJob _ .checkFinishCondition).comp
      ((movesOn_tryDownloadNextChunk _).comp clears)
  · exact (movesOn_tryDownloadNextChunk _).comp clears

theorem movesOn_downloadCompleted (torrent : Torrent) :
    MovesOn [] task (task.downloadCompleted torrent) := by
  unfold downloadCompleted
  split
  · exact task.movesOn_backgroundJob .parseFinishInfoFile
  · exact task.movesOn_chunkDownloaded

theorem movesOn_downloadFailed (torrent : Torrent) :
    MovesOn [] task (task.downloadFailed torrent) := by
  unfold downloadFailed
  simp only
  split
  · exact task.movesOn_base (.of_eq rfl rfl rfl rfl rfl rfl rfl rfl)
  · refine (movesOn_tryDownloadNextChunk _).comp ?_
    exact ⟨.of_eq rfl rfl rfl rfl rfl rfl rfl rfl, rfl, rfl, rfl⟩

theorem movesOn_acceptFinishStreamTx (finishStream : StreamFinishRequest) :
    MovesOn [] task (task.acceptFinishStreamTx finishStream) := by
  unfold acceptFinishStreamTx
  split
  · exact .refl task
  · split
    · exact .refl task
    · simp only
      split
      · exact (movesOn_backgroundJob _ .parseFinishInfoFile).comp (movesOn_of_same rfl rfl rfl rfl)
      · exact ⟨.of_eq rfl rfl rfl rfl rfl rfl rfl rfl, rfl, rfl, rfl⟩

theorem movesOn_completeStreamFinishing (result : SandboxResult) :
    MovesOn [] task (task.completeStreamFinishing result) := by
  unfold completeStreamFinishing
  simp only
  split
  · exact task.movesOn_base (.of_eq rfl rfl rfl rfl rfl rfl rfl rfl)
  · exact (movesOn_sessionJob _ .myRootHashIsCalculated).comp
      (task.movesOn_base (.of_eq rfl rfl rfl rfl rfl rfl rfl rfl))

theorem movesOn_foldl_request (cells : List Nat) (task : StreamTask) :
    MovesOn new task (cells.foldl requestMissingChunkInfo task) := by
  induction cells generalizing task with
  | nil => exact .refl task
  | cons cell cells ih => exact (ih _).comp (task.movesOn_requestMissingChunkInfo cell)

theorem movesOn_checkFinishCondition (result : Option SandboxResult) :
    MovesOn [] task (task.checkFinishCondition result) := by
  unfold checkFinishCondition
  split
  · exact .refl task
  · split
    · exact .refl task
    · split
      · exact movesOn_foldl_request _ task
      · split
        · split
          · exact task.movesOn_completeStreamFinishing _
          · exact task.movesOn_base (.of_eq rfl rfl rfl rfl rfl rfl rfl rfl)
        · exact .refl task

theorem movesOn_continueFinishStream (result : Option SandboxResult) :
    MovesOn [] task (task.continueFinishStream result) := by
  unfold continueFinishStream
  split
  · exact .refl task
  · split
    · exact task.movesOn_sessionJob (.requestMissingChunkInfo _)
    · exact task.movesOn_checkFinishCondition result

theorem movesOn_parseFinishInfoFile (loaded : List FinishStreamChunkInfo) (complete : Bool)
    (result : Option SandboxResult) :
    MovesOn [] task (task.parseFinishInfoFile loaded complete result) := by
  unfold parseFinishInfoFile
  simp only
  split
  · exact (movesOn_continueFinishStream _ result).comp (movesOn_of_same rfl rfl rfl rfl)
  · exact movesOn_of_same rfl rfl rfl rfl

theorem movesOn_onMetadataReceived (torrent : Torrent) (totalSize : Nat) (isValid : Bool) :
    MovesOn [] task (task.onMetadataReceived torrent totalSize isValid) := by
  unfold onMetadataReceived
  split
  · exact task.movesOn_base (.of_eq rfl rfl rfl rfl rfl rfl rfl rfl)
  · exact (movesOn_downloadFailed _ _).comp
      (task.movesOn_base (.of_eq rfl rfl rfl rfl rfl rfl rfl rfl))

theorem movesOn_processedModifyOpinion (anOpinion : ApprovalTransactionInfo) :
    MovesOn [] task (task.processedModifyOpinion anOpinion).1 := by
  unfold processedModifyOpinion
  split
  · split
    · have checks (stored : StreamTask) :
          MovesOn [] stored (stored.approval (·.checkOpinionNumberAndStartTimer)) :=
        ⟨stored.moves_checkOpinionNumber, rfl, rfl,
          ModifyApprovalTaskBase.received_checkOpinionNumber⟩
      exact (checks _).comp (movesOn_of_same rfl rfl rfl rfl)
    · exact .refl task
  · exact .refl task

variable {task}

theorem movesOn_popSessionJob {job : SessionJob} {rest : List SessionJob}
    (jobs : task.sessionJobs = job :: rest) :
    MovesOn [] task (task.base fun base => { base with sessionJobs := rest }) :=
  task.movesOn_base (UpdateDriveTaskBase.moves_popSessionJob jobs)

theorem movesOn_popBackgroundJob {job : BackgroundJob} {rest : List BackgroundJob}
    (jobs : task.backgroundJobs = job :: rest) :
    MovesOn [] task (task.base fun base => { base with backgroundJobs := rest }) :=
  task.movesOn_base (UpdateDriveTaskBase.moves_popBackgroundJob jobs)

theorem uploadsStep_runSessionJob {job : SessionJob} {rest : List SessionJob}
    (jobs : task.sessionJobs = job :: rest)
    (step : (task.base fun base => { base with sessionJobs := rest }).runSessionJob job =
      some after) : UploadsStep .runSessionJob task after := by
  have popped := movesOn_popSessionJob jobs
  cases job with
  | startNextChunk =>
      obtain rfl := Option.some.inj step
      exact ((movesOn_startNextChunk _).comp popped).uploadsStep _
  | requestMissingChunkInfo =>
      obtain rfl := Option.some.inj step
      exact ((movesOn_requestMissingChunkInfo _ _).comp popped).uploadsStep _
  | myRootHashIsCalculated =>
      obtain rfl := Option.some.inj step
      exact ⟨UpdateDriveTaskBase.uploadsStep_myRootHashIsCalculated jobs rfl, rfl, rfl, rfl⟩
  | onCumulativeUploadsUpdated =>
      obtain rfl := Option.some.inj step
      exact ⟨.goesOn (UpdateDriveTaskBase.goesOn_onCumulativeUploadsUpdated jobs rfl), rfl, rfl, rfl⟩
  | myOpinionIsCreated =>
      obtain rfl := Option.some.inj step
      exact ⟨.goesOn (ModifyApprovalTaskBase.goesOn_myOpinionIsCreated jobs), rfl, rfl,
        ModifyApprovalTaskBase.received_myOpinionIsCreated⟩
  | synchronizationIsCompleted =>
      obtain rfl := Option.some.inj step
      exact ⟨UpdateDriveTaskBase.uploadsStep_synchronizationIsCompleted jobs rfl, rfl, rfl, rfl⟩
  | modifyIsCompleted =>
      obtain rfl := Option.some.inj step
      exact ⟨.goesOn (UpdateDriveTaskBase.goesOn_modifyIsCompleted jobs rfl), rfl, rfl, rfl⟩
  | downloadNotification handle =>
      unfold runSessionJob at step
      simp only at step
      split at step
      · obtain rfl := Option.some.inj step
        exact ((movesOn_downloadCompleted _ _).comp popped).uploadsStep _
      · simp at step
  | modifyIsCompletedWithError | downloadMissingFiles | createUnusedFileList | unusedFilesRemoved
  | runNextTask => simp [runSessionJob] at step

theorem uploadsStep_continueSynchronizing {result : FileSystemResult} {rest : List BackgroundJob}
    (jobs : task.backgroundJobs = .continueSynchronizingDriveWithSandbox :: rest) :
    UploadsStep (.runBackgroundJob (.fileSystem result)) task
      ((task.base fun base => { base with
        backgroundJobs := rest }).continueSynchronizingDriveWithSandbox result) := by
  have popped := UpdateDriveTaskBase.moves_popBackgroundJob jobs
  cases result with
  | exception =>
      have finishes := UpdateDriveTaskBase.moves_finishTask
        { task.toUpdateDriveTaskBase with backgroundJobs := rest }
      exact ⟨.fails ⟨rfl, by rw [jobs]; rfl⟩ (popped.trans_nil finishes).fails, rfl, rfl, rfl⟩
  | done =>
      have schedules := (movesOn_sessionJob _ .synchronizationIsCompleted).comp
        ((task.base fun base => { base with backgroundJobs := rest }).movesOn_base
          (f := fun base => { base with drive := base.drive.keepUsedTorrents }.addFsTreeTorrent)
          (.of_eq rfl rfl rfl rfl rfl rfl rfl rfl))
      refine ⟨.goesOn ((popped.trans_nil schedules.moves).goesOn ?_), rfl, rfl, rfl⟩
      intro stage isNew
      obtain rfl := List.mem_singleton.mp isNew
      exact (task.hasStage_of_backgroundJob (jobs ▸ List.mem_cons_self) rfl).justifies

theorem uploadsStep_runBackgroundJob {job : BackgroundJob} {rest : List BackgroundJob}
    {result : BackgroundResult} (jobs : task.backgroundJobs = job :: rest)
    (step : (task.base fun base => { base with backgroundJobs := rest }).runBackgroundJob job
      result = some after) : UploadsStep (.runBackgroundJob result) task after := by
  have popped := movesOn_popBackgroundJob jobs
  unfold runBackgroundJob at step
  split at step
  · obtain rfl := Option.some.inj step
    exact ⟨.goesOn (UpdateDriveTaskBase.goesOn_runSaveJob jobs), rfl, rfl, rfl⟩
  · obtain rfl := Option.some.inj step
    exact uploadsStep_continueSynchronizing jobs
  · obtain rfl := Option.some.inj step
    exact ((movesOn_parseFinishInfoFile _ _ _ _).comp popped).uploadsStep _
  · obtain rfl := Option.some.inj step
    exact ((movesOn_checkFinishCondition _ _).comp popped).uploadsStep _
  · obtain rfl := Option.some.inj step
    exact ((movesOn_checkFinishCondition _ _).comp popped).uploadsStep _
  · simp at step

theorem uploadsStep {event : TaskEvent} (isInternal : event.isInternal = true)
    (step : streamSystem.step task event = some after) : UploadsStep event task after := by
  obtain ⟨-, handles⟩ := handles_of_step step
  cases handles with
  | runSessionJob jobs run => exact uploadsStep_runSessionJob jobs run
  | runBackgroundJob jobs run => exact uploadsStep_runBackgroundJob jobs run
  | torrentsRemoved found =>
      exact ⟨.goesOn (UpdateDriveTaskBase.goesOn_onTorrentsRemoved found), rfl, rfl, rfl⟩
  | metadataReceived found totalSize isValid =>
      exact (task.movesOn_onMetadataReceived _ _ _).uploadsStep _
  | @torrentFinished handle torrent found =>
      exact (task.movesOn_base (task.moves_torrentFinished torrent)).uploadsStep _
  | pieceReceived uploader size =>
      exact (task.movesOn_base (task.moves_addTraffic uploader size)).uploadsStep _
  | modifyOpinionTimerExpired pending =>
      have moves : MovesOn [] task (task.approval fun approval =>
          { approval with modifyOpinionTimer := .expired }.opinionTimerExpired) :=
        ⟨ModifyApprovalTaskBase.moves_opinionTimerExpired
          { task.toModifyApprovalTaskBase with modifyOpinionTimer := .expired }, rfl, rfl,
          ModifyApprovalTaskBase.received_opinionTimerExpired⟩
      exact moves.uploadsStep _
  | shareMyOpinionTimerExpired pending =>
      have moves : MovesOn [] task (task.approval (·.shareMyOpinionTimerExpired)) :=
        ⟨task.moves_shareMyOpinionTimerExpired, rfl, rfl,
          ModifyApprovalTaskBase.received_shareMyOpinionTimerExpired⟩
      exact moves.uploadsStep _
  | opinionReceived | approvalTxPublished | approvalTxFailed | cancelModify | driveClose
  | manualSynchronize | terminate | setReplicators | setMinReplicatorsNumber
  | chunkInfoReceived | finishStream => simp [TaskEvent.isInternal] at isInternal

theorem opinionController_of_counts {event : TaskEvent}
    (isCount : task.toUpdateDriveTaskBase.CountsUploads event)
    (step : streamSystem.step task event = some after) :
    after.drive.opinionController = task.drive.opinionController.updateCumulativeUploads
      task.drive.modifyTrafficMap task.request.streamId task.drive.modifyDonatorShard task.request.maxSizeBytes := by
  obtain ⟨rfl, rest, popped⟩ := isCount.pop
  unfold streamSystem at step
  simp only at step
  split at step
  · simp at step
  unfold handle at step
  simp only [popped] at step
  obtain rfl := Option.some.inj step
  have counted := (UpdateDriveTaskBase.myRootHashIsCalculated_cases
    { task.toUpdateDriveTaskBase with sessionJobs := rest } task.request.streamId task.request.maxSizeBytes).resolve_left
    fun ends => by simp [isCount.2.2] at ends
  exact counted.opinionController

end StreamTask

end SiriusDrive
