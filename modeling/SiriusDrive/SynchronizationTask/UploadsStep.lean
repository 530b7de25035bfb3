import SiriusDrive.FlatDrive
import SiriusDrive.SynchronizationTask.Steps
import SiriusDrive.UpdateDriveTaskBase.UploadsStep

/-! # The uploads of a synchronization

A task that follows a published root hash counts nothing for itself: it only brings
the uploads to what is expected, and approves them.
-/

namespace SiriusDrive

namespace SynchronizationTask

open UpdateDriveTaskBase (Moves GoesOn isEnding_of_interrupted)

/-- The task goes on for its root hash, scheduling nothing but for some stages. -/
structure MovesOn (new : List UpdateStage) (before after : SynchronizationTask) : Prop where
  moves : Moves new before.toUpdateDriveTaskBase after.toUpdateDriveTaskBase
  kind : after.kind = before.kind
  modification : after.modificationTransactionHash = before.modificationTransactionHash

structure UploadsStep (event : TaskEvent) (before after : SynchronizationTask) : Prop where
  base : UpdateDriveTaskBase.UploadsStep True event before.modificationTransactionHash 0
    before.toUpdateDriveTaskBase after.toUpdateDriveTaskBase
  kind : after.kind = before.kind
  modification : after.modificationTransactionHash = before.modificationTransactionHash

variable {new : List UpdateStage} {before middle after : SynchronizationTask}

theorem MovesOn.comp (second : MovesOn new middle after) (first : MovesOn new before middle) :
    MovesOn new before after :=
  ⟨first.moves.trans second.moves, second.kind.trans first.kind,
    second.modification.trans first.modification⟩

theorem MovesOn.uploadsStep (moves : MovesOn [] before after) (event : TaskEvent) :
    UploadsStep event before after :=
  ⟨.goesOn moves.moves.goesOn_nil, moves.kind, moves.modification⟩

theorem movesOn_of_same {task after : SynchronizationTask}
    (same : after.toUpdateDriveTaskBase = task.toUpdateDriveTaskBase)
    (kind : after.kind = task.kind)
    (modification : after.modificationTransactionHash = task.modificationTransactionHash) :
    MovesOn new task after :=
  ⟨same ▸ .refl _, kind, modification⟩

variable (task : SynchronizationTask)

theorem movesOn_base {f : UpdateDriveTaskBase → UpdateDriveTaskBase}
    (moves : Moves new task.toUpdateDriveTaskBase (f task.toUpdateDriveTaskBase)) :
    MovesOn new task (task.base f) :=
  ⟨moves, rfl, rfl⟩

theorem movesOn_sessionJob (job : SessionJob) :
    MovesOn job.stage?.toList task (task.base (·.executeOnSessionThread job)) :=
  task.movesOn_base (task.moves_executeOnSessionThread job)

theorem movesOn_break (fault : Fault) : MovesOn new task (task.base (·.break_ fault)) :=
  task.movesOn_base (task.moves_break fault)

theorem movesOn_modifyDriveInSandbox (metaFilesSize sandboxDriveSize fsTreeSize : Nat) :
    MovesOn [] task (task.modifyDriveInSandbox metaFilesSize sandboxDriveSize fsTreeSize) := by
  refine task.movesOn_base ?_
  exact (UpdateDriveTaskBase.moves_executeOnSessionThread _ .myRootHashIsCalculated).comp
    (.of_eq rfl rfl rfl rfl rfl rfl rfl rfl)

theorem movesOn_copyFsTree (metaFilesSize sandboxDriveSize fsTreeSize : Nat) :
    MovesOn [] task (task.copyFsTree metaFilesSize sandboxDriveSize fsTreeSize) :=
  (movesOn_modifyDriveInSandbox _ _ _ _).comp
    (task.movesOn_base (.of_eq rfl rfl rfl rfl rfl rfl rfl rfl))

theorem movesOn_fsTreeDownloaded (infoHash : InfoHash) :
    MovesOn [] task (task.fsTreeDownloaded infoHash) := by
  refine task.movesOn_base ?_
  exact (UpdateDriveTaskBase.moves_executeOnBackgroundThread _ .deserializeFsTree).comp
    (.of_eq rfl rfl rfl rfl rfl rfl rfl rfl)

theorem movesOn_deserializeFsTree (fsTree : Option FsTree) :
    MovesOn [] task (task.deserializeFsTree fsTree) := by
  cases fsTree with
  | none => exact ⟨.of_eq rfl rfl rfl rfl rfl rfl rfl rfl, rfl, rfl⟩
  | some fsTree =>
      refine ⟨?_, rfl, rfl⟩
      exact (UpdateDriveTaskBase.moves_executeOnSessionThread _ .createUnusedFileList).comp
        (.of_eq rfl rfl rfl rfl rfl rfl rfl rfl)

theorem movesOn_createUnusedFileList : MovesOn [] task task.createUnusedFileList := by
  unfold createUnusedFileList
  split
  · refine task.movesOn_base ?_
    exact (UpdateDriveTaskBase.moves_removeTorrents _ _ .removeUnusedFiles).comp
      (.of_eq rfl rfl rfl rfl rfl rfl rfl rfl)
  · exact task.movesOn_break _

theorem movesOn_removeUnusedFiles (missingFiles : List InfoHash) :
    MovesOn [] task (task.removeUnusedFiles missingFiles) := by
  refine ⟨?_, rfl, rfl⟩
  exact (UpdateDriveTaskBase.moves_executeOnSessionThread _ .unusedFilesRemoved).comp
    (.of_eq rfl rfl rfl rfl rfl rfl rfl rfl)

theorem movesOn_downloadMissingFiles : MovesOn [] task task.downloadMissingFiles := by
  unfold downloadMissingFiles
  split
  · refine task.movesOn_base ?_
    exact (UpdateDriveTaskBase.moves_executeOnBackgroundThread _ .modifyDriveInSandbox).comp
      (.of_eq rfl rfl rfl rfl rfl rfl rfl rfl)
  · exact ⟨.of_eq rfl rfl rfl rfl rfl rfl rfl rfl, rfl, rfl⟩

theorem movesOn_startDownloadMissingFiles :
    MovesOn [] task task.startDownloadMissingFiles := by
  unfold startDownloadMissingFiles
  split
  · exact task.movesOn_break _
  · exact (movesOn_downloadMissingFiles _).comp (movesOn_of_same rfl rfl rfl)

theorem movesOn_downloadCompleted (torrent : Torrent) :
    MovesOn [] task (task.downloadCompleted torrent) := by
  unfold downloadCompleted
  split
  · exact task.movesOn_fsTreeDownloaded _
  · exact task.movesOn_downloadMissingFiles

theorem movesOn_onMetadataReceived (torrent : Torrent) (totalSize : Nat) (isValid : Bool) :
    MovesOn [] task (task.onMetadataReceived torrent totalSize isValid) := by
  unfold onMetadataReceived
  split
  · exact task.movesOn_base (.of_eq rfl rfl rfl rfl rfl rfl rfl rfl)
  · exact task.movesOn_base (.of_eq rfl rfl rfl rfl rfl rfl rfl rfl)

theorem movesOn_finishTask_or {task after : SynchronizationTask} {new : List UpdateStage}
    (goesOn : task.taskIsInterrupted = false → MovesOn new task after)
    (finishes : task.taskIsInterrupted = true → after = task.base (·.finishTask)) :
    (task.taskIsInterrupted = true ∧ MovesOn [.ending] task after) ∨ MovesOn new task after := by
  cases interrupted : task.taskIsInterrupted with
  | false => exact .inr (goesOn interrupted)
  | true =>
      rw [finishes interrupted]
      exact .inl ⟨rfl, task.movesOn_base task.moves_finishTask⟩

theorem movesOn_unusedFilesRemoved :
    (task.taskIsInterrupted = true ∧ MovesOn [.ending] task task.unusedFilesRemoved) ∨
      MovesOn [] task task.unusedFilesRemoved := by
  apply movesOn_finishTask_or
  · intro running
    rw [unusedFilesRemoved, if_neg (by simp [running])]
    exact task.movesOn_startDownloadMissingFiles
  · intro interrupted
    rw [unusedFilesRemoved, if_pos interrupted]

theorem movesOn_myOpinionIsCreated :
    (task.taskIsInterrupted = true ∧ MovesOn [.ending] task task.myOpinionIsCreated) ∨
      MovesOn [.opinion, .synchronization] task task.myOpinionIsCreated := by
  apply movesOn_finishTask_or
  · intro running
    rw [myOpinionIsCreated, if_neg (by simp [running])]
    have calculated : Moves [.opinion, .synchronization] task.toUpdateDriveTaskBase
        { task.toUpdateDriveTaskBase with sandboxCalculated := true } := by
      refine ⟨rfl, rfl, rfl, .inl, ?_⟩
      rintro stage (⟨isOpinion, -⟩ | scheduled)
      · exact .inr (by simp [isOpinion])
      · exact .inl (.inr scheduled)
    have starts (base : UpdateDriveTaskBase) : Moves [.opinion, .synchronization] base
        base.startSynchronizingDriveWithSandbox :=
      base.moves_startSynchronizing.mono (by simp)
    exact task.movesOn_base ((starts _).comp calculated)
  · intro interrupted
    rw [myOpinionIsCreated, if_pos interrupted]

theorem movesOn_myOpinionIsCreatedOverride :
    (task.taskIsInterrupted = true ∧ MovesOn [.ending] task task.myOpinionIsCreatedOverride) ∨
      MovesOn [.opinion, .synchronization] task task.myOpinionIsCreatedOverride := by
  unfold myOpinionIsCreatedOverride
  split
  · rename_i myOpinion _ _
    have sends {new : List UpdateStage} : MovesOn new task (task.base fun base =>
        { base with drive := base.drive.sendSingleApprovalTransaction myOpinion }) :=
      task.movesOn_base (.of_eq rfl rfl rfl rfl rfl rfl rfl rfl)
    rcases movesOn_myOpinionIsCreated (task.base fun base =>
      { base with drive := base.drive.sendSingleApprovalTransaction myOpinion }) with
      ⟨interrupted, moves⟩ | moves
    · exact .inl ⟨interrupted, moves.comp sends⟩
    · exact .inr (moves.comp sends)
  · exact .inr (task.movesOn_break _)
  · exact task.movesOn_myOpinionIsCreated

theorem movesOn_continueSynchronizing :
    MovesOn [.synchronization] task (task.continueSynchronizingDriveWithSandbox .done) :=
  (movesOn_sessionJob _ .synchronizationIsCompleted).comp
    (task.movesOn_base (.of_eq rfl rfl rfl rfl rfl rfl rfl rfl))

variable {task}

/-- A step that schedules what is justified, or ends a task which is interrupted. -/
theorem MovesOn.uploadsStep_or {popped : SynchronizationTask} (event : TaskEvent)
    (pops : MovesOn [] task popped)
    (moves : (popped.taskIsInterrupted = true ∧ MovesOn [.ending] popped after) ∨
      MovesOn new popped after) (justified : ∀ stage ∈ new, task.Justifies True stage) :
    UploadsStep event task after := by
  rcases moves with ⟨interrupted, moves⟩ | moves
  · refine ⟨.goesOn ((pops.moves.trans_nil moves.moves).goesOn ?_), moves.kind.trans pops.kind,
      moves.modification.trans pops.modification⟩
    intro stage isNew
    obtain rfl := List.mem_singleton.mp isNew
    exact isEnding_of_interrupted (pops.moves.interrupted ▸ interrupted)
  · exact ⟨.goesOn ((pops.moves.trans_nil moves.moves).goesOn justified),
      moves.kind.trans pops.kind, moves.modification.trans pops.modification⟩

theorem uploadsStep_runSessionJob {job : SessionJob} {rest : List SessionJob}
    (jobs : task.sessionJobs = job :: rest)
    (step : (task.base fun base => { base with sessionJobs := rest }).runSessionJob job =
      some after) : UploadsStep .runSessionJob task after := by
  have popped : MovesOn [] task (task.base fun base => { base with sessionJobs := rest }) :=
    task.movesOn_base (UpdateDriveTaskBase.moves_popSessionJob jobs)
  cases job with
  | createUnusedFileList =>
      obtain rfl := Option.some.inj step
      exact ((movesOn_createUnusedFileList _).comp popped).uploadsStep _
  | unusedFilesRemoved =>
      obtain rfl := Option.some.inj step
      exact MovesOn.uploadsStep_or _ popped (movesOn_unusedFilesRemoved _) (by simp)
  | myRootHashIsCalculated =>
      obtain rfl := Option.some.inj step
      exact ⟨UpdateDriveTaskBase.uploadsStep_myRootHashIsCalculated jobs rfl, rfl, rfl⟩
  | onCumulativeUploadsUpdated =>
      obtain rfl := Option.some.inj step
      exact ⟨.goesOn (UpdateDriveTaskBase.goesOn_onCumulativeUploadsUpdated jobs rfl), rfl, rfl⟩
  | myOpinionIsCreated =>
      obtain rfl := Option.some.inj step
      refine MovesOn.uploadsStep_or _ popped (movesOn_myOpinionIsCreatedOverride _) ?_
      have has : task.IsCounted := .inl (UpdateDriveTaskBase.hasStage_of_head jobs rfl)
      intro stage isNew
      simp only [List.mem_cons, List.not_mem_nil, or_false] at isNew
      rcases isNew with rfl | rfl
      · exact has
      · exact ⟨has, .inr trivial⟩
  | synchronizationIsCompleted =>
      obtain rfl := Option.some.inj step
      exact ⟨UpdateDriveTaskBase.uploadsStep_synchronizationIsCompleted jobs rfl, rfl, rfl⟩
  | modifyIsCompleted =>
      obtain rfl := Option.some.inj step
      exact ⟨.goesOn (UpdateDriveTaskBase.goesOn_modifyIsCompleted jobs rfl), rfl, rfl⟩
  | downloadNotification handle =>
      unfold runSessionJob at step
      simp only at step
      split at step
      · obtain rfl := Option.some.inj step
        exact ((movesOn_downloadCompleted _ _).comp popped).uploadsStep _
      · simp at step
  | modifyIsCompletedWithError | downloadMissingFiles | startNextChunk | requestMissingChunkInfo
  | runNextTask => simp [runSessionJob] at step

theorem uploadsStep_continueSynchronizing {result : FileSystemResult} {rest : List BackgroundJob}
    (jobs : task.backgroundJobs = .continueSynchronizingDriveWithSandbox :: rest) :
    UploadsStep (.runBackgroundJob (.fileSystem result)) task
      ((task.base fun base => { base with
        backgroundJobs := rest }).continueSynchronizingDriveWithSandbox result) := by
  have popped := UpdateDriveTaskBase.moves_popBackgroundJob jobs
  cases result with
  | exception =>
      have finishes := UpdateDriveTaskBase.moves_finishTask
        { task.toUpdateDriveTaskBase with backgroundJobs := rest }
      exact ⟨.fails ⟨rfl, by rw [jobs]; rfl⟩ (popped.trans_nil finishes).fails, rfl, rfl⟩
  | done =>
      have schedules := movesOn_continueSynchronizing
        (task.base fun base => { base with backgroundJobs := rest })
      refine ⟨.goesOn ((popped.trans_nil schedules.moves).goesOn ?_), rfl, rfl⟩
      intro stage isNew
      obtain rfl := List.mem_singleton.mp isNew
      exact (task.hasStage_of_backgroundJob (jobs ▸ List.mem_cons_self) rfl).justifies

theorem uploadsStep_runBackgroundJob {job : BackgroundJob} {rest : List BackgroundJob}
    {result : BackgroundResult} (jobs : task.backgroundJobs = job :: rest)
    (step : (task.base fun base => { base with backgroundJobs := rest }).runBackgroundJob job
      result = some after) : UploadsStep (.runBackgroundJob result) task after := by
  have popped : MovesOn [] task (task.base fun base => { base with backgroundJobs := rest }) :=
    task.movesOn_base (UpdateDriveTaskBase.moves_popBackgroundJob jobs)
  unfold runBackgroundJob at step
  split at step
  · obtain rfl := Option.some.inj step
    exact ⟨.goesOn (UpdateDriveTaskBase.goesOn_runSaveJob jobs), rfl, rfl⟩
  · obtain rfl := Option.some.inj step
    exact uploadsStep_continueSynchronizing jobs
  · obtain rfl := Option.some.inj step
    exact ((movesOn_copyFsTree _ _ _ _).comp popped).uploadsStep _
  · obtain rfl := Option.some.inj step
    exact ((movesOn_modifyDriveInSandbox _ _ _ _).comp popped).uploadsStep _
  · obtain rfl := Option.some.inj step
    exact ((movesOn_deserializeFsTree _ _).comp popped).uploadsStep _
  · obtain rfl := Option.some.inj step
    exact ((movesOn_removeUnusedFiles _ _).comp popped).uploadsStep _
  · simp at step

theorem uploadsStep {event : TaskEvent} (isInternal : event.isInternal = true)
    (step : synchronizationSystem.step task event = some after) :
    UploadsStep event task after := by
  obtain ⟨-, handles⟩ := handles_of_step step
  cases handles with
  | runSessionJob jobs run => exact uploadsStep_runSessionJob jobs run
  | runBackgroundJob jobs run => exact uploadsStep_runBackgroundJob jobs run
  | torrentsRemoved found =>
      exact ⟨.goesOn (UpdateDriveTaskBase.goesOn_onTorrentsRemoved found), rfl, rfl⟩
  | metadataReceived found totalSize isValid =>
      exact (task.movesOn_onMetadataReceived _ _ _).uploadsStep _
  | @torrentFinished handle torrent found =>
      exact (task.movesOn_base (task.moves_torrentFinished torrent)).uploadsStep _
  | pieceReceived uploader size =>
      exact (task.movesOn_base (task.moves_addTraffic uploader size)).uploadsStep _
  | opinionReceived | approvalTxPublished | approvalTxFailed | cancelModify | driveClose
  | manualSynchronize | terminate | setReplicators | setMinReplicatorsNumber
  | chunkInfoReceived | finishStream => simp [TaskEvent.isInternal] at isInternal

theorem opinionController_of_counts {event : TaskEvent}
    (isCount : task.toUpdateDriveTaskBase.CountsUploads event)
    (step : synchronizationSystem.step task event = some after) :
    after.drive.opinionController = task.drive.opinionController.updateCumulativeUploads
      task.drive.modifyTrafficMap task.modificationTransactionHash task.drive.modifyDonatorShard 0 := by
  obtain ⟨rfl, rest, popped⟩ := isCount.pop
  unfold synchronizationSystem at step
  simp only at step
  split at step
  · simp at step
  unfold handle at step
  simp only [popped] at step
  obtain rfl := Option.some.inj step
  have counted := (UpdateDriveTaskBase.myRootHashIsCalculated_cases
    { task.toUpdateDriveTaskBase with sessionJobs := rest } task.modificationTransactionHash 0).resolve_left
    fun ends => by simp [isCount.2.2] at ends
  exact counted.opinionController

end SynchronizationTask

end SiriusDrive
