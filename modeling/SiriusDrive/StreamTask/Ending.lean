import SiriusDrive.StreamTask.Proceeds
import SiriusDrive.StreamTask.Steps
import SiriusDrive.StreamTask.UploadsStep
import SiriusDrive.UpdateDriveTaskBase.Ending

/-! # The end of an interrupted stream

Until its sandbox is calculated, a stream that has no chunk to download has nothing scheduled that
leads to its end, and an interruption does not end it.
-/

namespace SiriusDrive.StreamTask

variable (task : StreamTask)

def EndsIfInterrupted : Prop := task.taskIsInterrupted = true → task.EndsOrBreaks

/-- The own opinion is formed, and no approval has come. -/
def WaitsForApproval : Prop :=
  task.sandboxCalculated = true ∧ task.shadowing.modifyApproveTxReceived = false

def Interrupts : TaskEvent → Prop
  | .approvalTxPublished transaction => ¬ task.Applies transaction
  | .cancelModify cancelRequest => cancelRequest.modifyTransactionHash = task.request.streamId
  | .driveClose | .manualSynchronize | .terminate => True
  | _ => False

instance : Decidable task.WaitsForApproval := inferInstanceAs (Decidable (_ ∧ _))

instance : ∀ event, Decidable (task.Interrupts event)
  | .approvalTxPublished _ => inferInstanceAs (Decidable (¬ _))
  | .cancelModify _ => inferInstanceAs (Decidable (_ = _))
  | .driveClose | .manualSynchronize | .terminate => inferInstanceAs (Decidable True)
  | .runSessionJob | .runBackgroundJob .. | .torrentsRemoved .. | .metadataReceived ..
  | .torrentFinished .. | .pieceReceived .. | .modifyOpinionTimerExpired
  | .shareMyOpinionTimerExpired | .opinionReceived .. | .approvalTxFailed .. | .setReplicators ..
  | .setMinReplicatorsNumber .. | .chunkInfoReceived .. | .finishStream .. =>
      inferInstanceAs (Decidable False)

/-- What interrupts a task that has neither a download nor anything else that leads to its end
    finds it waiting for its approval, and is none itself. -/
def InterruptedInTime (event : TaskEvent) : Prop :=
  task.Interrupts event → task.IsIdle → task.WaitsForApproval ∧ event.isApproval = false

instance (event : TaskEvent) : Decidable (task.InterruptedInTime event) :=
  inferInstanceAs (Decidable (_ → _ → _))

variable {task} {after : StreamTask}

/-! ## The jobs -/

theorem Proceeds.ends {sandbox : Option SandboxResult} (proceeds : Proceeds sandbox task after)
    (ends : task.Ends) : after.Ends :=
  ends.extends proceeds.work

variable {steps : Nat}

theorem endsIn_continueSynchronizing (task : StreamTask) (result : FileSystemResult) :
    (task.continueSynchronizingDriveWithSandbox result).EndsIn 3 := by
  cases result with
  | done => exact UpdateDriveTaskBase.endsIn_executeOnSessionThread _ rfl
  | exception => exact UpdateDriveTaskBase.endsIn_finishTask _

theorem endsIn_runSessionJob {job : SessionJob} (leads : job.stepsToEnd = some steps)
    (run : task.runSessionJob job = some after) (interrupted : task.taskIsInterrupted = true) :
    after.fault.isSome = true ∨ after.EndsIn steps := by
  cases job with
  | myRootHashIsCalculated =>
      obtain rfl := Option.some.inj run
      obtain rfl := Option.some.inj leads
      exact .inr (UpdateDriveTaskBase.endsIn_myRootHashIsCalculated interrupted _ _)
  | onCumulativeUploadsUpdated =>
      obtain rfl := Option.some.inj run
      obtain rfl := Option.some.inj leads
      exact .inr (UpdateDriveTaskBase.endsIn_onCumulativeUploadsUpdated interrupted _)
  | myOpinionIsCreated =>
      obtain rfl := Option.some.inj run
      obtain rfl := Option.some.inj leads
      exact .inr (ModifyApprovalTaskBase.endsIn_myOpinionIsCreated interrupted)
  | synchronizationIsCompleted =>
      obtain rfl := Option.some.inj run
      obtain rfl := Option.some.inj leads
      exact .inr (UpdateDriveTaskBase.endsIn_synchronizationIsCompleted _ _)
  | modifyIsCompleted =>
      obtain rfl := Option.some.inj run
      obtain rfl := Option.some.inj leads
      exact UpdateDriveTaskBase.endsIn_modifyIsCompleted _ _
  | modifyIsCompletedWithError | unusedFilesRemoved | createUnusedFileList => cases run
  | downloadMissingFiles | startNextChunk | requestMissingChunkInfo | downloadNotification
  | runNextTask => cases leads

theorem endsIn_runBackgroundJob {job : BackgroundJob} {result : BackgroundResult}
    (leads : job.stepsToEnd = some steps) (run : task.runBackgroundJob job result = some after) :
    after.EndsIn steps := by
  unfold runBackgroundJob at run
  split at run
  · obtain rfl := Option.some.inj run
    exact UpdateDriveTaskBase.endsIn_runSaveJob _ leads
  · obtain rfl := Option.some.inj run
    obtain rfl := Option.some.inj leads
    exact endsIn_continueSynchronizing _ _
  · cases leads
  · cases leads
  · cases leads
  · cases run

theorem endsOrBreaks_runSessionJob {job : SessionJob} {rest : List SessionJob} (ends : task.Ends)
    (interrupted : task.taskIsInterrupted = true) (jobs : task.sessionJobs = job :: rest)
    (run : (task.base fun base => { base with sessionJobs := rest }).runSessionJob job =
      some after) : after.EndsOrBreaks := by
  cases leads : job.stepsToEnd with
  | some steps => exact (endsIn_runSessionJob leads run interrupted).imp_right fun ends => ends.ends
  | none =>
      right
      have popped := ends.popSessionJob jobs leads
      cases job with
      | startNextChunk =>
          obtain rfl := Option.some.inj run
          exact (proceeds_startNextChunk _ : Proceeds none _ _).ends popped
      | requestMissingChunkInfo chunkIndex =>
          obtain rfl := Option.some.inj run
          exact popped
      | downloadNotification handle =>
          simp only [runSessionJob] at run
          split at run
          · obtain rfl := Option.some.inj run
            exact (proceeds_downloadCompleted _ _ : Proceeds none _ _).ends popped
          · cases run
      | downloadMissingFiles | runNextTask => cases run
      | modifyIsCompletedWithError | myRootHashIsCalculated | onCumulativeUploadsUpdated
      | myOpinionIsCreated | synchronizationIsCompleted | modifyIsCompleted | createUnusedFileList
      | unusedFilesRemoved => cases leads

theorem ends_runBackgroundJob {job : BackgroundJob} {rest : List BackgroundJob}
    {result : BackgroundResult} (ends : task.Ends) (jobs : task.backgroundJobs = job :: rest)
    (run : (task.base fun base => { base with backgroundJobs := rest }).runBackgroundJob job
      result = some after) : after.Ends := by
  cases leads : job.stepsToEnd with
  | some steps => exact (endsIn_runBackgroundJob leads run).ends
  | none =>
      have popped := ends.popBackgroundJob jobs leads
      unfold runBackgroundJob at run
      split at run
      · rename_i save
        obtain rfl := Option.some.inj run
        exact popped.extends (UpdateDriveTaskBase.persists_runSaveJob _ save).toExtends
      · cases leads
      · obtain rfl := Option.some.inj run
        exact (proceeds_parseFinishInfoFile _ _ _ _).ends popped
      · obtain rfl := Option.some.inj run
        exact (proceeds_checkFinishCondition _ _).ends popped
      · obtain rfl := Option.some.inj run
        exact (proceeds_checkFinishCondition _ _).ends popped
      · cases run

/-! ## The steps -/

theorem endsOrBreaks_breakTask_iff : task.breakTask.EndsOrBreaks ↔
    task.downloadingLtHandle.isSome = true ∨ task.WaitsForApproval ∨ task.EndsOrBreaks := by
  have breaks := task.endsOrBreaks_breakTorrentDownload_iff
    (·.tryBreakTask task.shadowing.modifyApproveTxReceived)
  rw [UpdateDriveTaskBase.endsOrBreaks_tryBreakTask_iff] at breaks
  exact breaks

theorem taskIsInterrupted_breakTask (task : StreamTask) : task.breakTask.taskIsInterrupted = true :=
  (task.interrupts_breakTorrentDownload fun base =>
    base.moves_tryBreakTask task.shadowing.modifyApproveTxReceived).interrupted

/-- An interruption ends the task if it finds a download, an opinion that waits for its approval,
    or what ends the task without it. -/
theorem step_of_interrupts {event : TaskEvent} (unbroken : task.fault = none)
    (running : task.taskIsInterrupted = false) (interrupts : task.Interrupts event) :
    ∃ after, streamSystem.step task event = some after ∧ after.taskIsInterrupted = true ∧
      (after.EndsOrBreaks ↔ task.downloadingLtHandle.isSome = true ∨
        task.WaitsForApproval ∧ event.isApproval = false ∨ task.EndsOrBreaks) := by
  have step : streamSystem.step task event = task.handle event := by
    simp [streamSystem, unbroken]
  have notInterrupted : ¬ task.taskIsInterrupted = true := by simp [running]
  rw [step]
  cases event with
  | approvalTxPublished transaction =>
      refine ⟨_, rfl, ?_⟩
      rw [onApprovalTxPublished_breaks running interrupts]
      refine ⟨taskIsInterrupted_breakTask _, endsOrBreaks_breakTask_iff.trans ?_⟩
      refine or_congr Iff.rfl (or_congr ?_ Iff.rfl)
      exact iff_of_false (fun waits => by cases waits.2) fun waits => by cases waits.2
  | cancelModify cancelRequest =>
      have isOwn : cancelRequest.modifyTransactionHash = task.request.streamId := interrupts
      refine ⟨task.breakTask, ?_, task.taskIsInterrupted_breakTask, ?_⟩
      · unfold handle shouldCancelModify
        simp only [if_neg notInterrupted, if_pos isOwn]
      · simpa [TaskEvent.isApproval] using endsOrBreaks_breakTask_iff
  | driveClose =>
      refine ⟨task.breakTask, ?_, task.taskIsInterrupted_breakTask, ?_⟩
      · unfold handle onDriveClose
        simp only [if_neg notInterrupted]
      · simpa [TaskEvent.isApproval] using endsOrBreaks_breakTask_iff
  | manualSynchronize =>
      refine ⟨task.breakTask, ?_, task.taskIsInterrupted_breakTask, ?_⟩
      · unfold handle StreamTask.manualSynchronize
        simp only [if_neg notInterrupted]
      · simpa [TaskEvent.isApproval] using endsOrBreaks_breakTask_iff
  | terminate =>
      refine ⟨task.terminate, rfl, taskIsInterrupted_breakTask _, ?_⟩
      refine endsOrBreaks_breakTask_iff.trans ?_
      refine or_congr Iff.rfl (or_congr ?_ Iff.rfl)
      exact (and_iff_left rfl).symm
  | _ => exact interrupts.elim

theorem persists_processedModifyOpinion (task : StreamTask)
    (anOpinion : ApprovalTransactionInfo) : task.toUpdateDriveTaskBase.Persists
      (task.processedModifyOpinion anOpinion).1.toUpdateDriveTaskBase := by
  unfold processedModifyOpinion
  split
  · split
    · exact (task.storeOpinion anOpinion).leaves_checkOpinionNumber.persists
    · exact .refl _
  · exact .refl _

theorem taskIsInterrupted_of_step {event : TaskEvent} (other : ¬ task.Interrupts event)
    (step : streamSystem.step task event = some after) :
    after.taskIsInterrupted = task.taskIsInterrupted := by
  have handles := (handles_of_step step).2
  cases handles with
  | approvalTxPublished transaction =>
      have applies : task.Applies transaction := not_not.mp other
      cases running : task.taskIsInterrupted with
      | true => rw [onApprovalTxPublished_interrupted running, running]
      | false =>
          rw [onApprovalTxPublished_applies running applies, ← running]
          exact (UpdateDriveTaskBase.leaves_startSynchronizingAfter _
            transaction).persists.interrupted
  | cancelModify cancelRequest =>
      have notOwn : ¬ cancelRequest.modifyTransactionHash = task.request.streamId := other
      unfold shouldCancelModify
      rw [if_neg notOwn]
      split <;> rfl
  | opinionReceived anOpinion => exact (task.persists_processedModifyOpinion anOpinion).interrupted
  | chunkInfoReceived chunkInfo isVerified =>
      exact (task.proceeds_acceptChunkInfoMessage chunkInfo isVerified :
        Proceeds none _ _).work.interrupted
  | finishStream finishStream =>
      exact (task.proceeds_acceptFinishStreamTx finishStream : Proceeds none _ _).work.interrupted
  | driveClose | manualSynchronize | terminate => exact absurd trivial other
  | setReplicators | setMinReplicatorsNumber | approvalTxFailed => rfl
  | runSessionJob | runBackgroundJob | torrentsRemoved | metadataReceived | torrentFinished
  | pieceReceived | modifyOpinionTimerExpired | shareMyOpinionTimerExpired =>
      exact (uploadsStep rfl step).base.interrupted

theorem endsOrBreaks_of_handles {event : TaskEvent} (ends : task.Ends)
    (interrupted : task.taskIsInterrupted = true) (handles : task.Handles event after) :
    after.EndsOrBreaks := by
  have extended {after : StreamTask} (extended : task.Extends after.toUpdateDriveTaskBase) :
      after.EndsOrBreaks := .inr (ends.extends extended)
  cases handles with
  | runSessionJob jobs run => exact endsOrBreaks_runSessionJob ends interrupted jobs run
  | runBackgroundJob jobs run => exact .inr (ends_runBackgroundJob ends jobs run)
  | torrentsRemoved found => exact .inr (ends.torrentsRemoved found)
  | metadataReceived found totalSize isValid =>
      exact extended (task.proceeds_onMetadataReceived _ _ _ : Proceeds none _ _).work
  | torrentFinished found =>
      exact extended
        ⟨rfl, id, List.Subset.refl _, List.subset_append_left _ _, List.Subset.refl _⟩
  | pieceReceived uploader size =>
      exact extended (task.leaves_addTraffic uploader size).persists.toExtends
  | modifyOpinionTimerExpired pending =>
      exact extended (ModifyApprovalTaskBase.leaves_opinionTimerExpired
        { task.toModifyApprovalTaskBase with modifyOpinionTimer := .expired }).persists.toExtends
  | shareMyOpinionTimerExpired pending =>
      exact extended task.leaves_shareMyOpinionTimerExpired.persists.toExtends
  | opinionReceived anOpinion =>
      exact extended (task.persists_processedModifyOpinion anOpinion).toExtends
  | approvalTxPublished transaction =>
      rw [onApprovalTxPublished_interrupted interrupted]
      exact .inr ends
  | cancelModify cancelRequest =>
      unfold shouldCancelModify
      rw [if_pos interrupted]
      exact .inr ends
  | driveClose =>
      unfold onDriveClose
      rw [if_pos interrupted]
      exact .inr ends
  | manualSynchronize =>
      unfold StreamTask.manualSynchronize
      rw [if_pos interrupted]
      exact .inr ends
  | terminate => exact endsOrBreaks_breakTask_iff.mpr (.inr (.inr (.inr ends)))
  | setReplicators replicatorKeys =>
      exact extended (task.leaves_setReplicators replicatorKeys).persists.toExtends
  | setMinReplicatorsNumber number =>
      exact extended (task.leaves_setMinReplicatorsNumber number).persists.toExtends
  | chunkInfoReceived chunkInfo isVerified =>
      exact extended (task.proceeds_acceptChunkInfoMessage _ _ : Proceeds none _ _).work
  | finishStream finishStream =>
      exact extended (task.proceeds_acceptFinishStreamTx _ : Proceeds none _ _).work
  | approvalTxFailed => exact .inr ends

theorem EndsIfInterrupted.step {event : TaskEvent} (ends : task.EndsIfInterrupted)
    (inTime : task.InterruptedInTime event)
    (step : streamSystem.step task event = some after) : after.EndsIfInterrupted := by
  obtain ⟨unbroken, handles⟩ := handles_of_step step
  cases running : task.taskIsInterrupted with
  | true =>
      exact fun _ => endsOrBreaks_of_handles ((ends running).ends unbroken) running handles
  | false =>
      intro interrupted
      by_cases interrupts : task.Interrupts event
      · obtain ⟨next, isNext, -, comes⟩ := step_of_interrupts unbroken running interrupts
        obtain rfl := Option.some.inj (step.symm.trans isNext)
        rw [comes]
        by_cases idle : task.IsIdle
        · exact .inr (.inl (inTime interrupts idle))
        · exact (UpdateDriveTaskBase.endsOrBreaks_of_not_isIdle idle running).imp_right .inr
      · have same := taskIsInterrupted_of_step interrupts step
        rw [interrupted, running] at same
        cases same

/-- An interruption that comes at another time leaves the task without an end. -/
theorem step_of_not_inTime {event : TaskEvent} (late : ¬ task.InterruptedInTime event) :
    ∃ after, streamSystem.step task event = some after ∧ ¬ after.EndsIfInterrupted := by
  unfold InterruptedInTime at late
  push Not at late
  obtain ⟨interrupts, ⟨running, idle, nothing⟩, notWaiting⟩ := late
  have unbroken : task.fault = none := UpdateDriveTaskBase.fault_of_not_endsOrBreaks nothing
  obtain ⟨after, step, interrupted, comes⟩ := step_of_interrupts unbroken running interrupts
  refine ⟨after, step, fun ends => ?_⟩
  rcases comes.mp (ends interrupted) with downloading | ⟨waits, other⟩ | endsOrBreaks
  · simp [idle] at downloading
  · exact notWaiting waits other
  · exact nothing endsOrBreaks

/-- An interrupted stream comes to its end in exactly those runs in which every interruption comes
    in time. -/
theorem endsIfInterrupted_iff (request : StreamRequest) (drive : DriveParams)
    (events : List TaskEvent) :
    streamSystem.Always EndsIfInterrupted (create request drive) events ↔
      streamSystem.Meets InterruptedInTime (create request drive) events := by
  apply Transition.always_iff_meets (E := fun _ _ => True) (I := EndsIfInterrupted)
  · exact fun task ends => ends
  · exact fun task event after ends _ inTime step => ends.step inTime step
  · exact fun task event _ _ late => step_of_not_inTime late
  · intro interrupted
    cases interrupted
  · exact Transition.meets_of_forall fun _ _ => trivial

end SiriusDrive.StreamTask
