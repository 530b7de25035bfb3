import SiriusDrive.SynchronizationTask.Steps
import SiriusDrive.SynchronizationTask.UploadsStep
import SiriusDrive.UpdateDriveTaskBase.Ending

/-! # The end of an interrupted synchronization

`tryBreakTask` does nothing here: an interruption that finds no download leaves the task to what
it has scheduled. That is enough as long as the fs tree can be read.
-/

namespace SiriusDrive

/-- The background thread cannot read the fs tree it has been given. -/
def TaskEvent.findsNoFsTree : TaskEvent → Bool
  | .runBackgroundJob (.fsTree none) => true
  | _ => false

theorem TaskEvent.eq_of_findsNoFsTree {event : TaskEvent} (finds : event.findsNoFsTree = true) :
    event = .runBackgroundJob (.fsTree none) := by
  unfold findsNoFsTree at finds
  split at finds
  · rfl
  · cases finds

namespace SynchronizationTask

variable (task : SynchronizationTask)

def EndsIfInterrupted : Prop := task.taskIsInterrupted = true → task.EndsOrBreaks

def Interrupts : TaskEvent → Prop
  | .approvalTxPublished _ => task.kind = .catchingUp
  | .driveClose | .manualSynchronize | .terminate => True
  | _ => False

instance : ∀ event, Decidable (task.Interrupts event)
  | .approvalTxPublished _ => inferInstanceAs (Decidable (_ = _))
  | .driveClose | .manualSynchronize | .terminate => inferInstanceAs (Decidable True)
  | .runSessionJob | .runBackgroundJob .. | .torrentsRemoved .. | .metadataReceived ..
  | .torrentFinished .. | .pieceReceived .. | .modifyOpinionTimerExpired
  | .shareMyOpinionTimerExpired | .opinionReceived .. | .approvalTxFailed .. | .cancelModify ..
  | .setReplicators .. | .setMinReplicatorsNumber .. | .chunkInfoReceived .. | .finishStream .. =>
      inferInstanceAs (Decidable False)

/-- The downloaded fs tree turns out to be unreadable. -/
def FailsToRead (event : TaskEvent) : Prop :=
  event.findsNoFsTree = true ∧ task.backgroundJobs.head? = some .deserializeFsTree

instance (event : TaskEvent) : Decidable (task.FailsToRead event) :=
  inferInstanceAs (Decidable (_ ∧ _))

def withoutBackgroundJob : UpdateDriveTaskBase :=
  { task.toUpdateDriveTaskBase with backgroundJobs := task.backgroundJobs.tail }

/-- What interrupts a task finds a download, or something that leads to its end. An interrupted
    task whose fs tree cannot be read has something else to lead to its end. -/
structure InterruptedInTime (event : TaskEvent) : Prop where
  busy : task.Interrupts event → ¬ task.IsIdle
  readable : task.FailsToRead event → task.taskIsInterrupted = true →
    task.withoutBackgroundJob.EndsOrBreaks

instance (event : TaskEvent) : Decidable (task.InterruptedInTime event) :=
  decidable_of_iff (_ ∧ _) ⟨fun ⟨busy, readable⟩ => ⟨busy, readable⟩,
    fun ⟨busy, readable⟩ => ⟨busy, readable⟩⟩

variable {task} {after : SynchronizationTask}

/-! ## The jobs -/

variable {steps : Nat}

theorem endsIn_createUnusedFileList (task : SynchronizationTask) :
    task.createUnusedFileList.fault.isSome = true ∨ task.createUnusedFileList.EndsIn 3 := by
  unfold createUnusedFileList
  split
  · exact .inr (UpdateDriveTaskBase.endsIn_removeTorrents _ _ rfl)
  · exact .inl rfl

theorem endsIn_unusedFilesRemoved (interrupted : task.taskIsInterrupted = true) :
    task.unusedFilesRemoved.EndsIn 0 := by
  unfold unusedFilesRemoved
  rw [if_pos interrupted]
  exact UpdateDriveTaskBase.endsIn_finishTask _

theorem endsIn_myOpinionIsCreated (interrupted : task.taskIsInterrupted = true) :
    task.myOpinionIsCreated.EndsIn 0 := by
  unfold myOpinionIsCreated
  rw [if_pos interrupted]
  exact UpdateDriveTaskBase.endsIn_finishTask _

theorem endsIn_myOpinionIsCreatedOverride (interrupted : task.taskIsInterrupted = true) :
    task.myOpinionIsCreatedOverride.fault.isSome = true ∨
      task.myOpinionIsCreatedOverride.EndsIn 0 := by
  unfold myOpinionIsCreatedOverride
  split
  · exact .inr (endsIn_myOpinionIsCreated interrupted)
  · exact .inl rfl
  · exact .inr (endsIn_myOpinionIsCreated interrupted)

theorem endsIn_continueSynchronizing (task : SynchronizationTask) (result : FileSystemResult) :
    (task.continueSynchronizingDriveWithSandbox result).EndsIn 3 := by
  cases result with
  | done => exact UpdateDriveTaskBase.endsIn_executeOnSessionThread _ rfl
  | exception => exact UpdateDriveTaskBase.endsIn_finishTask _

theorem endsIn_runSessionJob {job : SessionJob} (leads : job.stepsToEnd = some steps)
    (run : task.runSessionJob job = some after) (interrupted : task.taskIsInterrupted = true) :
    after.fault.isSome = true ∨ after.EndsIn steps := by
  cases job with
  | createUnusedFileList =>
      obtain rfl := Option.some.inj run
      obtain rfl := Option.some.inj leads
      exact endsIn_createUnusedFileList _
  | unusedFilesRemoved =>
      obtain rfl := Option.some.inj run
      obtain rfl := Option.some.inj leads
      exact .inr (endsIn_unusedFilesRemoved interrupted)
  | myRootHashIsCalculated =>
      obtain rfl := Option.some.inj run
      obtain rfl := Option.some.inj leads
      exact .inr (UpdateDriveTaskBase.endsIn_myRootHashIsCalculated interrupted _ _)
  | onCumulativeUploadsUpdated =>
      obtain rfl := Option.some.inj run
      obtain rfl := Option.some.inj leads
      exact .inr (UpdateDriveTaskBase.endsIn_onCumulativeUploadsUpdated interrupted _)
  | myOpinionIsCreated =>
      obtain rfl := Option.some.inj run
      obtain rfl := Option.some.inj leads
      exact endsIn_myOpinionIsCreatedOverride interrupted
  | synchronizationIsCompleted =>
      obtain rfl := Option.some.inj run
      obtain rfl := Option.some.inj leads
      exact .inr (UpdateDriveTaskBase.endsIn_synchronizationIsCompleted _ _)
  | modifyIsCompleted =>
      obtain rfl := Option.some.inj run
      obtain rfl := Option.some.inj leads
      exact UpdateDriveTaskBase.endsIn_modifyIsCompleted _ _
  | modifyIsCompletedWithError => cases run
  | downloadMissingFiles | startNextChunk | requestMissingChunkInfo | downloadNotification
  | runNextTask => cases leads

theorem runBackgroundJob_noFsTree {job : BackgroundJob}
    (run : task.runBackgroundJob job (.fsTree none) = some after) :
    job = .deserializeFsTree ∧ after = task.deserializeFsTree none := by
  cases job with
  | deserializeFsTree => exact ⟨rfl, (Option.some.inj run).symm⟩
  | _ => cases run

/-- Those of the background thread, unless the fs tree cannot be read. -/
theorem endsIn_runBackgroundJob {job : BackgroundJob} {result : BackgroundResult}
    (leads : job.stepsToEnd = some steps) (run : task.runBackgroundJob job result = some after)
    (readable : ¬ (TaskEvent.runBackgroundJob result).findsNoFsTree = true) :
    after.fault.isSome = true ∨ after.EndsIn steps := by
  unfold runBackgroundJob at run
  split at run
  · obtain rfl := Option.some.inj run
    exact .inr (UpdateDriveTaskBase.endsIn_runSaveJob _ leads)
  · obtain rfl := Option.some.inj run
    obtain rfl := Option.some.inj leads
    exact .inr (endsIn_continueSynchronizing _ _)
  · obtain rfl := Option.some.inj run
    obtain rfl := Option.some.inj leads
    exact .inr (UpdateDriveTaskBase.endsIn_executeOnSessionThread _ rfl)
  · obtain rfl := Option.some.inj run
    obtain rfl := Option.some.inj leads
    exact .inr (UpdateDriveTaskBase.endsIn_executeOnSessionThread _ rfl)
  · rename_i fsTree
    obtain rfl := Option.some.inj run
    obtain rfl := Option.some.inj leads
    cases fsTree with
    | some fsTree => exact .inr (UpdateDriveTaskBase.endsIn_executeOnSessionThread _ rfl)
    | none => exact absurd rfl readable
  · obtain rfl := Option.some.inj run
    obtain rfl := Option.some.inj leads
    exact .inr (UpdateDriveTaskBase.endsIn_executeOnSessionThread _ rfl)
  · cases run

theorem ends_downloadMissingFiles (ends : task.Ends) : task.downloadMissingFiles.Ends := by
  unfold downloadMissingFiles
  split
  · exact (UpdateDriveTaskBase.endsIn_executeOnBackgroundThread _ rfl).ends
  · refine ends.extends ?_
    exact ⟨rfl, id, List.Subset.refl _, List.Subset.refl _, List.Subset.refl _⟩

theorem ends_downloadCompleted (ends : task.Ends) (torrent : Torrent) :
    (task.downloadCompleted torrent).Ends := by
  unfold downloadCompleted
  split
  · exact (UpdateDriveTaskBase.endsIn_executeOnBackgroundThread _ rfl).ends
  · exact ends_downloadMissingFiles ends

theorem endsOrBreaks_runSessionJob {job : SessionJob} {rest : List SessionJob} (ends : task.Ends)
    (interrupted : task.taskIsInterrupted = true) (jobs : task.sessionJobs = job :: rest)
    (run : (task.base fun base => { base with sessionJobs := rest }).runSessionJob job =
      some after) : after.EndsOrBreaks := by
  cases leads : job.stepsToEnd with
  | some steps => exact (endsIn_runSessionJob leads run interrupted).imp_right fun ends => ends.ends
  | none =>
      have popped := ends.popSessionJob jobs leads
      cases job with
      | downloadNotification handle =>
          simp only [runSessionJob] at run
          split at run
          · obtain rfl := Option.some.inj run
            exact .inr (ends_downloadCompleted popped _)
          · cases run
      | downloadMissingFiles | startNextChunk | requestMissingChunkInfo | runNextTask => cases run
      | modifyIsCompletedWithError | myRootHashIsCalculated | onCumulativeUploadsUpdated
      | myOpinionIsCreated | synchronizationIsCompleted | modifyIsCompleted | createUnusedFileList
      | unusedFilesRemoved => cases leads

theorem endsOrBreaks_runBackgroundJob {job : BackgroundJob} {rest : List BackgroundJob}
    {result : BackgroundResult} (ends : task.Ends)
    (readable : task.FailsToRead (.runBackgroundJob result) →
      task.withoutBackgroundJob.EndsOrBreaks)
    (jobs : task.backgroundJobs = job :: rest)
    (run : (task.base fun base => { base with backgroundJobs := rest }).runBackgroundJob job
      result = some after) : after.EndsOrBreaks := by
  cases leads : job.stepsToEnd with
  | some steps =>
      by_cases finds : (TaskEvent.runBackgroundJob result).findsNoFsTree = true
      · obtain rfl := TaskEvent.runBackgroundJob.inj (TaskEvent.eq_of_findsNoFsTree finds)
        obtain ⟨rfl, rfl⟩ := runBackgroundJob_noFsTree run
        have left := readable ⟨finds, by rw [jobs]; rfl⟩
        unfold withoutBackgroundJob at left
        rw [jobs] at left
        exact left
      · exact (endsIn_runBackgroundJob leads run finds).imp_right fun ends => ends.ends
  | none =>
      have popped := ends.popBackgroundJob jobs leads
      unfold runBackgroundJob at run
      split at run
      · rename_i save
        obtain rfl := Option.some.inj run
        exact .inr (popped.extends (UpdateDriveTaskBase.persists_runSaveJob _ save).toExtends)
      · cases leads
      · cases leads
      · cases leads
      · cases leads
      · cases leads
      · cases run

/-! ## The steps -/

theorem endsOrBreaks_breakTask_iff : task.breakTask.EndsOrBreaks ↔
    task.downloadingLtHandle.isSome = true ∨ task.EndsOrBreaks :=
  task.endsOrBreaks_breakTorrentDownload_iff id

theorem taskIsInterrupted_breakTask (task : SynchronizationTask) :
    task.breakTask.taskIsInterrupted = true :=
  (task.interrupts_breakTorrentDownload fun base => UpdateDriveTaskBase.Moves.refl base).interrupted

/-- An interruption ends the task if it finds a download or what ends the task without it. -/
theorem step_of_interrupts {event : TaskEvent} (unbroken : task.fault = none)
    (running : task.taskIsInterrupted = false) (interrupts : task.Interrupts event) :
    ∃ after, synchronizationSystem.step task event = some after ∧ after.taskIsInterrupted = true ∧
      (after.EndsOrBreaks ↔ task.downloadingLtHandle.isSome = true ∨ task.EndsOrBreaks) := by
  have step : synchronizationSystem.step task event = task.handle event := by
    simp [synchronizationSystem, unbroken]
  have notInterrupted : ¬ task.taskIsInterrupted = true := by simp [running]
  rw [step]
  cases event with
  | approvalTxPublished transaction =>
      have catchingUp : task.kind = .catchingUp := interrupts
      refine ⟨task.breakTask, ?_, task.taskIsInterrupted_breakTask, endsOrBreaks_breakTask_iff⟩
      unfold handle onApprovalTxPublished
      simp only [catchingUp, if_neg notInterrupted]
  | driveClose =>
      refine ⟨task.breakTask, ?_, task.taskIsInterrupted_breakTask, endsOrBreaks_breakTask_iff⟩
      unfold handle onDriveClose
      simp only [if_neg notInterrupted]
  | manualSynchronize =>
      refine ⟨task.breakTask, ?_, task.taskIsInterrupted_breakTask, endsOrBreaks_breakTask_iff⟩
      unfold handle SynchronizationTask.manualSynchronize
      simp only [if_neg notInterrupted]
  | terminate => exact ⟨_, rfl, taskIsInterrupted_breakTask _, endsOrBreaks_breakTask_iff⟩
  | _ => exact interrupts.elim

theorem taskIsInterrupted_of_step {event : TaskEvent} (other : ¬ task.Interrupts event)
    (step : synchronizationSystem.step task event = some after) :
    after.taskIsInterrupted = task.taskIsInterrupted := by
  have handles := (handles_of_step step).2
  cases handles with
  | approvalTxPublished transaction =>
      unfold onApprovalTxPublished
      split
      · rename_i catchingUp
        exact absurd catchingUp other
      · rfl
  | driveClose | manualSynchronize | terminate => exact absurd trivial other
  | setReplicators | setMinReplicatorsNumber | opinionReceived | approvalTxFailed | cancelModify
  | chunkInfoReceived | finishStream => rfl
  | runSessionJob | runBackgroundJob | torrentsRemoved | metadataReceived | torrentFinished
  | pieceReceived => exact (uploadsStep rfl step).base.interrupted

theorem endsOrBreaks_of_handles {event : TaskEvent} (ends : task.Ends)
    (interrupted : task.taskIsInterrupted = true)
    (readable : task.FailsToRead event → task.withoutBackgroundJob.EndsOrBreaks)
    (handles : task.Handles event after) : after.EndsOrBreaks := by
  have kept {after : SynchronizationTask} (persists : task.Persists after.toUpdateDriveTaskBase) :
      after.EndsOrBreaks := .inr (ends.extends persists.toExtends)
  cases handles with
  | runSessionJob jobs run => exact endsOrBreaks_runSessionJob ends interrupted jobs run
  | runBackgroundJob jobs run => exact endsOrBreaks_runBackgroundJob ends readable jobs run
  | torrentsRemoved found => exact .inr (ends.torrentsRemoved found)
  | metadataReceived found totalSize isValid =>
      unfold onMetadataReceived
      split
      · exact kept ⟨⟨rfl, id, List.Subset.refl _, List.Subset.refl _, List.Subset.refl _⟩, id, id⟩
      · exact kept ⟨⟨rfl, id, List.Subset.refl _, List.Subset.refl _, List.Subset.refl _⟩, id, id⟩
  | torrentFinished found =>
      exact kept ⟨⟨rfl, id, List.Subset.refl _, List.subset_append_left _ _, List.Subset.refl _⟩,
        id, id⟩
  | pieceReceived uploader size => exact kept (task.leaves_addTraffic uploader size).persists
  | approvalTxPublished transaction =>
      unfold onApprovalTxPublished
      split
      · rw [if_pos interrupted]
        exact .inr ends
      · exact .inr ends
  | driveClose =>
      unfold onDriveClose
      rw [if_pos interrupted]
      exact .inr ends
  | manualSynchronize =>
      unfold SynchronizationTask.manualSynchronize
      rw [if_pos interrupted]
      exact .inr ends
  | terminate => exact endsOrBreaks_breakTask_iff.mpr (.inr (.inr ends))
  | setReplicators replicatorKeys => exact kept (task.leaves_setReplicators replicatorKeys).persists
  | setMinReplicatorsNumber number =>
      exact kept (task.leaves_setMinReplicatorsNumber number).persists
  | opinionReceived | approvalTxFailed | cancelModify | chunkInfoReceived | finishStream =>
      exact .inr ends

theorem EndsIfInterrupted.step {event : TaskEvent} (ends : task.EndsIfInterrupted)
    (inTime : task.InterruptedInTime event)
    (step : synchronizationSystem.step task event = some after) : after.EndsIfInterrupted := by
  obtain ⟨unbroken, handles⟩ := handles_of_step step
  cases running : task.taskIsInterrupted with
  | true =>
      have scheduled := (ends running).ends unbroken
      exact fun _ => endsOrBreaks_of_handles scheduled running
        (fun fails => inTime.readable fails running) handles
  | false =>
      intro interrupted
      by_cases interrupts : task.Interrupts event
      · obtain ⟨next, isNext, -, comes⟩ := step_of_interrupts unbroken running interrupts
        obtain rfl := Option.some.inj (step.symm.trans isNext)
        exact comes.mpr
          (UpdateDriveTaskBase.endsOrBreaks_of_not_isIdle (inTime.busy interrupts) running)
      · have same := taskIsInterrupted_of_step interrupts step
        rw [interrupted, running] at same
        cases same

theorem step_of_failsToRead {event : TaskEvent} (unbroken : task.fault = none)
    (fails : task.FailsToRead event) :
    ∃ after, synchronizationSystem.step task event = some after ∧
      after.taskIsInterrupted = task.taskIsInterrupted ∧
        (after.EndsOrBreaks ↔ task.withoutBackgroundJob.EndsOrBreaks) := by
  obtain ⟨finds, isJob⟩ := fails
  obtain rfl := TaskEvent.eq_of_findsNoFsTree finds
  obtain ⟨rest, jobs⟩ := List.head?_eq_some_iff.mp isJob
  have popped : task.popBackgroundJob =
      some (.deserializeFsTree, { task.toUpdateDriveTaskBase with backgroundJobs := rest }) := by
    rw [UpdateDriveTaskBase.popBackgroundJob, jobs]
  refine ⟨(task.base fun base => { base with backgroundJobs := rest }).deserializeFsTree none,
    ?_, rfl, ?_⟩
  · have goesOn : ¬ task.fault.isSome = true := by simp [unbroken]
    unfold synchronizationSystem handle
    simp only [if_neg goesOn, popped]
    rfl
  · unfold withoutBackgroundJob
    rw [jobs]
    exact Iff.rfl

/-- An interruption at another time, or an fs tree that cannot be read, leaves the task without
    an end. -/
theorem step_of_not_inTime {event : TaskEvent} (late : ¬ task.InterruptedInTime event) :
    ∃ after, synchronizationSystem.step task event = some after ∧ ¬ after.EndsIfInterrupted := by
  by_cases busy : task.Interrupts event → ¬ task.IsIdle
  · have unreadable : ¬ (task.FailsToRead event → task.taskIsInterrupted = true →
        task.withoutBackgroundJob.EndsOrBreaks) := fun readable => late ⟨busy, readable⟩
    push Not at unreadable
    obtain ⟨fails, interrupted, nothing⟩ := unreadable
    have unbroken : task.withoutBackgroundJob.fault = none :=
      UpdateDriveTaskBase.fault_of_not_endsOrBreaks nothing
    obtain ⟨after, step, same, left⟩ := step_of_failsToRead unbroken fails
    exact ⟨after, step, fun ends => nothing (left.mp (ends (same.trans interrupted)))⟩
  · push Not at busy
    obtain ⟨interrupts, running, idle, nothing⟩ := busy
    have unbroken : task.fault = none := UpdateDriveTaskBase.fault_of_not_endsOrBreaks nothing
    obtain ⟨after, step, interrupted, comes⟩ := step_of_interrupts unbroken running interrupts
    refine ⟨after, step, fun ends => ?_⟩
    rcases comes.mp (ends interrupted) with downloading | endsOrBreaks
    · simp [idle] at downloading
    · exact nothing endsOrBreaks

theorem taskIsInterrupted_run (task : SynchronizationTask) :
    task.run.taskIsInterrupted = task.taskIsInterrupted := by
  unfold run
  split
  · exact task.leaves_finishTask.persists.interrupted
  · split <;> rfl

/-- An interrupted synchronization comes to its end in exactly those runs in which every
    interruption comes in time and the fs tree can be read after it. -/
theorem endsIfInterrupted_iff {task : SynchronizationTask}
    (running : task.taskIsInterrupted = false) (events : List TaskEvent) :
    synchronizationSystem.Always EndsIfInterrupted task.run events ↔
      synchronizationSystem.Meets InterruptedInTime task.run events := by
  apply Transition.always_iff_meets (E := fun _ _ => True) (I := EndsIfInterrupted)
  · exact fun task ends => ends
  · exact fun task event after ends _ inTime step => ends.step inTime step
  · exact fun task event _ _ late => step_of_not_inTime late
  · intro interrupted
    rw [taskIsInterrupted_run, running] at interrupted
    cases interrupted
  · exact Transition.meets_of_forall fun _ _ => trivial

end SynchronizationTask

end SiriusDrive
