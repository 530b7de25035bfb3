import Mathlib.Data.List.Perm.Basic
import SiriusDrive.UpdateDriveTaskBase.UploadsStep
import SiriusDrive.UpdateDriveTaskBase.Work

/-! # The end of an interrupted task

An interrupted task is ended by what it has scheduled: a job that finds the task interrupted
calls `finishTask`, and the other jobs post the one after them.
-/

namespace SiriusDrive

/-- How many more jobs and removals there are between the job and `finishTask` when the task is
    interrupted. The jobs left out may start a download, or nothing at all. -/
def SessionJob.stepsToEnd : SessionJob → Option Nat
  | .myRootHashIsCalculated | .onCumulativeUploadsUpdated | .myOpinionIsCreated
  | .modifyIsCompleted | .unusedFilesRemoved => some 0
  | .modifyIsCompletedWithError .. | .synchronizationIsCompleted => some 2
  | .createUnusedFileList => some 3
  | .downloadMissingFiles | .startNextChunk | .requestMissingChunkInfo _ | .downloadNotification _
  | .runNextTask => none

def BackgroundJob.stepsToEnd : BackgroundJob → Option Nat
  | .save .notApprovedCumulativeUploads | .save .singleApprovalTransaction
  | .save (.approvedCumulativeUploads _) | .copyDriveToSandbox | .copyFsTree
  | .modifyDriveInSandbox | .removeUnusedFiles _ => some 1
  | .modifyFsTreeInSandbox | .continueSynchronizingDriveWithSandbox => some 3
  -- if the tree can be read
  | .deserializeFsTree => some 4
  | .save (.torrentFile _) | .save .clearSandbox | .prepareDownloadMissingFiles
  | .parseFinishInfoFile | .checkFinishCondition => none

def TorrentsRemoved.stepsToEnd : TorrentsRemoved → Option Nat
  | .finishTask => some 0
  | .removeUnusedFiles => some 2
  | .continueSynchronizing => some 4
  | .clearSandbox => none

def TaskEvent.isApproval : TaskEvent → Bool
  | .approvalTxPublished _ => true
  | _ => false

namespace UpdateDriveTaskBase

/-- The task is finished, or something is scheduled that leads to its end. -/
def Ends (task : UpdateDriveTaskBase) : Prop :=
  task.taskIsFinished = true ∨ (∃ job ∈ task.sessionJobs, job.stepsToEnd.isSome = true) ∨
    (∃ job ∈ task.backgroundJobs, job.stepsToEnd.isSome = true) ∨
    ∃ removal ∈ task.removals, removal.stepsToEnd.isSome = true

/-- The task is finished, or something scheduled leads to its end in so many steps. -/
def EndsIn (task : UpdateDriveTaskBase) (steps : Nat) : Prop :=
  task.taskIsFinished = true ∨
    (∃ job ∈ task.sessionJobs, ∃ left ∈ job.stepsToEnd, left < steps) ∨
    (∃ job ∈ task.backgroundJobs, ∃ left ∈ job.stepsToEnd, left < steps) ∨
    ∃ removal ∈ task.removals, ∃ left ∈ removal.stepsToEnd, left < steps

def EndsOrBreaks (task : UpdateDriveTaskBase) : Prop := task.fault.isSome = true ∨ task.Ends

/-- The task runs without a download, and nothing is scheduled that leads to its end. -/
def IsIdle (task : UpdateDriveTaskBase) : Prop :=
  task.taskIsInterrupted = false ∧ task.downloadingLtHandle = none ∧ ¬ task.EndsOrBreaks

instance (task : UpdateDriveTaskBase) : Decidable task.Ends :=
  inferInstanceAs (Decidable (_ ∨ (∃ _ ∈ _, _) ∨ (∃ _ ∈ _, _) ∨ ∃ _ ∈ _, _))

instance (task : UpdateDriveTaskBase) : Decidable task.EndsOrBreaks :=
  inferInstanceAs (Decidable (_ ∨ _))

instance (task : UpdateDriveTaskBase) : Decidable task.IsIdle :=
  inferInstanceAs (Decidable (_ ∧ _ ∧ ¬ _))

variable {before after : UpdateDriveTaskBase} {steps : Nat}

theorem Ends.extends (ends : before.Ends) (extended : before.Extends after) : after.Ends := by
  rcases ends with finished | ⟨job, member, leads⟩ | ⟨job, member, leads⟩ | ⟨removal, member, leads⟩
  · exact .inl (extended.finished finished)
  · exact .inr (.inl ⟨job, extended.sessionJobs member, leads⟩)
  · exact .inr (.inr (.inl ⟨job, extended.backgroundJobs member, leads⟩))
  · exact .inr (.inr (.inr ⟨removal, extended.removals member, leads⟩))

theorem EndsIn.ends (ends : before.EndsIn steps) : before.Ends := by
  rcases ends with finished | ⟨job, member, left, isLeft, -⟩ | ⟨job, member, left, isLeft, -⟩ |
    ⟨removal, member, left, isLeft, -⟩
  · exact .inl finished
  · exact .inr (.inl ⟨job, member, Option.isSome_of_mem isLeft⟩)
  · exact .inr (.inr (.inl ⟨job, member, Option.isSome_of_mem isLeft⟩))
  · exact .inr (.inr (.inr ⟨removal, member, Option.isSome_of_mem isLeft⟩))

theorem EndsIn.mono {more : Nat} (ends : before.EndsIn steps) (le : steps ≤ more) :
    before.EndsIn more := by
  rcases ends with finished | ⟨job, member, left, isLeft, lt⟩ | ⟨job, member, left, isLeft, lt⟩ |
    ⟨removal, member, left, isLeft, lt⟩
  · exact .inl finished
  · exact .inr (.inl ⟨job, member, left, isLeft, Nat.lt_of_lt_of_le lt le⟩)
  · exact .inr (.inr (.inl ⟨job, member, left, isLeft, Nat.lt_of_lt_of_le lt le⟩))
  · exact .inr (.inr (.inr ⟨removal, member, left, isLeft, Nat.lt_of_lt_of_le lt le⟩))

theorem EndsOrBreaks.ends (ends : before.EndsOrBreaks) (unbroken : before.fault = none) :
    before.Ends := by
  rcases ends with broken | ends
  · simp [unbroken] at broken
  · exact ends

theorem fault_of_not_endsOrBreaks (nothing : ¬ before.EndsOrBreaks) : before.fault = none := by
  cases isFault : before.fault with
  | none => rfl
  | some fault => exact absurd (.inl (by rw [isFault]; rfl)) nothing

/-! ## The jobs that are taken -/

theorem Ends.popSessionJob {job : SessionJob} {rest : List SessionJob} (ends : before.Ends)
    (jobs : before.sessionJobs = job :: rest) (other : job.stepsToEnd = none) :
    Ends { before with sessionJobs := rest } := by
  rcases ends with finished | ⟨next, member, leads⟩ | background | removal
  · exact .inl finished
  · rw [jobs] at member
    rcases List.mem_cons.mp member with rfl | later
    · simp [other] at leads
    · exact .inr (.inl ⟨next, later, leads⟩)
  · exact .inr (.inr (.inl background))
  · exact .inr (.inr (.inr removal))

theorem Ends.popBackgroundJob {job : BackgroundJob} {rest : List BackgroundJob} (ends : before.Ends)
    (jobs : before.backgroundJobs = job :: rest) (other : job.stepsToEnd = none) :
    Ends { before with backgroundJobs := rest } := by
  rcases ends with finished | session | ⟨next, member, leads⟩ | removal
  · exact .inl finished
  · exact .inr (.inl session)
  · rw [jobs] at member
    rcases List.mem_cons.mp member with rfl | later
    · simp [other] at leads
    · exact .inr (.inr (.inl ⟨next, later, leads⟩))
  · exact .inr (.inr (.inr removal))

theorem Ends.popRemoval {index : Nat} {removal : TorrentsRemoved} (ends : before.Ends)
    (found : before.removals[index]? = some removal) (other : removal.stepsToEnd = none) :
    Ends { before with removals := before.removals.eraseIdx index } := by
  rcases ends with finished | session | background | ⟨next, member, leads⟩
  · exact .inl finished
  · exact .inr (.inl session)
  · exact .inr (.inr (.inl background))
  · obtain ⟨inside, isRemoval⟩ := List.getElem?_eq_some_iff.mp found
    have split := (List.getElem_cons_eraseIdx_perm inside).mem_iff.mpr member
    rcases List.mem_cons.mp split with same | later
    · rw [same, isRemoval, other] at leads
      cases leads
    · exact .inr (.inr (.inr ⟨next, later, leads⟩))

/-! ## The functions that lead to the end -/

variable (task : UpdateDriveTaskBase)

theorem endsIn_executeOnSessionThread {job : SessionJob} (leads : job.stepsToEnd = some steps) :
    (task.executeOnSessionThread job).EndsIn (steps + 1) :=
  .inr (.inl ⟨job, by simp [executeOnSessionThread], steps, leads, Nat.lt_succ_self steps⟩)

theorem endsIn_executeOnBackgroundThread {job : BackgroundJob}
    (leads : job.stepsToEnd = some steps) :
    (task.executeOnBackgroundThread job).EndsIn (steps + 1) :=
  .inr (.inr (.inl ⟨job, by simp [executeOnBackgroundThread], steps, leads,
    Nat.lt_succ_self steps⟩))

theorem endsIn_removeTorrents (handles : List LtHandle) {next : TorrentsRemoved}
    (leads : next.stepsToEnd = some steps) :
    (task.removeTorrentsFromSession handles next).EndsIn (steps + 1) :=
  .inr (.inr (.inr ⟨next, by simp [removeTorrentsFromSession], steps, leads,
    Nat.lt_succ_self steps⟩))

theorem taskIsFinished_finishTask : task.finishTask.taskIsFinished = true := by
  unfold finishTask
  simp only
  split <;> rfl

theorem endsIn_finishTask : task.finishTask.EndsIn steps := .inl task.taskIsFinished_finishTask

theorem ends_finishTask : task.finishTask.Ends := .inl task.taskIsFinished_finishTask

variable {task}

theorem endsIn_myRootHashIsCalculated (interrupted : task.taskIsInterrupted = true) (tx : Hash256)
    (size : Nat) : (task.myRootHashIsCalculated tx size).EndsIn 0 := by
  unfold myRootHashIsCalculated
  rw [if_pos interrupted]
  exact task.endsIn_finishTask

theorem endsIn_onCumulativeUploadsUpdated (interrupted : task.taskIsInterrupted = true)
    (tx : Hash256) : (task.onCumulativeUploadsUpdated tx).EndsIn 0 := by
  unfold onCumulativeUploadsUpdated
  rw [if_pos interrupted]
  exact task.endsIn_finishTask

variable (task)

theorem endsIn_synchronizationIsCompleted (tx : Hash256) :
    (task.synchronizationIsCompleted tx).EndsIn 2 :=
  endsIn_executeOnBackgroundThread _ rfl

theorem endsIn_modifyIsCompleted (tx : Hash256) :
    (task.modifyIsCompleted tx).fault.isSome = true ∨ (task.modifyIsCompleted tx).EndsIn 0 := by
  unfold modifyIsCompleted
  split
  · exact .inr (endsIn_finishTask _)
  · exact .inl rfl

theorem endsIn_runSaveJob {job : SaveJob}
    (leads : (BackgroundJob.save job).stepsToEnd = some steps) :
    (task.runSaveJob job).EndsIn steps := by
  cases job with
  | notApprovedCumulativeUploads | singleApprovalTransaction | approvedCumulativeUploads =>
      obtain rfl := Option.some.inj leads
      exact endsIn_executeOnSessionThread _ rfl
  | torrentFile | clearSandbox => cases leads

theorem endsIn_onTorrentsRemoved {removal : TorrentsRemoved}
    (leads : removal.stepsToEnd = some steps) : (task.onTorrentsRemoved removal).EndsIn steps := by
  cases removal with
  | finishTask => exact task.endsIn_finishTask
  | continueSynchronizing | removeUnusedFiles =>
      obtain rfl := Option.some.inj leads
      exact endsIn_executeOnBackgroundThread _ rfl
  | clearSandbox => cases leads

theorem Ends.torrentsRemoved {index : Nat} {removal : TorrentsRemoved} (ends : before.Ends)
    (found : before.removals[index]? = some removal) :
    ({ before with removals := before.removals.eraseIdx index }.onTorrentsRemoved
      removal).Ends := by
  cases leads : removal.stepsToEnd with
  | some steps => exact (endsIn_onTorrentsRemoved _ leads).ends
  | none =>
      have popped := ends.popRemoval found leads
      exact popped.extends (persists_onTorrentsRemoved _ removal).toExtends

/-! ## Interruptions -/

/-- A download is removed, and the end of the removal ends the task. Without a download
    `tryBreakTask` is to see to that. -/
theorem endsOrBreaks_breakTorrentDownload_iff
    (tryBreakTask : UpdateDriveTaskBase → UpdateDriveTaskBase) :
    (task.breakTorrentDownloadAndRunNextTask tryBreakTask).EndsOrBreaks ↔
      task.downloadingLtHandle.isSome = true ∨
        (tryBreakTask { task with taskIsInterrupted := true }).EndsOrBreaks := by
  unfold breakTorrentDownloadAndRunNextTask
  simp only
  split
  · rename_i downloading
    rw [downloading]
    exact iff_of_true (.inr (endsIn_removeTorrents _ _ rfl).ends) (.inl rfl)
  · rename_i idle
    simp [idle]

/-- `tryBreakTask` finishes a task that waits for an approval, and leaves others to what is
    scheduled. -/
theorem endsOrBreaks_tryBreakTask_iff (received : Bool) :
    (task.tryBreakTask received).EndsOrBreaks ↔
      (task.sandboxCalculated = true ∧ received = false) ∨ task.EndsOrBreaks := by
  unfold tryBreakTask
  split
  · rename_i waits
    exact iff_of_true (.inr task.ends_finishTask) (.inl (by simpa using waits))
  · rename_i goesOn
    have other : ¬ (task.sandboxCalculated = true ∧ received = false) := by simpa using goesOn
    simp [other]

variable {task}

theorem endsOrBreaks_of_not_isIdle (busy : ¬ task.IsIdle)
    (running : task.taskIsInterrupted = false) :
    task.downloadingLtHandle.isSome = true ∨ task.EndsOrBreaks := by
  cases downloading : task.downloadingLtHandle with
  | some handle => exact .inl rfl
  | none =>
      right
      by_contra nothing
      exact busy ⟨running, downloading, nothing⟩

theorem UploadsStep.interrupted {mayStart : Prop} {event : TaskEvent} {tx : Hash256} {size : Nat}
    (step : UploadsStep mayStart event tx size before after) :
    after.taskIsInterrupted = before.taskIsInterrupted := by
  cases step with
  | goesOn goesOn => exact goesOn.interrupted
  | counts isCount counts => exact counts.interrupted.trans isCount.2.2.symm
  | approves isApproval approves => exact approves.interrupted
  | fails isFailure fails => exact fails.interrupted

end UpdateDriveTaskBase

namespace ModifyApprovalTaskBase

theorem drive_opinionTimerExpired (task : ModifyApprovalTaskBase) :
    task.opinionTimerExpired.drive = task.drive := by
  unfold opinionTimerExpired
  split
  · rfl
  · split <;> rfl

theorem drive_checkOpinionNumber (task : ModifyApprovalTaskBase) :
    task.checkOpinionNumberAndStartTimer.drive = task.drive := by
  unfold checkOpinionNumberAndStartTimer
  simp only
  split
  · exact drive_opinionTimerExpired _
  · split
    · split <;> rfl
    · rfl

theorem endsIn_myOpinionIsCreated {task : ModifyApprovalTaskBase}
    (interrupted : task.taskIsInterrupted = true) : task.myOpinionIsCreated.EndsIn 0 := by
  unfold myOpinionIsCreated
  rw [if_pos interrupted]
  exact UpdateDriveTaskBase.endsIn_finishTask _

theorem endsIn_continueSynchronizing (task : ModifyApprovalTaskBase) (result : FileSystemResult) :
    (task.continueSynchronizingDriveWithSandbox result).EndsIn 3 := by
  cases result with
  | done => exact UpdateDriveTaskBase.endsIn_executeOnSessionThread _ rfl
  | exception => exact UpdateDriveTaskBase.endsIn_finishTask _

end ModifyApprovalTaskBase

end SiriusDrive
