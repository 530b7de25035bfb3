import SiriusDrive.UpdateDriveTaskBase.UploadsStep

/-! # What is recorded of an approval

An approved modification is recorded in four places: the opinion controller and the
drive have its name, and both names are saved for a restart. A task writes them one
after the other; the records agree when it has come to its end.
-/

namespace SiriusDrive

/-- The modification a job of the background thread saves as the approved one. -/
def BackgroundJob.savedApproval? : BackgroundJob → Option Hash256
  | .save (.approvedCumulativeUploads modificationId) => some modificationId
  | _ => none

/-- The names of the approved modification, with the steps that are still to be taken. -/
structure ApprovalRecords where
  /-- `approvedModificationId()`. -/
  approvedModificationId : Hash256
  /-- The name in the saved `approvedCumulativeUploads`. -/
  savedUploads : Option Hash256
  /-- The saved `approvedModification`. -/
  savedModification : Option Hash256
  lastApprovedModification : Hash256
  saves : List Hash256
  completions : Nat

namespace ApprovalRecords

variable {tx counted : Hash256} {mayApprove : Prop} {before after : ApprovalRecords}

/-- What a step of a task does to the records: the uploads approved are those that have been
    counted, and the drive gets the name when all the others have been written. -/
inductive Step (tx counted : Hash256) (mayApprove : Prop) (before : ApprovalRecords) :
    ApprovalRecords → Prop
  | keeps : Step tx counted mayApprove before before
  | approves (allowed : mayApprove) : Step tx counted mayApprove before
      { before with approvedModificationId := counted, saves := before.saves ++ [tx] }
  | announces : Step tx counted mayApprove before { before with savedModification := some tx }
  | saves {modificationId : Hash256} {rest : List Hash256}
      (pending : before.saves = modificationId :: rest) : Step tx counted mayApprove before
      { before with
        savedUploads := some before.approvedModificationId
        savedModification := some modificationId
        saves := rest
        completions := before.completions + 1 }
  | completes {rest : Nat} (pending : before.completions = rest + 1) :
      Step tx counted mayApprove before
      { before with lastApprovedModification := tx, completions := rest }
  | drops {rest : Nat} (pending : before.completions = rest + 1) :
      Step tx counted mayApprove before { before with completions := rest }

/-- Whatever is still to be recorded is one modification. -/
structure Follows (tx : Hash256) (records : ApprovalRecords) : Prop where
  saves : ∀ modificationId ∈ records.saves,
    modificationId = tx ∧ records.approvedModificationId = tx
  completions : records.completions ≠ 0 → records.approvedModificationId = tx ∧
    records.savedUploads = some tx ∧ records.savedModification = some tx

/-- A step approves the uploads of the modification, or records what it has approved. -/
theorem Follows.step (follows : before.Follows tx) (isCounted : mayApprove → counted = tx)
    (step : Step tx counted mayApprove before after) : after.Follows tx := by
  cases step with
  | keeps => exact follows
  | approves allowed =>
      have isCounted := isCounted allowed
      constructor
      · intro modificationId member
        rcases List.mem_append.mp member with old | new
        · exact ⟨(follows.saves _ old).1, isCounted⟩
        · exact ⟨List.mem_singleton.mp new, isCounted⟩
      · intro completes
        exact ⟨isCounted, (follows.completions completes).2⟩
  | announces =>
      exact ⟨follows.saves, fun completes =>
        ⟨(follows.completions completes).1, (follows.completions completes).2.1, rfl⟩⟩
  | saves pending =>
      obtain ⟨rfl, approved⟩ := follows.saves _ (pending ▸ List.mem_cons_self)
      constructor
      · intro modificationId member
        exact follows.saves _ (pending ▸ List.mem_cons_of_mem _ member)
      · intro _
        exact ⟨approved, congrArg some approved, rfl⟩
  | completes pending | drops pending =>
      exact ⟨follows.saves, fun _ => follows.completions (by simp [pending])⟩

theorem Follows.of_nothing (saves : before.saves = []) (completions : before.completions = 0) :
    before.Follows tx where
  saves := by simp [saves]
  completions := fun completes => absurd completions completes

end ApprovalRecords

/-- The names of the approved modification agree, in memory and on the disk. -/
structure DriveParams.RecordsApproval (drive : DriveParams) : Prop where
  approved : drive.opinionController.approvedCumulativeUploads.modificationId =
    drive.lastApprovedModification
  savedUploads : drive.restartValues.approvedCumulativeUploads.map (·.modificationId) =
    some drive.lastApprovedModification
  savedModification : drive.restartValues.approvedModification = some drive.lastApprovedModification

instance (drive : DriveParams) : Decidable drive.RecordsApproval :=
  decidable_of_iff (_ ∧ _ ∧ _)
    ⟨fun ⟨approved, savedUploads, savedModification⟩ => ⟨approved, savedUploads, savedModification⟩,
      fun records => ⟨records.approved, records.savedUploads, records.savedModification⟩⟩

namespace UpdateDriveTaskBase

variable (task : UpdateDriveTaskBase)

def records : ApprovalRecords where
  approvedModificationId := task.drive.opinionController.approvedCumulativeUploads.modificationId
  savedUploads := task.drive.restartValues.approvedCumulativeUploads.map (·.modificationId)
  savedModification := task.drive.restartValues.approvedModification
  lastApprovedModification := task.drive.lastApprovedModification
  saves := task.backgroundJobs.filterMap (·.savedApproval?)
  completions := task.sessionJobs.count .modifyIsCompleted

/-! ## Functions that leave the records alone -/

theorem records_executeOnSessionThread {job : SessionJob} (other : job ≠ .modifyIsCompleted) :
    (task.executeOnSessionThread job).records = task.records := by
  simp [records, executeOnSessionThread, other]

theorem records_executeOnBackgroundThread {job : BackgroundJob} (other : job.savedApproval? = none) :
    (task.executeOnBackgroundThread job).records = task.records := by
  simp [records, executeOnBackgroundThread, other]

theorem records_popSessionJob {job : SessionJob} {rest : List SessionJob}
    (jobs : task.sessionJobs = job :: rest) (other : job ≠ .modifyIsCompleted) :
    { task with sessionJobs := rest }.records = task.records := by
  simp [records, jobs, other]

theorem records_popBackgroundJob {job : BackgroundJob} {rest : List BackgroundJob}
    (jobs : task.backgroundJobs = job :: rest) (other : job.savedApproval? = none) :
    { task with backgroundJobs := rest }.records = task.records := by
  simp [records, jobs, other]

@[simp] theorem records_finishTask : task.finishTask.records = task.records := by
  simp only [finishTask]
  split
  · rfl
  · exact records_executeOnBackgroundThread _ rfl

@[simp] theorem records_tryBreakTask (received : Bool) :
    (task.tryBreakTask received).records = task.records := by
  simp only [tryBreakTask]
  split
  · exact task.records_finishTask
  · rfl

theorem records_breakTorrentDownload {tryBreakTask : UpdateDriveTaskBase → UpdateDriveTaskBase}
    (keeps : ∀ task : UpdateDriveTaskBase, (tryBreakTask task).records = task.records) :
    (task.breakTorrentDownloadAndRunNextTask tryBreakTask).records = task.records := by
  simp only [breakTorrentDownloadAndRunNextTask]
  split
  · rfl
  · exact keeps _

@[simp] theorem records_myRootHashIsCalculated (tx : Hash256) (size : Nat) :
    (task.myRootHashIsCalculated tx size).records = task.records := by
  simp only [myRootHashIsCalculated]
  split
  · exact task.records_finishTask
  · exact records_executeOnBackgroundThread _ rfl

@[simp] theorem records_onCumulativeUploadsUpdated (tx : Hash256) :
    (task.onCumulativeUploadsUpdated tx).records = task.records := by
  simp only [onCumulativeUploadsUpdated]
  split
  · exact task.records_finishTask
  · split
    · rfl
    · exact records_executeOnBackgroundThread _ rfl

@[simp] theorem records_startSynchronizing :
    task.startSynchronizingDriveWithSandbox.records = task.records := by
  simp only [startSynchronizingDriveWithSandbox]
  split <;> rfl

@[simp] theorem records_startSynchronizingAfter
    (transaction : PublishedModificationApprovalTransactionInfo) :
    (task.startSynchronizingAfter transaction).records = task.records := by
  simp only [startSynchronizingAfter]
  split
  · rfl
  · split
    · exact task.records_startSynchronizing
    · split
      · rfl
      · exact records_startSynchronizing _

@[simp] theorem records_onTorrentsRemoved (removal : TorrentsRemoved) :
    (task.onTorrentsRemoved removal).records = task.records := by
  cases removal with
  | finishTask => exact task.records_finishTask
  | clearSandbox | continueSynchronizing | removeUnusedFiles =>
      exact records_executeOnBackgroundThread _ rfl

/-! ## Functions that write them -/

variable (tx : Hash256)

def RecordsStep (before after : UpdateDriveTaskBase) : Prop :=
  ApprovalRecords.Step tx before.drive.opinionController.notApprovedModificationId
    (before.HasStage .synchronization) before.records after.records

variable {tx task} {after : UpdateDriveTaskBase}

theorem RecordsStep.of_same (same : after.records = task.records) : RecordsStep tx task after := by
  unfold RecordsStep
  rw [same]
  exact .keeps

theorem RecordsStep.of_sessionJob {job : SessionJob} {rest : List SessionJob}
    (jobs : task.sessionJobs = job :: rest) (other : job ≠ .modifyIsCompleted)
    (kept : after.records = { task with sessionJobs := rest }.records) :
    RecordsStep tx task after :=
  .of_same (kept.trans (task.records_popSessionJob jobs other))

theorem RecordsStep.of_backgroundJob {job : BackgroundJob} {rest : List BackgroundJob}
    (jobs : task.backgroundJobs = job :: rest) (other : job.savedApproval? = none)
    (kept : after.records = { task with backgroundJobs := rest }.records) :
    RecordsStep tx task after :=
  .of_same (kept.trans (task.records_popBackgroundJob jobs other))

theorem recordsStep_synchronizationIsCompleted {rest : List SessionJob}
    (jobs : task.sessionJobs = .synchronizationIsCompleted :: rest) :
    RecordsStep tx task ({ task with sessionJobs := rest }.synchronizationIsCompleted tx) := by
  have approves : ({ task with sessionJobs := rest }.synchronizationIsCompleted tx).records =
      { task.records with
        approvedModificationId := task.drive.opinionController.notApprovedModificationId
        saves := task.records.saves ++ [tx] } := by
    simp [records, synchronizationIsCompleted, executeOnBackgroundThread, jobs,
      BackgroundJob.savedApproval?, ModifyOpinionController.approveCumulativeUploads,
      ModifyOpinionController.notApprovedModificationId]
  unfold RecordsStep
  rw [approves]
  exact .approves (task.hasStage_of_sessionJob (jobs ▸ List.mem_cons_self) rfl)

theorem recordsStep_runSaveJob {job : SaveJob} {rest : List BackgroundJob}
    (jobs : task.backgroundJobs = .save job :: rest) :
    RecordsStep tx task ({ task with backgroundJobs := rest }.runSaveJob job) := by
  cases job with
  | notApprovedCumulativeUploads | singleApprovalTransaction | torrentFile | clearSandbox =>
      apply RecordsStep.of_same
      rw [← task.records_popBackgroundJob jobs rfl]
      exact records_executeOnSessionThread _ (by simp)
  | approvedCumulativeUploads modificationId =>
      have pending : task.records.saves =
          modificationId :: rest.filterMap (·.savedApproval?) := by
        simp [records, jobs, BackgroundJob.savedApproval?]
      have saves : ({ task with backgroundJobs := rest }.runSaveJob
          (.approvedCumulativeUploads modificationId)).records =
          { task.records with
            savedUploads := some task.records.approvedModificationId
            savedModification := some modificationId
            saves := rest.filterMap (·.savedApproval?)
            completions := task.records.completions + 1 } := by
        simp [records, runSaveJob, saveRestartValues, executeOnSessionThread]
      unfold RecordsStep
      rw [saves]
      exact .saves pending

/-- The end of a modification names it as the last approved one, if its sandbox is there. -/
theorem recordsStep_modifyIsCompleted {rest : List SessionJob}
    (jobs : task.sessionJobs = .modifyIsCompleted :: rest) :
    RecordsStep tx task ({ task with sessionJobs := rest }.modifyIsCompleted tx) := by
  have pending : task.records.completions = rest.count .modifyIsCompleted + 1 := by
    simp [records, jobs]
  unfold RecordsStep modifyIsCompleted
  split
  · rw [records_finishTask]
    exact .completes pending
  · exact .drops pending

end UpdateDriveTaskBase

namespace ModifyApprovalTaskBase

open UpdateDriveTaskBase (records_finishTask records_startSynchronizing
  records_executeOnSessionThread)

variable (task : ModifyApprovalTaskBase)

@[simp] theorem records_opinionTimerExpired : task.opinionTimerExpired.records = task.records := by
  simp only [opinionTimerExpired]
  split
  · rfl
  · split <;> rfl

@[simp] theorem records_checkOpinionNumber :
    task.checkOpinionNumberAndStartTimer.records = task.records := by
  simp only [checkOpinionNumberAndStartTimer]
  split
  · exact records_opinionTimerExpired _
  · split
    · split <;> rfl
    · rfl

@[simp] theorem records_myOpinionIsCreated : task.myOpinionIsCreated.records = task.records := by
  simp only [myOpinionIsCreated]
  split
  · exact task.records_finishTask
  · split
    · rfl
    · split
      · exact records_startSynchronizing _
      · exact records_checkOpinionNumber _

@[simp] theorem records_shareMyOpinionTimerExpired :
    task.shareMyOpinionTimerExpired.records = task.records := by
  simp only [shareMyOpinionTimerExpired]
  split <;> rfl

@[simp] theorem records_continueSynchronizing (result : FileSystemResult) :
    (task.continueSynchronizingDriveWithSandbox result).records = task.records := by
  cases result with
  | done => exact records_executeOnSessionThread _ (by simp)
  | exception => exact task.records_finishTask

end ModifyApprovalTaskBase

end SiriusDrive
