import SiriusDrive.FlatDrive
import SiriusDrive.ModifyDriveTask.Approvals

/-! # Published approvals

Whether a drive remembers an approval that has been published depends on the answer
of the running task. The tasks that answer with the default of the base class lose
the approval.
-/

namespace SiriusDrive

namespace DriveTask

def recorded (transaction : PublishedModificationApprovalTransactionInfo) : DriveTask → Bool
  | .modification task =>
      task.request.transactionHash = transaction.modifyTransactionHash &&
        task.modifyApproveTxReceived && !task.taskIsInterrupted
  | .stream task =>
      task.request.streamId = transaction.modifyTransactionHash &&
        task.shadowing.modifyApproveTxReceived && !task.taskIsInterrupted
  | _ => false

def catchesUp (transaction : PublishedModificationApprovalTransactionInfo) : DriveTask → Bool
  | .synchronization task =>
      task.kind = .catchingUp && task.requestedRootHash = transaction.rootHash &&
        task.modificationTransactionHash = transaction.modifyTransactionHash
  | _ => false

/-- The tasks that answer `false` without having recorded anything. -/
def dropsApprovals : DriveTask → Bool
  | .cancellation _ | .closure _ => true
  | .synchronization task => task.kind = .manualSynchronization
  | _ => false

end DriveTask

def PublishedModificationApprovalTransactionInfo.catchingUpRequest
    (transaction : PublishedModificationApprovalTransactionInfo) : CatchingUpRequest :=
  ⟨transaction.rootHash, transaction.modifyTransactionHash⟩

namespace FlatDrive

variable (flatDrive : FlatDrive) (transaction : PublishedModificationApprovalTransactionInfo)

/-- The running task has recorded the approval, or a catching-up request for it is set. -/
def RecordsOrRequests : Prop :=
  flatDrive.task.any (·.recorded transaction) = true ∨
    flatDrive.catchingUpRequest = some transaction.catchingUpRequest

/-- The approval is not lost: as before, or the drive is catching up with it already. -/
def Remembers : Prop :=
  flatDrive.RecordsOrRequests transaction ∨ flatDrive.task.any (·.catchesUp transaction) = true

instance : Decidable (flatDrive.RecordsOrRequests transaction) :=
  inferInstanceAs (Decidable (_ ∨ _))

instance : Decidable (flatDrive.Remembers transaction) := inferInstanceAs (Decidable (_ ∨ _))

/-- The drive is not being closed. -/
def IsOpen : Prop :=
  flatDrive.closeDriveRequest = none ∧ flatDrive.task.any (· matches .closure _) = false

instance : Decidable flatDrive.IsOpen := inferInstanceAs (Decidable (_ ∧ _))

end FlatDrive

namespace UpdateDriveTaskBase

variable (task : UpdateDriveTaskBase)

@[simp] theorem startSynchronizing_taskIsInterrupted :
    task.startSynchronizingDriveWithSandbox.taskIsInterrupted = task.taskIsInterrupted := by
  simp only [startSynchronizingDriveWithSandbox]
  split <;> rfl

@[simp] theorem startSynchronizingAfter_taskIsInterrupted
    (transaction : PublishedModificationApprovalTransactionInfo) :
    (task.startSynchronizingAfter transaction).taskIsInterrupted = task.taskIsInterrupted := by
  simp only [startSynchronizingAfter]
  split
  · rfl
  · split
    · exact startSynchronizing_taskIsInterrupted _
    · split
      · rfl
      · exact startSynchronizing_taskIsInterrupted _

end UpdateDriveTaskBase

namespace DriveTask

variable (transaction : PublishedModificationApprovalTransactionInfo)

/-- A modification task that asks for no catching up has recorded the approval. -/
theorem recorded_modification (task : ModifyDriveTask)
    (answer : (task.onApprovalTxPublished transaction).2 = false) :
    (DriveTask.modification (task.onApprovalTxPublished transaction).1).recorded transaction =
      true := by
  cases running : task.taskIsInterrupted with
  | true => simp [ModifyDriveTask.onApprovalTxPublished_interrupted running] at answer
  | false =>
      by_cases applies : task.Applies transaction
      · have about : task.request.transactionHash = transaction.modifyTransactionHash := applies.1
        cases calculated : task.sandboxCalculated with
        | true =>
            rw [ModifyDriveTask.onApprovalTxPublished_applies running applies calculated]
            simp [recorded, ModifyDriveTask.setApproveTxReceived, ModifyDriveTask.approval,
              ModifyDriveTask.base, ModifyApprovalTaskBase.base, about, running]
        | false =>
            rw [ModifyDriveTask.onApprovalTxPublished_waits running applies calculated]
            simp [recorded, ModifyDriveTask.setApproveTxReceived, ModifyDriveTask.approval, about,
              running]
      · simp [ModifyDriveTask.onApprovalTxPublished_breaks running applies] at answer

/-- A stream task that asks for no catching up has recorded the approval. -/
theorem recorded_stream (task : StreamTask)
    (answer : (task.onApprovalTxPublished transaction).2 = false) :
    (DriveTask.stream (task.onApprovalTxPublished transaction).1).recorded transaction = true := by
  cases running : task.taskIsInterrupted with
  | true => simp [StreamTask.onApprovalTxPublished_interrupted running] at answer
  | false =>
      by_cases applies : task.Applies transaction
      · have about : task.request.streamId = transaction.modifyTransactionHash := applies.1
        rw [StreamTask.onApprovalTxPublished_applies running applies]
        simp [recorded, StreamTask.setApproveTxReceived, StreamTask.approval, StreamTask.base,
          ModifyApprovalTaskBase.base, about, running]
      · simp [StreamTask.onApprovalTxPublished_breaks running applies] at answer

/-- A task that asks for no catching up has recorded the approval or dropped it. -/
theorem recorded_of_not_catchUp (task : DriveTask)
    (answer : (task.onApprovalTxPublished transaction).2 = false)
    (keeps : task.dropsApprovals = false) :
    (task.onApprovalTxPublished transaction).1.recorded transaction = true := by
  cases task with
  | initialization | manualModification => simp [onApprovalTxPublished] at answer
  | cancellation | closure => simp [dropsApprovals] at keeps
  | modification task => exact recorded_modification transaction task answer
  | stream task => exact recorded_stream transaction task answer
  | synchronization task =>
      cases kind : task.kind with
      | catchingUp =>
          simp only [onApprovalTxPublished, SynchronizationTask.onApprovalTxPublished, kind] at answer
          split at answer <;> simp at answer
      | manualSynchronization => simp [dropsApprovals, kind] at keeps

theorem onApprovalTxPublished_of_drops (task : DriveTask) (drops : task.dropsApprovals = true) :
    task.onApprovalTxPublished transaction = (task, false) := by
  cases task with
  | initialization | modification | stream | manualModification => simp [dropsApprovals] at drops
  | cancellation | closure => rfl
  | synchronization task =>
      have kind : task.kind = .manualSynchronization := by simpa [dropsApprovals] using drops
      simp only [onApprovalTxPublished, SynchronizationTask.onApprovalTxPublished, kind]

theorem not_recorded_of_drops (task : DriveTask) (drops : task.dropsApprovals = true) :
    task.recorded transaction = false ∧ task.catchesUp transaction = false := by
  cases task with
  | initialization | modification | stream | manualModification => simp [dropsApprovals] at drops
  | cancellation | closure => exact ⟨rfl, rfl⟩
  | synchronization task =>
      have kind : task.kind = .manualSynchronization := by simpa [dropsApprovals] using drops
      exact ⟨rfl, by simp [catchesUp, kind]⟩

theorem catchesUp_run (drive : DriveParams) :
    (DriveTask.synchronization (SynchronizationTask.createCatchingUp
      transaction.catchingUpRequest drive).run).catchesUp transaction = true := by
  simp only [SynchronizationTask.run]
  split
  · simp [catchesUp, SynchronizationTask.base, SynchronizationTask.createCatchingUp,
      PublishedModificationApprovalTransactionInfo.catchingUpRequest]
  · split <;>
      simp [catchesUp, SynchronizationTask.base, SynchronizationTask.download,
        SynchronizationTask.createCatchingUp,
        PublishedModificationApprovalTransactionInfo.catchingUpRequest]

end DriveTask

/-! ## The approval and the drive -/

namespace FlatDrive

variable (flatDrive : FlatDrive) (transaction : PublishedModificationApprovalTransactionInfo)

/-- No task that drops approvals is running, or a request for the approval is set already. -/
def KeepsApproval : Prop :=
  flatDrive.task.any (·.dropsApprovals) = false ∨
    flatDrive.catchingUpRequest = some transaction.catchingUpRequest

instance : Decidable (flatDrive.KeepsApproval transaction) := inferInstanceAs (Decidable (_ ∨ _))

/-- A new request is not taken at once. -/
def RequestWaits : Prop :=
  flatDrive.task.isSome = true ∨ flatDrive.drive.replicatorIsStopped = true ∨
    flatDrive.modificationCancelRequest.isSome = true

section Running

variable {flatDrive transaction} {task : DriveTask}

theorem recordsOrRequests_of_keeps (isRunning : flatDrive.task = some task)
    (keeps : flatDrive.KeepsApproval transaction) :
    (flatDrive.onApprovalTransactionHasBeenPublished transaction).RecordsOrRequests transaction := by
  simp only [onApprovalTransactionHasBeenPublished, isRunning]
  cases answer : (task.onApprovalTxPublished transaction).2 with
  | true => exact .inr rfl
  | false =>
      rcases keeps with keeps | requested
      · have recorded := DriveTask.recorded_of_not_catchUp transaction task answer
          (by simpa [isRunning] using keeps)
        exact .inl (by simpa using recorded)
      · exact .inr requested

theorem not_remembers_of_drops (isRunning : flatDrive.task = some task)
    (lost : ¬ flatDrive.KeepsApproval transaction) :
    ¬ (flatDrive.onApprovalTransactionHasBeenPublished transaction).Remembers transaction := by
  obtain ⟨drops, unrequested⟩ := not_or.mp lost
  have drops : task.dropsApprovals = true := by simpa [isRunning] using drops
  have dropped := task.onApprovalTxPublished_of_drops transaction drops
  obtain ⟨unrecorded, other⟩ := task.not_recorded_of_drops transaction drops
  simp only [onApprovalTransactionHasBeenPublished, isRunning, dropped, Remembers,
    RecordsOrRequests, Option.any_some, unrecorded, other, Bool.false_eq_true, false_or, or_false,
    if_false]
  exact unrequested

end Running

section Idle

variable {flatDrive transaction}

theorem recordsOrRequests_of_waiting (isIdle : flatDrive.task = none) (isOpen : flatDrive.IsOpen)
    (waits : flatDrive.RequestWaits) :
    (flatDrive.onApprovalTransactionHasBeenPublished transaction).RecordsOrRequests transaction := by
  simp only [onApprovalTransactionHasBeenPublished, isIdle, runNextTask]
  split
  · exact .inr rfl
  · rename_i going
    rcases waits with running | stopped | cancelling
    · simp [isIdle] at running
    · exact absurd (by simpa [drive, isIdle] using stopped) going
    · obtain ⟨request, isRequest⟩ := Option.isSome_iff_exists.mp cancelling
      simp only [runFirstRequest, isOpen.1, isRequest, runCancelModificationTask]
      exact .inr rfl

theorem catchesUp_of_idle (isIdle : flatDrive.task = none) (isOpen : flatDrive.IsOpen)
    (atOnce : ¬ flatDrive.RequestWaits) :
    (flatDrive.onApprovalTransactionHasBeenPublished transaction).task.any
      (·.catchesUp transaction) = true ∧
    ¬ (flatDrive.onApprovalTransactionHasBeenPublished transaction).RecordsOrRequests
      transaction := by
  obtain ⟨-, going, noCancel⟩ : ¬ flatDrive.task.isSome = true ∧
      ¬ flatDrive.drive.replicatorIsStopped = true ∧
      ¬ flatDrive.modificationCancelRequest.isSome = true := by
    simpa only [RequestWaits, not_or] using atOnce
  have going : flatDrive.idleDrive.replicatorIsStopped = false := by
    simpa [drive, isIdle] using going
  have noCancel : flatDrive.modificationCancelRequest = none := by simpa using noCancel
  simp only [onApprovalTransactionHasBeenPublished, isIdle, runNextTask, drive, going,
    Bool.false_eq_true, if_false, runFirstRequest, isOpen.1, noCancel, runCatchingUpTask,
    RecordsOrRequests, Option.any_some]
  refine ⟨DriveTask.catchesUp_run transaction _, ?_⟩
  rintro (recorded | requested)
  · simp [DriveTask.recorded] at recorded
  · simp at requested

end Idle

variable {flatDrive transaction}

/-- An approval is remembered, as a record or as a request or by the task that catches up
    with it, exactly if no task that drops approvals is running or it was requested
    before. As a record or a request it is left unless an idle drive takes it at once. -/
theorem approval_is_remembered_iff (isOpen : flatDrive.IsOpen) :
    ((flatDrive.onApprovalTransactionHasBeenPublished transaction).Remembers transaction ↔
      flatDrive.KeepsApproval transaction) ∧
    ((flatDrive.onApprovalTransactionHasBeenPublished transaction).RecordsOrRequests transaction ↔
      flatDrive.KeepsApproval transaction ∧ flatDrive.RequestWaits) := by
  cases isTask : flatDrive.task with
  | some task =>
      have waits : flatDrive.RequestWaits := .inl (by simp [isTask])
      constructor
      · refine ⟨fun remembers => ?_, fun keeps => .inl (recordsOrRequests_of_keeps isTask keeps)⟩
        by_contra lost
        exact not_remembers_of_drops isTask lost remembers
      · refine ⟨fun records => ⟨?_, waits⟩, fun both => recordsOrRequests_of_keeps isTask both.1⟩
        by_contra lost
        exact not_remembers_of_drops isTask lost (.inl records)
  | none =>
      have keeps : flatDrive.KeepsApproval transaction := .inl (by simp [isTask])
      by_cases waits : flatDrive.RequestWaits
      · have records : (flatDrive.onApprovalTransactionHasBeenPublished
            transaction).RecordsOrRequests transaction :=
          recordsOrRequests_of_waiting isTask isOpen waits
        exact ⟨iff_of_true (.inl records) keeps, iff_of_true records ⟨keeps, waits⟩⟩
      · have taken : (flatDrive.onApprovalTransactionHasBeenPublished transaction).task.any
              (·.catchesUp transaction) = true ∧
            ¬ (flatDrive.onApprovalTransactionHasBeenPublished transaction).RecordsOrRequests
              transaction := catchesUp_of_idle isTask isOpen waits
        obtain ⟨catchesUp, unrecorded⟩ := taken
        exact ⟨iff_of_true (.inr catchesUp) keeps, iff_of_false unrecorded fun both => waits both.2⟩

/-! ## A sample drive -/

def sampleFlatDrive : FlatDrive :=
  create ModifyDriveTask.sampleDrive [] fun _ => some (.actions [])

/-- The drive is read from the disk and has no task. -/
def untilInitialized : List DriveEvent :=
  [.loaded
    { fsTree := .mk "/" .nil
      rootHash := 7
      lastApprovedModification := 50
      singleTx := none
      opinionController := { clientKey := 101, approvedExpectedCumulativeDownload := 0 } },
    .advance, .advance, .advance]

/-- The modification of the sample is started, cancelled and left. -/
def untilCancellation : List DriveEvent :=
  untilInitialized ++
    [.startModifyDrive ModifyDriveTask.sampleRequest, .cancelModifyDrive ⟨60⟩,
      .task (.torrentsRemoved 0), .task (.runBackgroundJob (.fileSystem .done)), .task .runSessionJob]

def sampleApproval : PublishedModificationApprovalTransactionInfo where
  driveKey := 100
  modifyTransactionHash := 61
  rootHash := 11
  replicatorKeys := [1, 2, 3]

theorem approval_is_remembered_while_initializing :
    (sampleFlatDrive.onApprovalTransactionHasBeenPublished sampleApproval).Remembers
      sampleApproval :=
  (approval_is_remembered_iff (by decide)).1.mpr (by decide)

/-- While a modification is being cancelled the approval of another one is lost. -/
theorem approval_is_lost_by_cancellation :
    flatDriveSystem.Reaches
      (fun flatDrive => flatDrive.IsOpen ∧
        ¬ (flatDrive.onApprovalTransactionHasBeenPublished sampleApproval).Remembers sampleApproval)
      sampleFlatDrive untilCancellation := by
  decide +kernel

end FlatDrive

end SiriusDrive
