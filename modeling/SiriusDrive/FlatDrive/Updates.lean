import SiriusDrive.FlatDrive.TaskSteps
import SiriusDrive.ModifyDriveTask.UploadsStep
import SiriusDrive.StreamTask.UploadsStep
import SiriusDrive.SynchronizationTask.UploadsStep

/-! # The update of a drive

Modifications, streams and synchronizations count and approve uploads in the same
way. What the events of a drive do to the uploads is said here once, for a view that
the three tasks have in common.
-/

namespace SiriusDrive

/-- What the drive is updated for. -/
inductive UpdatePurpose where
  | serves (request : DeferredRequest)
  /-- A root hash that was published, with its modification. -/
  | follows (modification : Hash256)
  deriving Repr, DecidableEq

namespace UpdatePurpose

def modification : UpdatePurpose → Hash256
  | .serves request => request.transactionHash
  | .follows modification => modification

def isRequest : UpdatePurpose → Bool
  | .serves _ => true
  | .follows _ => false

def requests : UpdatePurpose → List DeferredRequest
  | .serves request => [request]
  | .follows _ => []

/-- What the update adds to the expected download. -/
def size : UpdatePurpose → Nat
  | .serves request => request.maxDataSize
  | .follows _ => 0

end UpdatePurpose

/-- What the uploads see of a task that updates the drive. -/
structure UpdateView where
  base : UpdateDriveTaskBase
  purpose : UpdatePurpose
  /-- The approval of a request, or of another one, has been received. -/
  received : Bool

def ModifyDriveTask.updateView (task : ModifyDriveTask) : UpdateView where
  base := task.toUpdateDriveTaskBase
  purpose := .serves (.modification task.request)
  received := task.modifyApproveTxReceived

def StreamTask.updateView (task : StreamTask) : UpdateView where
  base := task.toUpdateDriveTaskBase
  purpose := .serves (.stream task.request)
  received := task.shadowing.modifyApproveTxReceived || task.modifyApproveTxReceived

def SynchronizationTask.updateView (task : SynchronizationTask) : UpdateView where
  base := task.toUpdateDriveTaskBase
  purpose := .follows task.modificationTransactionHash
  received := false

def DriveTask.update? : DriveTask → Option UpdateView
  | .modification task => some task.updateView
  | .stream task => some task.updateView
  | .synchronization task => some task.updateView
  | _ => none

def DriveTask.isClosure : DriveTask → Bool
  | .closure _ => true
  | _ => false

theorem DriveTask.drive_of_update {task : DriveTask} {view : UpdateView}
    (isUpdate : task.update? = some view) : task.drive = view.base.drive := by
  cases task with
  | modification | stream | synchronization =>
      obtain rfl := Option.some.inj isUpdate
      rfl
  | initialization | cancellation | closure | manualModification => simp [update?] at isUpdate

theorem DriveTask.isClosure_of_update {task : DriveTask} {view : UpdateView}
    (isUpdate : task.update? = some view) : task.isClosure = false := by
  cases task with
  | modification | stream | synchronization => rfl
  | initialization | cancellation | closure | manualModification => simp [update?] at isUpdate

namespace UpdateView

/-- The synchronization with the sandbox may be started. -/
def MayStart (view : UpdateView) : Prop :=
  view.received = true ∨ ∃ modification, view.purpose = .follows modification

def IsRunning (view : UpdateView) : Prop := view.base.taskIsInterrupted = false

instance (view : UpdateView) : Decidable view.IsRunning := inferInstanceAs (Decidable (_ = _))

/-- The uploads are left alone. -/
structure GoesOn (before after : UpdateView) : Prop where
  base : UpdateDriveTaskBase.GoesOn before.MayStart before.base after.base
  purpose : after.purpose = before.purpose
  received : after.received = before.received

structure Steps (event : TaskEvent) (before after : UpdateView) : Prop where
  base : UpdateDriveTaskBase.UploadsStep before.MayStart event before.purpose.modification
    before.purpose.size before.base after.base
  purpose : after.purpose = before.purpose
  received : after.received = before.received

structure Interrupts (before after : UpdateView) : Prop where
  running : before.IsRunning
  base : UpdateDriveTaskBase.Interrupts before.base after.base
  purpose : after.purpose = before.purpose
  received : after.received = before.received

/-- The uploads are not touched any more but for an approval that is under way. -/
structure Terminates (before after : UpdateView) : Prop where
  opinionController : after.base.drive.opinionController = before.base.drive.opinionController
  stopped : after.base.drive.replicatorIsStopped = true
  interrupted : after.base.taskIsInterrupted = true
  stages : ∀ stage, after.base.HasStage stage → before.base.HasStage stage ∨ stage = .ending
  purpose : after.purpose = before.purpose
  received : after.received = before.received

/-- A request whose update is interrupted by an approval counts as approved. -/
structure Breaks (before after : UpdateView) : Prop where
  running : before.IsRunning
  opinionController : after.base.drive.opinionController =
    before.base.drive.opinionController.increaseApprovedExpectedCumulativeDownload
      before.purpose.size
  stopped : after.base.drive.replicatorIsStopped = before.base.drive.replicatorIsStopped
  interrupted : after.base.taskIsInterrupted = true
  stages : ∀ stage, after.base.HasStage stage → before.base.HasStage stage ∨ stage = .ending
  purpose : after.purpose = before.purpose
  received : after.received = true

/-- An approval of the request, which is still running. -/
structure Applies (tx : Hash256) (before after : UpdateView) : Prop where
  running : before.IsRunning
  base : UpdateDriveTaskBase.GoesOn True before.base after.base
  about : before.purpose.modification = tx
  purpose : after.purpose = before.purpose
  received : after.received = true

/-- What an approval does to an update, with the answer whether catching up has to follow. -/
inductive Published (tx : Hash256) (before after : UpdateView) : Bool → Prop
  | ignored (interrupted : ¬ before.IsRunning) (same : after = before) :
      Published tx before after true
  | applied (request : DeferredRequest) (isRequest : before.purpose = .serves request)
      (applies : Applies tx before after) : Published tx before after false
  | broken (request : DeferredRequest) (isRequest : before.purpose = .serves request)
      (breaks : Breaks before after) : Published tx before after true
  | superseded (modification : Hash256) (isFollowed : before.purpose = .follows modification)
      (interrupts : Interrupts before after) : Published tx before after true
  | dropped (modification : Hash256) (isFollowed : before.purpose = .follows modification)
      (same : after = before) : Published tx before after false

theorem GoesOn.refl (view : UpdateView) : GoesOn view view :=
  ⟨⟨rfl, rfl, rfl, id, .inl, id⟩, rfl, rfl⟩

variable {before after : UpdateView}

theorem Terminates.isCounted (terminates : Terminates before after)
    (counted : after.base.IsCounted) : before.base.IsCounted :=
  UpdateDriveTaskBase.isCounted_of_stages terminates.stages counted

theorem Published.stopped {tx : Hash256} {answer : Bool}
    (published : Published tx before after answer) :
    after.base.drive.replicatorIsStopped = before.base.drive.replicatorIsStopped := by
  cases published with
  | ignored _ same | dropped _ _ same => rw [same]
  | applied _ _ applies => exact applies.base.stopped
  | broken _ _ breaks => exact breaks.stopped
  | superseded _ _ interrupts => exact interrupts.base.stopped

theorem Published.purpose {tx : Hash256} {answer : Bool}
    (published : Published tx before after answer) : after.purpose = before.purpose := by
  cases published with
  | ignored _ same | dropped _ _ same => rw [same]
  | applied _ _ applies => exact applies.purpose
  | broken _ _ breaks => exact breaks.purpose
  | superseded _ _ interrupts => exact interrupts.purpose

theorem Breaks.isCounted (breaks : Breaks before after) (counted : after.base.IsCounted) :
    before.base.IsCounted :=
  UpdateDriveTaskBase.isCounted_of_stages breaks.stages counted

end UpdateView

open UpdateDriveTaskBase (Moves)

namespace UpdateDriveTaskBase

theorem GoesOn.mono {few many : Prop} {before after : UpdateDriveTaskBase}
    (goesOn : GoesOn few before after) (imp : few → many) : GoesOn many before after :=
  ⟨goesOn.opinionController, goesOn.stopped, goesOn.interrupted, goesOn.counted,
    fun has => (goesOn.synchronizing has).imp_right imp, goesOn.ending⟩

theorem UploadsStep.mono {few many : Prop} {event : TaskEvent} {tx : Hash256} {size : Nat}
    {before after : UpdateDriveTaskBase} (step : UploadsStep few event tx size before after)
    (imp : few → many) : UploadsStep many event tx size before after := by
  cases step with
  | goesOn goesOn => exact .goesOn (goesOn.mono imp)
  | counts isCount counts => exact .counts isCount counts
  | approves isApproval approves => exact .approves isApproval approves
  | fails isFailure fails => exact .fails isFailure fails

/-- The reaction to an approval of a calculated sandbox starts the synchronization. -/
theorem goesOn_startSynchronizingAfter {task : UpdateDriveTaskBase}
    (calculated : task.sandboxCalculated = true)
    (transaction : PublishedModificationApprovalTransactionInfo) :
    GoesOn True task (task.startSynchronizingAfter transaction) := by
  refine (task.moves_startSynchronizingAfter transaction).goesOn ?_
  intro stage isNew
  obtain rfl := List.mem_singleton.mp isNew
  exact ⟨.inl (.inl ⟨rfl, calculated⟩), .inr trivial⟩

end UpdateDriveTaskBase

/-! ## Modifications -/

namespace ModifyDriveTask

variable {before after : ModifyDriveTask}

theorem MovesOn.goesOn (moves : MovesOn [] before after) :
    before.updateView.GoesOn after.updateView :=
  ⟨moves.moves.goesOn_nil, by simp [updateView, moves.request], moves.received⟩

theorem UploadsStep.steps {event : TaskEvent} (step : UploadsStep event before after) :
    before.updateView.Steps event after.updateView :=
  ⟨step.base.mono fun received => .inl received, by simp [updateView, step.request], step.received⟩

variable (task : ModifyDriveTask)

theorem interrupts_breakTask (running : task.taskIsInterrupted = false) :
    task.updateView.Interrupts task.breakTask.updateView := by
  have interrupts := task.interrupts_breakTorrentDownload fun base =>
    base.moves_tryBreakTask task.modifyApproveTxReceived
  exact ⟨running, interrupts, rfl, rfl⟩

theorem interrupts_interrupt :
    task.updateView.GoesOn
      (if task.taskIsInterrupted then task else task.breakTask).updateView ∨
    task.updateView.Interrupts
      (if task.taskIsInterrupted then task else task.breakTask).updateView := by
  cases interrupted : task.taskIsInterrupted with
  | true => exact .inl (.refl _)
  | false => exact .inr (task.interrupts_breakTask interrupted)

theorem published_onApprovalTxPublished
    (transaction : PublishedModificationApprovalTransactionInfo) :
    task.updateView.Published transaction.modifyTransactionHash
      (task.onApprovalTxPublished transaction).1.updateView
      (task.onApprovalTxPublished transaction).2 := by
  cases running : task.taskIsInterrupted with
  | true =>
      rw [onApprovalTxPublished_interrupted running]
      exact .ignored (by simp [UpdateView.IsRunning, updateView, running]) rfl
  | false =>
      by_cases applies : task.Applies transaction
      · cases calculated : task.sandboxCalculated with
        | false =>
            rw [onApprovalTxPublished_waits running applies calculated]
            exact .applied _ rfl ⟨running, (Moves.refl _).goesOn_nil, applies.1, rfl, rfl⟩
        | true =>
            rw [onApprovalTxPublished_applies running applies calculated]
            exact .applied _ rfl ⟨running,
              UpdateDriveTaskBase.goesOn_startSynchronizingAfter calculated transaction,
              applies.1, rfl, rfl⟩
      · rw [onApprovalTxPublished_breaks running applies]
        have interrupts := (task.setApproveTxReceived.base
          (·.increaseApprovedExpectedCumulativeDownload
            task.request.maxDataSize)).interrupts_breakTask running
        exact .broken _ rfl ⟨running, interrupts.base.opinionController, interrupts.base.stopped,
          interrupts.base.interrupted, interrupts.base.stages, rfl, rfl⟩

theorem shouldCancelModify_cases (cancelRequest : ModificationCancelRequest) :
    ((task.shouldCancelModify cancelRequest).1 = task ∧
      (task.shouldCancelModify cancelRequest).2 = false ∧
      (task.updateView.IsRunning →
        task.request.transactionHash ≠ cancelRequest.modifyTransactionHash)) ∨
    ((task.shouldCancelModify cancelRequest).2 = true ∧
      task.request.transactionHash = cancelRequest.modifyTransactionHash ∧
      task.updateView.Interrupts (task.shouldCancelModify cancelRequest).1.updateView) := by
  unfold shouldCancelModify
  cases running : task.taskIsInterrupted with
  | true => exact .inl ⟨rfl, rfl, by simp [UpdateView.IsRunning, updateView, running]⟩
  | false =>
      by_cases about : cancelRequest.modifyTransactionHash = task.request.transactionHash
      · rw [if_neg (by simp), if_pos about]
        exact .inr ⟨rfl, about.symm, task.interrupts_breakTask running⟩
      · rw [if_neg (by simp), if_neg about]
        exact .inl ⟨rfl, rfl, fun _ => Ne.symm about⟩

theorem terminates_terminate : task.updateView.Terminates task.terminate.updateView := by
  have interrupts := UpdateDriveTaskBase.interrupts_breakTorrentDownload
    { task.toUpdateDriveTaskBase with
      drive := { task.drive with replicatorIsStopped := true } }
    fun base => base.moves_tryBreakTask task.modifyApproveTxReceived
  exact ⟨interrupts.opinionController, interrupts.stopped, interrupts.interrupted,
    interrupts.stages, rfl, rfl⟩

end ModifyDriveTask

/-! ## Streams -/

namespace StreamTask

variable {before after : StreamTask}

theorem received_eq
    (shadowing : after.shadowing.modifyApproveTxReceived = before.shadowing.modifyApproveTxReceived)
    (inherited : after.modifyApproveTxReceived = before.modifyApproveTxReceived) :
    after.updateView.received = before.updateView.received := by
  simp only [updateView, shadowing, inherited]

theorem mayStart_of_received {task : StreamTask} (received : task.modifyApproveTxReceived = true) :
    task.updateView.MayStart :=
  .inl (by simp [updateView, received])

theorem MovesOn.goesOn (moves : MovesOn [] before after) :
    before.updateView.GoesOn after.updateView :=
  ⟨moves.moves.goesOn_nil, by simp [updateView, moves.request],
    received_eq moves.received moves.inherited⟩

theorem UploadsStep.steps {event : TaskEvent} (step : UploadsStep event before after) :
    before.updateView.Steps event after.updateView :=
  ⟨step.base.mono mayStart_of_received, by simp [updateView, step.request],
    received_eq step.received step.inherited⟩

variable (task : StreamTask)

theorem interrupts_breakTask (running : task.taskIsInterrupted = false) :
    task.updateView.Interrupts task.breakTask.updateView := by
  have interrupts := task.interrupts_breakTorrentDownload fun base =>
    base.moves_tryBreakTask task.shadowing.modifyApproveTxReceived
  exact ⟨running, interrupts, rfl, rfl⟩

theorem interrupts_interrupt :
    task.updateView.GoesOn
      (if task.taskIsInterrupted then task else task.breakTask).updateView ∨
    task.updateView.Interrupts
      (if task.taskIsInterrupted then task else task.breakTask).updateView := by
  cases interrupted : task.taskIsInterrupted with
  | true => exact .inl (.refl _)
  | false => exact .inr (task.interrupts_breakTask interrupted)

theorem published_onApprovalTxPublished
    (transaction : PublishedModificationApprovalTransactionInfo) :
    task.updateView.Published transaction.modifyTransactionHash
      (task.onApprovalTxPublished transaction).1.updateView
      (task.onApprovalTxPublished transaction).2 := by
  cases running : task.taskIsInterrupted with
  | true =>
      rw [onApprovalTxPublished_interrupted running]
      exact .ignored (by simp [UpdateView.IsRunning, updateView, running]) rfl
  | false =>
      by_cases applies : task.Applies transaction
      · rw [onApprovalTxPublished_applies running applies]
        exact .applied _ rfl ⟨running,
          UpdateDriveTaskBase.goesOn_startSynchronizingAfter applies.2 transaction,
          applies.1, rfl, rfl⟩
      · rw [onApprovalTxPublished_breaks running applies]
        have interrupts := (task.setApproveTxReceived.base
          (·.increaseApprovedExpectedCumulativeDownload
            task.request.maxSizeBytes)).interrupts_breakTask running
        exact .broken _ rfl ⟨running, interrupts.base.opinionController, interrupts.base.stopped,
          interrupts.base.interrupted, interrupts.base.stages, rfl, rfl⟩

theorem shouldCancelModify_cases (cancelRequest : ModificationCancelRequest) :
    ((task.shouldCancelModify cancelRequest).1 = task ∧
      (task.shouldCancelModify cancelRequest).2 = false ∧
      (task.updateView.IsRunning →
        task.request.streamId ≠ cancelRequest.modifyTransactionHash)) ∨
    ((task.shouldCancelModify cancelRequest).2 = true ∧
      task.request.streamId = cancelRequest.modifyTransactionHash ∧
      task.updateView.Interrupts (task.shouldCancelModify cancelRequest).1.updateView) := by
  unfold shouldCancelModify
  cases running : task.taskIsInterrupted with
  | true => exact .inl ⟨rfl, rfl, by simp [UpdateView.IsRunning, updateView, running]⟩
  | false =>
      by_cases about : cancelRequest.modifyTransactionHash = task.request.streamId
      · rw [if_neg (by simp), if_pos about]
        exact .inr ⟨rfl, about.symm, task.interrupts_breakTask running⟩
      · rw [if_neg (by simp), if_neg about]
        exact .inl ⟨rfl, rfl, fun _ => Ne.symm about⟩

theorem terminates_terminate : task.updateView.Terminates task.terminate.updateView := by
  have interrupts := UpdateDriveTaskBase.interrupts_breakTorrentDownload
    { task.toUpdateDriveTaskBase with
      drive := { task.drive with replicatorIsStopped := true } }
    fun base => base.moves_tryBreakTask task.shadowing.modifyApproveTxReceived
  exact ⟨interrupts.opinionController, interrupts.stopped, interrupts.interrupted,
    interrupts.stages, rfl, rfl⟩

theorem goesOn_streamEvent (event : TaskEvent)
    (isMessage : event matches .chunkInfoReceived .. | .finishStream _) :
    task.updateView.GoesOn ((task.handle event).getD task).updateView := by
  cases event with
  | chunkInfoReceived chunkInfo isVerified =>
      exact (task.movesOn_acceptChunkInfoMessage chunkInfo isVerified).goesOn
  | finishStream finishStream => exact (task.movesOn_acceptFinishStreamTx finishStream).goesOn
  | _ => simp at isMessage

end StreamTask

/-! ## Synchronizations -/

namespace SynchronizationTask

variable {before after : SynchronizationTask}

theorem UploadsStep.steps {event : TaskEvent} (step : UploadsStep event before after) :
    before.updateView.Steps event after.updateView :=
  ⟨step.base.mono fun _ => .inr ⟨_, rfl⟩, by simp [updateView, step.modification], rfl⟩

variable (task : SynchronizationTask)

theorem interrupts_breakTask (running : task.taskIsInterrupted = false) :
    task.updateView.Interrupts task.breakTask.updateView := by
  have interrupts := task.interrupts_breakTorrentDownload fun base => Moves.refl base
  exact ⟨running, interrupts, rfl, rfl⟩

theorem interrupts_interrupt :
    task.updateView.GoesOn
      (if task.taskIsInterrupted then task else task.breakTask).updateView ∨
    task.updateView.Interrupts
      (if task.taskIsInterrupted then task else task.breakTask).updateView := by
  cases interrupted : task.taskIsInterrupted with
  | true => exact .inl (.refl _)
  | false => exact .inr (task.interrupts_breakTask interrupted)

theorem published_onApprovalTxPublished (tx : Hash256) :
    task.updateView.Published tx task.onApprovalTxPublished.1.updateView
      task.onApprovalTxPublished.2 := by
  unfold onApprovalTxPublished
  cases task.kind with
  | catchingUp =>
      cases running : task.taskIsInterrupted with
      | true => exact .ignored (by simp [UpdateView.IsRunning, updateView, running]) rfl
      | false => exact .superseded _ rfl (task.interrupts_breakTask running)
  | manualSynchronization => exact .dropped _ rfl rfl

theorem terminates_terminate : task.updateView.Terminates task.terminate.updateView := by
  have interrupts := UpdateDriveTaskBase.interrupts_breakTorrentDownload
    { task.toUpdateDriveTaskBase with
      drive := { task.drive with replicatorIsStopped := true } }
    fun base => Moves.refl base
  exact ⟨interrupts.opinionController, interrupts.stopped, interrupts.interrupted,
    interrupts.stages, rfl, rfl⟩

end SynchronizationTask

/-! ## The running task -/

theorem ManualModificationsTask.drive_terminate (task : ManualModificationsTask) :
    task.terminate.drive = task.drive := by
  unfold terminate
  split
  · rfl
  · simp only
    split
    · unfold finishTask
      split <;> rfl
    · rfl

/-- The uploads are the same; those that are not approved may get another name. -/
def ModifyOpinionController.Renames (before after : ModifyOpinionController) : Prop :=
  ∃ modificationId, after =
    { before with
      notApprovedCumulativeUploads := { before.notApprovedCumulativeUploads with modificationId } }

theorem ModifyOpinionController.Renames.of_eq {before after : ModifyOpinionController}
    (same : after = before) : before.Renames after :=
  ⟨before.notApprovedModificationId, same⟩

namespace DriveTask

/-- Nothing happens to the uploads. -/
inductive Keeps (before after : DriveTask) : Prop
  | update {view later : UpdateView} (isBefore : before.update? = some view)
      (isAfter : after.update? = some later) (goesOn : view.GoesOn later)
  | other (noUpdate : before.update? = none) (stillNone : after.update? = none)
      (opinionController : before.drive.opinionController.Renames after.drive.opinionController)
      (stopped : after.drive.replicatorIsStopped = before.drive.replicatorIsStopped)
      (closure : after.isClosure = before.isClosure)

/-- The task goes on, or an update is interrupted. -/
inductive Responds (before after : DriveTask) : Prop
  | keeps (keeps : Keeps before after)
  | interrupts {view later : UpdateView} (isBefore : before.update? = some view)
      (isAfter : after.update? = some later) (interrupts : view.Interrupts later)

theorem Keeps.refl (task : DriveTask) : Keeps task task := by
  cases isUpdate : task.update? with
  | some view => exact .update isUpdate isUpdate (.refl view)
  | none => exact .other isUpdate isUpdate (.of_eq rfl) rfl rfl

theorem responds_of_update {before after : DriveTask} {view later : UpdateView}
    (isBefore : before.update? = some view) (isAfter : after.update? = some later)
    (responds : view.GoesOn later ∨ view.Interrupts later) : Responds before after := by
  rcases responds with goesOn | interrupts
  · exact .keeps (.update isBefore isAfter goesOn)
  · exact .interrupts isBefore isAfter interrupts

variable (task : DriveTask)

theorem keeps_mapDrive {f : DriveParams → DriveParams}
    (opinionController : ∀ drive, (f drive).opinionController = drive.opinionController)
    (stopped : ∀ drive, (f drive).replicatorIsStopped = drive.replicatorIsStopped) :
    Keeps task (task.mapDrive f) := by
  have maps (base : UpdateDriveTaskBase) :
      Moves [] base { base with drive := f base.drive } :=
    .of_eq (opinionController _) (stopped _) rfl rfl rfl rfl rfl rfl
  cases task with
  | modification task => exact .update rfl rfl ⟨(maps _).goesOn_nil, rfl, rfl⟩
  | stream task => exact .update rfl rfl ⟨(maps _).goesOn_nil, rfl, rfl⟩
  | synchronization task => exact .update rfl rfl ⟨(maps _).goesOn_nil, rfl, rfl⟩
  | initialization | cancellation | closure | manualModification =>
      exact .other rfl rfl (.of_eq (opinionController _)) (stopped _) rfl

theorem keeps_onRequestQueued : Keeps task task.onRequestQueued := by
  cases task with
  | manualModification task =>
      have sameDrive := task.drive_terminate
      refine .other rfl rfl ?_ ?_ rfl
      · exact .of_eq (congrArg _ sameDrive)
      · exact congrArg _ sameDrive
  | initialization | modification | stream | synchronization | cancellation | closure =>
      exact .refl _

theorem keeps_processedModifyOpinion (anOpinion : ApprovalTransactionInfo) :
    Keeps task (task.processedModifyOpinion anOpinion).1 := by
  cases task with
  | modification task =>
      exact .update rfl rfl (task.movesOn_processedModifyOpinion anOpinion).goesOn
  | stream task => exact .update rfl rfl (task.movesOn_processedModifyOpinion anOpinion).goesOn
  | initialization | synchronization | cancellation | closure | manualModification =>
      exact .refl _

theorem keeps_onApprovalTxFailed (transactionHash : Hash256) :
    Keeps task (task.onApprovalTxFailed transactionHash) := by
  cases task with
  | modification task =>
      exact .update rfl rfl (task.movesOn_onApprovalTxFailed transactionHash).goesOn
  | initialization | stream | synchronization | cancellation | closure | manualModification =>
      exact .refl _

theorem keeps_streamEvent (event : TaskEvent)
    (isMessage : event matches .chunkInfoReceived .. | .finishStream _) :
    Keeps task (task.streamEvent event) := by
  cases task with
  | stream task => exact .update rfl rfl (task.goesOn_streamEvent event isMessage)
  | initialization | modification | synchronization | cancellation | closure
  | manualModification => exact .refl _

theorem responds_onDriveClose : Responds task task.onDriveClose := by
  cases task with
  | modification task => exact responds_of_update rfl rfl task.interrupts_interrupt
  | stream task => exact responds_of_update rfl rfl task.interrupts_interrupt
  | synchronization task => exact responds_of_update rfl rfl task.interrupts_interrupt
  | manualModification task => exact .keeps (keeps_onRequestQueued (.manualModification task))
  | initialization | cancellation | closure => exact .keeps (.refl _)

theorem responds_manualSynchronize : Responds task task.manualSynchronize.1 := by
  cases task with
  | modification task => exact responds_of_update rfl rfl task.interrupts_interrupt
  | stream task => exact responds_of_update rfl rfl task.interrupts_interrupt
  | synchronization task => exact responds_of_update rfl rfl task.interrupts_interrupt
  | manualModification task => exact .keeps (keeps_onRequestQueued (.manualModification task))
  | initialization | cancellation | closure => exact .keeps (.refl _)

/-- The cancellation is not the one of the request that is being served. -/
def LeavesRequest (request : ModificationCancelRequest) : Prop :=
  ∀ view, task.update? = some view → view.purpose.isRequest = true →
    (task.shouldCancelModify request).2 = false ∧
      (view.IsRunning → view.purpose.modification ≠ request.modifyTransactionHash)

/-- A cancellation that has to follow concerns the running update, or leaves the task alone. -/
theorem shouldCancelModify_cases (request : ModificationCancelRequest) :
    (Keeps task (task.shouldCancelModify request).1 ∧ task.LeavesRequest request) ∨
    ((task.shouldCancelModify request).2 = true ∧ ∃ view later,
      task.update? = some view ∧ (task.shouldCancelModify request).1.update? = some later ∧
      view.Interrupts later ∧ view.purpose.modification = request.modifyTransactionHash ∧
      view.purpose.isRequest = true) := by
  have other (noUpdate : task.update? = none) : task.LeavesRequest request := by
    intro view isView
    simp [noUpdate] at isView
  cases task with
  | modification task =>
      rcases task.shouldCancelModify_cases request with
        ⟨same, should, apart⟩ | ⟨should, about, interrupts⟩
      · left
        constructor
        · simp only [shouldCancelModify, same]
          exact .refl _
        · intro view isView _
          obtain rfl := Option.some.inj isView
          exact ⟨should, apart⟩
      · exact .inr ⟨should, _, _, rfl, rfl, interrupts, about, rfl⟩
  | stream task =>
      rcases task.shouldCancelModify_cases request with
        ⟨same, should, apart⟩ | ⟨should, about, interrupts⟩
      · left
        constructor
        · simp only [shouldCancelModify, same]
          exact .refl _
        · intro view isView _
          obtain rfl := Option.some.inj isView
          exact ⟨should, apart⟩
      · exact .inr ⟨should, _, _, rfl, rfl, interrupts, about, rfl⟩
  | initialization task =>
      refine .inl ⟨?_, other rfl⟩
      simp only [shouldCancelModify, InitializeDriveTask.shouldCancelModify]
      split
      · exact .refl _
      · exact .other rfl rfl (.of_eq rfl) rfl rfl
  | synchronization task =>
      refine .inl ⟨.refl _, ?_⟩
      intro view isView isRequest
      obtain rfl := Option.some.inj isView
      simp [SynchronizationTask.updateView, UpdatePurpose.isRequest] at isRequest
  | cancellation | closure | manualModification => exact .inl ⟨.refl _, other rfl⟩

theorem onApprovalTxPublished_cases
    (transaction : PublishedModificationApprovalTransactionInfo) :
    (∃ view later, task.update? = some view ∧
      (task.onApprovalTxPublished transaction).1.update? = some later ∧
      view.Published transaction.modifyTransactionHash later
        (task.onApprovalTxPublished transaction).2) ∨
    (task.update? = none ∧ Keeps task (task.onApprovalTxPublished transaction).1) := by
  cases task with
  | modification task =>
      exact .inl ⟨_, _, rfl, rfl, task.published_onApprovalTxPublished transaction⟩
  | stream task =>
      exact .inl ⟨_, _, rfl, rfl, task.published_onApprovalTxPublished transaction⟩
  | synchronization task =>
      exact .inl ⟨_, _, rfl, rfl, task.published_onApprovalTxPublished _⟩
  | manualModification task =>
      exact .inr ⟨rfl, keeps_onRequestQueued (.manualModification task)⟩
  | initialization | cancellation | closure => exact .inr ⟨rfl, .refl _⟩

theorem terminate_cases :
    (∃ view later, task.update? = some view ∧ task.terminate.update? = some later ∧
      view.Terminates later) ∨
    (task.update? = none ∧ task.terminate.update? = none ∧
      task.terminate.drive.opinionController = task.drive.opinionController ∧
      task.terminate.drive.replicatorIsStopped = true ∧
      task.terminate.isClosure = task.isClosure) := by
  let stop (drive : DriveParams) : DriveParams := { drive with replicatorIsStopped := true }
  cases task with
  | modification task =>
      have terminates := (task.base fun base =>
        { base with drive := stop base.drive }).terminates_terminate
      exact .inl ⟨_, _, rfl, rfl, ⟨terminates.opinionController, terminates.stopped,
        terminates.interrupted, terminates.stages, rfl, rfl⟩⟩
  | stream task =>
      have terminates := (task.base fun base =>
        { base with drive := stop base.drive }).terminates_terminate
      exact .inl ⟨_, _, rfl, rfl, ⟨terminates.opinionController, terminates.stopped,
        terminates.interrupted, terminates.stages, rfl, rfl⟩⟩
  | synchronization task =>
      have terminates := (task.base fun base =>
        { base with drive := stop base.drive }).terminates_terminate
      exact .inl ⟨_, _, rfl, rfl, ⟨terminates.opinionController, terminates.stopped,
        terminates.interrupted, terminates.stages, rfl, rfl⟩⟩
  | manualModification task =>
      have sameDrive :=
        ManualModificationsTask.drive_terminate { task with drive := stop task.drive }
      have sameController := congrArg DriveParams.opinionController sameDrive
      have stopped := congrArg DriveParams.replicatorIsStopped sameDrive
      exact .inr ⟨rfl, rfl, sameController, stopped, rfl⟩
  | initialization | cancellation | closure => exact .inr ⟨rfl, rfl, rfl, rfl, rfl⟩

end DriveTask

namespace FlatDrive

def update? (flatDrive : FlatDrive) : Option UpdateView := flatDrive.task.bind (·.update?)

variable {flatDrive after : FlatDrive}

theorem update?_of_task {task : DriveTask} (isTask : flatDrive.task = some task) :
    flatDrive.update? = task.update? := by
  rw [update?, isTask, Option.bind_some]

theorem drive_of_task {task : DriveTask} (isTask : flatDrive.task = some task) :
    flatDrive.drive = task.drive := by
  rw [drive, isTask]

theorem drive_of_idle (isIdle : flatDrive.task = none) : flatDrive.drive = flatDrive.idleDrive := by
  rw [drive, isIdle]

theorem isEnding_of_head {base : UpdateDriveTaskBase}
    (isHead : base.sessionJobs.head? = some .runNextTask) : base.IsEnding :=
  .inr (.inr (.inr (base.hasStage_of_sessionJob (List.mem_of_mem_head? isHead) rfl)))

/-- An event inside of the running task ends it, or is a step of the update. -/
theorem taskStep_cases {task : DriveTask} {event : TaskEvent} (isInternal : event.isInternal = true)
    (step : flatDrive.taskStep event task = some after) :
    ∃ view, task.update? = some view ∧
      ((view.base.sessionJobs.head? = some .runNextTask ∧ event = .runSessionJob ∧
          after = flatDrive.runNextTask) ∨
        ∃ next later, after = { flatDrive with task := some next } ∧ next.update? = some later ∧
          view.Steps event later) := by
  cases task with
  | modification task =>
      refine ⟨_, rfl, ?_⟩
      unfold taskStep at step
      simp only at step
      split_ifs at step with ends
      · exact .inl ⟨ends.2, eq_runSessionJob ends.1, (Option.some.inj step).symm⟩
      · obtain ⟨next, stepped, rfl⟩ := Option.map_eq_some_iff.mp step
        exact .inr ⟨_, _, rfl, rfl, (ModifyDriveTask.uploadsStep isInternal stepped).steps⟩
  | stream task =>
      refine ⟨_, rfl, ?_⟩
      unfold taskStep at step
      simp only at step
      split_ifs at step with ends
      · exact .inl ⟨ends.2, eq_runSessionJob ends.1, (Option.some.inj step).symm⟩
      · obtain ⟨next, stepped, rfl⟩ := Option.map_eq_some_iff.mp step
        exact .inr ⟨_, _, rfl, rfl, (StreamTask.uploadsStep isInternal stepped).steps⟩
  | synchronization task =>
      refine ⟨_, rfl, ?_⟩
      unfold taskStep at step
      simp only at step
      split_ifs at step with ends
      · exact .inl ⟨ends.2, eq_runSessionJob ends.1, (Option.some.inj step).symm⟩
      · obtain ⟨next, stepped, rfl⟩ := Option.map_eq_some_iff.mp step
        exact .inr ⟨_, _, rfl, rfl, (SynchronizationTask.uploadsStep isInternal stepped).steps⟩
  | initialization | cancellation | closure | manualModification => simp [taskStep] at step

/-- The step that counts the uploads of an update calls the opinion controller. -/
theorem opinionController_of_counts {task : DriveTask} {view : UpdateView} {event : TaskEvent}
    (isView : task.update? = some view) (isCount : view.base.CountsUploads event)
    (step : flatDrive.taskStep event task = some after) :
    after.drive.opinionController = view.base.drive.opinionController.updateCumulativeUploads
      view.base.drive.modifyTrafficMap view.purpose.modification
      view.base.drive.modifyDonatorShard view.purpose.size := by
  have other : view.base.sessionJobs.head? ≠ some .runNextTask := by simp [isCount.2.1]
  cases task with
  | modification task =>
      obtain rfl := Option.some.inj isView
      unfold taskStep at step
      simp only at step
      rw [if_neg fun ends => other ends.2] at step
      obtain ⟨next, stepped, rfl⟩ := Option.map_eq_some_iff.mp step
      exact ModifyDriveTask.opinionController_of_counts isCount stepped
  | stream task =>
      obtain rfl := Option.some.inj isView
      unfold taskStep at step
      simp only at step
      rw [if_neg fun ends => other ends.2] at step
      obtain ⟨next, stepped, rfl⟩ := Option.map_eq_some_iff.mp step
      exact StreamTask.opinionController_of_counts isCount stepped
  | synchronization task =>
      obtain rfl := Option.some.inj isView
      unfold taskStep at step
      simp only at step
      rw [if_neg fun ends => other ends.2] at step
      obtain ⟨next, stepped, rfl⟩ := Option.map_eq_some_iff.mp step
      exact SynchronizationTask.opinionController_of_counts isCount stepped
  | initialization | cancellation | closure | manualModification =>
      simp [DriveTask.update?] at isView

end FlatDrive

/-! ## New tasks -/

namespace UpdateDriveTaskBase

theorem not_hasStage_new (drive : DriveParams) (stage : UpdateStage) :
    ¬ UpdateDriveTaskBase.HasStage { drive } stage := by
  simp [HasStage]

theorem not_isEnding_new (drive : DriveParams) : ¬ UpdateDriveTaskBase.IsEnding { drive } := by
  simp [IsEnding, HasStage]

theorem not_isCounted_of_new {drive : DriveParams} {after : UpdateDriveTaskBase}
    (moves : Moves [.ending] { drive } after) : ¬ after.IsCounted := by
  have never : ∀ stage, stage ≠ .ending → ¬ after.HasStage stage := by
    intro stage other has
    rcases moves.stages stage has with old | isNew
    · exact not_hasStage_new drive stage old
    · exact other (List.mem_singleton.mp isNew)
  rintro (has | has | has)
  · exact never _ (by simp) has
  · exact never _ (by simp) has
  · exact never _ (by simp) has

end UpdateDriveTaskBase

/-- A task for some purpose that works on a drive and has not counted anything. -/
structure UpdateView.IsNew (view : UpdateView) (drive : DriveParams) : Prop where
  opinionController : view.base.drive.opinionController = drive.opinionController
  uncounted : ¬ view.base.IsCounted
  unreceived : view.received = false

theorem ModifyDriveTask.isNew_start (request : ModificationRequest) (opinions : ReceivedOpinions)
    (drive : DriveParams) (actionListFile : Option ActionListFile) :
    (start request opinions drive actionListFile).updateView.IsNew drive ∧
      (start request opinions drive actionListFile).updateView.purpose =
        .serves (.modification request) := by
  have moves := (create request opinions drive actionListFile).movesOn_run
  have uncounted := UpdateDriveTaskBase.not_isCounted_of_new
    (moves.moves.mono (List.nil_subset [UpdateStage.ending]))
  refine ⟨⟨moves.moves.opinionController, uncounted, moves.received⟩, ?_⟩
  exact congrArg (fun request => UpdatePurpose.serves (.modification request)) moves.request

theorem ModifyDriveTask.going_start (request : ModificationRequest) (opinions : ReceivedOpinions)
    (drive : DriveParams) (actionListFile : Option ActionListFile) :
    (start request opinions drive actionListFile).updateView.IsRunning ∧
      ¬ (start request opinions drive actionListFile).updateView.base.IsEnding := by
  have goesOn := (create request opinions drive actionListFile).movesOn_run.goesOn
  refine ⟨goesOn.base.interrupted, ?_⟩
  intro ending
  exact UpdateDriveTaskBase.not_isEnding_new drive (goesOn.base.ending ending)

theorem StreamTask.isNew_create (request : StreamRequest) (drive : DriveParams) :
    (create request drive).updateView.IsNew drive :=
  ⟨rfl, UpdateDriveTaskBase.not_isCounted_of_new (.refl _), rfl⟩

theorem SynchronizationTask.moves_run (task : SynchronizationTask) :
    Moves [.ending] task.toUpdateDriveTaskBase task.run.toUpdateDriveTaskBase := by
  unfold run
  split
  · exact task.moves_finishTask
  · split
    · exact (task.moves_executeOnBackgroundThread .copyFsTree).mono (List.nil_subset _)
    · exact .of_eq rfl rfl rfl rfl rfl rfl rfl rfl

theorem SynchronizationTask.isNew_run {task : SynchronizationTask} {drive : DriveParams}
    (isNew : task.toUpdateDriveTaskBase = { drive }) : task.run.updateView.IsNew drive where
  opinionController := by
    have same := task.moves_run.opinionController
    rwa [isNew] at same
  uncounted := UpdateDriveTaskBase.not_isCounted_of_new (isNew ▸ task.moves_run)
  unreceived := rfl

end SiriusDrive
