import SiriusDrive.FlatDrive.NextTask

/-! # The order of the requests

Modifications and streams wait in one queue. The events that call `runNextTask` start the
first one of them, or catch up with an approval and skip the requests up to the approved
one. What the events do to the queue is said by the operations of a queue of requests.
-/

namespace SiriusDrive

def DriveEvent.received : DriveEvent → List DeferredRequest
  | .startModifyDrive request => [.modification request]
  | .startStream request => [.stream request]
  | _ => []

namespace FlatDrive

/-- The request that is chosen where an event calls `runNextTask`. -/
def startedBy (flatDrive : FlatDrive) (event : DriveEvent) : List DeferredRequest :=
  ((flatDrive.nextTaskCall event).bind requestToStart).toList

/-- A cancellation that the running task does not accept goes to the queue. -/
def cancelOps (flatDrive : FlatDrive) : DriveEvent → List (QueueOp DeferredRequest Hash256)
  | .cancelModifyDrive request =>
      if flatDrive.task.any (fun task => (task.shouldCancelModify request).2) then []
      else [.cancel request.modifyTransactionHash]
  | _ => []

def queueOps (flatDrive : FlatDrive) (event : DriveEvent) :
    List (QueueOp DeferredRequest Hash256) :=
  event.received.map .receive ++ flatDrive.cancelOps event ++
    ((flatDrive.nextTaskCall event).map nextQueueOps).getD []

variable {flatDrive after call : FlatDrive} {event : DriveEvent}

/-! ## Events that do not call `runNextTask` -/

/-- The update serves what it has served before. -/
def SamePurpose (before after : FlatDrive) : Prop :=
  ∀ later, after.update? = some later →
    ∃ view, before.update? = some view ∧ view.purpose = later.purpose

theorem SamePurpose.of_eq (same : after.task = flatDrive.task) : SamePurpose flatDrive after := by
  intro later isLater
  rw [update?, same] at isLater
  exact ⟨later, isLater, rfl⟩

theorem SamePurpose.of_keeps {task next : DriveTask} (isTask : flatDrive.task = some task)
    (isNext : after.task = some next) (keeps : task.Keeps next) : SamePurpose flatDrive after := by
  intro later isLater
  rw [update?_of_task isNext] at isLater
  cases keeps with
  | update isBefore isAfter goesOn =>
      obtain rfl := Option.some.inj (isAfter.symm.trans isLater)
      exact ⟨_, (update?_of_task isTask).trans isBefore, goesOn.purpose.symm⟩
  | other _ stillNone => cases stillNone.symm.trans isLater

theorem SamePurpose.of_responds {task next : DriveTask} (isTask : flatDrive.task = some task)
    (isNext : after.task = some next) (responds : task.Responds next) :
    SamePurpose flatDrive after := by
  cases responds with
  | keeps keeps => exact .of_keeps isTask isNext keeps
  | interrupts isBefore isAfter interrupts =>
      intro later isLater
      rw [update?_of_task isNext] at isLater
      obtain rfl := Option.some.inj (isAfter.symm.trans isLater)
      exact ⟨_, (update?_of_task isTask).trans isBefore, interrupts.purpose.symm⟩

theorem SamePurpose.of_map {f : DriveTask → DriveTask} (keeps : ∀ task : DriveTask, task.Keeps (f task))
    (isMap : after.task = flatDrive.task.map f) : SamePurpose flatDrive after := by
  cases isTask : flatDrive.task with
  | none =>
      refine .of_eq ?_
      rw [isMap, isTask]
      rfl
  | some task =>
      refine .of_keeps isTask ?_ (keeps task)
      rw [isMap, isTask]
      rfl

theorem taskStep_of_noCall {task : DriveTask} {event : TaskEvent}
    (isInternal : event.isInternal = true) (isTask : flatDrive.task = some task)
    (noCall : flatDrive.nextTaskCall (.task event) = none)
    (step : flatDrive.taskStep event task = some after) :
    after.deferredModificationRequests = flatDrive.deferredModificationRequests ∧
      SamePurpose flatDrive after := by
  have calls := callsRunNextTask_of_none isTask noCall
  obtain ⟨view, isView, ⟨isHead, isJob, -⟩ | ⟨next, later, isAfter, isLater, steps⟩⟩ :=
    taskStep_cases isInternal step
  · subst isJob
    have isCall : task.callsRunNextTask (.task .runSessionJob) = true := by
      cases task with
      | modification | stream | synchronization =>
          obtain rfl := Option.some.inj isView
          exact decide_eq_true isHead
      | initialization | cancellation | closure | manualModification => cases isView
    simp [isCall] at calls
  · subst isAfter
    refine ⟨rfl, ?_⟩
    intro other isOther
    obtain rfl := Option.some.inj (isLater.symm.trans isOther)
    exact ⟨view, (update?_of_task isTask).trans isView, steps.purpose.symm⟩

theorem advance_of_noCall {task : DriveTask} (isTask : flatDrive.task = some task)
    (noCall : flatDrive.nextTaskCall .advance = none)
    (step : flatDrive.advance task = some after) :
    after.deferredModificationRequests = flatDrive.deferredModificationRequests ∧
      SamePurpose flatDrive after := by
  have calls := callsRunNextTask_of_none isTask noCall
  cases task with
  | initialization task =>
      unfold advance at step
      simp only at step
      split at step
      · cases step
      · obtain rfl := Option.some.inj step
        obtain ⟨next, isNext, keeps, same, -⟩ := flatDrive.onInitialized_cases task
        exact ⟨same.deferred, .of_keeps isTask isNext keeps⟩
      · obtain rfl := Option.some.inj step
        exact ⟨rfl, .of_keeps isTask rfl (.other rfl rfl (.of_eq rfl) rfl rfl)⟩
      · rename_i isLast
        simp [DriveTask.callsRunNextTask, isLast] at calls
  | cancellation task =>
      unfold advance at step
      simp only at step
      split at step
      · rename_i isLast
        simp [DriveTask.callsRunNextTask, isLast] at calls
      · obtain rfl := Option.some.inj step
        have same := task.sameUploads_advance
        exact ⟨rfl, .of_keeps isTask rfl
          (.other rfl rfl (.of_eq same.opinionController) same.stopped rfl)⟩
  | closure task =>
      unfold advance at step
      simp only at step
      split at step
      · obtain rfl := Option.some.inj step
        exact ⟨rfl, .of_eq rfl⟩
      · obtain rfl := Option.some.inj step
        refine ⟨rfl, ?_⟩
        intro later isLater
        cases isLater
  | modification | stream | synchronization | manualModification => cases step

theorem manual_of_noCall {task : DriveTask} {event : ManualEvent}
    (isTask : flatDrive.task = some task)
    (noCall : flatDrive.nextTaskCall (.manual event) = none)
    (step : flatDrive.manual event task = some after) :
    after.deferredModificationRequests = flatDrive.deferredModificationRequests ∧
      SamePurpose flatDrive after := by
  have calls := callsRunNextTask_of_none isTask noCall
  cases task with
  | manualModification task =>
      unfold manual at step
      simp only at step
      split at step
      · rename_i isLast
        simp [DriveTask.callsRunNextTask, isLast] at calls
      · obtain ⟨later, stepped, rfl⟩ := Option.map_eq_some_iff.mp step
        refine ⟨rfl, ?_⟩
        intro later isLater
        cases isLater
  | initialization | modification | stream | synchronization | cancellation | closure => cases step

theorem SamePurpose.mapDrive {f : DriveParams → DriveParams}
    (opinionController : ∀ drive, (f drive).opinionController = drive.opinionController)
    (stopped : ∀ drive, (f drive).replicatorIsStopped = drive.replicatorIsStopped) :
    SamePurpose flatDrive (flatDrive.mapDrive f) :=
  .of_map (fun task => task.keeps_mapDrive opinionController stopped) rfl

theorem SamePurpose.terminate : SamePurpose flatDrive flatDrive.terminate := by
  cases isTask : flatDrive.task with
  | none =>
      refine .of_eq ?_
      rw [FlatDrive.terminate, isTask]
      rfl
  | some task =>
      intro later isLater
      have isNext : flatDrive.terminate.task = some task.terminate := by
        rw [FlatDrive.terminate, isTask]
        rfl
      rw [update?_of_task isNext] at isLater
      rcases task.terminate_cases with ⟨view, other, isView, isOther, terminates⟩ | ⟨-, stillNone, -⟩
      · obtain rfl := Option.some.inj (isOther.symm.trans isLater)
        exact ⟨view, (update?_of_task isTask).trans isView, terminates.purpose.symm⟩
      · cases stillNone.symm.trans isLater

theorem onOpinionReceived_same (anOpinion : ApprovalTransactionInfo) :
    (flatDrive.onOpinionReceived anOpinion).deferredModificationRequests =
        flatDrive.deferredModificationRequests ∧
      SamePurpose flatDrive (flatDrive.onOpinionReceived anOpinion) := by
  have keeps (task : DriveTask) := task.keeps_processedModifyOpinion anOpinion
  cases isTask : flatDrive.task with
  | none =>
      simp only [onOpinionReceived, isTask]
      exact ⟨rfl, .of_eq isTask.symm⟩
  | some task =>
      simp only [onOpinionReceived, isTask]
      split
      · exact ⟨rfl, .of_keeps isTask rfl (keeps task)⟩
      · exact ⟨rfl, .of_keeps isTask rfl (keeps task)⟩

theorem published_same {task : DriveTask} (isTask : flatDrive.task = some task)
    (transaction : PublishedModificationApprovalTransactionInfo) :
    (flatDrive.onApprovalTransactionHasBeenPublished transaction).deferredModificationRequests =
        flatDrive.deferredModificationRequests ∧
      SamePurpose flatDrive (flatDrive.onApprovalTransactionHasBeenPublished transaction) := by
  have samePurpose (next : FlatDrive)
      (isNext : next.task = some (task.onApprovalTxPublished transaction).1) :
      SamePurpose flatDrive next := by
    rcases task.onApprovalTxPublished_cases transaction with
      ⟨view, other, isView, isOther, published⟩ | ⟨-, keeps⟩
    · intro later isLater
      rw [update?_of_task isNext] at isLater
      obtain rfl := Option.some.inj (isOther.symm.trans isLater)
      exact ⟨view, (update?_of_task isTask).trans isView, published.purpose.symm⟩
    · exact .of_keeps isTask isNext keeps
  rw [published_of_some isTask]
  split
  · exact ⟨rfl, samePurpose _ rfl⟩
  · exact ⟨rfl, samePurpose _ rfl⟩

theorem cancelModifyDrive_same (request : ModificationCancelRequest) :
    (flatDrive.cancelModifyDrive request).deferredModificationRequests =
        QueueOp.applyAll DeferredRequest.transactionHash flatDrive.deferredModificationRequests
          (flatDrive.cancelOps (.cancelModifyDrive request)) ∧
      SamePurpose flatDrive (flatDrive.cancelModifyDrive request) := by
  cases isTask : flatDrive.task with
  | none =>
      rw [cancelModifyDrive_of_idle isTask, cancelOps, isTask]
      exact ⟨rfl, .of_eq isTask.symm⟩
  | some task =>
      have responds : task.Responds (task.shouldCancelModify request).1 := by
        rcases task.shouldCancelModify_cases request with
          ⟨keeps, -⟩ | ⟨-, view, later, isView, isLater, interrupts, -⟩
        · exact .keeps keeps
        · exact .interrupts isView isLater interrupts
      rw [cancelModifyDrive_of_task isTask, cancelOps, isTask, Option.any_some]
      split
      · exact ⟨rfl, .of_responds isTask rfl responds⟩
      · exact ⟨rfl, .of_responds isTask rfl responds⟩

theorem manualSynchronize_same {task : DriveTask} (isTask : flatDrive.task = some task)
    (request : SynchronizationRequest) :
    (flatDrive.manualSynchronize request).deferredModificationRequests =
        flatDrive.deferredModificationRequests ∧
      SamePurpose flatDrive (flatDrive.manualSynchronize request) := by
  have responds := task.responds_manualSynchronize
  simp only [manualSynchronize, isTask]
  split
  · exact ⟨rfl, .of_responds isTask rfl responds⟩
  · exact ⟨rfl, .of_responds isTask rfl responds⟩

theorem handle_of_noCall (noCall : flatDrive.nextTaskCall event = none)
    (step : flatDrive.handle event = some after) :
    after.deferredModificationRequests =
        QueueOp.applyAll DeferredRequest.transactionHash flatDrive.deferredModificationRequests
          (event.received.map .receive ++ flatDrive.cancelOps event) ∧
      SamePurpose flatDrive after := by
  cases event with
  | task event =>
      simp only [handle] at step
      split at step
      · rename_i isInternal
        obtain ⟨task, isTask, taken⟩ := Option.bind_eq_some_iff.mp step
        exact taskStep_of_noCall isInternal isTask noCall taken
      · cases step
  | advance =>
      obtain ⟨task, isTask, taken⟩ := Option.bind_eq_some_iff.mp step
      exact advance_of_noCall isTask noCall taken
  | manual event =>
      obtain ⟨task, isTask, taken⟩ := Option.bind_eq_some_iff.mp step
      exact manual_of_noCall isTask noCall taken
  | loaded loaded =>
      simp only [handle] at step
      split at step
      · rename_i task isTask
        split at step
        · obtain rfl := Option.some.inj step
          refine ⟨rfl, ?_⟩
          intro later isLater
          cases isLater
        · cases step
      · cases step
  | opinionReceived anOpinion =>
      obtain rfl := Option.some.inj step
      exact onOpinionReceived_same anOpinion
  | approvalTransactionPublished transaction =>
      obtain ⟨task, isTask⟩ := exists_task_of_noCall noCall rfl
      obtain rfl := Option.some.inj step
      exact published_same isTask transaction
  | approvalTransactionFailed transactionHash =>
      obtain rfl := Option.some.inj step
      exact ⟨rfl, .of_map (·.keeps_onApprovalTxFailed transactionHash) rfl⟩
  | startModifyDrive request =>
      obtain ⟨task, isTask⟩ := exists_task_of_noCall noCall rfl
      obtain rfl := Option.some.inj step
      rw [startModifyDrive_of_task isTask]
      exact ⟨rfl, .of_keeps isTask rfl task.keeps_onRequestQueued⟩
  | startStream request =>
      obtain ⟨task, isTask⟩ := exists_task_of_noCall noCall rfl
      obtain rfl := Option.some.inj step
      rw [startStream_of_task isTask]
      exact ⟨rfl, .of_keeps isTask rfl task.keeps_onRequestQueued⟩
  | cancelModifyDrive request =>
      obtain rfl := Option.some.inj step
      exact cancelModifyDrive_same request
  | startDriveClosing request =>
      obtain ⟨task, isTask⟩ := exists_task_of_noCall noCall rfl
      obtain rfl := Option.some.inj step
      rw [startDriveClosing_of_task isTask]
      exact ⟨rfl, .of_responds isTask rfl task.responds_onDriveClose⟩
  | manualSynchronize request =>
      obtain ⟨task, isTask⟩ := exists_task_of_noCall noCall rfl
      obtain rfl := Option.some.inj step
      exact manualSynchronize_same isTask request
  | initiateManualModifications request =>
      obtain ⟨task, isTask⟩ := exists_task_of_noCall noCall rfl
      obtain rfl := Option.some.inj step
      rw [initiateManualModifications_of_task isTask]
      exact ⟨rfl, .of_keeps isTask rfl task.keeps_onRequestQueued⟩
  | chunkInfoReceived chunkInfo isVerified =>
      obtain rfl := Option.some.inj step
      exact ⟨rfl, .of_map (·.keeps_streamEvent _ rfl) rfl⟩
  | finishStream finishStream =>
      obtain rfl := Option.some.inj step
      exact ⟨rfl, .of_map (·.keeps_streamEvent _ rfl) rfl⟩
  | setReplicators replicatorKeys =>
      obtain rfl := Option.some.inj step
      exact ⟨rfl, .mapDrive (fun _ => rfl) fun _ => rfl⟩
  | setShardDonator replicatorKeys =>
      obtain rfl := Option.some.inj step
      exact ⟨rfl, .mapDrive (fun _ => rfl) fun _ => rfl⟩
  | setMinReplicatorsNumber number =>
      obtain rfl := Option.some.inj step
      exact ⟨rfl, .mapDrive (fun _ => rfl) fun _ => rfl⟩
  | terminate =>
      obtain rfl := Option.some.inj step
      exact ⟨rfl, .terminate⟩

/-! ## The steps of a drive -/

theorem deferred_idleCall (isCall : flatDrive.idleCall event = some call) :
    call.deferredModificationRequests =
        flatDrive.deferredModificationRequests ++ event.received ∧
      flatDrive.cancelOps event = [] := by
  cases event with
  | approvalTransactionPublished | startDriveClosing | manualSynchronize
  | initiateManualModifications =>
      obtain rfl := Option.some.inj isCall
      exact ⟨(List.append_nil _).symm, rfl⟩
  | startModifyDrive | startStream =>
      obtain rfl := Option.some.inj isCall
      exact ⟨rfl, rfl⟩
  | _ => cases isCall

theorem deferred_nextTaskCall (isCall : flatDrive.nextTaskCall event = some call) :
    call.deferredModificationRequests =
        flatDrive.deferredModificationRequests ++ event.received ∧
      flatDrive.cancelOps event = [] := by
  unfold nextTaskCall at isCall
  split at isCall
  · rename_i task isTask
    split at isCall
    · rename_i calls
      obtain rfl := Option.some.inj isCall
      unfold DriveTask.callsRunNextTask at calls
      split at calls
      · exact ⟨(List.append_nil _).symm, rfl⟩
      · exact ⟨(List.append_nil _).symm, rfl⟩
      · exact ⟨(List.append_nil _).symm, rfl⟩
      · exact ⟨(List.append_nil _).symm, rfl⟩
      · exact ⟨(List.append_nil _).symm, rfl⟩
      · exact ⟨(List.append_nil _).symm, rfl⟩
      · cases calls
    · cases isCall
  · exact deferred_idleCall isCall

theorem operatesOn_queue :
    flatDriveSystem.OperatesOn DeferredRequest.transactionHash
      FlatDrive.deferredModificationRequests queueOps := by
  intro flatDrive event after step
  have handled := handle_of_step step
  unfold queueOps
  cases isCall : flatDrive.nextTaskCall event with
  | none =>
      rw [(handle_of_noCall isCall handled).1, Option.map_none, Option.getD_none, List.append_nil]
  | some call =>
      obtain ⟨queue, noCancel⟩ := deferred_nextTaskCall isCall
      obtain rfl := Option.some.inj ((handle_of_nextTaskCall isCall).symm.trans handled)
      rw [noCancel, List.append_nil, QueueOp.applyAll_append, QueueOp.applyAll_receive, ← queue]
      exact deferred_runNextTask call

theorem startedBy_eq (flatDrive : FlatDrive) (event : DriveEvent) :
    flatDrive.startedBy event =
      Transition.started DeferredRequest.transactionHash FlatDrive.deferredModificationRequests
        queueOps flatDrive event := by
  have noneCancelled (queue : List DeferredRequest) :
      QueueOp.startedAll DeferredRequest.transactionHash queue (flatDrive.cancelOps event) = [] := by
    cases event with
    | cancelModifyDrive request =>
        unfold cancelOps
        simp only
        split <;> rfl
    | _ => rfl
  rw [Transition.started, queueOps, QueueOp.startedAll_append, QueueOp.startedAll_append,
    QueueOp.startedAll_receive, noneCancelled, startedBy]
  cases isCall : flatDrive.nextTaskCall event with
  | none => rfl
  | some call =>
      obtain ⟨queue, noCancel⟩ := deferred_nextTaskCall isCall
      rw [noCancel, QueueOp.applyAll_append, QueueOp.applyAll_receive, ← queue]
      exact (startedAll_nextQueueOps call).symm

theorem received_queueOps (flatDrive : FlatDrive) (event : DriveEvent) :
    (flatDrive.queueOps event).flatMap QueueOp.received = event.received := by
  have noneCancelled : (flatDrive.cancelOps event).flatMap QueueOp.received = [] := by
    cases event with
    | cancelModifyDrive request =>
        unfold cancelOps
        simp only
        split <;> rfl
    | _ => rfl
  have noneNext (call : FlatDrive) : call.nextQueueOps.flatMap QueueOp.received = [] := by
    unfold nextQueueOps
    split <;> rfl
  have allReceived (requests : List DeferredRequest) :
      (requests.map (QueueOp.receive (β := Hash256))).flatMap QueueOp.received = requests := by
    induction requests with
    | nil => rfl
    | cons request requests ih => exact congrArg (request :: ·) ih
  rw [queueOps, List.flatMap_append, List.flatMap_append, allReceived, noneCancelled]
  cases flatDrive.nextTaskCall event with
  | none => simp
  | some call => simp [noneNext]

def receivedRequests (events : List DriveEvent) : List DeferredRequest :=
  events.flatMap DriveEvent.received

/-! ## The tasks that are started -/

/-- The task that a step starts: the one it leaves, unless a task goes on that was running
    before. -/
def startedTask? (before : FlatDrive) (event : DriveEvent) (after : FlatDrive) : Option DriveTask :=
  if before.task.all (·.callsRunNextTask event) && !before.drive.replicatorIsStopped then after.task
  else none

/-- The request whose task a step starts. -/
def startedIn (before : FlatDrive) (event : DriveEvent) (after : FlatDrive) :
    List DeferredRequest :=
  ((before.startedTask? event after).bind (·.request?)).toList

/-- The requests whose tasks are started along a run. -/
def startedRequests (flatDrive : FlatDrive) (events : List DriveEvent) : List DeferredRequest :=
  flatDriveSystem.trace (flatDriveSystem.ofStep startedIn) flatDrive events

theorem startedTask?_of_task {task : DriveTask} (isTask : flatDrive.task = some task)
    (goesOn : task.callsRunNextTask event = false) : flatDrive.startedTask? event after = none := by
  simp [startedTask?, isTask, goesOn]

theorem startedTask?_of_call (isCall : flatDrive.nextTaskCall event = some call)
    (going : call.drive.replicatorIsStopped = false) :
    flatDrive.startedTask? event after = after.task := by
  obtain ⟨sameTask, sameDrive, calls⟩ := task_of_nextTaskCall isCall
  have same : flatDrive.drive = call.drive := by rw [drive, drive, sameTask, sameDrive]
  have ends : flatDrive.task.all (·.callsRunNextTask event) = true := by
    cases isTask : flatDrive.task with
    | none => rfl
    | some task => exact calls task isTask
  simp [startedTask?, ends, same, going]

/-- Without a call of `runNextTask` a drive without a task still has none that updates it. -/
theorem startedTask?_of_noCall {view : UpdateView} {task : DriveTask}
    (noCall : flatDrive.nextTaskCall event = none) (step : flatDrive.handle event = some after)
    (isStarted : flatDrive.startedTask? event after = some task)
    (isUpdate : task.update? = some view) : False := by
  cases isTask : flatDrive.task with
  | some running =>
      rw [startedTask?_of_task isTask (callsRunNextTask_of_none isTask noCall)] at isStarted
      cases isStarted
  | none =>
      unfold startedTask? at isStarted
      split at isStarted
      · obtain ⟨earlier, isEarlier, -⟩ := (handle_of_noCall noCall step).2 view
          ((update?_of_task isStarted).trans isUpdate)
        rw [update?, isTask] at isEarlier
        cases isEarlier
      · cases isStarted

/-- The task a step leaves executes the request that was chosen. -/
theorem startedIn_eq (step : flatDriveSystem.step flatDrive event = some after) :
    flatDrive.startedIn event after = flatDrive.startedBy event := by
  have handled := handle_of_step step
  rw [startedIn, startedBy]
  cases isCall : flatDrive.nextTaskCall event with
  | some call =>
      obtain rfl := Option.some.inj ((handle_of_nextTaskCall isCall).symm.trans handled)
      cases stopped : call.drive.replicatorIsStopped with
      | false => rw [startedTask?_of_call isCall stopped, request?_runNextTask stopped, Option.bind_some]
      | true =>
          have same : flatDrive.drive = call.drive := by
            rw [drive, drive, (task_of_nextTaskCall isCall).1, (task_of_nextTaskCall isCall).2.1]
          rw [startedTask?, same, stopped, Option.bind_some, requestToStart,
            nextTask?_of_stopped stopped]
          simp
  | none =>
      cases isStarted : flatDrive.startedTask? event after with
      | none => rfl
      | some task =>
          cases task with
          | modification task => exact (startedTask?_of_noCall isCall handled isStarted rfl).elim
          | stream task => exact (startedTask?_of_noCall isCall handled isStarted rfl).elim
          | initialization | synchronization | cancellation | closure | manualModification => rfl

/-- A step that starts to catch up has chosen to. -/
theorem nextTask?_of_startedTask? {modification : Hash256}
    (step : flatDriveSystem.step flatDrive event = some after)
    (catchesUp : (flatDrive.startedTask? event after).bind (·.catchingUp?) = some modification) :
    ∃ call request, flatDrive.nextTaskCall event = some call ∧
      call.nextTask? = some (.catchingUp request) ∧ request.modifyTransactionHash = modification := by
  have handled := handle_of_step step
  cases isCall : flatDrive.nextTaskCall event with
  | some call =>
      obtain rfl := Option.some.inj ((handle_of_nextTaskCall isCall).symm.trans handled)
      cases stopped : call.drive.replicatorIsStopped with
      | false =>
          rw [startedTask?_of_call isCall stopped] at catchesUp
          obtain ⟨request, isNext⟩ := catchingUp?_runNextTask stopped catchesUp
          exact ⟨call, request, rfl, isNext⟩
      | true =>
          have same : flatDrive.drive = call.drive := by
            rw [drive, drive, (task_of_nextTaskCall isCall).1, (task_of_nextTaskCall isCall).2.1]
          rw [startedTask?, same, stopped] at catchesUp
          simp at catchesUp
  | none =>
      obtain ⟨task, isStarted, isCatchingUp⟩ := Option.bind_eq_some_iff.mp catchesUp
      cases task with
      | synchronization task => exact (startedTask?_of_noCall isCall handled isStarted rfl).elim
      | initialization | modification | stream | cancellation | closure | manualModification =>
          cases isCatchingUp

/-- What a run starts and what it leaves in the queue was queued or received, in this order. -/
theorem started_append_deferred {events : List DriveEvent}
    (run : flatDriveSystem.exec flatDrive events = some after) :
    (flatDrive.startedRequests events ++ after.deferredModificationRequests).Sublist
      (flatDrive.deferredModificationRequests ++ receivedRequests events) := by
  have ordered := operatesOn_queue.started_append_queue run
  rw [Transition.trace_event received_queueOps run] at ordered
  have same : flatDrive.startedRequests events = flatDriveSystem.trace
      (Transition.started DeferredRequest.transactionHash
        FlatDrive.deferredModificationRequests queueOps) flatDrive events := by
    refine Transition.trace_congr (fun before event next step => ?_) flatDrive events
    rw [Transition.ofStep_eq step, startedIn_eq step, startedBy_eq]
  rw [same]
  exact ordered

/-- The request of a task that runs has been started by the step, or was executed before. -/
theorem request?_of_step {request : DeferredRequest}
    (step : flatDriveSystem.step flatDrive event = some after)
    (executes : after.task.bind (·.request?) = some request) :
    flatDrive.startedIn event after = [request] ∨
      flatDrive.startedIn event after = [] ∧ flatDrive.task.bind (·.request?) = some request := by
  have handled := handle_of_step step
  cases isCall : flatDrive.nextTaskCall event with
  | some call =>
      obtain rfl := Option.some.inj ((handle_of_nextTaskCall isCall).symm.trans handled)
      obtain ⟨sameTask, sameDrive, -⟩ := task_of_nextTaskCall isCall
      cases stopped : call.drive.replicatorIsStopped with
      | false =>
          left
          rw [startedIn, startedTask?_of_call isCall stopped, executes]
          rfl
      | true =>
          right
          have same : flatDrive.drive = call.drive := by rw [drive, drive, sameTask, sameDrive]
          rw [runNextTask_of_stopped stopped, sameTask] at executes
          refine ⟨?_, executes⟩
          rw [startedIn, startedTask?, same, stopped]
          simp
  | none =>
      right
      obtain ⟨view, isView, serves⟩ := serves_iff.mpr executes
      obtain ⟨earlier, isEarlier, same⟩ := (handle_of_noCall isCall handled).2 view isView
      refine ⟨?_, serves_iff.mp ⟨earlier, isEarlier, same.trans serves⟩⟩
      cases isTask : flatDrive.task with
      | none =>
          rw [update?, isTask] at isEarlier
          cases isEarlier
      | some task =>
          rw [startedIn, startedTask?_of_task isTask (callsRunNextTask_of_none isTask isCall)]
          rfl

/-- Along a run the request that is executed is the one that was started last. -/
theorem getLast?_startedRequests {events : List DriveEvent} {request : DeferredRequest}
    (run : flatDriveSystem.exec flatDrive events = some after)
    (executes : after.task.bind (·.request?) = some request) :
    (flatDrive.startedRequests events).getLast? = some request ∨
      flatDrive.startedRequests events = [] ∧ flatDrive.task.bind (·.request?) = some request := by
  induction events generalizing flatDrive with
  | nil =>
      obtain rfl : flatDrive = after := by simpa using run
      exact .inr ⟨rfl, executes⟩
  | cons event events ih =>
      obtain ⟨next, step, rest⟩ := (Transition.exec_cons_iff _).mp run
      rw [startedRequests, Transition.trace_cons step, Transition.ofStep_eq step, ← startedRequests]
      rcases ih rest with isLast | ⟨nothing, before⟩
      · left
        rw [List.getLast?_append, isLast]
        rfl
      · rw [nothing, List.append_nil]
        rcases request?_of_step step before with started | earlier
        · left
          rw [started]
          rfl
        · exact .inr earlier

/-! ## The order of the requests -/

/-- A request that is cancelled after it was received is not started any more. -/
def LeavesCancelled (start : FlatDrive) (events : List DriveEvent) : Prop :=
  ∀ earlier request later after, events = earlier ++ .cancelModifyDrive request :: later →
    flatDriveSystem.exec start (earlier ++ [.cancelModifyDrive request]) = some after →
    request.modifyTransactionHash ∈
      (receivedRequests earlier).map DeferredRequest.transactionHash →
    request.modifyTransactionHash ∉
      (after.startedRequests later).map DeferredRequest.transactionHash

/-- Where a task is started that catches up with a modification that is queued, the requests up
    to it are dropped and not started any more, and the others stay as they are. -/
def SkipsCaughtUp (start : FlatDrive) (events : List DriveEvent) : Prop :=
  ∀ earlier event later before after, events = earlier ++ event :: later →
    flatDriveSystem.exec start earlier = some before →
    flatDriveSystem.step before event = some after →
    ∀ modification, (before.startedTask? event after).bind (·.catchingUp?) = some modification →
      ∀ front queued back,
        before.deferredModificationRequests ++ event.received = front ++ queued :: back →
        queued.transactionHash = modification →
        after.deferredModificationRequests = back ∧
          ∀ skipped ∈ front ++ [queued], skipped ∉ after.startedRequests later

theorem isEmpty_of_isBroken (broken : flatDrive.isBroken = true) {events : List DriveEvent}
    {last : FlatDrive} (run : flatDriveSystem.exec flatDrive events = some last) : events = [] := by
  cases events with
  | nil => rfl
  | cons event events =>
      obtain ⟨next, step, -⟩ := (Transition.exec_cons_iff _).mp run
      simp [flatDriveSystem, broken] at step

theorem notMem_of_cancelled {request : ModificationCancelRequest}
    (distinct : flatDrive.deferredHashes.Nodup)
    (unbroken : (flatDrive.cancelModifyDrive request).isBroken = false) :
    request.modifyTransactionHash ∉ (flatDrive.cancelModifyDrive request).deferredHashes := by
  have erased : request.modifyTransactionHash ∉ (flatDrive.deferredModificationRequests.eraseP
      (·.transactionHash = request.modifyTransactionHash)).map DeferredRequest.transactionHash :=
    List.notMem_eraseP distinct
  cases isTask : flatDrive.task with
  | none =>
      rw [cancelModifyDrive_of_idle isTask]
      exact erased
  | some task =>
      rw [cancelModifyDrive_of_task isTask] at unbroken ⊢
      split at unbroken
      · rename_i accepts
        rw [if_pos accepts]
        cases queue : flatDrive.deferredModificationRequests with
        | nil => simp [deferredHashes]
        | cons first others => simp [isBroken, queue] at unbroken
      · rename_i refuses
        rw [if_neg refuses]
        exact erased

theorem deferred_sublist_received {events : List DriveEvent} {start after : FlatDrive}
    (nothingQueued : start.deferredModificationRequests = [])
    (run : flatDriveSystem.exec start events = some after) :
    after.deferredModificationRequests.Sublist (receivedRequests events) := by
  have ordered := started_append_deferred run
  rw [nothingQueued, List.nil_append] at ordered
  exact (List.sublist_append_right _ _).trans ordered

/-- What is started has been queued before or is received. -/
theorem started_subset {events : List DriveEvent} {start after : FlatDrive}
    (run : flatDriveSystem.exec start events = some after) :
    start.startedRequests events ⊆ start.deferredModificationRequests ++ receivedRequests events :=
  ((List.sublist_append_left _ _).trans (started_append_deferred run)).subset

theorem leavesCancelled {events : List DriveEvent} {start last : FlatDrive}
    (nothingQueued : start.deferredModificationRequests = [])
    (run : flatDriveSystem.exec start events = some last)
    (distinct : ((receivedRequests events).map DeferredRequest.transactionHash).Nodup) :
    start.LeavesCancelled events := by
  intro earlier request later after split runHere received isStarted
  obtain ⟨before, runBefore, step⟩ := (Transition.exec_snoc _).mp runHere
  have runLater : flatDriveSystem.exec after later = some last := by
    rw [split, List.append_cons] at run
    exact Transition.exec_rest run runHere
  have hashes : (receivedRequests events).map DeferredRequest.transactionHash =
      (receivedRequests earlier).map DeferredRequest.transactionHash ++
        (receivedRequests later).map DeferredRequest.transactionHash := by
    simp [split, receivedRequests, DriveEvent.received]
  rw [hashes] at distinct
  have distinctBefore : before.deferredHashes.Nodup :=
    ((deferred_sublist_received nothingQueued runBefore).map _).nodup
      (List.nodup_append.mp distinct).1
  have isAfter := handle_of_step step
  obtain rfl := Option.some.inj isAfter
  cases broken : (before.cancelModifyDrive request).isBroken with
  | true =>
      obtain rfl := isEmpty_of_isBroken broken runLater
      cases isStarted
  | false =>
      have member := List.map_subset DeferredRequest.transactionHash (started_subset runLater)
        isStarted
      rw [List.map_append] at member
      rcases List.mem_append.mp member with queued | receivedLater
      · exact notMem_of_cancelled distinctBefore broken queued
      · exact (List.nodup_append.mp distinct).2.2 _ received _ receivedLater rfl

theorem skipsCaughtUp {events : List DriveEvent} {start last : FlatDrive}
    (nothingQueued : start.deferredModificationRequests = [])
    (run : flatDriveSystem.exec start events = some last)
    (distinct : ((receivedRequests events).map DeferredRequest.transactionHash).Nodup) :
    start.SkipsCaughtUp events := by
  intro earlier event later before after split runBefore step modification catchesUp front queued
    back queueBefore isKey
  obtain ⟨call, request, isCall, isNext, rfl⟩ := nextTask?_of_startedTask? step catchesUp
  have queue : call.deferredModificationRequests = front ++ queued :: back :=
    (deferred_nextTaskCall isCall).1.trans queueBefore
  have runLater : flatDriveSystem.exec after later = some last := by
    rw [split, List.append_cons] at run
    exact Transition.exec_rest run ((Transition.exec_snoc _).mpr ⟨before, runBefore, step⟩)
  -- the queue when `runNextTask` is called, and what is received later
  have known : (call.deferredModificationRequests ++ receivedRequests later).Sublist
      (receivedRequests events) := by
    have all : receivedRequests events =
        receivedRequests earlier ++ event.received ++ receivedRequests later := by
      simp [split, receivedRequests]
    rw [all, (deferred_nextTaskCall isCall).1]
    exact ((deferred_sublist_received nothingQueued runBefore).append_right _).append_right _
  have distinctCall : ((call.deferredModificationRequests ++ receivedRequests later).map
      DeferredRequest.transactionHash).Nodup := (known.map _).nodup distinct
  rw [queue, List.append_assoc, List.cons_append, List.map_append, List.map_cons] at distinctCall
  obtain ⟨-, -, apart⟩ := List.nodup_append.mp distinctCall
  have first : request.modifyTransactionHash ∉ front.map DeferredRequest.transactionHash := by
    intro earlierKey
    exact apart _ earlierKey _ (List.mem_cons_self) isKey.symm
  have isAfter := Option.some.inj ((handle_of_nextTaskCall isCall).symm.trans (handle_of_step step))
  have left : after.deferredModificationRequests = back := by
    rw [← isAfter, runNextTask_of_nextTask? isNext]
    refine (deferred_dropDeferred _).trans ?_
    rw [idle]
    simp only
    rw [queue]
    exact List.past_split first isKey
  refine ⟨left, ?_⟩
  intro skipped isSkipped isStarted
  have member := started_subset runLater isStarted
  rw [left] at member
  have distinctSkipped : ((front ++ [queued]) ++ (back ++ receivedRequests later)).Nodup := by
    have regroup : (front ++ [queued]) ++ (back ++ receivedRequests later) =
        call.deferredModificationRequests ++ receivedRequests later := by
      simp [queue]
    rw [regroup]
    exact (known.nodup (List.Nodup.of_map _ distinct))
  exact (List.nodup_append.mp distinctSkipped).2.2 _ isSkipped _ member rfl

def queuedRequest (transactionHash : Hash256) : ModificationRequest :=
  { ModifyDriveTask.sampleRequest with transactionHash }

/-- A modification is started and four requests are queued. One of these is cancelled, and
    another one is approved, which the drive catches up with. -/
def untilCatchingUp : List DriveEvent :=
  untilInitialized ++
    [.startModifyDrive ModifyDriveTask.sampleRequest,
      .startModifyDrive (queuedRequest 61),
      .startStream { streamId := 62, streamerKey := 102, folder := "stream", maxSizeBytes := 10 },
      .startModifyDrive (queuedRequest 63), .startModifyDrive (queuedRequest 64),
      .cancelModifyDrive ⟨63⟩,
      .approvalTransactionPublished
        { sampleApproval with modifyTransactionHash := 62, rootHash := 7 },
      .task (.torrentsRemoved 0), .task (.runBackgroundJob (.fileSystem .done)),
      .task .runSessionJob]

/-- The drive has caught up and starts the request that is left. -/
def untilNextStart : List DriveEvent :=
  [.task (.runBackgroundJob (.sizes 1 3 1)), .task .runSessionJob] ++
    [.task (.runBackgroundJob (.fileSystem .done)), .task .runSessionJob] ++
    [.task (.runBackgroundJob (.fileSystem .done)), .task .runSessionJob,
      .task (.torrentsRemoved 0)] ++
    (List.replicate 3
      [.task (.runBackgroundJob (.fileSystem .done)), .task .runSessionJob]).flatten

end FlatDrive

end SiriusDrive
