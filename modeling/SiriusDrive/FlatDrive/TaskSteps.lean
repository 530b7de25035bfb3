import Mathlib.Tactic.SplitIfs
import SiriusDrive.FlatDrive

/-! # What the events of a drive do to its task

An event is passed on to the running task, or it ends the task and the next one is
started. The invariants of the tasks are carried through the runs of a drive by these
cases.
-/

namespace SiriusDrive

def DriveEvent.taskEvent? : DriveEvent → Option TaskEvent
  | .task event => some event
  | .opinionReceived anOpinion => some (.opinionReceived anOpinion)
  | .approvalTransactionPublished transaction => some (.approvalTxPublished transaction)
  | .approvalTransactionFailed transactionHash => some (.approvalTxFailed transactionHash)
  | .cancelModifyDrive request => some (.cancelModify request)
  | .startDriveClosing _ => some .driveClose
  | .manualSynchronize _ => some .manualSynchronize
  | .chunkInfoReceived chunkInfo isVerified => some (.chunkInfoReceived chunkInfo isVerified)
  | .finishStream request => some (.finishStream request)
  | .setReplicators replicatorKeys => some (.setReplicators replicatorKeys)
  | .setMinReplicatorsNumber number => some (.setMinReplicatorsNumber number)
  | .terminate => some .terminate
  | _ => none

/-- The drives have the same files and the same records. -/
structure DriveParams.SameContent (before after : DriveParams) : Prop where
  opinionController : after.opinionController = before.opinionController
  torrentHandleMap : after.torrentHandleMap = before.torrentHandleMap
  fsTree : after.fsTree = before.fsTree
  lastApprovedModification : after.lastApprovedModification = before.lastApprovedModification
  restartValues : after.restartValues = before.restartValues

theorem DriveParams.SameContent.refl (drive : DriveParams) : drive.SameContent drive :=
  ⟨rfl, rfl, rfl, rfl, rfl⟩

namespace DriveTask

/-- The task calls `runNextTask` when it is given the event. -/
def callsRunNextTask : DriveTask → DriveEvent → Bool
  | .modification task, .task .runSessionJob => task.sessionJobs.head? = some .runNextTask
  | .stream task, .task .runSessionJob => task.sessionJobs.head? = some .runNextTask
  | .synchronization task, .task .runSessionJob => task.sessionJobs.head? = some .runNextTask
  | .initialization task, .advance => task.phase = .runNextTask
  | .cancellation task, .advance => task.phase = .runNextTask
  | .manualModification task, .manual .advanceFinishing => task.finishing = some .runNextTask
  | _, _ => false

/-- What an event does to the running task if it is not the last one of the task. -/
inductive Reacts (event : DriveEvent) : DriveTask → DriveTask → Prop
  | modification {task after : ModifyDriveTask} {taskEvent : TaskEvent} (running : task.fault = none)
      (isEvent : event.taskEvent? = some taskEvent) (handled : task.handle taskEvent = some after) :
      Reacts event (.modification task) (.modification after)
  | stream {task after : StreamTask} {taskEvent : TaskEvent} (running : task.fault = none)
      (isEvent : event.taskEvent? = some taskEvent) (handled : task.handle taskEvent = some after) :
      Reacts event (.stream task) (.stream after)
  | synchronization {task after : SynchronizationTask} {taskEvent : TaskEvent} (running : task.fault = none)
      (isEvent : event.taskEvent? = some taskEvent) (handled : task.handle taskEvent = some after) :
      Reacts event (.synchronization task) (.synchronization after)
  | setShardDonator (task : DriveTask) (replicatorKeys : List ReplicatorKey) :
      Reacts event task
        (task.mapDrive fun drive => { drive with modifyDonatorShard := replicatorKeys })
  | loaded {task : InitializeDriveTask} (isFirst : task.phase = .initializeDrive)
      (loaded : LoadedDrive) :
      Reacts event (.initialization task) (.initialization (task.initializeDrive loaded))
  | initialization {task after : InitializeDriveTask}
      (phase : after.phase = .initializeDrive ↔ task.phase = .initializeDrive)
      (same : task.drive.SameContent after.drive) :
      Reacts event (.initialization task) (.initialization after)
  | cancels (task : CancelModificationDriveTask) :
      Reacts event (.cancellation task) (.cancellation task.advance)
  | cancellation {task after : CancelModificationDriveTask} (phase : after.phase = task.phase)
      (same : task.drive.SameContent after.drive) :
      Reacts event (.cancellation task) (.cancellation after)
  | closure (task after : CloseDriveDriveTask) : Reacts event (.closure task) (.closure after)
  | manual {task after : ManualModificationsTask} {manualEvent : ManualEvent}
      (isEvent : event = .manual manualEvent) (handled : task.handle manualEvent = some after) :
      Reacts event (.manualModification task) (.manualModification after)
  | manualModification (task : ManualModificationsTask) {drive : DriveParams}
      (same : task.drive.SameContent drive) :
      Reacts event (.manualModification task) (.manualModification { task with drive })
  | terminates (task : ManualModificationsTask) {drive : DriveParams}
      (same : task.drive.SameContent drive) :
      Reacts event (.manualModification task) (.manualModification { task with drive }.terminate)
  | same (task : DriveTask) : Reacts event task task

/-- The tasks that `runNextTask` starts. -/
inductive IsStarted (drive : DriveParams) : DriveTask → Prop
  | closure (request : DriveClosureRequest) : IsStarted drive (.closure { drive, request })
  | cancellation (request : ModificationCancelRequest) :
      IsStarted drive (.cancellation (.start request drive))
  /-- The data of the modifications that are skipped counts as approved. -/
  | catchingUp (request : CatchingUpRequest) (approvedExpectedCumulativeDownload : Nat) :
      IsStarted drive (.synchronization (SynchronizationTask.createCatchingUp request
        { drive with
          opinionController :=
            { drive.opinionController with approvedExpectedCumulativeDownload } }).run)
  | synchronization (request : SynchronizationRequest) :
      IsStarted drive (.synchronization
        (SynchronizationTask.createManualSynchronization request drive).run)
  | modification (request : ModificationRequest) (opinions : ReceivedOpinions)
      (actionListFile : Option ActionListFile) :
      IsStarted drive (.modification (.start request opinions drive actionListFile))
  | stream (request : StreamRequest) : IsStarted drive (.stream (.create request drive))
  | manualModification (request : InitiateModificationsRequest) :
      IsStarted drive (.manualModification (.start request drive))

end DriveTask

namespace FlatDrive

open DriveParams (SameContent)

variable {flatDrive after call : FlatDrive} {event : DriveEvent}

/-! ## The calls of `runNextTask` -/

/-- The drive in which an event calls `runNextTask` while no task is running. -/
def idleCall (flatDrive : FlatDrive) : DriveEvent → Option FlatDrive
  | .approvalTransactionPublished transaction =>
      some { flatDrive with
        catchingUpRequest := some ⟨transaction.rootHash, transaction.modifyTransactionHash⟩ }
  | .startModifyDrive request =>
      some { flatDrive with
        deferredModificationRequests := flatDrive.deferredModificationRequests ++
          [.modification request] }
  | .startStream request =>
      some { flatDrive with
        deferredModificationRequests := flatDrive.deferredModificationRequests ++
          [.stream request] }
  | .startDriveClosing request => some { flatDrive with closeDriveRequest := some request }
  | .manualSynchronize request =>
      some { flatDrive with
        catchingUpRequest := none
        synchronizationRequest := some request }
  | .initiateManualModifications request =>
      some { flatDrive with deferredManualModificationRequest := some request }
  | _ => none

/-- The drive in which an event calls `runNextTask`, if it does. -/
def nextTaskCall (flatDrive : FlatDrive) (event : DriveEvent) : Option FlatDrive :=
  match flatDrive.task with
  | some task => if task.callsRunNextTask event then some flatDrive else none
  | none => flatDrive.idleCall event

theorem handle_of_idleCall (isIdle : flatDrive.task = none)
    (isCall : flatDrive.idleCall event = some call) :
    flatDrive.handle event = some call.runNextTask := by
  obtain ⟨idleDrive, task⟩ := flatDrive
  obtain rfl : task = none := isIdle
  cases event with
  | approvalTransactionPublished | startModifyDrive | startStream | startDriveClosing
  | manualSynchronize | initiateManualModifications =>
      obtain rfl := Option.some.inj isCall
      rfl
  | _ => cases isCall

theorem handle_of_callsRunNextTask {task : DriveTask} (isTask : flatDrive.task = some task)
    (calls : task.callsRunNextTask event = true) :
    flatDrive.handle event = some flatDrive.runNextTask := by
  unfold DriveTask.callsRunNextTask at calls
  split at calls
  · have isHead := of_decide_eq_true calls
    simp [handle, isTask, TaskEvent.isInternal, taskStep, isHead]
  · have isHead := of_decide_eq_true calls
    simp [handle, isTask, TaskEvent.isInternal, taskStep, isHead]
  · have isHead := of_decide_eq_true calls
    simp [handle, isTask, TaskEvent.isInternal, taskStep, isHead]
  · have isLast := of_decide_eq_true calls
    simp [handle, isTask, advance, isLast]
  · have isLast := of_decide_eq_true calls
    simp [handle, isTask, advance, isLast]
  · have isLast := of_decide_eq_true calls
    simp [handle, isTask, manual, isLast]
  · cases calls

theorem handle_of_nextTaskCall (isCall : flatDrive.nextTaskCall event = some call) :
    flatDrive.handle event = some call.runNextTask := by
  unfold nextTaskCall at isCall
  split at isCall
  · rename_i task isTask
    split at isCall
    · rename_i calls
      obtain rfl := Option.some.inj isCall
      exact handle_of_callsRunNextTask isTask calls
    · cases isCall
  · rename_i isIdle
    exact handle_of_idleCall isIdle isCall

theorem callsRunNextTask_of_none {task : DriveTask} (isTask : flatDrive.task = some task)
    (noCall : flatDrive.nextTaskCall event = none) : task.callsRunNextTask event = false := by
  unfold nextTaskCall at noCall
  simp only [isTask] at noCall
  split at noCall
  · cases noCall
  · rename_i calls
    simpa using calls

/-- The call is made by the running task at its end, or while no task is running. -/
theorem task_of_nextTaskCall (isCall : flatDrive.nextTaskCall event = some call) :
    call.task = flatDrive.task ∧ call.idleDrive = flatDrive.idleDrive ∧
      ∀ task, flatDrive.task = some task → task.callsRunNextTask event = true := by
  unfold nextTaskCall at isCall
  split at isCall
  · rename_i task isTask
    split at isCall
    · rename_i calls
      obtain rfl := Option.some.inj isCall
      refine ⟨rfl, rfl, ?_⟩
      intro other isOther
      obtain rfl := Option.some.inj (isTask.symm.trans isOther)
      exact calls
    · cases isCall
  · rename_i isIdle
    have noTask : ∀ task, flatDrive.task = some task → task.callsRunNextTask event = true := by
      intro task isTask
      cases isIdle.symm.trans isTask
    cases event with
    | approvalTransactionPublished | startModifyDrive | startStream | startDriveClosing
    | manualSynchronize | initiateManualModifications =>
        obtain rfl := Option.some.inj isCall
        exact ⟨rfl, rfl, noTask⟩
    | _ => cases isCall

/-! ## The next task -/

theorem increases_foldl (controller : ModifyOpinionController) (requests : List DeferredRequest) :
    ∃ approvedExpectedCumulativeDownload,
      requests.foldl (fun controller request =>
          controller.increaseApprovedExpectedCumulativeDownload request.maxDataSize) controller =
        { controller with approvedExpectedCumulativeDownload } := by
  induction requests generalizing controller with
  | nil => exact ⟨controller.approvedExpectedCumulativeDownload, rfl⟩
  | cons request requests ih =>
      obtain ⟨expected, increased⟩ :=
        ih (controller.increaseApprovedExpectedCumulativeDownload request.maxDataSize)
      exact ⟨expected, increased⟩

theorem isStarted_runCatchingUpTask (call : FlatDrive) (request : CatchingUpRequest) :
    ∃ next, (call.runCatchingUpTask request).task = some next ∧ next.IsStarted call.idleDrive := by
  refine ⟨_, rfl, ?_⟩
  unfold dropDeferred
  split
  · rename_i index _
    obtain ⟨expected, increased⟩ := increases_foldl call.idleDrive.opinionController
      (call.deferredModificationRequests.take (index + 1))
    simp only [increased]
    exact .catchingUp request expected
  · exact .catchingUp request call.idleDrive.opinionController.approvedExpectedCumulativeDownload

theorem runFirstRequest_cases (isIdle : call.task = none) :
    (∃ next, call.runFirstRequest.task = some next ∧ next.IsStarted call.idleDrive) ∨
      (call.runFirstRequest.task = none ∧ call.runFirstRequest.idleDrive = call.idleDrive) := by
  unfold runFirstRequest
  split
  · exact .inl ⟨_, rfl, .closure _⟩
  · exact .inl ⟨_, rfl, .cancellation _⟩
  · exact .inl (call.isStarted_runCatchingUpTask _)
  · exact .inl ⟨_, rfl, .synchronization _⟩
  · rename_i request _ _ _ _ _ _
    cases request with
    | modification request => exact .inl ⟨_, rfl, .modification _ _ _⟩
    | stream request => exact .inl ⟨_, rfl, .stream _⟩
  · exact .inl ⟨_, rfl, .manualModification _⟩
  · exact .inr ⟨isIdle, rfl⟩

/-! ## The reactions of the running task -/

theorem published_of_some {task : DriveTask} (isTask : flatDrive.task = some task)
    (transaction : PublishedModificationApprovalTransactionInfo) :
    flatDrive.onApprovalTransactionHasBeenPublished transaction =
      if (task.onApprovalTxPublished transaction).2 then
        { flatDrive with
          task := some (task.onApprovalTxPublished transaction).1
          catchingUpRequest := some ⟨transaction.rootHash, transaction.modifyTransactionHash⟩ }
      else { flatDrive with task := some (task.onApprovalTxPublished transaction).1 } := by
  simp only [onApprovalTransactionHasBeenPublished, isTask]

theorem cancelModifyDrive_of_idle (isIdle : flatDrive.task = none)
    (request : ModificationCancelRequest) :
    flatDrive.cancelModifyDrive request =
      { flatDrive with
        deferredModificationRequests := flatDrive.deferredModificationRequests.eraseP
          (·.transactionHash = request.modifyTransactionHash) } := by
  simp only [cancelModifyDrive, isIdle, Bool.false_eq_true, if_false]

theorem cancelModifyDrive_of_task {task : DriveTask} (isTask : flatDrive.task = some task)
    (request : ModificationCancelRequest) :
    flatDrive.cancelModifyDrive request =
      if (task.shouldCancelModify request).2 then
        { flatDrive with
          task := some (task.shouldCancelModify request).1
          modificationCancelRequest := some request
          movedRequestIsRead := !flatDrive.deferredModificationRequests.isEmpty }
      else
        { flatDrive with
          task := some (task.shouldCancelModify request).1
          deferredModificationRequests := flatDrive.deferredModificationRequests.eraseP
            (·.transactionHash = request.modifyTransactionHash) } := by
  simp only [cancelModifyDrive, isTask]

end FlatDrive

namespace DriveTask

open DriveParams (SameContent)

variable (task : DriveTask)

theorem reacts_onRequestQueued (event : DriveEvent) : Reacts event task task.onRequestQueued := by
  cases task with
  | manualModification task => exact .terminates task (.refl _)
  | initialization | modification | stream | synchronization | cancellation | closure =>
      exact .same _

theorem reacts_onApprovalTxPublished (running : task.fault = none)
    (transaction : PublishedModificationApprovalTransactionInfo) :
    Reacts (.approvalTransactionPublished transaction) task
      (task.onApprovalTxPublished transaction).1 := by
  cases task with
  | modification task => exact .modification running rfl rfl
  | stream task => exact .stream running rfl rfl
  | synchronization task => exact .synchronization running rfl rfl
  | manualModification task => exact .terminates task (.refl _)
  | initialization | cancellation | closure => exact .same _

theorem reacts_onApprovalTxFailed (running : task.fault = none) (transactionHash : Hash256) :
    Reacts (.approvalTransactionFailed transactionHash) task
      (task.onApprovalTxFailed transactionHash) := by
  cases task with
  | modification task => exact .modification running rfl rfl
  | initialization | stream | synchronization | cancellation | closure | manualModification =>
      exact .same _

theorem reacts_processedModifyOpinion (running : task.fault = none)
    (anOpinion : ApprovalTransactionInfo) :
    Reacts (.opinionReceived anOpinion) task (task.processedModifyOpinion anOpinion).1 := by
  cases task with
  | modification task => exact .modification running rfl rfl
  | stream task => exact .stream running rfl rfl
  | initialization | synchronization | cancellation | closure | manualModification =>
      exact .same _

theorem reacts_shouldCancelModify (running : task.fault = none)
    (request : ModificationCancelRequest) :
    Reacts (.cancelModifyDrive request) task (task.shouldCancelModify request).1 := by
  cases task with
  | modification task => exact .modification running rfl rfl
  | stream task => exact .stream running rfl rfl
  | initialization task =>
      simp only [shouldCancelModify, InitializeDriveTask.shouldCancelModify]
      split
      · exact .same _
      · exact .initialization Iff.rfl (.refl _)
  | synchronization | cancellation | closure | manualModification => exact .same _

theorem reacts_onDriveClose (running : task.fault = none) (request : DriveClosureRequest) :
    Reacts (.startDriveClosing request) task task.onDriveClose := by
  cases task with
  | modification task => exact .modification running rfl rfl
  | stream task => exact .stream running rfl rfl
  | synchronization task => exact .synchronization running rfl rfl
  | manualModification task => exact .terminates task (.refl _)
  | initialization | cancellation | closure => exact .same _

theorem reacts_manualSynchronize (running : task.fault = none) (request : SynchronizationRequest) :
    Reacts (.manualSynchronize request) task task.manualSynchronize.1 := by
  cases task with
  | modification task => exact .modification running rfl rfl
  | stream task => exact .stream running rfl rfl
  | synchronization task => exact .synchronization running rfl rfl
  | manualModification task => exact .terminates task (.refl _)
  | initialization | cancellation | closure => exact .same _

theorem reacts_streamEvent (running : task.fault = none) {event : DriveEvent} {taskEvent : TaskEvent}
    (isEvent : event.taskEvent? = some taskEvent) : Reacts event task (task.streamEvent taskEvent) := by
  cases task with
  | stream task =>
      cases handled : task.handle taskEvent with
      | some after =>
          simp only [streamEvent, handled, Option.getD_some]
          exact .stream running isEvent handled
      | none =>
          simp only [streamEvent, handled, Option.getD_none]
          exact .same _
  | initialization | modification | synchronization | cancellation | closure
  | manualModification => exact .same _

theorem reacts_mapDrive (running : task.fault = none) {event : DriveEvent} {taskEvent : TaskEvent}
    {f : DriveParams → DriveParams}
    (isEvent : event.taskEvent? = some taskEvent) (same : ∀ drive : DriveParams, drive.SameContent (f drive))
    (modification : ∀ task : ModifyDriveTask, task.handle taskEvent =
      some (task.base fun base => { base with drive := f base.drive }))
    (stream : ∀ task : StreamTask, task.handle taskEvent =
      some (task.base fun base => { base with drive := f base.drive }))
    (synchronization : ∀ task : SynchronizationTask, task.handle taskEvent =
      some (task.base fun base => { base with drive := f base.drive })) :
    Reacts event task (task.mapDrive f) := by
  cases task with
  | modification task => exact .modification running isEvent (modification task)
  | stream task => exact .stream running isEvent (stream task)
  | synchronization task => exact .synchronization running isEvent (synchronization task)
  | initialization task => exact .initialization Iff.rfl (same _)
  | cancellation task => exact .cancellation rfl (same _)
  | closure task => exact .closure _ _
  | manualModification task => exact .manualModification task (same _)

theorem reacts_terminate (running : task.fault = none) : Reacts .terminate task task.terminate := by
  have stops (drive : DriveParams) : drive.SameContent { drive with replicatorIsStopped := true } :=
    ⟨rfl, rfl, rfl, rfl, rfl⟩
  cases task with
  | modification task => exact .modification running rfl rfl
  | stream task => exact .stream running rfl rfl
  | synchronization task => exact .synchronization running rfl rfl
  | initialization task => exact .initialization Iff.rfl (stops _)
  | cancellation task => exact .cancellation rfl (stops _)
  | closure task => exact .closure _ _
  | manualModification task => exact .terminates task (stops _)

end DriveTask

namespace FlatDrive

open DriveParams (SameContent)

variable {flatDrive after call : FlatDrive} {event : DriveEvent}

/-! ## The steps of a drive -/

inductive TaskStep (event : DriveEvent) (before after : FlatDrive) : Prop
  | idles (isIdle : before.task = none) (stillIdle : after.task = none)
      (same : before.idleDrive.SameContent after.idleDrive)
  | reacts {task next : DriveTask} (isTask : before.task = some task)
      (isNext : after.task = some next) (reacts : task.Reacts event next)
  | starts {next : DriveTask}
      (ends : ∀ task, before.task = some task → task.callsRunNextTask event = true)
      (isNext : after.task = some next) (started : next.IsStarted before.drive)
  | ends (ends : ∀ task, before.task = some task → task.callsRunNextTask event = true)
      (noTask : after.task = none) (same : after.idleDrive = before.drive)

theorem TaskStep.of_map {f : DriveTask → DriveTask}
    (reacts : ∀ task : DriveTask, flatDrive.task = some task → task.Reacts event (f task))
    (isMap : after.task = flatDrive.task.map f)
    (same : flatDrive.idleDrive.SameContent after.idleDrive) : TaskStep event flatDrive after := by
  cases isTask : flatDrive.task with
  | none =>
      refine .idles isTask ?_ same
      rw [isMap, isTask, Option.map_none]
  | some task =>
      refine .reacts isTask ?_ (reacts task isTask)
      rw [isMap, isTask, Option.map_some]

/-- A call of `runNextTask` at the end of a task, or while no task is running. -/
theorem taskStep_of_nextTaskCall (isCall : flatDrive.nextTaskCall event = some call) :
    TaskStep event flatDrive call.runNextTask := by
  obtain ⟨sameTask, sameDrive, ends⟩ := task_of_nextTaskCall isCall
  have isDrive : call.drive = flatDrive.drive := by
    simp only [FlatDrive.drive, sameTask, sameDrive]
  unfold runNextTask
  split
  · cases isTask : flatDrive.task with
    | none => exact .idles isTask (sameTask.trans isTask) (sameDrive ▸ .refl _)
    | some task => exact .reacts isTask (sameTask.trans isTask) (.same task)
  · rw [isDrive]
    rcases @runFirstRequest_cases { call with idleDrive := flatDrive.drive, task := none } rfl with
      ⟨next, isNext, started⟩ | ⟨noTask, same⟩
    · exact .starts ends isNext started
    · exact .ends ends noTask same

/-- The cancellations that are left to the end of the initialization are answered by its
    task, which goes on. -/
theorem task_cancelAll (requests : List ModificationCancelRequest) {task : InitializeDriveTask}
    (isTask : flatDrive.task = some (.initialization task)) (initialized : task.initialized = true) :
    (requests.foldl cancelModifyDrive flatDrive).task = some (.initialization task) := by
  induction requests generalizing flatDrive with
  | nil => exact isTask
  | cons request requests ih =>
      rw [List.foldl_cons]
      apply ih
      have answer : (DriveTask.shouldCancelModify request (.initialization task)).1 =
          .initialization task := by
        rw [DriveTask.shouldCancelModify, InitializeDriveTask.shouldCancelModify, if_pos initialized]
      rw [cancelModifyDrive_of_task isTask, answer]
      split <;> rfl

theorem reacts_of_advance {task : DriveTask} (isTask : flatDrive.task = some task)
    (calls : task.callsRunNextTask .advance = false)
    (step : flatDrive.advance task = some after) :
    ∃ next, after.task = some next ∧ task.Reacts .advance next := by
  cases task with
  | initialization task =>
      unfold advance at step
      simp only at step
      split at step
      · cases step
      · rename_i isPhase
        obtain rfl := Option.some.inj step
        refine ⟨_, task_cancelAll _ rfl rfl, .initialization ?_ ?_⟩
        · simp [isPhase]
        · cases task.singleTx <;> exact ⟨rfl, rfl, rfl, rfl, rfl⟩
      · rename_i isPhase
        obtain rfl := Option.some.inj step
        exact ⟨_, rfl, .initialization (by simp [isPhase]) (.refl _)⟩
      · rename_i isLast
        simp [DriveTask.callsRunNextTask, isLast] at calls
  | cancellation task =>
      unfold advance at step
      simp only at step
      split at step
      · rename_i isLast
        simp [DriveTask.callsRunNextTask, isLast] at calls
      · obtain rfl := Option.some.inj step
        exact ⟨_, rfl, .cancels task⟩
  | closure task =>
      unfold advance at step
      simp only at step
      split at step
      · obtain rfl := Option.some.inj step
        exact ⟨_, isTask, .same _⟩
      · obtain rfl := Option.some.inj step
        exact ⟨_, rfl, .closure _ _⟩
  | modification | stream | synchronization | manualModification => cases step

theorem reacts_of_manual {task : DriveTask} {event : ManualEvent}
    (calls : task.callsRunNextTask (.manual event) = false)
    (step : flatDrive.manual event task = some after) :
    ∃ next, after.task = some next ∧ task.Reacts (.manual event) next := by
  cases task with
  | manualModification task =>
      unfold manual at step
      simp only at step
      split at step
      · rename_i isLast
        simp [DriveTask.callsRunNextTask, isLast] at calls
      · obtain ⟨later, stepped, rfl⟩ := Option.map_eq_some_iff.mp step
        exact ⟨_, rfl, .manual rfl stepped⟩
  | initialization | modification | stream | synchronization | cancellation | closure => cases step

theorem eq_runSessionJob {event : TaskEvent} (isJob : event matches .runSessionJob) :
    event = .runSessionJob := by
  cases event with
  | runSessionJob => rfl
  | _ => cases isJob

/-! An event of the threads, the session or the timers is handled by the task, which has then
    not broken the program. -/

section TaskSteps

variable {event : TaskEvent}

theorem handle_of_modificationStep {task : ModifyDriveTask}
    (goesOn : event = .runSessionJob → task.sessionJobs.head? ≠ some .runNextTask)
    (step : flatDrive.taskStep event (.modification task) = some after) :
    ∃ next, task.fault = none ∧ task.handle event = some next ∧
      after.task = some (.modification next) := by
  unfold taskStep at step
  simp only at step
  split_ifs at step with ends
  · exact absurd ends.2 (goesOn (eq_runSessionJob ends.1))
  · obtain ⟨next, stepped, rfl⟩ := Option.map_eq_some_iff.mp step
    unfold ModifyDriveTask.modifyDriveSystem at stepped
    simp only at stepped
    split_ifs at stepped with broken
    exact ⟨next, by simpa using broken, stepped, rfl⟩

theorem handle_of_streamStep {task : StreamTask}
    (goesOn : event = .runSessionJob → task.sessionJobs.head? ≠ some .runNextTask)
    (step : flatDrive.taskStep event (.stream task) = some after) :
    ∃ next, task.fault = none ∧ task.handle event = some next ∧
      after.task = some (.stream next) := by
  unfold taskStep at step
  simp only at step
  split_ifs at step with ends
  · exact absurd ends.2 (goesOn (eq_runSessionJob ends.1))
  · obtain ⟨next, stepped, rfl⟩ := Option.map_eq_some_iff.mp step
    unfold StreamTask.streamSystem at stepped
    simp only at stepped
    split_ifs at stepped with broken
    exact ⟨next, by simpa using broken, stepped, rfl⟩

theorem handle_of_synchronizationStep {task : SynchronizationTask}
    (goesOn : event = .runSessionJob → task.sessionJobs.head? ≠ some .runNextTask)
    (step : flatDrive.taskStep event (.synchronization task) = some after) :
    ∃ next, task.fault = none ∧ task.handle event = some next ∧
      after.task = some (.synchronization next) := by
  unfold taskStep at step
  simp only at step
  split_ifs at step with ends
  · exact absurd ends.2 (goesOn (eq_runSessionJob ends.1))
  · obtain ⟨next, stepped, rfl⟩ := Option.map_eq_some_iff.mp step
    unfold SynchronizationTask.synchronizationSystem at stepped
    simp only at stepped
    split_ifs at stepped with broken
    exact ⟨next, by simpa using broken, stepped, rfl⟩

theorem reacts_of_taskStep {task : DriveTask}
    (calls : task.callsRunNextTask (.task event) = false)
    (step : flatDrive.taskStep event task = some after) :
    ∃ next, after.task = some next ∧ task.Reacts (.task event) next := by
  cases task with
  | modification task =>
      have goesOn : event = .runSessionJob → task.sessionJobs.head? ≠ some .runNextTask := by
        rintro rfl
        exact of_decide_eq_false calls
      obtain ⟨next, running, handled, isNext⟩ := handle_of_modificationStep goesOn step
      exact ⟨_, isNext, .modification running rfl handled⟩
  | stream task =>
      have goesOn : event = .runSessionJob → task.sessionJobs.head? ≠ some .runNextTask := by
        rintro rfl
        exact of_decide_eq_false calls
      obtain ⟨next, running, handled, isNext⟩ := handle_of_streamStep goesOn step
      exact ⟨_, isNext, .stream running rfl handled⟩
  | synchronization task =>
      have goesOn : event = .runSessionJob → task.sessionJobs.head? ≠ some .runNextTask := by
        rintro rfl
        exact of_decide_eq_false calls
      obtain ⟨next, running, handled, isNext⟩ := handle_of_synchronizationStep goesOn step
      exact ⟨_, isNext, .synchronization running rfl handled⟩
  | initialization | cancellation | closure | manualModification => cases step

end TaskSteps

theorem runNextTaskIfIdle_of_task {task : DriveTask} (isTask : flatDrive.task = some task) :
    flatDrive.runNextTaskIfIdle = flatDrive := by
  rw [runNextTaskIfIdle, isTask]
  rfl

theorem startModifyDrive_of_task {task : DriveTask} (isTask : flatDrive.task = some task)
    (request : ModificationRequest) :
    flatDrive.startModifyDrive request =
      { flatDrive with
        task := some task.onRequestQueued
        deferredModificationRequests := flatDrive.deferredModificationRequests ++
          [.modification request] } := by
  rw [startModifyDrive, isTask]
  exact runNextTaskIfIdle_of_task rfl

theorem startStream_of_task {task : DriveTask} (isTask : flatDrive.task = some task)
    (request : StreamRequest) :
    flatDrive.startStream request =
      { flatDrive with
        task := some task.onRequestQueued
        deferredModificationRequests := flatDrive.deferredModificationRequests ++
          [.stream request] } := by
  rw [startStream, isTask]
  exact runNextTaskIfIdle_of_task rfl

theorem startDriveClosing_of_task {task : DriveTask} (isTask : flatDrive.task = some task)
    (request : DriveClosureRequest) :
    flatDrive.startDriveClosing request =
      { flatDrive with task := some task.onDriveClose, closeDriveRequest := some request } := by
  rw [startDriveClosing, isTask]
  exact runNextTaskIfIdle_of_task rfl

theorem initiateManualModifications_of_task {task : DriveTask}
    (isTask : flatDrive.task = some task) (request : InitiateModificationsRequest) :
    flatDrive.initiateManualModifications request =
      { flatDrive with
        task := some task.onRequestQueued
        deferredManualModificationRequest := some request } := by
  rw [initiateManualModifications, isTask]
  exact runNextTaskIfIdle_of_task rfl

/-- What an idle drive would start a task for has found a running one. -/
theorem exists_task_of_noCall (noCall : flatDrive.nextTaskCall event = none)
    (calls : (flatDrive.idleCall event).isSome = true) : ∃ task, flatDrive.task = some task := by
  cases isTask : flatDrive.task with
  | some task => exact ⟨task, rfl⟩
  | none =>
      have none : flatDrive.idleCall event = none := by simpa only [nextTaskCall, isTask] using noCall
      rw [none] at calls
      cases calls

/-- An event that does not call `runNextTask` is passed on to the running task. -/
theorem taskStep_of_passedOn (running : ∀ task, flatDrive.task = some task → task.fault = none)
    (noCall : flatDrive.nextTaskCall event = none)
    (step : flatDrive.handle event = some after) : TaskStep event flatDrive after := by
  cases event with
  | task event =>
      simp only [handle] at step
      split at step
      · obtain ⟨task, isTask, taken⟩ := Option.bind_eq_some_iff.mp step
        obtain ⟨next, isNext, reacts⟩ :=
          reacts_of_taskStep (callsRunNextTask_of_none isTask noCall) taken
        exact .reacts isTask isNext reacts
      · cases step
  | advance =>
      obtain ⟨task, isTask, taken⟩ := Option.bind_eq_some_iff.mp step
      obtain ⟨next, isNext, reacts⟩ :=
        reacts_of_advance isTask (callsRunNextTask_of_none isTask noCall) taken
      exact .reacts isTask isNext reacts
  | manual event =>
      obtain ⟨task, isTask, taken⟩ := Option.bind_eq_some_iff.mp step
      obtain ⟨next, isNext, reacts⟩ :=
        reacts_of_manual (callsRunNextTask_of_none isTask noCall) taken
      exact .reacts isTask isNext reacts
  | loaded loaded =>
      simp only [handle] at step
      split at step
      · rename_i task isTask
        split at step
        · rename_i isFirst
          obtain rfl := Option.some.inj step
          exact .reacts isTask rfl (.loaded isFirst loaded)
        · cases step
      · cases step
  | opinionReceived anOpinion =>
      obtain rfl := Option.some.inj step
      cases isTask : flatDrive.task with
      | none =>
          simp only [onOpinionReceived, isTask]
          exact .idles isTask rfl (.refl _)
      | some task =>
          simp only [onOpinionReceived, isTask]
          split
          · exact .reacts isTask rfl (task.reacts_processedModifyOpinion (running task isTask) anOpinion)
          · exact .reacts isTask rfl (task.reacts_processedModifyOpinion (running task isTask) anOpinion)
  | approvalTransactionPublished transaction =>
      obtain ⟨task, isTask⟩ := exists_task_of_noCall noCall rfl
      obtain rfl := Option.some.inj step
      rw [published_of_some isTask]
      split
      · exact .reacts isTask rfl (task.reacts_onApprovalTxPublished (running task isTask) transaction)
      · exact .reacts isTask rfl (task.reacts_onApprovalTxPublished (running task isTask) transaction)
  | approvalTransactionFailed transactionHash =>
      obtain rfl := Option.some.inj step
      exact .of_map (fun task isTask => task.reacts_onApprovalTxFailed (running task isTask) _) rfl (.refl _)
  | startModifyDrive request =>
      obtain ⟨task, isTask⟩ := exists_task_of_noCall noCall rfl
      obtain rfl := Option.some.inj step
      rw [startModifyDrive_of_task isTask]
      exact .reacts isTask rfl (task.reacts_onRequestQueued _)
  | startStream request =>
      obtain ⟨task, isTask⟩ := exists_task_of_noCall noCall rfl
      obtain rfl := Option.some.inj step
      rw [startStream_of_task isTask]
      exact .reacts isTask rfl (task.reacts_onRequestQueued _)
  | initiateManualModifications request =>
      obtain ⟨task, isTask⟩ := exists_task_of_noCall noCall rfl
      obtain rfl := Option.some.inj step
      rw [initiateManualModifications_of_task isTask]
      exact .reacts isTask rfl (task.reacts_onRequestQueued _)
  | cancelModifyDrive request =>
      obtain rfl := Option.some.inj step
      cases isTask : flatDrive.task with
      | none =>
          rw [cancelModifyDrive_of_idle isTask]
          exact .idles isTask isTask (.refl _)
      | some task =>
          rw [cancelModifyDrive_of_task isTask]
          split
          · exact .reacts isTask rfl (task.reacts_shouldCancelModify (running task isTask) request)
          · exact .reacts isTask rfl (task.reacts_shouldCancelModify (running task isTask) request)
  | startDriveClosing request =>
      obtain ⟨task, isTask⟩ := exists_task_of_noCall noCall rfl
      obtain rfl := Option.some.inj step
      rw [startDriveClosing_of_task isTask]
      exact .reacts isTask rfl (task.reacts_onDriveClose (running task isTask) request)
  | manualSynchronize request =>
      obtain ⟨task, isTask⟩ := exists_task_of_noCall noCall rfl
      obtain rfl := Option.some.inj step
      simp only [manualSynchronize, isTask]
      split
      · exact .reacts isTask rfl (task.reacts_manualSynchronize (running task isTask) request)
      · exact .reacts isTask rfl (task.reacts_manualSynchronize (running task isTask) request)
  | chunkInfoReceived chunkInfo isVerified =>
      obtain rfl := Option.some.inj step
      exact .of_map (fun task isTask => task.reacts_streamEvent (running task isTask) rfl) rfl (.refl _)
  | finishStream request =>
      obtain rfl := Option.some.inj step
      exact .of_map (fun task isTask => task.reacts_streamEvent (running task isTask) rfl) rfl (.refl _)
  | setReplicators replicatorKeys =>
      obtain rfl := Option.some.inj step
      have same (drive : DriveParams) :
          drive.SameContent { drive with allReplicators := replicatorKeys } :=
        ⟨rfl, rfl, rfl, rfl, rfl⟩
      exact .of_map (fun task isTask => task.reacts_mapDrive (running task isTask) rfl same
        (fun _ => rfl) (fun _ => rfl) fun _ => rfl) rfl (same _)
  | setMinReplicatorsNumber number =>
      obtain rfl := Option.some.inj step
      have same (drive : DriveParams) :
          drive.SameContent { drive with minReplicatorsNumber := number } :=
        ⟨rfl, rfl, rfl, rfl, rfl⟩
      exact .of_map (fun task isTask => task.reacts_mapDrive (running task isTask) rfl same
        (fun _ => rfl) (fun _ => rfl) fun _ => rfl) rfl (same _)
  | setShardDonator replicatorKeys =>
      obtain rfl := Option.some.inj step
      exact .of_map (fun task _ => .setShardDonator task replicatorKeys) rfl ⟨rfl, rfl, rfl, rfl, rfl⟩
  | terminate =>
      obtain rfl := Option.some.inj step
      exact .of_map (fun task isTask => task.reacts_terminate (running task isTask)) rfl ⟨rfl, rfl, rfl, rfl, rfl⟩

theorem handle_of_step (step : flatDriveSystem.step flatDrive event = some after) :
    flatDrive.handle event = some after := by
  simp only [flatDriveSystem] at step
  split at step
  · cases step
  · exact step

theorem fault_of_step (step : flatDriveSystem.step flatDrive event = some after) :
    ∀ task, flatDrive.task = some task → task.fault = none := by
  intro task isTask
  simp only [flatDriveSystem] at step
  split at step
  · cases step
  · rename_i unbroken
    have unbroken : flatDrive.isBroken = false := by
      simp only [Bool.or_eq_true, not_or] at unbroken
      simpa using unbroken.1
    simp only [isBroken, Bool.or_eq_false_iff, isTask, Option.bind_some] at unbroken
    simpa using unbroken.2

theorem taskStep_of_step (step : flatDriveSystem.step flatDrive event = some after) :
    TaskStep event flatDrive after := by
  have handled := handle_of_step step
  cases isCall : flatDrive.nextTaskCall event with
  | none => exact taskStep_of_passedOn (fault_of_step step) isCall handled
  | some call =>
      obtain rfl := Option.some.inj ((handle_of_nextTaskCall isCall).symm.trans handled)
      exact taskStep_of_nextTaskCall isCall

end FlatDrive

end SiriusDrive
