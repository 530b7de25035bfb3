import SiriusDrive.FlatDrive.MovedRequests
import SiriusDrive.FlatDrive.LedgerEvents
import SiriusDrive.Lib.RequestQueue

/-! # The next task of a drive

`runNextTask` chooses among the requests in the order of their priority. The choice is said
once, with what it does to the queue of modifications and streams and what the task that is
started is about.
-/

namespace SiriusDrive

namespace DriveTask

def request? : DriveTask → Option DeferredRequest
  | .modification task => some (.modification task.request)
  | .stream task => some (.stream task.request)
  | _ => none

def catchingUp? : DriveTask → Option Hash256
  | .synchronization task =>
      if task.kind = .catchingUp then some task.modificationTransactionHash else none
  | _ => none

end DriveTask

theorem SynchronizationTask.run_same (task : SynchronizationTask) :
    task.run.kind = task.kind ∧
      task.run.modificationTransactionHash = task.modificationTransactionHash := by
  rw [run]
  split
  · exact ⟨rfl, rfl⟩
  · split <;> exact ⟨rfl, rfl⟩

theorem DriveTask.catchingUp?_run (task : SynchronizationTask) :
    (DriveTask.synchronization task.run).catchingUp? =
      if task.kind = .catchingUp then some task.modificationTransactionHash else none := by
  rw [catchingUp?, task.run_same.1, task.run_same.2]

namespace FlatDrive

/-- What `runNextTask` can start. -/
inductive NextTask where
  | closure (request : DriveClosureRequest)
  | cancellation (request : ModificationCancelRequest)
  | catchingUp (request : CatchingUpRequest)
  | synchronization (request : SynchronizationRequest)
  | deferred (request : DeferredRequest)
  | manualModification (request : InitiateModificationsRequest)

/-- The choice of `runNextTask`. -/
def nextTask? (flatDrive : FlatDrive) : Option NextTask :=
  if flatDrive.drive.replicatorIsStopped then none
  else
    (flatDrive.closeDriveRequest.map .closure).or <|
    (flatDrive.modificationCancelRequest.map .cancellation).or <|
    (flatDrive.catchingUpRequest.map .catchingUp).or <|
    (flatDrive.synchronizationRequest.map .synchronization).or <|
    (flatDrive.deferredModificationRequests.head?.map .deferred).or <|
    flatDrive.deferredManualModificationRequest.map .manualModification

def startNext (flatDrive : FlatDrive) : NextTask → FlatDrive
  | .closure request => flatDrive.runCloseDriveTask request
  | .cancellation request => flatDrive.runCancelModificationTask request
  | .catchingUp request => flatDrive.runCatchingUpTask request
  | .synchronization request => flatDrive.runSynchronizationTask request
  | .deferred request =>
      { flatDrive with
        deferredModificationRequests :=
          flatDrive.deferredModificationRequests.tail }.runDeferredModificationTask request
  | .manualModification request =>
      flatDrive.runDeferredModificationManualModificationTask request

/-- The request that `runNextTask` starts. -/
def requestToStart (flatDrive : FlatDrive) : Option DeferredRequest :=
  match flatDrive.nextTask? with
  | some (.deferred request) => some request
  | _ => none

variable {flatDrive call : FlatDrive}

/-! ## What `runNextTask` does -/

/-- What `runNextTask` does to the queue. -/
def nextQueueOps (flatDrive : FlatDrive) : List (QueueOp DeferredRequest Hash256) :=
  match flatDrive.nextTask? with
  | some (.catchingUp request) => [.skip request.modifyTransactionHash]
  | some (.deferred _) => [.start]
  | _ => []

def Serves (flatDrive : FlatDrive) (request : DeferredRequest) : Prop :=
  ∃ view, flatDrive.update? = some view ∧ view.purpose = .serves request

/-- The drive when `runNextTask` has ended the running task. -/
def idle (call : FlatDrive) : FlatDrive := { call with idleDrive := call.drive, task := none }

theorem runNextTask_of_stopped (stopped : call.drive.replicatorIsStopped = true) :
    call.runNextTask = call := if_pos stopped

theorem nextTask?_of_stopped (stopped : call.drive.replicatorIsStopped = true) :
    call.nextTask? = none := if_pos stopped

theorem runNextTask_of_going (going : call.drive.replicatorIsStopped = false) :
    call.runNextTask = call.nextTask?.elim call.idle call.idle.startNext := by
  have notStopped : ¬ call.drive.replicatorIsStopped = true := by simp [going]
  rw [runNextTask, if_neg notStopped, nextTask?, if_neg notStopped]
  obtain ⟨_, _, _, closing, cancel, catchingUp, synchronization, queue, manual⟩ := call
  cases closing with
  | some request => rfl
  | none =>
      cases cancel with
      | some request => rfl
      | none =>
          cases catchingUp with
          | some request => rfl
          | none =>
              cases synchronization with
              | some request => rfl
              | none =>
                  cases queue with
                  | cons request others => rfl
                  | nil => cases manual <;> rfl

theorem going_of_nextTask? {next : NextTask} (isNext : call.nextTask? = some next) :
    call.drive.replicatorIsStopped = false := by
  cases stopped : call.drive.replicatorIsStopped with
  | true => cases isNext.symm.trans (nextTask?_of_stopped stopped)
  | false => rfl

theorem runNextTask_of_nextTask? {next : NextTask} (isNext : call.nextTask? = some next) :
    call.runNextTask = call.idle.startNext next := by
  rw [runNextTask_of_going (going_of_nextTask? isNext), isNext]
  rfl

/-- Only the first request of the queue is chosen. -/
theorem deferred_of_nextTask? {request : DeferredRequest}
    (isNext : call.nextTask? = some (.deferred request)) :
    ∃ others, call.deferredModificationRequests = request :: others := by
  unfold nextTask? at isNext
  split at isNext
  · cases isNext
  · simp only [Option.or_eq_some_iff, Option.map_eq_some_iff, reduceCtorEq, and_false, exists_false,
      false_or, or_false, NextTask.deferred.injEq, exists_eq_right] at isNext
    exact List.head?_eq_some_iff.mp isNext.2.2.2.2

theorem deferred_runNextTask (call : FlatDrive) :
    call.runNextTask.deferredModificationRequests =
      QueueOp.applyAll DeferredRequest.transactionHash call.deferredModificationRequests
        call.nextQueueOps := by
  cases stopped : call.drive.replicatorIsStopped with
  | true =>
      rw [runNextTask_of_stopped stopped, nextQueueOps, nextTask?_of_stopped stopped]
      rfl
  | false =>
      rw [runNextTask_of_going stopped, nextQueueOps]
      cases call.nextTask? with
      | none => rfl
      | some next =>
          cases next with
          | catchingUp request => exact deferred_dropDeferred _
          | deferred request => cases request <;> rfl
          | closure | cancellation | synchronization | manualModification => rfl

theorem startedAll_nextQueueOps (call : FlatDrive) :
    QueueOp.startedAll DeferredRequest.transactionHash call.deferredModificationRequests
        call.nextQueueOps = call.requestToStart.toList := by
  unfold nextQueueOps requestToStart
  cases isNext : call.nextTask? with
  | none => rfl
  | some next =>
      cases next with
      | deferred request =>
          obtain ⟨others, queue⟩ := deferred_of_nextTask? isNext
          rw [queue]
          rfl
      | closure | cancellation | catchingUp | synchronization | manualModification => rfl

theorem nextTask?_of_requestToStart {request : DeferredRequest}
    (isNext : call.requestToStart = some request) : call.nextTask? = some (.deferred request) := by
  unfold requestToStart at isNext
  split at isNext
  · rename_i chosen
    obtain rfl := Option.some.inj isNext
    exact chosen
  · cases isNext

/-- The task of the first request is started. -/
theorem runNextTask_of_requestToStart {request : DeferredRequest}
    (isNext : call.requestToStart = some request) :
    ∃ others, call.deferredModificationRequests = request :: others ∧
      call.runNextTask = runDeferredModificationTask
        { call with
          idleDrive := call.drive
          task := none
          deferredModificationRequests := others } request := by
  have chosen := nextTask?_of_requestToStart isNext
  obtain ⟨others, queue⟩ := deferred_of_nextTask? chosen
  refine ⟨others, queue, ?_⟩
  rw [runNextTask_of_nextTask? chosen, startNext, idle, queue]
  rfl

/-! ## What the next task is about -/

theorem serves_iff {request : DeferredRequest} :
    flatDrive.Serves request ↔ flatDrive.task.bind (·.request?) = some request := by
  unfold Serves update?
  cases flatDrive.task with
  | none => simp
  | some task =>
      cases task with
      | modification task =>
          simp [DriveTask.update?, DriveTask.request?, ModifyDriveTask.updateView]
      | stream task => simp [DriveTask.update?, DriveTask.request?, StreamTask.updateView]
      | synchronization task =>
          simp [DriveTask.update?, DriveTask.request?, SynchronizationTask.updateView]
      | initialization | cancellation | closure | manualModification =>
          simp [DriveTask.update?, DriveTask.request?]

theorem request?_runNextTask (going : call.drive.replicatorIsStopped = false) :
    call.runNextTask.task.bind (·.request?) = call.requestToStart := by
  rw [runNextTask_of_going going, requestToStart]
  cases call.nextTask? with
  | none => rfl
  | some next =>
      cases next with
      | deferred request =>
          cases request with
          | modification request =>
              exact serves_iff.mp ⟨_, rfl, (ModifyDriveTask.isNew_start request _ _ _).2⟩
          | stream request => rfl
      | closure | cancellation | catchingUp | synchronization | manualModification => rfl

/-- A drive that goes on serves what it has started. -/
theorem requestToStart_of_serves {request : DeferredRequest}
    (going : ¬ call.drive.replicatorIsStopped = true)
    (serves : call.runNextTask.Serves request) : call.requestToStart = some request :=
  (request?_runNextTask (by simpa using going)).symm.trans (serves_iff.mp serves)

theorem catchingUp?_runNextTask (going : call.drive.replicatorIsStopped = false)
    {modification : Hash256}
    (catchesUp : call.runNextTask.task.bind (·.catchingUp?) = some modification) :
    ∃ request, call.nextTask? = some (.catchingUp request) ∧
      request.modifyTransactionHash = modification := by
  rw [runNextTask_of_going going] at catchesUp
  cases isNext : call.nextTask? with
  | none =>
      rw [isNext] at catchesUp
      cases catchesUp
  | some next =>
      rw [isNext] at catchesUp
      cases next with
      | catchingUp request =>
          have caughtUp := (DriveTask.catchingUp?_run _).symm.trans catchesUp
          exact ⟨request, rfl, by simpa [SynchronizationTask.createCatchingUp] using caughtUp⟩
      | synchronization request =>
          have caughtUp := (DriveTask.catchingUp?_run _).symm.trans catchesUp
          simp [SynchronizationTask.createManualSynchronization] at caughtUp
      | deferred request => cases request <;> cases catchesUp
      | closure | cancellation | manualModification => cases catchesUp

end FlatDrive

end SiriusDrive
