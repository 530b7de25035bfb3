import SiriusDrive.FlatDrive.PublishedApprovals

/-! # Requests that are moved away

`cancelModifyDrive` and `startDriveClosing` take their request as a `mobj`, store it by
moving it and read it once more. Here both handlers are written with the pointer they
have: it is empty after the move, and reading an empty pointer is an error. Where no
empty pointer is read they do what the functions of `FlatDrive` say.
-/

namespace SiriusDrive

/-- `mobj`: a `std::unique_ptr`, empty once its value has been moved away. -/
abbrev Mobj (α : Type) := Option α

/-- `operator*` and `operator->`. -/
def Mobj.deref {α : Type} : Mobj α → Except Fault α
  | some value => .ok value
  | none => .error .invalidDereference

namespace DriveTask

/-- The modification of the request is the one the task works on: it is executed and not
    interrupted yet, or its uploads have been counted before a restart. -/
def WorksOn (request : ModificationCancelRequest) : DriveTask → Prop
  | .initialization task =>
      task.initialized = true ∧
        task.drive.opinionController.notApprovedModificationId = request.modifyTransactionHash
  | .modification task =>
      task.taskIsInterrupted = false ∧
        request.modifyTransactionHash = task.request.transactionHash
  | .stream task =>
      task.taskIsInterrupted = false ∧ request.modifyTransactionHash = task.request.streamId
  | .synchronization task =>
      task.kind = .catchingUp ∧ request.modifyTransactionHash =
        task.drive.opinionController.notApprovedModificationId
  | .cancellation _ | .closure _ | .manualModification _ => False

theorem shouldCancelModify_iff (task : DriveTask) (request : ModificationCancelRequest) :
    (task.shouldCancelModify request).2 = true ↔ task.WorksOn request := by
  cases task with
  | initialization task =>
      unfold DriveTask.shouldCancelModify InitializeDriveTask.shouldCancelModify WorksOn
      by_cases initialized : task.initialized = true
      · simp [initialized]
      · simp [initialized]
  | modification task =>
      unfold DriveTask.shouldCancelModify ModifyDriveTask.shouldCancelModify WorksOn
      by_cases interrupted : task.taskIsInterrupted = true
      · simp [interrupted]
      · by_cases isOwn : request.modifyTransactionHash = task.request.transactionHash <;>
          simp [interrupted, isOwn]
  | stream task =>
      unfold DriveTask.shouldCancelModify StreamTask.shouldCancelModify WorksOn
      by_cases interrupted : task.taskIsInterrupted = true
      · simp [interrupted]
      · by_cases isOwn : request.modifyTransactionHash = task.request.streamId <;>
          simp [interrupted, isOwn]
  | synchronization task =>
      unfold DriveTask.shouldCancelModify SynchronizationTask.shouldCancelModify WorksOn
      cases kind : task.kind with
      | catchingUp => simp [kind]
      | manualSynchronization => simp [kind]
  | cancellation | closure | manualModification => simp [DriveTask.shouldCancelModify, WorksOn]

end DriveTask

namespace FlatDrive

/-! ## The handlers -/

/-- The `std::find_if` of `cancelModifyDrive`, which reads the request for every item. -/
def findDeferred (request : Mobj ModificationCancelRequest) :
    List DeferredRequest → Except Fault (Option Nat)
  | [] => .ok none
  | item :: items => do
      let cancelRequest ← request.deref
      if item.transactionHash = cancelRequest.modifyTransactionHash then return some 0
      else return (← findDeferred request items).map (· + 1)

/-- `cancelModifyDrive`. -/
def handleCancelModifyDrive (flatDrive : FlatDrive) (request : ModificationCancelRequest) :
    Except Fault FlatDrive := do
  let (task, shouldCancel) : Option DriveTask × Bool :=
    match flatDrive.task with
    | some task =>
        let (task, shouldCancel) := task.shouldCancelModify request
        (some task, shouldCancel)
    | none => (none, false)
  let (flatDrive, request) : FlatDrive × Mobj ModificationCancelRequest :=
    if shouldCancel then
      ({ flatDrive with task, modificationCancelRequest := some request }, none)
    else ({ flatDrive with task }, some request)
  match ← findDeferred request flatDrive.deferredModificationRequests with
  | none => return flatDrive
  | some index =>
      return { flatDrive with
        deferredModificationRequests := flatDrive.deferredModificationRequests.eraseIdx index }

/-- `startDriveClosing`. -/
def handleStartDriveClosing (flatDrive : FlatDrive) (request : DriveClosureRequest) :
    Except Fault FlatDrive := do
  let (flatDrive, request) : FlatDrive × Mobj DriveClosureRequest :=
    ({ flatDrive with closeDriveRequest := some request }, none)
  match flatDrive.task with
  | none => return flatDrive.runNextTask
  | some task =>
      -- no task reads the request it is given
      let _closureRequest ← request.deref
      return { flatDrive with task := some task.onDriveClose }

/-! ## What the handlers do -/

variable {flatDrive after : FlatDrive} {request : ModificationCancelRequest}

theorem findDeferred_some (items : List DeferredRequest) :
    findDeferred (some request) items =
      .ok (items.findIdx? (·.transactionHash = request.modifyTransactionHash)) := by
  induction items with
  | nil => rfl
  | cons item items ih =>
      unfold findDeferred
      rw [ih, List.findIdx?_cons]
      by_cases isItem : item.transactionHash = request.modifyTransactionHash
      · simp [Mobj.deref, isItem, bind, Except.bind, pure, Except.pure]
      · simp [Mobj.deref, isItem, bind, Except.bind, pure, Except.pure]

theorem findDeferred_none (items : List DeferredRequest) :
    findDeferred none items = if items = [] then .ok none else .error .invalidDereference := by
  cases items with
  | nil => rfl
  | cons item items => rfl

/-- The running task works on the modification to be cancelled. -/
def CancelsRunning (flatDrive : FlatDrive) (request : ModificationCancelRequest) : Prop :=
  ∃ task, flatDrive.task = some task ∧ task.WorksOn request

theorem handleCancelModifyDrive_of_running (running : flatDrive.CancelsRunning request) :
    flatDrive.handleCancelModifyDrive request =
      if flatDrive.deferredModificationRequests = [] then
        .ok { flatDrive with
          task := flatDrive.task.map fun task => (task.shouldCancelModify request).1
          modificationCancelRequest := some request }
      else .error .invalidDereference := by
  obtain ⟨task, isTask, works⟩ := running
  have accepts := (task.shouldCancelModify_iff request).mpr works
  unfold handleCancelModifyDrive
  simp only [isTask, accepts, if_true, findDeferred_none]
  split <;> rfl

theorem handleCancelModifyDrive_of_other (other : ¬ flatDrive.CancelsRunning request) :
    flatDrive.handleCancelModifyDrive request = .ok { flatDrive with
      task := flatDrive.task.map fun task => (task.shouldCancelModify request).1
      deferredModificationRequests := flatDrive.deferredModificationRequests.eraseP
        (·.transactionHash = request.modifyTransactionHash) } := by
  unfold handleCancelModifyDrive
  cases isTask : flatDrive.task with
  | none =>
      simp only [Bool.false_eq_true, if_false, findDeferred_some, List.eraseP_eq_eraseIdx]
      cases flatDrive.deferredModificationRequests.findIdx?
        (·.transactionHash = request.modifyTransactionHash) <;> rfl
  | some task =>
      have refuses : (task.shouldCancelModify request).2 = false := by
        rw [Bool.eq_false_iff]
        intro accepts
        exact other ⟨task, isTask, (task.shouldCancelModify_iff request).mp accepts⟩
      simp only [refuses, Bool.false_eq_true, if_false, findDeferred_some, List.eraseP_eq_eraseIdx]
      cases flatDrive.deferredModificationRequests.findIdx?
        (·.transactionHash = request.modifyTransactionHash) <;> rfl

/-- The handler does what `startDriveClosing` says unless a task is running. -/
theorem handleStartDriveClosing_eq (flatDrive : FlatDrive) (request : DriveClosureRequest) :
    flatDrive.handleStartDriveClosing request =
      if flatDrive.task.isSome then .error .invalidDereference
      else .ok (flatDrive.startDriveClosing request) := by
  unfold handleStartDriveClosing startDriveClosing runNextTaskIfIdle
  cases isTask : flatDrive.task with
  | none => rfl
  | some task => rfl

/-! ## Requests that are handled -/

/-- No moved request is read, the cancellation of the modification the running task works on
    is stored and the queue left alone, and a queued modification is removed from the queue. -/
def CancelIsHandled (flatDrive : FlatDrive) (request : ModificationCancelRequest) : Prop :=
  ∃ after, flatDrive.handleCancelModifyDrive request = .ok after ∧
    (flatDrive.CancelsRunning request → after.modificationCancelRequest = some request ∧
      after.deferredModificationRequests = flatDrive.deferredModificationRequests) ∧
    ∀ front queued back, flatDrive.deferredModificationRequests = front ++ queued :: back →
      queued.transactionHash = request.modifyTransactionHash →
      request.modifyTransactionHash ∉ front.map DeferredRequest.transactionHash →
      after.deferredModificationRequests = front ++ back

def CancelsAreHandled : FlatDrive → List ModificationCancelRequest → Prop
  | _, [] => True
  | flatDrive, request :: requests =>
      flatDrive.CancelIsHandled request ∧
        CancelsAreHandled (flatDrive.cancelModifyDrive request) requests

theorem cancelIsHandled_iff :
    flatDrive.CancelIsHandled request ↔
      (flatDrive.CancelsRunning request → flatDrive.deferredModificationRequests = []) := by
  constructor
  · rintro ⟨after, handled, -⟩ running
    by_contra queued
    rw [handleCancelModifyDrive_of_running running, if_neg queued] at handled
    cases handled
  · intro isEmpty
    by_cases running : flatDrive.CancelsRunning request
    · have queue := isEmpty running
      refine ⟨_, (handleCancelModifyDrive_of_running running).trans (if_pos queue), ?_, ?_⟩
      · exact fun _ => ⟨rfl, rfl⟩
      · intro front queued back split
        rw [queue] at split
        simp at split
    · refine ⟨_, handleCancelModifyDrive_of_other running, ?_, ?_⟩
      · exact fun works => absurd works running
      · intro front queued back split isQueued first
        simp only
        rw [split, List.eraseP_append_right _ ?_, List.eraseP_cons_of_pos (by simpa using isQueued)]
        intro earlier member
        simpa using fun same : earlier.transactionHash = request.modifyTransactionHash =>
          first (same ▸ List.mem_map_of_mem member)

/-! ## The cancellations of an initialization -/

/-- The cancellations that are left to the end of the initialization. -/
def dueCancellations (task : InitializeDriveTask) : List ModificationCancelRequest :=
  let modificationId := task.drive.opinionController.notApprovedModificationId
  task.cancelRequests.filter (·.modifyTransactionHash = modificationId) ++
    match task.completedModifications.find? (·.modificationId = modificationId) with
    | some completed => if completed.isCancelled then [⟨completed.modificationId⟩] else []
    | none => []

/-- The drive when `onInitialized` comes to the cancellations. -/
def initializedDrive (flatDrive : FlatDrive) (task : InitializeDriveTask) : FlatDrive :=
  { flatDrive with
    task := some (.initialization
      { task with
        drive :=
          match task.singleTx with
          | some singleTx => task.drive.sendSingleApprovalTransaction singleTx
          | none => task.drive
        initialized := true
        phase := .clearSandbox }) }

theorem dueCancellations_about (task : InitializeDriveTask) :
    ∀ request ∈ dueCancellations task,
      task.drive.opinionController.notApprovedModificationId = request.modifyTransactionHash := by
  intro request member
  rcases List.mem_append.mp member with kept | completed
  · have about := (List.mem_filter.mp kept).2
    exact (of_decide_eq_true about).symm
  · split at completed
    · rename_i modification found
      have about := List.find?_some found
      split at completed
      · obtain rfl := List.mem_singleton.mp completed
        exact (of_decide_eq_true about).symm
      · cases completed
    · cases completed

/-- All cancellations of an initialization concern what it works on: they are handled if the
    queue is empty. -/
theorem cancelsAreHandled_iff {task : InitializeDriveTask}
    {requests : List ModificationCancelRequest} (initialized : task.initialized = true)
    (isTask : flatDrive.task = some (.initialization task))
    (about : ∀ request ∈ requests,
      task.drive.opinionController.notApprovedModificationId = request.modifyTransactionHash) :
    flatDrive.CancelsAreHandled requests ↔
      (requests ≠ [] → flatDrive.deferredModificationRequests = []) := by
  induction requests generalizing flatDrive with
  | nil => simp [CancelsAreHandled]
  | cons request requests ih =>
      have isOwn := about request List.mem_cons_self
      have running : flatDrive.CancelsRunning request := ⟨_, isTask, initialized, isOwn⟩
      have same : (flatDrive.cancelModifyDrive request).task = some (.initialization task) ∧
          (flatDrive.cancelModifyDrive request).deferredModificationRequests =
            flatDrive.deferredModificationRequests := by
        have accepts : task.shouldCancelModify request = (task, true) := by
          rw [InitializeDriveTask.shouldCancelModify, if_pos initialized, decide_eq_true isOwn]
        simp [cancelModifyDrive, isTask, DriveTask.shouldCancelModify, accepts]
      have later := ih same.1 fun other member => about other (List.mem_cons_of_mem _ member)
      unfold CancelsAreHandled
      rw [cancelIsHandled_iff, later, same.2]
      constructor
      · rintro ⟨here, -⟩ -
        exact here running
      · intro isEmpty
        have queue := isEmpty (List.cons_ne_nil _ _)
        exact ⟨fun _ => queue, fun _ => queue⟩

theorem initializedDrive_handled_iff (flatDrive : FlatDrive) (task : InitializeDriveTask) :
    (flatDrive.initializedDrive task).CancelsAreHandled (dueCancellations task) ↔
      (dueCancellations task ≠ [] → flatDrive.deferredModificationRequests = []) := by
  apply cancelsAreHandled_iff rfl rfl
  intro request member
  have about := dueCancellations_about task request member
  cases task.singleTx with
  | none => exact about
  | some singleTx => exact about

/-! ## The runs of a drive -/

/-- The requests to cancel and to close that come with an event are handled. -/
def HandlesRequests (flatDrive : FlatDrive) : DriveEvent → Prop
  | .cancelModifyDrive request => flatDrive.CancelIsHandled request
  | .startDriveClosing request => ∃ after, flatDrive.handleStartDriveClosing request = .ok after
  | .advance => ∀ task, flatDrive.task = some (.initialization task) →
      task.phase = .onInitialized →
      (flatDrive.initializedDrive task).CancelsAreHandled (dueCancellations task)
  | _ => True

/-- What the running task works on is cancelled only while no request is queued, and the drive
    is closed only while no task is running. -/
def ReadsNoMovedRequest (flatDrive : FlatDrive) : DriveEvent → Prop
  | .cancelModifyDrive request =>
      flatDrive.CancelsRunning request → flatDrive.deferredModificationRequests = []
  | .startDriveClosing _ => flatDrive.task = none
  | .advance => ∀ task, flatDrive.task = some (.initialization task) →
      task.phase = .onInitialized → dueCancellations task ≠ [] →
      flatDrive.deferredModificationRequests = []
  | _ => True

theorem handlesRequests_iff (flatDrive : FlatDrive) (event : DriveEvent) :
    flatDrive.HandlesRequests event ↔ flatDrive.ReadsNoMovedRequest event := by
  cases event with
  | cancelModifyDrive request => exact cancelIsHandled_iff
  | startDriveClosing request =>
      unfold HandlesRequests ReadsNoMovedRequest
      simp only [handleStartDriveClosing_eq]
      cases flatDrive.task with
      | none => simp
      | some task => simp
  | advance =>
      unfold HandlesRequests ReadsNoMovedRequest
      simp only [initializedDrive_handled_iff]
  | _ => exact Iff.rfl

/-- In every run of a drive the requests to cancel and to close are handled, without a read of
    a moved request, if and only if the modification the running task works on is cancelled only
    while no request is queued and the drive is closed only while no task is running. -/
theorem requests_are_handled_iff (drive : DriveParams)
    (completedModifications : List CompletedModification)
    (actionListFiles : InfoHash → Option ActionListFile) (events : List DriveEvent) :
    flatDriveSystem.Meets HandlesRequests (create drive completedModifications actionListFiles)
        events ↔
      flatDriveSystem.Meets ReadsNoMovedRequest
        (create drive completedModifications actionListFiles) events := by
  constructor
  · intro handles
    exact handles.mono fun flatDrive event => (flatDrive.handlesRequests_iff event).mp
  · intro reads
    exact reads.mono fun flatDrive event => (flatDrive.handlesRequests_iff event).mpr

/-- A running modification is cancelled while another one is queued. -/
theorem moved_request_is_read :
    ¬ flatDriveSystem.Meets HandlesRequests sampleFlatDrive
      (untilInitialized ++
        [.startModifyDrive ModifyDriveTask.sampleRequest,
          .startModifyDrive { ModifyDriveTask.sampleRequest with transactionHash := 61 }] ++
        [.cancelModifyDrive ⟨60⟩]) := by
  intro handles
  obtain ⟨flatDrive, run, running, queued⟩ : flatDriveSystem.Reaches
      (fun flatDrive => (flatDrive.task.any fun task =>
          (task.shouldCancelModify ⟨60⟩).2) = true ∧
        flatDrive.deferredModificationRequests ≠ [])
      sampleFlatDrive
      (untilInitialized ++
        [.startModifyDrive ModifyDriveTask.sampleRequest,
          .startModifyDrive { ModifyDriveTask.sampleRequest with transactionHash := 61 }]) := by
    decide +kernel
  obtain ⟨task, isTask, accepts⟩ := (Option.any_eq_true _ _).mp running
  have reads : flatDrive.CancelsRunning ⟨60⟩ → flatDrive.deferredModificationRequests = [] :=
    cancelIsHandled_iff.mp (handles.last run)
  exact queued (reads ⟨task, isTask, (task.shouldCancelModify_iff ⟨60⟩).mp accepts⟩)

end FlatDrive

end SiriusDrive
