import SiriusDrive.DriveTasks

/-! # The drive

`DefaultFlatDrive` queues the requests it cannot serve at once, starts the next
task when one has ended and passes on to the running task what concerns it.
-/

namespace SiriusDrive

/-- `DeferredRequest`. -/
inductive DeferredRequest where
  | modification (request : ModificationRequest)
  | stream (request : StreamRequest)
  deriving Repr, DecidableEq

namespace DeferredRequest

def transactionHash : DeferredRequest → Hash256
  | .modification request => request.transactionHash
  | .stream request => request.streamId

def maxDataSize : DeferredRequest → Nat
  | .modification request => request.maxDataSize
  | .stream request => request.maxSizeBytes

end DeferredRequest

abbrev UnknownOpinions := Std.TreeMap Hash256 ReceivedOpinions

/-- `DefaultFlatDrive`, without what concerns verifications. -/
structure FlatDrive where
  /-- The drive while no task works on it. -/
  idleDrive : DriveParams
  task : Option DriveTask := none
  unknownModificationOpinions : UnknownOpinions := ∅
  closeDriveRequest : Option DriveClosureRequest := none
  modificationCancelRequest : Option ModificationCancelRequest := none
  catchingUpRequest : Option CatchingUpRequest := none
  synchronizationRequest : Option SynchronizationRequest := none
  deferredModificationRequests : List DeferredRequest := []
  deferredManualModificationRequest : Option InitiateModificationsRequest := none
  /-- The content of the action list with some info hash, once it is downloaded. -/
  actionListFiles : InfoHash → Option ActionListFile := fun _ => none
  isClosed : Bool := false
  /-- A request is read after it was moved away. -/
  movedRequestIsRead : Bool := false

/-- Events of the threads, the session and the timers of a task. -/
def TaskEvent.isInternal : TaskEvent → Bool
  | .runSessionJob | .runBackgroundJob _ | .torrentsRemoved _ | .metadataReceived ..
  | .torrentFinished _ | .pieceReceived .. | .modifyOpinionTimerExpired
  | .shareMyOpinionTimerExpired => true
  | _ => false

/-- What can happen to a drive. -/
inductive DriveEvent where
  | task (event : TaskEvent)
  /-- The drive has been read from the disk. -/
  | loaded (loaded : LoadedDrive)
  /-- The next step of an initialization, a cancellation or a closure. -/
  | advance
  | manual (event : ManualEvent)
  | opinionReceived (anOpinion : ApprovalTransactionInfo)
  | approvalTransactionPublished (transaction : PublishedModificationApprovalTransactionInfo)
  | approvalTransactionFailed (transactionHash : Hash256)
  | startModifyDrive (request : ModificationRequest)
  | startStream (request : StreamRequest)
  | cancelModifyDrive (request : ModificationCancelRequest)
  | startDriveClosing (request : DriveClosureRequest)
  | manualSynchronize (request : SynchronizationRequest)
  | initiateManualModifications (request : InitiateModificationsRequest)
  | chunkInfoReceived (chunkInfo : ChunkInfo) (isVerified : Bool)
  | finishStream (finishStream : StreamFinishRequest)
  | setReplicators (replicatorKeys : List ReplicatorKey)
  | setShardDonator (replicatorKeys : List ReplicatorKey)
  | setMinReplicatorsNumber (number : Nat)
  | terminate

namespace FlatDrive

variable (flatDrive : FlatDrive)

def drive : DriveParams :=
  match flatDrive.task with
  | some task => task.drive
  | none => flatDrive.idleDrive

def mapDrive (f : DriveParams → DriveParams) : FlatDrive :=
  { flatDrive with
    idleDrive := f flatDrive.idleDrive
    task := flatDrive.task.map (·.mapDrive f) }

/-- The constructor: the drive is initialized first. -/
def create (drive : DriveParams) (completedModifications : List CompletedModification)
    (actionListFiles : InfoHash → Option ActionListFile) : FlatDrive where
  idleDrive := drive
  task := some (.initialization { drive, completedModifications })
  actionListFiles := actionListFiles

/-! ## Starting the next task -/

def runCloseDriveTask (request : DriveClosureRequest) : FlatDrive :=
  { flatDrive with
    task := some (.closure { drive := flatDrive.idleDrive, request })
    closeDriveRequest := none }

def runCancelModificationTask (request : ModificationCancelRequest) : FlatDrive :=
  { flatDrive with
    task := some (.cancellation (.start request flatDrive.idleDrive))
    modificationCancelRequest := none }

/-- The modifications up to the one of a request are not executed any more. -/
def dropDeferred (transactionHash : Hash256) : FlatDrive :=
  match flatDrive.deferredModificationRequests.findIdx? (·.transactionHash = transactionHash) with
  | some index =>
      { flatDrive with
        idleDrive := { flatDrive.idleDrive with
          opinionController :=
            (flatDrive.deferredModificationRequests.take (index + 1)).foldl
              (fun controller request =>
                controller.increaseApprovedExpectedCumulativeDownload request.maxDataSize)
              flatDrive.idleDrive.opinionController }
        deferredModificationRequests := flatDrive.deferredModificationRequests.drop (index + 1) }
  | none => flatDrive

def runCatchingUpTask (request : CatchingUpRequest) : FlatDrive :=
  let flatDrive := flatDrive.dropDeferred request.modifyTransactionHash
  { flatDrive with
    task := some (.synchronization
      (SynchronizationTask.createCatchingUp request flatDrive.idleDrive).run)
    catchingUpRequest := none
    deferredManualModificationRequest := none }

def runSynchronizationTask (request : SynchronizationRequest) : FlatDrive :=
  { flatDrive with
    task := some (.synchronization
      (SynchronizationTask.createManualSynchronization request flatDrive.idleDrive).run)
    synchronizationRequest := none
    deferredManualModificationRequest := none }

/-- The opinions received for a modification go to its task. -/
def runModificationTask (request : ModificationRequest) : FlatDrive :=
  let opinions := (flatDrive.unknownModificationOpinions[request.transactionHash]?).getD ∅
  { flatDrive with
    task := some (.modification (.start request opinions flatDrive.idleDrive
      (flatDrive.actionListFiles request.clientDataInfoHash)))
    unknownModificationOpinions :=
      flatDrive.unknownModificationOpinions.erase request.transactionHash }

def runStreamTask (request : StreamRequest) : FlatDrive :=
  { flatDrive with task := some (.stream (.create request flatDrive.idleDrive)) }

def runDeferredModificationTask : DeferredRequest → FlatDrive
  | .modification request => flatDrive.runModificationTask request
  | .stream request => flatDrive.runStreamTask request

def runDeferredModificationManualModificationTask (request : InitiateModificationsRequest) :
    FlatDrive :=
  { flatDrive with
    task := some (.manualModification (.start request flatDrive.idleDrive))
    deferredManualModificationRequest := none }

/-- The choice of `runNextTask` among the requests, in the order of their priority. -/
def runFirstRequest : FlatDrive :=
  match flatDrive.closeDriveRequest, flatDrive.modificationCancelRequest,
    flatDrive.catchingUpRequest, flatDrive.synchronizationRequest,
    flatDrive.deferredModificationRequests, flatDrive.deferredManualModificationRequest with
  | some request, _, _, _, _, _ => flatDrive.runCloseDriveTask request
  | none, some request, _, _, _, _ => flatDrive.runCancelModificationTask request
  | none, none, some request, _, _, _ => flatDrive.runCatchingUpTask request
  | none, none, none, some request, _, _ => flatDrive.runSynchronizationTask request
  | none, none, none, none, request :: deferredModificationRequests, _ =>
      { flatDrive with deferredModificationRequests }.runDeferredModificationTask request
  | none, none, none, none, [], some request =>
      flatDrive.runDeferredModificationManualModificationTask request
  | none, none, none, none, [], none => flatDrive

/-- `runNextTask`. -/
def runNextTask : FlatDrive :=
  if flatDrive.drive.replicatorIsStopped then flatDrive
  else { flatDrive with idleDrive := flatDrive.drive, task := none }.runFirstRequest

def runNextTaskIfIdle : FlatDrive :=
  if flatDrive.task.isNone then flatDrive.runNextTask else flatDrive

/-! ## Calls of the replicator -/

/-- `onOpinionReceived`. -/
def onOpinionReceived (anOpinion : ApprovalTransactionInfo) : FlatDrive :=
  let (task, processed) :=
    match flatDrive.task with
    | some task =>
        let (task, processed) := task.processedModifyOpinion anOpinion
        (some task, processed)
    | none => (none, false)
  let flatDrive := { flatDrive with task }
  if processed then flatDrive
  else
    let opinions :=
      (flatDrive.unknownModificationOpinions[anOpinion.modifyTransactionHash]?).getD ∅
    { flatDrive with
      unknownModificationOpinions := flatDrive.unknownModificationOpinions.insert
        anOpinion.modifyTransactionHash (opinions.insert anOpinion.replicatorKey anOpinion) }

/-- `onApprovalTransactionHasBeenPublished`. -/
def onApprovalTransactionHasBeenPublished
    (transaction : PublishedModificationApprovalTransactionInfo) : FlatDrive :=
  let catchingUpRequest := ⟨transaction.rootHash, transaction.modifyTransactionHash⟩
  match flatDrive.task with
  | some task =>
      let (task, shouldCatchUp) := task.onApprovalTxPublished transaction
      let flatDrive := { flatDrive with task := some task }
      if shouldCatchUp then { flatDrive with catchingUpRequest := some catchingUpRequest }
      else flatDrive
  | none => { flatDrive with catchingUpRequest := some catchingUpRequest }.runNextTask

/-- `onApprovalTransactionHasFailedInvalidOpinions`. -/
def onApprovalTransactionHasFailed (transactionHash : Hash256) : FlatDrive :=
  { flatDrive with task := flatDrive.task.map (·.onApprovalTxFailed transactionHash) }

def startModifyDrive (request : ModificationRequest) : FlatDrive :=
  runNextTaskIfIdle
    { flatDrive with
      task := flatDrive.task.map (·.onRequestQueued)
      deferredModificationRequests := flatDrive.deferredModificationRequests ++
        [.modification request] }

def startStream (request : StreamRequest) : FlatDrive :=
  runNextTaskIfIdle
    { flatDrive with
      task := flatDrive.task.map (·.onRequestQueued)
      deferredModificationRequests := flatDrive.deferredModificationRequests ++
        [.stream request] }

/-- `cancelModifyDrive`. A request that was moved away is read for every deferred
    request there is. -/
def cancelModifyDrive (request : ModificationCancelRequest) : FlatDrive :=
  let (task, shouldCancel) :=
    match flatDrive.task with
    | some task =>
        let (task, shouldCancel) := task.shouldCancelModify request
        (some task, shouldCancel)
    | none => (none, false)
  let flatDrive := { flatDrive with task }
  if shouldCancel then
    { flatDrive with
      modificationCancelRequest := some request
      movedRequestIsRead := !flatDrive.deferredModificationRequests.isEmpty }
  else
    { flatDrive with
      deferredModificationRequests := flatDrive.deferredModificationRequests.eraseP
        (·.transactionHash = request.modifyTransactionHash) }

def startDriveClosing (request : DriveClosureRequest) : FlatDrive :=
  runNextTaskIfIdle
    { flatDrive with
      task := flatDrive.task.map (·.onDriveClose)
      closeDriveRequest := some request }

def manualSynchronize (request : SynchronizationRequest) : FlatDrive :=
  let (task, accepted) :=
    match flatDrive.task with
    | some task =>
        let (task, accepted) := task.manualSynchronize
        (some task, accepted)
    | none => (none, true)
  let flatDrive := { flatDrive with task }
  if accepted then
    { flatDrive with
      catchingUpRequest := none
      synchronizationRequest := some request }.runNextTaskIfIdle
  else flatDrive

def initiateManualModifications (request : InitiateModificationsRequest) : FlatDrive :=
  runNextTaskIfIdle
    { flatDrive with
      task := flatDrive.task.map (·.onRequestQueued)
      deferredManualModificationRequest := some request }

def terminate : FlatDrive :=
  { flatDrive with
    idleDrive := { flatDrive.idleDrive with replicatorIsStopped := true }
    task := flatDrive.task.map (·.terminate) }

/-! ## Steps of the tasks -/

/-- The end of the initialization: a modification that was cancelled meanwhile is
    dropped first. -/
def onInitialized (task : InitializeDriveTask) : FlatDrive :=
  let drive :=
    match task.singleTx with
    | some singleTx => task.drive.sendSingleApprovalTransaction singleTx
    | none => task.drive
  let modificationId := drive.opinionController.notApprovedModificationId
  let cancelled :=
    task.cancelRequests.filter (·.modifyTransactionHash = modificationId) ++
      match task.completedModifications.find? (·.modificationId = modificationId) with
      | some completed => if completed.isCancelled then [⟨completed.modificationId⟩] else []
      | none => []
  cancelled.foldl cancelModifyDrive
    { flatDrive with
      task := some (.initialization
        { task with drive, initialized := true, phase := .clearSandbox }) }

/-- The next step of an initialization, a cancellation or a closure. -/
def advance : DriveTask → Option FlatDrive
  | .initialization task =>
      match task.phase with
      | .initializeDrive => none
      | .onInitialized => some (flatDrive.onInitialized task)
      | .clearSandbox =>
          some { flatDrive with task := some (.initialization { task with phase := .runNextTask }) }
      | .runNextTask => some flatDrive.runNextTask
  | .cancellation task =>
      if task.phase = .runNextTask then some flatDrive.runNextTask
      else some { flatDrive with task := some (.cancellation task.advance) }
  | .closure task =>
      if task.phase = .finishDriveClosure then some { flatDrive with isClosed := true }
      else some { flatDrive with task := some (.closure task.advance) }
  | _ => none

def manual (event : ManualEvent) : DriveTask → Option FlatDrive
  | .manualModification task =>
      match event, task.finishing with
      | .advanceFinishing, some .runNextTask => some flatDrive.runNextTask
      | event, _ =>
          (task.handle event).map fun task =>
            { flatDrive with task := some (.manualModification task) }
  | _ => none

/-- The session thread starts the next task, or the task takes a step. -/
def taskStep (event : TaskEvent) : DriveTask → Option FlatDrive
  | .modification task =>
      if event matches .runSessionJob ∧ task.sessionJobs.head? = some .runNextTask then
        some flatDrive.runNextTask
      else
        (ModifyDriveTask.modifyDriveSystem.step task event).map fun task =>
          { flatDrive with task := some (.modification task) }
  | .stream task =>
      if event matches .runSessionJob ∧ task.sessionJobs.head? = some .runNextTask then
        some flatDrive.runNextTask
      else
        (StreamTask.streamSystem.step task event).map fun task =>
          { flatDrive with task := some (.stream task) }
  | .synchronization task =>
      if event matches .runSessionJob ∧ task.sessionJobs.head? = some .runNextTask then
        some flatDrive.runNextTask
      else
        (SynchronizationTask.synchronizationSystem.step task event).map fun task =>
          { flatDrive with task := some (.synchronization task) }
  | _ => none

/-- What an event does to the drive. An event that cannot happen has no result. -/
def handle : DriveEvent → Option FlatDrive
  | .task event =>
      if event.isInternal then flatDrive.task.bind (flatDrive.taskStep event) else none
  | .loaded loaded =>
      match flatDrive.task with
      | some (.initialization task) =>
          if task.phase = .initializeDrive then
            some { flatDrive with task := some (.initialization (task.initializeDrive loaded)) }
          else none
      | _ => none
  | .advance => flatDrive.task.bind flatDrive.advance
  | .manual event => flatDrive.task.bind (flatDrive.manual event)
  | .opinionReceived anOpinion => some (flatDrive.onOpinionReceived anOpinion)
  | .approvalTransactionPublished transaction =>
      some (flatDrive.onApprovalTransactionHasBeenPublished transaction)
  | .approvalTransactionFailed transactionHash =>
      some (flatDrive.onApprovalTransactionHasFailed transactionHash)
  | .startModifyDrive request => some (flatDrive.startModifyDrive request)
  | .startStream request => some (flatDrive.startStream request)
  | .cancelModifyDrive request => some (flatDrive.cancelModifyDrive request)
  | .startDriveClosing request => some (flatDrive.startDriveClosing request)
  | .manualSynchronize request => some (flatDrive.manualSynchronize request)
  | .initiateManualModifications request => some (flatDrive.initiateManualModifications request)
  | .chunkInfoReceived chunkInfo isVerified =>
      some { flatDrive with
        task := flatDrive.task.map (·.streamEvent (.chunkInfoReceived chunkInfo isVerified)) }
  | .finishStream finishStream =>
      some { flatDrive with
        task := flatDrive.task.map (·.streamEvent (.finishStream finishStream)) }
  | .setReplicators replicatorKeys =>
      some (flatDrive.mapDrive fun drive => { drive with allReplicators := replicatorKeys })
  | .setShardDonator replicatorKeys =>
      some (flatDrive.mapDrive fun drive => { drive with modifyDonatorShard := replicatorKeys })
  | .setMinReplicatorsNumber number =>
      some (flatDrive.mapDrive fun drive => { drive with minReplicatorsNumber := number })
  | .terminate => some flatDrive.terminate

/-- The program goes on: nothing has been dereferenced that is not there. -/
def isBroken : Bool := flatDrive.movedRequestIsRead || (flatDrive.task.bind (·.fault)).isSome

/-- The drive under everything that can happen to it until it is closed or has broken
    the program. -/
def flatDriveSystem : Transition FlatDrive DriveEvent where
  step flatDrive event :=
    if flatDrive.isBroken || flatDrive.isClosed then none else flatDrive.handle event

end FlatDrive

end SiriusDrive
