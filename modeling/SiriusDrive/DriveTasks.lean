import SiriusDrive.ModifyDriveTask
import SiriusDrive.StreamTask
import SiriusDrive.SynchronizationTask

/-! # The tasks of a drive

A drive runs one task at a time. Besides the tasks that update the drive there are
those that initialize it, that drop a cancelled modification, that close it, and
that serve the requests of a manual modification. These go through a chain of
steps; what matters to the drive is where in the chain they are.
-/

namespace SiriusDrive

/-! ## Initialization -/

/-- `CompletedModification`. -/
structure CompletedModification where
  modificationId : Hash256
  isCancelled : Bool
  deriving Repr, DecidableEq

/-- What `initialize` finds on the disk. -/
structure LoadedDrive where
  fsTree : FsTree
  rootHash : InfoHash
  lastApprovedModification : Hash256
  singleTx : Option ApprovalTransactionInfo
  opinionController : ModifyOpinionController

inductive InitializePhase where
  | initializeDrive
  | onInitialized
  | clearSandbox
  | runNextTask
  deriving Repr, DecidableEq

/-- `InitializeDriveTask`. -/
structure InitializeDriveTask where
  drive : DriveParams
  completedModifications : List CompletedModification
  cancelRequests : List ModificationCancelRequest := []
  singleTx : Option ApprovalTransactionInfo := none
  initialized : Bool := false
  phase : InitializePhase := .initializeDrive

namespace InitializeDriveTask

variable (task : InitializeDriveTask)

/-- `addFilesToSession`: a torrent for every file of the tree. -/
def addFilesToSession (drive : DriveParams) (hashes : List InfoHash) : DriveParams :=
  hashes.foldl (fun drive hash =>
    if hash = 0 then drive
    else
      { drive with
        nextHandle := drive.nextHandle + 1
        torrentHandleMap := drive.torrentHandleMap.insertIfNew hash
          { ltHandle := some drive.nextHandle } }) drive

/-- `initialize`. -/
def initializeDrive (loaded : LoadedDrive) : InitializeDriveTask :=
  let drive := addFilesToSession
    { task.drive with
      fsTree := loaded.fsTree
      rootHash := loaded.rootHash
      lastApprovedModification := loaded.lastApprovedModification
      opinionController := loaded.opinionController } loaded.fsTree.fileHashes
  { task with
    drive := { drive with
      fsTreeLtHandle := some drive.nextHandle
      nextHandle := drive.nextHandle + 1 }
    singleTx := loaded.singleTx
    phase := .onInitialized }

/-- `shouldCancelModify`: before the end of the initialization requests are kept. -/
def shouldCancelModify (cancelRequest : ModificationCancelRequest) : InitializeDriveTask × Bool :=
  if task.initialized then
    (task, task.drive.opinionController.notApprovedModificationId =
      cancelRequest.modifyTransactionHash)
  else ({ task with cancelRequests := task.cancelRequests ++ [cancelRequest] }, false)

end InitializeDriveTask

/-! ## Cancellation -/

inductive CancelPhase where
  | saveUploads
  | onCumulativeUploadsDisapproved
  | removeTorrents
  | clearDrive
  | cancelModificationIsCompleted
  | clearSandbox
  | runNextTask
  deriving Repr, DecidableEq

/-- `CancelModificationDriveTask`. -/
structure CancelModificationDriveTask where
  drive : DriveParams
  request : ModificationCancelRequest
  phase : CancelPhase := .saveUploads

namespace CancelModificationDriveTask

/-- The constructor and `run`. -/
def start (request : ModificationCancelRequest) (drive : DriveParams) :
    CancelModificationDriveTask where
  drive := { drive with
    opinionController := drive.opinionController.disapproveCumulativeUploads
    modifyTrafficMap := ∅ }
  request := request

/-- The next step; the last one ends the task. -/
def advance (task : CancelModificationDriveTask) : CancelModificationDriveTask :=
  match task.phase with
  | .saveUploads =>
      { task with
        drive := { task.drive with
          restartValues := { task.drive.restartValues with
            notApprovedCumulativeUploads :=
              some task.drive.opinionController.notApprovedCumulativeUploads } }
        phase := .onCumulativeUploadsDisapproved }
  | .onCumulativeUploadsDisapproved =>
      { task with
        drive := { task.drive with
          torrentHandleMap := DriveParams.markFilesOf task.drive.torrentHandleMap task.drive.fsTree }
        phase := .removeTorrents }
  | .removeTorrents => { task with phase := .clearDrive }
  | .clearDrive =>
      { task with
        drive := { task.drive with
          torrentHandleMap := DriveParams.eraseUnused task.drive.torrentHandleMap }
        phase := .cancelModificationIsCompleted }
  | .cancelModificationIsCompleted => { task with phase := .clearSandbox }
  | .clearSandbox | .runNextTask => { task with phase := .runNextTask }

end CancelModificationDriveTask

/-! ## Closure -/

inductive ClosePhase where
  | removeTorrents
  | removeAllDriveData
  | finishDriveClosure
  deriving Repr, DecidableEq

/-- `CloseDriveDriveTask`. -/
structure CloseDriveDriveTask where
  drive : DriveParams
  request : DriveClosureRequest
  phase : ClosePhase := .removeTorrents

/-- The next step. The replicator drops the drive with the last one. -/
def CloseDriveDriveTask.advance (task : CloseDriveDriveTask) : CloseDriveDriveTask :=
  match task.phase with
  | .removeTorrents => { task with phase := .removeAllDriveData }
  | .removeAllDriveData | .finishDriveClosure => { task with phase := .finishDriveClosure }

/-! ## Manual modifications -/

/-- The steps of `applyStorageModifications`. -/
inductive ApplyPhase where
  | addNewTorrentsToSession
  | onNewTorrentAdded
  | removeTorrents
  | onUnusedTorrentsDeleted
  | onAppliedStorageModifications
  deriving Repr, DecidableEq

/-- The steps of `finishTask`. -/
inductive ManualFinishPhase where
  | clearTrash
  | closeFiles
  | closeStreams
  | clearSandbox
  | runNextTask
  deriving Repr, DecidableEq

/-- `InitiateModificationsRequest`, without its callback. -/
structure InitiateModificationsRequest where
  modificationIdentifier : Hash256
  deriving Repr, DecidableEq

/-- `ManualModificationsTask`, without the content of its sandbox. -/
structure ManualModificationsTask where
  drive : DriveParams
  request : InitiateModificationsRequest
  isExecutingQuery : Bool := false
  taskIsInterrupted : Bool := false
  taskIsFinished : Bool := false
  lowerSandboxFsTree : Option FsTree := none
  sandboxRootHash : Option InfoHash := none
  sandboxFsTreeHandle : Option LtHandle := none
  applying : Option ApplyPhase := none
  finishing : Option ManualFinishPhase := none

/-- What the requests of a manual modification do to their task. -/
inductive ManualEvent where
  | queryStarted
  | queryFinished
  /-- `onAppliedSandboxModifications`, with the tree of the modifications if they succeeded. -/
  | sandboxModificationsApplied (fsTree : Option FsTree)
  /-- `computeSandboxHash`. -/
  | storageHashEvaluated (fsTree : FsTree) (rootHash : InfoHash)
  | applyStorageModifications (success : Bool)
  | advanceApplying
  | advanceFinishing

namespace ManualModificationsTask

variable (task : ManualModificationsTask)

/-- The constructor and `run`. -/
def start (request : InitiateModificationsRequest) (drive : DriveParams) :
    ManualModificationsTask :=
  { drive, request, lowerSandboxFsTree := some drive.fsTree }

def finishTask : ManualModificationsTask :=
  if task.taskIsFinished then task
  else { task with taskIsFinished := true, finishing := some .clearTrash }

def terminate : ManualModificationsTask :=
  if task.taskIsInterrupted then task
  else
    let task := { task with taskIsInterrupted := true }
    if !task.isExecutingQuery then task.finishTask else task

def queryFinished : ManualModificationsTask :=
  let task := { task with isExecutingQuery := false }
  if task.taskIsInterrupted then task.finishTask else task

def onAppliedSandboxModifications (fsTree : Option FsTree) : ManualModificationsTask :=
  if task.taskIsInterrupted then task.queryFinished
  else { task with
    isExecutingQuery := false
    lowerSandboxFsTree := fsTree.or task.lowerSandboxFsTree }

/-- `computeSandboxHash`, with the tree whose new files have got their hashes. The uploads
    that are not approved get the name of the modification. -/
def computeSandboxHash (fsTree : FsTree) (rootHash : InfoHash) : ManualModificationsTask :=
  let controller := task.drive.opinionController
  let notApprovedCumulativeUploads :=
    { controller.notApprovedCumulativeUploads with
      modificationId := task.request.modificationIdentifier }
  { task with
    drive := { task.drive with
      opinionController := { controller with notApprovedCumulativeUploads }
      restartValues := { task.drive.restartValues with
        notApprovedCumulativeUploads := some notApprovedCumulativeUploads } }
    lowerSandboxFsTree := some fsTree
    sandboxRootHash := some rootHash }

/-- `onAppliedStorageModifications`. -/
def onAppliedStorageModifications : Option ManualModificationsTask :=
  match task.lowerSandboxFsTree, task.sandboxRootHash, task.sandboxFsTreeHandle with
  | some fsTree, some rootHash, some fsTreeHandle =>
      some { task with
        drive := { task.drive with
          fsTree, rootHash
          fsTreeLtHandle := some fsTreeHandle
          lastApprovedModification := task.request.modificationIdentifier }
        lowerSandboxFsTree := none
        applying := none }.finishTask
  | _, _, _ => none

/-- The next step of `applyStorageModifications`. -/
def advanceApplying : ApplyPhase → Option ManualModificationsTask
  | .addNewTorrentsToSession =>
      let hashes := (task.lowerSandboxFsTree.map Folder.fileHashes).getD []
      some { task with
        drive := InitializeDriveTask.addFilesToSession task.drive
          (hashes.filter (!task.drive.torrentHandleMap.contains ·))
        applying := some .onNewTorrentAdded }
  | .onNewTorrentAdded =>
      let hashes := (task.lowerSandboxFsTree.map Folder.fileHashes).getD []
      some { task with
        drive := { task.drive with
          torrentHandleMap := DriveParams.markUsedFiles task.drive.torrentHandleMap hashes }
        applying := some .removeTorrents }
  | .removeTorrents => some { task with applying := some .onUnusedTorrentsDeleted }
  | .onUnusedTorrentsDeleted =>
      some { task with
        drive := { task.drive with
          -- `saveRestartValuesForManualTask`
          restartValues := { task.drive.restartValues with
            approvedCumulativeUploads := some task.drive.opinionController.approvedCumulativeUploads
            approvedModification := some task.request.modificationIdentifier }
          nextHandle := task.drive.nextHandle + 1
          torrentHandleMap := DriveParams.eraseUnused task.drive.torrentHandleMap }
        sandboxFsTreeHandle := some task.drive.nextHandle
        applying := some .onAppliedStorageModifications }
  | .onAppliedStorageModifications => task.onAppliedStorageModifications

/-- The next step of `finishTask`. -/
def advanceFinishing : ManualFinishPhase → ManualModificationsTask
  | .clearTrash => { task with finishing := some .closeFiles }
  | .closeFiles => { task with isExecutingQuery := true, finishing := some .closeStreams }
  | .closeStreams => { task with finishing := some .clearSandbox }
  | .clearSandbox | .runNextTask => { task with finishing := some .runNextTask }

def handle : ManualEvent → Option ManualModificationsTask
  | .queryStarted =>
      if task.taskIsInterrupted || task.isExecutingQuery then none
      else some { task with isExecutingQuery := true }
  | .queryFinished =>
      if !task.isExecutingQuery || task.taskIsFinished then none else some task.queryFinished
  | .sandboxModificationsApplied fsTree =>
      if !task.isExecutingQuery || task.taskIsFinished then none
      else some (task.onAppliedSandboxModifications fsTree)
  | .storageHashEvaluated fsTree rootHash =>
      if !task.isExecutingQuery then none else some (task.computeSandboxHash fsTree rootHash)
  | .applyStorageModifications success =>
      if task.taskIsInterrupted || task.isExecutingQuery then none
      else if success then some { task with applying := some .addNewTorrentsToSession }
      else some task.finishTask
  | .advanceApplying => task.applying.bind task.advanceApplying
  | .advanceFinishing => task.finishing.map task.advanceFinishing

end ManualModificationsTask

/-! ## The running task -/

/-- `m_task`: the classes derived from `DriveTaskBase` other than the verification. -/
inductive DriveTask where
  | initialization (task : InitializeDriveTask)
  | modification (task : ModifyDriveTask)
  | stream (task : StreamTask)
  | synchronization (task : SynchronizationTask)
  | cancellation (task : CancelModificationDriveTask)
  | closure (task : CloseDriveDriveTask)
  | manualModification (task : ManualModificationsTask)

namespace DriveTask

def drive : DriveTask → DriveParams
  | .initialization task => task.drive
  | .modification task => task.drive
  | .stream task => task.drive
  | .synchronization task => task.drive
  | .cancellation task => task.drive
  | .closure task => task.drive
  | .manualModification task => task.drive

def mapDrive (f : DriveParams → DriveParams) : DriveTask → DriveTask
  | .initialization task => .initialization { task with drive := f task.drive }
  | .modification task => .modification (task.base fun base => { base with drive := f base.drive })
  | .stream task => .stream (task.base fun base => { base with drive := f base.drive })
  | .synchronization task =>
      .synchronization (task.base fun base => { base with drive := f base.drive })
  | .cancellation task => .cancellation { task with drive := f task.drive }
  | .closure task => .closure { task with drive := f task.drive }
  | .manualModification task => .manualModification { task with drive := f task.drive }

/-- `onApprovalTxPublished`: true if a catching-up task has to follow. -/
def onApprovalTxPublished (transaction : PublishedModificationApprovalTransactionInfo) :
    DriveTask → DriveTask × Bool
  | .initialization task => (.initialization task, true)
  | .modification task =>
      let (task, shouldCatchUp) := task.onApprovalTxPublished transaction
      (.modification task, shouldCatchUp)
  | .stream task =>
      let (task, shouldCatchUp) := task.onApprovalTxPublished transaction
      (.stream task, shouldCatchUp)
  | .synchronization task =>
      let (task, shouldCatchUp) := task.onApprovalTxPublished
      (.synchronization task, shouldCatchUp)
  -- inherited from `DriveTaskBase`
  | .cancellation task => (.cancellation task, false)
  | .closure task => (.closure task, false)
  | .manualModification task => (.manualModification task.terminate, true)

/-- `onApprovalTxFailed`. -/
def onApprovalTxFailed (transactionHash : Hash256) : DriveTask → DriveTask
  | .modification task => .modification (task.onApprovalTxFailed transactionHash)
  | task => task

/-- `processedModifyOpinion`: false if the opinion is left to the drive. -/
def processedModifyOpinion (anOpinion : ApprovalTransactionInfo) : DriveTask → DriveTask × Bool
  | .modification task =>
      let (task, processed) := task.processedModifyOpinion anOpinion
      (.modification task, processed)
  | .stream task =>
      let (task, processed) := task.processedModifyOpinion anOpinion
      (.stream task, processed)
  | task => (task, false)

/-- `shouldCancelModify`: true if a cancellation has to follow. -/
def shouldCancelModify (cancelRequest : ModificationCancelRequest) : DriveTask → DriveTask × Bool
  | .initialization task =>
      let (task, shouldCancel) := task.shouldCancelModify cancelRequest
      (.initialization task, shouldCancel)
  | .modification task =>
      let (task, shouldCancel) := task.shouldCancelModify cancelRequest
      (.modification task, shouldCancel)
  | .stream task =>
      let (task, shouldCancel) := task.shouldCancelModify cancelRequest
      (.stream task, shouldCancel)
  | .synchronization task => (.synchronization task, task.shouldCancelModify cancelRequest)
  | task => (task, false)

/-- `onDriveClose`. -/
def onDriveClose : DriveTask → DriveTask
  | .modification task => .modification task.onDriveClose
  | .stream task => .stream task.onDriveClose
  | .synchronization task => .synchronization task.onDriveClose
  | .manualModification task => .manualModification task.terminate
  | task => task

/-- `manualSynchronize`: false if the request is refused. -/
def manualSynchronize : DriveTask → DriveTask × Bool
  | .modification task => (.modification task.manualSynchronize, true)
  | .stream task => (.stream task.manualSynchronize, true)
  | .synchronization task => (.synchronization task.manualSynchronize, true)
  | .cancellation task => (.cancellation task, true)
  | .manualModification task => (.manualModification task.terminate, true)
  | task => (task, false)

/-- `onModificationInitiated`, `onStreamStarted` and `onManualModificationInitiated`. -/
def onRequestQueued : DriveTask → DriveTask
  | .manualModification task => .manualModification task.terminate
  | task => task

/-- `terminate`, while the replicator is being stopped. -/
def terminate (task : DriveTask) : DriveTask :=
  match task.mapDrive fun drive => { drive with replicatorIsStopped := true } with
  | .modification task => .modification task.terminate
  | .stream task => .stream task.terminate
  | .synchronization task => .synchronization task.terminate
  | .manualModification task => .manualModification task.terminate
  | task => task

/-- A message or a finish transaction of a stream. -/
def streamEvent (event : TaskEvent) : DriveTask → DriveTask
  | .stream task => .stream ((task.handle event).getD task)
  | task => task

/-- How the task has broken the program. -/
def fault : DriveTask → Option Fault
  | .modification task => task.fault
  | .stream task => task.fault
  | .synchronization task => task.fault
  | _ => none

end DriveTask

end SiriusDrive
