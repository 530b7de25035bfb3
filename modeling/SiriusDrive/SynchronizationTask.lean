import Mathlib.Data.List.Sort
import SiriusDrive.Lib.Transition
import SiriusDrive.TaskEvents

/-! # Tasks that bring the drive to a published root hash

`SynchronizationTaskBase` downloads the fs tree of a root hash and the files of
the tree that are missing. It is run to catch up with an approval and to follow a
manual modification.
-/

namespace SiriusDrive

/-- The classes derived from `SynchronizationTaskBase`. -/
inductive SynchronizationKind where
  | catchingUp
  | manualSynchronization
  deriving Repr, DecidableEq

/-- `SynchronizationTaskBase`, with the request of the derived class. -/
structure SynchronizationTask extends UpdateDriveTaskBase where
  kind : SynchronizationKind
  /-- `getModificationTransactionHash()`. -/
  modificationTransactionHash : Hash256
  /-- `getRootHash()`. -/
  requestedRootHash : InfoHash
  /-- The files of the tree that are not in the drive folder. -/
  missingFiles : List InfoHash := []
  /-- `m_catchingUpFileSet` from `m_catchingUpFileIt` on. -/
  catchingUpFileSet : List InfoHash := []

namespace SynchronizationTask

variable (task : SynchronizationTask)

/-- Run a function of `UpdateDriveTaskBase`. -/
def base (f : UpdateDriveTaskBase → UpdateDriveTaskBase) : SynchronizationTask :=
  { task with toUpdateDriveTaskBase := f task.toUpdateDriveTaskBase }

def createCatchingUp (request : CatchingUpRequest) (drive : DriveParams) : SynchronizationTask where
  drive := drive
  kind := .catchingUp
  modificationTransactionHash := request.modifyTransactionHash
  requestedRootHash := request.rootHash

def createManualSynchronization (request : SynchronizationRequest) (drive : DriveParams) :
    SynchronizationTask where
  drive := drive
  kind := .manualSynchronization
  modificationTransactionHash := request.modificationIdentifier
  requestedRootHash := request.rootHash

/-- Start a download without a limit. -/
def download (use : DownloadUse) (infoHash : InfoHash) : SynchronizationTask :=
  task.base fun base =>
    let (base, handle) := base.download use infoHash 0
    { base with downloadingLtHandle := some handle }

def run : SynchronizationTask :=
  if task.drive.lastApprovedModification = task.modificationTransactionHash then
    task.base (·.finishTask)
  else if task.requestedRootHash = task.drive.rootHash then
    task.base (·.executeOnBackgroundThread .copyFsTree)
  else task.download .fsTree task.requestedRootHash

/-- The sizes of the sandbox, after which the root hash is announced. -/
def modifyDriveInSandbox (metaFilesSize sandboxDriveSize fsTreeSize : Nat) : SynchronizationTask :=
  task.base fun base =>
    { base with metaFilesSize, sandboxDriveSize, fsTreeSize }.executeOnSessionThread
      .myRootHashIsCalculated

/-- The job of `run` for a drive that already has the root hash. -/
def copyFsTree (metaFilesSize sandboxDriveSize fsTreeSize : Nat) : SynchronizationTask :=
  (task.base fun base =>
    { base with
      sandboxRootHash := some base.drive.rootHash
      sandboxFsTree := some base.drive.fsTree }).modifyDriveInSandbox
    metaFilesSize sandboxDriveSize fsTreeSize

def fsTreeDownloaded (infoHash : InfoHash) : SynchronizationTask :=
  task.base fun base =>
    { base with
      sandboxRootHash := some infoHash
      fsTreeOrActionListHandle := base.downloadingLtHandle
      downloadingLtHandle := none }.executeOnBackgroundThread .deserializeFsTree

/-- The job of `fsTreeDownloaded`: a tree that cannot be read is only logged. -/
def deserializeFsTree : Option FsTree → SynchronizationTask
  | some fsTree =>
      task.base fun base =>
        { base with sandboxFsTree := some fsTree }.executeOnSessionThread .createUnusedFileList
  | none => task.base fun base => { base with sandboxFsTree := some default }

def createUnusedFileList : SynchronizationTask :=
  match task.sandboxFsTree, task.fsTreeOrActionListHandle with
  | some fsTree, some fsTreeHandle =>
      let torrentHandleMap := DriveParams.markFilesOf task.drive.torrentHandleMap fsTree
      task.base fun base =>
        { base with
          drive := { base.drive with torrentHandleMap }
          fsTreeOrActionListHandle := none }.removeTorrentsFromSession
          (DriveParams.unusedHandles torrentHandleMap ++ [fsTreeHandle]) .removeUnusedFiles
  | _, _ => task.base (·.break_ .invalidDereference)

/-- `removeUnusedFiles`, with what is then missing in the drive folder. -/
def removeUnusedFiles (missingFiles : List InfoHash) : SynchronizationTask :=
  { task with missingFiles }.base fun base =>
    { base with
      drive := { base.drive with
        torrentHandleMap := DriveParams.eraseUnused base.drive.torrentHandleMap }
      }.executeOnSessionThread .unusedFilesRemoved

def downloadMissingFiles : SynchronizationTask :=
  match task.catchingUpFileSet with
  | [] =>
      task.base fun base =>
        { base with downloadingLtHandle := none }.executeOnBackgroundThread .modifyDriveInSandbox
  | missingFileHash :: catchingUpFileSet =>
      let task := { task with catchingUpFileSet }.download .missingFile missingFileHash
      task.base fun base =>
        { base with
          drive := { base.drive with
            torrentHandleMap := base.drive.torrentHandleMap.insert missingFileHash
              { ltHandle := base.downloadingLtHandle, isUsed := false } } }

/-- `startDownloadMissingFiles`: the missing files of the tree as a set. -/
def startDownloadMissingFiles : SynchronizationTask :=
  match task.sandboxFsTree with
  | none => task.base (·.break_ .invalidDereference)
  | some fsTree =>
      { task with
        catchingUpFileSet :=
          (fsTree.fileHashes.filter (· ∈ task.missingFiles)).dedup.insertionSort (· ≤ ·)
        }.downloadMissingFiles

/-- The job posted by `removeUnusedFiles`. -/
def unusedFilesRemoved : SynchronizationTask :=
  if task.taskIsInterrupted then task.base (·.finishTask) else task.startDownloadMissingFiles

/-- The notification `download_complete` of a torrent. -/
def downloadCompleted (torrent : Torrent) : SynchronizationTask :=
  match torrent.use with
  | .fsTree => task.fsTreeDownloaded torrent.infoHash
  | _ => task.downloadMissingFiles

/-- `SynchronizationTaskBase::myOpinionIsCreated`. -/
def myOpinionIsCreated : SynchronizationTask :=
  if task.taskIsInterrupted then task.base (·.finishTask)
  else
    task.base fun base =>
      { base with sandboxCalculated := true }.startSynchronizingDriveWithSandbox

/-- `myOpinionIsCreated` of the derived classes: catching up sends the opinion first. -/
def myOpinionIsCreatedOverride : SynchronizationTask :=
  match task.kind, task.myOpinion with
  | .catchingUp, some myOpinion =>
      (task.base fun base =>
        { base with
          drive := base.drive.sendSingleApprovalTransaction myOpinion }).myOpinionIsCreated
  | .catchingUp, none => task.base (·.break_ .invalidDereference)
  | .manualSynchronization, _ => task.myOpinionIsCreated

def continueSynchronizingDriveWithSandbox : FileSystemResult → SynchronizationTask
  | .done =>
      (task.base fun base =>
        { base with
          drive := { base.drive with
            restartValues := { base.drive.restartValues with
              approvedModification := some task.modificationTransactionHash }
            torrentHandleMap := DriveParams.eraseUnused base.drive.torrentHandleMap
            } }.addFsTreeTorrent).base (·.executeOnSessionThread .synchronizationIsCompleted)
  | .exception => task.base (·.finishTask)

/-- `breakTorrentDownloadAndRunNextTask`; `tryBreakTask` does nothing here. -/
def breakTask : SynchronizationTask := task.base (·.breakTorrentDownloadAndRunNextTask id)

/-- `onApprovalTxPublished`: true if a catching-up task has to follow. -/
def onApprovalTxPublished : SynchronizationTask × Bool :=
  match task.kind with
  | .catchingUp => if task.taskIsInterrupted then (task, true) else (task.breakTask, true)
  -- the source takes this for impossible
  | .manualSynchronization => (task, false)

def shouldCancelModify (cancelRequest : ModificationCancelRequest) : Bool :=
  match task.kind with
  | .catchingUp =>
      cancelRequest.modifyTransactionHash = task.drive.opinionController.notApprovedModificationId
  | .manualSynchronization => false

def onDriveClose : SynchronizationTask := if task.taskIsInterrupted then task else task.breakTask

def manualSynchronize : SynchronizationTask := if task.taskIsInterrupted then task else task.breakTask

/-- `terminate`, while the replicator is being stopped. -/
def terminate : SynchronizationTask :=
  (task.base fun base =>
    { base with drive := { base.drive with replicatorIsStopped := true } }).breakTask

def runSessionJob : SessionJob → Option SynchronizationTask
  | .createUnusedFileList => some task.createUnusedFileList
  | .unusedFilesRemoved => some task.unusedFilesRemoved
  | .myRootHashIsCalculated =>
      some (task.base (·.myRootHashIsCalculated task.modificationTransactionHash 0))
  | .onCumulativeUploadsUpdated =>
      some (task.base (·.onCumulativeUploadsUpdated task.modificationTransactionHash))
  | .myOpinionIsCreated => some task.myOpinionIsCreatedOverride
  | .synchronizationIsCompleted =>
      some (task.base (·.synchronizationIsCompleted task.modificationTransactionHash))
  | .modifyIsCompleted => some (task.base (·.modifyIsCompleted task.modificationTransactionHash))
  | .downloadNotification handle =>
      match task.findTorrent handle with
      | some torrent => some (task.downloadCompleted torrent)
      | none => none
  | _ => none

def runBackgroundJob : BackgroundJob → BackgroundResult → Option SynchronizationTask
  | .save job, .fileSystem .done => some (task.base (·.runSaveJob job))
  | .continueSynchronizingDriveWithSandbox, .fileSystem result =>
      some (task.continueSynchronizingDriveWithSandbox result)
  | .copyFsTree, .sizes metaFilesSize sandboxDriveSize fsTreeSize =>
      some (task.copyFsTree metaFilesSize sandboxDriveSize fsTreeSize)
  | .modifyDriveInSandbox, .sizes metaFilesSize sandboxDriveSize fsTreeSize =>
      some (task.modifyDriveInSandbox metaFilesSize sandboxDriveSize fsTreeSize)
  | .deserializeFsTree, .fsTree fsTree => some (task.deserializeFsTree fsTree)
  | .removeUnusedFiles _, .missingFiles missingFiles => some (task.removeUnusedFiles missingFiles)
  | _, _ => none

/-- A download that fails is not handled. -/
def onMetadataReceived (torrent : Torrent) (totalSize : Nat) (isValid : Bool) : SynchronizationTask :=
  if isValid && torrent.withinLimit totalSize then
    task.base (·.setTorrent
      { torrent with uploadedDataSize := totalSize, state := .metadataReceived })
  else task.base (·.setTorrent { torrent with state := .failed })

/-- What an event does to the task. An event that cannot happen has no result. -/
def handle : TaskEvent → Option SynchronizationTask
  | .runSessionJob =>
      match task.popSessionJob with
      | some (job, base) => (task.base fun _ => base).runSessionJob job
      | none => none
  | .runBackgroundJob result =>
      match task.popBackgroundJob with
      | some (job, base) => (task.base fun _ => base).runBackgroundJob job result
      | none => none
  | .torrentsRemoved index =>
      match task.popRemoval index with
      | some (removal, base) => some (task.base fun _ => base.onTorrentsRemoved removal)
      | none => none
  | .metadataReceived handle totalSize isValid =>
      match task.activeTorrent handle .added with
      | some torrent => some (task.onMetadataReceived torrent totalSize isValid)
      | none => none
  | .torrentFinished handle =>
      match task.activeTorrent handle .metadataReceived with
      | some torrent => some (task.base (·.torrentFinished torrent))
      | none => none
  | .pieceReceived uploader size => some (task.base (·.addTraffic uploader size))
  -- the task has no timers
  | .modifyOpinionTimerExpired | .shareMyOpinionTimerExpired => none
  | .approvalTxPublished _ => some task.onApprovalTxPublished.1
  | .driveClose => some task.onDriveClose
  | .manualSynchronize => some task.manualSynchronize
  | .terminate => some task.terminate
  | .setReplicators replicatorKeys => some (task.base (·.setReplicators replicatorKeys))
  | .setMinReplicatorsNumber number => some (task.base (·.setMinReplicatorsNumber number))
  -- what `DriveTaskBase` ignores, and the cancel request, which is only answered
  | .opinionReceived _ | .approvalTxFailed _ | .cancelModify _ | .chunkInfoReceived ..
  | .finishStream _ => some task

/-- The task under everything that can happen to it until it has broken the program. -/
def synchronizationSystem : Transition SynchronizationTask TaskEvent where
  step task event := if task.fault.isSome then none else task.handle event

end SynchronizationTask

end SiriusDrive
