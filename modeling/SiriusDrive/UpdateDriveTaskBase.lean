import SiriusDrive.DriveParams

/-! # Tasks that update the drive

`UpdateDriveTaskBase` carries a new version of the drive through its steps: the
sandbox is calculated, an opinion is formed and, once the version is approved,
the drive is brought to it. The steps alternate between the session thread and
the background thread; each thread runs the jobs posted to it in order.
-/

namespace SiriusDrive

/-- What a task has posted to the session thread. -/
inductive SessionJob where
  | modifyIsCompletedWithError (errorText : String) (status : ModificationStatus)
  | downloadMissingFiles
  | myRootHashIsCalculated
  | onCumulativeUploadsUpdated
  | myOpinionIsCreated
  | synchronizationIsCompleted
  | modifyIsCompleted
  | createUnusedFileList
  | unusedFilesRemoved
  | startNextChunk
  | requestMissingChunkInfo (chunkIndex : Nat)
  /-- The notification of a completed download. -/
  | downloadNotification (handle : LtHandle)
  | runNextTask
  deriving Repr, DecidableEq

/-- The jobs every task may post to the background thread: they save a value and
    post the next job of the session thread. -/
inductive SaveJob where
  | notApprovedCumulativeUploads
  | singleApprovalTransaction
  | approvedCumulativeUploads (modificationId : Hash256)
  | torrentFile (handle : LtHandle)
  /-- The end of `finishTask`. -/
  | clearSandbox
  deriving Repr, DecidableEq

/-- What a task has posted to the background thread. -/
inductive BackgroundJob where
  | save (job : SaveJob)
  | continueSynchronizingDriveWithSandbox
  | prepareDownloadMissingFiles
  | modifyFsTreeInSandbox
  /-- The sandbox becomes a copy of the drive. -/
  | copyDriveToSandbox
  /-- The drive already has the root hash it is to catch up with. -/
  | copyFsTree
  | deserializeFsTree
  | removeUnusedFiles (filesToRemove : List InfoHash)
  | modifyDriveInSandbox
  | parseFinishInfoFile
  | checkFinishCondition
  deriving Repr, DecidableEq

/-- What is to happen when torrents have been removed from the session. -/
inductive TorrentsRemoved where
  /-- `breakTorrentDownloadAndRunNextTask`. -/
  | finishTask
  /-- `finishTask` with the torrent of the action list or of the fs tree. -/
  | clearSandbox
  /-- `startSynchronizingDriveWithSandbox`. -/
  | continueSynchronizing
  /-- `createUnusedFileList`. -/
  | removeUnusedFiles
  deriving Repr, DecidableEq

/-- What a torrent is downloaded for. -/
inductive DownloadUse where
  | actionList
  | missingFile
  | fsTree
  | chunk
  | finishInfo
  deriving Repr, DecidableEq

inductive TorrentState where
  | added
  | metadataReceived
  | finished
  | failed
  deriving Repr, DecidableEq

/-- A torrent a task has started to download. -/
structure Torrent where
  handle : LtHandle
  use : DownloadUse
  infoHash : InfoHash
  downloadLimit : Nat
  uploadedDataSize : Nat := 0
  state : TorrentState := .added
  isRemoved : Bool := false
  deriving Repr, DecidableEq

/-- The limit check of the session, which reads the limit as a signed number. -/
def Torrent.withinLimit (torrent : Torrent) (totalSize : Nat) : Bool :=
  torrent.downloadLimit = 0 || (torrent.downloadLimit < 2 ^ 63 && totalSize ≤ torrent.downloadLimit)

/-- How the program breaks. -/
inductive Fault where
  /-- An exception leaves a thread function. -/
  | uncaughtException
  /-- A null pointer, an empty optional or an end iterator is dereferenced. -/
  | invalidDereference
  deriving Repr, DecidableEq

/-- What is calculated for a sandbox: the tree, its root hash and the sizes. -/
structure SandboxResult where
  fsTree : FsTree
  rootHash : InfoHash
  metaFilesSize : Nat
  sandboxDriveSize : Nat
  fsTreeSize : Nat
  /-- The hashes of the files the actions have removed from the tree. -/
  removedFiles : List InfoHash := []

/-- `UpdateDriveTaskBase`, with the work the task has scheduled. -/
structure UpdateDriveTaskBase where
  drive : DriveParams
  myOpinion : Option ApprovalTransactionInfo := none
  status : ModificationStatus := .success
  sandboxFsTree : Option FsTree := none
  sandboxRootHash : Option InfoHash := none
  metaFilesSize : Nat := 0
  sandboxDriveSize : Nat := 0
  fsTreeSize : Nat := 0
  sandboxFsTreeLtHandle : Option LtHandle := none
  downloadingLtHandle : Option LtHandle := none
  fsTreeOrActionListHandle : Option LtHandle := none
  sandboxCalculated : Bool := false
  taskIsInterrupted : Bool := false
  sessionJobs : List SessionJob := []
  backgroundJobs : List BackgroundJob := []
  removals : List TorrentsRemoved := []
  torrents : List Torrent := []
  /-- `finishTask` has been called. -/
  taskIsFinished : Bool := false
  /-- `modifyIsCompleted` has been run. -/
  modificationIsCompleted : Bool := false
  fault : Option Fault := none

namespace UpdateDriveTaskBase

variable (task : UpdateDriveTaskBase)

def executeOnSessionThread (job : SessionJob) : UpdateDriveTaskBase :=
  { task with sessionJobs := task.sessionJobs ++ [job] }

def executeOnBackgroundThread (job : BackgroundJob) : UpdateDriveTaskBase :=
  { task with backgroundJobs := task.backgroundJobs ++ [job] }

def break_ (fault : Fault) : UpdateDriveTaskBase := { task with fault := some fault }

/-- `Session::removeTorrentsFromSession`: the end notification comes later. -/
def removeTorrentsFromSession (handles : List LtHandle) (endNotification : TorrentsRemoved) :
    UpdateDriveTaskBase :=
  { task with
    torrents := task.torrents.map fun torrent =>
      if torrent.handle ∈ handles then { torrent with isRemoved := true } else torrent
    removals := task.removals ++ [endNotification] }

/-- `Session::download`: a new torrent, whose handle is stored by the caller. -/
def download (use : DownloadUse) (infoHash : InfoHash) (downloadLimit : Nat) :
    UpdateDriveTaskBase × LtHandle :=
  ({ task with
      drive := { task.drive with nextHandle := task.drive.nextHandle + 1 }
      torrents := task.torrents ++ [{ handle := task.drive.nextHandle, use, infoHash, downloadLimit }] },
    task.drive.nextHandle)

def findTorrent (handle : LtHandle) : Option Torrent :=
  task.torrents.find? (·.handle = handle)

def setTorrent (torrent : Torrent) : UpdateDriveTaskBase :=
  { task with
    torrents := task.torrents.map fun other =>
      if other.handle = torrent.handle then torrent else other }

def finishTask : UpdateDriveTaskBase :=
  let task := { task with taskIsFinished := true }
  match task.fsTreeOrActionListHandle with
  | some torrentHandle =>
      { task with fsTreeOrActionListHandle := none }.removeTorrentsFromSession
        [torrentHandle] .clearSandbox
  | none => task.executeOnBackgroundThread (.save .clearSandbox)

/-- `breakTorrentDownloadAndRunNextTask`; `tryBreakTask` is virtual. -/
def breakTorrentDownloadAndRunNextTask
    (tryBreakTask : UpdateDriveTaskBase → UpdateDriveTaskBase) : UpdateDriveTaskBase :=
  let task := { task with taskIsInterrupted := true }
  match task.downloadingLtHandle with
  | some torrentHandle =>
      { task with downloadingLtHandle := none }.removeTorrentsFromSession
        [torrentHandle] .finishTask
  | none => tryBreakTask task

/-- `tryBreakTask` of the tasks that need an approval: a task that only waits for
    it is finished, any other one is left to its next step. -/
def tryBreakTask (modifyApproveTxReceived : Bool) : UpdateDriveTaskBase :=
  if task.sandboxCalculated && !modifyApproveTxReceived then task.finishTask else task

def myRootHashIsCalculated (modificationTransactionHash : Hash256)
    (toBeApprovedDownloadSize : Nat) : UpdateDriveTaskBase :=
  if task.taskIsInterrupted then task.finishTask
  else
    { task with
      drive := { task.drive with
        opinionController := task.drive.opinionController.updateCumulativeUploads
          task.drive.modifyTrafficMap modificationTransactionHash task.drive.modifyDonatorShard
          toBeApprovedDownloadSize
        modifyTrafficMap := ∅ } }.executeOnBackgroundThread
        (.save .notApprovedCumulativeUploads)

/-- The opinion `onCumulativeUploadsUpdated` forms for a root hash. -/
def formMyOpinion (modificationTransactionHash : Hash256) (rootHash : InfoHash) :
    ApprovalTransactionInfo where
  driveKey := task.drive.driveKey
  modifyTransactionHash := modificationTransactionHash
  rootHash := rootHash
  status := task.status
  fsTreeFileSize := task.fsTreeSize
  metaFilesSize := task.metaFilesSize
  driveSize := task.sandboxDriveSize
  opinions := [⟨task.drive.replicatorKey, task.drive.opinionController.fillOpinion⟩]
  opinions_ne := List.cons_ne_nil _ _

def onCumulativeUploadsUpdated (modificationTransactionHash : Hash256) : UpdateDriveTaskBase :=
  if task.taskIsInterrupted then task.finishTask
  else
    match task.sandboxRootHash with
    | none => task.break_ .invalidDereference
    | some rootHash =>
        { task with
          myOpinion := some (task.formMyOpinion modificationTransactionHash rootHash)
          }.executeOnBackgroundThread
            (.save .singleApprovalTransaction)

def synchronizationIsCompleted (modificationTransactionHash : Hash256) : UpdateDriveTaskBase :=
  { task with
    drive := { task.drive with
      opinionController := task.drive.opinionController.approveCumulativeUploads }
    }.executeOnBackgroundThread
      (.save (.approvedCumulativeUploads modificationTransactionHash))

def modifyIsCompleted (modificationTransactionHash : Hash256) : UpdateDriveTaskBase :=
  match task.sandboxRootHash, task.sandboxFsTree, task.sandboxFsTreeLtHandle with
  | some rootHash, some fsTree, some fsTreeLtHandle =>
      { task with
        drive := { task.drive with
          fsTree, rootHash
          fsTreeLtHandle := some fsTreeLtHandle
          lastApprovedModification := modificationTransactionHash }
        sandboxFsTree := none
        sandboxFsTreeLtHandle := none
        modificationIsCompleted := true }.finishTask
  | _, _, _ => task.break_ .invalidDereference

/-- `startSynchronizingDriveWithSandbox`: the first step after the approval. -/
def startSynchronizingDriveWithSandbox : UpdateDriveTaskBase :=
  match task.sandboxFsTree with
  | none => task.break_ .invalidDereference
  | some fsTree =>
      let torrentHandleMap := DriveParams.markFilesOf task.drive.torrentHandleMap fsTree
      { task with drive := { task.drive with torrentHandleMap } }.removeTorrentsFromSession
        (DriveParams.unusedHandles torrentHandleMap ++ task.drive.fsTreeLtHandle.toList)
        .continueSynchronizing

/-- The reaction to an approval when the sandbox is there: the own opinion is sent
    first if it is not part of the transaction. -/
def startSynchronizingAfter (transaction : PublishedModificationApprovalTransactionInfo) :
    UpdateDriveTaskBase :=
  match task.sandboxRootHash with
  | none => task.break_ .invalidDereference
  | some _ =>
      if task.drive.replicatorKey ∈ transaction.replicatorKeys then
        task.startSynchronizingDriveWithSandbox
      else
        match task.myOpinion with
        | none => task.break_ .invalidDereference
        | some myOpinion =>
            { task with
              drive := task.drive.sendSingleApprovalTransaction myOpinion
              }.startSynchronizingDriveWithSandbox

/-- The fs tree of the sandbox becomes the one of the drive, with a new torrent. -/
def addFsTreeTorrent : UpdateDriveTaskBase :=
  { task with
    drive := { task.drive with nextHandle := task.drive.nextHandle + 1 }
    sandboxFsTreeLtHandle := some task.drive.nextHandle }

def setSandboxSizes (result : SandboxResult) : UpdateDriveTaskBase :=
  { task with
    metaFilesSize := result.metaFilesSize
    sandboxDriveSize := result.sandboxDriveSize
    fsTreeSize := result.fsTreeSize }

/-- The end of the jobs that only save values: the next job of the session thread. -/
def saveRestartValues (restartValues : RestartValues) (next : SessionJob) : UpdateDriveTaskBase :=
  { task with drive := { task.drive with restartValues } }.executeOnSessionThread next

def runSaveJob : SaveJob → UpdateDriveTaskBase
  | .notApprovedCumulativeUploads =>
      task.saveRestartValues { task.drive.restartValues with
        notApprovedCumulativeUploads :=
          some task.drive.opinionController.notApprovedCumulativeUploads }
        .onCumulativeUploadsUpdated
  | .singleApprovalTransaction =>
      task.saveRestartValues { task.drive.restartValues with myOpinion := task.myOpinion }
        .myOpinionIsCreated
  | .approvedCumulativeUploads modificationId =>
      task.saveRestartValues { task.drive.restartValues with
        approvedCumulativeUploads := some task.drive.opinionController.approvedCumulativeUploads
        approvedModification := some modificationId } .modifyIsCompleted
  | .torrentFile handle => task.executeOnSessionThread (.downloadNotification handle)
  | .clearSandbox => task.executeOnSessionThread .runNextTask

def onTorrentsRemoved : TorrentsRemoved → UpdateDriveTaskBase
  | .finishTask => task.finishTask
  | .clearSandbox => task.executeOnBackgroundThread (.save .clearSandbox)
  | .continueSynchronizing =>
      task.executeOnBackgroundThread .continueSynchronizingDriveWithSandbox
  | .removeUnusedFiles =>
      let filesToRemove := task.drive.torrentHandleMap.toList.filterMap fun (hash, info) =>
        if info.isUsed then none else some hash
      { task with
        drive := { task.drive with
          torrentHandleMap := DriveParams.eraseUnused task.drive.torrentHandleMap }
        }.executeOnBackgroundThread (.removeUnusedFiles filesToRemove)

/-- The data of a modification that will not be executed any more counts as approved. -/
def increaseApprovedExpectedCumulativeDownload (size : Nat) : UpdateDriveTaskBase :=
  { task with
    drive := { task.drive with
      opinionController :=
        task.drive.opinionController.increaseApprovedExpectedCumulativeDownload size } }

def addTraffic (uploader : Key) (size : Nat) : UpdateDriveTaskBase :=
  { task with
    drive := { task.drive with
      modifyTrafficMap := task.drive.modifyTrafficMap.insert uploader
        (u64 ((task.drive.modifyTrafficMap[uploader]?).getD 0 + size)) } }

def setReplicators (replicatorKeys : List ReplicatorKey) : UpdateDriveTaskBase :=
  { task with drive := { task.drive with allReplicators := replicatorKeys } }

def setMinReplicatorsNumber (number : Nat) : UpdateDriveTaskBase :=
  { task with drive := { task.drive with minReplicatorsNumber := number } }

end UpdateDriveTaskBase

end SiriusDrive
