import Mathlib.Data.List.Sort
import SiriusDrive.ActionList
import SiriusDrive.Lib.Transition
import SiriusDrive.ModifyApprovalTaskBase

/-! # The modification task

`ModifyDriveTask` downloads the action list of a client and the files it names,
applies the actions to a copy of the fs tree and takes the result through the
approval. Everything that can happen to it is an event of `modifyDriveSystem`.
-/

namespace SiriusDrive

/-- `ModifyDriveTask`. -/
structure ModifyDriveTask extends ModifyApprovalTaskBase where
  request : ModificationRequest
  /-- `m_missedFileSet`, in ascending order. -/
  missedFileSet : List Hash256 := []
  actionListIsReceived : Bool := false
  /-- The file the action list is downloaded to, if it exists once it is read. -/
  actionListFile : Option ActionListFile

namespace ModifyDriveTask

variable (task : ModifyDriveTask)

/-- Run a function of `ModifyApprovalTaskBase`. -/
def approval (f : ModifyApprovalTaskBase → ModifyApprovalTaskBase) : ModifyDriveTask :=
  { task with toModifyApprovalTaskBase := f task.toModifyApprovalTaskBase }

/-- Run a function of `UpdateDriveTaskBase`. -/
def base (f : UpdateDriveTaskBase → UpdateDriveTaskBase) : ModifyDriveTask :=
  task.approval (·.base f)

/-- `breakTorrentDownloadAndRunNextTask` with the `tryBreakTask` of this task. -/
def breakTask : ModifyDriveTask :=
  task.base (·.breakTorrentDownloadAndRunNextTask (·.tryBreakTask task.modifyApproveTxReceived))

/-- Start a download that counts against the data limit of the request. -/
def download (use : DownloadUse) (infoHash : InfoHash) : ModifyDriveTask :=
  task.base fun base =>
    let (base, handle) :=
      base.download use infoHash (u64Sub task.request.maxDataSize task.uploadedDataSize)
    { base with downloadingLtHandle := some handle }

/-- The constructor. The received opinions go to the base class, which drops them. -/
def create (request : ModificationRequest) (_receivedOpinions : ReceivedOpinions)
    (drive : DriveParams) (actionListFile : Option ActionListFile) : ModifyDriveTask :=
  { drive, request, actionListFile }

/-- `run`. -/
def run : ModifyDriveTask :=
  let task := task.approval fun approval => { approval with uploadedDataSize := 0 }
  let task :=
    if task.drive.torrentHandleMap.contains task.request.clientDataInfoHash then
      { task with actionListIsReceived := true }.base
        (·.executeOnBackgroundThread .prepareDownloadMissingFiles)
    else task
  task.download .actionList task.request.clientDataInfoHash

def start (request : ModificationRequest) (receivedOpinions : ReceivedOpinions)
    (drive : DriveParams) (actionListFile : Option ActionListFile) : ModifyDriveTask :=
  (create request receivedOpinions drive actionListFile).run

/-- `modifyIsCompletedWithError`; the text goes to a debug handler only. -/
def modifyIsCompletedWithError (status : ModificationStatus) : ModifyDriveTask :=
  task.base fun base =>
    { base with downloadingLtHandle := none, status }.executeOnBackgroundThread .copyDriveToSandbox

/-- `std::set::insert` for `m_missedFileSet`. -/
def insertMissed (hash : Hash256) (missed : List Hash256) : List Hash256 :=
  if hash ∈ missed then missed else missed.orderedInsert (· ≤ ·) hash

/-- The loop that prepares `m_missedFileSet`. A malformed hash throws. -/
def prepareMissed (missed : List Hash256) : ActionList → Except String (List Hash256)
  | [] => .ok missed
  | action :: actions =>
      match action.uploadHash with
      | some (.ok hash) => prepareMissed (insertMissed hash missed) actions
      | some (.error text) => .error text
      | none => prepareMissed missed actions

def prepareDownloadMissingFiles : ModifyDriveTask :=
  match task.actionListFile with
  | none => task
  | some file =>
      let (task, actionList) : ModifyDriveTask × ActionList :=
        match file with
        | .undecodable loaded =>
            (task.base (·.executeOnSessionThread (.modifyIsCompletedWithError
              "modify drive: invalid 'ActionList'" .invalidActionList)), loaded)
        | .actions actionList => (task, actionList)
      -- the source does not return after an undecodable list
      match prepareMissed task.missedFileSet actionList with
      | .error _ => task.base (·.break_ .uncaughtException)
      | .ok missedFileSet =>
          { task with missedFileSet }.base (·.executeOnSessionThread .downloadMissingFiles)

/-- The loop of `downloadMissingFiles`: the first missing file and the rest of the
    set. The check of the handle reads the map entry of every file that is skipped,
    also of the zero hash, which is skipped without being in the map. -/
def selectMissing (torrentHandleMap : TorrentHandleMap) :
    List Hash256 → Option (Option Hash256 × List Hash256)
  | [] => some (none, [])
  | hash :: rest =>
      if torrentHandleMap.contains hash then selectMissing torrentHandleMap rest
      else if hash = 0 then none
      else some (some hash, rest)

def downloadMissingFiles : ModifyDriveTask :=
  match selectMissing task.drive.torrentHandleMap task.missedFileSet with
  | none => task.base (·.break_ .invalidDereference)
  | some (some fileToDownload, missedFileSet) =>
      let task := { task with missedFileSet }.download .missingFile fileToDownload
      task.base fun base =>
        { base with
          drive := { base.drive with
            torrentHandleMap := base.drive.torrentHandleMap.insert fileToDownload
              { ltHandle := base.downloadingLtHandle, isUsed := false } } }
  | some (none, missedFileSet) =>
      { task with missedFileSet }.base fun base =>
        { base with downloadingLtHandle := none }.executeOnBackgroundThread .modifyFsTreeInSandbox

/-- The notification `dn_failed` of a download. -/
def downloadFailed (infoHash : InfoHash) : ModifyDriveTask :=
  (task.base fun base =>
    { base with
      drive := { base.drive with
        torrentHandleMap := base.drive.torrentHandleMap.erase infoHash } }).modifyIsCompletedWithError
    .downloadFailed

def addUploadedDataSize (downloadedSize : Nat) : ModifyDriveTask :=
  task.approval fun approval =>
    { approval with uploadedDataSize := u64 (approval.uploadedDataSize + downloadedSize) }

/-- The notification `download_complete` of the action list. -/
def actionListDownloaded (downloadedSize : Nat) : ModifyDriveTask :=
  if task.taskIsInterrupted then task
  else
    { task.addUploadedDataSize downloadedSize with actionListIsReceived := true }.base fun base =>
      { base with
        fsTreeOrActionListHandle := base.downloadingLtHandle
        downloadingLtHandle := none }.executeOnBackgroundThread .prepareDownloadMissingFiles

/-- The notification `download_complete` of a torrent. -/
def downloadCompleted (torrent : Torrent) : ModifyDriveTask :=
  match torrent.use with
  | .actionList => task.actionListDownloaded torrent.uploadedDataSize
  | _ => (task.addUploadedDataSize torrent.uploadedDataSize).downloadMissingFiles

/-- `torrentHandleMap.try_emplace` for the removed files other than the zero hash. -/
def emplaceRemoved (torrentHandleMap : TorrentHandleMap) (removedFiles : List InfoHash) :
    TorrentHandleMap :=
  removedFiles.foldl (fun map hash => if hash ≠ 0 then map.insertIfNew hash {} else map)
    torrentHandleMap

/-- `modifyFsTreeInSandbox`, with what the actions make of the fs tree. -/
def modifyFsTreeInSandbox (result : SandboxResult) : ModifyDriveTask :=
  match task.actionListFile with
  | some (.actions _) =>
      let task := task.base fun base =>
        { base with
          drive := { base.drive with
            torrentHandleMap := emplaceRemoved base.drive.torrentHandleMap result.removedFiles }
          sandboxFsTree := some result.fsTree
          sandboxRootHash := some result.rootHash }.setSandboxSizes result
      if u64 (task.metaFilesSize + task.sandboxDriveSize + task.fsTreeSize) > task.drive.maxSize then
        task.base (·.executeOnSessionThread
          (.modifyIsCompletedWithError "Drive is full" .notEnoughSpace))
      else task.base (·.executeOnSessionThread .myRootHashIsCalculated)
  -- `deserialize` throws, here outside of any handler
  | _ => task.base (·.break_ .uncaughtException)

/-- The job of `modifyIsCompletedWithError`. -/
def copyDriveToSandbox : ModifyDriveTask :=
  task.base fun base =>
    { base with
      sandboxRootHash := some base.drive.rootHash
      sandboxFsTree := some base.drive.fsTree }.executeOnSessionThread .myRootHashIsCalculated

/-- `m_receivedOpinions[...] = anOpinion`. -/
def storeOpinion (anOpinion : ApprovalTransactionInfo) : ModifyDriveTask :=
  task.approval fun approval =>
    { approval with
      receivedOpinions := approval.receivedOpinions.insert anOpinion.replicatorKey anOpinion }

/-- `processedModifyOpinion`: false if the opinion is about another modification. -/
def processedModifyOpinion (anOpinion : ApprovalTransactionInfo) : ModifyDriveTask × Bool :=
  if task.request.transactionHash ≠ anOpinion.modifyTransactionHash then (task, false)
  else
    match task.myOpinion with
    | some myOpinion =>
        if validateOpinion myOpinion anOpinion then
          ((task.storeOpinion anOpinion).approval (·.checkOpinionNumberAndStartTimer), true)
        else (task, true)
    | none => (task.storeOpinion anOpinion, true)

/-- `m_modifyApproveTxReceived = true`. -/
def setApproveTxReceived : ModifyDriveTask :=
  task.approval fun approval => { approval with modifyApproveTxReceived := true }

/-- `onApprovalTxPublished`: true if a catching-up task has to follow. -/
def onApprovalTxPublished (transaction : PublishedModificationApprovalTransactionInfo) :
    ModifyDriveTask × Bool :=
  if task.taskIsInterrupted then (task, true)
  else
    let task := task.setApproveTxReceived
    if task.request.transactionHash = transaction.modifyTransactionHash ∧
        (task.actionListIsReceived = true ∨ task.status ≠ .success) then
      if !task.sandboxCalculated then (task, false)
      else
        -- a root hash other than the published one is only logged
        (task.base (·.startSynchronizingAfter transaction), false)
    else
      ((task.base
        (·.increaseApprovedExpectedCumulativeDownload task.request.maxDataSize)).breakTask, true)

/-- The approval is for this task, which has the action list or has failed. -/
def Applies (transaction : PublishedModificationApprovalTransactionInfo) : Prop :=
  task.request.transactionHash = transaction.modifyTransactionHash ∧
    (task.actionListIsReceived = true ∨ task.status ≠ .success)

instance (transaction : PublishedModificationApprovalTransactionInfo) :
    Decidable (task.Applies transaction) :=
  inferInstanceAs (Decidable (_ ∧ _))

section Published

variable {task} {transaction : PublishedModificationApprovalTransactionInfo}

theorem onApprovalTxPublished_interrupted (interrupted : task.taskIsInterrupted = true) :
    task.onApprovalTxPublished transaction = (task, true) := by
  rw [onApprovalTxPublished, if_pos interrupted]

theorem onApprovalTxPublished_waits (running : task.taskIsInterrupted = false)
    (applies : task.Applies transaction) (waits : task.sandboxCalculated = false) :
    task.onApprovalTxPublished transaction = (task.setApproveTxReceived, false) := by
  have uncalculated : task.setApproveTxReceived.sandboxCalculated = false := waits
  rw [onApprovalTxPublished, if_neg (by simp [running])]
  simp only [uncalculated, Bool.not_false, if_true]
  exact if_pos applies

theorem onApprovalTxPublished_applies (running : task.taskIsInterrupted = false)
    (applies : task.Applies transaction) (calculated : task.sandboxCalculated = true) :
    task.onApprovalTxPublished transaction =
      (task.setApproveTxReceived.base (·.startSynchronizingAfter transaction), false) := by
  have isCalculated : task.setApproveTxReceived.sandboxCalculated = true := calculated
  rw [onApprovalTxPublished, if_neg (by simp [running])]
  simp only [isCalculated, Bool.not_true, Bool.false_eq_true, if_false]
  exact if_pos applies

theorem onApprovalTxPublished_breaks (running : task.taskIsInterrupted = false)
    (other : ¬ task.Applies transaction) :
    task.onApprovalTxPublished transaction =
      ((task.setApproveTxReceived.base
        (·.increaseApprovedExpectedCumulativeDownload task.request.maxDataSize)).breakTask, true) := by
  rw [onApprovalTxPublished, if_neg (by simp [running])]
  exact if_neg other

end Published

/-- `shouldCancelModify`. -/
def shouldCancelModify (cancelRequest : ModificationCancelRequest) : ModifyDriveTask × Bool :=
  if task.taskIsInterrupted then (task, false)
  else if cancelRequest.modifyTransactionHash = task.request.transactionHash then
    (task.breakTask, true)
  else (task, false)

def onApprovalTxFailed (transactionHash : Hash256) : ModifyDriveTask :=
  if task.request.transactionHash = transactionHash ∧ task.taskIsInterrupted = false ∧
      task.modifyApproveTxReceived = false then
    task.approval fun approval =>
      { approval with
        modifyApproveTransactionSent := false
        drive := approval.drive.processOpinions (approval.receivedOpinions.toList.map Prod.snd)
        receivedOpinions := ∅ }
  else task

def onDriveClose : ModifyDriveTask := if task.taskIsInterrupted then task else task.breakTask

def manualSynchronize : ModifyDriveTask := if task.taskIsInterrupted then task else task.breakTask

/-- `terminate`, while the replicator is being stopped. -/
def terminate : ModifyDriveTask :=
  (task.approval fun approval =>
    { approval with
      drive := { approval.drive with replicatorIsStopped := true }
      modifyOpinionTimer := approval.modifyOpinionTimer.cancel
      shareMyOpinionTimer := approval.shareMyOpinionTimer.cancel }).breakTask

/-- The jobs of the session thread. The last one, `runNextTask`, ends the task and
    is run by the drive. -/
def runSessionJob : SessionJob → Option ModifyDriveTask
  | .modifyIsCompletedWithError _ status => some (task.modifyIsCompletedWithError status)
  | .downloadMissingFiles => some task.downloadMissingFiles
  | .myRootHashIsCalculated =>
      some (task.base (·.myRootHashIsCalculated task.request.transactionHash task.request.maxDataSize))
  | .onCumulativeUploadsUpdated =>
      some (task.base (·.onCumulativeUploadsUpdated task.request.transactionHash))
  | .myOpinionIsCreated => some (task.approval (·.myOpinionIsCreated))
  | .synchronizationIsCompleted =>
      some (task.base (·.synchronizationIsCompleted task.request.transactionHash))
  | .modifyIsCompleted => some (task.base (·.modifyIsCompleted task.request.transactionHash))
  | .downloadNotification handle =>
      match task.findTorrent handle with
      | some torrent => some (task.downloadCompleted torrent)
      | none => none
  | _ => none

def runBackgroundJob : BackgroundJob → BackgroundResult → Option ModifyDriveTask
  | .save job, .fileSystem .done => some (task.base (·.runSaveJob job))
  | .continueSynchronizingDriveWithSandbox, .fileSystem result =>
      some (task.approval (·.continueSynchronizingDriveWithSandbox result))
  | .prepareDownloadMissingFiles, .fileSystem .done => some task.prepareDownloadMissingFiles
  | .modifyFsTreeInSandbox, .sandbox result => some (task.modifyFsTreeInSandbox result)
  | .copyDriveToSandbox, .fileSystem .done => some task.copyDriveToSandbox
  | _, _ => none

/-- The session checks the metadata of a torrent; a download that fails is reported
    at once. -/
def onMetadataReceived (torrent : Torrent) (totalSize : Nat) (isValid : Bool) : ModifyDriveTask :=
  if isValid && torrent.withinLimit totalSize then
    task.base (·.setTorrent
      { torrent with uploadedDataSize := totalSize, state := .metadataReceived })
  else
    (task.base (·.setTorrent { torrent with state := .failed })).downloadFailed torrent.infoHash

/-- What an event does to the task. An event that cannot happen has no result. -/
def handle : TaskEvent → Option ModifyDriveTask
  | .runSessionJob =>
      match task.popSessionJob with
      | some (job, base) => (task.base fun _ => base).runSessionJob job
      | none => none
  | .runBackgroundJob result =>
      match task.popBackgroundJob with
      | some (job, base) => (task.base fun _ => base).runBackgroundJob job result
      | none => none
  | .torrentsRemoved index =>
      match task.popRemoval index with
      | some (removal, base) => some (task.base fun _ => base.onTorrentsRemoved removal)
      | none => none
  | .metadataReceived handle totalSize isValid =>
      match task.activeTorrent handle .added with
      | some torrent => some (task.onMetadataReceived torrent totalSize isValid)
      | none => none
  | .torrentFinished handle =>
      match task.activeTorrent handle .metadataReceived with
      | some torrent => some (task.base (·.torrentFinished torrent))
      | none => none
  | .pieceReceived uploader size => some (task.base (·.addTraffic uploader size))
  | .modifyOpinionTimerExpired =>
      if task.modifyOpinionTimer = .pending then
        some (task.approval fun approval =>
          { approval with modifyOpinionTimer := .expired }.opinionTimerExpired)
      else none
  | .shareMyOpinionTimerExpired =>
      if task.shareMyOpinionTimer = .pending then
        some (task.approval (·.shareMyOpinionTimerExpired))
      else none
  | .opinionReceived anOpinion => some (task.processedModifyOpinion anOpinion).1
  | .approvalTxPublished transaction => some (task.onApprovalTxPublished transaction).1
  | .approvalTxFailed transactionHash => some (task.onApprovalTxFailed transactionHash)
  | .cancelModify cancelRequest => some (task.shouldCancelModify cancelRequest).1
  | .driveClose => some task.onDriveClose
  | .manualSynchronize => some task.manualSynchronize
  | .terminate => some task.terminate
  | .setReplicators replicatorKeys => some (task.base (·.setReplicators replicatorKeys))
  | .setMinReplicatorsNumber number => some (task.base (·.setMinReplicatorsNumber number))
  -- messages and transactions of a stream do not concern this task
  | .chunkInfoReceived .. | .finishStream _ => some task

/-- The modification task under everything that can happen to it until it has
    broken the program. -/
def modifyDriveSystem : Transition ModifyDriveTask TaskEvent where
  step task event := if task.fault.isSome then none else task.handle event

end ModifyDriveTask

end SiriusDrive
