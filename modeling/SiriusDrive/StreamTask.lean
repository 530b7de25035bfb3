import SiriusDrive.Lib.Transition
import SiriusDrive.ModifyApprovalTaskBase

/-! # The stream task

`StreamTask` downloads the chunks of a stream one by one and, once the streamer has
finished it, takes a tree with the stream folder through the approval. The class
declares members of its base class again: its own functions use its own members,
the inherited functions use those of the base class.
-/

namespace SiriusDrive

/-- The members `StreamTask` declares again. -/
structure StreamMembers where
  receivedOpinions : ReceivedOpinions := ∅
  modifyApproveTransactionSent : Bool := false
  modifyApproveTxReceived : Bool := false
  uploadedDataSize : Nat := 0
  shareMyOpinionTimer : Timer := .unset
  modifyOpinionTimer : Timer := .unset

/-- `StreamTask`; `shadowing` are the members that hide those of the base class. -/
structure StreamTask extends ModifyApprovalTaskBase where
  request : StreamRequest
  /-- Empty cells stand for messages that have not been received. -/
  chunkInfoList : List (Option ChunkInfo) := []
  /-- The index `m_downloadingChunkInfoIt` refers to, once it was set. -/
  downloadingChunkInfo : Option Nat := none
  finishInfoHash : Option InfoHash := none
  finishLtHandle : Option LtHandle := none
  finishInfo : List FinishStreamChunkInfo := []
  /-- The chunks asked of the streamer. -/
  requestedChunks : List Nat := []
  shadowing : StreamMembers := {}

namespace StreamTask

variable (task : StreamTask)

/-- Run a function of `ModifyApprovalTaskBase`. -/
def approval (f : ModifyApprovalTaskBase → ModifyApprovalTaskBase) : StreamTask :=
  { task with toModifyApprovalTaskBase := f task.toModifyApprovalTaskBase }

/-- Run a function of `UpdateDriveTaskBase`. -/
def base (f : UpdateDriveTaskBase → UpdateDriveTaskBase) : StreamTask :=
  task.approval (·.base f)

/-- The constructor. `run` does nothing: the task waits for messages. -/
def create (request : StreamRequest) (drive : DriveParams) : StreamTask := { drive, request }

/-- `breakTorrentDownloadAndRunNextTask` with the `tryBreakTask` of this task. -/
def breakTask : StreamTask :=
  task.base (·.breakTorrentDownloadAndRunNextTask
    (·.tryBreakTask task.shadowing.modifyApproveTxReceived))

def requestMissingChunkInfo (chunkIndex : Nat) : StreamTask :=
  { task with requestedChunks := task.requestedChunks ++ [chunkIndex] }

def tryDownloadNextChunk : StreamTask :=
  if task.downloadingLtHandle.isSome then task
  else task.base (·.executeOnSessionThread .startNextChunk)

/-- Put a message in its cell, with empty cells for those that are missing before. -/
def storeChunkInfo (chunkInfo : ChunkInfo) : StreamTask :=
  if chunkInfo.chunkIndex < task.chunkInfoList.length then
    { task with chunkInfoList := task.chunkInfoList.set chunkInfo.chunkIndex (some chunkInfo) }
  else
    { task with
      chunkInfoList := task.chunkInfoList ++
        List.replicate (chunkInfo.chunkIndex - task.chunkInfoList.length) none ++
          [some chunkInfo] }

def acceptChunkInfoMessage (chunkInfo : ChunkInfo) (isVerified : Bool) : StreamTask :=
  if chunkInfo.streamId ≠ task.request.streamId then task
  else if !isVerified then task
  else (task.storeChunkInfo chunkInfo).tryDownloadNextChunk

/-- Download the chunk of a cell, unless its file is there already. -/
def downloadChunk (chunkInfo : ChunkInfo) : StreamTask :=
  if task.drive.torrentHandleMap.contains chunkInfo.chunkInfoHash then task.tryDownloadNextChunk
  else
    task.base fun base =>
      let (base, handle) := base.download .chunk chunkInfo.chunkInfoHash 0
      { base with
        downloadingLtHandle := some handle
        drive := { base.drive with
          torrentHandleMap := base.drive.torrentHandleMap.insert chunkInfo.chunkInfoHash
            { ltHandle := some handle, isUsed := false } } }

/-- The job of `tryDownloadNextChunk`. -/
def startNextChunk : StreamTask :=
  if task.downloadingLtHandle.isSome then task
  else
    match task.downloadingChunkInfo with
    | none =>
        match task.chunkInfoList with
        | [] => task.base (·.break_ .invalidDereference)
        | none :: _ => task.requestMissingChunkInfo 0
        | some chunkInfo :: _ =>
            { task with downloadingChunkInfo := some 0 }.downloadChunk chunkInfo
    | some index =>
        match task.chunkInfoList[index + 1]? with
        -- so far there is nothing to download
        | none => task
        | some none => task.requestMissingChunkInfo (index + 1)
        | some (some chunkInfo) =>
            { task with downloadingChunkInfo := some (index + 1) }.downloadChunk chunkInfo

def chunkDownloaded : StreamTask :=
  let task := (task.base fun base => { base with downloadingLtHandle := none }).tryDownloadNextChunk
  if task.finishInfoHash.isSome then task.base (·.executeOnBackgroundThread .checkFinishCondition)
  else task

/-- The notification `download_complete` of a torrent. -/
def downloadCompleted (torrent : Torrent) : StreamTask :=
  match torrent.use with
  | .finishInfo => task.base (·.executeOnBackgroundThread .parseFinishInfoFile)
  | _ => task.chunkDownloaded

/-- The notification `dn_failed` of a torrent. -/
def downloadFailed (torrent : Torrent) : StreamTask :=
  let task := task.base fun base =>
    { base with
      drive := { base.drive with
        torrentHandleMap := base.drive.torrentHandleMap.erase torrent.infoHash } }
  match torrent.use with
  | .finishInfo => task
  | _ => (task.base fun base => { base with downloadingLtHandle := none }).tryDownloadNextChunk

def acceptFinishStreamTx (finishStream : StreamFinishRequest) : StreamTask :=
  if task.finishInfoHash.isSome then task
  else if finishStream.streamId ≠ task.request.streamId then task
  else
    let hash := finishStream.finishDataInfoHash
    let task := { task with finishInfoHash := some hash }
    match task.drive.torrentHandleMap[hash]? with
    | some info =>
        { task with finishLtHandle := info.ltHandle }.base
          (·.executeOnBackgroundThread .parseFinishInfoFile)
    | none =>
        { task with finishLtHandle := some task.drive.nextHandle }.base fun base =>
          let (base, handle) := base.download .finishInfo hash 0
          { base with
            drive := { base.drive with
              torrentHandleMap := base.drive.torrentHandleMap.insert hash
                { ltHandle := some handle, isUsed := false } } }

/-- `completeStreamFinishing`, with what the stream makes of the fs tree. If it does
    not fit on the drive nothing is scheduled. -/
def completeStreamFinishing (result : SandboxResult) : StreamTask :=
  let task := task.base fun base =>
    { base with
      sandboxFsTree := some result.fsTree
      sandboxRootHash := some result.rootHash }.setSandboxSizes result
  if u64 (task.metaFilesSize + task.sandboxDriveSize + task.fsTreeSize) > task.drive.maxSize then
    task
  else task.base (·.executeOnSessionThread .myRootHashIsCalculated)

/-- The finish info names the chunks that were received, and all of them are there. -/
def allChunksReceived : Bool :=
  (task.chunkInfoList.zip task.finishInfo).all fun (chunkInfo, finishInfo) =>
    match chunkInfo with
    | some chunkInfo =>
        task.drive.torrentHandleMap.contains chunkInfo.chunkInfoHash &&
          chunkInfo.chunkInfoHash = finishInfo.chunkInfoHash
    | none => false

def emptyCells : List Nat :=
  (List.range task.chunkInfoList.length).filter fun index =>
    task.chunkInfoList[index]?.join.isNone

/-- `checkFinishCondition`; the result is that of `completeStreamFinishing`. -/
def checkFinishCondition (result : Option SandboxResult) : StreamTask :=
  if task.finishInfo.length = 0 then task
  else if task.chunkInfoList.length ≠ task.finishInfo.length then task
  else if task.emptyCells ≠ [] then task.emptyCells.foldl requestMissingChunkInfo task
  else if task.allChunksReceived then
    match result with
    | some result => task.completeStreamFinishing result
    -- the stream folder is not found
    | none => task.base fun base => { base with sandboxFsTree := some base.drive.fsTree }
  else task

/-- `continueFinishStream`: the first chunk of the finish info that is not there is
    asked for. -/
def continueFinishStream (result : Option SandboxResult) : StreamTask :=
  if task.finishInfo.isEmpty then task
  else
    match task.finishInfo.find? fun info =>
        !task.drive.torrentHandleMap.contains info.chunkInfoHash with
    | some info => task.base (·.executeOnSessionThread (.requestMissingChunkInfo info.chunkIndex))
    | none => task.checkFinishCondition result

/-- `parseFinishInfoFile`: what could be read of the file is kept. -/
def parseFinishInfoFile (loaded : List FinishStreamChunkInfo) (complete : Bool)
    (result : Option SandboxResult) : StreamTask :=
  let task := { task with finishInfo := loaded }
  if complete then task.continueFinishStream result else task

/-- `m_receivedOpinions[...] = anOpinion`, with the members of the derived class. -/
def storeOpinion (anOpinion : ApprovalTransactionInfo) : StreamTask :=
  { task with
    shadowing := { task.shadowing with
      receivedOpinions :=
        task.shadowing.receivedOpinions.insert anOpinion.replicatorKey anOpinion } }

/-- `processedModifyOpinion`: true, whatever the opinion is about. -/
def processedModifyOpinion (anOpinion : ApprovalTransactionInfo) : StreamTask × Bool :=
  match task.myOpinion with
  | some myOpinion =>
      if task.request.streamId = anOpinion.modifyTransactionHash ∧
          validateOpinion myOpinion anOpinion = true then
        ((task.storeOpinion anOpinion).approval (·.checkOpinionNumberAndStartTimer), true)
      else (task, true)
  | none => (task, true)

/-- `m_modifyApproveTxReceived = true`, with the member of the derived class. -/
def setApproveTxReceived : StreamTask :=
  { task with shadowing := { task.shadowing with modifyApproveTxReceived := true } }

/-- `onApprovalTxPublished`: true if a catching-up task has to follow. -/
def onApprovalTxPublished (transaction : PublishedModificationApprovalTransactionInfo) :
    StreamTask × Bool :=
  if task.taskIsInterrupted then (task, true)
  else
    let task := task.setApproveTxReceived
    if task.request.streamId = transaction.modifyTransactionHash ∧ task.sandboxCalculated = true then
      (task.base (·.startSynchronizingAfter transaction), false)
    else
      ((task.base
        (·.increaseApprovedExpectedCumulativeDownload task.request.maxSizeBytes)).breakTask, true)

/-- The approval is for this task, which has formed its opinion. -/
def Applies (transaction : PublishedModificationApprovalTransactionInfo) : Prop :=
  task.request.streamId = transaction.modifyTransactionHash ∧ task.sandboxCalculated = true

instance (transaction : PublishedModificationApprovalTransactionInfo) :
    Decidable (task.Applies transaction) :=
  inferInstanceAs (Decidable (_ ∧ _))

section Published

variable {task} {transaction : PublishedModificationApprovalTransactionInfo}

theorem onApprovalTxPublished_interrupted (interrupted : task.taskIsInterrupted = true) :
    task.onApprovalTxPublished transaction = (task, true) := by
  rw [onApprovalTxPublished, if_pos interrupted]

theorem onApprovalTxPublished_applies (running : task.taskIsInterrupted = false)
    (applies : task.Applies transaction) :
    task.onApprovalTxPublished transaction =
      (task.setApproveTxReceived.base (·.startSynchronizingAfter transaction), false) := by
  rw [onApprovalTxPublished, if_neg (by simp [running])]
  exact if_pos applies

theorem onApprovalTxPublished_breaks (running : task.taskIsInterrupted = false)
    (other : ¬ task.Applies transaction) :
    task.onApprovalTxPublished transaction =
      ((task.setApproveTxReceived.base
        (·.increaseApprovedExpectedCumulativeDownload task.request.maxSizeBytes)).breakTask, true) := by
  rw [onApprovalTxPublished, if_neg (by simp [running])]
  exact if_neg other

end Published

/-- `shouldCancelModify`. -/
def shouldCancelModify (cancelRequest : ModificationCancelRequest) : StreamTask × Bool :=
  if task.taskIsInterrupted then (task, false)
  else if cancelRequest.modifyTransactionHash = task.request.streamId then (task.breakTask, true)
  else (task, false)

def onDriveClose : StreamTask := if task.taskIsInterrupted then task else task.breakTask

def manualSynchronize : StreamTask := if task.taskIsInterrupted then task else task.breakTask

/-- `terminate`, while the replicator is being stopped; the timers go on. -/
def terminate : StreamTask :=
  (task.base fun base =>
    { base with drive := { base.drive with replicatorIsStopped := true } }).breakTask

/-- `continueSynchronizingDriveWithSandbox`. -/
def continueSynchronizingDriveWithSandbox : FileSystemResult → StreamTask
  | .done =>
      (task.base fun base =>
        { base with drive := base.drive.keepUsedTorrents }.addFsTreeTorrent).base
        (·.executeOnSessionThread .synchronizationIsCompleted)
  | .exception => task.base (·.finishTask)

def runSessionJob : SessionJob → Option StreamTask
  | .startNextChunk => some task.startNextChunk
  | .requestMissingChunkInfo chunkIndex => some (task.requestMissingChunkInfo chunkIndex)
  | .myRootHashIsCalculated =>
      some (task.base (·.myRootHashIsCalculated task.request.streamId task.request.maxSizeBytes))
  | .onCumulativeUploadsUpdated =>
      some (task.base (·.onCumulativeUploadsUpdated task.request.streamId))
  | .myOpinionIsCreated => some (task.approval (·.myOpinionIsCreated))
  | .synchronizationIsCompleted =>
      some (task.base (·.synchronizationIsCompleted task.request.streamId))
  | .modifyIsCompleted => some (task.base (·.modifyIsCompleted task.request.streamId))
  | .downloadNotification handle =>
      match task.findTorrent handle with
      | some torrent => some (task.downloadCompleted torrent)
      | none => none
  | _ => none

/-- The jobs of the background thread. A job that may complete the stream comes with
    the result it then has. -/
def runBackgroundJob : BackgroundJob → BackgroundResult → Option StreamTask
  | .save job, .fileSystem .done => some (task.base (·.runSaveJob job))
  | .continueSynchronizingDriveWithSandbox, .fileSystem result =>
      some (task.continueSynchronizingDriveWithSandbox result)
  | .parseFinishInfoFile, .finishInfo loaded complete result =>
      some (task.parseFinishInfoFile loaded complete result)
  | .checkFinishCondition, .sandbox result => some (task.checkFinishCondition (some result))
  | .checkFinishCondition, .noStreamFolder => some (task.checkFinishCondition none)
  | _, _ => none

/-- The session checks the metadata of a torrent; a download that fails is reported
    at once. -/
def onMetadataReceived (torrent : Torrent) (totalSize : Nat) (isValid : Bool) : StreamTask :=
  if isValid && torrent.withinLimit totalSize then
    task.base (·.setTorrent
      { torrent with uploadedDataSize := totalSize, state := .metadataReceived })
  else (task.base (·.setTorrent { torrent with state := .failed })).downloadFailed torrent

/-- What an event does to the task. An event that cannot happen has no result. -/
def handle : TaskEvent → Option StreamTask
  | .runSessionJob =>
      match task.popSessionJob with
      | some (job, base) => (task.base fun _ => base).runSessionJob job
      | none => none
  | .runBackgroundJob result =>
      match task.popBackgroundJob with
      | some (job, base) => (task.base fun _ => base).runBackgroundJob job result
      | none => none
  | .torrentsRemoved index =>
      match task.popRemoval index with
      | some (removal, base) => some (task.base fun _ => base.onTorrentsRemoved removal)
      | none => none
  | .metadataReceived handle totalSize isValid =>
      match task.activeTorrent handle .added with
      | some torrent => some (task.onMetadataReceived torrent totalSize isValid)
      | none => none
  | .torrentFinished handle =>
      match task.activeTorrent handle .metadataReceived with
      | some torrent => some (task.base (·.torrentFinished torrent))
      | none => none
  | .pieceReceived uploader size => some (task.base (·.addTraffic uploader size))
  | .modifyOpinionTimerExpired =>
      if task.modifyOpinionTimer = .pending then
        some (task.approval fun approval =>
          { approval with modifyOpinionTimer := .expired }.opinionTimerExpired)
      else none
  | .shareMyOpinionTimerExpired =>
      if task.shareMyOpinionTimer = .pending then
        some (task.approval (·.shareMyOpinionTimerExpired))
      else none
  | .opinionReceived anOpinion => some (task.processedModifyOpinion anOpinion).1
  | .approvalTxPublished transaction => some (task.onApprovalTxPublished transaction).1
  -- a failed approval is ignored (`DriveTaskBase::onApprovalTxFailed`)
  | .approvalTxFailed _ => some task
  | .cancelModify cancelRequest => some (task.shouldCancelModify cancelRequest).1
  | .driveClose => some task.onDriveClose
  | .manualSynchronize => some task.manualSynchronize
  | .terminate => some task.terminate
  | .setReplicators replicatorKeys => some (task.base (·.setReplicators replicatorKeys))
  | .setMinReplicatorsNumber number => some (task.base (·.setMinReplicatorsNumber number))
  | .chunkInfoReceived chunkInfo isVerified => some (task.acceptChunkInfoMessage chunkInfo isVerified)
  | .finishStream finishStream => some (task.acceptFinishStreamTx finishStream)

/-- The stream task under everything that can happen to it until it has broken the
    program. -/
def streamSystem : Transition StreamTask TaskEvent where
  step task event := if task.fault.isSome then none else task.handle event

end StreamTask

end SiriusDrive
