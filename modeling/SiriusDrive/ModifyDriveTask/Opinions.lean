import SiriusDrive.Lib.QuorumCollection
import SiriusDrive.ModifyDriveTask.Steps

/-! # The opinions of a modification task

The modification task is a collection of opinions: its own opinion, those it
has received, the flags and the timer of the approval move as the steps of the
collection say, and all other parts of the task leave them alone. The results
about collections become results about the approvals of the task.
-/

namespace SiriusDrive

/-- What the collection reads of `UpdateDriveTaskBase`. -/
structure OpinionView where
  replicatorKey : ReplicatorKey
  allReplicators : List ReplicatorKey
  minReplicatorsNumber : Nat
  myOpinion : Option ApprovalTransactionInfo
  sandboxCalculated : Bool

namespace UpdateDriveTaskBase

def opinionView (task : UpdateDriveTaskBase) : OpinionView where
  replicatorKey := task.drive.replicatorKey
  allReplicators := task.drive.allReplicators
  minReplicatorsNumber := task.drive.minReplicatorsNumber
  myOpinion := task.myOpinion
  sandboxCalculated := task.sandboxCalculated

variable (task : UpdateDriveTaskBase)

/-! ## Functions of the base that leave the opinions alone -/

@[simp] theorem opinionView_finishTask : task.finishTask.opinionView = task.opinionView := by
  simp only [finishTask]
  split <;> rfl

@[simp] theorem opinionView_tryBreakTask (received : Bool) :
    (task.tryBreakTask received).opinionView = task.opinionView := by
  simp only [tryBreakTask]
  split
  · exact task.opinionView_finishTask
  · rfl

@[simp] theorem opinionView_breakTorrentDownload (received : Bool) :
    (task.breakTorrentDownloadAndRunNextTask (·.tryBreakTask received)).opinionView =
      task.opinionView := by
  simp only [breakTorrentDownloadAndRunNextTask]
  split
  · rfl
  · exact opinionView_tryBreakTask _ received

@[simp] theorem opinionView_myRootHashIsCalculated (tx : Hash256) (size : Nat) :
    (task.myRootHashIsCalculated tx size).opinionView = task.opinionView := by
  simp only [myRootHashIsCalculated]
  split
  · exact task.opinionView_finishTask
  · rfl

@[simp] theorem opinionView_modifyIsCompleted (tx : Hash256) :
    (task.modifyIsCompleted tx).opinionView = task.opinionView := by
  simp only [modifyIsCompleted]
  split
  · exact opinionView_finishTask _
  · rfl

@[simp] theorem opinionView_startSynchronizing :
    task.startSynchronizingDriveWithSandbox.opinionView = task.opinionView := by
  simp only [startSynchronizingDriveWithSandbox]
  split <;> rfl

@[simp] theorem opinionView_startSynchronizingAfter
    (transaction : PublishedModificationApprovalTransactionInfo) :
    (task.startSynchronizingAfter transaction).opinionView = task.opinionView := by
  simp only [startSynchronizingAfter]
  split
  · rfl
  · split
    · exact task.opinionView_startSynchronizing
    · split
      · rfl
      · exact opinionView_startSynchronizing _

@[simp] theorem opinionView_runSaveJob (job : SaveJob) :
    (task.runSaveJob job).opinionView = task.opinionView := by
  cases job <;> rfl

@[simp] theorem opinionView_onTorrentsRemoved (removal : TorrentsRemoved) :
    (task.onTorrentsRemoved removal).opinionView = task.opinionView := by
  cases removal
  · exact task.opinionView_finishTask
  all_goals rfl

end UpdateDriveTaskBase

namespace ModifyApprovalTaskBase

variable (task : ModifyApprovalTaskBase)

def collection : Collection ReplicatorKey ApprovalTransactionInfo compare where
  self := task.drive.replicatorKey
  others := task.drive.allReplicators.length
  minimum := task.drive.minReplicatorsNumber
  own := task.myOpinion
  validated := task.sandboxCalculated
  received := task.receivedOpinions
  sent := task.modifyApproveTransactionSent
  closed := task.modifyApproveTxReceived
  timer := task.modifyOpinionTimer
  emissions := task.sentApprovals.map fun sent => ⟨sent.myOpinion, sent.builtFrom⟩

theorem collection_base {f : UpdateDriveTaskBase → UpdateDriveTaskBase}
    (frame : (f task.toUpdateDriveTaskBase).opinionView = task.opinionView) :
    (task.base f).collection = task.collection := by
  simp only [UpdateDriveTaskBase.opinionView, OpinionView.mk.injEq] at frame
  simp only [collection, base, frame.1, frame.2.1, frame.2.2.1, frame.2.2.2.1, frame.2.2.2.2]

theorem collection_opinionTimerExpired :
    task.opinionTimerExpired.collection = task.collection.emit := by
  cases found : task.myOpinion with
  | none =>
      cases sent : task.modifyApproveTransactionSent <;>
        cases closed : task.modifyApproveTxReceived <;>
        simp [opinionTimerExpired, Collection.emit, collection, base,
          UpdateDriveTaskBase.break_, found, sent, closed]
  | some own =>
      cases sent : task.modifyApproveTransactionSent <;>
        cases closed : task.modifyApproveTxReceived <;>
        simp [opinionTimerExpired, Collection.emit, collection, found, sent, closed]

theorem collection_checkOpinionNumber :
    task.checkOpinionNumberAndStartTimer.collection = task.collection.check replicatorNumber := by
  have ready (bound : Nat) : (task.myOpinion.isSome && decide (task.receivedOpinions.size ≥ bound) &&
      !task.modifyApproveTransactionSent && !task.modifyApproveTxReceived) = true ↔
      task.collection.own.isSome ∧ bound ≤ task.collection.received.size ∧
        task.collection.sent = false ∧ task.collection.closed = false := by
    simp only [collection, Bool.and_eq_true, decide_eq_true_eq, Bool.not_eq_true', ge_iff_le,
      and_assoc]
  have others : task.collection.others = task.drive.allReplicators.length := rfl
  have minimum : task.collection.minimum = task.drive.minReplicatorsNumber := rfl
  simp only [checkOpinionNumberAndStartTimer, Collection.check, ready, others, minimum]
  split
  · exact collection_opinionTimerExpired { task with modifyOpinionTimer := .unset }
  · split
    · cases timer : task.modifyOpinionTimer <;> simp [collection, timer, OneShotTimer.isSet]
    · rfl

theorem collection_myOpinionIsCreated {own : ApprovalTransactionInfo}
    (running : task.taskIsInterrupted = false) (isOwn : task.myOpinion = some own) :
    task.myOpinionIsCreated.collection = task.collection.validate replicatorNumber validateOpinion own := by
  simp only [myOpinionIsCreated, running, isOwn, Bool.false_eq_true, if_false]
  split
  · rename_i received
    rw [collection_base _ (UpdateDriveTaskBase.opinionView_startSynchronizing _)]
    simp only [Collection.validate, collection, received, if_true, isOwn,
      DriveParams.sendSingleApprovalTransaction]
  · rename_i open_
    simp only [Bool.not_eq_true] at open_
    rw [collection_checkOpinionNumber]
    simp only [Collection.validate, collection, open_, Bool.false_eq_true, if_false, shareMyOpinion,
      validateReceivedOpinions, isOwn]

@[simp] theorem collection_continueSynchronizing (result : FileSystemResult) :
    (task.continueSynchronizingDriveWithSandbox result).collection = task.collection := by
  cases result
  · rfl
  · exact task.collection_base task.opinionView_finishTask

theorem collection_shareMyOpinionTimerExpired :
    task.shareMyOpinionTimerExpired.collection = task.collection := by
  simp only [shareMyOpinionTimerExpired]
  split <;> rfl

end ModifyApprovalTaskBase

namespace ModifyDriveTask

variable (task : ModifyDriveTask)

theorem collection_base {f : UpdateDriveTaskBase → UpdateDriveTaskBase}
    (frame : (f task.toUpdateDriveTaskBase).opinionView = task.opinionView) :
    (task.base f).collection = task.collection :=
  ModifyApprovalTaskBase.collection_base _ frame

/-! ## Functions of the task that leave the opinions alone -/

@[simp] theorem collection_breakTask : task.breakTask.collection = task.collection :=
  task.collection_base (UpdateDriveTaskBase.opinionView_breakTorrentDownload _ _)

theorem collection_start (request : ModificationRequest) (receivedOpinions : ReceivedOpinions)
    (drive : DriveParams) (actionListFile : Option ActionListFile) :
    (start request receivedOpinions drive actionListFile).collection =
      { self := drive.replicatorKey
        others := drive.allReplicators.length
        minimum := drive.minReplicatorsNumber } := by
  simp only [start, run]
  split <;> rfl

@[simp] theorem collection_prepareDownloadMissingFiles :
    task.prepareDownloadMissingFiles.collection = task.collection := by
  simp only [prepareDownloadMissingFiles]
  split
  · rfl
  · split
    all_goals
      split <;> rfl

@[simp] theorem collection_downloadMissingFiles :
    task.downloadMissingFiles.collection = task.collection := by
  simp only [downloadMissingFiles]
  split <;> rfl

@[simp] theorem collection_downloadCompleted (torrent : Torrent) :
    (task.downloadCompleted torrent).collection = task.collection := by
  simp only [downloadCompleted]
  split
  · simp only [actionListDownloaded]
    split <;> rfl
  · exact collection_downloadMissingFiles _

@[simp] theorem collection_modifyFsTreeInSandbox (result : SandboxResult) :
    (task.modifyFsTreeInSandbox result).collection = task.collection := by
  simp only [modifyFsTreeInSandbox]
  split
  · split <;> rfl
  · rfl

@[simp] theorem collection_onMetadataReceived (torrent : Torrent) (totalSize : Nat)
    (isValid : Bool) :
    (task.onMetadataReceived torrent totalSize isValid).collection = task.collection := by
  simp only [onMetadataReceived]
  split <;> rfl

/-! ## The simulation -/

/-- The collection of opinions a modification task refines. -/
abbrev opinionSystem :
    Transition (Collection ReplicatorKey ApprovalTransactionInfo compare)
      (CollectionEvent ApprovalTransactionInfo) :=
  Collection.system replicatorNumber ApprovalTransactionInfo.replicatorKey validateOpinion

def sessionJobEvent : SessionJob → Option (CollectionEvent ApprovalTransactionInfo)
  | .onCumulativeUploadsUpdated =>
      if task.taskIsInterrupted then none
      else task.sandboxRootHash.map fun rootHash =>
        .own (task.formMyOpinion task.request.transactionHash rootHash)
  | .myOpinionIsCreated =>
      if task.taskIsInterrupted then none else task.myOpinion.map fun _ => .validate
  | _ => none

def collectionEvent : TaskEvent → Option (CollectionEvent ApprovalTransactionInfo)
  | .runSessionJob => task.sessionJobs.head?.bind task.sessionJobEvent
  | .modifyOpinionTimerExpired => some .expire
  | .opinionReceived anOpinion =>
      if task.request.transactionHash = anOpinion.modifyTransactionHash then
        some (.receive anOpinion)
      else none
  | .approvalTxPublished _ => if task.taskIsInterrupted then none else some .close
  | .approvalTxFailed transactionHash =>
      if task.request.transactionHash = transactionHash ∧ task.taskIsInterrupted = false then
        some .fail
      else none
  | .terminate => some .cancelTimer
  | .setReplicators replicatorKeys =>
      some (.configure replicatorKeys.length task.drive.minReplicatorsNumber)
  | .setMinReplicatorsNumber number =>
      some (.configure task.drive.allReplicators.length number)
  | _ => none

theorem runSessionJob_follows {job : SessionJob} {after : ModifyDriveTask}
    (step : task.runSessionJob job = some after) :
    opinionSystem.Follows task.collection after.collection (task.sessionJobEvent job) := by
  cases job with
  | modifyIsCompletedWithError text status =>
      obtain rfl : task.modifyIsCompletedWithError status = after := by
        simpa [runSessionJob] using step
      rfl
  | downloadMissingFiles =>
      obtain rfl : task.downloadMissingFiles = after := by simpa [runSessionJob] using step
      exact task.collection_downloadMissingFiles
  | myRootHashIsCalculated =>
      obtain rfl := Option.some.inj step
      exact task.collection_base (UpdateDriveTaskBase.opinionView_myRootHashIsCalculated _ _ _)
  | onCumulativeUploadsUpdated =>
      obtain rfl := Option.some.inj step
      cases interrupted : task.taskIsInterrupted with
      | true =>
          simp only [sessionJobEvent, interrupted, if_true]
          refine task.collection_base ?_
          simp only [UpdateDriveTaskBase.onCumulativeUploadsUpdated, interrupted, if_true]
          exact task.opinionView_finishTask
      | false =>
          cases root : task.sandboxRootHash with
          | none =>
              simp only [sessionJobEvent, interrupted, Bool.false_eq_true, if_false, root,
                Option.map_none]
              refine task.collection_base ?_
              simp only [UpdateDriveTaskBase.onCumulativeUploadsUpdated, interrupted,
                Bool.false_eq_true, if_false, root]
              rfl
          | some rootHash =>
              simp only [sessionJobEvent, interrupted, Bool.false_eq_true, if_false, root,
                Option.map_some]
              simp only [Transition.Follows, Collection.system, base, approval,
                ModifyApprovalTaskBase.base, ModifyApprovalTaskBase.collection,
                UpdateDriveTaskBase.onCumulativeUploadsUpdated, interrupted, Bool.false_eq_true,
                if_false, root, UpdateDriveTaskBase.executeOnBackgroundThread]
  | myOpinionIsCreated =>
      obtain rfl := Option.some.inj step
      cases interrupted : task.taskIsInterrupted with
      | true =>
          simp only [sessionJobEvent, interrupted, if_true]
          simp only [Transition.Follows, approval, ModifyApprovalTaskBase.myOpinionIsCreated, interrupted,
            if_true]
          exact ModifyApprovalTaskBase.collection_base _ task.opinionView_finishTask
      | false =>
          cases isOwn : task.myOpinion with
          | none =>
              simp only [sessionJobEvent, interrupted, Bool.false_eq_true, if_false, isOwn,
                Option.map_none]
              simp only [Transition.Follows, approval, ModifyApprovalTaskBase.myOpinionIsCreated,
                interrupted, isOwn, Bool.false_eq_true, if_false]
              rfl
          | some own =>
              simp only [sessionJobEvent, interrupted, Bool.false_eq_true, if_false, isOwn,
                Option.map_some]
              simp only [Transition.Follows, approval,
                ModifyApprovalTaskBase.collection_myOpinionIsCreated _ interrupted isOwn]
              simp only [Collection.system, ModifyApprovalTaskBase.collection, isOwn,
                Option.map_some]
  | synchronizationIsCompleted =>
      obtain rfl := Option.some.inj step
      rfl
  | modifyIsCompleted =>
      obtain rfl := Option.some.inj step
      exact task.collection_base (UpdateDriveTaskBase.opinionView_modifyIsCompleted _ _)
  | downloadNotification handle =>
      simp only [runSessionJob] at step
      split at step
      · obtain rfl := Option.some.inj step
        exact task.collection_downloadCompleted _
      · simp at step
  | createUnusedFileList | unusedFilesRemoved | startNextChunk | requestMissingChunkInfo
  | runNextTask => simp [runSessionJob] at step

theorem runBackgroundJob_collection {job : BackgroundJob} {result : BackgroundResult}
    {after : ModifyDriveTask} (step : task.runBackgroundJob job result = some after) :
    after.collection = task.collection := by
  simp only [runBackgroundJob] at step
  split at step
  · obtain rfl := Option.some.inj step
    exact task.collection_base (UpdateDriveTaskBase.opinionView_runSaveJob _ _)
  · obtain rfl := Option.some.inj step
    exact ModifyApprovalTaskBase.collection_continueSynchronizing _ _
  · obtain rfl := Option.some.inj step
    exact task.collection_prepareDownloadMissingFiles
  · obtain rfl := Option.some.inj step
    exact task.collection_modifyFsTreeInSandbox _
  · obtain rfl := Option.some.inj step
    rfl
  · simp at step

theorem processedModifyOpinion_collection {anOpinion : ApprovalTransactionInfo}
    (about : task.request.transactionHash = anOpinion.modifyTransactionHash) :
    (task.processedModifyOpinion anOpinion).1.collection =
      task.collection.receive replicatorNumber ApprovalTransactionInfo.replicatorKey
        validateOpinion anOpinion := by
  have own : task.collection.own = task.myOpinion := rfl
  have stored : (task.storeOpinion anOpinion).collection =
    task.collection.store ApprovalTransactionInfo.replicatorKey anOpinion := rfl
  cases isOwn : task.myOpinion with
  | none =>
      simp only [processedModifyOpinion, about, ne_eq, not_true_eq_false, if_false, isOwn]
      rw [Collection.receive, own, isOwn]
      exact stored
  | some myOpinion =>
      simp only [processedModifyOpinion, about, ne_eq, not_true_eq_false, if_false, isOwn]
      rw [Collection.receive, own, isOwn]
      dsimp only
      split
      · rw [← stored]
        exact ModifyApprovalTaskBase.collection_checkOpinionNumber _
      · rfl

theorem onApprovalTxPublished_collection
    (transaction : PublishedModificationApprovalTransactionInfo)
    (running : task.taskIsInterrupted = false) :
    (task.onApprovalTxPublished transaction).1.collection = { task.collection with closed := true } := by
  simp only [onApprovalTxPublished, running, Bool.false_eq_true, if_false]
  split
  · split
    · rfl
    · exact collection_base _ (UpdateDriveTaskBase.opinionView_startSynchronizingAfter _ _)
  · exact collection_breakTask _

/-- Every step of a modification task is a step of its collection or leaves it as
    it is. -/
theorem simulates_collection :
    Transition.Simulates modifyDriveSystem opinionSystem
      (fun task => task.collection) collectionEvent := by
  intro task event after step
  obtain ⟨-, handles⟩ := handles_of_step step
  cases handles with
  | runSessionJob jobs run =>
      have follows := runSessionJob_follows _ run
      simp only [collectionEvent, jobs, List.head?_cons, Option.bind_some]
      exact follows
  | runBackgroundJob jobs run =>
      have kept := runBackgroundJob_collection _ run
      exact kept
  | torrentsRemoved found =>
      exact task.collection_base (UpdateDriveTaskBase.opinionView_onTorrentsRemoved _ _)
  | metadataReceived found totalSize isValid => exact task.collection_onMetadataReceived _ _ _
  | modifyOpinionTimerExpired pending =>
      have enabled : task.collection.timer = .pending := pending
      simp only [Transition.Follows, collectionEvent, Collection.system, enabled, if_true,
        Option.some.injEq]
      exact (ModifyApprovalTaskBase.collection_opinionTimerExpired
        { task.toModifyApprovalTaskBase with modifyOpinionTimer := .expired }).symm
  | shareMyOpinionTimerExpired pending =>
      exact ModifyApprovalTaskBase.collection_shareMyOpinionTimerExpired _
  | opinionReceived anOpinion =>
      by_cases about : task.request.transactionHash = anOpinion.modifyTransactionHash
      · simp only [collectionEvent, if_pos about]
        simp only [Transition.Follows, processedModifyOpinion_collection _ about]
        rfl
      · have ignored : (task.processedModifyOpinion anOpinion).1 = task := by
          rw [processedModifyOpinion, if_pos about]
        simp only [collectionEvent, if_neg about, Transition.Follows, ignored]
  | approvalTxPublished transaction =>
      cases running : task.taskIsInterrupted with
      | true => simp only [collectionEvent, running, if_true, Transition.Follows, onApprovalTxPublished]
      | false =>
          simp only [collectionEvent, running, Bool.false_eq_true, if_false]
          simp only [Transition.Follows, onApprovalTxPublished_collection _ transaction running]
          rfl
  | approvalTxFailed transactionHash =>
      by_cases about : task.request.transactionHash = transactionHash ∧ task.taskIsInterrupted = false
      · simp only [collectionEvent, if_pos about]
        simp only [Transition.Follows, Collection.system, Option.some.injEq, Collection.fail,
          onApprovalTxFailed, about, true_and]
        cases received : task.modifyApproveTxReceived <;>
          simp [ModifyApprovalTaskBase.collection, received, approval, DriveParams.processOpinions]
      · have ignored : task.onApprovalTxFailed transactionHash = task := by
          rw [onApprovalTxFailed, if_neg (fun both => about ⟨both.1, both.2.1⟩)]
        simp only [collectionEvent, if_neg about, Transition.Follows, ignored]
  | cancelModify cancelRequest =>
      simp only [collectionEvent, Transition.Follows, shouldCancelModify]
      split
      · rfl
      · split
        · exact task.collection_breakTask
        · rfl
  | driveClose =>
      simp only [collectionEvent, Transition.Follows, onDriveClose]
      split
      · rfl
      · exact task.collection_breakTask
  | manualSynchronize =>
      simp only [collectionEvent, Transition.Follows, manualSynchronize]
      split
      · rfl
      · exact task.collection_breakTask
  | terminate =>
      simp only [collectionEvent, Transition.Follows, terminate, collection_breakTask]
      rfl
  | torrentFinished | pieceReceived | chunkInfoReceived | finishStream | setReplicators
  | setMinReplicatorsNumber => rfl

end ModifyDriveTask

end SiriusDrive
