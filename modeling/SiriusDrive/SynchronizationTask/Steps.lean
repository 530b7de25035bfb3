import SiriusDrive.SynchronizationTask

/-! # The steps of a synchronization

What an event does to the task, read off `handle` once. The invariants go through
these cases.
-/

namespace SiriusDrive.SynchronizationTask

/-- The event takes the task to the task after it. -/
inductive Handles (task : SynchronizationTask) : TaskEvent → SynchronizationTask → Prop
  | runSessionJob {job : SessionJob} {rest : List SessionJob} {after : SynchronizationTask}
      (jobs : task.sessionJobs = job :: rest)
      (run : (task.base fun base => { base with sessionJobs := rest }).runSessionJob job =
        some after) : Handles task .runSessionJob after
  | runBackgroundJob {job : BackgroundJob} {rest : List BackgroundJob} {result : BackgroundResult}
      {after : SynchronizationTask} (jobs : task.backgroundJobs = job :: rest)
      (run : (task.base fun base => { base with backgroundJobs := rest }).runBackgroundJob job
        result = some after) : Handles task (.runBackgroundJob result) after
  | torrentsRemoved {index : Nat} {removal : TorrentsRemoved}
      (found : task.removals[index]? = some removal) :
      Handles task (.torrentsRemoved index) (task.base fun base =>
        { base with removals := base.removals.eraseIdx index }.onTorrentsRemoved removal)
  | metadataReceived {handle : LtHandle} {torrent : Torrent}
      (found : task.activeTorrent handle .added = some torrent) (totalSize : Nat)
      (isValid : Bool) :
      Handles task (.metadataReceived handle totalSize isValid)
        (task.onMetadataReceived torrent totalSize isValid)
  | torrentFinished {handle : LtHandle} {torrent : Torrent}
      (found : task.activeTorrent handle .metadataReceived = some torrent) :
      Handles task (.torrentFinished handle) (task.base (·.torrentFinished torrent))
  | pieceReceived (uploader : Key) (size : Nat) :
      Handles task (.pieceReceived uploader size) (task.base (·.addTraffic uploader size))
  | approvalTxPublished (transaction : PublishedModificationApprovalTransactionInfo) :
      Handles task (.approvalTxPublished transaction) task.onApprovalTxPublished.1
  | driveClose : Handles task .driveClose task.onDriveClose
  | manualSynchronize : Handles task .manualSynchronize task.manualSynchronize
  | terminate : Handles task .terminate task.terminate
  | setReplicators (replicatorKeys : List ReplicatorKey) :
      Handles task (.setReplicators replicatorKeys) (task.base (·.setReplicators replicatorKeys))
  | setMinReplicatorsNumber (number : Nat) :
      Handles task (.setMinReplicatorsNumber number) (task.base (·.setMinReplicatorsNumber number))
  -- what does not concern the task
  | opinionReceived (anOpinion : ApprovalTransactionInfo) :
      Handles task (.opinionReceived anOpinion) task
  | approvalTxFailed (transactionHash : Hash256) :
      Handles task (.approvalTxFailed transactionHash) task
  | cancelModify (cancelRequest : ModificationCancelRequest) :
      Handles task (.cancelModify cancelRequest) task
  | chunkInfoReceived (chunkInfo : ChunkInfo) (isVerified : Bool) :
      Handles task (.chunkInfoReceived chunkInfo isVerified) task
  | finishStream (finishStream : StreamFinishRequest) :
      Handles task (.finishStream finishStream) task

variable {task after : SynchronizationTask} {event : TaskEvent}

theorem handles_of_handle (step : task.handle event = some after) : task.Handles event after := by
  cases event with
  | runSessionJob =>
      unfold handle at step
      simp only at step
      split at step
      · rename_i job base found
        obtain ⟨rest, jobs, rfl⟩ := UpdateDriveTaskBase.popSessionJob_eq_some found
        exact .runSessionJob jobs step
      · simp at step
  | runBackgroundJob result =>
      unfold handle at step
      simp only at step
      split at step
      · rename_i job base found
        obtain ⟨rest, jobs, rfl⟩ := UpdateDriveTaskBase.popBackgroundJob_eq_some found
        exact .runBackgroundJob jobs step
      · simp at step
  | torrentsRemoved index =>
      unfold handle at step
      simp only at step
      split at step
      · rename_i removal base found
        obtain ⟨isRemoval, rfl⟩ := UpdateDriveTaskBase.popRemoval_eq_some found
        obtain rfl := Option.some.inj step
        exact .torrentsRemoved isRemoval
      · simp at step
  | metadataReceived handle totalSize isValid =>
      unfold SynchronizationTask.handle at step
      simp only at step
      split at step
      · rename_i torrent found
        obtain rfl := Option.some.inj step
        exact .metadataReceived found totalSize isValid
      · simp at step
  | torrentFinished handle =>
      unfold SynchronizationTask.handle at step
      simp only at step
      split at step
      · rename_i torrent found
        obtain rfl := Option.some.inj step
        exact .torrentFinished found
      · simp at step
  | modifyOpinionTimerExpired | shareMyOpinionTimerExpired => cases step
  | pieceReceived | approvalTxPublished | driveClose | manualSynchronize | terminate
  | setReplicators | setMinReplicatorsNumber | opinionReceived | approvalTxFailed | cancelModify
  | chunkInfoReceived | finishStream =>
      obtain rfl := Option.some.inj step
      constructor

theorem handles_of_step (step : synchronizationSystem.step task event = some after) :
    task.fault = none ∧ task.Handles event after := by
  unfold synchronizationSystem at step
  simp only at step
  split_ifs at step with broken
  exact ⟨by simpa using broken, handles_of_handle step⟩

end SiriusDrive.SynchronizationTask
