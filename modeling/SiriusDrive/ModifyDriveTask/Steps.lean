import SiriusDrive.ModifyDriveTask

/-! # The steps of a modification task

What an event does to the task, read off `handle` once. The invariants go through
these cases.
-/

namespace SiriusDrive.ModifyDriveTask

/-- The event takes the task to the task after it. -/
inductive Handles (task : ModifyDriveTask) : TaskEvent → ModifyDriveTask → Prop
  | runSessionJob {job : SessionJob} {rest : List SessionJob} {after : ModifyDriveTask}
      (jobs : task.sessionJobs = job :: rest)
      (run : (task.base fun base => { base with sessionJobs := rest }).runSessionJob job =
        some after) : Handles task .runSessionJob after
  | runBackgroundJob {job : BackgroundJob} {rest : List BackgroundJob} {result : BackgroundResult}
      {after : ModifyDriveTask} (jobs : task.backgroundJobs = job :: rest)
      (run : (task.base fun base => { base with backgroundJobs := rest }).runBackgroundJob job
        result = some after) : Handles task (.runBackgroundJob result) after
  | torrentsRemoved {index : Nat} {removal : TorrentsRemoved}
      (found : task.removals[index]? = some removal) :
      Handles task (.torrentsRemoved index) (task.base fun base =>
        { base with removals := base.removals.eraseIdx index }.onTorrentsRemoved removal)
  | metadataReceived {handle : LtHandle} {torrent : Torrent}
      (found : task.activeTorrent handle .added = some torrent) (totalSize : Nat)
      (isValid : Bool) :
      Handles task (.metadataReceived handle totalSize isValid)
        (task.onMetadataReceived torrent totalSize isValid)
  | torrentFinished {handle : LtHandle} {torrent : Torrent}
      (found : task.activeTorrent handle .metadataReceived = some torrent) :
      Handles task (.torrentFinished handle) (task.base (·.torrentFinished torrent))
  | pieceReceived (uploader : Key) (size : Nat) :
      Handles task (.pieceReceived uploader size) (task.base (·.addTraffic uploader size))
  | modifyOpinionTimerExpired (pending : task.modifyOpinionTimer = .pending) :
      Handles task .modifyOpinionTimerExpired (task.approval fun approval =>
        { approval with modifyOpinionTimer := .expired }.opinionTimerExpired)
  | shareMyOpinionTimerExpired (pending : task.shareMyOpinionTimer = .pending) :
      Handles task .shareMyOpinionTimerExpired (task.approval (·.shareMyOpinionTimerExpired))
  | opinionReceived (anOpinion : ApprovalTransactionInfo) :
      Handles task (.opinionReceived anOpinion) (task.processedModifyOpinion anOpinion).1
  | approvalTxPublished (transaction : PublishedModificationApprovalTransactionInfo) :
      Handles task (.approvalTxPublished transaction) (task.onApprovalTxPublished transaction).1
  | approvalTxFailed (transactionHash : Hash256) :
      Handles task (.approvalTxFailed transactionHash) (task.onApprovalTxFailed transactionHash)
  | cancelModify (cancelRequest : ModificationCancelRequest) :
      Handles task (.cancelModify cancelRequest) (task.shouldCancelModify cancelRequest).1
  | driveClose : Handles task .driveClose task.onDriveClose
  | manualSynchronize : Handles task .manualSynchronize task.manualSynchronize
  | terminate : Handles task .terminate task.terminate
  | setReplicators (replicatorKeys : List ReplicatorKey) :
      Handles task (.setReplicators replicatorKeys) (task.base (·.setReplicators replicatorKeys))
  | setMinReplicatorsNumber (number : Nat) :
      Handles task (.setMinReplicatorsNumber number) (task.base (·.setMinReplicatorsNumber number))
  | chunkInfoReceived (chunkInfo : ChunkInfo) (isVerified : Bool) :
      Handles task (.chunkInfoReceived chunkInfo isVerified) task
  | finishStream (finishStream : StreamFinishRequest) :
      Handles task (.finishStream finishStream) task

variable {task after : ModifyDriveTask} {event : TaskEvent}

theorem handles_of_handle (step : task.handle event = some after) : task.Handles event after := by
  cases event with
  | runSessionJob =>
      unfold handle at step
      simp only at step
      split at step
      · rename_i job base found
        obtain ⟨rest, jobs, rfl⟩ := UpdateDriveTaskBase.popSessionJob_eq_some found
        exact .runSessionJob jobs step
      · simp at step
  | runBackgroundJob result =>
      unfold handle at step
      simp only at step
      split at step
      · rename_i job base found
        obtain ⟨rest, jobs, rfl⟩ := UpdateDriveTaskBase.popBackgroundJob_eq_some found
        exact .runBackgroundJob jobs step
      · simp at step
  | torrentsRemoved index =>
      unfold handle at step
      simp only at step
      split at step
      · rename_i removal base found
        obtain ⟨isRemoval, rfl⟩ := UpdateDriveTaskBase.popRemoval_eq_some found
        obtain rfl := Option.some.inj step
        exact .torrentsRemoved isRemoval
      · simp at step
  | metadataReceived handle totalSize isValid =>
      unfold ModifyDriveTask.handle at step
      simp only at step
      split at step
      · rename_i torrent found
        obtain rfl := Option.some.inj step
        exact .metadataReceived found totalSize isValid
      · simp at step
  | torrentFinished handle =>
      unfold ModifyDriveTask.handle at step
      simp only at step
      split at step
      · rename_i torrent found
        obtain rfl := Option.some.inj step
        exact .torrentFinished found
      · simp at step
  | modifyOpinionTimerExpired =>
      unfold handle at step
      simp only at step
      split_ifs at step with pending
      obtain rfl := Option.some.inj step
      exact .modifyOpinionTimerExpired pending
  | shareMyOpinionTimerExpired =>
      unfold handle at step
      simp only at step
      split_ifs at step with pending
      obtain rfl := Option.some.inj step
      exact .shareMyOpinionTimerExpired pending
  | pieceReceived | opinionReceived | approvalTxPublished | approvalTxFailed | cancelModify
  | driveClose | manualSynchronize | terminate | setReplicators | setMinReplicatorsNumber
  | chunkInfoReceived | finishStream =>
      obtain rfl := Option.some.inj step
      constructor

theorem handles_of_step (step : modifyDriveSystem.step task event = some after) :
    task.fault = none ∧ task.Handles event after := by
  unfold modifyDriveSystem at step
  simp only at step
  split_ifs at step with broken
  exact ⟨by simpa using broken, handles_of_handle step⟩

theorem step_runSessionJob {job : SessionJob} {rest : List SessionJob} (running : task.fault = none)
    (jobs : task.sessionJobs = job :: rest) :
    modifyDriveSystem.step task .runSessionJob =
      (task.base fun base => { base with sessionJobs := rest }).runSessionJob job := by
  have popped : task.popSessionJob =
      some (job, { task.toUpdateDriveTaskBase with sessionJobs := rest }) := by
    rw [UpdateDriveTaskBase.popSessionJob, jobs]
  have goesOn : ¬ task.fault.isSome = true := by simp [running]
  unfold modifyDriveSystem handle
  simp only [if_neg goesOn, popped]
  rfl

theorem step_runBackgroundJob {job : BackgroundJob} {rest : List BackgroundJob}
    (running : task.fault = none) (jobs : task.backgroundJobs = job :: rest)
    (result : BackgroundResult) :
    modifyDriveSystem.step task (.runBackgroundJob result) =
      (task.base fun base => { base with backgroundJobs := rest }).runBackgroundJob job result := by
  have popped : task.popBackgroundJob =
      some (job, { task.toUpdateDriveTaskBase with backgroundJobs := rest }) := by
    rw [UpdateDriveTaskBase.popBackgroundJob, jobs]
  have goesOn : ¬ task.fault.isSome = true := by simp [running]
  unfold modifyDriveSystem handle
  simp only [if_neg goesOn, popped]
  rfl

end SiriusDrive.ModifyDriveTask
