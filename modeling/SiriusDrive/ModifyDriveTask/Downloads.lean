import SiriusDrive.ModifyDriveTask.ActionList
import SiriusDrive.ModifyDriveTask.Steps
import SiriusDrive.UpdateDriveTaskBase.Downloads

/-! # The downloads of a modification task

The task downloads its action list and then the missing files one by one. What a step
does to the downloads is read off once: either it belongs to this chain or it leaves
the downloads as they are, but for those an interruption removes.
-/

namespace SiriusDrive.ModifyDriveTask

open ModifyApprovalTaskBase (KeepsDownloaded)
open UpdateDriveTaskBase (KeepsDownloads)

structure LeavesDownloads (before after : ModifyDriveTask) : Prop extends
    KeepsDownloaded before.toModifyApprovalTaskBase after.toModifyApprovalTaskBase where
  request : after.request = before.request
  actionListFile : after.actionListFile = before.actionListFile

/-- The task after `m_taskIsInterrupted = true`. -/
def interrupted (task : ModifyDriveTask) : ModifyDriveTask :=
  task.base fun base => { base with taskIsInterrupted := true }

def Interrupts (task : ModifyDriveTask) : TaskEvent → Prop
  | .approvalTxPublished transaction => ¬ task.Applies transaction
  | .cancelModify cancelRequest =>
      cancelRequest.modifyTransactionHash = task.request.transactionHash
  | .driveClose | .manualSynchronize | .terminate => True
  | _ => False

inductive DownloadStep (task : ModifyDriveTask) : TaskEvent → ModifyDriveTask → Prop
  | other {event : TaskEvent} {after : ModifyDriveTask} (leaves : task.LeavesDownloads after) :
      DownloadStep task event after
  | breaks {event : TaskEvent} {after : ModifyDriveTask} (interrupts : task.Interrupts event)
      (leaves : task.interrupted.LeavesDownloads after)
      (removed : ∀ torrent ∈ after.torrents, torrent.isActive = true →
        some torrent.handle ≠ task.downloadingLtHandle) : DownloadStep task event after
  | prepares {rest : List BackgroundJob} {result : BackgroundResult}
      (jobs : task.backgroundJobs = .prepareDownloadMissingFiles :: rest) :
      DownloadStep task (.runBackgroundJob result)
        (task.base fun base => { base with backgroundJobs := rest }).prepareDownloadMissingFiles
  | selects {rest : List SessionJob} (jobs : task.sessionJobs = .downloadMissingFiles :: rest) :
      DownloadStep task .runSessionJob
        (task.base fun base => { base with sessionJobs := rest }).downloadMissingFiles
  | metadataReceived {handle : LtHandle} {torrent : Torrent}
      (found : task.activeTorrent handle .added = some torrent) (totalSize : Nat)
      (isValid : Bool) :
      DownloadStep task (.metadataReceived handle totalSize isValid)
        (task.onMetadataReceived torrent totalSize isValid)
  | torrentFinished {handle : LtHandle} {torrent : Torrent}
      (found : task.activeTorrent handle .metadataReceived = some torrent) :
      DownloadStep task (.torrentFinished handle) (task.base (·.torrentFinished torrent))
  | saves {handle : LtHandle} {rest : List BackgroundJob} {result : BackgroundResult}
      (jobs : task.backgroundJobs = .save (.torrentFile handle) :: rest) :
      DownloadStep task (.runBackgroundJob result) (task.base fun base =>
        { base with backgroundJobs := rest }.executeOnSessionThread (.downloadNotification handle))
  | completes {handle : LtHandle} {rest : List SessionJob} {torrent : Torrent}
      (jobs : task.sessionJobs = .downloadNotification handle :: rest)
      (found : task.findTorrent handle = some torrent) :
      DownloadStep task .runSessionJob
        ((task.base fun base => { base with sessionJobs := rest }).downloadCompleted torrent)

variable {before middle after task : ModifyDriveTask} {event : TaskEvent}

theorem LeavesDownloads.refl (task : ModifyDriveTask) : task.LeavesDownloads task :=
  ⟨.refl _, rfl, rfl⟩

theorem LeavesDownloads.comp (second : middle.LeavesDownloads after)
    (first : before.LeavesDownloads middle) : before.LeavesDownloads after where
  toKeepsDownloaded := second.toKeepsDownloaded.comp first.toKeepsDownloaded
  request := second.request.trans first.request
  actionListFile := second.actionListFile.trans first.actionListFile

theorem LeavesDownloads.map_interrupted (leaves : before.LeavesDownloads after) :
    before.interrupted.LeavesDownloads after.interrupted where
  sessionJobs := leaves.sessionJobs
  backgroundJobs := leaves.backgroundJobs
  torrents := leaves.torrents
  interrupted := rfl
  uploadedDataSize := leaves.uploadedDataSize
  request := leaves.request
  actionListFile := leaves.actionListFile

theorem leavesDownloads_approval {f : ModifyApprovalTaskBase → ModifyApprovalTaskBase}
    (keeps : task.KeepsDownloaded (f task.toModifyApprovalTaskBase)) :
    task.LeavesDownloads (task.approval f) :=
  ⟨keeps, rfl, rfl⟩

theorem leavesDownloads_base {f : UpdateDriveTaskBase → UpdateDriveTaskBase}
    (keeps : task.KeepsDownloads (f task.toUpdateDriveTaskBase)) :
    task.LeavesDownloads (task.base f) :=
  ⟨⟨keeps, rfl⟩, rfl, rfl⟩

theorem leavesDownloads_popSessionJob {job : SessionJob} {rest : List SessionJob}
    (jobs : task.sessionJobs = job :: rest) (other : job.downloads = false) :
    task.LeavesDownloads (task.base fun base => { base with sessionJobs := rest }) := by
  apply leavesDownloads_base
  constructor
  · simp [jobs, other]
  · rfl
  · exact ⟨[], by simp⟩
  · rfl

theorem leavesDownloads_popBackgroundJob {job : BackgroundJob} {rest : List BackgroundJob}
    (jobs : task.backgroundJobs = job :: rest) (other : job.downloads = false) :
    task.LeavesDownloads (task.base fun base => { base with backgroundJobs := rest }) := by
  apply leavesDownloads_base
  constructor
  · rfl
  · simp [jobs, other]
  · exact ⟨[], by simp⟩
  · rfl

theorem leavesDownloads_modifyIsCompletedWithError (task : ModifyDriveTask)
    (status : ModificationStatus) :
    task.LeavesDownloads (task.modifyIsCompletedWithError status) := by
  apply leavesDownloads_base
  exact (UpdateDriveTaskBase.keepsDownloads_executeOnBackgroundThread _ (by rfl)).comp
    (.of_eq rfl rfl rfl rfl)

theorem leavesDownloads_modifyFsTreeInSandbox (task : ModifyDriveTask) (result : SandboxResult) :
    task.LeavesDownloads (task.modifyFsTreeInSandbox result) := by
  unfold modifyFsTreeInSandbox
  split
  · simp only
    split
    · exact (leavesDownloads_base (UpdateDriveTaskBase.keepsDownloads_executeOnSessionThread _
        (by rfl))).comp (leavesDownloads_base (.of_eq rfl rfl rfl rfl))
    · exact (leavesDownloads_base (UpdateDriveTaskBase.keepsDownloads_executeOnSessionThread _
        (by rfl))).comp (leavesDownloads_base (.of_eq rfl rfl rfl rfl))
  · exact leavesDownloads_base (task.keepsDownloads_break _)

theorem leavesDownloads_copyDriveToSandbox (task : ModifyDriveTask) :
    task.LeavesDownloads task.copyDriveToSandbox := by
  apply leavesDownloads_base
  exact (UpdateDriveTaskBase.keepsDownloads_executeOnSessionThread _ (by rfl)).comp
    (.of_eq rfl rfl rfl rfl)

theorem leavesDownloads_processedModifyOpinion (task : ModifyDriveTask)
    (anOpinion : ApprovalTransactionInfo) :
    task.LeavesDownloads (task.processedModifyOpinion anOpinion).1 := by
  have stores : task.LeavesDownloads (task.storeOpinion anOpinion) :=
    leavesDownloads_approval ⟨.refl _, rfl⟩
  unfold processedModifyOpinion
  split
  · exact .refl task
  · split
    · split
      · exact (leavesDownloads_approval (ModifyApprovalTaskBase.keepsDownloaded_checkOpinionNumber
          _)).comp stores
      · exact .refl task
    · exact stores

theorem leavesDownloads_onApprovalTxFailed (task : ModifyDriveTask) (transactionHash : Hash256) :
    task.LeavesDownloads (task.onApprovalTxFailed transactionHash) := by
  unfold onApprovalTxFailed
  split
  · exact leavesDownloads_approval ⟨.of_eq rfl rfl rfl rfl, rfl⟩
  · exact .refl task

/-- Breaking a task interrupts it and removes the torrent that is being downloaded. -/
theorem breakTask_leaves (task : ModifyDriveTask) :
    task.interrupted.LeavesDownloads task.breakTask ∧
      ∀ torrent ∈ task.breakTask.torrents, torrent.isActive = true →
        some torrent.handle ≠ task.downloadingLtHandle := by
  obtain ⟨keeps, removed⟩ :=
    task.toUpdateDriveTaskBase.keepsDownloads_breakTorrentDownload task.modifyApproveTxReceived
  exact ⟨⟨⟨keeps, rfl⟩, rfl, rfl⟩, removed⟩

theorem downloadStep_breakTask (interrupts : task.Interrupts event)
    (leaves : task.LeavesDownloads middle)
    (downloading : middle.downloadingLtHandle = task.downloadingLtHandle) :
    task.DownloadStep event middle.breakTask := by
  obtain ⟨breaks, removed⟩ := middle.breakTask_leaves
  rw [downloading] at removed
  exact .breaks interrupts (breaks.comp leaves.map_interrupted) removed

theorem downloadStep_onApprovalTxPublished (task : ModifyDriveTask)
    (transaction : PublishedModificationApprovalTransactionInfo) :
    task.DownloadStep (.approvalTxPublished transaction) (task.onApprovalTxPublished transaction).1 := by
  have receives : task.LeavesDownloads task.setApproveTxReceived :=
    leavesDownloads_approval ⟨.refl _, rfl⟩
  cases running : task.taskIsInterrupted with
  | true =>
      rw [onApprovalTxPublished_interrupted running]
      exact .other (.refl task)
  | false =>
      by_cases applies : task.Applies transaction
      · cases calculated : task.sandboxCalculated with
        | false =>
            rw [onApprovalTxPublished_waits running applies calculated]
            exact .other receives
        | true =>
            rw [onApprovalTxPublished_applies running applies calculated]
            apply DownloadStep.other
            exact (leavesDownloads_base
              (UpdateDriveTaskBase.keepsDownloads_startSynchronizingAfter _ transaction)).comp receives
      · rw [onApprovalTxPublished_breaks running applies]
        apply downloadStep_breakTask
        · exact applies
        · exact (leavesDownloads_base (.of_eq rfl rfl rfl rfl)).comp receives
        · rfl

theorem downloadStep_runSessionJob {job : SessionJob} {rest : List SessionJob}
    (jobs : task.sessionJobs = job :: rest)
    (run : (task.base fun base => { base with sessionJobs := rest }).runSessionJob job =
      some after) : task.DownloadStep .runSessionJob after := by
  cases job with
  | downloadMissingFiles =>
      obtain rfl := Option.some.inj run
      exact .selects jobs
  | downloadNotification handle =>
      unfold runSessionJob at run
      simp only at run
      split at run
      · rename_i torrent found
        obtain rfl := Option.some.inj run
        exact .completes jobs found
      · simp at run
  | modifyIsCompletedWithError errorText status =>
      obtain rfl := Option.some.inj run
      apply DownloadStep.other
      exact (leavesDownloads_modifyIsCompletedWithError _ status).comp
        (leavesDownloads_popSessionJob jobs rfl)
  | myRootHashIsCalculated =>
      obtain rfl := Option.some.inj run
      apply DownloadStep.other
      exact (leavesDownloads_base (UpdateDriveTaskBase.keepsDownloads_myRootHashIsCalculated _ _
        _)).comp (leavesDownloads_popSessionJob jobs rfl)
  | onCumulativeUploadsUpdated =>
      obtain rfl := Option.some.inj run
      apply DownloadStep.other
      exact (leavesDownloads_base (UpdateDriveTaskBase.keepsDownloads_onCumulativeUploadsUpdated _
        _)).comp (leavesDownloads_popSessionJob jobs rfl)
  | myOpinionIsCreated =>
      obtain rfl := Option.some.inj run
      apply DownloadStep.other
      exact (leavesDownloads_approval (ModifyApprovalTaskBase.keepsDownloaded_myOpinionIsCreated
        _)).comp (leavesDownloads_popSessionJob jobs rfl)
  | synchronizationIsCompleted =>
      obtain rfl := Option.some.inj run
      apply DownloadStep.other
      exact (leavesDownloads_base (UpdateDriveTaskBase.keepsDownloads_synchronizationIsCompleted _
        _)).comp (leavesDownloads_popSessionJob jobs rfl)
  | modifyIsCompleted =>
      obtain rfl := Option.some.inj run
      apply DownloadStep.other
      exact (leavesDownloads_base (UpdateDriveTaskBase.keepsDownloads_modifyIsCompleted _
        _)).comp (leavesDownloads_popSessionJob jobs rfl)
  | createUnusedFileList | unusedFilesRemoved | startNextChunk | requestMissingChunkInfo
  | runNextTask => cases run

theorem downloadStep_runBackgroundJob {job : BackgroundJob} {rest : List BackgroundJob}
    {result : BackgroundResult} (jobs : task.backgroundJobs = job :: rest)
    (run : (task.base fun base => { base with backgroundJobs := rest }).runBackgroundJob job
      result = some after) : task.DownloadStep (.runBackgroundJob result) after := by
  unfold runBackgroundJob at run
  split at run
  · rename_i save
    obtain rfl := Option.some.inj run
    cases save with
    | torrentFile handle => exact .saves jobs
    | notApprovedCumulativeUploads | singleApprovalTransaction | approvedCumulativeUploads
    | clearSandbox =>
        apply DownloadStep.other
        exact (leavesDownloads_base (UpdateDriveTaskBase.keepsDownloads_runSaveJob _ (by rfl))).comp
          (leavesDownloads_popBackgroundJob jobs rfl)
  · obtain rfl := Option.some.inj run
    apply DownloadStep.other
    exact (leavesDownloads_approval (ModifyApprovalTaskBase.keepsDownloaded_continueSynchronizing _
      _)).comp (leavesDownloads_popBackgroundJob jobs rfl)
  · obtain rfl := Option.some.inj run
    exact .prepares jobs
  · obtain rfl := Option.some.inj run
    apply DownloadStep.other
    exact (leavesDownloads_modifyFsTreeInSandbox _ _).comp
      (leavesDownloads_popBackgroundJob jobs rfl)
  · obtain rfl := Option.some.inj run
    apply DownloadStep.other
    exact (leavesDownloads_copyDriveToSandbox _).comp (leavesDownloads_popBackgroundJob jobs rfl)
  · simp at run

theorem downloadStep_of_handles (handles : task.Handles event after) :
    task.DownloadStep event after := by
  cases handles with
  | runSessionJob jobs run => exact downloadStep_runSessionJob jobs run
  | runBackgroundJob jobs run => exact downloadStep_runBackgroundJob jobs run
  | torrentsRemoved found =>
      apply DownloadStep.other
      apply leavesDownloads_base
      exact (UpdateDriveTaskBase.keepsDownloads_onTorrentsRemoved _ _).comp (.of_eq rfl rfl rfl rfl)
  | metadataReceived found totalSize isValid => exact .metadataReceived found totalSize isValid
  | torrentFinished found => exact .torrentFinished found
  | pieceReceived uploader size => exact .other (leavesDownloads_base (.of_eq rfl rfl rfl rfl))
  | modifyOpinionTimerExpired pending =>
      apply DownloadStep.other
      apply leavesDownloads_approval
      exact (ModifyApprovalTaskBase.keepsDownloaded_opinionTimerExpired _).comp ⟨.refl _, rfl⟩
  | shareMyOpinionTimerExpired pending =>
      apply DownloadStep.other
      exact leavesDownloads_approval
        task.toModifyApprovalTaskBase.keepsDownloaded_shareMyOpinionTimerExpired
  | opinionReceived anOpinion => exact .other (task.leavesDownloads_processedModifyOpinion anOpinion)
  | approvalTxPublished transaction => exact task.downloadStep_onApprovalTxPublished transaction
  | approvalTxFailed transactionHash =>
      exact .other (task.leavesDownloads_onApprovalTxFailed transactionHash)
  | cancelModify cancelRequest =>
      unfold shouldCancelModify
      split
      · exact .other (.refl task)
      · split
        · rename_i isOwn
          exact downloadStep_breakTask isOwn (.refl task) rfl
        · exact .other (.refl task)
  | driveClose =>
      unfold onDriveClose
      split
      · exact .other (.refl task)
      · exact downloadStep_breakTask trivial (.refl task) rfl
  | manualSynchronize =>
      unfold ModifyDriveTask.manualSynchronize
      split
      · exact .other (.refl task)
      · exact downloadStep_breakTask trivial (.refl task) rfl
  | terminate =>
      apply downloadStep_breakTask
      · trivial
      · exact leavesDownloads_approval ⟨.of_eq rfl rfl rfl rfl, rfl⟩
      · rfl
  | setReplicators replicatorKeys =>
      exact .other (leavesDownloads_base (.of_eq rfl rfl rfl rfl))
  | setMinReplicatorsNumber number =>
      exact .other (leavesDownloads_base (.of_eq rfl rfl rfl rfl))
  | chunkInfoReceived chunkInfo isVerified => exact .other (.refl _)
  | finishStream finishStream => exact .other (.refl _)

/-! ## The steps of the chain -/

/-- The action list is there and the hashes of its uploads can be read, even if the rest of
    the file cannot. -/
def PreparesFiles (task : ModifyDriveTask) : Prop :=
  ∃ file, task.actionListFile = some file ∧ file.IsReadable

theorem leavesDownloads_prepare (unprepared : ¬ task.PreparesFiles) :
    task.LeavesDownloads task.prepareDownloadMissingFiles := by
  unfold prepareDownloadMissingFiles
  cases isFile : task.actionListFile with
  | none => exact .refl task
  | some file =>
      have unreadable : ¬ file.IsReadable := fun readable => unprepared ⟨file, isFile, readable⟩
      cases file with
      | undecodable loaded =>
          simp only
          split
          · have reports : task.KeepsDownloads (task.executeOnSessionThread
                (.modifyIsCompletedWithError "modify drive: invalid 'ActionList'"
                  .invalidActionList)) :=
              task.keepsDownloads_executeOnSessionThread rfl
            exact (leavesDownloads_base (UpdateDriveTaskBase.keepsDownloads_break _ _)).comp
              (leavesDownloads_base reports)
          · rename_i missed prepared
            exact absurd (prepareMissed_ok prepared).1 unreadable
      | actions actionList =>
          simp only
          split
          · exact leavesDownloads_base (task.keepsDownloads_break _)
          · rename_i missed prepared
            exact absurd (prepareMissed_ok prepared).1 unreadable

theorem prepare_of_preparesFiles (prepares : task.PreparesFiles) :
    ∃ middle, task.LeavesDownloads middle ∧
      task.prepareDownloadMissingFiles =
        middle.base (·.executeOnSessionThread .downloadMissingFiles) := by
  obtain ⟨file, isFile, readable⟩ := prepares
  unfold prepareDownloadMissingFiles
  rw [isFile]
  cases file with
  | undecodable loaded =>
      have reports : task.KeepsDownloads (task.executeOnSessionThread
          (.modifyIsCompletedWithError "modify drive: invalid 'ActionList'" .invalidActionList)) :=
        task.keepsDownloads_executeOnSessionThread rfl
      obtain ⟨missed, prepared⟩ := prepareMissed_total readable task.missedFileSet
      refine ⟨{ task.base (·.executeOnSessionThread (.modifyIsCompletedWithError
        "modify drive: invalid 'ActionList'" .invalidActionList)) with missedFileSet := missed },
        ?_, ?_⟩
      · exact ⟨⟨reports, rfl⟩, rfl, rfl⟩
      · have same : (task.base (·.executeOnSessionThread (.modifyIsCompletedWithError
            "modify drive: invalid 'ActionList'" .invalidActionList))).missedFileSet =
            task.missedFileSet := rfl
        simp only [same, prepared]
  | actions actionList =>
      obtain ⟨missed, prepared⟩ := prepareMissed_total readable task.missedFileSet
      refine ⟨{ task with missedFileSet := missed }, ⟨⟨.of_eq rfl rfl rfl rfl, rfl⟩, rfl, rfl⟩, ?_⟩
      simp only [prepared]

/-- A download that counts against the data limit is started, and nothing else changes about
    the downloads. -/
structure StartsDownload (before after : ModifyDriveTask) (use : DownloadUse) : Prop where
  sessionJobs : after.sessionJobs = before.sessionJobs
  backgroundJobs : after.backgroundJobs = before.backgroundJobs
  torrents : ∃ infoHash, after.torrents = before.torrents ++
    [{ handle := before.drive.nextHandle, use, infoHash
       downloadLimit := u64Sub before.request.maxDataSize before.uploadedDataSize }]
  interrupted : after.taskIsInterrupted = before.taskIsInterrupted
  uploadedDataSize : after.uploadedDataSize = before.uploadedDataSize
  request : after.request = before.request

theorem startsDownload_download (task : ModifyDriveTask) (use : DownloadUse)
    (infoHash : InfoHash) : task.StartsDownload (task.download use infoHash) use :=
  ⟨rfl, rfl, ⟨infoHash, rfl⟩, rfl, rfl, rfl⟩

/-- The next missing file is downloaded, or there is nothing to download any more. -/
theorem downloadMissingFiles_cases (task : ModifyDriveTask) :
    task.LeavesDownloads task.downloadMissingFiles ∨
      task.StartsDownload task.downloadMissingFiles .missingFile := by
  unfold downloadMissingFiles
  split
  · exact .inl (leavesDownloads_base (task.keepsDownloads_break _))
  · rename_i fileToDownload missed _
    exact .inr ⟨rfl, rfl, ⟨fileToDownload, rfl⟩, rfl, rfl, rfl⟩
  · apply Or.inl
    refine ⟨⟨?_, rfl⟩, rfl, rfl⟩
    exact (UpdateDriveTaskBase.keepsDownloads_executeOnBackgroundThread _ (by rfl)).comp
      (.of_eq rfl rfl rfl rfl)

/-- A download that fails is dropped, and the task goes on without it. -/
theorem leavesDownloads_downloadFailed (task : ModifyDriveTask) (infoHash : InfoHash) :
    task.LeavesDownloads (task.downloadFailed infoHash) :=
  (leavesDownloads_modifyIsCompletedWithError _ .downloadFailed).comp
    (leavesDownloads_base (.of_eq rfl rfl rfl rfl))

/-- Only what interrupts the task changes `m_taskIsInterrupted`, and it removes a download. -/
theorem DownloadStep.taskIsInterrupted (step : task.DownloadStep event after) :
    after.taskIsInterrupted = task.taskIsInterrupted ∨
      task.Interrupts event ∧ task.interrupted.LeavesDownloads after ∧
        ∀ torrent ∈ after.torrents, torrent.isActive = true →
          some torrent.handle ≠ task.downloadingLtHandle := by
  cases step with
  | other leaves => exact .inl leaves.interrupted
  | breaks interrupts leaves removed => exact .inr ⟨interrupts, leaves, removed⟩
  | @prepares rest result jobs =>
      apply Or.inl
      by_cases prepares : (task.base fun base => { base with backgroundJobs := rest }).PreparesFiles
      · obtain ⟨middle, leaves, isMiddle⟩ := prepare_of_preparesFiles prepares
        rw [isMiddle]
        exact leaves.interrupted
      · exact (leavesDownloads_prepare prepares).interrupted
  | selects jobs =>
      apply Or.inl
      rcases downloadMissingFiles_cases _ with leaves | starts
      · exact leaves.interrupted
      · exact starts.interrupted
  | metadataReceived found totalSize isValid =>
      apply Or.inl
      unfold onMetadataReceived
      split
      · rfl
      · exact (leavesDownloads_downloadFailed _ _).interrupted
  | torrentFinished found => exact .inl rfl
  | saves jobs => exact .inl rfl
  | completes jobs found =>
      apply Or.inl
      unfold downloadCompleted
      split
      · unfold actionListDownloaded
        split <;> rfl
      · rcases downloadMissingFiles_cases _ with leaves | starts
        · exact leaves.interrupted
        · exact starts.interrupted

end SiriusDrive.ModifyDriveTask
