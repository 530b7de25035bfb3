import SiriusDrive.ModifyDriveTask.Steps
import SiriusDrive.UpdateDriveTaskBase.SandboxView

/-! # What a modification task does to its sandbox

A step calculates the sandbox, makes it a copy of the drive again, reports it in the
own opinion or makes it the drive. Every other step keeps it as it is.
-/

namespace SiriusDrive

/-- The background thread has run a job whose result says nothing else. -/
def TaskEvent.isDone : TaskEvent → Bool
  | .runBackgroundJob (.fileSystem .done) => true
  | _ => false

theorem TaskEvent.isDone_iff {event : TaskEvent} :
    event.isDone = true ↔ event = .runBackgroundJob (.fileSystem .done) := by
  constructor
  · intro done
    unfold isDone at done
    split at done
    · rfl
    · simp at done
  · rintro rfl
    rfl

namespace ModifyDriveTask

variable (task : ModifyDriveTask)

def view : SandboxView × ModificationRequest := (task.sandboxView, task.request)

/-- The event runs the job of `modifyIsCompletedWithError`. -/
def CopiesDrive (event : TaskEvent) : Prop :=
  task.fault = none ∧ task.backgroundJobs.head? = some .copyDriveToSandbox ∧ event.isDone = true

instance (event : TaskEvent) : Decidable (task.CopiesDrive event) :=
  inferInstanceAs (Decidable (_ ∧ _ ∧ _))

inductive SandboxStep (event : TaskEvent) (after : ModifyDriveTask) : Prop
  | keeps (same : after.view = task.view)
  | calculates (result : SandboxResult) (isEvent : event = .runBackgroundJob (.sandbox result))
      (isView : after.view = ({ task.sandboxView with
        sandboxFsTree := some result.fsTree
        sandboxRootHash := some result.rootHash
        metaFilesSize := result.metaFilesSize
        sandboxDriveSize := result.sandboxDriveSize
        fsTreeSize := result.fsTreeSize }, task.request))
  | copiesDrive (copies : task.CopiesDrive event)
      (isView : after.view = ({ task.sandboxView with
        sandboxFsTree := some task.drive.fsTree
        sandboxRootHash := some task.drive.rootHash }, task.request))
  | formsOpinion (rootHash : InfoHash) (isCalculated : task.sandboxRootHash = some rootHash)
      (isView : after.view = ({ task.sandboxView with
        myOpinion := some (task.formMyOpinion task.request.transactionHash rootHash) },
          task.request))
  | completes (rootHash : InfoHash) (fsTree : FsTree)
      (isCalculated : task.sandboxRootHash = some rootHash)
      (isSandbox : task.sandboxFsTree = some fsTree)
      (isView : after.view = ({ task.sandboxView with
        fsTree, rootHash
        lastApprovedModification := task.request.transactionHash
        sandboxFsTree := none
        modificationIsCompleted := true }, task.request))

/-! ## The functions that keep the sandbox -/

theorem view_approval {f : ModifyApprovalTaskBase → ModifyApprovalTaskBase}
    (frame : (f task.toModifyApprovalTaskBase).sandboxView = task.sandboxView) :
    (task.approval f).view = task.view :=
  Prod.ext frame rfl

theorem view_base {f : UpdateDriveTaskBase → UpdateDriveTaskBase}
    (frame : (f task.toUpdateDriveTaskBase).sandboxView = task.sandboxView) :
    (task.base f).view = task.view :=
  Prod.ext frame rfl

theorem view_breakTask : task.breakTask.view = task.view :=
  task.view_base (task.sandboxView_breakTorrentDownload _)

theorem view_prepareDownloadMissingFiles : task.prepareDownloadMissingFiles.view = task.view := by
  simp only [prepareDownloadMissingFiles]
  split
  · rfl
  · split
    all_goals
      split <;> rfl

theorem view_downloadMissingFiles : task.downloadMissingFiles.view = task.view := by
  simp only [downloadMissingFiles]
  split <;> rfl

theorem view_downloadCompleted (torrent : Torrent) :
    (task.downloadCompleted torrent).view = task.view := by
  simp only [downloadCompleted]
  split
  · simp only [actionListDownloaded]
    split <;> rfl
  · exact view_downloadMissingFiles _

theorem view_onMetadataReceived (torrent : Torrent) (totalSize : Nat) (isValid : Bool) :
    (task.onMetadataReceived torrent totalSize isValid).view = task.view := by
  simp only [onMetadataReceived]
  split <;> rfl

theorem view_processedModifyOpinion (anOpinion : ApprovalTransactionInfo) :
    (task.processedModifyOpinion anOpinion).1.view = task.view := by
  simp only [processedModifyOpinion]
  split
  · rfl
  · split
    · split
      · exact view_approval _ (ModifyApprovalTaskBase.sandboxView_checkOpinionNumber _)
      · rfl
    · rfl

theorem view_onApprovalTxPublished
    (transaction : PublishedModificationApprovalTransactionInfo) :
    (task.onApprovalTxPublished transaction).1.view = task.view := by
  simp only [onApprovalTxPublished]
  split
  · rfl
  · split
    · split
      · rfl
      · exact view_base _ (UpdateDriveTaskBase.sandboxView_startSynchronizingAfter _ _)
    · exact view_breakTask _

theorem view_onApprovalTxFailed (transactionHash : Hash256) :
    (task.onApprovalTxFailed transactionHash).view = task.view := by
  simp only [onApprovalTxFailed]
  split <;> rfl

theorem view_shouldCancelModify (cancelRequest : ModificationCancelRequest) :
    (task.shouldCancelModify cancelRequest).1.view = task.view := by
  simp only [shouldCancelModify]
  split
  · rfl
  · split
    · exact task.view_breakTask
    · rfl

theorem view_interrupt :
    (if task.taskIsInterrupted then task else task.breakTask).view = task.view := by
  split
  · rfl
  · exact task.view_breakTask

/-! ## The steps -/

variable {task} {after : ModifyDriveTask} {event : TaskEvent}

theorem SandboxStep.of_runSessionJob {job : SessionJob} (run : task.runSessionJob job = some after) :
    task.SandboxStep event after := by
  cases job with
  | modifyIsCompletedWithError =>
      obtain rfl := Option.some.inj run
      exact .keeps rfl
  | downloadMissingFiles =>
      obtain rfl := Option.some.inj run
      exact .keeps task.view_downloadMissingFiles
  | myRootHashIsCalculated =>
      obtain rfl := Option.some.inj run
      exact .keeps (task.view_base (task.sandboxView_myRootHashIsCalculated _ _))
  | onCumulativeUploadsUpdated =>
      obtain rfl := Option.some.inj run
      rcases task.sandboxView_onCumulativeUploadsUpdated task.request.transactionHash with
        same | ⟨rootHash, isCalculated, formed⟩
      · exact .keeps (task.view_base same)
      · exact .formsOpinion rootHash isCalculated (Prod.ext formed rfl)
  | myOpinionIsCreated =>
      obtain rfl := Option.some.inj run
      exact .keeps (task.view_approval task.sandboxView_myOpinionIsCreated)
  | synchronizationIsCompleted =>
      obtain rfl := Option.some.inj run
      exact .keeps rfl
  | modifyIsCompleted =>
      obtain rfl := Option.some.inj run
      rcases task.sandboxView_modifyIsCompleted task.request.transactionHash with
        same | ⟨rootHash, fsTree, isCalculated, isSandbox, completed⟩
      · exact .keeps (task.view_base same)
      · exact .completes rootHash fsTree isCalculated isSandbox (Prod.ext completed rfl)
  | downloadNotification =>
      simp only [runSessionJob] at run
      split at run
      · obtain rfl := Option.some.inj run
        exact .keeps (task.view_downloadCompleted _)
      · simp at run
  | createUnusedFileList | unusedFilesRemoved | startNextChunk | requestMissingChunkInfo
  | runNextTask => simp [runSessionJob] at run

theorem view_modifyFsTreeInSandbox (result : SandboxResult) :
    (task.modifyFsTreeInSandbox result).view = task.view ∨
      (task.modifyFsTreeInSandbox result).view = ({ task.sandboxView with
        sandboxFsTree := some result.fsTree
        sandboxRootHash := some result.rootHash
        metaFilesSize := result.metaFilesSize
        sandboxDriveSize := result.sandboxDriveSize
        fsTreeSize := result.fsTreeSize }, task.request) := by
  simp only [modifyFsTreeInSandbox]
  split
  · right
    split <;> rfl
  · exact .inl rfl

theorem SandboxStep.of_popSessionJob {rest : List SessionJob}
    (step : (task.base fun base => { base with sessionJobs := rest }).SandboxStep event after) :
    task.SandboxStep event after := by
  cases step with
  | keeps same => exact .keeps same
  | calculates result isEvent isView => exact .calculates result isEvent isView
  | copiesDrive copies isView => exact .copiesDrive copies isView
  | formsOpinion rootHash isCalculated isView => exact .formsOpinion rootHash isCalculated isView
  | completes rootHash fsTree isCalculated isSandbox isView =>
      exact .completes rootHash fsTree isCalculated isSandbox isView

theorem SandboxStep.of_runBackgroundJob {job : BackgroundJob} {rest : List BackgroundJob}
    {result : BackgroundResult} (running : task.fault = none)
    (jobs : task.backgroundJobs = job :: rest)
    (run : (task.base fun base => { base with backgroundJobs := rest }).runBackgroundJob job result =
      some after) : task.SandboxStep (.runBackgroundJob result) after := by
  simp only [runBackgroundJob] at run
  split at run
  · obtain rfl := Option.some.inj run
    exact .keeps (view_base _ (UpdateDriveTaskBase.sandboxView_runSaveJob _ _))
  · obtain rfl := Option.some.inj run
    exact .keeps (view_approval _ (ModifyApprovalTaskBase.sandboxView_continueSynchronizing _ _))
  · obtain rfl := Option.some.inj run
    exact .keeps (view_prepareDownloadMissingFiles _)
  · rename_i result
    obtain rfl := Option.some.inj run
    rcases @view_modifyFsTreeInSandbox (task.base fun base =>
      { base with backgroundJobs := rest }) result with same | calculated
    · exact .keeps same
    · exact .calculates result rfl calculated
  · obtain rfl := Option.some.inj run
    have isHead : task.backgroundJobs.head? = some .copyDriveToSandbox := by
      rw [jobs, List.head?_cons]
    exact .copiesDrive ⟨running, isHead, rfl⟩ rfl
  · simp at run

theorem sandboxStep_of_step (step : modifyDriveSystem.step task event = some after) :
    task.SandboxStep event after := by
  obtain ⟨running, handles⟩ := handles_of_step step
  cases handles with
  | runSessionJob jobs run => exact .of_popSessionJob (.of_runSessionJob run)
  | runBackgroundJob jobs run => exact .of_runBackgroundJob running jobs run
  | torrentsRemoved found =>
      exact .keeps (task.view_base (UpdateDriveTaskBase.sandboxView_onTorrentsRemoved _ _))
  | metadataReceived found totalSize isValid =>
      exact .keeps (task.view_onMetadataReceived _ _ _)
  | modifyOpinionTimerExpired pending =>
      exact .keeps (task.view_approval (ModifyApprovalTaskBase.sandboxView_opinionTimerExpired _))
  | shareMyOpinionTimerExpired pending =>
      exact .keeps (task.view_approval task.sandboxView_shareMyOpinionTimerExpired)
  | opinionReceived anOpinion => exact .keeps (task.view_processedModifyOpinion anOpinion)
  | approvalTxPublished transaction =>
      exact .keeps (task.view_onApprovalTxPublished transaction)
  | approvalTxFailed transactionHash =>
      exact .keeps (task.view_onApprovalTxFailed transactionHash)
  | cancelModify cancelRequest => exact .keeps (task.view_shouldCancelModify cancelRequest)
  | driveClose | manualSynchronize => exact .keeps task.view_interrupt
  | terminate => exact .keeps (view_breakTask _)
  | torrentFinished | pieceReceived | setReplicators | setMinReplicatorsNumber
  | chunkInfoReceived | finishStream => exact .keeps rfl

end ModifyDriveTask

end SiriusDrive
