import SiriusDrive.Lib.StagedVersion
import SiriusDrive.UpdateDriveTaskBase.SandboxView

/-! # The version a task brings the drive to

A task stages the root hash of its sandbox and commits it with `modifyIsCompleted`.
Nothing else of the functions all tasks share changes the version.
-/

namespace SiriusDrive

def BackgroundResult.sandbox? : BackgroundResult → Option SandboxResult
  | .sandbox result => some result
  | .finishInfo _ _ result => result
  | _ => none

def SandboxView.version (view : SandboxView) : StagedVersion InfoHash Hash256 where
  staged := view.sandboxRootHash
  current := view.rootHash
  name := view.lastApprovedModification
  isCommitted := view.modificationIsCompleted

namespace UpdateDriveTaskBase

variable (task : UpdateDriveTaskBase)

/-- The root hash of the drive and the one it is going to have. -/
def version : StagedVersion InfoHash Hash256 where
  staged := task.sandboxRootHash
  current := task.drive.rootHash
  name := task.drive.lastApprovedModification
  isCommitted := task.modificationIsCompleted

variable {task} in
theorem version_of_view {after : UpdateDriveTaskBase} (same : after.sandboxView = task.sandboxView) :
    after.version = task.version :=
  congrArg SandboxView.version same

@[simp] theorem version_finishTask : task.finishTask.version = task.version :=
  version_of_view task.sandboxView_finishTask

@[simp] theorem version_breakTorrentDownload (received : Bool) :
    (task.breakTorrentDownloadAndRunNextTask (·.tryBreakTask received)).version = task.version :=
  version_of_view (task.sandboxView_breakTorrentDownload received)

@[simp] theorem version_myRootHashIsCalculated (tx : Hash256) (size : Nat) :
    (task.myRootHashIsCalculated tx size).version = task.version :=
  version_of_view (task.sandboxView_myRootHashIsCalculated tx size)

@[simp] theorem version_onCumulativeUploadsUpdated (tx : Hash256) :
    (task.onCumulativeUploadsUpdated tx).version = task.version := by
  simp only [onCumulativeUploadsUpdated]
  split
  · exact task.version_finishTask
  · split <;> rfl

@[simp] theorem version_startSynchronizingAfter
    (transaction : PublishedModificationApprovalTransactionInfo) :
    (task.startSynchronizingAfter transaction).version = task.version :=
  version_of_view (task.sandboxView_startSynchronizingAfter transaction)

@[simp] theorem version_runSaveJob (job : SaveJob) :
    (task.runSaveJob job).version = task.version :=
  version_of_view (task.sandboxView_runSaveJob job)

@[simp] theorem version_onTorrentsRemoved (removal : TorrentsRemoved) :
    (task.onTorrentsRemoved removal).version = task.version :=
  version_of_view (task.sandboxView_onTorrentsRemoved removal)

theorem staysOn_modifyIsCompleted (rootHash : InfoHash) (tx : Hash256) :
    StagedVersion.StaysOn rootHash tx task.version (task.modifyIsCompleted tx).version := by
  simp only [modifyIsCompleted]
  split
  · rename_i staged fsTree handle isStaged _ _
    rw [version_finishTask]
    exact .commit isStaged
  · exact .inl rfl

/-- The sandboxes an event brings, whether calculated or copied from the drive, have a
    root hash, and so have the approvals of a transaction. -/
def SandboxHas (rootHash : InfoHash) (tx : Hash256) : TaskEvent → Prop
  | .runBackgroundJob result =>
      (∀ sandbox ∈ result.sandbox?, sandbox.rootHash = rootHash) ∧
        (task.backgroundJobs.head? = some .copyDriveToSandbox → task.drive.rootHash = rootHash)
  | .approvalTxPublished transaction =>
      transaction.modifyTransactionHash = tx → transaction.rootHash = rootHash
  | _ => True

instance (rootHash : InfoHash) (tx : Hash256) :
    ∀ event, Decidable (task.SandboxHas rootHash tx event)
  | .runBackgroundJob _ => inferInstanceAs (Decidable ((∀ _ ∈ _, _) ∧ (_ → _)))
  | .approvalTxPublished _ => inferInstanceAs (Decidable (_ → _))
  | .runSessionJob | .torrentsRemoved .. | .metadataReceived .. | .torrentFinished ..
  | .pieceReceived .. | .modifyOpinionTimerExpired | .shareMyOpinionTimerExpired
  | .opinionReceived .. | .approvalTxFailed .. | .cancelModify .. | .driveClose
  | .manualSynchronize | .terminate | .setReplicators .. | .setMinReplicatorsNumber ..
  | .chunkInfoReceived .. | .finishStream .. => inferInstanceAs (Decidable True)

end UpdateDriveTaskBase

namespace ModifyApprovalTaskBase

open UpdateDriveTaskBase (version_of_view)

variable (task : ModifyApprovalTaskBase)

@[simp] theorem version_opinionTimerExpired : task.opinionTimerExpired.version = task.version :=
  version_of_view task.sandboxView_opinionTimerExpired

@[simp] theorem version_checkOpinionNumber :
    task.checkOpinionNumberAndStartTimer.version = task.version :=
  version_of_view task.sandboxView_checkOpinionNumber

@[simp] theorem version_myOpinionIsCreated : task.myOpinionIsCreated.version = task.version :=
  version_of_view task.sandboxView_myOpinionIsCreated

@[simp] theorem version_shareMyOpinionTimerExpired :
    task.shareMyOpinionTimerExpired.version = task.version :=
  version_of_view task.sandboxView_shareMyOpinionTimerExpired

end ModifyApprovalTaskBase

end SiriusDrive
