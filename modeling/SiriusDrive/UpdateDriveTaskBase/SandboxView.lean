import SiriusDrive.ModifyApprovalTaskBase

/-! # What a task has in its sandbox

The tree of the sandbox, its root hash and its sizes, with the tree of the drive that
they are going to replace and the opinion they are reported in.
-/

namespace SiriusDrive

structure SandboxView where
  sandboxFsTree : Option FsTree
  sandboxRootHash : Option InfoHash
  metaFilesSize : Nat
  sandboxDriveSize : Nat
  fsTreeSize : Nat
  fsTree : FsTree
  rootHash : InfoHash
  lastApprovedModification : Hash256
  modificationIsCompleted : Bool
  myOpinion : Option ApprovalTransactionInfo

namespace UpdateDriveTaskBase

variable (task : UpdateDriveTaskBase)

def sandboxView : SandboxView where
  sandboxFsTree := task.sandboxFsTree
  sandboxRootHash := task.sandboxRootHash
  metaFilesSize := task.metaFilesSize
  sandboxDriveSize := task.sandboxDriveSize
  fsTreeSize := task.fsTreeSize
  fsTree := task.drive.fsTree
  rootHash := task.drive.rootHash
  lastApprovedModification := task.drive.lastApprovedModification
  modificationIsCompleted := task.modificationIsCompleted
  myOpinion := task.myOpinion

@[simp] theorem sandboxView_finishTask : task.finishTask.sandboxView = task.sandboxView := by
  simp only [finishTask]
  split <;> rfl

@[simp] theorem sandboxView_tryBreakTask (received : Bool) :
    (task.tryBreakTask received).sandboxView = task.sandboxView := by
  simp only [tryBreakTask]
  split
  · exact task.sandboxView_finishTask
  · rfl

@[simp] theorem sandboxView_breakTorrentDownload (received : Bool) :
    (task.breakTorrentDownloadAndRunNextTask (·.tryBreakTask received)).sandboxView = task.sandboxView := by
  simp only [breakTorrentDownloadAndRunNextTask]
  split
  · rfl
  · exact sandboxView_tryBreakTask _ received

@[simp] theorem sandboxView_myRootHashIsCalculated (tx : Hash256) (size : Nat) :
    (task.myRootHashIsCalculated tx size).sandboxView = task.sandboxView := by
  simp only [myRootHashIsCalculated]
  split
  · exact task.sandboxView_finishTask
  · rfl

theorem sandboxView_onCumulativeUploadsUpdated (tx : Hash256) :
    (task.onCumulativeUploadsUpdated tx).sandboxView = task.sandboxView ∨
      ∃ rootHash, task.sandboxRootHash = some rootHash ∧
        (task.onCumulativeUploadsUpdated tx).sandboxView =
          { task.sandboxView with myOpinion := some (task.formMyOpinion tx rootHash) } := by
  simp only [onCumulativeUploadsUpdated]
  split
  · exact .inl task.sandboxView_finishTask
  · split
    · exact .inl rfl
    · rename_i rootHash isCalculated
      exact .inr ⟨rootHash, isCalculated, rfl⟩

@[simp] theorem sandboxView_startSynchronizing :
    task.startSynchronizingDriveWithSandbox.sandboxView = task.sandboxView := by
  simp only [startSynchronizingDriveWithSandbox]
  split <;> rfl

@[simp] theorem sandboxView_startSynchronizingAfter
    (transaction : PublishedModificationApprovalTransactionInfo) :
    (task.startSynchronizingAfter transaction).sandboxView = task.sandboxView := by
  simp only [startSynchronizingAfter]
  split
  · rfl
  · split
    · exact task.sandboxView_startSynchronizing
    · split
      · rfl
      · exact sandboxView_startSynchronizing _

@[simp] theorem sandboxView_runSaveJob (job : SaveJob) :
    (task.runSaveJob job).sandboxView = task.sandboxView := by
  cases job <;> rfl

@[simp] theorem sandboxView_onTorrentsRemoved (removal : TorrentsRemoved) :
    (task.onTorrentsRemoved removal).sandboxView = task.sandboxView := by
  cases removal
  · exact task.sandboxView_finishTask
  all_goals rfl

theorem sandboxView_modifyIsCompleted (tx : Hash256) :
    (task.modifyIsCompleted tx).sandboxView = task.sandboxView ∨
      ∃ rootHash fsTree, task.sandboxRootHash = some rootHash ∧ task.sandboxFsTree = some fsTree ∧
        (task.modifyIsCompleted tx).sandboxView =
          { task.sandboxView with
            fsTree, rootHash
            lastApprovedModification := tx
            sandboxFsTree := none
            modificationIsCompleted := true } := by
  simp only [modifyIsCompleted]
  split
  · rename_i rootHash fsTree handle isCalculated isSandbox _
    right
    refine ⟨rootHash, fsTree, isCalculated, isSandbox, ?_⟩
    rw [sandboxView_finishTask]
    rfl
  · exact .inl rfl

end UpdateDriveTaskBase

namespace ModifyApprovalTaskBase

variable (task : ModifyApprovalTaskBase)

@[simp] theorem sandboxView_opinionTimerExpired : task.opinionTimerExpired.sandboxView = task.sandboxView := by
  simp only [opinionTimerExpired]
  split
  · rfl
  · split <;> rfl

@[simp] theorem sandboxView_checkOpinionNumber :
    task.checkOpinionNumberAndStartTimer.sandboxView = task.sandboxView := by
  simp only [checkOpinionNumberAndStartTimer]
  split
  · exact sandboxView_opinionTimerExpired _
  · split
    · split <;> rfl
    · rfl

@[simp] theorem sandboxView_myOpinionIsCreated : task.myOpinionIsCreated.sandboxView = task.sandboxView := by
  simp only [myOpinionIsCreated]
  split
  · exact task.sandboxView_finishTask
  · split
    · rfl
    · split
      · exact UpdateDriveTaskBase.sandboxView_startSynchronizing _
      · exact sandboxView_checkOpinionNumber _

@[simp] theorem sandboxView_shareMyOpinionTimerExpired :
    task.shareMyOpinionTimerExpired.sandboxView = task.sandboxView := by
  simp only [shareMyOpinionTimerExpired]
  split <;> rfl

@[simp] theorem sandboxView_continueSynchronizing (result : FileSystemResult) :
    (task.continueSynchronizingDriveWithSandbox result).sandboxView = task.sandboxView := by
  cases result
  · rfl
  · exact task.sandboxView_finishTask

end ModifyApprovalTaskBase

end SiriusDrive
