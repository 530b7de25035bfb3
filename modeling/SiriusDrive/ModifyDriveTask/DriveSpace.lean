import SiriusDrive.ModifyDriveTask.Approvals
import SiriusDrive.UpdateDriveTaskBase.SandboxSizes

/-! # The space of the drive

A modification is rejected as not fitting into the drive by the sum of three sizes. The
last of them, the size of the drive, already counts the other two.
-/

namespace SiriusDrive.ModifyDriveTask

/-- The sandbox ends the modification with `NOT_ENOUGH_SPACE`. -/
def IsNotEnoughSpace (task : ModifyDriveTask) (result : SandboxResult) : Prop :=
  (task.modifyFsTreeInSandbox result).sessionJobs =
    task.sessionJobs ++ [.modifyIsCompletedWithError "Drive is full" .notEnoughSpace]

instance (task : ModifyDriveTask) (result : SandboxResult) :
    Decidable (task.IsNotEnoughSpace result) :=
  inferInstanceAs (Decidable (_ = _))

variable {task : ModifyDriveTask} {result : SandboxResult} {actions : ActionList}

theorem isNotEnoughSpace_iff (list : task.actionListFile = some (.actions actions)) :
    task.IsNotEnoughSpace result ↔
      task.drive.maxSize <
        u64 (result.metaFilesSize + result.sandboxDriveSize + result.fsTreeSize) := by
  unfold IsNotEnoughSpace modifyFsTreeInSandbox
  rw [list]
  simp only [gt_iff_lt]
  split
  · rename_i full
    exact ⟨fun _ => full, fun _ => rfl⟩
  · rename_i fits
    constructor
    · intro same
      have jobs := List.append_cancel_left (show task.sessionJobs ++ [.myRootHashIsCalculated] =
        task.sessionJobs ++ [.modifyIsCompletedWithError "Drive is full" .notEnoughSpace] from same)
      cases jobs
    · intro full
      exact absurd full fits

theorem sandboxDriveSize_modifyFsTree (list : task.actionListFile = some (.actions actions)) :
    (task.modifyFsTreeInSandbox result).sandboxDriveSize = result.sandboxDriveSize := by
  unfold modifyFsTreeInSandbox
  rw [list]
  simp only
  split <;> rfl

/-- The reported size decides about the space if and only if it lies on the same side of the
    limit as the sum in which the meta files and the fs tree are counted twice. -/
theorem isNotEnoughSpace_iff_exceeds (task : ModifyDriveTask) (files : SandboxFiles)
    (result : SandboxResult) (actions : ActionList)
    (list : task.actionListFile = some (.actions actions))
    (measured : files.Measures result.fsTree result.rootHash result.metaFilesSize
      result.sandboxDriveSize result.fsTreeSize) :
    (task.IsNotEnoughSpace result ↔
        task.drive.maxSize < (task.modifyFsTreeInSandbox result).sandboxDriveSize) ↔
      ¬ (u64 (files.usedSpace result.fsTree) ≤ task.drive.maxSize ∧
          task.drive.maxSize < u64 (files.usedSpace result.fsTree +
            (files.metaSpace result.fsTree + files.fsTreeFile result.fsTree))) ∧
        ¬ (task.drive.maxSize < u64 (files.usedSpace result.fsTree) ∧
          u64 (files.usedSpace result.fsTree +
            (files.metaSpace result.fsTree + files.fsTreeFile result.fsTree)) ≤
              task.drive.maxSize) := by
  obtain ⟨-, sizes, fsTreeSize⟩ := measured
  obtain ⟨isMeta, isDrive⟩ := SandboxFiles.getSandboxDriveSizes_eq sizes
  have total : u64 (result.metaFilesSize + result.sandboxDriveSize + result.fsTreeSize) =
      u64 (files.usedSpace result.fsTree +
        (files.metaSpace result.fsTree + files.fsTreeFile result.fsTree)) := by
    rw [isMeta, isDrive, ← fsTreeSize, SandboxFiles.sandboxFsTreeSize]
    simp only [u64, Nat.add_mod_mod]
    rw [Nat.add_assoc, Nat.mod_add_mod, Nat.add_left_comm, Nat.mod_add_mod]
  rw [isNotEnoughSpace_iff list, sandboxDriveSize_modifyFsTree list, total, isDrive]
  omega

/-- A disk with nothing but the serialized tree and its torrent. -/
def emptyDriveFiles (fsTreeFile fsTreeTorrent : Nat) : SandboxFiles where
  fsTreeHash _ := 8
  fsTreeFile _ := fsTreeFile
  fsTreeTorrent _ := fsTreeTorrent
  torrentFile _ := none
  driveFile _ := none

def emptyDriveResult (fsTreeFile fsTreeTorrent : Nat) : SandboxResult where
  fsTree := default
  rootHash := 8
  metaFilesSize := fsTreeTorrent
  sandboxDriveSize := fsTreeFile + fsTreeTorrent
  fsTreeSize := fsTreeFile

/-- A disk with a file of 100 bytes, and a torrent of 20. -/
def photoFiles : SandboxFiles where
  fsTreeHash _ := 8
  fsTreeFile _ := 200
  fsTreeTorrent _ := 100
  torrentFile hash := if hash = 30 then some 20 else none
  driveFile hash := if hash = 30 then some 100 else none

/-- What a task measures there for a tree that has the file twice. -/
def photoResult : SandboxResult where
  fsTree := .mk "/" (.cons "copy.jpg" (.file ⟨"copy.jpg", 30, 100⟩)
    (.cons "photo.jpg" (.file ⟨"photo.jpg", 30, 100⟩) .nil))
  rootHash := 8
  metaFilesSize := 120
  sandboxDriveSize := 420
  fsTreeSize := 200

/-- The tree takes less than half of the sample drive. -/
theorem photoDrive_fits :
    sampleTask.IsNotEnoughSpace photoResult ↔
      sampleTask.drive.maxSize <
        (sampleTask.modifyFsTreeInSandbox photoResult).sandboxDriveSize := by
  have list : sampleTask.actionListFile = some (.actions []) := rfl
  apply (isNotEnoughSpace_iff_exceeds sampleTask photoFiles photoResult [] list
    (by decide +kernel)).mpr
  decide +kernel

/-- A tree that takes 700 of 1000 bytes is rejected. -/
theorem emptyDrive_isFull :
    ¬ ∀ (task : ModifyDriveTask) (files : SandboxFiles) (result : SandboxResult)
        (actions : ActionList), task.actionListFile = some (.actions actions) →
      files.Measures result.fsTree result.rootHash result.metaFilesSize result.sandboxDriveSize
        result.fsTreeSize →
      (task.IsNotEnoughSpace result ↔
        task.drive.maxSize < (task.modifyFsTreeInSandbox result).sandboxDriveSize) := by
  intro all
  have decides := all sampleTask (emptyDriveFiles 400 300) (emptyDriveResult 400 300) [] rfl
    (by decide +kernel)
  have rejected : sampleTask.IsNotEnoughSpace (emptyDriveResult 400 300) := by decide +kernel
  have fits : (sampleTask.modifyFsTreeInSandbox (emptyDriveResult 400 300)).sandboxDriveSize = 700 := by
    decide +kernel
  have exceeds := decides.mp rejected
  rw [fits] at exceeds
  revert exceeds
  decide +kernel

end SiriusDrive.ModifyDriveTask
