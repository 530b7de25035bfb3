import SiriusDrive.FlatDrive.Updates
import SiriusDrive.ModifyDriveTask.Steps
import SiriusDrive.StreamTask.Steps
import SiriusDrive.SynchronizationTask.Steps
import SiriusDrive.UpdateDriveTaskBase.Work

/-! # The completion of a modification

A task that changes the files of the drive completes with one step, which makes the tree
it has prepared the tree of the drive.
-/

namespace SiriusDrive

/-- `modifyIsCompleted` is the next job, and what it reads is there. -/
def UpdateDriveTaskBase.completes (task : UpdateDriveTaskBase) : Bool :=
  task.sessionJobs.head? = some .modifyIsCompleted && task.sandboxRootHash.isSome &&
    task.sandboxFsTree.isSome && task.sandboxFsTreeLtHandle.isSome

def DriveTask.completes : DriveTask → DriveEvent → Bool
  | .modification task, .task .runSessionJob => task.toUpdateDriveTaskBase.completes
  | .stream task, .task .runSessionJob => task.toUpdateDriveTaskBase.completes
  | .synchronization task, .task .runSessionJob => task.toUpdateDriveTaskBase.completes
  | .manualModification task, .manual .advanceApplying =>
      task.applying = some .onAppliedStorageModifications
  | _, _ => false

def DriveParams.completed (drive : DriveParams) (modification : Hash256) (fsTree : FsTree)
    (rootHash : InfoHash) (fsTreeLtHandle : LtHandle) : DriveParams :=
  { drive with
    fsTree, rootHash
    fsTreeLtHandle := some fsTreeLtHandle
    lastApprovedModification := modification }

namespace UpdateDriveTaskBase

variable {task : UpdateDriveTaskBase}

theorem completes_iff : task.completes = true ↔
    ∃ rest rootHash fsTree fsTreeLtHandle, task.sessionJobs = .modifyIsCompleted :: rest ∧
      task.sandboxRootHash = some rootHash ∧ task.sandboxFsTree = some fsTree ∧
      task.sandboxFsTreeLtHandle = some fsTreeLtHandle := by
  unfold completes
  simp only [Bool.and_eq_true, decide_eq_true_eq, Option.isSome_iff_exists, List.head?_eq_some_iff]
  constructor
  · rintro ⟨⟨⟨⟨rest, jobs⟩, rootHash, isHash⟩, fsTree, isTree⟩, handle, isHandle⟩
    exact ⟨rest, rootHash, fsTree, handle, jobs, isHash, isTree, isHandle⟩
  · rintro ⟨rest, rootHash, fsTree, handle, jobs, isHash, isTree, isHandle⟩
    exact ⟨⟨⟨⟨rest, jobs⟩, rootHash, isHash⟩, fsTree, isTree⟩, handle, isHandle⟩

theorem drive_modifyIsCompleted {rootHash : InfoHash} {fsTree : FsTree} {fsTreeLtHandle : LtHandle}
    (isHash : task.sandboxRootHash = some rootHash) (isTree : task.sandboxFsTree = some fsTree)
    (isHandle : task.sandboxFsTreeLtHandle = some fsTreeLtHandle) (modification : Hash256) :
    (task.modifyIsCompleted modification).drive =
      task.drive.completed modification fsTree rootHash fsTreeLtHandle := by
  simp only [modifyIsCompleted, isHash, isTree, isHandle, drive_finishTask]
  rfl

end UpdateDriveTaskBase

namespace DriveTask

/-- What a completing step leaves of the drive. -/
inductive Completion : DriveTask → DriveParams → Prop
  | update {task : DriveTask} {view : UpdateView} {rest : List SessionJob} {rootHash : InfoHash}
      {fsTree : FsTree} {fsTreeLtHandle : LtHandle} (isView : task.update? = some view)
      (jobs : view.base.sessionJobs = .modifyIsCompleted :: rest)
      (isTree : view.base.sandboxFsTree = some fsTree) :
      Completion task (view.base.drive.completed view.purpose.modification fsTree rootHash
        fsTreeLtHandle)
  | manual {task : ManualModificationsTask} {rootHash : InfoHash} {fsTree : FsTree}
      {fsTreeLtHandle : LtHandle}
      (isLast : task.applying = some .onAppliedStorageModifications)
      (isTree : task.lowerSandboxFsTree = some fsTree) :
      Completion (.manualModification task) (task.drive.completed
        task.request.modificationIdentifier fsTree rootHash fsTreeLtHandle)

variable {task after : DriveTask}

/-- The last job of an update, which its task runs for its modification. -/
theorem completion_of_update {view later : UpdateView} (isView : task.update? = some view)
    (isLater : after.update? = some later) (completes : view.base.completes = true)
    (run : ∀ rest, view.base.sessionJobs = .modifyIsCompleted :: rest → later.base =
      { view.base with sessionJobs := rest }.modifyIsCompleted view.purpose.modification) :
    task.Completion after.drive := by
  obtain ⟨rest, rootHash, fsTree, handle, jobs, isHash, isTree, isHandle⟩ :=
    UpdateDriveTaskBase.completes_iff.mp completes
  have isDrive := @UpdateDriveTaskBase.drive_modifyIsCompleted { view.base with sessionJobs := rest }
    rootHash fsTree handle isHash isTree isHandle view.purpose.modification
  rw [drive_of_update isLater, run rest jobs, isDrive]
  exact .update isView jobs isTree

theorem completion_of_manual {task after : ManualModificationsTask}
    (isLast : task.applying = some .onAppliedStorageModifications)
    (handled : task.handle .advanceApplying = some after) :
    (manualModification task).Completion after.drive := by
  simp only [ManualModificationsTask.handle, isLast, Option.bind_some,
    ManualModificationsTask.advanceApplying,
    ManualModificationsTask.onAppliedStorageModifications] at handled
  split at handled
  · rename_i isTree _ _
    obtain rfl := Option.some.inj handled
    unfold ManualModificationsTask.finishTask
    split <;> exact .manual isLast isTree
  · cases handled

end DriveTask

namespace FlatDrive

open DriveTask (Completion completion_of_update completion_of_manual)

variable {flatDrive after : FlatDrive} {task : DriveTask} {event : DriveEvent}

/-- A completing step is one of the task, which has not come to its end. -/
theorem completion_of_step (isTask : flatDrive.task = some task)
    (completes : task.completes event = true)
    (step : flatDriveSystem.step flatDrive event = some after) :
    task.Completion after.drive := by
  have handled := handle_of_step step
  have isNext {base : UpdateDriveTaskBase} (completes : base.completes = true) :
      base.sessionJobs.head? = some .modifyIsCompleted := by
    obtain ⟨rest, -, -, -, jobs, -⟩ := UpdateDriveTaskBase.completes_iff.mp completes
    simp [jobs]
  unfold DriveTask.completes at completes
  split at completes
  · rename_i task
    have taken : flatDrive.taskStep .runSessionJob (.modification task) = some after := by
      simpa [handle, TaskEvent.isInternal, isTask] using handled
    obtain ⟨next, -, run, isAfter⟩ := handle_of_modificationStep (by simp [isNext completes]) taken
    rw [drive_of_task isAfter]
    refine completion_of_update rfl rfl completes fun rest jobs => ?_
    have jobs : task.sessionJobs = .modifyIsCompleted :: rest := jobs
    cases ModifyDriveTask.handles_of_handle run with
    | runSessionJob isJobs run =>
        obtain ⟨rfl, rfl⟩ := List.cons.inj (jobs.symm.trans isJobs)
        obtain rfl := Option.some.inj run
        rfl
  · rename_i task
    have taken : flatDrive.taskStep .runSessionJob (.stream task) = some after := by
      simpa [handle, TaskEvent.isInternal, isTask] using handled
    obtain ⟨next, -, run, isAfter⟩ := handle_of_streamStep (by simp [isNext completes]) taken
    rw [drive_of_task isAfter]
    refine completion_of_update rfl rfl completes fun rest jobs => ?_
    have jobs : task.sessionJobs = .modifyIsCompleted :: rest := jobs
    cases StreamTask.handles_of_handle run with
    | runSessionJob isJobs run =>
        obtain ⟨rfl, rfl⟩ := List.cons.inj (jobs.symm.trans isJobs)
        obtain rfl := Option.some.inj run
        rfl
  · rename_i task
    have taken : flatDrive.taskStep .runSessionJob (.synchronization task) = some after := by
      simpa [handle, TaskEvent.isInternal, isTask] using handled
    obtain ⟨next, -, run, isAfter⟩ :=
      handle_of_synchronizationStep (by simp [isNext completes]) taken
    rw [drive_of_task isAfter]
    refine completion_of_update rfl rfl completes fun rest jobs => ?_
    have jobs : task.sessionJobs = .modifyIsCompleted :: rest := jobs
    cases SynchronizationTask.handles_of_handle run with
    | runSessionJob isJobs run =>
        obtain ⟨rfl, rfl⟩ := List.cons.inj (jobs.symm.trans isJobs)
        obtain rfl := Option.some.inj run
        rfl
  · rename_i task
    have isLast := of_decide_eq_true completes
    have taken : flatDrive.manual .advanceApplying (.manualModification task) = some after := by
      simpa [handle, isTask] using handled
    obtain ⟨next, run, rfl⟩ := Option.map_eq_some_iff.mp taken
    exact completion_of_manual isLast run
  · cases completes

end FlatDrive

end SiriusDrive
