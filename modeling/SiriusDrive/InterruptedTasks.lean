import SiriusDrive.ModifyDriveTask.Ending
import SiriusDrive.StreamTask.Ending
import SiriusDrive.SynchronizationTask.Ending

/-! # Interruptions that end a task

A task that has been interrupted is to end by itself: the drive starts no other one before. Each
task does so in the runs whose interruptions come in time, and in no others.
-/

namespace SiriusDrive

/-- An interrupted task is finished, or has something scheduled that will finish it, in exactly
    those runs in which every interruption comes in time. -/
theorem interrupted_tasks_end_iff (drive : DriveParams) (events : List TaskEvent) :
    (∀ request receivedOpinions actionListFile,
      ModifyDriveTask.modifyDriveSystem.Always ModifyDriveTask.EndsIfInterrupted
          (.start request receivedOpinions drive actionListFile) events ↔
        ModifyDriveTask.modifyDriveSystem.Meets ModifyDriveTask.InterruptedInTime
          (.start request receivedOpinions drive actionListFile) events) ∧
    (∀ request,
      SynchronizationTask.synchronizationSystem.Always SynchronizationTask.EndsIfInterrupted
          (SynchronizationTask.createCatchingUp request drive).run events ↔
        SynchronizationTask.synchronizationSystem.Meets SynchronizationTask.InterruptedInTime
          (SynchronizationTask.createCatchingUp request drive).run events) ∧
    (∀ request,
      SynchronizationTask.synchronizationSystem.Always SynchronizationTask.EndsIfInterrupted
          (SynchronizationTask.createManualSynchronization request drive).run events ↔
        SynchronizationTask.synchronizationSystem.Meets SynchronizationTask.InterruptedInTime
          (SynchronizationTask.createManualSynchronization request drive).run events) ∧
    (∀ request,
      StreamTask.streamSystem.Always StreamTask.EndsIfInterrupted (.create request drive) events ↔
        StreamTask.streamSystem.Meets StreamTask.InterruptedInTime (.create request drive)
          events) := by
  refine ⟨?_, ?_, ?_, ?_⟩
  · intro request receivedOpinions actionListFile
    exact ModifyDriveTask.endsIfInterrupted_iff request receivedOpinions drive actionListFile events
  · exact fun request => SynchronizationTask.endsIfInterrupted_iff rfl events
  · exact fun request => SynchronizationTask.endsIfInterrupted_iff rfl events
  · exact fun request => StreamTask.endsIfInterrupted_iff request drive events

/-! ## Sample runs -/

def foreignApproval : PublishedModificationApprovalTransactionInfo where
  driveKey := 100
  modifyTransactionHash := 61
  rootHash := 11
  replicatorKeys := [1, 2, 3]

/-- The cancellation of a modification that waits for its approval comes in time. -/
example : ModifyDriveTask.modifyDriveSystem.Meets ModifyDriveTask.InterruptedInTime
    ModifyDriveTask.sampleTask
    (ModifyDriveTask.untilOwnOpinion ++ ModifyDriveTask.ownOpinion ++ [.cancelModify ⟨60⟩]) := by
  decide +kernel

/-- The approval of another modification comes while the task waits for its own one: it is
    interrupted and not finished, and nothing is scheduled any more. -/
theorem foreign_approval_leaves_task_without_end :
    ModifyDriveTask.modifyDriveSystem.Reaches
      (fun task => task.taskIsInterrupted = true ∧ task.taskIsFinished = false ∧
        task.fault = none ∧ task.downloadingLtHandle = none ∧ task.sessionJobs = [] ∧
          task.backgroundJobs = [] ∧ task.removals = [])
      ModifyDriveTask.sampleTask
      (ModifyDriveTask.untilOwnOpinion ++ ModifyDriveTask.ownOpinion ++
        [.approvalTxPublished foreignApproval]) := by
  decide +kernel

end SiriusDrive
