import SiriusDrive.ModifyApprovalTaskBase

/-! # The stages of a task

From the calculated root hash on a task goes through four stages: its opinion is
formed, the drive is synchronized with the sandbox, the task is completed and
ended. What the functions of `UpdateDriveTaskBase` do to the uploads depends on
the stages for which something is scheduled.
-/

namespace SiriusDrive

inductive UpdateStage where
  | opinion
  | synchronization
  | completion
  | ending
  deriving Repr, DecidableEq

def SessionJob.stage? : SessionJob → Option UpdateStage
  | .onCumulativeUploadsUpdated | .myOpinionIsCreated => some .opinion
  | .synchronizationIsCompleted => some .synchronization
  | .modifyIsCompleted => some .completion
  | .runNextTask => some .ending
  | _ => none

def BackgroundJob.stage? : BackgroundJob → Option UpdateStage
  | .save .notApprovedCumulativeUploads | .save .singleApprovalTransaction => some .opinion
  | .continueSynchronizingDriveWithSandbox => some .synchronization
  | .save (.approvedCumulativeUploads _) => some .completion
  | .save .clearSandbox => some .ending
  | _ => none

def TorrentsRemoved.stage? : TorrentsRemoved → Option UpdateStage
  | .finishTask | .clearSandbox => some .ending
  | .continueSynchronizing => some .synchronization
  | .removeUnusedFiles => none

namespace UpdateDriveTaskBase

/-- Something is scheduled for the stage; a task whose sandbox is calculated keeps its
    opinion. -/
def HasStage (task : UpdateDriveTaskBase) (stage : UpdateStage) : Prop :=
  (stage = .opinion ∧ task.sandboxCalculated = true) ∨
    (∃ job ∈ task.sessionJobs, job.stage? = some stage) ∨
    (∃ job ∈ task.backgroundJobs, job.stage? = some stage) ∨
    ∃ removal ∈ task.removals, removal.stage? = some stage

/-- The uploads and the interruption are left alone, and nothing is scheduled but for some
    stages. -/
structure Moves (new : List UpdateStage) (before after : UpdateDriveTaskBase) : Prop where
  opinionController : after.drive.opinionController = before.drive.opinionController
  stopped : after.drive.replicatorIsStopped = before.drive.replicatorIsStopped
  interrupted : after.taskIsInterrupted = before.taskIsInterrupted
  finished : after.taskIsFinished = true → before.taskIsFinished = true ∨ .ending ∈ new
  stages : ∀ stage, after.HasStage stage → before.HasStage stage ∨ stage ∈ new

variable {new : List UpdateStage} {before middle after : UpdateDriveTaskBase}

theorem Moves.refl (task : UpdateDriveTaskBase) : Moves new task task :=
  ⟨rfl, rfl, rfl, .inl, fun _ => .inl⟩

theorem Moves.trans (first : Moves new before middle) (second : Moves new middle after) :
    Moves new before after where
  opinionController := second.opinionController.trans first.opinionController
  stopped := second.stopped.trans first.stopped
  interrupted := second.interrupted.trans first.interrupted
  finished := by
    intro finished
    rcases second.finished finished with earlier | ends
    · exact first.finished earlier
    · exact .inr ends
  stages := by
    intro stage has
    rcases second.stages stage has with earlier | isNew
    · exact first.stages stage earlier
    · exact .inr isNew

theorem Moves.comp (second : Moves new middle after) (first : Moves new before middle) :
    Moves new before after :=
  first.trans second

theorem Moves.mono {more : List UpdateStage} (moves : Moves new before after)
    (subset : new ⊆ more) : Moves more before after :=
  ⟨moves.opinionController, moves.stopped, moves.interrupted,
    fun finished => (moves.finished finished).imp_right fun ends => subset ends,
    fun stage has => (moves.stages stage has).imp_right fun isNew => subset isNew⟩

theorem Moves.of_eq
    (opinionController : after.drive.opinionController = before.drive.opinionController)
    (stopped : after.drive.replicatorIsStopped = before.drive.replicatorIsStopped)
    (interrupted : after.taskIsInterrupted = before.taskIsInterrupted)
    (finished : after.taskIsFinished = before.taskIsFinished)
    (calculated : after.sandboxCalculated = before.sandboxCalculated)
    (sessionJobs : after.sessionJobs = before.sessionJobs)
    (backgroundJobs : after.backgroundJobs = before.backgroundJobs)
    (removals : after.removals = before.removals) : Moves new before after := by
  refine ⟨opinionController, stopped, interrupted, ?_, ?_⟩
  · intro isFinished
    exact .inl (finished ▸ isFinished)
  · intro stage has
    left
    unfold HasStage at has ⊢
    rwa [calculated, sessionJobs, backgroundJobs, removals] at has

/-! ## Scheduling -/

variable (task : UpdateDriveTaskBase)

theorem hasStage_of_sessionJob {job : SessionJob} {stage : UpdateStage}
    (member : job ∈ task.sessionJobs) (isStage : job.stage? = some stage) : task.HasStage stage :=
  .inr (.inl ⟨job, member, isStage⟩)

theorem hasStage_of_backgroundJob {job : BackgroundJob} {stage : UpdateStage}
    (member : job ∈ task.backgroundJobs) (isStage : job.stage? = some stage) :
    task.HasStage stage :=
  .inr (.inr (.inl ⟨job, member, isStage⟩))

theorem hasStage_of_removal {removal : TorrentsRemoved} {stage : UpdateStage}
    (member : removal ∈ task.removals) (isStage : removal.stage? = some stage) :
    task.HasStage stage :=
  .inr (.inr (.inr ⟨removal, member, isStage⟩))

theorem moves_executeOnSessionThread (job : SessionJob) :
    Moves job.stage?.toList task (task.executeOnSessionThread job) := by
  refine ⟨rfl, rfl, rfl, .inl, ?_⟩
  rintro stage (calculated | ⟨other, member, isStage⟩ | background | removal)
  · exact .inl (.inl calculated)
  · rcases List.mem_append.mp member with old | added
    · exact .inl (task.hasStage_of_sessionJob old isStage)
    · obtain rfl := List.mem_singleton.mp added
      exact .inr (Option.mem_toList.mpr isStage)
  · exact .inl (.inr (.inr (.inl background)))
  · exact .inl (.inr (.inr (.inr removal)))

theorem moves_executeOnBackgroundThread (job : BackgroundJob) :
    Moves job.stage?.toList task (task.executeOnBackgroundThread job) := by
  refine ⟨rfl, rfl, rfl, .inl, ?_⟩
  rintro stage (calculated | session | ⟨other, member, isStage⟩ | removal)
  · exact .inl (.inl calculated)
  · exact .inl (.inr (.inl session))
  · rcases List.mem_append.mp member with old | added
    · exact .inl (task.hasStage_of_backgroundJob old isStage)
    · obtain rfl := List.mem_singleton.mp added
      exact .inr (Option.mem_toList.mpr isStage)
  · exact .inl (.inr (.inr (.inr removal)))

theorem moves_removeTorrents (handles : List LtHandle) (next : TorrentsRemoved) :
    Moves next.stage?.toList task (task.removeTorrentsFromSession handles next) := by
  refine ⟨rfl, rfl, rfl, .inl, ?_⟩
  rintro stage (calculated | session | background | ⟨other, member, isStage⟩)
  · exact .inl (.inl calculated)
  · exact .inl (.inr (.inl session))
  · exact .inl (.inr (.inr (.inl background)))
  · rcases List.mem_append.mp member with old | added
    · exact .inl (task.hasStage_of_removal old isStage)
    · obtain rfl := List.mem_singleton.mp added
      exact .inr (Option.mem_toList.mpr isStage)

theorem moves_break (fault : Fault) : Moves new task (task.break_ fault) :=
  .of_eq rfl rfl rfl rfl rfl rfl rfl rfl

theorem moves_finishTask : Moves [.ending] task task.finishTask := by
  have finishes : Moves [.ending] task { task with taskIsFinished := true } :=
    ⟨rfl, rfl, rfl, fun _ => .inr (by simp), fun _ => .inl⟩
  unfold finishTask
  simp only
  split
  · refine Moves.trans finishes ((moves_removeTorrents _ _ .clearSandbox).comp ?_)
    exact .of_eq rfl rfl rfl rfl rfl rfl rfl rfl
  · exact Moves.trans finishes (moves_executeOnBackgroundThread _ (.save .clearSandbox))

theorem moves_tryBreakTask (received : Bool) : Moves [.ending] task (task.tryBreakTask received) := by
  unfold tryBreakTask
  split
  · exact task.moves_finishTask
  · exact .refl task

theorem moves_startSynchronizing :
    Moves [.synchronization] task task.startSynchronizingDriveWithSandbox := by
  unfold startSynchronizingDriveWithSandbox
  split
  · exact task.moves_break _
  · exact (moves_removeTorrents _ _ .continueSynchronizing).comp
      (.of_eq rfl rfl rfl rfl rfl rfl rfl rfl)

theorem moves_startSynchronizingAfter
    (transaction : PublishedModificationApprovalTransactionInfo) :
    Moves [.synchronization] task (task.startSynchronizingAfter transaction) := by
  unfold startSynchronizingAfter
  split
  · exact task.moves_break _
  · split
    · exact task.moves_startSynchronizing
    · split
      · exact task.moves_break _
      · exact (moves_startSynchronizing _).comp (.of_eq rfl rfl rfl rfl rfl rfl rfl rfl)

theorem moves_onCumulativeUploadsUpdated (tx : Hash256) :
    (task.taskIsInterrupted = true ∧ Moves [.ending] task (task.onCumulativeUploadsUpdated tx)) ∨
      Moves [.opinion] task (task.onCumulativeUploadsUpdated tx) := by
  unfold onCumulativeUploadsUpdated
  split
  · rename_i interrupted
    exact .inl ⟨interrupted, task.moves_finishTask⟩
  · right
    split
    · exact task.moves_break _
    · exact (moves_executeOnBackgroundThread _ (.save .singleApprovalTransaction)).comp
        (.of_eq rfl rfl rfl rfl rfl rfl rfl rfl)

theorem moves_modifyIsCompleted (tx : Hash256) :
    Moves [.ending] task (task.modifyIsCompleted tx) := by
  unfold modifyIsCompleted
  split
  · exact (moves_finishTask _).comp (.of_eq rfl rfl rfl rfl rfl rfl rfl rfl)
  · exact task.moves_break _

theorem moves_runSaveJob (job : SaveJob) :
    Moves (BackgroundJob.save job).stage?.toList task (task.runSaveJob job) := by
  cases job with
  | torrentFile handle => exact task.moves_executeOnSessionThread (.downloadNotification handle)
  | clearSandbox => exact task.moves_executeOnSessionThread .runNextTask
  | notApprovedCumulativeUploads =>
      exact (moves_executeOnSessionThread _ .onCumulativeUploadsUpdated).comp
        (.of_eq rfl rfl rfl rfl rfl rfl rfl rfl)
  | singleApprovalTransaction =>
      exact (moves_executeOnSessionThread _ .myOpinionIsCreated).comp
        (.of_eq rfl rfl rfl rfl rfl rfl rfl rfl)
  | approvedCumulativeUploads =>
      exact (moves_executeOnSessionThread _ .modifyIsCompleted).comp
        (.of_eq rfl rfl rfl rfl rfl rfl rfl rfl)

theorem moves_onTorrentsRemoved (removal : TorrentsRemoved) :
    Moves removal.stage?.toList task (task.onTorrentsRemoved removal) := by
  cases removal with
  | finishTask => exact task.moves_finishTask
  | clearSandbox => exact task.moves_executeOnBackgroundThread (.save .clearSandbox)
  | continueSynchronizing =>
      exact task.moves_executeOnBackgroundThread .continueSynchronizingDriveWithSandbox
  | removeUnusedFiles =>
      exact (moves_executeOnBackgroundThread _ (.removeUnusedFiles _)).comp
        (.of_eq rfl rfl rfl rfl rfl rfl rfl rfl)

theorem moves_addTraffic (uploader : Key) (size : Nat) :
    Moves new task (task.addTraffic uploader size) :=
  .of_eq rfl rfl rfl rfl rfl rfl rfl rfl

/-! ## The functions that count, approve and interrupt -/

/-- A task that is not interrupted counts its uploads. -/
structure Counts (tx : Hash256) (size : Nat) (before after : UpdateDriveTaskBase) : Prop where
  running : before.taskIsInterrupted = false
  opinionController : after.drive.opinionController =
    before.drive.opinionController.updateCumulativeUploads before.drive.modifyTrafficMap tx
      before.drive.modifyDonatorShard size
  stopped : after.drive.replicatorIsStopped = before.drive.replicatorIsStopped
  interrupted : after.taskIsInterrupted = false
  finished : after.taskIsFinished = before.taskIsFinished
  stages : ∀ stage, after.HasStage stage → before.HasStage stage ∨ stage = .opinion

structure Approves (before after : UpdateDriveTaskBase) : Prop where
  opinionController : after.drive.opinionController =
    before.drive.opinionController.approveCumulativeUploads
  stopped : after.drive.replicatorIsStopped = before.drive.replicatorIsStopped
  interrupted : after.taskIsInterrupted = before.taskIsInterrupted
  finished : after.taskIsFinished = before.taskIsFinished
  stages : ∀ stage, after.HasStage stage → before.HasStage stage ∨ stage = .completion

structure Interrupts (before after : UpdateDriveTaskBase) : Prop where
  opinionController : after.drive.opinionController = before.drive.opinionController
  stopped : after.drive.replicatorIsStopped = before.drive.replicatorIsStopped
  interrupted : after.taskIsInterrupted = true
  stages : ∀ stage, after.HasStage stage → before.HasStage stage ∨ stage = .ending

theorem myRootHashIsCalculated_cases (tx : Hash256) (size : Nat) :
    (task.taskIsInterrupted = true ∧
      Moves [.ending] task (task.myRootHashIsCalculated tx size)) ∨
      Counts tx size task (task.myRootHashIsCalculated tx size) := by
  unfold myRootHashIsCalculated
  split
  · rename_i interrupted
    exact .inl ⟨interrupted, task.moves_finishTask⟩
  · rename_i running
    have running : task.taskIsInterrupted = false := by simpa using running
    refine .inr ⟨running, rfl, rfl, running, rfl, ?_⟩
    intro stage has
    rcases (moves_executeOnBackgroundThread _
      (.save .notApprovedCumulativeUploads)).stages stage has with old | new
    · exact .inl old
    · exact .inr (List.mem_singleton.mp new)

theorem approves_synchronizationIsCompleted (tx : Hash256) :
    Approves task (task.synchronizationIsCompleted tx) := by
  refine ⟨rfl, rfl, rfl, rfl, ?_⟩
  intro stage has
  rcases (moves_executeOnBackgroundThread _
    (.save (.approvedCumulativeUploads tx))).stages stage has with old | new
  · exact .inl old
  · exact .inr (List.mem_singleton.mp new)

theorem interrupts_breakTorrentDownload {tryBreakTask : UpdateDriveTaskBase → UpdateDriveTaskBase}
    (moves : ∀ task : UpdateDriveTaskBase, Moves [.ending] task (tryBreakTask task)) :
    Interrupts task (task.breakTorrentDownloadAndRunNextTask tryBreakTask) := by
  have breaks : ∀ after, Moves [.ending] { task with taskIsInterrupted := true } after →
      Interrupts task after := by
    intro after moves
    refine ⟨moves.opinionController, moves.stopped, moves.interrupted, ?_⟩
    intro stage has
    rcases moves.stages stage has with old | new
    · exact .inl old
    · exact .inr (List.mem_singleton.mp new)
  unfold breakTorrentDownloadAndRunNextTask
  simp only
  split
  · apply breaks
    exact (moves_removeTorrents _ _ .finishTask).comp (.of_eq rfl rfl rfl rfl rfl rfl rfl rfl)
  · exact breaks _ (moves _)

end UpdateDriveTaskBase

namespace ModifyApprovalTaskBase

open UpdateDriveTaskBase (Moves)

variable {new : List UpdateStage} (task : ModifyApprovalTaskBase)

theorem moves_opinionTimerExpired :
    Moves new task.toUpdateDriveTaskBase task.opinionTimerExpired.toUpdateDriveTaskBase := by
  unfold opinionTimerExpired
  split
  · exact .refl _
  · split
    · exact task.moves_break _
    · exact .refl _

theorem moves_checkOpinionNumber :
    Moves new task.toUpdateDriveTaskBase
      task.checkOpinionNumberAndStartTimer.toUpdateDriveTaskBase := by
  unfold checkOpinionNumberAndStartTimer
  simp only
  split
  · exact moves_opinionTimerExpired { task with modifyOpinionTimer := task.modifyOpinionTimer.cancel }
  · split
    · split <;> exact .refl _
    · exact .refl _

theorem moves_shareMyOpinion (myOpinion : ApprovalTransactionInfo) :
    Moves new task.toUpdateDriveTaskBase (task.shareMyOpinion myOpinion).toUpdateDriveTaskBase :=
  .of_eq rfl rfl rfl rfl rfl rfl rfl rfl

theorem moves_shareMyOpinionTimerExpired :
    Moves new task.toUpdateDriveTaskBase task.shareMyOpinionTimerExpired.toUpdateDriveTaskBase := by
  unfold shareMyOpinionTimerExpired
  split
  · exact task.moves_break _
  · exact task.moves_shareMyOpinion _

theorem moves_myOpinionIsCreated :
    (task.taskIsInterrupted = true ∧
      Moves [.ending] task.toUpdateDriveTaskBase task.myOpinionIsCreated.toUpdateDriveTaskBase) ∨
    (task.modifyApproveTxReceived = true ∧
      Moves [.opinion, .synchronization] task.toUpdateDriveTaskBase
        task.myOpinionIsCreated.toUpdateDriveTaskBase) ∨
    Moves [.opinion] task.toUpdateDriveTaskBase task.myOpinionIsCreated.toUpdateDriveTaskBase := by
  have calculated : Moves [.opinion] task.toUpdateDriveTaskBase
      { task.toUpdateDriveTaskBase with sandboxCalculated := true } := by
    refine ⟨rfl, rfl, rfl, .inl, ?_⟩
    rintro stage (⟨isOpinion, -⟩ | scheduled)
    · exact .inr (by simp [isOpinion])
    · exact .inl (.inr scheduled)
  unfold myOpinionIsCreated
  split
  · rename_i interrupted
    exact .inl ⟨interrupted, task.moves_finishTask⟩
  · right
    split
    · exact .inr (task.moves_break _)
    · simp only
      split
      · rename_i received
        have starts (base : UpdateDriveTaskBase) : Moves [.opinion, .synchronization] base
            base.startSynchronizingDriveWithSandbox :=
          base.moves_startSynchronizing.mono (by simp)
        refine .inl ⟨received, (starts _).comp ?_⟩
        exact (calculated.mono (by simp)).trans (.of_eq rfl rfl rfl rfl rfl rfl rfl rfl)
      · right
        refine (moves_checkOpinionNumber _).comp ?_
        exact calculated.trans (.of_eq rfl rfl rfl rfl rfl rfl rfl rfl)

theorem moves_continueSynchronizing (result : FileSystemResult) :
    (result = .exception ∧ Moves [.ending] task.toUpdateDriveTaskBase
      (task.continueSynchronizingDriveWithSandbox result).toUpdateDriveTaskBase) ∨
    Moves [.synchronization] task.toUpdateDriveTaskBase
      (task.continueSynchronizingDriveWithSandbox result).toUpdateDriveTaskBase := by
  cases result with
  | exception => exact .inl ⟨rfl, task.moves_finishTask⟩
  | done =>
      right
      exact (UpdateDriveTaskBase.moves_executeOnSessionThread _ .synchronizationIsCompleted).comp
        (.of_eq rfl rfl rfl rfl rfl rfl rfl rfl)

end ModifyApprovalTaskBase

end SiriusDrive
