import SiriusDrive.UpdateDriveTaskBase.Stages

/-! # What a step of a task does to the uploads

The threads, the session and the timers move a task on. Its uploads change only when
they are counted and when they are approved; what has to be right at these points is
scheduled by what came before.
-/

namespace SiriusDrive

namespace UpdateDriveTaskBase

variable (task : UpdateDriveTaskBase)

/-- The uploads have been counted, and something comes after that. -/
def IsCounted : Prop :=
  task.HasStage .opinion ∨ task.HasStage .synchronization ∨ task.HasStage .completion

/-- The task goes to its end: the uploads are not counted any more. -/
def IsEnding : Prop :=
  task.taskIsInterrupted = true ∨ task.taskIsFinished = true ∨ task.HasStage .completion ∨
    task.HasStage .ending

instance (stage : UpdateStage) : Decidable (task.HasStage stage) :=
  inferInstanceAs (Decidable (_ ∨ _ ∨ _ ∨ _))

instance : Decidable task.IsCounted := inferInstanceAs (Decidable (_ ∨ _ ∨ _))

instance : Decidable task.IsEnding := inferInstanceAs (Decidable (_ ∨ _ ∨ _ ∨ _))

def CountsUploads (event : TaskEvent) : Prop :=
  (event matches .runSessionJob) = true ∧
    task.sessionJobs.head? = some .myRootHashIsCalculated ∧ task.taskIsInterrupted = false

def ApprovesUploads (event : TaskEvent) : Prop :=
  (event matches .runSessionJob) = true ∧
    task.sessionJobs.head? = some .synchronizationIsCompleted

/-- The file system fails while the drive is synchronized with the sandbox. -/
def FailsSynchronizing (event : TaskEvent) : Prop :=
  (event matches .runBackgroundJob (.fileSystem .exception)) = true ∧
    task.backgroundJobs.head? = some .continueSynchronizingDriveWithSandbox

instance (event : TaskEvent) : Decidable (task.CountsUploads event) :=
  inferInstanceAs (Decidable (_ ∧ _ ∧ _))

instance (event : TaskEvent) : Decidable (task.ApprovesUploads event) :=
  inferInstanceAs (Decidable (_ ∧ _))

instance (event : TaskEvent) : Decidable (task.FailsSynchronizing event) :=
  inferInstanceAs (Decidable (_ ∧ _))

/-- What has to hold before something is scheduled for a stage. The synchronization is
    started only if something allows it. -/
def Justifies (mayStart : Prop) : UpdateStage → Prop
  | .opinion => task.IsCounted
  | .synchronization => task.IsCounted ∧ (task.HasStage .synchronization ∨ mayStart)
  | .completion => task.IsCounted ∧ task.IsEnding
  | .ending => task.IsEnding

variable {task} {mayStart : Prop}

theorem HasStage.justifies {stage : UpdateStage} (has : task.HasStage stage) :
    task.Justifies mayStart stage := by
  cases stage with
  | opinion => exact .inl has
  | synchronization => exact ⟨.inr (.inl has), .inl has⟩
  | completion => exact ⟨.inr (.inr has), .inr (.inr (.inl has))⟩
  | ending => exact .inr (.inr (.inr has))

theorem isEnding_of_interrupted (interrupted : task.taskIsInterrupted = true) : task.IsEnding :=
  .inl interrupted

/-- The uploads are left alone, and the task is counted and ends only if it was and did. -/
structure GoesOn (mayStart : Prop) (before after : UpdateDriveTaskBase) : Prop where
  opinionController : after.drive.opinionController = before.drive.opinionController
  stopped : after.drive.replicatorIsStopped = before.drive.replicatorIsStopped
  interrupted : after.taskIsInterrupted = before.taskIsInterrupted
  counted : after.IsCounted → before.IsCounted
  synchronizing : after.HasStage .synchronization → before.HasStage .synchronization ∨ mayStart
  ending : after.IsEnding → before.IsEnding

variable {new : List UpdateStage} {before middle after : UpdateDriveTaskBase}

theorem Moves.isCounted (moves : Moves new before after)
    (justified : ∀ stage ∈ new, before.Justifies mayStart stage) (counted : after.IsCounted) :
    before.IsCounted := by
  have transfer : ∀ stage, stage ≠ .ending → after.HasStage stage → before.IsCounted := by
    intro stage other has
    have justifies : before.Justifies mayStart stage := by
      rcases moves.stages stage has with old | isNew
      · exact old.justifies
      · exact justified stage isNew
    cases stage with
    | opinion => exact justifies
    | synchronization | completion => exact justifies.1
    | ending => exact absurd rfl other
  rcases counted with has | has | has
  · exact transfer _ (by simp) has
  · exact transfer _ (by simp) has
  · exact transfer _ (by simp) has

theorem Moves.isEnding (moves : Moves new before after)
    (justified : ∀ stage ∈ new, before.Justifies mayStart stage) (ending : after.IsEnding) :
    before.IsEnding := by
  rcases ending with interrupted | finished | completion | ends
  · exact isEnding_of_interrupted (moves.interrupted ▸ interrupted)
  · rcases moves.finished finished with earlier | isNew
    · exact .inr (.inl earlier)
    · exact justified _ isNew
  · rcases moves.stages _ completion with old | isNew
    · exact .inr (.inr (.inl old))
    · exact (justified _ isNew).2
  · rcases moves.stages _ ends with old | isNew
    · exact .inr (.inr (.inr old))
    · exact justified _ isNew

theorem Moves.goesOn (moves : Moves new before after)
    (justified : ∀ stage ∈ new, before.Justifies mayStart stage) : GoesOn mayStart before after where
  opinionController := moves.opinionController
  stopped := moves.stopped
  interrupted := moves.interrupted
  counted := moves.isCounted justified
  synchronizing := by
    intro has
    rcases moves.stages _ has with old | isNew
    · exact .inl old
    · exact (justified _ isNew).2
  ending := moves.isEnding justified

theorem Moves.goesOn_nil (moves : Moves [] before after) : GoesOn mayStart before after :=
  moves.goesOn (by simp)

/-- A job or a removal of a stage schedules what comes next for the same stage. -/
theorem Moves.goesOn_stage {stage? : Option UpdateStage} (moves : Moves stage?.toList before after)
    (has : ∀ stage ∈ stage?, before.HasStage stage) : GoesOn mayStart before after :=
  moves.goesOn fun stage isNew => (has stage (Option.mem_toList.mp isNew)).justifies

/-- The step of a failed synchronization: the task ends without an approval. -/
structure Fails (before after : UpdateDriveTaskBase) : Prop where
  opinionController : after.drive.opinionController = before.drive.opinionController
  stopped : after.drive.replicatorIsStopped = before.drive.replicatorIsStopped
  interrupted : after.taskIsInterrupted = before.taskIsInterrupted
  counted : after.IsCounted → before.IsCounted
  synchronizing : after.HasStage .synchronization → before.HasStage .synchronization

inductive UploadsStep (mayStart : Prop) (event : TaskEvent) (tx : Hash256) (size : Nat)
    (before after : UpdateDriveTaskBase) : Prop
  | goesOn (goesOn : GoesOn mayStart before after)
  | counts (isCount : before.CountsUploads event) (counts : Counts tx size before after)
  | approves (isApproval : before.ApprovesUploads event) (approves : Approves before after)
  | fails (isFailure : before.FailsSynchronizing event) (fails : Fails before after)

variable {tx : Hash256} {size : Nat}

theorem moves_popSessionJob {job : SessionJob} {rest : List SessionJob}
    (jobs : task.sessionJobs = job :: rest) :
    Moves [] task { task with sessionJobs := rest } := by
  refine ⟨rfl, rfl, rfl, .inl, ?_⟩
  rintro stage (calculated | ⟨other, member, isStage⟩ | background | removal)
  · exact .inl (.inl calculated)
  · exact .inl (task.hasStage_of_sessionJob (jobs ▸ List.mem_cons_of_mem _ member) isStage)
  · exact .inl (.inr (.inr (.inl background)))
  · exact .inl (.inr (.inr (.inr removal)))

theorem moves_popBackgroundJob {job : BackgroundJob} {rest : List BackgroundJob}
    (jobs : task.backgroundJobs = job :: rest) :
    Moves [] task { task with backgroundJobs := rest } := by
  refine ⟨rfl, rfl, rfl, .inl, ?_⟩
  rintro stage (calculated | session | ⟨other, member, isStage⟩ | removal)
  · exact .inl (.inl calculated)
  · exact .inl (.inr (.inl session))
  · exact .inl (task.hasStage_of_backgroundJob (jobs ▸ List.mem_cons_of_mem _ member) isStage)
  · exact .inl (.inr (.inr (.inr removal)))

theorem moves_popRemoval (index : Nat) :
    Moves [] task { task with removals := task.removals.eraseIdx index } := by
  refine ⟨rfl, rfl, rfl, .inl, ?_⟩
  rintro stage (calculated | session | background | ⟨other, member, isStage⟩)
  · exact .inl (.inl calculated)
  · exact .inl (.inr (.inl session))
  · exact .inl (.inr (.inr (.inl background)))
  · exact .inl (task.hasStage_of_removal (List.mem_of_mem_eraseIdx member) isStage)

theorem moves_torrentFinished (task : UpdateDriveTaskBase) (torrent : Torrent) :
    Moves [] task (task.torrentFinished torrent) :=
  (moves_executeOnBackgroundThread _ (.save (.torrentFile _))).comp
    (.of_eq rfl rfl rfl rfl rfl rfl rfl rfl)

/-- A step that schedules nothing but the end counts nothing by itself. -/
theorem isCounted_of_stages
    (stages : ∀ stage, after.HasStage stage → before.HasStage stage ∨ stage = .ending)
    (counted : after.IsCounted) : before.IsCounted := by
  rcases counted with has | has | has
  · exact .inl ((stages _ has).resolve_right (by simp))
  · exact .inr (.inl ((stages _ has).resolve_right (by simp)))
  · exact .inr (.inr ((stages _ has).resolve_right (by simp)))

theorem Moves.fails (moves : Moves [.ending] before after) : Fails before after where
  opinionController := moves.opinionController
  stopped := moves.stopped
  interrupted := moves.interrupted
  counted := isCounted_of_stages fun stage has => (moves.stages stage has).imp_right (by simp)
  synchronizing := by
    intro has
    exact (moves.stages _ has).resolve_right (by simp)

theorem Moves.trans_nil (first : Moves [] before middle) (second : Moves new middle after) :
    Moves new before after :=
  (first.mono (List.nil_subset _)).trans second

theorem Counts.of_pop {job : SessionJob} {rest : List SessionJob}
    (jobs : task.sessionJobs = job :: rest)
    (counts : Counts tx size { task with sessionJobs := rest } after) :
    Counts tx size task after where
  running := counts.running
  opinionController := counts.opinionController
  stopped := counts.stopped
  interrupted := counts.interrupted
  finished := counts.finished
  stages := by
    intro stage has
    rcases counts.stages stage has with old | new
    · exact .inl (((moves_popSessionJob jobs).stages stage old).resolve_right (by simp))
    · exact .inr new

theorem Approves.of_pop {job : SessionJob} {rest : List SessionJob}
    (jobs : task.sessionJobs = job :: rest)
    (approves : Approves { task with sessionJobs := rest } after) : Approves task after where
  opinionController := approves.opinionController
  stopped := approves.stopped
  interrupted := approves.interrupted
  finished := approves.finished
  stages := by
    intro stage has
    rcases approves.stages stage has with old | new
    · exact .inl (((moves_popSessionJob jobs).stages stage old).resolve_right (by simp))
    · exact .inr new

/-! ## The end of a step -/

theorem Interrupts.isCounted (interrupts : Interrupts before after) (counted : after.IsCounted) :
    before.IsCounted :=
  isCounted_of_stages interrupts.stages counted

theorem Counts.isEnding (counts : Counts tx size before after) (ending : after.IsEnding) :
    before.IsEnding := by
  rcases ending with interrupted | finished | completion | ends
  · simp [counts.interrupted] at interrupted
  · exact .inr (.inl (counts.finished ▸ finished))
  · exact .inr (.inr (.inl ((counts.stages _ completion).resolve_right (by simp))))
  · exact .inr (.inr (.inr ((counts.stages _ ends).resolve_right (by simp))))

theorem CountsUploads.pop {event : TaskEvent} (isCount : task.CountsUploads event) :
    event = .runSessionJob ∧ ∃ rest, task.popSessionJob =
      some (.myRootHashIsCalculated, { task with sessionJobs := rest }) := by
  obtain ⟨isRun, isHead, -⟩ := isCount
  constructor
  · cases event with
    | runSessionJob => rfl
    | _ => simp at isRun
  · cases jobs : task.sessionJobs with
    | nil => simp [jobs] at isHead
    | cons job rest =>
        rw [jobs, List.head?_cons, Option.some.injEq] at isHead
        exact ⟨rest, by rw [popSessionJob, jobs, isHead]⟩

theorem ApprovesUploads.hasStage {event : TaskEvent} (isApproval : task.ApprovesUploads event) :
    task.HasStage .synchronization :=
  task.hasStage_of_sessionJob (List.mem_of_mem_head? isApproval.2) rfl

theorem ApprovesUploads.isCounted {event : TaskEvent} (isApproval : task.ApprovesUploads event) :
    task.IsCounted :=
  .inr (.inl isApproval.hasStage)

theorem FailsSynchronizing.hasStage {event : TaskEvent}
    (isFailure : task.FailsSynchronizing event) : task.HasStage .synchronization :=
  task.hasStage_of_backgroundJob (List.mem_of_mem_head? isFailure.2) rfl

/-! ## The jobs that all tasks have -/

section Jobs

variable {job : SessionJob} {rest : List SessionJob} (jobs : task.sessionJobs = job :: rest)

include jobs

theorem hasStage_of_head {stage : UpdateStage} (isStage : job.stage? = some stage) :
    task.HasStage stage :=
  task.hasStage_of_sessionJob (jobs ▸ List.mem_cons_self) isStage

theorem goesOn_of_pop (moves : Moves new { task with sessionJobs := rest } after)
    (justified : ∀ stage ∈ new, task.Justifies mayStart stage) : GoesOn mayStart task after :=
  ((moves_popSessionJob jobs).trans_nil moves).goesOn justified

theorem uploadsStep_myRootHashIsCalculated (isJob : job = .myRootHashIsCalculated) :
    UploadsStep mayStart .runSessionJob tx size task
      ({ task with sessionJobs := rest }.myRootHashIsCalculated tx size) := by
  subst isJob
  rcases myRootHashIsCalculated_cases { task with sessionJobs := rest } tx size with
    ⟨interrupted, moves⟩ | counts
  · refine .goesOn (goesOn_of_pop jobs moves ?_)
    intro stage isNew
    obtain rfl := List.mem_singleton.mp isNew
    exact isEnding_of_interrupted interrupted
  · exact .counts ⟨rfl, by rw [jobs]; rfl, counts.running⟩ (counts.of_pop jobs)

theorem goesOn_onCumulativeUploadsUpdated (isJob : job = .onCumulativeUploadsUpdated) :
    GoesOn mayStart task ({ task with sessionJobs := rest }.onCumulativeUploadsUpdated tx) := by
  subst isJob
  rcases moves_onCumulativeUploadsUpdated { task with sessionJobs := rest } tx with
    ⟨interrupted, moves⟩ | moves
  · refine goesOn_of_pop jobs moves ?_
    intro stage isNew
    obtain rfl := List.mem_singleton.mp isNew
    exact isEnding_of_interrupted interrupted
  · refine goesOn_of_pop jobs moves ?_
    intro stage isNew
    obtain rfl := List.mem_singleton.mp isNew
    exact .inl (hasStage_of_head jobs rfl)

theorem uploadsStep_synchronizationIsCompleted (isJob : job = .synchronizationIsCompleted) :
    UploadsStep mayStart .runSessionJob tx size task
      ({ task with sessionJobs := rest }.synchronizationIsCompleted tx) := by
  subst isJob
  exact .approves ⟨rfl, by rw [jobs]; rfl⟩
    ((approves_synchronizationIsCompleted _ tx).of_pop jobs)

theorem goesOn_modifyIsCompleted (isJob : job = .modifyIsCompleted) :
    GoesOn mayStart task ({ task with sessionJobs := rest }.modifyIsCompleted tx) := by
  subst isJob
  refine goesOn_of_pop jobs (moves_modifyIsCompleted _ tx) ?_
  intro stage isNew
  obtain rfl := List.mem_singleton.mp isNew
  exact .inr (.inr (.inl (hasStage_of_head jobs rfl)))

end Jobs

theorem goesOn_runSaveJob {job : SaveJob} {rest : List BackgroundJob}
    (jobs : task.backgroundJobs = .save job :: rest) :
    GoesOn mayStart task ({ task with backgroundJobs := rest }.runSaveJob job) := by
  refine ((moves_popBackgroundJob jobs).trans_nil (moves_runSaveJob _ job)).goesOn_stage ?_
  intro stage isStage
  exact task.hasStage_of_backgroundJob (jobs ▸ List.mem_cons_self) isStage

theorem goesOn_onTorrentsRemoved {index : Nat} {removal : TorrentsRemoved}
    (isRemoval : task.removals[index]? = some removal) :
    GoesOn mayStart task
      ({ task with removals := task.removals.eraseIdx index }.onTorrentsRemoved removal) := by
  refine ((moves_popRemoval index).trans_nil (moves_onTorrentsRemoved _ removal)).goesOn_stage ?_
  intro stage isStage
  exact task.hasStage_of_removal (List.mem_of_getElem? isRemoval) isStage

end UpdateDriveTaskBase

namespace ModifyApprovalTaskBase

open UpdateDriveTaskBase (Moves GoesOn isEnding_of_interrupted goesOn_of_pop hasStage_of_head
  hasStage_of_sessionJob)

variable {task : ModifyApprovalTaskBase} {rest : List SessionJob}

theorem goesOn_myOpinionIsCreated (jobs : task.sessionJobs = .myOpinionIsCreated :: rest) :
    GoesOn (task.modifyApproveTxReceived = true) task.toUpdateDriveTaskBase
      (task.base fun base => { base with
        sessionJobs := rest }).myOpinionIsCreated.toUpdateDriveTaskBase := by
  have has : task.IsCounted := .inl (hasStage_of_head jobs rfl)
  rcases moves_myOpinionIsCreated (task.base fun base => { base with sessionJobs := rest }) with
    ⟨interrupted, moves⟩ | ⟨received, moves⟩ | moves
  · refine goesOn_of_pop jobs moves ?_
    intro stage isNew
    obtain rfl := List.mem_singleton.mp isNew
    exact isEnding_of_interrupted interrupted
  · refine goesOn_of_pop jobs moves ?_
    intro stage isNew
    simp only [List.mem_cons, List.not_mem_nil, or_false] at isNew
    rcases isNew with rfl | rfl
    · exact has
    · exact ⟨has, .inr received⟩
  · refine goesOn_of_pop jobs moves ?_
    intro stage isNew
    obtain rfl := List.mem_singleton.mp isNew
    exact has

theorem received_opinionTimerExpired :
    task.opinionTimerExpired.modifyApproveTxReceived = task.modifyApproveTxReceived := by
  unfold opinionTimerExpired
  split
  · rfl
  · split <;> rfl

theorem received_checkOpinionNumber :
    task.checkOpinionNumberAndStartTimer.modifyApproveTxReceived =
      task.modifyApproveTxReceived := by
  unfold checkOpinionNumberAndStartTimer
  simp only
  split
  · exact received_opinionTimerExpired
  · split
    · split <;> rfl
    · rfl

theorem received_shareMyOpinionTimerExpired :
    task.shareMyOpinionTimerExpired.modifyApproveTxReceived = task.modifyApproveTxReceived := by
  unfold shareMyOpinionTimerExpired
  split <;> rfl

theorem received_myOpinionIsCreated :
    task.myOpinionIsCreated.modifyApproveTxReceived = task.modifyApproveTxReceived := by
  unfold myOpinionIsCreated
  split
  · rfl
  · split
    · rfl
    · simp only
      split
      · rfl
      · exact received_checkOpinionNumber

end ModifyApprovalTaskBase

end SiriusDrive
