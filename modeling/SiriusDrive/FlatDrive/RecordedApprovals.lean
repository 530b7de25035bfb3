import SiriusDrive.FlatDrive.Completion
import SiriusDrive.FlatDrive.PublishedApprovals
import SiriusDrive.FlatDrive.TaskRecords

/-! # The records of a completed modification

A task that updates the drive records its modification as approved before it completes.
A manual modification does not: it names itself the last approved modification, and
leaves the approved uploads under the name they had.
-/

namespace SiriusDrive

/-! ## Updates -/

namespace UpdateView

/-- What an event does to an update, as far as the uploads are concerned. -/
inductive Changes (view later : UpdateView) : Prop
  | steps (event : TaskEvent) (steps : view.Steps event later)
  | goesOn (goesOn : view.GoesOn later)
  | interrupts (interrupts : view.Interrupts later)
  | published (tx : Hash256) (answer : Bool) (published : view.Published tx later answer)
  | terminates (terminates : view.Terminates later)

/-- Uploads are counted under the name of the modification. -/
def NamesCounted (view : UpdateView) : Prop :=
  view.base.IsCounted →
    view.base.drive.opinionController.notApprovedModificationId = view.purpose.modification

/-- The uploads are counted, and what is still to be recorded is recorded, under the name of
    the modification. -/
structure KeepsRecords (view : UpdateView) : Prop where
  counted : view.NamesCounted
  follows : view.base.records.Follows view.purpose.modification

variable {view later : UpdateView}

theorem Changes.purpose (changes : view.Changes later) : later.purpose = view.purpose := by
  cases changes with
  | steps _ steps => exact steps.purpose
  | goesOn goesOn => exact goesOn.purpose
  | interrupts interrupts => exact interrupts.purpose
  | published _ _ published => exact published.purpose
  | terminates terminates => exact terminates.purpose

theorem NamesCounted.of_same (counted : view.NamesCounted)
    (same : later.base.drive.opinionController.notApprovedModificationId =
      view.base.drive.opinionController.notApprovedModificationId)
    (purpose : later.purpose = view.purpose)
    (earlier : later.base.IsCounted → view.base.IsCounted) : later.NamesCounted := by
  intro isCounted
  rw [same, purpose]
  exact counted (earlier isCounted)

theorem NamesCounted.steps (counted : view.NamesCounted) {event : TaskEvent}
    (steps : view.Steps event later) : later.NamesCounted := by
  cases steps.base with
  | goesOn goesOn =>
      exact counted.of_same (congrArg _ goesOn.opinionController) steps.purpose goesOn.counted
  | counts _ counts =>
      intro _
      rw [counts.opinionController, steps.purpose]
      rfl
  | approves isApproval approves =>
      refine counted.of_same ?_ steps.purpose fun _ => isApproval.isCounted
      rw [approves.opinionController]
      rfl
  | fails _ fails =>
      exact counted.of_same (congrArg _ fails.opinionController) steps.purpose fails.counted

theorem NamesCounted.changes (counted : view.NamesCounted) (changes : view.Changes later) :
    later.NamesCounted := by
  cases changes with
  | steps _ steps => exact counted.steps steps
  | goesOn goesOn =>
      exact counted.of_same (congrArg _ goesOn.base.opinionController) goesOn.purpose
        goesOn.base.counted
  | interrupts interrupts =>
      exact counted.of_same (congrArg _ interrupts.base.opinionController) interrupts.purpose
        interrupts.base.isCounted
  | terminates terminates =>
      exact counted.of_same (congrArg _ terminates.opinionController) terminates.purpose
        terminates.isCounted
  | published tx answer published =>
      cases published with
      | ignored _ same | dropped _ _ same => exact same ▸ counted
      | applied _ _ applies =>
          exact counted.of_same (congrArg _ applies.base.opinionController) applies.purpose
            applies.base.counted
      | broken _ _ breaks =>
          refine counted.of_same ?_ breaks.purpose breaks.isCounted
          rw [breaks.opinionController]
          rfl
      | superseded _ _ interrupts =>
          exact counted.of_same (congrArg _ interrupts.base.opinionController) interrupts.purpose
            interrupts.base.isCounted

theorem KeepsRecords.changes (keeps : view.KeepsRecords) (changes : view.Changes later)
    (step : UpdateDriveTaskBase.RecordsStep view.purpose.modification view.base later.base) :
    later.KeepsRecords where
  counted := keeps.counted.changes changes
  follows := by
    rw [changes.purpose]
    exact keeps.follows.step (fun synchronizes => keeps.counted (.inr (.inl synchronizes))) step

theorem Changes.of_settings {view later : UpdateView}
    (moves : UpdateDriveTaskBase.Moves [] view.base later.base) (purpose : later.purpose = view.purpose)
    (received : later.received = view.received) : view.Changes later :=
  .goesOn ⟨moves.goesOn_nil, purpose, received⟩

theorem Changes.of_interrupt {view later : UpdateView}
    (interrupts : view.GoesOn later ∨ view.Interrupts later) : view.Changes later :=
  interrupts.elim .goesOn .interrupts

end UpdateView

namespace ModifyDriveTask

variable {task after : ModifyDriveTask} {event : TaskEvent}

theorem changes (running : task.fault = none) (handled : task.handle event = some after) :
    task.updateView.Changes after.updateView := by
  have internal (isInternal : event.isInternal = true) :
      task.updateView.Changes after.updateView :=
    .steps event (uploadsStep isInternal (by simp [modifyDriveSystem, running, handled])).steps
  cases event with
  | runSessionJob | runBackgroundJob | torrentsRemoved | metadataReceived | torrentFinished
  | pieceReceived | modifyOpinionTimerExpired | shareMyOpinionTimerExpired => exact internal rfl
  | opinionReceived anOpinion =>
      obtain rfl := Option.some.inj handled
      exact .goesOn (task.movesOn_processedModifyOpinion anOpinion).goesOn
  | approvalTxPublished transaction =>
      obtain rfl := Option.some.inj handled
      exact .published _ _ (task.published_onApprovalTxPublished transaction)
  | approvalTxFailed transactionHash =>
      obtain rfl := Option.some.inj handled
      exact .goesOn (task.movesOn_onApprovalTxFailed transactionHash).goesOn
  | cancelModify cancelRequest =>
      obtain rfl := Option.some.inj handled
      rcases task.shouldCancelModify_cases cancelRequest with ⟨same, -⟩ | ⟨-, -, interrupts⟩
      · rw [same]
        exact .goesOn (.refl _)
      · exact .interrupts interrupts
  | driveClose | manualSynchronize =>
      obtain rfl := Option.some.inj handled
      exact .of_interrupt task.interrupts_interrupt
  | terminate =>
      obtain rfl := Option.some.inj handled
      exact .terminates task.terminates_terminate
  | setReplicators | setMinReplicatorsNumber =>
      obtain rfl := Option.some.inj handled
      exact .of_settings (.of_eq rfl rfl rfl rfl rfl rfl rfl rfl) rfl rfl
  | chunkInfoReceived | finishStream =>
      obtain rfl := Option.some.inj handled
      exact .goesOn (.refl _)

end ModifyDriveTask

namespace StreamTask

variable {task after : StreamTask} {event : TaskEvent}

theorem changes (running : task.fault = none) (handled : task.handle event = some after) :
    task.updateView.Changes after.updateView := by
  have internal (isInternal : event.isInternal = true) :
      task.updateView.Changes after.updateView :=
    .steps event (uploadsStep isInternal (by simp [streamSystem, running, handled])).steps
  cases event with
  | runSessionJob | runBackgroundJob | torrentsRemoved | metadataReceived | torrentFinished
  | pieceReceived | modifyOpinionTimerExpired | shareMyOpinionTimerExpired => exact internal rfl
  | opinionReceived anOpinion =>
      obtain rfl := Option.some.inj handled
      exact .goesOn (task.movesOn_processedModifyOpinion anOpinion).goesOn
  | approvalTxPublished transaction =>
      obtain rfl := Option.some.inj handled
      exact .published _ _ (task.published_onApprovalTxPublished transaction)
  | cancelModify cancelRequest =>
      obtain rfl := Option.some.inj handled
      rcases task.shouldCancelModify_cases cancelRequest with ⟨same, -⟩ | ⟨-, -, interrupts⟩
      · rw [same]
        exact .goesOn (.refl _)
      · exact .interrupts interrupts
  | driveClose | manualSynchronize =>
      obtain rfl := Option.some.inj handled
      exact .of_interrupt task.interrupts_interrupt
  | terminate =>
      obtain rfl := Option.some.inj handled
      exact .terminates task.terminates_terminate
  | setReplicators | setMinReplicatorsNumber =>
      obtain rfl := Option.some.inj handled
      exact .of_settings (.of_eq rfl rfl rfl rfl rfl rfl rfl rfl) rfl rfl
  | approvalTxFailed =>
      obtain rfl := Option.some.inj handled
      exact .goesOn (.refl _)
  | chunkInfoReceived chunkInfo isVerified =>
      obtain rfl := Option.some.inj handled
      exact .goesOn (task.movesOn_acceptChunkInfoMessage chunkInfo isVerified).goesOn
  | finishStream finishStream =>
      obtain rfl := Option.some.inj handled
      exact .goesOn (task.movesOn_acceptFinishStreamTx finishStream).goesOn

end StreamTask

namespace SynchronizationTask

variable {task after : SynchronizationTask} {event : TaskEvent}

theorem changes (running : task.fault = none) (handled : task.handle event = some after) :
    task.updateView.Changes after.updateView := by
  have internal (isInternal : event.isInternal = true) :
      task.updateView.Changes after.updateView :=
    .steps event (uploadsStep isInternal (by simp [synchronizationSystem, running, handled])).steps
  cases event with
  | runSessionJob | runBackgroundJob | torrentsRemoved | metadataReceived | torrentFinished
  | pieceReceived | modifyOpinionTimerExpired | shareMyOpinionTimerExpired => exact internal rfl
  | approvalTxPublished transaction =>
      obtain rfl := Option.some.inj handled
      exact .published 0 _ (task.published_onApprovalTxPublished 0)
  | driveClose | manualSynchronize =>
      obtain rfl := Option.some.inj handled
      exact .of_interrupt task.interrupts_interrupt
  | terminate =>
      obtain rfl := Option.some.inj handled
      exact .terminates task.terminates_terminate
  | setReplicators | setMinReplicatorsNumber =>
      obtain rfl := Option.some.inj handled
      exact .of_settings (.of_eq rfl rfl rfl rfl rfl rfl rfl rfl) rfl rfl
  | opinionReceived | approvalTxFailed | cancelModify | chunkInfoReceived | finishStream =>
      obtain rfl := Option.some.inj handled
      exact .goesOn (.refl _)

end SynchronizationTask

/-! ## Manual modifications -/

namespace ManualModificationsTask

/-- What is saved before a manual modification completes: the approved uploads as they are,
    and the modification under its own name. -/
def KeepsRecords (task : ManualModificationsTask) : Prop :=
  task.applying = some .onAppliedStorageModifications →
    task.drive.restartValues.approvedCumulativeUploads =
        some task.drive.opinionController.approvedCumulativeUploads ∧
      task.drive.restartValues.approvedModification = some task.request.modificationIdentifier

variable {task after : ManualModificationsTask}

theorem KeepsRecords.of_same (keeps : task.KeepsRecords)
    (applying : after.applying = some .onAppliedStorageModifications →
      task.applying = some .onAppliedStorageModifications)
    (request : after.request = task.request)
    (approved : after.drive.opinionController.approvedCumulativeUploads =
      task.drive.opinionController.approvedCumulativeUploads)
    (savedUploads : after.drive.restartValues.approvedCumulativeUploads =
      task.drive.restartValues.approvedCumulativeUploads)
    (savedModification : after.drive.restartValues.approvedModification =
      task.drive.restartValues.approvedModification) : after.KeepsRecords := by
  intro isLast
  rw [request, approved, savedUploads, savedModification]
  exact keeps (applying isLast)

theorem KeepsRecords.withDrive (keeps : task.KeepsRecords) {drive : DriveParams}
    (same : task.drive.SameContent drive) : { task with drive }.KeepsRecords := by
  obtain ⟨sameController, -, -, -, sameValues⟩ := same
  intro isLast
  rw [show drive.opinionController = _ from sameController,
    show drive.restartValues = _ from sameValues]
  exact keeps isLast

theorem KeepsRecords.finishTask (keeps : task.KeepsRecords) : task.finishTask.KeepsRecords := by
  unfold ManualModificationsTask.finishTask
  split
  · exact keeps
  · exact keeps.of_same id rfl rfl rfl rfl

theorem KeepsRecords.terminate (keeps : task.KeepsRecords) : task.terminate.KeepsRecords := by
  have interrupted : { task with taskIsInterrupted := true }.KeepsRecords :=
    keeps.of_same id rfl rfl rfl rfl
  unfold ManualModificationsTask.terminate
  split
  · exact keeps
  · simp only
    split
    · exact interrupted.finishTask
    · exact interrupted

theorem KeepsRecords.queryFinished (keeps : task.KeepsRecords) :
    task.queryFinished.KeepsRecords := by
  have finished : { task with isExecutingQuery := false }.KeepsRecords :=
    keeps.of_same id rfl rfl rfl rfl
  unfold ManualModificationsTask.queryFinished
  simp only
  split
  · exact finished.finishTask
  · exact finished

theorem keepsRecords_of_earlier (earlier : task.applying ≠ some .onAppliedStorageModifications) :
    task.KeepsRecords :=
  fun isLast => absurd isLast earlier

theorem KeepsRecords.handle (keeps : task.KeepsRecords) {event : ManualEvent}
    (handled : task.handle event = some after) : after.KeepsRecords := by
  cases event with
  | queryStarted =>
      simp only [ManualModificationsTask.handle] at handled
      split at handled
      · cases handled
      · obtain rfl := Option.some.inj handled
        exact keeps.of_same id rfl rfl rfl rfl
  | queryFinished =>
      simp only [ManualModificationsTask.handle] at handled
      split at handled
      · cases handled
      · obtain rfl := Option.some.inj handled
        exact keeps.queryFinished
  | sandboxModificationsApplied fsTree =>
      simp only [ManualModificationsTask.handle, onAppliedSandboxModifications] at handled
      split at handled
      · cases handled
      · obtain rfl := Option.some.inj handled
        split
        · exact keeps.queryFinished
        · exact keeps.of_same id rfl rfl rfl rfl
  | storageHashEvaluated fsTree rootHash =>
      simp only [ManualModificationsTask.handle] at handled
      split at handled
      · cases handled
      · obtain rfl := Option.some.inj handled
        exact keeps.of_same id rfl rfl rfl rfl
  | applyStorageModifications success =>
      simp only [ManualModificationsTask.handle] at handled
      split at handled
      · cases handled
      · split at handled
        · obtain rfl := Option.some.inj handled
          exact keepsRecords_of_earlier (by simp)
        · obtain rfl := Option.some.inj handled
          exact keeps.finishTask
  | advanceApplying =>
      obtain ⟨phase, isPhase, advanced⟩ := Option.bind_eq_some_iff.mp handled
      cases phase with
      | addNewTorrentsToSession | onNewTorrentAdded | removeTorrents =>
          obtain rfl := Option.some.inj advanced
          exact keepsRecords_of_earlier (by simp)
      | onUnusedTorrentsDeleted =>
          obtain rfl := Option.some.inj advanced
          exact fun _ => ⟨rfl, rfl⟩
      | onAppliedStorageModifications =>
          simp only [ManualModificationsTask.advanceApplying, onAppliedStorageModifications]
            at advanced
          split at advanced
          · obtain rfl := Option.some.inj advanced
            exact (keepsRecords_of_earlier (by simp)).finishTask
          · cases advanced
  | advanceFinishing =>
      obtain ⟨phase, -, rfl⟩ := Option.map_eq_some_iff.mp handled
      cases phase <;> exact keeps.of_same id rfl rfl rfl rfl

end ManualModificationsTask

/-! ## The running task -/

namespace DriveTask

structure KeepsRecords (task : DriveTask) : Prop where
  update : ∀ view, task.update? = some view → view.KeepsRecords
  manual : ∀ manual, task = .manualModification manual → manual.KeepsRecords

variable {task after : DriveTask} {event : DriveEvent}

theorem keepsRecords_of_update {view : UpdateView} (isView : task.update? = some view)
    (keeps : view.KeepsRecords) : task.KeepsRecords where
  update := by
    intro other isOther
    exact Option.some.inj (isView.symm.trans isOther) ▸ keeps
  manual := by
    rintro manual rfl
    cases isView

theorem keepsRecords_of_manual {manual : ManualModificationsTask} (keeps : manual.KeepsRecords) :
    (DriveTask.manualModification manual).KeepsRecords where
  update := by
    intro view isView
    cases isView
  manual := by
    intro other isOther
    exact manualModification.inj isOther ▸ keeps

theorem keepsRecords_of_other (noUpdate : task.update? = none)
    (noManual : ∀ manual, task ≠ .manualModification manual) : task.KeepsRecords where
  update := by
    intro view isView
    cases noUpdate.symm.trans isView
  manual := by
    intro manual isManual
    exact absurd isManual (noManual manual)

theorem KeepsRecords.reacts (keeps : task.KeepsRecords) (reacts : task.Reacts event after) :
    after.KeepsRecords := by
  cases reacts with
  | modification running isEvent handled =>
      exact keepsRecords_of_update rfl ((keeps.update _ rfl).changes
        (ModifyDriveTask.changes running handled)
        (ModifyDriveTask.recordsStep (ModifyDriveTask.handles_of_handle handled)))
  | stream running isEvent handled =>
      exact keepsRecords_of_update rfl ((keeps.update _ rfl).changes
        (StreamTask.changes running handled)
        (StreamTask.recordsStep (StreamTask.handles_of_handle handled)))
  | synchronization running isEvent handled =>
      exact keepsRecords_of_update rfl ((keeps.update _ rfl).changes
        (SynchronizationTask.changes running handled)
        (SynchronizationTask.recordsStep (SynchronizationTask.handles_of_handle handled)))
  | setShardDonator task replicatorKeys =>
      cases task with
      | modification task =>
          have kept := keeps.update _ rfl
          exact keepsRecords_of_update rfl ⟨kept.counted, kept.follows⟩
      | stream task =>
          have kept := keeps.update _ rfl
          exact keepsRecords_of_update rfl ⟨kept.counted, kept.follows⟩
      | synchronization task =>
          have kept := keeps.update _ rfl
          exact keepsRecords_of_update rfl ⟨kept.counted, kept.follows⟩
      | manualModification task =>
          have kept := keeps.manual task rfl
          exact keepsRecords_of_manual (kept.of_same id rfl rfl rfl rfl)
      | initialization | cancellation | closure =>
          exact keepsRecords_of_other rfl fun _ isManual => by cases isManual
  | loaded | initialization | cancels | cancellation | closure =>
      exact keepsRecords_of_other rfl fun _ isManual => by cases isManual
  | manual isEvent handled =>
      exact keepsRecords_of_manual ((keeps.manual _ rfl).handle handled)
  | manualModification task same =>
      exact keepsRecords_of_manual ((keeps.manual _ rfl).withDrive same)
  | terminates task same =>
      exact keepsRecords_of_manual ((keeps.manual _ rfl).withDrive same).terminate
  | same => exact keeps

theorem keepsRecords_of_new {view : UpdateView} {drive : DriveParams}
    (isView : task.update? = some view) (isNew : view.IsNew drive)
    (saves : view.base.records.saves = []) (completions : view.base.records.completions = 0) :
    task.KeepsRecords :=
  keepsRecords_of_update isView
    ⟨fun counted => absurd counted isNew.uncounted, .of_nothing saves completions⟩

theorem keepsRecords_of_synchronization {task : SynchronizationTask} {drive : DriveParams}
    (isNew : task.toUpdateDriveTaskBase = { drive }) :
    (synchronization task.run).KeepsRecords := by
  have records : task.run.records = task.records := by
    unfold SynchronizationTask.run
    split
    · exact task.records_finishTask
    · split
      · exact UpdateDriveTaskBase.records_executeOnBackgroundThread _ rfl
      · rfl
  refine keepsRecords_of_new rfl (SynchronizationTask.isNew_run isNew) ?_ ?_
  · change task.run.records.saves = []
    rw [records, isNew]
    rfl
  · change task.run.records.completions = 0
    rw [records, isNew]
    rfl

theorem IsStarted.keepsRecords {drive : DriveParams} (started : task.IsStarted drive) :
    task.KeepsRecords := by
  cases started with
  | closure | cancellation => exact keepsRecords_of_other rfl fun _ isManual => by cases isManual
  | catchingUp | synchronization => exact keepsRecords_of_synchronization rfl
  | modification request opinions actionListFile =>
      have records : (ModifyDriveTask.start request opinions drive actionListFile).records =
          (ModifyDriveTask.create request opinions drive actionListFile).records := by
        have prepares : ((ModifyDriveTask.create request opinions drive
              actionListFile).executeOnBackgroundThread .prepareDownloadMissingFiles).records =
            (ModifyDriveTask.create request opinions drive actionListFile).records :=
          UpdateDriveTaskBase.records_executeOnBackgroundThread _ rfl
        unfold ModifyDriveTask.start ModifyDriveTask.run
        simp only
        split
        · exact prepares
        · rfl
      exact keepsRecords_of_new rfl
        (ModifyDriveTask.isNew_start request opinions drive actionListFile).1
        (congrArg ApprovalRecords.saves records) (congrArg ApprovalRecords.completions records)
  | stream request =>
      exact keepsRecords_of_new rfl (StreamTask.isNew_create request drive) rfl rfl
  | manualModification request =>
      exact keepsRecords_of_manual (ManualModificationsTask.keepsRecords_of_earlier (by
        simp [ManualModificationsTask.start]))

end DriveTask

/-! ## The runs of a drive -/

def DriveTask.manual? : DriveTask → Option ManualModificationsTask
  | .manualModification task => some task
  | _ => none

namespace FlatDrive

def KeepsRecords (flatDrive : FlatDrive) : Prop :=
  ∀ task, flatDrive.task = some task → task.KeepsRecords

variable {flatDrive after : FlatDrive} {event : DriveEvent}

theorem KeepsRecords.step (keeps : flatDrive.KeepsRecords)
    (step : flatDriveSystem.step flatDrive event = some after) : after.KeepsRecords := by
  intro next isNext
  cases taskStep_of_step step with
  | idles _ stillIdle => cases stillIdle.symm.trans isNext
  | reacts isTask isAfter reacts =>
      obtain rfl := Option.some.inj (isAfter.symm.trans isNext)
      exact (keeps _ isTask).reacts reacts
  | starts _ isAfter started =>
      obtain rfl := Option.some.inj (isAfter.symm.trans isNext)
      exact started.keepsRecords
  | ends _ noTask => cases noTask.symm.trans isNext

theorem keepsRecords_create (drive : DriveParams)
    (completedModifications : List CompletedModification)
    (actionListFiles : InfoHash → Option ActionListFile) :
    (create drive completedModifications actionListFiles).KeepsRecords := by
  intro task isTask
  obtain rfl := Option.some.inj isTask
  exact DriveTask.keepsRecords_of_other rfl fun _ isManual => by cases isManual

/-- When a modification is completed, its approval is recorded everywhere. -/
def RecordsCompletion (flatDrive : FlatDrive) (event : DriveEvent) : Prop :=
  flatDrive.task.any (·.completes event) = true →
    ∀ after ∈ flatDriveSystem.step flatDrive event, after.drive.RecordsApproval

instance (flatDrive : FlatDrive) (event : DriveEvent) :
    Decidable (flatDrive.RecordsCompletion event) :=
  inferInstanceAs (Decidable (_ → _))

/-- A manual modification completes only if its uploads have been approved before. -/
def CompletesApproved (flatDrive : FlatDrive) (event : DriveEvent) : Prop :=
  flatDrive.task.any (·.completes event) = true →
    (flatDriveSystem.step flatDrive event).isSome = true →
    ∀ task ∈ flatDrive.task.bind (·.manual?), task.request.modificationIdentifier =
      task.drive.opinionController.approvedCumulativeUploads.modificationId

instance (flatDrive : FlatDrive) (event : DriveEvent) :
    Decidable (flatDrive.CompletesApproved event) :=
  inferInstanceAs (Decidable (_ → _ → _))

theorem recordsApproval_completed_iff {drive : DriveParams} {modification : Hash256}
    {fsTree : FsTree} {rootHash : InfoHash} {fsTreeLtHandle : LtHandle} :
    (drive.completed modification fsTree rootHash fsTreeLtHandle).RecordsApproval ↔
      drive.opinionController.approvedCumulativeUploads.modificationId = modification ∧
        drive.restartValues.approvedCumulativeUploads.map (·.modificationId) =
          some modification ∧
        drive.restartValues.approvedModification = some modification :=
  ⟨fun records => ⟨records.approved, records.savedUploads, records.savedModification⟩,
    fun ⟨approved, savedUploads, savedModification⟩ =>
      ⟨approved, savedUploads, savedModification⟩⟩

theorem recordsCompletion_iff (keeps : flatDrive.KeepsRecords) (event : DriveEvent) :
    flatDrive.RecordsCompletion event ↔ flatDrive.CompletesApproved event := by
  unfold RecordsCompletion CompletesApproved
  apply imp_congr_right
  intro completes
  obtain ⟨task, isTask, completes⟩ := (Option.any_eq_true _ _).mp completes
  cases step : flatDriveSystem.step flatDrive event with
  | none => simp
  | some after =>
      have completion := completion_of_step isTask completes step
      have kept := keeps task isTask
      simp only [Option.mem_def, Option.some.injEq, forall_eq', Option.isSome_some, forall_const,
        isTask, Option.bind_some]
      generalize after.drive = drive at completion
      cases completion with
      | @update task view rest rootHash fsTree handle isView jobs isTree =>
          have noManual : task.manual? = none := by
            cases task with
            | manualModification => cases isView
            | _ => rfl
          have isLast : view.base.records.completions ≠ 0 := by
            simp [UpdateDriveTaskBase.records, jobs]
          have recorded := (kept.update view isView).follows.completions isLast
          rw [noManual]
          exact iff_of_true (recordsApproval_completed_iff.mpr recorded) (by simp)
      | @manual task rootHash fsTree handle isLast isTree =>
          obtain ⟨savedUploads, savedModification⟩ := kept.manual task rfl isLast
          rw [recordsApproval_completed_iff, savedUploads, savedModification]
          simp [DriveTask.manual?, eq_comm]

/-- In every run of a drive, all completions are recorded exactly if no manual modification
    completes but under the name of the approved uploads. -/
theorem completions_are_recorded_iff (drive : DriveParams)
    (completedModifications : List CompletedModification)
    (actionListFiles : InfoHash → Option ActionListFile) (events : List DriveEvent) :
    flatDriveSystem.Meets RecordsCompletion
        (create drive completedModifications actionListFiles) events ↔
      flatDriveSystem.Meets CompletesApproved
        (create drive completedModifications actionListFiles) events :=
  Transition.meets_iff_of_invariant (fun _ event keeps => recordsCompletion_iff keeps event)
    (fun _ _ _ keeps _ step => keeps.step step) events
    (keepsRecords_create drive completedModifications actionListFiles)

/-- A manual modification of a drive whose records agree is applied, up to its last step. -/
def untilManuallyApplied : List DriveEvent :=
  [.loaded
    { fsTree := .mk "/" .nil
      rootHash := 7
      lastApprovedModification := 50
      singleTx := none
      opinionController :=
        { clientKey := 101
          approvedExpectedCumulativeDownload := 0
          approvedCumulativeUploads := { modificationId := 50 } } },
    .advance, .advance, .advance] ++
    [.initiateManualModifications ⟨70⟩, .manual .queryStarted,
      .manual (.storageHashEvaluated (.mk "/" .nil) 9), .manual .queryFinished,
      .manual (.applyStorageModifications true), .manual .advanceApplying,
      .manual .advanceApplying, .manual .advanceApplying, .manual .advanceApplying]

/-- The manual modification is the last approved one, while the approved uploads are those of
    the modification before it. -/
theorem manual_modification_is_not_recorded :
    flatDriveSystem.Reaches
      (fun flatDrive => ¬ flatDrive.RecordsCompletion (.manual .advanceApplying))
      sampleFlatDrive untilManuallyApplied := by
  decide +kernel

end FlatDrive

end SiriusDrive
