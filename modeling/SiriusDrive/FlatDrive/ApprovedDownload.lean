import SiriusDrive.AppliedVersion
import SiriusDrive.FlatDrive.LedgerEvents

/-! # The expected download

Whenever no approval is being processed, a drive expects what it did at first and the
limits of everything that has been approved since. An approval that comes between the
approval of the uploads and the end of their task is counted twice, and one that is lost is
not counted at all; without such an approval the drive agrees with its ledger along every
run.
-/

namespace SiriusDrive

open FlatDrive (flatDriveSystem)

/-- What is approved was requested, and is neither cancelled nor approved before. Requests
    have hashes of their own. -/
def ApprovalLedger.Admits (ledger : ApprovalLedger) : DriveEvent → Prop
  | .startModifyDrive request => request.transactionHash ∉ ledger.known
  | .startStream request => request.streamId ∉ ledger.known
  | .cancelModifyDrive request => request.modifyTransactionHash ∈ ledger.pendingHashes
  | .approvalTransactionPublished transaction =>
      transaction.modifyTransactionHash ∈ ledger.pendingHashes
  | _ => True

instance (ledger : ApprovalLedger) : ∀ event, Decidable (ledger.Admits event)
  | .startModifyDrive _ | .startStream _ => inferInstanceAs (Decidable (_ ∉ _))
  | .cancelModifyDrive _ | .approvalTransactionPublished _ => inferInstanceAs (Decidable (_ ∈ _))
  | .task _ | .loaded _ | .advance | .manual _ | .opinionReceived _ | .approvalTransactionFailed _
  | .startDriveClosing _ | .manualSynchronize _ | .initiateManualModifications _
  | .chunkInfoReceived .. | .finishStream _ | .setReplicators _ | .setShardDonator _
  | .setMinReplicatorsNumber _ | .terminate => inferInstanceAs (Decidable True)

def ledgerSystem : Transition (FlatDrive × ApprovalLedger) DriveEvent where
  step state event :=
    (flatDriveSystem.step state.1 event).map fun flatDrive => (flatDrive, state.2.record event)

namespace FlatDrive

variable {flatDrive after : FlatDrive} {ledger : ApprovalLedger} {event : DriveEvent}

/-- The running update may be interrupted: it has not received an approval it still has to
    apply. -/
def MayInterrupt (flatDrive : FlatDrive) : Prop :=
  ∀ view ∈ flatDrive.update?, view.received = true → view.base.IsEnding

/-- No approval is lost and none is counted twice: none comes for a task that drops
    approvals or has approved its uploads, nothing from outside interrupts a task that applies
    one, the file system does not fail for it, and a manual synchronization makes the drive
    forget neither an approval nor a request. -/
def CountsApprovals (flatDrive : FlatDrive) : DriveEvent → Prop
  | .task event => ∀ view ∈ flatDrive.update?,
      (view.base.CountsUploads event →
        view.opinionController.TrafficFits view.base.drive.modifyTrafficMap
          view.base.drive.modifyDonatorShard ∧
        (view.received = true → 0 < view.purpose.size → ¬ view.IsApproved)) ∧
      (view.base.FailsSynchronizing event → view.purpose.isRequest = true → view.base.IsEnding)
  | .loaded loaded => loaded.opinionController.approvedExpectedCumulativeDownload = flatDrive.expected
  | .approvalTransactionPublished _ =>
      flatDrive.task.any (·.dropsApprovals) = false ∧ flatDrive.TakesApproval ∧
        (flatDrive.IsGoing ∨ flatDrive.NoneRuns)
  | .cancelModifyDrive _ => flatDrive.IsGoing ∨ flatDrive.NoneRuns
  | .startDriveClosing _ | .terminate => flatDrive.MayInterrupt
  | .manualSynchronize _ =>
      flatDrive.catchingUpRequest = none ∧ flatDrive.MayInterrupt ∧
        ∀ view ∈ flatDrive.update?, ¬ view.IsWaiting
  | _ => True

/-- An approval is being processed: the drive has to catch up with it, or the running task
    applies it. -/
def IsProcessing (flatDrive : FlatDrive) : Prop :=
  flatDrive.catchingUpRequest.isSome = true ∨ ∃ view ∈ flatDrive.update?, view.received = true

instance (flatDrive : FlatDrive) : Decidable flatDrive.IsGoing :=
  decidable_of_iff
    (flatDrive.closeDriveRequest = none ∧ flatDrive.task.any (·.isClosure) = false ∧
      flatDrive.drive.replicatorIsStopped = false ∧ flatDrive.movedRequestIsRead = false)
    ⟨fun ⟨notClosing, notClosed, notStopped, notBroken⟩ =>
      ⟨notClosing, notClosed, notStopped, notBroken⟩,
      fun going => ⟨going.notClosing, going.notClosed, going.notStopped, going.notBroken⟩⟩

instance (flatDrive : FlatDrive) : Decidable flatDrive.MayInterrupt :=
  inferInstanceAs (Decidable (∀ _ ∈ flatDrive.update?, _))

instance (flatDrive : FlatDrive) : Decidable flatDrive.TakesApproval :=
  inferInstanceAs (Decidable (∀ _ ∈ flatDrive.update?, _))

instance (flatDrive : FlatDrive) : Decidable flatDrive.NoneRuns :=
  inferInstanceAs (Decidable (∀ _ ∈ flatDrive.update?, _))

instance (flatDrive : FlatDrive) : ∀ event, Decidable (flatDrive.CountsApprovals event)
  | .task _ => inferInstanceAs (Decidable (∀ _ ∈ flatDrive.update?, _))
  | .loaded _ => inferInstanceAs (Decidable (_ = _))
  | .approvalTransactionPublished _ => inferInstanceAs (Decidable (_ ∧ _ ∧ (_ ∨ _)))
  | .cancelModifyDrive _ => inferInstanceAs (Decidable (_ ∨ _))
  | .startDriveClosing _ | .terminate => inferInstanceAs (Decidable flatDrive.MayInterrupt)
  | .manualSynchronize _ =>
      inferInstanceAs (Decidable (_ = _ ∧ flatDrive.MayInterrupt ∧ ∀ _ ∈ flatDrive.update?, _))
  | .advance | .manual _ | .opinionReceived _ | .approvalTransactionFailed _
  | .startModifyDrive _ | .startStream _ | .initiateManualModifications _
  | .chunkInfoReceived .. | .finishStream _ | .setReplicators _ | .setShardDonator _
  | .setMinReplicatorsNumber _ => inferInstanceAs (Decidable True)

instance (flatDrive : FlatDrive) : Decidable flatDrive.IsProcessing :=
  inferInstanceAs (Decidable (_ ∨ ∃ view ∈ _, _))

def Agrees (flatDrive : FlatDrive) (ledger : ApprovalLedger) : Prop :=
  flatDrive.IsGivenUp ∨ flatDrive.LedgerInvariant ledger

/-- What is expected is what has been approved, whenever no approval is being processed. -/
theorem Agrees.expected_eq (agrees : flatDrive.Agrees ledger) (done : ¬ flatDrive.IsProcessing) :
    flatDrive.expected = ledger.total := by
  obtain ⟨notAsked, unreceived⟩ := not_or.mp done
  have caughtUp : flatDrive.catchingUpRequest = none := by simpa using notAsked
  have nothingDue : flatDrive.dueRequests = [] := by rw [dueRequests, caughtUp]
  rcases agrees with givenUp | invariant
  · exact absurd givenUp.owing notAsked
  · cases isUpdate : flatDrive.update? with
    | none =>
        have sum := invariant.other isUpdate
        rw [nothingDue] at sum
        exact sum
    | some view =>
        have accounts := invariant.running view isUpdate
        rw [nothingDue] at accounts
        rw [expected_of_update isUpdate]
        refine accounts.expected_eq ?_
        by_contra received
        exact unreceived ⟨view, isUpdate, by simpa using received⟩

/-! ## The steps of a drive that is over -/

theorem stopped_terminate : flatDrive.terminate.drive.replicatorIsStopped = true := by
  cases isTask : flatDrive.task with
  | none =>
      have isIdle : flatDrive.terminate.task = none := by rw [terminate, isTask]; rfl
      rw [drive_of_idle isIdle]
      rfl
  | some task =>
      have isNext : flatDrive.terminate.task = some task.terminate := by
        rw [terminate, isTask]
        rfl
      rw [drive_of_task isNext]
      rcases task.terminate_cases with ⟨view, later, -, isLater, terminates⟩ | ⟨-, -, -, stopped, -⟩
      · rw [DriveTask.drive_of_update isLater]
        exact terminates.stopped
      · exact stopped

theorem not_isGoing_terminate : ¬ flatDrive.terminate.IsGoing := by
  intro going
  have notStopped := going.notStopped
  simp [stopped_terminate] at notStopped

theorem IsGivenUp.map_task (givenUp : flatDrive.IsGivenUp) {f : DriveTask → DriveTask}
    (keeps : ∀ task : DriveTask, task.Keeps (f task)) (isTask : after.task = flatDrive.task.map f)
    (catchingUp : after.catchingUpRequest = flatDrive.catchingUpRequest)
    (idle : after.idleDrive.replicatorIsStopped = flatDrive.idleDrive.replicatorIsStopped)
    (closing : after.closeDriveRequest = flatDrive.closeDriveRequest)
    (broken : after.movedRequestIsRead = flatDrive.movedRequestIsRead) : after.IsGivenUp := by
  refine givenUp.keep catchingUp (isGoing_of_map keeps isTask ?_ (fun none => closing ▸ none)
    fun none => broken ▸ none)
  intro isIdle
  have isIdleLater : after.task = none := by rw [isTask, isIdle, Option.map_none]
  rw [drive_of_idle isIdle, drive_of_idle isIdleLater]
  exact idle

theorem IsGivenUp.mapDrive (givenUp : flatDrive.IsGivenUp) {f : DriveParams → DriveParams}
    (opinionController : ∀ drive, (f drive).opinionController = drive.opinionController)
    (stopped : ∀ drive, (f drive).replicatorIsStopped = drive.replicatorIsStopped) :
    (flatDrive.mapDrive f).IsGivenUp :=
  givenUp.map_task (fun task => task.keeps_mapDrive opinionController stopped) rfl rfl (stopped _) rfl
    rfl

theorem isOpenTask_of_task {task : DriveTask} (isTask : flatDrive.task = some task)
    (notClosure : task.isClosure = false) : flatDrive.IsOpenTask := by
  intro other isOther
  obtain rfl := Option.some.inj (isTask.symm.trans isOther)
  exact notClosure

theorem IsGivenUp.onOpinionReceived (givenUp : flatDrive.IsGivenUp)
    (anOpinion : ApprovalTransactionInfo) : (flatDrive.onOpinionReceived anOpinion).IsGivenUp := by
  have keeps (task : DriveTask) := task.keeps_processedModifyOpinion anOpinion
  cases isTask : flatDrive.task with
  | none =>
      simp only [FlatDrive.onOpinionReceived, isTask]
      exact givenUp.map_task keeps (by simp [isTask]) rfl rfl rfl rfl
  | some task =>
      simp only [FlatDrive.onOpinionReceived, isTask]
      split
      · exact givenUp.map_task keeps (by simp [isTask]) rfl rfl rfl rfl
      · exact givenUp.map_task keeps (by simp [isTask]) rfl rfl rfl rfl

theorem IsGivenUp.taskStep (givenUp : flatDrive.IsGivenUp)
    (unbroken : flatDrive.movedRequestIsRead = false) {task : DriveTask} {event : TaskEvent}
    (isTask : flatDrive.task = some task) (isInternal : event.isInternal = true)
    (step : flatDrive.taskStep event task = some after) : after.IsGivenUp := by
  obtain ⟨view, isView, ⟨-, -, rfl⟩ | ⟨next, later, rfl, isLater, steps⟩⟩ := taskStep_cases isInternal step
  · exact givenUp.runNextTask (isOpenTask_of_task isTask (DriveTask.isClosure_of_update isView))
      unbroken
  · exact givenUp.keep rfl
      (isGoing_of_update isTask rfl isView isLater steps.stopped (fun none => none) fun none => none)

theorem IsGivenUp.of_cases (givenUp : flatDrive.IsGivenUp)
    (unbroken : flatDrive.movedRequestIsRead = false) {task : DriveTask}
    (isTask : flatDrive.task = some task)
    (cases : (task.update? = none ∧ task.isClosure = false ∧ after = flatDrive.runNextTask) ∨
      ∃ next, after.task = some next ∧ task.Keeps next ∧ SameRequests flatDrive after ∧
        after.closeDriveRequest = flatDrive.closeDriveRequest) : after.IsGivenUp := by
  rcases cases with ⟨-, notClosure, rfl⟩ | ⟨next, isNext, keeps, same, closing⟩
  · exact givenUp.runNextTask (isOpenTask_of_task isTask notClosure) unbroken
  · exact givenUp.keep same.catchingUp
      (isGoing_of_keeps isTask isNext keeps (fun none => closing ▸ none) fun _ => unbroken)

theorem IsGivenUp.step (givenUp : flatDrive.IsGivenUp) (counts : flatDrive.CountsApprovals event)
    (step : flatDriveSystem.step flatDrive event = some after) : after.IsGivenUp := by
  unfold flatDriveSystem at step
  simp only at step
  split at step
  · simp at step
  rename_i goesOn
  have unbroken : flatDrive.movedRequestIsRead = false := by
    by_contra broken
    exact goesOn (by simp [isBroken, broken])
  cases event with
  | task event =>
      unfold handle at step
      simp only at step
      split at step
      · rename_i isInternal
        obtain ⟨task, isTask, stepped⟩ := Option.bind_eq_some_iff.mp step
        exact givenUp.taskStep unbroken isTask isInternal stepped
      · simp at step
  | loaded loaded =>
      unfold handle at step
      simp only at step
      split at step
      · rename_i task isTask
        split at step
        · obtain rfl := Option.some.inj step
          exact givenUp.keep rfl (isGoing_of_same isTask rfl rfl
            (InitializeDriveTask.uploads_initializeDrive task loaded).2 (fun none => none)
            fun none => none)
        · simp at step
      · simp at step
  | advance =>
      obtain ⟨task, isTask, stepped⟩ := Option.bind_eq_some_iff.mp step
      exact givenUp.of_cases unbroken isTask (advance_cases isTask stepped)
  | manual event =>
      obtain ⟨task, isTask, stepped⟩ := Option.bind_eq_some_iff.mp step
      exact givenUp.of_cases unbroken isTask (manual_cases stepped)
  | opinionReceived anOpinion =>
      obtain rfl := Option.some.inj step
      exact givenUp.onOpinionReceived anOpinion
  | approvalTransactionPublished transaction =>
      obtain rfl := Option.some.inj step
      exact isGivenUp_of_published givenUp.isOver unbroken fun _ _ _ => givenUp.owing
  | approvalTransactionFailed transactionHash =>
      obtain rfl := Option.some.inj step
      exact givenUp.map_task (fun task => task.keeps_onApprovalTxFailed transactionHash) rfl rfl rfl
        rfl rfl
  | startModifyDrive | startStream | initiateManualModifications =>
      obtain rfl := Option.some.inj step
      refine IsGivenUp.runNextTaskIfIdle ?_ unbroken
      exact givenUp.map_task (fun task => task.keeps_onRequestQueued) rfl rfl rfl rfl rfl
  | cancelModifyDrive request =>
      obtain rfl := Option.some.inj step
      exact givenUp.cancelModifyDrive unbroken request
  | startDriveClosing request =>
      obtain rfl := Option.some.inj step
      refine IsGivenUp.runNextTaskIfIdle ⟨?_, givenUp.owing⟩ unbroken
      intro going
      exact absurd going.notClosing (by simp)
  | manualSynchronize request =>
      have caughtUp : flatDrive.catchingUpRequest = none := counts.1
      have owing := givenUp.owing
      simp [caughtUp] at owing
  | chunkInfoReceived chunkInfo isVerified =>
      obtain rfl := Option.some.inj step
      exact givenUp.map_task (fun task => task.keeps_streamEvent _ rfl) rfl rfl rfl rfl rfl
  | finishStream finishStream =>
      obtain rfl := Option.some.inj step
      exact givenUp.map_task (fun task => task.keeps_streamEvent _ rfl) rfl rfl rfl rfl rfl
  | setReplicators | setShardDonator | setMinReplicatorsNumber =>
      obtain rfl := Option.some.inj step
      exact givenUp.mapDrive (fun _ => rfl) fun _ => rfl
  | terminate =>
      obtain rfl := Option.some.inj step
      exact ⟨not_isGoing_terminate, givenUp.owing⟩

/-! ## The steps of a drive that agrees with its ledger -/

theorem LedgerInvariant.message (invariant : flatDrive.LedgerInvariant ledger)
    {f : DriveTask → DriveTask} (keeps : ∀ task : DriveTask, task.Keeps (f task)) :
    LedgerInvariant { flatDrive with task := flatDrive.task.map f } ledger := by
  refine invariant.map_task keeps rfl ⟨rfl, rfl⟩ ?_ (fun none => none) fun none => none
  intro isIdle
  rw [isIdle, Option.map_none, expected, expected, drive_of_idle isIdle]
  exact ⟨rfl, rfl⟩

theorem LedgerInvariant.mapDrive (invariant : flatDrive.LedgerInvariant ledger)
    {f : DriveParams → DriveParams}
    (opinionController : ∀ drive, (f drive).opinionController = drive.opinionController)
    (stopped : ∀ drive, (f drive).replicatorIsStopped = drive.replicatorIsStopped) :
    (flatDrive.mapDrive f).LedgerInvariant ledger := by
  refine invariant.map_task (fun task => task.keeps_mapDrive opinionController stopped) rfl
    ⟨rfl, rfl⟩ ?_ (fun none => none) fun none => none
  intro isIdle
  have isIdleLater : (flatDrive.mapDrive f).task = none := by
    rw [FlatDrive.mapDrive, isIdle]
    rfl
  rw [expected, expected, drive_of_idle isIdle, drive_of_idle isIdleLater]
  exact ⟨congrArg _ (opinionController _), stopped _⟩

theorem LedgerInvariant.onOpinionReceived (invariant : flatDrive.LedgerInvariant ledger)
    (anOpinion : ApprovalTransactionInfo) :
    (flatDrive.onOpinionReceived anOpinion).LedgerInvariant ledger := by
  have keeps (task : DriveTask) := task.keeps_processedModifyOpinion anOpinion
  cases isTask : flatDrive.task with
  | none =>
      simp only [FlatDrive.onOpinionReceived, isTask]
      refine invariant.map_task keeps (by simp [isTask]) ⟨rfl, rfl⟩ ?_ (fun none => none) fun none => none
      intro isIdle
      rw [expected, expected, drive_of_idle isIdle]
      exact ⟨rfl, rfl⟩
  | some task =>
      simp only [FlatDrive.onOpinionReceived, isTask]
      split
      · exact invariant.keeps ⟨rfl, rfl⟩ isTask rfl (keeps task) (fun none => none) fun none => none
      · exact invariant.keeps ⟨rfl, rfl⟩ isTask rfl (keeps task) (fun none => none) fun none => none

theorem LedgerInvariant.taskStep (invariant : flatDrive.LedgerInvariant ledger) {task : DriveTask}
    {event : TaskEvent} (isTask : flatDrive.task = some task) (isInternal : event.isInternal = true)
    (counts : flatDrive.CountsApprovals (.task event)) (fits : flatDrive.Fits (.task event))
    (step : flatDrive.taskStep event task = some after) : after.LedgerInvariant ledger := by
  obtain ⟨view, isView, ⟨isHead, -, rfl⟩ | ⟨next, later, rfl, isLater, steps⟩⟩ :=
    taskStep_cases isInternal step
  · have isUpdate : flatDrive.update? = some view := (update?_of_task isTask).trans isView
    refine invariant.runNextTask
      (isOpenTask_of_task isTask (DriveTask.isClosure_of_update isView)) ?_ fits.deferred
    intro other isOther
    obtain rfl := Option.some.inj (isUpdate.symm.trans isOther)
    exact isEnding_of_head isHead
  · have isUpdate : flatDrive.update? = some view := (update?_of_task isTask).trans isView
    obtain ⟨mayCount, mayFail⟩ := counts view isUpdate
    have accounts := (invariant.running view isUpdate).steps steps mayCount mayFail
      (fits.update isTask isView)
    have isNext : FlatDrive.task { flatDrive with task := some next } = some next := rfl
    have isLaterUpdate := (update?_of_task isNext).trans isLater
    refine invariant.of_update ⟨rfl, rfl⟩ isUpdate isLaterUpdate steps.purpose ?_ accounts ?_
    · intro running
      rw [UpdateView.IsRunning, ← steps.interrupted]
      exact running
    · intro going
      exact ⟨isGoing_of_update isTask isNext isView isLater steps.stopped (fun none => none)
        (fun none => none) going,
        UpdateView.isWaiting_iff steps.interrupted steps.purpose steps.received⟩

theorem LedgerInvariant.of_cases (invariant : flatDrive.LedgerInvariant ledger)
    (unbroken : flatDrive.movedRequestIsRead = false) {task : DriveTask}
    (isTask : flatDrive.task = some task) (fits : flatDrive.Fits event)
    (cases : (task.update? = none ∧ task.isClosure = false ∧ after = flatDrive.runNextTask) ∨
      ∃ next, after.task = some next ∧ task.Keeps next ∧ SameRequests flatDrive after ∧
        after.closeDriveRequest = flatDrive.closeDriveRequest) : after.LedgerInvariant ledger := by
  rcases cases with ⟨noUpdate, notClosure, rfl⟩ | ⟨next, isNext, keeps, same, closing⟩
  · refine invariant.runNextTask (isOpenTask_of_task isTask notClosure) ?_ ?_
    · intro view isView
      rw [update?_of_task isTask, noUpdate] at isView
      simp at isView
    · have deferred := fits.deferred
      rw [expected]
      omega
  · exact invariant.keeps same isTask isNext keeps (fun none => closing ▸ none) fun _ => unbroken

theorem LedgerInvariant.startDriveClosing (invariant : flatDrive.LedgerInvariant ledger)
    {request : DriveClosureRequest} (fits : flatDrive.Fits (.startDriveClosing request))
    (mayInterrupt : flatDrive.MayInterrupt) :
    (flatDrive.startDriveClosing request).LedgerInvariant ledger := by
  unfold FlatDrive.startDriveClosing
  refine LedgerInvariant.runNextTaskIfIdle ?_ ?_
  · cases isTask : flatDrive.task with
    | none =>
        refine invariant.map_task .refl (f := id) (by simp [isTask]) ⟨rfl, rfl⟩ ?_ (by simp)
          fun none => none
        intro isIdle
        rw [expected, expected, drive_of_idle isIdle]
        exact ⟨rfl, rfl⟩
    | some task =>
        have closes (going : FlatDrive.IsGoing
            { flatDrive with
              task := some task.onDriveClose
              closeDriveRequest := some request }) : False := by
          simpa using going.notClosing
        cases task.responds_onDriveClose with
        | keeps keeps =>
            exact invariant.keeps ⟨rfl, rfl⟩ isTask rfl keeps (by simp) fun none => none
        | interrupts isBefore isAfter interrupts =>
            have isUpdate := (update?_of_task isTask).trans isBefore
            refine invariant.ends ⟨rfl, rfl⟩ isUpdate isAfter interrupts ?_ ?_
            · exact fun _ => mayInterrupt _ isUpdate
            · exact fun going => (closes going).elim
  · intro isIdle
    rw [Option.map_eq_none_iff] at isIdle
    exact fits.idle isIdle

theorem LedgerInvariant.manualSynchronize (invariant : flatDrive.LedgerInvariant ledger)
    {request : SynchronizationRequest} (fits : flatDrive.Fits (.manualSynchronize request))
    (caughtUp : flatDrive.catchingUpRequest = none) (mayInterrupt : flatDrive.MayInterrupt)
    (noneWaits : ∀ view ∈ flatDrive.update?, ¬ view.IsWaiting) :
    (flatDrive.manualSynchronize request).LedgerInvariant ledger := by
  cases isTask : flatDrive.task with
  | none =>
      simp only [FlatDrive.manualSynchronize, isTask, if_true]
      refine LedgerInvariant.runNextTaskIfIdle ?_ fun _ => fits.idle isTask
      refine invariant.map_task .refl (f := id) (by simp [isTask]) ⟨rfl, caughtUp.symm⟩ ?_
        (fun none => none) fun none => none
      intro isIdle
      rw [expected, expected, drive_of_idle isIdle]
      exact ⟨rfl, rfl⟩
  | some task =>
      have responds {after : FlatDrive} (isNext : after.task = some task.manualSynchronize.1)
          (same : SameRequests flatDrive after)
          (closing : after.closeDriveRequest = flatDrive.closeDriveRequest)
          (broken : after.movedRequestIsRead = flatDrive.movedRequestIsRead) :
          after.LedgerInvariant ledger := by
        cases task.responds_manualSynchronize with
        | keeps keeps =>
            exact invariant.keeps same isTask isNext keeps (fun none => closing ▸ none)
              fun none => broken ▸ none
        | interrupts isBefore isAfter interrupts =>
            have isUpdate := (update?_of_task isTask).trans isBefore
            have isLater := (update?_of_task isNext).trans isAfter
            refine invariant.ends same isUpdate isLater interrupts (fun _ => mayInterrupt _ isUpdate) ?_
            intro going
            exact ⟨isGoing_of_update isTask isNext isBefore isAfter interrupts.base.stopped
              (fun none => closing ▸ none) (fun none => broken ▸ none) going, noneWaits _ isUpdate⟩
      simp only [FlatDrive.manualSynchronize, isTask]
      split
      · exact responds rfl ⟨rfl, caughtUp.symm⟩ rfl rfl
      · exact responds rfl ⟨rfl, rfl⟩ rfl rfl

theorem LedgerInvariant.terminate (invariant : flatDrive.LedgerInvariant ledger)
    (mayInterrupt : flatDrive.MayInterrupt) : flatDrive.terminate.LedgerInvariant ledger := by
  have stopped (going : flatDrive.terminate.IsGoing) : flatDrive.IsGoing :=
    absurd going not_isGoing_terminate
  cases isTask : flatDrive.task with
  | none =>
      have isIdle : flatDrive.terminate.task = none := by
        rw [FlatDrive.terminate, isTask]
        rfl
      refine invariant.of_none ⟨rfl, rfl⟩ (by rw [update?, isTask, Option.bind_none])
        (by rw [update?, isIdle, Option.bind_none]) ?_ stopped
      rw [expected, expected, drive_of_idle isTask, drive_of_idle isIdle]
      rfl
  | some task =>
      have isNext : flatDrive.terminate.task = some task.terminate := by
        rw [FlatDrive.terminate, isTask]
        rfl
      rcases task.terminate_cases with
        ⟨view, later, isView, isLater, terminates⟩ | ⟨noUpdate, stillNone, same, -, -⟩
      · have isUpdate := (update?_of_task isTask).trans isView
        refine invariant.of_update ⟨rfl, rfl⟩ isUpdate ((update?_of_task isNext).trans isLater)
          terminates.purpose ?_ ((invariant.running view isUpdate).terminates terminates
            fun _ => mayInterrupt view isUpdate) ?_
        · intro running
          simp [UpdateView.IsRunning, terminates.interrupted] at running
        · exact fun going => absurd going not_isGoing_terminate
      · refine invariant.of_none ⟨rfl, rfl⟩ ((update?_of_task isTask).trans noUpdate)
          ((update?_of_task isNext).trans stillNone) ?_ stopped
        rw [expected, expected, drive_of_task isTask, drive_of_task isNext, same]

/-- A drive that agrees with its ledger agrees after each step that counts every approval. -/
theorem Agrees.step (agrees : flatDrive.Agrees ledger) (fits : flatDrive.Fits event)
    (admits : ledger.Admits event) (counts : flatDrive.CountsApprovals event)
    (step : flatDriveSystem.step flatDrive event = some after) :
    after.Agrees (ledger.record event) := by
  by_cases givenUp : flatDrive.IsGivenUp
  · exact .inl (givenUp.step counts step)
  have invariant := agrees.resolve_left givenUp
  have owes : flatDrive.IsGoing ∨ flatDrive.catchingUpRequest = none := by
    by_cases going : flatDrive.IsGoing
    · exact .inl going
    · right
      by_contra owing
      exact givenUp ⟨going, Option.isSome_iff_ne_none.mpr owing⟩
  unfold flatDriveSystem at step
  simp only at step
  split at step
  · simp at step
  rename_i goesOn
  have unbroken : flatDrive.movedRequestIsRead = false := by
    by_contra broken
    exact goesOn (by simp [isBroken, broken])
  cases event with
  | task event =>
      right
      unfold handle at step
      simp only at step
      split at step
      · rename_i isInternal
        obtain ⟨task, isTask, stepped⟩ := Option.bind_eq_some_iff.mp step
        exact invariant.taskStep isTask isInternal counts fits stepped
      · simp at step
  | loaded loaded =>
      right
      unfold handle at step
      simp only at step
      split at step
      · rename_i task isTask
        split at step
        · obtain rfl := Option.some.inj step
          obtain ⟨sameController, stopped⟩ := task.uploads_initializeDrive loaded
          refine invariant.of_none ⟨rfl, rfl⟩ (update?_of_task isTask) rfl ?_
            (isGoing_of_same isTask rfl rfl stopped (fun none => none) fun none => none)
          rw [← counts, ← sameController]
          rfl
        · simp at step
      · simp at step
  | advance =>
      obtain ⟨task, isTask, stepped⟩ := Option.bind_eq_some_iff.mp step
      exact .inr (invariant.of_cases unbroken isTask fits (advance_cases isTask stepped))
  | manual event =>
      obtain ⟨task, isTask, stepped⟩ := Option.bind_eq_some_iff.mp step
      exact .inr (invariant.of_cases unbroken isTask fits (manual_cases stepped))
  | opinionReceived anOpinion =>
      obtain rfl := Option.some.inj step
      exact .inr (invariant.onOpinionReceived anOpinion)
  | approvalTransactionPublished transaction =>
      obtain rfl := Option.some.inj step
      obtain ⟨keeps, takes, rests⟩ := counts
      exact invariant.published unbroken admits keeps takes rests fits
  | approvalTransactionFailed transactionHash =>
      obtain rfl := Option.some.inj step
      exact .inr (invariant.message fun task => task.keeps_onApprovalTxFailed transactionHash)
  | startModifyDrive request =>
      obtain rfl := Option.some.inj step
      have isNew : (DeferredRequest.modification request).transactionHash ∉ ledger.known := admits
      refine .inr ((invariant.append isNew).queue rfl ⟨rfl, rfl⟩ rfl rfl rfl ?_)
      intro isIdle
      rw [requestedSize_append, ← Nat.add_assoc]
      exact fits.idle isIdle
  | startStream request =>
      obtain rfl := Option.some.inj step
      have isNew : (DeferredRequest.stream request).transactionHash ∉ ledger.known := admits
      refine .inr ((invariant.append isNew).queue rfl ⟨rfl, rfl⟩ rfl rfl rfl ?_)
      intro isIdle
      rw [requestedSize_append, ← Nat.add_assoc]
      exact fits.idle isIdle
  | initiateManualModifications request =>
      obtain rfl := Option.some.inj step
      exact .inr (invariant.queue rfl ⟨rfl, rfl⟩ rfl rfl rfl fits.idle)
  | cancelModifyDrive request =>
      obtain rfl := Option.some.inj step
      exact .inr (invariant.cancelModifyDrive unbroken admits owes counts)
  | startDriveClosing request =>
      obtain rfl := Option.some.inj step
      exact .inr (invariant.startDriveClosing fits counts)
  | manualSynchronize request =>
      obtain rfl := Option.some.inj step
      obtain ⟨caughtUp, mayInterrupt, noneWaits⟩ := counts
      exact .inr (invariant.manualSynchronize fits caughtUp mayInterrupt noneWaits)
  | chunkInfoReceived chunkInfo isVerified =>
      obtain rfl := Option.some.inj step
      exact .inr (invariant.message fun task => task.keeps_streamEvent _ rfl)
  | finishStream finishStream =>
      obtain rfl := Option.some.inj step
      exact .inr (invariant.message fun task => task.keeps_streamEvent _ rfl)
  | setReplicators | setShardDonator | setMinReplicatorsNumber =>
      obtain rfl := Option.some.inj step
      exact .inr (invariant.mapDrive (fun _ => rfl) fun _ => rfl)
  | terminate =>
      obtain rfl := Option.some.inj step
      exact .inr (invariant.terminate counts)

/-! ## Every run -/

theorem agrees_create (drive : DriveParams) (completedModifications : List CompletedModification)
    (actionListFiles : InfoHash → Option ActionListFile) :
    (create drive completedModifications actionListFiles).Agrees
      { initial := drive.opinionController.approvedExpectedCumulativeDownload } := by
  right
  refine ⟨?_, fun _ => rfl, fun _ => rfl, List.nodup_nil, ?_, ?_, ?_, ?_⟩
  · intro view isView
    simp [create, update?, DriveTask.update?] at isView
  · intro view isView
    simp [create, update?, DriveTask.update?] at isView
  · intro hash member
    simp [deferredHashes, create] at member
  · intro request isTarget
    simp [create] at isTarget
  · intro view isView
    simp [create, update?, DriveTask.update?] at isView

/-- In every run whose steps count every approval once, what is expected is the initial value
    and the sum of all limits that have been approved, whenever no approval is being
    processed. -/
theorem expected_is_approved (drive : DriveParams)
    (completedModifications : List CompletedModification)
    (actionListFiles : InfoHash → Option ActionListFile) {events : List DriveEvent}
    (meets : ledgerSystem.Meets
      (fun state event =>
        state.1.Fits event ∧ state.2.Admits event ∧ state.1.CountsApprovals event)
      (create drive completedModifications actionListFiles,
        { initial := drive.opinionController.approvedExpectedCumulativeDownload }) events) :
    ledgerSystem.Always
      (fun state => ¬ state.1.IsProcessing → state.1.expected = state.2.total)
      (create drive completedModifications actionListFiles,
        { initial := drive.opinionController.approvedExpectedCumulativeDownload }) events := by
  have start := agrees_create drive completedModifications actionListFiles
  refine Transition.Always.of_invariant (I := fun state => state.1.Agrees state.2) ?_ ?_ start meets
  · intro state agrees done
    exact agrees.expected_eq done
  · intro state event later agrees condition step
    obtain ⟨fits, admits, counts⟩ := condition
    obtain ⟨flatDrive, stepped, rfl⟩ := Option.map_eq_some_iff.mp step
    exact agrees.step fits admits counts stepped

/-! ## Sample runs -/

/-- A modification that is requested while the one of the sample is running. -/
def nextRequest : ModificationRequest where
  clientDataInfoHash := 20
  transactionHash := 61
  maxDataSize := 20

def sampleLedgerState : FlatDrive × ApprovalLedger := (sampleExpectingDrive, { initial := 10 })

/-- The approval of the sample is published and its uploads are approved. -/
def untilApprovedUploads : List DriveEvent :=
  untilCountedUploads ++
    [.startModifyDrive nextRequest, .approvalTransactionPublished ownApproval,
      .task (.torrentsRemoved 0), .task (.runBackgroundJob (.fileSystem .done)),
      .task .runSessionJob]

/-- The end of a task whose uploads are approved. -/
def untilNextTask : List DriveEvent :=
  [.task (.runBackgroundJob (.fileSystem .done)), .task .runSessionJob, .task (.torrentsRemoved 0),
    .task (.runBackgroundJob (.fileSystem .done)), .task .runSessionJob]

/-- The next modification is approved while its task has just started, and is skipped. -/
def untilSkipped : List DriveEvent :=
  untilApprovedUploads ++ untilNextTask ++
    [.approvalTransactionPublished sampleApproval, .task (.torrentsRemoved 0),
      .task (.runBackgroundJob (.fileSystem .done)), .task .runSessionJob]

theorem expected_is_approved_sample :
    ledgerSystem.Reaches (fun state => ¬ state.1.IsProcessing ∧ state.1.expected = 40)
      sampleLedgerState untilSkipped ∧
    ledgerSystem.Always
      (fun state => ¬ state.1.IsProcessing → state.1.expected = state.2.total)
      sampleLedgerState untilSkipped :=
  ⟨by decide +kernel, expected_is_approved _ _ _ (by decide +kernel)⟩

/-- The approval of the next modification comes between the approval of the uploads and the
    end of their task: ten bytes are counted twice. -/
theorem expected_is_counted_twice :
    ledgerSystem.Meets (fun state event => state.1.Fits event ∧ state.2.Admits event)
      sampleLedgerState
      (untilApprovedUploads ++ .approvalTransactionPublished sampleApproval :: untilNextTask) ∧
    ledgerSystem.Reaches
      (fun state => ¬ state.1.IsProcessing ∧ state.1.expected = 50 ∧ state.2.total = 40)
      sampleLedgerState
      (untilApprovedUploads ++ .approvalTransactionPublished sampleApproval :: untilNextTask) := by
  decide +kernel

end FlatDrive

end SiriusDrive
