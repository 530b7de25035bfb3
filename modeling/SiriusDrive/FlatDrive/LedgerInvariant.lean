import SiriusDrive.FlatDrive.ApprovalLedger

/-! # A drive and its ledger

Everything that has been approved is expected already, is counted by the running
update, or is what the drive catches up with next; what is not approved waits in the
queue. The choice of the next task and new requests keep it so.
-/

namespace SiriusDrive

open ModifyOpinionController (approvedExpected_increase)

/-! ## The drive -/

namespace FlatDrive

def expected (flatDrive : FlatDrive) : Nat :=
  flatDrive.drive.opinionController.approvedExpectedCumulativeDownload

/-- The deferred requests the drive skips when it catches up. -/
def dueRequests (flatDrive : FlatDrive) : List DeferredRequest :=
  match flatDrive.catchingUpRequest with
  | some request =>
      flatDrive.deferredModificationRequests.upTo DeferredRequest.transactionHash request.modifyTransactionHash
  | none => []

def openRequests (flatDrive : FlatDrive) : List DeferredRequest :=
  match flatDrive.catchingUpRequest with
  | some request =>
      flatDrive.deferredModificationRequests.past DeferredRequest.transactionHash request.modifyTransactionHash
  | none => flatDrive.deferredModificationRequests

/-- The request of the running update, as long as it is not approved. -/
def waitingRequest (flatDrive : FlatDrive) : List DeferredRequest :=
  match flatDrive.update? with
  | some view => if view.IsWaiting then view.purpose.requests else []
  | none => []

def deferredHashes (flatDrive : FlatDrive) : List Hash256 :=
  flatDrive.deferredModificationRequests.map (·.transactionHash)

/-- The drive is neither closed nor stopped nor broken. -/
structure IsGoing (flatDrive : FlatDrive) : Prop where
  notClosing : flatDrive.closeDriveRequest = none
  notClosed : flatDrive.task.any (·.isClosure) = false
  notStopped : flatDrive.drive.replicatorIsStopped = false
  notBroken : flatDrive.movedRequestIsRead = false

/-- The ledger agrees with the drive. -/
structure LedgerInvariant (flatDrive : FlatDrive) (ledger : ApprovalLedger) : Prop where
  running : ∀ view, flatDrive.update? = some view →
    view.Accounts ledger.total (requestedSize flatDrive.dueRequests)
  other : flatDrive.update? = none →
    flatDrive.expected + requestedSize flatDrive.dueRequests = ledger.total
  pending : flatDrive.IsGoing →
    ledger.pending = flatDrive.waitingRequest ++ flatDrive.openRequests
  distinct : flatDrive.deferredHashes.Nodup
  apart : ∀ view, flatDrive.update? = some view → view.purpose.isRequest = true →
    view.purpose.modification ∉ flatDrive.deferredHashes ∧ view.purpose.modification ∈ ledger.known
  known : ∀ hash ∈ flatDrive.deferredHashes, hash ∈ ledger.known
  target : ∀ request, flatDrive.catchingUpRequest = some request →
    request.modifyTransactionHash ∈ ledger.known
  caughtUp : ∀ view, flatDrive.update? = some view → view.purpose.isRequest = true →
    view.IsRunning → flatDrive.catchingUpRequest = none

variable {flatDrive after : FlatDrive} {ledger : ApprovalLedger}

theorem expected_of_update {view : UpdateView} (isUpdate : flatDrive.update? = some view) :
    flatDrive.expected = view.expected := by
  obtain ⟨task, isTask, isView⟩ := Option.bind_eq_some_iff.mp isUpdate
  rw [expected, drive_of_task isTask, DriveTask.drive_of_update isView]
  rfl

theorem waitingRequest_of_none (noUpdate : flatDrive.update? = none) :
    flatDrive.waitingRequest = [] := by
  rw [waitingRequest, noUpdate]

theorem waitingRequest_of_not {view : UpdateView} (isUpdate : flatDrive.update? = some view)
    (notWaiting : ¬ view.IsWaiting) : flatDrive.waitingRequest = [] := by
  simp only [waitingRequest, isUpdate, if_neg notWaiting]

theorem waitingRequest_of_waiting {view : UpdateView} (isUpdate : flatDrive.update? = some view)
    (waiting : view.IsWaiting) : flatDrive.waitingRequest = view.purpose.requests := by
  simp only [waitingRequest, isUpdate, if_pos waiting]

structure SameRequests (before after : FlatDrive) : Prop where
  deferred : after.deferredModificationRequests = before.deferredModificationRequests
  catchingUp : after.catchingUpRequest = before.catchingUpRequest

theorem SameRequests.dueRequests {before after : FlatDrive} (same : SameRequests before after) :
    after.dueRequests = before.dueRequests := by
  rw [FlatDrive.dueRequests, FlatDrive.dueRequests, same.deferred, same.catchingUp]

theorem SameRequests.openRequests {before after : FlatDrive} (same : SameRequests before after) :
    after.openRequests = before.openRequests := by
  rw [FlatDrive.openRequests, FlatDrive.openRequests, same.deferred, same.catchingUp]

theorem SameRequests.deferredHashes {before after : FlatDrive} (same : SameRequests before after) :
    after.deferredHashes = before.deferredHashes := by
  rw [FlatDrive.deferredHashes, FlatDrive.deferredHashes, same.deferred]

/-- The running update is another one that serves the same purpose, and what is pending may
    be something else. -/
theorem LedgerInvariant.replace (invariant : flatDrive.LedgerInvariant ledger)
    (same : SameRequests flatDrive after) {view later : UpdateView}
    (isUpdate : flatDrive.update? = some view) (isLater : after.update? = some later)
    (purpose : later.purpose = view.purpose) (running : later.IsRunning → view.IsRunning)
    (accounts : later.Accounts ledger.total (requestedSize flatDrive.dueRequests))
    {pending : List DeferredRequest}
    (isPending : after.IsGoing → pending = after.waitingRequest ++ flatDrive.openRequests) :
    after.LedgerInvariant { ledger with pending } where
  running := by
    intro other isOther
    obtain rfl := Option.some.inj (isLater.symm.trans isOther)
    rw [same.dueRequests]
    exact accounts
  other := by
    intro noUpdate
    simp [isLater] at noUpdate
  pending := by
    intro going
    rw [same.openRequests]
    exact isPending going
  distinct := by
    rw [same.deferredHashes]
    exact invariant.distinct
  apart := by
    intro other isOther isRequest
    obtain rfl := Option.some.inj (isLater.symm.trans isOther)
    rw [purpose] at isRequest ⊢
    rw [same.deferredHashes]
    exact invariant.apart view isUpdate isRequest
  known := by
    rw [same.deferredHashes]
    exact invariant.known
  target := by
    rw [same.catchingUp]
    exact invariant.target
  caughtUp := by
    intro other isOther isRequest isRunning
    obtain rfl := Option.some.inj (isLater.symm.trans isOther)
    rw [same.catchingUp]
    exact invariant.caughtUp view isUpdate (purpose ▸ isRequest) (running isRunning)

theorem LedgerInvariant.repend (invariant : flatDrive.LedgerInvariant ledger)
    {pending : List DeferredRequest}
    (isPending : flatDrive.IsGoing →
      pending = flatDrive.waitingRequest ++ flatDrive.openRequests) :
    flatDrive.LedgerInvariant { ledger with pending } :=
  ⟨invariant.running, invariant.other, isPending, invariant.distinct, invariant.apart,
    invariant.known, invariant.target, invariant.caughtUp⟩

theorem openRequests_sublist :
    flatDrive.openRequests.Sublist flatDrive.deferredModificationRequests := by
  unfold openRequests
  split
  · exact List.past_sublist _ _
  · exact List.Sublist.refl _

/-- A request that is pending is not in the queue any more when it is being served. -/
theorem LedgerInvariant.isWaiting_of_pending (invariant : flatDrive.LedgerInvariant ledger)
    (going : flatDrive.IsGoing) {view : UpdateView} (isUpdate : flatDrive.update? = some view)
    (isRequest : view.purpose.isRequest = true)
    (member : view.purpose.modification ∈ ledger.pendingHashes) : view.IsWaiting := by
  by_contra notWaiting
  rw [ApprovalLedger.pendingHashes, invariant.pending going,
    waitingRequest_of_not isUpdate notWaiting, List.nil_append] at member
  exact (invariant.apart view isUpdate isRequest).1 ((openRequests_sublist.map _).subset member)

theorem LedgerInvariant.pending_of_waiting (invariant : flatDrive.LedgerInvariant ledger)
    (going : flatDrive.IsGoing) {view : UpdateView} (isUpdate : flatDrive.update? = some view)
    (waiting : view.IsWaiting) :
    ∃ request, view.purpose = .serves request ∧
      ledger.pending = request :: flatDrive.openRequests := by
  have pending := invariant.pending going
  rw [waitingRequest_of_waiting isUpdate waiting] at pending
  cases purpose : view.purpose with
  | serves request =>
      rw [purpose] at pending
      exact ⟨request, rfl, pending⟩
  | follows modification =>
      have isRequest := waiting.1
      simp [purpose, UpdatePurpose.isRequest] at isRequest

theorem LedgerInvariant.of_update (invariant : flatDrive.LedgerInvariant ledger)
    (same : SameRequests flatDrive after) {view later : UpdateView}
    (isUpdate : flatDrive.update? = some view) (isLater : after.update? = some later)
    (purpose : later.purpose = view.purpose) (running : later.IsRunning → view.IsRunning)
    (accounts : later.Accounts ledger.total (requestedSize flatDrive.dueRequests))
    (pending : after.IsGoing →
      flatDrive.IsGoing ∧ (later.IsWaiting ↔ view.IsWaiting)) :
    after.LedgerInvariant ledger := by
  refine invariant.replace same isUpdate isLater purpose running accounts ?_
  intro going
  obtain ⟨goingBefore, waiting⟩ := pending going
  rw [invariant.pending goingBefore]
  by_cases isWaiting : view.IsWaiting
  · rw [waitingRequest_of_waiting isUpdate isWaiting,
      waitingRequest_of_waiting isLater (waiting.mpr isWaiting), purpose]
  · rw [waitingRequest_of_not isUpdate isWaiting,
      waitingRequest_of_not isLater fun isLaterWaiting => isWaiting (waiting.mp isLaterWaiting)]

theorem LedgerInvariant.of_none (invariant : flatDrive.LedgerInvariant ledger)
    (same : SameRequests flatDrive after) (noUpdate : flatDrive.update? = none)
    (stillNone : after.update? = none) (expected : after.expected = flatDrive.expected)
    (going : after.IsGoing → flatDrive.IsGoing) : after.LedgerInvariant ledger where
  running := by
    intro view isView
    simp [stillNone] at isView
  other := by
    intro _
    rw [expected, same.dueRequests]
    exact invariant.other noUpdate
  pending := by
    intro isGoing
    rw [invariant.pending (going isGoing), same.openRequests, waitingRequest_of_none noUpdate,
      waitingRequest_of_none stillNone]
  distinct := by
    rw [same.deferredHashes]
    exact invariant.distinct
  apart := by
    intro view isView
    simp [stillNone] at isView
  known := by
    rw [same.deferredHashes]
    exact invariant.known
  target := by
    rw [same.catchingUp]
    exact invariant.target
  caughtUp := by
    intro view isView
    simp [stillNone] at isView

/-! ## The next task -/

theorem deferred_dropDeferred (transactionHash : Hash256) :
    (flatDrive.dropDeferred transactionHash).deferredModificationRequests =
      flatDrive.deferredModificationRequests.past DeferredRequest.transactionHash transactionHash := by
  unfold dropDeferred List.past
  cases found : flatDrive.deferredModificationRequests.findIdx?
      (·.transactionHash = transactionHash) with
  | some index => simp only
  | none => simp only

theorem opinionController_dropDeferred (transactionHash : Hash256) :
    (flatDrive.dropDeferred transactionHash).idleDrive.opinionController =
      flatDrive.idleDrive.opinionController.increaseAll
        (flatDrive.deferredModificationRequests.upTo DeferredRequest.transactionHash transactionHash) := by
  unfold dropDeferred List.upTo
  cases found : flatDrive.deferredModificationRequests.findIdx?
      (·.transactionHash = transactionHash) with
  | some index => rfl
  | none => rfl

/-- A task that does not update the drive is started by an idle drive. -/
theorem LedgerInvariant.start_other (invariant : flatDrive.LedgerInvariant ledger)
    (isIdle : flatDrive.task = none) (same : SameRequests flatDrive after) {task : DriveTask}
    (isTask : after.task = some task) (noUpdate : task.update? = none)
    (expected : task.drive.opinionController.approvedExpectedCumulativeDownload =
      flatDrive.idleDrive.opinionController.approvedExpectedCumulativeDownload)
    (going : after.IsGoing → flatDrive.IsGoing) : after.LedgerInvariant ledger := by
  refine invariant.of_none same (by rw [update?, isIdle, Option.bind_none])
    ((update?_of_task isTask).trans noUpdate) ?_ going
  rw [FlatDrive.expected, FlatDrive.expected, drive_of_task isTask, drive_of_idle isIdle]
  exact expected

/-- An update that follows a root hash is started by a drive without approvals to catch up
    with. -/
theorem ledgerInvariant_of_follows {task : DriveTask} {view : UpdateView}
    (isTask : flatDrive.task = some task) (isView : task.update? = some view)
    (accounts : view.Accounts ledger.total 0) (isFollowed : view.purpose.isRequest = false)
    (caughtUp : flatDrive.catchingUpRequest = none)
    (pending : flatDrive.IsGoing → ledger.pending = flatDrive.deferredModificationRequests)
    (distinct : flatDrive.deferredHashes.Nodup)
    (known : ∀ hash ∈ flatDrive.deferredHashes, hash ∈ ledger.known) :
    flatDrive.LedgerInvariant ledger := by
  have isUpdate : flatDrive.update? = some view := (update?_of_task isTask).trans isView
  refine ⟨?_, ?_, ?_, distinct, ?_, known, ?_, ?_⟩
  · intro other isOther
    obtain rfl := Option.some.inj (isUpdate.symm.trans isOther)
    rw [dueRequests, caughtUp]
    exact accounts
  · intro noUpdate
    simp [isUpdate] at noUpdate
  · intro going
    have notWaiting : ¬ view.IsWaiting := by
      intro waiting
      exact absurd waiting.1 (by simp [isFollowed])
    rw [pending going, waitingRequest_of_not isUpdate notWaiting, openRequests, caughtUp]
    rfl
  · intro other isOther isRequest
    obtain rfl := Option.some.inj (isUpdate.symm.trans isOther)
    simp [isFollowed] at isRequest
  · intro request isTarget
    simp [caughtUp] at isTarget
  · exact fun _ _ _ _ => caughtUp

theorem LedgerInvariant.start_request (invariant : flatDrive.LedgerInvariant ledger)
    (isIdle : flatDrive.task = none) (caughtUp : flatDrive.catchingUpRequest = none)
    {request : DeferredRequest} {rest : List DeferredRequest}
    (deferred : flatDrive.deferredModificationRequests = request :: rest)
    {task : DriveTask} {view : UpdateView} (isTask : after.task = some task)
    (isView : task.update? = some view) (isRequest : view.purpose = .serves request)
    (isNew : view.IsNew flatDrive.idleDrive) (running : view.IsRunning)
    (notEnding : ¬ view.base.IsEnding) (deferredLater : after.deferredModificationRequests = rest)
    (caughtUpLater : after.catchingUpRequest = none)
    (going : after.IsGoing → flatDrive.IsGoing) : after.LedgerInvariant ledger := by
  have noUpdate : flatDrive.update? = none := by rw [update?, isIdle, Option.bind_none]
  have isUpdate : after.update? = some view := (update?_of_task isTask).trans isView
  have nothingDue : flatDrive.dueRequests = [] := by rw [dueRequests, caughtUp]
  have nothingDueLater : after.dueRequests = [] := by rw [dueRequests, caughtUpLater]
  have hashes : flatDrive.deferredHashes = request.transactionHash :: after.deferredHashes := by
    rw [deferredHashes, deferredHashes, deferred, deferredLater, List.map_cons]
  have distinct := invariant.distinct
  rw [hashes, List.nodup_cons] at distinct
  have sum := invariant.other noUpdate
  rw [nothingDue, expected, drive_of_idle isIdle] at sum
  refine ⟨?_, ?_, ?_, distinct.2, ?_, ?_, ?_, ?_⟩
  · intro other isOther
    obtain rfl := Option.some.inj (isUpdate.symm.trans isOther)
    rw [nothingDueLater]
    exact UpdateView.accounts_of_isNew isNew isRequest running notEnding sum
  · intro none
    simp [isUpdate] at none
  · intro isGoing
    have waiting : view.IsWaiting := ⟨by rw [isRequest]; rfl, running, isNew.unreceived⟩
    rw [invariant.pending (going isGoing), waitingRequest_of_none noUpdate,
      waitingRequest_of_waiting isUpdate waiting, openRequests, openRequests, caughtUp,
      caughtUpLater, deferred, deferredLater, isRequest]
    rfl
  · intro other isOther _
    obtain rfl := Option.some.inj (isUpdate.symm.trans isOther)
    rw [isRequest]
    refine ⟨distinct.1, invariant.known _ ?_⟩
    rw [hashes]
    exact List.mem_cons_self
  · intro hash member
    refine invariant.known hash ?_
    rw [hashes]
    exact List.mem_cons_of_mem _ member
  · intro target isTarget
    simp [caughtUpLater] at isTarget
  · exact fun _ _ _ _ => caughtUpLater

theorem LedgerInvariant.runFirstRequest (invariant : flatDrive.LedgerInvariant ledger)
    (isIdle : flatDrive.task = none) (going : flatDrive.idleDrive.replicatorIsStopped = false)
    (fits : flatDrive.idleDrive.opinionController.approvedExpectedCumulativeDownload +
      requestedSize flatDrive.deferredModificationRequests < 2 ^ 64) :
    flatDrive.runFirstRequest.LedgerInvariant ledger := by
  have noUpdate : flatDrive.update? = none := by rw [update?, isIdle, Option.bind_none]
  have sum := invariant.other noUpdate
  rw [expected, drive_of_idle isIdle] at sum
  have isGoing (notClosing : flatDrive.closeDriveRequest = none)
      (notBroken : flatDrive.movedRequestIsRead = false) : flatDrive.IsGoing :=
    ⟨notClosing, by rw [isIdle]; rfl, by rw [drive_of_idle isIdle]; exact going, notBroken⟩
  unfold FlatDrive.runFirstRequest
  split
  · refine invariant.start_other isIdle ⟨rfl, rfl⟩ rfl rfl rfl ?_
    intro goingLater
    exact absurd goingLater.notClosed (by simp [runCloseDriveTask, DriveTask.isClosure])
  · rename_i notClosing _
    refine invariant.start_other isIdle ⟨rfl, rfl⟩ rfl rfl rfl ?_
    intro goingLater
    exact isGoing notClosing goingLater.notBroken
  · rename_i request notClosing _ isTarget
    have due : flatDrive.dueRequests = flatDrive.deferredModificationRequests.upTo
        DeferredRequest.transactionHash request.modifyTransactionHash := by rw [dueRequests, isTarget]
    have left : flatDrive.openRequests = flatDrive.deferredModificationRequests.past
        DeferredRequest.transactionHash request.modifyTransactionHash := by rw [openRequests, isTarget]
    have parts : requestedSize flatDrive.dueRequests + requestedSize flatDrive.openRequests =
        requestedSize flatDrive.deferredModificationRequests := by
      rw [due, left, requestedSize, requestedSize, ← List.sum_append, ← List.map_append,
        List.upTo_append_past]
      rfl
    have isExpected : (flatDrive.dropDeferred
        request.modifyTransactionHash).idleDrive.opinionController.approvedExpectedCumulativeDownload =
        ledger.total := by
      rw [opinionController_dropDeferred, ← due,
        ModifyOpinionController.approvedExpected_increaseAll (by omega), sum]
    have deferredLater : (flatDrive.dropDeferred
        request.modifyTransactionHash).deferredModificationRequests = flatDrive.openRequests :=
      (deferred_dropDeferred _).trans left.symm
    have subset : flatDrive.openRequests.Sublist flatDrive.deferredModificationRequests := by
      rw [left]
      exact List.past_sublist _ _
    have stopped : (flatDrive.dropDeferred
        request.modifyTransactionHash).idleDrive.replicatorIsStopped = false := by
      rw [← going]
      unfold dropDeferred
      split <;> rfl
    refine ledgerInvariant_of_follows rfl rfl
      (UpdateView.accounts_of_follows (SynchronizationTask.isNew_run rfl) rfl isExpected) rfl rfl
      ?_ ?_ ?_
    · intro goingLater
      have closing : (flatDrive.dropDeferred request.modifyTransactionHash).movedRequestIsRead =
          flatDrive.movedRequestIsRead := by
        unfold dropDeferred
        split <;> rfl
      rw [invariant.pending (isGoing notClosing (closing ▸ goingLater.notBroken)),
        waitingRequest_of_none noUpdate]
      exact deferredLater.symm
    · have distinct := (subset.map DeferredRequest.transactionHash).nodup invariant.distinct
      rwa [← deferredLater] at distinct
    · intro hash member
      have earlier : hash ∈ flatDrive.openRequests.map DeferredRequest.transactionHash := by
        rw [← deferredLater]
        exact member
      exact invariant.known hash ((subset.map _).subset earlier)
  · rename_i request notClosing _ caughtUp _
    have nothingDue : flatDrive.dueRequests = [] := by rw [dueRequests, caughtUp]
    rw [nothingDue] at sum
    refine ledgerInvariant_of_follows rfl rfl
      (UpdateView.accounts_of_follows (SynchronizationTask.isNew_run rfl) rfl sum) rfl caughtUp
      ?_ invariant.distinct invariant.known
    intro goingLater
    rw [invariant.pending (isGoing notClosing goingLater.notBroken),
      waitingRequest_of_none noUpdate, openRequests, caughtUp]
    rfl
  · rename_i request rest notClosing _ caughtUp _ deferred
    cases request with
    | modification request =>
        obtain ⟨isNew, isRequest⟩ := ModifyDriveTask.isNew_start request
          ((flatDrive.unknownModificationOpinions[request.transactionHash]?).getD ∅)
          flatDrive.idleDrive (flatDrive.actionListFiles request.clientDataInfoHash)
        obtain ⟨running, notEnding⟩ := ModifyDriveTask.going_start request
          ((flatDrive.unknownModificationOpinions[request.transactionHash]?).getD ∅)
          flatDrive.idleDrive (flatDrive.actionListFiles request.clientDataInfoHash)
        exact invariant.start_request isIdle caughtUp deferred rfl rfl isRequest isNew running
          notEnding rfl caughtUp fun goingLater => isGoing notClosing goingLater.notBroken
    | stream request =>
        exact invariant.start_request isIdle caughtUp deferred rfl rfl rfl
          (StreamTask.isNew_create _ _) rfl (UpdateDriveTaskBase.not_isEnding_new _) rfl caughtUp
          fun goingLater => isGoing notClosing goingLater.notBroken
  · rename_i request notClosing _ _ _ _ _
    refine invariant.start_other isIdle ⟨rfl, rfl⟩ rfl rfl rfl ?_
    intro goingLater
    exact isGoing notClosing goingLater.notBroken
  · exact invariant

theorem LedgerInvariant.runNextTask (invariant : flatDrive.LedgerInvariant ledger)
    (isOpen : flatDrive.IsOpenTask)
    (ends : ∀ view, flatDrive.update? = some view → view.base.IsEnding)
    (fits : flatDrive.expected + requestedSize flatDrive.deferredModificationRequests < 2 ^ 64) :
    flatDrive.runNextTask.LedgerInvariant ledger := by
  unfold FlatDrive.runNextTask
  split
  · exact invariant
  · rename_i going
    have notClosed : flatDrive.task.any (·.isClosure) = false := by
      cases isTask : flatDrive.task with
      | none => rfl
      | some task => exact isOpen task isTask
    have idle : FlatDrive.LedgerInvariant
        { flatDrive with idleDrive := flatDrive.drive, task := none } ledger := by
      refine ⟨?_, ?_, ?_, invariant.distinct, ?_, invariant.known, invariant.target, ?_⟩
      · intro view isView
        simp [update?] at isView
      · intro _
        cases isUpdate : flatDrive.update? with
        | none => exact invariant.other isUpdate
        | some view =>
            have sum := (invariant.running view isUpdate).sum_of_ending (ends view isUpdate)
            rw [← expected_of_update isUpdate] at sum
            exact sum
      · intro goingIdle
        have goingBefore : flatDrive.IsGoing :=
          ⟨goingIdle.notClosing, notClosed, by simpa using going, goingIdle.notBroken⟩
        have noWaiting : flatDrive.waitingRequest = [] := by
          cases isUpdate : flatDrive.update? with
          | none => exact waitingRequest_of_none isUpdate
          | some view =>
              have running := invariant.running view isUpdate
              exact waitingRequest_of_not isUpdate
                (running.not_isWaiting_of_ending (ends view isUpdate))
        rw [invariant.pending goingBefore, noWaiting]
        rfl
      · intro view isView
        simp [update?] at isView
      · intro view isView
        simp [update?] at isView
    exact idle.runFirstRequest rfl (by simpa using going) fits

theorem LedgerInvariant.runNextTaskIfIdle (invariant : flatDrive.LedgerInvariant ledger)
    (fits : flatDrive.task = none →
      flatDrive.idleDrive.opinionController.approvedExpectedCumulativeDownload +
        requestedSize flatDrive.deferredModificationRequests < 2 ^ 64) :
    flatDrive.runNextTaskIfIdle.LedgerInvariant ledger := by
  unfold FlatDrive.runNextTaskIfIdle
  split
  · rename_i isIdle
    have isIdle : flatDrive.task = none := by simpa using isIdle
    refine invariant.runNextTask ?_ ?_ ?_
    · intro task isTask
      simp [isIdle] at isTask
    · intro view isView
      simp [update?, isIdle] at isView
    · rw [expected, drive_of_idle isIdle]
      exact fits isIdle
  · exact invariant

/-! ## Events that leave the uploads alone -/

end FlatDrive

namespace UpdateView

variable {view later : UpdateView}

theorem isWaiting_iff (interrupted : later.base.taskIsInterrupted = view.base.taskIsInterrupted)
    (purpose : later.purpose = view.purpose) (received : later.received = view.received) :
    later.IsWaiting ↔ view.IsWaiting := by
  rw [IsWaiting, IsWaiting, IsRunning, IsRunning, interrupted, purpose, received]

theorem GoesOn.running (goesOn : view.GoesOn later) (running : later.IsRunning) :
    view.IsRunning := by
  rw [IsRunning, ← goesOn.base.interrupted]
  exact running

theorem GoesOn.isWaiting (goesOn : view.GoesOn later) : later.IsWaiting ↔ view.IsWaiting :=
  isWaiting_iff goesOn.base.interrupted goesOn.purpose goesOn.received

theorem Steps.interrupted {event : TaskEvent} (steps : view.Steps event later) :
    later.base.taskIsInterrupted = view.base.taskIsInterrupted := by
  cases steps.base with
  | goesOn goesOn => exact goesOn.interrupted
  | counts _ counts => rw [counts.interrupted, counts.running]
  | approves _ approves => exact approves.interrupted
  | fails _ fails => exact fails.interrupted

theorem Steps.stopped {event : TaskEvent} (steps : view.Steps event later) :
    later.base.drive.replicatorIsStopped = view.base.drive.replicatorIsStopped := by
  cases steps.base with
  | goesOn goesOn => exact goesOn.stopped
  | counts _ counts => exact counts.stopped
  | approves _ approves => exact approves.stopped
  | fails _ fails => exact fails.stopped

end UpdateView

namespace FlatDrive

variable {flatDrive after : FlatDrive} {ledger : ApprovalLedger}

theorem isClosed_of_task {task : DriveTask} (isTask : flatDrive.task = some task) :
    flatDrive.task.any (·.isClosure) = task.isClosure := by
  rw [isTask, Option.any_some]

theorem isGoing_of_same {task next : DriveTask} (isTask : flatDrive.task = some task)
    (isNext : after.task = some next) (closure : next.isClosure = task.isClosure)
    (stopped : next.drive.replicatorIsStopped = task.drive.replicatorIsStopped)
    (closing : after.closeDriveRequest = none → flatDrive.closeDriveRequest = none)
    (broken : after.movedRequestIsRead = false → flatDrive.movedRequestIsRead = false)
    (going : after.IsGoing) : flatDrive.IsGoing where
  notClosing := closing going.notClosing
  notClosed := by
    rw [isClosed_of_task isTask, ← closure, ← isClosed_of_task isNext]
    exact going.notClosed
  notStopped := by
    rw [drive_of_task isTask, ← stopped, ← drive_of_task isNext]
    exact going.notStopped
  notBroken := broken going.notBroken

theorem isGoing_of_update {task next : DriveTask} {view later : UpdateView}
    (isTask : flatDrive.task = some task) (isNext : after.task = some next)
    (isView : task.update? = some view) (isLater : next.update? = some later)
    (stopped : later.base.drive.replicatorIsStopped = view.base.drive.replicatorIsStopped)
    (closing : after.closeDriveRequest = none → flatDrive.closeDriveRequest = none)
    (broken : after.movedRequestIsRead = false → flatDrive.movedRequestIsRead = false)
    (going : after.IsGoing) : flatDrive.IsGoing := by
  refine isGoing_of_same isTask isNext ?_ ?_ closing broken going
  · rw [DriveTask.isClosure_of_update isView, DriveTask.isClosure_of_update isLater]
  · rw [DriveTask.drive_of_update isView, DriveTask.drive_of_update isLater]
    exact stopped

theorem isGoing_of_keeps {task next : DriveTask} (isTask : flatDrive.task = some task)
    (isNext : after.task = some next) (keeps : task.Keeps next)
    (closing : after.closeDriveRequest = none → flatDrive.closeDriveRequest = none)
    (broken : after.movedRequestIsRead = false → flatDrive.movedRequestIsRead = false)
    (going : after.IsGoing) : flatDrive.IsGoing := by
  cases keeps with
  | update isBefore isAfter goesOn =>
      exact isGoing_of_update isTask isNext isBefore isAfter goesOn.base.stopped closing broken going
  | other _ _ _ stopped closure =>
      exact isGoing_of_same isTask isNext closure stopped closing broken going

/-- The running task is changed in a way that leaves the uploads alone. -/
theorem isGoing_of_map {f : DriveTask → DriveTask} (keeps : ∀ task : DriveTask, task.Keeps (f task))
    (isTask : after.task = flatDrive.task.map f)
    (idle : flatDrive.task = none →
      after.drive.replicatorIsStopped = flatDrive.drive.replicatorIsStopped)
    (closing : after.closeDriveRequest = none → flatDrive.closeDriveRequest = none)
    (broken : after.movedRequestIsRead = false → flatDrive.movedRequestIsRead = false)
    (going : after.IsGoing) : flatDrive.IsGoing := by
  cases isBefore : flatDrive.task with
  | some task =>
      have isNext : after.task = some (f task) := by rw [isTask, isBefore, Option.map_some]
      exact isGoing_of_keeps isBefore isNext (keeps task) closing broken going
  | none =>
      exact ⟨closing going.notClosing, by rw [isBefore]; rfl, idle isBefore ▸ going.notStopped,
        broken going.notBroken⟩

theorem LedgerInvariant.keeps (invariant : flatDrive.LedgerInvariant ledger)
    (same : SameRequests flatDrive after) {task next : DriveTask}
    (isTask : flatDrive.task = some task) (isNext : after.task = some next)
    (keeps : task.Keeps next)
    (closing : after.closeDriveRequest = none → flatDrive.closeDriveRequest = none)
    (broken : after.movedRequestIsRead = false → flatDrive.movedRequestIsRead = false) :
    after.LedgerInvariant ledger := by
  cases keeps with
  | update isBefore isAfter goesOn =>
      have isUpdate := (update?_of_task isTask).trans isBefore
      have isLater := (update?_of_task isNext).trans isAfter
      refine invariant.of_update same isUpdate isLater goesOn.purpose goesOn.running
        ((invariant.running _ isUpdate).goesOn goesOn) ?_
      intro going
      have goingBefore :=
        isGoing_of_update isTask isNext isBefore isAfter goesOn.base.stopped closing broken going
      exact ⟨goingBefore, goesOn.isWaiting⟩
  | other noUpdate stillNone opinionController stopped closure =>
      refine invariant.of_none same ((update?_of_task isTask).trans noUpdate)
        ((update?_of_task isNext).trans stillNone) ?_
        (isGoing_of_same isTask isNext closure stopped closing broken)
      obtain ⟨_, renamed⟩ := opinionController
      rw [expected, expected, drive_of_task isTask, drive_of_task isNext, renamed]

/-- An update is interrupted from outside, unless an approval is under way. -/
theorem LedgerInvariant.ends (invariant : flatDrive.LedgerInvariant ledger)
    (same : SameRequests flatDrive after) {view later : UpdateView}
    (isUpdate : flatDrive.update? = some view) (isLater : after.update? = some later)
    (interrupts : view.Interrupts later)
    (ready : view.purpose.isRequest = true → view.received = true → view.base.IsEnding)
    (pending : after.IsGoing → flatDrive.IsGoing ∧ ¬ view.IsWaiting) :
    after.LedgerInvariant ledger := by
  refine invariant.of_update same isUpdate isLater interrupts.purpose (fun _ => interrupts.running)
    ((invariant.running _ isUpdate).interrupts interrupts ready) ?_
  intro going
  obtain ⟨goingBefore, notWaiting⟩ := pending going
  refine ⟨goingBefore, ⟨?_, fun waiting => absurd waiting notWaiting⟩⟩
  intro waiting
  have running : later.base.taskIsInterrupted = false := waiting.2.1
  simp [interrupts.base.interrupted] at running

/-- The running task is changed in a way that leaves the uploads alone. -/
theorem LedgerInvariant.map_task (invariant : flatDrive.LedgerInvariant ledger)
    {f : DriveTask → DriveTask} (keeps : ∀ task : DriveTask, task.Keeps (f task))
    (isTask : after.task = flatDrive.task.map f) (same : SameRequests flatDrive after)
    (idle : flatDrive.task = none → after.expected = flatDrive.expected ∧
      after.drive.replicatorIsStopped = flatDrive.drive.replicatorIsStopped)
    (closing : after.closeDriveRequest = none → flatDrive.closeDriveRequest = none)
    (broken : after.movedRequestIsRead = false → flatDrive.movedRequestIsRead = false) :
    after.LedgerInvariant ledger := by
  cases isBefore : flatDrive.task with
  | some task =>
      have isNext : after.task = some (f task) := by rw [isTask, isBefore, Option.map_some]
      exact invariant.keeps same isBefore isNext (keeps task) closing broken
  | none =>
      have isIdle : after.task = none := by rw [isTask, isBefore, Option.map_none]
      obtain ⟨expected, stopped⟩ := idle isBefore
      exact invariant.of_none same (by rw [update?, isBefore, Option.bind_none])
        (by rw [update?, isIdle, Option.bind_none]) expected
        (isGoing_of_map keeps isTask (fun _ => stopped) closing broken)

/-! ## Requests -/

theorem requestedSize_add (front back : List DeferredRequest) :
    requestedSize (front ++ back) = requestedSize front + requestedSize back := by
  rw [requestedSize, List.map_append, List.sum_append]
  rfl

theorem LedgerInvariant.append (invariant : flatDrive.LedgerInvariant ledger)
    {request : DeferredRequest} (isNew : request.transactionHash ∉ ledger.known) :
    LedgerInvariant { flatDrive with
      deferredModificationRequests := flatDrive.deferredModificationRequests ++ [request] }
      (ledger.add request) := by
  have due : dueRequests { flatDrive with
      deferredModificationRequests := flatDrive.deferredModificationRequests ++ [request] } =
      flatDrive.dueRequests := by
    unfold dueRequests
    cases isTarget : flatDrive.catchingUpRequest with
    | none => rfl
    | some target =>
        refine List.upTo_concat ?_
        intro same
        exact isNew (same ▸ invariant.target target isTarget)
  have left : openRequests { flatDrive with
      deferredModificationRequests := flatDrive.deferredModificationRequests ++ [request] } =
      flatDrive.openRequests ++ [request] := by
    unfold openRequests
    cases isTarget : flatDrive.catchingUpRequest with
    | none => rfl
    | some target =>
        refine List.past_concat ?_
        intro same
        exact isNew (same ▸ invariant.target target isTarget)
  have hashes : deferredHashes { flatDrive with
      deferredModificationRequests := flatDrive.deferredModificationRequests ++ [request] } =
      flatDrive.deferredHashes ++ [request.transactionHash] := by
    simp only [deferredHashes, List.map_append, List.map_cons, List.map_nil]
  refine ⟨?_, ?_, ?_, ?_, ?_, ?_, ?_, invariant.caughtUp⟩
  · intro view isView
    rw [due]
    exact invariant.running view isView
  · intro noUpdate
    rw [due]
    exact invariant.other noUpdate
  · intro going
    have before := invariant.pending ⟨going.notClosing, going.notClosed, going.notStopped,
      going.notBroken⟩
    rw [left, ← List.append_assoc]
    exact congrArg (· ++ [request]) before
  · rw [hashes, List.nodup_append]
    refine ⟨invariant.distinct, List.nodup_singleton _, ?_⟩
    rintro hash member other isOther rfl
    obtain rfl := List.mem_singleton.mp isOther
    exact isNew (invariant.known _ member)
  · intro view isView isRequest
    obtain ⟨apart, known⟩ := invariant.apart view isView isRequest
    refine ⟨?_, List.mem_cons_of_mem _ known⟩
    rw [hashes, List.mem_append, not_or, List.mem_singleton]
    refine ⟨apart, ?_⟩
    intro same
    exact isNew (same ▸ known)
  · intro hash member
    rw [hashes, List.mem_append, List.mem_singleton] at member
    rcases member with earlier | rfl
    · exact List.mem_cons_of_mem _ (invariant.known hash earlier)
    · exact List.mem_cons_self
  · intro target isTarget
    exact List.mem_cons_of_mem _ (invariant.target target isTarget)

theorem LedgerInvariant.queue (invariant : flatDrive.LedgerInvariant ledger)
    (isTask : after.task = flatDrive.task.map (·.onRequestQueued))
    (same : SameRequests flatDrive after) (idle : after.idleDrive = flatDrive.idleDrive)
    (closing : after.closeDriveRequest = flatDrive.closeDriveRequest)
    (broken : after.movedRequestIsRead = flatDrive.movedRequestIsRead)
    (fits : flatDrive.task = none →
      flatDrive.idleDrive.opinionController.approvedExpectedCumulativeDownload +
        requestedSize flatDrive.deferredModificationRequests < 2 ^ 64) :
    after.runNextTaskIfIdle.LedgerInvariant ledger := by
  have queued : after.LedgerInvariant ledger := by
    refine invariant.map_task (fun task => task.keeps_onRequestQueued) isTask same ?_
      (fun none => closing.symm.trans none) (fun none => broken.symm.trans none)
    intro isIdle
    have isIdleLater : after.task = none := by rw [isTask, isIdle, Option.map_none]
    rw [expected, expected, drive_of_idle isIdle, drive_of_idle isIdleLater, idle]
    exact ⟨rfl, rfl⟩
  refine queued.runNextTaskIfIdle ?_
  intro isIdle
  rw [isTask, Option.map_eq_none_iff] at isIdle
  rw [idle, same.deferred]
  exact fits isIdle

end FlatDrive

end SiriusDrive
