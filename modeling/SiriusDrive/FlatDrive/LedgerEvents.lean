import SiriusDrive.FlatDrive.LedgerInvariant
import SiriusDrive.FlatDrive.PublishedApprovals

/-! # The expected download and the approvals

What is expected grows by the limit of every approved modification: when its uploads
are approved, when another approval interrupts it, and when it is skipped. The drive
agrees with the ledger unless an approval is lost, or comes for a task whose uploads are
approved already.
-/

namespace SiriusDrive

theorem DriveTask.isRequest_of_answer {task : DriveTask}
    {transaction : PublishedModificationApprovalTransactionInfo}
    (answer : (task.onApprovalTxPublished transaction).2 = false)
    (keeps : task.dropsApprovals = false) :
    ∃ view, task.update? = some view ∧ view.purpose.isRequest = true := by
  cases task with
  | initialization | manualModification => simp [onApprovalTxPublished] at answer
  | modification | stream => exact ⟨_, rfl, rfl⟩
  | cancellation | closure => simp [dropsApprovals] at keeps
  | synchronization task =>
      cases kind : task.kind with
      | catchingUp =>
          simp only [onApprovalTxPublished, SynchronizationTask.onApprovalTxPublished, kind] at answer
          split at answer <;> simp at answer
      | manualSynchronization => simp [dropsApprovals, kind] at keeps

namespace FlatDrive

variable {flatDrive after : FlatDrive} {ledger : ApprovalLedger}

/-! ## Approvals -/

/-- The drive is asked to catch up with one of the requests it has not skipped yet. -/
theorem retarget {target : CatchingUpRequest} (isTarget : after.catchingUpRequest = some target)
    (deferred : after.deferredModificationRequests = flatDrive.deferredModificationRequests)
    (distinct : flatDrive.deferredHashes.Nodup)
    (member : target.modifyTransactionHash ∈
      flatDrive.openRequests.map DeferredRequest.transactionHash) :
    after.openRequests =
      flatDrive.openRequests.past DeferredRequest.transactionHash target.modifyTransactionHash ∧
    requestedSize after.dueRequests = requestedSize flatDrive.dueRequests + requestedSize
      (flatDrive.openRequests.upTo DeferredRequest.transactionHash
        target.modifyTransactionHash) := by
  unfold openRequests dueRequests at *
  rw [isTarget, deferred]
  cases catchingUp : flatDrive.catchingUpRequest with
  | none => exact ⟨rfl, (Nat.zero_add _).symm⟩
  | some earlier =>
      simp only [catchingUp] at member
      obtain ⟨upTo, past⟩ :=
        List.cut_past (f := DeferredRequest.transactionHash) distinct member
      refine ⟨past, ?_⟩
      simp only [upTo, requestedSize_add]

theorem LedgerInvariant.approve_open (invariant : flatDrive.LedgerInvariant ledger)
    (going : flatDrive.IsGoing) (noWaiting : flatDrive.waitingRequest = [])
    (target : CatchingUpRequest) (isTarget : after.catchingUpRequest = some target)
    (deferred : after.deferredModificationRequests = flatDrive.deferredModificationRequests)
    (member : target.modifyTransactionHash ∈ ledger.pendingHashes)
    (running : ∀ later, after.update? = some later → ∀ more,
      later.Accounts (ledger.total + more) (requestedSize flatDrive.dueRequests + more) ∧
        (later.purpose.isRequest = true → ¬ later.IsRunning ∧
          later.purpose.modification ∉ flatDrive.deferredHashes ∧
          later.purpose.modification ∈ ledger.known))
    (other : after.update? = none →
      after.expected + requestedSize flatDrive.dueRequests = ledger.total) :
    after.LedgerInvariant (ledger.approve target.modifyTransactionHash) := by
  have pending : ledger.pending = flatDrive.openRequests := by
    rw [invariant.pending going, noWaiting, List.nil_append]
  have isOpen : target.modifyTransactionHash ∈
      flatDrive.openRequests.map DeferredRequest.transactionHash := by
    rw [← pending]
    exact member
  obtain ⟨left, due⟩ := retarget isTarget deferred invariant.distinct isOpen
  have hashes : after.deferredHashes = flatDrive.deferredHashes := by
    rw [deferredHashes, deferredHashes, deferred]
  have total : (ledger.approve target.modifyTransactionHash).total = ledger.total + requestedSize
      (flatDrive.openRequests.upTo DeferredRequest.transactionHash
        target.modifyTransactionHash) := by
    rw [← pending, ApprovalLedger.total, ApprovalLedger.total, Nat.add_assoc]
    rfl
  refine ⟨?_, ?_, ?_, ?_, ?_, ?_, ?_, ?_⟩
  · intro later isLater
    rw [total, due]
    exact (running later isLater _).1
  · intro noUpdate
    rw [total, due, ← other noUpdate]
    omega
  · intro _
    have noWaitingLater : after.waitingRequest = [] := by
      cases isUpdate : after.update? with
      | none => exact waitingRequest_of_none isUpdate
      | some later =>
          refine waitingRequest_of_not isUpdate ?_
          rintro ⟨isRequest, isRunning, -⟩
          exact ((running later isUpdate 0).2 isRequest).1 isRunning
    rw [noWaitingLater, left, ← pending]
    rfl
  · rw [hashes]
    exact invariant.distinct
  · intro later isLater isRequest
    rw [hashes]
    exact ((running later isLater 0).2 isRequest).2
  · rw [hashes]
    exact invariant.known
  · intro request isRequest
    obtain rfl := Option.some.inj (isTarget.symm.trans isRequest)
    exact invariant.known _ ((openRequests_sublist.map _).subset isOpen)
  · intro later isLater isRequest isRunning
    exact absurd isRunning ((running later isLater 0).2 isRequest).1

/-- An approval interrupts the update of a request that waits for its own one. -/
theorem LedgerInvariant.approve_broken (invariant : flatDrive.LedgerInvariant ledger)
    (going : flatDrive.IsGoing) {view later : UpdateView}
    (isUpdate : flatDrive.update? = some view) (isLater : after.update? = some later)
    (breaks : view.Breaks later) (waiting : view.IsWaiting)
    (target : CatchingUpRequest) (isTarget : after.catchingUpRequest = some target)
    (deferred : after.deferredModificationRequests = flatDrive.deferredModificationRequests)
    (member : target.modifyTransactionHash ∈ ledger.pendingHashes)
    (fits : view.expected + view.purpose.size < 2 ^ 64) :
    after.LedgerInvariant (ledger.approve target.modifyTransactionHash) := by
  obtain ⟨request, serves, pending⟩ := invariant.pending_of_waiting going isUpdate waiting
  obtain ⟨isRequest, running, unreceived⟩ := waiting
  have caughtUp := invariant.caughtUp view isUpdate isRequest running
  have allOpen : flatDrive.openRequests = flatDrive.deferredModificationRequests := by
    rw [openRequests, caughtUp]
  rw [allOpen] at pending
  obtain ⟨apart, known⟩ := invariant.apart view isUpdate isRequest
  have apartRequest : request.transactionHash ∉ flatDrive.deferredHashes := by
    rw [serves] at apart
    exact apart
  have memberPending := member
  rw [ApprovalLedger.pendingHashes, pending] at memberPending
  obtain ⟨upTo, past⟩ := List.cut_cons (f := DeferredRequest.transactionHash) apartRequest
    memberPending
  have due : after.dueRequests = flatDrive.deferredModificationRequests.upTo
      DeferredRequest.transactionHash target.modifyTransactionHash := by
    rw [dueRequests, isTarget, deferred]
  have left : after.openRequests = flatDrive.deferredModificationRequests.past
      DeferredRequest.transactionHash target.modifyTransactionHash := by
    rw [openRequests, isTarget, deferred]
  have total : (ledger.approve target.modifyTransactionHash).total =
      ledger.total + view.purpose.size + requestedSize after.dueRequests := by
    have approved : requestedSize (ledger.pending.upTo DeferredRequest.transactionHash
        target.modifyTransactionHash) =
        view.purpose.size + requestedSize after.dueRequests := by
      rw [pending, upTo, due, serves]
      simp [requestedSize, UpdatePurpose.size]
    rw [ApprovalLedger.total, ApprovalLedger.total, ApprovalLedger.approve, approved]
    simp only
    omega
  have hashes : after.deferredHashes = flatDrive.deferredHashes := by
    rw [deferredHashes, deferredHashes, deferred]
  have ended : ¬ later.IsRunning := by simp [UpdateView.IsRunning, breaks.interrupted]
  refine ⟨?_, ?_, ?_, ?_, ?_, ?_, ?_, ?_⟩
  · intro other isOther
    obtain rfl := Option.some.inj (isLater.symm.trans isOther)
    have accounts := (invariant.running view isUpdate).breaks breaks isRequest
      (by simp [unreceived]) fits (requestedSize after.dueRequests)
    rw [if_neg (by simp [unreceived])] at accounts
    rw [total]
    exact accounts
  · intro noUpdate
    simp [isLater] at noUpdate
  · intro _
    rw [waitingRequest_of_not isLater fun isWaiting => ended isWaiting.2.1, left, ← past, ← pending]
    rfl
  · rw [hashes]
    exact invariant.distinct
  · intro other isOther _
    obtain rfl := Option.some.inj (isLater.symm.trans isOther)
    rw [hashes, breaks.purpose]
    exact ⟨apart, known⟩
  · rw [hashes]
    exact invariant.known
  · intro other isOther
    obtain rfl := Option.some.inj (isTarget.symm.trans isOther)
    rcases List.mem_cons.mp memberPending with own | queued
    · rw [own]
      rw [serves] at known
      exact known
    · exact invariant.known _ queued
  · intro other isOther _ isRunning
    obtain rfl := Option.some.inj (isLater.symm.trans isOther)
    exact absurd isRunning ended

theorem LedgerInvariant.approve_applied (invariant : flatDrive.LedgerInvariant ledger)
    (going : flatDrive.IsGoing) {view later : UpdateView}
    (isUpdate : flatDrive.update? = some view) (isLater : after.update? = some later)
    {transactionHash : Hash256} (applies : view.Applies transactionHash later)
    (waiting : view.IsWaiting) (same : SameRequests flatDrive after) :
    after.LedgerInvariant (ledger.approve transactionHash) := by
  have accounts := (invariant.running view isUpdate).applies applies waiting
  obtain ⟨request, serves, pending⟩ := invariant.pending_of_waiting going isUpdate waiting
  obtain ⟨isRequest, running, -⟩ := waiting
  have caughtUp := invariant.caughtUp view isUpdate isRequest running
  have isKey : request.transactionHash = transactionHash := by
    have about := applies.about
    rwa [serves] at about
  have upTo := List.upTo_cons_self (l := flatDrive.openRequests) isKey
  have past := List.past_cons_self (l := flatDrive.openRequests) isKey
  have total : (ledger.approve transactionHash).total = ledger.total + view.purpose.size := by
    have approved : requestedSize (ledger.pending.upTo DeferredRequest.transactionHash
        transactionHash) = view.purpose.size := by
      rw [pending, upTo, serves]
      simp [requestedSize, UpdatePurpose.size]
    rw [ApprovalLedger.total, ApprovalLedger.total, ApprovalLedger.approve, approved]
    simp only
    omega
  have nothingDue : after.dueRequests = [] := by
    rw [same.dueRequests, dueRequests, caughtUp]
  refine ⟨?_, ?_, ?_, ?_, ?_, ?_, ?_, ?_⟩
  · intro other isOther
    obtain rfl := Option.some.inj (isLater.symm.trans isOther)
    rw [total, nothingDue]
    exact accounts
  · intro noUpdate
    simp [isLater] at noUpdate
  · intro _
    have notWaiting : ¬ later.IsWaiting := by
      rintro ⟨-, -, stillUnreceived⟩
      simp [applies.received] at stillUnreceived
    rw [waitingRequest_of_not isLater notWaiting, same.openRequests, ← past, ← pending]
    rfl
  · rw [same.deferredHashes]
    exact invariant.distinct
  · intro other isOther isRequestLater
    obtain rfl := Option.some.inj (isLater.symm.trans isOther)
    rw [same.deferredHashes, applies.purpose]
    exact invariant.apart view isUpdate isRequest
  · rw [same.deferredHashes]
    exact invariant.known
  · rw [same.catchingUp]
    exact invariant.target
  · intro _ _ _ _
    rw [same.catchingUp, caughtUp]

theorem published_of_idle (isIdle : flatDrive.task = none)
    (transaction : PublishedModificationApprovalTransactionInfo) :
    flatDrive.onApprovalTransactionHasBeenPublished transaction =
      FlatDrive.runNextTask { flatDrive with
        catchingUpRequest := some ⟨transaction.rootHash, transaction.modifyTransactionHash⟩ } := by
  simp only [onApprovalTransactionHasBeenPublished, isIdle]

/-- What an approval requires of the update it comes to. -/
def TakesApproval (flatDrive : FlatDrive) : Prop :=
  ∀ view ∈ flatDrive.update?, view.purpose.isRequest = true → view.IsRunning →
    view.received = true → ¬ view.IsApproved

theorem LedgerInvariant.published_of_task (invariant : flatDrive.LedgerInvariant ledger)
    (going : flatDrive.IsGoing) {task : DriveTask} (isTask : flatDrive.task = some task)
    {transaction : PublishedModificationApprovalTransactionInfo}
    (member : transaction.modifyTransactionHash ∈ ledger.pendingHashes)
    (keeps : task.dropsApprovals = false) (takes : flatDrive.TakesApproval)
    (fits : ∀ view, flatDrive.update? = some view → view.expected + view.purpose.size < 2 ^ 64) :
    (flatDrive.onApprovalTransactionHasBeenPublished transaction).LedgerInvariant
      (ledger.approve transaction.modifyTransactionHash) := by
  let target : CatchingUpRequest := ⟨transaction.rootHash, transaction.modifyTransactionHash⟩
  have isRequest_of (answer : (task.onApprovalTxPublished transaction).2 = false) :=
    DriveTask.isRequest_of_answer answer keeps
  rw [published_of_some isTask]
  rcases task.onApprovalTxPublished_cases transaction with
    ⟨view, later, isView, isLater, published⟩ | ⟨noUpdate, kept⟩
  · have isUpdate : flatDrive.update? = some view := (update?_of_task isTask).trans isView
    have accounts := invariant.running view isUpdate
    have isLaterUpdate (catchingUpRequest : Option CatchingUpRequest) : FlatDrive.update?
        { flatDrive with
          task := some (task.onApprovalTxPublished transaction).1
          catchingUpRequest } = some later := isLater
    -- the views that do not wait for an approval
    have queued (notWaiting : ¬ view.IsWaiting)
        (answer : (task.onApprovalTxPublished transaction).2 = true)
        (running : ∀ more, later.Accounts (ledger.total + more)
          (requestedSize flatDrive.dueRequests + more))
        (apart : later.purpose.isRequest = true → ¬ later.IsRunning ∧
          later.purpose = view.purpose) :
        LedgerInvariant { flatDrive with
          task := some (task.onApprovalTxPublished transaction).1
          catchingUpRequest := some ⟨transaction.rootHash, transaction.modifyTransactionHash⟩ }
          (ledger.approve transaction.modifyTransactionHash) := by
      refine invariant.approve_open going (waitingRequest_of_not isUpdate notWaiting) target rfl rfl
        member ?_ ?_
      · intro other isOther more
        obtain rfl := Option.some.inj (isLater.symm.trans isOther)
        refine ⟨running more, ?_⟩
        intro isRequest
        obtain ⟨ended, samePurpose⟩ := apart isRequest
        rw [samePurpose] at isRequest ⊢
        exact ⟨ended, invariant.apart view isUpdate isRequest⟩
      · intro noUpdate
        have stillNone : (task.onApprovalTxPublished transaction).1.update? = none := noUpdate
        simp [isLater] at stillNone
    cases answer : (task.onApprovalTxPublished transaction).2 with
    | false =>
        rw [if_neg (by simp)]
        rw [answer] at published
        cases published with
        | applied request serves applies =>
            have isRequest : view.purpose.isRequest = true := by rw [serves]; rfl
            have waiting : view.IsWaiting := by
              refine invariant.isWaiting_of_pending going isUpdate isRequest ?_
              rw [applies.about]
              exact member
            exact invariant.approve_applied going isUpdate (isLaterUpdate _) applies waiting
              ⟨rfl, rfl⟩
        | dropped modification isFollowed =>
            obtain ⟨other, isOther, isRequest⟩ := isRequest_of answer
            obtain rfl := Option.some.inj (isView.symm.trans isOther)
            simp [isFollowed, UpdatePurpose.isRequest] at isRequest
    | true =>
        rw [if_pos rfl]
        rw [answer] at published
        cases published with
        | ignored ended same =>
            subst same
            refine queued (fun waiting => ended waiting.2.1) answer ?_ fun _ => ⟨ended, rfl⟩
            intro more
            exact accounts.addDue fun _ => ended
        | broken request serves breaks =>
            have isRequest : view.purpose.isRequest = true := by rw [serves]; rfl
            by_cases waiting : view.IsWaiting
            · exact invariant.approve_broken going isUpdate (isLaterUpdate _) breaks waiting target rfl
                rfl member (fits view isUpdate)
            · have received : view.received = true := by
                by_contra unreceived
                exact waiting ⟨isRequest, breaks.running, by simpa using unreceived⟩
              refine queued waiting answer ?_ fun _ =>
                ⟨by simp [UpdateView.IsRunning, breaks.interrupted], breaks.purpose⟩
              intro more
              have broken := accounts.breaks breaks isRequest
                (takes view isUpdate isRequest breaks.running) (fits view isUpdate) more
              rw [if_pos received] at broken
              have noDue := accounts.noDue isRequest breaks.running
              rw [noDue, Nat.zero_add]
              exact broken
        | superseded modification isFollowed interrupts =>
            have isNoRequest : ¬ view.purpose.isRequest = true := by
              simp [isFollowed, UpdatePurpose.isRequest]
            have ended := accounts.interrupts interrupts fun isRequest =>
              absurd isRequest isNoRequest
            refine queued (fun waiting => isNoRequest waiting.1) answer ?_ ?_
            · intro more
              refine ended.addDue fun _ => ?_
              simp [UpdateView.IsRunning, interrupts.base.interrupted]
            · intro isRequest
              rw [interrupts.purpose] at isRequest
              exact absurd isRequest isNoRequest
  · have answer : (task.onApprovalTxPublished transaction).2 = true := by
      by_contra unanswered
      obtain ⟨view, isView, -⟩ := isRequest_of (by simpa using unanswered)
      simp [noUpdate] at isView
    rw [if_pos answer]
    cases kept with
    | update isBefore => simp [noUpdate] at isBefore
    | other _ stillNone opinionController =>
        have noUpdateHere : flatDrive.update? = none := (update?_of_task isTask).trans noUpdate
        refine invariant.approve_open going (waitingRequest_of_none noUpdateHere) target rfl rfl
          member ?_ ?_
        · intro later isLater
          have isView : (task.onApprovalTxPublished transaction).1.update? = some later := isLater
          simp [stillNone] at isView
        · intro _
          obtain ⟨_, renamed⟩ := opinionController
          have same := congrArg ModifyOpinionController.approvedExpectedCumulativeDownload renamed
          rw [← invariant.other noUpdateHere, expected, expected, drive_of_task isTask]
          exact congrArg (· + _) same

/-! ## Initializations, cancellations, closures and manual modifications -/

/-- The cancellations that are left to the end of the initialization concern the
    modification whose uploads are not approved. -/
theorem cancelAll_initialized (flatDrive : FlatDrive) {task : InitializeDriveTask}
    (initialized : task.initialized = true) (requests : List ModificationCancelRequest)
    (about : ∀ request ∈ requests,
      task.drive.opinionController.notApprovedModificationId = request.modifyTransactionHash)
    (isTask : flatDrive.task = some (.initialization task)) :
    ∃ modificationCancelRequest movedRequestIsRead,
      requests.foldl cancelModifyDrive flatDrive =
        { flatDrive with modificationCancelRequest, movedRequestIsRead } := by
  induction requests generalizing flatDrive with
  | nil => exact ⟨_, _, rfl⟩
  | cons request requests ih =>
      have here : flatDrive.cancelModifyDrive request =
          { flatDrive with
            modificationCancelRequest := some request
            movedRequestIsRead := !flatDrive.deferredModificationRequests.isEmpty } := by
        have should : task.shouldCancelModify request = (task, true) := by
          rw [InitializeDriveTask.shouldCancelModify, if_pos initialized,
            about request List.mem_cons_self, decide_eq_true rfl]
        simp only [cancelModifyDrive, isTask, DriveTask.shouldCancelModify, should, if_true]
      rw [List.foldl_cons, here]
      obtain ⟨cancelRequest, moved, later⟩ := ih
        { flatDrive with
          modificationCancelRequest := some request
          movedRequestIsRead := !flatDrive.deferredModificationRequests.isEmpty }
        (fun other member => about other (List.mem_cons_of_mem _ member)) isTask
      exact ⟨cancelRequest, moved, later⟩

variable (flatDrive) in
theorem onInitialized_eq (task : InitializeDriveTask) :
    ∃ (drive : DriveParams) (cancelled : List ModificationCancelRequest),
      flatDrive.onInitialized task = cancelled.foldl cancelModifyDrive
      { flatDrive with
        task := some (.initialization
          { task with drive, initialized := true, phase := .clearSandbox }) } ∧
      task.drive.SameUploads drive ∧
      ∀ request ∈ cancelled,
        drive.opinionController.notApprovedModificationId = request.modifyTransactionHash := by
  refine ⟨_, _, rfl, ?_, ?_⟩
  · cases task.singleTx <;> exact ⟨rfl, rfl⟩
  · intro request member
    rcases List.mem_append.mp member with own | completed
    · have about := (List.mem_filter.mp own).2
      exact (of_decide_eq_true about).symm
    · split at completed
      · rename_i modification found
        have about := List.find?_some found
        split at completed
        · obtain rfl := List.mem_singleton.mp completed
          exact (of_decide_eq_true about).symm
        · simp at completed
      · simp at completed

variable (flatDrive) in
theorem onInitialized_cases (task : InitializeDriveTask) :
    ∃ next, (flatDrive.onInitialized task).task = some next ∧
      DriveTask.Keeps (.initialization task) next ∧
      SameRequests flatDrive (flatDrive.onInitialized task) ∧
      (flatDrive.onInitialized task).closeDriveRequest = flatDrive.closeDriveRequest := by
  obtain ⟨drive, cancelled, isFold, same, about⟩ := flatDrive.onInitialized_eq task
  obtain ⟨cancelRequest, moved, folded⟩ := cancelAll_initialized
    { flatDrive with
      task := some (.initialization
        { task with drive, initialized := true, phase := .clearSandbox }) } rfl cancelled about rfl
  rw [isFold, folded]
  exact ⟨_, rfl, .other rfl rfl (.of_eq same.opinionController) same.stopped rfl, ⟨rfl, rfl⟩,
    rfl⟩

/-- The next step of a task that does not update the drive: the next task, or the same one. -/
theorem advance_cases {task : DriveTask} (isTask : flatDrive.task = some task)
    (step : flatDrive.advance task = some after) :
    (task.update? = none ∧ task.isClosure = false ∧ after = flatDrive.runNextTask) ∨
    ∃ next, after.task = some next ∧ task.Keeps next ∧ SameRequests flatDrive after ∧
      after.closeDriveRequest = flatDrive.closeDriveRequest := by
  cases task with
  | initialization task =>
      unfold FlatDrive.advance at step
      simp only at step
      split at step
      · simp at step
      · obtain rfl := Option.some.inj step
        exact .inr (flatDrive.onInitialized_cases task)
      · obtain rfl := Option.some.inj step
        exact .inr ⟨_, rfl, .other rfl rfl (.of_eq rfl) rfl rfl, ⟨rfl, rfl⟩, rfl⟩
      · obtain rfl := Option.some.inj step
        exact .inl ⟨rfl, rfl, rfl⟩
  | cancellation task =>
      unfold FlatDrive.advance at step
      simp only at step
      split at step
      · obtain rfl := Option.some.inj step
        exact .inl ⟨rfl, rfl, rfl⟩
      · obtain rfl := Option.some.inj step
        have same := task.sameUploads_advance
        exact .inr ⟨_, rfl, .other rfl rfl (.of_eq same.opinionController) same.stopped rfl,
          ⟨rfl, rfl⟩, rfl⟩
  | closure task =>
      unfold FlatDrive.advance at step
      simp only at step
      split at step
      · obtain rfl := Option.some.inj step
        exact .inr ⟨_, isTask, .refl _, ⟨rfl, rfl⟩, rfl⟩
      · obtain rfl := Option.some.inj step
        refine .inr ⟨_, rfl, .other rfl rfl (.of_eq ?_) ?_ rfl, ⟨rfl, rfl⟩, rfl⟩
        · unfold CloseDriveDriveTask.advance
          split <;> rfl
        · unfold CloseDriveDriveTask.advance
          split <;> rfl
  | modification | stream | synchronization | manualModification => simp [FlatDrive.advance] at step

theorem manual_cases {task : DriveTask} {event : ManualEvent}
    (step : flatDrive.manual event task = some after) :
    (task.update? = none ∧ task.isClosure = false ∧ after = flatDrive.runNextTask) ∨
    ∃ next, after.task = some next ∧ task.Keeps next ∧ SameRequests flatDrive after ∧
      after.closeDriveRequest = flatDrive.closeDriveRequest := by
  cases task with
  | manualModification task =>
      unfold FlatDrive.manual at step
      simp only at step
      split at step
      · obtain rfl := Option.some.inj step
        exact .inl ⟨rfl, rfl, rfl⟩
      · obtain ⟨later, stepped, rfl⟩ := Option.map_eq_some_iff.mp step
        have same := ManualModificationsTask.renames_handle stepped
        exact .inr ⟨_, rfl, .other rfl rfl same.1 same.2 rfl, ⟨rfl, rfl⟩, rfl⟩
  | initialization | modification | stream | synchronization | cancellation | closure =>
      simp [FlatDrive.manual] at step

/-! ## A drive that is over -/

/-- The drive is over, and will not catch up with an approval any more. -/
structure IsGivenUp (flatDrive : FlatDrive) : Prop where
  isOver : ¬ flatDrive.IsGoing
  owing : flatDrive.catchingUpRequest.isSome = true

theorem IsGivenUp.keep (givenUp : flatDrive.IsGivenUp)
    (catchingUp : after.catchingUpRequest = flatDrive.catchingUpRequest)
    (going : after.IsGoing → flatDrive.IsGoing) : after.IsGivenUp where
  isOver := fun goingLater => givenUp.isOver (going goingLater)
  owing := by
    rw [catchingUp]
    exact givenUp.owing

theorem isGivenUp_of_closing {request : DriveClosureRequest}
    (closing : flatDrive.closeDriveRequest = some request)
    (owing : flatDrive.catchingUpRequest.isSome = true) : flatDrive.runFirstRequest.IsGivenUp := by
  have closes : flatDrive.runFirstRequest = flatDrive.runCloseDriveTask request := by
    simp only [FlatDrive.runFirstRequest, closing]
  rw [closes]
  refine ⟨?_, owing⟩
  intro going
  exact absurd going.notClosed (by simp [FlatDrive.runCloseDriveTask, DriveTask.isClosure])

theorem IsGivenUp.runNextTask (givenUp : flatDrive.IsGivenUp) (isOpen : flatDrive.IsOpenTask)
    (unbroken : flatDrive.movedRequestIsRead = false) : flatDrive.runNextTask.IsGivenUp := by
  unfold FlatDrive.runNextTask
  split
  · exact givenUp
  · rename_i notStopped
    have notClosed : flatDrive.task.any (·.isClosure) = false := by
      cases isTask : flatDrive.task with
      | none => rfl
      | some task => exact isOpen task isTask
    obtain ⟨request, closing⟩ : ∃ request, flatDrive.closeDriveRequest = some request := by
      rw [← Option.ne_none_iff_exists']
      intro notClosing
      exact givenUp.isOver ⟨notClosing, notClosed, by simpa using notStopped, unbroken⟩
    exact isGivenUp_of_closing closing givenUp.owing

theorem IsGivenUp.runNextTaskIfIdle (givenUp : flatDrive.IsGivenUp)
    (unbroken : flatDrive.movedRequestIsRead = false) : flatDrive.runNextTaskIfIdle.IsGivenUp := by
  unfold FlatDrive.runNextTaskIfIdle
  split
  · rename_i isIdle
    refine givenUp.runNextTask ?_ unbroken
    intro task isTask
    simp [isTask] at isIdle
  · exact givenUp

theorem isGoing_of_responds {task next : DriveTask} (isTask : flatDrive.task = some task)
    (isNext : after.task = some next) (responds : task.Responds next)
    (closing : after.closeDriveRequest = none → flatDrive.closeDriveRequest = none)
    (broken : after.movedRequestIsRead = false → flatDrive.movedRequestIsRead = false)
    (going : after.IsGoing) : flatDrive.IsGoing := by
  cases responds with
  | keeps keeps => exact isGoing_of_keeps isTask isNext keeps closing broken going
  | interrupts isBefore isAfter interrupts =>
      exact isGoing_of_update isTask isNext isBefore isAfter interrupts.base.stopped closing broken
        going

theorem isGoing_of_published (going : after.IsGoing) {task : DriveTask}
    (isTask : flatDrive.task = some task)
    (transaction : PublishedModificationApprovalTransactionInfo)
    (isNext : after.task = some (task.onApprovalTxPublished transaction).1)
    (closing : after.closeDriveRequest = flatDrive.closeDriveRequest)
    (broken : after.movedRequestIsRead = flatDrive.movedRequestIsRead) : flatDrive.IsGoing := by
  rcases task.onApprovalTxPublished_cases transaction with
    ⟨view, later, isView, isLater, published⟩ | ⟨-, keeps⟩
  · exact isGoing_of_update isTask isNext isView isLater published.stopped
      (fun none => closing ▸ none) (fun none => broken ▸ none) going
  · exact isGoing_of_keeps isTask isNext keeps (fun none => closing ▸ none)
      (fun none => broken ▸ none) going

theorem IsGivenUp.cancelModifyDrive (givenUp : flatDrive.IsGivenUp)
    (unbroken : flatDrive.movedRequestIsRead = false) (request : ModificationCancelRequest) :
    (flatDrive.cancelModifyDrive request).IsGivenUp := by
  cases isTask : flatDrive.task with
  | none =>
      rw [cancelModifyDrive_of_idle isTask]
      exact givenUp.keep rfl fun going =>
        ⟨going.notClosing, going.notClosed, going.notStopped, going.notBroken⟩
  | some task =>
      have responds : task.Responds (task.shouldCancelModify request).1 := by
        rcases task.shouldCancelModify_cases request with
          ⟨keeps, -⟩ | ⟨-, view, later, isView, isLater, interrupts, -⟩
        · exact .keeps keeps
        · exact .interrupts isView isLater interrupts
      rw [cancelModifyDrive_of_task isTask]
      split
      · exact givenUp.keep rfl
          (isGoing_of_responds isTask rfl responds (fun none => none) fun _ => unbroken)
      · exact givenUp.keep rfl
          (isGoing_of_responds isTask rfl responds (fun none => none) fun _ => unbroken)

/-- An approval that comes to a drive that is over is caught up with at most. -/
theorem isGivenUp_of_published (isOver : ¬ flatDrive.IsGoing)
    (unbroken : flatDrive.movedRequestIsRead = false)
    {transaction : PublishedModificationApprovalTransactionInfo}
    (owing : ∀ task, flatDrive.task = some task →
      (task.onApprovalTxPublished transaction).2 = false →
        flatDrive.catchingUpRequest.isSome = true) :
    (flatDrive.onApprovalTransactionHasBeenPublished transaction).IsGivenUp := by
  cases isTask : flatDrive.task with
  | none =>
      rw [published_of_idle isTask]
      have asked : IsGivenUp { flatDrive with
          catchingUpRequest := some ⟨transaction.rootHash, transaction.modifyTransactionHash⟩ } :=
        ⟨fun going => isOver ⟨going.notClosing, going.notClosed, going.notStopped, going.notBroken⟩,
          rfl⟩
      refine asked.runNextTask ?_ unbroken
      intro task isNext
      simp [isTask] at isNext
  | some task =>
      rw [published_of_some isTask]
      split
      · exact ⟨fun going => isOver (isGoing_of_published going isTask transaction rfl rfl rfl), rfl⟩
      · rename_i answer
        refine ⟨fun going => isOver (isGoing_of_published going isTask transaction rfl rfl rfl), ?_⟩
        exact owing task isTask (by simpa using answer)

def NoneRuns (flatDrive : FlatDrive) : Prop := ∀ view ∈ flatDrive.update?, ¬ view.IsRunning

theorem LedgerInvariant.published (invariant : flatDrive.LedgerInvariant ledger)
    (unbroken : flatDrive.movedRequestIsRead = false)
    {transaction : PublishedModificationApprovalTransactionInfo}
    (member : transaction.modifyTransactionHash ∈ ledger.pendingHashes)
    (keeps : flatDrive.task.any (·.dropsApprovals) = false) (takes : flatDrive.TakesApproval)
    (rests : flatDrive.IsGoing ∨ flatDrive.NoneRuns)
    (fits : flatDrive.Fits (.approvalTransactionPublished transaction)) :
    (flatDrive.onApprovalTransactionHasBeenPublished transaction).IsGivenUp ∨
      (flatDrive.onApprovalTransactionHasBeenPublished transaction).LedgerInvariant
        (ledger.approve transaction.modifyTransactionHash) := by
  have keeps_of {task : DriveTask} (isTask : flatDrive.task = some task) :
      task.dropsApprovals = false := by
    rwa [isTask, Option.any_some] at keeps
  by_cases going : flatDrive.IsGoing
  · right
    cases isTask : flatDrive.task with
    | some task =>
        refine invariant.published_of_task going isTask member (keeps_of isTask) takes ?_
        intro view isUpdate
        exact fits.update isTask ((update?_of_task isTask).symm.trans isUpdate)
    | none =>
        have noUpdate : flatDrive.update? = none := by rw [update?, isTask, Option.bind_none]
        have asked : LedgerInvariant { flatDrive with
            catchingUpRequest := some ⟨transaction.rootHash, transaction.modifyTransactionHash⟩ }
            (ledger.approve transaction.modifyTransactionHash) := by
          refine invariant.approve_open going (waitingRequest_of_none noUpdate)
            ⟨transaction.rootHash, transaction.modifyTransactionHash⟩ rfl rfl member ?_ ?_
          · intro later isLater
            have isUpdate : flatDrive.update? = some later := isLater
            simp [noUpdate] at isUpdate
          · intro _
            exact invariant.other noUpdate
        rw [published_of_idle isTask]
        refine asked.runNextTask ?_ ?_ ?_
        · intro task isNext
          simp [isTask] at isNext
        · intro view isView
          have isUpdate : flatDrive.update? = some view := isView
          simp [noUpdate] at isUpdate
        · exact fits.deferred
  · left
    refine isGivenUp_of_published going unbroken ?_
    intro task isTask answer
    obtain ⟨view, isView, isRequest⟩ := DriveTask.isRequest_of_answer answer (keeps_of isTask)
    have ended := (rests.resolve_left going) view ((update?_of_task isTask).trans isView)
    rcases task.onApprovalTxPublished_cases transaction with
      ⟨other, later, isOther, -, published⟩ | ⟨noUpdate, -⟩
    · obtain rfl := Option.some.inj (isView.symm.trans isOther)
      rw [answer] at published
      cases published with
      | applied _ _ applies => exact absurd applies.running ended
      | dropped modification isFollowed =>
          simp [isFollowed, UpdatePurpose.isRequest] at isRequest
    · simp [noUpdate] at isView

/-! ## Cancelled requests -/

theorem LedgerInvariant.erase (invariant : flatDrive.LedgerInvariant ledger)
    {transactionHash : Hash256} (member : transactionHash ∈ ledger.pendingHashes)
    (owes : flatDrive.IsGoing ∨ flatDrive.catchingUpRequest = none)
    (apart : ∀ view, flatDrive.update? = some view → view.IsWaiting →
      view.purpose.modification ≠ transactionHash) :
    LedgerInvariant
      { flatDrive with
        deferredModificationRequests :=
          flatDrive.deferredModificationRequests.eraseP (·.transactionHash = transactionHash) }
      { ledger with pending := ledger.pending.eraseP (·.transactionHash = transactionHash) } := by
  have others : ∀ request ∈ flatDrive.waitingRequest, request.transactionHash ≠ transactionHash := by
    intro request isWaiting
    unfold waitingRequest at isWaiting
    split at isWaiting
    · rename_i view isUpdate
      split at isWaiting
      · rename_i waiting
        cases purpose : view.purpose with
        | serves served =>
            rw [purpose] at isWaiting
            obtain rfl := List.mem_singleton.mp isWaiting
            have other := apart view isUpdate waiting
            rwa [purpose] at other
        | follows modification => simp [purpose, UpdatePurpose.requests] at isWaiting
      · simp at isWaiting
    · simp at isWaiting
  have isOpen (going : flatDrive.IsGoing) :
      transactionHash ∈ flatDrive.openRequests.map DeferredRequest.transactionHash := by
    rw [ApprovalLedger.pendingHashes, invariant.pending going, List.map_append, List.mem_append]
      at member
    refine member.resolve_left ?_
    intro isWaiting
    obtain ⟨request, isRequest, isHash⟩ := List.mem_map.mp isWaiting
    exact others request isRequest isHash
  have cut : dueRequests
        { flatDrive with
          deferredModificationRequests :=
            flatDrive.deferredModificationRequests.eraseP (·.transactionHash = transactionHash) } =
        flatDrive.dueRequests ∧
      openRequests
        { flatDrive with
          deferredModificationRequests :=
            flatDrive.deferredModificationRequests.eraseP (·.transactionHash = transactionHash) } =
        flatDrive.openRequests.eraseP (·.transactionHash = transactionHash) := by
    unfold dueRequests openRequests at *
    cases isTarget : flatDrive.catchingUpRequest with
    | none => exact ⟨rfl, rfl⟩
    | some target =>
        have going : flatDrive.IsGoing := owes.resolve_right (by simp [isTarget])
        have isPast := isOpen going
        simp only [isTarget] at isPast
        exact List.cut_eraseP (f := DeferredRequest.transactionHash) invariant.distinct isPast
  obtain ⟨due, left⟩ := cut
  have subset : (deferredHashes
      { flatDrive with
        deferredModificationRequests :=
          flatDrive.deferredModificationRequests.eraseP (·.transactionHash = transactionHash) }).Sublist
      flatDrive.deferredHashes :=
    List.eraseP_sublist.map _
  refine ⟨?_, ?_, ?_, subset.nodup invariant.distinct, ?_, ?_, invariant.target, invariant.caughtUp⟩
  · intro view isView
    rw [due]
    exact invariant.running view isView
  · intro noUpdate
    rw [due]
    exact invariant.other noUpdate
  · intro going
    have before := invariant.pending ⟨going.notClosing, going.notClosed, going.notStopped,
      going.notBroken⟩
    have noneWaiting : ∀ request ∈ flatDrive.waitingRequest,
        ¬ decide (request.transactionHash = transactionHash) = true := by
      intro request isRequest
      simpa using others request isRequest
    rw [left]
    refine Eq.trans ?_ (List.eraseP_append_right _ noneWaiting)
    exact congrArg (List.eraseP _) before
  · intro view isView isRequest
    obtain ⟨absent, known⟩ := invariant.apart view isView isRequest
    exact ⟨fun isDeferred => absent (subset.subset isDeferred), known⟩
  · intro hash isDeferred
    exact invariant.known hash (subset.subset isDeferred)

/-- The request that is being served is cancelled, or one that the running task knows. -/
theorem LedgerInvariant.cancelRunning (invariant : flatDrive.LedgerInvariant ledger)
    (unbroken : flatDrive.movedRequestIsRead = false) {request : ModificationCancelRequest}
    (member : request.modifyTransactionHash ∈ ledger.pendingHashes)
    (rests : flatDrive.IsGoing ∨ flatDrive.NoneRuns) {task : DriveTask}
    (isTask : flatDrive.task = some task) (answer : (task.shouldCancelModify request).2 = true)
    (isNext : after.task = some (task.shouldCancelModify request).1)
    (same : SameRequests flatDrive after)
    (closing : after.closeDriveRequest = flatDrive.closeDriveRequest)
    (broken : after.movedRequestIsRead = !flatDrive.deferredModificationRequests.isEmpty) :
    after.LedgerInvariant { ledger with
      pending := ledger.pending.eraseP (·.transactionHash = request.modifyTransactionHash) } := by
  rcases task.shouldCancelModify_cases request with
    ⟨keeps, leaves⟩ | ⟨-, view, later, isView, isLater, interrupts, about, isRequest⟩
  · have kept := invariant.keeps same isTask isNext keeps (fun none => closing ▸ none)
      fun _ => unbroken
    refine kept.repend ?_
    intro going
    have nothingDeferred : flatDrive.deferredModificationRequests = [] := by
      have notBroken := going.notBroken
      rw [broken] at notBroken
      simpa using notBroken
    have nothingOpen : after.openRequests = [] := by
      have subset : after.openRequests.Sublist after.deferredModificationRequests :=
        openRequests_sublist
      rw [same.deferred, nothingDeferred] at subset
      exact List.sublist_nil.mp subset
    have noneWaiting : after.waitingRequest = [] := by
      cases keeps with
      | update isBefore isAfter goesOn =>
          refine waitingRequest_of_not ((update?_of_task isNext).trans isAfter) ?_
          rintro ⟨isRequest, -, -⟩
          rw [goesOn.purpose] at isRequest
          have unanswered := (leaves _ isBefore isRequest).1
          simp [answer] at unanswered
      | other _ stillNone => exact waitingRequest_of_none ((update?_of_task isNext).trans stillNone)
    have nothing : ledger.pending = [] := by
      rw [kept.pending going, noneWaiting, nothingOpen, List.nil_append]
    simp [ApprovalLedger.pendingHashes, nothing] at member
  · have isUpdate : flatDrive.update? = some view := (update?_of_task isTask).trans isView
    have going : flatDrive.IsGoing := by
      refine rests.resolve_right ?_
      intro ended
      exact ended view isUpdate interrupts.running
    have waiting : view.IsWaiting :=
      invariant.isWaiting_of_pending going isUpdate isRequest (about ▸ member)
    obtain ⟨served, serves, pending⟩ := invariant.pending_of_waiting going isUpdate waiting
    have isLaterUpdate : after.update? = some later := (update?_of_task isNext).trans isLater
    have accounts := (invariant.running view isUpdate).interrupts interrupts
      (by simp [waiting.2.2])
    refine invariant.replace same isUpdate isLaterUpdate interrupts.purpose
      (fun _ => interrupts.running) accounts ?_
    intro _
    have isServed : served.transactionHash = request.modifyTransactionHash := by
      rw [← about, serves]
      rfl
    have ended : ¬ later.IsWaiting := by
      rintro ⟨-, isRunning, -⟩
      simp [UpdateView.IsRunning, interrupts.base.interrupted] at isRunning
    rw [waitingRequest_of_not isLaterUpdate ended, pending, List.eraseP_cons_of_pos (by simpa)]
    rfl

theorem LedgerInvariant.cancelModifyDrive (invariant : flatDrive.LedgerInvariant ledger)
    (unbroken : flatDrive.movedRequestIsRead = false) {request : ModificationCancelRequest}
    (member : request.modifyTransactionHash ∈ ledger.pendingHashes)
    (owes : flatDrive.IsGoing ∨ flatDrive.catchingUpRequest = none)
    (rests : flatDrive.IsGoing ∨ flatDrive.NoneRuns) :
    (flatDrive.cancelModifyDrive request).LedgerInvariant
      { ledger with
        pending := ledger.pending.eraseP (·.transactionHash = request.modifyTransactionHash) } := by
  cases isTask : flatDrive.task with
  | none =>
      rw [cancelModifyDrive_of_idle isTask]
      refine invariant.erase member owes ?_
      intro view isUpdate
      simp [update?, isTask] at isUpdate
  | some task =>
      rw [cancelModifyDrive_of_task isTask]
      split
      · rename_i answer
        exact invariant.cancelRunning unbroken member rests isTask answer rfl ⟨rfl, rfl⟩ rfl rfl
      · rename_i answer
        obtain ⟨keeps, leaves⟩ := (task.shouldCancelModify_cases request).resolve_right
          fun cancels => answer cancels.1
        have erased := invariant.erase member owes (by
          intro view isUpdate waiting
          have isView : task.update? = some view := (update?_of_task isTask).symm.trans isUpdate
          exact (leaves view isView waiting.1).2 waiting.2.1)
        exact erased.keeps ⟨rfl, rfl⟩ isTask rfl keeps (fun none => none) fun none => none

end FlatDrive

end SiriusDrive
