import SiriusDrive.FlatDrive.Uploads
import SiriusDrive.Lib.QueuePrefix

/-! # What has been approved

A ledger keeps from outside what has been requested of a drive and what of it has been
approved. What a running update expects compares with the total of the ledger in one of
a few ways, which the events of the drive lead from one to another.
-/

namespace SiriusDrive

open ModifyOpinionController (approvedExpected_increase)

/-! ## The ledger -/

/-- What has been requested of a drive, and what of it has been approved. -/
structure ApprovalLedger where
  /-- What was expected when the drive was created. -/
  initial : Nat
  /-- The hashes of all requests. -/
  known : List Hash256 := []
  /-- The requests that are neither approved nor cancelled, in their order. -/
  pending : List DeferredRequest := []
  /-- The limits of the approved requests. -/
  approvedSize : Nat := 0

namespace ApprovalLedger

variable (ledger : ApprovalLedger)

def total : Nat := ledger.initial + ledger.approvedSize

def add (request : DeferredRequest) : ApprovalLedger :=
  { ledger with
    known := request.transactionHash :: ledger.known
    pending := ledger.pending ++ [request] }

/-- An approval is one of all pending requests up to its own. -/
def approve (transactionHash : Hash256) : ApprovalLedger :=
  { ledger with
    pending := ledger.pending.past DeferredRequest.transactionHash transactionHash
    approvedSize := ledger.approvedSize +
      requestedSize (ledger.pending.upTo DeferredRequest.transactionHash transactionHash) }

def record : DriveEvent → ApprovalLedger
  | .startModifyDrive request => ledger.add (.modification request)
  | .startStream request => ledger.add (.stream request)
  | .cancelModifyDrive request =>
      { ledger with
        pending := ledger.pending.eraseP (·.transactionHash = request.modifyTransactionHash) }
  | .approvalTransactionPublished transaction => ledger.approve transaction.modifyTransactionHash
  | _ => ledger

def pendingHashes : List Hash256 := ledger.pending.map (·.transactionHash)

end ApprovalLedger

/-! ## The running update -/

namespace UpdateView

variable (view : UpdateView)

def expected : Nat := view.opinionController.approvedExpectedCumulativeDownload

def uploaded : Nat := view.opinionController.notApprovedSum

/-- The uploads have been approved for this update. -/
def IsApproved : Prop :=
  view.opinionController.approvedCumulativeUploads.modificationId = view.purpose.modification

instance : Decidable view.IsApproved := inferInstanceAs (Decidable (_ = _))

/-- The uploads that are counted are those of the update. -/
def CountedFor : Prop :=
  view.opinionController.notApprovedModificationId = view.purpose.modification

/-- The update serves a request, has not been interrupted and no approval has come yet. -/
def IsWaiting : Prop :=
  view.purpose.isRequest = true ∧ view.IsRunning ∧ view.received = false

instance : Decidable view.IsWaiting := inferInstanceAs (Decidable (_ ∧ _ ∧ _))

/-- How what an update expects compares with a total. `due` is the part of the total that
    the drive adds when it catches up. -/
inductive Accounts (total due : Nat) : Prop
  | follows (modification : Hash256) (isFollowed : view.purpose = .follows modification)
      (sum : view.expected + due = total)
      (counted : view.base.IsCounted → view.uploaded ≤ view.expected)
  | interrupted (request : DeferredRequest) (isRequest : view.purpose = .serves request)
      (ended : ¬ view.IsRunning) (sum : view.expected + due = total)
      (counted : view.received = true → view.base.IsCounted → view.uploaded ≤ view.expected)
      (unstarted : view.received = false → ¬ view.base.HasStage .synchronization)
  /-- Nothing has been approved yet. -/
  | waits (request : DeferredRequest) (isRequest : view.purpose = .serves request)
      (running : view.IsRunning) (unreceived : view.received = false)
      (sum : view.expected = total) (noDue : due = 0)
      (counted : view.base.IsCounted →
        view.uploaded = view.expected + view.purpose.size ∧ view.CountedFor)
      (unstarted : ¬ view.base.HasStage .synchronization) (going : ¬ view.base.IsEnding)
  /-- The request has been approved, but not its uploads. -/
  | unapproved (request : DeferredRequest) (isRequest : view.purpose = .serves request)
      (running : view.IsRunning) (received : view.received = true)
      (sum : view.expected + view.purpose.size = total) (noDue : due = 0)
      (counted : view.base.IsCounted →
        view.uploaded = view.expected + view.purpose.size ∧ view.CountedFor)
      (going : ¬ view.base.IsEnding)
  | approved (request : DeferredRequest) (isRequest : view.purpose = .serves request)
      (running : view.IsRunning) (received : view.received = true)
      (sum : view.expected = total) (noDue : due = 0)
      (covered : view.uploaded ≤ view.expected) (isApproved : view.IsApproved)
      (counted : view.base.IsCounted → view.CountedFor)

variable {view} {later : UpdateView} {total due : Nat}

theorem Accounts.goesOn (accounts : view.Accounts total due) (goesOn : view.GoesOn later) :
    later.Accounts total due := by
  have same : later.opinionController = view.opinionController := goesOn.base.opinionController
  have expected : later.expected = view.expected := by rw [expected, expected, same]
  have uploaded : later.uploaded = view.uploaded := by rw [uploaded, uploaded, same]
  have countedFor : later.CountedFor ↔ view.CountedFor := by
    rw [CountedFor, CountedFor, same, goesOn.purpose]
  have isApproved : later.IsApproved ↔ view.IsApproved := by
    rw [IsApproved, IsApproved, same, goesOn.purpose]
  have running : later.IsRunning ↔ view.IsRunning := by
    rw [IsRunning, IsRunning, goesOn.base.interrupted]
  have unstarted (request : DeferredRequest) (isRequest : view.purpose = .serves request)
      (unreceived : view.received = false) (before : ¬ view.base.HasStage .synchronization) :
      ¬ later.base.HasStage .synchronization := by
    intro has
    rcases goesOn.base.synchronizing has with earlier | received | ⟨_, isFollowed⟩
    · exact before earlier
    · simp [unreceived] at received
    · simp [isRequest] at isFollowed
  cases accounts with
  | follows modification isFollowed sum counted =>
      refine .follows modification (goesOn.purpose.trans isFollowed) (by rwa [expected]) ?_
      intro isCounted
      rw [expected, uploaded]
      exact counted (goesOn.base.counted isCounted)
  | interrupted request isRequest ended sum counted notStarted =>
      refine .interrupted request (goesOn.purpose.trans isRequest) (by rwa [running])
        (by rwa [expected]) ?_ ?_
      · intro received isCounted
        rw [expected, uploaded]
        exact counted (goesOn.received ▸ received) (goesOn.base.counted isCounted)
      · intro unreceived
        have unreceived : view.received = false := goesOn.received ▸ unreceived
        exact unstarted request isRequest unreceived (notStarted unreceived)
  | waits request isRequest isRunning unreceived sum noDue counted notStarted going =>
      refine .waits request (goesOn.purpose.trans isRequest) (running.mpr isRunning)
        (goesOn.received.trans unreceived) (by rwa [expected]) noDue ?_
        (unstarted request isRequest unreceived notStarted) (fun ends => going (goesOn.base.ending ends))
      intro isCounted
      rw [expected, uploaded, goesOn.purpose, countedFor]
      exact counted (goesOn.base.counted isCounted)
  | unapproved request isRequest isRunning received sum noDue counted going =>
      refine .unapproved request (goesOn.purpose.trans isRequest) (running.mpr isRunning)
        (goesOn.received.trans received) (by rwa [expected, goesOn.purpose]) noDue ?_
        (fun ends => going (goesOn.base.ending ends))
      intro isCounted
      rw [expected, uploaded, goesOn.purpose, countedFor]
      exact counted (goesOn.base.counted isCounted)
  | approved request isRequest isRunning received sum noDue covered wasApproved counted =>
      refine .approved request (goesOn.purpose.trans isRequest) (running.mpr isRunning)
        (goesOn.received.trans received) (by rwa [expected]) noDue (by rwa [expected, uploaded])
        (isApproved.mpr wasApproved) ?_
      intro isCounted
      exact countedFor.mpr (counted (goesOn.base.counted isCounted))

theorem Accounts.counts (accounts : view.Accounts total due)
    (counts : UpdateDriveTaskBase.Counts view.purpose.modification view.purpose.size view.base
      later.base) (purpose : later.purpose = view.purpose) (sameReceived : later.received = view.received)
    (traffic : view.opinionController.TrafficFits view.base.drive.modifyTrafficMap
      view.base.drive.modifyDonatorShard)
    (once : view.received = true → 0 < view.purpose.size → ¬ view.IsApproved)
    (fits : view.expected + view.purpose.size < 2 ^ 64) : later.Accounts total due := by
  have updated : later.opinionController =
      view.opinionController.updateCumulativeUploads view.base.drive.modifyTrafficMap
        view.purpose.modification view.base.drive.modifyDonatorShard view.purpose.size :=
    counts.opinionController
  have expected : later.expected = view.expected := by
    rw [expected, expected, updated]
    rfl
  have uploaded : later.uploaded = view.expected + view.purpose.size := by
    rw [uploaded, updated,
      ModifyOpinionController.notApprovedSum_updateCumulativeUploads _ traffic]
    exact u64_of_lt fits
  have countedFor : later.CountedFor := by
    rw [CountedFor, updated, purpose]
    rfl
  have running : later.IsRunning := counts.interrupted
  cases accounts with
  | follows modification isFollowed sum counted =>
      refine .follows modification (purpose.trans isFollowed) (by rwa [expected]) ?_
      intro _
      rw [expected, uploaded, isFollowed]
      exact le_refl _
  | interrupted request isRequest ended => exact absurd counts.running ended
  | waits request isRequest _ unreceived sum noDue _ notStarted going =>
      refine .waits request (purpose.trans isRequest) running (sameReceived.trans unreceived)
        (by rwa [expected]) noDue ?_ ?_ (fun ends => going (counts.isEnding ends))
      · intro _
        rw [expected, uploaded, purpose]
        exact ⟨rfl, countedFor⟩
      · intro has
        exact notStarted ((counts.stages _ has).resolve_right (by simp))
  | unapproved request isRequest _ received sum noDue _ going =>
      refine .unapproved request (purpose.trans isRequest) running (sameReceived.trans received)
        (by rwa [expected, purpose]) noDue ?_ (fun ends => going (counts.isEnding ends))
      intro _
      rw [expected, uploaded, purpose]
      exact ⟨rfl, countedFor⟩
  | approved request isRequest _ received sum noDue covered wasApproved counted =>
      have sizeless : view.purpose.size = 0 := by
        by_contra positive
        exact once received (Nat.pos_of_ne_zero positive) wasApproved
      refine .approved request (purpose.trans isRequest) running (sameReceived.trans received)
        (by rwa [expected]) noDue ?_ ?_ (fun _ => countedFor)
      · rw [expected, uploaded, sizeless]
        exact le_refl _
      · rw [IsApproved, updated, purpose]
        exact wasApproved

theorem Accounts.approves (accounts : view.Accounts total due) {event : TaskEvent}
    (isApproval : view.base.ApprovesUploads event)
    (approves : UpdateDriveTaskBase.Approves view.base later.base)
    (purpose : later.purpose = view.purpose) (sameReceived : later.received = view.received) :
    later.Accounts total due := by
  have approvedController : later.opinionController =
      view.opinionController.approveCumulativeUploads := approves.opinionController
  have expected : later.expected = max view.expected view.uploaded := by
    rw [UpdateView.expected, approvedController]
    rfl
  have uploaded : later.uploaded = view.uploaded := by
    rw [UpdateView.uploaded, approvedController]
    rfl
  have countedFor : later.CountedFor ↔ view.CountedFor := by
    rw [CountedFor, CountedFor, approvedController, purpose]
    rfl
  have isApproved : later.IsApproved ↔ view.CountedFor := by
    rw [IsApproved, CountedFor, approvedController, purpose]
    rfl
  have isCounted := isApproval.isCounted
  have synchronizing : view.base.HasStage .synchronization := isApproval.hasStage
  have running : later.IsRunning ↔ view.IsRunning := by
    rw [IsRunning, IsRunning, approves.interrupted]
  cases accounts with
  | follows modification isFollowed sum counted =>
      have covered := counted isCounted
      refine .follows modification (purpose.trans isFollowed) ?_ ?_
      · rwa [expected, max_eq_left covered]
      · intro _
        rw [expected, uploaded]
        exact le_max_right _ _
  | interrupted request isRequest ended sum counted notStarted =>
      have received : view.received = true := by
        by_contra unreceived
        exact notStarted (by simpa using unreceived) synchronizing
      have covered := counted received isCounted
      refine .interrupted request (purpose.trans isRequest) (by rwa [running]) ?_ ?_ ?_
      · rwa [expected, max_eq_left covered]
      · intro _ _
        rw [expected, uploaded]
        exact le_max_right _ _
      · intro unreceived
        simp [sameReceived, received] at unreceived
  | waits request isRequest _ _ _ _ _ notStarted => exact absurd synchronizing notStarted
  | unapproved request isRequest isRunning received sum noDue counted =>
      obtain ⟨counts, isFor⟩ := counted isCounted
      refine .approved request (purpose.trans isRequest) (running.mpr isRunning)
        (sameReceived.trans received) ?_ noDue ?_ (isApproved.mpr isFor) fun _ =>
          countedFor.mpr isFor
      · rw [expected, counts, max_eq_right (Nat.le_add_right _ _)]
        exact sum
      · rw [expected, uploaded]
        exact le_max_right _ _
  | approved request isRequest isRunning received sum noDue covered _ counted =>
      refine .approved request (purpose.trans isRequest) (running.mpr isRunning)
        (sameReceived.trans received) ?_ noDue ?_ (isApproved.mpr (counted isCounted)) fun _ =>
          countedFor.mpr (counted isCounted)
      · rwa [expected, max_eq_left covered]
      · rw [expected, uploaded]
        exact le_max_right _ _

theorem Accounts.steps (accounts : view.Accounts total due) {event : TaskEvent}
    (steps : view.Steps event later)
    (mayCount : view.base.CountsUploads event →
      view.opinionController.TrafficFits view.base.drive.modifyTrafficMap
        view.base.drive.modifyDonatorShard ∧
        (view.received = true → 0 < view.purpose.size → ¬ view.IsApproved))
    (mayFail : view.base.FailsSynchronizing event → view.purpose.isRequest = true →
      view.base.IsEnding)
    (fits : view.expected + view.purpose.size < 2 ^ 64) : later.Accounts total due := by
  cases steps.base with
  | goesOn goesOn => exact accounts.goesOn ⟨goesOn, steps.purpose, steps.received⟩
  | counts isCount counts =>
      obtain ⟨traffic, once⟩ := mayCount isCount
      exact accounts.counts counts steps.purpose steps.received traffic once fits
  | approves isApproval approves =>
      exact accounts.approves isApproval approves steps.purpose steps.received
  | fails isFailure fails =>
      have same : later.opinionController = view.opinionController := fails.opinionController
      have expected : later.expected = view.expected := by rw [expected, expected, same]
      have uploaded : later.uploaded = view.uploaded := by rw [uploaded, uploaded, same]
      have running : later.IsRunning ↔ view.IsRunning := by
        rw [IsRunning, IsRunning, fails.interrupted]
      cases accounts with
      | follows modification isFollowed sum counted =>
          refine .follows modification (steps.purpose.trans isFollowed) (by rwa [expected]) ?_
          intro isCounted
          rw [expected, uploaded]
          exact counted (fails.counted isCounted)
      | interrupted request isRequest ended sum counted notStarted =>
          refine .interrupted request (steps.purpose.trans isRequest) (by rwa [running])
            (by rwa [expected]) ?_ ?_
          · intro received isCounted
            rw [expected, uploaded]
            exact counted (steps.received ▸ received) (fails.counted isCounted)
          · intro unreceived has
            exact notStarted (steps.received ▸ unreceived) (fails.synchronizing has)
      | waits _ _ _ _ _ _ _ notStarted => exact absurd isFailure.hasStage notStarted
      | unapproved request isRequest _ _ _ _ _ going =>
          exact absurd (mayFail isFailure (by rw [isRequest]; rfl)) going
      | approved request isRequest isRunning received sum noDue covered wasApproved counted =>
          refine .approved request (steps.purpose.trans isRequest) (running.mpr isRunning)
            (steps.received.trans received) (by rwa [expected]) noDue (by rwa [expected, uploaded])
            ?_ ?_
          · rw [IsApproved, same, steps.purpose]
            exact wasApproved
          · intro isCounted
            rw [CountedFor, same, steps.purpose]
            exact counted (fails.counted isCounted)

/-- An update that is ended from outside, unless an approval is under way. -/
theorem Accounts.ends (accounts : view.Accounts total due)
    (same : later.opinionController = view.opinionController) (ended : ¬ later.IsRunning)
    (stages : ∀ stage, later.base.HasStage stage → view.base.HasStage stage ∨ stage = .ending)
    (purpose : later.purpose = view.purpose) (sameReceived : later.received = view.received)
    (ready : view.purpose.isRequest = true → view.received = true → view.base.IsEnding) :
    later.Accounts total due := by
  have expected : later.expected = view.expected := by rw [expected, expected, same]
  have uploaded : later.uploaded = view.uploaded := by rw [uploaded, uploaded, same]
  have isCounted : later.base.IsCounted → view.base.IsCounted :=
    UpdateDriveTaskBase.isCounted_of_stages stages
  have started (has : later.base.HasStage .synchronization) : view.base.HasStage .synchronization :=
    (stages _ has).resolve_right (by simp)
  cases accounts with
  | follows modification isFollowed sum counted =>
      refine .follows modification (purpose.trans isFollowed) (by rwa [expected]) ?_
      intro counts
      rw [expected, uploaded]
      exact counted (isCounted counts)
  | interrupted request isRequest _ sum counted notStarted =>
      refine .interrupted request (purpose.trans isRequest) ended (by rwa [expected]) ?_ ?_
      · intro received counts
        rw [expected, uploaded]
        exact counted (sameReceived ▸ received) (isCounted counts)
      · intro unreceived has
        exact notStarted (sameReceived ▸ unreceived) (started has)
  | waits request isRequest _ unreceived sum noDue _ notStarted =>
      refine .interrupted request (purpose.trans isRequest) ended (by rw [expected, noDue]; exact sum)
        ?_ fun _ has => notStarted (started has)
      intro received
      simp [sameReceived, unreceived] at received
  | unapproved _ isRequest _ received _ _ _ going =>
      exact absurd (ready (by rw [isRequest]; rfl) received) going
  | approved request isRequest _ received sum noDue covered =>
      refine .interrupted request (purpose.trans isRequest) ended (by rw [expected, noDue]; exact sum)
        ?_ ?_
      · intro _ _
        rwa [expected, uploaded]
      · intro unreceived
        simp [sameReceived, received] at unreceived

theorem Accounts.interrupts (accounts : view.Accounts total due)
    (interrupts : view.Interrupts later)
    (ready : view.purpose.isRequest = true → view.received = true → view.base.IsEnding) :
    later.Accounts total due := by
  refine accounts.ends interrupts.base.opinionController ?_ interrupts.base.stages
    interrupts.purpose interrupts.received ready
  simp [IsRunning, interrupts.base.interrupted]

theorem Accounts.terminates (accounts : view.Accounts total due)
    (terminates : view.Terminates later)
    (ready : view.purpose.isRequest = true → view.received = true → view.base.IsEnding) :
    later.Accounts total due := by
  refine accounts.ends terminates.opinionController ?_ terminates.stages terminates.purpose
    terminates.received ready
  simp [IsRunning, terminates.interrupted]

theorem Accounts.addDue (accounts : view.Accounts total due) {more : Nat}
    (catchesUp : view.purpose.isRequest = true → ¬ view.IsRunning) :
    view.Accounts (total + more) (due + more) := by
  have isRequest_of {request : DeferredRequest} (isRequest : view.purpose = .serves request) :
      view.purpose.isRequest = true := by
    rw [isRequest]
    rfl
  cases accounts with
  | follows modification isFollowed sum counted =>
      exact .follows modification isFollowed (by omega) counted
  | interrupted request isRequest ended sum counted notStarted =>
      exact .interrupted request isRequest ended (by omega) counted notStarted
  | waits _ isRequest running => exact absurd running (catchesUp (isRequest_of isRequest))
  | unapproved _ isRequest running => exact absurd running (catchesUp (isRequest_of isRequest))
  | approved _ isRequest running => exact absurd running (catchesUp (isRequest_of isRequest))

theorem Accounts.applies {tx : Hash256} (accounts : view.Accounts total due)
    (applies : view.Applies tx later) (waiting : view.IsWaiting) :
    later.Accounts (total + view.purpose.size) 0 := by
  have same : later.opinionController = view.opinionController := applies.base.opinionController
  have expected : later.expected = view.expected := by rw [expected, expected, same]
  have uploaded : later.uploaded = view.uploaded := by rw [uploaded, uploaded, same]
  obtain ⟨isRequest, running, unreceived⟩ := waiting
  cases accounts with
  | follows modification isFollowed => simp [isFollowed, UpdatePurpose.isRequest] at isRequest
  | interrupted _ _ ended => exact absurd running ended
  | waits request isRequest _ _ sum _ counted _ going =>
      refine .unapproved request (applies.purpose.trans isRequest) ?_ applies.received ?_ rfl ?_
        (fun ends => going (applies.base.ending ends))
      · rw [IsRunning, applies.base.interrupted]
        exact running
      · rw [expected, applies.purpose, sum]
      · intro isCounted
        rw [expected, uploaded, applies.purpose, CountedFor, same, applies.purpose]
        exact counted (applies.base.counted isCounted)
  | unapproved _ _ _ received => simp [unreceived] at received
  | approved _ _ _ received => simp [unreceived] at received

/-- An approval that interrupts the update of a request, whose uploads are not approved. -/
theorem Accounts.breaks (accounts : view.Accounts total due) (breaks : view.Breaks later)
    (isRequest : view.purpose.isRequest = true)
    (notApproved : view.received = true → ¬ view.IsApproved)
    (fits : view.expected + view.purpose.size < 2 ^ 64) (more : Nat) :
    later.Accounts ((if view.received then total else total + view.purpose.size) + more) more := by
  have increased : later.opinionController =
      view.opinionController.increaseApprovedExpectedCumulativeDownload view.purpose.size :=
    breaks.opinionController
  have expected : later.expected = view.expected + view.purpose.size := by
    rw [UpdateView.expected, increased, approvedExpected_increase fits]
    rfl
  have uploaded : later.uploaded = view.uploaded := by
    rw [UpdateView.uploaded, increased]
    rfl
  have ended : ¬ later.IsRunning := by simp [IsRunning, breaks.interrupted]
  have finish (request : DeferredRequest) (serves : view.purpose = .serves request)
      (sum : view.expected + view.purpose.size =
        if view.received then total else total + view.purpose.size)
      (counted : view.base.IsCounted →
        view.uploaded = view.expected + view.purpose.size ∧ view.CountedFor) :
      later.Accounts ((if view.received then total else total + view.purpose.size) + more) more := by
    refine .interrupted request (breaks.purpose.trans serves) ended (by rw [expected, sum]) ?_ ?_
    · intro _ isCounted
      rw [expected, uploaded]
      exact le_of_eq (counted (breaks.isCounted isCounted)).1
    · intro unreceived
      simp [breaks.received] at unreceived
  cases accounts with
  | follows modification isFollowed => simp [isFollowed, UpdatePurpose.isRequest] at isRequest
  | interrupted _ _ ended => exact absurd breaks.running ended
  | waits request serves _ unreceived sum _ counted =>
      exact finish request serves (by simp [unreceived, sum]) counted
  | unapproved request serves _ received sum _ counted =>
      exact finish request serves (by simp [received, sum]) counted
  | approved _ _ _ received _ _ _ isApproved => exact absurd isApproved (notApproved received)

theorem Accounts.expected_eq (accounts : view.Accounts total 0) (unreceived : view.received = false) :
    view.expected = total := by
  cases accounts with
  | follows _ _ sum => exact sum
  | interrupted _ _ _ sum => exact sum
  | waits _ _ _ _ sum => exact sum
  | unapproved _ _ _ received => simp [unreceived] at received
  | approved _ _ _ received => simp [unreceived] at received

/-- At the end of an update nothing is missing but what the drive catches up with. -/
theorem Accounts.sum_of_ending (accounts : view.Accounts total due)
    (ending : view.base.IsEnding) : view.expected + due = total := by
  cases accounts with
  | follows _ _ sum => exact sum
  | interrupted _ _ _ sum => exact sum
  | waits _ _ _ _ _ _ _ _ going => exact absurd ending going
  | unapproved _ _ _ _ _ _ _ going => exact absurd ending going
  | approved _ _ _ _ sum noDue =>
      rw [noDue]
      exact sum

theorem Accounts.not_isWaiting_of_ending (accounts : view.Accounts total due)
    (ending : view.base.IsEnding) : ¬ view.IsWaiting := by
  rintro ⟨isRequest, running, unreceived⟩
  cases accounts with
  | follows _ isFollowed => simp [isFollowed, UpdatePurpose.isRequest] at isRequest
  | interrupted _ _ ended => exact absurd running ended
  | waits _ _ _ _ _ _ _ _ going => exact absurd ending going
  | unapproved _ _ _ received => simp [unreceived] at received
  | approved _ _ _ received => simp [unreceived] at received

/-- An update that is running for a request has nothing to catch up with. -/
theorem Accounts.noDue (accounts : view.Accounts total due)
    (isRequest : view.purpose.isRequest = true) (running : view.IsRunning) : due = 0 := by
  cases accounts with
  | follows _ isFollowed => simp [isFollowed, UpdatePurpose.isRequest] at isRequest
  | interrupted _ _ ended => exact absurd running ended
  | waits _ _ _ _ _ noDue => exact noDue
  | unapproved _ _ _ _ _ noDue => exact noDue
  | approved _ _ _ _ _ noDue => exact noDue

theorem accounts_of_isNew {drive : DriveParams} (isNew : view.IsNew drive)
    {request : DeferredRequest} (isRequest : view.purpose = .serves request)
    (running : view.IsRunning) (going : ¬ view.base.IsEnding)
    (sum : drive.opinionController.approvedExpectedCumulativeDownload = total) :
    view.Accounts total 0 := by
  have same : view.opinionController = drive.opinionController := isNew.opinionController
  refine .waits request isRequest running isNew.unreceived ?_ rfl
    (fun isCounted => absurd isCounted isNew.uncounted)
    (fun has => isNew.uncounted (.inr (.inl has))) going
  rw [expected, same, sum]

theorem accounts_of_follows {drive : DriveParams} (isNew : view.IsNew drive)
    {modification : Hash256} (isFollowed : view.purpose = .follows modification)
    (sum : drive.opinionController.approvedExpectedCumulativeDownload + due = total) :
    view.Accounts total due := by
  have same : view.opinionController = drive.opinionController := isNew.opinionController
  refine .follows modification isFollowed ?_ fun isCounted => absurd isCounted isNew.uncounted
  rw [expected, same, sum]

end UpdateView

end SiriusDrive
