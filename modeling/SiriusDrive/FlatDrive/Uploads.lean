import SiriusDrive.FlatDrive.Updates
import SiriusDrive.ModifyDriveTask.Approvals
import SiriusDrive.ModifyOpinionController.Sums

/-! # The uploads over the runs of a drive

The opinion controller asserts that the uploads it has counted do not exceed what is
expected, and that the uploads it approves are those of the modification. A task may
leave uploads behind that exceed it, when it neither approves them nor is followed
by a cancellation; the next update then fails.
-/

namespace SiriusDrive

/-- The uploads do not exceed what is expected. -/
structure ModifyOpinionController.Settled (controller : ModifyOpinionController) : Prop where
  expects : controller.Expects
  covers : controller.Covers 0

instance (controller : ModifyOpinionController) : Decidable controller.Settled :=
  decidable_of_iff (controller.Expects ∧ controller.Covers 0)
    ⟨fun ⟨expects, covers⟩ => ⟨expects, covers⟩, fun settled => ⟨settled.expects, settled.covers⟩⟩

theorem ModifyOpinionController.Settled.renames {before after : ModifyOpinionController}
    (settled : before.Settled) (renames : before.Renames after) : after.Settled := by
  obtain ⟨_, rfl⟩ := renames
  exact ⟨⟨settled.expects.positive, settled.expects.small, settled.expects.approved⟩,
    settled.covers⟩

namespace UpdateView

variable (view : UpdateView)

def opinionController : ModifyOpinionController := view.base.drive.opinionController

/-- What holds for the uploads while an update is running. `excused` says that no other
    update will follow before the uploads are disapproved. -/
structure UploadsInvariant (excused : Prop) : Prop where
  expects : view.opinionController.Expects
  covers : view.opinionController.Covers view.purpose.size
  counted : view.base.IsCounted →
    view.opinionController.notApprovedModificationId = view.purpose.modification
  settled : view.base.IsEnding → view.opinionController.Covers 0 ∨ excused ∨
    view.base.drive.replicatorIsStopped = true

/-- Nothing is left behind if the update is interrupted now. -/
def MayEnd : Prop := view.base.IsEnding ∨ view.opinionController.Covers 0

instance : Decidable view.MayEnd := inferInstanceAs (Decidable (_ ∨ _))

/-- The uploads are counted without a wrap, for a task that does not end yet. -/
structure MayCount : Prop where
  traffic : view.opinionController.TrafficFits view.base.drive.modifyTrafficMap
    view.base.drive.modifyDonatorShard
  once : 0 < view.purpose.size → ¬ view.base.IsEnding

instance : Decidable view.MayCount :=
  decidable_of_iff (view.opinionController.TrafficFits view.base.drive.modifyTrafficMap
      view.base.drive.modifyDonatorShard ∧ (0 < view.purpose.size → ¬ view.base.IsEnding))
    ⟨fun ⟨traffic, once⟩ => ⟨traffic, once⟩, fun may => ⟨may.traffic, may.once⟩⟩

variable {view} {later : UpdateView} {excused excusedLater : Prop}

theorem UploadsInvariant.goesOn (invariant : view.UploadsInvariant excused)
    (goesOn : view.GoesOn later) (imp : excused → excusedLater) :
    later.UploadsInvariant excusedLater := by
  have same : later.opinionController = view.opinionController := goesOn.base.opinionController
  refine ⟨?_, ?_, ?_, ?_⟩
  · rw [same]
    exact invariant.expects
  · rw [same, goesOn.purpose]
    exact invariant.covers
  · intro counted
    rw [same, goesOn.purpose]
    exact invariant.counted (goesOn.base.counted counted)
  · intro ending
    rw [same, goesOn.base.stopped]
    exact (invariant.settled (goesOn.base.ending ending)).imp_right (Or.imp_left imp)

theorem UploadsInvariant.interrupts (invariant : view.UploadsInvariant excused)
    (interrupts : view.Interrupts later)
    (mayEnd : view.opinionController.Covers 0 ∨ excusedLater ∨
      view.base.drive.replicatorIsStopped = true) :
    later.UploadsInvariant excusedLater := by
  have same : later.opinionController = view.opinionController :=
    interrupts.base.opinionController
  refine ⟨?_, ?_, ?_, ?_⟩
  · rw [same]
    exact invariant.expects
  · rw [same, interrupts.purpose]
    exact invariant.covers
  · intro counted
    rw [same, interrupts.purpose]
    exact invariant.counted (interrupts.base.isCounted counted)
  · intro _
    rw [same, interrupts.base.stopped]
    exact mayEnd

theorem UploadsInvariant.terminates (invariant : view.UploadsInvariant excused)
    (terminates : view.Terminates later) : later.UploadsInvariant excusedLater := by
  have same : later.opinionController = view.opinionController := terminates.opinionController
  refine ⟨?_, ?_, ?_, ?_⟩
  · rw [same]
    exact invariant.expects
  · rw [same, terminates.purpose]
    exact invariant.covers
  · intro counted
    rw [same, terminates.purpose]
    exact invariant.counted (terminates.isCounted counted)
  · intro _
    exact .inr (.inr terminates.stopped)

/-- The limit of a request that is interrupted by an approval is expected from now on. -/
theorem UploadsInvariant.breaks (invariant : view.UploadsInvariant excused)
    (breaks : view.Breaks later)
    (fits : view.opinionController.approvedExpectedCumulativeDownload + view.purpose.size <
      2 ^ 64) : later.UploadsInvariant excusedLater := by
  have same : later.opinionController =
      view.opinionController.increaseApprovedExpectedCumulativeDownload view.purpose.size :=
    breaks.opinionController
  have covers : later.opinionController.Covers 0 := by
    rw [same]
    exact ModifyOpinionController.Covers.increase invariant.covers fits
  refine ⟨?_, covers.mono (Nat.zero_le _), ?_, fun _ => .inl covers⟩
  · rw [same]
    exact invariant.expects.increase fits
  · intro counted
    rw [same, breaks.purpose]
    exact invariant.counted (breaks.isCounted counted)

theorem UploadsInvariant.published {tx : Hash256} {answer : Bool}
    (invariant : view.UploadsInvariant excused) (published : view.Published tx later answer)
    (fits : view.opinionController.approvedExpectedCumulativeDownload + view.purpose.size <
      2 ^ 64) : later.UploadsInvariant excused := by
  cases published with
  | ignored _ same => exact same ▸ invariant
  | applied _ _ applies =>
      have same : later.opinionController = view.opinionController :=
        applies.base.opinionController
      refine ⟨?_, ?_, ?_, ?_⟩
      · rw [same]
        exact invariant.expects
      · rw [same, applies.purpose]
        exact invariant.covers
      · intro counted
        rw [same, applies.purpose]
        exact invariant.counted (applies.base.counted counted)
      · intro ending
        rw [same, applies.base.stopped]
        exact invariant.settled (applies.base.ending ending)
  | broken _ _ breaks => exact invariant.breaks breaks fits
  | superseded _ isFollowed interrupts =>
      have covers := invariant.covers
      rw [isFollowed] at covers
      exact invariant.interrupts interrupts (.inl covers)
  | dropped _ _ same => exact same ▸ invariant

theorem UploadsInvariant.counts (invariant : view.UploadsInvariant excused)
    (counts : UpdateDriveTaskBase.Counts view.purpose.modification view.purpose.size view.base
      later.base) (purpose : later.purpose = view.purpose) (mayCount : view.MayCount)
    (fits : view.opinionController.approvedExpectedCumulativeDownload + view.purpose.size <
      2 ^ 64) : later.UploadsInvariant excused := by
  have updated : later.opinionController =
      view.opinionController.updateCumulativeUploads view.base.drive.modifyTrafficMap
        view.purpose.modification view.base.drive.modifyDonatorShard view.purpose.size :=
    counts.opinionController
  have covers : later.opinionController.Covers view.purpose.size := by
    rw [updated]
    exact ModifyOpinionController.covers_updateCumulativeUploads mayCount.traffic _ fits
  refine ⟨?_, ?_, ?_, ?_⟩
  · rw [updated]
    exact invariant.expects.update _ _ _ _
  · rw [purpose]
    exact covers
  · intro _
    rw [updated, purpose]
    rfl
  · intro ending
    left
    by_cases size : 0 < view.purpose.size
    · exact absurd (counts.isEnding ending) (mayCount.once size)
    · rwa [Nat.eq_zero_of_not_pos size] at covers

theorem UploadsInvariant.approves (invariant : view.UploadsInvariant excused) {event : TaskEvent}
    (isApproval : view.base.ApprovesUploads event)
    (approves : UpdateDriveTaskBase.Approves view.base later.base)
    (purpose : later.purpose = view.purpose) : later.UploadsInvariant excused := by
  have approved : later.opinionController =
      view.opinionController.approveCumulativeUploads := approves.opinionController
  have covers : later.opinionController.Covers 0 := by
    rw [approved]
    exact ModifyOpinionController.covers_approveCumulativeUploads
  refine ⟨?_, covers.mono (Nat.zero_le _), ?_, fun _ => .inl covers⟩
  · rw [approved]
    exact invariant.expects.approve
  · intro _
    rw [approved, purpose]
    exact invariant.counted isApproval.isCounted

theorem UploadsInvariant.steps {event : TaskEvent} (invariant : view.UploadsInvariant excused)
    (steps : view.Steps event later)
    (mayCount : view.base.CountsUploads event → view.MayCount)
    (mayFail : view.base.FailsSynchronizing event → view.MayEnd)
    (fits : view.opinionController.approvedExpectedCumulativeDownload + view.purpose.size <
      2 ^ 64) : later.UploadsInvariant excused := by
  cases steps.base with
  | goesOn goesOn => exact invariant.goesOn ⟨goesOn, steps.purpose, steps.received⟩ id
  | counts isCount counts => exact invariant.counts counts steps.purpose (mayCount isCount) fits
  | approves isApproval approves => exact invariant.approves isApproval approves steps.purpose
  | fails isFailure fails =>
      have same : later.opinionController = view.opinionController := fails.opinionController
      refine ⟨?_, ?_, ?_, ?_⟩
      · rw [same]
        exact invariant.expects
      · rw [same, steps.purpose]
        exact invariant.covers
      · intro counted
        rw [same, steps.purpose]
        exact invariant.counted (fails.counted counted)
      · intro _
        rw [same, fails.stopped]
        rcases mayFail isFailure with ending | covers
        · exact invariant.settled ending
        · exact .inl covers

/-- A new update starts with uploads that do not exceed what is expected. -/
theorem IsNew.uploadsInvariant {drive : DriveParams} (isNew : view.IsNew drive)
    (settled : drive.opinionController.Settled) : view.UploadsInvariant excused := by
  have same : view.opinionController = drive.opinionController := isNew.opinionController
  have covers : view.opinionController.Covers 0 := same ▸ settled.covers
  refine ⟨same ▸ settled.expects, covers.mono (Nat.zero_le _), ?_, fun _ => .inl covers⟩
  intro counted
  exact absurd counted isNew.uncounted

end UpdateView

/-! ## The running task -/

namespace DriveTask

/-- The uploads while a task is running. Nothing follows a closure. -/
structure UploadsInvariant (task : DriveTask) (excused : Prop) : Prop where
  update : ∀ view, task.update? = some view → view.UploadsInvariant excused
  other : task.update? = none → task.isClosure = false → task.drive.opinionController.Settled

variable {task after : DriveTask} {excused excusedLater : Prop}

theorem uploadsInvariant_of_update {view : UpdateView} (isUpdate : task.update? = some view)
    (invariant : view.UploadsInvariant excused) : task.UploadsInvariant excused where
  update := by
    intro other isOther
    obtain rfl := Option.some.inj (isUpdate.symm.trans isOther)
    exact invariant
  other := by
    intro noUpdate
    simp [isUpdate] at noUpdate

theorem uploadsInvariant_of_settled (noUpdate : task.update? = none)
    (settled : task.drive.opinionController.Settled) : task.UploadsInvariant excused where
  update := by
    intro view isView
    simp [noUpdate] at isView
  other := fun _ _ => settled

theorem UploadsInvariant.keeps (invariant : task.UploadsInvariant excused)
    (keeps : Keeps task after) (imp : excused → excusedLater) :
    after.UploadsInvariant excusedLater := by
  cases keeps with
  | update isBefore isAfter goesOn =>
      exact uploadsInvariant_of_update isAfter ((invariant.update _ isBefore).goesOn goesOn imp)
  | other noUpdate stillNone opinionController _ closure =>
      refine ⟨?_, ?_⟩
      · intro view isView
        simp [stillNone] at isView
      · intro _ isOpen
        exact (invariant.other noUpdate (closure ▸ isOpen)).renames opinionController

theorem UploadsInvariant.responds (invariant : task.UploadsInvariant excused)
    (responds : Responds task after) (imp : excused → excusedLater)
    (mayEnd : ∀ view, task.update? = some view → view.opinionController.Covers 0 ∨
      excusedLater ∨ view.base.drive.replicatorIsStopped = true) :
    after.UploadsInvariant excusedLater := by
  cases responds with
  | keeps keeps => exact invariant.keeps keeps imp
  | interrupts isBefore isAfter interrupts =>
      exact uploadsInvariant_of_update isAfter
        ((invariant.update _ isBefore).interrupts interrupts (mayEnd _ isBefore))

end DriveTask

namespace ModifyOpinionController

def increaseAll (controller : ModifyOpinionController) (requests : List DeferredRequest) :
    ModifyOpinionController :=
  requests.foldl (fun controller request =>
    controller.increaseApprovedExpectedCumulativeDownload request.maxDataSize) controller

end ModifyOpinionController

/-- What some requests add to the expected download. -/
def requestedSize (requests : List DeferredRequest) : Nat :=
  (requests.map (·.maxDataSize)).sum

theorem requestedSize_take_add_drop (count : Nat) (requests : List DeferredRequest) :
    requestedSize (requests.take count) + requestedSize (requests.drop count) =
      requestedSize requests := by
  unfold requestedSize
  rw [← List.sum_append, ← List.map_append, List.take_append_drop]

namespace ModifyOpinionController

variable {controller : ModifyOpinionController}

theorem approvedExpected_increase {size : Nat}
    (fits : controller.approvedExpectedCumulativeDownload + size < 2 ^ 64) :
    (controller.increaseApprovedExpectedCumulativeDownload
      size).approvedExpectedCumulativeDownload =
      controller.approvedExpectedCumulativeDownload + size :=
  u64_of_lt fits

theorem approvedExpected_increaseAll {requests : List DeferredRequest}
    (fits : controller.approvedExpectedCumulativeDownload + requestedSize requests < 2 ^ 64) :
    (controller.increaseAll requests).approvedExpectedCumulativeDownload =
      controller.approvedExpectedCumulativeDownload + requestedSize requests := by
  induction requests generalizing controller with
  | nil => rfl
  | cons request requests ih =>
      have parts : requestedSize (request :: requests) =
          request.maxDataSize + requestedSize requests := rfl
      rw [parts] at fits ⊢
      have increased := approvedExpected_increase
        (show controller.approvedExpectedCumulativeDownload + request.maxDataSize < 2 ^ 64 by omega)
      have rest : ((controller.increaseApprovedExpectedCumulativeDownload
          request.maxDataSize).increaseAll requests).approvedExpectedCumulativeDownload = _ :=
        ih (by rw [increased]; omega)
      rw [increased] at rest
      exact rest.trans (Nat.add_assoc _ _ _)

theorem Settled.increase (settled : controller.Settled) {size : Nat}
    (fits : controller.approvedExpectedCumulativeDownload + size < 2 ^ 64) :
    (controller.increaseApprovedExpectedCumulativeDownload size).Settled where
  expects := settled.expects.increase fits
  covers := (settled.covers.mono (Nat.zero_le _)).increase fits

theorem Settled.increaseAll (settled : controller.Settled) {requests : List DeferredRequest}
    (fits : controller.approvedExpectedCumulativeDownload + requestedSize requests < 2 ^ 64) :
    (controller.increaseAll requests).Settled := by
  induction requests generalizing controller with
  | nil => exact settled
  | cons request requests ih =>
      have parts : requestedSize (request :: requests) =
          request.maxDataSize + requestedSize requests := rfl
      rw [parts] at fits
      have here : controller.approvedExpectedCumulativeDownload + request.maxDataSize < 2 ^ 64 := by
        omega
      apply ih (settled.increase here)
      rw [approvedExpected_increase here]
      omega

end ModifyOpinionController

/-! ## The drive -/

namespace FlatDrive

/-- The drive will be closed or a modification cancelled before another update. -/
def IsExcused (flatDrive : FlatDrive) : Prop :=
  flatDrive.closeDriveRequest.isSome = true ∨ flatDrive.modificationCancelRequest.isSome = true

structure UploadsInvariant (flatDrive : FlatDrive) : Prop where
  running : ∀ task, flatDrive.task = some task → task.UploadsInvariant flatDrive.IsExcused
  idle : flatDrive.task = none → flatDrive.idleDrive.opinionController.Settled

variable {flatDrive after : FlatDrive}

theorem uploadsInvariant_of_task {task : DriveTask} (isTask : flatDrive.task = some task)
    (invariant : task.UploadsInvariant flatDrive.IsExcused) : flatDrive.UploadsInvariant where
  running := by
    intro other isOther
    obtain rfl := Option.some.inj (isTask.symm.trans isOther)
    exact invariant
  idle := by
    intro isIdle
    simp [isTask] at isIdle

def IsOpenTask (flatDrive : FlatDrive) : Prop :=
  ∀ task, flatDrive.task = some task → task.isClosure = false

theorem UploadsInvariant.expects (invariant : flatDrive.UploadsInvariant)
    (isOpen : flatDrive.IsOpenTask) : flatDrive.drive.opinionController.Expects := by
  cases isTask : flatDrive.task with
  | none =>
      rw [drive, isTask]
      exact (invariant.idle isTask).expects
  | some task =>
      rw [drive_of_task isTask]
      have running := invariant.running task isTask
      cases isUpdate : task.update? with
      | some view =>
          rw [DriveTask.drive_of_update isUpdate]
          exact (running.update view isUpdate).expects
      | none => exact (running.other isUpdate (isOpen task isTask)).expects

/-- When a task ends the uploads do not exceed what is expected, or what follows is no update. -/
theorem UploadsInvariant.settled (invariant : flatDrive.UploadsInvariant)
    (isOpen : flatDrive.IsOpenTask)
    (ends : ∀ view, flatDrive.update? = some view → view.base.IsEnding) :
    flatDrive.drive.opinionController.Covers 0 ∨ flatDrive.IsExcused ∨
      flatDrive.drive.replicatorIsStopped = true := by
  cases isTask : flatDrive.task with
  | none =>
      left
      rw [drive, isTask]
      exact (invariant.idle isTask).covers
  | some task =>
      rw [drive_of_task isTask]
      have running := invariant.running task isTask
      cases isUpdate : task.update? with
      | some view =>
          rw [DriveTask.drive_of_update isUpdate]
          exact (running.update view isUpdate).settled
            (ends view ((update?_of_task isTask).trans isUpdate))
      | none => exact .inl (running.other isUpdate (isOpen task isTask)).covers

theorem settled_dropDeferred (settled : flatDrive.idleDrive.opinionController.Settled)
    (fits : flatDrive.idleDrive.opinionController.approvedExpectedCumulativeDownload +
      requestedSize flatDrive.deferredModificationRequests < 2 ^ 64) (transactionHash : Hash256) :
    (flatDrive.dropDeferred transactionHash).idleDrive.opinionController.Settled := by
  unfold dropDeferred
  split
  · rename_i index _
    have parts := requestedSize_take_add_drop (index + 1) flatDrive.deferredModificationRequests
    exact settled.increaseAll (by omega)
  · exact settled

/-- The next task starts with uploads that do not exceed what is expected, unless it closes
    the drive. -/
theorem uploadsInvariant_runFirstRequest (isIdle : flatDrive.task = none)
    (expects : flatDrive.idleDrive.opinionController.Expects)
    (covers : flatDrive.idleDrive.opinionController.Covers 0 ∨ flatDrive.IsExcused)
    (fits : flatDrive.idleDrive.opinionController.approvedExpectedCumulativeDownload +
      requestedSize flatDrive.deferredModificationRequests < 2 ^ 64) :
    flatDrive.runFirstRequest.UploadsInvariant := by
  have settled (notClosed : flatDrive.closeDriveRequest = none)
      (notCancelled : flatDrive.modificationCancelRequest = none) :
      flatDrive.idleDrive.opinionController.Settled := by
    refine ⟨expects, covers.resolve_right ?_⟩
    simp [IsExcused, notClosed, notCancelled]
  unfold runFirstRequest
  split
  · apply uploadsInvariant_of_task rfl
    refine ⟨?_, ?_⟩
    · intro view isView
      simp [DriveTask.update?] at isView
    · intro _ isOpen
      simp [DriveTask.isClosure] at isOpen
  · apply uploadsInvariant_of_task rfl
    exact DriveTask.uploadsInvariant_of_settled rfl ⟨expects.disapprove, expects.covers_disapprove⟩
  · rename_i notClosed notCancelled _
    apply uploadsInvariant_of_task rfl
    apply DriveTask.uploadsInvariant_of_update rfl
    exact (SynchronizationTask.isNew_run rfl).uploadsInvariant
      (settled_dropDeferred (settled notClosed notCancelled) fits _)
  · rename_i notClosed notCancelled _ _
    apply uploadsInvariant_of_task rfl
    apply DriveTask.uploadsInvariant_of_update rfl
    exact (SynchronizationTask.isNew_run rfl).uploadsInvariant (settled notClosed notCancelled)
  · rename_i request _ notClosed notCancelled _ _ _
    cases request with
    | modification request =>
        apply uploadsInvariant_of_task rfl
        apply DriveTask.uploadsInvariant_of_update rfl
        exact (ModifyDriveTask.isNew_start _ _ _ _).1.uploadsInvariant
          (settled notClosed notCancelled)
    | stream request =>
        apply uploadsInvariant_of_task rfl
        apply DriveTask.uploadsInvariant_of_update rfl
        exact (StreamTask.isNew_create _ _).uploadsInvariant (settled notClosed notCancelled)
  · rename_i notClosed notCancelled _ _ _ _
    apply uploadsInvariant_of_task rfl
    exact DriveTask.uploadsInvariant_of_settled rfl (settled notClosed notCancelled)
  · rename_i notClosed notCancelled _ _ _ _
    refine ⟨?_, fun _ => settled notClosed notCancelled⟩
    intro task isTask
    simp [isIdle] at isTask

theorem UploadsInvariant.runNextTask (invariant : flatDrive.UploadsInvariant)
    (isOpen : flatDrive.IsOpenTask)
    (ends : ∀ view, flatDrive.update? = some view → view.base.IsEnding)
    (fits : flatDrive.drive.opinionController.approvedExpectedCumulativeDownload +
      requestedSize flatDrive.deferredModificationRequests < 2 ^ 64) :
    flatDrive.runNextTask.UploadsInvariant := by
  unfold FlatDrive.runNextTask
  split
  · exact invariant
  · rename_i going
    refine uploadsInvariant_runFirstRequest rfl (invariant.expects isOpen) ?_ fits
    rcases invariant.settled isOpen ends with covers | excused | stopped
    · exact .inl covers
    · exact .inr excused
    · exact absurd stopped going

/-! ## Tasks that do not update the drive -/

end FlatDrive

/-- What the uploads see of a drive is the same. -/
structure DriveParams.SameUploads (before after : DriveParams) : Prop where
  opinionController : after.opinionController = before.opinionController
  stopped : after.replicatorIsStopped = before.replicatorIsStopped

theorem InitializeDriveTask.sameUploads_addFilesToSession (drive : DriveParams)
    (hashes : List InfoHash) : drive.SameUploads (addFilesToSession drive hashes) := by
  unfold addFilesToSession
  induction hashes generalizing drive with
  | nil => exact ⟨rfl, rfl⟩
  | cons hash hashes ih =>
      rw [List.foldl_cons]
      split
      · exact ih drive
      · have later := ih { drive with
          nextHandle := drive.nextHandle + 1
          torrentHandleMap := drive.torrentHandleMap.insertIfNew hash
            { ltHandle := some drive.nextHandle } }
        exact ⟨later.opinionController, later.stopped⟩

theorem InitializeDriveTask.uploads_initializeDrive (task : InitializeDriveTask)
    (loaded : LoadedDrive) :
    (task.initializeDrive loaded).drive.opinionController = loaded.opinionController ∧
      (task.initializeDrive loaded).drive.replicatorIsStopped = task.drive.replicatorIsStopped := by
  have same := sameUploads_addFilesToSession
    { task.drive with
      fsTree := loaded.fsTree
      rootHash := loaded.rootHash
      lastApprovedModification := loaded.lastApprovedModification
      opinionController := loaded.opinionController } loaded.fsTree.fileHashes
  exact ⟨same.opinionController, same.stopped⟩

/-- A manual modification counts no uploads, but names those that are not approved. -/
theorem ManualModificationsTask.renames_handle {task after : ManualModificationsTask}
    {event : ManualEvent} (step : task.handle event = some after) :
    task.drive.opinionController.Renames after.drive.opinionController ∧
      after.drive.replicatorIsStopped = task.drive.replicatorIsStopped := by
  have finishes (task : ManualModificationsTask) : task.finishTask.drive = task.drive := by
    unfold finishTask
    split <;> rfl
  have finished : task.queryFinished.drive = task.drive := by
    unfold queryFinished
    simp only
    split
    · exact finishes _
    · rfl
  cases event with
  | queryStarted =>
      unfold handle at step
      simp only at step
      split at step
      · simp at step
      · obtain rfl := Option.some.inj step
        exact ⟨.of_eq rfl, rfl⟩
  | storageHashEvaluated =>
      unfold handle at step
      simp only at step
      split at step
      · simp at step
      · obtain rfl := Option.some.inj step
        exact ⟨⟨_, rfl⟩, rfl⟩
  | queryFinished =>
      unfold handle at step
      simp only at step
      split at step
      · simp at step
      · obtain rfl := Option.some.inj step
        rw [finished]
        exact ⟨.of_eq rfl, rfl⟩
  | sandboxModificationsApplied =>
      unfold handle at step
      simp only at step
      split at step
      · simp at step
      · obtain rfl := Option.some.inj step
        unfold onAppliedSandboxModifications
        split
        · rw [finished]
          exact ⟨.of_eq rfl, rfl⟩
        · exact ⟨.of_eq rfl, rfl⟩
  | applyStorageModifications =>
      unfold handle at step
      simp only at step
      split at step
      · simp at step
      · split at step
        · obtain rfl := Option.some.inj step
          exact ⟨.of_eq rfl, rfl⟩
        · obtain rfl := Option.some.inj step
          rw [finishes]
          exact ⟨.of_eq rfl, rfl⟩
  | advanceApplying =>
      obtain ⟨phase, -, step⟩ := Option.bind_eq_some_iff.mp step
      cases phase with
      | addNewTorrentsToSession =>
          obtain rfl := Option.some.inj step
          have same := InitializeDriveTask.sameUploads_addFilesToSession task.drive
            (((task.lowerSandboxFsTree.map Folder.fileHashes).getD []).filter
              (!task.drive.torrentHandleMap.contains ·))
          exact ⟨.of_eq same.opinionController, same.stopped⟩
      | onNewTorrentAdded | removeTorrents | onUnusedTorrentsDeleted =>
          obtain rfl := Option.some.inj step
          exact ⟨.of_eq rfl, rfl⟩
      | onAppliedStorageModifications =>
          unfold advanceApplying onAppliedStorageModifications at step
          simp only at step
          split at step
          · obtain rfl := Option.some.inj step
            rw [finishes]
            exact ⟨.of_eq rfl, rfl⟩
          · simp at step
  | advanceFinishing =>
      obtain ⟨phase, -, rfl⟩ := Option.map_eq_some_iff.mp step
      cases phase <;> exact ⟨.of_eq rfl, rfl⟩

theorem CancelModificationDriveTask.sameUploads_advance (task : CancelModificationDriveTask) :
    task.drive.SameUploads task.advance.drive := by
  unfold advance
  split <;> exact ⟨rfl, rfl⟩

/-! ## The steps of a drive -/

/-- What a new request adds to the expected download. -/
def DriveEvent.requestedSize : DriveEvent → Nat
  | .startModifyDrive request => request.maxDataSize
  | .startStream request => request.maxSizeBytes
  | _ => 0

namespace FlatDrive

variable (flatDrive : FlatDrive)

/-- The expected download does not wrap, whatever of the requests is approved. -/
def Fits (event : DriveEvent) : Prop :=
  flatDrive.drive.opinionController.approvedExpectedCumulativeDownload +
    ((flatDrive.update?.map (·.purpose.size)).getD 0 +
      requestedSize flatDrive.deferredModificationRequests + event.requestedSize) < 2 ^ 64

/-- No update ends with uploads that exceed what is expected: a manual synchronization
    interrupts no task that has counted its uploads, the file system does not fail for
    one, and none counts them again. The uploads found on the disk do not exceed it either. -/
def LeavesNothing : DriveEvent → Prop
  | .loaded loaded => loaded.opinionController.Settled
  | .task event => ∀ view ∈ flatDrive.update?,
      (view.base.CountsUploads event → view.MayCount) ∧
        (view.base.FailsSynchronizing event → view.MayEnd)
  | .manualSynchronize _ => ∀ view ∈ flatDrive.update?, view.MayEnd
  | _ => True

/-- The assertions of the opinion controller for the call the event makes, and what the
    call comes to. -/
def AssertionsHold : DriveEvent → Prop
  | .task event => ∀ view ∈ flatDrive.update?,
      (view.base.CountsUploads event →
        0 < view.opinionController.expectedCumulativeDownload view.purpose.size ∧
        view.opinionController.notApprovedSum ≤
          view.opinionController.expectedCumulativeDownload view.purpose.size ∧
        ∀ after ∈ flatDriveSystem.step flatDrive (.task event),
          after.drive.opinionController.notApprovedSum =
            view.opinionController.approvedExpectedCumulativeDownload + view.purpose.size) ∧
      (view.base.ApprovesUploads event →
        view.opinionController.notApprovedModificationId = view.purpose.modification)
  | _ => True

instance (event : DriveEvent) : Decidable (flatDrive.Fits event) :=
  inferInstanceAs (Decidable (_ < _))

instance (event : DriveEvent) : Decidable (flatDrive.LeavesNothing event) := by
  unfold LeavesNothing
  split <;> infer_instance

instance (event : DriveEvent) : Decidable (flatDrive.AssertionsHold event) := by
  unfold AssertionsHold
  split <;> infer_instance

variable {flatDrive} {after : FlatDrive} {event : DriveEvent}

theorem Fits.deferred (fits : flatDrive.Fits event) :
    flatDrive.drive.opinionController.approvedExpectedCumulativeDownload +
      (requestedSize flatDrive.deferredModificationRequests + event.requestedSize) < 2 ^ 64 := by
  unfold Fits at fits
  omega

theorem Fits.idle (fits : flatDrive.Fits event) (isIdle : flatDrive.task = none) :
    flatDrive.idleDrive.opinionController.approvedExpectedCumulativeDownload +
      requestedSize flatDrive.deferredModificationRequests + event.requestedSize < 2 ^ 64 := by
  have deferred := fits.deferred
  rwa [drive_of_idle isIdle, ← Nat.add_assoc] at deferred

theorem Fits.update (fits : flatDrive.Fits event) {task : DriveTask} {view : UpdateView}
    (isTask : flatDrive.task = some task) (isUpdate : task.update? = some view) :
    view.opinionController.approvedExpectedCumulativeDownload + view.purpose.size < 2 ^ 64 := by
  have same : flatDrive.drive.opinionController = view.opinionController := by
    rw [drive_of_task isTask, DriveTask.drive_of_update isUpdate]
    rfl
  unfold Fits at fits
  rw [same, update?_of_task isTask, isUpdate, Option.map_some, Option.getD_some] at fits
  omega

/-- The running task is changed in a way that leaves the uploads alone. -/
theorem UploadsInvariant.map_task (invariant : flatDrive.UploadsInvariant)
    {f : DriveTask → DriveTask} (keeps : ∀ task : DriveTask, task.Keeps (f task))
    (isTask : after.task = flatDrive.task.map f)
    (idle : after.idleDrive.opinionController = flatDrive.idleDrive.opinionController)
    (imp : flatDrive.IsExcused → after.IsExcused) : after.UploadsInvariant where
  running := by
    intro next isNext
    obtain ⟨task, isBefore, rfl⟩ := Option.map_eq_some_iff.mp (isTask.symm.trans isNext)
    exact (invariant.running task isBefore).keeps (keeps task) imp
  idle := by
    intro isIdle
    rw [isTask, Option.map_eq_none_iff] at isIdle
    rw [idle]
    exact invariant.idle isIdle

theorem UploadsInvariant.mapDrive (invariant : flatDrive.UploadsInvariant)
    {f : DriveParams → DriveParams}
    (opinionController : ∀ drive, (f drive).opinionController = drive.opinionController)
    (stopped : ∀ drive, (f drive).replicatorIsStopped = drive.replicatorIsStopped) :
    (flatDrive.mapDrive f).UploadsInvariant :=
  invariant.map_task (fun task => task.keeps_mapDrive opinionController stopped) rfl
    (opinionController _) id

theorem UploadsInvariant.runNextTaskIfIdle (invariant : flatDrive.UploadsInvariant)
    (fits : flatDrive.task = none →
      flatDrive.idleDrive.opinionController.approvedExpectedCumulativeDownload +
        requestedSize flatDrive.deferredModificationRequests < 2 ^ 64) :
    flatDrive.runNextTaskIfIdle.UploadsInvariant := by
  unfold FlatDrive.runNextTaskIfIdle
  split
  · rename_i isIdle
    have isIdle : flatDrive.task = none := by simpa using isIdle
    refine invariant.runNextTask ?_ ?_ ?_
    · intro task isTask
      simp [isIdle] at isTask
    · intro view isView
      simp [update?, isIdle] at isView
    · rw [drive_of_idle isIdle]
      exact fits isIdle
  · exact invariant

theorem UploadsInvariant.queue (invariant : flatDrive.UploadsInvariant)
    (isTask : after.task = flatDrive.task.map (·.onRequestQueued))
    (idle : after.idleDrive = flatDrive.idleDrive)
    (closing : after.closeDriveRequest = flatDrive.closeDriveRequest)
    (cancelling : after.modificationCancelRequest = flatDrive.modificationCancelRequest)
    (fits : flatDrive.Fits event)
    (deferred : requestedSize after.deferredModificationRequests =
      requestedSize flatDrive.deferredModificationRequests + event.requestedSize) :
    after.runNextTaskIfIdle.UploadsInvariant := by
  have queued : after.UploadsInvariant := by
    refine invariant.map_task (fun task => task.keeps_onRequestQueued) isTask (by rw [idle]) ?_
    intro excused
    rwa [IsExcused, closing, cancelling]
  refine queued.runNextTaskIfIdle ?_
  intro isIdle
  rw [isTask, Option.map_eq_none_iff] at isIdle
  have fitsIdle := fits.idle isIdle
  rw [idle, deferred]
  omega

theorem UploadsInvariant.cancelModifyDrive (invariant : flatDrive.UploadsInvariant)
    (request : ModificationCancelRequest) :
    (flatDrive.cancelModifyDrive request).UploadsInvariant := by
  cases isTask : flatDrive.task with
  | none =>
      simp only [FlatDrive.cancelModifyDrive, isTask]
      refine ⟨?_, fun _ => invariant.idle isTask⟩
      intro task isNext
      simp at isNext
  | some task =>
      have running := invariant.running task isTask
      simp only [FlatDrive.cancelModifyDrive, isTask]
      split
      · apply uploadsInvariant_of_task rfl
        have excused : FlatDrive.IsExcused { flatDrive with
            task := some (task.shouldCancelModify request).1
            modificationCancelRequest := some request
            movedRequestIsRead := !flatDrive.deferredModificationRequests.isEmpty } := .inr rfl
        rcases task.shouldCancelModify_cases request with
          ⟨keeps, -⟩ | ⟨-, view, later, isView, isLater, interrupts, -⟩
        · exact running.keeps keeps fun _ => excused
        · exact DriveTask.uploadsInvariant_of_update isLater
            ((running.update view isView).interrupts interrupts (.inr (.inl excused)))
      · rename_i should
        apply uploadsInvariant_of_task rfl
        obtain ⟨keeps, -⟩ := (task.shouldCancelModify_cases request).resolve_right
          fun cancels => should cancels.1
        exact running.keeps keeps id

theorem UploadsInvariant.cancelAll (requests : List ModificationCancelRequest)
    {flatDrive : FlatDrive} (invariant : flatDrive.UploadsInvariant) :
    (requests.foldl FlatDrive.cancelModifyDrive flatDrive).UploadsInvariant := by
  induction requests generalizing flatDrive with
  | nil => exact invariant
  | cons request requests ih => exact ih (invariant.cancelModifyDrive request)

theorem UploadsInvariant.published (invariant : flatDrive.UploadsInvariant)
    {transaction : PublishedModificationApprovalTransactionInfo}
    (fits : flatDrive.Fits (.approvalTransactionPublished transaction)) :
    (flatDrive.onApprovalTransactionHasBeenPublished transaction).UploadsInvariant := by
  cases isTask : flatDrive.task with
  | none =>
      simp only [onApprovalTransactionHasBeenPublished, isTask]
      have requested : FlatDrive.UploadsInvariant { flatDrive with
          task := none
          catchingUpRequest := some ⟨transaction.rootHash, transaction.modifyTransactionHash⟩ } :=
        invariant.map_task (f := id) .refl (by simp [isTask]) rfl id
      refine requested.runNextTask ?_ ?_ ?_
      · intro task isNext
        simp at isNext
      · intro view isView
        simp [update?] at isView
      · exact fits.idle isTask
  | some task =>
      have running := invariant.running task isTask
      have later : (task.onApprovalTxPublished transaction).1.UploadsInvariant
          flatDrive.IsExcused := by
        rcases task.onApprovalTxPublished_cases transaction with
          ⟨view, later, isView, isLater, published⟩ | ⟨-, keeps⟩
        · exact DriveTask.uploadsInvariant_of_update isLater
            ((running.update view isView).published published (fits.update isTask isView))
        · exact running.keeps keeps id
      simp only [onApprovalTransactionHasBeenPublished, isTask]
      split
      · exact uploadsInvariant_of_task rfl later
      · exact uploadsInvariant_of_task rfl later

theorem UploadsInvariant.startDriveClosing (invariant : flatDrive.UploadsInvariant)
    {request : DriveClosureRequest} (fits : flatDrive.Fits (.startDriveClosing request)) :
    (flatDrive.startDriveClosing request).UploadsInvariant := by
  unfold FlatDrive.startDriveClosing
  cases isTask : flatDrive.task with
  | none =>
      refine UploadsInvariant.runNextTaskIfIdle (invariant.map_task (f := id) .refl
        (by simp [isTask]) rfl fun _ => .inl rfl) ?_
      exact fun _ => fits.idle isTask
  | some task =>
      have excused : FlatDrive.IsExcused { flatDrive with
          task := some task.onDriveClose
          closeDriveRequest := some request } := .inl rfl
      have later : task.onDriveClose.UploadsInvariant _ :=
        (invariant.running task isTask).responds task.responds_onDriveClose (fun _ => excused)
          fun _ _ => .inr (.inl excused)
      exact uploadsInvariant_of_task rfl later

theorem UploadsInvariant.manualSynchronize (invariant : flatDrive.UploadsInvariant)
    {request : SynchronizationRequest} (fits : flatDrive.Fits (.manualSynchronize request))
    (leaves : ∀ view ∈ flatDrive.update?, view.MayEnd) :
    (flatDrive.manualSynchronize request).UploadsInvariant := by
  cases isTask : flatDrive.task with
  | none =>
      simp only [FlatDrive.manualSynchronize, isTask, if_true]
      refine UploadsInvariant.runNextTaskIfIdle (invariant.map_task (f := id) .refl
        (by simp [isTask]) rfl id) ?_
      exact fun _ => fits.idle isTask
  | some task =>
      have running := invariant.running task isTask
      have later : task.manualSynchronize.1.UploadsInvariant flatDrive.IsExcused := by
        refine running.responds task.responds_manualSynchronize id ?_
        intro view isView
        have mayEnd : view.MayEnd := leaves view ((update?_of_task isTask).trans isView)
        rcases mayEnd with ending | covers
        · exact (running.update view isView).settled ending
        · exact .inl covers
      simp only [FlatDrive.manualSynchronize, isTask]
      split
      · exact uploadsInvariant_of_task rfl later
      · exact uploadsInvariant_of_task rfl later

theorem UploadsInvariant.terminate (invariant : flatDrive.UploadsInvariant) :
    flatDrive.terminate.UploadsInvariant := by
  cases isTask : flatDrive.task with
  | none =>
      refine ⟨?_, fun _ => invariant.idle isTask⟩
      intro task isNext
      simp [FlatDrive.terminate, isTask] at isNext
  | some task =>
      have running := invariant.running task isTask
      have isNext : flatDrive.terminate.task = some task.terminate := by
        simp [FlatDrive.terminate, isTask]
      apply uploadsInvariant_of_task isNext
      rcases task.terminate_cases with
        ⟨view, later, isView, isLater, terminates⟩ | ⟨noUpdate, stillNone, same, -, closure⟩
      · exact DriveTask.uploadsInvariant_of_update isLater
          ((running.update view isView).terminates terminates)
      · refine ⟨?_, ?_⟩
        · intro view isView
          simp [stillNone] at isView
        · intro _ isOpen
          rw [same]
          exact running.other noUpdate (closure ▸ isOpen)

theorem UploadsInvariant.onInitialized (invariant : flatDrive.UploadsInvariant)
    {task : InitializeDriveTask} (isTask : flatDrive.task = some (.initialization task)) :
    (flatDrive.onInitialized task).UploadsInvariant := by
  have settled : task.drive.opinionController.Settled := (invariant.running _ isTask).other rfl rfl
  unfold FlatDrive.onInitialized
  simp only
  apply UploadsInvariant.cancelAll
  apply uploadsInvariant_of_task rfl
  apply DriveTask.uploadsInvariant_of_settled rfl
  cases isSingle : task.singleTx <;> exact settled

theorem UploadsInvariant.advance (invariant : flatDrive.UploadsInvariant) {task : DriveTask}
    (isTask : flatDrive.task = some task) (fits : flatDrive.Fits .advance)
    (step : flatDrive.advance task = some after) : after.UploadsInvariant := by
  have running := invariant.running task isTask
  have next (notClosure : task.isClosure = false) (noUpdate : task.update? = none) :
      flatDrive.runNextTask.UploadsInvariant := by
    refine invariant.runNextTask ?_ ?_ fits.deferred
    · intro other isOther
      obtain rfl := Option.some.inj (isTask.symm.trans isOther)
      exact notClosure
    · intro view isView
      rw [update?_of_task isTask, noUpdate] at isView
      simp at isView
  cases task with
  | initialization task =>
      unfold FlatDrive.advance at step
      simp only at step
      split at step
      · simp at step
      · obtain rfl := Option.some.inj step
        exact invariant.onInitialized isTask
      · obtain rfl := Option.some.inj step
        exact uploadsInvariant_of_task rfl
          (DriveTask.uploadsInvariant_of_settled rfl (running.other rfl rfl))
      · obtain rfl := Option.some.inj step
        exact next rfl rfl
  | cancellation task =>
      unfold FlatDrive.advance at step
      simp only at step
      split at step
      · obtain rfl := Option.some.inj step
        exact next rfl rfl
      · obtain rfl := Option.some.inj step
        apply uploadsInvariant_of_task rfl
        apply DriveTask.uploadsInvariant_of_settled rfl
        have settled : task.drive.opinionController.Settled := running.other rfl rfl
        exact task.sameUploads_advance.opinionController.symm ▸ settled
  | closure task =>
      unfold FlatDrive.advance at step
      simp only at step
      have closing (next : CloseDriveDriveTask) (excused : Prop) :
          (DriveTask.closure next).UploadsInvariant excused := by
        refine ⟨?_, ?_⟩
        · intro view isView
          simp [DriveTask.update?] at isView
        · intro _ isOpen
          simp [DriveTask.isClosure] at isOpen
      split at step
      · obtain rfl := Option.some.inj step
        exact uploadsInvariant_of_task isTask (closing _ _)
      · obtain rfl := Option.some.inj step
        exact uploadsInvariant_of_task rfl (closing _ _)
  | modification | stream | synchronization | manualModification => simp [FlatDrive.advance] at step

theorem UploadsInvariant.manual (invariant : flatDrive.UploadsInvariant) {task : DriveTask}
    {event : ManualEvent} (isTask : flatDrive.task = some task)
    (fits : flatDrive.Fits (.manual event))
    (step : flatDrive.manual event task = some after) : after.UploadsInvariant := by
  have running := invariant.running task isTask
  cases task with
  | manualModification task =>
      unfold FlatDrive.manual at step
      simp only at step
      split at step
      · obtain rfl := Option.some.inj step
        refine invariant.runNextTask ?_ ?_ fits.deferred
        · intro other isOther
          obtain rfl := Option.some.inj (isTask.symm.trans isOther)
          rfl
        · intro view isView
          rw [update?_of_task isTask] at isView
          simp [DriveTask.update?] at isView
      · obtain ⟨later, stepped, rfl⟩ := Option.map_eq_some_iff.mp step
        apply uploadsInvariant_of_task rfl
        apply DriveTask.uploadsInvariant_of_settled rfl
        have settled : task.drive.opinionController.Settled := running.other rfl rfl
        exact settled.renames (ManualModificationsTask.renames_handle stepped).1
  | initialization | modification | stream | synchronization | cancellation | closure =>
      simp [FlatDrive.manual] at step

theorem UploadsInvariant.taskStep (invariant : flatDrive.UploadsInvariant) {task : DriveTask}
    {event : TaskEvent} (isTask : flatDrive.task = some task) (isInternal : event.isInternal = true)
    (fits : flatDrive.Fits (.task event)) (leaves : flatDrive.LeavesNothing (.task event))
    (step : flatDrive.taskStep event task = some after) : after.UploadsInvariant := by
  have running := invariant.running task isTask
  obtain ⟨view, isView, ⟨isHead, -, rfl⟩ | ⟨next, later, rfl, isLater, steps⟩⟩ :=
    taskStep_cases isInternal step
  · have isUpdate : flatDrive.update? = some view := (update?_of_task isTask).trans isView
    refine invariant.runNextTask ?_ ?_ fits.deferred
    · intro other isOther
      obtain rfl := Option.some.inj (isTask.symm.trans isOther)
      exact DriveTask.isClosure_of_update isView
    · intro other isOther
      obtain rfl := Option.some.inj (isUpdate.symm.trans isOther)
      exact isEnding_of_head isHead
  · have leavesHere := leaves view ((update?_of_task isTask).trans isView)
    apply uploadsInvariant_of_task rfl
    exact DriveTask.uploadsInvariant_of_update isLater
      ((running.update view isView).steps steps leavesHere.1 leavesHere.2
        (fits.update isTask isView))

theorem requestedSize_append (requests : List DeferredRequest) (request : DeferredRequest) :
    requestedSize (requests ++ [request]) = requestedSize requests + request.maxDataSize := by
  simp [requestedSize]

/-- A step that leaves nothing behind keeps the uploads within what is expected. -/
theorem UploadsInvariant.step (invariant : flatDrive.UploadsInvariant)
    (fits : flatDrive.Fits event) (leaves : flatDrive.LeavesNothing event)
    (step : flatDriveSystem.step flatDrive event = some after) : after.UploadsInvariant := by
  unfold flatDriveSystem at step
  simp only at step
  split at step
  · simp at step
  cases event with
  | task event =>
      unfold handle at step
      simp only at step
      split at step
      · rename_i isInternal
        obtain ⟨task, isTask, stepped⟩ := Option.bind_eq_some_iff.mp step
        exact invariant.taskStep isTask isInternal fits leaves stepped
      · simp at step
  | loaded loaded =>
      unfold handle at step
      simp only at step
      split at step
      · split at step
        · obtain rfl := Option.some.inj step
          apply uploadsInvariant_of_task rfl
          apply DriveTask.uploadsInvariant_of_settled rfl
          exact (InitializeDriveTask.uploads_initializeDrive _ loaded).1.symm ▸ leaves
        · simp at step
      · simp at step
  | advance =>
      obtain ⟨task, isTask, stepped⟩ := Option.bind_eq_some_iff.mp step
      exact invariant.advance isTask fits stepped
  | manual event =>
      obtain ⟨task, isTask, stepped⟩ := Option.bind_eq_some_iff.mp step
      exact invariant.manual isTask fits stepped
  | opinionReceived anOpinion =>
      obtain rfl := Option.some.inj step
      have keeps (task : DriveTask) := task.keeps_processedModifyOpinion anOpinion
      cases isTask : flatDrive.task with
      | none =>
          simp only [onOpinionReceived, isTask]
          exact invariant.map_task keeps (by simp [isTask]) rfl id
      | some task =>
          simp only [onOpinionReceived, isTask]
          split
          · exact invariant.map_task keeps (by simp [isTask]) rfl id
          · exact invariant.map_task keeps (by simp [isTask]) rfl id
  | approvalTransactionPublished transaction =>
      obtain rfl := Option.some.inj step
      exact invariant.published fits
  | approvalTransactionFailed transactionHash =>
      obtain rfl := Option.some.inj step
      exact invariant.map_task (fun task => task.keeps_onApprovalTxFailed transactionHash) rfl rfl id
  | startModifyDrive request =>
      obtain rfl := Option.some.inj step
      exact invariant.queue rfl rfl rfl rfl fits (requestedSize_append _ _)
  | startStream request =>
      obtain rfl := Option.some.inj step
      exact invariant.queue rfl rfl rfl rfl fits (requestedSize_append _ _)
  | initiateManualModifications request =>
      obtain rfl := Option.some.inj step
      exact invariant.queue rfl rfl rfl rfl fits rfl
  | cancelModifyDrive request =>
      obtain rfl := Option.some.inj step
      exact invariant.cancelModifyDrive request
  | startDriveClosing request =>
      obtain rfl := Option.some.inj step
      exact invariant.startDriveClosing fits
  | manualSynchronize request =>
      obtain rfl := Option.some.inj step
      exact invariant.manualSynchronize fits leaves
  | chunkInfoReceived chunkInfo isVerified =>
      obtain rfl := Option.some.inj step
      exact invariant.map_task (fun task => task.keeps_streamEvent _ rfl) rfl rfl id
  | finishStream finishStream =>
      obtain rfl := Option.some.inj step
      exact invariant.map_task (fun task => task.keeps_streamEvent _ rfl) rfl rfl id
  | setReplicators | setShardDonator | setMinReplicatorsNumber =>
      obtain rfl := Option.some.inj step
      exact invariant.mapDrive (fun _ => rfl) fun _ => rfl
  | terminate =>
      obtain rfl := Option.some.inj step
      exact invariant.terminate

theorem notApprovedSum_of_counts {event : TaskEvent} {view : UpdateView}
    (isUpdate : flatDrive.update? = some view) (isCount : view.base.CountsUploads event)
    (mayCount : view.MayCount) (fits : view.opinionController.approvedExpectedCumulativeDownload +
      view.purpose.size < 2 ^ 64)
    (step : flatDriveSystem.step flatDrive (.task event) = some after) :
    after.drive.opinionController.notApprovedSum =
      view.opinionController.approvedExpectedCumulativeDownload + view.purpose.size := by
  obtain ⟨task, isTask, isView⟩ := Option.bind_eq_some_iff.mp isUpdate
  unfold flatDriveSystem at step
  simp only at step
  split at step
  · simp at step
  unfold handle at step
  simp only at step
  split at step
  · rw [isTask, Option.bind_some] at step
    have counted := ModifyOpinionController.notApprovedSum_updateCumulativeUploads
      view.opinionController mayCount.traffic view.purpose.modification view.purpose.size
    rw [opinionController_of_counts isView isCount step]
    exact counted.trans (u64_of_lt fits)
  · simp at step

/-- The assertions hold for the call of a step that leaves nothing behind. -/
theorem UploadsInvariant.assertionsHold (invariant : flatDrive.UploadsInvariant)
    (fits : flatDrive.Fits event) (leaves : flatDrive.LeavesNothing event) :
    flatDrive.AssertionsHold event := by
  cases event with
  | task event =>
      intro view isUpdate
      obtain ⟨task, isTask, isView⟩ := Option.bind_eq_some_iff.mp isUpdate
      have here := (invariant.running task isTask).update view isView
      have fitsHere := fits.update isTask isView
      have expected : view.opinionController.expectedCumulativeDownload view.purpose.size =
          view.opinionController.approvedExpectedCumulativeDownload + view.purpose.size :=
        u64_of_lt fitsHere
      constructor
      · intro isCount
        rw [expected]
        refine ⟨Nat.add_pos_left here.expects.positive _, here.covers, ?_⟩
        intro after step
        exact notApprovedSum_of_counts isUpdate isCount ((leaves view isUpdate).1 isCount) fitsHere
          step
      · intro isApproval
        exact here.counted isApproval.isCounted
  | loaded | advance | manual | opinionReceived | approvalTransactionPublished
  | approvalTransactionFailed | startModifyDrive | startStream | cancelModifyDrive
  | startDriveClosing | manualSynchronize | initiateManualModifications | chunkInfoReceived
  | finishStream | setReplicators | setShardDonator | setMinReplicatorsNumber | terminate =>
      trivial

/-- A drive that is created with something expected, and without uploads. -/
theorem uploadsInvariant_create (drive : DriveParams) (clientKey : Key) {expected : Nat}
    (positive : 0 < expected) (small : expected < 2 ^ 64)
    (completedModifications : List CompletedModification)
    (actionListFiles : InfoHash → Option ActionListFile) :
    (create { drive with opinionController :=
      { clientKey, approvedExpectedCumulativeDownload := expected } } completedModifications
      actionListFiles).UploadsInvariant := by
  apply uploadsInvariant_of_task rfl
  apply DriveTask.uploadsInvariant_of_settled rfl
  exact ⟨⟨positive, small, Nat.zero_le _⟩, Nat.zero_le _⟩

/-- In every run of a drive that is created with something expected, and whose steps leave
    nothing behind, the assertions of the opinion controller hold, and what has been
    counted comes to what is expected. -/
theorem uploads_assertions_hold (drive : DriveParams) (clientKey : Key) {expected : Nat}
    (positive : 0 < expected) (small : expected < 2 ^ 64)
    (completedModifications : List CompletedModification)
    (actionListFiles : InfoHash → Option ActionListFile) {events : List DriveEvent}
    (meets : flatDriveSystem.Meets
      (fun flatDrive event => flatDrive.Fits event ∧ flatDrive.LeavesNothing event)
      (create { drive with opinionController :=
        { clientKey, approvedExpectedCumulativeDownload := expected } } completedModifications
        actionListFiles) events) :
    flatDriveSystem.Meets (fun flatDrive event => flatDrive.AssertionsHold event)
      (create { drive with opinionController :=
        { clientKey, approvedExpectedCumulativeDownload := expected } } completedModifications
        actionListFiles) events := by
  have start := uploadsInvariant_create drive clientKey positive small completedModifications
    actionListFiles
  refine Transition.Meets.of_invariant (I := UploadsInvariant) ?_ ?_ start meets
  · intro flatDrive event invariant condition
    exact invariant.assertionsHold condition.1 condition.2
  · intro flatDrive event after invariant condition step
    exact invariant.step condition.1 condition.2 step

/-! ## A sample run -/

def sampleExpectingDrive : FlatDrive :=
  create { ModifyDriveTask.sampleDrive with
    opinionController := { clientKey := 101, approvedExpectedCumulativeDownload := 10 } } []
    fun _ => some (.actions [])

/-- The drive is read from the disk and takes the modification of the sample up to its opinion. -/
def untilCountedUploads : List DriveEvent :=
  [.loaded
    { fsTree := .mk "/" .nil
      rootHash := 7
      lastApprovedModification := 50
      singleTx := none
      opinionController := { clientKey := 101, approvedExpectedCumulativeDownload := 10 } },
    .advance, .advance, .advance, .startModifyDrive ModifyDriveTask.sampleRequest] ++
    (ModifyDriveTask.untilOwnOpinion.map fun event =>
      match event with
      | .metadataReceived _ size isValid => .task (.metadataReceived 1 size isValid)
      | .torrentFinished _ => .task (.torrentFinished 1)
      | event => .task event) ++
    ModifyDriveTask.ownOpinion.map .task

/-- A manual synchronization to the root hash the drive has already interrupts the task. -/
def untilNextUpdate : List DriveEvent :=
  untilCountedUploads ++
    [.manualSynchronize ⟨70, 7⟩, .task (.torrentsRemoved 0),
      .task (.runBackgroundJob (.fileSystem .done)), .task .runSessionJob,
      .task (.runBackgroundJob (.sizes 1 3 1))]

theorem uploads_assertions_hold_sample :
    flatDriveSystem.Reaches (fun flatDrive =>
        flatDrive.drive.opinionController.notApprovedSum = 20) sampleExpectingDrive
      untilCountedUploads ∧
    flatDriveSystem.Meets (fun flatDrive event => flatDrive.AssertionsHold event)
      sampleExpectingDrive untilCountedUploads :=
  ⟨by decide +kernel, uploads_assertions_hold _ _ (by decide) (by decide) _ _ (by decide +kernel)⟩

/-- The uploads of the interrupted modification exceed what is expected of the next update. -/
theorem uploads_assertion_fails :
    ¬ flatDriveSystem.Meets (fun flatDrive event => flatDrive.AssertionsHold event)
      sampleExpectingDrive (untilNextUpdate ++ [.task .runSessionJob]) := by
  decide +kernel

end FlatDrive

end SiriusDrive
