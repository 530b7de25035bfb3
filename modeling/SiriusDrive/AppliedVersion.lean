import SiriusDrive.ModifyDriveTask.SandboxSteps
import SiriusDrive.StreamTask.Approvals

/-! # The version a task applies

A modification or a stream that completes brings the drive to the root hash of its
sandbox. Nothing compares this with the published root hash, so the drive gets the
published version only if the sandbox has it.
-/

namespace SiriusDrive

open StagedVersion (StaysOn)

/-! ## Modifications -/

namespace ModifyDriveTask

/-- The task goes on for the same request, and nothing but one root hash is staged. -/
structure StaysOnRoot (rootHash : InfoHash) (before after : ModifyDriveTask) : Prop where
  version : StaysOn rootHash before.request.transactionHash before.version after.version
  request : after.request = before.request

theorem version_of_view {task : ModifyDriveTask} {view : SandboxView} {request : ModificationRequest}
    (isView : task.view = (view, request)) : task.version = view.version :=
  congrArg (fun seen => seen.1.version) isView

/-- A step whose sandbox has the root hash neither stages nor commits another one. -/
theorem step_staysOn {task after : ModifyDriveTask} {event : TaskEvent} {rootHash : InfoHash}
    (has : task.SandboxHas rootHash task.request.transactionHash event)
    (step : modifyDriveSystem.step task event = some after) :
    StaysOnRoot rootHash task after := by
  cases sandboxStep_of_step step with
  | keeps same =>
      exact ⟨.inl (version_of_view same), congrArg Prod.snd same⟩
  | calculates result isEvent isView =>
      subst isEvent
      refine ⟨?_, congrArg Prod.snd isView⟩
      rw [version_of_view isView]
      exact .stage (has.1 result rfl)
  | copiesDrive copies isView =>
      obtain ⟨-, isHead, isDone⟩ := copies
      obtain rfl := TaskEvent.isDone_iff.mp isDone
      refine ⟨?_, congrArg Prod.snd isView⟩
      rw [version_of_view isView]
      exact .stage (has.2 isHead)
  | formsOpinion rootHash isCalculated isView =>
      refine ⟨.inl ?_, congrArg Prod.snd isView⟩
      rw [version_of_view isView]
      rfl
  | completes rootHash fsTree isCalculated isSandbox isView =>
      refine ⟨?_, congrArg Prod.snd isView⟩
      rw [version_of_view isView]
      exact .commit isCalculated

end ModifyDriveTask

/-! ## Streams -/

namespace StreamTask

/-- The task goes on for the same request, and nothing but one root hash is staged. -/
structure StaysOnRoot (rootHash : InfoHash) (before after : StreamTask) : Prop where
  version : StaysOn rootHash before.request.streamId before.version after.version
  request : after.request = before.request

variable {task after : StreamTask} {rootHash : InfoHash}

theorem StaysOnRoot.base {f : UpdateDriveTaskBase → UpdateDriveTaskBase}
    (frame : (f task.toUpdateDriveTaskBase).version = task.version) :
    StaysOnRoot rootHash task (task.base f) :=
  ⟨.inl frame, rfl⟩

theorem Proceeds.staysOn {sandbox : Option SandboxResult} (proceeds : Proceeds sandbox task after)
    (same : ∀ result ∈ sandbox, result.rootHash = rootHash) : StaysOnRoot rootHash task after where
  version := by
    rcases proceeds.version with kept | ⟨result, isResult, staged⟩
    · exact .inl kept
    · rw [staged]
      exact .stage (same result isResult)
  request := proceeds.request

theorem Proceeds.staysOn_none (proceeds : Proceeds none task after) :
    StaysOnRoot rootHash task after :=
  proceeds.staysOn fun result isResult => by simp at isResult

theorem staysOn_breakTask (task : StreamTask) : StaysOnRoot rootHash task task.breakTask :=
  .base (task.version_breakTorrentDownload _)

theorem staysOn_onApprovalTxPublished (transaction : PublishedModificationApprovalTransactionInfo) :
    StaysOnRoot rootHash task (task.onApprovalTxPublished transaction).1 := by
  simp only [onApprovalTxPublished]
  split
  · exact ⟨.inl rfl, rfl⟩
  · split
    · exact ⟨.inl (task.version_startSynchronizingAfter _), rfl⟩
    · exact ⟨.inl (UpdateDriveTaskBase.version_breakTorrentDownload _ _), rfl⟩

theorem staysOn_processedModifyOpinion (anOpinion : ApprovalTransactionInfo) :
    StaysOnRoot rootHash task (task.processedModifyOpinion anOpinion).1 := by
  simp only [processedModifyOpinion]
  split
  · split
    · exact ⟨.inl task.version_checkOpinionNumber, rfl⟩
    · exact ⟨.inl rfl, rfl⟩
  · exact ⟨.inl rfl, rfl⟩

theorem runSessionJob_staysOn {job : SessionJob} (step : task.runSessionJob job = some after) :
    StaysOnRoot rootHash task after := by
  by_cases validates : job = .myOpinionIsCreated
  · subst validates
    obtain rfl := Option.some.inj step
    exact ⟨.inl task.version_myOpinionIsCreated, rfl⟩
  by_cases completes : job = .modifyIsCompleted
  · subst completes
    obtain rfl := Option.some.inj step
    exact ⟨task.staysOn_modifyIsCompleted rootHash _, rfl⟩
  · exact (task.proceeds_runSessionJob step validates completes).staysOn_none

/-- A step whose sandbox has the root hash neither stages nor commits another one. -/
theorem step_staysOn {event : TaskEvent}
    (has : task.SandboxHas rootHash task.request.streamId event)
    (step : streamSystem.step task event = some after) : StaysOnRoot rootHash task after := by
  obtain ⟨-, handles⟩ := handles_of_step step
  cases handles with
  | runSessionJob jobs run =>
      have stays : StaysOnRoot rootHash _ after := runSessionJob_staysOn run
      exact ⟨stays.version, stays.request⟩
  | runBackgroundJob jobs run =>
      have stays := (proceeds_runBackgroundJob _ run).staysOn has.1
      exact ⟨stays.version, stays.request⟩
  | torrentsRemoved found => exact .base (UpdateDriveTaskBase.version_onTorrentsRemoved _ _)
  | metadataReceived found totalSize isValid =>
      exact (task.proceeds_onMetadataReceived _ _ _).staysOn_none
  | modifyOpinionTimerExpired pending =>
      exact ⟨.inl (ModifyApprovalTaskBase.version_opinionTimerExpired _), rfl⟩
  | shareMyOpinionTimerExpired pending =>
      exact ⟨.inl task.version_shareMyOpinionTimerExpired, rfl⟩
  | opinionReceived anOpinion => exact staysOn_processedModifyOpinion _
  | approvalTxPublished transaction => exact staysOn_onApprovalTxPublished _
  | cancelModify cancelRequest =>
      simp only [shouldCancelModify]
      split
      · exact ⟨.inl rfl, rfl⟩
      · split
        · exact task.staysOn_breakTask
        · exact ⟨.inl rfl, rfl⟩
  | driveClose =>
      simp only [onDriveClose]
      split
      · exact ⟨.inl rfl, rfl⟩
      · exact task.staysOn_breakTask
  | manualSynchronize =>
      simp only [manualSynchronize]
      split
      · exact ⟨.inl rfl, rfl⟩
      · exact task.staysOn_breakTask
  | terminate => exact ⟨.inl (UpdateDriveTaskBase.version_breakTorrentDownload _ _), rfl⟩
  | chunkInfoReceived chunkInfo isVerified =>
      exact (task.proceeds_acceptChunkInfoMessage _ _).staysOn_none
  | finishStream finishStream => exact (task.proceeds_acceptFinishStreamTx _).staysOn_none
  | torrentFinished | pieceReceived | approvalTxFailed | setReplicators
  | setMinReplicatorsNumber => exact ⟨.inl rfl, rfl⟩

end StreamTask

/-! ## Approved versions -/

open StagedVersion (Carries)

/-- The drive has the root hash of every approval of a transaction that was published, and
    the transaction is the last one applied. -/
def AppliesApproved (events : List TaskEvent) (tx : Hash256) (drive : DriveParams) : Prop :=
  ∀ transaction, .approvalTxPublished transaction ∈ events →
    transaction.modifyTransactionHash = tx →
      drive.rootHash = transaction.rootHash ∧ drive.lastApprovedModification = tx

theorem AppliesApproved.of_version {σ : Type} {S : Transition σ TaskEvent}
    {base : σ → UpdateDriveTaskBase} {events : List TaskEvent} {start last : σ} {tx : Hash256}
    {rootHash : InfoHash} {drive : DriveParams}
    (has : S.Meets (fun task => (base task).SandboxHas rootHash tx) start events)
    (run : S.exec start events = some last)
    (applied : drive.rootHash = rootHash ∧ drive.lastApprovedModification = tx) :
    AppliesApproved events tx drive := by
  intro transaction member about
  obtain ⟨task, published⟩ := has.of_mem run member
  exact ⟨applied.1.trans (published about).symm, applied.2⟩

namespace ModifyDriveTask

variable {request : ModificationRequest} {receivedOpinions : ReceivedOpinions}
  {drive : DriveParams} {actionListFile : Option ActionListFile} {events : List TaskEvent}
  {task : ModifyDriveTask} {rootHash : InfoHash}

theorem version_start :
    (start request receivedOpinions drive actionListFile).version =
        { current := drive.rootHash, name := drive.lastApprovedModification } ∧
      (start request receivedOpinions drive actionListFile).request = request := by
  simp only [start, run]
  split <;> exact ⟨rfl, rfl⟩

/-- A run whose sandboxes have one root hash carries it, and works for its request. -/
theorem carries_of_run
    (has : modifyDriveSystem.Meets (fun task => task.SandboxHas rootHash request.transactionHash)
      (start request receivedOpinions drive actionListFile) events)
    (run : modifyDriveSystem.exec (start request receivedOpinions drive actionListFile) events =
      some task) :
    task.request = request ∧ task.version.Carries rootHash request.transactionHash := by
  have preserved : ∀ (task : ModifyDriveTask) event after,
      task.request = request ∧ task.version.Carries rootHash request.transactionHash →
      task.SandboxHas rootHash request.transactionHash event →
      modifyDriveSystem.step task event = some after →
      after.request = request ∧ after.version.Carries rootHash request.transactionHash := by
    rintro task event after ⟨rfl, carries⟩ has step
    have stays := step_staysOn has step
    exact ⟨stays.request, carries.staysOn stays.version⟩
  obtain ⟨version, isRequest⟩ : _ ∧ (start request receivedOpinions drive actionListFile).request =
      request := version_start
  refine Transition.invariant preserved ⟨isRequest, ?_⟩ has run
  rw [version]
  exact ⟨fun staged isStaged => by simp at isStaged, fun committed => by simp at committed⟩

end ModifyDriveTask

namespace StreamTask

variable {request : StreamRequest} {drive : DriveParams} {events : List TaskEvent}
  {task : StreamTask} {rootHash : InfoHash}

theorem carries_of_run
    (has : streamSystem.Meets (fun task => task.SandboxHas rootHash request.streamId)
      (create request drive) events)
    (run : streamSystem.exec (create request drive) events = some task) :
    task.request = request ∧ task.version.Carries rootHash request.streamId := by
  have preserved : ∀ (task : StreamTask) event after,
      task.request = request ∧ task.version.Carries rootHash request.streamId →
      task.SandboxHas rootHash request.streamId event →
      streamSystem.step task event = some after →
      after.request = request ∧ after.version.Carries rootHash request.streamId := by
    rintro task event after ⟨rfl, carries⟩ has step
    have stays := step_staysOn has step
    exact ⟨stays.request, carries.staysOn stays.version⟩
  exact Transition.invariant preserved
    ⟨rfl, ⟨fun staged isStaged => by simp [create, UpdateDriveTaskBase.version] at isStaged,
      fun committed => by simp [create, UpdateDriveTaskBase.version] at committed⟩⟩ has run

end StreamTask

/-- A modification or a stream that completes has applied the published version, if all
    sandboxes of its task have the published root hash. -/
theorem completed_version_is_approved (rootHash : InfoHash) :
    (∀ {request receivedOpinions drive actionListFile events task},
      ModifyDriveTask.modifyDriveSystem.Meets
        (fun task => task.SandboxHas rootHash request.transactionHash)
        (.start request receivedOpinions drive actionListFile) events →
      ModifyDriveTask.modifyDriveSystem.exec
        (.start request receivedOpinions drive actionListFile) events = some task →
      task.modificationIsCompleted = true →
      AppliesApproved events request.transactionHash task.drive) ∧
    (∀ {request drive events task},
      StreamTask.streamSystem.Meets (fun task => task.SandboxHas rootHash request.streamId)
        (.create request drive) events →
      StreamTask.streamSystem.exec (.create request drive) events = some task →
      task.modificationIsCompleted = true →
      AppliesApproved events request.streamId task.drive) :=
  ⟨fun has run completed =>
      .of_version has run ((ModifyDriveTask.carries_of_run has run).2.committed completed),
    fun has run completed =>
      .of_version has run ((StreamTask.carries_of_run has run).2.committed completed)⟩

/-! ## Sample runs -/

/-- The approval of the sample with the root hash the others have calculated. -/
def ownApproval : PublishedModificationApprovalTransactionInfo where
  driveKey := 100
  modifyTransactionHash := 60
  rootHash := 8
  replicatorKeys := [1, 2, 3, 9]

/-- The approval is published and the drive brought to the version. -/
def completion : List TaskEvent :=
  [.approvalTxPublished ownApproval, .torrentsRemoved 0, .runBackgroundJob (.fileSystem .done),
    .runSessionJob, .runBackgroundJob (.fileSystem .done), .runSessionJob]

theorem completed_version_is_approved_in_samples :
    ModifyDriveTask.modifyDriveSystem.Reaches
      (fun task => task.modificationIsCompleted = true ∧
        AppliesApproved
          (ModifyDriveTask.untilOwnOpinion ++ ModifyDriveTask.ownOpinion ++ completion) 60 task.drive)
      ModifyDriveTask.sampleTask
      (ModifyDriveTask.untilOwnOpinion ++ ModifyDriveTask.ownOpinion ++ completion) ∧
    StreamTask.streamSystem.Reaches
      (fun task => task.modificationIsCompleted = true ∧
        AppliesApproved
          (StreamTask.untilStreamOpinion ModifyDriveTask.sampleSandbox ++ completion) 60 task.drive)
      StreamTask.sampleStream
      (StreamTask.untilStreamOpinion ModifyDriveTask.sampleSandbox ++ completion) := by
  obtain ⟨task, run, completed⟩ : ModifyDriveTask.modifyDriveSystem.Reaches
      (·.modificationIsCompleted = true) ModifyDriveTask.sampleTask
      (ModifyDriveTask.untilOwnOpinion ++ ModifyDriveTask.ownOpinion ++ completion) := by
    decide +kernel
  obtain ⟨stream, streamRun, streamCompleted⟩ : StreamTask.streamSystem.Reaches
      (·.modificationIsCompleted = true) StreamTask.sampleStream
      (StreamTask.untilStreamOpinion ModifyDriveTask.sampleSandbox ++ completion) := by
    decide +kernel
  exact ⟨⟨task, run, completed,
      (completed_version_is_approved 8).1 (by decide +kernel) run completed⟩,
    stream, streamRun, streamCompleted,
      (completed_version_is_approved 8).2 (by decide +kernel) streamRun streamCompleted⟩

/-- The action list cannot be downloaded; our opinion is about an unchanged drive. -/
def untilFailedOpinion : List TaskEvent :=
  [.metadataReceived 0 5 false, .runBackgroundJob (.fileSystem .done), .runSessionJob,
    .runBackgroundJob (.fileSystem .done), .runSessionJob, .runBackgroundJob (.fileSystem .done),
    .runSessionJob]

/-- A replicator that could not download the action list records the modification as
    applied, with the root hash of the drive before it. -/
theorem failed_download_is_recorded_as_applied :
    ModifyDriveTask.modifyDriveSystem.Reaches
      (fun task => task.modificationIsCompleted = true ∧ task.status = .downloadFailed ∧
        task.drive.lastApprovedModification = 60 ∧ task.drive.rootHash ≠ ownApproval.rootHash)
      ModifyDriveTask.sampleTask (untilFailedOpinion ++ completion) := by
  decide +kernel

end SiriusDrive
