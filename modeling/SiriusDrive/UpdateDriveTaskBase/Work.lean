import SiriusDrive.ModifyApprovalTaskBase

/-! # The work a task has scheduled

What the functions of `UpdateDriveTaskBase` do to the jobs, removals and torrents of
a task: they only add to what is scheduled, and only those that work on the sandbox
schedule work on the sandbox.
-/

namespace SiriusDrive

/-! ## Work on the sandbox -/

/-- The job belongs to the work from the action list to the root hash. -/
def SessionJob.worksOnSandbox : SessionJob → Bool
  | .modifyIsCompletedWithError .. | .downloadMissingFiles | .myRootHashIsCalculated
  | .createUnusedFileList | .unusedFilesRemoved | .startNextChunk | .requestMissingChunkInfo _
  | .downloadNotification _ => true
  | .onCumulativeUploadsUpdated | .myOpinionIsCreated | .synchronizationIsCompleted
  | .modifyIsCompleted | .runNextTask => false

def BackgroundJob.worksOnSandbox : BackgroundJob → Bool
  | .save (.torrentFile _) => true
  | .save _ | .continueSynchronizingDriveWithSandbox => false
  | _ => true

/-- The torrent is still being downloaded. -/
def Torrent.isActive (torrent : Torrent) : Bool :=
  (torrent.state = .added || torrent.state = .metadataReceived) && !torrent.isRemoved

namespace UpdateDriveTaskBase

/-- What is scheduled remains scheduled, whatever is added to it, and the task is not
    interrupted in between. -/
structure Extends (before after : UpdateDriveTaskBase) : Prop where
  interrupted : after.taskIsInterrupted = before.taskIsInterrupted
  finished : before.taskIsFinished = true → after.taskIsFinished = true
  sessionJobs : before.sessionJobs ⊆ after.sessionJobs
  backgroundJobs : before.backgroundJobs ⊆ after.backgroundJobs
  removals : before.removals ⊆ after.removals

/-- A download goes on, too, and the sandbox remains calculated. -/
structure Persists (before after : UpdateDriveTaskBase) : Prop extends Extends before after where
  downloading : before.downloadingLtHandle.isSome = true → after.downloadingLtHandle.isSome = true
  calculated : before.sandboxCalculated = true → after.sandboxCalculated = true

structure AddsNoSandboxWork (before after : UpdateDriveTaskBase) : Prop where
  sessionJobs : ∀ job ∈ after.sessionJobs, job.worksOnSandbox = true → job ∈ before.sessionJobs
  backgroundJobs :
    ∀ job ∈ after.backgroundJobs, job.worksOnSandbox = true → job ∈ before.backgroundJobs
  torrents : ∀ torrent ∈ after.torrents, torrent.isActive = true → torrent ∈ before.torrents

/-- The functions between leave the sandbox and its download alone. -/
structure Leaves (before after : UpdateDriveTaskBase) : Prop where
  persists : before.Persists after
  addsNoSandboxWork : before.AddsNoSandboxWork after

variable {before middle after : UpdateDriveTaskBase}

theorem Extends.refl (task : UpdateDriveTaskBase) : task.Extends task :=
  ⟨rfl, id, List.Subset.refl _, List.Subset.refl _, List.Subset.refl _⟩

theorem Extends.trans (first : before.Extends middle) (second : middle.Extends after) :
    before.Extends after where
  interrupted := second.interrupted.trans first.interrupted
  finished := second.finished ∘ first.finished
  sessionJobs := List.Subset.trans first.sessionJobs second.sessionJobs
  backgroundJobs := List.Subset.trans first.backgroundJobs second.backgroundJobs
  removals := List.Subset.trans first.removals second.removals

theorem Persists.refl (task : UpdateDriveTaskBase) : task.Persists task := ⟨.refl task, id, id⟩

theorem Persists.trans (first : before.Persists middle) (second : middle.Persists after) :
    before.Persists after where
  toExtends := first.toExtends.trans second.toExtends
  downloading := second.downloading ∘ first.downloading
  calculated := second.calculated ∘ first.calculated

theorem AddsNoSandboxWork.refl (task : UpdateDriveTaskBase) : task.AddsNoSandboxWork task :=
  ⟨fun _ member _ => member, fun _ member _ => member, fun _ member _ => member⟩

theorem AddsNoSandboxWork.trans (first : before.AddsNoSandboxWork middle)
    (second : middle.AddsNoSandboxWork after) : before.AddsNoSandboxWork after where
  sessionJobs := fun job member works =>
    first.sessionJobs job (second.sessionJobs job member works) works
  backgroundJobs := fun job member works =>
    first.backgroundJobs job (second.backgroundJobs job member works) works
  torrents := fun torrent member active =>
    first.torrents torrent (second.torrents torrent member active) active

theorem Leaves.refl (task : UpdateDriveTaskBase) : task.Leaves task := ⟨.refl task, .refl task⟩

theorem Leaves.trans (first : before.Leaves middle) (second : middle.Leaves after) :
    before.Leaves after :=
  ⟨first.persists.trans second.persists, first.addsNoSandboxWork.trans second.addsNoSandboxWork⟩

theorem Leaves.comp (second : middle.Leaves after) (first : before.Leaves middle) :
    before.Leaves after :=
  first.trans second

theorem AddsNoSandboxWork.of_eq (sessionJobs : after.sessionJobs = before.sessionJobs)
    (backgroundJobs : after.backgroundJobs = before.backgroundJobs)
    (torrents : after.torrents = before.torrents) : before.AddsNoSandboxWork after :=
  ⟨fun _ member _ => sessionJobs ▸ member, fun _ member _ => backgroundJobs ▸ member,
    fun _ member _ => torrents ▸ member⟩

theorem Leaves.of_eq (sessionJobs : after.sessionJobs = before.sessionJobs)
    (backgroundJobs : after.backgroundJobs = before.backgroundJobs)
    (removals : after.removals = before.removals) (torrents : after.torrents = before.torrents)
    (interrupted : after.taskIsInterrupted = before.taskIsInterrupted)
    (downloading : after.downloadingLtHandle = before.downloadingLtHandle)
    (calculated : after.sandboxCalculated = before.sandboxCalculated)
    (finished : before.taskIsFinished = true → after.taskIsFinished = true) :
    before.Leaves after where
  persists :=
    { interrupted, finished
      sessionJobs := sessionJobs ▸ List.Subset.refl _
      backgroundJobs := backgroundJobs ▸ List.Subset.refl _
      removals := removals ▸ List.Subset.refl _
      downloading := fun isSome => downloading ▸ isSome
      calculated := fun isTrue => calculated ▸ isTrue }
  addsNoSandboxWork := .of_eq sessionJobs backgroundJobs torrents

variable (task : UpdateDriveTaskBase)

@[simp] theorem drive_finishTask : task.finishTask.drive = task.drive := by
  simp only [finishTask]
  split <;> rfl

theorem persists_executeOnSessionThread (job : SessionJob) :
    task.Persists (task.executeOnSessionThread job) :=
  ⟨⟨rfl, id, List.subset_append_left _ _, List.Subset.refl _, List.Subset.refl _⟩, id, id⟩

theorem persists_executeOnBackgroundThread (job : BackgroundJob) :
    task.Persists (task.executeOnBackgroundThread job) :=
  ⟨⟨rfl, id, List.Subset.refl _, List.subset_append_left _ _, List.Subset.refl _⟩, id, id⟩

theorem leaves_executeOnSessionThread {job : SessionJob} (other : job.worksOnSandbox = false) :
    task.Leaves (task.executeOnSessionThread job) where
  persists := task.persists_executeOnSessionThread job
  addsNoSandboxWork :=
    { sessionJobs := by
        intro job' member works
        rcases List.mem_append.mp member with old | new
        · exact old
        · obtain rfl := List.mem_singleton.mp new
          exact absurd works (by simp [other])
      backgroundJobs := fun _ member _ => member
      torrents := fun _ member _ => member }

theorem leaves_executeOnBackgroundThread {job : BackgroundJob}
    (other : job.worksOnSandbox = false) :
    task.Leaves (task.executeOnBackgroundThread job) where
  persists := task.persists_executeOnBackgroundThread job
  addsNoSandboxWork :=
    { sessionJobs := fun _ member _ => member
      backgroundJobs := by
        intro job' member works
        rcases List.mem_append.mp member with old | new
        · exact old
        · obtain rfl := List.mem_singleton.mp new
          exact absurd works (by simp [other])
      torrents := fun _ member _ => member }

theorem leaves_break (fault : Fault) : task.Leaves (task.break_ fault) :=
  .of_eq rfl rfl rfl rfl rfl rfl rfl id

theorem leaves_removeTorrents (handles : List LtHandle) (next : TorrentsRemoved) :
    task.Leaves (task.removeTorrentsFromSession handles next) where
  persists :=
    ⟨⟨rfl, id, List.Subset.refl _, List.Subset.refl _, List.subset_append_left _ _⟩, id, id⟩
  addsNoSandboxWork :=
    { sessionJobs := fun _ member _ => member
      backgroundJobs := fun _ member _ => member
      torrents := by
        intro torrent member active
        obtain ⟨old, isOld, rfl⟩ := List.mem_map.mp member
        split at active
        · simp [Torrent.isActive] at active
        · rename_i kept
          simpa [kept] using isOld }

theorem leaves_finishTask : task.Leaves task.finishTask := by
  simp only [finishTask]
  split
  · exact (leaves_removeTorrents _ _ _).comp
      (.of_eq rfl rfl rfl rfl rfl rfl rfl fun _ => rfl)
  · exact (leaves_executeOnBackgroundThread _ (by rfl)).comp
      (.of_eq rfl rfl rfl rfl rfl rfl rfl fun _ => rfl)

theorem leaves_tryBreakTask (received : Bool) : task.Leaves (task.tryBreakTask received) := by
  simp only [tryBreakTask]
  split
  · exact task.leaves_finishTask
  · exact .refl task

/-- Breaking a task adds no work on the sandbox either, but interrupts the task. -/
theorem addsNoSandboxWork_breakTorrentDownload
    {tryBreakTask : UpdateDriveTaskBase → UpdateDriveTaskBase}
    (leaves : ∀ task : UpdateDriveTaskBase, task.Leaves (tryBreakTask task)) :
    task.AddsNoSandboxWork (task.breakTorrentDownloadAndRunNextTask tryBreakTask) := by
  simp only [breakTorrentDownloadAndRunNextTask]
  split
  · refine AddsNoSandboxWork.trans ?_ (leaves_removeTorrents _ _ _).addsNoSandboxWork
    exact .of_eq rfl rfl rfl
  · refine AddsNoSandboxWork.trans ?_ (leaves _).addsNoSandboxWork
    exact .of_eq rfl rfl rfl

theorem leaves_myRootHashIsCalculated (tx : Hash256) (size : Nat) :
    task.Leaves (task.myRootHashIsCalculated tx size) := by
  simp only [myRootHashIsCalculated]
  split
  · exact task.leaves_finishTask
  · exact (leaves_executeOnBackgroundThread _ (by rfl)).comp
      (.of_eq rfl rfl rfl rfl rfl rfl rfl id)

theorem leaves_onCumulativeUploadsUpdated (tx : Hash256) :
    task.Leaves (task.onCumulativeUploadsUpdated tx) := by
  simp only [onCumulativeUploadsUpdated]
  split
  · exact task.leaves_finishTask
  · split
    · exact task.leaves_break _
    · exact (leaves_executeOnBackgroundThread _ (by rfl)).comp
        (.of_eq rfl rfl rfl rfl rfl rfl rfl id)

theorem leaves_synchronizationIsCompleted (tx : Hash256) :
    task.Leaves (task.synchronizationIsCompleted tx) :=
  (leaves_executeOnBackgroundThread _ (by rfl)).comp
      (.of_eq rfl rfl rfl rfl rfl rfl rfl id)

theorem leaves_modifyIsCompleted (tx : Hash256) : task.Leaves (task.modifyIsCompleted tx) := by
  simp only [modifyIsCompleted]
  split
  · exact (leaves_finishTask _).comp
      (.of_eq rfl rfl rfl rfl rfl rfl rfl id)
  · exact task.leaves_break _

theorem leaves_startSynchronizing : task.Leaves task.startSynchronizingDriveWithSandbox := by
  simp only [startSynchronizingDriveWithSandbox]
  split
  · exact task.leaves_break _
  · exact (leaves_removeTorrents _ _ _).comp
      (.of_eq rfl rfl rfl rfl rfl rfl rfl id)

theorem leaves_startSynchronizingAfter
    (transaction : PublishedModificationApprovalTransactionInfo) :
    task.Leaves (task.startSynchronizingAfter transaction) := by
  simp only [startSynchronizingAfter]
  split
  · exact task.leaves_break _
  · split
    · exact task.leaves_startSynchronizing
    · split
      · exact task.leaves_break _
      · exact (leaves_startSynchronizing _).comp
          (.of_eq rfl rfl rfl rfl rfl rfl rfl id)

theorem leaves_saveRestartValues (values : RestartValues) {next : SessionJob}
    (other : next.worksOnSandbox = false) : task.Leaves (task.saveRestartValues values next) :=
  (leaves_executeOnSessionThread _ other).comp
      (.of_eq rfl rfl rfl rfl rfl rfl rfl id)

theorem leaves_runSaveJob {job : SaveJob} (other : (BackgroundJob.save job).worksOnSandbox = false) :
    task.Leaves (task.runSaveJob job) := by
  cases job with
  | torrentFile => simp [BackgroundJob.worksOnSandbox] at other
  | clearSandbox => exact task.leaves_executeOnSessionThread rfl
  | notApprovedCumulativeUploads | singleApprovalTransaction | approvedCumulativeUploads =>
      exact task.leaves_saveRestartValues _ rfl

theorem persists_runSaveJob (job : SaveJob) : task.Persists (task.runSaveJob job) := by
  cases job with
  | torrentFile handle => exact task.persists_executeOnSessionThread _
  | _ => exact (task.leaves_runSaveJob rfl).persists

theorem persists_onTorrentsRemoved (removal : TorrentsRemoved) :
    task.Persists (task.onTorrentsRemoved removal) := by
  cases removal with
  | finishTask => exact task.leaves_finishTask.persists
  | clearSandbox | continueSynchronizing => exact task.persists_executeOnBackgroundThread _
  | removeUnusedFiles =>
      exact ⟨⟨rfl, id, List.Subset.refl _, List.subset_append_left _ _, List.Subset.refl _⟩, id, id⟩

theorem leaves_addTraffic (uploader : Key) (size : Nat) : task.Leaves (task.addTraffic uploader size) :=
  .of_eq rfl rfl rfl rfl rfl rfl rfl id

theorem leaves_setReplicators (replicatorKeys : List ReplicatorKey) :
    task.Leaves (task.setReplicators replicatorKeys) :=
  .of_eq rfl rfl rfl rfl rfl rfl rfl id

theorem leaves_setMinReplicatorsNumber (number : Nat) :
    task.Leaves (task.setMinReplicatorsNumber number) :=
  .of_eq rfl rfl rfl rfl rfl rfl rfl id

end UpdateDriveTaskBase

namespace ModifyApprovalTaskBase

open UpdateDriveTaskBase (Leaves)

variable (task : ModifyApprovalTaskBase)

theorem leaves_opinionTimerExpired :
    task.toUpdateDriveTaskBase.Leaves task.opinionTimerExpired.toUpdateDriveTaskBase := by
  simp only [opinionTimerExpired]
  split
  · exact .refl _
  · split
    · exact task.leaves_break _
    · exact .refl _

theorem leaves_checkOpinionNumber :
    task.toUpdateDriveTaskBase.Leaves
      task.checkOpinionNumberAndStartTimer.toUpdateDriveTaskBase := by
  simp only [checkOpinionNumberAndStartTimer]
  split
  · exact leaves_opinionTimerExpired
      { task with modifyOpinionTimer := task.modifyOpinionTimer.cancel }
  · split
    · split <;> exact .refl _
    · exact .refl _

theorem leaves_shareMyOpinion (myOpinion : ApprovalTransactionInfo) :
    task.toUpdateDriveTaskBase.Leaves (task.shareMyOpinion myOpinion).toUpdateDriveTaskBase :=
  .of_eq rfl rfl rfl rfl rfl rfl rfl id

theorem leaves_shareMyOpinionTimerExpired :
    task.toUpdateDriveTaskBase.Leaves task.shareMyOpinionTimerExpired.toUpdateDriveTaskBase := by
  simp only [shareMyOpinionTimerExpired]
  split
  · exact task.leaves_break _
  · exact task.leaves_shareMyOpinion _

theorem leaves_continueSynchronizing (result : FileSystemResult) :
    task.toUpdateDriveTaskBase.Leaves
      (task.continueSynchronizingDriveWithSandbox result).toUpdateDriveTaskBase := by
  cases result with
  | done =>
      exact (UpdateDriveTaskBase.leaves_executeOnSessionThread _ (by rfl)).comp
        (.of_eq rfl rfl rfl rfl rfl rfl rfl id)
  | exception => exact task.leaves_finishTask

theorem leaves_myOpinionIsCreated :
    task.toUpdateDriveTaskBase.Leaves task.myOpinionIsCreated.toUpdateDriveTaskBase := by
  have calculated (drive : DriveParams) : task.toUpdateDriveTaskBase.Leaves
      { task.toUpdateDriveTaskBase with drive, sandboxCalculated := true } :=
    ⟨⟨⟨rfl, id, List.Subset.refl _, List.Subset.refl _, List.Subset.refl _⟩, id, fun _ => rfl⟩,
      .of_eq rfl rfl rfl⟩
  simp only [myOpinionIsCreated]
  split
  · exact task.leaves_finishTask
  · split
    · exact task.leaves_break _
    · split
      · exact (UpdateDriveTaskBase.leaves_startSynchronizing _).comp (calculated _)
      · exact (leaves_checkOpinionNumber _).comp (calculated _)

end ModifyApprovalTaskBase

end SiriusDrive
