import SiriusDrive.UpdateDriveTaskBase.Work

/-! # The downloads of a task

The jobs on the way to the next download and the torrents a task has. The functions all
tasks share add nothing to them: they only remove torrents from the session.
-/

namespace SiriusDrive

def SessionJob.downloads : SessionJob → Bool
  | .downloadMissingFiles | .downloadNotification _ => true
  | _ => false

def BackgroundJob.downloads : BackgroundJob → Bool
  | .prepareDownloadMissingFiles | .save (.torrentFile _) => true
  | _ => false

/-- The torrent after some handles have been removed from the session. -/
def Torrent.removedBy (torrent : Torrent) (handles : List LtHandle) : Torrent :=
  if torrent.handle ∈ handles then { torrent with isRemoved := true } else torrent

section Removed

variable (torrent : Torrent) (handles others : List LtHandle)

@[simp] theorem Torrent.removedBy_nil : torrent.removedBy [] = torrent := by
  simp [removedBy]

@[simp] theorem Torrent.handle_removedBy : (torrent.removedBy handles).handle = torrent.handle := by
  unfold removedBy
  split <;> rfl

@[simp] theorem Torrent.use_removedBy : (torrent.removedBy handles).use = torrent.use := by
  unfold removedBy
  split <;> rfl

@[simp] theorem Torrent.uploadedDataSize_removedBy :
    (torrent.removedBy handles).uploadedDataSize = torrent.uploadedDataSize := by
  unfold removedBy
  split <;> rfl

theorem Torrent.removedBy_append :
    torrent.removedBy (handles ++ others) = (torrent.removedBy handles).removedBy others := by
  unfold removedBy
  by_cases first : torrent.handle ∈ handles <;> by_cases second : torrent.handle ∈ others <;>
    simp [first, second]

theorem Torrent.removedBy_of_isActive {torrent : Torrent} {handles : List LtHandle}
    (active : (torrent.removedBy handles).isActive = true) :
    torrent.handle ∉ handles ∧ torrent.removedBy handles = torrent := by
  by_cases removed : torrent.handle ∈ handles
  · simp [removedBy, removed, isActive] at active
  · exact ⟨removed, if_neg removed⟩

end Removed

namespace UpdateDriveTaskBase

/-- Nothing is added to the downloads of the task, and nothing but torrents is removed. -/
structure KeepsDownloads (before after : UpdateDriveTaskBase) : Prop where
  sessionJobs : after.sessionJobs.filter (·.downloads) = before.sessionJobs.filter (·.downloads)
  backgroundJobs :
    after.backgroundJobs.filter (·.downloads) = before.backgroundJobs.filter (·.downloads)
  torrents : ∃ handles, after.torrents = before.torrents.map (·.removedBy handles)
  interrupted : after.taskIsInterrupted = before.taskIsInterrupted

variable {before middle after : UpdateDriveTaskBase}

theorem KeepsDownloads.of_eq (sessionJobs : after.sessionJobs = before.sessionJobs)
    (backgroundJobs : after.backgroundJobs = before.backgroundJobs)
    (torrents : after.torrents = before.torrents)
    (interrupted : after.taskIsInterrupted = before.taskIsInterrupted) :
    before.KeepsDownloads after where
  sessionJobs := by rw [sessionJobs]
  backgroundJobs := by rw [backgroundJobs]
  torrents := ⟨[], by simp [torrents]⟩
  interrupted := interrupted

theorem KeepsDownloads.refl (task : UpdateDriveTaskBase) : task.KeepsDownloads task :=
  .of_eq rfl rfl rfl rfl

theorem KeepsDownloads.trans (first : before.KeepsDownloads middle)
    (second : middle.KeepsDownloads after) : before.KeepsDownloads after where
  sessionJobs := second.sessionJobs.trans first.sessionJobs
  backgroundJobs := second.backgroundJobs.trans first.backgroundJobs
  torrents := by
    obtain ⟨handles, isMiddle⟩ := first.torrents
    obtain ⟨others, isAfter⟩ := second.torrents
    exact ⟨handles ++ others, by simp [isAfter, isMiddle, Torrent.removedBy_append]⟩
  interrupted := second.interrupted.trans first.interrupted

theorem KeepsDownloads.comp (second : middle.KeepsDownloads after)
    (first : before.KeepsDownloads middle) : before.KeepsDownloads after :=
  first.trans second

theorem KeepsDownloads.mem_sessionJobs (keeps : before.KeepsDownloads after) {job : SessionJob}
    (downloads : job.downloads = true) : job ∈ after.sessionJobs ↔ job ∈ before.sessionJobs := by
  have same : job ∈ after.sessionJobs.filter (·.downloads) ↔
      job ∈ before.sessionJobs.filter (·.downloads) := by rw [keeps.sessionJobs]
  simpa [List.mem_filter, downloads] using same

theorem KeepsDownloads.mem_backgroundJobs (keeps : before.KeepsDownloads after)
    {job : BackgroundJob} (downloads : job.downloads = true) :
    job ∈ after.backgroundJobs ↔ job ∈ before.backgroundJobs := by
  have same : job ∈ after.backgroundJobs.filter (·.downloads) ↔
      job ∈ before.backgroundJobs.filter (·.downloads) := by rw [keeps.backgroundJobs]
  simpa [List.mem_filter, downloads] using same

theorem KeepsDownloads.findTorrent (keeps : before.KeepsDownloads after) (handle : LtHandle) :
    ∃ handles, after.findTorrent handle = (before.findTorrent handle).map (·.removedBy handles) := by
  obtain ⟨handles, isAfter⟩ := keeps.torrents
  refine ⟨handles, ?_⟩
  have sameHandle : (fun torrent : Torrent => decide (torrent.handle = handle)) ∘
      (·.removedBy handles) = fun torrent : Torrent => decide (torrent.handle = handle) := by
    funext torrent
    simp
  unfold UpdateDriveTaskBase.findTorrent
  rw [isAfter, List.find?_map, sameHandle]

theorem KeepsDownloads.mem_of_isActive (keeps : before.KeepsDownloads after) {torrent : Torrent}
    (member : torrent ∈ after.torrents) (active : torrent.isActive = true) :
    torrent ∈ before.torrents := by
  obtain ⟨handles, isAfter⟩ := keeps.torrents
  rw [isAfter] at member
  obtain ⟨old, isOld, rfl⟩ := List.mem_map.mp member
  rw [(Torrent.removedBy_of_isActive active).2]
  exact isOld

theorem activeTorrent_spec {task : UpdateDriveTaskBase} {handle : LtHandle} {state : TorrentState}
    {torrent : Torrent} (found : task.activeTorrent handle state = some torrent) :
    task.findTorrent handle = some torrent ∧ torrent ∈ task.torrents ∧ torrent.handle = handle ∧
      torrent.state = state ∧ torrent.isRemoved = false := by
  obtain ⟨isTorrent, inState⟩ := Option.filter_eq_some_iff.mp found
  have sameHandle := List.find?_some isTorrent
  exact ⟨isTorrent, List.mem_of_find?_eq_some isTorrent, by simpa using sameHandle,
    of_decide_eq_true inState⟩

theorem findTorrent_setTorrent (task : UpdateDriveTaskBase) (new : Torrent) (handle : LtHandle) :
    (task.setTorrent new).findTorrent handle =
      (task.findTorrent handle).map fun old => if old.handle = new.handle then new else old := by
  have sameHandle : (fun torrent : Torrent => decide (torrent.handle = handle)) ∘
      (fun old : Torrent => if old.handle = new.handle then new else old) =
      fun torrent : Torrent => decide (torrent.handle = handle) := by
    funext old
    by_cases same : old.handle = new.handle
    · simp [same]
    · simp [same]
  unfold findTorrent setTorrent
  rw [List.find?_map, sameHandle]

variable (task : UpdateDriveTaskBase)

theorem keepsDownloads_executeOnSessionThread {job : SessionJob} (other : job.downloads = false) :
    task.KeepsDownloads (task.executeOnSessionThread job) where
  sessionJobs := by simp [executeOnSessionThread, List.filter_append, other]
  backgroundJobs := rfl
  torrents := ⟨[], by simp [executeOnSessionThread]⟩
  interrupted := rfl

theorem keepsDownloads_executeOnBackgroundThread {job : BackgroundJob}
    (other : job.downloads = false) : task.KeepsDownloads (task.executeOnBackgroundThread job) where
  sessionJobs := rfl
  backgroundJobs := by simp [executeOnBackgroundThread, List.filter_append, other]
  torrents := ⟨[], by simp [executeOnBackgroundThread]⟩
  interrupted := rfl

theorem keepsDownloads_break (fault : Fault) : task.KeepsDownloads (task.break_ fault) :=
  .of_eq rfl rfl rfl rfl

theorem keepsDownloads_removeTorrents (handles : List LtHandle) (next : TorrentsRemoved) :
    task.KeepsDownloads (task.removeTorrentsFromSession handles next) where
  sessionJobs := rfl
  backgroundJobs := rfl
  torrents := ⟨handles, rfl⟩
  interrupted := rfl

theorem keepsDownloads_finishTask : task.KeepsDownloads task.finishTask := by
  simp only [finishTask]
  split
  · exact (keepsDownloads_removeTorrents _ _ _).comp (.of_eq rfl rfl rfl rfl)
  · exact (keepsDownloads_executeOnBackgroundThread _ (by rfl)).comp (.of_eq rfl rfl rfl rfl)

theorem keepsDownloads_tryBreakTask (received : Bool) :
    task.KeepsDownloads (task.tryBreakTask received) := by
  simp only [tryBreakTask]
  split
  · exact task.keepsDownloads_finishTask
  · exact .refl task

theorem keepsDownloads_breakTorrentDownload (received : Bool) :
    { task with taskIsInterrupted := true }.KeepsDownloads
        (task.breakTorrentDownloadAndRunNextTask (·.tryBreakTask received)) ∧
      ∀ torrent ∈ (task.breakTorrentDownloadAndRunNextTask (·.tryBreakTask received)).torrents,
        torrent.isActive = true → some torrent.handle ≠ task.downloadingLtHandle := by
  simp only [breakTorrentDownloadAndRunNextTask]
  cases downloading : task.downloadingLtHandle with
  | none =>
      constructor
      · exact keepsDownloads_tryBreakTask _ received
      · exact fun _ _ _ => Option.some_ne_none _
  | some handle =>
      have removes := keepsDownloads_removeTorrents
        { task with taskIsInterrupted := true, downloadingLtHandle := none } [handle] .finishTask
      constructor
      · exact removes.comp (.of_eq rfl rfl rfl rfl)
      · intro torrent member active isHandle
        obtain ⟨old, isOld, isTorrent⟩ := List.mem_map.mp member
        change old.removedBy [handle] = torrent at isTorrent
        subst isTorrent
        apply (Torrent.removedBy_of_isActive active).1
        simpa using isHandle

theorem keepsDownloads_myRootHashIsCalculated (tx : Hash256) (size : Nat) :
    task.KeepsDownloads (task.myRootHashIsCalculated tx size) := by
  simp only [myRootHashIsCalculated]
  split
  · exact task.keepsDownloads_finishTask
  · exact (keepsDownloads_executeOnBackgroundThread _ (by rfl)).comp (.of_eq rfl rfl rfl rfl)

theorem keepsDownloads_onCumulativeUploadsUpdated (tx : Hash256) :
    task.KeepsDownloads (task.onCumulativeUploadsUpdated tx) := by
  simp only [onCumulativeUploadsUpdated]
  split
  · exact task.keepsDownloads_finishTask
  · split
    · exact task.keepsDownloads_break _
    · exact (keepsDownloads_executeOnBackgroundThread _ (by rfl)).comp (.of_eq rfl rfl rfl rfl)

theorem keepsDownloads_synchronizationIsCompleted (tx : Hash256) :
    task.KeepsDownloads (task.synchronizationIsCompleted tx) :=
  (keepsDownloads_executeOnBackgroundThread _ (by rfl)).comp (.of_eq rfl rfl rfl rfl)

theorem keepsDownloads_modifyIsCompleted (tx : Hash256) :
    task.KeepsDownloads (task.modifyIsCompleted tx) := by
  simp only [modifyIsCompleted]
  split
  · exact (keepsDownloads_finishTask _).comp (.of_eq rfl rfl rfl rfl)
  · exact task.keepsDownloads_break _

theorem keepsDownloads_startSynchronizing :
    task.KeepsDownloads task.startSynchronizingDriveWithSandbox := by
  simp only [startSynchronizingDriveWithSandbox]
  split
  · exact task.keepsDownloads_break _
  · exact (keepsDownloads_removeTorrents _ _ _).comp (.of_eq rfl rfl rfl rfl)

theorem keepsDownloads_startSynchronizingAfter
    (transaction : PublishedModificationApprovalTransactionInfo) :
    task.KeepsDownloads (task.startSynchronizingAfter transaction) := by
  simp only [startSynchronizingAfter]
  split
  · exact task.keepsDownloads_break _
  · split
    · exact task.keepsDownloads_startSynchronizing
    · split
      · exact task.keepsDownloads_break _
      · exact (keepsDownloads_startSynchronizing _).comp (.of_eq rfl rfl rfl rfl)

/-- The jobs that save values lead to no download, but for that of a torrent file. -/
theorem keepsDownloads_runSaveJob {job : SaveJob}
    (other : (BackgroundJob.save job).downloads = false) :
    task.KeepsDownloads (task.runSaveJob job) := by
  cases job with
  | torrentFile => simp [BackgroundJob.downloads] at other
  | clearSandbox => exact task.keepsDownloads_executeOnSessionThread rfl
  | notApprovedCumulativeUploads | singleApprovalTransaction | approvedCumulativeUploads =>
      exact (keepsDownloads_executeOnSessionThread _ (by rfl)).comp (.of_eq rfl rfl rfl rfl)

theorem keepsDownloads_onTorrentsRemoved (removal : TorrentsRemoved) :
    task.KeepsDownloads (task.onTorrentsRemoved removal) := by
  cases removal with
  | finishTask => exact task.keepsDownloads_finishTask
  | clearSandbox | continueSynchronizing =>
      exact task.keepsDownloads_executeOnBackgroundThread (by rfl)
  | removeUnusedFiles =>
      exact (keepsDownloads_executeOnBackgroundThread _ (by rfl)).comp (.of_eq rfl rfl rfl rfl)

end UpdateDriveTaskBase

namespace ModifyApprovalTaskBase

open UpdateDriveTaskBase (KeepsDownloads)

/-- The downloads are kept, and so is what has been downloaded. -/
structure KeepsDownloaded (before after : ModifyApprovalTaskBase) : Prop extends
    KeepsDownloads before.toUpdateDriveTaskBase after.toUpdateDriveTaskBase where
  uploadedDataSize : after.uploadedDataSize = before.uploadedDataSize

variable {before middle after : ModifyApprovalTaskBase} (task : ModifyApprovalTaskBase)

theorem KeepsDownloaded.refl : task.KeepsDownloaded task := ⟨.refl _, rfl⟩

theorem KeepsDownloaded.comp (second : middle.KeepsDownloaded after)
    (first : before.KeepsDownloaded middle) : before.KeepsDownloaded after :=
  ⟨first.trans second.toKeepsDownloads, second.uploadedDataSize.trans first.uploadedDataSize⟩

theorem keepsDownloaded_base {f : UpdateDriveTaskBase → UpdateDriveTaskBase}
    (keeps : task.KeepsDownloads (f task.toUpdateDriveTaskBase)) :
    task.KeepsDownloaded (task.base f) :=
  ⟨keeps, rfl⟩

theorem keepsDownloaded_opinionTimerExpired : task.KeepsDownloaded task.opinionTimerExpired := by
  simp only [opinionTimerExpired]
  split
  · exact .refl task
  · split
    · exact task.keepsDownloaded_base (task.keepsDownloads_break _)
    · exact ⟨.refl _, rfl⟩

theorem keepsDownloaded_checkOpinionNumber :
    task.KeepsDownloaded task.checkOpinionNumberAndStartTimer := by
  simp only [checkOpinionNumberAndStartTimer]
  split
  · exact (keepsDownloaded_opinionTimerExpired _).comp ⟨.refl _, rfl⟩
  · split
    · split <;> exact ⟨.refl _, rfl⟩
    · exact .refl task

theorem keepsDownloaded_shareMyOpinion (myOpinion : ApprovalTransactionInfo) :
    task.KeepsDownloaded (task.shareMyOpinion myOpinion) :=
  ⟨.of_eq rfl rfl rfl rfl, rfl⟩

theorem keepsDownloaded_shareMyOpinionTimerExpired :
    task.KeepsDownloaded task.shareMyOpinionTimerExpired := by
  simp only [shareMyOpinionTimerExpired]
  split
  · exact task.keepsDownloaded_base (task.keepsDownloads_break _)
  · exact task.keepsDownloaded_shareMyOpinion _

theorem keepsDownloaded_continueSynchronizing (result : FileSystemResult) :
    task.KeepsDownloaded (task.continueSynchronizingDriveWithSandbox result) := by
  cases result with
  | done =>
      refine ⟨?_, rfl⟩
      exact (UpdateDriveTaskBase.keepsDownloads_executeOnSessionThread _ (by rfl)).comp
        (.of_eq rfl rfl rfl rfl)
  | exception => exact task.keepsDownloaded_base task.keepsDownloads_finishTask

theorem keepsDownloaded_myOpinionIsCreated : task.KeepsDownloaded task.myOpinionIsCreated := by
  simp only [myOpinionIsCreated]
  split
  · exact task.keepsDownloaded_base task.keepsDownloads_finishTask
  · split
    · exact task.keepsDownloaded_base (task.keepsDownloads_break _)
    · split
      · refine ⟨?_, rfl⟩
        exact (UpdateDriveTaskBase.keepsDownloads_startSynchronizing _).comp (.of_eq rfl rfl rfl rfl)
      · exact (keepsDownloaded_checkOpinionNumber _).comp ⟨.of_eq rfl rfl rfl rfl, rfl⟩

end ModifyApprovalTaskBase

end SiriusDrive
