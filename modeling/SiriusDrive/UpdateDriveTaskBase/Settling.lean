import SiriusDrive.TorrentEntries
import SiriusDrive.UpdateDriveTaskBase.Downloads
import SiriusDrive.UpdateDriveTaskBase.SandboxView

/-! # Downloads settle

What there is of the downloads of a task: its torrents, the entries of the drive, and
the jobs with which a finished download is reported and checked. The functions all
tasks share start nothing: they remove torrents and entries.
-/

namespace SiriusDrive

/-- The torrent whose completion the job reports. -/
def SessionJob.notified? : SessionJob → Option LtHandle
  | .downloadNotification handle => some handle
  | _ => none

/-- The torrent whose file the job saves. -/
def BackgroundJob.saved? : BackgroundJob → Option LtHandle
  | .save (.torrentFile handle) => some handle
  | _ => none

/-- The job may find a stream to be finished. -/
def BackgroundJob.checksFinish : BackgroundJob → Bool
  | .parseFinishInfoFile | .checkFinishCondition => true
  | _ => false

structure TaskDownloads where
  torrents : List Torrent
  nextHandle : LtHandle
  /-- `m_downloadingLtHandle`. -/
  downloading : Option LtHandle
  /-- The hashes with an entry in `m_torrentHandleMap`. -/
  recorded : InfoHash → Bool
  /-- The finished torrents whose files are being saved. -/
  saves : List LtHandle
  /-- The finished torrents that are going to be reported. -/
  notifications : List LtHandle
  checks : List BackgroundJob
  /-- A sandbox has been calculated. -/
  hasSandbox : Bool

namespace TaskDownloads

variable {before middle after : TaskDownloads}

/-- Nothing is started or scheduled, and the torrent that is being downloaded is only given up
    together with its handle. -/
structure Settles (before after : TaskDownloads) : Prop where
  torrents : ∃ handles, after.torrents = before.torrents.map (·.removedBy handles) ∧
    (after.downloading = before.downloading ∨
      after.downloading = none ∧ ∃ handle ∈ handles, before.downloading = some handle)
  nextHandle : before.nextHandle ≤ after.nextHandle
  recorded : ∀ hash, after.recorded hash = true → before.recorded hash = true
  saves : after.saves = before.saves
  notifications : after.notifications = before.notifications
  checks : after.checks = before.checks
  hasSandbox : after.hasSandbox = before.hasSandbox

theorem Settles.refl (downloads : TaskDownloads) : downloads.Settles downloads where
  torrents := ⟨[], by simp, .inl rfl⟩
  nextHandle := Nat.le_refl _
  recorded := fun _ isRecorded => isRecorded
  saves := rfl
  notifications := rfl
  checks := rfl
  hasSandbox := rfl

theorem Settles.of_eq (same : after = before) : before.Settles after :=
  same ▸ .refl before

theorem Settles.trans (first : before.Settles middle) (second : middle.Settles after) :
    before.Settles after where
  torrents := by
    obtain ⟨handles, isMiddle, given⟩ := first.torrents
    obtain ⟨others, isAfter, givenLater⟩ := second.torrents
    refine ⟨handles ++ others, by simp [isAfter, isMiddle, Torrent.removedBy_append], ?_⟩
    rcases given with same | ⟨none, handle, member, isHandle⟩
    · rcases givenLater with later | ⟨none, handle, member, isHandle⟩
      · exact .inl (later.trans same)
      · exact .inr ⟨none, handle, List.mem_append_right _ member, same ▸ isHandle⟩
    · right
      refine ⟨?_, handle, List.mem_append_left _ member, isHandle⟩
      rcases givenLater with later | later
      · exact later.trans none
      · exact later.1
  nextHandle := Nat.le_trans first.nextHandle second.nextHandle
  recorded := fun hash isRecorded => first.recorded hash (second.recorded hash isRecorded)
  saves := second.saves.trans first.saves
  notifications := second.notifications.trans first.notifications
  checks := second.checks.trans first.checks
  hasSandbox := second.hasSandbox.trans first.hasSandbox

end TaskDownloads

namespace UpdateDriveTaskBase

variable (task : UpdateDriveTaskBase)

def taskDownloads : TaskDownloads where
  torrents := task.torrents
  nextHandle := task.drive.nextHandle
  downloading := task.downloadingLtHandle
  recorded := fun hash => task.drive.torrentHandleMap.contains hash
  saves := task.backgroundJobs.filterMap (·.saved?)
  notifications := task.sessionJobs.filterMap (·.notified?)
  checks := task.backgroundJobs.filter (·.checksFinish)
  hasSandbox := task.sandboxFsTree.isSome || task.modificationIsCompleted

theorem taskDownloads_executeOnSessionThread {job : SessionJob} (silent : job.notified? = none) :
    (task.executeOnSessionThread job).taskDownloads = task.taskDownloads := by
  simp [taskDownloads, executeOnSessionThread, silent]

theorem taskDownloads_executeOnBackgroundThread {job : BackgroundJob} (saves : job.saved? = none)
    (checks : job.checksFinish = false) :
    (task.executeOnBackgroundThread job).taskDownloads = task.taskDownloads := by
  simp [taskDownloads, executeOnBackgroundThread, saves, checks]

theorem settles_executeSaveJob {job : SaveJob} (saves : (BackgroundJob.save job).saved? = none) :
    task.taskDownloads.Settles (task.executeOnBackgroundThread (.save job)).taskDownloads :=
  .of_eq (task.taskDownloads_executeOnBackgroundThread saves rfl)

theorem settles_removeTorrents (handles : List LtHandle) (next : TorrentsRemoved) :
    task.taskDownloads.Settles (task.removeTorrentsFromSession handles next).taskDownloads :=
  { TaskDownloads.Settles.refl task.taskDownloads with
    torrents := ⟨handles, rfl, .inl rfl⟩ }

theorem settles_finishTask : task.taskDownloads.Settles task.finishTask.taskDownloads := by
  simp only [finishTask]
  split
  · exact settles_removeTorrents { task with taskIsFinished := true, fsTreeOrActionListHandle := none }
      _ _
  · exact settles_executeSaveJob { task with taskIsFinished := true } rfl

theorem settles_tryBreakTask (received : Bool) :
    task.taskDownloads.Settles (task.tryBreakTask received).taskDownloads := by
  simp only [tryBreakTask]
  split
  · exact task.settles_finishTask
  · exact .refl _

theorem settles_breakTorrentDownload (received : Bool) : task.taskDownloads.Settles
    (task.breakTorrentDownloadAndRunNextTask (·.tryBreakTask received)).taskDownloads := by
  simp only [breakTorrentDownloadAndRunNextTask]
  split
  · rename_i handle downloading
    exact
      { TaskDownloads.Settles.refl task.taskDownloads with
        torrents := ⟨[handle], rfl, .inr ⟨rfl, handle, List.mem_singleton_self handle, downloading⟩⟩ }
  · exact settles_tryBreakTask { task with taskIsInterrupted := true } received

theorem settles_myRootHashIsCalculated (tx : Hash256) (size : Nat) :
    task.taskDownloads.Settles (task.myRootHashIsCalculated tx size).taskDownloads := by
  simp only [myRootHashIsCalculated]
  split
  · exact task.settles_finishTask
  · exact .of_eq (taskDownloads_executeOnBackgroundThread _ rfl rfl)

theorem settles_onCumulativeUploadsUpdated (tx : Hash256) :
    task.taskDownloads.Settles (task.onCumulativeUploadsUpdated tx).taskDownloads := by
  simp only [onCumulativeUploadsUpdated]
  split
  · exact task.settles_finishTask
  · split
    · exact .refl _
    · exact .of_eq (taskDownloads_executeOnBackgroundThread _ rfl rfl)

theorem settles_synchronizationIsCompleted (tx : Hash256) :
    task.taskDownloads.Settles (task.synchronizationIsCompleted tx).taskDownloads :=
  .of_eq (taskDownloads_executeOnBackgroundThread _ rfl rfl)

theorem settles_modifyIsCompleted (tx : Hash256) :
    task.taskDownloads.Settles (task.modifyIsCompleted tx).taskDownloads := by
  simp only [modifyIsCompleted]
  split
  · rename_i isSandbox _
    apply TaskDownloads.Settles.trans _ (settles_finishTask _)
    refine { TaskDownloads.Settles.refl task.taskDownloads with hasSandbox := ?_ }
    simp only [taskDownloads, isSandbox, Option.isSome_some, Bool.true_or, Bool.or_true]
  · exact .refl _

/-- The entries are marked, and the torrents of unused files are removed. -/
theorem settles_startSynchronizing :
    task.taskDownloads.Settles task.startSynchronizingDriveWithSandbox.taskDownloads := by
  simp only [startSynchronizingDriveWithSandbox]
  split
  · exact .refl _
  · rename_i fsTree _
    exact
      { TaskDownloads.Settles.refl task.taskDownloads with
        torrents := ⟨_, rfl, .inl rfl⟩
        recorded := fun hash isRecorded =>
          (DriveParams.contains_markFilesOf fsTree hash).symm.trans isRecorded }

theorem settles_startSynchronizingAfter
    (transaction : PublishedModificationApprovalTransactionInfo) :
    task.taskDownloads.Settles (task.startSynchronizingAfter transaction).taskDownloads := by
  simp only [startSynchronizingAfter]
  split
  · exact .refl _
  · split
    · exact task.settles_startSynchronizing
    · split
      · exact .refl _
      · rename_i myOpinion _
        exact settles_startSynchronizing
          { task with drive := task.drive.sendSingleApprovalTransaction myOpinion }

/-- The jobs that save values report nothing, but for that of a torrent file. -/
theorem settles_runSaveJob {job : SaveJob} (other : (BackgroundJob.save job).saved? = none) :
    task.taskDownloads.Settles (task.runSaveJob job).taskDownloads := by
  cases job with
  | torrentFile handle => cases other
  | clearSandbox | notApprovedCumulativeUploads | singleApprovalTransaction
  | approvedCumulativeUploads =>
      exact .of_eq (taskDownloads_executeOnSessionThread _ rfl)

theorem settles_onTorrentsRemoved (removal : TorrentsRemoved) :
    task.taskDownloads.Settles (task.onTorrentsRemoved removal).taskDownloads := by
  cases removal with
  | finishTask => exact task.settles_finishTask
  | clearSandbox | continueSynchronizing =>
      exact .of_eq (taskDownloads_executeOnBackgroundThread _ rfl rfl)
  | removeUnusedFiles =>
      apply TaskDownloads.Settles.trans _
        (.of_eq (taskDownloads_executeOnBackgroundThread _ rfl rfl))
      exact
        { TaskDownloads.Settles.refl task.taskDownloads with
          recorded := fun hash isRecorded => DriveParams.contains_of_eraseUnused isRecorded }

end UpdateDriveTaskBase

namespace ModifyApprovalTaskBase

variable (task : ModifyApprovalTaskBase)

theorem settles_opinionTimerExpired :
    task.taskDownloads.Settles task.opinionTimerExpired.taskDownloads := by
  simp only [opinionTimerExpired]
  split
  · exact .refl _
  · split <;> exact .refl _

theorem settles_checkOpinionNumber :
    task.taskDownloads.Settles task.checkOpinionNumberAndStartTimer.taskDownloads := by
  simp only [checkOpinionNumberAndStartTimer]
  split
  · exact settles_opinionTimerExpired { task with modifyOpinionTimer := task.modifyOpinionTimer.cancel }
  · split
    · split <;> exact .refl _
    · exact .refl _

theorem settles_shareMyOpinionTimerExpired :
    task.taskDownloads.Settles task.shareMyOpinionTimerExpired.taskDownloads := by
  simp only [shareMyOpinionTimerExpired]
  split <;> exact .refl _

theorem settles_myOpinionIsCreated :
    task.taskDownloads.Settles task.myOpinionIsCreated.taskDownloads := by
  simp only [myOpinionIsCreated]
  split
  · exact task.settles_finishTask
  · split
    · exact .refl _
    · rename_i myOpinion _
      split
      · exact UpdateDriveTaskBase.settles_startSynchronizing
          { task.toUpdateDriveTaskBase with
            sandboxCalculated := true
            drive := task.drive.sendSingleApprovalTransaction myOpinion }
      · exact settles_checkOpinionNumber
          ((({ task with sandboxCalculated := true }).shareMyOpinion myOpinion).validateReceivedOpinions
            myOpinion)

end ModifyApprovalTaskBase

end SiriusDrive
