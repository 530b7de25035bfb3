import SiriusDrive.ModifyDriveTask.Approvals
import SiriusDrive.ModifyDriveTask.Downloads

/-! # The downloads of an interrupted task

An interruption ends the download of the moment. What is on its way from thread to
thread it does not see: a task that is interrupted while its action list is parsed, or
before it learns that a file is complete, enters `downloadMissingFiles` all the same.
-/

namespace SiriusDrive.ModifyDriveTask

/-- The event runs `downloadMissingFiles`. -/
def EntersDownloadMissingFiles (task : ModifyDriveTask) : TaskEvent → Prop
  | .runSessionJob =>
      task.sessionJobs.head? = some .downloadMissingFiles ∨
        ∃ handle torrent, task.sessionJobs.head? = some (.downloadNotification handle) ∧
          task.findTorrent handle = some torrent ∧ torrent.use ≠ .actionList
  | _ => False

/-- An interrupted task does not enter `downloadMissingFiles` and starts no download. -/
def DownloadsNothingMore (task : ModifyDriveTask) (event : TaskEvent) : Prop :=
  task.taskIsInterrupted = true →
    ¬ task.EntersDownloadMissingFiles event ∧
      ∀ after, modifyDriveSystem.step task event = some after →
        after.torrents.length = task.torrents.length

/-- Nothing leads to `downloadMissingFiles` any more, but for the torrent that is removed. -/
structure DownloadsEnd (task : ModifyDriveTask) (removed : Option LtHandle) : Prop where
  prepared : .prepareDownloadMissingFiles ∈ task.backgroundJobs → ¬ task.PreparesFiles
  selected : .downloadMissingFiles ∉ task.sessionJobs
  completed : ∀ handle torrent, task.findTorrent handle = some torrent →
    .save (.torrentFile handle) ∈ task.backgroundJobs ∨
      .downloadNotification handle ∈ task.sessionJobs → torrent.use = .actionList
  running : ∀ torrent ∈ task.torrents, torrent.isActive = true →
    torrent.use = .actionList ∨ some torrent.handle = removed

/-- The event interrupts the task only between two downloads it would go on with. -/
def InterruptsBetweenDownloads (task : ModifyDriveTask) (event : TaskEvent) : Prop :=
  task.taskIsInterrupted = false → task.Interrupts event →
    task.DownloadsEnd task.downloadingLtHandle

/-- The invariant: the downloads of an interrupted task have ended. -/
def EndsWhenInterrupted (task : ModifyDriveTask) : Prop :=
  task.taskIsInterrupted = true → task.DownloadsEnd none

variable {task after : ModifyDriveTask} {event : TaskEvent} {removed : Option LtHandle}

theorem DownloadsEnd.leaves (ended : task.DownloadsEnd removed)
    (leaves : task.LeavesDownloads after) : after.DownloadsEnd removed where
  prepared := by
    rw [leaves.mem_backgroundJobs rfl]
    intro pending ⟨file, isFile, readable⟩
    exact ended.prepared pending ⟨file, leaves.actionListFile ▸ isFile, readable⟩
  selected := by
    rw [leaves.mem_sessionJobs rfl]
    exact ended.selected
  completed := by
    intro handle torrent found
    rw [leaves.mem_backgroundJobs rfl, leaves.mem_sessionJobs rfl]
    intro pending
    obtain ⟨handles, same⟩ := leaves.findTorrent handle
    rw [same] at found
    obtain ⟨old, isOld, rfl⟩ := Option.map_eq_some_iff.mp found
    rw [Torrent.use_removedBy]
    exact ended.completed handle old isOld pending
  running := by
    intro torrent member active
    exact ended.running torrent (leaves.mem_of_isActive member active) active

theorem DownloadsEnd.removes (ended : task.DownloadsEnd removed)
    (gone : ∀ torrent ∈ task.torrents, torrent.isActive = true → some torrent.handle ≠ removed) :
    task.DownloadsEnd none where
  prepared := ended.prepared
  selected := ended.selected
  completed := ended.completed
  running := by
    intro torrent member active
    rcases ended.running torrent member active with isActionList | isRemoved
    · exact .inl isActionList
    · exact absurd isRemoved (gone torrent member active)

theorem DownloadsEnd.interrupted (ended : task.DownloadsEnd removed) :
    task.interrupted.DownloadsEnd removed :=
  ⟨ended.prepared, ended.selected, ended.completed, ended.running⟩

theorem DownloadsEnd.popSessionJob (ended : task.DownloadsEnd removed) {job : SessionJob}
    {rest : List SessionJob} (jobs : task.sessionJobs = job :: rest) :
    (task.base fun base => { base with sessionJobs := rest }).DownloadsEnd removed := by
  have fewer : ∀ other ∈ rest, other ∈ task.sessionJobs := by
    intro other member
    rw [jobs]
    exact List.mem_cons_of_mem _ member
  constructor
  · exact ended.prepared
  · exact fun pending => ended.selected (fewer _ pending)
  · intro handle torrent found pending
    exact ended.completed handle torrent found (pending.imp_right (fewer _))
  · exact ended.running

theorem DownloadsEnd.popBackgroundJob (ended : task.DownloadsEnd removed) {job : BackgroundJob}
    {rest : List BackgroundJob} (jobs : task.backgroundJobs = job :: rest) :
    (task.base fun base => { base with backgroundJobs := rest }).DownloadsEnd removed := by
  have fewer : ∀ other ∈ rest, other ∈ task.backgroundJobs := by
    intro other member
    rw [jobs]
    exact List.mem_cons_of_mem _ member
  constructor
  · exact fun pending => ended.prepared (fewer _ pending)
  · exact ended.selected
  · intro handle torrent found pending
    exact ended.completed handle torrent found (pending.imp_left (fewer _))
  · exact ended.running

theorem DownloadsEnd.setTorrent (ended : task.DownloadsEnd removed) {new : Torrent}
    (isActionList : new.use = .actionList) :
    (task.base (·.setTorrent new)).DownloadsEnd removed where
  prepared := ended.prepared
  selected := ended.selected
  completed := by
    intro handle torrent found pending
    have isSet : (task.setTorrent new).findTorrent handle = some torrent := found
    rw [UpdateDriveTaskBase.findTorrent_setTorrent] at isSet
    obtain ⟨old, isOld, rfl⟩ := Option.map_eq_some_iff.mp isSet
    by_cases same : old.handle = new.handle
    · rw [if_pos same]
      exact isActionList
    · rw [if_neg same]
      exact ended.completed handle old isOld pending
  running := by
    intro torrent member active
    obtain ⟨old, isOld, rfl⟩ := List.mem_map.mp member
    by_cases same : old.handle = new.handle
    · rw [if_pos same]
      exact .inl isActionList
    · rw [if_neg same] at active ⊢
      exact ended.running old isOld active

theorem DownloadsEnd.addSave (ended : task.DownloadsEnd removed) {saved : LtHandle}
    (isActionList : ∀ torrent, task.findTorrent saved = some torrent →
      torrent.use = .actionList) :
    (task.base (·.executeOnBackgroundThread (.save (.torrentFile saved)))).DownloadsEnd
      removed where
  prepared := by
    intro pending
    rcases List.mem_append.mp pending with old | new
    · exact ended.prepared old
    · cases List.mem_singleton.mp new
  selected := ended.selected
  completed := by
    intro handle torrent found pending
    rcases pending with saves | notified
    · rcases List.mem_append.mp saves with old | new
      · exact ended.completed handle torrent found (.inl old)
      · cases List.mem_singleton.mp new
        exact isActionList torrent found
    · exact ended.completed handle torrent found (.inr notified)
  running := ended.running

theorem DownloadsEnd.addNotification (ended : task.DownloadsEnd removed) {saved : LtHandle}
    (isActionList : ∀ torrent, task.findTorrent saved = some torrent →
      torrent.use = .actionList) :
    (task.base (·.executeOnSessionThread (.downloadNotification saved))).DownloadsEnd
      removed where
  prepared := ended.prepared
  selected := by
    intro pending
    rcases List.mem_append.mp pending with old | new
    · exact ended.selected old
    · cases List.mem_singleton.mp new
  completed := by
    intro handle torrent found pending
    rcases pending with saves | notified
    · exact ended.completed handle torrent found (.inl saves)
    · rcases List.mem_append.mp notified with old | new
      · exact ended.completed handle torrent found (.inr old)
      · cases List.mem_singleton.mp new
        exact isActionList torrent found
  running := ended.running

theorem DownloadsEnd.isActionList (ended : task.DownloadsEnd none) {torrent : Torrent}
    (member : torrent ∈ task.torrents) (active : torrent.isActive = true) :
    torrent.use = .actionList := by
  rcases ended.running torrent member active with isActionList | isRemoved
  · exact isActionList
  · cases isRemoved

theorem DownloadsEnd.notEntered (ended : task.DownloadsEnd none) :
    ¬ task.EntersDownloadMissingFiles event := by
  intro enters
  cases event with
  | runSessionJob =>
      rcases enters with selects | ⟨handle, torrent, notified, found, other⟩
      · exact ended.selected (List.mem_of_head? selects)
      · exact other (ended.completed handle torrent found (.inr (List.mem_of_head? notified)))
  | _ => exact enters

theorem LeavesDownloads.length_torrents (leaves : task.LeavesDownloads after) :
    after.torrents.length = task.torrents.length := by
  obtain ⟨handles, same⟩ := leaves.torrents
  rw [same, List.length_map]

theorem length_setTorrent (task : ModifyDriveTask) (new : Torrent) :
    (task.base (·.setTorrent new)).torrents.length = task.torrents.length :=
  List.length_map _

theorem DownloadsEnd.step (ended : task.DownloadsEnd none)
    (interrupted : task.taskIsInterrupted = true) (step : task.DownloadStep event after) :
    after.DownloadsEnd none ∧ after.torrents.length = task.torrents.length := by
  cases step with
  | other leaves => exact ⟨ended.leaves leaves, leaves.length_torrents⟩
  | breaks interrupts leaves removed =>
      exact ⟨ended.interrupted.leaves leaves, leaves.length_torrents⟩
  | @prepares rest result jobs =>
      have unprepared : ¬ task.PreparesFiles :=
        ended.prepared (jobs ▸ List.mem_cons_self)
      have leaves : (task.base fun base => { base with backgroundJobs := rest }).LeavesDownloads
          (task.base fun base => { base with backgroundJobs := rest }).prepareDownloadMissingFiles :=
        leavesDownloads_prepare unprepared
      exact ⟨(ended.popBackgroundJob jobs).leaves leaves, leaves.length_torrents⟩
  | selects jobs =>
      have pending : SessionJob.downloadMissingFiles ∈ task.sessionJobs :=
        jobs ▸ List.mem_cons_self
      exact absurd pending ended.selected
  | @metadataReceived handle torrent found totalSize isValid =>
      obtain ⟨-, member, -, isAdded, notRemoved⟩ :=
        UpdateDriveTaskBase.activeTorrent_spec found
      have isActionList := ended.isActionList member (by simp [Torrent.isActive, isAdded, notRemoved])
      unfold onMetadataReceived
      split
      · exact ⟨ended.setTorrent isActionList, task.length_setTorrent _⟩
      · have leaves := leavesDownloads_downloadFailed
          (task.base (·.setTorrent { torrent with state := .failed })) torrent.infoHash
        have isSet : (task.base (·.setTorrent { torrent with state := .failed })).DownloadsEnd
            none :=
          ended.setTorrent isActionList
        exact ⟨isSet.leaves leaves, leaves.length_torrents.trans (task.length_setTorrent _)⟩
  | @torrentFinished handle torrent found =>
      obtain ⟨isTorrent, member, sameHandle, isReceived, notRemoved⟩ :=
        UpdateDriveTaskBase.activeTorrent_spec found
      have isActionList :=
        ended.isActionList member (by simp [Torrent.isActive, isReceived, notRemoved])
      have isSet : (task.base (·.setTorrent { torrent with state := .finished })).DownloadsEnd none :=
        ended.setTorrent isActionList
      refine ⟨isSet.addSave ?_, task.length_setTorrent _⟩
      intro new isNew
      have finished : (task.setTorrent { torrent with state := .finished }).findTorrent
          torrent.handle = some new := isNew
      rw [UpdateDriveTaskBase.findTorrent_setTorrent, sameHandle, isTorrent, Option.map_some,
        if_pos sameHandle] at finished
      cases finished
      exact isActionList
  | @saves handle rest result jobs =>
      refine ⟨(ended.popBackgroundJob jobs).addNotification ?_, rfl⟩
      intro torrent found
      exact ended.completed handle torrent found (.inl (jobs ▸ List.mem_cons_self))
  | @completes handle rest torrent jobs found =>
      have isActionList : torrent.use = .actionList :=
        ended.completed handle torrent found (.inr (jobs ▸ List.mem_cons_self))
      have unchanged : (task.base fun base => { base with sessionJobs := rest }).downloadCompleted
          torrent = task.base fun base => { base with sessionJobs := rest } := by
        unfold downloadCompleted
        rw [isActionList]
        exact if_pos interrupted
      rw [unchanged]
      exact ⟨ended.popSessionJob jobs, rfl⟩

theorem EndsWhenInterrupted.step (ends : task.EndsWhenInterrupted)
    (between : task.InterruptsBetweenDownloads event)
    (step : modifyDriveSystem.step task event = some after) : after.EndsWhenInterrupted := by
  intro interrupted
  have downloadStep := downloadStep_of_handles (handles_of_step step).2
  cases running : task.taskIsInterrupted with
  | true => exact ((ends running).step running downloadStep).1
  | false =>
      rcases downloadStep.taskIsInterrupted with same | ⟨interrupts, leaves, removed⟩
      · rw [interrupted, running] at same
        cases same
      · have ended := (between running interrupts).interrupted.leaves leaves
        exact ended.removes removed

/-- No run in which every interruption comes between two downloads downloads anything after
    it. -/
theorem downloads_nothing_when_interrupted (request : ModificationRequest)
    (receivedOpinions : ReceivedOpinions) (drive : DriveParams)
    (actionListFile : Option ActionListFile) (events : List TaskEvent)
    (between : modifyDriveSystem.Meets InterruptsBetweenDownloads
      (start request receivedOpinions drive actionListFile) events) :
    modifyDriveSystem.Meets DownloadsNothingMore
      (start request receivedOpinions drive actionListFile) events := by
  have notInterrupted :
      (start request receivedOpinions drive actionListFile).taskIsInterrupted = false := by
    simp only [start, run]
    split <;> rfl
  have ends : (start request receivedOpinions drive actionListFile).EndsWhenInterrupted := by
    intro interrupted
    rw [notInterrupted] at interrupted
    cases interrupted
  apply Transition.Meets.of_invariant (I := EndsWhenInterrupted) ?_ ?_ ends between
  · intro task event ends between interrupted
    have ended := ends interrupted
    refine ⟨ended.notEntered, ?_⟩
    intro after step
    exact (ended.step interrupted (downloadStep_of_handles (handles_of_step step).2)).2
  · intro task event after ends between step
    exact ends.step between step

/-! ## Runs of a sample task -/

def sampleCancelRequest : ModificationCancelRequest where
  modifyTransactionHash := 60

/-- The action list is downloaded, and its parsing has been posted. -/
def untilParsing : List TaskEvent :=
  [.metadataReceived 0 10 true, .torrentFinished 0, .runBackgroundJob (.fileSystem .done),
    .runSessionJob]

theorem downloadsEnd_sampleTask : sampleTask.DownloadsEnd sampleTask.downloadingLtHandle := by
  have session : sampleTask.sessionJobs = [] := by decide +kernel
  have background : sampleTask.backgroundJobs = [] := by decide +kernel
  constructor
  · simp [background]
  · simp [session]
  · simp [background, session]
  · decide +kernel

theorem downloads_nothing_when_cancelled_at_once :
    modifyDriveSystem.Meets DownloadsNothingMore sampleTask
      [.cancelModify sampleCancelRequest, .torrentsRemoved 0] := by
  apply downloads_nothing_when_interrupted
  constructor
  · exact fun _ _ => downloadsEnd_sampleTask
  · intro task step
    exact ⟨fun _ interrupts => interrupts.elim, fun _ _ => trivial⟩

/-- A task that is cancelled while its action list is parsed goes on with its downloads. -/
theorem cancelled_while_list_is_parsed :
    ¬ modifyDriveSystem.Meets DownloadsNothingMore sampleTask
      (untilParsing ++ [.cancelModify sampleCancelRequest, .runBackgroundJob (.fileSystem .done)] ++
        [.runSessionJob]) := by
  intro nothingMore
  obtain ⟨task, run, interrupted, jobs⟩ : modifyDriveSystem.Reaches
      (fun task => task.taskIsInterrupted = true ∧
        task.sessionJobs.head? = some .downloadMissingFiles)
      sampleTask
      (untilParsing ++ [.cancelModify sampleCancelRequest,
        .runBackgroundJob (.fileSystem .done)]) := by decide +kernel
  exact (nothingMore.last run interrupted).1 (.inl jobs)

end SiriusDrive.ModifyDriveTask
