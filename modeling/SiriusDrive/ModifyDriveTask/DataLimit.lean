import SiriusDrive.ModifyDriveTask.Approvals
import SiriusDrive.ModifyDriveTask.Downloads

/-! # The data limit of a modification

Each download of a task gets what is left of the data limit of the request, and the
session rejects larger torrents. A limit of zero is no limit to the session, so a
limit that has been used up exactly does not bound the download that follows.
-/

namespace SiriusDrive.ModifyDriveTask

def completedSize (task : ModifyDriveTask) : TaskEvent → Nat
  | .torrentFinished handle =>
      match task.activeTorrent handle .metadataReceived with
      | some torrent => torrent.uploadedDataSize
      | none => 0
  | _ => 0

/-- The modification task with the bytes of all downloads that have been completed. -/
def dataSystem : Transition (ModifyDriveTask × Nat) TaskEvent where
  step state event :=
    (modifyDriveSystem.step state.1 event).map fun after =>
      (after, state.2 + state.1.completedSize event)

/-- When the limit has been used up, only an empty download completes. -/
def FitsBudget (task : ModifyDriveTask) : TaskEvent → Prop
  | .torrentFinished handle => ∀ torrent, task.fault = none →
      task.activeTorrent handle .metadataReceived = some torrent →
      task.uploadedDataSize = task.request.maxDataSize → torrent.uploadedDataSize = 0
  | _ => True

/-- The jobs of the task that lead to a download. -/
structure HasDownloadJobs (task : ModifyDriveTask) (session : List SessionJob)
    (background : List BackgroundJob) : Prop where
  session : task.sessionJobs.filter (·.downloads) = session
  background : task.backgroundJobs.filter (·.downloads) = background

def NoneActive (task : ModifyDriveTask) : Prop :=
  ∀ torrent ∈ task.torrents, torrent.isActive = false

/-- The download work of a task and the bytes of its completed downloads: there is never more
    than one piece of work, and every completed byte has been counted by the task or is about
    to be. -/
inductive WithinLimit (task : ModifyDriveTask) : Nat → Prop
  | ended {total : Nat} (jobs : task.HasDownloadJobs [] []) (inactive : task.NoneActive)
      (le : total ≤ task.request.maxDataSize) : WithinLimit task total
  | preparing (jobs : task.HasDownloadJobs [] [.prepareDownloadMissingFiles])
      (inactive : task.NoneActive) (le : task.uploadedDataSize ≤ task.request.maxDataSize) :
      WithinLimit task task.uploadedDataSize
  | selecting (jobs : task.HasDownloadJobs [.downloadMissingFiles] [])
      (inactive : task.NoneActive) (le : task.uploadedDataSize ≤ task.request.maxDataSize) :
      WithinLimit task task.uploadedDataSize
  | downloading {torrent : Torrent} (jobs : task.HasDownloadJobs [] [])
      (member : torrent ∈ task.torrents) (active : torrent.isActive = true)
      (only : ∀ other ∈ task.torrents, other.isActive = true → other = torrent)
      (limit : torrent.downloadLimit = task.request.maxDataSize - task.uploadedDataSize)
      (accepted : torrent.state = .metadataReceived →
        torrent.withinLimit torrent.uploadedDataSize = true)
      (le : task.uploadedDataSize ≤ task.request.maxDataSize) :
      WithinLimit task task.uploadedDataSize
  | saving {handle : LtHandle} {torrent : Torrent}
      (jobs : task.HasDownloadJobs [] [.save (.torrentFile handle)])
      (found : task.findTorrent handle = some torrent) (inactive : task.NoneActive)
      (le : task.uploadedDataSize + torrent.uploadedDataSize ≤ task.request.maxDataSize) :
      WithinLimit task (task.uploadedDataSize + torrent.uploadedDataSize)
  | reporting {handle : LtHandle} {torrent : Torrent}
      (jobs : task.HasDownloadJobs [.downloadNotification handle] [])
      (found : task.findTorrent handle = some torrent) (inactive : task.NoneActive)
      (le : task.uploadedDataSize + torrent.uploadedDataSize ≤ task.request.maxDataSize) :
      WithinLimit task (task.uploadedDataSize + torrent.uploadedDataSize)

variable {task after : ModifyDriveTask} {event : TaskEvent} {total : Nat}
  {session : List SessionJob} {background : List BackgroundJob}

theorem WithinLimit.total_le (within : task.WithinLimit total) :
    total ≤ task.request.maxDataSize := by
  cases within with
  | ended jobs inactive le => exact le
  | preparing jobs inactive le => exact le
  | selecting jobs inactive le => exact le
  | downloading jobs member active only limit accepted le => exact le
  | saving jobs found inactive le => exact le
  | reporting jobs found inactive le => exact le

theorem HasDownloadJobs.of_eq (has : task.HasDownloadJobs session background)
    (sessionJobs : after.sessionJobs = task.sessionJobs)
    (backgroundJobs : after.backgroundJobs = task.backgroundJobs) :
    after.HasDownloadJobs session background :=
  ⟨sessionJobs ▸ has.session, backgroundJobs ▸ has.background⟩

theorem HasDownloadJobs.leaves (has : task.HasDownloadJobs session background)
    (leaves : task.LeavesDownloads after) : after.HasDownloadJobs session background :=
  ⟨leaves.sessionJobs.trans has.session, leaves.backgroundJobs.trans has.background⟩

/-- The first job is the only one that leads to a download, and it is taken. -/
theorem HasDownloadJobs.popSessionJob (has : task.HasDownloadJobs session background)
    {job : SessionJob} {rest : List SessionJob} (jobs : task.sessionJobs = job :: rest)
    (downloads : job.downloads = true) :
    ∃ others, session = job :: others ∧
      (task.base fun base => { base with sessionJobs := rest }).HasDownloadJobs others
        background := by
  have isFirst := has.session
  rw [jobs, List.filter_cons_of_pos downloads] at isFirst
  exact ⟨rest.filter (·.downloads), isFirst.symm, rfl, has.background⟩

theorem HasDownloadJobs.popBackgroundJob (has : task.HasDownloadJobs session background)
    {job : BackgroundJob} {rest : List BackgroundJob} (jobs : task.backgroundJobs = job :: rest)
    (downloads : job.downloads = true) :
    ∃ others, background = job :: others ∧
      (task.base fun base => { base with backgroundJobs := rest }).HasDownloadJobs session
        others := by
  have isFirst := has.background
  rw [jobs, List.filter_cons_of_pos downloads] at isFirst
  exact ⟨rest.filter (·.downloads), isFirst.symm, has.session, rfl⟩

theorem HasDownloadJobs.executeOnSessionThread (has : task.HasDownloadJobs session background)
    {job : SessionJob} (downloads : job.downloads = true) :
    (task.base (·.executeOnSessionThread job)).HasDownloadJobs (session ++ [job]) background where
  session := by
    have appended : (task.sessionJobs ++ [job]).filter (·.downloads) = session ++ [job] := by
      rw [List.filter_append, has.session, List.filter_cons_of_pos downloads, List.filter_nil]
    exact appended
  background := has.background

theorem HasDownloadJobs.executeOnBackgroundThread
    (has : task.HasDownloadJobs session background) {job : BackgroundJob}
    (downloads : job.downloads = true) :
    (task.base (·.executeOnBackgroundThread job)).HasDownloadJobs session
      (background ++ [job]) where
  session := has.session
  background := by
    have appended : (task.backgroundJobs ++ [job]).filter (·.downloads) = background ++ [job] := by
      rw [List.filter_append, has.background, List.filter_cons_of_pos downloads, List.filter_nil]
    exact appended

theorem NoneActive.leaves (inactive : task.NoneActive) (leaves : task.LeavesDownloads after) :
    after.NoneActive := by
  intro torrent member
  by_contra active
  have isActive : torrent.isActive = true := by simpa using active
  exact active (inactive torrent (leaves.mem_of_isActive member isActive))

theorem noneActive_setTorrent {torrent new : Torrent}
    (only : ∀ other ∈ task.torrents, other.isActive = true → other = torrent)
    (sameHandle : new.handle = torrent.handle) (inactive : new.isActive = false) :
    (task.base (·.setTorrent new)).NoneActive := by
  intro other member
  obtain ⟨old, isOld, rfl⟩ := List.mem_map.mp member
  by_cases same : old.handle = new.handle
  · rw [if_pos same]
    exact inactive
  · rw [if_neg same]
    by_contra active
    have isTorrent := only old isOld (by simpa using active)
    exact same (by rw [isTorrent, sameHandle])

/-- What leaves the downloads alone keeps the limit; a removed download has ended. -/
theorem WithinLimit.leaves (within : task.WithinLimit total)
    (leaves : task.LeavesDownloads after) : after.WithinLimit total := by
  have request := leaves.request
  have uploaded := leaves.uploadedDataSize
  cases within with
  | ended jobs inactive le =>
      apply WithinLimit.ended
      · exact jobs.leaves leaves
      · exact inactive.leaves leaves
      · rw [request]
        exact le
  | preparing jobs inactive le =>
      rw [← uploaded]
      apply WithinLimit.preparing
      · exact jobs.leaves leaves
      · exact inactive.leaves leaves
      · rw [request, uploaded]
        exact le
  | selecting jobs inactive le =>
      rw [← uploaded]
      apply WithinLimit.selecting
      · exact jobs.leaves leaves
      · exact inactive.leaves leaves
      · rw [request, uploaded]
        exact le
  | @downloading torrent jobs member active only limit accepted le =>
      have onlyAfter : ∀ other ∈ after.torrents, other.isActive = true → other = torrent :=
        fun other isOther isActive =>
          only other (leaves.mem_of_isActive isOther isActive) isActive
      by_cases stays : torrent ∈ after.torrents
      · rw [← uploaded]
        apply WithinLimit.downloading (jobs.leaves leaves) stays active onlyAfter
        · rw [request, uploaded]
          exact limit
        · exact accepted
        · rw [request, uploaded]
          exact le
      · apply WithinLimit.ended
        · exact jobs.leaves leaves
        · intro other isOther
          by_contra otherActive
          have same := onlyAfter other isOther (by simpa using otherActive)
          exact stays (same ▸ isOther)
        · rw [request]
          exact le
  | @saving handle torrent jobs found inactive le =>
      obtain ⟨handles, isFound⟩ := leaves.findTorrent handle
      rw [found, Option.map_some] at isFound
      rw [← uploaded, ← Torrent.uploadedDataSize_removedBy torrent handles]
      apply WithinLimit.saving
      · exact jobs.leaves leaves
      · exact isFound
      · exact inactive.leaves leaves
      · rw [request, uploaded, Torrent.uploadedDataSize_removedBy]
        exact le
  | @reporting handle torrent jobs found inactive le =>
      obtain ⟨handles, isFound⟩ := leaves.findTorrent handle
      rw [found, Option.map_some] at isFound
      rw [← uploaded, ← Torrent.uploadedDataSize_removedBy torrent handles]
      apply WithinLimit.reporting
      · exact jobs.leaves leaves
      · exact isFound
      · exact inactive.leaves leaves
      · rw [request, uploaded, Torrent.uploadedDataSize_removedBy]
        exact le

/-- A download is started by a task that has no other one: it gets what is left. -/
theorem withinLimit_starts {use : DownloadUse} (jobs : task.HasDownloadJobs [] [])
    (inactive : task.NoneActive) (le : task.uploadedDataSize ≤ task.request.maxDataSize)
    (small : task.request.maxDataSize < 2 ^ 64) (starts : task.StartsDownload after use) :
    after.WithinLimit task.uploadedDataSize := by
  obtain ⟨infoHash, torrents⟩ := starts.torrents
  rw [← starts.uploadedDataSize]
  apply WithinLimit.downloading
  · exact ⟨starts.sessionJobs ▸ jobs.session, starts.backgroundJobs ▸ jobs.background⟩
  · rw [torrents]
    exact List.mem_append_right _ (List.mem_singleton_self _)
  · rfl
  · intro other member active
    rw [torrents] at member
    rcases List.mem_append.mp member with old | new
    · rw [inactive other old] at active
      cases active
    · exact List.mem_singleton.mp new
  · rw [starts.request, starts.uploadedDataSize]
    exact u64Sub_of_le le small
  · intro received
    cases received
  · rw [starts.request, starts.uploadedDataSize]
    exact le

theorem withinLimit_downloadMissingFiles (jobs : task.HasDownloadJobs [] [])
    (inactive : task.NoneActive) (le : task.uploadedDataSize ≤ task.request.maxDataSize)
    (small : task.request.maxDataSize < 2 ^ 64) :
    task.downloadMissingFiles.WithinLimit task.uploadedDataSize := by
  rcases task.downloadMissingFiles_cases with leaves | starts
  · exact (WithinLimit.ended jobs inactive le).leaves leaves
  · exact withinLimit_starts jobs inactive le small starts

/-! ## The steps of the chain -/

theorem WithinLimit.prepares (within : task.WithinLimit total) {rest : List BackgroundJob}
    (jobs : task.backgroundJobs = .prepareDownloadMissingFiles :: rest) :
    (task.base fun base => { base with backgroundJobs := rest }
      ).prepareDownloadMissingFiles.WithinLimit total := by
  have first {session background} (has : task.HasDownloadJobs session background) :=
    has.popBackgroundJob jobs rfl
  cases within with
  | preparing has inactive le =>
      obtain ⟨others, isFirst, popped⟩ := first has
      obtain rfl := (List.cons.inj isFirst).2
      by_cases prepares : (task.base fun base => { base with backgroundJobs := rest }).PreparesFiles
      · obtain ⟨middle, leaves, isMiddle⟩ := prepare_of_preparesFiles prepares
        rw [isMiddle]
        have uploaded : middle.uploadedDataSize = task.uploadedDataSize := leaves.uploadedDataSize
        have request : middle.request = task.request := leaves.request
        have selects := (popped.leaves leaves).executeOnSessionThread
          (show SessionJob.downloads .downloadMissingFiles = true from rfl)
        have poppedInactive :
            (task.base fun base => { base with backgroundJobs := rest }).NoneActive := inactive
        have noneActive : middle.NoneActive := poppedInactive.leaves leaves
        rw [← uploaded]
        apply WithinLimit.selecting selects noneActive
        change middle.uploadedDataSize ≤ middle.request.maxDataSize
        rw [uploaded, request]
        exact le
      · exact (WithinLimit.ended popped inactive le).leaves (leavesDownloads_prepare prepares)
  | ended has inactive le | selecting has inactive le | reporting has found inactive le =>
      obtain ⟨others, isFirst, -⟩ := first has
      cases isFirst
  | downloading has member active only limit accepted le =>
      obtain ⟨others, isFirst, -⟩ := first has
      cases isFirst
  | saving has found inactive le =>
      obtain ⟨others, isFirst, -⟩ := first has
      cases isFirst

theorem WithinLimit.selects (within : task.WithinLimit total)
    (small : task.request.maxDataSize < 2 ^ 64) {rest : List SessionJob}
    (jobs : task.sessionJobs = .downloadMissingFiles :: rest) :
    (task.base fun base => { base with sessionJobs := rest }
      ).downloadMissingFiles.WithinLimit total := by
  have first {session background} (has : task.HasDownloadJobs session background) :=
    has.popSessionJob jobs rfl
  cases within with
  | selecting has inactive le =>
      obtain ⟨others, isFirst, popped⟩ := first has
      obtain rfl := (List.cons.inj isFirst).2
      exact withinLimit_downloadMissingFiles popped inactive le small
  | ended has inactive le | preparing has inactive le | saving has found inactive le =>
      obtain ⟨others, isFirst, -⟩ := first has
      cases isFirst
  | downloading has member active only limit accepted le =>
      obtain ⟨others, isFirst, -⟩ := first has
      cases isFirst
  | reporting has found inactive le =>
      obtain ⟨others, isFirst, -⟩ := first has
      cases isFirst

theorem WithinLimit.saves (within : task.WithinLimit total) {saved : LtHandle}
    {rest : List BackgroundJob}
    (jobs : task.backgroundJobs = .save (.torrentFile saved) :: rest) :
    (task.base fun base => { base with backgroundJobs := rest }.executeOnSessionThread
      (.downloadNotification saved)).WithinLimit total := by
  have first {session background} (has : task.HasDownloadJobs session background) :=
    has.popBackgroundJob jobs rfl
  cases within with
  | saving has found inactive le =>
      obtain ⟨others, isFirst, popped⟩ := first has
      cases isFirst
      exact .reporting (popped.executeOnSessionThread rfl) found inactive le
  | ended has inactive le | selecting has inactive le | reporting has found inactive le =>
      obtain ⟨others, isFirst, -⟩ := first has
      cases isFirst
  | downloading has member active only limit accepted le =>
      obtain ⟨others, isFirst, -⟩ := first has
      cases isFirst
  | preparing has inactive le =>
      obtain ⟨others, isFirst, -⟩ := first has
      cases isFirst

/-- The size of a completed download is counted, unless it is that of the action list of an
    interrupted task. -/
theorem WithinLimit.completes (within : task.WithinLimit total)
    (small : task.request.maxDataSize < 2 ^ 64) {handle : LtHandle} {torrent : Torrent}
    {rest : List SessionJob} (jobs : task.sessionJobs = .downloadNotification handle :: rest)
    (isTorrent : task.findTorrent handle = some torrent) :
    ((task.base fun base => { base with sessionJobs := rest }).downloadCompleted
      torrent).WithinLimit total := by
  have first {session background} (has : task.HasDownloadJobs session background) :=
    has.popSessionJob jobs rfl
  cases within with
  | reporting has found inactive le =>
      obtain ⟨others, isFirst, popped⟩ := first has
      cases isFirst
      rw [isTorrent] at found
      cases found
      have counted : u64 (task.uploadedDataSize + torrent.uploadedDataSize) =
          task.uploadedDataSize + torrent.uploadedDataSize := u64_of_lt (by omega)
      unfold downloadCompleted
      split
      · unfold actionListDownloaded
        split
        · exact .ended popped inactive le
        · rw [← counted]
          have uncounted := popped.executeOnBackgroundThread
            (show BackgroundJob.downloads .prepareDownloadMissingFiles = true from rfl)
          apply WithinLimit.preparing
          · exact uncounted.of_eq rfl rfl
          · exact inactive
          · exact counted.trans_le le
      · rw [← counted]
        apply withinLimit_downloadMissingFiles
        · exact popped.of_eq rfl rfl
        · exact inactive
        · exact counted.trans_le le
        · exact small
  | ended has inactive le | preparing has inactive le | saving has found inactive le =>
      obtain ⟨others, isFirst, -⟩ := first has
      cases isFirst
  | downloading has member active only limit accepted le =>
      obtain ⟨others, isFirst, -⟩ := first has
      cases isFirst
  | selecting has inactive le =>
      obtain ⟨others, isFirst, -⟩ := first has
      cases isFirst

theorem WithinLimit.of_isActive (within : task.WithinLimit total) {torrent : Torrent}
    (member : torrent ∈ task.torrents) (active : torrent.isActive = true) :
    total = task.uploadedDataSize ∧ task.HasDownloadJobs [] [] ∧
      (∀ other ∈ task.torrents, other.isActive = true → other = torrent) ∧
      torrent.downloadLimit = task.request.maxDataSize - task.uploadedDataSize ∧
      (torrent.state = .metadataReceived →
        torrent.withinLimit torrent.uploadedDataSize = true) := by
  cases within with
  | downloading has isMember isActive only limit accepted le =>
      obtain rfl := only torrent member active
      exact ⟨rfl, has, only, limit, accepted⟩
  | ended has inactive le | preparing has inactive le | selecting has inactive le =>
      rw [inactive torrent member] at active
      cases active
  | saving has found inactive le | reporting has found inactive le =>
      rw [inactive torrent member] at active
      cases active

theorem WithinLimit.metadataReceived (within : task.WithinLimit total) {handle : LtHandle}
    {torrent : Torrent} (found : task.activeTorrent handle .added = some torrent)
    (totalSize : Nat) (isValid : Bool) :
    (task.onMetadataReceived torrent totalSize isValid).WithinLimit total := by
  obtain ⟨-, member, -, isAdded, notRemoved⟩ := UpdateDriveTaskBase.activeTorrent_spec found
  have active : torrent.isActive = true := by simp [Torrent.isActive, isAdded, notRemoved]
  have le := within.total_le
  obtain ⟨rfl, has, only, limit, -⟩ := within.of_isActive member active
  unfold onMetadataReceived
  split
  · rename_i accepted
    obtain ⟨-, fits⟩ := (Bool.and_eq_true _ _).mp accepted
    have goesOn : ({ torrent with
        uploadedDataSize := totalSize, state := .metadataReceived } : Torrent).isActive = true := by
      simp [Torrent.isActive, notRemoved]
    have jobs : (task.base (·.setTorrent { torrent with
        uploadedDataSize := totalSize, state := .metadataReceived })).HasDownloadJobs [] [] :=
      has.of_eq rfl rfl
    refine WithinLimit.downloading jobs ?_ goesOn ?_ limit (fun _ => fits) le
    · exact List.mem_map.mpr ⟨torrent, member, if_pos rfl⟩
    · intro other isOther otherActive
      obtain ⟨old, isOld, rfl⟩ := List.mem_map.mp isOther
      by_cases same : old.handle = torrent.handle
      · exact if_pos same
      · rw [if_neg same] at otherActive
        exact absurd (congrArg Torrent.handle (only old isOld otherActive)) same
  · have inactive : (task.base (·.setTorrent { torrent with state := .failed })).NoneActive :=
      noneActive_setTorrent only rfl rfl
    have failed : (task.base (·.setTorrent { torrent with state := .failed })).WithinLimit
        task.uploadedDataSize :=
      .ended (has.of_eq rfl rfl) inactive le
    exact failed.leaves (leavesDownloads_downloadFailed _ _)

/-- A completed download fits into what is left, if something is left or it is empty. -/
theorem WithinLimit.torrentFinished (within : task.WithinLimit total) {handle : LtHandle}
    {torrent : Torrent} (found : task.activeTorrent handle .metadataReceived = some torrent)
    (fits : task.uploadedDataSize = task.request.maxDataSize → torrent.uploadedDataSize = 0) :
    (task.base (·.torrentFinished torrent)).WithinLimit (total + torrent.uploadedDataSize) := by
  obtain ⟨isTorrent, member, sameHandle, isReceived, notRemoved⟩ :=
    UpdateDriveTaskBase.activeTorrent_spec found
  have active : torrent.isActive = true := by simp [Torrent.isActive, isReceived, notRemoved]
  have le := within.total_le
  obtain ⟨rfl, has, only, limit, accepted⟩ := within.of_isActive member active
  have enough : task.uploadedDataSize + torrent.uploadedDataSize ≤ task.request.maxDataSize := by
    have isWithin := accepted isReceived
    simp only [Torrent.withinLimit, Bool.or_eq_true, Bool.and_eq_true, decide_eq_true_eq] at isWithin
    omega
  have isSet : (task.setTorrent { torrent with state := .finished }).findTorrent torrent.handle =
      some { torrent with state := .finished } := by
    rw [UpdateDriveTaskBase.findTorrent_setTorrent, sameHandle, isTorrent, Option.map_some,
      if_pos sameHandle]
  have inactive : (task.base (·.setTorrent { torrent with state := .finished })).NoneActive :=
    noneActive_setTorrent only rfl rfl
  have jobs : (task.base (·.setTorrent { torrent with state := .finished })).HasDownloadJobs [] [] :=
    has.of_eq rfl rfl
  have isFinished : (task.base (·.torrentFinished torrent)).findTorrent torrent.handle =
      some { torrent with state := .finished } := isSet
  have finished : (task.base (·.torrentFinished torrent)).WithinLimit
      (task.uploadedDataSize + ({ torrent with state := .finished } : Torrent).uploadedDataSize) :=
    WithinLimit.saving (jobs.executeOnBackgroundThread rfl) isFinished inactive enough
  exact finished

theorem WithinLimit.of_downloadStep (within : task.WithinLimit total)
    (small : task.request.maxDataSize < 2 ^ 64) (step : task.DownloadStep event after)
    (notFinished : ∀ handle, event ≠ .torrentFinished handle) :
    after.WithinLimit total := by
  cases step with
  | other leaves => exact within.leaves leaves
  | breaks interrupts leaves removed =>
      have isInterrupted : task.interrupted.WithinLimit total := by
        cases within with
        | ended has inactive le => exact .ended (has.of_eq rfl rfl) inactive le
        | preparing has inactive le => exact .preparing (has.of_eq rfl rfl) inactive le
        | selecting has inactive le => exact .selecting (has.of_eq rfl rfl) inactive le
        | downloading has member active only limit accepted le =>
            exact .downloading (has.of_eq rfl rfl) member active only limit accepted le
        | saving has found inactive le => exact .saving (has.of_eq rfl rfl) found inactive le
        | reporting has found inactive le => exact .reporting (has.of_eq rfl rfl) found inactive le
      exact isInterrupted.leaves leaves
  | prepares jobs => exact within.prepares jobs
  | selects jobs => exact within.selects small jobs
  | metadataReceived found totalSize isValid => exact within.metadataReceived found totalSize isValid
  | torrentFinished found => exact absurd rfl (notFinished _)
  | saves jobs => exact within.saves jobs
  | completes jobs found => exact within.completes small jobs found

theorem DownloadStep.request (step : task.DownloadStep event after) :
    after.request = task.request := by
  cases step with
  | other leaves => exact leaves.request
  | breaks interrupts leaves removed => exact leaves.request
  | @prepares rest result jobs =>
      by_cases prepares : (task.base fun base => { base with backgroundJobs := rest }).PreparesFiles
      · obtain ⟨middle, leaves, isMiddle⟩ := prepare_of_preparesFiles prepares
        rw [isMiddle]
        exact leaves.request
      · exact (leavesDownloads_prepare prepares).request
  | selects jobs =>
      rcases downloadMissingFiles_cases _ with leaves | starts
      · exact leaves.request
      · exact starts.request
  | metadataReceived found totalSize isValid =>
      unfold onMetadataReceived
      split
      · rfl
      · exact (leavesDownloads_downloadFailed _ _).request
  | torrentFinished found => rfl
  | saves jobs => rfl
  | completes jobs found =>
      unfold downloadCompleted
      split
      · unfold actionListDownloaded
        split <;> rfl
      · rcases downloadMissingFiles_cases _ with leaves | starts
        · exact leaves.request
        · exact starts.request

theorem completedSize_of_not_finished (notFinished : ∀ handle, event ≠ .torrentFinished handle) :
    task.completedSize event = 0 := by
  cases event with
  | torrentFinished handle => exact absurd rfl (notFinished handle)
  | _ => rfl

theorem WithinLimit.step (within : task.WithinLimit total)
    (small : task.request.maxDataSize < 2 ^ 64) (fits : task.FitsBudget event)
    (step : modifyDriveSystem.step task event = some after) :
    after.WithinLimit (total + task.completedSize event) := by
  obtain ⟨noFault, handles⟩ := handles_of_step step
  by_cases finished : ∃ handle, event = .torrentFinished handle
  · obtain ⟨handle, rfl⟩ := finished
    cases handles with
    | torrentFinished found =>
        simp only [completedSize, found]
        exact within.torrentFinished found (fits _ noFault found)
  · have notFinished : ∀ handle, event ≠ .torrentFinished handle := not_exists.mp finished
    rw [completedSize_of_not_finished notFinished]
    exact within.of_downloadStep small (downloadStep_of_handles handles) notFinished

/-- A download that is not empty completes although the limit has been used up: the limit is
    exceeded. -/
theorem WithinLimit.exceeds (within : task.WithinLimit total) (misses : ¬ task.FitsBudget event) :
    ∃ after, modifyDriveSystem.step task event = some after ∧
      task.request.maxDataSize < total + task.completedSize event := by
  cases event with
  | torrentFinished handle =>
      simp only [FitsBudget, not_forall] at misses
      obtain ⟨torrent, noFault, found, usedUp, notEmpty⟩ := misses
      obtain ⟨-, member, -, isReceived, notRemoved⟩ := UpdateDriveTaskBase.activeTorrent_spec found
      have active : torrent.isActive = true := by simp [Torrent.isActive, isReceived, notRemoved]
      obtain ⟨isTotal, -⟩ := within.of_isActive member active
      refine ⟨task.base (·.torrentFinished torrent), ?_, ?_⟩
      · have goesOn : ¬ task.fault.isSome = true := by simp [noFault]
        simp only [modifyDriveSystem, if_neg goesOn, ModifyDriveTask.handle, found]
      · simp only [completedSize, found]
        omega
  | _ => exact absurd trivial misses

/-- At its start the task downloads its action list, whose hash has no entry yet. -/
theorem withinLimit_start (request : ModificationRequest) (receivedOpinions : ReceivedOpinions)
    (drive : DriveParams) (actionListFile : Option ActionListFile)
    (small : request.maxDataSize < 2 ^ 64)
    (unknown : drive.torrentHandleMap.contains request.clientDataInfoHash = false) :
    (start request receivedOpinions drive actionListFile).request = request ∧
      (start request receivedOpinions drive actionListFile).WithinLimit 0 := by
  have isNew : ¬ drive.torrentHandleMap.contains request.clientDataInfoHash = true := by
    simp [unknown]
  have starts : start request receivedOpinions drive actionListFile =
      ((create request receivedOpinions drive actionListFile).approval fun approval =>
        { approval with uploadedDataSize := 0 }).download .actionList request.clientDataInfoHash := by
    simp only [start, run]
    split
    · rename_i known
      exact absurd known isNew
    · rfl
  rw [starts]
  constructor
  · rfl
  · have idle : ((create request receivedOpinions drive actionListFile).approval fun approval =>
        { approval with uploadedDataSize := 0 }).HasDownloadJobs [] [] := ⟨rfl, rfl⟩
    have inactive : ((create request receivedOpinions drive actionListFile).approval fun approval =>
        { approval with uploadedDataSize := 0 }).NoneActive := by
      intro torrent member
      exact absurd member List.not_mem_nil
    exact withinLimit_starts idle inactive (Nat.zero_le _) small (startsDownload_download _ _ _)

/-- The completed downloads of a run never exceed the data limit if and only if no download
    that is not empty completes when the limit has been used up exactly. -/
theorem downloads_within_limit_iff (request : ModificationRequest)
    (receivedOpinions : ReceivedOpinions) (drive : DriveParams)
    (actionListFile : Option ActionListFile) (small : request.maxDataSize < 2 ^ 64)
    (unknown : drive.torrentHandleMap.contains request.clientDataInfoHash = false)
    (events : List TaskEvent) :
    dataSystem.Always (fun state => state.2 ≤ request.maxDataSize)
        (start request receivedOpinions drive actionListFile, 0) events ↔
      dataSystem.Meets (fun state event => state.1.FitsBudget event)
        (start request receivedOpinions drive actionListFile, 0) events := by
  have within := withinLimit_start request receivedOpinions drive actionListFile small unknown
  apply Transition.always_iff_meets (E := fun _ _ => True)
    (I := fun state => state.1.request = request ∧ state.1.WithinLimit state.2)
  · rintro state ⟨isRequest, within⟩
    exact isRequest ▸ within.total_le
  · rintro state event after ⟨isRequest, within⟩ - fits step
    obtain ⟨task, stepped, rfl⟩ := Option.map_eq_some_iff.mp step
    constructor
    · exact (downloadStep_of_handles (handles_of_step stepped).2).request.trans isRequest
    · exact within.step (isRequest ▸ small) fits stepped
  · rintro state event ⟨isRequest, within⟩ - misses
    obtain ⟨task, stepped, exceeds⟩ := within.exceeds misses
    refine ⟨(task, state.2 + state.1.completedSize event), ?_, ?_⟩
    · simp only [dataSystem, stepped, Option.map_some]
    · rw [isRequest] at exceeds
      simpa using exceeds
  · exact within
  · exact Transition.meets_of_forall (P := fun _ => True) fun _ _ => trivial

/-! ## Runs of a sample task -/

def sampleUpload : ActionListFile :=
  .actions [{
    actionId := .upload
    param1 := "0000000000000000000000000000000000000000000000000000000000000021" }]

/-- The sample task with a file to download: its data limit is 10 bytes. -/
def sampleUploadTask : ModifyDriveTask := start sampleRequest ∅ sampleDrive (some sampleUpload)

def downloadsOf (actionListSize fileSize : Nat) : List TaskEvent :=
  [.metadataReceived 0 actionListSize true, .torrentFinished 0,
    .runBackgroundJob (.fileSystem .done), .runSessionJob, .runBackgroundJob (.fileSystem .done),
    .runSessionJob, .metadataReceived 1 fileSize true, .torrentFinished 1]

theorem downloads_within_limit_iff_sample :
    dataSystem.Always (fun state => state.2 ≤ sampleRequest.maxDataSize)
        (sampleUploadTask, 0) (downloadsOf 4 6) ↔
      dataSystem.Meets (fun state event => state.1.FitsBudget event)
        (sampleUploadTask, 0) (downloadsOf 4 6) :=
  downloads_within_limit_iff sampleRequest ∅ sampleDrive (some sampleUpload) (by decide)
    (by decide +kernel) (downloadsOf 4 6)

/-- An action list of 10 bytes uses the limit up, and a file of 5 bytes follows. -/
theorem exact_limit_is_exceeded :
    ¬ dataSystem.Always (fun state => state.2 ≤ sampleRequest.maxDataSize)
      (sampleUploadTask, 0) (downloadsOf 10 5) := by
  intro always
  obtain ⟨state, run, exceeds⟩ : dataSystem.Reaches (fun state => state.2 = 15)
      (sampleUploadTask, 0) (downloadsOf 10 5) := by decide +kernel
  have le : state.2 ≤ 10 := always.last run
  omega

end SiriusDrive.ModifyDriveTask
