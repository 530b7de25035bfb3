import SiriusDrive.ModifyDriveTask.ActionList
import SiriusDrive.ModifyDriveTask.Approvals
import SiriusDrive.ModifyDriveTask.Steps
import SiriusDrive.UpdateDriveTaskBase.Work

/-! # The result of the sandbox

From the download of its action list on, a modification task has exactly one piece of
work that leads to a root hash of the sandbox, until the root hash is calculated. The
invariant follows this piece of work from thread to thread; it needs an action list
that can be taken over.
-/

namespace SiriusDrive

def SessionJob.leadsToRootHash : SessionJob → Bool
  | .modifyIsCompletedWithError .. | .downloadMissingFiles | .myRootHashIsCalculated
  | .downloadNotification _ => true
  | _ => false

def BackgroundJob.leadsToRootHash : BackgroundJob → Bool
  | .prepareDownloadMissingFiles | .modifyFsTreeInSandbox | .copyDriveToSandbox
  | .save (.torrentFile _) => true
  | _ => false

theorem SessionJob.worksOnSandbox_of_leadsToRootHash {job : SessionJob}
    (leads : job.leadsToRootHash = true) : job.worksOnSandbox = true := by
  cases job with
  | modifyIsCompletedWithError | downloadMissingFiles | myRootHashIsCalculated
  | downloadNotification => rfl
  | _ => cases leads

theorem BackgroundJob.worksOnSandbox_of_leadsToRootHash {job : BackgroundJob}
    (leads : job.leadsToRootHash = true) : job.worksOnSandbox = true := by
  cases job with
  | prepareDownloadMissingFiles | modifyFsTreeInSandbox | copyDriveToSandbox => rfl
  | save job =>
      cases job with
      | torrentFile => rfl
      | _ => cases leads
  | _ => cases leads

def SessionJob.IsBeforeRootHash : SessionJob → Prop
  | .modifyIsCompletedWithError _ status => status ≠ .invalidActionList
  | .downloadMissingFiles | .myRootHashIsCalculated | .downloadNotification _
  | .runNextTask => True
  | _ => False

def BackgroundJob.IsBeforeRootHash : BackgroundJob → Prop
  | .prepareDownloadMissingFiles | .modifyFsTreeInSandbox | .copyDriveToSandbox
  | .save (.torrentFile _) | .save .clearSandbox => True
  | _ => False

def TorrentsRemoved.IsBeforeRootHash : TorrentsRemoved → Prop
  | .finishTask | .clearSandbox => True
  | .continueSynchronizing | .removeUnusedFiles => False

namespace UpdateDriveTaskBase

/-- How many pieces of work lead to a root hash: jobs and a running download. -/
def rootHashWork (task : UpdateDriveTaskBase) : Nat :=
  task.sessionJobs.countP (·.leadsToRootHash) + task.backgroundJobs.countP (·.leadsToRootHash) +
    if task.torrents.any (·.isActive) then 1 else 0

/-- No root hash has been calculated and nothing but the way to it is scheduled. -/
structure AwaitsRootHash (task : UpdateDriveTaskBase) : Prop where
  fault : task.fault = none
  uncalculated : task.sandboxCalculated = false
  noOpinion : task.myOpinion = none
  status : task.status ≠ .invalidActionList
  sessionJobs : ∀ job ∈ task.sessionJobs, job.IsBeforeRootHash
  backgroundJobs : ∀ job ∈ task.backgroundJobs, job.IsBeforeRootHash
  removals : ∀ removal ∈ task.removals, removal.IsBeforeRootHash
  /-- Torrents are removed only by an interrupted task. -/
  interrupted : task.removals ≠ [] → task.taskIsInterrupted = true
  downloading : ∀ torrent ∈ task.torrents, torrent.isActive = true →
    task.downloadingLtHandle = some torrent.handle
  /-- The zero hash is downloaded only as an action list, without an entry. -/
  zeroHash : ∀ torrent ∈ task.torrents, torrent.isActive = true → torrent.infoHash = 0 →
    task.drive.torrentHandleMap.contains 0 = false

variable {task : UpdateDriveTaskBase}

section Work

variable (task)

@[simp] theorem rootHashWork_executeOnSessionThread (job : SessionJob) :
    (task.executeOnSessionThread job).rootHashWork =
      task.rootHashWork + if job.leadsToRootHash then 1 else 0 := by
  unfold rootHashWork executeOnSessionThread
  rw [List.countP_append, List.countP_singleton, Nat.add_right_comm _ (ite _ _ _),
    Nat.add_right_comm _ (ite _ _ _)]

@[simp] theorem rootHashWork_executeOnBackgroundThread (job : BackgroundJob) :
    (task.executeOnBackgroundThread job).rootHashWork =
      task.rootHashWork + if job.leadsToRootHash then 1 else 0 := by
  unfold rootHashWork executeOnBackgroundThread
  rw [List.countP_append, List.countP_singleton, ← Nat.add_assoc, Nat.add_right_comm]

end Work

theorem rootHashWork_popSessionJob {job : SessionJob} {rest : List SessionJob}
    (jobs : task.sessionJobs = job :: rest) :
    task.rootHashWork = { task with sessionJobs := rest }.rootHashWork +
      if job.leadsToRootHash then 1 else 0 := by
  simp only [rootHashWork, jobs, List.countP_cons]
  omega

theorem rootHashWork_popBackgroundJob {job : BackgroundJob} {rest : List BackgroundJob}
    (jobs : task.backgroundJobs = job :: rest) :
    task.rootHashWork = { task with backgroundJobs := rest }.rootHashWork +
      if job.leadsToRootHash then 1 else 0 := by
  simp only [rootHashWork, jobs, List.countP_cons]
  omega

theorem rootHashWork_eq_zero :
    task.rootHashWork = 0 ↔
      (∀ job ∈ task.sessionJobs, job.leadsToRootHash = false) ∧
        (∀ job ∈ task.backgroundJobs, job.leadsToRootHash = false) ∧
        ∀ torrent ∈ task.torrents, torrent.isActive = false := by
  have downloads : (if task.torrents.any (·.isActive) = true then 1 else 0) = 0 ↔
      ∀ torrent ∈ task.torrents, torrent.isActive = false := by
    simp
  rw [rootHashWork, Nat.add_eq_zero_iff, Nat.add_eq_zero_iff, List.countP_eq_zero,
    List.countP_eq_zero, downloads]
  simp [and_assoc]

theorem rootHashWork_removeTorrents (handles : List LtHandle) (next : TorrentsRemoved) :
    (task.removeTorrentsFromSession handles next).rootHashWork ≤ task.rootHashWork := by
  have fewer : ∀ torrent ∈ (task.removeTorrentsFromSession handles next).torrents,
      torrent.isActive = true → torrent ∈ task.torrents :=
    (task.leaves_removeTorrents handles next).addsNoSandboxWork.torrents
  simp only [rootHashWork]
  apply Nat.add_le_add_left
  split_ifs with after before
  · exact le_rfl
  · obtain ⟨torrent, member, active⟩ := List.any_eq_true.mp after
    exact absurd (List.any_eq_true.mpr ⟨torrent, fewer torrent member active, active⟩) before
  · exact Nat.zero_le _
  · exact le_rfl

theorem rootHashWork_download (idle : task.rootHashWork = 0) (use : DownloadUse)
    (infoHash : InfoHash) (limit : Nat) : (task.download use infoHash limit).1.rootHashWork = 1 := by
  obtain ⟨sessionJobs, backgroundJobs, -⟩ := rootHashWork_eq_zero.mp idle
  have session : task.sessionJobs.countP (·.leadsToRootHash) = 0 := by
    simpa [List.countP_eq_zero] using sessionJobs
  have background : task.backgroundJobs.countP (·.leadsToRootHash) = 0 := by
    simpa [List.countP_eq_zero] using backgroundJobs
  simp [rootHashWork, download, session, background, Torrent.isActive]

theorem rootHashWork_of_addsNoSandboxWork {after : UpdateDriveTaskBase}
    (adds : task.AddsNoSandboxWork after) (idle : task.rootHashWork = 0) :
    after.rootHashWork = 0 := by
  obtain ⟨sessionJobs, backgroundJobs, torrents⟩ := rootHashWork_eq_zero.mp idle
  refine rootHashWork_eq_zero.mpr ⟨?_, ?_, ?_⟩
  · intro job isJob
    by_contra leads
    have works := SessionJob.worksOnSandbox_of_leadsToRootHash (eq_true_of_ne_false leads)
    exact leads (sessionJobs job (adds.sessionJobs job isJob works))
  · intro job isJob
    by_contra leads
    have works := BackgroundJob.worksOnSandbox_of_leadsToRootHash (eq_true_of_ne_false leads)
    exact leads (backgroundJobs job (adds.backgroundJobs job isJob works))
  · intro torrent isTorrent
    by_contra active
    have isActive : torrent.isActive = true := by simpa using active
    exact active (torrents torrent (adds.torrents torrent isTorrent isActive))

namespace AwaitsRootHash

/-- Only fields change that say nothing about the way to the root hash. -/
theorem of_eq {after : UpdateDriveTaskBase} (awaits : task.AwaitsRootHash)
    (fault : after.fault = task.fault) (uncalculated : after.sandboxCalculated = task.sandboxCalculated)
    (myOpinion : after.myOpinion = task.myOpinion) (status : after.status = task.status)
    (sessionJobs : after.sessionJobs = task.sessionJobs)
    (backgroundJobs : after.backgroundJobs = task.backgroundJobs)
    (removals : after.removals = task.removals)
    (interrupted : after.taskIsInterrupted = task.taskIsInterrupted)
    (torrents : after.torrents = task.torrents)
    (downloading : after.downloadingLtHandle = task.downloadingLtHandle)
    (zero : after.drive.torrentHandleMap.contains 0 = task.drive.torrentHandleMap.contains 0) :
    after.AwaitsRootHash where
  fault := fault.trans awaits.fault
  uncalculated := uncalculated.trans awaits.uncalculated
  noOpinion := myOpinion.trans awaits.noOpinion
  status := status ▸ awaits.status
  sessionJobs := sessionJobs ▸ awaits.sessionJobs
  backgroundJobs := backgroundJobs ▸ awaits.backgroundJobs
  removals := removals ▸ awaits.removals
  interrupted := by rw [removals, interrupted]; exact awaits.interrupted
  downloading := by rw [torrents, downloading]; exact awaits.downloading
  zeroHash := by rw [torrents, zero]; exact awaits.zeroHash

theorem executeOnSessionThread (awaits : task.AwaitsRootHash) {job : SessionJob}
    (before : job.IsBeforeRootHash) : (task.executeOnSessionThread job).AwaitsRootHash :=
  { awaits with
    sessionJobs := by
      intro other member
      rcases List.mem_append.mp member with old | new
      · exact awaits.sessionJobs other old
      · obtain rfl := List.mem_singleton.mp new
        exact before }

theorem executeOnBackgroundThread (awaits : task.AwaitsRootHash) {job : BackgroundJob}
    (before : job.IsBeforeRootHash) : (task.executeOnBackgroundThread job).AwaitsRootHash :=
  { awaits with
    backgroundJobs := by
      intro other member
      rcases List.mem_append.mp member with old | new
      · exact awaits.backgroundJobs other old
      · obtain rfl := List.mem_singleton.mp new
        exact before }

theorem popSessionJob (awaits : task.AwaitsRootHash) {job : SessionJob} {rest : List SessionJob}
    (jobs : task.sessionJobs = job :: rest) :
    job.IsBeforeRootHash ∧ { task with sessionJobs := rest }.AwaitsRootHash := by
  have all := awaits.sessionJobs
  rw [jobs] at all
  refine ⟨all job List.mem_cons_self, ?_⟩
  exact { awaits with sessionJobs := fun other member => all other (List.mem_cons_of_mem _ member) }

theorem popBackgroundJob (awaits : task.AwaitsRootHash) {job : BackgroundJob}
    {rest : List BackgroundJob} (jobs : task.backgroundJobs = job :: rest) :
    job.IsBeforeRootHash ∧ { task with backgroundJobs := rest }.AwaitsRootHash := by
  have all := awaits.backgroundJobs
  rw [jobs] at all
  refine ⟨all job List.mem_cons_self, ?_⟩
  exact
    { awaits with backgroundJobs := fun other member => all other (List.mem_cons_of_mem _ member) }

theorem popRemoval (awaits : task.AwaitsRootHash) {index : Nat} {removal : TorrentsRemoved}
    (found : task.removals[index]? = some removal) :
    removal.IsBeforeRootHash ∧ task.taskIsInterrupted = true ∧
      { task with removals := task.removals.eraseIdx index }.AwaitsRootHash := by
  have member : removal ∈ task.removals := List.mem_of_getElem? found
  have interrupted := awaits.interrupted (List.ne_nil_of_mem member)
  refine ⟨awaits.removals removal member, interrupted, ?_⟩
  exact
    { awaits with
      removals := fun other left => awaits.removals other (List.mem_of_mem_eraseIdx left)
      interrupted := fun _ => interrupted }

theorem removeTorrents (awaits : task.AwaitsRootHash) (handles : List LtHandle)
    {next : TorrentsRemoved} (before : next.IsBeforeRootHash)
    (interrupted : task.taskIsInterrupted = true) :
    (task.removeTorrentsFromSession handles next).AwaitsRootHash := by
  have fewer := (task.leaves_removeTorrents handles next).addsNoSandboxWork.torrents
  exact
    { awaits with
      removals := by
        intro removal member
        rcases List.mem_append.mp member with old | new
        · exact awaits.removals removal old
        · obtain rfl := List.mem_singleton.mp new
          exact before
      interrupted := fun _ => interrupted
      downloading := fun torrent member active =>
        awaits.downloading torrent (fewer torrent member active) active
      zeroHash := fun torrent member active =>
        awaits.zeroHash torrent (fewer torrent member active) active }

theorem finishTask (awaits : task.AwaitsRootHash) (interrupted : task.taskIsInterrupted = true) :
    task.finishTask.AwaitsRootHash ∧ task.finishTask.rootHashWork ≤ task.rootHashWork ∧
      task.finishTask.taskIsInterrupted = true := by
  have finished : { task with taskIsFinished := true }.AwaitsRootHash :=
    awaits.of_eq rfl rfl rfl rfl rfl rfl rfl rfl rfl rfl rfl
  simp only [UpdateDriveTaskBase.finishTask]
  split
  · rename_i handle _
    have unused :
        { task with taskIsFinished := true, fsTreeOrActionListHandle := none }.AwaitsRootHash :=
      awaits.of_eq rfl rfl rfl rfl rfl rfl rfl rfl rfl rfl rfl
    refine ⟨unused.removeTorrents [handle] trivial interrupted, ?_, interrupted⟩
    exact rootHashWork_removeTorrents [handle] .clearSandbox
  · refine ⟨finished.executeOnBackgroundThread trivial, ?_, interrupted⟩
    rw [rootHashWork_executeOnBackgroundThread]
    exact le_rfl

/-- A task that awaits its root hash is not finished at once: a download is removed, other
    work goes on. -/
theorem breakTask (awaits : task.AwaitsRootHash) (received : Bool) :
    (task.breakTorrentDownloadAndRunNextTask (·.tryBreakTask received)).AwaitsRootHash ∧
      (task.breakTorrentDownloadAndRunNextTask (·.tryBreakTask received)).rootHashWork ≤
        task.rootHashWork ∧
      (task.breakTorrentDownloadAndRunNextTask
        (·.tryBreakTask received)).taskIsInterrupted = true := by
  have interrupted : { task with taskIsInterrupted := true }.AwaitsRootHash :=
    { awaits with interrupted := fun _ => rfl }
  simp only [breakTorrentDownloadAndRunNextTask]
  split
  · rename_i handle isDownloading
    refine ⟨?_, rootHashWork_removeTorrents [handle] .finishTask, rfl⟩
    -- every torrent which is being downloaded has the handle that is removed
    have removed : ∀ torrent ∈ ({ task with
          taskIsInterrupted := true, downloadingLtHandle := none
          }.removeTorrentsFromSession [handle] .finishTask).torrents, torrent.isActive = false := by
      intro torrent member
      obtain ⟨old, isOld, rfl⟩ := List.mem_map.mp member
      split_ifs with isHandle
      · simp [Torrent.isActive]
      · by_contra active
        have same := awaits.downloading old isOld (by simpa using active)
        have handles : some handle = some old.handle := isDownloading.symm.trans same
        exact isHandle (List.mem_singleton.mpr (Option.some.inj handles).symm)
    exact
      { awaits with
        removals := by
          intro removal member
          rcases List.mem_append.mp member with old | new
          · exact awaits.removals removal old
          · obtain rfl := List.mem_singleton.mp new
            trivial
        interrupted := fun _ => rfl
        downloading := fun torrent member active => by simp [removed torrent member] at active
        zeroHash := fun torrent member active => by simp [removed torrent member] at active }
  · have waits : UpdateDriveTaskBase.tryBreakTask { task with taskIsInterrupted := true } received =
        { task with taskIsInterrupted := true } := by
      simp [UpdateDriveTaskBase.tryBreakTask, awaits.uncalculated]
    rw [waits]
    exact ⟨interrupted, le_rfl, rfl⟩

end AwaitsRootHash

theorem activeTorrent_eq_some {handle : LtHandle} {state : TorrentState} {torrent : Torrent}
    (found : task.activeTorrent handle state = some torrent) :
    torrent ∈ task.torrents ∧ torrent.state = state ∧ torrent.isRemoved = false := by
  obtain ⟨isTorrent, inState⟩ := Option.filter_eq_some_iff.mp found
  obtain ⟨isState, notRemoved⟩ := of_decide_eq_true inState
  exact ⟨List.mem_of_find?_eq_some isTorrent, isState, notRemoved⟩

/-- A running download is the only work of a task that has no more than one. -/
theorem rootHashWork_of_active {torrent : Torrent} (member : torrent ∈ task.torrents)
    (active : torrent.isActive = true) (atMost : task.rootHashWork ≤ 1) :
    (∀ job ∈ task.sessionJobs, job.leadsToRootHash = false) ∧
      ∀ job ∈ task.backgroundJobs, job.leadsToRootHash = false := by
  have downloads : task.torrents.any (·.isActive) = true :=
    List.any_eq_true.mpr ⟨torrent, member, active⟩
  rw [rootHashWork, if_pos downloads] at atMost
  have session : task.sessionJobs.countP (·.leadsToRootHash) = 0 := by omega
  have background : task.backgroundJobs.countP (·.leadsToRootHash) = 0 := by omega
  rw [List.countP_eq_zero] at session background
  exact ⟨fun job isJob => by simpa using session job isJob,
    fun job isJob => by simpa using background job isJob⟩

theorem rootHashWork_setTorrent {torrent new : Torrent} (member : torrent ∈ task.torrents)
    (active : torrent.isActive = true) (handle : new.handle = torrent.handle)
    (goesOn : new.isActive = true) : (task.setTorrent new).rootHashWork = task.rootHashWork := by
  have before : task.torrents.any (·.isActive) = true :=
    List.any_eq_true.mpr ⟨torrent, member, active⟩
  have isSet : new ∈ (task.setTorrent new).torrents :=
    List.mem_map.mpr ⟨torrent, member, if_pos handle.symm⟩
  have after : (task.setTorrent new).torrents.any (·.isActive) = true :=
    List.any_eq_true.mpr ⟨new, isSet, goesOn⟩
  rw [rootHashWork, rootHashWork, if_pos before, if_pos after]
  rfl

/-- The torrent that is being downloaded gets a new state; no other one is active. -/
theorem AwaitsRootHash.setTorrent (awaits : task.AwaitsRootHash) {torrent : Torrent}
    (new : Torrent) (member : torrent ∈ task.torrents) (active : torrent.isActive = true)
    (handle : new.handle = torrent.handle) (infoHash : new.infoHash = torrent.infoHash) :
    (∀ other ∈ (task.setTorrent new).torrents, other.isActive = true → other = new) ∧
      (task.setTorrent new).AwaitsRootHash := by
  have downloading := awaits.downloading torrent member active
  have only : ∀ other ∈ (task.setTorrent new).torrents, other.isActive = true → other = new := by
    intro other isOther otherActive
    obtain ⟨old, isOld, rfl⟩ := List.mem_map.mp isOther
    split_ifs at otherActive ⊢ with same
    · rfl
    · have handles := (awaits.downloading old isOld otherActive).symm.trans downloading
      exact absurd ((Option.some.inj handles).trans handle.symm) same
  refine ⟨only, ?_⟩
  exact
    { awaits with
      downloading := by
        intro other isOther otherActive
        rw [only other isOther otherActive, handle]
        exact downloading
      zeroHash := by
        intro other isOther otherActive
        rw [only other isOther otherActive, infoHash]
        exact awaits.zeroHash torrent member active }

end UpdateDriveTaskBase

namespace ModifyDriveTask

open UpdateDriveTaskBase (rootHashWork_eq_zero)

/-- The task awaits its root hash with an action list that can be taken over. -/
structure AwaitsResult (task : ModifyDriveTask) : Prop where
  base : task.toUpdateDriveTaskBase.AwaitsRootHash
  file : ∃ file, task.actionListFile = some file ∧ file.IsUsable task.drive.torrentHandleMap
  missed : 0 ∈ task.missedFileSet → task.drive.torrentHandleMap.contains 0 = true
  modifyOpinionTimer : task.modifyOpinionTimer ≠ .pending
  shareMyOpinionTimer : task.shareMyOpinionTimer ≠ .pending

/-- At most one piece of work leads to the root hash, and exactly one does unless the
    task is interrupted. -/
structure AwaitsOneResult (task : ModifyDriveTask) : Prop extends AwaitsResult task where
  atMost : task.rootHashWork ≤ 1
  running : task.taskIsInterrupted = false → task.rootHashWork = 1

variable {task : ModifyDriveTask}

theorem AwaitsResult.of_base {after : ModifyDriveTask} (awaits : task.AwaitsResult)
    (base : after.toUpdateDriveTaskBase.AwaitsRootHash)
    (zero : after.drive.torrentHandleMap.contains 0 = task.drive.torrentHandleMap.contains 0)
    (file : after.actionListFile = task.actionListFile)
    (missed : after.missedFileSet ⊆ task.missedFileSet)
    (modifyOpinionTimer : after.modifyOpinionTimer = task.modifyOpinionTimer)
    (shareMyOpinionTimer : after.shareMyOpinionTimer = task.shareMyOpinionTimer) :
    after.AwaitsResult where
  base := base
  file := by
    obtain ⟨content, isFile, usable⟩ := awaits.file
    exact ⟨content, file.trans isFile, usable.congr zero⟩
  missed := by
    intro member
    rw [zero]
    exact awaits.missed (missed member)
  modifyOpinionTimer := modifyOpinionTimer ▸ awaits.modifyOpinionTimer
  shareMyOpinionTimer := shareMyOpinionTimer ▸ awaits.shareMyOpinionTimer

theorem AwaitsResult.of_map_base (awaits : task.AwaitsResult)
    {f : UpdateDriveTaskBase → UpdateDriveTaskBase}
    (base : (f task.toUpdateDriveTaskBase).AwaitsRootHash)
    (zero : (f task.toUpdateDriveTaskBase).drive.torrentHandleMap.contains 0 =
      task.drive.torrentHandleMap.contains 0) : (task.base f).AwaitsResult :=
  awaits.of_base base zero rfl (List.Subset.refl _) rfl rfl

theorem AwaitsResult.withOne (awaits : task.AwaitsResult) (one : task.rootHashWork = 1) :
    task.AwaitsOneResult :=
  { awaits with atMost := one.le, running := fun _ => one }

theorem AwaitsResult.whileInterrupted (awaits : task.AwaitsResult)
    (interrupted : task.taskIsInterrupted = true) (atMost : task.rootHashWork ≤ 1) :
    task.AwaitsOneResult :=
  { awaits with
    atMost := atMost
    running := fun running => absurd running (by simp [interrupted]) }

theorem AwaitsResult.noneActive (idle : task.rootHashWork = 0) :
    ∀ torrent ∈ task.torrents, torrent.isActive = false :=
  (rootHashWork_eq_zero.mp idle).2.2

theorem contains_emplaceRemoved (torrentHandleMap : TorrentHandleMap)
    (removedFiles : List InfoHash) :
    (emplaceRemoved torrentHandleMap removedFiles).contains 0 = torrentHandleMap.contains 0 := by
  unfold emplaceRemoved
  induction removedFiles generalizing torrentHandleMap with
  | nil => rfl
  | cons hash others ih =>
      rw [List.foldl_cons, ih]
      split_ifs with notZero
      · have isOther : hash ≠ 0#256 := notZero
        simp [Std.TreeMap.contains_insertIfNew, isOther]
      · rfl

theorem AwaitsResult.addUploadedDataSize (awaits : task.AwaitsResult) (downloadedSize : Nat) :
    (task.addUploadedDataSize downloadedSize).AwaitsResult :=
  awaits.of_base (awaits.base.of_eq rfl rfl rfl rfl rfl rfl rfl rfl rfl rfl rfl) rfl rfl
    (List.Subset.refl _) rfl rfl

/-! ## Each piece of work is followed by the next one -/

section HandsOn

variable (awaits : task.AwaitsResult) (idle : task.rootHashWork = 0)

include awaits idle

theorem AwaitsResult.executeOnSessionThread (job : SessionJob)
    (leads : job.leadsToRootHash = true) (before : job.IsBeforeRootHash) :
    (task.base (·.executeOnSessionThread job)).AwaitsOneResult := by
  have one : (task.toUpdateDriveTaskBase.executeOnSessionThread job).rootHashWork = 1 := by
    rw [UpdateDriveTaskBase.rootHashWork_executeOnSessionThread, idle, if_pos leads]
  exact (awaits.of_map_base (f := (·.executeOnSessionThread job))
    (awaits.base.executeOnSessionThread before) rfl).withOne one

theorem AwaitsResult.executeOnBackgroundThread (job : BackgroundJob)
    (leads : job.leadsToRootHash = true) (before : job.IsBeforeRootHash) :
    (task.base (·.executeOnBackgroundThread job)).AwaitsOneResult := by
  have one : (task.toUpdateDriveTaskBase.executeOnBackgroundThread job).rootHashWork = 1 := by
    rw [UpdateDriveTaskBase.rootHashWork_executeOnBackgroundThread, idle, if_pos leads]
  exact (awaits.of_map_base (f := (·.executeOnBackgroundThread job))
    (awaits.base.executeOnBackgroundThread before) rfl).withOne one

theorem AwaitsResult.endDownload {status : ModificationStatus}
    (other : status ≠ .invalidActionList) :
    (task.base fun base => { base with downloadingLtHandle := none, status }).AwaitsResult := by
  have noneActive := AwaitsResult.noneActive idle
  have ended :
      { task.toUpdateDriveTaskBase with downloadingLtHandle := none, status }.AwaitsRootHash :=
    { awaits.base with
      status := other
      downloading := fun torrent member active => by simp [noneActive torrent member] at active }
  exact awaits.of_map_base ended rfl

theorem AwaitsResult.modifyIsCompletedWithError {status : ModificationStatus}
    (other : status ≠ .invalidActionList) :
    (task.modifyIsCompletedWithError status).AwaitsOneResult :=
  (awaits.endDownload idle other).executeOnBackgroundThread idle .copyDriveToSandbox rfl trivial

theorem AwaitsResult.prepareDownloadMissingFiles :
    task.prepareDownloadMissingFiles.AwaitsOneResult := by
  obtain ⟨file, isFile, usable⟩ := awaits.file
  cases file with
  | undecodable loaded => exact usable.elim
  | actions actionList =>
      obtain ⟨missedFileSet, prepared⟩ :=
        prepareMissed_total (fun action member => (usable action member).readable) task.missedFileSet
      obtain ⟨-, members, -⟩ := prepareMissed_ok prepared
      have withMissed : { task with missedFileSet }.AwaitsResult :=
        { awaits with
          missed := by
            intro member
            rcases (members 0).mp member with old | ⟨action, isAction, isZero⟩
            · exact awaits.missed old
            · exact (usable action isAction).zero isZero }
      unfold ModifyDriveTask.prepareDownloadMissingFiles
      rw [isFile]
      simp only [prepared]
      exact withMissed.executeOnSessionThread idle .downloadMissingFiles rfl trivial

theorem AwaitsResult.download (use : DownloadUse) {infoHash : InfoHash}
    (unknown : task.drive.torrentHandleMap.contains infoHash = false) :
    (task.download use infoHash).AwaitsResult ∧ (task.download use infoHash).rootHashWork = 1 := by
  have noneActive := AwaitsResult.noneActive idle
  have started : (task.download use infoHash).toUpdateDriveTaskBase.AwaitsRootHash :=
    { awaits.base with
      downloading := by
        intro torrent member active
        rcases List.mem_append.mp member with old | new
        · simp [noneActive torrent old] at active
        · obtain rfl := List.mem_singleton.mp new
          rfl
      zeroHash := by
        intro torrent member active isZero
        rcases List.mem_append.mp member with old | new
        · simp [noneActive torrent old] at active
        · obtain rfl := List.mem_singleton.mp new
          exact isZero ▸ unknown }
  constructor
  · exact awaits.of_base started rfl rfl (List.Subset.refl _) rfl rfl
  · exact UpdateDriveTaskBase.rootHashWork_download idle use infoHash
      (u64Sub task.request.maxDataSize task.uploadedDataSize)

theorem AwaitsResult.downloadMissingFiles : task.downloadMissingFiles.AwaitsOneResult := by
  obtain ⟨⟨file, rest⟩, selected⟩ :=
    Option.isSome_iff_exists.mp (selectMissing_isSome awaits.missed)
  obtain ⟨subset, isFile⟩ := selectMissing_spec selected
  have withRest : { task with missedFileSet := rest }.AwaitsResult :=
    { awaits with missed := fun member => awaits.missed (subset member) }
  cases file with
  | none =>
      simp only [ModifyDriveTask.downloadMissingFiles, selected]
      exact (withRest.endDownload idle awaits.base.status).executeOnBackgroundThread idle
        .modifyFsTreeInSandbox rfl trivial
  | some hash =>
      obtain ⟨notZero, unknown⟩ := isFile hash rfl
      have isOther : hash ≠ 0#256 := notZero
      obtain ⟨started, one⟩ := withRest.download idle .missingFile unknown
      simp only [ModifyDriveTask.downloadMissingFiles, selected]
      -- the new entry is not the one of the zero hash
      have zero : (task.drive.torrentHandleMap.insert hash
            { ltHandle := some task.drive.nextHandle, isUsed := false }).contains 0 =
          task.drive.torrentHandleMap.contains 0 := by
        simp [Std.TreeMap.contains_insert, isOther]
      refine AwaitsResult.withOne (started.of_map_base ?_ zero) one
      exact started.base.of_eq rfl rfl rfl rfl rfl rfl rfl rfl rfl rfl zero

theorem AwaitsResult.copyDriveToSandbox : task.copyDriveToSandbox.AwaitsOneResult := by
  have copied : { task.toUpdateDriveTaskBase with
      sandboxRootHash := some task.drive.rootHash
      sandboxFsTree := some task.drive.fsTree }.AwaitsRootHash :=
    awaits.base.of_eq rfl rfl rfl rfl rfl rfl rfl rfl rfl rfl rfl
  have copiedTask := awaits.of_map_base (f := fun base => { base with
      sandboxRootHash := some base.drive.rootHash
      sandboxFsTree := some base.drive.fsTree }) copied rfl
  exact copiedTask.executeOnSessionThread idle .myRootHashIsCalculated rfl trivial

theorem AwaitsResult.modifyFsTreeInSandbox (result : SandboxResult) :
    (task.modifyFsTreeInSandbox result).AwaitsOneResult := by
  obtain ⟨file, isFile, usable⟩ := awaits.file
  cases file with
  | undecodable loaded => exact usable.elim
  | actions actionList =>
      have zero : (emplaceRemoved task.drive.torrentHandleMap result.removedFiles).contains 0 =
          task.drive.torrentHandleMap.contains 0 := contains_emplaceRemoved _ _
      have built := awaits.of_map_base (f := fun base =>
        { base with
          drive := { base.drive with
            torrentHandleMap := emplaceRemoved base.drive.torrentHandleMap result.removedFiles }
          sandboxFsTree := some result.fsTree
          sandboxRootHash := some result.rootHash }.setSandboxSizes result)
        (awaits.base.of_eq rfl rfl rfl rfl rfl rfl rfl rfl rfl rfl zero) zero
      unfold ModifyDriveTask.modifyFsTreeInSandbox
      rw [isFile]
      simp only
      split_ifs with full
      · exact built.executeOnSessionThread idle _ rfl ModificationStatus.noConfusion
      · exact built.executeOnSessionThread idle _ rfl trivial

theorem AwaitsResult.downloadFailed {infoHash : InfoHash}
    (zero : infoHash = 0 → task.drive.torrentHandleMap.contains 0 = false) :
    (task.downloadFailed infoHash).AwaitsOneResult := by
  have same : (task.drive.torrentHandleMap.erase infoHash).contains 0 =
      task.drive.torrentHandleMap.contains 0 := by
    rw [Std.TreeMap.contains_erase]
    by_cases isZero : infoHash = 0
    · rw [zero isZero, Bool.and_false]
    · have isOther : infoHash ≠ 0#256 := isZero
      simp [isOther]
  have erased := awaits.of_map_base (f := fun base =>
    { base with
      drive := { base.drive with
        torrentHandleMap := base.drive.torrentHandleMap.erase infoHash } })
    (awaits.base.of_eq rfl rfl rfl rfl rfl rfl rfl rfl rfl rfl same) same
  exact erased.modifyIsCompletedWithError idle ModificationStatus.noConfusion

theorem AwaitsResult.actionListDownloaded (downloadedSize : Nat) :
    (task.actionListDownloaded downloadedSize).AwaitsOneResult := by
  unfold ModifyDriveTask.actionListDownloaded
  split_ifs with interrupted
  · exact awaits.whileInterrupted interrupted (by omega)
  · have noneActive := AwaitsResult.noneActive idle
    have counted := awaits.addUploadedDataSize downloadedSize
    have received :
        { task.addUploadedDataSize downloadedSize with actionListIsReceived := true }.AwaitsResult :=
      { counted with }
    have ended := received.of_map_base (f := fun base =>
        { base with fsTreeOrActionListHandle := base.downloadingLtHandle, downloadingLtHandle := none })
      { counted.base with
        downloading := fun torrent member active => by simp [noneActive torrent member] at active }
      rfl
    exact ended.executeOnBackgroundThread idle .prepareDownloadMissingFiles rfl trivial

theorem AwaitsResult.downloadCompleted (torrent : Torrent) :
    (task.downloadCompleted torrent).AwaitsOneResult := by
  unfold ModifyDriveTask.downloadCompleted
  split
  · exact awaits.actionListDownloaded idle _
  · exact (awaits.addUploadedDataSize _).downloadMissingFiles idle

end HandsOn

/-! ## The steps before the root hash -/

theorem AwaitsOneResult.of_awaits {after : ModifyDriveTask} (one : task.AwaitsOneResult)
    (awaits : after.AwaitsResult) (work : after.rootHashWork = task.rootHashWork)
    (interrupted : after.taskIsInterrupted = task.taskIsInterrupted) : after.AwaitsOneResult :=
  { awaits with
    atMost := work ▸ one.atMost
    running := by rw [work, interrupted]; exact one.running }

theorem AwaitsOneResult.breakTask (one : task.AwaitsOneResult) :
    task.breakTask.AwaitsOneResult := by
  obtain ⟨broken, fewer, interrupted⟩ := one.base.breakTask task.modifyApproveTxReceived
  have awaits : task.breakTask.AwaitsResult := by
    refine one.toAwaitsResult.of_map_base broken ?_
    simp only [UpdateDriveTaskBase.breakTorrentDownloadAndRunNextTask]
    split
    · rfl
    · simp [UpdateDriveTaskBase.tryBreakTask, one.base.uncalculated]
  exact awaits.whileInterrupted interrupted (fewer.trans one.atMost)

theorem AwaitsOneResult.of_eq {after : ModifyDriveTask} (one : task.AwaitsOneResult)
    (base : after.toUpdateDriveTaskBase =
      { task.toUpdateDriveTaskBase with drive := after.drive })
    (map : after.drive.torrentHandleMap = task.drive.torrentHandleMap)
    (file : after.actionListFile = task.actionListFile)
    (missed : after.missedFileSet = task.missedFileSet)
    (modifyOpinionTimer : after.modifyOpinionTimer = task.modifyOpinionTimer)
    (shareMyOpinionTimer : after.shareMyOpinionTimer = task.shareMyOpinionTimer) :
    after.AwaitsOneResult := by
  have zero : after.drive.torrentHandleMap.contains 0 = task.drive.torrentHandleMap.contains 0 :=
    congrArg (·.contains 0) map
  have kept : after.toUpdateDriveTaskBase.AwaitsRootHash := by
    rw [base]
    exact one.base.of_eq rfl rfl rfl rfl rfl rfl rfl rfl rfl rfl zero
  apply one.of_awaits
  · exact one.toAwaitsResult.of_base kept zero file (missed ▸ List.Subset.refl _) modifyOpinionTimer
      shareMyOpinionTimer
  · rw [base]
    rfl
  · rw [base]

/-- While no opinion has been formed, the opinions of others are only stored. -/
theorem AwaitsOneResult.processedModifyOpinion (one : task.AwaitsOneResult)
    (anOpinion : ApprovalTransactionInfo) :
    (task.processedModifyOpinion anOpinion).1.AwaitsOneResult := by
  unfold ModifyDriveTask.processedModifyOpinion
  split_ifs with other
  · exact one
  · rw [one.base.noOpinion]
    exact one.of_eq rfl rfl rfl rfl rfl rfl

theorem AwaitsOneResult.onApprovalTxPublished (one : task.AwaitsOneResult)
    (transaction : PublishedModificationApprovalTransactionInfo) :
    (task.onApprovalTxPublished transaction).1.AwaitsOneResult := by
  have received : task.setApproveTxReceived.AwaitsOneResult := one.of_eq rfl rfl rfl rfl rfl rfl
  cases running : task.taskIsInterrupted with
  | true =>
      rw [onApprovalTxPublished_interrupted running]
      exact one
  | false =>
      by_cases applies : task.Applies transaction
      · rw [onApprovalTxPublished_waits running applies one.base.uncalculated]
        exact received
      · rw [onApprovalTxPublished_breaks running applies]
        have increased : (task.setApproveTxReceived.base
            (·.increaseApprovedExpectedCumulativeDownload task.request.maxDataSize)
            ).AwaitsOneResult :=
          received.of_eq rfl rfl rfl rfl rfl rfl
        exact increased.breakTask

theorem AwaitsOneResult.onApprovalTxFailed (one : task.AwaitsOneResult) (transactionHash : Hash256) :
    (task.onApprovalTxFailed transactionHash).AwaitsOneResult := by
  unfold ModifyDriveTask.onApprovalTxFailed
  split_ifs with own
  · exact one.of_eq rfl rfl rfl rfl rfl rfl
  · exact one

theorem AwaitsOneResult.terminate (one : task.AwaitsOneResult) :
    task.terminate.AwaitsOneResult := by
  have stopped : (task.approval fun approval =>
      { approval with
        drive := { approval.drive with replicatorIsStopped := true }
        modifyOpinionTimer := approval.modifyOpinionTimer.cancel
        shareMyOpinionTimer := approval.shareMyOpinionTimer.cancel }).AwaitsOneResult := by
    have kept : UpdateDriveTaskBase.AwaitsRootHash { task.toUpdateDriveTaskBase with
        drive := { task.drive with replicatorIsStopped := true } } :=
      one.base.of_eq rfl rfl rfl rfl rfl rfl rfl rfl rfl rfl rfl
    exact
      { base := kept
        file := one.file
        missed := one.missed
        modifyOpinionTimer := nofun
        shareMyOpinionTimer := nofun
        atMost := one.atMost
        running := one.running }
  exact stopped.breakTask

theorem AwaitsOneResult.setEnded (one : task.AwaitsOneResult) {torrent : Torrent} (new : Torrent)
    (member : torrent ∈ task.torrents) (active : torrent.isActive = true)
    (handle : new.handle = torrent.handle) (infoHash : new.infoHash = torrent.infoHash)
    (ended : new.isActive = false) :
    (task.base (·.setTorrent new)).AwaitsResult ∧ (task.base (·.setTorrent new)).rootHashWork = 0 := by
  obtain ⟨only, awaits⟩ := one.base.setTorrent new member active handle infoHash
  obtain ⟨sessionJobs, backgroundJobs⟩ :=
    UpdateDriveTaskBase.rootHashWork_of_active member active one.atMost
  refine ⟨one.toAwaitsResult.of_map_base awaits rfl, ?_⟩
  refine rootHashWork_eq_zero.mpr ⟨sessionJobs, backgroundJobs, ?_⟩
  intro other isOther
  by_contra otherActive
  have same := only other isOther (by simpa using otherActive)
  rw [same, ended] at otherActive
  exact otherActive rfl

theorem AwaitsOneResult.torrentFinished (one : task.AwaitsOneResult) {torrent : Torrent}
    (member : torrent ∈ task.torrents) (active : torrent.isActive = true) :
    (task.base (·.torrentFinished torrent)).AwaitsOneResult := by
  obtain ⟨awaits, idle⟩ :=
    one.setEnded { torrent with state := .finished } member active rfl rfl rfl
  exact awaits.executeOnBackgroundThread idle (.save (.torrentFile torrent.handle)) rfl trivial

theorem AwaitsOneResult.onMetadataReceived (one : task.AwaitsOneResult) {torrent : Torrent}
    (member : torrent ∈ task.torrents) (active : torrent.isActive = true)
    (notRemoved : torrent.isRemoved = false) (totalSize : Nat) (isValid : Bool) :
    (task.onMetadataReceived torrent totalSize isValid).AwaitsOneResult := by
  unfold ModifyDriveTask.onMetadataReceived
  split_ifs with accepted
  · -- the download goes on
    have goesOn : Torrent.isActive { torrent with
        uploadedDataSize := totalSize, state := .metadataReceived } = true := by
      simp [Torrent.isActive, notRemoved]
    obtain ⟨-, awaits⟩ := one.base.setTorrent { torrent with
      uploadedDataSize := totalSize, state := .metadataReceived } member active rfl rfl
    apply one.of_awaits
    · exact one.toAwaitsResult.of_map_base awaits rfl
    · exact UpdateDriveTaskBase.rootHashWork_setTorrent member active rfl goesOn
    · rfl
  · -- the limit is exceeded or the metadata are invalid
    obtain ⟨awaits, idle⟩ :=
      one.setEnded { torrent with state := .failed } member active rfl rfl rfl
    exact awaits.downloadFailed idle (one.base.zeroHash torrent member active)

/-- The first job of the session thread is run: it hands its work on, or it calculates the root
    hash. -/
theorem AwaitsOneResult.runSessionJob (one : task.AwaitsOneResult) {job : SessionJob}
    {rest : List SessionJob} {after : ModifyDriveTask} (jobs : task.sessionJobs = job :: rest)
    (run : (task.base fun base => { base with sessionJobs := rest }).runSessionJob job =
      some after) :
    (job ≠ .myRootHashIsCalculated ∧ after.AwaitsOneResult) ∨
      (job = .myRootHashIsCalculated ∧ after.rootHashWork = 0) := by
  obtain ⟨before, popped⟩ := one.base.popSessionJob jobs
  have awaits := one.toAwaitsResult.of_map_base
    (f := fun base => { base with sessionJobs := rest }) popped rfl
  have counted : task.rootHashWork =
      (task.base fun base => { base with sessionJobs := rest }).rootHashWork +
        if job.leadsToRootHash then 1 else 0 :=
    UpdateDriveTaskBase.rootHashWork_popSessionJob jobs
  have atMost := one.atMost
  -- the job which is taken is the only one that leads on
  have idle (leads : job.leadsToRootHash = true) :
      (task.base fun base => { base with sessionJobs := rest }).rootHashWork = 0 := by
    rw [if_pos leads] at counted
    omega
  cases job with
  | modifyIsCompletedWithError text status =>
      obtain rfl := Option.some.inj run
      exact .inl ⟨by simp, awaits.modifyIsCompletedWithError (idle rfl) before⟩
  | downloadMissingFiles =>
      obtain rfl := Option.some.inj run
      exact .inl ⟨by simp, awaits.downloadMissingFiles (idle rfl)⟩
  | downloadNotification handle =>
      unfold ModifyDriveTask.runSessionJob at run
      simp only at run
      split at run
      · obtain rfl := Option.some.inj run
        exact .inl ⟨by simp, awaits.downloadCompleted (idle rfl) _⟩
      · simp at run
  | myRootHashIsCalculated =>
      obtain rfl := Option.some.inj run
      refine .inr ⟨rfl, ?_⟩
      exact UpdateDriveTaskBase.rootHashWork_of_addsNoSandboxWork
        (UpdateDriveTaskBase.leaves_myRootHashIsCalculated _ _ _).addsNoSandboxWork (idle rfl)
  | runNextTask => simp [ModifyDriveTask.runSessionJob] at run
  | onCumulativeUploadsUpdated | myOpinionIsCreated | synchronizationIsCompleted
  | modifyIsCompleted | createUnusedFileList | unusedFilesRemoved | startNextChunk
  | requestMissingChunkInfo => exact before.elim

theorem AwaitsOneResult.runBackgroundJob (one : task.AwaitsOneResult) {job : BackgroundJob}
    {rest : List BackgroundJob} {result : BackgroundResult} {after : ModifyDriveTask}
    (jobs : task.backgroundJobs = job :: rest)
    (run : (task.base fun base => { base with backgroundJobs := rest }).runBackgroundJob job
      result = some after) : after.AwaitsOneResult := by
  obtain ⟨before, popped⟩ := one.base.popBackgroundJob jobs
  have awaits := one.toAwaitsResult.of_map_base
    (f := fun base => { base with backgroundJobs := rest }) popped rfl
  have counted : task.rootHashWork =
      (task.base fun base => { base with backgroundJobs := rest }).rootHashWork +
        if job.leadsToRootHash then 1 else 0 :=
    UpdateDriveTaskBase.rootHashWork_popBackgroundJob jobs
  have atMost := one.atMost
  have idle (leads : job.leadsToRootHash = true) :
      (task.base fun base => { base with backgroundJobs := rest }).rootHashWork = 0 := by
    rw [if_pos leads] at counted
    omega
  unfold ModifyDriveTask.runBackgroundJob at run
  split at run
  · rename_i job
    obtain rfl := Option.some.inj run
    cases job with
    | torrentFile handle =>
        exact awaits.executeOnSessionThread (idle rfl) (.downloadNotification handle) rfl trivial
    | clearSandbox =>
        have saved := popped.executeOnSessionThread
          (show SessionJob.IsBeforeRootHash .runNextTask from trivial)
        refine one.of_awaits (awaits.of_map_base (f := (·.runSaveJob .clearSandbox)) saved rfl) ?_ rfl
        exact (UpdateDriveTaskBase.rootHashWork_executeOnSessionThread _ .runNextTask).trans
          counted.symm
    | notApprovedCumulativeUploads | singleApprovalTransaction | approvedCumulativeUploads =>
        exact before.elim
  · exact before.elim
  · obtain rfl := Option.some.inj run
    exact awaits.prepareDownloadMissingFiles (idle rfl)
  · obtain rfl := Option.some.inj run
    exact awaits.modifyFsTreeInSandbox (idle rfl) _
  · obtain rfl := Option.some.inj run
    exact awaits.copyDriveToSandbox (idle rfl)
  · simp at run

theorem AwaitsOneResult.torrentsRemoved (one : task.AwaitsOneResult) {index : Nat}
    {removal : TorrentsRemoved} (found : task.removals[index]? = some removal) :
    (task.base fun base =>
      { base with removals := base.removals.eraseIdx index }.onTorrentsRemoved removal
      ).AwaitsOneResult := by
  obtain ⟨before, interrupted, popped⟩ := one.base.popRemoval found
  cases removal with
  | finishTask =>
      obtain ⟨finished, fewer, stays⟩ := popped.finishTask interrupted
      apply AwaitsResult.whileInterrupted
      · refine one.toAwaitsResult.of_map_base finished ?_
        exact congrArg (fun drive => drive.torrentHandleMap.contains 0)
          (UpdateDriveTaskBase.drive_finishTask _)
      · exact stays
      · exact fewer.trans one.atMost
  | clearSandbox =>
      have cleared := popped.executeOnBackgroundThread
        (show BackgroundJob.IsBeforeRootHash (.save .clearSandbox) from trivial)
      apply AwaitsResult.whileInterrupted
      · exact one.toAwaitsResult.of_map_base cleared rfl
      · exact interrupted
      · exact (UpdateDriveTaskBase.rootHashWork_executeOnBackgroundThread _ _).trans_le one.atMost
  | continueSynchronizing | removeUnusedFiles => exact before.elim

/-- The event runs `myRootHashIsCalculated`. -/
def CalculatesRootHash (task : ModifyDriveTask) : TaskEvent → Prop
  | .runSessionJob => task.sessionJobs.head? = some .myRootHashIsCalculated
  | _ => False

instance (event : TaskEvent) : Decidable (task.CalculatesRootHash event) := by
  unfold CalculatesRootHash
  split <;> infer_instance

theorem AwaitsOneResult.step (one : task.AwaitsOneResult) {event : TaskEvent}
    {after : ModifyDriveTask} (step : modifyDriveSystem.step task event = some after) :
    (¬ task.CalculatesRootHash event ∧ after.AwaitsOneResult) ∨
      (task.CalculatesRootHash event ∧ after.rootHashWork = 0) := by
  cases (handles_of_step step).2 with
  | runSessionJob jobs run =>
      rename_i job rest
      have isHead : task.CalculatesRootHash .runSessionJob ↔ job = .myRootHashIsCalculated := by
        simp only [CalculatesRootHash, jobs, List.head?_cons, Option.some.injEq]
      rw [isHead]
      exact one.runSessionJob jobs run
  | runBackgroundJob jobs run => exact .inl ⟨id, one.runBackgroundJob jobs run⟩
  | torrentsRemoved found => exact .inl ⟨id, one.torrentsRemoved found⟩
  | metadataReceived found totalSize isValid =>
      rename_i handle torrent
      obtain ⟨member, isAdded, notRemoved⟩ := UpdateDriveTaskBase.activeTorrent_eq_some found
      have active : torrent.isActive = true := by
        simp [Torrent.isActive, isAdded, notRemoved]
      exact .inl ⟨id, one.onMetadataReceived member active notRemoved totalSize isValid⟩
  | torrentFinished found =>
      rename_i handle torrent
      obtain ⟨member, isReceived, notRemoved⟩ := UpdateDriveTaskBase.activeTorrent_eq_some found
      have active : torrent.isActive = true := by
        simp [Torrent.isActive, isReceived, notRemoved]
      exact .inl ⟨id, one.torrentFinished member active⟩
  | pieceReceived | setReplicators | setMinReplicatorsNumber =>
      exact .inl ⟨id, one.of_eq rfl rfl rfl rfl rfl rfl⟩
  | modifyOpinionTimerExpired pending => exact absurd pending one.modifyOpinionTimer
  | shareMyOpinionTimerExpired pending => exact absurd pending one.shareMyOpinionTimer
  | opinionReceived anOpinion => exact .inl ⟨id, one.processedModifyOpinion anOpinion⟩
  | approvalTxPublished transaction => exact .inl ⟨id, one.onApprovalTxPublished transaction⟩
  | approvalTxFailed transactionHash => exact .inl ⟨id, one.onApprovalTxFailed transactionHash⟩
  | cancelModify cancelRequest =>
      refine .inl ⟨id, ?_⟩
      unfold shouldCancelModify
      split_ifs
      · exact one
      · exact one.breakTask
      · exact one
  | driveClose =>
      refine .inl ⟨id, ?_⟩
      unfold onDriveClose
      split_ifs
      · exact one
      · exact one.breakTask
  | manualSynchronize =>
      refine .inl ⟨id, ?_⟩
      unfold ModifyDriveTask.manualSynchronize
      split_ifs
      · exact one
      · exact one.breakTask
  | terminate => exact .inl ⟨id, one.terminate⟩
  | chunkInfoReceived | finishStream => exact .inl ⟨id, one⟩

/-! ## The steps after the root hash -/

/-- What adds no work on the sandbox adds none that leads to a root hash. -/
theorem idle_of_adds (after : ModifyDriveTask) (idle : task.rootHashWork = 0)
    (adds : task.AddsNoSandboxWork after.toUpdateDriveTaskBase) : after.rootHashWork = 0 :=
  UpdateDriveTaskBase.rootHashWork_of_addsNoSandboxWork adds idle

theorem idle_breakTask (idle : task.rootHashWork = 0) : task.breakTask.rootHashWork = 0 := by
  have leaves (base : UpdateDriveTaskBase) :
      base.Leaves (base.tryBreakTask task.modifyApproveTxReceived) := base.leaves_tryBreakTask _
  have adds := task.addsNoSandboxWork_breakTorrentDownload leaves
  exact idle_of_adds task.breakTask idle adds

theorem idle_runSessionJob (idle : task.rootHashWork = 0) {job : SessionJob}
    {rest : List SessionJob} {after : ModifyDriveTask} (jobs : task.sessionJobs = job :: rest)
    (run : (task.base fun base => { base with sessionJobs := rest }).runSessionJob job =
      some after) : job.leadsToRootHash = false ∧ after.rootHashWork = 0 := by
  have leadsNot : job.leadsToRootHash = false :=
    (rootHashWork_eq_zero.mp idle).1 job (jobs ▸ List.mem_cons_self)
  have popped : (task.base fun base => { base with sessionJobs := rest }).rootHashWork = 0 := by
    have counted := UpdateDriveTaskBase.rootHashWork_popSessionJob jobs
    rw [leadsNot, idle] at counted
    exact counted.symm
  refine ⟨leadsNot, ?_⟩
  cases job with
  | onCumulativeUploadsUpdated =>
      obtain rfl := Option.some.inj run
      exact idle_of_adds _ popped
        (UpdateDriveTaskBase.leaves_onCumulativeUploadsUpdated _ _).addsNoSandboxWork
  | myOpinionIsCreated =>
      obtain rfl := Option.some.inj run
      exact idle_of_adds _ popped
        (ModifyApprovalTaskBase.leaves_myOpinionIsCreated _).addsNoSandboxWork
  | synchronizationIsCompleted =>
      obtain rfl := Option.some.inj run
      exact idle_of_adds _ popped
        (UpdateDriveTaskBase.leaves_synchronizationIsCompleted _ _).addsNoSandboxWork
  | modifyIsCompleted =>
      obtain rfl := Option.some.inj run
      exact idle_of_adds _ popped (UpdateDriveTaskBase.leaves_modifyIsCompleted _ _).addsNoSandboxWork
  | modifyIsCompletedWithError | downloadMissingFiles | myRootHashIsCalculated
  | downloadNotification => simp [SessionJob.leadsToRootHash] at leadsNot
  | createUnusedFileList | unusedFilesRemoved | startNextChunk | requestMissingChunkInfo
  | runNextTask => simp [ModifyDriveTask.runSessionJob] at run

theorem idle_runBackgroundJob (idle : task.rootHashWork = 0) {job : BackgroundJob}
    {rest : List BackgroundJob} {result : BackgroundResult} {after : ModifyDriveTask}
    (jobs : task.backgroundJobs = job :: rest)
    (run : (task.base fun base => { base with backgroundJobs := rest }).runBackgroundJob job
      result = some after) : after.rootHashWork = 0 := by
  have leadsNot : job.leadsToRootHash = false :=
    (rootHashWork_eq_zero.mp idle).2.1 job (jobs ▸ List.mem_cons_self)
  have popped : (task.base fun base => { base with backgroundJobs := rest }).rootHashWork = 0 := by
    have counted := UpdateDriveTaskBase.rootHashWork_popBackgroundJob jobs
    rw [leadsNot, idle] at counted
    exact counted.symm
  unfold ModifyDriveTask.runBackgroundJob at run
  split at run
  · rename_i job
    obtain rfl := Option.some.inj run
    have other : (BackgroundJob.save job).worksOnSandbox = false := by
      cases job with
      | torrentFile => simp [BackgroundJob.leadsToRootHash] at leadsNot
      | _ => rfl
    exact idle_of_adds _ popped (UpdateDriveTaskBase.leaves_runSaveJob _ other).addsNoSandboxWork
  · obtain rfl := Option.some.inj run
    exact idle_of_adds _ popped
      (ModifyApprovalTaskBase.leaves_continueSynchronizing _ _).addsNoSandboxWork
  · simp [BackgroundJob.leadsToRootHash] at leadsNot
  · simp [BackgroundJob.leadsToRootHash] at leadsNot
  · simp [BackgroundJob.leadsToRootHash] at leadsNot
  · simp at run

theorem idle_torrentsRemoved (idle : task.rootHashWork = 0) (index : Nat)
    (removal : TorrentsRemoved) :
    (task.base fun base =>
      { base with removals := base.removals.eraseIdx index }.onTorrentsRemoved removal
      ).rootHashWork = 0 := by
  cases removal with
  | finishTask =>
      refine idle_of_adds _ idle
        (UpdateDriveTaskBase.AddsNoSandboxWork.trans ?_ (UpdateDriveTaskBase.leaves_finishTask _).addsNoSandboxWork)
      exact .of_eq rfl rfl rfl
  | clearSandbox | continueSynchronizing | removeUnusedFiles =>
      exact (UpdateDriveTaskBase.rootHashWork_executeOnBackgroundThread _ _).trans idle

theorem not_active_of_idle (idle : task.rootHashWork = 0) {torrent : Torrent}
    (member : torrent ∈ task.torrents) (active : torrent.isActive = true) : False := by
  rw [AwaitsResult.noneActive idle torrent member] at active
  exact Bool.noConfusion active

theorem idle_onApprovalTxPublished (idle : task.rootHashWork = 0)
    (transaction : PublishedModificationApprovalTransactionInfo) :
    (task.onApprovalTxPublished transaction).1.rootHashWork = 0 := by
  cases running : task.taskIsInterrupted with
  | true =>
      rw [onApprovalTxPublished_interrupted running]
      exact idle
  | false =>
      by_cases applies : task.Applies transaction
      · cases calculated : task.sandboxCalculated with
        | false =>
            rw [onApprovalTxPublished_waits running applies calculated]
            exact idle
        | true =>
            rw [onApprovalTxPublished_applies running applies calculated]
            exact idle_of_adds _ idle
              (UpdateDriveTaskBase.leaves_startSynchronizingAfter _ _).addsNoSandboxWork
      · rw [onApprovalTxPublished_breaks running applies]
        exact idle_breakTask idle

theorem idle_processedModifyOpinion (idle : task.rootHashWork = 0)
    (anOpinion : ApprovalTransactionInfo) :
    (task.processedModifyOpinion anOpinion).1.rootHashWork = 0 := by
  unfold ModifyDriveTask.processedModifyOpinion
  split_ifs
  · exact idle
  · split
    · split_ifs
      · exact idle_of_adds ((task.storeOpinion anOpinion).approval
          (·.checkOpinionNumberAndStartTimer)) idle
          (ModifyApprovalTaskBase.leaves_checkOpinionNumber
            (task.storeOpinion anOpinion).toModifyApprovalTaskBase).addsNoSandboxWork
      · exact idle
    · exact idle

/-- Once the root hash is calculated, the task does not calculate another one. -/
theorem idle_step (idle : task.rootHashWork = 0) {event : TaskEvent} {after : ModifyDriveTask}
    (step : modifyDriveSystem.step task event = some after) :
    ¬ task.CalculatesRootHash event ∧ after.rootHashWork = 0 := by
  cases (handles_of_step step).2 with
  | runSessionJob jobs run =>
      obtain ⟨leadsNot, idleAfter⟩ := idle_runSessionJob idle jobs run
      refine ⟨?_, idleAfter⟩
      simp only [CalculatesRootHash, jobs, List.head?_cons, Option.some.injEq]
      rintro rfl
      simp [SessionJob.leadsToRootHash] at leadsNot
  | runBackgroundJob jobs run => exact ⟨id, idle_runBackgroundJob idle jobs run⟩
  | torrentsRemoved found => exact ⟨id, idle_torrentsRemoved idle _ _⟩
  | metadataReceived found totalSize isValid =>
      obtain ⟨member, isAdded, notRemoved⟩ := UpdateDriveTaskBase.activeTorrent_eq_some found
      refine (not_active_of_idle idle member ?_).elim
      simp [Torrent.isActive, isAdded, notRemoved]
  | torrentFinished found =>
      obtain ⟨member, isReceived, notRemoved⟩ := UpdateDriveTaskBase.activeTorrent_eq_some found
      refine (not_active_of_idle idle member ?_).elim
      simp [Torrent.isActive, isReceived, notRemoved]
  | pieceReceived | setReplicators | setMinReplicatorsNumber => exact ⟨id, idle⟩
  | modifyOpinionTimerExpired =>
      exact ⟨id, idle_of_adds _ idle (ModifyApprovalTaskBase.leaves_opinionTimerExpired
        { task.toModifyApprovalTaskBase with modifyOpinionTimer := .expired }).addsNoSandboxWork⟩
  | shareMyOpinionTimerExpired =>
      exact ⟨id, idle_of_adds _ idle task.leaves_shareMyOpinionTimerExpired.addsNoSandboxWork⟩
  | opinionReceived anOpinion => exact ⟨id, idle_processedModifyOpinion idle anOpinion⟩
  | approvalTxPublished transaction => exact ⟨id, idle_onApprovalTxPublished idle transaction⟩
  | approvalTxFailed transactionHash =>
      refine ⟨id, ?_⟩
      unfold onApprovalTxFailed
      split_ifs <;> exact idle
  | cancelModify cancelRequest =>
      refine ⟨id, ?_⟩
      unfold shouldCancelModify
      split_ifs
      · exact idle
      · exact idle_breakTask idle
      · exact idle
  | driveClose =>
      refine ⟨id, ?_⟩
      unfold onDriveClose
      split_ifs
      · exact idle
      · exact idle_breakTask idle
  | manualSynchronize =>
      refine ⟨id, ?_⟩
      unfold ModifyDriveTask.manualSynchronize
      split_ifs
      · exact idle
      · exact idle_breakTask idle
  | terminate =>
      refine ⟨id, ?_⟩
      unfold ModifyDriveTask.terminate
      exact idle_breakTask idle
  | chunkInfoReceived | finishStream => exact ⟨id, idle⟩

/-! ## Every run has one result -/

/-- The modification task with the number of sandbox results it has come to. -/
def resultSystem : Transition (ModifyDriveTask × Nat) TaskEvent where
  step state event :=
    (modifyDriveSystem.step state.1 event).map fun task =>
      (task, state.2 + if state.1.CalculatesRootHash event then 1 else 0)

/-- There is one result, calculated or on its way, and at most one if the task has been
    interrupted. No exception or invalid pointer stops the task before, and a list that has
    been received is reported as invalid exactly if it cannot be read. -/
structure SchedulesOneResult (file : ActionListFile) (state : ModifyDriveTask × Nat) : Prop where
  atMost : state.2 + state.1.rootHashWork ≤ 1
  running : state.1.taskIsInterrupted = false → state.2 + state.1.rootHashWork = 1
  fault : state.2 = 0 → state.1.fault = none
  status : state.2 = 0 → state.1.actionListIsReceived = true →
    .myRootHashIsCalculated ∈ state.1.sessionJobs →
    (state.1.status = .invalidActionList ↔ ¬ file.Decodes)

/-- The invariant of the runs with a usable action list. -/
def HasOneResult (state : ModifyDriveTask × Nat) : Prop :=
  (state.2 = 0 ∧ state.1.AwaitsOneResult) ∨ (state.2 = 1 ∧ state.1.rootHashWork = 0)

theorem HasOneResult.schedules {file : ActionListFile} {state : ModifyDriveTask × Nat}
    (decodes : file.Decodes) (has : HasOneResult state) : SchedulesOneResult file state := by
  rcases has with ⟨none, one⟩ | ⟨calculated, idle⟩
  · exact
      { atMost := by rw [none, Nat.zero_add]; exact one.atMost
        running := fun running => by rw [none, Nat.zero_add]; exact one.running running
        fault := fun _ => one.base.fault
        status := fun _ _ _ => by simp [one.base.status, decodes] }
  · exact
      { atMost := by rw [calculated, idle]
        running := fun _ => by rw [calculated, idle]
        fault := fun none => by omega
        status := fun none => by omega }

theorem HasOneResult.step {state after : ModifyDriveTask × Nat} {event : TaskEvent}
    (has : HasOneResult state) (step : resultSystem.step state event = some after) :
    HasOneResult after := by
  obtain ⟨task, stepped, rfl⟩ := Option.map_eq_some_iff.mp step
  rcases has with ⟨none, one⟩ | ⟨calculated, idle⟩
  · rcases one.step stepped with ⟨other, next⟩ | ⟨calculates, idle⟩
    · exact .inl ⟨by simp [none, other], next⟩
    · exact .inr ⟨by simp [none, calculates], idle⟩
  · obtain ⟨other, idleAfter⟩ := idle_step idle stepped
    exact .inr ⟨by simp [calculated, other], idleAfter⟩

theorem start_of_unknown {request : ModificationRequest} {receivedOpinions : ReceivedOpinions}
    {drive : DriveParams} {file : Option ActionListFile}
    (unknown : drive.torrentHandleMap.contains request.clientDataInfoHash = false) :
    start request receivedOpinions drive file =
      (create request receivedOpinions drive file).download .actionList
        request.clientDataInfoHash := by
  simp only [start, run]
  split_ifs with known
  · exact Bool.noConfusion (unknown.symm.trans known)
  · rfl

theorem awaitsOneResult_start (request : ModificationRequest) (receivedOpinions : ReceivedOpinions)
    {drive : DriveParams} {file : ActionListFile}
    (unknown : drive.torrentHandleMap.contains request.clientDataInfoHash = false)
    (usable : file.IsUsable drive.torrentHandleMap) :
    (start request receivedOpinions drive (some file)).AwaitsOneResult := by
  have created : (create request receivedOpinions drive (some file)).AwaitsResult :=
    { base :=
        { fault := rfl
          uncalculated := rfl
          noOpinion := rfl
          status := ModificationStatus.noConfusion
          sessionJobs := nofun
          backgroundJobs := nofun
          removals := nofun
          interrupted := fun removals => absurd rfl removals
          downloading := nofun
          zeroHash := nofun }
      file := ⟨file, rfl, usable⟩
      missed := nofun
      modifyOpinionTimer := nofun
      shareMyOpinionTimer := nofun }
  obtain ⟨awaits, one⟩ := created.download rfl .actionList unknown
  rw [start_of_unknown unknown]
  exact awaits.withOne one

/-! ## The lists that break a run -/

theorem u64Sub_zero (n : Nat) : u64Sub n 0 = u64 n := by
  simp [u64Sub, u64]

theorem withinLimit_zero {torrent : Torrent} (small : torrent.downloadLimit < 2 ^ 63) :
    torrent.withinLimit 0 = true := by
  simp only [Torrent.withinLimit, Nat.zero_le, decide_true, Bool.and_true, Bool.or_eq_true,
    decide_eq_true_eq]
  exact .inr small

def untilActionList (drive : DriveParams) : List TaskEvent :=
  [.metadataReceived drive.nextHandle 0 true, .torrentFinished drive.nextHandle,
    .runBackgroundJob (.fileSystem .done), .runSessionJob]

/-- The task is going to read its action list. -/
structure HasActionList (file : ActionListFile) (torrentHandleMap : TorrentHandleMap)
    (task : ModifyDriveTask) : Prop where
  fault : task.fault = none
  sessionJobs : task.sessionJobs = []
  backgroundJobs : task.backgroundJobs = [.prepareDownloadMissingFiles]
  missed : task.missedFileSet = []
  file : task.actionListFile = some file
  map : task.drive.torrentHandleMap = torrentHandleMap

theorem hasActionList_untilActionList {request : ModificationRequest}
    (receivedOpinions : ReceivedOpinions) {drive : DriveParams} (file : ActionListFile)
    (downloads : u64 request.maxDataSize < 2 ^ 63)
    (unknown : drive.torrentHandleMap.contains request.clientDataInfoHash = false) :
    ∃ task, task.HasActionList file drive.torrentHandleMap ∧
      resultSystem.exec (start request receivedOpinions drive (some file), 0)
        (untilActionList drive) = some (task, 0) := by
  have within : Torrent.withinLimit
      { handle := drive.nextHandle, use := .actionList, infoHash := request.clientDataInfoHash
        downloadLimit := u64Sub request.maxDataSize 0 } 0 = true := by
    apply withinLimit_zero
    rw [u64Sub_zero]
    exact downloads
  rw [start_of_unknown unknown]
  simp [untilActionList, Transition.exec, resultSystem, CalculatesRootHash, modifyDriveSystem,
    handle, ModifyDriveTask.download, create, UpdateDriveTaskBase.download, base, approval,
    ModifyApprovalTaskBase.base, Option.filter_some, UpdateDriveTaskBase.activeTorrent,
    UpdateDriveTaskBase.findTorrent, onMetadataReceived, within, UpdateDriveTaskBase.setTorrent,
    UpdateDriveTaskBase.torrentFinished, UpdateDriveTaskBase.popBackgroundJob,
    UpdateDriveTaskBase.executeOnBackgroundThread, ModifyDriveTask.runBackgroundJob,
    UpdateDriveTaskBase.runSaveJob, UpdateDriveTaskBase.executeOnSessionThread,
    UpdateDriveTaskBase.popSessionJob, ModifyDriveTask.runSessionJob, downloadCompleted,
    actionListDownloaded, addUploadedDataSize]
  constructor <;> rfl

theorem downloadMissingFiles_zero (rest : List Hash256) (missed : task.missedFileSet = 0 :: rest)
    (unknown : task.drive.torrentHandleMap.contains 0 = false) :
    task.downloadMissingFiles = task.base (·.break_ .invalidDereference) := by
  have isUnknown : ¬ task.drive.torrentHandleMap.contains 0 = true := Bool.eq_false_iff.mp unknown
  have selected : selectMissing task.drive.torrentHandleMap task.missedFileSet = none := by
    rw [missed, selectMissing, if_neg isUnknown, if_pos rfl]
  unfold ModifyDriveTask.downloadMissingFiles
  rw [selected]

namespace HasActionList

variable {file : ActionListFile} {torrentHandleMap : TorrentHandleMap}

/-- The background thread has taken its only job. -/
def reading (task : ModifyDriveTask) : ModifyDriveTask :=
  task.base fun base => { base with backgroundJobs := [] }

theorem step_prepare (has : task.HasActionList file torrentHandleMap) :
    resultSystem.step (task, 0) (.runBackgroundJob (.fileSystem .done)) =
      some ((reading task).prepareDownloadMissingFiles, 0) := by
  have stepped := step_runBackgroundJob has.fault has.backgroundJobs (.fileSystem .done)
  simp only [resultSystem, stepped, ModifyDriveTask.runBackgroundJob, Option.map_some,
    CalculatesRootHash]
  rfl

theorem prepare_throws (has : task.HasActionList file torrentHandleMap) {loaded : ActionList}
    {text : String} (isLoaded : file = .undecodable loaded ∨ file = .actions loaded)
    (throws : prepareMissed [] loaded = .error text) :
    (reading task).prepareDownloadMissingFiles.fault = some .uncaughtException := by
  have isFile : (reading task).actionListFile = some file := has.file
  have missed : (reading task).missedFileSet = [] := has.missed
  unfold ModifyDriveTask.prepareDownloadMissingFiles
  rw [isFile]
  rcases isLoaded with rfl | rfl
  · have missedToo : ((reading task).base (·.executeOnSessionThread (.modifyIsCompletedWithError
        "modify drive: invalid 'ActionList'" .invalidActionList))).missedFileSet = [] := missed
    simp only [missedToo, throws]
    rfl
  · simp only [missed, throws]
    rfl

theorem prepare_undecodable {loaded : ActionList}
    (has : task.HasActionList (.undecodable loaded) torrentHandleMap) {missedFileSet : List Hash256}
    (prepared : prepareMissed [] loaded = .ok missedFileSet) :
    2 ≤ (reading task).prepareDownloadMissingFiles.rootHashWork := by
  have isFile : (reading task).actionListFile = some (.undecodable loaded) := has.file
  have missed : ((reading task).base (·.executeOnSessionThread (.modifyIsCompletedWithError
      "modify drive: invalid 'ActionList'" .invalidActionList))).missedFileSet = [] := has.missed
  unfold ModifyDriveTask.prepareDownloadMissingFiles
  rw [isFile]
  simp only [missed, prepared]
  have twice (base : UpdateDriveTaskBase) :
      2 ≤ ((base.executeOnSessionThread (.modifyIsCompletedWithError
        "modify drive: invalid 'ActionList'" .invalidActionList)).executeOnSessionThread
        .downloadMissingFiles).rootHashWork := by
    simp [SessionJob.leadsToRootHash]
  exact twice (reading task).toUpdateDriveTaskBase

theorem prepare_zero {actionList : ActionList}
    (has : task.HasActionList (.actions actionList) torrentHandleMap) {rest : List Hash256}
    (prepared : prepareMissed [] actionList = .ok (0 :: rest))
    (unknown : torrentHandleMap.contains 0 = false) :
    ∃ after, resultSystem.step ((reading task).prepareDownloadMissingFiles, 0) .runSessionJob =
      some (after, 0) ∧ after.fault = some .invalidDereference := by
  have isFile : (reading task).actionListFile = some (.actions actionList) := has.file
  have missed : (reading task).missedFileSet = [] := has.missed
  have isPrepared : (reading task).prepareDownloadMissingFiles =
      { reading task with missedFileSet := 0 :: rest }.base
        (·.executeOnSessionThread .downloadMissingFiles) := by
    unfold ModifyDriveTask.prepareDownloadMissingFiles
    rw [isFile]
    simp only [missed, prepared]
  -- the only job of the session thread looks the zero hash up
  have jobs : (reading task).prepareDownloadMissingFiles.sessionJobs = [.downloadMissingFiles] := by
    rw [isPrepared]
    exact congrArg (· ++ [SessionJob.downloadMissingFiles]) has.sessionJobs
  have fault : (reading task).prepareDownloadMissingFiles.fault = none := by
    rw [isPrepared]
    exact has.fault
  have stepped := step_runSessionJob fault jobs
  have notYet : ¬ (reading task).prepareDownloadMissingFiles.CalculatesRootHash .runSessionJob := by
    simp [CalculatesRootHash, jobs]
  refine ⟨((reading task).prepareDownloadMissingFiles.base fun base =>
    { base with sessionJobs := [] }).downloadMissingFiles, ?_, ?_⟩
  · simp only [resultSystem, stepped, if_neg notYet]
    rfl
  · rw [downloadMissingFiles_zero rest]
    · rfl
    · rw [isPrepared]
      rfl
    · rw [isPrepared]
      exact has.map ▸ unknown

theorem breaks (has : task.HasActionList file torrentHandleMap)
    (unusable : ¬ file.IsUsable torrentHandleMap) :
    ∃ events state, resultSystem.exec (task, 0) events = some state ∧
      ¬ SchedulesOneResult file state := by
  have prepares {state : ModifyDriveTask × Nat} {events : List TaskEvent}
      (later : resultSystem.exec ((reading task).prepareDownloadMissingFiles, 0) events =
        some state) :
      resultSystem.exec (task, 0) (.runBackgroundJob (.fileSystem .done) :: events) = some state :=
    (resultSystem.exec_cons_iff).mpr ⟨_, has.step_prepare, later⟩
  have throws {loaded : ActionList} {text : String}
      (isLoaded : file = .undecodable loaded ∨ file = .actions loaded)
      (error : prepareMissed [] loaded = .error text) :
      ∃ events state, resultSystem.exec (task, 0) events = some state ∧
        ¬ SchedulesOneResult file state := by
    refine ⟨_, _, prepares (resultSystem.exec_nil _), ?_⟩
    intro schedules
    have noFault := schedules.fault rfl
    rw [has.prepare_throws isLoaded error] at noFault
    simp at noFault
  cases file with
  | undecodable loaded =>
      cases prepared : prepareMissed [] loaded with
      | error text => exact throws (.inl rfl) prepared
      | ok missedFileSet =>
          refine ⟨_, _, prepares (resultSystem.exec_nil _), ?_⟩
          intro schedules
          have atMost : 0 + (reading task).prepareDownloadMissingFiles.rootHashWork ≤ 1 :=
            schedules.atMost
          have twice := has.prepare_undecodable prepared
          omega
  | actions actionList =>
      cases prepared : prepareMissed [] actionList with
      | error text => exact throws (.inr rfl) prepared
      | ok missedFileSet =>
          obtain ⟨readable, members, zeroFirst⟩ := prepareMissed_ok prepared
          obtain ⟨action, isAction, notUsable⟩ : ∃ action ∈ actionList,
              ¬ action.IsUsable torrentHandleMap := by
            simpa [ActionListFile.IsUsable] using unusable
          -- the only reason left is the zero hash
          have isZero : action.uploadHash = some (.ok 0) := by
            by_contra other
            exact notUsable (Action.isUsable_of_readable (readable action isAction)
              fun isZero => absurd isZero other)
          have unknown : torrentHandleMap.contains 0 = false := by
            by_contra known
            exact notUsable (Action.isUsable_of_readable (readable action isAction)
              fun _ => by simpa using known)
          obtain ⟨rest, rfl⟩ := zeroFirst (fun none => absurd none List.not_mem_nil)
            ((members 0).mpr (.inr ⟨action, isAction, isZero⟩))
          obtain ⟨after, stepped, broken⟩ := has.prepare_zero prepared unknown
          have run : resultSystem.exec ((reading task).prepareDownloadMissingFiles, 0)
              [.runSessionJob] = some (after, 0) :=
            (resultSystem.exec_cons_iff).mpr ⟨_, stepped, resultSystem.exec_nil _⟩
          refine ⟨_, _, prepares run, ?_⟩
          intro schedules
          have noFault : after.fault = none := schedules.fault rfl
          rw [broken] at noFault
          simp at noFault

end HasActionList

theorem start_of_known {request : ModificationRequest} (receivedOpinions : ReceivedOpinions)
    {drive : DriveParams} (file : Option ActionListFile)
    (known : drive.torrentHandleMap.contains request.clientDataInfoHash = true) :
    (start request receivedOpinions drive file).rootHashWork = 2 := by
  simp only [start, run]
  split_ifs with isKnown
  · simp [UpdateDriveTaskBase.rootHashWork, ModifyDriveTask.download, UpdateDriveTaskBase.download,
      base, approval, ModifyApprovalTaskBase.base, create,
      UpdateDriveTaskBase.executeOnBackgroundThread, BackgroundJob.leadsToRootHash,
      Torrent.isActive]
  · exact absurd known isKnown

/-- Every run that downloads an action list has exactly one result, without an exception or an
    invalid pointer, if and only if the hash of the list has no entry among the torrents and the
    list can be taken over. -/
theorem schedules_one_result (request : ModificationRequest) (receivedOpinions : ReceivedOpinions)
    (drive : DriveParams) (file : ActionListFile)
    (downloads : u64 request.maxDataSize < 2 ^ 63) :
    (∀ events state,
        resultSystem.exec (start request receivedOpinions drive (some file), 0) events =
          some state → SchedulesOneResult file state) ↔
      drive.torrentHandleMap.contains request.clientDataInfoHash = false ∧
        file.IsUsable drive.torrentHandleMap := by
  constructor
  · intro all
    have unknown : drive.torrentHandleMap.contains request.clientDataInfoHash = false := by
      by_contra known
      have twice := start_of_known receivedOpinions (some file)
        (by simpa using known)
      have atMost := (all [] _ (resultSystem.exec_nil _)).atMost
      simp [twice] at atMost
    refine ⟨unknown, ?_⟩
    by_contra unusable
    obtain ⟨task, has, received⟩ :=
      hasActionList_untilActionList receivedOpinions file downloads unknown
    obtain ⟨events, state, run, broken⟩ := has.breaks unusable
    exact broken (all _ state ((resultSystem.exec_append).mpr ⟨_, received, run⟩))
  · rintro ⟨unknown, usable⟩ events state run
    have one : HasOneResult (start request receivedOpinions drive (some file), 0) :=
      .inl ⟨rfl, awaitsOneResult_start request receivedOpinions unknown usable⟩
    have has := Transition.invariant_of_step (fun _ _ _ has step => HasOneResult.step has step)
      one run
    exact has.schedules usable.decodes

/-- A list with one upload whose hash cannot be read. -/
def malformedList : ActionListFile := .actions [{ actionId := .upload, param1 := "photo.jpg" }]

def uploadList : ActionListFile :=
  .actions [{ actionId := .upload, param1 := hashToFileName 30, param2 := "photo.jpg" },
    { actionId := .upload, param1 := hashToFileName 0, param2 := "empty" }]

def zeroHashDrive : DriveParams :=
  { sampleDrive with torrentHandleMap := sampleDrive.torrentHandleMap.insert 0 {} }

theorem schedules_one_result_of_uploads :
    u64 sampleRequest.maxDataSize < 2 ^ 63 ∧ ∀ events state,
      resultSystem.exec (start sampleRequest ∅ zeroHashDrive (some uploadList), 0) events =
        some state → SchedulesOneResult uploadList state :=
  ⟨by decide +kernel, (schedules_one_result sampleRequest ∅ zeroHashDrive uploadList
    (by decide +kernel)).mpr (by decide +kernel)⟩

/-- The exception of a malformed hash leaves the background thread. -/
theorem malformed_hash_is_thrown :
    ¬ ∀ events state,
      resultSystem.exec (start sampleRequest ∅ sampleDrive (some malformedList), 0) events =
        some state → SchedulesOneResult malformedList state := by
  intro all
  have reached : resultSystem.Reaches (fun state => state.2 = 0 ∧ state.1.fault.isSome = true)
      (start sampleRequest ∅ sampleDrive (some malformedList), 0)
      [.metadataReceived 0 5 true, .torrentFinished 0, .runBackgroundJob (.fileSystem .done),
        .runSessionJob, .runBackgroundJob (.fileSystem .done)] := by
    decide +kernel
  obtain ⟨state, run, none, broken⟩ := reached
  rw [(all _ state run).fault none] at broken
  simp at broken

end ModifyDriveTask

end SiriusDrive
