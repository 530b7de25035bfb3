import SiriusDrive.StreamTask.Downloads
import SiriusDrive.StreamTask.Steps

/-! # The checks of a stream

What the steps of a stream task do to its downloads: a check that passes runs
`completeStreamFinishing`, and every other step is one of those of `StreamDownloads`.
-/

namespace SiriusDrive

/-- The background thread checks with this event whether a stream is finished: with the job itself,
    or with the finish info it has parsed. -/
def TaskEvent.checksStream : TaskEvent → BackgroundJob → Bool
  | .runBackgroundJob (.finishInfo _ complete _), .parseFinishInfoFile => complete
  | .runBackgroundJob (.sandbox _), .checkFinishCondition => true
  | .runBackgroundJob .noStreamFolder, .checkFinishCondition => true
  | _, _ => false

/-- What the stream makes of the fs tree, if its folder is found. -/
def TaskEvent.streamSandbox? : TaskEvent → Option SandboxResult
  | .runBackgroundJob (.finishInfo _ _ result) => result
  | .runBackgroundJob (.sandbox result) => some result
  | _ => none

def TaskEvent.runsSessionJob : TaskEvent → Bool
  | .runSessionJob => true
  | _ => false

namespace StreamTask

variable (task : StreamTask)

def checkedFinishInfo : TaskEvent → List FinishStreamChunkInfo
  | .runBackgroundJob (.finishInfo loaded _ _) => loaded
  | _ => task.finishInfo

/-- `checkFinishCondition` gets as far as `completeStreamFinishing`. -/
def PassesCheck : Prop :=
  task.finishInfo.length ≠ 0 ∧ task.chunkInfoList.length = task.finishInfo.length ∧
    task.emptyCells = [] ∧ task.allChunksReceived = true

instance : Decidable task.PassesCheck := inferInstanceAs (Decidable (_ ∧ _ ∧ _ ∧ _))

/-- The event makes the task run `completeStreamFinishing`. -/
def FinishesStream (event : TaskEvent) : Prop :=
  task.fault = none ∧ task.backgroundJobs.head?.any (event.checksStream ·) = true ∧
    { task with finishInfo := task.checkedFinishInfo event }.PassesCheck

instance (event : TaskEvent) : Decidable (task.FinishesStream event) :=
  inferInstanceAs (Decidable (_ ∧ _ ∧ _))

/-- What `completeStreamFinishing` makes of the task. -/
def finishStream (result : Option SandboxResult) : StreamTask :=
  match result with
  | some result => task.completeStreamFinishing result
  | none => task.base fun base => { base with sandboxFsTree := some base.drive.fsTree }

/-- The cell `tryDownloadNextChunk` comes to next. -/
def nextChunkInfo : Option ChunkInfo :=
  task.chunkInfoList[task.downloadingChunkInfo.elim 0 (· + 1)]?.join

def StartsChunk (event : TaskEvent) : Prop :=
  event.runsSessionJob = true ∧ task.sessionJobs.head? = some .startNextChunk ∧
    task.downloadingLtHandle = none ∧
      task.nextChunkInfo.any (fun chunkInfo =>
        !task.drive.torrentHandleMap.contains chunkInfo.chunkInfoHash) = true

instance (event : TaskEvent) : Decidable (task.StartsChunk event) :=
  inferInstanceAs (Decidable (_ ∧ _ ∧ _ ∧ _))

/-- The downloads of a task, as far as the end of its stream depends on them. -/
def streamDownloads : StreamDownloads where
  toTaskDownloads := task.taskDownloads
  cells := task.chunkInfoList.length
  finishInfoHash := task.finishInfoHash
  finishInfo := task.finishInfo

theorem streamDownloads_base {f : UpdateDriveTaskBase → UpdateDriveTaskBase}
    (same : (f task.toUpdateDriveTaskBase).taskDownloads = task.taskDownloads) :
    (task.base f).streamDownloads = task.streamDownloads :=
  congrArg (fun base : TaskDownloads => { task.streamDownloads with toTaskDownloads := base }) same

theorem streamDownloads_sessionJob {job : SessionJob} (silent : job.notified? = none) :
    (task.base (·.executeOnSessionThread job)).streamDownloads = task.streamDownloads :=
  task.streamDownloads_base (task.taskDownloads_executeOnSessionThread silent)

theorem streamDownloads_checkJob {job : BackgroundJob} (checks : job.checksFinish = true)
    (noSave : job.saved? = none) :
    (task.base (·.executeOnBackgroundThread job)).streamDownloads =
      { task.streamDownloads with checks := task.streamDownloads.checks ++ [job] } := by
  simp [streamDownloads, UpdateDriveTaskBase.taskDownloads, base, approval,
    ModifyApprovalTaskBase.base, UpdateDriveTaskBase.executeOnBackgroundThread, checks, noSave]

/-! ## The check -/

variable {task}

theorem checkFinishCondition_of_passes (passes : task.PassesCheck)
    (result : Option SandboxResult) :
    task.checkFinishCondition result = task.finishStream result := by
  obtain ⟨nonempty, sameLength, noEmptyCell, received⟩ := passes
  unfold checkFinishCondition
  rw [if_neg nonempty, if_neg (not_not_intro sameLength), if_neg (not_not_intro noEmptyCell),
    if_pos received]
  rfl

theorem streamDownloads_requestMissing (indices : List Nat) :
    (indices.foldl requestMissingChunkInfo task).streamDownloads = task.streamDownloads := by
  induction indices generalizing task with
  | nil => rfl
  | cons index indices ih => exact ih

theorem streamDownloads_checkFinishCondition (other : ¬ task.PassesCheck)
    (result : Option SandboxResult) :
    (task.checkFinishCondition result).streamDownloads = task.streamDownloads := by
  unfold checkFinishCondition
  split
  · rfl
  · rename_i nonempty
    split
    · rfl
    · rename_i sameLength
      split
      · exact streamDownloads_requestMissing _
      · rename_i noEmptyCell
        split
        · rename_i received
          exact absurd ⟨nonempty, not_not.mp sameLength, not_not.mp noEmptyCell, received⟩ other
        · rfl

theorem PassesCheck.recorded (passes : task.PassesCheck) {info : FinishStreamChunkInfo}
    (member : info ∈ task.finishInfo) :
    task.drive.torrentHandleMap.contains info.chunkInfoHash = true := by
  obtain ⟨_, sameLength, _, received⟩ := passes
  obtain ⟨index, isIndex, rfl⟩ := List.mem_iff_getElem.mp member
  have inZip : (task.chunkInfoList[index], task.finishInfo[index]) ∈
      task.chunkInfoList.zip task.finishInfo := by
    rw [List.mem_iff_getElem]
    exact ⟨index, by simp [sameLength, isIndex], by simp⟩
  have isReceived := List.all_eq_true.mp received _ inZip
  cases cell : task.chunkInfoList[index] with
  | none => simp [cell] at isReceived
  | some chunkInfo =>
      simp only [cell, Bool.and_eq_true, decide_eq_true_eq] at isReceived
      rw [← isReceived.2]
      exact isReceived.1

theorem continueFinishStream_of_passes (passes : task.PassesCheck)
    (result : Option SandboxResult) :
    task.continueFinishStream result = task.finishStream result := by
  have nonempty : task.finishInfo.isEmpty = false := by
    cases isList : task.finishInfo with
    | nil => exact absurd (by simp [isList]) passes.1
    | cons => rfl
  have allThere : task.finishInfo.find? (fun info =>
      !task.drive.torrentHandleMap.contains info.chunkInfoHash) = none := by
    rw [List.find?_eq_none]
    intro info member
    simp [passes.recorded member]
  unfold continueFinishStream
  rw [if_neg (by simp [nonempty])]
  simp only [allThere]
  exact checkFinishCondition_of_passes passes result

theorem streamDownloads_continueFinishStream (other : ¬ task.PassesCheck)
    (result : Option SandboxResult) :
    (task.continueFinishStream result).streamDownloads = task.streamDownloads := by
  unfold continueFinishStream
  split
  · rfl
  · split
    · exact task.streamDownloads_sessionJob rfl
    · exact streamDownloads_checkFinishCondition other result

theorem checksStream_spec {event : TaskEvent} {job : BackgroundJob}
    (checks : event.checksStream job = true) :
    (job = .parseFinishInfoFile ∧ ∃ loaded result,
      event = .runBackgroundJob (.finishInfo loaded true result)) ∨
    (job = .checkFinishCondition ∧ ((∃ result, event = .runBackgroundJob (.sandbox result)) ∨
      event = .runBackgroundJob .noStreamFolder)) := by
  unfold TaskEvent.checksStream at checks
  split at checks
  · subst checks
    exact .inl ⟨rfl, _, _, rfl⟩
  · exact .inr ⟨rfl, .inl ⟨_, rfl⟩⟩
  · exact .inr ⟨rfl, .inr rfl⟩
  · cases checks

theorem step_of_finishesStream {event : TaskEvent} (finishes : task.FinishesStream event) :
    ∃ job rest, task.backgroundJobs = job :: rest ∧ job.checksFinish = true ∧
      (job = .parseFinishInfoFile ∨ task.checkedFinishInfo event = task.finishInfo) ∧
      streamSystem.step task event = some (({ task with
        finishInfo := task.checkedFinishInfo event }.base fun base =>
          { base with backgroundJobs := rest }).finishStream event.streamSandbox?) := by
  obtain ⟨running, isFirst, passes⟩ := finishes
  have enabled : streamSystem.step task event = task.handle event := by
    simp only [streamSystem]
    rw [running]
    rfl
  rw [enabled]
  cases jobs : task.backgroundJobs with
  | nil => simp [jobs] at isFirst
  | cons job rest =>
      rw [jobs] at isFirst
      have pop : task.popBackgroundJob =
          some (job, { task.toUpdateDriveTaskBase with backgroundJobs := rest }) := by
        simp only [UpdateDriveTaskBase.popBackgroundJob, jobs]
      refine ⟨job, rest, rfl, ?_⟩
      rcases checksStream_spec isFirst with
        ⟨rfl, loaded, result, rfl⟩ | ⟨rfl, ⟨result, rfl⟩ | rfl⟩
      · refine ⟨rfl, .inl rfl, ?_⟩
        have complete := @continueFinishStream_of_passes ({ task with
          finishInfo := loaded }.base fun base => { base with backgroundJobs := rest }) passes result
        simp only [handle, pop]
        exact congrArg some complete
      · refine ⟨rfl, .inr rfl, ?_⟩
        have complete := @checkFinishCondition_of_passes (task.base fun base =>
          { base with backgroundJobs := rest }) passes (some result)
        simp only [handle, pop]
        exact congrArg some complete
      · refine ⟨rfl, .inr rfl, ?_⟩
        have complete := @checkFinishCondition_of_passes (task.base fun base =>
          { base with backgroundJobs := rest }) passes none
        simp only [handle, pop]
        exact congrArg some complete

/-- What `completeStreamFinishing` does to the downloads: there is a sandbox. -/
theorem streamDownloads_finishStream (result : Option SandboxResult) :
    (task.finishStream result).streamDownloads = { task.streamDownloads with hasSandbox := true } := by
  cases result with
  | none => rfl
  | some result =>
      unfold finishStream completeStreamFinishing
      simp only
      split
      · rfl
      · exact streamDownloads_sessionJob _ rfl

theorem passes_of_step {event : TaskEvent} {after : StreamTask}
    (step : streamSystem.step task event = some after) (finishes : task.FinishesStream event) :
    task.streamDownloads.Passes (task.checkedFinishInfo event) after.streamDownloads := by
  obtain ⟨job, rest, jobs, checks, isKnown, finishing⟩ := step_of_finishesStream finishes
  obtain rfl := Option.some.inj (finishing.symm.trans step)
  have isFirst : task.streamDownloads.checks = job :: rest.filter (·.checksFinish) := by
    simp [streamDownloads, UpdateDriveTaskBase.taskDownloads, jobs, checks]
  have noSave : job.saved? = none := by
    cases job with
    | save => cases checks
    | _ => rfl
  have popped : (({ task with
      finishInfo := task.checkedFinishInfo event }.base fun base =>
        { base with backgroundJobs := rest }).finishStream event.streamSandbox?).streamDownloads =
      { task.streamDownloads with
        checks := rest.filter (·.checksFinish)
        finishInfo := task.checkedFinishInfo event
        hasSandbox := true } := by
    rw [streamDownloads_finishStream]
    simp [streamDownloads, UpdateDriveTaskBase.taskDownloads, jobs, noSave, base, approval,
      ModifyApprovalTaskBase.base]
  rw [popped]
  have passes := finishes.2.2
  refine .intro job _ isFirst isKnown ?_ passes.2.1 ?_
  · intro isEmpty
    apply passes.1
    simp [isEmpty]
  · intro info member
    exact passes.recorded member

/-! ## The other steps -/

open StreamDownloads (Moves)

theorem moves_of_eq {after : StreamTask} (same : after.streamDownloads = task.streamDownloads) :
    Moves task.streamDownloads after.streamDownloads := by
  rw [same]
  exact .settles (.refl _)

theorem moves_base {f : UpdateDriveTaskBase → UpdateDriveTaskBase}
    (settles : task.taskDownloads.Settles (f task.toUpdateDriveTaskBase).taskDownloads) :
    Moves task.streamDownloads (task.base f).streamDownloads :=
  .settles settles

theorem moves_approval {f : ModifyApprovalTaskBase → ModifyApprovalTaskBase}
    (settles : task.taskDownloads.Settles (f task.toModifyApprovalTaskBase).taskDownloads) :
    Moves task.streamDownloads (task.approval f).streamDownloads :=
  .settles settles

theorem moves_breakTask : Moves task.streamDownloads task.breakTask.streamDownloads :=
  moves_base (task.settles_breakTorrentDownload _)

theorem moves_interrupt :
    Moves task.streamDownloads
      (if task.taskIsInterrupted then task else task.breakTask).streamDownloads := by
  split
  · exact moves_of_eq rfl
  · exact moves_breakTask

theorem streamDownloads_tryDownloadNextChunk :
    task.tryDownloadNextChunk.streamDownloads = task.streamDownloads := by
  unfold tryDownloadNextChunk
  split
  · rfl
  · exact task.streamDownloads_sessionJob rfl

theorem length_storeChunkInfo (chunkInfo : ChunkInfo) :
    task.chunkInfoList.length ≤ (task.storeChunkInfo chunkInfo).chunkInfoList.length := by
  unfold storeChunkInfo
  split
  · simp
  · simp only [List.length_append, List.length_replicate, List.length_singleton]
    omega

theorem moves_acceptChunkInfoMessage (chunkInfo : ChunkInfo) (isVerified : Bool) :
    Moves task.streamDownloads
      (task.acceptChunkInfoMessage chunkInfo isVerified).streamDownloads := by
  unfold acceptChunkInfoMessage
  split
  · exact moves_of_eq rfl
  · split
    · exact moves_of_eq rfl
    · rw [streamDownloads_tryDownloadNextChunk]
      have stored : (task.storeChunkInfo chunkInfo).streamDownloads = { task.streamDownloads with
          cells := (task.storeChunkInfo chunkInfo).chunkInfoList.length } := by
        unfold storeChunkInfo
        split <;> rfl
      rw [stored]
      exact .hears _ (length_storeChunkInfo chunkInfo)

theorem recorded_insert (map : TorrentHandleMap) (hash : InfoHash) (info : UseTorrentInfo) :
    (fun other => (map.insert hash info).contains other) =
      fun other => other == hash || map.contains other := by
  funext other
  rw [Std.TreeMap.contains_eq_isSome_getElem?, Std.TreeMap.getElem?_insert_eq,
    Std.TreeMap.contains_eq_isSome_getElem?]
  split
  · rename_i same
    simp [same]
  · rename_i apart
    simp [apart]

theorem recorded_erase (map : TorrentHandleMap) (hash : InfoHash) :
    (fun other => (map.erase hash).contains other) =
      fun other => other != hash && map.contains other := by
  funext other
  rw [Std.TreeMap.contains_eq_isSome_getElem?, Std.TreeMap.getElem?_erase_eq,
    Std.TreeMap.contains_eq_isSome_getElem?]
  split
  · rename_i same
    simp [same]
  · rename_i apart
    simp [apart]

theorem moves_downloadChunk {chunkInfo : ChunkInfo} (idle : task.downloadingLtHandle = none)
    (mayStart : task.drive.torrentHandleMap.contains chunkInfo.chunkInfoHash = false →
      task.streamDownloads.hasSandbox = true →
        task.finishInfo.length < task.chunkInfoList.length) :
    Moves task.streamDownloads (task.downloadChunk chunkInfo).streamDownloads := by
  unfold downloadChunk
  split
  · exact moves_of_eq streamDownloads_tryDownloadNextChunk
  · rename_i isNew
    have starts := @Moves.startsChunk task.streamDownloads chunkInfo.chunkInfoHash idle
      (mayStart (Bool.eq_false_iff.mpr isNew))
    have recorded := recorded_insert task.drive.torrentHandleMap chunkInfo.chunkInfoHash
      { ltHandle := some task.drive.nextHandle, isUsed := false }
    unfold StreamDownloads.start at starts
    simp only [streamDownloads, UpdateDriveTaskBase.taskDownloads] at starts
    rw [← recorded] at starts
    exact starts

/-- The job starts the download of the next cell, if its chunk is new. -/
theorem moves_startNextChunk
    (mayStart : task.downloadingLtHandle = none → ∀ chunkInfo, task.nextChunkInfo = some chunkInfo →
      task.drive.torrentHandleMap.contains chunkInfo.chunkInfoHash = false →
        task.streamDownloads.hasSandbox = true →
          task.finishInfo.length < task.chunkInfoList.length) :
    Moves task.streamDownloads task.startNextChunk.streamDownloads := by
  unfold startNextChunk
  split
  · exact moves_of_eq rfl
  · rename_i isIdle
    have idle : task.downloadingLtHandle = none := by simpa using isIdle
    split
    · rename_i unset
      split
      · exact moves_of_eq rfl
      · exact moves_of_eq rfl
      · rename_i chunkInfo _ isList
        have isNext : task.nextChunkInfo = some chunkInfo := by simp [nextChunkInfo, unset, isList]
        exact @moves_downloadChunk { task with downloadingChunkInfo := some 0 } chunkInfo idle
          (mayStart idle chunkInfo isNext)
    · rename_i index isIndex
      split
      · exact moves_of_eq rfl
      · exact moves_of_eq rfl
      · rename_i chunkInfo isCell
        have isNext : task.nextChunkInfo = some chunkInfo := by simp [nextChunkInfo, isIndex, isCell]
        exact @moves_downloadChunk { task with downloadingChunkInfo := some (index + 1) } chunkInfo idle
          (mayStart idle chunkInfo isNext)

theorem streamDownloads_chunkDownloaded : task.chunkDownloaded.streamDownloads =
    { task.streamDownloads with
      downloading := none
      checks := task.streamDownloads.checks ++
        if task.finishInfoHash.isSome then [.checkFinishCondition] else [] } := by
  have tried : (task.base fun base =>
      { base with downloadingLtHandle := none }).tryDownloadNextChunk.streamDownloads =
        { task.streamDownloads with downloading := none } :=
    streamDownloads_tryDownloadNextChunk
  have sameHash := congrArg (·.finishInfoHash) tried
  unfold chunkDownloaded
  simp only
  split
  · rename_i asked
    have isAsked : task.finishInfoHash.isSome = true :=
      (congrArg Option.isSome sameHash).symm.trans asked
    rw [streamDownloads_checkJob _ rfl rfl, tried, if_pos isAsked]
  · rename_i unasked
    have isUnasked : ¬ task.finishInfoHash.isSome = true :=
      fun asked => unasked ((congrArg Option.isSome sameHash).trans asked)
    rw [tried, if_neg isUnasked, List.append_nil]

theorem streamDownloads_fail (hash : InfoHash) :
    (task.base fun base =>
      { base with
        drive := { base.drive with
          torrentHandleMap := base.drive.torrentHandleMap.erase hash } }).streamDownloads =
    { task.streamDownloads with
      recorded := fun other => other != hash && task.streamDownloads.recorded other } := by
  have recorded := recorded_erase task.drive.torrentHandleMap hash
  exact congrArg (fun recorded => { task.streamDownloads with recorded }) recorded

theorem moves_onMetadataReceived {torrent : Torrent} (member : torrent ∈ task.torrents)
    (isAdded : torrent.state = .added) (totalSize : Nat) (isValid : Bool) :
    Moves task.streamDownloads
      (task.onMetadataReceived torrent totalSize isValid).streamDownloads := by
  unfold onMetadataReceived
  split
  · exact .receivesMetadata torrent member isAdded totalSize
  · unfold downloadFailed
    simp only
    split
    · rename_i isFinishInfo
      rw [streamDownloads_fail]
      exact .failsFinishInfo torrent member isAdded (by simp [Torrent.isChunk, isFinishInfo])
    · rename_i isChunk
      rw [streamDownloads_tryDownloadNextChunk]
      have fails := @Moves.failsChunk task.streamDownloads torrent member isAdded
        (by simpa [Torrent.isChunk] using isChunk)
      have recorded := recorded_erase task.drive.torrentHandleMap torrent.infoHash
      simp only [streamDownloads, UpdateDriveTaskBase.taskDownloads] at fails
      rw [← recorded] at fails
      exact fails

theorem moves_acceptFinishStreamTx (finishStream : StreamFinishRequest) :
    Moves task.streamDownloads (task.acceptFinishStreamTx finishStream).streamDownloads := by
  unfold acceptFinishStreamTx
  split
  · exact moves_of_eq rfl
  · rename_i notAsked
    have first : task.finishInfoHash = none := by simpa using notAsked
    split
    · exact moves_of_eq rfl
    · simp only
      split
      · rw [streamDownloads_checkJob _ rfl rfl]
        exact .parsesRecorded finishStream.finishDataInfoHash first
      · have starts := @Moves.startsFinishInfo task.streamDownloads
          finishStream.finishDataInfoHash first
        have recorded := recorded_insert task.drive.torrentHandleMap
          finishStream.finishDataInfoHash { ltHandle := some task.drive.nextHandle, isUsed := false }
        unfold StreamDownloads.start at starts
        simp only [streamDownloads, UpdateDriveTaskBase.taskDownloads] at starts
        rw [← recorded] at starts
        exact starts

section SessionJobs

variable {job : SessionJob} {rest : List SessionJob}

theorem streamDownloads_popSessionJob (jobs : task.sessionJobs = job :: rest)
    (silent : job.notified? = none) :
    (task.base fun base => { base with sessionJobs := rest }).streamDownloads =
      task.streamDownloads := by
  simp [streamDownloads, UpdateDriveTaskBase.taskDownloads, base, approval,
    ModifyApprovalTaskBase.base, jobs, silent]

theorem moves_downloadNotification {handle : LtHandle} {torrent : Torrent}
    (jobs : task.sessionJobs = .downloadNotification handle :: rest)
    (found : task.findTorrent handle = some torrent) :
    Moves task.streamDownloads ((task.base fun base =>
      { base with sessionJobs := rest }).downloadCompleted torrent).streamDownloads := by
  have member : torrent ∈ task.torrents := List.mem_of_find?_eq_some found
  have isHandle : torrent.handle = handle := by simpa using List.find?_some found
  have isFirst : task.streamDownloads.notifications =
      torrent.handle :: rest.filterMap (·.notified?) := by
    simp [streamDownloads, UpdateDriveTaskBase.taskDownloads, jobs, SessionJob.notified?, isHandle]
  unfold downloadCompleted
  split
  · rename_i isFinishInfo
    rw [streamDownloads_checkJob _ rfl rfl]
    exact .notifiesFinishInfo torrent _ member isFirst (by simp [Torrent.isChunk, isFinishInfo])
  · rename_i isChunk
    rw [streamDownloads_chunkDownloaded]
    exact .notifiesChunk torrent _ member isFirst (by simpa [Torrent.isChunk] using isChunk)

theorem moves_runSessionJob {after : StreamTask} (jobs : task.sessionJobs = job :: rest)
    (run : (task.base fun base => { base with sessionJobs := rest }).runSessionJob job = some after)
    (mayStart : task.StartsChunk .runSessionJob → task.streamDownloads.hasSandbox = true →
      task.finishInfo.length < task.chunkInfoList.length) :
    Moves task.streamDownloads after.streamDownloads := by
  cases job with
  | downloadNotification handle =>
      simp only [runSessionJob] at run
      split at run
      · rename_i torrent found
        obtain rfl := Option.some.inj run
        exact moves_downloadNotification jobs found
      · cases run
  | startNextChunk =>
      obtain rfl := Option.some.inj run
      rw [← streamDownloads_popSessionJob jobs rfl]
      apply moves_startNextChunk
      intro idle chunkInfo isNext isNew hasSandbox
      have isNextChunk : task.nextChunkInfo = some chunkInfo := isNext
      have isNewChunk : task.drive.torrentHandleMap.contains chunkInfo.chunkInfoHash = false := isNew
      apply mayStart _ hasSandbox
      exact ⟨rfl, by rw [jobs, List.head?_cons], idle, by simp [isNextChunk, isNewChunk]⟩
  | requestMissingChunkInfo chunkIndex =>
      obtain rfl := Option.some.inj run
      exact moves_of_eq (streamDownloads_popSessionJob jobs rfl)
  | myRootHashIsCalculated =>
      obtain rfl := Option.some.inj run
      rw [← streamDownloads_popSessionJob jobs rfl]
      exact moves_base (UpdateDriveTaskBase.settles_myRootHashIsCalculated _ _ _)
  | onCumulativeUploadsUpdated =>
      obtain rfl := Option.some.inj run
      rw [← streamDownloads_popSessionJob jobs rfl]
      exact moves_base (UpdateDriveTaskBase.settles_onCumulativeUploadsUpdated _ _)
  | myOpinionIsCreated =>
      obtain rfl := Option.some.inj run
      rw [← streamDownloads_popSessionJob jobs rfl]
      exact moves_approval (ModifyApprovalTaskBase.settles_myOpinionIsCreated _)
  | synchronizationIsCompleted =>
      obtain rfl := Option.some.inj run
      rw [← streamDownloads_popSessionJob jobs rfl]
      exact moves_base (UpdateDriveTaskBase.settles_synchronizationIsCompleted _ _)
  | modifyIsCompleted =>
      obtain rfl := Option.some.inj run
      rw [← streamDownloads_popSessionJob jobs rfl]
      exact moves_base (UpdateDriveTaskBase.settles_modifyIsCompleted _ _)
  | modifyIsCompletedWithError | downloadMissingFiles | createUnusedFileList | unusedFilesRemoved
  | runNextTask => cases run

end SessionJobs

section BackgroundJobs

variable {job : BackgroundJob} {rest : List BackgroundJob}

theorem streamDownloads_popBackgroundJob (jobs : task.backgroundJobs = job :: rest)
    (noSave : job.saved? = none) (noCheck : job.checksFinish = false) :
    (task.base fun base => { base with backgroundJobs := rest }).streamDownloads =
      task.streamDownloads := by
  simp [streamDownloads, UpdateDriveTaskBase.taskDownloads, base, approval,
    ModifyApprovalTaskBase.base, jobs, noSave, noCheck]

theorem streamDownloads_popCheck (jobs : task.backgroundJobs = job :: rest)
    (noSave : job.saved? = none) :
    (task.base fun base => { base with backgroundJobs := rest }).streamDownloads =
      { task.streamDownloads with checks := rest.filter (·.checksFinish) } := by
  simp [streamDownloads, UpdateDriveTaskBase.taskDownloads, base, approval,
    ModifyApprovalTaskBase.base, jobs, noSave]

theorem checks_of_jobs (jobs : task.backgroundJobs = job :: rest)
    (checks : job.checksFinish = true) :
    task.streamDownloads.checks = job :: rest.filter (·.checksFinish) := by
  simp [streamDownloads, UpdateDriveTaskBase.taskDownloads, jobs, checks]

theorem moves_runSaveJob {saveJob : SaveJob} (jobs : task.backgroundJobs = .save saveJob :: rest) :
    Moves task.streamDownloads ((task.base fun base =>
      { base with backgroundJobs := rest }).base (·.runSaveJob saveJob)).streamDownloads := by
  cases saveJob with
  | torrentFile handle =>
      have isFirst : task.streamDownloads.saves = handle :: rest.filterMap (·.saved?) := by
        simp [streamDownloads, UpdateDriveTaskBase.taskDownloads, jobs, BackgroundJob.saved?]
      have saves := Moves.saves handle _ isFirst
      have reported : ((task.base fun base =>
          { base with backgroundJobs := rest }).base (·.runSaveJob (.torrentFile handle))).streamDownloads =
          { task.streamDownloads with
            saves := rest.filterMap (·.saved?)
            notifications := task.streamDownloads.notifications ++ [handle] } := by
        simp [streamDownloads, UpdateDriveTaskBase.taskDownloads, base, approval,
          ModifyApprovalTaskBase.base, jobs, BackgroundJob.checksFinish,
          UpdateDriveTaskBase.runSaveJob, UpdateDriveTaskBase.executeOnSessionThread,
          SessionJob.notified?]
      rw [reported]
      exact saves
  | notApprovedCumulativeUploads | singleApprovalTransaction | approvedCumulativeUploads
  | clearSandbox =>
      rw [← streamDownloads_popBackgroundJob jobs rfl rfl]
      exact moves_base (UpdateDriveTaskBase.settles_runSaveJob _ rfl)

theorem moves_continueSynchronizing (result : FileSystemResult) :
    Moves task.streamDownloads
      (task.continueSynchronizingDriveWithSandbox result).streamDownloads := by
  cases result with
  | exception => exact moves_base task.settles_finishTask
  | done =>
      obtain ⟨kept, later⟩ := DriveParams.keepUsedTorrents_spec task.drive
      unfold continueSynchronizingDriveWithSandbox
      rw [streamDownloads_sessionJob _ rfl]
      apply moves_base
      exact
        { TaskDownloads.Settles.refl task.taskDownloads with
          nextHandle := Nat.le_succ_of_le later
          recorded := kept }

theorem moves_parseFinishInfoFile {loaded : List FinishStreamChunkInfo} {complete : Bool}
    {result : Option SandboxResult} (jobs : task.backgroundJobs = .parseFinishInfoFile :: rest)
    (other : complete = true → ¬ { task with finishInfo := loaded }.PassesCheck) :
    Moves task.streamDownloads ((task.base fun base =>
      { base with backgroundJobs := rest }).parseFinishInfoFile loaded complete
        result).streamDownloads := by
  have parses := Moves.parses _ loaded (checks_of_jobs jobs rfl)
  have popped := streamDownloads_popCheck jobs rfl
  have isParsed : ((task.base fun base => { base with backgroundJobs := rest }).parseFinishInfoFile
      loaded complete result).streamDownloads =
      { (task.base fun base => { base with backgroundJobs := rest }).streamDownloads with
        finishInfo := loaded } := by
    unfold parseFinishInfoFile
    simp only
    split
    · rename_i isComplete
      exact @streamDownloads_continueFinishStream ({ task with
        finishInfo := loaded }.base fun base => { base with backgroundJobs := rest })
        (other isComplete) result
    · rfl
  rw [isParsed, popped]
  exact parses

theorem moves_checkFinishCondition (jobs : task.backgroundJobs = .checkFinishCondition :: rest)
    (other : ¬ task.PassesCheck) (result : Option SandboxResult) :
    Moves task.streamDownloads ((task.base fun base =>
      { base with backgroundJobs := rest }).checkFinishCondition result).streamDownloads := by
  have checked := @streamDownloads_checkFinishCondition (task.base fun base =>
    { base with backgroundJobs := rest }) other result
  rw [checked, streamDownloads_popCheck jobs rfl]
  exact .checks _ _ (checks_of_jobs jobs rfl)

theorem moves_runBackgroundJob {result : BackgroundResult} {after : StreamTask}
    (running : task.fault = none) (jobs : task.backgroundJobs = job :: rest)
    (run : (task.base fun base => { base with backgroundJobs := rest }).runBackgroundJob job result =
      some after)
    (other : ¬ task.FinishesStream (.runBackgroundJob result)) :
    Moves task.streamDownloads after.streamDownloads := by
  -- a check that passes finishes the stream
  have noPass : (TaskEvent.runBackgroundJob result).checksStream job = true →
      ¬ { task with
        finishInfo := task.checkedFinishInfo (.runBackgroundJob result) }.PassesCheck := by
    intro checks passes
    exact other ⟨running, by simp [jobs, checks], passes⟩
  simp only [runBackgroundJob] at run
  split at run
  · obtain rfl := Option.some.inj run
    exact moves_runSaveJob jobs
  · obtain rfl := Option.some.inj run
    rw [← streamDownloads_popBackgroundJob jobs rfl rfl]
    exact moves_continueSynchronizing _
  · obtain rfl := Option.some.inj run
    exact moves_parseFinishInfoFile jobs noPass
  · obtain rfl := Option.some.inj run
    exact moves_checkFinishCondition jobs (noPass rfl) _
  · obtain rfl := Option.some.inj run
    exact moves_checkFinishCondition jobs (noPass rfl) _
  · cases run

end BackgroundJobs

theorem moves_processedModifyOpinion (anOpinion : ApprovalTransactionInfo) :
    Moves task.streamDownloads (task.processedModifyOpinion anOpinion).1.streamDownloads := by
  unfold processedModifyOpinion
  split
  · split
    · exact @moves_approval (task.storeOpinion anOpinion) _
        (ModifyApprovalTaskBase.settles_checkOpinionNumber _)
    · exact moves_of_eq rfl
  · exact moves_of_eq rfl

theorem moves_onApprovalTxPublished
    (transaction : PublishedModificationApprovalTransactionInfo) :
    Moves task.streamDownloads (task.onApprovalTxPublished transaction).1.streamDownloads := by
  cases running : task.taskIsInterrupted with
  | true =>
      rw [onApprovalTxPublished_interrupted running]
      exact moves_of_eq rfl
  | false =>
      by_cases applies : task.Applies transaction
      · rw [onApprovalTxPublished_applies running applies]
        exact @moves_base task.setApproveTxReceived _
          (UpdateDriveTaskBase.settles_startSynchronizingAfter _ transaction)
      · rw [onApprovalTxPublished_breaks running applies]
        exact @moves_breakTask (task.setApproveTxReceived.base
          (·.increaseApprovedExpectedCumulativeDownload task.request.maxSizeBytes))

theorem moves_shouldCancelModify (cancelRequest : ModificationCancelRequest) :
    Moves task.streamDownloads (task.shouldCancelModify cancelRequest).1.streamDownloads := by
  unfold shouldCancelModify
  split
  · exact moves_of_eq rfl
  · split
    · exact moves_breakTask
    · exact moves_of_eq rfl

theorem streamDownloads_torrentFinished (torrent : Torrent) :
    (task.base (·.torrentFinished torrent)).streamDownloads =
      { task.streamDownloads with
        torrents := Torrent.setIn task.torrents { torrent with state := .finished }
        saves := task.streamDownloads.saves ++ [torrent.handle] } := by
  simp [streamDownloads, UpdateDriveTaskBase.taskDownloads, base, approval,
    ModifyApprovalTaskBase.base, UpdateDriveTaskBase.torrentFinished,
    UpdateDriveTaskBase.executeOnBackgroundThread, UpdateDriveTaskBase.setTorrent,
    BackgroundJob.saved?, BackgroundJob.checksFinish, Torrent.setIn]

theorem moves_of_step {event : TaskEvent} {after : StreamTask}
    (step : streamSystem.step task event = some after) (other : ¬ task.FinishesStream event)
    (mayStart : task.StartsChunk event → task.streamDownloads.hasSandbox = true →
      task.finishInfo.length < task.chunkInfoList.length) :
    Moves task.streamDownloads after.streamDownloads := by
  obtain ⟨running, handles⟩ := handles_of_step step
  cases handles with
  | runSessionJob jobs run => exact moves_runSessionJob jobs run mayStart
  | runBackgroundJob jobs run => exact moves_runBackgroundJob running jobs run other
  | torrentsRemoved found =>
      exact moves_base (UpdateDriveTaskBase.settles_onTorrentsRemoved
        { task.toUpdateDriveTaskBase with removals := task.removals.eraseIdx _ } _)
  | metadataReceived found totalSize isValid =>
      obtain ⟨_, member, _, isAdded, _⟩ := UpdateDriveTaskBase.activeTorrent_spec found
      exact moves_onMetadataReceived member isAdded totalSize isValid
  | torrentFinished found =>
      obtain ⟨_, member, _, hasMetadata, _⟩ := UpdateDriveTaskBase.activeTorrent_spec found
      rw [streamDownloads_torrentFinished]
      exact .finishes _ member hasMetadata
  | modifyOpinionTimerExpired pending =>
      exact moves_approval (ModifyApprovalTaskBase.settles_opinionTimerExpired
        { task.toModifyApprovalTaskBase with modifyOpinionTimer := .expired })
  | shareMyOpinionTimerExpired pending =>
      exact moves_approval (ModifyApprovalTaskBase.settles_shareMyOpinionTimerExpired _)
  | opinionReceived anOpinion => exact moves_processedModifyOpinion anOpinion
  | approvalTxPublished transaction => exact moves_onApprovalTxPublished transaction
  | cancelModify cancelRequest => exact moves_shouldCancelModify cancelRequest
  | driveClose | manualSynchronize => exact moves_interrupt
  | terminate => exact @moves_breakTask (task.base fun base =>
      { base with drive := { base.drive with replicatorIsStopped := true } })
  | chunkInfoReceived chunkInfo isVerified => exact moves_acceptChunkInfoMessage chunkInfo isVerified
  | finishStream finishStream => exact moves_acceptFinishStreamTx finishStream
  | pieceReceived | approvalTxFailed | setReplicators | setMinReplicatorsNumber =>
      exact moves_of_eq rfl

end StreamTask

end SiriusDrive
