import SiriusDrive.StreamTask.Approvals
import SiriusDrive.StreamTask.Checks
import SiriusDrive.StreamTask.SoundDownloads

/-! # The end of a stream

`completeStreamFinishing` runs when a check finds an entry for every chunk of the finish
info. A chunk gets its entry when its download is started, and nothing stops a second
check from finding the same.
-/

namespace SiriusDrive.StreamTask

variable (task : StreamTask)

/-- The drive has the file of the hash: the task has downloaded it, or it has been there before. -/
def IsDownloaded (hash : InfoHash) : Prop :=
  (∃ torrent ∈ task.torrents, torrent.infoHash = hash ∧ torrent.state = .finished) ∨
    task.drive.torrentHandleMap.contains hash = true ∧
      ∀ torrent ∈ task.torrents, torrent.infoHash ≠ hash

instance (hash : InfoHash) : Decidable (task.IsDownloaded hash) :=
  inferInstanceAs (Decidable (_ ∨ _ ∧ _))

/-- The event finishes the stream in time: no chunk is being downloaded or has been broken off,
    and no other check is waiting. A finished stream has no chunk to be downloaded, unless
    there are more chunks than in its finish info. -/
structure ChecksInTime (event : TaskEvent) : Prop where
  finishing : task.FinishesStream event →
    task.downloadingLtHandle = none ∧
      (∀ torrent ∈ task.torrents, torrent.use ≠ .finishInfo → torrent.isRemoved = false) ∧
        (task.backgroundJobs.filter (·.checksFinish)).length = 1
  finished : task.StartsChunk event →
    (task.sandboxFsTree.isSome || task.modificationIsCompleted) = true →
      task.finishInfo.length < task.chunkInfoList.length

instance (event : TaskEvent) : Decidable (task.ChecksInTime event) :=
  decidable_of_iff (_ ∧ _) ⟨fun ⟨finishing, finished⟩ => ⟨finishing, finished⟩,
    fun ⟨finishing, finished⟩ => ⟨finishing, finished⟩⟩

/-- The stream is finished by the event only when all chunks of its finish info are there. -/
def FinishesDownloaded (event : TaskEvent) : Prop :=
  task.FinishesStream event →
    ∀ info ∈ task.checkedFinishInfo event, task.IsDownloaded info.chunkInfoHash

instance (event : TaskEvent) : Decidable (task.FinishesDownloaded event) :=
  inferInstanceAs (Decidable (_ → _))

/-- The step runs `completeStreamFinishing` when the event finishes the stream. No other step gives
    a stream the sandbox of a finished one. -/
def FinishesByStep (event : TaskEvent) : Prop :=
  ∀ after, streamSystem.step task event = some after →
    (task.FinishesStream event → ∃ jobs, after = ({ task with
      finishInfo := task.checkedFinishInfo event }.base fun base =>
        { base with backgroundJobs := jobs }).finishStream event.streamSandbox?) ∧
    (task.FinishesStream event ∨
      after.streamDownloads.hasSandbox = task.streamDownloads.hasSandbox)

/-- The steps of a run that finish the stream. -/
def finishings (event : TaskEvent) : List TaskEvent :=
  if task.FinishesStream event then [event] else []

variable {task}

theorem sound_create (request : StreamRequest) (drive : DriveParams) :
    (create request drive).streamDownloads.Sound :=
  StreamDownloads.sound_of_idle rfl ⟨rfl, rfl, rfl⟩ rfl rfl rfl

theorem finishes_inTime {event : TaskEvent} {after : StreamTask}
    (sound : task.streamDownloads.Sound) (inTime : task.ChecksInTime event)
    (step : streamSystem.step task event = some after) (finishes : task.FinishesStream event) :
    after.streamDownloads.Sound ∧ task.streamDownloads.hasSandbox = false ∧
      ∀ info ∈ task.checkedFinishInfo event, task.IsDownloaded info.chunkInfoHash := by
  obtain ⟨idle, unbroken, single⟩ := inTime.finishing finishes
  refine sound.passes (passes_of_step step finishes) idle ?_ single
  intro torrent member isChunk
  exact unbroken torrent member (by simpa [Torrent.isChunk] using isChunk)

theorem sound_step {event : TaskEvent} {after : StreamTask} (sound : task.streamDownloads.Sound)
    (inTime : task.ChecksInTime event) (step : streamSystem.step task event = some after) :
    after.streamDownloads.Sound := by
  by_cases finishes : task.FinishesStream event
  · exact (finishes_inTime sound inTime step finishes).1
  · exact sound.moves (moves_of_step step finishes inTime.finished)

theorem finishesByStep {event : TaskEvent} (inTime : task.ChecksInTime event) :
    task.FinishesByStep event := by
  intro after step
  by_cases finishes : task.FinishesStream event
  · obtain ⟨_, jobs, _, _, _, finishing⟩ := step_of_finishesStream finishes
    exact ⟨fun _ => ⟨jobs, Option.some.inj (step.symm.trans finishing)⟩, .inl finishes⟩
  · exact ⟨fun isFinished => absurd isFinished finishes,
      .inr (moves_of_step step finishes inTime.finished).hasSandbox⟩

/-- A stream whose checks come in time is finished once at most, when all chunks of its finish info
    have been downloaded. -/
theorem finishesStream_once_downloaded {request : StreamRequest} {drive : DriveParams}
    {events : List TaskEvent}
    (inTime : streamSystem.Meets ChecksInTime (create request drive) events) :
    streamSystem.Meets FinishesDownloaded (create request drive) events ∧
      (streamSystem.trace finishings (create request drive) events).length ≤ 1 ∧
      streamSystem.Meets FinishesByStep (create request drive) events := by
  have sound := sound_create request drive
  refine ⟨?_, ?_, inTime.mono fun _ _ => finishesByStep⟩
  · refine inTime.of_invariant (I := fun task => task.streamDownloads.Sound) ?_ ?_ sound
    · intro task event sound inTime finishes
      obtain ⟨_, _, _, _, _, step⟩ := step_of_finishesStream finishes
      exact (finishes_inTime sound inTime step finishes).2.2
    · exact fun task event after sound inTime step => sound_step sound inTime step
  · refine (Transition.length_trace_le_one (I := fun task => task.streamDownloads.Sound)
      (P := fun task => task.streamDownloads.hasSandbox = true) ?_ ?_ sound inTime).1
    · exact fun task event after sound inTime step => sound_step sound inTime step
    · intro task event after sound inTime step
      by_cases finishes : task.FinishesStream event
      · obtain ⟨_, noSandbox, _⟩ := finishes_inTime sound inTime step finishes
        refine .inr ⟨by rw [finishings, if_pos finishes]; rfl, by simp [noSandbox], ?_⟩
        exact (passes_of_step step finishes).hasSandbox
      · refine .inl ⟨by rw [finishings, if_neg finishes], ?_⟩
        rw [(moves_of_step step finishes inTime.finished).hasSandbox]
        exact fun isSet => isSet

theorem sampleStream_finishes_once :
    streamSystem.Meets FinishesDownloaded sampleStream
        (untilStreamSandbox ModifyDriveTask.sampleSandbox) ∧
      (streamSystem.trace finishings sampleStream
        (untilStreamSandbox ModifyDriveTask.sampleSandbox)).length ≤ 1 ∧
      streamSystem.Meets FinishesByStep sampleStream
        (untilStreamSandbox ModifyDriveTask.sampleSandbox) :=
  finishesStream_once_downloaded (by decide +kernel)

/-- The finish info is downloaded while the only chunk still is. -/
def untilEarlyCheck : List TaskEvent :=
  [.chunkInfoReceived ⟨60, 0, 30, 1, 1⟩ true, .runSessionJob, .finishStream ⟨60, 31⟩,
    .metadataReceived 1 5 true, .torrentFinished 1, .runBackgroundJob (.fileSystem .done),
    .runSessionJob]

/-- The check after the finish info passes, and so does the one after the chunk. -/
def earlyAndTwice : List TaskEvent :=
  untilEarlyCheck ++
    [.runBackgroundJob (.finishInfo [⟨0, 30, 1, 1, true⟩] true (some ModifyDriveTask.sampleSandbox)),
      .metadataReceived 0 5 true, .torrentFinished 0, .runBackgroundJob (.fileSystem .done),
      .runSessionJob, .runSessionJob, .runBackgroundJob (.fileSystem .done),
      .runBackgroundJob (.sandbox ModifyDriveTask.sampleSandbox)]

theorem sampleStream_finishes_early_and_twice :
    ¬ streamSystem.Meets FinishesDownloaded sampleStream earlyAndTwice ∧
      (streamSystem.trace finishings sampleStream earlyAndTwice).length = 2 := by
  decide +kernel

end SiriusDrive.StreamTask
