import SiriusDrive.ModifyDriveTask.Approvals
import SiriusDrive.StreamTask.Proceeds
import SiriusDrive.StreamTask.Steps

/-! # The approval of a stream

A stream task stores the opinions it accepts in its own members, while the inherited
functions send what is in the members of the base class. These remain empty, so no
approval of a stream ever carries the opinion of another replicator.
-/

namespace SiriusDrive

namespace ModifyApprovalTaskBase

variable {task : ModifyApprovalTaskBase}

/-- No opinion is in the members of the base class, nor in any approval. -/
structure CollectsNothing (task : ModifyApprovalTaskBase) : Prop where
  received : task.receivedOpinions.toList = []
  sent : ∀ sent ∈ task.sentApprovals, sent.builtFrom = []

/-- Moreover, no approval has been sent or is going to be. -/
structure Silent (task : ModifyApprovalTaskBase) : Prop where
  received : task.receivedOpinions.toList = []
  sent : task.sentApprovals = []
  timer : task.modifyOpinionTimer = .unset

theorem CollectsNothing.of_collecting {after : ModifyApprovalTaskBase}
    (same : after.collecting = task.collecting) (nothing : task.CollectsNothing) :
    after.CollectsNothing := by
  obtain ⟨received, -, sent⟩ : after.receivedOpinions = task.receivedOpinions ∧
      after.modifyOpinionTimer = task.modifyOpinionTimer ∧
      after.sentApprovals = task.sentApprovals := by
    simpa only [collecting, Prod.mk.injEq] using same
  exact ⟨received ▸ nothing.received, sent ▸ nothing.sent⟩

theorem CollectsNothing.opinionTimerExpired (nothing : task.CollectsNothing) :
    task.opinionTimerExpired.CollectsNothing := by
  simp only [ModifyApprovalTaskBase.opinionTimerExpired]
  split
  · exact nothing
  · split
    · exact ⟨nothing.received, nothing.sent⟩
    · refine ⟨nothing.received, fun sent member => ?_⟩
      rcases List.mem_append.mp member with old | new
      · exact nothing.sent sent old
      · obtain rfl := List.mem_singleton.mp new
        simp [nothing.received]

theorem CollectsNothing.checkOpinionNumber (nothing : task.CollectsNothing) :
    task.checkOpinionNumberAndStartTimer.CollectsNothing := by
  simp only [checkOpinionNumberAndStartTimer]
  split
  · have cancelled : { task with
        modifyOpinionTimer := task.modifyOpinionTimer.cancel }.CollectsNothing :=
      ⟨nothing.received, nothing.sent⟩
    exact cancelled.opinionTimerExpired
  · split
    · split
      · exact ⟨nothing.received, nothing.sent⟩
      · exact nothing
    · exact nothing

theorem CollectsNothing.myOpinionIsCreated (nothing : task.CollectsNothing) :
    task.myOpinionIsCreated.CollectsNothing := by
  simp only [ModifyApprovalTaskBase.myOpinionIsCreated]
  split
  · exact ⟨nothing.received, nothing.sent⟩
  · split
    · exact ⟨nothing.received, nothing.sent⟩
    · split
      · exact ⟨nothing.received, nothing.sent⟩
      · refine CollectsNothing.checkOpinionNumber ⟨?_, nothing.sent⟩
        simp [validateReceivedOpinions, shareMyOpinion, Std.TreeMap.toList_filter, nothing.received]

theorem Silent.of_collecting {after : ModifyApprovalTaskBase}
    (same : after.collecting = task.collecting) (silent : task.Silent) : after.Silent := by
  obtain ⟨received, timer, sent⟩ : after.receivedOpinions = task.receivedOpinions ∧
      after.modifyOpinionTimer = task.modifyOpinionTimer ∧
      after.sentApprovals = task.sentApprovals := by
    simpa only [collecting, Prod.mk.injEq] using same
  exact ⟨received ▸ silent.received, sent ▸ silent.sent, timer ▸ silent.timer⟩

/-- The drive has other replicators, and some are needed for an approval. -/
def HasOthers (task : ModifyApprovalTaskBase) : Prop :=
  0 < task.drive.allReplicators.length ∧
    0 < replicatorNumber task.drive.minReplicatorsNumber task.drive.allReplicators.length

instance (task : ModifyApprovalTaskBase) : Decidable task.HasOthers :=
  inferInstanceAs (Decidable (_ ∧ _))

theorem Silent.checkOpinionNumber (silent : task.Silent) (others : task.HasOthers) :
    task.checkOpinionNumberAndStartTimer.Silent := by
  have empty : task.receivedOpinions.size = 0 := by
    rw [← Std.TreeMap.length_toList, silent.received, List.length_nil]
  obtain ⟨some, needed⟩ := others
  have incomplete : ¬ 0 ≥ task.drive.allReplicators.length := by omega
  have tooFew : ¬ 0 ≥ replicatorNumber task.drive.minReplicatorsNumber
      task.drive.allReplicators.length := by omega
  simp only [checkOpinionNumberAndStartTimer, empty, incomplete, tooFew, decide_false,
    Bool.and_false, Bool.false_and, Bool.false_eq_true, if_false]
  exact silent

theorem Silent.myOpinionIsCreated (silent : task.Silent) (others : task.HasOthers) :
    task.myOpinionIsCreated.Silent := by
  simp only [ModifyApprovalTaskBase.myOpinionIsCreated]
  split
  · exact ⟨silent.received, silent.sent, silent.timer⟩
  · split
    · exact ⟨silent.received, silent.sent, silent.timer⟩
    · split
      · exact ⟨silent.received, silent.sent, silent.timer⟩
      · refine Silent.checkOpinionNumber ⟨?_, silent.sent, silent.timer⟩ others
        simp [validateReceivedOpinions, shareMyOpinion, Std.TreeMap.toList_filter, silent.received]

end ModifyApprovalTaskBase

namespace StreamTask

/-! ## What a step collects -/

/-- The members of the base class for the approval change by three inherited functions
    only: when an opinion is accepted, when the timer fires, and when the own opinion is
    saved. -/
theorem step_collects {P : ModifyApprovalTaskBase → Prop} {task after : StreamTask}
    {event : TaskEvent}
    (same : ∀ before after : ModifyApprovalTaskBase, after.collecting = before.collecting →
      P before → P after)
    (check : P task.toModifyApprovalTaskBase →
      P task.toModifyApprovalTaskBase.checkOpinionNumberAndStartTimer)
    (expire : task.modifyOpinionTimer = .pending → P task.toModifyApprovalTaskBase →
      P { task.toModifyApprovalTaskBase with modifyOpinionTimer := .expired }.opinionTimerExpired)
    (validate : ∀ sessionJobs, P task.toModifyApprovalTaskBase →
      P { task.toModifyApprovalTaskBase with sessionJobs }.myOpinionIsCreated)
    (holds : P task.toModifyApprovalTaskBase) (step : streamSystem.step task event = some after) :
    P after.toModifyApprovalTaskBase := by
  have kept : ∀ after : ModifyApprovalTaskBase, after.collecting = task.collecting → P after :=
    fun after unchanged => same _ after unchanged holds
  obtain ⟨-, handles⟩ := handles_of_step step
  cases handles with
  | @runSessionJob job rest _ jobs run =>
      by_cases validates : job = .myOpinionIsCreated
      · subst validates
        obtain rfl := Option.some.inj run
        exact validate rest holds
      by_cases completes : job = .modifyIsCompleted
      · subst completes
        obtain rfl := Option.some.inj run
        exact kept _ rfl
      · have proceeds : Proceeds none _ after := proceeds_runSessionJob _ run validates completes
        exact kept _ proceeds.collecting
  | runBackgroundJob jobs run => exact kept _ (proceeds_runBackgroundJob _ run).collecting
  | @metadataReceived handle torrent found totalSize isValid =>
      have proceeds : Proceeds none task (task.onMetadataReceived torrent totalSize isValid) :=
        task.proceeds_onMetadataReceived _ _ _
      exact kept _ proceeds.collecting
  | modifyOpinionTimerExpired pending => exact expire pending holds
  | shareMyOpinionTimerExpired pending =>
      refine kept _ ?_
      simp only [approval, ModifyApprovalTaskBase.shareMyOpinionTimerExpired]
      split <;> rfl
  | opinionReceived anOpinion =>
      simp only [processedModifyOpinion]
      split
      · split
        · exact check holds
        · exact holds
      · exact holds
  | approvalTxPublished transaction =>
      simp only [onApprovalTxPublished]
      split
      · exact holds
      · split
        · exact kept _ rfl
        · exact kept _ rfl
  | cancelModify cancelRequest =>
      simp only [shouldCancelModify]
      split
      · exact holds
      · split
        · exact kept _ rfl
        · exact holds
  | driveClose | manualSynchronize =>
      refine kept _ ?_
      simp only [onDriveClose, manualSynchronize]
      split <;> rfl
  | chunkInfoReceived chunkInfo isVerified =>
      have proceeds : Proceeds none task (task.acceptChunkInfoMessage chunkInfo isVerified) :=
        task.proceeds_acceptChunkInfoMessage _ _
      exact kept _ proceeds.collecting
  | finishStream finishStream =>
      have proceeds : Proceeds none task (task.acceptFinishStreamTx finishStream) :=
        task.proceeds_acceptFinishStreamTx _
      exact kept _ proceeds.collecting
  | torrentsRemoved | torrentFinished | pieceReceived | approvalTxFailed | terminate
  | setReplicators | setMinReplicatorsNumber => exact kept _ rfl

/-! ## Approvals of a stream -/

variable (task : StreamTask)

/-- All other replicators have sent an opinion that has been accepted, and there are some. -/
def AllAccepted : Prop :=
  task.drive.allReplicators ≠ [] ∧
    task.drive.allReplicators.all (task.shadowing.receivedOpinions.contains ·) = true

instance : Decidable task.AllAccepted := inferInstanceAs (Decidable (_ ∧ _))

/-- An approval that carries all accepted opinions besides our own has been sent. -/
def AcceptedAreSent : Prop :=
  ∃ sent ∈ task.sentApprovals,
    ∀ opinion ∈ task.shadowing.receivedOpinions.toList.map Prod.snd, opinion ∈ sent.builtFrom

instance : Decidable task.AcceptedAreSent :=
  inferInstanceAs (Decidable (∃ _ ∈ _, ∀ _ ∈ _, _))

variable {task} {request : StreamRequest} {drive : DriveParams} {events : List TaskEvent}

theorem collectsNothing_of_step {after : StreamTask} {event : TaskEvent}
    (nothing : task.CollectsNothing) (step : streamSystem.step task event = some after) :
    after.CollectsNothing :=
  step_collects (fun _ _ same nothing => nothing.of_collecting same)
    (fun nothing => nothing.checkOpinionNumber)
    (fun _ nothing => ModifyApprovalTaskBase.CollectsNothing.opinionTimerExpired
      ⟨nothing.received, nothing.sent⟩)
    (fun _ nothing => ModifyApprovalTaskBase.CollectsNothing.myOpinionIsCreated
      ⟨nothing.received, nothing.sent⟩)
    nothing step

theorem collectsNothing_create : (create request drive).CollectsNothing :=
  ⟨rfl, fun sent member => by simp [create] at member⟩

theorem collectsNothing_of_run
    (run : streamSystem.exec (create request drive) events = some task) :
    task.CollectsNothing :=
  Transition.invariant_of_step (fun _ _ _ nothing step => collectsNothing_of_step nothing step)
    collectsNothing_create run

theorem silent_of_run
    (others : streamSystem.Meets (fun task _ => task.HasOthers) (create request drive) events)
    (run : streamSystem.exec (create request drive) events = some task) : task.Silent := by
  have preserved : ∀ (task : StreamTask) event after, task.Silent → task.HasOthers →
      streamSystem.step task event = some after → after.Silent :=
    fun task event after silent others step =>
      step_collects (fun _ _ same silent => silent.of_collecting same)
        (fun silent => silent.checkOpinionNumber others)
        (fun pending silent => by simp [silent.timer] at pending)
        (fun _ silent => ModifyApprovalTaskBase.Silent.myOpinionIsCreated ⟨silent.received, silent.sent, silent.timer⟩ others)
        silent step
  exact Transition.invariant preserved ⟨rfl, rfl, rfl⟩ others run

/-- When all others have been accepted, no approval with their opinions has been sent; while
    there are others, no approval is sent at all. -/
theorem accepted_opinions_are_not_sent
    (run : streamSystem.exec (create request drive) events = some task) :
    (task.AllAccepted → ¬ task.AcceptedAreSent) ∧
    (streamSystem.Meets (fun task _ => task.HasOthers) (create request drive) events →
      task.sentApprovals = []) := by
  refine ⟨?_, fun others => (silent_of_run others run).sent⟩
  rintro ⟨some, all⟩ ⟨sent, member, carries⟩
  obtain ⟨key, isReplicator⟩ := List.exists_mem_of_ne_nil _ some
  have contained : key ∈ task.shadowing.receivedOpinions := List.all_eq_true.mp all key isReplicator
  obtain ⟨opinion, accepted⟩ :=
    Option.isSome_iff_exists.mp (Std.TreeMap.mem_iff_isSome_getElem?.mp contained)
  have inside := carries opinion (List.mem_map.mpr
    ⟨(key, opinion), Std.TreeMap.mem_toList_iff_getElem?_eq_some.mpr accepted, rfl⟩)
  simp [(collectsNothing_of_run run).sent sent member] at inside

/-! ## A sample stream -/

def sampleStreamRequest : StreamRequest where
  streamId := 60
  streamerKey := 40
  folder := "stream"
  maxSizeBytes := 10

def sampleStream : StreamTask := create sampleStreamRequest ModifyDriveTask.sampleDrive

/-- The only chunk of the sample is announced and downloaded. -/
def untilChunk : List TaskEvent :=
  [.chunkInfoReceived ⟨60, 0, 30, 1, 1⟩ true, .runSessionJob, .metadataReceived 0 5 true,
    .torrentFinished 0, .runBackgroundJob (.fileSystem .done), .runSessionJob, .runSessionJob]

/-- The stream is finished and its finish info downloaded; it is the sandbox that is
    calculated then. -/
def untilStreamSandbox (result : SandboxResult) : List TaskEvent :=
  untilChunk ++
    [.finishStream ⟨60, 31⟩, .metadataReceived 1 5 true, .torrentFinished 1,
      .runBackgroundJob (.fileSystem .done), .runSessionJob,
      .runBackgroundJob (.finishInfo [⟨0, 30, 1, 1, true⟩] true (some result))]

/-- The own opinion about the sample is formed and shared. -/
def untilStreamOpinion (result : SandboxResult) : List TaskEvent :=
  untilStreamSandbox result ++
    [.runSessionJob, .runBackgroundJob (.fileSystem .done), .runSessionJob,
      .runBackgroundJob (.fileSystem .done), .runSessionJob]

/-- The opinions of all other replicators about the sample. -/
def allOpinions : List TaskEvent :=
  [1, 2, 3].map fun key => .opinionReceived (ModifyDriveTask.sampleOpinion key 8)

theorem accepted_opinions_are_not_sent_by_sample :
    streamSystem.Reaches
      (fun task => task.AllAccepted ∧ ¬ task.AcceptedAreSent ∧ task.sentApprovals = [])
      sampleStream (untilStreamOpinion ModifyDriveTask.sampleSandbox ++ allOpinions) := by
  obtain ⟨task, run, all⟩ : streamSystem.Reaches (·.AllAccepted) sampleStream
      (untilStreamOpinion ModifyDriveTask.sampleSandbox ++ allOpinions) := by decide +kernel
  obtain ⟨unsent, silent⟩ := accepted_opinions_are_not_sent run
  exact ⟨task, run, all, unsent all, silent (by decide +kernel)⟩

/-- The three other replicators agree with our opinion, which exists and is shared. -/
theorem agreeing_opinions_are_not_sent :
    streamSystem.Reaches
      (fun task => task.myOpinion.isSome ∧ task.sandboxCalculated = true ∧ task.AllAccepted ∧
        task.modifyOpinionTimer = .unset ∧ ¬ task.AcceptedAreSent)
      sampleStream (untilStreamOpinion ModifyDriveTask.sampleSandbox ++ allOpinions) := by
  decide +kernel

end StreamTask

end SiriusDrive
