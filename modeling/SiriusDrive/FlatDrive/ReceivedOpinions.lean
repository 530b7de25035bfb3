import SiriusDrive.FlatDrive.RecordedApprovals
import SiriusDrive.FlatDrive.RequestOrder
import SiriusDrive.StreamTask.Opinions

/-! # The opinions a drive receives

The opinion of another replicator may come before the modification or the stream it is about
is started, or while its task is running. The approval is built from those that the task has
collected. This says which steps lose an opinion that has been received.
-/

namespace SiriusDrive

/-- What an approval is built from: `m_receivedOpinions` and the own opinion, of the task of a
    modification or a stream. -/
structure CollectedOpinions where
  modification : Hash256
  received : ReceivedOpinions
  myOpinion : Option ApprovalTransactionInfo

namespace CollectedOpinions

variable (collected : CollectedOpinions) (opinion : ApprovalTransactionInfo)

/-- The opinion is collected, unless our own one disagrees with it. -/
def Keeps : Prop :=
  collected.received[opinion.replicatorKey]? = some opinion ∨
    ∃ own ∈ collected.myOpinion, validateOpinion own opinion = false

/-- The opinion is collected if our own one agrees with it. -/
def KeepsAgreeing : Prop :=
  ∀ own ∈ collected.myOpinion, validateOpinion own opinion = true →
    collected.received[opinion.replicatorKey]? = some opinion

instance : Decidable (collected.KeepsAgreeing opinion) :=
  inferInstanceAs (Decidable (∀ own ∈ collected.myOpinion, _ → _))

variable {collected opinion}

theorem Keeps.agreeing (keeps : collected.Keeps opinion) : collected.KeepsAgreeing opinion := by
  intro own isOwn agrees
  rcases keeps with isThere | ⟨other, isOther, disagrees⟩
  · exact isThere
  · obtain rfl : own = other := Option.mem_unique isOwn isOther
    simp [agrees] at disagrees

end CollectedOpinions

def ModifyDriveTask.collected (task : ModifyDriveTask) : CollectedOpinions where
  modification := task.request.transactionHash
  received := task.receivedOpinions
  myOpinion := task.myOpinion

/-- The members of the base class: the approval is built from them, and not from those that the
    stream declares again. -/
def StreamTask.collected (task : StreamTask) : CollectedOpinions where
  modification := task.request.streamId
  received := task.receivedOpinions
  myOpinion := task.myOpinion

namespace DriveTask

def collected? : DriveTask → Option CollectedOpinions
  | .modification task => some task.collected
  | .stream task => some task.collected
  | _ => none

/-- What the task of a modification or a stream makes of an event. -/
def handle? (event : TaskEvent) : DriveTask → Option DriveTask
  | .modification task => (task.handle event).map .modification
  | .stream task => (task.handle event).map .stream
  | _ => none

/-- The task does not lose an opinion by an event. A modification replaces opinions, drops them
    with a failed approval and forms an opinion of its own; a stream collects none, so that the
    opinion has to be one it refuses. -/
def Spares (opinion : ApprovalTransactionInfo) (event : TaskEvent) : DriveTask → Prop
  | .modification task =>
      task.request.transactionHash = opinion.modifyTransactionHash →
        ∀ step ∈ task.collectionEvent event,
          task.collection.Spares ApprovalTransactionInfo.replicatorKey validateOpinion opinion step
  | .stream task =>
      task.request.streamId = opinion.modifyTransactionHash →
        ∃ own ∈ (task.formsOpinion event).or task.myOpinion, validateOpinion own opinion = false
  | _ => True

end DriveTask

def DriveEvent.opinions : DriveEvent → List ApprovalTransactionInfo
  | .opinionReceived anOpinion => [anOpinion]
  | _ => []

theorem DriveEvent.taskEvent?_of_opinion {event : DriveEvent} {opinion : ApprovalTransactionInfo}
    (comes : opinion ∈ event.opinions) : event.taskEvent? = some (.opinionReceived opinion) := by
  cases event with
  | opinionReceived anOpinion =>
      obtain rfl := List.mem_singleton.mp comes
      rfl
  | _ => cases comes

/-- A drive and the opinions it has received. -/
structure OpinionHistory where
  flatDrive : FlatDrive
  received : List ApprovalTransactionInfo := []

namespace OpinionHistory

def receivingSystem : Transition OpinionHistory DriveEvent where
  step history event :=
    (FlatDrive.flatDriveSystem.step history.flatDrive event).map fun flatDrive =>
      { flatDrive, received := history.received ++ event.opinions }

variable (history : OpinionHistory)

/-- The running task has collected all opinions that were received about its modification or
    stream, at any time, unless the own one disagrees with them. -/
def CollectsReceived : Prop :=
  ∀ task ∈ history.flatDrive.task, ∀ collected ∈ task.collected?,
    ∀ opinion ∈ history.received, collected.modification = opinion.modifyTransactionHash →
      collected.Keeps opinion

/-- The running task has collected all opinions about its modification or stream that agree with
    the own one. -/
def CollectsAgreeing : Prop :=
  ∀ task ∈ history.flatDrive.task, ∀ collected ∈ task.collected?,
    ∀ opinion ∈ history.received, collected.modification = opinion.modifyTransactionHash →
      collected.KeepsAgreeing opinion

instance : Decidable history.CollectsAgreeing :=
  inferInstanceAs (Decidable (∀ task ∈ history.flatDrive.task, ∀ collected ∈ task.collected?,
    ∀ opinion ∈ history.received, _ → _))

/-- A step starts no modification or stream about which an opinion has been received, and the
    running task does not lose one by it. -/
def LosesNoOpinion (event : DriveEvent) : Prop :=
  (FlatDrive.flatDriveSystem.step history.flatDrive event).isSome = true →
    (∀ request ∈ history.flatDrive.startedBy event, ∀ opinion ∈ history.received,
        request.transactionHash ≠ opinion.modifyTransactionHash) ∧
      ∀ task ∈ history.flatDrive.task, task.callsRunNextTask event = false →
        ∀ taskEvent ∈ event.taskEvent?, ∀ opinion ∈ history.received ++ event.opinions,
          task.Spares opinion taskEvent

end OpinionHistory

/-! ## The tasks -/

namespace ModifyDriveTask

variable {task after : ModifyDriveTask} {event : TaskEvent} {opinion : ApprovalTransactionInfo}

theorem collected_start (request : ModificationRequest) (receivedOpinions : ReceivedOpinions)
    (drive : DriveParams) (actionListFile : Option ActionListFile) :
    (start request receivedOpinions drive actionListFile).collected =
      { modification := request.transactionHash, received := ∅, myOpinion := none } := by
  have isRequest : (start request receivedOpinions drive actionListFile).request = request :=
    DeferredRequest.modification.inj
      (UpdatePurpose.serves.inj (isNew_start request receivedOpinions drive actionListFile).2)
  have empty := collection_start request receivedOpinions drive actionListFile
  unfold collected
  rw [isRequest]
  congr 1
  · exact congrArg Collection.received empty
  · exact congrArg Collection.own empty

theorem modification_of_handled (running : task.fault = none)
    (handled : task.handle event = some after) :
    after.collected.modification = task.collected.modification := by
  have samePurpose : after.updateView.purpose = task.updateView.purpose :=
    (changes running handled).purpose
  have sameRequest : after.request = task.request :=
    DeferredRequest.modification.inj (UpdatePurpose.serves.inj samePurpose)
  exact congrArg ModificationRequest.transactionHash sameRequest

/-- An opinion about the modification that has been kept, or that comes with the event, is kept
    exactly if the event spares it. -/
theorem keeps_iff_spares (running : task.fault = none) (handled : task.handle event = some after)
    (about : task.collected.modification = opinion.modifyTransactionHash)
    (known : task.collected.Keeps opinion ∨ event = .opinionReceived opinion) :
    after.collected.Keeps opinion ↔ (DriveTask.modification task).Spares opinion event := by
  have follows := simulates_collection task event after
    (by simp only [modifyDriveSystem, running, Option.isSome_none, Bool.false_eq_true, if_false, handled])
  have spares_iff : (DriveTask.modification task).Spares opinion event ↔
      ∀ step ∈ task.collectionEvent event,
        task.collection.Spares ApprovalTransactionInfo.replicatorKey validateOpinion opinion step :=
    ⟨fun spares => spares about, fun spares _ => spares⟩
  rw [spares_iff]
  change after.collection.Retains ApprovalTransactionInfo.replicatorKey validateOpinion opinion ↔ _
  rcases known with kept | rfl
  · have retains : task.collection.Retains ApprovalTransactionInfo.replicatorKey validateOpinion
        opinion := kept
    cases isStep : task.collectionEvent event with
    | none =>
        rw [isStep] at follows
        have same : after.collection = task.collection := follows
        rw [same]
        exact iff_of_true retains (by simp)
    | some step =>
        rw [isStep] at follows
        rw [Collection.Retains.step_iff retains follows]
        simp
  · have isStep : task.collectionEvent (.opinionReceived opinion) = some (.receive opinion) :=
      if_pos about
    rw [isStep] at follows ⊢
    have received : task.collection.receive SiriusDrive.replicatorNumber
        ApprovalTransactionInfo.replicatorKey validateOpinion opinion = after.collection := Option.some.inj follows
    rw [← received]
    refine iff_of_true Collection.retains_receive ?_
    intro step isReceive
    obtain rfl : .receive opinion = step := Option.some.inj isReceive
    exact fun _ => .inl rfl

end ModifyDriveTask

namespace StreamTask

variable {task after : StreamTask} {event : TaskEvent} {opinion : ApprovalTransactionInfo}

theorem modification_of_handled (running : task.fault = none)
    (handled : task.handle event = some after) :
    after.collected.modification = task.collected.modification := by
  have samePurpose : after.updateView.purpose = task.updateView.purpose :=
    (changes running handled).purpose
  have sameRequest : after.request = task.request :=
    DeferredRequest.stream.inj (UpdatePurpose.serves.inj samePurpose)
  exact congrArg StreamRequest.streamId sameRequest

/-- A stream keeps an opinion exactly if its own one disagrees with it. -/
theorem keeps_iff_spares (running : task.fault = none) (handled : task.handle event = some after)
    (nothing : task.CollectsNothing)
    (about : task.collected.modification = opinion.modifyTransactionHash) :
    after.collected.Keeps opinion ↔ (DriveTask.stream task).Spares opinion event := by
  have step : streamSystem.step task event = some after := by
    simp only [streamSystem, running, Option.isSome_none, Bool.false_eq_true, if_false, handled]
  have isNotThere : after.receivedOpinions[opinion.replicatorKey]? ≠ some opinion := by
    intro isThere
    have member := Std.TreeMap.mem_toList_iff_getElem?_eq_some.mpr isThere
    rw [(collectsNothing_of_step nothing step).received] at member
    cases member
  have isOwn : after.collected.myOpinion = (task.formsOpinion event).or task.myOpinion :=
    myOpinion_of_step step
  constructor
  · rintro (isThere | disagrees) _
    · exact absurd isThere isNotThere
    · rwa [isOwn] at disagrees
  · intro spares
    right
    rw [isOwn]
    exact spares about

end StreamTask

/-! ## What the running task makes of an event -/

inductive DriveTask.NeedsApproval : DriveTask → Prop
  | modification (task : ModifyDriveTask) : NeedsApproval (.modification task)
  | stream (task : StreamTask) : NeedsApproval (.stream task)

theorem DriveTask.NeedsApproval.collected {task : DriveTask} (needs : task.NeedsApproval) :
    ∃ collected, task.collected? = some collected := by
  cases needs with
  | modification task | stream task => exact ⟨_, rfl⟩

theorem DriveTask.needsApproval {task : DriveTask} {collected : CollectedOpinions}
    (isCollected : task.collected? = some collected) : task.NeedsApproval := by
  cases task with
  | modification task => exact .modification task
  | stream task => exact .stream task
  | initialization | synchronization | cancellation | closure | manualModification =>
      cases isCollected

namespace FlatDrive

variable {flatDrive after call : FlatDrive} {event : DriveEvent} {task : DriveTask}

/-- The running task is told of the event, or what it has collected does not change. -/
theorem collected_of_noCall (isTask : flatDrive.task = some task)
    (needs : task.NeedsApproval) (noCall : flatDrive.nextTaskCall event = none) (step : flatDrive.handle event = some after) :
    ∃ next, after.task = some next ∧
      ((∃ taskEvent, event.taskEvent? = some taskEvent ∧ task.handle? taskEvent = some next) ∨
        (event.taskEvent? = none ∧ next.collected? = task.collected?)) := by
  have calls := callsRunNextTask_of_none isTask noCall
  have told (next : DriveTask) {taskEvent : TaskEvent} (isEvent : event.taskEvent? = some taskEvent)
      (isNext : after.task = some next) (handled : task.handle? taskEvent = some next) :
      ∃ next, after.task = some next ∧
        ((∃ taskEvent, event.taskEvent? = some taskEvent ∧ task.handle? taskEvent = some next) ∨
          (event.taskEvent? = none ∧ next.collected? = task.collected?)) :=
    ⟨next, isNext, .inl ⟨taskEvent, isEvent, handled⟩⟩
  cases event with
  | task event =>
      simp only [handle] at step
      split at step
      · rw [isTask, Option.bind_some] at step
        cases needs with
        | modification task =>
            have goesOn : event = .runSessionJob → task.sessionJobs.head? ≠ some .runNextTask := by
              rintro rfl
              exact of_decide_eq_false calls
            obtain ⟨next, -, handled, isNext⟩ := handle_of_modificationStep goesOn step
            exact told _ rfl isNext (congrArg (Option.map _) handled)
        | stream task =>
            have goesOn : event = .runSessionJob → task.sessionJobs.head? ≠ some .runNextTask := by
              rintro rfl
              exact of_decide_eq_false calls
            obtain ⟨next, -, handled, isNext⟩ := handle_of_streamStep goesOn step
            exact told _ rfl isNext (congrArg (Option.map _) handled)
      · cases step
  | advance =>
      obtain ⟨other, isOther, taken⟩ := Option.bind_eq_some_iff.mp step
      obtain rfl : task = other := Option.some.inj (isTask.symm.trans isOther)
      cases needs <;> cases taken
  | manual event =>
      obtain ⟨other, isOther, taken⟩ := Option.bind_eq_some_iff.mp step
      obtain rfl : task = other := Option.some.inj (isTask.symm.trans isOther)
      cases needs <;> cases taken
  | loaded loaded =>
      cases needs <;>
        simp only [handle, isTask, reduceCtorEq] at step
  | opinionReceived anOpinion =>
      obtain rfl := Option.some.inj step
      refine told (task.processedModifyOpinion anOpinion).1 rfl ?_ (by cases needs <;> rfl)
      simp only [onOpinionReceived, isTask]
      split <;> rfl
  | approvalTransactionPublished transaction =>
      obtain rfl := Option.some.inj step
      refine told (task.onApprovalTxPublished transaction).1 rfl ?_ (by cases needs <;> rfl)
      rw [published_of_some isTask]
      split <;> rfl
  | cancelModifyDrive request =>
      obtain rfl := Option.some.inj step
      refine told (task.shouldCancelModify request).1 rfl ?_ (by cases needs <;> rfl)
      rw [cancelModifyDrive_of_task isTask]
      split <;> rfl
  | startDriveClosing request =>
      obtain rfl := Option.some.inj step
      refine told task.onDriveClose rfl ?_ (by cases needs <;> rfl)
      rw [startDriveClosing_of_task isTask]
  | manualSynchronize request =>
      obtain rfl := Option.some.inj step
      refine told task.manualSynchronize.1 rfl ?_ (by cases needs <;> rfl)
      simp only [manualSynchronize, isTask]
      split <;> rfl
  | approvalTransactionFailed transactionHash =>
      obtain rfl := Option.some.inj step
      exact told _ rfl (congrArg (Option.map _) isTask) (by cases needs <;> rfl)
  | chunkInfoReceived | finishStream =>
      obtain rfl := Option.some.inj step
      exact told _ rfl (congrArg (Option.map _) isTask) (by cases needs <;> rfl)
  | setReplicators | setMinReplicatorsNumber =>
      obtain rfl := Option.some.inj step
      refine told _ rfl (congrArg (Option.map _) isTask) ?_
      cases needs <;> rfl
  | terminate =>
      obtain rfl := Option.some.inj step
      refine told _ rfl (congrArg (Option.map _) isTask) ?_
      cases needs <;> rfl
  | setShardDonator replicatorKeys =>
      obtain rfl := Option.some.inj step
      refine ⟨_, congrArg (Option.map _) isTask, .inr ⟨rfl, ?_⟩⟩
      cases needs <;> rfl
  | startModifyDrive request =>
      obtain rfl := Option.some.inj step
      rw [startModifyDrive_of_task isTask]
      exact ⟨_, rfl, .inr ⟨rfl, by cases needs <;> rfl⟩⟩
  | startStream request =>
      obtain rfl := Option.some.inj step
      rw [startStream_of_task isTask]
      exact ⟨_, rfl, .inr ⟨rfl, by cases needs <;> rfl⟩⟩
  | initiateManualModifications request =>
      obtain rfl := Option.some.inj step
      rw [initiateManualModifications_of_task isTask]
      exact ⟨_, rfl, .inr ⟨rfl, by cases needs <;> rfl⟩⟩

theorem serves_of_collected {collected : CollectedOpinions} (isTask : flatDrive.task = some task)
    (isCollected : task.collected? = some collected) :
    ∃ request, flatDrive.Serves request ∧ request.transactionHash = collected.modification := by
  cases DriveTask.needsApproval isCollected with
  | modification task =>
      obtain rfl := Option.some.inj isCollected
      exact ⟨.modification task.request, ⟨_, update?_of_task isTask, rfl⟩, rfl⟩
  | stream task =>
      obtain rfl := Option.some.inj isCollected
      exact ⟨.stream task.request, ⟨_, update?_of_task isTask, rfl⟩, rfl⟩

theorem needsApproval_of_serves {request : DeferredRequest} (serves : flatDrive.Serves request) :
    ∃ task, flatDrive.task = some task ∧ task.NeedsApproval := by
  obtain ⟨view, isView, isServed⟩ := serves
  obtain ⟨task, isTask, isUpdate⟩ := Option.bind_eq_some_iff.mp isView
  refine ⟨task, isTask, ?_⟩
  cases task with
  | modification task => exact .modification task
  | stream task => exact .stream task
  | synchronization task =>
      obtain rfl := Option.some.inj isUpdate
      cases isServed
  | initialization | cancellation | closure | manualModification => cases isUpdate

theorem collected_runNextTask {request : DeferredRequest}
    (isNext : call.requestToStart = some request) :
    ∃ task, call.runNextTask.task = some task ∧ task.collected? =
      some { modification := request.transactionHash, received := ∅, myOpinion := none } := by
  obtain ⟨others, -, started⟩ := runNextTask_of_requestToStart isNext
  rw [started]
  cases request with
  | modification request =>
      exact ⟨_, rfl, congrArg some (ModifyDriveTask.collected_start request _ _ _)⟩
  | stream request => exact ⟨_, rfl, rfl⟩

theorem opinions_of_call (isCall : flatDrive.nextTaskCall event = some call) :
    event.opinions = [] := by
  cases event with
  | opinionReceived anOpinion =>
      obtain ⟨-, -, calls⟩ := task_of_nextTaskCall isCall
      unfold nextTaskCall at isCall
      split at isCall
      · rename_i task isTask
        have never : task.callsRunNextTask (.opinionReceived anOpinion) = false := by
          cases task <;> rfl
        rw [never] at isCall
        cases isCall
      · cases isCall
  | _ => rfl

end FlatDrive

namespace DriveTask

/-- A stream collects nothing in the members of its base class. -/
def StreamCollectsNothing : DriveTask → Prop
  | .stream task => task.CollectsNothing
  | _ => True

variable {task next : DriveTask} {event : DriveEvent}

theorem StreamCollectsNothing.reacts (nothing : task.StreamCollectsNothing)
    (reacts : task.Reacts event next) : next.StreamCollectsNothing := by
  cases reacts with
  | @stream _ _ taskEvent running isEvent handled =>
      refine @StreamTask.collectsNothing_of_step _ _ taskEvent nothing ?_
      simp only [StreamTask.streamSystem, running, Option.isSome_none, Bool.false_eq_true, if_false,
        handled]
  | setShardDonator _ replicatorKeys =>
      cases task with
      | stream task =>
          have before : task.CollectsNothing := nothing
          exact ⟨before.received, before.sent⟩
      | initialization | modification | synchronization | cancellation | closure
      | manualModification => trivial
  | same => exact nothing
  | modification | synchronization | loaded | initialization | cancels | cancellation | closure
  | manual | manualModification | terminates => trivial

theorem IsStarted.streamCollectsNothing {drive : DriveParams} (started : task.IsStarted drive) :
    task.StreamCollectsNothing := by
  cases started with
  | stream request => exact StreamTask.collectsNothing_create
  | closure | cancellation | catchingUp | synchronization | modification | manualModification =>
      trivial

/-- What an event leaves of the opinions about the modification or stream of the task. -/
theorem keeps_iff_spares {taskEvent : TaskEvent} {collected : CollectedOpinions}
    (running : task.fault = none) (nothing : task.StreamCollectsNothing)
    (handled : task.handle? taskEvent = some next) (isCollected : task.collected? = some collected) :
    ∃ later, next.collected? = some later ∧ later.modification = collected.modification ∧
      ∀ opinion, collected.modification = opinion.modifyTransactionHash →
        collected.Keeps opinion ∨ taskEvent = .opinionReceived opinion →
        (later.Keeps opinion ↔ task.Spares opinion taskEvent) := by
  cases needsApproval isCollected with
  | modification task =>
      obtain rfl := Option.some.inj isCollected
      obtain ⟨after, isAfter, rfl⟩ := Option.map_eq_some_iff.mp handled
      exact ⟨_, rfl, ModifyDriveTask.modification_of_handled running isAfter,
        fun _ about known => ModifyDriveTask.keeps_iff_spares running isAfter about known⟩
  | stream task =>
      obtain rfl := Option.some.inj isCollected
      obtain ⟨after, isAfter, rfl⟩ := Option.map_eq_some_iff.mp handled
      exact ⟨_, rfl, StreamTask.modification_of_handled running isAfter,
        fun _ about _ => StreamTask.keeps_iff_spares running isAfter nothing about⟩

theorem spares_of_other {taskEvent : TaskEvent} {opinion : ApprovalTransactionInfo}
    {collected : CollectedOpinions} (isCollected : task.collected? = some collected)
    (other : collected.modification ≠ opinion.modifyTransactionHash) :
    task.Spares opinion taskEvent := by
  cases needsApproval isCollected with
  | modification task | stream task =>
      obtain rfl := Option.some.inj isCollected
      exact fun about => absurd about other

end DriveTask

/-! ## The steps of a drive -/

namespace OpinionHistory

/-- What a run keeps as long as no opinion is lost. -/
structure Collecting (history : OpinionHistory) : Prop where
  collects : history.CollectsReceived
  streams : ∀ task, history.flatDrive.task = some task → task.StreamCollectsNothing

variable {history : OpinionHistory} {flatDrive call : FlatDrive} {event : DriveEvent}

theorem streams_of_step
    (streams : ∀ task, history.flatDrive.task = some task → task.StreamCollectsNothing)
    (step : FlatDrive.flatDriveSystem.step history.flatDrive event = some flatDrive)
    (task : DriveTask) (isTask : flatDrive.task = some task) : task.StreamCollectsNothing := by
  cases FlatDrive.taskStep_of_step step with
  | idles _ stillIdle => cases stillIdle.symm.trans isTask
  | reacts isBefore isAfter reacts =>
      obtain rfl := Option.some.inj (isAfter.symm.trans isTask)
      exact (streams _ isBefore).reacts reacts
  | starts _ isAfter started =>
      obtain rfl := Option.some.inj (isAfter.symm.trans isTask)
      exact started.streamCollectsNothing
  | ends _ noTask => cases noTask.symm.trans isTask

/-- The next task has collected what was received about it if nothing was received. -/
theorem collects_of_call (collecting : history.Collecting)
    (isCall : history.flatDrive.nextTaskCall event = some call) :
    OpinionHistory.CollectsReceived { flatDrive := call.runNextTask, received := history.received } ↔
      ∀ request ∈ history.flatDrive.startedBy event, ∀ opinion ∈ history.received,
        request.transactionHash ≠ opinion.modifyTransactionHash := by
  have started : history.flatDrive.startedBy event = call.requestToStart.toList := by
    rw [FlatDrive.startedBy, isCall, Option.bind_some]
  rw [started]
  cases isNext : call.requestToStart with
  | some request =>
      obtain ⟨task, isTask, isCollected⟩ := FlatDrive.collected_runNextTask isNext
      constructor
      · intro collects started isStarted opinion received about
        obtain rfl : started = request := by simpa using isStarted
        rcases collects task isTask _ isCollected opinion received about with isThere | ⟨own, isOwn, -⟩
        · simp at isThere
        · cases isOwn
      · intro unknown other isOther collected isOtherCollected opinion received about
        obtain rfl := Option.some.inj (isTask.symm.trans isOther)
        obtain rfl := Option.some.inj (isCollected.symm.trans isOtherCollected)
        exact absurd about (unknown request (by simp) opinion received)
  | none =>
      refine iff_of_true ?_ (by simp)
      intro task isTask collected isCollected opinion received about
      by_cases stopped : call.drive.replicatorIsStopped = true
      · have same : call.runNextTask = call := if_pos stopped
        rw [same, Option.mem_def, (FlatDrive.task_of_nextTaskCall isCall).1] at isTask
        exact collecting.collects task isTask collected isCollected opinion received about
      · obtain ⟨request, serves, -⟩ := FlatDrive.serves_of_collected isTask isCollected
        cases isNext.symm.trans (FlatDrive.requestToStart_of_serves stopped serves)

/-- The running task has collected what is received about it if it loses nothing. -/
theorem collects_of_running {task : DriveTask} {collected : CollectedOpinions}
    (collecting : history.Collecting) (isTask : history.flatDrive.task = some task)
    (isCollected : task.collected? = some collected)
    (noCall : history.flatDrive.nextTaskCall event = none)
    (step : FlatDrive.flatDriveSystem.step history.flatDrive event = some flatDrive) :
    OpinionHistory.CollectsReceived
        { flatDrive, received := history.received ++ event.opinions } ↔
      ∀ taskEvent ∈ event.taskEvent?, ∀ opinion ∈ history.received ++ event.opinions,
        task.Spares opinion taskEvent := by
  have earlier (opinion : ApprovalTransactionInfo) (received : opinion ∈ history.received)
      (about : collected.modification = opinion.modifyTransactionHash) : collected.Keeps opinion :=
    collecting.collects task isTask collected isCollected opinion received about
  obtain ⟨next, isNext, ⟨taskEvent, isEvent, handled⟩ | ⟨noEvent, same⟩⟩ :=
    FlatDrive.collected_of_noCall isTask (DriveTask.needsApproval isCollected) noCall
      (FlatDrive.handle_of_step step)
  · obtain ⟨later, isLater, sameModification, keeps_iff⟩ :=
      DriveTask.keeps_iff_spares (FlatDrive.fault_of_step step task isTask)
        (collecting.streams task isTask) handled isCollected
    have known (opinion : ApprovalTransactionInfo)
        (received : opinion ∈ history.received ++ event.opinions)
        (about : collected.modification = opinion.modifyTransactionHash) :
        collected.Keeps opinion ∨ taskEvent = .opinionReceived opinion := by
      rcases List.mem_append.mp received with before | now
      · exact .inl (earlier opinion before about)
      · exact .inr (Option.some.inj (isEvent.symm.trans (DriveEvent.taskEvent?_of_opinion now)))
    constructor
    · intro collects other isOther opinion received
      obtain rfl := Option.some.inj (isEvent.symm.trans isOther)
      by_cases about : collected.modification = opinion.modifyTransactionHash
      · exact (keeps_iff opinion about (known opinion received about)).mp
          (collects next isNext later isLater opinion received (sameModification.trans about))
      · exact DriveTask.spares_of_other isCollected about
    · intro spares other isOther otherCollected isOtherCollected opinion received about
      obtain rfl := Option.some.inj (isNext.symm.trans isOther)
      obtain rfl := Option.some.inj (isLater.symm.trans isOtherCollected)
      have aboutTask := sameModification.symm.trans about
      exact (keeps_iff opinion aboutTask (known opinion received aboutTask)).mpr
        (spares taskEvent isEvent opinion received)
  · refine iff_of_true ?_ (by simp [noEvent])
    intro other isOther otherCollected isOtherCollected opinion received about
    obtain rfl := Option.some.inj (isNext.symm.trans isOther)
    obtain rfl := Option.some.inj ((same.trans isCollected).symm.trans isOtherCollected)
    rcases List.mem_append.mp received with before | now
    · exact earlier opinion before about
    · cases noEvent.symm.trans (DriveEvent.taskEvent?_of_opinion now)

theorem collectsReceived_iff (collecting : history.Collecting)
    (step : FlatDrive.flatDriveSystem.step history.flatDrive event = some flatDrive) :
    OpinionHistory.CollectsReceived
        { flatDrive, received := history.received ++ event.opinions } ↔
      history.LosesNoOpinion event := by
  have losesNothing_iff : history.LosesNoOpinion event ↔
      (∀ request ∈ history.flatDrive.startedBy event, ∀ opinion ∈ history.received,
        request.transactionHash ≠ opinion.modifyTransactionHash) ∧
      ∀ task ∈ history.flatDrive.task, task.callsRunNextTask event = false →
        ∀ taskEvent ∈ event.taskEvent?, ∀ opinion ∈ history.received ++ event.opinions,
          task.Spares opinion taskEvent := by
    rw [LosesNoOpinion, step]
    exact ⟨fun loses => loses rfl, fun loses _ => loses⟩
  rw [losesNothing_iff]
  have handled := FlatDrive.handle_of_step step
  cases isCall : history.flatDrive.nextTaskCall event with
  | some call =>
      obtain rfl := Option.some.inj ((FlatDrive.handle_of_nextTaskCall isCall).symm.trans handled)
      rw [FlatDrive.opinions_of_call isCall, List.append_nil, collects_of_call collecting isCall]
      refine (and_iff_left ?_).symm
      intro task isTask noCall
      rw [(FlatDrive.task_of_nextTaskCall isCall).2.2 task isTask] at noCall
      cases noCall
  | none =>
      have noStart : history.flatDrive.startedBy event = [] := by
        rw [FlatDrive.startedBy, isCall]
        rfl
      rw [noStart]
      by_cases needs : ∃ task, history.flatDrive.task = some task ∧ task.NeedsApproval
      · obtain ⟨task, isTask, needs⟩ := needs
        obtain ⟨collected, isCollected⟩ := needs.collected
        rw [collects_of_running collecting isTask isCollected isCall step, isTask]
        simp [FlatDrive.callsRunNextTask_of_none isTask isCall]
      · refine iff_of_true ?_ ⟨by simp, ?_⟩
        · intro task isTask collected isCollected
          obtain ⟨request, ⟨later, isLater, serves⟩, -⟩ :=
            FlatDrive.serves_of_collected isTask isCollected
          obtain ⟨view, isView, same⟩ := (FlatDrive.handle_of_noCall isCall handled).2 later isLater
          exact absurd (FlatDrive.needsApproval_of_serves ⟨view, isView, same.trans serves⟩) needs
        · intro task isTask _ taskEvent _ opinion _
          cases task with
          | modification task => exact absurd ⟨_, isTask, .modification task⟩ needs
          | stream task => exact absurd ⟨_, isTask, .stream task⟩ needs
          | initialization | synchronization | cancellation | closure | manualModification => trivial

/-! ## The runs of a drive -/

/-- A drive that has just been created has received nothing. -/
def create (drive : DriveParams) (completedModifications : List CompletedModification)
    (actionListFiles : InfoHash → Option ActionListFile) : OpinionHistory where
  flatDrive := FlatDrive.create drive completedModifications actionListFiles

theorem collecting_create (drive : DriveParams) (completedModifications : List CompletedModification)
    (actionListFiles : InfoHash → Option ActionListFile) :
    (create drive completedModifications actionListFiles).Collecting where
  collects := by
    intro _ _ _ _ _ received
    cases received
  streams := by
    intro task isTask
    obtain rfl := Option.some.inj isTask
    trivial

theorem CollectsReceived.agreeing (collects : history.CollectsReceived) : history.CollectsAgreeing :=
  fun task isTask collected isCollected opinion received about =>
    (collects task isTask collected isCollected opinion received about).agreeing

/-- In every run of a drive the running task has collected all opinions about it that its own one
    does not disagree with, exactly if no step loses one. Then those that agree with the own one
    are collected at any time, whenever they were received. -/
theorem received_opinions_are_collected_iff (drive : DriveParams)
    (completedModifications : List CompletedModification)
    (actionListFiles : InfoHash → Option ActionListFile) (events : List DriveEvent) :
    (receivingSystem.Always CollectsReceived
        (create drive completedModifications actionListFiles) events ↔
      receivingSystem.Meets LosesNoOpinion
        (create drive completedModifications actionListFiles) events) ∧
    (receivingSystem.Meets LosesNoOpinion
        (create drive completedModifications actionListFiles) events →
      receivingSystem.Always CollectsAgreeing
        (create drive completedModifications actionListFiles) events) := by
  have preserved (history : OpinionHistory) (event : DriveEvent) (after : OpinionHistory)
      (collecting : history.Collecting) (loses : history.LosesNoOpinion event)
      (step : receivingSystem.step history event = some after) : after.Collecting := by
    obtain ⟨flatDrive, drives, rfl⟩ := Option.map_eq_some_iff.mp step
    exact ⟨(collectsReceived_iff collecting drives).mpr loses,
      streams_of_step collecting.streams drives⟩
  have starts := collecting_create drive completedModifications actionListFiles
  constructor
  · apply Transition.always_iff_meets (E := fun _ _ => True) (I := Collecting)
    · exact fun _ collecting => collecting.collects
    · exact fun history event after collecting _ => preserved history event after collecting
    · intro history event collecting _ loses
      cases step : FlatDrive.flatDriveSystem.step history.flatDrive event with
      | none =>
          refine absurd (fun enabled => ?_) loses
          rw [step] at enabled
          cases enabled
      | some flatDrive =>
          refine ⟨_, congrArg (Option.map _) step, ?_⟩
          exact mt (collectsReceived_iff collecting step).mp loses
    · exact starts
    · exact Transition.meets_of_forall fun _ _ => trivial
  · exact Transition.Always.of_invariant (fun _ collecting => collecting.collects.agreeing) preserved
      starts

/-! ## A sample drive -/

/-- The opinion of a replicator comes before the modification it is about is started. -/
def untilEarlyOpinion : List DriveEvent :=
  FlatDrive.untilCountedUploads.insertIdx 4 (.opinionReceived (ModifyDriveTask.sampleOpinion 1 8))

/-- A stream is running when the opinion about the modification comes that waits for its end. -/
def untilSwallowedOpinion : List DriveEvent :=
  FlatDrive.untilInitialized ++
    [.startStream StreamTask.sampleStreamRequest,
      .startModifyDrive { ModifyDriveTask.sampleRequest with transactionHash := 61 },
      .opinionReceived
        { ModifyDriveTask.sampleOpinion 1 8 with modifyTransactionHash := 61 }]

/-- The drive forms the same opinion as it has received early, and has not collected that one.
    What comes while a stream is running is not even queued. -/
theorem early_opinion_is_lost :
    receivingSystem.Reaches (fun history => ¬ history.CollectsAgreeing)
        { flatDrive := FlatDrive.sampleExpectingDrive } untilEarlyOpinion ∧
      receivingSystem.Reaches
        (fun history => history.received.length = 1 ∧
          history.flatDrive.unknownModificationOpinions.isEmpty = true)
        { flatDrive := FlatDrive.sampleFlatDrive } untilSwallowedOpinion := by
  decide +kernel

end OpinionHistory

end SiriusDrive
