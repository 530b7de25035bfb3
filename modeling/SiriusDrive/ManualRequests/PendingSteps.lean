import Mathlib.Data.Multiset.AddSub
import SiriusDrive.ManualRequests

/-! # The pending steps of a manual modification

What is queued for the two threads, without the steps that clean up after the task:
how each step of the task changes it.
-/

namespace SiriusDrive

/-! ## Pending steps -/

/-- The steps that clean up after the task. -/
def ManualSessionStep.isOfFinish : ManualSessionStep → Bool
  | .closeFiles | .finishTask | .runNextTask => true
  | _ => false

def ManualBackgroundStep.isOfFinish : ManualBackgroundStep → Bool
  | .closeStreams next => next.isOfFinish
  | .clearTrash | .clearSandbox => true
  | _ => false

/-- The steps of `applyStorageModifications`. -/
def ManualSessionStep.isOfApply : ManualSessionStep → Bool
  | .onNewTorrentAdded _ | .onAppliedStorageModifications _ => true
  | _ => false

def ManualBackgroundStep.isOfApply : ManualBackgroundStep → Bool
  | .closeStreams next => next.isOfApply
  | .addNewTorrentsToSession _ | .onUnusedTorrentsDeleted _ => true
  | _ => false

/-- What has been posted and has not been run. -/
inductive PendingStep where
  | background (step : ManualBackgroundStep)
  | session (step : ManualSessionStep)
  | removal (callback : RequestId)

def PendingStep.isOfApply : PendingStep → Bool
  | .background step => step.isOfApply
  | .session step => step.isOfApply
  | .removal _ => true

namespace ManualRequests

variable (requests : ManualRequests)

/-- The pending steps, without those of `finishTask`. -/
def otherSteps : Multiset PendingStep :=
  (requests.backgroundSteps.filter (!·.isOfFinish)).map PendingStep.background +
    ((requests.sessionSteps.filter (!·.isOfFinish)).map PendingStep.session +
      requests.removals.map PendingStep.removal : Multiset PendingStep)

/-- A storage modification is being applied. -/
def isApplying : Bool :=
  requests.backgroundSteps.any (·.isOfApply) || requests.sessionSteps.any (·.isOfApply) ||
    !requests.removals.isEmpty

/-! ## Queueing -/

section Queues

variable {requests : ManualRequests}

/-- A step that is queued last comes to the others if it is one of them. -/
theorem coe_filter_snoc {α β : Type*} (isOther : α → Bool) (f : α → β) (steps : List α)
    (step : α) :
    (((steps ++ [step]).filter isOther).map f : Multiset β) =
      if isOther step then f step ::ₘ ((steps.filter isOther).map f : Multiset β)
      else ((steps.filter isOther).map f : Multiset β) := by
  rw [List.filter_append, List.map_append]
  cases other : isOther step with
  | true =>
      have one : [step].filter isOther = [step] := by simp [other]
      rw [one, List.map_singleton, if_pos rfl, Multiset.cons_coe]
      exact Multiset.coe_eq_coe.mpr (List.perm_append_singleton _ _)
  | false =>
      have none : [step].filter isOther = [] := by simp [other]
      rw [none, List.map_nil, List.append_nil, if_neg Bool.false_ne_true]

theorem otherSteps_executeOnBackgroundThread (step : ManualBackgroundStep) :
    (requests.executeOnBackgroundThread step).otherSteps =
      if step.isOfFinish then requests.otherSteps
      else .background step ::ₘ requests.otherSteps := by
  rw [otherSteps, otherSteps, executeOnBackgroundThread, coe_filter_snoc]
  cases step.isOfFinish with
  | true => rfl
  | false => rw [Bool.not_false, if_pos rfl, if_neg Bool.false_ne_true, Multiset.cons_add]

theorem otherSteps_postFinishing {step : ManualBackgroundStep} (isOfFinish : step.isOfFinish = true) :
    (requests.executeOnBackgroundThread step).otherSteps = requests.otherSteps := by
  rw [otherSteps_executeOnBackgroundThread, if_pos isOfFinish]

theorem otherSteps_executeOnSessionThread (step : ManualSessionStep) :
    (requests.executeOnSessionThread step).otherSteps =
      if step.isOfFinish then requests.otherSteps
      else .session step ::ₘ requests.otherSteps := by
  rw [otherSteps, otherSteps, executeOnSessionThread, coe_filter_snoc]
  cases step.isOfFinish with
  | true => rfl
  | false =>
      rw [Bool.not_false, if_pos rfl, if_neg Bool.false_ne_true, Multiset.cons_add,
        Multiset.add_cons]

/-- The first step of the background thread is one of the steps of `finishTask` or one of the
    others. -/
theorem otherSteps_of_backgroundSteps {step : ManualBackgroundStep}
    {backgroundSteps : List ManualBackgroundStep}
    (posted : requests.backgroundSteps = step :: backgroundSteps) :
    requests.otherSteps =
      if step.isOfFinish then { requests with backgroundSteps }.otherSteps
      else .background step ::ₘ { requests with backgroundSteps }.otherSteps := by
  rw [otherSteps, otherSteps, posted, List.filter_cons]
  cases step.isOfFinish with
  | true => rfl
  | false => rfl

theorem otherSteps_of_sessionSteps {step : ManualSessionStep}
    {sessionSteps : List ManualSessionStep} (posted : requests.sessionSteps = step :: sessionSteps) :
    requests.otherSteps =
      if step.isOfFinish then { requests with sessionSteps }.otherSteps
      else .session step ::ₘ { requests with sessionSteps }.otherSteps := by
  rw [otherSteps, otherSteps, posted, List.filter_cons]
  cases step.isOfFinish with
  | true => rfl
  | false =>
      rw [Bool.not_false, if_pos rfl, if_neg Bool.false_ne_true, List.map_cons,
        ← Multiset.cons_coe, Multiset.cons_add, Multiset.add_cons]

theorem otherSteps_of_removals {index : Nat} {callback : RequestId}
    (removed : requests.removals[index]? = some callback) :
    requests.otherSteps = .removal callback ::ₘ
      { requests with removals := requests.removals.eraseIdx index }.otherSteps := by
  obtain ⟨inside, isCallback⟩ := List.getElem?_eq_some_iff.mp removed
  have perm : requests.removals.Perm (callback :: requests.removals.eraseIdx index) := by
    rw [← isCallback]
    exact (List.getElem_cons_eraseIdx_perm inside).symm
  rw [otherSteps, otherSteps, Multiset.coe_eq_coe.mpr (perm.map PendingStep.removal),
    List.map_cons, ← Multiset.cons_coe, Multiset.add_cons, Multiset.add_cons]

theorem otherSteps_finishTask : requests.finishTask.otherSteps = requests.otherSteps := by
  rw [finishTask]
  split
  · rfl
  · exact otherSteps_executeOnBackgroundThread _

theorem otherSteps_terminate : requests.terminate.otherSteps = requests.otherSteps := by
  simp only [terminate]
  split
  · rfl
  · split
    · exact otherSteps_finishTask
    · rfl

theorem isApplying_of_mem {step : PendingStep} (pending : step ∈ requests.otherSteps)
    (isOfApply : step.isOfApply = true) : requests.isApplying = true := by
  rw [otherSteps, Multiset.mem_add, Multiset.mem_add, Multiset.mem_coe, Multiset.mem_coe,
    Multiset.mem_coe] at pending
  rw [isApplying, Bool.or_eq_true, Bool.or_eq_true]
  rcases pending with isBackground | isSession | isRemoval
  · obtain ⟨posted, member, rfl⟩ := List.mem_map.mp isBackground
    left
    left
    exact List.any_eq_true.mpr ⟨posted, (List.mem_filter.mp member).1, isOfApply⟩
  · obtain ⟨posted, member, rfl⟩ := List.mem_map.mp isSession
    left
    right
    exact List.any_eq_true.mpr ⟨posted, (List.mem_filter.mp member).1, isOfApply⟩
  · obtain ⟨callback, member, rfl⟩ := List.mem_map.mp isRemoval
    right
    cases found : requests.removals with
    | nil => simp only [found, List.not_mem_nil] at member
    | cons => rfl

end Queues

/-! ## What the steps do -/

structure SamePending (requests after : ManualRequests) : Prop where
  backgroundSteps : after.backgroundSteps = requests.backgroundSteps
  sessionSteps : after.sessionSteps = requests.sessionSteps
  removals : after.removals = requests.removals
  isReset : after.isReset = requests.isReset

/-- Steps of `finishTask` are pending or have been run. -/
def isFinishing : Bool :=
  requests.backgroundSteps.any (·.isOfFinish) || requests.sessionSteps.any (·.isOfFinish) ||
    requests.isReset

section Cases

variable {requests after : ManualRequests}

theorem SamePending.otherSteps (same : SamePending requests after) :
    after.otherSteps = requests.otherSteps := by
  rw [ManualRequests.otherSteps, ManualRequests.otherSteps, same.backgroundSteps,
    same.sessionSteps, same.removals]

theorem SamePending.isFinishing (same : SamePending requests after) :
    after.isFinishing = requests.isFinishing := by
  rw [ManualRequests.isFinishing, ManualRequests.isFinishing, same.backgroundSteps,
    same.sessionSteps, same.isReset]

theorem isFinishing_executeOnBackgroundThread (step : ManualBackgroundStep) :
    (requests.executeOnBackgroundThread step).isFinishing =
      (requests.isFinishing || step.isOfFinish) := by
  simp only [isFinishing, executeOnBackgroundThread, List.any_append, List.any_cons,
    List.any_nil, Bool.or_false]
  ac_rfl

theorem isFinishing_executeOnSessionThread (step : ManualSessionStep) :
    (requests.executeOnSessionThread step).isFinishing =
      (requests.isFinishing || step.isOfFinish) := by
  simp only [isFinishing, executeOnSessionThread, List.any_append, List.any_cons,
    List.any_nil, Bool.or_false]
  ac_rfl

theorem task_finishTask : requests.finishTask.task.drive = requests.task.drive ∧
    requests.finishTask.task.taskIsFinished = true := by
  rw [finishTask]
  split
  · exact ⟨rfl, by assumption⟩
  · rename_i unfinished
    rw [executeOnBackgroundThread, ManualModificationsTask.finishTask, if_neg unfinished]
    exact ⟨rfl, rfl⟩

/-- What an accepted request does: it is answered, posts one step, or finishes the task. -/
inductive Accepted (requests : ManualRequests) (callback : RequestId) :
    ManualRequest → ManualRequests → Prop where
  | answered {request after} (task : after.task = requests.task)
      (same : SamePending requests after) : Accepted requests callback request after
  | posted {request after} (step : ManualBackgroundStep) (isOfApply : step.isOfApply = false)
      (isOfFinish : step.isOfFinish = false)
      (task : after.task = { requests.task with isExecutingQuery := true })
      (same : SamePending (requests.executeOnBackgroundThread step) after) :
      Accepted requests callback request after
  | applying (noSandbox : requests.hasUpperSandbox = false) :
      Accepted requests callback (.applyStorageModifications true)
        (requests.executeOnBackgroundThread (.addNewTorrentsToSession callback))
  | ended : Accepted requests callback (.applyStorageModifications false)
      (requests.reply callback).finishTask

theorem accepted_postIf {request : ManualRequest} (isPosted : Bool) (query : PostedQuery)
    (callback : RequestId) :
    Accepted requests callback request (requests.postIf isPosted query callback) := by
  rw [postIf]
  cases isPosted with
  | true => exact .posted (.query query callback) rfl rfl rfl ⟨rfl, rfl, rfl, rfl⟩
  | false => exact .answered rfl ⟨rfl, rfl, rfl, rfl⟩

theorem accepted_openFile {request : ManualRequest} (mode : OpenFileMode) (isFound : Bool)
    (callback : RequestId) :
    Accepted requests callback request (requests.openFile mode isFound callback) := by
  rw [openFile]
  by_cases isFull : requests.maxOpenedStreams ≤ requests.numOpenedStreams
  · rw [if_pos isFull]
    cases isFound with
    | true =>
        exact .posted (.query (.createStream mode requests.totalFilesOpened) callback) rfl rfl rfl
          ⟨rfl, rfl, rfl, rfl⟩
    | false => exact .answered rfl ⟨rfl, rfl, rfl, rfl⟩
  · rw [if_neg isFull]
    cases isFound with
    | true =>
        exact .posted (.query (.createStream mode requests.totalFilesOpened) callback) rfl rfl rfl
          ⟨rfl, rfl, rfl, rfl⟩
    | false => exact .answered rfl ⟨rfl, rfl, rfl, rfl⟩

theorem accepted_of_accept {callback : RequestId} {request : ManualRequest}
    (accepts : requests.accept callback request = some after) :
    Accepted requests callback request after := by
  cases request with
  | initiateSandboxModifications =>
      cases accepts
      exact .answered rfl ⟨rfl, rfl, rfl, rfl⟩
  | openFile mode isFound =>
      cases accepts
      exact accepted_openFile mode isFound callback
  | readFile | writeFile | flush | closeFile | removeFsTreeEntry | moveFsTreeEntry | fileSize =>
      cases accepts
      exact accepted_postIf _ _ callback
  | lookUp =>
      cases accepts
      exact .answered rfl ⟨rfl, rfl, rfl, rfl⟩
  | applySandboxModifications success =>
      rw [accept] at accepts
      split at accepts
      · cases accepts
        exact .posted (.closeStreams (.onSandboxModificationStreamsClosed success callback))
          rfl rfl rfl ⟨rfl, rfl, rfl, rfl⟩
      · cases accepts
  | evaluateStorageHash =>
      rw [accept] at accepts
      split at accepts
      · cases accepts
      · cases accepts
        exact .posted (.query .computeSandboxHash callback) rfl rfl rfl ⟨rfl, rfl, rfl, rfl⟩
  | applyStorageModifications success =>
      rw [accept] at accepts
      split at accepts
      · cases accepts
      · rename_i noSandbox
        cases accepts
        cases success with
        | true => exact .applying (Bool.eq_false_iff.mpr noSandbox)
        | false => exact .ended

theorem otherSteps_addRemoval (callback : RequestId) :
    { requests with removals := requests.removals ++ [callback] }.otherSteps =
      .removal callback ::ₘ requests.otherSteps := by
  have perm := (List.perm_append_singleton callback requests.removals).map PendingStep.removal
  rw [otherSteps, otherSteps, Multiset.coe_eq_coe.mpr perm, List.map_cons, ← Multiset.cons_coe,
    Multiset.add_cons, Multiset.add_cons]

/-- `rest` is what is left when a step is taken from a queue. -/
structure Popped (requests : ManualRequests) (step : PendingStep) (isOfFinish : Bool)
    (rest : ManualRequests) : Prop where
  task : rest.task = requests.task
  otherSteps : requests.otherSteps =
    if isOfFinish then rest.otherSteps else step ::ₘ rest.otherSteps
  isFinishing : requests.isFinishing = (rest.isFinishing || isOfFinish)

theorem popped_background {step : ManualBackgroundStep}
    {backgroundSteps : List ManualBackgroundStep}
    (posted : requests.backgroundSteps = step :: backgroundSteps) :
    Popped requests (.background step) step.isOfFinish { requests with backgroundSteps } := by
  refine ⟨rfl, otherSteps_of_backgroundSteps posted, ?_⟩
  simp only [isFinishing, posted, List.any_cons]
  ac_rfl

theorem popped_session {step : ManualSessionStep} {sessionSteps : List ManualSessionStep}
    (posted : requests.sessionSteps = step :: sessionSteps) :
    Popped requests (.session step) step.isOfFinish { requests with sessionSteps } := by
  refine ⟨rfl, otherSteps_of_sessionSteps posted, ?_⟩
  simp only [isFinishing, posted, List.any_cons]
  ac_rfl

theorem popped_removal {index : Nat} {callback : RequestId}
    (removed : requests.removals[index]? = some callback) :
    Popped requests (.removal callback) false
      { requests with removals := requests.removals.eraseIdx index } := by
  refine ⟨rfl, otherSteps_of_removals removed, ?_⟩
  rw [Bool.or_false]
  rfl

end Cases

end ManualRequests

end SiriusDrive
