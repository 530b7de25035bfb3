import SiriusDrive.ManualRequests.PendingSteps
import SiriusDrive.ModifyDriveTask.Approvals

/-! # Interrupting a manual modification

An interrupted task is finished at once unless `m_isExecutingQuery` says that one of
its steps is pending. The steps of a storage modification do not set this flag.
-/

namespace SiriusDrive

namespace ManualModificationsTask

/-- Some phases of a storage modification in turn. -/
def applyPhases : List ApplyPhase → ManualModificationsTask → Option ManualModificationsTask
  | [], task => some task
  | phase :: phases, task => (task.advanceApplying phase).bind (applyPhases phases)

theorem applyPhases_snoc {phases : List ApplyPhase} {phase : ApplyPhase}
    {task last : ManualModificationsTask} (before : applyPhases phases task = some last) :
    applyPhases (phases ++ [phase]) task = last.advanceApplying phase := by
  induction phases generalizing task with
  | nil =>
      cases before
      simp only [List.nil_append, applyPhases, Option.bind_fun_some]
  | cons first phases ih =>
      obtain ⟨next, isNext, later⟩ := Option.bind_eq_some_iff.mp before
      rw [List.cons_append, applyPhases, isNext, Option.bind_some]
      exact ih later

end ManualModificationsTask

/-- Nothing of a storage modification has been done to the drive. -/
structure DriveParams.Unapplied (before drive : DriveParams) : Prop where
  fsTree : drive.fsTree = before.fsTree
  rootHash : drive.rootHash = before.rootHash
  fsTreeLtHandle : drive.fsTreeLtHandle = before.fsTreeLtHandle
  lastApprovedModification : drive.lastApprovedModification = before.lastApprovedModification
  torrentHandleMap : drive.torrentHandleMap = before.torrentHandleMap
  approvedModification :
    drive.restartValues.approvedModification = before.restartValues.approvedModification

/-- A storage modification has been applied completely: the drive is what all of its phases
    in turn make of it. -/
def DriveParams.Applied (before drive : DriveParams) : Prop :=
  ∃ first last : ManualModificationsTask, before.Unapplied first.drive ∧
    first.applyPhases [.addNewTorrentsToSession, .onNewTorrentAdded, .onUnusedTorrentsDeleted,
      .onAppliedStorageModifications] = some last ∧ drive = last.drive

namespace ManualRequests

variable (requests : ManualRequests)

/-- The task is not finished, nor destroyed, while a step of it is pending. -/
def FinishesAlone : Prop :=
  requests.task.taskIsFinished = true ∨ requests.isReset = true → requests.otherSteps = 0

/-- The flag is set while a step is pending. -/
def FlagsPending : Prop :=
  requests.otherSteps ≠ 0 → requests.task.isExecutingQuery = true

/-- Between the steps a storage modification is applied completely or not at all. -/
def AppliesWholly (before : DriveParams) : Prop :=
  requests.otherSteps = 0 →
    before.Unapplied requests.task.drive ∨ before.Applied requests.task.drive

/-- Nothing interrupts a storage modification: no event, no request and no error of the file
    system. A task that has finished by itself gets no further request. -/
def LeavesApplying : ManualRequestsEvent → Prop
  | .request _ _ =>
      requests.isApplying = false ∧
        (requests.task.taskIsFinished = true → requests.task.taskIsInterrupted = true)
  | .interrupt _ => requests.isApplying = false
  | .runBackgroundStep (.exception _) => False
  | _ => True

/-- A storage modification is not applied: the task is destroyed or refuses the request, or an
    assertion fails. -/
def AppliesNothing : ManualRequestsEvent → Prop
  | .request _ (.applyStorageModifications true) =>
      requests.isReset = true ∨ requests.task.taskIsInterrupted = true ∨
        requests.task.isExecutingQuery = true ∨ requests.hasUpperSandbox = true
  | _ => True

end ManualRequests

/-! ## The stages of a task -/

def PendingStep.donePhases : PendingStep → Option (List ApplyPhase)
  | .background (.addNewTorrentsToSession _) => some []
  | .session (.onNewTorrentAdded _) => some [.addNewTorrentsToSession]
  | .removal _ | .background (.onUnusedTorrentsDeleted _) =>
      some [.addNewTorrentsToSession, .onNewTorrentAdded]
  | .session (.onAppliedStorageModifications _) =>
      some [.addNewTorrentsToSession, .onNewTorrentAdded, .onUnusedTorrentsDeleted]
  | _ => none

theorem PendingStep.isOfApply_of_donePhases {step : PendingStep} {phases : List ApplyPhase}
    (done : step.donePhases = some phases) : step.isOfApply = true := by
  unfold donePhases at done
  split at done
  · rfl
  · rfl
  · rfl
  · rfl
  · rfl
  · cases done

namespace ManualRequests

structure QueryAt (before : DriveParams) (task : ManualModificationsTask) (step : PendingStep) :
    Prop where
  isOfApply : step.isOfApply = false
  isExecuting : task.isExecutingQuery = true
  unfinished : task.taskIsFinished = false
  unapplied : before.Unapplied task.drive

/-- A storage modification is being applied. -/
structure ApplyingAt (before : DriveParams) (task : ManualModificationsTask) (step : PendingStep) :
    Prop where
  unfinished : task.taskIsFinished = false
  running : task.taskIsInterrupted = false
  progress : ∃ (first : ManualModificationsTask) (phases : List ApplyPhase),
    before.Unapplied first.drive ∧ step.donePhases = some phases ∧
      first.applyPhases phases = some task

/-- At most one step is pending that is not one of `finishTask`. -/
inductive Stage (before : DriveParams) (task : ManualModificationsTask) :
    Multiset PendingStep → Prop where
  | idle (settled : before.Unapplied task.drive ∨ task.taskIsFinished = true ∧
      before.Applied task.drive) : Stage before task 0
  | query {step} (pending : QueryAt before task step) : Stage before task {step}
  | applying {step} (pending : ApplyingAt before task step) : Stage before task {step}

/-- The invariant of the runs in which nothing interrupts a storage modification. -/
structure Coherent (before : DriveParams) (requests : ManualRequests) : Prop where
  stage : Stage before requests.task requests.otherSteps
  finishing : requests.isFinishing = true → requests.task.taskIsFinished = true

section Stages

variable {before : DriveParams} {task : ManualModificationsTask} {requests after : ManualRequests}

theorem Stage.single {step : PendingStep} {rest : Multiset PendingStep}
    (stage : Stage before task (step ::ₘ rest)) :
    rest = 0 ∧ (QueryAt before task step ∨ ApplyingAt before task step) := by
  generalize posted : step ::ₘ rest = steps at stage
  cases stage with
  | idle => exact absurd posted (Multiset.cons_ne_zero)
  | query pending =>
      obtain ⟨rfl, rfl⟩ := (Multiset.singleton_eq_cons_iff rest).mp posted.symm
      exact ⟨rfl, .inl pending⟩
  | applying pending =>
      obtain ⟨rfl, rfl⟩ := (Multiset.singleton_eq_cons_iff rest).mp posted.symm
      exact ⟨rfl, .inr pending⟩

theorem Stage.of_finished {steps : Multiset PendingStep} (stage : Stage before task steps)
    (finished : task.taskIsFinished = true) : steps = 0 := by
  cases stage with
  | idle => rfl
  | query pending => exact absurd (finished.symm.trans pending.unfinished) (by decide)
  | applying pending => exact absurd (finished.symm.trans pending.unfinished) (by decide)

theorem ApplyingAt.advance {step next : PendingStep} {phase : ApplyPhase}
    {phases : List ApplyPhase} {advanced : ManualModificationsTask}
    (pending : ApplyingAt before task step) (done : step.donePhases = some phases)
    (isNext : next.donePhases = some (phases ++ [phase]))
    (advances : task.advanceApplying phase = some advanced)
    (unfinished : advanced.taskIsFinished = task.taskIsFinished)
    (running : advanced.taskIsInterrupted = task.taskIsInterrupted) :
    ApplyingAt before advanced next := by
  obtain ⟨first, others, unapplied, areDone, run⟩ := pending.progress
  obtain rfl := Option.some.inj (done.symm.trans areDone)
  refine ⟨unfinished.trans pending.unfinished, running.trans pending.running, first, _, unapplied,
    isNext, ?_⟩
  rw [ManualModificationsTask.applyPhases_snoc run]
  exact advances

theorem Coherent.congr (coherent : Coherent before requests) (same : SamePending requests after)
    (task : after.task = requests.task) : Coherent before after := by
  constructor
  · rw [task, same.otherSteps]
    exact coherent.stage
  · rw [task, same.isFinishing]
    exact coherent.finishing

theorem Coherent.finishTask (coherent : Coherent before requests)
    (alone : requests.otherSteps = 0) : Coherent before requests.finishTask := by
  obtain ⟨drive, finished⟩ := @task_finishTask requests
  constructor
  · rw [otherSteps_finishTask, alone]
    have stage := coherent.stage
    rw [alone] at stage
    generalize isEmpty : (0 : Multiset PendingStep) = steps at stage
    cases stage with
    | idle settled =>
        apply Stage.idle
        rw [drive, finished]
        rcases settled with unapplied | ⟨_, applied⟩
        · exact .inl unapplied
        · exact .inr ⟨rfl, applied⟩
    | query => exact absurd isEmpty.symm (Multiset.singleton_ne_zero _)
    | applying => exact absurd isEmpty.symm (Multiset.singleton_ne_zero _)
  · intro _
    exact finished

theorem coherent_executeOnBackgroundThread {step : ManualBackgroundStep}
    (alone : requests.otherSteps = 0) (unfinished : requests.isFinishing = false)
    (isOfFinish : step.isOfFinish = false)
    (stage : Stage before requests.task {.background step}) :
    Coherent before (requests.executeOnBackgroundThread step) := by
  constructor
  · rw [otherSteps_executeOnBackgroundThread, alone, isOfFinish, if_neg Bool.false_ne_true]
    exact stage
  · rw [isFinishing_executeOnBackgroundThread, unfinished, isOfFinish]
    exact fun isTrue => absurd isTrue Bool.false_ne_true

theorem coherent_executeOnSessionThread {step : ManualSessionStep}
    (alone : requests.otherSteps = 0) (unfinished : requests.isFinishing = false)
    (isOfFinish : step.isOfFinish = false)
    (stage : Stage before requests.task {.session step}) :
    Coherent before (requests.executeOnSessionThread step) := by
  constructor
  · rw [otherSteps_executeOnSessionThread, alone, isOfFinish, if_neg Bool.false_ne_true]
    exact stage
  · rw [isFinishing_executeOnSessionThread, unfinished, isOfFinish]
    exact fun isTrue => absurd isTrue Bool.false_ne_true

theorem Coherent.postFinishing (coherent : Coherent before requests)
    (finished : requests.task.taskIsFinished = true) {next : ManualSessionStep}
    (isOfFinish : next.isOfFinish = true) :
    Coherent before (requests.executeOnSessionThread next) := by
  constructor
  · rw [otherSteps_executeOnSessionThread, if_pos isOfFinish]
    exact coherent.stage
  · intro _
    exact finished

theorem Coherent.unfinished (coherent : Coherent before requests)
    (unfinished : requests.task.taskIsFinished = false) : requests.isFinishing = false := by
  apply Bool.eq_false_iff.mpr
  intro finishing
  exact absurd ((coherent.finishing finishing).symm.trans unfinished) (by decide)

theorem Coherent.request (coherent : Coherent before requests) {callback : RequestId}
    {request : ManualRequest} (notApplying : requests.isApplying = false)
    (running : requests.task.taskIsFinished = true → requests.task.taskIsInterrupted = true)
    (step : requests.request callback request = some after) : Coherent before after := by
  rw [ManualRequests.request] at step
  split at step
  · cases step
  rename_i asserted
  rw [Bool.or_eq_true, not_or, Bool.not_eq_true] at asserted
  split at step
  · cases step
    exact coherent.congr ⟨rfl, rfl, rfl, rfl⟩ rfl
  rename_i isRunning
  have unfinished : requests.task.taskIsFinished = false :=
    Bool.eq_false_iff.mpr fun finished => isRunning (running finished)
  have idle : requests.otherSteps = 0 ∧ before.Unapplied requests.task.drive := by
    have stage := coherent.stage
    generalize posted : requests.otherSteps = steps at stage
    cases stage with
    | idle settled =>
        refine ⟨rfl, ?_⟩
        rcases settled with unapplied | ⟨finished, _⟩
        · exact unapplied
        · exact absurd (finished.symm.trans unfinished) (by decide)
    | query pending => exact absurd (pending.isExecuting.symm.trans asserted.1) (by decide)
    | @applying posted' pending =>
        obtain ⟨_, _, _, done, _⟩ := pending.progress
        have isPending : posted' ∈ requests.otherSteps := by
          rw [posted]
          exact Multiset.mem_singleton_self _
        have applying := isApplying_of_mem isPending (PendingStep.isOfApply_of_donePhases done)
        exact absurd (applying.symm.trans notApplying) (by decide)
  have notFinishing := coherent.unfinished unfinished
  cases accepted_of_accept step with
  | answered task same => exact coherent.congr same task
  | posted posted isOfApply isOfFinish task same =>
      constructor
      · rw [same.otherSteps, otherSteps_executeOnBackgroundThread, idle.1, isOfFinish,
          if_neg Bool.false_ne_true, task]
        exact .query ⟨isOfApply, rfl, unfinished, idle.2⟩
      · rw [same.isFinishing, isFinishing_executeOnBackgroundThread, notFinishing, isOfFinish]
        exact fun isTrue => absurd isTrue Bool.false_ne_true
  | applying =>
      apply coherent_executeOnBackgroundThread idle.1 notFinishing rfl
      exact .applying ⟨unfinished, Bool.eq_false_iff.mpr isRunning, requests.task, [], idle.2, rfl,
        rfl⟩
  | ended =>
      have answered : Coherent before (requests.reply callback) :=
        coherent.congr ⟨rfl, rfl, rfl, rfl⟩ rfl
      exact answered.finishTask idle.1

theorem Coherent.not_applying (coherent : Coherent before requests)
    (notApplying : requests.isApplying = false) :
    requests.otherSteps = 0 ∨ ∃ step, requests.otherSteps = {step} ∧
      QueryAt before requests.task step := by
  have stage := coherent.stage
  generalize posted : requests.otherSteps = steps at stage
  cases stage with
  | idle => exact .inl rfl
  | query pending => exact .inr ⟨_, rfl, pending⟩
  | @applying step pending =>
      obtain ⟨_, _, _, done, _⟩ := pending.progress
      have isPending : step ∈ requests.otherSteps := by
        rw [posted]
        exact Multiset.mem_singleton_self _
      have applying := isApplying_of_mem isPending (PendingStep.isOfApply_of_donePhases done)
      exact absurd (applying.symm.trans notApplying) (by decide)

theorem Coherent.terminate (coherent : Coherent before requests)
    (notApplying : requests.isApplying = false) : Coherent before requests.terminate := by
  have cases := coherent.not_applying notApplying
  have interrupted : Coherent before
      { requests with task := { requests.task with taskIsInterrupted := true } } := by
    constructor
    · have stage := coherent.stage
      rcases cases with idle | ⟨step, isStep, pending⟩
      · change Stage before _ requests.otherSteps
        rw [idle] at stage ⊢
        generalize isEmpty : (0 : Multiset PendingStep) = steps at stage
        cases stage with
        | idle settled => exact .idle settled
        | query => exact absurd isEmpty.symm (Multiset.singleton_ne_zero _)
        | applying => exact absurd isEmpty.symm (Multiset.singleton_ne_zero _)
      · change Stage before _ requests.otherSteps
        rw [isStep]
        exact .query ⟨pending.isOfApply, pending.isExecuting, pending.unfinished,
          pending.unapplied⟩
    · exact coherent.finishing
  simp only [ManualRequests.terminate]
  split
  · exact coherent
  split
  · rename_i notExecuting
    apply interrupted.finishTask
    rcases cases with idle | ⟨step, _, pending⟩
    · exact idle
    · rw [pending.isExecuting] at notExecuting
      cases notExecuting
  · exact interrupted

variable {rest : ManualRequests} {step : PendingStep}

theorem Popped.finish (popped : Popped requests step true rest)
    (coherent : Coherent before requests) :
    Coherent before rest ∧ rest.task.taskIsFinished = true := by
  have finished : requests.task.taskIsFinished = true := by
    apply coherent.finishing
    rw [popped.isFinishing, Bool.or_true]
  have others : requests.otherSteps = rest.otherSteps := popped.otherSteps
  rw [← popped.task] at finished
  refine ⟨⟨?_, fun _ => finished⟩, finished⟩
  rw [← others, popped.task]
  exact coherent.stage

/-- A step that is none of `finishTask` was the only one. -/
structure Alone (before : DriveParams) (rest : ManualRequests) (step : PendingStep) : Prop where
  otherSteps : rest.otherSteps = 0
  notFinishing : rest.isFinishing = false
  pending : QueryAt before rest.task step ∨ ApplyingAt before rest.task step

theorem Popped.other (popped : Popped requests step false rest)
    (coherent : Coherent before requests) : Alone before rest step := by
  have stage := coherent.stage
  have others : requests.otherSteps = step ::ₘ rest.otherSteps := popped.otherSteps
  rw [others, ← popped.task] at stage
  obtain ⟨isEmpty, pending⟩ := stage.single
  refine ⟨isEmpty, ?_, pending⟩
  have unfinished : requests.task.taskIsFinished = false := by
    rw [← popped.task]
    rcases pending with query | applying
    · exact query.unfinished
    · exact applying.unfinished
  have notFinishing := coherent.unfinished unfinished
  rw [popped.isFinishing, Bool.or_false] at notFinishing
  exact notFinishing

theorem Alone.query (alone : Alone before rest step) (isOfApply : step.isOfApply = false) :
    QueryAt before rest.task step := by
  rcases alone.pending with query | applying
  · exact query
  · obtain ⟨_, _, _, done, _⟩ := applying.progress
    exact absurd ((PendingStep.isOfApply_of_donePhases done).symm.trans isOfApply) (by decide)

theorem Alone.applying (alone : Alone before rest step) (isOfApply : step.isOfApply = true) :
    ApplyingAt before rest.task step := by
  rcases alone.pending with query | applying
  · exact absurd (isOfApply.symm.trans query.isOfApply) (by decide)
  · exact applying

theorem Alone.postSession (alone : Alone before rest step) (isOfApply : step.isOfApply = false)
    {next : ManualSessionStep} (isOfFinish : next.isOfFinish = false)
    (notOfApply : next.isOfApply = false) : Coherent before (rest.executeOnSessionThread next) := by
  have query := alone.query isOfApply
  apply coherent_executeOnSessionThread alone.otherSteps alone.notFinishing isOfFinish
  exact .query ⟨notOfApply, query.isExecuting, query.unfinished, query.unapplied⟩

theorem flags_of_advanceApplying {phase : ApplyPhase} {advanced : ManualModificationsTask}
    (notLast : phase ≠ .onAppliedStorageModifications)
    (advances : task.advanceApplying phase = some advanced) :
    advanced.taskIsFinished = task.taskIsFinished ∧
      advanced.taskIsInterrupted = task.taskIsInterrupted := by
  cases phase with
  | addNewTorrentsToSession | onNewTorrentAdded | removeTorrents | onUnusedTorrentsDeleted =>
      cases advances
      exact ⟨rfl, rfl⟩
  | onAppliedStorageModifications => exact absurd rfl notLast

theorem Alone.advance (alone : Alone before rest step) {phase : ApplyPhase}
    {phases : List ApplyPhase} {next : PendingStep} {advanced : ManualRequests}
    (done : step.donePhases = some phases) (isNext : next.donePhases = some (phases ++ [phase]))
    (notLast : phase ≠ .onAppliedStorageModifications)
    (advances : rest.advanceApplying phase = some advanced) :
    SamePending rest advanced ∧ ApplyingAt before advanced.task next := by
  obtain ⟨advancedTask, advancesTask, rfl⟩ := Option.map_eq_some_iff.mp advances
  obtain ⟨unfinished, running⟩ := flags_of_advanceApplying notLast advancesTask
  have applying := alone.applying (PendingStep.isOfApply_of_donePhases done)
  exact ⟨⟨rfl, rfl, rfl, rfl⟩, applying.advance done isNext advancesTask unfinished running⟩

theorem Alone.advanceToSession (alone : Alone before rest step) {phase : ApplyPhase}
    {phases : List ApplyPhase} {next : ManualSessionStep} {advanced : ManualRequests}
    (done : step.donePhases = some phases)
    (isNext : (PendingStep.session next).donePhases = some (phases ++ [phase]))
    (isOfFinish : next.isOfFinish = false) (notLast : (phase == .onAppliedStorageModifications) = false)
    (advances : rest.advanceApplying phase = some advanced) :
    Coherent before (advanced.executeOnSessionThread next) := by
  obtain ⟨same, applying⟩ := alone.advance done isNext (ne_of_beq_false notLast) advances
  apply coherent_executeOnSessionThread
  · rw [same.otherSteps]
    exact alone.otherSteps
  · rw [same.isFinishing]
    exact alone.notFinishing
  · exact isOfFinish
  · exact .applying applying

/-- What the background thread does to one step keeps at most one pending. -/
theorem Coherent.runBackgroundStep {step : ManualBackgroundStep}
    {backgroundSteps : List ManualBackgroundStep} {outcome : ManualOutcome}
    (coherent : Coherent before requests)
    (posted : requests.backgroundSteps = step :: backgroundSteps)
    (noException : ∀ valuesAreSaved, outcome ≠ .exception valuesAreSaved)
    (run : { requests with backgroundSteps }.runBackgroundStep step outcome = some after) :
    Coherent before after := by
  have popped := popped_background posted
  generalize { requests with backgroundSteps } = rest at run popped
  unfold ManualRequests.runBackgroundStep at run
  split at run
  · rename_i callback fsTree rootHash
    cases run
    have alone := popped.other coherent
    have query := alone.query rfl
    have same := query.unapplied
    have unapplied : before.Unapplied (rest.task.computeSandboxHash fsTree rootHash).drive :=
      ⟨same.fsTree, same.rootHash, same.fsTreeLtHandle, same.lastApprovedModification,
        same.torrentHandleMap, same.approvedModification⟩
    exact @coherent_executeOnSessionThread before
      { rest with task := rest.task.computeSandboxHash fsTree rootHash } _ alone.otherSteps
      alone.notFinishing rfl (.query ⟨rfl, query.isExecuting, query.unfinished, unapplied⟩)
  · split at run
    · cases run
    · cases run
      exact (popped.other coherent).postSession rfl rfl rfl
  · rename_i next isDone
    cases run
    cases isOfFinish : next.isOfFinish with
    | true =>
        have isFinish : (ManualBackgroundStep.closeStreams next).isOfFinish = true := isOfFinish
        rw [isFinish] at popped
        obtain ⟨left, finished⟩ := popped.finish coherent
        exact left.postFinishing finished isOfFinish
    | false =>
        have notFinish : (ManualBackgroundStep.closeStreams next).isOfFinish = false := isOfFinish
        rw [notFinish] at popped
        have alone := popped.other coherent
        have notOfApply : next.isOfApply = false := by
          rcases alone.pending with query | applying
          · exact query.isOfApply
          · obtain ⟨_, _, _, done, _⟩ := applying.progress
            cases done
        exact alone.postSession notOfApply isOfFinish notOfApply
  · cases run
    exact (popped.other coherent).postSession rfl rfl rfl
  · rename_i callback isDone
    obtain ⟨advanced, advances, rfl⟩ := Option.map_eq_some_iff.mp run
    exact (popped.other coherent).advanceToSession rfl rfl rfl rfl advances
  · rename_i callback isDone
    obtain ⟨advanced, advances, rfl⟩ := Option.map_eq_some_iff.mp run
    exact (popped.other coherent).advanceToSession rfl rfl rfl rfl advances
  · exact absurd rfl (noException _)
  · cases run
    obtain ⟨left, finished⟩ := popped.finish coherent
    exact left.postFinishing finished rfl
  · cases run
    obtain ⟨left, finished⟩ := popped.finish coherent
    exact left.postFinishing finished rfl
  · cases run

/-- Nothing is pending, and the task goes on. -/
structure Idle (before : DriveParams) (requests : ManualRequests) : Prop where
  otherSteps : requests.otherSteps = 0
  notFinishing : requests.isFinishing = false
  unfinished : requests.task.taskIsFinished = false
  unapplied : before.Unapplied requests.task.drive

theorem Idle.coherent (idle : Idle before requests) : Coherent before requests := by
  constructor
  · rw [idle.otherSteps]
    exact .idle (.inl idle.unapplied)
  · intro finishing
    exact absurd (finishing.symm.trans idle.notFinishing) (by decide)

/-- A step of a query finishes an interrupted task, with nothing else pending. -/
theorem Alone.resume (alone : Alone before rest step) (isOfApply : step.isOfApply = false)
    {callback : RequestId} {next : ManualRequests → ManualRequests}
    (resumed : rest.resume callback next = some after)
    (goesOn : ∀ left, Idle before left → left.task.taskIsInterrupted = false →
      Coherent before (next left)) : Coherent before after := by
  have query := alone.query isOfApply
  have idle : Idle before (rest.setExecutingQuery false) :=
    ⟨alone.otherSteps, alone.notFinishing, query.unfinished, query.unapplied⟩
  simp only [ManualRequests.resume] at resumed
  split at resumed
  · cases resumed
  split at resumed
  · cases resumed
    have answered : Coherent before ((rest.setExecutingQuery false).reply callback) :=
      idle.coherent.congr ⟨rfl, rfl, rfl, rfl⟩ rfl
    exact answered.finishTask idle.otherSteps
  · rename_i running
    cases resumed
    exact goesOn _ idle (Bool.eq_false_iff.mpr running)

theorem endQuery_same (isDone : Bool) (callback : RequestId) (query : PostedQuery) :
    SamePending requests (requests.endQuery isDone callback query) ∧
      (requests.endQuery isDone callback query).task = requests.task := by
  cases query with
  | createStream mode =>
      cases isDone with
      | true =>
          cases mode with
          | read => exact ⟨⟨rfl, rfl, rfl, rfl⟩, rfl⟩
          | write => exact ⟨⟨rfl, rfl, rfl, rfl⟩, rfl⟩
      | false => exact ⟨⟨rfl, rfl, rfl, rfl⟩, rfl⟩
  | closeStream fileId =>
      simp only [endQuery]
      split
      · exact ⟨⟨rfl, rfl, rfl, rfl⟩, rfl⟩
      split
      · exact ⟨⟨rfl, rfl, rfl, rfl⟩, rfl⟩
      · exact ⟨⟨rfl, rfl, rfl, rfl⟩, rfl⟩
  | readStream | writeStream | flushStream | removeUnusedFiles | obtainFileSize
  | computeSandboxHash => exact ⟨⟨rfl, rfl, rfl, rfl⟩, rfl⟩

theorem onAppliedSandboxModifications_of_running (accepted : Option FsTree)
    (running : task.taskIsInterrupted = false) :
    (task.onAppliedSandboxModifications accepted).drive = task.drive ∧
      (task.onAppliedSandboxModifications accepted).taskIsFinished = task.taskIsFinished := by
  rw [ManualModificationsTask.onAppliedSandboxModifications, running, if_neg Bool.false_ne_true]
  exact ⟨rfl, rfl⟩

/-- The last step of a storage modification: the drive is what all phases make of it. -/
theorem Alone.applied {callback : RequestId} {task : ManualModificationsTask}
    (alone : Alone before rest (.session (.onAppliedStorageModifications callback)))
    (applies : rest.task.onAppliedStorageModifications = some task) :
    before.Applied task.drive ∧ task.taskIsFinished = true := by
  have applying := alone.applying rfl
  obtain ⟨first, phases, unapplied, done, run⟩ := applying.progress
  cases done
  refine ⟨⟨first, task, unapplied, ?_, rfl⟩, ?_⟩
  · have all := @ManualModificationsTask.applyPhases_snoc _ .onAppliedStorageModifications _ _ run
    exact all.trans applies
  · rw [ManualModificationsTask.onAppliedStorageModifications] at applies
    split at applies
    · cases applies
      rw [ManualModificationsTask.finishTask]
      split
      · assumption
      · rfl
    · cases applies

theorem Coherent.closeFiles (coherent : Coherent before requests)
    (finished : requests.task.taskIsFinished = true) :
    Coherent before (requests.closeFiles .finishTask) := by
  constructor
  · rw [ManualRequests.closeFiles, otherSteps_postFinishing rfl]
    change Stage before _ requests.otherSteps
    have stage := coherent.stage
    generalize requests.otherSteps = steps at stage ⊢
    cases stage with
    | idle settled => exact .idle settled
    | query pending => exact absurd (finished.symm.trans pending.unfinished) (by decide)
    | applying pending => exact absurd (finished.symm.trans pending.unfinished) (by decide)
  · intro _
    exact finished

theorem Coherent.runSessionStep {step : ManualSessionStep}
    {sessionSteps : List ManualSessionStep}
    (coherent : Coherent before requests)
    (posted : requests.sessionSteps = step :: sessionSteps)
    (run : { requests with sessionSteps }.runSessionStep step = some after) :
    Coherent before after := by
  have popped := popped_session posted
  generalize { requests with sessionSteps } = rest at run popped
  cases step with
  | queryFinished query isDone callback =>
      rw [ManualRequests.runSessionStep] at run
      apply (popped.other coherent).resume rfl run
      intro left idle _
      obtain ⟨same, task⟩ := endQuery_same isDone callback query
      exact idle.coherent.congr same task
  | onSandboxModificationStreamsClosed success callback =>
      rw [ManualRequests.runSessionStep] at run
      apply (popped.other coherent).resume rfl run
      intro left idle _
      exact @coherent_executeOnBackgroundThread before (left.setExecutingQuery true) _
        idle.otherSteps idle.notFinishing rfl (.query ⟨rfl, rfl, idle.unfinished, idle.unapplied⟩)
  | onAppliedSandboxModifications accepted callback =>
      rw [ManualRequests.runSessionStep] at run
      apply (popped.other coherent).resume rfl run
      intro left idle running
      obtain ⟨drive, unfinished⟩ := onAppliedSandboxModifications_of_running accepted running
      have unapplied :
          before.Unapplied (left.task.onAppliedSandboxModifications accepted).drive := by
        rw [drive]
        exact idle.unapplied
      have settled : Idle before
          ({ left with
            task := left.task.onAppliedSandboxModifications accepted
            hasUpperSandbox := false }.reply callback) :=
        ⟨idle.otherSteps, idle.notFinishing, unfinished.trans idle.unfinished, unapplied⟩
      exact settled.coherent
  | onNewTorrentAdded callback =>
      rw [ManualRequests.runSessionStep] at run
      obtain ⟨advanced, advances, rfl⟩ := Option.map_eq_some_iff.mp run
      have alone := popped.other coherent
      have isNext : (PendingStep.removal callback).donePhases =
          some ([.addNewTorrentsToSession] ++ [.onNewTorrentAdded]) := rfl
      obtain ⟨same, applying⟩ := alone.advance rfl isNext (by decide) advances
      constructor
      · rw [otherSteps_addRemoval, same.otherSteps, alone.otherSteps]
        exact .applying applying
      · intro finishing
        have notFinishing := same.isFinishing.trans alone.notFinishing
        exact absurd (finishing.symm.trans notFinishing) (by decide)
  | onAppliedStorageModifications callback =>
      have alone := popped.other coherent
      rw [ManualRequests.runSessionStep] at run
      split at run
      · rename_i task applies
        obtain ⟨applied, finished⟩ := alone.applied applies
        have unfinished := (alone.applying rfl).unfinished
        simp only [unfinished, if_neg Bool.false_ne_true] at run
        cases run
        constructor
        · rw [otherSteps_postFinishing rfl]
          change Stage before task rest.otherSteps
          rw [alone.otherSteps]
          exact .idle (.inr ⟨finished, applied⟩)
        · intro _
          exact finished
      · cases run
  | closeFiles =>
      cases run
      obtain ⟨left, finished⟩ := popped.finish coherent
      exact left.closeFiles finished
  | finishTask =>
      cases run
      obtain ⟨left, finished⟩ := popped.finish coherent
      constructor
      · rw [otherSteps_postFinishing rfl]
        exact left.stage
      · intro _
        exact finished
  | runNextTask =>
      cases run
      obtain ⟨left, finished⟩ := popped.finish coherent
      exact ⟨left.stage, fun _ => finished⟩

theorem Coherent.torrentsRemoved {index : Nat} {callback : RequestId}
    (coherent : Coherent before requests)
    (removed : requests.removals[index]? = some callback) :
    Coherent before ({ requests with
      removals := requests.removals.eraseIdx index }.executeOnBackgroundThread
        (.onUnusedTorrentsDeleted callback)) := by
  have alone := (popped_removal removed).other coherent
  apply coherent_executeOnBackgroundThread alone.otherSteps alone.notFinishing rfl
  have applying := alone.applying rfl
  obtain ⟨first, phases, unapplied, done, run⟩ := applying.progress
  exact .applying ⟨applying.unfinished, applying.running, first, phases, unapplied, done, run⟩

theorem Coherent.of_step {event : ManualRequestsEvent} (coherent : Coherent before requests)
    (leaves : requests.LeavesApplying event)
    (step : manualRequestsSystem.step requests event = some after) : Coherent before after := by
  simp only [manualRequestsSystem] at step
  split at step
  · cases step
  cases event with
  | request callback request => exact coherent.request leaves.1 leaves.2 step
  | interrupt interruption =>
      cases step
      exact coherent.terminate leaves
  | runBackgroundStep outcome =>
      rw [handle] at step
      split at step
      · rename_i posted
        apply coherent.runBackgroundStep posted _ step
        rintro valuesAreSaved rfl
        exact leaves
      · cases step
  | runSessionStep =>
      rw [handle] at step
      split at step
      · rename_i posted
        exact coherent.runSessionStep posted step
      · cases step
  | torrentsRemoved index =>
      rw [handle] at step
      split at step
      · rename_i removed
        cases step
        exact coherent.torrentsRemoved removed
      · cases step

theorem Coherent.finishesAlone (coherent : Coherent before requests) :
    requests.FinishesAlone := by
  rintro (finished | isReset)
  · exact coherent.stage.of_finished finished
  · apply coherent.stage.of_finished
    apply coherent.finishing
    rw [isFinishing, isReset, Bool.or_true]

theorem Coherent.appliesWholly (coherent : Coherent before requests) :
    requests.AppliesWholly before := by
  intro alone
  have stage := coherent.stage
  rw [alone] at stage
  generalize isEmpty : (0 : Multiset PendingStep) = steps at stage
  cases stage with
  | idle settled =>
      rcases settled with unapplied | ⟨_, applied⟩
      · exact .inl unapplied
      · exact .inr applied
  | query => exact absurd isEmpty.symm (Multiset.singleton_ne_zero _)
  | applying => exact absurd isEmpty.symm (Multiset.singleton_ne_zero _)

theorem coherent_start (request : InitiateModificationsRequest) (drive : DriveParams) :
    Coherent drive (start request drive) := by
  constructor
  · exact .idle (.inl ⟨rfl, rfl, rfl, rfl, rfl, rfl⟩)
  · intro finishing
    cases finishing

end Stages

/-! ## The flag -/

/-- At most one step is pending. It is the step of a query, under the flag. -/
def FlagsOne : ManualModificationsTask → Multiset PendingStep → Prop := fun task steps =>
  steps = 0 ∨ ∃ step : PendingStep, steps = {step} ∧ step.isOfApply = false ∧
    task.isExecutingQuery = true

section Flag

variable {requests after rest : ManualRequests} {step : PendingStep}

theorem Popped.flagged (popped : Popped requests step false rest)
    (flags : FlagsOne requests.task requests.otherSteps) :
    rest.otherSteps = 0 ∧ step.isOfApply = false ∧ rest.task.isExecutingQuery = true := by
  have others : requests.otherSteps = step ::ₘ rest.otherSteps := popped.otherSteps
  rw [others] at flags
  rcases flags with isEmpty | ⟨posted, isPosted, isOfApply, isExecuting⟩
  · exact absurd isEmpty Multiset.cons_ne_zero
  · obtain ⟨rfl, isEmpty⟩ := (Multiset.singleton_eq_cons_iff _).mp isPosted.symm
    rw [popped.task]
    exact ⟨isEmpty, isOfApply, isExecuting⟩

theorem Popped.notOfApply (popped : Popped requests step false rest)
    (flags : FlagsOne requests.task requests.otherSteps) (isOfApply : step.isOfApply = true) :
    False := by
  have notOfApply := (popped.flagged flags).2.1
  exact absurd (isOfApply.symm.trans notOfApply) (by decide)

theorem Popped.flagsFinish (popped : Popped requests step true rest)
    (flags : FlagsOne requests.task requests.otherSteps) :
    FlagsOne rest.task rest.otherSteps := by
  have others : requests.otherSteps = rest.otherSteps := popped.otherSteps
  rw [popped.task, ← others]
  exact flags

/-- A step that is none of a storage modification is posted under the flag. -/
theorem flagsOne_executeOnSessionThread {next : ManualSessionStep}
    (alone : requests.otherSteps = 0) (isOfApply : next.isOfApply = false)
    (isExecuting : requests.task.isExecutingQuery = true) :
    FlagsOne (requests.executeOnSessionThread next).task
      (requests.executeOnSessionThread next).otherSteps := by
  rw [otherSteps_executeOnSessionThread, alone]
  split
  · exact .inl rfl
  · exact .inr ⟨_, rfl, isOfApply, isExecuting⟩

theorem flagsOne_executeOnBackgroundThread {next : ManualBackgroundStep}
    (alone : requests.otherSteps = 0) (isOfApply : next.isOfApply = false)
    (isExecuting : requests.task.isExecutingQuery = true) :
    FlagsOne (requests.executeOnBackgroundThread next).task
      (requests.executeOnBackgroundThread next).otherSteps := by
  rw [otherSteps_executeOnBackgroundThread, alone]
  split
  · exact .inl rfl
  · exact .inr ⟨_, rfl, isOfApply, isExecuting⟩

theorem isExecuting_finishTask :
    requests.finishTask.task.isExecutingQuery = requests.task.isExecutingQuery := by
  rw [finishTask]
  split
  · rfl
  · rename_i unfinished
    rw [executeOnBackgroundThread, ManualModificationsTask.finishTask, if_neg unfinished]

theorem isExecuting_terminate :
    requests.terminate.task.isExecutingQuery = requests.task.isExecutingQuery := by
  simp only [terminate]
  split
  · rfl
  split
  · exact isExecuting_finishTask
  · rfl

theorem flagsOne_request {callback : RequestId} {request : ManualRequest}
    (notReset : requests.isReset = false)
    (flags : FlagsOne requests.task requests.otherSteps)
    (appliesNothing : requests.AppliesNothing (.request callback request))
    (step : requests.request callback request = some after) :
    FlagsOne after.task after.otherSteps := by
  rw [ManualRequests.request] at step
  split at step
  · cases step
  rename_i asserted
  rw [Bool.or_eq_true, not_or, Bool.not_eq_true] at asserted
  split at step
  · cases step
    exact flags
  rename_i running
  have alone : requests.otherSteps = 0 := by
    rcases flags with isEmpty | ⟨_, _, _, isExecuting⟩
    · exact isEmpty
    · exact absurd (isExecuting.symm.trans asserted.1) (by decide)
  cases accepted_of_accept step with
  | answered task same =>
      left
      rw [same.otherSteps]
      exact alone
  | posted posted isOfApply isOfFinish task same =>
      right
      refine ⟨.background posted, ?_, isOfApply, ?_⟩
      · rw [same.otherSteps, otherSteps_executeOnBackgroundThread, alone, isOfFinish,
          if_neg Bool.false_ne_true]
        rfl
      · rw [task]
  | applying noSandbox =>
      rcases appliesNothing with isReset | interrupted | isExecuting | hasSandbox
      · exact absurd (isReset.symm.trans notReset) (by decide)
      · exact absurd interrupted running
      · exact absurd (isExecuting.symm.trans asserted.1) (by decide)
      · exact absurd (hasSandbox.symm.trans noSandbox) (by decide)
  | ended =>
      left
      rw [otherSteps_finishTask]
      exact alone

theorem flagsOne_runBackgroundStep {step : ManualBackgroundStep}
    {backgroundSteps : List ManualBackgroundStep} {outcome : ManualOutcome}
    (flags : FlagsOne requests.task requests.otherSteps)
    (posted : requests.backgroundSteps = step :: backgroundSteps)
    (run : { requests with backgroundSteps }.runBackgroundStep step outcome = some after) :
    FlagsOne after.task after.otherSteps := by
  have popped := popped_background posted
  generalize { requests with backgroundSteps } = rest at run popped
  unfold ManualRequests.runBackgroundStep at run
  split at run
  · rename_i callback fsTree rootHash
    cases run
    obtain ⟨alone, _, isExecuting⟩ := popped.flagged flags
    exact @flagsOne_executeOnSessionThread
      { rest with task := rest.task.computeSandboxHash fsTree rootHash } _ alone rfl isExecuting
  · split at run
    · cases run
    · cases run
      obtain ⟨alone, isOfApply, isExecuting⟩ := popped.flagged flags
      exact flagsOne_executeOnSessionThread alone rfl isExecuting
  · rename_i next isDone
    cases run
    cases isOfFinish : next.isOfFinish with
    | true =>
        have isFinish : (ManualBackgroundStep.closeStreams next).isOfFinish = true := isOfFinish
        rw [isFinish] at popped
        rw [otherSteps_executeOnSessionThread, if_pos isOfFinish]
        exact popped.flagsFinish flags
    | false =>
        have notFinish : (ManualBackgroundStep.closeStreams next).isOfFinish = false := isOfFinish
        rw [notFinish] at popped
        obtain ⟨alone, isOfApply, isExecuting⟩ := popped.flagged flags
        exact flagsOne_executeOnSessionThread alone isOfApply isExecuting
  · cases run
    obtain ⟨alone, _, isExecuting⟩ := popped.flagged flags
    exact flagsOne_executeOnSessionThread alone rfl isExecuting
  · exact (popped.notOfApply flags rfl).elim
  · exact (popped.notOfApply flags rfl).elim
  · exact (popped.notOfApply flags rfl).elim
  · cases run
    rw [otherSteps_executeOnSessionThread]
    exact popped.flagsFinish flags
  · cases run
    rw [otherSteps_executeOnSessionThread]
    exact popped.flagsFinish flags
  · cases run

theorem flagsOne_resume {callback : RequestId} {next : ManualRequests → ManualRequests}
    (alone : rest.otherSteps = 0) (resumed : rest.resume callback next = some after)
    (goesOn : ∀ left : ManualRequests, left.otherSteps = 0 →
      FlagsOne (next left).task (next left).otherSteps) :
    FlagsOne after.task after.otherSteps := by
  simp only [ManualRequests.resume] at resumed
  split at resumed
  · cases resumed
  split at resumed
  · cases resumed
    left
    rw [otherSteps_finishTask]
    exact alone
  · cases resumed
    exact goesOn (rest.setExecutingQuery false) alone

theorem flagsOne_runSessionStep {step : ManualSessionStep}
    {sessionSteps : List ManualSessionStep}
    (flags : FlagsOne requests.task requests.otherSteps)
    (posted : requests.sessionSteps = step :: sessionSteps)
    (run : { requests with sessionSteps }.runSessionStep step = some after) :
    FlagsOne after.task after.otherSteps := by
  have popped := popped_session posted
  generalize { requests with sessionSteps } = rest at run popped
  cases step with
  | queryFinished query isDone callback =>
      rw [ManualRequests.runSessionStep] at run
      apply flagsOne_resume (popped.flagged flags).1 run
      intro left alone
      left
      rw [(endQuery_same isDone callback query).1.otherSteps]
      exact alone
  | onSandboxModificationStreamsClosed success callback =>
      rw [ManualRequests.runSessionStep] at run
      apply flagsOne_resume (popped.flagged flags).1 run
      intro left alone
      exact @flagsOne_executeOnBackgroundThread (left.setExecutingQuery true) _ alone rfl rfl
  | onAppliedSandboxModifications accepted callback =>
      rw [ManualRequests.runSessionStep] at run
      apply flagsOne_resume (popped.flagged flags).1 run
      intro left alone
      left
      exact alone
  | onNewTorrentAdded => exact (popped.notOfApply flags rfl).elim
  | onAppliedStorageModifications => exact (popped.notOfApply flags rfl).elim
  | closeFiles =>
      cases run
      have flagged := popped.flagsFinish flags
      rw [closeFiles, otherSteps_postFinishing rfl]
      rcases flagged with isEmpty | ⟨step, isStep, isOfApply, _⟩
      · exact .inl isEmpty
      · exact .inr ⟨step, isStep, isOfApply, rfl⟩
  | finishTask =>
      cases run
      rw [otherSteps_postFinishing rfl]
      exact popped.flagsFinish flags
  | runNextTask =>
      cases run
      exact popped.flagsFinish flags

theorem flagsOne_of_step {event : ManualRequestsEvent}
    (flags : FlagsOne requests.task requests.otherSteps)
    (appliesNothing : requests.AppliesNothing event)
    (step : manualRequestsSystem.step requests event = some after) :
    FlagsOne after.task after.otherSteps := by
  simp only [manualRequestsSystem] at step
  split at step
  · cases step
  rename_i notReset
  cases event with
  | request callback request =>
      exact flagsOne_request (Bool.eq_false_iff.mpr notReset) flags appliesNothing step
  | interrupt interruption =>
      cases step
      rw [otherSteps_terminate, FlagsOne, isExecuting_terminate]
      exact flags
  | runBackgroundStep outcome =>
      rw [handle] at step
      split at step
      · rename_i posted
        exact flagsOne_runBackgroundStep flags posted step
      · cases step
  | runSessionStep =>
      rw [handle] at step
      split at step
      · rename_i posted
        exact flagsOne_runSessionStep flags posted step
      · cases step
  | torrentsRemoved index =>
      rw [handle] at step
      split at step
      · rename_i removed
        exact ((popped_removal removed).notOfApply flags rfl).elim
      · cases step

theorem flagsPending_of_flagsOne (flags : FlagsOne requests.task requests.otherSteps) :
    requests.FlagsPending := by
  intro pending
  rcases flags with isEmpty | ⟨_, _, _, isExecuting⟩
  · exact absurd isEmpty pending
  · exact isExecuting

/-- A storage modification that is applied is pending without the flag. -/
theorem not_flagsPending_of_applies {callback : RequestId}
    (applies : ¬ requests.AppliesNothing (.request callback (.applyStorageModifications true))) :
    ∃ after, manualRequestsSystem.step requests
        (.request callback (.applyStorageModifications true)) = some after ∧
      ¬ after.FlagsPending := by
  rw [AppliesNothing, not_or, not_or, not_or] at applies
  obtain ⟨notReset, notInterrupted, notExecuting, noSandbox⟩ := applies
  refine ⟨requests.executeOnBackgroundThread (.addNewTorrentsToSession callback), ?_, ?_⟩
  · simp only [manualRequestsSystem, Bool.eq_false_iff.mpr notReset, handle, request, ManualRequest.needsSandbox, accept,
      applyStorageModifications, Bool.eq_false_iff.mpr notInterrupted,
      Bool.eq_false_iff.mpr notExecuting, Bool.eq_false_iff.mpr noSandbox, Bool.false_and,
      Bool.or_false, Bool.false_eq_true, if_false, if_true]
  · intro flags
    apply notExecuting
    apply flags
    have isOther : (ManualBackgroundStep.addNewTorrentsToSession callback).isOfFinish = false := rfl
    rw [otherSteps_executeOnBackgroundThread, isOther, if_neg Bool.false_ne_true]
    exact Multiset.cons_ne_zero

end Flag

/-! ## Results -/

/-- A task that cleans up has no other step pending, and is applied completely or not at all,
    in the runs that leave storage modifications alone; its flag is set while a step is pending
    exactly in the runs in which no storage modification is applied at all. -/
theorem finishes_alone_and_flags_iff (request : InitiateModificationsRequest)
    (drive : DriveParams) (events : List ManualRequestsEvent) :
    (manualRequestsSystem.Meets LeavesApplying (start request drive) events →
      manualRequestsSystem.Always (fun requests => requests.FinishesAlone ∧
        requests.AppliesWholly drive) (start request drive) events) ∧
    (manualRequestsSystem.Always FlagsPending (start request drive) events ↔
      manualRequestsSystem.Meets AppliesNothing (start request drive) events) := by
  constructor
  · intro leaves
    apply Transition.Always.of_invariant (C := LeavesApplying) (I := Coherent drive) _ _
      (coherent_start request drive) leaves
    · intro requests coherent
      exact ⟨coherent.finishesAlone, coherent.appliesWholly⟩
    · intro requests event after coherent leaves step
      exact coherent.of_step leaves step
  · apply Transition.always_iff_meets (E := fun _ _ => True)
      (I := fun requests => FlagsOne requests.task requests.otherSteps)
    · intro requests flags
      exact flagsPending_of_flagsOne flags
    · intro requests event after flags _ appliesNothing step
      exact flagsOne_of_step flags appliesNothing step
    · intro requests event _ _ applies
      cases event with
      | request callback request =>
          cases request with
          | applyStorageModifications success =>
              cases success with
              | true => exact not_flagsPending_of_applies applies
              | false => exact absurd trivial applies
          | _ => exact absurd trivial applies
      | _ => exact absurd trivial applies
    · exact .inl rfl
    · exact Transition.meets_of_forall fun _ _ => trivial

def sampleInitiation : InitiateModificationsRequest := ⟨70⟩

/-- A storage modification of an unchanged sandbox. -/
def untilApplied : List ManualRequestsEvent :=
  [.request 0 .evaluateStorageHash, .runBackgroundStep (.storageHash (.mk "/" .nil) 8),
    .runSessionStep, .request 1 (.applyStorageModifications true),
    .runBackgroundStep (.done true), .runSessionStep, .torrentsRemoved 0,
    .runBackgroundStep (.done true), .runSessionStep, .interrupt .approvalTxPublished,
    .runBackgroundStep (.done true), .runSessionStep, .runBackgroundStep (.done true),
    .runSessionStep, .runBackgroundStep (.done true), .runSessionStep]

instance (requests : ManualRequests) : DecidablePred requests.LeavesApplying
  | .request _ _ => inferInstanceAs (Decidable (_ ∧ _))
  | .interrupt _ => inferInstanceAs (Decidable (_ = _))
  | .runBackgroundStep (.exception _) => inferInstanceAs (Decidable False)
  | .runBackgroundStep (.done _) => inferInstanceAs (Decidable True)
  | .runBackgroundStep (.validated _) => inferInstanceAs (Decidable True)
  | .runBackgroundStep (.storageHash _ _) => inferInstanceAs (Decidable True)
  | .runSessionStep => inferInstanceAs (Decidable True)
  | .torrentsRemoved _ => inferInstanceAs (Decidable True)

theorem untilApplied_finishes_alone :
    manualRequestsSystem.Reaches (fun requests => requests.isReset = true)
      (start sampleInitiation ModifyDriveTask.sampleDrive) untilApplied ∧
    manualRequestsSystem.Always (fun requests => requests.FinishesAlone ∧
      requests.AppliesWholly ModifyDriveTask.sampleDrive)
      (start sampleInitiation ModifyDriveTask.sampleDrive) untilApplied :=
  ⟨by decide +kernel, (finishes_alone_and_flags_iff _ _ untilApplied).1 (by decide +kernel)⟩

/-- An approval that is published while a storage modification is being applied has the task
    cleaned up and destroyed under it: the torrents of its files are in the session, but its
    tree is not the one of the drive. -/
theorem approval_finishes_under_application :
    manualRequestsSystem.Reaches
      (fun requests => requests.isReset = true ∧ requests.isApplying = true ∧
        requests.task.drive.lastApprovedModification ≠ sampleInitiation.modificationIdentifier)
      (start sampleInitiation ModifyDriveTask.sampleDrive)
      [.request 0 .evaluateStorageHash, .runBackgroundStep (.storageHash (.mk "/" .nil) 8),
        .runSessionStep, .request 1 (.applyStorageModifications true),
        .interrupt .approvalTxPublished, .runBackgroundStep (.done true), .runSessionStep,
        .runBackgroundStep (.done true), .runSessionStep, .runBackgroundStep (.done true),
        .runSessionStep, .runBackgroundStep (.done true), .runSessionStep] := by
  decide +kernel

end ManualRequests

end SiriusDrive
