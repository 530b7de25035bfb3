import SiriusDrive.VerificationDriveTask.SignedMessages

/-! # The verifications of a drive

A drive starts a verification when the modification that is to be verified is its
last one. Codes and opinions that come before wait in queues, one for each
verification, and are handed to the task when it is created. The task of a
verification then is what it would be had it been there from the beginning.
-/

namespace SiriusDrive

/-- `VerificationRequest`, with the fields that the drive reads itself. -/
structure DeferredVerification where
  request : VerificationRequest
  approvedModification : Hash256
  blockedReplicators : List ReplicatorKey
  deriving Repr, DecidableEq

/-- What concerns verifications in `DefaultFlatDrive`. -/
structure DriveVerifications where
  driveKey : Key
  replicatorKey : ReplicatorKey
  fsTree : FsTree
  driveFolder : DriveFolder
  lastApprovedModification : Hash256
  /-- The drive is being initialized. -/
  isInitializing : Bool := true
  verificationTask : Option VerificationDriveTask := none
  deferredVerificationRequest : Option DeferredVerification := none
  blockedReplicators : List ReplicatorKey := []
  unknownVerificationOpinions : Std.TreeMap Hash256 (List VerifyApprovalTxInfo) := ∅
  unknownVerificationCodeQueue : Std.TreeMap Hash256 (List VerificationCodeInfo) := ∅

inductive DriveVerificationEvent where
  | startVerification (request : DeferredVerification)
  /-- An info with one opinion; the replicator drops all others. -/
  | opinionReceived (info : VerifyApprovalTxInfo) (opinion : VerifyOpinion)
  | codeReceived (info : VerificationCodeInfo)
  /-- `runNextTask`, when the drive is to be closed and when not. -/
  | nextTask (isClosing : Bool)
  /-- A modification has been completed while nothing is verified. -/
  | modified (fsTree : FsTree) (driveFolder : DriveFolder) (modification : Hash256)
  /-- A modification or verification is approved, the drive is to be closed, or the verification
      is cancelled. -/
  | cancelVerification
  | terminate
  /-- A timer or the thread of the running verification. -/
  | task (event : VerificationEvent)

namespace VerificationDriveTask

/-- The constructor's loop over the opinions; none if its assertion fails. -/
def addOpinion (task : VerificationDriveTask) (info : VerifyApprovalTxInfo) :
    Option VerificationDriveTask :=
  match info.opinions with
  | [opinion] =>
      match task.processedVerificationOpinion info opinion with
      | (task, true) => some task
      | (_, false) => none
  | _ => none

/-- The constructor's loop over the codes; none if its assertion fails. -/
def addCode (task : VerificationDriveTask) (info : VerificationCodeInfo) :
    Option VerificationDriveTask :=
  match task.processedVerificationCode info with
  | some (task, true) => some task
  | _ => none

/-- The constructor, with the messages received before. -/
def createWith (task : VerificationDriveTask) (receivedOpinions : List VerifyApprovalTxInfo)
    (receivedCodes : List VerificationCodeInfo) : Option VerificationDriveTask :=
  (receivedOpinions.foldlM addOpinion task).bind (receivedCodes.foldlM addCode)

end VerificationDriveTask

/-- Messages come from outside, and the drive terminates its task. -/
def VerificationEvent.isInternal : VerificationEvent → Bool
  | .opinionReceived _ _ | .codeReceived _ | .terminate => false
  | _ => true

namespace DriveVerifications

variable (drive : DriveVerifications)

def waitingOpinions (tx : Hash256) : List VerifyApprovalTxInfo :=
  drive.unknownVerificationOpinions[tx]?.getD []

def waitingCodes (tx : Hash256) : List VerificationCodeInfo :=
  drive.unknownVerificationCodeQueue[tx]?.getD []

/-- The task of a request, without the messages that wait for it. -/
def created (request : VerificationRequest) : VerificationDriveTask :=
  .create request drive.driveKey drive.replicatorKey drive.fsTree drive.driveFolder

/-- `runVerificationTask`. The opinions are erased twice, the codes are moved away. If there is a
    task already, its thread is not joined, which ends the program. -/
def runVerificationTask (deferred : DeferredVerification) : Option DriveVerifications :=
  let tx := deferred.request.tx
  let receivedOpinions := drive.waitingOpinions tx
  let receivedCodes := drive.waitingCodes tx
  if drive.verificationTask.isSome then none
  else
    ((drive.created deferred.request).createWith receivedOpinions receivedCodes).map fun task =>
      { drive with
        unknownVerificationOpinions := drive.unknownVerificationOpinions.erase tx
        unknownVerificationCodeQueue := drive.unknownVerificationCodeQueue.insert tx []
        blockedReplicators := deferred.blockedReplicators
        deferredVerificationRequest := none
        verificationTask := some task }

/-- `startVerification`. -/
def startVerification (request : DeferredVerification) : Option DriveVerifications :=
  let drive := { drive with deferredVerificationRequest := some request }
  if drive.isInitializing then some drive
  else if drive.lastApprovedModification = request.approvedModification then
    drive.runVerificationTask request
  else some drive

/-- `runNextTask`, as far as verifications are concerned. -/
def runNextTask (isClosing : Bool) : Option DriveVerifications :=
  let drive := { drive with isInitializing := false }
  if isClosing then some drive
  else
    match drive.deferredVerificationRequest with
    | some request =>
        if drive.lastApprovedModification = request.approvedModification then
          drive.runVerificationTask request
        else some drive
    | none => some drive

def queueOpinion (info : VerifyApprovalTxInfo) : DriveVerifications :=
  { drive with
    unknownVerificationOpinions := drive.unknownVerificationOpinions.insert info.tx
      (drive.waitingOpinions info.tx ++ [info]) }

def queueCode (info : VerificationCodeInfo) : DriveVerifications :=
  { drive with
    unknownVerificationCodeQueue := drive.unknownVerificationCodeQueue.insert info.tx
      (drive.waitingCodes info.tx ++ [info]) }

/-- `onVerificationOpinionReceived`. -/
def onVerificationOpinionReceived (info : VerifyApprovalTxInfo) (opinion : VerifyOpinion) :
    DriveVerifications :=
  match drive.verificationTask with
  | none => drive.queueOpinion info
  | some task =>
      match task.processedVerificationOpinion info opinion with
      | (task, true) => { drive with verificationTask := some task }
      | (_, false) => drive.queueOpinion info

/-- `onVerificationCodeReceived`; none if an assertion of the task fails. -/
def onVerificationCodeReceived (info : VerificationCodeInfo) : Option DriveVerifications :=
  match drive.verificationTask with
  | none => some (drive.queueCode info)
  | some task =>
      match task.processedVerificationCode info with
      | none => none
      | some (task, true) => some { drive with verificationTask := some task }
      | some (_, false) => some (drive.queueCode info)

def cancelVerification : DriveVerifications :=
  { drive with
    blockedReplicators := []
    deferredVerificationRequest := none
    verificationTask := none }

def terminate : DriveVerifications := { drive with verificationTask := none }

end DriveVerifications

/-- The verifications of a drive under everything that can happen to them. -/
def driveVerifications : Transition DriveVerifications DriveVerificationEvent where
  step drive
    | .startVerification request => drive.startVerification request
    | .opinionReceived info opinion =>
        if info.driveKey = drive.driveKey ∧ info.opinions = [opinion] then
          some (drive.onVerificationOpinionReceived info opinion)
        else none
    | .codeReceived info => drive.onVerificationCodeReceived info
    | .nextTask isClosing => drive.runNextTask isClosing
    | .modified fsTree driveFolder modification =>
        if drive.verificationTask.isNone then
          some { drive with fsTree, driveFolder, lastApprovedModification := modification }
        else none
    | .cancelVerification => some drive.cancelVerification
    | .terminate => some drive.terminate
    | .task event =>
        if event.isInternal then
          (drive.verificationTask.bind (verificationSystem.step · event)).map fun task =>
            { drive with verificationTask := some task }
        else none

namespace VerificationDriveTask

variable {task after : VerificationDriveTask}

/-! ## The messages that wait are events of the task -/

/-- What holds of a task whatever its messages are. -/
abbrev IsSound (task : VerificationDriveTask) : Prop := task.Sound (fun _ => True) fun _ => True

def IsOnDrive (driveKey : Key) : VerificationEvent → Prop
  | .opinionReceived info _ => info.driveKey = driveKey
  | _ => True

theorem IsSound.step (sound : task.IsSound) {event : VerificationEvent}
    (onDrive : IsOnDrive task.driveKey event)
    (step : verificationSystem.step task event = some after) :
    after.IsSound ∧ task.GoesOn after := by
  refine ⟨Sound.step sound step ?_ ?_ ?_, Sound.goesOn sound step⟩
  · simp
  · rintro info opinion rfl
    exact ⟨onDrive, fun _ _ => trivial⟩
  · simp

/-- The constructor's assertion on an opinion holds for one on its verification. -/
theorem addOpinion_eq_step {info : VerifyApprovalTxInfo} (tx : info.tx = task.request.tx)
    {opinion : VerifyOpinion} (single : info.opinions = [opinion]) :
    task.addOpinion info = verificationSystem.step task (.opinionReceived info opinion) := by
  have processed : (task.processedVerificationOpinion info opinion).2 = true := by
    simp only [processedVerificationOpinion, tx]
    split_ifs <;> first | rfl | contradiction
  simp only [addOpinion, single, verificationSystem, if_true]
  cases result : task.processedVerificationOpinion info opinion with
  | mk next isProcessed =>
      obtain rfl : isProcessed = true := by simpa [result] using processed
      rfl

theorem isSome_step_opinionReceived {info : VerifyApprovalTxInfo} {opinion : VerifyOpinion}
    (single : info.opinions = [opinion]) : ∃ next,
      verificationSystem.step task (.opinionReceived info opinion) = some next ∧
        next.myVerifyCodesCalculated = task.myVerifyCodesCalculated := by
  obtain ⟨held, timer, processed⟩ := processedVerificationOpinion_fst task info opinion
  exact ⟨_, if_pos single, by rw [processed]⟩

theorem addCode_eq_step {info : VerificationCodeInfo} (tx : info.tx = task.request.tx)
    (notCalculated : task.myVerifyCodesCalculated = false) : ∃ next,
      task.addCode info = some next ∧
        verificationSystem.step task (.codeReceived info) = some next ∧
          next.myVerifyCodesCalculated = false := by
  simp only [addCode, verificationSystem, processedVerificationCode, tx, notCalculated]
  split_ifs <;> simp_all

def IsAddressed (task : VerificationDriveTask) (info : VerifyApprovalTxInfo) : Prop :=
  info.tx = task.request.tx ∧ info.driveKey = task.driveKey ∧
    ∃ opinion, info.opinions = [opinion]

def opinionEvents (infos : List VerifyApprovalTxInfo) : List VerificationEvent :=
  infos.flatMap fun info => info.opinions.map (.opinionReceived info)

theorem addOpinions_eq_exec {infos : List VerifyApprovalTxInfo} (sound : task.IsSound)
    (addressed : ∀ info ∈ infos, task.IsAddressed info) : ∃ next,
      infos.foldlM addOpinion task = some next ∧
        verificationSystem.exec task (opinionEvents infos) = some next ∧ next.IsSound ∧
          task.GoesOn next ∧ next.myVerifyCodesCalculated = task.myVerifyCodesCalculated := by
  induction infos generalizing task with
  | nil => exact ⟨task, rfl, rfl, sound, .refl task, rfl⟩
  | cons info infos ih =>
      obtain ⟨tx, driveKey, opinion, single⟩ := addressed info List.mem_cons_self
      obtain ⟨mid, step, same⟩ := @isSome_step_opinionReceived task _ _ single
      have onDrive : IsOnDrive task.driveKey (.opinionReceived info opinion) := driveKey
      obtain ⟨midSound, goesOn⟩ := sound.step onDrive step
      have rest : ∀ other ∈ infos, mid.IsAddressed other := by
        intro other member
        have isAddressed := addressed other (List.mem_cons_of_mem _ member)
        simpa [IsAddressed, goesOn.request, goesOn.driveKey] using isAddressed
      obtain ⟨next, folded, run, nextSound, later, sameToo⟩ := ih midSound rest
      have added : task.addOpinion info = some mid := (addOpinion_eq_step tx single).trans step
      refine ⟨next, by simp [added, folded], ?_, nextSound, goesOn.trans later, sameToo.trans same⟩
      simpa [opinionEvents, single] using (verificationSystem.exec_cons_iff).mpr ⟨mid, step, run⟩

theorem addCodes_eq_exec {infos : List VerificationCodeInfo} (sound : task.IsSound)
    (notCalculated : task.myVerifyCodesCalculated = false)
    (addressed : ∀ info ∈ infos, info.tx = task.request.tx) : ∃ next,
      infos.foldlM addCode task = some next ∧
        verificationSystem.exec task (infos.map .codeReceived) = some next ∧ next.IsSound ∧
          task.GoesOn next := by
  induction infos generalizing task with
  | nil => exact ⟨task, rfl, rfl, sound, .refl task⟩
  | cons info infos ih =>
      obtain ⟨mid, added, step, stillNot⟩ :=
        addCode_eq_step (addressed info List.mem_cons_self) notCalculated
      have onDrive : IsOnDrive task.driveKey (.codeReceived info) := trivial
      obtain ⟨midSound, goesOn⟩ := sound.step onDrive step
      have rest : ∀ other ∈ infos, other.tx = mid.request.tx := by
        intro other member
        rw [goesOn.request]
        exact addressed other (List.mem_cons_of_mem _ member)
      obtain ⟨next, folded, run, nextSound, later⟩ := ih midSound stillNot rest
      exact ⟨next, by simp [added, folded], (verificationSystem.exec_cons_iff).mpr ⟨mid, step, run⟩,
        nextSound, goesOn.trans later⟩

/-- The constructor's assertions hold of messages on its verification, and it does with them
    what the task does later. -/
theorem createWith_eq_exec {opinions : List VerifyApprovalTxInfo}
    {codes : List VerificationCodeInfo} (sound : task.IsSound)
    (notCalculated : task.myVerifyCodesCalculated = false)
    (opinionsAddressed : ∀ info ∈ opinions, task.IsAddressed info)
    (codesAddressed : ∀ info ∈ codes, info.tx = task.request.tx) : ∃ next,
      task.createWith opinions codes = some next ∧
        verificationSystem.exec task (opinionEvents opinions ++ codes.map .codeReceived) =
          some next ∧ next.IsSound ∧ task.GoesOn next := by
  obtain ⟨mid, folded, run, midSound, goesOn, same⟩ := addOpinions_eq_exec sound opinionsAddressed
  have stillNot : mid.myVerifyCodesCalculated = false := same.trans notCalculated
  have rest : ∀ info ∈ codes, info.tx = mid.request.tx := by
    rw [goesOn.request]
    exact codesAddressed
  obtain ⟨next, foldedCodes, codesRun, nextSound, later⟩ := addCodes_eq_exec midSound stillNot rest
  exact ⟨next, by simp [createWith, folded, foldedCodes],
    (verificationSystem.exec_append).mpr ⟨mid, run, codesRun⟩, nextSound, goesOn.trans later⟩

end VerificationDriveTask

namespace DriveVerificationEvent

def opinionFor (tx : Hash256) : DriveVerificationEvent → List VerifyApprovalTxInfo
  | .opinionReceived info _ => if info.tx = tx then [info] else []
  | _ => []

def codeFor (tx : Hash256) : DriveVerificationEvent → List VerificationCodeInfo
  | .codeReceived info => if info.tx = tx then [info] else []
  | _ => []

def started : DriveVerificationEvent → List Hash256
  | .startVerification request => [request.request.tx]
  | _ => []

/-- The steps that a task takes by itself. -/
def internal : DriveVerificationEvent → List VerificationEvent
  | .task event => [event]
  | _ => []

end DriveVerificationEvent

def VerificationEvent.opinion : VerificationEvent → List VerifyApprovalTxInfo
  | .opinionReceived info _ => [info]
  | _ => []

def VerificationEvent.code : VerificationEvent → List VerificationCodeInfo
  | .codeReceived info => [info]
  | _ => []

theorem VerificationEvent.spec_of_isInternal {event : VerificationEvent}
    (isInternal : event.isInternal = true) : event.opinion = [] ∧ event.code = [] ∧
      ∀ driveKey, VerificationDriveTask.IsOnDrive driveKey event := by
  cases event <;> simp_all [VerificationEvent.isInternal, opinion, code,
    VerificationDriveTask.IsOnDrive]

/-- The events of the messages that wait tell of these, and of no other step. -/
theorem VerificationDriveTask.opinionEvents_spec {infos : List VerifyApprovalTxInfo}
    (single : ∀ info ∈ infos, ∃ opinion, info.opinions = [opinion]) :
    (opinionEvents infos).flatMap (·.opinion) = infos ∧
      (opinionEvents infos).flatMap (·.code) = [] ∧
        (opinionEvents infos).filter (·.isInternal) = [] := by
  induction infos with
  | nil => simp [opinionEvents]
  | cons info infos ih =>
      obtain ⟨opinion, isOpinion⟩ := single info List.mem_cons_self
      obtain ⟨opinions, codes, steps⟩ :=
        ih fun other member => single other (List.mem_cons_of_mem _ member)
      have split : opinionEvents (info :: infos) =
          .opinionReceived info opinion :: opinionEvents infos := by simp [opinionEvents, isOpinion]
      rw [split]
      refine ⟨by rw [List.flatMap_cons, opinions]; rfl, by rw [List.flatMap_cons, codes]; rfl, ?_⟩
      exact (List.filter_cons_of_neg Bool.false_ne_true).trans steps

theorem VerificationDriveTask.codeEvents_spec (infos : List VerificationCodeInfo) :
    (infos.map VerificationEvent.codeReceived).flatMap (·.opinion) = [] ∧
      (infos.map VerificationEvent.codeReceived).flatMap (·.code) = infos ∧
        (infos.map VerificationEvent.codeReceived).filter (·.isInternal) = [] := by
  induction infos with
  | nil => simp
  | cons info infos ih =>
      obtain ⟨opinions, codes, steps⟩ := ih
      rw [List.map_cons]
      refine ⟨by rw [List.flatMap_cons, opinions]; rfl, by rw [List.flatMap_cons, codes]; rfl, ?_⟩
      exact (List.filter_cons_of_neg Bool.false_ne_true).trans steps

namespace DriveVerifications

open VerificationDriveTask DriveVerificationEvent

variable {drive next : DriveVerifications} {before : List DriveVerificationEvent}

/-- The task has heard all the codes and opinions for it, in the order they came in, and has
    taken the last of the steps that tasks of the drive have taken by themselves. -/
def HasHeard (drive : DriveVerifications) (before : List DriveVerificationEvent)
    (task : VerificationDriveTask) : Prop :=
  ∃ heard fsTree driveFolder,
    verificationSystem.exec
        (.create task.request drive.driveKey drive.replicatorKey fsTree driveFolder) heard =
      some task ∧
    heard.flatMap (·.opinion) = before.flatMap (opinionFor task.request.tx) ∧
    heard.flatMap (·.code) = before.flatMap (codeFor task.request.tx) ∧
    heard.filter (·.isInternal) <:+ before.flatMap internal

/-- The messages in a queue are on the verification it is for. -/
structure Queues (drive : DriveVerifications) : Prop where
  opinions : ∀ tx, ∀ info ∈ drive.waitingOpinions tx, info.tx = tx ∧
    info.driveKey = drive.driveKey ∧ ∃ opinion, info.opinions = [opinion]
  codes : ∀ tx, ∀ info ∈ drive.waitingCodes tx, info.tx = tx

/-- What holds of the verifications of a drive after the events `before`; `ran` are those that
    have been run. -/
structure Stands (ran : List Hash256) (before : List DriveVerificationEvent)
    (drive : DriveVerifications) : Prop where
  queues : drive.Queues
  started : ∀ tx ∈ ran, tx ∈ before.flatMap started
  deferred : ∀ deferred, drive.deferredVerificationRequest = some deferred →
    deferred.request.tx ∈ before.flatMap DriveVerificationEvent.started ∧
      deferred.request.tx ∉ ran
  opinions : ∀ tx ∉ ran, drive.waitingOpinions tx = before.flatMap (opinionFor tx)
  codes : ∀ tx ∉ ran, drive.waitingCodes tx = before.flatMap (codeFor tx)
  task : ∀ task, drive.verificationTask = some task → task.request.tx ∈ ran ∧
    task.driveKey = drive.driveKey ∧ task.IsSound ∧ drive.HasHeard before task

/-! ## The start of a verification -/

theorem isSound_created (request : VerificationRequest) : (drive.created request).IsSound :=
  Sound.create request drive.driveKey drive.replicatorKey drive.fsTree drive.driveFolder

/-- If no task is there, a verification starts with all that waits for it. -/
theorem Queues.runVerificationTask (queues : drive.Queues) (noTask : drive.verificationTask = none)
    (deferred : DeferredVerification) : ∃ task,
      drive.runVerificationTask deferred = some { drive with
        unknownVerificationOpinions :=
          drive.unknownVerificationOpinions.erase deferred.request.tx
        unknownVerificationCodeQueue :=
          drive.unknownVerificationCodeQueue.insert deferred.request.tx []
        blockedReplicators := deferred.blockedReplicators
        deferredVerificationRequest := none
        verificationTask := some task } ∧
      verificationSystem.exec (drive.created deferred.request)
        (opinionEvents (drive.waitingOpinions deferred.request.tx) ++
          (drive.waitingCodes deferred.request.tx).map .codeReceived) = some task ∧
      task.IsSound ∧ (drive.created deferred.request).GoesOn task := by
  obtain ⟨task, created, run, sound, goesOn⟩ := createWith_eq_exec
    (isSound_created deferred.request) rfl (queues.opinions deferred.request.tx)
    (queues.codes deferred.request.tx)
  exact ⟨task, by simp [DriveVerifications.runVerificationTask, noTask, created], run, sound, goesOn⟩

theorem noTask_of_runVerificationTask {deferred : DeferredVerification}
    (runs : drive.runVerificationTask deferred = some next) : drive.verificationTask = none := by
  simp only [runVerificationTask] at runs
  split at runs
  · cases runs
  · rename_i isNone
    simpa using isNone

/-! ## Steps -/

theorem waitingOpinions_queueOpinion (info : VerifyApprovalTxInfo) (tx : Hash256) :
    (drive.queueOpinion info).waitingOpinions tx =
      drive.waitingOpinions tx ++ (if info.tx = tx then [info] else []) := by
  simp only [queueOpinion, waitingOpinions, Std.TreeMap.getElem?_insert_eq]
  by_cases same : tx = info.tx
  · subst same
    simp
  · simp [same, Ne.symm same]

theorem waitingCodes_queueCode (info : VerificationCodeInfo) (tx : Hash256) :
    (drive.queueCode info).waitingCodes tx =
      drive.waitingCodes tx ++ (if info.tx = tx then [info] else []) := by
  simp only [queueCode, waitingCodes, Std.TreeMap.getElem?_insert_eq]
  by_cases same : tx = info.tx
  · subst same
    simp
  · simp [same, Ne.symm same]

theorem processedVerificationOpinion_snd (task : VerificationDriveTask)
    (info : VerifyApprovalTxInfo) (opinion : VerifyOpinion) :
    (task.processedVerificationOpinion info opinion).2 = true ↔ info.tx = task.request.tx := by
  simp only [processedVerificationOpinion]
  split_ifs with other
  · simpa using Ne.symm other
  all_goals simpa using (not_not.mp other).symm

theorem processedVerificationCode_snd {task after : VerificationDriveTask}
    {info : VerificationCodeInfo} {processed : Bool}
    (processes : task.processedVerificationCode info = some (after, processed)) :
    processed = true ↔ info.tx = task.request.tx := by
  simp only [processedVerificationCode] at processes
  split_ifs at processes with other
  · cases processes
    simpa using other
  · cases processes
    simpa using other
  · cases processes
    simpa using other
  · obtain ⟨checked, -, same⟩ := Option.map_eq_some_iff.mp processes
    cases same
    simpa using other
  · cases processes
    simpa using other

/-- An opinion goes to the task of its verification, or into the queue. -/
theorem onVerificationOpinionReceived_cases (drive : DriveVerifications)
    (info : VerifyApprovalTxInfo) (opinion : VerifyOpinion) :
    (∃ task, drive.verificationTask = some task ∧ info.tx = task.request.tx ∧
      drive.onVerificationOpinionReceived info opinion =
        { drive with verificationTask := some (task.processedVerificationOpinion info opinion).1 }) ∨
    (∀ task, drive.verificationTask = some task → info.tx ≠ task.request.tx) ∧
      drive.onVerificationOpinionReceived info opinion = drive.queueOpinion info := by
  cases isTask : drive.verificationTask with
  | none => exact Or.inr ⟨by simp, by simp [onVerificationOpinionReceived, isTask]⟩
  | some task =>
      have hears := processedVerificationOpinion_snd task info opinion
      cases processed : task.processedVerificationOpinion info opinion with
      | mk after isProcessed =>
          rw [processed] at hears
          cases isProcessed with
          | true =>
              left
              exact ⟨task, rfl, hears.mp rfl, by
                simp [onVerificationOpinionReceived, isTask, processed]⟩
          | false =>
              right
              refine ⟨?_, by simp [onVerificationOpinionReceived, isTask, processed]⟩
              intro other isOther tx
              obtain rfl : task = other := by simpa using isOther
              simpa using hears.mpr tx

theorem onVerificationCodeReceived_cases {info : VerificationCodeInfo}
    (step : drive.onVerificationCodeReceived info = some next) :
    (∃ task after, drive.verificationTask = some task ∧ info.tx = task.request.tx ∧
      verificationSystem.step task (.codeReceived info) = some after ∧
        next = { drive with verificationTask := some after }) ∨
    (∀ task, drive.verificationTask = some task → info.tx ≠ task.request.tx) ∧
      next = drive.queueCode info := by
  cases isTask : drive.verificationTask with
  | none =>
      right
      simp only [onVerificationCodeReceived, isTask, Option.some.injEq] at step
      exact ⟨by simp, step.symm⟩
  | some task =>
      simp only [onVerificationCodeReceived, isTask] at step
      cases processed : task.processedVerificationCode info with
      | none => simp [processed] at step
      | some result =>
          obtain ⟨after, isProcessed⟩ := result
          have hears := processedVerificationCode_snd processed
          cases isProcessed with
          | true =>
              left
              simp only [processed, Option.some.injEq] at step
              exact ⟨task, after, rfl, hears.mp rfl, by simp [verificationSystem, processed],
                step.symm⟩
          | false =>
              right
              simp only [processed, Option.some.injEq] at step
              refine ⟨?_, step.symm⟩
              intro other isOther tx
              obtain rfl : task = other := by simpa using isOther
              simpa using hears.mpr tx

theorem Queues.queueOpinion (queues : drive.Queues) {info : VerifyApprovalTxInfo}
    {opinion : VerifyOpinion} (driveKey : info.driveKey = drive.driveKey)
    (single : info.opinions = [opinion]) : (drive.queueOpinion info).Queues where
  opinions tx other member := by
    rw [waitingOpinions_queueOpinion, List.mem_append] at member
    cases member with
    | inl old => exact queues.opinions tx other old
    | inr isNew =>
        split at isNew
        · rename_i same
          obtain rfl := List.mem_singleton.mp isNew
          exact ⟨same, driveKey, opinion, single⟩
        · simp at isNew
  codes := queues.codes

theorem Queues.queueCode (queues : drive.Queues) (info : VerificationCodeInfo) :
    (drive.queueCode info).Queues where
  opinions := queues.opinions
  codes tx other member := by
    rw [waitingCodes_queueCode, List.mem_append] at member
    cases member with
    | inl old => exact queues.codes tx other old
    | inr isNew =>
        split at isNew
        · rename_i same
          obtain rfl := List.mem_singleton.mp isNew
          exact same
        · simp at isNew

theorem Queues.run (queues : drive.Queues) {deferred : DeferredVerification}
    (runs : drive.runVerificationTask deferred = some next) : next.Queues := by
  obtain ⟨task, isNext, -⟩ := queues.runVerificationTask (noTask_of_runVerificationTask runs) deferred
  obtain rfl := Option.some.inj (runs.symm.trans isNext)
  constructor
  · intro tx info member
    simp only [waitingOpinions, Std.TreeMap.getElem?_erase_eq] at member
    split at member
    · simp at member
    · exact queues.opinions tx info member
  · intro tx info member
    simp only [waitingCodes, Std.TreeMap.getElem?_insert_eq] at member
    split at member
    · simp at member
    · exact queues.codes tx info member

theorem startVerification_cases {request : DeferredVerification}
    (step : drive.startVerification request = some next) :
    next = { drive with deferredVerificationRequest := some request } ∨
      { drive with deferredVerificationRequest := some request }.runVerificationTask request =
        some next := by
  simp only [startVerification] at step
  split_ifs at step
  · exact Or.inl (Option.some.inj step).symm
  · exact Or.inr step
  · exact Or.inl (Option.some.inj step).symm

theorem runNextTask_cases {isClosing : Bool} (step : drive.runNextTask isClosing = some next) :
    next = { drive with isInitializing := false } ∨
      ∃ request, drive.deferredVerificationRequest = some request ∧
        { drive with isInitializing := false }.runVerificationTask request = some next := by
  simp only [runNextTask] at step
  split at step
  · exact Or.inl (Option.some.inj step).symm
  · split at step
    · rename_i request isRequest
      split at step
      · exact Or.inr ⟨request, isRequest, step⟩
      · exact Or.inl (Option.some.inj step).symm
    · exact Or.inl (Option.some.inj step).symm

/-! ## What has been heard along a run -/

variable {ran : List Hash256} {event : DriveVerificationEvent}

theorem HasHeard.later {task : VerificationDriveTask} (heard : drive.HasHeard before task)
    (noOpinion : opinionFor task.request.tx event = []) (noCode : codeFor task.request.tx event = [])
    (noStep : event.internal = []) : drive.HasHeard (before ++ [event]) task := by
  obtain ⟨events, fsTree, driveFolder, run, opinions, codes, steps⟩ := heard
  exact ⟨events, fsTree, driveFolder, run, by simp [opinions, noOpinion], by simp [codes, noCode],
    by simpa [noStep] using steps⟩

theorem Stands.later (stands : drive.Stands ran before)
    (noOpinion : ∀ tx, opinionFor tx event = []) (noCode : ∀ tx, codeFor tx event = [])
    (noStep : event.internal = []) : drive.Stands ran (before ++ [event]) where
  queues := stands.queues
  started tx member := by simp [stands.started tx member]
  deferred request isDeferred := by
    obtain ⟨isStarted, notRan⟩ := stands.deferred request isDeferred
    exact ⟨by simp [isStarted], notRan⟩
  opinions tx notRan := by simp [stands.opinions tx notRan, noOpinion]
  codes tx notRan := by simp [stands.codes tx notRan, noCode]
  task task isTask := by
    obtain ⟨isRan, driveKey, sound, heard⟩ := stands.task task isTask
    exact ⟨isRan, driveKey, sound, heard.later (noOpinion _) (noCode _) noStep⟩

theorem Stands.run (stands : drive.Stands ran before) {deferred : DeferredVerification}
    (isStarted : deferred.request.tx ∈ before.flatMap DriveVerificationEvent.started)
    (notRan : deferred.request.tx ∉ ran)
    (runs : drive.runVerificationTask deferred = some next) :
    next.Stands (deferred.request.tx :: ran) before := by
  have queues := stands.queues.run runs
  obtain ⟨task, isNext, run, sound, goesOn⟩ := stands.queues.runVerificationTask
    (noTask_of_runVerificationTask runs) deferred
  obtain rfl := Option.some.inj (runs.symm.trans isNext)
  refine ⟨queues, ?_, by simp, ?_, ?_, ?_⟩
  · intro tx member
    cases List.mem_cons.mp member with
    | inl same => exact same ▸ isStarted
    | inr old => exact stands.started tx old
  · intro tx other
    simp only [List.mem_cons, not_or] at other
    rw [← stands.opinions tx other.2]
    simp [waitingOpinions, Std.TreeMap.getElem?_erase_eq, other.1]
  · intro tx other
    simp only [List.mem_cons, not_or] at other
    rw [← stands.codes tx other.2]
    simp [waitingCodes, Std.TreeMap.getElem?_insert_eq, other.1]
  · intro other isOther
    obtain rfl := Option.some.inj isOther
    have isRequest : task.request = deferred.request := goesOn.request
    obtain ⟨opinions, noCodes, noSteps⟩ := opinionEvents_spec fun info member =>
      (stands.queues.opinions deferred.request.tx info member).2.2
    obtain ⟨noOpinions, codes, noMore⟩ := codeEvents_spec (drive.waitingCodes deferred.request.tx)
    refine ⟨by simp [isRequest], goesOn.driveKey, sound, _, drive.fsTree, drive.driveFolder,
      by rw [isRequest]; exact run, ?_, ?_, ?_⟩
    · rw [isRequest, ← stands.opinions deferred.request.tx notRan]
      simp [List.flatMap_append, opinions, noOpinions]
    · rw [isRequest, ← stands.codes deferred.request.tx notRan]
      simp [List.flatMap_append, noCodes, codes]
    · simp [noSteps, noMore]

theorem Stands.queueOpinion (stands : drive.Stands ran before) {info : VerifyApprovalTxInfo}
    {opinion : VerifyOpinion} (driveKey : info.driveKey = drive.driveKey)
    (single : info.opinions = [opinion])
    (others : ∀ task, drive.verificationTask = some task → info.tx ≠ task.request.tx) :
    (drive.queueOpinion info).Stands ran (before ++ [.opinionReceived info opinion]) where
  queues := stands.queues.queueOpinion driveKey single
  started tx member := by simp [stands.started tx member]
  deferred request isDeferred := by
    obtain ⟨isStarted, notRan⟩ := stands.deferred request isDeferred
    exact ⟨by simp [isStarted], notRan⟩
  opinions tx notRan := by
    simp [waitingOpinions_queueOpinion, stands.opinions tx notRan, opinionFor]
  codes tx notRan := by
    have same : (drive.queueOpinion info).waitingCodes tx = drive.waitingCodes tx := rfl
    simp [same, stands.codes tx notRan, codeFor]
  task task isTask := by
    obtain ⟨isRan, sameDrive, sound, heard⟩ := stands.task task isTask
    exact ⟨isRan, sameDrive, sound, heard.later (by simp [opinionFor, others task isTask]) rfl rfl⟩

theorem Stands.queueCode (stands : drive.Stands ran before) {info : VerificationCodeInfo}
    (others : ∀ task, drive.verificationTask = some task → info.tx ≠ task.request.tx) :
    (drive.queueCode info).Stands ran (before ++ [.codeReceived info]) where
  queues := stands.queues.queueCode info
  started tx member := by simp [stands.started tx member]
  deferred request isDeferred := by
    obtain ⟨isStarted, notRan⟩ := stands.deferred request isDeferred
    exact ⟨by simp [isStarted], notRan⟩
  opinions tx notRan := by
    have same : (drive.queueCode info).waitingOpinions tx = drive.waitingOpinions tx := rfl
    simp [same, stands.opinions tx notRan, opinionFor]
  codes tx notRan := by
    simp [waitingCodes_queueCode, stands.codes tx notRan, codeFor]
  task task isTask := by
    obtain ⟨isRan, sameDrive, sound, heard⟩ := stands.task task isTask
    exact ⟨isRan, sameDrive, sound, heard.later rfl (by simp [codeFor, others task isTask]) rfl⟩

/-- The task takes a step, with a message that is for it or by itself. -/
theorem Stands.hears (stands : drive.Stands ran before) {task after : VerificationDriveTask}
    {heard : VerificationEvent} (isTask : drive.verificationTask = some task)
    (step : verificationSystem.step task heard = some after)
    (onDrive : IsOnDrive task.driveKey heard)
    (opinions : ∀ tx, opinionFor tx event = if tx = task.request.tx then heard.opinion else [])
    (codes : ∀ tx, codeFor tx event = if tx = task.request.tx then heard.code else [])
    (steps : event.internal = [heard].filter (·.isInternal)) :
    { drive with verificationTask := some after }.Stands ran (before ++ [event]) := by
  obtain ⟨isRan, sameDrive, sound, events, fsTree, driveFolder, run, heardOpinions, heardCodes,
    taken⟩ := stands.task task isTask
  obtain ⟨afterSound, goesOn⟩ := sound.step onDrive step
  have apart : ∀ tx ∉ ran, tx ≠ task.request.tx := by
    rintro tx notRan rfl
    exact notRan isRan
  refine ⟨⟨stands.queues.opinions, stands.queues.codes⟩, ?_, ?_, ?_, ?_, ?_⟩
  · intro tx member
    simp [stands.started tx member]
  · intro request isDeferred
    obtain ⟨isStarted, notRan⟩ := stands.deferred request isDeferred
    exact ⟨by simp [isStarted], notRan⟩
  · intro tx notRan
    refine (stands.opinions tx notRan).trans ?_
    simp [opinions, apart tx notRan]
  · intro tx notRan
    refine (stands.codes tx notRan).trans ?_
    simp [codes, apart tx notRan]
  · intro other isOther
    obtain rfl := Option.some.inj isOther
    refine ⟨by rwa [goesOn.request], goesOn.driveKey.trans sameDrive, afterSound,
      events ++ [heard], fsTree, driveFolder, ?_, ?_, ?_, ?_⟩
    · rw [goesOn.request]
      exact (verificationSystem.exec_append).mpr
        ⟨task, run, (verificationSystem.exec_cons_iff).mpr ⟨after, step, rfl⟩⟩
    · simp [goesOn.request, heardOpinions, opinions]
    · simp [goesOn.request, heardCodes, codes]
    · obtain ⟨earlier, isSuffix⟩ := taken
      exact ⟨earlier, by simp [← isSuffix, steps]⟩

/-- A step keeps what holds, if it does not start a verification once more. -/
theorem Stands.step (stands : drive.Stands ran before)
    (fresh : ∀ tx ∈ event.started, tx ∉ before.flatMap DriveVerificationEvent.started)
    (step : driveVerifications.step drive event = some next) :
    ∃ ran, next.Stands ran (before ++ [event]) := by
  cases event with
  | startVerification request =>
      have isNew : request.request.tx ∉ ran :=
        fun isRan => fresh _ (by simp [DriveVerificationEvent.started]) (stands.started _ isRan)
      have isStarted : request.request.tx ∈
          (before ++ [DriveVerificationEvent.startVerification request]).flatMap
            DriveVerificationEvent.started := by
        simp [DriveVerificationEvent.started]
      have later : drive.Stands ran (before ++ [.startVerification request]) :=
        stands.later (fun _ => rfl) (fun _ => rfl) rfl
      have deferring : { drive with deferredVerificationRequest := some request }.Stands ran
          (before ++ [DriveVerificationEvent.startVerification request]) := by
        refine { later with
          queues := ⟨later.queues.opinions, later.queues.codes⟩
          deferred := ?_ }
        intro other isOther
        obtain rfl := Option.some.inj isOther
        exact ⟨isStarted, isNew⟩
      cases startVerification_cases step with
      | inl waits => exact ⟨ran, waits ▸ deferring⟩
      | inr runs => exact ⟨_, deferring.run isStarted isNew runs⟩
  | opinionReceived info opinion =>
      simp only [driveVerifications, Option.ite_none_right_eq_some, Option.some.injEq] at step
      obtain ⟨⟨driveKey, single⟩, rfl⟩ := step
      refine ⟨ran, ?_⟩
      cases onVerificationOpinionReceived_cases drive info opinion with
      | inl hears =>
          obtain ⟨task, isTask, tx, isNext⟩ := hears
          have sameDrive := (stands.task task isTask).2.1
          have taskStep : verificationSystem.step task (.opinionReceived info opinion) =
              some (task.processedVerificationOpinion info opinion).1 := if_pos single
          rw [isNext]
          refine stands.hears isTask taskStep (driveKey.trans sameDrive.symm) ?_ ?_ rfl
          · simp [opinionFor, VerificationEvent.opinion, tx, eq_comm]
          · simp [codeFor, VerificationEvent.code]
      | inr queued =>
          rw [queued.2]
          exact stands.queueOpinion driveKey single queued.1
  | codeReceived info =>
      refine ⟨ran, ?_⟩
      cases onVerificationCodeReceived_cases step with
      | inl hears =>
          obtain ⟨task, after, isTask, tx, taskStep, rfl⟩ := hears
          refine stands.hears isTask taskStep trivial ?_ ?_ rfl
          · simp [opinionFor, VerificationEvent.opinion]
          · simp [codeFor, VerificationEvent.code, tx, eq_comm]
      | inr queued =>
          rw [queued.2]
          exact stands.queueCode queued.1
  | nextTask isClosing =>
      have later : drive.Stands ran (before ++ [.nextTask isClosing]) :=
        stands.later (fun _ => rfl) (fun _ => rfl) rfl
      have initialized : { drive with isInitializing := false }.Stands ran
          (before ++ [DriveVerificationEvent.nextTask isClosing]) :=
        { later with queues := ⟨later.queues.opinions, later.queues.codes⟩ }
      cases runNextTask_cases step with
      | inl waits => exact ⟨ran, waits ▸ initialized⟩
      | inr runs =>
          obtain ⟨request, isDeferred, runs⟩ := runs
          obtain ⟨isStarted, notRan⟩ := later.deferred request isDeferred
          exact ⟨_, initialized.run isStarted notRan runs⟩
  | modified fsTree driveFolder modification =>
      simp only [driveVerifications, Option.ite_none_right_eq_some, Option.some.injEq] at step
      obtain ⟨-, rfl⟩ := step
      have later : drive.Stands ran (before ++ [.modified fsTree driveFolder modification]) :=
        stands.later (fun _ => rfl) (fun _ => rfl) rfl
      exact ⟨ran, { later with queues := ⟨later.queues.opinions, later.queues.codes⟩ }⟩
  | cancelVerification =>
      obtain rfl := Option.some.inj step
      have later : drive.Stands ran (before ++ [.cancelVerification]) :=
        stands.later (fun _ => rfl) (fun _ => rfl) rfl
      exact ⟨ran, { later with
        queues := ⟨later.queues.opinions, later.queues.codes⟩
        deferred := fun _ isDeferred => by simp [cancelVerification] at isDeferred
        task := fun _ isTask => by simp [cancelVerification] at isTask }⟩
  | terminate =>
      obtain rfl := Option.some.inj step
      have later : drive.Stands ran (before ++ [.terminate]) :=
        stands.later (fun _ => rfl) (fun _ => rfl) rfl
      exact ⟨ran, { later with
        queues := ⟨later.queues.opinions, later.queues.codes⟩
        task := fun _ isTask => by simp [terminate] at isTask }⟩
  | task heard =>
      simp only [driveVerifications, Option.ite_none_right_eq_some] at step
      obtain ⟨isInternal, step⟩ := step
      obtain ⟨after, taskStep, rfl⟩ := Option.map_eq_some_iff.mp step
      obtain ⟨task, isTask, taskStep⟩ := Option.bind_eq_some_iff.mp taskStep
      obtain ⟨noOpinion, noCode, onDrive⟩ := VerificationEvent.spec_of_isInternal isInternal
      refine ⟨ran, stands.hears isTask taskStep (onDrive _) ?_ ?_ ?_⟩
      · simp [opinionFor, noOpinion]
      · simp [codeFor, noCode]
      · simp [DriveVerificationEvent.internal, isInternal]

theorem Stands.exec {events : List DriveVerificationEvent} (stands : drive.Stands ran before)
    (once : ((before ++ events).flatMap DriveVerificationEvent.started).Nodup)
    (run : driveVerifications.exec drive events = some next) :
    ∃ ran, next.Stands ran (before ++ events) := by
  induction events generalizing drive ran before with
  | nil =>
      obtain rfl : drive = next := by simpa using run
      exact ⟨ran, by simpa using stands⟩
  | cons event events ih =>
      obtain ⟨mid, step, rest⟩ := (driveVerifications.exec_cons_iff).mp run
      have fresh : ∀ tx ∈ event.started, tx ∉ before.flatMap DriveVerificationEvent.started := by
        intro tx isNew isOld
        simp only [List.flatMap_append, List.flatMap_cons] at once
        exact List.disjoint_of_nodup_append once isOld (List.mem_append_left _ isNew)
      obtain ⟨midRan, midStands⟩ := stands.step fresh step
      obtain ⟨lastRan, lastStands⟩ := ih midStands (by simpa using once) rest
      exact ⟨lastRan, by simpa using lastStands⟩

def create (driveKey : Key) (replicatorKey : ReplicatorKey) (fsTree : FsTree)
    (driveFolder : DriveFolder) (lastApprovedModification : Hash256) : DriveVerifications :=
  { driveKey, replicatorKey, fsTree, driveFolder, lastApprovedModification }

theorem stands_create (driveKey : Key) (replicatorKey : ReplicatorKey) (fsTree : FsTree)
    (driveFolder : DriveFolder) (modification : Hash256) :
    (create driveKey replicatorKey fsTree driveFolder modification).Stands [] [] where
  queues := ⟨by simp [waitingOpinions, create], by simp [waitingCodes, create]⟩
  started := by simp
  deferred := by simp [create]
  opinions := by simp [waitingOpinions, create]
  codes := by simp [waitingCodes, create]
  task := by simp [create]

/-- If no verification is asked for twice, the one that runs has heard all the messages for it,
    those before its start as well, each of them once and in the order they came in. -/
theorem hasHeard_of_run {driveKey : Key} {replicatorKey : ReplicatorKey} {fsTree : FsTree}
    {driveFolder : DriveFolder} {modification : Hash256} {events : List DriveVerificationEvent}
    {task : VerificationDriveTask}
    (once : (events.flatMap DriveVerificationEvent.started).Nodup)
    (run : driveVerifications.exec
      (create driveKey replicatorKey fsTree driveFolder modification) events = some drive)
    (isTask : drive.verificationTask = some task) : drive.HasHeard events task := by
  obtain ⟨ran, stands⟩ := (stands_create _ _ _ _ _).exec (by simpa using once) run
  exact (stands.task task isTask).2.2.2

/-- A code and an opinion come while the drive is being initialized, before the request. -/
def sampleEvents : List DriveVerificationEvent :=
  let opinion : VerifyOpinion := { publicKey := 2, opinions := [0, 1] }
  [.codeReceived { tx := 1, replicatorKey := 2, driveKey := 9, code := 5 },
    .opinionReceived { tx := 1, driveKey := 9, shardId := 0, opinions := [opinion] } opinion,
    .startVerification
      { request := { tx := 1, shardId := 0, replicators := [2, 3] }, approvedModification := 7
        blockedReplicators := [] },
    .nextTask false, .task .verificationCodesCompleted]

theorem hasHeard_of_run_sample : ∃ drive task,
    driveVerifications.exec (create 9 3 (.mk "/" .nil) (fun _ => none) 7) sampleEvents =
      some drive ∧ drive.verificationTask = some task ∧ drive.HasHeard sampleEvents task := by
  have runs : ((driveVerifications.exec (create 9 3 (.mk "/" .nil) (fun _ => none) 7)
      sampleEvents).any fun drive => drive.verificationTask.isSome) = true := by decide +kernel
  obtain ⟨drive, run, isSome⟩ := (Option.any_eq_true _ _).mp runs
  obtain ⟨task, isTask⟩ := Option.isSome_iff_exists.mp isSome
  exact ⟨drive, task, run, isTask, hasHeard_of_run (by decide) run isTask⟩

end DriveVerifications

end SiriusDrive
