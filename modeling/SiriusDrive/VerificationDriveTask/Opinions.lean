import Mathlib.Data.List.Nodup
import SiriusDrive.VerificationDriveTask.Codes

/-! # The opinions of a verification

Opinions are held once for each replicator of the shard, and the timer of the
approval is started by the first of them that comes after our own one and makes
them enough. The opinion that is received first is taken as it is, without a look
at the timer.
-/

namespace SiriusDrive

/-- Opinions of different replicators of the shard, each on all of them. -/
structure VerificationRequest.Covers (request : VerificationRequest) (info : VerifyApprovalTxInfo) :
    Prop where
  distinct : (info.opinions.map (·.publicKey)).Nodup
  member : ∀ opinion ∈ info.opinions, opinion.publicKey ∈ request.replicators
  size : ∀ opinion ∈ info.opinions, opinion.opinions.length = request.replicators.length

namespace VerificationDriveTask

/-! ## What is claimed of a state -/

/-- The timer of the approval runs, or the approval is sent, as soon as our opinion exists and
    enough opinions are held. -/
def TimerRuns (task : VerificationDriveTask) : Prop :=
  ∀ info, task.myOpinion.isSome = true → task.myVerificationApprovalTxInfo = some info →
    info.opinions.length > task.opinionThreshold →
      task.verifyOpinionTimer = .pending ∨ task.verifyApproveTxSent = true

/-- Every approval sent has enough opinions. -/
def ApprovalsAreCovered (task : VerificationDriveTask) : Prop :=
  ∀ info ∈ task.sentApprovals, task.request.Covers info ∧
    info.opinions.length > task.opinionThreshold

/-- A verification that has not been terminated comes to its approval. -/
def Approves (task : VerificationDriveTask) : Prop :=
  (task.verificationMustBeInterrupted = true ∨ task.TimerRuns) ∧ task.ApprovalsAreCovered

/-! ## When our opinion is formed -/

/-- The step that brings us to our opinion: all codes are there, or time is up. -/
def FormsOpinion (task : VerificationDriveTask) : VerificationEvent → Prop
  | .verificationCodesCompleted =>
      task.verificationMustBeInterrupted = false ∧ task.verifyThread = true ∧
        task.replicatorKey ∈ task.request.replicators ∧ task.myOpinion = none ∧
          task.receivedCodes.size + 1 = task.request.replicators.length
  | .codeReceived info =>
      task.verificationMustBeInterrupted = false ∧ task.myVerifyCodesCalculated = true ∧
        task.myOpinion = none ∧ info.tx = task.request.tx ∧
          info.replicatorKey ∈ task.request.replicators ∧
            task.receivedCodes.contains info.replicatorKey = false ∧
              task.receivedCodes.size + 2 = task.request.replicators.length
  | .verifyCodeTimerExpired =>
      task.verificationMustBeInterrupted = false ∧ task.verifyCodeTimer = .pending
  | _ => False

/-- The opinions held let our opinion start the timer, or are too few. If there are none, our
    opinion is too few alone unless we are the whole shard; otherwise none of them has our key. -/
def OwnOpinionCounts (task : VerificationDriveTask) : Prop :=
  match task.myVerificationApprovalTxInfo with
  | none => task.request.replicators.length ≠ 1
  | some info =>
      (∀ opinion ∈ info.opinions, opinion.publicKey ≠ task.replicatorKey) ∨
        info.opinions.length ≤ task.opinionThreshold

def FormsCountingOpinion (task : VerificationDriveTask) (event : VerificationEvent) : Prop :=
  task.FormsOpinion event → task.OwnOpinionCounts

/-! ## The invariant -/

structure Collects (task : VerificationDriveTask) : Prop where
  held : ∀ info, task.myVerificationApprovalTxInfo = some info → task.request.Covers info
  /-- The timer is started with enough opinions, and our own among them. -/
  timer : task.verifyOpinionTimer ≠ .unset → task.myOpinion.isSome = true ∧
    ∃ info, task.myVerificationApprovalTxInfo = some info ∧
      info.opinions.length > task.opinionThreshold
  expired : task.verifyOpinionTimer = .expired → task.verifyApproveTxSent = true
  sent : task.verifyApproveTxSent = true → task.myOpinion.isSome = true
  own : task.myOpinion.isSome = true → task.myVerificationApprovalTxInfo.isSome = true
  calculated : task.myVerifyCodesCalculated = true →
    task.replicatorKey ∈ task.request.replicators ∧
      task.verificationCodes.length = task.request.replicators.length
  codeTimer : task.verifyCodeTimer = .pending →
    task.myOpinion = none ∧ task.myVerifyCodesCalculated = true
  approvals : task.ApprovalsAreCovered
  runs : task.verificationMustBeInterrupted = false → task.TimerRuns

theorem collects_create (request : VerificationRequest) (driveKey : Key)
    (replicatorKey : ReplicatorKey) (fsTree : FsTree) (driveFolder : DriveFolder) :
    (create request driveKey replicatorKey fsTree driveFolder).Collects where
  held _ held := by cases held
  timer started := absurd rfl started
  expired isExpired := by cases isExpired
  sent isSent := by cases isSent
  own isOwn := by cases isOwn
  calculated isCalculated := by cases isCalculated
  codeTimer isPending := by cases isPending
  approvals _ member := by cases member
  runs _ _ own := by cases own

theorem Collects.approves {task : VerificationDriveTask} (collects : task.Collects) :
    task.Approves := by
  constructor
  · cases interrupted : task.verificationMustBeInterrupted with
    | true => exact Or.inl rfl
    | false => exact Or.inr (collects.runs interrupted)
  · exact collects.approvals

/-! ## Processing an opinion -/

variable {task : VerificationDriveTask}

def opinionTimerAfter (task : VerificationDriveTask) (info : VerifyApprovalTxInfo) : Timer :=
  if task.myOpinion.isSome && info.opinions.length > task.opinionThreshold then
    if task.verifyOpinionTimer.isSet then task.verifyOpinionTimer else .pending
  else task.verifyOpinionTimer

theorem startOpinionTimer_eq (task : VerificationDriveTask) (info : VerifyApprovalTxInfo) :
    task.startOpinionTimer info =
      { task with verifyOpinionTimer := task.opinionTimerAfter info } := by
  rw [startOpinionTimer, opinionTimerAfter]
  split
  · cases task.verifyOpinionTimer.isSet <;> rfl
  · rfl

/-- The opinion is on this verification, by a replicator of the shard, and on all of them. -/
def Accepts (task : VerificationDriveTask) (info : VerifyApprovalTxInfo)
    (opinion : VerifyOpinion) : Prop :=
  task.request.tx = info.tx ∧ task.request.shardId = info.shardId ∧
    opinion.publicKey ∈ task.request.replicators ∧
      opinion.opinions.length = task.request.replicators.length

theorem processedVerificationOpinion_of_not_accepts {info : VerifyApprovalTxInfo}
    {opinion : VerifyOpinion} (rejected : ¬ task.Accepts info opinion) :
    (task.processedVerificationOpinion info opinion).1 = task := by
  rw [processedVerificationOpinion]
  split_ifs with tx shard unexpected size
  · rfl
  · rfl
  · rfl
  · rfl
  all_goals
    exfalso
    apply rejected
    exact ⟨not_not.mp tx, not_not.mp shard, by simpa using unexpected, not_not.mp size⟩

theorem processedVerificationOpinion_of_accepts {info : VerifyApprovalTxInfo}
    {opinion : VerifyOpinion} (accepted : task.Accepts info opinion) :
    task.processedVerificationOpinion info opinion =
      let held := task.myVerificationApprovalTxInfo.getD info
      let task := { task with myVerificationApprovalTxInfo := some held }
      if held.opinions.any (·.publicKey = opinion.publicKey) then (task, true)
      else
        let held := { held with opinions := held.opinions ++ [opinion] }
        ({ task with myVerificationApprovalTxInfo := some held }.startOpinionTimer held, true) := by
  obtain ⟨tx, shard, member, size⟩ := accepted
  have expected : ¬ (!task.request.replicators.contains opinion.publicKey) = true := by
    simpa using member
  rw [processedVerificationOpinion, if_neg (not_not.mpr tx), if_neg (not_not.mpr shard),
    if_neg expected, if_neg (not_not.mpr size)]

theorem processedVerificationOpinion_of_first {info : VerifyApprovalTxInfo}
    {opinion : VerifyOpinion} (accepted : task.Accepts info opinion)
    (single : info.opinions = [opinion]) (first : task.myVerificationApprovalTxInfo = none) :
    task.processedVerificationOpinion info opinion =
      ({ task with myVerificationApprovalTxInfo := some info }, true) := by
  rw [processedVerificationOpinion_of_accepts accepted]
  simp only [first, Option.getD_none, single, List.any_cons, List.any_nil, decide_true,
    Bool.true_or, if_true]

theorem processedVerificationOpinion_of_duplicate {info held : VerifyApprovalTxInfo}
    {opinion : VerifyOpinion} (accepted : task.Accepts info opinion)
    (isHeld : task.myVerificationApprovalTxInfo = some held)
    (duplicate : ∃ other ∈ held.opinions, other.publicKey = opinion.publicKey) :
    task.processedVerificationOpinion info opinion = (task, true) := by
  have found : held.opinions.any (·.publicKey = opinion.publicKey) = true := by
    simpa using duplicate
  have same : { task with myVerificationApprovalTxInfo := some held } = task := by rw [← isHeld]
  rw [processedVerificationOpinion_of_accepts accepted]
  simp only [isHeld, Option.getD_some, found, if_true]
  rw [same]

theorem processedVerificationOpinion_of_new {info held : VerifyApprovalTxInfo}
    {opinion : VerifyOpinion} (accepted : task.Accepts info opinion)
    (isHeld : task.myVerificationApprovalTxInfo = some held)
    (isNew : ∀ other ∈ held.opinions, other.publicKey ≠ opinion.publicKey) :
    task.processedVerificationOpinion info opinion =
      ({ task with
          myVerificationApprovalTxInfo :=
            some { held with opinions := held.opinions ++ [opinion] }
          verifyOpinionTimer :=
            task.opinionTimerAfter { held with opinions := held.opinions ++ [opinion] } }, true) := by
  have missing : held.opinions.any (·.publicKey = opinion.publicKey) = false := by
    simpa using isNew
  rw [processedVerificationOpinion_of_accepts accepted]
  simp only [isHeld, Option.getD_some, missing, Bool.false_eq_true, if_false]
  rw [startOpinionTimer_eq]
  rfl

/-- One more opinion of another replicator keeps the opinions covered. -/
theorem covers_append {held info : VerifyApprovalTxInfo} {opinion : VerifyOpinion}
    (covers : task.request.Covers held) (accepted : task.Accepts info opinion)
    (isNew : ∀ other ∈ held.opinions, other.publicKey ≠ opinion.publicKey) :
    task.request.Covers { held with opinions := held.opinions ++ [opinion] } := by
  obtain ⟨-, -, member, size⟩ := accepted
  constructor
  · rw [List.map_append, List.nodup_append]
    refine ⟨covers.distinct, List.nodup_singleton _, ?_⟩
    intro key isHeld other isOther
    obtain ⟨one, isOne, rfl⟩ := List.mem_map.mp isHeld
    obtain rfl : other = opinion.publicKey := by simpa using isOther
    exact isNew one isOne
  · intro one isOne
    rcases List.mem_append.mp isOne with old | last
    · exact covers.member one old
    · rwa [List.mem_singleton.mp last]
  · intro one isOne
    rcases List.mem_append.mp isOne with old | last
    · exact covers.size one old
    · rwa [List.mem_singleton.mp last]

theorem covers_single {info : VerifyApprovalTxInfo} {opinion : VerifyOpinion}
    (accepted : task.Accepts info opinion) (single : info.opinions = [opinion]) :
    task.request.Covers info := by
  obtain ⟨-, -, member, size⟩ := accepted
  constructor
  · rw [single]
    exact List.nodup_singleton _
  · intro one isOne
    rw [single] at isOne
    rwa [List.mem_singleton.mp isOne]
  · intro one isOne
    rw [single] at isOne
    rwa [List.mem_singleton.mp isOne]

theorem opinionTimerAfter_of_enough {info : VerifyApprovalTxInfo}
    (own : task.myOpinion.isSome = true) (enough : info.opinions.length > task.opinionThreshold)
    (expired : task.verifyOpinionTimer = .expired → task.verifyApproveTxSent = true) :
    task.opinionTimerAfter info = .pending ∨ task.verifyApproveTxSent = true := by
  rw [opinionTimerAfter, own, Bool.true_and, decide_eq_true enough, if_pos rfl]
  cases timer : task.verifyOpinionTimer with
  | unset => left; rfl
  | pending => left; rfl
  | expired => right; exact expired timer

theorem opinionTimerAfter_eq_expired {info : VerifyApprovalTxInfo}
    (isExpired : task.opinionTimerAfter info = .expired) : task.verifyOpinionTimer = .expired := by
  rw [opinionTimerAfter] at isExpired
  split at isExpired
  · split at isExpired
    · exact isExpired
    · cases isExpired
  · exact isExpired

theorem opinionTimerAfter_ne_unset {info : VerifyApprovalTxInfo}
    (isSet : task.opinionTimerAfter info ≠ .unset) : task.verifyOpinionTimer ≠ .unset ∨
      (task.myOpinion.isSome = true ∧ info.opinions.length > task.opinionThreshold) := by
  rw [opinionTimerAfter] at isSet
  split at isSet
  · rename_i enough
    right
    simpa using enough
  · left
    exact isSet

theorem collects_of_new {held info : VerifyApprovalTxInfo} {opinion : VerifyOpinion}
    (isHeld : task.myVerificationApprovalTxInfo = some held) (accepted : task.Accepts info opinion)
    (isNew : ∀ other ∈ held.opinions, other.publicKey ≠ opinion.publicKey)
    (covers : task.request.Covers held)
    (timer : task.verifyOpinionTimer ≠ .unset → task.myOpinion.isSome = true ∧
      held.opinions.length > task.opinionThreshold)
    (expired : task.verifyOpinionTimer = .expired → task.verifyApproveTxSent = true)
    (sent : task.verifyApproveTxSent = true → task.myOpinion.isSome = true)
    (calculated : task.myVerifyCodesCalculated = true →
      task.replicatorKey ∈ task.request.replicators ∧
        task.verificationCodes.length = task.request.replicators.length)
    (codeTimer : task.verifyCodeTimer = .pending →
      task.myOpinion = none ∧ task.myVerifyCodesCalculated = true)
    (approvals : task.ApprovalsAreCovered) :
    (task.processedVerificationOpinion info opinion).1.Collects := by
  have longer : held.opinions.length < (held.opinions ++ [opinion]).length := by
    rw [List.length_append, List.length_singleton]
    omega
  rw [processedVerificationOpinion_of_new accepted isHeld isNew]
  constructor
  · intro info isInfo
    cases isInfo
    exact covers_append covers accepted isNew
  · intro isSet
    rcases opinionTimerAfter_ne_unset isSet with wasSet | ⟨own, enough⟩
    · obtain ⟨own, enough⟩ := timer wasSet
      exact ⟨own, _, rfl, Nat.lt_trans enough longer⟩
    · exact ⟨own, _, rfl, enough⟩
  · intro isExpired
    exact expired (opinionTimerAfter_eq_expired isExpired)
  · exact sent
  · intro _
    rfl
  · exact calculated
  · exact codeTimer
  · exact approvals
  · intro _ info own isInfo enough
    cases isInfo
    exact opinionTimerAfter_of_enough own enough expired

theorem Collects.processedVerificationOpinion (collects : task.Collects)
    {info : VerifyApprovalTxInfo} {opinion : VerifyOpinion} (single : info.opinions = [opinion]) :
    (task.processedVerificationOpinion info opinion).1.Collects := by
  by_cases accepted : task.Accepts info opinion
  · cases isHeld : task.myVerificationApprovalTxInfo with
    | none =>
        have noOpinion : ¬ task.myOpinion.isSome = true := by
          intro own
          have isSome := collects.own own
          rw [isHeld] at isSome
          cases isSome
        have unset : task.verifyOpinionTimer = .unset := by
          by_contra isSet
          exact noOpinion (collects.timer isSet).1
        rw [processedVerificationOpinion_of_first accepted single isHeld]
        constructor
        · intro other isOther
          cases isOther
          exact covers_single accepted single
        · intro isSet
          exact absurd unset isSet
        · exact collects.expired
        · exact collects.sent
        · intro _
          rfl
        · exact collects.calculated
        · exact collects.codeTimer
        · exact collects.approvals
        · intro _ _ own
          exact absurd own noOpinion
    | some held =>
        by_cases duplicate : ∃ other ∈ held.opinions, other.publicKey = opinion.publicKey
        · rw [processedVerificationOpinion_of_duplicate accepted isHeld duplicate]
          exact collects
        · have isNew : ∀ other ∈ held.opinions, other.publicKey ≠ opinion.publicKey := by
            intro other member same
            exact duplicate ⟨other, member, same⟩
          apply collects_of_new isHeld accepted isNew (collects.held held isHeld)
          · intro isSet
            obtain ⟨own, other, isOther, enough⟩ := collects.timer isSet
            rw [isHeld] at isOther
            cases isOther
            exact ⟨own, enough⟩
          · exact collects.expired
          · exact collects.sent
          · exact collects.calculated
          · exact collects.codeTimer
          · exact collects.approvals
  · rw [processedVerificationOpinion_of_not_accepts accepted]
    exact collects

/-! ## Forming our opinion -/

/-- When our opinion is formed, there is none yet, and the codes have been calculated. -/
structure IsReady (task : VerificationDriveTask) : Prop where
  collects : task.Collects
  goesOn : task.verificationMustBeInterrupted = false
  calculated : task.myVerifyCodesCalculated = true
  noOpinion : task.myOpinion = none

theorem IsReady.notSent (ready : task.IsReady) : task.verifyApproveTxSent = false := by
  cases sent : task.verifyApproveTxSent with
  | false => rfl
  | true =>
      have own := ready.collects.sent sent
      rw [ready.noOpinion] at own
      cases own

theorem IsReady.unset (ready : task.IsReady) : task.verifyOpinionTimer = .unset := by
  by_contra isSet
  have own := (ready.collects.timer isSet).1
  rw [ready.noOpinion] at own
  cases own

theorem IsReady.accepts (ready : task.IsReady) :
    task.sharing.Accepts task.ownApproval task.ownOpinion := by
  obtain ⟨member, size⟩ := ready.collects.calculated ready.calculated
  refine ⟨rfl, rfl, member, ?_⟩
  show (List.zipWith task.opinionOn task.request.replicators task.verificationCodes).length = _
  rw [List.length_zipWith, size, Nat.min_self]
  rfl

theorem IsReady.verifyCodeTimerExpired (ready : task.IsReady) : task.verifyCodeTimerExpired =
    some (task.sharing.processedVerificationOpinion task.ownApproval task.ownOpinion).1 := by
  have isAccepted : (task.sharing.processedVerificationOpinion task.ownApproval
      task.ownOpinion).2 = true := by
    rw [processedVerificationOpinion_of_accepts ready.accepts]
    simp only
    split <;> rfl
  have processed : task.sharing.processedVerificationOpinion task.ownApproval task.ownOpinion =
      ((task.sharing.processedVerificationOpinion task.ownApproval task.ownOpinion).1, true) :=
    Prod.ext rfl isAccepted
  rw [VerificationDriveTask.verifyCodeTimerExpired, ready.goesOn, ready.calculated, ready.notSent,
    processed]
  rfl

theorem IsReady.collects_after (ready : task.IsReady) (counts : task.OwnOpinionCounts)
    (codeTimer : task.verifyCodeTimer ≠ .pending) :
    (task.sharing.processedVerificationOpinion task.ownApproval task.ownOpinion).1.Collects := by
  have collects := ready.collects
  have covers := collects.held
  have calculated := collects.calculated
  have approvals := collects.approvals
  have noTimer : task.sharing.verifyOpinionTimer = .unset := ready.unset
  have notSent : task.sharing.verifyApproveTxSent = false := ready.notSent
  cases isHeld : task.myVerificationApprovalTxInfo with
  | none =>
      rw [OwnOpinionCounts, isHeld] at counts
      rw [processedVerificationOpinion_of_first ready.accepts rfl isHeld]
      constructor
      · intro info isInfo
        cases isInfo
        exact covers_single ready.accepts rfl
      · intro isSet
        exact absurd noTimer isSet
      · intro isExpired
        rw [show task.sharing.verifyOpinionTimer = .expired from isExpired] at noTimer
        cases noTimer
      · intro _
        rfl
      · intro _
        rfl
      · exact calculated
      · intro isPending
        exact absurd isPending codeTimer
      · exact approvals
      · intro _ info _ isInfo enough
        cases isInfo
        exfalso
        have alone : 1 > task.request.replicators.length * 2 / 3 := enough
        have member := (calculated ready.calculated).1
        have some := List.length_pos_of_mem member
        omega
  | some held =>
      by_cases duplicate : ∃ other ∈ held.opinions, other.publicKey = task.replicatorKey
      · have few : held.opinions.length ≤ task.opinionThreshold := by
          rw [OwnOpinionCounts, isHeld] at counts
          rcases counts with isNew | few
          · obtain ⟨other, member, same⟩ := duplicate
            exact absurd same (isNew other member)
          · exact few
        rw [processedVerificationOpinion_of_duplicate ready.accepts isHeld duplicate]
        constructor
        · exact covers
        · intro isSet
          exact absurd noTimer isSet
        · intro isExpired
          rw [isExpired] at noTimer
          cases noTimer
        · intro _
          rfl
        · intro _
          show task.myVerificationApprovalTxInfo.isSome = true
          rw [isHeld]
          rfl
        · exact calculated
        · intro isPending
          exact absurd isPending codeTimer
        · exact approvals
        · intro _ info _ isInfo enough
          rw [show task.sharing.myVerificationApprovalTxInfo = some held from isHeld] at isInfo
          cases isInfo
          exact absurd few (Nat.not_le.mpr enough)
      · have isNew : ∀ other ∈ held.opinions, other.publicKey ≠ task.replicatorKey := by
          intro other member same
          exact duplicate ⟨other, member, same⟩
        apply @collects_of_new task.sharing held _ _ isHeld ready.accepts isNew
        · exact covers held isHeld
        · intro isSet
          exact absurd noTimer isSet
        · intro isExpired
          rw [isExpired] at noTimer
          cases noTimer
        · intro _
          rfl
        · exact calculated
        · intro isPending
          exact absurd isPending codeTimer
        · exact approvals

/-- Otherwise the approval is never sent, although enough opinions are held. -/
theorem IsReady.not_approves_after (ready : task.IsReady) (fails : ¬ task.OwnOpinionCounts) :
    ¬ (task.sharing.processedVerificationOpinion task.ownApproval task.ownOpinion).1.Approves := by
  have noTimer : task.sharing.verifyOpinionTimer = .unset := ready.unset
  have notSent : task.sharing.verifyApproveTxSent = false := ready.notSent
  have goesOn : task.sharing.verificationMustBeInterrupted = false := ready.goesOn
  rintro ⟨runs, -⟩
  rw [OwnOpinionCounts] at fails
  cases isHeld : task.myVerificationApprovalTxInfo with
  | none =>
      rw [isHeld] at fails
      rw [processedVerificationOpinion_of_first ready.accepts rfl isHeld] at runs
      have alone : task.request.replicators.length = 1 := not_not.mp fails
      have enough : 1 > task.request.replicators.length * 2 / 3 := by rw [alone]; decide
      rcases runs with interrupted | runs
      · exact Bool.false_ne_true (goesOn.symm.trans interrupted)
      · rcases runs task.ownApproval rfl rfl enough with pending | sent
        · cases noTimer.symm.trans pending
        · cases notSent.symm.trans sent
  | some held =>
      rw [isHeld] at fails
      simp only [not_or, Nat.not_le] at fails
      obtain ⟨known, enough⟩ := fails
      have duplicate : ∃ other ∈ held.opinions, other.publicKey = task.replicatorKey := by
        by_contra none
        apply known
        intro other member same
        exact none ⟨other, member, same⟩
      rw [processedVerificationOpinion_of_duplicate ready.accepts isHeld duplicate] at runs
      rcases runs with interrupted | runs
      · exact Bool.false_ne_true (goesOn.symm.trans interrupted)
      · rcases runs held rfl isHeld enough with pending | sent
        · cases noTimer.symm.trans pending
        · cases notSent.symm.trans sent

/-! ## Steps and runs -/

/-- `checkVerifyCodeNumber` forms our opinion when all codes are there. -/
theorem checkVerifyCodeNumber_of_all (noOpinion : task.myOpinion = none)
    (all : task.receivedCodes.size + 1 = task.request.replicators.length) :
    task.checkVerifyCodeNumber =
      { task with verifyCodeTimer := .unset }.verifyCodeTimerExpired := by
  have isNone : ¬ task.myOpinion.isSome = true := by
    rw [noOpinion]
    exact Bool.false_ne_true
  rw [checkVerifyCodeNumber, if_neg isNone, if_pos all]
  rfl

theorem collects_checkVerifyCodeNumber {after : VerificationDriveTask} (collects : task.Collects)
    (calculated : task.myVerifyCodesCalculated = true)
    (notAll : task.myOpinion = none →
      task.receivedCodes.size + 1 ≠ task.request.replicators.length)
    (check : task.checkVerifyCodeNumber = some after) : after.Collects := by
  rw [checkVerifyCodeNumber] at check
  split at check
  · cases check
    exact collects
  · rename_i noOpinion
    have own : task.myOpinion = none := by simpa using noOpinion
    rw [if_neg (notAll own)] at check
    split at check
    · cases check
      exact ⟨collects.held, collects.timer, collects.expired, collects.sent, collects.own,
        collects.calculated, fun _ => ⟨own, calculated⟩, collects.approvals, collects.runs⟩
    · cases check
      exact collects

theorem verifyCodeTimerExpired_of_interrupted
    (interrupted : task.verificationMustBeInterrupted = true) :
    task.verifyCodeTimerExpired = none := by
  rw [verifyCodeTimerExpired, interrupted]
  rfl

/-- What a code from another replicator leaves of the task. -/
def withCode (task : VerificationDriveTask) (info : VerificationCodeInfo) : VerificationDriveTask :=
  { task with receivedCodes := task.receivedCodes.insert info.replicatorKey info }

/-- A step either forms our opinion in a task that is ready, or keeps the invariant. -/
inductive Outcome (task : VerificationDriveTask) (event : VerificationEvent) :
    Option VerificationDriveTask → Prop
  | forms (ready : VerificationDriveTask) (isReady : ready.IsReady)
      (noTimer : ready.verifyCodeTimer ≠ .pending) (forms : task.FormsOpinion event)
      (same : ready.OwnOpinionCounts ↔ task.OwnOpinionCounts) :
      Outcome task event ready.verifyCodeTimerExpired
  | keeps (after : Option VerificationDriveTask) (not : ¬ task.FormsOpinion event)
      (collects : ∀ next, after = some next → next.Collects) : Outcome task event after

/-- The codes are counted in a task which differs from the one before the step in what does not
    matter to its opinions. -/
theorem outcome_checkVerifyCodeNumber {counting : VerificationDriveTask}
    {event : VerificationEvent} (collects : counting.Collects)
    (calculated : counting.myVerifyCodesCalculated = true)
    (forms : task.FormsOpinion event ↔ counting.verificationMustBeInterrupted = false ∧
      counting.myOpinion = none ∧
        counting.receivedCodes.size + 1 = counting.request.replicators.length)
    (same : counting.OwnOpinionCounts ↔ task.OwnOpinionCounts) :
    task.Outcome event counting.checkVerifyCodeNumber := by
  by_cases isForming : task.FormsOpinion event
  · obtain ⟨goesOn, noOpinion, all⟩ := forms.mp isForming
    rw [checkVerifyCodeNumber_of_all noOpinion all]
    refine .forms { counting with verifyCodeTimer := .unset } ?_ ?_ isForming same
    · refine ⟨?_, goesOn, calculated, noOpinion⟩
      exact ⟨collects.held, collects.timer, collects.expired, collects.sent, collects.own,
        collects.calculated, fun isPending => (by cases isPending), collects.approvals,
        collects.runs⟩
    · intro isPending
      cases isPending
  · refine .keeps _ isForming ?_
    intro after check
    by_cases all : counting.myOpinion = none ∧
        counting.receivedCodes.size + 1 = counting.request.replicators.length
    · -- the task must have been terminated
      have interrupted : counting.verificationMustBeInterrupted = true := by
        by_contra goesOn
        exact isForming (forms.mpr ⟨Bool.eq_false_iff.mpr goesOn, all⟩)
      have aborts := @verifyCodeTimerExpired_of_interrupted
        { counting with verifyCodeTimer := .unset } interrupted
      rw [checkVerifyCodeNumber_of_all all.1 all.2, aborts] at check
      cases check
    · apply collects_checkVerifyCodeNumber collects calculated _ check
      intro noOpinion isAll
      exact all ⟨noOpinion, isAll⟩

theorem outcome_codeReceived (collects : task.Collects) (info : VerificationCodeInfo) :
    task.Outcome (.codeReceived info) (verificationSystem.step task (.codeReceived info)) := by
  have unchanged : ∀ after, some task = some after → after.Collects := by
    intro after isAfter
    cases isAfter
    exact collects
  have withCollects : (task.withCode info).Collects :=
    ⟨collects.held, collects.timer, collects.expired, collects.sent, collects.own,
      collects.calculated, collects.codeTimer, collects.approvals, collects.runs⟩
  simp only [verificationSystem, processedVerificationCode]
  split_ifs with unknown unexpected duplicate calculated
  · refine .keeps _ ?_ unchanged
    rintro ⟨-, -, -, tx, -⟩
    exact unknown tx
  · refine .keeps _ ?_ unchanged
    rintro ⟨-, -, -, -, member, -⟩
    simp only [Bool.not_eq_true', List.contains_eq_mem, decide_eq_false_iff_not] at unexpected
    exact unexpected member
  · refine .keeps _ ?_ unchanged
    rintro ⟨-, -, -, -, -, isNew, -⟩
    exact Bool.false_ne_true (isNew.symm.trans duplicate)
  · have inserted : (task.withCode info).receivedCodes.size = task.receivedCodes.size + 1 := by
      rw [withCode, Std.TreeMap.size_insert, if_neg duplicate]
    have member : info.replicatorKey ∈ task.request.replicators := by
      simpa using unexpected
    have isNew : task.receivedCodes.contains info.replicatorKey = false :=
      Bool.eq_false_iff.mpr duplicate
    have outcome : task.Outcome (.codeReceived info)
        (task.withCode info).checkVerifyCodeNumber := by
      refine outcome_checkVerifyCodeNumber withCollects calculated ?_ Iff.rfl
      rw [inserted]
      constructor
      · rintro ⟨goesOn, -, noOpinion, -, -, -, all⟩
        exact ⟨goesOn, noOpinion, all⟩
      · rintro ⟨goesOn, noOpinion, all⟩
        exact ⟨goesOn, calculated, noOpinion, not_not.mp unknown, member, isNew, all⟩
    rw [Option.map_map]
    exact (Option.map_id_apply (x := (task.withCode info).checkVerifyCodeNumber)).symm ▸ outcome
  · refine .keeps _ ?_ ?_
    · rintro ⟨-, isCalculated, -⟩
      exact calculated isCalculated
    · intro after isAfter
      cases isAfter
      exact withCollects

theorem length_verify (request : VerificationRequest) (fsTree : FsTree)
    (driveFolder : DriveFolder) :
    (verify request fsTree driveFolder).length = request.replicators.length := by
  rw [verify_eq, List.length_map]

theorem outcome_verificationCodesCompleted (collects : task.Collects) :
    task.Outcome .verificationCodesCompleted
      (verificationSystem.step task .verificationCodesCompleted) := by
  simp only [verificationSystem]
  split_ifs with running
  · rw [verificationCodesCompleted]
    simp only
    split
    · rename_i interrupted
      refine .keeps _ ?_ ?_
      · rintro ⟨goesOn, -⟩
        exact Bool.false_ne_true (goesOn.symm.trans interrupted)
      · intro after isAfter
        cases isAfter
        refine ⟨collects.held, collects.timer, collects.expired, collects.sent, collects.own, ?_,
          collects.codeTimer, collects.approvals, collects.runs⟩
        intro calculated
        exact ⟨(collects.calculated calculated).1, length_verify _ _ _⟩
    · rename_i goesOn
      have onGoing : task.verificationMustBeInterrupted = false := Bool.eq_false_iff.mpr goesOn
      split
      · rename_i missing
        refine .keeps _ ?_ ?_
        · rintro ⟨-, -, member, -⟩
          have inside := List.idxOf_lt_length_of_mem member
          rw [← length_verify task.request task.fsTree task.driveFolder] at inside
          rw [List.getElem?_eq_getElem inside] at missing
          cases missing
        · intro after isAfter
          cases isAfter
      · rename_i ourCode found
        have inside : task.request.replicators.idxOf task.replicatorKey <
            task.request.replicators.length := by
          rw [← length_verify task.request task.fsTree task.driveFolder]
          exact (List.getElem?_eq_some_iff.mp found).1
        have member : task.replicatorKey ∈ task.request.replicators :=
          List.idxOf_lt_length_iff.mp inside
        refine outcome_checkVerifyCodeNumber ?_ rfl ?_ Iff.rfl
        · refine ⟨collects.held, collects.timer, collects.expired, collects.sent, collects.own, ?_,
            ?_, collects.approvals, collects.runs⟩
          · intro _
            exact ⟨member, length_verify _ _ _⟩
          · intro isPending
            exact ⟨(collects.codeTimer isPending).1, rfl⟩
        · constructor
          · rintro ⟨-, -, -, noOpinion, all⟩
            exact ⟨onGoing, noOpinion, all⟩
          · rintro ⟨-, noOpinion, all⟩
            exact ⟨onGoing, running, member, noOpinion, all⟩
  · refine .keeps _ ?_ ?_
    · rintro ⟨-, isRunning, -⟩
      exact running isRunning
    · intro after isAfter
      cases isAfter

theorem outcome_verifyCodeTimerExpired (collects : task.Collects) :
    task.Outcome .verifyCodeTimerExpired
      (verificationSystem.step task .verifyCodeTimerExpired) := by
  simp only [verificationSystem]
  split_ifs with pending
  · by_cases interrupted : task.verificationMustBeInterrupted = true
    · have aborts := @verifyCodeTimerExpired_of_interrupted
        { task with verifyCodeTimer := .expired } interrupted
      rw [aborts]
      refine .keeps _ ?_ ?_
      · rintro ⟨goesOn, -⟩
        exact Bool.false_ne_true (goesOn.symm.trans interrupted)
      · intro after isAfter
        cases isAfter
    · have goesOn : task.verificationMustBeInterrupted = false := Bool.eq_false_iff.mpr interrupted
      obtain ⟨noOpinion, calculated⟩ := collects.codeTimer pending
      have forms : task.FormsOpinion .verifyCodeTimerExpired := ⟨goesOn, pending⟩
      refine .forms { task with verifyCodeTimer := .expired } ?_ ?_ forms Iff.rfl
      · refine ⟨?_, goesOn, calculated, noOpinion⟩
        exact ⟨collects.held, collects.timer, collects.expired, collects.sent, collects.own,
          collects.calculated, fun isPending => (by cases isPending), collects.approvals,
          collects.runs⟩
      · intro isPending
        cases isPending
  · refine .keeps _ ?_ ?_
    · rintro ⟨-, isPending⟩
      exact pending isPending
    · intro after isAfter
      cases isAfter

theorem collects_verifyOpinionTimerExpired {after : VerificationDriveTask}
    (collects : task.Collects) (pending : task.verifyOpinionTimer = .pending)
    (expires : { task with verifyOpinionTimer := .expired }.verifyOpinionTimerExpired =
      some after) : after.Collects := by
  have isSet : task.verifyOpinionTimer ≠ .unset := by
    intro unset
    rw [unset] at pending
    cases pending
  obtain ⟨own, info, held, enough⟩ := collects.timer isSet
  simp only [verifyOpinionTimerExpired] at expires
  split at expires
  · cases expires
  · rw [held, Option.map_some] at expires
    cases expires
    refine ⟨fun other isOther => collects.held other (held.trans isOther),
      fun _ => ⟨own, info, rfl, enough⟩, fun _ => rfl, fun _ => own, fun _ => rfl,
      collects.calculated, collects.codeTimer, ?_, fun _ _ _ _ _ => Or.inr rfl⟩
    intro approval member
    rcases List.mem_append.mp member with old | last
    · exact collects.approvals approval old
    · rw [List.mem_singleton.mp last]
      exact ⟨collects.held info held, enough⟩

theorem outcome_step (collects : task.Collects) (event : VerificationEvent) :
    task.Outcome event (verificationSystem.step task event) := by
  cases event with
  | opinionReceived info opinion =>
      refine .keeps _ id ?_
      intro after step
      simp only [verificationSystem] at step
      split at step
      · rename_i single
        cases step
        exact collects.processedVerificationOpinion single
      · cases step
  | codeReceived info => exact outcome_codeReceived collects info
  | verificationCodesCompleted => exact outcome_verificationCodesCompleted collects
  | verifyCodeTimerExpired => exact outcome_verifyCodeTimerExpired collects
  | verifyOpinionTimerExpired =>
      refine .keeps _ id ?_
      intro after step
      simp only [verificationSystem] at step
      split at step
      · rename_i pending
        exact collects_verifyOpinionTimerExpired collects pending step
      · cases step
  | shareVerifyCodeTimerExpired =>
      refine .keeps _ id ?_
      intro after step
      simp only [verificationSystem] at step
      split at step
      · obtain ⟨info, -, rfl⟩ := Option.map_eq_some_iff.mp step
        exact ⟨collects.held, collects.timer, collects.expired, collects.sent, collects.own,
          collects.calculated, collects.codeTimer, collects.approvals, collects.runs⟩
      · cases step
  | shareVerifyOpinionTimerExpired =>
      refine .keeps _ id ?_
      intro after step
      simp only [verificationSystem] at step
      split at step
      · obtain ⟨info, -, rfl⟩ := Option.map_eq_some_iff.mp step
        exact ⟨collects.held, collects.timer, collects.expired, collects.sent, collects.own,
          collects.calculated, collects.codeTimer, collects.approvals, collects.runs⟩
      · cases step
  | terminate =>
      refine .keeps _ id ?_
      intro after step
      cases step
      refine ⟨collects.held, fun isSet => absurd rfl isSet, fun isExpired => ?_, collects.sent,
        collects.own, collects.calculated, fun isPending => ?_, collects.approvals, fun goesOn => ?_⟩
      · cases isExpired
      · cases isPending
      · cases goesOn

/-- A verification comes to its approval in all states of a run exactly if our opinion counts
    wherever it is formed. -/
theorem approves_iff_opinion_counts (request : VerificationRequest) (driveKey : Key)
    (replicatorKey : ReplicatorKey) (fsTree : FsTree) (driveFolder : DriveFolder)
    (events : List VerificationEvent) :
    verificationSystem.Always Approves (create request driveKey replicatorKey fsTree driveFolder)
        events ↔
      verificationSystem.Meets FormsCountingOpinion
        (create request driveKey replicatorKey fsTree driveFolder) events := by
  apply Transition.always_iff_meets (E := fun _ _ => True) (I := Collects)
  · exact fun _ collects => collects.approves
  · intro task event after collects _ counts step
    have outcome := outcome_step collects event
    rw [step] at outcome
    generalize reached : some after = result at outcome
    cases outcome with
    | forms ready isReady noTimer forms same =>
        rw [isReady.verifyCodeTimerExpired] at reached
        cases reached
        exact isReady.collects_after (same.mpr (counts forms)) noTimer
    | keeps _ _ keeps => exact keeps after reached.symm
  · intro task event collects _ fails
    have forms : task.FormsOpinion event := by
      by_contra notForms
      exact fails fun isForming => absurd isForming notForms
    have outcome := outcome_step collects event
    generalize reached : verificationSystem.step task event = result at outcome
    cases outcome with
    | forms ready isReady noTimer _ same =>
        refine ⟨_, isReady.verifyCodeTimerExpired, isReady.not_approves_after ?_⟩
        intro counts
        exact fails fun _ => same.mp counts
    | keeps _ notForms => exact absurd forms notForms
  · exact collects_create request driveKey replicatorKey fsTree driveFolder
  · exact Transition.meets_of_forall (P := fun _ => True) fun _ _ => trivial

/-- In a shard of one replicator no timer is started. -/
theorem lone_opinion_starts_no_timer :
    ¬ verificationSystem.Always Approves
      (create { tx := 1, shardId := 0, replicators := [1] } 9 1 (.mk "/" .nil) fun _ => none)
      [.verificationCodesCompleted] := by
  rintro ⟨-, later⟩
  rcases (later _ rfl).1 with interrupted | runs
  · cases interrupted
  · rcases runs _ rfl rfl (by decide) with pending | sent
    · cases pending
    · cases sent

end VerificationDriveTask

end SiriusDrive
