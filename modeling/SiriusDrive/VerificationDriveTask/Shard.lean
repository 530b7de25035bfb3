import SiriusDrive.Lib.Quorums
import SiriusDrive.VerificationDriveTask.SignedMessages

/-! # A verification in its shard

The replicators of a shard verify a drive together. Between honest replicators
messages can be lost, delayed, doubled and taken in any order; the others send what
they like, but sign for themselves only. What an honest replicator approves is then
what the honest authors of its opinions have seen, and the approvals of any two
honest replicators have such an author in common.
-/

namespace SiriusDrive

open VerificationDriveTask (GoesOn Sound)

/-- A shard that verifies a drive, with the tasks of its honest replicators. -/
structure VerificationShard where
  request : VerificationRequest
  driveKey : Key
  honest : List ReplicatorKey
  task : ReplicatorKey → VerificationDriveTask

namespace VerificationShard

/-- `VerificationCodeInfo::Verify`: nobody signs for an honest replicator, and that signs the
    code it has computed. Other verifications are left open. -/
def isSignedCode (shard : VerificationShard) (info : VerificationCodeInfo) : Bool :=
  !shard.honest.contains info.replicatorKey || info.tx ≠ shard.request.tx ||
    (shard.task info.replicatorKey).myCodeInfo = some info

/-- `VerifyOpinion::Verify`. -/
def isSignedOpinion (shard : VerificationShard) (info : VerifyApprovalTxInfo)
    (opinion : VerifyOpinion) : Bool :=
  !shard.honest.contains opinion.publicKey || info.tx ≠ shard.request.tx ||
    info.shardId ≠ shard.request.shardId || (shard.task opinion.publicKey).myOpinion = some info

/-- `processVerificationCode` and `processVerificationOpinion` of the replicator: a message with
    a bad signature or for another drive does not reach the task. -/
def admits (shard : VerificationShard) : VerificationEvent → Bool
  | .codeReceived info => info.driveKey = shard.driveKey && shard.isSignedCode info
  | .opinionReceived info opinion =>
      info.driveKey = shard.driveKey && shard.isSignedOpinion info opinion
  | _ => true

/-- The honest replicators of a shard under their threads, their timers and the messages of all
    replicators. -/
def shards : Transition VerificationShard (ReplicatorKey × VerificationEvent) where
  step shard event :=
    if shard.honest.contains event.1 && shard.admits event.2 then
      (verificationSystem.step (shard.task event.1) event.2).map fun task =>
        { shard with task := Function.update shard.task event.1 task }
    else none

/-- The honest replicators have received the request, each with its own copy of the drive. -/
def start (request : VerificationRequest) (driveKey : Key) (honest : List ReplicatorKey)
    (fsTree : ReplicatorKey → FsTree) (driveFolder : ReplicatorKey → DriveFolder) :
    VerificationShard where
  request := request
  driveKey := driveKey
  honest := honest
  task key := .create request driveKey key (fsTree key) (driveFolder key)

variable {shard next : VerificationShard}

/-- A code of an honest replicator is the one it has signed. -/
def HasSignedCode (shard : VerificationShard) (info : VerificationCodeInfo) : Prop :=
  info.replicatorKey ∈ shard.honest → (shard.task info.replicatorKey).myCodeInfo = some info

/-- An opinion of an honest replicator is the one it has signed. -/
def HasSignedOpinion (shard : VerificationShard) (opinion : VerifyOpinion) : Prop :=
  opinion.publicKey ∈ shard.honest → (shard.task opinion.publicKey).myOpinion =
    some ((shard.task opinion.publicKey).approvalOf opinion)

/-- What holds of the honest replicators of a shard. -/
structure Stands (shard : VerificationShard) : Prop where
  request : ∀ key, (shard.task key).request = shard.request
  driveKey : ∀ key, (shard.task key).driveKey = shard.driveKey
  replicatorKey : ∀ key, (shard.task key).replicatorKey = key
  sound : ∀ key, (shard.task key).Sound shard.HasSignedCode shard.HasSignedOpinion

theorem Stands.start (request : VerificationRequest) (driveKey : Key) (honest : List ReplicatorKey)
    (fsTree : ReplicatorKey → FsTree) (driveFolder : ReplicatorKey → DriveFolder) :
    (start request driveKey honest fsTree driveFolder).Stands where
  request _ := rfl
  driveKey _ := rfl
  replicatorKey _ := rfl
  sound key := Sound.create request driveKey key (fsTree key) (driveFolder key)

/-- What the task of an honest replicator is admitted to hear is signed. -/
theorem Stands.hasSignedCode_of_admits (stands : shard.Stands) (key : ReplicatorKey)
    {info : VerificationCodeInfo} (admitted : shard.admits (.codeReceived info) = true)
    (tx : info.tx = (shard.task key).request.tx) : shard.HasSignedCode info := by
  intro isHonest
  simp only [admits, Bool.and_eq_true] at admitted
  have isSigned := admitted.2
  simpa [isSignedCode, isHonest, tx, stands.request] using isSigned

theorem Stands.hasSignedOpinion_of_admits (stands : shard.Stands) {key : ReplicatorKey}
    {info : VerifyApprovalTxInfo} {opinion : VerifyOpinion}
    (admitted : shard.admits (.opinionReceived info opinion) = true)
    (single : info.opinions = [opinion]) (accepted : (shard.task key).Accepts info opinion) :
    shard.HasSignedOpinion opinion := by
  intro isHonest
  obtain ⟨tx, shardId, -⟩ := accepted
  rw [stands.request] at tx shardId
  simp only [admits, Bool.and_eq_true] at admitted
  have isSigned := admitted.2
  have isOwn : (shard.task opinion.publicKey).myOpinion = some info := by
    simpa [isSignedOpinion, isHonest, ← tx, ← shardId] using isSigned
  obtain ⟨own, rfl, -⟩ := (stands.sound opinion.publicKey).ownOpinion info isOwn
  obtain rfl : own = opinion := by simpa [VerificationDriveTask.approvalOf] using single
  exact isOwn

/-- A step of a shard is a step of one of its honest replicators, and all go on. -/
theorem Stands.goesOn (stands : shard.Stands) {event : ReplicatorKey × VerificationEvent}
    (step : shards.step shard event = some next) :
    next.honest = shard.honest ∧ next.request = shard.request ∧ next.driveKey = shard.driveKey ∧
      ∀ key, (shard.task key).GoesOn (next.task key) := by
  simp only [shards, Option.ite_none_right_eq_some] at step
  obtain ⟨-, step⟩ := step
  obtain ⟨task, isTask, rfl⟩ := Option.map_eq_some_iff.mp step
  refine ⟨rfl, rfl, rfl, ?_⟩
  intro key
  by_cases isActor : key = event.1
  · subst isActor
    simpa using (stands.sound event.1).goesOn isTask
  · simpa [Function.update_of_ne isActor] using GoesOn.refl (shard.task key)

theorem HasSignedCode.goesOn {info : VerificationCodeInfo} (signed : shard.HasSignedCode info)
    (honest : next.honest = shard.honest)
    (goesOn : ∀ key, (shard.task key).GoesOn (next.task key)) : next.HasSignedCode info :=
  fun isHonest => (goesOn info.replicatorKey).codeInfo info (signed (honest ▸ isHonest))

theorem HasSignedOpinion.goesOn {opinion : VerifyOpinion} (signed : shard.HasSignedOpinion opinion)
    (honest : next.honest = shard.honest)
    (goesOn : ∀ key, (shard.task key).GoesOn (next.task key)) :
    next.HasSignedOpinion opinion := by
  intro isHonest
  have author := goesOn opinion.publicKey
  have kept := author.opinion _ (signed (honest ▸ isHonest))
  simpa [VerificationDriveTask.approvalOf, author.request, author.driveKey] using kept

theorem Stands.step (stands : shard.Stands) {event : ReplicatorKey × VerificationEvent}
    (step : shards.step shard event = some next) : next.Stands := by
  obtain ⟨honest, request, driveKey, goesOn⟩ := stands.goesOn step
  have kept : ∀ key, (shard.task key).Sound next.HasSignedCode next.HasSignedOpinion :=
    fun key => (stands.sound key).mono (fun _ signed => signed.goesOn honest goesOn)
      (fun _ signed => signed.goesOn honest goesOn)
  refine ⟨fun key => ?_, fun key => ?_, fun key => ?_, fun key => ?_⟩
  · rw [(goesOn key).request, stands.request, request]
  · rw [(goesOn key).driveKey, stands.driveKey, driveKey]
  · rw [(goesOn key).replicatorKey, stands.replicatorKey]
  · simp only [shards, Option.ite_none_right_eq_some, Bool.and_eq_true] at step
    obtain ⟨⟨-, admitted⟩, step⟩ := step
    obtain ⟨task, isTask, rfl⟩ := Option.map_eq_some_iff.mp step
    by_cases isActor : key = event.1
    · subst isActor
      simp only [Function.update_self]
      refine (kept event.1).step isTask ?_ ?_ ?_
      · rintro info isCode tx
        rw [isCode] at admitted
        exact (stands.hasSignedCode_of_admits event.1 admitted tx).goesOn honest goesOn
      · rintro info opinion isOpinion
        rw [isOpinion] at admitted
        refine ⟨?_, fun single accepted => ?_⟩
        · simp only [admits, Bool.and_eq_true, decide_eq_true_eq] at admitted
          rw [admitted.1, stands.driveKey]
        · exact (stands.hasSignedOpinion_of_admits admitted single accepted).goesOn honest goesOn
      · intro opinion isAuthor isOpinion _
        rw [stands.replicatorKey] at isAuthor
        have actor := goesOn event.1
        simp only [Function.update_self] at actor
        simpa [isAuthor, VerificationDriveTask.approvalOf, actor.request, actor.driveKey]
          using isOpinion
    · simpa [Function.update_of_ne isActor] using kept key

theorem Stands.run (stands : shard.Stands) {events : List (ReplicatorKey × VerificationEvent)}
    (run : shards.exec shard events = some next) : next.Stands :=
  Transition.invariant_of_step (fun _ _ _ stands step => stands.step step) stands run

theorem Stands.goesOn_run (stands : shard.Stands)
    {events : List (ReplicatorKey × VerificationEvent)}
    (run : shards.exec shard events = some next) :
    next.honest = shard.honest ∧ next.request = shard.request ∧ next.driveKey = shard.driveKey ∧
      ∀ key, (shard.task key).GoesOn (next.task key) := by
  induction events generalizing shard with
  | nil =>
      obtain rfl : shard = next := by simpa using run
      exact ⟨rfl, rfl, rfl, fun key => .refl _⟩
  | cons event events ih =>
      obtain ⟨mid, step, rest⟩ := (shards.exec_cons_iff).mp run
      obtain ⟨honest, request, driveKey, goesOn⟩ := stands.goesOn step
      obtain ⟨restHonest, restRequest, restDriveKey, restGoesOn⟩ := ih (stands.step step) rest
      exact ⟨restHonest.trans honest, restRequest.trans request, restDriveKey.trans driveKey,
        fun key => (goesOn key).trans (restGoesOn key)⟩

section Approvals

variable {request : VerificationRequest} {driveKey : Key} {honest : List ReplicatorKey}
  {fsTree : ReplicatorKey → FsTree} {driveFolder : ReplicatorKey → DriveFolder}
  {events : List (ReplicatorKey × VerificationEvent)}

theorem stands_of_run
    (run : shards.exec (start request driveKey honest fsTree driveFolder) events = some shard) :
    shard.Stands ∧ shard.honest = honest ∧ shard.request = request ∧ shard.driveKey = driveKey ∧
      ∀ key other, (shard.task key).codeOf other =
        request.code (fsTree key) (driveFolder key) other := by
  have stands := Stands.start request driveKey honest fsTree driveFolder
  obtain ⟨sameHonest, sameRequest, sameDriveKey, goesOn⟩ := stands.goesOn_run run
  refine ⟨stands.run run, sameHonest, sameRequest, sameDriveKey, ?_⟩
  intro key other
  simp only [VerificationDriveTask.codeOf, (goesOn key).request, (goesOn key).fsTree,
    (goesOn key).driveFolder]
  rfl

/-- A code that was received from an honest replicator is that of its files. -/
theorem Stands.code_of_received (stands : shard.Stands) {key other : ReplicatorKey}
    {info : VerificationCodeInfo} (received : (shard.task key).receivedCodes[other]? = some info)
    (isHonest : other ∈ shard.honest) : (shard.task other).codeOf other = some info.code := by
  obtain ⟨isAuthor, signed⟩ := (stands.sound key).received other info received
  subst isAuthor
  have isOwn := ((stands.sound info.replicatorKey).ownCode info (signed isHonest)).2
  rwa [stands.replicatorKey] at isOwn

/-- An approval has enough opinions on this verification, by different replicators of the shard.
    The opinion of an honest author is the one it has formed, and vouches for an honest
    replicator only if the files of both give the same code. -/
theorem approvals_vouch
    (run : shards.exec (start request driveKey honest fsTree driveFolder) events = some shard)
    {key : ReplicatorKey} {info : VerifyApprovalTxInfo}
    (sent : info ∈ (shard.task key).sentApprovals) :
    request.Covers info ∧ request.replicators.length * 2 / 3 < info.opinions.length ∧
      info.tx = request.tx ∧ info.driveKey = driveKey ∧ info.shardId = request.shardId ∧
        ∀ opinion ∈ info.opinions, opinion.publicKey ∈ honest →
          (shard.task opinion.publicKey).myOpinion = some { info with opinions := [opinion] } ∧
            ∀ other ∈ request.replicators, other ∈ honest → request.entry opinion other = some 1 →
              request.code (fsTree opinion.publicKey) (driveFolder opinion.publicKey) other =
                request.code (fsTree other) (driveFolder other) other := by
  obtain ⟨stands, rfl, rfl, rfl, codes⟩ := stands_of_run run
  obtain ⟨covered, enough⟩ := (stands.sound key).approvals info sent
  rw [VerificationDriveTask.opinionThreshold, stands.request] at enough
  rw [stands.request, stands.driveKey] at covered
  refine ⟨covered.covers, enough, covered.tx, covered.driveKey, covered.shardId, ?_⟩
  intro opinion member isHonest
  have isOwn := covered.signed opinion member isHonest
  refine ⟨?_, ?_⟩
  · simp [isOwn, VerificationDriveTask.approvalOf, stands.request, stands.driveKey, covered.tx,
      covered.driveKey, covered.shardId]
  · intro other inShard isHonestToo isOne
    by_cases isAuthor : other = opinion.publicKey
    · rw [isAuthor]
    · obtain ⟨own, isApproval, -, -, vouches⟩ := (stands.sound opinion.publicKey).ownOpinion _ isOwn
      obtain rfl : opinion = own := by simpa [VerificationDriveTask.approvalOf] using isApproval
      rw [stands.request, stands.replicatorKey] at vouches
      obtain ⟨code, received, isCode⟩ := vouches other inShard isAuthor isOne
      rw [← codes, ← codes, isCode, stands.code_of_received received isHonestToo]

/-- An honest author that holds the code of an honest replicator before it forms its opinion
    vouches for it, in every approval there will be, if the files of both give the same code. -/
theorem vouches_of_received {last : VerificationShard}
    {more : List (ReplicatorKey × VerificationEvent)} {author other : ReplicatorKey}
    (run : shards.exec (start request driveKey honest fsTree driveFolder) events = some shard)
    (later : shards.exec shard more = some last)
    (isHonest : author ∈ honest) (isHonestToo : other ∈ honest)
    (inShard : other ∈ request.replicators) (isOther : other ≠ author)
    (sameCode : request.code (fsTree author) (driveFolder author) other =
      request.code (fsTree other) (driveFolder other) other)
    (noOpinion : (shard.task author).myOpinion = none)
    (received : (shard.task author).receivedCodes.contains other = true) :
    ∀ key, ∀ info ∈ (last.task key).sentApprovals, ∀ opinion ∈ info.opinions,
      opinion.publicKey = author → request.entry opinion other = some 1 := by
  obtain ⟨stands, rfl, rfl, rfl, codes⟩ := stands_of_run run
  obtain ⟨sameHonest, -, -, goesOn⟩ := stands.goesOn_run later
  intro key info sent opinion member isAuthor
  have isOwn := ((stands.run later).sound key).approvals info sent |>.1.signed opinion member
  subst isAuthor
  have formed := isOwn (sameHonest ▸ isHonest)
  rw [Std.TreeMap.contains_eq_isSome_getElem?] at received
  obtain ⟨code, isCode⟩ := Option.isSome_iff_exists.mp received
  have codeOfOther := stands.code_of_received isCode isHonestToo
  rw [codes, ← sameCode, ← codes] at codeOfOther
  have author := goesOn opinion.publicKey
  have entry := author.vouches noOpinion opinion
    (by simpa [VerificationDriveTask.approvalOf, author.request, author.driveKey] using formed)
    other (by rwa [stands.request]) (by rwa [stands.replicatorKey]) code isCode codeOfOther
  rwa [stands.request] at entry

/-- Two approvals share the opinion of an honest author, unless a third of the shard is not
    honest. -/
theorem approvals_agree
    (run : shards.exec (start request driveKey honest fsTree driveFolder) events = some shard)
    (few : 3 * (request.replicators.countP fun key => !honest.contains key) <
      request.replicators.length + 2)
    {first second : ReplicatorKey} {firstInfo secondInfo : VerifyApprovalTxInfo}
    (isFirst : firstInfo ∈ (shard.task first).sentApprovals)
    (isSecond : secondInfo ∈ (shard.task second).sentApprovals) :
    ∃ opinion ∈ firstInfo.opinions, opinion ∈ secondInfo.opinions ∧
      opinion.publicKey ∈ honest := by
  obtain ⟨stands, rfl, rfl, rfl, -⟩ := stands_of_run run
  obtain ⟨firstCovered, firstEnough⟩ := (stands.sound first).approvals firstInfo isFirst
  obtain ⟨secondCovered, secondEnough⟩ := (stands.sound second).approvals secondInfo isSecond
  rw [VerificationDriveTask.opinionThreshold, stands.request] at firstEnough secondEnough
  rw [stands.request] at firstCovered secondCovered
  have large : shard.request.replicators.length +
      (shard.request.replicators.countP fun key => !shard.honest.contains key) <
        (firstInfo.opinions.map (·.publicKey)).length +
          (secondInfo.opinions.map (·.publicKey)).length := by
    simp only [List.length_map]
    omega
  obtain ⟨author, inFirst, inSecond, isHonest⟩ := Quorums.exists_honest_of_meet
    firstCovered.covers.distinct secondCovered.covers.distinct
    (by simpa [List.subset_def] using firstCovered.covers.member)
    (by simpa [List.subset_def] using secondCovered.covers.member) large
  obtain ⟨opinion, member, isAuthor⟩ := List.mem_map.mp inFirst
  obtain ⟨other, otherMember, isSame⟩ := List.mem_map.mp inSecond
  have isHonestAuthor : opinion.publicKey ∈ shard.honest := by simpa [isAuthor] using isHonest
  have formed := firstCovered.signed opinion member isHonestAuthor
  have otherFormed := secondCovered.signed other otherMember
    (by rwa [isSame, ← isAuthor])
  rw [isSame, ← isAuthor, formed] at otherFormed
  obtain rfl : opinion = other := by
    simpa [VerificationDriveTask.approvalOf] using otherFormed
  exact ⟨opinion, member, otherMember, isHonestAuthor⟩

end Approvals

/-! ## A shard of three, one of them not honest -/

def sampleRequest : VerificationRequest := { tx := 1, shardId := 0, replicators := [1, 2, 3] }

def sampleShard : VerificationShard :=
  start sampleRequest 9 [1, 2] (fun _ => .mk "/" .nil) fun _ _ => none

def sampleCode (key : ReplicatorKey) : VerificationCodeInfo :=
  { tx := 1, replicatorKey := key, driveKey := 9
    code := (sampleRequest.code (.mk "/" .nil) (fun _ => none) key).getD 0 }

def sampleOpinion (key : ReplicatorKey) : VerifyOpinion :=
  { publicKey := key, opinions := if key = 3 then [0, 0, 1] else [1, 1, 0] }

def sampleInfo (authors : List ReplicatorKey) : VerifyApprovalTxInfo :=
  { tx := 1, driveKey := 9, shardId := 0, opinions := authors.map sampleOpinion }

/-- The honest replicators exchange their codes; that of the other one does not come. -/
def sampleCodes : List (ReplicatorKey × VerificationEvent) :=
  [(1, .verificationCodesCompleted), (2, .verificationCodesCompleted),
    (1, .codeReceived (sampleCode 2)), (2, .codeReceived (sampleCode 1))]

/-- Time is up for the codes, and the opinions of all three are exchanged. -/
def sampleOpinions : List (ReplicatorKey × VerificationEvent) :=
  let receives key author := (key, .opinionReceived (sampleInfo [author]) (sampleOpinion author))
  [(1, .verifyCodeTimerExpired), (2, .verifyCodeTimerExpired), receives 1 3, receives 1 2,
    (1, .verifyOpinionTimerExpired), receives 2 1, receives 2 3, (2, .verifyOpinionTimerExpired)]

theorem sampleShard_approves : ∃ shard, shards.exec sampleShard sampleCodes = some shard ∧
    ((shard.task 1).myOpinion = none ∧ (shard.task 1).receivedCodes.contains 2 = true) ∧
      ∃ last, shards.exec shard sampleOpinions = some last ∧
        sampleInfo [1, 3, 2] ∈ (last.task 1).sentApprovals ∧
          sampleInfo [2, 1, 3] ∈ (last.task 2).sentApprovals := by
  have approves : ((shards.exec sampleShard sampleCodes).any fun shard =>
      ((shard.task 1).myOpinion = none ∧ (shard.task 1).receivedCodes.contains 2 = true) &&
        (shards.exec shard sampleOpinions).any fun last =>
          sampleInfo [1, 3, 2] ∈ (last.task 1).sentApprovals ∧
            sampleInfo [2, 1, 3] ∈ (last.task 2).sentApprovals) = true := by decide +kernel
  simpa [Option.any_eq_true] using approves

theorem approvals_vouch_sample : ∃ shard,
    shards.exec sampleShard (sampleCodes ++ sampleOpinions) = some shard ∧
      (shard.task 2).myOpinion = some (sampleInfo [2]) := by
  obtain ⟨shard, codes, -, last, opinions, sent, -⟩ := sampleShard_approves
  have run := (shards.exec_append).mpr ⟨shard, codes, opinions⟩
  have vouch := approvals_vouch run sent
  exact ⟨last, run, (vouch.2.2.2.2.2 (sampleOpinion 2) (by simp [sampleInfo]) (by decide)).1⟩

theorem vouches_of_received_sample : sampleRequest.entry (sampleOpinion 1) 2 = some 1 := by
  obtain ⟨shard, codes, ⟨noOpinion, received⟩, last, opinions, sent, -⟩ := sampleShard_approves
  exact vouches_of_received codes opinions (by simp) (by simp) (by simp [sampleRequest]) (by simp)
    rfl noOpinion received 1 _ sent (sampleOpinion 1) (by simp [sampleInfo]) rfl

theorem approvals_agree_sample : ∃ opinion ∈ (sampleInfo [1, 3, 2]).opinions,
    opinion ∈ (sampleInfo [2, 1, 3]).opinions ∧ opinion.publicKey ∈ [(1 : ReplicatorKey), 2] := by
  obtain ⟨shard, codes, -, last, opinions, first, second⟩ := sampleShard_approves
  exact approvals_agree ((shards.exec_append).mpr ⟨shard, codes, opinions⟩) (by decide) first second

end VerificationShard

end SiriusDrive
