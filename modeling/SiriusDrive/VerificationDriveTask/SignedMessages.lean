import SiriusDrive.Lib.MapLookup
import SiriusDrive.VerificationDriveTask.Opinions

/-! # A verification with signed messages

Codes and opinions carry the signature of their author, and the replicator that
receives one checks it. So the opinions that a task holds and approves are those of
their authors, and our own opinion vouches for a replicator only if its code is
that of our files.
-/

namespace SiriusDrive

def VerificationRequest.entry (request : VerificationRequest) (opinion : VerifyOpinion)
    (key : ReplicatorKey) : Option UInt8 :=
  opinion.opinions[request.replicators.idxOf key]?

/-- Opinions on the verification of a drive that are signed by their authors. -/
structure VerificationRequest.IsCovered (request : VerificationRequest) (driveKey : Key)
    (signed : VerifyOpinion → Prop) (info : VerifyApprovalTxInfo) : Prop where
  covers : request.Covers info
  tx : info.tx = request.tx
  driveKey : info.driveKey = driveKey
  shardId : info.shardId = request.shardId
  signed : ∀ opinion ∈ info.opinions, signed opinion

theorem VerificationRequest.IsCovered.mono {request : VerificationRequest} {driveKey : Key}
    {signed others : VerifyOpinion → Prop} {info : VerifyApprovalTxInfo}
    (covered : request.IsCovered driveKey signed info)
    (imp : ∀ opinion, signed opinion → others opinion) : request.IsCovered driveKey others info :=
  { covered with signed := fun opinion member => imp opinion (covered.signed opinion member) }

/-- The code that the files of a drive give for a replicator of the shard. -/
def VerificationRequest.code (request : VerificationRequest) (fsTree : FsTree)
    (driveFolder : DriveFolder) (key : ReplicatorKey) : Option (BitVec 64) :=
  (verify request fsTree driveFolder)[request.replicators.idxOf key]?

namespace VerificationDriveTask

variable (task : VerificationDriveTask)

/-- The code that the files of the task give. -/
def codeOf (key : ReplicatorKey) : Option (BitVec 64) :=
  task.request.code task.fsTree task.driveFolder key

def approvalOf (opinion : VerifyOpinion) : VerifyApprovalTxInfo where
  tx := task.request.tx
  driveKey := task.driveKey
  shardId := task.request.shardId
  opinions := [opinion]

end VerificationDriveTask

namespace VerificationDriveTask

variable {task after : VerificationDriveTask}

/-! ## What a task holds -/

/-- The opinion of the task vouches for others only if their codes are those of our files. -/
def IsOwnOpinion (task : VerificationDriveTask) (opinion : VerifyOpinion) : Prop :=
  opinion.publicKey = task.replicatorKey ∧
    opinion.opinions.length = task.request.replicators.length ∧
      ∀ key ∈ task.request.replicators, key ≠ task.replicatorKey →
        task.request.entry opinion key = some 1 →
          ∃ info, task.receivedCodes[key]? = some info ∧ task.codeOf key = some info.code

/-- What holds of a task whose messages are signed. -/
structure Sound (signedCode : VerificationCodeInfo → Prop) (signedOpinion : VerifyOpinion → Prop)
    (task : VerificationDriveTask) : Prop where
  thread : task.verifyThread = true →
    task.myVerifyCodesCalculated = false ∧ task.myCodeInfo = none
  calculated : task.myVerifyCodesCalculated = true → task.replicatorKey ∈ task.request.replicators ∧
    task.verificationCodes = verify task.request task.fsTree task.driveFolder
  ownCode : ∀ info, task.myCodeInfo = some info →
    info.replicatorKey = task.replicatorKey ∧ task.codeOf task.replicatorKey = some info.code
  received : ∀ key info, task.receivedCodes[key]? = some info →
    info.replicatorKey = key ∧ signedCode info
  codeTimer : task.verifyCodeTimer = .pending → task.myOpinion = none
  ownOpinion : ∀ info, task.myOpinion = some info →
    ∃ opinion, info = task.approvalOf opinion ∧ task.IsOwnOpinion opinion
  held : ∀ info, task.myVerificationApprovalTxInfo = some info →
    task.request.IsCovered task.driveKey signedOpinion info
  timer : task.verifyOpinionTimer ≠ .unset → ∃ info,
    task.myVerificationApprovalTxInfo = some info ∧ info.opinions.length > task.opinionThreshold
  approvals : ∀ info ∈ task.sentApprovals,
    task.request.IsCovered task.driveKey signedOpinion info ∧
      info.opinions.length > task.opinionThreshold

theorem Sound.create {signedCode : VerificationCodeInfo → Prop}
    {signedOpinion : VerifyOpinion → Prop} (request : VerificationRequest) (driveKey : Key)
    (replicatorKey : ReplicatorKey) (fsTree : FsTree) (driveFolder : DriveFolder) :
    (create request driveKey replicatorKey fsTree driveFolder).Sound signedCode signedOpinion := by
  constructor <;> simp [VerificationDriveTask.create]

theorem Sound.mono {signedCode otherCodes : VerificationCodeInfo → Prop}
    {signedOpinion otherOpinions : VerifyOpinion → Prop} (sound : task.Sound signedCode signedOpinion)
    (codes : ∀ info, signedCode info → otherCodes info)
    (opinions : ∀ opinion, signedOpinion opinion → otherOpinions opinion) :
    task.Sound otherCodes otherOpinions :=
  { sound with
    received := fun key info isInfo =>
      ⟨(sound.received key info isInfo).1, codes info (sound.received key info isInfo).2⟩
    held := fun info isHeld => (sound.held info isHeld).mono opinions
    approvals := fun info member =>
      ⟨(sound.approvals info member).1.mono opinions, (sound.approvals info member).2⟩ }

/-! ## Our opinion -/

/-- Our opinion vouches exactly for those whose code has been received and is that of our
    files. -/
theorem entry_ownOpinion {key : ReplicatorKey} (member : key ∈ task.request.replicators)
    (isOther : key ≠ task.replicatorKey)
    (codes : task.verificationCodes = verify task.request task.fsTree task.driveFolder) :
    task.request.entry task.ownOpinion key = some 1 ↔
      ∃ info, task.receivedCodes[key]? = some info ∧ task.codeOf key = some info.code := by
  have inside := List.idxOf_lt_length_of_mem member
  have isKey : task.request.replicators[task.request.replicators.idxOf key]? = some key := by
    simp [List.getElem?_eq_getElem inside]
  have hasCode : task.request.replicators.idxOf key < task.verificationCodes.length := by
    rw [codes, length_verify]
    exact inside
  have isCode : task.codeOf key = some task.verificationCodes[task.request.replicators.idxOf key] := by
    simp [codeOf, VerificationRequest.code, ← codes, List.getElem?_eq_getElem hasCode]
  simp only [VerificationRequest.entry, ownOpinion, List.getElem?_zipWith, isKey,
    List.getElem?_eq_getElem hasCode, isCode, opinionOn, isOther, if_false, Option.some.injEq]
  cases task.receivedCodes[key]? with
  | none => simp
  | some info =>
      by_cases same : info.code = task.verificationCodes[task.request.replicators.idxOf key]
      · simp [same]
      · simp [same, Ne.symm same]

theorem isOwnOpinion_ownOpinion
    (codes : task.verificationCodes = verify task.request task.fsTree task.driveFolder) :
    task.IsOwnOpinion task.ownOpinion := by
  have size : task.ownOpinion.opinions.length = task.request.replicators.length := by
    simp [ownOpinion, codes, length_verify]
  exact ⟨rfl, size, fun _ member isOther isOne =>
    (entry_ownOpinion member isOther codes).mp isOne⟩

/-! ## Steps -/

/-- An opinion that is processed changes the opinions held and their timer. -/
theorem processedVerificationOpinion_fst (task : VerificationDriveTask)
    (info : VerifyApprovalTxInfo) (opinion : VerifyOpinion) :
    ∃ held timer, (task.processedVerificationOpinion info opinion).1 =
      { task with myVerificationApprovalTxInfo := held, verifyOpinionTimer := timer } := by
  by_cases accepted : task.Accepts info opinion
  · rw [processedVerificationOpinion_of_accepts accepted]
    simp only [startOpinionTimer_eq]
    split <;> exact ⟨_, _, rfl⟩
  · exact ⟨_, _, processedVerificationOpinion_of_not_accepts accepted⟩

section Sound

variable {signedCode : VerificationCodeInfo → Prop} {signedOpinion : VerifyOpinion → Prop}

theorem Sound.processedVerificationOpinion (sound : task.Sound signedCode signedOpinion)
    {info : VerifyApprovalTxInfo} {opinion : VerifyOpinion} (single : info.opinions = [opinion])
    (driveKey : info.driveKey = task.driveKey)
    (signed : task.Accepts info opinion → signedOpinion opinion) :
    (task.processedVerificationOpinion info opinion).1.Sound signedCode signedOpinion := by
  by_cases accepted : task.Accepts info opinion
  · have isSigned := signed accepted
    cases isHeld : task.myVerificationApprovalTxInfo with
    | none =>
        rw [processedVerificationOpinion_of_first accepted single isHeld]
        have noTimer : task.verifyOpinionTimer = .unset := by
          by_contra isSet
          simpa [isHeld] using sound.timer isSet
        refine { sound with held := ?_, timer := fun isSet => absurd noTimer isSet }
        intro other isOther
        obtain rfl : info = other := by simpa using isOther
        exact ⟨covers_single accepted single, accepted.1.symm, driveKey, accepted.2.1.symm,
          by simpa [single] using isSigned⟩
    | some held =>
        by_cases duplicate : ∃ other ∈ held.opinions, other.publicKey = opinion.publicKey
        · rw [processedVerificationOpinion_of_duplicate accepted isHeld duplicate]
          exact sound
        · have isNew : ∀ other ∈ held.opinions, other.publicKey ≠ opinion.publicKey := by
            intro other member same
            exact duplicate ⟨other, member, same⟩
          rw [processedVerificationOpinion_of_new accepted isHeld isNew]
          have covered := sound.held held isHeld
          refine { sound with held := ?_, timer := ?_ }
          · intro other isOther
            obtain rfl : { held with opinions := held.opinions ++ [opinion] } = other := by
              simpa using isOther
            refine ⟨covers_append covered.covers accepted isNew, covered.tx, covered.driveKey,
              covered.shardId, ?_⟩
            intro one member
            cases List.mem_append.mp member with
            | inl old => exact covered.signed one old
            | inr last => exact List.mem_singleton.mp last ▸ isSigned
          · intro isSet
            refine ⟨_, rfl, ?_⟩
            cases opinionTimerAfter_ne_unset isSet with
            | inl wasSet =>
                obtain ⟨other, isOther, enough⟩ := sound.timer wasSet
                obtain rfl : held = other := by simpa [isHeld] using isOther
                simp only [List.length_append, List.length_singleton]
                exact Nat.lt_succ_of_lt enough
            | inr enough => exact enough.2
  · rw [processedVerificationOpinion_of_not_accepts accepted]
    exact sound

theorem receivedCodes_withCode {info : VerificationCodeInfo}
    (isNew : task.receivedCodes.contains info.replicatorKey = false) (key : ReplicatorKey)
    (other : VerificationCodeInfo) (isOther : task.receivedCodes[key]? = some other) :
    (task.withCode info).receivedCodes[key]? = some other := by
  have isHeld : task.receivedCodes.contains key = true := by
    rw [Std.TreeMap.contains_eq_isSome_getElem?, isOther]
    rfl
  have apart : key ≠ info.replicatorKey := by
    intro same
    simp [same, isNew] at isHeld
  simp [VerificationDriveTask.withCode, Std.TreeMap.getElem?_insert_eq, apart, isOther]

theorem Sound.withCode (sound : task.Sound signedCode signedOpinion) {info : VerificationCodeInfo}
    (isNew : task.receivedCodes.contains info.replicatorKey = false) (signed : signedCode info) :
    (task.withCode info).Sound signedCode signedOpinion := by
  refine { sound with received := ?_, ownOpinion := ?_ }
  · intro key other isOther
    simp only [VerificationDriveTask.withCode, Std.TreeMap.getElem?_insert_eq] at isOther
    split at isOther
    · rename_i same
      obtain rfl : info = other := by simpa using isOther
      exact ⟨same.symm, signed⟩
    · exact sound.received key other isOther
  · intro own isOwn
    obtain ⟨opinion, isApproval, publicKey, size, vouches⟩ := sound.ownOpinion own isOwn
    refine ⟨opinion, isApproval, publicKey, size, ?_⟩
    intro key member isOther isOne
    obtain ⟨other, isReceived, isCode⟩ := vouches key member isOther isOne
    exact ⟨other, receivedCodes_withCode isNew key other isReceived, isCode⟩

theorem verifyCodeTimerExpired_eq_some (forms : task.verifyCodeTimerExpired = some after) :
    task.myVerifyCodesCalculated = true ∧
      after = (task.sharing.processedVerificationOpinion task.ownApproval task.ownOpinion).1 := by
  rw [verifyCodeTimerExpired] at forms
  split at forms
  · cases forms
  · rename_i ready
    simp only [Bool.or_eq_true, Bool.not_eq_true', not_or] at ready
    split at forms
    · rename_i shared processed
      obtain rfl : shared = after := by simpa using forms
      exact ⟨by simpa using ready.1.2, by rw [processed]⟩
    · cases forms

theorem Sound.verifyCodeTimerExpired (sound : task.Sound signedCode signedOpinion)
    (noTimer : task.verifyCodeTimer ≠ .pending)
    (forms : task.verifyCodeTimerExpired = some after)
    (signed : after.myOpinion = some task.ownApproval → signedOpinion task.ownOpinion) :
    after.Sound signedCode signedOpinion := by
  obtain ⟨calculated, rfl⟩ := verifyCodeTimerExpired_eq_some forms
  obtain ⟨held, timer, processed⟩ :=
    processedVerificationOpinion_fst task.sharing task.ownApproval task.ownOpinion
  have sharing : task.sharing.Sound signedCode signedOpinion := by
    refine { sound with codeTimer := fun isPending => absurd isPending noTimer, ownOpinion := ?_ }
    intro info isOwn
    obtain rfl : task.ownApproval = info := Option.some.inj isOwn
    exact ⟨task.ownOpinion, rfl, isOwnOpinion_ownOpinion (sound.calculated calculated).2⟩
  apply sharing.processedVerificationOpinion rfl rfl
  intro _
  apply signed
  rw [processed]
  rfl

theorem Sound.checkVerifyCodeNumber (sound : task.Sound signedCode signedOpinion)
    (checks : task.checkVerifyCodeNumber = some after)
    (signed : after.myOpinion = some task.ownApproval → signedOpinion task.ownOpinion) :
    after.Sound signedCode signedOpinion := by
  rw [VerificationDriveTask.checkVerifyCodeNumber] at checks
  split at checks
  · obtain rfl := Option.some.inj checks
    exact sound
  · rename_i noOpinion
    have isNone : task.myOpinion = none := by simpa using noOpinion
    split at checks
    · have cancelled : { task with verifyCodeTimer := .unset }.Sound signedCode signedOpinion :=
        { sound with codeTimer := fun isPending => by cases isPending }
      exact cancelled.verifyCodeTimerExpired (by simp) checks signed
    · split at checks
      · obtain rfl := Option.some.inj checks
        exact { sound with codeTimer := fun _ => isNone }
      · obtain rfl := Option.some.inj checks
        exact sound

theorem Sound.verificationCodesCompleted (sound : task.Sound signedCode signedOpinion)
    (completes : task.verificationCodesCompleted = some after)
    (signed : ∀ opinion, opinion.publicKey = task.replicatorKey →
      after.myOpinion = some (task.approvalOf opinion) → signedOpinion opinion) :
    after.Sound signedCode signedOpinion := by
  rw [VerificationDriveTask.verificationCodesCompleted] at completes
  simp only at completes
  split at completes
  · obtain rfl := Option.some.inj completes
    exact { sound with
      thread := fun running => by cases running
      calculated := fun isCalculated => ⟨(sound.calculated isCalculated).1, rfl⟩ }
  · split at completes
    · cases completes
    · rename_i ourCode found
      have member : task.replicatorKey ∈ task.request.replicators := by
        have inside := (List.getElem?_eq_some_iff.mp found).1
        rw [length_verify] at inside
        exact List.idxOf_lt_length_iff.mp inside
      refine Sound.checkVerifyCodeNumber ?_ completes (signed _ rfl)
      refine { sound with
        thread := fun running => by cases running
        calculated := fun _ => ⟨member, rfl⟩
        ownCode := ?_ }
      intro info isInfo
      obtain rfl := Option.some.inj isInfo
      exact ⟨rfl, found⟩

theorem Sound.verifyOpinionTimerExpired (sound : task.Sound signedCode signedOpinion)
    (pending : task.verifyOpinionTimer = .pending)
    (expires : { task with verifyOpinionTimer := .expired }.verifyOpinionTimerExpired =
      some after) : after.Sound signedCode signedOpinion := by
  obtain ⟨info, held, enough⟩ := sound.timer (by simp [pending])
  simp only [VerificationDriveTask.verifyOpinionTimerExpired] at expires
  split at expires
  · cases expires
  · obtain ⟨other, isOther, rfl⟩ := Option.map_eq_some_iff.mp expires
    obtain rfl : info = other := Option.some.inj (held.symm.trans isOther)
    refine { sound with timer := fun _ => ⟨info, held, enough⟩, approvals := ?_ }
    intro approval member
    cases List.mem_append.mp member with
    | inl old => exact sound.approvals approval old
    | inr last =>
        obtain rfl := List.mem_singleton.mp last
        exact ⟨sound.held approval held, enough⟩

omit signedCode signedOpinion in
theorem processedVerificationCode_cases {info : VerificationCodeInfo} {processed : Bool}
    (processes : task.processedVerificationCode info = some (after, processed)) :
    after = task ∨
      info.tx = task.request.tx ∧ task.receivedCodes.contains info.replicatorKey = false ∧
        (after = task.withCode info ∨ task.myVerifyCodesCalculated = true ∧
          (task.withCode info).checkVerifyCodeNumber = some after) := by
  simp only [processedVerificationCode] at processes
  split_ifs at processes with unknown unexpected duplicate calculated
  · left
    cases processes
    rfl
  · left
    cases processes
    rfl
  · left
    cases processes
    rfl
  · obtain ⟨checked, checks, same⟩ := Option.map_eq_some_iff.mp processes
    cases same
    exact Or.inr ⟨by simpa using unknown, Bool.eq_false_iff.mpr duplicate,
      Or.inr ⟨calculated, checks⟩⟩
  · cases processes
    exact Or.inr ⟨by simpa using unknown, Bool.eq_false_iff.mpr duplicate, Or.inl rfl⟩

theorem Sound.step (sound : task.Sound signedCode signedOpinion) {event : VerificationEvent}
    (step : verificationSystem.step task event = some after)
    (codes : ∀ info, event = .codeReceived info → info.tx = task.request.tx → signedCode info)
    (opinions : ∀ info opinion, event = .opinionReceived info opinion →
      info.driveKey = task.driveKey ∧ (info.opinions = [opinion] → task.Accepts info opinion →
        signedOpinion opinion))
    (own : ∀ opinion, opinion.publicKey = task.replicatorKey →
      after.myOpinion = some (task.approvalOf opinion) → signedOpinion opinion) :
    after.Sound signedCode signedOpinion := by
  cases event with
  | opinionReceived info opinion =>
      simp only [verificationSystem, Option.ite_none_right_eq_some, Option.some.injEq] at step
      obtain ⟨single, rfl⟩ := step
      obtain ⟨driveKey, signed⟩ := opinions info opinion rfl
      exact sound.processedVerificationOpinion single driveKey (signed single)
  | codeReceived info =>
      obtain ⟨⟨next, processed⟩, isProcessed, rfl⟩ := Option.map_eq_some_iff.mp step
      cases processedVerificationCode_cases isProcessed with
      | inl same => exact same ▸ sound
      | inr isKept =>
          obtain ⟨tx, isNew, counts⟩ := isKept
          have kept := sound.withCode isNew (codes info rfl tx)
          cases counts with
          | inl same => exact same ▸ kept
          | inr checks => exact kept.checkVerifyCodeNumber checks.2 (own _ rfl)
  | verificationCodesCompleted =>
      simp only [verificationSystem, Option.ite_none_right_eq_some] at step
      exact sound.verificationCodesCompleted step.2 own
  | verifyCodeTimerExpired =>
      simp only [verificationSystem, Option.ite_none_right_eq_some] at step
      have expired : { task with verifyCodeTimer := .expired }.Sound signedCode signedOpinion :=
        { sound with codeTimer := fun isPending => by cases isPending }
      exact expired.verifyCodeTimerExpired (by simp) step.2 (own _ rfl)
  | verifyOpinionTimerExpired =>
      simp only [verificationSystem, Option.ite_none_right_eq_some] at step
      exact sound.verifyOpinionTimerExpired step.1 step.2
  | shareVerifyCodeTimerExpired =>
      simp only [verificationSystem, Option.ite_none_right_eq_some] at step
      obtain ⟨info, -, rfl⟩ := Option.map_eq_some_iff.mp step.2
      exact { sound with }
  | shareVerifyOpinionTimerExpired =>
      simp only [verificationSystem, Option.ite_none_right_eq_some] at step
      obtain ⟨info, -, rfl⟩ := Option.map_eq_some_iff.mp step.2
      exact { sound with }
  | terminate =>
      obtain rfl := Option.some.inj step
      exact { sound with
        codeTimer := fun isPending => by cases isPending
        timer := fun isSet => absurd rfl isSet }

end Sound

/-! ## What stays -/

/-- A verification goes on: what is signed and what has been received stays, and an opinion that
    is formed vouches for the codes received before. -/
structure GoesOn (task after : VerificationDriveTask) : Prop where
  request : after.request = task.request
  driveKey : after.driveKey = task.driveKey
  replicatorKey : after.replicatorKey = task.replicatorKey
  fsTree : after.fsTree = task.fsTree
  driveFolder : after.driveFolder = task.driveFolder
  codeInfo : ∀ info, task.myCodeInfo = some info → after.myCodeInfo = some info
  opinion : ∀ info, task.myOpinion = some info → after.myOpinion = some info
  received : ∀ (key : ReplicatorKey) (info : VerificationCodeInfo),
    task.receivedCodes[key]? = some info → after.receivedCodes[key]? = some info
  vouches : task.myOpinion = none → ∀ opinion, after.myOpinion = some (task.approvalOf opinion) →
    ∀ key ∈ task.request.replicators, key ≠ task.replicatorKey → ∀ info,
      task.receivedCodes[key]? = some info → task.codeOf key = some info.code →
        task.request.entry opinion key = some 1

theorem GoesOn.refl (task : VerificationDriveTask) : task.GoesOn task where
  request := rfl
  driveKey := rfl
  replicatorKey := rfl
  fsTree := rfl
  driveFolder := rfl
  codeInfo _ := id
  opinion _ := id
  received _ _ := id
  vouches isNone opinion isSome := by simp [isNone] at isSome

theorem GoesOn.trans {later : VerificationDriveTask} (first : task.GoesOn after)
    (second : after.GoesOn later) : task.GoesOn later where
  request := second.request.trans first.request
  driveKey := second.driveKey.trans first.driveKey
  replicatorKey := second.replicatorKey.trans first.replicatorKey
  fsTree := second.fsTree.trans first.fsTree
  driveFolder := second.driveFolder.trans first.driveFolder
  codeInfo info isInfo := second.codeInfo info (first.codeInfo info isInfo)
  opinion info isInfo := second.opinion info (first.opinion info isInfo)
  received key info isInfo := second.received key info (first.received key info isInfo)
  vouches isNone opinion isOpinion key member isOther info isInfo isCode := by
    have sameApproval : after.approvalOf opinion = task.approvalOf opinion := by
      simp [approvalOf, first.request, first.driveKey]
    cases formed : after.myOpinion with
    | none =>
        have entry := second.vouches formed opinion (isOpinion.trans (by rw [sameApproval])) key
          (by rwa [first.request]) (by rwa [first.replicatorKey]) info
          (first.received key info isInfo)
        simp only [codeOf, first.request, first.fsTree, first.driveFolder] at entry
        exact entry isCode
    | some own =>
        obtain rfl : own = task.approvalOf opinion :=
          Option.some.inj ((second.opinion own formed).symm.trans isOpinion)
        exact first.vouches isNone opinion formed key member isOther info isInfo isCode

theorem goesOn_of_eq (request : after.request = task.request)
    (driveKey : after.driveKey = task.driveKey)
    (replicatorKey : after.replicatorKey = task.replicatorKey)
    (fsTree : after.fsTree = task.fsTree) (driveFolder : after.driveFolder = task.driveFolder)
    (codeInfo : task.myCodeInfo = none ∨ after.myCodeInfo = task.myCodeInfo)
    (opinion : after.myOpinion = task.myOpinion)
    (received : after.receivedCodes = task.receivedCodes) : task.GoesOn after where
  request := request
  driveKey := driveKey
  replicatorKey := replicatorKey
  fsTree := fsTree
  driveFolder := driveFolder
  codeInfo info isInfo := by
    cases codeInfo with
    | inl isNone => simp [isNone] at isInfo
    | inr same => rw [same, isInfo]
  opinion _ isInfo := opinion.trans isInfo
  received _ _ isInfo := by rwa [received]
  vouches isNone _ isSome := by simp [opinion, isNone] at isSome

theorem goesOn_processedVerificationOpinion (info : VerifyApprovalTxInfo)
    (opinion : VerifyOpinion) :
    task.GoesOn (task.processedVerificationOpinion info opinion).1 := by
  obtain ⟨held, timer, processed⟩ := processedVerificationOpinion_fst task info opinion
  rw [processed]
  exact goesOn_of_eq rfl rfl rfl rfl rfl (Or.inr rfl) rfl rfl

theorem goesOn_withCode {info : VerificationCodeInfo}
    (isNew : task.receivedCodes.contains info.replicatorKey = false) :
    task.GoesOn (task.withCode info) where
  request := rfl
  driveKey := rfl
  replicatorKey := rfl
  fsTree := rfl
  driveFolder := rfl
  codeInfo _ := id
  opinion _ := id
  received := receivedCodes_withCode isNew
  vouches isNone _ isSome := by simp [VerificationDriveTask.withCode, isNone] at isSome

theorem goesOn_verifyCodeTimerExpired (isNone : task.myOpinion = none)
    (codes : task.verificationCodes = verify task.request task.fsTree task.driveFolder)
    (forms : task.verifyCodeTimerExpired = some after) : task.GoesOn after := by
  obtain ⟨-, rfl⟩ := verifyCodeTimerExpired_eq_some forms
  have shares : task.GoesOn task.sharing := by
    refine { GoesOn.refl task with opinion := ?_, vouches := ?_ }
    · intro info isInfo
      simp [isNone] at isInfo
    · intro _ opinion isOpinion key member isOther info isInfo isCode
      obtain rfl : task.ownOpinion = opinion := by
        simpa [VerificationDriveTask.sharing, shareVerifyOpinion, ownApproval, approvalOf]
          using isOpinion
      exact (entry_ownOpinion member isOther codes).mpr ⟨info, isInfo, isCode⟩
  exact shares.trans (goesOn_processedVerificationOpinion _ _)

theorem goesOn_checkVerifyCodeNumber
    (codes : task.verificationCodes = verify task.request task.fsTree task.driveFolder)
    (checks : task.checkVerifyCodeNumber = some after) : task.GoesOn after := by
  rw [checkVerifyCodeNumber] at checks
  split at checks
  · obtain rfl := Option.some.inj checks
    exact .refl task
  · rename_i noOpinion
    split at checks
    · have isNone : task.myOpinion = none := by simpa using noOpinion
      have cancelled : task.GoesOn { task with verifyCodeTimer := task.verifyCodeTimer.cancel } :=
        goesOn_of_eq rfl rfl rfl rfl rfl (Or.inr rfl) rfl rfl
      exact cancelled.trans (goesOn_verifyCodeTimerExpired isNone codes checks)
    · split at checks
      · obtain rfl := Option.some.inj checks
        exact goesOn_of_eq rfl rfl rfl rfl rfl (Or.inr rfl) rfl rfl
      · obtain rfl := Option.some.inj checks
        exact .refl task

theorem goesOn_verificationCodesCompleted (isNone : task.myCodeInfo = none)
    (completes : task.verificationCodesCompleted = some after) : task.GoesOn after := by
  rw [verificationCodesCompleted] at completes
  simp only at completes
  split at completes
  · obtain rfl := Option.some.inj completes
    exact goesOn_of_eq rfl rfl rfl rfl rfl (Or.inr rfl) rfl rfl
  · split at completes
    · cases completes
    · refine GoesOn.trans ?_ (goesOn_checkVerifyCodeNumber rfl completes)
      exact goesOn_of_eq rfl rfl rfl rfl rfl (Or.inl isNone) rfl rfl

theorem Sound.goesOn {signedCode : VerificationCodeInfo → Prop}
    {signedOpinion : VerifyOpinion → Prop} (sound : task.Sound signedCode signedOpinion)
    {event : VerificationEvent} (step : verificationSystem.step task event = some after) :
    task.GoesOn after := by
  cases event with
  | opinionReceived info opinion =>
      simp only [verificationSystem, Option.ite_none_right_eq_some, Option.some.injEq] at step
      obtain ⟨-, rfl⟩ := step
      exact goesOn_processedVerificationOpinion info opinion
  | codeReceived info =>
      obtain ⟨⟨next, processed⟩, isProcessed, rfl⟩ := Option.map_eq_some_iff.mp step
      cases processedVerificationCode_cases isProcessed with
      | inl same => exact same ▸ .refl _
      | inr isKept =>
          obtain ⟨tx, isNew, counts⟩ := isKept
          have kept := goesOn_withCode isNew
          cases counts with
          | inl same => exact same ▸ kept
          | inr checks =>
              exact kept.trans (goesOn_checkVerifyCodeNumber (sound.calculated checks.1).2 checks.2)
  | verificationCodesCompleted =>
      simp only [verificationSystem, Option.ite_none_right_eq_some] at step
      exact goesOn_verificationCodesCompleted (sound.thread step.1).2 step.2
  | verifyCodeTimerExpired =>
      simp only [verificationSystem, Option.ite_none_right_eq_some] at step
      obtain ⟨pending, forms⟩ := step
      have expired : task.GoesOn { task with verifyCodeTimer := .expired } :=
        goesOn_of_eq rfl rfl rfl rfl rfl (Or.inr rfl) rfl rfl
      have calculated := (verifyCodeTimerExpired_eq_some forms).1
      exact expired.trans (goesOn_verifyCodeTimerExpired (sound.codeTimer pending)
        (sound.calculated calculated).2 forms)
  | verifyOpinionTimerExpired =>
      simp only [verificationSystem, Option.ite_none_right_eq_some] at step
      obtain ⟨-, expires⟩ := step
      simp only [VerificationDriveTask.verifyOpinionTimerExpired] at expires
      split at expires
      · cases expires
      · obtain ⟨info, -, rfl⟩ := Option.map_eq_some_iff.mp expires
        exact goesOn_of_eq rfl rfl rfl rfl rfl (Or.inr rfl) rfl rfl
  | shareVerifyCodeTimerExpired =>
      simp only [verificationSystem, Option.ite_none_right_eq_some] at step
      obtain ⟨info, -, rfl⟩ := Option.map_eq_some_iff.mp step.2
      exact goesOn_of_eq rfl rfl rfl rfl rfl (Or.inr rfl) rfl rfl
  | shareVerifyOpinionTimerExpired =>
      simp only [verificationSystem, Option.ite_none_right_eq_some] at step
      obtain ⟨info, -, rfl⟩ := Option.map_eq_some_iff.mp step.2
      exact goesOn_of_eq rfl rfl rfl rfl rfl (Or.inr rfl) rfl rfl
  | terminate =>
      obtain rfl := Option.some.inj step
      exact goesOn_of_eq rfl rfl rfl rfl rfl (Or.inr rfl) rfl rfl

end VerificationDriveTask

end SiriusDrive
