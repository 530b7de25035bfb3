import SiriusDrive.FsTree
import SiriusDrive.Lib.Transition

/-! # Verifying a drive

The replicators of a shard show each other that they have the files of the drive.
Each of them computes a code for every replicator of the shard, compares the codes
it receives with its own ones, and shares its opinion on them. With enough opinions
it sends the approval of the verification.
-/

namespace SiriusDrive

/-- `VerificationRequest`, with the fields the task reads. -/
structure VerificationRequest where
  tx : Hash256
  shardId : Nat
  replicators : List ReplicatorKey
  deriving Repr, DecidableEq

/-- `VerificationCodeInfo`, without its signature. -/
structure VerificationCodeInfo where
  tx : Hash256
  replicatorKey : ReplicatorKey
  driveKey : Key
  code : BitVec 64
  deriving Repr, DecidableEq

/-- `VerifyOpinion`, without its signature. -/
structure VerifyOpinion where
  publicKey : ReplicatorKey
  opinions : List UInt8
  deriving Repr, DecidableEq

structure VerifyApprovalTxInfo where
  tx : Hash256
  driveKey : Key
  shardId : Nat
  opinions : List VerifyOpinion
  deriving Repr, DecidableEq

/-! ## Verification codes -/

/-- The content of the files in the drive folder, by their hashes. -/
abbrev DriveFolder := InfoHash → Option (List UInt8)

def arrayBytes (array : Hash256) : List UInt8 :=
  (List.range 32).map fun i => UInt8.ofNat (array.toNat / 256 ^ (31 - i))

/-- The `uint64_t` with the given bytes, the lowest one first. -/
def littleEndian : List UInt8 → BitVec 64
  | [] => 0
  | byte :: bytes => (littleEndian bytes <<< 8) ||| byte.toBitVec.setWidth 64

/-- `hash ^= value` and the circular shift. -/
def mixHash (hash value : BitVec 64) : BitVec 64 :=
  let hash := hash ^^^ value
  (hash >>> 1) ||| (hash <<< 63)

/-- The last bytes of a buffer as one value, the first of them highest. -/
def tailValue (bytes : List UInt8) : BitVec 64 :=
  bytes.foldl (fun lastValue byte => (lastValue <<< 8) ||| byte.toBitVec.setWidth 64) 0

/-- `calcHash64`. The value of the tail is hashed even if no bytes are left. -/
def calcHash64 (hash : BitVec 64) : List UInt8 → BitVec 64
  | b₀ :: b₁ :: b₂ :: b₃ :: b₄ :: b₅ :: b₆ :: b₇ :: rest =>
      calcHash64 (mixHash hash (littleEndian [b₀, b₁, b₂, b₃, b₄, b₅, b₆, b₇])) rest
  | tail => mixHash hash (tailValue tail)

/-- The buffers `fread` fills with at most 4096 bytes each. -/
def readBuffers (bytes : List UInt8) : List (List UInt8) :=
  if bytes.isEmpty then [] else bytes.take 4096 :: readBuffers (bytes.drop 4096)
termination_by bytes.length
decreasing_by
  cases bytes with
  | nil => contradiction
  | cons => simp only [List.length_drop, List.length_cons]; omega

/-- The loop over the buffers of a file, for one of the codes. -/
def hashFile (hash : BitVec 64) (bytes : List UInt8) : BitVec 64 :=
  (readBuffers bytes).foldl calcHash64 hash

mutual

/-- `calculateVerifyCodes`. -/
def Folder.calculateVerifyCodes (driveFolder : DriveFolder) :
    Folder → List (BitVec 64) → List (BitVec 64)
  | .mk _ childs, codes => childs.calculateVerifyCodes driveFolder codes

def Childs.calculateVerifyCodes (driveFolder : DriveFolder) :
    Childs → List (BitVec 64) → List (BitVec 64)
  | .nil, codes => codes
  | .cons _ (.folder folder) rest, codes =>
      rest.calculateVerifyCodes driveFolder (folder.calculateVerifyCodes driveFolder codes)
  | .cons _ (.file file) rest, codes =>
      match driveFolder file.hash with
      -- the other children of the folder are left out
      | none => codes
      | some bytes =>
          rest.calculateVerifyCodes driveFolder (codes.map fun hash => hashFile hash bytes)

end

/-- The hash a code starts with. -/
def initHash (tx : Hash256) (replicatorKey : ReplicatorKey) : BitVec 64 :=
  calcHash64 (calcHash64 0 (arrayBytes tx)) (arrayBytes replicatorKey)

/-- `verify`, when it is not interrupted: a code for each replicator of the shard. -/
def verify (request : VerificationRequest) (fsTree : FsTree) (driveFolder : DriveFolder) :
    List (BitVec 64) :=
  fsTree.calculateVerifyCodes driveFolder (request.replicators.map (initHash request.tx))

/-! ## The task -/

/-- `VerificationDriveTask`, with the drive it verifies and the messages it has sent. -/
structure VerificationDriveTask where
  request : VerificationRequest
  driveKey : Key
  /-- `dbgReplicatorKey()` of the replicator. -/
  replicatorKey : ReplicatorKey
  fsTree : FsTree
  driveFolder : DriveFolder
  /-- The verify thread has not come to its end. -/
  verifyThread : Bool := true
  myVerifyCodesCalculated : Bool := false
  codeTimerRun : Bool := false
  verifyApproveTxSent : Bool := false
  verificationCodes : List (BitVec 64) := []
  verifyCodeTimer : Timer := .unset
  verifyOpinionTimer : Timer := .unset
  shareVerifyCodeTimer : Timer := .unset
  shareVerifyOpinionTimer : Timer := .unset
  myCodeInfo : Option VerificationCodeInfo := none
  myOpinion : Option VerifyApprovalTxInfo := none
  receivedCodes : Std.TreeMap ReplicatorKey VerificationCodeInfo := ∅
  myVerificationApprovalTxInfo : Option VerifyApprovalTxInfo := none
  verificationMustBeInterrupted : Bool := false
  /-- The codes and opinions sent to other replicators. -/
  sentCodes : List (ReplicatorKey × VerificationCodeInfo) := []
  sentOpinions : List (ReplicatorKey × VerifyApprovalTxInfo) := []
  /-- Calls of `verificationTransactionIsReady`. -/
  sentApprovals : List VerifyApprovalTxInfo := []

namespace VerificationDriveTask

variable (task : VerificationDriveTask)

def others : List ReplicatorKey := task.request.replicators.filter (· ≠ task.replicatorKey)

/-- The number of opinions that has to be exceeded. -/
def opinionThreshold : Nat := task.request.replicators.length * 2 / 3

/-- `shareVerifyCode`. -/
def shareVerifyCode (myCodeInfo : VerificationCodeInfo) : VerificationDriveTask :=
  { task with
    sentCodes := task.sentCodes ++ task.others.map (·, myCodeInfo)
    shareVerifyCodeTimer := .pending }

/-- `shareVerifyOpinion`. -/
def shareVerifyOpinion (myOpinion : VerifyApprovalTxInfo) : VerificationDriveTask :=
  { task with
    sentOpinions := task.sentOpinions ++ task.others.map (·, myOpinion)
    shareVerifyOpinionTimer := .pending }

def startOpinionTimer (info : VerifyApprovalTxInfo) : VerificationDriveTask :=
  if task.myOpinion.isSome && info.opinions.length > task.opinionThreshold then
    if !task.verifyOpinionTimer.isSet then { task with verifyOpinionTimer := .pending } else task
  else task

/-- `processedVerificationOpinion`, for an info with one opinion: false if the info is for
    another verification. -/
def processedVerificationOpinion (info : VerifyApprovalTxInfo) (opinion : VerifyOpinion) :
    VerificationDriveTask × Bool :=
  if task.request.tx ≠ info.tx then (task, false)
  else if task.request.shardId ≠ info.shardId then (task, true)
  else if !task.request.replicators.contains opinion.publicKey then (task, true)
  else if opinion.opinions.length ≠ task.request.replicators.length then (task, true)
  else
    let held := task.myVerificationApprovalTxInfo.getD info
    let task := { task with myVerificationApprovalTxInfo := some held }
    -- the first opinion is found in the info it came with
    if held.opinions.any (·.publicKey = opinion.publicKey) then (task, true)
    else
      let held := { held with opinions := held.opinions ++ [opinion] }
      ({ task with myVerificationApprovalTxInfo := some held }.startOpinionTimer held, true)

def opinionOn (key : ReplicatorKey) (verificationCode : BitVec 64) : UInt8 :=
  if key = task.replicatorKey then 1
  else
    match task.receivedCodes[key]? with
    | some info => if info.code = verificationCode then 1 else 0
    | none => 0

/-- Our opinion on all replicators of the shard. -/
def ownOpinion : VerifyOpinion where
  publicKey := task.replicatorKey
  opinions := List.zipWith task.opinionOn task.request.replicators task.verificationCodes

def ownApproval : VerifyApprovalTxInfo where
  tx := task.request.tx
  driveKey := task.driveKey
  shardId := task.request.shardId
  opinions := [task.ownOpinion]

def sharing : VerificationDriveTask :=
  { task with myOpinion := some task.ownApproval }.shareVerifyOpinion task.ownApproval

/-- `verifyCodeTimerExpired`; none if an assertion fails. -/
def verifyCodeTimerExpired : Option VerificationDriveTask :=
  if task.verificationMustBeInterrupted || !task.myVerifyCodesCalculated ||
      task.verifyApproveTxSent then none
  else
    match task.sharing.processedVerificationOpinion task.ownApproval task.ownOpinion with
    | (task, true) => some task
    | (_, false) => none

/-- `checkVerifyCodeNumber`; none if an assertion fails. -/
def checkVerifyCodeNumber : Option VerificationDriveTask :=
  if task.myOpinion.isSome then some task
  else if task.receivedCodes.size + 1 = task.request.replicators.length then
    { task with verifyCodeTimer := task.verifyCodeTimer.cancel }.verifyCodeTimerExpired
  else if !task.codeTimerRun then
    some { task with codeTimerRun := true, verifyCodeTimer := .pending }
  else some task

/-- `processedVerificationCode`: false if the code is for another verification; none if an
    assertion fails. -/
def processedVerificationCode (info : VerificationCodeInfo) :
    Option (VerificationDriveTask × Bool) :=
  if info.tx ≠ task.request.tx then some (task, false)
  else if !task.request.replicators.contains info.replicatorKey then some (task, true)
  else if task.receivedCodes.contains info.replicatorKey then some (task, true)
  else
    let task := { task with receivedCodes := task.receivedCodes.insert info.replicatorKey info }
    if task.myVerifyCodesCalculated then task.checkVerifyCodeNumber.map (·, true)
    else some (task, true)

/-- `verificationCodesCompleted`, when the verify thread has computed the codes; none if our
    key is not in the shard. -/
def verificationCodesCompleted : Option VerificationDriveTask :=
  let task := { task with
    verifyThread := false
    verificationCodes := verify task.request task.fsTree task.driveFolder }
  if task.verificationMustBeInterrupted then some task
  else
    match task.verificationCodes[task.request.replicators.idxOf task.replicatorKey]? with
    | none => none
    | some ourCode =>
        let myCodeInfo : VerificationCodeInfo :=
          { tx := task.request.tx, replicatorKey := task.replicatorKey
            driveKey := task.driveKey, code := ourCode }
        let task := { task with
          myVerifyCodesCalculated := true
          myCodeInfo := some myCodeInfo }
        (task.shareVerifyCode myCodeInfo).checkVerifyCodeNumber

/-- `verifyOpinionTimerExpired`; none if an assertion fails or no opinion is held. -/
def verifyOpinionTimerExpired : Option VerificationDriveTask :=
  if task.verificationMustBeInterrupted then none
  else
    task.myVerificationApprovalTxInfo.map fun info =>
      { task with
        verifyApproveTxSent := true
        sentApprovals := task.sentApprovals ++ [info] }

def terminate : VerificationDriveTask :=
  { task with
    verifyCodeTimer := task.verifyCodeTimer.cancel
    verifyOpinionTimer := task.verifyOpinionTimer.cancel
    shareVerifyCodeTimer := task.shareVerifyCodeTimer.cancel
    shareVerifyOpinionTimer := task.shareVerifyOpinionTimer.cancel
    verificationMustBeInterrupted := true }

end VerificationDriveTask

/-- What can happen to a verification. The opinions and codes that were received before it
    are processed by the constructor in the same way as the later ones. -/
inductive VerificationEvent where
  /-- An info with one opinion; the replicator drops all others. -/
  | opinionReceived (info : VerifyApprovalTxInfo) (opinion : VerifyOpinion)
  | codeReceived (info : VerificationCodeInfo)
  | verificationCodesCompleted
  | verifyCodeTimerExpired
  | verifyOpinionTimerExpired
  | shareVerifyCodeTimerExpired
  | shareVerifyOpinionTimerExpired
  /-- `onApprovalTxPublished` or `cancelVerification`. -/
  | terminate

namespace VerificationDriveTask

/-- The constructor and `run`. -/
def create (request : VerificationRequest) (driveKey : Key) (replicatorKey : ReplicatorKey)
    (fsTree : FsTree) (driveFolder : DriveFolder) : VerificationDriveTask :=
  { request, driveKey, replicatorKey, fsTree, driveFolder }

end VerificationDriveTask

/-- A verification under its messages and timers. -/
def verificationSystem : Transition VerificationDriveTask VerificationEvent where
  step task
    | .opinionReceived info opinion =>
        if info.opinions = [opinion] then some (task.processedVerificationOpinion info opinion).1
        else none
    | .codeReceived info => (task.processedVerificationCode info).map Prod.fst
    | .verificationCodesCompleted =>
        if task.verifyThread then task.verificationCodesCompleted else none
    | .verifyCodeTimerExpired =>
        if task.verifyCodeTimer = .pending then
          { task with verifyCodeTimer := .expired }.verifyCodeTimerExpired
        else none
    | .verifyOpinionTimerExpired =>
        if task.verifyOpinionTimer = .pending then
          { task with verifyOpinionTimer := .expired }.verifyOpinionTimerExpired
        else none
    | .shareVerifyCodeTimerExpired =>
        if task.shareVerifyCodeTimer = .pending then task.myCodeInfo.map task.shareVerifyCode
        else none
    | .shareVerifyOpinionTimerExpired =>
        if task.shareVerifyOpinionTimer = .pending then task.myOpinion.map task.shareVerifyOpinion
        else none
    | .terminate => some task.terminate

end SiriusDrive
