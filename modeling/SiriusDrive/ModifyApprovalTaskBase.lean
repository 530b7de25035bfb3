import SiriusDrive.TaskEvents

/-! # Tasks that need an approval

`ModifyApprovalTaskBase` collects the opinions of the other replicators about a
modification and sends the approval transaction when enough of them agree.
-/

namespace SiriusDrive

abbrev ReceivedOpinions := Std.TreeMap ReplicatorKey ApprovalTransactionInfo

/-- The transaction `opinionTimerExpired` builds. -/
def approvalTransaction (driveKey : Key) (myOpinion : ApprovalTransactionInfo)
    (receivedOpinions : List ApprovalTransactionInfo) : ApprovalTransactionInfo :=
  { myOpinion with
    driveKey
    opinions := myOpinion.firstOpinion :: receivedOpinions.map (·.firstOpinion)
    opinions_ne := List.cons_ne_nil _ _ }

/-- A call of `modifyApprovalTransactionIsReady`, by the opinions its transaction is
    built from: the own opinion and those in `m_receivedOpinions`. -/
structure SentApproval where
  driveKey : Key
  myOpinion : ApprovalTransactionInfo
  builtFrom : List ApprovalTransactionInfo
  deriving DecidableEq

def SentApproval.info (sent : SentApproval) : ApprovalTransactionInfo :=
  approvalTransaction sent.driveKey sent.myOpinion sent.builtFrom

/-- `ModifyApprovalTaskBase`. Its constructor takes received opinions, but the
    member is not initialised with them. -/
structure ModifyApprovalTaskBase extends UpdateDriveTaskBase where
  receivedOpinions : ReceivedOpinions := ∅
  modifyApproveTransactionSent : Bool := false
  modifyApproveTxReceived : Bool := false
  uploadedDataSize : Nat := 0
  shareMyOpinionTimer : Timer := .unset
  modifyOpinionTimer : Timer := .unset
  /-- The calls of `modifyApprovalTransactionIsReady` made by the task. -/
  sentApprovals : List SentApproval := []

/-- `replicatorNumber`: two thirds of the drive's replicators. -/
def replicatorNumber (minReplicatorsNumber otherReplicators : Nat) : Nat :=
  u64 (max minReplicatorsNumber (otherReplicators + 1) * 2) / 3

/-- `validateOpinion`. -/
def validateOpinion (myOpinion anOpinion : ApprovalTransactionInfo) : Bool :=
  myOpinion.rootHash = anOpinion.rootHash ∧
    myOpinion.status = anOpinion.status ∧
    myOpinion.fsTreeFileSize = anOpinion.fsTreeFileSize ∧
    myOpinion.metaFilesSize = anOpinion.metaFilesSize ∧
    myOpinion.driveSize = anOpinion.driveSize

namespace ModifyApprovalTaskBase

variable (task : ModifyApprovalTaskBase)

/-- Run a function of `UpdateDriveTaskBase`. -/
def base (f : UpdateDriveTaskBase → UpdateDriveTaskBase) : ModifyApprovalTaskBase :=
  { task with toUpdateDriveTaskBase := f task.toUpdateDriveTaskBase }

def shareMyOpinion (myOpinion : ApprovalTransactionInfo) : ModifyApprovalTaskBase :=
  { task with
    drive := { task.drive with
      sentOpinions := task.drive.sentOpinions ++
        ((task.drive.allReplicators.filter (· ≠ task.drive.replicatorKey)).map fun key =>
          (key, myOpinion)) }
    shareMyOpinionTimer := .pending }

def opinionTimerExpired : ModifyApprovalTaskBase :=
  if task.modifyApproveTransactionSent || task.modifyApproveTxReceived then task
  else
    match task.myOpinion with
    | none => task.base (·.break_ .invalidDereference)
    | some myOpinion =>
        { task with
          sentApprovals := task.sentApprovals ++
            [{ driveKey := task.drive.driveKey
               myOpinion
               builtFrom := task.receivedOpinions.toList.map Prod.snd }]
          modifyApproveTransactionSent := true }

def checkOpinionNumberAndStartTimer : ModifyApprovalTaskBase :=
  let number := replicatorNumber task.drive.minReplicatorsNumber task.drive.allReplicators.length
  if task.myOpinion.isSome && task.receivedOpinions.size ≥ task.drive.allReplicators.length &&
      !task.modifyApproveTransactionSent && !task.modifyApproveTxReceived then
    { task with modifyOpinionTimer := task.modifyOpinionTimer.cancel }.opinionTimerExpired
  else if task.myOpinion.isSome && task.receivedOpinions.size ≥ number &&
      !task.modifyApproveTransactionSent && !task.modifyApproveTxReceived then
    if !task.modifyOpinionTimer.isSet then { task with modifyOpinionTimer := .pending } else task
  else task

/-- Drop the received opinions that do not agree with our own. -/
def validateReceivedOpinions (myOpinion : ApprovalTransactionInfo) : ModifyApprovalTaskBase :=
  { task with
    receivedOpinions := task.receivedOpinions.filter fun _ opinion =>
      validateOpinion myOpinion opinion }

def myOpinionIsCreated : ModifyApprovalTaskBase :=
  if task.taskIsInterrupted then task.base (·.finishTask)
  else
    match task.myOpinion with
    | none => task.base (·.break_ .invalidDereference)
    | some myOpinion =>
        let task := { task with sandboxCalculated := true }
        if task.modifyApproveTxReceived then
          { task with drive := task.drive.sendSingleApprovalTransaction myOpinion }.base
            (·.startSynchronizingDriveWithSandbox)
        else
          ((task.shareMyOpinion myOpinion).validateReceivedOpinions
            myOpinion).checkOpinionNumberAndStartTimer

/-- The timer of `shareMyOpinion` fires. -/
def shareMyOpinionTimerExpired : ModifyApprovalTaskBase :=
  match task.myOpinion with
  | none => task.base (·.break_ .invalidDereference)
  | some myOpinion => task.shareMyOpinion myOpinion

def continueSynchronizingDriveWithSandbox : FileSystemResult → ModifyApprovalTaskBase
  | .done =>
      ({ task with drive := task.drive.keepUsedTorrents }.base (·.addFsTreeTorrent)).base
        (·.executeOnSessionThread .synchronizationIsCompleted)
  | .exception => task.base (·.finishTask)

end ModifyApprovalTaskBase

end SiriusDrive
