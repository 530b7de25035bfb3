import SiriusDrive.Types

/-! # Requests, opinions and transactions

What a drive exchanges with the client, the other replicators and the chain.
-/

namespace SiriusDrive

/-- `ModificationStatus`. -/
inductive ModificationStatus where
  | success
  | invalidActionList
  | actionListIsAbsent
  | notEnoughSpace
  | downloadFailed
  deriving Repr, DecidableEq

structure KeyAndBytes where
  key : Key
  uploadedBytes : Nat
  deriving Repr, DecidableEq

/-- `SingleOpinion`: how much the others have uploaded to a replicator. -/
structure SingleOpinion where
  replicatorKey : ReplicatorKey
  uploadLayout : List KeyAndBytes
  deriving Repr, DecidableEq

/-- `ApprovalTransactionInfo`. The drive reads `m_opinions[0]` of every opinion
    it is given, so the list is not empty. -/
structure ApprovalTransactionInfo where
  driveKey : Key
  modifyTransactionHash : Hash256
  rootHash : InfoHash
  status : ModificationStatus
  fsTreeFileSize : Nat
  metaFilesSize : Nat
  driveSize : Nat
  opinions : List SingleOpinion
  opinions_ne : opinions ≠ []
  deriving DecidableEq

namespace ApprovalTransactionInfo

/-- `m_opinions[0]`. -/
def firstOpinion (info : ApprovalTransactionInfo) : SingleOpinion :=
  info.opinions.head info.opinions_ne

def replicatorKey (info : ApprovalTransactionInfo) : ReplicatorKey :=
  info.firstOpinion.replicatorKey

end ApprovalTransactionInfo

/-- `PublishedModificationApprovalTransactionInfo`. -/
structure PublishedModificationApprovalTransactionInfo where
  driveKey : Key
  modifyTransactionHash : Hash256
  rootHash : InfoHash
  /-- The cosigners. -/
  replicatorKeys : List ReplicatorKey
  deriving Repr, DecidableEq

/-- `ModificationRequest`, with the fields a task reads. -/
structure ModificationRequest where
  clientDataInfoHash : InfoHash
  transactionHash : Hash256
  maxDataSize : Nat
  deriving Repr, DecidableEq

/-- `StreamRequest`, with the fields a task reads. -/
structure StreamRequest where
  streamId : Hash256
  streamerKey : Key
  folder : String
  maxSizeBytes : Nat
  deriving Repr, DecidableEq

structure CatchingUpRequest where
  rootHash : InfoHash
  modifyTransactionHash : Hash256
  deriving Repr, DecidableEq

/-- `SynchronizationRequest`, without its callback. -/
structure SynchronizationRequest where
  modificationIdentifier : Hash256
  rootHash : InfoHash
  deriving Repr, DecidableEq

structure ModificationCancelRequest where
  modifyTransactionHash : Hash256
  deriving Repr, DecidableEq

structure DriveClosureRequest where
  removeDriveTx : Option Hash256
  deriving Repr, DecidableEq

end SiriusDrive
