import SiriusDrive.FsTree
import SiriusDrive.ModifyOpinionController

/-! # The state of a drive

`DriveParams` is what the tasks of a drive share: its committed state, the
torrents it holds, the lists of replicators and the calls it has made to the
event handler. A running task owns the drive; the tasks hand it on.
-/

namespace SiriusDrive

abbrev LtHandle := Nat

/-- `UseTorrentInfo`; the handle is absent where the source has an invalid one. -/
structure UseTorrentInfo where
  ltHandle : Option LtHandle := none
  isUsed : Bool := true
  deriving Repr, DecidableEq

abbrev TorrentHandleMap := Std.TreeMap InfoHash UseTorrentInfo

/-- The values saved by `RestartValueSerializer`. -/
structure RestartValues where
  approvedModification : Option Hash256 := none
  approvedCumulativeUploads : Option CumulativeUploads := none
  notApprovedCumulativeUploads : Option CumulativeUploads := none
  myOpinion : Option ApprovalTransactionInfo := none

/-- `DriveParams`, with the opinion controller of the drive, the parameters of
    its replicator and the calls of the event handler. -/
structure DriveParams where
  driveKey : Key
  driveOwner : Key
  maxSize : Nat
  /-- `m_replicator.replicatorKey()`. -/
  replicatorKey : ReplicatorKey
  /-- `m_replicator.getMinReplicatorsNumber()`. -/
  minReplicatorsNumber : Nat
  /-- `m_replicator.isStopped()`. -/
  replicatorIsStopped : Bool := false
  /-- The other replicators of the drive. -/
  allReplicators : List ReplicatorKey
  modifyDonatorShard : List ReplicatorKey
  opinionController : ModifyOpinionController
  torrentHandleMap : TorrentHandleMap := ∅
  rootHash : InfoHash
  lastApprovedModification : Hash256
  fsTree : FsTree
  fsTreeLtHandle : Option LtHandle
  /-- The sizes received for the current modification. -/
  modifyTrafficMap : Std.TreeMap Key Nat := ∅
  restartValues : RestartValues := {}
  /-- The handle the session gives to the next torrent. -/
  nextHandle : LtHandle := 0
  /-- Calls of `singleModifyApprovalTransactionIsReady`. -/
  sentSingleApprovals : List ApprovalTransactionInfo := []
  /-- Calls of `opinionHasBeenReceived` by `processOpinion`. -/
  processedOpinions : List ApprovalTransactionInfo := []
  /-- Opinions sent to other replicators. -/
  sentOpinions : List (ReplicatorKey × ApprovalTransactionInfo) := []

namespace DriveParams

/-- `markUsedFiles`: files that are not in the map are only logged. -/
def markUsedFiles (map : TorrentHandleMap) (hashes : List InfoHash) : TorrentHandleMap :=
  hashes.foldl (fun map hash =>
    match map[hash]? with
    | some info => map.insert hash { info with isUsed := true }
    | none => map) map

/-- Mark the files of a tree as used and all others as unused. -/
def markFilesOf (map : TorrentHandleMap) (fsTree : FsTree) : TorrentHandleMap :=
  markUsedFiles (map.map fun _ info => { info with isUsed := false }) fsTree.fileHashes

/-- The valid handles of the files which are not used. -/
def unusedHandles (map : TorrentHandleMap) : List LtHandle :=
  map.toList.filterMap fun (_, info) => if info.isUsed then none else info.ltHandle

/-- `std::erase_if` of the entries which are not used. -/
def eraseUnused (map : TorrentHandleMap) : TorrentHandleMap :=
  map.filter fun _ info => info.isUsed

/-- Give a handle to every torrent that has none. -/
def addTorrents (map : TorrentHandleMap) (nextHandle : LtHandle) : TorrentHandleMap × LtHandle :=
  map.foldl (fun (added, nextHandle) hash info =>
    match info.ltHandle with
    | some _ => (added, nextHandle)
    | none => (added.insert hash { info with ltHandle := some nextHandle }, nextHandle + 1))
    (map, nextHandle)

/-- Remove the unused files and add the torrents of the others to the session. -/
def keepUsedTorrents (drive : DriveParams) : DriveParams :=
  let added := addTorrents (eraseUnused drive.torrentHandleMap) drive.nextHandle
  { drive with torrentHandleMap := added.1, nextHandle := added.2 }

/-- `Replicator::processOpinion` for some opinions in turn. -/
def processOpinions (drive : DriveParams) (opinions : List ApprovalTransactionInfo) : DriveParams :=
  { drive with processedOpinions := drive.processedOpinions ++ opinions }

def sendSingleApprovalTransaction (drive : DriveParams) (singleTx : ApprovalTransactionInfo) :
    DriveParams :=
  { drive with sentSingleApprovals := drive.sentSingleApprovals ++ [singleTx] }

end DriveParams

end SiriusDrive
