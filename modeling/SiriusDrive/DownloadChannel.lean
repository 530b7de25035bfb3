import SiriusDrive.Lib.MapSum
import SiriusDrive.Types

/-! # Receipts of a download channel

A client signs receipts for the data it has been sent by a replicator of the
channel. Each replicator of the shard keeps, for every replicator and client,
the largest receipt it has accepted and the largest one it has only noted since
it did not fit into the prepaid size any more.
-/

namespace SiriusDrive

/-- `ReplicatorUploadRequestInfo::ReceiptSizes`. -/
structure ReceiptSizes where
  acceptedSize : Nat := 0
  notAcceptedSize : Nat := 0
  deriving Repr, DecidableEq

/-- `ReplicatorUploadRequestInfo`: the receipts for one replicator. -/
structure ReplicatorUploadRequestInfo where
  clientMap : Std.TreeMap ClientKey ReceiptSizes := ∅

namespace ReplicatorUploadRequestInfo

/-- `m_clientMap[clientKey]`, which inserts an empty cell. -/
def withClient (info : ReplicatorUploadRequestInfo) (clientKey : ClientKey) :
    ReplicatorUploadRequestInfo :=
  { clientMap := info.clientMap.insertIfNew clientKey {} }

def cell (info : ReplicatorUploadRequestInfo) (clientKey : ClientKey) : ReceiptSizes :=
  (info.clientMap[clientKey]?).getD {}

def maxReceiptSize (info : ReplicatorUploadRequestInfo) (clientKey : ClientKey) : Nat :=
  if (info.cell clientKey).acceptedSize < (info.cell clientKey).notAcceptedSize then
    (info.cell clientKey).notAcceptedSize
  else (info.cell clientKey).acceptedSize

def totalReceiptSize (info : ReplicatorUploadRequestInfo) : Nat :=
  info.clientMap.foldl (fun receiptSize _ cell =>
    if cell.notAcceptedSize > cell.acceptedSize then u64 (receiptSize + cell.notAcceptedSize)
    else u64 (receiptSize + cell.acceptedSize)) 0

def saveReceiptSize (info : ReplicatorUploadRequestInfo) (clientKey : ClientKey)
    (tobeUploadedSize : Nat) : ReplicatorUploadRequestInfo :=
  { clientMap :=
      info.clientMap.insert clientKey { info.cell clientKey with acceptedSize := tobeUploadedSize } }

def saveNotAcceptedReceiptSize (info : ReplicatorUploadRequestInfo) (clientKey : ClientKey)
    (size : Nat) : ReplicatorUploadRequestInfo :=
  if (info.cell clientKey).notAcceptedSize < size then
    { clientMap := info.clientMap.insert clientKey { info.cell clientKey with notAcceptedSize := size } }
  else info

/-- What `tryFixReceiptSize` makes of a cell: a noted receipt is accepted. -/
def fixCell (cell : ReceiptSizes) : ReceiptSizes :=
  if cell.notAcceptedSize > cell.acceptedSize then
    { acceptedSize := cell.notAcceptedSize, notAcceptedSize := 0 }
  else cell

def tryFixReceiptSize (info : ReplicatorUploadRequestInfo) (prepaidSize : Nat) :
    ReplicatorUploadRequestInfo :=
  if prepaidSize ≥ info.totalReceiptSize then
    { clientMap := info.clientMap.map fun _ cell => fixCell cell }
  else info

end ReplicatorUploadRequestInfo

/-- `DownloadChannelInfo`. -/
structure DownloadChannelInfo where
  isSynchronizing : Bool := false
  prepaidDownloadSize : Nat
  totalReceiptsSize : Nat := 0
  /-- The sizes really sent to the clients. -/
  sentClientMap : Std.TreeMap ClientKey Nat := ∅
  replicatorUploadRequestMap : Std.TreeMap ReplicatorKey ReplicatorUploadRequestInfo := ∅
  driveKey : Key
  dnReplicatorShard : List ReplicatorKey

/-- The fields of a receipt `acceptUploadSize` reads. -/
structure RcptMessage where
  clientKey : ClientKey
  replicatorKey : ReplicatorKey
  downloadedSize : Nat
  deriving Repr, DecidableEq

/-- The outcome a receipt has for the connection it arrived on. -/
inductive ReceiptError where
  | noError
  | siriusChannelRanOut
  deriving Repr, DecidableEq

namespace DownloadChannelInfo

/-- `addChannelInfo`: the channel put into `m_dnChannelMap`. After a restart the
    maps of the backup replace the new ones; `m_totalReceiptsSize` stays zero. -/
def addChannelInfo (publicKey : Key) (prepaidDownloadSize : Nat) (driveKey : Key)
    (replicatorsList : List ReplicatorKey) (clients : List ClientKey) (willBeSyncronized : Bool)
    (backup : Option DownloadChannelInfo) : DownloadChannelInfo :=
  let dnChannelInfo : DownloadChannelInfo :=
    { isSynchronizing := willBeSyncronized
      prepaidDownloadSize, driveKey
      dnReplicatorShard := replicatorsList
      sentClientMap := clients.foldl (fun map clientKey => map.insertIfNew clientKey 0) ∅
      replicatorUploadRequestMap :=
        (replicatorsList.filter (· ≠ publicKey)).foldl (fun map key => map.insertIfNew key {}) ∅ }
  match backup with
  | none => dnChannelInfo
  | some backup =>
      { dnChannelInfo with
        sentClientMap := backup.sentClientMap
        replicatorUploadRequestMap := backup.replicatorUploadRequestMap }

def increaseChannelSize (channelInfo : DownloadChannelInfo) (prepaidDownloadSize : Nat) :
    DownloadChannelInfo :=
  { channelInfo with
    prepaidDownloadSize := u64 (channelInfo.prepaidDownloadSize + prepaidDownloadSize) }

/-- The receipts known for a replicator: an empty entry if it is not in the map. -/
def uploadRequestInfo (channelInfo : DownloadChannelInfo) (replicatorKey : ReplicatorKey) :
    ReplicatorUploadRequestInfo :=
  (channelInfo.replicatorUploadRequestMap[replicatorKey]?).getD {}

def setUploadRequestInfo (channelInfo : DownloadChannelInfo) (replicatorKey : ReplicatorKey)
    (info : ReplicatorUploadRequestInfo) : DownloadChannelInfo :=
  { channelInfo with
    replicatorUploadRequestMap := channelInfo.replicatorUploadRequestMap.insert replicatorKey info }

/-- `acceptUploadSize`, with `shouldBeDisconnected` and the error code. -/
def acceptUploadSize (msg : RcptMessage) (channelInfo : DownloadChannelInfo) :
    DownloadChannelInfo × Bool × ReceiptError :=
  let fixed :=
    (channelInfo.uploadRequestInfo msg.replicatorKey).tryFixReceiptSize
      channelInfo.prepaidDownloadSize
  let lastReceiptSize := fixed.maxReceiptSize msg.clientKey
  let info := fixed.withClient msg.clientKey
  -- skip old receipts
  if msg.downloadedSize ≤ lastReceiptSize then
    (channelInfo.setUploadRequestInfo msg.replicatorKey info, false, .noError)
  else
    let totalReceiptsSize :=
      u64 (channelInfo.totalReceiptsSize + u64Sub msg.downloadedSize lastReceiptSize)
    let channelInfo := { channelInfo with totalReceiptsSize }
    if totalReceiptsSize > channelInfo.prepaidDownloadSize then
      (channelInfo.setUploadRequestInfo msg.replicatorKey
        (info.saveNotAcceptedReceiptSize msg.clientKey msg.downloadedSize),
        true, .siriusChannelRanOut)
    else
      (channelInfo.setUploadRequestInfo msg.replicatorKey
        (info.saveReceiptSize msg.clientKey msg.downloadedSize), false, .noError)

end DownloadChannelInfo

end SiriusDrive
