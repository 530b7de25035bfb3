import SiriusDrive.Lib.Transition
import SiriusDrive.RcptPacket

/-! # The download limiter of a replicator

Each replicator keeps the download channels it takes part in: what it has sent
to which client, and the receipts of all replicators of the channel. Receipts
arrive from the own clients and from other replicators, and newer ones are
forwarded. The map of channels is saved on shutdown and comes back as a backup,
from which `addChannelInfo` restores the channels one by one.
-/

namespace SiriusDrive

/-- `ClientReceipts` of each client: the last receipt for each replicator. -/
abbrev ClientReceiptMap := Std.TreeMap ClientKey (Std.TreeMap ReplicatorKey RcptPacket)

/-- `DownloadChannelInfo` with the receipts themselves. -/
structure ChannelInfo extends DownloadChannelInfo where
  clientReceiptMap : ClientReceiptMap := ∅

/-- The errors a peer is answered with. -/
inductive ErrorCode where
  | noError
  | siriusNoChannel
  | siriusNoClientInChannel
  | siriusBadSignature
  | siriusChannelRanOut
  | siriusReceiptSizeTooSmall
  deriving Repr, DecidableEq

def ErrorCode.ofReceipt : ReceiptError → ErrorCode
  | .noError => .noError
  | .siriusChannelRanOut => .siriusChannelRanOut

/-- `lt::connection_status`. -/
inductive ConnectionStatus where
  | rejected
  | limited
  | unlimited
  deriving Repr, DecidableEq

/-- Of a drive, what decides whether it accepts a client's connection. -/
structure LimiterDrive where
  driveOwner : Key
  rootHash : InfoHash
  deriving Repr, DecidableEq

def LimiterDrive.acceptConnectionFromClient (drive : LimiterDrive) (clientKey : ClientKey)
    (fileHash : InfoHash) : Bool :=
  clientKey == drive.driveOwner && fileHash == drive.rootHash

/-- `crypto::Verify` for the receipts of clients. -/
abbrev Verify := Key → List UInt8 → Signature → Bool

structure DownloadLimiter where
  publicKey : ReplicatorKey
  dnChannelMap : Std.TreeMap ChannelId ChannelInfo := ∅
  dnChannelMapBackup : Std.TreeMap ChannelId ChannelInfo := ∅
  receiptLimit : Nat := 1024 * 1024
  driveMap : Std.TreeMap Key LimiterDrive := ∅
  isDestructing : Bool := false
  /-- `m_session->isEnding()`. -/
  isEnding : Bool := false

/-! ## Receipts -/

/-- What `acceptReceiptImpl` does with the receipts of a client: the new map and
    `shouldBeForwared`. The look-up by `operator[]` inserts an empty message. -/
def saveReceipt (msg : RcptPacket) (clientReceiptMap : ClientReceiptMap) :
    ClientReceiptMap × Bool :=
  match clientReceiptMap[msg.clientKey]? with
  | some clientReceipts =>
      let clientReceipts := clientReceipts.insertIfNew msg.replicatorKey {}
      if ((clientReceipts[msg.replicatorKey]?).getD {}).downloadedSize < msg.downloadedSize then
        (clientReceiptMap.insert msg.clientKey (clientReceipts.insert msg.replicatorKey msg), true)
      else (clientReceiptMap.insert msg.clientKey clientReceipts, false)
  | none =>
      (clientReceiptMap.insert msg.clientKey ((∅ : Std.TreeMap ReplicatorKey RcptPacket).insert
        msg.replicatorKey msg), true)

/-- Up to `number` of the candidates, picked by the random numbers: the picked one
    is swapped with the last one and taken off the end. -/
def selectReceivers : (number : Nat) → List Nat → List ReplicatorKey → List ReplicatorKey
  | 0, _, _ => []
  | number + 1, random, candidates =>
      match candidates.getLast? with
      | none => []
      | some back =>
          let randIndex := random.headD 0 % candidates.length
          candidates.getD randIndex back ::
            selectReceivers number random.tail (candidates.set randIndex back).dropLast

/-- The outcome of `acceptReceiptImpl`; `sent` are its "rcpt" messages. -/
structure ReceiptOutcome where
  limiter : DownloadLimiter
  /-- `none` where the argument is left as it was. -/
  shouldBeDisconnected : Option Bool := none
  outErrorCode : ErrorCode := .noError
  shouldBeForwared : Bool := false
  sent : List (ReplicatorKey × RcptPacket) := []

namespace DownloadLimiter

variable (verify : Verify) (limiter : DownloadLimiter)

/-- `sendReceiptToOtherReplicators`: the own receipt is sent to the whole shard. -/
def sendReceiptToOtherReplicators (downloadChannelId : ChannelId) (clientPublicKey : ClientKey)
    (downloadedSize : Nat) (signature : Signature) : List (ReplicatorKey × RcptPacket) :=
  let msg := RcptPacket.ofFields downloadChannelId clientPublicKey limiter.publicKey downloadedSize
    signature
  match limiter.dnChannelMap[downloadChannelId]? with
  | some channelInfo =>
      (channelInfo.dnReplicatorShard.filter (· ≠ limiter.publicKey)).map (·, msg)
  | none => []

def forwardReceipt (msg : RcptPacket) (random : List Nat) (channelInfo : ChannelInfo) :
    List (ReplicatorKey × RcptPacket) :=
  if msg.replicatorKey = limiter.publicKey then
    limiter.sendReceiptToOtherReplicators msg.channelId msg.clientKey msg.downloadedSize
      msg.signature
  else
    (selectReceivers 4 random
      (channelInfo.dnReplicatorShard.filter (· ≠ limiter.publicKey))).map (·, msg)

def acceptReceiptImpl (msg : RcptPacket) (random : List Nat) : ReceiptOutcome :=
  if limiter.isDestructing then { limiter }
  else
    match limiter.dnChannelMap[msg.channelId]? with
    | none =>
        { limiter, shouldBeDisconnected := some true, outErrorCode := .siriusNoChannel }
    | some channelInfo =>
        if !channelInfo.sentClientMap.contains msg.clientKey then
          { limiter, shouldBeDisconnected := some true, outErrorCode := .siriusNoClientInChannel }
        else if !verify msg.clientKey msg.signedBytes msg.signature then
          { limiter, shouldBeDisconnected := some true, outErrorCode := .siriusBadSignature }
        else
          let accepted := channelInfo.acceptUploadSize msg.receipt
          let saved := saveReceipt msg channelInfo.clientReceiptMap
          let channelInfo : ChannelInfo := { accepted.1 with clientReceiptMap := saved.1 }
          let limiter :=
            { limiter with dnChannelMap := limiter.dnChannelMap.insert msg.channelId channelInfo }
          { limiter
            shouldBeDisconnected := some accepted.2.1
            outErrorCode := .ofReceipt accepted.2.2
            shouldBeForwared := saved.2
            sent := if saved.2 then limiter.forwardReceipt msg random channelInfo else [] }

/-- `acceptReceipt`: a receipt of an own client. -/
def acceptReceipt (downloadChannelId : ChannelId) (clientPublicKey : ClientKey)
    (downloadedSize : Nat) (signature : Signature) (random : List Nat) : ReceiptOutcome :=
  if limiter.isDestructing || limiter.isEnding then { limiter }
  else
    limiter.acceptReceiptImpl verify
      (.ofFields downloadChannelId clientPublicKey limiter.publicKey downloadedSize signature) random

def acceptReceiptFromAnotherReplicator (message : RcptPacket) (random : List Nat) :
    ReceiptOutcome :=
  if limiter.isDestructing || limiter.isEnding then { limiter }
  else limiter.acceptReceiptImpl verify message random

/-- The "rcpt" query of `on_dht_request`. -/
def onRcpt (msg : RcptPacket) (random : List Nat) : ReceiptOutcome :=
  if !msg.isValidSize then { limiter }
  else limiter.acceptReceiptFromAnotherReplicator verify msg random

def getLastClientReceipt (downloadChannelId : ChannelId) (clientPublicKey : ClientKey) :
    Option RcptPacket := do
  guard (!limiter.isDestructing)
  let channelInfo ← limiter.dnChannelMap[downloadChannelId]?
  let clientReceipts ← channelInfo.clientReceiptMap[clientPublicKey]?
  clientReceipts[limiter.publicKey]?

/-! ## Sending to clients -/

def checkDownloadLimit (peerKey : ClientKey) (downloadChannelId : ChannelId) :
    DownloadLimiter × Bool × ErrorCode :=
  if limiter.isDestructing || limiter.isEnding then (limiter, false, .noError)
  else
    match limiter.dnChannelMap[downloadChannelId]? with
    | none => (limiter, false, .siriusNoChannel)
    | some channelInfo =>
        if channelInfo.isSynchronizing then (limiter, false, .siriusNoChannel)
        else
          let sentSize := (channelInfo.sentClientMap[peerKey]?).getD 0
          match channelInfo.replicatorUploadRequestMap[limiter.publicKey]? with
          | none =>
              if sentSize > u64 (0 + limiter.receiptLimit) then
                (limiter, false, .siriusReceiptSizeTooSmall)
              else (limiter, true, .noError)
          | some info =>
              -- `lastAcceptedReceiptSize` looks the client up by `operator[]`
              let receiptSize := (info.cell peerKey).acceptedSize
              let channelInfo : ChannelInfo :=
                { channelInfo with
                  toDownloadChannelInfo := channelInfo.setUploadRequestInfo limiter.publicKey
                    (info.withClient peerKey) }
              let after := { limiter with
                dnChannelMap := limiter.dnChannelMap.insert downloadChannelId channelInfo }
              if sentSize > u64 (receiptSize + limiter.receiptLimit) then
                (after, false, .siriusReceiptSizeTooSmall)
              else (after, true, .noError)

def onPieceSent (txHash : ChannelId) (receiverPublicKey : ClientKey) (pieceSize : Nat) :
    DownloadLimiter :=
  if limiter.isDestructing || limiter.isEnding then limiter
  else
    match limiter.dnChannelMap[txHash]? with
    | none => limiter
    | some channelInfo =>
        match channelInfo.sentClientMap[receiverPublicKey]? with
        | none => limiter
        | some sentSize =>
            let channelInfo : ChannelInfo :=
              { channelInfo with
                sentClientMap :=
                  channelInfo.sentClientMap.insert receiverPublicKey (u64 (sentSize + pieceSize)) }
            { limiter with dnChannelMap := limiter.dnChannelMap.insert txHash channelInfo }

def acceptClientConnection (channelId : ChannelId) (peerKey : ClientKey) (driveKey : Key)
    (fileHash : InfoHash) : ConnectionStatus × ErrorCode :=
  if limiter.isDestructing || limiter.isEnding then (.rejected, .noError)
  else if (limiter.driveMap[driveKey]?).any (·.acceptConnectionFromClient peerKey fileHash) then
    (.unlimited, .noError)
  else
    match limiter.dnChannelMap[channelId]? with
    | none => (.rejected, .siriusNoChannel)
    | some channelInfo =>
        if !channelInfo.sentClientMap.contains peerKey then (.rejected, .siriusNoClientInChannel)
        else if channelInfo.totalReceiptsSize < channelInfo.prepaidDownloadSize then
          (.limited, .noError)
        else (.rejected, .siriusChannelRanOut)

/-! ## Channels -/

/-- `addChannelInfo`. What is kept in the backup is restored field by field. -/
def addChannelInfo (channelId : ChannelId) (prepaidDownloadSize : Nat) (driveKey : Key)
    (replicatorsList : List ReplicatorKey) (clients : List ClientKey) (willBeSyncronized : Bool) :
    DownloadLimiter :=
  if limiter.isDestructing then limiter
  else if limiter.dnChannelMap.contains channelId then limiter
  else
    let backup := limiter.dnChannelMapBackup[channelId]?
    let channelInfo : ChannelInfo :=
      { DownloadChannelInfo.addChannelInfo limiter.publicKey prepaidDownloadSize driveKey
          replicatorsList clients willBeSyncronized
          (backup.map (·.toDownloadChannelInfo)) with
        clientReceiptMap := ∅ }
    { limiter with
      dnChannelMap := limiter.dnChannelMap.insert channelId channelInfo
      dnChannelMapBackup := limiter.dnChannelMapBackup.erase channelId }

def increaseChannelSize (channelId : ChannelId) (prepaidDownloadSize : Nat) : DownloadLimiter :=
  if limiter.isDestructing then limiter
  else
    match limiter.dnChannelMap[channelId]? with
    | none => limiter
    | some channelInfo =>
        let channelInfo : ChannelInfo :=
          { channelInfo with
            toDownloadChannelInfo := channelInfo.increaseChannelSize prepaidDownloadSize }
        { limiter with dnChannelMap := limiter.dnChannelMap.insert channelId channelInfo }

def removeChannelInfo (channelId : ChannelId) : DownloadLimiter :=
  if limiter.isDestructing then limiter
  else { limiter with dnChannelMap := limiter.dnChannelMap.erase channelId }

end DownloadLimiter

/-! ## Saving and loading -/

/-- The fields `DownloadChannelInfo::serialize` writes. -/
structure SavedChannelInfo where
  prepaidDownloadSize : Nat
  driveKey : Key
  totalReceiptsSize : Nat
  replicatorUploadRequestMap : Std.TreeMap ReplicatorKey ReplicatorUploadRequestInfo
  sentClientMap : Std.TreeMap ClientKey Nat
  clientReceiptMap : ClientReceiptMap

namespace ChannelInfo

def save (channelInfo : ChannelInfo) : SavedChannelInfo where
  prepaidDownloadSize := channelInfo.prepaidDownloadSize
  driveKey := channelInfo.driveKey
  totalReceiptsSize := channelInfo.totalReceiptsSize
  replicatorUploadRequestMap := channelInfo.replicatorUploadRequestMap
  sentClientMap := channelInfo.sentClientMap
  clientReceiptMap := channelInfo.clientReceiptMap

/-- The loaded channel; the fields that are not written have their defaults. -/
def load (saved : SavedChannelInfo) : ChannelInfo where
  prepaidDownloadSize := saved.prepaidDownloadSize
  driveKey := saved.driveKey
  totalReceiptsSize := saved.totalReceiptsSize
  replicatorUploadRequestMap := saved.replicatorUploadRequestMap
  sentClientMap := saved.sentClientMap
  clientReceiptMap := saved.clientReceiptMap
  dnReplicatorShard := []

end ChannelInfo

namespace DownloadLimiter

def saveDownloadChannelMap (limiter : DownloadLimiter) : Std.TreeMap ChannelId SavedChannelInfo :=
  limiter.dnChannelMap.map fun _ channelInfo => channelInfo.save

def loadDownloadChannelMap (saved : Std.TreeMap ChannelId SavedChannelInfo)
    (limiter : DownloadLimiter) : DownloadLimiter :=
  { limiter with dnChannelMapBackup := saved.map fun _ channelInfo => ChannelInfo.load channelInfo }

/-- The limiter of the next process: nothing but the saved map is left. -/
def restart (limiter : DownloadLimiter) : DownloadLimiter :=
  loadDownloadChannelMap limiter.saveDownloadChannelMap { publicKey := limiter.publicKey }

end DownloadLimiter

end SiriusDrive
