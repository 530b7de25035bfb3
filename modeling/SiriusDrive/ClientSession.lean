import SiriusDrive.DownloadLimiter
import SiriusDrive.Lib.MapLookup

/-! # The download channels of a client

A client counts for each replicator of a channel the bytes it has requested, and signs
receipts for them. The counts are lost with the session: a replicator then sends the client
its last receipt, and the client goes on from there.
-/

namespace SiriusDrive

/-- `ClientSession::DownloadChannel`. -/
structure ClientChannel where
  downloadReplicatorList : List Key := []
  requestedSize : Std.TreeMap ReplicatorKey Nat := ∅
  receivedSize : Std.TreeMap ReplicatorKey Nat := ∅

/-- `ClientSession`, as far as it downloads from channels. -/
structure ClientSession where
  publicKey : ClientKey
  downloadChannelMap : Std.TreeMap ChannelId ClientChannel := ∅

namespace ClientSession

variable (verify : Verify) (session : ClientSession)

/-- `m_downloadChannelMap[channelId]`, which is made when it is not there. -/
def channel (channelId : ChannelId) : ClientChannel :=
  session.downloadChannelMap[channelId]?.getD {}

def setChannel (channelId : ChannelId) (channel : ClientChannel) : ClientSession :=
  { session with downloadChannelMap := session.downloadChannelMap.insert channelId channel }

def addDownloadChannel (downloadChannelId : ChannelId) : ClientSession :=
  if session.downloadChannelMap.contains downloadChannelId then session
  else session.setChannel downloadChannelId {}

def setDownloadChannelReplicators (downloadChannelId : ChannelId) (replicators : List Key) :
    ClientSession :=
  match session.downloadChannelMap[downloadChannelId]? with
  | none => session
  | some channel =>
      session.setChannel downloadChannelId { channel with downloadReplicatorList := replicators }

/-- The count of requested bytes behind `requestedSize`. -/
def requested (transactionHash : ChannelId) (peerPublicKey : ReplicatorKey) : Nat :=
  (session.channel transactionHash).requestedSize[peerPublicKey]?.getD 0

/-- `requestedSize`: both look-ups insert what is missing. -/
def requestedSize (transactionHash : ChannelId) (peerPublicKey : ReplicatorKey) :
    ClientSession × Nat :=
  let channel := session.channel transactionHash
  (session.setChannel transactionHash
    { channel with requestedSize := channel.requestedSize.insertIfNew peerPublicKey 0 },
    session.requested transactionHash peerPublicKey)

/-- `receivedSize`, which inserts what is missing in the same way. -/
def receivedSize (transactionHash : ChannelId) (peerPublicKey : ReplicatorKey) :
    ClientSession × Nat :=
  let channel := session.channel transactionHash
  (session.setChannel transactionHash
    { channel with receivedSize := channel.receivedSize.insertIfNew peerPublicKey 0 },
    channel.receivedSize[peerPublicKey]?.getD 0)

def onPieceRequestWrite (transactionHash : ChannelId) (senderPublicKey : ReplicatorKey)
    (pieceSize : Nat) : ClientSession :=
  match session.downloadChannelMap[transactionHash]? with
  | none => session
  | some channel =>
      session.setChannel transactionHash
        { channel with
          requestedSize := channel.requestedSize.insert senderPublicKey
            (u64 (channel.requestedSize[senderPublicKey]?.getD 0 + pieceSize)) }

def onPieceReceived (transactionHash : ChannelId) (senderPublicKey : ReplicatorKey)
    (pieceSize : Nat) : ClientSession :=
  match session.downloadChannelMap[transactionHash]? with
  | none => session
  | some channel =>
      session.setChannel transactionHash
        { channel with
          receivedSize := channel.receivedSize.insert senderPublicKey
            (u64 (channel.receivedSize[senderPublicKey]?.getD 0 + pieceSize)) }

/-- The checks of `onLastMyReceipt`. The client key in the message is not among them. -/
def isMyReceipt (msg : RcptPacket) (channelId : ChannelId) : Bool :=
  msg.isValidSize && msg.channelId == channelId &&
    verify session.publicKey msg.signedBytes msg.signature

def onLastMyReceipt (msg : RcptPacket) (channelId : ChannelId) : ClientSession :=
  if session.isMyReceipt verify msg channelId then
    let channel := session.channel msg.channelId
    let requested := channel.requestedSize[msg.replicatorKey]?.getD 0
    session.setChannel msg.channelId
      { channel with
        requestedSize := channel.requestedSize.insert msg.replicatorKey
          (if requested < msg.downloadedSize then msg.downloadedSize else requested)
        receivedSize := channel.receivedSize.insert msg.replicatorKey 0 }
  else session

/-- The buffers `signReceipt` signs, one after the other. -/
def signedReceipt (downloadChannelId : ChannelId) (replicatorPublicKey : ReplicatorKey)
    (downloadedSize : Nat) : List UInt8 :=
  FixedBytes.arrayBytes 32 downloadChannelId ++ (FixedBytes.arrayBytes 32 session.publicKey ++
    (FixedBytes.arrayBytes 32 replicatorPublicKey ++ FixedBytes.encode 8 downloadedSize))

section Requested

variable {session} {channelId other : ChannelId} {replicatorKey otherKey : ReplicatorKey}

theorem requested_setChannel (channel : ClientChannel) :
    (session.setChannel channelId channel).requested other otherKey =
      if other = channelId then channel.requestedSize[otherKey]?.getD 0
      else session.requested other otherKey := by
  unfold requested ClientSession.channel setChannel
  rw [Std.TreeMap.getElem?_insert_eq]
  split <;> rfl

theorem requested_setCount {channel : ClientChannel} (count : Nat)
    (isCount : channel.requestedSize =
      (session.channel channelId).requestedSize.insert replicatorKey count) :
    (session.setChannel channelId channel).requested other otherKey =
      if other = channelId ∧ otherKey = replicatorKey then count
      else session.requested other otherKey := by
  rw [requested_setChannel, isCount, Std.TreeMap.getElem?_insert_eq]
  by_cases isChannel : other = channelId
  · by_cases isKey : otherKey = replicatorKey
    · simp [isChannel, isKey]
    · simp [isChannel, isKey, requested]
  · simp [isChannel]

theorem requested_setSame {channel : ClientChannel}
    (same : channel.requestedSize = (session.channel channelId).requestedSize) :
    (session.setChannel channelId channel).requested other otherKey =
      session.requested other otherKey := by
  rw [requested_setChannel, same]
  by_cases isChannel : other = channelId
  · simp [isChannel, requested]
  · simp [isChannel]

theorem channel_of_found {channel : ClientChannel}
    (found : session.downloadChannelMap[channelId]? = some channel) :
    session.channel channelId = channel := by
  simp [ClientSession.channel, found]

theorem channel_of_missing (missing : session.downloadChannelMap[channelId]? = none) :
    session.channel channelId = {} := by
  simp [ClientSession.channel, missing]

@[simp] theorem requested_addDownloadChannel :
    (session.addDownloadChannel channelId).requested other otherKey =
      session.requested other otherKey := by
  unfold addDownloadChannel
  split
  · rfl
  · rename_i isNew
    have missing : session.downloadChannelMap[channelId]? = none :=
      Std.TreeMap.getElem?_eq_none_of_contains_eq_false (Bool.eq_false_iff.mpr isNew)
    exact requested_setSame (by simp [channel_of_missing missing])

@[simp] theorem requested_setDownloadChannelReplicators (replicators : List Key) :
    (session.setDownloadChannelReplicators channelId replicators).requested other otherKey =
      session.requested other otherKey := by
  unfold setDownloadChannelReplicators
  split
  · rfl
  · rename_i channel found
    exact requested_setSame (by simp [channel_of_found found])

@[simp] theorem requested_requestedSize :
    (session.requestedSize channelId replicatorKey).1.requested other otherKey =
      session.requested other otherKey := by
  unfold requestedSize
  dsimp only
  rw [requested_setChannel, Std.TreeMap.getElem?_insertIfNew_eq]
  by_cases isChannel : other = channelId
  · by_cases isKey : otherKey = replicatorKey
    · simp [isChannel, isKey, requested]
    · simp [isChannel, isKey, requested]
  · simp [isChannel]

@[simp] theorem requested_receivedSize :
    (session.receivedSize channelId replicatorKey).1.requested other otherKey =
      session.requested other otherKey :=
  requested_setSame rfl

@[simp] theorem requested_onPieceReceived (pieceSize : Nat) :
    (session.onPieceReceived channelId replicatorKey pieceSize).requested other otherKey =
      session.requested other otherKey := by
  unfold onPieceReceived
  split
  · rfl
  · rename_i channel found
    exact requested_setSame (by simp [channel_of_found found])

theorem requested_onPieceRequestWrite (pieceSize : Nat) :
    (session.onPieceRequestWrite channelId replicatorKey pieceSize).requested other otherKey =
      if (session.downloadChannelMap.contains channelId = true ∧ other = channelId) ∧
          otherKey = replicatorKey then
        u64 (session.requested channelId replicatorKey + pieceSize)
      else session.requested other otherKey := by
  unfold onPieceRequestWrite
  rw [Std.TreeMap.contains_eq_isSome_getElem?]
  cases found : session.downloadChannelMap[channelId]? with
  | none => simp
  | some channel =>
      have isChannel := channel_of_found found
      simp only [Option.isSome_some, true_and]
      rw [requested_setCount _ (by rw [isChannel])]
      simp [requested, isChannel]

theorem requested_onLastMyReceipt (msg : RcptPacket) :
    (session.onLastMyReceipt verify msg channelId).requested other otherKey =
      if session.isMyReceipt verify msg channelId = true ∧ other = msg.channelId ∧
          otherKey = msg.replicatorKey then
        max (session.requested other otherKey) msg.downloadedSize
      else session.requested other otherKey := by
  unfold onLastMyReceipt
  by_cases isMine : session.isMyReceipt verify msg channelId = true
  · simp only [isMine, if_true, true_and]
    rw [requested_setCount _ rfl]
    by_cases same : other = msg.channelId ∧ otherKey = msg.replicatorKey
    · obtain ⟨rfl, rfl⟩ := same
      simp only [and_self, if_true]
      unfold requested
      split <;> omega
    · simp [same]
  · simp [isMine]

end Requested

end ClientSession

end SiriusDrive
