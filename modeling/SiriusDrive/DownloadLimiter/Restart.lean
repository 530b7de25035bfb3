import SiriusDrive.DownloadLimiter.Events

/-! # A channel after a restart

The accounting of a channel is saved on shutdown and read back as a backup. When
the channel is added again, `addChannelInfo` restores what was sent and the sizes
of the receipts, but neither the counter of all receipts nor the receipts. So a
channel answers as if there had been no restart only if these two were empty.
-/

namespace SiriusDrive

/-! ## Requests on a channel -/

/-- What a limiter is asked about one channel. -/
inductive ChannelRequest where
  | acceptReceipt (clientPublicKey : ClientKey) (downloadedSize : Nat) (signature : Signature)
      (random : List Nat)
  | rcpt (clientKey : ClientKey) (replicatorKey : ReplicatorKey) (downloadedSize : Nat)
      (signature : Signature) (random : List Nat)
  | clientConnection (peerKey : ClientKey) (driveKey : Key) (fileHash : InfoHash)
  | checkDownloadLimit (peerKey : ClientKey)
  | pieceSent (receiverPublicKey : ClientKey) (pieceSize : Nat)
  | increaseChannelSize (prepaidDownloadSize : Nat)
  | lastClientReceipt (clientPublicKey : ClientKey)
  deriving Repr, DecidableEq

inductive ChannelAnswer where
  | receipt (shouldBeDisconnected : Option Bool) (outErrorCode : ErrorCode)
      (sent : List (ReplicatorKey × RcptPacket))
  | connection (status : ConnectionStatus) (outErrorCode : ErrorCode)
  | limit (allowed : Bool) (outErrorCode : ErrorCode)
  | lastReceipt (receipt : Option RcptPacket)
  | done
  deriving Repr, DecidableEq

def ReceiptOutcome.answer (outcome : ReceiptOutcome) : ChannelAnswer :=
  .receipt outcome.shouldBeDisconnected outcome.outErrorCode outcome.sent

namespace DownloadLimiter

variable (verify : Verify) (channelId : ChannelId)

def serve (limiter : DownloadLimiter) : ChannelRequest → DownloadLimiter × ChannelAnswer
  | .acceptReceipt clientPublicKey downloadedSize signature random =>
      let outcome :=
        limiter.acceptReceipt verify channelId clientPublicKey downloadedSize signature random
      (outcome.limiter, outcome.answer)
  | .rcpt clientKey replicatorKey downloadedSize signature random =>
      let outcome := limiter.onRcpt verify
        (.ofFields channelId clientKey replicatorKey downloadedSize signature) random
      (outcome.limiter, outcome.answer)
  | .clientConnection peerKey driveKey fileHash =>
      let answer := limiter.acceptClientConnection channelId peerKey driveKey fileHash
      (limiter, .connection answer.1 answer.2)
  | .checkDownloadLimit peerKey =>
      let checked := limiter.checkDownloadLimit peerKey channelId
      (checked.1, .limit checked.2.1 checked.2.2)
  | .pieceSent receiverPublicKey pieceSize =>
      (limiter.onPieceSent channelId receiverPublicKey pieceSize, .done)
  | .increaseChannelSize prepaidDownloadSize =>
      (limiter.increaseChannelSize channelId prepaidDownloadSize, .done)
  | .lastClientReceipt clientPublicKey =>
      (limiter, .lastReceipt (limiter.getLastClientReceipt channelId clientPublicKey))

def answers (limiter : DownloadLimiter) : List ChannelRequest → List ChannelAnswer
  | [] => []
  | request :: requests =>
      (limiter.serve verify channelId request).2 ::
        answers (limiter.serve verify channelId request).1 requests

/-! ## Limiters that agree on a channel -/

structure SameSettings (before after : DownloadLimiter) : Prop where
  publicKey : after.publicKey = before.publicKey
  receiptLimit : after.receiptLimit = before.receiptLimit
  driveMap : after.driveMap = before.driveMap
  isDestructing : after.isDestructing = before.isDestructing
  isEnding : after.isEnding = before.isEnding

/-- Moreover, they have the same entry for a channel. -/
structure AgreeOn (channelId : ChannelId) (before after : DownloadLimiter) : Prop extends
    SameSettings before after where
  channel : after.dnChannelMap[channelId]? = before.dnChannelMap[channelId]?

variable {verify channelId} {before after : DownloadLimiter}

theorem AgreeOn.insert (agree : AgreeOn channelId before after) (channelInfo : ChannelInfo) :
    AgreeOn channelId
      { before with dnChannelMap := before.dnChannelMap.insert channelId channelInfo }
      { after with dnChannelMap := after.dnChannelMap.insert channelId channelInfo } := by
  refine ⟨⟨agree.publicKey, agree.receiptLimit, agree.driveMap, agree.isDestructing,
    agree.isEnding⟩, ?_⟩
  simp only [Std.TreeMap.getElem?_insert_eq, if_true]

theorem AgreeOn.forwardReceipt {msg : RcptPacket} (agree : AgreeOn msg.channelId before after)
    (random : List Nat) (channelInfo : ChannelInfo) :
    after.forwardReceipt msg random channelInfo = before.forwardReceipt msg random channelInfo := by
  unfold DownloadLimiter.forwardReceipt sendReceiptToOtherReplicators
  rw [agree.publicKey, agree.channel]

variable (verify) in
theorem AgreeOn.acceptReceiptImpl {msg : RcptPacket} (agree : AgreeOn msg.channelId before after)
    (random : List Nat) :
    (after.acceptReceiptImpl verify msg random).answer =
        (before.acceptReceiptImpl verify msg random).answer ∧
      AgreeOn msg.channelId (before.acceptReceiptImpl verify msg random).limiter
        (after.acceptReceiptImpl verify msg random).limiter := by
  unfold DownloadLimiter.acceptReceiptImpl
  have destructs := agree.isDestructing
  rw [agree.channel]
  by_cases destructing : before.isDestructing = true
  · rw [if_pos (destructs.trans destructing), if_pos destructing]
    exact ⟨rfl, agree⟩
  · rw [if_neg (by rw [destructs]; exact destructing), if_neg destructing]
    cases before.dnChannelMap[msg.channelId]? with
    | none => exact ⟨rfl, agree⟩
    | some channelInfo =>
        simp only
        by_cases client : (!channelInfo.sentClientMap.contains msg.clientKey) = true
        · rw [if_pos client, if_pos client]
          exact ⟨rfl, agree⟩
        · rw [if_neg client, if_neg client]
          by_cases unsigned : (!verify msg.clientKey msg.signedBytes msg.signature) = true
          · rw [if_pos unsigned, if_pos unsigned]
            exact ⟨rfl, agree⟩
          · rw [if_neg unsigned, if_neg unsigned]
            have stored := agree.insert (channelInfo.receive msg)
            have forwarded := stored.forwardReceipt random (channelInfo.receive msg)
            refine ⟨?_, stored⟩
            exact congrArg (fun sent => ChannelAnswer.receipt
              (some (channelInfo.acceptUploadSize msg.receipt).2.1)
              (.ofReceipt (channelInfo.acceptUploadSize msg.receipt).2.2)
              (if (saveReceipt msg channelInfo.clientReceiptMap).2 then sent else [])) forwarded

variable (verify) in
theorem AgreeOn.acceptReceiptFromAnotherReplicator {msg : RcptPacket}
    (agree : AgreeOn msg.channelId before after) (random : List Nat) :
    (after.acceptReceiptFromAnotherReplicator verify msg random).answer =
        (before.acceptReceiptFromAnotherReplicator verify msg random).answer ∧
      AgreeOn msg.channelId (before.acceptReceiptFromAnotherReplicator verify msg random).limiter
        (after.acceptReceiptFromAnotherReplicator verify msg random).limiter := by
  unfold DownloadLimiter.acceptReceiptFromAnotherReplicator
  rw [agree.isDestructing, agree.isEnding]
  by_cases stopped : (before.isDestructing || before.isEnding) = true
  · rw [if_pos stopped, if_pos stopped]
    exact ⟨rfl, agree⟩
  · rw [if_neg stopped, if_neg stopped]
    exact agree.acceptReceiptImpl verify random

theorem AgreeOn.checkDownloadLimit (agree : AgreeOn channelId before after)
    (peerKey : ClientKey) :
    (after.checkDownloadLimit peerKey channelId).2 =
        (before.checkDownloadLimit peerKey channelId).2 ∧
      AgreeOn channelId (before.checkDownloadLimit peerKey channelId).1
        (after.checkDownloadLimit peerKey channelId).1 := by
  have destructs := agree.isDestructing
  have ends := agree.isEnding
  have limit := agree.receiptLimit
  unfold DownloadLimiter.checkDownloadLimit
  rw [agree.channel, agree.publicKey]
  by_cases stopped : (before.isDestructing || before.isEnding) = true
  · rw [if_pos (by rw [destructs, ends]; exact stopped), if_pos stopped]
    exact ⟨rfl, agree⟩
  · rw [if_neg (by rw [destructs, ends]; exact stopped), if_neg stopped]
    cases before.dnChannelMap[channelId]? with
    | none => exact ⟨rfl, agree⟩
    | some channelInfo =>
        simp only
        by_cases synchronizing : channelInfo.isSynchronizing = true
        · rw [if_pos synchronizing, if_pos synchronizing]
          exact ⟨rfl, agree⟩
        · rw [if_neg synchronizing, if_neg synchronizing]
          cases channelInfo.replicatorUploadRequestMap[before.publicKey]? with
          | none =>
              simp only
              rw [limit]
              split
              · exact ⟨rfl, agree⟩
              · exact ⟨rfl, agree⟩
          | some info =>
              have looked := agree.insert (channelInfo.lookUp before.publicKey info peerKey)
              simp only
              by_cases small : (channelInfo.sentClientMap[peerKey]?).getD 0 >
                  u64 ((info.cell peerKey).acceptedSize + before.receiptLimit)
              · rw [if_pos (by rw [limit]; exact small), if_pos small]
                exact ⟨rfl, ⟨⟨rfl, limit, agree.driveMap, destructs, ends⟩, looked.channel⟩⟩
              · rw [if_neg (by rw [limit]; exact small), if_neg small]
                exact ⟨rfl, ⟨⟨rfl, limit, agree.driveMap, destructs, ends⟩, looked.channel⟩⟩

theorem AgreeOn.onPieceSent (agree : AgreeOn channelId before after)
    (receiverPublicKey : ClientKey) (pieceSize : Nat) :
    AgreeOn channelId (before.onPieceSent channelId receiverPublicKey pieceSize)
      (after.onPieceSent channelId receiverPublicKey pieceSize) := by
  have destructs := agree.isDestructing
  have ends := agree.isEnding
  unfold DownloadLimiter.onPieceSent
  rw [agree.channel]
  by_cases stopped : (before.isDestructing || before.isEnding) = true
  · rw [if_pos stopped, if_pos (by rw [destructs, ends]; exact stopped)]
    exact agree
  · rw [if_neg stopped, if_neg (by rw [destructs, ends]; exact stopped)]
    cases before.dnChannelMap[channelId]? with
    | none => exact agree
    | some channelInfo =>
        simp only
        cases channelInfo.sentClientMap[receiverPublicKey]? with
        | none => exact agree
        | some sentSize =>
            exact agree.insert (channelInfo.countPiece receiverPublicKey sentSize pieceSize)

theorem AgreeOn.increaseChannelSize (agree : AgreeOn channelId before after)
    (prepaidDownloadSize : Nat) :
    AgreeOn channelId (before.increaseChannelSize channelId prepaidDownloadSize)
      (after.increaseChannelSize channelId prepaidDownloadSize) := by
  have destructs := agree.isDestructing
  unfold DownloadLimiter.increaseChannelSize
  rw [agree.channel]
  by_cases destructing : before.isDestructing = true
  · rw [if_pos destructing, if_pos (destructs.trans destructing)]
    exact agree
  · rw [if_neg destructing, if_neg (by rw [destructs]; exact destructing)]
    cases before.dnChannelMap[channelId]? with
    | none => exact agree
    | some channelInfo => exact agree.insert (channelInfo.increase prepaidDownloadSize)

variable (verify) in
/-- Limiters that agree on a channel give the same answer to a request on it, and
    still agree. -/
theorem AgreeOn.serve (agree : AgreeOn channelId before after) (request : ChannelRequest) :
    (after.serve verify channelId request).2 = (before.serve verify channelId request).2 ∧
      AgreeOn channelId (before.serve verify channelId request).1
        (after.serve verify channelId request).1 := by
  have received : ∀ clientKey replicatorKey downloadedSize signature,
      AgreeOn (RcptPacket.ofFields channelId clientKey replicatorKey downloadedSize
        signature).channelId before after := by
    intro clientKey replicatorKey downloadedSize signature
    rw [RcptPacket.channelId_ofFields]
    exact agree
  cases request with
  | acceptReceipt clientPublicKey downloadedSize signature random =>
      have own := (received clientPublicKey before.publicKey downloadedSize
        signature).acceptReceiptFromAnotherReplicator verify random
      rw [RcptPacket.channelId_ofFields] at own
      unfold DownloadLimiter.serve acceptReceipt
      rw [agree.publicKey]
      exact own
  | rcpt clientKey replicatorKey downloadedSize signature random =>
      have other := (received clientKey replicatorKey downloadedSize
        signature).acceptReceiptFromAnotherReplicator verify random
      rw [RcptPacket.channelId_ofFields] at other
      have valid : ∀ limiter : DownloadLimiter, limiter.onRcpt verify
          (.ofFields channelId clientKey replicatorKey downloadedSize signature) random =
          limiter.acceptReceiptFromAnotherReplicator verify
            (.ofFields channelId clientKey replicatorKey downloadedSize signature) random := by
        intro limiter
        rw [onRcpt, if_neg (by simp)]
      unfold DownloadLimiter.serve
      simp only [valid]
      exact other
  | clientConnection peerKey driveKey fileHash =>
      refine ⟨?_, agree⟩
      unfold DownloadLimiter.serve acceptClientConnection
      rw [agree.isDestructing, agree.isEnding, agree.driveMap, agree.channel]
  | checkDownloadLimit peerKey =>
      obtain ⟨answer, still⟩ := agree.checkDownloadLimit peerKey
      refine ⟨?_, still⟩
      exact congrArg (fun checked : Bool × ErrorCode =>
        ChannelAnswer.limit checked.1 checked.2) answer
  | pieceSent receiverPublicKey pieceSize =>
      exact ⟨rfl, agree.onPieceSent receiverPublicKey pieceSize⟩
  | increaseChannelSize prepaidDownloadSize =>
      exact ⟨rfl, agree.increaseChannelSize prepaidDownloadSize⟩
  | lastClientReceipt clientPublicKey =>
      refine ⟨?_, agree⟩
      unfold DownloadLimiter.serve getLastClientReceipt
      rw [agree.isDestructing, agree.channel, agree.publicKey]

variable (verify) in
theorem AgreeOn.answers (agree : AgreeOn channelId before after) (requests : List ChannelRequest) :
    after.answers verify channelId requests = before.answers verify channelId requests := by
  induction requests generalizing before after with
  | nil => rfl
  | cons request requests ih =>
      obtain ⟨answer, still⟩ := agree.serve verify request
      rw [DownloadLimiter.answers, DownloadLimiter.answers, answer, ih still]

end DownloadLimiter

/-! ## Adding the channel again -/

namespace ChannelInfo

/-- The receipt accounting of two channels is the same. -/
structure SameAccounting (saved restored : ChannelInfo) : Prop where
  totalReceiptsSize : restored.totalReceiptsSize = saved.totalReceiptsSize
  replicatorUploadRequestMap :
    restored.replicatorUploadRequestMap = saved.replicatorUploadRequestMap
  sentClientMap : restored.sentClientMap = saved.sentClientMap
  clientReceiptMap : restored.clientReceiptMap = saved.clientReceiptMap

/-- What is left of a channel when it is added again after a restart. -/
def restored (channelInfo : ChannelInfo) (prepaidDownloadSize : Nat) (driveKey : Key)
    (replicatorsList : List ReplicatorKey) (willBeSyncronized : Bool) : ChannelInfo where
  isSynchronizing := willBeSyncronized
  prepaidDownloadSize := prepaidDownloadSize
  sentClientMap := channelInfo.sentClientMap
  replicatorUploadRequestMap := channelInfo.replicatorUploadRequestMap
  driveKey := driveKey
  dnReplicatorShard := replicatorsList

variable (channelInfo : ChannelInfo)

private theorem eq_empty_of_isEmpty {clientReceiptMap : ClientReceiptMap}
    (empty : clientReceiptMap.isEmpty = true) : clientReceiptMap = ∅ := by
  obtain ⟨⟨inner, wf⟩⟩ := clientReceiptMap
  cases inner with
  | leaf => rfl
  | inner =>
      simp [Std.TreeMap.isEmpty, Std.DTreeMap.isEmpty, Std.DTreeMap.Internal.Impl.isEmpty] at empty

/-- The accounting survives exactly if nothing was counted and no receipt stored. -/
theorem sameAccounting_restored_iff (prepaidDownloadSize : Nat) (driveKey : Key)
    (replicatorsList : List ReplicatorKey) (willBeSyncronized : Bool) :
    channelInfo.SameAccounting (channelInfo.restored prepaidDownloadSize driveKey replicatorsList
        willBeSyncronized) ↔
      channelInfo.totalReceiptsSize = 0 ∧ channelInfo.clientReceiptMap.isEmpty = true := by
  constructor
  · intro same
    refine ⟨same.totalReceiptsSize.symm, ?_⟩
    rw [← same.clientReceiptMap]
    rfl
  · rintro ⟨nothing, empty⟩
    exact ⟨nothing.symm, rfl, rfl, (eq_empty_of_isEmpty empty).symm⟩

theorem SameAccounting.eq
    (same : channelInfo.SameAccounting (channelInfo.restored channelInfo.prepaidDownloadSize
      channelInfo.driveKey channelInfo.dnReplicatorShard channelInfo.isSynchronizing)) :
    channelInfo.restored channelInfo.prepaidDownloadSize channelInfo.driveKey
      channelInfo.dnReplicatorShard channelInfo.isSynchronizing = channelInfo := by
  have total := same.totalReceiptsSize
  have receipts := same.clientReceiptMap
  rcases channelInfo with ⟨⟨isSynchronizing, prepaid, counter, sent, requests, drive, shard⟩, stored⟩
  simp only [restored] at total receipts ⊢
  rw [← total, ← receipts]

end ChannelInfo

namespace DownloadLimiter

variable {limiter : DownloadLimiter} {channelId : ChannelId} {channelInfo : ChannelInfo}

theorem getElem?_restart_addChannelInfo
    (found : limiter.dnChannelMap[channelId]? = some channelInfo) (prepaidDownloadSize : Nat)
    (driveKey : Key) (replicatorsList : List ReplicatorKey) (clients : List ClientKey)
    (willBeSyncronized : Bool) :
    (limiter.restart.addChannelInfo channelId prepaidDownloadSize driveKey replicatorsList clients
        willBeSyncronized).dnChannelMap[channelId]? =
      some (channelInfo.restored prepaidDownloadSize driveKey replicatorsList
        willBeSyncronized) := by
  have backup : limiter.restart.dnChannelMapBackup[channelId]? = some (.load channelInfo.save) := by
    simp only [restart, loadDownloadChannelMap, saveDownloadChannelMap, Std.TreeMap.getElem?_map,
      found, Option.map_some]
  have running : limiter.restart.isDestructing = false := rfl
  have missing : limiter.restart.dnChannelMap.contains channelId = false := rfl
  unfold addChannelInfo
  rw [if_neg (by simp [running]), if_neg (by simp [missing]), backup]
  simp only [Std.TreeMap.getElem?_insert_eq, if_true]
  rfl

end DownloadLimiter

/-- A channel that is added again after a restart has its accounting back, and
    answers all later requests as before, exactly if no receipt was counted or
    stored before. -/
theorem restored_channel_iff (verify : Verify) (limiter : DownloadLimiter) (channelId : ChannelId)
    (channelInfo : ChannelInfo) (found : limiter.dnChannelMap[channelId]? = some channelInfo)
    (driveKey : Key) (replicatorsList : List ReplicatorKey) (clients : List ClientKey)
    (willBeSyncronized : Bool) :
    ∃ restored, (limiter.restart.addChannelInfo channelId channelInfo.prepaidDownloadSize driveKey
        replicatorsList clients willBeSyncronized).dnChannelMap[channelId]? = some restored ∧
      ((channelInfo.SameAccounting restored ∧
        (driveKey = channelInfo.driveKey → replicatorsList = channelInfo.dnReplicatorShard →
          willBeSyncronized = channelInfo.isSynchronizing → ∀ later : DownloadLimiter,
          limiter.SameSettings later → later.dnChannelMap[channelId]? = some restored →
          ∀ requests : List ChannelRequest,
            later.answers verify channelId requests = limiter.answers verify channelId requests)) ↔
      channelInfo.totalReceiptsSize = 0 ∧ channelInfo.clientReceiptMap.isEmpty = true) := by
  refine ⟨_, DownloadLimiter.getElem?_restart_addChannelInfo found _ _ _ clients _, ?_⟩
  rw [← channelInfo.sameAccounting_restored_iff channelInfo.prepaidDownloadSize driveKey
    replicatorsList willBeSyncronized]
  constructor
  · intro kept
    exact kept.1
  · intro same
    refine ⟨same, ?_⟩
    rintro rfl rfl rfl later settings present requests
    have agree : limiter.AgreeOn channelId later := by
      refine ⟨settings, ?_⟩
      rw [present, found, same.eq]
    exact agree.answers verify requests

/-- What was sent to a client without a receipt is still known. -/
theorem restored_channel_iff_sent :
    let channelInfo : ChannelInfo :=
      { prepaidDownloadSize := 80, driveKey := 7, dnReplicatorShard := [1, 2]
        sentClientMap := (∅ : Std.TreeMap ClientKey Nat).insert 5 60 }
    let limiter : DownloadLimiter :=
      { publicKey := 1, dnChannelMap := (∅ : Std.TreeMap ChannelId ChannelInfo).insert 3 channelInfo }
    ∃ restored, (limiter.restart.addChannelInfo 3 80 7 [1, 2] [5]
        false).dnChannelMap[(3 : ChannelId)]? = some restored ∧
      restored.sentClientMap[(5 : ClientKey)]? = some 60 ∧
      channelInfo.SameAccounting restored := by
  intro channelInfo limiter
  obtain ⟨restored, present, kept⟩ := restored_channel_iff (fun _ _ _ => true) limiter 3 channelInfo
    Std.TreeMap.getElem?_insert_self 7 [1, 2] [5] false
  have same := (kept.mpr ⟨rfl, rfl⟩).1
  refine ⟨restored, present, ?_, same⟩
  rw [same.sentClientMap]
  exact Std.TreeMap.getElem?_insert_self

/-- A channel whose prepaid size is used up rejects its client, but accepts it again
    after a restart. -/
theorem restored_channel_forgets_receipts :
    let start : DownloadLimiter := ({ publicKey := 1 } : DownloadLimiter).addChannelInfo 3 80 7
      [1, 2] [5] false
    let served := (start.acceptReceipt (fun _ _ _ => true) 3 5 80 0 []).limiter
    let again := served.restart.addChannelInfo 3 80 7 [1, 2] [5] false
    (served.dnChannelMap[(3 : ChannelId)]?).map (·.totalReceiptsSize) = some 80 ∧
      (again.dnChannelMap[(3 : ChannelId)]?).map (·.totalReceiptsSize) = some 0 ∧
      served.answers (fun _ _ _ => true) 3 [.clientConnection 5 7 9] =
        [.connection .rejected .siriusChannelRanOut] ∧
      again.answers (fun _ _ _ => true) 3 [.clientConnection 5 7 9] =
        [.connection .limited .noError] := by
  decide +kernel

end SiriusDrive
