import SiriusDrive.DownloadChannel.ReceiptCounter
import SiriusDrive.DownloadLimiter

/-! # The events of a download limiter

Whatever happens to a limiter, each of its channels either stays as it is, comes
or goes, or undergoes one of four actions. Invariants of channels are checked
against these actions only.
-/

namespace SiriusDrive

/-! ## Stored receipts -/

def receiptAt (clientReceiptMap : ClientReceiptMap) (clientKey : ClientKey)
    (replicatorKey : ReplicatorKey) : Option RcptPacket :=
  (clientReceiptMap[clientKey]?).bind (·[replicatorKey]?)

/-- Its size; a missing receipt and an empty one have size 0. -/
def storedSize (clientReceiptMap : ClientReceiptMap) (clientKey : ClientKey)
    (replicatorKey : ReplicatorKey) : Nat :=
  ((receiptAt clientReceiptMap clientKey replicatorKey).getD {}).downloadedSize

section SaveReceipt

variable (msg : RcptPacket) (clientReceiptMap : ClientReceiptMap)

theorem saveReceipt_cases :
    (clientReceiptMap[msg.clientKey]? = none ∧
      saveReceipt msg clientReceiptMap = (clientReceiptMap.insert msg.clientKey
        ((∅ : Std.TreeMap ReplicatorKey RcptPacket).insert msg.replicatorKey msg), true)) ∨
    (∃ clientReceipts, clientReceiptMap[msg.clientKey]? = some clientReceipts ∧
      storedSize clientReceiptMap msg.clientKey msg.replicatorKey < msg.downloadedSize ∧
      saveReceipt msg clientReceiptMap = (clientReceiptMap.insert msg.clientKey
        ((clientReceipts.insertIfNew msg.replicatorKey {}).insert msg.replicatorKey msg), true)) ∨
    (∃ clientReceipts, clientReceiptMap[msg.clientKey]? = some clientReceipts ∧
      msg.downloadedSize ≤ storedSize clientReceiptMap msg.clientKey msg.replicatorKey ∧
      saveReceipt msg clientReceiptMap = (clientReceiptMap.insert msg.clientKey
        (clientReceipts.insertIfNew msg.replicatorKey {}), false)) := by
  unfold saveReceipt
  cases found : clientReceiptMap[msg.clientKey]? with
  | none => exact .inl ⟨rfl, rfl⟩
  | some clientReceipts =>
      have looked : (((clientReceipts.insertIfNew msg.replicatorKey {})[msg.replicatorKey]?).getD
          {}).downloadedSize = storedSize clientReceiptMap msg.clientKey msg.replicatorKey := by
        simp only [storedSize, receiptAt, found, Option.bind_some,
          Std.TreeMap.getElem?_insertIfNew, Std.ReflCmp.compare_self, true_and]
        split
        · rename_i absent
          rw [Std.TreeMap.getElem?_eq_none absent]
          rfl
        · rfl
      simp only [looked]
      split
      · rename_i newer
        exact .inr (.inl ⟨clientReceipts, rfl, newer, rfl⟩)
      · rename_i old
        exact .inr (.inr ⟨clientReceipts, rfl, Nat.le_of_not_lt old, rfl⟩)

/-- A receipt is forwarded if it is the first one of its client or newer than the
    one stored for its replicator. -/
theorem saveReceipt_forwards :
    (saveReceipt msg clientReceiptMap).2 = true ↔
      clientReceiptMap[msg.clientKey]? = none ∨
        storedSize clientReceiptMap msg.clientKey msg.replicatorKey < msg.downloadedSize := by
  rcases saveReceipt_cases msg clientReceiptMap with
    ⟨unknown, saved⟩ | ⟨receipts, known, newer, saved⟩ | ⟨receipts, known, old, saved⟩
  · rw [saved]
    exact iff_of_true rfl (.inl unknown)
  · rw [saved]
    exact iff_of_true rfl (.inr newer)
  · rw [saved, known]
    simp only [Bool.false_eq_true, reduceCtorEq, false_or, false_iff, Nat.not_lt]
    exact old

theorem receiptAt_saveReceipt (clientKey : ClientKey) (replicatorKey : ReplicatorKey) :
    receiptAt (saveReceipt msg clientReceiptMap).1 clientKey replicatorKey =
      if clientKey = msg.clientKey ∧ replicatorKey = msg.replicatorKey then
        some (if (saveReceipt msg clientReceiptMap).2 then msg
          else (receiptAt clientReceiptMap clientKey replicatorKey).getD {})
      else receiptAt clientReceiptMap clientKey replicatorKey := by
  by_cases isClient : clientKey = msg.clientKey
  · subst isClient
    rcases saveReceipt_cases msg clientReceiptMap with
      ⟨unknown, saved⟩ | ⟨receipts, known, newer, saved⟩ | ⟨receipts, known, old, saved⟩
    · simp only [saved, receiptAt, Std.TreeMap.getElem?_insert_eq, if_true, Option.bind_some, unknown,
        Option.bind_none, true_and]
      split <;> simp
    · simp only [saved, receiptAt, Std.TreeMap.getElem?_insert_eq, Std.TreeMap.getElem?_insertIfNew_eq, if_true,
        Option.bind_some, known, true_and]
      split <;> simp
    · simp only [saved, receiptAt, Std.TreeMap.getElem?_insert_eq, Std.TreeMap.getElem?_insertIfNew_eq, if_true,
        Option.bind_some, known, true_and]
      split <;> simp
  · rw [if_neg (fun both => isClient both.1)]
    rcases saveReceipt_cases msg clientReceiptMap with
      ⟨-, saved⟩ | ⟨receipts, -, -, saved⟩ | ⟨receipts, -, -, saved⟩ <;>
    · rw [saved, receiptAt, Std.TreeMap.getElem?_insert_eq, if_neg isClient, receiptAt]

theorem saveReceipt_client (clientKey : ClientKey) :
    (saveReceipt msg clientReceiptMap).1[clientKey]? = none ↔
      clientKey ≠ msg.clientKey ∧ clientReceiptMap[clientKey]? = none := by
  rcases saveReceipt_cases msg clientReceiptMap with
    ⟨unknown, saved⟩ | ⟨receipts, known, newer, saved⟩ | ⟨receipts, known, old, saved⟩ <;>
  · rw [saved, Std.TreeMap.getElem?_insert_eq]
    split <;> simp_all

theorem storedSize_saveReceipt (clientKey : ClientKey) (replicatorKey : ReplicatorKey) :
    storedSize (saveReceipt msg clientReceiptMap).1 clientKey replicatorKey =
      if clientKey = msg.clientKey ∧ replicatorKey = msg.replicatorKey then
        max (storedSize clientReceiptMap clientKey replicatorKey) msg.downloadedSize
      else storedSize clientReceiptMap clientKey replicatorKey := by
  have forwards := saveReceipt_forwards msg clientReceiptMap
  unfold storedSize at forwards ⊢
  rw [receiptAt_saveReceipt]
  split
  · rename_i same
    obtain ⟨rfl, rfl⟩ := same
    cases forwarded : (saveReceipt msg clientReceiptMap).2 with
    | true =>
        have reason := forwards.mp forwarded
        rw [if_pos rfl, Option.getD_some]
        rcases reason with unknown | newer
        · simp [receiptAt, unknown]
        · omega
    | false =>
        have old : ¬ ((receiptAt clientReceiptMap msg.clientKey msg.replicatorKey).getD
            {}).downloadedSize < msg.downloadedSize := by
          intro newer
          have := forwards.mpr (.inr newer)
          simp [forwarded] at this
        rw [if_neg Bool.false_ne_true, Option.getD_some]
        omega
  · rfl

end SaveReceipt

/-! ## Events -/

/-- What happens to a limiter. The random numbers choose the receivers of a
    forwarded receipt. -/
inductive LimiterEvent where
  | addChannelInfo (channelId : ChannelId) (prepaidDownloadSize : Nat) (driveKey : Key)
      (replicatorsList : List ReplicatorKey) (clients : List ClientKey) (willBeSyncronized : Bool)
  | increaseChannelSize (channelId : ChannelId) (prepaidDownloadSize : Nat)
  | removeChannelInfo (channelId : ChannelId)
  | acceptReceipt (downloadChannelId : ChannelId) (clientPublicKey : ClientKey)
      (downloadedSize : Nat) (signature : Signature) (random : List Nat)
  | rcpt (msg : RcptPacket) (random : List Nat)
  | checkDownloadLimit (peerKey : ClientKey) (downloadChannelId : ChannelId)
  | pieceSent (txHash : ChannelId) (receiverPublicKey : ClientKey) (pieceSize : Nat)
  | setReceiptLimit (newLimitInBytes : Nat)
  | setDrive (driveKey : Key) (drive : Option LimiterDrive)
  | sessionEnds
  | destruct
  | restart
  deriving Repr, DecidableEq

namespace DownloadLimiter

variable (verify : Verify) (limiter : DownloadLimiter)

/-- The limiter after an event, with the receipt the event delivers, if any. -/
def handle : LimiterEvent → ReceiptOutcome
  | .addChannelInfo channelId prepaidDownloadSize driveKey replicatorsList clients
      willBeSyncronized =>
      { limiter := limiter.addChannelInfo channelId prepaidDownloadSize driveKey replicatorsList
          clients willBeSyncronized }
  | .increaseChannelSize channelId prepaidDownloadSize =>
      { limiter := limiter.increaseChannelSize channelId prepaidDownloadSize }
  | .removeChannelInfo channelId => { limiter := limiter.removeChannelInfo channelId }
  | .acceptReceipt downloadChannelId clientPublicKey downloadedSize signature random =>
      limiter.acceptReceipt verify downloadChannelId clientPublicKey downloadedSize signature random
  | .rcpt msg random => limiter.onRcpt verify msg random
  | .checkDownloadLimit peerKey downloadChannelId =>
      { limiter := (limiter.checkDownloadLimit peerKey downloadChannelId).1 }
  | .pieceSent txHash receiverPublicKey pieceSize =>
      { limiter := limiter.onPieceSent txHash receiverPublicKey pieceSize }
  | .setReceiptLimit newLimitInBytes =>
      { limiter := { limiter with receiptLimit := newLimitInBytes } }
  | .setDrive driveKey drive =>
      { limiter := { limiter with driveMap := limiter.driveMap.alter driveKey fun _ => drive } }
  | .sessionEnds => { limiter := { limiter with isEnding := true } }
  | .destruct => { limiter := { limiter with isDestructing := true } }
  | .restart => { limiter := limiter.restart }

/-- The message an event brings to `acceptReceiptImpl`. -/
def message : LimiterEvent → Option RcptPacket
  | .acceptReceipt downloadChannelId clientPublicKey downloadedSize signature _ =>
      some (.ofFields downloadChannelId clientPublicKey limiter.publicKey downloadedSize signature)
  | .rcpt msg _ => if msg.isValidSize then some msg else none
  | _ => none

/-- The checks a message passes before its receipt is looked at. -/
def verifies (msg : RcptPacket) : Bool :=
  !limiter.isDestructing && !limiter.isEnding &&
    (limiter.dnChannelMap[msg.channelId]?).any (·.sentClientMap.contains msg.clientKey) &&
    verify msg.clientKey msg.signedBytes msg.signature

/-- The message of an event, if it is validly signed for a client of a channel. -/
def receivedMessage (event : LimiterEvent) : Option RcptPacket :=
  (limiter.message event).filter (limiter.verifies verify ·)

end DownloadLimiter

def limiterSystem (verify : Verify) : Transition DownloadLimiter LimiterEvent where
  step limiter event := some (limiter.handle verify event).limiter

/-! ## Channels under events -/

namespace ChannelInfo

/-- `acceptReceiptImpl` for a message that passed its checks. -/
def receive (msg : RcptPacket) (channelInfo : ChannelInfo) : ChannelInfo :=
  { (channelInfo.acceptUploadSize msg.receipt).1 with
    clientReceiptMap := (saveReceipt msg channelInfo.clientReceiptMap).1 }

/-- `checkDownloadLimit` looks the client up in the own receipts. -/
def lookUp (publicKey : ReplicatorKey) (info : ReplicatorUploadRequestInfo) (peerKey : ClientKey)
    (channelInfo : ChannelInfo) : ChannelInfo :=
  { channelInfo with
    toDownloadChannelInfo := channelInfo.setUploadRequestInfo publicKey (info.withClient peerKey) }

def increase (prepaidDownloadSize : Nat) (channelInfo : ChannelInfo) : ChannelInfo :=
  { channelInfo with toDownloadChannelInfo := channelInfo.increaseChannelSize prepaidDownloadSize }

/-- `onPieceSent` for a client of the channel. -/
def countPiece (receiverPublicKey : ClientKey) (sentSize pieceSize : Nat)
    (channelInfo : ChannelInfo) : ChannelInfo :=
  { channelInfo with
    sentClientMap := channelInfo.sentClientMap.insert receiverPublicKey (u64 (sentSize + pieceSize)) }

end ChannelInfo

inductive ChannelChange (verify : Verify) (limiter : DownloadLimiter) (event : LimiterEvent)
    (channelId : ChannelId) : Option ChannelInfo → Option ChannelInfo → Prop where
  | same (channelInfo : Option ChannelInfo)
      (notReceived : ∀ msg, limiter.receivedMessage verify event = some msg →
        msg.channelId ≠ channelId) :
      ChannelChange verify limiter event channelId channelInfo channelInfo
  | gone (channelInfo : Option ChannelInfo)
      (isRemoval : event = .removeChannelInfo channelId ∨ event = .restart) :
      ChannelChange verify limiter event channelId channelInfo none
  | added (prepaidDownloadSize : Nat) (driveKey : Key) (replicatorsList : List ReplicatorKey)
      (clients : List ClientKey) (willBeSyncronized : Bool)
      (isAddition : event = .addChannelInfo channelId prepaidDownloadSize driveKey replicatorsList
        clients willBeSyncronized) :
      ChannelChange verify limiter event channelId none (some
        { DownloadChannelInfo.addChannelInfo limiter.publicKey prepaidDownloadSize driveKey
            replicatorsList clients willBeSyncronized
            ((limiter.dnChannelMapBackup[channelId]?).map (·.toDownloadChannelInfo)) with
          clientReceiptMap := ∅ })
  | received (channelInfo : ChannelInfo) (msg : RcptPacket)
      (isMessage : limiter.receivedMessage verify event = some msg)
      (isChannel : msg.channelId = channelId) :
      ChannelChange verify limiter event channelId (some channelInfo)
        (some (channelInfo.receive msg))
  | lookedUp (channelInfo : ChannelInfo) (info : ReplicatorUploadRequestInfo) (peerKey : ClientKey)
      (found : channelInfo.replicatorUploadRequestMap[limiter.publicKey]? = some info)
      (isCheck : event = .checkDownloadLimit peerKey channelId) :
      ChannelChange verify limiter event channelId (some channelInfo)
        (some (channelInfo.lookUp limiter.publicKey info peerKey))
  | increased (channelInfo : ChannelInfo) (prepaidDownloadSize : Nat)
      (isIncrease : event = .increaseChannelSize channelId prepaidDownloadSize) :
      ChannelChange verify limiter event channelId (some channelInfo)
        (some (channelInfo.increase prepaidDownloadSize))
  | sent (channelInfo : ChannelInfo) (receiverPublicKey : ClientKey) (sentSize pieceSize : Nat)
      (found : channelInfo.sentClientMap[receiverPublicKey]? = some sentSize)
      (isPiece : event = .pieceSent channelId receiverPublicKey pieceSize) :
      ChannelChange verify limiter event channelId (some channelInfo)
        (some (channelInfo.countPiece receiverPublicKey sentSize pieceSize))

/-! ## Stored receipts under events -/

namespace ChannelInfo

variable (channelInfo : ChannelInfo)

structure SameReceipts (before after : ChannelInfo) : Prop where
  clientReceiptMap : after.clientReceiptMap = before.clientReceiptMap
  maxReceiptSize : ∀ replicatorKey clientKey,
    after.maxReceiptSize replicatorKey clientKey = before.maxReceiptSize replicatorKey clientKey

theorem sameReceipts_lookUp {publicKey : ReplicatorKey} {info : ReplicatorUploadRequestInfo}
    (found : channelInfo.replicatorUploadRequestMap[publicKey]? = some info) (peerKey : ClientKey) :
    SameReceipts channelInfo (channelInfo.lookUp publicKey info peerKey) := by
  refine ⟨rfl, ?_⟩
  intro replicatorKey clientKey
  unfold DownloadChannelInfo.maxReceiptSize lookUp
  rw [DownloadChannelInfo.uploadRequestInfo_set]
  split
  · rename_i isOwn
    have own : channelInfo.uploadRequestInfo replicatorKey = info := by
      rw [isOwn, DownloadChannelInfo.uploadRequestInfo, found, Option.getD_some]
    rw [own, ReplicatorUploadRequestInfo.maxReceiptSize_eq,
      ReplicatorUploadRequestInfo.cell_withClient_eq, ReplicatorUploadRequestInfo.maxReceiptSize_eq]
  · rfl

theorem maxReceiptSize_receive (msg : RcptPacket) (replicatorKey : ReplicatorKey)
    (clientKey : ClientKey) :
    (channelInfo.receive msg).maxReceiptSize replicatorKey clientKey =
      if replicatorKey = msg.replicatorKey ∧ clientKey = msg.clientKey then
        max (channelInfo.maxReceiptSize replicatorKey clientKey) msg.downloadedSize
      else channelInfo.maxReceiptSize replicatorKey clientKey :=
  channelInfo.acceptUploadSize_maxReceiptSize replicatorKey clientKey msg.receipt

end ChannelInfo

/-- A channel there is after an event has the receipts it had, or a new one, or is
    a new channel. -/
theorem ChannelChange.receipts {verify : Verify} {limiter : DownloadLimiter} {event : LimiterEvent}
    {channelId : ChannelId} {before : Option ChannelInfo} {after : ChannelInfo}
    (change : ChannelChange verify limiter event channelId before (some after)) :
    (∃ channelInfo, before = some channelInfo ∧ channelInfo.SameReceipts after ∧
      ∀ msg, limiter.receivedMessage verify event = some msg → msg.channelId ≠ channelId) ∨
    (∃ channelInfo msg, before = some channelInfo ∧ after = channelInfo.receive msg ∧
      limiter.receivedMessage verify event = some msg ∧ msg.channelId = channelId) ∨
    (before = none ∧ after.clientReceiptMap = ∅ ∧
      (limiter.dnChannelMapBackup[channelId]? = none →
        ∀ replicatorKey clientKey, after.maxReceiptSize replicatorKey clientKey = 0)) := by
  have noMessage : limiter.message event = none →
      ∀ msg, limiter.receivedMessage verify event = some msg → msg.channelId ≠ channelId := by
    intro isNone msg received
    simp [DownloadLimiter.receivedMessage, isNone] at received
  cases change with
  | same _ notReceived => exact .inl ⟨after, rfl, ⟨rfl, fun _ _ => rfl⟩, notReceived⟩
  | added prepaidDownloadSize driveKey replicatorsList clients willBeSyncronized isAddition =>
      refine .inr (.inr ⟨rfl, rfl, ?_⟩)
      intro noBackup replicatorKey clientKey
      rw [noBackup]
      have fresh := DownloadChannelInfo.addChannelInfo_totals limiter.publicKey prepaidDownloadSize
        driveKey replicatorsList clients willBeSyncronized
      have bound := (DownloadChannelInfo.addChannelInfo limiter.publicKey prepaidDownloadSize
        driveKey replicatorsList clients willBeSyncronized none).maxReceiptSize_le_maxTotal
          replicatorKey clientKey
      rw [fresh] at bound
      exact Nat.le_zero.mp bound
  | received channelInfo msg isMessage isChannel =>
      exact .inr (.inl ⟨channelInfo, msg, rfl, rfl, isMessage, isChannel⟩)
  | lookedUp channelInfo info peerKey found isCheck =>
      subst isCheck
      exact .inl ⟨channelInfo, rfl, channelInfo.sameReceipts_lookUp found peerKey, noMessage rfl⟩
  | increased channelInfo prepaidDownloadSize isIncrease =>
      subst isIncrease
      exact .inl ⟨channelInfo, rfl, ⟨rfl, fun _ _ => rfl⟩, noMessage rfl⟩
  | sent channelInfo receiverPublicKey sentSize pieceSize found isPiece =>
      subst isPiece
      exact .inl ⟨channelInfo, rfl, ⟨rfl, fun _ _ => rfl⟩, noMessage rfl⟩

namespace DownloadLimiter

variable (verify : Verify) (limiter : DownloadLimiter)

/-- The limiter after a receipt that passed its checks. -/
def store (msg : RcptPacket) (channelInfo : ChannelInfo) : DownloadLimiter :=
  { limiter with
    dnChannelMap := limiter.dnChannelMap.insert msg.channelId (channelInfo.receive msg) }

/-- A receipt is stored and maybe forwarded if it passes the checks, and ignored if not. -/
theorem acceptReceiptFromAnotherReplicator_cases (msg : RcptPacket) (random : List Nat) :
    (limiter.verifies verify msg = false ∧
      (limiter.acceptReceiptFromAnotherReplicator verify msg random).limiter = limiter ∧
      (limiter.acceptReceiptFromAnotherReplicator verify msg random).shouldBeForwared = false ∧
      (limiter.acceptReceiptFromAnotherReplicator verify msg random).sent = []) ∨
    (limiter.verifies verify msg = true ∧
      ∃ channelInfo, limiter.dnChannelMap[msg.channelId]? = some channelInfo ∧
        (limiter.acceptReceiptFromAnotherReplicator verify msg random).limiter =
          limiter.store msg channelInfo ∧
        (limiter.acceptReceiptFromAnotherReplicator verify msg random).shouldBeForwared =
          (saveReceipt msg channelInfo.clientReceiptMap).2 ∧
        (limiter.acceptReceiptFromAnotherReplicator verify msg random).sent =
          if (saveReceipt msg channelInfo.clientReceiptMap).2 then
            (limiter.store msg channelInfo).forwardReceipt msg random (channelInfo.receive msg)
          else []) := by
  unfold acceptReceiptFromAnotherReplicator acceptReceiptImpl
  by_cases stopped : (limiter.isDestructing || limiter.isEnding) = true
  · rw [if_pos stopped]
    refine .inl ⟨?_, rfl, rfl, rfl⟩
    cases destructing : limiter.isDestructing <;> simp_all [verifies]
  · obtain ⟨running, open_⟩ : limiter.isDestructing = false ∧ limiter.isEnding = false := by
      simpa using stopped
    rw [if_neg stopped, if_neg (by simp [running])]
    cases found : limiter.dnChannelMap[msg.channelId]? with
    | none => exact .inl ⟨by simp [verifies, found], rfl, rfl, rfl⟩
    | some channelInfo =>
        by_cases client : channelInfo.sentClientMap.contains msg.clientKey = true
        · by_cases signed : verify msg.clientKey msg.signedBytes msg.signature = true
          · refine .inr ⟨by simp [verifies, running, open_, found, client, signed], channelInfo, rfl,
              ?_⟩
            simp only
            rw [if_neg (by simp [client]), if_neg (by simp [signed])]
            exact ⟨rfl, rfl, rfl⟩
          · refine .inl ⟨by simp [verifies, signed], ?_⟩
            simp only
            rw [if_neg (by simp [client]), if_pos (by simp [signed])]
            exact ⟨rfl, rfl, rfl⟩
        · refine .inl ⟨by simp [verifies, found, client], ?_⟩
          simp only
          rw [if_pos (by simp [client])]
          exact ⟨rfl, rfl, rfl⟩

/-- An event with a message hands it to `acceptReceiptFromAnotherReplicator` or to
    its twin for own clients. -/
theorem handle_message {event : LimiterEvent} {msg : RcptPacket}
    (isMessage : limiter.message event = some msg) :
    ∃ random, limiter.handle verify event =
      limiter.acceptReceiptFromAnotherReplicator verify msg random := by
  cases event with
  | acceptReceipt downloadChannelId clientPublicKey downloadedSize signature random =>
      obtain rfl := Option.some.inj isMessage
      exact ⟨random, rfl⟩
  | rcpt packet random =>
      obtain ⟨valid, rfl⟩ : packet.isValidSize = true ∧ packet = msg := by
        simpa [message] using isMessage
      refine ⟨random, ?_⟩
      rw [handle, onRcpt, if_neg (by simp [valid])]
  | _ => simp [message] at isMessage

variable {verify} in
theorem receivedMessage_eq_some {event : LimiterEvent} {msg : RcptPacket} :
    limiter.receivedMessage verify event = some msg ↔
      limiter.message event = some msg ∧ limiter.verifies verify msg = true := by
  unfold receivedMessage
  exact Option.filter_eq_some_iff

theorem isValidSize_of_message {event : LimiterEvent} {msg : RcptPacket}
    (isMessage : limiter.message event = some msg) : msg.isValidSize = true := by
  cases event with
  | acceptReceipt downloadChannelId clientPublicKey downloadedSize signature random =>
      obtain rfl := Option.some.inj isMessage
      exact RcptPacket.isValidSize_ofFields _ _ _ _ _
  | rcpt packet random =>
      obtain ⟨valid, rfl⟩ : packet.isValidSize = true ∧ packet = msg := by
        simpa [message] using isMessage
      exact valid
  | _ => simp [message] at isMessage

/-- A check looks up the client in the own receipts, if there are any. -/
theorem checkDownloadLimit_cases (peerKey : ClientKey) (channelId : ChannelId) :
    (limiter.checkDownloadLimit peerKey channelId).1 = limiter ∨
    ∃ channelInfo info, limiter.dnChannelMap[channelId]? = some channelInfo ∧
      channelInfo.replicatorUploadRequestMap[limiter.publicKey]? = some info ∧
      (limiter.checkDownloadLimit peerKey channelId).1 = { limiter with
        dnChannelMap := limiter.dnChannelMap.insert channelId
          (channelInfo.lookUp limiter.publicKey info peerKey) } := by
  unfold checkDownloadLimit
  split
  · exact .inl rfl
  · cases found : limiter.dnChannelMap[channelId]? with
    | none => exact .inl rfl
    | some channelInfo =>
        simp only
        split
        · exact .inl rfl
        · cases known : channelInfo.replicatorUploadRequestMap[limiter.publicKey]? with
          | none =>
              left
              simp only
              split <;> rfl
          | some info =>
              right
              refine ⟨channelInfo, info, rfl, known, ?_⟩
              simp only
              split <;> rfl

/-- A check that succeeds has compared what was sent with the last accepted receipt. -/
theorem sentSize_of_checkDownloadLimit {peerKey : ClientKey} {channelId : ChannelId}
    (passed : (limiter.checkDownloadLimit peerKey channelId).2.1 = true) :
    ∃ channelInfo, limiter.dnChannelMap[channelId]? = some channelInfo ∧
      (channelInfo.sentClientMap[peerKey]?).getD 0 ≤
        channelInfo.lastAcceptedReceiptSize limiter.publicKey peerKey + limiter.receiptLimit := by
  unfold checkDownloadLimit at passed
  split at passed
  · simp at passed
  · cases found : limiter.dnChannelMap[channelId]? with
    | none => simp [found] at passed
    | some channelInfo =>
        refine ⟨channelInfo, rfl, ?_⟩
        simp only [found] at passed
        split at passed
        · simp at passed
        · have wraps : ∀ n, u64 n ≤ n := fun n => Nat.mod_le n _
          cases known : channelInfo.replicatorUploadRequestMap[limiter.publicKey]? with
          | none =>
              simp only [known] at passed
              split at passed
              · simp at passed
              · have limit := wraps (0 + limiter.receiptLimit)
                omega
          | some info =>
              simp only [known] at passed
              split at passed
              · simp at passed
              · have limit := wraps ((info.cell peerKey).acceptedSize + limiter.receiptLimit)
                simp only [DownloadChannelInfo.lastAcceptedReceiptSize,
                  DownloadChannelInfo.uploadRequestInfo, known, Option.getD_some]
                omega

private theorem channelChange_receipt (event : LimiterEvent) (channelId : ChannelId)
    (isReceipt : limiter.message event = none → (limiter.handle verify event).limiter = limiter) :
    ChannelChange verify limiter event channelId limiter.dnChannelMap[channelId]?
      (limiter.handle verify event).limiter.dnChannelMap[channelId]? := by
  cases isMessage : limiter.message event with
  | none =>
      rw [isReceipt isMessage]
      apply ChannelChange.same
      intro msg received
      simp [receivedMessage, isMessage] at received
  | some msg =>
      obtain ⟨random, handled⟩ := limiter.handle_message verify isMessage
      rw [handled]
      rcases limiter.acceptReceiptFromAnotherReplicator_cases verify msg random with
        ⟨refused, unchanged, -⟩ | ⟨verified, channelInfo, found, stored, -⟩
      · rw [unchanged]
        apply ChannelChange.same
        intro other received
        obtain ⟨same, accepted⟩ := limiter.receivedMessage_eq_some.mp received
        obtain rfl : msg = other := Option.some.inj (isMessage.symm.trans same)
        simp [refused] at accepted
      · have received : limiter.receivedMessage verify event = some msg :=
          limiter.receivedMessage_eq_some.mpr ⟨isMessage, verified⟩
        rw [stored, store]
        simp only [Std.TreeMap.getElem?_insert_eq]
        by_cases isChannel : channelId = msg.channelId
        · subst isChannel
          rw [if_pos rfl, found]
          exact .received channelInfo msg received rfl
        · rw [if_neg isChannel]
          apply ChannelChange.same
          intro other isOther
          obtain rfl : msg = other := Option.some.inj (received.symm.trans isOther)
          exact fun equal => isChannel equal.symm

theorem channelChange (event : LimiterEvent) (channelId : ChannelId) :
    ChannelChange verify limiter event channelId limiter.dnChannelMap[channelId]?
      (limiter.handle verify event).limiter.dnChannelMap[channelId]? := by
  have noMessage : limiter.message event = none →
      ∀ msg, limiter.receivedMessage verify event = some msg → msg.channelId ≠ channelId := by
    intro isNone msg received
    simp [receivedMessage, isNone] at received
  cases event with
  | acceptReceipt downloadChannelId clientPublicKey downloadedSize signature random =>
      apply channelChange_receipt
      intro isNone
      simp [message] at isNone
  | rcpt msg random =>
      apply channelChange_receipt
      intro isNone
      have invalid : msg.isValidSize = false := by simpa [message] using isNone
      rw [handle, onRcpt, if_pos (by simp [invalid])]
  | addChannelInfo added prepaidDownloadSize driveKey replicatorsList clients willBeSyncronized =>
      simp only [handle, addChannelInfo]
      split
      · exact .same _ (noMessage rfl)
      · split
        · exact .same _ (noMessage rfl)
        · rename_i absent
          simp only [Std.TreeMap.getElem?_insert_eq]
          by_cases isChannel : channelId = added
          · subst isChannel
            have missing : limiter.dnChannelMap[channelId]? = none :=
              Std.TreeMap.getElem?_eq_none (by simpa using absent)
            rw [if_pos rfl, missing]
            exact .added prepaidDownloadSize driveKey replicatorsList clients willBeSyncronized rfl
          · rw [if_neg isChannel]
            exact .same _ (noMessage rfl)
  | increaseChannelSize increased prepaidDownloadSize =>
      simp only [handle, increaseChannelSize]
      split
      · exact .same _ (noMessage rfl)
      · cases found : limiter.dnChannelMap[increased]? with
        | none => exact .same _ (noMessage rfl)
        | some channelInfo =>
            simp only [Std.TreeMap.getElem?_insert_eq]
            by_cases isChannel : channelId = increased
            · subst isChannel
              rw [if_pos rfl, found]
              exact .increased channelInfo prepaidDownloadSize rfl
            · rw [if_neg isChannel]
              exact .same _ (noMessage rfl)
  | removeChannelInfo removed =>
      simp only [handle, removeChannelInfo]
      split
      · exact .same _ (noMessage rfl)
      · simp only [Std.TreeMap.getElem?_erase_eq]
        by_cases isChannel : channelId = removed
        · subst isChannel
          rw [if_pos rfl]
          exact .gone _ (.inl rfl)
        · rw [if_neg isChannel]
          exact .same _ (noMessage rfl)
  | checkDownloadLimit peerKey checked =>
      rcases limiter.checkDownloadLimit_cases peerKey checked with
        same | ⟨channelInfo, info, found, known, lookedUp⟩
      · rw [handle, same]
        exact .same _ (noMessage rfl)
      · rw [handle, lookedUp]
        simp only [Std.TreeMap.getElem?_insert_eq]
        by_cases isChannel : channelId = checked
        · subst isChannel
          rw [if_pos rfl, found]
          exact .lookedUp channelInfo info peerKey known rfl
        · rw [if_neg isChannel]
          exact .same _ (noMessage rfl)
  | pieceSent txHash receiverPublicKey pieceSize =>
      simp only [handle, onPieceSent]
      split
      · exact .same _ (noMessage rfl)
      · cases found : limiter.dnChannelMap[txHash]? with
        | none => exact .same _ (noMessage rfl)
        | some channelInfo =>
            simp only
            cases known : channelInfo.sentClientMap[receiverPublicKey]? with
            | none => exact .same _ (noMessage rfl)
            | some sentSize =>
                simp only [Std.TreeMap.getElem?_insert_eq]
                by_cases isChannel : channelId = txHash
                · subst isChannel
                  rw [if_pos rfl, found]
                  exact .sent channelInfo receiverPublicKey sentSize pieceSize known rfl
                · rw [if_neg isChannel]
                  exact .same _ (noMessage rfl)
  | restart =>
      have nothing : (limiter.handle verify .restart).limiter.dnChannelMap[channelId]? = none := rfl
      rw [nothing]
      exact .gone _ (.inr rfl)
  | setReceiptLimit | setDrive | sessionEnds | destruct => exact .same _ (noMessage rfl)

/-- The own key stays, and no channel is added to the backup. -/
structure Keeps (before after : DownloadLimiter) : Prop where
  publicKey : after.publicKey = before.publicKey
  backup : ∀ (channelId : ChannelId) (channelInfo : ChannelInfo),
    after.dnChannelMapBackup[channelId]? = some channelInfo →
    before.dnChannelMapBackup[channelId]? = some channelInfo

theorem Keeps.refl : Keeps limiter limiter := ⟨rfl, fun _ _ found => found⟩

theorem Keeps.of_channels (dnChannelMap : Std.TreeMap ChannelId ChannelInfo) :
    Keeps limiter { limiter with dnChannelMap } :=
  ⟨rfl, fun _ _ found => found⟩

omit limiter in
theorem Keeps.backup_none {before after : DownloadLimiter} (keeps : Keeps before after)
    {channelId : ChannelId} (missing : before.dnChannelMapBackup[channelId]? = none) :
    after.dnChannelMapBackup[channelId]? = none := by
  cases saved : after.dnChannelMapBackup[channelId]? with
  | none => rfl
  | some channelInfo =>
      have found := keeps.backup channelId channelInfo saved
      rw [missing] at found
      simp at found

theorem backup_restart {channelId : ChannelId} {loaded : ChannelInfo}
    (saved : limiter.restart.dnChannelMapBackup[channelId]? = some loaded) :
    ∃ channelInfo, limiter.dnChannelMap[channelId]? = some channelInfo ∧
      loaded = .load channelInfo.save := by
  simp only [restart, loadDownloadChannelMap, saveDownloadChannelMap, Std.TreeMap.getElem?_map,
    Option.map_map, Option.map_eq_some_iff] at saved
  obtain ⟨channelInfo, found, rfl⟩ := saved
  exact ⟨channelInfo, found, rfl⟩

theorem keeps_handle {event : LimiterEvent} (noRestart : event ≠ .restart) :
    Keeps limiter (limiter.handle verify event).limiter := by
  have received : ∀ msg random, Keeps limiter
      (limiter.acceptReceiptFromAnotherReplicator verify msg random).limiter := by
    intro msg random
    rcases limiter.acceptReceiptFromAnotherReplicator_cases verify msg random with
      ⟨-, unchanged, -⟩ | ⟨-, channelInfo, -, stored, -⟩
    · rw [unchanged]
      exact .refl limiter
    · rw [stored]
      exact .of_channels limiter _
  cases event with
  | acceptReceipt downloadChannelId clientPublicKey downloadedSize signature random =>
      exact received _ random
  | rcpt msg random =>
      simp only [handle, onRcpt]
      split
      · exact .refl limiter
      · exact received msg random
  | checkDownloadLimit peerKey channelId =>
      rcases limiter.checkDownloadLimit_cases peerKey channelId with
        same | ⟨channelInfo, info, -, -, lookedUp⟩
      · rw [handle, same]
        exact .refl limiter
      · rw [handle, lookedUp]
        exact .of_channels limiter _
  | addChannelInfo added =>
      simp only [handle, addChannelInfo]
      split
      · exact .refl limiter
      · split
        · exact .refl limiter
        · refine ⟨rfl, ?_⟩
          intro channelId channelInfo found
          simp only [Std.TreeMap.getElem?_erase_eq] at found
          split at found
          · simp at found
          · exact found
  | increaseChannelSize =>
      simp only [handle, increaseChannelSize]
      split
      · exact .refl limiter
      · split
        · exact .refl limiter
        · exact .of_channels limiter _
  | removeChannelInfo =>
      simp only [handle, removeChannelInfo]
      split
      · exact .refl limiter
      · exact .of_channels limiter _
  | pieceSent =>
      simp only [handle, onPieceSent]
      split
      · exact .refl limiter
      · split
        · exact .refl limiter
        · split
          · exact .refl limiter
          · exact .of_channels limiter _
  | restart => exact absurd rfl noRestart
  | setReceiptLimit | setDrive | sessionEnds | destruct => exact ⟨rfl, fun _ _ found => found⟩

end DownloadLimiter

end SiriusDrive
