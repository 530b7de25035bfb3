import SiriusDrive.ClientSession
import SiriusDrive.DownloadLimiter.SentSize

/-! # What a client pays for

A client and one replicator of its channels, as a system. The sessions of the client come and
go, the replicator restarts, receipts are lost, repeated, forwarded and shown to the client
again by anybody; other replicators do whatever they like. Only the signatures of the client
cannot be made by others. Then nobody holds a receipt over more than the client has requested.
-/

namespace SiriusDrive

/-- Bytes of a channel, requested from a replicator or signed for. -/
structure ChannelBytes where
  channelId : ChannelId
  replicatorKey : ReplicatorKey
  size : Nat
  deriving Repr, DecidableEq

/-- What happens to a client. The size of a receipt comes from the torrent library. -/
inductive ClientEvent where
  | addDownloadChannel (downloadChannelId : ChannelId)
  | setDownloadChannelReplicators (downloadChannelId : ChannelId) (replicators : List Key)
  | requestedSize (transactionHash : ChannelId) (peerPublicKey : ReplicatorKey)
  | receivedSize (transactionHash : ChannelId) (peerPublicKey : ReplicatorKey)
  | pieceRequestWrite (transactionHash : ChannelId) (senderPublicKey : ReplicatorKey)
      (pieceSize : Nat)
  | pieceReceived (transactionHash : ChannelId) (senderPublicKey : ReplicatorKey) (pieceSize : Nat)
  | lastMyReceipt (msg : RcptPacket) (channelId : ChannelId)
  | signReceipt (downloadChannelId : ChannelId) (replicatorPublicKey : ReplicatorKey)
      (downloadedSize : Nat)
  | restart
  deriving Repr, DecidableEq

def ClientSession.handle (verify : Verify) (session : ClientSession) : ClientEvent → ClientSession
  | .addDownloadChannel downloadChannelId => session.addDownloadChannel downloadChannelId
  | .setDownloadChannelReplicators downloadChannelId replicators =>
      session.setDownloadChannelReplicators downloadChannelId replicators
  | .requestedSize transactionHash peerPublicKey =>
      (session.requestedSize transactionHash peerPublicKey).1
  | .receivedSize transactionHash peerPublicKey =>
      (session.receivedSize transactionHash peerPublicKey).1
  | .pieceRequestWrite transactionHash senderPublicKey pieceSize =>
      session.onPieceRequestWrite transactionHash senderPublicKey pieceSize
  | .pieceReceived transactionHash senderPublicKey pieceSize =>
      session.onPieceReceived transactionHash senderPublicKey pieceSize
  | .lastMyReceipt msg channelId => session.onLastMyReceipt verify msg channelId
  | .signReceipt .. => session
  | .restart => { publicKey := session.publicKey }

def ClientEvent.requests : ClientEvent → List ChannelBytes
  | .pieceRequestWrite transactionHash senderPublicKey pieceSize =>
      [⟨transactionHash, senderPublicKey, pieceSize⟩]
  | _ => []

def ClientEvent.signs : ClientEvent → List ChannelBytes
  | .signReceipt downloadChannelId replicatorPublicKey downloadedSize =>
      [⟨downloadChannelId, replicatorPublicKey, downloadedSize⟩]
  | _ => []

/-- A client and a replicator, with all that the sessions of the client have requested and
    signed for. -/
structure Payments where
  session : ClientSession
  replicator : SendingLimiter
  requests : List ChannelBytes := []
  signed : List ChannelBytes := []

inductive PaymentEvent where
  | client (event : ClientEvent)
  | replicator (event : LimiterEvent)
  deriving Repr, DecidableEq

def payments (verify : Verify) (pieceLimit : Nat) : Transition Payments PaymentEvent where
  step state event :=
    match event with
    | .client event =>
        some
          { state with
            session := state.session.handle verify event
            requests := state.requests ++ event.requests
            signed := state.signed ++ event.signs }
    | .replicator event =>
        ((sendingSystem verify pieceLimit).step state.replicator event).map
          ({ state with replicator := · })

namespace Payments

variable (verify : Verify) (state : Payments)

/-- All that was requested from a replicator over a channel, in any session. -/
def requestedTotal (channelId : ChannelId) (replicatorKey : ReplicatorKey) : Nat :=
  ((state.requests.filter fun piece =>
    piece.channelId == channelId && piece.replicatorKey == replicatorKey).map (·.size)).sum

/-- The packet an event brings to somebody who checks its signature. -/
def packet : PaymentEvent → Option RcptPacket
  | .client (.lastMyReceipt msg _) => some msg
  | .client _ => none
  | .replicator event => state.replicator.limiter.message event

/-- A signature of the client that is shown to anybody is over a receipt it has signed. -/
def Unforged (event : PaymentEvent) : Prop :=
  ∀ msg ∈ state.packet event,
    verify state.session.publicKey msg.signedBytes msg.signature = true →
    ∃ receipt ∈ state.signed, msg.signedBytes =
      state.session.signedReceipt receipt.channelId receipt.replicatorKey receipt.size

/-- A receipt is signed for what `requestedSize` answers. -/
def SignsRequested (event : PaymentEvent) : Prop :=
  match event with
  | .client (.signReceipt downloadChannelId replicatorPublicKey downloadedSize) =>
      downloadedSize = (state.session.requestedSize downloadChannelId replicatorPublicKey).2
  | _ => True

instance (event : PaymentEvent) : Decidable (state.Unforged verify event) := by
  unfold Unforged
  infer_instance

instance (event : PaymentEvent) : Decidable (state.SignsRequested event) := by
  unfold SignsRequested
  split <;> infer_instance

/-- What holds of a client and a replicator at any time. -/
structure Stands (clientKey : ClientKey) (publicKey : ReplicatorKey) (state : Payments) : Prop where
  isClient : state.session.publicKey = clientKey
  isReplicator : state.replicator.limiter.publicKey = publicKey
  signed : ∀ receipt ∈ state.signed,
    receipt.size ≤ state.requestedTotal receipt.channelId receipt.replicatorKey
  counted : ∀ channelId replicatorKey, state.session.requested channelId replicatorKey ≤
    state.requestedTotal channelId replicatorKey
  held : ∀ channelId channelInfo, state.replicator.limiter.Holds channelId channelInfo →
    ∀ replicatorKey, channelInfo.maxReceiptSize replicatorKey clientKey ≤
      state.requestedTotal channelId replicatorKey

end Payments

section Bytes

open FixedBytes

/-- A packet over the bytes of a signed receipt says what the receipt says. -/
theorem RcptPacket.fields_of_signedBytes {msg : RcptPacket} {session : ClientSession}
    {receipt : ChannelBytes}
    (same : msg.signedBytes =
      session.signedReceipt receipt.channelId receipt.replicatorKey receipt.size) :
    msg.channelId = receipt.channelId ∧ msg.clientKey = session.publicKey ∧
      msg.replicatorKey = receipt.replicatorKey ∧ msg.downloadedSize ≤ receipt.size := by
  have injective : ∀ {left right : BitVec (8 * 32)}, arrayBytes 32 left = arrayBytes 32 right →
      left = right := by
    intro left right equal
    simpa using congrArg (arrayOfBytes 32) equal
  unfold RcptPacket.signedBytes ClientSession.signedReceipt at same
  obtain ⟨channel, rest⟩ := List.append_inj same (by simp)
  obtain ⟨client, rest⟩ := List.append_inj rest (by simp)
  obtain ⟨replicator, size⟩ := List.append_inj rest (by simp)
  refine ⟨injective channel, injective client, injective replicator, ?_⟩
  have fits : msg.downloadedSize < 256 ^ 8 := by
    unfold RcptPacket.downloadedSize
    split
    · decide
    · have small := decode_lt (field msg.bytes 96 8)
      have length : (field msg.bytes 96 8).length ≤ 8 := by
        simp [field]
      exact small.trans_le (Nat.pow_le_pow_right (by decide) length)
  by_cases small : receipt.size < 256 ^ 8
  · have back := congrArg decode size
    rw [decode_encode fits, decode_encode small] at back
    exact back.le
  · omega

end Bytes

namespace Payments

variable {verify : Verify} {receiptLimit pieceLimit : Nat} {state after : Payments}
  {clientKey : ClientKey} {publicKey : ReplicatorKey}

theorem requestedTotal_append (more : List ChannelBytes) (channelId : ChannelId)
    (replicatorKey : ReplicatorKey) :
    requestedTotal { state with requests := state.requests ++ more } channelId replicatorKey =
      state.requestedTotal channelId replicatorKey +
        ((more.filter fun piece => piece.channelId == channelId &&
          piece.replicatorKey == replicatorKey).map (·.size)).sum := by
  simp [requestedTotal]

@[simp] theorem publicKey_handle (event : ClientEvent) :
    (state.session.handle verify event).publicKey = state.session.publicKey := by
  cases event with
  | addDownloadChannel downloadChannelId =>
      simp only [ClientSession.handle, ClientSession.addDownloadChannel]
      split <;> rfl
  | setDownloadChannelReplicators downloadChannelId replicators =>
      simp only [ClientSession.handle, ClientSession.setDownloadChannelReplicators]
      split <;> rfl
  | pieceRequestWrite transactionHash senderPublicKey pieceSize =>
      simp only [ClientSession.handle, ClientSession.onPieceRequestWrite]
      split <;> rfl
  | pieceReceived transactionHash senderPublicKey pieceSize =>
      simp only [ClientSession.handle, ClientSession.onPieceReceived]
      split <;> rfl
  | lastMyReceipt msg channelId =>
      simp only [ClientSession.handle, ClientSession.onLastMyReceipt]
      split <;> rfl
  | requestedSize | receivedSize | signReceipt | restart => rfl

/-- A packet of the client that is shown to anybody says no more than was requested. -/
theorem Stands.size_le (stands : state.Stands clientKey publicKey) {event : PaymentEvent}
    {msg : RcptPacket} (unforged : state.Unforged verify event)
    (isPacket : state.packet event = some msg)
    (verified : verify clientKey msg.signedBytes msg.signature = true) :
    msg.downloadedSize ≤ state.requestedTotal msg.channelId msg.replicatorKey := by
  rw [← stands.isClient] at verified
  obtain ⟨receipt, isSigned, same⟩ := unforged msg isPacket verified
  obtain ⟨isChannel, -, isReplicator, size⟩ := RcptPacket.fields_of_signedBytes same
  rw [isChannel, isReplicator]
  exact size.trans (stands.signed receipt isSigned)

theorem Stands.counted_handle (stands : state.Stands clientKey publicKey) {event : ClientEvent}
    (unforged : state.Unforged verify (.client event)) (channelId : ChannelId)
    (replicatorKey : ReplicatorKey) :
    (state.session.handle verify event).requested channelId replicatorKey ≤
      requestedTotal { state with requests := state.requests ++ event.requests } channelId
        replicatorKey := by
  have before := stands.counted channelId replicatorKey
  rw [requestedTotal_append]
  cases event with
  | pieceRequestWrite transactionHash senderPublicKey pieceSize =>
      simp only [ClientSession.handle, ClientSession.requested_onPieceRequestWrite]
      split
      · rename_i isCounted
        obtain ⟨⟨-, rfl⟩, rfl⟩ := isCounted
        have sum : u64 (state.session.requested channelId replicatorKey + pieceSize) ≤
            state.session.requested channelId replicatorKey + pieceSize := Nat.mod_le _ _
        simp only [ClientEvent.requests, BEq.rfl, Bool.and_self, List.filter_cons_of_pos,
          List.filter_nil, List.map_cons, List.map_nil, List.sum_cons, List.sum_nil]
        omega
      · omega
  | lastMyReceipt msg receivedOn =>
      simp only [ClientSession.handle, ClientSession.requested_onLastMyReceipt]
      split
      · rename_i isMine
        obtain ⟨isMine, rfl, rfl⟩ := isMine
        have verified : verify clientKey msg.signedBytes msg.signature = true := by
          rw [ClientSession.isMyReceipt, stands.isClient] at isMine
          simp only [Bool.and_eq_true] at isMine
          exact isMine.2
        have size := stands.size_le unforged rfl verified
        omega
      · omega
  | restart =>
      simp [ClientSession.handle, ClientSession.requested, ClientSession.channel]
  | addDownloadChannel | setDownloadChannelReplicators | requestedSize | receivedSize
  | pieceReceived | signReceipt =>
      simp only [ClientSession.handle, ClientSession.requested_addDownloadChannel,
        ClientSession.requested_setDownloadChannelReplicators,
        ClientSession.requested_requestedSize, ClientSession.requested_receivedSize,
        ClientSession.requested_onPieceReceived]
      omega

theorem maxReceiptSize_load_save (channelInfo : ChannelInfo) (replicatorKey : ReplicatorKey)
    (client : ClientKey) :
    (ChannelInfo.load channelInfo.save).maxReceiptSize replicatorKey client =
      channelInfo.maxReceiptSize replicatorKey client := rfl

/-- A channel there is after an event of the replicator holds no more than was requested. -/
theorem Stands.held_of_found (stands : state.Stands clientKey publicKey) {event : LimiterEvent}
    (unforged : state.Unforged verify (.replicator event)) {channelId : ChannelId}
    {channelInfo : ChannelInfo}
    (found : (state.replicator.limiter.handle verify event).limiter.dnChannelMap[channelId]? =
      some channelInfo) (replicatorKey : ReplicatorKey) :
    channelInfo.maxReceiptSize replicatorKey clientKey ≤
      state.requestedTotal channelId replicatorKey := by
  have change := state.replicator.limiter.channelChange verify event channelId
  rw [found] at change
  generalize isBefore : state.replicator.limiter.dnChannelMap[channelId]? = before at change
  cases change with
  | same => exact stands.held channelId channelInfo (.inl isBefore) replicatorKey
  | added prepaidDownloadSize driveKey replicatorsList clients willBeSyncronized =>
      cases backup : state.replicator.limiter.dnChannelMapBackup[channelId]? with
      | none =>
          have fresh := DownloadChannelInfo.addChannelInfo_totals
            state.replicator.limiter.publicKey prepaidDownloadSize driveKey replicatorsList clients
            willBeSyncronized
          have bound := (DownloadChannelInfo.addChannelInfo state.replicator.limiter.publicKey
            prepaidDownloadSize driveKey replicatorsList clients willBeSyncronized
            none).maxReceiptSize_le_maxTotal replicatorKey clientKey
          simp only [Option.map_none]
          omega
      | some saved => exact stands.held channelId saved (.inr backup) replicatorKey
  | received before msg isMessage isChannel =>
      have held := stands.held channelId before (.inl isBefore) replicatorKey
      rw [ChannelInfo.maxReceiptSize_receive]
      split
      · rename_i isReceipt
        obtain ⟨rfl, rfl⟩ := isReceipt
        obtain ⟨isPacket, verifies⟩ :=
          state.replicator.limiter.receivedMessage_eq_some.mp isMessage
        have verified : verify msg.clientKey msg.signedBytes msg.signature = true := by
          rw [DownloadLimiter.verifies] at verifies
          simp only [Bool.and_eq_true] at verifies
          exact verifies.2
        have size := stands.size_le unforged isPacket verified
        rw [isChannel] at size
        omega
      · exact held
  | lookedUp before info peerKey isInfo =>
      rw [(before.sameReceipts_lookUp isInfo peerKey).maxReceiptSize]
      exact stands.held channelId before (.inl isBefore) replicatorKey
  | increased before => exact stands.held channelId before (.inl isBefore) replicatorKey
  | sent before => exact stands.held channelId before (.inl isBefore) replicatorKey

/-- The channels of a replicator and their backups hold no more than was requested. -/
theorem Stands.held_handle (stands : state.Stands clientKey publicKey) {event : LimiterEvent}
    (unforged : state.Unforged verify (.replicator event)) {channelId : ChannelId}
    {channelInfo : ChannelInfo}
    (holds : (state.replicator.limiter.handle verify event).limiter.Holds channelId channelInfo)
    (replicatorKey : ReplicatorKey) :
    channelInfo.maxReceiptSize replicatorKey clientKey ≤
      state.requestedTotal channelId replicatorKey := by
  rcases holds with found | saved
  · exact stands.held_of_found unforged found replicatorKey
  · by_cases isRestart : event = .restart
    · subst isRestart
      obtain ⟨before, found, rfl⟩ := state.replicator.limiter.backup_restart saved
      rw [maxReceiptSize_load_save]
      exact stands.held channelId before (.inl found) replicatorKey
    · have keeps := state.replicator.limiter.keeps_handle verify isRestart
      exact stands.held channelId channelInfo (.inr (keeps.backup channelId channelInfo saved))
        replicatorKey

theorem publicKey_limiter (limiter : DownloadLimiter) (event : LimiterEvent) :
    (limiter.handle verify event).limiter.publicKey = limiter.publicKey := by
  by_cases isRestart : event = .restart
  · subst isRestart
    rfl
  · exact (limiter.keeps_handle verify isRestart).publicKey

theorem limiter_of_step {sending sent : SendingLimiter} {event : LimiterEvent}
    (step : (sendingSystem verify pieceLimit).step sending event = some sent) :
    sent.limiter = (sending.limiter.handle verify event).limiter := by
  cases event with
  | pieceSent txHash receiver pieceSize =>
      obtain ⟨-, isSent⟩ := Option.ite_none_right_eq_some.mp step
      obtain rfl := Option.some.inj isSent
      rfl
  | addChannelInfo | increaseChannelSize | removeChannelInfo | acceptReceipt | rcpt
  | checkDownloadLimit | setReceiptLimit | setDrive | sessionEnds | destruct | restart =>
      obtain rfl := Option.some.inj step
      rfl

theorem Stands.step {event : PaymentEvent} (stands : state.Stands clientKey publicKey)
    (unforged : state.Unforged verify event) (signsRequested : state.SignsRequested event)
    (step : (payments verify pieceLimit).step state event = some after) :
    after.Stands clientKey publicKey := by
  cases event with
  | client event =>
      obtain rfl := Option.some.inj step
      have grows : ∀ channelId replicatorKey, state.requestedTotal channelId replicatorKey ≤
          requestedTotal { state with requests := state.requests ++ event.requests } channelId
            replicatorKey := by
        intro channelId replicatorKey
        rw [requestedTotal_append]
        omega
      constructor
      · exact (publicKey_handle event).trans stands.isClient
      · exact stands.isReplicator
      · intro receipt isSigned
        refine le_trans ?_ (grows receipt.channelId receipt.replicatorKey)
        rcases List.mem_append.mp isSigned with before | isNew
        · exact stands.signed receipt before
        · cases event with
          | signReceipt downloadChannelId replicatorPublicKey downloadedSize =>
              obtain rfl := List.mem_singleton.mp isNew
              have size : downloadedSize =
                state.session.requested downloadChannelId replicatorPublicKey := signsRequested
              rw [size]
              exact stands.counted downloadChannelId replicatorPublicKey
          | addDownloadChannel | setDownloadChannelReplicators | requestedSize | receivedSize
          | pieceRequestWrite | pieceReceived | lastMyReceipt | restart =>
              simp [ClientEvent.signs] at isNew
      · exact stands.counted_handle unforged
      · intro channelId channelInfo holds replicatorKey
        exact (stands.held channelId channelInfo holds replicatorKey).trans
          (grows channelId replicatorKey)
  | replicator event =>
      obtain ⟨sent, sends, rfl⟩ := Option.map_eq_some_iff.mp step
      have isLimiter := limiter_of_step sends
      refine { stands with isReplicator := ?_, held := ?_ }
      · dsimp only
        rw [isLimiter, publicKey_limiter, stands.isReplicator]
      · intro channelId channelInfo holds replicatorKey
        dsimp only at holds
        rw [isLimiter] at holds
        exact stands.held_handle unforged holds replicatorKey

def start (clientKey : ClientKey) (publicKey : ReplicatorKey) (receiptLimit : Nat) : Payments where
  session := { publicKey := clientKey }
  replicator := { limiter := { publicKey, receiptLimit } }

theorem Stands.start : (start clientKey publicKey receiptLimit).Stands clientKey publicKey where
  isClient := rfl
  isReplicator := rfl
  signed := by simp [Payments.start]
  counted := by simp [Payments.start, ClientSession.requested, ClientSession.channel]
  held := by
    rintro channelId channelInfo (found | saved)
    · simp [Payments.start] at found
    · simp [Payments.start] at saved

theorem Stands.run {events : List PaymentEvent}
    (unforged : (payments verify pieceLimit).Meets (Unforged verify)
      (Payments.start clientKey publicKey receiptLimit) events)
    (signsRequested : (payments verify pieceLimit).Meets SignsRequested
      (Payments.start clientKey publicKey receiptLimit) events)
    (run : (payments verify pieceLimit).exec (Payments.start clientKey publicKey receiptLimit)
      events = some state) : state.Stands clientKey publicKey :=
  Transition.invariant
    (fun _ _ _ stands conditions step => stands.step conditions.1 conditions.2 step) .start
    (unforged.and signsRequested) run

/-- What the replicator sends stays within what is paid for and its margin. -/
theorem bounded_step {event : PaymentEvent}
    (bounded : state.replicator.Bounded receiptLimit pieceLimit)
    (constant : state.replicator.limiter.receiptLimit = receiptLimit)
    (step : (payments verify pieceLimit).step state event = some after) :
    after.replicator.Bounded receiptLimit pieceLimit := by
  cases event with
  | client event =>
      obtain rfl := Option.some.inj step
      exact bounded
  | replicator event =>
      obtain ⟨sent, sends, rfl⟩ := Option.map_eq_some_iff.mp step
      exact SendingLimiter.bounded_step bounded constant sends

theorem bounded_start :
    (start clientKey publicKey receiptLimit).replicator.Bounded receiptLimit pieceLimit where
  notSaved channelId known := by simp [start] at known
  within := by
    rintro channelId channelInfo (found | saved)
    · simp [start] at found
    · simp [start] at saved
  checked channelId client permitted := by simp [start] at permitted

/-- Whatever the replicators do with the receipts of a client, across restarts of both sides,
    no replicator holds a receipt of it over more than the client has requested from the
    replicator the receipt is for. -/
theorem receipts_within_requests {events : List PaymentEvent}
    (unforged : (payments verify pieceLimit).Meets (Unforged verify)
      (start clientKey publicKey receiptLimit) events)
    (signsRequested : (payments verify pieceLimit).Meets SignsRequested
      (start clientKey publicKey receiptLimit) events)
    (run : (payments verify pieceLimit).exec (start clientKey publicKey receiptLimit) events =
      some state)
    {channelId : ChannelId} {channelInfo : ChannelInfo}
    (found : state.replicator.limiter.dnChannelMap[channelId]? = some channelInfo)
    (replicatorKey : ReplicatorKey) :
    channelInfo.maxReceiptSize replicatorKey clientKey ≤
      state.requestedTotal channelId replicatorKey := by
  have stands := Stands.run unforged signsRequested run
  exact stands.held channelId channelInfo (.inl found) replicatorKey

/-- A client downloads two pieces, starts again, is shown its last receipt and goes on. -/
def samplePayments : List PaymentEvent :=
  [.client (.addDownloadChannel 3),
    .replicator (.addChannelInfo 3 4096 8 [1, 9] [5] false),
    .client (.pieceRequestWrite 3 9 1024),
    .client (.signReceipt 3 9 1024),
    .replicator (.acceptReceipt 3 5 1024 0 []),
    .replicator (.checkDownloadLimit 5 3),
    .replicator (.pieceSent 3 5 1024),
    .client .restart,
    .client (.lastMyReceipt (.ofFields 3 5 9 1024 0) 3),
    .client (.pieceRequestWrite 3 9 100),
    .client (.signReceipt 3 9 1124),
    .replicator (.acceptReceipt 3 5 1124 0 [])]

section Sample

def anySignature : Verify := fun _ _ _ => true

theorem samplePayments_unforged :
    (payments anySignature 1024).Meets (Unforged anySignature) (start 5 9 1024) samplePayments := by
  decide +kernel

theorem samplePayments_signsRequested :
    (payments anySignature 1024).Meets SignsRequested (start 5 9 1024) samplePayments := by
  decide +kernel

theorem samplePayments_channel : ∃ state, (payments anySignature 1024).exec (start 5 9 1024)
    samplePayments = some state ∧
      (state.replicator.limiter.dnChannelMap[(3 : ChannelId)]?).isSome = true := by
  have reaches : (payments anySignature 1024).Reaches (fun state =>
      (state.replicator.limiter.dnChannelMap[(3 : ChannelId)]?).isSome = true) (start 5 9 1024)
      samplePayments := by
    decide +kernel
  exact reaches

theorem receipts_within_requests_sample : ∃ state channelInfo,
    (payments anySignature 1024).exec (start 5 9 1024) samplePayments = some state ∧
      state.replicator.limiter.dnChannelMap[(3 : ChannelId)]? = some channelInfo ∧
      ∀ replicatorKey, channelInfo.maxReceiptSize replicatorKey 5 ≤
        state.requestedTotal 3 replicatorKey := by
  obtain ⟨state, run, known⟩ := samplePayments_channel
  obtain ⟨channelInfo, found⟩ := Option.isSome_iff_exists.mp known
  exact ⟨state, channelInfo, run, found,
    receipts_within_requests samplePayments_unforged samplePayments_signsRequested run found⟩

end Sample

end Payments

/-! ## Going on after a restart -/

section GoingOn

variable {verify : Verify} {session : ClientSession} {limiter : DownloadLimiter}
  {channelId : ChannelId} {msg : RcptPacket}

def ClientSession.requestPieces (session : ClientSession) (channelId : ChannelId)
    (replicatorKey : ReplicatorKey) (pieces : List Nat) : ClientSession :=
  pieces.foldl (·.onPieceRequestWrite channelId replicatorKey ·) session

theorem ClientSession.contains_onPieceRequestWrite (replicatorKey : ReplicatorKey) (pieceSize : Nat)
    (known : session.downloadChannelMap.contains channelId = true) :
    (session.onPieceRequestWrite channelId replicatorKey pieceSize).downloadChannelMap.contains
      channelId = true := by
  unfold ClientSession.onPieceRequestWrite
  split
  · exact known
  · simp [ClientSession.setChannel]

theorem ClientSession.requested_requestPieces (replicatorKey : ReplicatorKey) (pieces : List Nat)
    (known : session.downloadChannelMap.contains channelId = true)
    (fits : session.requested channelId replicatorKey + pieces.sum < 2 ^ 64) :
    (session.requestPieces channelId replicatorKey pieces).requested channelId replicatorKey =
      session.requested channelId replicatorKey + pieces.sum := by
  induction pieces generalizing session with
  | nil => rfl
  | cons pieceSize rest ih =>
      rw [List.sum_cons] at fits
      have counts : (session.onPieceRequestWrite channelId replicatorKey pieceSize).requested
          channelId replicatorKey = session.requested channelId replicatorKey + pieceSize := by
        rw [ClientSession.requested_onPieceRequestWrite, if_pos ⟨⟨known, rfl⟩, rfl⟩,
          u64_of_lt (by omega)]
      have next := ih (ClientSession.contains_onPieceRequestWrite replicatorKey pieceSize known)
        (by rw [counts]; omega)
      rw [counts] at next
      rw [List.sum_cons, ← Nat.add_assoc]
      exact next

@[simp] theorem ClientSession.publicKey_requestPieces (replicatorKey : ReplicatorKey)
    (pieces : List Nat) :
    (session.requestPieces channelId replicatorKey pieces).publicKey = session.publicKey := by
  induction pieces generalizing session with
  | nil => rfl
  | cons pieceSize rest ih =>
      refine ih.trans ?_
      dsimp only
      unfold ClientSession.onPieceRequestWrite
      split <;> rfl

@[simp] theorem ClientSession.publicKey_onLastMyReceipt :
    (session.onLastMyReceipt verify msg channelId).publicKey = session.publicKey := by
  unfold ClientSession.onLastMyReceipt
  split <;> rfl

/-- A session that has been shown its last receipt knows the channel and has counted at least
    the size of the receipt. -/
theorem ClientSession.onLastMyReceipt_spec
    (isMine : session.isMyReceipt verify msg channelId = true) :
    (session.onLastMyReceipt verify msg channelId).downloadChannelMap.contains channelId = true ∧
      (session.onLastMyReceipt verify msg channelId).requested channelId msg.replicatorKey =
        max (session.requested channelId msg.replicatorKey) msg.downloadedSize := by
  have isChannel : msg.channelId = channelId := by
    rw [ClientSession.isMyReceipt] at isMine
    simp only [Bool.and_eq_true, beq_iff_eq] at isMine
    exact isMine.1.2
  constructor
  · unfold ClientSession.onLastMyReceipt
    rw [if_pos isMine, isChannel]
    simp [ClientSession.setChannel]
  · rw [ClientSession.requested_onLastMyReceipt, if_pos ⟨isMine, isChannel.symm, rfl⟩]

/-- The receipt a replicator shows a client is the one it holds of it. -/
theorem DownloadLimiter.receiptAt_of_getLastClientReceipt {clientKey : ClientKey}
    (isLast : limiter.getLastClientReceipt channelId clientKey = some msg) :
    limiter.isDestructing = false ∧ ∃ channelInfo,
      limiter.dnChannelMap[channelId]? = some channelInfo ∧
      receiptAt channelInfo.clientReceiptMap clientKey limiter.publicKey = some msg := by
  unfold getLastClientReceipt at isLast
  simp only [Option.bind_eq_bind, Option.bind_eq_some_iff, Option.guard_eq_some',
    Bool.not_eq_true'] at isLast
  obtain ⟨_, running, channelInfo, found, receipts, client, own⟩ := isLast
  refine ⟨running, channelInfo, found, ?_⟩
  rw [receiptAt, client]
  exact own

/-- A packet made of the fields of a receipt carries the bytes the session signs. -/
theorem signedBytes_ofFields {replicatorKey : ReplicatorKey} {size : Nat} (fits : size < 2 ^ 64)
    (signature : Signature) :
    (RcptPacket.ofFields channelId session.publicKey replicatorKey size signature).signedBytes =
      session.signedReceipt channelId replicatorKey size := by
  have isSize := RcptPacket.downloadedSize_ofFields channelId session.publicKey replicatorKey size
    signature fits
  simp [RcptPacket.signedBytes, ClientSession.signedReceipt, isSize]

/-- A newer receipt of a client for the replicator itself is stored and forwarded. -/
theorem DownloadLimiter.acceptReceipt_of_newer {channelInfo : ChannelInfo} {size : Nat}
    {signature : Signature} (random : List Nat) (running : limiter.isDestructing = false)
    (notEnding : limiter.isEnding = false)
    (found : limiter.dnChannelMap[channelId]? = some channelInfo)
    (isClient : channelInfo.sentClientMap.contains session.publicKey = true)
    (fits : size < 2 ^ 64)
    (newer : storedSize channelInfo.clientReceiptMap session.publicKey limiter.publicKey < size)
    (signed : verify session.publicKey (session.signedReceipt channelId limiter.publicKey size)
      signature = true) :
    (limiter.acceptReceipt verify channelId session.publicKey size signature
        random).shouldBeForwared = true ∧
      (limiter.acceptReceipt verify channelId session.publicKey size signature
        random).limiter.getLastClientReceipt channelId session.publicKey =
          some (.ofFields channelId session.publicKey limiter.publicKey size signature) := by
  have fields : ∀ packet : RcptPacket, packet =
      .ofFields channelId session.publicKey limiter.publicKey size signature →
      packet.channelId = channelId ∧ packet.clientKey = session.publicKey ∧
        packet.replicatorKey = limiter.publicKey ∧ packet.downloadedSize = size ∧
        packet.signedBytes = session.signedReceipt channelId limiter.publicKey size ∧
        packet.signature = signature := by
    rintro packet rfl
    have isSize := RcptPacket.downloadedSize_ofFields channelId session.publicKey
      limiter.publicKey size signature fits
    simp [isSize, signedBytes_ofFields fits]
  have isAccepted : limiter.acceptReceipt verify channelId session.publicKey size signature random =
      limiter.acceptReceiptFromAnotherReplicator verify
        (.ofFields channelId session.publicKey limiter.publicKey size signature) random := rfl
  rw [isAccepted]
  generalize isPacket : RcptPacket.ofFields channelId session.publicKey limiter.publicKey size
    signature = packet
  obtain ⟨isChannel, client, own, isSize, bytes, isSignature⟩ := fields packet isPacket.symm
  have verifies : limiter.verifies verify packet = true := by
    simp [verifies, running, notEnding, isChannel, client, bytes, isSignature, found, isClient,
      signed]
  have forwards : (saveReceipt packet channelInfo.clientReceiptMap).2 = true := by
    rw [saveReceipt_forwards, client, own, isSize]
    exact Or.inr newer
  rcases limiter.acceptReceiptFromAnotherReplicator_cases verify packet random with
    ⟨refused, -⟩ | ⟨-, known, isKnown, stored, forwarded, -⟩
  · simp [verifies] at refused
  · rw [isChannel, found] at isKnown
    obtain rfl := Option.some.inj isKnown
    constructor
    · rw [forwarded, forwards]
    · have kept : receiptAt (saveReceipt packet channelInfo.clientReceiptMap).1 session.publicKey
          limiter.publicKey = some packet := by
        rw [receiptAt_saveReceipt, if_pos ⟨client.symm, own.symm⟩, if_pos forwards]
      rw [stored]
      simpa [getLastClientReceipt, store, running, isChannel, ChannelInfo.receive, receiptAt,
        Option.bind_eq_some_iff] using kept

/-- A replicator that holds a receipt over 1024 bytes. -/
def sampleLimiter : DownloadLimiter :=
  ((DownloadLimiter.addChannelInfo { publicKey := 9 } 3 4096 8 [1, 9] [5] false).acceptReceipt
    Payments.anySignature 3 5 1024 0 []).limiter

def sampleSession : ClientSession := { publicKey := 5 }

/-- The session after it has been shown the receipt and has requested a piece. -/
def sampleNext : ClientSession :=
  (sampleSession.onLastMyReceipt Payments.anySignature (.ofFields 3 5 9 1024 0) 3).requestPieces 3
    sampleLimiter.publicKey [100]

end GoingOn

end SiriusDrive
