import SiriusDrive.DownloadLimiter.Events

/-! # What is sent before it is paid for

A piece is sent to a client after `checkDownloadLimit` has let it pass, while
receipts, increases and pieces for other clients may come in between. What a
client has been sent then exceeds the last accepted receipt of the own
replicator by no more than the receipt limit and one piece.
-/

namespace SiriusDrive

/-- A limiter with the clients that may be sent a piece: their last check passed,
    and no piece was sent to them since. -/
structure SendingLimiter where
  limiter : DownloadLimiter
  permitted : List (ChannelId × ClientKey) := []

/-- A limiter that sends pieces of at most `pieceLimit` bytes, each after a check.
    A restart forgets the checks. -/
def sendingSystem (verify : Verify) (pieceLimit : Nat) : Transition SendingLimiter LimiterEvent where
  step sending event :=
    let limiter := (sending.limiter.handle verify event).limiter
    match event with
    | .pieceSent txHash receiverPublicKey pieceSize =>
        if (txHash, receiverPublicKey) ∈ sending.permitted ∧ pieceSize ≤ pieceLimit then
          some { limiter, permitted := sending.permitted.filter (· ≠ (txHash, receiverPublicKey)) }
        else none
    | .checkDownloadLimit peerKey downloadChannelId =>
        some
          { limiter
            permitted :=
              if (sending.limiter.checkDownloadLimit peerKey downloadChannelId).2.1 then
                (downloadChannelId, peerKey) :: sending.permitted
              else sending.permitted }
    | .restart => some { limiter }
    | _ => some { sending with limiter }

namespace ChannelInfo

variable (channelInfo : ChannelInfo) (publicKey : ReplicatorKey) (clientKey : ClientKey)

/-- `m_sentSize` of a client. -/
def sentSize : Nat := (channelInfo.sentClientMap[clientKey]?).getD 0

/-- The client has been sent no more than `margin` bytes over its last accepted
    receipt for the own replicator. -/
def SentWithin (margin : Nat) : Prop :=
  channelInfo.sentSize clientKey ≤ channelInfo.lastAcceptedReceiptSize publicKey clientKey + margin

variable {channelInfo publicKey clientKey} {margin : Nat}

theorem SentWithin.receive (within : channelInfo.SentWithin publicKey clientKey margin)
    (msg : RcptPacket) : (channelInfo.receive msg).SentWithin publicKey clientKey margin := by
  have accepted := channelInfo.lastAcceptedReceiptSize_le publicKey clientKey msg.receipt
  have sent : (channelInfo.receive msg).sentSize clientKey = channelInfo.sentSize clientKey := by
    rw [sentSize, ChannelInfo.receive, channelInfo.acceptUploadSize_sentClientMap, sentSize]
  unfold SentWithin at within ⊢
  rw [sent]
  exact within.trans (Nat.add_le_add_right accepted margin)

theorem SentWithin.lookUp (within : channelInfo.SentWithin publicKey clientKey margin)
    {info : ReplicatorUploadRequestInfo} {own : ReplicatorKey}
    (found : channelInfo.replicatorUploadRequestMap[own]? = some info) (peerKey : ClientKey) :
    (channelInfo.lookUp own info peerKey).SentWithin publicKey clientKey margin := by
  have accepted : (channelInfo.lookUp own info peerKey).lastAcceptedReceiptSize publicKey clientKey =
      channelInfo.lastAcceptedReceiptSize publicKey clientKey := by
    unfold DownloadChannelInfo.lastAcceptedReceiptSize ChannelInfo.lookUp
    rw [DownloadChannelInfo.uploadRequestInfo_set]
    split
    · rename_i isOwn
      rw [isOwn, ReplicatorUploadRequestInfo.cell_withClient_eq,
        DownloadChannelInfo.uploadRequestInfo, found, Option.getD_some]
    · rfl
  unfold SentWithin
  rw [accepted]
  exact within

/-- A piece of at most `pieceLimit` bytes adds no more than that to the margin. -/
theorem SentWithin.countPiece {receiver : ClientKey} {sent pieceSize pieceLimit : Nat}
    (before : channelInfo.SentWithin publicKey receiver margin)
    (found : channelInfo.sentClientMap[receiver]? = some sent) (fits : pieceSize ≤ pieceLimit) :
    (channelInfo.countPiece receiver sent pieceSize).SentWithin publicKey receiver
      (margin + pieceLimit) := by
  have sum : u64 (sent + pieceSize) ≤ sent + pieceSize := Nat.mod_le _ _
  have size : channelInfo.sentSize receiver = sent := by rw [sentSize, found, Option.getD_some]
  have after : (channelInfo.countPiece receiver sent pieceSize).sentSize receiver =
      u64 (sent + pieceSize) := by
    simp only [sentSize, ChannelInfo.countPiece, Std.TreeMap.getElem?_insert_eq, if_true,
      Option.getD_some]
  have accepted : (channelInfo.countPiece receiver sent pieceSize).lastAcceptedReceiptSize publicKey
      receiver = channelInfo.lastAcceptedReceiptSize publicKey receiver := rfl
  unfold SentWithin at before ⊢
  rw [after, accepted]
  omega

theorem SentWithin.countOther {receiver : ClientKey} {sent pieceSize : Nat}
    (within : channelInfo.SentWithin publicKey clientKey margin) (other : clientKey ≠ receiver) :
    (channelInfo.countPiece receiver sent pieceSize).SentWithin publicKey clientKey margin := by
  have size : (channelInfo.countPiece receiver sent pieceSize).sentSize clientKey =
      channelInfo.sentSize clientKey := by
    simp only [sentSize, ChannelInfo.countPiece, Std.TreeMap.getElem?_insert_eq, if_neg other]
  unfold SentWithin
  rw [size]
  exact within

theorem sentSize_addChannelInfo (publicKey : ReplicatorKey) (clientKey : ClientKey)
    (prepaidDownloadSize : Nat) (driveKey : Key) (replicatorsList : List ReplicatorKey) (clients : List ClientKey) (willBeSyncronized : Bool) :
    (({ DownloadChannelInfo.addChannelInfo publicKey prepaidDownloadSize driveKey replicatorsList
        clients willBeSyncronized none with clientReceiptMap := ∅ } : ChannelInfo)).sentSize
      clientKey = 0 := by
  have zeros : ∀ (clients : List ClientKey) (t : Std.TreeMap ClientKey Nat),
      (∀ key : ClientKey, (t[key]?).getD 0 = 0) →
      ∀ key : ClientKey,
        ((clients.foldl (fun map clientKey => map.insertIfNew clientKey 0) t)[key]?).getD 0 = 0 := by
    intro clients
    induction clients with
    | nil => intro t zero; exact zero
    | cons client clients ih =>
        intro t zero
        apply ih
        intro key
        rw [Std.TreeMap.getElem?_insertIfNew_eq]
        split
        · exact zero key
        · exact zero key
  exact zeros clients ∅ (fun _ => rfl) clientKey

end ChannelInfo

def DownloadLimiter.Holds (limiter : DownloadLimiter) (channelId : ChannelId)
    (channelInfo : ChannelInfo) : Prop :=
  limiter.dnChannelMap[channelId]? = some channelInfo ∨
    limiter.dnChannelMapBackup[channelId]? = some channelInfo

section Channels

variable (verify : Verify) {limiter : DownloadLimiter} {event : LimiterEvent}
  {channelId : ChannelId} {clientKey : ClientKey} {after : ChannelInfo} {margin : Nat}

theorem sentWithin_handle (noPiece : ∀ receiver pieceSize,
      event ≠ .pieceSent channelId receiver pieceSize)
    (within : ∀ channelInfo, limiter.Holds channelId channelInfo →
      channelInfo.SentWithin limiter.publicKey clientKey margin)
    (found : (limiter.handle verify event).limiter.dnChannelMap[channelId]? = some after) :
    after.SentWithin limiter.publicKey clientKey margin := by
  have change := limiter.channelChange verify event channelId
  rw [found] at change
  have held : ∀ channelInfo, limiter.dnChannelMap[channelId]? = some channelInfo →
      channelInfo.SentWithin limiter.publicKey clientKey margin :=
    fun channelInfo before => within channelInfo (.inl before)
  generalize isBefore : limiter.dnChannelMap[channelId]? = before at change
  cases change with
  | same => exact held after isBefore
  | received channelInfo msg => exact (held channelInfo isBefore).receive msg
  | lookedUp channelInfo info peerKey known => exact (held channelInfo isBefore).lookUp known peerKey
  | increased channelInfo => exact held channelInfo isBefore
  | sent _ receiver _ pieceSize _ isPiece => exact absurd isPiece (noPiece receiver pieceSize)
  | added prepaidDownloadSize driveKey replicatorsList clients willBeSyncronized =>
      cases saved : limiter.dnChannelMapBackup[channelId]? with
      | some backup => exact within backup (.inr saved)
      | none =>
          have nothing := ChannelInfo.sentSize_addChannelInfo limiter.publicKey clientKey
            prepaidDownloadSize driveKey replicatorsList clients willBeSyncronized
          unfold ChannelInfo.SentWithin
          rw [Option.map_none, nothing]
          exact Nat.zero_le _

theorem sentWithin_pieceSent {txHash : ChannelId} {receiver : ClientKey} {pieceSize pieceLimit : Nat}
    (fits : pieceSize ≤ pieceLimit)
    (within : ∀ channelInfo, limiter.dnChannelMap[channelId]? = some channelInfo →
      channelInfo.SentWithin limiter.publicKey clientKey margin)
    (found : (limiter.handle verify (.pieceSent txHash receiver pieceSize)).limiter.dnChannelMap[
      channelId]? = some after) :
    after.SentWithin limiter.publicKey clientKey (margin + pieceLimit) ∧
      ((channelId, clientKey) ≠ (txHash, receiver) →
        after.SentWithin limiter.publicKey clientKey margin) := by
  have weaken : ∀ channelInfo : ChannelInfo,
      channelInfo.SentWithin limiter.publicKey clientKey margin →
      channelInfo.SentWithin limiter.publicKey clientKey (margin + pieceLimit) := by
    intro channelInfo within
    unfold ChannelInfo.SentWithin at within ⊢
    omega
  have change := limiter.channelChange verify (.pieceSent txHash receiver pieceSize)
    channelId
  rw [found] at change
  generalize isBefore : limiter.dnChannelMap[channelId]? = before at change
  cases change with
  | same => exact ⟨weaken _ (within after isBefore), fun _ => within after isBefore⟩
  | sent channelInfo _ sentSize _ known isPiece =>
      cases isPiece
      have before := within channelInfo isBefore
      by_cases isReceiver : clientKey = receiver
      · subst isReceiver
        exact ⟨before.countPiece known fits, fun other => absurd rfl other⟩
      · have kept : (channelInfo.countPiece receiver sentSize pieceSize).SentWithin
            limiter.publicKey clientKey margin := before.countOther isReceiver
        exact ⟨weaken _ kept, fun _ => kept⟩
  | added _ _ _ _ _ isAddition => cases isAddition
  | received channelInfo msg isMessage =>
      simp [DownloadLimiter.receivedMessage, DownloadLimiter.message] at isMessage
  | lookedUp _ _ _ _ isCheck => cases isCheck
  | increased _ _ isIncrease => cases isIncrease

theorem backup_addChannelInfo {prepaidDownloadSize : Nat} {driveKey : Key}
    {replicatorsList : List ReplicatorKey} {clients : List ClientKey} {willBeSyncronized : Bool}
    (absent : limiter.dnChannelMap[channelId]? = none)
    (found : (limiter.addChannelInfo channelId prepaidDownloadSize driveKey replicatorsList clients
      willBeSyncronized).dnChannelMap[channelId]? = some after) :
    (limiter.addChannelInfo channelId prepaidDownloadSize driveKey replicatorsList clients
      willBeSyncronized).dnChannelMapBackup[channelId]? = none := by
  unfold DownloadLimiter.addChannelInfo at found ⊢
  split
  · rename_i destructing
    rw [if_pos destructing, absent] at found
    simp at found
  · rename_i running
    split
    · rename_i known
      rw [if_neg running, if_pos known, absent] at found
      simp at found
    · simp only [Std.TreeMap.getElem?_erase_eq, if_true]

theorem notSaved_handle (noRestart : event ≠ .restart)
    (notSaved : ∀ channelId : ChannelId, (limiter.dnChannelMap[channelId]?).isSome = true →
      limiter.dnChannelMapBackup[channelId]? = none)
    (found : (limiter.handle verify event).limiter.dnChannelMap[channelId]? = some after) :
    (limiter.handle verify event).limiter.dnChannelMapBackup[channelId]? = none := by
  have stays : (limiter.dnChannelMap[channelId]?).isSome = true →
      (limiter.handle verify event).limiter.dnChannelMapBackup[channelId]? = none :=
    fun known => (limiter.keeps_handle verify noRestart).backup_none (notSaved channelId known)
  have change := limiter.channelChange verify event channelId
  have whole := found
  rw [found] at change
  generalize isBefore : limiter.dnChannelMap[channelId]? = before at change
  cases change with
  | same => exact stays (by rw [isBefore]; rfl)
  | received => exact stays (by rw [isBefore]; rfl)
  | lookedUp => exact stays (by rw [isBefore]; rfl)
  | increased => exact stays (by rw [isBefore]; rfl)
  | sent => exact stays (by rw [isBefore]; rfl)
  | added _ _ _ _ _ isAddition =>
      subst isAddition
      exact backup_addChannelInfo isBefore whole

end Channels

namespace SendingLimiter

variable {verify : Verify} {receiptLimit pieceLimit : Nat} {sending after : SendingLimiter}

/-- What holds of a limiter that sends pieces after checks only. A client with a
    passed check has one piece left of its margin. -/
structure Bounded (receiptLimit pieceLimit : Nat) (sending : SendingLimiter) : Prop where
  notSaved : ∀ channelId : ChannelId,
    (sending.limiter.dnChannelMap[channelId]?).isSome = true →
      sending.limiter.dnChannelMapBackup[channelId]? = none
  within : ∀ channelId channelInfo, sending.limiter.Holds channelId channelInfo →
    ∀ clientKey, channelInfo.SentWithin sending.limiter.publicKey clientKey
      (receiptLimit + pieceLimit)
  checked : ∀ channelId clientKey, (channelId, clientKey) ∈ sending.permitted →
    sending.limiter.dnChannelMapBackup[channelId]? = none ∧
      ∀ channelInfo, sending.limiter.dnChannelMap[channelId]? = some channelInfo →
        channelInfo.SentWithin sending.limiter.publicKey clientKey receiptLimit

theorem Bounded.handle {event : LimiterEvent} (bounded : sending.Bounded receiptLimit pieceLimit)
    (noRestart : event ≠ .restart)
    (noPiece : ∀ channelId receiver pieceSize, event ≠ .pieceSent channelId receiver pieceSize) :
    Bounded receiptLimit pieceLimit
      { sending with limiter := (sending.limiter.handle verify event).limiter } := by
  have keeps := sending.limiter.keeps_handle verify noRestart
  refine ⟨?_, ?_, ?_⟩
  · intro channelId known
    obtain ⟨after, found⟩ := Option.isSome_iff_exists.mp known
    exact notSaved_handle verify noRestart bounded.notSaved found
  · rintro channelId after (found | saved) clientKey
    · rw [keeps.publicKey]
      exact sentWithin_handle verify (noPiece channelId)
        (fun channelInfo holds => bounded.within channelId channelInfo holds clientKey) found
    · rw [keeps.publicKey]
      exact bounded.within channelId after (.inr (keeps.backup channelId after saved)) clientKey
  · intro channelId clientKey permitted
    obtain ⟨notSaved, within⟩ := bounded.checked channelId clientKey permitted
    refine ⟨?_, ?_⟩
    · exact keeps.backup_none notSaved
    · intro after found
      rw [keeps.publicKey]
      refine sentWithin_handle verify (noPiece channelId) ?_ found
      rintro channelInfo (known | saved)
      · exact within channelInfo known
      · rw [notSaved] at saved
        simp at saved

theorem bounded_step {event : LimiterEvent} (bounded : sending.Bounded receiptLimit pieceLimit)
    (constant : sending.limiter.receiptLimit = receiptLimit)
    (step : (sendingSystem verify pieceLimit).step sending event = some after) :
    after.Bounded receiptLimit pieceLimit := by
  cases event with
  | pieceSent txHash receiver pieceSize =>
      have guarded : (if (txHash, receiver) ∈ sending.permitted ∧ pieceSize ≤ pieceLimit then
          some (SendingLimiter.mk (sending.limiter.handle verify
            (.pieceSent txHash receiver pieceSize)).limiter
            (sending.permitted.filter (· ≠ (txHash, receiver)))) else none) = some after := step
      obtain ⟨⟨permitted, fits⟩, isAfter⟩ := Option.ite_none_right_eq_some.mp guarded
      obtain rfl := Option.some.inj isAfter
      have keeps : sending.limiter.Keeps (sending.limiter.handle verify
          (.pieceSent txHash receiver pieceSize)).limiter :=
        sending.limiter.keeps_handle verify (by simp)
      refine ⟨?_, ?_, ?_⟩
      · intro channelId known
        obtain ⟨after, found⟩ := Option.isSome_iff_exists.mp known
        exact notSaved_handle verify (by simp) bounded.notSaved found
      · rintro channelId after (found | saved) clientKey
        · rw [keeps.publicKey]
          by_cases isReceiver : (channelId, clientKey) = (txHash, receiver)
          · obtain ⟨rfl, rfl⟩ := Prod.mk.inj isReceiver
            exact (sentWithin_pieceSent verify fits (bounded.checked channelId clientKey permitted).2 found).1
          · refine (sentWithin_pieceSent verify fits ?_ found).2 isReceiver
            exact fun channelInfo known => bounded.within channelId channelInfo (.inl known) clientKey
        · rw [keeps.publicKey]
          exact bounded.within channelId after (.inr (keeps.backup channelId after saved)) clientKey
      · intro channelId clientKey still
        obtain ⟨before, other⟩ := List.mem_filter.mp still
        obtain ⟨notSaved, within⟩ := bounded.checked channelId clientKey before
        refine ⟨?_, ?_⟩
        · exact keeps.backup_none notSaved
        · intro after found
          rw [keeps.publicKey]
          exact (sentWithin_pieceSent verify fits within found).2 (of_decide_eq_true other)
  | checkDownloadLimit peerKey downloadChannelId =>
      obtain rfl := Option.some.inj step
      have kept : Bounded receiptLimit pieceLimit { sending with
          limiter := (sending.limiter.handle verify
            (.checkDownloadLimit peerKey downloadChannelId)).limiter } :=
        bounded.handle (by simp) (by simp)
      refine ⟨kept.notSaved, kept.within, ?_⟩
      intro channelId clientKey permitted
      by_cases passed : (sending.limiter.checkDownloadLimit peerKey downloadChannelId).2.1 = true
      · simp only [passed, if_true, List.mem_cons] at permitted
        rcases permitted with isPeer | permitted
        · obtain ⟨rfl, rfl⟩ := Prod.mk.inj isPeer
          obtain ⟨channelInfo, found, within⟩ :=
            sending.limiter.sentSize_of_checkDownloadLimit passed
          have notSaved := bounded.notSaved channelId (by rw [found]; rfl)
          have keeps : sending.limiter.Keeps (sending.limiter.handle verify
              (.checkDownloadLimit clientKey channelId)).limiter :=
            sending.limiter.keeps_handle verify (by simp)
          refine ⟨keeps.backup_none notSaved, ?_⟩
          intro after foundAfter
          rw [keeps.publicKey]
          refine sentWithin_handle verify (by simp) ?_ foundAfter
          rintro other (known | saved)
          · obtain rfl := Option.some.inj (found.symm.trans known)
            rw [constant] at within
            exact within
          · rw [notSaved] at saved
            simp at saved
        · exact kept.checked channelId clientKey permitted
      · simp only [passed] at permitted
        exact kept.checked channelId clientKey permitted
  | restart =>
      obtain rfl := Option.some.inj step
      refine ⟨?_, ?_, ?_⟩
      · intro channelId known
        simp [DownloadLimiter.handle, DownloadLimiter.restart,
          DownloadLimiter.loadDownloadChannelMap] at known
      · rintro channelId after (found | saved) clientKey
        · simp [DownloadLimiter.handle, DownloadLimiter.restart,
            DownloadLimiter.loadDownloadChannelMap] at found
        · obtain ⟨channelInfo, known, rfl⟩ := sending.limiter.backup_restart saved
          exact bounded.within channelId channelInfo (.inl known) clientKey
      · intro channelId clientKey permitted
        simp at permitted
  | addChannelInfo | increaseChannelSize | removeChannelInfo | acceptReceipt | rcpt
  | setReceiptLimit | setDrive | sessionEnds | destruct =>
      obtain rfl := Option.some.inj step
      exact bounded.handle (by simp) (by simp)

end SendingLimiter

section Sending

variable (verify : Verify) (publicKey : ReplicatorKey) (receiptLimit pieceLimit : Nat)
  {events : List LimiterEvent} {sending : SendingLimiter}

/-- However receipts, increases, checks and pieces come in between, no client is
    sent more than its last accepted receipt for the own replicator, the receipt
    limit and one piece. -/
theorem sent_size_bounded
    (constant : (sendingSystem verify pieceLimit).Always
      (fun sending => sending.limiter.receiptLimit = receiptLimit)
      { limiter := { publicKey, receiptLimit } } events)
    (run : (sendingSystem verify pieceLimit).exec { limiter := { publicKey, receiptLimit } }
      events = some sending) :
    ∀ (channelId : ChannelId) (channelInfo : ChannelInfo),
      sending.limiter.dnChannelMap[channelId]? = some channelInfo → ∀ clientKey,
      channelInfo.sentSize clientKey ≤
        channelInfo.lastAcceptedReceiptSize sending.limiter.publicKey clientKey + receiptLimit +
          pieceLimit := by
  have base : SendingLimiter.Bounded receiptLimit pieceLimit
      { limiter := { publicKey, receiptLimit } } := by
    refine ⟨?_, ?_, ?_⟩
    · intro channelId known
      simp at known
    · rintro channelId channelInfo (found | saved)
      · simp at found
      · simp at saved
    · intro channelId clientKey permitted
      simp at permitted
  have bounded := Transition.invariant
    (fun _ _ _ bounded constant step => SendingLimiter.bounded_step bounded constant step)
    base constant.meets run
  intro channelId channelInfo found clientKey
  rw [Nat.add_assoc]
  exact bounded.within channelId channelInfo (.inl found) clientKey

/-- A client is sent two pieces and pays for the first one in between. -/
def paidPieces : List LimiterEvent :=
  [.addChannelInfo 3 4096 8 [1, 9] [5] false, .checkDownloadLimit 5 3, .pieceSent 3 5 1024,
    .acceptReceipt 3 5 1000 0 [], .checkDownloadLimit 5 3, .pieceSent 3 5 1024]

theorem sent_size_bounded_paid_pieces :
    ∃ sending, (sendingSystem (fun _ _ _ => true) 1024).exec
        { limiter := { publicKey := 9, receiptLimit := 1024 } } paidPieces = some sending ∧
      ∀ (channelId : ChannelId) (channelInfo : ChannelInfo),
        sending.limiter.dnChannelMap[channelId]? = some channelInfo → ∀ clientKey,
        channelInfo.sentSize clientKey ≤
          channelInfo.lastAcceptedReceiptSize sending.limiter.publicKey clientKey + 1024 + 1024 := by
  have reached : ((sendingSystem (fun _ _ _ => true) 1024).exec
      { limiter := { publicKey := 9, receiptLimit := 1024 } } paidPieces).isSome = true := by
    decide +kernel
  obtain ⟨sending, run⟩ := Option.isSome_iff_exists.mp reached
  exact ⟨sending, run, sent_size_bounded (fun _ _ _ => true) 9 1024 1024 (by decide +kernel) run⟩

end Sending

end SiriusDrive
