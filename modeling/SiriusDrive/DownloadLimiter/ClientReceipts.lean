import SiriusDrive.DownloadLimiter.Events

/-! # The stored receipts of the clients

The receipts of a channel are kept twice: as sizes in the upload requests of the
replicators and as messages in `m_clientReceiptMap`. The sizes of the two always
agree. The messages are receipts of their keys, apart from the empty ones that
`operator[]` leaves behind when a receipt of size 0 arrives for a replicator
which its client has sent no receipt for yet.
-/

namespace SiriusDrive

namespace ChannelInfo

/-- The stored sizes are the largest ones received. -/
def SizesAgree (channelInfo : ChannelInfo) : Prop :=
  ∀ clientKey replicatorKey, storedSize channelInfo.clientReceiptMap clientKey replicatorKey =
    channelInfo.maxReceiptSize replicatorKey clientKey

/-- A message is what its place in the map says. -/
structure IsReceiptOf (channelInfo : ChannelInfo) (clientKey : ClientKey)
    (replicatorKey : ReplicatorKey) (msg : RcptPacket) : Prop where
  isValidSize : msg.isValidSize = true
  isClient : msg.clientKey = clientKey
  isReplicator : msg.replicatorKey = replicatorKey
  isLargest : msg.downloadedSize = channelInfo.maxReceiptSize replicatorKey clientKey

/-- Every stored message is a receipt of its keys. -/
def ReceiptsMatch (channelInfo : ChannelInfo) : Prop :=
  ∀ clientKey replicatorKey msg,
    receiptAt channelInfo.clientReceiptMap clientKey replicatorKey = some msg →
    channelInfo.IsReceiptOf clientKey replicatorKey msg

variable {channelInfo after : ChannelInfo}

theorem SizesAgree.of_same (agree : channelInfo.SizesAgree) (same : channelInfo.SameReceipts after) :
    after.SizesAgree := by
  intro clientKey replicatorKey
  rw [same.clientReceiptMap, same.maxReceiptSize]
  exact agree clientKey replicatorKey

theorem SizesAgree.receive (agree : channelInfo.SizesAgree) (msg : RcptPacket) :
    (channelInfo.receive msg).SizesAgree := by
  intro clientKey replicatorKey
  rw [maxReceiptSize_receive]
  have stored := storedSize_saveReceipt msg channelInfo.clientReceiptMap clientKey replicatorKey
  have before := agree clientKey replicatorKey
  simp only [ChannelInfo.receive, stored]
  rw [before]
  simp only [and_comm]

theorem ReceiptsMatch.of_same (receipts : channelInfo.ReceiptsMatch)
    (same : channelInfo.SameReceipts after) : after.ReceiptsMatch := by
  intro clientKey replicatorKey msg stored
  rw [same.clientReceiptMap] at stored
  have isReceipt := receipts clientKey replicatorKey msg stored
  refine ⟨isReceipt.isValidSize, isReceipt.isClient, isReceipt.isReplicator, ?_⟩
  rw [same.maxReceiptSize]
  exact isReceipt.isLargest

/-- The look-up of a receipt's replicator makes an empty message of a client. -/
def LeavesEmptyReceipt (channelInfo : ChannelInfo) (msg : RcptPacket) : Prop :=
  msg.downloadedSize = 0 ∧ (channelInfo.clientReceiptMap[msg.clientKey]?).isSome = true ∧
    receiptAt channelInfo.clientReceiptMap msg.clientKey msg.replicatorKey = none

/-- A receipt that is not forwarded, for a replicator without one, is of size 0. -/
theorem leavesEmptyReceipt_of_kept {msg : RcptPacket}
    (kept : (saveReceipt msg channelInfo.clientReceiptMap).2 = false)
    (missing : receiptAt channelInfo.clientReceiptMap msg.clientKey msg.replicatorKey = none) :
    channelInfo.LeavesEmptyReceipt msg := by
  have refused : ¬ (channelInfo.clientReceiptMap[msg.clientKey]? = none ∨
      storedSize channelInfo.clientReceiptMap msg.clientKey msg.replicatorKey <
        msg.downloadedSize) := by
    rw [← saveReceipt_forwards, kept]
    exact Bool.false_ne_true
  rw [not_or, storedSize, missing] at refused
  obtain ⟨known, old⟩ := refused
  refine ⟨?_, Option.isSome_iff_ne_none.mpr known, missing⟩
  rw [Option.getD_none, RcptPacket.downloadedSize_empty] at old
  omega

/-- A receipt keeps the stored messages right exactly when it leaves no empty one. -/
theorem receiptsMatch_receive_iff {msg : RcptPacket} (agree : channelInfo.SizesAgree)
    (receipts : channelInfo.ReceiptsMatch) (valid : msg.isValidSize = true) :
    (channelInfo.receive msg).ReceiptsMatch ↔ ¬ channelInfo.LeavesEmptyReceipt msg := by
  have stored := receiptAt_saveReceipt msg channelInfo.clientReceiptMap
  have forwards := saveReceipt_forwards msg channelInfo.clientReceiptMap
  constructor
  · rintro matches_ ⟨zero, known, missing⟩
    have kept : (saveReceipt msg channelInfo.clientReceiptMap).2 = false := by
      rw [← Bool.not_eq_true]
      intro forwarded
      rcases forwards.mp forwarded with unknown | newer
      · simp [unknown] at known
      · omega
    have empty := stored msg.clientKey msg.replicatorKey
    rw [if_pos ⟨rfl, rfl⟩, kept, missing] at empty
    have invalid := (matches_ msg.clientKey msg.replicatorKey {} empty).isValidSize
    simp at invalid
  · intro leavesNone clientKey replicatorKey other found
    have sizes := agree.receive msg clientKey replicatorKey
    have size : other.downloadedSize =
        (channelInfo.receive msg).maxReceiptSize replicatorKey clientKey := by
      rw [← sizes, storedSize, found, Option.getD_some]
    have place := stored clientKey replicatorKey
    simp only [ChannelInfo.receive] at found
    rw [found] at place
    split at place
    · rename_i same
      obtain ⟨rfl, rfl⟩ := same
      obtain isOther := Option.some.inj place
      cases forwarded : (saveReceipt msg channelInfo.clientReceiptMap).2 with
      | true =>
          rw [forwarded, if_pos rfl] at isOther
          subst isOther
          exact ⟨valid, rfl, rfl, size⟩
      | false =>
          rw [forwarded, if_neg Bool.false_ne_true] at isOther
          cases before : receiptAt channelInfo.clientReceiptMap msg.clientKey msg.replicatorKey with
          | some known =>
              rw [before, Option.getD_some] at isOther
              subst isOther
              have isReceipt := receipts _ _ _ before
              exact ⟨isReceipt.isValidSize, isReceipt.isClient, isReceipt.isReplicator, size⟩
          | none =>
              exact absurd (leavesEmptyReceipt_of_kept forwarded before) leavesNone
    · have isReceipt := receipts _ _ _ place.symm
      exact ⟨isReceipt.isValidSize, isReceipt.isClient, isReceipt.isReplicator, size⟩

end ChannelInfo

namespace DownloadLimiter

variable {verify : Verify} {limiter : DownloadLimiter}

/-- In every channel, every stored message is a receipt of its keys. -/
def ReceiptsMatch (limiter : DownloadLimiter) : Prop :=
  ∀ (channelId : ChannelId) (channelInfo : ChannelInfo),
    limiter.dnChannelMap[channelId]? = some channelInfo → channelInfo.ReceiptsMatch

/-- The event brings a valid receipt of size 0 for a replicator which its client,
    who has sent receipts before, has sent no receipt for. -/
def LeavesEmptyReceipt (verify : Verify) (limiter : DownloadLimiter) (event : LimiterEvent) : Prop :=
  ∃ msg channelInfo, limiter.receivedMessage verify event = some msg ∧
    limiter.dnChannelMap[msg.channelId]? = some channelInfo ∧ channelInfo.LeavesEmptyReceipt msg

/-- What holds of a limiter that was never restarted. -/
structure Accounted (limiter : DownloadLimiter) : Prop where
  noBackup : ∀ channelId : ChannelId, limiter.dnChannelMapBackup[channelId]? = none
  sizesAgree : ∀ (channelId : ChannelId) (channelInfo : ChannelInfo),
    limiter.dnChannelMap[channelId]? = some channelInfo → channelInfo.SizesAgree

theorem accounted_step {event : LimiterEvent} {after : DownloadLimiter}
    (accounted : limiter.Accounted) (noRestart : event ≠ .restart)
    (step : (limiterSystem verify).step limiter event = some after) : after.Accounted := by
  obtain rfl : (limiter.handle verify event).limiter = after := Option.some.inj step
  have keeps := limiter.keeps_handle verify noRestart
  refine ⟨?_, ?_⟩
  · intro channelId
    exact keeps.backup_none (accounted.noBackup channelId)
  · intro channelId after found
    have change := limiter.channelChange verify event channelId
    rw [found] at change
    rcases change.receipts with ⟨channelInfo, before, same, -⟩ |
      ⟨channelInfo, msg, before, rfl, -⟩ | ⟨-, empty, fresh⟩
    · exact (accounted.sizesAgree channelId channelInfo before).of_same same
    · exact (accounted.sizesAgree channelId channelInfo before).receive msg
    · intro clientKey replicatorKey
      rw [fresh (accounted.noBackup channelId), empty]
      rfl

/-- An event keeps the stored messages right exactly when it leaves no empty one. -/
theorem receiptsMatch_step_iff {event : LimiterEvent} {after : DownloadLimiter}
    (accounted : limiter.Accounted) (receipts : limiter.ReceiptsMatch)
    (step : (limiterSystem verify).step limiter event = some after) :
    after.ReceiptsMatch ↔ ¬ limiter.LeavesEmptyReceipt verify event := by
  obtain rfl : (limiter.handle verify event).limiter = after := Option.some.inj step
  constructor
  · rintro kept ⟨msg, channelInfo, received, found, leaves⟩
    obtain ⟨isMessage, verified⟩ := limiter.receivedMessage_eq_some.mp received
    have valid := limiter.isValidSize_of_message isMessage
    obtain ⟨random, handled⟩ := limiter.handle_message verify isMessage
    rcases limiter.acceptReceiptFromAnotherReplicator_cases verify msg random with
      ⟨refused, -⟩ | ⟨-, stored, same, after, -⟩
    · simp [refused] at verified
    · obtain rfl : channelInfo = stored := Option.some.inj (found.symm.trans same)
      have present : (limiter.handle verify event).limiter.dnChannelMap[msg.channelId]? =
          some (channelInfo.receive msg) := by
        rw [handled, after, store]
        simp only [Std.TreeMap.getElem?_insert_eq, if_true]
      have agree := accounted.sizesAgree msg.channelId channelInfo found
      have before := receipts msg.channelId channelInfo found
      exact (ChannelInfo.receiptsMatch_receive_iff agree before valid).mp
        (kept msg.channelId _ present) leaves
  · intro leavesNone channelId after found
    have change := limiter.channelChange verify event channelId
    rw [found] at change
    rcases change.receipts with ⟨channelInfo, before, same, -⟩ |
      ⟨channelInfo, msg, before, rfl, received, rfl⟩ | ⟨-, empty, -⟩
    · exact (receipts channelId channelInfo before).of_same same
    · have valid := limiter.isValidSize_of_message
        (limiter.receivedMessage_eq_some.mp received).1
      have agree := accounted.sizesAgree msg.channelId channelInfo before
      have matched := receipts msg.channelId channelInfo before
      apply (ChannelInfo.receiptsMatch_receive_iff agree matched valid).mpr
      intro leaves
      exact leavesNone ⟨msg, channelInfo, received, before, leaves⟩
    · intro clientKey replicatorKey msg stored
      rw [empty] at stored
      simp [receiptAt] at stored

end DownloadLimiter

section Receipts

open DownloadLimiter

variable (verify : Verify) (publicKey : ReplicatorKey) {events : List LimiterEvent}

/-- Without a restart, all stored messages are receipts of their keys exactly as
    long as no receipt of size 0 leaves an empty message behind. -/
theorem client_receipts_match_iff (noRestart : ∀ event ∈ events, event ≠ .restart) :
    (limiterSystem verify).Always ReceiptsMatch { publicKey } events ↔
      (limiterSystem verify).Meets
        (fun limiter event => ¬ limiter.LeavesEmptyReceipt verify event) { publicKey } events := by
  have known := Transition.meets_of_forall (S := limiterSystem verify)
    (s := ({ publicKey } : DownloadLimiter)) noRestart
  apply Transition.always_iff_meets
    (I := fun limiter : DownloadLimiter => limiter.Accounted ∧ limiter.ReceiptsMatch)
  · rintro limiter ⟨-, receipts⟩
    exact receipts
  · rintro limiter event after ⟨accounted, receipts⟩ noRestart leavesNone step
    exact ⟨accounted_step accounted noRestart step,
      (receiptsMatch_step_iff accounted receipts step).mpr leavesNone⟩
  · rintro limiter event ⟨accounted, receipts⟩ - leaves
    refine ⟨_, rfl, ?_⟩
    rw [receiptsMatch_step_iff accounted receipts rfl]
    exact leaves
  · refine ⟨⟨fun _ => rfl, ?_⟩, ?_⟩
    · intro channelId channelInfo found
      simp at found
    · intro channelId channelInfo found
      simp at found
  · exact known

end Receipts

section EmptyReceipt

open DownloadLimiter

/-- The signatures of the samples are all valid. -/
def acceptAll : Verify := fun _ _ _ => true

/-- A channel with one client, who sends a receipt for one replicator and then one
    of size 0 for another replicator. -/
def zeroReceipt : List LimiterEvent :=
  [.addChannelInfo 3 100 8 [1, 2, 9] [5] false, .rcpt (.ofFields 3 5 1 30 0) [],
    .rcpt (.ofFields 3 5 2 0 0) []]

theorem client_receipts_match_iff_zero_receipt :
    (limiterSystem acceptAll).Always ReceiptsMatch { publicKey := 9 } zeroReceipt ↔
      (limiterSystem acceptAll).Meets
        (fun limiter event => ¬ limiter.LeavesEmptyReceipt acceptAll event)
        { publicKey := 9 } zeroReceipt :=
  client_receipts_match_iff acceptAll 9 (by decide)

/-- The receipt of size 0 is not newer than what `operator[]` has just inserted, so
    an empty message stays behind. -/
theorem zero_receipt_leaves_empty_message :
    ¬ (limiterSystem acceptAll).Always ReceiptsMatch { publicKey := 9 } zeroReceipt := by
  intro always
  have left : (((limiterSystem acceptAll).exec { publicKey := 9 } zeroReceipt).bind fun limiter =>
      (limiter.dnChannelMap[(3 : ChannelId)]?).bind fun channelInfo =>
        receiptAt channelInfo.clientReceiptMap 5 2) = some {} := by
    decide +kernel
  obtain ⟨limiter, run, inChannel⟩ := Option.bind_eq_some_iff.mp left
  obtain ⟨channelInfo, found, stored⟩ := Option.bind_eq_some_iff.mp inChannel
  have isReceipt := always.last run 3 channelInfo found 5 2 {} stored
  exact absurd isReceipt.isValidSize (by decide)

end EmptyReceipt

end SiriusDrive
