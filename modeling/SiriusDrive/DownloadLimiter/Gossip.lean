import SiriusDrive.DownloadLimiter.Events
import SiriusDrive.Lib.Flooding

/-! # Receipts forwarded between replicators

A replicator forwards a receipt that is newer than the one it has stored, or the
first one of its client. The stored sizes never decrease, so it forwards each
receipt at most once, and the messages for a channel come to an end.
-/

namespace SiriusDrive

/-- What two receipts have to differ in. -/
structure ReceiptId where
  channelId : ChannelId
  clientKey : ClientKey
  replicatorKey : ReplicatorKey
  downloadedSize : Nat
  deriving Repr, DecidableEq

def RcptPacket.id (msg : RcptPacket) : ReceiptId where
  channelId := msg.channelId
  clientKey := msg.clientKey
  replicatorKey := msg.replicatorKey
  downloadedSize := msg.downloadedSize

/-- The client is known, with a receipt of at least this size for the replicator. -/
def ChannelInfo.Covers (channelInfo : ChannelInfo) (id : ReceiptId) : Prop :=
  channelInfo.clientReceiptMap[id.clientKey]? ≠ none ∧
    id.downloadedSize ≤ storedSize channelInfo.clientReceiptMap id.clientKey id.replicatorKey

namespace DownloadLimiter

variable (verify : Verify) (limiter : DownloadLimiter)

/-- The receipt is covered by those of its channel. -/
def Covers (id : ReceiptId) : Prop :=
  ∃ channelInfo, limiter.dnChannelMap[id.channelId]? = some channelInfo ∧ channelInfo.Covers id

def receiptFlooding (channelId : ChannelId) :
    Flooding DownloadLimiter LimiterEvent ReplicatorKey RcptPacket where
  step limiter event := (limiter.handle verify event).limiter
  message limiter event := (limiter.message event).filter (·.channelId == channelId)
  forwards limiter event := (limiter.handle verify event).shouldBeForwared
  copies limiter event := (limiter.handle verify event).sent.filter (·.2.channelId == channelId)
  address limiter := limiter.publicKey

def keepsChannel (channelId : ChannelId) : LimiterEvent → Bool
  | .removeChannelInfo removed => removed ≠ channelId
  | .restart => false
  | _ => true

def receiptNetwork {ι : Type*} [DecidableEq ι] (channelId : ChannelId)
    (injected : List RcptPacket) :
    Transition (Flooding.State ι DownloadLimiter ReplicatorKey RcptPacket) (ι × LimiterEvent) :=
  (receiptFlooding verify channelId).network (keepsChannel channelId) injected

/-! ## What is forwarded -/

variable {verify limiter}

/-- A receipt that is forwarded has passed the checks and is newer than what is stored. -/
theorem forwarded_cases {event : LimiterEvent} {msg : RcptPacket}
    (isMessage : limiter.message event = some msg)
    (forwarded : (limiter.handle verify event).shouldBeForwared = true) :
    ∃ channelInfo, limiter.dnChannelMap[msg.channelId]? = some channelInfo ∧
      (limiter.handle verify event).limiter = limiter.store msg channelInfo ∧
      (channelInfo.clientReceiptMap[msg.clientKey]? = none ∨
        storedSize channelInfo.clientReceiptMap msg.clientKey msg.replicatorKey <
          msg.downloadedSize) := by
  obtain ⟨random, handled⟩ := limiter.handle_message verify isMessage
  rw [handled] at forwarded ⊢
  rcases limiter.acceptReceiptFromAnotherReplicator_cases verify msg random with
    ⟨-, -, kept, -⟩ | ⟨-, channelInfo, found, stored, forwards, -⟩
  · rw [kept] at forwarded
    exact absurd forwarded Bool.false_ne_true
  · refine ⟨channelInfo, found, stored, ?_⟩
    rw [forwards] at forwarded
    exact (saveReceipt_forwards msg channelInfo.clientReceiptMap).mp forwarded

theorem forwardReceipt_copies {msg : RcptPacket} (valid : msg.isValidSize = true)
    (random : List Nat) (channelInfo : ChannelInfo) {receiver : ReplicatorKey} {copy : RcptPacket}
    (sent : (receiver, copy) ∈ limiter.forwardReceipt msg random channelInfo) : copy = msg := by
  unfold forwardReceipt at sent
  split at sent
  · rename_i own
    unfold sendReceiptToOtherReplicators at sent
    rw [← own, RcptPacket.ofFields_fields valid] at sent
    split at sent
    · obtain ⟨_, _, same⟩ := List.mem_map.mp sent
      exact (Prod.mk.inj same).2.symm
    · simp at sent
  · obtain ⟨_, _, same⟩ := List.mem_map.mp sent
    exact (Prod.mk.inj same).2.symm

theorem sent_copies {event : LimiterEvent} {receiver : ReplicatorKey} {copy : RcptPacket}
    (sent : (receiver, copy) ∈ (limiter.handle verify event).sent) :
    limiter.message event = some copy := by
  cases isMessage : limiter.message event with
  | none =>
      cases event with
      | acceptReceipt => simp [message] at isMessage
      | rcpt msg random =>
          have invalid : msg.isValidSize = false := by simpa [message] using isMessage
          rw [handle, onRcpt, if_pos (by simp [invalid])] at sent
          simp at sent
      | _ => simp [handle] at sent
  | some msg =>
      obtain ⟨random, handled⟩ := limiter.handle_message verify isMessage
      have valid := limiter.isValidSize_of_message isMessage
      rw [handled] at sent
      rcases limiter.acceptReceiptFromAnotherReplicator_cases verify msg random with
        ⟨-, -, -, nothing⟩ | ⟨-, channelInfo, -, -, -, copies⟩
      · rw [nothing] at sent
        simp at sent
      · rw [copies] at sent
        split at sent
        · rw [forwardReceipt_copies valid random _ sent]
        · simp at sent

omit limiter in
theorem removed_of_gone {limiter : DownloadLimiter} {event : LimiterEvent} {channelId : ChannelId}
    {channelInfo : ChannelInfo} {after : Option ChannelInfo}
    (change : ChannelChange verify limiter event channelId (some channelInfo) after)
    (isGone : after = none) : event = .removeChannelInfo channelId ∨ event = .restart := by
  cases change with
  | gone _ isRemoval => exact isRemoval
  | _ => simp at isGone

theorem Covers.handle {event : LimiterEvent} {id : ReceiptId}
    (keeps : keepsChannel id.channelId event = true) (covers : limiter.Covers id) :
    (limiter.handle verify event).limiter.Covers id := by
  obtain ⟨channelInfo, found, known, large⟩ := covers
  have change := limiter.channelChange verify event id.channelId
  rw [found] at change
  cases present : (limiter.handle verify event).limiter.dnChannelMap[id.channelId]? with
  | none =>
      rw [present] at change
      rcases removed_of_gone change rfl with rfl | rfl
      · exact absurd rfl (of_decide_eq_true keeps)
      · exact absurd keeps Bool.false_ne_true
  | some after =>
      refine ⟨after, present, ?_⟩
      rw [present] at change
      rcases change.receipts with ⟨before, isBefore, same, -⟩ | ⟨before, msg, isBefore, isAfter, -⟩ |
        ⟨absent, -⟩
      · obtain rfl := Option.some.inj isBefore
        unfold ChannelInfo.Covers
        rw [same.clientReceiptMap]
        exact ⟨known, large⟩
      · obtain rfl := Option.some.inj isBefore
        rw [isAfter]
        refine ⟨?_, ?_⟩
        · intro forgotten
          exact known ((saveReceipt_client msg channelInfo.clientReceiptMap _).mp forgotten).2
        · have size := storedSize_saveReceipt msg channelInfo.clientReceiptMap id.clientKey
            id.replicatorKey
          show id.downloadedSize ≤ storedSize (saveReceipt msg channelInfo.clientReceiptMap).1 _ _
          rw [size]
          split
          · exact le_trans large (le_max_left _ _)
          · exact large
      · simp at absent

theorem receiptFlooding_remembers (channelId : ChannelId) :
    (receiptFlooding verify channelId).Remembers (keepsChannel channelId) RcptPacket.id
      (fun limiter id => id.channelId = channelId → limiter.Covers id) := by
  have message : ∀ limiter event msg,
      (receiptFlooding verify channelId).forwardedMessage limiter event = some msg →
      limiter.message event = some msg ∧ msg.channelId = channelId ∧
        (limiter.handle verify event).shouldBeForwared = true := by
    intro limiter event msg forwarded
    obtain ⟨isMessage, forwards⟩ := Option.filter_eq_some_iff.mp forwarded
    obtain ⟨isMessage, isChannel⟩ := Option.filter_eq_some_iff.mp isMessage
    exact ⟨isMessage, by simpa using isChannel, forwards⟩
  constructor
  · intro limiter event msg forwarded covered
    obtain ⟨isMessage, isChannel, forwards⟩ := message limiter event msg forwarded
    obtain ⟨channelInfo, found, -, newer⟩ := forwarded_cases isMessage forwards
    obtain ⟨present, isPresent, known, large⟩ := covered isChannel
    obtain rfl : channelInfo = present := Option.some.inj (found.symm.trans isPresent)
    rcases newer with unknown | small
    · exact known unknown
    · exact absurd large (Nat.not_le_of_lt small)
  · intro limiter event msg forwarded _
    obtain ⟨isMessage, isChannel, forwards⟩ := message limiter event msg forwarded
    obtain ⟨channelInfo, found, stored, -⟩ := forwarded_cases isMessage forwards
    show (limiter.handle verify event).limiter.Covers msg.id
    rw [stored]
    refine ⟨channelInfo.receive msg, Std.TreeMap.getElem?_insert_self, ?_, ?_⟩
    · intro forgotten
      exact ((saveReceipt_client msg channelInfo.clientReceiptMap _).mp forgotten).1 rfl
    · have size := storedSize_saveReceipt msg channelInfo.clientReceiptMap msg.clientKey
        msg.replicatorKey
      rw [if_pos ⟨rfl, rfl⟩] at size
      show msg.downloadedSize ≤ storedSize (saveReceipt msg channelInfo.clientReceiptMap).1
        msg.clientKey msg.replicatorKey
      rw [size]
      exact le_max_right _ _
  · intro limiter event id keeps covered isChannel
    have covers := covered isChannel
    rw [← isChannel] at keeps
    exact covers.handle keeps
  · intro limiter event receiver copy sent
    obtain ⟨sent, isChannel⟩ := List.mem_filter.mp sent
    exact Option.filter_eq_some_iff.mpr ⟨sent_copies sent, isChannel⟩

end DownloadLimiter

end SiriusDrive
