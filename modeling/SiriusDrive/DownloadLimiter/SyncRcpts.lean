import SiriusDrive.DownloadLimiter.ClientReceipts

/-! # Receipts for a synchronizing replicator

A replicator that joins a channel asks the others for their receipts. The answer
holds the receipts in the order of the map, and the receiver reads them one by
one until the first message of invalid size. An empty message therefore hides
every receipt behind it.
-/

namespace SiriusDrive

/-- What is written to an archive one after the other. -/
inductive ArchiveItem where
  | key (key : Key)
  | rcpt (msg : RcptPacket)
  deriving Repr, DecidableEq

/-- The archives of `cereal`. Reading ends where the archive throws. -/
structure Cereal (β : Type) where
  write : List ArchiveItem → β
  read : β → List ArchiveItem
  read_write : ∀ items, read (write items) = items

/-- `crypto::Sign` with the key pair of a public key, and `crypto::Verify`. -/
structure Signer (β : Type) where
  sign : Key → β → Signature
  verify : Key → β → Signature → Bool
  verify_sign : ∀ key data, verify key data (sign key data) = true

def syncedReceipts (clientReceiptMap : ClientReceiptMap) : List RcptPacket :=
  clientReceiptMap.toList.flatMap fun entry => entry.2.toList.map (·.2)

/-- The answer to "get_dn_rcpts". -/
structure SyncAnswer (β : Type) where
  outOs : β
  outSignature : Signature

namespace DownloadLimiter

section Codec

variable {β : Type} (cereal : Cereal β) (signer : Signer β) (limiter : DownloadLimiter)

/-- `createSyncRcpts`, where it writes a signed answer. -/
def createSyncRcpts (driveKey : Key) (channelId : ChannelId) : Option (SyncAnswer β) :=
  if limiter.isDestructing || !limiter.driveMap.contains driveKey then none
  else (limiter.dnChannelMap[channelId]?).map fun channelInfo =>
    let outOs := cereal.write (.key limiter.publicKey :: .key channelId ::
      (syncedReceipts channelInfo.clientReceiptMap).map .rcpt)
    { outOs, outSignature := signer.sign limiter.publicKey outOs }

/-- The loop of `onSyncRcptReceived`, with the messages it passes to
    `acceptReceiptFromAnotherReplicator`. -/
def acceptRcpts (verify : Verify) :
    List ArchiveItem → List (List Nat) → DownloadLimiter → DownloadLimiter × List RcptPacket
  | .rcpt msg :: items, random, limiter =>
      if !msg.isValidSize then (limiter, [])
      else
        let next :=
          (limiter.acceptReceiptFromAnotherReplicator verify msg (random.headD [])).limiter
        let rest := acceptRcpts verify items random.tail next
        (rest.1, msg :: rest.2)
  | _, _, limiter => (limiter, [])

/-- `onSyncRcptReceived`, apart from `accpeptOpinion`. -/
def onSyncRcptReceived (verify : Verify) (response : β) (sign : Signature)
    (random : List (List Nat)) : DownloadLimiter × List RcptPacket :=
  match cereal.read response with
  | .key otherReplicatorKey :: .key _ :: items =>
      if !signer.verify otherReplicatorKey response sign then (limiter, [])
      else acceptRcpts verify items random limiter
  | _ => (limiter, [])

end Codec

variable {verify : Verify}

/-- The loop passes the messages before the first one of invalid size. -/
theorem acceptRcpts_passed (receipts : List RcptPacket) (random : List (List Nat))
    (limiter : DownloadLimiter) :
    (acceptRcpts verify (receipts.map .rcpt) random limiter).2 =
      receipts.takeWhile (·.isValidSize) := by
  induction receipts generalizing random limiter with
  | nil => rfl
  | cons msg receipts ih =>
      rw [List.map_cons, acceptRcpts]
      cases valid : msg.isValidSize with
      | false => simp [valid]
      | true => simp [valid, ih]

/-- The receiver goes through the same steps as if the messages had come one by one. -/
theorem acceptRcpts_exec (items : List ArchiveItem) (random : List (List Nat))
    (limiter : DownloadLimiter) :
    ∃ events : List LimiterEvent,
      (limiterSystem verify).exec limiter events = some (acceptRcpts verify items random limiter).1 ∧
      ∀ event ∈ events, ∃ msg draws, event = .rcpt msg draws := by
  induction items generalizing random limiter with
  | nil => exact ⟨[], rfl, by simp⟩
  | cons item items ih =>
      cases item with
      | key key => exact ⟨[], rfl, by simp⟩
      | rcpt msg =>
          rw [acceptRcpts]
          cases valid : msg.isValidSize with
          | false => exact ⟨[], rfl, by simp⟩
          | true =>
              obtain ⟨events, run, all⟩ := ih random.tail
                (limiter.acceptReceiptFromAnotherReplicator verify msg (random.headD [])).limiter
              refine ⟨.rcpt msg (random.headD []) :: events, ?_, ?_⟩
              · rw [Transition.exec_cons_iff]
                refine ⟨_, rfl, ?_⟩
                rw [handle, onRcpt, if_neg (by simp [valid])]
                exact run
              · intro event member
                rcases List.mem_cons.mp member with rfl | later
                · exact ⟨msg, random.headD [], rfl⟩
                · exact all event later

end DownloadLimiter

/-! ## The order of the receipts -/

/-- The stored messages with their keys, in the order of the map. -/
def receiptEntries (clientReceiptMap : ClientReceiptMap) :
    List ((ClientKey × ReplicatorKey) × RcptPacket) :=
  clientReceiptMap.toList.flatMap fun entry =>
    entry.2.toList.map fun inner => ((entry.1, inner.1), inner.2)

/-- The order of the map: by client, and by replicator for each client. -/
def Precedes (key other : ClientKey × ReplicatorKey) : Prop :=
  key.1 < other.1 ∨ key.1 = other.1 ∧ key.2 < other.2

section Order

variable {clientReceiptMap : ClientReceiptMap}

theorem syncedReceipts_eq : syncedReceipts clientReceiptMap =
    (receiptEntries clientReceiptMap).map (·.2) := by
  simp [syncedReceipts, receiptEntries, List.map_flatMap, Function.comp_def]

theorem mem_receiptEntries {clientKey : ClientKey} {replicatorKey : ReplicatorKey}
    {msg : RcptPacket} :
    ((clientKey, replicatorKey), msg) ∈ receiptEntries clientReceiptMap ↔
      receiptAt clientReceiptMap clientKey replicatorKey = some msg := by
  simp only [receiptEntries, List.mem_flatMap, List.mem_map, Prod.mk.injEq, receiptAt,
    Option.bind_eq_some_iff]
  constructor
  · rintro ⟨⟨client, receipts⟩, outer, ⟨replicator, packet⟩, inner, ⟨rfl, rfl⟩, rfl⟩
    exact ⟨receipts, Std.TreeMap.mem_toList_iff_getElem?_eq_some.mp outer,
      Std.TreeMap.mem_toList_iff_getElem?_eq_some.mp inner⟩
  · rintro ⟨receipts, outer, inner⟩
    exact ⟨(clientKey, receipts), Std.TreeMap.mem_toList_iff_getElem?_eq_some.mpr outer,
      (replicatorKey, msg), Std.TreeMap.mem_toList_iff_getElem?_eq_some.mpr inner, ⟨rfl, rfl⟩, rfl⟩

private theorem lt_of_compare {key other : Key} (less : compare key other = .lt) : key < other :=
  compareOfLessAndEq_eq_lt.mp less

theorem receiptEntries_ordered :
    (receiptEntries clientReceiptMap).Pairwise fun entry other => Precedes entry.1 other.1 := by
  rw [receiptEntries, List.pairwise_flatMap]
  constructor
  · intro entry _
    rw [List.pairwise_map]
    apply (Std.TreeMap.ordered_keys_toList (t := entry.2)).imp
    intro inner other less
    exact .inr ⟨rfl, lt_of_compare less⟩
  · apply (Std.TreeMap.ordered_keys_toList (t := clientReceiptMap)).imp
    intro entry other less left inside right beyond
    obtain ⟨inner, -, rfl⟩ := List.mem_map.mp inside
    obtain ⟨outer, -, rfl⟩ := List.mem_map.mp beyond
    exact .inl (lt_of_compare less)

private theorem precedes_asymm {key other : ClientKey × ReplicatorKey}
    (precedes : Precedes key other) : ¬ Precedes other key := by
  unfold Precedes at precedes ⊢
  rintro (less | ⟨same, less⟩)
  · rcases precedes with greater | ⟨equal, -⟩
    · exact absurd less (BitVec.lt_asymm greater)
    · rw [equal] at less
      exact BitVec.lt_irrefl _ less
  · rcases precedes with greater | ⟨-, greater⟩
    · rw [same] at greater
      exact BitVec.lt_irrefl _ greater
    · exact absurd less (BitVec.lt_asymm greater)

/-- In an ordered list, what holds between earlier and later entries holds
    between smaller and larger keys. -/
theorem pairwise_iff_precedes {Q : RcptPacket → RcptPacket → Prop}
    {entries : List ((ClientKey × ReplicatorKey) × RcptPacket)}
    (ordered : entries.Pairwise fun entry other => Precedes entry.1 other.1) :
    (entries.Pairwise fun entry other => Q entry.2 other.2) ↔
      ∀ entry ∈ entries, ∀ other ∈ entries, Precedes entry.1 other.1 → Q entry.2 other.2 := by
  constructor
  · intro pairs
    induction entries with
    | nil => simp
    | cons head entries ih =>
        obtain ⟨before, rest⟩ := List.pairwise_cons.mp ordered
        obtain ⟨first, later⟩ := List.pairwise_cons.mp pairs
        intro entry inside other beyond precedes
        rcases List.mem_cons.mp inside with rfl | isLater
        · rcases List.mem_cons.mp beyond with rfl | isLater
          · exact absurd precedes (precedes_asymm precedes)
          · exact first other isLater
        · rcases List.mem_cons.mp beyond with rfl | otherLater
          · exact absurd precedes (precedes_asymm (before entry isLater))
          · exact ih rest later entry isLater other otherLater precedes
  · intro all
    apply ordered.imp_of_mem
    intro entry other inside beyond precedes
    exact all entry inside other beyond precedes

/-- An invalid message that precedes a valid one, in a list with its keys in order,
    is the only thing that hides it. -/
theorem mem_takeWhile_iff {p : RcptPacket → Bool}
    {entries : List ((ClientKey × ReplicatorKey) × RcptPacket)}
    (ordered : entries.Pairwise fun entry other => Precedes entry.1 other.1) :
    (∀ entry ∈ entries, p entry.2 = true → entry ∈ entries.takeWhile fun entry => p entry.2) ↔
      entries.Pairwise fun entry other => p other.2 = true → p entry.2 = true := by
  induction entries with
  | nil => simp
  | cons head entries ih =>
      obtain ⟨before, rest⟩ := List.pairwise_cons.mp ordered
      have apart : head ∉ entries := by
        intro member
        exact precedes_asymm (before head member) (before head member)
      rw [List.pairwise_cons]
      cases valid : p head.2 with
      | true =>
          rw [List.takeWhile_cons_of_pos (by exact valid), ← ih rest]
          constructor
          · intro all
            refine ⟨fun _ _ _ => rfl, ?_⟩
            intro entry member isValid
            rcases List.mem_cons.mp (all entry (List.mem_cons_of_mem _ member) isValid) with
              rfl | inside
            · exact absurd member apart
            · exact inside
          · rintro ⟨-, all⟩ entry member isValid
            rcases List.mem_cons.mp member with rfl | later
            · exact List.mem_cons_self
            · exact List.mem_cons_of_mem _ (all entry later isValid)
      | false =>
          rw [List.takeWhile_cons_of_neg (by simp [valid])]
          constructor
          · intro all
            have nothing : ∀ entry ∈ head :: entries, ¬ p entry.2 = true := by
              intro entry member isValid
              simpa using all entry member isValid
            refine ⟨?_, ?_⟩
            · intro other member isValid
              exact absurd isValid (nothing other (List.mem_cons_of_mem _ member))
            · apply rest.imp_of_mem
              intro entry other _ member _ isValid
              exact absurd isValid (nothing other (List.mem_cons_of_mem _ member))
          · rintro ⟨none_, -⟩ entry member isValid
            rcases List.mem_cons.mp member with rfl | later
            · simp [valid] at isValid
            · exact absurd (none_ entry later isValid) Bool.false_ne_true

end Order

namespace ChannelInfo

variable {channelInfo : ChannelInfo}

/-- A stored message is either empty or a receipt of its keys. -/
def EmptyOrReceipt (channelInfo : ChannelInfo) : Prop :=
  ∀ clientKey replicatorKey msg,
    receiptAt channelInfo.clientReceiptMap clientKey replicatorKey = some msg →
      msg = {} ∨ msg.isValidSize = true ∧ msg.clientKey = clientKey ∧
        msg.replicatorKey = replicatorKey

/-- No empty message stands before a receipt. -/
def NothingHidden (channelInfo : ChannelInfo) : Prop :=
  ∀ clientKey replicatorKey otherClient otherReplicator msg,
    receiptAt channelInfo.clientReceiptMap clientKey replicatorKey = some {} →
    receiptAt channelInfo.clientReceiptMap otherClient otherReplicator = some msg →
    Precedes (clientKey, replicatorKey) (otherClient, otherReplicator) → msg = {}

theorem EmptyOrReceipt.receive (known : channelInfo.EmptyOrReceipt) {msg : RcptPacket}
    (valid : msg.isValidSize = true) : (channelInfo.receive msg).EmptyOrReceipt := by
  intro clientKey replicatorKey other stored
  have place := receiptAt_saveReceipt msg channelInfo.clientReceiptMap clientKey replicatorKey
  simp only [ChannelInfo.receive] at stored
  rw [stored] at place
  split at place
  · rename_i same
    obtain ⟨rfl, rfl⟩ := same
    have isOther := Option.some.inj place
    split at isOther
    · subst isOther
      exact .inr ⟨valid, rfl, rfl⟩
    · cases before : receiptAt channelInfo.clientReceiptMap msg.clientKey msg.replicatorKey with
      | none =>
          rw [before, Option.getD_none] at isOther
          exact .inl isOther
      | some old =>
          rw [before, Option.getD_some] at isOther
          subst isOther
          exact known _ _ _ before
  · exact known _ _ _ place.symm

theorem isValidSize_iff (known : channelInfo.EmptyOrReceipt) {clientKey : ClientKey}
    {replicatorKey : ReplicatorKey} {msg : RcptPacket}
    (stored : receiptAt channelInfo.clientReceiptMap clientKey replicatorKey = some msg) :
    msg.isValidSize = true ↔ msg ≠ {} := by
  constructor
  · rintro valid rfl
    simp at valid
  · intro filled
    rcases known _ _ _ stored with empty | ⟨valid, -⟩
    · exact absurd empty filled
    · exact valid

private theorem entries_passed_iff (known : channelInfo.EmptyOrReceipt) :
    (∀ clientKey replicatorKey msg,
      receiptAt channelInfo.clientReceiptMap clientKey replicatorKey = some msg →
      msg.isValidSize = true →
      msg ∈ (syncedReceipts channelInfo.clientReceiptMap).takeWhile (·.isValidSize)) ↔
    ∀ entry ∈ receiptEntries channelInfo.clientReceiptMap, entry.2.isValidSize = true →
      entry ∈ (receiptEntries channelInfo.clientReceiptMap).takeWhile (·.2.isValidSize) := by
  rw [syncedReceipts_eq, List.takeWhile_map]
  constructor
  · rintro all ⟨⟨clientKey, replicatorKey⟩, msg⟩ member valid
    have stored := mem_receiptEntries.mp member
    obtain ⟨⟨⟨otherClient, otherReplicator⟩, packet⟩, inside, same⟩ :=
      List.mem_map.mp (all clientKey replicatorKey msg stored valid)
    obtain rfl : packet = msg := same
    have alsoStored := mem_receiptEntries.mp ((List.takeWhile_sublist _).subset inside)
    have filled := (isValidSize_iff known stored).mp valid
    -- a receipt knows its own keys, so it stands at one place only
    rcases known _ _ _ stored with empty | ⟨-, rfl, rfl⟩
    · exact absurd empty filled
    · rcases known _ _ _ alsoStored with empty | ⟨-, rfl, rfl⟩
      · exact absurd empty filled
      · exact inside
  · intro all clientKey replicatorKey msg stored valid
    apply List.mem_map.mpr
    exact ⟨((clientKey, replicatorKey), msg), all _ (mem_receiptEntries.mpr stored) valid, rfl⟩

/-- All receipts get through exactly when no empty message stands before one. -/
theorem takeWhile_receipts_iff (known : channelInfo.EmptyOrReceipt) :
    (∀ clientKey replicatorKey msg,
      receiptAt channelInfo.clientReceiptMap clientKey replicatorKey = some msg →
      msg.isValidSize = true →
      msg ∈ (syncedReceipts channelInfo.clientReceiptMap).takeWhile (·.isValidSize)) ↔
    channelInfo.NothingHidden := by
  have ordered : (receiptEntries channelInfo.clientReceiptMap).Pairwise
      fun entry other => Precedes entry.1 other.1 := receiptEntries_ordered
  rw [entries_passed_iff known, mem_takeWhile_iff ordered,
    pairwise_iff_precedes (Q := fun msg other => other.isValidSize = true → msg.isValidSize = true)
      ordered]
  constructor
  · intro all clientKey replicatorKey otherClient otherReplicator msg empty stored precedes
    by_contra filled
    have valid := (isValidSize_iff known stored).mpr filled
    have alsoValid := all _ (mem_receiptEntries.mpr empty) _ (mem_receiptEntries.mpr stored)
      precedes valid
    simp at alsoValid
  · rintro nothing ⟨⟨clientKey, replicatorKey⟩, msg⟩ inside
      ⟨⟨otherClient, otherReplicator⟩, other⟩ beyond precedes valid
    have stored := mem_receiptEntries.mp inside
    have otherStored := mem_receiptEntries.mp beyond
    rw [isValidSize_iff known stored]
    rintro rfl
    have empty := nothing _ _ _ _ _ stored otherStored precedes
    exact (isValidSize_iff known otherStored).mp valid empty

end ChannelInfo

namespace DownloadLimiter

variable {verify : Verify} {limiter : DownloadLimiter}

theorem emptyOrReceipt_step {event : LimiterEvent} {after : DownloadLimiter}
    (known : ∀ (channelId : ChannelId) (channelInfo : ChannelInfo),
      limiter.dnChannelMap[channelId]? = some channelInfo → channelInfo.EmptyOrReceipt)
    (step : (limiterSystem verify).step limiter event = some after) :
    ∀ (channelId : ChannelId) (channelInfo : ChannelInfo),
      after.dnChannelMap[channelId]? = some channelInfo → channelInfo.EmptyOrReceipt := by
  obtain rfl : (limiter.handle verify event).limiter = after := Option.some.inj step
  intro channelId after found
  have change := limiter.channelChange verify event channelId
  rw [found] at change
  rcases change.receipts with ⟨channelInfo, before, same, -⟩ |
    ⟨channelInfo, msg, before, rfl, received, rfl⟩ | ⟨-, empty, -⟩
  · intro clientKey replicatorKey msg stored
    rw [same.clientReceiptMap] at stored
    exact known channelId channelInfo before clientKey replicatorKey msg stored
  · have valid := limiter.isValidSize_of_message (limiter.receivedMessage_eq_some.mp received).1
    exact (known msg.channelId channelInfo before).receive valid
  · intro clientKey replicatorKey msg stored
    rw [empty] at stored
    simp [receiptAt] at stored

theorem noEmpty_step {event : LimiterEvent} {after : DownloadLimiter}
    (filled : ∀ (channelId : ChannelId) (channelInfo : ChannelInfo),
      limiter.dnChannelMap[channelId]? = some channelInfo →
      ∀ clientKey replicatorKey,
        receiptAt channelInfo.clientReceiptMap clientKey replicatorKey ≠ some {})
    (leavesNone : ¬ limiter.LeavesEmptyReceipt verify event)
    (step : (limiterSystem verify).step limiter event = some after) :
    ∀ (channelId : ChannelId) (channelInfo : ChannelInfo),
      after.dnChannelMap[channelId]? = some channelInfo →
      ∀ clientKey replicatorKey,
        receiptAt channelInfo.clientReceiptMap clientKey replicatorKey ≠ some {} := by
  obtain rfl : (limiter.handle verify event).limiter = after := Option.some.inj step
  intro channelId after found clientKey replicatorKey stored
  have change := limiter.channelChange verify event channelId
  rw [found] at change
  rcases change.receipts with ⟨channelInfo, before, same, -⟩ |
    ⟨channelInfo, msg, before, rfl, received, rfl⟩ | ⟨-, empty, -⟩
  · rw [same.clientReceiptMap] at stored
    exact filled channelId channelInfo before clientKey replicatorKey stored
  · have valid := limiter.isValidSize_of_message (limiter.receivedMessage_eq_some.mp received).1
    have place := receiptAt_saveReceipt msg channelInfo.clientReceiptMap clientKey replicatorKey
    simp only [ChannelInfo.receive] at stored
    rw [stored] at place
    split at place
    · rename_i same
      obtain ⟨rfl, rfl⟩ := same
      cases forwarded : (saveReceipt msg channelInfo.clientReceiptMap).2 with
      | true =>
          rw [forwarded, if_pos rfl] at place
          obtain rfl := Option.some.inj place
          simp at valid
      | false =>
          rw [forwarded, if_neg Bool.false_ne_true] at place
          cases before' : receiptAt channelInfo.clientReceiptMap msg.clientKey msg.replicatorKey with
          | some old =>
              rw [before', Option.getD_some] at place
              exact filled msg.channelId channelInfo before _ _ (before'.trans place.symm)
          | none =>
              exact leavesNone ⟨msg, channelInfo, received, before,
                ChannelInfo.leavesEmptyReceipt_of_kept forwarded before'⟩
    · exact filled msg.channelId channelInfo before _ _ place.symm
  · rw [empty] at stored
    simp [receiptAt] at stored

end DownloadLimiter

section Sync

open DownloadLimiter

variable {β : Type} (cereal : Cereal β) (signer : Signer β) {verify : Verify}
  {publicKey : ReplicatorKey} {events : List LimiterEvent} {sender : DownloadLimiter}

/-- The receiver of an answer passes on every receipt the sender holds exactly when
    no empty message stands before one of them, which is so in every run in which
    no receipt of size 0 leaves an empty message. -/
theorem synced_receipts_passed_iff
    (run : (limiterSystem verify).exec { publicKey } events = some sender)
    {driveKey : Key} {channelId : ChannelId} {channelInfo : ChannelInfo} {answer : SyncAnswer β}
    (found : sender.dnChannelMap[channelId]? = some channelInfo)
    (answered : sender.createSyncRcpts cereal signer driveKey channelId = some answer)
    (receiver : DownloadLimiter) (random : List (List Nat)) :
    ((∀ clientKey replicatorKey msg,
        receiptAt channelInfo.clientReceiptMap clientKey replicatorKey = some msg →
        msg.isValidSize = true →
        msg ∈ (receiver.onSyncRcptReceived cereal signer verify answer.outOs answer.outSignature
          random).2) ↔
      channelInfo.NothingHidden) ∧
    ((limiterSystem verify).Meets
        (fun limiter event => ¬ limiter.LeavesEmptyReceipt verify event) { publicKey } events →
      channelInfo.NothingHidden) := by
  have passed : (receiver.onSyncRcptReceived cereal signer verify answer.outOs answer.outSignature
      random).2 = (syncedReceipts channelInfo.clientReceiptMap).takeWhile (·.isValidSize) := by
    unfold createSyncRcpts at answered
    split at answered
    · simp at answered
    · rw [found] at answered
      obtain rfl := Option.some.inj answered
      simp only [onSyncRcptReceived, cereal.read_write, signer.verify_sign, Bool.not_true,
        Bool.false_eq_true, if_false, acceptRcpts_passed]
  constructor
  · have known := Transition.invariant_of_step
      (I := fun limiter : DownloadLimiter => ∀ (channelId : ChannelId) (channelInfo : ChannelInfo),
        limiter.dnChannelMap[channelId]? = some channelInfo → channelInfo.EmptyOrReceipt)
      (fun _ _ _ known step => emptyOrReceipt_step known step)
      (fun channelId channelInfo found => by simp at found) run
    rw [passed]
    exact ChannelInfo.takeWhile_receipts_iff (known channelId channelInfo found)
  · intro leavesNone
    have filled := Transition.invariant
      (I := fun limiter : DownloadLimiter => ∀ (channelId : ChannelId) (channelInfo : ChannelInfo),
        limiter.dnChannelMap[channelId]? = some channelInfo →
        ∀ clientKey replicatorKey,
          receiptAt channelInfo.clientReceiptMap clientKey replicatorKey ≠ some {})
      (fun _ _ _ filled leavesNone step => noEmpty_step filled leavesNone step)
      (fun channelId channelInfo found => by simp at found) leavesNone run
    intro clientKey replicatorKey _ _ _ empty
    exact absurd empty (filled channelId channelInfo found clientKey replicatorKey)

end Sync

section Hidden

open DownloadLimiter

/-- Archives and signatures as transparent as they can be. -/
def plainCereal : Cereal (List ArchiveItem) := ⟨id, id, fun _ => rfl⟩

def plainSigner : Signer (List ArchiveItem) := ⟨fun _ _ => 0, fun _ _ _ => true, fun _ _ => rfl⟩

/-- A client sends a receipt for replicator 2 and then one of size 0 for
    replicator 1, which comes first in the order of the map. -/
def hiddenReceipt : List LimiterEvent :=
  [.setDrive 8 (some ⟨101, 7⟩), .addChannelInfo 3 100 8 [1, 2, 9] [5] false,
    .rcpt (.ofFields 3 5 2 30 0) [], .rcpt (.ofFields 3 5 1 0 0) []]

/-- The same channel with two receipts that are not empty. -/
def plainReceipts : List LimiterEvent :=
  [.setDrive 8 (some ⟨101, 7⟩), .addChannelInfo 3 100 8 [1, 2, 9] [5] false,
    .rcpt (.ofFields 3 5 2 30 0) [], .rcpt (.ofFields 3 5 1 20 0) []]

theorem synced_receipts_passed_iff_plain_receipts :
    ∃ sender channelInfo answer,
      (limiterSystem acceptAll).exec { publicKey := 9 } plainReceipts = some sender ∧
      sender.dnChannelMap[(3 : ChannelId)]? = some channelInfo ∧
      sender.createSyncRcpts plainCereal plainSigner 8 3 = some answer ∧
      ((∀ clientKey replicatorKey msg,
          receiptAt channelInfo.clientReceiptMap clientKey replicatorKey = some msg →
          msg.isValidSize = true →
          msg ∈ (onSyncRcptReceived plainCereal plainSigner { publicKey := 7 } acceptAll
            answer.outOs answer.outSignature []).2) ↔
        channelInfo.NothingHidden) := by
  have reached : (((limiterSystem acceptAll).exec { publicKey := 9 } plainReceipts).any fun sender =>
      (sender.dnChannelMap[(3 : ChannelId)]?).isSome &&
        (sender.createSyncRcpts plainCereal plainSigner 8 3).isSome) = true := by
    decide +kernel
  obtain ⟨sender, run, both⟩ := (Option.any_eq_true _ _).mp reached
  obtain ⟨hasChannel, hasAnswer⟩ := (Bool.and_eq_true _ _).mp both
  obtain ⟨channelInfo, found⟩ := Option.isSome_iff_exists.mp hasChannel
  obtain ⟨answer, answered⟩ := Option.isSome_iff_exists.mp hasAnswer
  exact ⟨sender, channelInfo, answer, run, found, answered,
    (synced_receipts_passed_iff plainCereal plainSigner run found answered { publicKey := 7 } []).1⟩

/-- The receipt of 30 bytes is stored, and no message gets past the empty one. -/
theorem empty_message_hides_receipt :
    (((limiterSystem acceptAll).exec { publicKey := 9 } hiddenReceipt).bind fun sender =>
      (sender.dnChannelMap[(3 : ChannelId)]?).bind fun channelInfo =>
        receiptAt channelInfo.clientReceiptMap 5 2) = some (.ofFields 3 5 2 30 0) ∧
    (((limiterSystem acceptAll).exec { publicKey := 9 } hiddenReceipt).bind fun sender =>
      (sender.createSyncRcpts plainCereal plainSigner 8 3).map fun answer =>
        (onSyncRcptReceived plainCereal plainSigner { publicKey := 7 } acceptAll answer.outOs
          answer.outSignature []).2) = some [] := by
  decide +kernel

end Hidden

end SiriusDrive
