import SiriusDrive.DownloadChannel.ReceiptCap
import SiriusDrive.Lib.MapLookup

/-! # The counter of receipts

`m_totalReceiptsSize` is a running `uint64_t` counter beside a nested map of
accepted and noted receipts. It is the sum of the largest receipts modulo
`2 ^ 64`, so it says the same whatever the order of the receipts was. Its test
against the prepaid size is therefore a test modulo `2 ^ 64` only.
-/

namespace SiriusDrive

namespace ReplicatorUploadRequestInfo

variable (info : ReplicatorUploadRequestInfo) (clientKey client : ClientKey) (size : Nat)

theorem maxTotal_eq_sum :
    info.maxTotal = info.clientMap.sumOf fun client _ => info.maxReceiptSize client := by
  apply Std.TreeMap.sumOf_congr
  intro client cell member
  have found : info.clientMap[client]? = some cell :=
    Std.TreeMap.mem_toList_iff_getElem?_eq_some.mp member
  rw [maxReceiptSize_eq, ReplicatorUploadRequestInfo.cell, found, Option.getD_some]

/-! ## The cells after a receipt -/

theorem cell_withClient_eq : (info.withClient clientKey).cell client = info.cell client := by
  simp only [cell, withClient, Std.TreeMap.getElem?_insertIfNew_eq]
  split
  · rfl
  · rfl

theorem cell_save :
    (info.saveReceiptSize clientKey size).cell client =
      if client = clientKey then { info.cell clientKey with acceptedSize := size }
      else info.cell client := by
  simp only [cell, saveReceiptSize, Std.TreeMap.getElem?_insert_eq]
  split
  · rfl
  · rfl

theorem cell_saveNotAccepted :
    (info.saveNotAcceptedReceiptSize clientKey size).cell client =
      if client = clientKey ∧ (info.cell clientKey).notAcceptedSize < size then
        { info.cell clientKey with notAcceptedSize := size }
      else info.cell client := by
  unfold saveNotAcceptedReceiptSize
  by_cases larger : (info.cell clientKey).notAcceptedSize < size
  · rw [if_pos larger]
    by_cases same : client = clientKey
    · rw [if_pos ⟨same, larger⟩]
      simp only [cell, Std.TreeMap.getElem?_insert_eq, if_pos same, Option.getD_some]
    · rw [if_neg (fun both => same both.1)]
      simp only [cell, Std.TreeMap.getElem?_insert_eq, if_neg same]
  · rw [if_neg larger, if_neg (fun both => larger both.2)]

theorem acceptedSize_fix (prepaidSize : Nat) :
    (info.cell client).acceptedSize ≤ ((info.tryFixReceiptSize prepaidSize).cell client).acceptedSize := by
  unfold tryFixReceiptSize
  split
  · simp only [cell, Std.TreeMap.getElem?_map]
    cases info.clientMap[client]? with
    | none => exact Nat.le_refl _
    | some found =>
        simp only [Option.map_some, Option.getD_some, fixCell]
        split
        · simp only; omega
        · exact Nat.le_refl _
  · exact Nat.le_refl _

end ReplicatorUploadRequestInfo

namespace DownloadChannelInfo

variable (channelInfo : DownloadChannelInfo) (replicatorKey : ReplicatorKey) (clientKey : ClientKey)

/-- `maxReceiptSize(r,c)`: the largest receipt of a client for a replicator. -/
def maxReceiptSize : Nat := (channelInfo.uploadRequestInfo replicatorKey).maxReceiptSize clientKey

/-- The last receipt of a client for a replicator that was accepted. -/
def lastAcceptedReceiptSize : Nat :=
  ((channelInfo.uploadRequestInfo replicatorKey).cell clientKey).acceptedSize

theorem uploadRequestInfo_set (info : ReplicatorUploadRequestInfo) (other : ReplicatorKey) :
    (channelInfo.setUploadRequestInfo replicatorKey info).uploadRequestInfo other =
      if other = replicatorKey then info else channelInfo.uploadRequestInfo other := by
  simp only [uploadRequestInfo, setUploadRequestInfo, Std.TreeMap.getElem?_insert_eq]
  split
  · rfl
  · rfl

theorem uploadRequestInfo_counter (total : Nat) (other : ReplicatorKey) :
    ({ channelInfo with totalReceiptsSize := total }).uploadRequestInfo other =
      channelInfo.uploadRequestInfo other := by
  simp only [uploadRequestInfo]

/-- The sum over all replicators and clients of their largest receipts. -/
theorem maxTotal_eq_sum :
    channelInfo.maxTotal = channelInfo.replicatorUploadRequestMap.sumOf fun replicatorKey info =>
      info.clientMap.sumOf fun clientKey _ => channelInfo.maxReceiptSize replicatorKey clientKey := by
  apply Std.TreeMap.sumOf_congr
  intro replicatorKey info member
  have found : channelInfo.replicatorUploadRequestMap[replicatorKey]? = some info :=
    Std.TreeMap.mem_toList_iff_getElem?_eq_some.mp member
  rw [info.maxTotal_eq_sum]
  simp only [maxReceiptSize, uploadRequestInfo, found, Option.getD_some]

/-- The sum depends on the largest receipts only, not on how they came about. -/
theorem maxTotal_congr {other : DownloadChannelInfo}
    (same : ∀ replicatorKey clientKey,
      channelInfo.maxReceiptSize replicatorKey clientKey =
        other.maxReceiptSize replicatorKey clientKey) :
    channelInfo.maxTotal = other.maxTotal := by
  have weight : ∀ (channel : DownloadChannelInfo) (replicatorKey : ReplicatorKey),
      (channel.replicatorUploadRequestMap[replicatorKey]?).elim 0
        (fun info => info.maxTotal) = (channel.uploadRequestInfo replicatorKey).maxTotal := by
    intro channel replicatorKey
    unfold uploadRequestInfo
    cases channel.replicatorUploadRequestMap[replicatorKey]? with
    | none => rfl
    | some info => rfl
  apply Std.TreeMap.sumOf_eq_of_weights
  intro replicatorKey
  rw [weight, weight]
  apply Std.TreeMap.sumOf_eq_of_weights
  intro clientKey
  have inner : ∀ (info : ReplicatorUploadRequestInfo),
      (info.clientMap[clientKey]?).elim 0
        (fun cell => max cell.acceptedSize cell.notAcceptedSize) =
      info.maxReceiptSize clientKey := by
    intro info
    rw [info.maxReceiptSize_eq, ReplicatorUploadRequestInfo.cell]
    cases info.clientMap[clientKey]? with
    | none => rfl
    | some cell => rfl
  rw [inner, inner]
  exact same replicatorKey clientKey

/-! ## One receipt -/

theorem acceptUploadSize_cases (msg : RcptMessage) :
    (msg.downloadedSize ≤ channelInfo.lastReceiptSize msg ∧
      (channelInfo.acceptUploadSize msg).1 =
        channelInfo.setUploadRequestInfo msg.replicatorKey
          ((channelInfo.fixedInfo msg).withClient msg.clientKey)) ∨
    (channelInfo.lastReceiptSize msg < msg.downloadedSize ∧
      channelInfo.prepaidDownloadSize < channelInfo.counted msg ∧
      (channelInfo.acceptUploadSize msg).1 =
        { channelInfo with totalReceiptsSize := channelInfo.counted msg }.setUploadRequestInfo
          msg.replicatorKey (((channelInfo.fixedInfo msg).withClient
            msg.clientKey).saveNotAcceptedReceiptSize msg.clientKey msg.downloadedSize)) ∨
    (channelInfo.lastReceiptSize msg < msg.downloadedSize ∧
      channelInfo.counted msg ≤ channelInfo.prepaidDownloadSize ∧
      (channelInfo.acceptUploadSize msg).1 =
        { channelInfo with totalReceiptsSize := channelInfo.counted msg }.setUploadRequestInfo
          msg.replicatorKey (((channelInfo.fixedInfo msg).withClient
            msg.clientKey).saveReceiptSize msg.clientKey msg.downloadedSize)) := by
  by_cases old : msg.downloadedSize ≤ (channelInfo.fixedInfo msg).maxReceiptSize msg.clientKey
  · rw [acceptUploadSize_old old]
    rw [maxReceiptSize_fixedInfo] at old
    exact .inl ⟨old, rfl⟩
  · have newer := old
    rw [maxReceiptSize_fixedInfo, Nat.not_le] at newer
    by_cases exceeds : channelInfo.prepaidDownloadSize < channelInfo.counted msg
    · rw [acceptUploadSize_noted old exceeds]
      exact .inr (.inl ⟨newer, exceeds, rfl⟩)
    · rw [acceptUploadSize_stored old exceeds]
      exact .inr (.inr ⟨newer, Nat.le_of_not_lt exceeds, rfl⟩)

theorem acceptUploadSize_sentClientMap (msg : RcptMessage) :
    (channelInfo.acceptUploadSize msg).1.sentClientMap = channelInfo.sentClientMap := by
  have kept : ∀ (channelInfo : DownloadChannelInfo) replicatorKey info,
      (channelInfo.setUploadRequestInfo replicatorKey info).sentClientMap =
        channelInfo.sentClientMap := by
    intro channelInfo replicatorKey info
    simp only [setUploadRequestInfo]
  have counter : ∀ total, ({ channelInfo with totalReceiptsSize := total }).sentClientMap =
      channelInfo.sentClientMap := fun _ => rfl
  rcases channelInfo.acceptUploadSize_cases msg with ⟨-, after⟩ | ⟨-, -, after⟩ | ⟨-, -, after⟩
  · rw [after, kept]
  · rw [after, kept, counter]
  · rw [after, kept, counter]

theorem acceptUploadSize_others {msg : RcptMessage} (other : replicatorKey ≠ msg.replicatorKey) :
    (channelInfo.acceptUploadSize msg).1.uploadRequestInfo replicatorKey =
      channelInfo.uploadRequestInfo replicatorKey := by
  rcases channelInfo.acceptUploadSize_cases msg with ⟨-, after⟩ | ⟨-, -, after⟩ | ⟨-, -, after⟩
  · rw [after, uploadRequestInfo_set, if_neg other]
  · rw [after, uploadRequestInfo_set, if_neg other,
      channelInfo.uploadRequestInfo_counter (channelInfo.counted msg)]
  · rw [after, uploadRequestInfo_set, if_neg other,
      channelInfo.uploadRequestInfo_counter (channelInfo.counted msg)]

/-- A receipt raises the largest receipt of its client for its replicator, and no other. -/
theorem acceptUploadSize_maxReceiptSize (msg : RcptMessage) :
    (channelInfo.acceptUploadSize msg).1.maxReceiptSize replicatorKey clientKey =
      if replicatorKey = msg.replicatorKey ∧ clientKey = msg.clientKey then
        max (channelInfo.maxReceiptSize replicatorKey clientKey) msg.downloadedSize
      else channelInfo.maxReceiptSize replicatorKey clientKey := by
  have fixed : ∀ client, (channelInfo.fixedInfo msg).maxReceiptSize client =
      channelInfo.maxReceiptSize msg.replicatorKey client := by
    intro client
    rw [fixedInfo, ReplicatorUploadRequestInfo.maxReceiptSize_fix, maxReceiptSize]
  have last : channelInfo.lastReceiptSize msg =
      channelInfo.maxReceiptSize msg.replicatorKey msg.clientKey := rfl
  by_cases isReplicator : replicatorKey = msg.replicatorKey
  · subst isReplicator
    have cells := fixed clientKey
    have own := fixed msg.clientKey
    rw [ReplicatorUploadRequestInfo.maxReceiptSize_eq] at cells own
    rcases channelInfo.acceptUploadSize_cases msg with
      ⟨old, after⟩ | ⟨newer, -, after⟩ | ⟨newer, -, after⟩
    · rw [last] at old
      rw [after, maxReceiptSize, uploadRequestInfo_set, if_pos rfl,
        ReplicatorUploadRequestInfo.maxReceiptSize_eq,
        ReplicatorUploadRequestInfo.cell_withClient_eq, cells]
      split
      · rename_i same
        rw [same.2]
        omega
      · rfl
    · rw [last] at newer
      rw [after, maxReceiptSize, uploadRequestInfo_set, if_pos rfl,
        ReplicatorUploadRequestInfo.maxReceiptSize_eq,
        ReplicatorUploadRequestInfo.cell_saveNotAccepted,
        ReplicatorUploadRequestInfo.cell_withClient_eq,
        ReplicatorUploadRequestInfo.cell_withClient_eq]
      by_cases isClient : clientKey = msg.clientKey
      · have larger : ((channelInfo.fixedInfo msg).cell msg.clientKey).notAcceptedSize <
            msg.downloadedSize := by omega
        rw [if_pos ⟨isClient, larger⟩, if_pos ⟨rfl, isClient⟩, isClient]
        simp only
        omega
      · rw [if_neg (fun both => isClient both.1), if_neg (fun both => isClient both.2), cells]
    · rw [last] at newer
      rw [after, maxReceiptSize, uploadRequestInfo_set, if_pos rfl,
        ReplicatorUploadRequestInfo.maxReceiptSize_eq, ReplicatorUploadRequestInfo.cell_save,
        ReplicatorUploadRequestInfo.cell_withClient_eq,
        ReplicatorUploadRequestInfo.cell_withClient_eq]
      by_cases isClient : clientKey = msg.clientKey
      · rw [if_pos isClient, if_pos ⟨rfl, isClient⟩, isClient]
        simp only
        omega
      · rw [if_neg isClient, if_neg (fun both => isClient both.2), cells]
  · rw [if_neg (fun both => isReplicator both.1)]
    unfold maxReceiptSize
    rw [channelInfo.acceptUploadSize_others replicatorKey isReplicator]

theorem lastAcceptedReceiptSize_le (msg : RcptMessage) :
    channelInfo.lastAcceptedReceiptSize replicatorKey clientKey ≤
      (channelInfo.acceptUploadSize msg).1.lastAcceptedReceiptSize replicatorKey clientKey := by
  by_cases isReplicator : replicatorKey = msg.replicatorKey
  · subst isReplicator
    have fixed : ∀ client, channelInfo.lastAcceptedReceiptSize msg.replicatorKey client ≤
        ((channelInfo.fixedInfo msg).cell client).acceptedSize := by
      intro client
      exact ReplicatorUploadRequestInfo.acceptedSize_fix _ _ _
    have kept := fixed clientKey
    rcases channelInfo.acceptUploadSize_cases msg with
      ⟨-, after⟩ | ⟨-, -, after⟩ | ⟨newer, -, after⟩
    · rw [after, lastAcceptedReceiptSize, lastAcceptedReceiptSize, uploadRequestInfo_set, if_pos rfl,
        ReplicatorUploadRequestInfo.cell_withClient_eq]
      exact kept
    · rw [after, lastAcceptedReceiptSize, lastAcceptedReceiptSize, uploadRequestInfo_set, if_pos rfl,
        ReplicatorUploadRequestInfo.cell_saveNotAccepted,
        ReplicatorUploadRequestInfo.cell_withClient_eq,
        ReplicatorUploadRequestInfo.cell_withClient_eq]
      split
      · rename_i same
        rw [same.1] at kept ⊢
        exact kept
      · exact kept
    · rw [after, lastAcceptedReceiptSize, lastAcceptedReceiptSize, uploadRequestInfo_set, if_pos rfl,
        ReplicatorUploadRequestInfo.cell_save,
        ReplicatorUploadRequestInfo.cell_withClient_eq,
        ReplicatorUploadRequestInfo.cell_withClient_eq]
      split
      · rename_i same
        rw [← maxReceiptSize_fixedInfo, ReplicatorUploadRequestInfo.maxReceiptSize_eq] at newer
        rw [same] at kept ⊢
        simp only [lastAcceptedReceiptSize] at kept ⊢
        omega
      · exact kept
  · unfold lastAcceptedReceiptSize
    rw [channelInfo.acceptUploadSize_others replicatorKey isReplicator]

theorem counted_eq {msg : RcptMessage}
    (newer : channelInfo.lastReceiptSize msg < msg.downloadedSize) :
    channelInfo.counted msg = u64 (channelInfo.totalReceiptsSize +
      (msg.downloadedSize - channelInfo.lastReceiptSize msg)) := by
  have difference : msg.downloadedSize + 2 ^ 64 - channelInfo.lastReceiptSize msg =
      (msg.downloadedSize - channelInfo.lastReceiptSize msg) + 2 ^ 64 := by omega
  rw [counted, maxReceiptSize_fixedInfo, u64Sub, difference]
  simp only [u64, Nat.add_mod_right, Nat.add_mod_mod]

theorem acceptUploadSize_counter (msg : RcptMessage) :
    (channelInfo.acceptUploadSize msg).1.totalReceiptsSize =
      if channelInfo.lastReceiptSize msg < msg.downloadedSize then
        u64 (channelInfo.totalReceiptsSize +
          (msg.downloadedSize - channelInfo.lastReceiptSize msg))
      else channelInfo.totalReceiptsSize := by
  rcases channelInfo.acceptUploadSize_cases msg with
    ⟨old, after⟩ | ⟨newer, -, after⟩ | ⟨newer, -, after⟩
  · rw [after, totalReceiptsSize_set, if_neg (Nat.not_lt.mpr old)]
  · rw [after, totalReceiptsSize_set, if_pos newer, channelInfo.counted_eq newer]
  · rw [after, totalReceiptsSize_set, if_pos newer, channelInfo.counted_eq newer]

theorem maxReceiptSize_le_maxTotal :
    channelInfo.maxReceiptSize replicatorKey clientKey ≤ channelInfo.maxTotal :=
  ((channelInfo.uploadRequestInfo replicatorKey).maxReceiptSize_le_maxTotal clientKey).trans
    (channelInfo.uploadRequestInfo_maxTotal_le replicatorKey)

end DownloadChannelInfo

/-! ## Runs of receipts -/

/-- The largest receipt of a client for a replicator among the events. -/
def largestReceipt (replicatorKey : ReplicatorKey) (clientKey : ClientKey) :
    List ChannelEvent → Nat
  | [] => 0
  | .receipt msg :: events =>
      if replicatorKey = msg.replicatorKey ∧ clientKey = msg.clientKey then
        max msg.downloadedSize (largestReceipt replicatorKey clientKey events)
      else largestReceipt replicatorKey clientKey events
  | .increase _ :: events => largestReceipt replicatorKey clientKey events

theorem largestReceipt_le_iff {replicatorKey : ReplicatorKey} {clientKey : ClientKey} {bound : Nat}
    {events : List ChannelEvent} :
    largestReceipt replicatorKey clientKey events ≤ bound ↔
      ∀ msg, .receipt msg ∈ events → replicatorKey = msg.replicatorKey →
        clientKey = msg.clientKey → msg.downloadedSize ≤ bound := by
  induction events with
  | nil => simp [largestReceipt]
  | cons event events ih =>
      cases event with
      | increase size => simp [largestReceipt, ih]
      | receipt msg =>
          unfold largestReceipt
          split
          · rename_i same
            rw [Nat.max_le, ih]
            constructor
            · rintro ⟨here, later⟩ other member
              rcases List.mem_cons.mp member with equal | member
              · obtain rfl : other = msg := by simpa using equal
                intro _ _
                exact here
              · exact later other member
            · intro all
              exact ⟨all msg List.mem_cons_self same.1 same.2,
                fun other member => all other (List.mem_cons_of_mem _ member)⟩
          · rename_i apart
            rw [ih]
            constructor
            · intro later other member isReplicator isClient
              rcases List.mem_cons.mp member with equal | member
              · obtain rfl : other = msg := by simpa using equal
                exact absurd ⟨isReplicator, isClient⟩ apart
              · exact later other member isReplicator isClient
            · intro all other member
              exact all other (List.mem_cons_of_mem _ member)

/-- Neither the order nor the repetition of receipts changes the largest ones. -/
theorem largestReceipt_congr {replicatorKey : ReplicatorKey} {clientKey : ClientKey}
    {events others : List ChannelEvent}
    (same : ∀ msg, .receipt msg ∈ others ↔ .receipt msg ∈ events) :
    largestReceipt replicatorKey clientKey others = largestReceipt replicatorKey clientKey events := by
  apply Nat.le_antisymm
  · rw [largestReceipt_le_iff]
    intro msg member
    exact largestReceipt_le_iff.mp (Nat.le_refl _) msg ((same msg).mp member)
  · rw [largestReceipt_le_iff]
    intro msg member
    exact largestReceipt_le_iff.mp (Nat.le_refl _) msg ((same msg).mpr member)

section Counter

open DownloadChannelInfo

variable {channelInfo start : DownloadChannelInfo} {events : List ChannelEvent}

theorem maxReceiptSize_of_run (replicatorKey : ReplicatorKey) (clientKey : ClientKey)
    (run : channelSystem.exec start events = some channelInfo) :
    channelInfo.maxReceiptSize replicatorKey clientKey =
      max (start.maxReceiptSize replicatorKey clientKey)
        (largestReceipt replicatorKey clientKey events) := by
  induction events generalizing start with
  | nil =>
      obtain rfl : start = channelInfo := by simpa using run
      simp [largestReceipt]
  | cons event events ih =>
      obtain ⟨next, step, rest⟩ := channelSystem.exec_cons_iff.mp run
      rw [ih rest]
      cases event with
      | increase size =>
          obtain rfl : start.increaseChannelSize size = next := by
            simpa [channelSystem] using step
          rfl
      | receipt msg =>
          obtain rfl : (start.acceptUploadSize msg).1 = next := by
            simpa [channelSystem] using step
          rw [acceptUploadSize_maxReceiptSize, largestReceipt]
          split <;> omega

/-- The counter is the exact sum of the largest receipts, less the `lost` ones it
    never knew, modulo `2 ^ 64`. -/
def CountsModulo (lost : Nat) (channelInfo : DownloadChannelInfo) : Prop :=
  lost ≤ channelInfo.maxTotal ∧ channelInfo.totalReceiptsSize = u64 (channelInfo.maxTotal - lost)

theorem countsModulo_step {lost : Nat} {event : ChannelEvent} {after : DownloadChannelInfo}
    (counts : CountsModulo lost channelInfo)
    (step : channelSystem.step channelInfo event = some after) : CountsModulo lost after := by
  obtain ⟨covers, counted⟩ := counts
  cases event with
  | increase size =>
      obtain rfl : channelInfo.increaseChannelSize size = after := by
        simpa [channelSystem] using step
      exact ⟨covers, counted⟩
  | receipt msg =>
      obtain rfl : (channelInfo.acceptUploadSize msg).1 = after := by
        simpa [channelSystem] using step
      have largest := channelInfo.acceptUploadSize_maxTotal msg
      refine ⟨by omega, ?_⟩
      rw [acceptUploadSize_counter, largest, counted]
      split
      · have shift : channelInfo.maxTotal +
            (msg.downloadedSize - channelInfo.lastReceiptSize msg) - lost =
            (channelInfo.maxTotal - lost) +
              (msg.downloadedSize - channelInfo.lastReceiptSize msg) := by omega
        rw [shift]
        simp only [u64, Nat.mod_add_mod]
      · have nothing : msg.downloadedSize - channelInfo.lastReceiptSize msg = 0 := by omega
        rw [nothing, Nat.add_zero]

variable (publicKey : Key) (prepaidDownloadSize : Nat) (driveKey : Key)
  (replicatorsList : List ReplicatorKey) (clients : List ClientKey) (willBeSyncronized : Bool)

theorem addChannelInfo_countsModulo (backup : Option DownloadChannelInfo) :
    CountsModulo (addChannelInfo publicKey prepaidDownloadSize driveKey replicatorsList clients
        willBeSyncronized backup).maxTotal
      (addChannelInfo publicKey prepaidDownloadSize driveKey replicatorsList clients
        willBeSyncronized backup) := by
  refine ⟨Nat.le_refl _, ?_⟩
  rw [Nat.sub_self]
  cases backup with
  | none => rfl
  | some backup => rfl

/-- The counter of a new channel is the sum of the largest receipts modulo
    `2 ^ 64`, and depends on nothing but the set of receipts. -/
theorem receipts_counter_is_sum
    (run : channelSystem.exec (addChannelInfo publicKey prepaidDownloadSize driveKey
      replicatorsList clients willBeSyncronized none) events = some channelInfo) :
    channelInfo.totalReceiptsSize =
      (channelInfo.replicatorUploadRequestMap.sumOf fun replicatorKey info =>
        info.clientMap.sumOf fun clientKey _ =>
          channelInfo.maxReceiptSize replicatorKey clientKey) % 2 ^ 64 ∧
    (∀ replicatorKey clientKey, channelInfo.maxReceiptSize replicatorKey clientKey =
      largestReceipt replicatorKey clientKey events) ∧
    ∀ others other, (∀ msg, .receipt msg ∈ others ↔ .receipt msg ∈ events) →
      channelSystem.exec (addChannelInfo publicKey prepaidDownloadSize driveKey replicatorsList
        clients willBeSyncronized none) others = some other →
      other.totalReceiptsSize = channelInfo.totalReceiptsSize := by
  have fresh : (addChannelInfo publicKey prepaidDownloadSize driveKey replicatorsList clients
      willBeSyncronized none).maxTotal = 0 := addChannelInfo_totals _ _ _ _ _ _
  have counts : ∀ events channelInfo, channelSystem.exec (addChannelInfo publicKey
      prepaidDownloadSize driveKey replicatorsList clients willBeSyncronized none) events =
        some channelInfo → channelInfo.totalReceiptsSize = channelInfo.maxTotal % 2 ^ 64 := by
    intro events channelInfo run
    have base := addChannelInfo_countsModulo publicKey prepaidDownloadSize driveKey replicatorsList
      clients willBeSyncronized none
    rw [fresh] at base
    exact (Transition.invariant_of_step (fun _ _ _ counts step => countsModulo_step counts step)
      base run).2
  have largest : ∀ events channelInfo, channelSystem.exec (addChannelInfo publicKey
      prepaidDownloadSize driveKey replicatorsList clients willBeSyncronized none) events =
        some channelInfo → ∀ replicatorKey clientKey,
      channelInfo.maxReceiptSize replicatorKey clientKey =
        largestReceipt replicatorKey clientKey events := by
    intro events channelInfo run replicatorKey clientKey
    have nothing := (addChannelInfo publicKey prepaidDownloadSize driveKey replicatorsList clients
      willBeSyncronized none).maxReceiptSize_le_maxTotal replicatorKey clientKey
    rw [maxReceiptSize_of_run replicatorKey clientKey run]
    omega
  refine ⟨?_, largest events channelInfo run, ?_⟩
  · rw [← maxTotal_eq_sum]
    exact counts events channelInfo run
  · intro others other same otherRun
    rw [counts others other otherRun, counts events channelInfo run]
    congr 1
    apply maxTotal_congr
    intro replicatorKey clientKey
    rw [largest others other otherRun, largest events channelInfo run, largestReceipt_congr same]

/-! ## Receipts that wrap the counter -/

/-- The exact sum of the largest receipts once `msg` is one of them. -/
def DownloadChannelInfo.totalWith (channelInfo : DownloadChannelInfo) (msg : RcptMessage) : Nat :=
  channelInfo.maxTotal + (msg.downloadedSize - channelInfo.lastReceiptSize msg)

/-- `saveReceiptSize` stores the receipt. -/
def DownloadChannelInfo.Stores (channelInfo : DownloadChannelInfo) (msg : RcptMessage) : Prop :=
  channelInfo.lastReceiptSize msg < msg.downloadedSize ∧
    (channelInfo.acceptUploadSize msg).1.lastAcceptedReceiptSize msg.replicatorKey msg.clientKey =
      msg.downloadedSize

/-- The `uint64_t` addition of the event does not wrap. -/
def CounterFits (channelInfo : DownloadChannelInfo) : ChannelEvent → Prop
  | .receipt msg => channelInfo.lastReceiptSize msg < msg.downloadedSize →
      channelInfo.totalReceiptsSize + (msg.downloadedSize - channelInfo.lastReceiptSize msg) < 2 ^ 64
  | .increase _ => True

/-- No receipt is stored that takes the exact sum over the prepaid size. -/
def StoresWithinPrepaid (channelInfo : DownloadChannelInfo) : ChannelEvent → Prop
  | .receipt msg => channelInfo.Stores msg →
      channelInfo.totalWith msg ≤ channelInfo.prepaidDownloadSize
  | .increase _ => True

/-- The exact sum, less the `lost` receipts, stays below `2 ^ 64`. -/
def SumFits (lost : Nat) (channelInfo : DownloadChannelInfo) : ChannelEvent → Prop
  | .receipt msg => channelInfo.lastReceiptSize msg < msg.downloadedSize →
      channelInfo.totalWith msg - lost < 2 ^ 64
  | .increase _ => True

/-- A newer receipt whose exact sum, less the `lost` receipts, leaves at most the
    prepaid size modulo `2 ^ 64` is within the prepaid size. -/
def RemainderFits (lost : Nat) (channelInfo : DownloadChannelInfo) : ChannelEvent → Prop
  | .receipt msg => channelInfo.lastReceiptSize msg < msg.downloadedSize →
      (channelInfo.totalWith msg - lost) % 2 ^ 64 ≤ channelInfo.prepaidDownloadSize →
        channelInfo.totalWith msg ≤ channelInfo.prepaidDownloadSize
  | .increase _ => True

/-- A newer receipt that takes the exact sum to `2 ^ 64` or more leaves more than
    the prepaid size modulo `2 ^ 64`. -/
def WrapsAbovePrepaid (channelInfo : DownloadChannelInfo) : ChannelEvent → Prop
  | .receipt msg => channelInfo.lastReceiptSize msg < msg.downloadedSize →
      2 ^ 64 ≤ channelInfo.totalWith msg →
        channelInfo.prepaidDownloadSize < channelInfo.totalWith msg % 2 ^ 64
  | .increase _ => True

/-- A receipt is stored exactly when the counter does not exceed the prepaid size. -/
theorem stores_iff (msg : RcptMessage) :
    channelInfo.Stores msg ↔ channelInfo.lastReceiptSize msg < msg.downloadedSize ∧
      channelInfo.counted msg ≤ channelInfo.prepaidDownloadSize := by
  unfold Stores
  apply and_congr_right
  intro newer
  unfold lastAcceptedReceiptSize
  rcases channelInfo.acceptUploadSize_cases msg with
    ⟨old, -⟩ | ⟨-, exceeds, after⟩ | ⟨-, within, after⟩
  · omega
  · have cells := channelInfo.maxReceiptSize_fixedInfo msg
    rw [ReplicatorUploadRequestInfo.maxReceiptSize_eq] at cells
    rw [after, uploadRequestInfo_set, if_pos rfl, ReplicatorUploadRequestInfo.cell_saveNotAccepted,
      ReplicatorUploadRequestInfo.cell_withClient]
    constructor
    · intro accepted
      split at accepted
      · simp only at accepted
        omega
      · omega
    · intro within
      omega
  · rw [after, uploadRequestInfo_set, if_pos rfl, ReplicatorUploadRequestInfo.cell_save, if_pos rfl]
    exact iff_of_true rfl within

theorem storesWithinPrepaid_iff {lost : Nat} (counts : CountsModulo lost channelInfo)
    (event : ChannelEvent) :
    StoresWithinPrepaid channelInfo event ↔ RemainderFits lost channelInfo event := by
  cases event with
  | increase size => exact Iff.rfl
  | receipt msg =>
      obtain ⟨covers, counted⟩ := counts
      have value : channelInfo.lastReceiptSize msg < msg.downloadedSize →
          channelInfo.counted msg = (channelInfo.totalWith msg - lost) % 2 ^ 64 := by
        intro newer
        have shift : channelInfo.totalWith msg - lost = (channelInfo.maxTotal - lost) +
            (msg.downloadedSize - channelInfo.lastReceiptSize msg) := by
          rw [totalWith]
          omega
        rw [channelInfo.counted_eq newer, counted, shift]
        simp only [u64, Nat.mod_add_mod]
      simp only [StoresWithinPrepaid, RemainderFits, stores_iff]
      constructor
      · intro safe newer remainder
        rw [← value newer] at remainder
        exact safe ⟨newer, remainder⟩
      · rintro fits ⟨newer, remainder⟩
        rw [value newer] at remainder
        exact fits newer remainder

/-- The counter never wraps as long as the exact sum stays below `2 ^ 64`. -/
theorem counterFits_iff {lost : Nat} (covers : lost ≤ start.maxTotal)
    (counted : start.totalReceiptsSize = start.maxTotal - lost) :
    channelSystem.Meets CounterFits start events ↔
      channelSystem.Meets (SumFits lost) start events := by
  have same : ∀ (channelInfo : DownloadChannelInfo) event,
      lost ≤ channelInfo.maxTotal ∧ channelInfo.totalReceiptsSize = channelInfo.maxTotal - lost →
      (CounterFits channelInfo event ↔ SumFits lost channelInfo event) := by
    rintro channelInfo event ⟨covers, counted⟩
    cases event with
    | increase size => exact Iff.rfl
    | receipt msg =>
        unfold CounterFits SumFits totalWith
        apply imp_congr_right
        intro newer
        omega
  apply Transition.meets_iff_of_invariant same
  · rintro channelInfo event after ⟨covers, counted⟩ fits step
    cases event with
    | increase size =>
        obtain rfl : channelInfo.increaseChannelSize size = after := by
          simpa [channelSystem] using step
        exact ⟨covers, counted⟩
    | receipt msg =>
        obtain rfl : (channelInfo.acceptUploadSize msg).1 = after := by
          simpa [channelSystem] using step
        have largest := channelInfo.acceptUploadSize_maxTotal msg
        refine ⟨by omega, ?_⟩
        rw [acceptUploadSize_counter, largest]
        split
        · rename_i newer
          rw [u64_of_lt (fits newer)]
          omega
        · omega
  · exact ⟨covers, counted⟩

theorem remainderFits_iff_wrapsAbove (small : channelInfo.prepaidDownloadSize < 2 ^ 64)
    (event : ChannelEvent) :
    RemainderFits 0 channelInfo event ↔ WrapsAbovePrepaid channelInfo event := by
  cases event with
  | increase size => exact Iff.rfl
  | receipt msg =>
      simp only [RemainderFits, WrapsAbovePrepaid, Nat.sub_zero]
      apply imp_congr_right
      intro newer
      omega

/-- The counter wraps exactly when the exact sum of the largest receipts does not
    fit into 64 bits, and receipts over the prepaid size are stored exactly when
    the remainder of that sum is small enough to hide it. -/
theorem over_limit_receipts_iff (backup : Option DownloadChannelInfo) :
    let start := addChannelInfo publicKey prepaidDownloadSize driveKey replicatorsList clients
      willBeSyncronized backup
    (channelSystem.Meets CounterFits start events ↔
      channelSystem.Meets (SumFits start.maxTotal) start events) ∧
    (channelSystem.Meets StoresWithinPrepaid start events ↔
      channelSystem.Meets (RemainderFits start.maxTotal) start events) ∧
    (backup = none → prepaidDownloadSize < 2 ^ 64 →
      (channelSystem.Meets StoresWithinPrepaid start events ↔
        channelSystem.Meets WrapsAbovePrepaid start events)) := by
  intro start
  have counts : CountsModulo start.maxTotal start := addChannelInfo_countsModulo _ _ _ _ _ _ backup
  have stores : channelSystem.Meets StoresWithinPrepaid start events ↔
      channelSystem.Meets (RemainderFits start.maxTotal) start events :=
    Transition.meets_iff_of_invariant (fun _ event counts => storesWithinPrepaid_iff counts event)
      (fun _ _ _ counts _ step => countsModulo_step counts step) events counts
  refine ⟨?_, stores, ?_⟩
  · apply counterFits_iff (Nat.le_refl _)
    rw [Nat.sub_self]
    cases backup with
    | none => rfl
    | some backup => rfl
  · rintro rfl small
    have fresh : start.maxTotal = 0 := addChannelInfo_totals _ _ _ _ _ _
    rw [stores, fresh]
    have same : ∀ (channelInfo : DownloadChannelInfo) event,
        channelInfo.prepaidDownloadSize < 2 ^ 64 →
        (RemainderFits 0 channelInfo event ↔ WrapsAbovePrepaid channelInfo event) :=
      fun _ event small => remainderFits_iff_wrapsAbove small event
    apply Transition.meets_iff_of_invariant same
    · intro channelInfo event after small _ step
      cases event with
      | increase size =>
          obtain rfl : channelInfo.increaseChannelSize size = after := by
            simpa [channelSystem] using step
          exact u64_lt _
      | receipt msg =>
          obtain rfl : (channelInfo.acceptUploadSize msg).1 = after := by
            simpa [channelSystem] using step
          rw [acceptUploadSize_prepaid]
          exact small
    · exact small

end Counter

section Wrapping

open DownloadChannelInfo

instance (channelInfo : DownloadChannelInfo) (msg : RcptMessage) :
    Decidable (channelInfo.Stores msg) :=
  inferInstanceAs (Decidable (_ ∧ _))

instance (channelInfo : DownloadChannelInfo) :
    ∀ event, Decidable (StoresWithinPrepaid channelInfo event)
  | .receipt _ => inferInstanceAs (Decidable (_ → _))
  | .increase _ => inferInstanceAs (Decidable True)

instance (channelInfo : DownloadChannelInfo) : ∀ event, Decidable (CounterFits channelInfo event)
  | .receipt _ => inferInstanceAs (Decidable (_ → _))
  | .increase _ => inferInstanceAs (Decidable True)

/-- Receipts for two replicators in some order, one of them twice. -/
theorem receipts_counter_is_sum_two_replicators :
    ∃ channelInfo other,
      channelSystem.exec twoReplicators
        [.receipt ⟨5, 1, 30⟩, .receipt ⟨5, 2, 90⟩, .receipt ⟨5, 1, 30⟩] = some channelInfo ∧
      channelSystem.exec twoReplicators [.receipt ⟨5, 2, 90⟩, .receipt ⟨5, 1, 30⟩] = some other ∧
      other.totalReceiptsSize = channelInfo.totalReceiptsSize := by
  refine ⟨_, _, rfl, rfl, ?_⟩
  have sameSet : ∀ msg, ChannelEvent.receipt msg ∈
      [ChannelEvent.receipt ⟨5, 2, 90⟩, .receipt ⟨5, 1, 30⟩] ↔
      ChannelEvent.receipt msg ∈
        [ChannelEvent.receipt ⟨5, 1, 30⟩, .receipt ⟨5, 2, 90⟩, .receipt ⟨5, 1, 30⟩] := by
    intro msg
    simp only [List.mem_cons, List.not_mem_nil, or_false]
    tauto
  exact (receipts_counter_is_sum 9 100 8 [1, 2] [5] false rfl).2.2 _ _ sameSet rfl

/-- A receipt that is too large is only noted, the next one is stored. -/
theorem over_limit_receipts_iff_two_replicators :
    channelSystem.Meets StoresWithinPrepaid twoReplicators
        [.receipt ⟨5, 1, 2 ^ 64 - 1⟩, .receipt ⟨5, 2, 200⟩] ↔
      channelSystem.Meets WrapsAbovePrepaid twoReplicators
        [.receipt ⟨5, 1, 2 ^ 64 - 1⟩, .receipt ⟨5, 2, 200⟩] :=
  (over_limit_receipts_iff 9 100 8 [1, 2] [5] false none).2.2 rfl (by decide)

/-- The first receipt takes the counter to `2 ^ 64 - 1` and is noted; the second
    one wraps it to 49 and is stored, beside `2 ^ 64 + 49` bytes of receipts. -/
theorem wrapped_counter_stores_over_limit :
    ¬ channelSystem.Meets StoresWithinPrepaid twoReplicators
        [.receipt ⟨5, 1, 2 ^ 64 - 1⟩, .receipt ⟨5, 2, 50⟩] ∧
      ¬ channelSystem.Meets CounterFits twoReplicators
        [.receipt ⟨5, 1, 2 ^ 64 - 1⟩, .receipt ⟨5, 2, 50⟩] := by
  decide +kernel

end Wrapping

end SiriusDrive
