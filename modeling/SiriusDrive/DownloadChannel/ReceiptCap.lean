import SiriusDrive.DownloadChannel
import SiriusDrive.Lib.Transition

/-! # Accepted receipts and the prepaid size

`acceptUploadSize` compares the receipts of all replicators with the prepaid
size, but `tryFixReceiptSize`, which accepts the receipts noted earlier, looks
at the receipts for one replicator only. The accepted receipts of a channel
stay within the prepaid size exactly as long as no such promotion overshoots.
-/

namespace SiriusDrive

namespace ReplicatorUploadRequestInfo

variable (info : ReplicatorUploadRequestInfo) (clientKey : ClientKey) (size : Nat)

/-- The accepted receipts for this replicator, as an exact sum. -/
def acceptedTotal : Nat := info.clientMap.sumOf fun _ cell => cell.acceptedSize

/-- The largest receipts for this replicator, accepted or only noted. -/
def maxTotal : Nat := info.clientMap.sumOf fun _ cell => max cell.acceptedSize cell.notAcceptedSize

theorem totalReceiptSize_eq : info.totalReceiptSize = u64 info.maxTotal := by
  have weights : (fun (receiptSize : Nat) (_ : ClientKey) (cell : ReceiptSizes) =>
      if cell.notAcceptedSize > cell.acceptedSize then u64 (receiptSize + cell.notAcceptedSize)
      else u64 (receiptSize + cell.acceptedSize)) =
      fun receiptSize _ cell =>
        (receiptSize + max cell.acceptedSize cell.notAcceptedSize) % 2 ^ 64 := by
    funext receiptSize _ cell
    split
    · rw [max_eq_right (by omega), u64]
    · rw [max_eq_left (by omega), u64]
  rw [totalReceiptSize, weights, Std.TreeMap.foldl_add_mod _ _ (by decide), u64, maxTotal]

theorem maxReceiptSize_eq :
    info.maxReceiptSize clientKey =
      max (info.cell clientKey).acceptedSize (info.cell clientKey).notAcceptedSize := by
  simp only [maxReceiptSize]
  split <;> omega

theorem acceptedTotal_le_maxTotal : info.acceptedTotal ≤ info.maxTotal :=
  Std.TreeMap.sumOf_mono fun _ _ => le_max_left _ _

private theorem sum_with_cell (w : ReceiptSizes → Nat) (zero : w {} = 0) :
    info.clientMap.sumOf (fun _ cell => w cell) =
      info.clientMap.sumExcept clientKey (fun _ cell => w cell) + w (info.cell clientKey) := by
  rw [Std.TreeMap.sumOf_eq_sumExcept _ _ clientKey, cell]
  cases info.clientMap[clientKey]? with
  | none => simp [zero]
  | some found => rfl

/-! ## The cell inserted by a look-up -/

@[simp] theorem cell_withClient : (info.withClient clientKey).cell clientKey = info.cell clientKey := by
  simp only [cell, withClient, Std.TreeMap.getElem?_insertIfNew, Std.ReflCmp.compare_self, true_and]
  split
  · rename_i absent
    rw [Std.TreeMap.getElem?_eq_none absent]; rfl
  · rfl

@[simp] theorem acceptedTotal_withClient :
    (info.withClient clientKey).acceptedTotal = info.acceptedTotal :=
  Std.TreeMap.sumOf_insertIfNew _ rfl

@[simp] theorem maxTotal_withClient : (info.withClient clientKey).maxTotal = info.maxTotal :=
  Std.TreeMap.sumOf_insertIfNew _ rfl

@[simp] theorem maxReceiptSize_withClient :
    (info.withClient clientKey).maxReceiptSize clientKey = info.maxReceiptSize clientKey := by
  simp only [maxReceiptSize, cell_withClient]

theorem maxReceiptSize_le_maxTotal : info.maxReceiptSize clientKey ≤ info.maxTotal := by
  rw [maxReceiptSize_eq, maxTotal,
    info.sum_with_cell clientKey (fun cell => max cell.acceptedSize cell.notAcceptedSize) rfl]
  exact Nat.le_add_left _ _

/-! ## Storing a receipt -/

theorem acceptedTotal_save :
    (info.saveReceiptSize clientKey size).acceptedTotal + (info.cell clientKey).acceptedSize =
      info.acceptedTotal + size := by
  simp only [acceptedTotal, saveReceiptSize, Std.TreeMap.sumOf_insert]
  rw [info.sum_with_cell clientKey (fun cell => cell.acceptedSize) rfl]
  omega

theorem maxTotal_save (newer : info.maxReceiptSize clientKey < size) :
    (info.saveReceiptSize clientKey size).maxTotal + info.maxReceiptSize clientKey =
      info.maxTotal + size := by
  rw [maxReceiptSize_eq] at newer ⊢
  simp only [maxTotal, saveReceiptSize, Std.TreeMap.sumOf_insert]
  rw [info.sum_with_cell clientKey (fun cell => max cell.acceptedSize cell.notAcceptedSize) rfl]
  omega

theorem acceptedTotal_saveNotAccepted :
    (info.saveNotAcceptedReceiptSize clientKey size).acceptedTotal = info.acceptedTotal := by
  simp only [saveNotAcceptedReceiptSize]
  split
  · simp only [acceptedTotal, Std.TreeMap.sumOf_insert]
    rw [info.sum_with_cell clientKey (fun cell => cell.acceptedSize) rfl]
  · rfl

theorem maxTotal_saveNotAccepted (newer : info.maxReceiptSize clientKey < size) :
    (info.saveNotAcceptedReceiptSize clientKey size).maxTotal + info.maxReceiptSize clientKey =
      info.maxTotal + size := by
  rw [maxReceiptSize_eq] at newer ⊢
  have larger : (info.cell clientKey).notAcceptedSize < size := by omega
  simp only [saveNotAcceptedReceiptSize, if_pos larger, maxTotal, Std.TreeMap.sumOf_insert]
  rw [info.sum_with_cell clientKey (fun cell => max cell.acceptedSize cell.notAcceptedSize) rfl]
  omega

/-! ## Promotion -/

theorem acceptedTotal_fix (prepaidSize : Nat) :
    (info.tryFixReceiptSize prepaidSize).acceptedTotal =
      if info.totalReceiptSize ≤ prepaidSize then info.maxTotal else info.acceptedTotal := by
  simp only [tryFixReceiptSize, ge_iff_le]
  split
  · simp only [acceptedTotal, maxTotal, Std.TreeMap.sumOf_map]
    refine Std.TreeMap.sumOf_congr fun _ cell _ => ?_
    simp only [fixCell]
    split
    · simp only; omega
    · omega
  · rfl

@[simp] theorem maxTotal_fix (prepaidSize : Nat) :
    (info.tryFixReceiptSize prepaidSize).maxTotal = info.maxTotal := by
  simp only [tryFixReceiptSize]
  split
  · simp only [maxTotal, Std.TreeMap.sumOf_map]
    refine Std.TreeMap.sumOf_congr fun _ cell _ => ?_
    simp only [fixCell]
    split
    · simp only; omega
    · rfl
  · rfl

@[simp] theorem maxReceiptSize_fix (prepaidSize : Nat) :
    (info.tryFixReceiptSize prepaidSize).maxReceiptSize clientKey =
      info.maxReceiptSize clientKey := by
  rw [maxReceiptSize_eq, maxReceiptSize_eq, tryFixReceiptSize]
  split
  · simp only [cell, Std.TreeMap.getElem?_map]
    cases info.clientMap[clientKey]? with
    | none => rfl
    | some found =>
        simp only [Option.map_some, Option.getD_some, fixCell]
        split
        · simp only; omega
        · rfl
  · rfl

end ReplicatorUploadRequestInfo

/-- What happens to a channel: a receipt of any client for any replicator, or an
    increase of the prepaid size. -/
inductive ChannelEvent where
  | receipt (msg : RcptMessage)
  | increase (prepaidDownloadSize : Nat)
  deriving Repr, DecidableEq

/-- A download channel under receipts and increases. -/
def channelSystem : Transition DownloadChannelInfo ChannelEvent where
  step
    | channelInfo, .receipt msg => some (channelInfo.acceptUploadSize msg).1
    | channelInfo, .increase size => some (channelInfo.increaseChannelSize size)

namespace DownloadChannelInfo

variable (channelInfo : DownloadChannelInfo)

/-- The sum of all accepted receipts. -/
def acceptedTotal : Nat :=
  channelInfo.replicatorUploadRequestMap.sumOf fun _ info => info.acceptedTotal

/-- The sum of the largest receipts, accepted or only noted. -/
def maxTotal : Nat :=
  channelInfo.replicatorUploadRequestMap.sumOf fun _ info => info.maxTotal

def acceptedByOthers (replicatorKey : ReplicatorKey) : Nat :=
  channelInfo.replicatorUploadRequestMap.sumExcept replicatorKey fun _ info => info.acceptedTotal

theorem acceptedTotal_eq (replicatorKey : ReplicatorKey) :
    channelInfo.acceptedTotal = channelInfo.acceptedByOthers replicatorKey +
      (channelInfo.uploadRequestInfo replicatorKey).acceptedTotal := by
  rw [acceptedTotal, Std.TreeMap.sumOf_eq_sumExcept _ _ replicatorKey, uploadRequestInfo,
    acceptedByOthers]
  cases channelInfo.replicatorUploadRequestMap[replicatorKey]? <;> rfl

@[simp] theorem prepaidDownloadSize_set (replicatorKey : ReplicatorKey)
    (info : ReplicatorUploadRequestInfo) :
    (channelInfo.setUploadRequestInfo replicatorKey info).prepaidDownloadSize =
      channelInfo.prepaidDownloadSize := by
  simp only [setUploadRequestInfo]

@[simp] theorem totalReceiptsSize_set (replicatorKey : ReplicatorKey)
    (info : ReplicatorUploadRequestInfo) :
    (channelInfo.setUploadRequestInfo replicatorKey info).totalReceiptsSize =
      channelInfo.totalReceiptsSize := by
  simp only [setUploadRequestInfo]

theorem acceptedTotal_set (replicatorKey : ReplicatorKey) (info : ReplicatorUploadRequestInfo) :
    (channelInfo.setUploadRequestInfo replicatorKey info).acceptedTotal =
      channelInfo.acceptedByOthers replicatorKey + info.acceptedTotal :=
  Std.TreeMap.sumOf_insert _ _ _ _

theorem maxTotal_set (replicatorKey : ReplicatorKey) (info : ReplicatorUploadRequestInfo) :
    (channelInfo.setUploadRequestInfo replicatorKey info).maxTotal +
      (channelInfo.uploadRequestInfo replicatorKey).maxTotal =
      channelInfo.maxTotal + info.maxTotal := by
  rw [setUploadRequestInfo, maxTotal, Std.TreeMap.sumOf_insert, maxTotal,
    Std.TreeMap.sumOf_eq_sumExcept _ _ replicatorKey, uploadRequestInfo]
  cases channelInfo.replicatorUploadRequestMap[replicatorKey]? with
  | none => simp [ReplicatorUploadRequestInfo.maxTotal]
  | some found => simp only [Option.elim_some, Option.getD_some]; omega

theorem uploadRequestInfo_maxTotal_le (replicatorKey : ReplicatorKey) :
    (channelInfo.uploadRequestInfo replicatorKey).maxTotal ≤ channelInfo.maxTotal := by
  rw [maxTotal, Std.TreeMap.sumOf_eq_sumExcept _ _ replicatorKey, uploadRequestInfo]
  cases channelInfo.replicatorUploadRequestMap[replicatorKey]? with
  | none => simp [ReplicatorUploadRequestInfo.maxTotal]
  | some found => exact Nat.le_add_left _ _

theorem acceptedTotal_set_counter (total : Nat) (replicatorKey : ReplicatorKey)
    (info : ReplicatorUploadRequestInfo) :
    ({ channelInfo with totalReceiptsSize := total }.setUploadRequestInfo
        replicatorKey info).acceptedTotal =
      (channelInfo.setUploadRequestInfo replicatorKey info).acceptedTotal := by
  simp only [acceptedTotal, setUploadRequestInfo]

theorem maxTotal_set_counter (total : Nat) (replicatorKey : ReplicatorKey)
    (info : ReplicatorUploadRequestInfo) :
    ({ channelInfo with totalReceiptsSize := total }.setUploadRequestInfo
        replicatorKey info).maxTotal =
      (channelInfo.setUploadRequestInfo replicatorKey info).maxTotal := by
  simp only [maxTotal, setUploadRequestInfo]

theorem acceptedTotal_le_maxTotal : channelInfo.acceptedTotal ≤ channelInfo.maxTotal :=
  Std.TreeMap.sumOf_mono fun _ info => info.acceptedTotal_le_maxTotal

/-- The receipts of the replicator `msg` is for, after `tryFixReceiptSize`. -/
def fixedInfo (msg : RcptMessage) : ReplicatorUploadRequestInfo :=
  (channelInfo.uploadRequestInfo msg.replicatorKey).tryFixReceiptSize
    channelInfo.prepaidDownloadSize

/-- The largest receipt so far of the client and the replicator of `msg`. -/
def lastReceiptSize (msg : RcptMessage) : Nat :=
  (channelInfo.uploadRequestInfo msg.replicatorKey).maxReceiptSize msg.clientKey

/-- Where a promotion takes place, the receipts for all replicators still fit. -/
def PromotionFits (msg : RcptMessage) : Prop :=
  (channelInfo.uploadRequestInfo msg.replicatorKey).totalReceiptSize ≤
      channelInfo.prepaidDownloadSize →
    channelInfo.acceptedByOthers msg.replicatorKey +
        (channelInfo.uploadRequestInfo msg.replicatorKey).totalReceiptSize ≤
      channelInfo.prepaidDownloadSize

/-- Where `m_totalReceiptsSize` lets a new receipt in, it fits beside the accepted
    receipts of the other replicators and clients. -/
def AcceptanceFits (msg : RcptMessage) : Prop :=
  channelInfo.lastReceiptSize msg < msg.downloadedSize →
  channelInfo.totalReceiptsSize + (msg.downloadedSize - channelInfo.lastReceiptSize msg) ≤
      channelInfo.prepaidDownloadSize →
    channelInfo.acceptedByOthers msg.replicatorKey + (channelInfo.fixedInfo msg).acceptedTotal +
        msg.downloadedSize ≤
      channelInfo.prepaidDownloadSize +
        ((channelInfo.fixedInfo msg).cell msg.clientKey).acceptedSize

instance (msg : RcptMessage) : Decidable (channelInfo.PromotionFits msg) :=
  inferInstanceAs (Decidable (_ → _))

instance (msg : RcptMessage) : Decidable (channelInfo.AcceptanceFits msg) :=
  inferInstanceAs (Decidable (_ → _))

/-- The three things `acceptUploadSize` does with a receipt, as sums. -/
inductive Accounted (msg : RcptMessage) (after : DownloadChannelInfo) : Prop where
  /-- An old receipt is skipped. -/
  | skipped (old : msg.downloadedSize ≤ channelInfo.lastReceiptSize msg)
      (accepted : after.acceptedTotal = channelInfo.acceptedByOthers msg.replicatorKey +
        (channelInfo.fixedInfo msg).acceptedTotal)
      (largest : after.maxTotal = channelInfo.maxTotal)
      (counted : after.totalReceiptsSize = channelInfo.totalReceiptsSize)
  /-- The counter exceeds the prepaid size and the receipt is only noted. -/
  | noted (newer : channelInfo.lastReceiptSize msg < msg.downloadedSize)
      (exceeds : channelInfo.prepaidDownloadSize < after.totalReceiptsSize)
      (accepted : after.acceptedTotal = channelInfo.acceptedByOthers msg.replicatorKey +
        (channelInfo.fixedInfo msg).acceptedTotal)
      (largest : after.maxTotal =
        channelInfo.maxTotal + (msg.downloadedSize - channelInfo.lastReceiptSize msg))
      (counted : after.totalReceiptsSize =
        channelInfo.totalReceiptsSize + (msg.downloadedSize - channelInfo.lastReceiptSize msg))
  /-- The receipt is accepted. -/
  | stored (newer : channelInfo.lastReceiptSize msg < msg.downloadedSize)
      (within : after.totalReceiptsSize ≤ channelInfo.prepaidDownloadSize)
      (accepted : after.acceptedTotal + ((channelInfo.fixedInfo msg).cell msg.clientKey).acceptedSize =
        channelInfo.acceptedByOthers msg.replicatorKey +
          (channelInfo.fixedInfo msg).acceptedTotal + msg.downloadedSize)
      (largest : after.maxTotal =
        channelInfo.maxTotal + (msg.downloadedSize - channelInfo.lastReceiptSize msg))
      (counted : after.totalReceiptsSize =
        channelInfo.totalReceiptsSize + (msg.downloadedSize - channelInfo.lastReceiptSize msg))

/-- No 64-bit sum wraps when the event is processed. -/
def Exact (channelInfo : DownloadChannelInfo) : ChannelEvent → Prop
  | .receipt msg =>
      channelInfo.maxTotal + (msg.downloadedSize - channelInfo.lastReceiptSize msg) < 2 ^ 64
  | .increase size => channelInfo.prepaidDownloadSize + size < 2 ^ 64

instance (channelInfo : DownloadChannelInfo) : ∀ event, Decidable (Exact channelInfo event)
  | .receipt _ => inferInstanceAs (Decidable (_ < _))
  | .increase _ => inferInstanceAs (Decidable (_ < _))

variable {channelInfo}

/-- The value `acceptUploadSize` gives to `m_totalReceiptsSize`. -/
def counted (channelInfo : DownloadChannelInfo) (msg : RcptMessage) : Nat :=
  u64 (channelInfo.totalReceiptsSize +
    u64Sub msg.downloadedSize ((channelInfo.fixedInfo msg).maxReceiptSize msg.clientKey))

theorem acceptUploadSize_old {msg : RcptMessage}
    (old : msg.downloadedSize ≤ (channelInfo.fixedInfo msg).maxReceiptSize msg.clientKey) :
    (channelInfo.acceptUploadSize msg).1 =
      channelInfo.setUploadRequestInfo msg.replicatorKey
        ((channelInfo.fixedInfo msg).withClient msg.clientKey) := by
  unfold acceptUploadSize
  extract_lets fixed last info
  rw [if_pos (show msg.downloadedSize ≤ last from old)]
  rfl

theorem acceptUploadSize_noted {msg : RcptMessage}
    (newer : ¬ msg.downloadedSize ≤ (channelInfo.fixedInfo msg).maxReceiptSize msg.clientKey)
    (exceeds : channelInfo.prepaidDownloadSize < counted channelInfo msg) :
    (channelInfo.acceptUploadSize msg).1 =
      { channelInfo with totalReceiptsSize := counted channelInfo msg }.setUploadRequestInfo
        msg.replicatorKey (((channelInfo.fixedInfo msg).withClient
          msg.clientKey).saveNotAcceptedReceiptSize msg.clientKey msg.downloadedSize) := by
  unfold acceptUploadSize
  extract_lets fixed last info total channelInfo'
  rw [if_neg (show ¬ msg.downloadedSize ≤ last from newer),
    if_pos (show total > channelInfo'.prepaidDownloadSize from exceeds)]
  rfl

theorem acceptUploadSize_stored {msg : RcptMessage}
    (newer : ¬ msg.downloadedSize ≤ (channelInfo.fixedInfo msg).maxReceiptSize msg.clientKey)
    (within : ¬ channelInfo.prepaidDownloadSize < counted channelInfo msg) :
    (channelInfo.acceptUploadSize msg).1 =
      { channelInfo with totalReceiptsSize := counted channelInfo msg }.setUploadRequestInfo
        msg.replicatorKey (((channelInfo.fixedInfo msg).withClient
          msg.clientKey).saveReceiptSize msg.clientKey msg.downloadedSize) := by
  unfold acceptUploadSize
  extract_lets fixed last info total channelInfo'
  rw [if_neg (show ¬ msg.downloadedSize ≤ last from newer),
    if_neg (show ¬ total > channelInfo'.prepaidDownloadSize from within)]
  rfl

@[simp] theorem acceptUploadSize_prepaid (msg : RcptMessage) :
    (channelInfo.acceptUploadSize msg).1.prepaidDownloadSize = channelInfo.prepaidDownloadSize := by
  by_cases old : msg.downloadedSize ≤ (channelInfo.fixedInfo msg).maxReceiptSize msg.clientKey
  · rw [acceptUploadSize_old old, prepaidDownloadSize_set]
  · by_cases exceeds : channelInfo.prepaidDownloadSize < counted channelInfo msg
    · rw [acceptUploadSize_noted old exceeds, prepaidDownloadSize_set]
    · rw [acceptUploadSize_stored old exceeds, prepaidDownloadSize_set]

@[simp] theorem maxReceiptSize_fixedInfo (msg : RcptMessage) :
    (channelInfo.fixedInfo msg).maxReceiptSize msg.clientKey = channelInfo.lastReceiptSize msg := by
  rw [fixedInfo, ReplicatorUploadRequestInfo.maxReceiptSize_fix, lastReceiptSize]

@[simp] theorem maxTotal_fixedInfo (msg : RcptMessage) :
    (channelInfo.fixedInfo msg).maxTotal =
      (channelInfo.uploadRequestInfo msg.replicatorKey).maxTotal := by
  rw [fixedInfo, ReplicatorUploadRequestInfo.maxTotal_fix]

theorem lastReceiptSize_le_maxTotal (msg : RcptMessage) :
    channelInfo.lastReceiptSize msg ≤ channelInfo.maxTotal :=
  ((channelInfo.uploadRequestInfo msg.replicatorKey).maxReceiptSize_le_maxTotal
    msg.clientKey).trans (channelInfo.uploadRequestInfo_maxTotal_le msg.replicatorKey)

/-- The sum of the largest receipts grows by what the receipt adds to the last one. -/
theorem acceptUploadSize_maxTotal (msg : RcptMessage) :
    (channelInfo.acceptUploadSize msg).1.maxTotal =
      channelInfo.maxTotal + (msg.downloadedSize - channelInfo.lastReceiptSize msg) := by
  have setTotal := fun info => channelInfo.maxTotal_set msg.replicatorKey info
  by_cases old : msg.downloadedSize ≤ (channelInfo.fixedInfo msg).maxReceiptSize msg.clientKey
  · rw [acceptUploadSize_old old]
    rw [maxReceiptSize_fixedInfo] at old
    have total := setTotal ((channelInfo.fixedInfo msg).withClient msg.clientKey)
    rw [ReplicatorUploadRequestInfo.maxTotal_withClient, maxTotal_fixedInfo] at total
    omega
  · have newer : ((channelInfo.fixedInfo msg).withClient msg.clientKey).maxReceiptSize
        msg.clientKey < msg.downloadedSize := by
      rw [ReplicatorUploadRequestInfo.maxReceiptSize_withClient]
      exact Nat.lt_of_not_le old
    by_cases exceeds : channelInfo.prepaidDownloadSize < counted channelInfo msg
    · rw [acceptUploadSize_noted old exceeds, maxTotal_set_counter]
      have total := setTotal (((channelInfo.fixedInfo msg).withClient
        msg.clientKey).saveNotAcceptedReceiptSize msg.clientKey msg.downloadedSize)
      have inner := ReplicatorUploadRequestInfo.maxTotal_saveNotAccepted _ _ _ newer
      rw [ReplicatorUploadRequestInfo.maxReceiptSize_withClient, maxReceiptSize_fixedInfo,
        ReplicatorUploadRequestInfo.maxTotal_withClient, maxTotal_fixedInfo] at inner
      rw [maxReceiptSize_fixedInfo] at old
      omega
    · rw [acceptUploadSize_stored old exceeds, maxTotal_set_counter]
      have total := setTotal (((channelInfo.fixedInfo msg).withClient
        msg.clientKey).saveReceiptSize msg.clientKey msg.downloadedSize)
      have inner := ReplicatorUploadRequestInfo.maxTotal_save _ _ _ newer
      rw [ReplicatorUploadRequestInfo.maxReceiptSize_withClient, maxReceiptSize_fixedInfo,
        ReplicatorUploadRequestInfo.maxTotal_withClient, maxTotal_fixedInfo] at inner
      rw [maxReceiptSize_fixedInfo] at old
      omega

theorem acceptUploadSize_accounted {msg : RcptMessage}
    (covered : channelInfo.totalReceiptsSize ≤ channelInfo.maxTotal)
    (noWrap : Exact channelInfo (.receipt msg)) :
    channelInfo.Accounted msg (channelInfo.acceptUploadSize msg).1 := by
  have last := channelInfo.maxReceiptSize_fixedInfo msg
  have largest := channelInfo.acceptUploadSize_maxTotal msg
  have bound : channelInfo.maxTotal + (msg.downloadedSize - channelInfo.lastReceiptSize msg) <
      2 ^ 64 := noWrap
  by_cases old : msg.downloadedSize ≤ (channelInfo.fixedInfo msg).maxReceiptSize msg.clientKey
  · rw [acceptUploadSize_old old] at largest ⊢
    refine .skipped (last ▸ old) ?_ (by omega) (totalReceiptsSize_set _ _ _)
    rw [acceptedTotal_set, ReplicatorUploadRequestInfo.acceptedTotal_withClient]
  · have lastLe := channelInfo.lastReceiptSize_le_maxTotal msg
    have newer : channelInfo.lastReceiptSize msg < msg.downloadedSize := by omega
    have count : counted channelInfo msg = channelInfo.totalReceiptsSize +
        (msg.downloadedSize - channelInfo.lastReceiptSize msg) := by
      rw [counted, last, u64Sub_of_le newer.le (by omega), u64_of_lt (by omega)]
    by_cases exceeds : channelInfo.prepaidDownloadSize < counted channelInfo msg
    · rw [acceptUploadSize_noted old exceeds] at largest ⊢
      refine .noted newer ?_ ?_ largest ?_
      · rw [totalReceiptsSize_set]; exact exceeds
      · rw [acceptedTotal_set_counter, acceptedTotal_set,
          ReplicatorUploadRequestInfo.acceptedTotal_saveNotAccepted,
          ReplicatorUploadRequestInfo.acceptedTotal_withClient]
      · rw [totalReceiptsSize_set]; exact count
    · have innerAccepted := ReplicatorUploadRequestInfo.acceptedTotal_save
        ((channelInfo.fixedInfo msg).withClient msg.clientKey) msg.clientKey msg.downloadedSize
      rw [ReplicatorUploadRequestInfo.cell_withClient,
        ReplicatorUploadRequestInfo.acceptedTotal_withClient] at innerAccepted
      rw [acceptUploadSize_stored old exceeds] at largest ⊢
      refine .stored newer ?_ ?_ largest ?_
      · rw [totalReceiptsSize_set]; exact Nat.le_of_not_lt exceeds
      · rw [acceptedTotal_set_counter, acceptedTotal_set]; omega
      · rw [totalReceiptsSize_set]; exact count

/-! ## The cap -/

/-- The accepted receipts are within the prepaid size. -/
def WithinPrepaid (channelInfo : DownloadChannelInfo) : Prop :=
  channelInfo.acceptedTotal ≤ channelInfo.prepaidDownloadSize

instance : DecidablePred WithinPrepaid := fun channelInfo =>
  inferInstanceAs (Decidable (channelInfo.acceptedTotal ≤ channelInfo.prepaidDownloadSize))

/-- The accepted receipts for the replicator of `msg` once promotion was tried. -/
theorem acceptedTotal_fixedInfo {msg : RcptMessage}
    (noWrap : channelInfo.maxTotal < 2 ^ 64) :
    (channelInfo.fixedInfo msg).acceptedTotal =
      if (channelInfo.uploadRequestInfo msg.replicatorKey).totalReceiptSize ≤
          channelInfo.prepaidDownloadSize
      then (channelInfo.uploadRequestInfo msg.replicatorKey).totalReceiptSize
      else (channelInfo.uploadRequestInfo msg.replicatorKey).acceptedTotal := by
  have total : (channelInfo.uploadRequestInfo msg.replicatorKey).totalReceiptSize =
      (channelInfo.uploadRequestInfo msg.replicatorKey).maxTotal := by
    have le := channelInfo.uploadRequestInfo_maxTotal_le msg.replicatorKey
    rw [ReplicatorUploadRequestInfo.totalReceiptSize_eq, u64_of_lt (by omega)]
  rw [fixedInfo, ReplicatorUploadRequestInfo.acceptedTotal_fix, total]

theorem promotion_within_iff {msg : RcptMessage} (noWrap : channelInfo.maxTotal < 2 ^ 64)
    (within : channelInfo.WithinPrepaid) :
    channelInfo.acceptedByOthers msg.replicatorKey + (channelInfo.fixedInfo msg).acceptedTotal ≤
      channelInfo.prepaidDownloadSize ↔ channelInfo.PromotionFits msg := by
  have split := channelInfo.acceptedTotal_eq msg.replicatorKey
  rw [acceptedTotal_fixedInfo noWrap, PromotionFits]
  simp only [WithinPrepaid] at within
  split
  · rename_i promoted
    simp only [promoted, true_implies]
  · rename_i kept
    simp only [kept, false_implies, iff_true]
    omega

def PromotionsFit (channelInfo : DownloadChannelInfo) : ChannelEvent → Prop
  | .receipt msg => channelInfo.PromotionFits msg
  | .increase _ => True

/-- Every promotion fits and so does every accepted receipt. -/
def ReceiptsFit (channelInfo : DownloadChannelInfo) : ChannelEvent → Prop
  | .receipt msg => channelInfo.PromotionFits msg ∧ channelInfo.AcceptanceFits msg
  | .increase _ => True

theorem withinPrepaid_step_iff {event : ChannelEvent} {after : DownloadChannelInfo}
    (covered : channelInfo.totalReceiptsSize ≤ channelInfo.maxTotal)
    (within : channelInfo.WithinPrepaid) (noWrap : Exact channelInfo event)
    (step : channelSystem.step channelInfo event = some after) :
    (after.WithinPrepaid ↔ ReceiptsFit channelInfo event) ∧
      after.totalReceiptsSize ≤ after.maxTotal := by
  cases event with
  | increase size =>
      obtain rfl : channelInfo.increaseChannelSize size = after := by simpa [channelSystem] using step
      have grown : (channelInfo.increaseChannelSize size).prepaidDownloadSize =
          channelInfo.prepaidDownloadSize + size := by
        rw [increaseChannelSize, u64_of_lt noWrap]
      refine ⟨⟨fun _ => trivial, fun _ => ?_⟩, covered⟩
      simp only [WithinPrepaid, grown]
      exact within.trans (Nat.le_add_right _ _)
  | receipt msg =>
      obtain rfl : (channelInfo.acceptUploadSize msg).1 = after := by
        simpa [channelSystem] using step
      have small : channelInfo.maxTotal < 2 ^ 64 := Nat.lt_of_le_of_lt (Nat.le_add_right _ _) noWrap
      have promotion : channelInfo.acceptedByOthers msg.replicatorKey +
          (channelInfo.fixedInfo msg).acceptedTotal ≤ channelInfo.prepaidDownloadSize ↔
            channelInfo.PromotionFits msg := promotion_within_iff small within
      simp only [ReceiptsFit, WithinPrepaid, acceptUploadSize_prepaid]
      rw [← promotion, AcceptanceFits]
      cases acceptUploadSize_accounted covered noWrap with
      | skipped old accepted largest counted =>
          refine ⟨⟨fun le => ⟨by omega, fun newer => absurd newer (by omega)⟩,
            fun fits => by omega⟩, by omega⟩
      | noted newer exceeds accepted largest counted =>
          refine ⟨⟨fun le => ⟨by omega, fun _ passes => absurd passes (by omega)⟩,
            fun fits => by omega⟩, by omega⟩
      | stored newer passes accepted largest counted =>
          have cellLe : ((channelInfo.fixedInfo msg).cell msg.clientKey).acceptedSize ≤
              channelInfo.lastReceiptSize msg := by
            rw [lastReceiptSize, ← ReplicatorUploadRequestInfo.maxReceiptSize_fix _ _
              channelInfo.prepaidDownloadSize, ReplicatorUploadRequestInfo.maxReceiptSize_eq]
            exact le_max_left _ _
          refine ⟨⟨fun le => ⟨by omega, fun _ _ => by omega⟩, fun fits => ?_⟩, by omega⟩
          have := fits.2 newer (by omega)
          omega

/-- Where the counter knows all receipts, its test is enough for acceptance. -/
theorem acceptanceFits_of_counted {msg : RcptMessage}
    (counted : channelInfo.totalReceiptsSize = channelInfo.maxTotal)
    (noWrap : Exact channelInfo (.receipt msg)) : channelInfo.AcceptanceFits msg := by
  intro newer passes
  cases acceptUploadSize_accounted counted.le noWrap with
  | skipped old => exact absurd newer (by omega)
  | noted _ exceeds _ _ total => exact absurd exceeds (by omega)
  | stored _ _ accepted largest total =>
      have le := (channelInfo.acceptUploadSize msg).1.acceptedTotal_le_maxTotal
      omega

theorem counted_step {event : ChannelEvent} {after : DownloadChannelInfo}
    (counted : channelInfo.totalReceiptsSize = channelInfo.maxTotal)
    (noWrap : Exact channelInfo event)
    (step : channelSystem.step channelInfo event = some after) :
    after.totalReceiptsSize = after.maxTotal := by
  cases event with
  | increase size =>
      obtain rfl : channelInfo.increaseChannelSize size = after := by simpa [channelSystem] using step
      exact counted
  | receipt msg =>
      obtain rfl : (channelInfo.acceptUploadSize msg).1 = after := by
        simpa [channelSystem] using step
      cases acceptUploadSize_accounted counted.le noWrap <;> omega

/-- The cap holds along a run exactly when it holds at its start and every
    receipt on the way fits. -/
theorem always_withinPrepaid_iff (es : List ChannelEvent)
    (covered : channelInfo.totalReceiptsSize ≤ channelInfo.maxTotal)
    (noWrap : channelSystem.Meets Exact channelInfo es) :
    channelSystem.Always WithinPrepaid channelInfo es ↔
      channelInfo.WithinPrepaid ∧ channelSystem.Meets ReceiptsFit channelInfo es := by
  have runs : channelInfo.WithinPrepaid →
      (channelSystem.Always WithinPrepaid channelInfo es ↔
        channelSystem.Meets ReceiptsFit channelInfo es) := fun within =>
    Transition.always_iff_meets (P := WithinPrepaid)
      (I := fun c => c.WithinPrepaid ∧ c.totalReceiptsSize ≤ c.maxTotal)
      (fun _ inv => inv.1)
      (fun _ _ _ inv exact_ fits step =>
        have spec := withinPrepaid_step_iff inv.2 inv.1 exact_ step
        ⟨spec.1.mpr fits, spec.2⟩)
      (fun c event inv exact_ misses => by
        obtain ⟨after, step⟩ : ∃ after, channelSystem.step c event = some after := by
          cases event <;> exact ⟨_, rfl⟩
        exact ⟨after, step, fun within =>
          misses ((withinPrepaid_step_iff inv.2 inv.1 exact_ step).1.mp within)⟩)
      es ⟨within, covered⟩ noWrap
  constructor
  · intro always
    exact ⟨always.head, (runs always.head).mp always⟩
  · rintro ⟨within, meets⟩
    exact (runs within).mpr meets

theorem receiptsFit_iff_of_counted (es : List ChannelEvent)
    (counted : channelInfo.totalReceiptsSize = channelInfo.maxTotal)
    (noWrap : channelSystem.Meets Exact channelInfo es) :
    channelSystem.Meets ReceiptsFit channelInfo es ↔
      channelSystem.Meets PromotionsFit channelInfo es := by
  induction es generalizing channelInfo with
  | nil => exact Iff.rfl
  | cons event es ih =>
      have here : ReceiptsFit channelInfo event ↔ PromotionsFit channelInfo event := by
        cases event with
        | increase => exact Iff.rfl
        | receipt msg =>
            exact and_iff_left (acceptanceFits_of_counted counted noWrap.1)
      refine and_congr here (forall_congr' fun after => imp_congr_right fun step => ?_)
      exact ih (counted_step counted noWrap.1 step) (noWrap.2 after step)

private theorem sum_initial (w : ReplicatorKey → ReplicatorUploadRequestInfo → Nat)
    (zero : ∀ key, w key {} = 0) (keys : List ReplicatorKey)
    (t : Std.TreeMap ReplicatorKey ReplicatorUploadRequestInfo) :
    (keys.foldl (fun map key => map.insertIfNew key {}) t).sumOf w = t.sumOf w := by
  induction keys generalizing t with
  | nil => rfl
  | cons key keys ih => rw [List.foldl_cons, ih, Std.TreeMap.sumOf_insertIfNew _ (zero key)]

theorem addChannelInfo_totals (publicKey : Key) (prepaidDownloadSize : Nat) (driveKey : Key)
    (replicatorsList : List ReplicatorKey) (clients : List ClientKey) (willBeSyncronized : Bool) :
    (addChannelInfo publicKey prepaidDownloadSize driveKey replicatorsList clients
      willBeSyncronized none).maxTotal = 0 := by
  simp only [addChannelInfo, maxTotal]
  rw [sum_initial _ (fun _ => rfl)]
  rfl

end DownloadChannelInfo

section Cap

open DownloadChannelInfo

variable (publicKey : Key) (prepaidDownloadSize : Nat) (driveKey : Key)
  (replicatorsList : List ReplicatorKey) (clients : List ClientKey) (willBeSyncronized : Bool)

/-- The accepted receipts of a channel never exceed its prepaid size exactly when
    no promotion and, after a restart, no accepted receipt overshoots. -/
theorem accepted_receipts_within_prepaid_iff (backup : Option DownloadChannelInfo)
    (es : List ChannelEvent)
    (noWrap : channelSystem.Meets Exact
      (addChannelInfo publicKey prepaidDownloadSize driveKey replicatorsList clients
        willBeSyncronized backup) es) :
    let start := addChannelInfo publicKey prepaidDownloadSize driveKey replicatorsList clients
      willBeSyncronized backup
    (channelSystem.Always WithinPrepaid start es ↔
      start.WithinPrepaid ∧ channelSystem.Meets ReceiptsFit start es) ∧
    (backup = none →
      (channelSystem.Always WithinPrepaid start es ↔
        channelSystem.Meets PromotionsFit start es)) := by
  intro start
  have zero : start.totalReceiptsSize = 0 := by cases backup <;> rfl
  have general := always_withinPrepaid_iff es (zero ▸ Nat.zero_le _) noWrap
  refine ⟨general, ?_⟩
  rintro rfl
  have none_ : start.maxTotal = 0 := addChannelInfo_totals _ _ _ _ _ _
  have within : start.WithinPrepaid := by
    have le := start.acceptedTotal_le_maxTotal
    simp only [WithinPrepaid]
    omega
  rw [general, receiptsFit_iff_of_counted es (zero.trans none_.symm) noWrap]
  exact and_iff_right within

end Cap

section Overshoot

open DownloadChannelInfo

instance (channelInfo : DownloadChannelInfo) : ∀ event, Decidable (PromotionsFit channelInfo event)
  | .receipt msg => inferInstanceAs (Decidable (channelInfo.PromotionFits msg))
  | .increase _ => inferInstanceAs (Decidable True)

/-- A channel of two other replicators with one client and 100 prepaid bytes. -/
def twoReplicators : DownloadChannelInfo := addChannelInfo 9 100 8 [1, 2] [5] false none

/-- Receipts for both replicators, of which the second is repeated. -/
def repeatedReceipt : List ChannelEvent :=
  [.receipt ⟨5, 1, 80⟩, .receipt ⟨5, 2, 50⟩, .receipt ⟨5, 2, 50⟩]

theorem accepted_receipts_within_prepaid_iff_two_replicators :
    channelSystem.Always WithinPrepaid twoReplicators [.receipt ⟨5, 1, 80⟩, .receipt ⟨5, 2, 20⟩] ↔
      channelSystem.Meets PromotionsFit twoReplicators
        [.receipt ⟨5, 1, 80⟩, .receipt ⟨5, 2, 20⟩] :=
  (accepted_receipts_within_prepaid_iff 9 100 8 [1, 2] [5] false none
    [.receipt ⟨5, 1, 80⟩, .receipt ⟨5, 2, 20⟩] (by decide +kernel)).2 rfl

/-- The second receipt does not fit and is only noted; repeated, it is promoted
    since it alone is below the prepaid size: 130 bytes are accepted of 100. -/
theorem repeated_receipt_exceeds_prepaid :
    channelSystem.Meets Exact twoReplicators repeatedReceipt ∧
      ¬ channelSystem.Always WithinPrepaid twoReplicators repeatedReceipt := by
  decide +kernel

end Overshoot

end SiriusDrive
