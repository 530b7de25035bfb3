import SiriusDrive.Lib.SparseCells
import SiriusDrive.StreamTask.Approvals

/-! # The chunk infos of a stream and the requests for them

`acceptChunkInfoMessage` puts the messages of the streamer into the cells of a list, in
whatever order they come. `acceptGetChunksInfoMessage` answers with the messages from a
requested index on. Its indices have 32 bits, so the end of a sequence that includes the
last index is 0.
-/

namespace SiriusDrive

def MAX_SEQUENCE_SIZE : BitVec 32 := 5

def MAX_CHUNKS_DURATION_MS : BitVec 32 := 10000

/-- The replies to `get-chunks-info`. -/
inductive ChunksInfoReply where
  /-- So far the requested chunk info is not there. -/
  | empty
  /-- The answer about another stream. -/
  | streamIsEnded (word : BitVec 32)
  /-- `chunkNumber` is announced, then the chunk infos follow; a cell without one would be
      a null dereference. -/
  | chunkInfos (requestedIndex chunkNumber : BitVec 32) (infos : List (Option ChunkInfo))
  deriving Repr, DecidableEq

/-- A reply with chunk infos has the announced number of them: those from the requested index on. -/
def ChunksInfoReply.IsRun (infos : List ChunkInfo) (requestedIndex : BitVec 32) :
    ChunksInfoReply → Prop
  | .chunkInfos index chunkNumber sent =>
      index = requestedIndex ∧ sent ≠ [] ∧ (sent.length : Int) = chunkNumber.toInt ∧
        ∀ i < sent.length, ∃ info ∈ infos,
          sent[i]? = some (some info) ∧ info.chunkIndex = requestedIndex.toNat + i
  | _ => True

namespace StreamTask

section Sequence

variable (cells : List (Option ChunkInfo)) (beginIndex : BitVec 32)

/-- The loop that finds the end index of the chunk sequence. -/
def sequenceEnd (endIndex durationMks : BitVec 32) : BitVec 32 :=
  if cells.length ≤ endIndex.toNat then endIndex
  else if MAX_SEQUENCE_SIZE < endIndex - beginIndex then endIndex
  else
    match cells[endIndex.toNat]?.join with
    | none => endIndex
    | some chunkInfo2 =>
        if MAX_CHUNKS_DURATION_MS < durationMks + .ofNat 32 chunkInfo2.durationMks then endIndex
        else sequenceEnd (endIndex + 1) (durationMks + .ofNat 32 chunkInfo2.durationMks)
termination_by 6 - (endIndex - beginIndex).toNat
decreasing_by
  simp only [MAX_SEQUENCE_SIZE] at *
  bv_omega

def infosBetween (endIndex : BitVec 32) : List (Option ChunkInfo) :=
  (List.range' beginIndex.toNat (endIndex.toNat - beginIndex.toNat)).map (cells[·]?.join)

def infoAt (distance : Nat) : Option ChunkInfo :=
  cells[(beginIndex + .ofNat 32 distance).toNat]?.join

/-- The duration of the chunks up to a distance from the requested one, which does not count. -/
def durationUpTo : Nat → BitVec 32
  | 0 => 0
  | distance + 1 =>
      durationUpTo distance +
        ((infoAt cells beginIndex (distance + 1)).elim 0 fun info => .ofNat 32 info.durationMks)

/-- The sequence has a place for the chunk at this distance. -/
structure Includes (distance : Nat) : Prop where
  isThere : (infoAt cells beginIndex distance).isSome = true
  inTime : durationUpTo cells beginIndex distance ≤ MAX_CHUNKS_DURATION_MS

/-- The chunks from the requested one to the one with the last index of 32 bits are there, and all
    of them have a place in the sequence. -/
def ReachesLastIndex : Prop :=
  (0xffffffff#32 - beginIndex) ≤ MAX_SEQUENCE_SIZE ∧
    ∀ distance ≤ (0xffffffff#32 - beginIndex).toNat, Includes cells beginIndex distance

variable {cells beginIndex}

/-- The loop goes on while a chunk has its place, up to the largest sequence. -/
theorem sequenceEnd_spec {endIndex durationMks : BitVec 32} {distance : Nat} (small : distance ≤ 5)
    (isEnd : endIndex = beginIndex + .ofNat 32 (distance + 1))
    (isSum : durationMks = durationUpTo cells beginIndex distance) :
    ∃ count, distance < count ∧ count ≤ 6 ∧
      sequenceEnd cells beginIndex endIndex durationMks = beginIndex + .ofNat 32 count ∧
        (∀ k, distance < k → k < count → Includes cells beginIndex k) ∧
          (count < 6 → ¬ Includes cells beginIndex count) := by
  fun_induction sequenceEnd cells beginIndex endIndex durationMks generalizing distance with
  | case1 endIndex durationMks outside =>
      refine ⟨distance + 1, by omega, by omega, isEnd, by omega, ?_⟩
      intro _ included
      have isThere := included.isThere
      rw [infoAt, ← isEnd, List.getElem?_eq_none outside] at isThere
      simp at isThere
  | case2 endIndex durationMks _ tooMany =>
      refine ⟨distance + 1, by omega, by omega, isEnd, by omega, ?_⟩
      intro few
      simp only [MAX_SEQUENCE_SIZE] at tooMany
      exfalso
      bv_omega
  | case3 endIndex durationMks _ _ missing =>
      refine ⟨distance + 1, by omega, by omega, isEnd, by omega, ?_⟩
      intro _ included
      have isThere := included.isThere
      rw [infoAt, ← isEnd, missing] at isThere
      simp at isThere
  | case4 endIndex durationMks _ _ info isInfo tooLong =>
      refine ⟨distance + 1, by omega, by omega, isEnd, by omega, ?_⟩
      intro _ included
      have inTime := included.inTime
      rw [durationUpTo, infoAt, ← isEnd, isInfo, ← isSum] at inTime
      exact absurd tooLong (BitVec.not_lt.mpr inTime)
  | case5 endIndex durationMks _ few info isInfo inTime ih =>
      have isAt : infoAt cells beginIndex (distance + 1) = some info := by
        rw [infoAt, ← isEnd, isInfo]
      have sum : durationMks + .ofNat 32 info.durationMks =
          durationUpTo cells beginIndex (distance + 1) := by
        rw [durationUpTo, isAt, isSum]
        rfl
      have stillSmall : distance + 1 ≤ 5 := by
        simp only [MAX_SEQUENCE_SIZE] at few
        bv_omega
      obtain ⟨count, after, most, isResult, included, stops⟩ :=
        ih stillSmall (by rw [isEnd]; bv_omega) sum
      refine ⟨count, by omega, most, isResult, ?_, stops⟩
      intro k isAfter before
      by_cases isNext : k = distance + 1
      · subst isNext
        exact ⟨by rw [isAt]; rfl, by rw [← sum]; exact BitVec.not_lt.mp inTime⟩
      · exact included k (by omega) before

end Sequence

def acceptGetChunksInfoMessage (task : StreamTask) (streamMap : Std.TreeMap Hash256 InfoHash)
    (streamId : Hash256) (requestedIndex : BitVec 32) : ChunksInfoReply :=
  if task.request.streamId ≠ streamId then
    .streamIsEnded (if streamMap.contains streamId then 0xffffFFFF else 0xffffFFF0)
  else if (task.chunkInfoList[requestedIndex.toNat]?.join).isNone then .empty
  else
    let endIndex := sequenceEnd task.chunkInfoList requestedIndex (requestedIndex + 1) 0
    .chunkInfos requestedIndex (endIndex - requestedIndex)
      (infosBetween task.chunkInfoList requestedIndex endIndex)

/-- The messages that are put into the list: those of the stream with a valid signature. -/
def acceptedInfos (request : StreamRequest) (messages : List (ChunkInfo × Bool)) :
    List ChunkInfo :=
  (messages.filter fun message => message.1.streamId = request.streamId && message.2).map (·.1)

/-- The task after messages from anyone, with the verdict on the signature of each. -/
def receiveInfos (task : StreamTask) (messages : List (ChunkInfo × Bool)) : StreamTask :=
  messages.foldl (fun task message => task.acceptChunkInfoMessage message.1 message.2) task

theorem chunkInfoList_storeChunkInfo (task : StreamTask) (chunkInfo : ChunkInfo) :
    (task.storeChunkInfo chunkInfo).chunkInfoList =
      SparseCells.store (·.chunkIndex) task.chunkInfoList chunkInfo := by
  rw [storeChunkInfo, SparseCells.store]
  split <;> rfl

theorem chunkInfoList_tryDownloadNextChunk (task : StreamTask) :
    task.tryDownloadNextChunk.chunkInfoList = task.chunkInfoList := by
  rw [tryDownloadNextChunk]
  split <;> rfl

theorem request_receiveInfos (task : StreamTask) (messages : List (ChunkInfo × Bool)) :
    (task.receiveInfos messages).request = task.request := by
  induction messages generalizing task with
  | nil => rfl
  | cons message rest ih =>
      refine (ih _).trans ?_
      simp only [acceptChunkInfoMessage]
      split
      · rfl
      · split
        · rfl
        · rw [tryDownloadNextChunk, storeChunkInfo]
          split <;> split <;> rfl

theorem chunkInfoList_receiveInfos (task : StreamTask) (messages : List (ChunkInfo × Bool)) :
    (task.receiveInfos messages).chunkInfoList =
      (acceptedInfos task.request messages).foldl (SparseCells.store (·.chunkIndex))
        task.chunkInfoList := by
  induction messages generalizing task with
  | nil => rfl
  | cons message rest ih =>
      have isRequest : (task.receiveInfos [message]).request = task.request :=
        request_receiveInfos task [message]
      have next : (task.receiveInfos [message]).chunkInfoList =
          (acceptedInfos task.request [message]).foldl (SparseCells.store (·.chunkIndex))
            task.chunkInfoList := by
        simp only [receiveInfos, acceptedInfos, List.foldl_cons, List.foldl_nil,
          acceptChunkInfoMessage]
        by_cases isStream : message.1.streamId = task.request.streamId
        · cases isVerified : message.2 with
          | false => simp [isStream, isVerified]
          | true =>
              simp [isStream, isVerified, chunkInfoList_tryDownloadNextChunk,
                chunkInfoList_storeChunkInfo]
        · simp [isStream]
      have isCons : acceptedInfos task.request (message :: rest) =
          acceptedInfos task.request [message] ++ acceptedInfos task.request rest := by
        simp only [acceptedInfos, ← List.map_append, ← List.filter_append, List.singleton_append]
      rw [isCons, List.foldl_append, ← next, ← isRequest]
      exact ih (task.receiveInfos [message])

theorem holds_receiveInfos (request : StreamRequest) (drive : DriveParams)
    (messages : List (ChunkInfo × Bool)) :
    SparseCells.Holds (·.chunkIndex) (acceptedInfos request messages)
      ((create request drive).receiveInfos messages).chunkInfoList := by
  rw [chunkInfoList_receiveInfos]
  exact SparseCells.holds_foldl_store _

section Replies

variable {cells : List (Option ChunkInfo)} {beginIndex : BitVec 32} {infos : List ChunkInfo}

theorem length_infosBetween {endIndex : BitVec 32} :
    (infosBetween cells beginIndex endIndex).length = endIndex.toNat - beginIndex.toNat := by
  simp only [infosBetween, List.length_map, List.length_range']

theorem getElem?_infosBetween {count i : Nat} (fits : beginIndex.toNat + count < 2 ^ 32)
    (before : i < count) :
    (infosBetween cells beginIndex (beginIndex + .ofNat 32 count))[i]? =
      some (infoAt cells beginIndex i) := by
  have isEnd : (beginIndex + BitVec.ofNat 32 count).toNat = beginIndex.toNat + count := by
    bv_omega
  have isIndex : (beginIndex + BitVec.ofNat 32 i).toNat = beginIndex.toNat + i := by
    bv_omega
  rw [infosBetween, isEnd, List.getElem?_map, List.getElem?_range' (by omega), infoAt, isIndex]
  simp

theorem exists_sequenceEnd (cells : List (Option ChunkInfo)) (beginIndex : BitVec 32) :
    ∃ count, 0 < count ∧ count ≤ 6 ∧
      sequenceEnd cells beginIndex (beginIndex + 1) 0 = beginIndex + .ofNat 32 count ∧
        (∀ k, 0 < k → k < count → Includes cells beginIndex k) ∧
          (count < 6 → ¬ Includes cells beginIndex count) :=
  sequenceEnd_spec (by omega) rfl rfl

theorem includes_zero (isThere : (infoAt cells beginIndex 0).isSome = true) :
    Includes cells beginIndex 0 :=
  ⟨isThere, BitVec.le_def.mpr (Nat.zero_le _)⟩

/-- The sequence that includes the last index announces chunks and sends none. -/
theorem infosBetween_eq_nil (reaches : ReachesLastIndex cells beginIndex) :
    infosBetween cells beginIndex (sequenceEnd cells beginIndex (beginIndex + 1) 0) = [] := by
  obtain ⟨count, positive, most, isEnd, _, stops⟩ := exists_sequenceEnd cells beginIndex
  obtain ⟨near, included⟩ := reaches
  simp only [MAX_SEQUENCE_SIZE] at near
  have wraps : 2 ^ 32 ≤ beginIndex.toNat + count := by
    by_contra fits
    have inside : count ≤ (0xffffffff#32 - beginIndex).toNat := by bv_omega
    exact stops (by bv_omega) (included count inside)
  rw [← List.length_eq_zero_iff, length_infosBetween, isEnd]
  bv_omega

theorem isRun_chunkInfos_iff (first : (infoAt cells beginIndex 0).isSome = true)
    (holds : SparseCells.Holds (·.chunkIndex) infos cells) :
    (ChunksInfoReply.chunkInfos beginIndex
        (sequenceEnd cells beginIndex (beginIndex + 1) 0 - beginIndex)
        (infosBetween cells beginIndex
          (sequenceEnd cells beginIndex (beginIndex + 1) 0))).IsRun infos beginIndex ↔
      ¬ ReachesLastIndex cells beginIndex := by
  constructor
  · rintro ⟨_, nonempty, _⟩ reaches
    exact nonempty (infosBetween_eq_nil reaches)
  · intro ends
    obtain ⟨count, positive, most, isEnd, included, _⟩ := exists_sequenceEnd cells beginIndex
    have isThere : ∀ i < count, Includes cells beginIndex i := by
      intro i before
      rcases Nat.eq_zero_or_pos i with rfl | after
      · exact includes_zero first
      · exact included i after before
    have fits : beginIndex.toNat + count < 2 ^ 32 := by
      by_contra wraps
      refine ends ⟨by simp only [MAX_SEQUENCE_SIZE]; bv_omega, ?_⟩
      intro distance near
      exact isThere distance (by bv_omega)
    have isLength : (infosBetween cells beginIndex (beginIndex + .ofNat 32 count)).length =
        count := by
      rw [length_infosBetween]
      bv_omega
    rw [isEnd]
    refine ⟨rfl, ?_, ?_, ?_⟩
    · rw [← List.length_pos_iff_ne_nil, isLength]
      exact positive
    · rw [isLength, show beginIndex + BitVec.ofNat 32 count - beginIndex = .ofNat 32 count by
        bv_omega, BitVec.toInt_eq_toNat_of_lt (by bv_omega)]
      bv_omega
    · intro i before
      rw [isLength] at before
      obtain ⟨info, isInfo⟩ := Option.isSome_iff_exists.mp (isThere i before).isThere
      have isCell : cells[beginIndex.toNat + i]? = some (some info) := by
        rw [infoAt, Option.join_eq_some_iff] at isInfo
        rw [← isInfo]
        congr 1
        bv_omega
      obtain ⟨member, isIndex⟩ := holds.mem isCell
      exact ⟨info, member, by rw [getElem?_infosBetween fits before, isInfo], isIndex⟩

end Replies


theorem isRun_acceptGetChunksInfoMessage_iff {task : StreamTask} {infos : List ChunkInfo}
    (holds : SparseCells.Holds (·.chunkIndex) infos task.chunkInfoList)
    (streamMap : Std.TreeMap Hash256 InfoHash) (streamId : Hash256) (requestedIndex : BitVec 32) :
    (task.acceptGetChunksInfoMessage streamMap streamId requestedIndex).IsRun infos
        requestedIndex ↔
      ¬ (streamId = task.request.streamId ∧
        ReachesLastIndex task.chunkInfoList requestedIndex) := by
  rw [acceptGetChunksInfoMessage]
  by_cases same : task.request.streamId = streamId
  · have isFirst : infoAt task.chunkInfoList requestedIndex 0 =
        task.chunkInfoList[requestedIndex.toNat]?.join := by
      rw [infoAt]
      congr 2
      bv_omega
    rw [if_neg (by simp [same]), ← isFirst]
    by_cases isThere : (infoAt task.chunkInfoList requestedIndex 0).isSome = true
    · rw [if_neg (by simpa [Option.isSome_iff_ne_none] using isThere)]
      simp only [same, true_and]
      exact isRun_chunkInfos_iff isThere holds
    · rw [if_pos (by simpa using isThere)]
      simp only [ChunksInfoReply.IsRun, true_iff]
      rintro ⟨_, _, included⟩
      exact isThere (included 0 (Nat.zero_le _)).isThere
  · rw [if_pos same]
    simp only [ChunksInfoReply.IsRun, true_iff]
    exact fun reaches => same reaches.1.symm

/-- Any messages in any order fill the cells of their indices. A reply to a request for the stream's
    chunks is a run of received messages that is announced as such, unless the sequence includes
    the last index of 32 bits. -/
theorem chunksInfo_isRun_iff (request : StreamRequest) (drive : DriveParams)
    (messages : List (ChunkInfo × Bool)) (streamMap : Std.TreeMap Hash256 InfoHash)
    (streamId : Hash256) (requestedIndex : BitVec 32) :
    SparseCells.Holds (·.chunkIndex) (acceptedInfos request messages)
        ((create request drive).receiveInfos messages).chunkInfoList ∧
      ((((create request drive).receiveInfos messages).acceptGetChunksInfoMessage streamMap
          streamId requestedIndex).IsRun (acceptedInfos request messages) requestedIndex ↔
        ¬ (streamId = request.streamId ∧
          ReachesLastIndex ((create request drive).receiveInfos messages).chunkInfoList
            requestedIndex)) := by
  have holds := holds_receiveInfos request drive messages
  have isRequest : ((create request drive).receiveInfos messages).request = request :=
    request_receiveInfos _ messages
  have isRun := isRun_acceptGetChunksInfoMessage_iff holds streamMap streamId requestedIndex
  rw [isRequest] at isRun
  exact ⟨holds, isRun⟩

def lastChunkInfo : ChunkInfo := ⟨60, 2 ^ 32 - 1, 30, 1, 1⟩

/-- The request for the last chunk is answered with a sequence of one chunk that has none. -/
theorem lastChunkInfo_is_not_sent :
    ¬ ((sampleStream.receiveInfos [(lastChunkInfo, true)]).acceptGetChunksInfoMessage ∅ 60
      0xffffffff).IsRun [lastChunkInfo] 0xffffffff := by
  have isList : (sampleStream.receiveInfos [(lastChunkInfo, true)]).chunkInfoList =
      SparseCells.store (·.chunkIndex) [] lastChunkInfo := by
    have accepted : acceptedInfos sampleStream.request [(lastChunkInfo, true)] =
        [lastChunkInfo] := rfl
    have empty : sampleStream.chunkInfoList = [] := rfl
    rw [chunkInfoList_receiveInfos, accepted, empty, List.foldl_cons, List.foldl_nil]
  have isRequest : (sampleStream.receiveInfos [(lastChunkInfo, true)]).request =
      sampleStreamRequest := request_receiveInfos sampleStream _
  have holds : SparseCells.Holds (·.chunkIndex) [lastChunkInfo]
      (sampleStream.receiveInfos [(lastChunkInfo, true)]).chunkInfoList := by
    rw [isList]
    exact SparseCells.holds_nil.store lastChunkInfo
  rw [isRun_acceptGetChunksInfoMessage_iff holds, isRequest, isList, not_not]
  refine ⟨rfl, by decide, ?_⟩
  intro distance near
  obtain rfl : distance = 0 := Nat.le_zero.mp near
  refine includes_zero ?_
  rw [infoAt, SparseCells.getElem?_store, if_pos (by decide)]
  rfl

end StreamTask

end SiriusDrive
