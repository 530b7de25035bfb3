import SiriusDrive.DownloadLimiter.SyncRcpts
import SiriusDrive.RcptSyncronizer

/-! # Channels that are being synchronized

A replicator that joins a download channel adds it to its limiter as being
synchronized and asks the other replicators of the drive for their receipts. The
limiter refuses to send for such a channel; the synchronizer decides when the
answers suffice.
-/

namespace SiriusDrive

/-- `DownloadRequest`. -/
structure DownloadRequest where
  channelKey : ChannelId
  prepaidDownloadSize : Nat
  replicators : List ReplicatorKey
  clients : List ClientKey
  deriving Repr, DecidableEq

/-- The limiter of `DefaultReplicator` with its `m_dnOpinionSyncronizer`. The drives of the
    replicator are those the synchronizer knows. -/
structure SyncReplicator where
  limiter : DownloadLimiter
  dnOpinionSyncronizer : RcptSyncronizer

/-- The number of answers that end a synchronization. -/
def consensusThreshould (replicators : List ReplicatorKey) : Nat :=
  min (replicators.length * 3 / 2) 4

namespace SyncReplicator

section Codec

variable {β : Type} (cereal : Cereal β) (signer : Signer β) (replicator : SyncReplicator)

def asyncAddDownloadChannelInfo (driveKey : Key) (request : DownloadRequest)
    (mustBeSyncronized : Bool) : SyncReplicator :=
  if replicator.limiter.isDestructing then replicator
  else
    let limiter := replicator.limiter.addChannelInfo request.channelKey request.prepaidDownloadSize
      driveKey request.replicators request.clients mustBeSyncronized
    if mustBeSyncronized then
      match replicator.dnOpinionSyncronizer.allReplicators[driveKey]? with
      | some replicators =>
          { limiter
            dnOpinionSyncronizer := replicator.dnOpinionSyncronizer.startSync request.channelKey
              driveKey (consensusThreshould replicators) }
      | none => { replicator with limiter }
    else { replicator with limiter }

def respondent (response : β) (sign : Signature) : Option (ReplicatorKey × ChannelId) :=
  match cereal.read response with
  | .key otherReplicatorKey :: .key channelId :: _ =>
      if signer.verify otherReplicatorKey response sign then some (otherReplicatorKey, channelId)
      else none
  | _ => none

/-- `onSyncRcptReceived`. Anyone who has signed the response is counted. -/
def onSyncRcptReceived (verify : Verify) (response : β) (sign : Signature)
    (random : List (List Nat)) : SyncReplicator :=
  match respondent cereal signer response sign with
  | some (otherReplicatorKey, channelId) =>
      { limiter :=
          (replicator.limiter.onSyncRcptReceived cereal signer verify response sign random).1
        dnOpinionSyncronizer :=
          replicator.dnOpinionSyncronizer.accpeptOpinion channelId otherReplicatorKey }
  | none => replicator

end Codec

end SyncReplicator

/-- What happens to a replicator while its channels stay. -/
inductive SyncReplicatorEvent (β : Type) where
  | addDownloadChannelInfo (driveKey : Key) (request : DownloadRequest) (mustBeSyncronized : Bool)
  | syncRcptReceived (response : β) (sign : Signature) (random : List (List Nat))
  | syncTimeout (channelId : ChannelId)
  | limiter (event : LimiterEvent)

def LimiterEvent.removesChannels : LimiterEvent → Bool
  | .removeChannelInfo _ | .restart => true
  | _ => false

/-- The replicator while a channel is synchronized, with the replicators which have sent a
    response for the channel. -/
def channelSyncSystem {β : Type} (cereal : Cereal β) (signer : Signer β) (verify : Verify)
    (channelId : ChannelId) :
    Transition (SyncReplicator × Std.TreeSet ReplicatorKey) (SyncReplicatorEvent β) where
  step state event :=
    let replicator := state.1
    match event with
    | .addDownloadChannelInfo driveKey request mustBeSyncronized =>
        -- the channel is added once
        if request.channelKey = channelId then none
        else some (replicator.asyncAddDownloadChannelInfo driveKey request mustBeSyncronized, state.2)
    | .syncRcptReceived response sign random =>
        some (replicator.onSyncRcptReceived cereal signer verify response sign random,
          match SyncReplicator.respondent cereal signer response sign with
          | some (otherReplicatorKey, channelId') =>
              if channelId' = channelId then state.2.insert otherReplicatorKey else state.2
          | none => state.2)
    | .syncTimeout channelId =>
        (syncSystem.step replicator.dnOpinionSyncronizer (.syncTimeout channelId)).map
          fun dnOpinionSyncronizer => ({ replicator with dnOpinionSyncronizer }, state.2)
    | .limiter event =>
        if event.removesChannels then none
        else some ({ replicator with limiter := (replicator.limiter.handle verify event).limiter },
          state.2)

namespace SyncReplicator

variable {channelId : ChannelId}

/-- How many replicators of the drive have responded. -/
def respondedOf (replicators : List ReplicatorKey) (responded : Std.TreeSet ReplicatorKey) : Nat :=
  (responded.toList.filter (replicators.contains ·)).length

/-- `checkDownloadLimit` refuses the channel for this reason. -/
def RefusesAsSynchronizing (limiter : DownloadLimiter) (channelId : ChannelId) : Prop :=
  ∃ channelInfo, limiter.dnChannelMap[channelId]? = some channelInfo ∧
    channelInfo.isSynchronizing = true

/-- The synchronization ends only when enough replicators of the drive have responded, and it
    has ended when all of them have. -/
structure SynchronizesByConsensus (channelId : ChannelId) (replicators : List ReplicatorKey)
    (state : SyncReplicator × Std.TreeSet ReplicatorKey) : Prop where
  ends : state.1.dnOpinionSyncronizer.syncChannelMap[channelId]? = none →
    consensusThreshould replicators ≤ respondedOf replicators state.2
  ended : (∀ key ∈ replicators, key ∈ state.2) →
    state.1.dnOpinionSyncronizer.syncChannelMap[channelId]? = none ∧
      ¬ RefusesAsSynchronizing state.1.limiter channelId

/-! ## The flag of the limiter -/

variable {verify : Verify}

theorem isSynchronizing_acceptUploadSize (msg : RcptMessage) (channelInfo : DownloadChannelInfo) :
    (channelInfo.acceptUploadSize msg).1.isSynchronizing = channelInfo.isSynchronizing := by
  have kept (channelInfo : DownloadChannelInfo) (replicatorKey : ReplicatorKey)
      (info : ReplicatorUploadRequestInfo) :
      (channelInfo.setUploadRequestInfo replicatorKey info).isSynchronizing =
        channelInfo.isSynchronizing := by
    simp only [DownloadChannelInfo.setUploadRequestInfo]
  have counter (total : Nat) : { channelInfo with totalReceiptsSize := total }.isSynchronizing =
      channelInfo.isSynchronizing := rfl
  rcases channelInfo.acceptUploadSize_cases msg with ⟨-, after⟩ | ⟨-, -, after⟩ | ⟨-, -, after⟩
  · rw [after, kept]
  · rw [after, kept, counter]
  · rw [after, kept, counter]

theorem RefusesAsSynchronizing.handle {limiter : DownloadLimiter}
    (refuses : RefusesAsSynchronizing limiter channelId) (verify : Verify) {event : LimiterEvent}
    (stays : event.removesChannels = false) :
    RefusesAsSynchronizing (limiter.handle verify event).limiter channelId := by
  obtain ⟨channelInfo, found, synchronizing⟩ := refuses
  have change := limiter.channelChange verify event channelId
  rw [found] at change
  unfold RefusesAsSynchronizing
  generalize (limiter.handle verify event).limiter.dnChannelMap[channelId]? = after at change ⊢
  cases change with
  | same _ _ => exact ⟨channelInfo, rfl, synchronizing⟩
  | gone _ isRemoval =>
      rcases isRemoval with isRemoval | isRemoval
      · rw [isRemoval] at stays
        exact Bool.noConfusion stays
      · rw [isRemoval] at stays
        exact Bool.noConfusion stays
  | received _ msg _ _ =>
      have kept : (channelInfo.receive msg).isSynchronizing = channelInfo.isSynchronizing :=
        isSynchronizing_acceptUploadSize msg.receipt channelInfo.toDownloadChannelInfo
      exact ⟨_, rfl, kept.trans synchronizing⟩
  | lookedUp _ info peerKey _ _ => exact ⟨_, rfl, synchronizing⟩
  | increased _ prepaidDownloadSize _ =>
      have kept : (channelInfo.increase prepaidDownloadSize).isSynchronizing =
          channelInfo.isSynchronizing := by
        simp only [ChannelInfo.increase, DownloadChannelInfo.increaseChannelSize]
      exact ⟨_, rfl, kept.trans synchronizing⟩
  | sent _ receiverPublicKey sentSize pieceSize _ _ =>
      have kept : (channelInfo.countPiece receiverPublicKey sentSize pieceSize).isSynchronizing =
          channelInfo.isSynchronizing := by
        simp only [ChannelInfo.countPiece]
      exact ⟨_, rfl, kept.trans synchronizing⟩

theorem RefusesAsSynchronizing.acceptRcpts {limiter : DownloadLimiter}
    (refuses : RefusesAsSynchronizing limiter channelId) (items : List ArchiveItem)
    (random : List (List Nat)) :
    RefusesAsSynchronizing (DownloadLimiter.acceptRcpts verify items random limiter).1
      channelId := by
  obtain ⟨events, run, all⟩ :
      ∃ events : List LimiterEvent,
        (limiterSystem verify).exec limiter events =
            some (DownloadLimiter.acceptRcpts verify items random limiter).1 ∧
          ∀ event ∈ events, ∃ msg draws, event = .rcpt msg draws :=
    DownloadLimiter.acceptRcpts_exec items random limiter
  have stays : ∀ event ∈ events, event.removesChannels = false := by
    intro event member
    obtain ⟨msg, draws, rfl⟩ := all event member
    rfl
  refine Transition.invariant (I := fun limiter => RefusesAsSynchronizing limiter channelId) ?_
    refuses (Transition.meets_of_forall stays) run
  intro before event after kept staysHere step
  obtain rfl := Option.some.inj step
  exact kept.handle verify staysHere

section Codec

variable {β : Type}

theorem RefusesAsSynchronizing.onSyncRcptReceived {limiter : DownloadLimiter}
    (refuses : RefusesAsSynchronizing limiter channelId) (cereal : Cereal β) (signer : Signer β)
    (verify : Verify) (response : β) (sign : Signature) (random : List (List Nat)) :
    RefusesAsSynchronizing
      (limiter.onSyncRcptReceived cereal signer verify response sign random).1 channelId := by
  unfold DownloadLimiter.onSyncRcptReceived
  split
  · split_ifs
    · exact refuses
    · exact refuses.acceptRcpts _ _
  · exact refuses

theorem RefusesAsSynchronizing.addChannelInfo {limiter : DownloadLimiter}
    (refuses : RefusesAsSynchronizing limiter channelId) (driveKey : Key)
    (request : DownloadRequest) (willBeSyncronized : Bool) :
    RefusesAsSynchronizing (limiter.addChannelInfo request.channelKey request.prepaidDownloadSize
      driveKey request.replicators request.clients willBeSyncronized) channelId := by
  have stays : (LimiterEvent.addChannelInfo request.channelKey request.prepaidDownloadSize driveKey
    request.replicators request.clients willBeSyncronized).removesChannels = false := rfl
  exact refuses.handle (fun _ _ _ => false) stays

/-! ## The answers counted by the synchronizer -/

/-- The answers for a channel in synchronization and the number of those needed. -/
def answers (syncronizer : RcptSyncronizer) (channelId : ChannelId) :
    Option (Std.TreeSet ReplicatorKey × Nat) :=
  (syncronizer.syncChannelMap[channelId]?).map fun channelSyncInfo =>
    (channelSyncInfo.responseSet, channelSyncInfo.consensusThreshould)

theorem answers_eq_none {syncronizer : RcptSyncronizer} :
    answers syncronizer channelId = none ↔ syncronizer.syncChannelMap[channelId]? = none :=
  Option.map_eq_none_iff

theorem answers_requestOpinons {syncronizer : RcptSyncronizer} {found : ChannelId}
    {channelSyncInfo : ChannelSyncInfo}
    (present : found = channelId → syncronizer.syncChannelMap[channelId]? = some channelSyncInfo) :
    answers (syncronizer.requestOpinons found channelSyncInfo) channelId =
      answers syncronizer channelId := by
  unfold answers
  rw [RcptSyncronizer.getElem?_requestOpinons]
  split_ifs with isOwn
  · rw [present isOwn.symm]
    rfl
  · rfl

theorem answers_startSync {syncronizer : RcptSyncronizer} {other : ChannelId}
    (apart : other ≠ channelId) (drive : Key) (consensusThreshould : Nat) :
    answers (syncronizer.startSync other drive consensusThreshould) channelId =
      answers syncronizer channelId := by
  unfold RcptSyncronizer.startSync
  cases found : syncronizer.syncChannelMap.lowerBound other with
  | none => exact answers_requestOpinons fun same => absurd same apart
  | some entry =>
      obtain ⟨key, channelSyncInfo⟩ := entry
      apply answers_requestOpinons
      rintro rfl
      exact Std.TreeMap.getElem?_of_lowerBound found

theorem answers_syncTimeout {syncronizer : RcptSyncronizer} {other : ChannelId}
    {channelSyncInfo : ChannelSyncInfo}
    (present : syncronizer.syncChannelMap[other]? = some channelSyncInfo) :
    answers (syncronizer.syncTimeout other channelSyncInfo) channelId =
      answers syncronizer channelId := by
  have requested : answers (syncronizer.requestOpinons other channelSyncInfo) channelId =
      answers syncronizer channelId := answers_requestOpinons fun same => same ▸ present
  rw [← requested]
  unfold answers RcptSyncronizer.syncTimeout
  simp only [Std.TreeMap.getElem?_insert_eq, RcptSyncronizer.getElem?_requestOpinons]
  split_ifs <;> rfl

theorem answers_accpeptOpinion_other {syncronizer : RcptSyncronizer} {other : ChannelId}
    (apart : other ≠ channelId) (replicatorKey : ReplicatorKey) :
    answers (syncronizer.accpeptOpinion other replicatorKey) channelId =
      answers syncronizer channelId := by
  unfold answers
  have only : RcptSyncronizer.OnlyFor (some other) syncronizer
      (syncronizer.accpeptOpinion other replicatorKey) :=
    RcptSyncronizer.onlyFor_accpeptOpinion replicatorKey
  rw [only.others channelId (by simpa using apart.symm)]

/-- An answer for the channel: it is counted until the answers suffice. -/
theorem answers_accpeptOpinion (syncronizer : RcptSyncronizer) (replicatorKey : ReplicatorKey) :
    answers (syncronizer.accpeptOpinion channelId replicatorKey) channelId =
      (answers syncronizer channelId).bind fun (responseSet, threshould) =>
        if threshould ≤ (responseSet.insert replicatorKey).size then none
        else some (responseSet.insert replicatorKey, threshould) := by
  unfold answers RcptSyncronizer.accpeptOpinion
  cases found : syncronizer.syncChannelMap[channelId]? with
  | none => simp [found]
  | some channelSyncInfo =>
      simp only [Option.map_some, Option.bind_some]
      split_ifs with complete
      · simp
      · simp

/-! ## Runs -/

/-- The state of the synchronization: some replicator of the drive has not responded, and the
    answers are counted until they suffice. -/
structure AwaitsAnswers (channelId : ChannelId) (replicators : List ReplicatorKey)
    (state : SyncReplicator × Std.TreeSet ReplicatorKey) : Prop where
  refuses : RefusesAsSynchronizing state.1.limiter channelId
  missing : ∃ key ∈ replicators, key ∉ state.2
  counts : ∀ counted, answers state.1.dnOpinionSyncronizer channelId = some counted →
    counted = (state.2, consensusThreshould replicators)
  ended : answers state.1.dnOpinionSyncronizer channelId = none →
    consensusThreshould replicators ≤ respondedOf replicators state.2

/-- A response for the channel leaves some replicator of the drive without one, and ends the
    synchronization only with enough replicators of the drive. -/
def CountsResponse (cereal : Cereal β) (signer : Signer β) (channelId : ChannelId)
    (replicators : List ReplicatorKey) (state : SyncReplicator × Std.TreeSet ReplicatorKey)
    (event : SyncReplicatorEvent β) : Prop :=
  ∀ response sign random otherReplicatorKey,
    event = .syncRcptReceived response sign random →
    respondent cereal signer response sign = some (otherReplicatorKey, channelId) →
    (∃ key ∈ replicators, key ∉ state.2.insert otherReplicatorKey) ∧
      (state.1.dnOpinionSyncronizer.syncChannelMap[channelId]? ≠ none →
        consensusThreshould replicators ≤ (state.2.insert otherReplicatorKey).size →
        consensusThreshould replicators ≤
          respondedOf replicators (state.2.insert otherReplicatorKey))

variable {replicators : List ReplicatorKey} {state : SyncReplicator × Std.TreeSet ReplicatorKey}

theorem AwaitsAnswers.synchronizes (awaits : AwaitsAnswers channelId replicators state) :
    SynchronizesByConsensus channelId replicators state where
  ends := fun ended => awaits.ended (answers_eq_none.mpr ended)
  ended := by
    intro all
    obtain ⟨key, member, missing⟩ := awaits.missing
    exact absurd (all key member) missing

theorem AwaitsAnswers.of_answers (awaits : AwaitsAnswers channelId replicators state)
    {replicator : SyncReplicator} (refuses : RefusesAsSynchronizing replicator.limiter channelId)
    (same : answers replicator.dnOpinionSyncronizer channelId =
      answers state.1.dnOpinionSyncronizer channelId) :
    AwaitsAnswers channelId replicators (replicator, state.2) where
  refuses := refuses
  missing := awaits.missing
  counts := by rw [same]; exact awaits.counts
  ended := by rw [same]; exact awaits.ended

theorem AwaitsAnswers.addDownloadChannelInfo (awaits : AwaitsAnswers channelId replicators state)
    {driveKey : Key} {request : DownloadRequest} (apart : request.channelKey ≠ channelId)
    (mustBeSyncronized : Bool) :
    AwaitsAnswers channelId replicators
      (state.1.asyncAddDownloadChannelInfo driveKey request mustBeSyncronized, state.2) := by
  have refuses := awaits.refuses.addChannelInfo driveKey request
  unfold asyncAddDownloadChannelInfo
  split_ifs with destructing must
  · exact awaits
  · simp only
    split
    · exact awaits.of_answers (refuses _) (answers_startSync apart _ _)
    · exact awaits.of_answers (refuses _) rfl
  · exact awaits.of_answers (refuses _) rfl

theorem AwaitsAnswers.answered (awaits : AwaitsAnswers channelId replicators state)
    {limiter : DownloadLimiter} (refuses : RefusesAsSynchronizing limiter channelId)
    {otherReplicatorKey : ReplicatorKey}
    (missing : ∃ key ∈ replicators, key ∉ state.2.insert otherReplicatorKey)
    (enough : state.1.dnOpinionSyncronizer.syncChannelMap[channelId]? ≠ none →
      consensusThreshould replicators ≤ (state.2.insert otherReplicatorKey).size →
      consensusThreshould replicators ≤
        respondedOf replicators (state.2.insert otherReplicatorKey))
    (more : respondedOf replicators state.2 ≤
      respondedOf replicators (state.2.insert otherReplicatorKey)) :
    AwaitsAnswers channelId replicators
      ({ limiter
         dnOpinionSyncronizer :=
          state.1.dnOpinionSyncronizer.accpeptOpinion channelId otherReplicatorKey },
        state.2.insert otherReplicatorKey) where
  refuses := refuses
  missing := missing
  counts := by
    intro counted isCounted
    rw [answers_accpeptOpinion] at isCounted
    obtain ⟨earlier, wasCounted, rest⟩ := Option.bind_eq_some_iff.mp isCounted
    obtain rfl := awaits.counts earlier wasCounted
    simp only at rest
    split_ifs at rest
    exact (Option.some.inj rest).symm
  ended := by
    intro ended
    rw [answers_accpeptOpinion] at ended
    cases counted : answers state.1.dnOpinionSyncronizer channelId with
    | none => exact (awaits.ended counted).trans more
    | some earlier =>
        obtain rfl := awaits.counts earlier counted
        rw [counted, Option.bind_some] at ended
        simp only at ended
        split_ifs at ended with complete
        apply enough _ complete
        intro absent
        rw [answers_eq_none.mpr absent] at counted
        simp at counted

theorem mem_toList_insert {responded : Std.TreeSet ReplicatorKey} {key other : ReplicatorKey} :
    other ∈ (responded.insert key).toList ↔ other = key ∨ other ∈ responded.toList := by
  rw [Std.TreeSet.mem_toList, Std.TreeSet.mem_toList, Std.TreeSet.mem_insert]
  rw [Std.LawfulEqCmp.compare_eq_iff_eq, eq_comm]

theorem nodup_toList (responded : Std.TreeSet ReplicatorKey) : responded.toList.Nodup := by
  have distinct := responded.distinct_toList
  refine distinct.imp ?_
  intro key other apart same
  exact apart (same ▸ Std.ReflCmp.compare_self)

/-- A response of someone can only raise the number of replicators that have responded. -/
theorem respondedOf_insert (replicators : List ReplicatorKey)
    (responded : Std.TreeSet ReplicatorKey) (key : ReplicatorKey) :
    respondedOf replicators responded ≤ respondedOf replicators (responded.insert key) := by
  unfold respondedOf
  apply List.Subperm.length_le
  apply List.Nodup.subperm
  · exact (nodup_toList responded).filter _
  · intro other member
    obtain ⟨isOther, isReplicator⟩ := List.mem_filter.mp member
    exact List.mem_filter.mpr ⟨mem_toList_insert.mpr (.inr isOther), isReplicator⟩

variable {event : SyncReplicatorEvent β} {after : SyncReplicator × Std.TreeSet ReplicatorKey}

theorem step_response {response : β} {sign : Signature} {random : List (List Nat)}
    {otherReplicatorKey : ReplicatorKey}
    (responds : respondent cereal signer response sign = some (otherReplicatorKey, channelId)) :
    (channelSyncSystem cereal signer verify channelId).step state
        (.syncRcptReceived response sign random) =
      some ({ limiter :=
                (state.1.limiter.onSyncRcptReceived cereal signer verify response sign random).1
              dnOpinionSyncronizer :=
                state.1.dnOpinionSyncronizer.accpeptOpinion channelId otherReplicatorKey },
        state.2.insert otherReplicatorKey) := by
  simp [channelSyncSystem, onSyncRcptReceived, responds]

theorem AwaitsAnswers.step (awaits : AwaitsAnswers channelId replicators state)
    (counts : CountsResponse cereal signer channelId replicators state event)
    (step : (channelSyncSystem cereal signer verify channelId).step state event = some after) :
    AwaitsAnswers channelId replicators after := by
  cases event with
  | addDownloadChannelInfo driveKey request mustBeSyncronized =>
      simp only [channelSyncSystem] at step
      split_ifs at step with isOwn
      obtain rfl := Option.some.inj step
      exact awaits.addDownloadChannelInfo isOwn mustBeSyncronized
  | syncRcptReceived response sign random =>
      cases responds : respondent cereal signer response sign with
      | none =>
          simp only [channelSyncSystem, onSyncRcptReceived, responds] at step
          obtain rfl := Option.some.inj step
          exact awaits
      | some found =>
          obtain ⟨otherReplicatorKey, other⟩ := found
          have refuses := awaits.refuses.onSyncRcptReceived cereal signer verify response sign
            random
          by_cases isOwn : other = channelId
          · subst isOwn
            rw [step_response responds] at step
            obtain rfl := Option.some.inj step
            obtain ⟨missing, enough⟩ :=
              counts response sign random otherReplicatorKey rfl responds
            exact awaits.answered refuses missing enough
              (respondedOf_insert replicators state.2 otherReplicatorKey)
          · simp only [channelSyncSystem, onSyncRcptReceived, responds, if_neg isOwn] at step
            obtain rfl := Option.some.inj step
            exact awaits.of_answers refuses (answers_accpeptOpinion_other isOwn _)
  | syncTimeout other =>
      obtain ⟨syncronizer, timeout, rfl⟩ := Option.map_eq_some_iff.mp step
      simp only [syncSystem] at timeout
      split at timeout
      · rename_i channelSyncInfo found
        split_ifs at timeout
        obtain rfl := Option.some.inj timeout
        exact awaits.of_answers awaits.refuses (answers_syncTimeout found)
      · simp at timeout
  | limiter limiterEvent =>
      simp only [channelSyncSystem] at step
      split_ifs at step with removes
      obtain rfl := Option.some.inj step
      exact awaits.of_answers (awaits.refuses.handle verify (by simpa using removes)) rfl

/-- A response that misses the condition ends the synchronization too early, or leaves the
    channel refused although everyone has responded. -/
theorem AwaitsAnswers.misses (awaits : AwaitsAnswers channelId replicators state)
    (missed : ¬ CountsResponse cereal signer channelId replicators state event) :
    ∃ after, (channelSyncSystem cereal signer verify channelId).step state event = some after ∧
      ¬ SynchronizesByConsensus channelId replicators after := by
  simp only [CountsResponse, not_forall] at missed
  obtain ⟨response, sign, random, otherReplicatorKey, rfl, responds, missed⟩ := missed
  refine ⟨_, step_response responds, ?_⟩
  intro correct
  apply missed
  constructor
  · by_contra none
    have all : ∀ key ∈ replicators, key ∈ state.2.insert otherReplicatorKey := by
      intro key member
      by_contra missing
      exact none ⟨key, member, missing⟩
    have refuses := awaits.refuses.onSyncRcptReceived cereal signer verify response sign random
    exact (correct.ended all).2 refuses
  · intro present complete
    apply correct.ends
    rw [← answers_eq_none, answers_accpeptOpinion]
    cases counted : answers state.1.dnOpinionSyncronizer channelId with
    | none => exact absurd (answers_eq_none.mp counted) present
    | some earlier =>
        obtain rfl := awaits.counts earlier counted
        rw [Option.bind_some]
        exact if_pos complete

variable {before : SyncReplicator} {driveKey : Key} {request : DownloadRequest}

theorem add_eq (isDrive : before.dnOpinionSyncronizer.allReplicators[driveKey]? = some replicators)
    (running : before.limiter.isDestructing = false) :
    before.asyncAddDownloadChannelInfo driveKey request true =
      { limiter := before.limiter.addChannelInfo request.channelKey request.prepaidDownloadSize
          driveKey request.replicators request.clients true
        dnOpinionSyncronizer := before.dnOpinionSyncronizer.startSync request.channelKey driveKey
          (consensusThreshould replicators) } := by
  simp [asyncAddDownloadChannelInfo, running, isDrive]

theorem refuses_add (isDrive : before.dnOpinionSyncronizer.allReplicators[driveKey]? =
      some replicators) (running : before.limiter.isDestructing = false)
    (isNew : before.limiter.dnChannelMap[request.channelKey]? = none) :
    RefusesAsSynchronizing (before.asyncAddDownloadChannelInfo driveKey request true).limiter
      request.channelKey := by
  rw [add_eq isDrive running]
  have absent : ¬ before.limiter.dnChannelMap.contains request.channelKey = true := by
    rw [Std.TreeMap.contains_eq_isSome_getElem?, isNew]
    exact Bool.noConfusion
  unfold DownloadLimiter.addChannelInfo
  rw [if_neg (by simp [running]), if_neg absent]
  refine ⟨_, Std.TreeMap.getElem?_insert_self, ?_⟩
  unfold DownloadChannelInfo.addChannelInfo
  split <;> rfl

theorem awaitsAnswers_add
    (isDrive : before.dnOpinionSyncronizer.allReplicators[driveKey]? = some replicators)
    (others : replicators ≠ []) (running : before.limiter.isDestructing = false)
    (isNew : before.limiter.dnChannelMap[request.channelKey]? = none)
    (greatest : ∀ (other : ChannelId) channelSyncInfo,
      before.dnOpinionSyncronizer.syncChannelMap[other]? = some channelSyncInfo →
      other < request.channelKey) :
    AwaitsAnswers request.channelKey replicators
      (before.asyncAddDownloadChannelInfo driveKey request true, ∅) := by
  have refuses := refuses_add isDrive running isNew
  rw [add_eq isDrive running] at refuses ⊢
  have none : before.dnOpinionSyncronizer.syncChannelMap.lowerBound request.channelKey = none := by
    apply Std.TreeMap.lowerBound_eq_none.mpr
    intro other channelSyncInfo present
    exact compareOfLessAndEq_eq_lt.mpr (greatest other channelSyncInfo present)
  have started : answers (before.dnOpinionSyncronizer.startSync request.channelKey driveKey
      (consensusThreshould replicators)) request.channelKey =
        some (∅, consensusThreshould replicators) := by
    unfold RcptSyncronizer.startSync answers
    rw [none]
    simp only [RcptSyncronizer.getElem?_requestOpinons, if_true, Option.map_some]
  obtain ⟨first, rest, isCons⟩ := List.exists_cons_of_ne_nil others
  exact
    { refuses := refuses
      missing := ⟨first, isCons ▸ List.mem_cons_self, Std.TreeSet.not_mem_emptyc⟩
      counts := by
        intro counted isCounted
        exact Option.some.inj (isCounted.symm.trans started)
      ended := by
        intro ended
        rw [started] at ended
        exact absurd ended (by simp) }

/-- A smaller channel is taken for a greater one that is in synchronization. -/
theorem not_synchronizes_add
    (isDrive : before.dnOpinionSyncronizer.allReplicators[driveKey]? = some replicators)
    (others : replicators ≠ []) (running : before.limiter.isDestructing = false)
    (notYet : before.dnOpinionSyncronizer.syncChannelMap[request.channelKey]? = none)
    {other : ChannelId} {channelSyncInfo : ChannelSyncInfo}
    (present : before.dnOpinionSyncronizer.syncChannelMap[other]? = some channelSyncInfo)
    (notLess : ¬ other < request.channelKey) :
    ¬ SynchronizesByConsensus request.channelKey replicators
      (before.asyncAddDownloadChannelInfo driveKey request true, ∅) := by
  rw [add_eq isDrive running]
  intro correct
  have absent : (before.dnOpinionSyncronizer.startSync request.channelKey driveKey
      (consensusThreshould replicators)).syncChannelMap[request.channelKey]? = none := by
    unfold RcptSyncronizer.startSync
    cases found : before.dnOpinionSyncronizer.syncChannelMap.lowerBound request.channelKey with
    | none =>
        have less := Std.TreeMap.lowerBound_eq_none.mp found other channelSyncInfo present
        exact absurd (compareOfLessAndEq_eq_lt.mp less) notLess
    | some entry =>
        obtain ⟨key, info⟩ := entry
        have isEntry := Std.TreeMap.getElem?_of_lowerBound found
        have apart : request.channelKey ≠ key := by
          rintro rfl
          rw [notYet] at isEntry
          simp at isEntry
        simp only [RcptSyncronizer.getElem?_requestOpinons, if_neg apart, notYet]
  have enough := correct.ends absent
  have noneResponded : respondedOf replicators ∅ = 0 := by
    simp [respondedOf]
  have atLeastOne : 1 ≤ consensusThreshould replicators := by
    have length := List.length_pos_iff.mpr others
    simp only [consensusThreshould]
    omega
  rw [noneResponded] at enough
  omega

end Codec

end SyncReplicator

/-- In a run with a channel that has been added as to be synchronized, the synchronization ends
    only after the threshold of replicators of the drive has responded, and has ended, for the
    limiter too, when all of them have, if and only if the channel is greater than all channels
    in synchronization, some replicator of the drive never responds and the responses that end
    the synchronization come from enough replicators of the drive. -/
theorem synchronizes_by_consensus_iff {β : Type} (cereal : Cereal β) (signer : Signer β)
    (verify : Verify) (before : SyncReplicator) (driveKey : Key) (request : DownloadRequest)
    (replicators : List ReplicatorKey)
    (isDrive : before.dnOpinionSyncronizer.allReplicators[driveKey]? = some replicators)
    (others : replicators ≠ []) (running : before.limiter.isDestructing = false)
    (isNew : before.limiter.dnChannelMap[request.channelKey]? = none)
    (notYet : before.dnOpinionSyncronizer.syncChannelMap[request.channelKey]? = none)
    (events : List (SyncReplicatorEvent β)) :
    (channelSyncSystem cereal signer verify request.channelKey).Always
        (SyncReplicator.SynchronizesByConsensus request.channelKey replicators)
        (before.asyncAddDownloadChannelInfo driveKey request true, ∅) events ↔
      (∀ (other : ChannelId) channelSyncInfo,
          before.dnOpinionSyncronizer.syncChannelMap[other]? = some channelSyncInfo →
          other < request.channelKey) ∧
        (channelSyncSystem cereal signer verify request.channelKey).Meets
          (SyncReplicator.CountsResponse cereal signer request.channelKey replicators)
          (before.asyncAddDownloadChannelInfo driveKey request true, ∅) events := by
  have exact_ (greatest : ∀ (other : ChannelId) channelSyncInfo,
      before.dnOpinionSyncronizer.syncChannelMap[other]? = some channelSyncInfo →
      other < request.channelKey) :=
    Transition.always_iff_meets
      (S := channelSyncSystem cereal signer verify request.channelKey) (E := fun _ _ => True)
      (C := SyncReplicator.CountsResponse cereal signer request.channelKey replicators)
      (fun _ awaits => SyncReplicator.AwaitsAnswers.synchronizes awaits)
      (fun _ _ _ awaits _ counts step =>
        SyncReplicator.AwaitsAnswers.step awaits counts step)
      (fun _ _ awaits _ missed => SyncReplicator.AwaitsAnswers.misses awaits missed) events
      (SyncReplicator.awaitsAnswers_add isDrive others running isNew greatest)
      (Transition.meets_of_forall (P := fun _ => True) fun _ _ => trivial)
  constructor
  · intro always
    have greatest : ∀ (other : ChannelId) channelSyncInfo,
        before.dnOpinionSyncronizer.syncChannelMap[other]? = some channelSyncInfo →
        other < request.channelKey := by
      intro other channelSyncInfo present
      by_contra notLess
      exact SyncReplicator.not_synchronizes_add isDrive others running notYet present notLess
        always.head
    exact ⟨greatest, (exact_ greatest).mp always⟩
  · rintro ⟨greatest, meets⟩
    exact (exact_ greatest).mpr meets

section Sample

/-- A replicator of drive 7; our own key is 9. -/
def sampleSyncReplicator (replicators : List ReplicatorKey) : SyncReplicator where
  limiter := { publicKey := 9 }
  dnOpinionSyncronizer :=
    { replicatorKey := 9
      allReplicators := (∅ : Std.TreeMap Key (List ReplicatorKey)).insert 7 replicators }

def sampleDownloadRequest : DownloadRequest where
  channelKey := 4
  prepaidDownloadSize := 100
  replicators := [2, 9]
  clients := [5]

/-- A signed response of a replicator without receipts. -/
def emptyResponse (key : ReplicatorKey) : SyncReplicatorEvent (List ArchiveItem) :=
  .syncRcptReceived [.key key, .key 4] 0 []

theorem respondent_plain (key : ReplicatorKey) (channelId : ChannelId) (sign : Signature) :
    SyncReplicator.respondent plainCereal plainSigner [.key key, .key channelId] sign =
      some (key, channelId) := rfl

theorem countsResponse_emptyResponse {replicators : List ReplicatorKey} {key : ReplicatorKey}
    {state : SyncReplicator × Std.TreeSet ReplicatorKey}
    (missing : ∃ other ∈ replicators, other ∉ state.2.insert key)
    (few : (state.2.insert key).size < consensusThreshould replicators) :
    SyncReplicator.CountsResponse plainCereal plainSigner 4 replicators state
      (emptyResponse key) := by
  intro response sign random otherReplicatorKey isEvent responds
  unfold emptyResponse at isEvent
  injection isEvent with isResponse _ _
  subst isResponse
  rw [respondent_plain] at responds
  obtain rfl : key = otherReplicatorKey := (Prod.mk.inj (Option.some.inj responds)).1
  refine ⟨missing, ?_⟩
  intro _ complete
  omega

/-- Of two replicators only one responds. -/
theorem synchronizes_by_consensus_iff_one_response :
    (channelSyncSystem plainCereal plainSigner acceptAll 4).Always
      (SyncReplicator.SynchronizesByConsensus 4 [2, 3])
      ((sampleSyncReplicator [2, 3]).asyncAddDownloadChannelInfo 7 sampleDownloadRequest true, ∅)
      [emptyResponse 2] := by
  have missing : ∃ other ∈ ([2, 3] : List ReplicatorKey),
      other ∉ (∅ : Std.TreeSet ReplicatorKey).insert 2 := ⟨3, by simp, by simp⟩
  have few : ((∅ : Std.TreeSet ReplicatorKey).insert 2).size < consensusThreshould [2, 3] := by
    decide +kernel
  refine (synchronizes_by_consensus_iff plainCereal plainSigner acceptAll
    (sampleSyncReplicator [2, 3]) 7 sampleDownloadRequest [2, 3] (by simp [sampleSyncReplicator])
    (List.cons_ne_nil _ _) rfl (by simp [sampleSyncReplicator]) (by simp [sampleSyncReplicator])
    [emptyResponse 2]).mpr ⟨?_, countsResponse_emptyResponse missing few, fun _ _ => trivial⟩
  intro other channelSyncInfo present
  simp [sampleSyncReplicator] at present

/-- The only other replicator of the drive has responded, and the limiter refuses the channel
    all the same. -/
theorem synchronized_channel_is_refused :
    ¬ (channelSyncSystem plainCereal plainSigner acceptAll 4).Always
      (SyncReplicator.SynchronizesByConsensus 4 [2])
      ((sampleSyncReplicator [2]).asyncAddDownloadChannelInfo 7 sampleDownloadRequest true, ∅)
      [emptyResponse 2] := by
  rintro ⟨-, later⟩
  have correct := (later _ (SyncReplicator.step_response (respondent_plain 2 4 0))).head
  have all : ∀ key ∈ ([2] : List ReplicatorKey),
      key ∈ (∅ : Std.TreeSet ReplicatorKey).insert 2 := by simp
  have isDrive : (sampleSyncReplicator [2]).dnOpinionSyncronizer.allReplicators[(7 : Key)]? =
      some [2] := by
    simp [sampleSyncReplicator]
  have isNew : (sampleSyncReplicator [2]).limiter.dnChannelMap[sampleDownloadRequest.channelKey]? =
      none := by
    simp [sampleSyncReplicator]
  have refuses := SyncReplicator.refuses_add isDrive rfl isNew
  exact (correct.ended all).2 (refuses.onSyncRcptReceived _ _ _ _ _ _)

end Sample

end SiriusDrive
