import SiriusDrive.ViewerSession.Downloads

/-! # The chunk infos of a viewer

A chunk info is appended if it is signed by the streamer and has the next index. Its stream
is not compared with the stream that is watched.
-/

namespace SiriusDrive.ViewerSession

variable {verify : Key → List UInt8 → Signature → Bool} {hasSigned : Key → List UInt8 → Prop}
  {session after : ViewerSession}

/-- The list of the viewer is the beginning of the stream it watches. -/
def FollowsStream (hasSigned : Key → List UInt8 → Prop) (session : ViewerSession) : Prop :=
  ∀ (index : Nat) (info : ViewerChunkInfo), session.chunkInfoList[index]? = some info →
    info.chunkIndex = index ∧ ∀ streamId, session.liveStreamId = some streamId →
      info.streamId = streamId ∧ hasSigned session.streamerKey info.signedBytes

/-! ## What a response adds -/

/-- The chunk infos of a response that a list of some length is extended by. -/
def acceptedInfos (verify : Key → List UInt8 → Signature → Bool) (streamerKey : Key) :
    Nat → List SignedChunkInfo → List SignedChunkInfo
  | _, [] => []
  | length, info :: infos =>
      if length % 2 ^ 32 ≠ info.chunkIndex then
        if info.chunkIndex < length % 2 ^ 32 then acceptedInfos verify streamerKey length infos
        else []
      else if verify streamerKey info.signedBytes info.sign then
        info :: acceptedInfos verify streamerKey (length + 1) infos
      else []

/-- Each chunk info of a response that has the next index and the signature of the streamer is
    of the watched stream, as long as the indexes do not wrap. -/
def OffersStream (verify : Key → List UInt8 → Signature → Bool) (streamerKey : Key)
    (liveStreamId : Option Hash256) : Nat → List SignedChunkInfo → Prop
  | _, [] => True
  | length, info :: infos =>
      if length % 2 ^ 32 ≠ info.chunkIndex then
        info.chunkIndex < length % 2 ^ 32 →
          OffersStream verify streamerKey liveStreamId length infos
      else verify streamerKey info.signedBytes info.sign = true →
        (length < 2 ^ 32 ∧ ∀ streamId, liveStreamId = some streamId → info.streamId = streamId) ∧
          OffersStream verify streamerKey liveStreamId (length + 1) infos

theorem length_chunkInfos : session.chunkInfos.length = session.chunkInfoList.length :=
  List.length_map _

theorem followsStream_iff : session.FollowsStream hasSigned ↔
    ∀ (index : Nat) (info : SignedChunkInfo), session.chunkInfos[index]? = some info →
      info.chunkIndex = index ∧ ∀ streamId, session.liveStreamId = some streamId →
        info.streamId = streamId ∧ hasSigned session.streamerKey info.signedBytes := by
  constructor
  · intro follows index info isHeld
    rw [chunkInfos, List.getElem?_map] at isHeld
    obtain ⟨held, isHere, rfl⟩ := Option.map_eq_some_iff.mp isHeld
    exact follows index held isHere
  · intro follows index held isHere
    apply follows index held.toSignedChunkInfo
    rw [chunkInfos, List.getElem?_map, isHere]
    rfl

/-! ## What does not concern the list -/

/-- The viewer holds the same chunk infos of the same stream. -/
structure HoldsSame (session after : ViewerSession) : Prop where
  chunkInfos : after.chunkInfos = session.chunkInfos
  liveStreamId : after.liveStreamId = session.liveStreamId
  streamerKey : after.streamerKey = session.streamerKey

namespace HoldsSame

theorem refl (session : ViewerSession) : HoldsSame session session := ⟨rfl, rfl, rfl⟩

theorem followsStream_iff (same : HoldsSame session after) :
    after.FollowsStream hasSigned ↔ session.FollowsStream hasSigned := by
  rw [ViewerSession.followsStream_iff, ViewerSession.followsStream_iff, same.chunkInfos,
    same.liveStreamId, same.streamerKey]

end HoldsSame

theorem holdsSame_of_downloads (downloads : Downloads session after) : HoldsSame session after :=
  ⟨downloads.chunkInfos, downloads.liveStreamId, downloads.streamerKey⟩

theorem holdsSame_onPlaylistHash (endpoint : Endpoint) (streamId : Hash256)
    (playlistInfoHash : InfoHash) :
    HoldsSame session (session.onPlaylistHash endpoint streamId playlistInfoHash) := by
  rw [onPlaylistHash]
  split
  · exact .refl session
  · split
    · exact ⟨rfl, rfl, rfl⟩
    · split
      · exact .refl session
      · simp only
        split <;> exact ⟨rfl, rfl, rfl⟩

/-! ## Adding the chunk infos of a response -/

section Single

variable {info : SignedChunkInfo}

theorem addChunkInfo_other (other : session.chunkInfoList.length % 2 ^ 32 ≠ info.chunkIndex) :
    session.addChunkInfo verify info =
      (session, decide (session.chunkInfoList.length % 2 ^ 32 > info.chunkIndex)) := by
  simp only [addChunkInfo]
  exact if_pos other

theorem addChunkInfo_unsigned (isNext : ¬ session.chunkInfoList.length % 2 ^ 32 ≠ info.chunkIndex)
    (invalid : ¬ verify session.streamerKey info.signedBytes info.sign = true) :
    session.addChunkInfo verify info = (session, false) := by
  simp only [addChunkInfo]
  rw [if_neg isNext, if_pos (by simp [invalid])]

theorem addChunkInfo_next (isNext : ¬ session.chunkInfoList.length % 2 ^ 32 ≠ info.chunkIndex)
    (valid : verify session.streamerKey info.signedBytes info.sign = true) :
    ∃ held : ViewerChunkInfo, held.toSignedChunkInfo = info ∧
      session.addChunkInfo verify info =
        ({ session with chunkInfoList := session.chunkInfoList ++ [held] }, true) := by
  simp only [addChunkInfo]
  rw [if_neg isNext, if_neg (by simp [valid])]
  exact ⟨_, rfl, rfl⟩

end Single

theorem addChunkInfos_spec (infos : List SignedChunkInfo) (session : ViewerSession) :
    (session.addChunkInfos verify infos).1.chunkInfos = session.chunkInfos ++
        acceptedInfos verify session.streamerKey session.chunkInfoList.length infos ∧
      (session.addChunkInfos verify infos).1.liveStreamId = session.liveStreamId ∧
        (session.addChunkInfos verify infos).1.streamerKey = session.streamerKey := by
  induction infos generalizing session with
  | nil => exact ⟨(List.append_nil _).symm, rfl, rfl⟩
  | cons info infos ih =>
      rw [addChunkInfos, acceptedInfos]
      by_cases other : session.chunkInfoList.length % 2 ^ 32 ≠ info.chunkIndex
      · rw [addChunkInfo_other other, if_pos other]
        by_cases known : info.chunkIndex < session.chunkInfoList.length % 2 ^ 32
        · rw [if_pos (decide_eq_true known), if_pos known]
          exact ih session
        · rw [if_neg (by simpa using known), if_neg known]
          exact ⟨(List.append_nil _).symm, rfl, rfl⟩
      · rw [if_neg other]
        by_cases valid : verify session.streamerKey info.signedBytes info.sign = true
        · obtain ⟨held, isHeld, added⟩ := addChunkInfo_next other valid
          rw [added, if_pos rfl, if_pos valid]
          obtain ⟨chunkInfos, liveStreamId, streamerKey⟩ :=
            ih { session with chunkInfoList := session.chunkInfoList ++ [held] }
          refine ⟨?_, liveStreamId, streamerKey⟩
          rw [chunkInfos, List.length_append, List.length_singleton, ViewerSession.chunkInfos,
            List.map_append, List.map_singleton, isHeld, List.append_assoc]
          rfl
        · rw [addChunkInfo_unsigned other valid, if_neg (by simp), if_neg valid]
          exact ⟨(List.append_nil _).symm, rfl, rfl⟩

theorem verified_of_acceptedInfos {streamerKey : Key} {length : Nat} {infos : List SignedChunkInfo}
    {info : SignedChunkInfo} (accepted : info ∈ acceptedInfos verify streamerKey length infos) :
    verify streamerKey info.signedBytes info.sign = true := by
  induction infos generalizing length with
  | nil => cases accepted
  | cons first infos ih =>
      rw [acceptedInfos] at accepted
      split at accepted
      · split at accepted
        · exact ih accepted
        · cases accepted
      · split at accepted
        · rename_i valid
          rcases List.mem_cons.mp accepted with rfl | later
          · exact valid
          · exact ih later
        · cases accepted

theorem offersStream_iff {streamerKey : Key} {liveStreamId : Option Hash256}
    (infos : List SignedChunkInfo) (length : Nat) :
    OffersStream verify streamerKey liveStreamId length infos ↔
      ∀ (index : Nat) (info : SignedChunkInfo),
        (acceptedInfos verify streamerKey length infos)[index]? = some info →
          info.chunkIndex = length + index ∧
            ∀ streamId, liveStreamId = some streamId → info.streamId = streamId := by
  induction infos generalizing length with
  | nil => simp [OffersStream, acceptedInfos]
  | cons first infos ih =>
      rw [OffersStream, acceptedInfos]
      by_cases other : length % 2 ^ 32 ≠ first.chunkIndex
      · rw [if_pos other, if_pos other]
        by_cases known : first.chunkIndex < length % 2 ^ 32
        · rw [if_pos known, ← ih length]
          exact ⟨fun offers => offers known, fun offers _ => offers⟩
        · rw [if_neg known]
          constructor
          · intro _ index info isHere
            cases isHere
          · intro _ isKnown
            exact absurd isKnown known
      · rw [if_neg other, if_neg other]
        have isNext : length % 2 ^ 32 = first.chunkIndex := not_not.mp other
        by_cases valid : verify streamerKey first.signedBytes first.sign = true
        · rw [if_pos valid]
          constructor
          · intro offers
            obtain ⟨⟨small, ofStream⟩, later⟩ := offers valid
            intro index info isHere
            cases index with
            | zero =>
                rw [List.getElem?_cons_zero] at isHere
                cases isHere
                refine ⟨?_, ofStream⟩
                rw [← isNext, Nat.mod_eq_of_lt small, Nat.add_zero]
            | succ index =>
                rw [List.getElem?_cons_succ] at isHere
                have next := (ih (length + 1)).mp later index info isHere
                refine ⟨?_, next.2⟩
                rw [next.1]
                omega
          · intro all _
            have here := all 0 first (List.getElem?_cons_zero)
            refine ⟨⟨?_, here.2⟩, ?_⟩
            · have same : length % 2 ^ 32 = length := isNext.trans here.1
              omega
            · apply (ih (length + 1)).mpr
              intro index info isHere
              have next := all (index + 1) info (by rw [List.getElem?_cons_succ]; exact isHere)
              refine ⟨?_, next.2⟩
              rw [next.1]
              omega
        · rw [if_neg valid]
          constructor
          · intro _ index info isHere
            cases isHere
          · intro _ isValid
            exact absurd isValid valid

/-! ## Every run -/

/-- The chunk infos that have come before the stream was chosen are of the stream; those that
    come later are offered for the stream. -/
def KeepsToStream (verify : Key → List UInt8 → Signature → Bool)
    (hasSigned : Key → List UInt8 → Prop) (session : ViewerSession) : ViewerEvent → Prop
  | .startWatchingLiveStream streamId streamerKey _ =>
      session.liveStreamId = none → ∀ info ∈ session.chunkInfos,
        info.streamId = streamId ∧ hasSigned streamerKey info.signedBytes
  | .chunksInfo chunkIndex infos _ =>
      ¬ (chunkIndex = 0xffffFFFF ∨ chunkIndex = 0xffffFFF0) →
        OffersStream verify session.streamerKey session.liveStreamId session.chunkInfos.length infos
  | .playlistHash .. | .runPostedDownload | .downloadCompleted _ | .downloadFailed => True

theorem holdsSame_onChunksInfo (chunkIndex : Nat) (infos : List SignedChunkInfo)
    (isComplete : Bool) (isList : ¬ (chunkIndex = 0xffffFFFF ∨ chunkIndex = 0xffffFFF0)) :
    HoldsSame (session.addChunkInfos verify infos).1
      (session.onChunksInfo verify chunkIndex infos isComplete) := by
  rw [onChunksInfo, if_neg isList]
  split
  · exact holdsSame_of_downloads downloads_tryLoadNextChunk
  · exact .refl _

theorem followsStream_addChunkInfos
    (unforgeable : ∀ key bytes sign, verify key bytes sign = true → hasSigned key bytes)
    (infos : List SignedChunkInfo) (follows : session.FollowsStream hasSigned) :
    (session.addChunkInfos verify infos).1.FollowsStream hasSigned ↔
      OffersStream verify session.streamerKey session.liveStreamId session.chunkInfos.length
        infos := by
  obtain ⟨chunkInfos, liveStreamId, streamerKey⟩ := @addChunkInfos_spec verify infos session
  rw [followsStream_iff, chunkInfos, liveStreamId, streamerKey, length_chunkInfos,
    offersStream_iff, ← length_chunkInfos]
  constructor
  · intro all index info isHere
    have isAdded := all (session.chunkInfos.length + index) info (by
      rw [List.getElem?_append_right (Nat.le_add_right _ _), Nat.add_sub_cancel_left]
      exact isHere)
    exact ⟨isAdded.1, fun streamId isLive => (isAdded.2 streamId isLive).1⟩
  · intro offers index info isHere
    rcases Nat.lt_or_ge index session.chunkInfos.length with old | new
    · rw [List.getElem?_append_left old] at isHere
      exact followsStream_iff.mp follows index info isHere
    · rw [List.getElem?_append_right new] at isHere
      obtain ⟨isIndex, ofStream⟩ := offers _ info isHere
      refine ⟨?_, ?_⟩
      · rw [isIndex]
        omega
      · intro streamId isLive
        refine ⟨ofStream streamId isLive, ?_⟩
        exact unforgeable _ _ _ (verified_of_acceptedInfos (List.mem_of_getElem? isHere))

/-- The chosen stream is followed exactly if what is held is of that stream. -/
theorem followsStream_start {streamId : Hash256} {streamerKey : Key}
    {replicators : List ReplicatorKey} (follows : session.FollowsStream hasSigned) :
    (session.startWatchingLiveStream streamId streamerKey replicators).FollowsStream hasSigned ↔
      (session.liveStreamId = none → ∀ info ∈ session.chunkInfos,
        info.streamId = streamId ∧ hasSigned streamerKey info.signedBytes) := by
  rw [startWatchingLiveStream]
  cases isLive : session.liveStreamId with
  | some watched =>
      rw [Option.isSome_some, if_pos rfl]
      constructor
      · intro _ none
        cases none
      · intro _
        have same : HoldsSame session
            { session with liveStreamId := some watched, isBroken := true } :=
          ⟨rfl, isLive.symm, rfl⟩
        exact same.followsStream_iff.mpr follows
  | none =>
      rw [if_neg (by simp), followsStream_iff]
      constructor
      · intro all _ info member
        obtain ⟨index, isHere⟩ := List.mem_iff_getElem?.mp member
        exact (all index info isHere).2 streamId rfl
      · intro ofStream index info isHere
        refine ⟨(followsStream_iff.mp follows index info isHere).1, ?_⟩
        intro chosen same
        cases same
        exact ofStream rfl info (List.mem_of_getElem? isHere)

theorem followsStream_handle
    (unforgeable : ∀ key bytes sign, verify key bytes sign = true → hasSigned key bytes)
    {event : ViewerEvent} (follows : session.FollowsStream hasSigned)
    (step : session.handle verify event = some after) :
    after.FollowsStream hasSigned ↔ session.KeepsToStream verify hasSigned event := by
  cases event with
  | startWatchingLiveStream streamId streamerKey replicators =>
      cases step
      exact followsStream_start follows
  | chunksInfo chunkIndex infos isComplete =>
      cases step
      by_cases isList : ¬ (chunkIndex = 0xffffFFFF ∨ chunkIndex = 0xffffFFF0)
      · rw [(holdsSame_onChunksInfo chunkIndex infos isComplete isList).followsStream_iff,
          followsStream_addChunkInfos unforgeable infos follows]
        exact ⟨fun offers _ => offers, fun offers => offers isList⟩
      · rw [onChunksInfo, if_pos (not_not.mp isList)]
        exact ⟨fun _ isOther => absurd isOther isList, fun _ => follows⟩
  | playlistHash endpoint streamId playlistInfoHash =>
      cases step
      rw [(holdsSame_onPlaylistHash endpoint streamId playlistInfoHash).followsStream_iff]
      exact ⟨fun _ => trivial, fun _ => follows⟩
  | runPostedDownload =>
      rw [(holdsSame_of_downloads (downloads_handle rfl step)).followsStream_iff]
      exact ⟨fun _ => trivial, fun _ => follows⟩
  | downloadCompleted chunks =>
      rw [(holdsSame_of_downloads (downloads_handle rfl step)).followsStream_iff]
      exact ⟨fun _ => trivial, fun _ => follows⟩
  | downloadFailed =>
      rw [(holdsSame_of_downloads (downloads_handle rfl step)).followsStream_iff]
      exact ⟨fun _ => trivial, fun _ => follows⟩

theorem followsStream_new : ({} : ViewerSession).FollowsStream hasSigned := by
  intro index info isHeld
  cases isHeld

/-- With signatures that cannot be forged, the list of the viewer is always the beginning of the
    watched stream exactly if nothing signed for another stream is offered in its place. -/
theorem always_followsStream_iff
    (unforgeable : ∀ key bytes sign, verify key bytes sign = true → hasSigned key bytes)
    {events : List ViewerEvent} (run : (viewerSystem verify).exec {} events = some after) :
    (viewerSystem verify).Always (FollowsStream hasSigned) {} events ↔
      (viewerSystem verify).Meets (KeepsToStream verify hasSigned) {} events := by
  apply Transition.always_iff_meets (I := FollowsStream hasSigned) (fun _ follows => follows)
  · intro session event changed follows _ keeps step
    simp only [viewerSystem] at step
    split at step
    · cases step
    · exact (followsStream_handle unforgeable follows step).mpr keeps
  · intro session event follows enabled strays
    obtain ⟨changed, step⟩ := Option.isSome_iff_exists.mp enabled
    refine ⟨changed, step, ?_⟩
    simp only [viewerSystem] at step
    split at step
    · cases step
    · exact mt (followsStream_handle unforgeable follows step).mp strays
  · exact followsStream_new
  · exact Transition.meets_enabled run

/-! ### A stream of two streams -/

def sampleChunkInfo (streamId : Hash256) : SignedChunkInfo where
  streamId := streamId
  chunkIndex := 0
  chunkInfoHash := 3
  durationMks := 1000000
  sizeBytes := 1024
  sign := 7

/-- The streamer has signed the first chunks of two streams. -/
def sampleSigned (key : Key) (bytes : List UInt8) : Prop :=
  key = 5 ∧ (bytes = (sampleChunkInfo 8).signedBytes ∨ bytes = (sampleChunkInfo 9).signedBytes)

instance (key : Key) (bytes : List UInt8) : Decidable (sampleSigned key bytes) :=
  inferInstanceAs (Decidable (_ ∧ _))

def sampleVerify (key : Key) (bytes : List UInt8) (sign : Signature) : Bool :=
  decide (sampleSigned key bytes) && sign = 7

theorem sampleVerify_unforgeable (key : Key) (bytes : List UInt8) (sign : Signature)
    (valid : sampleVerify key bytes sign = true) : sampleSigned key bytes := by
  rw [sampleVerify, Bool.and_eq_true, decide_eq_true_eq] at valid
  exact valid.1

def sampleResponse (streamId : Hash256) : List ViewerEvent :=
  [.startWatchingLiveStream 9 5 [1], .chunksInfo 0 [sampleChunkInfo streamId] true]

/-- A chunk of the watched stream is followed. -/
theorem sampleResponse_follows :
    (viewerSystem sampleVerify).Always (FollowsStream sampleSigned) {} (sampleResponse 9) := by
  have run : ((viewerSystem sampleVerify).exec {} (sampleResponse 9)).isSome := by decide
  obtain ⟨after, isEnd⟩ := Option.isSome_iff_exists.mp run
  apply (always_followsStream_iff sampleVerify_unforgeable isEnd).mpr
  refine ⟨?_, ?_⟩
  · intro _ info member
    cases member
  · intro watching step
    cases step
    refine ⟨?_, fun _ _ => trivial⟩
    intro _
    change OffersStream sampleVerify 5 (some 9) 0 [sampleChunkInfo 9]
    rw [OffersStream, if_neg (by decide)]
    intro _
    refine ⟨⟨by decide, ?_⟩, trivial⟩
    intro streamId same
    exact Option.some.inj same

/-- A chunk of another stream of the same streamer is taken for one of the watched stream. -/
theorem otherStream_isFollowed :
    ¬ ∀ (verify : Key → List UInt8 → Signature → Bool) (hasSigned : Key → List UInt8 → Prop),
      (∀ key bytes sign, verify key bytes sign = true → hasSigned key bytes) →
        ∀ events after, (viewerSystem verify).exec {} events = some after →
          after.FollowsStream hasSigned := by
  intro claim
  have reached : (viewerSystem sampleVerify).Reaches
      (fun after => after.liveStreamId = some 9 ∧
        after.chunkInfoList.head?.map (·.streamId) = some 8) {} (sampleResponse 8) := by
    decide +kernel
  obtain ⟨after, run, isLive, isFirst⟩ := reached
  obtain ⟨info, isHead, ofOther⟩ := Option.map_eq_some_iff.mp isFirst
  rw [List.head?_eq_getElem?] at isHead
  have follows := claim sampleVerify sampleSigned sampleVerify_unforgeable _ after run 0 info isHead
  have ofWatched := (follows.2 9 isLive).1
  rw [ofOther] at ofWatched
  exact absurd ofWatched (by decide)

end SiriusDrive.ViewerSession
