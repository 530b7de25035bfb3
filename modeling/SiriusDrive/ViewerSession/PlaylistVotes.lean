import SiriusDrive.Lib.MapLookup
import SiriusDrive.ViewerSession.PlaylistDownload

/-! # The vote on a playlist

A viewer accepts the hash of a playlist when enough replicators have given it. The count of a
hash is read before the answer at hand is added to it, so one answer more is needed than the
threshold says.
-/

namespace SiriusDrive.ViewerSession

open Transition

variable {verify : Key → List UInt8 → Signature → Bool} {session after : ViewerSession}
  {streamId : Hash256} {events : List ViewerEvent}

/-! ## Answers -/

/-- The answers about a stream, with the replicators that have given them. -/
def ViewerEvent.answer? (streamId : Hash256) : ViewerEvent → Option (Endpoint × InfoHash)
  | .playlistHash endpoint answered playlistInfoHash =>
      if answered = streamId then some (endpoint, playlistInfoHash) else none
  | .startWatchingLiveStream .. | .chunksInfo .. | .runPostedDownload | .downloadCompleted _
  | .downloadFailed => none

def answers (streamId : Hash256) (events : List ViewerEvent) : List (Endpoint × InfoHash) :=
  events.filterMap (·.answer? streamId)

def votes (hash : InfoHash) (answers : List (Endpoint × InfoHash)) : Nat :=
  (answers.map Prod.snd).count hash

theorem votes_append (hash : InfoHash) (first second : List (Endpoint × InfoHash)) :
    votes hash (first ++ second) = votes hash first + votes hash second := by
  rw [votes, List.map_append, List.count_append]
  rfl

theorem votes_add_le {hash other : InfoHash} (differ : other ≠ hash)
    (answers : List (Endpoint × InfoHash)) : votes hash answers + votes other answers ≤ answers.length := by
  induction answers with
  | nil => exact Nat.le_refl 0
  | cons answer answers ih =>
      simp only [votes, List.map_cons, List.count_cons, List.length_cons] at ih ⊢
      by_cases isHash : answer.2 = hash
      · have notOther : ¬ answer.2 = other := by
          intro isOther
          exact differ (isOther.symm.trans isHash)
        simp only [beq_iff_eq, isHash, if_true]
        rw [if_neg (by rw [← isHash]; exact notOther)]
        omega
      · simp only [beq_iff_eq, isHash, if_false]
        split <;> omega

theorem votes_le (hash : InfoHash) (answers : List (Endpoint × InfoHash)) :
    votes hash answers ≤ answers.length := by
  rw [votes, ← List.length_map Prod.snd]
  exact List.count_le_length

theorem answers_cons_none {event : ViewerEvent} (noAnswer : event.answer? streamId = none) :
    answers streamId (event :: events) = answers streamId events :=
  List.filterMap_cons_none noAnswer

theorem answers_cons_some {event : ViewerEvent} {answer : Endpoint × InfoHash}
    (isAnswer : event.answer? streamId = some answer) :
    answers streamId (event :: events) = answer :: answers streamId events :=
  List.filterMap_cons_some isAnswer

theorem eq_playlistHash {event : ViewerEvent} {answer : Endpoint × InfoHash}
    (isAnswer : event.answer? streamId = some answer) :
    event = .playlistHash answer.1 streamId answer.2 := by
  cases event with
  | playlistHash endpoint answered playlistInfoHash =>
      simp only [ViewerEvent.answer?] at isAnswer
      split at isAnswer
      · rename_i same
        cases isAnswer
        rw [same]
      · cases isAnswer
  | startWatchingLiveStream | chunksInfo | runPostedDownload | downloadCompleted | downloadFailed =>
      cases isAnswer

/-! ## The count -/

theorem electedHash_eq_some {enough : Nat} {votingMap : Std.TreeMap InfoHash Nat}
    {hashes : List InfoHash} {hash : InfoHash}
    (isElected : electedHash enough votingMap hashes = some hash) :
    enough < (votingMap[hash]?).getD 0 + hashes.count hash := by
  induction hashes generalizing votingMap with
  | nil => cases isElected
  | cons first hashes ih =>
      rw [electedHash] at isElected
      split at isElected
      · rename_i isEnough
        cases isElected
        rw [List.count_cons_self]
        omega
      · have later := ih isElected
        rw [Std.TreeMap.getElem?_insert_eq] at later
        rw [List.count_cons]
        by_cases same : hash = first
        · rw [if_pos same, Option.getD_some, ← same] at later
          rw [same, if_pos (beq_self_eq_true first), ← same]
          omega
        · rw [if_neg same] at later
          omega

theorem electedHash_eq_none {enough : Nat} {votingMap : Std.TreeMap InfoHash Nat}
    {hashes : List InfoHash} (isElected : electedHash enough votingMap hashes = none)
    {hash : InfoHash} (member : hash ∈ hashes) :
    (votingMap[hash]?).getD 0 + hashes.count hash ≤ enough := by
  induction hashes generalizing votingMap with
  | nil => cases member
  | cons first hashes ih =>
      rw [electedHash] at isElected
      split at isElected
      · cases isElected
      · rename_i few
        rw [List.count_cons]
        by_cases same : hash = first
        · subst same
          rw [if_pos (beq_self_eq_true hash)]
          by_cases again : hash ∈ hashes
          · have later := ih isElected again
            rw [Std.TreeMap.getElem?_insert_eq, if_pos rfl, Option.getD_some] at later
            omega
          · rw [List.count_eq_zero.mpr again]
            omega
        · have isLater : hash ∈ hashes := by
            rcases List.mem_cons.mp member with isFirst | isLater
            · exact absurd isFirst same
            · exact isLater
          have later := ih isElected isLater
          rw [Std.TreeMap.getElem?_insert_eq, if_neg same] at later
          rw [if_neg (by simpa using Ne.symm same)]
          omega

theorem acceptedHash_spec {noted : List (Endpoint × InfoHash)}
    (isNoted : session.playlistInfoHashMap.toList.Perm noted) :
    (∀ hash, session.acceptedHash = some hash → session.voteThreshold < votes hash noted) ∧
      (session.acceptedHash = none → ∀ hash, votes hash noted ≤ session.voteThreshold) := by
  have count : ∀ hash, (session.playlistInfoHashMap.toList.map Prod.snd).count hash =
      votes hash noted := fun hash => (isNoted.map Prod.snd).count_eq hash
  have size : session.playlistInfoHashMap.size = noted.length := by
    rw [← Std.TreeMap.length_toList, isNoted.length_eq]
  rw [acceptedHash]
  constructor
  · intro hash isElected
    split at isElected
    · have enough := electedHash_eq_some isElected
      rw [count] at enough
      simpa using enough
    · cases isElected
  · intro isElected hash
    split at isElected
    · by_cases member : hash ∈ session.playlistInfoHashMap.toList.map Prod.snd
      · have few := electedHash_eq_none isElected member
        rw [count] at few
        simpa using few
      · rw [← count, List.count_eq_zero.mpr member]
        exact Nat.zero_le _
    · rename_i few
      rw [size] at few
      have le := votes_le hash noted
      omega

/-! ## What does not concern the vote -/

/-- The viewer has the same answers about the same stream. -/
structure VotesSame (session after : ViewerSession) : Prop where
  map : after.playlistInfoHashMap = session.playlistInfoHashMap
  received : after.playlistInfoHashReceived = session.playlistInfoHashReceived
  liveStreamId : after.liveStreamId = session.liveStreamId
  replicatorSet : after.replicatorSet = session.replicatorSet
  postedDownloads : after.postedDownloads ≤ session.postedDownloads

theorem votesSame_of_downloads (downloads : Downloads session after) : VotesSame session after :=
  ⟨downloads.map, downloads.received, downloads.liveStreamId, downloads.replicatorSet,
    downloads.postedDownloads⟩

theorem votesSame_onChunksInfo (chunkIndex : Nat) (infos : List SignedChunkInfo)
    (isComplete : Bool) :
    VotesSame session (session.onChunksInfo verify chunkIndex infos isComplete) := by
  obtain ⟨chunkInfoList, isAdded⟩ := session.addChunkInfos_eq verify infos
  rw [onChunksInfo, isAdded]
  split
  · exact ⟨rfl, rfl, rfl, rfl, Nat.le_refl _⟩
  · split
    · exact { votesSame_of_downloads (@downloads_tryLoadNextChunk
        { session with chunkInfoList }) with }
    · exact ⟨rfl, rfl, rfl, rfl, Nat.le_refl _⟩

theorem votesSame_handle {event : ViewerEvent} (watches : session.liveStreamId = some streamId)
    (noAnswer : event.answer? streamId = none) (step : session.handle verify event = some after) :
    VotesSame session after := by
  cases event with
  | startWatchingLiveStream other streamerKey replicators =>
      cases step
      rw [startWatchingLiveStream, if_pos (by simp [watches])]
      exact ⟨rfl, rfl, rfl, rfl, Nat.le_refl _⟩
  | chunksInfo chunkIndex infos isComplete =>
      cases step
      exact votesSame_onChunksInfo chunkIndex infos isComplete
  | playlistHash endpoint answered playlistInfoHash =>
      cases step
      have other : session.liveStreamId ≠ some answered := by
        rw [watches]
        intro same
        cases same
        simp [ViewerEvent.answer?] at noAnswer
      rw [onPlaylistHash]
      split
      · exact ⟨rfl, rfl, rfl, rfl, Nat.le_refl _⟩
      · split <;> exact ⟨rfl, rfl, rfl, rfl, Nat.le_refl _⟩
  | runPostedDownload => exact votesSame_of_downloads (downloads_handle rfl step)
  | downloadCompleted chunks => exact votesSame_of_downloads (downloads_handle rfl step)
  | downloadFailed => exact votesSame_of_downloads (downloads_handle rfl step)

theorem watched_onPlaylistHash (endpoint : Endpoint) (answered : Hash256) (hash : InfoHash) :
    (session.onPlaylistHash endpoint answered hash).liveStreamId = session.liveStreamId ∧
      (session.onPlaylistHash endpoint answered hash).replicatorSet = session.replicatorSet := by
  rw [onPlaylistHash]
  split
  · exact ⟨rfl, rfl⟩
  · split
    · exact ⟨rfl, rfl⟩
    · split
      · exact ⟨rfl, rfl⟩
      · simp only
        split <;> exact ⟨rfl, rfl⟩

theorem watched_handle {event : ViewerEvent} (watches : session.liveStreamId = some streamId)
    (step : session.handle verify event = some after) :
    after.liveStreamId = some streamId ∧ after.replicatorSet = session.replicatorSet := by
  cases isAnswer : event.answer? streamId with
  | none =>
      have same := votesSame_handle watches isAnswer step
      exact ⟨same.liveStreamId.trans watches, same.replicatorSet⟩
  | some answer =>
      cases eq_playlistHash isAnswer
      cases step
      have watched := @watched_onPlaylistHash session answer.1 streamId answer.2
      exact ⟨watched.1.trans watches, watched.2⟩

theorem watched_run (watches : session.liveStreamId = some streamId)
    (run : (viewerSystem verify).exec session events = some after) :
    after.liveStreamId = some streamId ∧ after.replicatorSet = session.replicatorSet := by
  apply invariant_of_step (I := fun later =>
    later.liveStreamId = some streamId ∧ later.replicatorSet = session.replicatorSet) _
    ⟨watches, rfl⟩ run
  intro before event next kept step
  have watched := watched_handle kept.1 (handle_of_step step)
  exact ⟨watched.1, watched.2.trans kept.2⟩

/-- An accepted hash stays accepted, and no other one is. -/
theorem received_handle {event : ViewerEvent} (received : session.playlistInfoHashReceived = true)
    (step : session.handle verify event = some after) :
    after.playlistInfoHashReceived = true ∧ startedIn session event after = [] := by
  have of_same (same : VotesSame session after) :
      after.playlistInfoHashReceived = true ∧ startedIn session event after = [] :=
    ⟨same.received.trans received, startedIn_of_le same.postedDownloads⟩
  cases event with
  | startWatchingLiveStream other streamerKey replicators =>
      cases step
      rw [startWatchingLiveStream]
      split
      · exact ⟨received, startedIn_of_le (Nat.le_refl _)⟩
      · exact ⟨received, startedIn_of_le (Nat.le_refl _)⟩
  | chunksInfo chunkIndex infos isComplete =>
      cases step
      exact of_same (votesSame_onChunksInfo chunkIndex infos isComplete)
  | playlistHash endpoint answered playlistInfoHash =>
      cases step
      rw [onPlaylistHash, if_pos received]
      exact ⟨received, startedIn_of_le (Nat.le_refl _)⟩
  | runPostedDownload => exact of_same (votesSame_of_downloads (downloads_handle rfl step))
  | downloadCompleted chunks => exact of_same (votesSame_of_downloads (downloads_handle rfl step))
  | downloadFailed => exact of_same (votesSame_of_downloads (downloads_handle rfl step))

theorem startedPlaylists_of_received (received : session.playlistInfoHashReceived = true) :
    startedPlaylists verify session events = [] := by
  induction events generalizing session with
  | nil => rfl
  | cons event events ih =>
      rw [startedPlaylists]
      cases step : (viewerSystem verify).step session event with
      | none => simp only [trace, step]
      | some next =>
          obtain ⟨still, nothing⟩ := received_handle received (handle_of_step step)
          rw [trace_cons step, ofStep_eq step, nothing]
          exact ih still

/-! ## Runs -/

/-- A viewer of a stream has noted some answers and has not accepted a hash yet. -/
structure Awaits (streamId : Hash256) (noted : List (Endpoint × InfoHash))
    (session : ViewerSession) : Prop where
  isNoted : session.playlistInfoHashMap.toList.Perm noted
  received : session.playlistInfoHashReceived = false
  liveStreamId : session.liveStreamId = some streamId
  few : ∀ hash, votes hash noted ≤ session.voteThreshold

namespace Awaits

variable {noted : List (Endpoint × InfoHash)}

theorem of_same (awaits : session.Awaits streamId noted) (same : VotesSame session after) :
    after.Awaits streamId noted where
  isNoted := same.map ▸ awaits.isNoted
  received := same.received.trans awaits.received
  liveStreamId := same.liveStreamId.trans awaits.liveStreamId
  few := by
    rw [voteThreshold, same.replicatorSet]
    exact awaits.few

theorem noteAnswer (awaits : session.Awaits streamId noted) {endpoint : Endpoint}
    (fresh : endpoint ∉ noted.map Prod.fst) (hash : InfoHash) :
    (session.noteAnswer endpoint hash).playlistInfoHashMap.toList.Perm
      (noted ++ [(endpoint, hash)]) := by
  have kept : session.playlistInfoHashMap.toList.filter (¬ endpoint == ·.1) =
      session.playlistInfoHashMap.toList := by
    rw [List.filter_eq_self]
    intro entry member
    have isOther : endpoint ≠ entry.1 := by
      intro same
      exact fresh (List.mem_map.mpr ⟨entry, awaits.isNoted.mem_iff.mp member, same.symm⟩)
    simpa using isOther
  have inserted := @Std.TreeMap.toList_insert_perm _ _ _ session.playlistInfoHashMap _ _ _ endpoint hash
  rw [kept] at inserted
  exact inserted.trans ((awaits.isNoted.cons _).trans (List.perm_append_singleton _ _).symm)

/-- What an answer about the stream does: enough answers are followed by the download, with too
    few the viewer goes on. -/
theorem onPlaylistHash (awaits : session.Awaits streamId noted) {endpoint : Endpoint}
    (fresh : endpoint ∉ noted.map Prod.fst) (hash : InfoHash) (event : ViewerEvent) :
    (∃ accepted, startedIn session event (session.onPlaylistHash endpoint streamId hash) =
          [accepted] ∧
        (session.onPlaylistHash endpoint streamId hash).playlistInfoHashReceived = true ∧
          session.voteThreshold < votes accepted (noted ++ [(endpoint, hash)])) ∨
      startedIn session event (session.onPlaylistHash endpoint streamId hash) = [] ∧
        (session.onPlaylistHash endpoint streamId hash).Awaits streamId
          (noted ++ [(endpoint, hash)]) := by
  have isNoted := awaits.noteAnswer fresh hash
  obtain ⟨enough, few⟩ := acceptedHash_spec isNoted
  rw [ViewerSession.onPlaylistHash, if_neg (by simp [awaits.received]),
    if_neg (by simp [awaits.liveStreamId]), if_neg (by simp [awaits.liveStreamId])]
  simp only
  cases accepted : (session.noteAnswer endpoint hash).acceptedHash with
  | some first =>
      exact .inl ⟨first, startedIn_of_posted rfl rfl, rfl, enough first accepted⟩
  | none =>
      exact .inr ⟨startedIn_of_le (Nat.le_refl _), isNoted, awaits.received, awaits.liveStreamId,
        few accepted⟩

end Awaits

/-- While there is at most one answer for each replicator, the viewer starts the download of the
    hash that has more votes than the threshold. -/
theorem mem_startedPlaylists {noted : List (Endpoint × InfoHash)}
    (awaits : session.Awaits streamId noted)
    (run : (viewerSystem verify).exec session events = some after)
    (distinct : ((noted ++ answers streamId events).map Prod.fst).Nodup)
    (few : (noted ++ answers streamId events).length ≤ session.replicatorSet.card)
    (hash : InfoHash) :
    hash ∈ startedPlaylists verify session events ↔
      session.voteThreshold < votes hash (noted ++ answers streamId events) := by
  induction events generalizing session noted with
  | nil =>
      rw [answers, List.filterMap_nil, List.append_nil]
      have enough := awaits.few hash
      constructor
      · intro member
        cases member
      · intro many
        omega
  | cons event events ih =>
      obtain ⟨next, step, rest⟩ := (exec_cons_iff _).mp run
      have isStep := handle_of_step step
      rw [startedPlaylists, trace_cons step, ofStep_eq step, ← startedPlaylists]
      cases isAnswer : event.answer? streamId with
      | none =>
          have same := votesSame_handle awaits.liveStreamId isAnswer isStep
          rw [answers_cons_none isAnswer] at distinct few ⊢
          rw [startedIn_of_le same.postedDownloads, List.nil_append]
          have later := ih (awaits.of_same same) rest distinct (by rw [same.replicatorSet]; exact few)
          rw [voteThreshold, same.replicatorSet] at later
          exact later
      | some answer =>
          obtain ⟨endpoint, answered⟩ := answer
          cases eq_playlistHash isAnswer
          rw [answers_cons_some isAnswer, List.append_cons] at distinct few ⊢
          have fresh : endpoint ∉ noted.map Prod.fst := by
            rw [List.map_append, List.map_append, List.append_assoc] at distinct
            intro member
            exact (List.nodup_append.mp distinct).2.2 _ member endpoint
              (List.mem_append_left _ (by simp)) rfl
          have sameReplicators := (watched_handle awaits.liveStreamId isStep).2
          rcases awaits.onPlaylistHash fresh answered (.playlistHash endpoint streamId answered) with
            ⟨accepted, started, received, enough⟩ | ⟨started, still⟩
          · cases isStep
            rw [started, startedPlaylists_of_received received, List.append_nil,
              List.mem_singleton]
            constructor
            · intro isAccepted
              rw [isAccepted, votes_append]
              exact Nat.lt_add_right _ enough
            · intro many
              by_contra differ
              have both := votes_add_le (Ne.symm differ)
                (noted ++ [(endpoint, answered)] ++ answers streamId events)
              rw [votes_append accepted] at both
              rw [voteThreshold] at enough many
              omega
          · cases isStep
            rw [started, List.nil_append]
            have later := ih still rest distinct (by rw [sameReplicators]; exact few)
            rw [voteThreshold, sameReplicators] at later
            exact later

/-! ## Every order of answers -/

/-- A viewer that watches nothing yet has no answers. -/
structure Idles (session : ViewerSession) : Prop where
  map : session.playlistInfoHashMap = ∅
  received : session.playlistInfoHashReceived = false
  liveStreamId : session.liveStreamId = none

namespace Idles

theorem of_same (idles : session.Idles) (same : VotesSame session after) : after.Idles where
  map := same.map.trans idles.map
  received := same.received.trans idles.received
  liveStreamId := same.liveStreamId.trans idles.liveStreamId

theorem start (idles : session.Idles) (streamerKey : Key) (replicators : List ReplicatorKey) :
    (session.startWatchingLiveStream streamId streamerKey replicators).Awaits streamId [] := by
  rw [startWatchingLiveStream, if_neg (by simp [idles.liveStreamId])]
  refine ⟨?_, idles.received, rfl, ?_⟩
  · rw [idles.map]
    exact List.Perm.refl _
  · intro hash
    exact Nat.zero_le _

/-- An answer that nobody has asked for breaks the viewer before it watches anything. -/
theorem not_run_playlistHash (idles : session.Idles) {endpoint : Endpoint} {answered : Hash256}
    {hash : InfoHash}
    (run : (viewerSystem verify).exec (session.onPlaylistHash endpoint answered hash) events =
      some after) : after.liveStreamId = none := by
  have broken : session.onPlaylistHash endpoint answered hash = { session with isBroken := true } := by
    rw [onPlaylistHash, if_neg (by simp [idles.received]), if_pos idles.liveStreamId]
  rw [broken] at run
  cases events with
  | nil =>
      cases run
      exact idles.liveStreamId
  | cons event events =>
      obtain ⟨next, step, _⟩ := (exec_cons_iff _).mp run
      cases step

theorem mem_startedPlaylists (idles : session.Idles)
    (run : (viewerSystem verify).exec session events = some after)
    (watches : after.liveStreamId = some streamId)
    (distinct : ((answers streamId events).map Prod.fst).Nodup)
    (few : (answers streamId events).length ≤ after.replicatorSet.card) (hash : InfoHash) :
    hash ∈ startedPlaylists verify session events ↔
      after.voteThreshold < votes hash (answers streamId events) := by
  induction events generalizing session with
  | nil =>
      cases run
      rw [idles.liveStreamId] at watches
      cases watches
  | cons event events ih =>
      obtain ⟨next, step, rest⟩ := (exec_cons_iff _).mp run
      have isStep := handle_of_step step
      rw [startedPlaylists, trace_cons step, ofStep_eq step, ← startedPlaylists]
      have goesOn (same : VotesSame session next) (noAnswer : event.answer? streamId = none) :
          hash ∈ startedIn session event next ++ startedPlaylists verify next events ↔
            after.voteThreshold < votes hash (answers streamId (event :: events)) := by
        rw [answers_cons_none noAnswer] at distinct few ⊢
        rw [startedIn_of_le same.postedDownloads, List.nil_append]
        exact ih (idles.of_same same) rest distinct few
      cases event with
      | startWatchingLiveStream chosen streamerKey replicators =>
          cases isStep
          have awaits := @Idles.start _ chosen idles streamerKey replicators
          obtain ⟨still, sameReplicators⟩ := watched_run awaits.liveStreamId rest
          obtain rfl : chosen = streamId := Option.some.inj (still.symm.trans watches)
          have nothing : startedIn session (.startWatchingLiveStream chosen streamerKey replicators)
              (session.startWatchingLiveStream chosen streamerKey replicators) = [] := by
            refine startedIn_of_le (Nat.le_of_eq ?_)
            rw [startWatchingLiveStream, if_neg (by simp [idles.liveStreamId])]
          rw [nothing, List.nil_append]
          rw [voteThreshold, sameReplicators] at *
          exact ViewerSession.mem_startedPlaylists awaits rest distinct few hash
      | chunksInfo chunkIndex infos isComplete =>
          cases isStep
          exact goesOn (votesSame_onChunksInfo chunkIndex infos isComplete) rfl
      | playlistHash endpoint answered playlistInfoHash =>
          cases isStep
          rw [idles.not_run_playlistHash rest] at watches
          cases watches
      | runPostedDownload =>
          exact goesOn (votesSame_of_downloads (downloads_handle rfl isStep)) rfl
      | downloadCompleted chunks =>
          exact goesOn (votesSame_of_downloads (downloads_handle rfl isStep)) rfl
      | downloadFailed =>
          exact goesOn (votesSame_of_downloads (downloads_handle rfl isStep)) rfl

end Idles

/-- The replicators of the stream answer at most once each. -/
structure OneAnswerEach (streamId : Hash256) (events : List ViewerEvent) (after : ViewerSession) :
    Prop where
  watches : after.liveStreamId = some streamId
  distinct : ((answers streamId events).map Prod.fst).Nodup
  few : (answers streamId events).length ≤ after.replicatorSet.card

/-- The viewer has posted the download of exactly the hashes that more than two thirds of the
    replicators have given. -/
def FollowsMajority (verify : Key → List UInt8 → Signature → Bool) (streamId : Hash256)
    (events : List ViewerEvent) (after : ViewerSession) : Prop :=
  ∀ hash, hash ∈ startedPlaylists verify {} events ↔
    2 * after.replicatorSet.card < 3 * votes hash (answers streamId events)

/-- In every order of the answers, the majority is followed exactly if no hash is just one vote
    beyond two thirds, and the playlists that are downloaded are those whose download was posted. -/
theorem followsMajority_iff (run : (viewerSystem verify).exec {} events = some after)
    (once : OneAnswerEach streamId events after) :
    (FollowsMajority verify streamId events after ↔
      ∀ hash, votes hash (answers streamId events) ≠ after.replicatorSet.card * 2 / 3 + 1) ∧
    DownloadsStarted verify events after := by
  refine ⟨?_, downloadsStarted run⟩
  have idles : Idles {} := ⟨rfl, rfl, rfl⟩
  apply forall_congr'
  intro hash
  rw [idles.mem_startedPlaylists run once.watches once.distinct once.few, voteThreshold]
  omega

/-! ### Three replicators and four -/

/-- Some replicators give the same hash. -/
def sampleAnswers (replicators : List ReplicatorKey) : List ViewerEvent :=
  .startWatchingLiveStream 9 5 replicators ::
    replicators.map fun replicator => .playlistHash replicator.toNat 9 6

/-- Four answers of four are enough, and the playlist is downloaded. -/
theorem sampleAnswers_follow :
    (viewerSystem fun _ _ _ => true).Reaches
      (fun after =>
        (FollowsMajority (fun _ _ _ => true) 9
            (sampleAnswers [1, 2, 3, 4] ++ [.runPostedDownload]) after ∧
          DownloadsStarted (fun _ _ _ => true)
            (sampleAnswers [1, 2, 3, 4] ++ [.runPostedDownload]) after) ∧
        after.downloading = some (.playlist, 6))
      {} (sampleAnswers [1, 2, 3, 4] ++ [.runPostedDownload]) := by
  have reached : (viewerSystem fun _ _ _ => true).Reaches
      (fun after => (after.liveStreamId = some 9 ∧ after.replicatorSet.card = 4) ∧
        after.downloading = some (.playlist, 6)) {}
      (sampleAnswers [1, 2, 3, 4] ++ [.runPostedDownload]) := by
    decide
  obtain ⟨after, run, ⟨watches, four⟩, downloading⟩ := reached
  have once : OneAnswerEach 9 (sampleAnswers [1, 2, 3, 4] ++ [.runPostedDownload]) after := by
    refine ⟨watches, by decide, ?_⟩
    rw [four]
    decide
  obtain ⟨follows, downloads⟩ := followsMajority_iff run once
  refine ⟨after, run, ⟨follows.mpr ?_, downloads⟩, downloading⟩
  intro hash
  have all : (answers 9 (sampleAnswers [1, 2, 3, 4] ++ [.runPostedDownload])).map Prod.snd =
      [6, 6, 6, 6] := by decide
  rw [four, votes, all]
  simp only [List.count_cons, List.count_nil]
  cases (6 : InfoHash) == hash <;> decide

/-- Three answers of three are not. -/
theorem threeAnswers_fail :
    ¬ ∀ (verify : Key → List UInt8 → Signature → Bool) (streamId : Hash256)
      (events : List ViewerEvent) (after : ViewerSession),
      (viewerSystem verify).exec {} events = some after → OneAnswerEach streamId events after →
        FollowsMajority verify streamId events after := by
  intro claim
  have reached : (viewerSystem fun _ _ _ => true).Reaches
      (fun after => after.liveStreamId = some 9 ∧ after.replicatorSet.card = 3) {}
      (sampleAnswers [1, 2, 3]) := by
    decide
  obtain ⟨after, run, watches, three⟩ := reached
  have once : OneAnswerEach 9 (sampleAnswers [1, 2, 3]) after := by
    refine ⟨watches, by decide, ?_⟩
    rw [three]
    decide
  have started := (claim _ 9 _ after run once 6).mpr (by rw [three]; decide)
  have nothing : startedPlaylists (fun _ _ _ => true) {} (sampleAnswers [1, 2, 3]) = [] := by decide
  rw [nothing] at started
  cases started

end SiriusDrive.ViewerSession
