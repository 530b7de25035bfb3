import Mathlib.Data.List.Range
import SiriusDrive.Lib.MapLookup
import SiriusDrive.StreamerSession

/-! # Snapshots of a playlist

An encoder shows a window of a growing list of segments. The streamer looks a segment up by its
place in the list, but stores its chunk under the number of the chunks before. The two differ
once a segment has been missed.
-/

namespace SiriusDrive.StreamerSession

variable {stof : List Char → Option Nat} {session after : StreamerSession} {streamId : Hash256}
  {media : Nat → Segment} {files : String → Option MediaFile}

/-! ## Playlists -/

/-- A line that tells the streamer nothing. -/
def IsNeutral (stof : List Char → Option Nat) (line : String) : Prop :=
  PlaylistLine.read stof line ∈
    [.targetDuration, .other, .version (some 3), .version (some 4)]

/-- The segments some lines list. -/
inductive Lists (stof : List Char → Option Nat) : List String → List Segment → Prop where
  | nil : Lists stof [] []
  | neutral {line : String} {lines : List String} {segments : List Segment}
      (isNeutral : IsNeutral stof line) (rest : Lists stof lines segments) :
      Lists stof (line :: lines) segments
  | segment {line fileName : String} {durationMks : Nat} {lines : List String}
      {segments : List Segment}
      (isSegment : PlaylistLine.read stof line = .extInf (some durationMks))
      (rest : Lists stof lines segments) :
      Lists stof (line :: fileName :: lines) (⟨fileName, durationMks⟩ :: segments)

/-- A playlist with the number of its first segment. -/
inductive IsSnapshot (stof : List Char → Option Nat) (first : Nat) (segments : List Segment) :
    List String → Prop where
  | lines {title sequenceLine : String} {header body : List String}
      (isTitle : "#EXTM3U".toList.isPrefixOf title.toList = true)
      (isHeader : ∀ line ∈ header, IsNeutral stof line)
      (isSequence : PlaylistLine.read stof sequenceLine = .mediaSequence (some first))
      (isBody : Lists stof body segments) :
      IsSnapshot stof first segments (title :: (header ++ sequenceLine :: body))

/-- The playlist shows some of all segments, from one on. -/
def Shows (stof : List Char → Option Nat) (media : Nat → Segment) (first count : Nat)
    (lines : List String) : Prop :=
  IsSnapshot stof first ((List.range' first count).map media) lines

/-- The playlists show windows that slide along a growing list. -/
inductive Slides (stof : List Char → Option Nat) (media : Nat → Segment) :
    Nat → Nat → List StreamerEvent → Prop where
  | nil {low high : Nat} : Slides stof media low high []
  | tick {low high first count : Nat} {lines : List String}
      {files : String → Option MediaFile} {events : List StreamerEvent}
      (shows_ : Shows stof media first count lines) (notBack : low ≤ first)
      (grown : high ≤ first + count) (later : Slides stof media first (first + count) events) :
      Slides stof media low high (.tick lines files :: events)

/-! ## What is stored -/

/-- The chunks have the indexes from 0 on, and belong to segments in ascending order. -/
structure StoresInOrder (media : Nat → Segment) (session : StreamerSession) : Prop where
  indexes : ∀ index, session.chunkInfoMap.contains index = true ↔
    index < session.addedSegments.length
  chunks : ∀ (index : Nat) (chunk : ChunkInfo), session.chunkInfoMap[index]? = some chunk →
    chunk.chunkIndex = index ∧ ∃ number segment,
      session.addedSegments[index]? = some (number, segment) ∧
        chunk.durationMks = segment.durationMks
  segments : ∀ added ∈ session.addedSegments, ∃ number : Nat, added = ((number : Int), media number)
  inOrder : (session.addedSegments.map Prod.fst).Pairwise (· < ·)

/-- The number the places in the list are counted from. -/
def startNumber (session : StreamerSession) (first : Nat) : Int :=
  if session.startSequenceNumber < 0 then first else session.startSequenceNumber

/-- Whatever a playlist shows beyond the number of chunks is newer than all that is stored. -/
def OnlyNewer (stof : List Char → Option Nat) (media : Nat → Segment) (session : StreamerSession) :
    StreamerEvent → Prop
  | .tick lines _ => ∀ first count, Shows stof media first count lines →
      ∀ number ∈ List.range' first count,
        session.startNumber first + session.addedSegments.length ≤ (number : Int) →
          ∀ added ∈ session.addedSegments, added.1 < (number : Int)
  | .initStream _ | .cancelStream => True

/-- The session has not been used for a stream. -/
structure IsUnused (session : StreamerSession) : Prop where
  streamId : session.streamId = none
  lastChunkIndex : session.lastChunkIndex = 0
  startSequenceNumber : session.startSequenceNumber = -1
  lastSequenceNumber : session.lastSequenceNumber = -1

/-! ## Adding a segment -/

/-- What is kept while the stream goes on, with a lower bound of the numbers that come. -/
structure Streams (media : Nat → Segment) (streamId : Hash256) (low : Nat)
    (session : StreamerSession) : Prop where
  stores : session.StoresInOrder media
  streamId : session.streamId = some streamId
  lastSequenceNumber : session.lastSequenceNumber = -1
  started : session.startSequenceNumber ≤ low
  notStarted : session.startSequenceNumber < 0 →
    session.startSequenceNumber = -1 ∧ session.addedSegments = []
  lastChunkIndex : session.lastChunkIndex = session.addedSegments.length % 2 ^ 32

theorem streams_emplaceChunk {low : Nat} {chunk : MediaFile} {number : Nat}
    (streams : session.Streams media streamId low) (started : 0 ≤ session.startSequenceNumber)
    (newer : ∀ added ∈ session.addedSegments, added.1 < (number : Int)) :
    (session.emplaceChunk streamId chunk number (media number)).Streams media streamId low := by
  rw [emplaceChunk]
  split
  · exact { streams with stores := { streams.stores with } }
  · rename_i absent
    have isNext : session.lastChunkIndex = session.addedSegments.length := by
      rw [streams.stores.indexes] at absent
      have mod := streams.lastChunkIndex
      have le := Nat.mod_le session.addedSegments.length (2 ^ 32)
      omega
    refine ⟨⟨?_, ?_, ?_, ?_⟩, streams.streamId, streams.lastSequenceNumber, streams.started, ?_, ?_⟩
    · intro index
      rw [Std.TreeMap.contains_insert, List.length_append, List.length_singleton,
        Bool.or_eq_true, streams.stores.indexes, isNext]
      simp only [Std.LawfulEqCmp.compare_eq_iff_eq, beq_iff_eq]
      omega
    · intro index info isHere
      rw [Std.TreeMap.getElem?_insert_eq] at isHere
      split at isHere
      · rename_i same
        cases isHere
        refine ⟨same.symm, number, media number, ?_, rfl⟩
        rw [same, isNext, List.getElem?_concat_length]
      · obtain ⟨isIndex, number, segment, isAdded, duration⟩ := streams.stores.chunks index info isHere
        refine ⟨isIndex, number, segment, ?_, duration⟩
        rw [List.getElem?_append_left (List.getElem?_eq_some_iff.mp isAdded).1]
        exact isAdded
    · intro added member
      rcases List.mem_append.mp member with old | isNew
      · exact streams.stores.segments added old
      · exact ⟨number, List.mem_singleton.mp isNew⟩
    · rw [List.map_append, List.pairwise_append]
      refine ⟨streams.stores.inOrder, List.pairwise_singleton _ _, ?_⟩
      intro old isOld new isNew
      obtain ⟨added, member, rfl⟩ := List.mem_map.mp isOld
      rw [List.map_singleton, List.mem_singleton] at isNew
      rw [isNew]
      exact newer added member
    · intro negative
      exact absurd started (Int.not_le.mpr negative)
    · rw [List.length_append, List.length_singleton, ← isNext]

/-- What a segment may change besides the chunks. -/
structure Adds (number : Nat) (segment : Segment) (session after : StreamerSession) : Prop where
  startSequenceNumber : after.startSequenceNumber = session.startSequenceNumber
  addedSegments : after.addedSegments = session.addedSegments ∨
    after.addedSegments = session.addedSegments ++ [((number : Int), segment)]

theorem adds_emplaceChunk (chunk : MediaFile) (number : Nat) (segment : Segment) :
    Adds number segment session (session.emplaceChunk streamId chunk number segment) := by
  rw [emplaceChunk]
  split
  · exact ⟨rfl, .inl rfl⟩
  · exact ⟨rfl, .inr rfl⟩

theorem streams_addMediaToStream {low number : Nat}
    (streams : session.Streams media streamId low) (started : 0 ≤ session.startSequenceNumber)
    (newer : ∀ added ∈ session.addedSegments, added.1 < (number : Int)) :
    (session.addMediaToStream streamId files number (media number)).Streams media streamId low ∧
      Adds number (media number) session
        (session.addMediaToStream streamId files number (media number)) := by
  rw [addMediaToStream]
  split
  · exact ⟨{ streams with stores := { streams.stores with } }, ⟨rfl, .inl rfl⟩⟩
  · rename_i chunk isFile
    split
    · exact ⟨streams_emplaceChunk streams started newer, adds_emplaceChunk chunk number _⟩
    · split
      · have copied : (session.copyChunk chunk).Streams media streamId low :=
          { streams with stores := { streams.stores with } }
        have adds := @adds_emplaceChunk (session.copyChunk chunk) streamId chunk number (media number)
        exact ⟨streams_emplaceChunk copied started newer, { adds with }⟩
      · exact ⟨streams, ⟨rfl, .inl rfl⟩⟩

theorem streams_onSegment {first mediaIndex : Nat}
    (streams : session.Streams media streamId first) (started : 0 ≤ session.startSequenceNumber)
    (newer : session.startSequenceNumber + session.addedSegments.length ≤ (first + mediaIndex : Nat) →
      ∀ added ∈ session.addedSegments, added.1 < ((first + mediaIndex : Nat) : Int)) :
    (session.onSegment streamId files first mediaIndex (media (first + mediaIndex))).Streams media
        streamId first ∧
      Adds (first + mediaIndex) (media (first + mediaIndex)) session
        (session.onSegment streamId files first mediaIndex (media (first + mediaIndex))) := by
  have le := streams.started
  simp only [onSegment]
  rw [if_neg (Int.not_lt.mpr started)]
  split
  · exact ⟨streams, ⟨rfl, .inl rfl⟩⟩
  · rename_i absent
    have beyond : session.startSequenceNumber + session.addedSegments.length ≤
        (first + mediaIndex : Nat) := by
      rw [streams.stores.indexes] at absent
      omega
    rw [← Int.natCast_add]
    exact streams_addMediaToStream streams started (newer beyond)

/-! ## Reading a playlist -/

theorem parseLines_neutral {line : String} (isNeutral : IsNeutral stof line)
    (sequenceNumber : Int) (mediaIndex : Nat) (lines : List String) :
    session.parseLines stof streamId files sequenceNumber mediaIndex (line :: lines) =
      session.parseLines stof streamId files sequenceNumber mediaIndex lines := by
  rw [parseLines]
  simp only [IsNeutral, List.mem_cons, List.not_mem_nil, or_false] at isNeutral
  rcases isNeutral with isLine | isLine | isLine | isLine <;> simp [isLine]

theorem parseLines_header {header : List String} (isHeader : ∀ line ∈ header, IsNeutral stof line)
    (sequenceNumber : Int) (mediaIndex : Nat) (lines : List String) :
    session.parseLines stof streamId files sequenceNumber mediaIndex (header ++ lines) =
      session.parseLines stof streamId files sequenceNumber mediaIndex lines := by
  induction header with
  | nil => rfl
  | cons line header ih =>
      rw [List.cons_append, parseLines_neutral (isHeader line List.mem_cons_self)]
      exact ih fun other member => isHeader other (List.mem_cons_of_mem _ member)

/-- The segments of a window are added in order, those that are found excepted. -/
theorem streams_body {first base : Nat} {body : List String} {segments : List Segment}
    (isBody : Lists stof body segments) {mediaIndex count : Nat}
    (isWindow : segments = (List.range' (first + mediaIndex) count).map media)
    (streams : session.Streams media streamId first) (started : 0 ≤ session.startSequenceNumber)
    (grown : base ≤ session.addedSegments.length)
    (newer : ∀ number ∈ List.range' (first + mediaIndex) count,
      session.startSequenceNumber + base ≤ (number : Int) →
        ∀ added ∈ session.addedSegments, added.1 < (number : Int)) :
    ((session.parseLines stof streamId files first mediaIndex body).1).Streams media streamId
      first := by
  induction isBody generalizing mediaIndex count session with
  | nil => exact streams
  | neutral isNeutral _ ih =>
      rw [parseLines_neutral isNeutral]
      exact ih isWindow streams started grown newer
  | @segment line fileName durationMks lines segments isSegment _ ih =>
      cases count with
      | zero => cases isWindow
      | succ count =>
          rw [List.range'_succ, List.map_cons] at isWindow
          obtain ⟨isFirst, isRest⟩ := List.cons.inj isWindow
          rw [List.range'_succ] at newer
          rw [parseLines]
          simp only [isSegment]
          rw [isFirst]
          have here := newer (first + mediaIndex) List.mem_cons_self
          obtain ⟨next, adds⟩ := @streams_onSegment session streamId media files first mediaIndex
            streams started (by
              intro beyond
              exact here (by omega))
          generalize session.onSegment streamId files first mediaIndex (media (first + mediaIndex)) =
            later at next adds
          split
          · exact next
          · apply ih isRest next (by rw [adds.startSequenceNumber]; exact started)
            · rcases adds.addedSegments with same | longer
              · rw [same]
                exact grown
              · rw [longer, List.length_append]
                exact Nat.le_add_right_of_le grown
            · intro number member beyond added isAdded
              rw [adds.startSequenceNumber] at beyond
              have old := newer number (List.mem_cons_of_mem _ member) beyond
              have isLater := (List.mem_range'_1.mp member).1
              rcases adds.addedSegments with same | longer
              · rw [same] at isAdded
                exact old added isAdded
              · rw [longer] at isAdded
                rcases List.mem_append.mp isAdded with isOld | isNew
                · exact old added isOld
                · rw [List.mem_singleton.mp isNew]
                  exact Int.ofNat_lt.mpr isLater

theorem streams_onTick {low first count : Nat} {lines : List String}
    (shows_ : Shows stof media first count lines) (notBack : low ≤ first)
    (streams : session.Streams media streamId low)
    (newer : session.OnlyNewer stof media (.tick lines files)) :
    (session.onTick stof lines files).Streams media streamId first := by
  have isNewer := newer first count shows_
  obtain ⟨isTitle, isHeader, isSequence, isBody⟩ := shows_
  rw [onTick, streams.streamId]
  simp only [parseM3u8Playlist]
  rw [if_pos isTitle, parseLines_header isHeader, parseLines]
  simp only [isSequence]
  by_cases negative : session.startSequenceNumber < 0
  · obtain ⟨notStarted, empty⟩ := streams.notStarted negative
    rw [onMediaSequence, if_pos (.inl notStarted)]
    apply @streams_body stof { session with startSequenceNumber := (first : Int) } streamId media files
      first 0 _ _ isBody 0 count rfl
    · refine ⟨{ streams.stores with }, streams.streamId, streams.lastSequenceNumber, Int.le_refl _, ?_,
        streams.lastChunkIndex⟩
      intro isNegative
      exact absurd isNegative (by simp)
    · exact Int.natCast_nonneg first
    · exact Nat.zero_le _
    · intro number _ _ added member
      rw [empty] at member
      cases member
  · have le := streams.started
    have unchanged : session.onMediaSequence first = session := by
      rw [onMediaSequence, if_neg]
      rw [streams.lastSequenceNumber]
      omega
    rw [unchanged]
    apply @streams_body stof session streamId media files first session.addedSegments.length _ _
      isBody 0 count rfl
    · refine { streams with started := ?_ }
      omega
    · exact Int.not_lt.mp negative
    · exact Nat.le_refl _
    · rw [startNumber, if_neg negative] at isNewer
      exact isNewer

/-! ## Every sequence of playlists -/

theorem streams_initStream (unused : session.IsUnused) :
    (session.initStream streamId).Streams media streamId 0 := by
  rw [initStream, if_neg (by simp [unused.streamId])]
  refine ⟨⟨?_, ?_, ?_, List.Pairwise.nil⟩, rfl, unused.lastSequenceNumber, ?_, ?_, ?_⟩
  · intro index
    simp
  · intro index chunk isHere
    simp at isHere
  · intro added member
    cases member
  · rw [unused.startSequenceNumber]
    decide
  · intro _
    exact ⟨unused.startSequenceNumber, rfl⟩
  · exact unused.lastChunkIndex

/-- In a session that is used for one stream, the segments of the stream become chunks in order
    and at most once each as long as what is beyond the number of chunks is newer than what is
    stored. -/
theorem always_storesInOrder {low high : Nat} {events : List StreamerEvent}
    (unused : session.IsUnused) (slides : Slides stof media low high events)
    (newer : (streamerSystem stof).Meets (OnlyNewer stof media) (session.initStream streamId)
      events) :
    (streamerSystem stof).Always (StoresInOrder media) (session.initStream streamId) events := by
  have streams : (session.initStream streamId).Streams media streamId low := by
    have first := @streams_initStream session streamId media unused
    exact { first with started := Int.le_trans first.started (Int.natCast_nonneg low) }
  generalize session.initStream streamId = current at streams newer
  induction slides generalizing current with
  | nil => exact streams.stores
  | tick shows_ notBack grown _ ih =>
      refine ⟨streams.stores, ?_⟩
      intro next step
      simp only [streamerSystem] at step
      split at step
      · cases step
      · cases step
        rename_i unbroken
        apply ih
        · exact streams_onTick shows_ notBack streams newer.1
        · exact newer.2 _ (by simp only [streamerSystem]; rw [if_neg unbroken])

/-! ### A window that jumps -/

def sampleDuration (_ : List Char) : Option Nat := some 1000000

def sampleMedia (number : Nat) : Segment := ⟨String.ofList (List.replicate number 'a'), 1000000⟩

def sampleFiles (_ : String) : Option MediaFile := some { chunkHash := 7, size := 1024 }

def sampleBody (first count : Nat) : List String :=
  (List.range' first count).flatMap fun number => ["#EXTINF:1", (sampleMedia number).fileName]

/-- The playlist of a window of two segments. -/
def samplePlaylist (sequenceLine : String) (first : Nat) : List String :=
  "#EXTM3U" :: ([] ++ sequenceLine :: sampleBody first 2)

theorem lists_sampleBody (first count : Nat) :
    Lists sampleDuration (sampleBody first count) ((List.range' first count).map sampleMedia) := by
  induction count generalizing first with
  | zero => exact .nil
  | succ count ih =>
      rw [sampleBody, List.range'_succ, List.flatMap_cons, List.map_cons]
      exact .segment (by decide) (ih (first + 1))

theorem shows_samplePlaylist {sequenceLine : String} {first : Nat}
    (isSequence : PlaylistLine.read sampleDuration sequenceLine = .mediaSequence (some first)) :
    Shows sampleDuration sampleMedia first 2 (samplePlaylist sequenceLine first) := by
  apply IsSnapshot.lines (by decide)
  · intro line member
    cases member
  · exact isSequence
  · exact lists_sampleBody first 2

/-- The window moves by one segment. -/
def slowEvents : List StreamerEvent :=
  [.tick (samplePlaylist "#EXT-X-MEDIA-SEQUENCE:0" 0) sampleFiles,
    .tick (samplePlaylist "#EXT-X-MEDIA-SEQUENCE:1" 1) sampleFiles]

/-- The window jumps over a segment and is read again. -/
def jumpingEvents : List StreamerEvent :=
  [.tick (samplePlaylist "#EXT-X-MEDIA-SEQUENCE:0" 0) sampleFiles,
    .tick (samplePlaylist "#EXT-X-MEDIA-SEQUENCE:3" 3) sampleFiles,
    .tick (samplePlaylist "#EXT-X-MEDIA-SEQUENCE:3" 3) sampleFiles]

theorem slides_slowEvents : Slides sampleDuration sampleMedia 0 0 slowEvents := by
  apply Slides.tick (shows_samplePlaylist (by decide)) (by decide) (by decide)
  exact Slides.tick (shows_samplePlaylist (by decide)) (by decide) (by decide) .nil

theorem slides_jumpingEvents : Slides sampleDuration sampleMedia 0 0 jumpingEvents := by
  apply Slides.tick (shows_samplePlaylist (by decide)) (by decide) (by decide)
  apply Slides.tick (shows_samplePlaylist (by decide)) (by decide) (by decide)
  exact Slides.tick (shows_samplePlaylist (by decide)) (by decide) (by decide) .nil

theorem isUnused_new : ({} : StreamerSession).IsUnused := ⟨rfl, rfl, rfl, rfl⟩

/-- Without a jump all is well. -/
theorem slowEvents_storeInOrder :
    (streamerSystem sampleDuration).Always (StoresInOrder sampleMedia)
      (({} : StreamerSession).initStream 9) slowEvents := by
  apply always_storesInOrder isUnused_new slides_slowEvents
  refine ⟨?_, ?_⟩
  · intro first count _ number _ _ added member
    cases member
  · intro started step
    refine ⟨?_, fun _ _ => trivial⟩
    have stored : (((streamerSystem sampleDuration).step (({} : StreamerSession).initStream 9)
        (.tick (samplePlaylist "#EXT-X-MEDIA-SEQUENCE:0" 0) sampleFiles)).any fun started =>
          started.startSequenceNumber = 0 ∧ started.addedSegments.map Prod.fst = [0, 1]) = true := by
      decide +kernel
    rw [step, Option.any_some, decide_eq_true_eq] at stored
    intro first count _ number _ beyond added member
    have length : started.addedSegments.length = 2 := by
      rw [← List.length_map Prod.fst, stored.2]
      rfl
    have isNumber := List.mem_map_of_mem (f := Prod.fst) member
    rw [stored.2] at isNumber
    rw [startNumber, stored.1, if_neg (by decide), length] at beyond
    simp at isNumber
    omega

/-- The last segment before the jump is counted twice. -/
theorem jumpingEvents_fail :
    ¬ ∀ (stof : List Char → Option Nat) (media : Nat → Segment) (streamId : Hash256)
      (session : StreamerSession) (events : List StreamerEvent),
      session.IsUnused → Slides stof media 0 0 events →
        (streamerSystem stof).Always (StoresInOrder media) (session.initStream streamId) events := by
  intro claim
  have all := claim _ _ 9 {} _ isUnused_new slides_jumpingEvents
  have reached : (streamerSystem sampleDuration).Reaches
      (fun after => after.addedSegments.map Prod.fst = [0, 1, 3, 4, 4])
      (({} : StreamerSession).initStream 9) jumpingEvents := by
    decide +kernel
  obtain ⟨after, run, numbers⟩ := reached
  have inOrder := (all.last run).inOrder
  rw [numbers] at inOrder
  exact absurd inOrder (by decide)

end SiriusDrive.StreamerSession
