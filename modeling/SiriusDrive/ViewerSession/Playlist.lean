import SiriusDrive.StreamTask.Playlist
import SiriusDrive.ViewerSession

/-! # The playlist of a live stream

A viewer lists the last chunks it has downloaded. The seconds of a line are those of the
chunk that is listed, but its microseconds are those of a chunk counted from the start of
all.
-/

namespace SiriusDrive

open M3u8Playlist

/-- Which chunks a playlist lists: the first one and how many. -/
structure PlaylistWindow where
  firstChunkNumber : Nat
  totalChunkNumber : Nat
  deriving Repr, DecidableEq

namespace ViewerChunkInfo

/-- The duration of a chunk and the name it has in a playlist. -/
def timed (chunkInfo : ViewerChunkInfo) : Nat × String :=
  (chunkInfo.durationMks, printHash chunkInfo.chunkInfoHash)

/-- What is printed of a listed chunk, and of the chunk with the same index from the start. -/
def segment (chunkInfo other : ViewerChunkInfo) : MediaSegment where
  whole := chunkInfo.durationMks / 1000000
  fraction := other.durationMks % 1000000
  name := printHash chunkInfo.chunkInfoHash

end ViewerChunkInfo

namespace ViewerSession

variable (chunkInfoList : List ViewerChunkInfo)

/-- The loop that goes back from a chunk, at most so many times. It has gone to a chunk that is
    not downloaded before it stops there. -/
def extendWindow : Nat → PlaylistWindow → Option PlaylistWindow
  | 0, window => some window
  | n + 1, window =>
      if window.firstChunkNumber = 0 then some window
      else
        (chunkInfoList[window.firstChunkNumber - 1]?).bind fun chunkInfo =>
          if !chunkInfo.isDownloaded then
            some { window with firstChunkNumber := window.firstChunkNumber - 1 }
          else
            extendWindow n
              { firstChunkNumber := window.firstChunkNumber - 1
                totalChunkNumber := window.totalChunkNumber + 1 }

/-- The window is extended while it has at most `maxChunkNumber` chunks. -/
def playlistWindow (lastChunkIndex : Nat) : Option PlaylistWindow :=
  extendWindow chunkInfoList 7 { firstChunkNumber := lastChunkIndex, totalChunkNumber := 1 }

/-- `m_chunkInfoList[first+i]` for each `i` less than a number that is positive. -/
def chunkRange (first total : Nat) : Option (List ViewerChunkInfo) :=
  if first + total ≤ chunkInfoList.length then some ((chunkInfoList.drop first).take total)
  else none

/-- The text `updatePlaylist` writes, if it only reads what is in the list. -/
def updatePlaylist (lastChunkIndex : Nat) : Option String :=
  (playlistWindow chunkInfoList lastChunkIndex).bind fun window =>
    (chunkRange chunkInfoList window.firstChunkNumber window.totalChunkNumber).bind fun listed =>
      (chunkRange chunkInfoList 0 window.totalChunkNumber).map fun leading =>
        playlist (longestSeconds (listed.map (·.durationMks))) window.firstChunkNumber
          (List.zipWith ViewerChunkInfo.segment listed leading)

def listedChunks (window : PlaylistWindow) : List ViewerChunkInfo :=
  (chunkInfoList.drop window.firstChunkNumber).take window.totalChunkNumber

variable {chunkInfoList} {window : PlaylistWindow} {lastChunkIndex : Nat}

theorem extendWindow_eq_some (n : Nat) (inside : window.firstChunkNumber ≤ chunkInfoList.length) :
    ∃ extended, extendWindow chunkInfoList n window = some extended ∧
      extended.firstChunkNumber + extended.totalChunkNumber ≤
        window.firstChunkNumber + window.totalChunkNumber := by
  induction n generalizing window with
  | zero => exact ⟨window, rfl, le_rfl⟩
  | succ n ih =>
      rw [extendWindow]
      split
      · exact ⟨window, rfl, le_rfl⟩
      · rename_i notFirst
        have isThere : window.firstChunkNumber - 1 < chunkInfoList.length := by omega
        rw [List.getElem?_eq_getElem isThere, Option.bind_some]
        split
        · exact ⟨_, rfl, by simp only; omega⟩
        · obtain ⟨extended, isExtended, fewer⟩ := @ih
            { firstChunkNumber := window.firstChunkNumber - 1
              totalChunkNumber := window.totalChunkNumber + 1 } (by simp only; omega)
          exact ⟨extended, isExtended, by simp only at fewer; omega⟩

theorem zip_take_length {α β : Type*} (first : List α) (second : List β) :
    first.zip (second.take first.length) = first.zip second := by
  induction first generalizing second with
  | nil => rfl
  | cons head first ih =>
      cases second with
      | nil => rfl
      | cons other second => exact congrArg ((head, other) :: ·) (ih second)

theorem updatePlaylist_eq_some (isChunk : lastChunkIndex < chunkInfoList.length) :
    ∃ window, playlistWindow chunkInfoList lastChunkIndex = some window ∧
      window.firstChunkNumber + window.totalChunkNumber ≤ chunkInfoList.length ∧
      updatePlaylist chunkInfoList lastChunkIndex =
        some (playlist (longestSeconds ((listedChunks chunkInfoList window).map (·.durationMks)))
          window.firstChunkNumber
          (((listedChunks chunkInfoList window).zip chunkInfoList).map
            fun listed => listed.1.segment listed.2)) := by
  obtain ⟨window, isWindow, fewer⟩ := @extendWindow_eq_some chunkInfoList
    { firstChunkNumber := lastChunkIndex, totalChunkNumber := 1 } 7 isChunk.le
  have inside : window.firstChunkNumber + window.totalChunkNumber ≤ chunkInfoList.length := by
    simp only at fewer
    omega
  refine ⟨window, isWindow, inside, ?_⟩
  have leading : 0 + window.totalChunkNumber ≤ chunkInfoList.length := by omega
  have count : (listedChunks chunkInfoList window).length = window.totalChunkNumber := by
    rw [listedChunks, List.length_take, List.length_drop]
    omega
  have pairs : (listedChunks chunkInfoList window).zip chunkInfoList =
      (listedChunks chunkInfoList window).zip (chunkInfoList.take window.totalChunkNumber) := by
    rw [← count]
    exact (zip_take_length _ _).symm
  rw [updatePlaylist, playlistWindow, isWindow, Option.bind_some, chunkRange, if_pos inside,
    Option.bind_some, chunkRange, if_pos leading, Option.map_some, pairs, List.drop_zero,
    List.map_zip_eq_zipWith]
  rfl

/-- When the playlist of a viewer has the times of the chunks it lists. -/
theorem times_updatePlaylist_iff
    (fits : ∀ chunkInfo ∈ chunkInfoList, chunkInfo.durationMks < 2 ^ 32)
    (isChunk : lastChunkIndex < chunkInfoList.length) :
    ∃ window text, playlistWindow chunkInfoList lastChunkIndex = some window ∧
      updatePlaylist chunkInfoList lastChunkIndex = some text ∧
      (Times text ((listedChunks chunkInfoList window).map (·.timed)) ↔
        (∀ pair ∈ (listedChunks chunkInfoList window).zip chunkInfoList,
          millionths (pair.2.durationMks % 1000000) = pair.1.durationMks % 1000000) ∧
        LongestIsRounded ((listedChunks chunkInfoList window).map (·.durationMks))) := by
  obtain ⟨window, isWindow, inside, isText⟩ := updatePlaylist_eq_some isChunk
  refine ⟨window, _, isWindow, isText, ?_⟩
  have allFit : ∀ durationMks ∈ (listedChunks chunkInfoList window).map (·.durationMks),
      durationMks < 2 ^ 32 := by
    intro durationMks member
    obtain ⟨chunkInfo, isChunk, rfl⟩ := List.mem_map.mp member
    exact fits chunkInfo (List.mem_of_mem_drop (List.mem_of_mem_take isChunk))
  have enough : (listedChunks chunkInfoList window).length ≤ chunkInfoList.length :=
    (List.length_take_le' _ _).trans ((List.drop_sublist _ _).length_le)
  have isListed : listedChunks chunkInfoList window =
      ((listedChunks chunkInfoList window).zip chunkInfoList).map Prod.fst :=
    (List.map_fst_zip enough).symm
  rw [← roundedToNearest_le_longestSeconds_iff allFit, List.forall_mem_map]
  generalize longestSeconds ((listedChunks chunkInfoList window).map (·.durationMks)) =
    targetDuration
  generalize listedChunks chunkInfoList window = chunks at isListed
  have reads := @times_playlist_iff _ targetDuration window.firstChunkNumber
    (chunks.zip chunkInfoList) (fun pair => pair.1.segment pair.2) (fun pair => pair.1.durationMks)
    fun pair _ => notMem_printHash pair.1.chunkInfoHash
  have timed : chunks.map (·.timed) = (chunks.zip chunkInfoList).map fun pair =>
      (pair.1.durationMks, (pair.1.segment pair.2).name) := by
    conv_lhs => rw [isListed, List.map_map]
    rfl
  have bounded : (∀ chunkInfo ∈ chunks,
        (chunkInfo.durationMks + 500000) / 1000000 ≤ targetDuration) ↔
      ∀ pair ∈ chunks.zip chunkInfoList,
        (pair.1.durationMks + 500000) / 1000000 ≤ targetDuration := by
    conv_lhs => rw [isListed, List.forall_mem_map]
  rw [timed, reads, bounded]
  refine and_congr_left' (forall₂_congr fun pair _ => ?_)
  exact MediaSegment.seconds_eq_iff rfl (Nat.mod_lt _ (by decide))

/-- When the playlists of finished and of live streams have the times of their chunks. -/
theorem times_playlists_iff {finishInfo : List FinishStreamChunkInfo}
    (finishFits : ∀ chunkInfo ∈ finishInfo, chunkInfo.durationMks < 2 ^ 32)
    (viewerFits : ∀ chunkInfo ∈ chunkInfoList, chunkInfo.durationMks < 2 ^ 32)
    (isChunk : lastChunkIndex < chunkInfoList.length) :
    (Times (playlistTxt finishInfo) (finishInfo.map (·.timed)) ↔
      (∀ chunkInfo ∈ finishInfo,
        chunkInfo.durationMks % 1000000 = 0 ∨ 100000 ≤ chunkInfo.durationMks % 1000000) ∧
      LongestIsRounded (finishInfo.map (·.durationMks))) ∧
    ∃ window text, playlistWindow chunkInfoList lastChunkIndex = some window ∧
      updatePlaylist chunkInfoList lastChunkIndex = some text ∧
      (Times text ((listedChunks chunkInfoList window).map (·.timed)) ↔
        (∀ pair ∈ (listedChunks chunkInfoList window).zip chunkInfoList,
          millionths (pair.2.durationMks % 1000000) = pair.1.durationMks % 1000000) ∧
        LongestIsRounded ((listedChunks chunkInfoList window).map (·.durationMks))) :=
  ⟨times_playlistTxt_iff finishFits, times_updatePlaylist_iff viewerFits isChunk⟩

def finishChunk (durationMks : Nat) : FinishStreamChunkInfo where
  chunkIndex := 0
  chunkInfoHash := 7
  durationMks
  sizeBytes := 100
  saveOnDrive := true

def viewerChunk (durationMks : Nat) : ViewerChunkInfo where
  streamId := 40
  chunkIndex := 0
  chunkInfoHash := 7
  durationMks
  sizeBytes := 100
  sign := 0
  offsetMs := 0
  isDownloaded := true

def twoChunks : List ViewerChunkInfo := [viewerChunk 2400000, viewerChunk 3400000]

theorem times_playlists_iff_twoSeconds :
    Times (playlistTxt [finishChunk 2000000]) [(finishChunk 2000000).timed] ∧
      ∃ text, updatePlaylist twoChunks 1 = some text ∧ Times text (twoChunks.map (·.timed)) := by
  obtain ⟨finished, window, text, isWindow, isText, live⟩ :=
    @times_playlists_iff twoChunks 1 [finishChunk 2000000] (by decide) (by decide) (by decide)
  have both : playlistWindow twoChunks 1 =
      some { firstChunkNumber := 0, totalChunkNumber := 2 } := by decide
  cases both.symm.trans isWindow
  exact ⟨finished.mpr (by decide), text, isText, live.mpr (by decide +kernel)⟩

/-- Nine chunks of a live stream, all but one of them with 1.1 seconds. -/
def nineChunks : List ViewerChunkInfo :=
  viewerChunk 1100000 :: viewerChunk 1200000 :: List.replicate 7 (viewerChunk 1100000)

/-- A chunk of 2.05 seconds is listed with 2.50000 seconds, and the first of the last eight chunks
    with the microseconds of the one before it. -/
theorem not_times_playlists :
    ¬ Times (playlistTxt [finishChunk 2050000]) [(finishChunk 2050000).timed] ∧
      ∃ window text, playlistWindow nineChunks 8 = some window ∧
        updatePlaylist nineChunks 8 = some text ∧
        ¬ Times text ((listedChunks nineChunks window).map (·.timed)) := by
  have fits : ∀ chunkInfo ∈ [finishChunk 2050000], chunkInfo.durationMks < 2 ^ 32 := by decide
  have liveFits : ∀ chunkInfo ∈ nineChunks, chunkInfo.durationMks < 2 ^ 32 := by decide
  constructor
  · intro times
    obtain ⟨long, _⟩ := (times_playlistTxt_iff fits).mp times
    exact absurd long (by decide)
  · obtain ⟨window, text, isWindow, isText, timesIff⟩ :=
      @times_updatePlaylist_iff nineChunks 8 liveFits (by decide)
    refine ⟨window, text, isWindow, isText, fun times => ?_⟩
    have lastEight : playlistWindow nineChunks 8 =
        some { firstChunkNumber := 1, totalChunkNumber := 8 } := by decide
    cases lastEight.symm.trans isWindow
    exact absurd (timesIff.mp times).1 (by decide +kernel)

end ViewerSession

end SiriusDrive
