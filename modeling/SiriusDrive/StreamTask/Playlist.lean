import SiriusDrive.Lib.M3u8Playlist
import SiriusDrive.StreamTask.StreamFolder

/-! # The playlist of a finished stream

The microseconds of a duration are printed without leading zeros, so that what is read
from a line is longer than the chunk if it has less than six digits after the point. The
longest duration is rounded up from nine tenths of a second on.
-/

namespace SiriusDrive

open M3u8Playlist

/-! ## Hashes -/

theorem notMem_printHash (hash : InfoHash) : '\n' ∉ (printHash hash).toList := by
  have noDigit : ∀ digit < 16, (Nat.digitChar digit).toUpper ≠ '\n' := by decide
  rw [printHash, String.toList_ofList]
  generalize hash.toNat = value
  generalize 64 = n
  induction n with
  | zero => exact List.not_mem_nil
  | succ n ih =>
      rw [hexChars, List.map_cons, List.mem_cons, not_or]
      exact ⟨(noDigit _ (Nat.mod_lt _ (by decide))).symm, ih⟩

/-! ## The longest duration -/

/-- The seconds a duration counts for the longest: the sum is one of 32 bits. -/
def roundedSeconds (durationMks : Nat) : Nat := (durationMks + 100000 - 1) % 2 ^ 32 / 1000000

def longestSeconds (durations : List Nat) : Nat :=
  durations.foldl (fun maxDuration durationMks =>
    if maxDuration < roundedSeconds durationMks then roundedSeconds durationMks else maxDuration) 1

theorem le_foldl_longest {start bound : Nat} {durations : List Nat} :
    bound ≤ durations.foldl (fun maxDuration durationMks =>
        if maxDuration < roundedSeconds durationMks then roundedSeconds durationMks
        else maxDuration) start ↔
      bound ≤ start ∨ ∃ durationMks ∈ durations, bound ≤ roundedSeconds durationMks := by
  induction durations generalizing start with
  | nil => simp
  | cons durationMks durations ih =>
      simp only [List.foldl_cons, ih, List.mem_cons, exists_eq_or_imp, ← or_assoc]
      apply or_congr_left
      split
      · omega
      · omega

theorem le_longestSeconds_iff {bound : Nat} {durations : List Nat} :
    bound ≤ longestSeconds durations ↔
      bound ≤ 1 ∨ ∃ durationMks ∈ durations, bound ≤ roundedSeconds durationMks :=
  le_foldl_longest

/-- The longest duration is not one of those that are nearer to the next second but are counted
    without it: more than half a second over, but not more than nine tenths, or so long that the
    sum does not fit. -/
def LongestIsRounded (durations : List Nat) : Prop :=
  ∀ durationMks ∈ durations, (∀ other ∈ durations, other ≤ durationMks) →
    durationMks < 1500000 ∨ durationMks % 1000000 < 500000 ∨
      900000 < durationMks % 1000000 ∧ durationMks < 4294500000

instance decidableLongestIsRounded (durations : List Nat) :
    Decidable (LongestIsRounded durations) :=
  inferInstanceAs (Decidable (∀ _ ∈ durations, _ → _))

theorem exists_longest {durations : List Nat} (nonempty : durations ≠ []) :
    ∃ longest ∈ durations, ∀ other ∈ durations, other ≤ longest := by
  obtain ⟨longest, isLongest⟩ := Option.ne_none_iff_exists'.mp
    (mt List.max?_eq_none_iff.mp nonempty)
  exact ⟨longest, List.max?_mem isLongest, fun other member => (List.max?_le_iff isLongest).mp
    le_rfl other member⟩

/-- The longest duration in seconds is at least each duration, rounded to the nearest second. -/
theorem roundedToNearest_le_longestSeconds_iff {durations : List Nat}
    (fits : ∀ durationMks ∈ durations, durationMks < 2 ^ 32) :
    (∀ durationMks ∈ durations, (durationMks + 500000) / 1000000 ≤ longestSeconds durations) ↔
      LongestIsRounded durations := by
  constructor
  · intro bounded durationMks member isLongest
    have small := fits durationMks member
    rcases le_longestSeconds_iff.mp (bounded durationMks member) with short | ⟨other, isOther, long⟩
    · left
      omega
    · have notLonger := isLongest other isOther
      rw [roundedSeconds] at long
      omega
  · intro rounded durationMks member
    obtain ⟨longest, isLongest, notShorter⟩ := exists_longest (List.ne_nil_of_mem member)
    have shorter := notShorter durationMks member
    have small := fits longest isLongest
    have longestRounded := rounded longest isLongest notShorter
    refine le_longestSeconds_iff.mpr ?_
    by_cases short : (longest + 500000) / 1000000 ≤ 1
    · left
      omega
    · right
      refine ⟨longest, isLongest, ?_⟩
      rw [roundedSeconds]
      omega

/-! ## The playlist -/

namespace FinishStreamChunkInfo

def segment (chunkInfo : FinishStreamChunkInfo) : MediaSegment where
  whole := chunkInfo.durationMks / 1000000
  fraction := chunkInfo.durationMks % 1000000
  name := printHash chunkInfo.chunkInfoHash

/-- The duration of a chunk and the name it has in a playlist. -/
def timed (chunkInfo : FinishStreamChunkInfo) : Nat × String :=
  (chunkInfo.durationMks, printHash chunkInfo.chunkInfoHash)

end FinishStreamChunkInfo

theorem maxDuration_eq (finishInfo : List FinishStreamChunkInfo) :
    maxDuration finishInfo = longestSeconds (finishInfo.map (·.durationMks)) := by
  rw [longestSeconds, List.foldl_map]
  rfl

theorem playlistTxt_eq (finishInfo : List FinishStreamChunkInfo) :
    playlistTxt finishInfo =
      playlist (longestSeconds (finishInfo.map (·.durationMks))) 0
        (finishInfo.map (·.segment)) := by
  rw [playlistTxt, playlist, maxDuration_eq, List.flatMap_map]
  rfl

/-- When the playlist of a finished stream has the times of the chunks. -/
theorem times_playlistTxt_iff {finishInfo : List FinishStreamChunkInfo}
    (fits : ∀ chunkInfo ∈ finishInfo, chunkInfo.durationMks < 2 ^ 32) :
    Times (playlistTxt finishInfo) (finishInfo.map (·.timed)) ↔
      (∀ chunkInfo ∈ finishInfo,
        chunkInfo.durationMks % 1000000 = 0 ∨ 100000 ≤ chunkInfo.durationMks % 1000000) ∧
      LongestIsRounded (finishInfo.map (·.durationMks)) := by
  have small (durationMks : Nat) : durationMks % 1000000 < 1000000 := Nat.mod_lt _ (by decide)
  have allFit : ∀ durationMks ∈ finishInfo.map (·.durationMks), durationMks < 2 ^ 32 := by
    intro durationMks member
    obtain ⟨chunkInfo, isChunk, rfl⟩ := List.mem_map.mp member
    exact fits chunkInfo isChunk
  rw [playlistTxt_eq, ← roundedToNearest_le_longestSeconds_iff allFit, List.forall_mem_map]
  generalize longestSeconds (finishInfo.map (·.durationMks)) = targetDuration
  have reads := @times_playlist_iff _ targetDuration 0 finishInfo (·.segment) (·.durationMks)
    fun chunkInfo _ => notMem_printHash chunkInfo.chunkInfoHash
  refine reads.trans (and_congr_left' (forall₂_congr fun chunkInfo _ => ?_))
  rw [MediaSegment.seconds_eq_iff rfl (small _)]
  exact millionths_eq_self_iff (small _)

end SiriusDrive
