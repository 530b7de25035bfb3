import Mathlib.Algebra.Order.Field.Rat
import Mathlib.Data.List.Basic
import Mathlib.Tactic.NormNum

/-! # Playlists of media segments

An M3U8 playlist is a text of lines. A line `#EXTINF:` has the duration of a segment,
which is named on the next line, and `#EXT-X-TARGETDURATION:` bounds all durations,
rounded to seconds.
-/

namespace M3u8Playlist

/-! ## Lines -/

/-- The lines of a text, the way `getline` reads them. -/
def linesOf : List Char → List (List Char)
  | [] => []
  | char :: rest =>
      if char = '\n' then [] :: linesOf rest
      else
        match linesOf rest with
        | [] => [[char]]
        | line :: lines => (char :: line) :: lines

theorem linesOf_append {line : List Char} (rest : List Char) (oneLine : '\n' ∉ line) :
    linesOf (line ++ '\n' :: rest) = line :: linesOf rest := by
  induction line with
  | nil => rw [List.nil_append, linesOf, if_pos rfl]
  | cons char line ih =>
      obtain ⟨first, later⟩ := not_or.mp (mt List.mem_cons.mpr oneLine)
      rw [List.cons_append, linesOf, if_neg (Ne.symm first), ih later]

theorem linesOf_join {lines : List String} (oneLine : ∀ line ∈ lines, '\n' ∉ line.toList) :
    linesOf (String.join (lines.map (· ++ "\n"))).toList = lines.map String.toList := by
  rw [String.toList_join]
  induction lines with
  | nil => rfl
  | cons line lines ih =>
      rw [List.map_cons, List.flatMap_cons, String.toList_append, List.append_assoc]
      have later := ih fun other member => oneLine other (List.mem_cons_of_mem _ member)
      exact (linesOf_append _ (oneLine line List.mem_cons_self)).trans
        (congrArg (line.toList :: ·) later)

/-! ## Decimal numbers -/

def readDigits (digits : List Char) : Option Nat :=
  if digits ≠ [] ∧ digits.all Char.isDigit = true then some (Nat.ofDigitChars 10 digits 0) else none

/-- A decimal number, with or without a fraction. -/
def readDecimal (text : List Char) : Option ℚ :=
  match text.splitOn '.' with
  | [whole] => (readDigits whole).map fun (whole : Nat) => (whole : ℚ)
  | [whole, fraction] =>
      (readDigits whole).bind fun whole =>
        (readDigits fraction).map fun (parts : Nat) => (whole : ℚ) + parts / 10 ^ fraction.length
  | _ => none

theorem readDigits_toString (n : Nat) : readDigits (toString n).toList = some n := by
  rw [Nat.toString_eq_ofList_toDigits, String.toList_ofList, readDigits, if_pos,
    Nat.ofDigitChars_ten_toDigits]
  refine ⟨Nat.toDigits_ne_nil, List.all_eq_true.mpr fun char member => ?_⟩
  exact Nat.isDigit_of_mem_toDigits (by decide) (by decide) member

theorem isDigit_of_mem_toString {n : Nat} {char : Char} (member : char ∈ (toString n).toList) :
    char.isDigit = true := by
  rw [Nat.toString_eq_ofList_toDigits, String.toList_ofList] at member
  exact Nat.isDigit_of_mem_toDigits (by decide) (by decide) member

theorem notMem_toString {n : Nat} {char : Char} (other : char.isDigit = false) :
    char ∉ (toString n).toList := by
  intro member
  have isDigit := isDigit_of_mem_toString member
  rw [other] at isDigit
  cases isDigit

theorem readDecimal_toString (whole fraction : Nat) :
    readDecimal ((toString whole).toList ++ '.' :: (toString fraction).toList) =
      some ((whole : ℚ) + fraction / 10 ^ (toString fraction).toList.length) := by
  have parts : ((toString whole).toList ++ '.' :: (toString fraction).toList).splitOn '.' =
      [(toString whole).toList, (toString fraction).toList] := by
    rw [List.splitOn_append_cons_self_of_not_mem (notMem_toString rfl),
      List.splitOn_eq_singleton (notMem_toString rfl)]
  rw [readDecimal, parts]
  simp only [readDigits_toString, Option.bind_some, Option.map_some]

/-! ## Segments -/

/-- The segments a playlist lists: the duration if it can be read, and the name. -/
def readSegments : List (List Char) → List (Option ℚ × List Char)
  | line :: next :: lines =>
      match "#EXTINF:".toList.isPrefixOf? line with
      | some duration => (readDecimal duration, next) :: readSegments lines
      | none => readSegments (next :: lines)
  | _ => []

/-- The duration that bounds all others. -/
def readTargetDuration (lines : List (List Char)) : Option Nat :=
  (lines.findSome? ("#EXT-X-TARGETDURATION:".toList.isPrefixOf? ·)).bind readDigits

/-- The numbers before and after the point, and the name of a segment. -/
structure MediaSegment where
  whole : Nat
  fraction : Nat
  name : String

namespace MediaSegment

def lines (segment : MediaSegment) : List String :=
  ["#EXTINF:" ++ toString segment.whole ++ "." ++ toString segment.fraction, segment.name]

/-- The duration that is read. The digits after the point count from the left. -/
def seconds (segment : MediaSegment) : ℚ :=
  segment.whole + segment.fraction / 10 ^ (toString segment.fraction).toList.length

end MediaSegment

def playlist (targetDuration mediaSequence : Nat) (segments : List MediaSegment) : String :=
  String.join ((["#EXTM3U", "#EXT-X-VERSION:3",
    "#EXT-X-TARGETDURATION:" ++ toString targetDuration,
    "#EXT-X-MEDIA-SEQUENCE:" ++ toString mediaSequence] ++ segments.flatMap MediaSegment.lines).map
      (· ++ "\n"))

section Playlist

variable {targetDuration mediaSequence : Nat} {segments : List MediaSegment}

theorem linesOf_playlist (named : ∀ segment ∈ segments, '\n' ∉ segment.name.toList) :
    linesOf (playlist targetDuration mediaSequence segments).toList =
      "#EXTM3U".toList :: "#EXT-X-VERSION:3".toList ::
        ("#EXT-X-TARGETDURATION:" ++ toString targetDuration).toList ::
        ("#EXT-X-MEDIA-SEQUENCE:" ++ toString mediaSequence).toList ::
        (segments.flatMap MediaSegment.lines).map String.toList := by
  rw [playlist, linesOf_join]
  · rfl
  have noBreak (n : Nat) : '\n' ∉ (toString n).toList := notMem_toString rfl
  intro line member
  rw [List.mem_append, List.mem_flatMap] at member
  rcases member with header | ⟨segment, isSegment, member⟩
  · simp only [List.mem_cons, List.not_mem_nil, or_false] at header
    rcases header with rfl | rfl | rfl | rfl
    · decide
    · decide
    · rw [String.toList_append, List.mem_append, not_or]
      exact ⟨by decide, noBreak _⟩
    · rw [String.toList_append, List.mem_append, not_or]
      exact ⟨by decide, noBreak _⟩
  · simp only [MediaSegment.lines, List.mem_cons, List.not_mem_nil, or_false] at member
    rcases member with rfl | rfl
    · simp only [String.toList_append, List.mem_append, not_or]
      exact ⟨⟨⟨by decide, noBreak _⟩, by decide⟩, noBreak _⟩
    · exact named segment isSegment

theorem readSegments_lines (segments : List MediaSegment) :
    readSegments ((segments.flatMap MediaSegment.lines).map String.toList) =
      segments.map fun segment => (some segment.seconds, segment.name.toList) := by
  induction segments with
  | nil => rfl
  | cons segment segments ih =>
      have isDuration : "#EXTINF:".toList.isPrefixOf?
          ("#EXTINF:" ++ toString segment.whole ++ "." ++ toString segment.fraction).toList =
          some ((toString segment.whole).toList ++ '.' :: (toString segment.fraction).toList) := by
        rw [List.isPrefixOf?_eq_some_iff_append_eq]
        simp only [String.toList_append, List.append_assoc]
        rfl
      rw [List.flatMap_cons, List.map_append, MediaSegment.lines, List.map_cons, List.map_cons,
        List.map_nil, List.cons_append, List.cons_append, List.nil_append, readSegments, isDuration]
      simp only [readDecimal_toString, ih, List.map_cons, MediaSegment.seconds]

theorem readSegments_skip {line next : List Char} {lines : List (List Char)}
    (otherTag : "#EXTINF:".toList.isPrefixOf? line = none) :
    readSegments (line :: next :: lines) = readSegments (next :: lines) := by
  rw [readSegments, otherTag]

theorem isPrefixOf?_append_eq_none {tag start rest : List Char}
    (shorter : tag.length ≤ start.length) (other : tag.isPrefixOf? start = none) : tag.isPrefixOf? (start ++ rest) = none := by
  induction tag generalizing start with
  | nil => cases other
  | cons char tag ih =>
      cases start with
      | nil => simp at shorter
      | cons first start =>
          rw [List.cons_append, List.isPrefixOf?]
          rw [List.isPrefixOf?] at other
          split
          · rename_i same
            rw [if_pos same] at other
            exact ih (by simpa using shorter) other
          · rfl

theorem readSegments_playlist (named : ∀ segment ∈ segments, '\n' ∉ segment.name.toList) :
    readSegments (linesOf (playlist targetDuration mediaSequence segments).toList) =
      segments.map fun segment => (some segment.seconds, segment.name.toList) := by
  rw [linesOf_playlist named, readSegments_skip (by decide), readSegments_skip (by decide),
    readSegments_skip, ← readSegments_lines]
  · cases segments with
    | nil => rfl
    | cons segment segments =>
        apply readSegments_skip
        rw [String.toList_append]
        exact isPrefixOf?_append_eq_none (by decide) (by decide)
  · rw [String.toList_append]
    exact isPrefixOf?_append_eq_none (by decide) (by decide)

theorem readTargetDuration_playlist
    (named : ∀ segment ∈ segments, '\n' ∉ segment.name.toList) :
    readTargetDuration (linesOf (playlist targetDuration mediaSequence segments).toList) =
      some targetDuration := by
  have isTarget : "#EXT-X-TARGETDURATION:".toList.isPrefixOf?
      ("#EXT-X-TARGETDURATION:" ++ toString targetDuration).toList =
      some (toString targetDuration).toList := by
    rw [List.isPrefixOf?_eq_some_iff_append_eq, String.toList_append]
  rw [readTargetDuration, linesOf_playlist named, List.findSome?_cons_of_isNone (by decide),
    List.findSome?_cons_of_isNone (by decide), List.findSome?_cons, isTarget]
  exact readDigits_toString targetDuration

end Playlist

/-! ## Correct times -/

/-- A playlist gives the duration of each of some chunks, which are in microseconds, and its
    target duration is at least each of them, rounded to the nearest second. -/
structure Times (text : String) (chunks : List (Nat × String)) : Prop where
  segments : readSegments (linesOf text.toList) =
    chunks.map fun chunk => (some ((chunk.1 : ℚ) / 1000000), chunk.2.toList)
  target : ∃ targetDuration, readTargetDuration (linesOf text.toList) = some targetDuration ∧
    ∀ chunk ∈ chunks, (chunk.1 + 500000) / 1000000 ≤ targetDuration

/-- A playlist has correct times if what is read from its segments is correct, and its target
    duration. -/
theorem times_playlist_iff {ι : Type*} {targetDuration mediaSequence : Nat} {items : List ι}
    {segment : ι → MediaSegment} {durationMks : ι → Nat}
    (named : ∀ item ∈ items, '\n' ∉ (segment item).name.toList) :
    Times (playlist targetDuration mediaSequence (items.map segment))
        (items.map fun item => (durationMks item, (segment item).name)) ↔
      (∀ item ∈ items, (segment item).seconds = (durationMks item : ℚ) / 1000000) ∧
        ∀ item ∈ items, (durationMks item + 500000) / 1000000 ≤ targetDuration := by
  have allNamed : ∀ segment' ∈ items.map segment, '\n' ∉ segment'.name.toList := by
    intro segment' member
    obtain ⟨item, isItem, rfl⟩ := List.mem_map.mp member
    exact named item isItem
  have isTarget := @readTargetDuration_playlist targetDuration mediaSequence _ allNamed
  constructor
  · intro times
    obtain ⟨target, isRead, bounds⟩ := times.target
    cases isTarget.symm.trans isRead
    have same := times.segments
    rw [readSegments_playlist allNamed, List.map_map, List.map_map, List.map_inj_left] at same
    refine ⟨fun item member => ?_, fun item member => ?_⟩
    · exact Option.some.inj (congrArg Prod.fst (same item member))
    · exact bounds _ (List.mem_map_of_mem member)
  · rintro ⟨same, bounds⟩
    refine ⟨?_, targetDuration, isTarget, ?_⟩
    · rw [readSegments_playlist allNamed, List.map_map, List.map_map, List.map_inj_left]
      intro item member
      simp only [Function.comp_apply, same item member]
    · intro chunk member
      obtain ⟨item, isItem, rfl⟩ := List.mem_map.mp member
      exact bounds item isItem

/-- What the digits of a number mean right after a point, in millionths. -/
def millionths (fraction : Nat) : Nat := fraction * 10 ^ (6 - (toString fraction).toList.length)

theorem length_toString_le_iff {n k : Nat} (positive : 0 < k) :
    (toString n).toList.length ≤ k ↔ n < 10 ^ k := by
  rw [Nat.toString_eq_ofList_toDigits, String.toList_ofList]
  exact Nat.length_toDigits_le_iff (by decide) positive

theorem millionths_eq {fraction : Nat} (small : fraction < 1000000) :
    (fraction : ℚ) / 10 ^ (toString fraction).toList.length =
      (millionths fraction : ℚ) / 1000000 := by
  have few : (toString fraction).toList.length ≤ 6 := (length_toString_le_iff (by decide)).mpr small
  rw [millionths]
  generalize (toString fraction).toList.length = digits at few ⊢
  have together : (10 : ℚ) ^ digits * 10 ^ (6 - digits) = 1000000 := by
    rw [← pow_add, Nat.add_sub_cancel' few]
    norm_num
  push_cast
  rw [← together]
  have nonzero : (10 : ℚ) ^ (6 - digits) ≠ 0 := pow_ne_zero _ (by norm_num)
  exact (mul_div_mul_right _ _ nonzero).symm

theorem millionths_eq_self_iff {fraction : Nat} (small : fraction < 1000000) :
    millionths fraction = fraction ↔ fraction = 0 ∨ 100000 ≤ fraction := by
  have few : (toString fraction).toList.length ≤ 6 := (length_toString_le_iff (by decide)).mpr small
  have fewer : (toString fraction).toList.length ≤ 5 ↔ fraction < 100000 :=
    length_toString_le_iff (by decide)
  rw [millionths]
  generalize (toString fraction).toList.length = digits at few fewer ⊢
  constructor
  · intro same
    by_contra short
    obtain ⟨nonzero, short⟩ := not_or.mp short
    have padded : 10 ^ 1 ≤ 10 ^ (6 - digits) :=
      Nat.pow_le_pow_right (by decide) (by omega)
    have grows := Nat.mul_le_mul_left fraction padded
    omega
  · rintro (rfl | long)
    · rw [Nat.zero_mul]
    · have all : digits = 6 := by omega
      rw [all, Nat.sub_self, Nat.pow_zero, Nat.mul_one]

/-- A duration that has been cut into seconds and microseconds is read from the digits of both
    if those after the point mean its microseconds. -/
theorem MediaSegment.seconds_eq_iff {segment : MediaSegment} {durationMks : Nat}
    (isWhole : segment.whole = durationMks / 1000000) (small : segment.fraction < 1000000) :
    segment.seconds = (durationMks : ℚ) / 1000000 ↔
      millionths segment.fraction = durationMks % 1000000 := by
  have cut : (durationMks : ℚ) =
      (durationMks / 1000000 : Nat) * 1000000 + (durationMks % 1000000 : Nat) := by
    exact_mod_cast (Nat.div_add_mod' durationMks 1000000).symm
  rw [MediaSegment.seconds, millionths_eq small, isWhole]
  generalize durationMks / 1000000 = whole at cut
  generalize durationMks % 1000000 = parts at cut
  rw [cut, add_div, mul_div_cancel_right₀ _ (by norm_num), add_right_inj,
    div_left_inj' (by norm_num), Nat.cast_inj]

end M3u8Playlist
