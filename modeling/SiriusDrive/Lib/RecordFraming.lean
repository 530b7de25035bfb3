import Mathlib.Data.List.Infix

/-! # Records in a stream

A stream is a sequence of records, each of which tells its size in a header of fixed size.
Records are cut off a buffer one after the other while the stream arrives in pieces; what
is cut off does not depend on the pieces.
-/

/-- How the records of a stream tell their size. -/
structure RecordFraming (β : Type*) where
  headerSize : Nat
  /-- The size of the whole record with this header, if the header is a valid one. -/
  recordSize : List β → Option Nat
  header_pos : 0 < headerSize
  header_le : ∀ header size, recordSize header = some size → headerSize ≤ size

namespace RecordFraming

variable {β : Type*} (framing : RecordFraming β)

/-- What stands at the front of a buffer. -/
inductive Front (β : Type*) where
  | record (record rest : List β)
  | insufficient
  | malformed
  deriving Repr, DecidableEq

def front (buffer : List β) : Front β :=
  if buffer.length < framing.headerSize then .insufficient
  else
    match framing.recordSize (buffer.take framing.headerSize) with
    | none => .malformed
    | some size =>
        if buffer.length < size then .insufficient
        else .record (buffer.take size) (buffer.drop size)

def IsRecord (record : List β) : Prop :=
  framing.recordSize (record.take framing.headerSize) = some record.length

instance : DecidablePred framing.IsRecord := fun _ => inferInstanceAs (Decidable (_ = _))

/-- The buffer starts with a header that no record has. -/
def IsMalformed (buffer : List β) : Prop :=
  framing.headerSize ≤ buffer.length ∧
    framing.recordSize (buffer.take framing.headerSize) = none

/-- No record can be cut off the buffer. -/
def IsCut (buffer : List β) : Prop := ∀ record rest, framing.front buffer ≠ .record record rest

variable {framing} {record rest buffer : List β}

theorem IsRecord.header_le (isRecord : framing.IsRecord record) :
    framing.headerSize ≤ record.length :=
  framing.header_le _ _ isRecord

theorem IsRecord.pos (isRecord : framing.IsRecord record) : 0 < record.length :=
  Nat.lt_of_lt_of_le framing.header_pos isRecord.header_le

theorem front_append (isRecord : framing.IsRecord record) (rest : List β) :
    framing.front (record ++ rest) = .record record rest := by
  have long := isRecord.header_le
  have header : (record ++ rest).take framing.headerSize = record.take framing.headerSize :=
    List.take_append_of_le_length long
  have isSize : framing.recordSize (record.take framing.headerSize) = some record.length := isRecord
  have enough : ¬ (record ++ rest).length < framing.headerSize := by simp; omega
  have complete : ¬ (record ++ rest).length < record.length := by simp
  simp only [front, if_neg enough, header, isSize, if_neg complete, List.take_left, List.drop_left]

theorem front_eq_record (cut : framing.front buffer = .record record rest) :
    buffer = record ++ rest ∧ framing.IsRecord record := by
  unfold front at cut
  split at cut
  · simp at cut
  · rename_i enough
    split at cut
    · simp at cut
    · rename_i size isSize
      have least := framing.header_le _ _ isSize
      split at cut
      · simp at cut
      · rename_i complete
        simp only [Front.record.injEq] at cut
        obtain ⟨rfl, rfl⟩ := cut
        have length : (buffer.take size).length = size := by simp; omega
        have header : (buffer.take size).take framing.headerSize =
            buffer.take framing.headerSize := by
          simp [List.take_take, Nat.min_eq_left least]
        exact ⟨(List.take_append_drop size buffer).symm, by simp [IsRecord, header, isSize, length]⟩

theorem front_eq_malformed_iff :
    framing.front buffer = .malformed ↔ framing.IsMalformed buffer := by
  unfold front IsMalformed
  split
  · simp; omega
  · rename_i enough
    split
    · rename_i isNone
      simp [isNone]
      omega
    · rename_i isSome
      split <;> simp [isSome]

theorem isCut_nil : framing.IsCut [] := by
  have positive := framing.header_pos
  simp [IsCut, front, positive]

theorem IsMalformed.append (malformed : framing.IsMalformed buffer) (more : List β) :
    framing.IsMalformed (buffer ++ more) := by
  obtain ⟨enough, isNone⟩ := malformed
  exact ⟨by simp; omega, by rwa [List.take_append_of_le_length enough]⟩

section Streams

variable {records others : List (List β)} {tail : List β}

/-- What has been cut off a stream of records, with no record at its end, are its first records. -/
theorem prefix_of_isCut (areRecords : ∀ record ∈ records, framing.IsRecord record)
    (areOthers : ∀ other ∈ others, framing.IsRecord other)
    (same : records.flatten ++ rest = others.flatten ++ tail) (isCut : framing.IsCut tail) :
    records <+: others := by
  induction records generalizing others with
  | nil => exact List.nil_prefix
  | cons record records ih =>
      cases others with
      | nil =>
          have first := front_append (areRecords record (by simp)) (records.flatten ++ rest)
          simp only [List.flatten_cons, List.flatten_nil, List.nil_append, List.append_assoc] at same
          exact absurd (same ▸ first) (isCut _ _)
      | cons other others =>
          have first := front_append (areRecords record (by simp)) (records.flatten ++ rest)
          have second := front_append (areOthers other (by simp)) (others.flatten ++ tail)
          simp only [List.flatten_cons, List.append_assoc] at same
          simp only [same, second, Front.record.injEq] at first
          obtain ⟨rfl, sameRest⟩ := first
          have later := ih (fun r member => areRecords r (by simp [member]))
            (fun r member => areOthers r (by simp [member])) sameRest.symm
          simpa using later

theorem eq_of_isCut (areRecords : ∀ record ∈ records, framing.IsRecord record)
    (areOthers : ∀ other ∈ others, framing.IsRecord other)
    (same : records.flatten ++ rest = others.flatten ++ tail) (isCut : framing.IsCut rest)
    (otherCut : framing.IsCut tail) : records = others ∧ rest = tail := by
  have first := prefix_of_isCut areRecords areOthers same otherCut
  have second := prefix_of_isCut areOthers areRecords same.symm isCut
  have equal := first.eq_of_length (Nat.le_antisymm first.length_le second.length_le)
  subst equal
  exact ⟨rfl, List.append_cancel_left same⟩

end Streams

end RecordFraming
