import SiriusDrive.Lib.MapLookup
import SiriusDrive.ModifyOpinionController.Sums

/-! # The scaling of the uploads

As long as what was received fits in 64 bits, `normalizeUploads` gives every uploader but the
client its share of the target, rounded down, and the client exactly what is left.
-/

namespace SiriusDrive

namespace ModifyOpinionController

variable (controller : ModifyOpinionController)

/-- The uploads after the loop: those of the client are left as they are. -/
def scaledUploads (modificationUploads : Std.TreeMap Key Nat) (targetSum : Nat) :
    Std.TreeMap Key Nat :=
  modificationUploads.map fun key uploadBytes =>
    if key ≠ controller.clientKey then
      u64 (uploadBytes * targetSum / accumulate modificationUploads)
    else uploadBytes

/-- `sumAfter`, which the loop adds up. -/
def sumAfter (scaled : Std.TreeMap Key Nat) : Nat :=
  scaled.foldl (fun sum key uploadBytes =>
    if key ≠ controller.clientKey then u64 (sum + uploadBytes) else sum) 0

variable {controller} {uploads : Std.TreeMap Key Nat} {targetSum : Nat}

theorem normalizeUploads_of_pos (positive : accumulate uploads > 0) :
    controller.normalizeUploads uploads targetSum =
      (controller.scaledUploads uploads targetSum).insert controller.clientKey
        (u64Sub targetSum (controller.sumAfter (controller.scaledUploads uploads targetSum))) :=
  if_pos positive

theorem normalizeUploads_of_zero (zero : accumulate uploads = 0) :
    controller.normalizeUploads uploads targetSum =
      uploads.insert controller.clientKey targetSum :=
  if_neg (by rw [zero]; exact Nat.lt_irrefl 0)

theorem sumAfter_eq {scaled : Std.TreeMap Key Nat}
    (fits : (scaled.sumExcept controller.clientKey fun _ bytes => bytes) < 2 ^ 64) :
    controller.sumAfter scaled = scaled.sumExcept controller.clientKey fun _ bytes => bytes :=
  (controller.foldl_others scaled).trans (u64_of_lt fits)

theorem share_le {key : Key} {bytes : Nat} (member : (key, bytes) ∈ uploads.toList) :
    bytes * targetSum / (uploads.sumOf fun _ bytes => bytes) ≤ targetSum := by
  have part : bytes ≤ uploads.sumOf fun _ bytes => bytes :=
    Std.TreeMap.le_sumOf member fun _ bytes => bytes
  apply Nat.div_le_of_le_mul
  exact Nat.mul_le_mul_right targetSum part

theorem getElem?_scaledUploads (key : Key) :
    (controller.scaledUploads uploads targetSum)[key]? = (uploads[key]?).map fun uploadBytes =>
      if key ≠ controller.clientKey then u64 (uploadBytes * targetSum / accumulate uploads)
      else uploadBytes :=
  Std.TreeMap.getElem?_map

section Fits

variable (fits : (uploads.sumOf fun _ bytes => bytes) < 2 ^ 64) (small : targetSum < 2 ^ 64)

include fits

theorem accumulate_of_fits : accumulate uploads = uploads.sumOf fun _ bytes => bytes := by
  rw [accumulate_eq, u64_of_lt fits]

include small

theorem getElem?_share {key : Key} {bytes : Nat} (other : key ≠ controller.clientKey)
    (found : uploads[key]? = some bytes) :
    (controller.scaledUploads uploads targetSum)[key]? =
      some (bytes * targetSum / (uploads.sumOf fun _ bytes => bytes)) := by
  have member := Std.TreeMap.mem_toList_iff_getElem?_eq_some.mpr found
  have less : bytes * targetSum / (uploads.sumOf fun _ bytes => bytes) < 2 ^ 64 :=
    Nat.lt_of_le_of_lt (share_le member) small
  rw [getElem?_scaledUploads, found, Option.map_some, if_pos other, accumulate_of_fits fits,
    u64_of_lt less]

theorem sumExcept_scaledUploads_le :
    ((controller.scaledUploads uploads targetSum).sumExcept controller.clientKey
      fun _ bytes => bytes) ≤ targetSum := by
  let share : Key → Nat → Nat := fun _ bytes =>
    bytes * targetSum / (uploads.sumOf fun _ bytes => bytes)
  rw [← Std.TreeMap.sumOf_ite_ne, scaledUploads, Std.TreeMap.sumOf_map]
  calc uploads.sumOf _
      = uploads.sumOf fun key bytes =>
          if key ≠ controller.clientKey then share key bytes else 0 := by
        apply Std.TreeMap.sumOf_congr
        intro key bytes member
        split
        · rw [accumulate_of_fits fits, u64_of_lt]
          exact Nat.lt_of_le_of_lt (share_le member) small
        · rfl
    _ ≤ uploads.sumOf share := by
        apply Std.TreeMap.sumOf_mono
        intro key bytes
        split
        · exact Nat.le_refl _
        · exact Nat.zero_le _
    _ ≤ (uploads.sumOf fun _ bytes => bytes) * targetSum /
          (uploads.sumOf fun _ bytes => bytes) :=
        uploads.sumOf_mul_div_le (fun _ bytes => bytes) _ _
    _ ≤ targetSum := Nat.div_le_of_le_mul (Nat.le_refl _)

end Fits

/-- The uploads come to the target: everybody but the client has a share of it, rounded down. -/
theorem normalizeUploads_exact (hasClient : controller.clientKey ∈ uploads)
    (fits : (uploads.sumOf fun _ bytes => bytes) < 2 ^ 64) (small : targetSum < 2 ^ 64) :
    (∀ key, key ∈ controller.normalizeUploads uploads targetSum ↔ key ∈ uploads) ∧
      ((controller.normalizeUploads uploads targetSum).sumOf fun _ bytes => bytes) = targetSum ∧
      (0 < (uploads.sumOf fun _ bytes => bytes) →
        (∀ key bytes, key ≠ controller.clientKey → uploads[key]? = some bytes →
          (controller.normalizeUploads uploads targetSum)[key]? =
            some (bytes * targetSum / (uploads.sumOf fun _ bytes => bytes))) ∧
        controller.sumAfter (controller.scaledUploads uploads targetSum) ≤ targetSum) := by
  have sameKeys (key : Key) : key ∈ controller.scaledUploads uploads targetSum ↔ key ∈ uploads :=
    Std.TreeMap.mem_map
  have below := @sumExcept_scaledUploads_le controller uploads targetSum fits small
  have sum := sumAfter_eq (Nat.lt_of_le_of_lt below small)
  have insertKeys {scaled : Std.TreeMap Key Nat} (same : ∀ key, key ∈ scaled ↔ key ∈ uploads)
      (bytes : Nat) (key : Key) : key ∈ scaled.insert controller.clientKey bytes ↔ key ∈ uploads := by
    rw [Std.TreeMap.mem_insert, same]
    constructor
    · rintro (isClient | member)
      · rw [← Std.LawfulEqCmp.compare_eq_iff_eq.mp isClient]
        exact hasClient
      · exact member
    · exact Or.inr
  rcases Nat.eq_zero_or_pos (uploads.sumOf fun _ bytes => bytes) with zero | positive
  · have nothing : accumulate uploads = 0 := (accumulate_of_fits fits).trans zero
    have rest : (uploads.sumExcept controller.clientKey fun _ bytes => bytes) = 0 := by
      have parts := uploads.sumOf_eq_sumExcept (fun _ bytes => bytes) controller.clientKey
      omega
    rw [normalizeUploads_of_zero nothing]
    refine ⟨insertKeys (fun _ => Iff.rfl) targetSum, ?_, ?_⟩
    · rw [Std.TreeMap.sumOf_insert, rest, Nat.zero_add]
    · intro positive
      exact absurd zero (Nat.ne_of_gt positive)
  · have something : accumulate uploads > 0 := (accumulate_of_fits fits).symm ▸ positive
    rw [normalizeUploads_of_pos something]
    refine ⟨insertKeys sameKeys _, ?_, ?_⟩
    · rw [Std.TreeMap.sumOf_insert, sum, u64Sub_of_le below small, Nat.add_sub_cancel' below]
    · intro _
      refine ⟨?_, sum.trans_le below⟩
      intro key bytes other found
      rw [Std.TreeMap.getElem?_insert_eq, if_neg other]
      exact getElem?_share fits small other found

/-- Two replicators have sent three bytes each, the client one. -/
theorem normalizeUploads_exact_seven :
    ((⟨9, 0, {}, {}⟩ : ModifyOpinionController).normalizeUploads
      ((((∅ : Std.TreeMap Key Nat).insert 7 3).insert 8 3).insert 9 1) 10)[(7 : Key)]? = some 4 := by
  have exact := (@normalizeUploads_exact ⟨9, 0, {}, {}⟩
    ((((∅ : Std.TreeMap Key Nat).insert 7 3).insert 8 3).insert 9 1) 10
    (by decide) (by decide) (by decide)).2.2 (by decide)
  exact exact.1 7 3 (by decide) (by decide)

end ModifyOpinionController

end SiriusDrive
