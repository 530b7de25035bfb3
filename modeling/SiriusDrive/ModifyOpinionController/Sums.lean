import SiriusDrive.Lib.MapSum
import SiriusDrive.ModifyOpinionController

/-! # The sums of the cumulative uploads

The controller scales the uploads of a modification so that all uploads together
come to what is expected. The sums wrap at 64 bits, and the scaling is right even
then unless the sizes received for one modification wrap to nothing.
-/

namespace SiriusDrive

theorem accumulate_eq (uploads : Std.TreeMap Key Nat) :
    accumulate uploads = u64 (uploads.sumOf fun _ bytes => bytes) :=
  uploads.foldl_add_mod _ (by decide)

theorem accumulate_lt (uploads : Std.TreeMap Key Nat) : accumulate uploads < 2 ^ 64 := by
  rw [accumulate_eq]
  exact u64_lt _

theorem accumulate_foldl_insert (uploads current : Std.TreeMap Key Nat) :
    accumulate (current.foldl (fun uploads uploaderKey bytes =>
      uploads.insert uploaderKey (u64 ((uploads[uploaderKey]?).getD 0 + bytes))) uploads) =
      u64 (accumulate uploads + accumulate current) := by
  rw [accumulate_eq, accumulate_eq, accumulate_eq]
  unfold u64
  generalize 2 ^ 64 = m
  rw [Std.TreeMap.sumOf_foldl_insert_add_mod, ← Nat.add_mod]

theorem u64_add_u64Sub {a b : Nat} (aSmall : a < 2 ^ 64) (bSmall : b < 2 ^ 64) :
    u64 (b + u64Sub a b) = a := by
  unfold u64Sub u64
  omega

namespace ModifyOpinionController

variable (controller : ModifyOpinionController)

/-- The uploads of the last approved modifications and of those not approved. -/
def approvedSum : Nat := accumulate controller.approvedCumulativeUploads.uploads

def notApprovedSum : Nat := accumulate controller.notApprovedCumulativeUploads.uploads

/-- What the uploads come to when a modification of some size is counted. -/
def expectedCumulativeDownload (addCumulativeDownload : Nat) : Nat :=
  u64 (controller.approvedExpectedCumulativeDownload + addCumulativeDownload)

theorem foldl_others (scaled : Std.TreeMap Key Nat) :
    scaled.foldl (fun sum key uploadBytes =>
      if key ≠ controller.clientKey then u64 (sum + uploadBytes) else sum) 0 =
        u64 (scaled.sumExcept controller.clientKey fun _ bytes => bytes) := by
  rw [← scaled.sumOf_ite_ne]
  apply scaled.foldl_eq_sumOf_mod (by decide)
  intro sum key bytes less
  split
  · rfl
  · rw [Nat.add_zero, Nat.mod_eq_of_lt less]

theorem accumulate_normalizeUploads (modificationUploads : Std.TreeMap Key Nat) {targetSum : Nat}
    (small : targetSum < 2 ^ 64)
    (fits : accumulate modificationUploads = 0 →
      (modificationUploads.sumOf fun _ bytes => bytes) = 0) :
    accumulate (controller.normalizeUploads modificationUploads targetSum) = targetSum := by
  unfold normalizeUploads
  by_cases positive : accumulate modificationUploads > 0
  · rw [if_pos positive, accumulate_eq, Std.TreeMap.sumOf_insert]
    generalize modificationUploads.map _ = scaled
    rw [foldl_others, Nat.add_comm, u64Sub, u64, u64, u64]
    omega
  · have zero : (modificationUploads.sumOf fun _ bytes => bytes) = 0 := fits (by omega)
    have parts := modificationUploads.sumOf_eq_sumExcept (fun _ bytes => bytes) controller.clientKey
    rw [if_neg positive, accumulate_eq, Std.TreeMap.sumOf_insert]
    have rest : (modificationUploads.sumExcept controller.clientKey fun _ bytes => bytes) = 0 := by
      omega
    rw [rest, Nat.zero_add, u64_of_lt small]

/-- What was received for the current modification does not wrap to nothing. -/
def TrafficFits (modifyTrafficMap : Std.TreeMap Key Nat) (replicators : List ReplicatorKey) : Prop :=
  accumulate (controller.currentUploads modifyTrafficMap replicators) = 0 →
    ((controller.currentUploads modifyTrafficMap replicators).sumOf fun _ bytes => bytes) = 0

instance (modifyTrafficMap : Std.TreeMap Key Nat) (replicators : List ReplicatorKey) :
    Decidable (controller.TrafficFits modifyTrafficMap replicators) :=
  inferInstanceAs (Decidable (_ → _))

/-- After `updateCumulativeUploads` all uploads together come to what is expected. -/
theorem notApprovedSum_updateCumulativeUploads {modifyTrafficMap : Std.TreeMap Key Nat}
    {replicators : List ReplicatorKey} (fits : controller.TrafficFits modifyTrafficMap replicators)
    (modificationId : Hash256) (addCumulativeDownload : Nat) :
    (controller.updateCumulativeUploads modifyTrafficMap modificationId replicators
      addCumulativeDownload).notApprovedSum =
      controller.expectedCumulativeDownload addCumulativeDownload := by
  let accounted := controller.notApprovedCumulativeUploads.uploads
  let scaled := controller.normalizeUploads
    (controller.currentUploads modifyTrafficMap replicators)
    (u64Sub (controller.expectedCumulativeDownload addCumulativeDownload) (accumulate accounted))
  have target : accumulate scaled =
      u64Sub (controller.expectedCumulativeDownload addCumulativeDownload) (accumulate accounted) :=
    controller.accumulate_normalizeUploads _ (u64_lt _) fits
  have small : controller.expectedCumulativeDownload addCumulativeDownload < 2 ^ 64 := u64_lt _
  have added : (controller.updateCumulativeUploads modifyTrafficMap modificationId replicators
      addCumulativeDownload).notApprovedSum = u64 (accumulate accounted + accumulate scaled) :=
    accumulate_foldl_insert accounted scaled
  rw [added, target, u64_add_u64Sub small (accumulate_lt _)]

/-! ## Sums that are covered -/

/-- Something is expected and the approved uploads do not exceed it. -/
structure Expects : Prop where
  positive : 0 < controller.approvedExpectedCumulativeDownload
  small : controller.approvedExpectedCumulativeDownload < 2 ^ 64
  approved : controller.approvedSum ≤ controller.approvedExpectedCumulativeDownload

/-- The uploads that are not approved do not exceed what is expected with an addition. -/
def Covers (addition : Nat) : Prop :=
  controller.notApprovedSum ≤ controller.approvedExpectedCumulativeDownload + addition

instance : Decidable controller.Expects :=
  decidable_of_iff (_ ∧ _ ∧ _) ⟨fun ⟨positive, small, approved⟩ => ⟨positive, small, approved⟩,
    fun expects => ⟨expects.positive, expects.small, expects.approved⟩⟩

instance (addition : Nat) : Decidable (controller.Covers addition) :=
  inferInstanceAs (Decidable (_ ≤ _))

variable {controller}

theorem Covers.mono {small large : Nat} (covers : controller.Covers small) (le : small ≤ large) :
    controller.Covers large := by
  unfold Covers at covers ⊢
  omega

theorem Expects.increase (expects : controller.Expects) {size : Nat}
    (fits : controller.approvedExpectedCumulativeDownload + size < 2 ^ 64) :
    (controller.increaseApprovedExpectedCumulativeDownload size).Expects := by
  have increased : (controller.increaseApprovedExpectedCumulativeDownload
      size).approvedExpectedCumulativeDownload =
      controller.approvedExpectedCumulativeDownload + size := u64_of_lt fits
  have positive := expects.positive
  have approved := expects.approved
  refine ⟨?_, ?_, ?_⟩
  · rw [increased]
    omega
  · rw [increased]
    exact fits
  · rw [increased]
    exact le_trans approved (Nat.le_add_right _ _)

theorem Covers.increase {size addition : Nat} (covers : controller.Covers (size + addition))
    (fits : controller.approvedExpectedCumulativeDownload + size < 2 ^ 64) :
    (controller.increaseApprovedExpectedCumulativeDownload size).Covers addition := by
  have increased : (controller.increaseApprovedExpectedCumulativeDownload
      size).approvedExpectedCumulativeDownload =
      controller.approvedExpectedCumulativeDownload + size := u64_of_lt fits
  unfold Covers at covers ⊢
  rw [increased, Nat.add_assoc]
  exact covers

theorem Expects.approve (expects : controller.Expects) :
    controller.approveCumulativeUploads.Expects := by
  refine ⟨?_, ?_, ?_⟩
  · exact lt_of_lt_of_le expects.positive (le_max_left _ _)
  · exact max_lt expects.small (accumulate_lt _)
  · exact le_max_right _ _

theorem covers_approveCumulativeUploads : controller.approveCumulativeUploads.Covers 0 :=
  le_max_right _ _

theorem Expects.disapprove (expects : controller.Expects) :
    controller.disapproveCumulativeUploads.Expects :=
  ⟨expects.positive, expects.small, expects.approved⟩

theorem Expects.covers_disapprove (expects : controller.Expects) :
    controller.disapproveCumulativeUploads.Covers 0 :=
  expects.approved

theorem Expects.update (expects : controller.Expects) (modifyTrafficMap : Std.TreeMap Key Nat)
    (modificationId : Hash256) (replicators : List ReplicatorKey) (addition : Nat) :
    (controller.updateCumulativeUploads modifyTrafficMap modificationId replicators
      addition).Expects :=
  ⟨expects.positive, expects.small, expects.approved⟩

theorem covers_updateCumulativeUploads {modifyTrafficMap : Std.TreeMap Key Nat}
    {replicators : List ReplicatorKey} (trafficFits : controller.TrafficFits modifyTrafficMap
      replicators) (modificationId : Hash256) {addition : Nat}
    (fits : controller.approvedExpectedCumulativeDownload + addition < 2 ^ 64) :
    (controller.updateCumulativeUploads modifyTrafficMap modificationId replicators
      addition).Covers addition := by
  unfold Covers
  rw [controller.notApprovedSum_updateCumulativeUploads trafficFits, expectedCumulativeDownload,
    u64_of_lt fits]
  rfl

end ModifyOpinionController

end SiriusDrive
