import SiriusDrive.FlatDriveTypes

/-! # Cumulative uploads

The controller keeps how much every uploader has sent for the modifications up
to the last approved one, and for those up to the one being processed.
-/

namespace SiriusDrive

/-- `CumulativeUploads`. -/
structure CumulativeUploads where
  modificationId : Hash256 := 0
  uploads : Std.TreeMap Key Nat := ∅

/-- `ModifyOpinionController`. -/
structure ModifyOpinionController where
  clientKey : Key
  approvedExpectedCumulativeDownload : Nat
  approvedCumulativeUploads : CumulativeUploads := {}
  notApprovedCumulativeUploads : CumulativeUploads := {}

/-- The `std::accumulate` over `uint64_t` values. -/
def accumulate (uploads : Std.TreeMap Key Nat) : Nat :=
  uploads.foldl (fun sum _ bytes => u64 (sum + bytes)) 0

namespace ModifyOpinionController

def increaseApprovedExpectedCumulativeDownload (controller : ModifyOpinionController) (add : Nat) :
    ModifyOpinionController :=
  { controller with
    approvedExpectedCumulativeDownload := u64 (controller.approvedExpectedCumulativeDownload + add) }

/-- The sizes received from the given uploaders and from the client. -/
def currentUploads (controller : ModifyOpinionController) (modifyTrafficMap : Std.TreeMap Key Nat)
    (replicators : List ReplicatorKey) : Std.TreeMap Key Nat :=
  (replicators ++ [controller.clientKey]).foldl
    (fun uploads key => uploads.insert key ((modifyTrafficMap[key]?).getD 0)) ∅

/-- `normalizeUploads`: scale the uploads to the target, the client takes the rest. -/
def normalizeUploads (controller : ModifyOpinionController)
    (modificationUploads : Std.TreeMap Key Nat) (targetSum : Nat) : Std.TreeMap Key Nat :=
  let sumBefore := accumulate modificationUploads
  if sumBefore > 0 then
    let scaled := modificationUploads.map fun key uploadBytes =>
      if key ≠ controller.clientKey then u64 (uploadBytes * targetSum / sumBefore) else uploadBytes
    let sumAfter := scaled.foldl (fun sum key uploadBytes =>
      if key ≠ controller.clientKey then u64 (sum + uploadBytes) else sum) 0
    scaled.insert controller.clientKey (u64Sub targetSum sumAfter)
  else modificationUploads.insert controller.clientKey targetSum

/-- `updateCumulativeUploads`, up to the save it schedules. The caller clears the
    traffic map (`resetCurrentModifyInfo`). -/
def updateCumulativeUploads (controller : ModifyOpinionController)
    (modifyTrafficMap : Std.TreeMap Key Nat) (modificationId : Hash256)
    (replicators : List ReplicatorKey) (addCumulativeDownload : Nat) : ModifyOpinionController :=
  let accountedCumulativeDownload := accumulate controller.notApprovedCumulativeUploads.uploads
  let expectedCumulativeDownload :=
    u64 (controller.approvedExpectedCumulativeDownload + addCumulativeDownload)
  let targetSize := u64Sub expectedCumulativeDownload accountedCumulativeDownload
  let currentUploads := controller.normalizeUploads
    (controller.currentUploads modifyTrafficMap replicators) targetSize
  let uploads := currentUploads.foldl (fun uploads uploaderKey bytes =>
      uploads.insert uploaderKey (u64 ((uploads[uploaderKey]?).getD 0 + bytes)))
    controller.notApprovedCumulativeUploads.uploads
  { controller with notApprovedCumulativeUploads := { modificationId, uploads } }

/-- `fillOpinion`. -/
def fillOpinion (controller : ModifyOpinionController) : List KeyAndBytes :=
  controller.notApprovedCumulativeUploads.uploads.toList.map fun (key, bytes) => ⟨key, bytes⟩

/-- `approveCumulativeUploads`, up to the save it schedules. -/
def approveCumulativeUploads (controller : ModifyOpinionController) : ModifyOpinionController :=
  { controller with
    approvedCumulativeUploads := controller.notApprovedCumulativeUploads
    approvedExpectedCumulativeDownload :=
      max controller.approvedExpectedCumulativeDownload
        (accumulate controller.notApprovedCumulativeUploads.uploads) }

/-- `disapproveCumulativeUploads`, up to the save it schedules. -/
def disapproveCumulativeUploads (controller : ModifyOpinionController) : ModifyOpinionController :=
  { controller with notApprovedCumulativeUploads := controller.approvedCumulativeUploads }

def notApprovedModificationId (controller : ModifyOpinionController) : Hash256 :=
  controller.notApprovedCumulativeUploads.modificationId

end ModifyOpinionController

end SiriusDrive
