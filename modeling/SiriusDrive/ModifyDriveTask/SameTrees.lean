import SiriusDrive.ModifyDriveTask.ActionList
import SiriusDrive.ModifyDriveTask.MoveActions

/-! # The trees of two replicators

Two replicators perform the same actions on equal trees. What their actions look up
besides the tree is the drive folder, where the downloaded files are, and the current
path.
-/

namespace SiriusDrive

open SandboxFsTree

/-! ## Downloads -/

/-- What a replicator has when it takes up a modification. -/
structure ReplicatorFiles where
  files : LocalFiles
  torrentHandleMap : TorrentHandleMap

namespace ReplicatorFiles

variable (fileSize : InfoHash → Nat)

def download (replicator : ReplicatorFiles) (fileToDownload : InfoHash) : ReplicatorFiles where
  files :=
    { replicator.files with
      clientFile := fun path =>
        if path = hashToFileName fileToDownload then some (.regularFile (fileSize fileToDownload))
        else replicator.files.clientFile path }
  torrentHandleMap := replicator.torrentHandleMap.insert fileToDownload {}

/-- `downloadMissingFiles` is called until nothing is missing, and no download fails. -/
inductive CompletesDownloads :
    ReplicatorFiles → List Hash256 → ReplicatorFiles → Prop where
  | finished {replicator : ReplicatorFiles} {missedFileSet : List Hash256}
      (isEnd : ModifyDriveTask.selectMissing replicator.torrentHandleMap missedFileSet =
        some (none, [])) : CompletesDownloads replicator missedFileSet replicator
  | next {replicator after : ReplicatorFiles} {missedFileSet rest : List Hash256}
      {fileToDownload : InfoHash}
      (isNext : ModifyDriveTask.selectMissing replicator.torrentHandleMap missedFileSet =
        some (some fileToDownload, rest))
      (later : CompletesDownloads (replicator.download fileSize fileToDownload) rest after) :
      CompletesDownloads replicator missedFileSet after

/-- The entries of the torrents name complete files. -/
def NamesFiles (replicator : ReplicatorFiles) : Prop :=
  ∀ hash, replicator.torrentHandleMap.contains hash = true →
    replicator.files.clientFile (hashToFileName hash) = some (.regularFile (fileSize hash))

variable {fileSize} {replicator after : ReplicatorFiles} {missedFileSet : List Hash256}

theorem NamesFiles.download (names : NamesFiles fileSize replicator) (fileToDownload : InfoHash) :
    NamesFiles fileSize (replicator.download fileSize fileToDownload) := by
  intro hash isThere
  by_cases same : hash = fileToDownload
  · subst same
    exact if_pos rfl
  · have before : replicator.torrentHandleMap.contains hash = true := by
      rw [ReplicatorFiles.download, Std.TreeMap.contains_insert] at isThere
      simpa [Ne.symm same] using isThere
    have otherName : hashToFileName hash ≠ hashToFileName fileToDownload :=
      fun sameName => same (hashToFileName_injective sameName)
    exact (if_neg otherName).trans (names hash before)

theorem CompletesDownloads.spec
    (completes : CompletesDownloads fileSize replicator missedFileSet after)
    (names : NamesFiles fileSize replicator) :
    NamesFiles fileSize after ∧
      (∀ hash, replicator.torrentHandleMap.contains hash = true →
        after.torrentHandleMap.contains hash = true) ∧
      (∀ hash ∈ missedFileSet, after.torrentHandleMap.contains hash = true) := by
  induction completes with
  | finished isEnd =>
      refine ⟨names, fun _ => id, ?_⟩
      intro hash member
      rcases ModifyDriveTask.selectMissing_covers isEnd member with isThere | never | never
      · exact isThere
      · cases never
      · cases never.1
  | @next replicator after missedFileSet rest fileToDownload isNext later ih =>
      obtain ⟨complete, grows, covers⟩ := ih (names.download fileToDownload)
      have keeps : ∀ hash, replicator.torrentHandleMap.contains hash = true →
          after.torrentHandleMap.contains hash = true := by
        intro hash isThere
        apply grows
        rw [ReplicatorFiles.download, Std.TreeMap.contains_insert, isThere, Bool.or_true]
      refine ⟨complete, keeps, ?_⟩
      intro hash member
      rcases ModifyDriveTask.selectMissing_covers isNext member with isThere | isNow | isLater
      · exact keeps hash isThere
      · cases isNow
        apply grows
        rw [ReplicatorFiles.download, Std.TreeMap.contains_insert_self]
      · exact covers hash isLater.2

theorem CompletesDownloads.same
    (completes : CompletesDownloads fileSize replicator missedFileSet after) :
    after.files.currentPath = replicator.files.currentPath ∧
      ∀ path, (∀ hash, path ≠ hashToFileName hash) →
        after.files.clientFile path = replicator.files.clientFile path := by
  induction completes with
  | finished isEnd => exact ⟨rfl, fun _ _ => rfl⟩
  | next isNext later ih =>
      refine ⟨ih.1, ?_⟩
      intro path other
      rw [ih.2 path other]
      exact if_neg (other _)

end ReplicatorFiles

/-! ## Actions that two replicators perform alike -/

/-- The two replicators find the same, and what the action does is defined. -/
def Agree (first second : LocalFiles) (sandbox : SandboxFsTree) (action : Action) : Prop :=
  match action.actionId with
  | .upload => first.clientFile action.param1 = second.clientFile action.param1
  | .move =>
      let source := FsPath.parse action.param1
      let destination := FsPath.parse action.param2
      (sandbox.contents.NamesFolder source.keys →
        first.isPathInside source destination = second.isPathInside source destination) ∧
      (first.Accepts sandbox.fsTree source destination →
        destination = source ∨ sandbox.contents.PassesFile destination.parentPath.elements ∨
          ¬ destination.keys <+: source.keys)
  | .newFolder | .remove => True

namespace SandboxFsTree

variable {first second : LocalFiles} {sandbox other : SandboxFsTree} {action : Action}

theorem uploadDestination_congr (same : sandbox.contents = other.contents) :
    sandbox.uploadDestination action = other.uploadDestination action := by
  by_cases isFolder : sandbox.contents.NamesFolder (FsPath.parse action.param2).keys
  · rw [uploadDestination_of_folder isFolder, uploadDestination_of_folder (same ▸ isFolder)]
  · rw [uploadDestination_of_not isFolder, uploadDestination_of_not (same ▸ isFolder)]

theorem Uploads.congr (same : sandbox.contents = other.contents)
    (files : first.clientFile action.param1 = second.clientFile action.param1)
    {fileHash : InfoHash} {fileSize : Nat}
    (uploads : Uploads first action sandbox fileHash fileSize) :
    Uploads second action other fileHash fileSize where
  isFile := files.symm.trans uploads.isFile
  isHash := uploads.isHash
  isFree := by
    rw [← same, ← uploadDestination_congr same]
    exact uploads.isFree

theorem upload_agree (same : sandbox.contents = other.contents)
    (files : first.clientFile action.param1 = second.clientFile action.param1) :
    (sandbox.upload first action).contents = (other.upload second action).contents := by
  by_cases uploads : ∃ fileHash fileSize, Uploads first action sandbox fileHash fileSize
  · obtain ⟨fileHash, fileSize, uploads⟩ := uploads
    rw [contents_upload uploads, contents_upload (uploads.congr same files), uploadPath, uploadPath,
      uploadDestination_congr same, same]
  · rw [upload_eq_self, upload_eq_self, same]
    · intro fileHash fileSize here
      exact uploads ⟨fileHash, fileSize, here.congr same.symm files.symm⟩
    · intro fileHash fileSize here
      exact uploads ⟨fileHash, fileSize, here⟩

theorem AddsFolder.congr (same : sandbox.contents = other.contents)
    (adds : AddsFolder action sandbox) : AddsFolder action other :=
  ⟨same ▸ adds.isMissing, same ▸ adds.isFree⟩

theorem newFolder_agree (same : sandbox.contents = other.contents) :
    (sandbox.newFolder action).contents = (other.newFolder action).contents := by
  by_cases adds : AddsFolder action sandbox
  · rw [contents_newFolder adds, contents_newFolder (adds.congr same), same]
  · rw [newFolder_eq_self adds, newFolder_eq_self fun here => adds (here.congr same.symm), same]

theorem move_agree (same : sandbox.contents = other.contents)
    (inside : sandbox.contents.NamesFolder (FsPath.parse action.param1).keys →
      first.isPathInside (.parse action.param1) (.parse action.param2) =
        second.isPathInside (.parse action.param1) (.parse action.param2))
    (isDefined : first.Accepts sandbox.fsTree (.parse action.param1) (.parse action.param2) →
      FsPath.parse action.param2 = FsPath.parse action.param1 ∨
        sandbox.contents.PassesFile (FsPath.parse action.param2).parentPath.elements ∨
          ¬ (FsPath.parse action.param2).keys <+: (FsPath.parse action.param1).keys) :
    ∃ after after', sandbox.move first action = some after ∧
      other.move second action = some after' ∧ after.contents = after'.contents := by
  have both : first.Accepts sandbox.fsTree (.parse action.param1) (.parse action.param2) ↔
      second.Accepts other.fsTree (.parse action.param1) (.parse action.param2) := by
    rw [accepts_iff, accepts_iff, ← same]
    apply and_congr_right
    intro _
    apply forall_congr'
    intro isFolder
    rw [inside isFolder]
  by_cases accepts : first.Accepts sandbox.fsTree (.parse action.param1) (.parse action.param2)
  · by_cases stays : FsPath.parse action.param2 = FsPath.parse action.param1 ∨
        sandbox.contents.PassesFile (FsPath.parse action.param2).parentPath.elements
    · obtain ⟨after, isAfter, unchanged⟩ := move_stays accepts stays
      obtain ⟨after', isAfter', unchanged'⟩ := move_stays (both.mp accepts) (same ▸ stays)
      exact ⟨after, after', isAfter, isAfter', unchanged.trans (same.trans unchanged'.symm)⟩
    · obtain ⟨differ, isFree⟩ := not_or.mp stays
      have notAbove := ((isDefined accepts).resolve_left differ).resolve_left isFree
      obtain ⟨after, isAfter, isMoved⟩ := move_moves accepts differ isFree notAbove
      obtain ⟨after', isAfter', isMoved'⟩ :=
        move_moves (both.mp accepts) differ (same ▸ isFree) notAbove
      refine ⟨after, after', isAfter, isAfter', ?_⟩
      rw [isMoved, isMoved', same]
  · refine ⟨sandbox, other, move_of_not_accepts accepts, move_of_not_accepts ?_, same⟩
    exact fun here => accepts (both.mpr here)

theorem perform_agree (same : sandbox.contents = other.contents)
    (agree : Agree first second sandbox action) :
    ∃ after after', sandbox.perform first action = some after ∧
      other.perform second action = some after' ∧ after.contents = after'.contents := by
  rw [perform, perform]
  cases isKind : action.actionId with
  | upload =>
      simp only [Agree, isKind] at agree
      exact ⟨_, _, rfl, rfl, upload_agree same agree⟩
  | newFolder => exact ⟨_, _, rfl, rfl, newFolder_agree same⟩
  | move =>
      simp only [Agree, isKind] at agree
      exact move_agree same agree.1 agree.2
  | remove =>
      refine ⟨_, _, rfl, rfl, ?_⟩
      rw [contents_remove, contents_remove, same]

/-! ## The whole list -/

/-- An upload names its file as the replicators do, or the two replicators find the same. -/
def ActsAlike (first second : LocalFiles) (sandbox : SandboxFsTree) (action : Action) : Prop :=
  (action.actionId = .upload ∧ ∃ hash, action.param1 = hashToFileName hash) ∨
    Agree first second sandbox action

theorem isPathInside_congr (same : second.currentPath = first.currentPath)
    (source destination : FsPath) :
    second.isPathInside source destination = first.isPathInside source destination := by
  simp only [LocalFiles.isPathInside, LocalFiles.absolute, same]

/-- What two replicators find alike they also find alike after the downloads. -/
theorem agree_of_actsAlike {fileSize : InfoHash → Nat}
    {first second first' second' : ReplicatorFiles} {missedFileSet : List Hash256}
    (firstNames : first.NamesFiles fileSize) (secondNames : second.NamesFiles fileSize)
    (firstCompletes : first.CompletesDownloads fileSize missedFileSet first')
    (secondCompletes : second.CompletesDownloads fileSize missedFileSet second')
    (isMissed : ∀ hash, action.uploadHash = some (.ok hash) → hash ∈ missedFileSet)
    (alike : ActsAlike first.files second.files sandbox action) :
    Agree first'.files second'.files sandbox action := by
  obtain ⟨firstComplete, _, firstHas⟩ := firstCompletes.spec firstNames
  obtain ⟨secondComplete, _, secondHas⟩ := secondCompletes.spec secondNames
  have named : ∀ hash, action.actionId = .upload → action.param1 = hashToFileName hash →
      first'.files.clientFile action.param1 = second'.files.clientFile action.param1 := by
    intro hash isUpload isName
    have member : hash ∈ missedFileSet := by
      apply isMissed
      rw [Action.uploadHash, isUpload, isName, stringToByteArray_hashToFileName]
    rw [isName, firstComplete hash (firstHas hash member),
      secondComplete hash (secondHas hash member)]
  cases isKind : action.actionId with
  | upload =>
      simp only [Agree, isKind]
      by_cases isNamed : ∃ hash, action.param1 = hashToFileName hash
      · obtain ⟨hash, isName⟩ := isNamed
        exact named hash isKind isName
      · have other : ∀ hash, action.param1 ≠ hashToFileName hash :=
          fun hash isName => isNamed ⟨hash, isName⟩
        rcases alike with spelled | agree
        · exact absurd spelled.2 isNamed
        · simp only [Agree, isKind] at agree
          rw [firstCompletes.same.2 _ other, secondCompletes.same.2 _ other, agree]
  | move =>
      rcases alike with spelled | agree
      · rw [isKind] at spelled
        cases spelled.1
      · simp only [Agree, isKind, accepts_iff] at agree ⊢
        rw [isPathInside_congr firstCompletes.same.1, isPathInside_congr secondCompletes.same.1]
        exact agree
  | newFolder => simp only [Agree, isKind]
  | remove => simp only [Agree, isKind]

/-- Two replicators come to the same tree if their actions act alike. -/
theorem sandboxFsTrees_agree {fileSize : InfoHash → Nat}
    {first second first' second' : ReplicatorFiles} {actionList : ActionList}
    {missedFileSet : List Hash256} (same : sandbox.contents = other.contents)
    (prepared : ModifyDriveTask.prepareMissed [] actionList = .ok missedFileSet)
    (firstNames : first.NamesFiles fileSize) (secondNames : second.NamesFiles fileSize)
    (firstCompletes : first.CompletesDownloads fileSize missedFileSet first')
    (secondCompletes : second.CompletesDownloads fileSize missedFileSet second')
    (meets : (actionSystem first'.files).Meets (ActsAlike first.files second.files) sandbox
      actionList) :
    ∃ after after', (actionSystem first'.files).exec sandbox actionList = some after ∧
      (actionSystem second'.files).exec other actionList = some after' ∧
        after.contents = after'.contents := by
  have isMissed : ∀ action ∈ actionList, ∀ hash, action.uploadHash = some (.ok hash) →
      hash ∈ missedFileSet := by
    intro action member hash isHash
    exact ((ModifyDriveTask.prepareMissed_ok prepared).2.1 hash).mpr (.inr ⟨action, member, isHash⟩)
  have agrees : (actionSystem first'.files).Meets (Agree first'.files second'.files) sandbox
      actionList := by
    apply (meets.and (Transition.meets_of_forall isMissed)).mono
    rintro sandbox action ⟨alike, isMissed⟩
    exact agree_of_actsAlike firstNames secondNames firstCompletes secondCompletes isMissed alike
  let Same (sandbox other : SandboxFsTree) : Prop := sandbox.contents = other.contents
  apply Transition.exec_in_step (R := Same) _ same agrees
  intro sandbox other action same agree
  exact perform_agree same agree

/-! ## A leftover file -/

def uploadedFile : Hash256 := 0xaaaaaaaaaaaaaaaaaaaaaaaaaaaaaaaaaaaaaaaaaaaaaaaaaaaaaaaaaaaaaaaa

def sampleSize (_hash : InfoHash) : Nat := 5

def freshReplicator : ReplicatorFiles where
  files := sampleFiles
  torrentHandleMap := ∅

/-- A replicator that has some file under the name in upper case. -/
def usedReplicator : ReplicatorFiles where
  files :=
    { clientFile := fun path =>
        if path = "AAAAAAAAAAAAAAAAAAAAAAAAAAAAAAAAAAAAAAAAAAAAAAAAAAAAAAAAAAAAAAAA" then
          some (.regularFile 7)
        else none
      currentPath := some (.parse "/home") }
  torrentHandleMap := ∅

def lowerUpload : Action :=
  { actionId := .upload, param2 := "a"
    param1 := "aaaaaaaaaaaaaaaaaaaaaaaaaaaaaaaaaaaaaaaaaaaaaaaaaaaaaaaaaaaaaaaa" }

def upperUpload : Action :=
  { actionId := .upload, param2 := "a"
    param1 := "AAAAAAAAAAAAAAAAAAAAAAAAAAAAAAAAAAAAAAAAAAAAAAAAAAAAAAAAAAAAAAAA" }

theorem namesFiles_of_empty {replicator : ReplicatorFiles}
    (empty : replicator.torrentHandleMap = ∅) :
    replicator.NamesFiles sampleSize := by
  intro hash isThere
  rw [empty, Std.TreeMap.contains_emptyc] at isThere
  cases isThere

theorem completesDownloads_of_empty {replicator : ReplicatorFiles}
    (empty : replicator.torrentHandleMap = ∅) :
    replicator.CompletesDownloads sampleSize [uploadedFile]
      (replicator.download sampleSize uploadedFile) := by
  have isNext : ModifyDriveTask.selectMissing replicator.torrentHandleMap [uploadedFile] =
      some (some uploadedFile, []) := by
    rw [empty]
    decide +kernel
  exact .next isNext (.finished rfl)

def renameMove : Action := { actionId := .move, param1 := "a", param2 := "b" }

/-- The leftover file does not matter to an upload that is spelled in lower case. -/
theorem lowerUpload_agrees :
    ∃ after after',
      (actionSystem (freshReplicator.download sampleSize uploadedFile).files).exec emptySandbox
          [lowerUpload, renameMove] = some after ∧
        (actionSystem (usedReplicator.download sampleSize uploadedFile).files).exec emptySandbox
          [lowerUpload, renameMove] = some after' ∧ after.contents = after'.contents := by
  have prepared : ModifyDriveTask.prepareMissed [] [lowerUpload, renameMove] =
      .ok [uploadedFile] := rfl
  apply sandboxFsTrees_agree rfl prepared (namesFiles_of_empty rfl) (namesFiles_of_empty rfl)
    (completesDownloads_of_empty rfl) (completesDownloads_of_empty rfl)
  refine ⟨.inl ⟨rfl, uploadedFile, by decide +kernel⟩, ?_⟩
  intro sandbox _
  refine ⟨.inr ⟨fun _ => by decide +kernel, fun _ => ?_⟩, fun _ _ => trivial⟩
  right
  right
  decide +kernel

/-- In upper case the file is not found where it has been downloaded to. -/
theorem upperUpload_differs : ¬ ∀ (fileSize : InfoHash → Nat)
    (first second first' second' : ReplicatorFiles) (actionList : ActionList)
    (missedFileSet : List Hash256) (sandbox other : SandboxFsTree),
    sandbox.contents = other.contents →
      ModifyDriveTask.prepareMissed [] actionList = .ok missedFileSet → 0 ∉ missedFileSet →
      first.NamesFiles fileSize → second.NamesFiles fileSize →
      first.CompletesDownloads fileSize missedFileSet first' →
      second.CompletesDownloads fileSize missedFileSet second' →
        ∃ after after', (actionSystem first'.files).exec sandbox actionList = some after ∧
          (actionSystem second'.files).exec other actionList = some after' ∧
            after.contents = after'.contents := by
  intro all
  obtain ⟨after, after', run, run', same⟩ := all sampleSize freshReplicator usedReplicator
    (freshReplicator.download sampleSize uploadedFile)
    (usedReplicator.download sampleSize uploadedFile) [upperUpload] [uploadedFile] emptySandbox
    emptySandbox rfl rfl (by decide +kernel) (namesFiles_of_empty rfl) (namesFiles_of_empty rfl)
    (completesDownloads_of_empty rfl) (completesDownloads_of_empty rfl)
  cases run
  cases run'
  have here := congrFun same ["a"]
  exact absurd here (by decide +kernel)

end SandboxFsTree

end SiriusDrive
