import SiriusDrive.ModifyDriveTask.FsTreeActions

/-! # Uploads of a modification

A file that is put into a folder takes the place of whatever has its name there.
-/

namespace SiriusDrive.SandboxFsTree

variable {files : LocalFiles} {action : Action} {sandbox : SandboxFsTree}

/-- Nothing but a file at the destination is lost. -/
def KeepsEntries (sandbox after : SandboxFsTree) (destination : List String) : Prop :=
  ∀ names info, sandbox.contents names = some info →
    after.contents names = some info ∨ names = destination ∧ info.isFolder = false

/-- The file goes into a folder, where its name is that of a folder. -/
def OverwritesFolder (files : LocalFiles) (action : Action) (sandbox : SandboxFsTree) : Prop :=
  (∃ fileHash fileSize, Uploads files action sandbox fileHash fileSize) ∧
    sandbox.contents.NamesFolder (FsPath.parse action.param2).keys ∧
      sandbox.contents.NamesFolder ((FsPath.parse action.param2).elements ++ [action.filename])

theorem namesFolder_uploadPath : sandbox.contents.NamesFolder (uploadPath action sandbox) ↔
    sandbox.contents.NamesFolder (FsPath.parse action.param2).keys ∧
      sandbox.contents.NamesFolder
        ((FsPath.parse action.param2).elements ++ [action.filename]) := by
  by_cases isFolder : sandbox.contents.NamesFolder (FsPath.parse action.param2).keys
  · rw [uploadPath, uploadDestination_of_folder isFolder]
    exact (and_iff_right isFolder).symm
  · rw [uploadPath, uploadDestination_of_not isFolder]
    exact iff_of_false isFolder fun both => isFolder both.1

theorem KeepsEntries.rfl (destination : List String) : KeepsEntries sandbox sandbox destination :=
  fun _ _ isThere => .inl isThere

theorem keepsEntries_of_uploads {fileHash : InfoHash} {fileSize : Nat}
    (uploads : Uploads files action sandbox fileHash fileSize) :
    KeepsEntries sandbox (sandbox.upload files action) (uploadPath action sandbox) ↔
      ¬ sandbox.contents.NamesFolder (uploadPath action sandbox) := by
  constructor
  · rintro keeps ⟨info, isThere, kind⟩
    rcases keeps _ info isThere with kept | ⟨_, isFile⟩
    · have isLeaf := @AddressMap.put_below _ _ (sandbox.contents.addFolders
        (sandbox.uploadDestination action).1.elements) (.leaf (.file
          ⟨(sandbox.uploadDestination action).2, fileHash, fileSize⟩ false { node := 0 }))
        (uploadPath action sandbox) [] _
      rw [List.append_nil, ← contents_upload uploads, kept] at isLeaf
      cases isLeaf
      cases kind
    · rw [kind] at isFile
      cases isFile
  · intro notFolder names info isThere
    by_cases below : uploadPath action sandbox <+: names
    · obtain ⟨rest, rfl⟩ := below
      cases rest with
      | nil =>
          right
          rw [List.append_nil] at isThere
          refine ⟨List.append_nil _, Bool.eq_false_iff.mpr ?_⟩
          intro kind
          exact notFolder ⟨info, isThere, kind⟩
      | cons name rest =>
          exact absurd (FsEntry.isFolder_of_contents sandbox.fsTree.2.wellFormed isThere) notFolder
    · left
      rw [contents_upload uploads, AddressMap.put_elsewhere below]
      exact AddressMap.fill_of_some isThere

/-- An upload keeps all other entries unless it overwrites a folder. -/
theorem keepsEntries_iff (files : LocalFiles) (action : Action) (sandbox : SandboxFsTree) :
    KeepsEntries sandbox (sandbox.upload files action) (uploadPath action sandbox) ↔
      ¬ OverwritesFolder files action sandbox := by
  by_cases uploads : ∃ fileHash fileSize, Uploads files action sandbox fileHash fileSize
  · rw [OverwritesFolder, and_iff_right uploads, ← namesFolder_uploadPath]
    obtain ⟨fileHash, fileSize, uploads⟩ := uploads
    exact keepsEntries_of_uploads uploads
  · have same : sandbox.upload files action = sandbox := by
      apply upload_eq_self
      intro fileHash fileSize here
      exact uploads ⟨fileHash, fileSize, here⟩
    rw [same]
    exact iff_of_true (KeepsEntries.rfl _) fun overwrites => uploads overwrites.1

/-! ## A file with the name of a folder -/

def clientFileName : String := "1111111111111111111111111111111111111111111111111111111111111111"

/-- The file is to go into the folder "a", as "b". -/
def fileUpload : Action :=
  { actionId := .upload, param1 := clientFileName, param2 := "a", filename := "b" }

/-- The folder "a/b" is lost. -/
theorem fileUpload_overwrites : ¬ ∀ (files : LocalFiles) (action : Action)
    (sandbox : SandboxFsTree),
    KeepsEntries sandbox (sandbox.upload files action) (uploadPath action sandbox) := by
  intro all
  let files : LocalFiles := { sampleFiles with clientFile := fun _ => some (.regularFile 1) }
  have keeps := all files fileUpload nestedSandbox ["a", "b"]
    (.folder "b" { node := 0 }) (by decide +kernel)
  rcases keeps with kept | ⟨_, isFile⟩
  · exact absurd kept (by decide +kernel)
  · cases isFile

end SiriusDrive.SandboxFsTree
