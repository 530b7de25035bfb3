import Mathlib.Data.Finset.Dedup
import Mathlib.Data.List.Sort
import SiriusDrive.Lib.StoredTotal
import SiriusDrive.UpdateDriveTaskBase

/-! # The sizes of the sandbox

A task measures what its sandbox would occupy on the disk: the serialized fs tree with
its torrent and, once for each hash, the files of the tree with theirs.
-/

namespace SiriusDrive

/-- `std::set::insert`. -/
def insertFile (hash : InfoHash) (files : List InfoHash) : List InfoHash :=
  if files.contains hash then files else files.orderedInsert (· ≤ ·) hash

theorem mem_insertFile {other hash : InfoHash} {files : List InfoHash} :
    other ∈ insertFile hash files ↔ other = hash ∨ other ∈ files := by
  unfold insertFile
  split
  · rename_i member
    constructor
    · exact .inr
    · rintro (rfl | there)
      · exact List.contains_iff_mem.mp member
      · exact there
  · exact List.mem_orderedInsert _

theorem nodup_insertFile {hash : InfoHash} {files : List InfoHash} (nodup : files.Nodup) :
    (insertFile hash files).Nodup := by
  unfold insertFile
  split
  · exact nodup
  · rename_i isNew
    exact (List.perm_orderedInsert _ hash files).nodup_iff.mpr (List.nodup_cons.mpr
      ⟨fun member => isNew (List.contains_iff_mem.mpr member), nodup⟩)

mutual

/-- `getUniqueFiles`: the hashes of the files are added to the set, in ascending order. -/
def Folder.getUniqueFiles : Folder → List InfoHash → List InfoHash
  | .mk _ childs, files => childs.getUniqueFiles files

def Child.getUniqueFiles : Child → List InfoHash → List InfoHash
  | .folder folder, files => folder.getUniqueFiles files
  | .file file, files => insertFile file.hash files

def Childs.getUniqueFiles : Childs → List InfoHash → List InfoHash
  | .nil, files => files
  | .cons _ child rest, files => rest.getUniqueFiles (child.getUniqueFiles files)

end

mutual

theorem Folder.getUniqueFiles_spec (folder : Folder) {files : List InfoHash} (nodup : files.Nodup) :
    (folder.getUniqueFiles files).Nodup ∧
      ∀ hash, hash ∈ folder.getUniqueFiles files ↔ hash ∈ files ∨ hash ∈ folder.fileHashes := by
  cases folder with
  | mk name childs => exact childs.getUniqueFiles_spec nodup

theorem Child.getUniqueFiles_spec (child : Child) {files : List InfoHash} (nodup : files.Nodup) :
    (child.getUniqueFiles files).Nodup ∧
      ∀ hash, hash ∈ child.getUniqueFiles files ↔ hash ∈ files ∨ hash ∈ child.fileHashes := by
  cases child with
  | folder folder => exact folder.getUniqueFiles_spec nodup
  | file file =>
      refine ⟨nodup_insertFile nodup, ?_⟩
      intro hash
      rw [Child.getUniqueFiles, mem_insertFile, Child.fileHashes, List.mem_singleton, or_comm]

theorem Childs.getUniqueFiles_spec (childs : Childs) {files : List InfoHash} (nodup : files.Nodup) :
    (childs.getUniqueFiles files).Nodup ∧
      ∀ hash, hash ∈ childs.getUniqueFiles files ↔ hash ∈ files ∨ hash ∈ childs.fileHashes := by
  cases childs with
  | nil => exact ⟨nodup, fun hash => by simp [Childs.getUniqueFiles, Childs.fileHashes]⟩
  | cons key child rest =>
      obtain ⟨firstNodup, inFirst⟩ := child.getUniqueFiles_spec nodup
      obtain ⟨restNodup, inRest⟩ := rest.getUniqueFiles_spec firstNodup
      refine ⟨restNodup, ?_⟩
      intro hash
      rw [Childs.getUniqueFiles, inRest, inFirst, Childs.fileHashes, List.mem_append, or_assoc]

end

theorem FsTree.toFinset_getUniqueFiles (fsTree : FsTree) :
    (fsTree.getUniqueFiles []).toFinset = fsTree.fileHashes.toFinset := by
  ext hash
  rw [List.mem_toFinset, List.mem_toFinset, (fsTree.getUniqueFiles_spec List.nodup_nil).2]
  simp

/-- What the disk holds for a task: sizes in bytes, by the tree that is serialized and by
    the hash a file is named after. -/
structure SandboxFiles where
  /-- `fs::exists( m_drive.m_driveRootPath )`. -/
  driveRootExists : Bool := true
  /-- `createTorrentFile` of the serialized tree. -/
  fsTreeHash : FsTree → InfoHash
  fsTreeFile : FsTree → Nat
  fsTreeTorrent : FsTree → Nat
  /-- The files of `m_torrentFolder`. -/
  torrentFile : InfoHash → Option Nat
  /-- The files of `m_driveFolder`. -/
  driveFile : InfoHash → Option Nat

namespace SandboxFiles

variable (files : SandboxFiles)

/-- The loop of `getSandboxDriveSizes`; `file_size` throws if a file is missing. -/
def addFileSizes : List InfoHash → Nat → Nat → Option (Nat × Nat)
  | [], metaFilesSize, driveSize => some (metaFilesSize, driveSize)
  | file :: rest, metaFilesSize, driveSize => do
      let torrentSize ← files.torrentFile file
      let fileSize ← files.driveFile file
      addFileSizes rest (u64 (metaFilesSize + torrentSize)) (u64 (driveSize + fileSize))

/-- `getSandboxDriveSizes`: the size of the meta files and of the drive. -/
def getSandboxDriveSizes (sandboxFsTree : FsTree) : Option (Nat × Nat) :=
  if !files.driveRootExists then some (0, 0)
  else do
    let (metaFilesSize, driveSize) ← files.addFileSizes (sandboxFsTree.getUniqueFiles [])
      (u64 (files.fsTreeTorrent sandboxFsTree)) (u64 (files.fsTreeFile sandboxFsTree))
    some (metaFilesSize, u64 (driveSize + metaFilesSize))

/-- `sandboxFsTreeSize`; the tree has just been serialized. -/
def sandboxFsTreeSize (sandboxFsTree : FsTree) : Nat := u64 (files.fsTreeFile sandboxFsTree)

/-- The root hash and the sizes are those computed for the tree. -/
def Measures (fsTree : FsTree) (rootHash : InfoHash)
    (metaFilesSize sandboxDriveSize fsTreeSize : Nat) : Prop :=
  files.fsTreeHash fsTree = rootHash ∧
    files.getSandboxDriveSizes fsTree = some (metaFilesSize, sandboxDriveSize) ∧
    files.sandboxFsTreeSize fsTree = fsTreeSize

instance (fsTree : FsTree) (rootHash : InfoHash)
    (metaFilesSize sandboxDriveSize fsTreeSize : Nat) :
    Decidable (files.Measures fsTree rootHash metaFilesSize sandboxDriveSize fsTreeSize) :=
  inferInstanceAs (Decidable (_ ∧ _ ∧ _))

/-! ## What is counted -/

def metaSpace (fsTree : FsTree) : Nat :=
  if files.driveRootExists then
    files.fsTreeTorrent fsTree + storedTotal files.torrentFile fsTree.fileHashes.toFinset
  else 0

/-- The space a drive with this tree occupies, its meta files included. -/
def usedSpace (fsTree : FsTree) : Nat :=
  if files.driveRootExists then
    files.fsTreeFile fsTree + storedTotal files.driveFile fsTree.fileHashes.toFinset +
      files.metaSpace fsTree
  else 0

variable {files}

theorem addFileSizes_eq {hashes : List InfoHash} (nodup : hashes.Nodup)
    {metaStart driveStart metaFilesSize driveSize : Nat}
    (added : files.addFileSizes hashes (u64 metaStart) (u64 driveStart) =
      some (metaFilesSize, driveSize)) :
    metaFilesSize = u64 (metaStart + storedTotal files.torrentFile hashes.toFinset) ∧
      driveSize = u64 (driveStart + storedTotal files.driveFile hashes.toFinset) := by
  induction hashes generalizing metaStart driveStart with
  | nil =>
      cases added
      simp
  | cons hash rest ih =>
      have isNew : hash ∉ rest.toFinset := by
        rw [List.mem_toFinset]
        exact (List.nodup_cons.mp nodup).1
      have wraps (start size : Nat) : u64 (u64 start + size) = u64 (start + size) := by
        simp [u64]
      simp only [addFileSizes, Option.bind_eq_bind, Option.bind_eq_some_iff] at added
      obtain ⟨torrentSize, isTorrent, fileSize, isFile, later⟩ := added
      rw [wraps, wraps] at later
      obtain ⟨metas, drives⟩ := ih (List.nodup_cons.mp nodup).2 later
      rw [List.toFinset_cons, StoredTotal.insert_new isNew, StoredTotal.insert_new isNew, isTorrent,
        isFile, Option.getD_some, Option.getD_some, ← Nat.add_assoc, ← Nat.add_assoc]
      exact ⟨metas, drives⟩

theorem getSandboxDriveSizes_eq {fsTree : FsTree} {metaFilesSize driveSize : Nat}
    (measured : files.getSandboxDriveSizes fsTree = some (metaFilesSize, driveSize)) :
    metaFilesSize = u64 (files.metaSpace fsTree) ∧ driveSize = u64 (files.usedSpace fsTree) := by
  unfold getSandboxDriveSizes at measured
  unfold usedSpace metaSpace
  cases rootExists : files.driveRootExists with
  | false =>
      rw [rootExists] at measured
      cases measured
      exact ⟨rfl, rfl⟩
  | true =>
      rw [rootExists] at measured
      simp only [Bool.not_true, Bool.false_eq_true, if_false, Option.bind_eq_bind,
        Option.bind_eq_some_iff, Prod.exists] at measured
      obtain ⟨metas, drives, added, sizes⟩ := measured
      obtain ⟨isMeta, isDrive⟩ :=
        addFileSizes_eq (fsTree.getUniqueFiles_spec List.nodup_nil).1 added
      rw [fsTree.toFinset_getUniqueFiles] at isMeta isDrive
      cases sizes
      simp only [if_true]
      refine ⟨isMeta, ?_⟩
      rw [isMeta, isDrive]
      simp [u64]

end SandboxFiles

end SiriusDrive
