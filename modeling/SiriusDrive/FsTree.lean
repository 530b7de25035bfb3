import SiriusDrive.Types

/-! # The file system tree of a drive

A folder maps names to files and sub-folders. The entries of a folder are kept
in the order of their names, as a `std::map` iterates over them.
-/

namespace SiriusDrive

/-- `File`. -/
structure File where
  name : String
  hash : InfoHash
  size : Nat
  deriving Repr, DecidableEq

mutual

/-- `Folder`: its name and its children. -/
inductive Folder where
  | mk (name : String) (childs : Childs)

/-- `Folder::Child`. -/
inductive Child where
  | folder (folder : Folder)
  | file (file : File)

/-- The children of a folder with their keys. -/
inductive Childs where
  | nil
  | cons (key : String) (child : Child) (rest : Childs)

end

deriving instance Repr for Folder, Child, Childs

abbrev FsTree := Folder

instance : Inhabited FsTree := ⟨.mk "/" .nil⟩

mutual

/-- The hashes of all files below a folder, in the order of the walk. -/
def Folder.fileHashes : Folder → List InfoHash
  | .mk _ childs => childs.fileHashes

def Child.fileHashes : Child → List InfoHash
  | .folder folder => folder.fileHashes
  | .file file => [file.hash]

def Childs.fileHashes : Childs → List InfoHash
  | .nil => []
  | .cons _ child rest => child.fileHashes ++ rest.fileHashes

end

end SiriusDrive
