import Mathlib.Data.List.DropRight
import SiriusDrive.ActionList
import SiriusDrive.FsTree.Entries
import SiriusDrive.Lib.BinaryArchive

/-! # The file of an action list

What the factory functions of `Action` and `addActionListToSession` make of their arguments, what
`serialize` writes for it, and what `deserialize` reads. The last two fields of an action are
written only for uploads and moves.
-/

namespace SiriusDrive

def ActionListId.code : ActionListId → UInt32
  | .upload => 1
  | .newFolder => 2
  | .move => 3
  | .remove => 4

namespace Action

/-! ## Factory functions -/

/-- `while( !str.empty() && str.back() == '/' ) str.pop_back();` -/
def withoutSlashesBehind (str : String) : String :=
  String.ofList (str.toList.rdropWhile (· = '/'))

/-- `while( !str.empty() && str[0] == '/' ) str = str.substr( 1 );` -/
def withoutSlashesInFront (str : String) : String :=
  String.ofList (str.toList.dropWhile (· = '/'))

/-- The private constructor. An upload keeps the slashes in front of a local path. -/
def make (actionId : ActionListId) (p1 p2 : String) : Action where
  actionId
  param1 :=
    if actionId = .upload then withoutSlashesBehind p1
    else withoutSlashesInFront (withoutSlashesBehind p1)
  param2 := withoutSlashesInFront (withoutSlashesBehind p2)

def upload (pathToLocalFile remoteFileNameWithPath : String) : Action :=
  make .upload pathToLocalFile remoteFileNameWithPath

def newFolder (remoteFolderNameWithPath : String) : Action :=
  make .newFolder remoteFolderNameWithPath ""

def move (oldNameWithPath newNameWithPath : String) : Action :=
  make .move oldNameWithPath newNameWithPath

def remove (remoteObjectNameWithPath : String) : Action :=
  make .remove remoteObjectNameWithPath ""

/-- What `addActionListToSession` makes of an action when the torrent of an uploaded file has the
    given hash. -/
def addedToSession (infoHash : InfoHash) (action : Action) : Action :=
  match action.actionId with
  | .upload =>
      { action with
        filename := (FsPath.parse action.param1).filename
        param1 := hashToFileName infoHash }
  | .newFolder | .move | .remove => action

/-- The action comes from a factory function, and may have been added to a session. The size of any
    `std::string` is a `uint64_t`. -/
inductive Built : Action → Prop where
  | upload {pathToLocalFile remoteFileNameWithPath : String} (source : FitsString pathToLocalFile)
      (destination : FitsString remoteFileNameWithPath) :
      Built (upload pathToLocalFile remoteFileNameWithPath)
  | newFolder {remoteFolderNameWithPath : String} (folder : FitsString remoteFolderNameWithPath) :
      Built (newFolder remoteFolderNameWithPath)
  | move {oldNameWithPath newNameWithPath : String} (source : FitsString oldNameWithPath)
      (destination : FitsString newNameWithPath) : Built (move oldNameWithPath newNameWithPath)
  | remove {remoteObjectNameWithPath : String} (object : FitsString remoteObjectNameWithPath) :
      Built (remove remoteObjectNameWithPath)
  | added {action : Action} (infoHash : InfoHash) (built : Built action) :
      Built (addedToSession infoHash action)

/-! ## Writing and reading -/

/-- The last two fields are part of the file. -/
def hasDestination (actionId : UInt32) : Prop :=
  actionId = ActionListId.upload.code ∨ actionId = ActionListId.move.code

instance decidableHasDestination (actionId : UInt32) : Decidable (hasDestination actionId) :=
  inferInstanceAs (Decidable (_ ∨ _))

variable {ι : Type}

/-- `Action::serialize`, for an archive that writes. -/
def serialize (archive : OutputArchive ι) (action : Action) : List ι :=
  archive.uint32 action.actionId.code ++ (archive.string action.param1 ++
    (if hasDestination action.actionId.code then
      archive.string action.param2 ++ archive.string action.filename
    else []))

end Action

/-- An `Action` that has been loaded: its id is any number. -/
structure LoadedAction where
  actionId : UInt32
  param1 : String
  param2 : String := ""
  filename : String := ""
deriving DecidableEq

namespace LoadedAction

variable {ι : Type}

/-- `Action::serialize`, for an archive that reads into a new action. -/
def load (archive : InputArchive ι) (input : List ι) : Option (LoadedAction × List ι) :=
  archive.uint32.run input fun actionId input =>
  archive.string.run input fun param1 input =>
  if Action.hasDestination actionId then
    archive.string.run input fun param2 input =>
    archive.string.run input fun filename input =>
    some ({ actionId, param1, param2, filename }, input)
  else some ({ actionId, param1 }, input)

/-- The elements of a vector, one after the other. -/
def loadAll (archive : InputArchive ι) : Nat → List ι → Option (List LoadedAction × List ι)
  | 0, input => some ([], input)
  | count + 1, input =>
      (load archive input).bind fun loaded =>
      (loadAll archive count loaded.2).map fun rest => (loaded.1 :: rest.1, rest.2)

end LoadedAction

namespace ActionList

variable {ι : Type}

/-- `ActionList::serialize`, with what is written to the file. -/
def serialize (archive : PortableArchive ι) (actions : ActionList) : List ι :=
  archive.flag ++ (archive.output.uint64 (UInt64.ofNat actions.length) ++
    actions.flatMap (Action.serialize archive.output))

/-- `ActionList::deserialize`, which clears the list first. An exception of the archive leaves
    `none`. -/
def deserialize (archive : PortableArchive ι) (file : List ι) : Option (List LoadedAction) :=
  archive.openInput.run file fun input file =>
  input.uint64.run file fun size file =>
  (LoadedAction.loadAll input size.toNat file).map (·.1)

end ActionList

namespace Action

/-! ## What is written is read again -/

def loaded (action : Action) : LoadedAction where
  actionId := action.actionId.code
  param1 := action.param1
  param2 := action.param2
  filename := action.filename

/-- The strings can be written, and those that are not written are empty. -/
structure IsStored (action : Action) : Prop where
  param1 : FitsString action.param1
  param2 : FitsString action.param2
  filename : FitsString action.filename
  plain : ¬ hasDestination action.actionId.code → action.param2 = "" ∧ action.filename = ""

theorem fitsString_withoutSlashesBehind {str : String} (fits : FitsString str) :
    FitsString (withoutSlashesBehind str) := by
  refine fits.of_sublist ?_
  rw [withoutSlashesBehind, String.toList_ofList]
  exact (List.rdropWhile_prefix _ _).sublist

theorem fitsString_withoutSlashesInFront {str : String} (fits : FitsString str) :
    FitsString (withoutSlashesInFront str) := by
  refine fits.of_sublist ?_
  rw [withoutSlashesInFront, String.toList_ofList]
  exact (List.dropWhile_suffix _).sublist

theorem fitsString_empty : FitsString "" := by decide +kernel

/-- An element of a path is a part of it, if it does not stand for a separator. -/
theorem fitsString_of_mem_spelled {str element : String} (fits : FitsString str)
    (member : element ∈ FsPath.spelled str) : FitsString element := by
  rw [FsPath.spelled, List.mem_append, List.mem_append] at member
  rcases member with (isRoot | isName) | isEnd
  · split at isRoot
    · rw [List.mem_singleton.mp isRoot]
      decide +kernel
    · cases isRoot
  · obtain ⟨part, isPart, rfl⟩ := List.mem_map.mp (List.mem_filter.mp isName).1
    refine fits.of_sublist ?_
    rw [String.toList_ofList]
    exact (FsPath.part_of_mem_splitOn isPart).2
  · split at isEnd
    · rw [List.mem_singleton.mp isEnd]
      exact fitsString_empty
    · cases isEnd

theorem fitsString_filename {str : String} (fits : FitsString str) :
    FitsString (FsPath.parse str).filename := by
  rw [FsPath.filename]
  split
  · exact fitsString_empty
  · cases isLast : (FsPath.parse str).elements.getLast? with
    | none => exact fitsString_empty
    | some element => exact fitsString_of_mem_spelled fits (List.mem_of_getLast? isLast)

theorem fitsString_hashToFileName (hash : Hash256) : FitsString (hashToFileName hash) := by
  have short := utf8ByteSize_le_mul_length (hexChars hash.toNat 64)
  rw [length_hexChars] at short
  rw [hashToFileName, FitsString]
  omega

theorem withoutSlashes_empty : withoutSlashesInFront (withoutSlashesBehind "") = "" := by
  decide +kernel

theorem isStored_make (actionId : ActionListId) {p1 p2 : String} (first : FitsString p1)
    (second : FitsString p2) (unused : ¬ hasDestination actionId.code → p2 = "") :
    IsStored (make actionId p1 p2) where
  param1 := by
    rw [make]
    split
    · exact fitsString_withoutSlashesBehind first
    · exact fitsString_withoutSlashesInFront (fitsString_withoutSlashesBehind first)
  param2 := fitsString_withoutSlashesInFront (fitsString_withoutSlashesBehind second)
  filename := fitsString_empty
  plain := by
    intro notWritten
    rw [make, unused notWritten]
    exact ⟨withoutSlashes_empty, rfl⟩

theorem IsStored.addedToSession {action : Action} (stored : action.IsStored)
    (infoHash : InfoHash) : (action.addedToSession infoHash).IsStored := by
  rw [Action.addedToSession]
  split
  · next isUpload =>
      refine ⟨fitsString_hashToFileName infoHash, stored.param2, fitsString_filename stored.param1, ?_⟩
      intro notWritten
      exact absurd (Or.inl (congrArg ActionListId.code isUpload)) notWritten
  all_goals exact stored

/-- Whatever the factory functions and a session make of an action, it can be written without a
    loss. The induction is on how often it has been added to a session. -/
theorem Built.isStored {action : Action} (built : Built action) : action.IsStored := by
  induction built with
  | upload source destination =>
      exact isStored_make .upload source destination fun notWritten =>
        absurd (Or.inl rfl) notWritten
  | newFolder folder => exact isStored_make .newFolder folder fitsString_empty fun _ => rfl
  | move source destination =>
      exact isStored_make .move source destination fun notWritten =>
        absurd (Or.inr rfl) notWritten
  | remove object => exact isStored_make .remove object fitsString_empty fun _ => rfl
  | added infoHash _ ih => exact ih.addedToSession infoHash

variable {ι : Type} {input : InputArchive ι} {output : OutputArchive ι}

theorem IsStored.load_serialize {action : Action} (stored : action.IsStored)
    (reads : input.Reads output) (rest : List ι) :
    LoadedAction.load input (action.serialize output ++ rest) = some (action.loaded, rest) := by
  rw [LoadedAction.load, serialize, List.append_assoc, List.append_assoc,
    reads.uint32.run trivial, reads.string.run stored.param1]
  by_cases written : hasDestination action.actionId.code
  · rw [if_pos written, if_pos written, List.append_assoc, reads.string.run stored.param2,
      reads.string.run stored.filename, loaded]
  · obtain ⟨noParam, noName⟩ := stored.plain written
    rw [if_neg written, if_neg written, List.nil_append, loaded, noParam, noName]

theorem loadAll_serialize {actions : ActionList} (stored : ∀ action ∈ actions, action.IsStored)
    (reads : input.Reads output) (rest : List ι) :
    LoadedAction.loadAll input actions.length (actions.flatMap (serialize output) ++ rest) =
      some (actions.map loaded, rest) := by
  induction actions with
  | nil => rfl
  | cons action actions ih =>
      rw [List.forall_mem_cons] at stored
      rw [List.length_cons, LoadedAction.loadAll, List.flatMap_cons, List.append_assoc,
        stored.1.load_serialize reads, Option.bind_some, ih stored.2, Option.map_some,
        List.map_cons]

end Action

namespace ActionList

variable {ι : Type}

/-- A list of built actions is read back from its file with all their fields. The size of a vector
    is a `uint64_t`. -/
theorem deserialize_serialize {archive : PortableArchive ι} (roundTrips : archive.RoundTrips)
    {actions : ActionList} (built : ∀ action ∈ actions, action.Built)
    (counted : actions.length < 2 ^ 64) :
    deserialize archive (serialize archive actions) = some (actions.map Action.loaded) := by
  obtain ⟨input, reads, isOpen⟩ := roundTrips
  have again := Action.loadAll_serialize (fun action isAction => (built action isAction).isStored)
    reads []
  rw [List.append_nil] at again
  rw [deserialize, serialize, Loader.run, isOpen, Option.bind_some, reads.uint64.run trivial,
    UInt64.toNat_ofNat_of_lt' counted, again, Option.map_some]

/-- An uploaded file and a folder. -/
def sampleList : ActionList :=
  [(Action.upload "/home/a.txt" "/docs//").addedToSession 7, Action.newFolder "/docs/"]

theorem deserialize_serialize_sampleList :
    deserialize FixedBytes.littleEndianArchive
        (serialize FixedBytes.littleEndianArchive sampleList) =
      some [⟨1, hashToFileName 7, "docs", "a.txt"⟩, ⟨2, "docs", "", ""⟩] := by
  have isList : some (sampleList.map Action.loaded) =
      some [⟨1, hashToFileName 7, "docs", "a.txt"⟩, ⟨2, "docs", "", ""⟩] := by decide +kernel
  rw [← isList]
  apply deserialize_serialize FixedBytes.littleEndianArchive_roundTrips
  · intro action isAction
    rw [sampleList, List.mem_cons, List.mem_singleton] at isAction
    obtain rfl | rfl := isAction
    · exact .added 7 (.upload (by decide +kernel) (by decide +kernel))
    · exact .newFolder (by decide +kernel)
  · simp [sampleList]

end ActionList

end SiriusDrive
