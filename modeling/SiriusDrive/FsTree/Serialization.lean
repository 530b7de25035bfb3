import Mathlib.Data.List.TakeWhile
import SiriusDrive.Lib.BinaryArchive
import SiriusDrive.Lib.KeyedTree
import SiriusDrive.Types

/-! # The file of an fs tree

What `doSerialize` writes for a tree with all the fields it has, and what `deserialize` reads.
Neither the statistics nor `m_isModifiable` are written, and the id of a stream only for a stream.
-/

namespace SiriusDrive

open KeyedTree

/-- A file or a folder without its children, as `serialize` sees it. -/
inductive StoredInfo where
  | folder (name : String) (isaStream : Bool) (streamId : Hash256) (modificationIndex : Int64)
  | file (name : String) (hash : InfoHash) (size : UInt64) (modificationIndex : Int64)
      (isModifiable : Bool)

/-- An entry with the children of a folder in the order of `m_childs`. -/
abbrev StoredEntry := KeyedTree String StoredInfo

namespace StoredInfo

def isFolder : StoredInfo → Bool
  | .folder .. => true
  | .file .. => false

def name : StoredInfo → String
  | .folder name .. => name
  | .file name .. => name

def streamId : StoredInfo → Hash256
  | .folder _ _ streamId _ => streamId
  | .file .. => 0

/-- Which of the types of a `Folder::Child` it is. -/
def variantIndex (info : StoredInfo) : Int32 := if info.isFolder then 0 else 1

/-- A folder that is not a stream has no id, and a file is not modifiable. -/
def IsPlain : StoredInfo → Prop
  | .folder _ isaStream streamId _ => isaStream = false → streamId = 0
  | .file _ _ _ _ isModifiable => isModifiable = false

end StoredInfo

namespace StoredEntry

variable {ι : Type}

/-! ## Writing -/

/-- The end of `Folder::serialize`. -/
def serializeEnd (archive : OutputArchive ι) (isaStream : Bool) (streamId : Hash256)
    (modificationIndex : Int64) : List ι :=
  archive.bool isaStream ++
    ((if isaStream then archive.array streamId else []) ++ archive.int64 modificationIndex)

mutual

/-- `Folder::serialize` and `File::serialize`. -/
def serialize (archive : OutputArchive ι) : StoredEntry → List ι
  | .node (.folder name isaStream streamId modificationIndex) childs =>
      archive.string name ++ (archive.uint64 (UInt64.ofNat childs.length) ++
        (serializeChilds archive childs ++
          serializeEnd archive isaStream streamId modificationIndex))
  | .node (.file name hash size modificationIndex _) _ =>
      archive.string name ++ (archive.array hash ++
        (archive.uint64 size ++ archive.int64 modificationIndex))

/-- The keys and children of `m_childs`. -/
def serializeChilds (archive : OutputArchive ι) : List (String × StoredEntry) → List ι
  | [] => []
  | (key, child) :: childs =>
      archive.string key ++ (archive.int32 child.value.variantIndex ++
        (serialize archive child ++ serializeChilds archive childs))

end

/-! ## Reading -/

/-- `emplace_hint`: an entry that is there stays. -/
def emplace (key : String) (child : StoredEntry) (childs : List (String × StoredEntry)) :
    List (String × StoredEntry) :=
  if (childAt key childs).isSome then childs else insertChild key child childs

/-- A `File` that is loaded. -/
def loadFile (archive : InputArchive ι) (input : List ι) : Option (StoredEntry × List ι) :=
  archive.string.run input fun name input =>
  archive.array.run input fun hash input =>
  archive.uint64.run input fun size input =>
  archive.int64.run input fun modificationIndex input =>
  some (.node (.file name hash size modificationIndex false) [], input)

/-- A child that is loaded. An unknown index is an error. -/
def loadChild (archive : InputArchive ι)
    (loadFolder : List ι → Option (StoredEntry × List ι)) (index : Int32) (input : List ι) :
    Option (StoredEntry × List ι) :=
  if index = 0 then loadFolder input
  else if index = 1 then loadFile archive input
  else none

/-- A number of children that are loaded one after the other. -/
def loadChilds (archive : InputArchive ι)
    (loadFolder : List ι → Option (StoredEntry × List ι)) :
    Nat → List (String × StoredEntry) → List ι → Option (List (String × StoredEntry) × List ι)
  | 0, childs, input => some (childs, input)
  | count + 1, childs, input =>
      archive.string.run input fun key input =>
      archive.int32.run input fun index input =>
      (loadChild archive loadFolder index input).bind fun loaded =>
      loadChilds archive loadFolder count (emplace key loaded.1 childs) loaded.2

/-- The end of a `Folder` that is loaded. `streamId` is what the folder had before. -/
def loadEnd (archive : InputArchive ι) (name : String) (streamId : Hash256)
    (childs : List (String × StoredEntry)) (input : List ι) : Option (StoredEntry × List ι) :=
  archive.bool.run input fun isaStream input =>
  (if isaStream then archive.array.load input else some (streamId, input)).bind fun stream =>
  archive.int64.run stream.2 fun modificationIndex input =>
  some (.node (.folder name isaStream stream.1 modificationIndex) childs, input)

/-- A `Folder` that is loaded. The folders inside it are new ones. -/
def loadFolder (archive : InputArchive ι) : Nat → Hash256 → List ι → Option (StoredEntry × List ι)
  | 0, _, _ => none
  | levels + 1, streamId, input =>
      archive.string.run input fun name input =>
      archive.uint64.run input fun size input =>
      (loadChilds archive (loadFolder archive levels 0) size.toNat [] input).bind fun loaded =>
      loadEnd archive name streamId loaded.1 loaded.2

/-! ## Trees -/

/-- A map has its keys in their order, and sizes can be written. Only folders have children. -/
structure IsStored (entry : StoredEntry) : Prop where
  sorted : (entry.childs.map Prod.fst).Pairwise (· < ·)
  counted : entry.childs.length < 2 ^ 64
  isFolder : entry.value.isFolder = false → entry.childs = []
  keys : ∀ key ∈ entry.childs.map Prod.fst, FitsString key
  name : FitsString entry.value.name

/-- The default `Folder`. -/
def fresh : StoredEntry := .node (.folder "" false 0 (-1)) []

end StoredEntry

/-- An `FsTree` with all its fields. -/
structure StoredFsTree where
  root : StoredEntry
  isFolder : root.value.isFolder = true
  isStored : All StoredEntry.IsStored root

/-- `FS_TREE_VERSION`. -/
def fsTreeVersion : UInt32 := 0x01

/-- What `deserialize` throws. -/
inductive FsTreeError where
  /-- An exception of the archive, while the order of the bytes is read. -/
  | archive
  | runtimeError (what : String)

namespace StoredFsTree

variable {ι : Type}

/-- `doSerialize`, with what is written to the file. -/
def doSerialize (archive : PortableArchive ι) (fsTree : StoredFsTree) : List ι :=
  archive.flag ++ (archive.output.uint32 fsTreeVersion ++
    StoredEntry.serialize archive.output fsTree.root)

/-- `deserialize`. Of the tree it is called for, only the id of a stream can be left. There are
    no more levels of folders than the file is long: more of them load the same
    (`loadFolder_levels`). -/
def deserialize (archive : PortableArchive ι) (fileName : String) (fsTree : StoredEntry)
    (file : List ι) : Except FsTreeError StoredEntry :=
  match archive.openInput.load file with
  | none => .error .archive
  | some opened =>
      match opened.1.uint32.load opened.2 with
      | none => .error (.runtimeError ("Invalid FsTree file format: " ++ fileName))
      | some version =>
          if version.1 ≠ fsTreeVersion then
            .error (.runtimeError ("Invalid FS_TREE_VERSION: " ++ fileName))
          else
            match StoredEntry.loadFolder opened.1 version.2.length fsTree.value.streamId
                version.2 with
            | none => .error (.runtimeError ("Invalid FsTree file format: " ++ fileName))
            | some loaded => .ok loaded.1

end StoredFsTree

namespace StoredEntry

variable {ι : Type} {input : InputArchive ι} {output : OutputArchive ι}

/-! ## What is written is read again -/

theorem emplace_last {key : String} {childs : List (String × StoredEntry)}
    (last : ∀ other ∈ childs.map Prod.fst, other < key) (child : StoredEntry) :
    emplace key child childs = childs ++ [(key, child)] := by
  have all : ∀ other ∈ childs, decide (other.1 < key) = true := by
    intro other member
    exact decide_eq_true (last other.1 (List.mem_map_of_mem member))
  have absent : childAt key childs = none := by
    rw [childAt_eq_none_iff]
    intro member
    exact String.lt_irrefl key (last key member)
  rw [emplace, absent, if_neg (by simp), insertChild, List.takeWhile_eq_self_iff.mpr all,
    List.dropWhile_eq_nil_iff.mpr all]

theorem loadFile_serialize (reads : input.Reads output) {name : String} {hash : InfoHash}
    {size : UInt64} {modificationIndex : Int64} {childs : List (String × StoredEntry)}
    (isFit : FitsString name) (isModifiable : Bool) (rest : List ι) :
    loadFile input (serialize output
      (.node (.file name hash size modificationIndex isModifiable) childs) ++ rest) =
        some (.node (.file name hash size modificationIndex false) [], rest) := by
  rw [loadFile, serialize, List.append_assoc, reads.string.run isFit, List.append_assoc,
    reads.array.run trivial, List.append_assoc, reads.uint64.run trivial, reads.int64.run trivial]

theorem loadEnd_serializeEnd (reads : input.Reads output) (name : String)
    (childs : List (String × StoredEntry)) {isaStream : Bool} {streamId : Hash256}
    {modificationIndex : Int64} (plain : isaStream = false → streamId = 0) (rest : List ι) :
    loadEnd input name 0 childs
      (serializeEnd output isaStream streamId modificationIndex ++ rest) =
        some (.node (.folder name isaStream streamId modificationIndex) childs, rest) := by
  rw [loadEnd, serializeEnd, List.append_assoc, reads.bool.run trivial]
  cases isaStream with
  | true =>
      rw [if_pos rfl, if_pos rfl, List.append_assoc, reads.array _ _ trivial, Option.bind_some,
        reads.int64.run trivial]
  | false =>
      rw [if_neg (by simp), if_neg (by simp), List.nil_append, Option.bind_some,
        reads.int64.run trivial, plain rfl]

/-- What is needed for the children of a folder to be loaded again. -/
def LoadsAgain (input : InputArchive ι) (output : OutputArchive ι)
    (loadFolder : List ι → Option (StoredEntry × List ι)) (child : StoredEntry) : Prop :=
  ∀ rest, loadChild input loadFolder child.value.variantIndex (serialize output child ++ rest) =
    some (child, rest)

/-- The children are loaded one after the other behind those that are there. -/
theorem loadChilds_serializeChilds (reads : input.Reads output)
    {loadFolder : List ι → Option (StoredEntry × List ι)} {front back : List (String × StoredEntry)}
    (sorted : ((front ++ back).map Prod.fst).Pairwise (· < ·))
    (keys : ∀ key ∈ back.map Prod.fst, FitsString key)
    (again : ∀ key child, (key, child) ∈ back → LoadsAgain input output loadFolder child)
    (rest : List ι) :
    loadChilds input loadFolder back.length front (serializeChilds output back ++ rest) =
      some (front ++ back, rest) := by
  induction back generalizing front with
  | nil => rw [List.append_nil]; rfl
  | cons head back ih =>
      obtain ⟨key, child⟩ := head
      have last : ∀ other ∈ front.map Prod.fst, other < key := by
        rw [List.map_append, List.pairwise_append] at sorted
        intro other member
        exact sorted.2.2 other member key List.mem_cons_self
      have longer : front ++ (key, child) :: back = front ++ [(key, child)] ++ back := by simp
      have next := ih (longer ▸ sorted)
        (fun other member => keys other (List.mem_cons_of_mem _ member))
        fun other sibling member => again other sibling (List.mem_cons_of_mem _ member)
      rw [List.length_cons, loadChilds, serializeChilds, List.append_assoc,
        reads.string.run (keys key List.mem_cons_self), List.append_assoc, reads.int32.run trivial,
        List.append_assoc, again key child List.mem_cons_self, Option.bind_some, emplace_last last,
        next, ← longer]

theorem length_serialize_lt {info : StoredInfo} {childs : List (String × StoredEntry)}
    (reads : input.Reads output) {key : String} {child : StoredEntry} (isFolder : info.isFolder = true)
    (keys : ∀ key ∈ childs.map Prod.fst, FitsString key) (member : (key, child) ∈ childs) :
    (serialize output child).length < (serialize output (.node info childs)).length := by
  have inside : (serialize output child).length < (serializeChilds output childs).length := by
    induction childs with
    | nil => cases member
    | cons head childs ih =>
        obtain ⟨first, sibling⟩ := head
        rw [serializeChilds, List.length_append, List.length_append, List.length_append]
        rcases List.mem_cons.mp member with same | later
        · cases same
          have keyTaken := reads.string.length_pos (keys key List.mem_cons_self)
          omega
        · have below := ih (fun other isKey => keys other (List.mem_cons_of_mem _ isKey)) later
          omega
  cases info with
  | folder name isaStream streamId modificationIndex =>
      rw [serialize, List.length_append, List.length_append, List.length_append]
      omega
  | file => cases isFolder

theorem loadsAgain (reads : input.Reads output) {entry : StoredEntry} (stored : All IsStored entry)
    (plain : All (fun entry => entry.value.IsPlain) entry) {levels : Nat}
    (enough : (serialize output entry).length ≤ levels) :
    LoadsAgain input output (loadFolder input levels 0) entry := by
  induction entry using KeyedTree.induct generalizing levels with
  | node info childs ih =>
      intro rest
      have here := stored.here
      cases info with
      | file name hash size modificationIndex isModifiable =>
          have none : childs = [] := here.isFolder rfl
          have notModifiable : isModifiable = false := plain.here
          subst none notModifiable
          exact loadFile_serialize reads here.name false rest
      | folder name isaStream streamId modificationIndex =>
          have named : FitsString name := here.name
          have count : (UInt64.ofNat childs.length).toNat = childs.length :=
            UInt64.toNat_ofNat_of_lt' here.counted
          cases levels with
          | zero =>
              have taken := reads.string.length_pos named
              rw [serialize, List.length_append] at enough
              omega
          | succ levels =>
              have again : ∀ key child, (key, child) ∈ childs →
                  LoadsAgain input output (loadFolder input levels 0) child := by
                intro key child member
                apply ih key child member (stored.child member) (plain.child member)
                have less := @length_serialize_lt _ _ _
                  (.folder name isaStream streamId modificationIndex) _ reads _ _ rfl here.keys member
                exact Nat.le_of_lt_succ (Nat.lt_of_lt_of_le less enough)
              have sorted : (([] ++ childs).map Prod.fst).Pairwise (· < ·) := here.sorted
              change loadFolder input (levels + 1) 0 _ = _
              rw [loadFolder, serialize, List.append_assoc, reads.string.run named,
                List.append_assoc, reads.uint64.run trivial, count, List.append_assoc,
                loadChilds_serializeChilds reads sorted here.keys again, Option.bind_some,
                List.nil_append, loadEnd_serializeEnd reads name childs plain.here]

/-! ## Levels -/

theorem length_loadFile {file : List ι} {loaded : StoredEntry × List ι}
    (isLoaded : loadFile input file = some loaded) : loaded.2.length < file.length := by
  obtain ⟨_, _, name, later⟩ := Loader.run_eq_some_iff.mp isLoaded
  obtain ⟨_, _, hash, later⟩ := Loader.run_eq_some_iff.mp later
  obtain ⟨_, _, size, later⟩ := Loader.run_eq_some_iff.mp later
  obtain ⟨_, rest, modificationIndex, same⟩ := Loader.run_eq_some_iff.mp later
  cases same
  have first := input.string.shorter name
  have second := input.array.shorter hash
  have third := input.uint64.shorter size
  have fourth := input.int64.shorter modificationIndex
  change rest.length < file.length
  omega

/-- What is loaded for a child takes something from the input. -/
def Shortens (load : List ι → Option (StoredEntry × List ι)) : Prop :=
  ∀ file loaded, load file = some loaded → loaded.2.length < file.length

theorem length_loadChild {loadFolder : List ι → Option (StoredEntry × List ι)}
    (shortens : Shortens loadFolder) {index : Int32} {file : List ι}
    {loaded : StoredEntry × List ι}
    (isLoaded : loadChild input loadFolder index file = some loaded) :
    loaded.2.length < file.length := by
  rw [loadChild] at isLoaded
  split at isLoaded
  · exact shortens file loaded isLoaded
  · split at isLoaded
    · exact length_loadFile isLoaded
    · cases isLoaded

theorem length_loadChilds {loadFolder : List ι → Option (StoredEntry × List ι)}
    (shortens : Shortens loadFolder) {count : Nat} {childs : List (String × StoredEntry)}
    {file : List ι} {loaded : List (String × StoredEntry) × List ι}
    (isLoaded : loadChilds input loadFolder count childs file = some loaded) :
    loaded.2.length ≤ file.length := by
  induction count generalizing childs file with
  | zero =>
      cases isLoaded
      exact Nat.le_refl _
  | succ count ih =>
      obtain ⟨_, _, key, later⟩ := Loader.run_eq_some_iff.mp isLoaded
      obtain ⟨_, _, index, later⟩ := Loader.run_eq_some_iff.mp later
      obtain ⟨child, isChild, rest⟩ := Option.bind_eq_some_iff.mp later
      have first := input.string.shorter key
      have second := input.int32.shorter index
      have third := length_loadChild shortens isChild
      have fourth := ih rest
      omega

theorem length_loadEnd {name : String} {streamId : Hash256} {childs : List (String × StoredEntry)}
    {file : List ι} {loaded : StoredEntry × List ι}
    (isLoaded : loadEnd input name streamId childs file = some loaded) :
    loaded.2.length < file.length := by
  obtain ⟨isaStream, _, flag, later⟩ := Loader.run_eq_some_iff.mp isLoaded
  obtain ⟨stream, isStream, later⟩ := Option.bind_eq_some_iff.mp later
  obtain ⟨_, rest, modificationIndex, same⟩ := Loader.run_eq_some_iff.mp later
  cases same
  change rest.length < file.length
  have first := input.bool.shorter flag
  have last := input.int64.shorter modificationIndex
  cases isaStream with
  | true =>
      rw [if_pos rfl] at isStream
      have second := input.array.shorter isStream
      omega
  | false =>
      rw [if_neg (by simp)] at isStream
      cases isStream
      exact last.trans first

theorem shortens_loadFolder (levels : Nat) (streamId : Hash256) :
    Shortens (loadFolder input levels streamId) := by
  induction levels generalizing streamId with
  | zero =>
      intro file loaded isLoaded
      cases isLoaded
  | succ levels ih =>
      intro file loaded isLoaded
      obtain ⟨_, _, name, later⟩ := Loader.run_eq_some_iff.mp isLoaded
      obtain ⟨_, _, size, later⟩ := Loader.run_eq_some_iff.mp later
      obtain ⟨childs, isChilds, rest⟩ := Option.bind_eq_some_iff.mp later
      have first := input.string.shorter name
      have second := input.uint64.shorter size
      have third := length_loadChilds (ih 0) isChilds
      have fourth := length_loadEnd rest
      omega

/-- Children that are loaded in two ways, which agree on what is left of the input. -/
theorem loadChilds_congr {load other : List ι → Option (StoredEntry × List ι)}
    (shortens : Shortens load) {bound count : Nat} {childs : List (String × StoredEntry)}
    {file : List ι} (agree : ∀ file, file.length < bound → load file = other file)
    (short : file.length ≤ bound) :
    loadChilds input load count childs file = loadChilds input other count childs file := by
  induction count generalizing childs file with
  | zero => rfl
  | succ count ih =>
      rw [loadChilds, loadChilds]
      apply Loader.run_congr
      intro key rest isShorter
      apply Loader.run_congr
      intro index rest isStillShorter
      have same : loadChild input load index rest = loadChild input other index rest := by
        rw [loadChild, loadChild, agree rest (by omega)]
      rw [← same]
      cases isChild : loadChild input load index rest with
      | none => rfl
      | some child =>
          have left := length_loadChild shortens isChild
          exact ih (by omega)

theorem loadFolder_levels {levels more : Nat} {streamId : Hash256} {file : List ι}
    (enough : file.length ≤ levels) (le : levels ≤ more) :
    loadFolder input levels streamId file = loadFolder input more streamId file := by
  induction levels generalizing more streamId file with
  | zero =>
      have none : file = [] := List.length_eq_zero_iff.mp (Nat.le_zero.mp enough)
      subst none
      cases isLoaded : loadFolder input more streamId [] with
      | none => rfl
      | some loaded =>
          have shorter := shortens_loadFolder more streamId [] loaded isLoaded
          rw [List.length_nil] at shorter
          omega
  | succ levels ih =>
      cases more with
      | zero => omega
      | succ more =>
          rw [loadFolder, loadFolder]
          apply Loader.run_congr
          intro name rest isShorter
          apply Loader.run_congr
          intro size rest isStillShorter
          have same : ∀ childs : List (String × StoredEntry),
              loadChilds input (loadFolder input levels 0) size.toNat childs rest =
                loadChilds input (loadFolder input more 0) size.toNat childs rest := by
            intro childs
            refine loadChilds_congr (shortens_loadFolder levels 0) ?_ (Nat.le_refl rest.length)
            intro below isBelow
            exact ih (by omega) (by omega)
          rw [same]

end StoredEntry

namespace StoredFsTree

variable {ι : Type}

/-! ## The file -/

theorem deserialize_of_version {archive : PortableArchive ι} {fileName : String}
    {before : StoredEntry} {file body rest : List ι} {input : InputArchive ι} {version : UInt32}
    (isOpen : archive.openInput.load file = some (input, body))
    (isVersion : input.uint32.load body = some (version, rest)) (other : version ≠ fsTreeVersion) :
    deserialize archive fileName before file =
      .error (.runtimeError ("Invalid FS_TREE_VERSION: " ++ fileName)) := by
  rw [deserialize, isOpen]
  simp only [isVersion]
  rw [if_pos other]

theorem deserialize_doSerialize_root {archive : PortableArchive ι} (roundTrips : archive.RoundTrips)
    (fileName : String) (fsTree : StoredFsTree)
    (plain : All (fun entry => entry.value.IsPlain) fsTree.root) :
    deserialize archive fileName StoredEntry.fresh (doSerialize archive fsTree) = .ok fsTree.root := by
  obtain ⟨input, reads, isOpen⟩ := roundTrips
  have again := StoredEntry.loadsAgain reads fsTree.isStored plain (Nat.le_refl _) []
  rw [List.append_nil, StoredInfo.variantIndex, if_pos fsTree.isFolder, StoredEntry.loadChild,
    if_pos rfl] at again
  rw [deserialize, doSerialize, isOpen]
  simp only [reads.uint32 _ _ trivial]
  rw [if_neg (by simp), StoredEntry.fresh]
  simp only [value_node, StoredInfo.streamId, again]

/-- A tree is read back from its file with all its fields, and files of other versions are
    rejected. -/
theorem deserialize_doSerialize {archive : PortableArchive ι} (roundTrips : archive.RoundTrips)
    (fileName : String) :
    (∀ fsTree : StoredFsTree, All (fun entry => entry.value.IsPlain) fsTree.root →
      deserialize archive fileName StoredEntry.fresh (doSerialize archive fsTree) = .ok fsTree.root) ∧
    ∀ before file input body version rest, archive.openInput.load file = some (input, body) →
      input.uint32.load body = some (version, rest) → version ≠ fsTreeVersion →
        deserialize archive fileName before file =
          .error (.runtimeError ("Invalid FS_TREE_VERSION: " ++ fileName)) := by
  constructor
  · intro fsTree plain
    exact deserialize_doSerialize_root roundTrips fileName fsTree plain
  · intro before file input body version rest isOpen isVersion other
    exact deserialize_of_version isOpen isVersion other

def streamRoot : StoredEntry :=
  .node (.folder "/" false 0 (-1))
    [("live", .node (.folder "live" true 40 (-1)) [("a", .node (.file "a" 7 10 3 false) [])])]

theorem isStored_streamRoot : All StoredEntry.IsStored streamRoot := by
  have file : All StoredEntry.IsStored (.node (.file "a" 7 10 3 false) []) := by
    apply All.node
    · exact ⟨List.Pairwise.nil, by decide, fun _ => rfl, by simp, by decide +kernel⟩
    · intro _ _ member
      cases member
  have stream : All StoredEntry.IsStored
      (.node (.folder "live" true 40 (-1)) [("a", .node (.file "a" 7 10 3 false) [])]) := by
    apply All.node
    · exact ⟨List.pairwise_singleton _ _, by decide, by simp [StoredInfo.isFolder],
        by decide +kernel, by decide +kernel⟩
    · intro key child member
      cases List.mem_singleton.mp member
      exact file
  apply All.node
  · exact ⟨List.pairwise_singleton _ _, by decide, by simp [StoredInfo.isFolder],
      by decide +kernel, by decide +kernel⟩
  · intro key child member
    cases List.mem_singleton.mp member
    exact stream

theorem isFolder_streamRoot : streamRoot.value.isFolder = true := rfl

def streamFsTree : StoredFsTree where
  root := streamRoot
  isFolder := isFolder_streamRoot
  isStored := isStored_streamRoot

theorem deserialize_doSerialize_stream :
    deserialize FixedBytes.littleEndianArchive "FsTree.bin" StoredEntry.fresh
      (doSerialize FixedBytes.littleEndianArchive streamFsTree) = .ok streamFsTree.root := by
  apply (deserialize_doSerialize FixedBytes.littleEndianArchive_roundTrips "FsTree.bin").1
  apply All.node
  · exact fun _ => rfl
  · intro key child member
    cases List.mem_singleton.mp member
    apply All.node
    · intro notStream
      cases notStream
    · intro key child member
      cases List.mem_singleton.mp member
      apply All.node
      · rfl
      · intro _ _ member
        cases member

end StoredFsTree

end SiriusDrive
