import SiriusDrive.ModifyDriveTask.FsTreeActions

/-! # Moves of a modification

A folder is not moved into itself, which `isPathInsideFolder` looks after. Nothing
looks after an entry that is moved onto a folder it is in: the folder is destroyed,
and the entry is then erased from it.
-/

namespace SiriusDrive

open FsEntry

/-! ## Paths inside a folder -/

theorem FsPath.not_mem_parentPath (path : FsPath) : "" ∉ path.parentPath.elements := by
  by_cases isRoot : path.elements = ["/"]
  · rw [parentPath, if_pos isRoot, isRoot]
    decide
  · rw [elements_parentPath isRoot]
    exact path.noEmptyInside

theorem FsPath.keys_of_filename {path : FsPath} (named : path.filename ≠ "") :
    path.keys = path.elements ∧ path.elements ≠ [] ∧ path.elements ≠ ["/"] := by
  have notRoot : path.elements ≠ ["/"] := by
    intro isRoot
    exact named (by rw [filename, if_pos isRoot])
  have notEmpty : path.elements ≠ [] := by
    intro isEmpty
    exact named (by rw [filename, if_neg notRoot, isEmpty]; rfl)
  exact ⟨keys_eq_elements notRoot notEmpty, notEmpty, notRoot⟩

/-- Only the keys of a path with a parent lead to a folder on the way of another path. -/
theorem FsPath.keys_of_inside {path other : FsPath}
    (inside : path.keys <+: other.parentPath.elements) :
    path.keys = path.elements ∧ path.elements ≠ [] := by
  have named : path.filename ≠ "" := by
    intro noName
    apply other.not_mem_parentPath
    apply inside.subset
    rw [keys, noName]
    exact List.mem_concat_self
  have isKeys := keys_of_filename named
  exact ⟨isKeys.1, isKeys.2.1⟩

theorem isPathInsideFolder_append (front path folder : List String) :
    isPathInsideFolder (front ++ path) (front ++ folder) = isPathInsideFolder path folder := by
  induction front with
  | nil => rfl
  | cons name front ih =>
      rw [List.cons_append, List.cons_append, isPathInsideFolder, if_pos rfl]
      exact ih

theorem LocalFiles.isPathInside_eq {files : LocalFiles} {source destination : FsPath}
    {first : String}
    (isSource : source.elements.head? = some first)
    (isDestination : destination.elements.head? = some first) :
    files.isPathInside source destination = none ∨ files.isPathInside source destination =
      some (isPathInsideFolder source.elements destination.elements) := by
  have source_ne : source.elements ≠ [] := by
    intro isEmpty
    simp [isEmpty] at isSource
  have destination_ne : destination.elements ≠ [] := by
    intro isEmpty
    simp [isEmpty] at isDestination
  rw [isPathInside, absolute, absolute, isSource, isDestination]
  by_cases isAbsolute : some first = some "/"
  · simp only [if_pos isAbsolute]
    right
    rfl
  · simp only [if_neg isAbsolute, if_neg source_ne, if_neg destination_ne]
    cases files.currentPath with
    | none =>
        left
        rfl
    | some currentPath =>
        right
        have same := isPathInsideFolder_append (currentPath.elements ++ ["root"]) source.elements
          destination.elements
        rw [List.append_assoc, List.append_assoc] at same
        exact congrArg some same

theorem LocalFiles.isPathInside_of_inside {files : LocalFiles} {source destination : FsPath}
    (inside : source.keys <+: destination.parentPath.elements) (differ : destination ≠ source) :
    files.isPathInside source destination ≠ some false := by
  obtain ⟨isKeys, notEmpty⟩ := FsPath.keys_of_inside inside
  rw [isKeys] at inside
  have below : source.elements <+: destination.elements :=
    inside.trans destination.parentPath_prefix
  have elements : source.elements ≠ destination.elements := by
    intro same
    apply differ
    cases source
    cases destination
    cases same
    rfl
  have proper : isPathInsideFolder source.elements destination.elements = true :=
    isPathInsideFolder_iff.mpr ⟨below, elements⟩
  obtain ⟨first, rest, isSource⟩ := List.exists_cons_of_ne_nil notEmpty
  obtain ⟨more, isDestination⟩ := below
  have sourceHead : source.elements.head? = some first := by rw [isSource]; rfl
  have destinationHead : destination.elements.head? = some first := by
    rw [← isDestination, isSource]
    rfl
  rcases @LocalFiles.isPathInside_eq files _ _ _ sourceHead destinationHead with none | here
  · rw [none]
    simp
  · rw [here, proper]
    simp

/-! ## What a move comes to -/

/-- What `modifyFsTreeInSandbox` asks of a move. -/
structure LocalFiles.Accepts (files : LocalFiles) (tree : FsEntryTree)
    (source destination : FsPath) : Prop where
  isThere : (getEntryPtr source tree.1).isSome
  outside : ∀ srcChild, getEntryPtr source tree.1 = some srcChild → isFolder srcChild = true →
    files.isPathInside source destination = some false

/-- What `moveFlat` comes to for a move that has been accepted. -/
inductive MoveOutcome (tree : FsEntryTree) (source destination : FsPath) :
    MoveResult FsEntryTree → Prop where
  | stays (same : destination = source) : MoveOutcome tree source destination (.moved tree)
  | blocked (differ : destination ≠ source)
      (passes : tree.1.contents.PassesFile destination.parentPath.elements) :
      MoveOutcome tree source destination .failed
  | ontoAncestor (differ : destination ≠ source)
      (isFree : ¬ tree.1.contents.PassesFile destination.parentPath.elements)
      (above : destination.keys <+: source.keys) : MoveOutcome tree source destination .undefined
  | moved {moved : FsEntryTree} (differ : destination ≠ source)
      (isFree : ¬ tree.1.contents.PassesFile destination.parentPath.elements)
      (notAbove : ¬ destination.keys <+: source.keys)
      (isMoved : moved.1.contents = tree.1.contents.move source destination) :
      MoveOutcome tree source destination (.moved moved)

section Outcomes

variable {files : LocalFiles} {tree : FsEntryTree} {source destination : FsPath} {nextNode : Nat}

theorem isFree_of_prepareParent {prepared : FsEntry}
    (isPrepared : prepareParent nextNode destination tree.1 = some prepared) :
    ¬ tree.1.contents.PassesFile destination.parentPath.elements := by
  intro passes
  rw [(prepareParent_eq_none_iff tree.2).mpr passes] at isPrepared
  cases isPrepared

theorem LocalFiles.Accepts.not_inside (accepts : files.Accepts tree source destination)
    (differ : destination ≠ source)
    (isFree : ¬ tree.1.contents.PassesFile destination.parentPath.elements) :
    ¬ source.keys <+: destination.parentPath.elements := by
  intro inside
  obtain ⟨srcChild, isChild⟩ := Option.isSome_iff_exists.mp accepts.isThere
  cases kind : isFolder srcChild with
  | true =>
      exact LocalFiles.isPathInside_of_inside inside differ (accepts.outside srcChild isChild kind)
  | false =>
      apply isFree
      refine ⟨source.keys, _, inside, contents_of_find? (find?_of_getEntryPtr isChild), ?_⟩
      exact EntryInfo.isFolder_content.trans kind

theorem moveFlat_outcome (accepts : files.Accepts tree source destination) (nextNode : Nat) :
    MoveOutcome tree source destination (tree.moveFlat nextNode source destination) := by
  rcases tree.moves_moveFlat nextNode source destination with
    ⟨isFailed, moves⟩ | ⟨isUndefined, moves⟩ | ⟨moved, isMoved, moves⟩
  · rw [isFailed]
    cases moves with
    | missing noEntry =>
        have isThere := accepts.isThere
        rw [noEntry] at isThere
        cases isThere
    | noParent isSource differ blocked =>
        exact .blocked differ ((prepareParent_eq_none_iff tree.2).mp blocked)
  · rw [isUndefined]
    cases moves with
    | looping isPrepared isChild isSource differ inside loops =>
        exact absurd inside (accepts.not_inside differ (isFree_of_prepareParent isPrepared))
    | overAncestor isSource differ isPrepared outside above =>
        obtain ⟨prepared, isPrepared⟩ := Option.isSome_iff_exists.mp isPrepared
        exact .ontoAncestor differ (isFree_of_prepareParent isPrepared) above
  · rw [isMoved]
    generalize isRoot : moved.1 = root at moves
    cases moves with
    | same isSource same =>
        obtain rfl : moved = tree := Subtype.ext isRoot
        exact .stays same
    | intoItself isPrepared isChild isSource differ inside lost =>
        exact absurd inside (accepts.not_inside differ (isFree_of_prepareParent isPrepared))
    | elsewhere isPrepared isChild isSource differ outside notAbove =>
        apply MoveOutcome.moved differ (isFree_of_prepareParent isPrepared) notAbove
        rw [isRoot]
        exact contents_moved tree.2 isPrepared isChild isSource outside

end Outcomes

namespace SandboxFsTree

variable {files : LocalFiles} {action : Action} {sandbox : SandboxFsTree}

/-! ## The move action -/

theorem accepts_iff {source destination : FsPath} :
    files.Accepts sandbox.fsTree source destination ↔
      sandbox.contents source.keys ≠ none ∧
        (sandbox.contents.NamesFolder source.keys →
          files.isPathInside source destination = some false) := by
  rw [contents_keys, ne_eq, Option.map_eq_none_iff, ← ne_eq, ← Option.isSome_iff_ne_none,
    namesFolder_iff]
  constructor
  · intro accepts
    refine ⟨accepts.isThere, ?_⟩
    rintro ⟨srcChild, isChild, kind⟩
    exact accepts.outside srcChild isChild kind
  · rintro ⟨isThere, outside⟩
    refine ⟨isThere, ?_⟩
    intro srcChild isChild kind
    exact outside ⟨srcChild, isChild, kind⟩

theorem move_of_not_accepts
    (rejected : ¬ files.Accepts sandbox.fsTree (.parse action.param1) (.parse action.param2)) :
    sandbox.move files action = some sandbox := by
  simp only [move]
  split
  · rfl
  · rename_i srcChild isChild
    rw [if_pos]
    by_contra accepted
    apply rejected
    rw [not_and, not_not] at accepted
    refine ⟨by rw [isChild]; rfl, ?_⟩
    intro other isOther kind
    obtain rfl := Option.some.inj (isChild.symm.trans isOther)
    exact accepted kind

theorem move_of_accepts
    (accepts : files.Accepts sandbox.fsTree (.parse action.param1) (.parse action.param2)) :
    sandbox.move files action =
      sandbox.afterMove (.parse action.param2)
        (sandbox.fsTree.moveFlat sandbox.nextNode (.parse action.param1)
          (.parse action.param2)) := by
  obtain ⟨srcChild, isChild⟩ := Option.isSome_iff_exists.mp accepts.isThere
  simp only [move, isChild]
  rw [if_neg]
  rintro ⟨kind, inside⟩
  exact inside (accepts.outside srcChild isChild kind)

theorem move_stays
    (accepts : files.Accepts sandbox.fsTree (.parse action.param1) (.parse action.param2))
    (stays : FsPath.parse action.param2 = FsPath.parse action.param1 ∨
      sandbox.contents.PassesFile (FsPath.parse action.param2).parentPath.elements) :
    ∃ after, sandbox.move files action = some after ∧ after.contents = sandbox.contents := by
  rw [move_of_accepts accepts]
  have outcome := moveFlat_outcome accepts sandbox.nextNode
  generalize sandbox.fsTree.moveFlat sandbox.nextNode (.parse action.param1)
    (.parse action.param2) = result at outcome
  cases outcome with
  | stays same => exact ⟨_, rfl, rfl⟩
  | blocked differ passes => exact ⟨_, rfl, rfl⟩
  | ontoAncestor differ isFree above =>
      rcases stays with same | passes
      · exact absurd same differ
      · exact absurd passes isFree
  | moved differ isFree notAbove isMoved =>
      rcases stays with same | passes
      · exact absurd same differ
      · exact absurd passes isFree

theorem move_moves
    (accepts : files.Accepts sandbox.fsTree (.parse action.param1) (.parse action.param2))
    (differ : FsPath.parse action.param2 ≠ FsPath.parse action.param1)
    (isFree : ¬ sandbox.contents.PassesFile (FsPath.parse action.param2).parentPath.elements)
    (notAbove : ¬ (FsPath.parse action.param2).keys <+: (FsPath.parse action.param1).keys) :
    ∃ after, sandbox.move files action = some after ∧
      after.contents = sandbox.contents.move (.parse action.param1) (.parse action.param2) := by
  rw [move_of_accepts accepts]
  have outcome := moveFlat_outcome accepts sandbox.nextNode
  generalize sandbox.fsTree.moveFlat sandbox.nextNode (.parse action.param1)
    (.parse action.param2) = result at outcome
  cases outcome with
  | stays same => exact absurd same differ
  | blocked _ passes => exact absurd passes isFree
  | ontoAncestor _ _ above => exact absurd above notAbove
  | moved _ _ _ isMoved => exact ⟨_, rfl, isMoved⟩

/-! ## When a move is exact -/

/-- The entry at the source has come to the destination, and all others are as they were. -/
def MovesExactly (tree : FsEntryTree) (source destination : FsPath) : MoveResult FsEntryTree → Prop
  | .moved moved =>
      moved.1.contents =
        if destination = source then tree.1.contents else tree.1.contents.move source destination
  | .failed => False
  | .undefined => False

/-- An accepted move is exact unless a file is on the way to the destination, or the destination
    is a folder the source is in. -/
theorem movesExactly_iff
    (accepts : files.Accepts sandbox.fsTree (.parse action.param1) (.parse action.param2)) :
    MovesExactly sandbox.fsTree (.parse action.param1) (.parse action.param2)
        (sandbox.fsTree.moveFlat sandbox.nextNode (.parse action.param1) (.parse action.param2)) ↔
      FsPath.parse action.param2 = FsPath.parse action.param1 ∨
        ¬ sandbox.contents.PassesFile (FsPath.parse action.param2).parentPath.elements ∧
          ¬ (FsPath.parse action.param2).keys <+: (FsPath.parse action.param1).keys := by
  have outcome := moveFlat_outcome accepts sandbox.nextNode
  generalize sandbox.fsTree.moveFlat sandbox.nextNode (.parse action.param1)
    (.parse action.param2) = result at outcome
  cases outcome with
  | stays same =>
      rw [MovesExactly, if_pos same]
      exact iff_of_true rfl (.inl same)
  | blocked differ passes =>
      apply iff_of_false id
      rintro (same | ⟨isFree, _⟩)
      · exact differ same
      · exact isFree passes
  | ontoAncestor differ isFree above =>
      apply iff_of_false id
      rintro (same | ⟨_, notAbove⟩)
      · exact differ same
      · exact notAbove above
  | moved differ isFree notAbove isMoved =>
      rw [MovesExactly, if_neg differ]
      exact iff_of_true isMoved (.inr ⟨isFree, notAbove⟩)

def outwardMove : Action := { actionId := .move, param1 := "a/b", param2 := "c" }

/-- The inner folder is moved onto the outer one. -/
def upwardMove : Action := { actionId := .move, param1 := "a/b", param2 := "a" }

theorem nestedSandbox_accepts {destination : FsPath}
    (outside : sampleFiles.isPathInside (.parse "a/b") destination = some false) :
    sampleFiles.Accepts nestedSandbox.fsTree (.parse "a/b") destination where
  isThere := by decide +kernel
  outside _ _ _ := outside

theorem outwardMove_isExact :
    MovesExactly nestedSandbox.fsTree (.parse outwardMove.param1) (.parse outwardMove.param2)
      (nestedSandbox.fsTree.moveFlat nestedSandbox.nextNode (.parse outwardMove.param1)
        (.parse outwardMove.param2)) := by
  apply (@movesExactly_iff sampleFiles outwardMove nestedSandbox
    (nestedSandbox_accepts (by decide +kernel))).mpr
  right
  constructor
  · rintro ⟨front, info, onWay, isInfo, isFile⟩
    have onTop : front <+: [] := by
      have isTop : (FsPath.parse outwardMove.param2).parentPath.elements = [] := by decide +kernel
      rw [isTop] at onWay
      exact onWay
    rw [List.prefix_nil.mp onTop, contents, contents_nil] at isInfo
    cases isInfo
    rw [EntryInfo.isFolder_content] at isFile
    exact absurd (isFile.symm.trans nestedSandbox.fsTree.2.isFolder) (by decide)
  · decide +kernel

/-- The outer folder is destroyed with the entry that is to be erased from it. -/
theorem upwardMove_isLost : ¬ ∀ (files : LocalFiles) (sandbox : SandboxFsTree) (action : Action),
    files.Accepts sandbox.fsTree (.parse action.param1) (.parse action.param2) →
      MovesExactly sandbox.fsTree (.parse action.param1) (.parse action.param2)
        (sandbox.fsTree.moveFlat sandbox.nextNode (.parse action.param1)
          (.parse action.param2)) := by
  intro all
  have accepts : sampleFiles.Accepts nestedSandbox.fsTree (.parse upwardMove.param1)
      (.parse upwardMove.param2) := nestedSandbox_accepts (by decide +kernel)
  have exactly := all sampleFiles nestedSandbox upwardMove accepts
  have outcome := moveFlat_outcome accepts nestedSandbox.nextNode
  generalize nestedSandbox.fsTree.moveFlat nestedSandbox.nextNode (.parse upwardMove.param1)
    (.parse upwardMove.param2) = result at exactly outcome
  cases outcome with
  | stays same => exact absurd same (by decide +kernel)
  | blocked _ _ => exact exactly
  | ontoAncestor _ _ _ => exact exactly
  | moved _ _ notAbove _ => exact notAbove (by decide +kernel)

end SandboxFsTree

end SiriusDrive
