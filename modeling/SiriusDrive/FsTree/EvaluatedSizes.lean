import SiriusDrive.FsTree.WellFormed

/-! # The evaluated size of a tree

`evaluateSizes` adds up the files of a folder. For a modifiable file it estimates the size of the
torrent from what it has added up in the folder so far, and not from the file alone.
-/

namespace SiriusDrive

open KeyedTree

/-- What `fs::file_size` says of the files of a drive. -/
structure FileSizes where
  driveFile : InfoHash → Nat
  torrentFile : InfoHash → Nat

namespace FileSizes

variable (sizes : FileSizes)

/-! ## The code -/

/-- The loop body. `wrap` is what a `uint64_t` keeps of a number; `inner` is the size of a folder. -/
def addEntry (wrap : Nat → Nat) (size inner : Nat) : EntryInfo → Nat
  | .folder .. => wrap (size + inner)
  | .file content isModifiable _ =>
      let size := wrap (size + sizes.driveFile content.hash)
      if isModifiable then wrap (size + max (wrap (size + 19) / 20) 1024)
      else wrap (size + sizes.torrentFile content.hash)

mutual

/-- `evaluateSizes`. -/
def evaluateSizes (wrap : Nat → Nat) : FsEntry → Nat
  | .node _ childs => evaluateChilds wrap 0 childs

def evaluateChilds (wrap : Nat → Nat) (size : Nat) : List (String × FsEntry) → Nat
  | [] => size
  | (_, child) :: rest =>
      evaluateChilds wrap (addEntry sizes wrap size (evaluateSizes wrap child) child.value) rest

end

/-! ## The sum -/

/-- Five percent of a file, but at least a kilobyte. -/
def metaEstimate (size : Nat) : Nat := max ((size + 19) / 20) 1024

def cost : EntryInfo → Nat
  | .folder .. => 0
  | .file content isModifiable _ =>
      sizes.driveFile content.hash +
        if isModifiable then metaEstimate (sizes.driveFile content.hash)
        else sizes.torrentFile content.hash

/-- The sum over all files of a tree. -/
def totalSize (entry : FsEntry) : Nat := (entry.values.map sizes.cost).sum

def totalBelow (childs : List (String × FsEntry)) : Nat :=
  (childs.map fun child => sizes.totalSize child.2).sum

/-- The estimate for an entry does not see the entries before it. -/
def EstimatedAfter (before : Nat) : EntryInfo → Prop
  | .folder .. => True
  | .file content isModifiable _ => isModifiable = true →
      metaEstimate (before + sizes.driveFile content.hash) =
        metaEstimate (sizes.driveFile content.hash)

/-- The estimates for the entries of a folder, some of which come before. -/
def EstimatedFrom (before : Nat) : List (String × FsEntry) → Prop
  | [] => True
  | (_, child) :: rest =>
      sizes.EstimatedAfter before child.value ∧
        EstimatedFrom (before + sizes.totalSize child) rest

/-- The estimates do not see the entries before them, in any folder of the tree. -/
def Estimated (entry : FsEntry) : Prop := All (fun entry => sizes.EstimatedFrom 0 entry.childs) entry

variable {sizes}

theorem totalSize_node (info : EntryInfo) (childs : List (String × FsEntry)) :
    sizes.totalSize (.node info childs) = sizes.cost info + sizes.totalBelow childs := by
  have below : ((childValues childs).map sizes.cost).sum = sizes.totalBelow childs := by
    induction childs with
    | nil => rfl
    | cons head rest ih =>
        obtain ⟨name, child⟩ := head
        rw [childValues, List.map_append, List.sum_append, ih, totalBelow, totalBelow, List.map_cons,
          List.sum_cons, totalSize]
  rw [totalSize, values, List.map_cons, List.sum_cons, below]

theorem totalBelow_cons (name : String) (child : FsEntry) (childs : List (String × FsEntry)) :
    sizes.totalBelow ((name, child) :: childs) =
      sizes.totalSize child + sizes.totalBelow childs := by
  rw [totalBelow, List.map_cons, List.sum_cons, totalBelow]

theorem metaEstimate_mono {size larger : Nat} (le : size ≤ larger) :
    metaEstimate size ≤ metaEstimate larger := by
  unfold metaEstimate
  omega

/-! ## Without a limit -/

theorem addEntry_file (size inner : Nat) (content : File) (isModifiable : Bool)
    (statistics : FsEntryStatistics) :
    sizes.addEntry id size inner (.file content isModifiable statistics) =
      size + sizes.driveFile content.hash +
        if isModifiable then metaEstimate (size + sizes.driveFile content.hash)
        else sizes.torrentFile content.hash := by
  cases isModifiable <;> rfl

/-- An entry adds at least its files, and exactly them if its own estimates are right. -/
theorem addEntry_id {size : Nat} {child : FsEntry} (proper : FsEntry.IsProper child)
    (inner : sizes.totalBelow child.childs ≤ sizes.evaluateSizes id child)
    (exact : sizes.evaluateSizes id child = sizes.totalBelow child.childs ↔ sizes.Estimated child) :
    size + sizes.totalSize child ≤
        sizes.addEntry id size (sizes.evaluateSizes id child) child.value ∧
      (sizes.addEntry id size (sizes.evaluateSizes id child) child.value =
          size + sizes.totalSize child ↔
        sizes.EstimatedAfter size child.value ∧ sizes.Estimated child) := by
  obtain ⟨info, childs⟩ := child
  rw [totalSize_node, value_node, ← exact]
  rw [childs_node] at inner ⊢
  cases info with
  | folder name statistics streamId =>
      have added : sizes.addEntry id size (sizes.evaluateSizes id
          (.node (.folder name statistics streamId) childs)) (.folder name statistics streamId) =
          size + sizes.evaluateSizes id (.node (.folder name statistics streamId) childs) := rfl
      rw [added, cost, EstimatedAfter, true_and]
      omega
  | file content isModifiable statistics =>
      have none : childs = [] := proper.2 rfl
      subst none
      have nothing : sizes.evaluateSizes id (.node (.file content isModifiable statistics) []) =
          sizes.totalBelow [] := rfl
      have empty : sizes.totalBelow [] = 0 := rfl
      rw [addEntry_file, cost, EstimatedAfter, nothing, empty]
      have larger := metaEstimate_mono (Nat.le_add_left (sizes.driveFile content.hash) size)
      cases isModifiable with
      | false =>
          simp only [Bool.false_eq_true, if_false, false_implies, and_true, iff_true, Nat.add_zero]
          omega
      | true =>
          simp only [if_true, true_implies, and_true, Nat.add_zero]
          omega

theorem evaluateChilds_id {childs : List (String × FsEntry)}
    (proper : ∀ name child, (name, child) ∈ childs → FsEntry.IsProper child)
    (inner : ∀ name child, (name, child) ∈ childs →
      sizes.totalBelow child.childs ≤ sizes.evaluateSizes id child ∧
        (sizes.evaluateSizes id child = sizes.totalBelow child.childs ↔ sizes.Estimated child))
    (before : Nat) :
    before + sizes.totalBelow childs ≤ sizes.evaluateChilds id before childs ∧
      (sizes.evaluateChilds id before childs = before + sizes.totalBelow childs ↔
        sizes.EstimatedFrom before childs ∧
          ∀ name child, (name, child) ∈ childs → sizes.Estimated child) := by
  induction childs generalizing before with
  | nil =>
      refine ⟨Nat.le_refl _, fun _ => ⟨trivial, ?_⟩, fun _ => rfl⟩
      intro name child member
      cases member
  | cons head rest ih =>
      obtain ⟨name, child⟩ := head
      obtain ⟨least, exact⟩ := inner name child List.mem_cons_self
      obtain ⟨adds, addsExact⟩ :=
        @addEntry_id sizes before child (proper name child List.mem_cons_self) least exact
      rw [evaluateChilds, totalBelow_cons, EstimatedFrom]
      generalize sizes.addEntry id before (sizes.evaluateSizes id child) child.value = size at *
      obtain ⟨least, exact⟩ := ih
        (fun name child member => proper name child (List.mem_cons_of_mem _ member))
        (fun name child member => inner name child (List.mem_cons_of_mem _ member)) size
      refine ⟨by omega, ?_⟩
      constructor
      · intro same
        -- what is added too much is never taken off again
        have here : size = before + sizes.totalSize child := by omega
        obtain ⟨estimated, childEstimated⟩ := addsExact.mp here
        obtain ⟨later, others⟩ := exact.mp (by omega)
        refine ⟨⟨estimated, here ▸ later⟩, ?_⟩
        intro other sibling member
        rcases List.mem_cons.mp member with isHead | isLater
        · cases isHead
          exact childEstimated
        · exact others other sibling isLater
      · rintro ⟨⟨estimated, later⟩, all⟩
        have here := addsExact.mpr ⟨estimated, all name child List.mem_cons_self⟩
        have rest := exact.mpr ⟨here ▸ later,
          fun other sibling member => all other sibling (List.mem_cons_of_mem _ member)⟩
        omega

/-- Without a limit the size is at least the sum, and the sum only if all estimates are right. -/
theorem evaluateSizes_id {entry : FsEntry} (wellFormed : FsEntry.WellFormed entry) :
    sizes.totalBelow entry.childs ≤ sizes.evaluateSizes id entry ∧
      (sizes.evaluateSizes id entry = sizes.totalBelow entry.childs ↔ sizes.Estimated entry) := by
  induction entry using KeyedTree.induct with
  | node info childs ih =>
      have parts := all_node.mp wellFormed
      obtain ⟨least, exact⟩ := @evaluateChilds_id sizes childs
        (fun name child member => (parts.2 name child member).here)
        (fun name child member => ih name child member (parts.2 name child member)) 0
      rw [Nat.zero_add] at least exact
      refine ⟨least, exact.trans ?_⟩
      rw [Estimated, all_node, childs_node]
      rfl

/-! ## With 64 bits -/

theorem le_addEntry (size inner : Nat) (info : EntryInfo) : size ≤ sizes.addEntry id size inner info := by
  cases info with
  | folder => exact Nat.le_add_right _ _
  | file content isModifiable statistics =>
      rw [addEntry_file]
      omega

theorem le_evaluateChilds (size : Nat) (childs : List (String × FsEntry)) :
    size ≤ sizes.evaluateChilds id size childs := by
  induction childs generalizing size with
  | nil => exact Nat.le_refl _
  | cons head rest ih =>
      obtain ⟨name, child⟩ := head
      exact (le_addEntry _ _ _).trans (ih _)

theorem addEntry_u64 {size inner wrapped : Nat} {info : EntryInfo}
    (fits : sizes.addEntry id size inner info < 2 ^ 64)
    (same : inner < 2 ^ 64 → wrapped = inner) :
    sizes.addEntry u64 size wrapped info = sizes.addEntry id size inner info := by
  cases info with
  | folder name statistics streamId =>
      have whole : size + inner < 2 ^ 64 := fits
      rw [addEntry, same (by omega), u64_of_lt whole]
      rfl
  | file content isModifiable statistics =>
      rw [addEntry_file] at fits ⊢
      rw [addEntry]
      have first : size + sizes.driveFile content.hash < 2 ^ 64 := by omega
      rw [u64_of_lt first]
      cases isModifiable with
      | false =>
          simp only [Bool.false_eq_true, if_false] at fits ⊢
          exact u64_of_lt fits
      | true =>
          simp only [if_true, metaEstimate] at fits ⊢
          have second : size + sizes.driveFile content.hash + 19 < 2 ^ 64 := by omega
          rw [u64_of_lt second, u64_of_lt fits]

theorem evaluateChilds_u64 {childs : List (String × FsEntry)} {size : Nat}
    (inner : ∀ name child, (name, child) ∈ childs → sizes.evaluateSizes id child < 2 ^ 64 →
      sizes.evaluateSizes u64 child = sizes.evaluateSizes id child)
    (fits : sizes.evaluateChilds id size childs < 2 ^ 64) :
    sizes.evaluateChilds u64 size childs = sizes.evaluateChilds id size childs := by
  induction childs generalizing size with
  | nil => rfl
  | cons head rest ih =>
      obtain ⟨name, child⟩ := head
      rw [evaluateChilds] at fits ⊢
      rw [evaluateChilds, addEntry_u64 (Nat.lt_of_le_of_lt (le_evaluateChilds _ _) fits)
        (inner name child List.mem_cons_self)]
      exact ih (fun name child member => inner name child (List.mem_cons_of_mem _ member)) fits

theorem evaluateSizes_u64 {entry : FsEntry} (fits : sizes.evaluateSizes id entry < 2 ^ 64) :
    sizes.evaluateSizes u64 entry = sizes.evaluateSizes id entry := by
  induction entry using KeyedTree.induct with
  | node info childs ih => exact evaluateChilds_u64 ih fits

theorem addEntry_u64_lt (size inner : Nat) (info : EntryInfo) :
    sizes.addEntry u64 size inner info < 2 ^ 64 := by
  cases info with
  | folder => exact u64_lt _
  | file content isModifiable statistics =>
      rw [addEntry]
      split <;> exact u64_lt _

theorem evaluateSizes_u64_lt (entry : FsEntry) : sizes.evaluateSizes u64 entry < 2 ^ 64 := by
  obtain ⟨info, childs⟩ := entry
  rw [evaluateSizes]
  have small : 0 < 2 ^ 64 := by decide
  generalize 0 = size at small
  induction childs generalizing size with
  | nil => exact small
  | cons head rest ih =>
      obtain ⟨name, child⟩ := head
      exact ih _ (addEntry_u64_lt _ _ _)

theorem totalSize_of_isTree {root : FsEntry} (tree : root.IsTree) :
    sizes.totalSize root = sizes.totalBelow root.childs := by
  obtain ⟨info, childs⟩ := root
  cases info with
  | folder => rw [totalSize_node, cost, Nat.zero_add, childs_node]
  | file => exact absurd tree.isFolder Bool.false_ne_true

/-- With right estimates the size is the sum, if the sum fits. Other estimates are too large, and
    give another size unless they make the numbers wrap. -/
theorem evaluateSizes_eq_iff (sizes : FileSizes) (tree : FsEntryTree) :
    (sizes.Estimated tree.1 ∧ sizes.totalSize tree.1 < 2 ^ 64 →
        sizes.evaluateSizes u64 tree.1 = sizes.totalSize tree.1) ∧
      ((sizes.totalSize tree.1 < 2 ^ 64 → sizes.evaluateSizes id tree.1 < 2 ^ 64) →
        (sizes.evaluateSizes u64 tree.1 = sizes.totalSize tree.1 ↔
          sizes.Estimated tree.1 ∧ sizes.totalSize tree.1 < 2 ^ 64)) := by
  have total : sizes.totalSize tree.1 = sizes.totalBelow tree.1.childs :=
    totalSize_of_isTree tree.2
  obtain ⟨_, exact⟩ := @evaluateSizes_id sizes tree.1 tree.2.wellFormed
  rw [← total] at exact
  have enough : sizes.Estimated tree.1 ∧ sizes.totalSize tree.1 < 2 ^ 64 →
      sizes.evaluateSizes u64 tree.1 = sizes.totalSize tree.1 := by
    rintro ⟨estimated, fits⟩
    have same := exact.mpr estimated
    exact (evaluateSizes_u64 (same ▸ fits)).trans same
  refine ⟨enough, fun noWrap => ⟨?_, enough⟩⟩
  intro same
  have fits : sizes.totalSize tree.1 < 2 ^ 64 := same ▸ evaluateSizes_u64_lt tree.1
  refine ⟨exact.mp ?_, fits⟩
  exact (evaluateSizes_u64 (noWrap fits)).symm.trans same

/-! ## A modifiable file after another file -/

def sampleSizes : FileSizes where
  driveFile hash := if hash = 1 then 100000 else 0
  torrentFile _ := 500

/-- A file of 100000 bytes and an empty modifiable one. -/
def sampleRoot : FsEntry :=
  .node (.folder "/" { node := 0 })
    [("a", .node (.file ⟨"a", 1, 100000⟩ false { node := 1 }) []),
      ("b", .node (.file ⟨"b", 2, 0⟩ true { node := 2 }) [])]

theorem isTree_sampleRoot : sampleRoot.IsTree := by
  constructor
  · apply FsEntry.wellFormed_node rfl (by decide)
    intro name child member
    rcases List.mem_cons.mp member with same | later
    · cases same
      exact FsEntry.wellFormed_leaf _
    · cases List.mem_singleton.mp later
      exact FsEntry.wellFormed_leaf _
  · rfl

/-- The empty file is estimated at five percent of the other one. -/
theorem evaluateSizes_ne_totalSize : ¬ ∀ (sizes : FileSizes) (tree : FsEntryTree),
    sizes.evaluateSizes u64 tree.1 = sizes.totalSize tree.1 := by
  intro all
  exact absurd (all sampleSizes ⟨sampleRoot, isTree_sampleRoot⟩) (by decide +kernel)

end FileSizes

end SiriusDrive
