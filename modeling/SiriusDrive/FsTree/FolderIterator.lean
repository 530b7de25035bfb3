import SiriusDrive.FsTree.WellFormed
import SiriusDrive.Lib.TreeWalk

/-! # The iterators over folders

`FolderIterator` goes through the entries of a folder, or of all folders below it, with a stack
of the folders it is in. The stack keeps a folder whose last entry is being gone through.
-/

namespace SiriusDrive

open KeyedTree

structure IteratorValue where
  name : String
  /-- A `uint32_t`. -/
  depth : Nat
  deriving Repr, DecidableEq

/-- `FolderIterator`. Of a `StackEntry` only the children from `m_it` on are of interest; the
    iterator on top of the stack has not come to the end of its folder. -/
structure FolderIterator where
  /-- The innermost folder first. -/
  stack : List (List (String × FsEntry))
  isRecursive : Bool
  isActive : ∀ childs ∈ stack.head?, childs ≠ []

namespace FolderIterator

/-- The loop of `clearStack`. -/
def clearStack (stack : List (List (String × FsEntry))) : List (List (String × FsEntry)) :=
  stack.dropWhile List.isEmpty

theorem isActive_clearStack (stack : List (List (String × FsEntry))) :
    ∀ childs ∈ (clearStack stack).head?, childs ≠ [] := by
  intro childs isTop
  induction stack with
  | nil => cases isTop
  | cons top stack ih =>
      cases top with
      | nil => exact ih isTop
      | cons child rest =>
          cases isTop
          exact List.cons_ne_nil child rest

/-- The stack of a new iterator: an empty folder is not put on it. -/
def newStack (folder : FsEntry) : List (List (String × FsEntry)) :=
  if folder.childs.isEmpty then [] else [folder.childs]

theorem newStack_eq (folder : FsEntry) : newStack folder = clearStack [folder.childs] := by
  rw [newStack, clearStack, List.dropWhile_cons]
  rfl

theorem isActive_newStack (folder : FsEntry) :
    ∀ childs ∈ (newStack folder).head?, childs ≠ [] := by
  rw [newStack_eq]
  exact isActive_clearStack _

def ofFolder (folder : FsEntry) (isRecursive : Bool) : FolderIterator where
  stack := newStack folder
  isRecursive
  isActive := isActive_newStack folder

def hasNext (iterator : FolderIterator) : Bool := !iterator.stack.isEmpty

/-- The stack after the innermost folder has gone on, with the folder that is entered. -/
def advance (isRecursive : Bool) (child : FsEntry) (rest : List (String × FsEntry))
    (stack : List (List (String × FsEntry))) : List (List (String × FsEntry)) :=
  if isRecursive && FsEntry.isFolder child && !child.childs.isEmpty then
    child.childs :: rest :: stack
  else rest :: stack

/-- `next`. -/
def next : FolderIterator → Option IteratorValue × FolderIterator
  | ⟨[], isRecursive, isActive⟩ => (none, ⟨[], isRecursive, isActive⟩)
  | ⟨[] :: _, _, isActive⟩ => absurd rfl (isActive [] rfl)
  | ⟨((_, child) :: rest) :: stack, isRecursive, _⟩ =>
      (some ⟨child.value.name, stack.length % 2 ^ 32⟩,
        ⟨clearStack (advance isRecursive child rest stack), isRecursive, isActive_clearStack _⟩)

/-- The iterator after some calls of `next`. -/
def after : Nat → FolderIterator → FolderIterator
  | 0, iterator => iterator
  | calls + 1, iterator => after calls iterator.next.2

theorem hasNext_eq (iterator : FolderIterator) : iterator.hasNext = iterator.next.1.isSome := by
  obtain ⟨stack, isRecursive, isActive⟩ := iterator
  cases stack with
  | nil => rfl
  | cons top stack =>
      cases top with
      | nil => exact absurd rfl (isActive [] rfl)
      | cons child rest => rfl

/-! ## What is still to be returned -/

mutual

/-- The values of the entries below a folder, whose children are at some depth. -/
def visits (depth : Nat) : FsEntry → List IteratorValue
  | .node _ childs => visitChilds depth childs

def visitChilds (depth : Nat) : List (String × FsEntry) → List IteratorValue
  | [] => []
  | (_, child) :: rest =>
      ⟨child.value.name, depth % 2 ^ 32⟩ :: (visits (depth + 1) child ++ visitChilds depth rest)

end

/-- The depth of an entry below the folder an iterator was made for, as it is returned. -/
def returnedDepth (address : List String) : Nat := (address.length - 1) % 2 ^ 32

theorem visits_eq (entry : FsEntry) (address : List String) :
    visits address.length entry =
      (entriesBelow address entry).map fun visited => ⟨visited.2.value.name, returnedDepth visited.1⟩ := by
  induction entry using KeyedTree.induct generalizing address with
  | node info childs ih =>
      rw [visits, entriesBelow]
      induction childs with
      | nil => rfl
      | cons head rest ihRest =>
          obtain ⟨key, child⟩ := head
          have below := ih key child List.mem_cons_self (address ++ [key])
          rw [List.length_append, List.length_singleton] at below
          have later := ihRest fun key child member => ih key child (List.mem_cons_of_mem _ member)
          rw [visitChilds, childEntries, List.map_cons, List.map_append, below, later, returnedDepth,
            List.length_append, List.length_singleton, Nat.add_sub_cancel]

/-- What the folders on a stack still give. -/
def remaining (isRecursive : Bool) : List (List (String × FsEntry)) → List IteratorValue
  | [] => []
  | childs :: stack =>
      (if isRecursive then visitChilds stack.length childs
        else childs.map fun child => ⟨child.2.value.name, stack.length % 2 ^ 32⟩) ++
        remaining isRecursive stack

theorem remaining_clearStack (isRecursive : Bool) (stack : List (List (String × FsEntry))) :
    remaining isRecursive (clearStack stack) = remaining isRecursive stack := by
  induction stack with
  | nil => rfl
  | cons top stack ih =>
      cases top with
      | cons child rest => rfl
      | nil =>
          have nothing : remaining isRecursive ([] :: stack) = remaining isRecursive stack := by
            rw [remaining]
            cases isRecursive <;> rfl
          rw [nothing]
          exact ih

def IsProperStack (stack : List (List (String × FsEntry))) : Prop :=
  ∀ childs ∈ stack, ∀ child ∈ childs, FsEntry.WellFormed child.2

/-- The entry that is returned comes before everything else that is left. -/
theorem remaining_advance {isRecursive : Bool} {name : String} {child : FsEntry}
    (proper : FsEntry.WellFormed child) (rest : List (String × FsEntry))
    (stack : List (List (String × FsEntry))) :
    remaining isRecursive (((name, child) :: rest) :: stack) =
      ⟨child.value.name, stack.length % 2 ^ 32⟩ ::
        remaining isRecursive (advance isRecursive child rest stack) := by
  cases isRecursive with
  | false => rfl
  | true =>
      obtain ⟨info, childs⟩ := child
      rw [advance, Bool.true_and, childs_node]
      cases childs with
      | nil =>
          rw [List.isEmpty_nil, Bool.not_true, Bool.and_false]
          rfl
      | cons first others =>
          have isFolder : FsEntry.isFolder (.node info (first :: others)) = true := by
            by_contra notFolder
            exact absurd (proper.here.2 (Bool.eq_false_iff.mpr notFolder)) (List.cons_ne_nil _ _)
          rw [isFolder, List.isEmpty_cons, Bool.not_false, Bool.and_true, if_pos rfl, remaining,
            remaining, remaining, if_pos rfl, if_pos rfl, if_pos rfl, visitChilds, visits,
            List.cons_append, List.append_assoc, List.length_cons]

theorem IsProperStack.clearStack {stack : List (List (String × FsEntry))}
    (proper : IsProperStack stack) : IsProperStack (clearStack stack) :=
  fun childs member => proper childs ((List.dropWhile_suffix _).subset member)

theorem IsProperStack.advance {isRecursive : Bool} {name : String} {child : FsEntry}
    {rest : List (String × FsEntry)} {stack : List (List (String × FsEntry))}
    (proper : IsProperStack (((name, child) :: rest) :: stack)) :
    IsProperStack (advance isRecursive child rest stack) := by
  have later : IsProperStack (rest :: stack) := by
    intro childs member
    rcases List.mem_cons.mp member with rfl | below
    · exact fun other isOther => proper _ List.mem_cons_self other (List.mem_cons_of_mem _ isOther)
    · exact proper childs (List.mem_cons_of_mem _ below)
  rw [FolderIterator.advance]
  split
  · intro childs member
    rcases List.mem_cons.mp member with rfl | below
    · have inner := proper _ List.mem_cons_self _ List.mem_cons_self
      exact fun other isOther => inner.child isOther
    · exact later childs below
  · exact later

theorem next_after {iterator : FolderIterator} (proper : IsProperStack iterator.stack)
    (calls : Nat) : (iterator.after calls).next.1 =
      (remaining iterator.isRecursive iterator.stack)[calls]? := by
  induction calls generalizing iterator with
  | zero =>
      obtain ⟨stack, isRecursive, isActive⟩ := iterator
      cases stack with
      | nil => rfl
      | cons top stack =>
          cases top with
          | nil => exact absurd rfl (isActive [] rfl)
          | cons head rest =>
              rw [remaining_advance (proper _ List.mem_cons_self head List.mem_cons_self)]
              rfl
  | succ calls ih =>
      obtain ⟨stack, isRecursive, isActive⟩ := iterator
      rw [after]
      cases stack with
      | nil => exact ih proper
      | cons top stack =>
          cases top with
          | nil => exact absurd rfl (isActive [] rfl)
          | cons head rest =>
              have later : IsProperStack (FolderIterator.advance isRecursive head.2 rest stack) :=
                proper.advance
              rw [remaining_advance (proper _ List.mem_cons_self head List.mem_cons_self),
                List.getElem?_cons_succ, ← remaining_clearStack]
              exact ih later.clearStack

/-! ## Walks -/

/-- The iterators for a folder return its entries, with some depth for each address. -/
structure WalksThrough (folder : FsEntryTree) (depth : List String → Nat) : Prop where
  /-- Every descendant has one place in the order of the walk. -/
  distinct : ((entriesBelow [] folder.1).map Prod.fst).Nodup
  complete : ∀ address entry, (address, entry) ∈ entriesBelow [] folder.1 ↔
    address ≠ [] ∧ find? address folder.1 = some entry
  recursive : ∀ calls, ((ofFolder folder.1 true).after calls).next.1 =
    ((entriesBelow [] folder.1)[calls]?).map fun visited => ⟨visited.2.value.name, depth visited.1⟩
  direct : ∀ calls, ((ofFolder folder.1 false).after calls).next.1 =
    (folder.1.childs[calls]?).map fun child => ⟨child.2.value.name, depth [child.1]⟩
  hasNext : ∀ isRecursive calls, ((ofFolder folder.1 isRecursive).after calls).hasNext =
    ((ofFolder folder.1 isRecursive).after calls).next.1.isSome

variable (folder : FsEntryTree)

theorem isProperStack_newStack : IsProperStack (newStack folder.1) := by
  rw [newStack_eq]
  apply IsProperStack.clearStack
  intro childs member child isChild
  rw [List.mem_singleton.mp member] at isChild
  exact folder.2.wellFormed.child isChild

theorem next_after_ofFolder (isRecursive : Bool) (calls : Nat) :
    ((ofFolder folder.1 isRecursive).after calls).next.1 =
      (remaining isRecursive [folder.1.childs])[calls]? := by
  have stack : remaining isRecursive (newStack folder.1) =
      remaining isRecursive [folder.1.childs] := by
    rw [newStack_eq, remaining_clearStack]
  exact (next_after (isProperStack_newStack folder) calls).trans (by rw [← stack]; rfl)

theorem next_after_recursive (calls : Nat) : ((ofFolder folder.1 true).after calls).next.1 =
    ((entriesBelow [] folder.1)[calls]?).map fun visited =>
      ⟨visited.2.value.name, returnedDepth visited.1⟩ := by
  have values : remaining true [folder.1.childs] = visits ([] : List String).length folder.1 := by
    rw [remaining, if_pos rfl, remaining, List.append_nil]
    obtain ⟨⟨info, childs⟩, _⟩ := folder
    rfl
  rw [next_after_ofFolder, values, visits_eq, List.getElem?_map]

/-- The depth is right as far as it fits. -/
theorem walksThrough : WalksThrough folder returnedDepth where
  distinct := nodup_entriesBelow folder.2.wellFormed.uniqueKeys []
  complete address entry := by
    rw [mem_entriesBelow_iff folder.2.wellFormed.uniqueKeys]
    constructor
    · rintro ⟨rest, notEmpty, rfl, found⟩
      exact ⟨notEmpty, found⟩
    · rintro ⟨notEmpty, found⟩
      exact ⟨address, notEmpty, rfl, found⟩
  recursive := next_after_recursive folder
  direct calls := by
    rw [next_after_ofFolder, remaining, if_neg Bool.false_ne_true, remaining, List.append_nil,
      List.getElem?_map]
    rfl
  hasNext _ _ := hasNext_eq _

/-! ## Deep folders -/

def nested (count : Nat) : FsEntry := FsEntry.newFolders 0 "/" (List.replicate count "d")

theorem isTree_nested (count : Nat) : (nested count).IsTree := by
  constructor
  · exact FsEntry.wellFormed_newFolders _ _ _
  · cases count <;> rfl

theorem depth_of_walksThrough {count : Nat} {depth : List String → Nat}
    (walks : WalksThrough ⟨nested (count + 1), isTree_nested (count + 1)⟩ depth) :
    depth (List.replicate (count + 1) "d") = count % 2 ^ 32 := by
  obtain ⟨innermost, isInnermost, _⟩ :=
    FsEntry.getFolderPtr_newFolders 0 "/" (List.replicate (count + 1) "d")
  have visited : (List.replicate (count + 1) "d", innermost) ∈
      entriesBelow [] (nested (count + 1)) := by
    rw [walks.complete]
    exact ⟨List.cons_ne_nil _ _, FsEntry.find?_of_getFolderPtr isInnermost⟩
  obtain ⟨calls, isCall⟩ := List.mem_iff_getElem?.mp visited
  have returned := (walks.recursive calls).symm.trans (next_after_recursive _ calls)
  rw [isCall, Option.map_some, Option.map_some, Option.some.injEq, IteratorValue.mk.injEq] at returned
  rw [returned.2, returnedDepth, List.length_replicate, Nat.add_sub_cancel]

/-- The depth of a folder inside `2 ^ 32` others does not fit. -/
theorem not_walksThrough_deep :
    ¬ ∀ folder, WalksThrough folder fun address => address.length - 1 := by
  intro all
  have returned := depth_of_walksThrough (all ⟨nested (2 ^ 32 + 1), isTree_nested (2 ^ 32 + 1)⟩)
  have length : (List.replicate (2 ^ 32 + 1) "d").length - 1 = 2 ^ 32 := by
    rw [List.length_replicate, Nat.add_sub_cancel]
  have fits : 2 ^ 32 = 2 ^ 32 % 2 ^ 32 := length.symm.trans returned
  exact absurd fits (by decide)

end FolderIterator

end SiriusDrive
