import Mathlib.Data.List.Nodup

/-! # Trees with keys

A node has a value and children, each under a key, as a folder has entries under
their names. Entries are addressed by the keys on the way from the root. What an
operation does to a tree is said by what can be found in it afterwards.
-/

/-- A tree with values `α` and children under keys `κ`. -/
inductive KeyedTree (κ α : Type*) where
  | node (value : α) (childs : List (κ × KeyedTree κ α))

namespace KeyedTree

variable {κ α β : Type*}

def value : KeyedTree κ α → α
  | .node value _ => value

def childs : KeyedTree κ α → List (κ × KeyedTree κ α)
  | .node _ childs => childs

@[simp] theorem value_node (value : α) (childs : List (κ × KeyedTree κ α)) :
    (node value childs).value = value := rfl

@[simp] theorem childs_node (value : α) (childs : List (κ × KeyedTree κ α)) :
    (node value childs).childs = childs := rfl

@[elab_as_elim]
theorem induct {P : KeyedTree κ α → Prop}
    (node : ∀ value childs, (∀ key child, (key, child) ∈ childs → P child) →
      P (.node value childs)) (tree : KeyedTree κ α) : P tree := by
  cases tree with
  | node value childs =>
      apply node
      intro key child member
      have smaller : sizeOf child < sizeOf childs := by
        have inList := List.sizeOf_lt_of_mem member
        simp only [Prod.mk.sizeOf_spec] at inList
        omega
      exact induct node child
termination_by sizeOf tree
decreasing_by
  simp only [KeyedTree.node.sizeOf_spec]
  omega

mutual

/-- All values, a node before its children. -/
def values : KeyedTree κ α → List α
  | .node value childs => value :: childValues childs

def childValues : List (κ × KeyedTree κ α) → List α
  | [] => []
  | (_, child) :: rest => child.values ++ childValues rest

end

theorem childValues_eq (childs : List (κ × KeyedTree κ α)) :
    childValues childs = childs.flatMap fun child => child.2.values := by
  induction childs with
  | nil => rfl
  | cons child rest ih =>
      obtain ⟨key, child⟩ := child
      rw [childValues, ih, List.flatMap_cons]

mutual

/-- Change all values. -/
def map (f : α → β) : KeyedTree κ α → KeyedTree κ β
  | .node value childs => .node (f value) (mapChilds f childs)

def mapChilds (f : α → β) : List (κ × KeyedTree κ α) → List (κ × KeyedTree κ β)
  | [] => []
  | (key, child) :: rest => (key, child.map f) :: mapChilds f rest

end

theorem mapChilds_eq (f : α → β) (childs : List (κ × KeyedTree κ α)) :
    mapChilds f childs = childs.map fun child => (child.1, child.2.map f) := by
  induction childs with
  | nil => rfl
  | cons child rest ih =>
      obtain ⟨key, child⟩ := child
      rw [mapChilds, ih, List.map_cons]

theorem keys_mapChilds (f : α → β) (childs : List (κ × KeyedTree κ α)) :
    (mapChilds f childs).map Prod.fst = childs.map Prod.fst := by
  rw [mapChilds_eq, List.map_map]
  rfl

theorem values_map (f : α → β) (tree : KeyedTree κ α) : (tree.map f).values = tree.values.map f := by
  induction tree using induct with
  | node value childs ih =>
      rw [map, values, values, List.map_cons, mapChilds_eq, childValues_eq, childValues_eq,
        List.flatMap_map, List.map_flatMap]
      congr 1
      apply List.flatMap_congr
      intro child member
      exact ih child.1 child.2 member

theorem childValues_perm {childs others : List (κ × KeyedTree κ α)} (perm : childs.Perm others) :
    (childValues childs).Perm (childValues others) := by
  rw [childValues_eq, childValues_eq]
  exact perm.flatMap_right _

/-- `P` holds of every tree in a tree. -/
inductive All (P : KeyedTree κ α → Prop) : KeyedTree κ α → Prop where
  | node {value childs} (here : P (node value childs))
      (below : ∀ key child, (key, child) ∈ childs → All P child) : All P (node value childs)

section All

variable {P Q : KeyedTree κ α → Prop}

theorem all_node {value : α} {childs : List (κ × KeyedTree κ α)} : All P (node value childs) ↔
    P (node value childs) ∧ ∀ key child, (key, child) ∈ childs → All P child := by
  constructor
  · intro all
    cases all with
    | node here below => exact ⟨here, below⟩
  · rintro ⟨here, below⟩
    exact .node here below

theorem All.here {tree : KeyedTree κ α} (all : All P tree) : P tree := by
  cases all with
  | node here below => exact here

theorem All.child {tree : KeyedTree κ α} (all : All P tree) {key : κ} {child : KeyedTree κ α}
    (member : (key, child) ∈ tree.childs) : All P child := by
  cases all with
  | node here below => exact below key child member

theorem All.mono (imp : ∀ tree, P tree → Q tree) {tree : KeyedTree κ α} (all : All P tree) :
    All Q tree := by
  induction tree using induct with
  | node value childs ih =>
      have parts := all_node.mp all
      refine .node (imp _ parts.1) ?_
      intro key child member
      exact ih key child member (parts.2 key child member)

end All

/-- The keys of the children of a node are different, all over the tree. -/
def UniqueKeys (tree : KeyedTree κ α) : Prop := All (fun tree => (tree.childs.map Prod.fst).Nodup) tree

theorem uniqueKeys_node {value : α} {childs : List (κ × KeyedTree κ α)} :
    (node value childs).UniqueKeys ↔ (childs.map Prod.fst).Nodup ∧
      ∀ key child, (key, child) ∈ childs → child.UniqueKeys := all_node

variable [DecidableEq κ]

/-! ## Children -/

def childAt (key : κ) : List (κ × KeyedTree κ α) → Option (KeyedTree κ α)
  | [] => none
  | (other, child) :: rest => if other = key then some child else childAt key rest

/-- Put another tree in the place of the child under a key. -/
def replaceChild (key : κ) (tree : KeyedTree κ α) :
    List (κ × KeyedTree κ α) → List (κ × KeyedTree κ α) :=
  List.map fun child => if child.1 = key then (key, tree) else child

def eraseChild (key : κ) : List (κ × KeyedTree κ α) → List (κ × KeyedTree κ α) :=
  List.filter fun child => child.1 ≠ key

/-- Put a child in the order of the keys. -/
def insertChild [LT κ] [DecidableLT κ] (key : κ) (tree : KeyedTree κ α)
    (childs : List (κ × KeyedTree κ α)) : List (κ × KeyedTree κ α) :=
  childs.takeWhile (·.1 < key) ++ (key, tree) :: childs.dropWhile (·.1 < key)

theorem mem_of_childAt {key : κ} {child : KeyedTree κ α} {childs : List (κ × KeyedTree κ α)}
    (found : childAt key childs = some child) : (key, child) ∈ childs := by
  induction childs with
  | nil => cases found
  | cons head rest ih =>
      obtain ⟨other, first⟩ := head
      rw [childAt] at found
      split at found
      · rename_i same
        cases found
        rw [same]
        exact List.mem_cons_self
      · exact List.mem_cons_of_mem _ (ih found)

theorem childAt_eq_none_iff {key : κ} {childs : List (κ × KeyedTree κ α)} :
    childAt key childs = none ↔ key ∉ childs.map Prod.fst := by
  induction childs with
  | nil => simp [childAt]
  | cons head rest ih =>
      obtain ⟨other, first⟩ := head
      rw [childAt, List.map_cons, List.mem_cons, not_or]
      by_cases same : other = key
      · rw [if_pos same]
        simp [same]
      · rw [if_neg same, ih]
        simp [Ne.symm same]

theorem childAt_of_mem {key : κ} {child : KeyedTree κ α} {childs : List (κ × KeyedTree κ α)}
    (distinct : (childs.map Prod.fst).Nodup) (member : (key, child) ∈ childs) :
    childAt key childs = some child := by
  induction childs with
  | nil => cases member
  | cons head rest ih =>
      obtain ⟨other, first⟩ := head
      rw [List.map_cons, List.nodup_cons] at distinct
      rcases List.mem_cons.mp member with same | later
      · cases same
        rw [childAt, if_pos rfl]
      · have ne : other ≠ key := by
          intro same
          apply distinct.1
          rw [same]
          exact List.mem_map.mpr ⟨_, later, rfl⟩
        rw [childAt, if_neg ne]
        exact ih distinct.2 later

theorem replaceChild_self {key : κ} {child : KeyedTree κ α} {childs : List (κ × KeyedTree κ α)}
    (distinct : (childs.map Prod.fst).Nodup) (isChild : childAt key childs = some child) :
    replaceChild key child childs = childs := by
  rw [replaceChild]
  conv => rhs; rw [← List.map_id childs]
  apply List.map_congr_left
  rintro ⟨other, sibling⟩ member
  split
  · rename_i same
    have isKey : other = key := same
    subst isKey
    cases (childAt_of_mem distinct member).symm.trans isChild
    rfl
  · rfl

theorem childAt_append (key : κ) (front back : List (κ × KeyedTree κ α)) :
    childAt key (front ++ back) = (childAt key front).or (childAt key back) := by
  induction front with
  | nil => simp [childAt]
  | cons head rest ih =>
      obtain ⟨other, first⟩ := head
      rw [List.cons_append, childAt, childAt]
      split
      · rfl
      · exact ih

theorem childAt_replaceChild (key other : κ) (tree : KeyedTree κ α)
    (childs : List (κ × KeyedTree κ α)) : childAt other (replaceChild key tree childs) =
      if other = key then (childAt key childs).map fun _ => tree else childAt other childs := by
  induction childs with
  | nil => split <;> rfl
  | cons head rest ih =>
      obtain ⟨first, child⟩ := head
      rw [replaceChild, List.map_cons, ← replaceChild]
      by_cases isFirst : first = key
      · subst isFirst
        by_cases same : other = first
        · subst same
          simp [childAt]
        · simp only [if_true, childAt, if_neg (Ne.symm same), ih, if_neg same]
      · simp only [if_neg isFirst, childAt, ih]
        by_cases same : other = key
        · subst same
          simp only [if_neg isFirst, if_true]
        · simp only [if_neg same]

theorem eraseChild_eraseChild (key : κ) (childs : List (κ × KeyedTree κ α)) :
    eraseChild key (eraseChild key childs) = eraseChild key childs := by
  simp only [eraseChild, List.filter_filter, Bool.and_self]

theorem childAt_eraseChild (key other : κ) (childs : List (κ × KeyedTree κ α)) :
    childAt other (eraseChild key childs) = if other = key then none else childAt other childs := by
  induction childs with
  | nil => split <;> rfl
  | cons head rest ih =>
      obtain ⟨first, child⟩ := head
      rw [eraseChild, List.filter_cons, ← eraseChild]
      by_cases isFirst : first = key
      · subst isFirst
        simp only [ne_eq, not_true_eq_false, decide_false, Bool.false_eq_true, if_false, ih]
        by_cases same : other = first
        · simp only [if_pos same]
        · simp only [if_neg same, childAt, if_neg (Ne.symm same)]
      · simp only [ne_eq, isFirst, not_false_eq_true, decide_true, if_true, childAt, ih]
        by_cases same : other = key
        · subst same
          simp only [if_neg isFirst, if_true]
        · simp only [if_neg same]

section Insertion

variable [LT κ] [DecidableLT κ]

theorem childAt_insertChild {key : κ} {childs : List (κ × KeyedTree κ α)}
    (absent : childAt key childs = none) (other : κ) (tree : KeyedTree κ α) :
    childAt other (insertChild key tree childs) =
      if other = key then some tree else childAt other childs := by
  have parts : childs = childs.takeWhile (·.1 < key) ++ childs.dropWhile (·.1 < key) :=
    List.takeWhile_append_dropWhile.symm
  rw [insertChild, childAt_append, childAt]
  by_cases same : other = key
  · subst same
    rw [parts, childAt_append, Option.or_eq_none_iff] at absent
    rw [absent.1, if_pos rfl, if_pos rfl, Option.none_or]
  · rw [if_neg (Ne.symm same), if_neg same]
    conv => rhs; rw [parts]
    rw [childAt_append]

omit [DecidableEq κ] in
theorem insertChild_perm (key : κ) (tree : KeyedTree κ α)
    (childs : List (κ × KeyedTree κ α)) :
    (insertChild key tree childs).Perm ((key, tree) :: childs) := by
  rw [insertChild]
  apply List.perm_middle.trans
  rw [List.takeWhile_append_dropWhile]

theorem eraseChild_insertChild (key : κ) (tree : KeyedTree κ α)
    (childs : List (κ × KeyedTree κ α)) :
    eraseChild key (insertChild key tree childs) = eraseChild key childs := by
  simp only [eraseChild, insertChild]
  rw [List.filter_append, List.filter_cons_of_neg (by simp), ← List.filter_append,
    List.takeWhile_append_dropWhile]

omit [DecidableEq κ] in
theorem childValues_insertChild (key : κ) (tree : KeyedTree κ α)
    (childs : List (κ × KeyedTree κ α)) :
    (childValues (insertChild key tree childs)).Perm (tree.values ++ childValues childs) :=
  childValues_perm (insertChild_perm key tree childs)

end Insertion

theorem keys_replaceChild (key : κ) (tree : KeyedTree κ α) (childs : List (κ × KeyedTree κ α)) :
    (replaceChild key tree childs).map Prod.fst = childs.map Prod.fst := by
  rw [replaceChild, List.map_map]
  apply List.map_congr_left
  intro child _
  by_cases same : child.1 = key
  · simp [same]
  · simp [same]

/-! ## Entries at an address -/

def find? : List κ → KeyedTree κ α → Option (KeyedTree κ α)
  | [], tree => some tree
  | key :: address, tree => (childAt key tree.childs).bind fun child => find? address child

@[simp] theorem find?_nil (tree : KeyedTree κ α) : find? [] tree = some tree := rfl

theorem find?_cons (key : κ) (address : List κ) (tree : KeyedTree κ α) :
    find? (key :: address) tree = (childAt key tree.childs).bind fun child => find? address child :=
  rfl

theorem find?_append (first second : List κ) (tree : KeyedTree κ α) :
    find? (first ++ second) tree = (find? first tree).bind fun found => find? second found := by
  induction first generalizing tree with
  | nil => rfl
  | cons key first ih =>
      rw [List.cons_append, find?_cons, find?_cons]
      cases childAt key tree.childs with
      | none => rfl
      | some child => exact ih child

theorem All.found {P : KeyedTree κ α → Prop} {tree found : KeyedTree κ α} (all : All P tree)
    {address : List κ} (isFound : KeyedTree.find? address tree = some found) : All P found := by
  induction address generalizing tree with
  | nil =>
      cases isFound
      exact all
  | cons key address ih =>
      obtain ⟨child, isChild, later⟩ := Option.bind_eq_some_iff.mp isFound
      exact ih (all.child (mem_of_childAt isChild)) later

/-- With different keys, every value of a tree is found at some address. -/
theorem mem_values_iff {tree : KeyedTree κ α} (unique : tree.UniqueKeys) {value : α} :
    value ∈ tree.values ↔ ∃ address found, tree.find? address = some found ∧ found.value = value := by
  induction tree using induct with
  | node top childs ih =>
      have unique := uniqueKeys_node.mp unique
      rw [values, List.mem_cons, childValues_eq, List.mem_flatMap]
      constructor
      · rintro (rfl | ⟨⟨key, child⟩, member, isValue⟩)
        · exact ⟨[], _, rfl, rfl⟩
        · obtain ⟨address, found, isFound, rfl⟩ :=
            (ih key child member (unique.2 key child member)).mp isValue
          refine ⟨key :: address, found, ?_, rfl⟩
          rw [find?_cons, childs_node, childAt_of_mem unique.1 member]
          exact isFound
      · rintro ⟨address, found, isFound, rfl⟩
        cases address with
        | nil =>
            cases isFound
            left
            rfl
        | cons key address =>
            obtain ⟨child, isChild, later⟩ := Option.bind_eq_some_iff.mp isFound
            have member : (key, child) ∈ childs := mem_of_childAt isChild
            right
            refine ⟨(key, child), member, ?_⟩
            exact (ih key child member (unique.2 key child member)).mpr ⟨address, found, later, rfl⟩

mutual

/-- Where a value with `p` is first found. -/
def addressOf (p : α → Bool) : KeyedTree κ α → Option (List κ)
  | .node value childs => if p value then some [] else addressIn p childs

def addressIn (p : α → Bool) : List (κ × KeyedTree κ α) → Option (List κ)
  | [] => none
  | (key, child) :: childs =>
      match addressOf p child with
      | some address => some (key :: address)
      | none => addressIn p childs

end

omit [DecidableEq κ] in
theorem addressIn_eq_some {p : α → Bool} {childs : List (κ × KeyedTree κ α)} {address : List κ}
    (isFound : addressIn p childs = some address) : ∃ key child rest,
      (key, child) ∈ childs ∧ addressOf p child = some rest ∧ address = key :: rest := by
  induction childs with
  | nil => cases isFound
  | cons head childs ih =>
      obtain ⟨key, child⟩ := head
      rw [addressIn] at isFound
      split at isFound
      · rename_i rest here
        cases isFound
        exact ⟨key, child, rest, List.mem_cons_self, here, rfl⟩
      · obtain ⟨other, sibling, rest, member, here, isAddress⟩ := ih isFound
        exact ⟨other, sibling, rest, List.mem_cons_of_mem _ member, here, isAddress⟩

/-- With different keys, the value is at the address where it was found. -/
theorem find?_of_addressOf {p : α → Bool} {tree : KeyedTree κ α} (unique : tree.UniqueKeys)
    {address : List κ} (isFound : addressOf p tree = some address) :
    ∃ found, find? address tree = some found ∧ p found.value = true := by
  induction tree using induct generalizing address with
  | node value childs ih =>
      have unique := uniqueKeys_node.mp unique
      rw [addressOf] at isFound
      split at isFound
      · cases isFound
        exact ⟨_, rfl, by assumption⟩
      · obtain ⟨key, child, rest, member, here, rfl⟩ := addressIn_eq_some isFound
        rw [find?_cons, childs_node, childAt_of_mem unique.1 member]
        exact ih key child member (unique.2 key child member) here

omit [DecidableEq κ] in
theorem addressOf_eq_none {p : α → Bool} {tree : KeyedTree κ α} (missing : addressOf p tree = none)
    {value : α} (member : value ∈ tree.values) : p value = false := by
  induction tree using induct with
  | node top childs ih =>
      rw [addressOf] at missing
      split at missing
      · cases missing
      rename_i notTop
      have none : ∀ key child, (key, child) ∈ childs → addressOf p child = none := by
        clear ih member notTop
        induction childs with
        | nil => simp
        | cons head rest ih =>
            obtain ⟨first, other⟩ := head
            rw [addressIn] at missing
            split at missing
            · cases missing
            · rename_i here
              intro key child member
              rcases List.mem_cons.mp member with same | later
              · cases same
                exact here
              · exact ih missing key child later
      rw [values, List.mem_cons, childValues_eq, List.mem_flatMap] at member
      rcases member with rfl | ⟨⟨key, child⟩, isChild, isValue⟩
      · exact Bool.eq_false_iff.mpr notTop
      · exact ih key child isChild (none key child isChild) isValue

/-! ## Changing an entry -/

/-- Change the tree at an address. The values on the way follow: `up value child changed` is the
    value of a node after a change of one of its children. -/
def modify (up : α → KeyedTree κ α → KeyedTree κ α → α) (f : KeyedTree κ α → KeyedTree κ α) :
    List κ → KeyedTree κ α → KeyedTree κ α
  | [], tree => f tree
  | key :: address, .node value childs =>
      match childAt key childs with
      | none => .node value childs
      | some child =>
          let changed := modify up f address child
          .node (up value child changed) (replaceChild key changed childs)

section Modify

variable {up : α → KeyedTree κ α → KeyedTree κ α → α} {f : KeyedTree κ α → KeyedTree κ α}

@[simp] theorem modify_nil (tree : KeyedTree κ α) : modify up f [] tree = f tree := rfl

theorem modify_cons_of_some {key : κ} {tree child : KeyedTree κ α}
    (found : childAt key tree.childs = some child) (address : List κ) :
    modify up f (key :: address) tree =
      .node (up tree.value child (modify up f address child))
        (replaceChild key (modify up f address child) tree.childs) := by
  obtain ⟨value, childs⟩ := tree
  rw [childs_node] at found
  simp only [modify, found, value_node, childs_node]

theorem modify_cons_of_none {key : κ} {tree : KeyedTree κ α}
    (missing : childAt key tree.childs = none) (address : List κ) :
    modify up f (key :: address) tree = tree := by
  obtain ⟨value, childs⟩ := tree
  rw [childs_node] at missing
  simp only [modify, missing]

theorem find?_modify_below {address : List κ} {tree found : KeyedTree κ α}
    (isFound : find? address tree = some found) (rest : List κ) :
    find? (address ++ rest) (modify up f address tree) = find? rest (f found) := by
  induction address generalizing tree with
  | nil =>
      cases isFound
      rfl
  | cons key address ih =>
      obtain ⟨child, isChild, later⟩ := Option.bind_eq_some_iff.mp isFound
      rw [modify_cons_of_some isChild, List.cons_append, find?_cons, childs_node,
        childAt_replaceChild, if_pos rfl, isChild, Option.map_some, Option.bind_some]
      exact ih later

/-- What is not on the way to the changed address, nor below it, is not changed. -/
theorem find?_modify_apart {address other : List κ} (notBelow : ¬ address <+: other)
    (notAbove : ¬ other <+: address) (tree : KeyedTree κ α) :
    find? other (modify up f address tree) = find? other tree := by
  induction address generalizing other tree with
  | nil => exact absurd List.nil_prefix notBelow
  | cons key address ih =>
      cases isChild : childAt key tree.childs with
      | none => rw [modify_cons_of_none isChild]
      | some child =>
          rw [modify_cons_of_some isChild]
          cases other with
          | nil => exact absurd List.nil_prefix notAbove
          | cons first other =>
              rw [find?_cons, find?_cons, childs_node, childAt_replaceChild]
              by_cases same : first = key
              · subst same
                rw [if_pos rfl, isChild, Option.map_some, Option.bind_some, Option.bind_some]
                apply ih
                · intro below
                  exact notBelow (List.cons_prefix_cons.mpr ⟨rfl, below⟩)
                · intro above
                  exact notAbove (List.cons_prefix_cons.mpr ⟨rfl, above⟩)
              · rw [if_neg same]

/-- What can be seen of the value at an address. -/
def observe (obs : α → β) (address : List κ) (tree : KeyedTree κ α) : Option β :=
  (find? address tree).map fun found => obs found.value

variable {obs : α → β}

theorem observe_append {address : List κ} {tree found : KeyedTree κ α}
    (isFound : find? address tree = some found) (rest : List κ) :
    observe obs (address ++ rest) tree = observe obs rest found := by
  rw [observe, find?_append, isFound, Option.bind_some, observe]

theorem observe_cons (key : κ) (address : List κ) (tree : KeyedTree κ α) :
    observe obs (key :: address) tree =
      (childAt key tree.childs).bind fun child => observe obs address child := by
  rw [observe, find?_cons]
  cases childAt key tree.childs <;> rfl

/-- Elsewhere nothing changes that can be seen, if it cannot be seen that the values follow. -/
theorem observe_modify_other (hidden : ∀ value child changed, obs (up value child changed) =
      obs value) {address other : List κ} (elsewhere : ¬ address <+: other) (tree : KeyedTree κ α) :
    observe obs other (modify up f address tree) = observe obs other tree := by
  induction address generalizing other tree with
  | nil => exact absurd List.nil_prefix elsewhere
  | cons key address ih =>
      cases isChild : childAt key tree.childs with
      | none => rw [modify_cons_of_none isChild]
      | some child =>
          rw [modify_cons_of_some isChild]
          cases other with
          | nil =>
              rw [observe, observe, find?_nil, find?_nil, Option.map_some, Option.map_some,
                value_node, hidden]
          | cons first other =>
              rw [observe_cons, observe_cons, childs_node, childAt_replaceChild]
              by_cases same : first = key
              · subst same
                have notBelow : ¬ address <+: other := by
                  intro below
                  exact elsewhere (List.cons_prefix_cons.mpr ⟨rfl, below⟩)
                rw [if_pos rfl, isChild, Option.map_some, Option.bind_some, Option.bind_some,
                  ih notBelow]
              · rw [if_neg same]

theorem observe_modify (hidden : ∀ value child changed, obs (up value child changed) = obs value)
    {address : List κ} {tree found : KeyedTree κ α} (isFound : find? address tree = some found)
    (other : List κ) : observe obs other (modify up f address tree) =
      if address <+: other then observe obs (other.drop address.length) (f found)
      else observe obs other tree := by
  split
  · rename_i below
    obtain ⟨rest, rfl⟩ := below
    rw [List.drop_left, observe, find?_modify_below isFound, observe]
  · rename_i elsewhere
    exact observe_modify_other hidden elsewhere tree

/-- What holds all over a tree holds after a change, if the change and the values that follow
    keep it. `R` is what the ways of a tree have in common before and after. -/
theorem All.modify {P : KeyedTree κ α → Prop} {R : KeyedTree κ α → KeyedTree κ α → Prop}
    {tree : KeyedTree κ α} (all : All P tree) {address : List κ}
    (changes : ∀ found, find? address tree = some found → All P found →
      All P (f found) ∧ R found (f found))
    (unchanged : ∀ tree, R tree tree)
    (follows : ∀ value childs key child changed, P (.node value childs) →
      childAt key childs = some child → R child changed →
        P (.node (up value child changed) (replaceChild key changed childs)) ∧
          R (.node value childs) (.node (up value child changed) (replaceChild key changed childs))) :
    All P (KeyedTree.modify up f address tree) ∧ R tree (KeyedTree.modify up f address tree) := by
  induction address generalizing tree with
  | nil => exact changes tree rfl all
  | cons key address ih =>
      cases isChild : childAt key tree.childs with
      | none =>
          rw [modify_cons_of_none isChild]
          exact ⟨all, unchanged tree⟩
      | some child =>
          rw [modify_cons_of_some isChild]
          obtain ⟨value, childs⟩ := tree
          have parts := all_node.mp all
          have later := ih (parts.2 key child (mem_of_childAt isChild)) (by
            intro found isFound
            apply changes
            rw [find?_cons, isChild]
            exact isFound)
          obtain ⟨here, related⟩ := follows value childs key child _ parts.1 isChild later.2
          refine ⟨.node here ?_, related⟩
          intro other sibling member
          obtain ⟨⟨first, old⟩, isOld, same⟩ := List.mem_map.mp member
          simp only at same
          split at same
          · cases same
            exact later.1
          · cases same
            exact parts.2 _ _ isOld

end Modify

/-! ## Children with different keys -/

theorem replaceChild_of_absent {key : κ} {childs : List (κ × KeyedTree κ α)}
    (absent : key ∉ childs.map Prod.fst) (tree : KeyedTree κ α) :
    replaceChild key tree childs = childs := by
  induction childs with
  | nil => rfl
  | cons head rest ih =>
      obtain ⟨first, child⟩ := head
      rw [List.map_cons, List.mem_cons, not_or] at absent
      rw [replaceChild, List.map_cons, ← replaceChild, ih absent.2, if_neg (Ne.symm absent.1)]

theorem eraseChild_of_absent {key : κ} {childs : List (κ × KeyedTree κ α)}
    (absent : key ∉ childs.map Prod.fst) : eraseChild key childs = childs := by
  rw [eraseChild, List.filter_eq_self]
  intro child member
  apply decide_eq_true
  intro same
  apply absent
  rw [← same]
  exact List.mem_map.mpr ⟨child, member, rfl⟩

theorem perm_of_childAt {key : κ} {child : KeyedTree κ α} {childs : List (κ × KeyedTree κ α)}
    (distinct : (childs.map Prod.fst).Nodup) (isChild : childAt key childs = some child) :
    childs.Perm ((key, child) :: eraseChild key childs) ∧
      ∀ tree, (replaceChild key tree childs).Perm ((key, tree) :: eraseChild key childs) := by
  induction childs with
  | nil => cases isChild
  | cons head rest ih =>
      obtain ⟨first, other⟩ := head
      rw [List.map_cons, List.nodup_cons] at distinct
      rw [childAt] at isChild
      by_cases isFirst : first = key
      · subst isFirst
        rw [if_pos rfl] at isChild
        cases isChild
        have erased : eraseChild first ((first, child) :: rest) = rest := by
          rw [eraseChild, List.filter_cons, ← eraseChild, eraseChild_of_absent distinct.1]
          simp
        rw [erased]
        refine ⟨List.Perm.refl _, ?_⟩
        intro tree
        rw [replaceChild, List.map_cons, ← replaceChild, replaceChild_of_absent distinct.1]
        simp
      · rw [if_neg isFirst] at isChild
        have erased : eraseChild key ((first, other) :: rest) =
            (first, other) :: eraseChild key rest := by
          rw [eraseChild, List.filter_cons, ← eraseChild]
          simp [isFirst]
        obtain ⟨before, after⟩ := ih distinct.2 isChild
        rw [erased]
        refine ⟨(before.cons _).trans (List.Perm.swap _ _ _), ?_⟩
        intro tree
        rw [replaceChild, List.map_cons, ← replaceChild]
        simp only [if_neg isFirst]
        exact ((after tree).cons _).trans (List.Perm.swap _ _ _)

theorem childValues_of_childAt {key : κ} {child : KeyedTree κ α}
    {childs : List (κ × KeyedTree κ α)} (distinct : (childs.map Prod.fst).Nodup)
    (isChild : childAt key childs = some child) :
    (childValues childs).Perm (child.values ++ childValues (eraseChild key childs)) ∧
      ∀ tree, (childValues (replaceChild key tree childs)).Perm
        (tree.values ++ childValues (eraseChild key childs)) := by
  obtain ⟨before, after⟩ := perm_of_childAt distinct isChild
  refine ⟨childValues_perm before, ?_⟩
  intro tree
  exact childValues_perm (after tree)

/-- What can be seen of the values of a tree: a change of an entry leaves the rest as it is. -/
theorem values_modify_perm {up : α → KeyedTree κ α → KeyedTree κ α → α} {obs : α → β}
    (hidden : ∀ value child changed, obs (up value child changed) = obs value)
    {tree : KeyedTree κ α} (unique : tree.UniqueKeys) {address : List κ} {found : KeyedTree κ α}
    (isFound : find? address tree = some found) :
    ∃ rest : List β, (tree.values.map obs).Perm (found.values.map obs ++ rest) ∧
      ∀ f : KeyedTree κ α → KeyedTree κ α,
        ((modify up f address tree).values.map obs).Perm ((f found).values.map obs ++ rest) := by
  induction address generalizing tree with
  | nil =>
      cases isFound
      refine ⟨[], ?_, ?_⟩
      · rw [List.append_nil]
      · intro f
        rw [List.append_nil, modify_nil]
  | cons key address ih =>
      obtain ⟨child, isChild, later⟩ := Option.bind_eq_some_iff.mp isFound
      obtain ⟨value, childs⟩ := tree
      have distinct := (uniqueKeys_node.mp unique).1
      have member : (key, child) ∈ childs := mem_of_childAt isChild
      obtain ⟨rest, before, after⟩ := ih ((uniqueKeys_node.mp unique).2 key child member) later
      obtain ⟨permBefore, permAfter⟩ := childValues_of_childAt distinct isChild
      have split : ∀ (top : α) (list : List (κ × KeyedTree κ α)) (tree : KeyedTree κ α)
          (front : List β),
          (childValues list).Perm (tree.values ++ childValues (eraseChild key childs)) →
          (tree.values.map obs).Perm (front ++ rest) →
          ((KeyedTree.node top list).values.map obs).Perm
            (front ++ (obs top :: (rest ++ (childValues (eraseChild key childs)).map obs))) := by
        intro top list tree front perm inside
        have flat : ((childValues list).map obs).Perm
            (tree.values.map obs ++ (childValues (eraseChild key childs)).map obs) := by
          rw [← List.map_append]
          exact perm.map obs
        rw [values, List.map_cons]
        apply List.Perm.trans (flat.cons _)
        apply List.Perm.trans ((inside.append_right _).cons _)
        rw [List.append_assoc]
        exact List.perm_middle.symm
      refine ⟨obs value :: (rest ++ (childValues (eraseChild key childs)).map obs), ?_, ?_⟩
      · exact split value childs child _ permBefore before
      · intro f
        rw [modify_cons_of_some isChild, ← hidden value child (modify up f address child)]
        exact split _ _ _ _ (permAfter _) (after f)

end KeyedTree
