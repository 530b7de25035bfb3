import SiriusDrive.Lib.KeyedTree

/-! # Walking through a tree

All entries below a node with their addresses, in the order of a walk that visits a node
before its children. With different keys each entry is visited once.
-/

namespace KeyedTree

variable {κ α : Type*}

mutual

def entriesBelow (address : List κ) : KeyedTree κ α → List (List κ × KeyedTree κ α)
  | .node _ childs => childEntries address childs

/-- The entries of some children, whose parent is at an address. -/
def childEntries (address : List κ) :
    List (κ × KeyedTree κ α) → List (List κ × KeyedTree κ α)
  | [] => []
  | (key, child) :: rest =>
      (address ++ [key], child) ::
        (entriesBelow (address ++ [key]) child ++ childEntries address rest)

end

theorem mem_childEntries {address : List κ} {childs : List (κ × KeyedTree κ α)}
    {entry : List κ × KeyedTree κ α} : entry ∈ childEntries address childs ↔
      ∃ key child, (key, child) ∈ childs ∧
        (entry = (address ++ [key], child) ∨ entry ∈ entriesBelow (address ++ [key]) child) := by
  induction childs with
  | nil => simp [childEntries]
  | cons head rest ih =>
      obtain ⟨first, sibling⟩ := head
      rw [childEntries, List.mem_cons, List.mem_append, ih]
      constructor
      · rintro (here | below | ⟨key, child, member, found⟩)
        · exact ⟨first, sibling, List.mem_cons_self, .inl here⟩
        · exact ⟨first, sibling, List.mem_cons_self, .inr below⟩
        · exact ⟨key, child, List.mem_cons_of_mem _ member, found⟩
      · rintro ⟨key, child, member, found⟩
        rcases List.mem_cons.mp member with same | later
        · cases same
          exact found.imp_right .inl
        · exact .inr (.inr ⟨key, child, later, found⟩)

theorem prefix_of_mem_entriesBelow {address : List κ} {tree : KeyedTree κ α}
    {entry : List κ × KeyedTree κ α} (member : entry ∈ entriesBelow address tree) :
    address <+: entry.1 := by
  induction tree using induct generalizing address with
  | node value childs ih =>
      rw [entriesBelow, mem_childEntries] at member
      obtain ⟨key, child, isChild, rfl | below⟩ := member
      · exact List.prefix_append _ _
      · exact (List.prefix_append _ _).trans (ih key child isChild below)

theorem key_of_mem_childEntries {address : List κ} {childs : List (κ × KeyedTree κ α)}
    {entry : List κ × KeyedTree κ α} (member : entry ∈ childEntries address childs) :
    ∃ key ∈ childs.map Prod.fst, address ++ [key] <+: entry.1 := by
  obtain ⟨key, child, isChild, rfl | below⟩ := mem_childEntries.mp member
  · exact ⟨key, List.mem_map.mpr ⟨_, isChild, rfl⟩, List.prefix_refl _⟩
  · exact ⟨key, List.mem_map.mpr ⟨_, isChild, rfl⟩, prefix_of_mem_entriesBelow below⟩

theorem ne_of_mem_entriesBelow {address : List κ} {tree : KeyedTree κ α}
    {entry : List κ × KeyedTree κ α} (member : entry ∈ entriesBelow address tree) :
    entry.1 ≠ address := by
  obtain ⟨value, childs⟩ := tree
  obtain ⟨key, _, under⟩ := key_of_mem_childEntries member
  intro same
  have longer := under.length_le
  rw [same, List.length_append, List.length_singleton] at longer
  omega

theorem eq_of_prefix_concat {address path : List κ} {key other : κ}
    (first : address ++ [key] <+: path) (second : address ++ [other] <+: path) : key = other := by
  have same : (address ++ [key]) = (address ++ [other]) := by
    apply (List.prefix_of_prefix_length_le first second _).eq_of_length
    · simp
    · simp
  simpa using same

theorem nodup_entriesBelow {tree : KeyedTree κ α} (unique : tree.UniqueKeys) (address : List κ) :
    ((entriesBelow address tree).map Prod.fst).Nodup := by
  induction tree using induct generalizing address with
  | node value childs ih =>
      obtain ⟨distinct, inner⟩ := uniqueKeys_node.mp unique
      rw [entriesBelow]
      clear unique
      induction childs with
      | nil => exact List.nodup_nil
      | cons head rest ihRest =>
          obtain ⟨key, child⟩ := head
          rw [List.map_cons, List.nodup_cons] at distinct
          have later := ihRest (fun key child member => ih key child (List.mem_cons_of_mem _ member))
            distinct.2 (fun key child member => inner key child (List.mem_cons_of_mem _ member))
          have here := ih key child List.mem_cons_self
            (inner key child List.mem_cons_self) (address ++ [key])
          have apart : ∀ path ∈ (childEntries address rest).map Prod.fst,
              ¬ address ++ [key] <+: path := by
            intro path isPath below
            obtain ⟨entry, member, rfl⟩ := List.mem_map.mp isPath
            obtain ⟨other, isOther, under⟩ := key_of_mem_childEntries member
            rw [eq_of_prefix_concat below under] at distinct
            exact distinct.1 isOther
          have inside : ∀ path ∈ (entriesBelow (address ++ [key]) child).map Prod.fst,
              address ++ [key] <+: path := by
            intro path isPath
            obtain ⟨entry, member, rfl⟩ := List.mem_map.mp isPath
            exact prefix_of_mem_entriesBelow member
          rw [childEntries, List.map_cons, List.map_append, List.nodup_cons, List.nodup_append']
          refine ⟨?_, here, later, ?_⟩
          · rw [List.mem_append, not_or]
            refine ⟨?_, fun member => apart _ member (List.prefix_refl _)⟩
            intro member
            -- a child is not below itself
            obtain ⟨entry, isEntry, same⟩ := List.mem_map.mp member
            exact absurd same (ne_of_mem_entriesBelow isEntry)
          · intro path first second
            exact apart path second (inside path first)

/-- The entries below a tree are those found at the addresses below it. -/
theorem mem_entriesBelow_iff [DecidableEq κ] {tree : KeyedTree κ α} (unique : tree.UniqueKeys)
    {address path : List κ} {entry : KeyedTree κ α} :
    (path, entry) ∈ entriesBelow address tree ↔
      ∃ rest, rest ≠ [] ∧ path = address ++ rest ∧ find? rest tree = some entry := by
  induction tree using induct generalizing address with
  | node value childs ih =>
      obtain ⟨distinct, inner⟩ := uniqueKeys_node.mp unique
      rw [entriesBelow, mem_childEntries]
      constructor
      · rintro ⟨key, child, isChild, same | below⟩
        · cases same
          refine ⟨[key], by simp, rfl, ?_⟩
          rw [find?_cons, childs_node, childAt_of_mem distinct isChild]
          rfl
        · obtain ⟨rest, _, rfl, found⟩ := (ih key child isChild (inner key child isChild)).mp below
          refine ⟨key :: rest, by simp, by simp, ?_⟩
          rw [find?_cons, childs_node, childAt_of_mem distinct isChild]
          exact found
      · rintro ⟨rest, notEmpty, rfl, found⟩
        cases rest with
        | nil => exact absurd rfl notEmpty
        | cons key rest =>
            obtain ⟨child, isChild, later⟩ := Option.bind_eq_some_iff.mp found
            have member : (key, child) ∈ childs := mem_of_childAt isChild
            refine ⟨key, child, member, ?_⟩
            cases rest with
            | nil =>
                cases later
                exact .inl rfl
            | cons next rest =>
                right
                apply (ih key child member (inner key child member)).mpr
                exact ⟨next :: rest, by simp, by simp, later⟩

end KeyedTree
