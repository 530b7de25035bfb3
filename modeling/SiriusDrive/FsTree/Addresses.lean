import SiriusDrive.FsTree.EntryNames

/-! # Addresses

An entry is found by the keys on the way to it, joined by separators, as long as all of them are
names a path can hold. Nothing checks the names that come to a tree.
-/

namespace SiriusDrive

open KeyedTree

/-- A key that can be the name of an entry in a path. -/
def IsName (key : String) : Prop := key ≠ "" ∧ '/' ∉ key.toList

instance decidableIsName : DecidablePred IsName := fun key =>
  inferInstanceAs (Decidable (key ≠ "" ∧ '/' ∉ key.toList))

/-- The path of an entry, spelled from the root. -/
def joined (address : List String) : String := String.intercalate "/" address

namespace FsPath

variable {address : List String}

theorem toList_joined (address : List String) :
    (joined address).toList = ['/'].intercalate (address.map String.toList) := by
  rw [joined, String.toList_intercalate]
  rfl

theorem names_joined (isName : ∀ key ∈ address, IsName key) (notRoot : address ≠ []) :
    names (joined address) = address := by
  have noSeparator : ∀ chars ∈ address.map String.toList, '/' ∉ chars := by
    intro chars member
    obtain ⟨key, isKey, rfl⟩ := List.mem_map.mp member
    exact (isName key isKey).2
  have notEmpty : address.map String.toList ≠ [] := by
    rw [ne_eq, List.map_eq_nil_iff]
    exact notRoot
  rw [names, toList_joined, List.splitOn_intercalate '/' noSeparator notEmpty, List.map_map,
    List.filter_eq_self.mpr]
  · simp
  · intro key member
    simp only [List.mem_map, Function.comp_apply, String.ofList_toList, exists_eq_right] at member
    exact decide_eq_true (isName key member).1

theorem head?_intercalate {parts : List (List Char)} (noSeparator : ∀ part ∈ parts, '/' ∉ part)
    (notEmpty : ∀ part ∈ parts, part ≠ []) : (['/'].intercalate parts).head? ≠ some '/' := by
  cases parts with
  | nil => simp
  | cons first rest =>
      cases first with
      | nil => exact absurd rfl (notEmpty [] List.mem_cons_self)
      | cons char chars =>
          have other : char ≠ '/' := by
            rintro rfl
            exact noSeparator _ List.mem_cons_self List.mem_cons_self
          cases rest with
          | nil => simpa using other
          | cons next rest => simpa [List.intercalate_cons_cons] using other

theorem getLast?_intercalate {parts : List (List Char)} (noSeparator : ∀ part ∈ parts, '/' ∉ part)
    (notEmpty : ∀ part ∈ parts, part ≠ []) : (['/'].intercalate parts).getLast? ≠ some '/' := by
  induction parts with
  | nil => simp
  | cons first rest ih =>
      have here := noSeparator first List.mem_cons_self
      cases rest with
      | nil =>
          rw [List.intercalate_singleton]
          intro last
          exact here (List.mem_of_getLast? last)
      | cons next rest =>
          have later := ih (fun part member => noSeparator part (List.mem_cons_of_mem _ member))
            fun part member => notEmpty part (List.mem_cons_of_mem _ member)
          have isPart : ['/'].intercalate (next :: rest) ≠ [] := by
            cases rest with
            | nil =>
                rw [List.intercalate_singleton]
                exact notEmpty next (by simp)
            | cons _ _ => simp [List.intercalate_cons_cons]
          rw [List.intercalate_cons_cons, List.getLast?_append_of_ne_nil _ isPart]
          exact later

theorem keys_parse_joined (isName : ∀ key ∈ address, IsName key) (notRoot : address ≠ []) :
    (parse (joined address)).keys = address := by
  have noSeparator : ∀ chars ∈ address.map String.toList, '/' ∉ chars := by
    intro chars member
    obtain ⟨key, isKey, rfl⟩ := List.mem_map.mp member
    exact (isName key isKey).2
  have notEmpty : ∀ chars ∈ address.map String.toList, chars ≠ [] := by
    intro chars member
    obtain ⟨key, isKey, rfl⟩ := List.mem_map.mp member
    simpa using (isName key isKey).1
  have elements : (parse (joined address)).elements = address := by
    change spelled (joined address) = address
    rw [spelled, names_joined isName notRoot, toList_joined,
      if_neg (head?_intercalate noSeparator notEmpty),
      if_neg (fun ends => getLast?_intercalate noSeparator notEmpty ends.2), List.nil_append,
      List.append_nil]
  rw [keys_eq_elements, elements]
  · rw [elements]
    rintro rfl
    exact absurd (isName "/" List.mem_cons_self).2 (by decide)
  · rw [elements]
    exact notRoot

end FsPath

namespace FsEntry

variable {root : FsEntry}

/-- Every entry is found by the names on the way to it. -/
structure IsAddressable (root : FsEntry) : Prop where
  isFound : ∀ address entry, address ≠ [] → find? address root = some entry →
    getEntryPtr (.parse (joined address)) root = some entry
  isName : ∀ address entry, find? address root = some entry → ∀ key ∈ address, IsName key

theorem isAddressable_iff (wellFormed : WellFormed root) :
    IsAddressable root ↔ root.contents.EveryEntry fun key _ => IsName key := by
  constructor
  · intro addressable front key info isThere
    obtain ⟨entry, isFound, _⟩ := Option.map_eq_some_iff.mp isThere
    exact addressable.isName _ entry isFound key
      (List.mem_append_right _ (List.mem_singleton_self key))
  · intro every
    have isName : ∀ address entry, find? address root = some entry → ∀ key ∈ address, IsName key := by
      intro address entry isFound
      apply FsContents.names_of_everyEntry every
      intro front onWay
      apply FsTreeState.isSome_contents_above onWay
      rw [contents_of_find? isFound]
      rfl
    refine ⟨?_, isName⟩
    intro address entry notRoot isFound
    apply getEntryPtr_of_find? wellFormed
    rw [FsPath.keys_parse_joined (isName address entry isFound) notRoot]
    exact isFound

end FsEntry

namespace FsTreeState

open Transition

/-- Every entry of the tree of a state is addressable. -/
def IsAddressable (state : FsTreeState) : Prop := FsEntry.IsAddressable state.fsTree.1

/-- What an operation puts into the tree comes there under names. -/
def AddsNames (state : FsTreeState) (operation : FsTreeOperation) : Prop :=
  state.contents.Adds (fun key _ => IsName key) operation

theorem isAddressable_iff (state : FsTreeState) :
    state.IsAddressable ↔ state.contents.EveryEntry fun key _ => IsName key :=
  FsEntry.isAddressable_iff state.fsTree.2.wellFormed

theorem isAddressable_perform {state after : FsTreeState} {operation : FsTreeOperation}
    (addressable : state.IsAddressable) (performed : state.perform operation = some after) :
    after.IsAddressable ↔ state.AddsNames operation := by
  rw [isAddressable_iff, contents_perform performed]
  exact FsContents.everyEntry_operate_iff ((isAddressable_iff state).mp addressable) operation

/-- The entries of a tree are always addressable exactly when they are so at the start and nothing
    is put into the tree under a key that is empty or has a separator in it. -/
theorem isAddressable_always_iff {state last : FsTreeState} {operations : List FsTreeOperation}
    (run : operationSystem.exec state operations = some last) :
    operationSystem.Always IsAddressable state operations ↔
      state.IsAddressable ∧ operationSystem.Meets AddsNames state operations := by
  have iff : state.IsAddressable → (operationSystem.Always IsAddressable state operations ↔
      operationSystem.Meets AddsNames state operations) := by
    intro addressable
    apply operationSystem.always_iff_meets (fun _ => id) _ _ operations addressable
      (operationSystem.meets_enabled run)
    · intro state operation after addressable _ adds performed
      exact (isAddressable_perform addressable performed).mpr adds
    · intro state operation addressable enabled notAdds
      obtain ⟨after, performed⟩ := Option.isSome_iff_exists.mp enabled
      refine ⟨after, performed, ?_⟩
      intro later
      exact notAdds ((isAddressable_perform addressable performed).mp later)
  constructor
  · intro always
    exact ⟨always.head, (iff always.head).mp always⟩
  · rintro ⟨addressable, adds⟩
    exact (iff addressable).mpr adds

theorem isAddressable_empty : empty.IsAddressable := by
  rw [isAddressable_iff]
  intro front key info isThere
  cases front <;> cases isThere

/-- A file that is put into a new folder. -/
theorem isAddressable_always_iff_folder :
    operationSystem.Always IsAddressable empty [.addFile "a" "b" 7 10] := by
  have run : operationSystem.exec empty [.addFile "a" "b" 7 10] =
      some ((empty.perform (.addFile "a" "b" 7 10)).getD empty) := rfl
  have names : ∀ name ∈ (FsPath.parse "a").elements, IsName name := by decide +kernel
  refine (isAddressable_always_iff run).mpr ⟨isAddressable_empty, ?_, fun _ _ => trivial⟩
  exact fun _ => ⟨names, by decide⟩

/-- A file whose name has a separator in it. -/
def separatedName : FsTreeState :=
  (empty.perform (.addFile "" "x/y" 7 10)).getD empty

theorem not_isAddressable_separator : ¬ ∀ (operations : List FsTreeOperation) (last : FsTreeState),
    operationSystem.exec empty operations = some last → last.IsAddressable := by
  intro all
  have addressable := all [.addFile "" "x/y" 7 10] separatedName rfl
  have isThere : (find? ["x/y"] separatedName.fsTree.1).isSome = true := by decide +kernel
  obtain ⟨entry, isFound⟩ := Option.isSome_iff_exists.mp isThere
  have found := addressable.isFound ["x/y"] entry (List.cons_ne_nil _ _) isFound
  have missing : (FsEntry.getEntryPtr (.parse (joined ["x/y"])) separatedName.fsTree.1).isNone := by
    decide +kernel
  rw [found] at missing
  cases missing

end FsTreeState

end SiriusDrive
