import Mathlib.Data.List.Induction

/-! # Cells that are filled in any order

Values come into the cells of a list by their position, in any order and more than
once. A position after the end of the list makes it longer; the cells in between
are empty until their value comes.
-/

namespace SparseCells

variable {α : Type*} (position : α → Nat)

/-- Put a value into its cell, in place of the one there. -/
def store (cells : List (Option α)) (value : α) : List (Option α) :=
  if position value < cells.length then cells.set (position value) (some value)
  else
    cells ++ List.replicate (position value - cells.length) none ++ [some value]

/-- The cells hold these values only, each at its position, and end after the last of them. -/
structure Holds (values : List α) (cells : List (Option α)) : Prop where
  mem : ∀ {i : Nat} {value : α}, cells[i]? = some (some value) → value ∈ values ∧ position value = i
  filled : ∀ value ∈ values, ∃ newer, cells[position value]? = some (some newer)
  length : cells.length = (values.map (position · + 1)).foldl max 0

variable {position} {values : List α} {cells : List (Option α)} {value : α}

theorem length_store :
    (store position cells value).length = max cells.length (position value + 1) := by
  rw [store]
  split
  · rw [List.length_set]
    omega
  · simp only [List.length_append, List.length_replicate, List.length_singleton]
    omega

theorem getElem?_store (i : Nat) :
    (store position cells value)[i]? =
      if i = position value then some (some value)
      else if i < cells.length then cells[i]?
      else if i < position value then some none else none := by
  rw [store]
  split
  · rename_i inside
    by_cases same : i = position value
    · subst same
      rw [if_pos rfl, List.getElem?_set_self inside]
    · rw [if_neg same, List.getElem?_set_ne (Ne.symm same)]
      by_cases before : i < cells.length
      · rw [if_pos before]
      · rw [if_neg before, if_neg (by omega), List.getElem?_eq_none (by omega)]
  · rename_i outside
    by_cases before : i < cells.length
    · rw [if_neg (by omega), if_pos before, List.append_assoc, List.getElem?_append_left before]
    · rw [List.append_assoc, List.getElem?_append_right (by omega), if_neg before]
      by_cases between : i < position value
      · rw [if_neg (by omega), if_pos between,
          List.getElem?_append_left (by rw [List.length_replicate]; omega),
          List.getElem?_replicate_of_lt (by omega)]
      · rw [List.getElem?_append_right (by rw [List.length_replicate]; omega),
          List.length_replicate, if_neg between]
        by_cases same : i = position value
        · rw [if_pos same, show i - cells.length - (position value - cells.length) = 0 by omega]
          rfl
        · rw [if_neg same]
          exact List.getElem?_eq_none (by simp only [List.length_singleton]; omega)

theorem holds_nil : Holds position [] [] where
  mem found := by simp at found
  filled := by simp
  length := rfl

theorem Holds.store (holds : Holds position values cells) (value : α) :
    Holds position (values ++ [value]) (store position cells value) where
  mem {i found} := by
    intro isCell
    rw [getElem?_store] at isCell
    split at isCell
    · rename_i same
      obtain rfl := Option.some.inj (Option.some.inj isCell)
      exact ⟨by simp, same.symm⟩
    · split at isCell
      · obtain ⟨member, isPosition⟩ := holds.mem isCell
        exact ⟨List.mem_append_left _ member, isPosition⟩
      · split at isCell <;> simp at isCell
  filled := by
    intro known member
    rw [getElem?_store]
    by_cases same : position known = position value
    · exact ⟨value, by rw [if_pos same]⟩
    · have isOld : known ∈ values := by
        rcases List.mem_append.mp member with isOld | isNew
        · exact isOld
        · exact absurd (congrArg position (List.mem_singleton.mp isNew)) same
      obtain ⟨newer, isCell⟩ := holds.filled known isOld
      obtain ⟨inside, _⟩ := List.getElem?_eq_some_iff.mp isCell
      exact ⟨newer, by rw [if_neg same, if_pos inside, isCell]⟩
  length := by
    rw [length_store, holds.length, List.map_append, List.foldl_append]
    rfl

theorem holds_foldl_store (values : List α) :
    Holds position values (values.foldl (SparseCells.store position) []) := by
  induction values using List.reverseRecOn with
  | nil => exact holds_nil
  | append_singleton front value ih =>
      rw [List.foldl_append]
      exact ih.store value

end SparseCells
