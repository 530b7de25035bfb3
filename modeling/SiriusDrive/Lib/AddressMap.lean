import Mathlib.Data.List.Basic

/-! # Maps from addresses

What a tree with keys holds, without the tree: a value, or nothing, under every
list of keys. Changes of a tree are changes of such a map.
-/

/-- What is found under every address. -/
def AddressMap (κ α : Type*) := List κ → Option α

namespace AddressMap

variable {κ α : Type*} (contents other : AddressMap κ α) (address names : List κ)

@[ext]
theorem ext {contents other : AddressMap κ α} (same : ∀ names, contents names = other names) :
    contents = other := funext same

def below : AddressMap κ α := fun names => contents (address ++ names)

/-- A value with nothing below it. -/
def leaf (value : α) : AddressMap κ α
  | [] => some value
  | _ :: _ => none

/-- Change the value on top. -/
def mapTop (f : α → α) : AddressMap κ α
  | [] => (contents []).map f
  | key :: names => contents (key :: names)

section Changes

variable [DecidableEq κ]

/-- Take away what is at an address and below. -/
def remove : AddressMap κ α := fun names => if address <+: names then none else contents names

/-- Put something at an address, in the place of all that was there and below. -/
def put : AddressMap κ α := fun names =>
  if address <+: names then other (names.drop address.length) else contents names

/-- Make what is missing on the way to an address. -/
def fill (make : List κ → α) : AddressMap κ α := fun names =>
  if names <+: address then some ((contents names).getD (make names)) else contents names

/-- Change the value at an address. -/
def mapAt (f : α → α) : AddressMap κ α := fun names =>
  if names = address then (contents names).map f else contents names

/-- Put a value at an address, unless there is one. -/
def supply (value : α) : AddressMap κ α := fun names =>
  if names = address then some ((contents names).getD value) else contents names

/-- Put values at addresses in turn. -/
def supplyAll (entries : List (List κ × α)) : AddressMap κ α :=
  entries.foldl (fun contents entry => contents.supply entry.1 entry.2) contents

/-- Something on the way to an address has a property that stops the way. -/
def Stops (p : α → Prop) : Prop :=
  ∃ front value, front <+: address ∧ contents front = some value ∧ p value

variable {contents other address names}

theorem put_below : contents.put other address (address ++ names) = other names := by
  rw [put, if_pos (List.prefix_append _ _), List.drop_left]

theorem put_elsewhere (elsewhere : ¬ address <+: names) :
    contents.put other address names = contents names := if_neg elsewhere

theorem remove_elsewhere (elsewhere : ¬ address <+: names) :
    contents.remove address names = contents names := if_neg elsewhere

theorem fill_of_some {make : List κ → α} {value : α} (isThere : contents names = some value) :
    contents.fill address make names = some value := by
  rw [fill, isThere]
  split <;> rfl

theorem fill_eq_self {make : List κ → α}
    (isThere : ∀ front, front <+: address → (contents front).isSome) :
    contents.fill address make = contents := by
  ext names : 1
  rw [fill]
  split
  · rename_i onWay
    obtain ⟨value, isValue⟩ := Option.isSome_iff_exists.mp (isThere names onWay)
    rw [isValue]
    rfl
  · rfl

theorem mapAt_of_ne {f : α → α} (elsewhere : names ≠ address) :
    contents.mapAt address f names = contents names := if_neg elsewhere

theorem supplyAll_apply (entries : List (List κ × α)) :
    contents.supplyAll entries names =
      (contents names).or ((entries.find? (·.1 = names)).map Prod.snd) := by
  induction entries generalizing contents with
  | nil => rw [supplyAll, List.foldl_nil, List.find?_nil, Option.map_none, Option.or_none]
  | cons entry entries ih =>
      have step : contents.supplyAll (entry :: entries) =
          (contents.supply entry.1 entry.2).supplyAll entries := rfl
      rw [step, ih, supply, List.find?_cons]
      by_cases here : entry.1 = names
      · rw [if_pos here.symm, Option.some_or, decide_eq_true here, Option.map_some]
        cases contents names <;> rfl
      · rw [if_neg (Ne.symm here), decide_eq_false here]

theorem supplyAll_elsewhere {entries : List (List κ × α)}
    (elsewhere : ∀ entry ∈ entries, entry.1 ≠ names) :
    contents.supplyAll entries names = contents names := by
  have notFound : entries.find? (·.1 = names) = none := by
    rw [List.find?_eq_none]
    intro entry member
    simpa using elsewhere entry member
  rw [supplyAll_apply, notFound, Option.map_none, Option.or_none]

end Changes

/-! ## Entries -/

/-- `P` holds of the last key and the value of every entry below the top. -/
def EveryEntry (P : κ → α → Prop) (contents : AddressMap κ α) : Prop :=
  ∀ front key value, contents (front ++ [key]) = some value → P key value

section EveryEntry

variable [DecidableEq κ] {P : κ → α → Prop} {contents other : AddressMap κ α}
  {address names : List κ}

omit [DecidableEq κ] in
theorem everyEntry_leaf (value : α) : EveryEntry P (leaf value) := by
  intro front key other isThere
  cases front <;> cases isThere

omit [DecidableEq κ] in
theorem EveryEntry.below (every : contents.EveryEntry P) : (contents.below address).EveryEntry P := by
  intro front key value isThere
  apply every (address ++ front)
  rw [List.append_assoc]
  exact isThere

omit [DecidableEq κ] in
theorem EveryEntry.mapTop (every : contents.EveryEntry P) (f : α → α) :
    (contents.mapTop f).EveryEntry P := by
  intro front key value isThere
  apply every front
  cases front <;> exact isThere

theorem EveryEntry.remove (every : contents.EveryEntry P) : (contents.remove address).EveryEntry P := by
  intro front key value isThere
  rw [AddressMap.remove] at isThere
  split at isThere
  · cases isThere
  · exact every front key value isThere

theorem EveryEntry.put {front : List κ} {key : κ} (every : contents.EveryEntry P)
    (inner : other.EveryEntry P) (top : ∀ value, other [] = some value → P key value) :
    (contents.put other (front ++ [key])).EveryEntry P := by
  intro before last value isThere
  rw [AddressMap.put] at isThere
  split at isThere
  · rename_i inside
    rcases List.prefix_concat_iff.mp inside with same | below
    · obtain ⟨rfl, rfl⟩ : front = before ∧ key = last := by simpa using same
      rw [List.drop_length] at isThere
      exact top value isThere
    · rw [List.drop_append_of_le_length below.length_le] at isThere
      exact inner _ last value isThere
  · exact every before last value isThere

theorem EveryEntry.fill {make : List κ → α} (every : contents.EveryEntry P)
    (makes : ∀ front key, front ++ [key] <+: address → P key (make (front ++ [key]))) :
    (contents.fill address make).EveryEntry P := by
  intro front key value isThere
  rw [AddressMap.fill] at isThere
  split at isThere
  · rename_i onWay
    cases found : contents (front ++ [key]) with
    | none =>
        rw [found] at isThere
        cases isThere
        exact makes front key onWay
    | some old =>
        rw [found] at isThere
        cases isThere
        exact every front key old found
  · exact every front key value isThere

theorem EveryEntry.mapAt {f : α → α} (every : contents.EveryEntry P)
    (keeps : ∀ key value, P key value → P key (f value)) : (contents.mapAt address f).EveryEntry P := by
  intro front key value isThere
  rw [AddressMap.mapAt] at isThere
  split at isThere
  · obtain ⟨old, isOld, rfl⟩ := Option.map_eq_some_iff.mp isThere
    exact keeps key old (every front key old isOld)
  · exact every front key value isThere

theorem EveryEntry.supplyAll {entries : List (List κ × α)} (every : contents.EveryEntry P)
    (supplies : ∀ front key value, (front ++ [key], value) ∈ entries → P key value) :
    (contents.supplyAll entries).EveryEntry P := by
  intro front key value isThere
  rw [supplyAll_apply] at isThere
  rcases Option.or_eq_some_iff.mp isThere with old | ⟨_, new⟩
  · exact every front key value old
  · obtain ⟨entry, isEntry, rfl⟩ := Option.map_eq_some_iff.mp new
    have here : entry.1 = front ++ [key] := by simpa using List.find?_some isEntry
    apply supplies front key
    rw [← here]
    exact List.mem_of_find?_eq_some isEntry

end EveryEntry

end AddressMap
