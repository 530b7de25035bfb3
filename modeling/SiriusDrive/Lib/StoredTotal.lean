import Mathlib.Algebra.BigOperators.Group.Finset.Basic
import Mathlib.Algebra.Order.BigOperators.Group.Finset

/-! # Totals over a store

The sum of the sizes that a store has for some of its keys. A key without a value adds
nothing.
-/

def storedTotal {κ : Type*} (store : κ → Option Nat) (keys : Finset κ) : Nat :=
  ∑ key ∈ keys, (store key).getD 0

namespace StoredTotal

variable {κ : Type*} {store other : κ → Option Nat} {keys smaller : Finset κ} {key old new : κ}

theorem congr (agree : ∀ key ∈ keys, other key = store key) :
    storedTotal other keys = storedTotal store keys := by
  apply Finset.sum_congr rfl
  intro key member
  rw [agree key member]

theorem mono (subset : smaller ⊆ keys) : storedTotal store smaller ≤ storedTotal store keys :=
  Finset.sum_le_sum_of_subset subset

@[simp] theorem empty : storedTotal store ∅ = 0 := rfl

section

variable [DecidableEq κ]

theorem union (disjoint : Disjoint smaller keys) :
    storedTotal store (smaller ∪ keys) = storedTotal store smaller + storedTotal store keys :=
  Finset.sum_union disjoint

theorem sdiff (subset : smaller ⊆ keys) :
    storedTotal store (keys \ smaller) + storedTotal store smaller = storedTotal store keys :=
  Finset.sum_sdiff subset

theorem insert_new (isNew : key ∉ keys) :
    storedTotal store (insert key keys) = (store key).getD 0 + storedTotal store keys :=
  Finset.sum_insert isNew

theorem erase (member : key ∈ keys) :
    (store key).getD 0 + storedTotal store (keys.erase key) = storedTotal store keys :=
  Finset.add_sum_erase keys (fun key => (store key).getD 0) member

theorem update_other (isOther : key ∉ keys) (value : Option Nat) :
    storedTotal (Function.update store key value) keys = storedTotal store keys := by
  apply congr
  intro other member
  apply Function.update_of_ne
  intro same
  exact isOther (same ▸ member)

theorem update (member : key ∈ keys) (size : Nat) :
    storedTotal (Function.update store key (some size)) keys + (store key).getD 0 =
      storedTotal store keys + size := by
  rw [← erase member, ← erase member, update_other (Finset.notMem_erase key keys),
    Function.update_self, Option.getD_some]
  omega

theorem rename (member : old ∈ keys) :
    storedTotal (Function.update (Function.update store old none) new (store old))
        (insert new (keys.erase old)) ≤ storedTotal store keys := by
  have later : storedTotal (Function.update (Function.update store old none) new (store old))
      ((keys.erase old).erase new) = storedTotal store ((keys.erase old).erase new) := by
    apply congr
    intro key isKept
    rw [Function.update_of_ne (Finset.ne_of_mem_erase isKept), Function.update_of_ne]
    exact Finset.ne_of_mem_erase (Finset.mem_of_mem_erase isKept)
  have less : storedTotal store ((keys.erase old).erase new) ≤ storedTotal store (keys.erase old) :=
    mono (Finset.erase_subset new _)
  have here : (store old).getD 0 + storedTotal store (keys.erase old) = storedTotal store keys :=
    erase member
  have same : insert new (keys.erase old) = insert new ((keys.erase old).erase new) := by
    grind
  rw [same, insert_new (Finset.notMem_erase new _), Function.update_self, later]
  omega

theorem erased : storedTotal (Function.update store old none) (keys.erase old) =
    storedTotal store (keys.erase old) :=
  update_other (Finset.notMem_erase old keys) none

end

end StoredTotal
