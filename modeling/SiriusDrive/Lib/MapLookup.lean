import Std.Data.TreeMap.Lemmas
import Mathlib.Logic.Basic

/-! # Look-ups in a changed map

The look-ups of an ordered map after an insertion or a removal, by equality of
keys instead of their comparison.
-/

namespace Std.TreeMap

variable {κ α : Type*} {cmp : κ → κ → Ordering} [TransCmp cmp] [LawfulEqCmp cmp] [DecidableEq κ]
  (t : TreeMap κ α cmp) (k a : κ) (v : α)

theorem getElem?_insert_eq : (t.insert k v)[a]? = if a = k then some v else t[a]? := by
  rw [getElem?_insert]
  by_cases same : a = k
  · subst same
    simp
  · have apart : ¬ cmp k a = .eq := by
      intro equal
      exact same (LawfulEqCmp.compare_eq_iff_eq.mp equal).symm
    simp [same, apart]

theorem getElem?_insertIfNew_eq :
    (t.insertIfNew k v)[a]? = if a = k then some ((t[a]?).getD v) else t[a]? := by
  rw [getElem?_insertIfNew]
  by_cases same : a = k
  · subst same
    simp only [ReflCmp.compare_self, true_and, if_true]
    split
    · rename_i absent
      rw [getElem?_eq_none absent]
      rfl
    · rename_i present
      cases found : t[a]? with
      | none => simp [mem_iff_isSome_getElem?, found] at present
      | some value => rfl
  · have apart : ¬ cmp k a = .eq := by
      intro equal
      exact same (LawfulEqCmp.compare_eq_iff_eq.mp equal).symm
    simp [same, apart]

theorem getElem?_erase_eq : (t.erase k)[a]? = if a = k then none else t[a]? := by
  rw [getElem?_erase]
  by_cases same : a = k
  · subst same
    simp
  · have apart : ¬ cmp k a = .eq := by
      intro equal
      exact same (LawfulEqCmp.compare_eq_iff_eq.mp equal).symm
    simp [same, apart]

/-! ## The first entry from a key on -/

section LowerBound

variable {κ α : Type*} {cmp : κ → κ → Ordering} (t : TreeMap κ α cmp) (k : κ)

/-- The first entry whose key is not less than `k`. -/
def lowerBound : Option (κ × α) := t.toList.find? fun entry => (cmp entry.1 k).isGE

variable {t k}

theorem lowerBound_eq_none [TransCmp cmp] [LawfulEqCmp cmp] :
    t.lowerBound k = none ↔ ∀ a v, t[a]? = some v → cmp a k = .lt := by
  unfold lowerBound
  rw [List.find?_eq_none]
  constructor
  · intro below a v found
    have least := below (a, v) (mem_toList_iff_getElem?_eq_some.mpr found)
    cases order : cmp a k <;> simp_all
  · rintro below ⟨a, v⟩ member
    have least := below a v (mem_toList_iff_getElem?_eq_some.mp member)
    simp [least]

theorem getElem?_of_lowerBound [TransCmp cmp] [LawfulEqCmp cmp] {a : κ} {v : α}
    (found : t.lowerBound k = some (a, v)) : t[a]? = some v :=
  mem_toList_iff_getElem?_eq_some.mp (List.mem_of_find?_eq_some found)

theorem lowerBound_of_getElem? [TransCmp cmp] [LawfulEqCmp cmp] {v : α} (found : t[k]? = some v) :
    t.lowerBound k = some (k, v) := by
  unfold lowerBound
  have member := mem_toList_iff_getElem?_eq_some.mpr found
  obtain ⟨before, after, shape⟩ := List.append_of_mem member
  have same : cmp k k = .eq := ReflCmp.compare_self
  rw [List.find?_eq_some_iff_append]
  refine ⟨by simp [same], before, after, shape, ?_⟩
  rintro ⟨a, v'⟩ earlier
  have ordered := t.ordered_keys_toList
  rw [shape, List.pairwise_append] at ordered
  have less := ordered.2.2 (a, v') earlier (k, v) List.mem_cons_self
  simp [less]

end LowerBound

end Std.TreeMap
