import Std.Data.TreeMap.Lemmas
import Mathlib.Algebra.BigOperators.Group.Finset.Basic
import Mathlib.Algebra.Order.BigOperators.Group.List
import Mathlib.Algebra.Order.Ring.Nat
import SiriusDrive.Lib.MapLookup

/-! # Sums over the entries of an ordered map

What one insertion does to a sum of weights. Nested maps are summed by using
the sum of the inner map as the weight of the outer entry.
-/

namespace Std.TreeMap

variable {κ α : Type*} {cmp : κ → κ → Ordering}

/-- The sum of the weights of all entries. -/
def sumOf (t : TreeMap κ α cmp) (w : κ → α → Nat) : Nat :=
  (t.toList.map fun entry => w entry.1 entry.2).sum

/-- The sum of the weights of the entries with another key. -/
def sumExcept [BEq κ] (t : TreeMap κ α cmp) (k : κ) (w : κ → α → Nat) : Nat :=
  ((t.toList.filter (¬ k == ·.1)).map fun entry => w entry.1 entry.2).sum

theorem sumOf_congr {t : TreeMap κ α cmp} {w w' : κ → α → Nat}
    (same : ∀ k v, (k, v) ∈ t.toList → w k v = w' k v) : t.sumOf w = t.sumOf w' := by
  simp only [sumOf]
  congr 1
  exact List.map_congr_left fun entry member => same entry.1 entry.2 member

theorem sumOf_mono {t : TreeMap κ α cmp} {w w' : κ → α → Nat} (le : ∀ k v, w k v ≤ w' k v) :
    t.sumOf w ≤ t.sumOf w' :=
  List.sum_le_sum fun entry _ => le entry.1 entry.2

theorem sumOf_map {β : Type*} (t : TreeMap κ α cmp) (f : κ → α → β) (w : κ → β → Nat) :
    (t.map f).sumOf w = t.sumOf fun k v => w k (f k v) := by
  simp only [sumOf, toList_map, List.map_map, Function.comp_def]

theorem sumOf_mul_div_le (t : TreeMap κ α cmp) (w : κ → α → Nat) (a b : Nat) :
    t.sumOf (fun k v => w k v * a / b) ≤ t.sumOf w * a / b := by
  rw [sumOf, sumOf]
  induction t.toList with
  | nil => simp
  | cons entry l ih =>
      rw [List.map_cons, List.map_cons, List.sum_cons, List.sum_cons, Nat.add_mul]
      calc w entry.1 entry.2 * a / b + (l.map fun entry => w entry.1 entry.2 * a / b).sum
          ≤ w entry.1 entry.2 * a / b + (l.map fun entry => w entry.1 entry.2).sum * a / b :=
            Nat.add_le_add_left ih _
        _ ≤ _ := Nat.div_add_div_le_add_div

theorem le_sumOf {t : TreeMap κ α cmp} {k : κ} {v : α} (member : (k, v) ∈ t.toList)
    (w : κ → α → Nat) : w k v ≤ t.sumOf w := by
  apply List.single_le_sum (fun _ _ => Nat.zero_le _)
  exact List.mem_map.mpr ⟨(k, v), member, rfl⟩

@[simp] theorem sumOf_empty (w : κ → α → Nat) : (∅ : TreeMap κ α cmp).sumOf w = 0 := by
  rfl

theorem foldl_eq_sumOf_mod (t : TreeMap κ α cmp) {w : κ → α → Nat} {m : Nat} (pos : 0 < m)
    {f : Nat → κ → α → Nat} (adds : ∀ sum k v, sum < m → f sum k v = (sum + w k v) % m) :
    t.foldl f 0 = t.sumOf w % m := by
  have general : ∀ (l : List (κ × α)) (acc : Nat), acc < m →
      l.foldl (fun sum entry => f sum entry.1 entry.2) acc =
        (acc + (l.map fun entry => w entry.1 entry.2).sum) % m := by
    intro l
    induction l with
    | nil =>
        intro acc small
        simp [Nat.mod_eq_of_lt small]
    | cons entry l ih =>
        intro acc small
        rw [List.foldl_cons, adds _ _ _ small, ih _ (Nat.mod_lt _ pos)]
        simp only [List.map_cons, List.sum_cons, Nat.mod_add_mod, Nat.add_assoc]
  rw [foldl_eq_foldl_toList, general _ _ pos, Nat.zero_add, sumOf]

theorem foldl_add_mod (t : TreeMap κ α cmp) (w : κ → α → Nat) {m : Nat} (pos : 0 < m) :
    t.foldl (fun sum k v => (sum + w k v) % m) 0 = t.sumOf w % m :=
  t.foldl_eq_sumOf_mod pos fun _ _ _ _ => rfl

theorem sumExcept_congr [BEq κ] [LawfulBEq κ] (t : TreeMap κ α cmp) {k : κ} {w w' : κ → α → Nat}
    (same : ∀ k' v, k' ≠ k → w k' v = w' k' v) : t.sumExcept k w = t.sumExcept k w' := by
  unfold sumExcept
  congr 1
  apply List.map_congr_left
  intro entry member
  have other : ¬ (k == entry.1) = true := by simpa using (List.mem_filter.mp member).2
  exact same entry.1 entry.2 fun equal => other (by simp [equal])

variable [BEq κ] [TransCmp cmp] [LawfulEqCmp cmp] [LawfulBEqCmp cmp]

private theorem filter_key_eq {l : List (κ × α)} {k : κ} {v : α}
    (distinct : l.Pairwise fun a b => ¬ cmp a.1 b.1 = .eq) (member : (k, v) ∈ l) :
    l.filter (k == ·.1) = [(k, v)] := by
  induction l with
  | nil => simp at member
  | cons entry l ih =>
      obtain ⟨apart, rest⟩ := List.pairwise_cons.mp distinct
      rcases List.mem_cons.mp member with rfl | member
      · have none : l.filter (k == ·.1) = [] := by
          refine List.filter_eq_nil_iff.mpr fun other inside equal => apart other inside ?_
          exact LawfulBEqCmp.compare_eq_iff_beq.mpr equal
        have reflexive : cmp k k = .eq := ReflCmp.compare_self
        have same : (k == k) = true := LawfulBEqCmp.compare_eq_iff_beq.mp reflexive
        rw [List.filter_cons_of_pos (by exact same), none]
      · have other : ¬ (k == entry.1) = true := by
          intro equal
          have same : cmp k entry.1 = .eq := LawfulBEqCmp.compare_eq_iff_beq.mpr equal
          exact apart (k, v) member (OrientedCmp.eq_symm same)
        rw [List.filter_cons_of_neg (by exact other), ih rest member]

private theorem sum_key (t : TreeMap κ α cmp) (w : κ → α → Nat) (k : κ) :
    ((t.toList.filter (k == ·.1)).map fun entry => w entry.1 entry.2).sum =
      (t[k]?).elim 0 (w k) := by
  cases found : t[k]? with
  | some v =>
      have member : (k, v) ∈ t.toList := mem_toList_iff_getElem?_eq_some.mpr found
      rw [filter_key_eq (distinct_keys_toList) member]
      simp
  | none =>
      have nothing : t.toList.filter (k == ·.1) = [] := by
        refine List.filter_eq_nil_iff.mpr fun entry member equal => ?_
        have equal : cmp k entry.1 = .eq := LawfulBEqCmp.compare_eq_iff_beq.mpr equal
        have same : k = entry.1 := LawfulEqCmp.compare_eq_iff_eq.mp equal
        have present : t[k]? = some entry.2 := by
          rw [same]; exact mem_toList_iff_getElem?_eq_some.mp member
        simp [present] at found
      simp [nothing]

private theorem sum_filter_split (l : List (κ × α)) (w : κ → α → Nat) (k : κ) :
    ((l.filter (¬ k == ·.1)).map fun entry => w entry.1 entry.2).sum +
      ((l.filter (k == ·.1)).map fun entry => w entry.1 entry.2).sum =
      (l.map fun entry => w entry.1 entry.2).sum := by
  induction l with
  | nil => simp
  | cons entry l ih =>
      by_cases equal : (k == entry.1) = true
      · simp only [equal, not_true_eq_false, decide_false, Bool.false_eq_true, not_false_eq_true,
          List.filter_cons_of_neg, List.filter_cons_of_pos, List.map_cons, List.sum_cons] at ih ⊢
        omega
      · simp only [equal, not_false_eq_true, decide_true, Bool.false_eq_true,
          List.filter_cons_of_neg, List.filter_cons_of_pos, List.map_cons, List.sum_cons] at ih ⊢
        omega

theorem sumOf_eq_sumExcept (t : TreeMap κ α cmp) (w : κ → α → Nat) (k : κ) :
    t.sumOf w = t.sumExcept k w + (t[k]?).elim 0 (w k) := by
  rw [← sum_key t w k, sumExcept, sum_filter_split, sumOf]

omit [LawfulEqCmp cmp] in
theorem sumOf_insert (t : TreeMap κ α cmp) (w : κ → α → Nat) (k : κ) (v : α) :
    (t.insert k v).sumOf w = t.sumExcept k w + w k v := by
  simp only [sumOf]
  rw [((toList_insert_perm (t := t) (k := k) (v := v)).map _).sum_eq]
  simp only [List.map_cons, List.sum_cons, sumExcept, Nat.add_comm]

omit [BEq κ] [LawfulBEqCmp cmp] in
theorem sumOf_eq_of_getElem? {t t' : TreeMap κ α cmp} (same : ∀ k : κ, t[k]? = t'[k]?)
    (w : κ → α → Nat) : t.sumOf w = t'.sumOf w := by
  have equiv : t ~m t' := Equiv.of_forall_constGet?_eq same
  rw [sumOf, sumOf, equiv.toList_eq]

theorem sumOf_eq_sumExcept_of_zero (t : TreeMap κ α cmp) {w : κ → α → Nat}
    {k : κ} (zero : ∀ v, w k v = 0) : t.sumOf w = t.sumExcept k w := by
  rw [sumOf_eq_sumExcept t w k]
  cases t[k]? with
  | none => rfl
  | some v => simp [zero v]

theorem sumOf_ite_ne [DecidableEq κ] (t : TreeMap κ α cmp) (w : κ → α → Nat) (k : κ) :
    (t.sumOf fun k' v => if k' ≠ k then w k' v else 0) = t.sumExcept k w := by
  have nothing : ∀ v, (if k ≠ k then w k v else 0) = 0 := fun v => if_neg (not_not_intro rfl)
  have lawful : LawfulBEq κ := @LawfulBEqCmp.lawfulBEq _ _ cmp _ _
  rw [sumOf_eq_sumExcept_of_zero t nothing]
  apply sumExcept_congr
  intro k' v other
  exact if_pos other

theorem sumOf_insert_add_mod (t : TreeMap κ Nat cmp) (k : κ) (v m : Nat) :
    (t.insert k (((t[k]?).getD 0 + v) % m)).sumOf (fun _ n => n) % m =
      (t.sumOf (fun _ n => n) + v) % m := by
  have value : (t[k]?).elim 0 (fun n => n) = (t[k]?).getD 0 := by
    cases t[k]? <;> rfl
  rw [sumOf_insert, Nat.add_mod_mod, sumOf_eq_sumExcept t _ k, value, Nat.add_assoc]

theorem sumOf_foldl_insert_add_mod (t u : TreeMap κ Nat cmp) (m : Nat) :
    (u.foldl (fun t k v => t.insert k (((t[k]?).getD 0 + v) % m)) t).sumOf (fun _ n => n) % m =
      (t.sumOf (fun _ n => n) + u.sumOf fun _ n => n) % m := by
  have general : ∀ (l : List (κ × Nat)) (t : TreeMap κ Nat cmp),
      (l.foldl (fun t entry => t.insert entry.1 (((t[entry.1]?).getD 0 + entry.2) % m))
        t).sumOf (fun _ n => n) % m =
        (t.sumOf (fun _ n => n) + (l.map (·.2)).sum) % m := by
    intro l
    induction l with
    | nil =>
        intro t
        simp
    | cons entry l ih =>
        intro t
        rw [List.foldl_cons, ih, Nat.add_mod, sumOf_insert_add_mod, ← Nat.add_mod, List.map_cons,
          List.sum_cons, Nat.add_assoc]
  rw [foldl_eq_foldl_toList, general, sumOf, sumOf]

theorem sumOf_insertIfNew (t : TreeMap κ α cmp) {w : κ → α → Nat} {k : κ} {v : α}
    (zero : w k v = 0) : (t.insertIfNew k v).sumOf w = t.sumOf w := by
  by_cases member : k ∈ t
  · refine sumOf_eq_of_getElem? (fun a => ?_) w
    rw [getElem?_insertIfNew, if_neg (by simp [member])]
  · have inserted : (t.insertIfNew k v).sumOf w = (t.insert k v).sumOf w := by
      refine sumOf_eq_of_getElem? (fun a => ?_) w
      rw [getElem?_insertIfNew, getElem?_insert]
      simp only [member, not_false_eq_true, and_true]
    rw [inserted, sumOf_insert, sumOf_eq_sumExcept t w k, getElem?_eq_none member, zero]
    rfl

omit [BEq κ] [LawfulBEqCmp cmp] in
/-- The sum over any finite set of keys that holds all keys of the map. -/
private theorem sumOf_eq_sum_keys [DecidableEq κ] (t : TreeMap κ α cmp) (w : κ → α → Nat)
    (keys : Finset κ) (all : ∀ k, k ∈ t → k ∈ keys) :
    t.sumOf w = ∑ k ∈ keys, (t[k]?).elim 0 (w k) := by
  have weights : t.toList.map (fun entry => w entry.1 entry.2) =
      t.keys.map fun k => (t[k]?).elim 0 (w k) := by
    rw [← map_fst_toList_eq_keys, List.map_map]
    apply List.map_congr_left
    intro entry member
    have found : t[entry.1]? = some entry.2 := mem_toList_iff_getElem?_eq_some.mp member
    simp only [Function.comp_apply, found, Option.elim_some]
  rw [sumOf, weights, ← List.sum_toFinset _ t.nodup_keys]
  apply Finset.sum_subset
  · intro k member
    apply all
    simpa using member
  · intro k _ absent
    have missing : t[k]? = none := by
      apply getElem?_eq_none
      simpa using absent
    simp [missing]

omit [BEq κ] [LawfulBEqCmp cmp] in
/-- A sum depends on the weights of the keys only; a missing key weighs nothing. -/
theorem sumOf_eq_of_weights [DecidableEq κ] {β : Type*} {t : TreeMap κ α cmp}
    {t' : TreeMap κ β cmp} {w : κ → α → Nat} {w' : κ → β → Nat}
    (same : ∀ k, (t[k]?).elim 0 (w k) = (t'[k]?).elim 0 (w' k)) : t.sumOf w = t'.sumOf w' := by
  let keys := t.keys.toFinset ∪ t'.keys.toFinset
  have left : ∀ k, k ∈ t → k ∈ keys := by
    intro k member
    simp [keys, member]
  have right : ∀ k, k ∈ t' → k ∈ keys := by
    intro k member
    simp [keys, member]
  rw [sumOf_eq_sum_keys t w keys left, sumOf_eq_sum_keys t' w' keys right]
  exact Finset.sum_congr rfl fun k _ => same k

theorem sumOf_erase [DecidableEq κ] (t : TreeMap κ α cmp) (w : κ → α → Nat) (k : κ) :
    (t.erase k).sumOf w + (t[k]?).elim 0 (w k) = t.sumOf w := by
  have rest : (t.erase k).sumOf w = t.sumOf fun k' v => if k' ≠ k then w k' v else 0 := by
    apply sumOf_eq_of_weights
    intro k'
    rw [getElem?_erase_eq]
    by_cases same : k' = k
    · subst same
      cases t[k']? <;> simp
    · simp [same]
  rw [rest, sumOf_ite_ne, ← sumOf_eq_sumExcept]

end Std.TreeMap
