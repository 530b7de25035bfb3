import Mathlib.Data.List.Basic
import Mathlib.Data.List.Nodup

/-! # Queues that are served up to a key

The elements of a queue have keys. A queue is cut at the first element with some
key: what comes up to it and what comes past it. Where the keys are different from
each other, cutting goes with appending, erasing and cutting again.
-/

namespace List

variable {α β : Type*} [DecidableEq β] (f : α → β)

/-- The elements up to the first one with a key; none if there is no such element. -/
def upTo (k : β) (l : List α) : List α :=
  match l.findIdx? (f · = k) with
  | some i => l.take (i + 1)
  | none => []

/-- The elements past the first one with a key; all if there is no such element. -/
def past (k : β) (l : List α) : List α :=
  match l.findIdx? (f · = k) with
  | some i => l.drop (i + 1)
  | none => l

variable {f} {j k : β} {a x : α} {l s t : List α}

theorem upTo_append_past (k : β) (l : List α) : l.upTo f k ++ l.past f k = l := by
  unfold upTo past
  split
  · exact List.take_append_drop _ _
  · rfl

theorem past_sublist (k : β) (l : List α) : (l.past f k).Sublist l := by
  unfold past
  split
  · exact List.drop_sublist _ _
  · exact List.Sublist.refl l

theorem findIdx?_of_notMem (absent : k ∉ l.map f) : l.findIdx? (f · = k) = none := by
  rw [List.findIdx?_eq_none_iff]
  intro x member
  have other : f x ≠ k := by
    rintro rfl
    exact absent (List.mem_map_of_mem member)
  simpa using other

theorem upTo_of_notMem (absent : k ∉ l.map f) : l.upTo f k = [] := by
  rw [upTo, findIdx?_of_notMem absent]

theorem past_of_notMem (absent : k ∉ l.map f) : l.past f k = l := by
  rw [past, findIdx?_of_notMem absent]

theorem findIdx?_split (absent : k ∉ s.map f) (isKey : f x = k) :
    (s ++ x :: t).findIdx? (f · = k) = some s.length := by
  rw [List.findIdx?_append, findIdx?_of_notMem absent]
  simp [List.findIdx?_cons, isKey]

theorem upTo_split (absent : k ∉ s.map f) (isKey : f x = k) :
    (s ++ x :: t).upTo f k = s ++ [x] := by
  rw [upTo, findIdx?_split absent isKey]
  simp [List.take_append, List.take_of_length_le]

theorem past_split (absent : k ∉ s.map f) (isKey : f x = k) : (s ++ x :: t).past f k = t := by
  rw [past, findIdx?_split absent isKey]
  simp [List.drop_append]

theorem exists_split (member : k ∈ l.map f) :
    ∃ s x t, l = s ++ x :: t ∧ f x = k ∧ k ∉ s.map f := by
  induction l with
  | nil => simp at member
  | cons a l ih =>
      by_cases isKey : f a = k
      · exact ⟨[], a, l, rfl, isKey, by simp⟩
      · have later : k ∈ l.map f := by
          rcases List.mem_cons.mp member with here | later
          · exact absurd here.symm isKey
          · exact later
        obtain ⟨s, x, t, rfl, isKeyLater, absent⟩ := ih later
        refine ⟨a :: s, x, t, rfl, isKeyLater, ?_⟩
        rw [List.map_cons, List.mem_cons, not_or]
        exact ⟨Ne.symm isKey, absent⟩

theorem upTo_cons_self (isKey : f a = k) : (a :: l).upTo f k = [a] :=
  upTo_split (s := []) (by simp) isKey

theorem past_cons_self (isKey : f a = k) : (a :: l).past f k = l :=
  past_split (s := []) (by simp) isKey

theorem upTo_cons (other : f a ≠ k) (member : k ∈ l.map f) :
    (a :: l).upTo f k = a :: l.upTo f k := by
  obtain ⟨s, x, t, rfl, isKey, absent⟩ := exists_split member
  rw [upTo_split absent isKey, ← List.cons_append, upTo_split ?_ isKey, List.cons_append]
  rw [List.map_cons, List.mem_cons, not_or]
  exact ⟨Ne.symm other, absent⟩

theorem past_cons (other : f a ≠ k) (member : k ∈ l.map f) :
    (a :: l).past f k = l.past f k := by
  obtain ⟨s, x, t, rfl, isKey, absent⟩ := exists_split member
  rw [past_split absent isKey, ← List.cons_append, past_split ?_ isKey]
  rw [List.map_cons, List.mem_cons, not_or]
  exact ⟨Ne.symm other, absent⟩

/-- A queue whose first element has a key of its own is cut at any of its keys. -/
theorem cut_cons (apart : f a ∉ l.map f) (member : k ∈ (a :: l).map f) :
    (a :: l).upTo f k = a :: l.upTo f k ∧ (a :: l).past f k = l.past f k := by
  by_cases isKey : f a = k
  · have absent : k ∉ l.map f := isKey ▸ apart
    rw [upTo_cons_self isKey, past_cons_self isKey, upTo_of_notMem absent, past_of_notMem absent]
    exact ⟨rfl, rfl⟩
  · have later : k ∈ l.map f := (List.mem_cons.mp member).resolve_left (Ne.symm isKey)
    exact ⟨upTo_cons isKey later, past_cons isKey later⟩

theorem upTo_concat (other : f a ≠ k) : (l ++ [a]).upTo f k = l.upTo f k := by
  by_cases member : k ∈ l.map f
  · obtain ⟨s, x, t, rfl, isKey, absent⟩ := exists_split member
    rw [upTo_split absent isKey, List.append_assoc, List.cons_append, upTo_split absent isKey]
  · rw [upTo_of_notMem member, upTo_of_notMem]
    rw [List.map_append, List.mem_append, not_or]
    exact ⟨member, by simpa using Ne.symm other⟩

theorem past_concat (other : f a ≠ k) : (l ++ [a]).past f k = l.past f k ++ [a] := by
  by_cases member : k ∈ l.map f
  · obtain ⟨s, x, t, rfl, isKey, absent⟩ := exists_split member
    rw [past_split absent isKey, List.append_assoc, List.cons_append, past_split absent isKey]
  · rw [past_of_notMem member, past_of_notMem]
    rw [List.map_append, List.mem_append, not_or]
    exact ⟨member, by simpa using Ne.symm other⟩

theorem cut_past (distinct : (l.map f).Nodup) (member : k ∈ (l.past f j).map f) :
    l.upTo f k = l.upTo f j ++ (l.past f j).upTo f k ∧
      l.past f k = (l.past f j).past f k := by
  by_cases cut : j ∈ l.map f
  · obtain ⟨s, x, t, rfl, isKey, absent⟩ := exists_split cut
    rw [past_split absent isKey] at member ⊢
    rw [upTo_split absent isKey]
    obtain ⟨s', y, t', rfl, isKeyLater, absentLater⟩ := exists_split member
    have regroup : s ++ x :: (s' ++ y :: t') = (s ++ x :: s') ++ y :: t' := by simp
    have absentBefore : k ∉ (s ++ x :: s').map f := by
      rw [regroup, List.map_append, List.nodup_append] at distinct
      intro earlier
      exact distinct.2.2 k earlier k (by simp [isKeyLater]) rfl
    rw [regroup, upTo_split absentBefore isKeyLater, past_split absentBefore isKeyLater,
      upTo_split absentLater isKeyLater, past_split absentLater isKeyLater]
    simp
  · rw [past_of_notMem cut, upTo_of_notMem cut]
    exact ⟨rfl, rfl⟩

theorem notMem_eraseP (distinct : (l.map f).Nodup) : k ∉ (l.eraseP (f · = k)).map f := by
  induction l with
  | nil => simp
  | cons a l ih =>
      obtain ⟨apart, distinctLater⟩ := List.nodup_cons.mp distinct
      by_cases isKey : f a = k
      · rw [List.eraseP_cons_of_pos (by simpa using isKey), ← isKey]
        exact apart
      · rw [List.eraseP_cons_of_neg (by simpa using isKey), List.map_cons, List.mem_cons, not_or]
        exact ⟨Ne.symm isKey, ih distinctLater⟩

theorem cut_eraseP (distinct : (l.map f).Nodup) (member : k ∈ (l.past f j).map f) :
    (l.eraseP (f · = k)).upTo f j = l.upTo f j ∧
      (l.eraseP (f · = k)).past f j = (l.past f j).eraseP (f · = k) := by
  by_cases cut : j ∈ l.map f
  · obtain ⟨s, x, t, rfl, isKey, absent⟩ := exists_split cut
    rw [past_split absent isKey] at member ⊢
    rw [upTo_split absent isKey]
    have keeps : ∀ y ∈ s ++ [x], ¬ (decide (f y = k)) = true := by
      intro y before
      have other : f y ≠ k := by
        rintro rfl
        rw [show s ++ x :: t = (s ++ [x]) ++ t by simp, List.map_append, List.nodup_append]
          at distinct
        exact distinct.2.2 (f y) (List.mem_map_of_mem before) (f y) member rfl
      simpa using other
    have erased : (s ++ x :: t).eraseP (f · = k) = s ++ x :: t.eraseP (f · = k) := by
      rw [show s ++ x :: t = (s ++ [x]) ++ t by simp, List.eraseP_append_right _ keeps]
      simp
    rw [erased, upTo_split absent isKey, past_split absent isKey]
    exact ⟨rfl, rfl⟩
  · have cutLater : j ∉ (l.eraseP (f · = k)).map f := fun later =>
      cut (((List.eraseP_sublist).map f).subset later)
    rw [past_of_notMem cut, upTo_of_notMem cut, past_of_notMem cutLater, upTo_of_notMem cutLater]
    exact ⟨rfl, rfl⟩

end List
