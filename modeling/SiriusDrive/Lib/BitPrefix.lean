import Mathlib.Data.List.Basic

/-! # The common prefix of two bit vectors

Bits are counted from the most significant one on.
-/

namespace BitPrefix

variable {w : Nat} (a b : BitVec w)

/-- How many leading bits agree. -/
def commonPrefix : Nat := (List.range w).findIdx fun i => a.getMsbD i != b.getMsbD i

variable {a b}

theorem getMsbD_eq_of_lt {i : Nat} (before : i < commonPrefix a b) :
    a.getMsbD i = b.getMsbD i := by
  have agrees := List.not_of_lt_findIdx before
  simpa using agrees

theorem getMsbD_ne_commonPrefix (inside : commonPrefix a b < w) :
    a.getMsbD (commonPrefix a b) ≠ b.getMsbD (commonPrefix a b) := by
  have isIndex : (List.range w).findIdx (fun i => a.getMsbD i != b.getMsbD i) <
      (List.range w).length := by
    rw [List.length_range]
    exact inside
  have differs := List.findIdx_getElem (w := isIndex)
  simpa [commonPrefix] using differs

end BitPrefix
