import Mathlib.Data.Option.Basic

/-! # Loops that may not end

A loop is a function to the next state; it stops in a state without one. Running it takes
fuel, one unit for each iteration.
-/

namespace WhileLoop

variable {σ : Type*} (next : σ → Option σ)

/-- The state in which the loop stops, if the fuel is enough. -/
def run : Nat → σ → Option σ
  | 0, _ => none
  | fuel + 1, s =>
      match next s with
      | none => some s
      | some t => run fuel t

/-- The loop stops, and stops in this state. -/
def Ends (s t : σ) : Prop := ∃ fuel, run next fuel s = some t

variable {next}

theorem run_of_next {s t : σ} (fuel : Nat) (step : next s = some t) :
    run next (fuel + 1) s = run next fuel t := by
  rw [run, step]

theorem run_of_stop {s : σ} (fuel : Nat) (stops : next s = none) :
    run next (fuel + 1) s = some s := by
  rw [run, stops]

theorem Ends.invariant {I : σ → Prop} (preserved : ∀ s t, I s → next s = some t → I t) {s t : σ}
    (base : I s) (ends : Ends next s t) : I t ∧ next t = none := by
  obtain ⟨fuel, isRun⟩ := ends
  induction fuel generalizing s with
  | zero => simp [run] at isRun
  | succ fuel ih =>
      cases step : next s with
      | none =>
          rw [run_of_stop fuel step] at isRun
          obtain rfl := Option.some.inj isRun
          exact ⟨base, step⟩
      | some u =>
          rw [run_of_next fuel step] at isRun
          exact ih (preserved s u base step) isRun

theorem not_ends {I : σ → Prop} (preserved : ∀ s t, I s → next s = some t → I t)
    (goesOn : ∀ s, I s → next s ≠ none) {s : σ} (base : I s) (t : σ) : ¬ Ends next s t := by
  intro ends
  obtain ⟨holds, stops⟩ := ends.invariant preserved base
  exact goesOn t holds stops

end WhileLoop
