/-! # One-shot timers

A timer object holds the callback it was started with. It stays set when the
callback has run, so a set timer is not yet one that will fire.
-/

/-- A timer object that runs its callback once. -/
inductive OneShotTimer where
  /-- No callback: never started, or cancelled. -/
  | unset
  /-- Started and not yet expired. -/
  | pending
  /-- The callback has run and is still held. -/
  | expired
  deriving Repr, DecidableEq

namespace OneShotTimer

/-- Whether a callback is held. -/
def isSet : OneShotTimer → Bool
  | .unset => false
  | .pending | .expired => true

/-- Drop the callback; a pending one never runs. -/
def cancel (_ : OneShotTimer) : OneShotTimer := .unset

@[simp] theorem cancel_eq (timer : OneShotTimer) : timer.cancel = .unset := rfl

theorem isSet_eq_false_iff (timer : OneShotTimer) : timer.isSet = false ↔ timer = .unset := by
  cases timer <;> simp [isSet]

end OneShotTimer
