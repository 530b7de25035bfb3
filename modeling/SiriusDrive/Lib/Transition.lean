import Mathlib.Data.List.Basic
import Mathlib.Logic.Basic

/-! # Labelled transition systems with a partial step function

A system is executable: an event is either enabled in a state and has one
successor, or it is not enabled. Runs are lists of events. The rules below turn
a step lemma into a fact about every run, optionally under a condition which
every step of the run has to meet.
-/

/-- A deterministic labelled transition system. `step s e = none` means that
    `e` cannot happen in `s`. -/
structure Transition (σ ε : Type*) where
  step : σ → ε → Option σ

namespace Transition

variable {σ ε : Type*} (S : Transition σ ε)

/-- The state after a list of events, if each of them was enabled in turn. -/
def exec (s : σ) : List ε → Option σ
  | [] => some s
  | e :: es => (S.step s e).bind fun s' => exec s' es

/-- The events can all happen and lead to a state with `P`. -/
def Reaches (P : σ → Prop) (s : σ) (es : List ε) : Prop := ∃ t, S.exec s es = some t ∧ P t

instance {P : σ → Prop} [DecidablePred P] (s : σ) (es : List ε) : Decidable (S.Reaches P s es) :=
  decidable_of_iff ((S.exec s es).any (P ·) = true) (by
    simp only [Option.any_eq_true, decide_eq_true_eq, Reaches])

/-- Every step of the run meets `C`, a condition on the state before the step
    and on the event. -/
def Meets (C : σ → ε → Prop) (s : σ) : List ε → Prop
  | [] => True
  | e :: es => C s e ∧ ∀ s', S.step s e = some s' → Meets C s' es

/-- `P` holds in the first state of the run and after each of its steps. -/
def Always (P : σ → Prop) (s : σ) : List ε → Prop
  | [] => P s
  | e :: es => P s ∧ ∀ s', S.step s e = some s' → Always P s' es

@[simp] theorem exec_nil (s : σ) : S.exec s [] = some s := rfl

theorem exec_cons_iff {s t : σ} {e : ε} {es : List ε} :
    S.exec s (e :: es) = some t ↔ ∃ s', S.step s e = some s' ∧ S.exec s' es = some t := by
  simp only [exec, Option.bind_eq_some_iff]

theorem exec_append {s t : σ} {es fs : List ε} :
    S.exec s (es ++ fs) = some t ↔ ∃ u, S.exec s es = some u ∧ S.exec u fs = some t := by
  induction es generalizing s with
  | nil => simp
  | cons e es ih =>
      simp only [List.cons_append, exec_cons_iff, ih]
      constructor
      · rintro ⟨s', step, u, first, second⟩
        exact ⟨u, ⟨s', step, first⟩, second⟩
      · rintro ⟨u, ⟨s', step, first⟩, second⟩
        exact ⟨s', step, u, first, second⟩

theorem exec_snoc {s t : σ} {es : List ε} {e : ε} :
    S.exec s (es ++ [e]) = some t ↔ ∃ u, S.exec s es = some u ∧ S.step u e = some t := by
  simp only [exec_append, exec_cons_iff, exec_nil, Option.some.injEq, exists_eq_right]

variable {S}

theorem exec_rest {s t u : σ} {es fs : List ε} (run : S.exec s (es ++ fs) = some t)
    (front : S.exec s es = some u) : S.exec u fs = some t := by
  obtain ⟨v, isEnd, rest⟩ := (S.exec_append).mp run
  obtain rfl := Option.some.inj (front.symm.trans isEnd)
  exact rest

theorem Always.head {P : σ → Prop} {s : σ} {es : List ε} (h : S.Always P s es) : P s := by
  cases es with
  | nil => exact h
  | cons => exact h.1

theorem Always.meets {P : σ → Prop} {s : σ} {es : List ε} (h : S.Always P s es) :
    S.Meets (fun s _ => P s) s es := by
  induction es generalizing s with
  | nil => trivial
  | cons e es ih => exact ⟨h.1, fun s' step => ih (h.2 s' step)⟩

theorem Always.last {P : σ → Prop} {s t : σ} {es : List ε} (h : S.Always P s es)
    (run : S.exec s es = some t) : P t := by
  induction es generalizing s with
  | nil =>
      obtain rfl : s = t := by simpa using run
      exact h
  | cons e es ih =>
      obtain ⟨s', step, rest⟩ := (S.exec_cons_iff).mp run
      exact ih (h.2 s' step) rest

theorem Meets.and {C D : σ → ε → Prop} {s : σ} {es : List ε} (first : S.Meets C s es)
    (second : S.Meets D s es) : S.Meets (fun s e => C s e ∧ D s e) s es := by
  induction es generalizing s with
  | nil => trivial
  | cons e es ih =>
      refine ⟨⟨first.1, second.1⟩, ?_⟩
      intro s' step
      exact ih (first.2 s' step) (second.2 s' step)

theorem Meets.mono {C D : σ → ε → Prop} (imp : ∀ s e, C s e → D s e) {s : σ} {es : List ε}
    (h : S.Meets C s es) : S.Meets D s es := by
  induction es generalizing s with
  | nil => trivial
  | cons e es ih => exact ⟨imp s e h.1, fun s' step => ih (h.2 s' step)⟩

theorem meets_of_forall {P : ε → Prop} {s : σ} {es : List ε} (all : ∀ e ∈ es, P e) :
    S.Meets (fun _ e => P e) s es := by
  induction es generalizing s with
  | nil => trivial
  | cons e es ih =>
      refine ⟨all e List.mem_cons_self, ?_⟩
      intro s' _
      exact ih fun e' member => all e' (List.mem_cons_of_mem _ member)

theorem Meets.last {C : σ → ε → Prop} {s t : σ} {es : List ε} {e : ε}
    (h : S.Meets C s (es ++ [e])) (run : S.exec s es = some t) : C t e := by
  induction es generalizing s with
  | nil =>
      obtain rfl : s = t := by simpa using run
      exact h.1
  | cons e' es ih =>
      obtain ⟨s', step, rest⟩ := (S.exec_cons_iff).mp run
      exact ih (h.2 s' step) rest

theorem Meets.of_mem {C : σ → ε → Prop} {s t : σ} {es : List ε} {e : ε} (h : S.Meets C s es)
    (run : S.exec s es = some t) (member : e ∈ es) : ∃ u, C u e := by
  induction es generalizing s with
  | nil => simp at member
  | cons e' es ih =>
      obtain ⟨s', step, rest⟩ := (S.exec_cons_iff).mp run
      rcases List.mem_cons.mp member with rfl | later
      · exact ⟨s, h.1⟩
      · exact ih (h.2 s' step) rest later

theorem exec_isSome {s : σ} {es : List ε} (enabled : ∀ e ∈ es, ∀ s, (S.step s e).isSome) :
    (S.exec s es).isSome := by
  induction es generalizing s with
  | nil => rfl
  | cons e es ih =>
      obtain ⟨s', step⟩ := Option.isSome_iff_exists.mp (enabled e List.mem_cons_self s)
      obtain ⟨t, rest⟩ := Option.isSome_iff_exists.mp
        (@ih s' fun e member => enabled e (List.mem_cons_of_mem _ member))
      exact Option.isSome_of_eq_some ((S.exec_cons_iff).mpr ⟨s', step, rest⟩)

/-- The invariant rule: what the steps meeting `C` preserve holds after every
    run whose steps all meet `C`. -/
theorem invariant {C : σ → ε → Prop} {I : σ → Prop}
    (preserved : ∀ s e s', I s → C s e → S.step s e = some s' → I s')
    {s t : σ} {es : List ε} (base : I s) (meets : S.Meets C s es)
    (run : S.exec s es = some t) : I t := by
  induction es generalizing s with
  | nil =>
      obtain rfl : s = t := by simpa using run
      exact base
  | cons e es ih =>
      obtain ⟨s', step, rest⟩ := (S.exec_cons_iff).mp run
      exact ih (preserved s e s' base meets.1 step) (meets.2 s' step) rest

theorem invariant_of_step {I : σ → Prop}
    (preserved : ∀ s e s', I s → S.step s e = some s' → I s')
    {s t : σ} {es : List ε} (base : I s) (run : S.exec s es = some t) : I t := by
  have free : S.Meets (fun _ _ => True) s es := by
    clear base run
    induction es generalizing s with
    | nil => trivial
    | cons e es ih => exact ⟨trivial, fun _ _ => ih⟩
  exact invariant (fun s e s' hi _ step => preserved s e s' hi step) base free run

/-- What follows from `C` in the states with `I`, which the steps meeting `C` keep, is met
    by the runs that meet `C`. -/
theorem Meets.of_invariant {C D : σ → ε → Prop} {I : σ → Prop}
    (holds : ∀ s e, I s → C s e → D s e)
    (preserved : ∀ s e s', I s → C s e → S.step s e = some s' → I s')
    {s : σ} {es : List ε} (base : I s) (meets : S.Meets C s es) : S.Meets D s es := by
  induction es generalizing s with
  | nil => trivial
  | cons e es ih =>
      refine ⟨holds s e base meets.1, ?_⟩
      intro s' step
      exact ih (preserved s e s' base meets.1 step) (meets.2 s' step)

/-- What follows in the states with `I`, which the steps meeting `C` keep, holds along the runs
    that meet `C`. -/
theorem Always.of_invariant {C : σ → ε → Prop} {I P : σ → Prop} (holds : ∀ s, I s → P s)
    (preserved : ∀ s e s', I s → C s e → S.step s e = some s' → I s')
    {s : σ} {es : List ε} (base : I s) (meets : S.Meets C s es) : S.Always P s es := by
  induction es generalizing s with
  | nil => exact holds s base
  | cons e es ih =>
      refine ⟨holds s base, ?_⟩
      intro s' step
      exact ih (preserved s e s' base meets.1 step) (meets.2 s' step)

/-- Two conditions that agree on the states with `I`, which the steps meeting
    the first of them keep, are met by the same runs. -/
theorem meets_iff_of_invariant {C D : σ → ε → Prop} {I : σ → Prop}
    (same : ∀ s e, I s → (C s e ↔ D s e))
    (preserved : ∀ s e s', I s → C s e → S.step s e = some s' → I s')
    {s : σ} (es : List ε) (base : I s) : S.Meets C s es ↔ S.Meets D s es := by
  induction es generalizing s with
  | nil => exact Iff.rfl
  | cons e es ih =>
      constructor
      · intro meets
        refine ⟨(same s e base).mp meets.1, ?_⟩
        intro s' step
        exact (ih (preserved s e s' base meets.1 step)).mp (meets.2 s' step)
      · intro meets
        have here : C s e := (same s e base).mpr meets.1
        refine ⟨here, ?_⟩
        intro s' step
        exact (ih (preserved s e s' base here step)).mpr (meets.2 s' step)

/-- A condition on the steps is exact for `P` when it keeps an invariant that
    implies `P` and a step that misses it leads to a state without `P`. `E` is
    what the run is known to meet in any case. -/
theorem always_iff_meets {E C : σ → ε → Prop} {I P : σ → Prop}
    (holds : ∀ s, I s → P s)
    (preserved : ∀ s e s', I s → E s e → C s e → S.step s e = some s' → I s')
    (misses : ∀ s e, I s → E s e → ¬ C s e → ∃ s', S.step s e = some s' ∧ ¬ P s')
    {s : σ} (es : List ε) (base : I s) (known : S.Meets E s es) :
    S.Always P s es ↔ S.Meets C s es := by
  induction es generalizing s with
  | nil => exact ⟨fun _ => trivial, fun _ => holds s base⟩
  | cons e es ih =>
      constructor
      · rintro ⟨-, later⟩
        have met : C s e := by
          by_contra missed
          obtain ⟨s', step, bad⟩ := misses s e base known.1 missed
          exact bad (later s' step).head
        refine ⟨met, fun s' step => ?_⟩
        exact (ih (preserved s e s' base known.1 met step) (known.2 s' step)).mp (later s' step)
      · rintro ⟨met, later⟩
        refine ⟨holds s base, fun s' step => ?_⟩
        exact (ih (preserved s e s' base known.1 met step) (known.2 s' step)).mpr (later s' step)

theorem meets_enabled {s t : σ} {es : List ε} (run : S.exec s es = some t) :
    S.Meets (fun s e => (S.step s e).isSome) s es := by
  induction es generalizing s with
  | nil => trivial
  | cons e es ih =>
      obtain ⟨s', step, rest⟩ := (S.exec_cons_iff).mp run
      refine ⟨Option.isSome_of_eq_some step, ?_⟩
      intro other same
      obtain rfl := Option.some.inj (step.symm.trans same)
      exact ih rest

/-- What the steps of a run give, in their order. -/
def trace {δ : Type*} (S : Transition σ ε) (f : σ → ε → List δ) (s : σ) : List ε → List δ
  | [] => []
  | e :: es =>
      match S.step s e with
      | some s' => f s e ++ trace S f s' es
      | none => []

/-- What can be seen of a step in the states before and after it. -/
def ofStep {δ : Type*} (S : Transition σ ε) (g : σ → ε → σ → List δ) (s : σ) (e : ε) : List δ :=
  match S.step s e with
  | some s' => g s e s'
  | none => []

section Trace

variable {δ : Type*} {f : σ → ε → List δ}

theorem ofStep_eq {g : σ → ε → σ → List δ} {s s' : σ} {e : ε} (step : S.step s e = some s') :
    S.ofStep g s e = g s e s' := by
  simp only [ofStep, step]

theorem trace_cons {s s' : σ} {e : ε} {es : List ε} (step : S.step s e = some s') :
    S.trace f s (e :: es) = f s e ++ S.trace f s' es := by
  simp only [trace, step]

theorem trace_congr {g : σ → ε → List δ} (same : ∀ s e s', S.step s e = some s' → f s e = g s e)
    (s : σ) (es : List ε) : S.trace f s es = S.trace g s es := by
  induction es generalizing s with
  | nil => rfl
  | cons e es ih =>
      cases step : S.step s e with
      | none => simp only [trace, step]
      | some s' => rw [trace_cons step, trace_cons step, same s e s' step, ih]

theorem trace_event {g : ε → List δ} (reads : ∀ s e, f s e = g e) {s t : σ} {es : List ε}
    (run : S.exec s es = some t) : S.trace f s es = es.flatMap g := by
  induction es generalizing s with
  | nil => rfl
  | cons e es ih =>
      obtain ⟨s', step, rest⟩ := (S.exec_cons_iff).mp run
      rw [trace_cons step, ih rest, reads, List.flatMap_cons]

/-- A run gives at most one thing when a step gives one only as long as `P` does not hold,
    and makes it hold. -/
theorem length_trace_le_one {C : σ → ε → Prop} {I P : σ → Prop}
    (preserved : ∀ s e s', I s → C s e → S.step s e = some s' → I s')
    (once : ∀ s e s', I s → C s e → S.step s e = some s' →
      f s e = [] ∧ (P s → P s') ∨ (f s e).length = 1 ∧ ¬ P s ∧ P s')
    {s : σ} {es : List ε} (base : I s) (meets : S.Meets C s es) :
    (S.trace f s es).length ≤ 1 ∧ (P s → S.trace f s es = []) := by
  induction es generalizing s with
  | nil => exact ⟨Nat.zero_le 1, fun _ => rfl⟩
  | cons e es ih =>
      cases step : S.step s e with
      | none => simp [trace, step]
      | some s' =>
          obtain ⟨short, empty⟩ := ih (preserved s e s' base meets.1 step) (meets.2 s' step)
          rw [trace_cons step]
          rcases once s e s' base meets.1 step with ⟨nothing, kept⟩ | ⟨single, before, after⟩
          · rw [nothing, List.nil_append]
            exact ⟨short, fun holds => empty (kept holds)⟩
          · rw [empty after, List.append_nil]
            exact ⟨Nat.le_of_eq single, fun holds => absurd holds before⟩

end Trace

instance decidableMeets {C : σ → ε → Prop} [∀ s e, Decidable (C s e)] (s : σ) (es : List ε) :
    Decidable (S.Meets C s es) :=
  match es with
  | [] => isTrue trivial
  | e :: es =>
      match step : S.step s e with
      | none =>
          decidable_of_iff (C s e) (by simp only [Meets, step, reduceCtorEq, false_implies,
            implies_true, and_true])
      | some s' =>
          haveI := decidableMeets (C := C) s' es
          decidable_of_iff (C s e ∧ S.Meets C s' es) (by simp only [Meets, step,
            Option.some.injEq, forall_eq'])

instance decidableAlways {P : σ → Prop} [DecidablePred P] (s : σ) (es : List ε) :
    Decidable (S.Always P s es) :=
  match es with
  | [] => inferInstanceAs (Decidable (P s))
  | e :: es =>
      match step : S.step s e with
      | none =>
          decidable_of_iff (P s) (by simp only [Always, step, reduceCtorEq, false_implies,
            implies_true, and_true])
      | some s' =>
          haveI := decidableAlways (P := P) s' es
          decidable_of_iff (P s ∧ S.Always P s' es) (by simp only [Always, step,
            Option.some.injEq, forall_eq'])

section Simulation

variable {τ δ : Type*} {T : Transition τ δ}

/-- The step of an event, or no step if there is none. -/
def Follows (T : Transition τ δ) (s t : τ) : Option δ → Prop
  | some d => T.step s d = some t
  | none => t = s

/-- `view` is a simulation of `S` by `T`: each step of `S` is a step of `T`
    between the views, or leaves the view as it is. -/
def Simulates (S : Transition σ ε) (T : Transition τ δ) (view : σ → τ)
    (label : σ → ε → Option δ) : Prop :=
  ∀ s e s', S.step s e = some s' → T.Follows (view s) (view s') (label s e)

/-- The events the simulating system takes along a run. -/
def labels (S : Transition σ ε) (label : σ → ε → Option δ) (s : σ) : List ε → List δ
  | [] => []
  | e :: es =>
      match S.step s e with
      | some s' => (label s e).toList ++ labels S label s' es
      | none => []

theorem Simulates.run {view : σ → τ} {label : σ → ε → Option δ}
    (sim : Simulates S T view label) {s t : σ} {es : List ε} (run : S.exec s es = some t) :
    T.exec (view s) (labels S label s es) = some (view t) := by
  induction es generalizing s with
  | nil =>
      obtain rfl : s = t := by simpa using run
      rfl
  | cons e es ih =>
      obtain ⟨s', step, rest⟩ := (S.exec_cons_iff).mp run
      have here := sim s e s' step
      simp only [labels, step]
      cases found : label s e with
      | none =>
          simp only [found, Follows] at here
          simpa [here] using ih rest
      | some d =>
          simp only [found, Follows] at here
          exact (T.exec_cons_iff).mpr ⟨view s', here, ih rest⟩

/-- A condition met by the steps of the simulated run is met by the steps of
    the run that simulates it. -/
theorem Simulates.meets {view : σ → τ} {label : σ → ε → Option δ} {C : σ → ε → Prop}
    {D : τ → δ → Prop} (sim : Simulates S T view label)
    (transfer : ∀ s e s' d, C s e → S.step s e = some s' → label s e = some d → D (view s) d)
    {s : σ} {es : List ε} (meets : S.Meets C s es) :
    T.Meets D (view s) (labels S label s es) := by
  induction es generalizing s with
  | nil => trivial
  | cons e es ih =>
      cases step : S.step s e with
      | none => simp only [labels, step]; trivial
      | some s' =>
          have rest := ih (meets.2 s' step)
          have here := sim s e s' step
          simp only [labels, step]
          cases found : label s e with
          | none =>
              simp only [found, Follows] at here
              simpa [here] using rest
          | some d =>
              simp only [found, Follows] at here
              refine ⟨transfer s e s' d meets.1 step found, fun u hu => ?_⟩
              obtain rfl : view s' = u := by simpa [here] using hu
              exact rest

end Simulation

/-- Two systems in step with each other: what an event can do in related states leaves them
    related, and so does a run. -/
theorem exec_in_step {τ : Type*} {T : Transition τ ε} {R : σ → τ → Prop} {C : σ → ε → Prop}
    (together : ∀ s t e, R s t → C s e →
      ∃ s' t', S.step s e = some s' ∧ T.step t e = some t' ∧ R s' t')
    {s : σ} {t : τ} {es : List ε} (base : R s t) (meets : S.Meets C s es) :
    ∃ s' t', S.exec s es = some s' ∧ T.exec t es = some t' ∧ R s' t' := by
  induction es generalizing s t with
  | nil => exact ⟨s, t, rfl, rfl, base⟩
  | cons e es ih =>
      obtain ⟨s', t', first, second, related⟩ := together s t e base meets.1
      obtain ⟨u, v, firstRun, secondRun, last⟩ := ih related (meets.2 s' first)
      refine ⟨u, v, ?_, ?_, last⟩
      · exact (S.exec_cons_iff).mpr ⟨s', first, firstRun⟩
      · exact (T.exec_cons_iff).mpr ⟨t', second, secondRun⟩

end Transition
