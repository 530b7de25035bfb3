import Std.Data.TreeMap.Lemmas
import Mathlib.Data.List.Nodup
import SiriusDrive.Lib.OneShotTimer
import SiriusDrive.Lib.Transition

/-! # Collecting opinions until a quorum agrees

A party forms an opinion of its own and collects those of others, one for each
of them. Opinions that arrive before its own are kept unchecked until the party
validates them in a later step. The collected opinions are emitted at once when
all others have answered, or when a timer fires which is started at a quorum. A
failed emission starts the collection over; a closed one is never emitted.

How many opinions are a quorum is a function of the number of other parties and
of a minimum of parties.
-/

/-- What is emitted: the party's own opinion and the collected ones. -/
structure Emission (α : Type*) where
  own : α
  others : List α

/-- The state of a collection over keys `κ` and opinions `α`. -/
structure Collection (κ α : Type*) (cmp : κ → κ → Ordering) where
  /-- The key of the party itself. -/
  self : κ
  /-- The number of other parties. -/
  others : Nat
  minimum : Nat
  own : Option α := none
  /-- The opinions that came before `own` have been checked. -/
  validated : Bool := false
  received : Std.TreeMap κ α cmp := ∅
  sent : Bool := false
  closed : Bool := false
  timer : OneShotTimer := .unset
  emissions : List (Emission α) := []

/-- The steps of a collection. -/
inductive CollectionEvent (α : Type*) where
  | own (opinion : α)
  | validate
  | receive (opinion : α)
  | expire
  | fail
  | close
  | cancelTimer
  | configure (others minimum : Nat)

namespace Collection

variable {κ α : Type*} {cmp : κ → κ → Ordering}

/-- Emit what has been collected, unless that was done or is not wanted any more. -/
def emit (s : Collection κ α cmp) : Collection κ α cmp :=
  match s.own with
  | none => s
  | some own =>
      if s.sent ∨ s.closed then s
      else
        { s with
          emissions := s.emissions ++ [⟨own, s.received.toList.map Prod.snd⟩]
          sent := true }

variable (quorum : Nat → Nat → Nat)

/-- Emit if all others have answered, start the timer at a quorum. -/
def check (s : Collection κ α cmp) : Collection κ α cmp :=
  if s.own.isSome ∧ s.others ≤ s.received.size ∧ s.sent = false ∧ s.closed = false then
    emit { s with timer := .unset }
  else if s.own.isSome ∧ quorum s.minimum s.others ≤ s.received.size ∧ s.sent = false ∧ s.closed = false then
    if s.timer.isSet then s else { s with timer := .pending }
  else s

variable (key : α → κ) (agrees : α → α → Bool)

/-- Put an opinion under the key of its author. -/
def store (s : Collection κ α cmp) (opinion : α) : Collection κ α cmp :=
  { s with received := s.received.insert (key opinion) opinion }

def receive (s : Collection κ α cmp) (opinion : α) : Collection κ α cmp :=
  match s.own with
  | some own => if agrees own opinion then check quorum (s.store key opinion) else s
  | none => s.store key opinion

/-- Drop the collected opinions that do not agree with the own one. A closed
    collection is only marked. -/
def validate (s : Collection κ α cmp) (own : α) : Collection κ α cmp :=
  if s.closed then { s with validated := true }
  else
    check quorum { s with
      validated := true
      received := s.received.filter fun _ opinion => agrees own opinion }

def fail (s : Collection κ α cmp) : Collection κ α cmp :=
  if s.closed then s else { s with sent := false, received := ∅ }

/-- The steps; a timer fires only while it is pending, and validation needs an
    opinion of one's own. -/
def system : Transition (Collection κ α cmp) (CollectionEvent α) where
  step s
    | .own opinion => some { s with own := some opinion }
    | .validate => s.own.map fun own => s.validate quorum agrees own
    | .receive opinion => some (s.receive quorum key agrees opinion)
    | .expire => if s.timer = .pending then some (emit { s with timer := .expired }) else none
    | .fail => some s.fail
    | .close => some { s with closed := true }
    | .cancelTimer => some { s with timer := .unset }
    | .configure others minimum => some { s with others, minimum }

/-! ## What `emit` and `check` change -/

/-- The two outcomes of `emit`. -/
inductive Emitted (s : Collection κ α cmp) : Collection κ α cmp → Prop where
  | kept (why : s.own = none ∨ s.sent = true ∨ s.closed = true) : Emitted s s
  | sent (own : α) (isOwn : s.own = some own) (unsent : s.sent = false)
      (opened : s.closed = false) :
      Emitted s { s with
        emissions := s.emissions ++ [⟨own, s.received.toList.map Prod.snd⟩]
        sent := true }

theorem emit_cases (s : Collection κ α cmp) : Emitted s s.emit := by
  cases found : s.own with
  | none =>
      have same : s.emit = s := by simp only [emit, found]
      rw [same]
      exact .kept (.inl found)
  | some own =>
      by_cases stopped : s.sent = true ∨ s.closed = true
      · have same : s.emit = s := by simp only [emit, found, if_pos stopped]
        rw [same]
        exact .kept (.inr stopped)
      · have result : s.emit = { s with
            emissions := s.emissions ++ [⟨own, s.received.toList.map Prod.snd⟩]
            sent := true } := by
          simp only [emit, found, if_neg stopped]
        rw [result]
        simp only [not_or, Bool.not_eq_true] at stopped
        exact .sent own found stopped.1 stopped.2

/-- The three outcomes of `check`. -/
inductive Checked (s : Collection κ α cmp) : Collection κ α cmp → Prop where
  /-- All others have answered. -/
  | all (own : α) (isOwn : s.own = some own) (complete : s.others ≤ s.received.size)
      (unsent : s.sent = false) (opened : s.closed = false) :
      Checked s { s with
        timer := .unset
        emissions := s.emissions ++ [⟨own, s.received.toList.map Prod.snd⟩]
        sent := true }
  /-- A quorum starts the timer. -/
  | started (enough : quorum s.minimum s.others ≤ s.received.size) (isOwn : s.own.isSome)
      (unsent : s.sent = false) (opened : s.closed = false) (unset : s.timer = .unset) :
      Checked s { s with timer := .pending }
  | kept (why : s.own = none ∨ s.sent = true ∨ s.closed = true ∨
      s.received.size < quorum s.minimum s.others ∨ s.timer ≠ .unset) : Checked s s

theorem check_cases (s : Collection κ α cmp) : Checked quorum s (s.check quorum) := by
  by_cases complete : s.own.isSome ∧ s.others ≤ s.received.size ∧ s.sent = false ∧ s.closed = false
  · obtain ⟨own, isOwn⟩ := Option.isSome_iff_exists.mp complete.1
    have result : s.check quorum = { s with
        timer := .unset
        emissions := s.emissions ++ [⟨own, s.received.toList.map Prod.snd⟩]
        sent := true } := by
      rw [check, if_pos complete]
      simp only [emit, isOwn, complete.2.2.1, complete.2.2.2, Bool.false_eq_true, or_self, if_false]
    rw [result]
    exact .all own isOwn complete.2.1 complete.2.2.1 complete.2.2.2
  · by_cases enough : s.own.isSome ∧ quorum s.minimum s.others ≤ s.received.size ∧ s.sent = false ∧ s.closed = false
    · by_cases set : s.timer.isSet = true
      · have result : s.check quorum = s := by simp only [check, if_neg complete, if_pos enough, if_pos set]
        rw [result]
        refine .kept (.inr (.inr (.inr (.inr ?_))))
        rintro unset
        simp [unset, OneShotTimer.isSet] at set
      · have result : s.check quorum = { s with timer := .pending } := by
          simp only [check, if_neg complete, if_pos enough, if_neg set]
        rw [result]
        exact .started enough.2.1 enough.1 enough.2.2.1 enough.2.2.2
          ((OneShotTimer.isSet_eq_false_iff _).mp (by simpa using set))
    · have result : s.check quorum = s := by simp only [check, if_neg complete, if_neg enough]
      rw [result]
      refine .kept ?_
      cases isOwn : s.own <;> cases sent : s.sent <;> cases closed : s.closed <;>
        simp_all

theorem received_filter [Std.TransCmp cmp] [Std.LawfulEqCmp cmp] {t : Std.TreeMap κ α cmp}
    {p : α → Bool} {k : κ} {opinion : α}
    (found : (t.filter fun _ opinion => p opinion)[k]? = some opinion) :
    t[k]? = some opinion ∧ p opinion = true := by
  rw [Std.TreeMap.getElem?_filter', Option.filter_eq_some_iff] at found
  exact found

theorem mem_others [Std.TransCmp cmp] [Std.LawfulEqCmp cmp] {t : Std.TreeMap κ α cmp} {opinion : α} :
    opinion ∈ t.toList.map Prod.snd ↔ ∃ k : κ, t[k]? = some opinion := by
  simp only [List.mem_map, Prod.exists, Std.TreeMap.mem_toList_iff_getElem?_eq_some,
    exists_eq_right]

section OwnFirst

/-- There is an own opinion before anything is validated or timed. -/
structure OwnFirst (s : Collection κ α cmp) : Prop where
  validated : s.validated = true → s.own.isSome
  timed : s.timer ≠ .unset → s.own.isSome

variable {quorum}

theorem Checked.ownFirst {s t : Collection κ α cmp} (checked : s.Checked quorum t)
    (inv : s.OwnFirst) : t.OwnFirst := by
  cases checked with
  | all own isOwn => exact ⟨fun _ => by simp [isOwn], fun set => by simp at set⟩
  | started enough isOwn => exact ⟨fun _ => isOwn, fun _ => isOwn⟩
  | kept => exact inv

theorem Emitted.ownFirst {s t : Collection κ α cmp} (emitted : s.Emitted t) (inv : s.OwnFirst) :
    t.OwnFirst := by
  cases emitted with
  | kept => exact inv
  | sent => exact ⟨inv.validated, inv.timed⟩

variable {key agrees}

theorem OwnFirst.step {s t : Collection κ α cmp} {event : CollectionEvent α} (inv : s.OwnFirst)
    (step : (system quorum key agrees).step s event = some t) : t.OwnFirst := by
  cases event with
  | own opinion =>
      obtain rfl : { s with own := some opinion } = t := by simpa [system] using step
      exact ⟨fun _ => rfl, fun _ => rfl⟩
  | validate =>
      obtain ⟨own, isOwn, rfl⟩ : ∃ own, s.own = some own ∧ s.validate quorum agrees own = t := by
        simpa [system] using step
      simp only [validate]
      split
      · exact ⟨fun _ => by simp [isOwn], inv.timed⟩
      · exact (check_cases quorum _).ownFirst ⟨fun _ => by simp [isOwn], inv.timed⟩
  | receive opinion =>
      obtain rfl : s.receive quorum key agrees opinion = t := by simpa [system] using step
      have stored : (s.store key opinion).OwnFirst := ⟨inv.validated, inv.timed⟩
      simp only [receive]
      split
      · split
        · exact (check_cases quorum _).ownFirst stored
        · exact inv
      · exact stored
  | expire =>
      obtain ⟨pending, rfl⟩ : s.timer = .pending ∧ { s with timer := .expired }.emit = t := by
        simpa [system] using step
      exact (emit_cases { s with timer := .expired }).ownFirst
        ⟨inv.validated, fun _ => inv.timed (by simp [pending])⟩
  | fail =>
      obtain rfl : s.fail = t := by simpa [system] using step
      simp only [fail]
      split
      · exact inv
      · exact ⟨inv.validated, inv.timed⟩
  | close =>
      obtain rfl : { s with closed := true } = t := by simpa [system] using step
      exact ⟨inv.validated, inv.timed⟩
  | cancelTimer =>
      obtain rfl : { s with timer := .unset } = t := by simpa [system] using step
      exact ⟨inv.validated, fun set => by simp at set⟩
  | configure others minimum =>
      obtain rfl : { s with others := others, minimum := minimum } = t := by
        simpa [system] using step
      exact ⟨inv.validated, inv.timed⟩

end OwnFirst

section Agreement

variable [Std.TransCmp cmp] [Std.LawfulEqCmp cmp]

/-- All collected opinions agree with the own one. -/
def AllAgree (s : Collection κ α cmp) : Prop :=
  ∀ own, s.own = some own → ∀ (k : κ) (opinion : α), s.received[k]? = some opinion →
    agrees own opinion = true

/-- Every emission carries opinions only that agree with its own one. -/
def EmissionsAgree (s : Collection κ α cmp) : Prop :=
  ∀ e ∈ s.emissions, ∀ opinion ∈ e.others, agrees e.own opinion = true

/-- Nothing is emitted with a disagreeing opinion between the forming of the own
    opinion and its validation, by the answer that completes the others or by the
    timer. An own opinion formed anew agrees with what has been checked. -/
def WindowAgrees (s : Collection κ α cmp) : CollectionEvent α → Prop
  | .own opinion =>
      s.validated = true → s.closed = false → AllAgree agrees { s with own := some opinion }
  | .receive opinion =>
      ∀ own, s.own = some own → agrees own opinion = true → s.validated = false →
        s.sent = false → s.closed = false → s.others ≤ (s.store key opinion).received.size →
          (s.store key opinion).AllAgree agrees
  | .expire => s.validated = false → s.sent = false → s.closed = false → s.AllAgree agrees
  | _ => True

/-- What keeps the emissions in agreement. -/
structure Agreed (s : Collection κ α cmp) : Prop where
  checked : s.validated = true → s.closed = false → s.AllAgree agrees
  emitted : s.EmissionsAgree agrees

variable {agrees} in
private theorem agree_append {s : Collection κ α cmp} {own : α} (emitted : s.EmissionsAgree agrees)
    (agree : ∀ (k : κ) (opinion : α), s.received[k]? = some opinion → agrees own opinion = true)
    {e : Emission α}
    (member : e ∈ s.emissions ++ [⟨own, s.received.toList.map Prod.snd⟩]) :
    ∀ opinion ∈ e.others, agrees e.own opinion = true := by
  rcases List.mem_append.mp member with old | new
  · exact emitted e old
  · obtain rfl := List.mem_singleton.mp new
    intro opinion inside
    obtain ⟨k, found⟩ := mem_others.mp inside
    exact agree k opinion found

variable {agrees quorum}

theorem Checked.agreed {s t : Collection κ α cmp} (checked : s.Checked quorum t) (inv : s.Agreed agrees)
    (agree : s.sent = false → s.closed = false → s.others ≤ s.received.size → s.AllAgree agrees) :
    t.Agreed agrees := by
  cases checked with
  | all own isOwn complete unsent opened =>
      exact ⟨inv.checked,
        fun _ member => agree_append inv.emitted (agree unsent opened complete own isOwn) member⟩
  | started => exact ⟨inv.checked, inv.emitted⟩
  | kept => exact inv

theorem Emitted.agreed {s t : Collection κ α cmp} (emitted : s.Emitted t) (inv : s.Agreed agrees)
    (agree : s.sent = false → s.closed = false → s.AllAgree agrees) : t.Agreed agrees := by
  cases emitted with
  | kept => exact inv
  | sent own isOwn unsent opened =>
      exact ⟨inv.checked,
        fun _ member => agree_append inv.emitted (agree unsent opened own isOwn) member⟩

omit [Std.LawfulEqCmp cmp] in
theorem AllAgree.store {s : Collection κ α cmp} (all : s.AllAgree agrees) {own opinion : α}
    (isOwn : s.own = some own) (agreeing : agrees own opinion = true) :
    (s.store key opinion).AllAgree agrees := by
  intro own' isOwn' k o found
  obtain rfl : own = own' := Option.some.inj (isOwn.symm.trans isOwn')
  rw [Collection.store, Std.TreeMap.getElem?_insert] at found
  split at found
  · obtain rfl : opinion = o := by simpa using found
    exact agreeing
  · exact all own isOwn k o found

theorem Agreed.step {s t : Collection κ α cmp} {event : CollectionEvent α} (inv : s.Agreed agrees)
    (ownFirst : s.OwnFirst) (window : s.WindowAgrees key agrees event)
    (step : (system quorum key agrees).step s event = some t) : t.Agreed agrees := by
  cases event with
  | own opinion =>
      obtain rfl : { s with own := some opinion } = t := by simpa [system] using step
      exact ⟨window, inv.emitted⟩
  | validate =>
      obtain ⟨own, isOwn, rfl⟩ : ∃ own, s.own = some own ∧ s.validate quorum agrees own = t := by
        simpa [system] using step
      simp only [validate]
      split
      · rename_i closed
        refine ⟨fun _ opened => ?_, inv.emitted⟩
        simp [closed] at opened
      · have agree : ∀ own', s.own = some own' → ∀ (k : κ) (opinion : α),
            (s.received.filter fun _ opinion => agrees own opinion)[k]? = some opinion →
              agrees own' opinion = true := by
          intro own' isOwn' k opinion found
          obtain rfl : own = own' := by simpa [isOwn] using isOwn'
          exact (received_filter found).2
        exact (check_cases quorum _).agreed ⟨fun _ _ => agree, inv.emitted⟩ (fun _ _ _ => agree)
  | receive opinion =>
      obtain rfl : s.receive quorum key agrees opinion = t := by simpa [system] using step
      cases isOwn : s.own with
      | none =>
          have unchecked : s.validated = false := by
            cases validated : s.validated with
            | false => rfl
            | true => simpa [isOwn] using ownFirst.validated validated
          simp only [receive, isOwn]
          exact ⟨fun validated => absurd (unchecked.symm.trans validated) Bool.false_ne_true,
            inv.emitted⟩
      | some own =>
          simp only [receive, isOwn]
          split
          · rename_i agreeing
            have checked : s.validated = true → s.closed = false →
                (s.store key opinion).AllAgree agrees := fun validated opened =>
              (inv.checked validated opened).store key isOwn agreeing
            refine (check_cases quorum _).agreed ⟨checked, inv.emitted⟩
              (fun unsent opened complete => ?_)
            -- before the validation it is the condition on the window that helps
            cases validated : s.validated with
            | true => exact checked validated opened
            | false => exact window own isOwn agreeing validated unsent opened complete
          · exact inv
  | expire =>
      obtain ⟨-, rfl⟩ : s.timer = .pending ∧ { s with timer := .expired }.emit = t := by
        simpa [system] using step
      refine (emit_cases _).agreed ⟨inv.checked, inv.emitted⟩ (fun unsent opened => ?_)
      cases validated : s.validated with
      | true => exact inv.checked validated opened
      | false => exact window validated unsent opened
  | fail =>
      obtain rfl : s.fail = t := by simpa [system] using step
      simp only [fail]
      split
      · exact inv
      · refine ⟨fun _ _ own _ k opinion found => ?_, inv.emitted⟩
        simp at found
  | close =>
      obtain rfl : { s with closed := true } = t := by simpa [system] using step
      exact ⟨fun _ opened => by simp at opened, inv.emitted⟩
  | cancelTimer =>
      obtain rfl : { s with timer := .unset } = t := by simpa [system] using step
      exact ⟨inv.checked, inv.emitted⟩
  | configure others minimum =>
      obtain rfl : { s with others := others, minimum := minimum } = t := by
        simpa [system] using step
      exact ⟨inv.checked, inv.emitted⟩

theorem Agreed.run {s t : Collection κ α cmp} {es : List (CollectionEvent α)}
    (inv : s.Agreed agrees) (ownFirst : s.OwnFirst)
    (window : (system quorum key agrees).Meets (WindowAgrees key agrees) s es)
    (run : (system quorum key agrees).exec s es = some t) : t.Agreed agrees := by
  have preserved : ∀ (s : Collection κ α cmp) e t, (s.OwnFirst ∧ s.Agreed agrees) → s.WindowAgrees key agrees e →
      (system quorum key agrees).step s e = some t → (t.OwnFirst ∧ t.Agreed agrees) :=
    fun _ _ _ inv window step => ⟨inv.1.step step, inv.2.step key inv.1 window step⟩
  exact (Transition.invariant preserved ⟨ownFirst, inv⟩ window run).2

end Agreement

section Quorum

/-- The numbers do not change, and while the timer is pending nothing takes the
    collection below the quorum. -/
def KeepsQuorum (s : Collection κ α cmp) : CollectionEvent α → Prop
  | .configure .. => False
  | .fail => s.closed = true ∨ s.timer ≠ .pending
  | .validate => s.closed = false → s.timer = .pending → ∀ own, s.own = some own →
      quorum s.minimum s.others ≤ (s.received.filter fun _ opinion => agrees own opinion).size
  | _ => True

/-- With `n` other parties and a minimum of `m`, a pending timer has a quorum behind
    it, and the emissions carry the opinions of all others or of a quorum. -/
structure Quorate (n m : Nat) (s : Collection κ α cmp) : Prop where
  others : s.others = n
  minimum : s.minimum = m
  behind : s.timer = .pending → quorum m n ≤ s.received.size
  emitted : ∀ e ∈ s.emissions, n ≤ e.others.length ∨ quorum m n ≤ e.others.length

variable {quorum} {n m : Nat}

private theorem enough_append {s : Collection κ α cmp} {own : α} (inv : s.Quorate quorum n m)
    (enough : n ≤ s.received.size ∨ quorum m n ≤ s.received.size) :
    ∀ e ∈ s.emissions ++ [⟨own, s.received.toList.map Prod.snd⟩],
      n ≤ e.others.length ∨ quorum m n ≤ e.others.length := by
  intro e member
  rcases List.mem_append.mp member with old | new
  · exact inv.emitted e old
  · obtain rfl := List.mem_singleton.mp new
    simpa [Std.TreeMap.length_toList] using enough

theorem Checked.quorate {s t : Collection κ α cmp} (checked : s.Checked quorum t)
    (inv : s.Quorate quorum n m) : t.Quorate quorum n m := by
  cases checked with
  | all own isOwn complete =>
      rw [inv.others] at complete
      exact ⟨inv.others, inv.minimum, fun pending => by simp at pending,
        enough_append inv (.inl complete)⟩
  | started enough =>
      rw [inv.others, inv.minimum] at enough
      exact ⟨inv.others, inv.minimum, fun _ => enough, inv.emitted⟩
  | kept => exact inv

theorem Emitted.quorate {s t : Collection κ α cmp} (emitted : s.Emitted t)
    (inv : s.Quorate quorum n m) (enough : quorum m n ≤ s.received.size) :
    t.Quorate quorum n m := by
  cases emitted with
  | kept => exact inv
  | sent => exact ⟨inv.others, inv.minimum, inv.behind, enough_append inv (.inr enough)⟩

variable {key agrees}

theorem Quorate.step [Std.TransCmp cmp] {s t : Collection κ α cmp} {event : CollectionEvent α}
    (inv : s.Quorate quorum n m) (keeps : s.KeepsQuorum quorum agrees event)
    (step : (system quorum key agrees).step s event = some t) : t.Quorate quorum n m := by
  cases event with
  | own opinion =>
      obtain rfl : { s with own := some opinion } = t := by simpa [system] using step
      exact ⟨inv.others, inv.minimum, inv.behind, inv.emitted⟩
  | validate =>
      obtain ⟨own, isOwn, rfl⟩ : ∃ own, s.own = some own ∧ s.validate quorum agrees own = t := by
        simpa [system] using step
      simp only [validate]
      split
      · exact ⟨inv.others, inv.minimum, inv.behind, inv.emitted⟩
      · rename_i opened
        refine (check_cases quorum _).quorate ⟨inv.others, inv.minimum, fun pending => ?_, inv.emitted⟩
        have kept := keeps (by simpa using opened) pending own isOwn
        rwa [inv.others, inv.minimum] at kept
  | receive opinion =>
      obtain rfl : s.receive quorum key agrees opinion = t := by simpa [system] using step
      have stored : (s.store key opinion).Quorate quorum n m := by
        refine ⟨inv.others, inv.minimum, fun pending => Nat.le_trans (inv.behind pending) ?_,
          inv.emitted⟩
        exact Std.TreeMap.size_le_size_insert
      simp only [receive]
      split
      · split
        · exact (check_cases quorum _).quorate stored
        · exact inv
      · exact stored
  | expire =>
      obtain ⟨pending, rfl⟩ : s.timer = .pending ∧ { s with timer := .expired }.emit = t := by
        simpa [system] using step
      exact (emit_cases { s with timer := .expired }).quorate
        ⟨inv.others, inv.minimum, fun fires => by simp at fires, inv.emitted⟩ (inv.behind pending)
  | fail =>
      obtain rfl : s.fail = t := by simpa [system] using step
      simp only [fail]
      split
      · exact inv
      · rename_i opened
        refine ⟨inv.others, inv.minimum, fun pending => ?_, inv.emitted⟩
        rcases keeps with closed | idle
        · exact absurd closed opened
        · exact absurd pending idle
  | close =>
      obtain rfl : { s with closed := true } = t := by simpa [system] using step
      exact ⟨inv.others, inv.minimum, inv.behind, inv.emitted⟩
  | cancelTimer =>
      obtain rfl : { s with timer := .unset } = t := by simpa [system] using step
      exact ⟨inv.others, inv.minimum, fun pending => by simp at pending, inv.emitted⟩
  | configure => exact keeps.elim

theorem Quorate.run [Std.TransCmp cmp] {s t : Collection κ α cmp} {es : List (CollectionEvent α)}
    (inv : s.Quorate quorum n m) (keeps : (system quorum key agrees).Meets (KeepsQuorum quorum agrees) s es)
    (run : (system quorum key agrees).exec s es = some t) : t.Quorate quorum n m :=
  Transition.invariant (fun _ _ _ inv keeps step => inv.step keeps step) inv keeps run

end Quorum

section Authors

variable [Std.TransCmp cmp] [Std.LawfulEqCmp cmp]

/-- The own opinion is by the party itself, the received ones are not. -/
def KnowsAuthors (s : Collection κ α cmp) : CollectionEvent α → Prop
  | .own opinion => key opinion = s.self
  | .receive opinion => key opinion ≠ s.self
  | _ => True

/-- The emissions carry one opinion of each author. -/
structure Authored (s : Collection κ α cmp) : Prop where
  own : ∀ own, s.own = some own → key own = s.self
  stored : ∀ (k : κ) (opinion : α), s.received[k]? = some opinion → key opinion = k ∧ k ≠ s.self
  emitted : ∀ e ∈ s.emissions, ((e.own :: e.others).map key).Nodup

variable {key quorum}

private theorem authors_append {s : Collection κ α cmp} {own : α} (inv : s.Authored key)
    (isOwn : s.own = some own) :
    ∀ e ∈ s.emissions ++ [⟨own, s.received.toList.map Prod.snd⟩],
      ((e.own :: e.others).map key).Nodup := by
  intro e member
  rcases List.mem_append.mp member with old | new
  · exact inv.emitted e old
  · obtain rfl := List.mem_singleton.mp new
    have keys : (s.received.toList.map Prod.snd).map key = s.received.toList.map Prod.fst := by
      rw [List.map_map]
      refine List.map_congr_left fun entry member => ?_
      exact (inv.stored entry.1 entry.2
        (Std.TreeMap.mem_toList_iff_getElem?_eq_some.mp member)).1
    rw [List.map_cons, List.nodup_cons]
    constructor
    · intro inside
      obtain ⟨opinion, member, same⟩ := List.mem_map.mp inside
      obtain ⟨k, found⟩ := mem_others.mp member
      obtain ⟨isKey, other⟩ := inv.stored k opinion found
      exact other (isKey.symm.trans (same.trans (inv.own own isOwn)))
    · rw [keys, List.nodup_iff_pairwise_ne, List.pairwise_map]
      refine Std.TreeMap.distinct_keys_toList.imp fun apart same => apart ?_
      rw [same]; exact Std.ReflCmp.compare_self

theorem Checked.authored {s t : Collection κ α cmp} (checked : s.Checked quorum t)
    (inv : s.Authored key) : t.Authored key := by
  cases checked with
  | all own isOwn => exact ⟨inv.own, inv.stored, authors_append inv isOwn⟩
  | started => exact ⟨inv.own, inv.stored, inv.emitted⟩
  | kept => exact inv

theorem Emitted.authored {s t : Collection κ α cmp} (emitted : s.Emitted t)
    (inv : s.Authored key) : t.Authored key := by
  cases emitted with
  | kept => exact inv
  | sent own isOwn => exact ⟨inv.own, inv.stored, authors_append inv isOwn⟩

variable {agrees}

theorem Authored.step {s t : Collection κ α cmp} {event : CollectionEvent α}
    (inv : s.Authored key) (knows : s.KnowsAuthors key event)
    (step : (system quorum key agrees).step s event = some t) : t.Authored key := by
  cases event with
  | own opinion =>
      obtain rfl : { s with own := some opinion } = t := by simpa [system] using step
      refine ⟨fun own isOwn => ?_, inv.stored, inv.emitted⟩
      obtain rfl := Option.some.inj isOwn
      exact knows
  | validate =>
      obtain ⟨own, -, rfl⟩ : ∃ own, s.own = some own ∧ s.validate quorum agrees own = t := by
        simpa [system] using step
      simp only [validate]
      split
      · exact ⟨inv.own, inv.stored, inv.emitted⟩
      · refine (check_cases quorum _).authored ⟨inv.own, fun k opinion found => ?_, inv.emitted⟩
        exact inv.stored k opinion (received_filter found).1
  | receive opinion =>
      obtain rfl : s.receive quorum key agrees opinion = t := by simpa [system] using step
      have stored : (s.store key opinion).Authored key := by
        refine ⟨inv.own, fun k o found => ?_, inv.emitted⟩
        rw [store, Std.TreeMap.getElem?_insert] at found
        split at found
        · rename_i same
          obtain rfl : opinion = o := by simpa using found
          obtain rfl : key opinion = k := Std.LawfulEqCmp.compare_eq_iff_eq.mp same
          exact ⟨rfl, knows⟩
        · exact inv.stored k o found
      simp only [receive]
      split
      · split
        · exact (check_cases quorum _).authored stored
        · exact inv
      · exact stored
  | expire =>
      obtain ⟨-, rfl⟩ : s.timer = .pending ∧ { s with timer := .expired }.emit = t := by
        simpa [system] using step
      exact (emit_cases { s with timer := .expired }).authored ⟨inv.own, inv.stored, inv.emitted⟩
  | fail =>
      obtain rfl : s.fail = t := by simpa [system] using step
      simp only [fail]
      split
      · exact inv
      · exact ⟨inv.own, fun k opinion found => by simp at found, inv.emitted⟩
  | close =>
      obtain rfl : { s with closed := true } = t := by simpa [system] using step
      exact ⟨inv.own, inv.stored, inv.emitted⟩
  | cancelTimer =>
      obtain rfl : { s with timer := .unset } = t := by simpa [system] using step
      exact ⟨inv.own, inv.stored, inv.emitted⟩
  | configure others minimum =>
      obtain rfl : { s with others := others, minimum := minimum } = t := by
        simpa [system] using step
      exact ⟨inv.own, inv.stored, inv.emitted⟩

theorem Authored.run {s t : Collection κ α cmp} {es : List (CollectionEvent α)}
    (inv : s.Authored key) (knows : (system quorum key agrees).Meets (KnowsAuthors key) s es)
    (run : (system quorum key agrees).exec s es = some t) : t.Authored key :=
  Transition.invariant (fun _ _ _ inv knows step => inv.step knows step) inv knows run

end Authors

section Retry

/-- Failures come before the timer has fired, a pending timer is left alone and no
    change of the numbers turns the collected opinions into a quorum. -/
def Retriable (s : Collection κ α cmp) : CollectionEvent α → Prop
  | .fail => s.closed = true ∨ s.timer ≠ .expired
  | .cancelTimer => False
  | .configure others minimum =>
      0 < quorum minimum others ∧
        (quorum minimum others ≤ s.received.size → quorum s.minimum s.others ≤ s.received.size)
  | _ => True

/-- What holds after a failure, with `count` emissions made before it, apart from
    the timer that is to run. -/
structure Unarmed (count : Nat) (s : Collection κ α cmp) : Prop where
  positive : 0 < quorum s.minimum s.others
  before : count ≤ s.emissions.length
  resent : s.sent = true → count < s.emissions.length
  unfired : s.sent = false → s.closed = false → s.timer ≠ .expired

/-- As long as nothing is sent again, a quorum of validated opinions has a pending
    timer. -/
structure Retrying (count : Nat) (s : Collection κ α cmp) : Prop extends
    Unarmed quorum count s where
  armed : s.validated = true → s.sent = false → s.closed = false →
    quorum s.minimum s.others ≤ s.received.size → s.timer = .pending

variable {quorum key agrees} {count : Nat}

theorem Checked.retrying {s t : Collection κ α cmp} (checked : s.Checked quorum t)
    (hasOwn : s.own.isSome) (inv : s.Unarmed quorum count) : t.Retrying quorum count := by
  cases checked with
  | all =>
      refine ⟨⟨inv.positive, ?_, fun _ => ?_, fun unsent => by simp at unsent⟩,
        fun _ unsent => by simp at unsent⟩
      · exact Nat.le_trans inv.before (by simp)
      · exact Nat.lt_of_le_of_lt inv.before (by simp)
  | started =>
      exact ⟨⟨inv.positive, inv.before, inv.resent, fun _ _ => by simp⟩, fun _ _ _ _ => rfl⟩
  | kept why =>
      refine ⟨inv, fun _ unsent opened enough => ?_⟩
      rcases why with noOwn | sent | closed | few | set
      · simp [noOwn] at hasOwn
      · simp [sent] at unsent
      · simp [closed] at opened
      · exact absurd enough (Nat.not_le_of_lt few)
      · have unfired := inv.unfired unsent opened
        cases timer : s.timer with
        | unset => exact absurd timer set
        | pending => rfl
        | expired => exact absurd timer unfired

theorem Emitted.retrying {s t : Collection κ α cmp}
    (emitted : Emitted { s with timer := .expired } t) (hasOwn : s.own.isSome)
    (inv : s.Unarmed quorum count) : t.Retrying quorum count := by
  cases emitted with
  | kept why =>
      have stopped : s.sent = true ∨ s.closed = true := by
        refine why.resolve_left fun noOwn => ?_
        simp only at noOwn
        simp [noOwn] at hasOwn
      have never : s.sent = false → s.closed = false → False := by
        intro unsent opened
        rcases stopped with sent | closed
        · simp [sent] at unsent
        · simp [closed] at opened
      exact ⟨⟨inv.positive, inv.before, inv.resent,
        fun unsent opened => (never unsent opened).elim⟩,
        fun _ unsent opened => (never unsent opened).elim⟩
  | sent own isOwn unsent opened =>
      exact ⟨⟨inv.positive, Nat.le_trans inv.before (by simp),
        fun _ => Nat.lt_of_le_of_lt inv.before (by simp), fun unsent => by simp at unsent⟩,
        fun _ unsent => by simp at unsent⟩

theorem Retrying.step {s t : Collection κ α cmp} {event : CollectionEvent α}
    (inv : s.Retrying quorum count) (ownFirst : s.OwnFirst) (retriable : s.Retriable quorum event)
    (step : (system quorum key agrees).step s event = some t) : t.Retrying quorum count := by
  cases event with
  | own opinion =>
      obtain rfl : { s with own := some opinion } = t := by simpa [system] using step
      exact ⟨⟨inv.positive, inv.before, inv.resent, inv.unfired⟩, inv.armed⟩
  | validate =>
      obtain ⟨own, isOwn, rfl⟩ : ∃ own, s.own = some own ∧ s.validate quorum agrees own = t := by
        simpa [system] using step
      simp only [validate]
      split
      · rename_i closed
        refine ⟨⟨inv.positive, inv.before, inv.resent, inv.unfired⟩, fun _ _ opened => ?_⟩
        simp [closed] at opened
      · exact (check_cases quorum _).retrying (by simp [isOwn])
          ⟨inv.positive, inv.before, inv.resent, inv.unfired⟩
  | receive opinion =>
      obtain rfl : s.receive quorum key agrees opinion = t := by simpa [system] using step
      cases isOwn : s.own with
      | none =>
          simp only [receive, isOwn]
          refine ⟨⟨inv.positive, inv.before, inv.resent, inv.unfired⟩, fun validated => ?_⟩
          simpa [isOwn] using ownFirst.validated validated
      | some own =>
          simp only [receive, isOwn]
          split
          · exact (check_cases quorum _).retrying (by simp [store, isOwn])
              ⟨inv.positive, inv.before, inv.resent, inv.unfired⟩
          · exact inv
  | expire =>
      obtain ⟨pending, rfl⟩ : s.timer = .pending ∧ { s with timer := .expired }.emit = t := by
        simpa [system] using step
      exact (emit_cases { s with timer := .expired }).retrying
        (ownFirst.timed (by simp [pending])) inv.toUnarmed
  | fail =>
      obtain rfl : s.fail = t := by simpa [system] using step
      simp only [fail]
      split
      · exact inv
      · rename_i opened
        have unfired : s.timer ≠ .expired := retriable.resolve_left opened
        refine ⟨⟨inv.positive, inv.before, fun sent => by simp at sent, fun _ _ => unfired⟩,
          fun _ _ _ enough => ?_⟩
        have positive := inv.positive
        simp at enough
        omega
  | close =>
      obtain rfl : { s with closed := true } = t := by simpa [system] using step
      exact ⟨⟨inv.positive, inv.before, inv.resent, fun _ opened => by simp at opened⟩,
        fun _ _ opened => by simp at opened⟩
  | cancelTimer => exact retriable.elim
  | configure others minimum =>
      obtain rfl : { s with others := others, minimum := minimum } = t := by
        simpa [system] using step
      exact ⟨⟨retriable.1, inv.before, inv.resent, inv.unfired⟩,
        fun validated unsent opened enough =>
          inv.armed validated unsent opened (retriable.2 enough)⟩

theorem fail_retrying {s : Collection κ α cmp} (positive : 0 < quorum s.minimum s.others)
    (opened : s.closed = false) (unfired : s.timer ≠ .expired) :
    s.fail.Retrying quorum s.emissions.length := by
  simp only [fail, opened, Bool.false_eq_true, if_false]
  refine ⟨⟨positive, Nat.le_refl _, fun sent => by simp at sent, fun _ _ => unfired⟩,
    fun _ _ _ enough => ?_⟩
  simp at enough
  omega

theorem Retrying.run {s t : Collection κ α cmp} {es : List (CollectionEvent α)}
    (inv : s.Retrying quorum count) (ownFirst : s.OwnFirst)
    (retriable : (system quorum key agrees).Meets (Retriable quorum) s es)
    (run : (system quorum key agrees).exec s es = some t) : t.Retrying quorum count := by
  have preserved : ∀ (s : Collection κ α cmp) e t, (s.OwnFirst ∧ s.Retrying quorum count) → s.Retriable quorum e →
      (system quorum key agrees).step s e = some t → (t.OwnFirst ∧ t.Retrying quorum count) :=
    fun _ _ _ inv retriable step => ⟨inv.1.step step, inv.2.step inv.1 retriable step⟩
  exact (Transition.invariant preserved ⟨ownFirst, inv⟩ retriable run).2

end Retry

section Losses

/-- An opinion is in the collection, or it disagrees with the own one. -/
def Retains (s : Collection κ α cmp) (opinion : α) : Prop :=
  s.received[key opinion]? = some opinion ∨ ∃ own, s.own = some own ∧ agrees own opinion = false

/-- The steps that do not lose an opinion: it is not replaced by another one of its author, not
    dropped with the others by a failure, and not agreed with after it has been refused. -/
def Spares (s : Collection κ α cmp) (opinion : α) : CollectionEvent α → Prop
  | .own new => s.received[key opinion]? = some opinion ∨ agrees new opinion = false
  | .receive other =>
      key other = key opinion → other = opinion ∨
        ∃ own, s.own = some own ∧ (agrees own other = false ∨ agrees own opinion = false)
  | .fail => s.closed = true ∨ ∃ own, s.own = some own ∧ agrees own opinion = false
  | _ => True

variable {quorum key agrees} {opinion : α}

theorem Retains.of_same {s t : Collection κ α cmp} (retains : s.Retains key agrees opinion)
    (own : t.own = s.own) (received : t.received = s.received) : t.Retains key agrees opinion := by
  rw [Retains, own, received]
  exact retains

theorem Emitted.retains_iff {s t : Collection κ α cmp} (emitted : s.Emitted t) :
    t.Retains key agrees opinion ↔ s.Retains key agrees opinion := by
  cases emitted <;> exact Iff.rfl

theorem Checked.retains_iff {s t : Collection κ α cmp} (checked : s.Checked quorum t) :
    t.Retains key agrees opinion ↔ s.Retains key agrees opinion := by
  cases checked <;> exact Iff.rfl

variable [Std.TransCmp cmp]

theorem store_retains_iff {s : Collection κ α cmp} {other : α} (same : key other = key opinion) :
    (s.store key other).Retains key agrees opinion ↔
      other = opinion ∨ ∃ own, s.own = some own ∧ agrees own opinion = false := by
  simp only [Retains, store, same, Std.TreeMap.getElem?_insert_self, Option.some.injEq]

theorem retains_receive {s : Collection κ α cmp} :
    (s.receive quorum key agrees opinion).Retains key agrees opinion := by
  have stored : (s.store key opinion).Retains key agrees opinion :=
    (store_retains_iff rfl).mpr (.inl rfl)
  unfold receive
  split
  · rename_i own isOwn
    split
    · exact (check_cases quorum _).retains_iff.mpr stored
    · rename_i refused
      exact .inr ⟨own, isOwn, by simpa using refused⟩
  · exact stored

variable [Std.LawfulEqCmp cmp]

theorem Retains.store {s : Collection κ α cmp} (retains : s.Retains key agrees opinion) {other : α}
    (apart : key other ≠ key opinion) : (s.store key other).Retains key agrees opinion := by
  rcases retains with isThere | refused
  · left
    rw [Collection.store, Std.TreeMap.getElem?_insert, if_neg]
    · exact isThere
    · intro same
      exact apart (Std.LawfulEqCmp.compare_eq_iff_eq.mp same)
  · exact .inr refused

theorem Retains.receive_iff {s : Collection κ α cmp} (retains : s.Retains key agrees opinion)
    (other : α) : (s.receive quorum key agrees other).Retains key agrees opinion ↔
      s.Spares key agrees opinion (.receive other) := by
  have stored : (s.store key other).Retains key agrees opinion ↔
      (key other = key opinion → other = opinion ∨
        ∃ own, s.own = some own ∧ agrees own opinion = false) := by
    by_cases same : key other = key opinion
    · rw [store_retains_iff same]
      exact ⟨fun spared _ => spared, fun spared => spared same⟩
    · exact iff_of_true (retains.store same) fun isSame => absurd isSame same
  unfold receive Spares
  cases isOwn : s.own with
  | none => simpa [isOwn] using stored
  | some own =>
      simp only
      split
      · rename_i accepted
        rw [(check_cases quorum _).retains_iff, stored]
        simp [isOwn, accepted]
      · rename_i refused
        exact iff_of_true retains fun _ => .inr ⟨own, rfl, .inl (by simpa using refused)⟩

theorem Retains.step_iff {s t : Collection κ α cmp} {event : CollectionEvent α}
    (retains : s.Retains key agrees opinion)
    (step : (system quorum key agrees).step s event = some t) :
    t.Retains key agrees opinion ↔ s.Spares key agrees opinion event := by
  cases event with
  | own new =>
      obtain rfl : { s with own := some new } = t := by simpa [system] using step
      simp [Retains, Spares]
  | validate =>
      obtain ⟨own, isOwn, rfl⟩ : ∃ own, s.own = some own ∧ s.validate quorum agrees own = t := by
        simpa [system] using step
      refine iff_of_true ?_ trivial
      unfold validate
      split
      · exact retains.of_same rfl rfl
      · rw [(check_cases quorum _).retains_iff]
        rcases retains with isThere | refused
        · cases agreed : agrees own opinion with
          | false => exact .inr ⟨own, isOwn, agreed⟩
          | true =>
              left
              simp only [Std.TreeMap.getElem?_filter', isThere, Option.filter_some, agreed, if_true]
        · exact .inr refused
  | receive other =>
      obtain rfl : s.receive quorum key agrees other = t := by simpa [system] using step
      exact retains.receive_iff other
  | expire =>
      obtain ⟨-, rfl⟩ : s.timer = .pending ∧ { s with timer := .expired }.emit = t := by
        simpa [system] using step
      rw [(emit_cases _).retains_iff]
      exact iff_of_true (retains.of_same rfl rfl) trivial
  | fail =>
      obtain rfl : s.fail = t := by simpa [system] using step
      unfold fail Spares
      split
      · rename_i closed
        exact iff_of_true retains (.inl closed)
      · rename_i opened
        simp [Retains, opened]
  | close =>
      obtain rfl : { s with closed := true } = t := by simpa [system] using step
      exact iff_of_true (retains.of_same rfl rfl) trivial
  | cancelTimer =>
      obtain rfl : { s with timer := .unset } = t := by simpa [system] using step
      exact iff_of_true (retains.of_same rfl rfl) trivial
  | configure others minimum =>
      obtain rfl : { s with others := others, minimum := minimum } = t := by
        simpa [system] using step
      exact iff_of_true (retains.of_same rfl rfl) trivial

end Losses

end Collection
