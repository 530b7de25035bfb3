import Mathlib.Data.Finset.Card
import Mathlib.Data.Fintype.Card
import Mathlib.Data.Finset.Prod
import SiriusDrive.Lib.Transition

/-! # Messages passed on by the nodes of a network

A node that gets a message may send copies of it to other nodes. A message that
was sent stays available, so it is delivered any number of times, in any order
or not at all. If a node remembers what it has forwarded and never forgets it, it
forwards each message once, and the flooding comes to an end.
-/

/-- One node: what an event makes of its state, the message the event brings, if
    any, whether this message is forwarded, and the copies that are sent. -/
structure Flooding (σ ε α μ : Type*) where
  step : σ → ε → σ
  message : σ → ε → Option μ
  forwards : σ → ε → Bool
  copies : σ → ε → List (α × μ)
  address : σ → α

namespace Flooding

variable {ι σ ε α μ κ : Type*}

/-- The nodes, all that was ever sent, and who has forwarded what. -/
structure State (ι σ α μ : Type*) where
  nodes : ι → σ
  sent : List (α × μ) := []
  forwarded : List (ι × μ) := []

section System

variable [DecidableEq ι] (F : Flooding σ ε α μ)

/-- A message comes from outside or from the network. -/
def Available (injected : List μ) (state : State ι σ α μ) (i : ι) (m : μ) : Prop :=
  m ∈ injected ∨ (F.address (state.nodes i), m) ∈ state.sent

/-- What a node forwards on an event. -/
def forwardedMessage (s : σ) (e : ε) : Option μ := (F.message s e).filter fun _ => F.forwards s e

def after (state : State ι σ α μ) (i : ι) (e : ε) : State ι σ α μ where
  nodes := Function.update state.nodes i (F.step (state.nodes i) e)
  sent := state.sent ++ F.copies (state.nodes i) e
  forwarded := state.forwarded ++ ((F.forwardedMessage (state.nodes i) e).map (i, ·)).toList

@[simp] theorem after_nodes_self (state : State ι σ α μ) (i : ι) (e : ε) :
    (F.after state i e).nodes i = F.step (state.nodes i) e :=
  Function.update_self i _ _

@[simp] theorem after_nodes_of_ne (state : State ι σ α μ) {i j : ι} (other : j ≠ i) (e : ε) :
    (F.after state i e).nodes j = state.nodes j :=
  Function.update_of_ne other _ _

/-- What makes a node forward a message once: it remembers the key of a message it
    has forwarded, as long as only allowed events happen, and forwards no message
    whose key it remembers. Only copies of the message are sent. -/
structure Remembers (allowed : ε → Bool) (key : μ → κ) (remembers : σ → κ → Prop) : Prop where
  fresh : ∀ s e m, F.forwardedMessage s e = some m → ¬ remembers s (key m)
  stored : ∀ s e m, F.forwardedMessage s e = some m → remembers (F.step s e) (key m)
  kept : ∀ s e k, allowed e = true → remembers s k → remembers (F.step s e) k
  copied : ∀ s e a m, (a, m) ∈ F.copies s e → F.message s e = some m

variable {F} {allowed : ε → Bool} {key : μ → κ} {remembers : σ → κ → Prop} {injected : List μ}

/-- The keys of what was forwarded are remembered and distinct, and all messages
    come from outside. -/
structure Bounded (key : μ → κ) (remembers : σ → κ → Prop) (injected : List μ)
    (state : State ι σ α μ) : Prop where
  remembered : ∀ i m, (i, m) ∈ state.forwarded → remembers (state.nodes i) (key m)
  distinct : (state.forwarded.map fun sent => (sent.1, key sent.2)).Nodup
  sent : ∀ a m, (a, m) ∈ state.sent → m ∈ injected
  forwarded : ∀ i m, (i, m) ∈ state.forwarded → m ∈ injected

theorem forwardedMessage_message {s : σ} {e : ε} {m : μ}
    (forwarded : F.forwardedMessage s e = some m) : F.message s e = some m :=
  (Option.filter_eq_some_iff.mp forwarded).1

theorem Bounded.after (rule : F.Remembers allowed key remembers) {state : State ι σ α μ}
    (bounded : Bounded key remembers injected state) {i : ι} {e : ε} (may : allowed e = true)
    (available : ∀ m, F.message (state.nodes i) e = some m → F.Available injected state i m) :
    Bounded key remembers injected (F.after state i e) := by
  have known : ∀ m, F.message (state.nodes i) e = some m → m ∈ injected := by
    intro m isMessage
    rcases available m isMessage with outside | sent
    · exact outside
    · exact bounded.sent _ m sent
  have kept : ∀ j k, remembers (state.nodes j) k → remembers ((F.after state i e).nodes j) k := by
    intro j k before
    by_cases here : j = i
    · subst here
      rw [after_nodes_self]
      exact rule.kept _ e k may before
    · rw [after_nodes_of_ne F state here]
      exact before
  have added : ∀ j m, (j, m) ∈ (F.after state i e).forwarded → (j, m) ∈ state.forwarded ∨
      (j = i ∧ F.forwardedMessage (state.nodes i) e = some m) := by
    intro j m member
    rcases List.mem_append.mp member with old | new
    · exact .inl old
    · obtain ⟨_, forwarded, same⟩ := Option.map_eq_some_iff.mp (Option.mem_toList.mp new)
      obtain ⟨rfl, rfl⟩ := Prod.mk.inj same
      exact .inr ⟨rfl, forwarded⟩
  refine ⟨?_, ?_, ?_, ?_⟩
  · intro j m member
    rcases added j m member with old | ⟨rfl, forwarded⟩
    · exact kept j _ (bounded.remembered j m old)
    · rw [after_nodes_self]
      exact rule.stored _ e m forwarded
  · cases forwarded : F.forwardedMessage (state.nodes i) e with
    | none =>
        simp only [Flooding.after, forwarded, Option.map_none, Option.toList_none, List.append_nil]
        exact bounded.distinct
    | some m =>
        simp only [Flooding.after, forwarded, Option.map_some, Option.toList_some, List.map_append,
          List.map_cons, List.map_nil]
        apply List.Nodup.append bounded.distinct (List.nodup_singleton _)
        rw [List.disjoint_singleton]
        intro again
        obtain ⟨⟨j, other⟩, old, same⟩ := List.mem_map.mp again
        obtain ⟨rfl, sameKey⟩ := Prod.mk.inj same
        have before := bounded.remembered j other old
        rw [sameKey] at before
        exact rule.fresh _ e m forwarded before
  · intro a m member
    rcases List.mem_append.mp member with old | new
    · exact bounded.sent a m old
    · exact known m (rule.copied _ e a m new)
  · intro j m member
    rcases added j m member with old | ⟨rfl, forwarded⟩
    · exact bounded.forwarded j m old
    · exact known m (forwardedMessage_message forwarded)

/-! ## The network -/

variable [DecidableEq α] [DecidableEq μ] (F) (allowed) (injected)

instance (injected : List μ) (state : State ι σ α μ) (i : ι) (m : μ) :
    Decidable (F.Available injected state i m) :=
  inferInstanceAs (Decidable (_ ∨ _))

/-- The network: allowed events happen at the nodes, with messages that are there. -/
def network (allowed : ε → Bool) (injected : List μ) : Transition (State ι σ α μ) (ι × ε) where
  step state event :=
    if allowed event.2 = true ∧ ∀ m ∈ F.message (state.nodes event.1) event.2,
        F.Available injected state event.1 m then
      some (F.after state event.1 event.2)
    else none

variable {F allowed injected}

theorem network_step {state after : State ι σ α μ} {i : ι} {e : ε} :
    (F.network allowed injected).step state (i, e) = some after ↔
      (allowed e = true ∧ ∀ m, F.message (state.nodes i) e = some m →
        F.Available injected state i m) ∧ F.after state i e = after := by
  simp only [network, Option.ite_none_right_eq_some, Option.some.injEq, Option.mem_def]

theorem bounded_of_run (rule : F.Remembers allowed key remembers) {nodes : ι → σ}
    {events : List (ι × ε)} {state : State ι σ α μ}
    (run : (F.network allowed injected).exec { nodes } events = some state) :
    Bounded key remembers injected state := by
  apply Transition.invariant_of_step (I := fun state : State ι σ α μ =>
    Bounded key remembers injected state) _ _ run
  · rintro before ⟨i, e⟩ after bounded step
    obtain ⟨⟨may, available⟩, rfl⟩ := network_step.mp step
    exact bounded.after rule may available
  · refine ⟨?_, List.nodup_nil, ?_, ?_⟩ <;> simp

theorem forwarded_once (rule : F.Remembers allowed key remembers) {nodes : ι → σ}
    {events : List (ι × ε)} {state : State ι σ α μ}
    (run : (F.network allowed injected).exec { nodes } events = some state) :
    (state.forwarded.map fun sent => (sent.1, key sent.2)).Nodup :=
  (bounded_of_run rule run).distinct

/-- So a finite network forwards no more than each injected message at each node. -/
theorem forwarded_length_le [Fintype ι] (rule : F.Remembers allowed key remembers) {nodes : ι → σ}
    {events : List (ι × ε)} {state : State ι σ α μ}
    (run : (F.network allowed injected).exec { nodes } events = some state) :
    state.forwarded.length ≤ Fintype.card ι * injected.length := by
  classical
  have bounded := bounded_of_run rule run
  have within : (state.forwarded.map fun sent => (sent.1, key sent.2)).toFinset ⊆
      (Finset.univ : Finset ι) ×ˢ (injected.map key).toFinset := by
    rintro ⟨i, k⟩ member
    obtain ⟨⟨j, m⟩, forwarded, same⟩ := List.mem_map.mp (List.mem_toFinset.mp member)
    obtain ⟨rfl, rfl⟩ := Prod.mk.inj same
    have fromOutside := List.mem_map_of_mem (f := key) (bounded.forwarded j m forwarded)
    simpa using fromOutside
  calc state.forwarded.length
      = (state.forwarded.map fun sent => (sent.1, key sent.2)).toFinset.card := by
        rw [List.toFinset_card_of_nodup bounded.distinct, List.length_map]
    _ ≤ ((Finset.univ : Finset ι) ×ˢ (injected.map key).toFinset).card := Finset.card_le_card within
    _ = Fintype.card ι * (injected.map key).toFinset.card := Finset.card_product _ _
    _ ≤ Fintype.card ι * injected.length := by
        apply Nat.mul_le_mul_left
        calc (injected.map key).toFinset.card ≤ (injected.map key).length := List.toFinset_card_le _
          _ = injected.length := List.length_map _

end System

end Flooding
