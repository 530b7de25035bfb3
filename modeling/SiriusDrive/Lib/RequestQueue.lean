import SiriusDrive.Lib.QueuePrefix
import SiriusDrive.Lib.Transition

/-! # Queues of requests

Requests are received, cancelled and started one by one, and the queue is cut at a key.
A request that is started has been received, after all the requests that were started
before it; a request that has left the queue is not started any more.
-/

/-- What happens to a queue of requests that have keys. -/
inductive QueueOp (α β : Type*) where
  | receive (request : α)
  | cancel (key : β)
  | start
  /-- The requests up to the one with the key are not started any more. -/
  | skip (key : β)

namespace QueueOp

variable {α β : Type*}

def received : QueueOp α β → List α
  | .receive request => [request]
  | .cancel _ | .start | .skip _ => []

def started (queue : List α) : QueueOp α β → List α
  | .start => queue.head?.toList
  | .receive _ | .cancel _ | .skip _ => []

section
variable [DecidableEq β] (f : α → β)

def apply (queue : List α) : QueueOp α β → List α
  | .receive request => queue ++ [request]
  | .cancel key => queue.eraseP (f · = key)
  | .start => queue.tail
  | .skip key => queue.past f key

def applyAll (queue : List α) (ops : List (QueueOp α β)) : List α := ops.foldl (apply f) queue

/-- The requests that are started one after the other. -/
def startedAll (queue : List α) : List (QueueOp α β) → List α
  | [] => []
  | op :: ops => op.started queue ++ startedAll (op.apply f queue) ops

variable {f}

/-- The queue is cut behind what is started, and grows by what is received. -/
theorem started_append_apply (queue : List α) (op : QueueOp α β) :
    (op.started queue ++ op.apply f queue).Sublist (queue ++ op.received) := by
  cases op with
  | receive request => exact List.Sublist.refl _
  | cancel key =>
      rw [started, received, apply, List.nil_append, List.append_nil]
      exact List.eraseP_sublist
  | start =>
      cases queue with
      | nil => exact List.Sublist.refl _
      | cons request queue =>
          rw [received, List.append_nil]
          exact List.Sublist.refl _
  | skip key =>
      rw [started, received, apply, List.nil_append, List.append_nil]
      exact List.past_sublist key queue

theorem startedAll_append_applyAll (queue : List α) (ops : List (QueueOp α β)) :
    (startedAll f queue ops ++ applyAll f queue ops).Sublist
      (queue ++ ops.flatMap received) := by
  induction ops generalizing queue with
  | nil => simp [startedAll, applyAll]
  | cons op ops ih =>
      have here := started_append_apply (f := f) queue op
      have later := ih (op.apply f queue)
      rw [startedAll, List.append_assoc, List.flatMap_cons, ← List.append_assoc queue]
      refine (later.append_left _).trans ?_
      rw [← List.append_assoc]
      exact here.append_right _

theorem startedAll_append (queue : List α) (front back : List (QueueOp α β)) :
    startedAll f queue (front ++ back) =
      startedAll f queue front ++ startedAll f (applyAll f queue front) back := by
  induction front generalizing queue with
  | nil => rfl
  | cons op front ih =>
      rw [List.cons_append, startedAll, startedAll, ih, List.append_assoc]
      rfl

theorem startedAll_receive (queue requests : List α) :
    startedAll f queue (requests.map .receive) = [] := by
  induction requests generalizing queue with
  | nil => rfl
  | cons request requests ih => exact ih _

theorem applyAll_receive (queue requests : List α) :
    applyAll f queue (requests.map .receive) = queue ++ requests := by
  induction requests generalizing queue with
  | nil => exact (List.append_nil queue).symm
  | cons request requests ih =>
      refine (ih (queue ++ [request])).trans ?_
      rw [List.append_assoc]
      rfl

theorem applyAll_append (queue : List α) (front back : List (QueueOp α β)) :
    applyAll f queue (front ++ back) = applyAll f (applyAll f queue front) back :=
  List.foldl_append

end

end QueueOp

/-! ## Systems with a queue -/

namespace Transition

variable {σ ε α β : Type*} [DecidableEq β] {S : Transition σ ε} {f : α → β} {queue : σ → List α}
  {ops : σ → ε → List (QueueOp α β)}

/-- Along the runs of the system operations are carried out on its queue. -/
def OperatesOn (S : Transition σ ε) (f : α → β) (queue : σ → List α)
    (ops : σ → ε → List (QueueOp α β)) : Prop :=
  ∀ s e s', S.step s e = some s' → queue s' = QueueOp.applyAll f (queue s) (ops s e)

def started (f : α → β) (queue : σ → List α) (ops : σ → ε → List (QueueOp α β)) (s : σ) (e : ε) :
    List α :=
  QueueOp.startedAll f (queue s) (ops s e)

/-- What a run starts and what it leaves in the queue has been received, in this order. -/
theorem OperatesOn.started_append_queue (operates : S.OperatesOn f queue ops) {s t : σ}
    {es : List ε} (run : S.exec s es = some t) :
    (S.trace (started f queue ops) s es ++ queue t).Sublist
      (queue s ++ S.trace (fun s e => (ops s e).flatMap QueueOp.received) s es) := by
  induction es generalizing s with
  | nil =>
      obtain rfl : s = t := by simpa using run
      simp [trace]
  | cons e es ih =>
      obtain ⟨s', step, rest⟩ := (S.exec_cons_iff).mp run
      have here := QueueOp.startedAll_append_applyAll (f := f) (queue s) (ops s e)
      rw [← operates s e s' step] at here
      rw [trace_cons step, trace_cons step, List.append_assoc, ← List.append_assoc (queue s)]
      refine ((ih rest).append_left _).trans ?_
      rw [← List.append_assoc]
      exact here.append_right _

end Transition
