import NetImitate.Library.Machine

/-!
# FIFO queues with their history

* `Fifo α` : the content of a queue with everything pushed and everything popped so far;
* `Fifo.machine` : push any list at the back, pop any number from the front;
* `Fifo.run_conserved` : what has been popped, followed by what is left, is what has been pushed.
-/

namespace NetImitate

/-- A queue with everything that ever went in and everything that ever came out. -/
structure Fifo (α : Type*) where
  content : List α
  pushed : List α
  popped : List α

namespace Fifo
variable {α : Type*}

inductive Op (α : Type*) where
  | push (xs : List α)
  | pop (n : Nat)

/-- The empty queue. -/
def empty : Fifo α := ⟨[], [], []⟩

def apply (q : Fifo α) : Op α → Fifo α
  | .push xs => ⟨q.content ++ xs, q.pushed ++ xs, q.popped⟩
  | .pop n => ⟨q.content.drop n, q.pushed, q.popped ++ q.content.take n⟩

def machine : Machine (Fifo α) (Op α) := ⟨fun q op => some (q.apply op)⟩

/-- Nothing lost, nothing invented, in order. -/
def Conserved (q : Fifo α) : Prop := q.popped ++ q.content = q.pushed

theorem conserved_empty : Conserved (empty : Fifo α) := rfl

theorem Conserved.apply {q : Fifo α} (h : q.Conserved) (op : Op α) : (q.apply op).Conserved := by
  unfold Conserved at h ⊢
  cases op with
  | push xs => rw [Fifo.apply, ← List.append_assoc, h]
  | pop n => rw [Fifo.apply, List.append_assoc, List.take_append_drop, h]

theorem run_conserved {q q' : Fifo α} {ops : List (Op α)} (hq : q.Conserved)
    (h : machine.run q ops = some q') : q'.Conserved := by
  refine machine.run_invariant ?_ ops q q' hq h
  intro s op s' hs hstep
  rw [show machine.step s op = some (s.apply op) from rfl, Option.some.injEq] at hstep
  exact hstep ▸ hs.apply op

end Fifo

end NetImitate
