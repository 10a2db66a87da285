import MultithreadedChat.Foundation.TransitionSystem

/-! # A bounded FIFO

The sequence of the items pushed and not popped yet, of bounded length. In every
run the pushed items are the popped ones followed by the contents
(`Fifo.pushed_eq`): nothing is lost, duplicated or reordered.
-/

/-- Pushing an item, and popping one. -/
inductive FifoOp (α : Type*)
  | push (item : α)
  | pop (item : α)

namespace Fifo

variable {α : Type*}

/-- The operations of a FIFO that holds at most `bound` items. -/
inductive Step (bound : ℕ) : List α → FifoOp α → List α → Prop
  | push {contents : List α} (item : α) : contents.length < bound →
      Step bound contents (.push item) (contents ++ [item])
  | pop (item : α) (contents : List α) : Step bound (item :: contents) (.pop item) contents

/-- The runs of a FIFO that starts empty. -/
def system (α : Type*) (bound : ℕ) : TransitionSystem (List α) (FifoOp α) where
  initial contents := contents = []
  step := Step bound

/-- The items pushed by a sequence of operations. -/
def pushed (ops : List (FifoOp α)) : List α :=
  ops.filterMap fun
    | .push item => some item
    | .pop _ => none

/-- The items popped by a sequence of operations. -/
def popped (ops : List (FifoOp α)) : List α :=
  ops.filterMap fun
    | .push _ => none
    | .pop item => some item

variable {bound : ℕ} {trace : List (List α × FifoOp α)} {contents : List α}

/-- Items come out in the order in which they went in, and the others are still there. -/
theorem pushed_eq (execution : (system α bound).Execution trace contents) :
    pushed (trace.map Prod.snd) = popped (trace.map Prod.snd) ++ contents := by
  induction execution with
  | start initial =>
      cases initial
      rfl
  | step _ moved ih =>
      simp only [pushed, popped, List.map_append, List.filterMap_append] at ih ⊢
      rw [ih]
      cases moved <;> simp

theorem length_le (execution : (system α bound).Execution trace contents) :
    contents.length ≤ bound := by
  have reachable : (system α bound).Reachable contents := ⟨trace, execution⟩
  refine reachable.invariant (I := fun contents => contents.length ≤ bound) ?_ ?_
  · intro contents initial
    cases initial
    exact Nat.zero_le _
  · intro before label after within moved
    cases moved with
    | push item room =>
        rw [List.length_append, List.length_singleton]
        exact room
    | pop item contents => exact Nat.le_of_succ_le within

end Fifo
