import Mathlib.Data.List.ReduceOption
import PubSub.Foundations.DataRefinement

/-!
# Bounded first-in first-out queues

A queue of bounded capacity: elements are put at its end and taken from its front.  A put
on a full queue and a get from an empty one are not possible; whoever wants to make such a
call has to wait.

Main results:

- Definition {lit}`boundedFifo`: the two calls on the queue.
- Theorem {lit}`boundedFifo_conserves`: what the gets of a sequence of calls have returned,
  followed by what is still in the queue, is what the puts have given, in this order.
-/

namespace Foundations

universe u

variable {α : Type u} {capacity : Nat}

/-- A call on a queue. -/
inductive FifoCall (α : Type u) where
  | put (newElement : α)
  | get
deriving DecidableEq, Repr

/-- The element that a call gives to the queue. -/
def FifoCall.given : FifoCall α → Option α
  | .put newElement => some newElement
  | .get => none

/-- The calls on a queue, with the element that a get returns. -/
def boundedFifo (capacity : Nat) (xs : List α) : FifoCall α → Option (List α × Option α)
  | .put newElement => if xs.length < capacity then some (xs ++ [newElement], none) else none
  | .get =>
      match xs with
      | [] => none
      | x :: xs => some (xs, some x)

/-- A call moves elements through the queue and keeps their order. -/
theorem boundedFifo_call {xs ys : List α} {c : FifoCall α} {returned : Option α}
    (h : boundedFifo capacity xs c = some (ys, returned)) :
    returned.toList ++ ys = xs ++ c.given.toList := by
  cases c with
  | put newElement =>
      simp only [boundedFifo] at h
      split at h
      · simp only [Option.some.injEq, Prod.mk.injEq] at h
        rcases h with ⟨rfl, rfl⟩
        rfl
      · contradiction
  | get =>
      cases xs with
      | nil => simp [boundedFifo] at h
      | cons x xs =>
          simp only [boundedFifo, Option.some.injEq, Prod.mk.injEq] at h
          rcases h with ⟨rfl, rfl⟩
          simp [FifoCall.given]

/-- So does a sequence of calls. -/
theorem boundedFifo_conserves {xs ys : List α} {calls : List (FifoCall α)}
    {returned : List (Option α)}
    (h : runCalls (boundedFifo capacity) xs calls = some (ys, returned)) :
    returned.reduceOption ++ ys = xs ++ calls.filterMap FifoCall.given := by
  induction calls generalizing xs returned with
  | nil =>
      simp only [runCalls, Option.some.injEq, Prod.mk.injEq] at h
      rcases h with ⟨rfl, rfl⟩
      simp
  | cons c calls ih =>
      rcases runCalls_cons_eq_some_iff.mp h with ⟨zs, first, rest, hfirst, hrest, rfl⟩
      have hmoved := boundedFifo_call hfirst
      calc (first :: rest).reduceOption ++ ys
          = first.toList ++ (rest.reduceOption ++ ys) := by cases first <;> simp
        _ = first.toList ++ zs ++ calls.filterMap FifoCall.given := by
            rw [ih hrest, List.append_assoc]
        _ = xs ++ (c :: calls).filterMap FifoCall.given := by
            rw [hmoved, List.append_assoc]
            cases hgiven : c.given <;> simp [hgiven]

end Foundations
