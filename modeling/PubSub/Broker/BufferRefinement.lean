import PubSub.Broker.BufferInvariant
import PubSub.Foundations.BoundedFifo

/-!
# The outgoing buffer as a bounded first-in first-out queue

Any sequence of calls of {lit}`put` and {lit}`get` on an initialised buffer, each made where the
wait loop in front of it has ended because it found space or an element.  A full and an
empty buffer have the same two indices; only the counter tells them apart, and the wait
loops look at nothing else.

Main results:

- Theorem {lit}`OutgoingBuffer.guardedCall_agrees`: a call on the buffer is possible exactly
  when it is on the queue that the buffer stores, and returns the same.
- Theorem {lit}`outgoingBuffer_refines_boundedFifo`: so is every sequence of calls; the
  indices stay inside the array and no {lit}`put` overwrites what has not been taken.
- Theorem {lit}`threads_make_guardedCalls`: the calls that the threads make on the buffer
  before a shutdown are such a sequence.
-/

namespace PubSub
namespace Broker

open Foundations

universe u

variable {Element : Type u}

/-! ## Calls -/

namespace OutgoingBuffer

/-- A call behind its wait loop: {lit}`produce_new_message` waits while the counter is
{lit}`MAX_OUTGOING_BUFFER_SIZE`, and {lit}`consume` waits while it is zero. -/
def guardedCall (b : OutgoingBuffer Element) :
    FifoCall Element → Option (OutgoingBuffer Element × Option Element)
  | .put newElement =>
      if b.count = maxOutgoingBufferSize then none else some (b.put newElement, none)
  | .get => if b.count = 0 then none else some (b.get.2, some b.get.1)

/-- The indices are inside the array, and the counter is the distance between them. -/
structure WellIndexed (b : OutgoingBuffer Element) : Prop where
  fillIdx_lt : b.fillIdx < maxOutgoingBufferSize
  useIdx_lt : b.useIdx < maxOutgoingBufferSize
  count_nonneg : 0 ≤ b.count
  count_le : b.count ≤ maxOutgoingBufferSize
  fillIdx_eq : (b.fillIdx : Int) = (b.useIdx + b.count) % maxOutgoingBufferSize

/-- While there is space, {lit}`put` writes to none of the slots from {lit}`use_idx` on whose
elements have not been taken. -/
def KeepsUntaken (b : OutgoingBuffer Element) : Prop :=
  b.count < maxOutgoingBufferSize →
    ∀ k : Nat, (k : Int) < b.count → (b.useIdx + k) % maxOutgoingBufferSize ≠ b.fillIdx

/-! ## Refinement -/

variable {b : OutgoingBuffer Element} {xs : List Element}

theorem Holds.wellIndexed (hb : b.Holds xs) : b.WellIndexed where
  fillIdx_lt := by
    rw [hb.ring.fill_eq]
    exact Nat.mod_lt _ (by decide)
  useIdx_lt := hb.ring.use_lt
  count_nonneg := hb.count_bounds.1
  count_le := hb.count_bounds.2
  fillIdx_eq := by
    rw [hb.ring.fill_eq, hb.count_eq]
    push_cast
    rfl

/-- Two slots less than a capacity apart are different, and the slot at {lit}`fill_idx` is the
one behind the elements. -/
theorem Holds.keepsUntaken (hb : b.Holds xs) : b.KeepsUntaken := by
  intro hspace k hk
  rw [hb.count_eq] at hspace hk
  rw [hb.ring.fill_eq]
  exact Ring.index_ne (by omega) (by omega)

/-- On a buffer that stores a queue, a call is the call on that queue. -/
theorem guardedCall_agrees (b : OutgoingBuffer Element) (xs : List Element)
    (c : FifoCall Element) (hb : b.Holds xs) :
    CallsAgree Holds (b.guardedCall c) (boundedFifo maxOutgoingBufferSize xs c) := by
  have hcount := hb.count_eq
  cases c with
  | put newElement =>
      by_cases hfull : b.count = maxOutgoingBufferSize
      · rw [guardedCall, if_pos hfull, boundedFifo, if_neg (by omega)]
        exact .impossible
      · have hle := hb.count_bounds.2
        rw [guardedCall, if_neg hfull, boundedFifo, if_pos (by omega)]
        exact .possible (put_holds hb newElement (by omega))
  | get =>
      cases xs with
      | nil =>
          rw [guardedCall, if_pos (by simpa using hcount), boundedFifo]
          exact .impossible
      | cons x xs =>
          rw [List.length_cons] at hcount
          rcases get_holds hb with ⟨hx, hget⟩
          rw [guardedCall, if_neg (by omega), boundedFifo, hx]
          exact .possible hget

end OutgoingBuffer

open OutgoingBuffer

/-- Every sequence of calls on an initialised buffer is the same sequence of calls on a
bounded queue: it is possible exactly when that is, returns the same and leaves the
same elements.  Wherever it ends, both indices are inside the array and {lit}`fill_idx` is
the counter ahead of {lit}`use_idx`, no {lit}`put` overwrites an element that has not been taken,
and the elements that have been taken, followed by those in the buffer, are the ones
that have been put. -/
theorem outgoingBuffer_refines_boundedFifo (garbage : Nat → Element)
    (calls : List (FifoCall Element)) :
    (runCalls guardedCall (initializeOutgoingBuffer garbage) calls).map (Prod.map contents id) =
        runCalls (boundedFifo maxOutgoingBufferSize) [] calls ∧
      ∀ b returned,
        runCalls guardedCall (initializeOutgoingBuffer garbage) calls = some (b, returned) →
          b.WellIndexed ∧ b.KeepsUntaken ∧
            returned.reduceOption ++ b.contents = calls.filterMap FifoCall.given := by
  have hstart : (initializeOutgoingBuffer garbage).Holds [] :=
    initializeOutgoingBuffer_holds garbage
  have hagree := runCalls_agree guardedCall_agrees hstart calls
  refine ⟨hagree.map_eq fun _ _ hb => hb.contents_eq, fun b returned hrun => ?_⟩
  rcases hagree.of_eq_some hrun with ⟨xs, hqueue, hb⟩
  refine ⟨hb.wellIndexed, hb.keepsUntaken, ?_⟩
  rw [hb.contents_eq, boundedFifo_conserves hqueue, List.nil_append]

/-- Calls that go around the array: the last element but one is put in the last slot, and the
last one in the first. -/
def wrapAround : List (FifoCall Nat) :=
  (List.range 99).flatMap (fun k => [.put k, .get]) ++ [.put 99, .put 100, .get]

theorem outgoingBuffer_refines_boundedFifo_wrapAround :
    ∃ b returned,
      runCalls guardedCall (initializeOutgoingBuffer fun _ => 0) wrapAround = some (b, returned) ∧
        b.useIdx = 0 ∧ b.fillIdx = 1 ∧ b.contents = [100] ∧ b.WellIndexed ∧ b.KeepsUntaken ∧
          returned.reduceOption ++ [100] = wrapAround.filterMap FifoCall.given := by
  rcases outgoingBuffer_refines_boundedFifo (fun _ => 0) wrapAround with ⟨hview, hends⟩
  have hindices : (runCalls guardedCall (initializeOutgoingBuffer fun _ => 0) wrapAround).map
      (fun result => (result.1.useIdx, result.1.fillIdx)) = some (0, 1) := by
    decide +kernel
  have hqueue : (runCalls (boundedFifo maxOutgoingBufferSize) [] wrapAround).map Prod.fst =
      some [100] := by decide +kernel
  rcases Option.map_eq_some_iff.mp hindices with ⟨⟨b, returned⟩, hrun, hb⟩
  rw [Prod.mk.injEq] at hb
  rw [← hview, hrun] at hqueue
  have hcontents : b.contents = [100] := Option.some.inj hqueue
  rcases hends b returned hrun with ⟨hindexed, hkeeps, hconserved⟩
  rw [hcontents] at hconserved
  exact ⟨b, returned, hrun, hb.1, hb.2, hcontents, hindexed, hkeeps, hconserved⟩

/-! ## The calls of the threads -/

section Threads

variable {n : Nat} {s s' : Threads n}

/-- What a step of the threads does to the buffer, and to the histories of its elements. -/
inductive BufferCallStep (s s' : Threads n) : Prop
  | same (hbuffer : s'.outgoingBuffer = s.outgoingBuffer) (hput : s'.log.put = s.log.put)
      (htaken : s'.log.taken = s.log.taken)
  | call (c : FifoCall (OutgoingBufferElement n)) (returned : Option (OutgoingBufferElement n))
      (hcall : s.outgoingBuffer.guardedCall c = some (s'.outgoingBuffer, returned))
      (hput : s'.log.put = s.log.put ++ c.given.toList)
      (htaken : s'.log.taken = s.log.taken ++ returned.toList)

/-- A step outside the critical section makes no call. -/
theorem OutsideStep.bufferCall (h : OutsideStep s s') : BufferCallStep s s' :=
  .same h.buffer h.put h.taken

/-- A thread puts its element when the buffer has space for it. -/
theorem produceNewMessage_bufferCall (hs : BufferInv s) {w : ThreadId n} {pc : ProducePc n}
    (hprod : s.producing w = some pc) (hstep : produceNewMessage s w pc = some s') :
    BufferCallStep s s' := by
  cases produceNewMessage_cases hstep with
  | move | giveUp => exact .same rfl rfl rfl
  | put e =>
      have hspace : s.outgoingBuffer.count < maxOutgoingBufferSize := hs.putSpace w e hprod
      apply BufferCallStep.call (.put e) none
      · rw [guardedCall, if_neg (by omega)]
        rfl
      · rfl
      · exact (List.append_nil _).symm

/-- The consumer takes an element from a nonempty buffer. -/
theorem consume_bufferCall {wake : Option (ThreadId n)}
    (hget : s.consumer = .get → s.outgoingBuffer.count ≠ 0)
    (hstep : consume s wake = some s') : BufferCallStep s s' := by
  cases consume_cases hstep with
  | move | sent | signal => exact .same rfl rfl rfl
  | get hpc =>
      apply BufferCallStep.call .get (some s.outgoingBuffer.get.1)
      · rw [guardedCall, if_neg (hget hpc)]
      · exact (List.append_nil _).symm
      · rfl
  | leave hpc hwake =>
      rcases Threads.wakeEmptyCv_cases hwake with rfl | ⟨w, rfl⟩
      all_goals exact .same rfl rfl rfl

/-- A step of the threads makes at most one call on the buffer, behind its wait loop. -/
theorem threadStep_bufferCall (hs : BufferInv s) {a : Action n} (hget : GetsFromNonempty s a)
    (hstep : threadStep s a = some s') : BufferCallStep s s' := by
  cases threadStep_cases hstep with
  | publish hstep => exact (enqueue_outside hstep).bufferCall
  | respond hidle => exact .same rfl rfl rfl
  | main hprod hstep => exact produceNewMessage_bufferCall hs hprod hstep
  | topic hstep =>
      cases produce_cases hstep with
      | call hprod hcall => exact produceNewMessage_bufferCall hs hprod hcall
      | move | callNull | take | signal => exact .same rfl rfl rfl
  | consumer hstep => exact consume_bufferCall hget hstep
  | shutDown hstep => exact (shutDownThreads_outside hstep).bufferCall
  | spurious w => exact (wakeSpuriously_outside s w).bufferCall

/-- Calls that lead from an initialised buffer to the one of the threads. -/
def MadeGuardedCalls (s : Threads n) : Prop :=
  ∃ garbage calls returned,
    runCalls guardedCall (initializeOutgoingBuffer garbage) calls =
        some (s.outgoingBuffer, returned) ∧
      calls.filterMap FifoCall.given = s.log.put ∧ returned.reduceOption = s.log.taken

/-- A step adds its call. -/
theorem BufferCallStep.madeGuardedCalls (hstep : BufferCallStep s s')
    (hs : MadeGuardedCalls s) : MadeGuardedCalls s' := by
  rcases hs with ⟨garbage, calls, returned, hrun, hgiven, hreturned⟩
  cases hstep with
  | same hbuffer hput htaken =>
      refine ⟨garbage, calls, returned, ?_, ?_, ?_⟩
      · rw [hrun, hbuffer]
      · rw [hgiven, hput]
      · rw [hreturned, htaken]
  | call c r hcall hput htaken =>
      refine ⟨garbage, calls ++ [c], returned ++ [r], ?_, ?_, ?_⟩
      · simp only [runCalls_append_singleton, hrun, Option.bind_some, hcall, Option.map_some]
      · rw [List.filterMap_append, hgiven, hput]
        cases hc : c.given <;> simp [hc]
      · rw [List.reduceOption_append, hreturned, htaken]
        cases r <;> rfl

/-- As long as the consumer calls {lit}`get` on a nonempty buffer only, the threads make a
sequence of calls each of which its wait loop has let through. -/
theorem threads_make_guardedCalls {created : Fin n → Bool} {consumerCreated : Bool}
    (hreach : (threadSystem created consumerCreated).ReachableVia GetsFromNonempty s) :
    MadeGuardedCalls s := by
  have hboth : BufferInv s ∧ MadeGuardedCalls s := by
    refine System.ReachableVia.invariant (fun s => BufferInv s ∧ MadeGuardedCalls s) ?_ ?_ hreach
    · rintro s ⟨garbage, rfl⟩
      exact ⟨bufferInv_start .., garbage, [], [], rfl, rfl, rfl⟩
    · intro s a s' hs hget hstep
      exact ⟨threadStep_bufferInv hs.1 hget hstep,
        (threadStep_bufferCall hs.1 hget hstep).madeGuardedCalls hs.2⟩
  exact hboth.2

end Threads

end Broker
end PubSub
