import PubSub.Broker.MessageQueue
import PubSub.Foundations.DataRefinement

/-!
# The message queue as a first-in first-out list

Any sequence of calls of {lit}`enqueue_unsafe` and {lit}`dequeue_unsafe` on an initialised queue.
The natural invariant, that the tail pointer names the last node or is null, is false as
soon as the queue drains: {lit}`dequeue_unsafe` leaves the pointer to a node that it has
freed.  What holds is that the tail pointer names the last node of a nonempty queue, and
only such a queue makes {lit}`enqueue_unsafe` follow it.

Main results:

- Definition {lit}`QueueMemory.Represents`: the invariant.
- Theorem {lit}`queueCall_refines`: a call keeps it and returns what the list returns.
- Theorem {lit}`messageQueue_refines_fifo`: so does every sequence of calls.
-/

namespace PubSub
namespace Broker

open Foundations

/-! ## Calls -/

/-- A message queue and the store of its nodes. -/
structure QueueMemory where
  nodes : Heap Bytes
  queue : MessageQueue

/-- A call on the queue.  {lit}`node` is the address that {lit}`malloc` returns. -/
inductive QueueCall where
  | enqueueUnsafe (message : Bytes) (node : Addr)
  | dequeueUnsafe
deriving DecidableEq, Repr

/-- What a call returns: nothing, or a pointer to a message that may be null. -/
inductive QueueReturn where
  | void
  | message (message : Option Bytes)
deriving DecidableEq, Repr

namespace QueueMemory

/-- Make a call. -/
def call (s : QueueMemory) : QueueCall → Option (QueueMemory × QueueReturn)
  | .enqueueUnsafe message node =>
      (Broker.enqueueUnsafe s.nodes s.queue node message).map fun (nodes, queue) =>
        (⟨nodes, queue⟩, .void)
  | .dequeueUnsafe =>
      (Broker.dequeueUnsafe s.nodes s.queue).map fun (nodes, queue, message) =>
        (⟨nodes, queue⟩, .message message)

/-- {lit}`malloc` returns an address that is not allocated. -/
def Admits (s : QueueMemory) : QueueCall → Prop
  | .enqueueUnsafe _ node => s.nodes.read node = none
  | .dequeueUnsafe => True

/-- An initialised queue, in a store that may hold other nodes. -/
def initialized (nodes : Heap Bytes) : QueueMemory :=
  ⟨nodes, initializeMessageQueue⟩

/-- The chain from the head pointer holds these messages; the head pointer is null, or the
tail pointer names the last node of the chain. -/
def Represents (s : QueueMemory) (messages : List Bytes) : Prop :=
  ∃ cs, s.nodes.Chain cs s.queue.head ∧ (Heap.addrs cs).Nodup ∧ Heap.vals cs = messages ∧
    (s.queue.head = none ∨ ∃ pre c, cs = pre ++ [c] ∧ s.queue.tail = some c.1)

end QueueMemory

/-- The calls on a first-in first-out list. -/
def fifoCall (messages : List Bytes) : QueueCall → List Bytes × QueueReturn
  | .enqueueUnsafe message _ => (messages ++ [message], .void)
  | .dequeueUnsafe => (messages.tail, .message messages.head?)

/-! ## Refinement -/

/-- The queue has these nodes, seen as a family of one queue. -/
def QueueMemory.HasCells (s : QueueMemory) (cs : List (Addr × Bytes)) : Prop :=
  QueueCells s.nodes (fun _ : Unit => s.queue) fun _ => cs

/-- The queue holds these messages. -/
def QueueMemory.Holds (s : QueueMemory) (messages : List Bytes) : Prop :=
  ∃ cs, s.HasCells cs ∧ Heap.vals cs = messages

/-- In a family of one queue, a change of that queue is a change of all of them. -/
theorem QueueMemory.hasCells_update {nodes : Heap Bytes} {queue queue' : MessageQueue}
    {cs cs' : List (Addr × Bytes)}
    (hcells : QueueCells nodes (Function.update (fun _ : Unit => queue) () queue')
      (Function.update (fun _ => cs) () cs')) : HasCells ⟨nodes, queue'⟩ cs' := by
  rw [Function.update_eq_const_of_subsingleton,
    Function.update_eq_const_of_subsingleton] at hcells
  exact hcells

/-- A queue that holds messages satisfies the invariant. -/
theorem QueueMemory.Holds.represents {s : QueueMemory} {messages : List Bytes}
    (hs : s.Holds messages) : s.Represents messages := by
  rcases hs with ⟨cs, hcells, rfl⟩
  have hchain : s.nodes.Chain cs s.queue.head := hcells.family.chain ()
  refine ⟨cs, hchain, hchain.nodup, rfl, ?_⟩
  rcases List.eq_nil_or_concat cs with hnil | ⟨pre, c, hcs⟩
  · left
    exact (hcells.head_eq_none_iff ()).mpr hnil
  · right
    rw [List.concat_eq_append] at hcs
    exact ⟨pre, c, hcs, hcells.tail_eq () pre c hcs⟩

/-- An initialised queue holds nothing. -/
theorem QueueMemory.initialized_holds (nodes : Heap Bytes) : (initialized nodes).Holds [] :=
  ⟨[], initializeMessageQueue_cells nodes, rfl⟩

/-- One call: {lit}`enqueue_unsafe` appends a node, {lit}`dequeue_unsafe` frees the first one. -/
theorem queueCall_refines (s : QueueMemory) (messages : List Bytes) (c : QueueCall)
    (hs : s.Holds messages) (hadmits : s.Admits c) :
    ∃ s', s.call c = some (s', (fifoCall messages c).2) ∧ s'.Holds (fifoCall messages c).1 := by
  rcases hs with ⟨cs, hs, rfl⟩
  cases c with
  | enqueueUnsafe message node =>
      rcases enqueueUnsafe_cells hs () message hadmits with ⟨nodes, queue, henqueue, hs'⟩
      refine ⟨⟨nodes, queue⟩, ?_, cs ++ [(node, message)],
        QueueMemory.hasCells_update hs', ?_⟩
      · rw [QueueMemory.call, henqueue, Option.map_some, fifoCall]
      · simp [fifoCall]
  | dequeueUnsafe =>
      cases cs with
      | nil =>
          refine ⟨s, ?_, [], hs, rfl⟩
          rw [QueueMemory.call, dequeueUnsafe_nil hs (i := ()) rfl, Option.map_some]
          rfl
      | cons first rest =>
          rcases first with ⟨a, message⟩
          rcases dequeueUnsafe_cells hs (i := ()) rfl with ⟨nodes, queue, hdequeue, hs', -⟩
          refine ⟨⟨nodes, queue⟩, ?_, rest, QueueMemory.hasCells_update hs', rfl⟩
          rw [QueueMemory.call, hdequeue, Option.map_some]
          rfl

/-- For every sequence of calls on an initialised queue, no call dereferences a node that is
not allocated, the calls return what a first-in first-out list returns, a null pointer
exactly when it is empty, and the tail pointer of a nonempty queue names its last node. -/
theorem messageQueue_refines_fifo (nodes : Heap Bytes) (calls : List QueueCall)
    (hmalloc : CallsAdmitted QueueMemory.call QueueMemory.Admits (.initialized nodes) calls) :
    ∃ s, runCalls QueueMemory.call (.initialized nodes) calls =
        some (s, (runReference fifoCall [] calls).2) ∧
      s.Represents (runReference fifoCall [] calls).1 := by
  rcases runCalls_refines queueCall_refines (QueueMemory.initialized_holds nodes) hmalloc with
    ⟨s, hrun, hs⟩
  exact ⟨s, hrun, hs.represents⟩

/-- A queue that drains and fills again, in the node that it has freed. -/
def drainAndFill : List QueueCall :=
  [.enqueueUnsafe [1] 0, .dequeueUnsafe, .dequeueUnsafe, .enqueueUnsafe [2] 0,
    .enqueueUnsafe [3] 1, .dequeueUnsafe]

/-- The last call returns the older of the two messages that were added last. -/
theorem messageQueue_refines_fifo_drainAndFill :
    CallsAdmitted QueueMemory.call QueueMemory.Admits (.initialized Heap.empty) drainAndFill ∧
      ∃ s, runCalls QueueMemory.call (.initialized Heap.empty) drainAndFill =
          some (s, [.void, .message (some [1]), .message none, .void, .void,
            .message (some [2])]) ∧
        s.Represents [[3]] := by
  have hmalloc : CallsAdmitted QueueMemory.call QueueMemory.Admits (.initialized Heap.empty)
      drainAndFill := by
    refine .cons rfl rfl (.cons trivial rfl (.cons trivial rfl (.cons rfl rfl (.cons rfl rfl ?_))))
    exact .cons trivial rfl trivial
  exact ⟨hmalloc, messageQueue_refines_fifo Heap.empty drainAndFill hmalloc⟩

end Broker
end PubSub
