import PubSub.Foundations.CString
import PubSub.Foundations.LinkedStore

/-!
# Message queues

The queue of a topic is a linked list with a pointer to its first and to its
last node.  {lit}`dequeueUnsafe` never resets the pointer to the last node, so after
the queue has drained that pointer is stale.

Main results:

- Structure {lit}`QueuesHold`: several queues in one node store hold the given
  message lists; the tail pointer is constrained only where a queue is not empty.
- Structure {lit}`QueueCells`: the same with the nodes of each queue.
- Theorems {lit}`enqueueUnsafe_cells` and {lit}`dequeueUnsafe_cells`: the two operations
  append a node to one of the queues and take one off, and they never dereference
  a node that is not allocated.
- Theorems {lit}`enqueueUnsafe_holds` and {lit}`dequeueUnsafe_holds`: on the messages they
  refine appending to and taking from one of the lists.
-/

namespace PubSub
namespace Broker

open Foundations

universe u

/-- {lit}`MessageQueue`: pointers to the first and to the last node.  The nodes are
{lit}`Node Bytes`, whose payload is the source's field {lit}`message`. -/
structure MessageQueue where
  head : Option Addr
  tail : Option Addr
deriving DecidableEq, Repr

/-- {lit}`initialize_message_queue`. -/
def initializeMessageQueue : MessageQueue where
  head := none
  tail := none

/-- {lit}`enqueue_unsafe`, where {lit}`node` is the address that its {lit}`malloc` returns. -/
def enqueueUnsafe (h : Heap Bytes) (q : MessageQueue) (node : Addr) (message : Bytes) :
    Option (Heap Bytes × MessageQueue) :=
  match q.head with
  | none => some (h.write node ⟨message, none⟩, ⟨some node, some node⟩)
  | some _ =>
      q.tail.bind fun tail =>
        (h.read tail).map fun last =>
          ((h.write tail { last with next := some node }).write node ⟨message, none⟩,
            { q with tail := some node })

/-- {lit}`dequeue_unsafe`.  The tail pointer is left as it is. -/
def dequeueUnsafe (h : Heap Bytes) (q : MessageQueue) :
    Option (Heap Bytes × MessageQueue × Option Bytes) :=
  match q.head with
  | none => some (h, q, none)
  | some head =>
      (h.read head).map fun node =>
        (h.free head, { q with head := node.next }, some node.val)

/-- A queue to which a message has been added is not empty. -/
theorem enqueueUnsafe_head {h h' : Heap Bytes} {q q' : MessageQueue} {node : Addr}
    {message : Bytes} (henqueue : enqueueUnsafe h q node message = some (h', q')) :
    ∃ head, q'.head = some head := by
  unfold enqueueUnsafe at henqueue
  split at henqueue
  · rw [Option.some.injEq, Prod.mk.injEq] at henqueue
    exact ⟨node, henqueue.2 ▸ rfl⟩
  · next head hhead =>
      simp only [Option.bind_eq_some_iff, Option.map_eq_some_iff] at henqueue
      rcases henqueue with ⟨tail, -, last, -, heq⟩
      rw [Prod.mk.injEq] at heq
      exact ⟨head, heq.2 ▸ hhead⟩

/-! ## The represented lists -/

variable {ι : Type u}

/-- The queues {lit}`q i` share the store {lit}`h` and hold the messages {lit}`ms i`, first
to last.  Only a nonempty queue has a meaningful tail pointer. -/
structure QueuesHold (h : Heap Bytes) (q : ι → MessageQueue) (ms : ι → List Bytes) : Prop where
  cells : ∃ cs : ι → List (Addr × Bytes),
    Family h (fun i => (q i).head) cs ∧ (∀ i, Heap.vals (cs i) = ms i) ∧
      ∀ i pre c, cs i = pre ++ [c] → (q i).tail = some c.1

/-- The queues {lit}`q i` share the store {lit}`h` and consist of the cells {lit}`cs i`; the tail
pointer of a nonempty one is its last node. -/
structure QueueCells (h : Heap Bytes) (q : ι → MessageQueue)
    (cs : ι → List (Addr × Bytes)) : Prop where
  family : Family h (fun i => (q i).head) cs
  tail_eq : ∀ i pre c, cs i = pre ++ [c] → (q i).tail = some c.1

/-- Queues hold the messages of their cells. -/
theorem QueueCells.holds {h : Heap Bytes} {q : ι → MessageQueue} {cs : ι → List (Addr × Bytes)}
    (hq : QueueCells h q cs) : QueuesHold h q fun i => Heap.vals (cs i) :=
  ⟨cs, hq.family, fun _ => rfl, hq.tail_eq⟩

/-- Queues that hold messages have cells. -/
theorem QueuesHold.exists_cells {h : Heap Bytes} {q : ι → MessageQueue} {ms : ι → List Bytes}
    (hq : QueuesHold h q ms) :
    ∃ cs, QueueCells h q cs ∧ (fun i => Heap.vals (cs i)) = ms := by
  rcases hq.cells with ⟨cs, hfam, hvals, htail⟩
  exact ⟨cs, ⟨hfam, htail⟩, funext hvals⟩

/-- The head pointer is null exactly when the queue has no cells. -/
theorem QueueCells.head_eq_none_iff {h : Heap Bytes} {q : ι → MessageQueue}
    {cs : ι → List (Addr × Bytes)} (hq : QueueCells h q cs) (i : ι) :
    (q i).head = none ↔ cs i = [] := by
  have hchain := hq.family.chain i
  cases hcs : cs i with
  | nil =>
      rw [hcs] at hchain
      exact ⟨fun _ => rfl, fun _ => hchain⟩
  | cons c rest =>
      rw [hcs] at hchain
      constructor
      · intro hnone
        rw [hnone] at hchain
        exact absurd hchain.1 (by simp)
      · intro hnil
        contradiction

/-- A freshly initialised queue has no cells, whatever else is in the store. -/
theorem initializeMessageQueue_cells (h : Heap Bytes) :
    QueueCells h (fun _ : ι => initializeMessageQueue) fun _ => [] where
  family := ⟨fun _ => rfl, by simp⟩
  tail_eq := by simp

/-- Freshly initialised queues hold nothing. -/
theorem initializeMessageQueue_holds :
    QueuesHold (Heap.empty : Heap Bytes) (fun _ : ι => initializeMessageQueue) fun _ => [] :=
  ⟨fun _ => [], Family.empty, fun _ => rfl, by simp⟩

/-- The head pointer is null exactly when the queue holds nothing. -/
theorem QueuesHold.head_eq_none_iff {h : Heap Bytes} {q : ι → MessageQueue}
    {ms : ι → List Bytes} (hq : QueuesHold h q ms) (i : ι) :
    (q i).head = none ↔ ms i = [] := by
  rcases hq.exists_cells with ⟨cs, hcells, rfl⟩
  exact (hcells.head_eq_none_iff i).trans List.map_eq_nil_iff.symm

/-- A null-terminated walk from the head pointer of a queue reads exactly the
messages it holds. -/
theorem QueuesHold.chain {h : Heap Bytes} {q : ι → MessageQueue} {ms : ι → List Bytes}
    (hq : QueuesHold h q ms) (i : ι) :
    ∃ cs, h.Chain cs (q i).head ∧ Heap.vals cs = ms i := by
  rcases hq.cells with ⟨cs, hfam, hvals, -⟩
  exact ⟨cs i, hfam.chain i, hvals i⟩

/-- {lit}`dequeueUnsafe` leaves an empty queue alone. -/
theorem dequeueUnsafe_nil {h : Heap Bytes} {q : ι → MessageQueue} {cs : ι → List (Addr × Bytes)}
    (hq : QueueCells h q cs) {i : ι} (hcs : cs i = []) :
    dequeueUnsafe h (q i) = some (h, q i, none) := by
  have hhead : (q i).head = none := (hq.head_eq_none_iff i).mpr hcs
  simp only [dequeueUnsafe, hhead]

variable [DecidableEq ι]

private theorem update_head (q : ι → MessageQueue) (i : ι) (q' : MessageQueue) :
    (fun j => (Function.update q i q' j).head) =
      Function.update (fun j => (q j).head) i q'.head := by
  funext j
  by_cases hj : j = i
  · subst j
    simp
  · simp [Function.update_of_ne hj]

/-- Whatever was done to queue {lit}`i`, it suffices to know its new cells. -/
private theorem QueueCells.of_family {h h' : Heap Bytes} {q : ι → MessageQueue}
    {cs : ι → List (Addr × Bytes)} (hq : QueueCells h q cs) {i : ι} {q' : MessageQueue}
    {cs' : List (Addr × Bytes)}
    (hfam : Family h' (Function.update (fun j => (q j).head) i q'.head)
      (Function.update cs i cs'))
    (htail : ∀ pre c, cs' = pre ++ [c] → q'.tail = some c.1) :
    QueueCells h' (Function.update q i q') (Function.update cs i cs') where
  family := by rwa [update_head]
  tail_eq := by
    intro j pre c hc
    by_cases hj : j = i
    · subst j
      rw [Function.update_self] at hc ⊢
      exact htail pre c hc
    · rw [Function.update_of_ne hj] at hc ⊢
      exact hq.tail_eq j pre c hc

/-- {lit}`enqueueUnsafe` appends the new node.  On a drained queue the branch for an empty queue
repairs the stale tail pointer; otherwise the tail pointer is the last node. -/
theorem enqueueUnsafe_cells {h : Heap Bytes} {q : ι → MessageQueue}
    {cs : ι → List (Addr × Bytes)} (hq : QueueCells h q cs) (i : ι) {node : Addr}
    (message : Bytes) (hfresh : h.read node = none) :
    ∃ h' q', enqueueUnsafe h (q i) node message = some (h', q') ∧
      QueueCells h' (Function.update q i q')
        (Function.update cs i (cs i ++ [(node, message)])) := by
  have hchain := hq.family.chain i
  rcases List.eq_nil_or_concat (cs i) with hnil | ⟨pre, c, hcs⟩
  · have hhead : (q i).head = none := by
      rw [hnil] at hchain
      exact hchain
    have hfam' := hq.family.pushFront i message hfresh
    rw [hhead, hnil] at hfam'
    refine ⟨h.write node ⟨message, none⟩, ⟨some node, some node⟩, ?_, ?_⟩
    · simp [enqueueUnsafe, hhead]
    · rw [hnil]
      apply hq.of_family hfam'
      intro pre c hc
      have hc' : [] ++ [(node, message)] = pre ++ [c] := hc
      rcases List.singleton_inj.mp (List.append_inj_right' hc' rfl) with rfl
      rfl
  · rw [List.concat_eq_append] at hcs
    rcases c with ⟨z, w⟩
    rcases hq.family.pushBack (a := node) message hcs hfresh with ⟨hz, hfam'⟩
    have hnonempty : (q i).head ≠ none := by
      intro hnone
      have hempty := (hq.head_eq_none_iff i).mp hnone
      rw [hcs] at hempty
      simp at hempty
    rcases Option.ne_none_iff_exists'.mp hnonempty with ⟨first, hfirst⟩
    have hqtail : (q i).tail = some z := hq.tail_eq i pre (z, w) hcs
    have hcells : cs i ++ [(node, message)] = pre ++ [(z, w), (node, message)] := by
      simp [hcs]
    refine ⟨(h.write z ⟨w, some node⟩).write node ⟨message, none⟩,
      { q i with tail := some node }, ?_, ?_⟩
    · simp only [enqueueUnsafe, hfirst, hqtail, Option.bind_some, hz, Option.map_some]
    · rw [hcells]
      refine hq.of_family ?_ ?_
      · have hself : Function.update (fun j => (q j).head) i (q i).head =
            fun j => (q j).head :=
          Function.update_eq_self i fun j => (q j).head
        rwa [hself]
      · intro pre' c hc
        have hc' : (pre ++ [(z, w)]) ++ [(node, message)] = pre' ++ [c] := by
          rw [← hc]
          simp
        rcases List.singleton_inj.mp (List.append_inj_right' hc' rfl) with rfl
        rfl

/-- {lit}`dequeueUnsafe` frees the first node of a nonempty queue and leaves the tail pointer,
which still names the last node if a node is left. -/
theorem dequeueUnsafe_cells {h : Heap Bytes} {q : ι → MessageQueue}
    {cs : ι → List (Addr × Bytes)} (hq : QueueCells h q cs) {i : ι} {a : Addr}
    {message : Bytes} {rest : List (Addr × Bytes)} (hcs : cs i = (a, message) :: rest) :
    ∃ h' q', dequeueUnsafe h (q i) = some (h', q', some message) ∧
      QueueCells h' (Function.update q i q') (Function.update cs i rest) ∧
      h'.read a = none := by
  rcases hq.family.popFront hcs with ⟨hhead, nx, hread, hfam'⟩
  refine ⟨h.free a, { q i with head := nx }, ?_, ?_, Heap.read_free_self h a⟩
  · simp only [dequeueUnsafe, hhead, hread, Option.map_some]
  · apply hq.of_family hfam'
    intro pre c hc
    exact hq.tail_eq i ((a, message) :: pre) c (by rw [hcs, hc]; rfl)

/-- The messages of the cells, where one queue has got new cells. -/
private theorem vals_update (cs : ι → List (Addr × Bytes)) (i : ι) (cs' : List (Addr × Bytes)) :
    (fun j => Heap.vals (Function.update cs i cs' j)) =
      Function.update (fun j => Heap.vals (cs j)) i (Heap.vals cs') := by
  funext j
  by_cases hj : j = i
  · subst j
    simp
  · simp [Function.update_of_ne hj]

/-- {lit}`enqueueUnsafe` appends to the messages of the queue. -/
theorem enqueueUnsafe_holds {h : Heap Bytes} {q : ι → MessageQueue} {ms : ι → List Bytes}
    (hq : QueuesHold h q ms) (i : ι) {node : Addr} (message : Bytes)
    (hfresh : h.read node = none) :
    ∃ h' q', enqueueUnsafe h (q i) node message = some (h', q') ∧
      QueuesHold h' (Function.update q i q') (Function.update ms i (ms i ++ [message])) := by
  rcases hq.exists_cells with ⟨cs, hcells, rfl⟩
  rcases enqueueUnsafe_cells hcells i message hfresh with ⟨h', q', henqueue, hcells'⟩
  have hholds := hcells'.holds
  rw [vals_update] at hholds
  refine ⟨h', q', henqueue, ?_⟩
  simpa using hholds

/-- {lit}`dequeueUnsafe` takes the first message of a nonempty queue. -/
theorem dequeueUnsafe_holds {h : Heap Bytes} {q : ι → MessageQueue} {ms : ι → List Bytes}
    (hq : QueuesHold h q ms) {i : ι} {message : Bytes} {rest : List Bytes}
    (hms : ms i = message :: rest) :
    ∃ h' q', dequeueUnsafe h (q i) = some (h', q', some message) ∧
      QueuesHold h' (Function.update q i q') (Function.update ms i rest) := by
  rcases hq.exists_cells with ⟨cs, hcells, rfl⟩
  rcases List.map_eq_cons_iff.mp hms with ⟨⟨a, v⟩, cs', hcs, rfl, rfl⟩
  rcases dequeueUnsafe_cells hcells hcs with ⟨h', q', hdequeue, hcells', -⟩
  have hholds := hcells'.holds
  rw [vals_update] at hholds
  exact ⟨h', q', hdequeue, hholds⟩

end Broker
end PubSub
