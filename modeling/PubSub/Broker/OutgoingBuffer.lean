import PubSub.Common
import PubSub.Foundations.Ring

/-!
# The outgoing buffer

All messages that leave the broker for a client pass through one ring buffer.
Topic threads put published messages in it, together with the subscriber list
to send them to; the main thread puts responses in it, together with the one
socket to send them to.

Main results:

- Structure {lit}`OutgoingBuffer.Holds`: the buffer stores a given queue of elements
  and its counter is the length of that queue.
- Theorems {lit}`OutgoingBuffer.put_holds` and {lit}`OutgoingBuffer.get_holds`: the two
  unguarded operations refine a bounded queue, as long as {lit}`put` is not called
  on a full and {lit}`get` not on an empty buffer.
-/

namespace PubSub
namespace Broker

open Foundations

universe u

/-- {lit}`MAX_OUTGOING_BUFFER_SIZE`. -/
def maxOutgoingBufferSize : Nat :=
  100

/-- {lit}`OneOrMoreSockets`: the tagged union of a topic's subscriber list and of a
single connection socket.  A subscriber list is named by its topic. -/
inductive OneOrMoreSockets (n : Nat) where
  | subscriberConnectionSockets (topic : Fin n)
  | connectionSocket (socket : Socket)
deriving DecidableEq, Repr

/-- {lit}`OutgoingBufferElement`.  The message is {lit}`none` for a null pointer. -/
structure OutgoingBufferElement (n : Nat) where
  message : Option Bytes
  oneOrMoreSockets : OneOrMoreSockets n
deriving DecidableEq, Repr

/-- {lit}`OutgoingBuffer`.  The counter is a C {lit}`int`, which {lit}`get` decrements without
looking at it. -/
structure OutgoingBuffer (Element : Type u) where
  array : Nat → Element
  fillIdx : Nat
  useIdx : Nat
  count : Int

namespace OutgoingBuffer

variable {Element : Type u}

/-- {lit}`initialize_outgoing_buffer`.  The slots keep whatever the memory held. -/
def initializeOutgoingBuffer (garbage : Nat → Element) : OutgoingBuffer Element where
  array := garbage
  fillIdx := 0
  useIdx := 0
  count := 0

/-- {lit}`put`. -/
def put (b : OutgoingBuffer Element) (newElement : Element) : OutgoingBuffer Element where
  array := Function.update b.array b.fillIdx newElement
  fillIdx := (b.fillIdx + 1) % maxOutgoingBufferSize
  useIdx := b.useIdx
  count := b.count + 1

/-- {lit}`get`. -/
def get (b : OutgoingBuffer Element) : Element × OutgoingBuffer Element :=
  (b.array b.useIdx,
    { b with
      useIdx := (b.useIdx + 1) % maxOutgoingBufferSize
      count := b.count - 1 })

/-- The elements in the ring from {lit}`use_idx` on, in order. -/
def contents (b : OutgoingBuffer Element) : List Element :=
  ringContents maxOutgoingBufferSize b.array b.useIdx b.count.toNat

/-- The buffer stores the queue {lit}`xs`, and its counter says so. -/
structure Holds (b : OutgoingBuffer Element) (xs : List Element) : Prop where
  ring : Ring maxOutgoingBufferSize b.array b.useIdx b.fillIdx xs
  count_eq : b.count = xs.length

theorem initializeOutgoingBuffer_holds (garbage : Nat → Element) :
    (initializeOutgoingBuffer garbage).Holds [] where
  ring := Ring.nil (by decide) garbage
  count_eq := rfl

variable {b : OutgoingBuffer Element} {xs : List Element}

theorem Holds.contents_eq (hb : b.Holds xs) : b.contents = xs := by
  rw [contents, hb.count_eq, Int.toNat_natCast]
  exact hb.ring.contents_eq

/-- A buffer that stores a queue has its counter between zero and the capacity. -/
theorem Holds.count_bounds (hb : b.Holds xs) :
    0 ≤ b.count ∧ b.count ≤ maxOutgoingBufferSize := by
  have hle := hb.ring.length_le
  rw [hb.count_eq]
  omega

/-- On a buffer that is not full, {lit}`put` appends. -/
theorem put_holds (hb : b.Holds xs) (e : Element) (hspace : b.count < maxOutgoingBufferSize) :
    (b.put e).Holds (xs ++ [e]) where
  ring := by
    rw [hb.count_eq] at hspace
    exact hb.ring.push e (by omega)
  count_eq := by
    simp [put, hb.count_eq]

/-- On a nonempty buffer, {lit}`get` takes the first element. -/
theorem get_holds {x : Element} (hb : b.Holds (x :: xs)) :
    b.get.1 = x ∧ b.get.2.Holds xs := by
  rcases hb.ring.pop with ⟨hread, hring⟩
  refine ⟨hread, hring, ?_⟩
  simp [get, hb.count_eq]

end OutgoingBuffer

end Broker
end PubSub
