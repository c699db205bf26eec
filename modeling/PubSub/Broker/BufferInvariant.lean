import Mathlib.Data.List.Infix
import PubSub.Broker.Threads

/-!
# The outgoing buffer under all interleavings

The elements that {lit}`consume` takes from the outgoing buffer are exactly the
elements that were put in it, in that order, as long as {lit}`consume` calls {lit}`get`
on a nonempty buffer only.  Its wait loop ends on two occasions, a nonempty
buffer and a shutdown, and {lit}`get` is called on both: a consumer that a shutdown
finds waiting on an empty buffer takes an element that nobody has put and
leaves the counter at minus one.

Main results:

- Structure {lit}`BufferInv`: mutual exclusion in the buffer's critical section and
  what a thread inside it knows about the counter.
- Theorem {lit}`threadStep_bufferInv`: every step keeps the invariant unless it calls
  {lit}`get` on an empty buffer.
- Theorem {lit}`consumesOnlyProduced_iff_getsFromNonempty`: along any run, the consumer
  handles only elements that were put before and had not been taken, with the
  counter within the capacity, if and only if no such {lit}`get` occurs.
- Theorem {lit}`not_consumesOnlyProduced_shutDown`: a shutdown breaks this.
-/

namespace PubSub
namespace Broker

open Foundations Threads

variable {n : Nat}

/-! ## The critical section of the buffer -/

/-- Is a thread at this position inside the critical section of the buffer? -/
def ProducePc.holdsLock : ProducePc n → Bool
  | .loop _ | .sleep _ | .test _ | .put _ => true
  | .enter _ | .waiting _ | .woken _ => false

/-- Is the consumer, at this position, inside the critical section of the buffer? -/
def ConsumerPc.holdsLock : ConsumerPc n → Bool
  | .loop | .sleep | .get | .test _ | .leave _ | .sendLast _ => true
  | _ => false

/-- The element that the consumer has taken and not yet finished sending. -/
def ConsumerPc.inHand : ConsumerPc n → List (OutgoingBufferElement n)
  | .test e | .leave e | .send e | .sendLast e => [e]
  | _ => []

@[simp]
theorem ConsumerPc.holdsLock_wake (pc : ConsumerPc n) : pc.wake.holdsLock = pc.holdsLock := by
  cases pc <;> rfl

@[simp]
theorem ConsumerPc.inHand_wake (pc : ConsumerPc n) : pc.wake.inHand = pc.inHand := by
  cases pc <;> rfl

/-- A wake-up moves nobody who is inside the critical section. -/
theorem ProducePc.wake_of_holdsLock {pc : ProducePc n} (hpc : pc.wake.holdsLock = true) :
    pc.wake = pc := by
  cases pc with
  | waiting e => exact absurd hpc (by simp [wake, holdsLock])
  | enter | loop | sleep | woken | test | put => rfl

theorem ConsumerPc.wake_of_holdsLock {pc : ConsumerPc n} (hpc : pc.wake.holdsLock = true) :
    pc.wake = pc := by
  cases hwait : pc with
  | waiting => exact absurd hpc (by simp [hwait, wake, holdsLock])
  | _ => rfl

/-! ## Steps outside the critical section -/

/-- A step outside the critical section: it leaves the buffer, its lock and the
histories of elements alone, and moves nobody into the critical section. -/
structure OutsideStep (s s' : Threads n) : Prop where
  buffer : s'.outgoingBuffer = s.outgoingBuffer
  lock : s'.bufferLock = s.bufferLock
  put : s'.log.put = s.log.put
  taken : s'.log.taken = s.log.taken
  sent : s'.log.sent = s.log.sent
  flag : s.shuttingDown = true → s'.shuttingDown = true
  producers : ∀ w pc, s'.producing w = some pc → pc.holdsLock = true → s.producing w = some pc
  notProducing : s.producing .consumer = none → s'.producing .consumer = none
  consumer : s'.consumer.holdsLock = true → s'.consumer = s.consumer
  inHand : s'.consumer.inHand = s.consumer.inHand

/-- Steps outside the critical section compose. -/
theorem OutsideStep.trans {s₁ s₂ s₃ : Threads n} (h : OutsideStep s₁ s₂)
    (h' : OutsideStep s₂ s₃) : OutsideStep s₁ s₃ where
  buffer := h'.buffer.trans h.buffer
  lock := h'.lock.trans h.lock
  put := h'.put.trans h.put
  taken := h'.taken.trans h.taken
  sent := h'.sent.trans h.sent
  flag := fun hflag => h'.flag (h.flag hflag)
  producers := fun w pc hpc hheld => h.producers w pc (h'.producers w pc hpc hheld) hheld
  notProducing := fun hnone => h'.notProducing (h.notProducing hnone)
  consumer := by
    intro hheld
    have heq : s₃.consumer = s₂.consumer := h'.consumer hheld
    rw [heq] at hheld ⊢
    exact h.consumer hheld
  inHand := h'.inHand.trans h.inHand

/-- What the critical section of the buffer is about. -/
structure BufferSide (n : Nat) where
  outgoingBuffer : OutgoingBuffer (OutgoingBufferElement n)
  bufferLock : Option (ThreadId n)
  put : List (OutgoingBufferElement n)
  taken : List (OutgoingBufferElement n)
  sent : List (OutgoingBufferElement n)
  shuttingDown : Bool
  producing : ThreadId n → Option (ProducePc n)
  consumer : ConsumerPc n

/-- The part of the state that the critical section of the buffer is about. -/
def Threads.bufferSide (s : Threads n) : BufferSide n :=
  ⟨s.outgoingBuffer, s.bufferLock, s.log.put, s.log.taken, s.log.sent, s.shuttingDown,
    s.producing, s.consumer⟩

/-- A step that changes nothing of it but positions inside {lit}`produce_new_message`. -/
theorem outsideStep_of_producing {s s' : Threads n}
    (hside : s'.bufferSide = { s.bufferSide with producing := s'.producing })
    (hproducers : ∀ w pc, s'.producing w = some pc → pc.holdsLock = true →
      s.producing w = some pc)
    (hnotProducing : s.producing .consumer = none → s'.producing .consumer = none) :
    OutsideStep s s' := by
  simp only [bufferSide, BufferSide.mk.injEq] at hside
  rcases hside with ⟨hbuf, hlock, hput, htaken, hsent, hflag, -, hcons⟩
  constructor
  case buffer => exact hbuf
  case lock => exact hlock
  case put => exact hput
  case taken => exact htaken
  case sent => exact hsent
  case flag =>
    intro h
    rw [hflag, h]
  case producers => exact hproducers
  case notProducing => exact hnotProducing
  case consumer => exact fun _ => hcons
  case inHand => rw [hcons]

/-- A step that changes nothing of it. -/
theorem outsideStep_of_eq {s s' : Threads n} (hside : s'.bufferSide = s.bufferSide) :
    OutsideStep s s' := by
  have hprod : s'.producing = s.producing := congrArg BufferSide.producing hside
  apply outsideStep_of_producing
  · rw [hside, hprod]
    rfl
  · intro w pc hpc _
    rw [← hprod, hpc]
  · intro h
    rw [hprod, h]

/-- A thread other than the consumer calls {lit}`produce_new_message`. -/
theorem outsideStep_of_call (s : Threads n) {w : ThreadId n} (hw : w ≠ .consumer)
    (e : OutgoingBufferElement n) : OutsideStep s (s.setProducing w (some (.enter e))) := by
  refine outsideStep_of_producing rfl ?_ ?_
  · intro w' pc hpc hheld
    by_cases hne : w' = w
    · subst hne
      simp only [setProducing, Function.update_self, Option.some.injEq] at hpc
      subst hpc
      contradiction
    · simpa [setProducing, Function.update_of_ne hne] using hpc
  · intro h
    simpa [setProducing, Function.update_of_ne (Ne.symm hw)] using h

/-- A wake-up of a producer. -/
theorem wakeProducer_outside (s : Threads n) (w : ThreadId n) :
    OutsideStep s (s.wakeProducer w) := by
  refine outsideStep_of_producing rfl ?_ ?_
  · intro w' pc hpc hheld
    by_cases hne : w' = w
    · subst hne
      simp only [wakeProducer, setProducing, Function.update_self,
        Option.map_eq_some_iff] at hpc
      rcases hpc with ⟨pc₀, hpc₀, rfl⟩
      rw [ProducePc.wake_of_holdsLock hheld]
      exact hpc₀
    · simpa [wakeProducer, setProducing, Function.update_of_ne hne] using hpc
  · intro h
    by_cases hne : .consumer = w
    · simp [wakeProducer, setProducing, ← hne, h]
    · simp [wakeProducer, setProducing, Function.update_of_ne hne, h]

/-- A wake-up of all producers. -/
theorem wakeAllEmptyCv_outside (s : Threads n) : OutsideStep s s.wakeAllEmptyCv := by
  refine outsideStep_of_producing rfl ?_ ?_
  · intro w pc hpc hheld
    simp only [wakeAllEmptyCv, Option.map_eq_some_iff] at hpc
    rcases hpc with ⟨pc₀, hpc₀, rfl⟩
    rw [ProducePc.wake_of_holdsLock hheld]
    exact hpc₀
  · intro h
    simp [wakeAllEmptyCv, h]

/-- A wake-up of the consumer. -/
theorem wakeFillCv_outside (s : Threads n) : OutsideStep s s.wakeFillCv where
  buffer := rfl
  lock := rfl
  put := rfl
  taken := rfl
  sent := rfl
  flag := id
  producers := fun _ _ hpc _ => hpc
  notProducing := id
  consumer := fun hheld => ConsumerPc.wake_of_holdsLock hheld
  inHand := ConsumerPc.inHand_wake s.consumer

/-! ## The invariant -/

/-- The invariant of the outgoing buffer: who is inside the critical section owns
its lock, what the positions behind the two wait loops say about the counter,
and how the three histories of elements fit together. -/
structure BufferInv (s : Threads n) : Prop where
  lockProducer : ∀ w pc, s.producing w = some pc → pc.holdsLock = true →
    s.bufferLock = some w
  lockConsumer : s.consumer.holdsLock = true → s.bufferLock = some .consumer
  consumerNotProducing : s.producing .consumer = none
  testSpace : ∀ w e, s.producing w = some (.test e) →
    s.shuttingDown = true ∨ s.outgoingBuffer.count < maxOutgoingBufferSize
  putSpace : ∀ w e, s.producing w = some (.put e) →
    s.outgoingBuffer.count < maxOutgoingBufferSize
  getReady : s.consumer = .get → s.shuttingDown = true ∨ s.outgoingBuffer.count ≠ 0
  ring : ∃ xs, s.outgoingBuffer.Holds xs ∧ s.log.put = s.log.taken ++ xs
  hand : s.log.taken = s.log.sent ++ s.consumer.inHand

namespace BufferInv

variable {s s' : Threads n}

/-- While one producer is inside the critical section, no other one is. -/
theorem others_outside (hs : BufferInv s) {w : ThreadId n} (hlock : s.bufferLock = some w)
    {w' : ThreadId n} {pc : ProducePc n} (hne : w' ≠ w) (hpc : s.producing w' = some pc) :
    pc.holdsLock = false := by
  cases hheld : pc.holdsLock with
  | false => rfl
  | true =>
      have howner := hs.lockProducer w' pc hpc hheld
      rw [hlock, Option.some.injEq] at howner
      exact absurd howner.symm hne

/-- While another thread owns the lock, the consumer is outside. -/
theorem consumer_outside (hs : BufferInv s) {w : ThreadId n} (hlock : s.bufferLock = some w)
    (hne : w ≠ .consumer) : s.consumer.holdsLock = false := by
  cases hheld : s.consumer.holdsLock with
  | false => rfl
  | true =>
      have howner := hs.lockConsumer hheld
      rw [hlock, Option.some.injEq] at howner
      exact absurd howner hne

/-- While the lock is free, every producer is outside. -/
theorem outside_of_free (hs : BufferInv s) (hfree : s.bufferLock = none) {w : ThreadId n}
    {pc : ProducePc n} (hpc : s.producing w = some pc) : pc.holdsLock = false := by
  cases hheld : pc.holdsLock with
  | false => rfl
  | true =>
      have howner := hs.lockProducer w pc hpc hheld
      rw [hfree] at howner
      contradiction

theorem consumer_outside_of_free (hs : BufferInv s) (hfree : s.bufferLock = none) :
    s.consumer.holdsLock = false := by
  cases hheld : s.consumer.holdsLock with
  | false => rfl
  | true =>
      have howner := hs.lockConsumer hheld
      rw [hfree] at howner
      contradiction

/-- A step outside the critical section keeps the invariant. -/
theorem of_outside (hs : BufferInv s) (hout : OutsideStep s s') : BufferInv s' where
  lockProducer := by
    intro w pc hpc hheld
    rw [hout.lock]
    exact hs.lockProducer w pc (hout.producers w pc hpc hheld) hheld
  lockConsumer := by
    intro hheld
    rw [hout.lock]
    exact hs.lockConsumer (hout.consumer hheld ▸ hheld)
  consumerNotProducing := hout.notProducing hs.consumerNotProducing
  testSpace := by
    intro w e hpc
    rw [hout.buffer]
    exact (hs.testSpace w e (hout.producers w _ hpc rfl)).imp_left hout.flag
  putSpace := by
    intro w e hpc
    rw [hout.buffer]
    exact hs.putSpace w e (hout.producers w _ hpc rfl)
  getReady := by
    intro hget
    have hold : s'.consumer = s.consumer := hout.consumer (by rw [hget]; rfl)
    rw [hout.buffer]
    exact (hs.getReady (hold ▸ hget)).imp_left hout.flag
  ring := by
    rw [hout.buffer, hout.put, hout.taken]
    exact hs.ring
  hand := by
    rw [hout.taken, hout.sent, hout.inHand]
    exact hs.hand

/-- A step of a producer {lit}`w` inside the critical section, or on its way in or out:
only the clauses about {lit}`w` itself are left to prove. -/
theorem of_producer {w : ThreadId n} {pc' : Option (ProducePc n)}
    (hprod : s'.producing = Function.update s.producing w pc')
    (hout : ∀ w' pc, w' ≠ w → s.producing w' = some pc → pc.holdsLock = false)
    (hcons : s'.consumer.holdsLock = false) (hcp : s'.producing .consumer = none)
    (hlock : ∀ pc, pc' = some pc → pc.holdsLock = true → s'.bufferLock = some w)
    (htest : ∀ e, pc' = some (.test e) →
      s'.shuttingDown = true ∨ s'.outgoingBuffer.count < maxOutgoingBufferSize)
    (hput : ∀ e, pc' = some (.put e) → s'.outgoingBuffer.count < maxOutgoingBufferSize)
    (hring : ∃ xs, s'.outgoingBuffer.Holds xs ∧ s'.log.put = s'.log.taken ++ xs)
    (hhand : s'.log.taken = s'.log.sent ++ s'.consumer.inHand) : BufferInv s' := by
  have hcase : ∀ w' pc, s'.producing w' = some pc → pc.holdsLock = true →
      w' = w ∧ pc' = some pc := by
    intro w' pc hpc hheld
    rw [hprod] at hpc
    by_cases hne : w' = w
    · subst hne
      rw [Function.update_self] at hpc
      exact ⟨rfl, hpc⟩
    · rw [Function.update_of_ne hne] at hpc
      rw [hout w' pc hne hpc] at hheld
      contradiction
  refine ⟨?_, ?_, hcp, ?_, ?_, ?_, hring, hhand⟩
  · intro w' pc hpc hheld
    rcases hcase w' pc hpc hheld with ⟨rfl, hpc'⟩
    exact hlock pc hpc' hheld
  · intro hheld
    rw [hcons] at hheld
    contradiction
  · intro w' e hpc
    exact htest e (hcase w' _ hpc rfl).2
  · intro w' e hpc
    exact hput e (hcase w' _ hpc rfl).2
  · intro hget
    rw [hget] at hcons
    contradiction

/-- When a producer moves, the consumer does not become one. -/
theorem consumer_notProducing (hs : BufferInv s) {w : ThreadId n} (hw : w ≠ .consumer)
    (pc' : Option (ProducePc n)) : Function.update s.producing w pc' .consumer = none := by
  rw [Function.update_of_ne (Ne.symm hw)]
  exact hs.consumerNotProducing

/-- A producer enters the critical section. -/
theorem of_enter (hs : BufferInv s) {w : ThreadId n} (hw : w ≠ .consumer)
    (hfree : s.bufferLock = none) (e : OutgoingBufferElement n) :
    BufferInv ({ s with bufferLock := some w }.setProducing w (some (.loop e))) := by
  refine BufferInv.of_producer rfl ?_ (hs.consumer_outside_of_free hfree)
    (hs.consumer_notProducing hw _) ?_ ?_ ?_ hs.ring hs.hand
  · exact fun w' pc _ hpc' => hs.outside_of_free hfree hpc'
  · exact fun _ _ _ => rfl
  · simp
  · simp

/-- A producer inside the critical section moves, and stays inside or leaves it, without
touching the buffer. -/
theorem of_inside (hs : BufferInv s) {w : ThreadId n} (hw : w ≠ .consumer)
    (hlock : s.bufferLock = some w) {pc' : Option (ProducePc n)} (owner : Option (ThreadId n))
    (howner : ∀ pc, pc' = some pc → pc.holdsLock = true → owner = some w)
    (htest : ∀ e, pc' = some (.test e) →
      s.shuttingDown = true ∨ s.outgoingBuffer.count < maxOutgoingBufferSize)
    (hput : ∀ e, pc' = some (.put e) → s.outgoingBuffer.count < maxOutgoingBufferSize) :
    BufferInv ({ s with bufferLock := owner }.setProducing w pc') := by
  refine BufferInv.of_producer rfl ?_ (hs.consumer_outside hlock hw)
    (hs.consumer_notProducing hw _) howner htest hput hs.ring hs.hand
  exact fun w' pc hne hpc' => hs.others_outside hlock hne hpc'

/-- The wait loop in front of {lit}`put` has ended. -/
theorem flag_or_space (hs : BufferInv s)
    (hcond : ¬ (s.outgoingBuffer.count = maxOutgoingBufferSize ∧ s.shuttingDown = false)) :
    s.shuttingDown = true ∨ s.outgoingBuffer.count < maxOutgoingBufferSize := by
  rcases hs.ring with ⟨xs, hholds, -⟩
  have hbounds := hholds.count_bounds
  cases hflag : s.shuttingDown with
  | true => exact Or.inl rfl
  | false =>
      have hne : s.outgoingBuffer.count ≠ maxOutgoingBufferSize := fun heq => hcond ⟨heq, hflag⟩
      exact Or.inr (lt_of_le_of_ne hbounds.2 hne)

/-- A step of the consumer inside the critical section, or on its way in or out:
no producer is inside. -/
theorem of_consumer (hout : ∀ w pc, s'.producing w = some pc → pc.holdsLock = false)
    (hcp : s'.producing .consumer = none)
    (hlock : s'.consumer.holdsLock = true → s'.bufferLock = some .consumer)
    (hget : s'.consumer = .get → s'.shuttingDown = true ∨ s'.outgoingBuffer.count ≠ 0)
    (hring : ∃ xs, s'.outgoingBuffer.Holds xs ∧ s'.log.put = s'.log.taken ++ xs)
    (hhand : s'.log.taken = s'.log.sent ++ s'.consumer.inHand) : BufferInv s' := by
  refine ⟨?_, hlock, hcp, ?_, ?_, hget, hring, hhand⟩
  · intro w pc hpc hheld
    rw [hout w pc hpc] at hheld
    contradiction
  · intro w e hpc
    exact absurd (hout w _ hpc) (by simp [ProducePc.holdsLock])
  · intro w e hpc
    exact absurd (hout w _ hpc) (by simp [ProducePc.holdsLock])

end BufferInv

/-! ## The invariant is preserved -/

/-- Initially nobody has entered the critical section and the buffer is empty. -/
theorem bufferInv_start (garbage : Nat → OutgoingBufferElement n) (created : Fin n → Bool)
    (consumerCreated : Bool) : BufferInv (Threads.start garbage created consumerCreated) where
  lockProducer := by simp [Threads.start]
  lockConsumer := by
    cases consumerCreated <;> simp [Threads.start, ConsumerPc.holdsLock]
  consumerNotProducing := rfl
  testSpace := by simp [Threads.start]
  putSpace := by simp [Threads.start]
  getReady := by
    cases consumerCreated <;> simp [Threads.start]
  ring := ⟨[], OutgoingBuffer.initializeOutgoingBuffer_holds garbage, rfl⟩
  hand := by
    cases consumerCreated <;> simp [Threads.start, ConsumerPc.inHand]

/-- {lit}`produce_new_message` on the main thread or on a topic thread. -/
theorem produceNewMessage_bufferInv {s s' : Threads n} (hs : BufferInv s) {w : ThreadId n}
    (hw : w ≠ .consumer) {pc : ProducePc n} (hpc : s.producing w = some pc)
    (hstep : produceNewMessage s w pc = some s') : BufferInv s' := by
  have hinside : pc.holdsLock = true → s.bufferLock = some w := hs.lockProducer w pc hpc
  cases pc with
  | enter e | woken e =>
      simp only [produceNewMessage] at hstep
      split at hstep
      · next hfree => exact Option.some.inj hstep ▸ hs.of_enter hw hfree e
      · contradiction
  | waiting e => exact absurd hstep (by simp [produceNewMessage])
  | loop e =>
      have hlock := hinside rfl
      simp only [produceNewMessage] at hstep
      split at hstep
      · rw [← Option.some.inj hstep]
        exact hs.of_inside hw hlock s.bufferLock (fun _ _ _ => hlock) (by simp) (by simp)
      · next hcond =>
          rw [← Option.some.inj hstep]
          exact hs.of_inside hw hlock s.bufferLock (fun _ _ _ => hlock)
            (fun _ _ => hs.flag_or_space hcond) (by simp)
  | sleep e =>
      have hlock := hinside rfl
      simp only [produceNewMessage] at hstep
      rw [← Option.some.inj hstep]
      refine hs.of_inside hw hlock none ?_ (by simp) (by simp)
      rintro pc' ⟨rfl⟩ hheld
      contradiction
  | test e =>
      have hlock := hinside rfl
      simp only [produceNewMessage] at hstep
      split at hstep
      · rw [← Option.some.inj hstep]
        exact hs.of_inside hw hlock none (by simp) (by simp) (by simp)
      · next hflag =>
          rw [← Option.some.inj hstep]
          exact hs.of_inside hw hlock s.bufferLock (fun _ _ _ => hlock) (by simp)
            (fun _ _ => (hs.testSpace w e hpc).resolve_left hflag)
  | put e =>
      have hlock := hinside rfl
      have hspace := hs.putSpace w e hpc
      simp only [produceNewMessage] at hstep
      rw [← Option.some.inj hstep]
      refine BufferInv.of_producer rfl (fun w' pc h h' => hs.others_outside hlock h h')
        ?_ (hs.consumer_notProducing hw none) ?_ ?_ ?_ ?_ ?_
      · exact (ConsumerPc.holdsLock_wake _).trans (hs.consumer_outside hlock hw)
      · simp
      · simp
      · simp
      · rcases hs.ring with ⟨xs, hholds, hlog⟩
        refine ⟨xs ++ [e], OutgoingBuffer.put_holds hholds e hspace, ?_⟩
        change s.log.put ++ [e] = s.log.taken ++ (xs ++ [e])
        rw [hlog, List.append_assoc]
      · exact hs.hand.trans (congrArg _ (ConsumerPc.inHand_wake _).symm)

/-- The thread of a topic: outside {lit}`produce_new_message` it does not touch the
outgoing buffer. -/
theorem produce_bufferInv {s s' : Threads n} (hs : BufferInv s) {i : Fin n}
    (hstep : produce s i = some s') : BufferInv s' := by
  have hw : ThreadId.topic i ≠ .consumer := by simp
  cases produce_cases hstep with
  | move owner hold hnew hidle hpass => exact hs.of_outside (outsideStep_of_eq rfl)
  | callNull hpc hflag =>
      have hout : OutsideStep s ((s.setQueueLock i none).setTopic i .calling) :=
        outsideStep_of_eq rfl
      exact hs.of_outside (hout.trans (outsideStep_of_call _ hw _))
  | @take nodes q message hpc hdequeue =>
      have hout : OutsideStep s
          ({ s with
            nodes := nodes
            messageQueue := Function.update s.messageQueue i q
          }.setQueueLock i none |>.setTopic i .calling) := outsideStep_of_eq rfl
      exact hs.of_outside (hout.trans (outsideStep_of_call _ hw _))
  | call hprod hcall => exact produceNewMessage_bufferInv hs hw hprod hcall
  | signal hpc => exact hs.of_outside (outsideStep_of_eq rfl)

/-- {lit}`get` is called on a nonempty buffer only. -/
def GetsFromNonempty (s : Threads n) : Action n → Prop
  | .consumer _ => s.consumer = .get → s.outgoingBuffer.count ≠ 0
  | _ => True

instance (s : Threads n) (a : Action n) : Decidable (GetsFromNonempty s a) := by
  cases a <;> unfold GetsFromNonempty <;> infer_instance

/-- The consumer moves without touching the buffer or its lock. -/
theorem BufferInv.of_consumerMove {s : Threads n} (hs : BufferInv s) {pc : ConsumerPc n}
    (hlock : pc.holdsLock = true → s.bufferLock = some .consumer)
    (hget : pc = .get → s.shuttingDown = true ∨ s.outgoingBuffer.count ≠ 0)
    (hhand : pc.inHand = s.consumer.inHand) : BufferInv { s with consumer := pc } where
  lockProducer := hs.lockProducer
  lockConsumer := hlock
  consumerNotProducing := hs.consumerNotProducing
  testSpace := hs.testSpace
  putSpace := hs.putSpace
  getReady := hget
  ring := hs.ring
  hand := by
    rw [hs.hand]
    exact congrArg _ hhand.symm

/-- While the consumer is inside the critical section, every producer is outside. -/
theorem BufferInv.producers_outside {s : Threads n} (hs : BufferInv s)
    (hlock : s.bufferLock = some .consumer) {w : ThreadId n} {pc : ProducePc n}
    (hpc : s.producing w = some pc) : pc.holdsLock = false := by
  cases hheld : pc.holdsLock with
  | false => rfl
  | true =>
      have howner := hs.lockProducer w pc hpc hheld
      rw [hlock, Option.some.injEq] at howner
      rw [← howner, hs.consumerNotProducing] at hpc
      contradiction

/-- Picking a producer to wake leaves everything else as it is. -/
theorem wakeEmptyCv_outside {s s' : Threads n} {wake : Option (ThreadId n)}
    (hwake : s.wakeEmptyCv wake = some s') :
    OutsideStep s s' ∧ s'.consumer = s.consumer := by
  rcases wakeEmptyCv_cases hwake with rfl | ⟨w, rfl⟩
  · exact ⟨outsideStep_of_eq rfl, rfl⟩
  · exact ⟨wakeProducer_outside s w, rfl⟩

/-- {lit}`get` on a nonempty buffer hands the consumer the next element that was put. -/
theorem BufferInv.of_get {s : Threads n} (hs : BufferInv s) (hpc : s.consumer = .get)
    (hget : s.outgoingBuffer.count ≠ 0) :
    BufferInv { s with
      outgoingBuffer := s.outgoingBuffer.get.2
      consumer := .test s.outgoingBuffer.get.1
      log := { s.log with taken := s.log.taken ++ [s.outgoingBuffer.get.1] } } := by
  have hlock : s.bufferLock = some .consumer := hs.lockConsumer (by rw [hpc]; rfl)
  have hhand := hs.hand
  rw [hpc] at hhand
  rcases hs.ring with ⟨xs, hholds, hput⟩
  cases xs with
  | nil => exact absurd hholds.count_eq hget
  | cons x xs =>
      rcases OutgoingBuffer.get_holds hholds with ⟨hx, hrest⟩
      apply BufferInv.of_consumer
      · exact fun _ _ h => hs.producers_outside hlock h
      · exact hs.consumerNotProducing
      · exact fun _ => hlock
      · simp
      · refine ⟨xs, hrest, ?_⟩
        change s.log.put = s.log.taken ++ [s.outgoingBuffer.get.1] ++ xs
        rw [hx, hput, List.append_assoc]
        rfl
      · change s.log.taken ++ [s.outgoingBuffer.get.1] = s.log.sent ++ [s.outgoingBuffer.get.1]
        rw [hhand]
        simp [ConsumerPc.inHand]

/-- The consumer, as long as it calls {lit}`get` on a nonempty buffer only. -/
theorem consume_bufferInv {s s' : Threads n} (hs : BufferInv s) {wake : Option (ThreadId n)}
    (hget : s.consumer = .get → s.outgoingBuffer.count ≠ 0)
    (hstep : consume s wake = some s') : BufferInv s' := by
  have hinside : s.consumer.holdsLock = true → s.bufferLock = some .consumer :=
    hs.lockConsumer
  have hhand := hs.hand
  cases hpc : s.consumer with
  | notCreated | waiting | returned => simp [consume, hpc] at hstep
  | top =>
      simp only [consume, hpc] at hstep
      split at hstep
      all_goals
        rw [← Option.some.inj hstep]
        exact hs.of_consumerMove (by simp [ConsumerPc.holdsLock]) (by simp) (by rw [hpc]; rfl)
  | enter | woken =>
      rw [hpc] at hhand
      simp only [consume, hpc] at hstep
      split at hstep
      · next hfree =>
          rw [← Option.some.inj hstep]
          exact BufferInv.of_consumer (fun _ _ h => hs.outside_of_free hfree h)
            hs.consumerNotProducing (fun _ => rfl) (by simp) hs.ring hhand
      · contradiction
  | loop =>
      rw [hpc] at hinside
      simp only [consume, hpc] at hstep
      split at hstep
      · rw [← Option.some.inj hstep]
        exact hs.of_consumerMove hinside (by simp) (by rw [hpc]; rfl)
      · next hcond =>
          rw [← Option.some.inj hstep]
          apply hs.of_consumerMove (fun _ => hinside rfl)
          · intro _
            cases hflag : s.shuttingDown with
            | true => exact Or.inl rfl
            | false => exact Or.inr fun hzero => hcond ⟨hzero, hflag⟩
          · rw [hpc]
            rfl
  | sleep =>
      rw [hpc] at hinside hhand
      simp only [consume, hpc] at hstep
      rw [← Option.some.inj hstep]
      exact BufferInv.of_consumer (fun _ _ h => hs.producers_outside (hinside rfl) h)
        hs.consumerNotProducing (by simp [ConsumerPc.holdsLock]) (by simp) hs.ring hhand
  | get =>
      simp only [consume, hpc] at hstep
      rw [← Option.some.inj hstep]
      exact hs.of_get hpc (hget hpc)
  | test e =>
      rw [hpc] at hinside
      simp only [consume, hpc] at hstep
      split at hstep
      all_goals
        rw [← Option.some.inj hstep]
        exact hs.of_consumerMove hinside (by simp) (by rw [hpc]; rfl)
  | leave e =>
      rw [hpc] at hinside
      simp only [consume, hpc, Option.map_eq_some_iff] at hstep
      rcases hstep with ⟨s₁, hwake, rfl⟩
      rcases wakeEmptyCv_outside hwake with ⟨hout, hcons⟩
      have hs₁ := hs.of_outside hout
      have hlock₁ : s₁.bufferLock = some .consumer := hout.lock.trans (hinside rfl)
      have hhand₁ := hs₁.hand
      rw [hcons, hpc] at hhand₁
      exact BufferInv.of_consumer (fun _ _ h => hs₁.producers_outside hlock₁ h)
        hs₁.consumerNotProducing (by simp [ConsumerPc.holdsLock]) (by simp) hs₁.ring hhand₁
  | send e =>
      rw [hpc] at hhand
      simp only [consume, hpc] at hstep
      rw [← Option.some.inj hstep]
      exact ⟨hs.lockProducer, by simp [ConsumerPc.holdsLock], hs.consumerNotProducing,
        hs.testSpace, hs.putSpace, by simp, hs.ring, by simpa [ConsumerPc.inHand] using hhand⟩
  | sendLast e =>
      rw [hpc] at hinside hhand
      simp only [consume, hpc] at hstep
      rw [← Option.some.inj hstep]
      exact BufferInv.of_consumer (fun _ _ h => hs.producers_outside (hinside rfl) h)
        hs.consumerNotProducing (by simp [ConsumerPc.holdsLock]) (by simp) hs.ring
        (by simpa [ConsumerPc.inHand] using hhand)
  | signal =>
      simp only [consume, hpc] at hstep
      rw [← Option.some.inj hstep]
      have hs₁ : BufferInv s.signalShutDown :=
        hs.of_outside (outsideStep_of_eq rfl)
      exact hs₁.of_consumerMove (by simp [ConsumerPc.holdsLock]) (by simp)
        (congrArg ConsumerPc.inHand hpc).symm

/-- {lit}`enqueue` does not touch the outgoing buffer. -/
theorem enqueue_outside {s s' : Threads n} {t : Fin n} {message : Bytes} {node : Addr}
    (hstep : enqueue s t message node = some s') : OutsideStep s s' := by
  rcases enqueue_cases hstep with ⟨-, -, -, nodes, q, -, rfl⟩
  exact outsideStep_of_eq rfl

/-- {lit}`shut_down_threads` sets the flag and wakes threads. -/
theorem shutDownThreads_outside {s s' : Threads n} (hstep : shutDownThreads s = some s') :
    OutsideStep s s' := by
  cases shutDownThreads_cases hstep with
  | request hpc =>
      exact ⟨rfl, rfl, rfl, rfl, rfl, fun _ => rfl, fun _ _ h _ => h, id, fun _ => rfl, rfl⟩
  | wakeBuffer hpc hfree =>
      have hwake : OutsideStep s s.wakeAllEmptyCv.wakeFillCv :=
        (wakeAllEmptyCv_outside s).trans (wakeFillCv_outside _)
      exact hwake.trans (outsideStep_of_eq rfl)
  | wakeQueue | queuesWoken | wait | finish => exact outsideStep_of_eq rfl

/-- A spurious wake-up moves nobody into the critical section. -/
theorem wakeSpuriously_outside (s : Threads n) (w : ThreadId n) :
    OutsideStep s (wakeSpuriously s w) := by
  cases w with
  | main => exact wakeProducer_outside s .main
  | topic i =>
      exact (wakeProducer_outside s (.topic i)).trans (outsideStep_of_eq rfl)
  | consumer => exact wakeFillCv_outside s

/-- Every step but a {lit}`get` from an empty buffer keeps the invariant. -/
theorem threadStep_bufferInv {s s' : Threads n} (hs : BufferInv s) {a : Action n}
    (hget : GetsFromNonempty s a) (hstep : threadStep s a = some s') : BufferInv s' := by
  cases threadStep_cases hstep with
  | publish hstep => exact hs.of_outside (enqueue_outside hstep)
  | respond hidle => exact hs.of_outside (outsideStep_of_call s (by simp) _)
  | main hprod hstep => exact produceNewMessage_bufferInv hs (by simp) hprod hstep
  | topic hstep => exact produce_bufferInv hs hstep
  | consumer hstep => exact consume_bufferInv hs hget hstep
  | shutDown hstep => exact hs.of_outside (shutDownThreads_outside hstep)
  | spurious w => exact hs.of_outside (wakeSpuriously_outside s w)

/-! ## What the consumer handles -/

/-- The elements that the consumer has taken are the first elements that were
put, each taken once; what it sends, and has sent, is what it took; and the
counter lies between zero and the capacity. -/
structure ConsumesOnlyProduced (s : Threads n) : Prop where
  taken_prefix : s.log.taken <+: s.log.put
  sent_or_inHand : s.log.taken = s.log.sent ++ s.consumer.inHand
  count_bounds : 0 ≤ s.outgoingBuffer.count ∧ s.outgoingBuffer.count ≤ maxOutgoingBufferSize

/-- The invariant gives the property. -/
theorem BufferInv.consumesOnlyProduced {s : Threads n} (hs : BufferInv s) :
    ConsumesOnlyProduced s := by
  rcases hs.ring with ⟨xs, hholds, hput⟩
  exact ⟨⟨xs, hput.symm⟩, hs.hand, hholds.count_bounds⟩

/-- A {lit}`get` from an empty buffer leaves the counter at minus one. -/
theorem not_consumesOnlyProduced_of_get {s s' : Threads n} {a : Action n}
    (hget : ¬ GetsFromNonempty s a) (hstep : threadStep s a = some s') :
    ¬ ConsumesOnlyProduced s' := by
  intro hs'
  cases a with
  | consumer wake =>
      simp only [GetsFromNonempty, not_forall, not_not] at hget
      rcases hget with ⟨hpc, hzero⟩
      simp only [threadStep, consume, hpc] at hstep
      rw [← Option.some.inj hstep] at hs'
      have hcount := hs'.count_bounds.1
      simp only [OutgoingBuffer.get, hzero] at hcount
      omega
  | publish | respond | main | topic | shutDown | spurious => exact hget trivial

/-- In a run from the start, the consumer only ever handles elements that were
produced if and only if it never calls {lit}`get` on an empty buffer. -/
theorem consumesOnlyProduced_iff_getsFromNonempty (garbage : Nat → OutgoingBufferElement n)
    (created : Fin n → Bool) (consumerCreated : Bool) (run : List (Action n)) :
    (threadSystem created consumerCreated).StatesSatisfy ConsumesOnlyProduced
        (Threads.start garbage created consumerCreated) run ↔
      (threadSystem created consumerCreated).StepsSatisfy GetsFromNonempty
        (Threads.start garbage created consumerCreated) run := by
  have hstart := bufferInv_start garbage created consumerCreated
  refine System.statesSatisfy_iff_stepsSatisfy BufferInv ?_ ?_ run hstart
    hstart.consumesOnlyProduced
  · intro s a s' hs hget hstep
    have hs' : BufferInv s' := threadStep_bufferInv hs hget hstep
    exact ⟨hs', hs'.consumesOnlyProduced⟩
  · intro s a s' _ hget hstep
    exact not_consumesOnlyProduced_of_get hget hstep

/-- Slots of a buffer in memory that happens to be zeroed. -/
def zeroedSlots : Nat → OutgoingBufferElement topicsNum :=
  fun _ => ⟨none, .connectionSocket 0⟩

/-- The consumer goes to sleep on the empty buffer, {lit}`shut_down_threads` sets the
flag and wakes it up, and it goes on to {lit}`get`. -/
def shutDownWhileWaiting : List (Action topicsNum) :=
  List.replicate 4 (.consumer none) ++ List.replicate 6 .shutDown ++
    List.replicate 3 (.consumer none)

/-- A shutdown makes the consumer handle an element although nobody has put one. -/
theorem not_consumesOnlyProduced_shutDown :
    ∃ s, (threadSystem lastNotCreated true).Reachable s ∧ s.log.put = [] ∧
      s.log.taken.length = 1 ∧ s.outgoingBuffer.count = -1 ∧ ¬ ConsumesOnlyProduced s := by
  have hrun : ((threadSystem lastNotCreated true).run
      (Threads.start zeroedSlots lastNotCreated true) shutDownWhileWaiting).map
        (fun s => (s.log.put, s.log.taken.length, s.outgoingBuffer.count)) =
      some ([], 1, -1) := rfl
  rcases Option.map_eq_some_iff.mp hrun with ⟨s, hs, heq⟩
  simp only [Prod.mk.injEq] at heq
  rcases heq with ⟨hput, htaken, hcount⟩
  have hfirst : (threadSystem lastNotCreated true).Reachable
      (Threads.start zeroedSlots lastNotCreated true) :=
    System.Reachable.start ⟨zeroedSlots, rfl⟩
  refine ⟨s, hfirst.run hs, hput, htaken, hcount, fun hgood => ?_⟩
  have hbounds := hgood.count_bounds.1
  omega

end Broker
end PubSub
