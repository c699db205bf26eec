import Mathlib.Data.List.FinRange
import PubSub.Broker.MessageQueue
import PubSub.Broker.OutgoingBuffer
import PubSub.Foundations.Transition

/-!
# The threads of the broker

The main thread, one thread for every topic and one consumer thread share the
message queues, the outgoing buffer and the shutting-down flag.  This module
gives their program counters and the step function of the whole system.

A critical section whose body neither waits nor looks at the shutting-down flag
is one step, enabled while its lock is free.  The three loops that wait, in
{lit}`dequeue`, {lit}`produce_new_message` and {lit}`consume`, hold their lock over several
steps, because the flag is read under a lock of its own and may be set between
any two of them.  A sleeping thread releases its lock and waits in one step, a
wake-up marks it as woken, and a woken thread has to enter the critical section
again.  Threads may also wake up spuriously.

{lit}`shut_down_threads` has a program counter of its own, so that a shutdown may be
requested at any moment.  In the program it runs on the main thread, before the
main loop: those are the runs in which the main thread stays idle.

The state also carries a log of what the threads have done so far.  No step
reads it.

Main results:

- Theorems {lit}`produceNewMessage_cases`, {lit}`produce_cases` and {lit}`consume_cases`: what a
  step of each of the three loops can do.
-/

namespace PubSub
namespace Broker

open Foundations

/-! ## Program counters -/

/-- Where a thread stands in {lit}`produce_new_message`, with the element it puts. -/
inductive ProducePc (n : Nat) where
  | enter (e : OutgoingBufferElement n)
  | loop (e : OutgoingBufferElement n)
  | sleep (e : OutgoingBufferElement n)
  | waiting (e : OutgoingBufferElement n)
  | woken (e : OutgoingBufferElement n)
  | test (e : OutgoingBufferElement n)
  | put (e : OutgoingBufferElement n)
deriving DecidableEq, Repr

/-- Where a topic thread stands in {lit}`produce`.  The constructors from
{lit}`enterQueue` to {lit}`take` are positions inside {lit}`dequeue`; at {lit}`calling` the thread
is inside {lit}`produce_new_message`. -/
inductive TopicPc where
  | notCreated
  | top
  | enterQueue
  | loop
  | sleep
  | waiting
  | woken
  | test
  | take
  | calling
  | signal
  | returned
deriving DecidableEq, Repr

/-- Where the consumer thread stands in {lit}`consume`. -/
inductive ConsumerPc (n : Nat) where
  | notCreated
  | top
  | enter
  | loop
  | sleep
  | waiting
  | woken
  | get
  | test (e : OutgoingBufferElement n)
  | leave (e : OutgoingBufferElement n)
  | send (e : OutgoingBufferElement n)
  | sendLast (e : OutgoingBufferElement n)
  | signal
  | returned
deriving DecidableEq, Repr

/-- Where {lit}`shut_down_threads` stands. -/
inductive ShutDownPc where
  | notCalled
  | wakeQueue (i : Nat)
  | wakeBuffer
  | loop
  | waiting
  | woken
  | returned
deriving DecidableEq, Repr

/-- The threads that enter the critical sections of the queues and the buffer. -/
inductive ThreadId (n : Nat) where
  | main
  | topic (i : Fin n)
  | consumer
deriving DecidableEq, Repr

variable {n : Nat}

/-- The effect of a wake-up on a thread in {lit}`produce_new_message`. -/
def ProducePc.wake : ProducePc n → ProducePc n
  | .waiting e => .woken e
  | pc => pc

/-- The effect of a wake-up on a thread in {lit}`dequeue`. -/
def TopicPc.wake : TopicPc → TopicPc
  | .waiting => .woken
  | pc => pc

/-- The effect of a wake-up on the consumer. -/
def ConsumerPc.wake : ConsumerPc n → ConsumerPc n
  | .waiting => .woken
  | pc => pc

/-- The effect of a wake-up on {lit}`shut_down_threads`. -/
def ShutDownPc.wake : ShutDownPc → ShutDownPc
  | .waiting => .woken
  | pc => pc

/-- The element that a call of {lit}`produce_new_message` puts. -/
def ProducePc.element : ProducePc n → OutgoingBufferElement n
  | .enter e | .loop e | .sleep e | .waiting e | .woken e | .test e | .put e => e

/-! ## States -/

/-- What has happened so far. -/
structure Log (n : Nat) where
  /-- messages handed to {lit}`enqueue`, topic by topic -/
  published : Fin n → List Bytes
  /-- elements stored by {lit}`put`, whoever called it -/
  put : List (OutgoingBufferElement n)
  /-- elements that the main thread has put -/
  responses : List (OutgoingBufferElement n)
  /-- elements that {lit}`get` has returned -/
  taken : List (OutgoingBufferElement n)
  /-- elements that the consumer has finished sending -/
  sent : List (OutgoingBufferElement n)

/-- The shared data of the broker's threads and their program counters.  A call
of {lit}`produce_new_message` is recorded under the calling thread in
{lit}`producing`; the main thread is idle when it has no such call. -/
structure Threads (n : Nat) where
  shuttingDown : Bool
  numOfShutDownThreads : Nat
  outgoingBuffer : OutgoingBuffer (OutgoingBufferElement n)
  messageQueue : Fin n → MessageQueue
  nodes : Heap Bytes
  bufferLock : Option (ThreadId n)
  queueLock : Fin n → Option (ThreadId n)
  producing : ThreadId n → Option (ProducePc n)
  topic : Fin n → TopicPc
  consumer : ConsumerPc n
  shutDown : ShutDownPc
  log : Log n

namespace Threads

/-- The state after {lit}`create_and_start_threads`, before any thread has run.  Slots of
the outgoing buffer hold garbage; a thread whose creation failed never runs. -/
def start (garbage : Nat → OutgoingBufferElement n) (created : Fin n → Bool)
    (consumerCreated : Bool) : Threads n where
  shuttingDown := false
  numOfShutDownThreads := 0
  outgoingBuffer := OutgoingBuffer.initializeOutgoingBuffer garbage
  messageQueue := fun _ => initializeMessageQueue
  nodes := Heap.empty
  bufferLock := none
  queueLock := fun _ => none
  producing := fun _ => none
  topic := fun i => if created i then .top else .notCreated
  consumer := if consumerCreated then .top else .notCreated
  shutDown := .notCalled
  log := ⟨fun _ => [], [], [], [], []⟩

/-- Move a thread inside {lit}`produce_new_message`; {lit}`none` returns from it. -/
def setProducing (s : Threads n) (w : ThreadId n) (pc : Option (ProducePc n)) : Threads n :=
  { s with producing := Function.update s.producing w pc }

/-- Move the thread of topic {lit}`i`. -/
def setTopic (s : Threads n) (i : Fin n) (pc : TopicPc) : Threads n :=
  { s with topic := Function.update s.topic i pc }

/-- Enter or leave the critical section of the message queue of topic {lit}`i`. -/
def setQueueLock (s : Threads n) (i : Fin n) (owner : Option (ThreadId n)) : Threads n :=
  { s with queueLock := Function.update s.queueLock i owner }

/-- Is this thread waiting on {lit}`empty_cv` and not yet woken? -/
def waitsForSpace (s : Threads n) (w : ThreadId n) : Bool :=
  match s.producing w with
  | some (.waiting _) => true
  | _ => false

/-- Wake the given producer, if it waits on {lit}`empty_cv`. -/
def wakeProducer (s : Threads n) (w : ThreadId n) : Threads n :=
  s.setProducing w ((s.producing w).map ProducePc.wake)

/-- {lit}`WakeConditionVariable` on {lit}`empty_cv`: one of the waiting producers is woken,
or none if none waits. -/
def wakeEmptyCv (s : Threads n) : Option (ThreadId n) → Option (Threads n)
  | some w => if s.waitsForSpace w then some (s.wakeProducer w) else none
  | none =>
      if s.waitsForSpace .main || (List.finRange n).any fun i => s.waitsForSpace (.topic i)
      then none else some s

/-- {lit}`WakeAllConditionVariable` on {lit}`empty_cv`. -/
def wakeAllEmptyCv (s : Threads n) : Threads n :=
  { s with producing := fun w => (s.producing w).map ProducePc.wake }

/-- Either wake-up on {lit}`fill_cv`, on which only the consumer waits. -/
def wakeFillCv (s : Threads n) : Threads n :=
  { s with consumer := s.consumer.wake }

/-- {lit}`WakeConditionVariable` on the condition variable of a message queue, on which
only the thread of that topic waits. -/
def wakeQueueCv (s : Threads n) (i : Fin n) : Threads n :=
  s.setTopic i (s.topic i).wake

/-- {lit}`signal_shut_down`: count the calling thread and wake {lit}`shut_down_threads`. -/
def signalShutDown (s : Threads n) : Threads n :=
  { s with
    numOfShutDownThreads := s.numOfShutDownThreads + 1
    shutDown := s.shutDown.wake }

end Threads

/-! ## Steps of the threads -/

open Threads

/-- One step of {lit}`produce_new_message`, called by thread {lit}`w`. -/
def produceNewMessage (s : Threads n) (w : ThreadId n) : ProducePc n → Option (Threads n)
  | .enter e | .woken e =>
      if s.bufferLock = none then
        some ({ s with bufferLock := some w }.setProducing w (some (.loop e)))
      else none
  | .loop e =>
      if s.outgoingBuffer.count = maxOutgoingBufferSize ∧ s.shuttingDown = false then
        some (s.setProducing w (some (.sleep e)))
      else some (s.setProducing w (some (.test e)))
  | .sleep e => some ({ s with bufferLock := none }.setProducing w (some (.waiting e)))
  | .waiting _ => none
  | .test e =>
      if s.shuttingDown = true then some ({ s with bufferLock := none }.setProducing w none)
      else some (s.setProducing w (some (.put e)))
  | .put e =>
      some ({ s with
        outgoingBuffer := s.outgoingBuffer.put e
        bufferLock := none
        log := { s.log with
          put := s.log.put ++ [e]
          responses :=
            if w = ThreadId.main then s.log.responses ++ [e] else s.log.responses }
      }.wakeFillCv.setProducing w none)

/-- One step of {lit}`produce` on the thread of topic {lit}`i`. -/
def produce (s : Threads n) (i : Fin n) : Option (Threads n) :=
  match s.topic i with
  | .notCreated | .waiting | .returned => none
  | .top =>
      if s.shuttingDown = true then some (s.setTopic i .signal)
      else some (s.setTopic i .enterQueue)
  | .enterQueue | .woken =>
      if s.queueLock i = none then
        some ((s.setQueueLock i (some (.topic i))).setTopic i .loop)
      else none
  | .loop =>
      if (s.messageQueue i).head = none ∧ s.shuttingDown = false then
        some (s.setTopic i .sleep)
      else some (s.setTopic i .test)
  | .sleep => some ((s.setQueueLock i none).setTopic i .waiting)
  | .test =>
      -- dequeue() returns NULL, and produce() goes on with it
      if s.shuttingDown = true then
        some (((s.setQueueLock i none).setTopic i .calling).setProducing (.topic i)
          (some (.enter ⟨none, .subscriberConnectionSockets i⟩)))
      else some (s.setTopic i .take)
  | .take =>
      (dequeueUnsafe s.nodes (s.messageQueue i)).map fun (nodes, q, message) =>
        ({ s with
          nodes := nodes
          messageQueue := Function.update s.messageQueue i q
        }.setQueueLock i none |>.setTopic i .calling).setProducing (.topic i)
          (some (.enter ⟨message, .subscriberConnectionSockets i⟩))
  | .calling =>
      match s.producing (.topic i) with
      | some pc => produceNewMessage s (.topic i) pc
      | none => some (s.setTopic i .top)
  | .signal => some (s.signalShutDown.setTopic i .returned)

/-- One step of {lit}`consume`.  {lit}`wake` says which waiting producer its
{lit}`WakeConditionVariable` picks.  After a wake-up at shutdown it calls {lit}`get` without
looking at the count again.  From the empty buffer {lit}`get` takes what happens to be in the
slot, and no {lit}`put` may have written it: from that step on the source is undefined, and
the runs that go on here are not runs of the program. -/
def consume (s : Threads n) (wake : Option (ThreadId n)) : Option (Threads n) :=
  match s.consumer with
  | .notCreated | .waiting | .returned => none
  | .top =>
      if s.shuttingDown = true then some { s with consumer := .signal }
      else some { s with consumer := .enter }
  | .enter | .woken =>
      if s.bufferLock = none then
        some { s with bufferLock := some .consumer, consumer := .loop }
      else none
  | .loop =>
      if s.outgoingBuffer.count = 0 ∧ s.shuttingDown = false then
        some { s with consumer := .sleep }
      else some { s with consumer := .get }
  | .sleep => some { s with bufferLock := none, consumer := .waiting }
  | .get =>
      some { s with
        outgoingBuffer := s.outgoingBuffer.get.2
        consumer := .test s.outgoingBuffer.get.1
        log := { s.log with taken := s.log.taken ++ [s.outgoingBuffer.get.1] } }
  | .test e =>
      if s.shuttingDown = true then some { s with consumer := .sendLast e }
      else some { s with consumer := .leave e }
  | .leave e =>
      (s.wakeEmptyCv wake).map fun s => { s with bufferLock := none, consumer := .send e }
  | .send e =>
      some { s with consumer := .top, log := { s.log with sent := s.log.sent ++ [e] } }
  | .sendLast e =>
      some { s with
        bufferLock := none
        consumer := .signal
        log := { s.log with sent := s.log.sent ++ [e] } }
  | .signal => some { s.signalShutDown with consumer := .returned }

/-- One step of {lit}`shut_down_threads`. -/
def shutDownThreads (s : Threads n) : Option (Threads n) :=
  match s.shutDown with
  | .notCalled => some { s with shuttingDown := true, shutDown := .wakeQueue 0 }
  | .wakeQueue i =>
      if hi : i < n then
        if s.queueLock ⟨i, hi⟩ = none then
          some { s.wakeQueueCv ⟨i, hi⟩ with shutDown := .wakeQueue (i + 1) }
        else none
      else some { s with shutDown := .wakeBuffer }
  | .wakeBuffer =>
      if s.bufferLock = none then
        some { s.wakeAllEmptyCv.wakeFillCv with shutDown := .loop }
      else none
  | .loop | .woken =>
      if s.numOfShutDownThreads < n + 1 then some { s with shutDown := .waiting }
      else some { s with shutDown := .returned }
  | .waiting | .returned => none

/-- {lit}`enqueue`, called by the idle main thread for topic {lit}`t`. -/
def enqueue (s : Threads n) (t : Fin n) (message : Bytes) (node : Addr) :
    Option (Threads n) :=
  if s.producing .main = none ∧ s.queueLock t = none ∧ s.nodes.read node = none then
    (enqueueUnsafe s.nodes (s.messageQueue t) node message).map fun (nodes, q) =>
      { s with
        nodes := nodes
        messageQueue := Function.update s.messageQueue t q
        log := { s.log with
          published := Function.update s.log.published t (s.log.published t ++ [message]) }
      }.wakeQueueCv t
  else none

/-! ## What a step can do -/

/-- What one step of {lit}`produce_new_message` can do. -/
inductive ProduceNewMessageStep (s : Threads n) (w : ThreadId n) :
    ProducePc n → Threads n → Prop where
  /-- the thread moves on and may enter or leave the critical section of the buffer -/
  | move {pc pc' : ProducePc n} (owner : Option (ThreadId n)) (helem : pc'.element = pc.element) :
      ProduceNewMessageStep s w pc ({ s with bufferLock := owner }.setProducing w (some pc'))
  /-- the thread returns without putting its element -/
  | giveUp {e : OutgoingBufferElement n} (hflag : s.shuttingDown = true) :
      ProduceNewMessageStep s w (.test e) ({ s with bufferLock := none }.setProducing w none)
  | put (e : OutgoingBufferElement n) :
      ProduceNewMessageStep s w (.put e)
        ({ s with
          outgoingBuffer := s.outgoingBuffer.put e
          bufferLock := none
          log := { s.log with
            put := s.log.put ++ [e]
            responses :=
              if w = ThreadId.main then s.log.responses ++ [e] else s.log.responses }
        }.wakeFillCv.setProducing w none)

/-- The steps of {lit}`produce_new_message` are these and no others. -/
theorem produceNewMessage_cases {s s' : Threads n} {w : ThreadId n} {pc : ProducePc n}
    (hstep : produceNewMessage s w pc = some s') : ProduceNewMessageStep s w pc s' := by
  cases pc with
  | enter e | woken e =>
      simp only [produceNewMessage] at hstep
      split at hstep
      · rw [← Option.some.inj hstep]
        exact ProduceNewMessageStep.move _ rfl
      · contradiction
  | loop e =>
      simp only [produceNewMessage] at hstep
      split at hstep
      all_goals
        rw [← Option.some.inj hstep]
        exact ProduceNewMessageStep.move s.bufferLock rfl
  | sleep e =>
      simp only [produceNewMessage] at hstep
      rw [← Option.some.inj hstep]
      exact ProduceNewMessageStep.move _ rfl
  | waiting e => simp [produceNewMessage] at hstep
  | test e =>
      simp only [produceNewMessage] at hstep
      split at hstep
      · next hflag =>
          rw [← Option.some.inj hstep]
          exact ProduceNewMessageStep.giveUp hflag
      · rw [← Option.some.inj hstep]
        exact ProduceNewMessageStep.move s.bufferLock rfl
  | put e =>
      simp only [produceNewMessage] at hstep
      rw [← Option.some.inj hstep]
      exact ProduceNewMessageStep.put e

/-- What one step of {lit}`produce` can do. -/
inductive ProduceStep (s : Threads n) (i : Fin n) : Threads n → Prop where
  /-- the thread moves on and may enter or leave the critical section of its queue;
  it passes the wait loop only on a message or on a shutdown -/
  | move {pc : TopicPc} (owner : Option (ThreadId n))
      (hold : s.topic i ≠ .notCreated ∧ s.topic i ≠ .returned) (hnew : pc ≠ .returned)
      (hidle : s.topic i = .calling → s.producing (.topic i) = none)
      (hpass : pc = .test ∨ pc = .take →
        s.topic i = .test ∨ (s.messageQueue i).head ≠ none ∨ s.shuttingDown = true) :
      ProduceStep s i ((s.setQueueLock i owner).setTopic i pc)
  /-- {lit}`dequeue` has returned a null pointer -/
  | callNull (hpc : s.topic i = .test) (hflag : s.shuttingDown = true) :
      ProduceStep s i (((s.setQueueLock i none).setTopic i .calling).setProducing (.topic i)
        (some (.enter ⟨none, .subscriberConnectionSockets i⟩)))
  /-- {lit}`dequeue` takes a message -/
  | take {nodes : Heap Bytes} {q : MessageQueue} {message : Option Bytes}
      (hpc : s.topic i = .take)
      (hdequeue : dequeueUnsafe s.nodes (s.messageQueue i) = some (nodes, q, message)) :
      ProduceStep s i
        (({ s with
          nodes := nodes
          messageQueue := Function.update s.messageQueue i q
        }.setQueueLock i none |>.setTopic i .calling).setProducing (.topic i)
          (some (.enter ⟨message, .subscriberConnectionSockets i⟩)))
  /-- the thread is in {lit}`produce_new_message` -/
  | call {pc : ProducePc n} {s' : Threads n} (hprod : s.producing (.topic i) = some pc)
      (hstep : produceNewMessage s (.topic i) pc = some s') : ProduceStep s i s'
  | signal (hpc : s.topic i = .signal) :
      ProduceStep s i (s.signalShutDown.setTopic i .returned)

/-- A thread that moves without its queue's lock. -/
theorem ProduceStep.moveOnly {s : Threads n} {i : Fin n} {pc : TopicPc}
    (hold : s.topic i ≠ .notCreated ∧ s.topic i ≠ .returned) (hnew : pc ≠ .returned)
    (hidle : s.topic i = .calling → s.producing (.topic i) = none)
    (hpass : pc = .test ∨ pc = .take →
      s.topic i = .test ∨ (s.messageQueue i).head ≠ none ∨ s.shuttingDown = true) :
    ProduceStep s i (s.setTopic i pc) := by
  have hmove := ProduceStep.move (s.queueLock i) hold hnew hidle hpass
  rwa [setQueueLock, Function.update_eq_self] at hmove

/-- The steps of {lit}`produce` are these and no others. -/
theorem produce_cases {s s' : Threads n} {i : Fin n} (hstep : produce s i = some s') :
    ProduceStep s i s' := by
  cases hpc : s.topic i with
  | notCreated | waiting | returned => simp [produce, hpc] at hstep
  | top =>
      simp only [produce, hpc] at hstep
      split at hstep
      all_goals
        rw [← Option.some.inj hstep]
        apply ProduceStep.moveOnly <;> simp [hpc]
  | enterQueue | woken =>
      simp only [produce, hpc] at hstep
      split at hstep
      · rw [← Option.some.inj hstep]
        apply ProduceStep.move <;> simp [hpc]
      · contradiction
  | loop =>
      simp only [produce, hpc] at hstep
      split at hstep
      · rw [← Option.some.inj hstep]
        apply ProduceStep.moveOnly <;> simp [hpc]
      · next hcond =>
          rw [← Option.some.inj hstep]
          apply ProduceStep.moveOnly (by simp [hpc]) (by simp) (by simp [hpc])
          intro _
          cases hflag : s.shuttingDown with
          | true => exact Or.inr (Or.inr rfl)
          | false => exact Or.inr (Or.inl fun hnone => hcond ⟨hnone, hflag⟩)
  | sleep =>
      simp only [produce, hpc] at hstep
      rw [← Option.some.inj hstep]
      apply ProduceStep.move <;> simp [hpc]
  | test =>
      simp only [produce, hpc] at hstep
      split at hstep
      · next hflag =>
          rw [← Option.some.inj hstep]
          exact ProduceStep.callNull hpc hflag
      · rw [← Option.some.inj hstep]
        apply ProduceStep.moveOnly <;> simp [hpc]
  | take =>
      simp only [produce, hpc, Option.map_eq_some_iff] at hstep
      rcases hstep with ⟨⟨nodes, q, message⟩, hdequeue, rfl⟩
      exact ProduceStep.take hpc hdequeue
  | calling =>
      simp only [produce, hpc] at hstep
      split at hstep
      · next pc hprod => exact ProduceStep.call hprod hstep
      · next hprod =>
          rw [← Option.some.inj hstep]
          apply ProduceStep.moveOnly <;> simp [hpc, hprod]
  | signal =>
      simp only [produce, hpc] at hstep
      rw [← Option.some.inj hstep]
      exact ProduceStep.signal hpc

/-- {lit}`WakeConditionVariable` on {lit}`empty_cv` wakes one producer or nobody. -/
theorem Threads.wakeEmptyCv_cases {s s' : Threads n} {wake : Option (ThreadId n)}
    (hwake : s.wakeEmptyCv wake = some s') : s' = s ∨ ∃ w, s' = s.wakeProducer w := by
  cases wake with
  | some w =>
      simp only [wakeEmptyCv] at hwake
      split at hwake
      · exact Or.inr ⟨w, (Option.some.inj hwake).symm⟩
      · contradiction
  | none =>
      simp only [wakeEmptyCv] at hwake
      split at hwake
      · contradiction
      · exact Or.inl (Option.some.inj hwake).symm

/-- What one step of {lit}`consume` can do. -/
inductive ConsumeStep (s : Threads n) (wake : Option (ThreadId n)) : Threads n → Prop where
  /-- the thread moves on and may enter or leave the critical section of the buffer -/
  | move {pc : ConsumerPc n} (owner : Option (ThreadId n))
      (hold : s.consumer ≠ .notCreated ∧ s.consumer ≠ .returned) (hnew : pc ≠ .returned) :
      ConsumeStep s wake { s with bufferLock := owner, consumer := pc }
  | get (hpc : s.consumer = .get) :
      ConsumeStep s wake { s with
        outgoingBuffer := s.outgoingBuffer.get.2
        consumer := .test s.outgoingBuffer.get.1
        log := { s.log with taken := s.log.taken ++ [s.outgoingBuffer.get.1] } }
  | leave {e : OutgoingBufferElement n} {s₁ : Threads n} (hpc : s.consumer = .leave e)
      (hwake : s.wakeEmptyCv wake = some s₁) :
      ConsumeStep s wake { s₁ with bufferLock := none, consumer := .send e }
  /-- the thread has sent its element -/
  | sent {e : OutgoingBufferElement n} {pc : ConsumerPc n} (owner : Option (ThreadId n))
      (hpc : s.consumer = .send e ∨ s.consumer = .sendLast e) (hnew : pc ≠ .returned) :
      ConsumeStep s wake { s with
        bufferLock := owner
        consumer := pc
        log := { s.log with sent := s.log.sent ++ [e] } }
  | signal (hpc : s.consumer = .signal) :
      ConsumeStep s wake { s.signalShutDown with consumer := .returned }

/-- The steps of {lit}`consume` are these and no others. -/
theorem consume_cases {s s' : Threads n} {wake : Option (ThreadId n)}
    (hstep : consume s wake = some s') : ConsumeStep s wake s' := by
  cases hpc : s.consumer with
  | notCreated | waiting | returned => simp [consume, hpc] at hstep
  | enter | woken =>
      simp only [consume, hpc] at hstep
      split at hstep
      · rw [← Option.some.inj hstep]
        exact ConsumeStep.move _ (by simp [hpc]) (by simp)
      · contradiction
  | top | loop | test e =>
      simp only [consume, hpc] at hstep
      split at hstep
      all_goals
        rw [← Option.some.inj hstep]
        exact ConsumeStep.move s.bufferLock (by simp [hpc]) (by simp)
  | sleep =>
      simp only [consume, hpc] at hstep
      rw [← Option.some.inj hstep]
      exact ConsumeStep.move _ (by simp [hpc]) (by simp)
  | get =>
      simp only [consume, hpc] at hstep
      rw [← Option.some.inj hstep]
      exact ConsumeStep.get hpc
  | leave e =>
      simp only [consume, hpc, Option.map_eq_some_iff] at hstep
      rcases hstep with ⟨s₁, hwake, rfl⟩
      exact ConsumeStep.leave hpc hwake
  | send e =>
      simp only [consume, hpc] at hstep
      rw [← Option.some.inj hstep]
      exact ConsumeStep.sent s.bufferLock (Or.inl hpc) (by simp)
  | sendLast e =>
      simp only [consume, hpc] at hstep
      rw [← Option.some.inj hstep]
      exact ConsumeStep.sent _ (Or.inr hpc) (by simp)
  | signal =>
      simp only [consume, hpc] at hstep
      rw [← Option.some.inj hstep]
      exact ConsumeStep.signal hpc

/-- What one step of {lit}`shut_down_threads` can do. -/
inductive ShutDownStep (s : Threads n) : Threads n → Prop where
  | request (hpc : s.shutDown = .notCalled) :
      ShutDownStep s { s with shuttingDown := true, shutDown := .wakeQueue 0 }
  | wakeQueue {i : Nat} (hi : i < n) (hpc : s.shutDown = .wakeQueue i)
      (hfree : s.queueLock ⟨i, hi⟩ = none) :
      ShutDownStep s { s.wakeQueueCv ⟨i, hi⟩ with shutDown := .wakeQueue (i + 1) }
  | queuesWoken {i : Nat} (hi : n ≤ i) (hpc : s.shutDown = .wakeQueue i) :
      ShutDownStep s { s with shutDown := .wakeBuffer }
  | wakeBuffer (hpc : s.shutDown = .wakeBuffer) (hfree : s.bufferLock = none) :
      ShutDownStep s { s.wakeAllEmptyCv.wakeFillCv with shutDown := .loop }
  | wait (hpc : s.shutDown = .loop ∨ s.shutDown = .woken)
      (hgoal : s.numOfShutDownThreads < n + 1) : ShutDownStep s { s with shutDown := .waiting }
  | finish (hpc : s.shutDown = .loop ∨ s.shutDown = .woken)
      (hgoal : n + 1 ≤ s.numOfShutDownThreads) : ShutDownStep s { s with shutDown := .returned }

/-- The steps of {lit}`shut_down_threads` are these and no others. -/
theorem shutDownThreads_cases {s s' : Threads n} (hstep : shutDownThreads s = some s') :
    ShutDownStep s s' := by
  cases hpc : s.shutDown with
  | notCalled =>
      simp only [shutDownThreads, hpc] at hstep
      rw [← Option.some.inj hstep]
      exact ShutDownStep.request hpc
  | wakeQueue i =>
      simp only [shutDownThreads, hpc] at hstep
      split at hstep
      · next hi =>
          split at hstep
          · next hfree =>
              rw [← Option.some.inj hstep]
              exact ShutDownStep.wakeQueue hi hpc hfree
          · contradiction
      · next hi =>
          rw [← Option.some.inj hstep]
          exact ShutDownStep.queuesWoken (Nat.le_of_not_lt hi) hpc
  | wakeBuffer =>
      simp only [shutDownThreads, hpc] at hstep
      split at hstep
      · next hfree =>
          rw [← Option.some.inj hstep]
          exact ShutDownStep.wakeBuffer hpc hfree
      · contradiction
  | loop | woken =>
      simp only [shutDownThreads, hpc] at hstep
      split at hstep
      · next hgoal =>
          rw [← Option.some.inj hstep]
          exact ShutDownStep.wait (by simp [hpc]) hgoal
      · next hgoal =>
          rw [← Option.some.inj hstep]
          exact ShutDownStep.finish (by simp [hpc]) (Nat.le_of_not_lt hgoal)
  | waiting | returned => simp [shutDownThreads, hpc] at hstep

/-- What {lit}`enqueue` does, if the main thread can call it. -/
theorem enqueue_cases {s s' : Threads n} {t : Fin n} {message : Bytes} {node : Addr}
    (hstep : enqueue s t message node = some s') :
    s.producing .main = none ∧ s.queueLock t = none ∧ s.nodes.read node = none ∧
      ∃ nodes q, enqueueUnsafe s.nodes (s.messageQueue t) node message = some (nodes, q) ∧
        s' = { s with
          nodes := nodes
          messageQueue := Function.update s.messageQueue t q
          log := { s.log with
            published :=
              Function.update s.log.published t (s.log.published t ++ [message]) }
        }.wakeQueueCv t := by
  unfold enqueue at hstep
  split at hstep
  · next hguard =>
      rw [Option.map_eq_some_iff] at hstep
      rcases hstep with ⟨⟨nodes, q⟩, henqueue, rfl⟩
      exact ⟨hguard.1, hguard.2.1, hguard.2.2, nodes, q, henqueue, rfl⟩
  · contradiction

/-! ## The system -/

/-- Who moves next, with the choices that the move leaves open. -/
inductive Action (n : Nat) where
  /-- the main thread publishes; {lit}`node` is the address that {lit}`malloc` returns -/
  | publish (t : Fin n) (message : Bytes) (node : Addr)
  /-- the main thread starts to put a response -/
  | respond (response : Bytes) (socket : Socket)
  /-- the main thread goes on putting a response -/
  | main
  | topic (i : Fin n)
  | consumer (wake : Option (ThreadId n))
  | shutDown
  /-- a waiting thread wakes up although nobody has woken it -/
  | spurious (w : ThreadId n)
deriving DecidableEq, Repr

/-- A thread that sleeps on a condition variable wakes up. -/
def wakeSpuriously (s : Threads n) : ThreadId n → Threads n
  | .main => s.wakeProducer .main
  | .topic i => (s.wakeProducer (.topic i)).wakeQueueCv i
  | .consumer => s.wakeFillCv

/-- The step function of the broker's threads. -/
def threadStep (s : Threads n) : Action n → Option (Threads n)
  | .publish t message node => enqueue s t message node
  | .respond response socket =>
      if s.producing .main = none then
        some (s.setProducing .main (some (.enter ⟨some response, .connectionSocket socket⟩)))
      else none
  | .main =>
      match s.producing .main with
      | none => none
      | some pc => produceNewMessage s .main pc
  | .topic i => produce s i
  | .consumer wake => consume s wake
  | .shutDown => shutDownThreads s
  | .spurious w => some (wakeSpuriously s w)

/-- What a step of the threads can be. -/
inductive ThreadStep (s : Threads n) : Action n → Threads n → Prop where
  | publish {t : Fin n} {message : Bytes} {node : Addr} {s' : Threads n}
      (hstep : enqueue s t message node = some s') : ThreadStep s (.publish t message node) s'
  | respond {response : Bytes} {socket : Socket} (hidle : s.producing .main = none) :
      ThreadStep s (.respond response socket)
        (s.setProducing .main (some (.enter ⟨some response, .connectionSocket socket⟩)))
  | main {pc : ProducePc n} {s' : Threads n} (hprod : s.producing .main = some pc)
      (hstep : produceNewMessage s .main pc = some s') : ThreadStep s .main s'
  | topic {i : Fin n} {s' : Threads n} (hstep : produce s i = some s') :
      ThreadStep s (.topic i) s'
  | consumer {wake : Option (ThreadId n)} {s' : Threads n} (hstep : consume s wake = some s') :
      ThreadStep s (.consumer wake) s'
  | shutDown {s' : Threads n} (hstep : shutDownThreads s = some s') :
      ThreadStep s .shutDown s'
  | spurious (w : ThreadId n) : ThreadStep s (.spurious w) (wakeSpuriously s w)

/-- The steps of the threads are these and no others. -/
theorem threadStep_cases {s s' : Threads n} {a : Action n} (hstep : threadStep s a = some s') :
    ThreadStep s a s' := by
  cases a with
  | publish t message node => exact ThreadStep.publish hstep
  | respond response socket =>
      simp only [threadStep] at hstep
      split at hstep
      · next hidle =>
          rw [← Option.some.inj hstep]
          exact ThreadStep.respond hidle
      · contradiction
  | main =>
      simp only [threadStep] at hstep
      split at hstep
      · contradiction
      · next pc hprod => exact ThreadStep.main hprod hstep
  | topic i => exact ThreadStep.topic hstep
  | consumer wake => exact ThreadStep.consumer hstep
  | shutDown => exact ThreadStep.shutDown hstep
  | spurious w =>
      rw [← Option.some.inj hstep]
      exact ThreadStep.spurious w

/-- The threads of a broker with {lit}`n` topics, given which of them were created. -/
def threadSystem (created : Fin n → Bool) (consumerCreated : Bool) :
    System (Threads n) (Action n) where
  initial s := ∃ garbage, s = Threads.start garbage created consumerCreated
  step := threadStep

/-- A broker with three topics for which the last topic thread could not be created. -/
def lastNotCreated : Fin topicsNum → Bool :=
  fun i => i ≠ 2

end Broker
end PubSub
