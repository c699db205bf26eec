import PubSub.Broker.ShutDown
import PubSub.Broker.WakeUps
import PubSub.Foundations.Termination

/-!
# Which threads can move

A thread of the broker that cannot move waits on a condition variable, or for a lock whose
owner can move.  For this one has to know exactly which way the threads go, and that a lock
that is taken is owned by a thread inside the critical section.

Main results:

- Theorems {lit}`produceNewMessage_moves`, {lit}`produce_moves` and {lit}`consume_moves`: the
  ways of the three loops.
- Theorem {lit}`lifeInv_reachable` and {lit}`bufferOwned_reachable`: who exists, who has left its
  loop, and who owns the lock of the outgoing buffer.
- Theorem {lit}`atRest_of_stuck`: if no thread can move, then all locks are free, every thread
  inside a loop waits, and nobody dereferences a freed node.
-/

namespace PubSub
namespace Broker

open Foundations Threads

variable {n : Nat}

/-! ## The ways of the loops -/

/-- The ways of {lit}`produce_new_message` from one position to the next, given the
shutting-down flag. -/
inductive ProducerMove (flag : Bool) : ProducePc n → ProducePc n → Prop
  | enter (e : OutgoingBufferElement n) : ProducerMove flag (.enter e) (.loop e)
  | reenter (e : OutgoingBufferElement n) : ProducerMove flag (.woken e) (.loop e)
  | toSleep (e : OutgoingBufferElement n) (hflag : flag = false) :
      ProducerMove flag (.loop e) (.sleep e)
  | wait (e : OutgoingBufferElement n) : ProducerMove flag (.sleep e) (.waiting e)
  | toTest (e : OutgoingBufferElement n) : ProducerMove flag (.loop e) (.test e)
  | toPut (e : OutgoingBufferElement n) (hflag : flag = false) :
      ProducerMove flag (.test e) (.put e)

/-- A step of {lit}`produce_new_message`, with the way that it goes. -/
inductive ProducerMoves (s : Threads n) (w : ThreadId n) : ProducePc n → Threads n → Prop
  | move {pc pc' : ProducePc n} (owner : Option (ThreadId n))
      (hmove : ProducerMove s.shuttingDown pc pc') :
      ProducerMoves s w pc ({ s with bufferLock := owner }.setProducing w (some pc'))
  | giveUp {e : OutgoingBufferElement n} (hflag : s.shuttingDown = true) :
      ProducerMoves s w (.test e) ({ s with bufferLock := none }.setProducing w none)
  | put (e : OutgoingBufferElement n) :
      ProducerMoves s w (.put e)
        ({ s with
          outgoingBuffer := s.outgoingBuffer.put e
          bufferLock := none
          log := { s.log with
            put := s.log.put ++ [e]
            responses :=
              if w = ThreadId.main then s.log.responses ++ [e] else s.log.responses }
        }.wakeFillCv.setProducing w none)

theorem produceNewMessage_moves {s s' : Threads n} {w : ThreadId n} {pc : ProducePc n}
    (hstep : produceNewMessage s w pc = some s') : ProducerMoves s w pc s' := by
  cases pc with
  | waiting e => simp [produceNewMessage] at hstep
  | enter e =>
      simp only [produceNewMessage, Option.ite_none_right_eq_some, Option.some.injEq] at hstep
      rcases hstep with ⟨-, rfl⟩
      exact .move _ (.enter e)
  | woken e =>
      simp only [produceNewMessage, Option.ite_none_right_eq_some, Option.some.injEq] at hstep
      rcases hstep with ⟨-, rfl⟩
      exact .move _ (.reenter e)
  | loop e =>
      simp only [produceNewMessage] at hstep
      split at hstep
      · next hcond =>
          rw [← Option.some.inj hstep]
          exact .move s.bufferLock (.toSleep e hcond.2)
      · rw [← Option.some.inj hstep]
        exact .move s.bufferLock (.toTest e)
  | sleep e =>
      rw [← Option.some.inj hstep]
      exact .move _ (.wait e)
  | test e =>
      simp only [produceNewMessage] at hstep
      split at hstep
      · next hflag =>
          rw [← Option.some.inj hstep]
          exact .giveUp hflag
      · next hflag =>
          rw [← Option.some.inj hstep]
          exact .move s.bufferLock (.toPut e (Bool.eq_false_iff.mpr hflag))
  | put e =>
      rw [← Option.some.inj hstep]
      exact .put e

/-- The ways of a topic thread from one position to the next. -/
inductive TopicMove (flag : Bool) : TopicPc → TopicPc → Prop
  | stop (hflag : flag = true) : TopicMove flag .top .signal
  | dequeue (hflag : flag = false) : TopicMove flag .top .enterQueue
  | enter : TopicMove flag .enterQueue .loop
  | reenter : TopicMove flag .woken .loop
  | toSleep (hflag : flag = false) : TopicMove flag .loop .sleep
  | wait : TopicMove flag .sleep .waiting
  | toTest : TopicMove flag .loop .test
  | toTake (hflag : flag = false) : TopicMove flag .test .take
  | again : TopicMove flag .calling .top

/-- A step of {lit}`produce` on the thread of topic {lit}`i`, with the way that it goes.  The
thread leaves the lock behind when it leaves the critical section. -/
inductive TopicMoves (s : Threads n) (i : Fin n) : Threads n → Prop
  | move {pc : TopicPc} (owner : Option (ThreadId n))
      (hmove : TopicMove s.shuttingDown (s.topic i) pc)
      (howner : owner ≠ none → pc.holdsLock = true ∨
        owner = s.queueLock i ∧ (s.topic i).holdsLock = false) :
      TopicMoves s i ((s.setQueueLock i owner).setTopic i pc)
  | callNull (hpc : s.topic i = .test) (hflag : s.shuttingDown = true) :
      TopicMoves s i (((s.setQueueLock i none).setTopic i .calling).setProducing (.topic i)
        (some (.enter ⟨none, .subscriberConnectionSockets i⟩)))
  | take {nodes : Heap Bytes} {q : MessageQueue} {message : Option Bytes}
      (hpc : s.topic i = .take)
      (hdequeue : dequeueUnsafe s.nodes (s.messageQueue i) = some (nodes, q, message)) :
      TopicMoves s i
        (({ s with
          nodes := nodes
          messageQueue := Function.update s.messageQueue i q
        }.setQueueLock i none |>.setTopic i .calling).setProducing (.topic i)
          (some (.enter ⟨message, .subscriberConnectionSockets i⟩)))
  | call {pc : ProducePc n} {s' : Threads n} (hpc : s.topic i = .calling)
      (hprod : s.producing (.topic i) = some pc)
      (hstep : produceNewMessage s (.topic i) pc = some s') : TopicMoves s i s'
  | signal (hpc : s.topic i = .signal) :
      TopicMoves s i (s.signalShutDown.setTopic i .returned)

/-- A topic thread that goes on without touching the lock of its queue. -/
theorem TopicMoves.moveOnly {s : Threads n} {i : Fin n} {pc : TopicPc}
    (hmove : TopicMove s.shuttingDown (s.topic i) pc)
    (hlock : pc.holdsLock = true ∨ (s.topic i).holdsLock = false) :
    TopicMoves s i (s.setTopic i pc) := by
  have h := TopicMoves.move (s.queueLock i) hmove fun _ => hlock.imp_right fun hout => ⟨rfl, hout⟩
  rwa [setQueueLock, Function.update_eq_self] at h

theorem produce_moves {s s' : Threads n} {i : Fin n} (hstep : produce s i = some s') :
    TopicMoves s i s' := by
  cases hpc : s.topic i with
  | notCreated | waiting | returned => simp [produce, hpc] at hstep
  | top =>
      simp only [produce, hpc] at hstep
      split at hstep
      · next hflag =>
          rw [← Option.some.inj hstep]
          exact .moveOnly (hpc ▸ .stop hflag) (.inr (by rw [hpc]; rfl))
      · next hflag =>
          rw [← Option.some.inj hstep]
          exact .moveOnly (hpc ▸ .dequeue (Bool.eq_false_iff.mpr hflag)) (.inr (by rw [hpc]; rfl))
  | enterQueue =>
      simp only [produce, hpc, Option.ite_none_right_eq_some, Option.some.injEq] at hstep
      rcases hstep with ⟨-, rfl⟩
      exact .move _ (hpc ▸ .enter) fun _ => .inl rfl
  | woken =>
      simp only [produce, hpc, Option.ite_none_right_eq_some, Option.some.injEq] at hstep
      rcases hstep with ⟨-, rfl⟩
      exact .move _ (hpc ▸ .reenter) fun _ => .inl rfl
  | loop =>
      simp only [produce, hpc] at hstep
      split at hstep
      · next hcond =>
          rw [← Option.some.inj hstep]
          exact .moveOnly (hpc ▸ .toSleep hcond.2) (.inl rfl)
      · rw [← Option.some.inj hstep]
        exact .moveOnly (hpc ▸ .toTest) (.inl rfl)
  | sleep =>
      simp only [produce, hpc] at hstep
      rw [← Option.some.inj hstep]
      exact .move none (hpc ▸ .wait) fun h => absurd rfl h
  | test =>
      simp only [produce, hpc] at hstep
      split at hstep
      · next hflag =>
          rw [← Option.some.inj hstep]
          exact .callNull hpc hflag
      · next hflag =>
          rw [← Option.some.inj hstep]
          exact .moveOnly (hpc ▸ .toTake (Bool.eq_false_iff.mpr hflag)) (.inl rfl)
  | take =>
      simp only [produce, hpc, Option.map_eq_some_iff] at hstep
      rcases hstep with ⟨⟨nodes, q, message⟩, hdequeue, rfl⟩
      exact .take hpc hdequeue
  | calling =>
      simp only [produce, hpc] at hstep
      split at hstep
      · next pc hprod => exact .call hpc hprod hstep
      · rw [← Option.some.inj hstep]
        exact .moveOnly (hpc ▸ .again) (.inr (by rw [hpc]; rfl))
  | signal =>
      simp only [produce, hpc] at hstep
      rw [← Option.some.inj hstep]
      exact .signal hpc

/-- The ways of the consumer from one position to the next, before it takes an element and
behind that. -/
inductive ConsumerMove (flag : Bool) : ConsumerPc n → ConsumerPc n → Prop
  | stop (hflag : flag = true) : ConsumerMove flag .top .signal
  | again (hflag : flag = false) : ConsumerMove flag .top .enter
  | enter : ConsumerMove flag .enter .loop
  | reenter : ConsumerMove flag .woken .loop
  | toSleep (hflag : flag = false) : ConsumerMove flag .loop .sleep
  | wait : ConsumerMove flag .sleep .waiting
  | toGet : ConsumerMove flag .loop .get
  | toLeave (e : OutgoingBufferElement n) (hflag : flag = false) :
      ConsumerMove flag (.test e) (.leave e)
  | toSendLast (e : OutgoingBufferElement n) (hflag : flag = true) :
      ConsumerMove flag (.test e) (.sendLast e)

/-- A step of {lit}`consume`, with the way that it goes. -/
inductive ConsumerMoves (s : Threads n) (wake : Option (ThreadId n)) : Threads n → Prop
  | move {pc : ConsumerPc n} (owner : Option (ThreadId n))
      (hmove : ConsumerMove s.shuttingDown s.consumer pc) :
      ConsumerMoves s wake { s with bufferLock := owner, consumer := pc }
  | get (hpc : s.consumer = .get) :
      ConsumerMoves s wake { s with
        outgoingBuffer := s.outgoingBuffer.get.2
        consumer := .test s.outgoingBuffer.get.1
        log := { s.log with taken := s.log.taken ++ [s.outgoingBuffer.get.1] } }
  | leave {e : OutgoingBufferElement n} {s₁ : Threads n} (hpc : s.consumer = .leave e)
      (hwake : s.wakeEmptyCv wake = some s₁) :
      ConsumerMoves s wake { s₁ with bufferLock := none, consumer := .send e }
  | sent {e : OutgoingBufferElement n} (hpc : s.consumer = .send e) :
      ConsumerMoves s wake { s with
        consumer := .top
        log := { s.log with sent := s.log.sent ++ [e] } }
  | sentLast {e : OutgoingBufferElement n} (hpc : s.consumer = .sendLast e) :
      ConsumerMoves s wake { s with
        bufferLock := none
        consumer := .signal
        log := { s.log with sent := s.log.sent ++ [e] } }
  | signal (hpc : s.consumer = .signal) :
      ConsumerMoves s wake { s.signalShutDown with consumer := .returned }

theorem consume_moves {s s' : Threads n} {wake : Option (ThreadId n)}
    (hstep : consume s wake = some s') : ConsumerMoves s wake s' := by
  cases hpc : s.consumer with
  | notCreated | waiting | returned => simp [consume, hpc] at hstep
  | top =>
      simp only [consume, hpc] at hstep
      split at hstep
      · next hflag =>
          rw [← Option.some.inj hstep]
          exact .move s.bufferLock (hpc ▸ .stop hflag)
      · next hflag =>
          rw [← Option.some.inj hstep]
          exact .move s.bufferLock (hpc ▸ .again (Bool.eq_false_iff.mpr hflag))
  | enter =>
      simp only [consume, hpc, Option.ite_none_right_eq_some, Option.some.injEq] at hstep
      rcases hstep with ⟨-, rfl⟩
      exact .move _ (hpc ▸ .enter)
  | woken =>
      simp only [consume, hpc, Option.ite_none_right_eq_some, Option.some.injEq] at hstep
      rcases hstep with ⟨-, rfl⟩
      exact .move _ (hpc ▸ .reenter)
  | loop =>
      simp only [consume, hpc] at hstep
      split at hstep
      · next hcond =>
          rw [← Option.some.inj hstep]
          exact .move s.bufferLock (hpc ▸ .toSleep hcond.2)
      · rw [← Option.some.inj hstep]
        exact .move s.bufferLock (hpc ▸ .toGet)
  | sleep =>
      simp only [consume, hpc] at hstep
      rw [← Option.some.inj hstep]
      exact .move _ (hpc ▸ .wait)
  | get =>
      simp only [consume, hpc] at hstep
      rw [← Option.some.inj hstep]
      exact .get hpc
  | test e =>
      simp only [consume, hpc] at hstep
      split at hstep
      · next hflag =>
          rw [← Option.some.inj hstep]
          exact .move s.bufferLock (hpc ▸ .toSendLast e hflag)
      · next hflag =>
          rw [← Option.some.inj hstep]
          exact .move s.bufferLock (hpc ▸ .toLeave e (Bool.eq_false_iff.mpr hflag))
  | leave e =>
      simp only [consume, hpc, Option.map_eq_some_iff] at hstep
      rcases hstep with ⟨s₁, hwake, rfl⟩
      exact .leave hpc hwake
  | send e =>
      simp only [consume, hpc] at hstep
      rw [← Option.some.inj hstep]
      exact .sent hpc
  | sendLast e =>
      simp only [consume, hpc] at hstep
      rw [← Option.some.inj hstep]
      exact .sentLast hpc
  | signal =>
      simp only [consume, hpc] at hstep
      rw [← Option.some.inj hstep]
      exact .signal hpc

/-! ## Who exists, and who has left its loop -/

/-- A topic thread that was created exists, it leaves its loop only in a shutdown, and whoever
has the lock of its queue is this thread inside the critical section. -/
structure TopicAlive (created flag : Bool) (lock : Option (ThreadId n)) (pc : TopicPc) :
    Prop where
  missing : pc = .notCreated → created = false
  leaves : pc = .signal ∨ pc = .returned → flag = true
  owner : lock ≠ none → pc.holdsLock = true

/-- So for the consumer, except for the lock. -/
structure ConsumerAlive (created flag : Bool) (pc : ConsumerPc n) : Prop where
  missing : pc = .notCreated → created = false
  leaves : pc = .signal ∨ pc = .returned ∨ (∃ e, pc = .sendLast e) → flag = true

/-- The flag is set by {lit}`shut_down_threads`, which waits for signals that are missing. -/
structure ShutDownAlive (n : Nat) (flag : Bool) (count : Nat) (pc : ShutDownPc) : Prop where
  called : flag = true → pc ≠ .notCalled
  waits : pc = .waiting → count < n + 1

/-- Who exists and who has left its loop; and the queues are well formed. -/
structure LifeInv (created : Fin n → Bool) (consumerCreated : Bool) (s : Threads n) : Prop where
  topic : ∀ i, TopicAlive (created i) s.shuttingDown (s.queueLock i) (s.topic i)
  consumer : ConsumerAlive consumerCreated s.shuttingDown s.consumer
  shutDown : ShutDownAlive n s.shuttingDown s.numOfShutDownThreads s.shutDown
  queues : ∃ ms, QueuesHold s.nodes s.messageQueue ms

section Pcs

variable {created flag : Bool} {lock : Option (ThreadId n)}

theorem TopicAlive.wake {pc : TopicPc} (h : TopicAlive created flag lock pc) :
    TopicAlive created flag lock pc.wake := by
  cases pc with
  | waiting => exact ⟨by simp [TopicPc.wake], by simp [TopicPc.wake], h.owner⟩
  | _ => exact h

theorem TopicAlive.setFlag {pc : TopicPc} (h : TopicAlive created flag lock pc) :
    TopicAlive created true lock pc :=
  ⟨h.missing, fun _ => rfl, h.owner⟩

theorem TopicAlive.move {pc pc' : TopicPc} (h : TopicAlive created flag lock pc)
    {owner : Option (ThreadId n)} (hmove : TopicMove flag pc pc')
    (howner : owner ≠ none → pc'.holdsLock = true ∨ owner = lock ∧ pc.holdsLock = false) :
    TopicAlive created flag owner pc' where
  missing := by cases hmove <;> simp
  leaves := by
    cases hmove with
    | stop hflag => exact fun _ => hflag
    | _ => simp
  owner := by
    intro howned
    rcases howner howned with hinside | ⟨rfl, hout⟩
    · exact hinside
    · rw [h.owner howned] at hout
      contradiction

/-- A thread that has given its lock back and has not left its loop. -/
theorem TopicAlive.calling : TopicAlive (n := n) created flag none .calling :=
  ⟨by simp, by simp, fun h => absurd rfl h⟩

theorem ConsumerAlive.wake {pc : ConsumerPc n} (h : ConsumerAlive created flag pc) :
    ConsumerAlive created flag pc.wake := by
  cases pc with
  | waiting => exact ⟨by simp [ConsumerPc.wake], by simp [ConsumerPc.wake]⟩
  | _ => exact h

theorem ConsumerAlive.setFlag {pc : ConsumerPc n} (h : ConsumerAlive created flag pc) :
    ConsumerAlive created true pc :=
  ⟨h.missing, fun _ => rfl⟩

theorem ConsumerAlive.move {pc pc' : ConsumerPc n} (hmove : ConsumerMove flag pc pc') :
    ConsumerAlive created flag pc' where
  missing := by cases hmove <;> simp
  leaves := by
    cases hmove with
    | stop hflag | toSendLast e hflag => exact fun _ => hflag
    | _ => simp

theorem ShutDownAlive.signal {count : Nat} {pc : ShutDownPc} (h : ShutDownAlive n flag count pc) :
    ShutDownAlive n flag (count + 1) pc.wake := by
  cases pc with
  | notCalled => exact ⟨h.called, by simp [ShutDownPc.wake]⟩
  | _ => exact ⟨by simp [ShutDownPc.wake], by simp [ShutDownPc.wake]⟩

end Pcs

section Steps

variable {created : Fin n → Bool} {consumerCreated : Bool} {s s' : Threads n}

theorem lifeInv_start (garbage : Nat → OutgoingBufferElement n) :
    LifeInv created consumerCreated (Threads.start garbage created consumerCreated) where
  topic := by
    intro i
    cases hcreated : created i <;> constructor <;> simp [Threads.start, hcreated]
  consumer := by
    cases consumerCreated <;> constructor <;> simp [Threads.start]
  shutDown := ⟨by simp [Threads.start], by simp [Threads.start]⟩
  queues := ⟨_, initializeMessageQueue_holds⟩

/-- What the threads outside of {lit}`dequeue` leave alone. -/
structure LifeFrame (s s' : Threads n) : Prop where
  flag : s'.shuttingDown = s.shuttingDown
  topic : ∀ i, s'.topic i = s.topic i ∨ s'.topic i = (s.topic i).wake
  queueLock : s'.queueLock = s.queueLock
  consumer : s'.consumer = s.consumer ∨ s'.consumer = s.consumer.wake
  shutDown : s'.shutDown = s.shutDown
  count : s'.numOfShutDownThreads = s.numOfShutDownThreads
  nodes : s'.nodes = s.nodes
  messageQueue : s'.messageQueue = s.messageQueue

theorem LifeInv.of_frame (hs : LifeInv created consumerCreated s) (h : LifeFrame s s') :
    LifeInv created consumerCreated s' where
  topic := by
    intro i
    rw [h.flag, h.queueLock]
    rcases h.topic i with hsame | hwake
    · exact hsame ▸ hs.topic i
    · exact hwake ▸ (hs.topic i).wake
  consumer := by
    rw [h.flag]
    rcases h.consumer with hsame | hwake
    · exact hsame ▸ hs.consumer
    · exact hwake ▸ hs.consumer.wake
  shutDown := by
    rw [h.flag, h.count, h.shutDown]
    exact hs.shutDown
  queues := by
    rw [h.nodes, h.messageQueue]
    exact hs.queues

theorem produceNewMessage_lifeFrame {w : ThreadId n} {pc : ProducePc n}
    (hstep : produceNewMessage s w pc = some s') : LifeFrame s s' := by
  cases produceNewMessage_moves hstep with
  | move | giveUp => exact ⟨rfl, fun _ => .inl rfl, rfl, .inl rfl, rfl, rfl, rfl, rfl⟩
  | put => exact ⟨rfl, fun _ => .inl rfl, rfl, .inr rfl, rfl, rfl, rfl, rfl⟩

/-- Waking the thread of a topic. -/
theorem wakeQueueCv_lifeFrame (s : Threads n) (i : Fin n) : LifeFrame s (s.wakeQueueCv i) where
  flag := rfl
  topic := by
    intro j
    by_cases hj : j = i
    · subst hj
      exact .inr (Function.update_self ..)
    · exact .inl (Function.update_of_ne hj ..)
  queueLock := rfl
  consumer := .inl rfl
  shutDown := rfl
  count := rfl
  nodes := rfl
  messageQueue := rfl

/-- The thread of topic {lit}`i` has moved to a position that suits it. -/
theorem LifeInv.setTopic (hs : LifeInv created consumerCreated s) {i : Fin n} {pc : TopicPc}
    (hpc : TopicAlive (created i) s.shuttingDown (s.queueLock i) pc) :
    LifeInv created consumerCreated (s.setTopic i pc) where
  topic := by
    intro j
    by_cases hj : j = i
    · subst hj
      simpa [Threads.setTopic] using hpc
    · simpa [Threads.setTopic, Function.update_of_ne hj] using hs.topic j
  consumer := hs.consumer
  shutDown := hs.shutDown
  queues := hs.queues

/-- Positions inside {lit}`produce_new_message` do not matter. -/
theorem LifeInv.setProducing (hs : LifeInv created consumerCreated s) (w : ThreadId n)
    (pc : Option (ProducePc n)) : LifeInv created consumerCreated (s.setProducing w pc) :=
  hs.of_frame ⟨rfl, fun _ => .inl rfl, rfl, .inl rfl, rfl, rfl, rfl, rfl⟩

/-- The thread of topic {lit}`i` has moved, with the lock of its queue. -/
theorem LifeInv.setQueueLock (hs : LifeInv created consumerCreated s) {i : Fin n} {pc : TopicPc}
    {owner : Option (ThreadId n)} (hpc : TopicAlive (created i) s.shuttingDown owner pc) :
    LifeInv created consumerCreated ((s.setQueueLock i owner).setTopic i pc) where
  topic := by
    intro j
    by_cases hj : j = i
    · subst hj
      simpa [Threads.setTopic, Threads.setQueueLock] using hpc
    · simpa [Threads.setTopic, Threads.setQueueLock, Function.update_of_ne hj] using hs.topic j
  consumer := hs.consumer
  shutDown := hs.shutDown
  queues := hs.queues

/-- Signalling leaves everybody where they are but {lit}`shut_down_threads`. -/
theorem LifeInv.signalShutDown (hs : LifeInv created consumerCreated s) :
    LifeInv created consumerCreated s.signalShutDown :=
  ⟨hs.topic, hs.consumer, hs.shutDown.signal, hs.queues⟩

/-- A thread that is inside {lit}`dequeue` finds the queues well formed, and leaves them so. -/
theorem dequeueUnsafe_queues (hs : ∃ ms, QueuesHold s.nodes s.messageQueue ms) (i : Fin n) :
    ∃ nodes q message, dequeueUnsafe s.nodes (s.messageQueue i) = some (nodes, q, message) ∧
      ∃ ms, QueuesHold nodes (Function.update s.messageQueue i q) ms := by
  rcases hs with ⟨ms, hq⟩
  cases hms : ms i with
  | nil =>
      rcases hq.exists_cells with ⟨cs, hcells, rfl⟩
      have hdequeue := dequeueUnsafe_nil hcells (List.map_eq_nil_iff.mp hms)
      refine ⟨_, _, _, hdequeue, fun j => Heap.vals (cs j), ?_⟩
      rwa [Function.update_eq_self]
  | cons message rest =>
      rcases dequeueUnsafe_holds hq hms with ⟨nodes, q, hdequeue, hq'⟩
      exact ⟨nodes, q, some message, hdequeue, _, hq'⟩

theorem produce_lifeInv (hs : LifeInv created consumerCreated s) {i : Fin n}
    (hstep : produce s i = some s') : LifeInv created consumerCreated s' := by
  cases produce_moves hstep with
  | move owner hmove howner => exact hs.setQueueLock ((hs.topic i).move hmove howner)
  | callNull => exact (hs.setQueueLock TopicAlive.calling).setProducing _ _
  | @take nodes q message hpc hdequeue =>
      rcases dequeueUnsafe_queues hs.queues i with ⟨nodes', q', message', hdequeue', hq⟩
      rw [hdequeue, Option.some.injEq, Prod.mk.injEq, Prod.mk.injEq] at hdequeue'
      rcases hdequeue' with ⟨rfl, rfl, rfl⟩
      have htaken : LifeInv created consumerCreated { s with
          nodes := nodes
          messageQueue := Function.update s.messageQueue i q } :=
        ⟨hs.topic, hs.consumer, hs.shutDown, hq⟩
      exact (htaken.setQueueLock TopicAlive.calling).setProducing _ _
  | call hpc hprod hcall => exact hs.of_frame (produceNewMessage_lifeFrame hcall)
  | signal hpc =>
      have halive := hs.topic i
      have hflag := halive.leaves (.inl hpc)
      refine hs.signalShutDown.setTopic ⟨by simp, fun _ => hflag, fun howned => ?_⟩
      rw [hpc] at halive
      exact absurd (halive.owner howned) (by simp [TopicPc.holdsLock])

theorem consume_lifeInv (hs : LifeInv created consumerCreated s) {wake : Option (ThreadId n)}
    (hstep : consume s wake = some s') : LifeInv created consumerCreated s' := by
  have hsilent : ∀ pc : ConsumerPc n, ConsumerAlive consumerCreated s.shuttingDown pc →
      LifeInv created consumerCreated { s with consumer := pc } :=
    fun pc hpc => ⟨hs.topic, hpc, hs.shutDown, hs.queues⟩
  cases consume_moves hstep with
  | move owner hmove =>
      exact (hsilent _ (.move hmove)).of_frame
        ⟨rfl, fun _ => .inl rfl, rfl, .inl rfl, rfl, rfl, rfl, rfl⟩
  | get hpc =>
      exact (hsilent (.test _) ⟨by simp, by simp⟩).of_frame
        ⟨rfl, fun _ => .inl rfl, rfl, .inl rfl, rfl, rfl, rfl, rfl⟩
  | @leave e s₁ hpc hwake =>
      have hsends := hsilent (.send e) ⟨by simp, by simp⟩
      rcases wakeEmptyCv_cases hwake with rfl | ⟨w, rfl⟩
      all_goals
        exact hsends.of_frame ⟨rfl, fun _ => .inl rfl, rfl, .inl rfl, rfl, rfl, rfl, rfl⟩
  | sent hpc =>
      exact (hsilent .top ⟨by simp, by simp⟩).of_frame
        ⟨rfl, fun _ => .inl rfl, rfl, .inl rfl, rfl, rfl, rfl, rfl⟩
  | @sentLast e hpc =>
      have hflag := hs.consumer.leaves (.inr (.inr ⟨e, hpc⟩))
      exact (hsilent .signal ⟨by simp, fun _ => hflag⟩).of_frame
        ⟨rfl, fun _ => .inl rfl, rfl, .inl rfl, rfl, rfl, rfl, rfl⟩
  | signal hpc =>
      have hflag := hs.consumer.leaves (.inl hpc)
      exact ⟨hs.topic, ⟨by simp, fun _ => hflag⟩, hs.shutDown.signal, hs.queues⟩

theorem shutDownThreads_lifeInv (hs : LifeInv created consumerCreated s)
    (hstep : shutDownThreads s = some s') : LifeInv created consumerCreated s' := by
  have hsilent : ∀ {t : Threads n}, LifeInv created consumerCreated t → ∀ pc : ShutDownPc,
      pc ≠ .notCalled → (pc = .waiting → t.numOfShutDownThreads < n + 1) →
      LifeInv created consumerCreated { t with shutDown := pc } :=
    fun ht pc hcalled hwaits => ⟨ht.topic, ht.consumer, ⟨fun _ => hcalled, hwaits⟩, ht.queues⟩
  cases shutDownThreads_cases hstep with
  | request hpc =>
      exact ⟨fun i => (hs.topic i).setFlag, hs.consumer.setFlag, ⟨by simp, by simp⟩, hs.queues⟩
  | wakeQueue hi hpc hfree =>
      exact hsilent (hs.of_frame (wakeQueueCv_lifeFrame s _)) _ (by simp) (by simp)
  | queuesWoken hi hpc => exact hsilent hs _ (by simp) (by simp)
  | wakeBuffer hpc hfree =>
      have hwoken : LifeInv created consumerCreated s.wakeAllEmptyCv.wakeFillCv :=
        hs.of_frame ⟨rfl, fun _ => .inl rfl, rfl, .inr rfl, rfl, rfl, rfl, rfl⟩
      exact hsilent hwoken _ (by simp) (by simp)
  | wait hpc hgoal => exact hsilent hs _ (by simp) fun _ => hgoal
  | finish hpc hgoal => exact hsilent hs _ (by simp) (by simp)

/-- Every step keeps the invariant. -/
theorem threadStep_lifeInv (hs : LifeInv created consumerCreated s) {a : Action n}
    (hstep : threadStep s a = some s') : LifeInv created consumerCreated s' := by
  cases threadStep_cases hstep with
  | @publish t message node s' hstep =>
      rcases enqueue_cases hstep with ⟨-, -, hfresh, nodes, q, henqueue, rfl⟩
      rcases hs.queues with ⟨ms, hq⟩
      rcases enqueueUnsafe_holds hq t message hfresh with ⟨nodes', q', henqueue', hq'⟩
      rw [henqueue, Option.some.injEq, Prod.mk.injEq] at henqueue'
      rcases henqueue' with ⟨rfl, rfl⟩
      refine LifeInv.of_frame ?_ (wakeQueueCv_lifeFrame _ t)
      exact ⟨hs.topic, hs.consumer, hs.shutDown, _, hq'⟩
  | respond hidle => exact hs.setProducing _ _
  | main hprod hstep => exact hs.of_frame (produceNewMessage_lifeFrame hstep)
  | topic hstep => exact produce_lifeInv hs hstep
  | consumer hstep => exact consume_lifeInv hs hstep
  | shutDown hstep => exact shutDownThreads_lifeInv hs hstep
  | spurious w =>
      cases w with
      | main => exact hs.setProducing _ _
      | topic i => exact (hs.setProducing _ _).of_frame (wakeQueueCv_lifeFrame _ i)
      | consumer => exact hs.of_frame ⟨rfl, fun _ => .inl rfl, rfl, .inr rfl, rfl, rfl, rfl, rfl⟩

theorem lifeInv_reachable (hreach : (threadSystem created consumerCreated).Reachable s) :
    LifeInv created consumerCreated s := by
  refine System.Reachable.invariant (LifeInv created consumerCreated) ?_ ?_ hreach
  · rintro s ⟨garbage, rfl⟩
    exact lifeInv_start garbage
  · exact fun s a s' hs hstep => threadStep_lifeInv hs hstep

end Steps

/-! ## Who owns the lock of the outgoing buffer -/

/-- Whoever owns the lock of the outgoing buffer is inside its critical section. -/
def BufferOwned (b : BufferLoops n) : Prop :=
  ∀ w, b.bufferLock = some w →
    w = .consumer ∧ b.consumer.holdsLock = true ∨
      ∃ pc, b.producing w = some pc ∧ pc.holdsLock = true

section Owner

variable {b b' : BufferLoops n}

theorem BufferOwned.of_free (hfree : b.bufferLock = none) : BufferOwned b := by
  intro w hw
  rw [hfree] at hw
  contradiction

/-- A producer moves to a position inside the critical section, or it was outside. -/
theorem BufferOwned.setProducing (hb : BufferOwned b) {w : ThreadId n}
    {pc' : Option (ProducePc n)}
    (hpc : (∃ pc, pc' = some pc ∧ pc.holdsLock = true) ∨ b.bufferLock ≠ some w) :
    BufferOwned (b.setProducing w pc') := by
  intro v hv
  rcases hb v hv with hconsumer | ⟨pc, hprod, hinside⟩
  · exact .inl hconsumer
  · right
    by_cases hvw : v = w
    · subst hvw
      rcases hpc with ⟨pc₁, rfl, hinside₁⟩ | hne
      · exact ⟨pc₁, Function.update_self .., hinside₁⟩
      · exact absurd hv hne
    · exact ⟨pc, (Function.update_of_ne hvw ..).trans hprod, hinside⟩

/-- The consumer moves to a position inside the critical section, or it was outside. -/
theorem BufferOwned.setConsumer (hb : BufferOwned b) {pc : ConsumerPc n} {count : Int}
    (hpc : pc.holdsLock = true ∨ b.consumer.holdsLock = false) :
    BufferOwned { b with count := count, consumer := pc } := by
  intro w hw
  rcases hb w hw with ⟨rfl, hinside⟩ | hproducer
  · rcases hpc with hinside' | hout
    · exact .inl ⟨rfl, hinside'⟩
    · rw [hout] at hinside
      contradiction
  · exact .inr hproducer

theorem ProducePc.holdsLock_wake (pc : ProducePc n) : pc.wake.holdsLock = pc.holdsLock := by
  cases pc <;> rfl

/-- Every step keeps the owner inside. -/
theorem BufferOwned.step (hb : BufferOwned b) (hstep : BufferStep b b') : BufferOwned b' := by
  cases hstep with
  | stay | requestShutDown => exact hb
  | @call w e hw hidle hnull =>
      refine hb.setProducing (.inr fun hlock => ?_)
      rcases hb w hlock with ⟨rfl, -⟩ | ⟨pc, hprod, -⟩
      · exact hw rfl
      · rw [hidle] at hprod
        contradiction
  | @enter w e hpc hfree =>
      intro v hv
      rw [BufferLoops.setProducing, Option.some.injEq] at hv
      subst hv
      exact .inr ⟨.loop e, Function.update_self .., rfl⟩
  | @toSleep w e hpc hfull hflag => exact hb.setProducing (.inl ⟨_, rfl, rfl⟩)
  | @toTest w e hpc => exact hb.setProducing (.inl ⟨_, rfl, rfl⟩)
  | @toPut w e hpc hflag => exact hb.setProducing (.inl ⟨_, rfl, rfl⟩)
  | wait | giveUp | put | consumerWait | leave | leaveNobody | sendLast => exact .of_free rfl
  | consumerOutside hold hnew => exact hb.setConsumer (.inr hold)
  | consumerEnter hfree =>
      intro v hv
      rw [Option.some.injEq] at hv
      exact .inl ⟨hv.symm, rfl⟩
  | consumerToSleep | consumerToGet | get | toLeave | toSendLast =>
      exact hb.setConsumer (.inl rfl)
  | wakeProducer w =>
      intro v hv
      rcases hb v hv with hconsumer | ⟨pc, hprod, hinside⟩
      · exact .inl hconsumer
      · right
        by_cases hvw : v = w
        · subst hvw
          refine ⟨pc.wake, ?_, by rw [pc.holdsLock_wake, hinside]⟩
          simp [BufferLoops.setProducing, hprod]
        · exact ⟨pc, (Function.update_of_ne hvw ..).trans hprod, hinside⟩
  | wakeConsumer =>
      refine hb.setConsumer ?_
      rw [ConsumerPc.holdsLock_wake]
      cases b.consumer.holdsLock <;> simp
  | shutDownWake hfree hflag => exact .of_free hfree

end Owner

theorem bufferOwned_reachable {created : Fin n → Bool} {consumerCreated : Bool} {s : Threads n}
    (hreach : (threadSystem created consumerCreated).Reachable s) :
    BufferOwned s.bufferLoops := by
  have hboth : (threadSystem created consumerCreated).Reachable s ∧
      BufferOwned s.bufferLoops := by
    refine System.Reachable.invariant (fun s =>
      (threadSystem created consumerCreated).Reachable s ∧ BufferOwned s.bufferLoops) ?_ ?_ hreach
    · rintro s ⟨garbage, rfl⟩
      exact ⟨System.Reachable.start ⟨garbage, rfl⟩, .of_free rfl⟩
    · rintro s a s' ⟨hreach, howned⟩ hstep
      have hside := threadStep_bufferStep (callsInv_reachable hreach)
        (queueWaits_reachable hreach) hstep
      exact ⟨System.Reachable.step hreach hstep, howned.step hside⟩
  exact hboth.2

/-! ## Who can move -/

/-- The moves of the threads themselves: nobody publishes, responds or shuts down, and nobody
wakes up without having been woken. -/
def Action.IsOwn : Action n → Prop
  | .main | .topic _ | .consumer _ => True
  | .publish _ _ _ | .respond _ _ | .shutDown | .spurious _ => False

variable {s : Threads n}

/-- A call of {lit}`produce_new_message` goes on, unless it waits or needs the lock. -/
theorem produceNewMessage_goesOn {w : ThreadId n} {pc : ProducePc n}
    (hnone : produceNewMessage s w pc = none) :
    (∃ e, pc = .waiting e) ∨ pc.holdsLock = false ∧ s.bufferLock ≠ none := by
  cases pc with
  | waiting e => exact .inl ⟨e, rfl⟩
  | enter | woken =>
      right
      refine ⟨rfl, fun hfree => ?_⟩
      simp [produceNewMessage, hfree] at hnone
  | sleep | put => contradiction
  | loop | test =>
      simp only [produceNewMessage] at hnone
      split at hnone <;> contradiction

/-- Some producer waits on {lit}`empty_cv`, and is woken, or none does. -/
theorem exists_wakeEmptyCv (s : Threads n) : ∃ wake s', s.wakeEmptyCv wake = some s' := by
  by_cases hsome : ∃ w, s.waitsForSpace w = true
  · rcases hsome with ⟨w, hw⟩
    exact ⟨some w, s.wakeProducer w, if_pos hw⟩
  · rw [not_exists] at hsome
    refine ⟨none, s, if_neg ?_⟩
    simp [hsome]

/-- The consumer goes on, unless it waits, is no longer there or needs the lock. -/
theorem consume_goesOn (hnone : ∀ wake, consume s wake = none) :
    s.consumer = .notCreated ∨ s.consumer = .waiting ∨ s.consumer = .returned ∨
      s.consumer.holdsLock = false ∧ s.bufferLock ≠ none := by
  have hnext := hnone none
  cases hpc : s.consumer with
  | notCreated | waiting | returned => simp
  | enter | woken =>
      simp only [consume, hpc] at hnext
      split at hnext
      · contradiction
      · next hlock => simp [ConsumerPc.holdsLock, hlock]
  | top | loop | test =>
      simp only [consume, hpc] at hnext
      split at hnext <;> contradiction
  | leave e =>
      rcases exists_wakeEmptyCv s with ⟨wake, s', hwake⟩
      have hleave := hnone wake
      simp [consume, hpc, hwake] at hleave
  | sleep | get | send | sendLast | signal => simp [consume, hpc] at hnext

/-- A topic thread goes on, unless it waits, is no longer there, needs the lock of its queue or
cannot go on inside {lit}`produce_new_message`. -/
theorem produce_goesOn (hqueues : ∃ ms, QueuesHold s.nodes s.messageQueue ms) {i : Fin n}
    (hnone : produce s i = none) :
    s.topic i = .notCreated ∨ s.topic i = .waiting ∨ s.topic i = .returned ∨
      (s.topic i).holdsLock = false ∧ s.queueLock i ≠ none ∨
      s.topic i = .calling ∧ ∃ pc, s.producing (.topic i) = some pc ∧
        produceNewMessage s (.topic i) pc = none := by
  cases hpc : s.topic i with
  | notCreated | waiting | returned => simp
  | enterQueue | woken =>
      simp only [produce, hpc] at hnone
      split at hnone
      · contradiction
      · next hlock => simp [TopicPc.holdsLock, hlock]
  | top | loop | test =>
      simp only [produce, hpc] at hnone
      split at hnone <;> contradiction
  | take =>
      rcases dequeueUnsafe_queues hqueues i with ⟨nodes, q, message, hdequeue, -⟩
      simp [produce, hpc, hdequeue] at hnone
  | calling =>
      simp only [produce, hpc] at hnone
      split at hnone
      · next pc hprod => exact .inr (.inr (.inr (.inr ⟨rfl, pc, hprod, hnone⟩)))
      · contradiction
  | sleep | signal => simp [produce, hpc] at hnone

/-- Nobody is inside a critical section, and whoever is still there waits. -/
structure AtRest (s : Threads n) : Prop where
  bufferLock : s.bufferLock = none
  queueLock : ∀ i, s.queueLock i = none
  producer : ∀ w pc, s.producing w = some pc → ∃ e, pc = .waiting e
  topic : ∀ i, s.topic i = .notCreated ∨ s.topic i = .waiting ∨ s.topic i = .returned ∨
    s.topic i = .calling ∧ s.producing (.topic i) ≠ none
  consumer : s.consumer = .notCreated ∨ s.consumer = .waiting ∨ s.consumer = .returned

theorem atRest_of_stuck {created : Fin n → Bool} {consumerCreated : Bool}
    (hreach : (threadSystem created consumerCreated).Reachable s)
    (hstuck : (threadSystem created consumerCreated).Stuck Action.IsOwn s) : AtRest s := by
  have hlife := lifeInv_reachable hreach
  have hcalls := callsInv_reachable hreach
  have hconsume : ∀ wake, consume s wake = none := fun wake => hstuck (.consumer wake) trivial
  have hproduce : ∀ i, produce s i = none := fun i => hstuck (.topic i) trivial
  have hmain : threadStep s .main = none := hstuck .main trivial
  -- whoever is inside produce_new_message cannot go on there
  have hproducing : ∀ w pc, s.producing w = some pc → produceNewMessage s w pc = none := by
    intro w pc hprod
    cases w with
    | main => simpa [threadStep, hprod] using hmain
    | topic i =>
        have hcalling : s.topic i = .calling := by
          by_contra hne
          rw [hcalls.calling i hne] at hprod
          contradiction
        simpa [produce, hcalling, hprod] using hproduce i
    | consumer =>
        rw [hcalls.consumer] at hprod
        contradiction
  have hfree : s.bufferLock = none := by
    by_contra hlock
    rcases Option.ne_none_iff_exists'.mp hlock with ⟨w, hw⟩
    rcases bufferOwned_reachable hreach w hw with ⟨-, hinside⟩ | ⟨pc, hprod, hinside⟩
    · rw [bufferLoops] at hinside
      rcases consume_goesOn hconsume with h | h | h | ⟨hout, -⟩
      · simp [h, ConsumerPc.holdsLock] at hinside
      · simp [h, ConsumerPc.holdsLock] at hinside
      · simp [h, ConsumerPc.holdsLock] at hinside
      · rw [hout] at hinside
        contradiction
    · rcases produceNewMessage_goesOn (hproducing w pc hprod) with ⟨e, rfl⟩ | ⟨hout, -⟩
      · contradiction
      · rw [hout] at hinside
        contradiction
  have hwaits : ∀ w pc, s.producing w = some pc → ∃ e, pc = .waiting e := by
    intro w pc hprod
    rcases produceNewMessage_goesOn (hproducing w pc hprod) with hwaits | ⟨-, hlock⟩
    · exact hwaits
    · exact absurd hfree hlock
  have hqueue : ∀ i, s.queueLock i = none := by
    intro i
    by_contra hlock
    have hinside := (hlife.topic i).owner hlock
    rcases produce_goesOn hlife.queues (hproduce i) with h | h | h | ⟨hout, -⟩ | ⟨h, -⟩
    · simp [h, TopicPc.holdsLock] at hinside
    · simp [h, TopicPc.holdsLock] at hinside
    · simp [h, TopicPc.holdsLock] at hinside
    · rw [hout] at hinside
      contradiction
    · simp [h, TopicPc.holdsLock] at hinside
  refine ⟨hfree, hqueue, hwaits, fun i => ?_, ?_⟩
  · rcases produce_goesOn hlife.queues (hproduce i) with h | h | h | ⟨-, hlock⟩ | ⟨h, pc, hprod, -⟩
    · exact .inl h
    · exact .inr (.inl h)
    · exact .inr (.inr (.inl h))
    · exact absurd (hqueue i) hlock
    · exact .inr (.inr (.inr ⟨h, by simp [hprod]⟩))
  · rcases consume_goesOn hconsume with h | h | h | ⟨-, hlock⟩
    · exact .inl h
    · exact .inr (.inl h)
    · exact .inr (.inr h)
    · exact absurd hfree hlock

end Broker
end PubSub
