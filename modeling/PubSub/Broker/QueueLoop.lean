import PubSub.Broker.Threads

/-!
# The wait loop of {lit}`dequeue` under all interleavings

The thread of a topic waits on the condition variable of its message queue for a message
or for a shutdown.  This module singles out the part of the state that its wait loop looks
at, says once what a step of the whole system can do to this part, and derives from that
an invariant that holds in every run, with or without a shutdown.

Main results:

- Theorem {lit}`threadStep_queueStep`: what a step can do to the wait loop of a topic.
- Theorem {lit}`callsInv_reachable`: who is inside a call of {lit}`produce_new_message` or of
  {lit}`shut_down_threads`.
- Theorem {lit}`queueWaits_reachable`: the thread of a topic waits on an empty queue only, and
  not after {lit}`shut_down_threads` has woken it.
-/

namespace PubSub
namespace Broker

open Foundations Threads

variable {n : Nat}

/-- Has {lit}`shut_down_threads` woken the thread of topic {lit}`i`? -/
def ShutDownPc.hasWokenQueue (i : Fin n) : ShutDownPc → Bool
  | .notCalled => false
  | .wakeQueue j => i < j
  | .wakeBuffer | .loop | .waiting | .woken | .returned => true

@[simp]
theorem ShutDownPc.hasWokenQueue_wake (i : Fin n) (pc : ShutDownPc) :
    pc.wake.hasWokenQueue i = pc.hasWokenQueue i := by
  cases pc <;> rfl

/-! ## The wait loop of a message queue -/

/-- Is a thread at this position inside the critical section of its message queue? -/
def TopicPc.holdsLock : TopicPc → Bool
  | .loop | .sleep | .test | .take => true
  | .notCreated | .top | .enterQueue | .waiting | .woken | .calling | .signal | .returned => false

/-- What the wait loop of a message queue looks at. -/
structure QueueSide (n : Nat) where
  head : Option Addr
  queueLock : Option (ThreadId n)
  shuttingDown : Bool
  /-- {lit}`shut_down_threads` has woken the thread of the topic -/
  hasWoken : Bool
  topic : TopicPc

/-- The part of the state that the wait loop of topic {lit}`i` looks at. -/
def Threads.queueSide (s : Threads n) (i : Fin n) : QueueSide n :=
  ⟨(s.messageQueue i).head, s.queueLock i, s.shuttingDown, s.shutDown.hasWokenQueue i, s.topic i⟩

/-- What a step can do to the wait loop of topic {lit}`i`. -/
inductive QueueStep (i : Fin n) (q : QueueSide n) : QueueSide n → Prop
  | stay : QueueStep i q q
  | requestShutDown : QueueStep i q { q with shuttingDown := true }
  /-- the thread moves outside the critical section -/
  | outside {pc : TopicPc} (hnew : pc.holdsLock = false ∧ pc ≠ .waiting) :
      QueueStep i q { q with topic := pc }
  | enter (hfree : q.queueLock = none) :
      QueueStep i q { q with queueLock := some (.topic i), topic := .loop }
  | toSleep (hpc : q.topic = .loop) (hempty : q.head = none) (hflag : q.shuttingDown = false) :
      QueueStep i q { q with topic := .sleep }
  | wait (hpc : q.topic = .sleep) :
      QueueStep i q { q with queueLock := none, topic := .waiting }
  | toTest (hpc : q.topic = .loop) (hcond : q.head ≠ none ∨ q.shuttingDown = true) :
      QueueStep i q { q with topic := .test }
  | toTake (hpc : q.topic = .test) (hflag : q.shuttingDown = false) :
      QueueStep i q { q with topic := .take }
  /-- the thread leaves {lit}`dequeue`, with a message or without -/
  | leave {head : Option Addr} :
      QueueStep i q { q with head := head, queueLock := none, topic := .calling }
  | enqueue {head : Addr} (hfree : q.queueLock = none) :
      QueueStep i q { q with head := some head, topic := q.topic.wake }
  | wakeSpuriously : QueueStep i q { q with topic := q.topic.wake }
  | shutDownWake (hfree : q.queueLock = none) (hflag : q.shuttingDown = true) :
      QueueStep i q { q with hasWoken := true, topic := q.topic.wake }

/-- The invariant of a message queue's wait loop: mutual exclusion, what the positions in
the critical section say about the queue, and that nobody waits behind a wake-up of
{lit}`shut_down_threads`. -/
structure QueueWaits (i : Fin n) (q : QueueSide n) : Prop where
  inside : q.topic.holdsLock = true → q.queueLock = some (.topic i)
  empty : q.topic = .sleep ∨ q.topic = .waiting → q.head = none
  test : q.topic = .test → q.head ≠ none ∨ q.shuttingDown = true
  take : q.topic = .take → q.head ≠ none
  flag : q.hasWoken = true → q.shuttingDown = true
  awake : q.hasWoken = true → q.topic ≠ .sleep ∧ q.topic ≠ .waiting

/-- A thread that is outside the critical section and does not wait is subject to nothing. -/
theorem QueueWaits.of_outside {i : Fin n} {q : QueueSide n}
    (hout : q.topic.holdsLock = false ∧ q.topic ≠ .waiting)
    (hflag : q.hasWoken = true → q.shuttingDown = true) : QueueWaits i q := by
  rcases hout with ⟨hout, hwait⟩
  refine ⟨?_, ?_, ?_, ?_, hflag, ?_⟩
  · intro h
    rw [hout] at h
    contradiction
  · rintro (h | h)
    · simp [h, TopicPc.holdsLock] at hout
    · exact absurd h hwait
  · intro h
    simp [h, TopicPc.holdsLock] at hout
  · intro h
    simp [h, TopicPc.holdsLock] at hout
  · intro _
    refine ⟨fun h => ?_, hwait⟩
    simp [h, TopicPc.holdsLock] at hout

/-- While the lock is free, a wake-up leaves the thread outside and not waiting. -/
theorem QueueWaits.wake_outside {i : Fin n} {q : QueueSide n} (hq : QueueWaits i q)
    (hfree : q.queueLock = none) :
    q.topic.wake.holdsLock = false ∧ q.topic.wake ≠ .waiting := by
  cases hpc : q.topic with
  | loop | sleep | test | take =>
      have hlock := hq.inside (by rw [hpc]; rfl)
      rw [hfree] at hlock
      contradiction
  | notCreated | top | enterQueue | waiting | woken | calling | signal | returned =>
      simp [TopicPc.wake, TopicPc.holdsLock]

/-- Every step keeps the invariant. -/
theorem QueueWaits.step {i : Fin n} {q q' : QueueSide n} (hq : QueueWaits i q)
    (hstep : QueueStep i q q') : QueueWaits i q' := by
  cases hstep with
  | stay => exact hq
  | requestShutDown =>
      exact ⟨hq.inside, hq.empty, fun _ => Or.inr rfl, hq.take, fun _ => rfl, hq.awake⟩
  | outside hnew => exact QueueWaits.of_outside hnew hq.flag
  | enter hfree =>
      exact ⟨fun _ => rfl, by simp, by simp, by simp, hq.flag, by simp⟩
  | toSleep hpc hempty hflag =>
      have hlock := hq.inside (by rw [hpc]; rfl)
      refine ⟨fun _ => hlock, fun _ => hempty, by simp, by simp, hq.flag, ?_⟩
      intro hwoken
      rw [hq.flag hwoken] at hflag
      contradiction
  | wait hpc =>
      have hempty := hq.empty (Or.inl hpc)
      refine ⟨by simp [TopicPc.holdsLock], fun _ => hempty, by simp, by simp, hq.flag, ?_⟩
      intro hwoken
      exact absurd hpc (hq.awake hwoken).1
  | toTest hpc hcond =>
      have hlock := hq.inside (by rw [hpc]; rfl)
      exact ⟨fun _ => hlock, by simp, fun _ => hcond, by simp, hq.flag, by simp⟩
  | toTake hpc hflag =>
      have hlock := hq.inside (by rw [hpc]; rfl)
      have hhead := (hq.test hpc).resolve_right (by simp [hflag])
      exact ⟨fun _ => hlock, by simp, by simp, fun _ => hhead, hq.flag, by simp⟩
  | leave => exact QueueWaits.of_outside (by simp [TopicPc.holdsLock]) hq.flag
  | enqueue hfree => exact QueueWaits.of_outside (hq.wake_outside hfree) hq.flag
  | wakeSpuriously =>
      cases hpc : q.topic with
      | waiting => exact QueueWaits.of_outside (by simp [TopicPc.wake, TopicPc.holdsLock]) hq.flag
      | _ =>
          have hsame : q.topic.wake = q.topic := by simp [hpc, TopicPc.wake]
          rw [hpc] at hsame
          rw [hsame, ← hpc]
          exact hq
  | shutDownWake hfree hflag => exact QueueWaits.of_outside (hq.wake_outside hfree) fun _ => hflag

/-! ## What a step does to a message queue -/

theorem queueSide_setTopic (s : Threads n) (i : Fin n) (pc : TopicPc) :
    (s.setTopic i pc).queueSide i = { s.queueSide i with topic := pc } := by
  simp [queueSide, setTopic]

theorem queueSide_setQueueLock (s : Threads n) (i : Fin n) (owner : Option (ThreadId n)) :
    (s.setQueueLock i owner).queueSide i = { s.queueSide i with queueLock := owner } := by
  simp [queueSide, setQueueLock]

theorem queueSide_wakeQueueCv (s : Threads n) (i : Fin n) :
    (s.wakeQueueCv i).queueSide i = { s.queueSide i with topic := (s.queueSide i).topic.wake } :=
  queueSide_setTopic s i _

/-- What concerns the queue of another topic leaves a wait loop alone. -/
theorem queueSide_setTopic_of_ne {i j : Fin n} (hij : i ≠ j) (s : Threads n) (pc : TopicPc) :
    (s.setTopic j pc).queueSide i = s.queueSide i := by
  simp [queueSide, setTopic, Function.update_of_ne hij]

theorem queueSide_wakeQueueCv_of_ne {i j : Fin n} (hij : i ≠ j) (s : Threads n) :
    (s.wakeQueueCv j).queueSide i = s.queueSide i :=
  queueSide_setTopic_of_ne hij s _

theorem queueSide_setQueueLock_of_ne {i j : Fin n} (hij : i ≠ j) (s : Threads n)
    (owner : Option (ThreadId n)) : (s.setQueueLock j owner).queueSide i = s.queueSide i := by
  simp [queueSide, setQueueLock, Function.update_of_ne hij]

theorem queueSide_signalShutDown (s : Threads n) (i : Fin n) :
    s.signalShutDown.queueSide i = s.queueSide i := by
  simp [queueSide, signalShutDown]

theorem produceNewMessage_queueSide {s s' : Threads n} {w : ThreadId n} {pc : ProducePc n}
    (hstep : produceNewMessage s w pc = some s') (i : Fin n) : s'.queueSide i = s.queueSide i := by
  cases produceNewMessage_cases hstep with
  | move owner helem => rfl
  | giveUp hflag => rfl
  | put e => rfl

/-- The thread of another topic. -/
theorem produce_queueSide_of_ne {s s' : Threads n} {i j : Fin n} (hij : i ≠ j)
    (hstep : produce s j = some s') : s'.queueSide i = s.queueSide i := by
  cases produce_cases hstep with
  | move owner hold hnew hidle hpass =>
      rw [queueSide_setTopic_of_ne hij, queueSide_setQueueLock_of_ne hij]
  | callNull hpc hflag =>
      have hlock := queueSide_setQueueLock_of_ne hij s none
      exact (queueSide_setTopic_of_ne hij (s.setQueueLock j none) .calling).trans hlock
  | take hpc hdequeue =>
      simp [queueSide, setTopic, setQueueLock, setProducing, Function.update_of_ne hij]
  | call hprod hcall => exact produceNewMessage_queueSide hcall i
  | signal hpc => rw [queueSide_setTopic_of_ne hij, queueSide_signalShutDown]

/-- The thread of the topic itself. -/
theorem produce_queueStep {s s' : Threads n} {i : Fin n} (hstep : produce s i = some s') :
    QueueStep i (s.queueSide i) (s'.queueSide i) := by
  have houtside : ∀ pc : TopicPc, pc.holdsLock = false ∧ pc ≠ .waiting →
      QueueStep i (s.queueSide i) ((s.setTopic i pc).queueSide i) := by
    intro pc hnew
    rw [queueSide_setTopic]
    exact QueueStep.outside hnew
  cases hpc : s.topic i with
  | notCreated | waiting | returned => simp [produce, hpc] at hstep
  | top =>
      simp only [produce, hpc] at hstep
      split at hstep
      all_goals
        rw [← Option.some.inj hstep]
        exact houtside _ (by simp [TopicPc.holdsLock])
  | enterQueue | woken =>
      simp only [produce, hpc] at hstep
      split at hstep
      · next hfree =>
          rw [← Option.some.inj hstep, queueSide_setTopic, queueSide_setQueueLock]
          exact QueueStep.enter hfree
      · contradiction
  | loop =>
      simp only [produce, hpc] at hstep
      split at hstep
      · next hcond =>
          rw [← Option.some.inj hstep, queueSide_setTopic]
          exact QueueStep.toSleep hpc hcond.1 hcond.2
      · next hcond =>
          rw [← Option.some.inj hstep, queueSide_setTopic]
          apply QueueStep.toTest hpc
          cases hflag : s.shuttingDown with
          | true => exact Or.inr hflag
          | false => exact Or.inl fun hnone => hcond ⟨hnone, hflag⟩
  | sleep =>
      simp only [produce, hpc] at hstep
      rw [← Option.some.inj hstep, queueSide_setTopic, queueSide_setQueueLock]
      exact QueueStep.wait hpc
  | test =>
      simp only [produce, hpc] at hstep
      split at hstep
      · rw [← Option.some.inj hstep]
        have hside : ((s.setQueueLock i none).setTopic i .calling).queueSide i =
            { s.queueSide i with queueLock := none, topic := .calling } := by
          rw [queueSide_setTopic, queueSide_setQueueLock]
        exact hside ▸ QueueStep.leave
      · next hflag =>
          rw [← Option.some.inj hstep, queueSide_setTopic]
          exact QueueStep.toTake hpc (by simpa [queueSide] using hflag)
  | take =>
      simp only [produce, hpc, Option.map_eq_some_iff] at hstep
      rcases hstep with ⟨⟨nodes, q, message⟩, -, rfl⟩
      have hside : (({ s with
            nodes := nodes
            messageQueue := Function.update s.messageQueue i q
          }.setQueueLock i none).setTopic i .calling).queueSide i =
          { s.queueSide i with head := q.head, queueLock := none, topic := .calling } := by
        rw [queueSide_setTopic, queueSide_setQueueLock]
        simp [queueSide]
      exact hside ▸ QueueStep.leave
  | calling =>
      simp only [produce, hpc] at hstep
      split at hstep
      · rw [produceNewMessage_queueSide hstep i]
        exact QueueStep.stay
      · rw [← Option.some.inj hstep]
        exact houtside _ (by simp [TopicPc.holdsLock])
  | signal =>
      simp only [produce, hpc] at hstep
      rw [← Option.some.inj hstep, queueSide_setTopic, queueSide_signalShutDown]
      exact QueueStep.outside (by simp [TopicPc.holdsLock])

/-- {lit}`enqueue`, for this topic or another one. -/
theorem enqueue_queueStep {s s' : Threads n} {t : Fin n} {message : Bytes} {node : Addr}
    (hstep : enqueue s t message node = some s') (i : Fin n) :
    QueueStep i (s.queueSide i) (s'.queueSide i) := by
  rcases enqueue_cases hstep with ⟨-, hfree, -, nodes, q, henqueue, rfl⟩
  by_cases hit : i = t
  · subst hit
    rcases enqueueUnsafe_head henqueue with ⟨head, hhead⟩
    rw [queueSide_wakeQueueCv]
    have hside : QueueStep i (s.queueSide i) { s.queueSide i with
        head := some head, topic := (s.queueSide i).topic.wake } := QueueStep.enqueue hfree
    simpa [queueSide, hhead] using hside
  · rw [queueSide_wakeQueueCv_of_ne hit]
    simp only [queueSide, Function.update_of_ne hit]
    exact QueueStep.stay

/-- Who is inside a call: {lit}`shut_down_threads` has been called only if the flag is set, and
a topic thread is inside {lit}`produce_new_message` only where {lit}`produce` calls it. -/
structure CallsInv (s : Threads n) : Prop where
  flag : s.shutDown ≠ .notCalled → s.shuttingDown = true
  calling : ∀ i, s.topic i ≠ .calling → s.producing (.topic i) = none
  consumer : s.producing .consumer = none

/-- {lit}`shut_down_threads` wakes the threads of the topics one after the other. -/
theorem shutDownThreads_queueStep {s s' : Threads n} (hcalls : CallsInv s)
    (hstep : shutDownThreads s = some s') (i : Fin n) :
    QueueStep i (s.queueSide i) (s'.queueSide i) := by
  cases shutDownThreads_cases hstep with
  | request hpc =>
      have hside := QueueStep.requestShutDown (i := i) (q := s.queueSide i)
      simpa [queueSide, hpc, ShutDownPc.hasWokenQueue] using hside
  | @wakeQueue j hj hpc hfree =>
      by_cases hij : i = ⟨j, hj⟩
      · subst hij
        have hflag := hcalls.flag (by simp [hpc])
        have hside := QueueStep.shutDownWake (i := ⟨j, hj⟩) (q := s.queueSide ⟨j, hj⟩)
          hfree hflag
        simpa [queueSide, wakeQueueCv, setTopic, ShutDownPc.hasWokenQueue] using hside
      · have hne : i.val ≠ j := fun heq => hij (Fin.ext heq)
        have hlt : (i.val < j + 1) = (i.val < j) := by
          rw [eq_iff_iff]
          omega
        have hsame : ({ s.wakeQueueCv ⟨j, hj⟩ with
            shutDown := .wakeQueue (j + 1) }).queueSide i = s.queueSide i := by
          simp [queueSide, wakeQueueCv, setTopic, Function.update_of_ne hij,
            ShutDownPc.hasWokenQueue, hpc, hlt]
        rw [hsame]
        exact QueueStep.stay
  | @queuesWoken j hj hpc =>
      have hlt : i.val < j := by omega
      have hsame : ({ s with shutDown := .wakeBuffer } : Threads n).queueSide i =
          s.queueSide i := by
        simp [queueSide, ShutDownPc.hasWokenQueue, hpc, hlt]
      rw [hsame]
      exact QueueStep.stay
  | wakeBuffer hpc hfree =>
      have hside := QueueStep.stay (i := i) (q := s.queueSide i)
      simpa [queueSide, hpc, ShutDownPc.hasWokenQueue, wakeAllEmptyCv, wakeFillCv] using hside
  | wait hpc | finish hpc =>
      have hside := QueueStep.stay (i := i) (q := s.queueSide i)
      rcases hpc with hpc | hpc
      all_goals simpa [queueSide, hpc, ShutDownPc.hasWokenQueue] using hside

/-- The consumer does not look at the message queues. -/
theorem consume_queueSide {s s' : Threads n} {wake : Option (ThreadId n)}
    (hstep : consume s wake = some s') (i : Fin n) : s'.queueSide i = s.queueSide i := by
  cases consume_cases hstep with
  | move owner hold hnew => rfl
  | get hpc => rfl
  | leave hpc hwake =>
      rcases wakeEmptyCv_cases hwake with rfl | ⟨w, rfl⟩ <;> rfl
  | sent owner hpc hnew => rfl
  | signal hpc => exact queueSide_signalShutDown s i

/-- What a step can do to the wait loop of topic {lit}`i`. -/
theorem threadStep_queueStep {s s' : Threads n} (hcalls : CallsInv s) {a : Action n}
    (hstep : threadStep s a = some s') (i : Fin n) :
    QueueStep i (s.queueSide i) (s'.queueSide i) := by
  cases threadStep_cases hstep with
  | publish hstep => exact enqueue_queueStep hstep i
  | respond hidle => exact QueueStep.stay
  | main hprod hstep =>
      rw [produceNewMessage_queueSide hstep i]
      exact QueueStep.stay
  | @topic j s' hstep =>
      by_cases hij : i = j
      · subst hij
        exact produce_queueStep hstep
      · rw [produce_queueSide_of_ne hij hstep]
        exact QueueStep.stay
  | consumer hstep =>
      rw [consume_queueSide hstep i]
      exact QueueStep.stay
  | shutDown hstep => exact shutDownThreads_queueStep hcalls hstep i
  | spurious w =>
      cases w with
      | main | consumer => exact QueueStep.stay
      | topic j =>
          by_cases hij : i = j
          · subst hij
            rw [wakeSpuriously, queueSide_wakeQueueCv]
            exact QueueStep.wakeSpuriously
          · rw [wakeSpuriously, queueSide_wakeQueueCv_of_ne hij]
            exact QueueStep.stay

/-! ## Who is inside a call -/

theorem callsInv_start (garbage : Nat → OutgoingBufferElement n) (created : Fin n → Bool)
    (consumerCreated : Bool) : CallsInv (Threads.start garbage created consumerCreated) where
  flag := by simp [Threads.start]
  calling := by simp [Threads.start]
  consumer := rfl

/-- A step in which no topic thread and not the consumer starts or ends a call of
{lit}`produce_new_message`, and which at most wakes {lit}`shut_down_threads`. -/
theorem CallsInv.of_frame {s s' : Threads n} (hs : CallsInv s)
    (hflag : s'.shuttingDown = s.shuttingDown)
    (hshutDown : s'.shutDown = s.shutDown ∨ s'.shutDown = s.shutDown.wake)
    (htopic : ∀ i, s.topic i = .calling → s'.topic i = .calling)
    (hproducing : ∀ w, w ≠ .main → s.producing w = none → s'.producing w = none) :
    CallsInv s' where
  flag := by
    intro hcalled
    rw [hflag]
    apply hs.flag
    intro hnot
    rcases hshutDown with hsame | hwake
    · exact hcalled (hsame.trans hnot)
    · rw [hnot] at hwake
      exact hcalled hwake
  calling := by
    intro i hi
    exact hproducing _ (by simp) (hs.calling i fun hcalling => hi (htopic i hcalling))
  consumer := hproducing _ (by simp) hs.consumer

/-- A wake-up starts no call. -/
theorem wakeProducer_none {s : Threads n} {w w' : ThreadId n} (hnone : s.producing w' = none) :
    (s.wakeProducer w).producing w' = none := by
  by_cases hne : w' = w
  · subst hne
    simp [wakeProducer, setProducing, hnone]
  · simp [wakeProducer, setProducing, Function.update_of_ne hne, hnone]

theorem wakeQueueCv_calling {s : Threads n} {i j : Fin n} (hcalling : s.topic j = .calling) :
    (s.wakeQueueCv i).topic j = .calling := by
  by_cases hji : j = i
  · subst hji
    simp [wakeQueueCv, setTopic, hcalling, TopicPc.wake]
  · simp [wakeQueueCv, setTopic, Function.update_of_ne hji, hcalling]

/-- {lit}`produce_new_message`, called by thread {lit}`w`, leaves the calls of other threads
alone. -/
theorem produceNewMessage_calls {s s' : Threads n} {w : ThreadId n} {pc : ProducePc n}
    (hstep : produceNewMessage s w pc = some s') :
    s'.shuttingDown = s.shuttingDown ∧ s'.shutDown = s.shutDown ∧ s'.topic = s.topic ∧
      ∀ w', w' ≠ w → s'.producing w' = s.producing w' := by
  cases produceNewMessage_cases hstep with
  | move owner helem => exact ⟨rfl, rfl, rfl, fun w' hne => Function.update_of_ne hne _ _⟩
  | giveUp hflag => exact ⟨rfl, rfl, rfl, fun w' hne => Function.update_of_ne hne _ _⟩
  | put e => exact ⟨rfl, rfl, rfl, fun w' hne => Function.update_of_ne hne _ _⟩

theorem produce_callsInv {s s' : Threads n} (hs : CallsInv s) {i : Fin n}
    (hstep : produce s i = some s') : CallsInv s' := by
  -- the calls of other topic threads stay as they are
  have hother : ∀ {t : Threads n}, (∀ j, j ≠ i → t.topic j = s.topic j) →
      (∀ j, j ≠ i → t.producing (.topic j) = s.producing (.topic j)) →
      (t.topic i ≠ .calling → t.producing (.topic i) = none) →
      ∀ j, t.topic j ≠ .calling → t.producing (.topic j) = none := by
    intro t htopic hproducing hself j hj
    by_cases hji : j = i
    · exact hji ▸ hself (hji ▸ hj)
    · rw [hproducing j hji]
      exact hs.calling j (htopic j hji ▸ hj)
  have htopics : ∀ (t : Threads n) (pc : TopicPc), ∀ j, j ≠ i →
      (t.setTopic i pc).topic j = t.topic j :=
    fun t pc j hji => Function.update_of_ne hji _ _
  have hcall : ∀ e, CallsInv ((s.setTopic i .calling).setProducing (.topic i) (some (.enter e))) :=
    fun e => ⟨hs.flag, hother (htopics s .calling)
      (fun j hji => Function.update_of_ne (by simpa using hji) _ _)
      (by simp [setTopic, setProducing]), hs.consumer⟩
  cases produce_cases hstep with
  | @move pc owner hold hnew hidle hpass =>
      refine ⟨hs.flag, hother (htopics (s.setQueueLock i owner) pc) (fun _ _ => rfl) ?_,
        hs.consumer⟩
      intro _
      by_cases hcalling : s.topic i = .calling
      · exact hidle hcalling
      · exact hs.calling i hcalling
  | callNull hpc hflag =>
      have hcalls := hcall ⟨none, .subscriberConnectionSockets i⟩
      exact ⟨hcalls.flag, hcalls.calling, hcalls.consumer⟩
  | @take nodes q message hpc hdequeue =>
      have hcalls := hcall ⟨message, .subscriberConnectionSockets i⟩
      exact ⟨hcalls.flag, hcalls.calling, hcalls.consumer⟩
  | call hprod hstep' =>
      rcases produceNewMessage_calls hstep' with ⟨hflag, hshutDown, htopic, hproducing⟩
      have hcalling : s.topic i = .calling := by
        by_contra hnot
        rw [hs.calling i hnot] at hprod
        contradiction
      refine ⟨?_, hother (fun j _ => congrFun htopic j) ?_ ?_, ?_⟩
      · rw [hflag, hshutDown]
        exact hs.flag
      · exact fun j hji => hproducing _ (by simpa using hji)
      · intro hnot
        exact absurd (congrFun htopic i ▸ hcalling) hnot
      · rw [hproducing _ (by simp)]
        exact hs.consumer
  | signal hpc =>
      have hnone := hs.calling i (by simp [hpc])
      refine ⟨?_, hother (htopics s.signalShutDown .returned) (fun _ _ => rfl) (fun _ => hnone),
        hs.consumer⟩
      have hframe : CallsInv s.signalShutDown :=
        hs.of_frame rfl (Or.inr rfl) (fun _ h => h) fun _ _ h => h
      exact hframe.flag

theorem consume_callsInv {s s' : Threads n} (hs : CallsInv s) {wake : Option (ThreadId n)}
    (hstep : consume s wake = some s') : CallsInv s' := by
  cases consume_cases hstep with
  | move owner hold hnew =>
      exact hs.of_frame rfl (Or.inl rfl) (fun _ h => h) fun _ _ h => h
  | get hpc => exact hs.of_frame rfl (Or.inl rfl) (fun _ h => h) fun _ _ h => h
  | leave hpc hwake =>
      rcases wakeEmptyCv_cases hwake with rfl | ⟨w, rfl⟩
      · exact hs.of_frame rfl (Or.inl rfl) (fun _ h => h) fun _ _ h => h
      · exact hs.of_frame rfl (Or.inl rfl) (fun _ h => h) fun _ _ h => wakeProducer_none h
  | sent owner hpc hnew =>
      exact hs.of_frame rfl (Or.inl rfl) (fun _ h => h) fun _ _ h => h
  | signal hpc => exact hs.of_frame rfl (Or.inr rfl) (fun _ h => h) fun _ _ h => h

theorem shutDownThreads_callsInv {s s' : Threads n} (hs : CallsInv s)
    (hstep : shutDownThreads s = some s') : CallsInv s' := by
  cases shutDownThreads_cases hstep with
  | request hpc => exact ⟨fun _ => rfl, hs.calling, hs.consumer⟩
  | wakeQueue hj hpc hfree =>
      have hflag := hs.flag (by simp [hpc])
      refine ⟨fun _ => hflag, fun i hi => hs.calling i fun hcalling => hi ?_, hs.consumer⟩
      exact wakeQueueCv_calling hcalling
  | queuesWoken hj hpc => exact ⟨fun _ => hs.flag (by simp [hpc]), hs.calling, hs.consumer⟩
  | wakeBuffer hpc hfree =>
      have hflag := hs.flag (by simp [hpc])
      refine ⟨fun _ => hflag, fun i hi => ?_, ?_⟩
      · change (s.producing (.topic i)).map ProducePc.wake = none
        rw [hs.calling i hi, Option.map_none]
      · change (s.producing .consumer).map ProducePc.wake = none
        rw [hs.consumer, Option.map_none]
  | wait hpc | finish hpc =>
      have hflag : s.shuttingDown = true := by
        apply hs.flag
        rcases hpc with hpc | hpc <;> simp [hpc]
      exact ⟨fun _ => hflag, hs.calling, hs.consumer⟩

/-- Every step keeps the structure of calls. -/
theorem threadStep_callsInv {s s' : Threads n} (hs : CallsInv s) {a : Action n}
    (hstep : threadStep s a = some s') : CallsInv s' := by
  cases threadStep_cases hstep with
  | publish hstep =>
      rcases enqueue_cases hstep with ⟨-, -, -, nodes, q, -, rfl⟩
      exact hs.of_frame rfl (Or.inl rfl) (fun _ h => wakeQueueCv_calling h) fun _ _ h => h
  | respond hidle =>
      refine hs.of_frame rfl (Or.inl rfl) (fun _ h => h) fun w hw h => ?_
      simpa [setProducing, Function.update_of_ne hw] using h
  | main hprod hstep =>
      rcases produceNewMessage_calls hstep with ⟨hflag, hshutDown, htopic, hproducing⟩
      refine hs.of_frame hflag (Or.inl hshutDown) (fun i h => ?_) fun w hw h => ?_
      · rw [htopic, h]
      · rw [hproducing w hw, h]
  | topic hstep => exact produce_callsInv hs hstep
  | consumer hstep => exact consume_callsInv hs hstep
  | shutDown hstep => exact shutDownThreads_callsInv hs hstep
  | spurious w =>
      cases w with
      | main =>
          exact hs.of_frame rfl (Or.inl rfl) (fun _ h => h) fun _ _ h => wakeProducer_none h
      | topic i =>
          exact hs.of_frame rfl (Or.inl rfl) (fun _ h => wakeQueueCv_calling h)
            fun _ _ h => wakeProducer_none h
      | consumer => exact hs.of_frame rfl (Or.inl rfl) (fun _ h => h) fun _ _ h => h

/-! ## The invariants in every run -/

variable {created : Fin n → Bool} {consumerCreated : Bool}

theorem callsInv_reachable {s : Threads n}
    (hreach : (threadSystem created consumerCreated).Reachable s) : CallsInv s := by
  refine System.Reachable.invariant CallsInv ?_ ?_ hreach
  · rintro s ⟨garbage, rfl⟩
    exact callsInv_start garbage created consumerCreated
  · exact fun s a s' hs hstep => threadStep_callsInv hs hstep

/-- Initially no thread has entered its message queue. -/
theorem queueWaits_start (garbage : Nat → OutgoingBufferElement n) (created : Fin n → Bool)
    (consumerCreated : Bool) (i : Fin n) :
    QueueWaits i ((Threads.start garbage created consumerCreated).queueSide i) := by
  apply QueueWaits.of_outside
  · cases hcreated : created i <;>
      simp [Threads.start, queueSide, hcreated, TopicPc.holdsLock]
  · simp [Threads.start, queueSide, ShutDownPc.hasWokenQueue]

theorem queueWaits_reachable {s : Threads n}
    (hreach : (threadSystem created consumerCreated).Reachable s) (i : Fin n) :
    QueueWaits i (s.queueSide i) := by
  have hboth : CallsInv s ∧ ∀ i, QueueWaits i (s.queueSide i) := by
    refine System.Reachable.invariant
      (fun s => CallsInv s ∧ ∀ i, QueueWaits i (s.queueSide i)) ?_ ?_ hreach
    · rintro s ⟨garbage, rfl⟩
      exact ⟨callsInv_start garbage created consumerCreated,
        queueWaits_start garbage created consumerCreated⟩
    · rintro s a s' ⟨hcalls, hwaits⟩ hstep
      exact ⟨threadStep_callsInv hcalls hstep,
        fun i => (hwaits i).step (threadStep_queueStep hcalls hstep i)⟩
  exact hboth.2 i

end Broker
end PubSub
