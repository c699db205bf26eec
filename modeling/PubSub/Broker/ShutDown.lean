import Mathlib.Data.Fintype.Card
import PubSub.Broker.Threads

/-!
# Shutting down after a failed start

{lit}`main` asks the threads to shut down only when {lit}`create_and_start_threads` has
failed, that is, when some thread does not exist.  {lit}`shut_down_threads` then waits
for a signal of every topic thread and of the consumer, the missing ones included.

Main results:

- Structure {lit}`SignalInv`: the counter of {lit}`shut_down_threads` is the number of
  threads that have returned, and a thread that was not created never returns.
- Theorem {lit}`createAndStartThreads_of_returned`: {lit}`shut_down_threads` returns only if
  every thread was created.
- Theorem {lit}`shutDown_stuck`: otherwise it can always end up waiting after every
  thread that exists has signalled and returned.
-/

namespace PubSub
namespace Broker

open Foundations Threads

variable {n : Nat}

/-- The result of {lit}`create_and_start_threads`: the handles of all threads are valid. -/
def createAndStartThreads (created : Fin n → Bool) (consumerCreated : Bool) : Bool :=
  (List.finRange n).all created && consumerCreated

/-- Every thread that was created has signalled and returned, and
{lit}`shut_down_threads` still waits for the counter to reach its goal. -/
structure Stuck (s : Threads n) : Prop where
  topics : ∀ i, s.topic i = .notCreated ∨ s.topic i = .returned
  consumer : s.consumer = .notCreated ∨ s.consumer = .returned
  waiting : s.shutDown = .waiting
  missing : s.numOfShutDownThreads < n + 1

/-! ## The counter of returned threads -/

/-- The topic threads that have returned. -/
def Threads.returnedTopics (s : Threads n) : Finset (Fin n) :=
  Finset.univ.filter fun i => s.topic i = .returned

/-- One if the consumer has returned. -/
def ConsumerPc.returnedCount : ConsumerPc n → Nat
  | .returned => 1
  | _ => 0

/-- The counter says how many threads have returned. -/
structure SignalInv (created : Fin n → Bool) (consumerCreated : Bool) (s : Threads n) :
    Prop where
  count : s.numOfShutDownThreads = s.returnedTopics.card + s.consumer.returnedCount
  topicMissing : ∀ i, created i = false → s.topic i = .notCreated
  consumerMissing : consumerCreated = false → s.consumer = .notCreated
  returned : s.shutDown = .returned → n + 1 ≤ s.numOfShutDownThreads

/-- A step in which nobody returns. -/
structure NobodyReturns (s s' : Threads n) : Prop where
  count : s'.numOfShutDownThreads = s.numOfShutDownThreads
  topic : ∀ i, s'.topic i = s.topic i ∨
    s.topic i ≠ .notCreated ∧ s.topic i ≠ .returned ∧ s'.topic i ≠ .returned
  consumer : s'.consumer = s.consumer ∨
    s.consumer ≠ .notCreated ∧ s.consumer ≠ .returned ∧ s'.consumer ≠ .returned
  shutDown : s'.shutDown = .returned →
    s.shutDown = .returned ∨ n + 1 ≤ s.numOfShutDownThreads

variable {created : Fin n → Bool} {consumerCreated : Bool}

theorem ConsumerPc.returnedCount_of_ne {pc : ConsumerPc n} (hpc : pc ≠ .returned) :
    pc.returnedCount = 0 := by
  cases pc with
  | returned => exact absurd rfl hpc
  | _ => rfl

/-- Waking {lit}`shut_down_threads` does not make it return. -/
theorem ShutDownPc.returned_of_wake {pc : ShutDownPc} (hpc : pc.wake = .returned) :
    pc = .returned := by
  cases pc with
  | returned => rfl
  | _ => contradiction

/-- A step in which nobody returns keeps the invariant. -/
theorem SignalInv.of_nobodyReturns {s s' : Threads n}
    (hs : SignalInv created consumerCreated s) (hstep : NobodyReturns s s') :
    SignalInv created consumerCreated s' where
  count := by
    have htopics : s'.returnedTopics = s.returnedTopics := by
      ext i
      simp only [returnedTopics, Finset.mem_filter, Finset.mem_univ, true_and]
      rcases hstep.topic i with hsame | ⟨-, hold, hnew⟩
      · rw [hsame]
      · exact ⟨fun h => absurd h hnew, fun h => absurd h hold⟩
    have hconsumer : s'.consumer.returnedCount = s.consumer.returnedCount := by
      rcases hstep.consumer with hsame | ⟨-, hold, hnew⟩
      · rw [hsame]
      · rw [ConsumerPc.returnedCount_of_ne hold, ConsumerPc.returnedCount_of_ne hnew]
    rw [hstep.count, htopics, hconsumer]
    exact hs.count
  topicMissing := by
    intro i hi
    have hold := hs.topicMissing i hi
    rcases hstep.topic i with hsame | ⟨hne, -, -⟩
    · rw [hsame, hold]
    · exact absurd hold hne
  consumerMissing := by
    intro hmissing
    have hold := hs.consumerMissing hmissing
    rcases hstep.consumer with hsame | ⟨hne, -, -⟩
    · rw [hsame, hold]
    · exact absurd hold hne
  returned := by
    intro hreturned
    rw [hstep.count]
    rcases hstep.shutDown hreturned with hold | hcount
    · exact hs.returned hold
    · exact hcount

/-- The thread of topic {lit}`i` signals and returns. -/
theorem SignalInv.of_topicReturns {s : Threads n} (hs : SignalInv created consumerCreated s)
    {i : Fin n} (hpc : s.topic i = .signal) :
    SignalInv created consumerCreated (s.signalShutDown.setTopic i .returned) where
  count := by
    have hnot : i ∉ s.returnedTopics := by simp [returnedTopics, hpc]
    have hinsert : (s.signalShutDown.setTopic i .returned).returnedTopics =
        insert i s.returnedTopics := by
      ext j
      simp only [returnedTopics, Finset.mem_filter, Finset.mem_univ, true_and,
        Finset.mem_insert]
      simp only [setTopic, signalShutDown]
      by_cases hj : j = i
      · simp [hj]
      · simp [hj]
    have hold := hs.count
    rw [hinsert, Finset.card_insert_of_notMem hnot]
    simp only [setTopic, signalShutDown]
    omega
  topicMissing := by
    intro j hj
    have hold := hs.topicMissing j hj
    have hne : j ≠ i := by
      rintro rfl
      rw [hpc] at hold
      contradiction
    simp only [setTopic, signalShutDown, Function.update_of_ne hne, hold]
  consumerMissing := hs.consumerMissing
  returned := by
    intro hreturned
    exact Nat.le_succ_of_le (hs.returned (ShutDownPc.returned_of_wake hreturned))

/-- The consumer signals and returns. -/
theorem SignalInv.of_consumerReturns {s : Threads n} (hs : SignalInv created consumerCreated s)
    (hpc : s.consumer = .signal) :
    SignalInv created consumerCreated { s.signalShutDown with consumer := .returned } where
  count := by
    have hold := hs.count
    rw [hpc, ConsumerPc.returnedCount_of_ne (by simp)] at hold
    exact congrArg (· + 1) hold
  topicMissing := hs.topicMissing
  consumerMissing := by
    intro hmissing
    have hold := hs.consumerMissing hmissing
    rw [hpc] at hold
    contradiction
  returned := by
    intro hreturned
    exact Nat.le_succ_of_le (hs.returned (ShutDownPc.returned_of_wake hreturned))

/-! ## The invariant is preserved -/

theorem signalInv_start (garbage : Nat → OutgoingBufferElement n) :
    SignalInv created consumerCreated (Threads.start garbage created consumerCreated) where
  count := by
    have hrunning : ∀ i, (Threads.start garbage created consumerCreated).topic i ≠ .returned := by
      intro i
      cases hcreated : created i <;> simp [Threads.start, hcreated]
    have htopics : (Threads.start garbage created consumerCreated).returnedTopics = ∅ := by
      ext i
      simp [returnedTopics, hrunning i]
    have hconsumer :
        (Threads.start garbage created consumerCreated).consumer.returnedCount = 0 := by
      cases consumerCreated <;> rfl
    rw [htopics, hconsumer]
    rfl
  topicMissing := by
    intro i hi
    simp [Threads.start, hi]
  consumerMissing := by
    intro hmissing
    simp [Threads.start, hmissing]
  returned := by simp [Threads.start]

/-- The counter and the positions that the invariant is about. -/
structure SignalSide (n : Nat) where
  numOfShutDownThreads : Nat
  topic : Fin n → TopicPc
  consumer : ConsumerPc n
  shutDown : ShutDownPc

/-- The part of the state that the invariant is about. -/
def Threads.signalSide (s : Threads n) : SignalSide n :=
  ⟨s.numOfShutDownThreads, s.topic, s.consumer, s.shutDown⟩

/-- A step that leaves this part of the state as it is, but for one topic thread that
was running and does not return. -/
theorem nobodyReturns_of_topicMove {s s' : Threads n} {i : Fin n} {pc : TopicPc}
    (hold : s.topic i ≠ .notCreated ∧ s.topic i ≠ .returned) (hpc : pc ≠ .returned)
    (hside : s'.signalSide = (s.setTopic i pc).signalSide) : NobodyReturns s s' := by
  simp only [signalSide, SignalSide.mk.injEq, setTopic] at hside
  rcases hside with ⟨hcount, htopic, hconsumer, hshutDown⟩
  constructor
  case count => exact hcount
  case topic =>
    intro j
    rw [htopic]
    by_cases hj : j = i
    · subst hj
      rw [Function.update_self]
      exact Or.inr ⟨hold.1, hold.2, hpc⟩
    · rw [Function.update_of_ne hj]
      exact Or.inl rfl
  case consumer => exact Or.inl hconsumer
  case shutDown =>
    intro hreturned
    rw [hshutDown] at hreturned
    exact Or.inl hreturned

/-- The consumer was running and does not return. -/
theorem nobodyReturns_of_consumerMove {s s' : Threads n} {pc : ConsumerPc n}
    (hold : s.consumer ≠ .notCreated ∧ s.consumer ≠ .returned) (hpc : pc ≠ .returned)
    (hside : s'.signalSide = { s.signalSide with consumer := pc }) : NobodyReturns s s' := by
  simp only [signalSide, SignalSide.mk.injEq] at hside
  rcases hside with ⟨hcount, htopic, hconsumer, hshutDown⟩
  constructor
  case count => exact hcount
  case topic => exact fun i => Or.inl (congrFun htopic i)
  case consumer =>
    rw [hconsumer]
    exact Or.inr ⟨hold.1, hold.2, hpc⟩
  case shutDown =>
    intro hreturned
    rw [hshutDown] at hreturned
    exact Or.inl hreturned

/-- Only {lit}`shut_down_threads` moves, and it does not return before the counter has
reached its goal. -/
theorem nobodyReturns_of_shutDownMove {s s' : Threads n} {pc : ShutDownPc}
    (hpc : pc = .returned → s.shutDown = .returned ∨ n + 1 ≤ s.numOfShutDownThreads)
    (hside : s'.signalSide = { s.signalSide with shutDown := pc }) : NobodyReturns s s' := by
  simp only [signalSide, SignalSide.mk.injEq] at hside
  rcases hside with ⟨hcount, htopic, hconsumer, hshutDown⟩
  constructor
  case count => exact hcount
  case topic => exact fun i => Or.inl (congrFun htopic i)
  case consumer => exact Or.inl hconsumer
  case shutDown =>
    intro hreturned
    exact hpc (hshutDown.symm.trans hreturned)

/-- Nobody moves that the invariant is about. -/
theorem nobodyReturns_of_eq {s s' : Threads n} (hside : s'.signalSide = s.signalSide) :
    NobodyReturns s s' :=
  nobodyReturns_of_shutDownMove Or.inl hside

/-- Two steps in which nobody returns. -/
theorem NobodyReturns.trans {s₁ s₂ s₃ : Threads n} (h : NobodyReturns s₁ s₂)
    (h' : NobodyReturns s₂ s₃) : NobodyReturns s₁ s₃ where
  count := h'.count.trans h.count
  topic := by
    intro i
    rcases h'.topic i with hsame | ⟨hnotCreated, hnotReturned, hnew⟩
    · rw [hsame]
      exact h.topic i
    · rcases h.topic i with hsame | ⟨hnotCreated', hnotReturned', -⟩
      · rw [hsame] at hnotCreated hnotReturned
        exact Or.inr ⟨hnotCreated, hnotReturned, hnew⟩
      · exact Or.inr ⟨hnotCreated', hnotReturned', hnew⟩
  consumer := by
    rcases h'.consumer with hsame | ⟨hnotCreated, hnotReturned, hnew⟩
    · rw [hsame]
      exact h.consumer
    · rcases h.consumer with hsame | ⟨hnotCreated', hnotReturned', -⟩
      · rw [hsame] at hnotCreated hnotReturned
        exact Or.inr ⟨hnotCreated, hnotReturned, hnew⟩
      · exact Or.inr ⟨hnotCreated', hnotReturned', hnew⟩
  shutDown := by
    intro hreturned
    rcases h'.shutDown hreturned with hold | hgoal
    · exact h.shutDown hold
    · rw [h.count] at hgoal
      exact Or.inr hgoal

/-- A wake-up of the consumer. -/
theorem wakeFillCv_nobodyReturns (s : Threads n) : NobodyReturns s s.wakeFillCv := by
  cases hpc : s.consumer with
  | waiting =>
      have hside : s.wakeFillCv.signalSide = { s.signalSide with consumer := .woken } := by
        simp [wakeFillCv, hpc, ConsumerPc.wake, signalSide]
      exact nobodyReturns_of_consumerMove (by simp [hpc]) (by simp) hside
  | _ =>
      apply nobodyReturns_of_eq
      simp [wakeFillCv, hpc, ConsumerPc.wake, signalSide]

/-- A wake-up of a topic thread. -/
theorem wakeQueueCv_topic (s : Threads n) (i j : Fin n) :
    (s.wakeQueueCv i).topic j = s.topic j ∨
      s.topic j = .waiting ∧ (s.wakeQueueCv i).topic j = .woken := by
  by_cases hj : j = i
  · subst hj
    cases hpc : s.topic j with
    | waiting => simp [wakeQueueCv, setTopic, hpc, TopicPc.wake]
    | _ => simp [wakeQueueCv, setTopic, hpc, TopicPc.wake]
  · exact Or.inl (by simp [wakeQueueCv, setTopic, hj])

theorem wakeQueueCv_nobodyReturns (s : Threads n) (i : Fin n) :
    NobodyReturns s (s.wakeQueueCv i) where
  count := rfl
  topic := by
    intro j
    rcases wakeQueueCv_topic s i j with hsame | ⟨hold, hnew⟩
    · exact Or.inl hsame
    · exact Or.inr (by simp [hold, hnew])
  consumer := Or.inl rfl
  shutDown := Or.inl

/-- {lit}`produce_new_message` lets nobody return. -/
theorem produceNewMessage_nobodyReturns {s s' : Threads n} {w : ThreadId n}
    {pc : ProducePc n} (hstep : produceNewMessage s w pc = some s') : NobodyReturns s s' := by
  cases produceNewMessage_cases hstep with
  | move | giveUp => exact nobodyReturns_of_eq rfl
  | put e => exact (wakeFillCv_nobodyReturns s).trans (nobodyReturns_of_eq rfl)

theorem produce_signalInv {s s' : Threads n} (hs : SignalInv created consumerCreated s)
    {i : Fin n} (hstep : produce s i = some s') : SignalInv created consumerCreated s' := by
  cases produce_cases hstep with
  | move owner hold hnew => exact hs.of_nobodyReturns (nobodyReturns_of_topicMove hold hnew rfl)
  | callNull hpc | take hpc =>
      exact hs.of_nobodyReturns
        (nobodyReturns_of_topicMove (i := i) (by simp [hpc]) (by simp) rfl)
  | call hprod hcall => exact hs.of_nobodyReturns (produceNewMessage_nobodyReturns hcall)
  | signal hpc => exact hs.of_topicReturns hpc

theorem consume_signalInv {s s' : Threads n} (hs : SignalInv created consumerCreated s)
    {wake : Option (ThreadId n)} (hstep : consume s wake = some s') :
    SignalInv created consumerCreated s' := by
  cases consume_cases hstep with
  | move owner hold hnew =>
      exact hs.of_nobodyReturns (nobodyReturns_of_consumerMove hold hnew rfl)
  | get hpc =>
      exact hs.of_nobodyReturns (nobodyReturns_of_consumerMove (by simp [hpc]) (by simp) rfl)
  | leave hpc hwake =>
      rcases wakeEmptyCv_cases hwake with rfl | ⟨w, rfl⟩
      all_goals
        exact hs.of_nobodyReturns (nobodyReturns_of_consumerMove (by simp [hpc]) (by simp) rfl)
  | sent owner hpc hnew =>
      have hold : s.consumer ≠ .notCreated ∧ s.consumer ≠ .returned := by
        rcases hpc with h | h <;> simp [h]
      exact hs.of_nobodyReturns (nobodyReturns_of_consumerMove hold hnew rfl)
  | signal hpc => exact hs.of_consumerReturns hpc

/-- {lit}`shut_down_threads` returns only behind its wait loop. -/
theorem shutDownThreads_nobodyReturns {s s' : Threads n} (hstep : shutDownThreads s = some s') :
    NobodyReturns s s' := by
  cases shutDownThreads_cases hstep with
  | request | queuesWoken | wait => exact nobodyReturns_of_shutDownMove (by simp) rfl
  | @wakeQueue i hi hpc hfree =>
      have hwake := wakeQueueCv_nobodyReturns s ⟨i, hi⟩
      exact hwake.trans (nobodyReturns_of_shutDownMove (by simp) rfl)
  | wakeBuffer =>
      exact (wakeFillCv_nobodyReturns s).trans (nobodyReturns_of_shutDownMove (by simp) rfl)
  | finish hpc hgoal => exact nobodyReturns_of_shutDownMove (fun _ => Or.inr hgoal) rfl

/-- Every step keeps the invariant. -/
theorem threadStep_signalInv {s s' : Threads n} (hs : SignalInv created consumerCreated s)
    {a : Action n} (hstep : threadStep s a = some s') :
    SignalInv created consumerCreated s' := by
  cases threadStep_cases hstep with
  | @publish t message node s' hstep =>
      rcases enqueue_cases hstep with ⟨-, -, -, nodes, q, -, rfl⟩
      refine hs.of_nobodyReturns (NobodyReturns.trans ?_ (wakeQueueCv_nobodyReturns _ t))
      exact nobodyReturns_of_eq rfl
  | respond hidle => exact hs.of_nobodyReturns (nobodyReturns_of_eq rfl)
  | main hprod hstep => exact hs.of_nobodyReturns (produceNewMessage_nobodyReturns hstep)
  | topic hstep => exact produce_signalInv hs hstep
  | consumer hstep => exact consume_signalInv hs hstep
  | shutDown hstep => exact hs.of_nobodyReturns (shutDownThreads_nobodyReturns hstep)
  | spurious w =>
      cases w with
      | main => exact hs.of_nobodyReturns (nobodyReturns_of_eq rfl)
      | topic i =>
          refine hs.of_nobodyReturns (NobodyReturns.trans ?_ (wakeQueueCv_nobodyReturns _ i))
          exact nobodyReturns_of_eq rfl
      | consumer => exact hs.of_nobodyReturns (wakeFillCv_nobodyReturns s)

/-- The invariant holds in every reachable state. -/
theorem signalInv_reachable {s : Threads n}
    (hreach : (threadSystem created consumerCreated).Reachable s) :
    SignalInv created consumerCreated s := by
  refine System.Reachable.invariant (SignalInv created consumerCreated) ?_ ?_ hreach
  · rintro s ⟨garbage, rfl⟩
    exact signalInv_start garbage
  · exact fun s a s' hs hstep => threadStep_signalInv hs hstep

/-! ## A missing thread never signals -/

/-- When a thread is missing, the counter never reaches its goal. -/
theorem SignalInv.count_lt {s : Threads n} (hs : SignalInv created consumerCreated s)
    (hfailed : createAndStartThreads created consumerCreated = false) :
    s.numOfShutDownThreads < n + 1 := by
  have hle : s.returnedTopics.card ≤ n := by
    simpa using Finset.card_le_univ s.returnedTopics
  have hconsumer : s.consumer.returnedCount ≤ 1 := by
    cases s.consumer <;> simp [ConsumerPc.returnedCount]
  rw [hs.count]
  rw [createAndStartThreads, Bool.and_eq_false_iff] at hfailed
  rcases hfailed with htopic | hmissing
  · rw [List.all_eq_false] at htopic
    rcases htopic with ⟨i, -, hi⟩
    have hpc := hs.topicMissing i (by simpa using hi)
    have hssub : s.returnedTopics ⊂ Finset.univ := by
      rw [Finset.ssubset_univ_iff]
      intro huniv
      have hmem : i ∈ s.returnedTopics := by rw [huniv]; exact Finset.mem_univ i
      simp [returnedTopics, hpc] at hmem
    have hlt := Finset.card_lt_card hssub
    rw [Finset.card_univ, Fintype.card_fin] at hlt
    omega
  · have hpc := hs.consumerMissing hmissing
    rw [hpc, ConsumerPc.returnedCount_of_ne (by simp)]
    omega

/-- {lit}`shut_down_threads` returns only if every thread was created. -/
theorem createAndStartThreads_of_returned {s : Threads n}
    (hreach : (threadSystem created consumerCreated).Reachable s)
    (hreturned : s.shutDown = .returned) :
    createAndStartThreads created consumerCreated = true := by
  have hs := signalInv_reachable hreach
  cases hfailed : createAndStartThreads created consumerCreated with
  | true => rfl
  | false =>
      have hlt := hs.count_lt hfailed
      have hle := hs.returned hreturned
      omega

/-! ## A schedule that gets stuck -/

theorem reachable_threadStep {s s' : Threads n} {a : Action n}
    (hreach : (threadSystem created consumerCreated).Reachable s)
    (hstep : threadStep s a = some s') :
    (threadSystem created consumerCreated).Reachable s' :=
  System.Reachable.step (l := a) hreach hstep

/-- After the flag has been set, the first {lit}`k` topic threads have left their
outer loop, signalled and returned; nobody else has moved yet. -/
structure Drained (created : Fin n → Bool) (consumerCreated : Bool) (k : Nat)
    (s : Threads n) : Prop where
  reachable : (threadSystem created consumerCreated).Reachable s
  flag : s.shuttingDown = true
  bufferLock : s.bufferLock = none
  queueLock : ∀ i, s.queueLock i = none
  shutDown : s.shutDown = .wakeQueue 0
  consumer : s.consumer = .notCreated ∨ s.consumer = .top
  done : ∀ i, i.val < k → s.topic i = .notCreated ∨ s.topic i = .returned
  todo : ∀ i, k ≤ i.val → s.topic i = .notCreated ∨ s.topic i = .top

/-- The flag is set before any thread has run. -/
theorem exists_drained_zero (created : Fin n → Bool) (consumerCreated : Bool) :
    ∃ s, Drained created consumerCreated 0 s := by
  have hstart : (threadSystem created consumerCreated).Reachable
      (Threads.start (fun _ => ⟨none, .connectionSocket 0⟩) created consumerCreated) :=
    System.Reachable.start ⟨_, rfl⟩
  have hstep : threadStep (Threads.start (fun _ => ⟨none, .connectionSocket 0⟩) created
      consumerCreated) .shutDown = some { Threads.start (fun _ => ⟨none, .connectionSocket 0⟩)
        created consumerCreated with shuttingDown := true, shutDown := .wakeQueue 0 } := rfl
  refine ⟨_, reachable_threadStep hstart hstep, rfl, rfl, fun _ => rfl, rfl, ?_, ?_, ?_⟩
  · cases consumerCreated <;> simp [Threads.start]
  · exact fun i hi => absurd hi (by omega)
  · intro i _
    cases hcreated : created i <;> simp [Threads.start, hcreated]

/-- The next topic thread sees the flag, signals and returns. -/
theorem Drained.next {k : Nat} {s : Threads n} (hs : Drained created consumerCreated k s)
    (hk : k < n) : ∃ s', Drained created consumerCreated (k + 1) s' := by
  rcases hs.todo ⟨k, hk⟩ (Nat.le_refl k) with hmissing | htop
  · refine ⟨s, { hs with done := ?_, todo := ?_ }⟩
    · intro i hi
      by_cases hik : i = ⟨k, hk⟩
      · rw [hik]
        exact Or.inl hmissing
      · exact hs.done i (by rw [Fin.ext_iff] at hik; simp at hik; omega)
    · exact fun i hi => hs.todo i (by omega)
  · have hleave : threadStep s (.topic ⟨k, hk⟩) = some (s.setTopic ⟨k, hk⟩ .signal) := by
      simp [threadStep, produce, htop, hs.flag]
    have hreturn : threadStep (s.setTopic ⟨k, hk⟩ .signal) (.topic ⟨k, hk⟩) =
        some ((s.setTopic ⟨k, hk⟩ .signal).signalShutDown.setTopic ⟨k, hk⟩ .returned) := by
      simp [threadStep, produce, setTopic]
    have hreach := reachable_threadStep (reachable_threadStep hs.reachable hleave) hreturn
    refine ⟨_, hreach, hs.flag, hs.bufferLock, hs.queueLock, ?_, hs.consumer, ?_, ?_⟩
    · simp [setTopic, signalShutDown, hs.shutDown, ShutDownPc.wake]
    · intro i hi
      by_cases hik : i = ⟨k, hk⟩
      · simp [setTopic, signalShutDown, hik]
      · have hlt : i.val < k := by rw [Fin.ext_iff] at hik; simp at hik; omega
        simpa [setTopic, signalShutDown, Function.update_of_ne hik] using hs.done i hlt
    · intro i hi
      have hik : i ≠ ⟨k, hk⟩ := by rw [ne_eq, Fin.ext_iff]; simp; omega
      simpa [setTopic, signalShutDown, Function.update_of_ne hik] using hs.todo i (by omega)

/-- All topic threads can return before {lit}`shut_down_threads` wakes any of them. -/
theorem exists_drained (created : Fin n → Bool) (consumerCreated : Bool) {k : Nat}
    (hk : k ≤ n) : ∃ s, Drained created consumerCreated k s := by
  induction k with
  | zero => exact exists_drained_zero created consumerCreated
  | succ k ih =>
      rcases ih (by omega) with ⟨s, hs⟩
      exact hs.next (by omega)

/-- Every thread that exists has returned, and {lit}`shut_down_threads` is about to wake
the threads of the topics from {lit}`j` on. -/
structure AllReturned (created : Fin n → Bool) (consumerCreated : Bool) (j : Nat)
    (s : Threads n) : Prop where
  reachable : (threadSystem created consumerCreated).Reachable s
  bufferLock : s.bufferLock = none
  queueLock : ∀ i, s.queueLock i = none
  shutDown : s.shutDown = .wakeQueue j
  consumer : s.consumer = .notCreated ∨ s.consumer = .returned
  topics : ∀ i, s.topic i = .notCreated ∨ s.topic i = .returned

/-- The consumer, too, sees the flag, signals and returns. -/
theorem Drained.allReturned {s : Threads n} (hs : Drained created consumerCreated n s) :
    ∃ s', AllReturned created consumerCreated 0 s' := by
  have htopics := fun i => hs.done i i.isLt
  rcases hs.consumer with hmissing | htop
  · exact ⟨s, hs.reachable, hs.bufferLock, hs.queueLock, hs.shutDown, Or.inl hmissing, htopics⟩
  · have hleave : threadStep s (.consumer none) = some { s with consumer := .signal } := by
      simp [threadStep, consume, htop, hs.flag]
    have hreturn : threadStep { s with consumer := .signal } (.consumer none) =
        some { { s with consumer := .signal }.signalShutDown with consumer := .returned } := rfl
    have hreach := reachable_threadStep (reachable_threadStep hs.reachable hleave) hreturn
    refine ⟨_, hreach, hs.bufferLock, hs.queueLock, ?_, Or.inr rfl, htopics⟩
    simp [signalShutDown, hs.shutDown, ShutDownPc.wake]

/-- Waking threads that have returned changes nothing. -/
theorem AllReturned.next {j : Nat} {s : Threads n}
    (hs : AllReturned created consumerCreated j s) (hj : j < n) :
    ∃ s', AllReturned created consumerCreated (j + 1) s' := by
  have hstep : threadStep s .shutDown =
      some { s.wakeQueueCv ⟨j, hj⟩ with shutDown := .wakeQueue (j + 1) } := by
    simp [threadStep, shutDownThreads, hs.shutDown, hj, hs.queueLock]
  refine ⟨_, reachable_threadStep hs.reachable hstep, hs.bufferLock, hs.queueLock, rfl,
    hs.consumer, ?_⟩
  intro i
  rcases wakeQueueCv_topic s ⟨j, hj⟩ i with hsame | ⟨hwaiting, -⟩
  · exact hsame ▸ hs.topics i
  · rcases hs.topics i with h | h <;> simp [h] at hwaiting

theorem AllReturned.wakeAll {s : Threads n} (hs : AllReturned created consumerCreated 0 s)
    {j : Nat} (hj : j ≤ n) : ∃ s', AllReturned created consumerCreated j s' := by
  induction j with
  | zero => exact ⟨s, hs⟩
  | succ j ih =>
      rcases ih (by omega) with ⟨s₁, hs₁⟩
      exact hs₁.next (by omega)

/-- Whichever threads are missing, {lit}`shut_down_threads` can end up waiting for them
after all others have signalled and returned. -/
theorem shutDown_stuck (created : Fin n → Bool) (consumerCreated : Bool)
    (hfailed : createAndStartThreads created consumerCreated = false) :
    ∃ s, (threadSystem created consumerCreated).Reachable s ∧ Stuck s := by
  rcases exists_drained created consumerCreated (Nat.le_refl n) with ⟨s₀, hdrained⟩
  rcases hdrained.allReturned with ⟨s₁, hreturned⟩
  rcases hreturned.wakeAll (Nat.le_refl n) with ⟨s, hs⟩
  have hleave : threadStep s .shutDown = some { s with shutDown := .wakeBuffer } := by
    simp [threadStep, shutDownThreads, hs.shutDown]
  have hwake : threadStep { s with shutDown := .wakeBuffer } .shutDown =
      some { { s with shutDown := .wakeBuffer }.wakeAllEmptyCv.wakeFillCv with
        shutDown := .loop } := by
    simp [threadStep, shutDownThreads, hs.bufferLock]
  have hreach := reachable_threadStep (reachable_threadStep hs.reachable hleave) hwake
  have hlt := (signalInv_reachable hreach).count_lt hfailed
  have hwait : threadStep { { s with shutDown := .wakeBuffer }.wakeAllEmptyCv.wakeFillCv with
      shutDown := .loop } .shutDown =
      some { { s with shutDown := .wakeBuffer }.wakeAllEmptyCv.wakeFillCv with
        shutDown := .waiting } := by
    simp only [threadStep, shutDownThreads, if_pos hlt]
  refine ⟨_, reachable_threadStep hreach hwait, hs.topics, ?_, rfl, hlt⟩
  rcases hs.consumer with h | h <;>
    simp [wakeFillCv, wakeAllEmptyCv, h, ConsumerPc.wake]

theorem shutDown_stuck_lastNotCreated :
    createAndStartThreads lastNotCreated true = false ∧
      ∃ s, (threadSystem lastNotCreated true).Reachable s ∧ Stuck s :=
  ⟨by decide, shutDown_stuck lastNotCreated true (by decide)⟩

/-- The last topic thread is missing.  The other two and the consumer see the flag
and return before {lit}`shut_down_threads` wakes anybody. -/
def returnBeforeWakeUps : List (Action topicsNum) :=
  [.shutDown] ++ List.replicate 2 (.topic 0) ++ List.replicate 2 (.topic 1) ++
    List.replicate 2 (.consumer none) ++ List.replicate 6 .shutDown

/-- A shutdown of the broker that is waiting for a thread that does not exist. -/
theorem stuck_returnBeforeWakeUps :
    createAndStartThreads lastNotCreated true = false ∧
      ∃ s, (threadSystem lastNotCreated true).Reachable s ∧ Stuck s := by
  have hrun : ((threadSystem lastNotCreated true).run
      (Threads.start (fun _ => ⟨none, .connectionSocket 0⟩) lastNotCreated true)
      returnBeforeWakeUps).map (fun s =>
        (s.topic 0, s.topic 1, s.topic 2, s.consumer, s.shutDown, s.numOfShutDownThreads)) =
      some (.returned, .returned, .notCreated, .returned, .waiting, 3) := rfl
  rcases Option.map_eq_some_iff.mp hrun with ⟨s, hs, heq⟩
  simp only [Prod.mk.injEq] at heq
  rcases heq with ⟨h0, h1, h2, hconsumer, hwaiting, hcount⟩
  have hfirst : (threadSystem lastNotCreated true).Reachable
      (Threads.start (fun _ => ⟨none, .connectionSocket 0⟩) lastNotCreated true) :=
    System.Reachable.start ⟨_, rfl⟩
  have hlt : s.numOfShutDownThreads < topicsNum + 1 := by
    rw [hcount]
    decide
  refine ⟨by decide, s, hfirst.run hs, ?_, Or.inr hconsumer, hwaiting, hlt⟩
  intro i
  match i with
  | 0 => exact Or.inr h0
  | 1 => exact Or.inr h1
  | 2 => exact Or.inl h2

end Broker
end PubSub
