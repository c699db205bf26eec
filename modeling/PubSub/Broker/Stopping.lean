import Mathlib.Algebra.Order.BigOperators.Group.Finset
import PubSub.Broker.Progress

/-!
# A shutdown ends

Once {lit}`shut_down_threads` has set the flag, every thread makes only so many moves before it
returns, whoever moves when and wherever the flag finds the threads: inside a wait loop,
between two critical sections, or with an element in their hands.  {lit}`shut_down_threads`
itself returns if and only if all threads had been created.  The exception is a consumer that
leaves its wait loop with nothing in the buffer: it would go on to {lit}`get` a slot that nobody
has written, and {lit}`soundThreads` ends there.

Main results:

- Definition {lit}`Threads.stopWork`: a bound on the moves that are left after the flag is set.
- Theorem {lit}`threadStep_stopWork_lt`: every move uses some of it up.
- Theorem {lit}`stopped_of_stuck`: when nobody can move, every thread has returned.
- Theorem {lit}`shutDown_ends`: so every shutdown ends, in the one way or in the other, or before a
  {lit}`get` from the empty buffer.
-/

namespace PubSub
namespace Broker

open Foundations Threads

variable {n : Nat}

/-! ## Moves that are left -/

/-- A bound on the moves of a call of {lit}`produce_new_message`, except for waking up.  A put
wakes the consumer. -/
def ProducePc.stopWork : ProducePc n → Nat
  | .waiting _ => 0
  | .sleep _ | .test _ => 1
  | .loop _ => 2
  | .enter _ | .woken _ => 3
  | .put _ => 8

/-- A bound on the moves of a topic thread on its way out. -/
def TopicPc.stopWork : TopicPc → Nat
  | .notCreated | .waiting | .returned => 0
  | .sleep => 1
  | .signal => 2
  | .top => 3
  | .calling => 4
  | .test | .take => 8
  | .loop => 9
  | .enterQueue | .woken => 10

/-- A bound on the moves of the consumer on its way out.  It may wake a producer. -/
def ConsumerPc.stopWork : ConsumerPc n → Nat
  | .notCreated | .waiting | .returned => 0
  | .sleep => 1
  | .signal => 2
  | .top | .sendLast _ => 3
  | .send _ | .test _ => 4
  | .get => 5
  | .loop => 6
  | .enter | .woken => 7
  | .leave _ => 8

/-- A bound on the moves of {lit}`shut_down_threads`, with all the moves of the threads that it
wakes. -/
def ShutDownPc.stopWork (n : Nat) : ShutDownPc → Nat
  | .notCalled | .waiting | .returned => 0
  | .loop | .woken => 1
  | .wakeBuffer => 9 + 3 * Fintype.card (ThreadId n)
  | .wakeQueue i => 10 + 3 * Fintype.card (ThreadId n) + 11 * (n - i)

/-- The moves of a thread that may be inside {lit}`produce_new_message`. -/
def producerStopWork (pc : Option (ProducePc n)) : Nat :=
  pc.elim 0 ProducePc.stopWork

/-- A bound on the moves of all threads after the flag has been set. -/
def Threads.stopWork (s : Threads n) : Nat :=
  ∑ w, producerStopWork (s.producing w) + ∑ i, (s.topic i).stopWork + s.consumer.stopWork +
    s.shutDown.stopWork n

theorem ProducerMove.stopWork_lt {pc pc' : ProducePc n} (hmove : ProducerMove true pc pc') :
    pc'.stopWork < pc.stopWork := by
  cases hmove with
  | toSleep e hflag | toPut e hflag => contradiction
  | _ => simp [ProducePc.stopWork]

theorem TopicMove.stopWork_lt {pc pc' : TopicPc} (hmove : TopicMove true pc pc') :
    pc'.stopWork < pc.stopWork := by
  cases hmove with
  | dequeue hflag | toSleep hflag | toTake hflag => contradiction
  | _ => simp [TopicPc.stopWork]

theorem ConsumerMove.stopWork_lt {pc pc' : ConsumerPc n} (hmove : ConsumerMove true pc pc') :
    pc'.stopWork < pc.stopWork := by
  cases hmove with
  | again hflag | toSleep hflag | toLeave e hflag => contradiction
  | _ => simp [ConsumerPc.stopWork]

theorem ProducePc.stopWork_wake (pc : Option (ProducePc n)) :
    producerStopWork (pc.map ProducePc.wake) ≤ producerStopWork pc + 3 := by
  cases pc with
  | none => simp [producerStopWork]
  | some pc => cases pc <;> simp [producerStopWork, ProducePc.wake, ProducePc.stopWork]

theorem TopicPc.stopWork_wake (pc : TopicPc) : pc.wake.stopWork ≤ pc.stopWork + 10 := by
  cases pc <;> simp [TopicPc.wake, TopicPc.stopWork]

theorem ConsumerPc.stopWork_wake (pc : ConsumerPc n) : pc.wake.stopWork ≤ pc.stopWork + 7 := by
  cases pc <;> simp [ConsumerPc.wake, ConsumerPc.stopWork]

theorem ShutDownPc.stopWork_wake (pc : ShutDownPc) :
    pc.wake.stopWork n ≤ pc.stopWork n + 1 := by
  cases pc <;> simp [ShutDownPc.wake, ShutDownPc.stopWork]

/-! ## Every move is one less -/

section Steps

variable {s s' : Threads n}

/-- A producer does not wait any more; an element that it is already putting is the last. -/
theorem produceNewMessage_stopWork_lt (hflag : s.shuttingDown = true) {w : ThreadId n}
    {pc : ProducePc n} (hprod : s.producing w = some pc)
    (hstep : produceNewMessage s w pc = some s') : s'.stopWork < s.stopWork := by
  have hold : producerStopWork (s.producing w) = pc.stopWork := by rw [hprod]; rfl
  cases produceNewMessage_moves hstep with
  | @move pc pc' owner hmove =>
      rw [hflag] at hmove
      have hlt := hmove.stopWork_lt
      have hsum := sum_rank_update producerStopWork s.producing w (some pc')
      have hnew : producerStopWork (some pc') = pc'.stopWork := rfl
      simp only [stopWork, Threads.setProducing]
      omega
  | @giveUp e hflag =>
      have hsum := sum_rank_update producerStopWork s.producing w none
      have htest : (ProducePc.test e).stopWork = 1 := rfl
      have hnew : producerStopWork (none : Option (ProducePc n)) = 0 := rfl
      simp only [stopWork, Threads.setProducing]
      omega
  | put e =>
      have hsum := sum_rank_update producerStopWork s.producing w none
      have hput : (ProducePc.put e).stopWork = 8 := rfl
      have hnew : producerStopWork (none : Option (ProducePc n)) = 0 := rfl
      have hwake := s.consumer.stopWork_wake
      simp only [stopWork, Threads.setProducing, wakeFillCv]
      omega

/-- A topic thread inside {lit}`dequeue` comes out with one more element, or without. -/
theorem produce_stopWork_lt (hflag : s.shuttingDown = true) {i : Fin n}
    (hstep : produce s i = some s') : s'.stopWork < s.stopWork := by
  have hcall : ∀ e : OutgoingBufferElement n, (s.topic i).stopWork = 8 →
      ∑ w, producerStopWork (Function.update s.producing (.topic i) (some (.enter e)) w) +
          ∑ j, (Function.update s.topic i TopicPc.calling j).stopWork <
        ∑ w, producerStopWork (s.producing w) + ∑ j, (s.topic j).stopWork := by
    intro e hold
    have hproducing := sum_rank_update producerStopWork s.producing (.topic i) (some (.enter e))
    have henter : producerStopWork (some (ProducePc.enter e)) = 3 := rfl
    have htopic := sum_rank_update TopicPc.stopWork s.topic i .calling
    have hcalling : TopicPc.stopWork .calling = 4 := rfl
    omega
  cases produce_moves hstep with
  | @move pc owner hmove howner =>
      rw [hflag] at hmove
      have hlt := hmove.stopWork_lt
      have hsum := sum_rank_update TopicPc.stopWork s.topic i pc
      simp only [stopWork, setTopic, setQueueLock]
      omega
  | callNull hpc =>
      have hlt := hcall ⟨none, .subscriberConnectionSockets i⟩ (by rw [hpc]; rfl)
      simp only [stopWork, setTopic, setQueueLock, Threads.setProducing]
      omega
  | @take nodes q message hpc hdequeue =>
      have hlt := hcall ⟨message, .subscriberConnectionSockets i⟩ (by rw [hpc]; rfl)
      simp only [stopWork, setTopic, setQueueLock, Threads.setProducing]
      omega
  | call hpc hprod hcall => exact produceNewMessage_stopWork_lt hflag hprod hcall
  | signal hpc =>
      have hsum := sum_rank_update TopicPc.stopWork s.topic i .returned
      have hold : (s.topic i).stopWork = 2 := by rw [hpc]; rfl
      have hnew : TopicPc.stopWork .returned = 0 := rfl
      have hwake := s.shutDown.stopWork_wake (n := n)
      simp only [stopWork, setTopic, signalShutDown]
      omega

/-- The consumer takes one more element, whether there is one or not, and leaves. -/
theorem consume_stopWork_lt (hflag : s.shuttingDown = true) {wake : Option (ThreadId n)}
    (hstep : consume s wake = some s') : s'.stopWork < s.stopWork := by
  cases consume_moves hstep with
  | @move pc owner hmove =>
      rw [hflag] at hmove
      have hlt := hmove.stopWork_lt
      simp only [stopWork]
      omega
  | get hpc =>
      have hold : s.consumer.stopWork = 5 := by rw [hpc]; rfl
      have hnew : (ConsumerPc.test s.outgoingBuffer.get.1).stopWork = 4 := rfl
      simp only [stopWork]
      omega
  | @leave e s₁ hpc hwake =>
      have hold : s.consumer.stopWork = 8 := by rw [hpc]; rfl
      have hnew : (ConsumerPc.send e).stopWork = 4 := rfl
      rcases wakeEmptyCv_cases hwake with rfl | ⟨w, rfl⟩
      · simp only [stopWork]
        omega
      · have hsum := sum_rank_update producerStopWork s.producing w
          ((s.producing w).map ProducePc.wake)
        have hle := ProducePc.stopWork_wake (s.producing w)
        simp only [stopWork, wakeProducer, Threads.setProducing]
        omega
  | sent hpc =>
      have hold : s.consumer.stopWork = 4 := by rw [hpc]; rfl
      have hnew : (ConsumerPc.top : ConsumerPc n).stopWork = 3 := rfl
      simp only [stopWork]
      omega
  | sentLast hpc =>
      have hold : s.consumer.stopWork = 3 := by rw [hpc]; rfl
      have hnew : (ConsumerPc.signal : ConsumerPc n).stopWork = 2 := rfl
      simp only [stopWork]
      omega
  | signal hpc =>
      have hold : s.consumer.stopWork = 2 := by rw [hpc]; rfl
      have hnew : (ConsumerPc.returned : ConsumerPc n).stopWork = 0 := rfl
      have hwake := s.shutDown.stopWork_wake (n := n)
      simp only [stopWork, signalShutDown]
      omega

/-- {lit}`shut_down_threads` has kept back what it costs to wake everybody. -/
theorem shutDownThreads_stopWork_lt (hcalled : s.shutDown ≠ .notCalled)
    (hstep : shutDownThreads s = some s') : s'.stopWork < s.stopWork := by
  cases shutDownThreads_cases hstep with
  | request hpc => exact absurd hpc hcalled
  | @wakeQueue i hi hpc hfree =>
      have hsum := sum_rank_update TopicPc.stopWork s.topic ⟨i, hi⟩ (s.topic ⟨i, hi⟩).wake
      have hwake := (s.topic ⟨i, hi⟩).stopWork_wake
      simp only [stopWork, wakeQueueCv, setTopic, hpc, ShutDownPc.stopWork]
      omega
  | queuesWoken hi hpc =>
      simp only [stopWork, hpc, ShutDownPc.stopWork]
      omega
  | wakeBuffer hpc hfree =>
      have hwake := s.consumer.stopWork_wake
      have hproducers : ∑ w, producerStopWork ((s.producing w).map ProducePc.wake) ≤
          ∑ w, producerStopWork (s.producing w) + Fintype.card (ThreadId n) * 3 := by
        calc ∑ w, producerStopWork ((s.producing w).map ProducePc.wake)
            ≤ ∑ w, (producerStopWork (s.producing w) + 3) :=
              Finset.sum_le_sum fun w _ => ProducePc.stopWork_wake (s.producing w)
          _ = ∑ w, producerStopWork (s.producing w) + Fintype.card (ThreadId n) * 3 := by
              rw [Finset.sum_add_distrib, Finset.sum_const, Finset.card_univ, nsmul_eq_mul,
                Nat.cast_id]
      simp only [stopWork, wakeAllEmptyCv, wakeFillCv, hpc, ShutDownPc.stopWork]
      omega
  | wait hpc hgoal | finish hpc hgoal =>
      have hold : s.shutDown.stopWork n = 1 := by rcases hpc with h | h <;> rw [h] <;> rfl
      have hwaiting : ShutDownPc.stopWork n .waiting = 0 := rfl
      have hreturned : ShutDownPc.stopWork n .returned = 0 := rfl
      simp only [stopWork]
      omega

/-- The moves of the threads and of {lit}`shut_down_threads`. -/
def Action.IsStopping (a : Action n) : Prop :=
  a.IsOwn ∨ a = .shutDown

variable {created : Fin n → Bool} {consumerCreated : Bool}

/-- Every move is one less. -/
theorem threadStep_stopWork_lt
    (hreach : (threadSystem created consumerCreated).Reachable s) (hflag : s.shuttingDown = true)
    {a : Action n} (hstops : a.IsStopping) (hstep : threadStep s a = some s') :
    s'.stopWork < s.stopWork := by
  cases threadStep_cases hstep with
  | main hprod hstep => exact produceNewMessage_stopWork_lt hflag hprod hstep
  | topic hstep => exact produce_stopWork_lt hflag hstep
  | consumer hstep => exact consume_stopWork_lt hflag hstep
  | shutDown hstep =>
      exact shutDownThreads_stopWork_lt ((lifeInv_reachable hreach).shutDown.called hflag) hstep
  | publish | respond | spurious => exact absurd hstops (by simp [Action.IsStopping, Action.IsOwn])

/-- Nobody takes the flag back. -/
theorem threadStep_shuttingDown (hreach : (threadSystem created consumerCreated).Reachable s)
    (hflag : s.shuttingDown = true) {a : Action n} (hstep : threadStep s a = some s') :
    s'.shuttingDown = true := by
  have hside := threadStep_bufferStep (callsInv_reachable hreach) (queueWaits_reachable hreach)
    hstep
  have hkept : ∀ b b' : BufferLoops n, b.shuttingDown = true → BufferStep b b' →
      b'.shuttingDown = true := by
    intro b b' hb hbstep
    cases hbstep with
    | requestShutDown => rfl
    | _ => exact hb
  exact hkept _ _ hflag hside

/-- After the flag has been set, the threads run out of moves. -/
theorem stopWork_variant (created : Fin n → Bool) (consumerCreated : Bool) :
    (threadSystem created consumerCreated).Variant
      (fun s => (threadSystem created consumerCreated).Reachable s ∧ s.shuttingDown = true)
      Action.IsStopping Threads.stopWork where
  kept := fun _ _ _ hs _ hstep => ⟨hs.1.step hstep, threadStep_shuttingDown hs.1 hs.2 hstep⟩
  decreases := fun _ _ _ hs hstops hstep => threadStep_stopWork_lt hs.1 hs.2 hstops hstep

end Steps

/-! ## The end -/

/-- Every thread that was created has returned, and {lit}`shut_down_threads` has returned if
there was none that was not created; otherwise it waits for the missing ones. -/
structure Stopped (created : Fin n → Bool) (consumerCreated : Bool) (s : Threads n) : Prop where
  topic : ∀ i, s.topic i = if created i then .returned else .notCreated
  consumer : s.consumer = if consumerCreated then .returned else .notCreated
  idle : ∀ w, s.producing w = none
  shutDown : s.shutDown =
    if createAndStartThreads created consumerCreated then .returned else .waiting

section End

variable {s s' : Threads n} {created : Fin n → Bool} {consumerCreated : Bool}

/-- When nobody can move, nobody waits for a wake-up of {lit}`shut_down_threads` any more. -/
theorem stopped_of_stuck (hreach : (threadSystem created consumerCreated).Reachable s)
    (hflag : s.shuttingDown = true)
    (hstuck : (threadSystem created consumerCreated).Stuck Action.IsStopping s) :
    Stopped created consumerCreated s := by
  have hrest := atRest_of_stuck hreach fun a ha => hstuck a (.inl ha)
  have hlife := lifeInv_reachable hreach
  have hsignals := signalInv_reachable hreach
  have hend : s.shutDown = .waiting ∨ s.shutDown = .returned := by
    have hnone : shutDownThreads s = none := hstuck .shutDown (.inr rfl)
    cases hpc : s.shutDown with
    | notCalled => exact absurd hpc (hlife.shutDown.called hflag)
    | waiting | returned => simp
    | wakeQueue i =>
        simp only [shutDownThreads, hpc, hrest.queueLock, if_true] at hnone
        split at hnone <;> contradiction
    | wakeBuffer => simp [shutDownThreads, hpc, hrest.bufferLock] at hnone
    | loop | woken =>
        simp only [shutDownThreads, hpc] at hnone
        split at hnone <;> contradiction
  have hwoken : s.shutDown.hasWokenBuffer = true := by
    rcases hend with h | h <;> rw [h] <;> rfl
  have hnobody := nobodyWaits_of_hasWokenBuffer hreach hwoken
  have hidle : ∀ w, s.producing w = none := by
    intro w
    by_contra hprod
    rcases Option.ne_none_iff_exists'.mp hprod with ⟨pc, hpc⟩
    rcases hrest.producer w pc hpc with ⟨e, rfl⟩
    exact absurd (hnobody.producer w _ hpc) (by simp [ProducePc.waits])
  have htopic : ∀ i, s.topic i = if created i then .returned else .notCreated := by
    intro i
    cases hcreated : created i with
    | false => simpa using hsignals.topicMissing i hcreated
    | true =>
        rcases hrest.topic i with h | h | h | ⟨-, h⟩
        · exact absurd ((hlife.topic i).missing h) (by simp [hcreated])
        · exact absurd h (hnobody.topic i).2
        · simpa using h
        · exact absurd (hidle (.topic i)) h
  have hconsumer : s.consumer = if consumerCreated then .returned else .notCreated := by
    cases hcreated : consumerCreated with
    | false => simpa using hsignals.consumerMissing hcreated
    | true =>
        rcases hrest.consumer with h | h | h
        · exact absurd (hlife.consumer.missing h) (by simp [hcreated])
        · exact absurd hnobody.consumer (by simp [h, ConsumerPc.waits])
        · simpa using h
  refine ⟨htopic, hconsumer, hidle, ?_⟩
  cases hall : createAndStartThreads created consumerCreated with
  | false =>
      rcases hend with h | h
      · simpa using h
      · rw [createAndStartThreads_of_returned hreach h] at hall
        contradiction
  | true =>
      rcases hend with h | h
      · -- all threads have signalled, so nobody is missing
        have hlt := hlife.shutDown.waits h
        rw [createAndStartThreads, Bool.and_eq_true, List.all_eq_true] at hall
        have htopics : s.returnedTopics = Finset.univ := by
          ext i
          simp [returnedTopics, htopic i, hall.1 i (List.mem_finRange i)]
        have hreturned : s.consumer = .returned := by rw [hconsumer, if_pos hall.2]
        have hcount := hsignals.count
        rw [htopics, Finset.card_univ, Fintype.card_fin, hreturned] at hcount
        exact absurd hcount (by simp [ConsumerPc.returnedCount]; omega)
      · simpa using h

/-- The threads, as long as {lit}`get` is called on a nonempty buffer only. -/
def soundThreads (created : Fin n → Bool) (consumerCreated : Bool) :
    System (Threads n) (Action n) :=
  (threadSystem created consumerCreated).restrict GetsFromNonempty

/-- The consumer is inside the critical section, and what it does next is to call {lit}`get` on
the empty buffer. -/
def BeforeEmptyGet (s : Threads n) : Prop :=
  s.consumer = .get ∧ s.outgoingBuffer.count = 0

/-- When nobody can move but by a {lit}`get` from the empty buffer, either the threads have
stopped, or the consumer stands before it. -/
theorem stopped_or_beforeEmptyGet
    (hreach : (threadSystem created consumerCreated).Reachable s) (hflag : s.shuttingDown = true)
    (hstuck : (soundThreads created consumerCreated).Stuck Action.IsStopping s) :
    Stopped created consumerCreated s ∨ BeforeEmptyGet s := by
  by_cases hempty : BeforeEmptyGet s
  · exact .inr hempty
  · left
    refine stopped_of_stuck hreach hflag fun a hstops => ?_
    have hget : GetsFromNonempty s a := by
      cases a with
      | consumer wake => exact fun hpc hcount => hempty ⟨hpc, hcount⟩
      | publish | respond | main | topic | shutDown | spurious => trivial
    have hsame : (soundThreads created consumerCreated).step s a =
        (threadSystem created consumerCreated).step s a := if_pos hget
    rw [← hsame]
    exact hstuck a hstops

/-- After {lit}`shut_down_threads` has been called, and as long as {lit}`get` is called on a
nonempty buffer only, the threads make no more moves than {name}`Threads.stopWork` says, whoever
moves when; they can always go on until nobody can move; and then all threads have returned, and
{lit}`shut_down_threads` has returned or waits for ever, according to whether
{lit}`create_and_start_threads` had created all threads.  Or else the consumer has come to a
{lit}`get` from the empty buffer. -/
theorem shutDown_ends
    (hreach : (threadSystem created consumerCreated).ReachableVia GetsFromNonempty s)
    (hflag : s.shuttingDown = true) :
    (∀ run s', (∀ a ∈ run, Action.IsStopping a) →
        (soundThreads created consumerCreated).run s run = some s' →
        run.length ≤ s.stopWork ∧ ConsumesOnlyProduced s' ∧
          ((soundThreads created consumerCreated).Stuck Action.IsStopping s' →
            Stopped created consumerCreated s' ∨ BeforeEmptyGet s')) ∧
      ∃ run s', (∀ a ∈ run, Action.IsStopping a) ∧
        (soundThreads created consumerCreated).run s run = some s' ∧
        (soundThreads created consumerCreated).Stuck Action.IsStopping s' := by
  have hvariant := (stopWork_variant created consumerCreated).restrict GetsFromNonempty
  refine ⟨fun run s' hstops hrun => ?_, hvariant.exists_stuck ⟨hreach.reachable, hflag⟩⟩
  rcases hvariant.length_le ⟨hreach.reachable, hflag⟩ hstops hrun with ⟨⟨hreach', hflag'⟩, hle⟩
  have hsound : BufferInv s' := by
    rw [soundThreads, System.restrict_run] at hrun
    refine (hreach.runVia hrun).invariant BufferInv ?_ ?_
    · rintro s ⟨garbage, rfl⟩
      exact bufferInv_start garbage created consumerCreated
    · exact fun s a s' hs hget hstep => threadStep_bufferInv hs hget hstep
  exact ⟨by omega, hsound.consumesOnlyProduced, stopped_or_beforeEmptyGet hreach' hflag'⟩

/-- When all threads have returned, nobody can move. -/
theorem stuck_of_returned (hmain : s.producing .main = none) (htopic : ∀ i, s.topic i = .returned)
    (hconsumer : s.consumer = .returned) (hshutDown : s.shutDown = .returned) :
    (soundThreads created consumerCreated).Stuck Action.IsStopping s := by
  apply System.Stuck.restrict
  intro a hstops
  cases a with
  | publish | respond | spurious => exact absurd hstops (by simp [Action.IsStopping, Action.IsOwn])
  | main => simp [threadSystem, threadStep, hmain]
  | topic i => simp [threadSystem, threadStep, produce, htopic i]
  | consumer wake => simp [threadSystem, threadStep, consume, hconsumer]
  | shutDown => simp [threadSystem, threadStep, shutDownThreads, hshutDown]

/-- The thread of topic 0 goes to sleep, and {lit}`shut_down_threads` sets the flag. -/
def sleepAndShutDown : List (Action topicsNum) :=
  List.replicate 4 (.topic 0) ++ [.shutDown]

/-- The thread is woken, and all threads return. -/
def wakeAndReturn : List (Action topicsNum) :=
  List.replicate 5 .shutDown ++ List.replicate 9 (.topic 0) ++ List.replicate 2 (.topic 1) ++
    List.replicate 2 (.topic 2) ++ List.replicate 2 (.consumer none) ++ [.shutDown]

theorem shutDown_ends_sleepAndShutDown :
    ∃ s s' : Threads topicsNum, s.topic 0 = .waiting ∧ wakeAndReturn.length ≤ s.stopWork ∧
      ConsumesOnlyProduced s' ∧ Stopped (fun _ => true) true s' ∧ s'.shutDown = .returned := by
  have hfirst : (threadSystem (fun _ : Fin topicsNum => true) true).ReachableVia GetsFromNonempty
      (Threads.start (fun _ => ⟨none, .connectionSocket 0⟩) (fun _ => true) true) :=
    System.ReachableVia.start ⟨_, rfl⟩
  have hrun : ((threadSystem (fun _ : Fin topicsNum => true) true).runVia GetsFromNonempty
      (Threads.start (fun _ => ⟨none, .connectionSocket 0⟩) (fun _ => true) true)
      sleepAndShutDown).map (fun s => (s.topic 0, s.shuttingDown)) = some (.waiting, true) := rfl
  rcases Option.map_eq_some_iff.mp hrun with ⟨s, hs, heq⟩
  rw [Prod.mk.injEq] at heq
  have hthen : (((threadSystem (fun _ : Fin topicsNum => true) true).runVia GetsFromNonempty
      (Threads.start (fun _ => ⟨none, .connectionSocket 0⟩) (fun _ => true) true)
      sleepAndShutDown).bind fun s =>
        (soundThreads (fun _ : Fin topicsNum => true) true).run s wakeAndReturn).map
      (fun s => (s.producing .main, s.topic 0, s.topic 1, s.topic 2, s.consumer, s.shutDown)) =
      some (none, .returned, .returned, .returned, .returned, .returned) := rfl
  rw [hs, Option.bind_some] at hthen
  rcases Option.map_eq_some_iff.mp hthen with ⟨s', hs', heq'⟩
  simp only [Prod.mk.injEq] at heq'
  rcases heq' with ⟨hmain, htopic₀, htopic₁, htopic₂, hconsumer, hshutDown⟩
  have htopic : ∀ i : Fin topicsNum, s'.topic i = .returned :=
    Fin.forall_fin_succ.mpr ⟨htopic₀, Fin.forall_fin_succ.mpr ⟨htopic₁,
      Fin.forall_fin_one.mpr htopic₂⟩⟩
  have hstops : ∀ a ∈ wakeAndReturn, Action.IsStopping a := by
    intro a ha
    simp only [wakeAndReturn, List.mem_append, List.mem_replicate, List.mem_singleton] at ha
    rcases ha with ((((⟨-, rfl⟩ | ⟨-, rfl⟩) | ⟨-, rfl⟩) | ⟨-, rfl⟩) | ⟨-, rfl⟩) | rfl
    · exact .inr rfl
    · exact .inl trivial
    · exact .inl trivial
    · exact .inl trivial
    · exact .inl trivial
    · exact .inr rfl
  rcases (shutDown_ends (hfirst.runVia hs) heq.2).1 wakeAndReturn s' hstops hs' with
    ⟨hle, hproduced, hend⟩
  rcases hend (stuck_of_returned hmain htopic hconsumer hshutDown) with hstopped | ⟨hget, -⟩
  · exact ⟨s, s', heq.1, hle, hproduced, hstopped, hshutDown⟩
  · rw [hconsumer] at hget
    contradiction

end End

end Broker
end PubSub
