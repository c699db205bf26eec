import PubSub.Broker.BufferLoops

/-!
# Wake-ups

No thread sleeps on although what it waits for has happened: without a shutdown, because
whoever brings it about wakes one of the threads that wait for it, and in a shutdown,
because {lit}`shut_down_threads` sets the flag before it wakes anybody and wakes the threads of a
critical section from inside it.

Main results:

- Theorem {lit}`noLostWakeUps_of_keepsRunning`: in a run without a shutdown, a thread waits
  only while it has to.
- Theorem {lit}`shutDown_wakes_everybody`: after {lit}`shut_down_threads` has finished waking
  threads, no topic thread and not the consumer waits, now or later, and no element
  without a message has been put.
-/

namespace PubSub
namespace Broker

open Foundations Threads

variable {n : Nat} {created : Fin n → Bool} {consumerCreated : Bool}

/-! ## Without a shutdown -/

/-- Whoever waits without having been woken has a reason, as far as one can tell from
outside the critical sections.  The producers that have been woken are going to put an
element each, so as long as one waits without having been woken they fill the buffer. -/
structure NoLostWakeUps (s : Threads n) : Prop where
  consumer : s.bufferLock = none → s.consumer = .waiting → s.outgoingBuffer.count = 0
  topic : ∀ i, s.queueLock i = none → s.topic i = .waiting → (s.messageQueue i).head = none
  producer : s.bufferLock = none → ∀ w, s.waitsForSpace w = true →
    (maxOutgoingBufferSize : Int) ≤ s.outgoingBuffer.count + (wokenProducers s.producing).card

theorem noLostWakeUps_of_keepsRunning {s : Threads n}
    (hreach : (threadSystem created consumerCreated).ReachableVia KeepsRunning s) :
    NoLostWakeUps s := by
  have hrunning : s.shuttingDown = false := (invariants_of_keepsRunning hreach).2.running
  have hloops := bufferLoopsInv_reachable hreach.reachable
  constructor
  case consumer =>
    intro _ hwaiting
    exact hloops.waits.empty (by rw [bufferLoops, hwaiting]; rfl)
  case topic =>
    intro i _ hwaiting
    exact (queueWaits_reachable hreach.reachable i).empty (Or.inr hwaiting)
  case producer =>
    intro hfree w hwaits
    rcases waitsForSpace_iff.mp hwaits with ⟨e, hwait⟩
    exact hloops.space.quiet_of_free hloops.mutex hfree hrunning hwait

/-- The thread of topic 0 and the consumer go to sleep. -/
def fallAsleep : List (Action topicsNum) :=
  List.replicate 4 (.topic 0) ++ List.replicate 4 (.consumer none)

/-- The main thread fills the buffer with responses, and waits with another one. -/
def fillBuffer : List (Action topicsNum) :=
  (List.replicate 100 (.respond [byteOf '1'] 7 :: List.replicate 4 .main)).flatten ++
    .respond [byteOf '1'] 7 :: List.replicate 3 .main

/-- First two threads wait for something to handle, then the main thread waits for space. -/
theorem noLostWakeUps_fallAsleep :
    ∃ s s' : Threads topicsNum, s.topic 0 = .waiting ∧ s.consumer = .waiting ∧ NoLostWakeUps s ∧
      s'.topic 0 = .waiting ∧ s'.waitsForSpace .main = true ∧ s'.bufferLock = none ∧
      s'.outgoingBuffer.count = maxOutgoingBufferSize ∧ NoLostWakeUps s' := by
  have hrun : ((threadSystem (fun _ : Fin topicsNum => true) true).runVia KeepsRunning
      (Threads.start (fun _ => ⟨none, .connectionSocket 0⟩) (fun _ => true) true)
      fallAsleep).map (fun s => (s.topic 0, s.consumer)) = some (.waiting, .waiting) := rfl
  rcases Option.map_eq_some_iff.mp hrun with ⟨s, hs, heq⟩
  have hthen : (((threadSystem (fun _ : Fin topicsNum => true) true).runVia KeepsRunning
      (Threads.start (fun _ => ⟨none, .connectionSocket 0⟩) (fun _ => true) true)
      fallAsleep).bind fun s =>
        (threadSystem (fun _ : Fin topicsNum => true) true).runVia KeepsRunning s fillBuffer).map
      (fun s : Threads topicsNum =>
        (s.topic 0, s.waitsForSpace .main, s.bufferLock, s.outgoingBuffer.count)) =
      some (.waiting, true, none, (maxOutgoingBufferSize : Int)) := by
    decide +kernel
  rw [hs, Option.bind_some] at hthen
  rcases Option.map_eq_some_iff.mp hthen with ⟨s', hs', heq'⟩
  simp only [Prod.mk.injEq] at heq heq'
  have hfirst : (threadSystem (fun _ : Fin topicsNum => true) true).ReachableVia KeepsRunning
      (Threads.start (fun _ => ⟨none, .connectionSocket 0⟩) (fun _ => true) true) :=
    System.ReachableVia.start ⟨_, rfl⟩
  have hreach := hfirst.runVia hs
  exact ⟨s, s', heq.1, heq.2, noLostWakeUps_of_keepsRunning hreach, heq'.1, heq'.2.1, heq'.2.2.1,
    heq'.2.2.2, noLostWakeUps_of_keepsRunning (hreach.runVia hs')⟩

/-! ## In a shutdown -/

/-- Whoever has woken the threads at the outgoing buffer has woken the topic threads
before. -/
theorem ShutDownPc.hasWokenQueue_of_hasWokenBuffer {pc : ShutDownPc}
    (hwoken : pc.hasWokenBuffer = true) (i : Fin n) : pc.hasWokenQueue i = true := by
  cases pc with
  | notCalled | wakeQueue | wakeBuffer => contradiction
  | loop | waiting | woken | returned => rfl

/-- No topic thread and not the consumer, nor the main thread inside
{lit}`produce_new_message`, waits on a condition variable without having been woken, or is about
to. -/
structure NobodyWaits (s : Threads n) : Prop where
  topic : ∀ i, s.topic i ≠ .sleep ∧ s.topic i ≠ .waiting
  producer : ∀ w pc, s.producing w = some pc → pc.waits = false
  consumer : s.consumer.waits = false

theorem nobodyWaits_of_hasWokenBuffer {s : Threads n}
    (hreach : (threadSystem created consumerCreated).Reachable s)
    (hwoken : s.shutDown.hasWokenBuffer = true) : NobodyWaits s := by
  have hawake := (bufferLoopsInv_reachable hreach).waits.awake hwoken
  refine ⟨fun i => ?_, hawake.1, hawake.2⟩
  exact (queueWaits_reachable hreach i).awake
    (ShutDownPc.hasWokenQueue_of_hasWokenBuffer hwoken i)

/-- A run does not go back behind the wake-ups. -/
theorem hasWokenBuffer_of_run {s s' : Threads n}
    (hreach : (threadSystem created consumerCreated).Reachable s)
    (hwoken : s.shutDown.hasWokenBuffer = true) {run : List (Action n)}
    (hrun : (threadSystem created consumerCreated).run s run = some s') :
    s'.shutDown.hasWokenBuffer = true := by
  induction run generalizing s with
  | nil =>
      rw [System.run_nil, Option.some.injEq] at hrun
      exact hrun ▸ hwoken
  | cons a run ih =>
      rw [System.run_cons, Option.bind_eq_some_iff] at hrun
      rcases hrun with ⟨s₁, hstep, hrest⟩
      have hside := threadStep_bufferStep (callsInv_reachable hreach)
        (queueWaits_reachable hreach) hstep
      exact ih (System.Reachable.step hreach hstep) (hside.hasWoken hwoken) hrest

/-- After {lit}`shut_down_threads` has finished waking threads nobody waits, in this state and
in every later one; and in every state, all elements that have been put have a message. -/
theorem shutDown_wakes_everybody {s : Threads n}
    (hreach : (threadSystem created consumerCreated).Reachable s) :
    (s.shutDown.hasWokenBuffer = true → ∀ run s',
      (threadSystem created consumerCreated).run s run = some s' → NobodyWaits s') ∧
    ∀ e ∈ s.log.put, e.message ≠ none := by
  refine ⟨fun hwoken run s' hrun => ?_, (bufferLoopsInv_reachable hreach).messages.put⟩
  exact nobodyWaits_of_hasWokenBuffer (hreach.run hrun) (hasWokenBuffer_of_run hreach hwoken hrun)

/-- The thread of topic 0 and the consumer go to sleep, and {lit}`shut_down_threads` wakes them. -/
theorem shutDown_wakes_everybody_fallAsleep :
    ∃ s : Threads topicsNum, (threadSystem (fun _ => true) true).Reachable s ∧
      s.shutDown.hasWokenBuffer = true ∧ s.topic 0 = .woken ∧ s.consumer = .woken ∧
      NobodyWaits s := by
  have hrun : ((threadSystem (fun _ : Fin topicsNum => true) true).run
      (Threads.start (fun _ => ⟨none, .connectionSocket 0⟩) (fun _ => true) true)
      (fallAsleep ++ List.replicate 6 .shutDown)).map
        (fun s => (s.topic 0, s.consumer, s.shutDown.hasWokenBuffer)) =
      some (.woken, .woken, true) := rfl
  rcases Option.map_eq_some_iff.mp hrun with ⟨s, hs, heq⟩
  simp only [Prod.mk.injEq] at heq
  rcases heq with ⟨htopic, hconsumer, hwoken⟩
  have hfirst : (threadSystem (fun _ : Fin topicsNum => true) true).Reachable
      (Threads.start (fun _ => ⟨none, .connectionSocket 0⟩) (fun _ => true) true) :=
    System.Reachable.start ⟨_, rfl⟩
  have hreach := hfirst.run hs
  have hwakes := shutDown_wakes_everybody hreach
  exact ⟨s, hreach, hwoken, htopic, hconsumer, hwakes.1 hwoken [] s rfl⟩

end Broker
end PubSub
