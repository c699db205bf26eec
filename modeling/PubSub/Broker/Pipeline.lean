import PubSub.Broker.Conservation

/-!
# The broker's threads as a pipeline

Seen from outside, the message queues, the outgoing buffer and the threads between
them are one first-in first-out queue for every topic and one for the responses.
The consumer takes from any of them; nothing else can be observed.

Main results:

- Definition {lit}`pipeline`: the queues as a transition system of their own.
- Theorem {lit}`Pipeline.accounted`: in every run of the pipeline, what has been delivered of a
  topic and what waits add up to what has been published.
- Theorem {lit}`threads_refine_pipeline`: as long as nobody shuts them down, every step of the
  threads is an event of the pipeline or none.
- Theorem {lit}`taken_prefix_published`: so the consumer takes the messages of a topic in the
  order in which they were published.
-/

namespace PubSub
namespace Broker

open Foundations Threads

variable {n : Nat}

/-! ## The pipeline -/

/-- What waits, topic by topic, what has been published, and what has been delivered. -/
structure Pipeline (n : Nat) where
  published : Fin n → List Bytes
  messages : Fin n → List Bytes
  responses : List (OutgoingBufferElement n)
  delivered : List (OutgoingBufferElement n)

/-- The observable events. -/
inductive PipelineEvent (n : Nat) where
  | publish (t : Fin n) (message : Bytes)
  | respond (response : OutgoingBufferElement n)
  | deliverMessage (t : Fin n)
  | deliverResponse
deriving DecidableEq, Repr

/-- One event: messages and responses enter at the end of their queue and leave it at the
front. -/
def pipelineStep (p : Pipeline n) : PipelineEvent n → Option (Pipeline n)
  | .publish t message =>
      some { p with
        published := Function.update p.published t (p.published t ++ [message])
        messages := Function.update p.messages t (p.messages t ++ [message]) }
  | .respond response =>
      if response.isResponse then some { p with responses := p.responses ++ [response] }
      else none
  | .deliverMessage t =>
      match p.messages t with
      | [] => none
      | message :: rest =>
          some { p with
            messages := Function.update p.messages t rest
            delivered := p.delivered ++ [⟨some message, .subscriberConnectionSockets t⟩] }
  | .deliverResponse =>
      match p.responses with
      | [] => none
      | response :: rest =>
          some { p with responses := rest, delivered := p.delivered ++ [response] }

/-- The pipeline of a broker with {lit}`n` topics. -/
def pipeline (n : Nat) : System (Pipeline n) (PipelineEvent n) where
  initial p := p = ⟨fun _ => [], fun _ => [], [], []⟩
  step := pipelineStep

/-- The responses that wait are responses, and the messages of a topic that have been
delivered and those that wait are the published ones, in order. -/
structure Pipeline.Accounted (p : Pipeline n) : Prop where
  responses : ∀ e ∈ p.responses, e.isResponse = true
  messages : ∀ t, messagesFor t p.delivered ++ (p.messages t).map some =
    (p.published t).map some

/-- Every event keeps the account. -/
theorem pipelineStep_accounted {p p' : Pipeline n} {event : PipelineEvent n}
    (hp : p.Accounted) (hstep : pipelineStep p event = some p') : p'.Accounted := by
  cases event with
  | publish t message =>
      simp only [pipelineStep, Option.some.injEq] at hstep
      subst hstep
      refine ⟨hp.responses, fun i => ?_⟩
      have hold := hp.messages i
      by_cases hi : i = t
      · subst hi
        simp only [Function.update_self, List.map_append]
        rw [← List.append_assoc, hold]
      · simpa only [Function.update_of_ne hi] using hold
  | respond response =>
      simp only [pipelineStep] at hstep
      split at hstep
      · next hresponse =>
          rw [Option.some.injEq] at hstep
          subst hstep
          refine ⟨fun e he => ?_, hp.messages⟩
          rcases List.mem_append.mp he with hold | hnew
          · exact hp.responses e hold
          · rw [List.mem_singleton] at hnew
            rw [hnew, hresponse]
      · contradiction
  | deliverMessage t =>
      simp only [pipelineStep] at hstep
      split at hstep
      · contradiction
      · next message rest hmessages =>
          rw [Option.some.injEq] at hstep
          subst hstep
          refine ⟨hp.responses, fun i => ?_⟩
          have hold := hp.messages i
          rw [messagesFor_append, messagesFor_subscribers rfl]
          by_cases hi : i = t
          · subst hi
            rw [hmessages] at hold
            simpa using hold
          · simpa [hi] using hold
  | deliverResponse =>
      simp only [pipelineStep] at hstep
      split at hstep
      · contradiction
      · next response rest hresponses =>
          rw [Option.some.injEq] at hstep
          subst hstep
          have hresponse := hp.responses response (by simp [hresponses])
          refine ⟨fun e he => hp.responses e (by simp [hresponses, he]), fun i => ?_⟩
          rw [messagesFor_append, messagesFor_response hresponse, List.append_nil]
          exact hp.messages i

/-- In every run, the delivered messages of a topic are the first ones that were published
to it, each delivered once. -/
theorem Pipeline.accounted {p : Pipeline n} (hreach : (pipeline n).Reachable p) :
    p.Accounted := by
  refine System.Reachable.invariant Pipeline.Accounted ?_ ?_ hreach
  · rintro p rfl
    exact ⟨by simp, by simp [messagesFor]⟩
  · exact fun p event p' hp hstep => pipelineStep_accounted hp hstep

/-! ## What a step of the threads does to the histories -/

/-- The histories that can be observed. -/
structure History (n : Nat) where
  published : Fin n → List Bytes
  responses : List (OutgoingBufferElement n)
  taken : List (OutgoingBufferElement n)

/-- What has happened so far that can be observed. -/
def Threads.history (s : Threads n) : History n :=
  ⟨s.log.published, s.log.responses, s.log.taken⟩

/-- What a step can add to the histories. -/
inductive HistoryStep (s s' : Threads n) : Prop
  | same (h : s'.history = s.history)
  | publish (t : Fin n) (message : Bytes)
      (h : s'.history = { s.history with
        published := Function.update s.log.published t (s.log.published t ++ [message]) })
  | respond (e : OutgoingBufferElement n) (he : s.heldBy .main = some e)
      (h : s'.history = { s.history with responses := s.log.responses ++ [e] })
  | take (hpc : s.consumer = .get)
      (h : s'.history = { s.history with
        taken := s.log.taken ++ [s.outgoingBuffer.get.1] })

/-- {lit}`produce_new_message` adds a response if the main thread puts one. -/
theorem produceNewMessage_history {s s' : Threads n} {w : ThreadId n} {pc : ProducePc n}
    (hprod : s.producing w = some pc) (hstep : produceNewMessage s w pc = some s') :
    HistoryStep s s' := by
  cases produceNewMessage_cases hstep with
  | move | giveUp => exact HistoryStep.same rfl
  | put e =>
      by_cases hw : w = .main
      · subst hw
        have he : s.heldBy .main = some e := by simp [heldBy, hprod, ProducePc.element]
        exact HistoryStep.respond e he rfl
      · apply HistoryStep.same
        simp [history, setProducing, wakeFillCv, hw]

/-- The consumer adds an element when it calls {lit}`get`. -/
theorem consume_history {s s' : Threads n} {wake : Option (ThreadId n)}
    (hstep : consume s wake = some s') : HistoryStep s s' := by
  cases consume_cases hstep with
  | move | sent | signal => exact HistoryStep.same rfl
  | get hpc => exact HistoryStep.take hpc rfl
  | leave hpc hwake =>
      rcases wakeEmptyCv_cases hwake with rfl | ⟨w, rfl⟩
      all_goals exact HistoryStep.same rfl

/-- Every step adds at most one event to the histories. -/
theorem threadStep_history {s s' : Threads n} {a : Action n}
    (hrun : KeepsRunning s a) (hstep : threadStep s a = some s') : HistoryStep s s' := by
  cases threadStep_cases hstep with
  | @publish t message node s' hstep =>
      rcases enqueue_cases hstep with ⟨-, -, -, nodes, q, -, rfl⟩
      exact HistoryStep.publish t message rfl
  | respond hidle => exact HistoryStep.same rfl
  | main hprod hstep => exact produceNewMessage_history hprod hstep
  | topic hstep =>
      cases produce_cases hstep with
      | call hprod hcall => exact produceNewMessage_history hprod hcall
      | move | callNull | take | signal => exact HistoryStep.same rfl
  | consumer hstep => exact consume_history hstep
  | shutDown hstep => exact absurd rfl hrun
  | spurious w =>
      apply HistoryStep.same
      cases w <;> rfl

/-! ## The simulation -/

/-- The pipeline has seen what the threads have done: its queues hold what the consumer has
not taken yet. -/
structure Simulates (s : Threads n) (p : Pipeline n) : Prop where
  buffer : BufferInv s
  delivery : DeliveryInv s
  published : p.published = s.log.published
  messages : ∀ t, messagesFor t s.log.taken ++ (p.messages t).map some =
    (s.log.published t).map some
  responses : responsesIn s.log.taken ++ p.responses = s.log.responses
  delivered : p.delivered = s.log.taken

/-- The element that {lit}`get` returns is the front of the queue that it belongs to. -/
theorem Simulates.get_front {s : Threads n} {p : Pipeline n} (hp : Simulates s p)
    (hcount : s.outgoingBuffer.count ≠ 0) :
    (∃ t message rest, p.messages t = message :: rest ∧
        s.outgoingBuffer.get.1 = ⟨some message, .subscriberConnectionSockets t⟩) ∨
      ∃ rest, p.responses = s.outgoingBuffer.get.1 :: rest ∧
        s.outgoingBuffer.get.1.isResponse = true := by
  rcases hp.buffer.ring with ⟨xs, hholds, hput⟩
  rcases hp.delivery.queues with ⟨ms, -, -, hconserved⟩
  cases xs with
  | nil => exact absurd hholds.count_eq hcount
  | cons x xs =>
      have hget : s.outgoingBuffer.get.1 = x := (OutgoingBuffer.get_holds hholds).1
      rw [hget]
      cases hsockets : x.oneOrMoreSockets with
      | subscriberConnectionSockets t =>
          left
          have hmessages := hp.messages t
          rw [← hconserved t, hput, ← List.singleton_append, messagesFor_append,
            messagesFor_append, messagesFor_subscribers hsockets, if_pos rfl] at hmessages
          simp only [List.append_assoc, List.append_cancel_left_eq,
            List.singleton_append] at hmessages
          rcases List.map_eq_cons_iff.mp hmessages with ⟨message, rest, hfront, hmessage, -⟩
          refine ⟨t, message, rest, hfront, ?_⟩
          rw [hmessage, ← hsockets]
      | connectionSocket socket =>
          right
          have hresponse : x.isResponse = true := by
            simp [OutgoingBufferElement.isResponse, hsockets]
          have hresponses := hp.responses
          rw [← hp.delivery.responses, hput, ← List.singleton_append, responsesIn_append,
            responsesIn_append, responsesIn_response hresponse,
            List.append_cancel_left_eq] at hresponses
          exact ⟨_, hresponses, hresponse⟩

/-- Initially nothing has been published. -/
theorem simulates_start (garbage : Nat → OutgoingBufferElement n) (created : Fin n → Bool)
    (consumerCreated : Bool) :
    Simulates (Threads.start garbage created consumerCreated) ⟨fun _ => [], fun _ => [], [], []⟩
    where
  buffer := bufferInv_start garbage created consumerCreated
  delivery := deliveryInv_start garbage created consumerCreated
  published := rfl
  messages := by simp [Threads.start, messagesFor]
  responses := rfl
  delivered := rfl

/-- A step of the threads is one event of the pipeline, or none. -/
theorem threadStep_simulates {s s' : Threads n} {p : Pipeline n} {a : Action n}
    (hp : Simulates s p) (hrun : KeepsRunning s a) (hstep : threadStep s a = some s') :
    Simulates s' p ∨ ∃ event p', pipelineStep p event = some p' ∧ Simulates s' p' := by
  have hget : GetsFromNonempty s a := getsFromNonempty_of_running hp.buffer hp.delivery.running a
  have hbuffer : BufferInv s' := threadStep_bufferInv hp.buffer hget hstep
  have hdelivery : DeliveryInv s' := threadStep_deliveryInv hp.delivery hrun hstep
  cases threadStep_history hrun hstep with
  | same h =>
      left
      simp only [history, History.mk.injEq] at h
      rcases h with ⟨hpublished, hresponses, htaken⟩
      refine ⟨hbuffer, hdelivery, ?_, ?_, ?_, ?_⟩
      · rw [hpublished, hp.published]
      · rw [hpublished, htaken]
        exact hp.messages
      · rw [hresponses, htaken, hp.responses]
      · rw [htaken, hp.delivered]
  | publish t message h =>
      right
      simp only [history, History.mk.injEq] at h
      rcases h with ⟨hpublished, hresponses, htaken⟩
      refine ⟨.publish t message, _, rfl, hbuffer, hdelivery, ?_, ?_, ?_, ?_⟩
      · rw [hpublished, hp.published]
      · intro i
        have hold := hp.messages i
        rw [hpublished, htaken]
        by_cases hi : i = t
        · subst hi
          simp only [Function.update_self, List.map_append]
          rw [← List.append_assoc, hold]
        · simpa only [Function.update_of_ne hi] using hold
      · rw [hresponses, htaken, hp.responses]
      · rw [htaken, hp.delivered]
  | respond e he h =>
      right
      simp only [history, History.mk.injEq] at h
      rcases h with ⟨hpublished, hresponses, htaken⟩
      have hresponse := hp.delivery.heldByMain e he
      have hevent : pipelineStep p (.respond e) =
          some { p with responses := p.responses ++ [e] } := by simp [pipelineStep, hresponse]
      refine ⟨.respond e, _, hevent, hbuffer, hdelivery, ?_, ?_, ?_, ?_⟩
      · rw [hpublished, hp.published]
      · rw [hpublished, htaken]
        exact hp.messages
      · rw [hresponses, htaken, ← hp.responses, List.append_assoc]
      · rw [htaken, hp.delivered]
  | take hpc h =>
      right
      simp only [history, History.mk.injEq] at h
      rcases h with ⟨hpublished, hresponses, htaken⟩
      have hcount : s.outgoingBuffer.count ≠ 0 :=
        getsFromNonempty_of_running hp.buffer hp.delivery.running (.consumer none) hpc
      rcases hp.get_front hcount with ⟨t, message, rest, hfront, helement⟩ |
        ⟨rest, hfront, hresponse⟩
      · have hevent : pipelineStep p (.deliverMessage t) =
            some { p with
              messages := Function.update p.messages t rest
              delivered := p.delivered ++ [⟨some message, .subscriberConnectionSockets t⟩] } := by
          simp [pipelineStep, hfront]
        refine ⟨.deliverMessage t, _, hevent, hbuffer, hdelivery, ?_, ?_, ?_, ?_⟩
        · rw [hpublished, hp.published]
        · intro i
          have hold := hp.messages i
          rw [hpublished, htaken, helement, messagesFor_append, messagesFor_subscribers rfl]
          by_cases hi : i = t
          · subst hi
            rw [hfront] at hold
            simpa using hold
          · simpa [hi] using hold
        · rw [hresponses, htaken, helement, responsesIn_append, responsesIn_subscribers rfl,
            List.append_nil]
          exact hp.responses
        · rw [htaken, helement, hp.delivered]
      · have hevent : pipelineStep p .deliverResponse =
            some { p with
              responses := rest
              delivered := p.delivered ++ [s.outgoingBuffer.get.1] } := by
          simp [pipelineStep, hfront]
        refine ⟨.deliverResponse, _, hevent, hbuffer, hdelivery, ?_, ?_, ?_, ?_⟩
        · rw [hpublished, hp.published]
        · intro i
          rw [hpublished, htaken, messagesFor_append, messagesFor_response hresponse,
            List.append_nil]
          exact hp.messages i
        · rw [hresponses, htaken, responsesIn_append, responsesIn_response hresponse,
            List.append_assoc, List.singleton_append, ← hfront]
          exact hp.responses
        · rw [htaken, hp.delivered]

/-- The pipeline simulates the threads of the broker. -/
theorem threads_refine_pipeline (created : Fin n → Bool) (consumerCreated : Bool) :
    System.Simulation (threadSystem created consumerCreated) KeepsRunning (pipeline n)
      Simulates where
  initial := by
    rintro s ⟨garbage, rfl⟩
    exact ⟨_, rfl, simulates_start garbage created consumerCreated⟩
  step := fun s a s' p hp hrun hstep => threadStep_simulates hp hrun hstep

/-- What the consumer of the broker has taken has been delivered in some run of the
pipeline. -/
theorem exists_pipeline {created : Fin n → Bool} {consumerCreated : Bool} {s : Threads n}
    (hreach : (threadSystem created consumerCreated).ReachableVia KeepsRunning s) :
    ∃ p, (pipeline n).Reachable p ∧ p.delivered = s.log.taken ∧
      p.published = s.log.published := by
  rcases (threads_refine_pipeline created consumerCreated).reachable hreach with ⟨p, hp, hsim⟩
  exact ⟨p, hp, hsim.delivered, hsim.published⟩

/-- The messages of a topic that the consumer has taken are the first ones that were published
to it, in their order and each taken once. -/
theorem taken_prefix_published {created : Fin n → Bool} {consumerCreated : Bool} {s : Threads n}
    (hreach : (threadSystem created consumerCreated).ReachableVia KeepsRunning s) (t : Fin n) :
    messagesFor t s.log.taken <+: (s.log.published t).map some := by
  rcases exists_pipeline hreach with ⟨p, hp, hdelivered, hpublished⟩
  rw [← hdelivered, ← hpublished]
  exact ⟨_, (Pipeline.accounted hp).messages t⟩

end Broker
end PubSub
