import PubSub.Broker.BufferInvariant

/-!
# No message is lost, duplicated or reordered

As long as the broker is not shutting down, every message published to a topic
is in exactly one of four places: the consumer has taken it, it is in the
outgoing buffer, the thread of the topic holds it between {lit}`dequeue` and {lit}`put`, or
it is in the message queue of the topic.  Read in this order, the four places
give back the sequence of published messages.  The responses of the main thread
are in the first two of these places.

Main results:

- Structure {lit}`DeliveryInv`: the invariant behind this, over the message queues
  in their node store and the elements that have been put so far.
- Theorem {lit}`threadStep_deliveryInv`: every step but a request to shut down
  keeps it.
- Theorem {lit}`messages_conserved`: the equation between the four places and the
  published messages, in every reachable state.
-/

namespace PubSub
namespace Broker

open Foundations Threads

variable {n : Nat}

/-! ## Messages and responses in a list of elements -/

/-- The messages for the subscribers of topic {lit}`t` among the elements, in order. -/
def messagesFor (t : Fin n) (es : List (OutgoingBufferElement n)) : List (Option Bytes) :=
  (es.filter fun e => e.oneOrMoreSockets = .subscriberConnectionSockets t).map
    OutgoingBufferElement.message

/-- Is this element for one connection? -/
def OutgoingBufferElement.isResponse (e : OutgoingBufferElement n) : Bool :=
  match e.oneOrMoreSockets with
  | .connectionSocket _ => true
  | .subscriberConnectionSockets _ => false

/-- The responses among the elements, in order. -/
def responsesIn (es : List (OutgoingBufferElement n)) : List (OutgoingBufferElement n) :=
  es.filter OutgoingBufferElement.isResponse

@[simp]
theorem messagesFor_nil (t : Fin n) : messagesFor t [] = [] :=
  rfl

@[simp]
theorem messagesFor_append (t : Fin n) (es es' : List (OutgoingBufferElement n)) :
    messagesFor t (es ++ es') = messagesFor t es ++ messagesFor t es' := by
  simp [messagesFor]

@[simp]
theorem responsesIn_append (es es' : List (OutgoingBufferElement n)) :
    responsesIn (es ++ es') = responsesIn es ++ responsesIn es' := by
  simp [responsesIn]

/-- An element for the subscribers of one topic is a message of that topic alone. -/
theorem messagesFor_subscribers {e : OutgoingBufferElement n} {i : Fin n}
    (he : e.oneOrMoreSockets = .subscriberConnectionSockets i) (t : Fin n) :
    messagesFor t [e] = if t = i then [e.message] else [] := by
  by_cases ht : t = i
  · simp [messagesFor, he, ht]
  · simp [messagesFor, he, ht, Ne.symm ht]

theorem responsesIn_subscribers {e : OutgoingBufferElement n} {i : Fin n}
    (he : e.oneOrMoreSockets = .subscriberConnectionSockets i) : responsesIn [e] = [] := by
  simp [responsesIn, OutgoingBufferElement.isResponse, he]

/-- A response is a message of no topic. -/
theorem messagesFor_response {e : OutgoingBufferElement n} (he : e.isResponse = true)
    (t : Fin n) : messagesFor t [e] = [] := by
  unfold OutgoingBufferElement.isResponse at he
  split at he
  · next socket hsocket => simp [messagesFor, hsocket]
  · contradiction

theorem responsesIn_response {e : OutgoingBufferElement n} (he : e.isResponse = true) :
    responsesIn [e] = [e] := by
  simp [responsesIn, he]

/-! ## Elements in the hands of a thread -/

/-- The element that a thread is about to put. -/
def Threads.heldBy (s : Threads n) (w : ThreadId n) : Option (OutgoingBufferElement n) :=
  (s.producing w).map ProducePc.element

/-- The message that the thread of topic {lit}`t` holds between {lit}`dequeue` and {lit}`put`. -/
def Threads.heldMessage (s : Threads n) (t : Fin n) : List (Option Bytes) :=
  ((s.heldBy (.topic t)).map OutgoingBufferElement.message).toList

@[simp]
theorem ProducePc.element_wake (pc : ProducePc n) : pc.wake.element = pc.element := by
  cases pc <;> rfl

theorem heldBy_setProducing (s : Threads n) (w : ThreadId n) (pc : Option (ProducePc n)) :
    (s.setProducing w pc).heldBy = Function.update s.heldBy w (pc.map ProducePc.element) := by
  funext w'
  by_cases hne : w' = w
  · subst hne
    simp [heldBy, setProducing]
  · simp [heldBy, setProducing, Function.update_of_ne hne]

/-- A thread that goes on inside {lit}`produce_new_message` keeps its element. -/
theorem heldBy_setProducing_of_element {s : Threads n} {w : ThreadId n} {pc : ProducePc n}
    (hpc : s.producing w = some pc) {pc' : ProducePc n} (helem : pc'.element = pc.element) :
    (s.setProducing w (some pc')).heldBy = s.heldBy := by
  rw [heldBy_setProducing, Option.map_some, helem]
  have hheld : s.heldBy w = some pc.element := by simp [heldBy, hpc]
  rw [← hheld, Function.update_eq_self]

/-- A wake-up takes nothing out of a thread's hands. -/
theorem heldBy_wakeProducer (s : Threads n) (w : ThreadId n) :
    (s.wakeProducer w).heldBy = s.heldBy := by
  rw [wakeProducer, heldBy_setProducing, Option.map_map]
  have hcomp : ProducePc.element ∘ ProducePc.wake = (ProducePc.element (n := n)) :=
    funext ProducePc.element_wake
  rw [hcomp]
  exact Function.update_eq_self w s.heldBy

/-! ## The invariant -/

/-- The invariant of the message queues and of the elements put so far. -/
structure DeliveryInv (s : Threads n) : Prop where
  running : s.shuttingDown = false
  heldByTopic : ∀ i e, s.heldBy (.topic i) = some e →
    s.topic i = .calling ∧ e.oneOrMoreSockets = .subscriberConnectionSockets i
  heldByMain : ∀ e, s.heldBy .main = some e → e.isResponse = true
  queues : ∃ ms, QueuesHold s.nodes s.messageQueue ms ∧
    (∀ i, s.topic i = .test ∨ s.topic i = .take → ms i ≠ []) ∧
    ∀ t, messagesFor t s.log.put ++ s.heldMessage t ++ (ms t).map some =
      (s.log.published t).map some
  responses : responsesIn s.log.put = s.log.responses

/-- Where the messages on their way are, and the histories that account for them. -/
structure InTransit (n : Nat) where
  shuttingDown : Bool
  nodes : Heap Bytes
  messageQueue : Fin n → MessageQueue
  held : ThreadId n → Option (OutgoingBufferElement n)
  published : Fin n → List Bytes
  put : List (OutgoingBufferElement n)
  responses : List (OutgoingBufferElement n)

/-- The part of the state that messages on their way are in. -/
def Threads.inTransit (s : Threads n) : InTransit n :=
  ⟨s.shuttingDown, s.nodes, s.messageQueue, s.heldBy, s.log.published, s.log.put,
    s.log.responses⟩

/-- A step that moves no message: queues, histories and the elements in the
hands of the threads stay as they are, and a topic thread passes its wait loop
only when its queue is not empty. -/
structure KeepsMessages (s s' : Threads n) : Prop where
  inTransit : s'.inTransit = s.inTransit
  topic : ∀ i, s'.topic i = s.topic i ∨ s.heldBy (.topic i) = none ∧
    (s'.topic i = .test ∨ s'.topic i = .take →
      s.topic i = .test ∨ (s.messageQueue i).head ≠ none)

/-- A step that moves no message keeps the invariant. -/
theorem DeliveryInv.of_keepsMessages {s s' : Threads n} (hs : DeliveryInv s)
    (hkeep : KeepsMessages s s') : DeliveryInv s' := by
  have hview := hkeep.inTransit
  simp only [inTransit, InTransit.mk.injEq] at hview
  rcases hview with ⟨hflag, hnodes, hqueue, hheld, hpublished, hput, hresponses⟩
  constructor
  case running => rw [hflag, hs.running]
  case heldByTopic =>
    intro i e he
    rw [hheld] at he
    rcases hs.heldByTopic i e he with ⟨hcalling, hsockets⟩
    refine ⟨?_, hsockets⟩
    rcases hkeep.topic i with hsame | ⟨hnone, -⟩
    · rw [hsame, hcalling]
    · rw [hnone] at he
      contradiction
  case heldByMain =>
    intro e he
    rw [hheld] at he
    exact hs.heldByMain e he
  case queues =>
    rcases hs.queues with ⟨ms, hq, hnonempty, hconserved⟩
    refine ⟨ms, ?_, ?_, ?_⟩
    · rwa [hnodes, hqueue]
    · intro i hi
      rcases hkeep.topic i with hsame | ⟨-, hpass⟩
      · rw [hsame] at hi
        exact hnonempty i hi
      · rcases hpass hi with htest | hhead
        · exact hnonempty i (Or.inl htest)
        · exact fun hnil => hhead ((hq.head_eq_none_iff i).mpr hnil)
    · intro t
      rw [hput, hpublished, heldMessage, hheld]
      exact hconserved t
  case responses =>
    rw [hput, hresponses]
    exact hs.responses

/-- A topic thread outside {lit}`produce_new_message` holds no element. -/
theorem DeliveryInv.heldBy_eq_none {s : Threads n} (hs : DeliveryInv s) {i : Fin n}
    (hpc : s.topic i ≠ .calling) : s.heldBy (.topic i) = none := by
  cases hheld : s.heldBy (.topic i) with
  | none => rfl
  | some e => exact absurd (hs.heldByTopic i e hheld).1 hpc

/-! ## Messages that move -/

/-- Initially there are no messages anywhere. -/
theorem deliveryInv_start (garbage : Nat → OutgoingBufferElement n) (created : Fin n → Bool)
    (consumerCreated : Bool) : DeliveryInv (Threads.start garbage created consumerCreated) where
  running := rfl
  heldByTopic := by simp [heldBy, Threads.start]
  heldByMain := by simp [heldBy, Threads.start]
  queues := by
    refine ⟨fun _ => [], initializeMessageQueue_holds, ?_, ?_⟩
    · intro i hi
      cases hcreated : created i <;> simp [Threads.start, hcreated] at hi
    · intro t
      simp [Threads.start, heldMessage, heldBy]
  responses := rfl

/-- The main thread puts a response. -/
theorem DeliveryInv.of_put_main {s s' : Threads n} (hs : DeliveryInv s)
    {e : OutgoingBufferElement n} (he : s.heldBy .main = some e)
    (hview : s'.inTransit = { s.inTransit with
      held := Function.update s.heldBy .main none
      put := s.log.put ++ [e]
      responses := s.log.responses ++ [e] })
    (htopic : s'.topic = s.topic) : DeliveryInv s' := by
  simp only [inTransit, InTransit.mk.injEq] at hview
  rcases hview with ⟨hflag, hnodes, hqueue, hheld, hpublished, hput, hresponses⟩
  constructor
  case running => rw [hflag, hs.running]
  case heldByTopic =>
    intro i e' he'
    rw [hheld, Function.update_of_ne (by simp)] at he'
    rw [htopic]
    exact hs.heldByTopic i e' he'
  case heldByMain =>
    intro e' he'
    rw [hheld, Function.update_self] at he'
    contradiction
  case queues =>
    rcases hs.queues with ⟨ms, hq, hnonempty, hconserved⟩
    refine ⟨ms, by rwa [hnodes, hqueue], by rwa [htopic], ?_⟩
    intro t
    have hheldMessage : s'.heldMessage t = s.heldMessage t := by
      rw [heldMessage, heldMessage, hheld, Function.update_of_ne (by simp)]
    rw [hput, hpublished, hheldMessage, messagesFor_append,
      messagesFor_response (hs.heldByMain e he), List.append_nil]
    exact hconserved t
  case responses =>
    rw [hput, hresponses, responsesIn_append, responsesIn_response (hs.heldByMain e he),
      hs.responses]

/-- The thread of topic {lit}`i` puts the message that it holds. -/
theorem DeliveryInv.of_put_topic {s s' : Threads n} (hs : DeliveryInv s) {i : Fin n}
    {e : OutgoingBufferElement n} (he : s.heldBy (.topic i) = some e)
    (hview : s'.inTransit = { s.inTransit with
      held := Function.update s.heldBy (.topic i) none
      put := s.log.put ++ [e] })
    (htopic : s'.topic = s.topic) : DeliveryInv s' := by
  simp only [inTransit, InTransit.mk.injEq] at hview
  rcases hview with ⟨hflag, hnodes, hqueue, hheld, hpublished, hput, hresponses⟩
  constructor
  case running => rw [hflag, hs.running]
  case heldByTopic =>
    intro j e' he'
    rw [htopic]
    by_cases hj : ThreadId.topic j = .topic i
    · rw [hheld, hj, Function.update_self] at he'
      contradiction
    · rw [hheld, Function.update_of_ne hj] at he'
      exact hs.heldByTopic j e' he'
  case heldByMain =>
    intro e' he'
    rw [hheld, Function.update_of_ne (by simp)] at he'
    exact hs.heldByMain e' he'
  case queues =>
    rcases hs.queues with ⟨ms, hq, hnonempty, hconserved⟩
    refine ⟨ms, by rwa [hnodes, hqueue], by rwa [htopic], ?_⟩
    intro t
    rw [hput, hpublished, messagesFor_append,
      messagesFor_subscribers (hs.heldByTopic i e he).2, ← hconserved t]
    by_cases ht : t = i
    · subst ht
      simp [heldMessage, hheld, he]
    · simp [heldMessage, hheld, ht]
  case responses =>
    rw [hput, hresponses, responsesIn_append,
      responsesIn_subscribers (hs.heldByTopic i e he).2, List.append_nil, hs.responses]

/-- The thread of topic {lit}`i` takes the first message of its queue, which is not empty
behind the wait loop of {lit}`dequeue`. -/
theorem DeliveryInv.of_take {s s' : Threads n} (hs : DeliveryInv s) {i : Fin n}
    (hpc : s.topic i = .take) {nodes : Heap Bytes} {q : MessageQueue}
    {message : Option Bytes}
    (hdequeue : dequeueUnsafe s.nodes (s.messageQueue i) = some (nodes, q, message))
    (hview : s'.inTransit = { s.inTransit with
      nodes := nodes
      messageQueue := Function.update s.messageQueue i q
      held := Function.update s.heldBy (.topic i)
        (some ⟨message, .subscriberConnectionSockets i⟩) })
    (htopic : s'.topic = Function.update s.topic i .calling) : DeliveryInv s' := by
  have hnotHeld : s.heldBy (.topic i) = none := hs.heldBy_eq_none (by simp [hpc])
  simp only [inTransit, InTransit.mk.injEq] at hview
  rcases hview with ⟨hflag, hnodes, hqueue, hheld, hpublished, hput, hresponses⟩
  constructor
  case running => rw [hflag, hs.running]
  case heldByTopic =>
    intro j e he
    rw [hheld] at he
    rw [htopic]
    by_cases hj : j = i
    · subst hj
      rw [Function.update_self, Option.some.injEq] at he
      subst he
      exact ⟨Function.update_self .., rfl⟩
    · have hne : ThreadId.topic j ≠ .topic i := by simpa using hj
      rw [Function.update_of_ne hne] at he
      rw [Function.update_of_ne hj]
      exact hs.heldByTopic j e he
  case heldByMain =>
    intro e he
    rw [hheld, Function.update_of_ne (by simp)] at he
    exact hs.heldByMain e he
  case queues =>
    rcases hs.queues with ⟨ms, hq, hnonempty, hconserved⟩
    rcases List.exists_cons_of_ne_nil (hnonempty i (Or.inr hpc)) with ⟨m, rest, hms⟩
    rcases dequeueUnsafe_holds hq hms with ⟨h', q', hdequeue', hq'⟩
    rw [hdequeue, Option.some.injEq, Prod.mk.injEq, Prod.mk.injEq] at hdequeue'
    rcases hdequeue' with ⟨rfl, rfl, rfl⟩
    refine ⟨Function.update ms i rest, by rwa [hnodes, hqueue], ?_, ?_⟩
    · intro j hj
      rw [htopic] at hj
      by_cases hji : j = i
      · subst hji
        simp at hj
      · rw [Function.update_of_ne hji] at hj ⊢
        exact hnonempty j hj
    · intro t
      have hold := hconserved t
      rw [hput, hpublished]
      by_cases ht : t = i
      · -- the message leaves the front of the queue for the hands of the thread
        subst ht
        rw [hms, heldMessage, hnotHeld] at hold
        rw [heldMessage, hheld]
        simpa using hold
      · have hne : ThreadId.topic t ≠ .topic i := by simpa using ht
        rw [heldMessage, hheld, Function.update_of_ne hne, Function.update_of_ne ht]
        exact hold
  case responses =>
    rw [hput, hresponses]
    exact hs.responses

/-- The main thread publishes a message to topic {lit}`t`. -/
theorem enqueue_deliveryInv {s s' : Threads n} (hs : DeliveryInv s) {t : Fin n}
    {message : Bytes} {node : Addr} (hstep : enqueue s t message node = some s') :
    DeliveryInv s' := by
  rcases hs.queues with ⟨ms, hq, hnonempty, hconserved⟩
  rcases enqueue_cases hstep with ⟨-, -, hfresh, nodes, q, hnode, rfl⟩
  rcases enqueueUnsafe_holds hq t message hfresh with ⟨h', q', henqueue, hq'⟩
  rw [henqueue, Option.some.injEq, Prod.mk.injEq] at hnode
  rcases hnode with ⟨rfl, rfl⟩
  refine ⟨hs.running, ?_, hs.heldByMain,
    ⟨Function.update ms t (ms t ++ [message]), hq', ?_, ?_⟩, hs.responses⟩
  · intro i e he
    rcases hs.heldByTopic i e he with ⟨hcalling, hsockets⟩
    refine ⟨?_, hsockets⟩
    by_cases hi : i = t
    · subst hi
      simp [wakeQueueCv, setTopic, hcalling, TopicPc.wake]
    · simp [wakeQueueCv, setTopic, Function.update_of_ne hi, hcalling]
  · intro i hi
    by_cases hit : i = t
    · subst hit
      simp
    · rw [Function.update_of_ne hit]
      apply hnonempty i
      simpa [wakeQueueCv, setTopic, Function.update_of_ne hit] using hi
  · intro i
    have hold := hconserved i
    by_cases hit : i = t
    · subst hit
      simp only [wakeQueueCv, setTopic, Function.update_self, List.map_append]
      rw [← hold]
      simp [heldMessage, heldBy]
    · simpa [wakeQueueCv, setTopic, Function.update_of_ne hit, heldMessage, heldBy]
        using hold

/-! ## Steps that move no message -/

/-- No message and no topic thread moves. -/
theorem keepsMessages_of_eq {s s' : Threads n} (hview : s'.inTransit = s.inTransit)
    (htopic : s'.topic = s.topic) : KeepsMessages s s' where
  inTransit := hview
  topic := fun i => Or.inl (congrFun htopic i)

/-- A topic thread moves that holds no element. -/
theorem keepsMessages_of_topicMove {s s' : Threads n} {i : Fin n} {pc : TopicPc}
    (hheld : s.heldBy (.topic i) = none)
    (hpass : pc = .test ∨ pc = .take → s.topic i = .test ∨ (s.messageQueue i).head ≠ none)
    (hview : s'.inTransit = s.inTransit)
    (htopic : s'.topic = Function.update s.topic i pc) : KeepsMessages s s' where
  inTransit := hview
  topic := by
    intro j
    rw [htopic]
    by_cases hj : j = i
    · subst hj
      rw [Function.update_self]
      exact Or.inr ⟨hheld, hpass⟩
    · rw [Function.update_of_ne hj]
      exact Or.inl rfl

/-- A wake-up on the condition variable of a message queue. -/
theorem DeliveryInv.wakeQueueCv_keepsMessages {s : Threads n} (hs : DeliveryInv s)
    (i : Fin n) : KeepsMessages s (s.wakeQueueCv i) := by
  by_cases hpc : s.topic i = .waiting
  · have hheld := hs.heldBy_eq_none (i := i) (by simp [hpc])
    exact keepsMessages_of_topicMove hheld (by simp [hpc, TopicPc.wake]) rfl rfl
  · have hsame : (s.topic i).wake = s.topic i := by
      cases hold : s.topic i with
      | waiting => exact absurd hold hpc
      | _ => rfl
    refine keepsMessages_of_eq rfl ?_
    simp [wakeQueueCv, setTopic, hsame]

/-- Until it puts its element, {lit}`produce_new_message` moves no message. -/
theorem produceNewMessage_keepsMessages {s s' : Threads n} {w : ThreadId n} {pc : ProducePc n}
    (hflag : s.shuttingDown = false) (hpc : s.producing w = some pc)
    (hstep : produceNewMessage s w pc = some s') :
    KeepsMessages s s' ∨ ∃ e, pc = .put e := by
  cases produceNewMessage_cases hstep with
  | move owner helem =>
      left
      refine keepsMessages_of_eq ?_ rfl
      have hpc' : { s with bufferLock := owner }.producing w = some pc := hpc
      rw [inTransit, heldBy_setProducing_of_element hpc' helem]
      rfl
  | giveUp hset =>
      rw [hflag] at hset
      contradiction
  | put e => exact Or.inr ⟨e, rfl⟩

/-- {lit}`produce_new_message` on the main thread. -/
theorem produceNewMessage_main_deliveryInv {s s' : Threads n} (hs : DeliveryInv s)
    {pc : ProducePc n} (hpc : s.producing .main = some pc)
    (hstep : produceNewMessage s .main pc = some s') : DeliveryInv s' := by
  rcases produceNewMessage_keepsMessages hs.running hpc hstep with hkeep | ⟨e, rfl⟩
  · exact hs.of_keepsMessages hkeep
  · have he : s.heldBy .main = some e := by simp [heldBy, hpc, ProducePc.element]
    simp only [produceNewMessage] at hstep
    rw [← Option.some.inj hstep]
    refine hs.of_put_main he ?_ rfl
    rw [inTransit, heldBy_setProducing]
    rfl

/-- {lit}`produce_new_message` on the thread of a topic. -/
theorem produceNewMessage_topic_deliveryInv {s s' : Threads n} (hs : DeliveryInv s)
    {i : Fin n} {pc : ProducePc n} (hpc : s.producing (.topic i) = some pc)
    (hstep : produceNewMessage s (.topic i) pc = some s') : DeliveryInv s' := by
  rcases produceNewMessage_keepsMessages hs.running hpc hstep with hkeep | ⟨e, rfl⟩
  · exact hs.of_keepsMessages hkeep
  · have he : s.heldBy (.topic i) = some e := by simp [heldBy, hpc, ProducePc.element]
    simp only [produceNewMessage] at hstep
    rw [← Option.some.inj hstep]
    refine hs.of_put_topic he ?_ rfl
    rw [inTransit, heldBy_setProducing]
    rfl

/-- The thread of a topic. -/
theorem produce_deliveryInv {s s' : Threads n} (hs : DeliveryInv s) {i : Fin n}
    (hstep : produce s i = some s') : DeliveryInv s' := by
  cases produce_cases hstep with
  | move owner hold hnew hidle hpass =>
      have hheld : s.heldBy (.topic i) = none := by
        by_cases hcalling : s.topic i = .calling
        · simp [heldBy, hidle hcalling]
        · exact hs.heldBy_eq_none hcalling
      have hpassed := fun hpc =>
        (hpass hpc).imp_right fun h => h.resolve_right (by simp [hs.running])
      exact hs.of_keepsMessages (keepsMessages_of_topicMove hheld hpassed rfl rfl)
  | callNull hpc hflag =>
      rw [hs.running] at hflag
      contradiction
  | take hpc hdequeue =>
      refine hs.of_take hpc hdequeue ?_ rfl
      rw [inTransit, heldBy_setProducing]
      rfl
  | call hprod hcall => exact produceNewMessage_topic_deliveryInv hs hprod hcall
  | signal hpc =>
      have hheld : s.heldBy (.topic i) = none := hs.heldBy_eq_none (by simp [hpc])
      exact hs.of_keepsMessages (keepsMessages_of_topicMove hheld (by simp) rfl rfl)

/-- A wake-up of a producer moves no message. -/
theorem wakeProducer_keepsMessages (s : Threads n) (w : ThreadId n) :
    KeepsMessages s (s.wakeProducer w) := by
  refine keepsMessages_of_eq ?_ rfl
  rw [inTransit, heldBy_wakeProducer]
  rfl

/-- The consumer moves no message that is still on its way to it. -/
theorem consume_keepsMessages {s s' : Threads n} {wake : Option (ThreadId n)}
    (hstep : consume s wake = some s') : KeepsMessages s s' := by
  cases consume_cases hstep with
  | leave hpc hwake =>
      rcases wakeEmptyCv_cases hwake with rfl | ⟨w, rfl⟩
      · exact keepsMessages_of_eq rfl rfl
      · exact ⟨(wakeProducer_keepsMessages s w).inTransit, fun _ => Or.inl rfl⟩
  | move | get | sent | signal => exact keepsMessages_of_eq rfl rfl

/-! ## Conservation -/

/-- Nobody asks the threads to shut down. -/
def KeepsRunning (_ : Threads n) (a : Action n) : Prop :=
  a ≠ .shutDown

instance (s : Threads n) (a : Action n) : Decidable (KeepsRunning s a) :=
  inferInstanceAs (Decidable (a ≠ .shutDown))

/-- Every step but a request to shut down keeps the invariant. -/
theorem threadStep_deliveryInv {s s' : Threads n} (hs : DeliveryInv s) {a : Action n}
    (hrun : KeepsRunning s a) (hstep : threadStep s a = some s') : DeliveryInv s' := by
  cases threadStep_cases hstep with
  | publish hstep => exact enqueue_deliveryInv hs hstep
  | respond hidle =>
      refine ⟨hs.running, ?_, ?_, ?_, hs.responses⟩
      · intro i e he
        rw [heldBy_setProducing, Function.update_of_ne (by simp)] at he
        exact hs.heldByTopic i e he
      · intro e he
        rw [heldBy_setProducing, Function.update_self, Option.map_some, Option.some.injEq] at he
        rw [← he]
        rfl
      · rcases hs.queues with ⟨ms, hq, hnonempty, hconserved⟩
        refine ⟨ms, hq, hnonempty, fun t => ?_⟩
        rw [heldMessage, heldBy_setProducing, Function.update_of_ne (by simp)]
        exact hconserved t
  | main hprod hstep => exact produceNewMessage_main_deliveryInv hs hprod hstep
  | topic hstep => exact produce_deliveryInv hs hstep
  | consumer hstep => exact hs.of_keepsMessages (consume_keepsMessages hstep)
  | shutDown hstep => exact absurd rfl hrun
  | spurious w =>
      have hwake : ∀ w, DeliveryInv (s.wakeProducer w) :=
        fun w => hs.of_keepsMessages (wakeProducer_keepsMessages s w)
      cases w with
      | main => exact hwake .main
      | topic i =>
          exact (hwake (.topic i)).of_keepsMessages ((hwake _).wakeQueueCv_keepsMessages i)
      | consumer => exact hs.of_keepsMessages (keepsMessages_of_eq rfl rfl)

/-- Without a shutdown, the consumer leaves its wait loop on a nonempty buffer only. -/
theorem getsFromNonempty_of_running {s : Threads n} (hs : BufferInv s)
    (hrunning : s.shuttingDown = false) (a : Action n) : GetsFromNonempty s a := by
  cases a with
  | consumer wake =>
      intro hpc
      refine (hs.getReady hpc).resolve_left ?_
      simp [hrunning]
  | _ => trivial

/-- Both invariants together hold in every state reached without a request to
shut down. -/
theorem invariants_of_keepsRunning {created : Fin n → Bool} {consumerCreated : Bool}
    {s : Threads n}
    (hreach : (threadSystem created consumerCreated).ReachableVia KeepsRunning s) :
    BufferInv s ∧ DeliveryInv s := by
  refine System.ReachableVia.invariant (fun s => BufferInv s ∧ DeliveryInv s) ?_ ?_ hreach
  · rintro s ⟨garbage, rfl⟩
    exact ⟨bufferInv_start .., deliveryInv_start ..⟩
  · intro s a s' hs hrun hstep
    have hget := getsFromNonempty_of_running hs.1 hs.2.running a
    exact ⟨threadStep_bufferInv hs.1 hget hstep, threadStep_deliveryInv hs.2 hrun hstep⟩

/-- For every topic, what the consumer has taken, what the outgoing buffer holds,
what the thread of the topic holds and what its message queue holds add up, in
this order, to what has been published; and what the consumer has taken and the
outgoing buffer holds add up to the responses that the main thread has put.  The
consumer has taken what it has sent and the element that it is about to send. -/
theorem messages_conserved {created : Fin n → Bool} {consumerCreated : Bool} {s : Threads n}
    (hreach : (threadSystem created consumerCreated).ReachableVia KeepsRunning s) :
    (∀ t, ∃ cs, s.nodes.Chain cs (s.messageQueue t).head ∧
      messagesFor t s.log.taken ++ messagesFor t s.outgoingBuffer.contents ++
          s.heldMessage t ++ (Heap.vals cs).map some =
        (s.log.published t).map some) ∧
      responsesIn s.log.taken ++ responsesIn s.outgoingBuffer.contents = s.log.responses ∧
      s.log.taken = s.log.sent ++ s.consumer.inHand := by
  rcases invariants_of_keepsRunning hreach with ⟨hbuffer, hdelivery⟩
  rcases hbuffer.ring with ⟨xs, hholds, hput⟩
  rcases hdelivery.queues with ⟨ms, hq, -, hconserved⟩
  rw [hholds.contents_eq]
  refine ⟨?_, ?_, hbuffer.hand⟩
  · intro t
    rcases hq.chain t with ⟨cs, hchain, hvals⟩
    refine ⟨cs, hchain, ?_⟩
    rw [hvals, ← hconserved t, hput, messagesFor_append]
  · rw [← responsesIn_append, ← hput]
    exact hdelivery.responses

/-- Two messages and a response on their way: the thread of topic 0 holds the first
message, the second one is still in the queue and the consumer sends the response. -/
def twoMessagesAndResponse : List (Action topicsNum) :=
  [.publish 0 [1] 0, .respond [3] 7] ++ List.replicate 5 (.topic 0) ++
    List.replicate 4 .main ++ [.publish 0 [2] 1] ++ List.replicate 6 (.consumer none)

theorem messages_conserved_twoMessages :
    ∃ s, (threadSystem (fun _ : Fin topicsNum => true) true).ReachableVia KeepsRunning s ∧
      s.heldMessage 0 = [some [1]] ∧ s.log.taken.length = 1 ∧
      ∃ cs, s.nodes.Chain cs (s.messageQueue 0).head ∧
        messagesFor 0 s.log.taken ++ messagesFor 0 s.outgoingBuffer.contents ++
          s.heldMessage 0 ++ (Heap.vals cs).map some = [some [1], some [2]] := by
  have hrun : ((threadSystem (fun _ : Fin topicsNum => true) true).runVia KeepsRunning
      (Threads.start (fun _ => ⟨none, .connectionSocket 0⟩) (fun _ => true) true)
      twoMessagesAndResponse).map
        (fun s => (s.heldMessage 0, s.log.taken.length, s.log.published 0)) =
      some ([some [1]], 1, [[1], [2]]) := rfl
  rcases Option.map_eq_some_iff.mp hrun with ⟨s, hs, heq⟩
  simp only [Prod.mk.injEq] at heq
  rcases heq with ⟨hheld, htaken, hpublished⟩
  have hfirst : (threadSystem (fun _ : Fin topicsNum => true) true).ReachableVia KeepsRunning
      (Threads.start (fun _ => ⟨none, .connectionSocket 0⟩) (fun _ => true) true) :=
    System.ReachableVia.start ⟨_, rfl⟩
  have hreach := hfirst.runVia hs
  rcases (messages_conserved hreach).1 0 with ⟨cs, hchain, hconserved⟩
  rw [hpublished] at hconserved
  exact ⟨s, hreach, hheld, htaken, cs, hchain, hconserved⟩

end Broker
end PubSub
