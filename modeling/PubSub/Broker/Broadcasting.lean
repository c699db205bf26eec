import PubSub.Broker.ListCalls
import PubSub.Broker.Progress

/-!
# The broker with its socket lists in memory

This module puts the whole broker together.  The main thread executes commands and makes the
calls that they demand for the socket lists, one after the other; the topic threads hand
messages on; and for every message of a topic the consumer walks through the subscriber list of
the topic, which the main thread may change between any two of its critical sections.

Main results:

- Theorem {lit}`broadcastStep_moves`: what a step can do.
- Theorem {lit}`walkInv_of_broadcasting`: the lists stay well formed, and the walks are
  traversals of them.
- Theorem {lit}`sockets_agree`: the lists in memory are those of the main loop, but for the calls
  that the main thread has still to make.
- Structure {lit}`Walks`: the consumer walks for a message of a topic, and goes on only when the
  walk is finished.
-/

namespace PubSub
namespace Broker

open Foundations Client Threads

/-! ## The program -/

/-- The broker in operation, with its socket lists in memory and the walk of the consumer
through one of them.  Before its next step, the main thread has still to make the calls
{lit}`pending`. -/
structure Broadcast (n : Nat) where
  service : Service n
  delivery : Delivery ListName
  pending : List MainCall
  walking : Bool

/-- What happens next. -/
inductive BroadcastStep (n : Nat) where
  | service (l : ServiceStep n)
  /-- the main thread makes its next call; {lit}`node` is the address that {lit}`malloc` returns
  in {lit}`add_to_start` -/
  | call (node : Addr)
  /-- the consumer goes on in {lit}`send_subscription_message_or_response` -/
  | walk
deriving DecidableEq, Repr

variable {n : Nat}

/-- The element that the consumer sends. -/
def ConsumerPc.sending : ConsumerPc n → Option (OutgoingBufferElement n)
  | .send e | .sendLast e => some e
  | _ => none

/-- Is this a move of the consumer from one position to the next? -/
def ServiceStep.movesConsumer : ServiceStep n → Bool
  | .thread (.consumer _) => true
  | _ => false

namespace Broadcast

/-- Where the walk goes on.  Sending a null pointer is undefined. -/
def nextOfWalk (s : Broadcast n) : Option (DeliveryAction ListName) :=
  match s.service.threads.consumer.sending with
  | some ⟨message, .subscriberConnectionSockets t⟩ =>
      if s.walking then
        match s.delivery.walk with
        | .sending _ _ => some .send
        | .advancing _ _ _ => some .advance
        | .idle | .finished _ _ | .dangling => none
      else message.map (.start (.subscriberConnectionSockets t))
  | some ⟨_, .connectionSocket _⟩ | none => none

/-- Has {lit}`send_subscription_message_or_response` returned, if the consumer has called it for
the subscribers of a topic? -/
def hasWalked (s : Broadcast n) : Bool :=
  match s.service.threads.consumer.sending with
  | some ⟨_, .subscriberConnectionSockets _⟩ =>
      s.walking &&
        match s.delivery.walk with
        | .finished _ _ => true
        | .idle | .sending _ _ | .advancing _ _ _ | .dangling => false
  | some ⟨_, .connectionSocket _⟩ | none => true

/-- May this step come next? -/
def admits (s : Broadcast n) : ServiceStep n → Bool
  | .accept _ | .receive _ | .execute _ | .finish => s.pending.isEmpty
  | .thread (.consumer _) => s.hasWalked
  | .thread _ => true

/-- What a step does to the socket lists. -/
def actionOf (s : Broadcast n) : BroadcastStep n → Option (DeliveryAction ListName)
  | .service _ => none
  | .call node => s.pending.head?.map (MainCall.action node)
  | .walk => s.nextOfWalk

/-- The broker when {lit}`main` enters its loop. -/
def start (topicNames : List Bytes)
    (garbage : Nat → OutgoingBufferElement topicNames.length) : Broadcast topicNames.length where
  service := Service.start topicNames garbage
  delivery := Delivery.start
  pending := []
  walking := false

end Broadcast

/-- The step function. -/
def broadcastStep (s : Broadcast n) : BroadcastStep n → Option (Broadcast n)
  | .service l =>
      if s.admits l then
        (serviceStep s.service l).map fun service =>
          { s with
            service := service
            pending := s.pending ++ listCalls s.service l
            walking := s.walking && !l.movesConsumer }
      else none
  | .call node => do
      let action ← s.actionOf (.call node)
      let delivery ← deliveryStep s.delivery action
      return { s with delivery := delivery, pending := s.pending.tail }
  | .walk => do
      let action ← s.actionOf .walk
      let delivery ← deliveryStep s.delivery action
      return { s with delivery := delivery, walking := true }

/-- The whole broker as a transition system. -/
def broadcasting (topicNames : List Bytes) :
    System (Broadcast topicNames.length) (BroadcastStep topicNames.length) where
  initial := fun s => ∃ garbage, s = Broadcast.start topicNames garbage
  step := broadcastStep

/-- A condition on the steps, seen at the socket lists. -/
def OnLists (allowed : Delivery ListName → DeliveryAction ListName → Prop) (s : Broadcast n)
    (l : BroadcastStep n) : Prop :=
  ∀ action, s.actionOf l = some action → allowed s.delivery action

/-- What a step adds to the log of the walks. -/
def broadcastEvents (s : Broadcast n) (l : BroadcastStep n) : List (WalkEvent ListName) :=
  (s.actionOf l).elim [] (walkEvents s.delivery)

/-! ## What a step can do -/

/-- Where the walk goes on: the consumer begins it, sends to a node or leaves it. -/
inductive WalkMoves (s : Broadcast n) : DeliveryAction ListName → Prop
  | start {t : Fin n} {message : Bytes}
      (hsending : s.service.threads.consumer.sending =
        some ⟨some message, .subscriberConnectionSockets t⟩)
      (hidle : s.walking = false) :
      WalkMoves s (.start (.subscriberConnectionSockets t) message)
  | send {name : ListName} {e : Sending} (hwalking : s.walking = true)
      (hwalk : s.delivery.walk = .sending name e) : WalkMoves s .send
  | advance {name : ListName} {walker : Addr} {message : Bytes} (hwalking : s.walking = true)
      (hwalk : s.delivery.walk = .advancing name walker message) : WalkMoves s .advance

theorem nextOfWalk_moves {s : Broadcast n} {action : DeliveryAction ListName}
    (hnext : s.nextOfWalk = some action) : WalkMoves s action := by
  simp only [Broadcast.nextOfWalk] at hnext
  split at hnext
  · next message t hsending =>
    split at hnext
    · next hwalking =>
      split at hnext
      · next name e hwalk =>
        rw [← Option.some.inj hnext]
        exact .send hwalking hwalk
      · next name walker message hwalk =>
        rw [← Option.some.inj hnext]
        exact .advance hwalking hwalk
      all_goals contradiction
    · next hidle =>
      rw [Option.map_eq_some_iff] at hnext
      rcases hnext with ⟨message, rfl, rfl⟩
      exact .start hsending (Bool.eq_false_iff.mpr hidle)
  all_goals contradiction

/-- The steps of the broker. -/
inductive BroadcastMoves (s : Broadcast n) : BroadcastStep n → Broadcast n → Prop
  | service {l : ServiceStep n} {service : Service n} (hadmits : s.admits l = true)
      (hstep : serviceStep s.service l = some service) :
      BroadcastMoves s (.service l) { s with
        service := service
        pending := s.pending ++ listCalls s.service l
        walking := s.walking && !l.movesConsumer }
  | call {node : Addr} {call : MainCall} {rest : List MainCall} {delivery : Delivery ListName}
      (hpending : s.pending = call :: rest)
      (hstep : deliveryStep s.delivery (call.action node) = some delivery) :
      BroadcastMoves s (.call node) { s with delivery := delivery, pending := rest }
  | walk {action : DeliveryAction ListName} {delivery : Delivery ListName}
      (hnext : s.nextOfWalk = some action)
      (hstep : deliveryStep s.delivery action = some delivery) :
      BroadcastMoves s .walk { s with delivery := delivery, walking := true }

/-- The steps are these and no others. -/
theorem broadcastStep_moves {s s' : Broadcast n} {l : BroadcastStep n}
    (hstep : broadcastStep s l = some s') : BroadcastMoves s l s' := by
  cases l with
  | service l =>
      simp only [broadcastStep] at hstep
      split at hstep
      · next hadmits =>
        rw [Option.map_eq_some_iff] at hstep
        rcases hstep with ⟨service, hservice, rfl⟩
        exact .service hadmits hservice
      · contradiction
  | call node =>
      simp only [broadcastStep, Broadcast.actionOf, Option.bind_eq_bind, Option.bind_eq_some_iff,
        Option.map_eq_some_iff, Option.pure_def, Option.some.injEq] at hstep
      rcases hstep with ⟨action, ⟨call, hcall, rfl⟩, delivery, hdelivery, rfl⟩
      rcases List.head?_eq_some_iff.mp hcall with ⟨rest, hpending⟩
      rw [hpending, List.tail_cons]
      exact .call hpending hdelivery
  | walk =>
      simp only [broadcastStep, Broadcast.actionOf, Option.bind_eq_bind, Option.bind_eq_some_iff,
        Option.pure_def, Option.some.injEq] at hstep
      rcases hstep with ⟨action, hnext, delivery, hdelivery, rfl⟩
      exact .walk hnext hdelivery

/-- A step that does something to the socket lists takes a step there; the others leave them
alone. -/
theorem BroadcastMoves.delivery {s s' : Broadcast n} {l : BroadcastStep n}
    (hmoves : BroadcastMoves s l s') :
    (s.actionOf l = none ∧ s'.delivery = s.delivery) ∨
      ∃ action, s.actionOf l = some action ∧ deliveryStep s.delivery action = some s'.delivery := by
  cases hmoves with
  | service => exact .inl ⟨rfl, rfl⟩
  | @call node call rest delivery hpending hstep =>
      refine .inr ⟨call.action node, ?_, hstep⟩
      rw [Broadcast.actionOf, hpending]
      rfl
  | walk hnext hstep => exact .inr ⟨_, hnext, hstep⟩

/-- A step at the socket lists leaves the main loop and the threads alone. -/
theorem BroadcastMoves.service_cases {s s' : Broadcast n} {l : BroadcastStep n}
    (hmoves : BroadcastMoves s l s') :
    s'.service = s.service ∨
      ∃ l', l = .service l' ∧ serviceStep s.service l' = some s'.service := by
  cases hmoves with
  | service hadmits hstep => exact .inr ⟨_, rfl, hstep⟩
  | call | walk => exact .inl rfl

/-! ## The parts -/

section Parts

variable {topicNames : List Bytes} {s : Broadcast topicNames.length}

/-- The main loop and the threads run as they do without the lists. -/
theorem service_of_broadcasting
    {allowed : Broadcast topicNames.length → BroadcastStep topicNames.length → Prop}
    {allowedThere : Service topicNames.length → ServiceStep topicNames.length → Prop}
    (hthere : ∀ s l, allowed s (.service l) → allowedThere s.service l)
    (hreach : (broadcasting topicNames).ReachableVia allowed s) :
    (service topicNames).ReachableVia allowedThere s.service := by
  refine hreach.invariant
    (fun s => (service topicNames).ReachableVia allowedThere s.service) ?_ ?_
  · rintro s ⟨garbage, rfl⟩
    exact System.ReachableVia.start ⟨garbage, rfl⟩
  · intro s l s' hs hallowed hstep
    rcases (broadcastStep_moves hstep).service_cases with hsame | ⟨l', rfl, hservice⟩
    · rw [hsame]
      exact hs
    · exact hs.step (hthere s l' hallowed) hservice

/-- A step that the lists admit is one of theirs. -/
theorem BroadcastMoves.keep {P : Delivery ListName → Prop}
    {allowed : Delivery ListName → DeliveryAction ListName → Prop}
    (hkept : ∀ d a d', P d → allowed d a → deliveryStep d a = some d' → P d')
    {s s' : Broadcast n} {l : BroadcastStep n} (hmoves : BroadcastMoves s l s')
    (hallowed : OnLists allowed s l) (hs : P s.delivery) : P s'.delivery := by
  rcases hmoves.delivery with ⟨-, hsame⟩ | ⟨action, haction, hstep⟩
  · rw [hsame]
    exact hs
  · exact hkept _ _ _ hs (hallowed action haction) hstep

/-- As long as the main thread does not remove the node at which the consumer stands, the lists
are well formed and the walk is a traversal of its list. -/
theorem walkInv_of_broadcasting
    (hreach : (broadcasting topicNames).ReachableVia (OnLists KeepsWalker) s) :
    WalkInv s.delivery := by
  refine hreach.invariant (fun s => WalkInv s.delivery) ?_ ?_
  · rintro s ⟨garbage, rfl⟩
    exact walkInv_start
  · intro s l s' hs hallowed hstep
    exact (broadcastStep_moves hstep).keep
      (fun _ _ _ hd hkeep hstep => deliveryStep_walkInv hd hkeep hstep) hallowed hs

/-- What happens at the lists in a run is a run of theirs, with the same log. -/
theorem delivery_logs {allowed : Delivery ListName → DeliveryAction ListName → Prop}
    {events : List (WalkEvent ListName)} {s' : Broadcast topicNames.length}
    (hlogs : (broadcasting topicNames).Logs (OnLists allowed) broadcastEvents s events s') :
    (deliverySystem ListName).Logs allowed walkEvents s.delivery events s'.delivery := by
  induction hlogs with
  | start => exact .start
  | @step t u l events hlogs hallowed hstep ih =>
      rw [broadcastEvents]
      rcases (broadcastStep_moves hstep).delivery with ⟨hnone, hsame⟩ | ⟨action, haction, hstep'⟩
      · rw [hnone, Option.elim_none, List.append_nil, hsame]
        exact ih
      · rw [haction, Option.elim_some]
        exact ih.step (hallowed action haction) hstep'

end Parts

/-! ## The lists of the main loop -/

theorem Sockets.after_append (v : Sockets) (calls calls' : List MainCall) :
    v.after (calls ++ calls') = (v.after calls).after calls' :=
  List.foldl_append

/-- The walk changes neither the lists nor the cells. -/
theorem nextOfWalk_sockets {s : Broadcast n} {action : DeliveryAction ListName}
    {delivery : Delivery ListName} (hnext : s.nextOfWalk = some action)
    (hstep : deliveryStep s.delivery action = some delivery) :
    delivery.sockets = s.delivery.sockets := by
  cases nextOfWalk_moves hnext with
  | start hsending hidle =>
      simp only [deliveryStep] at hstep
      split at hstep
      · rw [← Option.some.inj hstep]
        rfl
      · rw [← Option.some.inj hstep]
        rfl
      · contradiction
  | send hwalking hwalk =>
      simp only [deliveryStep, hwalk] at hstep
      rw [← Option.some.inj hstep]
      rfl
  | advance hwalking hwalk =>
      simp only [deliveryStep, hwalk] at hstep
      split at hstep
      all_goals
        rw [← Option.some.inj hstep]
        rfl

/-- After the calls that are pending, the lists and the cells in memory are those of the main
loop. -/
def Agrees (s : Broadcast n) : Prop :=
  s.delivery.sockets.after s.pending = s.service.mainLoop.sockets

/-- There are no connections and no subscribers. -/
theorem agrees_start (topicNames : List Bytes)
    (garbage : Nat → OutgoingBufferElement topicNames.length) :
    Agrees (Broadcast.start topicNames garbage) := by
  have hl : ListsHold (Heap.empty : Heap SocketPtr) (fun _ : ListName => initializeSocketList)
      fun _ => [] := initializeSocketList_holds
  have hsockets : (Delivery.start : Delivery ListName).sockets = ⟨fun _ => [], fun _ => none⟩ :=
    sockets_eq (s := Delivery.start) hl
  unfold Agrees
  simp only [Broadcast.start, hsockets, Sockets.after_nil, MainLoop.sockets, Sockets.mk.injEq]
  refine ⟨?_, rfl⟩
  funext name
  cases name with
  | connectionSockets => rfl
  | subscriberConnectionSockets i =>
      by_cases hi : i < topicNames.length
      · simp [Service.start, MainLoop.start, socketPtrs, hi]
      · simp [Service.start, MainLoop.start, socketPtrs, hi]

theorem BroadcastMoves.agrees {s s' : Broadcast n} {l : BroadcastStep n}
    (hmoves : BroadcastMoves s l s') (hwalk : WalkInv s.delivery) (hs : Agrees s) : Agrees s' := by
  unfold Agrees at hs ⊢
  cases hmoves with
  | service hadmits hstep =>
      simp only [Sockets.after_append, hs]
      exact (serviceStep_calls hstep).symm
  | call hpending hstep =>
      rw [hpending, Sockets.after_cons] at hs
      simp only [deliveryStep_call hwalk hstep, hs]
  | walk hnext hstep =>
      simp only [nextOfWalk_sockets hnext hstep, hs]

/-! ## The walks of the consumer -/

@[simp]
theorem ConsumerPc.sending_wake (pc : ConsumerPc n) : pc.wake.sending = pc.sending := by
  cases pc <;> rfl

/-- What the consumer sends stays the same. -/
structure SendsOn (s s' : Threads n) : Prop where
  sending : s'.consumer.sending = s.consumer.sending
  sent : s'.log.sent = s.log.sent

theorem SendsOn.trans {s₁ s₂ s₃ : Threads n} (h : SendsOn s₁ s₂) (h' : SendsOn s₂ s₃) :
    SendsOn s₁ s₃ where
  sending := h'.sending.trans h.sending
  sent := h'.sent.trans h.sent

/-- Somebody else moves. -/
theorem threadStep_sendsOn {s s' : Threads n} {a : Action n} (hother : ∀ wake, a ≠ .consumer wake)
    (hstep : threadStep s a = some s') : SendsOn s s' := by
  have hproduce : ∀ {w pc}, produceNewMessage s w pc = some s' → SendsOn s s' := by
    intro w pc hcall
    cases produceNewMessage_cases hcall with
    | move | giveUp => exact ⟨rfl, rfl⟩
    | put e => exact ⟨ConsumerPc.sending_wake _, rfl⟩
  cases threadStep_cases hstep with
  | publish hstep =>
      rcases enqueue_cases hstep with ⟨-, -, -, nodes, q, -, rfl⟩
      exact ⟨rfl, rfl⟩
  | respond hidle => exact ⟨rfl, rfl⟩
  | main hprod hcall => exact hproduce hcall
  | topic hstep =>
      cases produce_cases hstep with
      | move | callNull | take | signal => exact ⟨rfl, rfl⟩
      | call hprod hcall => exact hproduce hcall
  | consumer hstep => exact absurd rfl (hother _)
  | shutDown hstep =>
      cases shutDownThreads_cases hstep with
      | wakeBuffer => exact ⟨ConsumerPc.sending_wake _, rfl⟩
      | request | wakeQueue | queuesWoken | wait | finish => exact ⟨rfl, rfl⟩
  | spurious w =>
      cases w with
      | main | topic i => exact ⟨rfl, rfl⟩
      | consumer => exact ⟨ConsumerPc.sending_wake _, rfl⟩

/-- A step of the main loop or of another thread. -/
theorem serviceStep_sendsOn {s s' : Service n} {l : ServiceStep n}
    (hother : l.movesConsumer = false) (hstep : serviceStep s l = some s') :
    SendsOn s.threads s'.threads := by
  cases serviceStep_moves hstep with
  | accept | receive | poll | finish => exact ⟨rfl, rfl⟩
  | @execute _ _ _ _ _ _ _ threads threads' _ _ _ _ _ _ henqueue hrespond _ =>
      have hthreads : SendsOn s.threads threads := by
        rcases enqueuePublished_cases henqueue with ⟨-, rfl⟩ | ⟨t, message, -, hstep⟩
        · exact ⟨rfl, rfl⟩
        · exact threadStep_sendsOn (by simp) hstep
      rcases produceResponse_cases hrespond with ⟨-, rfl⟩ | ⟨bytes, -, hstep⟩
      · exact hthreads
      · exact hthreads.trans (threadStep_sendsOn (by simp) hstep)
  | @thread a threads hmoves hthread =>
      refine threadStep_sendsOn ?_ hthread
      rintro wake rfl
      contradiction

theorem ConsumerMove.sending_eq {flag : Bool} {pc pc' : ConsumerPc n}
    (hmove : ConsumerMove flag pc pc') : pc.sending = none := by
  cases hmove <;> rfl

/-- A move of the consumer: the element that it sends is sent. -/
theorem consume_sent {s s' : Threads n} {wake : Option (ThreadId n)}
    (hstep : consume s wake = some s') :
    s'.log.sent = s.log.sent ++ s.consumer.sending.toList := by
  cases consume_moves hstep with
  | move owner hmove => simp [hmove.sending_eq]
  | get hpc => simp [hpc, ConsumerPc.sending]
  | leave hpc hwake =>
      rcases wakeEmptyCv_cases hwake with rfl | ⟨w, rfl⟩
      all_goals simp [hpc, ConsumerPc.sending, Threads.wakeProducer, Threads.setProducing]
  | sent hpc => simp [hpc, ConsumerPc.sending]
  | sentLast hpc => simp [hpc, ConsumerPc.sending]
  | signal hpc => simp [hpc, ConsumerPc.sending, Threads.signalShutDown]

theorem serviceStep_sent {s s' : Service n} {l : ServiceStep n} (hl : l.movesConsumer = true)
    (hstep : serviceStep s l = some s') :
    s'.threads.log.sent = s.threads.log.sent ++ s.threads.consumer.sending.toList := by
  cases serviceStep_moves hstep with
  | accept | receive | poll | execute | finish => exact absurd hl Bool.false_ne_true
  | @thread a threads hmoves hthread =>
      cases a with
      | consumer wake => exact consume_sent hthread
      | publish | respond | main | topic | shutDown | spurious => contradiction

/-- The consumer walks for a message of a topic, and otherwise its last walk is finished. -/
structure Walks (s : Broadcast n) : Prop where
  busy : s.walking = true → s.delivery.walk ≠ .idle ∧ ∃ t message,
    s.service.threads.consumer.sending = some ⟨some message, .subscriberConnectionSockets t⟩
  free : s.walking = false → s.delivery.walk = .idle ∨ ∃ name message,
    s.delivery.walk = .finished name message

/-- A call for the lists leaves the walk where it is. -/
theorem call_walk {d d' : Delivery ListName} {call : MainCall} {node : Addr}
    (hstep : deliveryStep d (call.action node) = some d') : d'.walk = d.walk := by
  cases call with
  | store socketPtr socket =>
      simp only [MainCall.action, deliveryStep] at hstep
      split at hstep
      · rw [← Option.some.inj hstep]
      · contradiction
  | invalidate socketPtr =>
      simp only [MainCall.action, deliveryStep] at hstep
      split at hstep
      · contradiction
      · rw [← Option.some.inj hstep]
  | addToStart name socketPtr =>
      simp only [MainCall.action, deliveryStep] at hstep
      split at hstep
      · rw [← Option.some.inj hstep]
      · contradiction
  | freeNode name socketPtr =>
      simp only [MainCall.action, deliveryStep, Option.map_eq_some_iff] at hstep
      rcases hstep with ⟨⟨nodes, list, removed⟩, -, rfl⟩
      rfl

theorem lookAt_ne_idle (d : Delivery ListName) (name : ListName) (message : Bytes)
    (next : Option Addr) : d.lookAt name message next ≠ .idle := by
  cases next with
  | none => simp [Delivery.lookAt]
  | some walker =>
      simp only [Delivery.lookAt]
      split
      · simp
      · split <;> simp

/-- The consumer moves only when it has sent. -/
theorem admits_consumer {s : Broadcast n} {l : ServiceStep n} (hl : l.movesConsumer = true)
    (hadmits : s.admits l = true) : s.hasWalked = true := by
  cases l with
  | thread a =>
      cases a with
      | consumer wake => exact hadmits
      | publish | respond | main | topic | shutDown | spurious => contradiction
  | accept | receive | execute | finish => contradiction

/-- For a message of a topic this means that its walk is finished. -/
theorem hasWalked_finished {s : Broadcast n} (hwalked : s.hasWalked = true)
    {message : Option Bytes} {t : Fin n}
    (hsending : s.service.threads.consumer.sending =
      some ⟨message, .subscriberConnectionSockets t⟩) :
    s.walking = true ∧ ∃ name message, s.delivery.walk = .finished name message := by
  simp only [Broadcast.hasWalked, hsending, Bool.and_eq_true] at hwalked
  refine ⟨hwalked.1, ?_⟩
  cases hwalk : s.delivery.walk with
  | finished name message => exact ⟨name, message, rfl⟩
  | idle | sending | advancing | dangling => simp [hwalk] at hwalked

/-- The consumer begins a walk only when the one before is finished. -/
theorem BroadcastMoves.walks {s s' : Broadcast n} {l : BroadcastStep n}
    (hmoves : BroadcastMoves s l s') (hs : Walks s) : Walks s' := by
  cases hmoves with
  | @service l service hadmits hstep =>
      cases hl : l.movesConsumer with
      | false =>
          have hon := serviceStep_sendsOn hl hstep
          constructor
          · intro hwalking
            simp only [Bool.not_false, Bool.and_true] at hwalking
            rw [hon.sending]
            exact hs.busy hwalking
          · intro hidle
            simp only [Bool.not_false, Bool.and_true] at hidle
            exact hs.free hidle
      | true =>
          constructor
          · intro hwalking
            simp at hwalking
          · intro _
            cases hwalking : s.walking with
            | false => exact hs.free hwalking
            | true =>
                rcases (hs.busy hwalking).2 with ⟨t, message, hsending⟩
                exact .inr (hasWalked_finished (admits_consumer hl hadmits) hsending).2
  | call hpending hstep =>
      constructor
      · rw [call_walk hstep]
        exact hs.busy
      · rw [call_walk hstep]
        exact hs.free
  | walk hnext hstep =>
      constructor
      case free =>
        intro hidle
        contradiction
      intro _
      cases nextOfWalk_moves hnext with
      | @start t message hsending hidle =>
          refine ⟨?_, t, message, hsending⟩
          simp only [deliveryStep] at hstep
          split at hstep
          · rw [← Option.some.inj hstep]
            exact lookAt_ne_idle _ _ _ _
          · rw [← Option.some.inj hstep]
            exact lookAt_ne_idle _ _ _ _
          · contradiction
      | send hwalking hwalk =>
          refine ⟨?_, (hs.busy hwalking).2⟩
          simp only [deliveryStep, hwalk] at hstep
          rw [← Option.some.inj hstep]
          simp
      | advance hwalking hwalk =>
          refine ⟨?_, (hs.busy hwalking).2⟩
          simp only [deliveryStep, hwalk] at hstep
          split at hstep
          · rw [← Option.some.inj hstep]
            simp
          · rw [← Option.some.inj hstep]
            exact lookAt_ne_idle _ _ _ _

theorem walks_of_broadcasting {topicNames : List Bytes} {s : Broadcast topicNames.length}
    {allowed : Broadcast topicNames.length → BroadcastStep topicNames.length → Prop}
    (hreach : (broadcasting topicNames).ReachableVia allowed s) : Walks s := by
  refine hreach.invariant Walks ?_ ?_
  · rintro s ⟨garbage, rfl⟩
    exact ⟨fun hwalking => absurd hwalking (by simp [Broadcast.start]), fun _ => .inl rfl⟩
  · exact fun s l s' hs _ hstep => (broadcastStep_moves hstep).walks hs

/-! ## The walks that have begun -/

/-- The messages of topic {lit}`t` for which the consumer has begun to walk. -/
def Broadcast.begun (s : Broadcast n) (t : Fin n) : List (Option Bytes) :=
  messagesFor t (s.service.threads.log.sent ++
    if s.walking then s.service.threads.consumer.sending.toList else [])

/-- Every step adds the messages of the walks that it begins. -/
theorem BroadcastMoves.begun {s s' : Broadcast n} {l : BroadcastStep n}
    (hmoves : BroadcastMoves s l s') (t : Fin n) :
    s'.begun t = s.begun t ++
      (startedOn (.subscriberConnectionSockets t) (broadcastEvents s l)).map some := by
  have hnone : startedOn (ListName.subscriberConnectionSockets t) [] = [] := rfl
  cases hmoves with
  | @service l service hadmits hstep =>
      rw [broadcastEvents, Broadcast.actionOf, Option.elim_none, hnone, List.map_nil,
        List.append_nil]
      cases hl : l.movesConsumer with
      | false =>
          have hon := serviceStep_sendsOn hl hstep
          simp only [Broadcast.begun, hon.sending, hon.sent, Bool.not_false, Bool.and_true]
      | true =>
          have hsent := serviceStep_sent hl hstep
          simp only [Broadcast.begun, hsent, Bool.not_true, Bool.and_false, Bool.false_eq_true,
            if_false, List.append_nil]
          cases hwalking : s.walking with
          | true => rfl
          | false =>
              -- the consumer has sent a response, or nothing
              have hwalked := admits_consumer hl hadmits
              simp only [Bool.false_eq_true, if_false, List.append_nil, messagesFor_append,
                List.append_right_eq_self]
              cases hsending : s.service.threads.consumer.sending with
              | none => rfl
              | some e =>
                  rw [Option.toList_some]
                  apply messagesFor_response
                  rcases e with ⟨message, sockets⟩
                  cases sockets with
                  | connectionSocket socket => rfl
                  | subscriberConnectionSockets t' =>
                      have hbusy := (hasWalked_finished hwalked hsending).1
                      rw [hwalking] at hbusy
                      contradiction
  | @call node call rest delivery hpending hstep =>
      have hlog : walkEvents s.delivery (call.action node) = [] := by cases call <;> rfl
      rw [broadcastEvents, Broadcast.actionOf, hpending, List.head?_cons, Option.map_some,
        Option.elim_some, hlog, hnone, List.map_nil, List.append_nil]
      rfl
  | @walk action delivery hnext hstep =>
      rw [broadcastEvents, Broadcast.actionOf, hnext, Option.elim_some]
      cases nextOfWalk_moves hnext with
      | @start t' message hsending hidle =>
          simp only [Broadcast.begun, hsending, hidle, if_true, Bool.false_eq_true, if_false,
            List.append_nil, Option.toList_some, messagesFor_append, List.append_cancel_left_eq]
          rw [messagesFor_subscribers rfl]
          by_cases ht : t = t'
          · simp [ht, walkEvents, startedOn]
          · have hne : ¬ t'.val = t.val := fun heq => ht (Fin.ext heq.symm)
            simp [ht, hne, walkEvents, startedOn]
      | send hwalking hwalk =>
          simp [walkEvents, hwalk, startedOn, Broadcast.begun, hwalking]
      | advance hwalking hwalk =>
          simp [walkEvents, startedOn, Broadcast.begun, hwalking]

section Runs

variable {topicNames : List Bytes} {s s' : Broadcast topicNames.length}

/-- So does every run. -/
theorem begun_of_logs
    {allowed : Broadcast topicNames.length → BroadcastStep topicNames.length → Prop}
    {events : List (WalkEvent ListName)}
    (hlogs : (broadcasting topicNames).Logs allowed broadcastEvents s events s')
    (t : Fin topicNames.length) :
    s'.begun t = s.begun t ++
      (startedOn (.subscriberConnectionSockets t) events).map some := by
  apply hlogs.invariant (fun s' events => s'.begun t = s.begun t ++
    (startedOn (.subscriberConnectionSockets t) events).map some)
  · exact (List.append_nil _).symm
  · intro u l u' log hu _ hstep
    rw [(broadcastStep_moves hstep).begun t, hu, startedOn_append, List.map_append,
      List.append_assoc]

/-- The walks that have begun are for the first messages that have been published. -/
theorem begun_of_broadcasting
    {allowed : Broadcast topicNames.length → BroadcastStep topicNames.length → Prop}
    (hreach : (broadcasting topicNames).ReachableVia allowed s) (t : Fin topicNames.length) :
    ∃ walked later, s.service.threads.log.published t = walked ++ later ∧
      s.begun t = walked.map some := by
  have hservice : (service topicNames).Reachable s.service :=
    service_of_broadcasting (fun _ _ _ => trivial) hreach
  have hthreads := threads_of_service hservice
  rcases invariants_of_keepsRunning hthreads with ⟨hbuffer, -⟩
  rcases exists_pipeline hthreads with ⟨p, hp, hdelivered, hpublished⟩
  have htaken : messagesFor t s.service.threads.log.taken <+:
      (s.service.threads.log.published t).map some := by
    rw [← hdelivered, ← hpublished]
    exact ⟨_, (Pipeline.accounted hp).messages t⟩
  have hbegun : s.begun t <+: messagesFor t s.service.threads.log.taken := by
    rw [hbuffer.hand, Broadcast.begun, messagesFor_append, messagesFor_append]
    apply (List.prefix_append_right_inj _).mpr
    split
    · next hwalking =>
      rcases ((walks_of_broadcasting hreach).busy hwalking).2 with ⟨t', message, hsending⟩
      cases hpc : s.service.threads.consumer with
      | send e | sendLast e => exact List.prefix_rfl
      | _ => simp [hpc, ConsumerPc.sending] at hsending
    · exact List.nil_prefix
  rcases hbegun.trans htaken with ⟨rest, hsplit⟩
  rcases List.map_eq_append_iff.mp hsplit.symm with ⟨walked, later, hpublished, hwalked, -⟩
  exact ⟨walked, later, hpublished, hwalked.symm⟩

/-- After the pending calls, the lists and the cells in memory are those of the main loop. -/
theorem agrees_of_broadcasting
    (hreach : (broadcasting topicNames).ReachableVia (OnLists KeepsWalker) s) :
    WalkInv s.delivery ∧ Agrees s := by
  refine hreach.invariant (fun s => WalkInv s.delivery ∧ Agrees s) ?_ ?_
  · rintro s ⟨garbage, rfl⟩
    exact ⟨walkInv_start, agrees_start topicNames garbage⟩
  · intro s l s' hs hallowed hstep
    have hmoves := broadcastStep_moves hstep
    exact ⟨hmoves.keep (fun _ _ _ hd hkeep hstep => deliveryStep_walkInv hd hkeep hstep)
      hallowed hs.1, hmoves.agrees hs.1 hs.2⟩

/-- The socket lists in memory are well formed in every state, walks never use a node that has
been removed, and after the calls that the main thread has still to make, the lists and the
cells are those of its main loop. -/
theorem sockets_agree
    (hreach : (broadcasting topicNames).ReachableVia (OnLists KeepsWalker) s) :
    Delivered s.delivery ∧ ∃ cs, ListsHold s.delivery.nodes s.delivery.lists cs ∧
      Sockets.after ⟨fun name => Heap.vals (cs name), s.delivery.cells⟩ s.pending =
        ⟨socketPtrs s.service.mainLoop.connectionSockets s.service.mainLoop.topics,
          s.service.mainLoop.socket⟩ := by
  have hboth := agrees_of_broadcasting hreach
  rcases hboth.1.lists with ⟨cs, hl, -, -⟩
  refine ⟨hboth.1.delivered, cs, hl, ?_⟩
  rw [← sockets_eq hl]
  exact hboth.2

end Runs

instance (allowed : Delivery ListName → DeliveryAction ListName → Prop)
    [∀ d a, Decidable (allowed d a)] (s : Broadcast n) (l : BroadcastStep n) :
    Decidable (OnLists allowed s l) :=
  match h : s.actionOf l with
  | none => isTrue (by simp [OnLists, h])
  | some action => decidable_of_iff (allowed s.delivery action) (by simp [OnLists, h])

/-- A client subscribes to news and publishes to it. -/
def subscribeAndPublish : List Command :=
  [.subscribe news, .publish news updates]

/-- The client connects and sends both commands, and the broker executes the first one. -/
def connectAndSubscribe : List (BroadcastStep 1) :=
  [.service (.accept (.socket 1 7 true)), .call 0, .call 100,
    .service (.receive (.data (stream subscribeAndPublish))), .service (.execute 0)]

/-- The main thread has still to add the subscriber to the list. -/
theorem sockets_agree_connectAndSubscribe :
    ∃ s : Broadcast 1, s.pending = [.addToStart (.subscriberConnectionSockets 0) 1] ∧
      Delivered s.delivery ∧ ∃ cs, ListsHold s.delivery.nodes s.delivery.lists cs ∧
        Sockets.after ⟨fun name => Heap.vals (cs name), s.delivery.cells⟩ s.pending =
          ⟨socketPtrs s.service.mainLoop.connectionSockets s.service.mainLoop.topics,
            s.service.mainLoop.socket⟩ := by
  have hrun : ((broadcasting [news]).runVia (OnLists KeepsWalker)
      (.start [news] fun _ => ⟨none, .connectionSocket 0⟩) connectAndSubscribe).map
      Broadcast.pending = some [.addToStart (.subscriberConnectionSockets 0) 1] := by
    decide +kernel
  rcases Option.map_eq_some_iff.mp hrun with ⟨s, hs, hpending⟩
  have hfirst : (broadcasting [news]).ReachableVia (OnLists KeepsWalker)
      (.start [news] fun _ => ⟨none, .connectionSocket 0⟩) := System.ReachableVia.start ⟨_, rfl⟩
  exact ⟨s, hpending, sockets_agree (hfirst.runVia hs)⟩

end Broker
end PubSub
