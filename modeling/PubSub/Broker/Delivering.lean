import PubSub.Broker.Receiving
import PubSub.Broker.Walking

/-!
# Everything published is received

Left to itself, the broker with its socket lists comes to rest: the commands that have been
received are executed, the calls for the lists are made, and every walk is finished.  The main
thread only has to wait until the consumer has left a node before it removes it.  At rest, a
client that has stayed subscribed has been sent everything that has been published since its
subscription.

Main results:

- Theorem {lit}`exists_call`: the main thread can make every call that it has to.
- Theorem {lit}`settled_of_stuck`: at rest, there is nothing left to be done.
- Theorem {lit}`broadcast_settles`: the broker, left to itself in any state, comes to rest.
- Theorem {lit}`subscriber_served`: what the clients have published to a topic since a
  subscription has then been sent to the subscriber.
-/

namespace PubSub
namespace Broker

open Foundations Threads

/-! ## Calls that can be made -/

/-- The cell of a new connection has just been allocated, and other calls are for cells that there
are. -/
def MainCall.Possible (v : Sockets) : MainCall → Prop
  | .store socketPtr _ => v.cell socketPtr = none
  | .invalidate socketPtr | .addToStart _ socketPtr => v.cell socketPtr ≠ none
  | .freeNode _ _ => True

/-- The calls can be made one after the other. -/
def Sockets.Permits (v : Sockets) : List MainCall → Prop
  | [] => True
  | call :: calls => call.Possible v ∧ (call.effect v).Permits calls

/-- A call that is possible can be made in memory. -/
theorem exists_call {d : Delivery ListName} (hd : WalkInv d) {call : MainCall}
    (hpossible : call.Possible d.sockets) :
    ∃ node d', deliveryStep d (call.action node) = some d' := by
  refine ⟨d.nodes.bound, Option.isSome_iff_exists.mp ?_⟩
  have hfresh := d.nodes.read_of_bound_le d.nodes.bound (Nat.le_refl _)
  cases call with
  | store p socket =>
      have hnone : d.cells p = none := hpossible
      simp [MainCall.action, deliveryStep, hnone]
  | invalidate p =>
      have hsome : d.cells p ≠ none := hpossible
      simp [MainCall.action, deliveryStep, hsome]
  | addToStart name p =>
      have hsome : d.cells p ≠ none := hpossible
      simp [MainCall.action, deliveryStep, hfresh, hsome]
  | freeNode name p =>
      rcases hd.lists with ⟨cs, hl, -, -⟩
      rcases freeNode_erase hl name p with ⟨nodes, list, cs', hfree, -, -⟩
      simp [MainCall.action, deliveryStep, hfree]

theorem permits_freeNodes (v : Sockets) (socketPtr : SocketPtr) (is : List Nat) :
    v.Permits (is.map fun i => .freeNode (.subscriberConnectionSockets i) socketPtr) := by
  induction is generalizing v with
  | nil => trivial
  | cons i is ih => exact ⟨trivial, ih _⟩

/-- {lit}`accept` returns a new cell. -/
theorem acceptConnection_permits {s s' : MainLoop} {accepted : Accepted}
    (h : acceptConnection s accepted = some s') : s.sockets.Permits (acceptCalls s accepted) := by
  cases accepted with
  | selectError | willBlock => trivial
  | socket p socket nonblocking =>
      rw [acceptCalls]
      split
      · trivial
      next hroom =>
      rw [acceptConnection, if_neg hroom] at h
      simp only at h
      split at h
      · contradiction
      next hfresh =>
      rw [ne_eq, Classical.not_not] at hfresh
      split
      · exact ⟨hfresh, trivial⟩
      · refine ⟨hfresh, ?_, trivial⟩
        simp [MainCall.Possible, MainCall.effect]

/-- A command is executed for a connection with a cell. -/
theorem subscriptionCall_permits {v : Sockets} {topics : List Topic} {command : Bytes}
    {connectionSocketPtr : SocketPtr} (hcell : v.cell connectionSocketPtr ≠ none) :
    v.Permits (subscriptionCall topics command connectionSocketPtr).toList := by
  cases hcall : subscriptionCall topics command connectionSocketPtr with
  | none => trivial
  | some call =>
      refine ⟨?_, trivial⟩
      simp only [subscriptionCall, Option.bind_eq_bind, Option.bind_eq_some_iff] at hcall
      rcases hcall with ⟨topicName, -, i, -, hcall⟩
      split at hcall
      · rw [Option.ite_none_right_eq_some, Option.some.injEq] at hcall
        rw [← hcall.2]
        exact hcell
      · rw [Option.ite_none_right_eq_some, Option.some.injEq] at hcall
        rw [← hcall.2]
        trivial

variable {n : Nat}

/-- The calls of a step of the main thread are possible. -/
theorem serviceStep_permits {s s' : Service n} {l : ServiceStep n}
    (hstep : serviceStep s l = some s') : s.mainLoop.sockets.Permits (listCalls s l) := by
  cases l with
  | accept accepted =>
      cases serviceStep_moves hstep with
      | accept hposition haccept =>
          rcases mainLoopStep_accept_eq_some_iff.mp haccept with ⟨-, t, ht, -⟩
          exact acceptConnection_permits ht
  | receive incoming =>
      cases incoming with
      | selectError | willBlock | data | recvError => trivial
      | closed =>
          simp only [serviceStep] at hstep
          split at hstep
          · next p rest hposition hwalker =>
            rw [Option.bind_eq_bind, Option.bind_eq_some_iff] at hstep
            rcases hstep with ⟨socket, hsocket, -⟩
            simp only [listCalls, hwalker]
            refine ⟨?_, trivial, permits_freeNodes _ _ _⟩
            simp [MainCall.Possible, MainLoop.sockets, hsocket]
          · contradiction
  | execute node =>
      cases serviceStep_moves hstep with
      | execute hposition hidle hwalker hsocket =>
          simp only [listCalls, hposition, hwalker]
          apply subscriptionCall_permits
          simp [MainLoop.sockets, hsocket]
  | finish | thread => trivial

variable {topicNames : List Bytes} {s s' : Broadcast topicNames.length}

/-- Either the main thread has made all its calls, or somebody else moves. -/
theorem admits_pending {s : Broadcast n} {l : ServiceStep n} (hadmits : s.admits l = true) :
    s.pending = [] ∨ listCalls s.service l = [] := by
  cases l with
  | accept | receive | execute | finish => exact .inl (List.isEmpty_iff.mp hadmits)
  | thread a => exact .inr rfl

/-- The main thread can always make the calls that it has to. -/
theorem permits_of_broadcasting
    (hreach : (broadcasting topicNames).ReachableVia (OnLists KeepsWalker) s) :
    s.delivery.sockets.Permits s.pending := by
  induction hreach with
  | start hinit =>
      rcases hinit with ⟨garbage, rfl⟩
      trivial
  | @step s s' l hreach hallowed hstep ih =>
      rcases agrees_of_broadcasting hreach with ⟨hwalk, hagrees⟩
      cases broadcastStep_moves hstep with
      | service hadmits hservice =>
          rcases admits_pending hadmits with hnone | hnone
          · -- the lists are those of the main loop
            have hsame : s.delivery.sockets = s.service.mainLoop.sockets := by
              unfold Agrees at hagrees
              rwa [hnone, Sockets.after_nil] at hagrees
            simp only [hnone, List.nil_append, hsame]
            exact serviceStep_permits hservice
          · simp only [hnone, List.append_nil]
            exact ih
      | call hpending hcall =>
          rw [hpending] at ih
          simp only [deliveryStep_call hwalk hcall]
          exact ih.2
      | walk hnext hdelivery =>
          simp only [nextOfWalk_sockets hnext hdelivery]
          exact ih

/-! ## Walks that can go on -/

/-- The walk itself removes no nodes. -/
theorem onLists_walk (s : Broadcast n) : OnLists KeepsWalker s .walk := by
  intro action hnext
  cases nextOfWalk_moves hnext with
  | start | send | advance => trivial

/-- The consumer can go on until the walk is finished. -/
theorem exists_walk {s : Broadcast n} (hwalk : WalkInv s.delivery) (hs : Walks s) {t : Fin n}
    {message : Bytes}
    (hsending : s.service.threads.consumer.sending =
      some ⟨some message, .subscriberConnectionSockets t⟩)
    (hopen : ¬ (s.walking = true ∧ ∃ name m, s.delivery.walk = .finished name m)) :
    ∃ s', broadcastStep s .walk = some s' := by
  apply Option.isSome_iff_exists.mp
  cases hwalking : s.walking with
  | false =>
      have hstart : ∃ d', deliveryStep s.delivery
          (.start (.subscriberConnectionSockets t) message) = some d' := by
        rcases hs.free hwalking with hpc | ⟨name, m, hpc⟩ <;> simp [deliveryStep, hpc]
      rcases hstart with ⟨d', hstart⟩
      simp [broadcastStep, Broadcast.actionOf, Broadcast.nextOfWalk, hsending, hwalking, hstart]
  | true =>
      cases hpc : s.delivery.walk with
      | idle => exact absurd hpc (hs.busy hwalking).1
      | sending name e =>
          simp [broadcastStep, Broadcast.actionOf, Broadcast.nextOfWalk, hsending, hwalking, hpc,
            deliveryStep]
      | advancing name walker m =>
          have hadvance : ∃ d', deliveryStep s.delivery .advance = some d' := by
            simp only [deliveryStep, hpc]
            split <;> simp
          rcases hadvance with ⟨d', hadvance⟩
          simp [broadcastStep, Broadcast.actionOf, Broadcast.nextOfWalk, hsending, hwalking, hpc,
            hadvance]
      | finished name m => exact absurd ⟨hwalking, name, m, hpc⟩ hopen
      | dangling => exact absurd hpc hwalk.delivered.not_dangling

theorem ConsumerPc.inHand_of_sending {pc : ConsumerPc n} {e : OutgoingBufferElement n}
    (hsending : pc.sending = some e) : pc.inHand = [e] := by
  cases pc with
  | send e' | sendLast e' =>
      rw [ConsumerPc.sending, Option.some.injEq] at hsending
      rw [hsending]
      rfl
  | _ => contradiction

/-- What is sent to the subscribers of a topic is never a null pointer. -/
theorem sending_message
    {allowed : Broadcast topicNames.length → BroadcastStep topicNames.length → Prop}
    (hreach : (broadcasting topicNames).ReachableVia allowed s) {t : Fin topicNames.length}
    {message : Option Bytes}
    (hsending : s.service.threads.consumer.sending =
      some ⟨message, .subscriberConnectionSockets t⟩) : ∃ m, message = some m := by
  have hservice : (service topicNames).Reachable s.service :=
    service_of_broadcasting (fun _ _ _ => trivial) hreach
  have hthreads := threads_of_service hservice
  rcases invariants_of_keepsRunning hthreads with ⟨hbuffer, -⟩
  rcases exists_pipeline hthreads with ⟨p, hp, hdelivered, -⟩
  have haccounted := (Pipeline.accounted hp).messages t
  rw [hdelivered, hbuffer.hand, ConsumerPc.inHand_of_sending hsending, messagesFor_append,
    messagesFor_subscribers rfl, if_pos rfl] at haccounted
  have hmem : message ∈ (p.published t).map some := by
    rw [← haccounted]
    simp
  rcases List.mem_map.mp hmem with ⟨m, -, hm⟩
  exact ⟨m, hm.symm⟩

/-! ## At rest -/

/-- The broker with its moves, where the main thread waits before it removes a node until the
consumer has left it. -/
abbrev waitingForWalks (topicNames : List Bytes) :
    System (Broadcast topicNames.length) (BroadcastStep topicNames.length) :=
  (broadcasting topicNames).restrict (OnLists KeepsWalker)

/-- At rest, the consumer does not walk. -/
theorem walker_of_stuck
    (hreach : (broadcasting topicNames).ReachableVia (OnLists KeepsWalker) s)
    (hstuck : (waitingForWalks topicNames).Stuck BroadcastStep.IsOwn s) :
    s.delivery.walk.walker = none ∧ s.hasWalked = true := by
  have hwalk := walkInv_of_broadcasting hreach
  have hs := walks_of_broadcasting hreach
  have hfinished : ∀ t message, s.service.threads.consumer.sending =
      some ⟨some message, .subscriberConnectionSockets t⟩ →
      s.walking = true ∧ ∃ name m, s.delivery.walk = .finished name m := by
    intro t message hsending
    by_contra hopen
    rcases exists_walk hwalk hs hsending hopen with ⟨s', hstep⟩
    have hnone : (waitingForWalks topicNames).step s .walk = none := hstuck .walk trivial
    rw [System.restrict_step_eq_some_iff.mpr ⟨onLists_walk s, hstep⟩] at hnone
    contradiction
  constructor
  · cases hwalking : s.walking with
    | false =>
        rcases hs.free hwalking with hpc | ⟨name, m, hpc⟩
        · rw [hpc]
          rfl
        · rw [hpc]
          rfl
    | true =>
        rcases (hs.busy hwalking).2 with ⟨t, message, hsending⟩
        rcases (hfinished t message hsending).2 with ⟨name, m, hpc⟩
        rw [hpc]
        rfl
  · cases hsending : s.service.threads.consumer.sending with
    | none => simp [Broadcast.hasWalked, hsending]
    | some e =>
        rcases e with ⟨message, sockets⟩
        cases sockets with
        | connectionSocket socket => simp [Broadcast.hasWalked, hsending]
        | subscriberConnectionSockets t =>
            rcases sending_message hreach hsending with ⟨m, rfl⟩
            rcases hfinished t m hsending with ⟨hwalking, name, m', hpc⟩
            simp [Broadcast.hasWalked, hsending, hwalking, hpc]

/-- There is nothing left to be done: no calls are pending, the walks are finished, and everything
published has been sent. -/
structure Settled (s : Broadcast n) : Prop where
  pending : s.pending = []
  walk : s.delivery.walk = .idle ∨ ∃ name message, s.delivery.walk = .finished name message
  sent : AllSent s.service.threads
  begun : ∀ t, s.begun t = (s.service.threads.log.published t).map some

/-- At rest, the main thread has made all its calls. -/
theorem pending_of_stuck
    (hreach : (broadcasting topicNames).ReachableVia (OnLists KeepsWalker) s)
    (hstuck : (broadcasting topicNames).Stuck BroadcastStep.IsOwn s) : s.pending = [] := by
  cases hpending : s.pending with
  | nil => rfl
  | cons call rest =>
      have hpermits := permits_of_broadcasting hreach
      rw [hpending] at hpermits
      rcases exists_call (walkInv_of_broadcasting hreach) hpermits.1 with ⟨node, d', hstep⟩
      have hnone : broadcastStep s (.call node) = none := hstuck (.call node) trivial
      simp [broadcastStep, Broadcast.actionOf, hpending, hstep] at hnone

/-- Then the main loop and the threads are at rest as well. -/
theorem service_stuck
    (hreach : (broadcasting topicNames).ReachableVia (OnLists KeepsWalker) s)
    (hstuck : (broadcasting topicNames).Stuck BroadcastStep.IsOwn s) :
    (service topicNames).Stuck ServiceStep.IsOwn s.service := by
  intro l hown
  have hnone : broadcastStep s (.service l) = none := hstuck (.service l) hown
  have hadmits : s.admits l = true := by
    cases l with
    | accept | receive => exact absurd hown (by simp [ServiceStep.IsOwn])
    | execute | finish => exact List.isEmpty_iff.mpr (pending_of_stuck hreach hstuck)
    | thread a =>
        cases a with
        | consumer wake => exact (walker_of_stuck hreach hstuck.restrict).2
        | publish | respond | main | topic | shutDown | spurious => rfl
  rw [broadcastStep, if_pos hadmits, Option.map_eq_none_iff] at hnone
  exact hnone

theorem settled_of_stuck
    (hreach : (broadcasting topicNames).ReachableVia (OnLists KeepsWalker) s)
    (hstuck : (broadcasting topicNames).Stuck BroadcastStep.IsOwn s) : Settled s := by
  have hservice : (service topicNames).Reachable s.service :=
    service_of_broadcasting (fun _ _ _ => trivial) hreach
  have hthreads := threads_of_service hservice
  have hquiet := threads_stuck (service_stuck hreach hstuck)
  have hcreated : createAndStartThreads (fun _ : Fin topicNames.length => true) true = true := by
    simp [createAndStartThreads]
  have hsent := allSent_of_stuck hcreated hthreads hquiet
  have hwaiting := (waits_of_stuck hcreated hthreads hquiet).1
  have hidle : s.walking = false := by
    by_contra hwalking
    rw [Bool.not_eq_false] at hwalking
    rcases ((walks_of_broadcasting hreach).busy hwalking).2 with ⟨t, message, hsending⟩
    simp [hwaiting, ConsumerPc.sending] at hsending
  refine ⟨pending_of_stuck hreach hstuck, (walks_of_broadcasting hreach).free hidle, hsent, ?_⟩
  intro t
  simp only [Broadcast.begun, hidle, Bool.false_eq_true, if_false, List.append_nil]
  exact hsent.messages t

/-- A condition on the steps, seen at the main loop and the threads. -/
def OnService (allowed : Service n → ServiceStep n → Prop) (s : Broadcast n)
    (l : BroadcastStep n) : Prop :=
  ∀ l', l = .service l' → allowed s.service l'

/-- The main thread does not remove the node at which the consumer stands, and what it receives
are commands. -/
def ServesCommands (s : Broadcast topicNames.length) (l : BroadcastStep topicNames.length) : Prop :=
  OnLists KeepsWalker s l ∧ OnService ReceivesCommands s l

/-- Nor does it remove the node {lit}`a` or close the connection in cell {lit}`p`. -/
def ServesSubscriber (a : Addr) (p : SocketPtr) (s : Broadcast topicNames.length)
    (l : BroadcastStep topicNames.length) : Prop :=
  OnLists (KeepsSubscriber a p) s l ∧ OnService ReceivesCommands s l

variable {s₀ s₁ : Broadcast topicNames.length} {t : Fin topicNames.length} {a : Addr}
  {p : SocketPtr} {socket : Socket} {events : List (WalkEvent ListName)}

/-- At rest, the subscriber has been sent all messages of its topic from the first one on for
which the consumer had not begun to walk when the client subscribed. -/
theorem received_of_stuck
    (hreach : (broadcasting topicNames).ReachableVia (OnLists KeepsWalker) s₀)
    (hsub : Subscribes t a p socket s₀ s₁)
    (hlogs : (broadcasting topicNames).Logs (OnLists (KeepsSubscriber a p)) broadcastEvents
      s₁ events s) (hstuck : (broadcasting topicNames).Stuck BroadcastStep.IsOwn s) :
    ∃ earlier, earlier <+: s₁.service.threads.log.published t ∧
      s.service.threads.log.published t = earlier ++ (sentTo a events).map Sending.message := by
  have hsettled := settled_of_stuck (hsub.reachable hreach hlogs).2 hstuck
  rcases subscriber_accounted hreach hsub hlogs with ⟨earlier, later, hearlier, hbegun, -⟩
  refine ⟨earlier, hearlier, ?_⟩
  have hahead : s.delivery.ahead a = none := by
    rcases hsettled.walk with hpc | ⟨name, m, hpc⟩ <;> simp [Delivery.ahead, hpc]
  rw [hahead, Option.toList_none, List.append_nil, hsettled.begun t] at hbegun
  exact List.map_injective_iff.mpr (Option.some_injective _) hbegun

/-- At rest, what has been published to a topic is what the clients have asked for. -/
theorem published_of_stuck
    (hreach : (broadcasting topicNames).ReachableVia (OnLists KeepsWalker) s)
    (hserves : (broadcasting topicNames).ReachableVia (OnService ReceivesCommands) s)
    {requests : List ClientRequest} (hrequests : BringRequests s.service.received requests)
    (hstuck : (broadcasting topicNames).Stuck BroadcastStep.IsOwn s)
    (hbounded : ∀ topic ∈ s.service.mainLoop.topics,
      topic.subscriberConnectionSockets.length ≤ subscriberListMaxSize) :
    s.service.threads.log.published t = messagesTo topicNames t requests := by
  have hservice : (service topicNames).ReachableVia ReceivesCommands s.service :=
    service_of_broadcasting (fun _ l hallowed => hallowed l rfl) hserves
  rcases inService_of_service hservice with ⟨done, todo, hs⟩
  have hserved := served_of_stuck hservice hs (service_stuck hreach hstuck) hbounded
  rw [hs.received.unique hrequests] at hserved
  have hsent := (settled_of_stuck hreach hstuck).sent.messages t
  rw [hserved.messages t] at hsent
  exact (List.map_injective_iff.mpr (Option.some_injective _) hsent).symm

/-- With no calls pending, a broker between two rounds whose threads wait is at rest. -/
theorem broadcasting_stuck_of_rest (hpending : s.pending = [])
    (hposition : s.service.position = none)
    (hmain : s.service.threads.producing .main = none)
    (htopic : ∀ t, s.service.threads.topic t = .waiting)
    (hconsumer : s.service.threads.consumer = .waiting) :
    (broadcasting topicNames).Stuck BroadcastStep.IsOwn s := by
  intro l hl
  cases l with
  | call node => simp [broadcasting, broadcastStep, Broadcast.actionOf, hpending]
  | walk =>
      simp [broadcasting, broadcastStep, Broadcast.actionOf, Broadcast.nextOfWalk, hconsumer,
        ConsumerPc.sending]
  | service l' =>
      have hservice : (service topicNames).Stuck ServiceStep.IsOwn s.service :=
        stuck_of_rest hposition hmain htopic hconsumer
      have hnone : serviceStep s.service l' = none := hservice l' hl
      simp [broadcasting, broadcastStep, hnone]

/-- A client has subscribed to a topic, and its subscription stays.  When the broker has come to
rest, the client has been sent everything that the clients have asked to be published to the topic
since then, in this order and each message once; what it has not been sent had been published
before. -/
theorem subscriber_served
    (hreach : (broadcasting topicNames).ReachableVia ServesCommands s₀)
    (hsub : Subscribes t a p socket s₀ s₁)
    (hlogs : (broadcasting topicNames).Logs (ServesSubscriber a p) broadcastEvents s₁ events s)
    {requests : List ClientRequest} (hrequests : BringRequests s.service.received requests)
    (hstuck : (broadcasting topicNames).Stuck BroadcastStep.IsOwn s)
    (hbounded : ∀ topic ∈ s.service.mainLoop.topics,
      topic.subscriberConnectionSockets.length ≤ subscriberListMaxSize) :
    ∃ earlier, earlier <+: s₁.service.threads.log.published t ∧
      messagesTo topicNames t requests = earlier ++ (sentTo a events).map Sending.message := by
  have hreachLists : (broadcasting topicNames).ReachableVia (OnLists KeepsWalker) s₀ :=
    hreach.mono fun _ _ hallowed => hallowed.1
  have hlogsLists : (broadcasting topicNames).Logs (OnLists (KeepsSubscriber a p)) broadcastEvents
      s₁ events s := hlogs.mono fun _ _ hallowed => hallowed.1
  rcases received_of_stuck hreachLists hsub hlogsLists hstuck with ⟨earlier, hearlier, hreceived⟩
  have hserves : (broadcasting topicNames).ReachableVia (OnService ReceivesCommands) s := by
    have hreach₀ : (broadcasting topicNames).ReachableVia (OnService ReceivesCommands) s₀ :=
      hreach.mono fun _ _ hallowed => hallowed.2
    have hcall : OnService ReceivesCommands s₀ (.call a) := fun _ heq => by contradiction
    have hlogsService : (broadcasting topicNames).Logs (OnService ReceivesCommands)
        broadcastEvents s₁ events s := hlogs.mono fun _ _ hallowed => hallowed.2
    exact hlogsService.reachableVia (hreach₀.step hcall hsub.step)
  have hpublished := published_of_stuck (hsub.reachable hreachLists hlogsLists).2 hserves hrequests
    hstuck hbounded (t := t)
  exact ⟨earlier, hearlier, hpublished.symm.trans hreceived⟩

/-- What the client of {name}`connectAndSubscribe` sends are commands. -/
theorem receivesCommands_connectAndSubscribe (s : Broadcast 1) :
    ∀ l ∈ connectAndSubscribe ++ publishAndWalk, OnService (ReceivesCommands (n := 1)) s l := by
  intro l hl l' heq
  subst heq
  cases l' with
  | receive incoming =>
      simp only [connectAndSubscribe, publishAndWalk, List.mem_append, List.mem_cons,
        List.mem_replicate, List.not_mem_nil, reduceCtorEq, BroadcastStep.service.injEq,
        ServiceStep.receive.injEq, and_false, or_false, false_or] at hl
      rw [hl]
      exact ⟨subscribeAndPublish, by decide, rfl, by decide⟩
  | accept | execute | finish | thread => trivial

theorem subscriber_served_publishAndWalk :
    ∃ (s : Broadcast 1) (events : List (WalkEvent ListName)),
      (sentTo 101 events).map Sending.message = [hashtag :: updates] ∧
      s.service.received = [(7, stream subscribeAndPublish)] ∧
      ∃ earlier, earlier <+: [] ∧ messagesTo [news] 0 (subscribeAndPublish.map (Prod.mk 7)) =
        earlier ++ (sentTo 101 events).map Sending.message := by
  rcases run_publishAndWalk with ⟨s₀, s₁, s, hs₀, hsub, hs, hpublished, hsent, hreceived, hpending,
    hposition, hmain, htopic, hconsumer, htopics⟩
  have hfirst : (broadcasting [news]).ReachableVia ServesCommands
      (.start [news] fun _ => ⟨none, .connectionSocket 0⟩) := System.ReachableVia.start ⟨_, rfl⟩
  have hlogs₀ : (broadcasting [news]).Logs ServesCommands broadcastEvents
      (.start [news] fun _ => ⟨none, .connectionSocket 0⟩) _ s₀ :=
    System.Logs.of_runVia (fun l hl s hkeep =>
      ⟨hkeep, receivesCommands_connectAndSubscribe s l (List.mem_append_left _ hl)⟩) hs₀
  have hlogs : (broadcasting [news]).Logs (ServesSubscriber 101 1) broadcastEvents s₁
      ((broadcasting [news]).runLog broadcastEvents s₁ publishAndWalk) s :=
    System.Logs.of_runVia (fun l hl s hkeep =>
      ⟨hkeep, receivesCommands_connectAndSubscribe s l (List.mem_append_right _ hl)⟩) hs
  have hrequests : BringRequests s.service.received (subscribeAndPublish.map (Prod.mk 7)) := by
    rw [hreceived]
    exact ⟨[(7, subscribeAndPublish)], rfl, by decide, rfl⟩
  have htopic' : ∀ i : Fin 1, s.service.threads.topic i = .waiting :=
    Fin.forall_fin_one.mpr htopic
  have hstuck : (broadcasting [news]).Stuck BroadcastStep.IsOwn s :=
    broadcasting_stuck_of_rest hpending hposition hmain htopic' hconsumer
  have hbounded : ∀ topic ∈ s.service.mainLoop.topics,
      topic.subscriberConnectionSockets.length ≤ subscriberListMaxSize := by
    rw [htopics]
    simp [subscriberListMaxSize]
  have hserved := subscriber_served (hlogs₀.reachableVia hfirst) hsub hlogs hrequests hstuck
    hbounded
  rw [hpublished] at hserved
  exact ⟨s, _, hsent, hreceived, hserved⟩

end Broker
end PubSub
