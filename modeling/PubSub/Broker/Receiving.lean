import PubSub.Broker.Broadcasting

/-!
# What the subscribers receive

A client has subscribed to a topic, and its subscription is neither taken back nor closed.  From
then on the client is sent the messages of the topic in the order in which they have been
published and each one once, whatever the other clients and the threads of the broker do
meanwhile.  It may also get messages that were published before it subscribed: those for which
the consumer had not begun to walk.

Main results:

- Theorem {lit}`subscriber_follows`: what has been sent to the subscriber, and what the current
  walk will still send to it, are the messages of the walks since its subscription.
- Theorem {lit}`subscriber_receives`: these are messages of the topic that follow each other, from
  before the first one that has been published since the subscription.
-/

namespace PubSub
namespace Broker

open Foundations

variable {topicNames : List Bytes} {s₀ s₁ s : Broadcast topicNames.length}
  {t : Fin topicNames.length} {a : Addr} {p : SocketPtr} {socket : Socket}
  {events : List (WalkEvent ListName)}

/-- The main thread adds a node for the connection in cell {lit}`p` to the subscriber list of
topic {lit}`t`, as it has to for a command that it has executed. -/
structure Subscribes {n : Nat} (t : Fin n) (a : Addr) (p : SocketPtr) (socket : Socket)
    (s₀ s₁ : Broadcast n) : Prop where
  call : s₀.pending.head? = some (.addToStart (.subscriberConnectionSockets t) p)
  cell : s₀.delivery.cells p = some socket
  step : broadcastStep s₀ (.call a) = some s₁

/-- At the lists this is a call of {lit}`add_to_start`. -/
theorem Subscribes.add (hsub : Subscribes t a p socket s₀ s₁) :
    deliveryStep s₀.delivery (.add (.subscriberConnectionSockets t) p a) = some s₁.delivery := by
  have hcall := hsub.call
  cases broadcastStep_moves hsub.step with
  | call hpending hstep =>
      rw [hpending, List.head?_cons, Option.some.injEq] at hcall
      rw [hcall] at hstep
      exact hstep

/-- As long as the main thread does not remove the node at which the consumer stands. -/
theorem Subscribes.reachable (hsub : Subscribes t a p socket s₀ s₁)
    (hreach : (broadcasting topicNames).ReachableVia (OnLists KeepsWalker) s₀)
    (hlogs : (broadcasting topicNames).Logs (OnLists (KeepsSubscriber a p)) broadcastEvents
      s₁ events s) :
    (broadcasting topicNames).ReachableVia (OnLists KeepsWalker) s₁ ∧
      (broadcasting topicNames).ReachableVia (OnLists KeepsWalker) s := by
  have hkeep : OnLists KeepsWalker s₀ (.call a) := by
    intro action haction
    rw [Broadcast.actionOf, hsub.call, Option.map_some, Option.some.injEq] at haction
    rw [← haction]
    trivial
  have hreach₁ := hreach.step hkeep hsub.step
  have hlogs' : (broadcasting topicNames).Logs (OnLists KeepsWalker) broadcastEvents s₁ events s :=
    hlogs.mono fun _ _ hallowed action haction => (hallowed action haction).1
  exact ⟨hreach₁, hlogs'.reachableVia hreach₁⟩

/-- The subscriber follows the walks through the list of its topic. -/
theorem subscriber_follows
    (hreach : (broadcasting topicNames).ReachableVia (OnLists KeepsWalker) s₀)
    (hsub : Subscribes t a p socket s₀ s₁)
    (hlogs : (broadcasting topicNames).Logs (OnLists (KeepsSubscriber a p)) broadcastEvents
      s₁ events s) :
    Follows (.subscriberConnectionSockets t) a p socket s.delivery events :=
  (follows_of_logs (walkInv_of_broadcasting hreach) hsub.cell hsub.add (delivery_logs hlogs)).2

/-- What is sent to the subscriber's node goes to its connection. -/
theorem socket_of_sent
    (hreach : (broadcasting topicNames).ReachableVia (OnLists KeepsWalker) s₀)
    (hsub : Subscribes t a p socket s₀ s₁)
    (hlogs : (broadcasting topicNames).Logs (OnLists (KeepsSubscriber a p)) broadcastEvents
      s₁ events s) {e : Sending} (he : e ∈ sentTo a events) :
    e.socketPtr = p ∧ e.socket = socket := by
  have hmem := List.mem_append_left ((s.delivery.ahead a).toList.map (⟨a, p, socket, ·⟩)) he
  rw [(subscriber_follows hreach hsub hlogs).sent] at hmem
  rcases List.mem_map.mp hmem with ⟨message, -, rfl⟩
  exact ⟨rfl, rfl⟩

/-- The messages that have been published to the topic are those for which the consumer had begun
to walk when the client subscribed, those that the subscriber has been sent, one that the current
walk will still send to it, and those that come later. -/
theorem subscriber_accounted
    (hreach : (broadcasting topicNames).ReachableVia (OnLists KeepsWalker) s₀)
    (hsub : Subscribes t a p socket s₀ s₁)
    (hlogs : (broadcasting topicNames).Logs (OnLists (KeepsSubscriber a p)) broadcastEvents
      s₁ events s) :
    ∃ walked later, walked <+: s₁.service.threads.log.published t ∧
      s.begun t = (walked ++ (sentTo a events).map Sending.message ++
        (s.delivery.ahead a).toList).map some ∧
      s.service.threads.log.published t = walked ++ (sentTo a events).map Sending.message ++
        (s.delivery.ahead a).toList ++ later := by
  rcases hsub.reachable hreach hlogs with ⟨hreach₁, hreach'⟩
  rcases begun_of_broadcasting hreach₁ t with ⟨walked, before, hpublished₁, hwalked⟩
  rcases begun_of_broadcasting hreach' t with ⟨walked', later, hpublished, hwalked'⟩
  have hfollows := (subscriber_follows hreach hsub hlogs).sent
  have hsent := congrArg (List.map Sending.message) hfollows
  simp only [List.map_append, List.map_map, Function.comp_def, List.map_id'] at hsent
  have hbegun := begun_of_logs hlogs t
  have hmore : walked' = walked ++ (sentTo a events).map Sending.message ++
      (s.delivery.ahead a).toList := by
    rw [hwalked, hwalked', ← List.map_append] at hbegun
    have heq := List.map_injective_iff.mpr (Option.some_injective _) hbegun
    rw [heq, List.append_assoc, hsent]
  refine ⟨walked, later, ⟨before, hpublished₁.symm⟩, ?_, ?_⟩
  · rw [hwalked', hmore]
  · rw [hpublished, hmore]

/-- What the subscriber has been sent are messages of its topic that follow each other in the
order in which they have been published, each one once, and no message that has been published
since the subscription is left out before them. -/
theorem subscriber_receives
    (hreach : (broadcasting topicNames).ReachableVia (OnLists KeepsWalker) s₀)
    (hsub : Subscribes t a p socket s₀ s₁)
    (hlogs : (broadcasting topicNames).Logs (OnLists (KeepsSubscriber a p)) broadcastEvents
      s₁ events s) :
    (∃ before later, s.service.threads.log.published t =
        before ++ (sentTo a events).map Sending.message ++ later ∧
      before <+: s₁.service.threads.log.published t) ∧
      ∀ e ∈ sentTo a events, e.socketPtr = p ∧ e.socket = socket := by
  rcases subscriber_accounted hreach hsub hlogs with ⟨walked, later, hbefore, -, hpublished⟩
  refine ⟨⟨walked, (s.delivery.ahead a).toList ++ later, ?_, hbefore⟩, ?_⟩
  · rw [hpublished, List.append_assoc]
  · exact fun e he => socket_of_sent hreach hsub hlogs he

/-! ## A client that subscribes and publishes -/

/-- The broker executes the second command of {name}`subscribeAndPublish` and walks to the
subscriber. -/
def publishAndWalk : List (BroadcastStep 1) :=
  [.service (.execute 0), .service .finish] ++
    List.replicate 14 (.service (.thread (.topic (Fin.last 0)))) ++
    List.replicate 6 (.service (.thread (.consumer none))) ++ List.replicate 3 .walk ++
    List.replicate 5 (.service (.thread (.consumer none)))

/-- The main thread has added the subscriber, and the broker has gone to rest. -/
theorem run_publishAndWalk :
    ∃ s₀ s₁ s : Broadcast 1,
      (broadcasting [news]).runVia (OnLists KeepsWalker)
        (.start [news] fun _ => ⟨none, .connectionSocket 0⟩) connectAndSubscribe = some s₀ ∧
      Subscribes 0 101 1 7 s₀ s₁ ∧
      (broadcasting [news]).runVia (OnLists (KeepsSubscriber 101 1)) s₁ publishAndWalk = some s ∧
      s₁.service.threads.log.published 0 = [] ∧
      (sentTo 101 ((broadcasting [news]).runLog broadcastEvents s₁ publishAndWalk)).map
        Sending.message = [hashtag :: updates] ∧
      s.service.received = [(7, stream subscribeAndPublish)] ∧ s.pending = [] ∧
      s.service.position = none ∧ s.service.threads.producing .main = none ∧
      s.service.threads.topic 0 = .waiting ∧ s.service.threads.consumer = .waiting ∧
      s.service.mainLoop.topics = [⟨news, [hashtag :: updates], [1]⟩] := by
  have hrun₀ : ((broadcasting [news]).runVia (OnLists KeepsWalker)
      (.start [news] fun _ => ⟨none, .connectionSocket 0⟩) connectAndSubscribe).map
        (fun s₀ => (s₀.pending.head?, s₀.delivery.cells 1)) =
      some (some (.addToStart (.subscriberConnectionSockets 0) 1), some 7) := by
    decide +kernel
  rcases Option.map_eq_some_iff.mp hrun₀ with ⟨s₀, hs₀, heq₀⟩
  have hrun₁ : (((broadcasting [news]).runVia (OnLists KeepsWalker)
      (.start [news] fun _ => ⟨none, .connectionSocket 0⟩) connectAndSubscribe).bind
        fun s₀ => broadcastStep s₀ (.call 101)).map
        (fun s₁ => s₁.service.threads.log.published 0) = some [] := by
    decide +kernel
  rw [hs₀, Option.bind_some] at hrun₁
  rcases Option.map_eq_some_iff.mp hrun₁ with ⟨s₁, hs₁, hpublished⟩
  have hrun₂ : ((((broadcasting [news]).runVia (OnLists KeepsWalker)
      (.start [news] fun _ => ⟨none, .connectionSocket 0⟩) connectAndSubscribe).bind
        fun s₀ => broadcastStep s₀ (.call 101)).bind fun s₁ =>
          ((broadcasting [news]).runVia (OnLists (KeepsSubscriber 101 1)) s₁ publishAndWalk).map
            fun s => ((sentTo 101 ((broadcasting [news]).runLog broadcastEvents s₁
              publishAndWalk)).map Sending.message, s.service.received, s.pending)) =
      some ([hashtag :: updates], [(7, stream subscribeAndPublish)], []) := by
    decide +kernel
  rw [hs₀, Option.bind_some, hs₁, Option.bind_some] at hrun₂
  rcases Option.map_eq_some_iff.mp hrun₂ with ⟨s, hs, heq⟩
  have hrun₃ : ((((broadcasting [news]).runVia (OnLists KeepsWalker)
      (.start [news] fun _ => ⟨none, .connectionSocket 0⟩) connectAndSubscribe).bind
        fun s₀ => broadcastStep s₀ (.call 101)).bind fun s₁ =>
          ((broadcasting [news]).runVia (OnLists (KeepsSubscriber 101 1)) s₁ publishAndWalk).map
            fun s => (s.service.position, s.service.threads.producing .main,
              s.service.threads.topic 0, s.service.threads.consumer, s.service.mainLoop.topics)) =
      some (none, none, .waiting, .waiting, [⟨news, [hashtag :: updates], [1]⟩]) := by
    decide +kernel
  rw [hs₀, Option.bind_some, hs₁, Option.bind_some, hs, Option.map_some] at hrun₃
  simp only [Prod.mk.injEq, Option.some.injEq] at heq₀ heq hrun₃
  exact ⟨s₀, s₁, s, hs₀, ⟨heq₀.1, heq₀.2, hs₁⟩, hs, hpublished, heq.1, heq.2.1, heq.2.2, hrun₃⟩

theorem subscriber_receives_publishAndWalk :
    ∃ (s : Broadcast 1) (events : List (WalkEvent ListName)),
      (sentTo 101 events).map Sending.message = [hashtag :: updates] ∧
      (∃ before later, s.service.threads.log.published 0 =
        before ++ (sentTo 101 events).map Sending.message ++ later ∧ before <+: []) ∧
      ∀ e ∈ sentTo 101 events, e.socketPtr = 1 ∧ e.socket = 7 := by
  rcases run_publishAndWalk with ⟨s₀, s₁, s, hs₀, hsub, hs, hpublished, hsent, -⟩
  have hfirst : (broadcasting [news]).ReachableVia (OnLists KeepsWalker)
      (.start [news] fun _ => ⟨none, .connectionSocket 0⟩) := System.ReachableVia.start ⟨_, rfl⟩
  have hlogs : (broadcasting [news]).Logs (OnLists (KeepsSubscriber 101 1)) broadcastEvents s₁
      ((broadcasting [news]).runLog broadcastEvents s₁ publishAndWalk) s :=
    System.Logs.of_runVia (fun _ _ _ hkeep => hkeep) hs
  have hreceives := subscriber_receives (hfirst.runVia hs₀) hsub hlogs
  rw [hpublished] at hreceives
  exact ⟨s, _, hsent, hreceives⟩

end Broker
end PubSub
