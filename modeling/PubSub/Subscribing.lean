import PubSub.Conversing

/-!
# A client that subscribes

From the publisher's command to what the subscriber prints: the broker puts the message into the
queue of its topic, the topic thread into the outgoing buffer, and the consumer walks with it
through the subscriber list; it arrives at the client, which prints it.

Main results:

- Theorem {lit}`written_of_logs`: what the consumer sends to a node of the client is written to its
  connection.
- Theorem {lit}`subscriber_prints`: when the broker has come to rest and everything has arrived, the
  subscriber has printed all messages that have been published since it subscribed.
-/

namespace PubSub
namespace Conversing

open Foundations Client Broker

variable {n : Nat}

/-- What a step adds to the log of the walks. -/
def conversationEvents (s : Conversation n) : ConversationStep n → List (WalkEvent ListName)
  | .broker l _ => broadcastEvents s.broker l
  | .choose _ _ _ | .answer _ | .poll _ => []

/-- The client keeps its socket for itself, responses and messages arrive apart, and the main thread
does not remove the node at which the consumer stands. -/
def TellsAndKeeps (socket : Socket) (s : Conversation n) (l : ConversationStep n) : Prop :=
  OnBroker (OnLists KeepsWalker) s l ∧ TellsApart socket s l

/-- Nor does it remove the node {lit}`a` or close the connection in cell {lit}`p`. -/
def TellsSubscriber (socket : Socket) (a : Addr) (p : SocketPtr) (s : Conversation n)
    (l : ConversationStep n) : Prop :=
  OnBroker (OnLists (KeepsSubscriber a p)) s l ∧ TellsApart socket s l

/-! ## What is written -/

/-- The walk writes what it sends to a node of the client. -/
theorem sent_of_events {events : List (WalkEvent ListName)} {a : Addr} {socket : Socket}
    (h : ∀ e ∈ sentTo a events, e.socket = socket) :
    ((sentTo a events).map Sending.message).Sublist (messagesAmong (events.filterMap fun
      | .started _ _ => none
      | .sent e => if e.socket = socket then some (.message e.message) else none)) := by
  induction events with
  | nil => exact List.nil_sublist _
  | cons event events ih =>
      cases event with
      | started t message => exact ih h
      | sent e =>
          by_cases hnode : e.node = a
          · have hfirst : sentTo a (.sent e :: events) = e :: sentTo a events := by
              simp [sentTo, hnode]
            rw [hfirst] at h ⊢
            have hsocket : e.socket = socket := h e List.mem_cons_self
            have hrest := ih fun e' he' => h e' (List.mem_cons_of_mem _ he')
            simpa [hsocket, messagesAmong] using hrest.cons_cons e.message
          · have hfirst : sentTo a (.sent e :: events) = sentTo a events := by
              simp [sentTo, hnode]
            rw [hfirst] at h ⊢
            have hrest := ih h
            by_cases hsocket : e.socket = socket
            · simpa [hsocket, messagesAmong] using hrest.cons e.message
            · simpa [hsocket, messagesAmong] using hrest

theorem sent_written {s s' : Broadcast n} {l : BroadcastStep n} (hmoves : BroadcastMoves s l s')
    {a : Addr} {socket : Socket} (h : ∀ e ∈ sentTo a (broadcastEvents s l), e.socket = socket) :
    ((sentTo a (broadcastEvents s l)).map Sending.message).Sublist
      (messagesAmong (writtenTo socket s l)) := by
  cases hmoves with
  | service => exact List.nil_sublist _
  | @call node call rest delivery hpending hstep =>
      have hnone : broadcastEvents s (.call node) = [] := by
        rw [broadcastEvents, Broadcast.actionOf, hpending]
        cases call <;> rfl
      rw [hnone]
      exact List.nil_sublist _
  | walk => exact sent_of_events h

variable {topicNames : List Bytes} {socket : Socket} {s s' : Conversation topicNames.length}
  {events : List (WalkEvent ListName)}

/-- What happens at the broker in a run is a run of it, with the same log. -/
theorem broker_logs
    {allowed : Broadcast topicNames.length → BroadcastStep topicNames.length → Prop}
    (hlogs : (conversing topicNames socket).Logs (OnBroker allowed) conversationEvents
      s events s') :
    (broadcasting topicNames).Logs allowed broadcastEvents s.broker events s'.broker := by
  induction hlogs with
  | start => exact .start
  | @step u v l events hlogs hallowed hstep ih =>
      cases conversationStep_moves hstep with
      | @broker l accepted broker hconnects hstep' =>
          exact ih.step (hallowed l accepted rfl) hstep'
      | ask | act | answer | poll =>
          rw [conversationEvents, List.append_nil]
          exact ih

/-- The main loop sees the socket in the cell that it subscribes. -/
theorem socket_of_subscribes {t : Fin topicNames.length} {a : Addr} {p : SocketPtr}
    {u v : Broadcast topicNames.length}
    (hreach : (broadcasting topicNames).ReachableVia (OnLists KeepsWalker) u)
    (hsub : Subscribes t a p socket u v) : u.service.mainLoop.socket p = some socket := by
  rcases agrees_of_broadcasting hreach with ⟨-, hagrees⟩
  rcases List.head?_eq_some_iff.mp hsub.call with ⟨rest, hpending⟩
  have honly : rest = [] := by
    rcases pending_of_broadcasting hreach with ⟨w, l, hsuffix⟩
    rw [hpending] at hsuffix
    rw [(listCalls_of_subscriber (hsuffix.subset List.mem_cons_self)).2] at hsuffix
    have hle := hsuffix.length_le
    rw [List.length_cons, List.length_singleton] at hle
    exact List.length_eq_zero_iff.mp (by omega)
  have hcell : u.delivery.sockets.cell p = some socket := hsub.cell
  unfold Agrees at hagrees
  rw [hpending, honly, Sockets.after_cons, Sockets.after_nil] at hagrees
  have hmain : u.service.mainLoop.sockets.cell p = some socket := by
    rw [← hagrees]
    exact hcell
  exact hmain

/-- A connection that has been taken is never new again. -/
theorem taken_of_step {l : ConversationStep topicNames.length}
    (hmoves : ConversationMoves socket s l s') (htaken : s.connection ≠ .notAccepted) :
    s'.connection ≠ .notAccepted := by
  cases hmoves with
  | broker => exact fun hnot => htaken (connection_of_afterBroker hnot)
  | ask | act | answer | poll => exact htaken

/-- What is sent to a node of the client in a run is written to its connection. -/
theorem written_of_logs
    {allowed : Conversation topicNames.length → ConversationStep topicNames.length → Prop}
    (hlogs : (conversing topicNames socket).Logs allowed conversationEvents s events s')
    (htaken : s.connection ≠ .notAccepted) {a : Addr}
    (hsocket : ∀ e ∈ sentTo a events, e.socket = socket) :
    s'.connection ≠ .notAccepted ∧ ∃ written, s'.written = s.written ++ written ∧
      ((sentTo a events).map Sending.message).Sublist (messagesAmong written) := by
  induction hlogs with
  | start => exact ⟨htaken, [], (List.append_nil _).symm, List.nil_sublist _⟩
  | @step u v l events hlogs hallowed hstep ih =>
      have hsplit : sentTo a (events ++ conversationEvents u l) =
          sentTo a events ++ sentTo a (conversationEvents u l) := List.filterMap_append
      rw [hsplit] at hsocket ⊢
      rcases ih fun e he => hsocket e (List.mem_append_left _ he) with
        ⟨hstill, written, heq, hsub⟩
      have hmoves := conversationStep_moves hstep
      refine ⟨taken_of_step hmoves hstill, ?_⟩
      cases hmoves with
      | @broker l accepted broker hconnects hstep' =>
          have hlast := sent_written (broadcastStep_moves hstep')
            fun e he => hsocket e (List.mem_append_right _ he)
          refine ⟨written ++ writtenTo socket u.broker l, ?_, ?_⟩
          · rw [Conversation.afterBroker, Conversation.writes, if_neg hstill, heq,
              List.append_assoc]
          · rw [List.map_append, messagesAmong_append]
            exact hsub.append hlast
      | ask | act | answer | poll =>
          refine ⟨written, heq, ?_⟩
          rw [List.map_append]
          simpa [conversationEvents, sentTo] using hsub

/-! ## What is printed -/

/-- When nothing is in transit, everything written has arrived. -/
theorem ClientSide.arrived_all {commands : List Command} {before after : List Written}
    (hs : ClientSide s commands before after) (harrived : s.inTransit = []) :
    messagesAmong s.written = s.printed.map (hashtag :: ·) := by
  have hempty : after = [] := by
    rw [hs.inTransit] at harrived
    cases after with
    | nil => rfl
    | cons w after => simp [wireBytes_cons] at harrived
  rw [hs.written, hempty, List.append_nil, hs.printed]

/-- The broker adds a node for the client to the list of a topic, and the subscription stays.  When
the broker has come to rest and everything that it has written has arrived, the client has
printed, in their order, all messages that clients have asked to be published to the topic since
then; what it may not have printed had been published before. -/
theorem subscriber_prints (hvalid : socket ≠ invalidSocket)
    {c₀ c₁ c : Conversation topicNames.length} {t : Fin topicNames.length}
    {a : Addr} {p : SocketPtr} {requests : List ClientRequest}
    (hreach : (conversing topicNames socket).ReachableVia (TellsAndKeeps socket) c₀)
    (hcall : c₀.broker.pending.head? = some (.addToStart (.subscriberConnectionSockets t) p))
    (hcell : c₀.broker.delivery.cells p = some socket)
    (hstep : conversationStep socket c₀ (.broker (.call a) false) = some c₁)
    (hlogs : (conversing topicNames socket).Logs (TellsSubscriber socket a p) conversationEvents
      c₁ events c)
    (hrequests : BringRequests c.broker.service.received requests)
    (hstuck : (broadcasting topicNames).Stuck BroadcastStep.IsOwn c.broker)
    (hbounded : ∀ topic ∈ c.broker.service.mainLoop.topics,
      topic.subscriberConnectionSockets.length ≤ subscriberListMaxSize)
    (harrived : c.inTransit = []) :
    ∃ earlier since, earlier <+: c₁.broker.service.threads.log.published t ∧
      messagesTo topicNames t requests = earlier ++ since ∧
      since.Sublist (c.printed.map (hashtag :: ·)) := by
  have hmoves := conversationStep_moves hstep
  have hsub : Subscribes t a p socket c₀.broker c₁.broker := by
    cases hmoves with
    | broker hconnects hstep' => exact ⟨hcall, hcell, hstep'⟩
  have hreachBroker : (broadcasting topicNames).ReachableVia (OnLists KeepsWalker) c₀.broker :=
    broker_of_conversing (fun _ _ _ hallowed => hallowed.1 _ _ rfl) hreach
  have hlogsBroker : (broadcasting topicNames).Logs (OnLists (KeepsSubscriber a p))
      broadcastEvents c₁.broker events c.broker :=
    broker_logs (hlogs.mono fun _ _ hallowed => hallowed.1)
  have hreach₀ : (conversing topicNames socket).ReachableVia (TellsApart socket) c₀ :=
    hreach.mono fun _ _ hallowed => hallowed.2
  have htells : (conversing topicNames socket).ReachableVia (TellsApart socket) c := by
    have hallowed : TellsApart socket c₀ (.broker (.call a) false) :=
      ⟨keepsSocket_of_ne (by simp) c₀ false, fun _ heq => by contradiction⟩
    have hlogs' : (conversing topicNames socket).Logs (TellsApart socket) conversationEvents
        c₁ events c := hlogs.mono fun _ _ hallowed => hallowed.2
    exact hlogs'.reachableVia (hreach₀.step hallowed hstep)
  have htaken : c₁.connection ≠ .notAccepted := by
    rcases sides_of_conversing hvalid hreach₀ with
      ⟨commands, requests', before, after, hbroker, -⟩
    have hopen := hbroker.holds.isOpen p (socket_of_subscribes hreachBroker hsub)
    exact taken_of_step hmoves (by simp [hopen])
  have hserves : (broadcasting topicNames).ReachableVia (OnService ReceivesCommands) c.broker :=
    broker_of_conversing (fun _ _ _ hallowed => hallowed.2) htells
  rcases received_of_stuck hreachBroker hsub hlogsBroker hstuck with
    ⟨earlier, hearlier, hreceived⟩
  rw [published_of_stuck (hsub.reachable hreachBroker hlogsBroker).2 hserves hrequests hstuck
    hbounded] at hreceived
  rcases written_of_logs hlogs htaken fun e he =>
    (socket_of_sent hreachBroker hsub hlogsBroker he).2 with ⟨-, written, hwritten, hsince⟩
  rcases sides_of_conversing hvalid htells with ⟨commands, requests', before, after, -, hclient⟩
  refine ⟨earlier, _, hearlier, hreceived, ?_⟩
  rw [← hclient.arrived_all harrived, hwritten, messagesAmong_append]
  exact hsince.trans (List.sublist_append_right _ _)

/-- The client subscribes to a topic, publishes to it and prints its own message: before and after
the broker adds the subscriber, when it has gone to rest, and in the end. -/
def subscribeAndPrint :
    Option (Conversation 1 × Conversation 1 × Conversation 1 × Conversation 1) := do
  let c₀ ← (conversing [news] 7).runVia (OnBroker (OnLists KeepsWalker))
    (.start [news] fun _ => ⟨none, .connectionSocket 0⟩) connectAndType
  let c₁ ← conversationStep 7 c₀ (.broker (.call 101) false)
  let c₂ ← (conversing [news] 7).runVia (OnBroker (OnLists (KeepsSubscriber 101 1))) c₁
    (publishAndWalk.map fun l => .broker l false)
  let c ← conversationStep 7 c₂ (.poll 9)
  return (c₀, c₁, c₂, c)

theorem run_subscribeAndPrint :
    ∃ c₀ c₁ c₂ c, subscribeAndPrint = some (c₀, c₁, c₂, c) ∧
      (c₀.broker.pending.head?, c₀.broker.delivery.cells 1) =
        (some (.addToStart (.subscriberConnectionSockets 0) 1), some 7) ∧
      (c₁.broker.service.threads.log.published 0, c₂.written, c₂.arrived) =
        ([], [.message (hashtag :: updates)], 0) ∧
      (c.printed, c.inTransit, c.broker.service.received) =
        ([updates], [], [(7, stream subscribeAndPublish)]) ∧
      (c.broker.pending, c.broker.service.position, c.broker.service.threads.producing .main) =
        ([], none, none) ∧
      (c.broker.service.threads.topic 0, c.broker.service.threads.consumer,
        c.broker.service.mainLoop.topics) =
        (.waiting, .waiting, [⟨news, [hashtag :: updates], [1]⟩]) := by
  have hbefore : subscribeAndPrint.map (fun (c₀, c₁, c₂, _) =>
      ((c₀.broker.pending.head?, c₀.broker.delivery.cells 1),
        c₁.broker.service.threads.log.published 0, c₂.written, c₂.arrived)) =
      some ((some (.addToStart (.subscriberConnectionSockets 0) 1), some 7),
        [], [.message (hashtag :: updates)], 0) := by
    decide +kernel
  have hclient : subscribeAndPrint.map (fun (_, _, _, c) =>
      (c.printed, c.inTransit, c.broker.service.received)) =
      some ([updates], [], [(7, stream subscribeAndPublish)]) := by
    decide +kernel
  have hmain : subscribeAndPrint.map (fun (_, _, _, c) =>
      (c.broker.pending, c.broker.service.position, c.broker.service.threads.producing .main)) =
      some ([], none, none) := by
    decide +kernel
  have hthreads : subscribeAndPrint.map (fun (_, _, _, c) =>
      (c.broker.service.threads.topic 0, c.broker.service.threads.consumer,
        c.broker.service.mainLoop.topics)) =
      some (.waiting, .waiting, [⟨news, [hashtag :: updates], [1]⟩]) := by
    decide +kernel
  rcases Option.map_eq_some_iff.mp hbefore with ⟨⟨c₀, c₁, c₂, c⟩, hrun, hbefore⟩
  rw [hrun, Option.map_some, Option.some.injEq] at hclient hmain hthreads
  rw [Prod.mk.injEq] at hbefore
  exact ⟨c₀, c₁, c₂, c, hrun, hbefore.1, hbefore.2, hclient, hmain, hthreads⟩

theorem subscriber_prints_subscribeAndPrint :
    ∃ c : Conversation 1, c.printed = [updates] ∧
      ∃ earlier since : List Bytes, earlier <+: [] ∧
        messagesTo [news] 0 (subscribeAndPublish.map (Prod.mk 7)) = earlier ++ since ∧
        since.Sublist (c.printed.map (hashtag :: ·)) := by
  rcases run_subscribeAndPrint with
    ⟨_, _, _, _, hrun, hbefore, hwritten, hclient, hmain, hthreads⟩
  simp only [Prod.mk.injEq] at hbefore hwritten hclient hmain hthreads
  simp only [subscribeAndPrint, Option.bind_eq_bind, Option.bind_eq_some_iff, Option.pure_def,
    Option.some.injEq, Prod.mk.injEq] at hrun
  rcases hrun with ⟨c₀, hc₀, c₁, hc₁, c₂, hc₂, c, hc, rfl, rfl, rfl, rfl⟩
  have htells : ∀ l ∈ connectAndType, ∀ s, OnBroker (OnLists KeepsWalker) s l →
      TellsAndKeeps 7 s l := fun l hl s hkeep =>
    ⟨hkeep, tellsApart_subscribeAndPublishTo l (List.mem_append_left _ hl) s⟩
  have hfirst : (conversing [news] 7).ReachableVia (TellsAndKeeps 7)
      (.start [news] fun _ => ⟨none, .connectionSocket 0⟩) := System.ReachableVia.start ⟨_, rfl⟩
  have hwalks : (conversing [news] 7).Logs (TellsSubscriber 7 101 1) conversationEvents c₁ _ c₂ :=
    System.Logs.of_runVia (fun l hl s hkeep => ⟨hkeep, tellsApart_subscribeAndPublishTo l
      (List.mem_append_right _ (List.mem_cons_of_mem _ hl)) s⟩) hc₂
  have hpoll : TellsSubscriber 7 101 1 c₂ (.poll 9) := by
    constructor
    · intro l accepted heq
      cases heq
    · exact .inr ⟨[hashtag :: updates], ⟨[], [], hwritten.2.1, hwritten.2.2, by decide⟩, by decide⟩
  have hlogs := hwalks.step hpoll hc
  have hrequests : BringRequests c.broker.service.received
      (subscribeAndPublish.map (Prod.mk 7)) := by
    rw [hclient.2.2]
    exact ⟨[(7, subscribeAndPublish)], rfl, by decide, rfl⟩
  have htopic : ∀ i : Fin 1, c.broker.service.threads.topic i = .waiting :=
    Fin.forall_fin_one.mpr hthreads.1
  have hstuck : (broadcasting [news]).Stuck BroadcastStep.IsOwn c.broker :=
    broadcasting_stuck_of_rest hmain.1 hmain.2.1 hmain.2.2 htopic hthreads.2.1
  have hbounded : ∀ topic ∈ c.broker.service.mainLoop.topics,
      topic.subscriberConnectionSockets.length ≤ subscriberListMaxSize := by
    rw [hthreads.2.2]
    simp [subscriberListMaxSize]
  have hprints := subscriber_prints (t := 0) (by decide) (hfirst.run_checked htells hc₀) hbefore.1
    hbefore.2 hc₁ hlogs hrequests hstuck hbounded hclient.2.1
  rw [hwritten.1] at hprints
  exact ⟨c, hclient.1, hprints⟩

end Conversing
end PubSub
