import PubSub.Broker.Delivering
import PubSub.Foundations.TerminatedStream

/-!
# What is written to one connection

The consumer sends responses and, in its walks, messages.  This module picks out what it sends
to one client, in the order in which it is sent.

Main results:

- Theorem {lit}`BroadcastMoves.responses`: the responses that are written to a connection are
  those that the consumer has sent for its socket.
- Theorem {lit}`answered_on`: they answer the first queries that have come from this socket.
- Theorem {lit}`message_requested`: a message that is written is one that a client has asked to
  be published.
- Theorem {lit}`BroadcastMoves.unsubscribed`: as long as the client does not subscribe, no walk
  comes to its socket.
-/

namespace PubSub
namespace Broker

open Foundations Client

variable {n : Nat}

/-! ## Strings on a connection -/

/-- A string that {lit}`send_to_client` sends. -/
inductive Written where
  | message (text : Bytes)
  | response (text : Bytes)
deriving DecidableEq, Repr

/-- What it is called with. -/
def Written.text : Written → Bytes
  | .message text | .response text => text

/-- {lit}`send` writes every string with its terminator. -/
def wireBytes (written : List Written) : Bytes :=
  terminated 0 (written.map Written.text)

/-- The responses among the strings. -/
def responsesAmong (written : List Written) : List Bytes :=
  written.filterMap fun
    | .message _ => none
    | .response text => some text

/-- The messages among the strings. -/
def messagesAmong (written : List Written) : List Bytes :=
  written.filterMap fun
    | .message text => some text
    | .response _ => none

/-- The response of an element for this socket. -/
def responseOn (socket : Socket) : OutgoingBufferElement n → Option Bytes
  | ⟨message, .connectionSocket socket'⟩ => if socket' = socket then message else none
  | ⟨_, .subscriberConnectionSockets _⟩ => none

/-- The responses for this socket. -/
def responsesOn (socket : Socket) (es : List (OutgoingBufferElement n)) : List Bytes :=
  es.filterMap (responseOn socket)

/-- What a step writes to the connection with this socket. -/
def writtenTo (socket : Socket) (s : Broadcast n) : BroadcastStep n → List Written
  | .service l =>
      if l.movesConsumer then
        (s.service.threads.consumer.sending.bind (responseOn socket)).toList.map .response
      else []
  | .call _ => []
  | .walk =>
      (broadcastEvents s .walk).filterMap fun
        | .started _ _ => none
        | .sent e => if e.socket = socket then some (.message e.message) else none

/-- The commands that came from this socket. -/
def requestsFrom (socket : Socket) (requests : List ClientRequest) : List Command :=
  requests.filterMap fun request => if request.1 = socket then some request.2 else none

/-- The executed commands that came from this socket, with the topics as they were then. -/
def executedFrom (socket : Socket) (requests : List ExecutedRequest) :
    List (Command × List Topic) :=
  requests.filterMap fun request =>
    if request.1.1 = socket then some (request.1.2, request.2) else none

/-- The response is the answer to the command, with the topics as they were then. -/
def AnswersCommand (c : Command × List Topic) (response : Bytes) : Prop :=
  IsAnswer c.2 response c.1

@[simp]
theorem wireBytes_nil : wireBytes [] = [] :=
  rfl

theorem wireBytes_append (written written' : List Written) :
    wireBytes (written ++ written') = wireBytes written ++ wireBytes written' := by
  rw [wireBytes, List.map_append, terminated_append]
  rfl

theorem wireBytes_cons (w : Written) (written : List Written) :
    wireBytes (w :: written) = w.text ++ 0 :: wireBytes written := by
  rw [wireBytes, List.map_cons, terminated_nul_cons]
  rfl

theorem responsesAmong_append (written written' : List Written) :
    responsesAmong (written ++ written') = responsesAmong written ++ responsesAmong written' :=
  List.filterMap_append

theorem messagesAmong_append (written written' : List Written) :
    messagesAmong (written ++ written') = messagesAmong written ++ messagesAmong written' :=
  List.filterMap_append

theorem responsesOn_append (socket : Socket) (es es' : List (OutgoingBufferElement n)) :
    responsesOn socket (es ++ es') = responsesOn socket es ++ responsesOn socket es' :=
  List.filterMap_append

theorem requestsFrom_append (socket : Socket) (requests requests' : List ClientRequest) :
    requestsFrom socket (requests ++ requests') =
      requestsFrom socket requests ++ requestsFrom socket requests' :=
  List.filterMap_append

/-- Every string takes up bytes, so a number of bytes ends at most one beginning of the
strings. -/
theorem beginning_unique {before after before' after' : List Written}
    (h : before ++ after = before' ++ after')
    (hlength : (wireBytes before).length = (wireBytes before').length) :
    before = before' ∧ after = after' := by
  induction before generalizing before' with
  | nil =>
      cases before' with
      | nil => exact ⟨rfl, h⟩
      | cons w before' => simp [wireBytes_cons] at hlength
  | cons w before ih =>
      cases before' with
      | nil => simp [wireBytes_cons] at hlength
      | cons w' before' =>
          rw [List.cons_append, List.cons_append, List.cons.injEq] at h
          rcases h with ⟨rfl, h⟩
          have hrest : (wireBytes before).length = (wireBytes before').length := by
            simpa [wireBytes_cons] using hlength
          rcases ih h hrest with ⟨rfl, rfl⟩
          exact ⟨rfl, rfl⟩

/-! ## Responses -/

/-- A step writes the responses that the consumer sends in it. -/
theorem BroadcastMoves.responses {s s' : Broadcast n} {l : BroadcastStep n}
    (hmoves : BroadcastMoves s l s') (socket : Socket) :
    responsesOn socket s'.service.threads.log.sent =
      responsesOn socket s.service.threads.log.sent ++ responsesAmong (writtenTo socket s l) := by
  cases hmoves with
  | @service l service hadmits hstep =>
      cases hl : l.movesConsumer with
      | false =>
          have hsame : service.threads.log.sent = s.service.threads.log.sent :=
            (serviceStep_sendsOn hl hstep).sent
          simp [hsame, writtenTo, hl, responsesAmong]
      | true =>
          have hsent : service.threads.log.sent =
              s.service.threads.log.sent ++ s.service.threads.consumer.sending.toList :=
            serviceStep_sent hl hstep
          rw [hsent, responsesOn_append, writtenTo, if_pos hl, List.append_cancel_left_eq]
          cases s.service.threads.consumer.sending with
          | none => rfl
          | some e =>
              cases he : responseOn socket e with
              | none => simp [responsesOn, he, responsesAmong]
              | some response => simp [responsesOn, he, responsesAmong]
  | call => simp [writtenTo, responsesAmong]
  | @walk action delivery hnext hstep =>
      have hnone : responsesAmong (writtenTo socket s .walk) = [] := by
        rw [responsesAmong, writtenTo, List.filterMap_filterMap, List.filterMap_eq_nil_iff]
        intro event _
        cases event with
        | started => rfl
        | sent e => by_cases he : e.socket = socket <;> simp [he]
      rw [hnone, List.append_nil]

/-- The answers to the queries from this socket. -/
theorem answers_on (socket : Socket) {requests : List ExecutedRequest}
    {es : List (OutgoingBufferElement n)} (h : List.Forall₂ Answers requests es) :
    List.Forall₂ AnswersCommand (executedFrom socket requests) (responsesOn socket es) := by
  induction h with
  | nil => exact .nil
  | @cons request e requests es hanswers _ ih =>
      rcases hanswers with ⟨response, rfl, hanswer⟩
      by_cases hsocket : request.1.1 = socket
      · have hfirst : executedFrom socket (request :: requests) =
            (request.1.2, request.2) :: executedFrom socket requests := by
          simp [executedFrom, hsocket]
        have hfirst' : responsesOn socket
            ((⟨some response, .connectionSocket request.1.1⟩ : OutgoingBufferElement n) :: es) =
              response :: responsesOn socket es := by simp [responsesOn, responseOn, hsocket]
        rw [hfirst, hfirst']
        exact .cons hanswer ih
      · have hfirst : executedFrom socket (request :: requests) = executedFrom socket requests := by
          simp [executedFrom, hsocket]
        have hfirst' : responsesOn socket
            ((⟨some response, .connectionSocket request.1.1⟩ : OutgoingBufferElement n) :: es) =
              responsesOn socket es := by simp [responsesOn, responseOn, hsocket]
        rw [hfirst, hfirst']
        exact ih

/-- The elements for this socket are responses. -/
theorem responsesOn_responsesIn (socket : Socket) (es : List (OutgoingBufferElement n)) :
    responsesOn socket (responsesIn es) = responsesOn socket es := by
  rw [responsesOn, responsesIn, responsesOn, List.filterMap_filter]
  congr 1
  funext e
  rcases e with ⟨message, sockets⟩
  cases sockets with
  | connectionSocket => rfl
  | subscriberConnectionSockets => rfl

/-- The queries that have been executed for this socket are the first ones that have come
from it. -/
theorem executedFrom_queries (socket : Socket) (requests : List ClientRequest)
    (executed : List (List Topic)) :
    (executedFrom socket (queries requests executed)).map Prod.fst =
      (requestsFrom socket (requests.take executed.length)).filter asksForResponse := by
  induction requests generalizing executed with
  | nil => simp [executedFrom, queries, requestsFrom]
  | cons request requests ih =>
      cases executed with
      | nil => simp [executedFrom, queries, requestsFrom]
      | cons topics executed =>
          have hrest := ih executed
          by_cases hsocket : request.1 = socket <;>
            by_cases hasks : asksForResponse request.2 = true <;>
            simp_all [executedFrom, queries, requestsFrom]

theorem executedFrom_begins (socket : Socket) (requests : List ClientRequest)
    (executed : List (List Topic)) :
    (executedFrom socket (queries requests executed)).map Prod.fst <+:
      (requestsFrom socket requests).filter asksForResponse := by
  rw [executedFrom_queries]
  exact ((List.take_prefix _ _).filterMap _).filter _

variable {topicNames : List Bytes}

/-- The responses sent for a socket answer the first queries from it, each as the topics were when
it was executed. -/
theorem answered_on {s : Service topicNames.length}
    (hreach : (service topicNames).ReachableVia ReceivesCommands s) {requests : List ClientRequest}
    (hrequests : BringRequests s.received requests) (socket : Socket) :
    ∃ answered, answered <+: executedFrom socket (queries requests s.executed) ∧
      List.Forall₂ AnswersCommand answered (responsesOn socket s.threads.log.sent) := by
  rcases inService_of_service hreach with ⟨done, todo, hs⟩
  rcases invariants_of_keepsRunning (threads_of_service hreach) with ⟨hbuffer, -⟩
  have hsent : responsesIn s.threads.log.sent <+: s.responses := by
    refine .trans ?_ (taken_responses hreach)
    rw [hbuffer.hand, responsesIn_append]
    exact List.prefix_append _ _
  rcases answered_of_begins hs.responses hsent with ⟨answered, hanswered, hanswers⟩
  refine ⟨executedFrom socket answered, ?_, ?_⟩
  · rw [← hs.received.unique hrequests, queries_done hs.executed]
    exact hanswered.filterMap _
  · rw [← responsesOn_responsesIn]
    exact answers_on socket hanswers

/-- Without requests from a socket no responses are sent for it. -/
theorem responsesOn_eq_nil {s : Service topicNames.length}
    (hreach : (service topicNames).ReachableVia ReceivesCommands s) {requests : List ClientRequest}
    (hrequests : BringRequests s.received requests) {socket : Socket}
    (hnone : requestsFrom socket requests = []) : responsesOn socket s.threads.log.sent = [] := by
  rcases answered_on hreach hrequests socket with ⟨answered, hanswered, hanswers⟩
  have hexecuted := executedFrom_begins socket requests s.executed
  rw [hnone, List.filter_nil, List.prefix_nil, List.map_eq_nil_iff] at hexecuted
  rw [hexecuted, List.prefix_nil] at hanswered
  rw [hanswered, List.forall₂_nil_left_iff] at hanswers
  exact hanswers

/-! ## The cell of a socket -/

/-- A socket is in the cells where it has been before and that have not been marked, and in
those where it has been stored. -/
theorem Sockets.cell_after {v : Sockets} {calls : List MainCall} {socket : Socket}
    (hvalid : socket ≠ invalidSocket) {p : SocketPtr} (h : (v.after calls).cell p = some socket) :
    v.cell p = some socket ∧ .invalidate p ∉ calls ∨ .store p socket ∈ calls := by
  induction calls generalizing v with
  | nil => exact .inl ⟨h, by simp⟩
  | cons call calls ih =>
      rw [Sockets.after_cons] at h
      rcases ih h with ⟨hcell, hunmarked⟩ | hstored
      · cases call with
        | store q socket' =>
            by_cases hp : p = q
            · subst hp
              simp only [MainCall.effect, Function.update_self, Option.some.injEq] at hcell
              exact .inr (by simp [hcell])
            · simp only [MainCall.effect, Function.update_of_ne hp] at hcell
              exact .inl ⟨hcell, by simp [hunmarked]⟩
        | invalidate q =>
            by_cases hp : p = q
            · subst hp
              simp only [MainCall.effect, Function.update_self, Option.some.injEq] at hcell
              exact absurd hcell.symm hvalid
            · simp only [MainCall.effect, Function.update_of_ne hp] at hcell
              exact .inl ⟨hcell, by simp [hunmarked, hp]⟩
        | addToStart name q => exact .inl ⟨hcell, by simp [hunmarked]⟩
        | freeNode name q => exact .inl ⟨hcell, by simp [hunmarked]⟩
      · exact .inr (List.mem_cons_of_mem _ hstored)

theorem serviceStep_cell {s s' : Service n} {l : ServiceStep n} (hstep : serviceStep s l = some s')
    {socket : Socket} (hvalid : socket ≠ invalidSocket) {p : SocketPtr}
    (h : s'.mainLoop.socket p = some socket) :
    s.mainLoop.socket p = some socket ∧ .invalidate p ∉ listCalls s l ∨
      .store p socket ∈ listCalls s l := by
  have hcell : s'.mainLoop.sockets.cell p = some socket := h
  rw [serviceStep_calls hstep] at hcell
  exact Sockets.cell_after hvalid hcell

/-- Only {lit}`accept_connection` stores a socket. -/
theorem accept_of_store {s : Service n} {l : ServiceStep n} {p : SocketPtr} {socket : Socket}
    (h : .store p socket ∈ listCalls s l) : ∃ accepted, l = .accept accepted := by
  cases l with
  | accept accepted => exact ⟨accepted, rfl⟩
  | receive incoming =>
      cases incoming with
      | closed =>
          simp only [listCalls] at h
          split at h
          · contradiction
          · simp [closeCalls] at h
      | selectError | willBlock | data | recvError => contradiction
  | execute node =>
      simp only [listCalls] at h
      split at h
      · simp only [subscriptionCall, Option.bind_eq_bind, Option.mem_toList,
          Option.bind_eq_some_iff] at h
        rcases h with ⟨topicName, -, i, -, hcall⟩
        split at hcall
        · simp at hcall
        · simp at hcall
      · contradiction
  | finish | thread => contradiction

/-- No step stores two sockets. -/
theorem store_unique {s : Service n} {l : ServiceStep n} {p q : SocketPtr} {socket socket' : Socket}
    (hp : .store p socket ∈ listCalls s l) (hq : .store q socket' ∈ listCalls s l) : p = q := by
  rcases accept_of_store hp with ⟨accepted, rfl⟩
  cases accepted with
  | selectError | willBlock => contradiction
  | socket r socket'' nonblocking =>
      simp only [listCalls, acceptCalls] at hp hq
      split at hp
      · contradiction
      · next hroom =>
        rw [if_neg hroom] at hq
        split at hp
        · next hunused => simp_all
        · next hused => simp_all

/-! ## Messages -/

/-- The list and the message of a walk. -/
def WalkPc.carries {ι : Type} : WalkPc ι → Option (ι × Bytes)
  | .sending t e => some (t, e.message)
  | .advancing t _ message => some (t, message)
  | .idle | .finished _ _ | .dangling => none

/-- A walk of the consumer is for the message that it sends, through the list of its topic. -/
def Carries (s : Broadcast n) : Prop :=
  s.walking = true → ∀ name message, s.delivery.walk.carries = some (name, message) →
    ∃ t : Fin n, name = .subscriberConnectionSockets t ∧
      s.service.threads.consumer.sending = some ⟨some message, .subscriberConnectionSockets t⟩

theorem lookAt_carries {d : Delivery ListName} {name name' : ListName} {message message' : Bytes}
    {next : Option Addr} (h : (d.lookAt name message next).carries = some (name', message')) :
    name' = name ∧ message' = message := by
  cases next with
  | none => contradiction
  | some walker =>
      simp only [Delivery.lookAt] at h
      split at h
      · contradiction
      · split at h
        · contradiction
        · rw [WalkPc.carries, Option.some.injEq, Prod.mk.injEq] at h
          exact ⟨h.1.symm, h.2.symm⟩

theorem BroadcastMoves.carries {s s' : Broadcast n} {l : BroadcastStep n}
    (hmoves : BroadcastMoves s l s') (hs : Carries s) : Carries s' := by
  intro hwalking name message hcarries
  cases hmoves with
  | @service l service hadmits hstep =>
      rw [Bool.and_eq_true, Bool.not_eq_true'] at hwalking
      have hsending := (serviceStep_sendsOn hwalking.2 hstep).sending
      rw [hsending]
      exact hs hwalking.1 name message hcarries
  | call hpending hstep =>
      rw [call_walk hstep] at hcarries
      exact hs hwalking name message hcarries
  | walk hnext hstep =>
      cases nextOfWalk_moves hnext with
      | @start t m hsending hidle =>
          have hstarted : ∃ next,
              (s.delivery.lookAt (.subscriberConnectionSockets t) m next).carries =
                some (name, message) := by
            simp only [deliveryStep] at hstep
            split at hstep
            · rw [← Option.some.inj hstep] at hcarries
              exact ⟨_, hcarries⟩
            · rw [← Option.some.inj hstep] at hcarries
              exact ⟨_, hcarries⟩
            · contradiction
          rcases hstarted with ⟨next, hlook⟩
          rcases lookAt_carries hlook with ⟨rfl, rfl⟩
          exact ⟨t, rfl, hsending⟩
      | @send name' e hold hwalk =>
          simp only [deliveryStep, hwalk] at hstep
          rw [← Option.some.inj hstep, WalkPc.carries] at hcarries
          apply hs hold
          rw [hwalk]
          exact hcarries
      | @advance name' walker m hold hwalk =>
          apply hs hold
          simp only [deliveryStep, hwalk] at hstep
          split at hstep
          · rw [← Option.some.inj hstep] at hcarries
            contradiction
          · rw [← Option.some.inj hstep] at hcarries
            rcases lookAt_carries hcarries with ⟨rfl, rfl⟩
            rw [hwalk]
            rfl

theorem carries_of_broadcasting {s : Broadcast topicNames.length}
    {allowed : Broadcast topicNames.length → BroadcastStep topicNames.length → Prop}
    (hreach : (broadcasting topicNames).ReachableVia allowed s) : Carries s := by
  refine hreach.invariant Carries ?_ ?_
  · rintro s ⟨garbage, rfl⟩ hwalking
    contradiction
  · exact fun s l s' hs _ hstep => (broadcastStep_moves hstep).carries hs

/-- A message is written in a walk. -/
theorem walk_of_written {s : Broadcast n} {l : BroadcastStep n} {socket : Socket} {text : Bytes}
    (htext : text ∈ messagesAmong (writtenTo socket s l)) :
    s.walking = true ∧ ∃ name e, s.delivery.walk = .sending name e ∧ e.socket = socket ∧
      e.message = text := by
  rw [messagesAmong, List.mem_filterMap] at htext
  rcases htext with ⟨w, hw, hmessage⟩
  cases w with
  | response => contradiction
  | message text' =>
  rw [Option.some.injEq] at hmessage
  subst hmessage
  cases l with
  | service l =>
      rw [writtenTo] at hw
      split at hw
      · simp at hw
      · contradiction
  | call => contradiction
  | walk =>
      rw [writtenTo, List.mem_filterMap] at hw
      rcases hw with ⟨event, hevent, hw⟩
      cases event with
      | started => contradiction
      | sent e =>
          simp only [Option.ite_none_right_eq_some, Option.some.injEq, Written.message.injEq] at hw
          cases hnext : s.nextOfWalk with
          | none => simp [broadcastEvents, Broadcast.actionOf, hnext] at hevent
          | some action =>
              rw [broadcastEvents, Broadcast.actionOf, hnext, Option.elim_some] at hevent
              cases nextOfWalk_moves hnext with
              | start => simp [walkEvents] at hevent
              | @send name e' hwalking hwalk =>
                  simp only [walkEvents, hwalk, List.mem_singleton, WalkEvent.sent.injEq] at hevent
                  subst hevent
                  exact ⟨hwalking, name, e, hwalk, hw⟩
              | advance => simp [walkEvents] at hevent

/-- It is a message that has been published. -/
theorem messages_published {s : Broadcast topicNames.length}
    {allowed : Broadcast topicNames.length → BroadcastStep topicNames.length → Prop}
    (hreach : (broadcasting topicNames).ReachableVia allowed s)
    {l : BroadcastStep topicNames.length} {socket : Socket} {text : Bytes}
    (htext : text ∈ messagesAmong (writtenTo socket s l)) :
    ∃ t : Fin topicNames.length, text ∈ s.service.threads.log.published t := by
  rcases walk_of_written htext with ⟨hwalking, name, e, hwalk, -, rfl⟩
  rcases carries_of_broadcasting hreach hwalking name e.message (by rw [hwalk]; rfl) with
    ⟨t, -, hsending⟩
  rcases begun_of_broadcasting hreach t with ⟨walked, later, hpublished, hbegun⟩
  have hmem : some e.message ∈ s.begun t := by
    rw [Broadcast.begun, if_pos hwalking, hsending, Option.toList_some, messagesFor_append,
      messagesFor_subscribers rfl]
    simp
  rw [hbegun, List.mem_map] at hmem
  rcases hmem with ⟨m, hm, heq⟩
  rw [Option.some.injEq] at heq
  refine ⟨t, ?_⟩
  rw [hpublished, ← heq]
  exact List.mem_append_left _ hm

/-- So a client has asked for it. -/
theorem message_requested {s : Broadcast topicNames.length}
    {allowed : Broadcast topicNames.length → BroadcastStep topicNames.length → Prop}
    (hallowed : ∀ s l, allowed s (.service l) → ReceivesCommands s.service l)
    (hreach : (broadcasting topicNames).ReachableVia allowed s) {requests : List ClientRequest}
    (hrequests : BringRequests s.service.received requests)
    {l : BroadcastStep topicNames.length} {socket : Socket} {text : Bytes}
    (htext : text ∈ messagesAmong (writtenTo socket s l)) :
    ∃ t : Fin topicNames.length, text ∈ messagesTo topicNames t requests := by
  rcases messages_published hreach htext with ⟨t, hpublished⟩
  rcases inService_of_service (service_of_broadcasting hallowed hreach) with ⟨done, todo, hs⟩
  refine ⟨t, ?_⟩
  rw [← hs.received.unique hrequests, messagesTo_append, ← hs.published t]
  exact List.mem_append_left _ hpublished

/-- What clients ask for begins with a number sign when it is published. -/
theorem exists_message {received : List (Socket × Bytes)} {requests : List ClientRequest}
    (hrequests : BringRequests received requests) {t : Nat} {text : Bytes}
    (htext : text ∈ messagesTo topicNames t requests) :
    ∃ message, text = hashtag :: message ∧ NulFree message := by
  rw [messagesTo, List.mem_filterMap] at htext
  rcases htext with ⟨⟨socket, c⟩, hmem, hc⟩
  rcases hrequests with ⟨rounds, -, hwell, rfl⟩
  have hwellFormed : c.WellFormed := by
    rw [List.mem_flatMap] at hmem
    rcases hmem with ⟨round, hround, hmem⟩
    rcases List.mem_map.mp hmem with ⟨d, hd, heq⟩
    rw [Prod.mk.injEq] at heq
    exact heq.2 ▸ hwell round hround d hd
  cases c with
  | publish topic message =>
      simp only [publishedTo, Option.ite_none_right_eq_some, Option.some.injEq] at hc
      exact ⟨message, hc.2.symm, ((nulFree_cons _ _).mp hwellFormed.tail_nulFree).2⟩
  | subscribe | topicExists | subscriberNumber | unsubscribe => contradiction

/-! ## A client that does not subscribe -/

/-- No subscriber list has a cell with this socket, the main thread is not about to add one, and
the walk is not sending to it. -/
structure Unsubscribed (socket : Socket) (s : Broadcast n) : Prop where
  lists : ∀ t, ∀ p ∈ s.delivery.sockets.list (.subscriberConnectionSockets t),
    s.delivery.cells p ≠ some socket
  pending : ∀ t p, .addToStart (.subscriberConnectionSockets t) p ∈ s.pending →
    s.delivery.cells p ≠ none ∧ s.delivery.cells p ≠ some socket
  walk : ∀ name e, s.delivery.walk = .sending name e → e.socket ≠ socket

/-- A step that adds to a subscriber list executes a command, and it makes no other call. -/
theorem listCalls_of_subscriber {s : Service n} {l : ServiceStep n} {t : Nat} {p : SocketPtr}
    (hcall : .addToStart (.subscriberConnectionSockets t) p ∈ listCalls s l) :
    (∃ node, l = .execute node) ∧
      listCalls s l = [.addToStart (.subscriberConnectionSockets t) p] := by
  cases l with
  | accept accepted =>
      cases accepted with
      | selectError | willBlock => contradiction
      | socket q socket nonblocking =>
          simp only [listCalls, acceptCalls] at hcall
          split at hcall
          · contradiction
          · split at hcall <;> simp at hcall
  | receive incoming =>
      cases incoming with
      | closed =>
          simp only [listCalls] at hcall
          split at hcall
          · contradiction
          · simp [closeCalls] at hcall
      | selectError | willBlock | data | recvError => contradiction
  | finish | thread => contradiction
  | execute node =>
      refine ⟨⟨node, rfl⟩, ?_⟩
      simp only [listCalls] at hcall ⊢
      split at hcall
      · rw [Option.mem_toList] at hcall
        rw [Option.mem_def.mp hcall]
        rfl
      · contradiction

/-- Only a subscribe command adds to a subscriber list. -/
theorem subscribes_of_listCalls {s s' : Service topicNames.length} {done todo : List ClientRequest}
    (hs : InService topicNames s done todo) {l : ServiceStep topicNames.length}
    (hstep : serviceStep s l = some s') {t : Nat} {p : SocketPtr}
    (hcall : .addToStart (.subscriberConnectionSockets t) p ∈ listCalls s l) :
    ∃ socket topic, s.mainLoop.socket p = some socket ∧ (socket, .subscribe topic) ∈ todo := by
  rcases listCalls_of_subscriber hcall with ⟨⟨node, rfl⟩, -⟩
  cases serviceStep_moves hstep with
  | execute hposition hidle hwalker hsocket hmark =>
      rcases hs.nextRequest hposition hwalker hsocket hmark with
        ⟨c, cs, rest, m, executed, rfl, hcs, hcommand, -⟩
      simp only [listCalls, hposition, hwalker, hcommand, subscriptionCall,
        Option.bind_eq_bind, Option.mem_toList, Option.bind_eq_some_iff] at hcall
      rcases hcall with ⟨topicName, -, i, -, hcall⟩
      split at hcall
      · next htype =>
        rw [Option.ite_none_right_eq_some, Option.some.injEq, MainCall.addToStart.injEq]
          at hcall
        rw [← hcall.2.2]
        refine ⟨_, c.topic, hsocket, ?_⟩
        cases c with
        | subscribe topic => exact List.mem_cons_self
        | publish | topicExists | subscriberNumber | unsubscribe =>
            simp [Command.text, Command.type, byteOf] at htype
      · rw [Option.ite_none_right_eq_some] at hcall
        simp at hcall

/-- The calls that are pending are the last ones of a step of the main thread. -/
theorem pending_of_broadcasting
    {allowed : Broadcast topicNames.length → BroadcastStep topicNames.length → Prop}
    {s : Broadcast topicNames.length} (hreach : (broadcasting topicNames).ReachableVia allowed s) :
    ∃ (s' : Service topicNames.length) (l : ServiceStep topicNames.length),
      s.pending <:+ listCalls s' l := by
  induction hreach with
  | @start s hinit =>
      rcases hinit with ⟨garbage, rfl⟩
      exact ⟨Service.start topicNames garbage, .finish, List.suffix_rfl⟩
  | @step s s' l hreach hallowed hstep ih =>
      cases broadcastStep_moves hstep with
      | @service l service hadmits hservice =>
          rcases admits_pending hadmits with hnone | hnone
          · refine ⟨s.service, l, ?_⟩
            simp only [hnone, List.nil_append]
            exact List.suffix_rfl
          · simp only [hnone, List.append_nil]
            exact ih
      | call hpending hcall =>
          rcases ih with ⟨u, l, hsuffix⟩
          rw [hpending] at hsuffix
          exact ⟨u, l, (List.suffix_cons _ _).trans hsuffix⟩
      | walk => exact ih

/-- The walk comes to a cell of its list. -/
theorem lookAt_socket {d : Delivery ListName} {t : Nat} {message : Bytes} {next : Option Addr}
    {seen rest : List (Addr × SocketPtr)} (hd : WalkInv d)
    (hsplit : d.cellsOf (.subscriberConnectionSockets t) = seen ++ rest)
    (hnext : d.nodes.Chain rest next) {name : ListName} {e : Sending}
    (hlook : d.lookAt (.subscriberConnectionSockets t) message next = .sending name e) :
    e.socketPtr ∈ d.sockets.list (.subscriberConnectionSockets t) ∧
      d.cells e.socketPtr = some e.socket := by
  rcases hd.lists with ⟨cs, hl, halloc, -⟩
  rw [cellsOf_eq hl] at hsplit
  let d' := { d with walk := d.lookAt (.subscriberConnectionSockets t) message next }
  rcases (lookAt_ahead hl halloc hsplit hnext message d' rfl rfl 0).2 name e hlook with
    ⟨hmem, hcell, -⟩
  refine ⟨?_, hcell⟩
  rw [sockets_eq hl]
  exact List.mem_map_of_mem hmem

theorem unsubscribed_start (socket : Socket)
    (garbage : Nat → OutgoingBufferElement topicNames.length) :
    Unsubscribed socket (Broadcast.start topicNames garbage) where
  lists := by
    intro t p hp
    have hl : ListsHold (Heap.empty : Heap SocketPtr) (fun _ : ListName => initializeSocketList)
        fun _ => [] := initializeSocketList_holds
    have hsockets := sockets_eq (s := Delivery.start) hl
    simp [Broadcast.start, hsockets] at hp
  pending := fun t p hp => by contradiction
  walk := fun name e hwalk => by contradiction

/-- A cell that is neither free nor that of the client stays so. -/
theorem call_cell {d d' : Delivery ListName} {call : MainCall} {node : Addr}
    (hstep : deliveryStep d (call.action node) = some d')
    (hcells : d'.cells = (call.effect d.sockets).cell) {socket : Socket}
    (hvalid : socket ≠ invalidSocket) {p : SocketPtr} (hsome : d.cells p ≠ none)
    (hother : d.cells p ≠ some socket) : d'.cells p ≠ none ∧ d'.cells p ≠ some socket := by
  rw [hcells]
  cases call with
  | store q socket' =>
      have hfree : d.cells q = none := by
        by_contra hused
        simp [MainCall.action, deliveryStep, hused] at hstep
      have hne : p ≠ q := fun heq => hsome (heq ▸ hfree)
      rw [MainCall.effect]
      simp only [Function.update_of_ne hne]
      exact ⟨hsome, hother⟩
  | invalidate q =>
      rw [MainCall.effect]
      by_cases hp : p = q
      · simp [hp, hvalid.symm]
      · simp only [Function.update_of_ne hp]
        exact ⟨hsome, hother⟩
  | addToStart | freeNode => exact ⟨hsome, hother⟩

/-- The main thread makes a call. -/
theorem Unsubscribed.call {s : Broadcast n} {socket : Socket} (hs : Unsubscribed socket s)
    (hvalid : socket ≠ invalidSocket) (hd : WalkInv s.delivery) {call : MainCall}
    {rest : List MainCall} (hpending : s.pending = call :: rest) {node : Addr}
    {delivery : Delivery ListName}
    (hstep : deliveryStep s.delivery (call.action node) = some delivery) :
    Unsubscribed socket { s with delivery := delivery, pending := rest } := by
  have hsockets := deliveryStep_call hd hstep
  have hcells : delivery.cells = (call.effect s.delivery.sockets).cell := by
    rw [← hsockets]
    rfl
  have halloc : ∀ t, ∀ p ∈ s.delivery.sockets.list (.subscriberConnectionSockets t),
      s.delivery.cells p ≠ none := by
    rcases hd.lists with ⟨cs, hl, halloc, -⟩
    rw [sockets_eq hl]
    intro t p hp
    rcases List.mem_map.mp hp with ⟨c, hc, rfl⟩
    exact halloc _ c hc
  have hcell : ∀ p, s.delivery.cells p ≠ none → s.delivery.cells p ≠ some socket →
      delivery.cells p ≠ none ∧ delivery.cells p ≠ some socket := by
    intro p hsome hother
    exact call_cell hstep hcells hvalid hsome hother
  have hrest : ∀ t p, .addToStart (.subscriberConnectionSockets t) p ∈ rest →
      s.delivery.cells p ≠ none ∧ s.delivery.cells p ≠ some socket := by
    intro t p hp
    exact hs.pending t p (hpending ▸ List.mem_cons_of_mem _ hp)
  constructor
  case pending =>
    intro t p hp
    exact hcell p (hrest t p hp).1 (hrest t p hp).2
  case walk =>
    rw [call_walk hstep]
    exact hs.walk
  case lists =>
    intro t p hp
    have hold : s.delivery.cells p ≠ none ∧ s.delivery.cells p ≠ some socket := by
      simp only [hsockets] at hp
      cases call with
      | store | invalidate => exact ⟨halloc t p hp, hs.lists t p hp⟩
      | addToStart name q =>
          rw [MainCall.effect] at hp
          by_cases hname : name = .subscriberConnectionSockets t
          · rw [hname] at hp
            simp only [Function.update_self] at hp
            rcases List.mem_cons.mp hp with rfl | hp
            · apply hs.pending t p
              rw [hpending, hname]
              exact List.mem_cons_self
            · exact ⟨halloc t p hp, hs.lists t p hp⟩
          · simp only [Function.update_of_ne (Ne.symm hname)] at hp
            exact ⟨halloc t p hp, hs.lists t p hp⟩
      | freeNode name q =>
          rw [MainCall.effect] at hp
          by_cases hname : name = .subscriberConnectionSockets t
          · rw [hname] at hp
            simp only [Function.update_self] at hp
            have hmem := List.mem_of_mem_erase hp
            exact ⟨halloc t p hmem, hs.lists t p hmem⟩
          · simp only [Function.update_of_ne (Ne.symm hname)] at hp
            exact ⟨halloc t p hp, hs.lists t p hp⟩
    exact (hcell p hold.1 hold.2).2

/-- The consumer goes on in its walk. -/
theorem Unsubscribed.walks {s : Broadcast n} {socket : Socket} (hs : Unsubscribed socket s)
    (hd : WalkInv s.delivery) (hcarries : Carries s) {action : DeliveryAction ListName}
    (hnext : s.nextOfWalk = some action) {delivery : Delivery ListName}
    (hstep : deliveryStep s.delivery action = some delivery) :
    Unsubscribed socket { s with delivery := delivery, walking := true } := by
  have hsockets := nextOfWalk_sockets hnext hstep
  have hcells : delivery.cells = s.delivery.cells := congrArg Sockets.cell hsockets
  have hfound : ∀ {t : Nat} {e : Sending},
      e.socketPtr ∈ s.delivery.sockets.list (.subscriberConnectionSockets t) →
      s.delivery.cells e.socketPtr = some e.socket → e.socket ≠ socket := by
    intro t e hmem hcell heq
    apply hs.lists t e.socketPtr hmem
    rw [hcell, heq]
  constructor
  case lists =>
    simp only [hsockets, hcells]
    exact hs.lists
  case pending =>
    simp only [hcells]
    exact hs.pending
  case walk =>
    intro name e hwalk
    rcases hd.lists with ⟨cs, hl, halloc, hfits⟩
    cases nextOfWalk_moves hnext with
    | @start t message hsending hidle =>
        cases deliveryStep_moves hd hstep with
        | cells p socket' hlabel => simp at hlabel
        | start hpc =>
            have hchain : s.delivery.nodes.Chain
                (s.delivery.cellsOf (.subscriberConnectionSockets t))
                (s.delivery.lists (.subscriberConnectionSockets t)).head := by
              rw [cellsOf_eq hl]
              exact hl.family.chain _
            rcases lookAt_socket hd (List.nil_append _).symm hchain hwalk with
              ⟨hmem, hcell⟩
            exact hfound hmem hcell
    | send hwalking hsending =>
        simp only [deliveryStep, hsending] at hstep
        rw [← Option.some.inj hstep] at hwalk
        contradiction
    | @advance name' walker message hwalking hadvancing =>
        rcases hcarries hwalking name' message (by rw [hadvancing]; rfl) with ⟨t, rfl, -⟩
        rcases hd.position (t := .subscriberConnectionSockets t) (w := walker)
          (by rw [hadvancing]; rfl) with ⟨seen, q, rest, hsplit⟩
        have hsplit' : s.delivery.cellsOf (.subscriberConnectionSockets t) =
            (seen ++ [(walker, q)]) ++ rest := by simpa using hsplit
        cases deliveryStep_moves hd hstep with
        | cells p socket' hlabel => simp at hlabel
        | @advance t' w' m' node hpc hread =>
            rw [hadvancing, WalkPc.advancing.injEq] at hpc
            rcases hpc with ⟨rfl, rfl, rfl⟩
            have hchain : s.delivery.nodes.Chain (seen ++ (walker, q) :: rest)
                (s.delivery.lists (.subscriberConnectionSockets t)).head := by
              rw [← hsplit, cellsOf_eq hl]
              exact hl.family.chain _
            rcases lookAt_socket hd hsplit' (chain_behind hchain hread) hwalk with
              ⟨hmem, hcell⟩
            exact hfound hmem hcell

/-- A step of the broker, if the client has not asked for a subscription. -/
theorem BroadcastMoves.unsubscribed {s s' : Broadcast topicNames.length}
    {l : BroadcastStep topicNames.length} (hmoves : BroadcastMoves s l s') {socket : Socket}
    (hvalid : socket ≠ invalidSocket) (hd : WalkInv s.delivery) (hagrees : Agrees s)
    (hcarries : Carries s) {done todo : List ClientRequest}
    (hservice : InService topicNames s.service done todo)
    (hnever : ∀ topic, (socket, .subscribe topic) ∉ todo) (hs : Unsubscribed socket s) :
    Unsubscribed socket s' := by
  cases hmoves with
  | @service l service hadmits hstep =>
      refine ⟨hs.lists, ?_, hs.walk⟩
      intro t p hp
      rcases List.mem_append.mp hp with hold | hnew
      · exact hs.pending t p hold
      · rcases subscribes_of_listCalls hservice hstep hnew with ⟨socket', topic, hcell, htodo⟩
        rcases admits_pending hadmits with hnone | hnone
        · have hcells : s.delivery.cells = s.service.mainLoop.socket := by
            unfold Agrees at hagrees
            rw [hnone, Sockets.after_nil] at hagrees
            exact congrArg Sockets.cell hagrees
          simp only [hcells, hcell, ne_eq, reduceCtorEq, not_false_eq_true, Option.some.injEq,
            true_and]
          rintro rfl
          exact hnever topic htodo
        · rw [hnone] at hnew
          contradiction
  | call hpending hstep => exact hs.call hvalid hd hpending hstep
  | walk hnext hstep => exact hs.walks hd hcarries hnext hstep

/-- No message is written to such a client. -/
theorem Unsubscribed.written {s : Broadcast n} {socket : Socket} (hs : Unsubscribed socket s)
    (l : BroadcastStep n) : messagesAmong (writtenTo socket s l) = [] := by
  rw [List.eq_nil_iff_forall_not_mem]
  intro text htext
  rcases walk_of_written htext with ⟨-, name, e, hwalk, hsocket, -⟩
  exact hs.walk name e hwalk hsocket

end Broker
end PubSub
