import PubSub.Broker.Connections
import PubSub.Client.Demultiplexing

/-!
# The broker and one of its clients

A client and the whole broker, with the connection between them.  The user chooses options, the
client sends commands and waits for the responses to its queries; meanwhile the broker serves its
other clients as well.  TCP delivers the bytes of either direction in order, and as many at once
as it likes.

Main results:

- Definition {lit}`conversing`: the broker, the client and the connection as a transition system.
- Structure {lit}`BrokerSide`: what the broker has received from the client, and what it has
  written to it.
- Structure {lit}`ClientSide`: what the client has sent, and what it has made of what has arrived.
- Theorem {lit}`reports_right`: if the client keeps its socket for itself and receives responses and
  messages apart, its reports say what was true at the broker when the queries were executed, and
  it prints the messages that have been written to it.
-/

namespace PubSub
namespace Conversing

open Foundations Client Broker

variable {n : Nat}

/-! ## The programs and the connection -/

/-- Where the client stands in the loop of {lit}`main`. -/
inductive Phase where
  | choosing
  /-- the query of an option has been sent -/
  | awaiting (option : Byte) (topic : Bytes)
  /-- before {lit}`receive_subscription_messages` -/
  | polling
  | ended
deriving DecidableEq, Repr

/-- Has {lit}`accept` taken the client's connection, and has the broker closed it since? -/
inductive Connection where
  | notAccepted
  | established
  | closed
deriving DecidableEq, Repr

/-- The broker and a client in operation.  The broker has received the first {lit}`received`
bytes of what the client has sent, and the client has received the first {lit}`arrived` bytes of
what the broker has written to its socket since it has taken the connection.  The queries that the
client has sent, the reports that it has made on them and the messages that it has printed are
logs, which no step reads. -/
structure Conversation (n : Nat) where
  broker : Broadcast n
  connection : Connection
  client : ClientState
  phase : Phase
  sent : Bytes
  received : Nat
  written : List Written
  arrived : Nat
  queries : List Query
  reports : List Report
  printed : List Bytes

/-- What happens next. -/
inductive ConversationStep (n : Nat) where
  /-- a step of the broker; the flag says whether {lit}`accept` takes the client's connection in
  it -/
  | broker (l : BroadcastStep n) (accepted : Bool)
  /-- the user chooses an option and types the topic and the message that it asks for -/
  | choose (option : Byte) (topic message : Bytes)
  /-- {lit}`recv` after a query returns the next {lit}`k` bytes -/
  | answer (k : Nat)
  /-- {lit}`receive_subscription_messages` receives the next {lit}`k` bytes, or would block if
  {lit}`k` is zero -/
  | poll (k : Nat)

/-- The bytes that the broker receives from this socket in a step. -/
def receivedFrom (socket : Socket) (s : Broadcast n) : BroadcastStep n → Bytes
  | .service (.receive (.data bytes)) =>
      match s.service.mainLoop.walker with
      | connectionSocketPtr :: _ =>
          if s.service.mainLoop.socket connectionSocketPtr = some socket then bytes else []
      | [] => []
  | .service _ | .call _ | .walk => []

/-- Does {lit}`accept` return this socket in a step? -/
def accepts (socket : Socket) (s : Broadcast n) : BroadcastStep n → Bool
  | .service l =>
      (listCalls s.service l).any fun
        | .store _ socket' => socket' = socket
        | .invalidate _ | .addToStart _ _ | .freeNode _ _ => false
  | .call _ | .walk => false

/-- Does {lit}`recv` on this socket return that the connection has been closed? -/
def closes (socket : Socket) (s : Broadcast n) : BroadcastStep n → Bool
  | .service (.receive .closed) =>
      match s.service.mainLoop.walker with
      | connectionSocketPtr :: _ => s.service.mainLoop.socket connectionSocketPtr = some socket
      | [] => false
  | .service _ | .call _ | .walk => false

namespace Conversation

/-- The bytes that the broker has written and the client has not yet received. -/
def inTransit (s : Conversation n) : Bytes :=
  (wireBytes s.written).drop s.arrived

/-- The bytes that the broker receives from the client in a step. -/
def receives (s : Conversation n) (socket : Socket) (l : BroadcastStep n) : Bytes :=
  if s.connection = .established then receivedFrom socket s.broker l else []

/-- What the broker writes to the client in a step. -/
def writes (s : Conversation n) (socket : Socket) (l : BroadcastStep n) : List Written :=
  if s.connection = .notAccepted then [] else writtenTo socket s.broker l

/-- The broker's side of the connection.  {lit}`accept` takes it once, after the client has
connected.  While it is open its socket is returned for nobody else, what is received on it are
the next bytes that the client has sent, and it is closed when the client has closed it.  At other
times the socket may be that of another client. -/
def connects (socket : Socket) (s : Conversation n) (l : BroadcastStep n) (accepted : Bool) :
    Bool :=
  if accepted then
    accepts socket s.broker l && s.client.connected && s.connection = .notAccepted
  else
    s.connection ≠ .established ||
      !accepts socket s.broker l &&
        (!closes socket s.broker l || s.phase = .ended && s.received = s.sent.length) &&
        (s.sent.drop s.received).take (receivedFrom socket s.broker l).length =
          receivedFrom socket s.broker l

/-- The connection after a step of the broker. -/
def afterBroker (socket : Socket) (s : Conversation n) (broker : Broadcast n)
    (l : BroadcastStep n) (accepted : Bool) : Conversation n :=
  { s with
    broker := broker
    connection :=
      if accepted then .established
      else if s.connection = .established ∧ closes socket s.broker l = true then .closed
      else s.connection
    received := s.received + (s.receives socket l).length
    written := s.written ++ s.writes socket l }

/-- The query of an option, if the client sends one. -/
def queryFor (s : Conversation n) (option : Byte) (topic : Bytes) : Option Query :=
  if s.client.connected then queryOf option topic else none

/-- The broker when {lit}`main` enters its loop, and a client that enters its own. -/
def start (topicNames : List Bytes)
    (garbage : Nat → OutgoingBufferElement topicNames.length) : Conversation topicNames.length where
  broker := Broadcast.start topicNames garbage
  connection := .notAccepted
  client := ⟨false, zeros clientReceiveBufferSize⟩
  phase := .choosing
  sent := []
  received := 0
  written := []
  arrived := 0
  queries := []
  reports := []
  printed := []

end Conversation

/-- The step function.  {lit}`connect`, {lit}`send` and {lit}`select` succeed. -/
def conversationStep (socket : Socket) (s : Conversation n) :
    ConversationStep n → Option (Conversation n)
  | .broker l accepted =>
      if s.connects socket l accepted then
        (broadcastStep s.broker l).map fun broker => s.afterBroker socket broker l accepted
      else none
  | .choose option topic message =>
      match s.phase, s.queryFor option topic with
      | .choosing, some q => do
          let command ← createCommand option (topic ++ [0]) none
          let sent ← sendCommand command
          return { s with
            phase := .awaiting option topic
            sent := s.sent ++ sent
            queries := s.queries ++ [q] }
      | .choosing, none =>
          (executeRequestedAction s.client option topic message true .willBlock).map fun action =>
            { s with
              client := action.client
              phase := if action.returnValue then .polling else .ended
              sent := s.sent ++ action.sent.getD [] }
      | _, _ => none
  | .answer k =>
      match s.phase with
      | .awaiting option topic =>
          if 0 < k ∧ k ≤ s.inTransit.length then
            -- the query has been sent before
            (executeRequestedAction s.client option topic [] true
              (.data (s.inTransit.take k))).map fun action =>
                { s with
                  client := action.client
                  phase := .polling
                  arrived := s.arrived + k
                  reports := s.reports ++ action.report.toList }
          else none
      | .choosing | .polling | .ended => none
  | .poll k =>
      if s.phase = .polling ∧ k ≤ s.inTransit.length then
        (receiveSubscriptionMessages (if k = 0 then .willBlock else .data (s.inTransit.take k))
          s.client.receiveBuffer).map fun (messages, receiveBuffer) =>
            { s with
              client := { s.client with receiveBuffer := receiveBuffer }
              phase := .choosing
              arrived := s.arrived + k
              printed := s.printed ++ messages }
      else none

/-- The broker and the client with this socket as a transition system. -/
def conversing (topicNames : List Bytes) (socket : Socket) :
    System (Conversation topicNames.length) (ConversationStep topicNames.length) where
  initial := fun s => ∃ garbage, s = Conversation.start topicNames garbage
  step := conversationStep socket

/-- The steps of the two programs. -/
inductive ConversationMoves (socket : Socket) (s : Conversation n) :
    ConversationStep n → Conversation n → Prop
  | broker {l : BroadcastStep n} {accepted : Bool} {broker : Broadcast n}
      (hconnects : s.connects socket l accepted = true)
      (hstep : broadcastStep s.broker l = some broker) :
      ConversationMoves socket s (.broker l accepted) (s.afterBroker socket broker l accepted)
  /-- a query is sent -/
  | ask {option : Byte} {topic message sent : Bytes} {q : Query} (hphase : s.phase = .choosing)
      (hquery : s.queryFor option topic = some q)
      (hsent : (createCommand option (topic ++ [0]) none).bind sendCommand = some sent) :
      ConversationMoves socket s (.choose option topic message) { s with
        phase := .awaiting option topic
        sent := s.sent ++ sent
        queries := s.queries ++ [q] }
  /-- another option -/
  | act {option : Byte} {topic message : Bytes} {action : Action} (hphase : s.phase = .choosing)
      (hquery : s.queryFor option topic = none)
      (haction : executeRequestedAction s.client option topic message true .willBlock =
        some action) :
      ConversationMoves socket s (.choose option topic message) { s with
        client := action.client
        phase := if action.returnValue then .polling else .ended
        sent := s.sent ++ action.sent.getD [] }
  | answer {k : Nat} {option : Byte} {topic : Bytes} {action : Action}
      (hphase : s.phase = .awaiting option topic) (hpositive : 0 < k)
      (hwritten : k ≤ s.inTransit.length)
      (haction : executeRequestedAction s.client option topic [] true
        (.data (s.inTransit.take k)) = some action) :
      ConversationMoves socket s (.answer k) { s with
        client := action.client
        phase := .polling
        arrived := s.arrived + k
        reports := s.reports ++ action.report.toList }
  | poll {k : Nat} {messages : List Bytes} {receiveBuffer : Bytes} (hphase : s.phase = .polling)
      (hwritten : k ≤ s.inTransit.length)
      (hreceive : receiveSubscriptionMessages
        (if k = 0 then .willBlock else .data (s.inTransit.take k)) s.client.receiveBuffer =
          some (messages, receiveBuffer)) :
      ConversationMoves socket s (.poll k) { s with
        client := { s.client with receiveBuffer := receiveBuffer }
        phase := .choosing
        arrived := s.arrived + k
        printed := s.printed ++ messages }

/-- The steps are these and no others. -/
theorem conversationStep_moves {socket : Socket} {s s' : Conversation n} {l : ConversationStep n}
    (h : conversationStep socket s l = some s') : ConversationMoves socket s l s' := by
  cases l with
  | broker l accepted =>
      rw [conversationStep, Option.ite_none_right_eq_some, Option.map_eq_some_iff] at h
      rcases h with ⟨hconnects, broker, hstep, rfl⟩
      exact .broker hconnects hstep
  | choose option topic message =>
      simp only [conversationStep] at h
      split at h
      · next q hphase hquery =>
        simp only [Option.bind_eq_bind, Option.bind_eq_some_iff, Option.pure_def,
          Option.some.injEq] at h
        rcases h with ⟨command, hcommand, sent, hsent, rfl⟩
        apply ConversationMoves.ask hphase hquery
        rw [hcommand, Option.bind_some, hsent]
      · next hphase hquery =>
        rw [Option.map_eq_some_iff] at h
        rcases h with ⟨action, haction, rfl⟩
        exact .act hphase hquery haction
      · contradiction
  | answer k =>
      simp only [conversationStep] at h
      split at h
      · next option topic hphase =>
        rw [Option.ite_none_right_eq_some, Option.map_eq_some_iff] at h
        rcases h with ⟨⟨hpositive, hwritten⟩, action, haction, rfl⟩
        exact .answer hphase hpositive hwritten haction
      all_goals contradiction
  | poll k =>
      rw [conversationStep, Option.ite_none_right_eq_some, Option.map_eq_some_iff] at h
      rcases h with ⟨⟨hphase, hwritten⟩, ⟨messages, receiveBuffer⟩, hreceive, rfl⟩
      exact .poll hphase hwritten hreceive

/-! ## What the client sends -/

/-- The command that the user asks for. -/
def typedCommand (option : Byte) (topic message : Bytes) : Option Command :=
  if option = byteOf '2' then some (.publish topic message)
  else if option = byteOf '3' then some (.subscribe topic)
  else if option = byteOf '4' then some (.topicExists topic)
  else if option = byteOf '5' then some (.subscriberNumber topic)
  else if option = byteOf '6' then some (.unsubscribe topic)
  else none

/-- The commands that are sent for an option. -/
def Conversation.commandsFor (s : Conversation n) (option : Byte) (topic message : Bytes) :
    List Command :=
  if s.client.connected then (typedCommand option topic message).toList else []

/-- The command of a query. -/
def commandOf : Query → Command
  | .topicExists topic => .topicExists topic
  | .subscriberNumber topic => .subscriberNumber topic

theorem stream_append (cs ds : List Command) : stream (cs ++ ds) = stream cs ++ stream ds := by
  rw [stream, List.map_append, framesOf_append]
  rfl

theorem stream_singleton (c : Command) : stream [c] = c.frame := by
  simp [stream, Command.frame]

/-- A command is sent as its frame. -/
theorem sendCommand_createCommand {c : Command} (hc : c.WellFormed) :
    (createCommand c.type (c.topic ++ [0]) (c.message.map fun m => m ++ [0])).bind sendCommand =
      some (stream [c]) := by
  have hfree : NulFree (hashtag :: c.text) := by simp [hc.text_nulFree, hashtag_ne_nul]
  have hfull := Block.cstring_full c.frame rfl
  rw [List.replicate_zero, List.append_nil] at hfull
  have hstring : Foundations.cstring c.frame = some (hashtag :: c.text) := cstring_append hfree []
  rw [createCommand_eq c hc.topic_nulFree hc.tail_nulFree [] [], Option.bind_some, sendCommand,
    hfull, hstring, stream_singleton]
  rfl

theorem sendOnly_sent {client : ClientState} {c : Command} (hc : c.WellFormed) {action : Action}
    (h : sendOnly client c.type c.topic c.message true = some action) :
    action.sent = some (stream [c]) := by
  have hsent := sendCommand_createCommand hc
  simp only [sendOnly, Option.bind_eq_bind, Option.bind_eq_some_iff, Option.pure_def,
    Option.some.injEq] at h
  rcases h with ⟨command, hcommand, sent, hsend, rfl⟩
  rw [hcommand, Option.bind_some, hsend] at hsent
  exact hsent

/-- What an option without a query sends. -/
theorem sent_of_action {s : Conversation n} {option : Byte} {topic message : Bytes}
    (hquery : s.queryFor option topic = none)
    (htyped : ∀ c ∈ s.commandsFor option topic message, c.WellFormed) {action : Action}
    (h : executeRequestedAction s.client option topic message true .willBlock = some action) :
    action.sent.getD [] = stream (s.commandsFor option topic message) ∧
      (s.commandsFor option topic message).filter asksForResponse = [] := by
  unfold Conversation.queryFor at hquery
  unfold Conversation.commandsFor at htyped ⊢
  unfold executeRequestedAction at h
  cases hconnected : s.client.connected with
  | false =>
      simp only [hconnected, Bool.false_eq_true, if_false] at h
      have hnone : action.sent = none := by
        repeat' split at h
        all_goals exact (Option.some.inj h) ▸ rfl
      rw [hnone]
      exact ⟨rfl, rfl⟩
  | true =>
      simp only [hconnected, if_true] at h htyped hquery ⊢
      by_cases hpublish : option = byteOf '2'
      · subst hpublish
        rw [if_neg (by decide), if_pos rfl] at h
        have hc : (Command.publish topic message).WellFormed := htyped _ (by simp [typedCommand])
        rw [sendOnly_sent hc h]
        exact ⟨rfl, rfl⟩
      by_cases hsubscribe : option = byteOf '3'
      · subst hsubscribe
        rw [if_neg (by decide), if_neg (by decide), if_pos (Or.inl rfl)] at h
        have hc : (Command.subscribe topic).WellFormed := htyped _ (by simp +decide [typedCommand])
        rw [sendOnly_sent hc h]
        exact ⟨rfl, rfl⟩
      by_cases hunsubscribe : option = byteOf '6'
      · subst hunsubscribe
        rw [if_neg (by decide), if_neg (by decide), if_pos (Or.inr rfl)] at h
        have hc : (Command.unsubscribe topic).WellFormed :=
          htyped _ (by simp +decide [typedCommand])
        rw [sendOnly_sent hc h]
        exact ⟨rfl, rfl⟩
      by_cases hexists : option = byteOf '4'
      · simp [queryOf, hexists] at hquery
      by_cases hnumber : option = byteOf '5'
      · simp +decide [queryOf, hnumber] at hquery
      have hcommand : typedCommand option topic message = none := by
        simp [typedCommand, hpublish, hsubscribe, hunsubscribe, hexists, hnumber]
      simp only [hpublish, hsubscribe, hunsubscribe, hexists, hnumber, or_self, if_false] at h
      have hnone : action.sent = none := by
        repeat' split at h
        all_goals exact (Option.some.inj h) ▸ rfl
      rw [hnone, hcommand]
      exact ⟨rfl, rfl⟩

/-- The command of a query is sent. -/
theorem sendCommand_query {option : Byte} {topic : Bytes} {q : Query}
    (hquery : queryOf option topic = some q) (hc : (commandOf q).WellFormed) :
    (createCommand option (topic ++ [0]) none).bind sendCommand = some (stream [commandOf q]) := by
  unfold queryOf at hquery
  split at hquery
  · next hoption =>
    subst hoption
    rw [← Option.some.inj hquery] at hc ⊢
    exact sendCommand_createCommand hc
  · rw [Option.ite_none_right_eq_some] at hquery
    rcases hquery with ⟨rfl, hquery⟩
    rw [← Option.some.inj hquery] at hc ⊢
    exact sendCommand_createCommand hc

/-- It is the command that the user asks for. -/
theorem typedCommand_query {option : Byte} {topic : Bytes} {q : Query}
    (hquery : queryOf option topic = some q) (message : Bytes) :
    typedCommand option topic message = some (commandOf q) := by
  unfold queryOf at hquery
  split at hquery
  · next hoption =>
    subst hoption
    rw [← Option.some.inj hquery]
    rfl
  · rw [Option.ite_none_right_eq_some] at hquery
    rcases hquery with ⟨rfl, hquery⟩
    rw [← Option.some.inj hquery]
    rfl

/-- A query is sent as well. -/
theorem sent_of_query {s : Conversation n} {option : Byte} {topic message : Bytes} {q : Query}
    (hquery : s.queryFor option topic = some q)
    (htyped : ∀ c ∈ s.commandsFor option topic message, c.WellFormed) {sent : Bytes}
    (hsent : (createCommand option (topic ++ [0]) none).bind sendCommand = some sent) :
    s.commandsFor option topic message = [commandOf q] ∧ sent = stream [commandOf q] := by
  rw [Conversation.queryFor, Option.ite_none_right_eq_some] at hquery
  rcases hquery with ⟨hconnected, hquery⟩
  rw [Conversation.commandsFor, if_pos hconnected, typedCommand_query hquery] at htyped ⊢
  have hc : (commandOf q).WellFormed := htyped _ (by simp)
  exact ⟨rfl, Option.some.inj (hsent.symm.trans (sendCommand_query hquery hc))⟩

/-- The option of a query sends the query and reports on the response. -/
theorem executeRequestedAction_query {client : ClientState} {option : Byte} {topic : Bytes}
    {q : Query} (hconnected : client.connected = true) (hquery : queryOf option topic = some q)
    (message : Bytes) (incoming : Incoming) :
    executeRequestedAction client option topic message true incoming =
      sendAndReport client option topic q true incoming := by
  unfold queryOf at hquery
  split at hquery
  · next hoption =>
    subst hoption
    rw [← Option.some.inj hquery, executeRequestedAction, if_neg (by decide), if_neg (by decide),
      if_neg (by decide), if_pos rfl, if_pos hconnected]
  · rw [Option.ite_none_right_eq_some] at hquery
    rcases hquery with ⟨rfl, hquery⟩
    rw [← Option.some.inj hquery, executeRequestedAction, if_neg (by decide), if_neg (by decide),
      if_neg (by decide), if_neg (by decide), if_pos rfl, if_pos hconnected]

/-! ## What a report should say -/

/-- The report says whether the topic exists, or how many nodes its subscriber list has, when the
topics are these. -/
def IsRight (topics : List Topic) (report : Report) : Command → Prop
  | .topicExists topic =>
      report = if (subscribersOf topics topic).isSome then .topicExists topic
        else .topicDoesNotExist topic
  | .subscriberNumber topic =>
      report = match subscribersOf topics topic with
        | some k => .subscribers k topic
        | none => .topicDoesNotExist topic
  | .publish _ _ | .subscribe _ | .unsubscribe _ => False

/-- The report on a command is right, with the topics as they were when it was executed. -/
def ReportsOn (c : Command × List Topic) (report : Report) : Prop :=
  IsRight c.2 report c.1

/-- What the broker answers is one of the responses that the client knows. -/
theorem answers_of_isAnswer {topics : List Topic} {q : Query} {response : Bytes}
    (h : IsAnswer topics response (commandOf q)) : Client.Answers q response := by
  cases q with
  | topicExists topic =>
      rw [commandOf, IsAnswer, subscribersOf_eq] at h
      refine ⟨topics, ?_⟩
      rw [h, Broker.topicExists]
      cases getTopicByName topics topic <;> rfl
  | subscriberNumber topic =>
      rw [commandOf, IsAnswer, subscribersOf_eq] at h
      refine ⟨topics, ?_⟩
      rw [Broker.subscriberNumber]
      cases hget : getTopicByName topics topic with
      | none =>
          rw [hget] at h
          exact congrArg some h.symm
      | some i =>
          rw [hget] at h
          rcases h with ⟨hle, rfl⟩
          have hwritten : itoaS (topics.get i).subscriberConnectionSockets.length (5 + 1) =
              some (decimal (topics.get i).subscriberConnectionSockets.length) := by
            rw [itoaS_eq_some_iff (by decide)]
            exact Nat.lt_succ_of_le hle
          exact hwritten

/-- A report that says what the answer says is right. -/
theorem right_of_reflects {topics : List Topic} {q : Query} {response : Bytes} {report : Report}
    (hanswer : IsAnswer topics response (commandOf q)) (h : Reflects (q, response) report) :
    IsRight topics report (commandOf q) := by
  cases h with
  | doesExist topic =>
      rw [commandOf, IsAnswer] at hanswer
      rw [commandOf, IsRight]
      split at hanswer
      · next hsome => rw [if_pos hsome]
      · simp +decide at hanswer
  | doesNotExist topic hother =>
      rw [commandOf, IsAnswer] at hanswer
      rw [commandOf, IsRight]
      split at hanswer
      · exact absurd hanswer hother
      · next hnone => rw [if_neg hnone]
  | number topic k =>
      rw [commandOf, IsAnswer] at hanswer
      rw [commandOf, IsRight]
      cases hnumber : subscribersOf topics topic with
      | none =>
          rw [hnumber] at hanswer
          rcases exists_digit k with ⟨d, ds, hds, hd⟩
          rw [hds, List.cons.injEq] at hanswer
          exact absurd hanswer.1 hd
      | some k' =>
          rw [hnumber] at hanswer
          have hread := atoi_decimal k []
          rw [hanswer.2, atoi_decimal k' [], Option.some.injEq] at hread
          rw [Int.ofNat.inj hread]
  | noNumber topic hother =>
      rw [commandOf, IsAnswer] at hanswer
      rw [commandOf, IsRight]
      cases hnumber : subscribersOf topics topic with
      | none => rfl
      | some k =>
          rw [hnumber] at hanswer
          exact absurd hanswer.2 (hother k)

/-- Reports that say what the answers say are right. -/
theorem rights_of_reflects {qs : List Query} {answered : List (Command × List Topic)}
    {responses : List Bytes} {reports : List Report}
    (hanswers : List.Forall₂ AnswersCommand answered responses)
    (hreflects : List.Forall₂ Reflects (qs.zip responses) reports)
    (hsame : answered.map Prod.fst = qs.map commandOf) :
    List.Forall₂ ReportsOn answered reports := by
  induction hanswers generalizing qs reports with
  | nil =>
      rw [List.zip_nil_right, List.forall₂_nil_left_iff] at hreflects
      rw [hreflects]
      exact .nil
  | @cons c response answered responses hanswer _ ih =>
      cases qs with
      | nil => contradiction
      | cons q qs =>
          rw [List.map_cons, List.map_cons, List.cons.injEq] at hsame
          rw [List.zip_cons_cons] at hreflects
          cases hreflects with
          | cons hfirst hrest =>
              rw [AnswersCommand, hsame.1] at hanswer
              refine .cons ?_ (ih hrest hsame.2)
              rw [ReportsOn, hsame.1]
              exact right_of_reflects hanswer hfirst

/-! ## The socket of the client -/

/-- {lit}`accept` returns the client's socket for nobody else, neither before it takes the client's
connection nor after the broker has closed it. -/
def KeepsSocket (socket : Socket) (s : Conversation n) (l : BroadcastStep n) (accepted : Bool) :
    Prop :=
  accepts socket s.broker l = true → accepted = true

/-- A cell has the client's socket only while its connection is open, and no other cell has
it then. -/
structure HoldsSocket (socket : Socket) (s : Conversation n) : Prop where
  isOpen : ∀ p, s.broker.service.mainLoop.socket p = some socket → s.connection = .established
  unique : ∀ p q, s.broker.service.mainLoop.socket p = some socket →
    s.broker.service.mainLoop.socket q = some socket → p = q

theorem accepts_service {socket : Socket} {s : Broadcast n} {l : ServiceStep n} :
    accepts socket s (.service l) = true ↔ ∃ p, .store p socket ∈ listCalls s.service l := by
  rw [accepts, List.any_eq_true]
  constructor
  · rintro ⟨call, hcall, hstores⟩
    cases call with
    | store p socket' => exact ⟨p, of_decide_eq_true hstores ▸ hcall⟩
    | invalidate | addToStart | freeNode => contradiction
  · rintro ⟨p, hcall⟩
    exact ⟨_, hcall, by simp⟩

/-- The cell of a connection that has been closed is marked. -/
theorem invalidate_of_closes {socket : Socket} {s : Broadcast n} {l : ServiceStep n}
    (h : closes socket s (.service l) = true) :
    ∃ p, s.service.mainLoop.socket p = some socket ∧ .invalidate p ∈ listCalls s.service l := by
  cases l with
  | accept | execute | finish | thread => contradiction
  | receive incoming =>
  cases incoming with
  | selectError | willBlock | data | recvError => contradiction
  | closed =>
      simp only [closes] at h
      split at h
      · next p rest hwalker =>
        refine ⟨p, of_decide_eq_true h, ?_⟩
        simp [listCalls, hwalker, closeCalls]
      · contradiction

/-- A step of the broker. -/
theorem HoldsSocket.step {socket : Socket} (hvalid : socket ≠ invalidSocket) {s : Conversation n}
    (hs : HoldsSocket socket s) {l : BroadcastStep n} {accepted : Bool}
    (hkeeps : KeepsSocket socket s l accepted) (hconnects : s.connects socket l accepted = true)
    {broker : Broadcast n} (hstep : broadcastStep s.broker l = some broker) :
    HoldsSocket socket (s.afterBroker socket broker l accepted) := by
  cases broadcastStep_moves hstep with
  | call | walk =>
      -- the main loop does not move
      have hnot : accepted = false := by
        cases accepted with
        | false => rfl
        | true => simp [Conversation.connects, accepts] at hconnects
      subst hnot
      refine ⟨fun p hp => ?_, hs.unique⟩
      simp only [Conversation.afterBroker, Bool.false_eq_true, if_false, closes, and_false]
      exact hs.isOpen p hp
  | @service l service hadmits hservice =>
  have hcell := fun p (hp : service.mainLoop.socket p = some socket) =>
    serviceStep_cell hservice hvalid hp
  cases accepted with
  | true =>
      -- the first cell with this socket
      simp only [Conversation.connects, if_true, Bool.and_eq_true, decide_eq_true_eq] at hconnects
      have hstored : ∀ p, service.mainLoop.socket p = some socket →
          .store p socket ∈ listCalls s.broker.service l := by
        intro p hp
        rcases hcell p hp with ⟨hold, -⟩ | hstored
        · have hopen := hs.isOpen p hold
          rw [hconnects.2] at hopen
          contradiction
        · exact hstored
      exact ⟨fun _ _ => rfl, fun p q hp hq => store_unique (hstored p hp) (hstored q hq)⟩
  | false =>
      have hold : ∀ p, service.mainLoop.socket p = some socket →
          s.broker.service.mainLoop.socket p = some socket ∧
            .invalidate p ∉ listCalls s.broker.service l := by
        intro p hp
        rcases hcell p hp with hold | hstored
        · exact hold
        · exact absurd (hkeeps (accepts_service.mpr ⟨p, hstored⟩)) Bool.false_ne_true
      refine ⟨fun p hp => ?_, fun p q hp hq => hs.unique p q (hold p hp).1 (hold q hq).1⟩
      simp only [Conversation.afterBroker, Bool.false_eq_true, if_false]
      rw [if_neg]
      · exact hs.isOpen p (hold p hp).1
      · intro hcloses
        rcases invalidate_of_closes hcloses.2 with ⟨q, hq, hmarked⟩
        apply (hold p hp).2
        rw [hs.unique p q (hold p hp).1 hq]
        exact hmarked

/-- A step before {lit}`accept` has taken the connection: it is not open behind it, unless
{lit}`accept` takes it. -/
theorem connection_of_afterBroker {socket : Socket} {s : Conversation n} {broker : Broadcast n}
    {l : BroadcastStep n} {accepted : Bool}
    (h : (s.afterBroker socket broker l accepted).connection = .notAccepted) :
    s.connection = .notAccepted := by
  simp only [Conversation.afterBroker] at h
  split at h
  · contradiction
  · split at h
    · contradiction
    · exact h

/-! ## The broker's side -/

theorem requestsFrom_map (socket socket' : Socket) (cs : List Command) :
    requestsFrom socket (cs.map (Prod.mk socket')) = if socket' = socket then cs else [] := by
  by_cases h : socket' = socket <;> simp [requestsFrom, List.filterMap_map, h]

/-- Whole commands at the beginning of a stream are its first ones. -/
theorem stream_begins {cs ds : List Command} (hcs : ∀ c ∈ cs, c.WellFormed)
    (hds : ∀ d ∈ ds, d.WellFormed) (h : stream ds <+: stream cs) : ds <+: cs := by
  have hstream : ∀ es : List Command, stream es =
      terminated 0 (es.map fun c => hashtag :: c.text) := by
    intro es
    rw [stream, framesOf, terminated, List.flatMap_map, List.flatMap_map]
  have hfree : ∀ {es : List Command}, (∀ c ∈ es, c.WellFormed) →
      ∀ f ∈ es.map fun c => hashtag :: c.text, NulFree f := by
    intro es hes f hf
    rcases List.mem_map.mp hf with ⟨c, hc, rfl⟩
    rw [nulFree_cons]
    exact ⟨hashtag_ne_nul, (hes c hc).text_nulFree⟩
  rcases h with ⟨rest, hrest⟩
  rw [hstream ds, hstream cs] at hrest
  have hend : endsInside false (terminated 0 (ds.map fun c => hashtag :: c.text)) = false := by
    rw [endsInside_terminated, Bool.false_and]
  rcases (cut_terminated hrest).exists_between (hfree hcs) hend with
    ⟨before, after, hsplit, hbefore, -⟩
  rcases List.map_eq_append_iff.mp hsplit with ⟨cs₁, cs₂, rfl, rfl, -⟩
  rw [← hstream ds, ← hstream cs₁] at hbefore
  rw [stream_injective hds (fun c hc => hcs c (by simp [hc])) hbefore]
  exact List.prefix_append _ _

/-- The requests that the broker has received from the client are the first commands that the
client has sent, and what it has written to the client are the responses that it has sent for
this socket, and messages that clients have asked to be published. -/
structure BrokerSide (topicNames : List Bytes) (socket : Socket) (s : Conversation n)
    (commands : List Command) (requests : List ClientRequest) : Prop where
  holds : HoldsSocket socket s
  brings : BringRequests s.broker.service.received requests
  begins : requestsFrom socket requests <+: commands
  received : s.received = (stream (requestsFrom socket requests)).length
  notAccepted : s.connection = .notAccepted →
    requestsFrom socket requests = [] ∧ s.written = []
  responses : responsesAmong s.written = responsesOn socket s.broker.service.threads.log.sent
  messages : ∀ text ∈ messagesAmong s.written, ∃ t, text ∈ messagesTo topicNames t requests

/-- The client leaves the broker alone, and may send more. -/
theorem BrokerSide.client {topicNames : List Bytes} {socket : Socket} {s s' : Conversation n}
    {commands commands' : List Command} {requests : List ClientRequest}
    (hs : BrokerSide topicNames socket s commands requests) (hbroker : s'.broker = s.broker)
    (hconnection : s'.connection = s.connection) (hreceived : s'.received = s.received)
    (hwritten : s'.written = s.written) (hcommands : commands <+: commands') :
    BrokerSide topicNames socket s' commands' requests where
  holds := ⟨by rw [hbroker, hconnection]; exact hs.holds.isOpen, by
    rw [hbroker]; exact hs.holds.unique⟩
  brings := hbroker ▸ hs.brings
  begins := hs.begins.trans hcommands
  received := hreceived ▸ hs.received
  notAccepted := by rw [hconnection, hwritten]; exact hs.notAccepted
  responses := by rw [hwritten, hbroker, hs.responses]
  messages := hwritten ▸ hs.messages

/-- Only a receive of commands adds requests. -/
theorem broadcast_received {s s' : Broadcast n} {l : BroadcastStep n}
    (hmoves : BroadcastMoves s l s') :
    (∃ bytes socket p, l = .service (.receive (.data bytes)) ∧
      s'.service.received = s.service.received ++ [(socket, bytes)] ∧
      s.service.mainLoop.socket p = some socket ∧
      ∀ socket', receivedFrom socket' s l = if socket = socket' then bytes else []) ∨
      s'.service.received = s.service.received ∧ ∀ socket, receivedFrom socket s l = [] := by
  cases hmoves with
  | call | walk => exact .inr ⟨rfl, fun socket => rfl⟩
  | service hadmits hstep =>
  cases serviceStep_moves hstep with
  | @receive p rest socket bytes receiveBuffer hposition hwalker hsocket hreceived =>
      refine .inl ⟨bytes, socket, p, rfl, rfl, hsocket, fun socket' => ?_⟩
      simp only [receivedFrom, hwalker, hsocket, Option.some.injEq]
  | @poll incoming mainLoop hposition hnothing hserve =>
      refine .inr ⟨rfl, fun socket => ?_⟩
      cases incoming with
      | data bytes => exact absurd rfl (hnothing bytes)
      | selectError | willBlock | closed | recvError => rfl
  | accept | execute | finish | thread => exact .inr ⟨rfl, fun socket => rfl⟩

variable {topicNames : List Bytes}

section Steps

variable {s : Conversation topicNames.length} {socket : Socket} {commands : List Command}
  {requests : List ClientRequest} {l : BroadcastStep topicNames.length} {accepted : Bool}
  {broker : Broadcast topicNames.length}

/-- The requests that a step brings, those of the client being the next ones that it has sent. -/
theorem BrokerSide.receives (hs : BrokerSide topicNames socket s commands requests)
    (hsent : s.sent = stream commands) (hcommands : ∀ c ∈ commands, c.WellFormed)
    (hallowed : OnService ReceivesCommands s.broker l)
    (hconnects : s.connects socket l accepted = true)
    (hmoves : BroadcastMoves s.broker l broker) :
    ∃ more cs, BringRequests broker.service.received (requests ++ more) ∧
      requestsFrom socket more = cs ∧ s.receives socket l = stream cs ∧
      requestsFrom socket requests ++ cs <+: commands ∧
      (s.connection ≠ .established → cs = []) := by
  rcases broadcast_received hmoves with
    ⟨bytes, socket', p, rfl, hreceived, hcell, hfrom⟩ | ⟨hreceived, hfrom⟩
  · rcases hallowed _ rfl with ⟨ds, hds, rfl, -⟩
    refine ⟨ds.map (Prod.mk socket'), if socket' = socket then ds else [], ?_,
      requestsFrom_map socket socket' ds, ?_⟩
    · rw [hreceived]
      exact hs.brings.receive socket' hds
    by_cases hsocket : socket' = socket
    · subst hsocket
      have hopen : s.connection = .established := hs.holds.isOpen p hcell
      have hbytes : receivedFrom socket' s.broker (.service (.receive (.data (stream ds)))) =
          stream ds := by rw [hfrom socket', if_pos rfl]
      rw [Conversation.receives, if_pos hopen, hbytes, if_pos rfl]
      refine ⟨rfl, ?_, fun hnot => absurd hopen hnot⟩
      -- they are the next ones that the client has sent
      have hnext : (s.sent.drop s.received).take (stream ds).length = stream ds := by
        cases accepted with
        | true =>
            simp only [Conversation.connects, if_true, Bool.and_eq_true,
              decide_eq_true_eq] at hconnects
            rw [hconnects.2] at hopen
            contradiction
        | false =>
            simp only [Conversation.connects, Bool.false_eq_true, if_false, Bool.or_eq_true,
              Bool.and_eq_true, decide_eq_true_eq, hbytes] at hconnects
            exact (hconnects.resolve_left fun hnot => hnot hopen).2
      rcases hs.begins with ⟨rest, hrest⟩
      have hbegins : ds <+: rest := by
        apply stream_begins
        · exact fun c hc => hcommands c (hrest ▸ List.mem_append_right _ hc)
        · exact hds
        · rw [hsent, ← hrest, stream_append, hs.received, List.drop_left] at hnext
          rw [← hnext]
          exact List.take_prefix _ _
      rw [← hrest]
      exact (List.prefix_append_right_inj _).mpr hbegins
    · rw [if_neg hsocket, Conversation.receives, hfrom socket, if_neg hsocket, ite_self,
        List.append_nil]
      exact ⟨rfl, hs.begins, fun _ => rfl⟩
  · refine ⟨[], [], ?_, rfl, ?_, ?_, fun _ => rfl⟩
    · rw [hreceived, List.append_nil]
      exact hs.brings
    · rw [Conversation.receives, hfrom socket, ite_self]
      rfl
    · rw [List.append_nil]
      exact hs.begins

/-- A step of the broker. -/
theorem BrokerSide.step (hvalid : socket ≠ invalidSocket)
    (hs : BrokerSide topicNames socket s commands requests) (hsent : s.sent = stream commands)
    (hcommands : ∀ c ∈ commands, c.WellFormed)
    (hreach : (broadcasting topicNames).ReachableVia (OnService ReceivesCommands) s.broker)
    (hkeeps : KeepsSocket socket s l accepted)
    (hallowed : OnService ReceivesCommands s.broker l)
    (hconnects : s.connects socket l accepted = true)
    (hstep : broadcastStep s.broker l = some broker) :
    ∃ requests', BrokerSide topicNames socket (s.afterBroker socket broker l accepted) commands
      requests' := by
  have hmoves := broadcastStep_moves hstep
  rcases hs.receives hsent hcommands hallowed hconnects hmoves with
    ⟨more, cs, hbrings, hmore, hreceives, hbegins, hclosed⟩
  have hrequests : requestsFrom socket (requests ++ more) = requestsFrom socket requests ++ cs := by
    rw [requestsFrom_append, hmore]
  have hnotAccepted : s.connection = .notAccepted →
      requestsFrom socket (requests ++ more) = [] ∧ s.written ++ s.writes socket l = [] := by
    intro hnot
    rcases hs.notAccepted hnot with ⟨hnone, hwritten⟩
    rw [hrequests, hnone, hclosed (by rw [hnot]; simp), hwritten, Conversation.writes, if_pos hnot]
    exact ⟨rfl, rfl⟩
  refine ⟨requests ++ more, ?_⟩
  constructor
  case holds => exact hs.holds.step hvalid hkeeps hconnects hstep
  case brings => exact hbrings
  case begins => rwa [hrequests]
  case received =>
    rw [Conversation.afterBroker, hrequests, stream_append, List.length_append, hreceives,
      hs.received]
  case notAccepted => exact fun hnot => hnotAccepted (connection_of_afterBroker hnot)
  case responses =>
    rw [Conversation.afterBroker]
    by_cases hnot : s.connection = .notAccepted
    · -- there are no responses to send before the client can send a query
      rcases hnotAccepted hnot with ⟨hnone, hwritten⟩
      have hservice : (service topicNames).ReachableVia ReceivesCommands broker.service :=
        service_of_broadcasting (fun _ _ hallowed => hallowed _ rfl) (hreach.step hallowed hstep)
      simp only [hwritten]
      exact (responsesOn_eq_nil hservice hbrings hnone).symm
    · simp only [responsesAmong_append, hs.responses, Conversation.writes, if_neg hnot]
      exact (hmoves.responses socket).symm
  case messages =>
    intro text htext
    have hmessage : ∃ t, text ∈ messagesTo topicNames t requests := by
      rw [Conversation.afterBroker, messagesAmong_append] at htext
      rcases List.mem_append.mp htext with hold | hnew
      · exact hs.messages text hold
      · rw [Conversation.writes] at hnew
        split at hnew
        · contradiction
        · rcases message_requested (fun _ _ hallowed => hallowed _ rfl) hreach hs.brings hnew with
            ⟨t, ht⟩
          exact ⟨t, ht⟩
    rcases hmessage with ⟨t, ht⟩
    refine ⟨t, ?_⟩
    rw [messagesTo_append]
    exact List.mem_append_left _ ht

/-- The queries of the client that have been executed are its first ones, and what has been written
to it answers the first of them, each as the topics were when it was executed. -/
theorem BrokerSide.answers (hs : BrokerSide topicNames socket s commands requests)
    (hreach : (broadcasting topicNames).ReachableVia (OnService ReceivesCommands) s.broker) :
    (executedFrom socket (queries requests s.broker.service.executed)).map Prod.fst <+:
        commands.filter asksForResponse ∧
      ∃ answered, answered <+: executedFrom socket (queries requests s.broker.service.executed) ∧
        List.Forall₂ AnswersCommand answered (responsesAmong s.written) := by
  have hservice : (service topicNames).ReachableVia ReceivesCommands s.broker.service :=
    service_of_broadcasting (fun _ _ hallowed => hallowed _ rfl) hreach
  refine ⟨(executedFrom_begins socket requests _).trans (hs.begins.filter _), ?_⟩
  rw [hs.responses]
  exact answered_on hservice hs.brings socket

end Steps

/-! ## The client's side -/

/-- The client waits for the response to its last query, or for none. -/
def WaitsForLast (s : Conversation n) : Prop :=
  match s.phase with
  | .awaiting option topic => s.client.connected = true ∧
      ∃ q qs, queryOf option topic = some q ∧ s.queries = qs ++ [q] ∧ qs.length = s.reports.length
  | .choosing | .polling | .ended => s.queries.length = s.reports.length

/-- The client has sent the commands, with its queries among them.  Of the strings written to it,
those in {lit}`before` have arrived: it has made a report on every response that says what the
response says, and has printed every message. -/
structure ClientSide (s : Conversation n) (commands : List Command)
    (before after : List Written) : Prop where
  wellFormed : ∀ c ∈ commands, c.WellFormed
  sent : s.sent = stream commands
  queries : commands.filter asksForResponse = s.queries.map commandOf
  written : s.written = before ++ after
  arrived : s.arrived = (wireBytes before).length
  answered : (responsesAmong before).length = s.reports.length
  printed : messagesAmong before = s.printed.map (hashtag :: ·)
  length_eq : s.client.receiveBuffer.length = clientReceiveBufferSize
  clean : CleanBehindFirst s.client.receiveBuffer
  waits : WaitsForLast s
  reflects : List.Forall₂ Reflects
    ((s.queries.take s.reports.length).zip (responsesAmong before)) s.reports

/-- The next {lit}`k` bytes in transit are these strings. -/
def Conversation.Takes (s : Conversation n) (k : Nat) (strings : List Written) : Prop :=
  ∃ before after, s.written = before ++ (strings ++ after) ∧
    s.arrived = (wireBytes before).length ∧ k = (wireBytes strings).length

theorem ClientSide.start (garbage : Nat → OutgoingBufferElement topicNames.length) :
    ClientSide (Conversation.start topicNames garbage) [] [] [] where
  wellFormed := by simp
  sent := rfl
  queries := rfl
  written := rfl
  arrived := rfl
  answered := rfl
  printed := rfl
  length_eq := length_zeros _
  clean := cleanBehindFirst_zeros _
  waits := rfl
  reflects := .nil

section Steps

variable {s : Conversation n} {commands : List Command} {before after : List Written}

theorem ClientSide.inTransit (hs : ClientSide s commands before after) :
    s.inTransit = wireBytes after := by
  rw [Conversation.inTransit, hs.written, hs.arrived, wireBytes_append, List.drop_left]

/-- At most one query is without a report. -/
theorem ClientSide.queries_le (hs : ClientSide s commands before after) :
    s.queries.length ≤ s.reports.length + 1 := by
  have hwaits := hs.waits
  unfold WaitsForLast at hwaits
  split at hwaits
  · rcases hwaits with ⟨-, q, qs, -, hqueries, hlength⟩
    rw [hqueries, List.length_append, hlength]
    rfl
  all_goals omega

/-- Strings that the client receives are the next ones written to it. -/
theorem ClientSide.takes (hs : ClientSide s commands before after) {k : Nat}
    {strings : List Written} (htakes : s.Takes k strings) :
    ∃ rest, after = strings ++ rest ∧ k = (wireBytes strings).length ∧
      s.inTransit.take k = wireBytes strings := by
  rcases htakes with ⟨before', rest, hwritten, harrived, hk⟩
  rw [hs.written] at hwritten
  rw [hs.arrived] at harrived
  rcases beginning_unique hwritten harrived with ⟨-, rfl⟩
  refine ⟨rest, rfl, hk, ?_⟩
  rw [hs.inTransit, wireBytes_append, hk, List.take_left]

/-- The broker writes to the connection. -/
theorem ClientSide.broker (hs : ClientSide s commands before after) {socket : Socket}
    {broker : Broadcast n} {l : BroadcastStep n} {accepted : Bool} :
    ClientSide (s.afterBroker socket broker l accepted) commands before
      (after ++ s.writes socket l) where
  wellFormed := hs.wellFormed
  sent := hs.sent
  queries := hs.queries
  written := by rw [Conversation.afterBroker, hs.written, List.append_assoc]
  arrived := hs.arrived
  answered := hs.answered
  printed := hs.printed
  length_eq := hs.length_eq
  clean := hs.clean
  waits := hs.waits
  reflects := hs.reflects

/-- The user chooses an option. -/
theorem ClientSide.choose (hs : ClientSide s commands before after) {socket : Socket}
    {option : Byte} {topic message : Bytes} {s' : Conversation n}
    (htyped : ∀ c ∈ s.commandsFor option topic message, c.WellFormed)
    (hmoves : ConversationMoves socket s (.choose option topic message) s') :
    ClientSide s' (commands ++ s.commandsFor option topic message) before after := by
  have hwellFormed : ∀ c ∈ commands ++ s.commandsFor option topic message, c.WellFormed := by
    intro c hc
    rcases List.mem_append.mp hc with hold | hnew
    · exact hs.wellFormed c hold
    · exact htyped c hnew
  cases hmoves with
  | @ask _ _ _ sent q hphase hquery hsent =>
      rcases sent_of_query hquery htyped hsent with ⟨hcommands, hstream⟩
      have hlength : s.queries.length = s.reports.length := by
        have hwaits := hs.waits
        rwa [WaitsForLast, hphase] at hwaits
      rw [Conversation.queryFor, Option.ite_none_right_eq_some] at hquery
      have hasks : asksForResponse (commandOf q) = true := by cases q <;> rfl
      constructor
      case wellFormed => exact hwellFormed
      case sent => rw [hs.sent, hcommands, stream_append, hstream]
      case queries => rw [hcommands, List.filter_append, hs.queries, List.map_append]; simp [hasks]
      case written => exact hs.written
      case arrived => exact hs.arrived
      case answered => exact hs.answered
      case printed => exact hs.printed
      case length_eq => exact hs.length_eq
      case clean => exact hs.clean
      case waits => exact ⟨hquery.1, q, s.queries, hquery.2, rfl, hlength⟩
      case reflects =>
        simp only [List.take_append_of_le_length (Nat.le_of_eq hlength.symm)]
        exact hs.reflects
  | @act _ _ _ action hphase hquery haction =>
      rcases sent_of_action hquery htyped haction with ⟨hsent, hnone⟩
      have hlength : s.queries.length = s.reports.length := by
        have hwaits := hs.waits
        rwa [WaitsForLast, hphase] at hwaits
      have hbuffer : action.client.receiveBuffer = s.client.receiveBuffer := by
        rcases executeRequestedAction_cases haction with ⟨-, hbuffer⟩ |
          ⟨q, blocking, report, hconnected, hq, -⟩
        · exact hbuffer
        · rw [Conversation.queryFor, if_pos hconnected, hq] at hquery
          contradiction
      constructor
      case wellFormed => exact hwellFormed
      case sent => rw [hs.sent, stream_append, hsent]
      case queries => rw [List.filter_append, hnone, List.append_nil, hs.queries]
      case written => exact hs.written
      case arrived => exact hs.arrived
      case answered => exact hs.answered
      case printed => exact hs.printed
      case length_eq => rw [hbuffer, hs.length_eq]
      case clean => rw [hbuffer]; exact hs.clean
      case waits =>
        unfold WaitsForLast
        cases action.returnValue <;> exact hlength
      case reflects => exact hs.reflects

/-- The response behind the others answers the query behind the others. -/
theorem answer_of_next {answered : List (Command × List Topic)} {responses later : List Bytes}
    {response : Bytes} {qs : List Query} {q : Query}
    (hanswers : List.Forall₂ AnswersCommand answered (responses ++ response :: later))
    (hbegins : answered.map Prod.fst <+: (qs ++ [q]).map commandOf)
    (hlength : qs.length = responses.length) : Client.Answers q response := by
  have hdrop := List.forall₂_drop qs.length hanswers
  rw [hlength, List.drop_left, ← hlength] at hdrop
  have hlast : (answered.drop qs.length).map Prod.fst <+: [commandOf q] := by
    have hrest := hbegins.drop qs.length
    rw [List.map_append, List.drop_left' (by simp), ← List.map_drop] at hrest
    exact hrest
  cases hfirst : answered.drop qs.length with
  | nil =>
      rw [hfirst] at hdrop
      cases hdrop
  | cons c cs =>
      rw [hfirst] at hdrop hlast
      rw [List.map_cons, List.prefix_cons_iff] at hlast
      cases hdrop with
      | cons hanswer _ =>
          rcases hlast with hnil | ⟨t, heq, -⟩
          · contradiction
          · rw [List.cons.injEq] at heq
            rw [AnswersCommand, heq.1] at hanswer
            exact answers_of_isAnswer hanswer

/-- The client receives the response to its query. -/
theorem ClientSide.answer (hs : ClientSide s commands before after) {socket : Socket}
    {answered : List (Command × List Topic)}
    (hbegins : answered.map Prod.fst <+: commands.filter asksForResponse)
    (hanswers : List.Forall₂ AnswersCommand answered (responsesAmong s.written)) {k : Nat}
    {response : Bytes} (htakes : s.Takes k [.response response]) {s' : Conversation n}
    (hmoves : ConversationMoves socket s (.answer k) s') :
    ∃ after', ClientSide s' commands (before ++ [.response response]) after' := by
  cases hmoves with
  | @answer _ option topic action hphase hpositive hwritten haction =>
  have hwaits := hs.waits
  rw [WaitsForLast, hphase] at hwaits
  rcases hwaits with ⟨hconnected, q, qs, hoption, hqueries, hlength⟩
  rcases hs.takes htakes with ⟨rest, rfl, hk, htaken⟩
  have hbytes : wireBytes [.response response] = response ++ [0] := by
    simp [wireBytes_cons, Written.text]
  have hclient : Client.Answers q response := by
    rw [hs.queries, hqueries] at hbegins
    have hresponses : responsesAmong s.written =
        responsesAmong before ++ response :: responsesAmong rest := by
      rw [hs.written, responsesAmong_append]
      rfl
    rw [hresponses] at hanswers
    exact answer_of_next hanswers hbegins (hlength.trans hs.answered.symm)
  rcases recvInto_response hs.length_eq hclient.clean.1 hclient.clean.2 hs.clean with
    ⟨tail, hreceived, hsize, hclean⟩
  rw [executeRequestedAction_query hconnected hoption] at haction
  rcases sendAndReport_cases haction with ⟨blocking, report, hreceive, hread, hreport, -⟩
  rw [htaken, hbytes, receiveFromBroker, hreceived, Option.map_some, Option.some.injEq,
    Prod.mk.injEq] at hreceive
  rw [← hreceive.2] at hread
  have hlast : s.queries.length = s.reports.length + 1 := by
    rw [hqueries, List.length_append, List.length_singleton, hlength]
  refine ⟨rest, ?_⟩
  constructor
  case wellFormed => exact hs.wellFormed
  case sent => exact hs.sent
  case queries => exact hs.queries
  case written => rw [hs.written, List.append_assoc]
  case arrived => rw [wireBytes_append, List.length_append, hs.arrived, hk]
  case answered =>
    rw [responsesAmong_append, List.length_append, hs.answered, hreport]
    simp [responsesAmong]
  case printed => rw [messagesAmong_append, hs.printed]; simp [messagesAmong]
  case length_eq => rw [← hreceive.2, hsize]
  case clean => rw [← hreceive.2]; exact hclean
  case waits => simp [WaitsForLast, hreport, hlast]
  case reflects =>
    have hwhole : s.queries.take (s.reports ++ [report]).length = qs ++ [q] := by
      rw [hqueries]
      apply List.take_of_length_le
      simp [hlength]
    have hold : s.queries.take s.reports.length = qs := by
      rw [hqueries, ← hlength, List.take_left]
    have hbefore := hs.reflects
    rw [hold] at hbefore
    have hone : responsesAmong (before ++ [.response response]) =
        responsesAmong before ++ [response] := responsesAmong_append before _
    simp only [hreport, Option.toList_some, hwhole, hone,
      List.zip_append (hlength.trans hs.answered.symm)]
    exact List.rel_append hbefore (.cons (hclient.reflects hread) .nil)

/-- The texts of messages are messages behind number signs. -/
theorem exists_messages {texts : List Bytes}
    (h : ∀ text ∈ texts, ∃ message, text = hashtag :: message ∧ NulFree message) :
    ∃ messages : List Bytes, texts = messages.map (hashtag :: ·) ∧ ∀ m ∈ messages, NulFree m := by
  induction texts with
  | nil => exact ⟨[], rfl, by simp⟩
  | cons text texts ih =>
      rcases h text List.mem_cons_self with ⟨message, rfl, hfree⟩
      rcases ih fun text htext => h text (List.mem_cons_of_mem _ htext) with
        ⟨messages, rfl, hrest⟩
      exact ⟨message :: messages, rfl, List.forall_mem_cons.mpr ⟨hfree, hrest⟩⟩

/-- On the connection they are frames. -/
theorem wireBytes_messages (messages : List Bytes) :
    wireBytes ((messages.map (hashtag :: ·)).map .message) = framesOf hashtag messages := by
  rw [wireBytes, List.map_map, List.map_map, terminated, framesOf, List.flatMap_map]
  rfl

/-- The client prints the messages that it receives; without any, the receive would block. -/
theorem receives_messages {messages : List Bytes} (hfree : ∀ m ∈ messages, NulFree m)
    {receiveBuffer receiveBuffer' : Bytes} {printed : List Bytes}
    (hlength : receiveBuffer.length = clientReceiveBufferSize)
    (hclean : CleanBehindFirst receiveBuffer)
    (hsize : (framesOf hashtag messages).length < clientReceiveBufferSize)
    (h : receiveSubscriptionMessages (if (framesOf hashtag messages).length = 0 then .willBlock
      else .data (framesOf hashtag messages)) receiveBuffer = some (printed, receiveBuffer')) :
    printed = messages ∧ receiveBuffer'.length = clientReceiveBufferSize ∧
      CleanBehindFirst receiveBuffer' := by
  cases messages with
  | nil =>
      have hnothing : (framesOf hashtag ([] : List Bytes)).length = 0 := rfl
      rw [if_pos hnothing] at h
      simp only [receiveSubscriptionMessages, receiveFromBroker, Bool.false_eq_true, if_false,
        Option.bind_eq_bind, Option.bind_some, if_true, Option.pure_def, Option.some.injEq,
        Prod.mk.injEq] at h
      rw [← h.1, ← h.2]
      exact ⟨rfl, hlength, hclean⟩
  | cons m messages =>
      have hpositive : (framesOf hashtag (m :: messages)).length ≠ 0 := by simp
      rw [if_neg hpositive, receiveSubscriptionMessages_frames (by simp) hfree hlength hclean hsize,
        Option.some.injEq, Prod.mk.injEq] at h
      rw [← h.1, ← h.2]
      exact ⟨rfl, length_zeros _, cleanBehindFirst_zeros _⟩

/-- The client looks for messages. -/
theorem ClientSide.poll (hs : ClientSide s commands before after) {socket : Socket}
    (hmessages : ∀ text ∈ messagesAmong s.written, ∃ message, text = hashtag :: message ∧
      NulFree message) {k : Nat} {texts : List Bytes} (htakes : s.Takes k (texts.map .message))
    (hsize : k < clientReceiveBufferSize) {s' : Conversation n}
    (hmoves : ConversationMoves socket s (.poll k) s') :
    ∃ after', ClientSide s' commands (before ++ texts.map .message) after' := by
  cases hmoves with
  | @poll _ printed receiveBuffer hphase hwritten hreceive =>
  have hlength : s.queries.length = s.reports.length := by
    have hwaits := hs.waits
    rwa [WaitsForLast, hphase] at hwaits
  rcases hs.takes htakes with ⟨rest, rfl, hk, htaken⟩
  have htexts : messagesAmong (texts.map .message) = texts := by
    simp [messagesAmong, List.filterMap_map]
  have hnone : responsesAmong (texts.map .message) = [] := by
    simp [responsesAmong, List.filterMap_map]
  have hall : ∀ text ∈ texts, ∃ message, text = hashtag :: message ∧ NulFree message := by
    intro text htext
    apply hmessages text
    rw [hs.written, messagesAmong_append, messagesAmong_append, htexts]
    simp [htext]
  rcases exists_messages hall with ⟨messages, hprefixed, hfree⟩
  have hbytes : wireBytes (texts.map .message) = framesOf hashtag messages := by
    rw [hprefixed, wireBytes_messages]
  rw [htaken, hk, hbytes] at hreceive
  rw [hk, hbytes] at hsize
  have hprints := receives_messages hfree hs.length_eq hs.clean hsize hreceive
  refine ⟨rest, ?_⟩
  constructor
  case wellFormed => exact hs.wellFormed
  case sent => exact hs.sent
  case queries => exact hs.queries
  case written => rw [hs.written, List.append_assoc]
  case arrived => rw [wireBytes_append, List.length_append, hs.arrived, hk]
  case answered => rw [responsesAmong_append, hnone, List.append_nil, hs.answered]
  case printed =>
    rw [messagesAmong_append, htexts, hs.printed, List.map_append, hprints.1, hprefixed]
  case length_eq => exact hprints.2.1
  case clean => exact hprints.2.2
  case waits => exact hlength
  case reflects =>
    rw [responsesAmong_append, hnone, List.append_nil]
    exact hs.reflects

end Steps

/-! ## Whole conversations -/

/-- The client keeps its socket for itself, the broker receives whole commands, and what the user
types makes commands.  Responses and messages arrive apart: the receive after a query returns the
next response and nothing else, and other receives return messages that do not fill the buffer, or
nothing. -/
def TellsApart (socket : Socket) (s : Conversation n) : ConversationStep n → Prop
  | .broker l accepted => KeepsSocket socket s l accepted ∧ OnService ReceivesCommands s.broker l
  | .choose option topic message => ∀ c ∈ s.commandsFor option topic message, c.WellFormed
  | .answer k => ∃ response, s.Takes k [.response response]
  | .poll k => k = 0 ∨
      ∃ texts : List Bytes, s.Takes k (texts.map .message) ∧ k < clientReceiveBufferSize

/-- A condition on the steps, seen at the broker. -/
def OnBroker (allowed : Broadcast n → BroadcastStep n → Prop) (s : Conversation n)
    (l : ConversationStep n) : Prop :=
  ∀ l' accepted, l = .broker l' accepted → allowed s.broker l'

instance (allowed : Broadcast n → BroadcastStep n → Prop) [∀ s l, Decidable (allowed s l)]
    (s : Conversation n) (l : ConversationStep n) : Decidable (OnBroker allowed s l) :=
  match l with
  | .broker l accepted => decidable_of_iff (allowed s.broker l)
      ⟨fun h _ _ heq => (ConversationStep.broker.inj heq).1 ▸ h, fun h => h l accepted rfl⟩
  | .choose _ _ _ | .answer _ | .poll _ => .isTrue fun _ _ heq => by cases heq

/-- The broker does what it does with any client. -/
theorem broker_of_conversing {socket : Socket} {s : Conversation topicNames.length}
    {allowed : Conversation topicNames.length → ConversationStep topicNames.length → Prop}
    {allowedThere : Broadcast topicNames.length → BroadcastStep topicNames.length → Prop}
    (hthere : ∀ s l accepted, allowed s (.broker l accepted) → allowedThere s.broker l)
    (hreach : (conversing topicNames socket).ReachableVia allowed s) :
    (broadcasting topicNames).ReachableVia allowedThere s.broker := by
  refine hreach.invariant
    (fun s => (broadcasting topicNames).ReachableVia allowedThere s.broker) ?_ ?_
  · rintro s ⟨garbage, rfl⟩
    exact System.ReachableVia.start ⟨garbage, rfl⟩
  · intro s l s' hs hallowed hstep
    cases conversationStep_moves hstep with
    | broker hconnects hbroker => exact hs.step (hthere s _ _ hallowed) hbroker
    | ask | act | answer | poll => exact hs

/-- The two sides of a conversation. -/
def Sides (topicNames : List Bytes) (socket : Socket) (s : Conversation n) : Prop :=
  ∃ commands requests before after, BrokerSide topicNames socket s commands requests ∧
    ClientSide s commands before after

theorem sides_start (topicNames : List Bytes) (socket : Socket)
    (garbage : Nat → OutgoingBufferElement topicNames.length) :
    Sides topicNames socket (Conversation.start topicNames garbage) := by
  refine ⟨[], [], [], [], ?_, ClientSide.start garbage⟩
  constructor
  case holds => exact ⟨fun p hp => by contradiction, fun p q hp => by contradiction⟩
  case brings => exact ⟨[], rfl, by simp, rfl⟩
  case begins => exact List.nil_prefix
  case received => rfl
  case notAccepted => exact fun _ => ⟨rfl, rfl⟩
  case responses => rfl
  case messages => simp [Conversation.start, messagesAmong]

/-- A step in which responses and messages arrive apart. -/
theorem Sides.step {socket : Socket} (hvalid : socket ≠ invalidSocket)
    {s s' : Conversation topicNames.length} (hs : Sides topicNames socket s)
    (hreach : (broadcasting topicNames).ReachableVia (OnService ReceivesCommands) s.broker)
    {l : ConversationStep topicNames.length} (hallowed : TellsApart socket s l)
    (hstep : conversationStep socket s l = some s') : Sides topicNames socket s' := by
  rcases hs with ⟨commands, requests, before, after, hbroker, hclient⟩
  have hmoves := conversationStep_moves hstep
  cases l with
  | broker l accepted =>
      cases hmoves with
      | broker hconnects hbrokerStep =>
          rcases hbroker.step hvalid hclient.sent hclient.wellFormed hreach hallowed.1 hallowed.2
            hconnects hbrokerStep with ⟨requests', hbroker'⟩
          exact ⟨commands, requests', before, _, hbroker', hclient.broker⟩
  | choose option topic message =>
      have hclient' := hclient.choose hallowed hmoves
      have hlonger := List.prefix_append commands (s.commandsFor option topic message)
      cases hmoves with
      | ask | act =>
          exact ⟨_, requests, before, after, hbroker.client rfl rfl rfl rfl hlonger, hclient'⟩
  | answer k =>
      rcases hallowed with ⟨response, htakes⟩
      rcases hbroker.answers hreach with ⟨hexecuted, answered, hanswered, hanswers⟩
      have hbegins := (hanswered.map Prod.fst).trans hexecuted
      rcases hclient.answer hbegins hanswers htakes hmoves with ⟨after', hclient'⟩
      cases hmoves with
      | answer =>
          exact ⟨commands, requests, _, after',
            hbroker.client rfl rfl rfl rfl (List.prefix_refl _), hclient'⟩
  | poll k =>
      have hexists : ∃ texts : List Bytes, s.Takes k (texts.map .message) ∧
          k < clientReceiveBufferSize := by
        rcases hallowed with rfl | hexists
        · exact ⟨[], ⟨before, after, hclient.written, hclient.arrived, rfl⟩, by decide⟩
        · exact hexists
      rcases hexists with ⟨texts, htakes, hsize⟩
      have hmessages : ∀ text ∈ messagesAmong s.written, ∃ message, text = hashtag :: message ∧
          NulFree message := by
        intro text htext
        rcases hbroker.messages text htext with ⟨t, ht⟩
        exact exists_message hbroker.brings ht
      rcases hclient.poll hmessages htakes hsize hmoves with ⟨after', hclient'⟩
      cases hmoves with
      | poll =>
          exact ⟨commands, requests, _, after',
            hbroker.client rfl rfl rfl rfl (List.prefix_refl _), hclient'⟩

theorem sides_of_conversing {socket : Socket} (hvalid : socket ≠ invalidSocket)
    {s : Conversation topicNames.length}
    (hreach : (conversing topicNames socket).ReachableVia (TellsApart socket) s) :
    Sides topicNames socket s := by
  induction hreach with
  | start hinit =>
      rcases hinit with ⟨garbage, rfl⟩
      exact sides_start topicNames socket garbage
  | step hreach hallowed hstep ih =>
      have hbroker : (broadcasting topicNames).ReachableVia (OnService ReceivesCommands) _ :=
        broker_of_conversing (fun _ _ _ hallowed => hallowed.2) hreach
      exact ih.step hvalid hbroker hallowed hstep

/-- The queries that the broker has executed are the first ones of the client, and the client's
reports are right on the first of them, each as the topics, which keep their names, were when the
query was executed. -/
structure ReportsRight (topicNames : List Bytes) (socket : Socket) (s : Conversation n)
    (requests : List ClientRequest) : Prop where
  recorded : ∀ topics ∈ s.broker.service.executed, topics.map Topic.name = topicNames
  executed : (executedFrom socket (queries requests s.broker.service.executed)).map Prod.fst <+:
    s.queries.map commandOf
  right : List.Forall₂ ReportsOn ((executedFrom socket
    (queries requests s.broker.service.executed)).take s.reports.length) s.reports

theorem reportsRight_of_sides {s : Conversation topicNames.length} {socket : Socket}
    {commands : List Command} {requests : List ClientRequest} {before after : List Written}
    (hclient : ClientSide s commands before after)
    (hbroker : BrokerSide topicNames socket s commands requests)
    (hreach : (broadcasting topicNames).ReachableVia (OnService ReceivesCommands) s.broker) :
    ReportsRight topicNames socket s requests := by
  have hservice : (service topicNames).ReachableVia ReceivesCommands s.broker.service :=
    service_of_broadcasting (fun _ _ hallowed => hallowed _ rfl) hreach
  rcases inService_of_service hservice with ⟨done, todo, hinService⟩
  rcases hbroker.answers hreach with ⟨hexecuted, answered, hanswered, hanswers⟩
  rw [hclient.queries] at hexecuted
  refine ⟨hinService.recorded, hexecuted, ?_⟩
  rw [hclient.written, responsesAmong_append] at hanswers
  have hfirst := List.forall₂_take s.reports.length hanswers
  rw [← hclient.answered, List.take_left, hclient.answered] at hfirst
  have hlong : s.reports.length ≤ answered.length := by
    rw [hanswers.length_eq, List.length_append, hclient.answered]
    omega
  have htake : (executedFrom socket (queries requests s.broker.service.executed)).take
      s.reports.length = answered.take s.reports.length := by
    rcases hanswered with ⟨rest, hrest⟩
    rw [← hrest, List.take_append_of_le_length hlong]
  rw [htake]
  refine rights_of_reflects hfirst hclient.reflects ?_
  have hsame := ((hanswered.map Prod.fst).trans hexecuted).take s.reports.length
  rw [← List.map_take, ← List.map_take] at hsame
  refine hsame.eq_of_length ?_
  have hle := hexecuted.length_le
  have hle' := hanswered.length_le
  simp only [List.length_map, List.length_take] at hle ⊢
  omega

/-- If the client keeps its socket for itself, and responses and messages arrive apart, every
report says what was true at the broker when the query was executed; and the messages printed are
the first ones that have been written to the client, each once and in their order, and all of them
have been published for a client. -/
theorem reports_right {socket : Socket} (hvalid : socket ≠ invalidSocket)
    {s : Conversation topicNames.length}
    (hreach : (conversing topicNames socket).ReachableVia (TellsApart socket) s)
    {requests : List ClientRequest}
    (hrequests : BringRequests s.broker.service.received requests) :
    ReportsRight topicNames socket s requests ∧
      s.queries.length ≤ s.reports.length + 1 ∧
      s.printed.map (hashtag :: ·) <+: messagesAmong s.written ∧
      ∀ message ∈ s.printed, ∃ t, hashtag :: message ∈ messagesTo topicNames t requests := by
  rcases sides_of_conversing hvalid hreach with
    ⟨commands, requests', before, after, hbroker, hclient⟩
  have hsame : requests' = requests := hbroker.brings.unique hrequests
  subst hsame
  have hbroadcast : (broadcasting topicNames).ReachableVia (OnService ReceivesCommands) s.broker :=
    broker_of_conversing (fun _ _ _ hallowed => hallowed.2) hreach
  have hprinted : s.printed.map (hashtag :: ·) <+: messagesAmong s.written := by
    rw [hclient.written, messagesAmong_append, hclient.printed]
    exact List.prefix_append _ _
  refine ⟨reportsRight_of_sides hclient hbroker hbroadcast, hclient.queries_le, hprinted, ?_⟩
  intro message hmessage
  apply hbroker.messages
  exact hprinted.subset (List.mem_map_of_mem hmessage)

/-! ## A client that subscribes, publishes and asks -/

/-- {lit}`accept` takes the client's connection. -/
def acceptClient : ConversationStep 1 :=
  .broker (.service (.accept (.socket 1 7 true))) true

/-- The client connects and sends two commands, and the broker executes the first one. -/
def connectAndType : List (ConversationStep 1) :=
  [.choose (byteOf '1') [] [], .poll 0, .choose (byteOf '3') news [], .poll 0,
      .choose (byteOf '2') news updates, acceptClient] ++
    connectAndSubscribe.tail.map fun l => .broker l false

/-- The broker adds the subscriber, and sends the message back to it. -/
def subscribeAndPublishTo : List (ConversationStep 1) :=
  connectAndType ++ .broker (.call 101) false :: publishAndWalk.map fun l => .broker l false

/-- The broker receives a query and answers it. -/
def serveQuery : List (BroadcastStep 1) :=
  [.service (.receive (.data (stream [.topicExists news]))), .service (.execute 0)] ++
    List.replicate 4 (.service (.thread .main)) ++ [.service .finish] ++
    List.replicate 10 (.service (.thread (.consumer none)))

/-- The commands of the client. -/
def subscribePublishAndAsk : List Command :=
  subscribeAndPublish ++ [.topicExists news]

/-- The client asks whether the topic exists. -/
def askForTopic : List (ConversationStep 1) :=
  .choose (byteOf '4') news [] :: .broker (.service (.accept .willBlock)) false ::
    serveQuery.map fun l => .broker l false

/-- The message arrives before the query is sent, and the response after it. -/
theorem run_askForTopic :
    ∃ s₁ s₂ s₃ s : Conversation 1,
      (conversing [news] 7).run (.start [news] fun _ => ⟨none, .connectionSocket 0⟩)
        subscribeAndPublishTo = some s₁ ∧
      (s₁.written, s₁.arrived) = ([.message (hashtag :: updates)], 0) ∧
      conversationStep 7 s₁ (.poll 9) = some s₂ ∧
      (conversing [news] 7).run s₂ askForTopic = some s₃ ∧
      (s₃.written, s₃.arrived) = ([.message (hashtag :: updates), .response [byteOf '1']], 9) ∧
      conversationStep 7 s₃ (.answer 2) = some s ∧
      (s.queries, s.reports, s.printed) =
        ([.topicExists news], [.topicExists news], [updates]) ∧
      s.broker.service.received =
        [(7, stream subscribeAndPublish), (7, stream [.topicExists news])] := by
  have hrun₁ : ((conversing [news] 7).run (.start [news] fun _ => ⟨none, .connectionSocket 0⟩)
      subscribeAndPublishTo).map (fun s₁ => (s₁.written, s₁.arrived)) =
      some ([.message (hashtag :: updates)], 0) := by
    decide +kernel
  rcases Option.map_eq_some_iff.mp hrun₁ with ⟨s₁, hs₁, hwritten₁⟩
  have hrun₂ : (((conversing [news] 7).run (.start [news] fun _ => ⟨none, .connectionSocket 0⟩)
      subscribeAndPublishTo).bind fun s₁ => conversationStep 7 s₁ (.poll 9)).isSome = true := by
    decide +kernel
  rw [hs₁, Option.bind_some, Option.isSome_iff_exists] at hrun₂
  rcases hrun₂ with ⟨s₂, hs₂⟩
  have hrun₃ : ((((conversing [news] 7).run (.start [news] fun _ => ⟨none, .connectionSocket 0⟩)
      subscribeAndPublishTo).bind fun s₁ => conversationStep 7 s₁ (.poll 9)).bind fun s₂ =>
        (conversing [news] 7).run s₂ askForTopic).map (fun s₃ => (s₃.written, s₃.arrived)) =
      some ([.message (hashtag :: updates), .response [byteOf '1']], 9) := by
    decide +kernel
  rw [hs₁, Option.bind_some, hs₂, Option.bind_some] at hrun₃
  rcases Option.map_eq_some_iff.mp hrun₃ with ⟨s₃, hs₃, hwritten₃⟩
  have hrun₄ : (((((conversing [news] 7).run (.start [news] fun _ => ⟨none, .connectionSocket 0⟩)
      subscribeAndPublishTo).bind fun s₁ => conversationStep 7 s₁ (.poll 9)).bind fun s₂ =>
        (conversing [news] 7).run s₂ askForTopic).bind fun s₃ =>
          conversationStep 7 s₃ (.answer 2)).map
            (fun s => ((s.queries, s.reports, s.printed), s.broker.service.received)) =
      some (([.topicExists news], [.topicExists news], [updates]),
        [(7, stream subscribeAndPublish), (7, stream [.topicExists news])]) := by
    decide +kernel
  rw [hs₁, Option.bind_some, hs₂, Option.bind_some, hs₃, Option.bind_some] at hrun₄
  rcases Option.map_eq_some_iff.mp hrun₄ with ⟨s, hs, hreports⟩
  rw [Prod.mk.injEq] at hreports
  exact ⟨s₁, s₂, s₃, s, hs₁, hwritten₁, hs₂, hs₃, hwritten₃, hs, hreports.1, hreports.2⟩

theorem wellFormed_commandsFor {option : Byte} {topic message : Bytes}
    (h : ∀ c ∈ (typedCommand option topic message).toList, c.WellFormed) (s : Conversation n) :
    ∀ c ∈ s.commandsFor option topic message, c.WellFormed := by
  rw [Conversation.commandsFor]
  split
  · exact h
  · simp

/-- Only {lit}`accept` returns a socket. -/
theorem keepsSocket_of_ne {socket : Socket} {l : BroadcastStep n}
    (h : ∀ accepted, l ≠ .service (.accept accepted)) (s : Conversation n) (accepted : Bool) :
    KeepsSocket socket s l accepted := by
  intro haccepts
  cases l with
  | call | walk => contradiction
  | service l =>
      rcases accepts_service.mp haccepts with ⟨p, hstored⟩
      rcases accept_of_store hstored with ⟨outcome, rfl⟩
      exact absurd rfl (h outcome)

theorem tellsApart_of_broker {s : Conversation 1} {l : BroadcastStep 1}
    (h : ∀ accepted, l ≠ .service (.accept accepted))
    (hreceives : OnService ReceivesCommands s.broker l) : TellsApart 7 s (.broker l false) :=
  ⟨keepsSocket_of_ne h s false, hreceives⟩

theorem tellsApart_acceptClient (s : Conversation 1) : TellsApart 7 s acceptClient := by
  refine ⟨fun _ => rfl, fun l heq => ?_⟩
  cases heq
  trivial

theorem tellsApart_subscribeAndPublishTo :
    ∀ l ∈ subscribeAndPublishTo, ∀ s, TellsApart 7 s l := by
  intro l hl s
  simp only [subscribeAndPublishTo, connectAndType, List.mem_append, List.mem_cons, List.mem_map,
    List.not_mem_nil, or_false] at hl
  rcases hl with ((rfl | rfl | rfl | rfl | rfl | rfl) | ⟨l, hbroker, rfl⟩) | rfl |
    ⟨l, hbroker, rfl⟩
  · exact wellFormed_commandsFor (by decide) s
  · exact .inl rfl
  · exact wellFormed_commandsFor (by decide) s
  · exact .inl rfl
  · exact wellFormed_commandsFor (by decide) s
  · exact tellsApart_acceptClient s
  · have hmem := List.mem_of_mem_tail hbroker
    refine tellsApart_of_broker ?_ (receivesCommands_connectAndSubscribe s.broker l
      (List.mem_append_left _ hmem))
    rintro accepted rfl
    simp [connectAndSubscribe] at hbroker
  · exact tellsApart_of_broker (by simp) fun _ heq => by cases heq
  · refine tellsApart_of_broker ?_ (receivesCommands_connectAndSubscribe s.broker l
      (List.mem_append_right _ hbroker))
    rintro accepted rfl
    simp [publishAndWalk] at hbroker

/-- What the broker receives are commands. -/
theorem tellsApart_serveQuery {l : BroadcastStep 1} (hl : l ∈ serveQuery) (s : Conversation 1) :
    TellsApart 7 s (.broker l false) := by
  apply tellsApart_of_broker
  · rintro accepted rfl
    simp [serveQuery] at hl
  · intro l' heq
    subst heq
    cases l' with
    | receive incoming =>
        simp only [serveQuery, List.mem_append, List.mem_cons, List.mem_replicate,
          List.not_mem_nil, reduceCtorEq, BroadcastStep.service.injEq,
          ServiceStep.receive.injEq, and_false, or_false] at hl
        rw [hl]
        exact ⟨[.topicExists news], by decide, rfl, by decide⟩
    | accept | execute | finish | thread => trivial

theorem tellsApart_askForTopic : ∀ l ∈ askForTopic, ∀ s, TellsApart 7 s l := by
  intro l hl s
  simp only [askForTopic, List.mem_cons, List.mem_map] at hl
  rcases hl with rfl | rfl | ⟨l, hserve, rfl⟩
  · exact wellFormed_commandsFor (by decide) s
  · refine ⟨fun haccepts => by contradiction, fun l heq => ?_⟩
    cases heq
    trivial
  · exact tellsApart_serveQuery hserve s

theorem reports_right_askForTopic :
    ∃ s : Conversation 1,
      (s.queries, s.reports, s.printed) = ([.topicExists news], [.topicExists news], [updates]) ∧
      ReportsRight [news] 7 s (subscribePublishAndAsk.map (Prod.mk 7)) ∧
      s.queries.length ≤ s.reports.length + 1 ∧
      s.printed.map (hashtag :: ·) <+: messagesAmong s.written ∧
      ∀ message ∈ s.printed, ∃ t,
        hashtag :: message ∈ messagesTo [news] t (subscribePublishAndAsk.map (Prod.mk 7)) := by
  rcases run_askForTopic with
    ⟨s₁, s₂, s₃, s, hs₁, hwritten₁, hs₂, hs₃, hwritten₃, hs, hreports, hreceived⟩
  simp only [Prod.mk.injEq] at hwritten₁ hwritten₃
  have hfirst : (conversing [news] 7).ReachableVia (TellsApart 7)
      (.start [news] fun _ => ⟨none, .connectionSocket 0⟩) := System.ReachableVia.start ⟨_, rfl⟩
  have hmessage : TellsApart 7 s₁ (.poll 9) :=
    Or.inr ⟨[hashtag :: updates], ⟨[], [], hwritten₁.1, hwritten₁.2, by decide⟩, by decide⟩
  have hresponse : TellsApart 7 s₃ (.answer 2) :=
    ⟨[byteOf '1'], [.message (hashtag :: updates)], [], hwritten₃.1, hwritten₃.2, by decide⟩
  have hreach₁ := hfirst.run tellsApart_subscribeAndPublishTo hs₁
  have hreach₂ := hreach₁.step hmessage hs₂
  have hreach₃ := hreach₂.run tellsApart_askForTopic hs₃
  have hrequests : BringRequests s.broker.service.received
      (subscribePublishAndAsk.map (Prod.mk 7)) := by
    rw [hreceived]
    exact ⟨[(7, subscribeAndPublish), (7, [.topicExists news])], rfl, by decide, rfl⟩
  exact ⟨s, hreports, reports_right (by decide) (hreach₃.step hresponse hs) hrequests⟩

end Conversing
end PubSub
