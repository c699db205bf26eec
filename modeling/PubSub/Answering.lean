import PubSub.Conversing

/-!
# A client that only asks

Messages are written to a client in the walks through the subscriber lists.  A client that never
subscribes gets none, and it has never more than one query without a response.  So it has nothing
to tell apart: what arrives is the response that it waits for.  When the broker has come to rest
the response is on its way.

Main results:

- Theorem {lit}`onlyAsks_of_conversing`: nothing but responses is written to such a client.
- Theorem {lit}`queries_answered`: all its reports say what was true when the query was executed, it
  prints nothing, and at rest every query without a report has its answer on the way to the client.
-/

namespace PubSub
namespace Conversing

open Foundations Client Broker

variable {n : Nat} {topicNames : List Bytes} {socket : Socket}

/-- The client does not subscribe and keeps its socket for itself, and strings arrive as a whole
behind a query.  Any client sends whole commands, and the main thread does not remove the node at
which the consumer stands. -/
def NeverSubscribes (socket : Socket) (s : Conversation n) : ConversationStep n → Prop
  | .broker l accepted => KeepsSocket socket s l accepted ∧ OnLists KeepsWalker s.broker l ∧
      OnService ReceivesCommands s.broker l
  | .choose option topic message =>
      option ≠ byteOf '3' ∧ ∀ c ∈ s.commandsFor option topic message, c.WellFormed
  | .answer k => ∃ strings, s.Takes k strings
  | .poll _ => True

/-- The client has sent no subscriptions, and it gets no messages. -/
structure OnlyAsks (socket : Socket) (s : Conversation n) : Prop where
  sends : ∃ commands, (∀ c ∈ commands, c.WellFormed) ∧ s.sent = stream commands ∧
    ∀ topic, .subscribe topic ∉ commands
  unsubscribed : Unsubscribed socket s.broker
  written : messagesAmong s.written = []

/-! ## One query at a time -/

/-- Strings without messages are responses. -/
theorem eq_responses {written : List Written} (h : messagesAmong written = []) :
    written = (responsesAmong written).map .response := by
  induction written with
  | nil => rfl
  | cons w written ih =>
      cases w with
      | message text => simp [messagesAmong] at h
      | response text =>
          have hrest : messagesAmong written = [] := by simpa [messagesAmong] using h
          have hsame : responsesAmong (.response text :: written) =
              text :: responsesAmong written := by simp [responsesAmong]
          rw [hsame, List.map_cons, ← ih hrest]

section Sides

variable {s : Conversation topicNames.length} {commands : List Command}
  {requests : List ClientRequest} {before after : List Written}

/-- Responses come only to queries. -/
theorem responses_le (hbroker : BrokerSide topicNames socket s commands requests)
    (hclient : ClientSide s commands before after)
    (hreach : (broadcasting topicNames).ReachableVia (OnService ReceivesCommands) s.broker) :
    s.reports.length + (responsesAmong after).length ≤ s.queries.length := by
  rcases hbroker.answers hreach with ⟨hexecuted, answered, hanswered, hanswers⟩
  have hlength : answered.length = s.reports.length + (responsesAmong after).length := by
    rw [hanswers.length_eq, hclient.written, responsesAmong_append, List.length_append,
      hclient.answered]
  have hle := hexecuted.length_le
  have hle' := hanswered.length_le
  rw [hclient.queries, List.length_map, List.length_map] at hle
  omega

/-- What arrives at a client without messages is the response that it waits for. -/
theorem tellsApart_of_responses (hbroker : BrokerSide topicNames socket s commands requests)
    (hclient : ClientSide s commands before after)
    (hreach : (broadcasting topicNames).ReachableVia (OnService ReceivesCommands) s.broker)
    (hnone : messagesAmong s.written = []) {l : ConversationStep topicNames.length}
    (hallowed : NeverSubscribes socket s l) {s' : Conversation topicNames.length}
    (hmoves : ConversationMoves socket s l s') : TellsApart socket s l := by
  have hle := responses_le hbroker hclient hreach
  have hafter : after = (responsesAmong after).map .response := by
    apply eq_responses
    rw [hclient.written, messagesAmong_append, List.append_eq_nil_iff] at hnone
    exact hnone.2
  have hlength : after.length = (responsesAmong after).length := by
    rw [hafter, List.length_map, ← hafter]
  have hwaits := hclient.waits
  cases hmoves with
  | broker => exact ⟨hallowed.1, hallowed.2.2⟩
  | ask | act => exact hallowed.2
  | @answer k option topic action hphase hpositive hwritten haction =>
      rcases hallowed with ⟨strings, htakes⟩
      rcases hclient.takes htakes with ⟨rest, hrest, hk, -⟩
      rw [WaitsForLast, hphase] at hwaits
      rcases hwaits with ⟨-, q, qs, -, hqueries, hreports⟩
      -- the query is the only one without a report
      have hone : strings.length + rest.length ≤ 1 := by
        rw [hqueries, List.length_append, hreports, List.length_singleton] at hle
        rw [← List.length_append, ← hrest, hlength]
        omega
      cases strings with
      | nil =>
          rw [wireBytes_nil, List.length_nil] at hk
          omega
      | cons w strings =>
          have hempty : strings = [] := by
            rw [List.length_cons] at hone
            exact List.length_eq_zero_iff.mp (by omega)
          have hmem : w ∈ (responsesAmong after).map Written.response := by
            rw [← hafter, hrest]
            simp
          rcases List.mem_map.mp hmem with ⟨response, -, rfl⟩
          rw [hempty] at htakes
          exact ⟨response, htakes⟩
  | @poll k messages receiveBuffer hphase hwritten hreceive =>
      rw [WaitsForLast, hphase] at hwaits
      have hempty : after = [] := List.length_eq_zero_iff.mp (by omega)
      rw [hclient.inTransit, hempty, wireBytes_nil, List.length_nil] at hwritten
      exact .inl (by omega)

end Sides

/-! ## No messages -/

theorem onlyAsks_start (socket : Socket)
    (garbage : Nat → OutgoingBufferElement topicNames.length) :
    OnlyAsks socket (Conversation.start topicNames garbage) where
  sends := ⟨[], by simp, rfl, by simp⟩
  unsubscribed := unsubscribed_start socket garbage
  written := rfl

/-- The other options than the third one send no subscriptions. -/
theorem subscribe_not_mem {s : Conversation n} {option : Byte} (hoption : option ≠ byteOf '3')
    (topic message topic' : Bytes) :
    Command.subscribe topic' ∉ s.commandsFor option topic message := by
  rw [Conversation.commandsFor]
  split
  · rw [typedCommand, if_neg hoption]
    repeat' split
    all_goals simp
  · simp

/-- The user chooses another option than the third one. -/
theorem OnlyAsks.sends_more {s : Conversation n} (hs : OnlyAsks socket s) {option : Byte}
    {topic message : Bytes} (hoption : option ≠ byteOf '3')
    (htyped : ∀ c ∈ s.commandsFor option topic message, c.WellFormed) {sent : Bytes}
    (hsent : sent = stream (s.commandsFor option topic message)) :
    ∃ commands, (∀ c ∈ commands, c.WellFormed) ∧ s.sent ++ sent = stream commands ∧
      ∀ topic, .subscribe topic ∉ commands := by
  rcases hs.sends with ⟨commands, hwellFormed, hstream, hnever⟩
  refine ⟨commands ++ s.commandsFor option topic message, ?_, ?_, ?_⟩
  · exact List.forall_mem_append.mpr ⟨hwellFormed, htyped⟩
  · rw [hstream, hsent, stream_append]
  · intro topic' hmem
    rcases List.mem_append.mp hmem with hold | hnew
    · exact hnever topic' hold
    · exact subscribe_not_mem hoption topic message topic' hnew

/-- The broker has received no subscription from the client. -/
theorem OnlyAsks.not_received {s : Conversation topicNames.length} (hs : OnlyAsks socket s)
    (hsides : Sides topicNames socket s) {done todo : List ClientRequest}
    (hservice : InService topicNames s.broker.service done todo) (topic : Bytes) :
    (socket, .subscribe topic) ∉ todo := by
  intro hmem
  rcases hsides with ⟨commands, requests, before, after, hbroker, hclient⟩
  rcases hs.sends with ⟨commands', hwellFormed, hsent, hnever⟩
  have hsame : commands = commands' :=
    stream_injective hclient.wellFormed hwellFormed (hclient.sent.symm.trans hsent)
  have hrequest : (socket, .subscribe topic) ∈ requests := by
    rw [← hservice.received.unique hbroker.brings]
    exact List.mem_append_right _ hmem
  have hcommand : .subscribe topic ∈ requestsFrom socket requests := by
    rw [requestsFrom, List.mem_filterMap]
    exact ⟨_, hrequest, by simp⟩
  apply hnever topic
  rw [← hsame]
  exact hbroker.begins.subset hcommand

/-- A step of the broker or of the client. -/
theorem OnlyAsks.step (hvalid : socket ≠ invalidSocket) {s s' : Conversation topicNames.length}
    (hs : OnlyAsks socket s) (hsides : Sides topicNames socket s)
    (hreach : (broadcasting topicNames).ReachableVia ServesCommands s.broker)
    {l : ConversationStep topicNames.length} (hallowed : NeverSubscribes socket s l)
    (hmoves : ConversationMoves socket s l s') : OnlyAsks socket s' := by
  cases hmoves with
  | @broker l accepted broker hconnects hstep =>
      have hmoves := broadcastStep_moves hstep
      have hlists : (broadcasting topicNames).ReachableVia (OnLists KeepsWalker) s.broker :=
        hreach.mono fun _ _ hallowed => hallowed.1
      have hservice : (service topicNames).ReachableVia ReceivesCommands s.broker.service :=
        service_of_broadcasting (fun _ l hallowed => hallowed.2 l rfl) hreach
      rcases inService_of_service hservice with ⟨done, todo, hinService⟩
      rcases agrees_of_broadcasting hlists with ⟨hwalk, hagrees⟩
      constructor
      case sends => exact hs.sends
      case unsubscribed =>
        exact hmoves.unsubscribed hvalid hwalk hagrees (carries_of_broadcasting hlists) hinService
          (hs.not_received hsides hinService) hs.unsubscribed
      case written =>
        have hnothing : messagesAmong (s.writes socket l) = [] := by
          rw [Conversation.writes]
          split
          · rfl
          · exact hs.unsubscribed.written l
        rw [Conversation.afterBroker, messagesAmong_append, hs.written, hnothing]
        rfl
  | @ask option topic message sent q hphase hquery hsend =>
      rcases sent_of_query hquery hallowed.2 hsend with ⟨hcommands, hstream⟩
      have hsent : sent = stream (s.commandsFor option topic message) := by rw [hcommands, hstream]
      exact ⟨hs.sends_more hallowed.1 hallowed.2 hsent, hs.unsubscribed, hs.written⟩
  | @act option topic message action hphase hquery haction =>
      have hsent := (sent_of_action hquery hallowed.2 haction).1
      exact ⟨hs.sends_more hallowed.1 hallowed.2 hsent, hs.unsubscribed, hs.written⟩
  | answer | poll => exact ⟨hs.sends, hs.unsubscribed, hs.written⟩

/-- A client that never subscribes gets nothing but responses. -/
theorem onlyAsks_of_conversing (hvalid : socket ≠ invalidSocket)
    {s : Conversation topicNames.length}
    (hreach : (conversing topicNames socket).ReachableVia (NeverSubscribes socket) s) :
    Sides topicNames socket s ∧ OnlyAsks socket s := by
  induction hreach with
  | start hinit =>
      rcases hinit with ⟨garbage, rfl⟩
      exact ⟨sides_start topicNames socket garbage, onlyAsks_start socket garbage⟩
  | @step s s' l hreach hallowed hstep ih =>
      rcases ih with ⟨hsides, hs⟩
      have hbroker : (broadcasting topicNames).ReachableVia ServesCommands s.broker :=
        broker_of_conversing (fun _ _ _ hallowed => hallowed.2) hreach
      have hreceives : (broadcasting topicNames).ReachableVia (OnService ReceivesCommands)
          s.broker := hbroker.mono fun _ _ hallowed => hallowed.2
      have hmoves := conversationStep_moves hstep
      have happart : TellsApart socket s l := by
        rcases hsides with ⟨commands, requests, before, after, hbrokerSide, hclient⟩
        exact tellsApart_of_responses hbrokerSide hclient hreceives hs.written hallowed hmoves
      exact ⟨hsides.step hvalid hreceives happart hstep,
        hs.step hvalid hsides hbroker hallowed hmoves⟩

/-! ## The broker at rest -/

/-- The broker has received everything that the client has sent. -/
theorem requests_of_received {s : Conversation topicNames.length} {commands : List Command}
    {requests : List ClientRequest} {before after : List Written}
    (hbroker : BrokerSide topicNames socket s commands requests)
    (hclient : ClientSide s commands before after)
    (hreceived : s.received = s.sent.length) : requestsFrom socket requests = commands := by
  rcases hbroker.begins with ⟨rest, hrest⟩
  rw [hbroker.received, hclient.sent, ← hrest, stream_append, List.length_append] at hreceived
  have hnothing : stream rest = stream [] := List.length_eq_zero_iff.mp (by omega)
  have hempty : rest = [] := by
    apply stream_injective ?_ (by simp) hnothing
    exact fun c hc => hclient.wellFormed c (hrest ▸ List.mem_append_right _ hc)
  rw [← hrest, hempty, List.append_nil]

/-- At rest, every query has been executed and has its response. -/
theorem answers_of_stuck {s : Conversation topicNames.length} {commands : List Command}
    {requests : List ClientRequest} {before after : List Written}
    (hbroker : BrokerSide topicNames socket s commands requests)
    (hclient : ClientSide s commands before after)
    (hreach : (broadcasting topicNames).ReachableVia ServesCommands s.broker)
    (hstuck : (broadcasting topicNames).Stuck BroadcastStep.IsOwn s.broker)
    (hbounded : ∀ topic ∈ s.broker.service.mainLoop.topics,
      topic.subscriberConnectionSockets.length ≤ subscriberListMaxSize)
    (hreceived : s.received = s.sent.length) :
    (executedFrom socket (queries requests s.broker.service.executed)).map Prod.fst =
        s.queries.map commandOf ∧
      List.Forall₂ AnswersCommand
        (executedFrom socket (queries requests s.broker.service.executed))
        (responsesAmong s.written) := by
  have hlists : (broadcasting topicNames).ReachableVia (OnLists KeepsWalker) s.broker :=
    hreach.mono fun _ _ hallowed => hallowed.1
  have hservice : (service topicNames).ReachableVia ReceivesCommands s.broker.service :=
    service_of_broadcasting (fun _ l hallowed => hallowed.2 l rfl) hreach
  rcases inService_of_service hservice with ⟨done, todo, hinService⟩
  have hserved := served_of_stuck hservice hinService (service_stuck hlists hstuck) hbounded
  rw [hinService.received.unique hbroker.brings] at hserved
  constructor
  · rw [executedFrom_queries, hserved.executed, List.take_length,
      requests_of_received hbroker hclient hreceived, hclient.queries]
  · have hanswers := answers_on socket hserved.responses
    rwa [responsesOn_responsesIn, ← hbroker.responses] at hanswers

/-! ## The client goes on -/

/-- The client can read every response to a query. -/
theorem exists_report {q : Query} {response : Bytes} (h : Client.Answers q response)
    (rest : Bytes) : ∃ report, q.read (response ++ 0 :: rest) = some report := by
  cases h.cases with
  | doesNotExist topic => exact ⟨.topicDoesNotExist topic, by simp +decide [Query.read]⟩
  | doesExist topic => exact ⟨.topicExists topic, by simp [Query.read]⟩
  | noTopic topic => exact ⟨.topicDoesNotExist topic, by simp [Query.read]⟩
  | @number topic k hk =>
      have hatoi := atoi_decimal k rest
      rcases exists_digit k with ⟨d, ds, hds, hd⟩
      rw [hds, List.cons_append] at hatoi ⊢
      exact ⟨.subscribers k topic, by simp [Query.read, hd, hatoi]⟩

/-- A client that waits for the next response in transit can receive it and report on it. -/
theorem ClientSide.exists_answer {s : Conversation n} {commands : List Command}
    {before rest : List Written} {response : Bytes}
    (hs : ClientSide s commands before (.response response :: rest))
    (hanswer : ∀ q qs, s.queries = qs ++ [q] → Client.Answers q response) {option : Byte}
    {topic : Bytes} (hphase : s.phase = .awaiting option topic) (socket : Socket) :
    ∃ s' report, conversationStep socket s (.answer (response.length + 1)) = some s' ∧
      s'.queries = s.queries ∧ s'.reports = s.reports ++ [report] := by
  have hwaits := hs.waits
  rw [WaitsForLast, hphase] at hwaits
  rcases hwaits with ⟨hconnected, q, qs, hoption, hqueries, -⟩
  have hclient := hanswer q qs hqueries
  have hc : (commandOf q).WellFormed := by
    have hmem : commandOf q ∈ commands.filter asksForResponse := by
      rw [hs.queries, hqueries]
      simp
    exact hs.wellFormed _ (List.mem_filter.mp hmem).1
  have hinTransit : s.inTransit = (response ++ [0]) ++ wireBytes rest := by
    rw [hs.inTransit, wireBytes_cons, Written.text, List.append_assoc, List.singleton_append]
  have hlength : response.length + 1 = (response ++ [0]).length := by simp
  have htaken : s.inTransit.take (response.length + 1) = response ++ [0] := by
    rw [hinTransit, hlength, List.take_left]
  have hfits : 0 < response.length + 1 ∧ response.length + 1 ≤ s.inTransit.length := by
    rw [hinTransit, List.length_append, ← hlength]
    omega
  have hsent := sendCommand_query hoption hc
  rw [Option.bind_eq_some_iff] at hsent
  rcases hsent with ⟨command, hcommand, hsend⟩
  rcases recvInto_response hs.length_eq hclient.clean.1 hclient.clean.2 hs.clean with
    ⟨tail, hreceived, -, -⟩
  rcases exists_report hclient tail with ⟨report, hread⟩
  have haction : sendAndReport s.client option topic q true (.data (response ++ [0])) =
      some ⟨true, { s.client with receiveBuffer := response ++ 0 :: tail },
        some (stream [commandOf q]), some report⟩ := by
    simp only [sendAndReport, hcommand, hsend, receiveFromBroker, hreceived, hread,
      Option.map_some, Option.bind_eq_bind, Option.bind_some, Option.pure_def]
  simp only [conversationStep, hphase]
  rw [if_pos hfits, htaken, executeRequestedAction_query hconnected hoption, haction,
    Option.map_some]
  exact ⟨_, report, rfl, rfl, rfl⟩

/-- All queries have been executed, the answers to those without a report are on their way, each as
the topics were when the query was executed, and a client that waits for one can receive it; then
no query is without a report. -/
structure AnswersArrive (socket : Socket) (s : Conversation n) (requests : List ClientRequest) :
    Prop where
  executed : (executedFrom socket (queries requests s.broker.service.executed)).map Prod.fst =
    s.queries.map commandOf
  inTransit : ∃ responses : List Bytes, s.inTransit = terminated 0 responses ∧
    List.Forall₂ AnswersCommand ((executedFrom socket
      (queries requests s.broker.service.executed)).drop s.reports.length) responses
  arrives : ∀ option topic, s.phase = .awaiting option topic →
    ∃ k s', NeverSubscribes socket s (.answer k) ∧ conversationStep socket s (.answer k) = some s' ∧
      s'.queries = s.queries ∧ s'.reports.length = s.queries.length

/-- At rest, the answers are on their way. -/
theorem answersArrive_of_stuck {s : Conversation topicNames.length} {commands : List Command}
    {requests : List ClientRequest} {before after : List Written}
    (hbroker : BrokerSide topicNames socket s commands requests)
    (hclient : ClientSide s commands before after)
    (hreach : (broadcasting topicNames).ReachableVia ServesCommands s.broker)
    (hnone : messagesAmong s.written = [])
    (hstuck : (broadcasting topicNames).Stuck BroadcastStep.IsOwn s.broker)
    (hbounded : ∀ topic ∈ s.broker.service.mainLoop.topics,
      topic.subscriberConnectionSockets.length ≤ subscriberListMaxSize)
    (hreceived : s.received = s.sent.length) : AnswersArrive socket s requests := by
  rcases answers_of_stuck hbroker hclient hreach hstuck hbounded hreceived with
    ⟨hexecuted, hanswers⟩
  have hrest := List.forall₂_drop s.reports.length hanswers
  rw [hclient.written, responsesAmong_append, ← hclient.answered, List.drop_left,
    hclient.answered] at hrest
  rw [hclient.written, messagesAmong_append, List.append_eq_nil_iff] at hnone
  have hafter := eq_responses hnone.2
  constructor
  case executed => exact hexecuted
  case inTransit =>
    refine ⟨responsesAmong after, ?_, hrest⟩
    have htexts : after.map Written.text = responsesAmong after := by
      rw [hafter, List.map_map, ← hafter]
      exact (List.map_congr_left fun _ _ => rfl).trans (List.map_id _)
    rw [hclient.inTransit, wireBytes, htexts]
  case arrives =>
    intro option topic hphase
    have hwaits := hclient.waits
    rw [WaitsForLast, hphase] at hwaits
    rcases hwaits with ⟨-, q, qs, -, hqueries, hlength⟩
    have hlast := congrArg (List.drop s.reports.length) hexecuted
    rw [← List.map_drop, ← List.map_drop, hqueries, ← hlength, List.drop_left, List.map_singleton,
      List.map_eq_singleton_iff] at hlast
    rcases hlast with ⟨c, hc, hcommand⟩
    rw [← hlength, hc, List.forall₂_cons_left_iff] at hrest
    rcases hrest with ⟨response, responses, hanswer, hnil, hresponses⟩
    rw [List.forall₂_nil_left_iff.mp hnil] at hresponses
    rw [hresponses, List.map_singleton] at hafter
    subst hafter
    rw [AnswersCommand, hcommand] at hanswer
    have hlast : ∀ q' qs', s.queries = qs' ++ [q'] → Client.Answers q' response := by
      intro q' qs' heq
      rw [hqueries] at heq
      rw [← List.singleton_inj.mp (List.append_inj_right' heq rfl)]
      exact answers_of_isAnswer hanswer
    rcases hclient.exists_answer hlast hphase socket with
      ⟨s', report, hstep, hqueries', hreports⟩
    have htakes : s.Takes (response.length + 1) [.response response] := by
      refine ⟨before, [], hclient.written, hclient.arrived, ?_⟩
      simp [wireBytes_cons, Written.text]
    refine ⟨response.length + 1, s', ⟨_, htakes⟩, hstep, hqueries', ?_⟩
    rw [hreports, hqueries, List.length_append, List.length_append, hlength]
    rfl

/-- A client that never subscribes is answered.  Every report says what was true at the broker when
the query was executed, at most one query is without a report, and it prints no messages.  When the
broker has come to rest and has received what the client has sent, a client that waits for a response
can receive it. -/
theorem queries_answered (hvalid : socket ≠ invalidSocket) {s : Conversation topicNames.length}
    (hreach : (conversing topicNames socket).ReachableVia (NeverSubscribes socket) s)
    {requests : List ClientRequest}
    (hrequests : BringRequests s.broker.service.received requests) :
    ReportsRight topicNames socket s requests ∧
      s.queries.length ≤ s.reports.length + 1 ∧ s.printed = [] ∧
      ((broadcasting topicNames).Stuck BroadcastStep.IsOwn s.broker →
        (∀ topic ∈ s.broker.service.mainLoop.topics,
          topic.subscriberConnectionSockets.length ≤ subscriberListMaxSize) →
        s.received = s.sent.length → AnswersArrive socket s requests) := by
  rcases onlyAsks_of_conversing hvalid hreach with
    ⟨⟨commands, requests', before, after, hbroker, hclient⟩, hs⟩
  have hsame : requests' = requests := hbroker.brings.unique hrequests
  subst hsame
  have hreach' : (broadcasting topicNames).ReachableVia ServesCommands s.broker :=
    broker_of_conversing (fun _ _ _ hallowed => hallowed.2) hreach
  have hreceives : (broadcasting topicNames).ReachableVia (OnService ReceivesCommands) s.broker :=
    hreach'.mono fun _ _ hallowed => hallowed.2
  have hprinted : s.printed = [] := by
    have hnone := hs.written
    rw [hclient.written, messagesAmong_append, List.append_eq_nil_iff, hclient.printed] at hnone
    exact List.map_eq_nil_iff.mp hnone.1
  exact ⟨reportsRight_of_sides hclient hbroker hreceives, hclient.queries_le, hprinted,
    answersArrive_of_stuck hbroker hclient hreach' hs.written⟩

/-- The broker serves the client that has connected and goes to rest. -/
def serveAndRest : List (BroadcastStep 1) :=
  [.call 0, .call 100] ++ serveQuery ++
    .service (.thread (.consumer none)) ::
      List.replicate 4 (.service (.thread (.topic (Fin.last 0))))

/-- The client connects and asks whether the topic exists. -/
def connectAndAsk : List (ConversationStep 1) :=
  [.choose (byteOf '1') [] [], .poll 0, .choose (byteOf '4') news [], acceptClient] ++
    serveAndRest.map fun l => .broker l false

theorem run_connectAndAsk :
    ∃ s : Conversation 1, (conversing [news] 7).runVia (OnBroker (OnLists KeepsWalker))
        (.start [news] fun _ => ⟨none, .connectionSocket 0⟩) connectAndAsk = some s ∧
      (s.phase, s.queries, s.reports, s.received, s.sent.length) =
        (.awaiting (byteOf '4') news, [.topicExists news], [], 8, 8) ∧
      (s.broker.pending, s.broker.service.position, s.broker.service.threads.producing .main) =
        ([], none, none) ∧
      (s.broker.service.threads.topic 0, s.broker.service.threads.consumer,
        s.broker.service.mainLoop.topics) = (.waiting, .waiting, [⟨news, [], []⟩]) ∧
      s.broker.service.received = [(7, stream [.topicExists news])] := by
  have hrun : ((conversing [news] 7).runVia (OnBroker (OnLists KeepsWalker))
      (.start [news] fun _ => ⟨none, .connectionSocket 0⟩) connectAndAsk).map
        (fun s => (s.phase, s.queries, s.reports, s.received, s.sent.length)) =
      some (.awaiting (byteOf '4') news, [.topicExists news], [], 8, 8) := by
    decide +kernel
  rcases Option.map_eq_some_iff.mp hrun with ⟨s, hs, hclient⟩
  have hrun' : ((conversing [news] 7).runVia (OnBroker (OnLists KeepsWalker))
      (.start [news] fun _ => ⟨none, .connectionSocket 0⟩) connectAndAsk).map
        (fun s => (s.broker.pending, s.broker.service.position,
          s.broker.service.threads.producing .main)) = some ([], none, none) := by
    decide +kernel
  have hrun'' : ((conversing [news] 7).runVia (OnBroker (OnLists KeepsWalker))
      (.start [news] fun _ => ⟨none, .connectionSocket 0⟩) connectAndAsk).map
        (fun s => ((s.broker.service.threads.topic 0, s.broker.service.threads.consumer,
          s.broker.service.mainLoop.topics), s.broker.service.received)) =
      some ((.waiting, .waiting, [⟨news, [], []⟩]), [(7, stream [.topicExists news])]) := by
    decide +kernel
  rw [hs, Option.map_some, Option.some.injEq] at hrun' hrun''
  rw [Prod.mk.injEq] at hrun''
  exact ⟨s, hs, hclient, hrun', hrun''⟩

theorem tellsApart_serveAndRest {l : BroadcastStep 1} (hl : l ∈ serveAndRest)
    (s : Conversation 1) : TellsApart 7 s (.broker l false) := by
  simp only [serveAndRest, List.mem_append, List.mem_cons, List.mem_replicate,
    List.not_mem_nil, or_false] at hl
  rcases hl with ((rfl | rfl) | hserve) | rfl | ⟨-, rfl⟩
  case inl.inr => exact tellsApart_serveQuery hserve s
  all_goals
    apply tellsApart_of_broker (by simp)
    intro l' heq
    cases heq
  all_goals trivial

theorem neverSubscribes_connectAndAsk :
    ∀ l ∈ connectAndAsk, ∀ s, OnBroker (OnLists KeepsWalker) s l → NeverSubscribes 7 s l := by
  intro l hl s hkeep
  simp only [connectAndAsk, List.mem_append, List.mem_cons, List.mem_map, List.not_mem_nil,
    or_false] at hl
  rcases hl with (rfl | rfl | rfl | rfl) | ⟨l, hbroker, rfl⟩
  · exact ⟨by decide, wellFormed_commandsFor (by decide) s⟩
  · trivial
  · exact ⟨by decide, wellFormed_commandsFor (by decide) s⟩
  · have happart := tellsApart_acceptClient s
    exact ⟨happart.1, hkeep _ _ rfl, happart.2⟩
  · have happart := tellsApart_serveAndRest hbroker s
    exact ⟨happart.1, hkeep _ _ rfl, happart.2⟩

theorem queries_answered_connectAndAsk :
    ∃ s : Conversation 1, (s.phase, s.queries, s.reports, s.received, s.sent.length) =
        (.awaiting (byteOf '4') news, [.topicExists news], [], 8, 8) ∧
      s.queries.length ≤ s.reports.length + 1 ∧ s.printed = [] ∧
      AnswersArrive 7 s [(7, .topicExists news)] := by
  rcases run_connectAndAsk with ⟨s, hs, hclient, hmain, hthreads, hbrought⟩
  have hfirst : (conversing [news] 7).ReachableVia (NeverSubscribes 7)
      (.start [news] fun _ => ⟨none, .connectionSocket 0⟩) := System.ReachableVia.start ⟨_, rfl⟩
  have hreach := hfirst.run_checked neverSubscribes_connectAndAsk hs
  have hrequests : BringRequests s.broker.service.received [(7, .topicExists news)] := by
    rw [hbrought]
    exact ⟨[(7, [.topicExists news])], rfl, by decide, rfl⟩
  rcases queries_answered (by decide) hreach hrequests with ⟨-, hle, hprinted, hrest⟩
  have hclient' := hclient
  simp only [Prod.mk.injEq] at hclient' hmain hthreads
  have htopic : ∀ i : Fin 1, s.broker.service.threads.topic i = .waiting :=
    Fin.forall_fin_one.mpr hthreads.1
  have hstuck : (broadcasting [news]).Stuck BroadcastStep.IsOwn s.broker :=
    broadcasting_stuck_of_rest hmain.1 hmain.2.1 hmain.2.2 htopic hthreads.2.1
  have hbounded : ∀ topic ∈ s.broker.service.mainLoop.topics,
      topic.subscriberConnectionSockets.length ≤ subscriberListMaxSize := by
    rw [hthreads.2.2]
    simp [subscriberListMaxSize]
  have hreceived : s.received = s.sent.length := by
    rw [hclient'.2.2.2.1, hclient'.2.2.2.2]
  exact ⟨s, hclient, hle, hprinted, hrest hstuck hbounded hreceived⟩

end Conversing
end PubSub
