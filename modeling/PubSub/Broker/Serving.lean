import PubSub.Broker.Draining
import PubSub.Broker.Service
import PubSub.Broker.SubscriberBound

/-!
# From the clients' commands to what is sent

Clients send whole commands; the main thread executes them one after the other while the
topic threads and the consumer hand on what earlier ones have brought.  Whoever moves when,
every message that is published goes to the subscribers of its topic exactly once and in
order, and every query is answered exactly once, in order, on the connection it came from.

Main results:

- Structure {lit}`InService`: what has become of the commands received so far.
- Theorem {lit}`serviceStep_work_lt`: the broker left alone runs out of moves.
- Theorem {lit}`requests_served`: in every state what has been taken for sending are the first
  messages and answers due, and when the broker, left alone, comes to rest, all of them have
  been sent.
-/

namespace PubSub
namespace Broker

open Foundations Client Threads

variable {n : Nat}

/-! ## What the commands of the clients ask for -/

/-- A command of a client, with the socket that it came from. -/
abbrev ClientRequest :=
  Socket × Command

/-- Does the broker answer the command? -/
def asksForResponse : Command → Bool
  | .topicExists _ | .subscriberNumber _ => true
  | .publish _ _ | .subscribe _ | .unsubscribe _ => false

/-- What a command publishes to topic {lit}`t`. -/
def publishedTo (topicNames : List Bytes) (t : Nat) : Command → Option Bytes
  | .publish topic message => if topicNames.idxOf topic = t then some (hashtag :: message) else none
  | .subscribe _ | .topicExists _ | .subscriberNumber _ | .unsubscribe _ => none

/-- The number of nodes in the subscriber list of the topic with this name, if there is one. -/
def subscribersOf (topics : List Topic) (topicName : Bytes) : Option Nat :=
  (topics.find? fun topic => topic.name = topicName).map fun topic =>
    topic.subscriberConnectionSockets.length

/-- This is the answer to a query that is executed when the topics are these: whether the topic
exists, and how many nodes its subscriber list has. -/
def IsAnswer (topics : List Topic) (response : Bytes) : Command → Prop
  | .topicExists topic =>
      response = if (subscribersOf topics topic).isSome then [byteOf '1'] else [byteOf '0']
  | .subscriberNumber topic =>
      match subscribersOf topics topic with
      | some k => k ≤ subscriberListMaxSize ∧ response = decimal k
      | none => response = [hashtag]
  | .publish _ _ | .subscribe _ | .unsubscribe _ => False

/-- A command of a client that has been executed, with the topics as they were then. -/
abbrev ExecutedRequest :=
  ClientRequest × List Topic

/-- The element answers the request, on the socket that it came from. -/
def Answers (request : ExecutedRequest) (e : OutgoingBufferElement n) : Prop :=
  ∃ response, e = ⟨some response, .connectionSocket request.1.1⟩ ∧
    IsAnswer request.2 response request.1.2

/-- What the requests publish to topic {lit}`t`. -/
def messagesTo (topicNames : List Bytes) (t : Nat) (requests : List ClientRequest) : List Bytes :=
  requests.filterMap fun request => publishedTo topicNames t request.2

/-- The first requests have been executed, each when the topics were as {lit}`executed` says; the
queries among them. -/
def queries (requests : List ClientRequest) (executed : List (List Topic)) : List ExecutedRequest :=
  (requests.zip executed).filter fun request => asksForResponse request.1.2

/-- The receives bring these requests, each receive whole commands. -/
def BringRequests (received : List (Socket × Bytes)) (requests : List ClientRequest) : Prop :=
  ∃ rounds : List (Socket × List Command),
    received = rounds.map (fun round => (round.1, stream round.2)) ∧
      (∀ round ∈ rounds, ∀ c ∈ round.2, c.WellFormed) ∧
      requests = rounds.flatMap fun round => round.2.map (Prod.mk round.1)

/-- Clients send whole commands, no more at once than the receive buffer holds. -/
def ReceivesCommands (_ : Service n) : ServiceStep n → Prop
  | .receive (.data bytes) => ∃ cs : List Command, (∀ c ∈ cs, c.WellFormed) ∧ bytes = stream cs ∧
      bytes.length < brokerReceiveBufferSize
  | _ => True

theorem messagesTo_append (topicNames : List Bytes) (t : Nat)
    (requests requests' : List ClientRequest) :
    messagesTo topicNames t (requests ++ requests') =
      messagesTo topicNames t requests ++ messagesTo topicNames t requests' := by
  simp [messagesTo]

theorem messagesTo_singleton (topicNames : List Bytes) (t : Nat) (request : ClientRequest) :
    messagesTo topicNames t [request] = (publishedTo topicNames t request.2).toList := by
  cases h : publishedTo topicNames t request.2 <;> simp [messagesTo, h]

theorem queries_append {requests : List ClientRequest} {executed : List (List Topic)}
    (hlength : executed.length = requests.length) (requests' : List ClientRequest)
    (executed' : List (List Topic)) :
    queries (requests ++ requests') (executed ++ executed') =
      queries requests executed ++ queries requests' executed' := by
  rw [queries, List.zip_append hlength.symm, List.filter_append]
  rfl

/-- What is left is not among them. -/
theorem queries_done {done : List ClientRequest} {executed : List (List Topic)}
    (hlength : executed.length = done.length) (todo : List ClientRequest) :
    queries (done ++ todo) executed = queries done executed := by
  have happend := queries_append hlength todo []
  rw [List.append_nil] at happend
  simpa [queries] using happend

/-! ## The requests that are received -/

theorem decodedOf_injective : Function.Injective decodedOf := by
  intro c d h
  cases c <;> cases d <;>
    simp_all [decodedOf, Command.type, Command.topic, Command.message, byteOf]

/-- The bytes of whole commands are those of no others. -/
theorem stream_injective {cs ds : List Command} (hcs : ∀ c ∈ cs, c.WellFormed)
    (hds : ∀ d ∈ ds, d.WellFormed) (h : stream cs = stream ds) : cs = ds := by
  have hfree : ∀ {es : List Command}, (∀ e ∈ es, e.WellFormed) →
      ∀ f ∈ es.map Command.text, NulFree f := by
    intro es hes f hf
    rcases List.mem_map.mp hf with ⟨e, he, rfl⟩
    exact (hes e he).text_nulFree
  rcases frameStarts_frames (hfree hcs) nul_ne_hashtag 0 [] with ⟨starts, hstarts, hframes⟩
  rcases frameStarts_frames (hfree hds) nul_ne_hashtag 0 [] with ⟨starts', hstarts', hframes'⟩
  -- the loop over the same bytes finds the same frames
  have hsame : starts = starts' := by
    have hbytes : framesOf hashtag (cs.map Command.text) =
        framesOf hashtag (ds.map Command.text) := h
    rw [hbytes, hstarts', Option.some.injEq, Prod.mk.injEq] at hstarts
    exact hstarts.1.symm
  have hdecoded := decodeCommand_starts hcs hframes
  rw [hsame, decodeCommand_starts hds hframes'] at hdecoded
  have hinjective : Function.Injective fun c : Command => some (decodedOf c) :=
    (Option.some_injective _).comp decodedOf_injective
  exact (List.map_injective_iff.mpr hinjective hdecoded).symm

/-- So the requests are determined by what has been received. -/
theorem BringRequests.unique {received : List (Socket × Bytes)}
    {requests requests' : List ClientRequest}
    (h : BringRequests received requests) (h' : BringRequests received requests') :
    requests = requests' := by
  rcases h with ⟨rounds, rfl, hrounds, rfl⟩
  rcases h' with ⟨rounds', hsame, hrounds', rfl⟩
  have heq : rounds = rounds' := by
    induction rounds generalizing rounds' with
    | nil => exact (List.map_eq_nil_iff.mp hsame.symm).symm
    | cons round rounds ih =>
        cases rounds' with
        | nil => contradiction
        | cons round' rounds' =>
            simp only [List.map_cons, List.cons.injEq, Prod.mk.injEq] at hsame
            rcases hsame with ⟨⟨hsocket, hstream⟩, hrest⟩
            have hcommands := stream_injective (hrounds round (by simp))
              (hrounds' round' (by simp)) hstream
            rw [Prod.ext hsocket hcommands, ih (fun r hr => hrounds r (by simp [hr])) rounds' hrest
              fun r hr => hrounds' r (by simp [hr])]
  rw [heq]

theorem BringRequests.receive {received : List (Socket × Bytes)} {requests : List ClientRequest}
    (h : BringRequests received requests) (socket : Socket) {cs : List Command}
    (hcs : ∀ c ∈ cs, c.WellFormed) :
    BringRequests (received ++ [(socket, stream cs)]) (requests ++ cs.map (Prod.mk socket)) := by
  rcases h with ⟨rounds, rfl, hrounds, rfl⟩
  refine ⟨rounds ++ [(socket, cs)], by simp, fun round hround => ?_, by simp⟩
  rcases List.mem_append.mp hround with hold | hnew
  · exact hrounds round hold
  · rw [List.mem_singleton] at hnew
    rw [hnew]
    exact hcs

/-! ## One command -/

/-- The topic is the one at the first index of its name. -/
theorem getTopicByName_eq_some_iff {topics : List Topic} {topicNames : List Bytes}
    (hnames : topics.map Topic.name = topicNames) {topicName : Bytes} {i : Fin topics.length} :
    getTopicByName topics topicName = some i ↔ topicNames.idxOf topicName = i.val := by
  have hi : i.val < topicNames.length := by
    rw [← hnames, List.length_map]
    exact i.isLt
  rw [getTopicByName, List.findFinIdx?_eq_some_iff, List.idxOf, List.findIdx_eq hi]
  subst hnames
  simp only [List.getElem_map, beq_iff_eq, decide_eq_true_eq, beq_eq_false_iff_ne, Fin.getElem_fin]
  refine and_congr_right fun _ => ⟨fun h j hj => ?_, fun h j hj => h j.val hj⟩
  exact h ⟨j, by omega⟩ hj

theorem getTopicByName_isSome_iff_mem {topics : List Topic} {topicNames : List Bytes}
    (hnames : topics.map Topic.name = topicNames) (topicName : Bytes) :
    (getTopicByName topics topicName).isSome = true ↔ topicName ∈ topicNames := by
  rw [getTopicByName, List.isSome_findFinIdx?, ← hnames]
  simp

/-- The topic of a name has as many subscribers as its list has nodes. -/
theorem subscribersOf_eq (topics : List Topic) (topicName : Bytes) :
    subscribersOf topics topicName = (getTopicByName topics topicName).map fun i =>
      (topics.get i).subscriberConnectionSockets.length := by
  rw [subscribersOf, getTopicByName, List.find?_eq_map_findFinIdx?_getElem, Option.map_map]
  rfl

/-- What a command makes {lit}`enqueue` publish is what it publishes. -/
theorem publishedTo_eq {topics : List Topic} {topicNames : List Bytes}
    (hnames : topics.map Topic.name = topicNames) {c : Command} (hc : c.WellFormed) (rest : Bytes)
    {t : Nat} (ht : t < topicNames.length) :
    publishedTo topicNames t c = (publishedBy topics (c.text ++ 0 :: rest)).bind fun published =>
      if published.1 = t then some published.2 else none := by
  cases c with
  | publish topic message =>
      have htype : ((Command.publish topic message).text ++ 0 :: rest)[0]? = some (byteOf '2') :=
        rfl
      rw [publishedBy, if_pos htype, extractForPublish_eq hc]
      simp only [publishedTo, Option.bind_eq_bind, Option.bind_some, Option.pure_def]
      cases hget : getTopicByName topics topic with
      | none =>
          have hnot : topic ∉ topicNames := by
            rw [← getTopicByName_isSome_iff_mem hnames, hget]
            simp
          rw [List.idxOf_eq_length hnot, if_neg (by omega)]
          rfl
      | some i =>
          rw [(getTopicByName_eq_some_iff hnames).mp hget]
          rfl
  | subscribe topic | topicExists topic | subscriberNumber topic | unsubscribe topic =>
      simp [publishedBy, publishedTo, Command.text, Command.type, byteOf]

/-- A query is answered, and no other command is. -/
theorem response_of_command {topics : List Topic} {c : Command} (hc : c.WellFormed) {rest : Bytes}
    {connectionSocketPtr : SocketPtr} {execution : Execution}
    (h : executeCommand topics (c.text ++ 0 :: rest) connectionSocketPtr = some execution) :
    asksForResponse c = false ∧ execution.response = none ∨
      asksForResponse c = true ∧ ∃ response, execution.response = some response ∧
        IsAnswer topics response c := by
  rw [executeCommand_eq _ _ hc, Option.map_eq_some_iff] at h
  rcases h with ⟨⟨topics', response, success⟩, hperform, rfl⟩
  cases c with
  | publish topic message | subscribe topic | unsubscribe topic =>
      simp only [perform, Option.some.injEq, Prod.mk.injEq] at hperform
      exact .inl ⟨rfl, hperform.2.1.symm⟩
  | topicExists topic =>
      simp only [perform, Option.some.injEq, Prod.mk.injEq] at hperform
      refine .inr ⟨rfl, _, hperform.2.1.symm, ?_⟩
      rw [IsAnswer, topicExists, subscribersOf_eq]
      cases getTopicByName topics topic <;> rfl
  | subscriberNumber topic =>
      simp only [perform, Option.map_eq_some_iff, Prod.mk.injEq] at hperform
      rcases hperform with ⟨number, hnumber, -, rfl, -⟩
      refine .inr ⟨rfl, number, rfl, ?_⟩
      rw [subscriberNumber] at hnumber
      rw [IsAnswer, subscribersOf_eq]
      cases hget : getTopicByName topics topic with
      | none =>
          rw [hget] at hnumber
          exact (Option.some.inj hnumber).symm
      | some i =>
          rw [hget] at hnumber
          simp only [itoaS] at hnumber
          split at hnumber
          · next hfits =>
            refine ⟨?_, (Option.some.inj hnumber).symm⟩
            have hdigits := (length_decimal_le_iff (by decide : 0 < 5)).mp
              (Nat.le_of_succ_le_succ hfits)
            exact Nat.le_of_lt_succ hdigits
          · contradiction

/-- Every command is executed, unless a numeral does not fit its response. -/
theorem exists_execution {topics : List Topic}
    (hbounded : ∀ topic ∈ topics,
      topic.subscriberConnectionSockets.length ≤ subscriberListMaxSize)
    {c : Command} (hc : c.WellFormed) (rest : Bytes) (connectionSocketPtr : SocketPtr) :
    ∃ execution, executeCommand topics (c.text ++ 0 :: rest) connectionSocketPtr =
      some execution := by
  have hperform : ∃ result, perform topics connectionSocketPtr c = some result := by
    cases c with
    | publish | subscribe | topicExists | unsubscribe => exact ⟨_, rfl⟩
    | subscriberNumber topic =>
        cases hget : getTopicByName topics topic with
        | none => exact ⟨_, by rw [perform, subscriberNumber, hget]; rfl⟩
        | some i =>
            rw [perform, (subscribersBounded_of_length_le hbounded).number topic i hget]
            exact ⟨_, rfl⟩
  rcases hperform with ⟨result, hperform⟩
  rw [executeCommand_eq _ _ hc, hperform]
  exact ⟨_, rfl⟩

/-! ## The invariant -/

/-- Where the main thread stands in the receive buffer, commands of its client are left, and
nothing behind them; between two rounds no command is left and the buffer is cleared. -/
inductive InBuffer (s : Service n) : List ClientRequest → Prop
  | between (hposition : s.position = none)
      (hcleared : s.mainLoop.receiveBuffer = zeros brokerReceiveBufferSize) : InBuffer s []
  | inRound {i m : Nat} {connectionSocketPtr : SocketPtr} {rest : List SocketPtr}
      {socket : Socket} {executed : Bytes} {cs : List Command} (hposition : s.position = some i)
      (hwalker : s.mainLoop.walker = connectionSocketPtr :: rest)
      (hsocket : s.mainLoop.socket connectionSocketPtr = some socket)
      (hexecuted : executed.length = i) (hcs : ∀ c ∈ cs, c.WellFormed)
      (hbuffer : s.mainLoop.receiveBuffer = executed ++ (stream cs ++ zeros (m + 1)))
      (hsize : s.mainLoop.receiveBuffer.length = brokerReceiveBufferSize) :
      InBuffer s (cs.map (Prod.mk socket))

/-- The commands received are those that have been executed, and those that are left in the
receive buffer.  What has been executed has published its messages and called
{lit}`produce_new_message` for its answers. -/
structure InService (topicNames : List Bytes) (s : Service topicNames.length)
    (done todo : List ClientRequest) : Prop where
  received : BringRequests s.received (done ++ todo)
  executed : s.executed.length = done.length
  recorded : ∀ topics ∈ s.executed, topics.map Topic.name = topicNames
  published : ∀ t, s.threads.log.published t = messagesTo topicNames t done
  responses : List.Forall₂ Answers (queries done s.executed) s.responses
  topics : (topicOperations topicNames).Reachable s.mainLoop.topics
  buffer : InBuffer s todo

variable {topicNames : List Bytes} {s s' : Service topicNames.length}
  {done todo : List ClientRequest}

/-- The main loop has done nothing to a command. -/
theorem InService.of_mainLoop (hs : InService topicNames s done todo)
    (hthreads : s'.threads = s.threads) (hreceived : s'.received = s.received)
    (hexecuted : s'.executed = s.executed) (hresponses : s'.responses = s.responses)
    (htopics : (topicOperations topicNames).Reachable s'.mainLoop.topics)
    (hbuffer : InBuffer s' todo) : InService topicNames s' done todo where
  received := hreceived ▸ hs.received
  executed := hexecuted ▸ hs.executed
  recorded := hexecuted ▸ hs.recorded
  published := hthreads ▸ hs.published
  responses := hexecuted ▸ hresponses ▸ hs.responses
  topics := htopics
  buffer := hbuffer

/-- What the threads log when the main thread hands a command over. -/
theorem published_of_execute {threads threads' threads'' : Threads n} {node : Addr}
    {published : Option (Nat × Bytes)}
    (henqueue : threads.enqueuePublished node published = some threads') {socket : Socket}
    {response : Option Bytes}
    (hrespond : threads'.produceResponse socket response = some threads'') (t : Fin n) :
    threads''.log.published t = threads.log.published t ++
      (published.bind fun published =>
        if published.1 = t then some published.2 else none).toList := by
  have hlog : threads''.log = threads'.log := by
    rcases produceResponse_cases hrespond with ⟨-, rfl⟩ | ⟨bytes, -, hstep⟩
    · rfl
    · rw [threadStep] at hstep
      split at hstep
      · rw [← Option.some.inj hstep]
        rfl
      · contradiction
  rw [hlog]
  rcases enqueuePublished_cases henqueue with ⟨rfl, rfl⟩ | ⟨t', message, rfl, hstep⟩
  · simp
  · rcases enqueue_cases hstep with ⟨-, -, -, nodes, q, -, rfl⟩
    by_cases ht : t = t'
    · subst ht
      simp [wakeQueueCv, setTopic]
    · have hne : t'.val ≠ t.val := fun h => ht (Fin.ext h.symm)
      simp [wakeQueueCv, setTopic, Function.update_of_ne ht, hne]

theorem stream_cons (c : Command) (cs : List Command) :
    stream (c :: cs) = hashtag :: (c.text ++ 0 :: stream cs) := by
  simp [stream]

/-- What the main thread sees of the next command in the receive buffer. -/
theorem nextCommand {receiveBuffer executed rest : Bytes} {i : Nat} {c : Command}
    {cs : List Command} (hc : c.WellFormed) (hexecuted : executed.length = i)
    (hbuffer : receiveBuffer = executed ++ (stream (c :: cs) ++ rest)) :
    receiveBuffer[i]? = some hashtag ∧
      receiveBuffer.drop (i + 1) = c.text ++ 0 :: (stream cs ++ rest) ∧
      scanUntil 0 (receiveBuffer.drop i) = some (c.text.length + 1) := by
  have hdrop : receiveBuffer.drop i = hashtag :: (c.text ++ 0 :: (stream cs ++ rest)) := by
    rw [hbuffer, ← hexecuted, List.drop_left, stream_cons]
    simp
  have htext : NulFree (hashtag :: c.text) := by simp [hc.text_nulFree]
  refine ⟨?_, ?_, ?_⟩
  · have hhead : (receiveBuffer.drop i)[0]? = receiveBuffer[i + 0]? := List.getElem?_drop
    rw [hdrop, Nat.add_zero] at hhead
    exact hhead.symm
  · rw [← List.drop_drop, hdrop]
    rfl
  · rw [hdrop]
    exact strlen_append htext (stream cs ++ rest)

/-- One more request, and its answer if it has one. -/
theorem InService.responses_append (hs : InService topicNames s done todo) {socket : Socket}
    {c : Command} {topics : List Topic} {response : Option Bytes}
    (hresponse : asksForResponse c = false ∧ response = none ∨
      asksForResponse c = true ∧ ∃ bytes, response = some bytes ∧ IsAnswer topics bytes c) :
    List.Forall₂ Answers (queries (done ++ [(socket, c)]) (s.executed ++ [topics]))
      (s.responses ++ response.toList.map fun response =>
        (⟨some response, .connectionSocket socket⟩ :
          OutgoingBufferElement topicNames.length)) := by
  rw [queries_append hs.executed]
  refine List.rel_append hs.responses ?_
  rcases hresponse with ⟨hasks, rfl⟩ | ⟨hasks, bytes, rfl, hanswer⟩
  · simp [queries, hasks]
  · simpa [queries, hasks, Answers] using hanswer

/-- Where the main thread sees a number sign, the first command that is left begins. -/
theorem InService.nextRequest (hs : InService topicNames s done todo) {i : Nat}
    {connectionSocketPtr : SocketPtr} {walker : List SocketPtr} {socket : Socket}
    (hposition : s.position = some i) (hwalker : s.mainLoop.walker = connectionSocketPtr :: walker)
    (hsocket : s.mainLoop.socket connectionSocketPtr = some socket)
    (hmark : s.mainLoop.receiveBuffer[i]? = some hashtag) :
    ∃ c cs rest m executed, todo = (socket, c) :: cs.map (Prod.mk socket) ∧
      (∀ d ∈ c :: cs, d.WellFormed) ∧
      s.mainLoop.receiveBuffer.drop (i + 1) = c.text ++ 0 :: rest ∧
      scanUntil 0 (s.mainLoop.receiveBuffer.drop i) = some (c.text.length + 1) ∧
      s.mainLoop.receiveBuffer = executed ++ (stream cs ++ zeros (m + 1)) ∧
      executed.length = i + (c.text.length + 1) + 1 ∧
      s.mainLoop.receiveBuffer.length = brokerReceiveBufferSize := by
  cases hs.buffer with
  | between hnone =>
      rw [hnone] at hposition
      contradiction
  | @inRound i' m p' walker' socket' executed cs hposition' hwalker' hsocket' hexecuted hcs hbuffer
      hsize =>
  have hi : i' = i := Option.some.inj (hposition'.symm.trans hposition)
  have hp : p' = connectionSocketPtr ∧ walker' = walker := by
    simpa using hwalker'.symm.trans hwalker
  rcases hp with ⟨rfl, rfl⟩
  have hsockets : socket' = socket := Option.some.inj (hsocket'.symm.trans hsocket)
  subst hi hsockets
  cases cs with
  | nil =>
      -- behind the last command there is no mark
      rw [hbuffer, ← hexecuted, List.getElem?_append_right (Nat.le_refl _), Nat.sub_self] at hmark
      simp [stream, zeros_succ] at hmark
  | cons c cs =>
      rcases nextCommand (hcs c (by simp)) hexecuted hbuffer with ⟨-, hcommand, hscan⟩
      refine ⟨c, cs, _, m, executed ++ hashtag :: (c.text ++ [0]), rfl, hcs, hcommand, hscan, ?_,
        ?_, hsize⟩
      · simp [hbuffer, stream_cons]
      · simp [hexecuted]
        omega

/-- The main thread executes the next command. -/
theorem InService.execute (hs : InService topicNames s done todo) (hglued : Glued topicNames s)
    {node : Addr} (hmoves : ServiceMoves s (.execute node) s') :
    ∃ request rest, todo = request :: rest ∧
      InService topicNames s' (done ++ [request]) rest := by
  cases hmoves with
  | @execute p walker socket i length node execution threads threads' hposition hidle hwalker
      hsocket hmark hexecution henqueue hrespond hscan =>
  rcases hs.nextRequest hposition hwalker hsocket hmark with
    ⟨c, cs, rest, m, executed, rfl, hcs, hcommand, hscan', hbuffer, hexecuted, hsize⟩
  have hc : c.WellFormed := hcs c (by simp)
  have hlength : length = c.text.length + 1 := Option.some.inj (hscan.symm.trans hscan')
  rw [hcommand] at hexecution henqueue
  refine ⟨(socket, c), cs.map (Prod.mk socket), rfl, ?_⟩
  constructor
  case received => simpa using hs.received
  case executed => simp [hs.executed]
  case recorded =>
    refine List.forall_mem_append.mpr ⟨hs.recorded, fun topics htopics => ?_⟩
    rw [List.mem_singleton.mp htopics]
    exact hglued.names
  case published =>
    intro t
    rw [published_of_execute henqueue hrespond, hs.published, messagesTo_append,
      messagesTo_singleton, publishedTo_eq hglued.names hc _ t.isLt]
  case responses =>
    exact hs.responses_append (response_of_command hc hexecution)
  case topics => exact topicsReachable_executeCommand hs.topics hexecution
  case buffer =>
    rw [← hlength] at hexecuted
    exact .inRound rfl hwalker hsocket hexecuted (fun d hd => hcs d (by simp [hd])) hbuffer hsize

/-- The main thread comes to the end of the commands. -/
theorem InService.finish (hs : InService topicNames s done todo)
    (hmoves : ServiceMoves s .finish s') :
    todo = [] ∧ InService topicNames s' done [] := by
  cases hmoves with
  | @finish p walker i b receiveBuffer hposition hidle hwalker hbyte hmark hcleared =>
  cases hs.buffer with
  | between hnone =>
      rw [hnone] at hposition
      contradiction
  | @inRound i' m p' walker' socket executed cs hposition' hwalker' hsocket hexecuted hcs hbuffer
      hsize =>
  have hi : i' = i := Option.some.inj (hposition'.symm.trans hposition)
  subst hi
  cases cs with
  | cons c cs =>
      rw [hbuffer, ← hexecuted, List.getElem?_append_right (Nat.le_refl _), Nat.sub_self,
        stream_cons] at hbyte
      exact absurd (Option.some.inj hbyte).symm hmark
  | nil =>
      rw [zeroFill_all hsize, Option.some.injEq] at hcleared
      exact ⟨rfl, hs.of_mainLoop rfl rfl rfl rfl hs.topics (.between rfl hcleared.symm)⟩

/-- Commands of a client arrive. -/
theorem InService.receive (hs : InService topicNames s done todo) {incoming : Incoming}
    (hallowed : ReceivesCommands s (.receive incoming))
    (hmoves : ServiceMoves s (.receive incoming) s') :
    todo = [] ∧ ∃ requests, InService topicNames s' done requests := by
  have hbetween : s.position = none → todo = [] ∧
      s.mainLoop.receiveBuffer = zeros brokerReceiveBufferSize := by
    intro hposition
    cases hs.buffer with
    | between hnone hcleared => exact ⟨rfl, hcleared⟩
    | inRound hsome =>
        rw [hsome] at hposition
        contradiction
  cases hmoves with
  | @receive p rest socket bytes receiveBuffer hposition hwalker hsocket hreceived =>
      rcases hallowed with ⟨cs, hcs, rfl, hlt⟩
      rcases hbetween hposition with ⟨rfl, hcleared⟩
      refine ⟨rfl, cs.map (Prod.mk socket), ?_⟩
      rw [hcleared, recvInto_zeros (Nat.le_of_lt hlt) (Nat.le_refl _), Option.some.injEq]
        at hreceived
      rcases Nat.exists_eq_add_of_lt hlt with ⟨m, hm⟩
      have hroom : brokerReceiveBufferSize - (stream cs).length = m + 1 := by omega
      rw [hroom] at hreceived
      have hsize : receiveBuffer.length = brokerReceiveBufferSize := by
        rw [← hreceived, List.length_append, length_zeros]
        omega
      constructor
      case received =>
        have hold := hs.received.receive socket hcs
        rwa [List.append_nil] at hold
      case executed => exact hs.executed
      case recorded => exact hs.recorded
      case published => exact hs.published
      case responses => exact hs.responses
      case topics => exact hs.topics
      case buffer => exact .inRound rfl hwalker hsocket List.length_nil hcs hreceived.symm hsize
  | @poll incoming mainLoop hposition hnothing hserve =>
      rcases hbetween hposition with ⟨rfl, hcleared⟩
      rcases serveRound_nothing hnothing hserve with ⟨hsame, htopics⟩
      have hbuffer : InBuffer { s with mainLoop := mainLoop } [] :=
        .between hposition (hsame.trans hcleared)
      refine ⟨rfl, [], hs.of_mainLoop rfl rfl rfl rfl ?_ hbuffer⟩
      rcases htopics with htopics | ⟨p, htopics⟩
      · exact (congrArg _ htopics).mpr hs.topics
      · exact topicsReachable_apply hs.topics (.disconnect p) htopics

/-- A thread moves. -/
theorem InService.thread (hs : InService topicNames s done todo) (hdelivery : DeliveryInv s.threads)
    {a : Action topicNames.length} (hmoves : ServiceMoves s (.thread a) s') :
    InService topicNames s' done todo := by
  cases hmoves with
  | @thread a threads hmoves hstep =>
      rcases movesThread_logs hdelivery hmoves hstep with ⟨hpublished, -⟩
      refine ⟨hs.received, hs.executed, hs.recorded, fun t => ?_, hs.responses, hs.topics, ?_⟩
      · exact (congrFun hpublished t).trans (hs.published t)
      · cases hs.buffer with
        | between hposition hcleared => exact .between hposition hcleared
        | inRound hposition hwalker hsocket hexecuted hcs hbuffer hsize =>
            exact .inRound hposition hwalker hsocket hexecuted hcs hbuffer hsize

/-- A call of {lit}`accept_connection`. -/
theorem InService.accept (hs : InService topicNames s done todo) {accepted : Accepted}
    (hmoves : ServiceMoves s (.accept accepted) s') : InService topicNames s' done todo := by
  cases hmoves with
  | @accept accepted mainLoop hposition haccept =>
      rcases mainLoopStep_accept_eq_some_iff.mp haccept with ⟨-, t, ht, rfl⟩
      rcases acceptConnection_cases ht with ⟨htopics, hsame, -⟩
      refine hs.of_mainLoop rfl rfl rfl rfl ((congrArg _ htopics).mpr hs.topics) ?_
      cases hs.buffer with
      | between hnone hcleared => exact .between hposition (hsame.trans hcleared)
      | inRound hsome =>
          rw [hsome] at hposition
          contradiction

theorem inService_start (garbage : Nat → OutgoingBufferElement topicNames.length) :
    InService topicNames (Service.start topicNames garbage) [] [] where
  received := ⟨[], rfl, by simp, rfl⟩
  executed := rfl
  recorded := fun topics htopics => by contradiction
  published := fun t => rfl
  responses := .nil
  topics := System.Reachable.start rfl
  buffer := .between rfl rfl

/-- Whatever has been received, executed and sent: the commands received are accounted for. -/
theorem inService_of_service
    (hreach : (service topicNames).ReachableVia ReceivesCommands s) :
    ∃ done todo, InService topicNames s done todo := by
  have hboth : (service topicNames).Reachable s ∧
      ∃ done todo, InService topicNames s done todo := by
    refine hreach.invariant (fun s => (service topicNames).Reachable s ∧
      ∃ done todo, InService topicNames s done todo) ?_ ?_
    · rintro s ⟨garbage, rfl⟩
      exact ⟨System.Reachable.start ⟨garbage, rfl⟩, [], [], inService_start garbage⟩
    · rintro s l s' ⟨hs, done, todo, hinv⟩ hallowed hstep
      refine ⟨hs.step hstep, ?_⟩
      have hmoves := serviceStep_moves hstep
      cases l with
      | accept accepted => exact ⟨done, todo, hinv.accept hmoves⟩
      | receive incoming =>
          rcases hinv.receive hallowed hmoves with ⟨-, requests, hinv'⟩
          exact ⟨done, requests, hinv'⟩
      | execute node =>
          rcases hinv.execute (glued_of_service hs) hmoves with ⟨request, rest, -, hinv'⟩
          exact ⟨_, rest, hinv'⟩
      | finish => exact ⟨done, [], (hinv.finish hmoves).2⟩
      | thread a =>
          have hdelivery := (invariants_of_keepsRunning (threads_of_service hs)).2
          exact ⟨done, todo, hinv.thread hdelivery hmoves⟩
  exact hboth.2

/-! ## The broker left alone -/

/-- The moves of the broker itself: no client connects, sends or disconnects, and nobody wakes
up without having been woken. -/
def ServiceStep.IsOwn : ServiceStep n → Prop
  | .execute _ | .finish => True
  | .thread a => a.IsOwn
  | .accept _ | .receive _ => False

/-- A bound on the moves of the broker: those of its threads, and those for the bytes that are
left in the receive buffer. -/
def Service.work (s : Service n) : Nat :=
  s.threads.work + s.position.elim 0 fun i => 50 * (s.mainLoop.receiveBuffer.length - i) + 1

/-- The broker is serving these requests. -/
def Serving (topicNames : List Bytes) (requests : List ClientRequest)
    (s : Service topicNames.length) : Prop :=
  (service topicNames).ReachableVia ReceivesCommands s ∧
    ∃ done todo, done ++ todo = requests ∧ InService topicNames s done todo

/-- A move of the broker brings no new requests. -/
theorem Serving.step {requests : List ClientRequest} (hs : Serving topicNames requests s)
    {l : ServiceStep topicNames.length} (hown : l.IsOwn) (hstep : serviceStep s l = some s') :
    Serving topicNames requests s' := by
  rcases hs with ⟨hreach, done, todo, hrequests, hinv⟩
  have hmoves := serviceStep_moves hstep
  cases l with
  | accept | receive => exact absurd hown (by simp [ServiceStep.IsOwn])
  | execute node =>
      rcases hinv.execute (glued_of_service hreach) hmoves with ⟨request, rest, rfl, hinv'⟩
      have hreach' : (service topicNames).ReachableVia ReceivesCommands s' :=
        System.ReachableVia.step (l := .execute node) hreach trivial hstep
      exact ⟨hreach', done ++ [request], rest, by simpa using hrequests, hinv'⟩
  | finish =>
      rcases hinv.finish hmoves with ⟨rfl, hinv'⟩
      have hreach' : (service topicNames).ReachableVia ReceivesCommands s' :=
        System.ReachableVia.step (l := .finish) hreach trivial hstep
      exact ⟨hreach', done, [], hrequests, hinv'⟩
  | thread a =>
      have hdelivery := (invariants_of_keepsRunning (threads_of_service hreach)).2
      have hreach' : (service topicNames).ReachableVia ReceivesCommands s' :=
        System.ReachableVia.step (l := .thread a) hreach trivial hstep
      exact ⟨hreach', done, todo, hrequests, hinv.thread hdelivery hmoves⟩

theorem threads_stuck (hstuck : (service topicNames).Stuck ServiceStep.IsOwn s) :
    (allThreads topicNames.length).Stuck Action.IsOwn s.threads := by
  intro a hown
  have hnone : serviceStep s (.thread a) = none := hstuck (.thread a) hown
  have hmoves : a.movesThread = true := by
    cases a with
    | main | topic | consumer | spurious => rfl
    | publish | respond | shutDown => exact absurd hown (by simp [Action.IsOwn])
  rw [serviceStep, if_pos hmoves, Option.map_eq_none_iff] at hnone
  exact hnone

/-- The index of a topic is one of a thread. -/
theorem publishedBy_lt {topics : List Topic} {command : Bytes} {published : Nat × Bytes}
    (h : publishedBy topics command = some published) : published.1 < topics.length := by
  rw [publishedBy] at h
  split at h
  · simp only [Option.bind_eq_bind, Option.bind_eq_some_iff, Option.pure_def,
      Option.some.injEq] at h
    rcases h with ⟨⟨topicName, message⟩, -, i, -, rfl⟩
    exact i.isLt
  · contradiction

/-- The main thread can publish while nobody is inside the critical section of the queue. -/
theorem exists_enqueue {threads : Threads n}
    (hqueues : ∃ ms, QueuesHold threads.nodes threads.messageQueue ms)
    (hidle : threads.producing .main = none) {t : Fin n} (hfree : threads.queueLock t = none)
    (message : Bytes) :
    ∃ node threads', enqueue threads t message node = some threads' := by
  rcases hqueues with ⟨ms, hq⟩
  have hfresh := threads.nodes.read_of_bound_le threads.nodes.bound (Nat.le_refl _)
  rcases enqueueUnsafe_holds hq t message hfresh with ⟨nodes, q, hnode, -⟩
  refine ⟨threads.nodes.bound, Option.isSome_iff_exists.mp ?_⟩
  rw [enqueue, if_pos ⟨hidle, hfree, hfresh⟩, hnode]
  rfl

/-- Then it can hand over a command. -/
theorem exists_handOver {threads : Threads n}
    (hqueues : ∃ ms, QueuesHold threads.nodes threads.messageQueue ms)
    (hidle : threads.producing .main = none) (hfree : ∀ t, threads.queueLock t = none)
    {published : Option (Nat × Bytes)} (hlt : ∀ p, published = some p → p.1 < n) (socket : Socket)
    (response : Option Bytes) :
    ∃ node threads' threads'', threads.enqueuePublished node published = some threads' ∧
      threads'.produceResponse socket response = some threads'' := by
  have henqueue : ∃ node threads', threads.enqueuePublished node published = some threads' ∧
      threads'.producing .main = none := by
    cases published with
    | none => exact ⟨0, threads, rfl, hidle⟩
    | some p =>
        have hp : p.1 < n := hlt p rfl
        rcases exists_enqueue hqueues hidle (hfree ⟨p.1, hp⟩) p.2 with ⟨node, threads', hstep⟩
        refine ⟨node, threads', ?_, ?_⟩
        · rw [Threads.enqueuePublished, dif_pos hp]
          exact hstep
        · rcases enqueue_cases hstep with ⟨-, -, -, nodes, q, -, rfl⟩
          exact hidle
  rcases henqueue with ⟨node, threads', henqueue, hidle'⟩
  refine ⟨node, threads', ?_⟩
  have hrespond : ∃ threads'', threads'.produceResponse socket response = some threads'' := by
    apply Option.isSome_iff_exists.mp
    cases response with
    | none => rfl
    | some response => simp [Threads.produceResponse, threadStep, hidle']
  rcases hrespond with ⟨threads'', hrespond⟩
  exact ⟨threads'', henqueue, hrespond⟩

/-- All requests have been executed, their messages and their answers, which are right for the
topics as they were at the execution, have been sent, each one once and in order, and the main
thread is between two rounds. -/
structure Served (topicNames : List Bytes) (s : Service topicNames.length)
    (requests : List ClientRequest) : Prop where
  between : s.position = none
  executed : s.executed.length = requests.length
  messages : ∀ t : Fin topicNames.length,
    messagesFor t s.threads.log.sent = (messagesTo topicNames t requests).map some
  responses : List.Forall₂ Answers (queries requests s.executed)
    (responsesIn s.threads.log.sent)

/-- The main thread at rest has no command left, unless a number of subscribers does not fit
its response. -/
theorem between_of_stuck (hreach : (service topicNames).ReachableVia ReceivesCommands s)
    (hs : InService topicNames s done todo)
    (hstuck : (service topicNames).Stuck ServiceStep.IsOwn s)
    (hbounded : ∀ topic ∈ s.mainLoop.topics,
      topic.subscriberConnectionSockets.length ≤ subscriberListMaxSize) :
    s.position = none ∧ todo = [] := by
  have hthreads := threads_of_service hreach
  have hrest := atRest_of_stuck hthreads.reachable (threads_stuck hstuck)
  have hidle := (idle_of_stuck (by simp [createAndStartThreads]) hthreads
    (threads_stuck hstuck)).2 .main
  have hglued := glued_of_service hreach
  rcases hs.buffer with
    ⟨hposition, -⟩ | ⟨hposition, hwalker, hsocket, hexecuted, hcs, hbuffer, hsize⟩
  · exact ⟨hposition, rfl⟩
  · next i m p rest socket executed cs =>
    exfalso
    cases cs with
    | nil =>
        have hbyte : s.mainLoop.receiveBuffer[i]? = some 0 := by
          rw [hbuffer, ← hexecuted, List.getElem?_append_right (Nat.le_refl _), Nat.sub_self]
          simp [stream, zeros_succ]
        have hfinish : serviceStep s .finish = none := hstuck .finish trivial
        simp only [serviceStep, hposition, hwalker, hbyte, hidle, zeroFill_all hsize,
          Option.bind_eq_bind, Option.bind_some, Option.pure_def, ne_eq, nul_ne_hashtag,
          not_false_eq_true, and_self, if_true] at hfinish
        contradiction
    | cons c cs =>
        have hc : c.WellFormed := hcs c (by simp)
        rcases nextCommand hc hexecuted hbuffer with ⟨hmark, hcommand, hscan⟩
        rcases exists_execution hbounded hc (stream cs ++ zeros (m + 1)) p with
          ⟨execution, hexecution⟩
        rw [← hcommand] at hexecution
        have htopics : s.mainLoop.topics.length = topicNames.length := by
          rw [← List.length_map Topic.name, hglued.names]
        have hlt : ∀ q, publishedBy s.mainLoop.topics (s.mainLoop.receiveBuffer.drop (i + 1)) =
            some q → q.1 < topicNames.length := fun q hq => htopics ▸ publishedBy_lt hq
        rcases exists_handOver (lifeInv_reachable hthreads.reachable).queues hidle hrest.queueLock
          hlt socket execution.response with ⟨node, threads, threads', henqueue, hrespond⟩
        have hexecute : serviceStep s (.execute node) = none := hstuck (.execute node) trivial
        simp only [serviceStep, hposition, hwalker, hidle, hmark, and_self, if_true, executeNext,
          hsocket, hexecution, henqueue, hrespond, hscan, Option.bind_eq_bind, Option.bind_some,
          Option.pure_def] at hexecute
        contradiction

/-- At rest, everything that the clients have asked for has been sent. -/
theorem served_of_stuck (hreach : (service topicNames).ReachableVia ReceivesCommands s)
    (hs : InService topicNames s done todo)
    (hstuck : (service topicNames).Stuck ServiceStep.IsOwn s)
    (hbounded : ∀ topic ∈ s.mainLoop.topics,
      topic.subscriberConnectionSockets.length ≤ subscriberListMaxSize) :
    Served topicNames s (done ++ todo) := by
  have hsent := allSent_of_stuck (by simp [createAndStartThreads]) (threads_of_service hreach)
    (threads_stuck hstuck)
  rcases between_of_stuck hreach hs hstuck hbounded with ⟨hposition, rfl⟩
  rw [List.append_nil]
  constructor
  case between => exact hposition
  case executed => exact hs.executed
  case messages =>
    intro t
    rw [hsent.messages, hs.published]
  case responses =>
    have hresponses := (glued_of_service hreach).responses
    rw [heldBy, hsent.idle, Option.map_none, Option.toList_none, List.append_nil] at hresponses
    rw [hsent.responses, hresponses]
    exact hs.responses

/-! ## While the broker works -/

/-- What has been taken of the responses are the first ones that the main thread has given. -/
theorem taken_responses (hreach : (service topicNames).ReachableVia ReceivesCommands s) :
    responsesIn s.threads.log.taken <+: s.responses := by
  rcases invariants_of_keepsRunning (threads_of_service hreach) with ⟨hbuffer, hdelivery⟩
  rcases hbuffer.ring with ⟨xs, -, hput⟩
  rw [← (glued_of_service hreach).responses, ← hdelivery.responses, hput, responsesIn_append,
    List.append_assoc]
  exact List.prefix_append _ _

/-- The first answers belong to the first queries. -/
theorem answered_of_begins {requests : List ExecutedRequest}
    {es es' : List (OutgoingBufferElement n)}
    (h : List.Forall₂ Answers requests es') (hbegins : es <+: es') :
    ∃ answered, answered <+: requests ∧ List.Forall₂ Answers answered es := by
  rcases hbegins with ⟨later, rfl⟩
  refine ⟨requests.take es.length, List.take_prefix _ _, ?_⟩
  have htake := List.forall₂_take es.length h
  rwa [List.take_left] at htake

/-- Between two rounds and with waiting threads, the broker is at rest. -/
theorem stuck_of_rest (hposition : s.position = none) (hmain : s.threads.producing .main = none)
    (htopic : ∀ t, s.threads.topic t = .waiting) (hconsumer : s.threads.consumer = .waiting) :
    (service topicNames).Stuck ServiceStep.IsOwn s := by
  intro l hl
  cases l with
  | accept | receive => exact absurd hl (by simp [ServiceStep.IsOwn])
  | execute node => simp [service, serviceStep, hposition]
  | finish => simp [service, serviceStep, hposition]
  | thread a =>
      cases a with
      | publish | respond | shutDown | spurious =>
          exact absurd hl (by simp [ServiceStep.IsOwn, Action.IsOwn])
      | main => simp [service, serviceStep, threadStep, hmain]
      | topic t => simp [service, serviceStep, threadStep, produce, htopic t]
      | consumer wake => simp [service, serviceStep, threadStep, consume, hconsumer]

end Broker
end PubSub
