import PubSub.Broker.CommandExecution
import PubSub.Client.ClientLoop
import PubSub.Foundations.Transition

/-!
# Telling responses and messages apart

Published messages and responses to queries reach the client on one connection.  The
client takes the next thing that it receives after a query for the response, and
everything that it receives between two options for messages.

A run is a sequence of rounds of the client's loop in which {lit}`connect` and {lit}`send`
succeed.  The broker answers the queries of the connection in their order, so the
response to a query is the one with the same position among all responses received.

Main results:

- Structure {lit}`SessionInv`: all queries so far have been answered, and all messages
  printed.
- Theorem {lit}`sessionStep_inv`: a round keeps it if the receive of its query is exactly
  the response, and the receive between the options consists of messages that leave a
  byte of the buffer free.
- Theorem {lit}`demultiplexed_of_keepsApart`: in such runs every report reflects the response
  to its query, and every message is printed once.
- Theorem {lit}`not_demultiplexed_messageFirst`: a message in front of the response is taken
  for it and is never printed.
-/

namespace PubSub
namespace Client

open Foundations

/-! ## Sessions -/

/-- What the broker sends on a connection. -/
inductive BrokerFrame where
  | message (text : Bytes)
  | response (content : Bytes)
deriving DecidableEq, Repr

/-- The bytes of a frame. -/
def BrokerFrame.bytes : BrokerFrame → Bytes
  | .message text => hashtag :: text ++ [0]
  | .response content => content ++ [0]

/-- The messages among some frames. -/
def messagesIn (frames : List BrokerFrame) : List Bytes :=
  frames.filterMap fun
    | .message text => some text
    | .response _ => none

/-- The responses among some frames. -/
def responsesIn (frames : List BrokerFrame) : List Bytes :=
  frames.filterMap fun
    | .message _ => none
    | .response content => some content

/-- The client between two rounds of its loop, and what has happened so far. -/
structure Session where
  client : ClientState
  running : Bool
  queries : List Query
  reports : List Report
  received : List BrokerFrame
  printed : List Bytes
deriving DecidableEq, Repr

/-- One round of the loop of {lit}`main`: the option and the lines that the user types, the
frames that arrive in one piece after a query, and those that arrive in one piece
behind the option, if any do. -/
structure Round where
  option : Byte
  topic : Bytes
  message : Bytes
  answer : List BrokerFrame
  poll : Option (List BrokerFrame)
deriving DecidableEq, Repr

/-- What the receive behind an option finds. -/
def Round.incoming (r : Round) : Incoming :=
  match r.poll with
  | none => .willBlock
  | some frames => .data (frames.flatMap BrokerFrame.bytes)

/-- The option of a round. -/
def actionStep (s : Session) (r : Round) : Option Session :=
  (executeRequestedAction s.client r.option r.topic r.message true
    (.data (r.answer.flatMap BrokerFrame.bytes))).map fun action =>
      match action.report with
      | none => { s with client := action.client, running := action.returnValue }
      | some report =>
          { s with
            client := action.client
            running := action.returnValue
            queries := s.queries ++ (queryOf r.option r.topic).toList
            reports := s.reports ++ [report]
            received := s.received ++ r.answer }

/-- The receive behind the option of a round. -/
def pollStep (s : Session) (r : Round) : Option Session :=
  if s.running then
    (receiveSubscriptionMessages r.incoming s.client.receiveBuffer).map
      fun (messages, receiveBuffer) =>
        { s with
          client := { s.client with receiveBuffer := receiveBuffer }
          received := s.received ++ r.poll.getD []
          printed := s.printed ++ messages }
  else some s

/-- The loop of {lit}`main`. -/
def sessionStep (s : Session) (r : Round) : Option Session :=
  if s.running then (actionStep s r).bind fun s => pollStep s r else none

/-- The client when it enters its loop. -/
def Session.start : Session where
  client := ⟨false, zeros clientReceiveBufferSize⟩
  running := true
  queries := []
  reports := []
  received := []
  printed := []

/-- The client as a transition system. -/
def sessionSystem : System Session Round where
  initial := fun s => s = Session.start
  step := sessionStep

/-! ## What is expected -/

/-- The responses that the broker gives to a query. -/
def Answers : Query → Bytes → Prop
  | .topicExists topic, content => ∃ topics, content = Broker.topicExists topics topic
  | .subscriberNumber topic, content =>
      ∃ topics, Broker.subscriberNumber topics topic = some content

/-- The report says what the response to the query says. -/
inductive Reflects : Query × Bytes → Report → Prop
  | doesExist (topic : Bytes) :
      Reflects (.topicExists topic, [byteOf '1']) (.topicExists topic)
  | doesNotExist (topic : Bytes) {content : Bytes} (h : content ≠ [byteOf '1']) :
      Reflects (.topicExists topic, content) (.topicDoesNotExist topic)
  | number (topic : Bytes) (k : Nat) :
      Reflects (.subscriberNumber topic, decimal k) (.subscribers k topic)
  | noNumber (topic : Bytes) {content : Bytes} (h : ∀ k, content ≠ decimal k) :
      Reflects (.subscriberNumber topic, content) (.topicDoesNotExist topic)

/-- Every report reflects the response to its query, and every message is printed once. -/
structure Demultiplexed (s : Session) : Prop where
  reports : List.Forall₂ Reflects (s.queries.zip (responsesIn s.received)) s.reports
  printed : s.printed = messagesIn s.received

/-- The receive of a query is exactly its response, and the receive behind the option of a
round, which option 8 does not come to, consists of messages and does not fill the buffer. -/
def KeepsApart (s : Session) (r : Round) : Prop :=
  (s.client.connected = true → ∀ q ∈ queryOf r.option r.topic,
      ∃ content, Answers q content ∧ r.answer = [.response content]) ∧
    (r.option ≠ byteOf '8' → ∀ frames ∈ r.poll, ∃ messages, messages ≠ [] ∧
      (∀ m ∈ messages, NulFree m) ∧ frames = messages.map .message ∧
        (framesOf hashtag messages).length < clientReceiveBufferSize)

/-! ## The invariant -/

/-- All queries have been answered, all messages printed, and nothing behind the first byte
of the buffer looks like a message. -/
structure SessionInv (s : Session) : Prop where
  demultiplexed : Demultiplexed s
  answered : s.queries.length = (responsesIn s.received).length
  length_eq : s.client.receiveBuffer.length = clientReceiveBufferSize
  clean : CleanBehindFirst s.client.receiveBuffer

theorem cleanBehindFirst_zeros (size : Nat) : CleanBehindFirst (zeros size) := by
  intro b hb
  have hzero : b = 0 := List.eq_of_mem_replicate (List.mem_of_mem_drop hb)
  rw [hzero]
  exact nul_ne_hashtag

theorem start_sessionInv : SessionInv Session.start where
  demultiplexed := ⟨by simp [Session.start, responsesIn], by simp [Session.start, messagesIn]⟩
  answered := by simp [Session.start, responsesIn]
  length_eq := length_zeros _
  clean := cleanBehindFirst_zeros _

/-! ## Reading responses -/

/-- The responses to a query, one by one. -/
inductive AnswerCases : Query → Bytes → Prop
  | doesNotExist (topic : Bytes) : AnswerCases (.topicExists topic) [byteOf '0']
  | doesExist (topic : Bytes) : AnswerCases (.topicExists topic) [byteOf '1']
  | noTopic (topic : Bytes) : AnswerCases (.subscriberNumber topic) [hashtag]
  | number (topic : Bytes) {k : Nat} (hk : (decimal k).length + 1 ≤ 5 + 1) :
      AnswerCases (.subscriberNumber topic) (decimal k)

theorem Answers.cases {q : Query} {content : Bytes} (h : Answers q content) :
    AnswerCases q content := by
  cases q with
  | topicExists topic =>
      rcases h with ⟨topics, rfl⟩
      unfold Broker.topicExists
      split
      · exact .doesNotExist topic
      · exact .doesExist topic
  | subscriberNumber topic =>
      rcases h with ⟨topics, hresponse⟩
      unfold Broker.subscriberNumber at hresponse
      split at hresponse
      · rw [Option.some.injEq] at hresponse
        exact hresponse ▸ .noTopic topic
      · unfold itoaS at hresponse
        split at hresponse
        · next hfits =>
          rw [Option.some.injEq] at hresponse
          exact hresponse ▸ .number topic hfits
        · contradiction

theorem hashtag_not_isDigit : isDigit hashtag = false := by
  decide

/-- A numeral does not begin with a number sign. -/
theorem exists_digit (k : Nat) : ∃ d ds, decimal k = d :: ds ∧ d ≠ hashtag := by
  rcases List.exists_cons_of_ne_nil (decimal_ne_nil k) with ⟨d, ds, hds⟩
  refine ⟨d, ds, hds, ?_⟩
  intro heq
  have hdigit : isDigit d = true := mem_decimal (by rw [hds]; simp)
  rw [heq, hashtag_not_isDigit] at hdigit
  contradiction

/-- Off a buffer that begins with the response to a query, the client reads what the
response says. -/
theorem Answers.reflects {q : Query} {content : Bytes} (h : Answers q content) {rest : Bytes}
    {report : Report} (hread : q.read (content ++ 0 :: rest) = some report) :
    Reflects (q, content) report := by
  cases h.cases with
  | doesNotExist topic =>
      simp +decide [Query.read] at hread
      exact hread ▸ .doesNotExist topic (by decide)
  | doesExist topic =>
      simp [Query.read] at hread
      exact hread ▸ .doesExist topic
  | noTopic topic =>
      simp [Query.read] at hread
      refine hread ▸ .noNumber topic ?_
      intro k heq
      rcases exists_digit k with ⟨d, ds, hds, hd⟩
      rw [hds, List.cons.injEq] at heq
      exact hd heq.1.symm
  | @number topic k hk =>
      have hatoi := atoi_decimal k rest
      rcases exists_digit k with ⟨d, ds, hds, hd⟩
      rw [hds, List.cons_append] at hread hatoi
      simp [Query.read, hd, hatoi] at hread
      exact hread ▸ .number topic k

/-- A response fits the buffer and has no number sign behind its first byte. -/
theorem Answers.clean {q : Query} {content : Bytes} (h : Answers q content) :
    content.length ≤ 5 ∧ CleanBehindFirst content := by
  cases h.cases with
  | doesNotExist topic => exact ⟨by decide, by simp [CleanBehindFirst]⟩
  | doesExist topic => exact ⟨by decide, by simp [CleanBehindFirst]⟩
  | noTopic topic => exact ⟨by decide, by simp [CleanBehindFirst]⟩
  | @number topic k hk =>
      refine ⟨by omega, ?_⟩
      intro b hb heq
      have hdigit : isDigit b = true := mem_decimal (List.mem_of_mem_drop hb)
      rw [heq, hashtag_not_isDigit] at hdigit
      contradiction

/-! ## One round -/

/-- A receive of a response overwrites the beginning of the buffer and keeps it clean. -/
theorem recvInto_response {content receiveBuffer : Bytes}
    (hlength : receiveBuffer.length = clientReceiveBufferSize) (hsize : content.length ≤ 5)
    (hcontent : CleanBehindFirst content) (hclean : CleanBehindFirst receiveBuffer) :
    ∃ rest, recvInto receiveBuffer clientReceiveBufferSize (content ++ [0]) =
        some (content ++ 0 :: rest) ∧
      (content ++ 0 :: rest).length = clientReceiveBufferSize ∧
      CleanBehindFirst (content ++ 0 :: rest) := by
  have hroom : content.length + 1 ≤ clientReceiveBufferSize := by
    have hlarge : 5 + 1 ≤ clientReceiveBufferSize := by decide
    omega
  have hbytes : (content ++ [0]).length ≤ clientReceiveBufferSize := by simpa using hroom
  have hreceived := recvInto_eq hbytes (Nat.le_of_eq hlength.symm)
  rw [List.length_append, List.length_singleton, List.append_assoc, List.singleton_append]
    at hreceived
  refine ⟨receiveBuffer.drop (content.length + 1), hreceived, ?_, ?_⟩
  · rw [List.length_append, List.length_cons, List.length_drop]
    omega
  · have hrest : ∀ b ∈ receiveBuffer.drop (content.length + 1), b ≠ hashtag := by
      intro b hb
      rw [Nat.add_comm, ← List.drop_drop] at hb
      exact hclean b (List.mem_of_mem_drop hb)
    intro b hb
    cases content with
    | nil => exact hrest b hb
    | cons c cs =>
        rw [List.cons_append, List.drop_succ_cons, List.drop_zero] at hb
        rcases List.mem_append.mp hb with hmem | hmem
        · exact hcontent b hmem
        · rcases List.mem_cons.mp hmem with rfl | hmem
          · exact nul_ne_hashtag
          · exact hrest b hmem

/-- The option of a round answers its query, if it has one, and touches nothing else. -/
theorem actionStep_inv {s s' : Session} {r : Round} (hs : SessionInv s) (hr : KeepsApart s r)
    (h : actionStep s r = some s') : SessionInv s' := by
  rw [actionStep, Option.map_eq_some_iff] at h
  rcases h with ⟨action, haction, rfl⟩
  rcases executeRequestedAction_cases haction with ⟨hreport, hbuffer⟩ |
    ⟨q, blocking, report, hconnected, hq, hreceive, hread, hreport⟩
  · simp only [hreport]
    exact ⟨⟨hs.demultiplexed.reports, hs.demultiplexed.printed⟩, hs.answered,
      hbuffer ▸ hs.length_eq, hbuffer ▸ hs.clean⟩
  · rcases hr.1 hconnected q hq with ⟨content, hanswers, hanswer⟩
    rcases recvInto_response hs.length_eq hanswers.clean.1 hanswers.clean.2 hs.clean with
      ⟨rest, hreceived, hlength, hclean⟩
    have hbytes : r.answer.flatMap BrokerFrame.bytes = content ++ [0] := by
      simp [hanswer, BrokerFrame.bytes]
    rw [hbytes, receiveFromBroker, hreceived, Option.map_some, Option.some.injEq,
      Prod.mk.injEq] at hreceive
    rw [← hreceive.2] at hread
    have hresponses : responsesIn (s.received ++ r.answer) =
        responsesIn s.received ++ [content] := by
      simp [responsesIn, hanswer]
    have hmessages : messagesIn (s.received ++ r.answer) = messagesIn s.received := by
      simp [messagesIn, hanswer]
    simp only [hreport]
    refine ⟨⟨?_, ?_⟩, ?_, ?_, ?_⟩
    · simp only [hq, Option.toList_some, hresponses]
      rw [List.zip_append hs.answered]
      exact List.rel_append hs.demultiplexed.reports (.cons (hanswers.reflects hread) .nil)
    · simp only [hmessages]
      exact hs.demultiplexed.printed
    · simp [hq, hresponses, hs.answered]
    · exact hreceive.2 ▸ hlength
    · exact hreceive.2 ▸ hclean

/-- The receive behind the option of a round prints the messages it consists of. -/
theorem pollStep_inv {s s' : Session} {r : Round} (hs : SessionInv s)
    (hr : ∀ frames ∈ r.poll, ∃ messages, messages ≠ [] ∧ (∀ m ∈ messages, NulFree m) ∧
      frames = messages.map .message ∧
        (framesOf hashtag messages).length < clientReceiveBufferSize)
    (h : pollStep s r = some s') : SessionInv s' := by
  unfold pollStep at h
  split at h
  · rw [Option.map_eq_some_iff] at h
    rcases h with ⟨⟨printed, receiveBuffer⟩, hreceive, rfl⟩
    cases hpoll : r.poll with
    | none =>
        have hblocks : receiveSubscriptionMessages r.incoming s.client.receiveBuffer =
            some ([], s.client.receiveBuffer) := by
          simp [Round.incoming, hpoll, receiveSubscriptionMessages, receiveFromBroker]
        rw [hblocks, Option.some.injEq, Prod.mk.injEq] at hreceive
        rcases hreceive with ⟨rfl, rfl⟩
        simpa using hs
    | some frames =>
        rcases hr frames hpoll with ⟨messages, hne, hfree, rfl, hsize⟩
        have hbytes : (messages.map BrokerFrame.message).flatMap BrokerFrame.bytes =
            framesOf hashtag messages := by
          rw [List.flatMap_map]
          simp [BrokerFrame.bytes, framesOf]
        have hincoming : r.incoming = .data (framesOf hashtag messages) := by
          rw [Round.incoming, hpoll, ← hbytes]
        have hprints := receiveSubscriptionMessages_frames hne hfree hs.length_eq hs.clean hsize
        rw [hincoming, hprints, Option.some.injEq, Prod.mk.injEq] at hreceive
        rcases hreceive with ⟨rfl, rfl⟩
        have hresponses : responsesIn (s.received ++ messages.map BrokerFrame.message) =
            responsesIn s.received := by
          simp [responsesIn, List.filterMap_map]
        have hmessages : messagesIn (s.received ++ messages.map BrokerFrame.message) =
            messagesIn s.received ++ messages := by
          simp [messagesIn, List.filterMap_map]
        simp only [Option.getD_some]
        refine ⟨⟨?_, ?_⟩, ?_, length_zeros _, cleanBehindFirst_zeros _⟩
        · simp only [hresponses]
          exact hs.demultiplexed.reports
        · simp only [hmessages]
          rw [hs.demultiplexed.printed]
        · simp only [hresponses]
          exact hs.answered
  · rw [Option.some.injEq] at h
    exact h ▸ hs

/-- After option 8 the loop ends. -/
theorem actionStep_exit {s s' : Session} {r : Round} (hexit : r.option = byteOf '8')
    (h : actionStep s r = some s') : s'.running = false := by
  have haction : ∀ incoming, executeRequestedAction s.client r.option r.topic r.message true
      incoming = some ⟨false, s.client, none, none⟩ := by
    intro incoming
    simp +decide [executeRequestedAction, hexit]
  rw [actionStep, haction, Option.map_some, Option.some.injEq] at h
  rw [← h]

/-- A round in which responses and messages arrive apart keeps the invariant. -/
theorem sessionStep_inv {s s' : Session} {r : Round} (hs : SessionInv s) (hr : KeepsApart s r)
    (h : sessionStep s r = some s') : SessionInv s' := by
  unfold sessionStep at h
  split at h
  · rw [Option.bind_eq_some_iff] at h
    rcases h with ⟨t, haction, hpoll⟩
    have ht := actionStep_inv hs hr haction
    by_cases hexit : r.option = byteOf '8'
    · rw [pollStep, actionStep_exit hexit haction, if_neg Bool.false_ne_true,
        Option.some.injEq] at hpoll
      exact hpoll ▸ ht
    · exact pollStep_inv ht (hr.2 hexit) hpoll
  · contradiction

/-- If responses and messages arrive apart, every report reflects the response to its query
and every message is printed once. -/
theorem demultiplexed_of_keepsApart {s : Session}
    (hreach : sessionSystem.ReachableVia KeepsApart s) : Demultiplexed s := by
  have hinv : SessionInv s := by
    refine hreach.invariant SessionInv ?_ ?_
    · intro s hs
      exact hs ▸ start_sessionInv
    · intro s r s' hs hr h
      exact sessionStep_inv hs hr h
  exact hinv.demultiplexed

/-- A client asks whether news exists, subscribes, and receives a message. -/
def messageBehindResponse : List Round :=
  [⟨byteOf '1', [], [], [], none⟩,
    ⟨byteOf '4', news, [], [.response [byteOf '1']], none⟩,
    ⟨byteOf '3', news, [], [], some [.message [byteOf 'a']]⟩]

theorem keepsApart_messageBehindResponse :
    ∀ r ∈ messageBehindResponse, ∀ s, KeepsApart s r := by
  intro r hr s
  simp only [messageBehindResponse, List.mem_cons, List.not_mem_nil, or_false] at hr
  rcases hr with rfl | rfl | rfl
  · exact ⟨by simp +decide [queryOf], by simp⟩
  · refine ⟨?_, by simp⟩
    intro _ q hq
    have hquery : q = .topicExists news := by simpa [queryOf] using hq.symm
    rw [hquery]
    exact ⟨[byteOf '1'], ⟨[⟨news, [], []⟩], by decide⟩, rfl⟩
  · refine ⟨by simp +decide [queryOf], ?_⟩
    intro _ frames hframes
    have hmessage : frames = [.message [byteOf 'a']] := by simpa using hframes.symm
    exact ⟨[[byteOf 'a']], by simp, by decide, hmessage, by decide⟩

theorem demultiplexed_messageBehindResponse :
    ∃ s, sessionSystem.ReachableVia KeepsApart s ∧ s.reports = [.topicExists news] ∧
      s.printed = [[byteOf 'a']] ∧ Demultiplexed s := by
  have hrun : (sessionSystem.run Session.start messageBehindResponse).map
      (fun s => (s.reports, s.printed)) = some ([.topicExists news], [[byteOf 'a']]) := by
    decide +kernel
  rcases Option.map_eq_some_iff.mp hrun with ⟨s, hs, heq⟩
  rw [Prod.mk.injEq] at heq
  have hfirst : sessionSystem.ReachableVia KeepsApart Session.start :=
    System.ReachableVia.start rfl
  have hreach := hfirst.run keepsApart_messageBehindResponse hs
  exact ⟨s, hreach, heq.1, heq.2, demultiplexed_of_keepsApart hreach⟩

/-- A subscribed client asks whether news exists, and a message arrives first. -/
def messageFirst : List Round :=
  [⟨byteOf '1', [], [], [], none⟩,
    ⟨byteOf '3', news, [], [], none⟩,
    ⟨byteOf '4', news, [], [.message [byteOf 'a']], some [.response [byteOf '1']]⟩]

/-- The message is taken for the response, and is not printed. -/
theorem not_demultiplexed_messageFirst :
    ∃ s, sessionSystem.Reachable s ∧ s.reports = [.topicDoesNotExist news] ∧ s.printed = [] ∧
      s.received = [.message [byteOf 'a'], .response [byteOf '1']] ∧ ¬ Demultiplexed s := by
  have hrun : (sessionSystem.run Session.start messageFirst).map
      (fun s => (s.reports, s.printed, s.received)) =
        some ([.topicDoesNotExist news], [], [.message [byteOf 'a'], .response [byteOf '1']]) := by
    decide +kernel
  rcases Option.map_eq_some_iff.mp hrun with ⟨s, hs, heq⟩
  simp only [Prod.mk.injEq] at heq
  have hfirst : sessionSystem.Reachable Session.start := System.Reachable.start rfl
  refine ⟨s, hfirst.run hs, heq.1, heq.2.1, heq.2.2, ?_⟩
  intro hall
  have hprinted := hall.printed
  rw [heq.2.1, heq.2.2] at hprinted
  simp [messagesIn] at hprinted

end Client
end PubSub
