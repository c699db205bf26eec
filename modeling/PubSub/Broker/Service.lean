import PubSub.Broker.Dispatch
import PubSub.Broker.Pipeline

/-!
# The main loop among the other threads

While the main thread executes the commands of a receive, one after the other, the topic
threads and the consumer already work on what it has handed over: a publish command ends in
{lit}`enqueue`, a query in {lit}`produce_new_message`, inside which the main thread may wait.
This module puts the main loop and the threads together, with every command a step of its
own.  The queues of the topics are those of the threads; the topics of the main loop keep the
messages that have been put in them.

Main results:

- Theorem {lit}`executeCommand_queues`: what a command does to the message queues.
- Theorem {lit}`service_refines_mainLoop`: seen from the main thread, the commands of a receive
  are executed at once, whatever the other threads do meanwhile.
- Theorem {lit}`threads_of_service`: seen from the threads, the main thread publishes and
  responds, and never shuts them down.
- Structure {lit}`Glued`: what the two sides know of each other.
-/

namespace PubSub
namespace Broker

open Foundations Client Threads

/-! ## What a command hands over -/

/-- The call of {lit}`enqueue` that {lit}`publish` makes for a command: the index of the topic,
and the message. -/
def publishedBy (topics : List Topic) (command : Bytes) : Option (Nat × Bytes) :=
  if command[0]? = some (byteOf '2') then do
    let (topicName, message) ← extractForPublish command
    let i ← getTopicByName topics topicName
    return (i, message)
  else none

/-- The queues after a call of {lit}`enqueue` or none. -/
def enqueued (queues : List (List Bytes)) : Option (Nat × Bytes) → List (List Bytes)
  | none => queues
  | some (i, message) => queues.modify i (· ++ [message])

/-- Replacing a topic by one that looks the same. -/
theorem map_set_of_eq {α : Type} {f : Topic → α} {topics : List Topic} (i : Fin topics.length)
    {topic : Topic} (h : f topic = f (topics.get i)) :
    (topics.set i topic).map f = topics.map f := by
  rw [List.map_set, h]
  apply List.ext_getElem?
  intro j
  rw [List.getElem?_set]
  split
  · next hj =>
    subst hj
    simp
  · rfl

/-- The names and the message queues of the topics. -/
def namesAndQueues (topics : List Topic) : List Bytes × List (List Bytes) :=
  (topics.map Topic.name, topics.map Topic.messageQueue)

theorem set_namesAndQueues {topics : List Topic} (i : Fin topics.length) {topic : Topic}
    (hname : topic.name = (topics.get i).name)
    (hqueue : topic.messageQueue = (topics.get i).messageQueue) :
    namesAndQueues (topics.set i topic) = namesAndQueues topics :=
  Prod.ext (map_set_of_eq i hname) (map_set_of_eq i hqueue)

theorem subscribe_namesAndQueues (topics : List Topic) (topicName : Bytes)
    (connectionSocketPtr : SocketPtr) :
    namesAndQueues (subscribe topics topicName connectionSocketPtr).1 = namesAndQueues topics := by
  unfold subscribe
  split
  · rfl
  · next i _ =>
    split
    · exact set_namesAndQueues i rfl rfl
    · rfl

theorem unsubscribe_namesAndQueues (topics : List Topic) (topicName : Bytes)
    (connectionSocketPtr : SocketPtr) :
    namesAndQueues (unsubscribe topics topicName connectionSocketPtr).1 =
      namesAndQueues topics := by
  unfold unsubscribe
  split
  · rfl
  · next i _ =>
    split
    · exact set_namesAndQueues i rfl rfl
    · rfl

theorem publish_namesAndQueues (topics : List Topic) (topicName message : Bytes) :
    namesAndQueues (publish topics topicName message).1 =
      (topics.map Topic.name, enqueued (topics.map Topic.messageQueue)
        ((getTopicByName topics topicName).map fun i => (i.val, message))) := by
  unfold publish
  split
  · next hnone =>
    rw [hnone]
    rfl
  · next i hsome =>
    rw [hsome]
    apply Prod.ext
    · exact map_set_of_eq i rfl
    · apply List.ext_getElem?
      intro j
      simp only [namesAndQueues, List.map_set, Option.map_some, enqueued, List.getElem?_set,
        List.getElem?_modify]
      split
      · next hj =>
        subst hj
        simp
      · simp

/-- Executing a command changes no topic's name, and its queue only by the call of
{lit}`enqueue`. -/
theorem executeCommand_queues {topics : List Topic} {command : Bytes}
    {connectionSocketPtr : SocketPtr} {execution : Execution}
    (h : executeCommand topics command connectionSocketPtr = some execution) :
    namesAndQueues execution.topics = (topics.map Topic.name,
      enqueued (topics.map Topic.messageQueue) (publishedBy topics command)) := by
  unfold executeCommand at h
  split at h
  · contradiction
  next commandType rest =>
  have hother : commandType ≠ byteOf '2' → publishedBy topics (commandType :: rest) = none :=
    fun hne => by simp [publishedBy, hne]
  split at h
  · next htype =>
    simp only [Option.bind_eq_bind, Option.bind_eq_some_iff, Option.pure_def,
      Option.some.injEq] at h
    rcases h with ⟨⟨topicName, message⟩, hextract, notification, -, rfl⟩
    have hpublished : publishedBy topics (commandType :: rest) =
        (getTopicByName topics topicName).map fun i => (i.val, message) := by
      rw [publishedBy, if_pos (by simp [htype]), hextract, Option.map_eq_bind]
      rfl
    rw [hpublished]
    exact publish_namesAndQueues topics topicName message
  next htype =>
  rw [hother htype]
  split at h
  · simp only [Option.bind_eq_bind, Option.bind_eq_some_iff, Option.pure_def,
      Option.some.injEq] at h
    rcases h with ⟨topicName, -, notification, -, rfl⟩
    exact subscribe_namesAndQueues topics topicName connectionSocketPtr
  split at h
  · simp only [Option.bind_eq_bind, Option.bind_eq_some_iff, Option.pure_def,
      Option.some.injEq] at h
    rcases h with ⟨topicName, -, notification, -, rfl⟩
    rfl
  split at h
  · simp only [Option.bind_eq_bind, Option.bind_eq_some_iff, Option.pure_def,
      Option.some.injEq] at h
    rcases h with ⟨topicName, -, response, -, notification, -, rfl⟩
    rfl
  split at h
  · simp only [Option.bind_eq_bind, Option.bind_eq_some_iff, Option.pure_def,
      Option.some.injEq] at h
    rcases h with ⟨topicName, -, notification, -, rfl⟩
    exact unsubscribe_namesAndQueues topics topicName connectionSocketPtr
  · rw [Option.some.injEq] at h
    rw [← h]
    rfl

/-! ## The program -/

/-- The broker in operation: the variables of the main thread, the index at which it stands
in the receive buffer while it executes commands, and the other threads.  The last four
fields log what {lit}`recv` has returned, with the socket that it was called on, the topics as they
were when each command was executed, the elements for which the main thread has called
{lit}`produce_new_message`, and the notifications that it has sent.  No step reads them. -/
structure Service (n : Nat) where
  mainLoop : MainLoop
  position : Option Nat
  threads : Threads n
  received : List (Socket × Bytes)
  executed : List (List Topic)
  responses : List (OutgoingBufferElement n)
  notifications : List Bytes

/-- What happens next. -/
inductive ServiceStep (n : Nat) where
  /-- the main thread calls {lit}`accept_connection` -/
  | accept (accepted : Accepted)
  /-- the main thread calls {lit}`receive_commands` -/
  | receive (incoming : Incoming)
  /-- the main thread executes the next command; {lit}`node` is the address that {lit}`malloc`
  returns in {lit}`enqueue_unsafe` -/
  | execute (node : Addr)
  /-- the main thread sees no further command and clears the receive buffer -/
  | finish
  /-- a thread moves, the main thread inside {lit}`produce_new_message` included -/
  | thread (a : Action n)
deriving DecidableEq, Repr

/-- Is this a move of a thread that the main thread has no part in, but for the one inside
{lit}`produce_new_message`? -/
def Action.movesThread {n : Nat} : Action n → Bool
  | .main | .topic _ | .consumer _ | .spurious _ => true
  | .publish _ _ _ | .respond _ _ | .shutDown => false

variable {n : Nat}

/-- The call of {lit}`enqueue`, if there is one. -/
def Threads.enqueuePublished (threads : Threads n) (node : Addr) :
    Option (Nat × Bytes) → Option (Threads n)
  | none => some threads
  | some (i, message) =>
      if hi : i < n then threadStep threads (.publish ⟨i, hi⟩ message node) else none

/-- The call of {lit}`produce_new_message`, if there is one. -/
def Threads.produceResponse (threads : Threads n) (socket : Socket) :
    Option Bytes → Option (Threads n)
  | none => some threads
  | some response => threadStep threads (.respond response socket)

/-- One round of the loop over the receive buffer, at index {lit}`i`.  The main thread goes on
behind the terminator of the command when it has returned from {lit}`produce_new_message`. -/
def executeNext (s : Service n) (connectionSocketPtr : SocketPtr) (i : Nat) (node : Addr) :
    Option (Service n) := do
  let socket ← s.mainLoop.socket connectionSocketPtr
  let command := s.mainLoop.receiveBuffer.drop (i + 1)
  let execution ← executeCommand s.mainLoop.topics command connectionSocketPtr
  let threads ← s.threads.enqueuePublished node (publishedBy s.mainLoop.topics command)
  let threads ← threads.produceResponse socket execution.response
  let length ← scanUntil 0 (s.mainLoop.receiveBuffer.drop i)
  return { s with
    mainLoop := { s.mainLoop with topics := execution.topics }
    position := some (i + length + 1)
    threads := threads
    executed := s.executed ++ [s.mainLoop.topics]
    responses := s.responses ++ execution.response.toList.map fun response =>
      ⟨some response, .connectionSocket socket⟩
    notifications := s.notifications ++ execution.notification.toList }

/-- The bytes that {lit}`recv` has stored. -/
def storedBytes : Incoming → Bytes
  | .data bytes => bytes
  | .selectError | .willBlock | .closed | .recvError => []

/-- The step function.  The main thread is somewhere in its loop only while it is not inside
{lit}`produce_new_message`. -/
def serviceStep (s : Service n) : ServiceStep n → Option (Service n)
  | .accept accepted =>
      if s.position = none then
        (mainLoopStep s.mainLoop (.accept accepted)).map fun mainLoop =>
          { s with mainLoop := mainLoop }
      else none
  | .receive incoming =>
      match s.position, s.mainLoop.walker with
      | none, connectionSocketPtr :: rest => do
          let socket ← s.mainLoop.socket connectionSocketPtr
          let (returnValue, mainLoop) ← receiveCommands s.mainLoop connectionSocketPtr incoming
          match returnValue with
          | .received =>
              return { s with
                mainLoop := mainLoop
                position := some 0
                received := s.received ++ [(socket, storedBytes incoming)] }
          | .notReceived => return { s with mainLoop := { mainLoop with walker := rest } }
          | .deleted => return { s with mainLoop := mainLoop }
      | _, _ => none
  | .execute node =>
      match s.position, s.mainLoop.walker with
      | some i, connectionSocketPtr :: _ =>
          if s.threads.producing .main = none ∧ s.mainLoop.receiveBuffer[i]? = some hashtag then
            executeNext s connectionSocketPtr i node
          else none
      | _, _ => none
  | .finish =>
      match s.position, s.mainLoop.walker with
      | some i, _ :: rest => do
          let b ← s.mainLoop.receiveBuffer[i]?
          if s.threads.producing .main = none ∧ b ≠ hashtag then
            let receiveBuffer ← zeroFill s.mainLoop.receiveBuffer brokerReceiveBufferSize
            return { s with
              mainLoop := { s.mainLoop with walker := rest, receiveBuffer := receiveBuffer }
              position := none }
          else none
      | _, _ => none
  | .thread a =>
      if a.movesThread then
        (threadStep s.threads a).map fun threads => { s with threads := threads }
      else none

/-- The broker when {lit}`main` enters its loop: all threads have been created. -/
def Service.start (topicNames : List Bytes)
    (garbage : Nat → OutgoingBufferElement topicNames.length) : Service topicNames.length where
  mainLoop := MainLoop.start topicNames
  position := none
  threads := Threads.start garbage (fun _ => true) true
  received := []
  executed := []
  responses := []
  notifications := []

/-- The broker as a transition system. -/
def service (topicNames : List Bytes) :
    System (Service topicNames.length) (ServiceStep topicNames.length) where
  initial := fun s => ∃ garbage, s = Service.start topicNames garbage
  step := serviceStep

/-! ## What a step can do -/

/-- The steps of the broker. -/
inductive ServiceMoves (s : Service n) : ServiceStep n → Service n → Prop
  | accept {accepted : Accepted} {mainLoop : MainLoop} (hposition : s.position = none)
      (haccept : mainLoopStep s.mainLoop (.accept accepted) = some mainLoop) :
      ServiceMoves s (.accept accepted) { s with mainLoop := mainLoop }
  | receive {connectionSocketPtr : SocketPtr} {rest : List SocketPtr} {socket : Socket}
      {bytes receiveBuffer : Bytes} (hposition : s.position = none)
      (hwalker : s.mainLoop.walker = connectionSocketPtr :: rest)
      (hsocket : s.mainLoop.socket connectionSocketPtr = some socket)
      (hreceived : recvInto s.mainLoop.receiveBuffer brokerReceiveBufferSize bytes =
        some receiveBuffer) :
      ServiceMoves s (.receive (.data bytes)) { s with
        mainLoop := { s.mainLoop with receiveBuffer := receiveBuffer }
        position := some 0
        received := s.received ++ [(socket, bytes)] }
  /-- there is nothing to receive, or the connection has been closed -/
  | poll {incoming : Incoming} {mainLoop : MainLoop} (hposition : s.position = none)
      (hnothing : ∀ bytes, incoming ≠ .data bytes)
      (hserve : serveRound s.mainLoop incoming =
        some (mainLoop, (⟨mainLoop.topics, [], []⟩ : Produced n))) :
      ServiceMoves s (.receive incoming) { s with mainLoop := mainLoop }
  | execute {connectionSocketPtr : SocketPtr} {rest : List SocketPtr} {socket : Socket}
      {i length : Nat} {node : Addr} {execution : Execution} {threads threads' : Threads n}
      (hposition : s.position = some i) (hidle : s.threads.producing .main = none)
      (hwalker : s.mainLoop.walker = connectionSocketPtr :: rest)
      (hsocket : s.mainLoop.socket connectionSocketPtr = some socket)
      (hmark : s.mainLoop.receiveBuffer[i]? = some hashtag)
      (hexecution : executeCommand s.mainLoop.topics (s.mainLoop.receiveBuffer.drop (i + 1))
        connectionSocketPtr = some execution)
      (henqueue : s.threads.enqueuePublished node (publishedBy s.mainLoop.topics
        (s.mainLoop.receiveBuffer.drop (i + 1))) = some threads)
      (hrespond : threads.produceResponse socket execution.response = some threads')
      (hscan : scanUntil 0 (s.mainLoop.receiveBuffer.drop i) = some length) :
      ServiceMoves s (.execute node) { s with
        mainLoop := { s.mainLoop with topics := execution.topics }
        position := some (i + length + 1)
        threads := threads'
        executed := s.executed ++ [s.mainLoop.topics]
        responses := s.responses ++ execution.response.toList.map fun response =>
          ⟨some response, .connectionSocket socket⟩
        notifications := s.notifications ++ execution.notification.toList }
  | finish {connectionSocketPtr : SocketPtr} {rest : List SocketPtr} {i : Nat} {b : Byte}
      {receiveBuffer : Bytes} (hposition : s.position = some i)
      (hidle : s.threads.producing .main = none)
      (hwalker : s.mainLoop.walker = connectionSocketPtr :: rest)
      (hbyte : s.mainLoop.receiveBuffer[i]? = some b) (hmark : b ≠ hashtag)
      (hcleared : zeroFill s.mainLoop.receiveBuffer brokerReceiveBufferSize =
        some receiveBuffer) :
      ServiceMoves s .finish { s with
        mainLoop := { s.mainLoop with walker := rest, receiveBuffer := receiveBuffer }
        position := none }
  | thread {a : Action n} {threads : Threads n} (hmoves : a.movesThread = true)
      (hstep : threadStep s.threads a = some threads) :
      ServiceMoves s (.thread a) { s with threads := threads }

/-- The steps are these and no others. -/
theorem serviceStep_moves {s s' : Service n} {l : ServiceStep n}
    (h : serviceStep s l = some s') : ServiceMoves s l s' := by
  cases l with
  | accept accepted =>
      simp only [serviceStep] at h
      split at h
      · next hposition =>
        rw [Option.map_eq_some_iff] at h
        rcases h with ⟨mainLoop, haccept, rfl⟩
        exact ServiceMoves.accept hposition haccept
      · contradiction
  | receive incoming =>
      simp only [serviceStep] at h
      split at h
      · next p rest hposition hwalker =>
        rw [Option.bind_eq_bind, Option.bind_eq_some_iff] at h
        rcases h with ⟨socket, hsocket, h⟩
        cases incoming with
        | selectError | willBlock | recvError =>
            simp only [receiveCommands, Option.bind_eq_bind, Option.bind_some, Option.pure_def,
              Option.some.injEq] at h
            rw [← h]
            apply ServiceMoves.poll hposition (by simp)
            simp [serveRound, hwalker, receiveCommands]
        | closed =>
            simp only [receiveCommands, Option.bind_eq_bind, Option.bind_some, Option.pure_def,
              Option.some.injEq] at h
            rw [← h]
            apply ServiceMoves.poll hposition (by simp)
            simp [serveRound, hwalker, receiveCommands]
        | data bytes =>
            simp only [receiveCommands, Option.bind_eq_bind, Option.bind_eq_some_iff,
              Option.map_eq_some_iff] at h
            rcases h with ⟨-, ⟨receiveBuffer, hreceived, rfl⟩, h⟩
            rw [Option.pure_def, Option.some.injEq] at h
            rw [← h]
            exact ServiceMoves.receive hposition hwalker hsocket hreceived
      · contradiction
  | execute node =>
      simp only [serviceStep] at h
      split at h
      · next i p rest hposition hwalker =>
        split at h
        · next hcond =>
          simp only [executeNext, Option.bind_eq_bind, Option.bind_eq_some_iff, Option.pure_def,
            Option.some.injEq] at h
          rcases h with ⟨socket, hsocket, execution, hexecution, threads, henqueue, threads',
            hrespond, length, hscan, rfl⟩
          exact ServiceMoves.execute hposition hcond.1 hwalker hsocket hcond.2 hexecution henqueue
            hrespond hscan
        · contradiction
      · contradiction
  | finish =>
      simp only [serviceStep] at h
      split at h
      · next i p rest hposition hwalker =>
        rw [Option.bind_eq_bind, Option.bind_eq_some_iff] at h
        rcases h with ⟨b, hbyte, h⟩
        split at h
        · next hcond =>
          simp only [Option.bind_eq_bind, Option.bind_eq_some_iff, Option.pure_def,
            Option.some.injEq] at h
          rcases h with ⟨receiveBuffer, hcleared, rfl⟩
          exact ServiceMoves.finish hposition hcond.1 hwalker hbyte hcond.2 hcleared
        · contradiction
      · contradiction
  | thread a =>
      simp only [serviceStep] at h
      split at h
      · next hmoves =>
        rw [Option.map_eq_some_iff] at h
        rcases h with ⟨threads, hstep, rfl⟩
        exact ServiceMoves.thread hmoves hstep
      · contradiction

/-! ## Seen from the main thread -/

/-- The main loop with everything that it has handed on. -/
structure LoggedMainLoop (n : Nat) where
  mainLoop : MainLoop
  responses : List (OutgoingBufferElement n)
  notifications : List Bytes

/-- A step of the main loop, and what it hands on. -/
def loggedStep (s : LoggedMainLoop n) : MainLoopStep → Option (LoggedMainLoop n)
  | .accept accepted =>
      (mainLoopStep s.mainLoop (.accept accepted)).map fun mainLoop =>
        { s with mainLoop := mainLoop }
  | .serve incoming =>
      (serveRound s.mainLoop incoming).map fun (mainLoop, produced) =>
        ⟨mainLoop, s.responses ++ produced.responses, s.notifications ++ produced.notifications⟩

/-- The main loop that executes the commands of a receive in one step. -/
def loggedMainLoop (n : Nat) (topicNames : List Bytes) :
    System (LoggedMainLoop n) MainLoopStep where
  initial := fun s => s = ⟨MainLoop.start topicNames, [], []⟩
  step := loggedStep

/-- What a receive makes of the topics does not depend on what its commands hand on. -/
theorem executeLoop_topics (connectionSocketPtr : SocketPtr) (socket : Socket) (i : Nat)
    (bs : Bytes) (produced : Produced n) :
    (frameLoop hashtag
        (fun _ command => executeCommandAndProduce connectionSocketPtr socket command) false i bs
        produced).map (fun r => r.1.topics) =
      (frameLoop hashtag
        (fun _ command topics => (executeCommand topics command connectionSocketPtr).map
          Execution.topics) false i bs produced.topics).map Prod.fst := by
  rw [← frameLoop_map Produced.topics, Option.map_map]
  · rfl
  · intro i command produced
    rw [executeCommandAndProduce, Option.map_map]
    rfl

/-- The rest of a round, from index {lit}`i` of the receive buffer on. -/
def finishRound (s : MainLoop) (i : Nat) (produced : Produced n) : Option (MainLoop × Produced n) :=
  match s.walker with
  | [] => none
  | connectionSocketPtr :: rest => do
      let socket ← s.socket connectionSocketPtr
      let (produced, _) ←
        frameLoop hashtag
          (fun _ command => executeCommandAndProduce connectionSocketPtr socket command)
          false i (s.receiveBuffer.drop i) produced
      let receiveBuffer ← zeroFill s.receiveBuffer brokerReceiveBufferSize
      return ({ s with
        topics := produced.topics
        walker := rest
        receiveBuffer := receiveBuffer }, produced)

/-- The main loop goes on with the topics alone. -/
theorem finishRound_fst (s : MainLoop) (i : Nat) (produced : Produced n) :
    (finishRound s i produced).map Prod.fst =
      match s.walker with
      | [] => none
      | connectionSocketPtr :: rest =>
          (s.socket connectionSocketPtr).bind fun _ =>
            ((frameLoop hashtag
              (fun _ command topics => (executeCommand topics command connectionSocketPtr).map
                Execution.topics) false i (s.receiveBuffer.drop i) produced.topics).map
              Prod.fst).bind fun topics =>
                (zeroFill s.receiveBuffer brokerReceiveBufferSize).map fun receiveBuffer =>
                  { s with topics := topics, walker := rest, receiveBuffer := receiveBuffer } := by
  unfold finishRound
  split
  · rfl
  next p rest hwalker =>
    simp only [Option.bind_eq_bind, Option.map_bind, Option.pure_def]
    congr 1
    funext socket
    rw [← executeLoop_topics p socket i (s.receiveBuffer.drop i) produced, Option.bind_map,
      Function.comp_apply, Option.map_bind]
    apply Option.bind_congr
    intro r hr
    rw [Function.comp_apply, Function.comp_apply, Option.map_bind, Option.map_eq_bind]
    rfl

theorem serveRound_data {s : MainLoop} {connectionSocketPtr : SocketPtr} {rest : List SocketPtr}
    (hwalker : s.walker = connectionSocketPtr :: rest) (bytes : Bytes) :
    (serveRound s (.data bytes) : Option (MainLoop × Produced n)) =
      (recvInto s.receiveBuffer brokerReceiveBufferSize bytes).bind fun receiveBuffer =>
        finishRound { s with receiveBuffer := receiveBuffer } 0 ⟨s.topics, [], []⟩ := by
  simp only [serveRound, hwalker, receiveCommands, Option.bind_eq_bind, Option.bind_map]
  congr 1

/-- So the main loop is the same for any number of topic threads. -/
theorem serveRound_fst (s : MainLoop) (incoming : Incoming) :
    (serveRound s incoming : Option (MainLoop × Produced n)).map Prod.fst =
      (serveRound s incoming : Option (MainLoop × Produced 0)).map Prod.fst := by
  cases hwalker : s.walker with
  | nil => simp [serveRound, hwalker]
  | cons p rest =>
      cases incoming with
      | selectError | willBlock | recvError | closed =>
          simp [serveRound, hwalker, receiveCommands]
      | data bytes =>
          rw [serveRound_data hwalker, serveRound_data hwalker, Option.map_bind, Option.map_bind]
          congr 1
          funext receiveBuffer
          rw [Function.comp_apply, Function.comp_apply, finishRound_fst, finishRound_fst]

/-- What is true of the main loop is true of it here. -/
theorem mainLoop_of_logged {topicNames : List Bytes} {s : LoggedMainLoop n}
    (hreach : (loggedMainLoop n topicNames).Reachable s) :
    (mainLoop topicNames).Reachable s.mainLoop := by
  refine hreach.invariant (fun s => (mainLoop topicNames).Reachable s.mainLoop) ?_ ?_
  · rintro s rfl
    exact System.Reachable.start rfl
  · intro s l s' hs hstep
    have hmain : mainLoopStep s.mainLoop l = some s'.mainLoop := by
      cases l with
      | accept accepted =>
          simp only [loggedMainLoop, loggedStep, Option.map_eq_some_iff] at hstep
          rcases hstep with ⟨t, ht, rfl⟩
          exact ht
      | serve incoming =>
          simp only [loggedMainLoop, loggedStep, Option.map_eq_some_iff] at hstep
          rcases hstep with ⟨⟨t, produced⟩, ht, rfl⟩
          rw [mainLoopStep, ← serveRound_fst (n := n), ht]
          rfl
    exact hs.step hmain

/-- Where the main thread stands in its loop, the service has done what the main loop has
done before the round, and of the round everything up to the position. -/
structure InRound (s : Service n) (m : LoggedMainLoop n) (i : Nat) : Prop where
  connection : ∃ connectionSocketPtr rest socket,
    s.mainLoop.walker = connectionSocketPtr :: rest ∧
      s.mainLoop.socket connectionSocketPtr = some socket
  round : ∃ bytes, ∃ produced : Produced n, s.mainLoop.topics = produced.topics ∧
    s.responses = m.responses ++ produced.responses ∧
    s.notifications = m.notifications ++ produced.notifications ∧
    serveRound m.mainLoop (.data bytes) = finishRound s.mainLoop i produced

/-- The main loop as it is before the round in which the main thread stands. -/
def Serves (s : Service n) (m : LoggedMainLoop n) : Prop :=
  match s.position with
  | none => m = ⟨s.mainLoop, s.responses, s.notifications⟩
  | some i => InRound s m i

/-- One more command of the round. -/
theorem finishRound_execute {s : MainLoop} {connectionSocketPtr : SocketPtr}
    {rest : List SocketPtr} (hwalker : s.walker = connectionSocketPtr :: rest) {socket : Socket}
    (hsocket : s.socket connectionSocketPtr = some socket) {i : Nat}
    (hmark : s.receiveBuffer[i]? = some hashtag) {execution : Execution}
    {produced : Produced n} (htopics : s.topics = produced.topics)
    (hexecution : executeCommand s.topics (s.receiveBuffer.drop (i + 1)) connectionSocketPtr =
      some execution) {length : Nat} (hscan : scanUntil 0 (s.receiveBuffer.drop i) = some length) :
    finishRound s i produced =
      finishRound { s with topics := execution.topics } (i + length + 1)
        ⟨execution.topics,
          produced.responses ++ execution.response.toList.map fun response =>
            ⟨some response, .connectionSocket socket⟩,
          produced.notifications ++ execution.notification.toList⟩ := by
  have hdrop : s.receiveBuffer.drop i = hashtag :: s.receiveBuffer.drop (i + 1) := by
    rcases List.getElem?_eq_some_iff.mp hmark with ⟨hi, hbyte⟩
    rw [← hbyte, List.drop_eq_getElem_cons hi]
  have hskip : ∃ k, length = k + 1 ∧ scanUntil 0 (s.receiveBuffer.drop (i + 1)) = some k := by
    rw [hdrop, scanUntil, if_neg hashtag_ne_nul, Option.map_eq_some_iff] at hscan
    rcases hscan with ⟨k, hk, rfl⟩
    exact ⟨k, rfl, hk⟩
  rcases hskip with ⟨k, rfl, hskip⟩
  have hbehind : (s.receiveBuffer.drop (i + 1)).drop (k + 1) =
      s.receiveBuffer.drop (i + (k + 1) + 1) := by
    rw [List.drop_drop]
    congr 1
    omega
  simp only [finishRound, hwalker, hsocket, hdrop, frameLoop, if_true, executeCommandAndProduce,
    ← htopics, hexecution, Option.map_some, Option.bind_eq_bind, Option.bind_some]
  rw [frameLoop_skipTo hskip, hbehind]
  congr 3
  omega

/-- The end of a round. -/
theorem finishRound_stop {s : MainLoop} {connectionSocketPtr : SocketPtr} {rest : List SocketPtr}
    (hwalker : s.walker = connectionSocketPtr :: rest) {socket : Socket}
    (hsocket : s.socket connectionSocketPtr = some socket) {i : Nat} {b : Byte}
    (hbyte : s.receiveBuffer[i]? = some b) (hmark : b ≠ hashtag) {receiveBuffer : Bytes}
    (hcleared : zeroFill s.receiveBuffer brokerReceiveBufferSize = some receiveBuffer)
    {produced : Produced n} (htopics : s.topics = produced.topics) :
    finishRound s i produced =
      some ({ s with walker := rest, receiveBuffer := receiveBuffer }, produced) := by
  rcases List.getElem?_eq_some_iff.mp hbyte with ⟨hi, hbyte⟩
  have hdrop : s.receiveBuffer.drop i = b :: s.receiveBuffer.drop (i + 1) := by
    rw [← hbyte, List.drop_eq_getElem_cons hi]
  simp only [finishRound, hwalker, hsocket, hdrop, frameLoop_stop hmark, hcleared,
    Option.bind_eq_bind, Option.bind_some, Option.pure_def, htopics]

/-- Every step of the service is one of the main loop, or none. -/
theorem service_simulates (topicNames : List Bytes) :
    System.Simulation (service topicNames) (fun _ _ => True)
      (loggedMainLoop topicNames.length topicNames) Serves where
  initial := by
    rintro s ⟨garbage, rfl⟩
    exact ⟨_, rfl, rfl⟩
  step := by
    intro s l s' m hs _ hstep
    have hmoves := serviceStep_moves hstep
    unfold Serves at hs ⊢
    cases hmoves with
    | @accept accepted mainLoop hposition haccept =>
        rw [hposition] at hs
        subst hs
        refine .inr ⟨.accept accepted, ⟨mainLoop, s.responses, s.notifications⟩, ?_, ?_⟩
        · simp only [loggedMainLoop, loggedStep, haccept, Option.map_some]
        · rw [hposition]
    | @receive p rest socket bytes receiveBuffer hposition hwalker hsocket hreceived =>
        rw [hposition] at hs
        subst hs
        refine .inl ⟨⟨p, rest, socket, hwalker, hsocket⟩, bytes, ⟨s.mainLoop.topics, [], []⟩, rfl,
          (List.append_nil _).symm, (List.append_nil _).symm, ?_⟩
        rw [serveRound_data hwalker, hreceived, Option.bind_some]
    | @poll incoming mainLoop hposition hnothing hserve =>
        rw [hposition] at hs
        subst hs
        refine .inr ⟨.serve incoming, ⟨mainLoop, s.responses, s.notifications⟩, ?_, ?_⟩
        · simp only [loggedMainLoop, loggedStep, hserve, Option.map_some, List.append_nil]
        · rw [hposition]
    | @execute p rest socket i length node execution threads threads' hposition hidle hwalker
        hsocket hmark hexecution henqueue hrespond hscan =>
        rw [hposition] at hs
        rcases hs.round with ⟨bytes, produced, htopics, hresponses, hnotifications, hround⟩
        refine .inl ⟨⟨p, rest, socket, hwalker, hsocket⟩, bytes, _, rfl, ?_, ?_, hround.trans
          (finishRound_execute hwalker hsocket hmark htopics hexecution hscan)⟩
        · rw [hresponses, List.append_assoc]
        · rw [hnotifications, List.append_assoc]
    | @finish p rest i b receiveBuffer hposition hidle hwalker hbyte hmark hcleared =>
        rw [hposition] at hs
        rcases hs.connection with ⟨p', rest', socket, hwalker', hsocket⟩
        rcases hs.round with ⟨bytes, produced, htopics, hresponses, hnotifications, hround⟩
        rw [hwalker, List.cons.injEq] at hwalker'
        rcases hwalker' with ⟨rfl, rfl⟩
        rw [finishRound_stop hwalker hsocket hbyte hmark hcleared htopics] at hround
        refine .inr ⟨.serve (.data bytes), _, ?_, rfl⟩
        simp only [loggedMainLoop, loggedStep, hround, Option.map_some, hresponses, hnotifications]
    | thread hmoves hstep =>
        left
        cases hposition : s.position with
        | none =>
            rw [hposition] at hs
            exact hs
        | some i =>
            rw [hposition] at hs
            exact ⟨hs.connection, hs.round⟩

/-- Whatever the other threads do between two commands, the main thread executes the commands
of a receive as if there were no other threads: the main loop, what it has responded and what
it has told the stats manager are those of a main loop that runs alone. -/
theorem service_refines_mainLoop (topicNames : List Bytes) :
    System.Simulation (service topicNames) (fun _ _ => True)
        (loggedMainLoop topicNames.length topicNames) Serves ∧
      ∀ s, (service topicNames).Reachable s → s.position = none →
        (mainLoop topicNames).Reachable s.mainLoop := by
  refine ⟨service_simulates topicNames, fun s hreach hposition => ?_⟩
  rcases (service_simulates topicNames).reachable hreach with ⟨m, hm, hserves⟩
  rw [Serves, hposition] at hserves
  subst hserves
  exact mainLoop_of_logged hm

/-! ## Seen from the threads -/

/-- The threads of a broker that has been able to create all of them. -/
abbrev allThreads (n : Nat) : System (Threads n) (Action n) :=
  threadSystem (fun _ => true) true

/-- A call of {lit}`enqueue` or none. -/
theorem enqueuePublished_cases {threads threads' : Threads n} {node : Addr}
    {published : Option (Nat × Bytes)}
    (h : threads.enqueuePublished node published = some threads') :
    (published = none ∧ threads' = threads) ∨ ∃ (t : Fin n) (message : Bytes),
      published = some (t.val, message) ∧
        threadStep threads (.publish t message node) = some threads' := by
  cases published with
  | none =>
      rw [Threads.enqueuePublished, Option.some.injEq] at h
      exact .inl ⟨rfl, h.symm⟩
  | some published =>
      rw [Threads.enqueuePublished] at h
      split at h
      · next hi => exact .inr ⟨⟨published.1, hi⟩, published.2, rfl, h⟩
      · contradiction

/-- A call of {lit}`produce_new_message` or none. -/
theorem produceResponse_cases {threads threads' : Threads n} {socket : Socket}
    {response : Option Bytes} (h : threads.produceResponse socket response = some threads') :
    (response = none ∧ threads' = threads) ∨ ∃ bytes, response = some bytes ∧
      threadStep threads (.respond bytes socket) = some threads' := by
  cases response with
  | none =>
      rw [Threads.produceResponse, Option.some.injEq] at h
      exact .inl ⟨rfl, h.symm⟩
  | some response => exact .inr ⟨response, rfl, h⟩

/-- What holds of the threads when they are left alone, when the main thread publishes and
when it responds, holds of them in the broker. -/
theorem serviceMoves_threads {P : Threads n → Prop}
    (hthread : ∀ threads a threads', P threads → a ≠ .shutDown →
      threadStep threads a = some threads' → P threads')
    {s s' : Service n} {l : ServiceStep n} (hmoves : ServiceMoves s l s') (hs : P s.threads) :
    P s'.threads := by
  cases hmoves with
  | accept | receive | poll | finish => exact hs
  | @execute _ _ _ _ _ _ _ threads threads' _ _ _ _ _ _ henqueue hrespond _ =>
      have hthreads : P threads := by
        rcases enqueuePublished_cases henqueue with ⟨-, rfl⟩ | ⟨t, message, -, hstep⟩
        · exact hs
        · exact hthread _ _ _ hs (by simp) hstep
      rcases produceResponse_cases hrespond with ⟨-, rfl⟩ | ⟨bytes, -, hstep⟩
      · exact hthreads
      · exact hthread _ _ _ hthreads (by simp) hstep
  | @thread a threads hmoves hstep =>
      refine hthread _ _ _ hs ?_ hstep
      rintro rfl
      contradiction

/-- The main thread never shuts the threads down. -/
theorem threads_of_service {topicNames : List Bytes}
    {allowed : Service topicNames.length → ServiceStep topicNames.length → Prop}
    {s : Service topicNames.length} (hreach : (service topicNames).ReachableVia allowed s) :
    (allThreads topicNames.length).ReachableVia KeepsRunning s.threads := by
  refine hreach.invariant
    (fun s => (allThreads topicNames.length).ReachableVia KeepsRunning s.threads) ?_ ?_
  · rintro s ⟨garbage, rfl⟩
    exact System.ReachableVia.start ⟨garbage, rfl⟩
  · intro s l s' hs _ hstep
    exact serviceMoves_threads (fun _ _ _ hs hrun hstep => hs.step hrun hstep)
      (serviceStep_moves hstep) hs

/-! ## What the two sides know of each other -/

/-- The topics keep their names, their messages are the ones that {lit}`enqueue` has been called
with, and what the main thread has responded is what {lit}`produce_new_message` has put or is
about to. -/
structure Glued (topicNames : List Bytes) (s : Service topicNames.length) : Prop where
  names : s.mainLoop.topics.map Topic.name = topicNames
  queues : ∀ t : Fin topicNames.length,
    (s.mainLoop.topics.map Topic.messageQueue)[t.val]? = some (s.threads.log.published t)
  responses : s.threads.log.responses ++ (s.threads.heldBy .main).toList = s.responses

/-- The moves of the threads publish nothing, and respond what they have been given. -/
theorem movesThread_logs {s s' : Threads n} (hs : DeliveryInv s) {a : Action n}
    (hmoves : a.movesThread = true) (hstep : threadStep s a = some s') :
    s'.log.published = s.log.published ∧
      s'.log.responses ++ (s'.heldBy .main).toList =
        s.log.responses ++ (s.heldBy .main).toList := by
  have hproduce : ∀ {w pc}, s.producing w = some pc → produceNewMessage s w pc = some s' →
      s'.log.published = s.log.published ∧
        s'.log.responses ++ (s'.heldBy .main).toList =
          s.log.responses ++ (s.heldBy .main).toList := by
    intro w pc hprod hcall
    cases produceNewMessage_cases hcall with
    | move owner helem =>
        refine ⟨rfl, ?_⟩
        rw [heldBy_setProducing_of_element (s := { s with bufferLock := owner }) hprod helem]
        rfl
    | giveUp hflag =>
        rw [hs.running] at hflag
        contradiction
    | put e =>
        refine ⟨rfl, ?_⟩
        rw [heldBy_setProducing]
        by_cases hw : w = .main
        · subst hw
          simp [heldBy, hprod, ProducePc.element, Threads.setProducing, Threads.wakeFillCv]
        · rw [Function.update_of_ne (Ne.symm hw)]
          simp [hw, heldBy, Threads.setProducing, Threads.wakeFillCv]
  cases threadStep_cases hstep with
  | publish | respond | shutDown => contradiction
  | main hprod hcall => exact hproduce hprod hcall
  | topic hstep =>
      cases produce_cases hstep with
      | move | signal => exact ⟨rfl, rfl⟩
      | callNull hpc hflag =>
          rw [hs.running] at hflag
          contradiction
      | take hpc hdequeue =>
          refine ⟨rfl, ?_⟩
          rw [heldBy_setProducing, Function.update_of_ne (by simp)]
          rfl
      | call hprod hcall => exact hproduce hprod hcall
  | consumer hstep =>
      cases consume_cases hstep with
      | move | get | sent | signal => exact ⟨rfl, rfl⟩
      | leave hpc hwake =>
          rcases wakeEmptyCv_cases hwake with rfl | ⟨w, rfl⟩
          · exact ⟨rfl, rfl⟩
          · refine ⟨rfl, ?_⟩
            rw [← heldBy_wakeProducer s w]
            rfl
  | spurious w =>
      refine ⟨by cases w <;> rfl, ?_⟩
      rw [← heldBy_wakeProducer s w]
      cases w with
      | main | topic i => rfl
      | consumer => rw [heldBy_wakeProducer]; rfl

/-- A call of {lit}`enqueue` keeps the two sides together. -/
theorem enqueued_queues {queues : List (List Bytes)} {published : Fin n → List Bytes}
    (hqueues : ∀ t : Fin n, queues[t.val]? = some (published t)) (t : Fin n) (message : Bytes)
    (i : Fin n) : (enqueued queues (some (t.val, message)))[i.val]? =
      some (Function.update published t (published t ++ [message]) i) := by
  rw [enqueued, List.getElem?_modify, hqueues i]
  by_cases hi : i = t
  · subst hi
    simp
  · have hne : t.val ≠ i.val := fun h => hi (Fin.ext h.symm)
    simp [hne, Function.update_of_ne hi]

/-- A round without a receive. -/
theorem serveRound_nothing {s s' : MainLoop} {incoming : Incoming} {produced : Produced n}
    (hnothing : ∀ bytes, incoming ≠ .data bytes)
    (h : serveRound s incoming = some (s', produced)) :
    s'.receiveBuffer = s.receiveBuffer ∧ (s'.topics = s.topics ∨
      ∃ connectionSocketPtr, s'.topics = s.topics.map fun topic =>
        topic.freeNode connectionSocketPtr) := by
  unfold serveRound at h
  split at h
  · contradiction
  next p rest hwalker =>
    cases incoming with
    | selectError | willBlock | recvError =>
        simp only [receiveCommands, Option.bind_eq_bind, Option.bind_some, Option.pure_def,
          Option.some.injEq, Prod.mk.injEq] at h
        rcases h with ⟨rfl, -⟩
        exact ⟨rfl, .inl rfl⟩
    | closed =>
        simp only [receiveCommands, Option.bind_eq_bind, Option.bind_some, Option.pure_def,
          Option.some.injEq, Prod.mk.injEq] at h
        rcases h with ⟨rfl, -⟩
        exact ⟨rfl, .inr ⟨p, rfl⟩⟩
    | data bytes => exact absurd rfl (hnothing bytes)

theorem freeNode_namesAndQueues (topics : List Topic) (connectionSocketPtr : SocketPtr) :
    namesAndQueues (topics.map fun topic => topic.freeNode connectionSocketPtr) =
      namesAndQueues topics := by
  simp [namesAndQueues, Topic.freeNode, Function.comp_def]

/-- The main loop has changed neither names nor queues. -/
theorem Glued.of_namesAndQueues {topicNames : List Bytes} {s s' : Service topicNames.length}
    (hs : Glued topicNames s)
    (hsame : namesAndQueues s'.mainLoop.topics = namesAndQueues s.mainLoop.topics)
    (hthreads : s'.threads = s.threads) (hresponses : s'.responses = s.responses) :
    Glued topicNames s' := by
  rw [namesAndQueues, namesAndQueues, Prod.mk.injEq] at hsame
  constructor
  · rw [hsame.1, hs.names]
  · rw [hsame.2, hthreads]
    exact hs.queues
  · rw [hthreads, hresponses, hs.responses]

/-- The main thread hands over what the command publishes and responds. -/
theorem Glued.execute {topicNames : List Bytes} {s : Service topicNames.length}
    (hs : Glued topicNames s) (hidle : s.threads.producing .main = none)
    {published : Option (Nat × Bytes)} {topics : List Topic}
    (htopics : namesAndQueues topics = (s.mainLoop.topics.map Topic.name,
      enqueued (s.mainLoop.topics.map Topic.messageQueue) published))
    {node : Addr} {threads threads' : Threads topicNames.length}
    (henqueue : s.threads.enqueuePublished node published = some threads) {socket : Socket}
    {response : Option Bytes} (hrespond : threads.produceResponse socket response = some threads')
    {position : Option Nat} {executed : List (List Topic)} {notifications : List Bytes} :
    Glued topicNames { s with
      mainLoop := { s.mainLoop with topics := topics }
      position := position
      threads := threads'
      executed := executed
      responses := s.responses ++ response.toList.map fun response =>
        ⟨some response, .connectionSocket socket⟩
      notifications := notifications } := by
  rw [namesAndQueues, Prod.mk.injEq] at htopics
  have hresponses : s.threads.log.responses = s.responses := by
    rw [← hs.responses]
    simp [heldBy, hidle]
  -- enqueue() logs the message, and leaves what the main thread holds alone
  have hthreads : (∀ t : Fin topicNames.length,
      (topics.map Topic.messageQueue)[t.val]? = some (threads.log.published t)) ∧
        threads.log.responses = s.responses ∧ threads.producing .main = none := by
    rw [htopics.2]
    rcases enqueuePublished_cases henqueue with ⟨rfl, rfl⟩ | ⟨t, message, rfl, hstep⟩
    · exact ⟨hs.queues, hresponses, hidle⟩
    · rcases enqueue_cases hstep with ⟨-, -, -, nodes, q, -, rfl⟩
      exact ⟨enqueued_queues hs.queues t message, hresponses, hidle⟩
  rcases hthreads with ⟨hqueues, hresponses', hidle'⟩
  rcases produceResponse_cases hrespond with ⟨rfl, rfl⟩ | ⟨bytes, rfl, hstep⟩
  · refine ⟨htopics.1.trans hs.names, hqueues, ?_⟩
    simp [heldBy, hidle', hresponses']
  · rw [threadStep, if_pos hidle', Option.some.injEq] at hstep
    subst hstep
    refine ⟨htopics.1.trans hs.names, hqueues, ?_⟩
    rw [heldBy_setProducing, Function.update_self, ← hresponses']
    rfl

theorem glued_of_service {topicNames : List Bytes}
    {allowed : Service topicNames.length → ServiceStep topicNames.length → Prop}
    {s : Service topicNames.length} (hreach : (service topicNames).ReachableVia allowed s) :
    Glued topicNames s := by
  have hboth : (service topicNames).Reachable s ∧ Glued topicNames s := by
    refine hreach.invariant (fun s => (service topicNames).Reachable s ∧ Glued topicNames s) ?_ ?_
    · rintro s ⟨garbage, rfl⟩
      refine ⟨System.Reachable.start ⟨garbage, rfl⟩, ?_, ?_, rfl⟩
      · simp [Service.start, MainLoop.start, Function.comp_def]
      · intro t
        simp [Service.start, MainLoop.start, Threads.start]
    · rintro s l s' ⟨hs, hglued⟩ - hstep
      refine ⟨hs.step hstep, ?_⟩
      have hdelivery := (invariants_of_keepsRunning (threads_of_service hs)).2
      cases serviceStep_moves hstep with
      | accept hposition haccept =>
          rcases mainLoopStep_accept_eq_some_iff.mp haccept with ⟨-, t, ht, rfl⟩
          have htopics := (acceptConnection_cases ht).1
          exact hglued.of_namesAndQueues (congrArg namesAndQueues htopics) rfl rfl
      | receive => exact ⟨hglued.names, hglued.queues, hglued.responses⟩
      | poll hposition hnothing hserve =>
          refine hglued.of_namesAndQueues ?_ rfl rfl
          rcases (serveRound_nothing hnothing hserve).2 with htopics | ⟨p, htopics⟩
          · rw [htopics]
          · rw [htopics, freeNode_namesAndQueues]
      | finish => exact ⟨hglued.names, hglued.queues, hglued.responses⟩
      | execute hposition hidle hwalker hsocket hmark hexecution henqueue hrespond hscan =>
          exact hglued.execute hidle (executeCommand_queues hexecution) henqueue hrespond
      | thread hmoves hthread =>
          rcases movesThread_logs hdelivery hmoves hthread with ⟨hpublished, hresponses⟩
          exact ⟨hglued.names, hpublished ▸ hglued.queues, hresponses.trans hglued.responses⟩
  exact hboth.2

end Broker
end PubSub
