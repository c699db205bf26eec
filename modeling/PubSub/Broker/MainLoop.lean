import PubSub.Broker.CommandExecution
import PubSub.Broker.OutgoingBuffer
import PubSub.Foundations.Transition

/-!
# The main loop

The main thread alternates between accepting one connection and a walk through
all connections, which receives and executes the commands that have arrived.
The walker is kept as the part of {lit}`connection_sockets` that is still to be visited.
Which addresses {lit}`malloc` returns and what the sockets report is part of the label
of a step.

A subscription is stale if its socket pointer is not in {lit}`connection_sockets` any
more.

Main results:

- Theorem {lit}`serveRound_commands`: a receive of whole commands executes them in order.
- Structure {lit}`MainLoop.Valid`: the invariant of the main loop.
- Theorem {lit}`noStaleSubscriptions_iff`: a run of the main loop leaves no stale
  subscription exactly when every connection that closes is subscribed at most once
  to each topic.
-/

namespace PubSub
namespace Broker

open Foundations Client

/-! ## The program -/

/-- The variables of the main thread.  The cells that {lit}`socket` maps to {lit}`none` are not
allocated. -/
structure MainLoop where
  topics : List Topic
  connectionSockets : List SocketPtr
  socket : SocketPtr → Option Socket
  walker : List SocketPtr
  receiveBuffer : Bytes

/-- What {lit}`accept_connection` finds out. -/
inductive Accepted where
  | selectError
  | willBlock
  /-- {lit}`accept` stores a socket in a new cell; the flag is the success of {lit}`ioctlsocket` -/
  | socket (connectionSocketPtr : SocketPtr) (socket : Socket) (nonblocking : Bool)
deriving DecidableEq, Repr

/-- What {lit}`receive_commands` returns. -/
inductive ReceiveResult where
  | received
  | notReceived
  | deleted
deriving DecidableEq, Repr

/-- {lit}`accept_connection`.  The cell is not freed if the connection is not used. -/
def acceptConnection (s : MainLoop) (accepted : Accepted) : Option MainLoop :=
  if s.connectionSockets.length > connectionSocketListMaxSize then some s
  else
    match accepted with
    | .selectError | .willBlock => some s
    | .socket connectionSocketPtr socket nonblocking =>
        if s.socket connectionSocketPtr ≠ none then none
        else
          let s := { s with socket := Function.update s.socket connectionSocketPtr (some socket) }
          if socket = invalidSocket ∨ !nonblocking then some s
          else some { s with connectionSockets := connectionSocketPtr :: s.connectionSockets }

/-- Remove the first node with the socket pointer from the subscriber list of a topic. -/
def Topic.freeNode (topic : Topic) (connectionSocketPtr : SocketPtr) : Topic :=
  { topic with
    subscriberConnectionSockets := topic.subscriberConnectionSockets.erase connectionSocketPtr }

/-- {lit}`receive_commands`.  On a closed connection it advances the walker and calls
{lit}`free_node` once for {lit}`connection_sockets` and once for every topic. -/
def receiveCommands (s : MainLoop) (connectionSocketPtr : SocketPtr) (incoming : Incoming) :
    Option (ReceiveResult × MainLoop) :=
  match incoming with
  | .selectError | .willBlock | .recvError => some (.notReceived, s)
  | .data bytes =>
      (recvInto s.receiveBuffer brokerReceiveBufferSize bytes).map fun receiveBuffer =>
        (.received, { s with receiveBuffer := receiveBuffer })
  | .closed =>
      some (.deleted, { s with
        socket := Function.update s.socket connectionSocketPtr (some invalidSocket)
        walker := s.walker.tail
        connectionSockets := s.connectionSockets.erase connectionSocketPtr
        topics := s.topics.map fun topic => topic.freeNode connectionSocketPtr })

/-- What the execution of commands changes: the topics, and what is handed on to the
outgoing buffer and to the stats manager. -/
structure Produced (n : Nat) where
  topics : List Topic
  responses : List (OutgoingBufferElement n)
  notifications : List Bytes
deriving DecidableEq, Repr

variable {n : Nat}

/-- {lit}`execute_command_and_produce`. -/
def executeCommandAndProduce (connectionSocketPtr : SocketPtr) (socket : Socket)
    (command : Bytes) (produced : Produced n) : Option (Produced n) :=
  (executeCommand produced.topics command connectionSocketPtr).map fun execution =>
    { topics := execution.topics
      responses := produced.responses ++ execution.response.toList.map fun response =>
        ⟨some response, .connectionSocket socket⟩
      notifications := produced.notifications ++ execution.notification.toList }

/-- One round of the walk in {lit}`receive_and_execute_commands`. -/
def serveRound (s : MainLoop) (incoming : Incoming) : Option (MainLoop × Produced n) :=
  match s.walker with
  | [] => none
  | connectionSocketPtr :: rest => do
      let (returnValue, s) ← receiveCommands s connectionSocketPtr incoming
      match returnValue with
      | .received =>
          let socket ← s.socket connectionSocketPtr
          let (produced, _) ←
            frameLoop hashtag
              (fun _ command => executeCommandAndProduce connectionSocketPtr socket command)
              false 0 s.receiveBuffer ⟨s.topics, [], []⟩
          let receiveBuffer ← zeroFill s.receiveBuffer brokerReceiveBufferSize
          return ({ s with
            topics := produced.topics
            walker := rest
            receiveBuffer := receiveBuffer }, produced)
      | .notReceived => return ({ s with walker := rest }, ⟨s.topics, [], []⟩)
      | .deleted => return (s, ⟨s.topics, [], []⟩)

/-- What the main thread does: a call of {lit}`accept_connection` between two walks, and a
round of a walk. -/
inductive MainLoopStep where
  | accept (accepted : Accepted)
  | serve (incoming : Incoming)
deriving DecidableEq, Repr

/-- The main loop.  A walk starts at the head of {lit}`connection_sockets`. -/
def mainLoopStep (s : MainLoop) : MainLoopStep → Option MainLoop
  | .accept accepted =>
      if s.walker = [] then
        (acceptConnection s accepted).map fun s => { s with walker := s.connectionSockets }
      else none
  | .serve incoming => (serveRound (n := 0) s incoming).map Prod.fst

/-- {lit}`main` before its loop: the topics, without messages and subscribers, in the order of
{lit}`topics`. -/
def MainLoop.start (topicNames : List Bytes) : MainLoop where
  topics := topicNames.map fun name => ⟨name, [], []⟩
  connectionSockets := []
  socket := fun _ => none
  walker := []
  receiveBuffer := zeros brokerReceiveBufferSize

/-- The main loop as a transition system. -/
def mainLoop (topicNames : List Bytes) : System MainLoop MainLoopStep where
  initial := fun s => s = MainLoop.start topicNames
  step := mainLoopStep

/-! ## Executing the commands of a receive -/

/-- The request of a command of a connection, carried out, together with what is handed
on. -/
def performAndProduce (connectionSocketPtr : SocketPtr) (socket : Socket) (c : Command)
    (produced : Produced n) : Option (Produced n) :=
  (perform produced.topics connectionSocketPtr c).map fun (topics, response, success) =>
    { topics := topics
      responses := produced.responses ++ response.toList.map fun response =>
        ⟨some response, .connectionSocket socket⟩
      notifications := produced.notifications ++ if success then [notificationOf c] else [] }

theorem executeCommandAndProduce_eq {c : Command} (hc : c.WellFormed)
    (connectionSocketPtr : SocketPtr) (socket : Socket) (rest : Bytes) (produced : Produced n) :
    executeCommandAndProduce connectionSocketPtr socket (c.text ++ 0 :: rest) produced =
      performAndProduce connectionSocketPtr socket c produced := by
  unfold executeCommandAndProduce performAndProduce
  rw [executeCommand_eq _ _ hc, Option.map_map]
  congr 1
  funext ⟨topics, response, success⟩
  cases success <;> simp

/-- The bytes of a sequence of commands. -/
def stream (cs : List Command) : Bytes :=
  framesOf hashtag (cs.map Command.text)

/-- The loop over the receive buffer executes whole commands once each and in order. -/
theorem executeLoop_eq {cs : List Command} (hcs : ∀ c ∈ cs, c.WellFormed)
    (connectionSocketPtr : SocketPtr) (socket : Socket) (rest : Bytes) (produced : Produced n) :
    frameLoop hashtag
        (fun _ command => executeCommandAndProduce connectionSocketPtr socket command) false 0
        (stream cs ++ 0 :: rest) produced =
      (cs.foldlM (fun produced c => performAndProduce connectionSocketPtr socket c produced)
        produced).map (·, (stream cs).length) := by
  have hloop := frameLoop_frames (fun c hc => (hcs c hc).text_nulFree)
    (fun c hc _ rest => executeCommandAndProduce_eq (hcs c hc) connectionSocketPtr socket rest)
    nul_ne_hashtag 0 rest produced
  simpa [stream] using hloop

/-- A receive of whole commands executes each of them once, in order, and clears the
buffer. -/
theorem serveRound_commands {s : MainLoop} {connectionSocketPtr : SocketPtr}
    {rest : List SocketPtr} (hwalker : s.walker = connectionSocketPtr :: rest)
    (hbuffer : s.receiveBuffer = zeros brokerReceiveBufferSize) {socket : Socket}
    (hsocket : s.socket connectionSocketPtr = some socket) {cs : List Command}
    (hcs : ∀ c ∈ cs, c.WellFormed) (hsize : (stream cs).length < brokerReceiveBufferSize) :
    (serveRound s (.data (stream cs)) : Option (MainLoop × Produced n)) =
      (cs.foldlM (fun produced c => performAndProduce connectionSocketPtr socket c produced)
        ⟨s.topics, [], []⟩).map fun produced =>
          ({ s with topics := produced.topics, walker := rest }, produced) := by
  have hroom : ∃ m, brokerReceiveBufferSize - (stream cs).length = m + 1 :=
    ⟨brokerReceiveBufferSize - (stream cs).length - 1, by omega⟩
  rcases hroom with ⟨m, hroom⟩
  have hreceived := recvInto_zeros (Nat.le_of_lt hsize) (Nat.le_refl brokerReceiveBufferSize)
  rw [hroom] at hreceived
  have hloop := executeLoop_eq (n := n) hcs connectionSocketPtr socket (zeros m) ⟨s.topics, [], []⟩
  have hcleared : zeroFill (stream cs ++ zeros (m + 1)) brokerReceiveBufferSize =
      some (zeros brokerReceiveBufferSize) := by
    rw [zeroFill_append_zeros (Nat.le_of_lt hsize) (by omega)]
    congr 2
    omega
  rw [zeros_succ] at hreceived hcleared
  simp only [serveRound, hwalker, receiveCommands, hbuffer, hreceived, hsocket, hcleared,
    Option.map_some, Option.bind_eq_bind, Option.bind_some, hloop]
  cases cs.foldlM (fun produced c => performAndProduce connectionSocketPtr socket c produced)
    (⟨s.topics, [], []⟩ : Produced n) with
  | none => simp
  | some produced => simp

/-! ## What a step can do -/

/-- The responses in {lit}`es` go to the given socket. -/
def RespondsTo (socket : Option Socket) (es : List (OutgoingBufferElement n)) : Prop :=
  ∀ e ∈ es, ∃ response value, socket = some value ∧ e = ⟨some response, .connectionSocket value⟩

/-- The commands of a receive subscribe nobody but the client that sent them, and are
answered to its socket. -/
theorem executeLoop_produced {connectionSocketPtr : SocketPtr} {socket : Socket}
    {receiveBuffer : Bytes} {topics : List Topic} {produced : Produced n} {i : Nat}
    (h : frameLoop hashtag
      (fun _ command => executeCommandAndProduce connectionSocketPtr socket command) false 0
      receiveBuffer ⟨topics, [], []⟩ = some (produced, i)) :
    SubscribersFrom connectionSocketPtr topics produced.topics ∧
      RespondsTo (some socket) produced.responses := by
  refine frameLoop_invariant (P := fun produced : Produced n =>
    SubscribersFrom connectionSocketPtr topics produced.topics ∧
      RespondsTo (some socket) produced.responses) ?_ h
    ⟨subscribersFrom_refl _ _, by simp [RespondsTo]⟩
  intro i command produced produced' hproduced hbody
  rw [executeCommandAndProduce, Option.map_eq_some_iff] at hbody
  rcases hbody with ⟨execution, hexecution, rfl⟩
  refine ⟨hproduced.1.trans (executeCommand_subscribers hexecution), ?_⟩
  intro e he
  rcases List.mem_append.mp he with hold | hnew
  · exact hproduced.2 e hold
  · rcases List.mem_map.mp hnew with ⟨response, -, rfl⟩
    exact ⟨response, socket, rfl, rfl⟩

/-- A call of {lit}`accept_connection` adds a connection with a new cell, or none. -/
theorem acceptConnection_cases {s s' : MainLoop} {accepted : Accepted}
    (h : acceptConnection s accepted = some s') :
    s'.topics = s.topics ∧ s'.receiveBuffer = s.receiveBuffer ∧
      (s'.connectionSockets = s.connectionSockets ∧ s'.socket = s.socket ∨
        ∃ p socket nonblocking, accepted = .socket p socket nonblocking ∧
          s.connectionSockets.length ≤ connectionSocketListMaxSize ∧ s.socket p = none ∧
          s'.socket = Function.update s.socket p (some socket) ∧
          (s'.connectionSockets = s.connectionSockets ∨
            socket ≠ invalidSocket ∧ s'.connectionSockets = p :: s.connectionSockets)) := by
  unfold acceptConnection at h
  split at h
  · rw [Option.some.injEq] at h
    subst h
    exact ⟨rfl, rfl, .inl ⟨rfl, rfl⟩⟩
  next hfull =>
  rw [gt_iff_lt, Nat.not_lt] at hfull
  cases accepted with
  | selectError | willBlock =>
      simp only [Option.some.injEq] at h
      subst h
      exact ⟨rfl, rfl, .inl ⟨rfl, rfl⟩⟩
  | socket p socket nonblocking =>
      simp only at h
      split at h
      · contradiction
      next hfresh =>
        rw [ne_eq, Classical.not_not] at hfresh
        split at h
        · rw [Option.some.injEq] at h
          subst h
          exact ⟨rfl, rfl, .inr ⟨p, socket, nonblocking, rfl, hfull, hfresh, rfl, .inl rfl⟩⟩
        · next hvalid =>
          rw [Option.some.injEq] at h
          subst h
          exact ⟨rfl, rfl, .inr ⟨p, socket, nonblocking, rfl, hfull, hfresh, rfl,
            .inr ⟨fun heq => hvalid (.inl heq), rfl⟩⟩⟩

/-- A round of a walk serves the connection at which the walker stands: it executes
commands of the connection, or does nothing, or removes it. -/
theorem serveRound_cases {s s' : MainLoop} {incoming : Incoming} {produced : Produced n}
    (h : serveRound s incoming = some (s', produced)) :
    ∃ p rest, s.walker = p :: rest ∧ s'.walker = rest ∧
      (incoming ≠ .closed ∧ s'.connectionSockets = s.connectionSockets ∧
          s'.socket = s.socket ∧ SubscribersFrom p s.topics s'.topics ∧
          RespondsTo (s.socket p) produced.responses ∨
        incoming = .closed ∧ s'.connectionSockets = s.connectionSockets.erase p ∧
          s'.socket = Function.update s.socket p (some invalidSocket) ∧
          s'.topics = s.topics.map (fun topic => topic.freeNode p) ∧ produced.responses = []) := by
  unfold serveRound at h
  split at h
  · contradiction
  next p rest hwalker =>
    refine ⟨p, rest, hwalker, ?_⟩
    cases incoming with
    | selectError | willBlock | recvError =>
        simp only [receiveCommands, Option.bind_eq_bind, Option.bind_some, Option.pure_def,
          Option.some.injEq, Prod.mk.injEq] at h
        rcases h with ⟨rfl, rfl⟩
        exact ⟨rfl, .inl ⟨by simp, rfl, rfl, subscribersFrom_refl _ _, by simp [RespondsTo]⟩⟩
    | closed =>
        simp only [receiveCommands, Option.bind_eq_bind, Option.bind_some, Option.pure_def,
          Option.some.injEq, Prod.mk.injEq] at h
        rcases h with ⟨rfl, rfl⟩
        exact ⟨by simp [hwalker], .inr ⟨rfl, rfl, rfl, rfl, rfl⟩⟩
    | data bytes =>
        simp only [receiveCommands, Option.bind_eq_bind, Option.bind_eq_some_iff,
          Option.map_eq_some_iff] at h
        rcases h with ⟨-, ⟨receiveBuffer, -, rfl⟩, h⟩
        simp only [Option.bind_eq_some_iff, Option.pure_def, Option.some.injEq,
          Prod.mk.injEq] at h
        rcases h with ⟨socket, hsocket, ⟨produced', i⟩, hloop, cleared, -, rfl, rfl⟩
        rcases executeLoop_produced hloop with ⟨hsubscribers, hresponds⟩
        exact ⟨rfl, .inl ⟨by simp, rfl, rfl, hsubscribers, by rwa [hsocket]⟩⟩

/-! ## The invariant -/

/-- The invariant of the main loop: connections and walker have no duplicates, the walker
is in the list of connections, and their cells are allocated. -/
structure MainLoop.Valid (s : MainLoop) : Prop where
  connections_nodup : s.connectionSockets.Nodup
  walker_nodup : s.walker.Nodup
  walker_subset : ∀ p ∈ s.walker, p ∈ s.connectionSockets
  allocated : ∀ p ∈ s.connectionSockets, s.socket p ≠ none

theorem start_valid (topicNames : List Bytes) : (MainLoop.start topicNames).Valid where
  connections_nodup := List.nodup_nil
  walker_nodup := List.nodup_nil
  walker_subset := by simp [MainLoop.start]
  allocated := by simp [MainLoop.start]

theorem acceptConnection_valid {s s' : MainLoop} {accepted : Accepted} (hs : s.Valid)
    (h : acceptConnection s accepted = some s') :
    s'.connectionSockets.Nodup ∧ ∀ p ∈ s'.connectionSockets, s'.socket p ≠ none := by
  rcases acceptConnection_cases h with ⟨-, -, ⟨hconnections, hsocket⟩ |
    ⟨p, socket, -, -, -, hfresh, hsocket, hconnections | ⟨-, hconnections⟩⟩⟩
  · rw [hconnections, hsocket]
    exact ⟨hs.connections_nodup, hs.allocated⟩
  · rw [hconnections, hsocket]
    refine ⟨hs.connections_nodup, fun q hq => ?_⟩
    have hne : q ≠ p := by
      intro heq
      exact hs.allocated q hq (heq ▸ hfresh)
    rw [Function.update_of_ne hne]
    exact hs.allocated q hq
  · rw [hconnections, hsocket]
    have hnot : p ∉ s.connectionSockets := fun hmem => hs.allocated p hmem hfresh
    refine ⟨List.nodup_cons.mpr ⟨hnot, hs.connections_nodup⟩, fun q hq => ?_⟩
    rcases List.mem_cons.mp hq with rfl | hmem
    · simp
    · have hne : q ≠ p := by
        intro heq
        exact hnot (heq ▸ hmem)
      rw [Function.update_of_ne hne]
      exact hs.allocated q hmem

theorem serveRound_valid {s s' : MainLoop} {incoming : Incoming} {produced : Produced n}
    (hs : s.Valid) (h : serveRound s incoming = some (s', produced)) : s'.Valid := by
  rcases serveRound_cases h with ⟨p, rest, hwalker, hwalker', hcases⟩
  have hnodup := hs.walker_nodup
  have hsubset := hs.walker_subset
  rw [hwalker] at hnodup hsubset
  rw [List.nodup_cons] at hnodup
  rcases hcases with ⟨-, hconnections, hsocket, -, -⟩ | ⟨-, hconnections, hsocket, -, -⟩
  · refine ⟨?_, ?_, ?_, ?_⟩
    · exact hconnections ▸ hs.connections_nodup
    · exact hwalker' ▸ hnodup.2
    · rw [hwalker', hconnections]
      exact fun q hq => hsubset q (List.mem_cons_of_mem _ hq)
    · rw [hconnections, hsocket]
      exact hs.allocated
  · refine ⟨?_, ?_, ?_, ?_⟩
    · exact hconnections ▸ hs.connections_nodup.erase p
    · exact hwalker' ▸ hnodup.2
    · rw [hwalker', hconnections]
      intro q hq
      have hne : q ≠ p := fun heq => hnodup.1 (heq ▸ hq)
      exact (List.mem_erase_of_ne hne).mpr (hsubset q (List.mem_cons_of_mem _ hq))
    · rw [hconnections, hsocket]
      intro q hq
      have hmem := hs.connections_nodup.mem_erase_iff.mp hq
      rw [Function.update_of_ne hmem.1]
      exact hs.allocated q hmem.2

theorem mainLoopStep_accept_eq_some_iff {s s' : MainLoop} {accepted : Accepted} :
    mainLoopStep s (.accept accepted) = some s' ↔ s.walker = [] ∧
      ∃ t, acceptConnection s accepted = some t ∧
        s' = { t with walker := t.connectionSockets } := by
  rw [mainLoopStep]
  split
  · next hwalker =>
    rw [Option.map_eq_some_iff]
    constructor
    · rintro ⟨t, ht, rfl⟩
      exact ⟨hwalker, t, ht, rfl⟩
    · rintro ⟨-, t, ht, rfl⟩
      exact ⟨t, ht, rfl⟩
  · next hwalker =>
    constructor
    · intro h
      contradiction
    · intro h
      exact absurd h.1 hwalker

theorem mainLoopStep_serve_eq_some_iff {s s' : MainLoop} {incoming : Incoming} :
    mainLoopStep s (.serve incoming) = some s' ↔
      ∃ produced : Produced 0, serveRound s incoming = some (s', produced) := by
  rw [mainLoopStep, Option.map_eq_some_iff]
  constructor
  · rintro ⟨⟨t, produced⟩, ht, rfl⟩
    exact ⟨produced, ht⟩
  · rintro ⟨produced, ht⟩
    exact ⟨(s', produced), ht, rfl⟩

/-- Every step of the main loop keeps the invariant. -/
theorem mainLoopStep_valid {s s' : MainLoop} {l : MainLoopStep} (hs : s.Valid)
    (h : mainLoopStep s l = some s') : s'.Valid := by
  cases l with
  | accept accepted =>
      rcases mainLoopStep_accept_eq_some_iff.mp h with ⟨-, t, ht, rfl⟩
      rcases acceptConnection_valid hs ht with ⟨hnodup, hallocated⟩
      exact ⟨hnodup, hnodup, fun _ hp => hp, hallocated⟩
  | serve incoming =>
      rcases mainLoopStep_serve_eq_some_iff.mp h with ⟨produced, ht⟩
      exact serveRound_valid hs ht

/-! ## Stale subscriptions -/

/-- Every socket pointer of a subscriber list is the one of an open connection. -/
def NoStaleSubscriptions (s : MainLoop) : Prop :=
  ∀ topic ∈ s.topics, ∀ p ∈ topic.subscriberConnectionSockets, p ∈ s.connectionSockets

/-- A connection that closes in this step occurs at most once in every subscriber list. -/
def ClosesSubscribedOnce (s : MainLoop) : MainLoopStep → Prop
  | .serve .closed => ∀ p, s.walker.head? = some p →
      ∀ topic ∈ s.topics, topic.subscriberConnectionSockets.count p ≤ 1
  | _ => True

/-- {lit}`free_node` removes the only subscription of a socket pointer, and no other. -/
theorem Topic.mem_freeNode_iff {topic : Topic} {p q : SocketPtr} :
    q ∈ (topic.freeNode p).subscriberConnectionSockets ↔
      q ∈ topic.subscriberConnectionSockets ∧
        (q = p → 1 < topic.subscriberConnectionSockets.count p) := by
  rw [Topic.freeNode]
  by_cases hq : q = p
  · subst hq
    rw [← List.count_pos_iff, ← List.count_pos_iff, List.count_erase_self]
    simp only [true_implies]
    omega
  · simp [hq, List.mem_erase_of_ne hq]

/-- A step that closes nothing leaves no stale subscription, and a connection that closes
leaves none if it is subscribed at most once to each topic. -/
theorem mainLoopStep_noStale {s s' : MainLoop} {l : MainLoopStep}
    (hs : s.Valid) (hstale : NoStaleSubscriptions s) (hcloses : ClosesSubscribedOnce s l)
    (h : mainLoopStep s l = some s') : NoStaleSubscriptions s' := by
  cases l with
  | accept accepted =>
      rcases mainLoopStep_accept_eq_some_iff.mp h with ⟨-, t, ht, rfl⟩
      rcases acceptConnection_cases ht with ⟨htopics, -, hcases⟩
      have hsubset : ∀ p ∈ s.connectionSockets, p ∈ t.connectionSockets := by
        intro p hp
        rcases hcases with ⟨hconnections, -⟩ |
          ⟨q, _, _, _, _, _, _, hconnections | ⟨_, hconnections⟩⟩
        · rwa [hconnections]
        · rwa [hconnections]
        · rw [hconnections]
          exact List.mem_cons_of_mem _ hp
      intro topic htopic p hp
      have hmem : topic ∈ s.topics := htopics ▸ htopic
      exact hsubset p (hstale topic hmem p hp)
  | serve incoming =>
      rcases mainLoopStep_serve_eq_some_iff.mp h with ⟨produced, ht⟩
      rcases serveRound_cases ht with ⟨p, rest, hwalker, -,
        ⟨-, hconnections, -, hsubscribers, -⟩ | ⟨rfl, hconnections, -, htopics, -⟩⟩
      · intro topic htopic q hq
        have hp : p ∈ s.connectionSockets := hs.walker_subset p (by simp [hwalker])
        rw [hconnections]
        rcases hsubscribers topic htopic q hq with rfl | ⟨topic', htopic', hq'⟩
        · exact hp
        · exact hstale topic' htopic' q hq'
      · intro topic htopic q hq
        rw [htopics] at htopic
        rcases List.mem_map.mp htopic with ⟨topic', htopic', rfl⟩
        rcases Topic.mem_freeNode_iff.mp hq with ⟨hq', htwice⟩
        have honce := hcloses p (by simp [hwalker]) topic' htopic'
        have hne : q ≠ p := by
          intro heq
          have := htwice heq
          omega
        rw [hconnections]
        exact (List.mem_erase_of_ne hne).mpr (hstale topic' htopic' q hq')

/-- A connection that closes while a topic has it twice leaves a stale subscription. -/
theorem mainLoopStep_stale {s s' : MainLoop} {l : MainLoopStep} (hs : s.Valid)
    (hcloses : ¬ ClosesSubscribedOnce s l) (h : mainLoopStep s l = some s') :
    ¬ NoStaleSubscriptions s' := by
  cases l with
  | accept accepted => exact absurd trivial hcloses
  | serve incoming =>
      cases incoming with
      | selectError | willBlock | recvError => exact absurd trivial hcloses
      | data bytes => exact absurd trivial hcloses
      | closed =>
          rcases mainLoopStep_serve_eq_some_iff.mp h with ⟨produced, ht⟩
          rcases serveRound_cases ht with ⟨p, rest, hwalker, -, ⟨hclosed, -⟩ |
            ⟨-, hconnections, -, htopics, -⟩⟩
          · exact absurd rfl hclosed
          · simp only [ClosesSubscribedOnce, hwalker, List.head?_cons, Option.some.injEq,
              forall_eq', not_forall, Nat.not_le] at hcloses
            rcases hcloses with ⟨topic, htopic, htwice⟩
            intro hstale
            have hmem : p ∈ (topic.freeNode p).subscriberConnectionSockets :=
              Topic.mem_freeNode_iff.mpr ⟨List.count_pos_iff.mp (by omega), fun _ => htwice⟩
            have hconnected := hstale (topic.freeNode p)
              (htopics ▸ List.mem_map_of_mem htopic) p hmem
            rw [hconnections] at hconnected
            exact (hs.connections_nodup.mem_erase_iff.mp hconnected).1 rfl

/-- In a run of the main loop no state has a stale subscription exactly when every
connection that closes is subscribed at most once to each topic. -/
theorem noStaleSubscriptions_iff (topicNames : List Bytes) (run : List MainLoopStep) :
    (mainLoop topicNames).StatesSatisfy NoStaleSubscriptions (MainLoop.start topicNames) run ↔
      (mainLoop topicNames).StepsSatisfy ClosesSubscribedOnce (MainLoop.start topicNames) run := by
  have hstart : NoStaleSubscriptions (MainLoop.start topicNames) := by
    simp [NoStaleSubscriptions, MainLoop.start]
  refine System.statesSatisfy_iff_stepsSatisfy
    (fun s => s.Valid ∧ NoStaleSubscriptions s) ?_ ?_ run ⟨start_valid topicNames, hstart⟩ hstart
  · rintro s l s' ⟨hvalid, hstale⟩ hcloses h
    have hstale' := mainLoopStep_noStale hvalid hstale hcloses h
    exact ⟨⟨mainLoopStep_valid hvalid h, hstale'⟩, hstale'⟩
  · rintro s l s' ⟨hvalid, -⟩ hcloses h
    exact mainLoopStep_stale hvalid hcloses h

/-- A client subscribes twice to news and disconnects. -/
def subscribedTwice : List MainLoopStep :=
  [.accept (.socket 1 7 true), .serve (.data (stream [.subscribe news, .subscribe news])),
    .accept .willBlock, .serve .closed]

/-- One of the two subscriptions is left. -/
theorem staleSubscription_subscribedTwice :
    ¬ (mainLoop [news]).StatesSatisfy NoStaleSubscriptions (MainLoop.start [news])
      subscribedTwice := by
  have hrun : ((mainLoop [news]).run (MainLoop.start [news]) subscribedTwice).map
      (fun s => (s.topics, s.connectionSockets)) = some ([⟨news, [], [1]⟩], []) := by
    decide +kernel
  rcases Option.map_eq_some_iff.mp hrun with ⟨s, hs, heq⟩
  rw [Prod.mk.injEq] at heq
  intro hstates
  have hconnected := hstates.of_run hs ⟨news, [], [1]⟩ (by simp [heq.1]) 1 (by simp)
  simp [heq.2] at hconnected

end Broker
end PubSub
