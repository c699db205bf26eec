import PubSub.Broker.MainLoop

/-!
# Responses and the connections they go to

The main thread answers a query with an element that carries the value of the client's
{lit}`SOCKET`.  By the time the consumer sends the element, the connection may have been
closed, and the operating system may have given the same value to a later one.

A connection is named by its {lit}`SOCKET` cell, which belongs to it from its acceptance
on.  The elements also carry the cell of the client that asked; no step reads it.

Main results:

- Structure {lit}`ResponsesInv`: a response on its way leads to its requester or to nobody.
- Theorem {lit}`responseStep_inv`: every step keeps it, unless a connection is accepted
  under a socket value that a response on its way carries.
- Theorem {lit}`responses_go_to_requesters`: then every response goes to the connection that
  asked for it, or to no open connection.
- Theorem {lit}`response_to_other_connection`: otherwise it may go to a later connection.
-/

namespace PubSub
namespace Broker

open Foundations Client

/-! ## The main thread and the consumer -/

/-- An element of the outgoing buffer, and the client to which it responds. -/
structure Addressed (n : Nat) where
  element : OutgoingBufferElement n
  requester : Option SocketPtr
deriving DecidableEq, Repr

/-- A response that has been sent: the client that asked, and the client whose connection
was open under the socket value. -/
structure SentResponse where
  requester : Option SocketPtr
  receiver : Option SocketPtr
deriving DecidableEq, Repr

/-- The main loop, the responses it has yet to put, the outgoing buffer, the element that
the consumer is about to send, and the log of the sent responses.  {lit}`connectionOf` is
the operating system's table of open client connections. -/
structure Responding (n : Nat) where
  mainLoop : MainLoop
  connectionOf : Socket → Option SocketPtr
  pending : List (Addressed n)
  outgoingBuffer : OutgoingBuffer (Addressed n)
  hand : Option (Addressed n)
  sent : List SentResponse

/-- What the threads do.  The calls of {lit}`produce_new_message` for the responses of one
receive come after the round that executes its commands; nothing but the consumer and
the topic threads runs in between. -/
inductive ResponseStep (n : Nat) where
  | accept (accepted : Accepted)
  | serve (incoming : Incoming)
  /-- the main thread puts a response -/
  | produceResponse
  /-- a topic thread puts a published message -/
  | produceMessage (message : Bytes) (topic : Fin n)
  /-- the consumer calls {lit}`get` -/
  | get
  /-- the consumer calls {lit}`send` -/
  | send
deriving DecidableEq, Repr

variable {n : Nat}

/-- The connection that a call of {lit}`accept_connection` opens.  It is open even if the main
loop does not use it afterwards. -/
def openedConnection (s : MainLoop) : Accepted → Option (SocketPtr × Socket)
  | .selectError | .willBlock => none
  | .socket connectionSocketPtr socket _ =>
      if s.connectionSockets.length > connectionSocketListMaxSize ∨ socket = invalidSocket then none
      else some (connectionSocketPtr, socket)

/-- The connection that a round of the walk closes. -/
def closedSocket (s : MainLoop) (incoming : Incoming) : Option Socket :=
  if incoming = .closed then s.walker.head?.bind s.socket else none

/-- The operating system opens a connection under a value that is not in use. -/
def openConnection (connectionOf : Socket → Option SocketPtr) :
    Option (SocketPtr × Socket) → Option (Socket → Option SocketPtr)
  | none => some connectionOf
  | some (connectionSocketPtr, socket) =>
      if connectionOf socket = none then
        some (Function.update connectionOf socket (some connectionSocketPtr))
      else none

/-- {lit}`closesocket`. -/
def closeConnection (connectionOf : Socket → Option SocketPtr) :
    Option Socket → Socket → Option SocketPtr
  | none => connectionOf
  | some socket => Function.update connectionOf socket none

/-- The part of {lit}`produce_new_message` behind its wait loop. -/
def Responding.put (s : Responding n) (e : Addressed n) : Option (Responding n) :=
  if s.outgoingBuffer.count = maxOutgoingBufferSize then none
  else some { s with outgoingBuffer := s.outgoingBuffer.put e }

/-- The step function. -/
def responseStep (s : Responding n) : ResponseStep n → Option (Responding n)
  | .accept accepted =>
      if s.pending = [] then do
        let mainLoop ← mainLoopStep s.mainLoop (.accept accepted)
        let connectionOf ← openConnection s.connectionOf (openedConnection s.mainLoop accepted)
        return { s with mainLoop := mainLoop, connectionOf := connectionOf }
      else none
  | .serve incoming =>
      if s.pending = [] then do
        let (mainLoop, produced) ← serveRound s.mainLoop incoming
        return { s with
          mainLoop := mainLoop
          connectionOf := closeConnection s.connectionOf (closedSocket s.mainLoop incoming)
          pending := produced.responses.map fun element => ⟨element, s.mainLoop.walker.head?⟩ }
      else none
  | .produceResponse =>
      match s.pending with
      | [] => none
      | e :: pending => ({ s with pending := pending } : Responding n).put e
  | .produceMessage message topic =>
      s.put ⟨⟨some message, .subscriberConnectionSockets topic⟩, none⟩
  | .get =>
      if s.hand = none ∧ s.outgoingBuffer.count ≠ 0 then
        some { s with
          hand := some s.outgoingBuffer.get.1
          outgoingBuffer := s.outgoingBuffer.get.2 }
      else none
  | .send =>
      match s.hand with
      | none => none
      | some e =>
          match e.element.oneOrMoreSockets with
          | .subscriberConnectionSockets _ => some { s with hand := none }
          | .connectionSocket socket =>
              some { s with
                hand := none
                sent := s.sent ++ [⟨e.requester, s.connectionOf socket⟩] }

/-- The main loop and the consumer before they start. -/
def Responding.start (topicNames : List Bytes) (garbage : Nat → Addressed n) : Responding n where
  mainLoop := MainLoop.start topicNames
  connectionOf := fun _ => none
  pending := []
  outgoingBuffer := .initializeOutgoingBuffer garbage
  hand := none
  sent := []

/-- The main thread and the consumer as a transition system. -/
def respondingSystem (n : Nat) (topicNames : List Bytes) :
    System (Responding n) (ResponseStep n) where
  initial := fun s => ∃ garbage, s = Responding.start topicNames garbage
  step := responseStep

/-! ## Where responses go -/

/-- Every response has gone to the client that asked for it, or to nobody. -/
def ResponsesToRequesters (s : Responding n) : Prop :=
  ∀ r ∈ s.sent, r.receiver = none ∨ r.receiver = r.requester

/-- The elements on their way. -/
def Responding.inFlight (s : Responding n) : List (Addressed n) :=
  s.pending ++ s.outgoingBuffer.contents ++ s.hand.toList

/-- No connection is opened under a socket value that a response on its way carries. -/
def OpensUnusedSocket (s : Responding n) : ResponseStep n → Prop
  | .accept accepted => ∀ opened ∈ openedConnection s.mainLoop accepted,
      ∀ e ∈ s.inFlight, e.element.oneOrMoreSockets ≠ .connectionSocket opened.2
  | _ => True

instance (s : Responding n) (l : ResponseStep n) : Decidable (OpensUnusedSocket s l) :=
  match l with
  | .accept accepted => inferInstanceAs (Decidable (∀ opened ∈ openedConnection s.mainLoop accepted,
      ∀ e ∈ s.inFlight, e.element.oneOrMoreSockets ≠ .connectionSocket opened.2))
  | .serve _ | .produceResponse | .produceMessage _ _ | .get | .send => isTrue trivial

/-- The element leads to the client that asked for it, or to nobody. -/
def LeadsToRequester (connectionOf : Socket → Option SocketPtr) (e : Addressed n) : Prop :=
  ∀ socket, e.element.oneOrMoreSockets = .connectionSocket socket →
    connectionOf socket = none ∨ connectionOf socket = e.requester

/-- The connections of the main loop are open under the values in their cells. -/
def Connected (s : MainLoop) (connectionOf : Socket → Option SocketPtr) : Prop :=
  ∀ p ∈ s.connectionSockets, ∃ socket, s.socket p = some socket ∧ connectionOf socket = some p

/-- The invariant: open connections are found under the values in their cells, and the
elements on their way lead to the clients that asked. -/
structure ResponsesInv (s : Responding n) : Prop where
  valid : s.mainLoop.Valid
  connected : Connected s.mainLoop s.connectionOf
  stored : ∃ es, s.outgoingBuffer.Holds es
  inFlight : ∀ e ∈ s.inFlight, LeadsToRequester s.connectionOf e
  sent : ResponsesToRequesters s

theorem start_responsesInv (topicNames : List Bytes) (garbage : Nat → Addressed n) :
    ResponsesInv (Responding.start topicNames garbage) := by
  have hempty := OutgoingBuffer.initializeOutgoingBuffer_holds garbage
  refine ⟨start_valid topicNames, ?_, ⟨[], hempty⟩, ?_, ?_⟩
  · simp [Connected, Responding.start, MainLoop.start]
  · have hcontents := hempty.contents_eq
    simp [Responding.inFlight, Responding.start, hcontents]
  · simp [ResponsesToRequesters, Responding.start]

/-- Putting an element that leads to its requester keeps the invariant. -/
theorem put_inv {s s' : Responding n} {pending : List (Addressed n)} {e : Addressed n}
    (hs : ResponsesInv s)
    (hinFlight : ∀ d ∈ pending ++ (s.outgoingBuffer.contents ++ [e]) ++ s.hand.toList,
      LeadsToRequester s.connectionOf d)
    (h : ({ s with pending := pending } : Responding n).put e = some s') : ResponsesInv s' := by
  unfold Responding.put at h
  split at h
  · contradiction
  next hcount =>
    rw [Option.some.injEq] at h
    subst h
    rcases hs.stored with ⟨es, hes⟩
    have hbounds := hes.count_bounds
    have hspace : s.outgoingBuffer.count < maxOutgoingBufferSize := by
      simp only at hcount
      omega
    have hput := OutgoingBuffer.put_holds hes e hspace
    refine ⟨hs.valid, hs.connected, ⟨_, hput⟩, ?_, hs.sent⟩
    rwa [Responding.inFlight, hput.contents_eq, ← hes.contents_eq]

/-! ## Opening and closing connections -/

/-- Opening a connection changes the table only at its socket value. -/
theorem openConnection_cases {connectionOf connectionOf' : Socket → Option SocketPtr}
    {opened : Option (SocketPtr × Socket)}
    (h : openConnection connectionOf opened = some connectionOf') :
    opened = none ∧ connectionOf' = connectionOf ∨
      ∃ p socket, opened = some (p, socket) ∧ connectionOf socket = none ∧
        connectionOf' = Function.update connectionOf socket (some p) := by
  cases opened with
  | none =>
      rw [openConnection, Option.some.injEq] at h
      exact .inl ⟨rfl, h.symm⟩
  | some opened =>
      rcases opened with ⟨p, socket⟩
      rw [openConnection] at h
      split at h
      · next hclosed =>
        rw [Option.some.injEq] at h
        exact .inr ⟨p, socket, rfl, hclosed, h.symm⟩
      · contradiction

/-- An element still leads to its requester after a connection has been opened under a
value that it does not carry. -/
theorem LeadsToRequester.open {connectionOf : Socket → Option SocketPtr} {e : Addressed n}
    (h : LeadsToRequester connectionOf e) {socket : Socket}
    (hne : e.element.oneOrMoreSockets ≠ .connectionSocket socket) (p : SocketPtr) :
    LeadsToRequester (Function.update connectionOf socket (some p)) e := by
  intro value hvalue
  have hdiffers : value ≠ socket := by
    intro heq
    exact hne (heq ▸ hvalue)
  rw [Function.update_of_ne hdiffers]
  exact h value hvalue

/-- Closing a connection makes elements lead to nobody, if it makes any difference. -/
theorem LeadsToRequester.close {connectionOf : Socket → Option SocketPtr} {e : Addressed n}
    (h : LeadsToRequester connectionOf e) (closed : Option Socket) :
    LeadsToRequester (closeConnection connectionOf closed) e := by
  intro value hvalue
  cases closed with
  | none => exact h value hvalue
  | some socket =>
      rw [closeConnection]
      by_cases heq : value = socket
      · subst heq
        simp
      · rw [Function.update_of_ne heq]
        exact h value hvalue

theorem accept_connected {s s' : MainLoop} {accepted : Accepted}
    {connectionOf connectionOf' : Socket → Option SocketPtr} (hs : s.Valid)
    (hconnected : Connected s connectionOf) (h : acceptConnection s accepted = some s')
    (hopen : openConnection connectionOf (openedConnection s accepted) = some connectionOf') :
    Connected s' connectionOf' := by
  have htable : ∀ p socket, connectionOf socket = some p → connectionOf' socket = some p := by
    intro p socket hsocket
    rcases openConnection_cases hopen with ⟨-, rfl⟩ | ⟨q, value, -, hclosed, rfl⟩
    · exact hsocket
    · have hne : socket ≠ value := by
        intro heq
        rw [heq, hclosed] at hsocket
        contradiction
      rwa [Function.update_of_ne hne]
  rcases acceptConnection_cases h with ⟨-, -, ⟨hconnections, hsocket⟩ |
    ⟨p, socket, nonblocking, rfl, hfull, hfresh, hsocket, hconnections⟩⟩
  · intro q hq
    rw [hconnections] at hq
    rcases hconnected q hq with ⟨value, hvalue, hopened⟩
    exact ⟨value, hsocket ▸ hvalue, htable q value hopened⟩
  · have hold : ∀ q ∈ s.connectionSockets,
        ∃ value, s'.socket q = some value ∧ connectionOf' value = some q := by
      intro q hq
      rcases hconnected q hq with ⟨value, hvalue, hopened⟩
      have hne : q ≠ p := by
        intro heq
        exact hs.allocated q hq (heq ▸ hfresh)
      exact ⟨value, by rw [hsocket, Function.update_of_ne hne, hvalue], htable q value hopened⟩
    rcases hconnections with hconnections | ⟨hsocketValid, hconnections⟩
    · intro q hq
      exact hold q (hconnections ▸ hq)
    · intro q hq
      rw [hconnections] at hq
      rcases List.mem_cons.mp hq with rfl | hmem
      · -- the new connection has just been opened under the value in its cell
        have hopened : openedConnection s (.socket q socket nonblocking) = some (q, socket) := by
          rw [openedConnection, if_neg]
          rintro (hlength | hinvalid)
          · omega
          · exact hsocketValid hinvalid
        rw [hopened, openConnection] at hopen
        split at hopen
        · rw [Option.some.injEq] at hopen
          exact ⟨socket, by simp [hsocket], by simp [← hopen]⟩
        · contradiction
      · exact hold q hmem

theorem accept_inv {s s' : Responding n} {accepted : Accepted} (hs : ResponsesInv s)
    (hopens : OpensUnusedSocket s (.accept accepted))
    (h : responseStep s (.accept accepted) = some s') : ResponsesInv s' := by
  rw [responseStep] at h
  split at h
  · simp only [Option.bind_eq_bind, Option.bind_eq_some_iff, Option.pure_def,
      Option.some.injEq] at h
    rcases h with ⟨mainLoop, hmainLoop, connectionOf, hopen, rfl⟩
    refine ⟨mainLoopStep_valid hs.valid hmainLoop, ?_, hs.stored, ?_, hs.sent⟩
    · rcases mainLoopStep_accept_eq_some_iff.mp hmainLoop with ⟨-, t, ht, rfl⟩
      have hconnected := accept_connected hs.valid hs.connected ht hopen
      exact hconnected
    · intro e he
      rcases openConnection_cases hopen with ⟨-, heq⟩ | ⟨p, socket, hopened, -, heq⟩
      · exact heq ▸ hs.inFlight e he
      · rw [heq]
        exact (hs.inFlight e he).open (hopens (p, socket) hopened e he) p
  · contradiction

theorem serve_inv {s s' : Responding n} {incoming : Incoming} (hs : ResponsesInv s)
    (h : responseStep s (.serve incoming) = some s') : ResponsesInv s' := by
  rw [responseStep] at h
  split at h
  · next hpending =>
    simp only [Option.bind_eq_bind, Option.bind_eq_some_iff, Option.pure_def,
      Option.some.injEq] at h
    rcases h with ⟨⟨mainLoop, produced⟩, hserve, rfl⟩
    have hvalid := serveRound_valid hs.valid hserve
    rcases serveRound_cases hserve with ⟨p, rest, hwalker, -, hcases⟩
    have hp : p ∈ s.mainLoop.connectionSockets := hs.valid.walker_subset p (by simp [hwalker])
    rcases hs.connected p hp with ⟨socket, hsocket, hopen⟩
    rcases hcases with ⟨hnotClosed, hconnections, hcells, -, hresponds⟩ |
      ⟨hclosed, hconnections, hcells, -, hresponses⟩
    · have hstays : closedSocket s.mainLoop incoming = none := by simp [closedSocket, hnotClosed]
      rw [hstays]
      refine ⟨hvalid, ?_, hs.stored, ?_, hs.sent⟩
      · intro q hq
        simp only [hconnections, hcells] at hq ⊢
        exact hs.connected q hq
      · intro e he
        simp only [Responding.inFlight, List.append_assoc] at he
        rcases List.mem_append.mp he with hnew | hold
        · -- a response that has just been produced carries the value in the client's cell
          rcases List.mem_map.mp hnew with ⟨element, helement, rfl⟩
          rcases hresponds element helement with ⟨response, value, hvalue, rfl⟩
          rw [hsocket, Option.some.injEq] at hvalue
          subst hvalue
          intro value hvalue
          rw [OneOrMoreSockets.connectionSocket.injEq] at hvalue
          exact .inr (by simp [← hvalue, closeConnection, hopen, hwalker])
        · exact hs.inFlight e (by simpa [Responding.inFlight, hpending] using hold)
    · have hcloses : closedSocket s.mainLoop incoming = some socket := by
        simp [closedSocket, hclosed, hwalker, hsocket]
      refine ⟨hvalid, ?_, hs.stored, ?_, hs.sent⟩
      · rw [hcloses]
        intro q hq
        simp only [hconnections] at hq
        rcases hs.valid.connections_nodup.mem_erase_iff.mp hq with ⟨hne, hmem⟩
        rcases hs.connected q hmem with ⟨value, hvalue, hopened⟩
        have hdiffers : value ≠ socket := by
          intro heq
          rw [heq, hopen, Option.some.injEq] at hopened
          exact hne hopened.symm
        refine ⟨value, ?_, ?_⟩
        · simp only [hcells]
          rw [Function.update_of_ne hne, hvalue]
        · simp only [closeConnection]
          rw [Function.update_of_ne hdiffers, hopened]
      · intro e he
        simp only [Responding.inFlight, hresponses, List.map_nil, List.nil_append] at he
        have hold := hs.inFlight e (by simpa [Responding.inFlight, hpending] using he)
        exact hold.close _
  · contradiction

/-! ## Every step -/

theorem produceResponse_inv {s s' : Responding n} (hs : ResponsesInv s)
    (h : responseStep s .produceResponse = some s') : ResponsesInv s' := by
  rw [responseStep] at h
  split at h
  · contradiction
  next e pending hpending =>
    refine put_inv hs ?_ h
    intro d hd
    apply hs.inFlight d
    simp only [Responding.inFlight, hpending, List.mem_append, List.mem_cons,
      List.not_mem_nil, or_false] at hd ⊢
    tauto

theorem produceMessage_inv {s s' : Responding n} {message : Bytes} {topic : Fin n}
    (hs : ResponsesInv s) (h : responseStep s (.produceMessage message topic) = some s') :
    ResponsesInv s' := by
  rw [responseStep] at h
  refine put_inv hs ?_ h
  intro d hd
  simp only [List.mem_append, List.mem_singleton] at hd
  rcases hd with (hpending | hcontents | rfl) | hhand
  · exact hs.inFlight d (by simp [Responding.inFlight, hpending])
  · exact hs.inFlight d (by simp [Responding.inFlight, hcontents])
  · intro socket hsocket
    contradiction
  · exact hs.inFlight d (List.mem_append_right _ hhand)

theorem get_inv {s s' : Responding n} (hs : ResponsesInv s)
    (h : responseStep s .get = some s') : ResponsesInv s' := by
  rw [responseStep] at h
  split at h
  · next hget =>
    rcases hget with ⟨hhand, hcount⟩
    rw [Option.some.injEq] at h
    subst h
    rcases hs.stored with ⟨es, hes⟩
    cases es with
    | nil =>
        have hzero := hes.count_eq
        exact absurd hzero hcount
    | cons e es =>
        rcases OutgoingBuffer.get_holds hes with ⟨hfirst, hrest⟩
        refine ⟨hs.valid, hs.connected, ⟨es, hrest⟩, ?_, hs.sent⟩
        intro d hd
        apply hs.inFlight d
        simp only [Responding.inFlight, hrest.contents_eq, hes.contents_eq, hfirst,
          Option.toList_some, List.mem_append, List.mem_cons, List.not_mem_nil, or_false] at hd ⊢
        tauto
  · contradiction

theorem send_inv {s s' : Responding n} (hs : ResponsesInv s)
    (h : responseStep s .send = some s') : ResponsesInv s' := by
  rw [responseStep] at h
  split at h
  · contradiction
  next e hhand =>
    have hleads := hs.inFlight e (by simp [Responding.inFlight, hhand])
    have hinFlight : ∀ d ∈ s.pending ++ s.outgoingBuffer.contents ++ [],
        LeadsToRequester s.connectionOf d := by
      intro d hd
      rw [List.append_nil] at hd
      exact hs.inFlight d (List.mem_append_left _ hd)
    split at h
    · rw [Option.some.injEq] at h
      subst h
      exact ⟨hs.valid, hs.connected, hs.stored, hinFlight, hs.sent⟩
    · next socket hsocket =>
      rw [Option.some.injEq] at h
      subst h
      refine ⟨hs.valid, hs.connected, hs.stored, hinFlight, ?_⟩
      intro r hr
      rcases List.mem_append.mp hr with hold | hnew
      · exact hs.sent r hold
      · rw [List.mem_singleton.mp hnew]
        exact hleads socket hsocket

/-- Every step keeps the invariant, unless it opens a connection under a socket value that
a response on its way carries. -/
theorem responseStep_inv {s s' : Responding n} {l : ResponseStep n} (hs : ResponsesInv s)
    (hopens : OpensUnusedSocket s l) (h : responseStep s l = some s') : ResponsesInv s' := by
  cases l with
  | accept accepted => exact accept_inv hs hopens h
  | serve incoming => exact serve_inv hs h
  | produceResponse => exact produceResponse_inv hs h
  | produceMessage message topic => exact produceMessage_inv hs h
  | get => exact get_inv hs h
  | send => exact send_inv hs h

/-- Responses go to the clients that asked for them, or to nobody, as long as no connection
is opened under a socket value that a response on its way carries. -/
theorem responses_go_to_requesters {topicNames : List Bytes} {s : Responding n}
    (hreach : (respondingSystem n topicNames).ReachableVia OpensUnusedSocket s) :
    ResponsesToRequesters s := by
  have hinv : ResponsesInv s := by
    refine hreach.invariant ResponsesInv ?_ ?_
    · rintro s ⟨garbage, rfl⟩
      exact start_responsesInv topicNames garbage
    · intro s l s' hs hopens h
      exact responseStep_inv hs hopens h
  exact hinv.sent

/-- The slots of the outgoing buffer before anything is put. -/
private def unusedSlots : Nat → Addressed 1 :=
  fun _ => ⟨⟨none, .connectionSocket 0⟩, none⟩

/-- A client asks whether news exists and stays connected. -/
def askingClient : List (ResponseStep 1) :=
  [.accept (.socket 1 7 true), .serve (.data (stream [.topicExists news])), .produceResponse,
    .get, .send]

theorem responses_go_to_requesters_askingClient :
    ∃ s, (respondingSystem 1 [news]).ReachableVia OpensUnusedSocket s ∧
      s.sent = [⟨some 1, some 1⟩] ∧ ResponsesToRequesters s := by
  have hrun : ((respondingSystem 1 [news]).runVia OpensUnusedSocket
      (Responding.start [news] unusedSlots) askingClient).map (fun s => s.sent) =
        some [⟨some 1, some 1⟩] := by
    decide +kernel
  rcases Option.map_eq_some_iff.mp hrun with ⟨s, hs, hsent⟩
  have hfirst : (respondingSystem 1 [news]).ReachableVia OpensUnusedSocket
      (Responding.start [news] unusedSlots) :=
    System.ReachableVia.start ⟨unusedSlots, rfl⟩
  have hreach := hfirst.runVia hs
  exact ⟨s, hreach, hsent, responses_go_to_requesters hreach⟩

/-- The client disconnects before the response is sent, and the next client gets its
socket value. -/
def reusedSocket : List (ResponseStep 1) :=
  [.accept (.socket 1 7 true), .serve (.data (stream [.topicExists news])), .produceResponse,
    .accept .willBlock, .serve .closed, .accept (.socket 2 7 true), .get, .send]

/-- The response goes to the later connection. -/
theorem response_to_other_connection :
    ∃ s, (respondingSystem 1 [news]).Reachable s ∧ s.sent = [⟨some 1, some 2⟩] ∧
      ¬ ResponsesToRequesters s := by
  have hrun : ((respondingSystem 1 [news]).run (Responding.start [news] unusedSlots)
      reusedSocket).map (fun s => s.sent) = some [⟨some 1, some 2⟩] := by
    decide +kernel
  rcases Option.map_eq_some_iff.mp hrun with ⟨s, hs, hsent⟩
  have hfirst : (respondingSystem 1 [news]).Reachable (Responding.start [news] unusedSlots) :=
    System.Reachable.start ⟨unusedSlots, rfl⟩
  refine ⟨s, hfirst.run hs, hsent, ?_⟩
  intro hall
  have hother := hall ⟨some 1, some 2⟩ (by simp [hsent])
  simp at hother

end Broker
end PubSub
