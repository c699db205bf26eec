import PubSub.Broker.LinkedLists
import PubSub.Broker.Service
import PubSub.Broker.Subscriptions

/-!
# What the main thread does to the socket lists

The main thread changes the socket lists one call after the other, and between two calls the
consumer may enter the critical section of a list.  For every step of the main thread, this
module gives the cells that it writes and the calls of {lit}`add_to_start` and
{lit}`free_node` that it makes, in their order.

Main results:

- Theorem {lit}`executeCommand_calls`: a command makes the call that {lit}`subscriptionCall` names.
- Theorem {lit}`serviceStep_calls`: carrying out the calls of a step changes the lists and the
  cells as the step changes them in the main loop.
- Theorem {lit}`deliveryStep_call`: a call that is carried out in memory has the same effect.
-/

namespace PubSub
namespace Broker

open Foundations Client

/-! ## Calls -/

/-- A cell that the main thread writes, or a call for one of the socket lists. -/
inductive MainCall where
  /-- the socket of a new connection is stored in its cell -/
  | store (socketPtr : SocketPtr) (socket : Socket)
  /-- the cell of a closed connection is marked -/
  | invalidate (socketPtr : SocketPtr)
  | addToStart (name : ListName) (socketPtr : SocketPtr)
  | freeNode (name : ListName) (socketPtr : SocketPtr)
deriving DecidableEq, Repr

/-- The call in memory; {lit}`node` is the address that {lit}`malloc` returns in
{lit}`add_to_start`. -/
def MainCall.action (node : Addr) : MainCall → DeliveryAction ListName
  | .store socketPtr socket => .accept socketPtr socket
  | .invalidate socketPtr => .close socketPtr
  | .addToStart name socketPtr => .add name socketPtr node
  | .freeNode name socketPtr => .remove name socketPtr

/-- The call that {lit}`subscribe` or {lit}`unsubscribe` makes for a command. -/
def subscriptionCall (topics : List Topic) (command : Bytes) (connectionSocketPtr : SocketPtr) :
    Option MainCall := do
  let topicName ← extractTopicName command
  let i ← getTopicByName topics topicName
  if command[0]? = some (byteOf '3') then
    if (topics.get i).subscriberConnectionSockets.length ≤ subscriberListMaxSize then
      some (.addToStart (.subscriberConnectionSockets i) connectionSocketPtr)
    else none
  else if command[0]? = some (byteOf '6') then
    some (.freeNode (.subscriberConnectionSockets i) connectionSocketPtr)
  else none

/-- What {lit}`accept_connection` does. -/
def acceptCalls (s : MainLoop) : Accepted → List MainCall
  | .selectError | .willBlock => []
  | .socket connectionSocketPtr socket nonblocking =>
      if s.connectionSockets.length > connectionSocketListMaxSize then []
      else if socket = invalidSocket ∨ !nonblocking then [.store connectionSocketPtr socket]
      else [.store connectionSocketPtr socket,
        .addToStart .connectionSockets connectionSocketPtr]

/-- What {lit}`receive_commands` does when a connection closes. -/
def closeCalls (numberOfTopics : Nat) (connectionSocketPtr : SocketPtr) : List MainCall :=
  .invalidate connectionSocketPtr :: .freeNode .connectionSockets connectionSocketPtr ::
    (List.range numberOfTopics).map fun i =>
      .freeNode (.subscriberConnectionSockets i) connectionSocketPtr

variable {n : Nat}

/-- What the main thread does in a step. -/
def listCalls (s : Service n) : ServiceStep n → List MainCall
  | .accept accepted => acceptCalls s.mainLoop accepted
  | .receive .closed =>
      match s.mainLoop.walker with
      | [] => []
      | connectionSocketPtr :: _ => closeCalls s.mainLoop.topics.length connectionSocketPtr
  | .execute _ =>
      match s.position, s.mainLoop.walker with
      | some i, connectionSocketPtr :: _ =>
          (subscriptionCall s.mainLoop.topics (s.mainLoop.receiveBuffer.drop (i + 1))
            connectionSocketPtr).toList
      | _, _ => []
  | .receive _ | .finish | .thread _ => []

/-! ## Their effect -/

/-- What the socket lists and the cells contain. -/
structure Sockets where
  list : ListName → List SocketPtr
  cell : SocketPtr → Option Socket

/-- The effect of a call. -/
def MainCall.effect (v : Sockets) : MainCall → Sockets
  | .store socketPtr socket => { v with cell := Function.update v.cell socketPtr (some socket) }
  | .invalidate socketPtr =>
      { v with cell := Function.update v.cell socketPtr (some invalidSocket) }
  | .addToStart name socketPtr =>
      { v with list := Function.update v.list name (socketPtr :: v.list name) }
  | .freeNode name socketPtr =>
      { v with list := Function.update v.list name ((v.list name).erase socketPtr) }

/-- The sockets as the main loop sees them. -/
def MainLoop.sockets (s : MainLoop) : Sockets :=
  ⟨socketPtrs s.connectionSockets s.topics, s.socket⟩

/-- The calls of a list of calls, one after the other. -/
def Sockets.after (v : Sockets) (calls : List MainCall) : Sockets :=
  calls.foldl MainCall.effect v

@[simp]
theorem Sockets.after_nil (v : Sockets) : v.after [] = v :=
  rfl

@[simp]
theorem Sockets.after_cons (v : Sockets) (call : MainCall) (calls : List MainCall) :
    v.after (call :: calls) = (call.effect v).after calls :=
  rfl

section Commands

variable (connectionSockets : List SocketPtr) (cell : SocketPtr → Option Socket)
  (topics : List Topic) (topicName : Bytes) (connectionSocketPtr : SocketPtr)

/-- {lit}`subscribe` calls {lit}`add_to_start` if there is room in the list. -/
theorem subscribe_calls :
    (⟨socketPtrs connectionSockets (subscribe topics topicName connectionSocketPtr).1, cell⟩ :
        Sockets) =
      Sockets.after ⟨socketPtrs connectionSockets topics, cell⟩
        ((getTopicByName topics topicName).bind fun i =>
          if (topics.get i).subscriberConnectionSockets.length ≤ subscriberListMaxSize then
            some (.addToStart (.subscriberConnectionSockets i) connectionSocketPtr)
          else none).toList := by
  unfold subscribe
  split
  · next hnone => simp [hnone]
  · next i hsome =>
    rw [hsome]
    by_cases hroom : (topics.get i).subscriberConnectionSockets.length ≤ subscriberListMaxSize
    · have hlist : socketPtrs connectionSockets topics (.subscriberConnectionSockets i) =
          topics[i.val].subscriberConnectionSockets :=
        socketPtrs_subscribers connectionSockets i.isLt
      rw [List.get_eq_getElem] at hroom
      simp [hroom, socketPtrs_set, MainCall.effect, hlist]
    · rw [List.get_eq_getElem] at hroom
      simp [hroom]

/-- {lit}`unsubscribe` calls {lit}`free_node`. -/
theorem unsubscribe_calls :
    (⟨socketPtrs connectionSockets (unsubscribe topics topicName connectionSocketPtr).1, cell⟩ :
        Sockets) =
      Sockets.after ⟨socketPtrs connectionSockets topics, cell⟩
        ((getTopicByName topics topicName).map fun i =>
          .freeNode (.subscriberConnectionSockets i) connectionSocketPtr).toList := by
  unfold unsubscribe
  split
  · next hnone => simp [hnone]
  · next i hsome =>
    have hlist : socketPtrs connectionSockets topics (.subscriberConnectionSockets i) =
        topics[i.val].subscriberConnectionSockets := socketPtrs_subscribers connectionSockets i.isLt
    rw [hsome]
    by_cases hmem : connectionSocketPtr ∈ topics[i.val].subscriberConnectionSockets
    · simp [hmem, socketPtrs_set, MainCall.effect, hlist]
    · simp only [Fin.getElem_fin, hmem, if_false, Option.map_some, Option.toList_some,
        Sockets.after_cons, Sockets.after_nil, MainCall.effect, hlist, List.erase_of_not_mem hmem]
      rw [← hlist, Function.update_eq_self]

/-- {lit}`publish` makes none. -/
theorem publish_sockets (message : Bytes) :
    socketPtrs connectionSockets (publish topics topicName message).1 =
      socketPtrs connectionSockets topics := by
  unfold publish
  split
  · rfl
  · next i _ =>
    rw [socketPtrs_set i.isLt]
    have hlist : socketPtrs connectionSockets topics (.subscriberConnectionSockets i) =
        topics[i.val].subscriberConnectionSockets := socketPtrs_subscribers connectionSockets i.isLt
    simp only [Fin.getElem_fin, ← hlist, Function.update_eq_self]

end Commands

/-- A command makes at most one call, and it is this one. -/
theorem executeCommand_calls {topics : List Topic} {command : Bytes}
    {connectionSocketPtr : SocketPtr} {execution : Execution}
    (h : executeCommand topics command connectionSocketPtr = some execution)
    (connectionSockets : List SocketPtr) (cell : SocketPtr → Option Socket) :
    (⟨socketPtrs connectionSockets execution.topics, cell⟩ : Sockets) =
      Sockets.after ⟨socketPtrs connectionSockets topics, cell⟩
        (subscriptionCall topics command connectionSocketPtr).toList := by
  unfold executeCommand at h
  split at h
  · contradiction
  next commandType rest =>
  have hother : commandType ≠ byteOf '3' → commandType ≠ byteOf '6' →
      subscriptionCall topics (commandType :: rest) connectionSocketPtr = none := by
    intro h3 h6
    simp [subscriptionCall, h3, h6]
  split at h
  · next htype =>
    simp only [Option.bind_eq_bind, Option.bind_eq_some_iff, Option.pure_def,
      Option.some.injEq] at h
    rcases h with ⟨⟨topicName, message⟩, -, notification, -, rfl⟩
    rw [hother (by rw [htype]; decide) (by rw [htype]; decide), publish_sockets]
    rfl
  split at h
  · next htype =>
    simp only [Option.bind_eq_bind, Option.bind_eq_some_iff, Option.pure_def,
      Option.some.injEq] at h
    rcases h with ⟨topicName, hextract, notification, -, rfl⟩
    have hcall : subscriptionCall topics (commandType :: rest) connectionSocketPtr =
        (getTopicByName topics topicName).bind fun i =>
          if (topics.get i).subscriberConnectionSockets.length ≤ subscriberListMaxSize then
            some (.addToStart (.subscriberConnectionSockets i) connectionSocketPtr)
          else none := by
      rw [subscriptionCall, hextract]
      simp [htype]
    rw [hcall]
    exact subscribe_calls connectionSockets cell topics topicName connectionSocketPtr
  next hnot3 =>
  split at h
  · next htype =>
    simp only [Option.bind_eq_bind, Option.bind_eq_some_iff, Option.pure_def,
      Option.some.injEq] at h
    rcases h with ⟨topicName, -, notification, -, rfl⟩
    rw [hother hnot3 (by rw [htype]; decide)]
    rfl
  split at h
  · next htype =>
    simp only [Option.bind_eq_bind, Option.bind_eq_some_iff, Option.pure_def,
      Option.some.injEq] at h
    rcases h with ⟨topicName, -, response, -, notification, -, rfl⟩
    rw [hother hnot3 (by rw [htype]; decide)]
    rfl
  split at h
  · next htype =>
    simp only [Option.bind_eq_bind, Option.bind_eq_some_iff, Option.pure_def,
      Option.some.injEq] at h
    rcases h with ⟨topicName, hextract, notification, -, rfl⟩
    have hcall : subscriptionCall topics (commandType :: rest) connectionSocketPtr =
        (getTopicByName topics topicName).map fun i =>
          .freeNode (.subscriberConnectionSockets i) connectionSocketPtr := by
      have hnot : byteOf '6' ≠ byteOf '3' := by decide
      rw [subscriptionCall, hextract]
      simp [htype, hnot, Option.map_eq_bind]
    rw [hcall]
    exact unsubscribe_calls connectionSockets cell topics topicName connectionSocketPtr
  · next hnot6 =>
    rw [Option.some.injEq] at h
    rw [← h, hother hnot3 hnot6]
    rfl

/-- Several subscriber lists, one after the other. -/
theorem after_freeNodes (v : Sockets) (socketPtr : SocketPtr) {is : List Nat} (hnodup : is.Nodup) :
    v.after (is.map fun i => .freeNode (.subscriberConnectionSockets i) socketPtr) =
      { v with
        list := fun
          | .connectionSockets => v.list .connectionSockets
          | .subscriberConnectionSockets i =>
              if i ∈ is then (v.list (.subscriberConnectionSockets i)).erase socketPtr
              else v.list (.subscriberConnectionSockets i) } := by
  induction is generalizing v with
  | nil =>
      rw [List.map_nil, Sockets.after_nil, Sockets.mk.injEq]
      refine ⟨?_, rfl⟩
      funext name
      cases name <;> simp
  | cons i is ih =>
      rw [List.nodup_cons] at hnodup
      rw [List.map_cons, Sockets.after_cons, ih _ hnodup.2]
      simp only [MainCall.effect, Sockets.mk.injEq, and_true]
      funext name
      cases name with
      | connectionSockets => simp
      | subscriberConnectionSockets j =>
          by_cases hj : j = i
          · subst hj
            simp [hnodup.1]
          · simp [hj]

/-- A connection closes. -/
theorem closed_calls (s : MainLoop) (connectionSocketPtr : SocketPtr) (walker : List SocketPtr) :
    MainLoop.sockets { s with
        socket := Function.update s.socket connectionSocketPtr (some invalidSocket)
        walker := walker
        connectionSockets := s.connectionSockets.erase connectionSocketPtr
        topics := s.topics.map fun topic => topic.freeNode connectionSocketPtr } =
      s.sockets.after (closeCalls s.topics.length connectionSocketPtr) := by
  rw [closeCalls, Sockets.after_cons, Sockets.after_cons,
    after_freeNodes _ _ (List.nodup_range (n := s.topics.length))]
  simp only [MainLoop.sockets, MainCall.effect, Sockets.mk.injEq, and_true]
  funext name
  cases name with
  | connectionSockets => simp [socketPtrs]
  | subscriberConnectionSockets i =>
      by_cases hi : i < s.topics.length
      · simp [socketPtrs, hi, Topic.freeNode]
      · simp [socketPtrs, hi]

/-- {lit}`accept_connection` makes these calls. -/
theorem acceptConnection_calls {s s' : MainLoop} {accepted : Accepted}
    (h : acceptConnection s accepted = some s') :
    s'.sockets = s.sockets.after (acceptCalls s accepted) := by
  unfold acceptConnection at h
  split at h
  · next hfull =>
    rw [Option.some.injEq] at h
    rw [← h]
    cases accepted with
    | selectError | willBlock => rfl
    | socket p socket nonblocking => simp [acceptCalls, hfull]
  next hroom =>
  cases accepted with
  | selectError | willBlock =>
      rw [Option.some.injEq] at h
      rw [← h]
      rfl
  | socket p socket nonblocking =>
      simp only at h
      split at h
      · contradiction
      rw [acceptCalls, if_neg hroom]
      split at h
      · next hunused =>
        rw [Option.some.injEq] at h
        rw [← h, if_pos hunused]
        rfl
      · next hused =>
        rw [Option.some.injEq] at h
        rw [← h, if_neg hused]
        simp only [Sockets.after_cons, Sockets.after_nil, MainCall.effect, MainLoop.sockets,
          socketPtrs_cons]
        rfl

/-- A step changes the sockets by its calls. -/
theorem serviceStep_calls {s s' : Service n} {l : ServiceStep n}
    (hstep : serviceStep s l = some s') :
    s'.mainLoop.sockets = s.mainLoop.sockets.after (listCalls s l) := by
  cases serviceStep_moves hstep with
  | accept hposition haccept =>
      rcases mainLoopStep_accept_eq_some_iff.mp haccept with ⟨-, t, ht, rfl⟩
      have hcalls : t.sockets = s.mainLoop.sockets.after (acceptCalls s.mainLoop _) :=
        acceptConnection_calls ht
      exact hcalls
  | receive => rfl
  | @poll incoming mainLoop hposition hnothing hserve =>
      unfold serveRound at hserve
      split at hserve
      · contradiction
      next p rest hwalker =>
      cases incoming with
      | selectError | willBlock | recvError =>
          simp only [receiveCommands, Option.bind_eq_bind, Option.bind_some, Option.pure_def,
            Option.some.injEq, Prod.mk.injEq] at hserve
          rw [← hserve.1]
          rfl
      | closed =>
          simp only [receiveCommands, Option.bind_eq_bind, Option.bind_some, Option.pure_def,
            Option.some.injEq, Prod.mk.injEq] at hserve
          rw [← hserve.1, listCalls, hwalker]
          exact closed_calls s.mainLoop p _
      | data bytes => exact absurd rfl (hnothing bytes)
  | execute hposition hidle hwalker hsocket hmark hexecution henqueue hrespond hscan =>
      rw [listCalls, hposition, hwalker]
      exact executeCommand_calls hexecution s.mainLoop.connectionSockets s.mainLoop.socket
  | finish => rfl
  | thread => rfl

/-! ## In memory -/

/-- The sockets as they are in memory. -/
def Delivery.sockets (s : Delivery ListName) : Sockets :=
  ⟨fun name => Heap.vals (s.cellsOf name), s.cells⟩

theorem sockets_eq {s : Delivery ListName} {cs : ListName → List (Addr × SocketPtr)}
    (hl : ListsHold s.nodes s.lists cs) :
    s.sockets = ⟨fun name => Heap.vals (cs name), s.cells⟩ := by
  rw [Delivery.sockets, cellsOf_eq hl]

/-- A call in memory has its effect. -/
theorem deliveryStep_call {s s' : Delivery ListName} (hs : WalkInv s) {call : MainCall}
    {node : Addr} (hstep : deliveryStep s (call.action node) = some s') :
    s'.sockets = call.effect s.sockets := by
  rcases hs.lists with ⟨cs, hl, -, -⟩
  cases call with
  | store socketPtr socket =>
      simp only [MainCall.action, deliveryStep] at hstep
      split at hstep
      · rw [← Option.some.inj hstep]
        rfl
      · contradiction
  | invalidate socketPtr =>
      simp only [MainCall.action, deliveryStep] at hstep
      split at hstep
      · contradiction
      · rw [← Option.some.inj hstep]
        rfl
  | addToStart name socketPtr =>
      simp only [MainCall.action, deliveryStep] at hstep
      split at hstep
      · next hcond =>
        rw [← Option.some.inj hstep, sockets_eq (addToStart_holds hl name socketPtr node hcond.1),
          sockets_eq hl, MainCall.effect, Sockets.mk.injEq]
        refine ⟨?_, rfl⟩
        funext name'
        by_cases hname : name' = name
        · subst hname
          simp
        · simp [Function.update_of_ne hname]
      · contradiction
  | freeNode name socketPtr =>
      rcases freeNode_erase hl name socketPtr with ⟨nodes, list, cs', hfree, hl', hvals⟩
      simp only [MainCall.action, deliveryStep, hfree, Option.map_some] at hstep
      rw [← Option.some.inj hstep, sockets_eq hl', sockets_eq hl, MainCall.effect,
        Sockets.mk.injEq]
      refine ⟨?_, rfl⟩
      funext name'
      by_cases hname : name' = name
      · subst hname
        simpa using hvals
      · simp [Function.update_of_ne hname]

end Broker
end PubSub
