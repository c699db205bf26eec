import PubSub.Broker.MainLoop

/-!
# The socket lists of the main loop in memory

The main loop is stated over the socket pointers of its lists.  In memory the list of
connections and the subscriber lists of all topics are linked lists, and a node of one is
no node of another.  Here are the operations of the main loop on these linked lists, and the
socket pointers that each list then holds.

Main results:

- Theorem {lit}`Holds.addToStart`: {lit}`add_to_start` adds the socket pointer in front of the
  list with this name, and leaves every other list as it is.
- Theorem {lit}`Holds.freeNode`: {lit}`free_node` erases the first occurrence of the socket
  pointer from the list with this name, and leaves every other list as it is.
-/

namespace PubSub
namespace Broker

open Foundations

/-! ## Linked lists -/

/-- {lit}`connection_sockets`, or the subscriber list of a topic. -/
inductive ListName where
  | connectionSockets
  | subscriberConnectionSockets (i : Nat)
deriving DecidableEq, Repr

/-- The socket lists of the broker and the store of their nodes. -/
structure LinkedLists where
  nodes : Heap SocketPtr
  list : ListName → SocketList

namespace LinkedLists

/-- {lit}`add_to_start` on the list with this name. -/
def addToStart (l : LinkedLists) (name : ListName) (socketPtr : SocketPtr) (node : Addr) :
    LinkedLists :=
  let (nodes, list) := Broker.addToStart l.nodes (l.list name) socketPtr node
  ⟨nodes, Function.update l.list name list⟩

/-- {lit}`free_node` on the list with this name. -/
def freeNode (l : LinkedLists) (name : ListName) (socketPtr : SocketPtr) :
    Option (LinkedLists × Bool) :=
  (Broker.freeNode l.nodes (l.list name) socketPtr).map fun (nodes, list, removed) =>
    (⟨nodes, Function.update l.list name list⟩, removed)

/-- {lit}`subscribe` on the list of a topic that exists. -/
def subscribe (l : LinkedLists) (i : Nat) (connectionSocketPtr : SocketPtr) (node : Addr) :
    LinkedLists × Bool :=
  if (l.list (.subscriberConnectionSockets i)).size ≤ subscriberListMaxSize then
    (l.addToStart (.subscriberConnectionSockets i) connectionSocketPtr node, true)
  else (l, false)

/-- What {lit}`receive_commands` does to the lists when a connection closes. -/
def closeConnection (l : LinkedLists) (numberOfTopics : Nat) (connectionSocketPtr : SocketPtr) :
    Option LinkedLists := do
  let (l, _) ← l.freeNode .connectionSockets connectionSocketPtr
  (List.range numberOfTopics).foldlM (fun l i =>
    (l.freeNode (.subscriberConnectionSockets i) connectionSocketPtr).map Prod.fst) l

/-- The linked lists hold these socket pointers. -/
def Holds (l : LinkedLists) (contents : ListName → List SocketPtr) : Prop :=
  ∃ cs, ListsHold l.nodes l.list cs ∧ ∀ name, Heap.vals (cs name) = contents name

variable {l : LinkedLists} {contents : ListName → List SocketPtr}

/-- The sizes that the operations look at are lengths. -/
theorem Holds.size_eq (hl : l.Holds contents) (name : ListName) :
    (l.list name).size = (contents name).length := by
  rcases hl with ⟨cs, hlists, hvals⟩
  rw [hlists.size_eq, ← hvals name]
  simp

/-- {lit}`add_to_start` adds the socket pointer in front. -/
theorem Holds.addToStart (hl : l.Holds contents) (name : ListName) (socketPtr : SocketPtr)
    {node : Addr} (hfresh : l.nodes.read node = none) :
    (l.addToStart name socketPtr node).Holds
      (Function.update contents name (socketPtr :: contents name)) := by
  rcases hl with ⟨cs, hlists, hvals⟩
  refine ⟨_, addToStart_holds hlists name socketPtr _ hfresh, fun name' => ?_⟩
  by_cases hname : name' = name
  · subst hname
    simp [hvals]
  · simp [Function.update_of_ne hname, hvals]

/-- {lit}`free_node` erases the first occurrence of the socket pointer. -/
theorem Holds.freeNode (hl : l.Holds contents) (name : ListName) (socketPtr : SocketPtr) :
    ∃ l', l.freeNode name socketPtr = some (l', decide (socketPtr ∈ contents name)) ∧
      l'.Holds (Function.update contents name ((contents name).erase socketPtr)) := by
  rcases hl with ⟨cs, hlists, hvals⟩
  rcases freeNode_erase hlists name socketPtr with ⟨nodes, list, cs', hfree, hlists', hvals'⟩
  rw [hvals] at hfree hvals'
  refine ⟨⟨nodes, Function.update l.list name list⟩, ?_, _, hlists', fun name' => ?_⟩
  · rw [LinkedLists.freeNode, hfree, Option.map_some]
  · by_cases hname : name' = name
    · subst hname
      simpa using hvals'
    · simp [Function.update_of_ne hname, hvals]

end LinkedLists

/-! ## The lists of the main loop -/

/-- The socket pointers of each list, where there are these connections and topics. -/
def socketPtrs (connectionSockets : List SocketPtr) (topics : List Topic) :
    ListName → List SocketPtr
  | .connectionSockets => connectionSockets
  | .subscriberConnectionSockets i => (topics[i]?.map Topic.subscriberConnectionSockets).getD []

variable {l : LinkedLists} {connectionSockets : List SocketPtr} {topics : List Topic}

theorem socketPtrs_subscribers (connectionSockets : List SocketPtr) {i : Nat}
    (hi : i < topics.length) :
    socketPtrs connectionSockets topics (.subscriberConnectionSockets i) =
      topics[i].subscriberConnectionSockets := by
  simp [socketPtrs, hi]

theorem socketPtrs_cons (connectionSocketPtr : SocketPtr) :
    socketPtrs (connectionSocketPtr :: connectionSockets) topics =
      Function.update (socketPtrs connectionSockets topics) .connectionSockets
        (connectionSocketPtr :: connectionSockets) := by
  funext name
  cases name <;> simp [socketPtrs]

/-- Replacing a topic changes its subscriber list only. -/
theorem socketPtrs_set {i : Nat} (hi : i < topics.length) (topic : Topic) :
    socketPtrs connectionSockets (topics.set i topic) =
      Function.update (socketPtrs connectionSockets topics) (.subscriberConnectionSockets i)
        topic.subscriberConnectionSockets := by
  funext name
  cases name with
  | connectionSockets => simp [socketPtrs]
  | subscriberConnectionSockets j =>
      by_cases hj : j = i
      · subst hj
        simp [socketPtrs, hi]
      · simp [socketPtrs, hj, List.getElem?_set_ne (Ne.symm hj)]

end Broker
end PubSub
