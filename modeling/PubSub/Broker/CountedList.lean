import PubSub.Broker.BrokerMemory
import PubSub.Foundations.DataRefinement

/-!
# Socket lists as counted lists

Any sequence of calls of {lit}`add_to_start` and {lit}`free_node` on an initialised socket list,
and any sequence of subscribe and unsubscribe requests of any clients.  A list may have
several nodes of one client: {lit}`subscribe` does not look for one, and {lit}`unsubscribe`
removes one.

Main results:

- Theorem {lit}`listCall_refines`: a call on a socket list is a call on a list of socket
  pointers.
- Theorem {lit}`subscriptionCall_refines`: a request changes the subscriber list of the
  topic that is found under its name.
- Theorem {lit}`nodes_eq_subscribed_sub_unsubscribed`: the nodes of a client count its requests.
- Theorem {lit}`socketList_counted`: both for every sequence of calls.
-/

namespace PubSub
namespace Broker

open Foundations

/-! ## Calls on a list -/

/-- A socket list and the store of its nodes. -/
structure ListMemory where
  nodes : Heap SocketPtr
  list : SocketList

/-- A call on the list.  {lit}`node` is the address that {lit}`malloc` returns. -/
inductive ListCall where
  | addToStart (socketPtr : SocketPtr) (node : Addr)
  | freeNode (socketPtr : SocketPtr)
deriving DecidableEq, Repr

namespace ListMemory

/-- Make a call.  Only {lit}`free_node` returns something. -/
def call (s : ListMemory) : ListCall → Option (ListMemory × Option Bool)
  | .addToStart socketPtr node =>
      let (nodes, list) := Broker.addToStart s.nodes s.list socketPtr node
      some (⟨nodes, list⟩, none)
  | .freeNode socketPtr =>
      (Broker.freeNode s.nodes s.list socketPtr).map fun (nodes, list, removed) =>
        (⟨nodes, list⟩, some removed)

/-- {lit}`malloc` returns an address that is not allocated. -/
def Admits (s : ListMemory) : ListCall → Prop
  | .addToStart _ node => s.nodes.read node = none
  | .freeNode _ => True

/-- An initialised list, in a store that may hold other nodes. -/
def initialized (nodes : Heap SocketPtr) : ListMemory :=
  ⟨nodes, initializeSocketList⟩

/-- The chain from the head pointer is finite, visits no node twice and holds these socket
pointers, and {lit}`size` is its length. -/
def Represents (s : ListMemory) (socketPtrs : List SocketPtr) : Prop :=
  ∃ cs, s.nodes.Chain cs s.list.head ∧ (Heap.addrs cs).Nodup ∧ Heap.vals cs = socketPtrs ∧
    s.list.size = cs.length

/-- The list holds these socket pointers, seen as a family of one list. -/
def Holds (s : ListMemory) (socketPtrs : List SocketPtr) : Prop :=
  ∃ cs, ListsHold s.nodes (fun _ : Unit => s.list) (fun _ => cs) ∧ Heap.vals cs = socketPtrs

/-- In a family of one list, a change of that list is a change of all of them. -/
theorem listsHold_update {nodes : Heap SocketPtr} {list list' : SocketList}
    {cs cs' : List (Addr × SocketPtr)}
    (hlists : ListsHold nodes (Function.update (fun _ : Unit => list) () list')
      (Function.update (fun _ => cs) () cs')) :
    ListsHold nodes (fun _ : Unit => list') fun _ => cs' := by
  rw [Function.update_eq_const_of_subsingleton,
    Function.update_eq_const_of_subsingleton] at hlists
  exact hlists

/-- An initialised list is empty. -/
theorem initialized_holds (nodes : Heap SocketPtr) : (initialized nodes).Holds [] :=
  ⟨[], ⟨⟨fun _ => rfl, by simp⟩, fun _ => rfl⟩, rfl⟩

theorem Holds.represents {s : ListMemory} {socketPtrs : List SocketPtr}
    (hs : s.Holds socketPtrs) : s.Represents socketPtrs := by
  rcases hs with ⟨cs, hlists, hvals⟩
  have hchain : s.nodes.Chain cs s.list.head := hlists.family.chain ()
  exact ⟨cs, hchain, hchain.nodup, hvals, hlists.size_eq ()⟩

end ListMemory

/-- The calls on a list of socket pointers. -/
def referenceCall (socketPtrs : List SocketPtr) : ListCall → List SocketPtr × Option Bool
  | .addToStart socketPtr _ => (socketPtr :: socketPtrs, none)
  | .freeNode socketPtr => (socketPtrs.erase socketPtr, some (decide (socketPtr ∈ socketPtrs)))

/-- One call: {lit}`add_to_start` links a node in front, {lit}`free_node` unlinks the first node
with the socket pointer. -/
theorem listCall_refines (s : ListMemory) (socketPtrs : List SocketPtr) (c : ListCall)
    (hs : s.Holds socketPtrs) (hadmits : s.Admits c) :
    ∃ s', s.call c = some (s', (referenceCall socketPtrs c).2) ∧
      s'.Holds (referenceCall socketPtrs c).1 := by
  rcases hs with ⟨cs, hlists, rfl⟩
  cases c with
  | addToStart socketPtr node =>
      have hadded := addToStart_holds hlists () socketPtr node hadmits
      exact ⟨_, rfl, _, ListMemory.listsHold_update hadded, rfl⟩
  | freeNode socketPtr =>
      rcases freeNode_erase hlists () socketPtr with ⟨nodes, list, cs', hfree, hlists', hvals⟩
      refine ⟨⟨nodes, list⟩, ?_, cs', ListMemory.listsHold_update hlists', hvals⟩
      rw [ListMemory.call, hfree, Option.map_some, referenceCall]

/-! ## Subscribing and unsubscribing -/

/-- A subscribe or unsubscribe request of a client. -/
inductive SubscriptionCall where
  | subscribe (client : SocketPtr) (topicName : Bytes) (node : Addr)
  | unsubscribe (client : SocketPtr) (topicName : Bytes)
deriving DecidableEq, Repr

namespace BrokerMemory

/-- Carry out a request; the result says whether it has succeeded. -/
def subscriptionCall (m : BrokerMemory) : SubscriptionCall → Option (BrokerMemory × Bool)
  | .subscribe client topicName node => some (m.subscribe topicName client node)
  | .unsubscribe client topicName => m.unsubscribe topicName client

/-- {lit}`malloc` returns an address that is not allocated. -/
def AdmitsSubscription (m : BrokerMemory) : SubscriptionCall → Prop
  | .subscribe _ _ node => m.Fresh node
  | .unsubscribe _ _ => True

/-- The topics have these names and the lists hold these socket pointers. -/
def HoldsSubscribers (topicNames : List Bytes) (m : BrokerMemory)
    (contents : ListName → List SocketPtr) : Prop :=
  m.topicNames = topicNames ∧ m.lists.Holds contents

end BrokerMemory

/-- The place of the first topic with a name. -/
def topicIndex (topicNames : List Bytes) (topicName : Bytes) : Option Nat :=
  topicNames.findIdx? fun name => name = topicName

/-- The requests on lists of socket pointers. -/
def referenceSubscription (topicNames : List Bytes) (contents : ListName → List SocketPtr) :
    SubscriptionCall → (ListName → List SocketPtr) × Bool
  | .subscribe client topicName _ =>
      match topicIndex topicNames topicName with
      | none => (contents, false)
      | some i =>
          if (contents (.subscriberConnectionSockets i)).length ≤ subscriberListMaxSize then
            (Function.update contents (.subscriberConnectionSockets i)
              (client :: contents (.subscriberConnectionSockets i)), true)
          else (contents, false)
  | .unsubscribe client topicName =>
      match topicIndex topicNames topicName with
      | none => (contents, false)
      | some i =>
          (Function.update contents (.subscriberConnectionSockets i)
            ((contents (.subscriberConnectionSockets i)).erase client),
            decide (client ∈ contents (.subscriberConnectionSockets i)))

/-- One request. -/
theorem subscriptionCall_refines (topicNames : List Bytes) (m : BrokerMemory)
    (contents : ListName → List SocketPtr) (c : SubscriptionCall)
    (hm : m.HoldsSubscribers topicNames contents) (hadmits : m.AdmitsSubscription c) :
    ∃ m', m.subscriptionCall c = some (m', (referenceSubscription topicNames contents c).2) ∧
      m'.HoldsSubscribers topicNames (referenceSubscription topicNames contents c).1 := by
  rcases hm with ⟨rfl, hlists⟩
  cases c with
  | subscribe client topicName node =>
      rw [BrokerMemory.subscriptionCall, BrokerMemory.subscribe, BrokerMemory.getTopicByName,
        referenceSubscription, topicIndex]
      cases m.topicNames.findIdx? fun name => name = topicName with
      | none => exact ⟨m, rfl, rfl, hlists⟩
      | some i =>
          have hsize := hlists.size_eq (.subscriberConnectionSockets i)
          simp only [LinkedLists.subscribe, hsize, Nat.cast_le]
          split
          · exact ⟨_, rfl, rfl, hlists.addToStart _ client hadmits.1⟩
          · exact ⟨m, rfl, rfl, hlists⟩
  | unsubscribe client topicName =>
      rw [BrokerMemory.subscriptionCall, BrokerMemory.unsubscribe, BrokerMemory.getTopicByName,
        referenceSubscription, topicIndex]
      cases m.topicNames.findIdx? fun name => name = topicName with
      | none => exact ⟨m, rfl, rfl, hlists⟩
      | some i =>
          rcases hlists.freeNode (.subscriberConnectionSockets i) client with
            ⟨lists, hfree, hlists'⟩
          refine ⟨{ m with lists := lists }, ?_, rfl, hlists'⟩
          simp only [hfree, Option.map_some]

/-! ## Counting -/

/-- Is this a request of the client to subscribe to the topic? -/
def SubscriptionCall.subscribes (client : SocketPtr) (topicName : Bytes) :
    SubscriptionCall → Bool
  | .subscribe client' topicName' _ => client' = client && topicName' = topicName
  | .unsubscribe _ _ => false

/-- Is this a request of the client to unsubscribe from the topic? -/
def SubscriptionCall.unsubscribes (client : SocketPtr) (topicName : Bytes) :
    SubscriptionCall → Bool
  | .subscribe _ _ _ => false
  | .unsubscribe client' topicName' => client' = client && topicName' = topicName

/-- How many requests of a kind have succeeded. -/
def successes (kind : SubscriptionCall → Bool) (log : List (SubscriptionCall × Bool)) : Nat :=
  log.countP fun (c, success) => kind c && success

theorem successes_append_singleton (kind : SubscriptionCall → Bool)
    (log : List (SubscriptionCall × Bool)) (c : SubscriptionCall) (success : Bool) :
    successes kind (log ++ [(c, success)]) =
      successes kind log + if kind c && success then 1 else 0 := by
  simp [successes, List.countP_append, List.countP_singleton]

/-- In every subscriber list, the nodes of every client are as many as its successful subscribe
requests exceed its successful unsubscribe requests. -/
def CountsRequests (topicNames : List Bytes) (contents : ListName → List SocketPtr)
    (log : List (SubscriptionCall × Bool)) : Prop :=
  ∀ topicName i client, topicIndex topicNames topicName = some i →
    ((contents (.subscriberConnectionSockets i)).count client : Int) =
      successes (SubscriptionCall.subscribes client topicName) log -
        successes (SubscriptionCall.unsubscribes client topicName) log

/-- Two topics at one place have one name. -/
theorem topicIndex_inj {topicNames : List Bytes} {topicName topicName' : Bytes} {i : Nat}
    (h : topicIndex topicNames topicName = some i)
    (h' : topicIndex topicNames topicName' = some i) : topicName = topicName' := by
  rcases List.findIdx?_eq_some_iff_getElem.mp h with ⟨hlt, hname, -⟩
  rcases List.findIdx?_eq_some_iff_getElem.mp h' with ⟨hlt', hname', -⟩
  rw [decide_eq_true_eq] at hname hname'
  exact hname.symm.trans hname'

/-- A request that does not succeed is not counted. -/
theorem countsRequests_failed {topicNames : List Bytes} {contents : ListName → List SocketPtr}
    {log : List (SubscriptionCall × Bool)} (h : CountsRequests topicNames contents log)
    (c : SubscriptionCall) : CountsRequests topicNames contents (log ++ [(c, false)]) := by
  intro topicName i client hi
  simpa [successes_append_singleton] using h topicName i client hi

/-- A successful request changes the list of one topic, and the count of every client there by
what it is counted as. -/
theorem countsRequests_update {topicNames : List Bytes} {contents : ListName → List SocketPtr}
    {log : List (SubscriptionCall × Bool)} (h : CountsRequests topicNames contents log)
    {c : SubscriptionCall} {topicName : Bytes} {i : Nat} {socketPtrs : List SocketPtr}
    (hi : topicIndex topicNames topicName = some i)
    (hother : ∀ client' topicName', topicName' ≠ topicName →
      c.subscribes client' topicName' = false ∧ c.unsubscribes client' topicName' = false)
    (hcount : ∀ client', (socketPtrs.count client' : Int) =
      (contents (.subscriberConnectionSockets i)).count client' +
        (if c.subscribes client' topicName then 1 else 0) -
          (if c.unsubscribes client' topicName then 1 else 0)) :
    CountsRequests topicNames
      (Function.update contents (.subscriberConnectionSockets i) socketPtrs)
      (log ++ [(c, true)]) := by
  intro topicName' j client' hj
  have hbefore := h topicName' j client' hj
  rw [successes_append_singleton, successes_append_singleton, Bool.and_true, Bool.and_true]
  by_cases hij : j = i
  · subst hij
    have hafter := hcount client'
    rw [topicIndex_inj hj hi] at hbefore ⊢
    rw [Function.update_self, hafter, hbefore]
    push_cast
    omega
  · have hne : ListName.subscriberConnectionSockets j ≠ .subscriberConnectionSockets i := by
      simpa using hij
    have hname : topicName' ≠ topicName := by
      rintro rfl
      exact hij (Option.some.inj (hj.symm.trans hi))
    rcases hother client' topicName' hname with ⟨hsubscribes, hunsubscribes⟩
    rw [Function.update_of_ne hne, hbefore, hsubscribes, hunsubscribes]
    simp

/-- A successful subscribe request adds a node. -/
theorem countsRequests_subscribed {topicNames : List Bytes} {contents : ListName → List SocketPtr}
    {log : List (SubscriptionCall × Bool)} (h : CountsRequests topicNames contents log)
    (client : SocketPtr) {topicName : Bytes} {i : Nat}
    (hi : topicIndex topicNames topicName = some i) (node : Addr) :
    CountsRequests topicNames
      (Function.update contents (.subscriberConnectionSockets i)
        (client :: contents (.subscriberConnectionSockets i)))
      (log ++ [(.subscribe client topicName node, true)]) := by
  apply countsRequests_update h hi
  · intro client' topicName' hne
    simp [SubscriptionCall.subscribes, SubscriptionCall.unsubscribes, hne.symm]
  · intro client'
    rw [List.count_cons]
    by_cases hclient : client = client'
    · simp [SubscriptionCall.subscribes, SubscriptionCall.unsubscribes, hclient]
    · simp [SubscriptionCall.subscribes, SubscriptionCall.unsubscribes, hclient]

/-- A successful unsubscribe request removes a node. -/
theorem countsRequests_unsubscribed {topicNames : List Bytes}
    {contents : ListName → List SocketPtr} {log : List (SubscriptionCall × Bool)}
    (h : CountsRequests topicNames contents log) {client : SocketPtr} {topicName : Bytes} {i : Nat}
    (hi : topicIndex topicNames topicName = some i)
    (hmem : client ∈ contents (.subscriberConnectionSockets i)) :
    CountsRequests topicNames
      (Function.update contents (.subscriberConnectionSockets i)
        ((contents (.subscriberConnectionSockets i)).erase client))
      (log ++ [(.unsubscribe client topicName, true)]) := by
  apply countsRequests_update h hi
  · intro client' topicName' hne
    simp [SubscriptionCall.subscribes, SubscriptionCall.unsubscribes, hne.symm]
  · intro client'
    rw [List.count_erase]
    by_cases hclient : client = client'
    · subst hclient
      have hpos := List.count_pos_iff.mpr hmem
      simp only [SubscriptionCall.subscribes, SubscriptionCall.unsubscribes, decide_true,
        Bool.and_self, beq_self_eq_true, if_true, Bool.false_eq_true, if_false]
      omega
    · simp [SubscriptionCall.subscribes, SubscriptionCall.unsubscribes, hclient]

/-- Every request keeps the count. -/
theorem referenceSubscription_counts {topicNames : List Bytes}
    (contents : ListName → List SocketPtr) (c : SubscriptionCall)
    (log : List (SubscriptionCall × Bool)) (h : CountsRequests topicNames contents log) :
    CountsRequests topicNames (referenceSubscription topicNames contents c).1
      (log ++ [(c, (referenceSubscription topicNames contents c).2)]) := by
  cases c with
  | subscribe client topicName node =>
      rw [referenceSubscription]
      cases hi : topicIndex topicNames topicName with
      | none => exact countsRequests_failed h _
      | some i =>
          simp only
          split
          · exact countsRequests_subscribed h client hi node
          · exact countsRequests_failed h _
  | unsubscribe client topicName =>
      rw [referenceSubscription]
      cases hi : topicIndex topicNames topicName with
      | none => exact countsRequests_failed h _
      | some i =>
          by_cases hmem : client ∈ contents (.subscriberConnectionSockets i)
          · simp only [hmem, decide_true]
            exact countsRequests_unsubscribed h hi hmem
          · simp only [hmem, decide_false]
            rw [List.erase_of_not_mem hmem, Function.update_eq_self]
            exact countsRequests_failed h _

/-- At first there is nothing to count. -/
theorem countsRequests_nil (topicNames : List Bytes) {contents : ListName → List SocketPtr}
    (hempty : ∀ i, contents (.subscriberConnectionSockets i) = []) :
    CountsRequests topicNames contents [] := by
  intro topicName i client _
  simp [hempty, successes]

/-- After any sequence of requests, the nodes of a client in the list of a topic are its successful
subscribe requests less its successful unsubscribe requests, and the next unsubscribe
request succeeds exactly when there is one. -/
theorem nodes_eq_subscribed_sub_unsubscribed {m : BrokerMemory}
    {contents : ListName → List SocketPtr} (hm : m.lists.Holds contents)
    (hempty : ∀ i, contents (.subscriberConnectionSockets i) = [])
    {calls : List SubscriptionCall}
    (hmalloc : CallsAdmitted BrokerMemory.subscriptionCall BrokerMemory.AdmitsSubscription m
      calls) :
    ∃ m' results, runCalls BrokerMemory.subscriptionCall m calls = some (m', results) ∧
      ∀ topicName i client, topicIndex m.topicNames topicName = some i →
        ∃ cs, m'.lists.nodes.Chain cs
            (m'.lists.list (.subscriberConnectionSockets i)).head ∧
          ((Heap.vals cs).count client : Int) =
            successes (SubscriptionCall.subscribes client topicName) (calls.zip results) -
              successes (SubscriptionCall.unsubscribes client topicName) (calls.zip results) ∧
          ∃ m'', m'.unsubscribe topicName client =
            some (m'', decide (0 < (Heap.vals cs).count client)) := by
  rcases runCalls_refines (subscriptionCall_refines m.topicNames) ⟨rfl, hm⟩ hmalloc with
    ⟨m', hrun, hm'⟩
  have hcounts := runReference_invariant referenceSubscription_counts
    (countsRequests_nil m.topicNames hempty) calls
  refine ⟨m', _, hrun, fun topicName i client hi => ?_⟩
  rcases hm'.2 with ⟨cs, hlists, hvals⟩
  refine ⟨cs (.subscriberConnectionSockets i), hlists.family.chain _, ?_, ?_⟩
  · rw [hvals]
    simpa using hcounts topicName i client hi
  · rcases subscriptionCall_refines m.topicNames m' _ (.unsubscribe client topicName) hm' trivial
      with ⟨m'', hcall, -⟩
    refine ⟨m'', ?_⟩
    rw [BrokerMemory.subscriptionCall, referenceSubscription, hi] at hcall
    rw [hcall, hvals]
    simp only [List.count_pos_iff]

/-- A socket list is a counted list.  Any sequence of calls on an initialised one goes through,
returns what the list of socket pointers returns, and leaves a finite chain of its
length, which holds these socket pointers; and under any sequence of subscribe and unsubscribe
requests on topics without subscribers, the nodes of a client count its requests. -/
theorem socketList_counted :
    (∀ nodes calls,
      CallsAdmitted ListMemory.call ListMemory.Admits (.initialized nodes) calls →
        ∃ s, runCalls ListMemory.call (.initialized nodes) calls =
            some (s, (runReference referenceCall [] calls).2) ∧
          s.Represents (runReference referenceCall [] calls).1) ∧
      ∀ (m : BrokerMemory) (contents : ListName → List SocketPtr) (calls : List SubscriptionCall),
        m.lists.Holds contents → (∀ i, contents (.subscriberConnectionSockets i) = []) →
        CallsAdmitted BrokerMemory.subscriptionCall BrokerMemory.AdmitsSubscription m calls →
        ∃ m' results, runCalls BrokerMemory.subscriptionCall m calls = some (m', results) ∧
          ∀ topicName i client, topicIndex m.topicNames topicName = some i →
            ∃ cs, m'.lists.nodes.Chain cs
                (m'.lists.list (.subscriberConnectionSockets i)).head ∧
              ((Heap.vals cs).count client : Int) =
                successes (SubscriptionCall.subscribes client topicName) (calls.zip results) -
                  successes (SubscriptionCall.unsubscribes client topicName)
                    (calls.zip results) ∧
              ∃ m'', m'.unsubscribe topicName client =
                some (m'', decide (0 < (Heap.vals cs).count client)) := by
  refine ⟨fun nodes calls hmalloc => ?_, fun m contents calls hm hempty hmalloc => ?_⟩
  · rcases runCalls_refines listCall_refines (ListMemory.initialized_holds nodes) hmalloc with
      ⟨s, hrun, hs⟩
    exact ⟨s, hrun, hs.represents⟩
  · exact nodes_eq_subscribed_sub_unsubscribed hm hempty hmalloc

/-- A list with two nodes of one socket pointer, of which one is freed. -/
def addTwice : List ListCall :=
  [.addToStart 7 0, .addToStart 7 1, .freeNode 7]

/-- A client subscribes twice to news and unsubscribes once. -/
def subscribeTwice : List SubscriptionCall :=
  [.subscribe 7 news 0, .subscribe 7 news 1, .unsubscribe 7 news]

/-- One node is left of each. -/
theorem socketList_counted_twice :
    CallsAdmitted ListMemory.call ListMemory.Admits (.initialized Heap.empty) addTwice ∧
      CallsAdmitted BrokerMemory.subscriptionCall BrokerMemory.AdmitsSubscription (.start [news])
        subscribeTwice ∧
      (∃ s, runCalls ListMemory.call (.initialized Heap.empty) addTwice =
          some (s, [none, none, some true]) ∧ s.Represents [7]) ∧
      ∃ m' results,
        runCalls BrokerMemory.subscriptionCall (.start [news]) subscribeTwice =
            some (m', results) ∧
          ∀ topicName i client, topicIndex [news] topicName = some i →
            ∃ cs, m'.lists.nodes.Chain cs
                (m'.lists.list (.subscriberConnectionSockets i)).head ∧
              ((Heap.vals cs).count client : Int) =
                successes (SubscriptionCall.subscribes client topicName)
                    (subscribeTwice.zip results) -
                  successes (SubscriptionCall.unsubscribes client topicName)
                    (subscribeTwice.zip results) ∧
              ∃ m'', m'.unsubscribe topicName client =
                some (m'', decide (0 < (Heap.vals cs).count client)) := by
  have hlist : CallsAdmitted ListMemory.call ListMemory.Admits (.initialized Heap.empty)
      addTwice := by
    exact .cons rfl rfl (.cons rfl rfl (.cons trivial rfl trivial))
  have hsubscriptions : CallsAdmitted BrokerMemory.subscriptionCall
      BrokerMemory.AdmitsSubscription (.start [news]) subscribeTwice := by
    exact .cons ⟨rfl, rfl⟩ rfl (.cons ⟨rfl, rfl⟩ rfl (.cons trivial rfl trivial))
  have hempty : (BrokerMemory.start [news]).lists.Holds fun _ => [] :=
    ⟨_, (BrokerMemory.start_holds [news]).lists, fun _ => rfl⟩
  refine ⟨hlist, hsubscriptions, ?_, ?_⟩
  · exact socketList_counted.1 Heap.empty addTwice hlist
  · exact socketList_counted.2 (.start [news]) _ subscribeTwice hempty (fun _ => rfl)
      hsubscriptions

end Broker
end PubSub
