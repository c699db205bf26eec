import PubSub.Broker.LinkedLists
import PubSub.Broker.MessageQueue

/-!
# Executing commands in memory

{lit}`execute_command` as it acts on the linked structures: the nodes of the message queues
and of the socket lists, each in its store.  The abstract transition of a command says
which node is appended, added in front or removed, and what is returned; it is stated
over the nodes of all queues and lists, so that it also says what is left alone.

Main results:

- Relation {lit}`Transition`: what a command of a client does and is answered.
- Theorem {lit}`Transition.unique`: with distinct topic names it leaves no choice.
- Theorem {lit}`executeCommand_refines`: {lit}`execute_command` takes exactly this transition.
- Theorem {lit}`Transition.perform`: on the messages and the socket pointers it is the
  transition of the main loop.
-/

namespace PubSub
namespace Broker

open Foundations Client

/-! ## Memory -/

/-- The topics and the socket lists of the broker: the name of each topic, in the order of
{lit}`topics`, the linked lists, and the message queue of each topic. -/
structure BrokerMemory where
  topicNames : List Bytes
  lists : LinkedLists
  messageNodes : Heap Bytes
  messageQueue : Nat → MessageQueue

namespace BrokerMemory

/-- {lit}`get_topic_by_name`. -/
def getTopicByName (m : BrokerMemory) (topicName : Bytes) : Option Nat :=
  m.topicNames.findIdx? fun name => name = topicName

/-- {lit}`publish`, where {lit}`node` is the address that {lit}`malloc` returns. -/
def publish (m : BrokerMemory) (topicName message : Bytes) (node : Addr) :
    Option (BrokerMemory × Bool) :=
  match m.getTopicByName topicName with
  | none => some (m, false)
  | some i =>
      (enqueueUnsafe m.messageNodes (m.messageQueue i) node message).map fun (nodes, queue) =>
        ({ m with
          messageNodes := nodes
          messageQueue := Function.update m.messageQueue i queue }, true)

/-- {lit}`subscribe`. -/
def subscribe (m : BrokerMemory) (topicName : Bytes) (connectionSocketPtr : SocketPtr)
    (node : Addr) : BrokerMemory × Bool :=
  match m.getTopicByName topicName with
  | none => (m, false)
  | some i =>
      let (lists, added) := m.lists.subscribe i connectionSocketPtr node
      ({ m with lists := lists }, added)

/-- {lit}`unsubscribe`. -/
def unsubscribe (m : BrokerMemory) (topicName : Bytes) (connectionSocketPtr : SocketPtr) :
    Option (BrokerMemory × Bool) :=
  match m.getTopicByName topicName with
  | none => some (m, false)
  | some i =>
      (m.lists.freeNode (.subscriberConnectionSockets i) connectionSocketPtr).map
        fun (lists, removed) => ({ m with lists := lists }, removed)

/-- {lit}`topic_exists`. -/
def topicExists (m : BrokerMemory) (topicName : Bytes) : Bytes :=
  match m.getTopicByName topicName with
  | none => [byteOf '0']
  | some _ => [byteOf '1']

/-- {lit}`subscriber_number`. -/
def subscriberNumber (m : BrokerMemory) (topicName : Bytes) : Option Bytes :=
  match m.getTopicByName topicName with
  | none => some [hashtag]
  | some i => itoaSInt (m.lists.list (.subscriberConnectionSockets i)).size (5 + 1)

/-- What a call of {lit}`execute_command` leaves and returns. -/
structure Execution where
  memory : BrokerMemory
  response : Option Bytes
  notification : Option Bytes

/-- {lit}`execute_command`.  It allocates at most one node, at the address {lit}`node`. -/
def executeCommand (m : BrokerMemory) (command : Bytes) (connectionSocketPtr : SocketPtr)
    (node : Addr) : Option Execution :=
  match command with
  | [] => none
  | commandType :: _ =>
      if commandType = byteOf '2' then do
        let (topicName, message) ← extractForPublish command
        let (m, success) ← m.publish topicName message node
        let notification ← notifyOnSuccess command success
        return ⟨m, none, notification⟩
      else if commandType = byteOf '3' then do
        let topicName ← extractTopicName command
        let (m, success) := m.subscribe topicName connectionSocketPtr node
        let notification ← notifyOnSuccess command success
        return ⟨m, none, notification⟩
      else if commandType = byteOf '4' then do
        let topicName ← extractTopicName command
        let response := m.topicExists topicName
        let notification ← notifyOnSuccess command (response[0]? = some (byteOf '1'))
        return ⟨m, some response, notification⟩
      else if commandType = byteOf '5' then do
        let topicName ← extractTopicName command
        let response ← m.subscriberNumber topicName
        let notification ← notifyOnSuccess command (response[0]? ≠ some hashtag)
        return ⟨m, some response, notification⟩
      else if commandType = byteOf '6' then do
        let topicName ← extractTopicName command
        let (m, success) ← m.unsubscribe topicName connectionSocketPtr
        let notification ← notifyOnSuccess command success
        return ⟨m, none, notification⟩
      else some ⟨m, none, none⟩

/-- {lit}`malloc` returns an address that is not allocated. -/
def Fresh (m : BrokerMemory) (node : Addr) : Prop :=
  m.lists.nodes.read node = none ∧ m.messageNodes.read node = none

/-- The memory before the first command: {lit}`initialize_topic` for each name, and no
connections. -/
def start (topicNames : List Bytes) : BrokerMemory where
  topicNames := topicNames
  lists := ⟨Heap.empty, fun _ => initializeSocketList⟩
  messageNodes := Heap.empty
  messageQueue := fun _ => initializeMessageQueue

end BrokerMemory

/-! ## What the memory holds -/

/-- The nodes of every message queue and of every socket list, first to last. -/
structure Contents where
  queue : Nat → List (Addr × Bytes)
  list : ListName → List (Addr × SocketPtr)

namespace Contents

/-- Other nodes in a queue. -/
def setQueue (s : Contents) (i : Nat) (nodes : List (Addr × Bytes)) : Contents :=
  { s with queue := Function.update s.queue i nodes }

/-- Other nodes in a list. -/
def setList (s : Contents) (name : ListName) (nodes : List (Addr × SocketPtr)) : Contents :=
  { s with list := Function.update s.list name nodes }

end Contents

/-- The queues and lists in memory consist of these nodes, no two share a node, and every
{lit}`size` is a length. -/
structure BrokerMemory.Holds (m : BrokerMemory) (s : Contents) : Prop where
  queues : QueueCells m.messageNodes m.messageQueue s.queue
  lists : ListsHold m.lists.nodes m.lists.list s.list

/-- At first the queues and lists are empty. -/
theorem BrokerMemory.start_holds (topicNames : List Bytes) :
    (start topicNames).Holds ⟨fun _ => [], fun _ => []⟩ where
  queues := initializeMessageQueue_cells Heap.empty
  lists := initializeSocketList_holds

/-- The response to a query about a topic that does not exist. -/
def unknownTopicResponse : Command → Option Bytes
  | .topicExists _ => some [byteOf '0']
  | .subscriberNumber _ => some [hashtag]
  | _ => none

/-- The abstract transition of a command of a client: the response, and the one queue or list
that changes, by one node. -/
inductive Transition (topicNames : List Bytes) (client : SocketPtr) (node : Addr) (s : Contents) :
    Command → Option Bytes → Contents → Prop
  | publish {topic message : Bytes} {i : Nat} (hi : topicNames[i]? = some topic) :
      Transition topicNames client node s (.publish topic message) none
        (s.setQueue i (s.queue i ++ [(node, hashtag :: message)]))
  | subscribe {topic : Bytes} {i : Nat} (hi : topicNames[i]? = some topic)
      (hroom : (s.list (.subscriberConnectionSockets i)).length ≤ subscriberListMaxSize) :
      Transition topicNames client node s (.subscribe topic) none
        (s.setList (.subscriberConnectionSockets i)
          ((node, client) :: s.list (.subscriberConnectionSockets i)))
  | subscribeFull {topic : Bytes} {i : Nat} (hi : topicNames[i]? = some topic)
      (hfull : subscriberListMaxSize < (s.list (.subscriberConnectionSockets i)).length) :
      Transition topicNames client node s (.subscribe topic) none s
  | unsubscribe {topic : Bytes} {i : Nat} (hi : topicNames[i]? = some topic)
      {pre post : List (Addr × SocketPtr)} {a : Addr}
      (hlist : s.list (.subscriberConnectionSockets i) = pre ++ (a, client) :: post)
      (hfirst : ∀ c ∈ pre, c.2 ≠ client) :
      Transition topicNames client node s (.unsubscribe topic) none
        (s.setList (.subscriberConnectionSockets i) (pre ++ post))
  | unsubscribeAbsent {topic : Bytes} {i : Nat} (hi : topicNames[i]? = some topic)
      (habsent : ∀ c ∈ s.list (.subscriberConnectionSockets i), c.2 ≠ client) :
      Transition topicNames client node s (.unsubscribe topic) none s
  | topicExists {topic : Bytes} {i : Nat} (hi : topicNames[i]? = some topic) :
      Transition topicNames client node s (.topicExists topic) (some [byteOf '1']) s
  | subscriberNumber {topic : Bytes} {i : Nat} (hi : topicNames[i]? = some topic) :
      Transition topicNames client node s (.subscriberNumber topic)
        (some (decimal (s.list (.subscriberConnectionSockets i)).length)) s
  | unknownTopic {c : Command} (hunknown : c.topic ∉ topicNames) :
      Transition topicNames client node s c (unknownTopicResponse c) s

/-! ## The transition is determined -/

/-- Distinct names stand at distinct places. -/
theorem index_unique {topicNames : List Bytes} (hnames : topicNames.Nodup) {topic : Bytes}
    {i j : Nat} (hi : topicNames[i]? = some topic) (hj : topicNames[j]? = some topic) : i = j := by
  rcases List.getElem?_eq_some_iff.mp hi with ⟨hlt, -⟩
  exact (List.getElem?_inj hlt hnames).mp (hi.trans hj.symm)

/-- Without its first node of a client, a list is what {lit}`List.eraseP` leaves. -/
theorem append_eq_eraseP {nodes pre post : List (Addr × SocketPtr)} {a : Addr}
    {client : SocketPtr} (hnodes : nodes = pre ++ (a, client) :: post)
    (hfirst : ∀ c ∈ pre, c.2 ≠ client) :
    pre ++ post = nodes.eraseP fun c => c.2 = client := by
  rw [hnodes, List.eraseP_append_right _ (by simpa using hfirst),
    List.eraseP_cons_of_pos (by simp)]

/-- Where topics have distinct names, a command has one response and one effect. -/
theorem Transition.unique {topicNames : List Bytes} (hnames : topicNames.Nodup)
    {client : SocketPtr} {node : Addr} {s s' s'' : Contents} {c : Command}
    {response response' : Option Bytes} (h : Transition topicNames client node s c response s')
    (h' : Transition topicNames client node s c response' s'') :
    response = response' ∧ s' = s'' := by
  cases h with
  | publish hi =>
      cases h' with
      | publish hj =>
          cases index_unique hnames hi hj
          exact ⟨rfl, rfl⟩
      | unknownTopic hunknown => exact absurd (List.mem_of_getElem? hi) hunknown
  | subscribe hi hroom =>
      cases h' with
      | subscribe hj =>
          cases index_unique hnames hi hj
          exact ⟨rfl, rfl⟩
      | subscribeFull hj hfull =>
          cases index_unique hnames hi hj
          omega
      | unknownTopic hunknown => exact absurd (List.mem_of_getElem? hi) hunknown
  | subscribeFull hi hfull =>
      cases h' with
      | subscribe hj hroom =>
          cases index_unique hnames hi hj
          omega
      | subscribeFull hj => exact ⟨rfl, rfl⟩
      | unknownTopic hunknown => exact absurd (List.mem_of_getElem? hi) hunknown
  | unsubscribe hi hlist hfirst =>
      cases h' with
      | unsubscribe hj hlist' hfirst' =>
          cases index_unique hnames hi hj
          rw [append_eq_eraseP hlist hfirst, append_eq_eraseP hlist' hfirst']
          exact ⟨rfl, rfl⟩
      | unsubscribeAbsent hj habsent =>
          cases index_unique hnames hi hj
          rw [hlist] at habsent
          exact absurd rfl (habsent _ (List.mem_append_right _ List.mem_cons_self))
      | unknownTopic hunknown => exact absurd (List.mem_of_getElem? hi) hunknown
  | unsubscribeAbsent hi habsent =>
      cases h' with
      | unsubscribe hj hlist' =>
          cases index_unique hnames hi hj
          rw [hlist'] at habsent
          exact absurd rfl (habsent _ (List.mem_append_right _ List.mem_cons_self))
      | unsubscribeAbsent hj => exact ⟨rfl, rfl⟩
      | unknownTopic hunknown => exact absurd (List.mem_of_getElem? hi) hunknown
  | topicExists hi =>
      cases h' with
      | topicExists hj => exact ⟨rfl, rfl⟩
      | unknownTopic hunknown => exact absurd (List.mem_of_getElem? hi) hunknown
  | subscriberNumber hi =>
      cases h' with
      | subscriberNumber hj =>
          cases index_unique hnames hi hj
          exact ⟨rfl, rfl⟩
      | unknownTopic hunknown => exact absurd (List.mem_of_getElem? hi) hunknown
  | unknownTopic hunknown =>
      cases h' with
      | unknownTopic => exact ⟨rfl, rfl⟩
      | publish hj | subscribe hj | subscribeFull hj | unsubscribe hj | unsubscribeAbsent hj
      | topicExists hj | subscriberNumber hj =>
          exact absurd (List.mem_of_getElem? hj) hunknown

/-- No command changes the list of connections. -/
theorem Transition.connectionSockets_eq {topicNames : List Bytes} {client : SocketPtr}
    {node : Addr} {s s' : Contents} {c : Command} {response : Option Bytes}
    (h : Transition topicNames client node s c response s') :
    s'.list .connectionSockets = s.list .connectionSockets := by
  cases h <;> simp [Contents.setQueue, Contents.setList]

/-- A command adds at most one node to a list. -/
theorem Transition.length_list_le {topicNames : List Bytes} {client : SocketPtr} {node : Addr}
    {s s' : Contents} {c : Command} {response : Option Bytes}
    (h : Transition topicNames client node s c response s') (name : ListName) :
    (s'.list name).length ≤ (s.list name).length + 1 := by
  cases h with
  | @subscribe topic i hi hroom =>
      by_cases hname : name = .subscriberConnectionSockets i
      · subst hname
        simp [Contents.setList]
      · simp [Contents.setList, Function.update_of_ne hname]
  | @unsubscribe topic i hi pre post a hlist hfirst =>
      by_cases hname : name = .subscriberConnectionSockets i
      · subst hname
        simp [Contents.setList, hlist]
        omega
      · simp [Contents.setList, Function.update_of_ne hname]
  | publish | subscribeFull | unsubscribeAbsent | topicExists | subscriberNumber
  | unknownTopic =>
      exact Nat.le_succ _

/-! ## What the operations do -/

/-- {lit}`free_node` on a linked list, node by node. -/
theorem LinkedLists.freeNode_cases {l : LinkedLists} {cs : ListName → List (Addr × SocketPtr)}
    (hl : ListsHold l.nodes l.list cs) (name : ListName) (socketPtr : SocketPtr) :
    (∀ c ∈ cs name, c.2 ≠ socketPtr) ∧ l.freeNode name socketPtr = some (l, false) ∨
      ∃ pre a post l', cs name = pre ++ (a, socketPtr) :: post ∧
        (∀ c ∈ pre, c.2 ≠ socketPtr) ∧ l.freeNode name socketPtr = some (l', true) ∧
        ListsHold l'.nodes l'.list (Function.update cs name (pre ++ post)) ∧
        l'.nodes.read a = none := by
  by_cases hmem : socketPtr ∈ Heap.vals (cs name)
  · right
    rcases exists_first hmem with ⟨pre, a, post, hcs, hfirst⟩
    rcases freeNode_found hl hcs hfirst with ⟨nodes, list, hfree, hl', hread⟩
    refine ⟨pre, a, post, ⟨nodes, Function.update l.list name list⟩, hcs, hfirst, ?_, hl', hread⟩
    rw [LinkedLists.freeNode, hfree, Option.map_some]
  · left
    have habsent : ∀ c ∈ cs name, c.2 ≠ socketPtr := by
      rintro c hc rfl
      exact hmem (List.mem_map_of_mem hc)
    refine ⟨habsent, ?_⟩
    rw [LinkedLists.freeNode, freeNode_absent hl habsent, Option.map_some]
    simp only [Function.update_eq_self]

namespace BrokerMemory

variable {m m' : BrokerMemory} {s s' : Contents} {client : SocketPtr} {node : Addr}

/-- A topic is found under its name, or there is none of this name. -/
theorem getTopicByName_cases (m : BrokerMemory) (topicName : Bytes) :
    m.getTopicByName topicName = none ∧ topicName ∉ m.topicNames ∨
      ∃ i, m.getTopicByName topicName = some i ∧ m.topicNames[i]? = some topicName := by
  unfold getTopicByName
  cases hfind : m.topicNames.findIdx? fun name => name = topicName with
  | none =>
      left
      rw [List.findIdx?_eq_none_iff] at hfind
      refine ⟨rfl, fun hmem => ?_⟩
      simpa using hfind topicName hmem
  | some i =>
      right
      rcases List.findIdx?_eq_some_iff_getElem.mp hfind with ⟨hlt, hname, -⟩
      refine ⟨i, rfl, ?_⟩
      rw [List.getElem?_eq_getElem hlt, Option.some.injEq]
      simpa using hname

/-- Memory {lit}`m'` is what the transition of a command leaves of memory {lit}`m`. -/
structure Takes (m : BrokerMemory) (client : SocketPtr) (node : Addr) (s : Contents)
    (c : Command) (response : Option Bytes) (m' : BrokerMemory) (s' : Contents) : Prop where
  topicNames_eq : m'.topicNames = m.topicNames
  holds : m'.Holds s'
  transition : Transition m.topicNames client node s c response s'
  unchanged : s' = s → m' = m

/-- A command that fails or only asks leaves the memory as it is. -/
theorem Holds.takes_self (hm : m.Holds s) {c : Command} {response : Option Bytes}
    (h : Transition m.topicNames client node s c response s) :
    m.Takes client node s c response m s :=
  ⟨rfl, hm, h, fun _ => rfl⟩

/-- {lit}`publish` appends a node to the queue of the topic, if there is this topic. -/
theorem publish_cases (hm : m.Holds s) (hfresh : m.Fresh node) (topicName message : Bytes) :
    topicName ∉ m.topicNames ∧ m.publish topicName message node = some (m, false) ∨
      ∃ i m', m.topicNames[i]? = some topicName ∧
        m.publish topicName message node = some (m', true) ∧ m'.topicNames = m.topicNames ∧
        m'.Holds (s.setQueue i (s.queue i ++ [(node, message)])) := by
  rcases m.getTopicByName_cases topicName with ⟨hget, hunknown⟩ | ⟨i, hget, hi⟩
  · left
    exact ⟨hunknown, by simp only [publish, hget]⟩
  · right
    rcases enqueueUnsafe_cells hm.queues i message hfresh.2 with ⟨nodes, queue, henqueue, hqueues⟩
    refine ⟨i, { m with
        messageNodes := nodes
        messageQueue := Function.update m.messageQueue i queue }, hi, ?_, rfl, hqueues, hm.lists⟩
    simp only [publish, hget, henqueue, Option.map_some]

theorem publish_takes (hm : m.Holds s) (client : SocketPtr) (hfresh : m.Fresh node)
    (topic message : Bytes) :
    ∃ m' success s', m.publish topic (hashtag :: message) node = some (m', success) ∧
      m.Takes client node s (.publish topic message) none m' s' := by
  rcases publish_cases hm hfresh topic (hashtag :: message) with
    ⟨hunknown, hpublish⟩ | ⟨i, m', hi, hpublish, hnames, hm'⟩
  · exact ⟨m, false, s, hpublish,
      hm.takes_self (.unknownTopic (c := .publish topic message) hunknown)⟩
  · refine ⟨m', true, _, hpublish, hnames, hm', .publish hi, fun heq => ?_⟩
    have hlength := congrArg (fun s : Contents => (s.queue i).length) heq
    simp [Contents.setQueue] at hlength

theorem subscribe_takes (hm : m.Holds s) (client : SocketPtr) (hfresh : m.Fresh node)
    (topic : Bytes) :
    ∃ s', m.Takes client node s (.subscribe topic) none (m.subscribe topic client node).1 s' := by
  rcases m.getTopicByName_cases topic with ⟨hget, hunknown⟩ | ⟨i, hget, hi⟩
  · refine ⟨s, ?_⟩
    simp only [subscribe, hget]
    exact hm.takes_self (.unknownTopic (c := .subscribe topic) hunknown)
  · have hsize := hm.lists.size_eq (.subscriberConnectionSockets i)
    simp only [subscribe, hget, LinkedLists.subscribe, hsize, Nat.cast_le]
    by_cases hroom : (s.list (.subscriberConnectionSockets i)).length ≤ subscriberListMaxSize
    · refine ⟨s.setList (.subscriberConnectionSockets i)
        ((node, client) :: s.list (.subscriberConnectionSockets i)), ?_⟩
      simp only [hroom, if_true]
      refine ⟨rfl, ⟨hm.queues, ?_⟩, .subscribe hi hroom, fun heq => ?_⟩
      · exact addToStart_holds hm.lists (.subscriberConnectionSockets i) client node hfresh.1
      · have hlength := congrArg
          (fun s : Contents => (s.list (.subscriberConnectionSockets i)).length) heq
        simp [Contents.setList] at hlength
    · refine ⟨s, ?_⟩
      simp only [hroom, if_false]
      exact hm.takes_self (.subscribeFull hi (Nat.lt_of_not_le hroom))

theorem unsubscribe_takes (hm : m.Holds s) (client : SocketPtr) (node : Addr) (topic : Bytes) :
    ∃ m' success s', m.unsubscribe topic client = some (m', success) ∧
      m.Takes client node s (.unsubscribe topic) none m' s' := by
  rcases m.getTopicByName_cases topic with ⟨hget, hunknown⟩ | ⟨i, hget, hi⟩
  · refine ⟨m, false, s, by simp only [unsubscribe, hget], hm.takes_self ?_⟩
    exact .unknownTopic (c := .unsubscribe topic) hunknown
  · rcases LinkedLists.freeNode_cases hm.lists (.subscriberConnectionSockets i) client with
      ⟨habsent, hfree⟩ | ⟨pre, a, post, lists, hlist, hfirst, hfree, hlists, -⟩
    · exact ⟨m, false, s, by simp only [unsubscribe, hget, hfree, Option.map_some],
        hm.takes_self (.unsubscribeAbsent hi habsent)⟩
    · refine ⟨{ m with lists := lists }, true,
        s.setList (.subscriberConnectionSockets i) (pre ++ post),
        by simp only [unsubscribe, hget, hfree, Option.map_some], rfl, ⟨hm.queues, hlists⟩,
        .unsubscribe hi hlist hfirst, fun heq => ?_⟩
      have hlength := congrArg
        (fun s : Contents => (s.list (.subscriberConnectionSockets i)).length) heq
      simp [Contents.setList, hlist] at hlength

theorem topicExists_takes (hm : m.Holds s) (topic : Bytes) :
    m.Takes client node s (.topicExists topic) (some (m.topicExists topic)) m s := by
  apply hm.takes_self
  rcases m.getTopicByName_cases topic with ⟨hget, hunknown⟩ | ⟨i, hget, hi⟩
  · simp only [topicExists, hget]
    exact .unknownTopic (c := .topicExists topic) hunknown
  · simp only [topicExists, hget]
    exact .topicExists hi

theorem subscriberNumber_takes (hm : m.Holds s) (client : SocketPtr) (node : Addr)
    (topic : Bytes)
    (hdigits : ∀ i, m.topicNames[i]? = some topic →
      (s.list (.subscriberConnectionSockets i)).length < 100000) :
    ∃ response, m.subscriberNumber topic = some response ∧
      m.Takes client node s (.subscriberNumber topic) (some response) m s := by
  rcases m.getTopicByName_cases topic with ⟨hget, hunknown⟩ | ⟨i, hget, hi⟩
  · exact ⟨[hashtag], by simp only [subscriberNumber, hget],
      hm.takes_self (.unknownTopic (c := .subscriberNumber topic) hunknown)⟩
  · have hsize := hm.lists.size_eq (.subscriberConnectionSockets i)
    have hfits := (itoaS_eq_some_iff (k := 5) (by decide)).mpr (hdigits i hi)
    exact ⟨_, by simp only [subscriberNumber, hget, hsize, itoaSInt_natCast]; exact hfits,
      hm.takes_self (.subscriberNumber hi)⟩

/-! ## Executing a command -/

/-- The request of a command, carried out in memory: the memory afterwards, the response, and
whether the request has succeeded. -/
def perform (m : BrokerMemory) (client : SocketPtr) (node : Addr) :
    Command → Option (BrokerMemory × Option Bytes × Bool)
  | .publish topic message =>
      (m.publish topic (hashtag :: message) node).map fun (m, success) => (m, none, success)
  | .subscribe topic =>
      let (m, success) := m.subscribe topic client node
      some (m, none, success)
  | .topicExists topic =>
      let response := m.topicExists topic
      some (m, some response, response[0]? = some (byteOf '1'))
  | .subscriberNumber topic =>
      (m.subscriberNumber topic).map fun response =>
        (m, some response, response[0]? ≠ some hashtag)
  | .unsubscribe topic =>
      (m.unsubscribe topic client).map fun (m, success) => (m, none, success)

/-- {lit}`execute_command` carries out the request of a well-formed command, whatever is behind
it in the buffer, and notifies the stats manager exactly on success. -/
theorem executeCommand_eq (m : BrokerMemory) (client : SocketPtr) (node : Addr) {c : Command}
    (hc : c.WellFormed) (rest : Bytes) :
    m.executeCommand (c.text ++ 0 :: rest) client node =
      (m.perform client node c).map fun (m, response, success) =>
        ⟨m, response, if success then some (notificationOf c) else none⟩ := by
  have hnotify : ∀ success, notifyOnSuccess (c.text ++ 0 :: rest) success =
      some (if success then some (notificationOf c) else none) := by
    intro success
    cases success with
    | false => rfl
    | true => simp [notifyOnSuccess, notifyStatsManager_eq hc]
  have htopic : extractTopicName (c.type :: hashtag :: (c.topic ++ 0 :: rest)) = some c.topic :=
    extractTopicName_eq c.type_ne_nul hashtag_ne_nul hc.topic_nulFree rest
  cases c with
  | publish topic message =>
      have hextract := extractForPublish_eq hc rest
      have htext : ∃ t, (Command.publish topic message).text ++ 0 :: rest = byteOf '2' :: t :=
        ⟨_, rfl⟩
      rcases htext with ⟨t, htext⟩
      rw [htext] at hextract hnotify ⊢
      cases hpublish : m.publish topic (hashtag :: message) node <;>
        simp [executeCommand, hextract, hnotify, perform, hpublish]
  | subscribe topic =>
      simp only [Command.text, Command.type, Command.topic, Command.tail, List.append_nil,
        List.cons_append] at htopic hnotify ⊢
      simp +decide [executeCommand, htopic, hnotify, perform]
  | topicExists topic =>
      simp only [Command.text, Command.type, Command.topic, Command.tail, List.append_nil,
        List.cons_append] at htopic hnotify ⊢
      simp +decide [executeCommand, htopic, hnotify, perform]
  | subscriberNumber topic =>
      simp only [Command.text, Command.type, Command.topic, Command.tail, List.append_nil,
        List.cons_append] at htopic hnotify ⊢
      cases hresponse : m.subscriberNumber topic <;>
        simp +decide [executeCommand, htopic, hnotify, hresponse, perform]
  | unsubscribe topic =>
      simp only [Command.text, Command.type, Command.topic, Command.tail, List.append_nil,
        List.cons_append] at htopic hnotify ⊢
      cases hunsubscribe : m.unsubscribe topic client <;>
        simp +decide [executeCommand, htopic, hnotify, hunsubscribe, perform]

/-- A request does not fault and takes the transition of its command, if the list whose size is
asked for has a size of at most five digits. -/
theorem perform_takes (hm : m.Holds s) (client : SocketPtr) (hfresh : m.Fresh node) (c : Command)
    (hdigits : ∀ topic i, c = .subscriberNumber topic → m.topicNames[i]? = some topic →
      (s.list (.subscriberConnectionSockets i)).length < 100000) :
    ∃ m' response success s', m.perform client node c = some (m', response, success) ∧
      m.Takes client node s c response m' s' := by
  cases c with
  | publish topic message =>
      rcases publish_takes hm client hfresh topic message with
        ⟨m', success, s', hpublish, htakes⟩
      exact ⟨m', none, success, s', by simp only [perform, hpublish, Option.map_some], htakes⟩
  | subscribe topic =>
      rcases subscribe_takes hm client hfresh topic with ⟨s', htakes⟩
      exact ⟨_, none, _, s', rfl, htakes⟩
  | topicExists topic =>
      exact ⟨m, some (m.topicExists topic), _, s, rfl, topicExists_takes hm topic⟩
  | subscriberNumber topic =>
      rcases subscriberNumber_takes hm client node topic
        fun i => hdigits topic i rfl with ⟨response, hresponse, htakes⟩
      exact ⟨m, some response, decide (response[0]? ≠ some hashtag), s,
        by simp only [perform, hresponse, Option.map_some], htakes⟩
  | unsubscribe topic =>
      rcases unsubscribe_takes hm client node topic with
        ⟨m', success, s', hunsubscribe, htakes⟩
      exact ⟨m', none, success, s', by simp only [perform, hunsubscribe, Option.map_some], htakes⟩

/-- A command of any form, well-formed or not, keeps the lists and queues in order and leaves the
connections alone. -/
theorem executeCommand_holds (hm : m.Holds s) (hfresh : m.Fresh node) {command : Bytes}
    {execution : Execution} (h : m.executeCommand command client node = some execution) :
    ∃ s', execution.memory.Holds s' ∧ execution.memory.topicNames = m.topicNames ∧
      s'.list .connectionSockets = s.list .connectionSockets := by
  unfold executeCommand at h
  split at h
  · contradiction
  split at h
  · simp only [Option.bind_eq_bind, Option.bind_eq_some_iff, Option.pure_def,
      Option.some.injEq] at h
    rcases h with ⟨⟨topicName, message⟩, -, ⟨m', success⟩, hpublish, notification, -, rfl⟩
    rcases publish_cases hm hfresh topicName message with
      ⟨-, heq⟩ | ⟨i, m'', -, heq, hnames, hm''⟩
    · cases hpublish.symm.trans heq
      exact ⟨s, hm, rfl, rfl⟩
    · cases hpublish.symm.trans heq
      exact ⟨_, hm'', hnames, rfl⟩
  split at h
  · simp only [Option.bind_eq_bind, Option.bind_eq_some_iff, Option.pure_def,
      Option.some.injEq] at h
    rcases h with ⟨topicName, -, notification, -, rfl⟩
    rcases subscribe_takes hm client hfresh topicName with ⟨s', htakes⟩
    exact ⟨s', htakes.holds, htakes.topicNames_eq, htakes.transition.connectionSockets_eq⟩
  split at h
  · simp only [Option.bind_eq_bind, Option.bind_eq_some_iff, Option.pure_def,
      Option.some.injEq] at h
    rcases h with ⟨topicName, -, notification, -, rfl⟩
    exact ⟨s, hm, rfl, rfl⟩
  split at h
  · simp only [Option.bind_eq_bind, Option.bind_eq_some_iff, Option.pure_def,
      Option.some.injEq] at h
    rcases h with ⟨topicName, -, response, -, notification, -, rfl⟩
    exact ⟨s, hm, rfl, rfl⟩
  split at h
  · simp only [Option.bind_eq_bind, Option.bind_eq_some_iff, Option.pure_def,
      Option.some.injEq] at h
    rcases h with ⟨topicName, -, ⟨m', success⟩, hunsubscribe, notification, -, rfl⟩
    rcases unsubscribe_takes hm client node topicName with
      ⟨m'', success', s', heq, htakes⟩
    cases hunsubscribe.symm.trans heq
    exact ⟨s', htakes.holds, htakes.topicNames_eq, htakes.transition.connectionSockets_eq⟩
  · rw [Option.some.injEq] at h
    subst h
    exact ⟨s, hm, rfl, rfl⟩

end BrokerMemory

/-- {lit}`execute_command` on a well-formed command of a client does not fault and takes the
transition of the command, which is the only one: it appends, adds or removes the one node that
the command asks for, returns the one response to a query and none to other commands, leaves
every other queue and list alone, and the whole memory where the command fails. -/
theorem executeCommand_refines {m : BrokerMemory} {s : Contents} (hm : m.Holds s)
    (hnames : m.topicNames.Nodup) (client : SocketPtr) {node : Addr} (hfresh : m.Fresh node)
    {c : Command} (hc : c.WellFormed)
    (hdigits : ∀ topic i, c = .subscriberNumber topic → m.topicNames[i]? = some topic →
      (s.list (.subscriberConnectionSockets i)).length < 100000) (rest : Bytes) :
    ∃ m' response notification s',
      m.executeCommand (c.text ++ 0 :: rest) client node = some ⟨m', response, notification⟩ ∧
        m'.topicNames = m.topicNames ∧ m'.Holds s' ∧
        Transition m.topicNames client node s c response s' ∧ (s' = s → m' = m) ∧
        ∀ response' s'', Transition m.topicNames client node s c response' s'' →
          response' = response ∧ s'' = s' := by
  rcases BrokerMemory.perform_takes hm client hfresh c hdigits with
    ⟨m', response, success, s', hperform, htakes⟩
  refine ⟨m', response, if success then some (notificationOf c) else none, s', ?_,
    htakes.topicNames_eq, htakes.holds, htakes.transition, htakes.unchanged, ?_⟩
  · rw [BrokerMemory.executeCommand_eq m client node hc, hperform, Option.map_some]
  · intro response' s'' h
    exact h.unique hnames htakes.transition

/-- The first subscription to news. -/
theorem executeCommand_refines_subscribe :
    (BrokerMemory.start [updates, news]).Holds ⟨fun _ => [], fun _ => []⟩ ∧
      [updates, news].Nodup ∧ (Command.subscribe news).WellFormed ∧
      ∃ m' response notification s',
        (BrokerMemory.start [updates, news]).executeCommand
            ((Command.subscribe news).text ++ 0 :: []) 7 0 =
          some ⟨m', response, notification⟩ ∧
        m'.topicNames = [updates, news] ∧ m'.Holds s' ∧
        Transition [updates, news] 7 0 ⟨fun _ => [], fun _ => []⟩ (.subscribe news) response s' ∧
        (s' = ⟨fun _ => [], fun _ => []⟩ → m' = .start [updates, news]) ∧
        ∀ response' s'', Transition [updates, news] 7 0 ⟨fun _ => [], fun _ => []⟩
          (.subscribe news) response' s'' → response' = response ∧ s'' = s' := by
  have hholds := BrokerMemory.start_holds [updates, news]
  have hnames : [updates, news].Nodup := by decide
  have hc : (Command.subscribe news).WellFormed := by decide
  exact ⟨hholds, hnames, hc, executeCommand_refines hholds hnames 7 ⟨rfl, rfl⟩ hc
    (by simp) []⟩

/-! ## The topics of the main loop -/

/-- The topics with these names, with the messages and the socket pointers of their nodes. -/
def Contents.topics (s : Contents) (topicNames : List Bytes) : List Topic :=
  topicNames.mapIdx fun i name =>
    ⟨name, Heap.vals (s.queue i), Heap.vals (s.list (.subscriberConnectionSockets i))⟩

theorem Contents.getElem?_topics (s : Contents) (topicNames : List Bytes) (i : Nat) :
    (s.topics topicNames)[i]? = topicNames[i]?.map fun name =>
      ⟨name, Heap.vals (s.queue i), Heap.vals (s.list (.subscriberConnectionSockets i))⟩ := by
  rw [topics, List.getElem?_mapIdx]

/-- Other nodes in a queue are other messages in its topic. -/
theorem Contents.topics_setQueue (s : Contents) {topicNames : List Bytes} {topic : Bytes} {i : Nat}
    (hi : topicNames[i]? = some topic) (nodes : List (Addr × Bytes)) :
    (s.setQueue i nodes).topics topicNames =
      (s.topics topicNames).set i
        ⟨topic, Heap.vals nodes, Heap.vals (s.list (.subscriberConnectionSockets i))⟩ := by
  apply List.ext_getElem?
  intro j
  rw [List.getElem?_set, getElem?_topics, getElem?_topics]
  by_cases hj : i = j
  · subst hj
    have hlt : i < (s.topics topicNames).length := by
      rw [topics, List.length_mapIdx]
      exact (List.getElem?_eq_some_iff.mp hi).1
    simp [hi, hlt, setQueue]
  · simp [hj, setQueue, Function.update_of_ne (Ne.symm hj)]

/-- Other nodes in a subscriber list are other subscribers of its topic. -/
theorem Contents.topics_setList (s : Contents) {topicNames : List Bytes} {topic : Bytes} {i : Nat}
    (hi : topicNames[i]? = some topic) (nodes : List (Addr × SocketPtr)) :
    (s.setList (.subscriberConnectionSockets i) nodes).topics topicNames =
      (s.topics topicNames).set i ⟨topic, Heap.vals (s.queue i), Heap.vals nodes⟩ := by
  apply List.ext_getElem?
  intro j
  rw [List.getElem?_set, getElem?_topics, getElem?_topics]
  by_cases hj : i = j
  · subst hj
    have hlt : i < (s.topics topicNames).length := by
      rw [topics, List.length_mapIdx]
      exact (List.getElem?_eq_some_iff.mp hi).1
    simp [hi, hlt, setList]
  · have hne : ListName.subscriberConnectionSockets j ≠ .subscriberConnectionSockets i := by
      simpa using Ne.symm hj
    simp [hj, setList, Function.update_of_ne hne]

/-- The topic with a name is where the name is. -/
theorem Contents.getTopicByName_topics (s : Contents) {topicNames : List Bytes}
    (hnames : topicNames.Nodup) {topic : Bytes} {i : Nat} (hi : topicNames[i]? = some topic) :
    ∃ hlt : i < (s.topics topicNames).length,
      getTopicByName (s.topics topicNames) topic = some ⟨i, hlt⟩ ∧
      (s.topics topicNames)[i] =
        ⟨topic, Heap.vals (s.queue i), Heap.vals (s.list (.subscriberConnectionSockets i))⟩ := by
  have hat := s.getElem?_topics topicNames i
  rw [hi, Option.map_some] at hat
  rcases List.getElem?_eq_some_iff.mp hat with ⟨hlt, hget⟩
  refine ⟨hlt, ?_, hget⟩
  rw [getTopicByName, List.findFinIdx?_eq_some_iff]
  refine ⟨by simp [hget], fun j hj => ?_⟩
  have hjth := s.getElem?_topics topicNames j
  rw [List.getElem?_eq_getElem j.isLt] at hjth
  rcases Option.map_eq_some_iff.mp hjth.symm with ⟨name, hname, htopic⟩
  have hne : name ≠ topic := by
    rintro rfl
    exact Nat.ne_of_lt hj (index_unique hnames hname hi)
  simpa [← htopic] using hne

/-- There is no topic with another name. -/
theorem Contents.getTopicByName_topics_none (s : Contents) {topicNames : List Bytes}
    {topic : Bytes} (hunknown : topic ∉ topicNames) :
    getTopicByName (s.topics topicNames) topic = none := by
  rw [getTopicByName, List.findFinIdx?_eq_none_iff]
  intro t ht
  rcases List.mem_iff_getElem?.mp ht with ⟨i, hi⟩
  rw [getElem?_topics, Option.map_eq_some_iff] at hi
  rcases hi with ⟨name, hname, rfl⟩
  have hmem := List.mem_of_getElem? hname
  have hne : name ≠ topic := fun heq => hunknown (heq ▸ hmem)
  simpa using hne

/-- The transition of a command on the nodes is its request on the topics of the main loop. -/
theorem Transition.perform {topicNames : List Bytes} (hnames : topicNames.Nodup)
    {client : SocketPtr} {node : Addr} {s s' : Contents} {c : Command} {response : Option Bytes}
    (hdigits : ∀ topic i, c = .subscriberNumber topic → topicNames[i]? = some topic →
      (s.list (.subscriberConnectionSockets i)).length < 100000)
    (h : Transition topicNames client node s c response s') :
    ∃ success, Broker.perform (s.topics topicNames) client c =
      some (s'.topics topicNames, response, success) := by
  cases h with
  | publish hi =>
      rcases s.getTopicByName_topics hnames hi with ⟨hlt, hget, htopic⟩
      refine ⟨true, ?_⟩
      simp [Broker.perform, Broker.publish, hget, htopic, s.topics_setQueue hi]
  | subscribe hi hroom =>
      rcases s.getTopicByName_topics hnames hi with ⟨hlt, hget, htopic⟩
      refine ⟨true, ?_⟩
      simp [Broker.perform, Broker.subscribe, hget, htopic, hroom, s.topics_setList hi]
  | subscribeFull hi hfull =>
      rcases s.getTopicByName_topics hnames hi with ⟨hlt, hget, htopic⟩
      refine ⟨false, ?_⟩
      simp [Broker.perform, Broker.subscribe, hget, htopic, Nat.not_le_of_lt hfull]
  | @unsubscribe topic i hi pre post a hlist hfirst =>
      rcases s.getTopicByName_topics hnames hi with ⟨hlt, hget, htopic⟩
      have hmem : client ∈ Heap.vals (s.list (.subscriberConnectionSockets i)) := by
        simp [hlist]
      have herase := erase_vals hlist hfirst
      refine ⟨true, ?_⟩
      simp only [Broker.perform, Broker.unsubscribe, hget, Fin.getElem_fin, htopic, hmem, if_true,
        herase, s.topics_setList hi]
  | @unsubscribeAbsent topic i hi habsent =>
      rcases s.getTopicByName_topics hnames hi with ⟨hlt, hget, htopic⟩
      refine ⟨false, ?_⟩
      have hnot : client ∉ Heap.vals (s.list (.subscriberConnectionSockets i)) := by
        rw [Heap.vals, List.mem_map]
        rintro ⟨c, hc, hval⟩
        exact habsent c hc hval
      simp [Broker.perform, Broker.unsubscribe, hget, htopic, hnot]
  | topicExists hi =>
      rcases s.getTopicByName_topics hnames hi with ⟨hlt, hget, -⟩
      exact ⟨true, by simp [Broker.perform, Broker.topicExists, hget]⟩
  | subscriberNumber hi =>
      rcases s.getTopicByName_topics hnames hi with ⟨hlt, hget, htopic⟩
      have hfits := (itoaS_eq_some_iff (k := 5) (by decide)).mpr (hdigits _ _ rfl hi)
      refine ⟨true, ?_⟩
      simp [Broker.perform, Broker.subscriberNumber, hget, htopic, hfits]
  | unknownTopic hunknown =>
      have hget := s.getTopicByName_topics_none hunknown
      refine ⟨false, ?_⟩
      cases c with
      | publish topic message | subscribe topic | unsubscribe topic =>
          simp only [Command.topic] at hget
          simp [Broker.perform, Broker.publish, Broker.subscribe, Broker.unsubscribe, hget,
            unknownTopicResponse]
      | topicExists topic | subscriberNumber topic =>
          simp only [Command.topic] at hget
          simp [Broker.perform, Broker.topicExists, Broker.subscriberNumber, hget,
            unknownTopicResponse]

end Broker
end PubSub
