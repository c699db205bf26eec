import PubSub.Broker.BrokerMemory
import PubSub.Foundations.Outcome

/-!
# One pass over the connections

{lit}`receive_and_execute_commands` walks through the linked list of connections.  A
connection that closes is unlinked and freed by {lit}`receive_commands`, which advances the
walker of its caller first; on any other connection the caller advances it.  The pass
is stated in memory: the walker is an address, and dereferencing one that is not
allocated is a fault of its own.

Main results:

- Structure {lit}`WalkStands`: the walker stands at the first of the connections that are still
  to be visited.
- Theorem {lit}`pollWalker_outcome`: one round polls this connection and moves on.
- Theorem {lit}`receiveAndExecuteCommands_outcome`: so does a whole pass.
- Theorem {lit}`pollingPass_visits_everyone`: the pass polls every connection once, uses no
  removed node, and leaves out exactly the connections that close.
-/

namespace PubSub
namespace Broker

open Foundations Client

/-! ## The program -/

/-- Why a pass faults: it dereferences a node or a socket cell that is not allocated, executing
the received bytes faults, it leaves the receive buffer, or it does not end. -/
inductive PassFault where
  | danglingNode
  | danglingSocket
  | command
  | receiveBuffer
  | endless
deriving DecidableEq, Repr

/-- What the main thread works on: the linked structures, the socket cells, the receive buffer,
and what has been handed on to the outgoing buffer and to the stats manager. -/
structure MainMemory where
  memory : BrokerMemory
  socket : SocketPtr → Option Socket
  receiveBuffer : Bytes
  responses : List (Socket × Bytes)
  notifications : List Bytes

/-- The addresses that {lit}`malloc` returns, for the command at an index of the buffer that a
connection has sent. -/
abbrev Allocator :=
  SocketPtr → Nat → BrokerMemory → Addr

/-- {lit}`malloc` returns addresses that are not allocated. -/
def Allocator.Fresh (malloc : Allocator) : Prop :=
  ∀ (p : SocketPtr) (i : Nat) (m : BrokerMemory), m.Fresh (malloc p i m)

namespace MainMemory

/-- The node at the walker. -/
def readWalker (s : MainMemory) (walker : Addr) : Except PassFault (Node SocketPtr) :=
  orFault .danglingNode (s.memory.lists.nodes.read walker)

/-- {lit}`receive_commands`.  The result carries the walker of the caller. -/
def receiveCommands (s : MainMemory) (connectionSocketPtr : SocketPtr) (incoming : Incoming)
    (walker : Addr) : Except PassFault (ReceiveResult × MainMemory × Option Addr) := do
  let _ ← orFault .danglingSocket (s.socket connectionSocketPtr)
  match incoming with
  | .selectError | .willBlock | .recvError => return (.notReceived, s, some walker)
  | .data bytes =>
      let receiveBuffer ← orFault .receiveBuffer
        (recvInto s.receiveBuffer brokerReceiveBufferSize bytes)
      return (.received, { s with receiveBuffer := receiveBuffer }, some walker)
  | .closed =>
      let node ← s.readWalker walker
      let lists ← orFault .danglingNode
        (s.memory.lists.closeConnection s.memory.topicNames.length connectionSocketPtr)
      return (.deleted, { s with
        memory := { s.memory with lists := lists }
        socket := Function.update s.socket connectionSocketPtr (some invalidSocket) }, node.next)

/-- {lit}`execute_command_and_produce` for the command at index {lit}`i` of the buffer, which the
connection at the walker has sent. -/
def executeCommandAndProduce (malloc : Allocator) (walker : Addr) (i : Nat) (command : Bytes)
    (s : MainMemory) : Except PassFault MainMemory := do
  let node ← s.readWalker walker
  let execution ← orFault .command
    (s.memory.executeCommand command node.val (malloc node.val i s.memory))
  let s := { s with
    memory := execution.memory
    notifications := s.notifications ++ execution.notification.toList }
  match execution.response with
  | none => return s
  | some response =>
      let socket ← orFault .danglingSocket (s.socket node.val)
      return { s with responses := s.responses ++ [(socket, response)] }

/-- The loop over the receive buffer.  A fault of a command is kept as the state. -/
def executeCommands (malloc : Allocator) (walker : Addr) (s : MainMemory) :
    Except PassFault MainMemory :=
  match frameLoop hashtag
      (fun i command s => some (s >>= executeCommandAndProduce malloc walker i command)) false 0
      s.receiveBuffer (.ok s) with
  | none => .error .receiveBuffer
  | some (s, _) => s

/-- One round of {lit}`receive_and_execute_commands`: the memory and the walker afterwards, and
the connection that has been polled. -/
def pollWalker (malloc : Allocator) (poll : SocketPtr → Incoming) (s : MainMemory)
    (walker : Addr) : Except PassFault (MainMemory × Option Addr × SocketPtr) := do
  let node ← s.readWalker walker
  let (returnValue, s, walker') ← s.receiveCommands node.val (poll node.val) walker
  match returnValue with
  | .received =>
      let s ← executeCommands malloc walker s
      let receiveBuffer ← orFault .receiveBuffer
        (zeroFill s.receiveBuffer brokerReceiveBufferSize)
      let s := { s with receiveBuffer := receiveBuffer }
      let next ← s.readWalker walker
      return (s, next.next, node.val)
  | .notReceived =>
      let next ← s.readWalker walker
      return (s, next.next, node.val)
  | .deleted => return (s, walker', node.val)

/-- {lit}`receive_and_execute_commands` from the walker on, with the connections that have been
polled.  The fuel bounds the number of rounds. -/
def walk (malloc : Allocator) (poll : SocketPtr → Incoming) :
    Nat → MainMemory → Option Addr → List SocketPtr →
      Except PassFault (MainMemory × List SocketPtr)
  | _, s, none, polled => .ok (s, polled)
  | 0, _, some _, _ => .error .endless
  | fuel + 1, s, some walker, polled => do
      let (s, walker, connectionSocketPtr) ← pollWalker malloc poll s walker
      walk malloc poll fuel s walker (polled ++ [connectionSocketPtr])

/-- {lit}`receive_and_execute_commands`.  {lit}`poll` assigns to each connection what
{lit}`read_check` and {lit}`recv` find out about it. -/
def receiveAndExecuteCommands (malloc : Allocator) (poll : SocketPtr → Incoming)
    (fuel : Nat) (s : MainMemory) : Except PassFault (MainMemory × List SocketPtr) :=
  walk malloc poll fuel s (s.memory.lists.list .connectionSockets).head []

end MainMemory

/-! ## Executing the received commands -/

namespace MainMemory

/-- A state in which received commands are executed: the connections, the socket cells and
the receive buffer do not change. -/
def Executing (connections : List (Addr × SocketPtr)) (socket : SocketPtr → Option Socket)
    (receiveBuffer : Bytes) (inv : Contents → Prop) (s : MainMemory) : Prop :=
  ∃ contents, s.memory.Holds contents ∧ contents.list .connectionSockets = connections ∧
    inv contents ∧ s.socket = socket ∧ s.receiveBuffer = receiveBuffer

variable {malloc : Allocator} {connections visited rest : List (Addr × SocketPtr)}
  {socket : SocketPtr → Option Socket} {receiveBuffer : Bytes} {s : MainMemory}
  {c : Addr × SocketPtr}

/-- The node at a connection that is in the list. -/
theorem readWalker_eq {contents : Contents} (hs : s.memory.Holds contents)
    (hconnections : contents.list .connectionSockets = visited ++ c :: rest) :
    s.memory.lists.nodes.read c.1 = some ⟨c.2, rest.head?.map Prod.fst⟩ := by
  have hchain := hs.lists.family.chain .connectionSockets
  rw [hconnections] at hchain
  exact hchain.read_next

/-- A fault that the received bytes bring about. -/
def FromData (fault : PassFault) : Prop :=
  fault = .command ∨ fault = .receiveBuffer

/-- Whatever a client sends, executing it does not touch the list of connections and does not
dereference a node of it that has been removed. -/
theorem executeCommandAndProduce_outcome (hmalloc : malloc.Fresh)
    (hsocket : socket c.2 ≠ none) (i : Nat) (command : Bytes)
    (hs : Executing (visited ++ c :: rest) socket receiveBuffer (fun _ => True) s) :
    Outcome FromData (Executing (visited ++ c :: rest) socket receiveBuffer fun _ => True)
      (executeCommandAndProduce malloc c.1 i command s) := by
  rcases hs with ⟨contents, hmemory, hconnections, -, rfl, rfl⟩
  have hread := readWalker_eq hmemory hconnections
  refine .bind (P := fun node => node.val = c.2) (.ofOption hread rfl) fun node hnode => ?_
  refine .bind (P := fun execution : BrokerMemory.Execution =>
    ∃ contents', execution.memory.Holds contents' ∧
      contents'.list .connectionSockets = visited ++ c :: rest) ?_ fun execution hexecution => ?_
  · refine .ofOption' (Or.inl rfl) fun execution h => ?_
    rcases BrokerMemory.executeCommand_holds hmemory (hmalloc _ _ _) h with
      ⟨contents', hmemory', -, hsame⟩
    exact ⟨contents', hmemory', hsame.trans hconnections⟩
  · rcases hexecution with ⟨contents', hmemory', hconnections'⟩
    cases execution.response with
    | none => exact .pure ⟨contents', hmemory', hconnections', trivial, rfl, rfl⟩
    | some response =>
        rcases Option.ne_none_iff_exists'.mp hsocket with ⟨value, hvalue⟩
        refine .bind (P := fun _ => True) (.ofOption (hnode ▸ hvalue) trivial) fun _ _ => ?_
        exact .pure ⟨contents', hmemory', hconnections', trivial, rfl, rfl⟩

/-- The loop over the receive buffer, whatever is in it. -/
theorem executeCommands_outcome (hmalloc : malloc.Fresh)
    (hsocket : socket c.2 ≠ none)
    (hs : Executing (visited ++ c :: rest) socket receiveBuffer (fun _ => True) s) :
    Outcome FromData (Executing (visited ++ c :: rest) socket receiveBuffer fun _ => True)
      (executeCommands malloc c.1 s) := by
  unfold executeCommands
  split
  · exact .error (Or.inr rfl)
  · next h =>
    refine Outcome.frameLoop h ?_ (.ok hs)
    intro i command t ht
    exact executeCommandAndProduce_outcome hmalloc hsocket i command ht

/-- No subscriber list has six digits even if {lit}`n` clients subscribe to it. -/
def HasRoomFor (n : Nat) (contents : Contents) : Prop :=
  ∀ i, (contents.list (.subscriberConnectionSockets i)).length + n < 100000

/-- A well-formed command is executed. -/
theorem executeCommandAndProduce_command (hmalloc : malloc.Fresh)
    (hsocket : socket c.2 ≠ none) {command : Command} (hcommand : command.WellFormed) {n : Nat}
    (i : Nat) (bytes : Bytes)
    (hs : Executing (visited ++ c :: rest) socket receiveBuffer (HasRoomFor (n + 1)) s) :
    Outcome (fun _ => False)
      (Executing (visited ++ c :: rest) socket receiveBuffer (HasRoomFor n))
      (executeCommandAndProduce malloc c.1 i (command.text ++ 0 :: bytes) s) := by
  rcases hs with ⟨contents, hmemory, hconnections, hroom, rfl, rfl⟩
  have hread := readWalker_eq hmemory hconnections
  have hdigits : ∀ topic i, command = .subscriberNumber topic →
      s.memory.topicNames[i]? = some topic →
      (contents.list (.subscriberConnectionSockets i)).length < 100000 := by
    intro topic i _ _
    have hi := hroom i
    omega
  rcases BrokerMemory.perform_takes hmemory c.2 (hmalloc c.2 i s.memory) command hdigits with
    ⟨memory', response, success, contents', hperform, htakes⟩
  have hexecute :=
    BrokerMemory.executeCommand_eq s.memory c.2 (malloc c.2 i s.memory) hcommand bytes
  rw [hperform, Option.map_some] at hexecute
  have hroom' : HasRoomFor n contents' := by
    intro i
    have hle := htakes.transition.length_list_le (.subscriberConnectionSockets i)
    have hi := hroom i
    omega
  have hconnections' := htakes.transition.connectionSockets_eq.trans hconnections
  refine .bind (P := (· = ⟨c.2, rest.head?.map Prod.fst⟩)) (.ofOption hread rfl) ?_
  rintro _ rfl
  refine .bind (P := fun execution : BrokerMemory.Execution => execution.memory = memory')
    (.ofOption hexecute rfl) ?_
  rintro execution rfl
  cases execution.response with
  | none => exact .pure ⟨contents', htakes.holds, hconnections', hroom', rfl, rfl⟩
  | some response =>
      rcases Option.ne_none_iff_exists'.mp hsocket with ⟨value, hvalue⟩
      refine .bind (P := fun _ => True) (.ofOption hvalue trivial) fun _ _ => ?_
      exact .pure ⟨contents', htakes.holds, hconnections', hroom', rfl, rfl⟩

/-- Whole commands behind one another are executed. -/
theorem executeCommands_stream (hmalloc : malloc.Fresh) (hsocket : socket c.2 ≠ none)
    {commands : List Command} (hcommands : ∀ command ∈ commands, command.WellFormed) {n : Nat}
    (i : Nat) (bytes : Bytes)
    (hs : Executing (visited ++ c :: rest) socket receiveBuffer
      (HasRoomFor (commands.length + n)) s) :
    ∃ s' j, frameLoop hashtag
        (fun i command s => some (s >>= executeCommandAndProduce malloc c.1 i command)) false i
        (stream commands ++ 0 :: bytes) (.ok s) = some (.ok s', j) ∧
      Executing (visited ++ c :: rest) socket receiveBuffer (HasRoomFor n) s' := by
  induction commands generalizing i s with
  | nil =>
      refine ⟨s, i, frameLoop_stop nul_ne_hashtag i bytes (Except.ok s), ?_⟩
      simpa using hs
  | cons command commands ih =>
      have hcommand := hcommands command (by simp)
      have hstream : stream (command :: commands) ++ 0 :: bytes =
          hashtag :: command.text ++ 0 :: (stream commands ++ 0 :: bytes) := by
        simp [stream]
      have hlength : (command :: commands).length + n = commands.length + n + 1 := by
        simp
        omega
      rw [hlength] at hs
      rcases (executeCommandAndProduce_command hmalloc hsocket hcommand i
        (stream commands ++ 0 :: bytes) hs).exists_ok with ⟨s₁, hfirst, hs₁⟩
      rcases ih (fun d hd => hcommands d (by simp [hd])) (i + command.text.length + 2) hs₁ with
        ⟨s', j, hrest, hs'⟩
      refine ⟨s', j, ?_, hs'⟩
      have hbound : (Except.ok s >>= executeCommandAndProduce malloc c.1 i
          (command.text ++ 0 :: (stream commands ++ 0 :: bytes))) = Except.ok s₁ := hfirst
      rw [hstream, frameLoop_frame hcommand.text_nulFree, hbound, Option.bind_some, hrest]

/-! ## One round -/

/-- The walker stands at the first of the connections {lit}`rest`, which are still to be visited;
{lit}`inv` is what is known about the lists there. -/
structure WalkStands (inv : List (Addr × SocketPtr) → Contents → Prop) (s : MainMemory)
    (visited rest : List (Addr × SocketPtr)) (walker : Option Addr) : Prop where
  contents : ∃ contents, s.memory.Holds contents ∧
    contents.list .connectionSockets = visited ++ rest ∧ inv rest contents
  walker_eq : walker = rest.head?.map Prod.fst
  distinct : (Heap.vals (visited ++ rest)).Nodup
  socket : ∀ c ∈ rest, s.socket c.2 ≠ none
  receiveBuffer : s.receiveBuffer = zeros brokerReceiveBufferSize

/-- What a pass relies on: what is known about the lists is known of fewer connections and of
shorter subscriber lists, {lit}`recv` stores no more than it was asked for, and executing what
it has stored leads to a possible fault or uses up one connection. -/
structure PassRules (malloc : Allocator) (poll : SocketPtr → Incoming) (fault : PassFault → Prop)
    (inv : List (Addr × SocketPtr) → Contents → Prop) : Prop where
  skip : ∀ c rest contents, inv (c :: rest) contents → inv rest contents
  close : ∀ rest contents contents', inv rest contents →
    (∀ name, (contents'.list name).length ≤ (contents.list name).length) → inv rest contents'
  receive : ∀ p bytes, poll p = .data bytes → bytes.length ≤ brokerReceiveBufferSize
  execute : ∀ visited c rest bytes s, poll c.2 = .data bytes → s.socket c.2 ≠ none →
    s.receiveBuffer = bytes ++ zeros (brokerReceiveBufferSize - bytes.length) →
    Executing (visited ++ c :: rest) s.socket s.receiveBuffer (inv (c :: rest)) s →
    Outcome fault (Executing (visited ++ c :: rest) s.socket s.receiveBuffer (inv rest))
      (executeCommands malloc c.1 s)

/-- The connections that a round leaves of the one that it visits. -/
def staying (poll : SocketPtr → Incoming) (connections : List (Addr × SocketPtr)) :
    List (Addr × SocketPtr) :=
  connections.filter fun c => poll c.2 ≠ .closed

/-- In a list of distinct socket pointers, the first node with one of them is the only one. -/
theorem eraseP_of_distinct (hdistinct : (Heap.vals (visited ++ c :: rest)).Nodup) :
    (visited ++ c :: rest).eraseP (fun d => d.2 = c.2) = visited ++ rest := by
  rw [Heap.vals, List.map_append, List.map_cons, List.nodup_append] at hdistinct
  have hfirst : ∀ d ∈ visited, d.2 ≠ c.2 := by
    intro d hd
    exact hdistinct.2.2 d.2 (List.mem_map_of_mem hd) c.2 (by simp)
  rw [List.eraseP_append_right _ (by simpa using hfirst), List.eraseP_cons_of_pos (by simp)]

end MainMemory

/-- {lit}`free_node` on the subscriber lists, node by node. -/
theorem LinkedLists.freeNodes_cells {l : LinkedLists} {cs : ListName → List (Addr × SocketPtr)}
    (hl : ListsHold l.nodes l.list cs) (socketPtr : SocketPtr) (is : List Nat) :
    ∃ l' cs', is.foldlM (fun l i =>
        (l.freeNode (.subscriberConnectionSockets i) socketPtr).map Prod.fst) l = some l' ∧
      ListsHold l'.nodes l'.list cs' ∧ cs' .connectionSockets = cs .connectionSockets ∧
      ∀ name, (cs' name).length ≤ (cs name).length := by
  induction is generalizing l cs with
  | nil => exact ⟨l, cs, rfl, hl, rfl, fun _ => Nat.le_refl _⟩
  | cons i is ih =>
      rcases LinkedLists.freeNode_cases hl (.subscriberConnectionSockets i) socketPtr with
        ⟨-, hfree⟩ | ⟨pre, a, post, l₁, hcs, -, hfree, hl₁, -⟩
      · rcases ih hl with ⟨l', cs', hrest, hl', hconnections, hlength⟩
        refine ⟨l', cs', ?_, hl', hconnections, hlength⟩
        rw [List.foldlM_cons, hfree]
        exact hrest
      · rcases ih hl₁ with ⟨l', cs', hrest, hl', hconnections, hlength⟩
        refine ⟨l', cs', ?_, hl', ?_, fun name => ?_⟩
        · rw [List.foldlM_cons, hfree]
          exact hrest
        · rw [hconnections, Function.update_of_ne (by simp)]
        · apply Nat.le_trans (hlength name)
          by_cases hname : name = .subscriberConnectionSockets i
          · subst hname
            simp [hcs]
          · rw [Function.update_of_ne hname]

/-- A connection that closes leaves the list of connections, where it is the only node with its
socket pointer. -/
theorem LinkedLists.closeConnection_cells {l : LinkedLists}
    {cs : ListName → List (Addr × SocketPtr)} (hl : ListsHold l.nodes l.list cs)
    {visited rest : List (Addr × SocketPtr)} {c : Addr × SocketPtr}
    (hconnections : cs .connectionSockets = visited ++ c :: rest)
    (hdistinct : (Heap.vals (visited ++ c :: rest)).Nodup) (numberOfTopics : Nat) :
    ∃ l' cs', l.closeConnection numberOfTopics c.2 = some l' ∧
      ListsHold l'.nodes l'.list cs' ∧ cs' .connectionSockets = visited ++ rest ∧
      ∀ name, (cs' name).length ≤ (cs name).length := by
  rcases LinkedLists.freeNode_cases hl .connectionSockets c.2 with
    ⟨habsent, -⟩ | ⟨pre, a, post, l₁, hcs, hfirst, hfree, hl₁, -⟩
  · rw [hconnections] at habsent
    exact absurd rfl (habsent c (by simp))
  · have herase : pre ++ post = visited ++ rest := by
      rw [append_eq_eraseP hcs hfirst, hconnections, MainMemory.eraseP_of_distinct hdistinct]
    rcases LinkedLists.freeNodes_cells hl₁ c.2 (List.range numberOfTopics) with
      ⟨l', cs', hrest, hl', hsame, hlength⟩
    refine ⟨l', cs', ?_, hl', ?_, fun name => ?_⟩
    · rw [LinkedLists.closeConnection, hfree]
      exact hrest
    · rw [hsame, Function.update_self, herase]
    · apply Nat.le_trans (hlength name)
      by_cases hname : name = .connectionSockets
      · subst hname
        simp [hcs]
      · rw [Function.update_of_ne hname]

namespace MainMemory

variable {malloc : Allocator} {poll : SocketPtr → Incoming} {fault : PassFault → Prop}
  {inv : List (Addr × SocketPtr) → Contents → Prop} {s : MainMemory}
  {visited rest : List (Addr × SocketPtr)} {c : Addr × SocketPtr} {walker : Option Addr}

/-- What a round knows after {lit}`receive_commands`. -/
def ReceivedFrom (poll : SocketPtr → Incoming) (inv : List (Addr × SocketPtr) → Contents → Prop)
    (s : MainMemory) (visited : List (Addr × SocketPtr)) (c : Addr × SocketPtr)
    (rest : List (Addr × SocketPtr)) : ReceiveResult × MainMemory × Option Addr → Prop
  | (.received, s', _) => ∃ bytes, poll c.2 = .data bytes ∧
      s' = { s with
        receiveBuffer := bytes ++ zeros (brokerReceiveBufferSize - bytes.length) }
  | (.notReceived, s', _) => poll c.2 ≠ .closed ∧ s' = s
  | (.deleted, s', walker) => poll c.2 = .closed ∧ WalkStands inv s' visited rest walker

/-- {lit}`receive_commands` on the connection at the walker.  Where the connection closes, the
walker is advanced before its node is freed. -/
theorem receiveCommands_outcome (hrules : PassRules malloc poll fault inv)
    (hs : WalkStands inv s visited (c :: rest) walker) :
    Outcome fault (ReceivedFrom poll inv s visited c rest)
      (s.receiveCommands c.2 (poll c.2) c.1) := by
  rcases hs.contents with ⟨contents, hmemory, hconnections, hinv⟩
  rcases Option.ne_none_iff_exists'.mp (hs.socket c (by simp)) with ⟨value, hvalue⟩
  refine .bind (P := fun _ => True) (.ofOption hvalue trivial) fun _ _ => ?_
  cases hpoll : poll c.2 with
  | selectError | willBlock | recvError => exact .pure ⟨by simp [hpoll], rfl⟩
  | data bytes =>
      have hreceived := recvInto_zeros (hrules.receive c.2 bytes hpoll)
        (Nat.le_refl brokerReceiveBufferSize)
      rw [← hs.receiveBuffer] at hreceived
      refine .bind (P := (· = bytes ++ zeros (brokerReceiveBufferSize - bytes.length)))
        (.ofOption hreceived rfl) ?_
      rintro _ rfl
      exact .pure ⟨bytes, hpoll, rfl⟩
  | closed =>
      have hread := readWalker_eq hmemory hconnections
      rcases LinkedLists.closeConnection_cells hmemory.lists hconnections hs.distinct
        s.memory.topicNames.length with ⟨lists, cs, hclose, hlists, hconnections', hlength⟩
      refine .bind (P := (· = ⟨c.2, rest.head?.map Prod.fst⟩)) (.ofOption hread rfl) ?_
      rintro _ rfl
      refine .bind (P := (· = lists)) (.ofOption hclose rfl) ?_
      rintro _ rfl
      have hdistinct := hs.distinct
      rw [Heap.vals, List.map_append, List.map_cons, List.nodup_middle, List.nodup_cons,
        ← List.map_append] at hdistinct
      refine .pure ⟨hpoll, ⟨{ contents with list := cs }, ⟨hmemory.queues, hlists⟩, hconnections',
        ?_⟩, rfl, hdistinct.2, ?_, hs.receiveBuffer⟩
      · exact hrules.close rest contents _ (hrules.skip c rest contents hinv) hlength
      · intro d hd
        by_cases hdc : d.2 = c.2
        · simp [hdc]
        · simpa [Function.update_of_ne hdc] using hs.socket d (List.mem_cons_of_mem _ hd)

/-- The walker moves on in a list of connections that has not changed. -/
theorem WalkStands.advance {contents : Contents} (hmemory : s.memory.Holds contents)
    (hconnections : contents.list .connectionSockets = visited ++ c :: rest)
    (hinv : inv rest contents) (hdistinct : (Heap.vals (visited ++ c :: rest)).Nodup)
    (hsocket : ∀ d ∈ rest, s.socket d.2 ≠ none)
    (hbuffer : s.receiveBuffer = zeros brokerReceiveBufferSize) :
    WalkStands inv s (visited ++ [c]) rest (rest.head?.map Prod.fst) where
  contents := ⟨contents, hmemory, by simp [hconnections], hinv⟩
  walker_eq := rfl
  distinct := by simpa using hdistinct
  socket := hsocket
  receiveBuffer := hbuffer

/-- The receive buffer is the one that commands are executed from. -/
theorem Executing.receiveBuffer_eq {connections : List (Addr × SocketPtr)}
    {socket : SocketPtr → Option Socket} {receiveBuffer : Bytes} {inv : Contents → Prop}
    (hs : Executing connections socket receiveBuffer inv s) : s.receiveBuffer = receiveBuffer := by
  unfold Executing at hs
  rcases hs with ⟨contents, -, -, -, -, hbuffer⟩
  exact hbuffer

/-- The node at the walker is still there after commands have been executed. -/
theorem Executing.readWalker {socket : SocketPtr → Option Socket} {receiveBuffer : Bytes}
    {inv : Contents → Prop} (hs : Executing (visited ++ c :: rest) socket receiveBuffer inv s) :
    s.memory.lists.nodes.read c.1 = some ⟨c.2, rest.head?.map Prod.fst⟩ := by
  rcases hs with ⟨contents, hmemory, hconnections, -, -, -⟩
  exact readWalker_eq hmemory hconnections

/-- After commands have been executed and the receive buffer has been cleared, the walker moves
on. -/
theorem Executing.stands {socket : SocketPtr → Option Socket} {receiveBuffer receiveBuffer' : Bytes}
    (hs : Executing (visited ++ c :: rest) socket receiveBuffer (inv rest) s)
    (hdistinct : (Heap.vals (visited ++ c :: rest)).Nodup)
    (hsocket : ∀ d ∈ rest, socket d.2 ≠ none)
    (hzeros : receiveBuffer' = zeros brokerReceiveBufferSize) :
    WalkStands inv { s with receiveBuffer := receiveBuffer' } (visited ++ [c]) rest
      (rest.head?.map Prod.fst) := by
  rcases hs with ⟨contents, hmemory, hconnections, hinv, hsocket', -⟩
  exact .advance hmemory hconnections hinv hdistinct (hsocket' ▸ hsocket) hzeros

/-- One round polls the connection at the walker, does not use a removed node, and moves on. -/
theorem pollWalker_outcome (hrules : PassRules malloc poll fault inv)
    (hs : WalkStands inv s visited (c :: rest) walker) :
    Outcome fault (fun result => result.2.2 = c.2 ∧
        WalkStands inv result.1 (visited ++ staying poll [c]) rest result.2.1)
      (pollWalker malloc poll s c.1) := by
  rcases hs.contents with ⟨contents, hmemory, hconnections, hinv⟩
  have hread := readWalker_eq hmemory hconnections
  refine .bind (P := (· = ⟨c.2, rest.head?.map Prod.fst⟩)) (.ofOption hread rfl) ?_
  rintro _ rfl
  refine .bind (receiveCommands_outcome hrules hs) ?_
  rintro ⟨returnValue, s', walker'⟩ hreceived
  cases returnValue with
  | notReceived =>
      rcases hreceived with ⟨hpoll, rfl⟩
      refine .bind (P := (· = ⟨c.2, rest.head?.map Prod.fst⟩)) (.ofOption hread rfl) ?_
      rintro _ rfl
      have hstays : staying poll [c] = [c] := by simp [staying, hpoll]
      rw [hstays]
      exact .pure ⟨rfl, .advance hmemory hconnections (hrules.skip c rest contents hinv)
        hs.distinct (fun d hd => hs.socket d (List.mem_cons_of_mem _ hd)) hs.receiveBuffer⟩
  | deleted =>
      rcases hreceived with ⟨hpoll, hstands⟩
      have hleaves : staying poll [c] = [] := by simp [staying, hpoll]
      rw [hleaves, List.append_nil]
      exact .pure ⟨rfl, hstands⟩
  | received =>
      rcases hreceived with ⟨bytes, hpoll, rfl⟩
      have hbytes := hrules.receive c.2 bytes hpoll
      have hexecuted := hrules.execute visited c rest bytes
        { s with receiveBuffer := bytes ++ zeros (brokerReceiveBufferSize - bytes.length) } hpoll
        (hs.socket c (by simp)) rfl ⟨contents, hmemory, hconnections, hinv, rfl, rfl⟩
      refine .bind hexecuted fun s' hs' => ?_
      have hlength : s'.receiveBuffer.length = brokerReceiveBufferSize := by
        rw [hs'.receiveBuffer_eq]
        simp
        omega
      refine .bind (P := (· = zeros brokerReceiveBufferSize))
        (.ofOption (zeroFill_all hlength) rfl) fun receiveBuffer hzeros => ?_
      refine .bind (P := (· = ⟨c.2, rest.head?.map Prod.fst⟩)) (.ofOption hs'.readWalker rfl) ?_
      rintro _ rfl
      have hstays : staying poll [c] = [c] := by simp [staying, hpoll]
      rw [hstays]
      exact .pure ⟨rfl, hs'.stands hs.distinct
        (fun d hd => hs.socket d (List.mem_cons_of_mem _ hd)) hzeros⟩

/-- From where the walker stands, the pass polls the remaining connections, in order. -/
theorem walk_outcome (hrules : PassRules malloc poll fault inv) {fuel : Nat}
    (hfuel : rest.length ≤ fuel) (hs : WalkStands inv s visited rest walker)
    (polled : List SocketPtr) :
    Outcome fault (fun result => result.2 = polled ++ Heap.vals rest ∧
        WalkStands inv result.1 (visited ++ staying poll rest) [] none)
      (walk malloc poll fuel s walker polled) := by
  induction rest generalizing fuel s visited walker polled with
  | nil =>
      have hwalker : walker = none := hs.walker_eq
      subst hwalker
      have hleft : visited ++ staying poll [] = visited := List.append_nil visited
      rw [hleft]
      cases fuel <;> exact .ok ⟨(List.append_nil polled).symm, hs⟩
  | cons c rest ih =>
      have hwalker : walker = some c.1 := hs.walker_eq
      subst hwalker
      cases fuel with
      | zero => exact absurd hfuel (by simp)
      | succ fuel =>
          refine .bind (pollWalker_outcome hrules hs) ?_
          rintro ⟨s', walker', p⟩ ⟨rfl, hs'⟩
          refine (ih (by simpa using hfuel) hs' (polled ++ [c.2])).imp ?_
          rintro result ⟨hpolled, hend⟩
          refine ⟨by simpa using hpolled, ?_⟩
          have hsplit : visited ++ staying poll (c :: rest) =
              visited ++ staying poll [c] ++ staying poll rest := by
            rw [List.append_assoc, staying, staying, staying, ← List.filter_append]
            rfl
          rwa [hsplit]

/-! ## A whole pass -/

/-- Where nothing is known about the received bytes, executing them may fault. -/
theorem passRules_any (hmalloc : malloc.Fresh)
    (hrecv : ∀ p bytes, poll p = .data bytes → bytes.length ≤ brokerReceiveBufferSize) :
    PassRules malloc poll FromData fun _ _ => True where
  skip := fun _ _ _ _ => trivial
  close := fun _ _ _ _ _ => trivial
  receive := hrecv
  execute := by
    intro visited c rest bytes s _ hsocket _ hs
    exact executeCommands_outcome hmalloc hsocket hs

/-- Every connection that sends something sends whole commands that leave room in the buffer. -/
def SendCommands (poll : SocketPtr → Incoming) (commands : SocketPtr → List Command) : Prop :=
  ∀ p bytes, poll p = .data bytes → bytes = stream (commands p) ∧
    (∀ c ∈ commands p, c.WellFormed) ∧ bytes.length < brokerReceiveBufferSize

/-- How many commands these connections send. -/
def numberOfCommands (commands : SocketPtr → List Command)
    (connections : List (Addr × SocketPtr)) : Nat :=
  (connections.map fun c => (commands c.2).length).sum

/-- Whole commands are executed without a fault. -/
theorem passRules_commands (hmalloc : malloc.Fresh) {commands : SocketPtr → List Command}
    (hcommands : SendCommands poll commands) :
    PassRules malloc poll (fun _ => False) fun rest =>
      HasRoomFor (numberOfCommands commands rest) where
  skip := by
    intro c rest contents hroom i
    have hi := hroom i
    simp only [numberOfCommands, List.map_cons, List.sum_cons] at hi ⊢
    omega
  close := by
    intro rest contents contents' hroom hlength i
    exact Nat.lt_of_le_of_lt (Nat.add_le_add_right (hlength _) _) (hroom i)
  receive := fun p bytes hpoll => Nat.le_of_lt (hcommands p bytes hpoll).2.2
  execute := by
    intro visited c rest bytes s hpoll hsocket hbuffer hs
    rcases hcommands c.2 bytes hpoll with ⟨rfl, hwellFormed, hlength⟩
    have hroom : ∃ m, brokerReceiveBufferSize - (stream (commands c.2)).length = m + 1 :=
      ⟨brokerReceiveBufferSize - (stream (commands c.2)).length - 1, by omega⟩
    rcases hroom with ⟨m, hroom⟩
    rw [hroom, zeros_succ] at hbuffer
    have hnumber : numberOfCommands commands (c :: rest) =
        (commands c.2).length + numberOfCommands commands rest := by
      simp [numberOfCommands]
    rw [hnumber] at hs
    rcases executeCommands_stream hmalloc hsocket hwellFormed 0 (zeros m) hs with
      ⟨s', j, hloop, hs'⟩
    rw [← hbuffer] at hloop
    rw [executeCommands, hloop]
    exact .ok hs'

/-- A pass over connections in memory. -/
theorem receiveAndExecuteCommands_outcome (hrules : PassRules malloc poll fault inv)
    {contents : Contents} (hmemory : s.memory.Holds contents)
    (hinv : inv (contents.list .connectionSockets) contents)
    (hdistinct : (Heap.vals (contents.list .connectionSockets)).Nodup)
    (hsocket : ∀ c ∈ contents.list .connectionSockets, s.socket c.2 ≠ none)
    (hbuffer : s.receiveBuffer = zeros brokerReceiveBufferSize) {fuel : Nat}
    (hfuel : (contents.list .connectionSockets).length ≤ fuel) :
    Outcome fault (fun result => result.2 = Heap.vals (contents.list .connectionSockets) ∧
        WalkStands inv result.1 (staying poll (contents.list .connectionSockets)) [] none)
      (receiveAndExecuteCommands malloc poll fuel s) := by
  have hhead := (hmemory.lists.family.chain .connectionSockets).head_eq
  have hstands : WalkStands inv s [] (contents.list .connectionSockets) _ :=
    ⟨⟨contents, hmemory, rfl, hinv⟩, hhead, hdistinct, hsocket, hbuffer⟩
  exact walk_outcome hrules hfuel hstands []

end MainMemory

/-- One pass visits everyone, for every assignment of poll results to connections with distinct
socket pointers.  It ends, and if it faults, then because of received bytes: it does not
dereference a removed node.  Otherwise it polls each connection once, in the order of the list,
and leaves the list without exactly the connections that close, its size its length.  Where the
received bytes are whole commands, it does not fault. -/
theorem pollingPass_visits_everyone {malloc : Allocator} (hmalloc : malloc.Fresh)
    {poll : SocketPtr → Incoming}
    (hrecv : ∀ p bytes, poll p = .data bytes → bytes.length ≤ brokerReceiveBufferSize)
    {s : MainMemory} {contents : Contents} (hmemory : s.memory.Holds contents)
    (hdistinct : (Heap.vals (contents.list .connectionSockets)).Nodup)
    (hsocket : ∀ c ∈ contents.list .connectionSockets, s.socket c.2 ≠ none)
    (hbuffer : s.receiveBuffer = zeros brokerReceiveBufferSize) {fuel : Nat}
    (hfuel : (contents.list .connectionSockets).length ≤ fuel) :
    (∀ fault, s.receiveAndExecuteCommands malloc poll fuel = .error fault →
        fault = .command ∨ fault = .receiveBuffer) ∧
      (∀ s' polled, s.receiveAndExecuteCommands malloc poll fuel = .ok (s', polled) →
        polled = Heap.vals (contents.list .connectionSockets) ∧
          ∃ contents', s'.memory.Holds contents' ∧
            contents'.list .connectionSockets =
              (contents.list .connectionSockets).filter (fun c => poll c.2 ≠ .closed) ∧
            (s'.memory.lists.list .connectionSockets).size =
              (contents'.list .connectionSockets).length) ∧
      ∀ commands, MainMemory.SendCommands poll commands →
        MainMemory.HasRoomFor
          (MainMemory.numberOfCommands commands (contents.list .connectionSockets)) contents →
        ∃ result, s.receiveAndExecuteCommands malloc poll fuel = .ok result := by
  have hpass := MainMemory.receiveAndExecuteCommands_outcome
    (MainMemory.passRules_any hmalloc hrecv) hmemory trivial hdistinct hsocket hbuffer hfuel
  refine ⟨fun fault hfault => ?_, fun s' polled hok => ?_, fun commands hcommands hroom => ?_⟩
  · rw [hfault] at hpass
    exact hpass.of_error
  · rw [hok] at hpass
    rcases hpass.of_ok with ⟨hpolled, hend⟩
    rcases hend.contents with ⟨contents', hmemory', hconnections, -⟩
    rw [List.append_nil] at hconnections
    exact ⟨hpolled, contents', hmemory', hconnections, hmemory'.lists.size_eq _⟩
  · rcases (MainMemory.receiveAndExecuteCommands_outcome
      (MainMemory.passRules_commands hmalloc hcommands) hmemory hroom hdistinct hsocket hbuffer
      hfuel).exists_ok with ⟨result, hresult, -⟩
    exact ⟨result, hresult⟩

/-- An allocator that returns addresses above all allocated ones. -/
def boundAllocator : Allocator := fun _ _ m => max m.lists.nodes.bound m.messageNodes.bound

theorem boundAllocator_fresh : boundAllocator.Fresh := by
  intro p i m
  exact ⟨m.lists.nodes.read_of_bound_le _ (Nat.le_max_left _ _),
    m.messageNodes.read_of_bound_le _ (Nat.le_max_right _ _)⟩

/-- Two connections and one topic. -/
def twoConnections : MainMemory where
  memory := { BrokerMemory.start [news] with
    lists := ((BrokerMemory.start [news]).lists.addToStart .connectionSockets 8 0).addToStart
      .connectionSockets 7 1 }
  socket := fun _ => some 5
  receiveBuffer := zeros brokerReceiveBufferSize
  responses := []
  notifications := []

/-- The nodes of the two connections. -/
def twoConnectionsContents : Contents where
  queue := fun _ => []
  list := fun
    | .connectionSockets => [(1, 7), (0, 8)]
    | .subscriberConnectionSockets _ => []

theorem twoConnections_holds : twoConnections.memory.Holds twoConnectionsContents where
  queues := (BrokerMemory.start_holds [news]).queues
  lists := by
    have hfirst :=
      addToStart_holds (BrokerMemory.start_holds [news]).lists .connectionSockets 8 0 rfl
    have hsecond := addToStart_holds hfirst .connectionSockets 7 1 rfl
    have hcontents : twoConnectionsContents.list =
        Function.update (Function.update (fun _ => []) ListName.connectionSockets [(0, 8)])
          ListName.connectionSockets [(1, 7), (0, 8)] := by
      funext name
      cases name <;> rfl
    rw [hcontents]
    exact hsecond

/-- The first of them closes and the second one subscribes. -/
def closeAndSubscribe (p : SocketPtr) : Incoming :=
  if p = 7 then .closed else .data (stream [.subscribe news])

/-- Both are polled and the second one is left. -/
theorem pollingPass_visits_everyone_closeAndSubscribe :
    ∃ s', twoConnections.receiveAndExecuteCommands boundAllocator closeAndSubscribe 2 =
        .ok (s', [7, 8]) ∧
      ∃ contents', s'.memory.Holds contents' ∧ contents'.list .connectionSockets = [(0, 8)] := by
  have hrecv : ∀ p bytes, closeAndSubscribe p = .data bytes →
      bytes.length ≤ brokerReceiveBufferSize := by
    intro p bytes h
    rw [closeAndSubscribe] at h
    split at h
    · contradiction
    · cases h
      decide
  have hcommands : MainMemory.SendCommands closeAndSubscribe fun _ => [.subscribe news] := by
    intro p bytes h
    rw [closeAndSubscribe] at h
    split at h
    · contradiction
    · cases h
      have hcommand : (Command.subscribe news).WellFormed := by decide
      exact ⟨rfl, by simpa using hcommand, by decide⟩
  have hroom : MainMemory.HasRoomFor 2 twoConnectionsContents := by
    intro i
    simp [twoConnectionsContents]
  have hfuel : (twoConnectionsContents.list .connectionSockets).length ≤ 2 := by decide
  have hpass := pollingPass_visits_everyone boundAllocator_fresh hrecv twoConnections_holds
    (by decide) (fun _ _ => by simp [twoConnections]) rfl hfuel
  rcases hpass.2.2 _ hcommands hroom with ⟨⟨s', polled⟩, hok⟩
  rcases hpass.2.1 s' polled hok with ⟨rfl, contents', hmemory', hconnections, -⟩
  exact ⟨s', hok, contents', hmemory', hconnections⟩

end Broker
end PubSub
