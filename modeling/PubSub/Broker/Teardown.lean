import PubSub.Broker.LinkedLists
import PubSub.Foundations.Outcome

/-!
# Closing the sockets

{lit}`mutual_assured_destruction` calls {lit}`close_sockets_and_free_socket_list` for the list of
connections and then for the subscriber list of every topic.  The lists share socket cells; a
cell is marked with {lit}`INVALID_SOCKET` so that its socket is not closed a second time when the
cell turns up again.  The mark is written after the cell has been freed.

The socket cells are an explicit store, and reading or writing a cell that is not
allocated is a fault.

Main results:

- Theorem {lit}`closeSocketsAndFreeSocketList_marked`: a list whose cells are marked is freed.
- Theorem {lit}`closeSocketsAndFreeSocketList_faults`: a list with a valid socket makes the call
  write to a freed cell.
- Theorem {lit}`closesEachSocketOnce_iff`: the calls close each socket once, and use no freed cell,
  exactly when no connection is open.
-/

namespace PubSub
namespace Broker

open Foundations

/-! ## The program -/

/-- Why closing the lists faults: it uses a node or a socket cell that is not allocated, or it
does not end. -/
inductive TeardownFault where
  | danglingNode
  | danglingSocket
  | endless
deriving DecidableEq, Repr

/-- The lists, the socket cells, and the cells for which {lit}`closesocket` and {lit}`free` have
been called, in this order. -/
structure Teardown where
  lists : LinkedLists
  socket : SocketPtr → Option Socket
  closed : List SocketPtr
  freed : List SocketPtr

namespace Teardown

/-- Let the head pointer of a list point elsewhere. -/
def setHead (s : Teardown) (name : ListName) (head : Option Addr) : Teardown :=
  { s with
    lists := { s.lists with
      list := Function.update s.lists.list name { s.lists.list name with head := head } } }

/-- Free a node. -/
def freeNode (s : Teardown) (node : Addr) : Teardown :=
  { s with lists := { s.lists with nodes := s.lists.nodes.free node } }

/-- Close the socket in a cell and free the cell. -/
def closeAndFree (s : Teardown) (socketPtr : SocketPtr) : Teardown :=
  { s with
    socket := Function.update s.socket socketPtr none
    closed := s.closed ++ [socketPtr]
    freed := s.freed ++ [socketPtr] }

/-- Write to a cell. -/
def writeSocket (s : Teardown) (socketPtr : SocketPtr) (value : Socket) :
    Except TeardownFault Teardown := do
  let _ ← orFault .danglingSocket (s.socket socketPtr)
  return { s with socket := Function.update s.socket socketPtr (some value) }

/-- One round of {lit}`close_sockets_and_free_socket_list`, for the first node of the list. -/
def freeFirst (s : Teardown) (name : ListName) (previous : Addr) :
    Except TeardownFault Teardown := do
  let node ← orFault .danglingNode (s.lists.nodes.read previous)
  let s := s.setHead name node.next
  let value ← orFault .danglingSocket (s.socket node.val)
  if value ≠ invalidSocket then
    let s ← (s.closeAndFree node.val).writeSocket node.val invalidSocket
    return s.freeNode previous
  else return s.freeNode previous

/-- {lit}`close_sockets_and_free_socket_list`.  The fuel bounds the number of rounds. -/
def closeSocketsAndFreeSocketList (name : ListName) :
    Nat → Teardown → Except TeardownFault Teardown
  | fuel, s =>
      match (s.lists.list name).head with
      | none => .ok s
      | some previous =>
          match fuel with
          | 0 => .error .endless
          | fuel + 1 => do
              let s ← s.freeFirst name previous
              closeSocketsAndFreeSocketList name fuel s

/-- The calls that {lit}`mutual_assured_destruction` makes after the other threads have shut
down. -/
def closeAllLists (fuel numberOfTopics : Nat) (s : Teardown) : Except TeardownFault Teardown := do
  let s ← closeSocketsAndFreeSocketList .connectionSockets fuel s
  (List.range numberOfTopics).foldlM
    (fun s i => closeSocketsAndFreeSocketList (.subscriberConnectionSockets i) fuel s) s

end Teardown

/-! ## What the calls do -/

namespace Teardown

variable {s : Teardown} {cs : ListName → List (Addr × SocketPtr)} {name : ListName}

/-- The lists consist of these nodes. -/
def Holds (s : Teardown) (cs : ListName → List (Addr × SocketPtr)) : Prop :=
  Family s.lists.nodes (fun name => (s.lists.list name).head) cs

/-- The cell holds a valid socket. -/
def Live (s : Teardown) (socketPtr : SocketPtr) : Prop :=
  ∃ value, s.socket socketPtr = some value ∧ value ≠ invalidSocket

/-- The first node of a list whose cell is marked is freed. -/
theorem freeFirst_marked (hs : s.Holds cs) {c : Addr × SocketPtr}
    {rest : List (Addr × SocketPtr)} (hcs : cs name = c :: rest)
    (hmarked : s.socket c.2 = some invalidSocket) :
    ∃ s', s.freeFirst name c.1 = .ok s' ∧ s'.Holds (Function.update cs name rest) ∧
      s'.socket = s.socket ∧ s'.closed = s.closed ∧ s'.freed = s.freed := by
  rcases hs.popFront (a := c.1) (v := c.2) hcs with ⟨-, nx, hread, hfamily⟩
  refine ⟨(s.setHead name nx).freeNode c.1, ?_, ?_, rfl, rfl, rfl⟩
  · have hsocket : (s.setHead name nx).socket c.2 = some invalidSocket := hmarked
    simp only [freeFirst, hread, orFault, Except.bind, Bind.bind, hsocket, ne_eq, not_true,
      if_false]
    rfl
  · have hheads : (fun name' => ((s.setHead name nx).lists.list name').head) =
        Function.update (fun name' => (s.lists.list name').head) name nx := by
      funext name'
      by_cases hname : name' = name
      · subst hname
        simp [setHead]
      · simp [setHead, Function.update_of_ne hname]
    change Family (s.lists.nodes.free c.1)
      (fun name' => ((s.setHead name nx).lists.list name').head) _
    rw [hheads]
    exact hfamily

/-- A node whose cell holds a valid socket makes the round write to a freed cell. -/
theorem freeFirst_live (hs : s.Holds cs) {c : Addr × SocketPtr} {rest : List (Addr × SocketPtr)}
    (hcs : cs name = c :: rest) (hlive : s.Live c.2) :
    s.freeFirst name c.1 = .error .danglingSocket := by
  rcases hs.popFront (a := c.1) (v := c.2) hcs with ⟨-, nx, hread, -⟩
  rcases hlive with ⟨value, hsocket, hvalid⟩
  have hsocket' : (s.setHead name nx).socket c.2 = some value := hsocket
  have hfreed : ((s.setHead name nx).closeAndFree c.2).socket c.2 = none :=
    Function.update_self ..
  simp only [freeFirst, hread, orFault, Except.bind, Bind.bind, hsocket', ne_eq, hvalid,
    not_false_eq_true, if_true, writeSocket, hfreed]

/-- One round, and then the others. -/
theorem closeSocketsAndFreeSocketList_succ {previous : Addr}
    (hhead : (s.lists.list name).head = some previous) (fuel : Nat) :
    closeSocketsAndFreeSocketList name (fuel + 1) s =
      s.freeFirst name previous >>= closeSocketsAndFreeSocketList name fuel := by
  rw [closeSocketsAndFreeSocketList]
  simp only [hhead]

/-- A list whose cells are marked is freed; no socket is closed and no cell is freed. -/
theorem closeSocketsAndFreeSocketList_marked (hs : s.Holds cs)
    (hmarked : ∀ c ∈ cs name, s.socket c.2 = some invalidSocket) {fuel : Nat}
    (hfuel : (cs name).length ≤ fuel) :
    ∃ s', closeSocketsAndFreeSocketList name fuel s = .ok s' ∧
      s'.Holds (Function.update cs name []) ∧ s'.socket = s.socket ∧ s'.closed = s.closed ∧
      s'.freed = s.freed := by
  generalize hnodes : cs name = nodes at hmarked hfuel
  induction nodes generalizing s cs fuel with
  | nil =>
      have hchain := hs.chain name
      rw [hnodes] at hchain
      have hhead : (s.lists.list name).head = none := hchain
      refine ⟨s, ?_, ?_, rfl, rfl, rfl⟩
      · rw [closeSocketsAndFreeSocketList]
        simp only [hhead]
      · rw [← hnodes, Function.update_eq_self]
        exact hs
  | cons c rest ih =>
      have hchain := hs.chain name
      rw [hnodes] at hchain
      have hhead : (s.lists.list name).head = some c.1 := hchain.1
      cases fuel with
      | zero => exact absurd hfuel (by simp)
      | succ fuel =>
          rcases freeFirst_marked hs hnodes (hmarked c (by simp)) with
            ⟨s₁, hfirst, hs₁, hsocket, hclosed, hfreed⟩
          have hmarked₁ : ∀ d ∈ rest, s₁.socket d.2 = some invalidSocket := by
            intro d hd
            rw [hsocket]
            exact hmarked d (List.mem_cons_of_mem _ hd)
          rcases ih hs₁ (Function.update_self ..) hmarked₁ (by simpa using hfuel) with
            ⟨s', hrest, hs', hsocket', hclosed', hfreed'⟩
          rw [Function.update_idem] at hs'
          refine ⟨s', ?_, hs', hsocket'.trans hsocket, hclosed'.trans hclosed,
            hfreed'.trans hfreed⟩
          rw [closeSocketsAndFreeSocketList_succ hhead, hfirst]
          exact hrest

/-- A list with a valid socket in it makes the call fault. -/
theorem closeSocketsAndFreeSocketList_faults (hs : s.Holds cs)
    (halloc : ∀ c ∈ cs name, s.socket c.2 ≠ none) {c : Addr × SocketPtr} (hc : c ∈ cs name)
    (hlive : s.Live c.2) (fuel : Nat) :
    ∃ e, closeSocketsAndFreeSocketList name fuel s = .error e := by
  generalize hnodes : cs name = nodes at halloc hc
  induction nodes generalizing s cs fuel with
  | nil => exact absurd hc (by simp)
  | cons d rest ih =>
      have hchain := hs.chain name
      rw [hnodes] at hchain
      have hhead : (s.lists.list name).head = some d.1 := hchain.1
      cases fuel with
      | zero =>
          refine ⟨.endless, ?_⟩
          rw [closeSocketsAndFreeSocketList]
          simp only [hhead]
      | succ fuel =>
          by_cases hd : s.Live d.2
          · refine ⟨.danglingSocket, ?_⟩
            rw [closeSocketsAndFreeSocketList_succ hhead, freeFirst_live hs hnodes hd]
            rfl
          · rcases Option.ne_none_iff_exists'.mp (halloc d (by simp)) with ⟨value, hvalue⟩
            have hmarked : s.socket d.2 = some invalidSocket := by
              by_cases hvalid : value = invalidSocket
              · rw [hvalue, hvalid]
              · exact absurd ⟨value, hvalue, hvalid⟩ hd
            rcases freeFirst_marked hs hnodes hmarked with ⟨s₁, hfirst, hs₁, hsocket, -, -⟩
            have hlive₁ : s₁.Live c.2 := by
              rw [Live, hsocket]
              exact hlive
            have hrest : c ∈ rest := by
              rcases List.mem_cons.mp hc with rfl | hrest
              · exact absurd hlive hd
              · exact hrest
            have halloc₁ : ∀ e ∈ rest, s₁.socket e.2 ≠ none := by
              intro e he
              rw [hsocket]
              exact halloc e (List.mem_cons_of_mem _ he)
            rcases ih hs₁ hlive₁ fuel (Function.update_self ..) halloc₁ hrest with ⟨e, he⟩
            refine ⟨e, ?_⟩
            rw [closeSocketsAndFreeSocketList_succ hhead, hfirst]
            exact he

/-- The nodes that are left when a list has been freed. -/
theorem mem_of_mem_emptied {name' : ListName} {c : Addr × SocketPtr}
    (hc : c ∈ Function.update cs name [] name') : c ∈ cs name' := by
  by_cases hname : name' = name
  · subst hname
    simp at hc
  · rwa [Function.update_of_ne hname] at hc

theorem length_emptied_le (name' : ListName) :
    (Function.update cs name [] name').length ≤ (cs name').length := by
  by_cases hname : name' = name
  · subst hname
    simp
  · rw [Function.update_of_ne hname]

/-- The subscriber lists of several topics whose cells are marked are freed. -/
theorem closeSubscriberLists_marked {fuel : Nat} (hs : s.Holds cs)
    (hmarked : ∀ name, ∀ c ∈ cs name, s.socket c.2 = some invalidSocket)
    (hfuel : ∀ name, (cs name).length ≤ fuel) (is : List Nat) :
    ∃ s', is.foldlM (fun s i =>
        closeSocketsAndFreeSocketList (.subscriberConnectionSockets i) fuel s) s = .ok s' ∧
      s'.closed = s.closed ∧ s'.freed = s.freed := by
  induction is generalizing s cs with
  | nil => exact ⟨s, rfl, rfl, rfl⟩
  | cons i is ih =>
      rcases closeSocketsAndFreeSocketList_marked hs (hmarked (.subscriberConnectionSockets i))
        (hfuel _) with ⟨s₁, hfirst, hs₁, hsocket, hclosed, hfreed⟩
      have hmarked₁ : ∀ name, ∀ c ∈ Function.update cs (.subscriberConnectionSockets i) [] name,
          s₁.socket c.2 = some invalidSocket := by
        intro name c hc
        rw [hsocket]
        exact hmarked name c (mem_of_mem_emptied hc)
      rcases ih hs₁ hmarked₁ (fun name => (length_emptied_le name).trans (hfuel name)) with
        ⟨s', hrest, hclosed', hfreed'⟩
      refine ⟨s', ?_, hclosed'.trans hclosed, hfreed'.trans hfreed⟩
      rw [List.foldlM_cons, hfirst]
      exact hrest

/-- The calls go through, and they close the socket and free the cell exactly once for every cell
of a list that held a valid socket.  A list has no more nodes than the store. -/
def ClosesEachSocketOnce (s : Teardown) (cs : ListName → List (Addr × SocketPtr))
    (numberOfTopics : Nat) : Prop :=
  ∃ s', s.closeAllLists s.lists.nodes.bound numberOfTopics = .ok s' ∧
    ∀ name, ∀ c ∈ cs name, s.Live c.2 → s'.closed.count c.2 = 1 ∧ s'.freed.count c.2 = 1

/-- What the lists are like when the broker shuts down: their nodes are in memory, with cells that
are allocated, no socket or cell has been closed or freed, and a cell with a valid socket is in
the list of connections, once. -/
structure Ready (s : Teardown) (cs : ListName → List (Addr × SocketPtr))
    (numberOfTopics : Nat) : Prop where
  holds : s.Holds cs
  topics : ∀ i, numberOfTopics ≤ i → cs (.subscriberConnectionSockets i) = []
  allocated : ∀ name, ∀ c ∈ cs name, s.socket c.2 ≠ none
  closed_eq : s.closed = []
  freed_eq : s.freed = []
  connected : ∀ name, ∀ c ∈ cs name, s.Live c.2 →
    c.2 ∈ Heap.vals (cs .connectionSockets)
  once : ∀ c ∈ cs .connectionSockets, s.Live c.2 →
    (Heap.vals (cs .connectionSockets)).count c.2 = 1

variable {numberOfTopics : Nat}

/-- A cell that is allocated is marked or holds a valid socket. -/
theorem marked_of_not_live {socketPtr : SocketPtr} (halloc : s.socket socketPtr ≠ none)
    (hlive : ¬ s.Live socketPtr) : s.socket socketPtr = some invalidSocket := by
  rcases Option.ne_none_iff_exists'.mp halloc with ⟨value, hvalue⟩
  by_cases hvalid : value = invalidSocket
  · rw [hvalue, hvalid]
  · exact absurd ⟨value, hvalue, hvalid⟩ hlive

/-- Where no connection is open, no list has a valid socket. -/
theorem Ready.not_live (hs : s.Ready cs numberOfTopics)
    (hmarked : ∀ c ∈ cs .connectionSockets, s.socket c.2 = some invalidSocket) (name : ListName)
    {c : Addr × SocketPtr} (hc : c ∈ cs name) : ¬ s.Live c.2 := by
  intro hlive
  rcases List.mem_map.mp (hs.connected name c hc hlive) with ⟨d, hd, hdc⟩
  rcases hlive with ⟨value, hvalue, hvalid⟩
  rw [← hdc, hmarked d hd, Option.some.injEq] at hvalue
  exact hvalid hvalue.symm

/-- Where no connection is open, all lists are freed. -/
theorem closeAllLists_marked (hs : s.Ready cs numberOfTopics)
    (hmarked : ∀ c ∈ cs .connectionSockets, s.socket c.2 = some invalidSocket) {fuel : Nat}
    (hfuel : ∀ name, (cs name).length ≤ fuel) :
    ∃ s', s.closeAllLists fuel numberOfTopics = .ok s' := by
  rcases closeSocketsAndFreeSocketList_marked hs.holds hmarked (hfuel _) with
    ⟨s₁, hfirst, hs₁, hsocket, -, -⟩
  have hmarked₁ : ∀ name, ∀ c ∈ Function.update cs .connectionSockets [] name,
      s₁.socket c.2 = some invalidSocket := by
    intro name c hc
    have hc' := mem_of_mem_emptied hc
    rw [hsocket]
    exact marked_of_not_live (hs.allocated name c hc') (hs.not_live hmarked name hc')
  rcases closeSubscriberLists_marked hs₁ hmarked₁
    (fun name => (length_emptied_le name).trans (hfuel name)) (List.range numberOfTopics) with
    ⟨s', hrest, -, -⟩
  refine ⟨s', ?_⟩
  rw [closeAllLists, hfirst]
  exact hrest

/-- Where a connection is open, the calls fault. -/
theorem closeAllLists_faults (hs : s.Ready cs numberOfTopics) {c : Addr × SocketPtr}
    (hc : c ∈ cs .connectionSockets) (hlive : s.Live c.2) (fuel : Nat) :
    ∃ e, s.closeAllLists fuel numberOfTopics = .error e := by
  rcases closeSocketsAndFreeSocketList_faults hs.holds (hs.allocated .connectionSockets) hc hlive
    fuel with ⟨e, he⟩
  refine ⟨e, ?_⟩
  rw [closeAllLists, he]
  rfl

end Teardown

/-- The calls of {lit}`mutual_assured_destruction` close each socket and free each cell exactly
once, and use no cell that has been freed, exactly when no connection is open: an open one
makes them mark its cell after they have freed it. -/
theorem closesEachSocketOnce_iff {s : Teardown} {cs : ListName → List (Addr × SocketPtr)}
    {numberOfTopics : Nat} (hs : s.Ready cs numberOfTopics) :
    s.ClosesEachSocketOnce cs numberOfTopics ↔
      ∀ c ∈ cs .connectionSockets, s.socket c.2 = some invalidSocket := by
  constructor
  · rintro ⟨s', hclose, -⟩ c hc
    apply Teardown.marked_of_not_live (hs.allocated _ c hc)
    intro hlive
    rcases Teardown.closeAllLists_faults hs hc hlive s.lists.nodes.bound with ⟨e, he⟩
    rw [he] at hclose
    contradiction
  · intro hmarked
    have hfuel : ∀ name, (cs name).length ≤ s.lists.nodes.bound :=
      fun name => (hs.holds.chain name).length_le_bound
    rcases Teardown.closeAllLists_marked hs hmarked hfuel with ⟨s', hclose⟩
    exact ⟨s', hclose, fun name c hc hlive => absurd hlive (hs.not_live hmarked name hc)⟩

/-- One connection, with the given socket in its cell, which is subscribed to the only topic. -/
def oneConnection (socket : Socket) : Teardown where
  lists := (LinkedLists.addToStart ⟨Heap.empty, fun _ => initializeSocketList⟩
    .connectionSockets 7 0).addToStart (.subscriberConnectionSockets 0) 7 1
  socket := fun _ => some socket
  closed := []
  freed := []

/-- The nodes of its lists. -/
def oneConnectionNodes : ListName → List (Addr × SocketPtr)
  | .connectionSockets => [(0, 7)]
  | .subscriberConnectionSockets i => if i = 0 then [(1, 7)] else []

theorem oneConnection_ready (socket : Socket) :
    (oneConnection socket).Ready oneConnectionNodes 1 where
  holds := by
    have hfirst := addToStart_holds initializeSocketList_holds ListName.connectionSockets 7 0 rfl
    have hsecond := addToStart_holds hfirst (ListName.subscriberConnectionSockets 0) 7 1 rfl
    have hnodes : oneConnectionNodes =
        Function.update (Function.update (fun _ => []) ListName.connectionSockets [(0, 7)])
          (ListName.subscriberConnectionSockets 0) [(1, 7)] := by
      funext name
      cases name with
      | connectionSockets => rfl
      | subscriberConnectionSockets i =>
          by_cases hi : i = 0
          · subst hi
            rfl
          · simp [oneConnectionNodes, hi]
    rw [hnodes]
    exact hsecond.family
  topics := by
    intro i hi
    rw [oneConnectionNodes, if_neg (by omega)]
  allocated := by simp [oneConnection]
  closed_eq := rfl
  freed_eq := rfl
  connected := by
    intro name c hc _
    cases name with
    | connectionSockets => exact List.mem_map_of_mem hc
    | subscriberConnectionSockets i =>
        rw [oneConnectionNodes] at hc
        split at hc
        · rw [List.mem_singleton] at hc
          subst hc
          simp [oneConnectionNodes]
        · simp at hc
  once := by
    intro c hc _
    rw [oneConnectionNodes, List.mem_singleton] at hc
    subst hc
    rfl

/-- A connection that has been closed is not closed again. -/
theorem closesEachSocketOnce_oneClosed :
    (oneConnection invalidSocket).Ready oneConnectionNodes 1 ∧
      (oneConnection invalidSocket).ClosesEachSocketOnce oneConnectionNodes 1 := by
  have hready := oneConnection_ready invalidSocket
  exact ⟨hready, (closesEachSocketOnce_iff hready).mpr fun _ _ => rfl⟩

/-- An open connection makes the calls write to its cell after it has been freed. -/
theorem not_closesEachSocketOnce_oneOpen :
    (oneConnection 5).Ready oneConnectionNodes 1 ∧
      ¬ (oneConnection 5).ClosesEachSocketOnce oneConnectionNodes 1 := by
  have hready := oneConnection_ready 5
  have hlive : (oneConnection 5).Live 7 := ⟨5, rfl, by decide⟩
  refine ⟨hready, ?_⟩
  rintro ⟨s', hclose, -⟩
  rcases Teardown.closeAllLists_faults hready (c := (0, 7)) (by simp [oneConnectionNodes]) hlive
    (oneConnection 5).lists.nodes.bound with ⟨e, he⟩
  rw [he] at hclose
  contradiction

end Broker
end PubSub
