import PubSub.Broker.SocketList
import PubSub.Foundations.Transition
import PubSub.Foundations.Traversal

/-!
# Delivery to the subscribers of a topic

{lit}`send_subscription_message_or_response` walks through the subscriber list of a
topic while the main thread subscribes, unsubscribes and disconnects clients.
The walk holds the lock of the list only while it looks at a node; it leaves the
critical section around every {lit}`send` and keeps a pointer to the node.

A critical section is one step here, of the walk as well as of the main thread.
A step of the walk that dereferences a node that is not allocated ends at
{lit}`dangling`.

Main results:

- Structure {lit}`WalkInv`: the lists are well formed and the walk is a traversal of
  its list.
- Theorem {lit}`deliveryStep_walkInv`: every step keeps it, unless it removes the node
  at which the walk stands.
- Theorem {lit}`delivered_of_keepsWalker`: then the walk never uses a removed node and
  sends the message exactly once to every node that stays in the list.
- Theorem {lit}`not_delivered_unsubscribe`: removing the node at which the walk stands
  breaks this.
-/

namespace PubSub
namespace Broker

open Foundations

universe u

/-- One call of {lit}`send_to_client` in a walk: the node that the walk stood at, its
socket pointer, the socket read through it, and the message. -/
structure Sending where
  node : Addr
  socketPtr : SocketPtr
  socket : Socket
  message : Bytes
deriving DecidableEq, Repr

/-- Where the walk stands.  It is {lit}`sending` and {lit}`advancing` outside the critical
section, before and after {lit}`send_to_client` has returned. -/
inductive WalkPc (ι : Type u) where
  | idle
  | sending (t : ι) (e : Sending)
  | advancing (t : ι) (walker : Addr) (message : Bytes)
  | finished (t : ι) (message : Bytes)
  | dangling
deriving DecidableEq, Repr

/-- The node whose address the walk keeps outside the critical section. -/
def WalkPc.walker {ι : Type u} : WalkPc ι → Option Addr
  | .sending _ e => some e.node
  | .advancing _ walker _ => some walker
  | _ => none

/-- The socket lists in their node store, the {lit}`SOCKET` cells, and the walk.  The log
{lit}`sent` is that of the current walk; {lit}`stayed` are the nodes that its list had when
the walk began and that have not been freed since.  No step reads these two. -/
structure Delivery (ι : Type u) where
  nodes : Heap SocketPtr
  lists : ι → SocketList
  cells : SocketPtr → Option Socket
  walk : WalkPc ι
  stayed : List (Addr × SocketPtr)
  sent : List Sending

/-- What the threads do.  {lit}`node` and the socket pointer of {lit}`accept` are addresses that
{lit}`malloc` returns. -/
inductive DeliveryAction (ι : Type u) where
  /-- the main thread writes the socket of a new connection to its cell -/
  | accept (socketPtr : SocketPtr) (socket : Socket)
  /-- the main thread marks the cell of a closed connection -/
  | close (socketPtr : SocketPtr)
  /-- the main thread calls {lit}`add_to_start` -/
  | add (i : ι) (socketPtr : SocketPtr) (node : Addr)
  /-- the main thread calls {lit}`free_node` -/
  | remove (i : ι) (socketPtr : SocketPtr)
  /-- the consumer enters the critical section for the first time -/
  | start (t : ι) (message : Bytes)
  /-- {lit}`send_to_client` returns -/
  | send
  /-- the consumer enters the critical section again -/
  | advance
deriving DecidableEq, Repr

namespace Delivery

variable {ι : Type u}

/-- No list has a node, and nobody walks. -/
def start : Delivery ι where
  nodes := Heap.empty
  lists := fun _ => initializeSocketList
  cells := fun _ => none
  walk := .idle
  stayed := []
  sent := []

/-- The walk has set its pointer to {lit}`walker`: it ends at a null pointer, and
otherwise reads the socket of the node before it leaves the critical section. -/
def lookAt (s : Delivery ι) (t : ι) (message : Bytes) : Option Addr → WalkPc ι
  | none => .finished t message
  | some walker =>
      match s.nodes.read walker with
      | none => .dangling
      | some node =>
          match s.cells node.val with
          | none => .dangling
          | some socket => .sending t ⟨walker, node.val, socket, message⟩

/-- The beginning of a walk through list {lit}`t`. -/
def startWalk (s : Delivery ι) (t : ι) (message : Bytes) : Delivery ι :=
  { s with
    walk := s.lookAt t message (s.lists t).head
    stayed := s.nodes.cells s.nodes.bound (s.lists t).head
    sent := [] }

/-- The node that {lit}`free_node` would remove from list {lit}`i`. -/
def removedNode (s : Delivery ι) (i : ι) (socketPtr : SocketPtr) : Option Addr :=
  ((s.nodes.cells s.nodes.bound (s.lists i).head).find? fun c => c.2 = socketPtr).map Prod.fst

end Delivery

variable {ι : Type u}

/-- The step function of the main thread and the walk. -/
def deliveryStep [DecidableEq ι] (s : Delivery ι) : DeliveryAction ι → Option (Delivery ι)
  | .accept socketPtr socket =>
      if s.cells socketPtr = none then
        some { s with cells := Function.update s.cells socketPtr (some socket) }
      else none
  | .close socketPtr =>
      if s.cells socketPtr = none then none
      else some { s with cells := Function.update s.cells socketPtr (some invalidSocket) }
  | .add i socketPtr node =>
      if s.nodes.read node = none ∧ s.cells socketPtr ≠ none then
        let (nodes, l) := addToStart s.nodes (s.lists i) socketPtr node
        some { s with nodes := nodes, lists := Function.update s.lists i l }
      else none
  | .remove i socketPtr =>
      (freeNode s.nodes (s.lists i) socketPtr).map fun (nodes, l, _) =>
        { s with
          nodes := nodes
          lists := Function.update s.lists i l
          stayed := s.stayed.filter fun c => (nodes.read c.1).isSome }
  | .start t message =>
      match s.walk with
      | .idle | .finished _ _ => some (s.startWalk t message)
      | _ => none
  | .send =>
      match s.walk with
      | .sending t e =>
          some { s with walk := .advancing t e.node e.message, sent := s.sent ++ [e] }
      | _ => none
  | .advance =>
      match s.walk with
      | .advancing t walker message =>
          match s.nodes.read walker with
          | none => some { s with walk := .dangling }
          | some node => some { s with walk := s.lookAt t message node.next }
      | _ => none

/-- The main thread and the walk of the consumer over the lists named by {lit}`ι`. -/
def deliverySystem (ι : Type u) [DecidableEq ι] : System (Delivery ι) (DeliveryAction ι) where
  initial s := s = Delivery.start
  step := deliveryStep

/-- The main thread does not remove the node whose address the walk keeps. -/
def KeepsWalker (s : Delivery ι) : DeliveryAction ι → Prop
  | .remove i socketPtr => ∀ w, s.walk.walker = some w → s.removedNode i socketPtr ≠ some w
  | _ => True

/-- The walk never uses a node that has been removed: it never dangles, and the
node that it will dereference next is allocated.  When it is finished, every node
that stayed in the list has been sent the message exactly once, to the socket of
its connection unless that has been closed meanwhile. -/
structure Delivered (s : Delivery ι) : Prop where
  not_dangling : s.walk ≠ .dangling
  allocated : ∀ w, s.walk.walker = some w → s.nodes.read w ≠ none
  once : ∀ t message, s.walk = .finished t message → ∀ c ∈ s.stayed,
    ∃ e, s.sent.filter (fun e => e.node = c.1) = [e] ∧ e.socketPtr = c.2 ∧
      e.message = message ∧
      (s.cells e.socketPtr = some e.socket ∨ s.cells e.socketPtr = some invalidSocket)

/-! ## The invariant -/

/-- What is known about a log entry for a cell of the list. -/
def GoodSending (cells : SocketPtr → Option Socket) (message : Bytes) (c : Addr × SocketPtr)
    (e : Sending) : Prop :=
  e.socketPtr = c.2 ∧ e.message = message ∧
    (cells e.socketPtr = some e.socket ∨ cells e.socketPtr = some invalidSocket)

/-- The walk through list {lit}`t` stands at the node {lit}`w`, and {lit}`done` is its log, the
current entry included. -/
structure WalksAt (s : Delivery ι) (cs : ι → List (Addr × SocketPtr)) (t : ι) (w : Addr)
    (message : Bytes) (done : List Sending) : Prop where
  position : ∃ seen p rest, cs t = seen ++ (w, p) :: rest ∧
    Traversal Sending.node (GoodSending s.cells message) s.stayed (seen ++ [(w, p)]) rest done

/-- The position of the walk fits the lists. -/
def WalkFits (s : Delivery ι) (cs : ι → List (Addr × SocketPtr)) : Prop :=
  match s.walk with
  | .idle => True
  | .sending t e => WalksAt s cs t e.node e.message (s.sent ++ [e])
  | .advancing t w message => WalksAt s cs t w message s.sent
  | .finished _ message => ∃ seen,
      Traversal Sending.node (GoodSending s.cells message) s.stayed seen [] s.sent
  | .dangling => False

/-- The lists are well formed, their socket pointers point to cells, and the walk
fits the lists. -/
structure WalkInv (s : Delivery ι) : Prop where
  lists : ∃ cs, ListsHold s.nodes s.lists cs ∧
    (∀ i, ∀ c ∈ cs i, s.cells c.2 ≠ none) ∧ WalkFits s cs

/-- A step of the main thread leaves the position and the log of the walk alone. -/
theorem walkFits_of_walksAt {s s' : Delivery ι} {cs cs' : ι → List (Addr × SocketPtr)}
    (hfits : WalkFits s cs) (hwalk : s'.walk = s.walk) (hsent : s'.sent = s.sent)
    (hat : ∀ t w message done, s.walk.walker = some w → WalksAt s cs t w message done →
      WalksAt s' cs' t w message done)
    (hfinished : ∀ message seen,
      Traversal Sending.node (GoodSending s.cells message) s.stayed seen [] s.sent →
      ∃ seen', Traversal Sending.node (GoodSending s'.cells message) s'.stayed seen' [] s.sent) :
    WalkFits s' cs' := by
  unfold WalkFits at hfits ⊢
  rw [hwalk, hsent]
  cases hpc : s.walk with
  | idle => trivial
  | sending t e =>
      rw [hpc] at hfits
      exact hat t e.node e.message _ (by rw [hpc]; rfl) hfits
  | advancing t w message =>
      rw [hpc] at hfits
      exact hat t w message _ (by rw [hpc]; rfl) hfits
  | finished t message =>
      rw [hpc] at hfits
      rcases hfits with ⟨seen, htrav⟩
      exact hfinished message seen htrav
  | dangling =>
      rw [hpc] at hfits
      exact hfits

/-- New and closed cells do not spoil a log entry. -/
theorem GoodSending.imp {cells cells' : SocketPtr → Option Socket} {message : Bytes}
    {c : Addr × SocketPtr} {e : Sending} (hgood : GoodSending cells message c e)
    (hcells : ∀ p v, cells p = some v → cells' p = some v ∨ cells' p = some invalidSocket) :
    GoodSending cells' message c e := by
  rcases hgood with ⟨hptr, hmessage, hsocket | hinvalid⟩
  · exact ⟨hptr, hmessage, hcells _ _ hsocket⟩
  · exact ⟨hptr, hmessage, Or.inr ((hcells _ _ hinvalid).elim id id)⟩

/-- A step that only writes cells. -/
theorem WalkInv.of_cells {s : Delivery ι} (hs : WalkInv s) {cells' : SocketPtr → Option Socket}
    (hcells : ∀ p v, s.cells p = some v → cells' p = some v ∨ cells' p = some invalidSocket) :
    WalkInv { s with cells := cells' } := by
  rcases hs.lists with ⟨cs, hl, halloc, hfits⟩
  refine ⟨cs, hl, ?_, ?_⟩
  · intro i c hc
    rcases Option.ne_none_iff_exists'.mp (halloc i c hc) with ⟨v, hv⟩
    rcases hcells _ _ hv with h | h <;> simp [h]
  · refine walkFits_of_walksAt hfits rfl rfl ?_ ?_
    · rintro t w message done - ⟨seen, p, rest, hcs, htrav⟩
      exact ⟨seen, p, rest, hcs, htrav.imp fun _ _ _ hgood => hgood.imp hcells⟩
    · intro message seen htrav
      exact ⟨seen, htrav.imp fun _ _ _ hgood => hgood.imp hcells⟩

/-- The main thread links a node in front of list {lit}`i`. -/
theorem WalkInv.of_add [DecidableEq ι] {s : Delivery ι} (hs : WalkInv s) {i : ι}
    {socketPtr : SocketPtr} {node : Addr} (hfresh : s.nodes.read node = none)
    (hcell : s.cells socketPtr ≠ none) :
    WalkInv { s with
      nodes := (addToStart s.nodes (s.lists i) socketPtr node).1
      lists := Function.update s.lists i (addToStart s.nodes (s.lists i) socketPtr node).2 } := by
  rcases hs.lists with ⟨cs, hl, halloc, hfits⟩
  refine ⟨Function.update cs i ((node, socketPtr) :: cs i),
    addToStart_holds hl i socketPtr node hfresh, ?_, ?_⟩
  · intro j c hc
    by_cases hj : j = i
    · subst hj
      rw [Function.update_self] at hc
      rcases List.mem_cons.mp hc with rfl | hc
      · exact hcell
      · exact halloc j c hc
    · rw [Function.update_of_ne hj] at hc
      exact halloc j c hc
  · refine walkFits_of_walksAt hfits rfl rfl ?_ fun message seen htrav => ⟨seen, htrav⟩
    rintro t w message done - ⟨seen, p, rest, hcs, htrav⟩
    by_cases ht : t = i
    · subst ht
      refine ⟨(node, socketPtr) :: seen, p, rest, ?_, htrav.insert _⟩
      rw [Function.update_self, hcs]
      rfl
    · exact ⟨seen, p, rest, by rwa [Function.update_of_ne ht], htrav⟩

/-- The node that {lit}`free_node` would remove is the first one with the socket pointer. -/
theorem removedNode_eq {s : Delivery ι} {cs : ι → List (Addr × SocketPtr)}
    (hl : ListsHold s.nodes s.lists cs) {i : ι} {pre post : List (Addr × SocketPtr)} {a : Addr}
    {socketPtr : SocketPtr} (hcs : cs i = pre ++ (a, socketPtr) :: post)
    (hfirst : ∀ c ∈ pre, c.2 ≠ socketPtr) : s.removedNode i socketPtr = some a := by
  have hchain := hl.family.chain i
  have hnone : pre.find? (fun c => c.2 = socketPtr) = none := by
    rw [List.find?_eq_none]
    intro c hc
    simpa using hfirst c hc
  rw [Delivery.removedNode, hchain.cells_eq hchain.length_le_bound, hcs, List.find?_append, hnone]
  simp

/-- The main thread frees the node {lit}`a` of list {lit}`i`, at which the walk does not stand. -/
theorem WalkInv.of_remove [DecidableEq ι] {s : Delivery ι} {cs : ι → List (Addr × SocketPtr)}
    (halloc : ∀ j, ∀ c ∈ cs j, s.cells c.2 ≠ none) (hfits : WalkFits s cs) {i : ι}
    {pre post : List (Addr × SocketPtr)} {a : Addr} {socketPtr : SocketPtr}
    (hcs : cs i = pre ++ (a, socketPtr) :: post)
    (hnodup : (Heap.addrs (cs i)).Nodup) (hkeep : ∀ w, s.walk.walker = some w → w ≠ a)
    {nodes' : Heap SocketPtr} {lists' : ι → SocketList}
    (hl' : ListsHold nodes' lists' (Function.update cs i (pre ++ post)))
    (hfree : nodes'.read a = none) :
    WalkInv { s with
      nodes := nodes'
      lists := lists'
      stayed := s.stayed.filter fun c => (nodes'.read c.1).isSome } := by
  have hstayed : ∀ c ∈ s.stayed.filter fun c => (nodes'.read c.1).isSome,
      c ∈ s.stayed ∧ c.1 ≠ a := by
    intro c hc
    rcases List.mem_filter.mp hc with ⟨hmem, hsome⟩
    refine ⟨hmem, ?_⟩
    intro heq
    rw [heq, hfree] at hsome
    contradiction
  refine ⟨Function.update cs i (pre ++ post), hl', ?_, ?_⟩
  · intro j c hc
    by_cases hj : j = i
    · subst hj
      rw [Function.update_self] at hc
      apply halloc j c
      rw [hcs]
      simp only [List.mem_append, List.mem_cons] at hc ⊢
      tauto
    · rw [Function.update_of_ne hj] at hc
      exact halloc j c hc
  · refine walkFits_of_walksAt hfits rfl rfl ?_ ?_
    · rintro t w message done hwalker ⟨seen, p, rest, hsplit, htrav⟩
      have hwa : w ≠ a := hkeep w hwalker
      by_cases ht : t = i
      · subst ht
        have herased := htrav.erase hstayed
        have hcell : ([(w, p)] : List (Addr × SocketPtr)).filter (fun c => c.1 ≠ a) =
            [(w, p)] := by simp [hwa]
        rw [List.filter_append, hcell] at herased
        refine ⟨_, p, _, ?_, herased⟩
        rw [Function.update_self, Heap.append_eq_filter_ne (hcs ▸ hnodup), ← hcs, hsplit,
          List.filter_append, List.filter_cons_of_pos (by simpa using hwa)]
      · refine ⟨seen, p, rest, by rwa [Function.update_of_ne ht], ?_⟩
        exact htrav.restrict fun c hc => (hstayed c hc).1
    · intro message seen htrav
      exact ⟨seen, htrav.restrict fun c hc => (hstayed c hc).1⟩

/-! ## The steps of the walk -/

/-- The walk looks at the first cell ahead of it. -/
theorem lookAt_cons {s : Delivery ι} {cs : List (Addr × SocketPtr)} {d : Addr × SocketPtr}
    {rest : List (Addr × SocketPtr)} {head next : Option Addr}
    (hchain : s.nodes.Chain cs head) (hd : d ∈ cs) (hcell : s.cells d.2 ≠ none)
    (hnext : s.nodes.Chain (d :: rest) next) (t : ι) (message : Bytes) :
    ∃ socket, s.cells d.2 = some socket ∧
      s.lookAt t message next = .sending t ⟨d.1, d.2, socket, message⟩ := by
  rcases Option.ne_none_iff_exists'.mp hcell with ⟨socket, hsocket⟩
  rcases hchain.read hd with ⟨nx, hread⟩
  have hnext' : next = some d.1 := hnext.1
  exact ⟨socket, hsocket, by simp only [hnext', Delivery.lookAt, hread, hsocket]⟩

/-- The first critical section of a walk. -/
theorem WalkInv.of_start {s : Delivery ι} (hs : WalkInv s) (t : ι) (message : Bytes) :
    WalkInv (s.startWalk t message) := by
  rcases hs.lists with ⟨cs, hl, halloc, -⟩
  have hchain := hl.family.chain t
  refine ⟨cs, hl, halloc, ?_⟩
  unfold WalkFits
  simp only [Delivery.startWalk, hchain.cells_eq hchain.length_le_bound]
  cases hcs : cs t with
  | nil =>
      rw [hcs] at hchain
      have hhead : (s.lists t).head = none := hchain
      simp only [hhead, Delivery.lookAt]
      exact ⟨[], Traversal.nil⟩
  | cons c rest =>
      have hmem : c ∈ cs t := by simp [hcs]
      have hchain' : s.nodes.Chain (c :: rest) (s.lists t).head := hcs ▸ hchain
      rcases lookAt_cons hchain hmem (halloc t c hmem) hchain' t message with
        ⟨socket, hsocket, hlook⟩
      simp only [hlook]
      refine ⟨[], c.2, rest, hcs, ?_⟩
      exact Traversal.begin hchain'.nodup rfl ⟨rfl, rfl, Or.inl hsocket⟩

/-- {lit}`send_to_client` returns. -/
theorem WalkInv.of_send {s : Delivery ι} (hs : WalkInv s) {t : ι} {e : Sending}
    (hpc : s.walk = .sending t e) :
    WalkInv { s with walk := .advancing t e.node e.message, sent := s.sent ++ [e] } := by
  rcases hs.lists with ⟨cs, hl, halloc, hfits⟩
  refine ⟨cs, hl, halloc, ?_⟩
  unfold WalkFits at hfits ⊢
  rw [hpc] at hfits
  rcases hfits.position with ⟨seen, p, rest, hcs, htrav⟩
  exact ⟨seen, p, rest, hcs, htrav⟩

/-- A later critical section of a walk: the node at which it stands is still there,
so its successor is the next cell of the list. -/
theorem WalkInv.of_advance {s s' : Delivery ι} (hs : WalkInv s) {t : ι} {w : Addr}
    {message : Bytes} (hpc : s.walk = .advancing t w message)
    (hstep : (match s.nodes.read w with
      | none => some { s with walk := .dangling }
      | some node => some { s with walk := s.lookAt t message node.next }) = some s') :
    WalkInv s' := by
  rcases hs.lists with ⟨cs, hl, halloc, hfits⟩
  have hchain := hl.family.chain t
  unfold WalkFits at hfits
  rw [hpc] at hfits
  rcases hfits.position with ⟨seen, p, rest, hcs, htrav⟩
  have hsuffix : ∃ nx, s.nodes.read w = some ⟨p, nx⟩ ∧ s.nodes.Chain rest nx := by
    rw [hcs] at hchain
    rcases (Heap.seg_append _ _ _ _ _).mp hchain with ⟨m, -, -, nx, hread, hrest⟩
    exact ⟨nx, hread, hrest⟩
  rcases hsuffix with ⟨nx, hread, hrest⟩
  rw [hread, Option.some.injEq] at hstep
  rw [← hstep]
  refine ⟨cs, hl, halloc, ?_⟩
  unfold WalkFits
  cases rest with
  | nil =>
      have hnx : nx = none := hrest
      simp only [hnx, Delivery.lookAt]
      exact ⟨_, htrav⟩
  | cons d rest =>
      have hmem : d ∈ cs t := by simp [hcs]
      rcases lookAt_cons hchain hmem (halloc t d hmem) hrest t message with
        ⟨socket, hsocket, hlook⟩
      simp only [hlook]
      have hcs' : cs t = (seen ++ [(w, p)]) ++ d :: rest := by simp [hcs]
      refine ⟨seen ++ [(w, p)], d.2, rest, hcs', ?_⟩
      exact htrav.advance (hcs' ▸ hchain.nodup) rfl ⟨rfl, rfl, Or.inl hsocket⟩

/-- The invariant gives what the walk is to achieve. -/
theorem WalkInv.delivered {s : Delivery ι} (hs : WalkInv s) : Delivered s := by
  rcases hs.lists with ⟨cs, hl, -, hfits⟩
  unfold WalkFits at hfits
  have halloc : ∀ t w message done, WalksAt s cs t w message done → s.nodes.read w ≠ none := by
    rintro t w message done ⟨seen, p, rest, hcs, -⟩
    apply (hl.family.chain t).allocated
    simp [hcs]
  constructor
  · intro hpc
    rw [hpc] at hfits
    exact hfits
  · intro w hw
    cases hpc : s.walk with
    | sending t e =>
        rw [hpc] at hfits hw
        rw [← Option.some.inj hw]
        exact halloc _ _ _ _ hfits
    | advancing t w' message =>
        rw [hpc] at hfits hw
        rw [← Option.some.inj hw]
        exact halloc _ _ _ _ hfits
    | idle | finished | dangling =>
        rw [hpc] at hw
        contradiction
  · intro t message hpc c hc
    rw [hpc] at hfits
    rcases hfits with ⟨seen, htrav⟩
    rcases htrav.finish hc with ⟨e, he, hptr, hmessage, hsocket⟩
    exact ⟨e, he, hptr, hmessage, hsocket⟩

/-! ## Runs -/

theorem walkInv_start : WalkInv (Delivery.start : Delivery ι) where
  lists := ⟨fun _ => [], initializeSocketList_holds, by simp, trivial⟩

variable [DecidableEq ι]

/-- Every step keeps the invariant unless it removes the node at which the walk
stands. -/
theorem deliveryStep_walkInv {s s' : Delivery ι} (hs : WalkInv s) {a : DeliveryAction ι}
    (hkeep : KeepsWalker s a) (hstep : deliveryStep s a = some s') : WalkInv s' := by
  cases a with
  | accept socketPtr socket =>
      simp only [deliveryStep] at hstep
      split at hstep
      · next hfresh =>
          rw [← Option.some.inj hstep]
          apply hs.of_cells
          intro p v hv
          left
          rw [Function.update_of_ne, hv]
          rintro rfl
          rw [hfresh] at hv
          contradiction
      · contradiction
  | close socketPtr =>
      simp only [deliveryStep] at hstep
      split at hstep
      · contradiction
      · rw [← Option.some.inj hstep]
        apply hs.of_cells
        intro p v hv
        by_cases hp : p = socketPtr
        · right
          rw [hp, Function.update_self]
        · left
          rw [Function.update_of_ne hp, hv]
  | add i socketPtr node =>
      simp only [deliveryStep] at hstep
      split at hstep
      · next hcond =>
          rw [← Option.some.inj hstep]
          exact hs.of_add hcond.1 hcond.2
      · contradiction
  | remove i socketPtr =>
      rcases hs.lists with ⟨cs, hl, halloc, hfits⟩
      by_cases hmem : socketPtr ∈ Heap.vals (cs i)
      · rcases exists_first hmem with ⟨pre, a, post, hcs, hfirst⟩
        rcases freeNode_found hl hcs hfirst with ⟨nodes', l', hfree, hl', hread⟩
        simp only [deliveryStep, hfree, Option.map_some] at hstep
        rw [← Option.some.inj hstep]
        refine WalkInv.of_remove halloc hfits hcs (hl.family.chain i).nodup ?_ hl' hread
        intro w hwalker heq
        exact hkeep w hwalker (heq ▸ removedNode_eq hl hcs hfirst)
      · have habsent : ∀ c ∈ cs i, c.2 ≠ socketPtr := by
          rintro c hc rfl
          exact hmem (List.mem_map_of_mem hc)
        simp only [deliveryStep, freeNode_absent hl habsent, Option.map_some,
          Function.update_eq_self] at hstep
        rw [← Option.some.inj hstep]
        refine ⟨cs, hl, halloc, walkFits_of_walksAt hfits rfl rfl ?_ ?_⟩
        · rintro t w message done - ⟨seen, p, rest, hcs, htrav⟩
          exact ⟨seen, p, rest, hcs, htrav.restrict fun c hc => (List.mem_filter.mp hc).1⟩
        · intro message seen htrav
          exact ⟨seen, htrav.restrict fun c hc => (List.mem_filter.mp hc).1⟩
  | start t message =>
      simp only [deliveryStep] at hstep
      split at hstep
      · rw [← Option.some.inj hstep]
        exact hs.of_start t message
      · rw [← Option.some.inj hstep]
        exact hs.of_start t message
      · contradiction
  | send =>
      simp only [deliveryStep] at hstep
      split at hstep
      · next t e hpc =>
          rw [← Option.some.inj hstep]
          exact hs.of_send hpc
      · contradiction
  | advance =>
      simp only [deliveryStep] at hstep
      split at hstep
      · next t w message hpc => exact hs.of_advance hpc hstep
      · contradiction

/-- As long as the main thread does not remove the node at which a walk stands,
walks never use a removed node and send exactly once to every node that stays. -/
theorem delivered_of_keepsWalker {s : Delivery ι}
    (hreach : (deliverySystem ι).ReachableVia KeepsWalker s) : Delivered s := by
  have hs : WalkInv s := by
    refine System.ReachableVia.invariant WalkInv ?_ ?_ hreach
    · rintro s rfl
      exact walkInv_start
    · exact fun s a s' hs hkeep hstep => deliveryStep_walkInv hs hkeep hstep
  exact hs.delivered

instance (s : Delivery ι) (a : DeliveryAction ι) : Decidable (KeepsWalker s a) :=
  match a with
  | .remove i socketPtr =>
      match h : s.walk.walker with
      | none => isTrue (by simp [KeepsWalker, h])
      | some w => decidable_of_iff (s.removedNode i socketPtr ≠ some w) (by simp [KeepsWalker, h])
  | .accept .. | .close .. | .add .. | .start .. | .send | .advance => isTrue trivial

/-- Two subscribers; a third one subscribes and leaves again while the message is
on its way to the first. -/
def subscribeDuringWalk : List (DeliveryAction (Fin 1)) :=
  [.accept 0 500, .accept 1 501, .add 0 0 10, .add 0 1 11, .start 0 [7],
    .add 0 0 12, .remove 0 0, .send, .advance, .send, .advance]

theorem delivered_subscribeDuringWalk :
    ∃ s, (deliverySystem (Fin 1)).ReachableVia KeepsWalker s ∧
      s.walk = .finished 0 [7] ∧ s.stayed = [(11, 1), (10, 0)] ∧
      ∃ e, s.sent.filter (fun e => e.node = 10) = [e] ∧ e.socketPtr = 0 := by
  have hrun : ((deliverySystem (Fin 1)).runVia KeepsWalker Delivery.start
      subscribeDuringWalk).map (fun s => (s.walk, s.stayed)) =
      some (.finished 0 [7], [(11, 1), (10, 0)]) := rfl
  rcases Option.map_eq_some_iff.mp hrun with ⟨s, hs, heq⟩
  rw [Prod.mk.injEq] at heq
  rcases heq with ⟨hwalk, hstayed⟩
  have hfirst : (deliverySystem (Fin 1)).ReachableVia KeepsWalker Delivery.start :=
    System.ReachableVia.start rfl
  have hreach := hfirst.runVia hs
  have hmem : (10, 0) ∈ s.stayed := by simp [hstayed]
  rcases (delivered_of_keepsWalker hreach).once 0 [7] hwalk (10, 0) hmem with
    ⟨e, he, hptr, -, -⟩
  exact ⟨s, hreach, hwalk, hstayed, e, he, hptr⟩

/-- The only subscriber unsubscribes while the message is on its way to it. -/
def unsubscribeDuringWalk : List (DeliveryAction (Fin 1)) :=
  [.accept 0 500, .add 0 0 10, .start 0 [7], .remove 0 0, .send, .advance]

/-- The walk goes on from a node that has been freed. -/
theorem not_delivered_unsubscribe :
    ∃ s, (deliverySystem (Fin 1)).Reachable s ∧ s.walk = .dangling ∧ ¬ Delivered s := by
  have hrun : ((deliverySystem (Fin 1)).run Delivery.start unsubscribeDuringWalk).map
      (fun s => s.walk) = some .dangling := rfl
  rcases Option.map_eq_some_iff.mp hrun with ⟨s, hs, hwalk⟩
  have hfirst : (deliverySystem (Fin 1)).Reachable Delivery.start :=
    System.Reachable.start rfl
  exact ⟨s, hfirst.run hs, hwalk, fun hgood => hgood.not_dangling hwalk⟩

end Broker
end PubSub
