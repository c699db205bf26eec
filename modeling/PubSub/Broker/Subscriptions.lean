import PubSub.Broker.Delivery
import PubSub.Foundations.RunLog

/-!
# What a subscriber is sent

The consumer walks through a subscriber list once for every message, and between and during
these walks the main thread adds and removes subscribers.  Here one node of a list is followed
over many walks, from the moment when it is linked in.

Main results:

- Theorem {lit}`deliveryStep_moves`: what a step does to the cells of the lists.
- Structure {lit}`Follows`: what has been sent to the node and what the current walk will still
  send to it are the messages of the walks that have begun since.
- Theorem {lit}`Follows.step`: a step keeps this, unless it removes the node or closes its
  connection.
- Theorem {lit}`follows_of_logs`: so it holds from the subscription on.
-/

namespace PubSub
namespace Broker

open Foundations

universe u

variable {ι : Type u}

/-! ## What is written down -/

/-- What happens in the walks. -/
inductive WalkEvent (ι : Type u) where
  | started (t : ι) (message : Bytes)
  | sent (e : Sending)
deriving DecidableEq, Repr

/-- What a step adds. -/
def walkEvents (s : Delivery ι) : DeliveryAction ι → List (WalkEvent ι)
  | .start t message => [.started t message]
  | .send =>
      match s.walk with
      | .sending _ e => [.sent e]
      | .idle | .advancing _ _ _ | .finished _ _ | .dangling => []
  | .accept _ _ | .close _ | .add _ _ _ | .remove _ _ | .advance => []

/-- The messages of the walks through a list. -/
def startedOn [DecidableEq ι] (t : ι) (events : List (WalkEvent ι)) : List Bytes :=
  events.filterMap fun
    | .started t' message => if t' = t then some message else none
    | .sent _ => none

/-- What has been sent to a node. -/
def sentTo (a : Addr) (events : List (WalkEvent ι)) : List Sending :=
  events.filterMap fun
    | .started _ _ => none
    | .sent e => if e.node = a then some e else none

/-- The cells of a list. -/
def Delivery.cellsOf (s : Delivery ι) (i : ι) : List (Addr × SocketPtr) :=
  s.nodes.cells s.nodes.bound (s.lists i).head

/-- The message that the current walk will still send to a node: the walk stands at the node and
has not sent yet, or the node is behind the one at which it stands. -/
def Delivery.ahead (s : Delivery ι) (a : Addr) : Option Bytes :=
  match s.walk with
  | .sending t e =>
      if a = e.node ∨ [e.node, a].Sublist (Heap.addrs (s.cellsOf t)) then some e.message else none
  | .advancing t walker message =>
      if [walker, a].Sublist (Heap.addrs (s.cellsOf t)) then some message else none
  | .idle | .finished _ _ | .dangling => none

/-- The main thread neither removes the node at which a walk stands, nor this node, and it does
not close this connection. -/
def KeepsSubscriber (a : Addr) (socketPtr : SocketPtr) (s : Delivery ι) (l : DeliveryAction ι) :
    Prop :=
  KeepsWalker s l ∧ (∀ i p, l = .remove i p → s.removedNode i p ≠ some a) ∧ l ≠ .close socketPtr

instance [DecidableEq ι] (a : Addr) (socketPtr : SocketPtr) (s : Delivery ι)
    (l : DeliveryAction ι) : Decidable (KeepsSubscriber a socketPtr s l) :=
  match l with
  | .remove i p =>
      decidable_of_iff (KeepsWalker s (.remove i p) ∧ s.removedNode i p ≠ some a)
        (by simp [KeepsSubscriber])
  | .close p => decidable_of_iff (p ≠ socketPtr) (by simp [KeepsSubscriber, KeepsWalker])
  | .accept .. | .add .. | .start .. | .send | .advance =>
      isTrue (by simp [KeepsSubscriber, KeepsWalker])

theorem startedOn_append [DecidableEq ι] (t : ι) (events events' : List (WalkEvent ι)) :
    startedOn t (events ++ events') = startedOn t events ++ startedOn t events' :=
  List.filterMap_append

theorem sentTo_append (a : Addr) (events events' : List (WalkEvent ι)) :
    sentTo a (events ++ events') = sentTo a events ++ sentTo a events' :=
  List.filterMap_append

/-! ## What a step does to the cells -/

/-- The steps of the main thread and the walk, seen at the cells of the lists. -/
inductive DeliveryMoves [DecidableEq ι] (s : Delivery ι) : DeliveryAction ι → Delivery ι → Prop
  /-- a cell for a socket is written -/
  | cells {l : DeliveryAction ι} {s' : Delivery ι} (socketPtr : SocketPtr) (socket : Socket)
      (hlabel : l = .close socketPtr ∨ l = .accept socketPtr socket ∧ s.cells socketPtr = none)
      (hwalk : s'.walk = s.walk) (hlists : s'.cellsOf = s.cellsOf)
      (hcells : s'.cells = Function.update s.cells socketPtr (some socket))
      (hlog : walkEvents s l = []) : DeliveryMoves s l s'
  | add {i : ι} {socketPtr : SocketPtr} {node : Addr} {s' : Delivery ι}
      (hfresh : s.nodes.read node = none) (hwalk : s'.walk = s.walk) (hcells : s'.cells = s.cells)
      (hlists : s'.cellsOf =
        Function.update s.cellsOf i ((node, socketPtr) :: s.cellsOf i)) :
      DeliveryMoves s (.add i socketPtr node) s'
  | remove {i : ι} {socketPtr : SocketPtr} {b : Addr} {s' : Delivery ι}
      (hremoved : s.removedNode i socketPtr = some b)
      (hwalk : s'.walk = s.walk) (hcells : s'.cells = s.cells)
      (hlists : s'.cellsOf =
        Function.update s.cellsOf i ((s.cellsOf i).filter fun c => c.1 ≠ b)) :
      DeliveryMoves s (.remove i socketPtr) s'
  /-- there is no such node -/
  | removeNothing {i : ι} {socketPtr : SocketPtr} {s' : Delivery ι}
      (hwalk : s'.walk = s.walk) (hcells : s'.cells = s.cells) (hlists : s'.cellsOf = s.cellsOf) :
      DeliveryMoves s (.remove i socketPtr) s'
  | start {t : ι} {message : Bytes} (hpc : s.walk = .idle ∨ ∃ t m, s.walk = .finished t m) :
      DeliveryMoves s (.start t message) (s.startWalk t message)
  | send {t : ι} {e : Sending} (hpc : s.walk = .sending t e) :
      DeliveryMoves s .send
        { s with walk := .advancing t e.node e.message, sent := s.sent ++ [e] }
  | advance {t : ι} {walker : Addr} {message : Bytes} {node : Node SocketPtr}
      (hpc : s.walk = .advancing t walker message) (hread : s.nodes.read walker = some node) :
      DeliveryMoves s .advance { s with walk := s.lookAt t message node.next }

/-- The cells are those that the lists hold. -/
theorem cellsOf_eq {s : Delivery ι} {cs : ι → List (Addr × SocketPtr)}
    (hl : ListsHold s.nodes s.lists cs) : s.cellsOf = cs := by
  funext i
  have hchain := hl.family.chain i
  exact hchain.cells_eq hchain.length_le_bound

/-- The steps are these and no others. -/
theorem deliveryStep_moves [DecidableEq ι] {s s' : Delivery ι} (hs : WalkInv s)
    {l : DeliveryAction ι} (hstep : deliveryStep s l = some s') : DeliveryMoves s l s' := by
  rcases hs.lists with ⟨cs, hl, halloc, hfits⟩
  have hcs := cellsOf_eq hl
  cases l with
  | accept socketPtr socket =>
      simp only [deliveryStep] at hstep
      split at hstep
      · next hfresh =>
        rw [← Option.some.inj hstep]
        exact .cells socketPtr socket (.inr ⟨rfl, hfresh⟩) rfl rfl rfl rfl
      · contradiction
  | close socketPtr =>
      simp only [deliveryStep] at hstep
      split at hstep
      · contradiction
      · rw [← Option.some.inj hstep]
        exact .cells socketPtr invalidSocket (.inl rfl) rfl rfl rfl rfl
  | add i socketPtr node =>
      simp only [deliveryStep] at hstep
      split at hstep
      · next hcond =>
        rw [← Option.some.inj hstep]
        refine .add hcond.1 rfl rfl ?_
        rw [hcs]
        exact cellsOf_eq (addToStart_holds hl i socketPtr node hcond.1)
      · contradiction
  | remove i socketPtr =>
      by_cases hmem : socketPtr ∈ Heap.vals (cs i)
      · rcases exists_first hmem with ⟨pre, b, post, hsplit, hfirst⟩
        rcases freeNode_found hl hsplit hfirst with ⟨nodes', l', hfree, hl', -⟩
        simp only [deliveryStep, hfree, Option.map_some] at hstep
        rw [← Option.some.inj hstep]
        refine .remove (removedNode_eq hl hsplit hfirst) rfl rfl ?_
        have hnodup : (Heap.addrs (cs i)).Nodup := (hl.family.chain i).nodup
        rw [hsplit] at hnodup
        rw [hcs, hsplit, ← Heap.append_eq_filter_ne hnodup]
        exact cellsOf_eq hl'
      · have habsent : ∀ c ∈ cs i, c.2 ≠ socketPtr := by
          rintro c hc rfl
          exact hmem (List.mem_map_of_mem hc)
        simp only [deliveryStep, freeNode_absent hl habsent, Option.map_some,
          Function.update_eq_self] at hstep
        rw [← Option.some.inj hstep]
        exact .removeNothing rfl rfl rfl
  | start t message =>
      simp only [deliveryStep] at hstep
      split at hstep
      · next hpc =>
        rw [← Option.some.inj hstep]
        exact .start (.inl hpc)
      · next t' m hpc =>
        rw [← Option.some.inj hstep]
        exact .start (.inr ⟨t', m, hpc⟩)
      · contradiction
  | send =>
      simp only [deliveryStep] at hstep
      split at hstep
      · next t e hpc =>
        rw [← Option.some.inj hstep]
        exact .send hpc
      · contradiction
  | advance =>
      simp only [deliveryStep] at hstep
      split at hstep
      · next t w message hpc =>
        split at hstep
        · next hread =>
          -- the walk stands at a node of its list
          exact absurd hread (hs.delivered.allocated w (by rw [hpc]; rfl))
        · next node hread =>
          rw [← Option.some.inj hstep]
          exact .advance hpc hread
      · contradiction

/-! ## What is ahead of the walk -/

/-- A step of the main thread leaves the order of the nodes alone. -/
theorem ahead_eq {s s' : Delivery ι} {a : Addr} (hwalk : s'.walk = s.walk)
    (horder : ∀ t w, s.walk.walker = some w →
      ([w, a].Sublist (Heap.addrs (s'.cellsOf t)) ↔ [w, a].Sublist (Heap.addrs (s.cellsOf t)))) :
    s'.ahead a = s.ahead a := by
  unfold Delivery.ahead
  rw [hwalk]
  cases hpc : s.walk with
  | sending t e => simp only [horder t e.node (by rw [hpc]; rfl)]
  | advancing t w message => simp only [horder t w (by rw [hpc]; rfl)]
  | idle | finished | dangling => rfl

/-- The walk has set its pointer to the cells {lit}`rest`, and these are ahead of it now.  If it
stands at a node, it has read the cell of this node. -/
theorem lookAt_ahead {s : Delivery ι} {cs : ι → List (Addr × SocketPtr)}
    (hl : ListsHold s.nodes s.lists cs) (halloc : ∀ i, ∀ c ∈ cs i, s.cells c.2 ≠ none) {t : ι}
    {seen rest : List (Addr × SocketPtr)} (hcs : cs t = seen ++ rest) {next : Option Addr}
    (hnext : s.nodes.Chain rest next) (message : Bytes) (s' : Delivery ι)
    (hwalk : s'.walk = s.lookAt t message next) (hlists : s'.cellsOf = s.cellsOf) (a : Addr) :
    s'.ahead a = (if a ∈ Heap.addrs rest then some message else none) ∧
      ∀ t' e, s'.walk = .sending t' e →
        (e.node, e.socketPtr) ∈ cs t ∧ s.cells e.socketPtr = some e.socket ∧
          e.message = message := by
  have hchain := hl.family.chain t
  cases rest with
  | nil =>
      have hnull : next = none := hnext
      rw [hnull, Delivery.lookAt] at hwalk
      constructor
      · simp [Delivery.ahead, hwalk]
      · intro t' e hpc
        rw [hwalk] at hpc
        contradiction
  | cons d rest =>
      have hmem : d ∈ cs t := by simp [hcs]
      rcases lookAt_cons hchain hmem (halloc t d hmem) hnext t message with
        ⟨socket, hsocket, hlook⟩
      rw [hlook] at hwalk
      have haddrs : Heap.addrs (cs t) = Heap.addrs seen ++ d.1 :: Heap.addrs rest := by simp [hcs]
      have hnodup := hchain.nodup
      rw [haddrs] at hnodup
      constructor
      · simp only [Delivery.ahead, hwalk, hlists, cellsOf_eq hl, haddrs,
          pair_sublist_iff hnodup, List.map_cons, List.mem_cons]
      · intro t' e hpc
        rw [hwalk, WalkPc.sending.injEq] at hpc
        rw [← hpc.2]
        exact ⟨hmem, hsocket, rfl⟩

/-- The pointer in a node leads to the cells behind it. -/
theorem chain_behind {nodes : Heap SocketPtr} {seen rest : List (Addr × SocketPtr)} {w : Addr}
    {q : SocketPtr} {head : Option Addr} {node : Node SocketPtr}
    (hchain : nodes.Chain (seen ++ (w, q) :: rest) head) (hread : nodes.read w = some node) :
    nodes.Chain rest node.next := by
  rcases (Heap.seg_append _ _ _ _ _).mp hchain with ⟨m, -, -, nx, hread', hrest⟩
  rw [hread, Option.some.injEq] at hread'
  rw [hread']
  exact hrest

/-- The list of a walk and the node at which it stands. -/
def WalkPc.place : WalkPc ι → Option (ι × Addr)
  | .sending t e => some (t, e.node)
  | .advancing t walker _ => some (t, walker)
  | .idle | .finished _ _ | .dangling => none

/-- The node at which the walk stands is in its list. -/
theorem WalkInv.position {s : Delivery ι} (hs : WalkInv s) {t : ι} {w : Addr}
    (hplace : s.walk.place = some (t, w)) :
    ∃ seen q rest, s.cellsOf t = seen ++ (w, q) :: rest := by
  rcases hs.lists with ⟨cs, hl, -, hfits⟩
  unfold WalkFits at hfits
  rw [cellsOf_eq hl]
  cases hpc : s.walk with
  | sending t' e =>
      rw [hpc] at hfits hplace
      rw [WalkPc.place, Option.some.injEq, Prod.mk.injEq] at hplace
      rcases hfits.position with ⟨seen, q, rest, hcs, -⟩
      rw [← hplace.1, ← hplace.2]
      exact ⟨seen, q, rest, hcs⟩
  | advancing t' w' message =>
      rw [hpc] at hfits hplace
      rw [WalkPc.place, Option.some.injEq, Prod.mk.injEq] at hplace
      rcases hfits.position with ⟨seen, q, rest, hcs, -⟩
      rw [← hplace.1, ← hplace.2]
      exact ⟨seen, q, rest, hcs⟩
  | idle | finished | dangling =>
      rw [hpc] at hplace
      contradiction

/-! ## A node from its subscription on -/

variable [DecidableEq ι]

/-- The node {lit}`a` is in list {lit}`t`, for the connection {lit}`socket` in cell {lit}`p`.  What
has been sent to it, and what the current walk will still send to it, are the messages of the
walks through this list, each once and in their order. -/
structure Follows (t : ι) (a : Addr) (p : SocketPtr) (socket : Socket) (s : Delivery ι)
    (events : List (WalkEvent ι)) : Prop where
  member : (a, p) ∈ s.cellsOf t
  cell : s.cells p = some socket
  current : ∀ t' e, s.walk = .sending t' e → e.node = a → e = ⟨a, p, socket, e.message⟩
  sent : sentTo a events ++ (s.ahead a).toList.map (⟨a, p, socket, ·⟩) =
    (startedOn t events).map (⟨a, p, socket, ·⟩)

/-- The walk has looked at a node. -/
theorem current_of_lookAt {s : Delivery ι} {cs : ι → List (Addr × SocketPtr)}
    (hl : ListsHold s.nodes s.lists cs) {t t' : ι} {a : Addr} {p : SocketPtr} {socket : Socket}
    (hmember : (a, p) ∈ cs t) (hcell : s.cells p = some socket) {e : Sending}
    (he : (e.node, e.socketPtr) ∈ cs t') (hsocket : s.cells e.socketPtr = some e.socket)
    (hnode : e.node = a) : e = ⟨a, p, socket, e.message⟩ := by
  have ht : t' = t := by
    by_contra hne
    apply hl.family.disjoint t' t hne a
    · rw [← hnode]
      exact List.mem_map_of_mem he
    · exact List.mem_map_of_mem hmember
  rw [ht, hnode] at he
  have hptr : e.socketPtr = p := by
    rcases (hl.family.chain t).read he with ⟨nx, hread⟩
    rcases (hl.family.chain t).read hmember with ⟨nx', hread'⟩
    rw [hread, Option.some.injEq, Node.mk.injEq] at hread'
    exact hread'.1
  rw [hptr, hcell, Option.some.injEq] at hsocket
  cases e
  simp_all

/-- A step of the main thread that keeps the node. -/
theorem Follows.of_main {t : ι} {a : Addr} {p : SocketPtr} {socket : Socket} {s s' : Delivery ι}
    {events : List (WalkEvent ι)} (h : Follows t a p socket s events) (hwalk : s'.walk = s.walk)
    (hmember : (a, p) ∈ s'.cellsOf t) (hcell : s'.cells p = some socket)
    (horder : ∀ t w, s.walk.walker = some w →
      ([w, a].Sublist (Heap.addrs (s'.cellsOf t)) ↔ [w, a].Sublist (Heap.addrs (s.cellsOf t)))) :
    Follows t a p socket s' events where
  member := hmember
  cell := hcell
  current := by
    rw [hwalk]
    exact h.current
  sent := by
    rw [ahead_eq hwalk horder]
    exact h.sent

/-- {lit}`send_to_client` returns. -/
theorem Follows.of_send {t t' : ι} {a : Addr} {p : SocketPtr} {socket : Socket} {s : Delivery ι}
    {events : List (WalkEvent ι)} (hs : WalkInv s) (h : Follows t a p socket s events)
    {e : Sending} (hpc : s.walk = .sending t' e) :
    Follows t a p socket { s with walk := .advancing t' e.node e.message, sent := s.sent ++ [e] }
      (events ++ [.sent e]) := by
  rcases hs.lists with ⟨cs, hl, halloc, hfits⟩
  have hstarted : startedOn t [.sent e] = [] := rfl
  refine ⟨h.member, h.cell, by simp, ?_⟩
  rw [sentTo_append, startedOn_append, hstarted, List.append_nil, ← h.sent]
  by_cases hnode : e.node = a
  · -- the walk leaves the node behind
    have hnodup := (hl.family.chain t').nodup
    have hnot : ¬ [a, a].Sublist (Heap.addrs (s.cellsOf t')) := by
      rw [cellsOf_eq hl]
      intro hsub
      exact absurd (hsub.nodup hnodup) (by simp)
    have hafter : Delivery.ahead { s with
        walk := .advancing t' e.node e.message
        sent := s.sent ++ [e] } a = none := by
      simp only [Delivery.ahead, hnode]
      exact if_neg hnot
    have hbefore : s.ahead a = some e.message := by simp [Delivery.ahead, hpc, hnode]
    have hlogged : sentTo a ([.sent e] : List (WalkEvent ι)) = [e] := by simp [sentTo, hnode]
    rw [hafter, hbefore, hlogged, h.current t' e hpc hnode]
    simp
  · have hafter : Delivery.ahead { s with
        walk := .advancing t' e.node e.message
        sent := s.sent ++ [e] } a = s.ahead a := by
      have hne : ¬ a = e.node := fun heq => hnode heq.symm
      simp only [Delivery.ahead, hpc, hne, false_or]
      rfl
    have hlogged : sentTo a ([.sent e] : List (WalkEvent ι)) = [] := by simp [sentTo, hnode]
    rw [hafter, hlogged, List.append_nil]

/-- The walk enters the critical section again. -/
theorem Follows.of_advance {t t' : ι} {a w : Addr} {p : SocketPtr} {socket : Socket}
    {s : Delivery ι} {events : List (WalkEvent ι)} (hs : WalkInv s)
    (h : Follows t a p socket s events) {message : Bytes} {node : Node SocketPtr}
    (hpc : s.walk = .advancing t' w message) (hread : s.nodes.read w = some node) :
    Follows t a p socket { s with walk := s.lookAt t' message node.next } events := by
  have hplace : s.walk.place = some (t', w) := by rw [hpc]; rfl
  rcases hs.position hplace with ⟨seen, q, rest, hsplit⟩
  rcases hs.lists with ⟨cs, hl, halloc, -⟩
  have hmember := h.member
  rw [cellsOf_eq hl] at hsplit hmember
  have hchain := hl.family.chain t'
  have hrest := chain_behind (hsplit ▸ hchain) hread
  have hsplit' : cs t' = (seen ++ [(w, q)]) ++ rest := by simp [hsplit]
  rcases lookAt_ahead hl halloc hsplit' hrest message
    { s with walk := s.lookAt t' message node.next } rfl rfl a with ⟨hahead, hlook⟩
  refine ⟨h.member, h.cell, ?_, ?_⟩
  · intro t'' e hpc' hnode
    rcases hlook t'' e hpc' with ⟨he, hsocket, -⟩
    exact current_of_lookAt hl hmember h.cell he hsocket hnode
  · have hnodup := hchain.nodup
    have haddrs : Heap.addrs (cs t') = Heap.addrs seen ++ w :: Heap.addrs rest := by simp [hsplit]
    rw [haddrs] at hnodup
    have hbefore : s.ahead a = if a ∈ Heap.addrs rest then some message else none := by
      simp only [Delivery.ahead, hpc, cellsOf_eq hl, haddrs, pair_sublist_iff hnodup]
    rw [hahead, ← hbefore]
    exact h.sent

/-- The consumer begins to walk. -/
theorem Follows.of_start {t t' : ι} {a : Addr} {p : SocketPtr} {socket : Socket} {s : Delivery ι}
    {events : List (WalkEvent ι)} (hs : WalkInv s) (h : Follows t a p socket s events)
    (hpc : s.walk = .idle ∨ ∃ t m, s.walk = .finished t m) (message : Bytes) :
    Follows t a p socket (s.startWalk t' message) (events ++ [.started t' message]) := by
  rcases hs.lists with ⟨cs, hl, halloc, -⟩
  have hmember := h.member
  rw [cellsOf_eq hl] at hmember
  rcases lookAt_ahead hl halloc (List.nil_append (cs t')).symm (hl.family.chain t') message
    (s.startWalk t' message) rfl rfl a with ⟨hahead, hlook⟩
  refine ⟨h.member, h.cell, ?_, ?_⟩
  · intro t'' e hpc' hnode
    rcases hlook t'' e hpc' with ⟨he, hsocket, -⟩
    exact current_of_lookAt hl hmember h.cell he hsocket hnode
  · have hbefore : s.ahead a = none := by
      rcases hpc with hpc | ⟨t'', m, hpc⟩ <;> simp [Delivery.ahead, hpc]
    have hsent := h.sent
    rw [hbefore, Option.toList_none, List.map_nil, List.append_nil] at hsent
    have hlogged : sentTo a [.started t' message] = [] := rfl
    rw [sentTo_append, startedOn_append, hlogged, List.append_nil, List.map_append, hsent, hahead]
    congr 1
    by_cases ht : t' = t
    · subst ht
      have hin : a ∈ Heap.addrs (cs t') := List.mem_map_of_mem hmember
      simp [startedOn, hin]
    · have hout : a ∉ Heap.addrs (cs t') :=
        hl.family.disjoint t t' (fun heq => ht heq.symm) a (List.mem_map_of_mem hmember)
      simp [startedOn, hout, ht]

/-- A step keeps what is said about a node that stays. -/
theorem Follows.step {t : ι} {a : Addr} {p : SocketPtr} {socket : Socket} {s s' : Delivery ι}
    {events : List (WalkEvent ι)} (hs : WalkInv s) (h : Follows t a p socket s events)
    {l : DeliveryAction ι} (hkeep : KeepsSubscriber a p s l) (hstep : deliveryStep s l = some s') :
    Follows t a p socket s' (events ++ walkEvents s l) := by
  rcases hkeep with ⟨hwalker, hnode, hopen⟩
  cases deliveryStep_moves hs hstep with
  | cells q v hlabel hwalk hlists hcells hlog =>
      have hne : p ≠ q := by
        rintro rfl
        rcases hlabel with hclose | ⟨-, hnone⟩
        · exact hopen hclose
        · rw [h.cell] at hnone
          contradiction
      rw [hlog, List.append_nil]
      apply h.of_main hwalk
      · rw [hlists]
        exact h.member
      · rw [hcells, Function.update_of_ne hne]
        exact h.cell
      · intro t' w _
        rw [hlists]
  | @add i q node _ hfresh hwalk hcells hlists =>
      rw [walkEvents, List.append_nil]
      apply h.of_main hwalk
      · rw [hlists]
        by_cases hi : t = i
        · rw [hi, Function.update_self, ← hi]
          exact List.mem_cons_of_mem _ h.member
        · rw [Function.update_of_ne hi]
          exact h.member
      · rw [hcells]
        exact h.cell
      · intro t' w hw
        -- the walk stands at an allocated node
        have hne : w ≠ node := by
          rintro rfl
          exact hs.delivered.allocated w hw hfresh
        rw [hlists]
        by_cases hi : t' = i
        · rw [hi, Function.update_self, Heap.addrs, List.map_cons, pair_sublist_cons_iff hne]
        · rw [Function.update_of_ne hi]
  | @remove i q b _ hremoved hwalk hcells hlists =>
      have hab : a ≠ b := by
        rintro rfl
        exact hnode i q rfl hremoved
      rw [walkEvents, List.append_nil]
      apply h.of_main hwalk
      · rw [hlists]
        by_cases hi : t = i
        · rw [hi, Function.update_self, ← hi]
          exact List.mem_filter.mpr ⟨h.member, by simpa using hab⟩
        · rw [Function.update_of_ne hi]
          exact h.member
      · rw [hcells]
        exact h.cell
      · intro t' w hw
        have hwb : w ≠ b := by
          rintro rfl
          exact hwalker w hw hremoved
        rw [hlists]
        by_cases hi : t' = i
        · have hfilter : Heap.addrs ((s.cellsOf i).filter fun c => c.1 ≠ b) =
              (Heap.addrs (s.cellsOf i)).filter fun x => x ≠ b := by
            rw [Heap.addrs, Heap.addrs, List.filter_map]
            rfl
          rw [hi, Function.update_self, hfilter]
          exact pair_sublist_filter_iff (by simpa using hwb) (by simpa using hab)
        · rw [Function.update_of_ne hi]
  | removeNothing hwalk hcells hlists =>
      rw [walkEvents, List.append_nil]
      apply h.of_main hwalk
      · rw [hlists]
        exact h.member
      · rw [hcells]
        exact h.cell
      · intro t' w _
        rw [hlists]
  | @start t' message hpc => exact h.of_start hs hpc message
  | @send t' e hpc =>
      rw [walkEvents, hpc]
      exact h.of_send hs hpc
  | @advance t' w message node hpc hread =>
      rw [walkEvents, List.append_nil]
      exact h.of_advance hs hpc hread

/-- The main thread has just linked the node in. -/
theorem follows_add {s s' : Delivery ι} (hs : WalkInv s) {t : ι} {a : Addr} {p : SocketPtr}
    {socket : Socket} (hcell : s.cells p = some socket)
    (hstep : deliveryStep s (.add t p a) = some s') : Follows t a p socket s' [] := by
  cases deliveryStep_moves hs hstep with
  | cells q v hlabel =>
      rcases hlabel with hclose | ⟨haccept, -⟩ <;> contradiction
  | add hfresh hwalk hcells hlists =>
      have hcurrent : ∀ w, s.walk.walker = some w → w ≠ a := by
        rintro w hw rfl
        exact hs.delivered.allocated w hw hfresh
      -- the node is in front of its list, and the walk is behind it
      have hbehind : ∀ t' w, s.walk.walker = some w →
          ¬ [w, a].Sublist (Heap.addrs (s'.cellsOf t')) := by
        intro t' w hw hsub
        rcases hs.lists with ⟨cs, hl, -, -⟩
        have hold : [w, a].Sublist (Heap.addrs (cs t')) := by
          rw [hlists, cellsOf_eq hl] at hsub
          by_cases ht : t' = t
          · rw [ht, Function.update_self, Heap.addrs, List.map_cons,
              pair_sublist_cons_iff (hcurrent w hw)] at hsub
            rw [ht]
            exact hsub
          · rwa [Function.update_of_ne ht] at hsub
        exact (hl.family.chain t').not_mem_of_fresh hfresh (hold.subset (by simp))
      refine ⟨by simp [hlists], by rw [hcells, hcell], ?_, ?_⟩
      · intro t' e hpc hnode
        rw [hwalk] at hpc
        exact absurd hnode (hcurrent e.node (by rw [hpc]; rfl))
      · have hahead : s'.ahead a = none := by
          unfold Delivery.ahead
          rw [hwalk]
          cases hpc : s.walk with
          | sending t' e =>
              have hw : s.walk.walker = some e.node := by rw [hpc]; rfl
              have hne : ¬ a = e.node := fun heq => hcurrent e.node hw heq.symm
              simp only [hne, hbehind t' e.node hw, or_self, if_false]
          | advancing t' w message =>
              have hw : s.walk.walker = some w := by rw [hpc]; rfl
              simp only [hbehind t' w hw, if_false]
          | idle | finished | dangling => rfl
        rw [hahead]
        rfl

/-- From its subscription on, the node is sent every message of a walk through its list exactly
once and in the order of the walks. -/
theorem follows_of_logs {s₀ s₁ s : Delivery ι} (hs₀ : WalkInv s₀) {t : ι} {a : Addr}
    {p : SocketPtr} {socket : Socket} (hcell : s₀.cells p = some socket)
    (hadd : deliveryStep s₀ (.add t p a) = some s₁) {events : List (WalkEvent ι)}
    (hlogs : (deliverySystem ι).Logs (KeepsSubscriber a p) walkEvents s₁ events s) :
    WalkInv s ∧ Follows t a p socket s events := by
  apply System.Logs.invariant (fun s events => WalkInv s ∧ Follows t a p socket s events)
    ?_ ?_ hlogs
  · have hkeep : KeepsWalker s₀ (.add t p a) := trivial
    exact ⟨deliveryStep_walkInv hs₀ hkeep hadd, follows_add hs₀ hcell hadd⟩
  · intro s l s' events hinv hkeep hstep
    exact ⟨deliveryStep_walkInv hinv.1 hkeep.1 hstep, hinv.2.step hinv.1 hkeep hstep⟩

end Broker
end PubSub
