import PubSub.Common
import PubSub.Foundations.LinkedStore

/-!
# Socket lists

The subscribers of a topic and the open connections are kept in linked lists of
pointers to {lit}`SOCKET` cells.  A connection is its cell: the cell is allocated
when the connection is accepted and is never freed.  The same cell may occur in
several lists, and more than once in one list.

Main results:

- Structure {lit}`ListsHold`: several socket lists share a node store without
  sharing a node, and their {lit}`size` fields are their lengths.
- Theorem {lit}`addToStart_holds`: {lit}`addToStart` puts a node in front.
- Theorems {lit}`freeNode_found` and {lit}`freeNode_absent`: {lit}`freeNode` removes the
  first node with the given socket pointer, if there is one.
- Theorem {lit}`freeNode_erase`: on the socket pointers it is {lit}`List.erase`.
-/

namespace PubSub
namespace Broker

open Foundations

universe u

/-- The address of a {lit}`SOCKET` cell. -/
abbrev SocketPtr := Addr

/-- {lit}`SUBSCRIBER_LIST_MAX_SIZE`. -/
def subscriberListMaxSize : Nat :=
  99999

/-- {lit}`CONNECTION_SOCKET_LIST_MAX_SIZE`. -/
def connectionSocketListMaxSize : Nat :=
  99999

/-- {lit}`SocketList`.  The nodes are {lit}`Node SocketPtr`, whose payload is the source's
field {lit}`socket_ptr`.  The size is an {lit}`int` in the source and an integer here, so a
list of fewer than {lit}`2^31` nodes is assumed. -/
structure SocketList where
  head : Option Addr
  size : Int
deriving DecidableEq, Repr

/-- {lit}`initialize_socket_list`. -/
def initializeSocketList : SocketList where
  head := none
  size := 0

/-- {lit}`add_to_start`, where {lit}`node` is the address that its {lit}`malloc` returns. -/
def addToStart (h : Heap SocketPtr) (l : SocketList) (socketPtr : SocketPtr) (node : Addr) :
    Heap SocketPtr × SocketList :=
  match l.head with
  | none => (h.write node ⟨socketPtr, none⟩, ⟨some node, l.size + 1⟩)
  | some oldHead => (h.write node ⟨socketPtr, some oldHead⟩, ⟨some node, l.size + 1⟩)

/-- The loop of {lit}`free_node`, which looks at the successor of {lit}`previous`.  The fuel
bounds the number of rounds; the result says whether a node was removed. -/
def freeNodeLoop (socketPtr : SocketPtr) :
    Nat → Heap SocketPtr → Addr → Option (Heap SocketPtr × Bool)
  | 0, _, _ => none
  | fuel + 1, h, previous =>
      (h.read previous).bind fun prev =>
        match prev.next with
        | none => some (h, false)
        | some walker =>
            (h.read walker).bind fun node =>
              if node.val = socketPtr then
                some ((h.write previous { prev with next := node.next }).free walker, true)
              else freeNodeLoop socketPtr fuel h walker

/-- {lit}`free_node`. -/
def freeNode (h : Heap SocketPtr) (l : SocketList) (socketPtr : SocketPtr) :
    Option (Heap SocketPtr × SocketList × Bool) :=
  match l.head with
  | none => some (h, l, false)
  | some head =>
      (h.read head).bind fun first =>
        if first.val = socketPtr then
          some (h.free head, ⟨first.next, l.size - 1⟩, true)
        else
          (freeNodeLoop socketPtr h.bound h head).map fun (h', removed) =>
            (h', if removed then { l with size := l.size - 1 } else l, removed)

/-! ## The represented lists -/

variable {ι : Type u}

/-- The socket lists {lit}`l i` share the store {lit}`h` and consist of the cells {lit}`cs i`. -/
structure ListsHold (h : Heap SocketPtr) (l : ι → SocketList)
    (cs : ι → List (Addr × SocketPtr)) : Prop where
  family : Family h (fun i => (l i).head) cs
  size_eq : ∀ i, (l i).size = (cs i).length

/-- Freshly initialised lists are empty. -/
theorem initializeSocketList_holds :
    ListsHold (Heap.empty : Heap SocketPtr) (fun _ : ι => initializeSocketList) fun _ => [] where
  family := Family.empty
  size_eq := fun _ => rfl

/-! ## The loop of {lit}`free_node` -/

/-- The loop unlinks the first node, behind the one it starts at, that has the
socket pointer. -/
theorem freeNodeLoop_found {h : Heap SocketPtr} {socketPtr : SocketPtr}
    {pre post : List (Addr × SocketPtr)} {b a x : Addr} {w : SocketPtr} {nx : Option Addr}
    (fuel : Nat) (hseg : h.Chain (pre ++ (b, w) :: (a, socketPtr) :: post) (some x))
    (hfirst : ∀ c ∈ (pre ++ [(b, w)]).tail, c.2 ≠ socketPtr)
    (hread : h.read a = some ⟨socketPtr, nx⟩) (hfuel : pre.length < fuel) :
    freeNodeLoop socketPtr fuel h x = some ((h.write b ⟨w, nx⟩).free a, true) := by
  induction pre generalizing x fuel with
  | nil =>
      cases fuel with
      | zero => exact absurd hfuel (by simp)
      | succ fuel =>
          rcases hseg with ⟨hx, nb, hb, hnb, -⟩
          rw [Option.some.injEq] at hx
          subst hx
          simp only [freeNodeLoop, hb, hnb, Option.bind_some, hread, if_true]
  | cons c pre ih =>
      cases fuel with
      | zero => exact absurd hfuel (by simp)
      | succ fuel =>
          rcases hseg with ⟨hx, nc, hc, htail⟩
          rw [Option.some.injEq] at hx
          subst hx
          have hrest : h.Chain (pre ++ (b, w) :: (a, socketPtr) :: post) nc := htail
          -- the next node is the first one of the remaining prefix
          have hnext : ∃ d rest, pre ++ (b, w) :: (a, socketPtr) :: post = d :: rest ∧
              d ∈ pre ++ [(b, w)] := by
            cases pre with
            | nil => exact ⟨(b, w), (a, socketPtr) :: post, rfl, by simp⟩
            | cons d pre => exact ⟨d, _, rfl, by simp⟩
          rcases hnext with ⟨d, rest, hd, hmem⟩
          have hrest' := hrest
          rw [hd] at hrest'
          rcases hrest' with ⟨hnc, nd, hdread, -⟩
          have hval : d.2 ≠ socketPtr := hfirst d hmem
          rw [hnc] at hrest
          simp only [freeNodeLoop, hc, hnc, Option.bind_some, hdread, hval, if_false]
          refine ih fuel hrest ?_ (by simpa using hfuel)
          intro e he
          exact hfirst e (List.mem_of_mem_tail he)

/-- The loop runs to the end of a list that does not have the socket pointer. -/
theorem freeNodeLoop_absent {h : Heap SocketPtr} {socketPtr : SocketPtr}
    {c : Addr × SocketPtr} {cs : List (Addr × SocketPtr)} (fuel : Nat)
    (hseg : h.Chain (c :: cs) (some c.1)) (habsent : ∀ d ∈ cs, d.2 ≠ socketPtr)
    (hfuel : cs.length < fuel) : freeNodeLoop socketPtr fuel h c.1 = some (h, false) := by
  induction cs generalizing c fuel with
  | nil =>
      cases fuel with
      | zero => exact absurd hfuel (by simp)
      | succ fuel =>
          rcases hseg with ⟨-, nc, hc, hnc⟩
          have hnone : nc = none := hnc
          simp only [freeNodeLoop, hc, hnone, Option.bind_some]
  | cons d cs ih =>
      cases fuel with
      | zero => exact absurd hfuel (by simp)
      | succ fuel =>
          rcases hseg with ⟨-, nc, hc, hrest⟩
          have hnc : nc = some d.1 := hrest.1
          rw [hnc] at hrest
          rcases hrest.2 with ⟨nd, hd, -⟩
          have hval : d.2 ≠ socketPtr := habsent d (by simp)
          simp only [freeNodeLoop, hc, hnc, Option.bind_some, hd, hval, if_false]
          have habsent' := fun e he => habsent e (List.mem_cons_of_mem _ he)
          exact ih fuel hrest habsent' (by simpa using hfuel)

/-! ## The operations on the represented lists -/

variable {h : Heap SocketPtr} {l : ι → SocketList} {cs : ι → List (Addr × SocketPtr)}

/-- {lit}`freeNode` leaves a list alone that does not have the socket pointer. -/
theorem freeNode_absent (hl : ListsHold h l cs) {i : ι} {socketPtr : SocketPtr}
    (habsent : ∀ c ∈ cs i, c.2 ≠ socketPtr) :
    freeNode h (l i) socketPtr = some (h, l i, false) := by
  have hchain := hl.family.chain i
  cases hcs : cs i with
  | nil =>
      rw [hcs] at hchain
      have hhead : (l i).head = none := hchain
      simp only [freeNode, hhead]
  | cons c rest =>
      rw [hcs] at hchain habsent
      have hhead : (l i).head = some c.1 := hchain.1
      rcases hchain.2 with ⟨nc, hread, -⟩
      have hval : c.2 ≠ socketPtr := habsent c (by simp)
      have hchain' : h.Chain (c :: rest) (some c.1) := hhead ▸ hchain
      have hlength := hchain'.length_le_bound
      have hloop := freeNodeLoop_absent h.bound hchain'
        (fun d hd => habsent d (List.mem_cons_of_mem _ hd)) (by simp at hlength; omega)
      simp only [freeNode, hhead, hread, Option.bind_some, hval, if_false, hloop,
        Option.map_some, Bool.false_eq_true]

variable [DecidableEq ι]

private theorem update_listHead (l : ι → SocketList) (i : ι) (l' : SocketList) :
    (fun j => (Function.update l i l' j).head) =
      Function.update (fun j => (l j).head) i l'.head := by
  funext j
  by_cases hj : j = i
  · subst j
    simp
  · simp [Function.update_of_ne hj]

/-- Whatever was done to list {lit}`i`, it suffices to know its new cells and size. -/
theorem ListsHold.of_family (hl : ListsHold h l cs) {h' : Heap SocketPtr} {i : ι}
    {l' : SocketList} {cs' : List (Addr × SocketPtr)}
    (hfam : Family h' (Function.update (fun j => (l j).head) i l'.head)
      (Function.update cs i cs'))
    (hsize : l'.size = cs'.length) :
    ListsHold h' (Function.update l i l') (Function.update cs i cs') where
  family := by rwa [update_listHead]
  size_eq := by
    intro j
    by_cases hj : j = i
    · subst j
      simpa using hsize
    · rw [Function.update_of_ne hj, Function.update_of_ne hj]
      exact hl.size_eq j

/-- {lit}`addToStart` puts a fresh node in front of list {lit}`i`. -/
theorem addToStart_holds (hl : ListsHold h l cs) (i : ι) (socketPtr : SocketPtr) (node : Addr)
    (hfresh : h.read node = none) :
    ListsHold (addToStart h (l i) socketPtr node).1
      (Function.update l i (addToStart h (l i) socketPtr node).2)
      (Function.update cs i ((node, socketPtr) :: cs i)) := by
  have hfam := hl.family.pushFront i socketPtr hfresh
  have hadd : addToStart h (l i) socketPtr node =
      (h.write node ⟨socketPtr, (l i).head⟩, ⟨some node, (l i).size + 1⟩) := by
    unfold addToStart
    cases (l i).head <;> rfl
  rw [hadd]
  apply hl.of_family hfam
  simp [hl.size_eq i]

/-- {lit}`freeNode` removes the first node with the socket pointer. -/
theorem freeNode_found (hl : ListsHold h l cs) {i : ι} {pre post : List (Addr × SocketPtr)}
    {a : Addr} {socketPtr : SocketPtr} (hcs : cs i = pre ++ (a, socketPtr) :: post)
    (hfirst : ∀ c ∈ pre, c.2 ≠ socketPtr) :
    ∃ h' l', freeNode h (l i) socketPtr = some (h', l', true) ∧
      ListsHold h' (Function.update l i l') (Function.update cs i (pre ++ post)) ∧
      h'.read a = none := by
  have hsize := hl.size_eq i
  have hchain := hl.family.chain i
  rw [hcs] at hchain hsize
  rcases List.eq_nil_or_concat pre with rfl | ⟨pre', c, rfl⟩
  · rcases hl.family.popFront hcs with ⟨hhead, nx, hread, hfam⟩
    have hhead' : (l i).head = some a := hhead
    refine ⟨h.free a, ⟨nx, (l i).size - 1⟩, ?_, hl.of_family hfam ?_, Heap.read_free_self h a⟩
    · simp only [freeNode, hhead', hread, Option.bind_some, if_true]
    · simp [hsize]
  · rcases c with ⟨b, w⟩
    rw [List.concat_eq_append] at hcs hfirst hchain hsize ⊢
    have hcs' : cs i = pre' ++ (b, w) :: (a, socketPtr) :: post := by simp [hcs]
    rcases hl.family.unlink hcs' with ⟨-, nx, hread, hfam⟩
    have hchain' : h.Chain (pre' ++ (b, w) :: (a, socketPtr) :: post) (l i).head := by
      simpa using hchain
    -- the first node of the list is not the one to remove
    have hhead : ∃ d, (l i).head = some d.1 ∧ (∃ nd, h.read d.1 = some ⟨d.2, nd⟩) ∧
        d ∈ pre' ++ [(b, w)] := by
      cases pre' with
      | nil => exact ⟨(b, w), hchain'.1, hchain'.2.imp fun _ hd => hd.1, by simp⟩
      | cons d pre' => exact ⟨d, hchain'.1, hchain'.2.imp fun _ hd => hd.1, by simp⟩
    rcases hhead with ⟨d, hd, ⟨nd, hdread⟩, hmem⟩
    have hval : d.2 ≠ socketPtr := hfirst d hmem
    rw [hd] at hchain'
    have hlength := hchain'.length_le_bound
    have hloop := freeNodeLoop_found h.bound hchain'
      (fun e he => hfirst e (List.mem_of_mem_tail he)) hread (by simp at hlength; omega)
    refine ⟨(h.write b ⟨w, nx⟩).free a, { l i with size := (l i).size - 1 }, ?_, hl.of_family ?_ ?_,
      Heap.read_free_self _ a⟩
    · simp only [freeNode, hd, hdread, Option.bind_some, hval, if_false, hloop,
        Option.map_some, if_true]
    · have hself : Function.update (fun j => (l j).head) i (l i).head = fun j => (l j).head :=
        Function.update_eq_self i fun j => (l j).head
      rw [hself]
      simpa using hfam
    · simp [hsize]
      omega

/-- A socket pointer that occurs in a list of cells has a first occurrence. -/
theorem exists_first {ds : List (Addr × SocketPtr)} {socketPtr : SocketPtr}
    (hmem : socketPtr ∈ Heap.vals ds) :
    ∃ pre a post, ds = pre ++ (a, socketPtr) :: post ∧ ∀ c ∈ pre, c.2 ≠ socketPtr := by
  rcases List.exists_erase_eq hmem with ⟨us, vs, hus, hvals, -⟩
  rcases List.map_eq_append_iff.mp hvals with ⟨pre, rest, hds, hpre, hrest⟩
  rcases List.map_eq_cons_iff.mp hrest with ⟨⟨a, v⟩, post, rfl, hval, -⟩
  have hv : v = socketPtr := hval
  subst hv
  refine ⟨pre, a, post, hds, ?_⟩
  rintro c hc rfl
  exact hus (hpre ▸ List.mem_map_of_mem hc)

/-- Removing the first node with a socket pointer erases it from the socket pointers. -/
theorem erase_vals {ds pre post : List (Addr × SocketPtr)} {a : Addr} {socketPtr : SocketPtr}
    (hds : ds = pre ++ (a, socketPtr) :: post) (hfirst : ∀ c ∈ pre, c.2 ≠ socketPtr) :
    (Heap.vals ds).erase socketPtr = Heap.vals (pre ++ post) := by
  have hnot : socketPtr ∉ Heap.vals pre := by
    rw [Heap.vals, List.mem_map]
    rintro ⟨c, hc, hval⟩
    exact hfirst c hc hval
  have hvals : Heap.vals ds = Heap.vals pre ++ socketPtr :: Heap.vals post := by
    simp [hds]
  rw [hvals, List.erase_append_right _ hnot, List.erase_cons_head]
  exact List.map_append.symm

/-- On the socket pointers of a list, {lit}`freeNode` is {lit}`List.erase`, and it says whether
there was anything to erase. -/
theorem freeNode_erase (hl : ListsHold h l cs) (i : ι) (socketPtr : SocketPtr) :
    ∃ h' l' cs', freeNode h (l i) socketPtr =
        some (h', l', decide (socketPtr ∈ Heap.vals (cs i))) ∧
      ListsHold h' (Function.update l i l') (Function.update cs i cs') ∧
      Heap.vals cs' = (Heap.vals (cs i)).erase socketPtr := by
  by_cases hmem : socketPtr ∈ Heap.vals (cs i)
  · rcases exists_first hmem with ⟨pre, a, post, hcs, hfirst⟩
    rcases freeNode_found hl hcs hfirst with ⟨h', l', hfree, hl', -⟩
    refine ⟨h', l', pre ++ post, ?_, hl', (erase_vals hcs hfirst).symm⟩
    rw [hfree, decide_eq_true hmem]
  · have habsent : ∀ c ∈ cs i, c.2 ≠ socketPtr := by
      rintro c hc rfl
      exact hmem (List.mem_map_of_mem hc)
    refine ⟨h, l i, cs i, ?_, ?_, ?_⟩
    · rw [freeNode_absent hl habsent, decide_eq_false hmem]
    · rwa [Function.update_eq_self, Function.update_eq_self]
    · rw [List.erase_of_not_mem hmem]

end Broker
end PubSub
