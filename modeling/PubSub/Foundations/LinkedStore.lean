import Mathlib.Data.List.Basic
import Mathlib.Data.List.Nodup
import Mathlib.Logic.Function.Basic

/-!
# Linked lists in an explicit node store

A store maps addresses to list nodes; an address that maps to {lit}`none` is
not allocated, so reading it is the model's form of a dangling dereference.
Every store carries a bound on its allocated addresses, which makes the length
of a walk through a list a computable quantity.

Main results:

- Theorems {lit}`Chain.unique` and {lit}`Chain.nodup`: a null-terminated chain
  is determined by its first pointer and never visits an address twice.
- Theorem {lit}`Chain.length_le_bound`: a chain is no longer than its store.
- Structure {lit}`Family`: several lists that share one store without sharing
  a node, with the rules {lit}`Family.pushFront`, {lit}`Family.popFront`,
  {lit}`Family.unlink` and {lit}`Family.pushBack` for changing one of them.
-/

namespace Foundations

universe u v

/-- An address of the store.  The null pointer is {lean}`(none : Option Nat)`. -/
abbrev Addr := Nat

/-- A singly linked list node: a payload and the pointer to the next node. -/
structure Node (α : Type u) where
  val : α
  next : Option Addr
deriving DecidableEq, Repr

/-- A node store.  All allocated addresses lie below {lit}`bound`. -/
structure Heap (α : Type u) where
  read : Addr → Option (Node α)
  bound : Nat
  read_of_bound_le : ∀ a, bound ≤ a → read a = none

namespace Heap

variable {α : Type u}

/-! ## Store operations -/

/-- The store in which nothing is allocated. -/
def empty : Heap α where
  read := fun _ => none
  bound := 0
  read_of_bound_le := fun _ _ => rfl

/-- Allocate {lit}`a` with the given node, or overwrite the node at {lit}`a`. -/
def write (h : Heap α) (a : Addr) (node : Node α) : Heap α where
  read := Function.update h.read a (some node)
  bound := max h.bound (a + 1)
  read_of_bound_le := by
    intro b hb
    have hne : b ≠ a := by omega
    rw [Function.update_of_ne hne]
    exact h.read_of_bound_le b (by omega)

/-- Deallocate the node at {lit}`a`. -/
def free (h : Heap α) (a : Addr) : Heap α where
  read := Function.update h.read a none
  bound := h.bound
  read_of_bound_le := by
    intro b hb
    by_cases hne : b = a
    · rw [hne, Function.update_self]
    · rw [Function.update_of_ne hne]
      exact h.read_of_bound_le b hb

@[simp]
theorem read_write_self (h : Heap α) (a : Addr) (node : Node α) :
    (h.write a node).read a = some node :=
  Function.update_self ..

theorem read_write_of_ne (h : Heap α) {a b : Addr} (node : Node α) (hne : b ≠ a) :
    (h.write a node).read b = h.read b :=
  Function.update_of_ne hne ..

@[simp]
theorem read_free_self (h : Heap α) (a : Addr) : (h.free a).read a = none :=
  Function.update_self ..

theorem read_free_of_ne (h : Heap α) {a b : Addr} (hne : b ≠ a) :
    (h.free a).read b = h.read b :=
  Function.update_of_ne hne ..

/-- An allocated address lies below the bound of its store. -/
theorem lt_bound_of_read {h : Heap α} {a : Addr} {node : Node α}
    (hread : h.read a = some node) : a < h.bound := by
  apply Nat.lt_of_not_le
  intro hle
  rw [h.read_of_bound_le a hle] at hread
  contradiction

/-! ## List segments -/

/-- The addresses of a list of cells. -/
abbrev addrs (cs : List (Addr × α)) : List Addr :=
  cs.map Prod.fst

/-- The payloads of a list of cells. -/
abbrev vals (cs : List (Addr × α)) : List α :=
  cs.map Prod.snd

/-- {lit}`Seg h cs p q`: following the next pointers from {lit}`p` visits exactly
the cells {lit}`cs` and then arrives at {lit}`q`. -/
def Seg (h : Heap α) : List (Addr × α) → Option Addr → Option Addr → Prop
  | [], p, q => p = q
  | (a, v) :: cs, p, q => p = some a ∧ ∃ nx, h.read a = some ⟨v, nx⟩ ∧ Seg h cs nx q

/-- A null-terminated list segment. -/
abbrev Chain (h : Heap α) (cs : List (Addr × α)) (p : Option Addr) : Prop :=
  h.Seg cs p none

@[simp]
theorem seg_nil (h : Heap α) (p q : Option Addr) : h.Seg [] p q ↔ p = q :=
  Iff.rfl

@[simp]
theorem seg_cons (h : Heap α) (c : Addr × α) (cs : List (Addr × α)) (p q : Option Addr) :
    h.Seg (c :: cs) p q ↔
      p = some c.1 ∧ ∃ nx, h.read c.1 = some ⟨c.2, nx⟩ ∧ h.Seg cs nx q :=
  Iff.rfl

/-- Segments compose through the pointer at which they meet. -/
theorem seg_append (h : Heap α) (cs ds : List (Addr × α)) (p q : Option Addr) :
    h.Seg (cs ++ ds) p q ↔ ∃ m, h.Seg cs p m ∧ h.Seg ds m q := by
  induction cs generalizing p with
  | nil => simp
  | cons c cs ih =>
      simp only [List.cons_append, seg_cons, ih]
      constructor
      · rintro ⟨hp, nx, hread, m, hcs, hds⟩
        exact ⟨m, ⟨hp, nx, hread, hcs⟩, hds⟩
      · rintro ⟨m, ⟨hp, nx, hread, hcs⟩, hds⟩
        exact ⟨hp, nx, hread, m, hcs, hds⟩

/-- Frame rule: a segment depends only on the cells that it visits. -/
theorem Seg.frame {h h' : Heap α} {cs : List (Addr × α)} {p q : Option Addr}
    (hseg : h.Seg cs p q) (hframe : ∀ a ∈ addrs cs, h'.read a = h.read a) :
    h'.Seg cs p q := by
  induction cs generalizing p with
  | nil => exact hseg
  | cons c cs ih =>
      rcases hseg with ⟨hp, nx, hread, hrest⟩
      refine ⟨hp, nx, ?_, ih hrest fun a ha => hframe a (List.mem_cons_of_mem _ ha)⟩
      rw [hframe c.1 (by simp), hread]

/-- Every cell of a segment is allocated and holds its payload. -/
theorem Seg.read {h : Heap α} {cs : List (Addr × α)} {p q : Option Addr}
    (hseg : h.Seg cs p q) {c : Addr × α} (hc : c ∈ cs) :
    ∃ nx, h.read c.1 = some ⟨c.2, nx⟩ := by
  induction cs generalizing p with
  | nil => exact absurd hc (by simp)
  | cons d cs ih =>
      rcases hseg with ⟨_, nx, hread, hrest⟩
      rcases List.mem_cons.mp hc with rfl | hc
      · exact ⟨nx, hread⟩
      · exact ih hrest hc

/-- An address of a segment is allocated. -/
theorem Seg.allocated {h : Heap α} {cs : List (Addr × α)} {p q : Option Addr}
    (hseg : h.Seg cs p q) {a : Addr} (ha : a ∈ addrs cs) : h.read a ≠ none := by
  rcases List.mem_map.mp ha with ⟨c, hc, rfl⟩
  rcases hseg.read hc with ⟨nx, hread⟩
  simp [hread]

/-- A fresh address occurs in no segment. -/
theorem Seg.not_mem_of_fresh {h : Heap α} {cs : List (Addr × α)} {p q : Option Addr}
    (hseg : h.Seg cs p q) {a : Addr} (hfresh : h.read a = none) : a ∉ addrs cs :=
  fun ha => hseg.allocated ha hfresh

/-- The first pointer of a chain is the address of its first cell. -/
theorem Chain.head_eq {h : Heap α} {cs : List (Addr × α)} {p : Option Addr}
    (hcs : h.Chain cs p) : p = cs.head?.map Prod.fst := by
  cases cs with
  | nil => exact hcs
  | cons c cs => exact hcs.1

/-- The pointer in a cell of a chain is the address of the next cell. -/
theorem Chain.read_next {h : Heap α} {pre post : List (Addr × α)} {c : Addr × α}
    {p : Option Addr} (hcs : h.Chain (pre ++ c :: post) p) :
    h.read c.1 = some ⟨c.2, post.head?.map Prod.fst⟩ := by
  rcases (h.seg_append pre (c :: post) p none).mp hcs with ⟨m, -, -, nx, hread, hpost⟩
  rw [hread, Chain.head_eq hpost]

/-- A null-terminated chain is determined by its first pointer. -/
theorem Chain.unique {h : Heap α} {cs ds : List (Addr × α)} {p : Option Addr}
    (hcs : h.Chain cs p) (hds : h.Chain ds p) : cs = ds := by
  induction cs generalizing ds p with
  | nil =>
      cases ds with
      | nil => rfl
      | cons d ds =>
          have hp : p = none := hcs
          rw [hp] at hds
          exact absurd hds.1 (by simp)
  | cons c cs ih =>
      rcases hcs with ⟨hp, nx, hread, hrest⟩
      cases ds with
      | nil =>
          have hp' : p = none := hds
          rw [hp'] at hp
          exact absurd hp (by simp)
      | cons d ds =>
          rcases hds with ⟨hp', nx', hread', hrest'⟩
          have haddr : c.1 = d.1 := Option.some.inj (hp.symm.trans hp')
          rw [haddr, hread', Option.some.injEq, Node.mk.injEq] at hread
          rcases hread with ⟨hval, hnext⟩
          rw [hnext] at hrest'
          rw [ih hrest hrest', Prod.ext haddr hval.symm]

/-- A null-terminated chain visits no address twice: from a repeated address
the two remaining walks would have to be the same list. -/
theorem Chain.nodup {h : Heap α} {cs : List (Addr × α)} {p : Option Addr}
    (hcs : h.Chain cs p) : (addrs cs).Nodup := by
  induction cs generalizing p with
  | nil => exact List.nodup_nil
  | cons c cs ih =>
      rcases hcs with ⟨hp, nx, hread, hrest⟩
      rw [addrs, List.map_cons, List.nodup_cons]
      refine ⟨fun hmem => ?_, ih hrest⟩
      rcases List.mem_map.mp hmem with ⟨d, hd, hcd⟩
      rcases List.append_of_mem hd with ⟨pre, post, rfl⟩
      rcases (h.seg_append pre (d :: post) nx none).mp hrest with ⟨m, _, hm, hsuffix⟩
      have hwhole : h.Chain (c :: (pre ++ d :: post)) (some c.1) := ⟨rfl, nx, hread, hrest⟩
      have hsuffix' : h.Chain (d :: post) (some c.1) := by
        rw [hcd] at hm
        exact ⟨congrArg some hcd.symm, hsuffix⟩
      have hlen := congrArg List.length (Chain.unique hwhole hsuffix')
      simp at hlen
      omega

/-- A chain is no longer than the extent of its store. -/
theorem Chain.length_le_bound {h : Heap α} {cs : List (Addr × α)} {p : Option Addr}
    (hcs : h.Chain cs p) : cs.length ≤ h.bound := by
  have hsub : addrs cs ⊆ List.range h.bound := by
    intro a ha
    rw [List.mem_range]
    rcases Option.ne_none_iff_exists'.mp (hcs.allocated ha) with ⟨node, hread⟩
    exact lt_bound_of_read hread
  have hle := (Chain.nodup hcs).length_le_of_subset hsub
  simpa using hle

/-- The cells from a pointer on, as a walk of at most {lit}`fuel` steps finds them. -/
def cells (h : Heap α) : Nat → Option Addr → List (Addr × α)
  | 0, _ => []
  | _ + 1, none => []
  | fuel + 1, some a =>
      match h.read a with
      | none => []
      | some node => (a, node.val) :: cells h fuel node.next

/-- A walk that is long enough finds the whole chain. -/
theorem Chain.cells_eq {h : Heap α} {cs : List (Addr × α)} {p : Option Addr} {fuel : Nat}
    (hcs : h.Chain cs p) (hfuel : cs.length ≤ fuel) : h.cells fuel p = cs := by
  induction cs generalizing p fuel with
  | nil =>
      have hp : p = none := hcs
      rw [hp]
      cases fuel <;> rfl
  | cons c cs ih =>
      rcases hcs with ⟨hp, nx, hread, hrest⟩
      cases fuel with
      | zero => exact absurd hfuel (by simp)
      | succ fuel =>
          have htail : h.cells fuel nx = cs := ih hrest (by simpa using hfuel)
          simp only [hp, cells, hread, htail]

/-- Without the cell at an address, a list of cells is what a filter leaves. -/
theorem append_eq_filter_ne {pre post : List (Addr × α)} {a : Addr} {v : α}
    (hnodup : (addrs (pre ++ (a, v) :: post)).Nodup) :
    pre ++ post = (pre ++ (a, v) :: post).filter fun c => c.1 ≠ a := by
  simp only [addrs, List.map_append, List.map_cons, List.nodup_append, List.nodup_cons,
    List.mem_cons] at hnodup
  rcases hnodup with ⟨-, ⟨hpost, -⟩, hdisj⟩
  have hpreKeep : pre.filter (fun c => c.1 ≠ a) = pre := by
    rw [List.filter_eq_self]
    intro c hc
    simpa using hdisj c.1 (List.mem_map_of_mem hc) a (Or.inl rfl)
  have hpostKeep : post.filter (fun c => c.1 ≠ a) = post := by
    rw [List.filter_eq_self]
    intro c hc
    have hne : c.1 ≠ a := fun heq => hpost (heq ▸ List.mem_map_of_mem hc)
    simpa using hne
  rw [List.filter_append, hpreKeep, List.filter_cons_of_neg (by simp), hpostKeep]

end Heap

/-! ## Disjoint lists in one store -/

/-- The lists {lit}`cs i`, reached from the pointers {lit}`heads i`, live in one
store and share no node. -/
structure Family {ι : Type v} {α : Type u} (h : Heap α) (heads : ι → Option Addr)
    (cs : ι → List (Addr × α)) : Prop where
  chain : ∀ i, h.Chain (cs i) (heads i)
  disjoint : ∀ i j, i ≠ j → ∀ a ∈ Heap.addrs (cs i), a ∉ Heap.addrs (cs j)

namespace Family

open Heap

variable {ι : Type v} {α : Type u}

/-- In the empty store every list is empty. -/
theorem empty : Family (Heap.empty : Heap α) (fun _ : ι => none) fun _ => [] where
  chain := fun _ => rfl
  disjoint := by simp

variable [DecidableEq ι] {h h' : Heap α} {heads : ι → Option Addr}
  {cs : ι → List (Addr × α)}

/-- The rule behind all the following ones: list {lit}`i` is replaced by a chain
of the new store over its own and over fresh addresses, while the cells of the
other lists are left as they are. -/
theorem replace (hfam : Family h heads cs) (i : ι) {p' : Option Addr}
    {cs' : List (Addr × α)} (hchain : h'.Chain cs' p')
    (hframe : ∀ j, j ≠ i → ∀ a ∈ addrs (cs j), h'.read a = h.read a)
    (hfresh : ∀ a ∈ addrs cs', a ∈ addrs (cs i) ∨ h.read a = none) :
    Family h' (Function.update heads i p') (Function.update cs i cs') where
  chain := by
    intro j
    by_cases hj : j = i
    · subst j
      simpa only [Function.update_self] using hchain
    · rw [Function.update_of_ne hj, Function.update_of_ne hj]
      exact (hfam.chain j).frame (hframe j hj)
  disjoint := by
    have hnew : ∀ j, j ≠ i → ∀ a ∈ addrs cs', a ∉ addrs (cs j) := by
      intro j hj a ha
      rcases hfresh a ha with hold | hnone
      · exact hfam.disjoint i j (Ne.symm hj) a hold
      · exact (hfam.chain j).not_mem_of_fresh hnone
    intro j k hjk a ha hak
    by_cases hj : j = i
    · subst j
      rw [Function.update_self] at ha
      rw [Function.update_of_ne (Ne.symm hjk)] at hak
      exact hnew k (Ne.symm hjk) a ha hak
    · rw [Function.update_of_ne hj] at ha
      by_cases hk : k = i
      · subst k
        rw [Function.update_self] at hak
        exact hnew j hj a hak ha
      · rw [Function.update_of_ne hk] at hak
        exact hfam.disjoint j k hjk a ha hak

/-- Link a freshly allocated node in front of list {lit}`i`. -/
theorem pushFront (hfam : Family h heads cs) (i : ι) {a : Addr} (v : α)
    (hfresh : h.read a = none) :
    Family (h.write a ⟨v, heads i⟩) (Function.update heads i (some a))
      (Function.update cs i ((a, v) :: cs i)) := by
  have hkeep : ∀ j, ∀ b ∈ addrs (cs j), (h.write a ⟨v, heads i⟩).read b = h.read b := by
    intro j b hb
    apply read_write_of_ne
    rintro rfl
    exact (hfam.chain j).not_mem_of_fresh hfresh hb
  refine hfam.replace i ?_ (fun j _ => hkeep j) ?_
  · exact ⟨rfl, heads i, read_write_self .., (hfam.chain i).frame (hkeep i)⟩
  · intro b hb
    rcases List.mem_cons.mp hb with rfl | hb
    · exact Or.inr hfresh
    · exact Or.inl hb

/-- Unlink and deallocate the first node of list {lit}`i`. -/
theorem popFront (hfam : Family h heads cs) {i : ι} {a : Addr} {v : α}
    {rest : List (Addr × α)} (hcs : cs i = (a, v) :: rest) :
    heads i = some a ∧ ∃ nx, h.read a = some ⟨v, nx⟩ ∧
      Family (h.free a) (Function.update heads i nx) (Function.update cs i rest) := by
  have hchain := hfam.chain i
  have hnodup := hchain.nodup
  rw [hcs] at hchain hnodup
  rcases hchain with ⟨hhead, nx, hread, hrest⟩
  have ha : a ∉ addrs rest := (List.nodup_cons.mp hnodup).1
  refine ⟨hhead, nx, hread, hfam.replace i ?_ ?_ ?_⟩
  · apply Seg.frame hrest
    intro b hb
    apply read_free_of_ne
    rintro rfl
    exact ha hb
  · intro j hj b hb
    apply read_free_of_ne
    rintro rfl
    exact hfam.disjoint i j (Ne.symm hj) b (by simp [hcs]) hb
  · intro b hb
    left
    rw [hcs]
    exact List.mem_cons_of_mem _ hb

/-- Unlink and deallocate an inner node of list {lit}`i`, given its predecessor. -/
theorem unlink (hfam : Family h heads cs) {i : ι} {pre post : List (Addr × α)}
    {b a : Addr} {w v : α} (hcs : cs i = pre ++ (b, w) :: (a, v) :: post) :
    h.read b = some ⟨w, some a⟩ ∧ ∃ nx, h.read a = some ⟨v, nx⟩ ∧
      Family ((h.write b ⟨w, nx⟩).free a) heads
        (Function.update cs i (pre ++ (b, w) :: post)) := by
  have hchain := hfam.chain i
  have hnodup := hchain.nodup
  rw [hcs] at hchain hnodup
  rcases (h.seg_append _ _ _ _).mp hchain with ⟨m, hpre, hm, nb, hb, hnb, nx, ha, hpost⟩
  have hnb' : nb = some a := hnb
  subst hnb'
  simp only [addrs, List.map_append, List.map_cons, List.nodup_append, List.nodup_cons,
    List.mem_cons, not_or] at hnodup
  rcases hnodup with ⟨-, ⟨⟨hba, hbpost⟩, hapost, -⟩, hdisj⟩
  have hread : ∀ c, c ≠ b → c ≠ a →
      ((h.write b ⟨w, nx⟩).free a).read c = h.read c := by
    intro c hcb hca
    rw [read_free_of_ne _ hca, read_write_of_ne _ _ hcb]
  have hmem : ∀ c ∈ addrs pre, c ≠ b ∧ c ≠ a := by
    intro c hc
    exact ⟨hdisj c hc b (Or.inl rfl), hdisj c hc a (Or.inr (Or.inl rfl))⟩
  refine ⟨hb, nx, ha, ?_⟩
  have hres : Family ((h.write b ⟨w, nx⟩).free a) (Function.update heads i (heads i))
      (Function.update cs i (pre ++ (b, w) :: post)) := by
    refine hfam.replace i ?_ ?_ ?_
    · refine (seg_append _ _ _ _ _).mpr ⟨m, ?_, hm, nx, ?_, ?_⟩
      · exact hpre.frame fun c hc => hread c (hmem c hc).1 (hmem c hc).2
      · rw [read_free_of_ne _ hba, read_write_self]
      · apply Seg.frame hpost
        intro c hc
        apply hread
        · rintro rfl
          exact hbpost hc
        · rintro rfl
          exact hapost hc
    · intro j hj c hc
      apply hread
      · rintro rfl
        exact hfam.disjoint i j (Ne.symm hj) c (by simp [hcs]) hc
      · rintro rfl
        exact hfam.disjoint i j (Ne.symm hj) c (by simp [hcs]) hc
    · intro c hc
      left
      rw [hcs]
      simp only [addrs, List.map_append, List.map_cons, List.mem_append,
        List.mem_cons] at hc ⊢
      tauto
  rwa [Function.update_eq_self] at hres

/-- Link a freshly allocated node behind the last node of list {lit}`i`. -/
theorem pushBack (hfam : Family h heads cs) {i : ι} {pre : List (Addr × α)}
    {z a : Addr} {w : α} (v : α) (hcs : cs i = pre ++ [(z, w)])
    (hfresh : h.read a = none) :
    h.read z = some ⟨w, none⟩ ∧
      Family ((h.write z ⟨w, some a⟩).write a ⟨v, none⟩) heads
        (Function.update cs i (pre ++ [(z, w), (a, v)])) := by
  have hchain := hfam.chain i
  have hnodup := hchain.nodup
  have hnot := fun j => (hfam.chain j).not_mem_of_fresh hfresh
  have hai := hnot i
  rw [hcs] at hchain hnodup hai
  rcases (h.seg_append _ _ _ _).mp hchain with ⟨m, hpre, hm, nz, hz, hnz⟩
  have hnz' : nz = none := hnz
  subst hnz'
  simp only [addrs, List.map_append, List.map_cons, List.map_nil, List.mem_append,
    List.mem_cons, List.not_mem_nil, or_false, not_or] at hai
  rcases hai with ⟨hapre, haz⟩
  have hzpre : z ∉ addrs pre := by
    intro hmem
    simp only [addrs, List.map_append, List.map_cons, List.map_nil] at hnodup
    exact (List.disjoint_of_nodup_append hnodup) hmem (by simp)
  have hread : ∀ c, c ≠ z → c ≠ a →
      ((h.write z ⟨w, some a⟩).write a ⟨v, none⟩).read c = h.read c := by
    intro c hcz hca
    rw [read_write_of_ne _ _ hca, read_write_of_ne _ _ hcz]
  refine ⟨hz, ?_⟩
  have hres : Family ((h.write z ⟨w, some a⟩).write a ⟨v, none⟩)
      (Function.update heads i (heads i))
      (Function.update cs i (pre ++ [(z, w), (a, v)])) := by
    refine hfam.replace i ?_ ?_ ?_
    · refine (seg_append _ _ _ _ _).mpr ⟨m, ?_, hm, some a, ?_, rfl, none, ?_, rfl⟩
      · apply Seg.frame hpre
        intro c hc
        apply hread
        · rintro rfl
          exact hzpre hc
        · rintro rfl
          exact hapre hc
      · rw [read_write_of_ne _ _ (Ne.symm haz), read_write_self]
      · rw [read_write_self]
    · intro j hj c hc
      apply hread
      · rintro rfl
        exact hfam.disjoint i j (Ne.symm hj) c (by simp [hcs]) hc
      · rintro rfl
        exact hnot j hc
    · intro c hc
      simp only [addrs, List.map_append, List.map_cons, List.map_nil, List.mem_append,
        List.mem_cons, List.not_mem_nil, or_false] at hc
      rw [hcs]
      rcases hc with hc | rfl | rfl
      · left
        simp only [addrs, List.map_append, List.mem_append]
        exact Or.inl hc
      · left
        simp
      · exact Or.inr hfresh
  rwa [Function.update_eq_self] at hres

end Family

end Foundations
