import Mathlib.Data.Fintype.Card
import Mathlib.Data.List.Basic
import Mathlib.Logic.Relation
import Mathlib.Order.Defs.PartialOrder
import PubSub.Foundations.Transition

/-!
# Lock order

Threads share re-entrant critical sections.  Of their code, only the places are kept where critical
sections are entered and left: a branch may go either way, and a loop may go on or end before every
round.  What holds for all runs of such code holds for the runs of the code itself.

A thread keeps a lock order if it enters a critical section only if it is already in it, or if the
critical section ranks above all of those that it is in.  Whether it does so can be computed
from its code.

Main results:

- Theorem {lit}`Ordered.step`: what is computed from the code stays true of the running threads.
- Theorem {lit}`not_waitCycle`: threads that keep a lock order never wait for one another in a
  cycle.
- Theorem {lit}`exists_step`: some of them can go on until all have finished.
-/

namespace Foundations

universe u v w

/-! ## Code -/

/-- Code that enters and leaves critical sections. -/
inductive LockCode (Lock : Type u) where
  | skip
  | enter (l : Lock)
  | leave (l : Lock)
  | andThen (first second : LockCode Lock)
  | either (first second : LockCode Lock)
  | loop (body : LockCode Lock)
deriving DecidableEq, Repr

namespace LockCode

variable {Lock : Type u}

/-- One after the other. -/
def block : List (LockCode Lock) → LockCode Lock
  | [] => skip
  | c :: cs => andThen c (block cs)

/-- One of several branches, or none. -/
def oneOf : List (LockCode Lock) → LockCode Lock
  | [] => skip
  | c :: cs => either c (oneOf cs)

/-- Sleep on a condition variable: leave the critical section, and enter it again after a wake-up,
for which the thread waits in between. -/
def sleep (l : Lock) : LockCode Lock :=
  block [leave l, skip, enter l]

/-- A loop whose condition is code, too. -/
def whileDo (condition body : LockCode Lock) : LockCode Lock :=
  block [loop (block [condition, body]), condition]

/-- A loop that may also end within a round, which then is {lit}`lastRound`. -/
def whileBreak (condition body lastRound : LockCode Lock) : LockCode Lock :=
  block [loop (block [condition, body]), either condition (block [condition, lastRound])]

end LockCode

/-! ## Threads -/

section Threads

variable {Thread : Type u} {Lock : Type v} [DecidableEq Thread] [DecidableEq Lock]

/-- The owner of a critical section, and how often it has entered it again. -/
abbrev Owner (Thread : Type u) :=
  Option (Thread × Nat)

/-- A thread enters a critical section that is free or its own. -/
def enterBy (t : Thread) : Owner Thread → Option (Owner Thread)
  | none => some (some (t, 0))
  | some (owner, again) => if owner = t then some (some (t, again + 1)) else none

/-- A thread leaves a critical section of its own. -/
def leaveBy (t : Thread) : Owner Thread → Option (Owner Thread)
  | none => none
  | some (owner, 0) => if owner = t then some none else none
  | some (owner, again + 1) => if owner = t then some (some (t, again)) else none

/-- How often a thread has entered a critical section and not left it yet. -/
def entries (t : Thread) : Owner Thread → Nat
  | none => 0
  | some (owner, again) => if owner = t then again + 1 else 0

/-- What every thread has still to run, and the owners of the critical sections. -/
structure LockState (Thread : Type u) (Lock : Type v) where
  rest : Thread → List (LockCode Lock)
  owner : Lock → Owner Thread

namespace LockState

/-- No thread has begun. -/
def start (program : Thread → LockCode Lock) : LockState Thread Lock where
  rest t := [program t]
  owner _ := none

def setRest (s : LockState Thread Lock) (t : Thread) (rest : List (LockCode Lock)) :
    LockState Thread Lock :=
  { s with rest := Function.update s.rest t rest }

def setOwner (s : LockState Thread Lock) (l : Lock) (owner : Owner Thread) :
    LockState Thread Lock :=
  { s with owner := Function.update s.owner l owner }

/-- One step of a thread.  The flag says which way it goes, and whether a loop goes on. -/
def step (s : LockState Thread Lock) (t : Thread) (way : Bool) :
    Option (LockState Thread Lock) :=
  match s.rest t with
  | [] => none
  | .skip :: rest => some (s.setRest t rest)
  | .enter l :: rest => (enterBy t (s.owner l)).map fun o => (s.setRest t rest).setOwner l o
  | .leave l :: rest => (leaveBy t (s.owner l)).map fun o => (s.setRest t rest).setOwner l o
  | .andThen c d :: rest => some (s.setRest t (c :: d :: rest))
  | .either c d :: rest => some (s.setRest t ((if way then c else d) :: rest))
  | .loop c :: rest => some (s.setRest t (if way then c :: .loop c :: rest else rest))

/-- A thread waits for a critical section of another thread. -/
def WaitsFor (s : LockState Thread Lock) (t t' : Thread) : Prop :=
  ∃ l rest again, s.rest t = .enter l :: rest ∧ s.owner l = some (t', again) ∧ t' ≠ t

end LockState

/-- Threads that run their programs, in any order of their steps. -/
def lockSystem (program : Thread → LockCode Lock) :
    System (LockState Thread Lock) (Thread × Bool) where
  initial s := s = LockState.start program
  step s l := s.step l.1 l.2

theorem entries_enterBy {t : Thread} {o o' : Owner Thread} (h : enterBy t o = some o')
    (t' : Thread) : entries t' o' = entries t' o + if t = t' then 1 else 0 := by
  cases o with
  | none =>
      rw [enterBy, Option.some.injEq] at h
      subst h
      simp [entries]
  | some owned =>
      rcases owned with ⟨owner, again⟩
      rw [enterBy] at h
      split at h
      · next howner =>
        rw [Option.some.injEq] at h
        subst h howner
        simp only [entries]
        split <;> rfl
      · contradiction

theorem entries_leaveBy {t : Thread} {o o' : Owner Thread} (h : leaveBy t o = some o')
    (t' : Thread) : entries t' o = entries t' o' + if t = t' then 1 else 0 := by
  match o with
  | none => contradiction
  | some (owner, 0) =>
      rw [leaveBy] at h
      split at h
      · next howner =>
        rw [Option.some.injEq] at h
        subst h howner
        simp [entries]
      · contradiction
  | some (owner, again + 1) =>
      rw [leaveBy] at h
      split at h
      · next howner =>
        rw [Option.some.injEq] at h
        subst h howner
        simp only [entries]
        split <;> rfl
      · contradiction

end Threads

/-! ## The lock order of code -/

namespace LockCode

variable {Lock : Type u} [DecidableEq Lock] {Rank : Type v} [Preorder Rank] [DecidableLT Rank]
  (rank : Lock → Rank)

/-- The critical sections that a thread is in after it has run code, if it keeps the order.  Each is
listed as often as it has been entered. -/
def after : LockCode Lock → List Lock → Option (List Lock)
  | skip, held => some held
  | enter l, held =>
      if l ∈ held ∨ ∀ m ∈ held, rank m < rank l then some (l :: held) else none
  | leave l, held => if l ∈ held then some (held.erase l) else none
  | andThen c d, held => (c.after held).bind d.after
  | either c d, held => if c.after held = d.after held then c.after held else none
  | loop c, held => if c.after held = some held then some held else none

/-- Code that keeps the order and leaves what it has entered. -/
def Keeps (held : List Lock) (c : LockCode Lock) : Prop :=
  c.after rank held = some held

variable {rank} {held held' : List Lock} {l : Lock} {c d : LockCode Lock}
  {cs : List (LockCode Lock)}

theorem after_enter (h : ∀ m ∈ held, rank m < rank l) :
    (enter l).after rank held = some (l :: held) :=
  if_pos (.inr h)

/-- A critical section that the thread is in already may be entered at any rank. -/
theorem after_enter_again (h : l ∈ held) : (enter l).after rank held = some (l :: held) :=
  if_pos (.inl h)

theorem after_leave : (leave l).after rank (l :: held) = some held := by
  rw [after, if_pos List.mem_cons_self, List.erase_cons_head]

theorem after_block_cons (h : c.after rank held = some held') :
    (block (c :: cs)).after rank held = (block cs).after rank held' := by
  rw [block, after, h, Option.bind_some]

theorem keeps_skip : Keeps rank held skip :=
  rfl

theorem after_either (hc : c.after rank held = some held') (hd : d.after rank held = some held') :
    (either c d).after rank held = some held' := by
  rw [after, hc, hd, if_pos rfl]

theorem keeps_either (hc : c.Keeps rank held) (hd : d.Keeps rank held) :
    (either c d).Keeps rank held :=
  after_either hc hd

theorem keeps_loop (hc : c.Keeps rank held) : (loop c).Keeps rank held :=
  if_pos hc

/-- Code that keeps the order, one after the other. -/
theorem keeps_block (h : ∀ c ∈ cs, c.Keeps rank held) : (block cs).Keeps rank held := by
  induction cs with
  | nil => rfl
  | cons c cs ih =>
      rw [Keeps, after_block_cons (h c List.mem_cons_self)]
      exact ih fun d hd => h d (List.mem_cons_of_mem c hd)

theorem keeps_oneOf (h : ∀ c ∈ cs, c.Keeps rank held) : (oneOf cs).Keeps rank held := by
  induction cs with
  | nil => rfl
  | cons c cs ih =>
      exact keeps_either (h c List.mem_cons_self) (ih fun d hd => h d (List.mem_cons_of_mem c hd))

/-- A critical section around code. -/
theorem keeps_section (hl : ∀ m ∈ held, rank m < rank l) (hc : c.Keeps rank (l :: held)) :
    (block [enter l, c, leave l]).Keeps rank held := by
  unfold Keeps
  rw [after_block_cons (after_enter hl), after_block_cons hc, after_block_cons after_leave]
  rfl

theorem keeps_sleep (h : ∀ m ∈ held, rank m < rank l) : (sleep l).Keeps rank (l :: held) := by
  unfold Keeps sleep
  rw [after_block_cons after_leave, after_block_cons keeps_skip,
    after_block_cons (after_enter h)]
  rfl

theorem keeps_whileDo (hcondition : c.Keeps rank held) (hbody : d.Keeps rank held) :
    (whileDo c d).Keeps rank held := by
  have hround : (block [c, d]).Keeps rank held := keeps_block (by simp [hcondition, hbody])
  exact keeps_block (by simp [keeps_loop hround, hcondition])

theorem keeps_whileBreak {lastRound : LockCode Lock} (hcondition : c.Keeps rank held)
    (hbody : d.Keeps rank held) (hlast : lastRound.Keeps rank held) :
    (whileBreak c d lastRound).Keeps rank held := by
  have hround : (block [c, d]).Keeps rank held := keeps_block (by simp [hcondition, hbody])
  have hbroken : (block [c, lastRound]).Keeps rank held := keeps_block (by simp [hcondition, hlast])
  exact keeps_block (by simp [keeps_loop hround, keeps_either hcondition hbroken])

end LockCode

/-! ## Running threads keep the order -/

section Ordered

variable {Thread : Type u} {Lock : Type v} [DecidableEq Thread] [DecidableEq Lock]
  {Rank : Type w} [Preorder Rank] [DecidableLT Rank] {rank : Lock → Rank}

open LockCode

/-- The critical sections that the threads are in, and that they keep the order from here on and
leave all of them. -/
structure Ordered (rank : Lock → Rank) (held : Thread → List Lock) (s : LockState Thread Lock) :
    Prop where
  keeps : ∀ t, (block (s.rest t)).after rank (held t) = some []
  counts : ∀ t l, (held t).count l = entries t (s.owner l)

variable {held : Thread → List Lock} {s s' : LockState Thread Lock} {t : Thread}

/-- A thread that runs on in the same critical sections. -/
theorem Ordered.setRest {rest : List (LockCode Lock)} (h : Ordered rank held s)
    (hrest : (block rest).after rank (held t) = some []) :
    Ordered rank held (s.setRest t rest) := by
  refine ⟨fun t' => ?_, h.counts⟩
  by_cases ht : t' = t
  · subst ht
    simpa [LockState.setRest] using hrest
  · simpa [LockState.setRest, ht] using h.keeps t'

/-- A thread that enters or leaves a critical section. -/
theorem Ordered.setOwner {rest : List (LockCode Lock)} {l : Lock} {o : Owner Thread}
    {heldAfter : List Lock} (h : Ordered rank held s)
    (hrest : (block rest).after rank heldAfter = some [])
    (hsame : ∀ m, m ≠ l → heldAfter.count m = (held t).count m)
    (hcount : heldAfter.count l = entries t o)
    (hothers : ∀ t', t' ≠ t → entries t' o = entries t' (s.owner l)) :
    Ordered rank (Function.update held t heldAfter) ((s.setRest t rest).setOwner l o) := by
  constructor
  · intro t'
    by_cases ht : t' = t
    · subst ht
      simpa [LockState.setRest, LockState.setOwner] using hrest
    · simpa [LockState.setRest, LockState.setOwner, ht] using h.keeps t'
  · intro t' m
    by_cases ht : t' = t
    · subst ht
      by_cases hm : m = l
      · subst hm
        simpa [LockState.setRest, LockState.setOwner] using hcount
      · simpa [LockState.setRest, LockState.setOwner, hm, hsame m hm] using h.counts t' m
    · by_cases hm : m = l
      · subst hm
        simpa [LockState.setRest, LockState.setOwner, ht, hothers t' ht] using h.counts t' m
      · simpa [LockState.setRest, LockState.setOwner, ht, hm] using h.counts t' m

/-- Entering is in order if the code keeps the order. -/
theorem after_block_enter {l : Lock} {rest : List (LockCode Lock)} {heldBefore last : List Lock}
    (h : (block (.enter l :: rest)).after rank heldBefore = some last) :
    (l ∈ heldBefore ∨ ∀ m ∈ heldBefore, rank m < rank l) ∧
      (block rest).after rank (l :: heldBefore) = some last := by
  rw [block, after, Option.bind_eq_some_iff] at h
  rcases h with ⟨heldAfter, henter, hrest⟩
  rw [after, Option.ite_none_right_eq_some, Option.some.injEq] at henter
  exact ⟨henter.1, henter.2 ▸ hrest⟩

/-- Leaving concerns a critical section that the thread is in. -/
theorem after_block_leave {l : Lock} {rest : List (LockCode Lock)} {heldBefore last : List Lock}
    (h : (block (.leave l :: rest)).after rank heldBefore = some last) :
    l ∈ heldBefore ∧ (block rest).after rank (heldBefore.erase l) = some last := by
  rw [block, after, Option.bind_eq_some_iff] at h
  rcases h with ⟨heldAfter, hleave, hrest⟩
  rw [after, Option.ite_none_right_eq_some, Option.some.injEq] at hleave
  exact ⟨hleave.1, hleave.2 ▸ hrest⟩

/-- A step keeps the order. -/
theorem Ordered.step {way : Bool} (h : Ordered rank held s) (hstep : s.step t way = some s') :
    ∃ held', Ordered rank held' s' := by
  have hkeeps := h.keeps t
  unfold LockState.step at hstep
  split at hstep
  · contradiction
  · next rest hrest =>
    rw [hrest] at hkeeps
    rw [Option.some.injEq] at hstep
    subst hstep
    exact ⟨held, h.setRest hkeeps⟩
  · next l rest hrest =>
    rw [hrest] at hkeeps
    rw [Option.map_eq_some_iff] at hstep
    rcases hstep with ⟨o, ho, rfl⟩
    refine ⟨Function.update held t (l :: held t),
      h.setOwner (after_block_enter hkeeps).2 ?_ ?_ ?_⟩
    · intro m hm
      exact List.count_cons_of_ne hm.symm
    · rw [List.count_cons_self, h.counts, entries_enterBy ho, if_pos rfl]
    · intro t' ht
      rw [entries_enterBy ho, if_neg ht.symm, Nat.add_zero]
  · next l rest hrest =>
    rw [hrest] at hkeeps
    rw [Option.map_eq_some_iff] at hstep
    rcases hstep with ⟨o, ho, rfl⟩
    refine ⟨Function.update held t ((held t).erase l),
      h.setOwner (after_block_leave hkeeps).2 ?_ ?_ ?_⟩
    · intro m hm
      exact List.count_erase_of_ne hm
    · rw [List.count_erase_self, h.counts, entries_leaveBy ho, if_pos rfl, Nat.add_sub_cancel]
    · intro t' ht
      rw [entries_leaveBy ho t', if_neg ht.symm, Nat.add_zero]
  · next c d rest hrest =>
    rw [hrest] at hkeeps
    rw [Option.some.injEq] at hstep
    subst hstep
    refine ⟨held, h.setRest ?_⟩
    simpa [block, after, Option.bind_assoc] using hkeeps
  · next c d rest hrest =>
    rw [hrest, block, after, Option.bind_eq_some_iff] at hkeeps
    rcases hkeeps with ⟨heldAfter, heither, hkeeps⟩
    rw [after, Option.ite_none_right_eq_some] at heither
    rcases heither with ⟨hsame, hc⟩
    rw [Option.some.injEq] at hstep
    subst hstep
    refine ⟨held, h.setRest ?_⟩
    cases way with
    | true => exact (after_block_cons hc).trans hkeeps
    | false => exact (after_block_cons (hsame ▸ hc)).trans hkeeps
  · next c rest hrest =>
    rw [hrest, block, after, Option.bind_eq_some_iff] at hkeeps
    rcases hkeeps with ⟨heldAfter, hloop, hkeeps⟩
    have hround := hloop
    rw [after, Option.ite_none_right_eq_some, Option.some.injEq] at hround
    rcases hround with ⟨hc, rfl⟩
    rw [Option.some.injEq] at hstep
    subst hstep
    refine ⟨held, h.setRest ?_⟩
    cases way with
    | true => exact (after_block_cons hc).trans ((after_block_cons hloop).trans hkeeps)
    | false => exact hkeeps

/-- The state at the beginning, if all programs keep the order. -/
theorem ordered_start {program : Thread → LockCode Lock}
    (hkeeps : ∀ t, (program t).Keeps rank []) :
    Ordered rank (fun _ => []) (LockState.start program) := by
  constructor
  · intro t
    exact after_block_cons (hkeeps t)
  · intro t l
    rfl

/-- Wherever threads that keep the order get to, they keep the order. -/
theorem ordered_of_reachable {program : Thread → LockCode Lock}
    (hkeeps : ∀ t, (program t).Keeps rank []) (hreach : (lockSystem program).Reachable s) :
    ∃ held, Ordered rank held s := by
  refine hreach.invariant (fun s => ∃ held, Ordered rank held s) ?_ ?_
  · rintro s rfl
    exact ⟨_, ordered_start hkeeps⟩
  · rintro s ⟨t, way⟩ s' ⟨held, h⟩ hstep
    exact h.step hstep

/-! ## Waiting -/

/-- A thread that waits is in critical sections that rank below the one it waits for. -/
theorem Ordered.rank_lt_of_waits {t' : Thread} {l : Lock} {rest : List (LockCode Lock)}
    {again : Nat} (h : Ordered rank held s) (hrest : s.rest t = .enter l :: rest)
    (howner : s.owner l = some (t', again)) (hne : t' ≠ t) :
    (∀ m ∈ held t, rank m < rank l) ∧ l ∈ held t' := by
  have hkeeps := h.keeps t
  rw [hrest] at hkeeps
  have hnone : (held t).count l = 0 := by
    rw [h.counts, howner, entries, if_neg hne]
  have hsome : (held t').count l = again + 1 := by
    rw [h.counts, howner, entries, if_pos rfl]
  refine ⟨?_, List.count_pos_iff.mp (by omega)⟩
  rcases (after_block_enter hkeeps).1 with hmem | hlt
  · exact absurd hmem (List.count_eq_zero.mp hnone)
  · exact hlt

/-- A thread that waits for another that waits in turn. -/
theorem Ordered.rank_lt_of_waitsFor {t' t'' : Thread} {l l' : Lock}
    {rest rest' : List (LockCode Lock)} (h : Ordered rank held s)
    (hrest : s.rest t = .enter l :: rest) (hrest' : s.rest t' = .enter l' :: rest')
    (hwaits : s.WaitsFor t t') (hwaits' : s.WaitsFor t' t'') : rank l < rank l' := by
  rcases hwaits with ⟨m, k, again, hm, howner, hne⟩
  rcases hwaits' with ⟨m', k', again', hm', howner', hne'⟩
  rw [hrest, List.cons.injEq, LockCode.enter.injEq] at hm
  rw [hrest', List.cons.injEq, LockCode.enter.injEq] at hm'
  rcases hm with ⟨rfl, rfl⟩
  rcases hm' with ⟨rfl, rfl⟩
  have hmem : l ∈ held t' := (h.rank_lt_of_waits hrest howner hne).2
  exact (h.rank_lt_of_waits hrest' howner' hne').1 l hmem

/-- Along a chain of waiting threads, the ranks of what they wait for go up. -/
theorem Ordered.rank_lt_of_chain {t' t'' : Thread} {l l' : Lock}
    {rest rest' : List (LockCode Lock)} (h : Ordered rank held s)
    (hchain : Relation.TransGen s.WaitsFor t t') (hrest : s.rest t = .enter l :: rest)
    (hrest' : s.rest t' = .enter l' :: rest') (hwaits : s.WaitsFor t' t'') :
    rank l < rank l' := by
  induction hchain generalizing l' rest' t'' with
  | single hfirst => exact h.rank_lt_of_waitsFor hrest hrest' hfirst hwaits
  | tail hchain hnext ih =>
      have hbetween := hnext
      rcases hbetween with ⟨m, k, again, hm, -, -⟩
      exact lt_trans (ih hm hnext) (h.rank_lt_of_waitsFor hm hrest' hnext hwaits)

/-- Threads that keep a lock order never wait for one another in a cycle. -/
theorem not_waitCycle {program : Thread → LockCode Lock}
    (hkeeps : ∀ t, (program t).Keeps rank []) (hreach : (lockSystem program).Reachable s)
    (t : Thread) : ¬ Relation.TransGen s.WaitsFor t t := by
  intro hcycle
  rcases ordered_of_reachable hkeeps hreach with ⟨held, h⟩
  rcases Relation.TransGen.head'_iff.mp hcycle with ⟨t', hwaits, -⟩
  rcases id hwaits with ⟨l, rest, again, hrest, -, -⟩
  exact lt_irrefl _ (h.rank_lt_of_chain hcycle hrest hrest hwaits)

/-! ## Progress -/

/-- A thread that is in a critical section has still to leave it. -/
theorem Ordered.rest_ne_nil {l : Lock} {again : Nat} (h : Ordered rank held s)
    (howner : s.owner l = some (t, again)) : s.rest t ≠ [] := by
  intro hnil
  have hkeeps := h.keeps t
  rw [hnil, block, after, Option.some.injEq] at hkeeps
  have hcount := h.counts t l
  rw [hkeeps, howner, entries, if_pos rfl, List.count_nil] at hcount
  contradiction

/-- A thread that has not finished can take a step, or waits for another that has not
finished. -/
theorem Ordered.steps_or_waits (h : Ordered rank held s) (hrest : s.rest t ≠ []) :
    (∃ s', s.step t true = some s') ∨ ∃ t', s.WaitsFor t t' ∧ s.rest t' ≠ [] := by
  unfold LockState.step
  split
  · next hnil => exact absurd hnil hrest
  · exact .inl ⟨_, rfl⟩
  · next l rest henter =>
    cases howner : s.owner l with
    | none => exact .inl ⟨_, rfl⟩
    | some owned =>
        rcases owned with ⟨owner, again⟩
        by_cases hself : owner = t
        · exact .inl ⟨_, by rw [enterBy, if_pos hself]; rfl⟩
        · exact .inr ⟨owner, ⟨l, rest, again, henter, howner, hself⟩, h.rest_ne_nil howner⟩
  · next l rest hleave =>
    have hkeeps := h.keeps t
    rw [hleave] at hkeeps
    have hpos := List.count_pos_iff.mpr (after_block_leave hkeeps).1
    rw [h.counts] at hpos
    match howner : s.owner l with
    | none => simp [howner, entries] at hpos
    | some (owner, again) =>
        have hself : owner = t := by
          by_contra hne
          simp [howner, entries, hne] at hpos
        cases again with
        | zero => exact .inl ⟨_, by rw [leaveBy, if_pos hself]; rfl⟩
        | succ again => exact .inl ⟨_, by rw [leaveBy, if_pos hself]; rfl⟩
  · exact .inl ⟨_, rfl⟩
  · exact .inl ⟨_, rfl⟩
  · exact .inl ⟨_, rfl⟩

/-- As long as some thread has not finished, some thread can take a step. -/
theorem exists_step [Finite Thread] {program : Thread → LockCode Lock}
    (hkeeps : ∀ t, (program t).Keeps rank []) (hreach : (lockSystem program).Reachable s)
    (hrest : s.rest t ≠ []) : ∃ t' s', s.step t' true = some s' := by
  rcases ordered_of_reachable hkeeps hreach with ⟨held, h⟩
  by_contra hstuck
  have hwaits : ∀ u, s.rest u ≠ [] → ∃ t', s.WaitsFor u t' ∧ s.rest t' ≠ [] := by
    intro u hu
    rcases h.steps_or_waits hu with ⟨s', hstep⟩ | hwait
    · exact absurd ⟨u, s', hstep⟩ hstuck
    · exact hwait
  -- without cycles, going on to the thread that is waited for comes to an end
  have hirrefl : Std.Irrefl (Function.swap (Relation.TransGen s.WaitsFor)) :=
    ⟨not_waitCycle hkeeps hreach⟩
  have hwf : WellFounded (Function.swap (Relation.TransGen s.WaitsFor)) :=
    Finite.wellFounded_of_trans_of_irrefl _
  refine hrest (hwf.induction t (C := fun u => s.rest u = []) fun u ih => ?_)
  by_contra hu
  rcases hwaits u hu with ⟨t', hwait, ht'⟩
  exact ht' (ih t' (Relation.TransGen.single hwait))

end Ordered

end Foundations
