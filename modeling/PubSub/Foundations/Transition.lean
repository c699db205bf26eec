import Mathlib.Data.List.Basic

/-!
# Labelled transition systems

A system is given by its initial states and by a step function.  Everything
that a step does not determine by itself (which thread moves, which address an
allocator returns, which bytes a peer sends) is part of the label, so that a
step is a partial function: {lit}`none` means that the labelled step is not
enabled.

Main results:

- Theorem {lit}`ReachableVia.invariant`: a property that holds initially and is
  kept by every admitted step holds in every state reached through such steps.
- Theorem {lit}`statesSatisfy_iff_stepsSatisfy`: along one run, a property of
  the states visited is equivalent to a condition on the steps taken.
- Theorem {lit}`Simulation.reachable`: a stuttering forward simulation carries
  reachability from the concrete to the abstract system.
-/

namespace Foundations

universe u v w x

/-- A labelled transition system whose labels resolve every choice of a step. -/
structure System (State : Type u) (Label : Type v) where
  initial : State → Prop
  step : State → Label → Option State

namespace System

variable {State : Type u} {Label : Type v} (M : System State Label)

/-! ## Reachable states -/

/-- States reached from an initial state through steps that {lit}`allowed` admits. -/
inductive ReachableVia (allowed : State → Label → Prop) : State → Prop
  | start {s : State} (hinit : M.initial s) : ReachableVia allowed s
  | step {s s' : State} {l : Label} (hreach : ReachableVia allowed s)
      (hallowed : allowed s l) (hstep : M.step s l = some s') : ReachableVia allowed s'

/-- States reached from an initial state through any steps. -/
def Reachable : State → Prop :=
  M.ReachableVia fun _ _ => True

variable {M}

/-- The induction principle of every safety proof below: initial states
satisfy the invariant and admitted steps preserve it. -/
theorem ReachableVia.invariant {allowed : State → Label → Prop} (Inv : State → Prop)
    (hinit : ∀ s, M.initial s → Inv s)
    (hpres : ∀ s l s', Inv s → allowed s l → M.step s l = some s' → Inv s')
    {s : State} (hreach : M.ReachableVia allowed s) : Inv s := by
  induction hreach with
  | start h => exact hinit _ h
  | step _ hallowed hstep ih => exact hpres _ _ _ ih hallowed hstep

/-- If more steps are admitted, more is reached. -/
theorem ReachableVia.mono {allowed allowed' : State → Label → Prop}
    (hallowed : ∀ s l, allowed s l → allowed' s l) {s : State}
    (hreach : M.ReachableVia allowed s) : M.ReachableVia allowed' s := by
  induction hreach with
  | start h => exact ReachableVia.start h
  | step _ hallow hstep ih => exact ih.step (hallowed _ _ hallow) hstep

/-- What is reached through admitted steps is reachable. -/
theorem ReachableVia.reachable {allowed : State → Label → Prop} {s : State}
    (hreach : M.ReachableVia allowed s) : M.Reachable s := by
  induction hreach with
  | start h => exact ReachableVia.start h
  | step _ _ hstep ih => exact ReachableVia.step ih trivial hstep

/-- The unconditional form of {name}`ReachableVia.invariant`. -/
theorem Reachable.invariant (Inv : State → Prop)
    (hinit : ∀ s, M.initial s → Inv s)
    (hpres : ∀ s l s', Inv s → M.step s l = some s' → Inv s')
    {s : State} (hreach : M.Reachable s) : Inv s :=
  ReachableVia.invariant Inv hinit (fun s l s' hs _ h => hpres s l s' hs h) hreach

/-- An initial state is reachable. -/
theorem Reachable.start {s : State} (hinit : M.initial s) : M.Reachable s :=
  ReachableVia.start hinit

/-- Reachability is closed under steps. -/
theorem Reachable.step {s s' : State} {l : Label} (hreach : M.Reachable s)
    (hstep : M.step s l = some s') : M.Reachable s' :=
  ReachableVia.step hreach trivial hstep

/-! ## Runs -/

variable (M)

/-- Take the labelled steps in order; {lit}`none` as soon as one is not enabled. -/
def run : State → List Label → Option State
  | s, [] => some s
  | s, l :: ls => (M.step s l).bind fun s' => run s' ls

@[simp]
theorem run_nil (s : State) : M.run s [] = some s :=
  rfl

theorem run_cons (s : State) (l : Label) (ls : List Label) :
    M.run s (l :: ls) = (M.step s l).bind fun s' => M.run s' ls :=
  rfl

variable {M}

/-- A run whose labels are admitted in every state. -/
theorem ReachableVia.run {allowed : State → Label → Prop} {s s' : State} {ls : List Label}
    (hreach : M.ReachableVia allowed s) (hallowed : ∀ l ∈ ls, ∀ t, allowed t l)
    (hrun : M.run s ls = some s') : M.ReachableVia allowed s' := by
  induction ls generalizing s with
  | nil =>
      rw [run_nil, Option.some.injEq] at hrun
      exact hrun ▸ hreach
  | cons l ls ih =>
      rw [run_cons, Option.bind_eq_some_iff] at hrun
      rcases hrun with ⟨s₁, hstep, hrest⟩
      have hreach' := ReachableVia.step hreach (hallowed l (by simp) s) hstep
      exact ih hreach' (fun k hk => hallowed k (by simp [hk])) hrest

/-- A run from a reachable state ends in a reachable state. -/
theorem Reachable.run {s s' : State} {ls : List Label} (hreach : M.Reachable s)
    (hrun : M.run s ls = some s') : M.Reachable s' :=
  ReachableVia.run hreach (fun _ _ _ => trivial) hrun

variable (M)

/-- Take the labelled steps in order, checking before each one that it is admitted. -/
def runVia (allowed : State → Label → Prop) [∀ s l, Decidable (allowed s l)] :
    State → List Label → Option State
  | s, [] => some s
  | s, l :: ls =>
      if allowed s l then (M.step s l).bind fun s' => runVia allowed s' ls else none

variable {M}

/-- A checked run whose labels are admitted where the check succeeds. -/
theorem ReachableVia.run_checked {allowed checked : State → Label → Prop}
    [∀ s l, Decidable (checked s l)] {s s' : State} {ls : List Label}
    (hreach : M.ReachableVia allowed s) (hallowed : ∀ l ∈ ls, ∀ t, checked t l → allowed t l)
    (hrun : M.runVia checked s ls = some s') : M.ReachableVia allowed s' := by
  induction ls generalizing s with
  | nil =>
      rw [System.runVia, Option.some.injEq] at hrun
      exact hrun ▸ hreach
  | cons l ls ih =>
      rw [System.runVia] at hrun
      split at hrun
      · next hchecked =>
          rw [Option.bind_eq_some_iff] at hrun
          rcases hrun with ⟨s₁, hstep, hrest⟩
          have hreach' := hreach.step (hallowed l (by simp) s hchecked) hstep
          exact ih hreach' (fun k hk => hallowed k (by simp [hk])) hrest
      · contradiction

/-- A checked run from a reachable state ends in a state reachable through
admitted steps. -/
theorem ReachableVia.runVia {allowed : State → Label → Prop}
    [∀ s l, Decidable (allowed s l)] {s s' : State} {ls : List Label}
    (hreach : M.ReachableVia allowed s) (hrun : M.runVia allowed s ls = some s') :
    M.ReachableVia allowed s' :=
  hreach.run_checked (fun _ _ _ hallowed => hallowed) hrun

variable (M)

/-- The system in which nobody takes a step that is not admitted. -/
def restrict (allowed : State → Label → Prop) [∀ s l, Decidable (allowed s l)] :
    System State Label where
  initial := M.initial
  step := fun s l => if allowed s l then M.step s l else none

variable {M}

theorem restrict_step_eq_some_iff {allowed : State → Label → Prop}
    [∀ s l, Decidable (allowed s l)] {s s' : State} {l : Label} :
    (M.restrict allowed).step s l = some s' ↔ allowed s l ∧ M.step s l = some s' := by
  rw [restrict, Option.ite_none_right_eq_some]

/-- Its runs are the checked ones. -/
theorem restrict_run (allowed : State → Label → Prop) [∀ s l, Decidable (allowed s l)] (s : State)
    (ls : List Label) : (M.restrict allowed).run s ls = M.runVia allowed s ls := by
  induction ls generalizing s with
  | nil => rfl
  | cons l ls ih =>
      rw [run_cons, runVia]
      by_cases hallowed : allowed s l
      · have hstep : (M.restrict allowed).step s l = M.step s l := if_pos hallowed
        rw [hstep, if_pos hallowed]
        exact Option.bind_congr fun s' _ => ih s'
      · have hstep : (M.restrict allowed).step s l = none := if_neg hallowed
        rw [hstep, if_neg hallowed, Option.bind_none]

variable (M)

/-- Every state visited while the labels are taken in order satisfies the property. -/
def StatesSatisfy (P : State → Prop) : State → List Label → Prop
  | s, [] => P s
  | s, l :: ls => P s ∧ ∀ s', M.step s l = some s' → StatesSatisfy P s' ls

variable {M}

/-- A property of all states visited holds where the run ends. -/
theorem StatesSatisfy.of_run {P : State → Prop} {s s' : State} {ls : List Label}
    (h : M.StatesSatisfy P s ls) (hrun : M.run s ls = some s') : P s' := by
  induction ls generalizing s with
  | nil =>
      rw [run_nil, Option.some.injEq] at hrun
      exact hrun ▸ h
  | cons l ls ih =>
      rw [run_cons, Option.bind_eq_some_iff] at hrun
      rcases hrun with ⟨s₁, hstep, hrest⟩
      exact ih (h.2 s₁ hstep) hrest

variable (M)

/-- Every step taken while the labels are taken in order meets the condition,
which may look at the state before the step. -/
def StepsSatisfy (C : State → Label → Prop) : State → List Label → Prop
  | _, [] => True
  | s, l :: ls => ∀ s', M.step s l = some s' → C s l ∧ StepsSatisfy C s' ls

variable {M}

/-- If a step that meets the condition keeps the invariant and establishes the
property, and any other step destroys the property, then along a whole run the
property of the states and the condition on the steps are equivalent. -/
theorem statesSatisfy_iff_stepsSatisfy (Inv : State → Prop) {P : State → Prop}
    {C : State → Label → Prop}
    (hgood : ∀ s l s', Inv s → C s l → M.step s l = some s' → Inv s' ∧ P s')
    (hbad : ∀ s l s', Inv s → ¬ C s l → M.step s l = some s' → ¬ P s')
    (ls : List Label) {s : State} (hs : Inv s) (hP : P s) :
    M.StatesSatisfy P s ls ↔ M.StepsSatisfy C s ls := by
  induction ls generalizing s with
  | nil => exact ⟨fun _ => trivial, fun _ => hP⟩
  | cons l ls ih =>
      constructor
      · intro hstates s' hstep
        have htail : M.StatesSatisfy P s' ls := hstates.2 s' hstep
        have hP' : P s' := by
          cases ls with
          | nil => exact htail
          | cons _ _ => exact htail.1
        have hC : C s l := by
          by_contra hnot
          exact hbad s l s' hs hnot hstep hP'
        have hs' : Inv s' := (hgood s l s' hs hC hstep).1
        exact ⟨hC, (ih hs' hP').mp htail⟩
      · intro hsteps
        refine ⟨hP, fun s' hstep => ?_⟩
        rcases hsteps s' hstep with ⟨hC, hrest⟩
        rcases hgood s l s' hs hC hstep with ⟨hs', hP'⟩
        exact (ih hs' hP').mpr hrest

/-! ## Forward simulation -/

/-- A stuttering forward simulation of the admitted steps of {lit}`M` by {lit}`N`:
a concrete step is matched by one abstract step or by none. -/
structure Simulation {State' : Type w} {Label' : Type x} (M : System State Label)
    (allowed : State → Label → Prop) (N : System State' Label')
    (R : State → State' → Prop) : Prop where
  initial : ∀ s, M.initial s → ∃ t, N.initial t ∧ R s t
  step : ∀ s l s' t, R s t → allowed s l → M.step s l = some s' →
    R s' t ∨ ∃ k t', N.step t k = some t' ∧ R s' t'

/-- Every concrete state reached through admitted steps is related to a
reachable abstract state. -/
theorem Simulation.reachable {State' : Type w} {Label' : Type x}
    {allowed : State → Label → Prop} {N : System State' Label'} {R : State → State' → Prop}
    (hsim : Simulation M allowed N R) {s : State} (hreach : M.ReachableVia allowed s) :
    ∃ t, N.Reachable t ∧ R s t := by
  induction hreach with
  | start h =>
      rcases hsim.initial _ h with ⟨t, ht, hR⟩
      exact ⟨t, Reachable.start ht, hR⟩
  | step _ hallowed hstep ih =>
      rcases ih with ⟨t, ht, hR⟩
      rcases hsim.step _ _ _ t hR hallowed hstep with hstutter | ⟨k, t', hk, hR'⟩
      · exact ⟨t, ht, hstutter⟩
      · exact ⟨t', ht.step hk, hR'⟩

end System

end Foundations
