import PubSub.Foundations.Transition

/-!
# Logs of runs

What has happened on the way from one state to another is not part of the state.  Here it is
written down beside the run: every step may add entries to a log, which depend on the state
before the step and on its label.

Main results:

- Theorem {lit}`Logs.trans`: one run after the other writes one log after the other.
- Theorem {lit}`Logs.of_runVia`: the log of a run that is given by its labels.
- Theorem {lit}`Logs.invariant`: what holds of an empty log, and is kept by every step with its
  entries, holds of the whole log.
- Theorem {lit}`withHistory_statesSatisfy`: a history beside the state changes nothing about
  the states that are visited.
-/

namespace Foundations

universe u v w

namespace System

variable {State : Type u} {Label : Type v} {α : Type w} (M : System State Label)

/-- A run through admitted steps leads from one state to another and writes the log. -/
inductive Logs (allowed : State → Label → Prop) (entries : State → Label → List α) (s : State) :
    List α → State → Prop
  | start : Logs allowed entries s [] s
  | step {t u : State} {l : Label} {log : List α} (hlogs : Logs allowed entries s log t)
      (hallowed : allowed t l) (hstep : M.step t l = some u) :
      Logs allowed entries s (log ++ entries t l) u

variable {M} {allowed : State → Label → Prop} {entries : State → Label → List α} {s t u : State}
  {log log' : List α}

/-- Runs can be put together. -/
theorem Logs.trans (hfirst : M.Logs allowed entries s log t)
    (hthen : M.Logs allowed entries t log' u) : M.Logs allowed entries s (log ++ log') u := by
  induction hthen with
  | start =>
      rw [List.append_nil]
      exact hfirst
  | step _ hallowed hstep ih =>
      rw [← List.append_assoc]
      exact ih.step hallowed hstep

/-- If fewer steps are admitted, there are fewer runs. -/
theorem Logs.mono {allowed' : State → Label → Prop} (hallowed : ∀ t l, allowed t l → allowed' t l)
    (hlogs : M.Logs allowed entries s log t) : M.Logs allowed' entries s log t := by
  induction hlogs with
  | start => exact .start
  | step _ hallow hstep ih => exact ih.step (hallowed _ _ hallow) hstep

/-- A run from a reachable state ends in one. -/
theorem Logs.reachableVia (hlogs : M.Logs allowed entries s log t)
    (hreach : M.ReachableVia allowed s) : M.ReachableVia allowed t := by
  induction hlogs with
  | start => exact hreach
  | step _ hallow hstep ih => exact ih.step hallow hstep

variable (M)

/-- The log of a run that takes the labelled steps in order. -/
def runLog (entries : State → Label → List α) : State → List Label → List α
  | _, [] => []
  | s, l :: ls => entries s l ++ (M.step s l).elim [] fun s' => runLog entries s' ls

variable {M}

/-- A checked run writes this log. -/
theorem Logs.of_runVia {checked : State → Label → Prop} [∀ s l, Decidable (checked s l)]
    {ls : List Label} (hallowed : ∀ l ∈ ls, ∀ s, checked s l → allowed s l)
    (hrun : M.runVia checked s ls = some t) :
    M.Logs allowed entries s (M.runLog entries s ls) t := by
  induction ls generalizing s with
  | nil =>
      rw [System.runVia, Option.some.injEq] at hrun
      rw [← hrun]
      exact .start
  | cons l ls ih =>
      rw [System.runVia] at hrun
      split at hrun
      · next hchecked =>
        rw [Option.bind_eq_some_iff] at hrun
        rcases hrun with ⟨s₁, hstep, hrest⟩
        have hfirst : M.Logs allowed entries s ([] ++ entries s l) s₁ :=
          .step .start (hallowed l (by simp) s hchecked) hstep
        rw [List.nil_append] at hfirst
        have hthen := hfirst.trans (ih (fun k hk => hallowed k (by simp [hk])) hrest)
        rw [runLog, hstep, Option.elim_some]
        exact hthen
      · contradiction

/-- The induction principle for a state and the log of the run that leads to it. -/
theorem Logs.invariant (Inv : State → List α → Prop) (hstart : Inv s [])
    (hpres : ∀ t l u log, Inv t log → allowed t l → M.step t l = some u →
      Inv u (log ++ entries t l))
    (hlogs : M.Logs allowed entries s log t) : Inv t log := by
  induction hlogs with
  | start => exact hstart
  | step _ hallowed hstep ih => exact hpres _ _ _ _ ih hallowed hstep

/-! ## A history beside the state -/

variable {History : Type w}

variable (M) in
/-- The system with a history of what has happened: every step carries it on, and no step
reads it. -/
def withHistory (first : History) (record : State → Label → History → History) :
    System (State × History) Label where
  initial p := M.initial p.1 ∧ p.2 = first
  step p l := (M.step p.1 l).map fun s' => (s', record p.1 l p.2)

theorem withHistory_step {first : History} {record : State → Label → History → History}
    {p p' : State × History} {l : Label} :
    (M.withHistory first record).step p l = some p' ↔
      M.step p.1 l = some p'.1 ∧ p'.2 = record p.1 l p.2 := by
  rw [withHistory, Option.map_eq_some_iff]
  constructor
  · intro h
    rcases h with ⟨s', hstep, rfl⟩
    exact ⟨hstep, rfl⟩
  · intro h
    exact ⟨p'.1, h.1, Prod.ext rfl h.2.symm⟩

/-- The states that are visited do not depend on it. -/
theorem withHistory_statesSatisfy {first : History} {record : State → Label → History → History}
    (P : State → Prop) (p : State × History) (ls : List Label) :
    (M.withHistory first record).StatesSatisfy (fun q => P q.1) p ls ↔
      M.StatesSatisfy P p.1 ls := by
  induction ls generalizing p with
  | nil => exact Iff.rfl
  | cons l ls ih =>
      constructor
      · intro h
        refine ⟨h.1, fun s' hstep => ?_⟩
        exact (ih (s', record p.1 l p.2)).mp (h.2 _ (withHistory_step.mpr ⟨hstep, rfl⟩))
      · intro h
        refine ⟨h.1, fun p' hstep => ?_⟩
        exact (ih p').mpr (h.2 _ (withHistory_step.mp hstep).1)

end System

end Foundations
