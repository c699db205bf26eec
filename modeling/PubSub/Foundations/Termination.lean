import Mathlib.Algebra.BigOperators.Group.Finset.Basic
import PubSub.Foundations.Transition

/-!
# Systems that run out of moves

Some labels of a system are its own moves, the others are inputs.  If every move makes a
measure smaller, then the system left alone makes only so many moves, and what it does
can be read off the states in which it has none left.

Main results:

- Theorem {lit}`Variant.length_le`: a run of moves is not longer than the measure.
- Theorem {lit}`Variant.exists_stuck`: every state can move on to one without moves.
- Theorem {lit}`sum_rank_update`: a measure that is a sum changes by what changes in one
  summand.
-/

namespace Foundations

universe u v w

namespace System

variable {State : Type u} {Label : Type v} (M : System State Label)

/-- None of the moves is enabled. -/
def Stuck (moves : Label → Prop) (s : State) : Prop :=
  ∀ l, moves l → M.step s l = none

/-- On the states with the invariant, every move keeps the invariant and makes the measure
smaller. -/
structure Variant (Inv : State → Prop) (moves : Label → Prop) (measure : State → Nat) :
    Prop where
  kept : ∀ s l s', Inv s → moves l → M.step s l = some s' → Inv s'
  decreases : ∀ s l s', Inv s → moves l → M.step s l = some s' → measure s' < measure s

variable {M} {Inv : State → Prop} {moves : Label → Prop} {measure : State → Nat}

/-- Nor is any move possible if fewer are admitted. -/
theorem Stuck.restrict {allowed : State → Label → Prop} [∀ s l, Decidable (allowed s l)]
    {s : State} (hstuck : M.Stuck moves s) : (M.restrict allowed).Stuck moves s := by
  intro l hl
  by_contra hsome
  rcases Option.ne_none_iff_exists'.mp hsome with ⟨s', hstep⟩
  rw [restrict_step_eq_some_iff, hstuck l hl] at hstep
  exact absurd hstep.2 (by simp)

/-- The measure is one for fewer moves as well. -/
theorem Variant.restrict (allowed : State → Label → Prop) [∀ s l, Decidable (allowed s l)]
    (hvariant : M.Variant Inv moves measure) :
    (M.restrict allowed).Variant Inv moves measure where
  kept := fun s l s' hs hl hstep =>
    hvariant.kept s l s' hs hl (restrict_step_eq_some_iff.mp hstep).2
  decreases := fun s l s' hs hl hstep =>
    hvariant.decreases s l s' hs hl (restrict_step_eq_some_iff.mp hstep).2

/-- A run of moves is paid for by the measure. -/
theorem Variant.length_le (hvariant : M.Variant Inv moves measure) {s s' : State} (hs : Inv s)
    {ls : List Label} (hmoves : ∀ l ∈ ls, moves l) (hrun : M.run s ls = some s') :
    Inv s' ∧ measure s' + ls.length ≤ measure s := by
  induction ls generalizing s with
  | nil =>
      rw [run_nil, Option.some.injEq] at hrun
      subst hrun
      exact ⟨hs, Nat.le_refl _⟩
  | cons l ls ih =>
      rw [run_cons, Option.bind_eq_some_iff] at hrun
      rcases hrun with ⟨s₁, hstep, hrest⟩
      have hl := hmoves l (by simp)
      have hlt := hvariant.decreases s l s₁ hs hl hstep
      rcases ih (hvariant.kept s l s₁ hs hl hstep) (fun k hk => hmoves k (by simp [hk])) hrest
        with ⟨hs', hle⟩
      refine ⟨hs', ?_⟩
      rw [List.length_cons]
      omega

/-- Moves lead from every state to one in which no move is left. -/
theorem Variant.exists_stuck (hvariant : M.Variant Inv moves measure) {s : State} (hs : Inv s) :
    ∃ ls s', (∀ l ∈ ls, moves l) ∧ M.run s ls = some s' ∧ M.Stuck moves s' := by
  induction hk : measure s using Nat.strong_induction_on generalizing s with
  | _ k ih =>
      by_cases hstuck : M.Stuck moves s
      · exact ⟨[], s, by simp, rfl, hstuck⟩
      · simp only [Stuck, not_forall] at hstuck
        rcases hstuck with ⟨l, hl, hstep⟩
        rcases Option.ne_none_iff_exists'.mp hstep with ⟨s₁, hs₁⟩
        have hlt := hvariant.decreases s l s₁ hs hl hs₁
        rcases ih (measure s₁) (hk ▸ hlt) (hvariant.kept s l s₁ hs hl hs₁) rfl with
          ⟨ls, s', hmoves, hrun, hs'⟩
        refine ⟨l :: ls, s', ?_, ?_, hs'⟩
        · intro k hk
          rcases List.mem_cons.mp hk with rfl | hmem
          · exact hl
          · exact hmoves k hmem
        · rw [run_cons, hs₁, Option.bind_some, hrun]

end System

/-! ## Measures that are sums -/

section Sums

variable {ι : Type u} {α : Type v} [Fintype ι] [DecidableEq ι]

/-- One summand changes, and the sum changes by the difference. -/
theorem sum_rank_update (rank : α → Nat) (f : ι → α) (i : ι) (a : α) :
    ∑ j, rank (Function.update f i a j) + rank (f i) = ∑ j, rank (f j) + rank a := by
  have hnew := Finset.sum_erase_add Finset.univ (fun j => rank (Function.update f i a j))
    (Finset.mem_univ i)
  have hold := Finset.sum_erase_add Finset.univ (fun j => rank (f j)) (Finset.mem_univ i)
  have hothers : ∑ j ∈ Finset.univ.erase i, rank (Function.update f i a j) =
      ∑ j ∈ Finset.univ.erase i, rank (f j) := by
    refine Finset.sum_congr rfl fun j hj => ?_
    rw [Function.update_of_ne (Finset.ne_of_mem_erase hj)]
  rw [Function.update_self] at hnew
  omega

end Sums

end Foundations
