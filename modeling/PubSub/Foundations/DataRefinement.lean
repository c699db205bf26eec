import Mathlib.Data.List.Basic

/-!
# Sequences of calls on a data structure

A data structure in memory is given by what a call does to the state and returns; a
call that faults does neither.  Its reference is a mathematical structure whose calls
never fault.  What the caller or the environment has to provide (a fresh address, say)
is a condition under which a call is admitted.

Main results:

- Theorem {lit}`runCalls_refines`: if every admitted call keeps the states related and
  returns what the reference returns, then a whole sequence of admitted calls does.
- Theorem {lit}`runReference_invariant`: what every call on the reference preserves, a
  sequence of calls preserves.
- Theorem {lit}`runCalls_agree`: if the calls on two structures agree, in whether they are
  possible and in what they return, then so do sequences of calls.
-/

namespace Foundations

universe u v w x

section Calls

variable {State : Type u} {Reference : Type v} {Call : Type w} {Return : Type x}

/-- Make the calls in order and collect what they return. -/
def runCalls (call : State → Call → Option (State × Return)) :
    State → List Call → Option (State × List Return)
  | s, [] => some (s, [])
  | s, c :: cs => do
      let (s, r) ← call s c
      let (s, rs) ← runCalls call s cs
      return (s, r :: rs)

/-- The same on the reference, where no call faults. -/
def runReference (call : Reference → Call → Reference × Return) :
    Reference → List Call → Reference × List Return
  | a, [] => (a, [])
  | a, c :: cs =>
      let (a, r) := call a c
      let (a, rs) := runReference call a cs
      (a, r :: rs)

/-- A sequence of calls is its first call and the others. -/
theorem runCalls_cons_eq_some_iff {call : State → Call → Option (State × Return)} {s s' : State}
    {c : Call} {cs : List Call} {returned : List Return} :
    runCalls call s (c :: cs) = some (s', returned) ↔
      ∃ s₁ r rs, call s c = some (s₁, r) ∧ runCalls call s₁ cs = some (s', rs) ∧
        returned = r :: rs := by
  simp only [runCalls, Option.bind_eq_bind, Option.bind_eq_some_iff, Option.pure_def,
    Option.some.injEq, Prod.mk.injEq, Prod.exists]
  constructor
  · rintro ⟨s₁, r, hfirst, s₂, rs, hrest, rfl, rfl⟩
    exact ⟨s₁, r, rs, hfirst, hrest, rfl⟩
  · rintro ⟨s₁, r, rs, hfirst, hrest, rfl⟩
    exact ⟨s₁, r, hfirst, s', rs, hrest, rfl, rfl⟩

/-- The calls in front are made first. -/
theorem runCalls_append_singleton (call : State → Call → Option (State × Return)) (s : State)
    (cs : List Call) (c : Call) :
    runCalls call s (cs ++ [c]) =
      (runCalls call s cs).bind fun (s', rs) =>
        (call s' c).map fun (s'', r) => (s'', rs ++ [r]) := by
  induction cs generalizing s with
  | nil => cases h : call s c <;> simp [runCalls, h]
  | cons first cs ih =>
      cases hfirst : call s first with
      | none => simp [runCalls, hfirst]
      | some result =>
          rcases result with ⟨s₁, r₁⟩
          simp only [List.cons_append, runCalls, hfirst, Option.bind_eq_bind, Option.bind_some, ih]
          cases runCalls call s₁ cs with
          | none => rfl
          | some result =>
              rcases result with ⟨s₂, rs⟩
              cases h : call s₂ c <;> simp [h]

/-- Every call is admitted in the state in which it is made. -/
def CallsAdmitted (call : State → Call → Option (State × Return))
    (admitted : State → Call → Prop) : State → List Call → Prop
  | _, [] => True
  | s, c :: cs =>
      admitted s c ∧ ∀ s' r, call s c = some (s', r) → CallsAdmitted call admitted s' cs

variable {call : State → Call → Option (State × Return)}
  {reference : Reference → Call → Reference × Return}

@[simp]
theorem runReference_nil (a : Reference) : runReference reference a [] = (a, []) :=
  rfl

theorem runReference_cons (a : Reference) (c : Call) (cs : List Call) :
    runReference reference a (c :: cs) =
      ((runReference reference (reference a c).1 cs).1,
        (reference a c).2 :: (runReference reference (reference a c).1 cs).2) :=
  rfl

/-- A call that is admitted and does not fault, in front of admitted calls. -/
theorem CallsAdmitted.cons {admitted : State → Call → Prop} {s s' : State} {r : Return}
    {c : Call} {cs : List Call} (hc : admitted s c) (hcall : call s c = some (s', r))
    (hrest : CallsAdmitted call admitted s' cs) : CallsAdmitted call admitted s (c :: cs) := by
  refine ⟨hc, fun s₁ r₁ hcall₁ => ?_⟩
  rw [hcall, Option.some.injEq, Prod.mk.injEq] at hcall₁
  exact hcall₁.1 ▸ hrest

/-- Data refinement: from related states, a sequence of admitted calls does not fault,
returns what the reference returns, and ends in related states. -/
theorem runCalls_refines {R : State → Reference → Prop} {admitted : State → Call → Prop}
    (hcall : ∀ s a c, R s a → admitted s c →
      ∃ s', call s c = some (s', (reference a c).2) ∧ R s' (reference a c).1)
    {s : State} {a : Reference} (hR : R s a) {cs : List Call}
    (hadmitted : CallsAdmitted call admitted s cs) :
    ∃ s', runCalls call s cs = some (s', (runReference reference a cs).2) ∧
      R s' (runReference reference a cs).1 := by
  induction cs generalizing s a with
  | nil => exact ⟨s, rfl, hR⟩
  | cons c cs ih =>
      rcases hcall s a c hR hadmitted.1 with ⟨s₁, hfirst, hR₁⟩
      rcases ih hR₁ (hadmitted.2 s₁ _ hfirst) with ⟨s', hrest, hR'⟩
      refine ⟨s', ?_, hR'⟩
      simp only [runCalls, hfirst, hrest, Option.bind_eq_bind, Option.bind_some,
        runReference_cons, Option.pure_def]

/-- What every call on the reference preserves, together with the results so far, a
sequence of calls preserves. -/
theorem runReference_invariant {P : Reference → List (Call × Return) → Prop}
    (hcall : ∀ a c log, P a log → P (reference a c).1 (log ++ [(c, (reference a c).2)]))
    {a : Reference} {log : List (Call × Return)} (hP : P a log) (cs : List Call) :
    P (runReference reference a cs).1 (log ++ cs.zip (runReference reference a cs).2) := by
  induction cs generalizing a log with
  | nil => simpa using hP
  | cons c cs ih =>
      have hrest := ih (hcall a c log hP)
      simpa [runReference_cons] using hrest

/-! ## Calls that are not always possible -/

/-- The same call on two structures: it is possible on neither of them, or on both, and then
it returns the same and leaves related states. -/
inductive CallsAgree (R : State → Reference → Prop) :
    Option (State × Return) → Option (Reference × Return) → Prop
  | impossible : CallsAgree R none none
  | possible {s : State} {a : Reference} {r : Return} (hR : R s a) :
      CallsAgree R (some (s, r)) (some (a, r))

namespace CallsAgree

variable {Returned : Type x} {R : State → Reference → Prop}
  {result : Option (State × Returned)} {referenceResult : Option (Reference × Returned)}

/-- If the first state has a view, which is the second one, the results have. -/
theorem map_eq {view : State → Reference} (hview : ∀ s a, R s a → view s = a)
    (h : CallsAgree R result referenceResult) :
    result.map (Prod.map view id) = referenceResult := by
  cases h with
  | impossible => rfl
  | possible hR => rw [Option.map_some, Prod.map_apply, hview _ _ hR, id_eq]

/-- A call that is possible on the first structure. -/
theorem of_eq_some {s : State} {r : Returned} (h : CallsAgree R result referenceResult)
    (hresult : result = some (s, r)) : ∃ a, referenceResult = some (a, r) ∧ R s a := by
  cases h with
  | impossible => contradiction
  | possible hR =>
      simp only [Option.some.injEq, Prod.mk.injEq] at hresult
      rcases hresult with ⟨rfl, rfl⟩
      exact ⟨_, rfl, hR⟩

end CallsAgree

/-- If every call agrees from related states, so does every sequence of calls. -/
theorem runCalls_agree {R : State → Reference → Prop}
    {referenceCall : Reference → Call → Option (Reference × Return)}
    (hcall : ∀ s a c, R s a → CallsAgree R (call s c) (referenceCall a c))
    {s : State} {a : Reference} (hR : R s a) (cs : List Call) :
    CallsAgree R (runCalls call s cs) (runCalls referenceCall a cs) := by
  induction cs generalizing s a with
  | nil => exact .possible hR
  | cons c cs ih =>
      have hfirst := hcall s a c hR
      simp only [runCalls]
      generalize call s c = first, referenceCall a c = referenceFirst at hfirst
      cases hfirst with
      | impossible => exact .impossible
      | @possible s₁ a₁ r hR₁ =>
          have hrest := ih hR₁
          simp only [Option.bind_eq_bind, Option.bind_some]
          generalize runCalls call s₁ cs = rest,
            runCalls referenceCall a₁ cs = referenceRest at hrest
          cases hrest with
          | impossible => exact .impossible
          | possible hR₂ => exact .possible hR₂

end Calls

end Foundations
