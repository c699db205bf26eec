import PubSub.Foundations.Framing

/-!
# Computations that may fault

A computation ends with a result or with a fault.  An assertion about it says what holds
of the result and which faults are possible; with no possible fault it is a total
correctness statement.

Main results:

- Theorems {lit}`Outcome.bind` and {lit}`Outcome.ofOption`: the rules for composing
  computations and for reading something that may be missing.
- Theorem {lit}`Outcome.frameLoop`: the rule for a loop over a buffer of frames, whose state
  is an outcome itself.
-/

namespace Foundations

universe u v w

variable {ε : Type u} {α : Type v} {β : Type v}

/-- The computation ends with a result that satisfies {lit}`post`, or with one of the possible
faults. -/
inductive Outcome (fault : ε → Prop) (post : α → Prop) : Except ε α → Prop
  | ok {a : α} (ha : post a) : Outcome fault post (.ok a)
  | error {e : ε} (he : fault e) : Outcome fault post (.error e)

/-- A value, or a fault where there is none. -/
def orFault (e : ε) : Option α → Except ε α
  | none => .error e
  | some a => .ok a

namespace Outcome

variable {fault : ε → Prop} {post : α → Prop} {post' : β → Prop}

theorem pure {a : α} (ha : post a) : Outcome fault post (Pure.pure a) :=
  .ok ha

/-- Composition: the second computation starts from what the first one guarantees. -/
theorem bind {P : α → Prop} {x : Except ε α} {f : α → Except ε β} (hx : Outcome fault P x)
    (hf : ∀ a, P a → Outcome fault post' (f a)) : Outcome fault post' (x >>= f) := by
  cases hx with
  | ok ha => exact hf _ ha
  | error he => exact .error he

/-- Consequence. -/
theorem imp {post' : α → Prop} {x : Except ε α} (hx : Outcome fault post x)
    (himp : ∀ a, post a → post' a) : Outcome fault post' x := by
  cases hx with
  | ok ha => exact .ok (himp _ ha)
  | error he => exact .error he

/-- Something that is there. -/
theorem ofOption {o : Option α} {a : α} {e : ε} (ho : o = some a) (ha : post a) :
    Outcome fault post (orFault e o) := by
  rw [ho]
  exact .ok ha

/-- Something that may be missing, where the fault is possible. -/
theorem ofOption' {o : Option α} {e : ε} (he : fault e) (ho : ∀ a, o = some a → post a) :
    Outcome fault post (orFault e o) := by
  cases o with
  | none => exact .error he
  | some a => exact .ok (ho a rfl)

/-- What holds of a result. -/
theorem of_ok {a : α} (h : Outcome fault post (.ok a)) : post a := by
  cases h with
  | ok ha => exact ha

/-- A fault is a possible one. -/
theorem of_error {e : ε} (h : Outcome fault post (.error e)) : fault e := by
  cases h with
  | error he => exact he

/-- Without a possible fault there is a result. -/
theorem exists_ok {x : Except ε α} (hx : Outcome (fun _ => False) post x) :
    ∃ a, x = .ok a ∧ post a := by
  cases hx with
  | ok ha => exact ⟨_, rfl, ha⟩
  | error he => exact he.elim

/-- A loop over a buffer of frames.  Its state is an outcome, so that a fault of the body is
kept. -/
theorem frameLoop {mark : Byte} {body : Nat → Bytes → α → Except ε α} {i j : Nat} {bs : Bytes}
    {x y : Except ε α}
    (h : frameLoop mark (fun i bs x => some (x >>= body i bs)) false i bs x = some (y, j))
    (hbody : ∀ i bs a, post a → Outcome fault post (body i bs a)) (hx : Outcome fault post x) :
    Outcome fault post y := by
  refine frameLoop_invariant (P := Outcome fault post) ?_ h hx
  intro i bs x x' hx hx'
  rw [Option.some.injEq] at hx'
  subst hx'
  exact hx.bind fun a ha => hbody i bs a ha

end Outcome

end Foundations
