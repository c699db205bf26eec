import Mathlib.Control.Monad.Writer
import PubSub.Foundations.CString

/-!
# Computations that record sizes

The primitives for blocks, instrumented: each one records the size of the block or of the
destination that it is given.  What it returns stays what the plain primitive returns.

Main results:

- Theorem {lit}`erase_bind`: erasing the records is a homomorphism.
- Theorem {lit}`Records.run_eq`: an instrumented computation in terms of the plain one and of
  what it records.
- Theorem {lit}`Records.bind`: a sequence of computations records what each one does.
-/

namespace Foundations

/-- A computation that may fail and records sizes. -/
abbrev Sized :=
  WriterT (List Int) Option

namespace Sized

variable {α β : Type}

/-- The computation without its records. -/
def erase (x : Sized α) : Option α :=
  x.run.map Prod.fst

/-- If the computation succeeds, it has recorded these sizes. -/
def Records (x : Sized α) (sizes : List Int) : Prop :=
  ∀ a recorded, x.run = some (a, recorded) → recorded = sizes

/-! ## Erasing the records -/

theorem run_pure (a : α) : (pure a : Sized α).run = some (a, []) :=
  rfl

theorem run_bind (x : Sized α) (f : α → Sized β) :
    (x >>= f).run = x.run.bind fun (a, sizes) =>
      (f a).run.map fun (b, sizes') => (b, sizes ++ sizes') :=
  rfl

theorem run_lift (x : Option α) : (liftM x : Sized α).run = x.map fun a => (a, []) :=
  rfl

@[simp]
theorem erase_pure (a : α) : erase (pure a) = some a :=
  rfl

@[simp]
theorem erase_lift (x : Option α) : erase (liftM x) = x := by
  rw [erase, run_lift, Option.map_map]
  exact Option.map_id'

@[simp]
theorem erase_tell (sizes : List Int) : erase (tell sizes) = some PUnit.unit :=
  rfl

@[simp]
theorem erase_bind (x : Sized α) (f : α → Sized β) :
    erase (x >>= f) = (erase x).bind fun a => erase (f a) := by
  simp only [erase, run_bind]
  cases x.run with
  | none => rfl
  | some a => simp [Function.comp_def]

/-! ## What is recorded -/

theorem Records.run_eq {x : Sized α} {sizes : List Int} (hx : Records x sizes) :
    x.run = (erase x).map fun a => (a, sizes) := by
  rw [erase]
  cases h : x.run with
  | none => rfl
  | some result =>
      have hsizes := hx result.1 result.2 h
      simp [← hsizes]

theorem Records.pure (a : α) : Records (pure a) [] := by
  intro b sizes h
  rw [run_pure, Option.some.injEq, Prod.mk.injEq] at h
  exact h.2.symm

theorem Records.lift (x : Option α) : Records (liftM x) [] := by
  intro a sizes h
  rw [run_lift, Option.map_eq_some_iff] at h
  rcases h with ⟨b, -, heq⟩
  rw [Prod.mk.injEq] at heq
  exact heq.2.symm

theorem Records.tell (sizes : List Int) : Records (tell sizes) sizes := by
  intro a sizes' h
  rcases h
  rfl

theorem Records.bind {x : Sized α} {f : α → Sized β} {s t : List Int} (hx : Records x s)
    (hf : ∀ a, erase x = some a → Records (f a) t) : Records (x >>= f) (s ++ t) := by
  intro b recorded h
  rw [run_bind, Option.bind_eq_some_iff] at h
  rcases h with ⟨⟨a, sizes₁⟩, ha, hb⟩
  rw [Option.map_eq_some_iff] at hb
  rcases hb with ⟨⟨b', sizes₂⟩, hb, heq⟩
  rw [Prod.mk.injEq] at heq
  have herase : erase x = some a := by rw [erase, ha, Option.map_some]
  rw [← heq.2, hx a sizes₁ ha, hf a herase b' sizes₂ hb]

/-- A computation that records nothing, followed by another one. -/
theorem Records.bind_lift {x : Option α} {f : α → Sized β} {sizes : List Int}
    (hf : ∀ a, x = some a → Records (f a) sizes) :
    Records ((liftM x : Sized α) >>= f) sizes :=
  (Records.lift x).bind (t := sizes) fun a ha => hf a (by rwa [erase_lift] at ha)

/-! ## The instrumented primitives -/

/-- {lit}`malloc` records the size of the block. -/
def malloc (size : Int) : Sized Block := do
  tell [size]
  Foundations.malloc size

/-- {lit}`memcpy_s` records the size of the destination. -/
def memcpyS (dest : Block) (offset : Nat) (destSize : Int) (src : Bytes) (count : Int) :
    Sized Block := do
  tell [destSize]
  Foundations.memcpyS dest offset destSize src count

/-- {lit}`strcpy_s` records the size of the destination. -/
def strcpyS (dest : Block) (offset : Nat) (destSize : Int) (src : Bytes) : Sized Block := do
  tell [destSize]
  Foundations.strcpyS dest offset destSize src

theorem Records.malloc (size : Int) : Records (Sized.malloc size) [size] :=
  (Records.tell [size]).bind (t := []) fun _ _ => Records.lift _

theorem Records.memcpyS (dest : Block) (offset : Nat) (destSize : Int) (src : Bytes)
    (count : Int) : Records (Sized.memcpyS dest offset destSize src count) [destSize] :=
  (Records.tell [destSize]).bind (t := []) fun _ _ => Records.lift _

theorem Records.strcpyS (dest : Block) (offset : Nat) (destSize : Int) (src : Bytes) :
    Records (Sized.strcpyS dest offset destSize src) [destSize] :=
  (Records.tell [destSize]).bind (t := []) fun _ _ => Records.lift _

@[simp]
theorem erase_malloc (size : Int) : erase (malloc size) = Foundations.malloc size := by
  simp [malloc]

@[simp]
theorem erase_memcpyS (dest : Block) (offset : Nat) (destSize : Int) (src : Bytes)
    (count : Int) : erase (memcpyS dest offset destSize src count) =
      Foundations.memcpyS dest offset destSize src count := by
  simp [memcpyS]

@[simp]
theorem erase_strcpyS (dest : Block) (offset : Nat) (destSize : Int) (src : Bytes) :
    erase (strcpyS dest offset destSize src) = Foundations.strcpyS dest offset destSize src := by
  simp [strcpyS]

/-- Allocate a copy of the string without its first {lit}`offset` bytes. -/
def copyFrom (offset : Nat) (src : Bytes) : Sized Bytes := do
  let length ← (strlen src : Sized Nat)
  let size : Int := (length : Int) + 1 - offset
  let block ← malloc size
  let block ← strcpyS block 0 size (src.drop offset)
  (block.cstring : Sized Bytes)

@[simp]
theorem erase_copyFrom (offset : Nat) (src : Bytes) :
    erase (copyFrom offset src) = Foundations.copyFrom offset src := by
  simp [copyFrom, Foundations.copyFrom]

/-- The block and the destination have the size of what is copied, with its terminator. -/
theorem Records.copyFrom (offset : Nat) {src : Bytes} {length : Nat}
    (hlength : strlen src = some length) :
    Records (Sized.copyFrom offset src)
      [(length : Int) + 1 - offset, (length : Int) + 1 - offset] := by
  refine Records.bind_lift fun k hk => ?_
  rw [hlength, Option.some.injEq] at hk
  subst hk
  refine (Records.malloc _).bind (t := [_]) fun block _ => ?_
  refine (Records.strcpyS _ _ _ _).bind (t := []) fun block _ => ?_
  exact Records.lift _

end Sized

end Foundations
