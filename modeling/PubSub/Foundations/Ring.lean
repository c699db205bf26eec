import Mathlib.Data.List.Basic
import Mathlib.Data.Nat.ModEq
import Mathlib.Logic.Function.Basic

/-!
# Ring buffers

A ring buffer of {lit}`capacity` slots stores a bounded queue in an array: the
queue starts at the index {lit}`use` and continues modulo the capacity up to the
index {lit}`fill`.  A full and an empty ring have the same two indices, so the
number of stored elements is part of the representation.

Main results:

- Theorems {lit}`Ring.push` and {lit}`Ring.pop`: writing at {lit}`fill` appends
  to the stored queue and reading at {lit}`use` takes its first element.
- Theorem {lit}`Ring.contents_eq`: the queue can be computed from the array.
-/

namespace Foundations

universe u

/-- The slots of a ring from index {lit}`use` on, in order. -/
def ringContents {α : Type u} (capacity : Nat) (array : Nat → α) (use count : Nat) : List α :=
  (List.range count).map fun k => array ((use + k) % capacity)

/-- The array, read from {lit}`use` to {lit}`fill`, stores the queue {lit}`xs`. -/
structure Ring {α : Type u} (capacity : Nat) (array : Nat → α) (use fill : Nat)
    (xs : List α) : Prop where
  use_lt : use < capacity
  length_le : xs.length ≤ capacity
  fill_eq : fill = (use + xs.length) % capacity
  slot : ∀ k x, xs[k]? = some x → array ((use + k) % capacity) = x

namespace Ring

variable {α : Type u} {capacity : Nat} {array : Nat → α} {use fill : Nat} {xs : List α}

/-- With both indices zero the ring is empty, whatever its slots hold. -/
theorem nil (hpos : 0 < capacity) (array : Nat → α) : Ring capacity array 0 0 [] where
  use_lt := hpos
  length_le := Nat.zero_le _
  fill_eq := by simp
  slot := by simp

/-- Two slots of a ring that are less than a capacity apart are different. -/
theorem index_ne {capacity use j k : Nat} (hjk : j < k) (hk : k < capacity + j) :
    (use + j) % capacity ≠ (use + k) % capacity := by
  intro heq
  have hdvd : capacity ∣ (use + k) - (use + j) :=
    (Nat.modEq_iff_dvd' (by omega)).mp heq
  have hle := Nat.le_of_dvd (by omega) hdvd
  omega

/-- Writing the slot at {lit}`fill` and advancing it appends to the queue.  The
slots in use are not overwritten because the ring is not full. -/
theorem push (hring : Ring capacity array use fill xs) (x : α)
    (hspace : xs.length < capacity) :
    Ring capacity (Function.update array fill x) use ((fill + 1) % capacity) (xs ++ [x]) where
  use_lt := hring.use_lt
  length_le := by
    simp only [List.length_append, List.length_cons, List.length_nil]
    omega
  fill_eq := by
    rw [hring.fill_eq, List.length_append, List.length_cons, List.length_nil,
      Nat.mod_add_mod, Nat.add_assoc]
  slot := by
    intro k y hk
    rw [hring.fill_eq]
    by_cases hlt : k < xs.length
    · rw [List.getElem?_append_left hlt] at hk
      rw [Function.update_of_ne (index_ne hlt (by omega))]
      exact hring.slot k y hk
    · have hlen : k < (xs ++ [x]).length := (List.getElem?_eq_some_iff.mp hk).1
      have heq : k = xs.length := by
        simp only [List.length_append, List.length_cons, List.length_nil] at hlen
        omega
      subst heq
      rw [Function.update_self]
      simpa using hk

/-- Reading the slot at {lit}`use` and advancing it takes the first element. -/
theorem pop {x : α} (hring : Ring capacity array use fill (x :: xs)) :
    array use = x ∧ Ring capacity array ((use + 1) % capacity) fill xs := by
  have hpos : 0 < capacity := Nat.lt_of_le_of_lt (Nat.zero_le _) hring.use_lt
  have hlen := hring.length_le
  rw [List.length_cons] at hlen
  constructor
  · have h := hring.slot 0 x rfl
    rwa [Nat.add_zero, Nat.mod_eq_of_lt hring.use_lt] at h
  · refine ⟨Nat.mod_lt _ hpos, by omega, ?_, ?_⟩
    · rw [hring.fill_eq, List.length_cons, Nat.mod_add_mod]
      congr 1
      omega
    · intro k y hk
      have h := hring.slot (k + 1) y (by simpa using hk)
      rw [Nat.mod_add_mod]
      rwa [show use + 1 + k = use + (k + 1) by omega]

/-- The stored queue is what the slots from {lit}`use` on hold. -/
theorem contents_eq (hring : Ring capacity array use fill xs) :
    ringContents capacity array use xs.length = xs := by
  apply List.ext_getElem
  · simp [ringContents]
  · intro k h₁ h₂
    simp only [ringContents, List.getElem_map, List.getElem_range]
    exact hring.slot k _ (List.getElem?_eq_getElem h₂)

end Ring

end Foundations
