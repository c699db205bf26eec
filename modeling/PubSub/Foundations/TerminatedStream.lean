import PubSub.Foundations.Framing
import PubSub.Foundations.Tokens

/-!
# Streams of terminated strings

Strings that are sent one after the other, each with its terminator, make up one stream of
bytes.  It can be cut anywhere, and what is behind a cut need not begin with a string.

Main results:

- Theorem {lit}`cut_terminated`: a cut is between two strings, or behind a byte of one of them.
- Theorem {lit}`begun_append`: the strings that begin in front of a cut and those that begin
  behind it.
- Theorem {lit}`length_frameStarts_le`: the scanning loop runs its body at most once for every
  string that begins in the part of the buffer that is not zero.
-/

namespace Foundations

/-- Is the end of the bytes inside a string?  The flag tells whether their beginning is. -/
def endsInside : Bool → Bytes → Bool
  | inside, [] => inside
  | _, b :: bs => endsInside (b ≠ 0) bs

/-- The number of strings that begin in the bytes. -/
def begun : Bool → Bytes → Nat
  | _, [] => 0
  | inside, b :: bs => (if inside then 0 else 1) + begun (b ≠ 0) bs

/-- How a stream can be cut in two. -/
inductive Cut (strings : List Bytes) (taken dropped : Bytes) : Prop
  | between (before after : List Bytes) (hstrings : strings = before ++ after)
      (htaken : taken = terminated 0 before) (hdropped : dropped = terminated 0 after)
  | inside (before : List Bytes) (head tail : Bytes) (after : List Bytes) (hhead : head ≠ [])
      (hstrings : strings = before ++ (head ++ tail) :: after)
      (htaken : taken = terminated 0 before ++ head)
      (hdropped : dropped = tail ++ 0 :: terminated 0 after)

@[simp]
theorem terminated_nil (delimiter : Byte) : terminated delimiter [] = [] :=
  rfl

theorem terminated_append {delimiter : Byte} (ts us : List Bytes) :
    terminated delimiter (ts ++ us) = terminated delimiter ts ++ terminated delimiter us :=
  List.flatMap_append

theorem terminated_nul_cons (s : Bytes) (strings : List Bytes) :
    terminated 0 (s :: strings) = s ++ 0 :: terminated 0 strings := by
  rw [terminated_cons, List.append_assoc, List.singleton_append]

/-- The strings of a stream are determined. -/
theorem terminated_injective {strings strings' : List Bytes} (hfree : ∀ s ∈ strings, NulFree s)
    (hfree' : ∀ s ∈ strings', NulFree s) (h : terminated 0 strings = terminated 0 strings') :
    strings = strings' := by
  induction strings generalizing strings' with
  | nil =>
      cases strings' with
      | nil => rfl
      | cons s' strings' => simp [terminated_nul_cons] at h
  | cons s strings ih =>
      cases strings' with
      | nil => simp [terminated_nul_cons] at h
      | cons s' strings' =>
          rw [terminated_nul_cons, terminated_nul_cons] at h
          have hs : some s = some s' := by
            rw [← cstring_append (hfree s (by simp)), h, cstring_append (hfree' s' (by simp))]
          rw [Option.some.injEq] at hs
          subst hs
          rw [List.append_cancel_left_eq, List.cons.injEq] at h
          rw [ih (fun t ht => hfree t (by simp [ht])) (fun t ht => hfree' t (by simp [ht])) h.2]

/-- Every cut is one of these. -/
theorem cut_terminated {strings : List Bytes} {taken dropped : Bytes}
    (h : taken ++ dropped = terminated 0 strings) : Cut strings taken dropped := by
  rcases prefix_terminated_cases ⟨dropped, h⟩ with
    ⟨before, s, after, head, hstrings, ⟨tail, rfl⟩, htaken⟩ | htaken
  · rw [htaken, hstrings, terminated_append, terminated_nul_cons, List.append_assoc,
      List.append_assoc, List.append_cancel_left_eq, List.append_cancel_left_eq] at h
    by_cases hhead : head = []
    · rw [hhead, List.append_nil] at htaken
      rw [hhead, List.nil_append] at hstrings
      exact .between before (tail :: after) hstrings htaken (by rw [h, terminated_nul_cons])
    · exact .inside before head tail after hhead hstrings htaken h
  · rw [htaken] at h
    exact .between strings [] (List.append_nil _).symm htaken (List.append_right_eq_self.mp h)

/-! ## Where strings begin -/

theorem endsInside_append (inside : Bool) (bs bs' : Bytes) :
    endsInside inside (bs ++ bs') = endsInside (endsInside inside bs) bs' := by
  induction bs generalizing inside with
  | nil => rfl
  | cons b bs ih => exact ih _

/-- Behind a string the flag depends on whether there is one. -/
theorem endsInside_nulFree {s : Bytes} (hs : NulFree s) (inside : Bool) :
    endsInside inside s = (inside || decide (s ≠ [])) := by
  induction s generalizing inside with
  | nil => simp [endsInside]
  | cons b s ih =>
      rw [nulFree_cons] at hs
      rw [endsInside, ih hs.2]
      simp [hs.1]

theorem endsInside_terminated (inside : Bool) (strings : List Bytes) :
    endsInside inside (terminated 0 strings) = (inside && decide (strings = [])) := by
  induction strings generalizing inside with
  | nil => simp [endsInside]
  | cons s strings ih =>
      rw [terminated_nul_cons, endsInside_append, endsInside, ih]
      simp

/-- A cut that is not inside a string is between two. -/
theorem Cut.exists_between {strings : List Bytes} {taken dropped : Bytes}
    (hcut : Cut strings taken dropped) (hfree : ∀ s ∈ strings, NulFree s) {inside : Bool}
    (hend : endsInside inside taken = false) :
    ∃ before after, strings = before ++ after ∧ taken = terminated 0 before ∧
      dropped = terminated 0 after := by
  rcases hcut with ⟨before, after, hstrings, htaken, hdropped⟩ |
    ⟨before, head, tail, after, hhead, hstrings, htaken, -⟩
  · exact ⟨before, after, hstrings, htaken, hdropped⟩
  · have hsplit : NulFree (head ++ tail) := hfree _ (by simp [hstrings])
    rw [nulFree_append] at hsplit
    rw [htaken, endsInside_append, endsInside_nulFree hsplit.1] at hend
    simp [hhead] at hend

/-- The strings that begin in front of a cut and those that begin behind it. -/
theorem begun_append (inside : Bool) (bs bs' : Bytes) :
    begun inside (bs ++ bs') = begun inside bs + begun (endsInside inside bs) bs' := by
  induction bs generalizing inside with
  | nil => simp [begun, endsInside]
  | cons b bs ih =>
      rw [List.cons_append, begun, begun, endsInside, ih, Nat.add_assoc]

/-- Inside a string none begins. -/
theorem begun_nulFree {s : Bytes} (hs : NulFree s) : begun true s = 0 := by
  induction s with
  | nil => rfl
  | cons b s ih =>
      rw [nulFree_cons] at hs
      simp [begun, hs.1, ih hs.2]

theorem begun_terminated {strings : List Bytes} (hfree : ∀ s ∈ strings, NulFree s) :
    begun false (terminated 0 strings) = strings.length := by
  induction strings with
  | nil => rfl
  | cons s strings ih =>
      have hs : NulFree s := hfree s (by simp)
      have hfirst : begun false (s ++ 0 :: terminated 0 strings) =
          1 + begun false (terminated 0 strings) := by
        cases s with
        | nil => simp [begun]
        | cons b s =>
            rw [nulFree_cons] at hs
            rw [List.cons_append, begun, begun_append, decide_eq_true hs.1, begun_nulFree hs.2]
            simp [begun, endsInside_nulFree hs.2]
      rw [terminated_nul_cons, hfirst, ih fun t ht => hfree t (by simp [ht]), List.length_cons,
        Nat.add_comm]

/-- The scanning loop runs its body at most once for every string that begins in front of the
zeros. -/
theorem length_frameStarts_le {mark : Byte} (hmark : mark ≠ 0) {inside : Bool} {i j k : Nat}
    {bs : Bytes} {starts : List (Nat × Bytes)}
    (h : frameStarts mark inside i (bs ++ zeros k) = some (starts, j)) :
    starts.length ≤ begun inside bs := by
  induction bs generalizing inside i j starts with
  | nil =>
      -- behind the zeros the loop ends, or has left the buffer
      have hzeros : ∀ (inside : Bool) (i k : Nat),
          frameStarts mark inside i (zeros k) = some (starts, j) → starts = [] := by
        intro inside i k hstarts
        induction k generalizing inside i with
        | zero => simp [zeros, frameStarts] at hstarts
        | succ k ih =>
            rw [zeros_succ] at hstarts
            cases inside with
            | true =>
                rw [frameStarts, if_pos rfl] at hstarts
                exact ih _ _ hstarts
            | false =>
                rw [frameStarts, if_neg hmark.symm, Option.some.injEq, Prod.mk.injEq] at hstarts
                exact hstarts.1.symm
      rw [hzeros _ _ _ h]
      simp
  | cons b bs ih =>
      rw [List.cons_append] at h
      cases inside with
      | true =>
          rw [frameStarts] at h
          split at h
          · next hb =>
            have hle := ih h
            simpa [begun, hb] using hle
          · next hb =>
            have hle := ih h
            simpa [begun, hb] using hle
      | false =>
          rw [frameStarts] at h
          split at h
          · next hb =>
            rw [Option.map_eq_some_iff] at h
            rcases h with ⟨⟨rest, j'⟩, hrest, hpair⟩
            rw [Prod.mk.injEq] at hpair
            have hle := ih hrest
            rw [← hpair.1, List.length_cons, begun, hb, decide_eq_true hmark]
            simp only [Bool.false_eq_true, if_false]
            omega
          · rw [Option.some.injEq, Prod.mk.injEq] at h
            simp [← h.1]

end Foundations
