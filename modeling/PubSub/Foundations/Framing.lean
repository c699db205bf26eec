import Mathlib.Algebra.GroupWithZero.Nat
import PubSub.Foundations.CString

/-!
# Buffers of frames

A frame is a mark byte, a text without terminators, and a terminator.  A loop over a
buffer finds the frames at its beginning: it looks for the mark, runs its body on the
text, skips to the byte behind the terminator, and ends at a byte that is not the mark.

Main results:

- Theorems {lit}`frameLoop_frame` and {lit}`frameLoop_frames`: one round, and a whole run, of
  the loop over a buffer of frames.
- Theorem {lit}`frameLoop_invariant`: what every run of the body preserves, the loop
  preserves.
- Theorem {lit}`frameLoop_eq_foldlM`: where the loop runs its body does not depend on the
  body.
- Theorem {lit}`frameStarts_frames`: where that is in a buffer of frames.
- Theorem {lit}`frameReads_lt_iff`: the loop ends exactly when it stays in the buffer.
- Theorem {lit}`frameStarts_beginning`: it leaves a buffer that is full of frames, the last of
  which may be cut.
- Theorem {lit}`weight_frameStrings_le`: no byte belongs to two of the strings found.
-/

namespace Foundations

universe u

/-! ## The scanning loop -/

section FrameLoop

variable {σ : Type u}

/-- The loop over a buffer that holds terminated frames.  At the beginning of a
frame (flag {lit}`false`) the loop ends unless it sees the byte {lit}`mark`; there it
runs {lit}`body`, which is given the index of the mark and the bytes behind it, and
then skips everything up to and including the next terminator (flag
{lit}`true`).  The result carries the index at which the loop ended. -/
def frameLoop (mark : Byte) (body : Nat → Bytes → σ → Option σ) :
    Bool → Nat → Bytes → σ → Option (σ × Nat)
  | _, _, [], _ => none
  | false, i, b :: bs, s =>
      if b = mark then (body i bs s).bind (frameLoop mark body true (i + 1) bs)
      else some (s, i)
  | true, i, b :: bs, s =>
      if b = 0 then frameLoop mark body false (i + 1) bs s
      else frameLoop mark body true (i + 1) bs s

variable {mark : Byte} {body : Nat → Bytes → σ → Option σ}

/-- The loop ends at a byte that is not the mark. -/
theorem frameLoop_stop {b : Byte} (hb : b ≠ mark) (i : Nat) (bs : Bytes) (s : σ) :
    frameLoop mark body false i (b :: bs) s = some (s, i) := by
  simp [frameLoop, hb]

/-- Inside a frame the loop skips to the byte behind the terminator. -/
theorem frameLoop_skip {f : Bytes} (hf : NulFree f) (i : Nat) (rest : Bytes) (s : σ) :
    frameLoop mark body true i (f ++ 0 :: rest) s =
      frameLoop mark body false (i + f.length + 1) rest s := by
  induction f generalizing i with
  | nil => simp [frameLoop]
  | cons b f ih =>
      rw [nulFree_cons] at hf
      rw [List.cons_append, frameLoop, if_neg hf.1, ih hf.2, List.length_cons]
      congr 1
      omega

/-- The same for memory that need not be a frame. -/
theorem frameLoop_skipTo {bs : Bytes} {length : Nat} (hscan : scanUntil 0 bs = some length)
    (i : Nat) (s : σ) :
    frameLoop mark body true i bs s =
      frameLoop mark body false (i + length + 1) (bs.drop (length + 1)) s := by
  induction bs generalizing i length with
  | nil => simp [scanUntil] at hscan
  | cons b bs ih =>
      rw [scanUntil] at hscan
      split at hscan
      · next hb =>
        rw [Option.some.injEq] at hscan
        subst hscan
        rw [frameLoop, if_pos hb, List.drop_succ_cons, List.drop_zero, Nat.add_zero]
      · next hb =>
        rw [Option.map_eq_some_iff] at hscan
        rcases hscan with ⟨length, hscan, rfl⟩
        rw [frameLoop, if_neg hb, ih hscan, List.drop_succ_cons]
        congr 1
        omega

/-- One frame: the body runs once, and the loop goes on behind the terminator. -/
theorem frameLoop_frame {f : Bytes} (hf : NulFree f) (i : Nat) (rest : Bytes) (s : σ) :
    frameLoop mark body false i (mark :: f ++ 0 :: rest) s =
      (body i (f ++ 0 :: rest) s).bind
        (frameLoop mark body false (i + f.length + 2) rest) := by
  rw [List.cons_append, frameLoop, if_pos rfl]
  congr 1
  funext s'
  rw [frameLoop_skip hf]
  congr 1
  omega

/-- What every run of the body preserves, the loop preserves. -/
theorem frameLoop_invariant {P : σ → Prop}
    (hbody : ∀ i bs s s', P s → body i bs s = some s' → P s') {inside : Bool} {i j : Nat}
    {bs : Bytes} {s s' : σ} (h : frameLoop mark body inside i bs s = some (s', j)) (hs : P s) :
    P s' := by
  induction bs generalizing inside i s with
  | nil => simp [frameLoop] at h
  | cons b bs ih =>
      cases inside with
      | true =>
          rw [frameLoop] at h
          split at h
          · exact ih h hs
          · exact ih h hs
      | false =>
          rw [frameLoop] at h
          split at h
          · rw [Option.bind_eq_some_iff] at h
            rcases h with ⟨t, ht, hrest⟩
            exact ih hrest (hbody i bs s t hs ht)
          · rw [Option.some.injEq, Prod.mk.injEq] at h
            exact h.1 ▸ hs

/-- A part of the state that the body changes without looking at the rest of it. -/
theorem frameLoop_map {τ : Type u} (f : σ → τ) {body' : Nat → Bytes → τ → Option τ}
    (hbody : ∀ i bs s, (body i bs s).map f = body' i bs (f s)) (inside : Bool) (i : Nat)
    (bs : Bytes) (s : σ) :
    (frameLoop mark body inside i bs s).map (fun r => (f r.1, r.2)) =
      frameLoop mark body' inside i bs (f s) := by
  induction bs generalizing inside i s with
  | nil => simp [frameLoop]
  | cons b bs ih =>
      cases inside with
      | true =>
          rw [frameLoop, frameLoop]
          split
          · exact ih false (i + 1) s
          · exact ih true (i + 1) s
      | false =>
          rw [frameLoop, frameLoop]
          split
          · rw [← hbody]
            cases body i bs s with
            | none => simp
            | some t => simpa using ih true (i + 1) t
          · simp

/-- The index at which the loop ends: inside a frame, the loop goes on. -/
theorem le_of_frameLoop {inside : Bool} {i j : Nat} {bs : Bytes} {s s' : σ}
    (h : frameLoop mark body inside i bs s = some (s', j)) : (if inside then i + 1 else i) ≤ j := by
  induction bs generalizing inside i s with
  | nil => simp [frameLoop] at h
  | cons b bs ih =>
      cases inside with
      | true =>
          rw [frameLoop] at h
          split at h
          · have hle := ih h
            exact hle
          · have hle := ih h
            exact Nat.le_of_succ_le hle
      | false =>
          rw [frameLoop] at h
          split at h
          · rw [Option.bind_eq_some_iff] at h
            rcases h with ⟨t, -, hrest⟩
            have hle : i + 1 + 1 ≤ j := ih hrest
            exact Nat.le_of_succ_le (Nat.le_of_succ_le hle)
          · rw [Option.some.injEq, Prod.mk.injEq] at h
            exact Nat.le_of_eq h.2

/-- A loop that ends where it has begun has not run its body. -/
theorem eq_of_frameLoop {i : Nat} {bs : Bytes} {s s' : σ}
    (h : frameLoop mark body false i bs s = some (s', i)) : s' = s := by
  cases bs with
  | nil => simp [frameLoop] at h
  | cons b bs =>
      rw [frameLoop] at h
      split at h
      · rw [Option.bind_eq_some_iff] at h
        rcases h with ⟨t, -, hrest⟩
        have hle : i + 1 + 1 ≤ i := le_of_frameLoop hrest
        omega
      · rw [Option.some.injEq, Prod.mk.injEq] at h
        exact h.1.symm

/-- The frames at which the loop runs its body: index of the mark and bytes behind it,
together with the index at which the loop ends. -/
def frameStarts (mark : Byte) : Bool → Nat → Bytes → Option (List (Nat × Bytes) × Nat)
  | _, _, [] => none
  | false, i, b :: bs =>
      if b = mark then
        (frameStarts mark true (i + 1) bs).map fun (starts, j) => ((i, bs) :: starts, j)
      else some ([], i)
  | true, i, b :: bs =>
      if b = 0 then frameStarts mark false (i + 1) bs else frameStarts mark true (i + 1) bs

/-- Where the loop runs its body does not depend on the body. -/
theorem frameLoop_eq_foldlM (inside : Bool) (i : Nat) (bs : Bytes) (s : σ) :
    frameLoop mark body inside i bs s =
      (frameStarts mark inside i bs).bind fun (starts, j) =>
        (starts.foldlM (fun s start => body start.1 start.2 s) s).map (·, j) := by
  induction bs generalizing inside i s with
  | nil => simp [frameLoop, frameStarts]
  | cons b bs ih =>
      cases inside with
      | true =>
          rw [frameLoop, frameStarts]
          split
          · exact ih false (i + 1) s
          · exact ih true (i + 1) s
      | false =>
          rw [frameLoop, frameStarts]
          split
          · cases hbody : body i bs s with
            | none =>
                cases frameStarts mark true (i + 1) bs <;> simp [hbody]
            | some t =>
                rw [Option.bind_some, ih]
                cases frameStarts mark true (i + 1) bs <;> simp [hbody]
          · simp

/-- A buffer of frames, each behind a mark and with a terminator. -/
def framesOf (mark : Byte) (fs : List Bytes) : Bytes :=
  fs.flatMap fun f => mark :: f ++ [0]

@[simp]
theorem framesOf_nil : framesOf mark [] = [] := by
  simp [framesOf]

@[simp]
theorem framesOf_cons (f : Bytes) (fs : List Bytes) :
    framesOf mark (f :: fs) = mark :: f ++ 0 :: framesOf mark fs := by
  simp [framesOf]

theorem framesOf_append (fs gs : List Bytes) :
    framesOf mark (fs ++ gs) = framesOf mark fs ++ framesOf mark gs := by
  simp [framesOf]

theorem length_framesOf_replicate (k : Nat) (f : Bytes) :
    (framesOf mark (List.replicate k f)).length = k * (f.length + 2) := by
  simp [framesOf, List.flatMap_def]

/-- Over a buffer of frames the loop runs the body once for each of them, in order, if
the body looks no further than the terminator of its frame. -/
theorem frameLoop_frames {α : Type u} {text : α → Bytes} {act : α → σ → Option σ} {as : List α}
    (hfree : ∀ a ∈ as, NulFree (text a))
    (hbody : ∀ a ∈ as, ∀ i rest s, body i (text a ++ 0 :: rest) s = act a s)
    {b : Byte} (hb : b ≠ mark) (i : Nat) (bs : Bytes) (s : σ) :
    frameLoop mark body false i (framesOf mark (as.map text) ++ b :: bs) s =
      (as.foldlM (fun s a => act a s) s).map (·, i + (framesOf mark (as.map text)).length) := by
  induction as generalizing i s with
  | nil => simp [frameLoop_stop hb]
  | cons a as ih =>
      have hframe : framesOf mark ((a :: as).map text) ++ b :: bs =
          mark :: text a ++ 0 :: (framesOf mark (as.map text) ++ b :: bs) := by
        simp
      have hlength : i + (framesOf mark ((a :: as).map text)).length =
          i + (text a).length + 2 + (framesOf mark (as.map text)).length := by
        simp
        omega
      rw [hframe, frameLoop_frame (hfree a (by simp)), hbody a (by simp), List.foldlM_cons,
        hlength]
      cases act a s with
      | none => simp
      | some s' =>
          exact ih (fun c hc => hfree c (by simp [hc])) (fun c hc => hbody c (by simp [hc]))
            (i + (text a).length + 2) s'

/-- Inside a frame, nothing starts before its terminator. -/
theorem frameStarts_skip {f : Bytes} (hf : NulFree f) (i : Nat) (rest : Bytes) :
    frameStarts mark true i (f ++ 0 :: rest) = frameStarts mark false (i + f.length + 1) rest := by
  induction f generalizing i with
  | nil => simp [frameStarts]
  | cons b f ih =>
      rw [nulFree_cons] at hf
      rw [List.cons_append, frameStarts, if_neg hf.1, ih hf.2, List.length_cons]
      congr 1
      omega

/-- In a buffer of frames the loop runs its body once at each of them, in order. -/
theorem frameStarts_frames {fs : List Bytes} (hfree : ∀ f ∈ fs, NulFree f) {b : Byte}
    (hb : b ≠ mark) (i : Nat) (bs : Bytes) :
    ∃ starts, frameStarts mark false i (framesOf mark fs ++ b :: bs) =
        some (starts, i + (framesOf mark fs).length) ∧
      List.Forall₂ (fun f start => ∃ rest, start.2 = f ++ 0 :: rest) fs starts := by
  induction fs generalizing i with
  | nil => exact ⟨[], by simp [frameStarts, hb], .nil⟩
  | cons f fs ih =>
      rcases ih (fun g hg => hfree g (by simp [hg])) (i + 1 + f.length + 1) with
        ⟨starts, hstarts, hframes⟩
      have hframe : framesOf mark (f :: fs) ++ b :: bs =
          mark :: (f ++ 0 :: (framesOf mark fs ++ b :: bs)) := by
        simp
      refine ⟨(i, f ++ 0 :: (framesOf mark fs ++ b :: bs)) :: starts, ?_, .cons ⟨_, rfl⟩ hframes⟩
      rw [hframe, frameStarts, if_pos rfl, frameStarts_skip (hfree f (by simp)), hstarts]
      simp
      omega

/-! ## The bytes that the loop looks at -/

/-- The indices of the bytes that the loop looks at.  The last one is behind the buffer if
the loop leaves it. -/
def frameReads (mark : Byte) : Bool → Nat → Bytes → List Nat
  | _, i, [] => [i]
  | false, i, b :: bs => if b = mark then i :: frameReads mark true (i + 1) bs else [i]
  | true, i, b :: bs =>
      if b = 0 then i :: frameReads mark false (i + 1) bs else i :: frameReads mark true (i + 1) bs

/-- The loop ends exactly when it looks at no byte behind the buffer. -/
theorem frameReads_lt_iff (inside : Bool) (i : Nat) (bs : Bytes) :
    (∀ j ∈ frameReads mark inside i bs, j < i + bs.length) ↔
      (frameStarts mark inside i bs).isSome := by
  induction bs generalizing inside i with
  | nil => simp [frameReads, frameStarts]
  | cons b bs ih =>
      -- the byte at the index itself is in the buffer
      have hstep : ∀ inside, (∀ j ∈ i :: frameReads mark inside (i + 1) bs,
          j < i + (b :: bs).length) ↔ (frameStarts mark inside (i + 1) bs).isSome := by
        intro inside
        have hlength : i + (b :: bs).length = i + 1 + bs.length := by
          rw [List.length_cons]
          omega
        rw [← ih, hlength, List.forall_mem_cons]
        exact and_iff_right (by omega)
      cases inside with
      | true =>
          rw [frameReads, frameStarts]
          split
          · exact hstep false
          · exact hstep true
      | false =>
          rw [frameReads, frameStarts]
          split
          · rw [Option.isSome_map]
            exact hstep true
          · simp

/-- The same for a loop from the beginning of a buffer of known size. -/
theorem frameReads_lt_size_iff {bs : Bytes} {size : Nat} (hlength : bs.length = size) :
    (∀ i ∈ frameReads mark false 0 bs, i < size) ↔ (frameStarts mark false 0 bs).isSome := by
  have hreads := @frameReads_lt_iff mark false 0 bs
  rwa [Nat.zero_add, hlength] at hreads

/-- A loop that stays in the buffer ends, if its body does. -/
theorem isSome_frameLoop {inside : Bool} {i : Nat} {bs : Bytes}
    (hstarts : (frameStarts mark inside i bs).isSome)
    (hbody : ∀ i bs s, (body i bs s).isSome) (s : σ) :
    (frameLoop mark body inside i bs s).isSome := by
  have hfold : ∀ (starts : List (Nat × Bytes)) (s : σ),
      (starts.foldlM (fun s start => body start.1 start.2 s) s).isSome := by
    intro starts
    induction starts with
    | nil => simp
    | cons start starts ih =>
        intro s
        rcases Option.isSome_iff_exists.mp (hbody start.1 start.2 s) with ⟨t, ht⟩
        rw [List.foldlM_cons, ht]
        exact ih t
  rcases Option.isSome_iff_exists.mp hstarts with ⟨⟨starts, j⟩, hstarts⟩
  rw [frameLoop_eq_foldlM, hstarts, Option.bind_some, Option.isSome_map]
  exact hfold starts s

/-- A loop that leaves the buffer does not end, whatever its body does. -/
theorem frameLoop_eq_none {inside : Bool} {i : Nat} {bs : Bytes}
    (hstarts : frameStarts mark inside i bs = none) (s : σ) :
    frameLoop mark body inside i bs s = none := by
  rw [frameLoop_eq_foldlM, hstarts, Option.bind_none]

/-- Text without a terminator makes the loop leave the buffer. -/
theorem frameStarts_unterminated {bs : Bytes} (hbs : NulFree bs) (i : Nat) :
    frameStarts mark true i bs = none := by
  induction bs generalizing i with
  | nil => rfl
  | cons b bs ih =>
      rw [nulFree_cons] at hbs
      rw [frameStarts, if_neg hbs.1, ih hbs.2]

/-- A buffer that the beginning of a row of frames fills completely makes the loop leave
it: behind a whole frame it looks at one more byte, and otherwise it looks for the
terminator. -/
theorem frameStarts_beginning {fs : List Bytes} (hfree : ∀ f ∈ fs, NulFree f) {bs : Bytes}
    (hbegins : bs <+: framesOf mark fs) (i : Nat) : frameStarts mark false i bs = none := by
  induction fs generalizing bs i with
  | nil =>
      rw [framesOf_nil, List.prefix_nil] at hbegins
      rw [hbegins, frameStarts]
  | cons f fs ih =>
      rw [framesOf_cons, List.cons_append, List.prefix_cons_iff] at hbegins
      rcases hbegins with rfl | ⟨bs, rfl, hbegins⟩
      · rw [frameStarts]
      · have hf : NulFree f := hfree f (by simp)
        rw [frameStarts, if_pos rfl, Option.map_eq_none_iff]
        rcases List.prefix_or_prefix_of_prefix hbegins (List.prefix_append f _) with
          hcut | ⟨rest, rfl⟩
        · exact frameStarts_unterminated (fun b hb => hf b (hcut.subset hb)) _
        · have hrest := (List.prefix_append_right_inj f).mp hbegins
          rw [List.prefix_cons_iff] at hrest
          rcases hrest with rfl | ⟨rest, rfl, hrest⟩
          · rw [List.append_nil]
            exact frameStarts_unterminated hf _
          · rw [frameStarts_skip hf]
            exact ih (fun g hg => hfree g (by simp [hg])) hrest _

/-- Behind frames the loop needs one more byte. -/
theorem isSome_frameStarts_frames (hmark : mark ≠ 0) {fs : List Bytes}
    (hfree : ∀ f ∈ fs, NulFree f) (i k : Nat) :
    (frameStarts mark false i (framesOf mark fs ++ zeros k)).isSome ↔ 0 < k := by
  cases k with
  | zero =>
      have hnone : frameStarts mark false i (framesOf mark fs) = none :=
        frameStarts_beginning hfree (List.prefix_refl _) i
      simp [zeros, hnone]
  | succ k =>
      rcases frameStarts_frames hfree hmark.symm i (zeros k) with ⟨starts, hstarts, -⟩
      rw [zeros_succ, hstarts]
      simp

/-- Frames that fill the buffer completely. -/
theorem frameLoop_overrun {fs : List Bytes} (hfree : ∀ f ∈ fs, NulFree f) (i : Nat) (s : σ) :
    frameLoop mark body false i (framesOf mark fs) s = none :=
  frameLoop_eq_none (frameStarts_beginning hfree (List.prefix_refl _) i) s

/-! ## The strings of the frames -/

/-- A body that records the string behind the mark. -/
def recordString (_ : Nat) (s : Bytes) (strings : List Bytes) : Option (List Bytes) :=
  (cstring s).map fun t => strings ++ [t]

/-- The strings at which the loop runs its body. -/
def frameStrings (mark : Byte) (buffer : Bytes) : Option (List Bytes) :=
  (frameLoop mark recordString false 0 buffer []).map Prod.fst

theorem foldlM_append_singleton (fs strings : List Bytes) :
    fs.foldlM (fun strings f => some (strings ++ [f])) strings = some (strings ++ fs) := by
  induction fs generalizing strings with
  | nil => simp
  | cons f fs ih =>
      rw [List.foldlM_cons, Option.bind_eq_bind, Option.bind_some, ih]
      simp

/-- Frames, and behind them a byte that starts none. -/
theorem frameStrings_frames {fs : List Bytes} (hfree : ∀ f ∈ fs, NulFree f) {b : Byte}
    (hb : b ≠ mark) (bs : Bytes) :
    frameStrings mark (framesOf mark fs ++ b :: bs) = some fs := by
  have hloop : frameLoop mark recordString false 0 (framesOf mark (fs.map id) ++ b :: bs) [] =
      (fs.foldlM (fun strings f => some (strings ++ [f])) []).map
        (·, 0 + (framesOf mark (fs.map id)).length) := by
    refine frameLoop_frames hfree ?_ hb 0 bs []
    intro f hf i rest strings
    rw [recordString, cstring_append (hfree f hf), Option.map_some]
  rw [List.map_id, foldlM_append_singleton] at hloop
  rw [frameStrings, hloop]
  simp

/-- A buffer that does not begin with the mark. -/
theorem frameStrings_stop {b : Byte} (hb : b ≠ mark) (bs : Bytes) :
    frameStrings mark (b :: bs) = some [] := by
  simp [frameStrings, frameLoop_stop hb]

theorem frameStrings_overrun {fs : List Bytes} (hfree : ∀ f ∈ fs, NulFree f) :
    frameStrings mark (framesOf mark fs) = none := by
  rw [frameStrings, frameLoop_overrun hfree, Option.map_none]

/-- The bytes that strings take up, each with its mark. -/
def weight (strings : List Bytes) : Nat :=
  (strings.map fun s => s.length + 1).sum

/-- The bytes that are not terminators. -/
def textLength (bs : Bytes) : Nat :=
  bs.countP (· ≠ 0)

@[simp]
theorem weight_append (strings strings' : List Bytes) :
    weight (strings ++ strings') = weight strings + weight strings' := by
  simp [weight]

@[simp]
theorem textLength_append (bs bs' : Bytes) :
    textLength (bs ++ bs') = textLength bs + textLength bs' := by
  simp [textLength]

@[simp]
theorem textLength_zeros (k : Nat) : textLength (zeros k) = 0 := by
  simp [textLength, zeros]

theorem textLength_nul_cons (bs : Bytes) : textLength (0 :: bs) = textLength bs := by
  simp [textLength]

theorem textLength_cons {b : Byte} (hb : b ≠ 0) (bs : Bytes) :
    textLength (b :: bs) = textLength bs + 1 := by
  simp [textLength, hb]

theorem textLength_nulFree {bs : Bytes} (hbs : NulFree bs) : textLength bs = bs.length := by
  rw [textLength, List.countP_eq_length]
  intro b hb
  simpa using hbs b hb

/-- The strings that the loop records take up no more than the text it has passed.  Inside
a frame, the rest of its string has been recorded already. -/
theorem weight_frameLoop_le (hmark : mark ≠ 0) {inside : Bool} {i j : Nat}
    {bs : Bytes}
    {strings strings' : List Bytes}
    (h : frameLoop mark recordString inside i bs strings = some (strings', j)) :
    weight strings' + (if inside then ((cstring bs).getD []).length else 0) ≤
      weight strings + textLength bs := by
  induction bs generalizing inside i strings with
  | nil => simp [frameLoop] at h
  | cons b bs ih =>
      cases inside with
      | true =>
          rw [frameLoop] at h
          split at h
          · next hb =>
            subst hb
            have hle := ih h
            simp only [Bool.false_eq_true, if_false, Nat.add_zero] at hle
            simpa [cstring, textLength_nul_cons] using hle
          · next hb =>
            have hle := ih h
            rw [textLength_cons hb]
            cases hs : cstring bs <;> simp [cstring, hb, hs] at hle ⊢ <;> omega
      | false =>
          rw [frameLoop] at h
          split at h
          · next hb =>
            subst hb
            rw [Option.bind_eq_some_iff] at h
            rcases h with ⟨recorded, hrecorded, hrest⟩
            rw [recordString, Option.map_eq_some_iff] at hrecorded
            rcases hrecorded with ⟨c, hc, rfl⟩
            have hle := ih hrest
            rw [textLength_cons hmark]
            simp [hc, weight] at hle ⊢
            omega
          · rw [Option.some.injEq, Prod.mk.injEq] at h
            simp [h.1]

theorem weight_frameStrings_le (hmark : mark ≠ 0) {bs : Bytes} {strings : List Bytes}
    (h : frameStrings mark bs = some strings) : weight strings ≤ textLength bs := by
  rw [frameStrings, Option.map_eq_some_iff] at h
  rcases h with ⟨⟨strings', j⟩, hloop, rfl⟩
  have hle := weight_frameLoop_le hmark hloop
  simpa [weight] using hle

end FrameLoop

end Foundations
