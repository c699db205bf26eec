import Mathlib.Data.List.TakeWhile
import PubSub.Foundations.CString

/-!
# Tokens of a string

Strings that a delimiter divides, and {lit}`strtok`, which walks through such a string and keeps
the rest that it has not seen yet between two calls.

Main results:

- Theorem {lit}`strtok_cases`: a call of {lit}`strtok` takes the first token off the rest.
- Theorem {lit}`strtokTimes_succ`: several calls return the first tokens.
- Theorem {lit}`tokens_terminated_append`: the tokens of a text of which every token has its
  terminator, except perhaps the last one.
- Theorem {lit}`tokens_separated`: the tokens of a text with a delimiter between them.
- Theorem {lit}`prefix_terminated_cases`: what a prefix of such a text looks like.
-/

namespace Foundations

/-! ## The function -/

/-- {lit}`strtok` with one delimiter.  A null argument goes on where the call before has
stopped; {lit}`saved` is the string there.  The result is the token, and the string at which the
next call starts. -/
def strtok (str : Option Bytes) (delimiter : Byte) (saved : Bytes) : Option Bytes × Bytes :=
  match (str.getD saved).dropWhile (· = delimiter) with
  | [] => (none, [])
  | b :: bs =>
      (some ((b :: bs).takeWhile (· ≠ delimiter)), ((b :: bs).dropWhile (· ≠ delimiter)).tail)

/-! ## Tokens -/

/-- The nonempty parts between delimiters. -/
noncomputable def tokens (delimiter : Byte) (s : Bytes) : List Bytes :=
  (s.splitOnP (· = delimiter)).filter (· ≠ [])

/-- Every token followed by its terminator. -/
def terminated (delimiter : Byte) (ts : List Bytes) : Bytes :=
  ts.flatMap fun t => t ++ [delimiter]

theorem terminated_cons (delimiter : Byte) (t : Bytes) (ts : List Bytes) :
    terminated delimiter (t :: ts) = t ++ [delimiter] ++ terminated delimiter ts :=
  List.flatMap_cons

/-- A token proper: not empty, and without the delimiter. -/
def IsToken (delimiter : Byte) (t : Bytes) : Prop :=
  t ≠ [] ∧ ∀ b ∈ t, b ≠ delimiter

variable {delimiter : Byte}

@[simp]
theorem tokens_nil : tokens delimiter [] = [] := by
  simp [tokens, List.splitOnP_nil]

theorem tokens_append_cons (delimiter : Byte) (s s' : Bytes) :
    tokens delimiter (s ++ delimiter :: s') = tokens delimiter s ++ tokens delimiter s' := by
  rw [tokens, List.splitOnP_append_cons s s' (by simp), List.filter_append, tokens, tokens]

theorem tokens_delimiter_cons (s : Bytes) :
    tokens delimiter (delimiter :: s) = tokens delimiter s := by
  have happend := tokens_append_cons delimiter [] s
  rwa [tokens_nil, List.nil_append, List.nil_append] at happend

/-- Without a delimiter, all that is there is one token. -/
theorem tokens_of_forall_ne {s : Bytes} (hs : ∀ b ∈ s, b ≠ delimiter) :
    tokens delimiter s = if s = [] then [] else [s] := by
  rw [tokens, List.splitOnP_eq_singleton fun b hb => decide_eq_false (hs b hb)]
  by_cases hnil : s = [] <;> simp [hnil]

theorem tokens_of_isToken {t : Bytes} (ht : IsToken delimiter t) : tokens delimiter t = [t] := by
  rw [tokens_of_forall_ne ht.2, if_neg ht.1]

theorem tokens_terminated_append {ts : List Bytes} (hts : ∀ t ∈ ts, IsToken delimiter t)
    (s : Bytes) : tokens delimiter (terminated delimiter ts ++ s) = ts ++ tokens delimiter s := by
  induction ts with
  | nil => simp [terminated]
  | cons t ts ih =>
      have hsplit : terminated delimiter (t :: ts) ++ s =
          t ++ delimiter :: (terminated delimiter ts ++ s) := by
        simp [terminated]
      rw [hsplit, tokens_append_cons, tokens_of_isToken (hts t (by simp)),
        ih fun u hu => hts u (by simp [hu])]
      rfl

theorem tokens_terminated {ts : List Bytes} (hts : ∀ t ∈ ts, IsToken delimiter t) :
    tokens delimiter (terminated delimiter ts) = ts := by
  have happend := tokens_terminated_append hts []
  rwa [tokens_nil, List.append_nil, List.append_nil] at happend

/-- Tokens with a delimiter between any two of them. -/
def separated (delimiter : Byte) (ts : List Bytes) : Bytes :=
  [delimiter].intercalate ts

/-- The last token has no terminator. -/
theorem separated_concat (ts : List Bytes) (t : Bytes) :
    separated delimiter (ts ++ [t]) = terminated delimiter ts ++ t := by
  induction ts with
  | nil => simp [separated, terminated]
  | cons u ts ih =>
      have hne : ts ++ [t] ≠ [] := by simp
      rcases List.exists_cons_of_ne_nil hne with ⟨v, vs, hvs⟩
      rw [separated, hvs] at ih
      rw [separated, List.cons_append, hvs, List.intercalate_cons_cons, ih]
      simp [terminated]

theorem tokens_separated {ts : List Bytes} (hts : ∀ t ∈ ts, IsToken delimiter t) :
    tokens delimiter (separated delimiter ts) = ts := by
  rcases List.eq_nil_or_concat ts with rfl | ⟨front, t, rfl⟩
  · exact tokens_nil
  · rw [List.concat_eq_append] at hts ⊢
    rw [separated_concat, tokens_terminated_append fun u hu => hts u (by simp [hu]),
      tokens_of_isToken (hts t (by simp))]

/-- What the bytes of a text are. -/
theorem mem_terminated {ts : List Bytes} {b : Byte} (hb : b ∈ terminated delimiter ts) :
    (∃ t ∈ ts, b ∈ t) ∨ b = delimiter := by
  rcases List.mem_flatMap.mp hb with ⟨t, ht, hmem⟩
  rcases List.mem_append.mp hmem with htoken | hend
  · exact .inl ⟨t, ht, htoken⟩
  · exact .inr (List.mem_singleton.mp hend)

theorem mem_separated {ts : List Bytes} {b : Byte} (hb : b ∈ separated delimiter ts) :
    (∃ t ∈ ts, b ∈ t) ∨ b = delimiter := by
  rcases List.eq_nil_or_concat ts with rfl | ⟨front, t, rfl⟩
  · contradiction
  · rw [List.concat_eq_append] at hb ⊢
    rw [separated_concat] at hb
    rcases List.mem_append.mp hb with hfront | hlast
    · rcases mem_terminated hfront with ⟨u, hu, hmem⟩ | hdelimiter
      · exact .inl ⟨u, List.mem_append_left _ hu, hmem⟩
      · exact .inr hdelimiter
    · exact .inl ⟨t, by simp, hlast⟩

/-! ## What a call finds -/

/-- Delimiters in front do not matter. -/
theorem tokens_dropWhile (s : Bytes) :
    tokens delimiter (s.dropWhile (· = delimiter)) = tokens delimiter s := by
  induction s with
  | nil => rfl
  | cons b s ih =>
      by_cases hb : b = delimiter
      · rw [List.dropWhile_cons_of_pos (by simpa using hb), ih, hb, tokens_delimiter_cons]
      · rw [List.dropWhile_cons_of_neg (by simpa using hb)]

/-- A string is its first part, and behind a delimiter the rest. -/
theorem tokens_takeWhile_append (s : Bytes) :
    tokens delimiter s = tokens delimiter (s.takeWhile (· ≠ delimiter)) ++
      tokens delimiter (s.dropWhile (· ≠ delimiter)).tail := by
  cases hrest : s.dropWhile (· ≠ delimiter) with
  | nil =>
      have hall : s.takeWhile (· ≠ delimiter) = s := by
        have happend := List.takeWhile_append_dropWhile (p := (· ≠ delimiter)) (l := s)
        rwa [hrest, List.append_nil] at happend
      rw [hall, List.tail_nil, tokens_nil, List.append_nil]
  | cons b rest =>
      have hb : b = delimiter := by
        have hnot := List.head?_dropWhile_not (· ≠ delimiter) s
        rw [hrest] at hnot
        simpa using hnot
      have happend := List.takeWhile_append_dropWhile (p := (· ≠ delimiter)) (l := s)
      rw [hrest, hb] at happend
      rw [List.tail_cons, ← tokens_append_cons, happend]

/-- A call takes the first token off the string, or finds none. -/
theorem strtok_cases (delimiter : Byte) (str : Option Bytes) (saved : Bytes) :
    strtok str delimiter saved = (none, []) ∧ tokens delimiter (str.getD saved) = [] ∨
      ∃ t rest, strtok str delimiter saved = (some t, rest) ∧
        tokens delimiter (str.getD saved) = t :: tokens delimiter rest := by
  rw [← tokens_dropWhile, strtok]
  cases hstart : (str.getD saved).dropWhile (· = delimiter) with
  | nil => exact .inl ⟨rfl, tokens_nil⟩
  | cons b bs =>
      have hb : b ≠ delimiter := by
        have hnot := List.head?_dropWhile_not (· = delimiter) (str.getD saved)
        rw [hstart] at hnot
        simpa using hnot
      have htoken : IsToken delimiter ((b :: bs).takeWhile (· ≠ delimiter)) := by
        refine ⟨?_, fun d hd => by simpa using List.mem_takeWhile_imp hd⟩
        rw [List.takeWhile_cons_of_pos (by simpa using hb)]
        exact List.cons_ne_nil _ _
      refine .inr ⟨_, _, rfl, ?_⟩
      rw [tokens_takeWhile_append, tokens_of_isToken htoken]
      rfl

/-! ## A sequence of calls -/

/-- {lit}`n` calls, of which all but the first have a null argument. -/
def strtokTimes (delimiter : Byte) : Nat → Option Bytes → Bytes → List (Option Bytes) × Bytes
  | 0, _, saved => ([], saved)
  | n + 1, str, saved =>
      let (t, saved) := strtok str delimiter saved
      let (ts, saved) := strtokTimes delimiter n none saved
      (t :: ts, saved)

/-- The calls have returned the first {lit}`n` tokens of the list, or null for want of one, and
have left the others. -/
def ReturnsTokens (delimiter : Byte) (n : Nat) (ts : List Bytes)
    (result : List (Option Bytes) × Bytes) : Prop :=
  result.1 = (List.range n).map (fun i => ts[i]?) ∧ tokens delimiter result.2 = ts.drop n

/-- One call before the others. -/
theorem strtokTimes_succ_of {n : Nat}
    (hrest : ∀ saved, ReturnsTokens delimiter n (tokens delimiter saved)
      (strtokTimes delimiter n none saved)) (str : Option Bytes) (saved : Bytes) :
    ReturnsTokens delimiter (n + 1) (tokens delimiter (str.getD saved))
      (strtokTimes delimiter (n + 1) str saved) := by
  rcases strtok_cases delimiter str saved with ⟨hcall, hnil⟩ |
    ⟨t, rest, hcall, hcons⟩
  · rcases hrest [] with ⟨hreturned, hleft⟩
    rw [tokens_nil] at hreturned hleft
    rw [hnil]
    simp only [ReturnsTokens, strtokTimes, hcall, hreturned, hleft, List.range_succ_eq_map]
    simp [Function.comp_def]
  · rcases hrest rest with ⟨hreturned, hleft⟩
    rw [hcons]
    simp only [ReturnsTokens, strtokTimes, hcall, hreturned, hleft, List.range_succ_eq_map]
    simp [Function.comp_def]

theorem strtokTimes_none (n : Nat) (saved : Bytes) :
    ReturnsTokens delimiter n (tokens delimiter saved) (strtokTimes delimiter n none saved) := by
  induction n generalizing saved with
  | zero => exact ⟨rfl, rfl⟩
  | succ n ih => exact strtokTimes_succ_of ih none saved

/-- The calls return the first tokens, and null when there are no more. -/
theorem strtokTimes_succ (delimiter : Byte) (n : Nat) (str : Option Bytes) (saved : Bytes) :
    ReturnsTokens delimiter (n + 1) (tokens delimiter (str.getD saved))
      (strtokTimes delimiter (n + 1) str saved) :=
  strtokTimes_succ_of (strtokTimes_none n) str saved

/-- Calls that find no token leave the empty string. -/
theorem strtokTimes_of_tokens_nil {str : Option Bytes} {saved : Bytes}
    (hnil : tokens delimiter (str.getD saved) = []) (n : Nat) :
    (strtokTimes delimiter (n + 1) str saved).2 = [] := by
  induction n generalizing str saved with
  | zero =>
      rcases strtok_cases delimiter str saved with ⟨hcall, -⟩ | ⟨t, rest, -, hcons⟩
      · simp only [strtokTimes, hcall]
      · rw [hnil] at hcons
        contradiction
  | succ n ih =>
      rcases strtok_cases delimiter str saved with ⟨hcall, -⟩ | ⟨t, rest, -, hcons⟩
      · have hrest : (strtokTimes delimiter (n + 1) none []).2 = [] := ih tokens_nil
        rw [strtokTimes, hcall]
        exact hrest
      · rw [hnil] at hcons
        contradiction

/-! ## Prefixes -/

/-- A prefix of two parts ends in the first part, or in the second one. -/
theorem prefix_append_cases {s a b : Bytes} (hs : s <+: a ++ b) :
    s <+: a ∨ ∃ s', s = a ++ s' ∧ s' <+: b := by
  rcases hs with ⟨rest, hrest⟩
  rcases List.append_eq_append_iff.mp hrest with ⟨missing, ha, -⟩ | ⟨s', hs', hb⟩
  · exact .inl ⟨missing, ha.symm⟩
  · exact .inr ⟨s', hs', rest, hb.symm⟩

/-- A prefix of a text of terminated tokens ends inside a token, which may be complete but
has no terminator, or is all of the text. -/
theorem prefix_terminated_cases {ts : List Bytes} {s : Bytes}
    (hs : s <+: terminated delimiter ts) :
    (∃ us v vs w, ts = us ++ v :: vs ∧ w <+: v ∧ s = terminated delimiter us ++ w) ∨
      s = terminated delimiter ts := by
  induction ts generalizing s with
  | nil => exact .inr (List.prefix_nil.mp hs)
  | cons t ts ih =>
      have hsplit : terminated delimiter (t :: ts) = t ++ delimiter :: terminated delimiter ts := by
        simp [terminated]
      rw [hsplit] at hs ⊢
      rcases prefix_append_cases hs with hshort | ⟨beyond, rfl, hbeyond⟩
      · exact .inl ⟨[], t, ts, s, rfl, hshort, rfl⟩
      cases beyond with
      | nil =>
          rw [List.append_nil]
          exact .inl ⟨[], t, ts, t, rfl, List.prefix_refl t, rfl⟩
      | cons b beyond =>
          rw [List.cons_prefix_cons] at hbeyond
          rcases hbeyond with ⟨rfl, hbeyond⟩
          rcases ih hbeyond with ⟨us, v, vs, w, rfl, hw, rfl⟩ | rfl
          · exact .inl ⟨t :: us, v, vs, w, rfl, hw, by simp [terminated]⟩
          · exact .inr rfl

end Foundations
