import PubSub.StatsManager.FileFailures

/-!
# The format of the file

{lit}`stats.txt` has a line of five numbers for each topic.  The stats manager writes its counters
as unsigned numbers and reads them as signed ones.  When it reads the file it looks at nothing but
the tokens that {lit}`strtok` returns: what separates them, how many lines there are and what
stands behind a number is all the same to it, and a missing token is passed to {lit}`strtoll`.

Main results:

- Theorem {lit}`roundTrips_iff`: the totals that have been written are read back exactly when all
  of them are numbers that {lit}`strtoll` can return.
- Theorem {lit}`parseFileContent_isSome_iff`: the files of which no token is missing.
- Theorem {lit}`fileText_hasFormat`: what has been written has the format.
- Theorem {lit}`parsesSafely_iff`: a file is read safely, or its reading is reported as failed, only
  if it has the format.
-/

namespace PubSub
namespace StatsManager

open Foundations

/-! ## Reading what has been written -/

/-- The text of the totals fits the buffer, and reading it gives back the totals. -/
def RoundTrips (topicStatsArray : TopicStatsArray) : Prop :=
  ∃ stats, stringifyStats topicStatsArray 400 = some stats ∧
    parseFileContent stats = some topicStatsArray

/-- A counter is read back if it is at most {lit}`LLONG_MAX`. -/
theorem storedCounter_eq_self_iff (n : UInt64) : storedCounter n = n ↔ n.toNat < 2 ^ 63 := by
  have hlt := n.toNat_lt
  rw [storedCounter, ← UInt64.toNat_inj, UInt64.toNat_ofNat', Nat.mod_eq_of_lt (by omega)]
  omega

/-- Whatever the totals are, their text fits the buffer; reading it gives back the totals exactly
when every counter is below two to the power 63. -/
theorem roundTrips_iff (topicStatsArray : TopicStatsArray) :
    RoundTrips topicStatsArray ↔ ∀ c, (counterValue topicStatsArray c).toNat < 2 ^ 63 := by
  have hread : RoundTrips topicStatsArray ↔
      topicStatsArray.map TopicStats.stored = topicStatsArray := by
    rw [RoundTrips, stringifyStats_eq]
    simp only [Option.some.injEq, exists_eq_left', parseFileContent_text]
  rw [hread]
  constructor
  · intro h c
    rw [← storedCounter_eq_self_iff, ← counterValue_stored, h]
  · intro h
    apply eq_of_counterValue
    intro c
    rw [counterValue_stored]
    exact (storedCounter_eq_self_iff _).mpr (h c)

/-- Two to the power 63 publish commands for the first topic. -/
def largeTotals : TopicStatsArray :=
  #v[⟨0x8000000000000000, 0, 0, 0, 0⟩, ⟨0, 0, 0, 0, 0⟩, ⟨0, 0, 0, 0, 0⟩]

/-- One less is read back. -/
theorem not_roundTrips_largeTotals : ¬ RoundTrips largeTotals := by
  rintro ⟨stats, hstats, hparse⟩
  rw [stringifyStats_eq, Option.some.injEq] at hstats
  rw [← hstats, parseFileContent_text, Option.some.injEq] at hparse
  have hcounter := congrArg (counterValue · (0, .publish)) hparse
  simp only [counterValue_stored, storedCounter_eq_self_iff] at hcounter
  exact absurd hcounter (by decide)

/-! ## Reading what anybody has written -/

/-- A number of the file. -/
def IsNumber (number : Bytes) : Prop :=
  number ≠ [] ∧ ∀ b ∈ number, isDigit b = true

/-- Five numbers with commas between them. -/
def IsStatsLine (line : Bytes) : Prop :=
  ∃ numbers : List Bytes, numbers.length = 5 ∧ (∀ number ∈ numbers, IsNumber number) ∧
    line = separated comma numbers

/-- Exactly three lines of five numbers.  The end of the last line may be missing. -/
def HasFormat (file : Bytes) : Prop :=
  ∃ lines : List Bytes, lines.length = 3 ∧ (∀ line ∈ lines, IsStatsLine line) ∧
    (file = terminated newline lines ∨ file = separated newline lines)

/-- The totals that {lit}`update_and_show_stats` shows, if the file can be read. -/
def updateShows (operations : FileOperations) (file : Bytes) (topicStatsArray : TopicStatsArray) :
    Option (Option TopicStatsArray) :=
  match readFile operations file with
  | none => some none
  | some fileContent =>
      if fileContent = [] then some (some topicStatsArray)
      else (parseFileContent fileContent).map fun fileTopicStatsArray =>
        some (addStats fileTopicStatsArray topicStatsArray)

/-- No null pointer is passed to {lit}`strtoll`, and a file without the format makes both
functions report a failure and change nothing. -/
structure ParsesSafely (file : Bytes) : Prop where
  tokens : ∀ operations fileContent, readFile operations file = some fileContent →
    fileContent ≠ [] → parseFileContent fileContent ≠ none
  reports : ¬ HasFormat file → ∀ operations topicStatsArray,
    readAndShowStats operations file = some none ∧
      updateShows operations file topicStatsArray = some none ∧
      updateAndShowStats operations file topicStatsArray = some (file, topicStatsArray)

/-- A file whose lines have so many tokens that none is missing.  Where a line is missing,
{lit}`strtok` goes on behind the numbers of the line before. -/
def EnoughNumbers : List Bytes → Prop
  | [] => False
  | [line] => 15 ≤ (tokens comma line).length
  | [line0, line1] => 5 ≤ (tokens comma line0).length ∧ 10 ≤ (tokens comma line1).length
  | line0 :: line1 :: line2 :: _ =>
      5 ≤ (tokens comma line0).length ∧ 5 ≤ (tokens comma line1).length ∧
        5 ≤ (tokens comma line2).length

/-- The tokens at which {lit}`strtok` starts on a line: without a line, those that the line before
has left. -/
noncomputable def tokensAhead (line : Option Bytes) (left : List Bytes) : List Bytes :=
  (line.map (tokens comma)).getD left

theorem tokens_getD (line : Option Bytes) (saved : Bytes) :
    tokens comma (line.getD saved) = tokensAhead line (tokens comma saved) := by
  cases line with
  | none => rfl
  | some line => rfl

/-- Reading a line succeeds if it has five tokens, and what follows goes on behind them. -/
theorem isSome_parseLine_bind (line : Option Bytes) (saved : Bytes)
    {f : TopicStats × Bytes → Option TopicStatsArray} {P : List Bytes → Prop}
    (hf : ∀ stats rest, (f (stats, rest)).isSome ↔ P (tokens comma rest)) :
    ((parseLine line saved).bind f).isSome ↔
      5 ≤ (tokensAhead line (tokens comma saved)).length ∧
        P ((tokensAhead line (tokens comma saved)).drop 5) := by
  rw [← tokens_getD]
  by_cases hfive : 5 ≤ (tokens comma (line.getD saved)).length
  · rcases parseLine_of_five_le hfive with ⟨stats, rest, hparse, hrest⟩
    rw [hparse, Option.bind_some, hf stats rest, hrest]
    exact (and_iff_right hfive).symm
  · rw [parseLine_eq_none (Nat.lt_of_not_le hfive), Option.bind_none]
    simp [hfive]

/-- Reading a file passes no null pointer to {lit}`strtoll` exactly when no token is missing. -/
theorem parseFileContent_isSome_iff (fileContent : Bytes) :
    (parseFileContent fileContent).isSome ↔ EnoughNumbers (tokens newline fileContent) := by
  rcases parseFileContent_eq fileContent with ⟨saved, hsaved, hparse⟩
  have hthird : ∀ (line : Option Bytes) (stats0 stats1 : TopicStats) (rest : Bytes),
      ((parseLine line rest).bind fun result => some #v[stats0, stats1, result.1]).isSome ↔
        5 ≤ (tokensAhead line (tokens comma rest)).length := by
    intro line stats0 stats1 rest
    rw [isSome_parseLine_bind line rest (P := fun _ => True) fun _ _ => by simp, and_true]
  have hsecond : ∀ (line line' : Option Bytes) (stats0 : TopicStats) (rest : Bytes),
      ((parseLine line rest).bind fun result1 => (parseLine line' result1.2).bind fun result2 =>
        some #v[stats0, result1.1, result2.1]).isSome ↔
          5 ≤ (tokensAhead line (tokens comma rest)).length ∧
            5 ≤ (tokensAhead line' ((tokensAhead line (tokens comma rest)).drop 5)).length := by
    intro line line' stats0 rest
    exact isSome_parseLine_bind line rest
      (P := fun left => 5 ≤ (tokensAhead line' left).length)
      fun stats1 rest1 => hthird line' stats0 stats1 rest1
  rw [hparse, isSome_parseLine_bind _ saved
    (P := fun left => 5 ≤ (tokensAhead (tokens newline fileContent)[1]? left).length ∧
      5 ≤ (tokensAhead (tokens newline fileContent)[2]?
        ((tokensAhead (tokens newline fileContent)[1]? left).drop 5)).length)
    fun stats0 rest0 => hsecond _ _ stats0 rest0]
  match htokens : tokens newline fileContent with
  | [] =>
      rw [hsaved htokens, tokens_nil]
      simp [tokensAhead, EnoughNumbers]
  | [line] =>
      simp only [tokensAhead, EnoughNumbers, List.getElem?_cons_zero, List.getElem?_cons_succ,
        List.getElem?_nil, Option.map_some, Option.map_none, Option.getD_some, Option.getD_none,
        List.length_drop]
      omega
  | [line0, line1] =>
      simp only [tokensAhead, EnoughNumbers, List.getElem?_cons_zero, List.getElem?_cons_succ,
        List.getElem?_nil, Option.map_some, Option.map_none, Option.getD_some, Option.getD_none,
        List.length_drop]
      omega
  | line0 :: line1 :: line2 :: lines =>
      simp only [tokensAhead, EnoughNumbers, List.getElem?_cons_zero, List.getElem?_cons_succ,
        Option.map_some, Option.getD_some]

/-! ## Files with the format -/

theorem IsNumber.isToken {number : Bytes} (hnumber : IsNumber number) : IsToken comma number :=
  ⟨hnumber.1, fun b hb => ne_of_isDigit (hnumber.2 b hb) (by decide)⟩

/-- A line is digits and commas. -/
theorem IsStatsLine.mem {line : Bytes} (hline : IsStatsLine line) {b : Byte} (hb : b ∈ line) :
    isDigit b = true ∨ b = comma := by
  rcases hline with ⟨numbers, -, hnumbers, rfl⟩
  rcases mem_separated hb with ⟨number, hmem, hdigit⟩ | rfl
  · exact .inl ((hnumbers number hmem).2 b hdigit)
  · exact .inr rfl

theorem IsStatsLine.length_tokens {line : Bytes} (hline : IsStatsLine line) :
    (tokens comma line).length = 5 := by
  rcases hline with ⟨numbers, hlength, hnumbers, rfl⟩
  rw [tokens_separated fun number hmem => (hnumbers number hmem).isToken, hlength]

theorem IsStatsLine.isToken {line : Bytes} (hline : IsStatsLine line) : IsToken newline line := by
  constructor
  · rintro rfl
    have hlength := hline.length_tokens
    rw [tokens_nil] at hlength
    contradiction
  · intro b hb
    rcases hline.mem hb with hdigit | rfl
    · exact ne_of_isDigit hdigit (by decide)
    · decide

/-- The tokens of a file with the format are its lines. -/
theorem HasFormat.exists_lines {file : Bytes} (hfile : HasFormat file) :
    ∃ line0 line1 line2, tokens newline file = [line0, line1, line2] ∧
      IsStatsLine line0 ∧ IsStatsLine line1 ∧ IsStatsLine line2 := by
  rcases hfile with ⟨lines, hlength, hlines, htext⟩
  have htokens : tokens newline file = lines := by
    rcases htext with rfl | rfl
    · exact tokens_terminated fun line hline => (hlines line hline).isToken
    · exact tokens_separated fun line hline => (hlines line hline).isToken
  match lines, hlength with
  | [line0, line1, line2], _ =>
      exact ⟨line0, line1, line2, htokens, hlines line0 (by simp), hlines line1 (by simp),
        hlines line2 (by simp)⟩

theorem HasFormat.nulFree {file : Bytes} (hfile : HasFormat file) : NulFree file := by
  rcases hfile with ⟨lines, -, hlines, htext⟩
  intro b hb
  have hbytes : (∃ line ∈ lines, b ∈ line) ∨ b = newline := by
    rcases htext with rfl | rfl
    · exact mem_terminated hb
    · exact mem_separated hb
  rcases hbytes with ⟨line, hline, hmem⟩ | rfl
  · rcases (hlines line hline).mem hmem with hdigit | rfl
    · exact ne_of_isDigit hdigit (by decide)
    · decide
  · decide

/-- A file with the format has all its numbers. -/
theorem HasFormat.enoughNumbers {file : Bytes} (hfile : HasFormat file) :
    EnoughNumbers (tokens newline file) := by
  rcases hfile.exists_lines with ⟨line0, line1, line2, htokens, hline0, hline1, hline2⟩
  rw [htokens]
  exact ⟨Nat.le_of_eq hline0.length_tokens.symm, Nat.le_of_eq hline1.length_tokens.symm,
    Nat.le_of_eq hline2.length_tokens.symm⟩

/-- The text of the totals has the format, so that what has been written is read safely. -/
theorem fileText_hasFormat (topicStatsArray : TopicStatsArray) :
    HasFormat (fileText topicStatsArray) := by
  refine ⟨topicStatsArray.toList.map statsLine, by simp, ?_, .inl rfl⟩
  intro line hline
  rcases List.mem_map.mp hline with ⟨stats, -, rfl⟩
  have hnumerals : stats.numerals.take 4 ++ [stats.lastNumeral] = stats.numerals := rfl
  refine ⟨stats.numerals, rfl, ?_, ?_⟩
  · intro number hnumber
    exact ⟨(isToken_of_mem_numerals hnumber).1, fun b hb => isDigit_of_mem_numerals hnumber hb⟩
  · rw [← hnumerals, separated_concat, statsLine]

/-- Once a file has been opened, no failure is reported, whatever is in it. -/
theorem readAndShowStats_ne (file : Bytes) :
    readAndShowStats ⟨true, true, none⟩ file ≠ some none := by
  rw [readAndShowStats_eq, if_pos rfl]
  cases storedStats file <;> simp

/-- A file is read safely exactly when it has the format: without it, either a null pointer is
passed to {lit}`strtoll`, or the file is read and no failure is reported.  The empty file is not
read safely in this sense, but both callers leave it out: it is never parsed. -/
theorem parsesSafely_iff (file : Bytes) : ParsesSafely file ↔ HasFormat file := by
  constructor
  · intro h
    by_contra hformat
    exact readAndShowStats_ne file (h.reports hformat ⟨true, true, none⟩ resetStats).1
  · intro hformat
    refine ⟨?_, fun hnot => absurd hformat hnot⟩
    intro operations fileContent hread _ hnull
    rw [readFile, Option.ite_none_right_eq_some, Option.some.injEq] at hread
    have hall : file.takeWhile (· ≠ 0) = file :=
      List.takeWhile_eq_self_iff.mpr fun b hb => decide_eq_true (hformat.nulFree b hb)
    rw [hall] at hread
    rw [← hread.2] at hnull
    have hsome := (parseFileContent_isSome_iff file).mpr hformat.enoughNumbers
    rw [hnull] at hsome
    contradiction

/-- A file of one line. -/
def oneLine : Bytes :=
  bytesOf ['1', ',', '2', ',', '3', ',', '4', ',', '5', '\n']

/-- The second line is missing, and so is every number behind the fifth one. -/
theorem not_parsesSafely_oneLine : ¬ ParsesSafely oneLine := by
  have hnull : parseFileContent oneLine = none := by decide
  intro h
  exact h.tokens ⟨true, true, none⟩ oneLine (by decide) (by decide) hnull

end StatsManager
end PubSub
