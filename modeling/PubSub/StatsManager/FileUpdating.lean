import PubSub.Foundations.Decimal
import PubSub.Foundations.Tokens
import PubSub.StatsManager.NotificationHandling

/-!
# Updating the file

The stats manager adds its counters to the totals in {lit}`stats.txt`, one line for each topic
and five numbers in each line, and resets them.  It reads the file before it overwrites it, and
resets the counters whether the file has been overwritten or not.

Main results:

- Theorem {lit}`stringifyStats_eq`: the text of the totals always fits.
- Theorem {lit}`parseFileContent_text`: reading the text gives back the totals.
- Theorem {lit}`storedStats_take`: what is read when a part of the text is missing.
-/

namespace PubSub
namespace StatsManager

open Foundations

/-! ## The functions -/

def comma : Byte :=
  byteOf ','

def newline : Byte :=
  byteOf '\n'

/-- A number of the file as a counter. -/
def counterOf (number : Bytes) : UInt64 :=
  UInt64.ofInt (strtoll number)

/-- What {lit}`parse_file_content` does with a line: five calls of {lit}`strtok`, the results of
which it passes to {lit}`strtoll`.  That fails on a null pointer. -/
def parseLine (line : Option Bytes) (saved : Bytes) : Option (TopicStats × Bytes) :=
  match strtokTimes comma 5 line saved with
  | ([some number0, some number1, some number2, some number3, some number4], saved) =>
      some (⟨counterOf number0, counterOf number1, counterOf number2, counterOf number3,
        counterOf number4⟩, saved)
  | _ => none

/-- {lit}`parse_file_content`. -/
def parseFileContent (fileContent : Bytes) : Option TopicStatsArray :=
  match strtokTimes newline 3 (some fileContent) [] with
  | ([line0, line1, line2], saved) => do
      let (stats0, saved) ← parseLine line0 saved
      let (stats1, saved) ← parseLine line1 saved
      let (stats2, _) ← parseLine line2 saved
      return #v[stats0, stats1, stats2]
  | _ => none

/-- What {lit}`snprintf` writes for one topic. -/
def stringifyLine (stats : TopicStats) : Bytes :=
  decimal stats.publishCommandsNum.toNat ++ comma ::
    (decimal stats.subscribeCommandsNum.toNat ++ comma ::
      (decimal stats.unsubscribeCommandsNum.toNat ++ comma ::
        (decimal stats.topicExistsCommandsNum.toNat ++ comma ::
          (decimal stats.subscriberNumberCommandsNum.toNat ++ [newline]))))

/-- The loop of {lit}`stringify_stats`, with the text so far in the buffer. -/
def stringifyLoop (statsSize : Nat) : List TopicStats → Bytes → Option Bytes
  | [], stats => if stats.length < statsSize then some stats else none
  | topicStats :: rest, stats =>
      if (stringifyLine topicStats).length ≥ statsSize - stats.length then none
      else stringifyLoop statsSize rest (stats ++ stringifyLine topicStats)

/-- {lit}`stringify_stats`. -/
def stringifyStats (topicStatsArray : TopicStatsArray) (statsSize : Nat) : Option Bytes :=
  stringifyLoop statsSize topicStatsArray.toList []

/-- {lit}`reset_stats`. -/
def resetStats : TopicStatsArray :=
  Vector.replicate topicsNum ⟨0, 0, 0, 0, 0⟩

/-- Counter by counter, with the wrap-around of {lit}`uint64_t`. -/
def TopicStats.add (stats stats' : TopicStats) : TopicStats where
  publishCommandsNum := stats.publishCommandsNum + stats'.publishCommandsNum
  subscribeCommandsNum := stats.subscribeCommandsNum + stats'.subscribeCommandsNum
  unsubscribeCommandsNum := stats.unsubscribeCommandsNum + stats'.unsubscribeCommandsNum
  topicExistsCommandsNum := stats.topicExistsCommandsNum + stats'.topicExistsCommandsNum
  subscriberNumberCommandsNum :=
    stats.subscriberNumberCommandsNum + stats'.subscriberNumberCommandsNum

/-- The loop of {lit}`update_and_show_stats` that adds the counters to the totals. -/
def addStats (fileTopicStatsArray topicStatsArray : TopicStatsArray) : TopicStatsArray :=
  Vector.zipWith TopicStats.add fileTopicStatsArray topicStatsArray

/-- How the operations on the file turn out. -/
structure FileOperations where
  /-- {lit}`fopen` for reading, and the allocation behind it, succeed -/
  opensForReading : Bool
  opensForWriting : Bool
  /-- {lit}`fputs` fails when the file has so many bytes of the text -/
  fputsFails : Option Nat
deriving DecidableEq, Repr

/-- {lit}`read_file`, as a string. -/
def readFile (operations : FileOperations) (file : Bytes) : Option Bytes :=
  if operations.opensForReading then some (file.takeWhile (· ≠ 0)) else none

/-- {lit}`overwrite_file`: the file afterwards. -/
def overwriteFile (operations : FileOperations) (file stats : Bytes) : Bytes :=
  if operations.opensForWriting then
    match operations.fputsFails with
    | none => stats
    | some written => stats.take written
  else file

/-- {lit}`read_and_show_stats`: the totals that are shown, if the file can be read. -/
def readAndShowStats (operations : FileOperations) (file : Bytes) :
    Option (Option TopicStatsArray) :=
  match readFile operations file with
  | none => some none
  | some fileContent =>
      if fileContent = [] then some (some resetStats)
      else (parseFileContent fileContent).map some

/-- {lit}`update_and_show_stats`: the file and the counters afterwards. -/
def updateAndShowStats (operations : FileOperations) (file : Bytes)
    (topicStatsArray : TopicStatsArray) : Option (Bytes × TopicStatsArray) :=
  match readFile operations file with
  | none => some (file, topicStatsArray)
  | some fileContent =>
      if fileContent = [] then
        match stringifyStats topicStatsArray 400 with
        | some stats => some (overwriteFile operations file stats, resetStats)
        | none => some (file, resetStats)
      else do
        let fileTopicStatsArray ← parseFileContent fileContent
        match stringifyStats (addStats fileTopicStatsArray topicStatsArray) 400 with
        | some stats => return (overwriteFile operations file stats, resetStats)
        | none => return (file, resetStats)

/-- The totals in a file that can be read; an empty file stands for zeros. -/
def storedStats (file : Bytes) : Option TopicStatsArray :=
  let fileContent := file.takeWhile (· ≠ 0)
  if fileContent = [] then some resetStats else parseFileContent fileContent

/-! ## The text of the totals -/

/-- The numbers of a line, as they are written. -/
def TopicStats.numerals (stats : TopicStats) : List Bytes :=
  [decimal stats.publishCommandsNum.toNat, decimal stats.subscribeCommandsNum.toNat,
    decimal stats.unsubscribeCommandsNum.toNat, decimal stats.topicExistsCommandsNum.toNat,
    decimal stats.subscriberNumberCommandsNum.toNat]

/-- The last number of a line. -/
def TopicStats.lastNumeral (stats : TopicStats) : Bytes :=
  decimal stats.subscriberNumberCommandsNum.toNat

/-- The line of a topic, without its end. -/
def statsLine (stats : TopicStats) : Bytes :=
  terminated comma (stats.numerals.take 4) ++ stats.lastNumeral

/-- The text of the totals. -/
def fileText (topicStatsArray : TopicStatsArray) : Bytes :=
  terminated newline (topicStatsArray.toList.map statsLine)

theorem stringifyLine_eq (stats : TopicStats) :
    stringifyLine stats = statsLine stats ++ [newline] := by
  simp [stringifyLine, statsLine, terminated, TopicStats.numerals, TopicStats.lastNumeral]

theorem toList_eq (topicStatsArray : TopicStatsArray) :
    topicStatsArray.toList = [topicStatsArray[0], topicStatsArray[1], topicStatsArray[2]] := by
  rcases topicStatsArray with ⟨⟨l⟩, hl⟩
  match l, hl with
  | [_, _, _], _ => rfl

theorem length_decimal_le (n : UInt64) : (decimal n.toNat).length ≤ 20 := by
  rw [length_decimal_le_iff (by decide)]
  have hlt := n.toNat_lt
  omega

theorem length_stringifyLine_le (stats : TopicStats) : (stringifyLine stats).length ≤ 105 := by
  have hpublish := length_decimal_le stats.publishCommandsNum
  have hsubscribe := length_decimal_le stats.subscribeCommandsNum
  have hunsubscribe := length_decimal_le stats.unsubscribeCommandsNum
  have htopicExists := length_decimal_le stats.topicExistsCommandsNum
  have hsubscriberNumber := length_decimal_le stats.subscriberNumberCommandsNum
  simp only [stringifyLine, List.length_append, List.length_cons, List.length_nil]
  omega

theorem length_lines_le (stats : List TopicStats) :
    (terminated newline (stats.map statsLine)).length ≤ 105 * stats.length := by
  induction stats with
  | nil => simp [terminated]
  | cons topicStats stats ih =>
      have hle := length_stringifyLine_le topicStats
      rw [stringifyLine_eq] at hle
      rw [List.map_cons, terminated_cons, List.length_append, List.length_cons]
      omega

/-- The loop succeeds if all lines fit, with a byte to spare. -/
theorem stringifyLoop_eq (statsSize : Nat) (rest : List TopicStats) (stats : Bytes) :
    stringifyLoop statsSize rest stats =
      if (stats ++ terminated newline (rest.map statsLine)).length < statsSize then
        some (stats ++ terminated newline (rest.map statsLine))
      else none := by
  induction rest generalizing stats with
  | nil => simp [stringifyLoop, terminated]
  | cons topicStats rest ih =>
      rw [stringifyLoop, ih, stringifyLine_eq, List.map_cons, terminated_cons]
      by_cases hfull : (statsLine topicStats ++ [newline]).length ≥ statsSize - stats.length
      · rw [if_pos hfull, if_neg]
        simp only [List.length_append] at hfull ⊢
        omega
      · rw [if_neg hfull]
        simp only [List.append_assoc]

/-- The buffer of {lit}`update_and_show_stats` is large enough for all totals. -/
theorem stringifyStats_eq (topicStatsArray : TopicStatsArray) :
    stringifyStats topicStatsArray 400 = some (fileText topicStatsArray) := by
  have hle := length_lines_le topicStatsArray.toList
  have hthree : topicStatsArray.toList.length = 3 := Vector.length_toList
  rw [stringifyStats, stringifyLoop_eq, List.nil_append, fileText, if_pos (by omega)]

/-! ## Reading numbers -/

/-- What is read of a number that has been written. -/
def storedCounter (n : UInt64) : UInt64 :=
  UInt64.ofNat (min 0x7FFFFFFFFFFFFFFF n.toNat)

def TopicStats.stored (stats : TopicStats) : TopicStats where
  publishCommandsNum := storedCounter stats.publishCommandsNum
  subscribeCommandsNum := storedCounter stats.subscribeCommandsNum
  unsubscribeCommandsNum := storedCounter stats.unsubscribeCommandsNum
  topicExistsCommandsNum := storedCounter stats.topicExistsCommandsNum
  subscriberNumberCommandsNum := storedCounter stats.subscriberNumberCommandsNum

theorem counterOf_digits {ds : Bytes} (hds : ∀ b ∈ ds, isDigit b = true) :
    counterOf ds = UInt64.ofNat (min 0x7FFFFFFFFFFFFFFF (digitsValue 0 ds)) := by
  have hmin : min llongMax (digitsValue 0 ds : Int) =
      ((min 0x7FFFFFFFFFFFFFFF (digitsValue 0 ds) : Nat) : Int) := by
    rw [llongMax]
    omega
  rw [counterOf, strtoll_digits hds, hmin, UInt64.ofInt, Int.emod_eq_of_lt (by omega) (by omega),
    Int.toNat_natCast]

theorem counterOf_decimal (n : UInt64) : counterOf (decimal n.toNat) = storedCounter n := by
  rw [counterOf_digits fun b hb => mem_decimal hb, digitsValue_decimal, storedCounter]

/-- The first digits of a number: no cut number reaches the bound of {lit}`strtoll`. -/
theorem counterOf_of_append {n : UInt64} {ds es : Bytes} (h : decimal n.toNat = ds ++ es)
    (hes : es ≠ []) : counterOf ds = UInt64.ofNat (n.toNat / 10 ^ es.length) := by
  have hdigits : ∀ b ∈ ds, isDigit b = true :=
    fun b hb => mem_decimal (h ▸ List.mem_append_left es hb)
  have hlength : 1 ≤ es.length := List.length_pos_iff.mpr hes
  have hpow : 10 ^ 1 ≤ 10 ^ es.length := Nat.pow_le_pow_right (by decide) hlength
  have hcut : n.toNat / 10 ^ es.length ≤ n.toNat / 10 := Nat.div_le_div_left (by omega) (by decide)
  have hlt := n.toNat_lt
  rw [counterOf_digits hdigits, digitsValue_of_append h, Nat.min_eq_right]
  omega

/-! ## Reading lines -/

/-- A line with five numbers, and perhaps more behind them. -/
theorem parseLine_of_tokens (line : Option Bytes) (saved : Bytes) {a b c d e : Bytes}
    {more : List Bytes} (h : tokens comma (line.getD saved) = a :: b :: c :: d :: e :: more) :
    ∃ rest, parseLine line saved =
        some (⟨counterOf a, counterOf b, counterOf c, counterOf d, counterOf e⟩, rest) ∧
      tokens comma rest = more := by
  rcases strtokTimes_succ comma 4 line saved with ⟨hreturned, hrest⟩
  rw [h] at hreturned hrest
  have hpair : strtokTimes comma 5 line saved =
      ([some a, some b, some c, some d, some e], (strtokTimes comma 5 line saved).2) :=
    Prod.ext (by simpa [List.range_succ] using hreturned) rfl
  refine ⟨(strtokTimes comma 5 line saved).2, ?_, hrest⟩
  rw [parseLine, hpair]

/-- Reading a line takes five numbers. -/
theorem parseLine_some {line : Option Bytes} {saved rest : Bytes} {stats : TopicStats}
    (h : parseLine line saved = some (stats, rest)) :
    5 ≤ (tokens comma (line.getD saved)).length ∧
      tokens comma rest = (tokens comma (line.getD saved)).drop 5 := by
  rcases strtokTimes_succ comma 4 line saved with ⟨hreturned, hrest⟩
  rw [parseLine] at h
  split at h
  · next number0 number1 number2 number3 number4 saved' hpair =>
    rw [hpair] at hreturned hrest
    rw [Option.some.injEq, Prod.mk.injEq] at h
    refine ⟨?_, h.2 ▸ hrest⟩
    by_contra hshort
    have hmissing : (tokens comma (line.getD saved))[4]? = none :=
      List.getElem?_eq_none (by omega)
    have hlast := congrArg (·[4]?) hreturned
    simp [List.range_succ, hmissing] at hlast
  · contradiction

/-- A line with at least five numbers can be read. -/
theorem parseLine_of_five_le {line : Option Bytes} {saved : Bytes}
    (h : 5 ≤ (tokens comma (line.getD saved)).length) :
    ∃ stats rest, parseLine line saved = some (stats, rest) ∧
      tokens comma rest = (tokens comma (line.getD saved)).drop 5 := by
  match htokens : tokens comma (line.getD saved), h with
  | _ :: _ :: _ :: _ :: _ :: _, _ =>
      rcases parseLine_of_tokens line saved htokens with ⟨rest, hparse, hrest⟩
      exact ⟨_, rest, hparse, hrest⟩

theorem parseLine_eq_none {line : Option Bytes} {saved : Bytes}
    (hshort : (tokens comma (line.getD saved)).length < 5) : parseLine line saved = none := by
  rw [Option.eq_none_iff_forall_ne_some]
  rintro ⟨stats, rest⟩ h
  have hlong := (parseLine_some h).1
  omega

/-- Behind a line of five numbers there is none for a line that is missing. -/
theorem parseLine_bind_none (line : Option Bytes) (saved : Bytes) {α : Type}
    (hlong : (tokens comma (line.getD saved)).length ≤ 5)
    (f : TopicStats × Bytes → TopicStats × Bytes → Option α) :
    ((parseLine line saved).bind fun result => (parseLine none result.2).bind (f result)) =
      none := by
  cases h : parseLine line saved with
  | none => rfl
  | some result =>
      have hrest := (parseLine_some h).2
      rw [List.drop_eq_nil_of_le hlong] at hrest
      have hnone : parseLine none result.2 = none := parseLine_eq_none (by simp [hrest])
      rw [Option.bind_some, hnone, Option.bind_none]

/-! ## The tokens of the text -/

theorem ne_of_isDigit {b c : Byte} (hb : isDigit b = true) (hc : isDigit c = false) : b ≠ c := by
  rintro rfl
  rw [hb] at hc
  contradiction

theorem isToken_decimal {delimiter : Byte} (hdelimiter : isDigit delimiter = false) (n : Nat) :
    IsToken delimiter (decimal n) :=
  ⟨decimal_ne_nil n, fun _ hb => ne_of_isDigit (mem_decimal hb) hdelimiter⟩

theorem isToken_of_mem_numerals {stats : TopicStats} {t : Bytes} (ht : t ∈ stats.numerals) :
    IsToken comma t := by
  simp only [TopicStats.numerals, List.mem_cons, List.not_mem_nil, or_false] at ht
  rcases ht with rfl | rfl | rfl | rfl | rfl <;> exact isToken_decimal (by decide) _

theorem isDigit_of_mem_numerals {stats : TopicStats} {t : Bytes} (ht : t ∈ stats.numerals)
    {b : Byte} (hb : b ∈ t) : isDigit b = true := by
  simp only [TopicStats.numerals, List.mem_cons, List.not_mem_nil, or_false] at ht
  rcases ht with rfl | rfl | rfl | rfl | rfl <;> exact mem_decimal hb

theorem mem_statsLine {stats : TopicStats} {b : Byte} (hb : b ∈ statsLine stats) :
    isDigit b = true ∨ b = comma := by
  rcases List.mem_append.mp hb with hfront | hlast
  · rcases mem_terminated hfront with ⟨t, ht, hmem⟩ | hcomma
    · exact .inl (isDigit_of_mem_numerals (List.mem_of_mem_take ht) hmem)
    · exact .inr hcomma
  · exact .inl (mem_decimal hlast)

theorem isToken_statsLine (stats : TopicStats) : IsToken newline (statsLine stats) := by
  constructor
  · have hlast : stats.lastNumeral ≠ [] := decimal_ne_nil _
    simp [statsLine, hlast]
  · intro b hb
    rcases mem_statsLine hb with hdigit | rfl
    · exact ne_of_isDigit hdigit (by decide)
    · decide

/-- A line that is cut off in its last number. -/
theorem tokens_cutLine {stats : TopicStats} {ds es : Bytes} (h : stats.lastNumeral = ds ++ es)
    (hds : ds ≠ []) :
    tokens comma (terminated comma (stats.numerals.take 4) ++ ds) =
      stats.numerals.take 4 ++ [ds] := by
  rw [tokens_terminated_append fun t ht => isToken_of_mem_numerals (List.mem_of_mem_take ht)]
  have hdigits : ∀ b ∈ ds, b ≠ comma := fun b hb =>
    ne_of_isDigit (mem_decimal (h ▸ List.mem_append_left es hb : b ∈ stats.lastNumeral))
      (by decide)
  rw [tokens_of_isToken ⟨hds, hdigits⟩]

theorem tokens_statsLine (stats : TopicStats) :
    tokens comma (statsLine stats) = stats.numerals := by
  rw [statsLine, tokens_cutLine (List.append_nil _).symm (decimal_ne_nil _)]
  rfl

/-- The tokens of a text that ends inside a token. -/
theorem length_tokens_prefix {delimiter : Byte} {ts : List Bytes}
    (hts : ∀ t ∈ ts, IsToken delimiter t) {s : Bytes} (hs : s <+: terminated delimiter ts) :
    (tokens delimiter s).length ≤ ts.length := by
  rcases prefix_terminated_cases hs with ⟨us, v, vs, w, rfl, hw, rfl⟩ | rfl
  · have hw' : ∀ b ∈ w, b ≠ delimiter := fun b hb =>
      (hts v (by simp)).2 b (hw.subset hb)
    rw [tokens_terminated_append fun t ht => hts t (by simp [ht]), tokens_of_forall_ne hw']
    split <;> simp
  · rw [tokens_terminated hts]

/-- A line that is cut off before its last number. -/
theorem length_tokens_front {stats : TopicStats} {s : Bytes}
    (hs : s <+: terminated comma (stats.numerals.take 4)) : (tokens comma s).length < 5 := by
  have hle := length_tokens_prefix
    (fun t ht => isToken_of_mem_numerals (List.mem_of_mem_take ht)) hs
  have hfour : (stats.numerals.take 4).length = 4 := rfl
  omega

theorem length_tokens_line {stats : TopicStats} {s : Bytes} (hs : s <+: statsLine stats) :
    (tokens comma s).length ≤ 5 := by
  have hline : statsLine stats <+: terminated comma stats.numerals :=
    ⟨[comma], by simp [statsLine, terminated, TopicStats.numerals, TopicStats.lastNumeral]⟩
  exact length_tokens_prefix (fun t ht => isToken_of_mem_numerals ht) (hs.trans hline)

/-! ## Reading a file -/

/-- The lines that are read are the first three tokens.  Without any, nothing is left to read. -/
theorem parseFileContent_eq (fileContent : Bytes) :
    ∃ saved, (tokens newline fileContent = [] → saved = []) ∧ parseFileContent fileContent =
      (parseLine (tokens newline fileContent)[0]? saved).bind fun result0 =>
        (parseLine (tokens newline fileContent)[1]? result0.2).bind fun result1 =>
          (parseLine (tokens newline fileContent)[2]? result1.2).bind fun result2 =>
            some #v[result0.1, result1.1, result2.1] := by
  rcases strtokTimes_succ newline 2 (some fileContent) [] with ⟨hreturned, -⟩
  rw [Option.getD_some] at hreturned
  have hpair : strtokTimes newline 3 (some fileContent) [] =
      ([(tokens newline fileContent)[0]?, (tokens newline fileContent)[1]?,
        (tokens newline fileContent)[2]?], (strtokTimes newline 3 (some fileContent) []).2) :=
    Prod.ext (by simpa [List.range_succ] using hreturned) rfl
  refine ⟨(strtokTimes newline 3 (some fileContent) []).2,
    fun hnil => strtokTimes_of_tokens_nil hnil 2, ?_⟩
  rw [parseFileContent, hpair]
  rfl

/-- A complete line gives the stored numbers of its topic. -/
theorem parseLine_statsLine (stats : TopicStats) (saved : Bytes) :
    ∃ rest, parseLine (some (statsLine stats)) saved = some (stats.stored, rest) ∧
      tokens comma rest = [] := by
  rcases parseLine_of_tokens (some (statsLine stats)) saved (tokens_statsLine stats) with
    ⟨rest, hparse, hrest⟩
  refine ⟨rest, ?_, hrest⟩
  simp only [hparse, counterOf_decimal]
  rfl

/-- The text in front of the last number. -/
def fileHead (topicStatsArray : TopicStatsArray) : Bytes :=
  terminated newline [statsLine topicStatsArray[0], statsLine topicStatsArray[1]] ++
    terminated comma (topicStatsArray[2].numerals.take 4)

/-- The stored totals, with another value of the last one. -/
def storedWithLast (topicStatsArray : TopicStatsArray) (last : UInt64) : TopicStatsArray :=
  #v[topicStatsArray[0].stored, topicStatsArray[1].stored,
    { topicStatsArray[2].stored with subscriberNumberCommandsNum := last }]

theorem fileText_eq (topicStatsArray : TopicStatsArray) :
    fileText topicStatsArray =
      fileHead topicStatsArray ++ (topicStatsArray[2].lastNumeral ++ [newline]) := by
  simp [fileText, toList_eq, fileHead, statsLine, terminated]

/-- A file with three lines, of which the last number has perhaps been cut off. -/
theorem parseFileContent_of_tokens {topicStatsArray : TopicStatsArray} {fileContent ds es : Bytes}
    (h : topicStatsArray[2].lastNumeral = ds ++ es) (hds : ds ≠ [])
    (htokens : tokens newline fileContent =
      [statsLine topicStatsArray[0], statsLine topicStatsArray[1],
        terminated comma (topicStatsArray[2].numerals.take 4) ++ ds]) :
    parseFileContent fileContent = some (storedWithLast topicStatsArray (counterOf ds)) := by
  rcases parseFileContent_eq fileContent with ⟨saved, -, hparse⟩
  rcases parseLine_statsLine topicStatsArray[0] saved with ⟨rest0, hline0, -⟩
  rcases parseLine_statsLine topicStatsArray[1] rest0 with ⟨rest1, hline1, -⟩
  rcases parseLine_of_tokens
    (some (terminated comma (topicStatsArray[2].numerals.take 4) ++ ds)) rest1
    (tokens_cutLine h hds) with ⟨rest2, hline2, -⟩
  rw [hparse, htokens]
  simp only [List.getElem?_cons_zero, List.getElem?_cons_succ, hline0, hline1, hline2,
    Option.bind_some, counterOf_decimal]
  rfl

/-- The file ends with a digit of its last number. -/
theorem parseFileContent_of_cut {topicStatsArray : TopicStatsArray} {ds es : Bytes}
    (h : topicStatsArray[2].lastNumeral = ds ++ es) (hds : ds ≠ []) :
    parseFileContent (fileHead topicStatsArray ++ ds) =
      some (storedWithLast topicStatsArray (counterOf ds)) := by
  apply parseFileContent_of_tokens h hds
  have hbegins : terminated comma (topicStatsArray[2].numerals.take 4) ++ ds <+:
      statsLine topicStatsArray[2] := ⟨es, by rw [statsLine, h, List.append_assoc]⟩
  have hline : IsToken newline
      (terminated comma (topicStatsArray[2].numerals.take 4) ++ ds) :=
    ⟨by simp [hds], fun b hb => (isToken_statsLine _).2 b (hbegins.subset hb)⟩
  rw [fileHead, List.append_assoc, tokens_terminated_append, tokens_of_isToken hline]
  · rfl
  · simp [isToken_statsLine]

/-- With the whole last number, the totals are complete. -/
theorem storedWithLast_lastNumeral (topicStatsArray : TopicStatsArray) :
    storedWithLast topicStatsArray (counterOf topicStatsArray[2].lastNumeral) =
      topicStatsArray.map TopicStats.stored := by
  rw [TopicStats.lastNumeral, counterOf_decimal]
  apply Vector.toList_inj.mp
  rw [toList_eq, toList_eq]
  simp [storedWithLast, TopicStats.stored]

/-- Reading the text gives the stored totals. -/
theorem parseFileContent_text (topicStatsArray : TopicStatsArray) :
    parseFileContent (fileText topicStatsArray) =
      some (topicStatsArray.map TopicStats.stored) := by
  have htokens : tokens newline (fileText topicStatsArray) =
      [statsLine topicStatsArray[0], statsLine topicStatsArray[1],
        statsLine topicStatsArray[2]] := by
    rw [fileText, tokens_terminated, toList_eq]
    · rfl
    · simp [isToken_statsLine]
  rw [parseFileContent_of_tokens (List.append_nil _).symm (decimal_ne_nil _) htokens,
    storedWithLast_lastNumeral]

/-- One line: there is nothing that could be read for the second topic. -/
theorem parseFileContent_oneLine {s line : Bytes} (htokens : tokens newline s = [line])
    (hline : (tokens comma line).length ≤ 5) : parseFileContent s = none := by
  rcases parseFileContent_eq s with ⟨saved, -, hparse⟩
  rw [hparse, htokens]
  simp only [List.getElem?_cons_zero, List.getElem?_cons_succ, List.getElem?_nil]
  exact parseLine_bind_none (some line) saved hline _

/-- Two lines: there is nothing that could be read for the third topic. -/
theorem parseFileContent_twoLines {s line : Bytes} {stats : TopicStats}
    (htokens : tokens newline s = [statsLine stats, line])
    (hline : (tokens comma line).length ≤ 5) : parseFileContent s = none := by
  rcases parseFileContent_eq s with ⟨saved, -, hparse⟩
  rcases parseLine_statsLine stats saved with ⟨rest, hfirst, -⟩
  rw [hparse, htokens]
  simp only [List.getElem?_cons_zero, List.getElem?_cons_succ, List.getElem?_nil, hfirst,
    Option.bind_some]
  exact parseLine_bind_none (some line) rest hline _

/-- Three lines, of which the last one lacks its last number. -/
theorem parseFileContent_shortLine {s line : Bytes} {stats stats' : TopicStats}
    (htokens : tokens newline s = [statsLine stats, statsLine stats', line])
    (hline : (tokens comma line).length < 5) : parseFileContent s = none := by
  rcases parseFileContent_eq s with ⟨saved, -, hparse⟩
  rcases parseLine_statsLine stats saved with ⟨rest, hfirst, -⟩
  rcases parseLine_statsLine stats' rest with ⟨rest', hsecond, -⟩
  have hthird : parseLine (some line) rest' = none := parseLine_eq_none hline
  rw [hparse, htokens]
  simp only [List.getElem?_cons_zero, List.getElem?_cons_succ, hfirst, hsecond, hthird,
    Option.bind_some, Option.bind_none]

/-- The tokens of complete lines and of a part of the next one. -/
theorem tokens_lines_append (stats : List TopicStats) {s : Bytes} (hs : ∀ b ∈ s, b ≠ newline) :
    tokens newline (terminated newline (stats.map statsLine) ++ s) =
      stats.map statsLine ++ if s = [] then [] else [s] := by
  rw [tokens_terminated_append, tokens_of_forall_ne hs]
  intro t ht
  rcases List.mem_map.mp ht with ⟨line, -, rfl⟩
  exact isToken_statsLine line

theorem ne_newline_of_begins {stats : TopicStats} {s : Bytes} (hs : s <+: statsLine stats) :
    ∀ b ∈ s, b ≠ newline :=
  fun b hb => (isToken_statsLine stats).2 b (hs.subset hb)

/-- The file ends in its first line, or right behind it. -/
theorem parseFileContent_inFirstLine {stats : TopicStats} {s : Bytes} (hs : s ≠ [])
    (hbegins : s <+: statsLine stats) : parseFileContent s = none := by
  have htokens := tokens_lines_append [] (ne_newline_of_begins hbegins)
  rw [List.map_nil, if_neg hs] at htokens
  exact parseFileContent_oneLine htokens (length_tokens_line hbegins)

theorem parseFileContent_inSecondLine {stats stats' : TopicStats} {s : Bytes}
    (hbegins : s <+: statsLine stats') :
    parseFileContent (terminated newline [statsLine stats] ++ s) = none := by
  have htokens := tokens_lines_append [stats] (ne_newline_of_begins hbegins)
  by_cases hs : s = []
  · rw [if_pos hs] at htokens
    exact parseFileContent_oneLine htokens (length_tokens_line (List.prefix_refl _))
  · rw [if_neg hs] at htokens
    exact parseFileContent_twoLines htokens (length_tokens_line hbegins)

theorem parseFileContent_inThirdLine (stats stats' stats'' : TopicStats) {s : Bytes}
    (hbegins : s <+: terminated comma (stats''.numerals.take 4)) :
    parseFileContent (terminated newline [statsLine stats, statsLine stats'] ++ s) = none := by
  have hline : s <+: statsLine stats'' := hbegins.trans (List.prefix_append _ _)
  have htokens := tokens_lines_append [stats, stats'] (ne_newline_of_begins hline)
  by_cases hs : s = []
  · rw [if_pos hs] at htokens
    exact parseFileContent_twoLines htokens (length_tokens_line (List.prefix_refl _))
  · rw [if_neg hs] at htokens
    exact parseFileContent_shortLine htokens (length_tokens_front hbegins)

/-- The file ends before its last number. -/
theorem parseFileContent_of_head {topicStatsArray : TopicStatsArray} {s : Bytes} (hs : s ≠ [])
    (hbegins : s <+: fileHead topicStatsArray) : parseFileContent s = none := by
  rcases prefix_append_cases hbegins with hlines | ⟨w, rfl, hw⟩
  · rcases prefix_terminated_cases hlines with ⟨us, v, vs, w, hsplit, hw, rfl⟩ | rfl
    · match us, hsplit with
      | [], hsplit =>
          rw [List.nil_append, List.cons.injEq] at hsplit
          exact parseFileContent_inFirstLine hs (hsplit.1 ▸ hw)
      | [u], hsplit =>
          simp only [List.cons_append, List.nil_append, List.cons.injEq] at hsplit
          rw [← hsplit.1]
          exact parseFileContent_inSecondLine (hsplit.2.1 ▸ hw)
      | _ :: _ :: _, hsplit => simp at hsplit
    · have hthird := parseFileContent_inThirdLine topicStatsArray[0] topicStatsArray[1]
        topicStatsArray[2] (s := []) (by simp)
      rwa [List.append_nil] at hthird
  · exact parseFileContent_inThirdLine _ _ _ hw

/-! ## Reading a part of the text -/

theorem fileText_nulFree (topicStatsArray : TopicStatsArray) :
    NulFree (fileText topicStatsArray) := by
  intro b hb
  rcases mem_terminated hb with ⟨line, hline, hmem⟩ | rfl
  · rcases List.mem_map.mp hline with ⟨stats, -, rfl⟩
    rcases mem_statsLine hmem with hdigit | rfl
    · exact ne_of_isDigit hdigit (by decide)
    · decide
  · decide

/-- A file without a terminator is read as it is. -/
theorem storedStats_of_nulFree {file : Bytes} (hfile : NulFree file) :
    storedStats file = if file = [] then some resetStats else parseFileContent file := by
  have hall : file.takeWhile (· ≠ 0) = file :=
    List.takeWhile_eq_self_iff.mpr fun b hb => decide_eq_true (hfile b hb)
  rw [storedStats, hall]

theorem length_fileText (topicStatsArray : TopicStatsArray) :
    (fileText topicStatsArray).length =
      (fileHead topicStatsArray).length + topicStatsArray[2].lastNumeral.length + 1 := by
  rw [fileText_eq, List.length_append, List.length_append, List.length_singleton, Nat.add_assoc]

theorem fileHead_ne_nil (topicStatsArray : TopicStatsArray) : fileHead topicStatsArray ≠ [] := by
  simp [fileHead, terminated]

/-- A part that reaches into the last number. -/
theorem take_fileText {topicStatsArray : TopicStatsArray} {visible : Nat}
    (hhead : (fileHead topicStatsArray).length ≤ visible)
    (hend : visible < (fileText topicStatsArray).length) :
    (fileText topicStatsArray).take visible = fileHead topicStatsArray ++
      topicStatsArray[2].lastNumeral.take (visible - (fileHead topicStatsArray).length) := by
  rw [length_fileText] at hend
  rw [fileText_eq, List.take_append, List.take_of_length_le hhead,
    List.take_append_of_le_length (by omega)]

/-- What is read when the file has only so many bytes of the text: the totals, if at most the end
of the last line is missing; nothing, which stands for zeros; or totals of which the last one
lacks digits.  In all other cases a number is missing. -/
theorem storedStats_take (topicStatsArray : TopicStatsArray) (visible : Nat) :
    storedStats ((fileText topicStatsArray).take visible) =
      if (fileText topicStatsArray).length ≤ visible + 1 then
        some (topicStatsArray.map TopicStats.stored)
      else if visible = 0 then some resetStats
      else if (fileHead topicStatsArray).length < visible then
        some (storedWithLast topicStatsArray (UInt64.ofNat
          (topicStatsArray[2].subscriberNumberCommandsNum.toNat /
            10 ^ ((fileText topicStatsArray).length - 1 - visible))))
      else none := by
  have hlength := length_fileText topicStatsArray
  have hhead := List.length_pos_iff.mpr (fileHead_ne_nil topicStatsArray)
  have hnul : NulFree ((fileText topicStatsArray).take visible) :=
    fun b hb => fileText_nulFree topicStatsArray b (List.mem_of_mem_take hb)
  rw [storedStats_of_nulFree hnul]
  by_cases hall : (fileText topicStatsArray).length ≤ visible
  · have hne : fileText topicStatsArray ≠ [] := List.ne_nil_of_length_pos (by omega)
    rw [List.take_of_length_le hall, if_neg hne, if_pos (by omega), parseFileContent_text]
  by_cases hempty : visible = 0
  · rw [if_pos (by rw [hempty, List.take_zero]), if_neg (by omega), if_pos hempty]
  have hne : (fileText topicStatsArray).take visible ≠ [] := by
    apply List.ne_nil_of_length_pos
    rw [List.length_take]
    omega
  rw [if_neg hne]
  by_cases hdigits : (fileHead topicStatsArray).length < visible
  · have hds : topicStatsArray[2].lastNumeral.take
        (visible - (fileHead topicStatsArray).length) ≠ [] := by
      apply List.ne_nil_of_length_pos
      rw [List.length_take]
      omega
    rw [take_fileText (by omega) (by omega),
      parseFileContent_of_cut (List.take_append_drop _ _).symm hds]
    by_cases hlast : (fileText topicStatsArray).length ≤ visible + 1
    · rw [if_pos hlast, List.take_of_length_le (by omega), storedWithLast_lastNumeral]
    · have hes : topicStatsArray[2].lastNumeral.drop
          (visible - (fileHead topicStatsArray).length) ≠ [] := by
        apply List.ne_nil_of_length_pos
        rw [List.length_drop]
        omega
      have hmissing : (topicStatsArray[2].lastNumeral.drop
          (visible - (fileHead topicStatsArray).length)).length =
            (fileText topicStatsArray).length - 1 - visible := by
        rw [List.length_drop]
        omega
      have hcounter := counterOf_of_append (List.take_append_drop
        (visible - (fileHead topicStatsArray).length) topicStatsArray[2].lastNumeral).symm hes
      rw [hmissing] at hcounter
      rw [if_neg hlast, if_neg hempty, if_pos hdigits, hcounter]
  · have hlast := List.length_pos_iff.mpr
      (decimal_ne_nil topicStatsArray[2].subscriberNumberCommandsNum.toNat)
    have hlastNumeral : 0 < topicStatsArray[2].lastNumeral.length := hlast
    have hbegins : (fileText topicStatsArray).take visible <+: fileHead topicStatsArray := by
      rw [fileText_eq, List.take_append_of_le_length (by omega)]
      exact List.take_prefix _ _
    rw [parseFileContent_of_head hne hbegins, if_neg (by omega), if_neg hempty, if_neg hdigits]

end StatsManager
end PubSub
