import PubSub.StatsManager.FileUpdating

/-!
# Failures while the file is updated

The new totals replace the old ones in place: {lit}`fopen` truncates the file, and the text follows.
If the file cannot be opened or written, or if the process is killed in between, there is no other
copy of the totals, and the counters that are to be added to them are reset all the same.

Main results:

- Theorem {lit}`updateAndShowStats_eq`: what an update does, in terms of the stored totals.
- Theorem {lit}`countsSurvive_iff`: the failures in which no counts are lost.
- Theorem {lit}`nextStart_afterKill`: what the next start reads, for every point at which an
  update is killed.
-/

namespace PubSub
namespace StatsManager

open Foundations

/-! ## What an update does -/

theorem counterValue_resetStats (c : Counter) : counterValue resetStats c = 0 := by
  rcases c with ⟨i, type⟩
  cases type <;> simp [counterValue, resetStats, TopicStats.get]

theorem counterValue_addStats (a b : TopicStatsArray) (c : Counter) :
    counterValue (addStats a b) c = counterValue a c + counterValue b c := by
  rcases c with ⟨i, type⟩
  cases type <;> simp [counterValue, addStats, TopicStats.add, TopicStats.get]

theorem counterValue_stored (topicStatsArray : TopicStatsArray) (c : Counter) :
    counterValue (topicStatsArray.map TopicStats.stored) c =
      storedCounter (counterValue topicStatsArray c) := by
  rcases c with ⟨i, type⟩
  cases type <;> simp [counterValue, TopicStats.stored, TopicStats.get]

theorem resetStats_addStats (topicStatsArray : TopicStatsArray) :
    addStats resetStats topicStatsArray = topicStatsArray :=
  eq_of_counterValue fun c => by
    rw [counterValue_addStats, counterValue_resetStats, UInt64.zero_add]

/-- An update that can read the file adds the counters to the stored totals, overwrites the file
with the text of the sums if it can, and resets the counters. -/
theorem updateAndShowStats_eq (operations : FileOperations) (file : Bytes)
    (topicStatsArray : TopicStatsArray) :
    updateAndShowStats operations file topicStatsArray =
      if operations.opensForReading then
        (storedStats file).map fun stored =>
          (overwriteFile operations file (fileText (addStats stored topicStatsArray)), resetStats)
      else some (file, topicStatsArray) := by
  unfold updateAndShowStats readFile
  split
  · next h =>
    have hopens : operations.opensForReading = false := by
      by_contra hopens
      simp [hopens] at h
    simp [hopens]
  · next fileContent h =>
    rw [Option.ite_none_right_eq_some, Option.some.injEq] at h
    rcases h with ⟨hopens, hcontent⟩
    rw [if_pos hopens, storedStats, hcontent]
    simp only [stringifyStats_eq]
    split
    · rw [Option.map_some, resetStats_addStats]
    · cases parseFileContent fileContent <;> rfl

theorem readAndShowStats_eq (operations : FileOperations) (file : Bytes) :
    readAndShowStats operations file =
      if operations.opensForReading then (storedStats file).map some else some none := by
  unfold readAndShowStats readFile storedStats
  cases operations.opensForReading with
  | false => rfl
  | true =>
      simp only [if_true]
      split <;> rfl

/-! ## Counts that are lost -/

/-- What {lit}`stats.txt` holds: nothing, or what {lit}`stringify_stats` has produced. -/
def IsStatsFile (file : Bytes) : Prop :=
  file = [] ∨ ∃ topicStatsArray, stringifyStats topicStatsArray 400 = some file

/-- No count is lost: for every counter, what the file stores and what the array holds add up to
the same sum after the update as before, and an update that leaves the file as it was leaves
the array as it was. -/
structure CountsSurvive (operations : FileOperations) (file : Bytes)
    (topicStatsArray : TopicStatsArray) (file' : Bytes) (topicStatsArray' : TopicStatsArray) :
    Prop where
  conserved : ∃ stored stored', storedStats file = some stored ∧
    storedStats file' = some stored' ∧ ∀ c,
      (counterValue stored' c).toNat + (counterValue topicStatsArray' c).toNat =
        (counterValue stored c).toNat + (counterValue topicStatsArray c).toNat
  kept : operations.opensForReading = false ∨ operations.opensForWriting = false →
    topicStatsArray' = topicStatsArray

/-- The failures that lose nothing: the file cannot be read; or it cannot be opened for writing
and there is nothing to be added; or {lit}`fputs` fails when all of the text except perhaps its last
byte has been written, or none of it and the totals are zero. -/
def FailsHarmlessly (operations : FileOperations) (stored topicStatsArray : TopicStatsArray) :
    Prop :=
  operations.opensForReading = true →
    if operations.opensForWriting then
      ∀ written, operations.fputsFails = some written →
        (fileText (addStats stored topicStatsArray)).length ≤ written + 1 ∨
          written = 0 ∧ stored = resetStats ∧ topicStatsArray = resetStats
    else topicStatsArray = resetStats

section Sums

variable {stored topicStatsArray : TopicStatsArray}

theorem toNat_addStats
    (hsums : ∀ c, (counterValue stored c).toNat + (counterValue topicStatsArray c).toNat < 2 ^ 63)
    (c : Counter) :
    (counterValue (addStats stored topicStatsArray) c).toNat =
      (counterValue stored c).toNat + (counterValue topicStatsArray c).toNat := by
  have hsum := hsums c
  rw [counterValue_addStats, UInt64.toNat_add, Nat.mod_eq_of_lt (by omega)]

/-- Sums below the bound of {lit}`strtoll` are read as they have been written. -/
theorem stored_addStats
    (hsums : ∀ c, (counterValue stored c).toNat + (counterValue topicStatsArray c).toNat < 2 ^ 63)
    (c : Counter) :
    (counterValue ((addStats stored topicStatsArray).map TopicStats.stored) c).toNat =
      (counterValue stored c).toNat + (counterValue topicStatsArray c).toNat := by
  have hsum := hsums c
  rw [counterValue_stored, storedCounter, toNat_addStats hsums, Nat.min_eq_right (by omega),
    UInt64.toNat_ofNat', Nat.mod_eq_of_lt (by omega)]

/-- Zeros are read as the totals only if there is nothing to be counted. -/
theorem eq_resetStats_iff :
    (∀ c, 0 = (counterValue stored c).toNat + (counterValue topicStatsArray c).toNat) ↔
      stored = resetStats ∧ topicStatsArray = resetStats := by
  constructor
  · intro hzero
    constructor
    · apply eq_of_counterValue
      intro c
      rw [counterValue_resetStats]
      exact UInt64.toNat_inj.mp (by have := hzero c; simp; omega)
    · apply eq_of_counterValue
      intro c
      rw [counterValue_resetStats]
      exact UInt64.toNat_inj.mp (by have := hzero c; simp; omega)
  · rintro ⟨rfl, rfl⟩ c
    simp [counterValue_resetStats]

/-- A number that lacks a digit is not the number. -/
theorem cut_ne {n : UInt64} {k : Nat} (hk : 0 < k) (hdigits : k < (decimal n.toNat).length) :
    (UInt64.ofNat (n.toNat / 10 ^ k)).toNat ≠ n.toNat := by
  have hten : ¬ n.toNat < 10 ^ 1 := by
    rw [← length_decimal_le_iff (by decide)]
    omega
  have hpow : 10 ^ 1 ≤ 10 ^ k := Nat.pow_le_pow_right (by decide) hk
  have hcut : n.toNat / 10 ^ k ≤ n.toNat / 10 := Nat.div_le_div_left (by omega) (by decide)
  have hlt := n.toNat_lt
  rw [UInt64.toNat_ofNat', Nat.mod_eq_of_lt (by omega)]
  omega

/-- The totals that are read are the sums exactly when the file has all of the text but perhaps its
last byte, or is empty and the sums are zero. -/
theorem storedStats_take_iff
    (hsums : ∀ c, (counterValue stored c).toNat + (counterValue topicStatsArray c).toNat < 2 ^ 63)
    (written : Nat) :
    (∃ stored', storedStats ((fileText (addStats stored topicStatsArray)).take written) =
        some stored' ∧ ∀ c, (counterValue stored' c).toNat =
          (counterValue stored c).toNat + (counterValue topicStatsArray c).toNat) ↔
      (fileText (addStats stored topicStatsArray)).length ≤ written + 1 ∨
        written = 0 ∧ stored = resetStats ∧ topicStatsArray = resetStats := by
  rw [storedStats_take]
  by_cases hlong : (fileText (addStats stored topicStatsArray)).length ≤ written + 1
  · rw [if_pos hlong]
    exact ⟨fun _ => .inl hlong, fun _ => ⟨_, rfl, stored_addStats hsums⟩⟩
  rw [if_neg hlong]
  by_cases hempty : written = 0
  · rw [if_pos hempty, ← eq_resetStats_iff]
    constructor
    · rintro ⟨stored', hstored', hvalue⟩
      rw [Option.some.injEq] at hstored'
      subst hstored'
      exact .inr ⟨hempty, fun c => by
        have := hvalue c
        rwa [counterValue_resetStats] at this⟩
    · rintro (hlong' | ⟨-, hzero⟩)
      · exact absurd hlong' hlong
      · exact ⟨_, rfl, fun c => by rw [counterValue_resetStats]; exact hzero c⟩
  rw [if_neg hempty]
  refine ⟨fun h => ?_, fun h => ?_⟩
  · rcases h with ⟨stored', hstored', hvalue⟩
    split at hstored'
    · next hdigits =>
      -- the last number has lost its last digits
      rw [Option.some.injEq] at hstored'
      have hlast := hvalue (2, .subscriberNumber)
      rw [← hstored', ← toNat_addStats hsums] at hlast
      have hlength := length_fileText (addStats stored topicStatsArray)
      have hnumeral : (addStats stored topicStatsArray)[2].lastNumeral.length =
          (decimal (addStats stored topicStatsArray)[2].subscriberNumberCommandsNum.toNat).length :=
        rfl
      exact absurd hlast (cut_ne (by omega) (by omega))
    · contradiction
  · rcases h with hlong' | ⟨hempty', -⟩
    · exact absurd hlong' hlong
    · exact absurd hempty' hempty

end Sums

theorem storedStats_fileText (topicStatsArray : TopicStatsArray) :
    storedStats (fileText topicStatsArray) = some (topicStatsArray.map TopicStats.stored) := by
  have htake := storedStats_take topicStatsArray (fileText topicStatsArray).length
  rwa [List.take_length, if_pos (Nat.le_succ _)] at htake

/-- The totals of a stats file can be read. -/
theorem storedStats_of_isStatsFile {file : Bytes} (hfile : IsStatsFile file) :
    ∃ stored, storedStats file = some stored := by
  rcases hfile with rfl | ⟨topicStatsArray, hfile⟩
  · exact ⟨resetStats, rfl⟩
  · rw [stringifyStats_eq, Option.some.injEq] at hfile
    exact ⟨_, hfile ▸ storedStats_fileText topicStatsArray⟩

/-- What survives, in terms of the result of an update that reads the file. -/
theorem countsSurvive_iff_of_reads {operations : FileOperations} {file file' : Bytes}
    {stored topicStatsArray : TopicStatsArray} (hreads : operations.opensForReading = true)
    (hstored : storedStats file = some stored) :
    CountsSurvive operations file topicStatsArray file' resetStats ↔
      (∃ stored', storedStats file' = some stored' ∧ ∀ c, (counterValue stored' c).toNat =
        (counterValue stored c).toNat + (counterValue topicStatsArray c).toNat) ∧
      (operations.opensForWriting = false → topicStatsArray = resetStats) := by
  constructor
  · rintro ⟨⟨stored₀, stored', hstored₀, hstored', hvalue⟩, hkept⟩
    rw [hstored, Option.some.injEq] at hstored₀
    subst hstored₀
    refine ⟨⟨stored', hstored', fun c => ?_⟩, fun hwrites => (hkept (.inr hwrites)).symm⟩
    have hsum := hvalue c
    rwa [counterValue_resetStats, UInt64.toNat_zero, Nat.add_zero] at hsum
  · rintro ⟨⟨stored', hstored', hvalue⟩, hkept⟩
    refine ⟨⟨stored, stored', hstored, hstored', fun c => ?_⟩, fun hfails => ?_⟩
    · rw [counterValue_resetStats, UInt64.toNat_zero, Nat.add_zero, hvalue c]
    · rcases hfails with hnot | hwrites
      · rw [hreads] at hnot
        contradiction
      · exact (hkept hwrites).symm

/-- An update that cannot read the file changes nothing. -/
theorem countsSurvive_of_not_reads {operations : FileOperations} {file : Bytes}
    {stored : TopicStatsArray} (hreads : operations.opensForReading = false)
    (hstored : storedStats file = some stored) (topicStatsArray : TopicStatsArray) :
    updateAndShowStats operations file topicStatsArray = some (file, topicStatsArray) ∧
      CountsSurvive operations file topicStatsArray file topicStatsArray := by
  constructor
  · rw [updateAndShowStats_eq, hreads]
    rfl
  · exact ⟨⟨stored, stored, hstored, hstored, fun _ => rfl⟩, fun _ => rfl⟩

/-- What has to happen to the text of the sums, once the file has been read. -/
theorem failsHarmlessly_iff_of_reads {operations : FileOperations} {file : Bytes}
    {stored topicStatsArray : TopicStatsArray} (hreads : operations.opensForReading = true)
    (hstored : storedStats file = some stored)
    (hsums : ∀ c,
      (counterValue stored c).toNat + (counterValue topicStatsArray c).toNat < 2 ^ 63) :
    ((∃ stored', storedStats (overwriteFile operations file
        (fileText (addStats stored topicStatsArray))) = some stored' ∧
        ∀ c, (counterValue stored' c).toNat =
          (counterValue stored c).toNat + (counterValue topicStatsArray c).toNat) ∧
      (operations.opensForWriting = false → topicStatsArray = resetStats)) ↔
    FailsHarmlessly operations stored topicStatsArray := by
  unfold FailsHarmlessly overwriteFile
  cases hwrites : operations.opensForWriting with
  | false =>
      constructor
      · rintro ⟨-, hnothing⟩ -
        exact hnothing rfl
      · intro hharmless
        have hnothing : topicStatsArray = resetStats := hharmless hreads
        refine ⟨⟨stored, hstored, fun c => ?_⟩, fun _ => hnothing⟩
        rw [hnothing, counterValue_resetStats, UInt64.toNat_zero, Nat.add_zero]
  | true =>
      simp only [if_true, hreads, true_imp_iff, Bool.true_eq_false, false_imp_iff, and_true]
      cases operations.fputsFails with
      | none =>
          constructor
          · intro _ written hnone
            contradiction
          · intro _
            exact ⟨_, storedStats_fileText _, stored_addStats hsums⟩
      | some written =>
          simp only [Option.some.injEq, forall_eq']
          exact storedStats_take_iff hsums written

/-- An update of a stats file loses no count exactly when it does not fail, or fails
harmlessly. -/
theorem countsSurvive_iff (operations : FileOperations) {file : Bytes} (hfile : IsStatsFile file)
    (topicStatsArray : TopicStatsArray) :
    ∃ stored, storedStats file = some stored ∧
      ((∀ c, (counterValue stored c).toNat + (counterValue topicStatsArray c).toNat < 2 ^ 63) →
        ((∃ file' topicStatsArray',
            updateAndShowStats operations file topicStatsArray = some (file', topicStatsArray') ∧
            CountsSurvive operations file topicStatsArray file' topicStatsArray') ↔
          FailsHarmlessly operations stored topicStatsArray)) := by
  rcases storedStats_of_isStatsFile hfile with ⟨stored, hstored⟩
  refine ⟨stored, hstored, fun hsums => ?_⟩
  cases hreads : operations.opensForReading with
  | false =>
      have hkept := countsSurvive_of_not_reads hreads hstored topicStatsArray
      have hharmless : FailsHarmlessly operations stored topicStatsArray := by
        intro hnot
        rw [hreads] at hnot
        contradiction
      exact ⟨fun _ => hharmless, fun _ => ⟨file, topicStatsArray, hkept.1, hkept.2⟩⟩
  | true =>
      have hupdate : updateAndShowStats operations file topicStatsArray =
          some (overwriteFile operations file (fileText (addStats stored topicStatsArray)),
            resetStats) := by
        rw [updateAndShowStats_eq, hreads, hstored]
        rfl
      rw [← failsHarmlessly_iff_of_reads hreads hstored hsums,
        ← countsSurvive_iff_of_reads hreads hstored]
      simp [hupdate]

/-- The counters after one message on news. -/
def newsPublished : TopicStatsArray :=
  increment resetStats (some (0, .publish))

theorem counterValue_newsPublished (c : Counter) :
    counterValue newsPublished c = if some (0, .publish) = some c then 1 else 0 := by
  rw [newsPublished, counterValue_increment, counterValue_resetStats, UInt64.zero_add]

theorem newsPublished_ne : newsPublished ≠ resetStats := by
  intro h
  have hvalue := congrArg (counterValue · (0, .publish)) h
  simp [counterValue_newsPublished, counterValue_resetStats] at hvalue

theorem sums_newsPublished (c : Counter) :
    (counterValue resetStats c).toNat + (counterValue newsPublished c).toNat < 2 ^ 63 := by
  rw [counterValue_resetStats, counterValue_newsPublished]
  split <;> decide

/-- The first update of an empty file, with no failures. -/
theorem countsSurvive_newsPublished :
    ∃ file' topicStatsArray',
      updateAndShowStats ⟨true, true, none⟩ [] newsPublished = some (file', topicStatsArray') ∧
      CountsSurvive ⟨true, true, none⟩ [] newsPublished file' topicStatsArray' := by
  have hfile : IsStatsFile [] := .inl rfl
  rcases countsSurvive_iff ⟨true, true, none⟩ hfile newsPublished with ⟨stored, hstored, hiff⟩
  have hzero : stored = resetStats := (Option.some.inj hstored).symm
  subst hzero
  exact (hiff sums_newsPublished).mpr fun _ _ hnone => nomatch hnone

/-- The counters are reset although the file could not be opened for writing. -/
theorem not_countsSurvive_notOpened :
    ¬ ∀ (operations : FileOperations) (file : Bytes) (stored topicStatsArray : TopicStatsArray),
      IsStatsFile file → storedStats file = some stored →
      (∀ c, (counterValue stored c).toNat + (counterValue topicStatsArray c).toNat < 2 ^ 63) →
      ∃ file' topicStatsArray',
        updateAndShowStats operations file topicStatsArray = some (file', topicStatsArray') ∧
        CountsSurvive operations file topicStatsArray file' topicStatsArray' := by
  intro hall
  rcases hall ⟨true, false, none⟩ [] resetStats newsPublished (.inl rfl) rfl
    sums_newsPublished with ⟨file', topicStatsArray', hupdate, hsurvive⟩
  have hreset : updateAndShowStats ⟨true, false, none⟩ [] newsPublished =
      some ([], resetStats) := by
    rw [updateAndShowStats_eq]
    rfl
  rw [hreset, Option.some.injEq, Prod.mk.injEq] at hupdate
  have hkept := hsurvive.kept (.inr rfl)
  rw [← hupdate.2] at hkept
  exact newsPublished_ne hkept.symm

/-! ## Being killed -/

/-- The points at which a kill can hit an update: before {lit}`fopen` truncates the file, or
when so many bytes of the new text can be seen in it. -/
inductive KillPoint where
  | beforeTruncation
  | whileWriting (visible : Nat)
deriving DecidableEq, Repr

/-- The file that an update leaves behind when it is killed. -/
def fileWhenKilled (file : Bytes) (topicStatsArray : TopicStatsArray) : KillPoint → Option Bytes
  | .beforeTruncation => some file
  | .whileWriting visible =>
      (updateAndShowStats ⟨true, true, some visible⟩ file topicStatsArray).map Prod.fst

/-- The file after an update that is not killed. -/
def fileWhenUpdated (file : Bytes) (topicStatsArray : TopicStatsArray) : Option Bytes :=
  (updateAndShowStats ⟨true, true, none⟩ file topicStatsArray).map Prod.fst

/-- The totals that {lit}`read_and_show_stats` reads at the next start. -/
def nextStart (file : Bytes) : Option TopicStatsArray :=
  (readAndShowStats ⟨true, true, none⟩ file).join

theorem nextStart_eq (file : Bytes) : nextStart file = storedStats file := by
  rw [nextStart, readAndShowStats_eq, if_pos rfl]
  cases storedStats file <;> rfl

theorem fileWhenUpdated_eq {file : Bytes} {stored : TopicStatsArray}
    (hstored : storedStats file = some stored) (topicStatsArray : TopicStatsArray) :
    fileWhenUpdated file topicStatsArray = some (fileText (addStats stored topicStatsArray)) := by
  rw [fileWhenUpdated, updateAndShowStats_eq, hstored]
  rfl

theorem fileWhenKilled_eq {file : Bytes} {stored : TopicStatsArray}
    (hstored : storedStats file = some stored) (topicStatsArray : TopicStatsArray)
    (visible : Nat) :
    fileWhenKilled file topicStatsArray (.whileWriting visible) =
      some ((fileText (addStats stored topicStatsArray)).take visible) := by
  rw [fileWhenKilled, updateAndShowStats_eq, hstored]
  rfl

/-- What the next start reads: the old totals after a kill before the truncation; and after a later
kill the new totals, if no more than the end of the last line is missing, zeros, if nothing of
the text can be seen, and the new totals with the first digits of the last one, if the text ends
among these.  If it ends in between, a number is missing. -/
theorem nextStart_afterKill {file : Bytes} {topicStatsArray : TopicStatsArray}
    (hfile : stringifyStats topicStatsArray 400 = some file) (counted : TopicStatsArray) :
    ∃ old sums newText new,
      nextStart file = some old ∧ sums = addStats old counted ∧
      fileWhenUpdated file counted = some newText ∧ nextStart newText = some new ∧
      (fileWhenKilled file counted .beforeTruncation).bind nextStart = some old ∧
      ∀ visible, (fileWhenKilled file counted (.whileWriting visible)).bind nextStart =
        if newText.length ≤ visible + 1 then some new
        else if visible = 0 then some resetStats
        else if (fileHead sums).length < visible then
          some (storedWithLast sums (UInt64.ofNat (sums[2].subscriberNumberCommandsNum.toNat /
            10 ^ (newText.length - 1 - visible))))
        else none := by
  rcases storedStats_of_isStatsFile (.inr ⟨topicStatsArray, hfile⟩) with ⟨old, hold⟩
  have hread : nextStart file = some old := (nextStart_eq file).trans hold
  refine ⟨old, addStats old counted, fileText (addStats old counted),
    (addStats old counted).map TopicStats.stored, hread, rfl, fileWhenUpdated_eq hold counted,
    (nextStart_eq _).trans (storedStats_fileText _), hread, fun visible => ?_⟩
  rw [fileWhenKilled_eq hold, Option.bind_some, nextStart_eq, storedStats_take]

/-- Twelve queries for the number of subscribers of warnings. -/
def warningsAsked : TopicStatsArray :=
  #v[⟨0, 0, 0, 0, 0⟩, ⟨0, 0, 0, 0, 0⟩, ⟨0, 0, 0, 0, 12⟩]

/-- The file has one message on news, and the update that adds the queries is killed when the last
digit and the end of the line are missing: one of the twelve is read. -/
theorem nextStart_afterKill_newsPublished :
    (fileWhenKilled (fileText newsPublished) warningsAsked (.whileWriting 29)).bind nextStart =
      some #v[⟨1, 0, 0, 0, 0⟩, ⟨0, 0, 0, 0, 0⟩, ⟨0, 0, 0, 0, 1⟩] := by
  have hold : storedStats (fileText newsPublished) = some _ := storedStats_fileText newsPublished
  rcases nextStart_afterKill (stringifyStats_eq newsPublished) warningsAsked with
    ⟨old, sums, newText, new, hread, hsums, hnewText, -, -, hkilled⟩
  rw [nextStart_eq, hold, Option.some.injEq] at hread
  rw [fileWhenUpdated_eq hold, Option.some.injEq] at hnewText
  rw [← hread] at hsums
  have hlength : newText.length = 31 := by
    rw [← hnewText]
    decide +kernel
  have hhead : (fileHead sums).length = 28 := by
    rw [hsums]
    decide +kernel
  rw [hkilled 29, hlength, hhead, if_neg (by decide), if_neg (by decide), if_pos (by decide), hsums]
  decide +kernel

theorem stored_ne_resetStats {topicStatsArray : TopicStatsArray}
    (hone : counterValue topicStatsArray (0, .publish) = 1) :
    topicStatsArray.map TopicStats.stored ≠ resetStats := by
  intro h
  have hvalue := congrArg (counterValue · (0, .publish)) h
  simp [counterValue_stored, counterValue_resetStats, hone, storedCounter] at hvalue

/-- The message is lost when the process is killed behind {lit}`fopen`: it is counted in the old
totals and in the new ones, but zeros are read. -/
theorem not_oldOrNew_nothingVisible :
    ¬ ∀ (file : Bytes) (topicStatsArray counted : TopicStatsArray) (point : KillPoint),
      stringifyStats topicStatsArray 400 = some file →
      (fileWhenKilled file counted point).bind nextStart = nextStart file ∨
      (fileWhenKilled file counted point).bind nextStart =
        (fileWhenUpdated file counted).bind nextStart := by
  intro hall
  have hone : counterValue newsPublished (0, .publish) = 1 := by
    rw [counterValue_newsPublished, if_pos rfl]
  have hone' : counterValue (addStats (newsPublished.map TopicStats.stored) resetStats)
      (0, .publish) = 1 := by
    rw [counterValue_addStats, counterValue_resetStats, counterValue_stored, hone]
    rfl
  have hold := storedStats_fileText newsPublished
  have hempty : nextStart [] = some resetStats := nextStart_eq []
  have hread := hall (fileText newsPublished) newsPublished resetStats (.whileWriting 0)
    (stringifyStats_eq newsPublished)
  rw [fileWhenKilled_eq hold, fileWhenUpdated_eq hold, Option.bind_some, Option.bind_some,
    List.take_zero, hempty, nextStart_eq, nextStart_eq, hold, storedStats_fileText] at hread
  rcases hread with hread | hread
  · exact stored_ne_resetStats hone (Option.some.inj hread).symm
  · exact stored_ne_resetStats hone' (Option.some.inj hread).symm

end StatsManager
end PubSub
