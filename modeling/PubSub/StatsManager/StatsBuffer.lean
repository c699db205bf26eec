import PubSub.StatsManager.FileUpdating

/-!
# The buffer of the text

{lit}`stringify_stats` writes the lines one after the other into a buffer of {lit}`stats_size` bytes
and keeps the offset behind the last one.  It hands {lit}`snprintf` what is left of the buffer,
a difference of two values of type {lit}`size_t`, and gives up as soon as a line does not fit.
That a line fits is decided by the length that {lit}`snprintf` returns, which is the length of the
whole line even if it has been cut.

Main results:

- Theorem {lit}`stringifyLoopInto_spec`: what the loop does to a buffer that is filled up to
  the offset.
- Theorem {lit}`stringifyStatsInto_exact`: for every size, no write leaves the buffer and no
  difference wraps around, and the lines are there if and only if they fit.
- Theorem {lit}`stringifyStatsInto_refines`: the buffer holds the text of {lit}`stringifyStats`.
-/

namespace PubSub
namespace StatsManager

open Foundations

/-- The lines of the topics, one after the other. -/
def renderedLines (topicStatsArray : List TopicStats) : Bytes :=
  topicStatsArray.flatMap stringifyLine

/-- The loop of {lit}`stringify_stats` and what is behind it, on the buffer itself.  Fails if it
writes outside the buffer or if {lit}`stats_size - offset` wraps around. -/
def stringifyLoopInto (statsSize : UInt64) :
    List TopicStats → Block → UInt64 → Option (Bool × Block)
  | [], stats, offset =>
      if offset < statsSize then (stats.store offset.toNat [0]).map fun stats => (true, stats)
      else some (false, stats)
  | topicStats :: rest, stats, offset => do
      let size ← sizeSub statsSize offset
      let (stats, written) ← snprintf stats offset.toNat size.toNat (stringifyLine topicStats)
      -- stats_size - offset is computed a second time
      let left ← sizeSub statsSize offset
      if written < 0 ∨ UInt64.ofInt written ≥ left then return (false, stats)
      else stringifyLoopInto statsSize rest stats (offset + UInt64.ofInt written)

/-- {lit}`stringify_stats`, on the buffer itself. -/
def stringifyStatsInto (topicStatsArray : TopicStatsArray) (stats : Block) (statsSize : UInt64) :
    Option (Bool × Block) :=
  stringifyLoopInto statsSize topicStatsArray.toList stats 0

/-! ## The loop -/

/-- What is left of a buffer after a text has been written to its part {lit}`free`, behind
{lit}`pre`: it has kept its size, the text has been written if it fits with its terminator, and
then nothing behind the terminator has been touched. -/
structure Stringified (pre text : Bytes) (free : Block) (success : Bool) (stats : Block) :
    Prop where
  length_eq : stats.length = pre.length + free.length
  success_iff : success = true ↔ text.length < free.length
  filled : success = true →
    stats = (pre ++ text ++ [0]).map some ++ free.drop (text.length + 1)

/-- A line that fits, and the text behind it, which begins where its terminator was. -/
theorem Stringified.of_line {pre line text : Bytes} {free stats : Block} {success : Bool}
    (hline : line.length < free.length)
    (h : Stringified (pre ++ line) text (some 0 :: free.drop (line.length + 1)) success stats) :
    Stringified pre (line ++ text) free success stats where
  length_eq := by
    rw [h.length_eq, List.length_append, List.length_cons, List.length_drop]
    omega
  success_iff := by
    rw [h.success_iff, List.length_append, List.length_cons, List.length_drop]
    omega
  filled := by
    intro hsuccess
    rw [h.filled hsuccess, List.drop_succ_cons, List.drop_drop, List.length_append,
      ← List.append_assoc pre]
    congr 2
    omega

section Loop

variable {statsSize offset : UInt64} {pre : Bytes} {free : Block}

/-- What is left of the buffer is {lit}`stats_size - offset`, which does not wrap around. -/
theorem sizeSub_offset (hoffset : offset.toNat = pre.length)
    (hsize : pre.length + free.length = statsSize.toNat) :
    ∃ left, sizeSub statsSize offset = some left ∧ left.toNat = free.length := by
  have hle : offset.toNat ≤ statsSize.toNat := by omega
  refine ⟨statsSize - offset, sizeSub_eq hle, ?_⟩
  rw [UInt64.toNat_sub_of_le _ _ (UInt64.le_iff_toNat_le.mpr hle)]
  omega

/-- The length of a line as a {lit}`size_t`. -/
theorem returnedLength_stringifyLine (topicStats : TopicStats) :
    0 ≤ returnedLength (stringifyLine topicStats) ∧
      (UInt64.ofInt (returnedLength (stringifyLine topicStats))).toNat =
        (stringifyLine topicStats).length := by
  have hline := length_stringifyLine_le topicStats
  rw [returnedLength_eq (by omega)]
  refine ⟨Int.natCast_nonneg _, ?_⟩
  rw [UInt64.ofInt, Int.emod_eq_of_lt (by omega) (by omega), Int.toNat_natCast,
    UInt64.toNat_ofNat_of_lt' (Nat.lt_of_le_of_lt hline (by decide))]

/-- Behind the last line, the terminator is written once more. -/
theorem stringifyLoopInto_nil (hoffset : offset.toNat = pre.length)
    (hsize : pre.length + free.length = statsSize.toNat) :
    ∃ success stats,
      stringifyLoopInto statsSize [] (pre.map some ++ free) offset = some (success, stats) ∧
        Stringified pre [] free success stats := by
  cases free with
  | nil =>
      refine ⟨false, pre.map some ++ [], ?_, ?_, ?_, ?_⟩
      · rw [stringifyLoopInto, if_neg]
        rw [UInt64.lt_iff_toNat_lt, hoffset, ← hsize, List.length_nil]
        omega
      all_goals simp
  | cons b free =>
      have hlt : offset < statsSize := by
        rw [UInt64.lt_iff_toNat_lt, hoffset, ← hsize, List.length_cons]
        omega
      have hstore : Block.store (pre.map some ++ [b] ++ free) offset.toNat [0] =
          some (pre.map some ++ [0].map some ++ free) :=
        Block.store_over _ _ _ (by rw [hoffset, List.length_map]) rfl
      rw [List.append_assoc, List.singleton_append] at hstore
      refine ⟨true, pre.map some ++ [0].map some ++ free, ?_, ?_, ?_, ?_⟩
      · rw [stringifyLoopInto, if_pos hlt, hstore, Option.map_some]
      all_goals simp

/-- A line that fits: the loop goes on behind it, at its terminator. -/
theorem stringifyLoopInto_fits (topicStats : TopicStats) (rest : List TopicStats)
    (hoffset : offset.toNat = pre.length) (hsize : pre.length + free.length = statsSize.toNat)
    (hfits : (stringifyLine topicStats).length < free.length) :
    ∃ offset' : UInt64,
      offset'.toNat = (pre ++ stringifyLine topicStats).length ∧
        stringifyLoopInto statsSize (topicStats :: rest) (pre.map some ++ free) offset =
          stringifyLoopInto statsSize rest
            ((pre ++ stringifyLine topicStats).map some ++
              (some 0 :: free.drop ((stringifyLine topicStats).length + 1))) offset' := by
  rcases sizeSub_offset hoffset hsize with ⟨left, hsub, hleft⟩
  rcases returnedLength_stringifyLine topicStats with ⟨hnonneg, hwritten⟩
  have hsnprintf := snprintf_fits (pre.map some) free
    (hoffset.trans (List.length_map some).symm) (hleft ▸ hfits) hleft.le
  have hbuffer : pre.map some ++ (stringifyLine topicStats ++ [0]).map some ++
      free.drop ((stringifyLine topicStats).length + 1) =
        (pre ++ stringifyLine topicStats).map some ++
          (some 0 :: free.drop ((stringifyLine topicStats).length + 1)) := by
    simp
  refine ⟨offset + UInt64.ofInt (returnedLength (stringifyLine topicStats)), ?_, ?_⟩
  · have hlt := statsSize.toNat_lt
    rw [UInt64.toNat_add, hoffset, hwritten, List.length_append]
    exact Nat.mod_eq_of_lt (by omega)
  · have hnot : ¬ (returnedLength (stringifyLine topicStats) < 0 ∨
        UInt64.ofInt (returnedLength (stringifyLine topicStats)) ≥ left) := by
      rw [ge_iff_le, UInt64.le_iff_toNat_le, hleft, hwritten]
      omega
    simp only [stringifyLoopInto, hsub, hsnprintf, hbuffer, if_neg hnot, Option.bind_eq_bind,
      Option.bind_some]

/-- A line that is cut: its length says so, and the loop gives up. -/
theorem stringifyLoopInto_cut (topicStats : TopicStats) (rest : List TopicStats)
    (hoffset : offset.toNat = pre.length) (hsize : pre.length + free.length = statsSize.toNat)
    (hcut : free.length ≤ (stringifyLine topicStats).length) :
    ∃ stats,
      stringifyLoopInto statsSize (topicStats :: rest) (pre.map some ++ free) offset =
          some (false, stats) ∧
        stats.length = pre.length + free.length := by
  rcases sizeSub_offset hoffset hsize with ⟨left, hsub, hleft⟩
  rcases returnedLength_stringifyLine topicStats with ⟨-, hwritten⟩
  have hroom : offset.toNat + left.toNat ≤ (pre.map some ++ free).length := by
    rw [hoffset, hleft, List.length_append, List.length_map]
  rcases length_snprintf (stringifyLine topicStats) hroom with ⟨stats, hsnprintf, hlength⟩
  have hor : returnedLength (stringifyLine topicStats) < 0 ∨
      UInt64.ofInt (returnedLength (stringifyLine topicStats)) ≥ left := by
    right
    rw [ge_iff_le, UInt64.le_iff_toNat_le, hleft, hwritten]
    exact hcut
  refine ⟨stats, ?_, ?_⟩
  · simp only [stringifyLoopInto, hsub, hsnprintf, if_pos hor, Option.bind_eq_bind,
      Option.bind_some, Option.pure_def]
  · rw [hlength, List.length_append, List.length_map]

/-- The loop, on a buffer that has been filled with {lit}`pre` up to the offset. -/
theorem stringifyLoopInto_spec (rest : List TopicStats) (hoffset : offset.toNat = pre.length)
    (hsize : pre.length + free.length = statsSize.toNat) :
    ∃ success stats,
      stringifyLoopInto statsSize rest (pre.map some ++ free) offset = some (success, stats) ∧
        Stringified pre (renderedLines rest) free success stats := by
  induction rest generalizing pre free offset with
  | nil => exact stringifyLoopInto_nil hoffset hsize
  | cons topicStats rest ih =>
      have hlines : renderedLines (topicStats :: rest) =
          stringifyLine topicStats ++ renderedLines rest := List.flatMap_cons
      rw [hlines]
      by_cases hfits : (stringifyLine topicStats).length < free.length
      · rcases stringifyLoopInto_fits topicStats rest hoffset hsize hfits with
          ⟨offset', hoffset', hstep⟩
        have hsize' : (pre ++ stringifyLine topicStats).length +
            (some (0 : Byte) :: free.drop ((stringifyLine topicStats).length + 1)).length =
              statsSize.toNat := by
          simp only [List.length_append, List.length_cons, List.length_drop]
          omega
        rcases ih hoffset' hsize' with ⟨success, stats, hloop, hstringified⟩
        exact ⟨success, stats, hstep.trans hloop, hstringified.of_line hfits⟩
      · rcases stringifyLoopInto_cut topicStats rest hoffset hsize (by omega) with
          ⟨stats, hcut, hlength⟩
        refine ⟨false, stats, hcut, hlength, ?_, by simp⟩
        rw [List.length_append]
        simp only [Bool.false_eq_true, false_iff]
        omega

end Loop

/-! ## The function -/

theorem renderedLines_eq (stats : List TopicStats) :
    renderedLines stats = terminated newline (stats.map statsLine) := by
  rw [renderedLines, terminated, List.flatMap_map]
  exact List.flatMap_congr fun topicStats _ => stringifyLine_eq topicStats

/-- The whole buffer is left of the buffer at the start. -/
theorem stringifyStatsInto_spec (topicStatsArray : TopicStatsArray) {stats : Block}
    {statsSize : UInt64} (hsize : stats.length = statsSize.toNat) :
    ∃ success stats',
      stringifyStatsInto topicStatsArray stats statsSize = some (success, stats') ∧
        Stringified [] (renderedLines topicStatsArray.toList) stats success stats' := by
  have hoffset : (0 : UInt64).toNat = ([] : Bytes).length := rfl
  have hstart : ([] : Bytes).length + stats.length = statsSize.toNat := by
    rw [List.length_nil, Nat.zero_add, hsize]
  exact stringifyLoopInto_spec topicStatsArray.toList hoffset hstart

/-- For every array and every size of the buffer: no write leaves the buffer and
{lit}`stats_size - offset` never wraps around, or the function would fail; it returns true if and
only if the lines of the totals fit with a terminator, and then the buffer holds the lines, the
terminator, and what it held behind that.  They always fit into 400 bytes. -/
theorem stringifyStatsInto_exact (topicStatsArray : TopicStatsArray) (stats : Block)
    (statsSize : UInt64) (hsize : stats.length = statsSize.toNat) :
    ∃ success stats',
      stringifyStatsInto topicStatsArray stats statsSize = some (success, stats') ∧
        stats'.length = stats.length ∧
        (success = true ↔ (fileText topicStatsArray).length < statsSize.toNat) ∧
        (success = true →
          stats' = (fileText topicStatsArray ++ [0]).map some ++
            stats.drop ((fileText topicStatsArray).length + 1)) ∧
        (statsSize = 400 → success = true) := by
  rcases stringifyStatsInto_spec topicStatsArray hsize with
    ⟨success, stats', hloop, hstringified⟩
  have hlines : renderedLines topicStatsArray.toList = fileText topicStatsArray :=
    renderedLines_eq topicStatsArray.toList
  rw [hlines] at hstringified
  have hiff := hstringified.success_iff
  have hlength := hstringified.length_eq
  rw [List.length_nil, Nat.zero_add] at hlength
  refine ⟨success, stats', hloop, hlength, hsize ▸ hiff, hstringified.filled, ?_⟩
  rintro rfl
  have hle := length_lines_le topicStatsArray.toList
  have hthree : topicStatsArray.toList.length = 3 := Vector.length_toList
  have h400 : (400 : UInt64).toNat = 400 := rfl
  rw [hiff, fileText]
  omega

/-- The largest totals, in the buffer of {lit}`update_and_show_stats`, which has not been
initialised. -/
theorem stringifyStatsInto_exact_largest :
    ∃ stats',
      stringifyStatsInto
          (Vector.replicate topicsNum ⟨0xFFFFFFFFFFFFFFFF, 0xFFFFFFFFFFFFFFFF,
            0xFFFFFFFFFFFFFFFF, 0xFFFFFFFFFFFFFFFF, 0xFFFFFFFFFFFFFFFF⟩)
          (List.replicate 400 none) 400 = some (true, stats') ∧ stats'.length = 400 := by
  rcases stringifyStatsInto_exact
    (Vector.replicate topicsNum ⟨0xFFFFFFFFFFFFFFFF, 0xFFFFFFFFFFFFFFFF,
      0xFFFFFFFFFFFFFFFF, 0xFFFFFFFFFFFFFFFF, 0xFFFFFFFFFFFFFFFF⟩)
    (List.replicate 400 none) 400 List.length_replicate with
    ⟨success, stats', hstats', hlength, -, -, hsuccess⟩
  rw [hsuccess rfl] at hstats'
  exact ⟨stats', hstats', hlength.trans List.length_replicate⟩

/-- The buffer holds the text that {name}`stringifyStats` returns, and the function returns
false when there is none. -/
theorem stringifyStatsInto_refines (topicStatsArray : TopicStatsArray) (stats : Block)
    (statsSize : UInt64) (hsize : stats.length = statsSize.toNat) :
    ∃ stats',
      stringifyStatsInto topicStatsArray stats statsSize =
          some ((stringifyStats topicStatsArray statsSize.toNat).isSome, stats') ∧
        ∀ text, stringifyStats topicStatsArray statsSize.toNat = some text →
          stats' = (text ++ [0]).map some ++ stats.drop (text.length + 1) := by
  rcases stringifyStatsInto_spec topicStatsArray hsize with
    ⟨success, stats', hloop, hstringified⟩
  have hvalue : stringifyStats topicStatsArray statsSize.toNat =
      if (renderedLines topicStatsArray.toList).length < statsSize.toNat then
        some (renderedLines topicStatsArray.toList)
      else none := by
    rw [stringifyStats, stringifyLoop_eq, List.nil_append, renderedLines_eq]
  have hiff := hsize ▸ hstringified.success_iff
  by_cases hfits : (renderedLines topicStatsArray.toList).length < statsSize.toNat
  · have hsuccess : success = true := hiff.mpr hfits
    rw [hvalue, if_pos hfits, Option.isSome_some, ← hsuccess]
    refine ⟨stats', hloop, fun text htext => ?_⟩
    rw [Option.some.injEq] at htext
    exact htext ▸ hstringified.filled hsuccess
  · have hfailure : success = false := Bool.eq_false_iff.mpr fun h => hfits (hiff.mp h)
    rw [hvalue, if_neg hfits, Option.isSome_none, ← hfailure]
    exact ⟨stats', hloop, fun text htext => by contradiction⟩

end StatsManager
end PubSub
