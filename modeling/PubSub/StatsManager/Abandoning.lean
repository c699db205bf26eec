import PubSub.Foundations.RunLog
import PubSub.StatsManager.Counting

/-!
# Counts that are abandoned

The flag of the main loop keeps in mind that there are counts to be added to the file.  But an
update that is due clears it even if the file cannot be read, and then the counts stay behind
in the memory; and the process ends as soon as the broker has closed the connection, whatever
is in the memory then.  Whether a run leaves counts behind can be told from what has been
received and which updates have been able to read the file.

Main results:

- Theorem {lit}`Recorded.step`: the counters are what has been counted since the last update
  that read the file.
- Theorem {lit}`nothingAbandoned_iff`: along a run, the flag is set and the process goes on while
  there are counts in the memory exactly when no update that cannot read the file becomes due,
  and the broker does not close the connection, behind notifications that have been counted
  since then.
-/

namespace PubSub
namespace StatsManager

open Foundations

/-! ## What is left to be added to the file -/

/-- At the top of the loop there are no counts unless the flag is set, and at the end there
are none. -/
structure NothingAbandoned (s : LoopState) : Prop where
  scheduled : s.phase = .handling → s.notificationsReceived = false →
    s.topicStatsArray = resetStats
  handedOver : s.phase = .exited → s.topicStatsArray = resetStats

/-- The increments since the start or since the last update that was due and opened
{lit}`stats.txt` for reading, as the bytes received demand them. -/
def countedSince (s : LoopState) : LoopStep → List (Option Counter) → List (Option Counter)
  | .handle incoming, counted => counted ++ countedBy (zeros brokerReceiveBufferSize) incoming
  | .update time operations _, counted =>
      if UpdateDue s time ∧ operations.opensForReading = true then [] else counted

/-- No counter has been incremented, or the 64-bit counter has wrapped around to zero. -/
def CountsNothing (counted : List (Option Counter)) : Prop :=
  ∀ c, 2 ^ 64 ∣ counted.count (some c)

/-- When notifications have been counted, the broker does not close the connection, and
no update that is due fails to open the file for reading. -/
def KeepsCounts (p : LoopState × List (Option Counter)) : LoopStep → Prop
  | .handle incoming => incoming = .closed → CountsNothing p.2
  | .update time operations _ =>
      UpdateDue p.1 time → operations.opensForReading = false → CountsNothing p.2

/-! ## The counters and what has been counted -/

/-- Increments bring the counters back to zero if each counter wraps around. -/
theorem foldl_increment_resetStats_iff (counted : List (Option Counter)) :
    counted.foldl increment resetStats = resetStats ↔ CountsNothing counted := by
  have hvalue : ∀ c, counterValue (counted.foldl increment resetStats) c =
      UInt64.ofNat (counted.count (some c)) := by
    intro c
    rw [counterValue_foldl_increment, counterValue_resetStats, UInt64.zero_add]
  have hzero : ∀ k : Nat, UInt64.ofNat k = 0 ↔ 2 ^ 64 ∣ k := by
    intro k
    rw [← UInt64.toNat_inj, UInt64.toNat_ofNat', UInt64.toNat_zero, Nat.dvd_iff_mod_eq_zero]
  constructor
  · intro h c
    rw [← hzero, ← hvalue c, h, counterValue_resetStats]
  · intro h
    apply eq_of_counterValue
    intro c
    rw [hvalue c, counterValue_resetStats, (hzero _).mpr (h c)]

/-- The counters in the memory are those that have been incremented since the last update, and
without the flag there are no counts. -/
structure Recorded (p : LoopState × List (Option Counter)) : Prop where
  cleared : p.1.receiveBuffer = zeros brokerReceiveBufferSize
  counters : p.1.topicStatsArray = p.2.foldl increment resetStats
  flagged : p.1.notificationsReceived = false → p.1.topicStatsArray = resetStats

theorem Recorded.eq_resetStats_iff {p : LoopState × List (Option Counter)} (hp : Recorded p) :
    p.1.topicStatsArray = resetStats ↔ CountsNothing p.2 := by
  rw [hp.counters, foldl_increment_resetStats_iff]

/-! ## Steps -/

section Steps

variable {p p' : LoopState × List (Option Counter)} {l : LoopStep}

/-- A receive appends the increments that it leads to. -/
theorem Recorded.handle (hp : Recorded p) {incoming : Incoming}
    (hkeeps : KeepsCounts p (.handle incoming)) (hhandle : handleStep incoming p.1 = some p'.1)
    (hcounted : p'.2 = p.2 ++ countedBy (zeros brokerReceiveBufferSize) incoming) :
    Recorded p' ∧ NothingAbandoned p'.1 := by
  have hcounters : p'.1.topicStatsArray = p'.2.foldl increment resetStats := by
    rw [(handleStep_counted hhandle).2, hp.cleared, hp.counters, hcounted, List.foldl_append]
  have hcleared := handleStep_cleared hp.cleared hhandle
  rcases handleStep_some hhandle with ⟨hclosed, hs'⟩ | ⟨-, hphase, hflag⟩
  · have hzero : p'.1.topicStatsArray = resetStats := by
      rw [hs']
      exact hp.eq_resetStats_iff.mpr (hkeeps hclosed)
    exact ⟨⟨hcleared, hcounters, fun _ => hzero⟩, ⟨fun _ _ => hzero, fun _ => hzero⟩⟩
  · have hflagged : p'.1.notificationsReceived = false → p'.1.topicStatsArray = resetStats := by
      intro hnot
      rcases hflag hnot with ⟨hbefore, hsame⟩
      rw [hsame, hp.flagged hbefore]
    refine ⟨⟨hcleared, hcounters, hflagged⟩, fun _ => hflagged, fun hexited => ?_⟩
    rw [hphase] at hexited
    contradiction

/-- An update that is due and reads the file leaves no increments; any other one that comes at
the right time leaves what there is. -/
theorem Recorded.update (hp : Recorded p) {time updateTime : Int} {operations : FileOperations}
    (hkeeps : KeepsCounts p (.update time operations updateTime))
    (hupdate : updateStep time operations updateTime p.1 = some p'.1)
    (hcleared : p'.1.receiveBuffer = zeros brokerReceiveBufferSize)
    (hcounted : p'.2 = if UpdateDue p.1 time ∧ operations.opensForReading = true then [] else p.2) :
    Recorded p' ∧ NothingAbandoned p'.1 := by
  rcases updateStep_some hupdate with ⟨hphase, hresult⟩
  have hrecorded : Recorded p' := by
    by_cases hdue : UpdateDue p.1 time
    · rw [if_pos hdue] at hresult
      cases hreads : operations.opensForReading with
      | true =>
          rw [if_pos hreads] at hresult
          rw [if_pos ⟨hdue, hreads⟩] at hcounted
          refine ⟨hcleared, ?_, fun _ => hresult.2⟩
          rw [hresult.2, hcounted, List.foldl_nil]
      | false =>
          have hzero := hp.eq_resetStats_iff.mpr (hkeeps hdue hreads)
          rw [hreads, if_neg Bool.false_ne_true] at hresult
          rw [hreads, if_neg fun h => Bool.false_ne_true h.2] at hcounted
          refine ⟨hcleared, ?_, fun _ => hresult.2.trans hzero⟩
          rw [hresult.2, hcounted, hp.counters]
    · rw [if_neg hdue] at hresult
      rw [if_neg fun h => hdue h.1] at hcounted
      refine ⟨hcleared, ?_, fun hnot => ?_⟩
      · rw [hresult.2, hcounted, hp.counters]
      · rw [hresult.2, hp.flagged (hresult.1 ▸ hnot)]
  refine ⟨hrecorded, fun _ => hrecorded.flagged, fun hexited => ?_⟩
  rw [hphase] at hexited
  contradiction

/-- A step at the right time keeps the flag set while there are counts. -/
theorem Recorded.step (hp : Recorded p) (hkeeps : KeepsCounts p l)
    (hstep : (mainLoop.withHistory [] countedSince).step p l = some p') :
    Recorded p' ∧ NothingAbandoned p'.1 := by
  rcases System.withHistory_step.mp hstep with ⟨hloop, hcounted⟩
  rcases mainLoop_cases hloop with ⟨incoming, rfl, hhandle⟩ |
    ⟨time, operations, updateTime, rfl, hupdate⟩
  · exact hp.handle hkeeps hhandle hcounted
  · exact hp.update hkeeps hupdate (mainLoop_cleared hp.cleared hloop) hcounted

/-- Any other step abandons the counts. -/
theorem Recorded.abandons (hp : Recorded p) (hnot : ¬ KeepsCounts p l)
    (hstep : (mainLoop.withHistory [] countedSince).step p l = some p') :
    ¬ NothingAbandoned p'.1 := by
  intro habandoned
  apply hnot
  rcases System.withHistory_step.mp hstep with ⟨hloop, -⟩
  rcases mainLoop_cases hloop with ⟨incoming, rfl, hhandle⟩ |
    ⟨time, operations, updateTime, rfl, hupdate⟩
  · intro hclosed
    rw [← hp.eq_resetStats_iff]
    rcases handleStep_some hhandle with ⟨-, hs'⟩ | ⟨hopen, -⟩
    · have hzero := habandoned.handedOver (by rw [hs'])
      rwa [hs'] at hzero
    · exact absurd hclosed hopen
  · intro hdue hreads
    rw [← hp.eq_resetStats_iff]
    rcases updateStep_some hupdate with ⟨hphase, hresult⟩
    rw [if_pos hdue, hreads, if_neg Bool.false_ne_true] at hresult
    rw [← hresult.2]
    exact habandoned.scheduled hphase hresult.1

end Steps

/-! ## Runs -/

/-- A run abandons no counts exactly when all its steps come at the right time. -/
theorem nothingAbandoned_iff (lastUpdateTime : Int) (file : Bytes) (run : List LoopStep) :
    mainLoop.StatesSatisfy NothingAbandoned (.start lastUpdateTime file) run ↔
      (mainLoop.withHistory [] countedSince).StepsSatisfy KeepsCounts
        (.start lastUpdateTime file, []) run := by
  rw [← System.withHistory_statesSatisfy NothingAbandoned (LoopState.start lastUpdateTime file, [])]
  apply System.statesSatisfy_iff_stepsSatisfy Recorded
  case hgood =>
    intro p l p' hp hkeeps hstep
    exact hp.step hkeeps hstep
  case hbad =>
    intro p l p' hp hnot hstep
    exact hp.abandons hnot hstep
  case hs => exact ⟨rfl, rfl, fun _ => rfl⟩
  case hP => exact ⟨fun _ _ => rfl, fun _ => rfl⟩

/-- The message is abandoned by an update that cannot read the file. -/
theorem abandoned_readingFails :
    ¬ mainLoop.StatesSatisfy NothingAbandoned (LoopState.start 0 [])
      [.handle (.data (batch [⟨.publish, news⟩])), .update 20 ⟨false, true, none⟩ 20] := by
  intro hstates
  have hstep : mainLoop.step newsCounted (.update 20 ⟨false, true, none⟩ 20) =
      some { newsCounted with
        phase := .handling, notificationsReceived := false, lastUpdateTime := 20 } := rfl
  have hzero := ((hstates.2 _ handle_newsPublished).2 _ hstep).scheduled rfl rfl
  exact newsPublished_ne hzero

/-- The message is abandoned when the broker closes the connection before an update is due. -/
theorem abandoned_brokerCloses :
    ¬ mainLoop.StatesSatisfy NothingAbandoned (LoopState.start 0 [])
      [.handle (.data (batch [⟨.publish, news⟩])), .update 1 ⟨true, true, none⟩ 1,
        .handle .closed] := by
  intro hstates
  have hwaits : mainLoop.step newsCounted (.update 1 ⟨true, true, none⟩ 1) =
      some { newsCounted with phase := .handling } := rfl
  have hcloses : mainLoop.step { newsCounted with phase := .handling } (.handle .closed) =
      some { newsCounted with phase := .exited } := rfl
  have hzero :=
    (((hstates.2 _ handle_newsPublished).2 _ hwaits).2 _ hcloses).handedOver rfl
  exact newsPublished_ne hzero

theorem newsPublished_abandoned :
    ¬ mainLoop.StatesSatisfy NothingAbandoned (LoopState.start 0 [])
        [.handle (.data (batch [⟨.publish, news⟩])), .update 20 ⟨false, true, none⟩ 20] ∧
      ¬ mainLoop.StatesSatisfy NothingAbandoned (LoopState.start 0 [])
        [.handle (.data (batch [⟨.publish, news⟩])), .update 1 ⟨true, true, none⟩ 1,
          .handle .closed] :=
  ⟨abandoned_readingFails, abandoned_brokerCloses⟩

end StatsManager
end PubSub
