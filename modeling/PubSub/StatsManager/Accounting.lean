import PubSub.Foundations.RunLog
import PubSub.StatsManager.Counting

/-!
# Where the counts go

Every notification that is counted is at first in the memory, and from the next update on in
the file, unless that update could read the file but not overwrite it.  Here this is followed
over whole runs of the main loop, whatever bytes arrive and whenever the clock makes an update
due: no count gets into the file twice, and the only counts that are lost are those.

Main results:

- Theorem {lit}`Accounted.step`: a step of the main loop keeps the books balanced.
- Theorem {lit}`counts_accounted`: so they are balanced after every run, and an update that
  succeeds brings the file up to date.
-/

namespace PubSub
namespace StatsManager

open Foundations

/-! ## The books -/

/-- What is written down about the counters: an increment, or that they are reset though the file
has not been overwritten. -/
inductive CountEvent where
  | counted (counter : Option Counter)
  | discarded (topicStatsArray : TopicStatsArray)
deriving DecidableEq

namespace CountEvent

/-- How often the counter is incremented. -/
def counts (c : Counter) : CountEvent → Nat
  | counted counter => if counter = some c then 1 else 0
  | discarded _ => 0

/-- How many counts are lost. -/
def discards (c : Counter) : CountEvent → Nat
  | counted _ => 0
  | discarded topicStatsArray => (counterValue topicStatsArray c).toNat

end CountEvent

/-- How often the counter has been incremented. -/
def countedTimes (c : Counter) (events : List CountEvent) : Nat :=
  (events.map (CountEvent.counts c)).sum

/-- How many of its counts have been lost. -/
def discardedCounts (c : Counter) (events : List CountEvent) : Nat :=
  (events.map (CountEvent.discards c)).sum

/-- What happens to the counters in a step of the main loop. -/
def countEvents (s : LoopState) : LoopStep → List CountEvent
  | .handle incoming => (countedBy s.receiveBuffer incoming).map .counted
  | .update time operations _ =>
      if (s.notificationsReceived ∧ time - s.lastUpdateTime ≥ updatePeriod) ∧
          operations.opensForReading ∧ !operations.opensForWriting then
        [.discarded s.topicStatsArray]
      else []

/-- When the file has been opened for writing, {lit}`fputs` does not fail. -/
def WritesWhole (_ : LoopState) : LoopStep → Prop
  | .handle _ => True
  | .update _ operations _ => operations.opensForWriting = true → operations.fputsFails = none

/-- The books are balanced: what the next start will show, what is in the memory and what has been
lost are what the file has held at first and what has been counted. -/
def Accounted (initial : TopicStatsArray) (events : List CountEvent) (s : LoopState) : Prop :=
  ∃ stored, nextStart s.file = some stored ∧ ∀ c,
    (counterValue stored c).toNat + (counterValue s.topicStatsArray c).toNat +
        discardedCounts c events =
      (counterValue initial c).toNat + countedTimes c events

theorem countedTimes_append (c : Counter) (events events' : List CountEvent) :
    countedTimes c (events ++ events') = countedTimes c events + countedTimes c events' := by
  rw [countedTimes, List.map_append, List.sum_append]
  rfl

theorem discardedCounts_append (c : Counter) (events events' : List CountEvent) :
    discardedCounts c (events ++ events') =
      discardedCounts c events + discardedCounts c events' := by
  rw [discardedCounts, List.map_append, List.sum_append]
  rfl

/-- Increments are counted, and none of them is lost. -/
theorem countedTimes_counted (c : Counter) (ks : List (Option Counter)) :
    countedTimes c (ks.map .counted) = ks.count (some c) ∧
      discardedCounts c (ks.map .counted) = 0 := by
  induction ks with
  | nil => exact ⟨rfl, rfl⟩
  | cons k ks ih =>
      have hcons : ((k :: ks).map CountEvent.counted) = [.counted k] ++ ks.map .counted := rfl
      rw [hcons, countedTimes_append, discardedCounts_append, ih.1, ih.2, List.count_cons]
      constructor
      · by_cases hk : k = some c
        · simp [countedTimes, CountEvent.counts, hk]
          omega
        · simp [countedTimes, CountEvent.counts, hk]
      · rfl

/-! ## Steps and runs -/

section Steps

variable {initial : TopicStatsArray} {events : List CountEvent} {s s' : LoopState}

/-- Increments below the bound of the counters. -/
theorem toNat_foldl_increment {ks : List (Option Counter)} {topicStatsArray : TopicStatsArray}
    {c : Counter} (hfits : (counterValue topicStatsArray c).toNat + ks.count (some c) < 2 ^ 64) :
    (counterValue (ks.foldl increment topicStatsArray) c).toNat =
      (counterValue topicStatsArray c).toNat + ks.count (some c) := by
  rw [counterValue_foldl_increment, UInt64.toNat_add, UInt64.toNat_ofNat', Nat.add_mod_mod,
    Nat.mod_eq_of_lt hfits]


theorem Accounted.handle (hs : Accounted initial events s) {incoming : Incoming}
    (hfits : ∀ c, (counterValue initial c).toNat +
      countedTimes c (events ++ countEvents s (.handle incoming)) < 2 ^ 63)
    (hstep : handleStep incoming s = some s') :
    Accounted initial (events ++ countEvents s (.handle incoming)) s' := by
  rcases hs with ⟨stored, hstored, hbalanced⟩
  rcases handleStep_counted hstep with ⟨hfile, hcounted⟩
  refine ⟨stored, by rw [hfile, hstored], fun c => ?_⟩
  have hbefore := hbalanced c
  have hbound := hfits c
  rcases countedTimes_counted c (countedBy s.receiveBuffer incoming) with ⟨htimes, hnone⟩
  rw [countEvents, countedTimes_append, htimes] at hbound
  rw [countEvents, countedTimes_append, discardedCounts_append, htimes, hnone, hcounted,
    toNat_foldl_increment (by omega)]
  omega

/-- An update that is not due or cannot read the file changes nothing.  Any other one resets the
counters; their counts are in the file then, or are lost. -/
theorem updateStep_counts {time updateTime : Int} {operations : FileOperations}
    (hstep : updateStep time operations updateTime s = some s') :
    (countEvents s (.update time operations updateTime) = [] ∧ s'.file = s.file ∧
      s'.topicStatsArray = s.topicStatsArray) ∨
    (∃ stored, nextStart s.file = some stored ∧ s'.topicStatsArray = resetStats ∧
      ((operations.opensForWriting = true ∧
          countEvents s (.update time operations updateTime) = [] ∧
          s'.file =
            overwriteFile operations s.file (fileText (addStats stored s.topicStatsArray))) ∨
        (countEvents s (.update time operations updateTime) = [.discarded s.topicStatsArray] ∧
          s'.file = s.file))) := by
  rw [updateStep] at hstep
  rw [countEvents]
  split at hstep
  · next hdue =>
    rw [Option.bind_eq_bind, Option.bind_eq_some_iff] at hstep
    rcases hstep with ⟨⟨file, topicStatsArray⟩, hupdate, hresult⟩
    have hs' := (Option.some.inj hresult).symm
    subst hs'
    rw [updateAndShowStats_eq, ← nextStart_eq] at hupdate
    cases hreads : operations.opensForReading with
    | false =>
        rw [hreads, if_neg Bool.false_ne_true, Option.some.injEq, Prod.mk.injEq] at hupdate
        exact .inl ⟨by simp, hupdate.1.symm, hupdate.2.symm⟩
    | true =>
        rw [hreads, if_pos rfl, Option.map_eq_some_iff] at hupdate
        rcases hupdate with ⟨stored, hstored, hpair⟩
        rw [Prod.mk.injEq] at hpair
        rcases hpair with ⟨rfl, rfl⟩
        refine .inr ⟨stored, hstored, rfl, ?_⟩
        cases hwrites : operations.opensForWriting with
        | false => exact .inr ⟨by simp [hdue], by simp [overwriteFile, hwrites]⟩
        | true => exact .inl ⟨rfl, by simp, rfl⟩
  · next hnot =>
    rw [← Option.some.inj hstep]
    exact .inl ⟨by rw [if_neg fun h => hnot h.1], rfl, rfl⟩

/-- An update moves the counts to the file, or loses them. -/
theorem Accounted.update (hs : Accounted initial events s) {time updateTime : Int}
    {operations : FileOperations}
    (hwhole : operations.opensForWriting = true → operations.fputsFails = none)
    (hfits : ∀ c, (counterValue initial c).toNat + countedTimes c events < 2 ^ 63)
    (hstep : updateStep time operations updateTime s = some s') :
    Accounted initial (events ++ countEvents s (.update time operations updateTime)) s' := by
  rcases hs with ⟨stored, hstored, hbalanced⟩
  rcases updateStep_counts hstep with ⟨hevents, hfile, hcounters⟩ |
    ⟨stored', hstored', hreset, ⟨hwrites, hevents, hfile⟩ | ⟨hevents, hfile⟩⟩
  · rw [hevents, List.append_nil]
    exact ⟨stored, hfile ▸ hstored, hcounters ▸ hbalanced⟩
  · -- the totals are read as they have been written
    have hsame : stored' = stored := Option.some.inj (hstored'.symm.trans hstored)
    subst hsame
    have hsums : ∀ c, (counterValue stored' c).toNat +
        (counterValue s.topicStatsArray c).toNat < 2 ^ 63 := by
      intro c
      have hbefore := hbalanced c
      have hbound := hfits c
      omega
    rw [overwriteFile, if_pos hwrites, hwhole hwrites] at hfile
    rw [hevents, List.append_nil]
    refine ⟨(addStats stored' s.topicStatsArray).map TopicStats.stored, ?_, fun c => ?_⟩
    · rw [hfile, nextStart_eq, storedStats_fileText]
    · have hbefore := hbalanced c
      rw [stored_addStats hsums, hreset, counterValue_resetStats, UInt64.toNat_zero]
      omega
  · refine ⟨stored, hfile ▸ hstored, fun c => ?_⟩
    have hbefore := hbalanced c
    have hlost : discardedCounts c [.discarded s.topicStatsArray] =
        (counterValue s.topicStatsArray c).toNat := rfl
    have hnone : countedTimes c [.discarded s.topicStatsArray] = 0 := rfl
    rw [hevents, countedTimes_append, discardedCounts_append, hlost, hnone, hreset,
      counterValue_resetStats, UInt64.toNat_zero]
    omega

/-- A step of the main loop keeps the books balanced. -/
theorem Accounted.step (hs : Accounted initial events s) {l : LoopStep}
    (hwhole : WritesWhole s l)
    (hfits : ∀ c, (counterValue initial c).toNat +
      countedTimes c (events ++ countEvents s l) < 2 ^ 63)
    (hstep : mainLoop.step s l = some s') : Accounted initial (events ++ countEvents s l) s' := by
  rcases mainLoop_cases hstep with ⟨incoming, rfl, hhandle⟩ |
    ⟨time, operations, updateTime, rfl, hupdate⟩
  · exact hs.handle hfits hhandle
  · refine hs.update hwhole (fun c => ?_) hupdate
    have hbound := hfits c
    rw [countedTimes_append] at hbound
    omega

/-- The books are balanced after every run. -/
theorem accounted_of_logs {lastUpdateTime : Int} {file : Bytes}
    (hinitial : nextStart file = some initial)
    (hlogs : mainLoop.Logs WritesWhole countEvents (.start lastUpdateTime file) events s)
    (hfits : ∀ c, (counterValue initial c).toNat + countedTimes c events < 2 ^ 63) :
    Accounted initial events s := by
  refine hlogs.invariant (fun s events =>
    (∀ c, (counterValue initial c).toNat + countedTimes c events < 2 ^ 63) →
      Accounted initial events s) ?_ ?_ hfits
  · intro _
    refine ⟨initial, hinitial, fun c => ?_⟩
    rw [LoopState.start, counterValue_resetStats]
    rfl
  · intro s l s' events hs hwhole hstep hfits
    refine (hs fun c => ?_).step hwhole hfits hstep
    have hbound := hfits c
    rw [countedTimes_append] at hbound
    omega

/-- Whatever arrives, and whenever the file is updated: as long as the file is either not opened
for writing or written as a whole, and the totals stay below the bound of {lit}`strtoll`, every
count is in the file, in the memory, or among those that have been reset without having been
written, and there is nothing else.  An update that is due and succeeds leaves nothing in
the memory. -/
theorem counts_accounted {lastUpdateTime : Int} {file : Bytes}
    (hinitial : nextStart file = some initial)
    (hlogs : mainLoop.Logs WritesWhole countEvents (.start lastUpdateTime file) events s)
    (hfits : ∀ c, (counterValue initial c).toNat + countedTimes c events < 2 ^ 63) :
    Accounted initial events s ∧
      ∀ time updateTime s', s.notificationsReceived = true →
        time - s.lastUpdateTime ≥ updatePeriod →
        mainLoop.step s (.update time ⟨true, true, none⟩ updateTime) = some s' →
        ∃ stored, nextStart s'.file = some stored ∧ ∀ c,
          (counterValue stored c).toNat + discardedCounts c events =
            (counterValue initial c).toNat + countedTimes c events := by
  have hs : Accounted initial events s := accounted_of_logs hinitial hlogs hfits
  refine ⟨hs, fun time updateTime s' hreceived hperiod hstep => ?_⟩
  have hnone : countEvents s (.update time ⟨true, true, none⟩ updateTime) = [] := by
    simp [countEvents]
  have hwhole : WritesWhole s (.update time ⟨true, true, none⟩ updateTime) := fun _ => rfl
  have hnext := hs.step hwhole (by rwa [hnone, List.append_nil]) hstep
  rw [hnone, List.append_nil] at hnext
  rcases mainLoop_cases hstep with ⟨incoming, hl, -⟩ | ⟨time', operations, updateTime', hl, hupdate⟩
  · contradiction
  · cases hl
    rcases updateStep_some hupdate with ⟨-, hresult⟩
    have hdue : UpdateDue s time := ⟨hreceived, hperiod⟩
    rw [if_pos hdue, if_pos rfl] at hresult
    rcases hnext with ⟨stored, hstored, hbalanced⟩
    refine ⟨stored, hstored, fun c => ?_⟩
    have hcounter := hbalanced c
    rwa [hresult.2, counterValue_resetStats, UInt64.toNat_zero, Nat.add_zero] at hcounter

end Steps

/-- What a message on news does at the top of the loop. -/
theorem countsNews (lastUpdateTime : Int) (file : Bytes) :
    mainLoop.step (LoopState.start lastUpdateTime file)
        (.handle (.data (batch [⟨.publish, news⟩]))) =
      some { newsCounted with lastUpdateTime := lastUpdateTime, file := file } ∧
    countEvents (LoopState.start lastUpdateTime file)
        (.handle (.data (batch [⟨.publish, news⟩]))) = [.counted (some (0, .publish))] := by
  constructor
  · have hhandle : handleNotifications (.data (batch [⟨.publish, news⟩]))
        (zeros brokerReceiveBufferSize) resetStats = some (.returned ⟨true, _, newsPublished⟩) :=
      handleNotifications_eq (by decide) (by decide) resetStats
    show handleStep _ _ = _
    rw [handleStep, LoopState.start, hhandle]
    rfl
  · have hcounted : countedBy (zeros brokerReceiveBufferSize)
        (.data (batch [⟨.publish, news⟩])) = [some (0, .publish)] :=
      countedBy_batch (by decide) (by decide)
    show (countedBy (zeros brokerReceiveBufferSize) _).map _ = _
    rw [hcounted]
    rfl

/-- A message on news is counted, and lost in an update that cannot open the file for writing;
the next one gets into the file. -/
theorem counts_accounted_newsPublished :
    ∃ s events, Accounted resetStats events s ∧ s.topicStatsArray = resetStats ∧
      discardedCounts (0, .publish) events = 1 ∧ countedTimes (0, .publish) events = 2 := by
  have hlost : mainLoop.step newsCounted (.update 20 ⟨true, false, none⟩ 20) =
      some (LoopState.start 20 []) := by
    show updateStep 20 ⟨true, false, none⟩ 20 newsCounted = _
    rw [updateStep, if_pos (by decide), updateAndShowStats_eq]
    rfl
  have hwritten : mainLoop.step { newsCounted with lastUpdateTime := 20, file := [] }
      (.update 40 ⟨true, true, none⟩ 40) =
      some (LoopState.start 40 (fileText (addStats resetStats newsPublished))) := by
    show updateStep 40 ⟨true, true, none⟩ 40
      { newsCounted with lastUpdateTime := 20, file := [] } = _
    rw [updateStep, if_pos (by decide), updateAndShowStats_eq]
    rfl
  rcases countsNews 0 [] with ⟨hfirst, hcounted⟩
  rcases countsNews 20 [] with ⟨hsecond, hcounted'⟩
  have hlogs : ∃ events, mainLoop.Logs WritesWhole countEvents (.start 0 []) events
      (.start 40 (fileText (addStats resetStats newsPublished))) ∧
      events = [.counted (some (0, .publish)), .discarded newsPublished,
        .counted (some (0, .publish))] := by
    refine ⟨_, .step (.step (.step (.step .start ?_ hfirst) ?_ hlost) ?_ hsecond) ?_ hwritten, ?_⟩
    · trivial
    · exact fun _ => rfl
    · trivial
    · exact fun _ => rfl
    · rw [hcounted, hcounted']
      rfl
  rcases hlogs with ⟨events, hlogs, rfl⟩
  refine ⟨_, _, (counts_accounted rfl hlogs fun c => ?_).1, rfl, by decide, by decide⟩
  rw [counterValue_resetStats]
  simp only [countedTimes, CountEvent.counts, List.map_cons, List.map_nil, List.sum_cons,
    List.sum_nil]
  split <;> decide

end StatsManager
end PubSub
