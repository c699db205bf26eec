import PubSub.Foundations.Transition
import PubSub.StatsManager.FileFailures

/-!
# The main loop of the stats manager

In every round of its main loop the stats manager handles the notifications that have arrived, and
updates the file if notifications have been received since the last update and the update
period is over.  A flag keeps in mind that there are counts to be added to the file.  It is
cleared behind every update, and the process ends when the broker closes the connection.

Main results:

- Theorems {lit}`handleStep_some` and {lit}`updateStep_some`: what the two halves of a round do to
  the flag and to the counters.
- Theorem {lit}`mainLoop_cases`: the loop makes no other steps.
-/

namespace PubSub
namespace StatsManager

open Foundations

/-! ## The loop -/

/-- {lit}`UPDATE_PERIOD` in seconds, with {lit}`DEBUG` as in {lit}`common.h`. -/
def updatePeriod : Int :=
  20

/-- Where {lit}`main` is: at the top of the loop, behind {lit}`handle_notifications`, or at
its end. -/
inductive Phase where
  | handling
  | updating
  | exited
deriving DecidableEq, Repr

/-- The variables of {lit}`main`, and {lit}`stats.txt`. -/
structure LoopState where
  phase : Phase
  notificationsReceived : Bool
  topicStatsArray : TopicStatsArray
  receiveBuffer : Bytes
  lastUpdateTime : Int
  file : Bytes
deriving DecidableEq, Repr

/-- At the beginning of the loop. -/
def LoopState.start (lastUpdateTime : Int) (file : Bytes) : LoopState where
  phase := .handling
  notificationsReceived := false
  topicStatsArray := resetStats
  receiveBuffer := zeros brokerReceiveBufferSize
  lastUpdateTime := lastUpdateTime
  file := file

/-- A half of a round, with what {lit}`recv` returns, or with the readings of the clock and the
outcomes of the operations on the file. -/
inductive LoopStep where
  | handle (incoming : Incoming)
  | update (time : Int) (operations : FileOperations) (updateTime : Int)
deriving Repr

/-- The call of {lit}`handle_notifications`, and what is done with its result. -/
def handleStep (incoming : Incoming) (s : LoopState) : Option LoopState := do
  match ← handleNotifications incoming s.receiveBuffer s.topicStatsArray with
  | .exited => return { s with phase := .exited }
  | .returned handled =>
      return { s with
        phase := .updating
        notificationsReceived := handled.notificationsReceived || s.notificationsReceived
        topicStatsArray := handled.topicStatsArray
        receiveBuffer := handled.receiveBuffer }

/-- The second half of a round. -/
def updateStep (time : Int) (operations : FileOperations) (updateTime : Int) (s : LoopState) :
    Option LoopState :=
  if s.notificationsReceived ∧ time - s.lastUpdateTime ≥ updatePeriod then do
    let (file, topicStatsArray) ← updateAndShowStats operations s.file s.topicStatsArray
    return { s with
      phase := .handling
      notificationsReceived := false
      topicStatsArray := topicStatsArray
      lastUpdateTime := updateTime
      file := file }
  else return { s with phase := .handling }

/-- The loop of {lit}`main`.  Its first reading of the clock is {lit}`lastUpdateTime`. -/
def mainLoop : System LoopState LoopStep where
  initial s := ∃ lastUpdateTime file, s = LoopState.start lastUpdateTime file
  step s l :=
    match s.phase, l with
    | .handling, .handle incoming => handleStep incoming s
    | .updating, .update time operations updateTime => updateStep time operations updateTime s
    | _, _ => none

/-! ## What a step does -/

/-- {lit}`main` calls {lit}`update_and_show_stats`. -/
def UpdateDue (s : LoopState) (time : Int) : Prop :=
  s.notificationsReceived = true ∧ time - s.lastUpdateTime ≥ updatePeriod

instance (s : LoopState) (time : Int) : Decidable (UpdateDue s time) :=
  inferInstanceAs (Decidable (_ ∧ _))

/-- The process ends when the broker has closed the connection. -/
theorem handleNotifications_exited_iff {incoming : Incoming} {receiveBuffer : Bytes}
    {topicStatsArray : TopicStatsArray} :
    handleNotifications incoming receiveBuffer topicStatsArray = some .exited ↔
      incoming = .closed := by
  cases incoming with
  | data bytes =>
      simp only [handleNotifications, receiveNotifications, reduceCtorEq, iff_false]
      cases recvInto receiveBuffer receiveBufferSize bytes with
      | none => simp
      | some receiveBuffer => simp [Option.bind_eq_some_iff]
  | _ => simp [handleNotifications, receiveNotifications]

/-- Without notifications nothing is counted. -/
theorem topicStatsArray_of_not_received {incoming : Incoming} {receiveBuffer : Bytes}
    {topicStatsArray : TopicStatsArray} {handled : Handled}
    (h : handleNotifications incoming receiveBuffer topicStatsArray = some (.returned handled))
    (hnot : handled.notificationsReceived = false) :
    handled.topicStatsArray = topicStatsArray := by
  cases incoming with
  | data bytes =>
      simp only [handleNotifications, receiveNotifications] at h
      cases hreceived : recvInto receiveBuffer receiveBufferSize bytes with
      | none => simp [hreceived] at h
      | some receiveBuffer' =>
          simp only [hreceived, Option.map_some, Option.bind_eq_bind, Option.bind_some,
            Option.bind_eq_some_iff, Option.pure_def, Option.some.injEq,
            Outcome.returned.injEq] at h
          rcases h with ⟨⟨counted, i⟩, hloop, cleared, -, rfl⟩
          have hi : i = 0 := by simpa using hnot
          exact eq_of_frameLoop (hi ▸ hloop)
  | _ =>
      simp only [handleNotifications, receiveNotifications] at h
      cases h <;> rfl

/-- The process ends, or goes on; unless notifications have been received, now or before,
it goes on with the same counters. -/
theorem handleStep_some {incoming : Incoming} {s s' : LoopState}
    (hstep : handleStep incoming s = some s') :
    (incoming = .closed ∧ s' = { s with phase := .exited }) ∨
    (incoming ≠ .closed ∧ s'.phase = .updating ∧
      (s'.notificationsReceived = false →
        s.notificationsReceived = false ∧ s'.topicStatsArray = s.topicStatsArray)) := by
  rw [handleStep, Option.bind_eq_bind, Option.bind_eq_some_iff] at hstep
  rcases hstep with ⟨outcome, hhandle, hresult⟩
  cases outcome with
  | exited =>
      exact .inl ⟨handleNotifications_exited_iff.mp hhandle, (Option.some.inj hresult).symm⟩
  | returned handled =>
      have hs' := (Option.some.inj hresult).symm
      subst hs'
      refine .inr ⟨?_, rfl, fun hflag => ?_⟩
      · intro hclosed
        rw [handleNotifications_exited_iff.mpr hclosed] at hhandle
        cases hhandle
      · rcases Bool.or_eq_false_iff.mp hflag with ⟨hnot, hbefore⟩
        exact ⟨hbefore, topicStatsArray_of_not_received hhandle hnot⟩

/-- An update that is due resets the flag, and the counters if it can read the file. -/
theorem updateStep_some {time updateTime : Int} {operations : FileOperations} {s s' : LoopState}
    (hstep : updateStep time operations updateTime s = some s') :
    s'.phase = .handling ∧
      if UpdateDue s time then
        s'.notificationsReceived = false ∧ s'.topicStatsArray =
          if operations.opensForReading then resetStats else s.topicStatsArray
      else s'.notificationsReceived = s.notificationsReceived ∧
        s'.topicStatsArray = s.topicStatsArray := by
  rw [updateStep] at hstep
  split at hstep
  · next hdue =>
    rw [Option.bind_eq_bind, Option.bind_eq_some_iff] at hstep
    rcases hstep with ⟨⟨file, topicStatsArray⟩, hupdate, hresult⟩
    have hs' := (Option.some.inj hresult).symm
    subst hs'
    refine ⟨rfl, ?_⟩
    rw [if_pos (show UpdateDue s time from hdue)]
    rw [updateAndShowStats_eq] at hupdate
    cases hreads : operations.opensForReading with
    | false =>
        rw [hreads, if_neg Bool.false_ne_true, Option.some.injEq, Prod.mk.injEq] at hupdate
        exact ⟨rfl, hupdate.2.symm⟩
    | true =>
        rw [hreads, if_pos rfl, Option.map_eq_some_iff] at hupdate
        rcases hupdate with ⟨stored, -, hpair⟩
        exact ⟨rfl, (Prod.mk.inj hpair).2.symm⟩
  · next hnot =>
    have hs' := (Option.some.inj hstep).symm
    subst hs'
    refine ⟨rfl, ?_⟩
    rw [if_neg (show ¬ UpdateDue s time from hnot)]
    exact ⟨rfl, rfl⟩

/-- The steps of the loop, by where it is. -/
theorem mainLoop_cases {s s' : LoopState} {l : LoopStep} (hstep : mainLoop.step s l = some s') :
    (∃ incoming, l = .handle incoming ∧ handleStep incoming s = some s') ∨
    (∃ time operations updateTime, l = .update time operations updateTime ∧
      updateStep time operations updateTime s = some s') := by
  simp only [mainLoop] at hstep
  split at hstep
  · exact .inl ⟨_, rfl, hstep⟩
  · exact .inr ⟨_, _, _, rfl, hstep⟩
  · contradiction

/-- The loop has counted a message on news. -/
def newsCounted : LoopState :=
  { LoopState.start 0 [] with
    phase := .updating
    notificationsReceived := true
    topicStatsArray := newsPublished }

theorem handle_newsPublished :
    mainLoop.step (LoopState.start 0 []) (.handle (.data (batch [⟨.publish, news⟩]))) =
      some newsCounted := by
  have hhandle : handleNotifications (.data (batch [⟨.publish, news⟩]))
      (zeros brokerReceiveBufferSize) resetStats = some (.returned ⟨true, _, newsPublished⟩) :=
    handleNotifications_eq (by decide) (by decide) resetStats
  show handleStep _ _ = _
  rw [handleStep, LoopState.start, hhandle]
  rfl

end StatsManager
end PubSub
