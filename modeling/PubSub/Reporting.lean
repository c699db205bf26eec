import PubSub.Agreement
import PubSub.Broker.Sending
import PubSub.Broker.Serving
import PubSub.StatsManager.Accounting

/-!
# The broker and the stats manager

The broker sends a notification for every command that has succeeded, and the stats manager
receives what has arrived whenever it looks.  Here the two programs and the connection between
them are put together.

Main results:

- Structure {lit}`Notified` and theorem {lit}`notified_of_service`: of which commands the stats
  manager has been notified, whatever has been received and executed.
- Definition {lit}`reporting`: the two programs and the connection as a transition system.
- Theorem {lit}`sent_of_sendsWhole`: what is sent in a step in which {lit}`send` takes the whole
  notification.
- Theorems {lit}`broker_step` and {lit}`statsManager_logs`: seen from either program, a run of
  both is a run of its own.
-/

namespace PubSub
namespace Statistics

open Foundations Client Broker StatsManager Agreement

/-! ## What the broker reports -/

/-- Does the command succeed whenever its topic exists? -/
def needsOnlyTopic : Command → Bool
  | .publish _ _ | .topicExists _ | .subscriberNumber _ => true
  | .subscribe _ | .unsubscribe _ => false

/-- The requests that are bound to succeed. -/
def isCertain (topicNames : List Bytes) (request : ClientRequest) : Bool :=
  needsOnlyTopic request.2 && topicNames.any fun name => name = request.2.topic

theorem isCertain_iff (topicNames : List Bytes) (request : ClientRequest) :
    isCertain topicNames request = true ↔
      needsOnlyTopic request.2 = true ∧ request.2.topic ∈ topicNames := by
  simp [isCertain]

/-- Of the requests executed, these have succeeded, and the stats manager has been notified of
them and of no others. -/
structure Notified (topicNames : List Bytes) (notifications : List Bytes)
    (done succeeded : List ClientRequest) : Prop where
  sent : notifications = succeeded.map fun request => notificationOf request.2
  executed : succeeded.Sublist done
  known : ∀ request ∈ succeeded, request.2.WellFormed ∧ request.2.topic ∈ topicNames
  complete : succeeded.filter (isCertain topicNames) = done.filter (isCertain topicNames)

/-- The notification of one command. -/
theorem notification_of_command {topics : List Topic} {topicNames : List Bytes}
    (hnames : topics.map Topic.name = topicNames) {c : Command} (hc : c.WellFormed) {rest : Bytes}
    {connectionSocketPtr : SocketPtr} {execution : Execution}
    (h : executeCommand topics (c.text ++ 0 :: rest) connectionSocketPtr = some execution) :
    ∃ success : Bool, execution.notification = (if success then some (notificationOf c) else none) ∧
      (success = true → c.topic ∈ topicNames) ∧
      (needsOnlyTopic c = true → c.topic ∈ topicNames → success = true) := by
  rw [executeCommand_eq _ _ hc, Option.map_eq_some_iff] at h
  rcases h with ⟨⟨topics', response, success⟩, hperform, rfl⟩
  have hsuccess := perform_success_iff hperform
  refine ⟨success, rfl, fun hsome => ?_, fun hneeds hmem => ?_⟩
  · rcases (hsuccess.mp hsome).topic_exists with ⟨t, ht, hname⟩
    rw [← hnames, ← hname]
    exact List.mem_map_of_mem ht
  · rw [hsuccess]
    rw [← hnames] at hmem
    rcases List.mem_map.mp hmem with ⟨t, ht, hname⟩
    cases c with
    | publish topic message | topicExists topic | subscriberNumber topic => exact ⟨t, ht, hname⟩
    | subscribe topic | unsubscribe topic => contradiction

/-- One more request is executed. -/
theorem Notified.execute {topicNames notifications : List Bytes}
    {done succeeded : List ClientRequest} (hs : Notified topicNames notifications done succeeded)
    {socket : Socket} {c : Command} (hc : c.WellFormed) {success : Bool}
    (hknown : success = true → c.topic ∈ topicNames)
    (hcertain : needsOnlyTopic c = true → c.topic ∈ topicNames → success = true) :
    ∃ succeeded', Notified topicNames
      (notifications ++ (if success then some (notificationOf c) else none).toList)
      (done ++ [(socket, c)]) succeeded' := by
  cases success with
  | false =>
      have hnot : ¬ isCertain topicNames (socket, c) = true := by
        rw [isCertain_iff]
        exact fun h => Bool.false_ne_true (hcertain h.1 h.2)
      refine ⟨succeeded, by simpa using hs.sent, hs.executed.trans (List.sublist_append_left _ _),
        hs.known, ?_⟩
      rw [hs.complete, List.filter_append, List.filter_cons_of_neg hnot,
        List.filter_nil, List.append_nil]
  | true =>
      refine ⟨succeeded ++ [(socket, c)], by simp [hs.sent], hs.executed.append_right _, ?_, ?_⟩
      · intro request hrequest
        rcases List.mem_append.mp hrequest with hold | hnew
        · exact hs.known request hold
        · rw [List.mem_singleton] at hnew
          rw [hnew]
          exact ⟨hc, hknown rfl⟩
      · rw [List.filter_append, List.filter_append, hs.complete]

/-- Whatever has been received and executed: the requests that have succeeded are known. -/
theorem notified_of_service {topicNames : List Bytes} {s : Service topicNames.length}
    (hreach : (service topicNames).ReachableVia ReceivesCommands s) :
    ∃ done todo succeeded, InService topicNames s done todo ∧
      Notified topicNames s.notifications done succeeded := by
  have hboth : (service topicNames).Reachable s ∧ ∃ done todo succeeded,
      InService topicNames s done todo ∧ Notified topicNames s.notifications done succeeded := by
    refine hreach.invariant (fun s => (service topicNames).Reachable s ∧ ∃ done todo succeeded,
      InService topicNames s done todo ∧
        Notified topicNames s.notifications done succeeded) ?_ ?_
    · rintro s ⟨garbage, rfl⟩
      exact ⟨System.Reachable.start ⟨garbage, rfl⟩, [], [], [], inService_start garbage,
        ⟨rfl, .slnil, by simp, rfl⟩⟩
    · rintro s l s' ⟨hs, done, todo, succeeded, hinv, hnotified⟩ hallowed hstep
      refine ⟨hs.step hstep, ?_⟩
      have hmoves := serviceStep_moves hstep
      cases l with
      | accept accepted =>
          refine ⟨done, todo, succeeded, hinv.accept hmoves, ?_⟩
          cases hmoves
          exact hnotified
      | receive incoming =>
          rcases hinv.receive hallowed hmoves with ⟨-, requests, hinv'⟩
          refine ⟨done, requests, succeeded, hinv', ?_⟩
          cases hmoves <;> exact hnotified
      | finish =>
          refine ⟨done, [], succeeded, (hinv.finish hmoves).2, ?_⟩
          cases hmoves
          exact hnotified
      | thread a =>
          have hdelivery := (invariants_of_keepsRunning (threads_of_service hs)).2
          refine ⟨done, todo, succeeded, hinv.thread hdelivery hmoves, ?_⟩
          cases hmoves
          exact hnotified
      | execute node =>
          rcases hinv.execute (glued_of_service hs) hmoves with ⟨request, rest, htodo, hinv'⟩
          cases hmoves with
          | execute hposition hidle hwalker hsocket hmark hexecution henqueue hrespond hscan =>
          rcases hinv.nextRequest hposition hwalker hsocket hmark with
            ⟨c, cs, rest', m, executed, htodo', hcs, hcommand, -⟩
          rw [htodo, List.cons.injEq] at htodo'
          rw [hcommand] at hexecution
          have hc : c.WellFormed := hcs c (by simp)
          rcases notification_of_command (glued_of_service hs).names hc hexecution with
            ⟨success, hnotification, hknown, hcertain⟩
          rcases hnotified.execute hc hknown hcertain with ⟨succeeded', hnotified'⟩
          refine ⟨done ++ [request], rest, succeeded', hinv', ?_⟩
          rw [htodo'.1, hnotification]
          exact hnotified'
  exact hboth.2

/-! ## The two programs and the connection -/

/-- The broker and the stats manager in operation.  {lit}`sentBytes` are the bytes that
{lit}`send` has taken in {lit}`send_to_stats_manager`, and the stats manager has received the
first {lit}`arrived` of them. -/
structure Reporting (n : Nat) where
  broker : Service n
  sentBytes : Bytes
  arrived : Nat
  statsManager : LoopState

/-- What happens next. -/
inductive ReportingStep (n : Nat) where
  /-- a step of the broker, with what {lit}`send` returns if there is a notification to send -/
  | broker (l : ServiceStep n) (result : SendResult)
  /-- {lit}`recv` of the stats manager returns the next {lit}`k` bytes -/
  | receive (k : Nat)
  /-- the stats manager receives nothing -/
  | receiveNothing (incoming : Incoming)
  /-- the second half of a round of the stats manager -/
  | update (time : Int) (operations : FileOperations) (updateTime : Int)

/-- Nothing has arrived, and the connection is open. -/
def IsNothing : Incoming → Prop
  | .selectError | .willBlock | .recvError => True
  | .data _ | .closed => False

instance (incoming : Incoming) : Decidable (IsNothing incoming) :=
  match incoming with
  | .selectError | .willBlock | .recvError => isTrue trivial
  | .data _ | .closed => isFalse id

variable {n : Nat}

/-- {lit}`send_to_stats_manager`: the bytes that {lit}`send` takes of the string and its terminator.
After a failure the broker goes on without them. -/
def sendToStatsManager (message : Bytes) (result : SendResult) : Option Bytes := do
  let length ← strlen (message ++ [0])
  match result with
  | .socketError => return []
  | .accepted count =>
      if 0 < count ∧ count ≤ length + 1 then return (message ++ [0]).take count else none

/-- The notification of a step of the broker, if {lit}`notify_stats_manager` is called in it. -/
def notificationIn (before after : Service n) : Option Bytes :=
  (after.notifications.drop before.notifications.length).head?

/-- The bytes that are sent in the step. -/
def sentIn (before after : Service n) (result : SendResult) : Option Bytes :=
  match notificationIn before after with
  | some notification => sendToStatsManager notification result
  | none => some []

/-- The bytes that have been received. -/
def Reporting.arrivedBytes (s : Reporting n) : Bytes :=
  s.sentBytes.take s.arrived

/-- The bytes that have been sent and not yet received. -/
def Reporting.inTransit (s : Reporting n) : Bytes :=
  s.sentBytes.drop s.arrived

/-- The step function.  TCP delivers the bytes in order, and as many at once as it likes. -/
def reportingStep (s : Reporting n) : ReportingStep n → Option (Reporting n)
  | .broker l result => do
      let broker ← serviceStep s.broker l
      let sent ← sentIn s.broker broker result
      return { s with broker := broker, sentBytes := s.sentBytes ++ sent }
  | .receive k =>
      if 0 < k ∧ k ≤ s.inTransit.length then
        (mainLoop.step s.statsManager (.handle (.data (s.inTransit.take k)))).map
          fun statsManager =>
            { s with arrived := s.arrived + k, statsManager := statsManager }
      else none
  | .receiveNothing incoming =>
      if IsNothing incoming then
        (mainLoop.step s.statsManager (.handle incoming)).map fun statsManager =>
          { s with statsManager := statsManager }
      else none
  | .update time operations updateTime =>
      (mainLoop.step s.statsManager (.update time operations updateTime)).map
        fun statsManager => { s with statsManager := statsManager }

/-- Both programs at the beginning of their main loops. -/
def Reporting.start (topicNames : List Bytes)
    (garbage : Nat → OutgoingBufferElement topicNames.length) (lastUpdateTime : Int)
    (file : Bytes) : Reporting topicNames.length where
  broker := Service.start topicNames garbage
  sentBytes := []
  arrived := 0
  statsManager := LoopState.start lastUpdateTime file

/-- The two programs as a transition system. -/
def reporting (topicNames : List Bytes) :
    System (Reporting topicNames.length) (ReportingStep topicNames.length) where
  initial := fun s => ∃ garbage lastUpdateTime file,
    s = Reporting.start topicNames garbage lastUpdateTime file
  step := reportingStep

/-- What is written down about the counters. -/
def reportEvents (s : Reporting n) : ReportingStep n → List CountEvent
  | .broker _ _ => []
  | .receive k => countEvents s.statsManager (.handle (.data (s.inTransit.take k)))
  | .receiveNothing incoming => countEvents s.statsManager (.handle incoming)
  | .update time operations updateTime =>
      countEvents s.statsManager (.update time operations updateTime)

/-- {lit}`send` takes whole notifications. -/
def SendsWhole (s : Reporting n) : ReportingStep n → Prop
  | .broker l result => ∀ notification ∈ (serviceStep s.broker l).bind (notificationIn s.broker),
      result = .accepted (notification.length + 1)
  | .receive _ | .receiveNothing _ | .update _ _ _ => True

instance (s : Reporting n) (l : ReportingStep n) : Decidable (SendsWhole s l) :=
  match l with
  | .broker l result => inferInstanceAs (Decidable (∀ notification ∈
      (serviceStep s.broker l).bind (notificationIn s.broker),
        result = .accepted (notification.length + 1)))
  | .receive _ | .receiveNothing _ | .update _ _ _ => isTrue trivial

/-- Clients send whole commands, {lit}`send` takes whole notifications, and {lit}`fputs` does not
fail. -/
def Reports (s : Reporting n) : ReportingStep n → Prop
  | .broker l result => ReceivesCommands s.broker l ∧ SendsWhole s (.broker l result)
  | .receive _ | .receiveNothing _ => True
  | .update time operations updateTime =>
      WritesWhole s.statsManager (.update time operations updateTime)

/-- Moreover, every receive ends where a notification ends. -/
def ReportsWhole (s : Reporting n) (l : ReportingStep n) : Prop :=
  Reports s l ∧ ∀ k, l = .receive k → endsInside true (s.inTransit.take k) = false

/-- Moreover, the notifications of one receive are all the same. -/
def ReportsApart (s : Reporting n) (l : ReportingStep n) : Prop :=
  Reports s l ∧ ∀ k, l = .receive k → ∃ notification i, NulFree notification ∧
    s.inTransit.take k = terminated 0 (List.replicate (i + 1) notification)

theorem reportsWhole_of_reportsApart {s : Reporting n} {l : ReportingStep n}
    (h : ReportsApart s l) : ReportsWhole s l := by
  refine ⟨h.1, fun k hl => ?_⟩
  rcases h.2 k hl with ⟨notification, i, -, htaken⟩
  rw [htaken, endsInside_terminated]
  simp

/-- The steps of the two programs. -/
inductive ReportingMoves (s : Reporting n) : ReportingStep n → Reporting n → Prop
  | broker {l : ServiceStep n} {result : SendResult} {broker : Service n} {sent : Bytes}
      (hstep : serviceStep s.broker l = some broker)
      (hsent : sentIn s.broker broker result = some sent) :
      ReportingMoves s (.broker l result)
        { s with broker := broker, sentBytes := s.sentBytes ++ sent }
  | receive {k : Nat} {statsManager : LoopState} (hpositive : 0 < k)
      (hsent : k ≤ s.inTransit.length)
      (hstep : mainLoop.step s.statsManager (.handle (.data (s.inTransit.take k))) =
        some statsManager) :
      ReportingMoves s (.receive k)
        { s with arrived := s.arrived + k, statsManager := statsManager }
  | receiveNothing {incoming : Incoming} {statsManager : LoopState}
      (hnothing : IsNothing incoming)
      (hstep : mainLoop.step s.statsManager (.handle incoming) = some statsManager) :
      ReportingMoves s (.receiveNothing incoming) { s with statsManager := statsManager }
  | update {time updateTime : Int} {operations : FileOperations} {statsManager : LoopState}
      (hstep : mainLoop.step s.statsManager (.update time operations updateTime) =
        some statsManager) :
      ReportingMoves s (.update time operations updateTime) { s with statsManager := statsManager }

theorem reportingStep_moves {s s' : Reporting n} {l : ReportingStep n}
    (h : reportingStep s l = some s') : ReportingMoves s l s' := by
  cases l with
  | broker l result =>
      simp only [reportingStep, Option.bind_eq_bind, Option.bind_eq_some_iff, Option.pure_def,
        Option.some.injEq] at h
      rcases h with ⟨broker, hstep, sent, hsent, rfl⟩
      exact .broker hstep hsent
  | receive k =>
      rw [reportingStep, Option.ite_none_right_eq_some, Option.map_eq_some_iff] at h
      rcases h with ⟨⟨hpositive, hsent⟩, statsManager, hstep, rfl⟩
      exact .receive hpositive hsent hstep
  | receiveNothing incoming =>
      rw [reportingStep, Option.ite_none_right_eq_some, Option.map_eq_some_iff] at h
      rcases h with ⟨hnothing, statsManager, hstep, rfl⟩
      exact .receiveNothing hnothing hstep
  | update time operations updateTime =>
      rcases Option.map_eq_some_iff.mp h with ⟨statsManager, hstep, rfl⟩
      exact .update hstep

/-- The broker goes on sending, at most one notification in a step. -/
theorem notifications_of_step {s s' : Service n} {l : ServiceStep n}
    (h : serviceStep s l = some s') :
    s'.notifications = s.notifications ++ (notificationIn s s').toList := by
  rw [notificationIn]
  cases serviceStep_moves h with
  | @execute _ _ _ _ _ _ execution =>
      rw [List.drop_left]
      cases execution.notification <;> rfl
  | accept | receive | poll | finish | thread => simp

/-- Whole notifications are sent with their terminators. -/
theorem sent_of_sendsWhole {s : Reporting n} {l : ServiceStep n} {result : SendResult}
    {broker : Service n} {sent : Bytes} (hwhole : SendsWhole s (.broker l result))
    (hstep : serviceStep s.broker l = some broker)
    (hsent : sentIn s.broker broker result = some sent) :
    sent = terminated 0 (notificationIn s.broker broker).toList := by
  simp only [SendsWhole, hstep, Option.bind_some] at hwhole
  unfold sentIn at hsent
  cases hnotification : notificationIn s.broker broker with
  | none =>
      rw [hnotification] at hsent
      exact (Option.some.inj hsent).symm
  | some notification =>
      rw [hnotification] at hsent hwhole
      rw [hwhole notification rfl] at hsent
      simp only [sendToStatsManager, Option.bind_eq_bind, Option.bind_eq_some_iff,
        Option.ite_none_right_eq_some, Option.pure_def, Option.some.injEq] at hsent
      rcases hsent with ⟨-, -, -, hsent⟩
      rw [← hsent, List.take_of_length_le (by simp)]
      simp [terminated]

/-! ## Seen from the two programs -/

section Logs

variable {topicNames : List Bytes} {s t : Reporting topicNames.length} {events : List CountEvent}
  {allowed : Reporting topicNames.length → ReportingStep topicNames.length → Prop}

/-- The broker does what it does alone. -/
theorem broker_step {l : ReportingStep topicNames.length}
    (hreach : (service topicNames).ReachableVia ReceivesCommands s.broker) (hreports : Reports s l)
    (hmoves : ReportingMoves s l t) :
    (service topicNames).ReachableVia ReceivesCommands t.broker := by
  cases hmoves with
  | broker hstep => exact hreach.step hreports.1 hstep
  | receive | receiveNothing | update => exact hreach

/-- So does the stats manager, and what is written down about it is the same. -/
theorem statsManager_logs (hallowed : ∀ s l, allowed s l → Reports s l)
    (hlogs : (reporting topicNames).Logs allowed reportEvents s events t) :
    mainLoop.Logs WritesWhole countEvents s.statsManager events t.statsManager := by
  refine hlogs.invariant (fun t events =>
    mainLoop.Logs WritesWhole countEvents s.statsManager events t.statsManager) .start ?_
  intro t l u events ht hallow hstep
  cases reportingStep_moves hstep with
  | broker hmove =>
      rw [reportEvents, List.append_nil]
      exact ht
  | @receive k _ _ _ hmove =>
      have hwhole : WritesWhole t.statsManager (.handle (.data (t.inTransit.take k))) := trivial
      exact ht.step hwhole hmove
  | @receiveNothing incoming _ _ hmove =>
      have hwhole : WritesWhole t.statsManager (.handle incoming) := trivial
      exact ht.step hwhole hmove
  | @update time updateTime operations _ hmove =>
      have hwhole : WritesWhole t.statsManager (.update time operations updateTime) :=
        hallowed t _ hallow
      exact ht.step hwhole hmove

end Logs

end Statistics
end PubSub
