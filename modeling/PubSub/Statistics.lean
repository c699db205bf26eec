import PubSub.Reporting

/-!
# From the clients' commands to the statistics

The stats manager receives the stream of notifications in pieces, and cuts it where it likes.
What it counts for a piece is all counted as the first notification of the piece, and if that
is the rest of one of which the beginning has been received before, it is counted for nothing.
Here what the clients have asked for is compared with what the next start of the stats manager
will show.

Main results:

- Theorem {lit}`counter_of_inside`: the rest of a notification is counted for no counter.
- Theorems {lit}`Reported.step`, {lit}`ReportedWhole.step` and {lit}`CountedApart.step`: what a
  step of either program does to the books.
- Theorem {lit}`totals_not_exceeded`: wherever the stream is cut, the grand total is no more than
  the commands that have succeeded.
- Theorem {lit}`totals_reported`: none is missing in it if no notification is cut.
- Theorem {lit}`counters_reported`: and every counter is right if no piece mixes notifications.
-/

namespace PubSub
namespace Statistics

open Foundations Client Broker StatsManager Agreement

variable {n : Nat}

/-! ## What a receive counts -/

/-- The notification of a command that is known to the broker. -/
def IsReport (notification : Bytes) : Prop :=
  ∃ c : Command, c.WellFormed ∧ c.topic ∈ brokerTopicNames ∧ notificationOf c = notification

/-- The counter that the stats manager finds in a notification. -/
def addressedBy (notification : Bytes) : Option Counter :=
  (addressedCounter (notification.drop 1 ++ [0])).join

/-- The requests among these that a counter is for. -/
def requestsFor (c : Counter) (requests : List ClientRequest) : Nat :=
  requests.countP fun request =>
    countedTopics.get c.1 = request.2.topic ∧ c.2 = notificationType request.2

theorem Notified.isReport {notifications : List Bytes} {done succeeded : List ClientRequest}
    (hs : Notified brokerTopicNames notifications done succeeded) :
    ∀ m ∈ notifications, IsReport m := by
  intro m hm
  rw [hs.sent] at hm
  rcases List.mem_map.mp hm with ⟨request, hrequest, rfl⟩
  rcases hs.known request hrequest with ⟨hformed, htopic⟩
  exact ⟨request.2, hformed, htopic, rfl⟩

theorem IsReport.nulFree {notification : Bytes} (h : IsReport notification) :
    NulFree notification := by
  rcases h with ⟨c, hc, -, rfl⟩
  rw [notificationOf_eq, nulFree_cons]
  exact ⟨hashtag_ne_nul, Notification.payload_nulFree hc.topic_nulFree⟩

/-- The stats manager finds the counter that the command is for. -/
theorem addressedBy_notificationOf {c : Command} (hc : c.WellFormed)
    (htopic : c.topic ∈ brokerTopicNames) :
    ∃ counter, addressedBy (notificationOf c) = some counter ∧ (decoded c).counter = some counter ∧
      ∀ other : Counter, (countedTopics.get other.1 = c.topic ∧ other.2 = notificationType c) ↔
        other = counter := by
  rcases getTopicStats_of_brokerTopic htopic with ⟨i, hstats, hcounted⟩
  have hcounter : (decoded c).counter = some (i, notificationType c) := by
    simp [Notification.counter, decoded, hstats]
  have hbegins : NulFree [(notificationType c).char, hashtag] := by
    cases c <;> simp [notificationType, NotificationType.char, byteOf, hashtag]
  have htext : (notificationOf c).drop 1 ++ [0] =
      (notificationType c).char :: hashtag :: (c.topic ++ [0]) := by
    rw [notificationOf_eq]
    rfl
  have hname : copyFrom 2 ((notificationType c).char :: hashtag :: (c.topic ++ [0])) =
      some c.topic := copyFrom_eq hbegins hc.topic_nulFree []
  refine ⟨(i, notificationType c), ?_, hcounter, fun other => ?_⟩
  · rw [addressedBy, htext, addressedCounter, hname]
    simp [hstats, NotificationType.ofChar_char]
  · have hinjective : ∀ j i : Fin topicsNum, countedTopics.get j = countedTopics.get i ↔ j = i := by
      decide
    rw [← hcounted, hinjective, Prod.ext_iff]

/-- A text with a type character that is not counted addresses no counter. -/
theorem addressedCounter_of_type {b : Byte} {rest : Bytes} {counter : Option Counter}
    (htype : NotificationType.ofChar b = none)
    (h : addressedCounter (b :: rest) = some counter) : counter = none := by
  rw [addressedCounter, List.getElem?_cons_zero, Option.bind_eq_bind, Option.bind_some,
    Option.bind_eq_bind, Option.bind_eq_some_iff] at h
  rcases h with ⟨topicName, -, h⟩
  rw [Option.pure_def, Option.some.injEq, htype] at h
  rw [← h]
  cases getTopicStats topicName <;> rfl

/-- The names of the topics. -/
theorem brokerTopicNames_plain : ∀ topic ∈ brokerTopicNames,
    topic ≠ [] ∧ ∀ b ∈ topic, b ≠ hashtag ∧ NotificationType.ofChar b = none := by
  decide +kernel

/-- What is received from inside a notification on may look like a frame, but it is counted for
no counter. -/
theorem counter_of_inside {head tail : Bytes} (hhead : head ≠ [])
    (hreport : IsReport (head ++ tail)) {bytes rest : Bytes} (hbytes : bytes <+: tail ++ 0 :: rest)
    (hmark : bytes.head? = some hashtag) {k : Nat} {counter : Option Counter}
    (haddressed : addressedCounter ((bytes ++ zeros k).drop 1) = some counter) :
    counter = none := by
  rcases hreport with ⟨c, -, htopic, htext⟩
  rcases brokerTopicNames_plain c.topic htopic with ⟨hnonempty, hplain⟩
  have htype : ∀ type : NotificationType, type.char ≠ hashtag := by
    intro type
    cases type <;> decide
  have hpayload : (decoded c).payload = (notificationType c).char :: hashtag :: c.topic := rfl
  rw [notificationOf_eq, hpayload] at htext
  cases bytes with
  | nil => contradiction
  | cons b bytes =>
  rw [List.head?_cons, Option.some.injEq] at hmark
  subst hmark
  rw [List.cons_append, List.drop_succ_cons, List.drop_zero] at haddressed
  -- what is left of the notification begins with its type, the second number sign, or the topic
  match head, hhead with
  | [_], _ =>
      rw [List.singleton_append, List.cons.injEq] at htext
      rw [← htext.2, List.cons_append, List.cons_prefix_cons] at hbytes
      exact absurd hbytes.1.symm (htype _)
  | [_, _], _ =>
      simp only [List.cons_append, List.nil_append, List.cons.injEq] at htext
      rw [← htext.2.2, List.cons_append, List.cons_prefix_cons] at hbytes
      cases bytes with
      | nil =>
          cases k with
          | zero => simp [zeros, addressedCounter] at haddressed
          | succ k =>
              rw [List.nil_append, zeros_succ] at haddressed
              exact addressedCounter_of_type (by decide) haddressed
      | cons b bytes =>
          rcases List.exists_cons_of_ne_nil hnonempty with ⟨first, more, hname⟩
          rw [hname, List.cons_append, List.cons_prefix_cons] at hbytes
          rw [hname] at hplain
          rw [hbytes.2.1] at haddressed
          exact addressedCounter_of_type (hplain first (by simp)).2 haddressed
  | _ :: _ :: _ :: more, _ =>
      simp only [List.cons_append, List.cons.injEq] at htext
      cases tail with
      | nil =>
          rw [List.nil_append, List.cons_prefix_cons] at hbytes
          exact absurd hbytes.1 hashtag_ne_nul
      | cons next tail =>
          rw [List.cons_append, List.cons_prefix_cons] at hbytes
          have hmem : next ∈ c.topic := by simp [htext.2.2.2]
          exact absurd hbytes.1.symm (hplain next hmem).1

/-! ## Sums over the counters -/

/-- The fifteen counters. -/
def allCounters : List Counter :=
  (List.finRange topicsNum).flatMap fun i =>
    [(i, .publish), (i, .subscribe), (i, .topicExists), (i, .subscriberNumber), (i, .unsubscribe)]

/-- The sum of the values of all counters. -/
def totalOf (value : Counter → Nat) : Nat :=
  (allCounters.map value).sum

theorem count_allCounters (c : Counter) : allCounters.count c = 1 := by
  rcases c with ⟨i, type⟩
  revert i
  cases type <;> decide

theorem totalOf_add (f g : Counter → Nat) :
    totalOf (fun c => f c + g c) = totalOf f + totalOf g :=
  List.sum_map_add

theorem totalOf_zero : totalOf (fun _ => 0) = 0 := by
  decide

/-- One counter is a part of the sum. -/
theorem le_totalOf (f : Counter → Nat) (c : Counter) : f c ≤ totalOf f := by
  have hmem : c ∈ allCounters := by
    rw [← List.count_pos_iff, count_allCounters]
    exact Nat.one_pos
  exact List.le_sum_of_mem (List.mem_map_of_mem hmem)

/-- A sum to which one counter contributes. -/
theorem totalOf_single (counter : Counter) (k : Nat) :
    totalOf (fun c => if some counter = some c then k else 0) = k := by
  have hsum : ∀ cs : List Counter,
      (cs.map fun c => if some counter = some c then k else 0).sum = cs.count counter * k := by
    intro cs
    induction cs with
    | nil => simp
    | cons c cs ih =>
        rw [List.map_cons, List.sum_cons, ih, List.count_cons]
        by_cases hc : counter = c
        · simp [hc, Nat.add_mul, Nat.add_comm]
        · simp [hc, Ne.symm hc]
  rw [totalOf, hsum, count_allCounters, Nat.one_mul]

/-- What a receive adds to a counter. -/
theorem countedTimes_replicate (counter : Option Counter) (times : Nat) (c : Counter) :
    countedTimes c ((List.replicate times counter).map .counted) =
      if counter = some c then times else 0 := by
  rw [(countedTimes_counted c _).1, List.count_replicate]
  simp

/-- What it adds to all of them. -/
theorem totalOf_replicate (counter : Option Counter) (times : Nat) :
    totalOf (fun c => countedTimes c ((List.replicate times counter).map .counted)) =
      if counter = none then 0 else times := by
  simp only [countedTimes_replicate]
  cases counter with
  | none => exact totalOf_zero
  | some counter => exact totalOf_single counter times

/-! ## What the steps do to the books -/

section Steps

variable {s s' : Reporting n} {l : ReportingStep n} {events : List CountEvent} {k : Nat}

/-- What has arrived stays the same when the broker goes on sending. -/
theorem arrivedBytes_broker {broker : Service n} {sent : Bytes}
    (hle : s.arrived ≤ s.sentBytes.length) :
    Reporting.arrivedBytes { s with broker := broker, sentBytes := s.sentBytes ++ sent } =
      s.arrivedBytes :=
  List.take_append_of_le_length hle

/-- A receive takes bytes off those that are in transit. -/
theorem arrivedBytes_receive (s : Reporting n) (k : Nat) (statsManager : LoopState) :
    Reporting.arrivedBytes { s with arrived := s.arrived + k, statsManager := statsManager } =
      s.arrivedBytes ++ s.inTransit.take k :=
  List.take_add

/-- Whole notifications have been sent, and all of them. -/
def SentWhole (s : Reporting n) : Prop :=
  s.sentBytes = terminated 0 s.broker.notifications

theorem cut_sentBytes (hwhole : SentWhole s) :
    Cut s.broker.notifications s.arrivedBytes s.inTransit := by
  apply cut_terminated
  rw [← hwhole]
  exact List.take_append_drop s.arrived s.sentBytes

/-- The notifications that begin in what has been sent. -/
theorem begun_add_begun (hwhole : SentWhole s)
    (hreports : ∀ m ∈ s.broker.notifications, IsReport m) :
    begun false s.arrivedBytes + begun (endsInside false s.arrivedBytes) s.inTransit =
      s.broker.notifications.length := by
  have hsent : s.arrivedBytes ++ s.inTransit = terminated 0 s.broker.notifications := by
    rw [← hwhole]
    exact List.take_append_drop s.arrived s.sentBytes
  rw [← begun_append, hsent, begun_terminated fun m hm => (hreports m hm).nulFree]

theorem countEvents_nothing {s : LoopState} {incoming : Incoming} (h : IsNothing incoming) :
    countEvents s (.handle incoming) = [] := by
  cases incoming with
  | selectError | willBlock | recvError => rfl
  | data | closed => contradiction

theorem countedTimes_update (s : LoopState) (time : Int) (operations : FileOperations)
    (updateTime : Int) (c : Counter) :
    countedTimes c (countEvents s (.update time operations updateTime)) = 0 := by
  rw [countEvents]
  split <;> rfl

/-- Wherever the stream is cut, a receive counts at most as many notifications as begin in it. -/
theorem counted_of_receive (hwhole : SentWhole s)
    (hreports : ∀ m ∈ s.broker.notifications, IsReport m)
    (hcleared : s.statsManager.receiveBuffer = zeros brokerReceiveBufferSize)
    (hmoves : ReportingMoves s (.receive k) s') :
    ∃ times counter, reportEvents s (.receive k) = (List.replicate times counter).map .counted ∧
      (counter ≠ none →
        times ≤ begun (endsInside false s.arrivedBytes) (s.inTransit.take k)) := by
  cases hmoves with
  | receive hpositive hsent hstep =>
  rcases countedBy_zeros (length_le_of_handle hstep) with ⟨times, counter, hcounted, hle, hfound⟩
  refine ⟨times, counter, by rw [reportEvents, countEvents, hcleared, hcounted], fun hcounter => ?_⟩
  rcases cut_sentBytes hwhole with ⟨before, after, -, htaken, -⟩ |
    ⟨before, head, tail, after, hhead, hstrings, htaken, hdropped⟩
  · rw [htaken, endsInside_terminated, Bool.false_and]
    exact hle
  · -- in the middle of a notification, nothing is counted
    by_cases htimes : times = 0
    · rw [htimes]
      exact Nat.zero_le _
    · rcases hfound htimes with ⟨hmark, haddressed⟩
      have hreport : IsReport (head ++ tail) := hreports _ (by simp [hstrings])
      have hbytes : s.inTransit.take k <+: tail ++ 0 :: terminated 0 after := by
        rw [hdropped]
        exact List.take_prefix k _
      exact absurd (counter_of_inside hhead hreport hbytes hmark haddressed) hcounter

theorem exists_commands {notifications : List Bytes} (hreports : ∀ m ∈ notifications, IsReport m) :
    ∃ cs : List Command, (∀ c ∈ cs, c.WellFormed ∧ c.topic ∈ brokerTopicNames) ∧
      cs.map notificationOf = notifications := by
  induction notifications with
  | nil => exact ⟨[], by simp, rfl⟩
  | cons m notifications ih =>
      rcases hreports m (by simp) with ⟨c, hc, htopic, rfl⟩
      rcases ih fun m hm => hreports m (by simp [hm]) with ⟨cs, hcs, rfl⟩
      exact ⟨c :: cs, List.forall_mem_cons.mpr ⟨⟨hc, htopic⟩, hcs⟩, rfl⟩

/-- A receive of whole notifications counts the first of them as often as there are
notifications in it. -/
theorem counted_of_whole_receive (hsentWhole : SentWhole s)
    (hreports : ∀ m ∈ s.broker.notifications, IsReport m)
    (hcleared : s.statsManager.receiveBuffer = zeros brokerReceiveBufferSize)
    (hboundary : endsInside false s.arrivedBytes = false)
    (hwhole : endsInside true (s.inTransit.take k) = false)
    (hmoves : ReportingMoves s (.receive k) s') :
    ∃ before first taken rest counter,
      s.broker.notifications = before ++ (first :: taken ++ rest) ∧
      s.arrivedBytes = terminated 0 before ∧
      s.inTransit.take k = terminated 0 (first :: taken) ∧ addressedBy first = some counter ∧
      reportEvents s (.receive k) =
        (List.replicate (taken.length + 1) (some counter)).map .counted := by
  cases hmoves with
  | receive hpositive hsent hstep =>
  -- both ends of the bytes are between two notifications
  have hfree : ∀ m ∈ s.broker.notifications, NulFree m := fun m hm => (hreports m hm).nulFree
  rcases (cut_sentBytes hsentWhole).exists_between hfree hboundary with
    ⟨before, after, hall, hbefore, hafter⟩
  have hcut : Cut after (s.inTransit.take k) (s.inTransit.drop k) :=
    cut_terminated (by rw [List.take_append_drop, hafter])
  rcases hcut.exists_between (fun m hm => hfree m (by simp [hall, hm])) hwhole with
    ⟨taken, rest, rfl, htaken, -⟩
  rw [← List.append_assoc] at hall
  have hreports' : ∀ m ∈ taken, IsReport m := fun m hm => hreports m (by simp [hall, hm])
  rcases exists_commands hreports' with ⟨cs, hcs, rfl⟩
  cases cs with
  | nil =>
      have hlength : (s.inTransit.take k).length = k := List.length_take_of_le hsent
      rw [htaken, List.map_nil, terminated_nil, List.length_nil] at hlength
      omega
  | cons c cs =>
      rcases hcs c (by simp) with ⟨hc, htopic⟩
      rcases addressedBy_notificationOf hc htopic with ⟨counter, haddressed, hcounter, -⟩
      rw [List.append_assoc] at hall
      refine ⟨before, notificationOf c, cs.map notificationOf, rest, counter, hall, hbefore, htaken,
        haddressed, ?_⟩
      -- the bytes of the receive are a batch, and fit the buffer
      have hbatch : s.inTransit.take k = batch (decoded c :: cs.map decoded) := by
        rw [htaken]
        simp [terminated, batch, framesOf, List.flatMap_map, notificationOf_eq]
      have hsize : (batch (decoded c :: cs.map decoded)).length ≤ receiveBufferSize := by
        rw [← hbatch]
        exact length_le_of_handle hstep
      have htopics : ∀ m ∈ decoded c :: cs.map decoded, NulFree m.topic := by
        intro m hm
        rw [← List.map_cons] at hm
        rcases List.mem_map.mp hm with ⟨d, hd, rfl⟩
        exact (hcs d hd).1.topic_nulFree
      rw [reportEvents, countEvents, hcleared, hbatch, countedBy_batch htopics hsize, hcounter]
      simp

/-- For every notification of which something has arrived, at most one count has been made. -/
structure Reported (s : Reporting n) (events : List CountEvent) : Prop where
  sent : SentWhole s
  arrived_le : s.arrived ≤ s.sentBytes.length
  cleared : s.statsManager.receiveBuffer = zeros brokerReceiveBufferSize
  total_le : totalOf (fun c => countedTimes c events) ≤ begun false s.arrivedBytes

/-- Whole notifications have arrived, and for each of them one count has been made. -/
structure ReportedWhole (s : Reporting n) (events : List CountEvent) : Prop where
  boundary : endsInside false s.arrivedBytes = false
  total : totalOf (fun c => countedTimes c events) = begun false s.arrivedBytes

/-- It has been made for the counter that the notification addresses. -/
def CountedApart (s : Reporting n) (events : List CountEvent) : Prop :=
  ∀ c, countedTimes c events =
    ((s.broker.notifications.take (begun false s.arrivedBytes)).map addressedBy).count (some c)

/-- A step of either program makes no count too many. -/
theorem Reported.step (hs : Reported s events)
    (hreports : ∀ m ∈ s.broker.notifications, IsReport m) (hallowed : Reports s l)
    (hmoves : ReportingMoves s l s') : Reported s' (events ++ reportEvents s l) := by
  have hle := hs.arrived_le
  have htotal := hs.total_le
  cases hmoves with
  | @broker l result broker sent hstep hsent =>
      rw [reportEvents, List.append_nil]
      refine ⟨?_, ?_, hs.cleared, ?_⟩
      · rw [sent_of_sendsWhole hallowed.2 hstep hsent]
        show s.sentBytes ++ _ = terminated 0 broker.notifications
        rw [hs.sent, notifications_of_step hstep, terminated_append]
      · rw [List.length_append]
        exact Nat.le_add_right_of_le hle
      · rw [arrivedBytes_broker hle]
        exact htotal
  | @receive k statsManager hpositive hsent hstep =>
      rcases counted_of_receive hs.sent hreports hs.cleared (.receive hpositive hsent hstep) with
        ⟨times, counter, hevents, htimes⟩
      refine ⟨hs.sent, ?_, mainLoop_cleared hs.cleared hstep, ?_⟩
      · rw [Reporting.inTransit, List.length_drop] at hsent
        show s.arrived + k ≤ s.sentBytes.length
        omega
      · rw [hevents, arrivedBytes_receive, begun_append]
        simp only [countedTimes_append]
        rw [totalOf_add, totalOf_replicate]
        split
        · omega
        · next hcounter =>
          have hcount := htimes hcounter
          omega
  | @receiveNothing incoming statsManager hnothing hstep =>
      rw [reportEvents, countEvents_nothing hnothing, List.append_nil]
      exact ⟨hs.sent, hle, mainLoop_cleared hs.cleared hstep, htotal⟩
  | @update time updateTime operations statsManager hstep =>
      refine ⟨hs.sent, hle, mainLoop_cleared hs.cleared hstep, ?_⟩
      simp only [reportEvents, countedTimes_append, countedTimes_update, Nat.add_zero]
      exact htotal

/-- If receives end where notifications end, it makes no count too few. -/
theorem ReportedWhole.step (hs : ReportedWhole s events) (hreported : Reported s events)
    (hreports : ∀ m ∈ s.broker.notifications, IsReport m) (hwhole : ReportsWhole s l)
    (hmoves : ReportingMoves s l s') : ReportedWhole s' (events ++ reportEvents s l) := by
  have htotal := hs.total
  cases hmoves with
  | @broker l result broker sent hstep hsent =>
      have hbytes : Reporting.arrivedBytes
          { s with broker := broker, sentBytes := s.sentBytes ++ sent } = s.arrivedBytes :=
        arrivedBytes_broker hreported.arrived_le
      rw [reportEvents, List.append_nil]
      exact ⟨by rw [hbytes, hs.boundary], by rw [hbytes, htotal]⟩
  | @receive k statsManager hpositive hsent hstep =>
      rcases counted_of_whole_receive hreported.sent hreports hreported.cleared hs.boundary
        (hwhole.2 k rfl) (.receive hpositive hsent hstep) with
        ⟨before, first, taken, rest, counter, hall, hbefore, htaken, -, hevents⟩
      have hfree : ∀ m ∈ first :: taken, NulFree m := fun m hm =>
        (hreports m (hall ▸ List.mem_append_right before (List.mem_append_left rest hm))).nulFree
      constructor
      case boundary =>
        rw [arrivedBytes_receive, endsInside_append, hs.boundary, htaken, endsInside_terminated]
        simp
      case total =>
        rw [hevents, arrivedBytes_receive, begun_append, hs.boundary, htaken,
          begun_terminated hfree, ← htotal]
        simp only [countedTimes_append]
        rw [totalOf_add, totalOf_replicate]
        simp
  | @receiveNothing incoming statsManager hnothing hstep =>
      rw [reportEvents, countEvents_nothing hnothing, List.append_nil]
      exact ⟨hs.boundary, htotal⟩
  | @update time updateTime operations statsManager hstep =>
      refine ⟨hs.boundary, ?_⟩
      simp only [reportEvents, countedTimes_append, countedTimes_update, Nat.add_zero]
      exact htotal

/-- If the notifications of a receive are all the same, each is counted for the counter that
it addresses. -/
theorem CountedApart.step (hs : CountedApart s events) (hreported : Reported s events)
    (hboundary : endsInside false s.arrivedBytes = false)
    (hreports : ∀ m ∈ s.broker.notifications, IsReport m) (hapart : ReportsApart s l)
    (hmoves : ReportingMoves s l s') : CountedApart s' (events ++ reportEvents s l) := by
  intro c
  cases hmoves with
  | @broker l result broker sent hstep hsent =>
      have hle : begun false s.arrivedBytes ≤ s.broker.notifications.length :=
        Nat.le.intro (begun_add_begun hreported.sent hreports)
      rw [reportEvents, List.append_nil, hs c, arrivedBytes_broker hreported.arrived_le]
      show _ = ((broker.notifications.take (begun false s.arrivedBytes)).map addressedBy).count
        (some c)
      rw [notifications_of_step hstep, List.take_append_of_le_length hle]
  | @receive k statsManager hpositive hsent hstep =>
      have hwhole := reportsWhole_of_reportsApart hapart
      rcases counted_of_whole_receive hreported.sent hreports hreported.cleared hboundary
        (hwhole.2 k rfl) (.receive hpositive hsent hstep) with
        ⟨before, first, taken, rest, counter, hall, hbefore, htaken, haddressed, hevents⟩
      have hfree : ∀ m ∈ s.broker.notifications, NulFree m := fun m hm => (hreports m hm).nulFree
      have hfreeBefore : ∀ m ∈ before, NulFree m := fun m hm =>
        hfree m (hall ▸ List.mem_append_left _ hm)
      have hfreeTaken : ∀ m ∈ first :: taken, NulFree m := fun m hm =>
        hfree m (hall ▸ List.mem_append_right before (List.mem_append_left rest hm))
      -- all that has been received is the first notification again and again
      rcases hapart.2 k rfl with ⟨notification, i, hnotification, hsame⟩
      have hreplicate : first :: taken = List.replicate (i + 1) notification := by
        refine terminated_injective hfreeTaken (fun m hm => ?_) (htaken.symm.trans hsame)
        rw [List.eq_of_mem_replicate hm]
        exact hnotification
      rw [List.replicate_succ, List.cons.injEq] at hreplicate
      rcases hreplicate with ⟨rfl, rfl⟩
      have hbegun : begun false s.arrivedBytes = before.length := by
        rw [hbefore, begun_terminated hfreeBefore]
      have hbegun' : begun false (s.arrivedBytes ++ s.inTransit.take k) =
          (before ++ first :: List.replicate i first).length := by
        rw [begun_append, hboundary, hbegun, htaken, begun_terminated hfreeTaken,
          List.length_append]
      have hcounts := hs c
      rw [hbegun, hall, List.take_left] at hcounts
      show _ = ((s.broker.notifications.take _).map addressedBy).count (some c)
      rw [arrivedBytes_receive, hbegun', hall, ← List.append_assoc, List.take_left, hevents,
        countedTimes_append, countedTimes_replicate, hcounts, List.map_append, List.count_append,
        List.map_cons, List.map_replicate, haddressed, ← List.replicate_succ, List.count_replicate,
        List.length_replicate]
      simp
  | @receiveNothing incoming statsManager hnothing hstep =>
      rw [reportEvents, countEvents_nothing hnothing, List.append_nil]
      exact hs c
  | @update time updateTime operations statsManager hstep =>
      rw [reportEvents, countedTimes_append, countedTimes_update, Nat.add_zero]
      exact hs c

end Steps

/-! ## Runs -/

/-- The requests that a counter is for are those whose notifications address it. -/
theorem count_addressedBy {requests : List ClientRequest}
    (hknown : ∀ request ∈ requests, request.2.WellFormed ∧ request.2.topic ∈ brokerTopicNames)
    (c : Counter) :
    ((requests.map fun request => notificationOf request.2).map addressedBy).count (some c) =
      requestsFor c requests := by
  rw [List.map_map, List.count_eq_countP, List.countP_map, requestsFor]
  apply List.countP_congr
  intro request hrequest
  rcases hknown request hrequest with ⟨hformed, htopic⟩
  rcases addressedBy_notificationOf hformed htopic with ⟨counter, haddressed, -, hcounter⟩
  simp only [Function.comp_apply, haddressed, beq_iff_eq, Option.some.injEq, decide_eq_true_eq]
  rw [hcounter, eq_comm]

/-- Of the commands that cannot fail, all have succeeded that have been executed. -/
theorem Notified.requestsFor_eq {notifications : List Bytes} {done succeeded : List ClientRequest}
    (hs : Notified brokerTopicNames notifications done succeeded) {c : Counter}
    (hsubscribe : c.2 ≠ .subscribe) (hunsubscribe : c.2 ≠ .unsubscribe) :
    requestsFor c succeeded = requestsFor c done := by
  have hcertain : ∀ requests : List ClientRequest,
      requestsFor c requests = requestsFor c (requests.filter (isCertain brokerTopicNames)) := by
    intro requests
    rw [requestsFor, requestsFor, List.countP_filter]
    apply List.countP_congr
    rintro ⟨socket, command⟩ -
    have htopics : ∀ i : Fin topicsNum, countedTopics.get i ∈ brokerTopicNames := by decide
    simp only [isCertain_iff, Bool.and_eq_true, decide_eq_true_eq]
    constructor
    · rintro ⟨htopic, htype⟩
      refine ⟨⟨htopic, htype⟩, ?_, htopic ▸ htopics c.1⟩
      cases command with
      | publish | topicExists | subscriberNumber => rfl
      | subscribe => exact absurd htype hsubscribe
      | unsubscribe => exact absurd htype hunsubscribe
    · exact fun h => h.1
  rw [hcertain succeeded, hcertain done, hs.complete]

section Runs

variable {garbage : Nat → OutgoingBufferElement brokerTopicNames.length} {lastUpdateTime : Int}
  {file : Bytes} {initial : TopicStatsArray} {s : Reporting brokerTopicNames.length}
  {events : List CountEvent} {requests : List ClientRequest}
  {allowed : Reporting brokerTopicNames.length → ReportingStep brokerTopicNames.length → Prop}

/-- On the way from the beginning to a state, no count too many has been made. -/
theorem reported_of_logs (hallowed : ∀ s l, allowed s l → Reports s l)
    (hlogs : (reporting brokerTopicNames).Logs allowed reportEvents
      (.start brokerTopicNames garbage lastUpdateTime file) events s) :
    (service brokerTopicNames).ReachableVia ReceivesCommands s.broker ∧ Reported s events := by
  refine hlogs.invariant (fun s events =>
    (service brokerTopicNames).ReachableVia ReceivesCommands s.broker ∧ Reported s events) ?_ ?_
  · exact ⟨System.ReachableVia.start ⟨garbage, rfl⟩, rfl, Nat.zero_le _, rfl,
      Nat.le_of_eq totalOf_zero⟩
  · rintro s l t events ⟨hreach, hs⟩ hallow hstep
    rcases notified_of_service hreach with ⟨done, todo, succeeded, -, hnotified⟩
    have hmoves := reportingStep_moves hstep
    exact ⟨broker_step hreach (hallowed s l hallow) hmoves,
      hs.step hnotified.isReport (hallowed s l hallow) hmoves⟩

/-- If receives end where notifications end, no count too few. -/
theorem reportedWhole_of_logs (hallowed : ∀ s l, allowed s l → ReportsWhole s l)
    (hlogs : (reporting brokerTopicNames).Logs allowed reportEvents
      (.start brokerTopicNames garbage lastUpdateTime file) events s) :
    ((service brokerTopicNames).ReachableVia ReceivesCommands s.broker ∧ Reported s events) ∧
      ReportedWhole s events := by
  refine hlogs.invariant (fun s events =>
    ((service brokerTopicNames).ReachableVia ReceivesCommands s.broker ∧ Reported s events) ∧
      ReportedWhole s events) ?_ ?_
  · exact ⟨reported_of_logs (fun _ _ h => h) .start, rfl, totalOf_zero⟩
  · rintro s l t events ⟨⟨hreach, hs⟩, hwhole⟩ hallow hstep
    have hallow' := hallowed s l hallow
    rcases notified_of_service hreach with ⟨done, todo, succeeded, -, hnotified⟩
    have hmoves := reportingStep_moves hstep
    exact ⟨⟨broker_step hreach hallow'.1 hmoves, hs.step hnotified.isReport hallow'.1 hmoves⟩,
      hwhole.step hs hnotified.isReport hallow' hmoves⟩

/-- If the notifications of a receive are all the same, they have been made for the right
counters. -/
theorem countedApart_of_logs
    (hlogs : (reporting brokerTopicNames).Logs ReportsApart reportEvents
      (.start brokerTopicNames garbage lastUpdateTime file) events s) : CountedApart s events := by
  have hall : (((service brokerTopicNames).ReachableVia ReceivesCommands s.broker ∧
      Reported s events) ∧ ReportedWhole s events) ∧ CountedApart s events := by
    refine hlogs.invariant (fun s events =>
      (((service brokerTopicNames).ReachableVia ReceivesCommands s.broker ∧ Reported s events) ∧
        ReportedWhole s events) ∧ CountedApart s events) ?_ ?_
    · refine ⟨reportedWhole_of_logs (fun _ _ => reportsWhole_of_reportsApart) .start, fun c => rfl⟩
    · rintro s l t events ⟨⟨⟨hreach, hs⟩, hwhole⟩, hcounted⟩ hallow hstep
      have hallow' := reportsWhole_of_reportsApart hallow
      rcases notified_of_service hreach with ⟨done, todo, succeeded, -, hnotified⟩
      have hmoves := reportingStep_moves hstep
      exact ⟨⟨⟨broker_step hreach hallow.1 hmoves, hs.step hnotified.isReport hallow.1 hmoves⟩,
        hwhole.step hs hnotified.isReport hallow' hmoves⟩,
        hcounted.step hs hwhole.boundary hnotified.isReport hallow hmoves⟩
  exact hall.2

/-- The books of the stats manager are balanced. -/
theorem accounted_of_reporting (hallowed : ∀ s l, allowed s l → Reports s l)
    (hinitial : nextStart file = some initial)
    (hlogs : (reporting brokerTopicNames).Logs allowed reportEvents
      (.start brokerTopicNames garbage lastUpdateTime file) events s)
    (hfits : ∀ c, (counterValue initial c).toNat + s.broker.notifications.length < 2 ^ 63) :
    Accounted initial events s.statsManager := by
  refine accounted_of_logs hinitial (statsManager_logs hallowed hlogs) fun c => ?_
  rcases reported_of_logs hallowed hlogs with ⟨hreach, hs⟩
  rcases notified_of_service hreach with ⟨done, todo, succeeded, -, hnotified⟩
  have htimes : countedTimes c events ≤ totalOf fun c => countedTimes c events :=
    le_totalOf (fun c => countedTimes c events) c
  have htotal := hs.total_le
  have hbegun := begun_add_begun hs.sent hnotified.isReport
  have hbound := hfits c
  omega

end Runs

/-! ## What becomes of the requests -/

/-- The broker leaves the stats manager alone. -/
theorem statsManager_of_run {topicNames : List Bytes} {s t : Reporting topicNames.length}
    {ls : List (ServiceStep topicNames.length × SendResult)}
    (hrun : (reporting topicNames).runVia SendsWhole s (ls.map fun l => .broker l.1 l.2) =
      some t) : t.statsManager = s.statsManager := by
  induction ls generalizing s with
  | nil =>
      rw [List.map_nil, System.runVia, Option.some.injEq] at hrun
      rw [hrun]
  | cons l ls ih =>
      rw [List.map_cons, System.runVia, Option.ite_none_right_eq_some,
        Option.bind_eq_some_iff] at hrun
      rcases hrun with ⟨-, u, hstep, hrest⟩
      have hmoves : ReportingMoves s (.broker l.1 l.2) u := reportingStep_moves hstep
      rw [ih hrest]
      cases hmoves
      rfl

/-- A client connects and publishes to news, and the broker executes the command. -/
def connectAndPublish : List (ServiceStep brokerTopicNames.length × SendResult) :=
  [(.accept (.socket 1 7 true), .socketError),
    (.receive (.data (stream [.publish news updates])), .socketError), (.execute 0, .accepted 8)]

/-- Clients send whole commands in it. -/
theorem reportsApart_connectAndPublish (l : ReportingStep brokerTopicNames.length)
    (hl : l ∈ connectAndPublish.map fun l => .broker l.1 l.2)
    (s : Reporting brokerTopicNames.length) (hwhole : SendsWhole s l) : ReportsApart s l := by
  simp only [connectAndPublish, List.map_cons, List.map_nil, List.mem_cons, List.not_mem_nil,
    or_false] at hl
  rcases hl with rfl | rfl | rfl
  · exact ⟨⟨trivial, hwhole⟩, fun k hk => by contradiction⟩
  · exact ⟨⟨⟨[.publish news updates], by decide, rfl, by decide⟩, hwhole⟩,
      fun k hk => by contradiction⟩
  · exact ⟨⟨trivial, hwhole⟩, fun k hk => by contradiction⟩

/-- The stats manager receives the notification. -/
theorem publishReported :
    ∃ s events, (reporting brokerTopicNames).Logs ReportsApart reportEvents
        (.start brokerTopicNames (fun _ => ⟨none, .connectionSocket 0⟩) 0 []) events s ∧
      BringRequests s.broker.received [(7, .publish news updates)] ∧
      s.broker.notifications = [notificationOf (.publish news updates)] ∧ s.inTransit = [] := by
  have hrun : ((reporting brokerTopicNames).runVia SendsWhole
      (.start brokerTopicNames (fun _ => ⟨none, .connectionSocket 0⟩) 0 [])
      (connectAndPublish.map fun l => .broker l.1 l.2)).map
      (fun s => (s.broker.received, s.broker.notifications, s.sentBytes, s.arrived)) =
      some ([(7, stream [.publish news updates])], [notificationOf (.publish news updates)],
        batch [⟨.publish, news⟩], 0) := by
    decide +kernel
  rcases Option.map_eq_some_iff.mp hrun with ⟨s, hs, heq⟩
  simp only [Prod.mk.injEq] at heq
  rcases heq with ⟨hreceived, hnotifications, hsent, harrived⟩
  have hlogs : (reporting brokerTopicNames).Logs ReportsApart reportEvents
      (.start brokerTopicNames (fun _ => ⟨none, .connectionSocket 0⟩) 0 []) _ s :=
    System.Logs.of_runVia reportsApart_connectAndPublish hs
  have hstatsManager : s.statsManager = LoopState.start 0 [] := statsManager_of_run hs
  -- the eight bytes of the notification are a batch of their own
  have htransit : s.inTransit = batch [⟨.publish, news⟩] := by
    rw [Reporting.inTransit, hsent, harrived, List.drop_zero]
  have htaken : s.inTransit.take 8 = batch [⟨.publish, news⟩] := by
    rw [htransit]
    rfl
  have hmove : (reporting brokerTopicNames).step s (.receive 8) = some { s with
      arrived := s.arrived + 8
      statsManager := { newsCounted with lastUpdateTime := 0, file := [] } } := by
    show reportingStep s (.receive 8) = _
    rw [reportingStep, htaken, if_pos (by rw [htransit]; decide), hstatsManager,
      (countsNews 0 []).1]
    rfl
  have happart : ReportsApart s (.receive 8) := by
    refine ⟨trivial, fun k hk => ⟨notificationOf (.publish news updates), 0, by decide, ?_⟩⟩
    cases hk
    rw [htaken]
    rfl
  refine ⟨_, _, hlogs.step happart hmove, ?_, hnotifications, ?_⟩
  · exact ⟨[(7, [.publish news updates])], hreceived, by decide, rfl⟩
  · show s.sentBytes.drop (s.arrived + 8) = []
    rw [hsent, harrived]
    rfl

/-- All bounds are far away. -/
theorem fits_of_publish {s : Reporting brokerTopicNames.length}
    (hnotifications : s.broker.notifications = [notificationOf (.publish news updates)]) :
    ∀ c, (counterValue resetStats c).toNat + s.broker.notifications.length < 2 ^ 63 := by
  intro c
  rw [hnotifications, counterValue_resetStats]
  decide

theorem length_of_publish {s : Reporting brokerTopicNames.length}
    {done succeeded : List ClientRequest}
    (hnotified : Notified brokerTopicNames s.broker.notifications done succeeded)
    (hnotifications : s.broker.notifications = [notificationOf (.publish news updates)]) :
    succeeded.length = 1 := by
  have hlength : s.broker.notifications.length = succeeded.length := by
    rw [hnotified.sent, List.length_map]
  rw [← hlength, hnotifications, List.length_singleton]

section Requests

variable {garbage : Nat → OutgoingBufferElement brokerTopicNames.length} {lastUpdateTime : Int}
  {file : Bytes} {initial : TopicStatsArray} {s : Reporting brokerTopicNames.length}
  {events : List CountEvent} {requests : List ClientRequest}

/-- Wherever the stream of notifications is cut: in sum over all counters, what the next start
will show, what is in the memory of the stats manager and what updates have lost is no more
than what the file has held at first and one for every command that has succeeded. -/
theorem totals_not_exceeded (hinitial : nextStart file = some initial)
    (hlogs : (reporting brokerTopicNames).Logs Reports reportEvents
      (.start brokerTopicNames garbage lastUpdateTime file) events s)
    (hfits : ∀ c, (counterValue initial c).toNat + s.broker.notifications.length < 2 ^ 63)
    (hrequests : BringRequests s.broker.received requests) :
    ∃ done todo succeeded stored, requests = done ++ todo ∧
      Notified brokerTopicNames s.broker.notifications done succeeded ∧
      nextStart s.statsManager.file = some stored ∧
      totalOf (fun c => (counterValue stored c).toNat +
          (counterValue s.statsManager.topicStatsArray c).toNat + discardedCounts c events) ≤
        totalOf (fun c => (counterValue initial c).toNat) + succeeded.length := by
  rcases reported_of_logs (fun _ _ h => h) hlogs with ⟨hreach, hs⟩
  rcases notified_of_service hreach with ⟨done, todo, succeeded, hinv, hnotified⟩
  rcases accounted_of_reporting (fun _ _ h => h) hinitial hlogs hfits with
    ⟨stored, hstored, hbalanced⟩
  refine ⟨done, todo, succeeded, stored, hrequests.unique hinv.received, hnotified, hstored, ?_⟩
  have hlength : s.broker.notifications.length = succeeded.length := by
    rw [hnotified.sent, List.length_map]
  have htotal := hs.total_le
  have hbegun := begun_add_begun hs.sent hnotified.isReport
  simp only [hbalanced]
  rw [totalOf_add]
  omega

theorem totals_not_exceeded_publish :
    ∃ (s : Reporting brokerTopicNames.length) (events : List CountEvent) (stored : TopicStatsArray),
      s.broker.notifications = [notificationOf (.publish news updates)] ∧
      nextStart s.statsManager.file = some stored ∧
      totalOf (fun c => (counterValue stored c).toNat +
        (counterValue s.statsManager.topicStatsArray c).toNat + discardedCounts c events) ≤ 1 := by
  rcases publishReported with ⟨s, events, hlogs, hrequests, hnotifications, -⟩
  rcases totals_not_exceeded rfl (hlogs.mono fun _ _ h => h.1) (fits_of_publish hnotifications)
    hrequests with ⟨done, todo, succeeded, stored, -, hnotified, hstored, hle⟩
  refine ⟨s, events, stored, hnotifications, hstored, Nat.le_trans hle ?_⟩
  rw [length_of_publish hnotified hnotifications]
  decide

/-- If every receive ends where a notification ends, this sum and the number of the notifications
on the way are exactly that. -/
theorem totals_reported (hinitial : nextStart file = some initial)
    (hlogs : (reporting brokerTopicNames).Logs ReportsWhole reportEvents
      (.start brokerTopicNames garbage lastUpdateTime file) events s)
    (hfits : ∀ c, (counterValue initial c).toNat + s.broker.notifications.length < 2 ^ 63)
    (hrequests : BringRequests s.broker.received requests) :
    ∃ done todo succeeded stored, requests = done ++ todo ∧
      Notified brokerTopicNames s.broker.notifications done succeeded ∧
      nextStart s.statsManager.file = some stored ∧
      totalOf (fun c => (counterValue stored c).toNat +
          (counterValue s.statsManager.topicStatsArray c).toNat + discardedCounts c events) +
          begun false s.inTransit =
        totalOf (fun c => (counterValue initial c).toNat) + succeeded.length := by
  rcases reportedWhole_of_logs (fun _ _ h => h) hlogs with ⟨⟨hreach, hreported⟩, hs⟩
  rcases notified_of_service hreach with ⟨done, todo, succeeded, hinv, hnotified⟩
  rcases accounted_of_reporting (fun _ _ h => h.1) hinitial hlogs hfits with
    ⟨stored, hstored, hbalanced⟩
  refine ⟨done, todo, succeeded, stored, hrequests.unique hinv.received, hnotified, hstored, ?_⟩
  have hlength : s.broker.notifications.length = succeeded.length := by
    rw [hnotified.sent, List.length_map]
  have hbegun := begun_add_begun hreported.sent hnotified.isReport
  rw [hs.boundary] at hbegun
  simp only [hbalanced]
  rw [totalOf_add, hs.total]
  omega

theorem totals_reported_publish :
    ∃ (s : Reporting brokerTopicNames.length) (events : List CountEvent) (stored : TopicStatsArray),
      s.broker.notifications = [notificationOf (.publish news updates)] ∧ s.inTransit = [] ∧
      nextStart s.statsManager.file = some stored ∧
      totalOf (fun c => (counterValue stored c).toNat +
        (counterValue s.statsManager.topicStatsArray c).toNat + discardedCounts c events) = 1 := by
  rcases publishReported with ⟨s, events, hlogs, hrequests, hnotifications, htransit⟩
  rcases totals_reported rfl (hlogs.mono fun _ _ => reportsWhole_of_reportsApart)
    (fits_of_publish hnotifications) hrequests with
    ⟨done, todo, succeeded, stored, -, hnotified, hstored, htotal⟩
  rw [htransit, begun, Nat.add_zero, length_of_publish hnotified hnotifications] at htotal
  exact ⟨s, events, stored, hnotifications, htransit, hstored, htotal⟩

/-- If the notifications of a receive are all the same, the same holds of every single counter.
Of the commands that cannot fail on a topic of the broker, all are counted that have been
executed. -/
theorem counters_reported (hinitial : nextStart file = some initial)
    (hlogs : (reporting brokerTopicNames).Logs ReportsApart reportEvents
      (.start brokerTopicNames garbage lastUpdateTime file) events s)
    (hfits : ∀ c, (counterValue initial c).toNat + s.broker.notifications.length < 2 ^ 63)
    (hrequests : BringRequests s.broker.received requests) :
    ∃ done todo succeeded stored, requests = done ++ todo ∧
      Notified brokerTopicNames s.broker.notifications done succeeded ∧
      nextStart s.statsManager.file = some stored ∧
      (∀ c, (counterValue stored c).toNat +
          (counterValue s.statsManager.topicStatsArray c).toNat + discardedCounts c events +
          requestsFor c (succeeded.drop (begun false s.arrivedBytes)) =
        (counterValue initial c).toNat + requestsFor c succeeded) ∧
      ∀ c : Counter, c.2 ≠ .subscribe → c.2 ≠ .unsubscribe →
        requestsFor c succeeded = requestsFor c done := by
  have hreports : ∀ (s : Reporting brokerTopicNames.length)
      (l : ReportingStep brokerTopicNames.length), ReportsApart s l → Reports s l :=
    fun _ _ h => h.1
  rcases reported_of_logs hreports hlogs with ⟨hreach, hs⟩
  rcases notified_of_service hreach with ⟨done, todo, succeeded, hinv, hnotified⟩
  rcases accounted_of_reporting hreports hinitial hlogs hfits with ⟨stored, hstored, hbalanced⟩
  refine ⟨done, todo, succeeded, stored, hrequests.unique hinv.received, hnotified, hstored,
    fun c => ?_, fun c => hnotified.requestsFor_eq⟩
  have hcounted := countedApart_of_logs hlogs c
  have hknown : ∀ request ∈ succeeded.take (begun false s.arrivedBytes),
      request.2.WellFormed ∧ request.2.topic ∈ brokerTopicNames := fun request hrequest =>
    hnotified.known request (List.mem_of_mem_take hrequest)
  rw [hnotified.sent, ← List.map_take, count_addressedBy hknown] at hcounted
  have hsplit : requestsFor c succeeded =
      requestsFor c (succeeded.take (begun false s.arrivedBytes)) +
        requestsFor c (succeeded.drop (begun false s.arrivedBytes)) := by
    rw [requestsFor, requestsFor, requestsFor, ← List.countP_append, List.take_append_drop]
  rw [hbalanced c, hcounted, hsplit, Nat.add_assoc]

theorem counters_reported_publish :
    ∃ (s : Reporting brokerTopicNames.length) (events : List CountEvent) (stored : TopicStatsArray),
      s.broker.notifications = [notificationOf (.publish news updates)] ∧ s.inTransit = [] ∧
      nextStart s.statsManager.file = some stored ∧
      ∀ c, (counterValue stored c).toNat +
        (counterValue s.statsManager.topicStatsArray c).toNat + discardedCounts c events =
          if c = (0, .publish) then 1 else 0 := by
  rcases publishReported with ⟨s, events, hlogs, hrequests, hnotifications, htransit⟩
  rcases counters_reported rfl hlogs (fits_of_publish hnotifications) hrequests with
    ⟨done, todo, succeeded, stored, hsplit, hnotified, hstored, hcounters, -⟩
  have hrequests' : ∀ c : Counter, requestsFor c [(7, .publish news updates)] =
      if c = (0, .publish) then 1 else 0 := by
    rintro ⟨i, type⟩
    revert i
    cases type <;> decide
  rcases reported_of_logs (fun _ _ h => h.1) hlogs with ⟨-, hs⟩
  refine ⟨s, events, stored, hnotifications, htransit, hstored, fun c => ?_⟩
  have hlength := length_of_publish hnotified hnotifications
  have hbegun := begun_add_begun hs.sent hnotified.isReport
  rw [htransit, begun, Nat.add_zero, hnotifications, List.length_singleton] at hbegun
  have hdrop : succeeded.drop (begun false s.arrivedBytes) = [] := by
    rw [hbegun]
    exact List.drop_of_length_le (Nat.le_of_eq hlength)
  have hsucceeded : succeeded = [(7, .publish news updates)] := by
    have hsublist : succeeded.Sublist [(7, .publish news updates)] := by
      rw [hsplit]
      exact hnotified.executed.trans (List.sublist_append_left done todo)
    exact hsublist.eq_of_length hlength
  have hcounter := hcounters c
  rw [hdrop, hsucceeded, counterValue_resetStats] at hcounter
  rw [show requestsFor c [] = 0 from rfl, Nat.add_zero, UInt64.toNat_zero, Nat.zero_add] at hcounter
  rw [hcounter, hrequests' c]

end Requests

end Statistics
end PubSub
