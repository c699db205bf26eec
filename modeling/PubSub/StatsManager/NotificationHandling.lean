import Mathlib.Data.List.Count
import PubSub.Common

/-!
# Handling notifications

The stats manager receives the notifications of the broker, each a frame with the
type and the topic of a command that has succeeded, and counts them by topic and
by type.

Main results:

- Theorem {lit}`handleNotification_eq`: a notification increments the counter that it
  addresses, and no other.
- Theorem {lit}`handleNotifications_eq`: {lit}`handle_notifications` handles the first
  notification of a batch as often as the batch has notifications.
- Theorem {lit}`handleNotifications_eq_handleEach_iff`: this counts every notification
  exactly when all of them address one counter.
-/

namespace PubSub
namespace StatsManager

open Foundations

/-- {lit}`RECEIVE_BUFFER_SIZE` of the stats manager. -/
def receiveBufferSize : Nat :=
  2000

/-- {lit}`TopicStats`. -/
structure TopicStats where
  publishCommandsNum : UInt64
  subscribeCommandsNum : UInt64
  unsubscribeCommandsNum : UInt64
  topicExistsCommandsNum : UInt64
  subscriberNumberCommandsNum : UInt64
deriving DecidableEq, Repr

/-- {lit}`topic_stats_array` of {lit}`main`: the stats of news, updates and warnings. -/
abbrev TopicStatsArray :=
  Vector TopicStats topicsNum

/-! ## One notification -/

/-- {lit}`get_topic_stats`: the index of the stats that are pointed to. -/
def getTopicStats (topicName : Bytes) : Option (Fin topicsNum) :=
  if topicName = news then some 0
  else if topicName = updates then some 1
  else if topicName = warnings then some 2
  else none

/-- The comparisons at the end of {lit}`handle_notification`.  The counters wrap around. -/
def countNotification (notificationType : Byte) (stats : TopicStats) : TopicStats :=
  if notificationType = byteOf '2' then
    { stats with publishCommandsNum := stats.publishCommandsNum + 1 }
  else if notificationType = byteOf '3' then
    { stats with subscribeCommandsNum := stats.subscribeCommandsNum + 1 }
  else if notificationType = byteOf '4' then
    { stats with topicExistsCommandsNum := stats.topicExistsCommandsNum + 1 }
  else if notificationType = byteOf '5' then
    { stats with subscriberNumberCommandsNum := stats.subscriberNumberCommandsNum + 1 }
  else if notificationType = byteOf '6' then
    { stats with unsubscribeCommandsNum := stats.unsubscribeCommandsNum + 1 }
  else stats

/-- {lit}`handle_notification`, given the memory from the byte behind the number sign on. -/
def handleNotification (notification : Bytes) (topicStatsArray : TopicStatsArray) :
    Option TopicStatsArray := do
  let notificationType ← notification[0]?
  let topicName ← copyFrom 2 notification
  match getTopicStats topicName with
  | none => return topicStatsArray
  | some i => return topicStatsArray.set i (countNotification notificationType topicStatsArray[i])

/-! ## A batch of notifications -/

/-- How a call that may end the program comes back. -/
inductive Outcome (α : Type) where
  | exited
  | returned (result : α)
deriving DecidableEq, Repr

/-- {lit}`receive_notifications`: what is returned, and the buffer. -/
def receiveNotifications (incoming : Incoming) (receiveBuffer : Bytes) :
    Option (Outcome (Bool × Bytes)) :=
  match incoming with
  | .selectError | .willBlock | .recvError => some (.returned (false, receiveBuffer))
  | .data bytes =>
      (recvInto receiveBuffer receiveBufferSize bytes).map fun receiveBuffer =>
        .returned (true, receiveBuffer)
  | .closed => some .exited

/-- The result of {lit}`handle_notifications`, the buffer and the counters. -/
structure Handled where
  notificationsReceived : Bool
  receiveBuffer : Bytes
  topicStatsArray : TopicStatsArray
deriving DecidableEq, Repr

/-- {lit}`handle_notifications`.  In every round of the loop, the notification that is
handled is the one behind the first byte of the buffer. -/
def handleNotifications (incoming : Incoming) (receiveBuffer : Bytes)
    (topicStatsArray : TopicStatsArray) : Option (Outcome Handled) := do
  match ← receiveNotifications incoming receiveBuffer with
  | .exited => return .exited
  | .returned (false, receiveBuffer) => return .returned ⟨false, receiveBuffer, topicStatsArray⟩
  | .returned (true, receiveBuffer) =>
      let (topicStatsArray, i) ←
        frameLoop hashtag (fun _ _ => handleNotification (receiveBuffer.drop 1)) false 0
          receiveBuffer topicStatsArray
      let receiveBuffer ← zeroFill receiveBuffer receiveBufferSize
      return .returned ⟨i ≠ 0, receiveBuffer, topicStatsArray⟩

/-! ## What a notification is -/

/-- The commands that are counted. -/
inductive NotificationType where
  | publish
  | subscribe
  | topicExists
  | subscriberNumber
  | unsubscribe
deriving DecidableEq, Repr

/-- The type character. -/
def NotificationType.char : NotificationType → Byte
  | publish => byteOf '2'
  | subscribe => byteOf '3'
  | topicExists => byteOf '4'
  | subscriberNumber => byteOf '5'
  | unsubscribe => byteOf '6'

/-- The stats of a topic have one counter for every type. -/
def TopicStats.get (stats : TopicStats) : NotificationType → UInt64
  | .publish => stats.publishCommandsNum
  | .subscribe => stats.subscribeCommandsNum
  | .topicExists => stats.topicExistsCommandsNum
  | .subscriberNumber => stats.subscriberNumberCommandsNum
  | .unsubscribe => stats.unsubscribeCommandsNum

/-- One of the fifteen counters. -/
abbrev Counter :=
  Fin topicsNum × NotificationType

/-- The value of a counter. -/
def counterValue (topicStatsArray : TopicStatsArray) (c : Counter) : UInt64 :=
  topicStatsArray[c.1].get c.2

/-- A notification of the broker. -/
structure Notification where
  type : NotificationType
  topic : Bytes
deriving DecidableEq, Repr

namespace Notification

/-- The notification without its first number sign and its terminator. -/
def payload (n : Notification) : Bytes :=
  n.type.char :: hashtag :: n.topic

/-- The counter that a notification addresses, if it names a topic that is counted. -/
def counter (n : Notification) : Option Counter :=
  (getTopicStats n.topic).map fun i => (i, n.type)

end Notification

/-- The bytes of a batch. -/
def batch (ns : List Notification) : Bytes :=
  framesOf hashtag (ns.map Notification.payload)

/-- {lit}`handle_notification` applied once to each notification, in order. -/
def handleEach (ns : List Notification) (topicStatsArray : TopicStatsArray) :
    Option TopicStatsArray :=
  ns.foldlM (fun topicStatsArray n => handleNotification (n.payload ++ [0]) topicStatsArray)
    topicStatsArray

/-! ## The counters -/

/-- Increment the addressed counter. -/
def increment (topicStatsArray : TopicStatsArray) : Option Counter → TopicStatsArray
  | none => topicStatsArray
  | some (i, type) => topicStatsArray.set i (countNotification type.char topicStatsArray[i])

/-- Two arrays with the same counters are equal. -/
theorem eq_of_counterValue {a b : TopicStatsArray}
    (h : ∀ c, counterValue a c = counterValue b c) : a = b := by
  apply Vector.ext
  intro i hi
  have hpublish := h (⟨i, hi⟩, .publish)
  have hsubscribe := h (⟨i, hi⟩, .subscribe)
  have htopicExists := h (⟨i, hi⟩, .topicExists)
  have hsubscriberNumber := h (⟨i, hi⟩, .subscriberNumber)
  have hunsubscribe := h (⟨i, hi⟩, .unsubscribe)
  simp only [counterValue, TopicStats.get, Fin.getElem_fin] at *
  cases ha : a[i]
  cases hb : b[i]
  simp_all

theorem get_countNotification (stats : TopicStats) (type type' : NotificationType) :
    (countNotification type.char stats).get type' =
      stats.get type' + if type = type' then 1 else 0 := by
  cases type <;> cases type' <;>
    simp [countNotification, NotificationType.char, TopicStats.get, byteOf]

/-- Incrementing changes the addressed counter only. -/
theorem counterValue_increment (topicStatsArray : TopicStatsArray) (k : Option Counter)
    (c : Counter) :
    counterValue (increment topicStatsArray k) c =
      counterValue topicStatsArray c + if k = some c then 1 else 0 := by
  cases k with
  | none => simp [increment]
  | some k =>
      rcases k with ⟨i, type⟩
      rcases c with ⟨j, type'⟩
      by_cases hij : i = j
      · subst hij
        simp [increment, counterValue, get_countNotification]
      · have hval : i.val ≠ j.val := fun h => hij (Fin.ext h)
        simp [increment, counterValue, hij, hval]

/-- After a list of increments a counter has grown by the number of its occurrences. -/
theorem counterValue_foldl_increment (ks : List (Option Counter))
    (topicStatsArray : TopicStatsArray) (c : Counter) :
    counterValue (ks.foldl increment topicStatsArray) c =
      counterValue topicStatsArray c + UInt64.ofNat (ks.count (some c)) := by
  induction ks generalizing topicStatsArray with
  | nil => simp
  | cons k ks ih =>
      rw [List.foldl_cons, ih, counterValue_increment, List.count_cons]
      by_cases hk : k = some c
      · have hone : UInt64.ofNat (ks.count (some c) + 1) =
            1 + UInt64.ofNat (ks.count (some c)) := by
          rw [UInt64.ofNat_add, UInt64.add_comm]
          rfl
        simp [hk, hone, UInt64.add_assoc]
      · simp [hk]

/-- Two lists of increments, of one length below the size of the counters, agree if they
hold each counter equally often. -/
theorem foldl_increment_eq_iff {ks ls : List (Option Counter)} (hlength : ks.length = ls.length)
    (hsize : ks.length < 2 ^ 64) (topicStatsArray : TopicStatsArray) :
    ks.foldl increment topicStatsArray = ls.foldl increment topicStatsArray ↔
      ∀ c, ks.count (some c) = ls.count (some c) := by
  constructor
  · intro h c
    have hvalue := congrArg (counterValue · c) h
    simp only [counterValue_foldl_increment, UInt64.add_right_inj] at hvalue
    have hks : ks.count (some c) ≤ ks.length := List.count_le_length
    have hls : ls.count (some c) ≤ ls.length := List.count_le_length
    have hnat := congrArg UInt64.toNat hvalue
    simp only [UInt64.toNat_ofNat'] at hnat
    omega
  · intro h
    apply eq_of_counterValue
    intro c
    rw [counterValue_foldl_increment, counterValue_foldl_increment, h c]

/-- Repeating one increment counts a list of increments exactly when all are equal. -/
theorem replicate_increment_eq_iff (k : Option Counter) {ks : List (Option Counter)}
    (hk : k ∈ ks) (hsize : ks.length < 2 ^ 64) (topicStatsArray : TopicStatsArray) :
    (List.replicate ks.length k).foldl increment topicStatsArray =
        ks.foldl increment topicStatsArray ↔ ∀ l ∈ ks, k = l := by
  rw [foldl_increment_eq_iff (by simp) (by simpa using hsize)]
  constructor
  · intro h
    cases k with
    | none =>
        intro l hl
        cases l with
        | none => rfl
        | some c =>
            -- the counter would be incremented, but is not
            have hcount := h c
            rw [List.count_replicate, if_neg (by simp)] at hcount
            exact absurd hl (List.count_eq_zero.mp hcount.symm)
    | some c =>
        have hcount := h c
        rw [List.count_replicate_self] at hcount
        exact List.count_eq_length.mp hcount.symm
  · intro h c
    have hks : ks = List.replicate ks.length k :=
      List.eq_replicate_iff.mpr ⟨rfl, fun l hl => (h l hl).symm⟩
    rw [← hks]

/-! ## What handling notifications does -/

theorem Notification.payload_nulFree {n : Notification} (hn : NulFree n.topic) :
    NulFree n.payload := by
  have hchar : n.type.char ≠ 0 := by
    cases n.type <;> simp [NotificationType.char, byteOf]
  simp [Notification.payload, hchar, hn]

/-- A notification increments the counter that it addresses. -/
theorem handleNotification_eq {n : Notification} (hn : NulFree n.topic) (rest : Bytes)
    (topicStatsArray : TopicStatsArray) :
    handleNotification (n.payload ++ 0 :: rest) topicStatsArray =
      some (increment topicStatsArray n.counter) := by
  have hbegins : NulFree [n.type.char, hashtag] := by
    have hpayload := Notification.payload_nulFree hn
    simp only [Notification.payload, nulFree_cons] at hpayload
    simp [hpayload.1]
  have htopic : copyFrom 2 (n.payload ++ 0 :: rest) = some n.topic := copyFrom_eq hbegins hn rest
  unfold handleNotification
  rw [htopic]
  cases hstats : getTopicStats n.topic <;>
    simp [Notification.payload, Notification.counter, increment, hstats]

theorem handleEach_eq {ns : List Notification} (hns : ∀ n ∈ ns, NulFree n.topic)
    (topicStatsArray : TopicStatsArray) :
    handleEach ns topicStatsArray =
      some ((ns.map Notification.counter).foldl increment topicStatsArray) := by
  unfold handleEach
  induction ns generalizing topicStatsArray with
  | nil => rfl
  | cons n ns ih =>
      rw [List.foldlM_cons, handleNotification_eq (hns n (by simp)), Option.bind_eq_bind,
        Option.bind_some, ih fun m hm => hns m (by simp [hm])]
      rfl

/-- Incrementing one counter once for every element of a list. -/
theorem foldlM_increment (k : Option Counter) (ns : List Notification)
    (topicStatsArray : TopicStatsArray) :
    ns.foldlM (fun topicStatsArray _ => some (increment topicStatsArray k)) topicStatsArray =
      some ((List.replicate ns.length k).foldl increment topicStatsArray) := by
  induction ns generalizing topicStatsArray with
  | nil => rfl
  | cons n ns ih =>
      rw [List.foldlM_cons, Option.bind_eq_bind, Option.bind_some, ih]
      rfl

/-- Every notification takes at least one byte of a batch. -/
theorem length_le_batch (ns : List Notification) : ns.length ≤ (batch ns).length := by
  induction ns with
  | nil => simp
  | cons n ns ih =>
      simp only [batch, List.map_cons, framesOf_cons, List.length_append, List.length_cons] at *
      omega

/-- {lit}`handle_notifications` counts the first notification of a batch once for each
notification of the batch. -/
theorem handleNotifications_eq {n : Notification} {ns : List Notification}
    (hns : ∀ m ∈ n :: ns, NulFree m.topic) (hsize : (batch (n :: ns)).length ≤ receiveBufferSize)
    (topicStatsArray : TopicStatsArray) :
    handleNotifications (.data (batch (n :: ns))) (zeros brokerReceiveBufferSize)
        topicStatsArray =
      some (.returned ⟨true, zeros brokerReceiveBufferSize,
        (List.replicate (n :: ns).length n.counter).foldl increment topicStatsArray⟩) := by
  have hcapacity : receiveBufferSize ≤ brokerReceiveBufferSize := by decide
  have hroom : ∃ m, brokerReceiveBufferSize - (batch (n :: ns)).length = m + 1 := by
    have hlt : receiveBufferSize < brokerReceiveBufferSize := by decide
    exact ⟨brokerReceiveBufferSize - (batch (n :: ns)).length - 1, by omega⟩
  have hreceived := recvInto_zeros hsize hcapacity
  rcases hroom with ⟨m, hroom⟩
  rw [hroom] at hreceived
  -- the notification handled in every round is the first one of the buffer
  have hdrop : (batch (n :: ns) ++ zeros (m + 1)).drop 1 =
      n.payload ++ 0 :: (batch ns ++ zeros (m + 1)) := by
    simp [batch]
  have hfirst : handleNotification ((batch (n :: ns) ++ zeros (m + 1)).drop 1) =
      fun topicStatsArray => some (increment topicStatsArray n.counter) := by
    funext topicStatsArray
    rw [hdrop]
    exact handleNotification_eq (hns n (by simp)) _ topicStatsArray
  have hloop : frameLoop hashtag
      (fun _ _ topicStatsArray => some (increment topicStatsArray n.counter)) false 0
      (batch (n :: ns) ++ 0 :: zeros m) topicStatsArray =
        ((n :: ns).foldlM (fun topicStatsArray _ => some (increment topicStatsArray n.counter))
          topicStatsArray).map (·, 0 + (batch (n :: ns)).length) :=
    frameLoop_frames (fun l hl => Notification.payload_nulFree (hns l hl)) (fun _ _ _ _ _ => rfl)
      nul_ne_hashtag 0 (zeros m) topicStatsArray
  have hcleared : zeroFill (batch (n :: ns) ++ zeros (m + 1)) receiveBufferSize =
      some (zeros brokerReceiveBufferSize) := by
    rw [zeroFill_append_zeros hsize (by omega)]
    congr 2
    omega
  have hnonempty : batch (n :: ns) ≠ [] := by simp [batch]
  simp only [handleNotifications, receiveNotifications, hreceived, Option.map_some,
    Option.bind_eq_bind, Option.bind_some, hfirst, hcleared]
  rw [zeros_succ, hloop, foldlM_increment]
  simp [hnonempty]

/-- A batch is counted as its notifications are, one after the other, exactly when all
of them address one counter. -/
theorem handleNotifications_eq_handleEach_iff {n : Notification} {ns : List Notification}
    (hns : ∀ m ∈ n :: ns, NulFree m.topic) (hsize : (batch (n :: ns)).length ≤ receiveBufferSize)
    (topicStatsArray : TopicStatsArray) :
    handleNotifications (.data (batch (n :: ns))) (zeros brokerReceiveBufferSize)
        topicStatsArray =
        (handleEach (n :: ns) topicStatsArray).map (fun topicStatsArray =>
          .returned ⟨true, zeros brokerReceiveBufferSize, topicStatsArray⟩) ↔
      ∀ m ∈ n :: ns, n.counter = m.counter := by
  have hlength : ((n :: ns).map Notification.counter).length < 2 ^ 64 := by
    have hle := length_le_batch (n :: ns)
    have hlt : receiveBufferSize < 2 ^ 64 := by decide
    rw [List.length_map]
    omega
  have hmem : n.counter ∈ (n :: ns).map Notification.counter := by simp
  have hiff := replicate_increment_eq_iff n.counter hmem hlength topicStatsArray
  rw [handleNotifications_eq hns hsize, handleEach_eq hns]
  simpa using hiff

/-- Two messages published on one topic. -/
theorem handleNotifications_eq_handleEach_sameCounter :
    handleNotifications (.data (batch [⟨.publish, news⟩, ⟨.publish, news⟩]))
        (zeros brokerReceiveBufferSize) (Vector.replicate 3 ⟨0, 0, 0, 0, 0⟩) =
      (handleEach [⟨.publish, news⟩, ⟨.publish, news⟩]
        (Vector.replicate 3 ⟨0, 0, 0, 0, 0⟩)).map fun topicStatsArray =>
          .returned ⟨true, zeros brokerReceiveBufferSize, topicStatsArray⟩ :=
  (handleNotifications_eq_handleEach_iff (by decide) (by decide) _).mpr (by decide)

/-- A subscription that arrives together with a message is counted as a message. -/
theorem handleNotifications_ne_handleEach :
    handleNotifications (.data (batch [⟨.publish, news⟩, ⟨.subscribe, news⟩]))
        (zeros brokerReceiveBufferSize) (Vector.replicate 3 ⟨0, 0, 0, 0, 0⟩) ≠
      (handleEach [⟨.publish, news⟩, ⟨.subscribe, news⟩]
        (Vector.replicate 3 ⟨0, 0, 0, 0, 0⟩)).map fun topicStatsArray =>
          .returned ⟨true, zeros brokerReceiveBufferSize, topicStatsArray⟩ := by
  rw [handleNotifications_eq (by decide) (by decide), handleEach_eq (by decide), Option.map_some]
  simp only [ne_eq, Option.some.injEq, Outcome.returned.injEq, Handled.mk.injEq, true_and]
  decide

end StatsManager
end PubSub
