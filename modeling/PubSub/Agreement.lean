import PubSub.Broker.CommandExecution
import PubSub.StatsManager.NotificationHandling

/-!
# Agreement of the broker and the stats manager

The broker encodes a notification and the stats manager decodes it, with a topic
order and a size arithmetic of their own.

Main results:

- Theorem {lit}`perform_success_iff`: the success that {lit}`execute_command` sees is the
  success of the command.
- Theorem {lit}`notificationOf_counted`: the notification of a command on an existing topic
  increments the counter of its topic and its type, and no other.
- Theorem {lit}`executeCommand_agrees`: the broker notifies of exactly the commands that have
  succeeded, and the stats manager counts what the broker notifies of.
-/

namespace PubSub
namespace Agreement

open Foundations Client Broker StatsManager

/-- The names of the topics that {lit}`main` of the broker creates. -/
def brokerTopicNames : List Bytes :=
  [updates, news, warnings]

/-- The topics that the stats in {lit}`topic_stats_array` of the stats manager belong to. -/
def countedTopics : Vector Bytes topicsNum :=
  #v[news, updates, warnings]

/-! ## Success of a command -/

/-- A command has succeeded, as the topics before and after it show: its topic exists,
and a subscription has been added or removed. -/
def Succeeded (connectionSocketPtr : SocketPtr) (before after : List Topic) : Command → Prop
  | .publish topic _ | .topicExists topic | .subscriberNumber topic => ∃ t ∈ before, t.name = topic
  | .subscribe topic => ∃ (i : Nat) (old new : Topic), before[i]? = some old ∧
      after[i]? = some new ∧ old.name = topic ∧
      new.subscriberConnectionSockets = connectionSocketPtr :: old.subscriberConnectionSockets
  | .unsubscribe topic => ∃ (i : Nat) (old new : Topic), before[i]? = some old ∧
      after[i]? = some new ∧ old.name = topic ∧
      connectionSocketPtr ∈ old.subscriberConnectionSockets ∧
      new.subscriberConnectionSockets =
        old.subscriberConnectionSockets.erase connectionSocketPtr

theorem getTopicByName_isSome_iff (topics : List Topic) (topic : Bytes) :
    (getTopicByName topics topic).isSome = true ↔ ∃ t ∈ topics, t.name = topic := by
  simp [getTopicByName, List.isSome_findFinIdx?]

theorem name_of_getTopicByName {topics : List Topic} {topic : Bytes} {i : Fin topics.length}
    (h : getTopicByName topics topic = some i) : (topics.get i).name = topic := by
  have hspec := List.findFinIdx?_eq_some_iff.mp h
  simpa using hspec.1

/-- A list does not become its own tail or itself with an element less. -/
theorem not_succeeded_subscribe_refl (connectionSocketPtr : SocketPtr) (topics : List Topic)
    (topic : Bytes) : ¬ Succeeded connectionSocketPtr topics topics (.subscribe topic) := by
  rintro ⟨i, old, new, hold, hnew, -, hsubs⟩
  rw [hold, Option.some.injEq] at hnew
  subst hnew
  have hlength := congrArg List.length hsubs
  simp at hlength

theorem not_succeeded_unsubscribe_refl (connectionSocketPtr : SocketPtr) (topics : List Topic)
    (topic : Bytes) : ¬ Succeeded connectionSocketPtr topics topics (.unsubscribe topic) := by
  rintro ⟨i, old, new, hold, hnew, -, hmem, hsubs⟩
  rw [hold, Option.some.injEq] at hnew
  subst hnew
  have hlength := congrArg List.length hsubs
  have hpos := List.length_pos_of_mem hmem
  rw [List.length_erase_of_mem hmem] at hlength
  omega

/-- The success that is reported is the success of the command. -/
theorem perform_success_iff {topics topics' : List Topic} {connectionSocketPtr : SocketPtr}
    {c : Command} {response : Option Bytes} {success : Bool}
    (h : perform topics connectionSocketPtr c = some (topics', response, success)) :
    success = true ↔ Succeeded connectionSocketPtr topics topics' c := by
  cases c with
  | publish topic message =>
      simp only [perform, publish, Option.some.injEq, Prod.mk.injEq] at h
      rcases h with ⟨-, -, rfl⟩
      rw [Succeeded, ← getTopicByName_isSome_iff]
      cases getTopicByName topics topic <;> simp
  | subscribe topic =>
      simp only [perform, subscribe, Option.some.injEq, Prod.mk.injEq] at h
      rcases h with ⟨rfl, -, rfl⟩
      cases hget : getTopicByName topics topic with
      | none => simp [not_succeeded_subscribe_refl]
      | some i =>
          simp only
          split
          · simp only [true_iff]
            exact ⟨i, topics[i], _, by simp, by simp; rfl, name_of_getTopicByName hget, rfl⟩
          · simp [not_succeeded_subscribe_refl]
  | topicExists topic =>
      simp only [perform, Option.some.injEq, Prod.mk.injEq] at h
      rcases h with ⟨-, -, rfl⟩
      exact getTopicByName_isSome_iff topics topic
  | subscriberNumber topic =>
      simp only [perform, Option.map_eq_some_iff, Prod.mk.injEq] at h
      rcases h with ⟨_, -, -, -, rfl⟩
      exact getTopicByName_isSome_iff topics topic
  | unsubscribe topic =>
      simp only [perform, unsubscribe, Option.some.injEq, Prod.mk.injEq] at h
      rcases h with ⟨rfl, -, rfl⟩
      cases hget : getTopicByName topics topic with
      | none => simp [not_succeeded_unsubscribe_refl]
      | some i =>
          simp only
          split
          · next hmem =>
            simp only [true_iff]
            exact ⟨i, topics[i], _, by simp, by simp; rfl, name_of_getTopicByName hget, hmem, rfl⟩
          · simp [not_succeeded_unsubscribe_refl]

/-- A command that has succeeded names an existing topic. -/
theorem Succeeded.topic_exists {connectionSocketPtr : SocketPtr} {before after : List Topic}
    {c : Command} (h : Succeeded connectionSocketPtr before after c) :
    ∃ t ∈ before, t.name = c.topic := by
  cases c with
  | publish | topicExists | subscriberNumber => exact h
  | subscribe topic | unsubscribe topic =>
      rcases h with ⟨i, old, new, hold, -, hname, -⟩
      exact ⟨old, List.mem_of_getElem? hold, hname⟩

/-! ## Counting what has been notified -/

/-- The type under which a command is counted. -/
def notificationType : Command → NotificationType
  | .publish _ _ => .publish
  | .subscribe _ => .subscribe
  | .topicExists _ => .topicExists
  | .subscriberNumber _ => .subscriberNumber
  | .unsubscribe _ => .unsubscribe

/-- The counter of a command: its topic is the one the stats belong to, and its type is
the one that is counted. -/
def IsCounterOf (counter : Counter) (c : Command) : Prop :=
  countedTopics.get counter.1 = c.topic ∧ counter.2 = notificationType c

/-- Handling a notification increments the counter of the command by one and leaves the
fourteen others unchanged, whatever follows it in the buffer. -/
def Counted (notification : Bytes) (c : Command) : Prop :=
  ∃ payload, notification = hashtag :: payload ∧
    ∀ rest topicStatsArray, ∃ topicStatsArray',
      handleNotification (payload ++ 0 :: rest) topicStatsArray = some topicStatsArray' ∧
      ∃ counter, IsCounterOf counter c ∧
        counterValue topicStatsArray' counter = counterValue topicStatsArray counter + 1 ∧
        ∀ other, other ≠ counter →
          counterValue topicStatsArray' other = counterValue topicStatsArray other

/-- The notification that the stats manager reads out of what the broker sends. -/
def decoded (c : Command) : Notification :=
  ⟨notificationType c, c.topic⟩

theorem notificationOf_eq (c : Command) : notificationOf c = hashtag :: (decoded c).payload := by
  cases c <;> rfl

/-- The stats manager knows the topics of the broker. -/
theorem getTopicStats_of_brokerTopic {topic : Bytes} (h : topic ∈ brokerTopicNames) :
    ∃ i, getTopicStats topic = some i ∧ countedTopics.get i = topic := by
  simp only [brokerTopicNames, List.mem_cons, List.not_mem_nil, or_false] at h
  rcases h with rfl | rfl | rfl
  · exact ⟨1, by decide, by decide⟩
  · exact ⟨0, by decide, by decide⟩
  · exact ⟨2, by decide, by decide⟩

/-- A notification of a command on a topic of the broker is counted. -/
theorem notificationOf_counted {c : Command} (hc : c.WellFormed)
    (htopic : c.topic ∈ brokerTopicNames) : Counted (notificationOf c) c := by
  rcases getTopicStats_of_brokerTopic htopic with ⟨i, hstats, hcounted⟩
  have hcounter : (decoded c).counter = some (i, notificationType c) := by
    simp [Notification.counter, decoded, hstats]
  refine ⟨(decoded c).payload, notificationOf_eq c, ?_⟩
  intro rest topicStatsArray
  have htopicFree : NulFree (decoded c).topic := hc.topic_nulFree
  refine ⟨_, handleNotification_eq htopicFree rest topicStatsArray,
    (i, notificationType c), ⟨hcounted, rfl⟩, ?_, ?_⟩
  · rw [counterValue_increment, if_pos hcounter]
  · intro other hother
    have hne : (decoded c).counter ≠ some other := by
      rw [hcounter]
      intro h
      exact hother (Option.some.inj h).symm
    rw [counterValue_increment, if_neg hne, UInt64.add_zero]

/-! ## Agreement -/

/-- Requests are carried out while the subscriber numbers fit into the responses. -/
theorem exists_perform {topics : List Topic}
    (hsizes : ∀ t ∈ topics, t.subscriberConnectionSockets.length ≤ 99999)
    (connectionSocketPtr : SocketPtr) (c : Command) :
    ∃ result, perform topics connectionSocketPtr c = some result := by
  cases c with
  | publish | subscribe | topicExists | unsubscribe => exact ⟨_, rfl⟩
  | subscriberNumber topic =>
      simp only [perform, subscriberNumber]
      cases hget : getTopicByName topics topic with
      | none => exact ⟨_, rfl⟩
      | some i =>
          have hlength := hsizes topics[i] (List.getElem_mem i.isLt)
          have hdigits : itoaS topics[i].subscriberConnectionSockets.length (5 + 1) =
              some (decimal topics[i].subscriberConnectionSockets.length) := by
            rw [itoaS_eq_some_iff (by decide)]
            omega
          simp only [hdigits]
          exact ⟨_, rfl⟩

/-- The broker notifies the stats manager of exactly the commands that have succeeded,
and every notification is counted once, for its topic and its type. -/
theorem executeCommand_agrees {topics : List Topic}
    (hnames : topics.map Topic.name = brokerTopicNames)
    (hsizes : ∀ t ∈ topics, t.subscriberConnectionSockets.length ≤ 99999)
    {c : Command} (hc : c.WellFormed) (connectionSocketPtr : SocketPtr) (rest : Bytes) :
    ∃ execution,
      executeCommand topics (c.text ++ 0 :: rest) connectionSocketPtr = some execution ∧
      (execution.notification.isSome = true ↔
        Succeeded connectionSocketPtr topics execution.topics c) ∧
      ∀ notification, execution.notification = some notification → Counted notification c := by
  rcases exists_perform hsizes connectionSocketPtr c with ⟨⟨topics', response, success⟩, hperform⟩
  have hsuccess := perform_success_iff hperform
  refine ⟨⟨topics', response, if success then some (notificationOf c) else none⟩, ?_, ?_, ?_⟩
  · rw [executeCommand_eq topics connectionSocketPtr hc, hperform, Option.map_some]
  · rw [← hsuccess]
    cases success <;> simp
  · intro notification hnotification
    cases success with
    | false => simp at hnotification
    | true =>
        simp only [if_true, Option.some.injEq] at hnotification
        rcases (hsuccess.mp rfl).topic_exists with ⟨t, ht, hname⟩
        have htopic : c.topic ∈ brokerTopicNames := by
          rw [← hnames, ← hname]
          exact List.mem_map_of_mem ht
        rw [← hnotification]
        exact notificationOf_counted hc htopic

/-- A publish command with a number sign in its message, and no subscribers. -/
theorem executeCommand_agrees_publish :
    ∃ execution,
      executeCommand (brokerTopicNames.map fun name => ⟨name, [], []⟩)
        ((Command.publish news [hashtag]).text ++ 0 :: []) 0 =
          some execution ∧
      (execution.notification.isSome = true ↔
        Succeeded 0 (brokerTopicNames.map fun name => ⟨name, [], []⟩) execution.topics
          (.publish news [hashtag])) ∧
      ∀ notification, execution.notification = some notification →
        Counted notification (.publish news [hashtag]) :=
  executeCommand_agrees (by decide) (by decide) (by decide) 0 []

end Agreement
end PubSub
