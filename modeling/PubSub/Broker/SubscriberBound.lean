import PubSub.Broker.MainLoop

/-!
# The size of subscriber lists

A response to a query for the number of subscribers has room for the digits of
{lit}`SUBSCRIBER_LIST_MAX_SIZE`.  The guard of {lit}`subscribe` admits a socket while the size is at
most that, so a list can have one subscriber more, and its size then has one digit more.

Main results:

- Theorem {lit}`topicsReachable_of_mainLoop`: whatever the main loop does to the topics is a
  sequence of the four operations on them.
- Theorem {lit}`length_subscribers_le`: a list never has more than one subscriber too many.
- Theorem {lit}`subscribersBounded_iff`: the lists of a run are bounded, and their sizes can be
  told, exactly when every subscription finds room for one more.
-/

namespace PubSub
namespace Broker

open Foundations Client

/-! ## The operations on the topics -/

/-- What the main thread does to the topics. -/
inductive TopicOperation where
  | publish (topicName message : Bytes)
  | subscribe (topicName : Bytes) (connectionSocketPtr : SocketPtr)
  | unsubscribe (topicName : Bytes) (connectionSocketPtr : SocketPtr)
  /-- {lit}`receive_commands` finds that the connection is closed -/
  | disconnect (connectionSocketPtr : SocketPtr)
deriving DecidableEq, Repr

def TopicOperation.apply (topics : List Topic) : TopicOperation → List Topic
  | .publish topicName message => (Broker.publish topics topicName message).1
  | .subscribe topicName connectionSocketPtr =>
      (Broker.subscribe topics topicName connectionSocketPtr).1
  | .unsubscribe topicName connectionSocketPtr =>
      (Broker.unsubscribe topics topicName connectionSocketPtr).1
  | .disconnect connectionSocketPtr =>
      topics.map fun topic => topic.freeNode connectionSocketPtr

/-- The topics under their operations, from the state in which {lit}`main` starts its loop. -/
def topicOperations (topicNames : List Bytes) : System (List Topic) TopicOperation where
  initial := fun topics => topics = (MainLoop.start topicNames).topics
  step := fun topics operation => some (operation.apply topics)

@[simp]
theorem topicOperations_step {topicNames : List Bytes} {topics topics' : List Topic}
    {operation : TopicOperation} :
    (topicOperations topicNames).step topics operation = some topics' ↔
      operation.apply topics = topics' := by
  rw [topicOperations, Option.some.injEq]

theorem topicsReachable_apply {topicNames : List Bytes} {topics topics' : List Topic}
    (hreach : (topicOperations topicNames).Reachable topics) (operation : TopicOperation)
    (happly : topics' = operation.apply topics) :
    (topicOperations topicNames).Reachable topics' :=
  hreach.step (topicOperations_step.mpr happly.symm)

/-- A command is at most one operation. -/
theorem topicsReachable_executeCommand {topicNames : List Bytes} {topics : List Topic}
    (hreach : (topicOperations topicNames).Reachable topics) {command : Bytes}
    {connectionSocketPtr : SocketPtr} {execution : Execution}
    (h : executeCommand topics command connectionSocketPtr = some execution) :
    (topicOperations topicNames).Reachable execution.topics := by
  rcases executeCommand_topics h with heq | ⟨topicName, message, heq⟩ | ⟨topicName, heq⟩ |
    ⟨topicName, heq⟩
  · rwa [heq]
  · exact topicsReachable_apply hreach (.publish topicName message) heq
  · exact topicsReachable_apply hreach (.subscribe topicName connectionSocketPtr) heq
  · exact topicsReachable_apply hreach (.unsubscribe topicName connectionSocketPtr) heq

/-- A step of the main loop is a sequence of operations on the topics. -/
theorem topicsReachable_mainLoopStep {topicNames : List Bytes} {s s' : MainLoop}
    {l : MainLoopStep} (hreach : (topicOperations topicNames).Reachable s.topics)
    (h : mainLoopStep s l = some s') : (topicOperations topicNames).Reachable s'.topics := by
  cases l with
  | accept accepted =>
      rcases mainLoopStep_accept_eq_some_iff.mp h with ⟨-, t, ht, rfl⟩
      rcases acceptConnection_cases ht with ⟨htopics, -, -⟩
      rwa [← htopics] at hreach
  | serve incoming =>
      rcases mainLoopStep_serve_eq_some_iff.mp h with ⟨produced, ht⟩
      unfold serveRound at ht
      split at ht
      · contradiction
      next p rest hwalker =>
        cases incoming with
        | selectError | willBlock | recvError =>
            simp only [receiveCommands, Option.bind_eq_bind, Option.bind_some, Option.pure_def,
              Option.some.injEq, Prod.mk.injEq] at ht
            rcases ht with ⟨rfl, -⟩
            exact hreach
        | closed =>
            simp only [receiveCommands, Option.bind_eq_bind, Option.bind_some, Option.pure_def,
              Option.some.injEq, Prod.mk.injEq] at ht
            rcases ht with ⟨rfl, -⟩
            exact topicsReachable_apply hreach (.disconnect p) rfl
        | data bytes =>
            simp only [receiveCommands, Option.bind_eq_bind, Option.bind_eq_some_iff,
              Option.map_eq_some_iff] at ht
            rcases ht with ⟨-, ⟨receiveBuffer, -, rfl⟩, ht⟩
            simp only [Option.bind_eq_some_iff, Option.pure_def, Option.some.injEq,
              Prod.mk.injEq] at ht
            rcases ht with ⟨socket, -, ⟨produced', i⟩, hloop, cleared, -, rfl, -⟩
            refine frameLoop_invariant (P := fun produced : Produced 0 =>
              (topicOperations topicNames).Reachable produced.topics) ?_ hloop hreach
            intro i command produced produced'' hproduced hbody
            rw [executeCommandAndProduce, Option.map_eq_some_iff] at hbody
            rcases hbody with ⟨execution, hexecution, rfl⟩
            exact topicsReachable_executeCommand hproduced hexecution

/-- Whatever the main loop does to the topics is a sequence of operations. -/
theorem topicsReachable_of_mainLoop {topicNames : List Bytes} {s : MainLoop}
    (hreach : (mainLoop topicNames).Reachable s) :
    (topicOperations topicNames).Reachable s.topics := by
  refine hreach.invariant (fun s => (topicOperations topicNames).Reachable s.topics) ?_ ?_
  · intro t ht
    exact System.Reachable.start (congrArg MainLoop.topics ht)
  · intro t l t' ht hstep
    exact topicsReachable_mainLoopStep ht hstep

/-! ## How the lists grow -/

/-- A list grows only when a subscription passes the guard, and then by one. -/
theorem apply_cases {topics : List Topic} {operation : TopicOperation} {topic' : Topic}
    (hmem : topic' ∈ operation.apply topics) :
    (∃ topic ∈ topics, topic'.subscriberConnectionSockets.length ≤
        topic.subscriberConnectionSockets.length) ∨
      ∃ topicName connectionSocketPtr i, operation = .subscribe topicName connectionSocketPtr ∧
        getTopicByName topics topicName = some i ∧
        (topics.get i).subscriberConnectionSockets.length ≤ subscriberListMaxSize ∧
        topic'.subscriberConnectionSockets.length =
          (topics.get i).subscriberConnectionSockets.length + 1 := by
  cases operation with
  | publish topicName message =>
      simp only [TopicOperation.apply, Broker.publish] at hmem
      split at hmem
      · exact .inl ⟨topic', hmem, Nat.le_refl _⟩
      · next i _ =>
        rcases List.mem_or_eq_of_mem_set hmem with hold | rfl
        · exact .inl ⟨topic', hold, Nat.le_refl _⟩
        · exact .inl ⟨topics[i], List.getElem_mem i.isLt, Nat.le_refl _⟩
  | subscribe topicName connectionSocketPtr =>
      simp only [TopicOperation.apply, Broker.subscribe] at hmem
      split at hmem
      · exact .inl ⟨topic', hmem, Nat.le_refl _⟩
      next i hget =>
        split at hmem
        · next hguard =>
          rcases List.mem_or_eq_of_mem_set hmem with hold | rfl
          · exact .inl ⟨topic', hold, Nat.le_refl _⟩
          · exact .inr ⟨topicName, connectionSocketPtr, i, rfl, hget, hguard, rfl⟩
        · exact .inl ⟨topic', hmem, Nat.le_refl _⟩
  | unsubscribe topicName connectionSocketPtr =>
      simp only [TopicOperation.apply, Broker.unsubscribe] at hmem
      split at hmem
      · exact .inl ⟨topic', hmem, Nat.le_refl _⟩
      next i hget =>
        split at hmem
        · rcases List.mem_or_eq_of_mem_set hmem with hold | rfl
          · exact .inl ⟨topic', hold, Nat.le_refl _⟩
          · exact .inl ⟨topics[i], List.getElem_mem i.isLt, List.erase_sublist.length_le⟩
        · exact .inl ⟨topic', hmem, Nat.le_refl _⟩
  | disconnect connectionSocketPtr =>
      rcases List.mem_map.mp hmem with ⟨topic, htopic, rfl⟩
      exact .inl ⟨topic, htopic, List.erase_sublist.length_le⟩

theorem start_length {topicNames : List Bytes} {topic : Topic}
    (hmem : topic ∈ (MainLoop.start topicNames).topics) :
    topic.subscriberConnectionSockets.length = 0 := by
  rcases List.mem_map.mp hmem with ⟨name, -, rfl⟩
  rfl

/-- The guard lets a list have one subscriber too many, and no more. -/
theorem length_subscribers_le {topicNames : List Bytes} {topics : List Topic}
    (hreach : (topicOperations topicNames).Reachable topics) :
    ∀ topic ∈ topics, topic.subscriberConnectionSockets.length ≤ subscriberListMaxSize + 1 := by
  refine hreach.invariant (fun topics => ∀ topic ∈ topics,
    topic.subscriberConnectionSockets.length ≤ subscriberListMaxSize + 1) ?_ ?_
  · rintro topics rfl topic hmem
    rw [start_length hmem]
    omega
  · intro topics operation topics' hle hstep topic' hmem
    rw [topicOperations_step] at hstep
    subst hstep
    rcases apply_cases hmem with ⟨topic, htopic, hshorter⟩ | ⟨_, _, i, -, -, hguard, hlength⟩
    · exact Nat.le_trans hshorter (hle topic htopic)
    · omega

/-! ## The bound -/

/-- Every list has at most {lit}`SUBSCRIBER_LIST_MAX_SIZE` subscribers, and a query for their
number is answered with its numeral. -/
structure SubscribersBounded (topics : List Topic) : Prop where
  length_le : ∀ topic ∈ topics, topic.subscriberConnectionSockets.length ≤ subscriberListMaxSize
  number : ∀ topicName i, getTopicByName topics topicName = some i →
    subscriberNumber topics topicName =
      some (decimal (topics.get i).subscriberConnectionSockets.length)

/-- A subscription to an existing topic finds room for one more subscriber. -/
def FindsRoom (topics : List Topic) : TopicOperation → Prop
  | .subscribe topicName _ => ∀ i, getTopicByName topics topicName = some i →
      (topics.get i).subscriberConnectionSockets.length < subscriberListMaxSize
  | _ => True

/-- The numerals of bounded lists fit the response. -/
theorem subscribersBounded_of_length_le {topics : List Topic}
    (hle : ∀ topic ∈ topics,
      topic.subscriberConnectionSockets.length ≤ subscriberListMaxSize) :
    SubscribersBounded topics := by
  refine ⟨hle, fun topicName i hget => ?_⟩
  have hlength := hle topics[i] (List.getElem_mem i.isLt)
  rw [subscriberNumber, hget]
  have hdigits : topics[i].subscriberConnectionSockets.length < 10 ^ 5 := by
    rw [subscriberListMaxSize] at hlength
    omega
  exact (itoaS_eq_some_iff (by decide)).mpr hdigits

theorem apply_bounded {topics : List Topic} (hbounded : SubscribersBounded topics)
    {operation : TopicOperation} (hroom : FindsRoom topics operation) :
    SubscribersBounded (operation.apply topics) := by
  refine subscribersBounded_of_length_le fun topic' hmem => ?_
  rcases apply_cases hmem with ⟨topic, htopic, hshorter⟩ | ⟨_, _, i, rfl, hget, -, hlength⟩
  · exact Nat.le_trans hshorter (hbounded.length_le topic htopic)
  · have hlt := hroom i hget
    omega

/-- A subscription that finds a list with the maximal size is admitted all the same. -/
theorem apply_unbounded {topics : List Topic} (hbounded : SubscribersBounded topics)
    {operation : TopicOperation} (hroom : ¬ FindsRoom topics operation) :
    ¬ SubscribersBounded (operation.apply topics) := by
  cases operation with
  | publish | unsubscribe | disconnect => exact absurd trivial hroom
  | subscribe topicName connectionSocketPtr =>
      simp only [FindsRoom, not_forall, Nat.not_lt] at hroom
      rcases hroom with ⟨i, hget, hroomless⟩
      have hfull : subscriberListMaxSize ≤ topics[i].subscriberConnectionSockets.length :=
        hroomless
      have hguard := hbounded.length_le topics[i] (List.getElem_mem i.isLt)
      intro hbounded'
      rw [TopicOperation.apply, Broker.subscribe, hget] at hbounded'
      simp only [hguard, if_true] at hbounded'
      have hle := hbounded'.length_le _ (List.mem_set i.isLt _)
      simp only [List.length_cons] at hle
      omega

/-- In a run of operations all lists are bounded, and their sizes can be told, exactly when
every subscription finds room for one more subscriber. -/
theorem subscribersBounded_iff (topicNames : List Bytes) (run : List TopicOperation) :
    (topicOperations topicNames).StatesSatisfy SubscribersBounded
        (MainLoop.start topicNames).topics run ↔
      (topicOperations topicNames).StepsSatisfy FindsRoom
        (MainLoop.start topicNames).topics run := by
  have hstart : SubscribersBounded (MainLoop.start topicNames).topics := by
    refine subscribersBounded_of_length_le fun topic hmem => ?_
    rw [start_length hmem]
    omega
  refine System.statesSatisfy_iff_stepsSatisfy SubscribersBounded ?_ ?_ run hstart hstart
  · intro topics operation topics' hbounded hroom hstep
    rw [topicOperations_step] at hstep
    have hbounded' := hstep ▸ apply_bounded hbounded hroom
    exact ⟨hbounded', hbounded'⟩
  · intro topics operation topics' hbounded hroom hstep
    rw [topicOperations_step] at hstep
    exact hstep ▸ apply_unbounded hbounded hroom

/-! ## A list that is full -/

/-- The topics of {lit}`main`, with subscribers to news only. -/
def newsSubscribed (subscribers : List SocketPtr) : List Topic :=
  [⟨updates, [], []⟩, ⟨news, [], subscribers⟩, ⟨warnings, [], []⟩]

/-- Subscribing one socket to news again and again. -/
theorem run_subscribe_news (topicNames : List Bytes) (connectionSocketPtr : SocketPtr) {k : Nat}
    (subscribers : List SocketPtr) (hroom : subscribers.length + k ≤ subscriberListMaxSize + 1) :
    (topicOperations topicNames).run (newsSubscribed subscribers)
        (List.replicate k (.subscribe news connectionSocketPtr)) =
      some (newsSubscribed (List.replicate k connectionSocketPtr ++ subscribers)) := by
  induction k generalizing subscribers with
  | zero => rfl
  | succ k ih =>
      have hget : getTopicByName (newsSubscribed subscribers) news =
          some ⟨1, by simp [newsSubscribed]⟩ := rfl
      have hguard : subscribers.length ≤ subscriberListMaxSize := by omega
      have happly : (TopicOperation.subscribe news connectionSocketPtr).apply
          (newsSubscribed subscribers) = newsSubscribed (connectionSocketPtr :: subscribers) := by
        rw [TopicOperation.apply, Broker.subscribe, hget]
        exact congrArg Prod.fst (if_pos hguard)
      have hrest := ih (connectionSocketPtr :: subscribers) (by rw [List.length_cons]; omega)
      have hsubscribers : List.replicate (k + 1) connectionSocketPtr ++ subscribers =
          List.replicate k connectionSocketPtr ++ connectionSocketPtr :: subscribers := by
        rw [List.replicate_succ', List.append_assoc, List.singleton_append]
      rw [List.replicate_succ, System.run_cons, topicOperations_step.mpr happly,
        Option.bind_some, hrest, hsubscribers]

/-- After a hundred thousand subscriptions to news. -/
theorem not_subscribersBounded_subscribe :
    ¬ (topicOperations [updates, news, warnings]).StatesSatisfy SubscribersBounded
      (MainLoop.start [updates, news, warnings]).topics
      (List.replicate 100000 (.subscribe news 1)) := by
  have hrun := run_subscribe_news [updates, news, warnings] 1 (k := 100000) []
    (Nat.le_refl 100000)
  intro hstates
  have hbounded := hstates.of_run hrun
  have hle := hbounded.length_le _ (List.mem_cons_of_mem _ (List.mem_cons_self))
  simp only [List.append_nil, List.length_replicate, subscriberListMaxSize] at hle
  omega

end Broker
end PubSub
