import Mathlib.Data.List.FinRange
import PubSub.Broker.SocketList
import PubSub.Client.CommandCreation
import PubSub.Foundations.Decimal

/-!
# Executing commands

{lit}`execute_command` takes a command apart, carries it out on the topics, and notifies
the stats manager of commands that succeeded.  The message queue of a topic and
its subscriber list are the lists of messages and of socket pointers that the
linked structures represent; {lit}`enqueue_unsafe`, {lit}`add_to_start` and {lit}`free_node` act on
them by appending, by adding in front and by erasing the first occurrence.

Main results:

- Theorems {lit}`extractForPublish_eq` and {lit}`extractTopicName_eq`: what is extracted from
  a well-formed command.
- Theorem {lit}`notifyStatsManager_eq`: the notification is the command without its
  message.
- Theorem {lit}`executeCommand_eq`: on a well-formed command, {lit}`execute_command` carries
  out the request of the command and notifies of it exactly on success.
- Theorem {lit}`executeCommand_topics`: what a command of any form can do to the topics.
-/

namespace PubSub
namespace Broker

open Foundations Client

/-! ## Topics -/

/-- {lit}`Topic`, with the contents of its message queue and of its subscriber list. -/
structure Topic where
  name : Bytes
  messageQueue : List Bytes
  subscriberConnectionSockets : List SocketPtr
deriving DecidableEq, Repr

/-- {lit}`get_topic_by_name`: the first topic with the name. -/
def getTopicByName (topics : List Topic) (topicName : Bytes) : Option (Fin topics.length) :=
  topics.findFinIdx? fun topic => topic.name = topicName

/-- {lit}`publish`.  The result says whether the topic exists. -/
def publish (topics : List Topic) (topicName message : Bytes) : List Topic × Bool :=
  match getTopicByName topics topicName with
  | none => (topics, false)
  | some i =>
      (topics.set i { topics[i] with messageQueue := topics[i].messageQueue ++ [message] }, true)

/-- {lit}`subscribe`.  A socket may be added several times. -/
def subscribe (topics : List Topic) (topicName : Bytes) (connectionSocketPtr : SocketPtr) :
    List Topic × Bool :=
  match getTopicByName topics topicName with
  | none => (topics, false)
  | some i =>
      if topics[i].subscriberConnectionSockets.length ≤ subscriberListMaxSize then
        (topics.set i { topics[i] with
          subscriberConnectionSockets :=
            connectionSocketPtr :: topics[i].subscriberConnectionSockets }, true)
      else (topics, false)

/-- {lit}`unsubscribe`. -/
def unsubscribe (topics : List Topic) (topicName : Bytes) (connectionSocketPtr : SocketPtr) :
    List Topic × Bool :=
  match getTopicByName topics topicName with
  | none => (topics, false)
  | some i =>
      if connectionSocketPtr ∈ topics[i].subscriberConnectionSockets then
        (topics.set i { topics[i] with
          subscriberConnectionSockets :=
            topics[i].subscriberConnectionSockets.erase connectionSocketPtr }, true)
      else (topics, false)

/-- {lit}`topic_exists`. -/
def topicExists (topics : List Topic) (topicName : Bytes) : Bytes :=
  match getTopicByName topics topicName with
  | none => [byteOf '0']
  | some _ => [byteOf '1']

/-- {lit}`subscriber_number`.  The response has room for five digits. -/
def subscriberNumber (topics : List Topic) (topicName : Bytes) : Option Bytes :=
  match getTopicByName topics topicName with
  | none => some [hashtag]
  | some i => itoaS topics[i].subscriberConnectionSockets.length (5 + 1)

/-! ## Taking commands apart -/

/-- {lit}`extract_for_publish`: the topic name and the message with a number sign in front,
as the strings that the two allocated blocks hold. -/
def extractForPublish (command : Bytes) : Option (Bytes × Bytes) := do
  let length ← scanUntil hashtag (command.drop 2)
  let secondHashtagIndex := length + 2
  let topicNameSize := secondHashtagIndex - 2 + 1
  let topicName ← malloc topicNameSize
  let topicName ← memcpyS topicName 0 (topicNameSize - 1 : Nat) (command.drop 2)
    (topicNameSize - 1 : Nat)
  let topicName ← topicName.store (topicNameSize - 1) [0]
  let commandLength ← strlen command
  let messageSize : Int := commandLength - secondHashtagIndex
  let message ← malloc (1 + messageSize)
  let message ← message.store 0 [hashtag]
  let message ← strcpyS message 1 messageSize (command.drop (secondHashtagIndex + 1))
  let topicName ← topicName.cstring
  let message ← message.cstring
  return (topicName, message)

/-- {lit}`extract_topic_name`. -/
def extractTopicName (command : Bytes) : Option Bytes :=
  copyFrom 2 command

/-- {lit}`notify_stats_manager`: the string that is sent, with its terminator, to the
stats manager. -/
def notifyStatsManager (commandWithStartHashtag : Bytes) : Option Bytes :=
  if commandWithStartHashtag[1]? = some (byteOf '2') then do
    let length ← scanUntil hashtag (commandWithStartHashtag.drop 3)
    let secondHashtagIndex := length + 3
    let commandWithoutMessageSize := secondHashtagIndex + 1
    let commandWithoutMessage ← malloc commandWithoutMessageSize
    let commandWithoutMessage ← memcpy commandWithoutMessage 0 commandWithStartHashtag
      commandWithoutMessageSize
    let commandWithoutMessage ← commandWithoutMessage.store (commandWithoutMessageSize - 1) [0]
    commandWithoutMessage.cstring
  else cstring commandWithStartHashtag

/-! ## Executing commands -/

/-- What a call of {lit}`execute_command` leaves and returns: the topics, the response if
there is one, and the notification if one has been sent. -/
structure Execution where
  topics : List Topic
  response : Option Bytes
  notification : Option Bytes
deriving DecidableEq, Repr

/-- Notify the stats manager if the command has succeeded.  The byte in front of the
command is the number sign that the caller has seen. -/
def notifyOnSuccess (command : Bytes) (success : Bool) : Option (Option Bytes) :=
  if success then (notifyStatsManager (hashtag :: command)).map some else some none

/-- {lit}`execute_command`, given the memory from the byte behind the first number sign
of the frame on. -/
def executeCommand (topics : List Topic) (command : Bytes) (connectionSocketPtr : SocketPtr) :
    Option Execution :=
  match command with
  | [] => none
  | commandType :: _ =>
      if commandType = byteOf '2' then do
        let (topicName, message) ← extractForPublish command
        let (topics, success) := publish topics topicName message
        let notification ← notifyOnSuccess command success
        return ⟨topics, none, notification⟩
      else if commandType = byteOf '3' then do
        let topicName ← extractTopicName command
        let (topics, success) := subscribe topics topicName connectionSocketPtr
        let notification ← notifyOnSuccess command success
        return ⟨topics, none, notification⟩
      else if commandType = byteOf '4' then do
        let topicName ← extractTopicName command
        let response := topicExists topics topicName
        let notification ← notifyOnSuccess command (response[0]? = some (byteOf '1'))
        return ⟨topics, some response, notification⟩
      else if commandType = byteOf '5' then do
        let topicName ← extractTopicName command
        let response ← subscriberNumber topics topicName
        let notification ← notifyOnSuccess command (response[0]? ≠ some hashtag)
        return ⟨topics, some response, notification⟩
      else if commandType = byteOf '6' then do
        let topicName ← extractTopicName command
        let (topics, success) := unsubscribe topics topicName connectionSocketPtr
        let notification ← notifyOnSuccess command success
        return ⟨topics, none, notification⟩
      else some ⟨topics, none, none⟩

/-! ## Well-formed commands -/

/-- {lit}`extract_for_publish` takes a command apart at the first number sign behind its second
byte, which it does not look at; the message may contain further ones. -/
theorem extractForPublish_text {commandType separator : Byte} {topic message : Bytes}
    (htype : commandType ≠ 0) (hseparator : separator ≠ 0) (htopic : NulFree topic)
    (hfree : ∀ b ∈ topic, b ≠ hashtag) (hmessage : NulFree message) (rest : Bytes) :
    extractForPublish
        (commandType :: separator :: (topic ++ hashtag :: (message ++ 0 :: rest))) =
      some (topic, hashtag :: message) := by
  have hscan : scanUntil hashtag (topic ++ hashtag :: (message ++ 0 :: rest)) =
      some topic.length := scanUntil_append hashtag hfree _
  have hlength : strlen (commandType :: separator :: (topic ++ hashtag :: (message ++ 0 :: rest)))
      = some (topic.length + message.length + 3) := by
    have htext : NulFree (commandType :: separator :: (topic ++ hashtag :: message)) := by
      simp [htype, hseparator, htopic, hmessage]
    have hstring := strlen_append htext rest
    simp only [List.cons_append, List.append_assoc] at hstring
    rw [hstring]
    simp
    omega
  have hdrop : (topic ++ hashtag :: (message ++ 0 :: rest)).drop (topic.length + 1) =
      message ++ 0 :: rest := by
    simp
  -- the two blocks have exactly the sizes of the strings that are copied to them
  have hname : malloc ((topic.length + 1 : Nat) : Int) =
      some (([] : Bytes).map some ++ List.replicate (topic.length + 1) none) :=
    malloc_eq (topic.length + 1)
  have hsize : ((topic.length + message.length + 3 : Nat) : Int) -
      ((topic.length + 2 : Nat) : Int) = (message.length : Int) + 1 := by
    omega
  have hblock : malloc (1 + ((message.length : Int) + 1)) =
      some (([] : Bytes).map some ++ List.replicate (message.length + 2) none) := by
    rw [List.map_nil, List.nil_append, ← malloc_eq]
    congr 1
    omega
  have hnameString : cstring ([] ++ topic ++ [0]) = some topic := cstring_append htopic []
  have hmessageString : cstring ([] ++ [hashtag] ++ (message ++ [0])) =
      some (hashtag :: message) :=
    cstring_append (s := hashtag :: message) (by simp [hmessage]) []
  simp only [extractForPublish, List.drop_succ_cons, List.drop_zero, hscan, hlength, hdrop, hname,
    hsize, hblock, Option.bind_eq_bind, Option.bind_some, Nat.add_sub_cancel]
  simp (disch := simp) only [memcpyS_eq, strcpyS_eq _ _ hmessage, Block.store_append,
    Block.cstring_full, hnameString, hmessageString, Option.bind_some]
  rfl

/-- {lit}`extract_for_publish` takes a publish command apart at its second number sign. -/
theorem extractForPublish_eq {topic message : Bytes}
    (hc : (Command.publish topic message).WellFormed) (rest : Bytes) :
    extractForPublish ((Command.publish topic message).text ++ 0 :: rest) =
      some (topic, hashtag :: message) := by
  have hmessage : NulFree message := ((nulFree_cons _ _).mp hc.tail_nulFree).2
  have htext : (Command.publish topic message).text ++ 0 :: rest =
      byteOf '2' :: hashtag :: (topic ++ hashtag :: (message ++ 0 :: rest)) := by
    simp [Command.text, Command.type, Command.topic, Command.tail]
  rw [htext]
  exact extractForPublish_text (by decide) hashtag_ne_nul hc.topic_nulFree hc.topic_hashtagFree
    hmessage rest

/-- {lit}`extract_topic_name` copies what is behind the second byte of a command. -/
theorem extractTopicName_eq {commandType separator : Byte} {topic : Bytes}
    (htype : commandType ≠ 0) (hseparator : separator ≠ 0) (htopic : NulFree topic)
    (rest : Bytes) :
    extractTopicName (commandType :: separator :: (topic ++ 0 :: rest)) = some topic := by
  have hbegins : NulFree [commandType, separator] := by simp [htype, hseparator]
  exact copyFrom_eq hbegins htopic rest

/-- What the stats manager is told about a command: the command without its message. -/
def notificationOf (c : Command) : Bytes :=
  hashtag :: c.type :: hashtag :: c.topic

/-- Copying a header and the byte behind it, and overwriting that byte with a
terminator. -/
private theorem copyHeader_eq {header : Bytes} (hheader : NulFree header) (b : Byte)
    (rest : Bytes) :
    ((malloc ((header.length + 1 : Nat) : Int)).bind fun block =>
      (memcpy block 0 (header ++ b :: rest) (header.length + 1)).bind fun block =>
        (block.store header.length [0]).bind Block.cstring) = some header := by
  have hblock : malloc ((header.length + 1 : Nat) : Int) =
      some (([] : Bytes).map some ++ List.replicate (header.length + 1) none) :=
    malloc_eq (header.length + 1)
  have hsplit : header ++ b :: rest = (header ++ [b]) ++ rest := by simp
  have hcut : Block.store (header.map some ++ [some b] ++ []) header.length [0] =
      some (header.map some ++ [0].map some ++ []) :=
    Block.store_over _ _ _ (by simp) rfl
  have hcopied : ([] ++ (header ++ [b])).map some ++
      List.replicate (header.length + 1 - (header ++ [b]).length) none =
        header.map some ++ [some b] ++ [] := by simp
  have hfull : header.map some ++ [0].map some ++ [] =
      (header ++ [0]).map some ++ List.replicate 0 none := by simp
  rw [hblock, hsplit]
  simp (disch := simp) only [memcpy_eq, Block.store_append, Option.bind_some, hcopied, hcut]
  rw [hfull, Block.cstring_full _ rfl]
  exact cstring_append hheader []

/-- {lit}`notify_stats_manager` cuts a command of type {lit}`2` at the number sign at which
{lit}`extract_for_publish` takes it apart. -/
theorem notifyStatsManager_publish {separator : Byte} {topic : Bytes}
    (hseparator : separator ≠ 0) (htopic : NulFree topic) (hfree : ∀ b ∈ topic, b ≠ hashtag)
    (rest : Bytes) :
    notifyStatsManager (hashtag :: byteOf '2' :: separator :: (topic ++ hashtag :: rest)) =
      some (hashtag :: byteOf '2' :: separator :: topic) := by
  have hheader : NulFree (hashtag :: byteOf '2' :: separator :: topic) := by
    simp [hseparator, htopic, byteOf]
  have hscan : scanUntil hashtag (topic ++ hashtag :: rest) = some topic.length :=
    scanUntil_append hashtag hfree _
  simp only [notifyStatsManager, List.getElem?_cons_succ, List.getElem?_cons_zero, if_true,
    List.drop_succ_cons, List.drop_zero, hscan, Option.bind_eq_bind, Option.bind_some,
    Nat.add_sub_cancel]
  exact copyHeader_eq hheader hashtag rest

/-- {lit}`notify_stats_manager` sends a command of another type as it is. -/
theorem notifyStatsManager_other {commandType : Byte} {text : Bytes}
    (hother : commandType ≠ byteOf '2') (htext : NulFree (commandType :: text)) (rest : Bytes) :
    notifyStatsManager (hashtag :: commandType :: (text ++ 0 :: rest)) =
      some (hashtag :: commandType :: text) := by
  rw [notifyStatsManager, if_neg (by simpa using hother)]
  exact cstring_append (s := hashtag :: commandType :: text) (by simpa using htext) rest

/-- {lit}`notify_stats_manager` cuts a publish command at its second number sign and
sends any other command as it is. -/
theorem notifyStatsManager_eq {c : Command} (hc : c.WellFormed) (rest : Bytes) :
    notifyStatsManager (hashtag :: (c.text ++ 0 :: rest)) = some (notificationOf c) := by
  cases c with
  | publish topic message =>
      have htext : hashtag :: ((Command.publish topic message).text ++ 0 :: rest) =
          hashtag :: byteOf '2' :: hashtag :: (topic ++ hashtag :: (message ++ 0 :: rest)) := by
        simp [Command.text, Command.type, Command.topic, Command.tail]
      rw [htext]
      exact notifyStatsManager_publish hashtag_ne_nul hc.topic_nulFree hc.topic_hashtagFree _
  | subscribe topic | topicExists topic | subscriberNumber topic | unsubscribe topic =>
      simp only [Command.text, Command.tail, List.append_nil]
      exact notifyStatsManager_other (by simp [Command.type, byteOf])
        (by simp [Command.type_ne_nul, hc.topic_nulFree]) rest

/-! ## What executing a command does -/

/-- The request of a command, carried out on the topics: the topics afterwards, the
response, and whether the request has succeeded. -/
def perform (topics : List Topic) (connectionSocketPtr : SocketPtr) :
    Command → Option (List Topic × Option Bytes × Bool)
  | .publish topic message =>
      let (topics, success) := publish topics topic (hashtag :: message)
      some (topics, none, success)
  | .subscribe topic =>
      let (topics, success) := subscribe topics topic connectionSocketPtr
      some (topics, none, success)
  | .topicExists topic =>
      some (topics, some (topicExists topics topic), (getTopicByName topics topic).isSome)
  | .subscriberNumber topic =>
      (subscriberNumber topics topic).map fun response =>
        (topics, some response, (getTopicByName topics topic).isSome)
  | .unsubscribe topic =>
      let (topics, success) := unsubscribe topics topic connectionSocketPtr
      some (topics, none, success)

/-- The response to a query for a topic's existence starts with a one if it exists. -/
theorem topicExists_one_iff (topics : List Topic) (topic : Bytes) :
    ((topicExists topics topic)[0]? = some (byteOf '1')) ↔
      (getTopicByName topics topic).isSome = true := by
  unfold topicExists
  cases getTopicByName topics topic <;> simp [byteOf]

/-- The response to a query for the number of subscribers starts with a number sign
if the topic does not exist, and is a numeral otherwise. -/
theorem subscriberNumber_hashtag_iff {topics : List Topic} {topic response : Bytes}
    (hresponse : subscriberNumber topics topic = some response) :
    response[0]? ≠ some hashtag ↔ (getTopicByName topics topic).isSome = true := by
  unfold subscriberNumber at hresponse
  cases hget : getTopicByName topics topic with
  | none =>
      simp only [hget, Option.some.injEq] at hresponse
      simp [← hresponse]
  | some i =>
      simp only [hget, itoaS] at hresponse
      split at hresponse
      · have hdigits := Option.some.inj hresponse
        rcases List.exists_cons_of_ne_nil
          (decimal_ne_nil topics[i].subscriberConnectionSockets.length) with ⟨d, ds, hds⟩
        have hdigit : isDigit d = true := mem_decimal (by rw [hds]; simp)
        have hne : d ≠ hashtag := by
          intro heq
          subst heq
          contradiction
        rw [hds] at hdigits
        simp [← hdigits, hne]
      · contradiction

/-- {lit}`execute_command` carries out the request of a well-formed command, whatever is
behind it in the buffer, and notifies the stats manager exactly on success. -/
theorem executeCommand_eq (topics : List Topic) (connectionSocketPtr : SocketPtr) {c : Command}
    (hc : c.WellFormed) (rest : Bytes) :
    executeCommand topics (c.text ++ 0 :: rest) connectionSocketPtr =
      (perform topics connectionSocketPtr c).map fun (topics, response, success) =>
        ⟨topics, response, if success then some (notificationOf c) else none⟩ := by
  have hnotify : ∀ success, notifyOnSuccess (c.text ++ 0 :: rest) success =
      some (if success then some (notificationOf c) else none) := by
    intro success
    cases success with
    | false => rfl
    | true => simp [notifyOnSuccess, notifyStatsManager_eq hc]
  have htopic : extractTopicName (c.type :: hashtag :: (c.topic ++ 0 :: rest)) = some c.topic :=
    extractTopicName_eq c.type_ne_nul hashtag_ne_nul hc.topic_nulFree rest
  cases c with
  | publish topic message =>
      have hextract := extractForPublish_eq hc rest
      have htext : ∃ t, (Command.publish topic message).text ++ 0 :: rest = byteOf '2' :: t :=
        ⟨_, rfl⟩
      rcases htext with ⟨t, htext⟩
      rw [htext] at hextract hnotify ⊢
      simp [executeCommand, hextract, hnotify, perform]
  | subscribe topic | unsubscribe topic =>
      simp only [Command.text, Command.type, Command.topic, Command.tail, List.append_nil,
        List.cons_append] at htopic hnotify ⊢
      simp +decide [executeCommand, htopic, hnotify, perform]
  | topicExists topic =>
      simp only [Command.text, Command.type, Command.topic, Command.tail, List.append_nil,
        List.cons_append] at htopic hnotify ⊢
      simp +decide [executeCommand, htopic, hnotify, perform, topicExists_one_iff]
  | subscriberNumber topic =>
      simp only [Command.text, Command.type, Command.topic, Command.tail, List.append_nil,
        List.cons_append] at htopic hnotify ⊢
      cases hresponse : subscriberNumber topics topic with
      | none => simp +decide [executeCommand, htopic, hresponse, perform]
      | some response =>
          have hiff := subscriberNumber_hashtag_iff hresponse
          simp +decide [executeCommand, htopic, hnotify, hresponse, perform, ← hiff]

/-! ## How commands change the topics -/

/-- What executing any command, well-formed or not, can do to the topics. -/
theorem executeCommand_topics {topics : List Topic} {command : Bytes}
    {connectionSocketPtr : SocketPtr} {execution : Execution}
    (h : executeCommand topics command connectionSocketPtr = some execution) :
    execution.topics = topics ∨
      (∃ topicName message, execution.topics = (publish topics topicName message).1) ∨
      (∃ topicName, execution.topics = (subscribe topics topicName connectionSocketPtr).1) ∨
      ∃ topicName, execution.topics = (unsubscribe topics topicName connectionSocketPtr).1 := by
  unfold executeCommand at h
  split at h
  · contradiction
  split at h
  · simp only [Option.bind_eq_bind, Option.bind_eq_some_iff, Option.pure_def,
      Option.some.injEq] at h
    rcases h with ⟨⟨topicName, message⟩, -, notification, -, rfl⟩
    exact .inr (.inl ⟨topicName, message, rfl⟩)
  split at h
  · simp only [Option.bind_eq_bind, Option.bind_eq_some_iff, Option.pure_def,
      Option.some.injEq] at h
    rcases h with ⟨topicName, -, notification, -, rfl⟩
    exact .inr (.inr (.inl ⟨topicName, rfl⟩))
  split at h
  · simp only [Option.bind_eq_bind, Option.bind_eq_some_iff, Option.pure_def,
      Option.some.injEq] at h
    rcases h with ⟨topicName, -, notification, -, rfl⟩
    exact .inl rfl
  split at h
  · simp only [Option.bind_eq_bind, Option.bind_eq_some_iff, Option.pure_def,
      Option.some.injEq] at h
    rcases h with ⟨topicName, -, response, -, notification, -, rfl⟩
    exact .inl rfl
  split at h
  · simp only [Option.bind_eq_bind, Option.bind_eq_some_iff, Option.pure_def,
      Option.some.injEq] at h
    rcases h with ⟨topicName, -, notification, -, rfl⟩
    exact .inr (.inr (.inr ⟨topicName, rfl⟩))
  · rw [Option.some.injEq] at h
    exact .inl (h ▸ rfl)

/-- Every subscriber in {lit}`topics'` is one in {lit}`topics` or the given socket pointer. -/
def SubscribersFrom (connectionSocketPtr : SocketPtr) (topics topics' : List Topic) : Prop :=
  ∀ topic' ∈ topics', ∀ p ∈ topic'.subscriberConnectionSockets,
    p = connectionSocketPtr ∨ ∃ topic ∈ topics, p ∈ topic.subscriberConnectionSockets

theorem subscribersFrom_refl (connectionSocketPtr : SocketPtr) (topics : List Topic) :
    SubscribersFrom connectionSocketPtr topics topics :=
  fun topic htopic _ hp => .inr ⟨topic, htopic, hp⟩

theorem SubscribersFrom.trans {connectionSocketPtr : SocketPtr}
    {topics topics' topics'' : List Topic} (h : SubscribersFrom connectionSocketPtr topics topics')
    (h' : SubscribersFrom connectionSocketPtr topics' topics'') :
    SubscribersFrom connectionSocketPtr topics topics'' := by
  intro topic'' htopic'' p hp
  rcases h' topic'' htopic'' p hp with heq | ⟨topic', htopic', hp'⟩
  · exact .inl heq
  · exact h topic' htopic' p hp'

/-- Replacing one topic by one whose subscribers are among the old ones and the socket
pointer. -/
theorem subscribersFrom_set {connectionSocketPtr : SocketPtr} {topics : List Topic}
    (i : Fin topics.length) {topic' : Topic}
    (hsubset : ∀ p ∈ topic'.subscriberConnectionSockets,
      p = connectionSocketPtr ∨ p ∈ topics[i].subscriberConnectionSockets) :
    SubscribersFrom connectionSocketPtr topics (topics.set i topic') := by
  intro topic htopic p hp
  rcases List.mem_or_eq_of_mem_set htopic with hmem | heq
  · exact .inr ⟨topic, hmem, hp⟩
  · subst heq
    rcases hsubset p hp with heq | hmem
    · exact .inl heq
    · exact .inr ⟨topics[i], List.getElem_mem i.isLt, hmem⟩

/-- Executing a command subscribes nobody but the client that sent it. -/
theorem executeCommand_subscribers {topics : List Topic} {command : Bytes}
    {connectionSocketPtr : SocketPtr} {execution : Execution}
    (h : executeCommand topics command connectionSocketPtr = some execution) :
    SubscribersFrom connectionSocketPtr topics execution.topics := by
  rcases executeCommand_topics h with heq | ⟨topicName, message, heq⟩ | ⟨topicName, heq⟩ |
    ⟨topicName, heq⟩
  · rw [heq]
    exact subscribersFrom_refl _ _
  · rw [heq, publish]
    split
    · exact subscribersFrom_refl _ _
    · next i _ => exact subscribersFrom_set i fun p hp => .inr hp
  · rw [heq, subscribe]
    split
    · exact subscribersFrom_refl _ _
    · next i _ =>
      split
      · exact subscribersFrom_set i fun p hp => List.mem_cons.mp hp
      · exact subscribersFrom_refl _ _
  · rw [heq, unsubscribe]
    split
    · exact subscribersFrom_refl _ _
    · next i _ =>
      split
      · exact subscribersFrom_set i fun p hp => .inr (List.mem_of_mem_erase hp)
      · exact subscribersFrom_refl _ _

end Broker
end PubSub
