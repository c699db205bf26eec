import PubSub.Broker.CommandExecution
import PubSub.Foundations.SizedCalls

/-!
# Malformed commands

{lit}`execute_command` does not check that a command is long enough for its type, nor that a
command of type {lit}`2` has a second number sign.  Where the fields are missing, it reads on
behind the terminator of the frame or passes a size of zero.

The functions that take commands apart are instrumented: they record the sizes that they
pass to {lit}`malloc`, {lit}`memcpy_s` and {lit}`strcpy_s`.  A read behind the end of the memory
and a write that does not fit its block make an execution fail, so a command is contained if its
execution succeeds on a memory that ends with its terminator.

Main results:

- Theorem {lit}`erase_executeCommandSized`: the instrumented {lit}`execute_command` computes
  what {lit}`execute_command` does.
- Theorem {lit}`contained_iff`: a command is contained exactly when it has the fields that
  its type needs.
-/

namespace PubSub
namespace Broker

open Foundations Client

/-! ## The instrumented functions -/

/-- {lit}`extract_for_publish`, instrumented. -/
def extractForPublishSized (command : Bytes) : Sized (Bytes × Bytes) := do
  let length ← (scanUntil hashtag (command.drop 2) : Sized Nat)
  let secondHashtagIndex := length + 2
  let topicNameSize := secondHashtagIndex - 2 + 1
  let topicName ← Sized.malloc topicNameSize
  let topicName ← Sized.memcpyS topicName 0 (topicNameSize - 1 : Nat) (command.drop 2)
    (topicNameSize - 1 : Nat)
  let topicName ← (topicName.store (topicNameSize - 1) [0] : Sized Block)
  let commandLength ← (strlen command : Sized Nat)
  let messageSize : Int := commandLength - secondHashtagIndex
  let message ← Sized.malloc (1 + messageSize)
  let message ← (message.store 0 [hashtag] : Sized Block)
  let message ← Sized.strcpyS message 1 messageSize (command.drop (secondHashtagIndex + 1))
  let topicName ← (topicName.cstring : Sized Bytes)
  let message ← (message.cstring : Sized Bytes)
  return (topicName, message)

/-- {lit}`extract_topic_name`, instrumented. -/
def extractTopicNameSized (command : Bytes) : Sized Bytes :=
  Sized.copyFrom 2 command

/-- {lit}`notify_stats_manager`, instrumented. -/
def notifyStatsManagerSized (commandWithStartHashtag : Bytes) : Sized Bytes :=
  if commandWithStartHashtag[1]? = some (byteOf '2') then do
    let length ← (scanUntil hashtag (commandWithStartHashtag.drop 3) : Sized Nat)
    let secondHashtagIndex := length + 3
    let commandWithoutMessageSize := secondHashtagIndex + 1
    let commandWithoutMessage ← Sized.malloc commandWithoutMessageSize
    let commandWithoutMessage ← (memcpy commandWithoutMessage 0 commandWithStartHashtag
      commandWithoutMessageSize : Sized Block)
    let commandWithoutMessage ←
      (commandWithoutMessage.store (commandWithoutMessageSize - 1) [0] : Sized Block)
    (commandWithoutMessage.cstring : Sized Bytes)
  else (cstring commandWithStartHashtag : Sized Bytes)

def notifyOnSuccessSized (command : Bytes) (success : Bool) : Sized (Option Bytes) :=
  if success then do
    let notification ← notifyStatsManagerSized (hashtag :: command)
    return some notification
  else return none

/-- {lit}`execute_command`, instrumented.  A response is allocated with two bytes, or with six. -/
def executeCommandSized (topics : List Topic) (command : Bytes)
    (connectionSocketPtr : SocketPtr) : Sized Execution :=
  match command with
  | [] => (none : Option Execution)
  | commandType :: _ =>
      if commandType = byteOf '2' then do
        let (topicName, message) ← extractForPublishSized command
        let (topics, success) := publish topics topicName message
        let notification ← notifyOnSuccessSized command success
        return ⟨topics, none, notification⟩
      else if commandType = byteOf '3' then do
        let topicName ← extractTopicNameSized command
        let (topics, success) := subscribe topics topicName connectionSocketPtr
        let notification ← notifyOnSuccessSized command success
        return ⟨topics, none, notification⟩
      else if commandType = byteOf '4' then do
        let topicName ← extractTopicNameSized command
        tell [2]
        let response := topicExists topics topicName
        let notification ← notifyOnSuccessSized command (response[0]? = some (byteOf '1'))
        return ⟨topics, some response, notification⟩
      else if commandType = byteOf '5' then do
        let topicName ← extractTopicNameSized command
        tell [5 + 1]
        let response ← (subscriberNumber topics topicName : Sized Bytes)
        let notification ← notifyOnSuccessSized command (response[0]? ≠ some hashtag)
        return ⟨topics, some response, notification⟩
      else if commandType = byteOf '6' then do
        let topicName ← extractTopicNameSized command
        let (topics, success) := unsubscribe topics topicName connectionSocketPtr
        let notification ← notifyOnSuccessSized command success
        return ⟨topics, none, notification⟩
      else return ⟨topics, none, none⟩

/-! ## Erasing the records -/

theorem erase_extractForPublishSized (command : Bytes) :
    (extractForPublishSized command).erase = extractForPublish command := by
  simp [extractForPublishSized, extractForPublish]

theorem erase_extractTopicNameSized (command : Bytes) :
    (extractTopicNameSized command).erase = extractTopicName command := by
  simp [extractTopicNameSized, extractTopicName]

theorem erase_notifyOnSuccessSized (command : Bytes) (success : Bool) :
    (notifyOnSuccessSized command success).erase = notifyOnSuccess command success := by
  cases success with
  | false => rfl
  | true =>
      have hnotify : (notifyStatsManagerSized (hashtag :: command)).erase =
          notifyStatsManager (hashtag :: command) := by
        unfold notifyStatsManagerSized notifyStatsManager
        split <;> simp
      simp only [notifyOnSuccessSized, notifyOnSuccess, if_true, Sized.erase_bind, hnotify,
        Sized.erase_pure]
      cases notifyStatsManager (hashtag :: command) <;> rfl

/-- The instrumented {lit}`execute_command` computes what {lit}`execute_command` does. -/
theorem erase_executeCommandSized (topics : List Topic) (command : Bytes)
    (connectionSocketPtr : SocketPtr) :
    (executeCommandSized topics command connectionSocketPtr).erase =
      executeCommand topics command connectionSocketPtr := by
  cases command with
  | nil => rfl
  | cons commandType fields =>
      simp only [executeCommandSized, executeCommand]
      split_ifs <;>
        simp [erase_extractForPublishSized, erase_extractTopicNameSized,
          erase_notifyOnSuccessSized]

/-! ## Contained commands -/

/-- The types that {lit}`execute_command` knows and that name a topic with the rest of the
command. -/
def namingTypes : List Byte :=
  bytesOf ['3', '4', '5', '6']

/-- The text of a frame, without its number sign and its terminator, has the fields that its
type needs: two bytes and a topic name, which a command of type {lit}`2` ends with a number sign
and which then is not empty. -/
def HasFields : Bytes → Prop
  | [] => True
  | [commandType] => commandType ≠ byteOf '2' ∧ commandType ∉ namingTypes
  | commandType :: _ :: fields =>
      commandType = byteOf '2' → fields.head? ≠ some hashtag ∧ hashtag ∈ fields

/-- Executing a command depends on nothing behind its terminator and passes only positive sizes,
and fails only where the response to a query for the number of subscribers has no room for
it. -/
structure Contained (text : Bytes) : Prop where
  result : ∀ topics connectionSocketPtr rest,
    executeCommand topics (text ++ 0 :: rest) connectionSocketPtr =
      executeCommand topics (text ++ [0]) connectionSocketPtr
  completes : ∀ topics connectionSocketPtr,
    executeCommand topics (text ++ [0]) connectionSocketPtr = none →
      ∃ topicName, subscriberNumber topics topicName = none
  sizes : ∀ topics connectionSocketPtr, ∃ sizes : List Int, (∀ size ∈ sizes, 0 < size) ∧
    ∀ rest, (executeCommandSized topics (text ++ 0 :: rest) connectionSocketPtr).Records sizes

/-! ### Other types -/

/-- A command of another type has no effect, whatever it consists of. -/
theorem executeCommand_other {commandType : Byte} (hpublish : commandType ≠ byteOf '2')
    (hnaming : commandType ∉ namingTypes) (fields : Bytes) (topics : List Topic)
    (connectionSocketPtr : SocketPtr) :
    executeCommand topics (commandType :: fields) connectionSocketPtr =
        some ⟨topics, none, none⟩ ∧
      (executeCommandSized topics (commandType :: fields) connectionSocketPtr).Records [] := by
  simp only [namingTypes, bytesOf, List.map_cons, List.map_nil, List.mem_cons, List.not_mem_nil,
    or_false, not_or] at hnaming
  rcases hnaming with ⟨hsubscribe, hexists, hnumber, hunsubscribe⟩
  constructor
  · simp [executeCommand, hpublish, hsubscribe, hexists, hnumber, hunsubscribe]
  · simp only [executeCommandSized, hpublish, hsubscribe, hexists, hnumber, hunsubscribe, if_false]
    exact Sized.Records.pure _

theorem contained_other {commandType : Byte} (hpublish : commandType ≠ byteOf '2')
    (hnaming : commandType ∉ namingTypes) {text : Bytes}
    (hhead : ∀ rest, ∃ fields, text ++ 0 :: rest = commandType :: fields) : Contained text := by
  have hexecuted : ∀ topics connectionSocketPtr rest,
      executeCommand topics (text ++ 0 :: rest) connectionSocketPtr =
          some ⟨topics, none, none⟩ ∧
        (executeCommandSized topics (text ++ 0 :: rest) connectionSocketPtr).Records [] := by
    intro topics connectionSocketPtr rest
    rcases hhead rest with ⟨fields, hfields⟩
    rw [hfields]
    exact executeCommand_other hpublish hnaming fields topics connectionSocketPtr
  constructor
  · intro topics connectionSocketPtr rest
    rw [(hexecuted topics connectionSocketPtr rest).1, (hexecuted topics connectionSocketPtr []).1]
  · intro topics connectionSocketPtr hnone
    rw [(hexecuted topics connectionSocketPtr []).1] at hnone
    contradiction
  · intro topics connectionSocketPtr
    exact ⟨[], by simp, fun rest => (hexecuted topics connectionSocketPtr rest).2⟩

/-! ### Types that name a topic -/

section Naming

variable {commandType separator : Byte} {topicName : Bytes}

theorem ne_publish_of_mem_namingTypes (hnaming : commandType ∈ namingTypes) :
    commandType ≠ byteOf '2' := by
  rintro rfl
  revert hnaming
  decide

theorem nulFree_of_mem_namingTypes (hnaming : commandType ∈ namingTypes)
    (hseparator : separator ≠ 0) (htopicName : NulFree topicName) :
    NulFree (commandType :: separator :: topicName) := by
  have htype : commandType ≠ 0 := by
    rintro rfl
    revert hnaming
    decide
  simp [htype, hseparator, htopicName]

/-- Such a command is passed on as it is. -/
theorem notifyOnSuccess_naming (hnaming : commandType ∈ namingTypes) (hseparator : separator ≠ 0)
    (htopicName : NulFree topicName) (rest : Bytes) (success : Bool) :
    notifyOnSuccess (commandType :: separator :: (topicName ++ 0 :: rest)) success =
      some (if success then some (hashtag :: commandType :: separator :: topicName) else none) := by
  have hnotify := notifyStatsManager_other (ne_publish_of_mem_namingTypes hnaming)
    (nulFree_of_mem_namingTypes hnaming hseparator htopicName) rest
  rw [List.cons_append] at hnotify
  cases success with
  | false => rfl
  | true => simp [notifyOnSuccess, hnotify]

theorem records_notifyOnSuccessSized_naming (hnaming : commandType ∈ namingTypes)
    (fields : Bytes) (success : Bool) :
    (notifyOnSuccessSized (commandType :: fields) success).Records [] := by
  have hpublish := ne_publish_of_mem_namingTypes hnaming
  cases success with
  | false => exact Sized.Records.pure _
  | true =>
      simp only [notifyOnSuccessSized, notifyStatsManagerSized, List.getElem?_cons_succ,
        List.getElem?_cons_zero, Option.some.injEq, hpublish, if_false, if_true]
      exact Sized.Records.bind_lift fun _ _ => Sized.Records.pure _

/-- The sizes do not depend on what follows the terminator. -/
theorem records_extractTopicNameSized (hnaming : commandType ∈ namingTypes)
    (hseparator : separator ≠ 0) (htopicName : NulFree topicName) (rest : Bytes) :
    (extractTopicNameSized (commandType :: separator :: (topicName ++ 0 :: rest))).Records
      [(topicName.length : Int) + 1, (topicName.length : Int) + 1] := by
  have hlength := strlen_append (nulFree_of_mem_namingTypes hnaming hseparator htopicName) rest
  have hrecords := Sized.Records.copyFrom 2 hlength
  have hsize : (((commandType :: separator :: topicName).length : Nat) : Int) + 1 - (2 : Nat) =
      (topicName.length : Int) + 1 := by
    simp only [List.length_cons]
    omega
  rw [hsize] at hrecords
  exact hrecords

/-- The topic name is copied, and two of the types allocate a response. -/
theorem records_executeCommandSized_naming (hnaming : commandType ∈ namingTypes)
    (hseparator : separator ≠ 0) (htopicName : NulFree topicName) (topics : List Topic)
    (connectionSocketPtr : SocketPtr) :
    ∃ response : List Int, (∀ size ∈ response, 0 < size) ∧ ∀ rest,
      (executeCommandSized topics (commandType :: separator :: (topicName ++ 0 :: rest))
        connectionSocketPtr).Records
          ([(topicName.length : Int) + 1, (topicName.length : Int) + 1] ++ response) := by
  have hcopied := records_extractTopicNameSized hnaming hseparator htopicName
  have hnotified := fun rest => records_notifyOnSuccessSized_naming hnaming
    (separator :: (topicName ++ 0 :: rest))
  simp only [namingTypes, bytesOf, List.map_cons, List.map_nil, List.mem_cons, List.not_mem_nil,
    or_false] at hnaming
  rcases hnaming with rfl | rfl | rfl | rfl
  · refine ⟨[], by simp, fun rest => (hcopied rest).bind fun _ _ => ?_⟩
    exact (hnotified rest _).bind (t := []) fun _ _ => Sized.Records.pure _
  · refine ⟨[2], by simp, fun rest => (hcopied rest).bind fun _ _ => ?_⟩
    refine (Sized.Records.tell [2]).bind (t := []) fun _ _ => ?_
    exact (hnotified rest _).bind (t := []) fun _ _ => Sized.Records.pure _
  · refine ⟨[5 + 1], by simp, fun rest => (hcopied rest).bind fun _ _ => ?_⟩
    refine (Sized.Records.tell [5 + 1]).bind (t := []) fun _ _ => ?_
    refine Sized.Records.bind_lift fun _ _ => ?_
    exact (hnotified rest _).bind (t := []) fun _ _ => Sized.Records.pure _
  · refine ⟨[], by simp, fun rest => (hcopied rest).bind fun _ _ => ?_⟩
    exact (hnotified rest _).bind (t := []) fun _ _ => Sized.Records.pure _

/-- Only a query for the number of subscribers can fail. -/
theorem executeCommand_naming (hnaming : commandType ∈ namingTypes) (hseparator : separator ≠ 0)
    (htopicName : NulFree topicName) (topics : List Topic) (connectionSocketPtr : SocketPtr)
    (rest : Bytes) :
    executeCommand topics (commandType :: separator :: (topicName ++ 0 :: rest))
        connectionSocketPtr =
      executeCommand topics (commandType :: separator :: (topicName ++ [0])) connectionSocketPtr ∧
    (executeCommand topics (commandType :: separator :: (topicName ++ [0])) connectionSocketPtr =
      none → subscriberNumber topics topicName = none) := by
  have htype : commandType ≠ 0 :=
    ((nulFree_cons _ _).mp (nulFree_of_mem_namingTypes hnaming hseparator htopicName)).1
  have hextract := extractTopicName_eq htype hseparator htopicName
  have hnotify := notifyOnSuccess_naming hnaming hseparator htopicName
  simp only [namingTypes, bytesOf, List.map_cons, List.map_nil, List.mem_cons, List.not_mem_nil,
    or_false] at hnaming
  rcases hnaming with rfl | rfl | rfl | rfl
  · simp +decide [executeCommand, hextract, hnotify]
  · simp +decide [executeCommand, hextract, hnotify]
  · cases hnumber : subscriberNumber topics topicName <;>
      simp +decide [executeCommand, hextract, hnotify, hnumber]
  · simp +decide [executeCommand, hextract, hnotify]

theorem contained_naming (hnaming : commandType ∈ namingTypes) (hseparator : separator ≠ 0)
    (htopicName : NulFree topicName) : Contained (commandType :: separator :: topicName) := by
  constructor
  · intro topics connectionSocketPtr rest
    exact (executeCommand_naming hnaming hseparator htopicName topics connectionSocketPtr rest).1
  · intro topics connectionSocketPtr hnone
    exact ⟨topicName,
      (executeCommand_naming hnaming hseparator htopicName topics connectionSocketPtr []).2 hnone⟩
  · intro topics connectionSocketPtr
    rcases records_executeCommandSized_naming hnaming hseparator htopicName topics
      connectionSocketPtr with ⟨response, hresponse, hrecords⟩
    refine ⟨_, ?_, hrecords⟩
    intro size hmem
    rcases List.mem_append.mp hmem with hcopied | hallocated
    · simp only [List.mem_cons, List.not_mem_nil, or_false, or_self] at hcopied
      omega
    · exact hresponse size hallocated

end Naming

/-! ### Publish commands -/

section Publish

variable {separator : Byte} {topicName message : Bytes}

/-- The blocks and the destinations for the topic name and for the message. -/
theorem records_extractForPublishSized (hseparator : separator ≠ 0) (htopicName : NulFree topicName)
    (hfree : ∀ b ∈ topicName, b ≠ hashtag) (hmessage : NulFree message) (rest : Bytes) :
    (extractForPublishSized
        (byteOf '2' :: separator :: (topicName ++ hashtag :: (message ++ 0 :: rest)))).Records
      [(topicName.length : Int) + 1, (topicName.length : Int), (message.length : Int) + 2,
        (message.length : Int) + 1] := by
  have htext : NulFree (byteOf '2' :: separator :: (topicName ++ hashtag :: message)) := by
    simp [hseparator, htopicName, hmessage, byteOf]
  have hlength := strlen_append htext rest
  simp only [List.cons_append, List.append_assoc] at hlength
  have hscan : scanUntil hashtag (topicName ++ hashtag :: (message ++ 0 :: rest)) =
      some topicName.length := scanUntil_append hashtag hfree _
  unfold extractForPublishSized
  refine Sized.Records.bind_lift fun length hscanned => ?_
  rw [List.drop_succ_cons, List.drop_succ_cons, List.drop_zero, hscan, Option.some.injEq]
    at hscanned
  subst hscanned
  refine (Sized.Records.malloc _).bind (t := [_, _, _]) fun _ _ => ?_
  refine (Sized.Records.memcpyS _ _ _ _ _).bind (t := [_, _]) fun _ _ => ?_
  refine Sized.Records.bind_lift fun _ _ => ?_
  refine Sized.Records.bind_lift fun commandLength hcommandLength => ?_
  rw [hlength, Option.some.injEq] at hcommandLength
  have hmessageSize : (message.length : Int) + 1 =
      (commandLength : Int) - ((topicName.length + 2 : Nat) : Int) := by
    simp only [← hcommandLength, List.length_cons, List.length_append]
    omega
  have hblockSize : (message.length : Int) + 2 =
      1 + ((commandLength : Int) - ((topicName.length + 2 : Nat) : Int)) := by
    omega
  rw [hblockSize, hmessageSize]
  refine (Sized.Records.malloc _).bind (t := [_]) fun _ _ => ?_
  refine Sized.Records.bind_lift fun _ _ => ?_
  refine (Sized.Records.strcpyS _ _ _ _).bind (t := []) fun _ _ => ?_
  refine Sized.Records.bind_lift fun _ _ => Sized.Records.bind_lift fun _ _ => ?_
  exact Sized.Records.pure _

/-- The block for the notification. -/
theorem records_notifyOnSuccessSized_publish (separator : Byte)
    (hfree : ∀ b ∈ topicName, b ≠ hashtag) (success : Bool) :
    ∃ notification : List Int, (∀ size ∈ notification, 0 < size) ∧ ∀ rest,
      (notifyOnSuccessSized (byteOf '2' :: separator :: (topicName ++ hashtag :: rest))
        success).Records notification := by
  cases success with
  | false => exact ⟨[], by simp, fun _ => Sized.Records.pure _⟩
  | true =>
      refine ⟨[(topicName.length + 3 + 1 : Nat)], by simp; omega, fun rest => ?_⟩
      have hscan : scanUntil hashtag (topicName ++ hashtag :: rest) = some topicName.length :=
        scanUntil_append hashtag hfree _
      simp only [notifyOnSuccessSized, notifyStatsManagerSized, List.getElem?_cons_succ,
        List.getElem?_cons_zero, if_true]
      refine Sized.Records.bind (s := [((topicName.length + 3 + 1 : Nat) : Int)]) (t := []) ?_
        fun _ _ => Sized.Records.pure _
      refine Sized.Records.bind_lift fun length hscanned => ?_
      simp only [List.drop_succ_cons, List.drop_zero, hscan, Option.some.injEq] at hscanned
      subst hscanned
      refine (Sized.Records.malloc _).bind (t := []) fun _ _ => ?_
      refine Sized.Records.bind_lift fun _ _ => Sized.Records.bind_lift fun _ _ => ?_
      exact Sized.Records.lift _

/-- A publish command is taken apart, and is published. -/
theorem executeCommand_publish (hseparator : separator ≠ 0) (htopicName : NulFree topicName)
    (hfree : ∀ b ∈ topicName, b ≠ hashtag) (hmessage : NulFree message) (topics : List Topic)
    (connectionSocketPtr : SocketPtr) (rest : Bytes) :
    executeCommand topics
        (byteOf '2' :: separator :: (topicName ++ hashtag :: (message ++ 0 :: rest)))
        connectionSocketPtr =
      some ⟨(publish topics topicName (hashtag :: message)).1, none,
        if (publish topics topicName (hashtag :: message)).2 then
          some (hashtag :: byteOf '2' :: separator :: topicName) else none⟩ := by
  have hextract := extractForPublish_text (by decide : byteOf '2' ≠ 0) hseparator htopicName
    hfree hmessage rest
  have hnotify := notifyStatsManager_publish hseparator htopicName hfree (message ++ 0 :: rest)
  rw [executeCommand, if_pos rfl, hextract]
  simp only [Option.bind_eq_bind, Option.bind_some, notifyOnSuccess]
  cases (publish topics topicName (hashtag :: message)).2 <;> simp [hnotify]

theorem records_executeCommandSized_publish (hseparator : separator ≠ 0)
    (htopicName : NulFree topicName) (hfree : ∀ b ∈ topicName, b ≠ hashtag)
    (hmessage : NulFree message) (topics : List Topic) (connectionSocketPtr : SocketPtr) :
    ∃ notification : List Int, (∀ size ∈ notification, 0 < size) ∧ ∀ rest,
      (executeCommandSized topics
        (byteOf '2' :: separator :: (topicName ++ hashtag :: (message ++ 0 :: rest)))
        connectionSocketPtr).Records
          ([(topicName.length : Int) + 1, (topicName.length : Int), (message.length : Int) + 2,
            (message.length : Int) + 1] ++ notification) := by
  rcases records_notifyOnSuccessSized_publish separator hfree
    (publish topics topicName (hashtag :: message)).2 with ⟨notification, hpositive, hnotified⟩
  refine ⟨notification, hpositive, fun rest => ?_⟩
  rw [executeCommandSized, if_pos rfl]
  refine (records_extractForPublishSized hseparator htopicName hfree hmessage rest).bind
    fun extracted hextracted => ?_
  rw [erase_extractForPublishSized, extractForPublish_text (by decide) hseparator htopicName hfree
    hmessage, Option.some.injEq] at hextracted
  subst hextracted
  have hrecords := (hnotified (message ++ 0 :: rest)).bind (t := [])
    fun notification _ => Sized.Records.pure (Execution.mk
      (publish topics topicName (hashtag :: message)).1 none notification)
  rwa [List.append_nil] at hrecords

theorem contained_publish (hseparator : separator ≠ 0) (htopicName : NulFree topicName)
    (hfree : ∀ b ∈ topicName, b ≠ hashtag) (hmessage : NulFree message) (hne : topicName ≠ []) :
    Contained (byteOf '2' :: separator :: (topicName ++ hashtag :: message)) := by
  have hexecuted := executeCommand_publish hseparator htopicName hfree hmessage
  have hlength : 0 < topicName.length := List.length_pos_iff.mpr hne
  constructor
  · intro topics connectionSocketPtr rest
    simp only [List.cons_append, List.append_assoc, hexecuted]
  · intro topics connectionSocketPtr hnone
    simp only [List.cons_append, List.append_assoc, hexecuted] at hnone
    contradiction
  · intro topics connectionSocketPtr
    rcases records_executeCommandSized_publish hseparator htopicName hfree hmessage topics
      connectionSocketPtr with ⟨notification, hpositive, hrecords⟩
    simp only [List.cons_append, List.append_assoc]
    refine ⟨_, ?_, hrecords⟩
    intro size hmem
    rcases List.mem_append.mp hmem with hextracted | hnotified
    · simp only [List.mem_cons, List.not_mem_nil, or_false] at hextracted
      omega
    · exact hpositive size hnotified

/-- An empty topic name is copied to a destination of size zero. -/
theorem not_contained_emptyTopicName (hseparator : separator ≠ 0) (hmessage : NulFree message) :
    ¬ Contained (byteOf '2' :: separator :: hashtag :: message) := by
  intro hcontained
  have hempty : ∀ b ∈ ([] : Bytes), b ≠ hashtag := by simp
  rcases records_executeCommandSized_publish hseparator nulFree_nil hempty hmessage [] 0 with
    ⟨notification, -, hrecords⟩
  rcases hcontained.sizes [] 0 with ⟨sizes, hpositive, hrecords'⟩
  have hexecuted := executeCommand_publish hseparator nulFree_nil hempty hmessage [] 0 []
  have hrun := (hrecords []).run_eq
  rw [erase_executeCommandSized, hexecuted, Option.map_some] at hrun
  have hsizes := hrecords' [] _ _ hrun
  have hzero := hpositive 0 (by rw [← hsizes]; simp)
  omega

end Publish

/-! ### Commands without their fields -/

/-- No room for the topic name: the size is zero, and the copy begins behind the terminator. -/
theorem executeCommand_eq_none_of_short {commandType : Byte} (hnaming : commandType ∈ namingTypes) :
    executeCommand [] [commandType, 0] 0 = none := by
  simp only [namingTypes, bytesOf, List.map_cons, List.map_nil, List.mem_cons, List.not_mem_nil,
    or_false] at hnaming
  rcases hnaming with rfl | rfl | rfl | rfl <;> rfl

/-- The search for the second number sign leaves the frame. -/
theorem executeCommand_eq_none_of_hashtagFree {fields : Bytes}
    (hfree : ∀ b ∈ fields.drop 1, b ≠ hashtag) :
    executeCommand [] (byteOf '2' :: (fields ++ [0])) 0 = none := by
  have hscan : scanUntil hashtag ((byteOf '2' :: (fields ++ [0])).drop 2) = none := by
    refine scanUntil_eq_none fun b hb => ?_
    rw [List.drop_succ_cons, List.drop_append] at hb
    rcases List.mem_append.mp hb with hfield | hterminator
    · exact hfree b hfield
    · rw [List.mem_singleton.mp (List.mem_of_mem_drop hterminator)]
      exact nul_ne_hashtag
  rw [executeCommand, if_pos rfl, extractForPublish, hscan]
  rfl

/-- In the empty broker, every response to a query has room. -/
theorem not_contained_of_eq_none {text : Bytes} (hnone : executeCommand [] (text ++ [0]) 0 = none) :
    ¬ Contained text := by
  intro hcontained
  rcases hcontained.completes [] 0 hnone with ⟨topicName, hnumber⟩
  contradiction

theorem contained_iff_of_publish {fields : Bytes} (hfields : NulFree fields) :
    Contained (byteOf '2' :: fields) ↔ HasFields (byteOf '2' :: fields) := by
  cases fields with
  | nil =>
      have hnot : ¬ Contained [byteOf '2'] :=
        not_contained_of_eq_none (executeCommand_eq_none_of_hashtagFree (by simp))
      exact ⟨fun hcontained => absurd hcontained hnot, fun hhas => absurd rfl hhas.1⟩
  | cons separator fields =>
      rw [nulFree_cons] at hfields
      have hhas : HasFields (byteOf '2' :: separator :: fields) ↔
          fields.head? ≠ some hashtag ∧ hashtag ∈ fields := by
        simp [HasFields]
      rw [hhas]
      by_cases hmem : hashtag ∈ fields
      · rcases List.eq_append_cons_of_mem hmem with ⟨topicName, message, rfl, hfree⟩
        have hparts := (nulFree_append _ _).mp hfields.2
        have hmessage := ((nulFree_cons _ _).mp hparts.2).2
        cases topicName with
        | nil =>
            have hnot := not_contained_emptyTopicName hfields.1 hmessage
            exact ⟨fun hcontained => absurd hcontained hnot, fun h => absurd rfl h.1⟩
        | cons b topicName =>
            have hb : b ≠ hashtag := fun heq => hfree (heq ▸ List.mem_cons_self)
            have hcontained := contained_publish hfields.1 hparts.1
              (fun d hd heq => hfree (heq ▸ hd)) hmessage (List.cons_ne_nil b topicName)
            exact ⟨fun _ => ⟨by simpa using hb, hmem⟩, fun _ => hcontained⟩
      · have hnot : ¬ Contained (byteOf '2' :: separator :: fields) :=
          not_contained_of_eq_none (executeCommand_eq_none_of_hashtagFree
            fun b hb heq => hmem (heq ▸ hb))
        exact ⟨fun hcontained => absurd hcontained hnot, fun h => absurd h.2 hmem⟩

/-- A frame is contained exactly when its text has the fields that its type needs. -/
theorem contained_iff {text : Bytes} (htext : NulFree text) : Contained text ↔ HasFields text := by
  cases text with
  | nil =>
      exact ⟨fun _ => trivial, fun _ =>
        contained_other (by decide) (by decide) fun rest => ⟨rest, rfl⟩⟩
  | cons commandType fields =>
      rw [nulFree_cons] at htext
      by_cases hpublish : commandType = byteOf '2'
      · rw [hpublish]
        exact contained_iff_of_publish htext.2
      by_cases hnaming : commandType ∈ namingTypes
      · cases fields with
        | nil =>
            have hnot : ¬ Contained [commandType] :=
              not_contained_of_eq_none (executeCommand_eq_none_of_short hnaming)
            exact ⟨fun hcontained => absurd hcontained hnot, fun hhas => absurd hnaming hhas.2⟩
        | cons separator topicName =>
            rw [nulFree_cons] at htext
            exact ⟨fun _ heq => absurd heq hpublish, fun _ =>
              contained_naming hnaming htext.2.1 htext.2.2⟩
      · have hcontained : Contained (commandType :: fields) :=
          contained_other hpublish hnaming fun rest => ⟨fields ++ 0 :: rest, rfl⟩
        refine ⟨fun _ => ?_, fun _ => hcontained⟩
        cases fields with
        | nil => exact ⟨hpublish, hnaming⟩
        | cons separator fields => exact fun heq => absurd heq hpublish

/-- A subscription. -/
theorem contained_subscribe : Contained (Command.subscribe news).text :=
  (contained_iff (by decide)).mpr (by simp [HasFields, Command.text, Command.type, byteOf])

/-- A publish command without a message. -/
theorem not_contained_publishNews : ¬ Contained (byteOf '2' :: hashtag :: news) :=
  not_contained_of_eq_none (by decide)

end Broker
end PubSub
