import PubSub.Common

/-!
# Commands and their frames

A client encodes every command as one frame: a number sign, the type, a number
sign, the topic, for a publish command a number sign and the message, and a
terminator.

Main results:

- Structure {lit}`Command`: what a client asks for, as opposed to its encoding.
- Theorem {lit}`createCommand_eq`: {lit}`create_command` allocates exactly the frame of the
  command and writes all of it.
-/

namespace PubSub
namespace Client

open Foundations

/-- {lit}`THIRD_HASHTAG_OFFSET`. -/
def thirdHashtagOffset (topicName : Bytes) : Option Nat :=
  (strlen topicName).map fun length => 1 + 1 + length + 1

/-- {lit}`create_publish_command`.  A null message has length minus one and is not read. -/
def createPublishCommand (topicNameLength : Nat) (messageLength : Int) (topicName : Bytes)
    (message : Option Bytes) : Option Block := do
  let command ← malloc (1 + 1 + 1 + topicNameLength + 1 + (messageLength + 1))
  let command ← command.store 0 [hashtag]
  let command ← command.store 1 [byteOf '2']
  let command ← command.store 2 [hashtag]
  let command ← memcpy command 3 topicName topicNameLength
  let offset ← thirdHashtagOffset topicName
  let command ← command.store offset [hashtag]
  memcpy command (offset + 1) (message.getD []) (messageLength + 1).toNat

/-- {lit}`create_nonpublish_command`. -/
def createNonpublishCommand (commandNum : Byte) (topicNameLength : Nat) (topicName : Bytes) :
    Option Block := do
  let command ← malloc (1 + 1 + 1 + topicNameLength + 1)
  let command ← command.store 0 [hashtag]
  let command ← command.store 1 [commandNum]
  let command ← command.store 2 [hashtag]
  memcpy command 3 topicName (topicNameLength + 1)

/-- {lit}`create_command`, given the memory that {lit}`topic_name` and {lit}`message` point to. -/
def createCommand (commandNum : Byte) (topicName : Bytes) (message : Option Bytes) :
    Option Block := do
  let topicNameLength ← strlen topicName
  let messageLength ← match message with
    | none => some (-1)
    | some message => (strlen message).map Nat.cast
  if commandNum = byteOf '2' then
    createPublishCommand topicNameLength messageLength topicName message
  else createNonpublishCommand commandNum topicNameLength topicName

/-! ## What a command is -/

/-- A command of a client, by its type. -/
inductive Command where
  | publish (topic message : Bytes)
  | subscribe (topic : Bytes)
  | topicExists (topic : Bytes)
  | subscriberNumber (topic : Bytes)
  | unsubscribe (topic : Bytes)
deriving DecidableEq, Repr

namespace Command

/-- The type character. -/
def type : Command → Byte
  | publish _ _ => byteOf '2'
  | subscribe _ => byteOf '3'
  | topicExists _ => byteOf '4'
  | subscriberNumber _ => byteOf '5'
  | unsubscribe _ => byteOf '6'

def topic : Command → Bytes
  | publish topic _ | subscribe topic | topicExists topic | subscriberNumber topic
  | unsubscribe topic => topic

/-- The message of a publish command. -/
def message : Command → Option Bytes
  | publish _ message => some message
  | _ => none

/-- What follows the topic in a frame. -/
def tail : Command → Bytes
  | publish _ message => hashtag :: message
  | _ => []

/-- The command as the broker sees it: the frame without its first number sign and
its terminator. -/
def text (c : Command) : Bytes :=
  c.type :: hashtag :: (c.topic ++ c.tail)

/-- The bytes that a client sends for the command. -/
def frame (c : Command) : Bytes :=
  hashtag :: c.text ++ [0]

/-- A topic name has no number sign, and neither part has a terminator. -/
structure WellFormed (c : Command) : Prop where
  topic_nulFree : NulFree c.topic
  topic_hashtagFree : ∀ b ∈ c.topic, b ≠ hashtag
  tail_nulFree : NulFree c.tail

instance (c : Command) : Decidable c.WellFormed :=
  have : Decidable (∀ b ∈ c.topic, b ≠ hashtag) := List.decidableBAll (fun b => b ≠ hashtag) c.topic
  decidable_of_iff (NulFree c.topic ∧ (∀ b ∈ c.topic, b ≠ hashtag) ∧ NulFree c.tail)
    ⟨fun h => ⟨h.1, h.2.1, h.2.2⟩, fun h => ⟨h.1, h.2, h.3⟩⟩

theorem type_ne_nul (c : Command) : c.type ≠ 0 := by
  cases c <;> simp [type, byteOf]

theorem WellFormed.text_nulFree {c : Command} (hc : c.WellFormed) : NulFree c.text := by
  simp [text, type_ne_nul, hc.topic_nulFree, hc.tail_nulFree]

end Command

/-! ## Creating a command -/

theorem createNonpublishCommand_eq (commandNum : Byte) (topic rest : Bytes) :
    createNonpublishCommand commandNum topic.length (topic ++ 0 :: rest) =
      some ((hashtag :: commandNum :: hashtag :: topic ++ [0]).map some) := by
  have hmalloc : malloc (1 + 1 + 1 + (topic.length : Int) + 1) =
      some (([] : Bytes).map some ++ List.replicate (topic.length + 4) none) := by
    rw [List.map_nil, List.nil_append, ← malloc_eq]
    congr 1
    omega
  have hsplit : topic ++ 0 :: rest = (topic ++ [0]) ++ rest := by simp
  simp only [createNonpublishCommand, hmalloc, Option.bind_eq_bind, Option.bind_some, hsplit]
  -- every write starts where the initialised part of the block ends
  simp (disch := simp) only [Block.store_append, Option.bind_some, memcpy_eq]
  simp

theorem createPublishCommand_eq {topic : Bytes} (htopic : NulFree topic)
    (message rest rest' : Bytes) :
    createPublishCommand topic.length message.length (topic ++ 0 :: rest)
        (some (message ++ 0 :: rest')) =
      some ((hashtag :: byteOf '2' :: hashtag :: topic ++ hashtag :: message ++ [0]).map some) := by
  have hmalloc : malloc (1 + 1 + 1 + (topic.length : Int) + 1 + ((message.length : Int) + 1)) =
      some (([] : Bytes).map some ++ List.replicate (topic.length + message.length + 5) none) := by
    rw [List.map_nil, List.nil_append, ← malloc_eq]
    congr 1
    omega
  have hoffset : thirdHashtagOffset (topic ++ 0 :: rest) = some (topic.length + 3) := by
    rw [thirdHashtagOffset, strlen_append htopic, Option.map_some]
    congr 1
    omega
  have hsplit : message ++ 0 :: rest' = (message ++ [0]) ++ rest' := by simp
  have hlength : ((message.length : Int) + 1).toNat = message.length + 1 := by omega
  simp only [createPublishCommand, hmalloc, hoffset, Option.bind_eq_bind, Option.bind_some,
    Option.getD_some, hsplit, hlength]
  simp (disch := (simp <;> omega)) only [Block.store_append, Option.bind_some, memcpy_eq]
  simp
  omega

/-- {lit}`create_command` writes the frame of the command, and the block has no other
byte. -/
theorem createCommand_eq (c : Command) (htopic : NulFree c.topic)
    (htail : NulFree c.tail) (rest rest' : Bytes) :
    createCommand c.type (c.topic ++ 0 :: rest) (c.message.map fun m => m ++ 0 :: rest') =
      some (c.frame.map some) := by
  cases c with
  | publish topic message =>
      have htopic' : NulFree topic := htopic
      have hmessage : NulFree message := ((nulFree_cons _ _).mp htail).2
      simp only [createCommand, Command.topic, Command.type, Command.message, Option.map_some,
        strlen_append htopic', strlen_append hmessage, Option.bind_eq_bind, Option.bind_some,
        if_true]
      rw [createPublishCommand_eq htopic']
      simp [Command.frame, Command.text, Command.type, Command.topic, Command.tail]
  | subscribe topic | topicExists topic | subscriberNumber topic | unsubscribe topic =>
      have htopic' : NulFree topic := htopic
      simp only [createCommand, Command.topic, Command.type, Command.message, Option.map_none,
        strlen_append htopic', Option.bind_eq_bind, Option.bind_some,
        createNonpublishCommand_eq, Command.frame, Command.text, Command.tail]
      simp [byteOf]

end Client
end PubSub
