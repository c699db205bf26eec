import PubSub.Foundations.Framing

/-!
# Common definitions

The macros of {lit}`common.h`, expanded as the preprocessor expands them, and what the
broker and its peers share about sockets.  {lit}`MAX_TOPIC_SIZE` and
{lit}`MAX_MESSAGE_SIZE` are sums without parentheses, so
{lit}`CLIENT_RECEIVE_BUFFER_SIZE` is a hundred times twenty plus one.
-/

namespace PubSub

open Foundations

/-- A Winsock {lit}`SOCKET`, an unsigned integer of pointer width. -/
abbrev Socket := UInt64

/-- {lit}`INVALID_SOCKET`. -/
def invalidSocket : Socket :=
  0xFFFFFFFFFFFFFFFF

/-- What {lit}`read_check` and the {lit}`recv` after it find out about a socket. -/
inductive Incoming where
  | selectError
  | willBlock
  /-- {lit}`recv` stores bytes; it never stores more than it was asked for. -/
  | data (bytes : Bytes)
  | closed
  | recvError
deriving DecidableEq, Repr

/-- The effect on a buffer of a {lit}`recv` of at most {lit}`size` bytes that stores
{lit}`bytes`. -/
def recvInto (buffer : Bytes) (size : Nat) (bytes : Bytes) : Option Bytes :=
  if bytes.length ≤ size ∧ size ≤ buffer.length then overwrite buffer bytes else none

theorem recvInto_eq {bytes buffer : Bytes} {size : Nat} (hsize : bytes.length ≤ size)
    (hcapacity : size ≤ buffer.length) :
    recvInto buffer size bytes = some (bytes ++ buffer.drop bytes.length) := by
  unfold recvInto overwrite
  rw [if_pos ⟨hsize, hcapacity⟩, if_pos (Nat.le_trans hsize hcapacity)]

/-- Receiving does not change the size of a buffer. -/
theorem length_recvInto {buffer buffer' bytes : Bytes} {size : Nat}
    (h : recvInto buffer size bytes = some buffer') : buffer'.length = buffer.length := by
  unfold recvInto overwrite at h
  split at h
  · split at h
    · rw [Option.some.injEq] at h
      subst h
      rw [List.length_append, List.length_drop]
      omega
    · contradiction
  · contradiction

theorem recvInto_zeros {bytes : Bytes} {size capacity : Nat} (hsize : bytes.length ≤ size)
    (hcapacity : size ≤ capacity) :
    recvInto (zeros capacity) size bytes =
      some (bytes ++ zeros (capacity - bytes.length)) := by
  rw [recvInto_eq hsize (by simpa using hcapacity)]
  simp [zeros]

/-- {lit}`TOPICS_NUM`, which is also the number of topics that the stats manager counts for. -/
abbrev topicsNum : Nat :=
  3

instance : NeZero topicsNum :=
  ⟨by decide⟩

/-- {lit}`MAX_TOPIC_SIZE`. -/
def maxTopicSize : Nat :=
  20 + 1

/-- {lit}`MAX_MESSAGE_SIZE`. -/
def maxMessageSize : Nat :=
  20 + 1

/-- {lit}`MAX_COMMAND_SIZE`. -/
def maxCommandSize : Nat :=
  maxTopicSize + maxMessageSize + 4

/-- {lit}`CLIENT_RECEIVE_BUFFER_SIZE`. -/
def clientReceiveBufferSize : Nat :=
  100 * 20 + 1

/-- {lit}`BROKER_RECEIVE_BUFFER_SIZE`. -/
def brokerReceiveBufferSize : Nat :=
  100 * maxCommandSize

/-- The topic {lit}`"updates"`. -/
def updates : Bytes :=
  bytesOf ['u', 'p', 'd', 'a', 't', 'e', 's']

/-- The topic {lit}`"news"`. -/
def news : Bytes :=
  bytesOf ['n', 'e', 'w', 's']

/-- The topic {lit}`"warnings"`. -/
def warnings : Bytes :=
  bytesOf ['w', 'a', 'r', 'n', 'i', 'n', 'g', 's']

/-- The byte that starts every frame and separates its fields. -/
def hashtag : Byte :=
  byteOf '#'

@[simp]
theorem hashtag_ne_nul : hashtag ≠ 0 := by
  decide

@[simp]
theorem nul_ne_hashtag : (0 : Byte) ≠ hashtag :=
  hashtag_ne_nul.symm

end PubSub
