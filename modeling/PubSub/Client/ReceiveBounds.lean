import PubSub.Client.ClientLoop

/-!
# The bounds of the client's receive buffer

A client that has not received for a while finds a backlog of messages, of which one call
of {lit}`recv` takes as much as the receive buffer holds.  The loop that prints them is driven
by the bytes in the buffer alone.

Main results:

- Theorem {lit}`receiveSubscriptionMessages_full`: a backlog that fills the buffer makes the
  loop leave it.
- Theorem {lit}`receivesWithinBounds_iff`: a backlog is printed, and the loop stays in the
  buffer, exactly when it leaves room for one byte.
-/

namespace PubSub
namespace Client

open Foundations

/-- What one {lit}`recv` takes of a backlog of messages. -/
def receivedBytes (messages : List Bytes) : Bytes :=
  (framesOf hashtag messages).take clientReceiveBufferSize

/-- The messages that are completely contained in the first bytes of a backlog. -/
def containedMessages : Nat → List Bytes → List Bytes
  | _, [] => []
  | size, m :: messages =>
      if m.length + 2 ≤ size then m :: containedMessages (size - (m.length + 2)) messages else []

/-- {lit}`receive_subscription_messages` uses no index behind the receive buffer, ends, and
prints the messages that have been received completely. -/
structure ReceivesWithinBounds (messages : List Bytes) : Prop where
  reads_lt : ∀ receiveBuffer, recvInto (zeros clientReceiveBufferSize) clientReceiveBufferSize
      (receivedBytes messages) = some receiveBuffer →
    ∀ i ∈ frameReads hashtag false 0 receiveBuffer, i < clientReceiveBufferSize
  prints : receiveSubscriptionMessages (.data (receivedBytes messages))
      (zeros clientReceiveBufferSize) =
    some (containedMessages (receivedBytes messages).length messages,
      zeros clientReceiveBufferSize)

section Backlog

variable {messages : List Bytes}

/-- All bytes of a backlog contain all of its messages. -/
theorem containedMessages_all (messages : List Bytes) :
    containedMessages (framesOf hashtag messages).length messages = messages := by
  induction messages with
  | nil => rfl
  | cons m messages ih =>
      have hlength : (framesOf hashtag (m :: messages)).length =
          m.length + 2 + (framesOf hashtag messages).length := by
        simp
        omega
      rw [containedMessages, hlength, if_pos (by omega), Nat.add_sub_cancel_left, ih]

theorem receivedBytes_eq (hroom : (framesOf hashtag messages).length < clientReceiveBufferSize) :
    receivedBytes messages = framesOf hashtag messages :=
  List.take_of_length_le (Nat.le_of_lt hroom)

theorem length_receivedBytes
    (hfull : clientReceiveBufferSize ≤ (framesOf hashtag messages).length) :
    (receivedBytes messages).length = clientReceiveBufferSize := by
  rw [receivedBytes, List.length_take, Nat.min_eq_left hfull]

/-- A backlog that leaves room for one byte. -/
theorem receivesWithinBounds_of_room (hfree : ∀ m ∈ messages, NulFree m)
    (hroom : (framesOf hashtag messages).length < clientReceiveBufferSize) :
    ReceivesWithinBounds messages := by
  refine ⟨?_, ?_⟩
  · intro receiveBuffer hbuffer
    have hlength := length_recvInto hbuffer
    rw [zeros, List.length_replicate] at hlength
    rw [receivedBytes_eq hroom, recvInto_zeros (Nat.le_of_lt hroom) (Nat.le_refl _),
      Option.some.injEq] at hbuffer
    rw [frameReads_lt_size_iff hlength, ← hbuffer,
      isSome_frameStarts_frames hashtag_ne_nul hfree]
    exact Nat.sub_pos_of_lt hroom
  · have hreceived := recvInto_zeros (Nat.le_of_lt hroom) (Nat.le_refl clientReceiveBufferSize)
    have hcleared : zeroFill (framesOf hashtag messages ++
        zeros (clientReceiveBufferSize - (framesOf hashtag messages).length))
        clientReceiveBufferSize = some (zeros clientReceiveBufferSize) := by
      apply zeroFill_all
      rw [List.length_append, zeros, List.length_replicate]
      omega
    -- behind the messages there is a zero, at which the loop ends
    have hstrings : frameStrings hashtag (framesOf hashtag messages ++
        zeros (clientReceiveBufferSize - (framesOf hashtag messages).length)) = some messages := by
      rw [← Nat.succ_pred_eq_of_pos (Nat.sub_pos_of_lt hroom), zeros_succ]
      exact frameStrings_frames hfree nul_ne_hashtag _
    simp only [receiveSubscriptionMessages, receiveFromBroker, receivedBytes_eq hroom, hreceived,
      hstrings, hcleared, containedMessages_all, Option.map_some, Option.bind_eq_bind,
      Option.bind_some, Bool.false_eq_true, if_false, Option.pure_def]

/-- A backlog that fills the buffer leaves the loop no byte to end at. -/
theorem frameStarts_full (hfree : ∀ m ∈ messages, NulFree m)
    (hfull : clientReceiveBufferSize ≤ (framesOf hashtag messages).length) :
    recvInto (zeros clientReceiveBufferSize) clientReceiveBufferSize (receivedBytes messages) =
        some (receivedBytes messages) ∧
      frameStarts hashtag false 0 (receivedBytes messages) = none := by
  have hlength := length_receivedBytes hfull
  refine ⟨?_, frameStarts_beginning hfree (List.take_prefix _ _) 0⟩
  rw [recvInto_zeros (Nat.le_of_eq hlength) (Nat.le_refl _), hlength, Nat.sub_self, zeros,
    List.replicate_zero, List.append_nil]

/-- Such a backlog makes the client fault. -/
theorem receiveSubscriptionMessages_full (hfree : ∀ m ∈ messages, NulFree m)
    (hfull : clientReceiveBufferSize ≤ (framesOf hashtag messages).length) :
    receiveSubscriptionMessages (.data (receivedBytes messages)) (zeros clientReceiveBufferSize) =
      none := by
  rcases frameStarts_full hfree hfull with ⟨hreceived, hnone⟩
  have hstrings : frameStrings hashtag (receivedBytes messages) = none := by
    rw [frameStrings, frameLoop_eq_none hnone, Option.map_none]
  simp only [receiveSubscriptionMessages, receiveFromBroker, hreceived, hstrings,
    Option.map_some, Option.bind_eq_bind, Option.bind_some, Option.bind_none,
    Bool.false_eq_true, if_false]

/-- The client prints a backlog, and uses no index behind its receive buffer, exactly when
the backlog is shorter than the buffer. -/
theorem receivesWithinBounds_iff (hfree : ∀ m ∈ messages, NulFree m) :
    ReceivesWithinBounds messages ↔
      (framesOf hashtag messages).length < clientReceiveBufferSize := by
  constructor
  · intro h
    by_contra hlong
    have hprints := h.prints
    rw [receiveSubscriptionMessages_full hfree (Nat.le_of_not_lt hlong)] at hprints
    contradiction
  · exact receivesWithinBounds_of_room hfree

/-- A message as short as the name of a topic is printed. -/
theorem receivesWithinBounds_oneMessage : ReceivesWithinBounds [news] := by
  have hroom : (framesOf hashtag [news]).length < clientReceiveBufferSize := by decide
  exact (receivesWithinBounds_iff (by decide)).mpr hroom

/-- The longest message that a user can type, with every character the same. -/
def longestMessage : Bytes :=
  List.replicate 20 (byteOf 'm')

/-- A hundred of the longest messages fill the buffer. -/
theorem not_receivesWithinBounds_hundredMessages :
    ¬ ReceivesWithinBounds (List.replicate 100 longestMessage) := by
  have hfree : ∀ m ∈ List.replicate 100 longestMessage, NulFree m := by
    intro m hm
    rw [List.eq_of_mem_replicate hm]
    decide
  have hfull : clientReceiveBufferSize ≤
      (framesOf hashtag (List.replicate 100 longestMessage)).length := by
    rw [length_framesOf_replicate, longestMessage, List.length_replicate]
    decide
  intro h
  have hprints := h.prints
  rw [receiveSubscriptionMessages_full hfree hfull] at hprints
  exact Option.some_ne_none _ hprints.symm

end Backlog

end Client
end PubSub
