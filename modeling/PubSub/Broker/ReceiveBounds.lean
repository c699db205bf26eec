import PubSub.Broker.Segmentation

/-!
# The bounds of the receive buffer

The loop that executes received commands is driven by the bytes in the buffer alone: it
never looks at how many of them {lit}`recv` has stored.  Behind the last frame it looks at one
more byte, and a frame that has been cut ends at the first zero behind it.  The buffer has
zeros behind a chunk only as far as the chunk leaves room for them.

Main results:

- Theorem {lit}`isSome_frameStarts_received`: how much room the loop needs behind a chunk.
- Theorem {lit}`serveRound_overrun`: without that room the round of the main loop faults.
- Theorem {lit}`scanInBounds_iff`: the loop stays in the buffer exactly when a chunk leaves
  room for two bytes, or for one byte behind a whole frame.
-/

namespace PubSub
namespace Broker

open Foundations Client

/-- The loop of {lit}`receive_and_execute_commands` uses no index behind the receive buffer,
and it ends if the execution of the commands does. -/
structure ScanInBounds (receiveBuffer : Bytes) : Prop where
  reads_lt : ∀ i ∈ frameReads hashtag false 0 receiveBuffer, i < brokerReceiveBufferSize
  ends : ∀ {n : Nat} (execute : Nat → Bytes → Produced n → Option (Produced n)),
    (∀ i command produced, (execute i command produced).isSome) →
      ∀ produced, (frameLoop hashtag execute false 0 receiveBuffer produced).isSome

/-- A chunk leaves enough room for the loop. -/
def LeavesRoom (chunk : Bytes) : Prop :=
  chunk.length + 1 < brokerReceiveBufferSize ∨
    chunk.length + 1 = brokerReceiveBufferSize ∧ chunk.getLast? = some 0

section Received

variable {cs : List Command} {chunk receiveBuffer : Bytes}

/-- What the loop does in a buffer is decided by where it looks. -/
theorem scanInBounds_iff_isSome (hlength : receiveBuffer.length = brokerReceiveBufferSize) :
    ScanInBounds receiveBuffer ↔ (frameStarts hashtag false 0 receiveBuffer).isSome := by
  have hreads := @frameReads_lt_size_iff hashtag receiveBuffer _ hlength
  constructor
  · intro h
    exact hreads.mp h.reads_lt
  · intro h
    exact ⟨hreads.mpr h, fun execute hexecute => isSome_frameLoop h hexecute⟩

/-- Whole frames end with a terminator. -/
theorem getLast?_stream {ds : List Command} (hne : stream ds ≠ []) :
    (stream ds).getLast? = some 0 := by
  rcases List.eq_nil_or_concat ds with rfl | ⟨front, d, rfl⟩
  · exact absurd rfl hne
  · have hframe : stream (front.concat d) = (stream front ++ hashtag :: d.text) ++ [0] := by
      simp [stream, framesOf_append]
    rw [hframe, List.getLast?_concat]

/-- A frame that has been cut does not. -/
theorem getLast?_beginning (ds : List Command) {text : Bytes} (htext : NulFree text) :
    (stream ds ++ hashtag :: text).getLast? ≠ some 0 := by
  intro hlast
  have hfree : NulFree (hashtag :: text) := by simp [htext]
  rw [List.getLast?_append_of_ne_nil _ (List.cons_ne_nil _ _)] at hlast
  exact hfree 0 (List.mem_of_getLast? hlast) rfl

/-- Behind whole frames the loop needs one byte, and behind a frame that has been cut two:
the terminator that it looks for, and the byte behind it. -/
theorem isSome_frameStarts_received (hcs : ∀ c ∈ cs, NulFree c.text) (hpiece : chunk <+: stream cs)
    (hne : chunk ≠ []) (hsize : chunk.length ≤ brokerReceiveBufferSize) :
    (frameStarts hashtag false 0
        (chunk ++ zeros (brokerReceiveBufferSize - chunk.length))).isSome ↔ LeavesRoom chunk := by
  rcases hpiece with ⟨rest, hrest⟩
  rcases exists_split hne hrest with ⟨ds, es, rfl, rfl, -⟩ | ⟨ds, c, es, text, tail, rfl, htext,
    rfl, -⟩
  · have hfree : ∀ f ∈ ds.map Command.text, NulFree f :=
      nulFree_texts fun d hd => hcs d (by simp [hd])
    rw [stream, isSome_frameStarts_frames hashtag_ne_nul hfree, ← stream, LeavesRoom,
      getLast?_stream hne]
    simp only [and_true]
    omega
  · have hwhole : NulFree c.text := hcs c (by simp)
    rw [htext, nulFree_append] at hwhole
    have hfree : ∀ f ∈ ds.map Command.text ++ [text], NulFree f :=
      nulFree_texts_append (fun d hd => hcs d (by simp [hd])) hwhole.1
    have hlast := getLast?_beginning ds hwhole.1
    rw [LeavesRoom, or_iff_left fun h => hlast h.2]
    cases hroom : brokerReceiveBufferSize - (stream ds ++ hashtag :: text).length with
    | zero =>
        -- the cut frame fills the buffer
        have hbegins : stream ds ++ hashtag :: text <+:
            framesOf hashtag (ds.map Command.text ++ [text]) :=
          ⟨zeros 1, stream_append_beginning ds text⟩
        have hnone : frameStarts hashtag false 0 (stream ds ++ hashtag :: text ++ zeros 0) =
            none := by
          rw [zeros, List.replicate_zero, List.append_nil]
          exact frameStarts_beginning hfree hbegins 0
        rw [hnone]
        simp only [Option.isSome_none, Bool.false_eq_true, false_iff]
        omega
    | succ k =>
        -- the first zero ends the cut frame
        have hzeros : zeros (k + 1) = zeros 1 ++ zeros k := by
          rw [zeros, zeros, zeros, List.replicate_append_replicate, Nat.add_comm]
        rw [hzeros, ← List.append_assoc, stream_append_beginning,
          isSome_frameStarts_frames hashtag_ne_nul hfree]
        omega

/-- Without room behind the chunk the round of the main loop faults, whatever the commands
do. -/
theorem serveRound_overrun (hcs : ∀ c ∈ cs, NulFree c.text) (hpiece : chunk <+: stream cs)
    (hne : chunk ≠ []) (hsize : chunk.length ≤ brokerReceiveBufferSize)
    (hfull : ¬ LeavesRoom chunk) {n : Nat} {s : MainLoop}
    (hcleared : s.receiveBuffer = zeros brokerReceiveBufferSize) :
    serveRound (n := n) s (.data chunk) = none := by
  cases hround : serveRound (n := n) s (.data chunk) with
  | none => rfl
  | some result =>
      rcases serveRound_starts hround with ⟨p, socket, receiveBuffer, starts, i, -, -, hreceived,
        hstarts, -, -⟩
      rw [hcleared, recvInto_zeros hsize (Nat.le_refl _), Option.some.injEq] at hreceived
      subst hreceived
      have hsome := (isSome_frameStarts_received hcs hpiece hne hsize).not.mpr hfull
      rw [hstarts] at hsome
      exact absurd rfl hsome

/-- The loop over the receive buffer stays in it and ends exactly when the chunk leaves room
for two bytes, or for one byte and ends with a frame. -/
theorem scanInBounds_iff (hcs : ∀ c ∈ cs, NulFree c.text) (hpiece : chunk <+: stream cs)
    (hne : chunk ≠ [])
    (hreceived : recvInto (zeros brokerReceiveBufferSize) brokerReceiveBufferSize chunk =
      some receiveBuffer) :
    ScanInBounds receiveBuffer ↔ LeavesRoom chunk := by
  have hsize : chunk.length ≤ brokerReceiveBufferSize := by
    by_contra hlong
    rw [recvInto, if_neg fun h => hlong h.1] at hreceived
    contradiction
  have hlength := length_recvInto hreceived
  rw [recvInto_zeros hsize (Nat.le_refl _), Option.some.injEq] at hreceived
  subst hreceived
  rw [scanInBounds_iff_isSome (by simpa [zeros] using hlength),
    isSome_frameStarts_received hcs hpiece hne hsize]

/-- One subscription leaves room for the loop. -/
theorem scanInBounds_subscribe :
    ScanInBounds (stream [.subscribe news] ++
      zeros (brokerReceiveBufferSize - (stream [.subscribe news]).length)) := by
  have hsize : (stream [.subscribe news]).length + 1 < brokerReceiveBufferSize := by decide
  have hreceived : recvInto (zeros brokerReceiveBufferSize) brokerReceiveBufferSize
      (stream [.subscribe news]) = some (stream [.subscribe news] ++
        zeros (brokerReceiveBufferSize - (stream [.subscribe news]).length)) :=
    recvInto_zeros (by omega) (Nat.le_refl _)
  have hfree : ∀ c ∈ [Command.subscribe news], NulFree c.text := by decide
  exact (scanInBounds_iff hfree (List.prefix_refl _) (by decide) hreceived).mpr (.inl hsize)

/-- Subscriptions that fill the buffer make the loop leave it. -/
theorem not_scanInBounds_full :
    ∃ receiveBuffer, recvInto (zeros brokerReceiveBufferSize) brokerReceiveBufferSize
        (stream (List.replicate 575 (.subscribe news))) = some receiveBuffer ∧
      ¬ ScanInBounds receiveBuffer := by
  have hlength : (stream (List.replicate 575 (.subscribe news))).length =
      brokerReceiveBufferSize := by
    rw [stream, List.map_replicate, length_framesOf_replicate]
    decide
  have hcs : ∀ c ∈ List.replicate 575 (Command.subscribe news), NulFree c.text := by
    intro c hc
    rw [List.eq_of_mem_replicate hc]
    decide
  refine ⟨_, recvInto_zeros (Nat.le_of_eq hlength) (Nat.le_refl _), ?_⟩
  rw [hlength, Nat.sub_self, zeros, List.replicate_zero, List.append_nil,
    scanInBounds_iff_isSome hlength, stream,
    frameStarts_beginning (nulFree_texts hcs) (List.prefix_refl _)]
  exact Bool.false_ne_true

end Received

end Broker
end PubSub
