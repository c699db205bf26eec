import PubSub.Foundations.TerminatedStream
import PubSub.StatsManager.MainLoop

/-!
# What a receive counts

Whatever bytes a receive returns, what they do to the counters is a list of increments, which
can be read off the bytes.

Main results:

- Theorem {lit}`handleNotifications_counted`: what a receive of any bytes adds to the counters.
- Theorem {lit}`countedBy_batch`: what a batch of notifications adds to them.
- Theorem {lit}`mainLoop_cleared`: between the steps of the main loop the receive buffer
  is cleared.
-/

namespace PubSub
namespace StatsManager

open Foundations

/-! ## Increments -/

/-- The type that a type character stands for. -/
def NotificationType.ofChar (c : Byte) : Option NotificationType :=
  if c = byteOf '2' then some .publish
  else if c = byteOf '3' then some .subscribe
  else if c = byteOf '4' then some .topicExists
  else if c = byteOf '5' then some .subscriberNumber
  else if c = byteOf '6' then some .unsubscribe
  else none

/-- The counter that {lit}`handle_notification` increments, given the memory from the byte behind
the number sign on: that of the type and the topic, if both are counted. -/
def addressedCounter (notification : Bytes) : Option (Option Counter) := do
  let notificationType ← notification[0]?
  let topicName ← copyFrom 2 notification
  return (getTopicStats topicName).bind fun i =>
    (NotificationType.ofChar notificationType).map fun type => (i, type)

/-- The increments that a receive leads to: one for every frame at the beginning of the buffer,
and each of the counter that the first frame addresses. -/
def countedBy (receiveBuffer : Bytes) : Incoming → List (Option Counter)
  | .data bytes =>
      match recvInto receiveBuffer receiveBufferSize bytes with
      | none => []
      | some receiveBuffer =>
          match frameStarts hashtag false 0 receiveBuffer,
              addressedCounter (receiveBuffer.drop 1) with
          | some (starts, _), some counter => List.replicate starts.length counter
          | _, _ => []
  | .selectError | .willBlock | .closed | .recvError => []

theorem NotificationType.ofChar_char (type : NotificationType) : ofChar type.char = some type := by
  cases type <;> decide

/-- A type character that is not counted leaves the stats alone. -/
theorem countNotification_eq (c : Byte) (stats : TopicStats) :
    countNotification c stats =
      (NotificationType.ofChar c).elim stats fun type => countNotification type.char stats := by
  unfold NotificationType.ofChar
  split
  · next h =>
    rw [h]
    rfl
  split
  · next h =>
    rw [h]
    rfl
  split
  · next h =>
    rw [h]
    rfl
  split
  · next h =>
    rw [h]
    rfl
  split
  · next h =>
    rw [h]
    rfl
  · next h2 h3 h4 h5 h6 =>
    simp only [countNotification, h2, h3, h4, h5, h6, if_false, Option.elim_none]

/-- {lit}`handle_notification` increments the addressed counter. -/
theorem handleNotification_eq_increment (notification : Bytes)
    (topicStatsArray : TopicStatsArray) :
    handleNotification notification topicStatsArray =
      (addressedCounter notification).map (increment topicStatsArray) := by
  unfold handleNotification addressedCounter
  cases notification[0]? with
  | none => rfl
  | some notificationType =>
      cases copyFrom 2 notification with
      | none => rfl
      | some topicName =>
          simp only [Option.bind_eq_bind, Option.bind_some, Option.pure_def, Option.map_some]
          cases getTopicStats topicName with
          | none => rfl
          | some i =>
              simp only [Option.bind_some]
              rw [countNotification_eq]
              cases NotificationType.ofChar notificationType with
              | none => simp [increment]
              | some type => rfl

/-- Incrementing one counter once for every element of a list. -/
theorem foldlM_addressed {β : Type} {k : Option (Option Counter)} {counter : Option Counter}
    (hk : k = some counter) (starts : List β) (topicStatsArray : TopicStatsArray) :
    starts.foldlM (fun topicStatsArray _ => k.map (increment topicStatsArray)) topicStatsArray =
      some ((List.replicate starts.length counter).foldl increment topicStatsArray) := by
  subst hk
  induction starts generalizing topicStatsArray with
  | nil => rfl
  | cons start starts ih =>
      rw [List.foldlM_cons, Option.map_some, Option.bind_eq_bind, Option.bind_some, ih]
      rfl

/-- What {lit}`handle_notifications` does to the counters, whatever has arrived. -/
theorem handleNotifications_counted {incoming : Incoming} {receiveBuffer : Bytes}
    {topicStatsArray : TopicStatsArray} {handled : Handled}
    (h : handleNotifications incoming receiveBuffer topicStatsArray = some (.returned handled)) :
    handled.topicStatsArray =
      (countedBy receiveBuffer incoming).foldl increment topicStatsArray := by
  cases incoming with
  | selectError | willBlock | recvError | closed =>
      simp only [handleNotifications, receiveNotifications] at h
      cases h <;> rfl
  | data bytes =>
      simp only [handleNotifications, receiveNotifications, countedBy] at h ⊢
      cases hreceived : recvInto receiveBuffer receiveBufferSize bytes with
      | none => simp [hreceived] at h
      | some received =>
          simp only [hreceived, Option.map_some, Option.bind_eq_bind, Option.bind_some,
            Option.bind_eq_some_iff, Option.pure_def, Option.some.injEq,
            Outcome.returned.injEq] at h
          rcases h with ⟨⟨counted, i⟩, hloop, cleared, -, rfl⟩
          -- the body looks at neither the index nor the bytes that it is given
          rw [frameLoop_eq_foldlM, Option.bind_eq_some_iff] at hloop
          rcases hloop with ⟨⟨starts, j⟩, hstarts, hloop⟩
          rw [Option.map_eq_some_iff] at hloop
          rcases hloop with ⟨counted', hfold, hpair⟩
          have hcounted : counted' = counted := (Prod.mk.inj hpair).1
          subst hcounted
          simp only [hstarts]
          simp only [handleNotification_eq_increment] at hfold
          cases haddressed : addressedCounter (received.drop 1) with
          | none =>
              rw [haddressed] at hfold
              cases starts with
              | nil => exact (Option.some.inj hfold).symm
              | cons start starts => simp at hfold
          | some counter =>
              rw [foldlM_addressed haddressed, Option.some.injEq] at hfold
              exact hfold.symm

/-- What a batch of notifications adds to the counters. -/
theorem countedBy_batch {n : Notification} {ns : List Notification}
    (hns : ∀ m ∈ n :: ns, NulFree m.topic)
    (hsize : (batch (n :: ns)).length ≤ receiveBufferSize) :
    countedBy (zeros brokerReceiveBufferSize) (.data (batch (n :: ns))) =
      List.replicate (n :: ns).length n.counter := by
  have hlt : receiveBufferSize < brokerReceiveBufferSize := by decide
  rcases Nat.exists_eq_add_of_lt (Nat.lt_of_le_of_lt hsize hlt) with ⟨m, hm⟩
  have hroom : brokerReceiveBufferSize - (batch (n :: ns)).length = m + 1 := by omega
  have hreceived := recvInto_zeros hsize (Nat.le_of_lt hlt)
  rw [hroom, zeros_succ] at hreceived
  have hfree : ∀ f ∈ (n :: ns).map Notification.payload, NulFree f := by
    intro f hf
    rcases List.mem_map.mp hf with ⟨l, hl, rfl⟩
    exact Notification.payload_nulFree (hns l hl)
  rcases frameStarts_frames hfree nul_ne_hashtag 0 (zeros m) with ⟨starts, hstarts, hframes⟩
  have hlength : starts.length = (n :: ns).length := by
    rw [← hframes.length_eq, List.length_map]
  have hdrop : (batch (n :: ns) ++ 0 :: zeros m).drop 1 =
      n.payload ++ 0 :: (batch ns ++ 0 :: zeros m) := by
    simp [batch]
  have haddressed : addressedCounter ((batch (n :: ns) ++ 0 :: zeros m).drop 1) =
      some n.counter := by
    have hbegins : NulFree [n.type.char, hashtag] := by
      have hpayload := Notification.payload_nulFree (hns n (by simp))
      simp only [Notification.payload, nulFree_cons] at hpayload
      simp [hpayload.1]
    have htopic : copyFrom 2 (n.payload ++ 0 :: (batch ns ++ 0 :: zeros m)) = some n.topic :=
      copyFrom_eq hbegins (hns n (by simp)) _
    rw [hdrop, addressedCounter, htopic]
    simp only [Notification.payload, List.cons_append, List.getElem?_cons_zero,
      Option.bind_eq_bind, Option.bind_some, Option.pure_def, NotificationType.ofChar_char,
      Option.map_some, Notification.counter, Option.some.injEq]
    cases getTopicStats n.topic <;> rfl
  have hstarts' : frameStarts hashtag false 0 (batch (n :: ns) ++ 0 :: zeros m) =
      some (starts, _) := hstarts
  simp only [countedBy, hreceived, hstarts', haddressed, hlength]

/-- Whatever arrives in the zeroed buffer: there is at most one increment for every string that
begins in it, and all of them are of the counter that the first frame addresses. -/
theorem countedBy_zeros {bytes : Bytes} (hsize : bytes.length ≤ receiveBufferSize) :
    ∃ times counter,
      countedBy (zeros brokerReceiveBufferSize) (.data bytes) = List.replicate times counter ∧
      times ≤ begun false bytes ∧
      (times ≠ 0 → bytes.head? = some hashtag ∧
        addressedCounter ((bytes ++ zeros (brokerReceiveBufferSize - bytes.length)).drop 1) =
          some counter) := by
  have hle : receiveBufferSize ≤ brokerReceiveBufferSize := by decide
  simp only [countedBy, recvInto_zeros hsize hle]
  cases hstarts : frameStarts hashtag false 0
      (bytes ++ zeros (brokerReceiveBufferSize - bytes.length)) with
  | none => exact ⟨0, none, rfl, Nat.zero_le _, by simp⟩
  | some found =>
      rcases found with ⟨starts, j⟩
      have hbegun := length_frameStarts_le hashtag_ne_nul hstarts
      cases haddressed : addressedCounter
          ((bytes ++ zeros (brokerReceiveBufferSize - bytes.length)).drop 1) with
      | none => exact ⟨0, none, rfl, Nat.zero_le _, by simp⟩
      | some counter =>
          refine ⟨starts.length, counter, rfl, hbegun, fun htimes => ⟨?_, rfl⟩⟩
          cases bytes with
          | nil =>
              rw [begun, Nat.le_zero] at hbegun
              exact absurd hbegun htimes
          | cons b bytes =>
              by_cases hb : b = hashtag
              · rw [hb, List.head?_cons]
              · rw [List.cons_append, frameStarts, if_neg hb, Option.some.injEq,
                  Prod.mk.injEq] at hstarts
                rw [← hstarts.1] at htimes
                exact absurd rfl htimes

/-- {lit}`recv` stores no more than it has been asked for. -/
theorem length_le_of_recvInto {bytes buffer buffer' : Bytes} {size : Nat}
    (h : recvInto buffer size bytes = some buffer') : bytes.length ≤ size := by
  rw [recvInto, Option.ite_none_right_eq_some] at h
  exact h.1.1

theorem length_le_of_handle {bytes : Bytes} {s s' : LoopState}
    (hstep : mainLoop.step s (.handle (.data bytes)) = some s') :
    bytes.length ≤ receiveBufferSize := by
  rcases mainLoop_cases hstep with ⟨incoming, hl, hhandle⟩ | ⟨time, operations, updateTime, hl, -⟩
  · cases hl
    rw [handleStep, Option.bind_eq_bind, Option.bind_eq_some_iff] at hhandle
    rcases hhandle with ⟨outcome, hhandle, -⟩
    simp only [handleNotifications, receiveNotifications, Option.bind_eq_bind,
      Option.bind_eq_some_iff, Option.map_eq_some_iff] at hhandle
    rcases hhandle with ⟨received, ⟨receiveBuffer, hreceived, -⟩, -⟩
    exact length_le_of_recvInto hreceived
  · contradiction

/-- The receive buffer is cleared behind every receive. -/
theorem handleStep_cleared {incoming : Incoming} {s s' : LoopState}
    (hcleared : s.receiveBuffer = zeros brokerReceiveBufferSize)
    (hstep : handleStep incoming s = some s') :
    s'.receiveBuffer = zeros brokerReceiveBufferSize := by
  rw [handleStep, Option.bind_eq_bind, Option.bind_eq_some_iff] at hstep
  rcases hstep with ⟨outcome, hhandle, hresult⟩
  cases outcome with
  | exited =>
      rw [← Option.some.inj hresult]
      exact hcleared
  | returned handled =>
      rw [← Option.some.inj hresult]
      cases incoming with
      | selectError | willBlock | recvError | closed =>
          simp only [handleNotifications, receiveNotifications] at hhandle
          cases hhandle <;> exact hcleared
      | data bytes =>
          simp only [handleNotifications, receiveNotifications, hcleared] at hhandle
          cases hreceived : recvInto (zeros brokerReceiveBufferSize) receiveBufferSize bytes with
          | none => simp [hreceived] at hhandle
          | some received =>
              simp only [hreceived, Option.map_some, Option.bind_eq_bind, Option.bind_some,
                Option.bind_eq_some_iff, Option.pure_def, Option.some.injEq,
                Outcome.returned.injEq] at hhandle
              rcases hhandle with ⟨counted, -, cleared, hzeros, rfl⟩
              have hsize : bytes.length ≤ receiveBufferSize := length_le_of_recvInto hreceived
              have hlt : receiveBufferSize < brokerReceiveBufferSize := by decide
              rw [recvInto_zeros hsize (Nat.le_of_lt hlt), Option.some.injEq] at hreceived
              rw [← hreceived, zeroFill_append_zeros hsize (by omega), Option.some.injEq] at hzeros
              have hlength : bytes.length + (brokerReceiveBufferSize - bytes.length) =
                  brokerReceiveBufferSize := by omega
              rw [hlength] at hzeros
              exact hzeros.symm

/-- Between the steps of the main loop the buffer is cleared. -/
theorem mainLoop_cleared {l : LoopStep} {s s' : LoopState}
    (hcleared : s.receiveBuffer = zeros brokerReceiveBufferSize)
    (hstep : mainLoop.step s l = some s') : s'.receiveBuffer = zeros brokerReceiveBufferSize := by
  rcases mainLoop_cases hstep with ⟨incoming, -, hhandle⟩ |
    ⟨time, operations, updateTime, -, hupdate⟩
  · exact handleStep_cleared hcleared hhandle
  · rw [updateStep] at hupdate
    split at hupdate
    · rw [Option.bind_eq_bind, Option.bind_eq_some_iff] at hupdate
      rcases hupdate with ⟨⟨file, topicStatsArray⟩, -, hresult⟩
      rw [← Option.some.inj hresult]
      exact hcleared
    · rw [← Option.some.inj hupdate]
      exact hcleared

/-- A receive: the counters change as the notifications say, or the process ends. -/
theorem handleStep_counted {incoming : Incoming} {s s' : LoopState}
    (hstep : handleStep incoming s = some s') :
    s'.file = s.file ∧ s'.topicStatsArray =
      (countedBy s.receiveBuffer incoming).foldl increment s.topicStatsArray := by
  rw [handleStep, Option.bind_eq_bind, Option.bind_eq_some_iff] at hstep
  rcases hstep with ⟨outcome, hhandle, hresult⟩
  cases outcome with
  | exited =>
      rw [← Option.some.inj hresult, handleNotifications_exited_iff.mp hhandle]
      exact ⟨rfl, rfl⟩
  | returned handled =>
      rw [← Option.some.inj hresult]
      exact ⟨rfl, handleNotifications_counted hhandle⟩

end StatsManager
end PubSub
