import PubSub.Client.CommandCreation
import PubSub.Foundations.Decimal

/-!
# The client

The client carries out the options of its user one at a time.  It waits for the broker
only after a query, and looks after every option for messages that have arrived.  Both
receives go to one buffer, which is cleared only behind messages.

Main results:

- Theorem {lit}`executeRequestedAction_cases`: an option reports on a topic only after a
  query, and reads the report off the beginning of the receive buffer.
- Theorem {lit}`receiveSubscriptionMessages_frames`: a receive of whole messages prints each of
  them, if nothing behind them in the buffer looks like a message.
-/

namespace PubSub
namespace Client

open Foundations

/-- The variables of {lit}`main` that outlive a round of its loop. -/
structure ClientState where
  connected : Bool
  receiveBuffer : Bytes
deriving DecidableEq, Repr

/-- {lit}`receive_from_broker`: whether it would block, and the buffer.  {lit}`read_check` is not
called if the client waits. -/
def receiveFromBroker (incoming : Incoming) (receiveBuffer : Bytes) (waitUntilReceived : Bool) :
    Option (Bool × Bytes) :=
  match incoming with
  | .selectError => if waitUntilReceived then none else some (false, receiveBuffer)
  | .willBlock => if waitUntilReceived then none else some (true, receiveBuffer)
  | .data bytes =>
      (recvInto receiveBuffer clientReceiveBufferSize bytes).map fun receiveBuffer =>
        (false, receiveBuffer)
  | .closed | .recvError => some (false, receiveBuffer)

/-- {lit}`receive_subscription_messages`: the messages that are printed, and the buffer. -/
def receiveSubscriptionMessages (incoming : Incoming) (receiveBuffer : Bytes) :
    Option (List Bytes × Bytes) := do
  let (blocking, receiveBuffer) ← receiveFromBroker incoming receiveBuffer false
  if blocking then return ([], receiveBuffer)
  else
    let messages ← frameStrings hashtag receiveBuffer
    let receiveBuffer ← zeroFill receiveBuffer clientReceiveBufferSize
    return (messages, receiveBuffer)

/-- What the user is told about a topic. -/
inductive Report where
  | topicExists (topic : Bytes)
  | topicDoesNotExist (topic : Bytes)
  | subscribers (number : Int) (topic : Bytes)
deriving DecidableEq, Repr

/-- Options 4 and 5. -/
inductive Query where
  | topicExists (topic : Bytes)
  | subscriberNumber (topic : Bytes)
deriving DecidableEq, Repr

/-- The query of an option. -/
def queryOf (option : Byte) (topic : Bytes) : Option Query :=
  if option = byteOf '4' then some (.topicExists topic)
  else if option = byteOf '5' then some (.subscriberNumber topic)
  else none

/-- What the client reads off its receive buffer after a query. -/
def Query.read (receiveBuffer : Bytes) : Query → Option Report
  | .topicExists topic =>
      receiveBuffer[0]?.map fun first =>
        if first = byteOf '1' then .topicExists topic else .topicDoesNotExist topic
  | .subscriberNumber topic =>
      receiveBuffer[0]?.bind fun first =>
        if first = hashtag then some (.topicDoesNotExist topic)
        else (atoi receiveBuffer).map fun number => .subscribers number topic

/-- {lit}`send_command`: the bytes that are sent. -/
def sendCommand (command : Block) : Option Bytes :=
  command.cstring.map fun c => c ++ [0]

/-- The result of {lit}`execute_requested_action`, the client afterwards, and what has been
sent and reported. -/
structure Action where
  returnValue : Bool
  client : ClientState
  sent : Option Bytes
  report : Option Report
deriving DecidableEq, Repr

/-- Options 2, 3 and 6 of a connected client. -/
def sendOnly (c : ClientState) (option : Byte) (topic : Bytes) (message : Option Bytes)
    (success : Bool) : Option Action := do
  let command ← createCommand option (topic ++ [0]) (message.map fun m => m ++ [0])
  let sent ← sendCommand command
  return ⟨success, c, some sent, none⟩

/-- Options 4 and 5 of a connected client: one receive, whatever it returns, and the report
that the buffer then gives. -/
def sendAndReport (c : ClientState) (option : Byte) (topic : Bytes) (q : Query) (success : Bool)
    (incoming : Incoming) : Option Action := do
  let command ← createCommand option (topic ++ [0]) none
  let sent ← sendCommand command
  let (_, receiveBuffer) ← receiveFromBroker incoming c.receiveBuffer true
  let report ← q.read receiveBuffer
  return ⟨success, { c with receiveBuffer := receiveBuffer }, some sent, some report⟩

/-- {lit}`execute_requested_action`, given the lines that the user types, the success of
{lit}`connect` or {lit}`send`, and what {lit}`recv` returns after a query. -/
def executeRequestedAction (c : ClientState) (option : Byte) (topic message : Bytes)
    (success : Bool) (incoming : Incoming) : Option Action :=
  if option = byteOf '1' then
    if c.connected then some ⟨true, c, none, none⟩
    else some ⟨success, { c with connected := success }, none, none⟩
  else if option = byteOf '2' then
    if c.connected then sendOnly c option topic (some message) success
    else some ⟨true, c, none, none⟩
  else if option = byteOf '3' ∨ option = byteOf '6' then
    if c.connected then sendOnly c option topic none success
    else some ⟨true, c, none, none⟩
  else if option = byteOf '4' then
    if c.connected then sendAndReport c option topic (.topicExists topic) success incoming
    else some ⟨true, c, none, none⟩
  else if option = byteOf '5' then
    if c.connected then sendAndReport c option topic (.subscriberNumber topic) success incoming
    else some ⟨true, c, none, none⟩
  else if option = byteOf '7' then some ⟨true, c, none, none⟩
  else if option = byteOf '8' then some ⟨false, c, none, none⟩
  else some ⟨true, c, none, none⟩

/-! ## What an option can do -/

theorem sendOnly_cases {c : ClientState} {option : Byte} {topic : Bytes} {message : Option Bytes}
    {success : Bool} {action : Action} (h : sendOnly c option topic message success = some action) :
    action.report = none ∧ action.client = c := by
  simp only [sendOnly, Option.bind_eq_bind, Option.bind_eq_some_iff, Option.pure_def,
    Option.some.injEq] at h
  rcases h with ⟨command, -, sent, -, rfl⟩
  exact ⟨rfl, rfl⟩

/-- What the report on a query is read off. -/
theorem sendAndReport_cases {c : ClientState} {option : Byte} {topic : Bytes} {q : Query}
    {success : Bool} {incoming : Incoming} {action : Action}
    (h : sendAndReport c option topic q success incoming = some action) :
    ∃ blocking report, receiveFromBroker incoming c.receiveBuffer true =
        some (blocking, action.client.receiveBuffer) ∧
      q.read action.client.receiveBuffer = some report ∧ action.report = some report ∧
      action.client.connected = c.connected := by
  simp only [sendAndReport, Option.bind_eq_bind, Option.bind_eq_some_iff, Option.pure_def,
    Option.some.injEq] at h
  rcases h with ⟨command, -, sent, -, ⟨blocking, receiveBuffer⟩, hreceive, report, hread, rfl⟩
  exact ⟨blocking, report, hreceive, hread, rfl, rfl⟩

/-- Only a query of a connected client touches the receive buffer, and the report on it is
read off the buffer. -/
theorem executeRequestedAction_cases {c : ClientState} {option : Byte} {topic message : Bytes}
    {success : Bool} {incoming : Incoming} {action : Action}
    (h : executeRequestedAction c option topic message success incoming = some action) :
    action.report = none ∧ action.client.receiveBuffer = c.receiveBuffer ∨
      ∃ q blocking report, c.connected = true ∧ queryOf option topic = some q ∧
        receiveFromBroker incoming c.receiveBuffer true =
          some (blocking, action.client.receiveBuffer) ∧
        q.read action.client.receiveBuffer = some report ∧ action.report = some report := by
  unfold executeRequestedAction at h
  split at h
  · split at h <;> rw [Option.some.injEq] at h <;> exact .inl ⟨h ▸ rfl, h ▸ rfl⟩
  split at h
  · split at h
    · rcases sendOnly_cases h with ⟨hreport, hclient⟩
      exact .inl ⟨hreport, by rw [hclient]⟩
    · rw [Option.some.injEq] at h
      exact .inl ⟨h ▸ rfl, h ▸ rfl⟩
  split at h
  · split at h
    · rcases sendOnly_cases h with ⟨hreport, hclient⟩
      exact .inl ⟨hreport, by rw [hclient]⟩
    · rw [Option.some.injEq] at h
      exact .inl ⟨h ▸ rfl, h ▸ rfl⟩
  split at h
  · next hoption =>
    split at h
    · next hconnected =>
      rcases sendAndReport_cases h with ⟨blocking, report, hreceive, hread, hreport, -⟩
      exact .inr ⟨_, blocking, report, hconnected, by simp [queryOf, hoption], hreceive, hread,
        hreport⟩
    · rw [Option.some.injEq] at h
      exact .inl ⟨h ▸ rfl, h ▸ rfl⟩
  split at h
  · next hnot hoption =>
    split at h
    · next hconnected =>
      rcases sendAndReport_cases h with ⟨blocking, report, hreceive, hread, hreport, -⟩
      exact .inr ⟨_, blocking, report, hconnected, by rw [queryOf, if_neg hnot, if_pos hoption],
        hreceive, hread, hreport⟩
    · rw [Option.some.injEq] at h
      exact .inl ⟨h ▸ rfl, h ▸ rfl⟩
  split at h
  · rw [Option.some.injEq] at h
    exact .inl ⟨h ▸ rfl, h ▸ rfl⟩
  split at h
  · rw [Option.some.injEq] at h
    exact .inl ⟨h ▸ rfl, h ▸ rfl⟩
  · rw [Option.some.injEq] at h
    exact .inl ⟨h ▸ rfl, h ▸ rfl⟩

/-! ## What a receive can do -/

/-- No number sign behind the first byte, so nothing but the beginning of the buffer can
look like a message. -/
def CleanBehindFirst (receiveBuffer : Bytes) : Prop :=
  ∀ b ∈ receiveBuffer.drop 1, b ≠ hashtag

/-- A receive of whole messages prints each of them once, in order, and clears the
buffer. -/
theorem receiveSubscriptionMessages_frames {messages : List Bytes} (hne : messages ≠ [])
    (hfree : ∀ m ∈ messages, NulFree m) {receiveBuffer : Bytes}
    (hlength : receiveBuffer.length = clientReceiveBufferSize)
    (hclean : CleanBehindFirst receiveBuffer)
    (hsize : (framesOf hashtag messages).length < clientReceiveBufferSize) :
    receiveSubscriptionMessages (.data (framesOf hashtag messages)) receiveBuffer =
      some (messages, zeros clientReceiveBufferSize) := by
  have hpos : 0 < (framesOf hashtag messages).length := by
    cases messages with
    | nil => exact absurd rfl hne
    | cons m messages => simp
  -- what the messages do not overwrite begins with no number sign
  have hrest : ∃ b bs, receiveBuffer.drop (framesOf hashtag messages).length = b :: bs ∧
      b ≠ hashtag := by
    cases hdrop : receiveBuffer.drop (framesOf hashtag messages).length with
    | nil =>
        have hle := List.drop_eq_nil_iff.mp hdrop
        omega
    | cons b bs =>
        refine ⟨b, bs, rfl, hclean b ?_⟩
        have hdrop' : (receiveBuffer.drop 1).drop ((framesOf hashtag messages).length - 1) =
            b :: bs := by
          rw [List.drop_drop, ← hdrop]
          congr 1
          omega
        exact List.mem_of_mem_drop (hdrop' ▸ List.mem_cons_self)
  rcases hrest with ⟨b, bs, hrest, hb⟩
  have hreceived : recvInto receiveBuffer clientReceiveBufferSize (framesOf hashtag messages) =
      some (framesOf hashtag messages ++ b :: bs) := by
    rw [recvInto_eq (Nat.le_of_lt hsize) (Nat.le_of_eq hlength.symm), hrest]
  have hcleared : zeroFill (framesOf hashtag messages ++ b :: bs) clientReceiveBufferSize =
      some (zeros clientReceiveBufferSize) := by
    apply zeroFill_all
    rw [← hrest, List.length_append, List.length_drop]
    omega
  simp only [receiveSubscriptionMessages, receiveFromBroker, hreceived, hcleared,
    frameStrings_frames hfree hb, Option.map_some, Option.bind_eq_bind, Option.bind_some,
    Bool.false_eq_true, if_false, Option.pure_def]

end Client
end PubSub
