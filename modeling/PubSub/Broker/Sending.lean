import PubSub.Broker.OutgoingBuffer
import PubSub.Foundations.Transition

/-!
# Sending to the clients

The consumer hands every message to {lit}`send`, with its terminator.  The sockets do not
block, so {lit}`send` takes as many bytes as the socket has room for and says how many.
{lit}`send_to_client` waits until there is room for some byte, and then looks only for an error.

The walk through a subscriber list is run by what {lit}`Delivery` says about it; here it sends
to any sockets, in any order.  A connection begins when {lit}`accept` returns its socket, and
what is logged for a socket belongs to its last connection.

Main results:

- Theorem {lit}`senderStep_wholeFrames`: a step whose {lit}`send` takes the whole message keeps
  every stream a row of whole frames.
- Theorem {lit}`senderStep_cutFrame`: any other {lit}`send` that succeeds leaves a cut frame.
- Theorem {lit}`wholeFrames_iff`: in a run all clients receive whole frames, one for each message
  sent to them, exactly when every {lit}`send` takes the whole message or fails.
-/

namespace PubSub
namespace Broker

open Foundations

/-! ## The program -/

/-- What {lit}`send` returns: {lit}`SOCKET_ERROR`, or the number of bytes that it has taken. -/
inductive SendResult where
  | socketError
  | accepted (count : Nat)
deriving DecidableEq, Repr

/-- The consumer thread, and for every socket the bytes that its peer receives and the messages
for which {lit}`send` has reported success.  {lit}`current` is the element that
{lit}`send_subscription_message_or_response` has been called with. -/
structure Sender (n : Nat) where
  current : Option (Bytes × OneOrMoreSockets n)
  stream : Socket → Bytes
  sent : Socket → List Bytes

/-- {lit}`connect` is a new connection, {lit}`get` the beginning of
{lit}`send_subscription_message_or_response` and {lit}`finish` the end of its walk. -/
inductive SenderStep (n : Nat) where
  | connect (socket : Socket)
  | get (element : OutgoingBufferElement n)
  | send (socket : Socket) (result : SendResult)
  | finish
deriving DecidableEq, Repr

variable {n : Nat}

/-- {lit}`send_to_client`: the string and its terminator are handed to {lit}`send`, which takes at
least one byte if it succeeds. -/
def Sender.sendToClient (s : Sender n) (connectionSocket : Socket) (message : Bytes)
    (result : SendResult) : Option (Sender n) := do
  let length ← strlen (message ++ [0])
  match result with
  | .socketError => return s
  | .accepted count =>
      if 0 < count ∧ count ≤ length + 1 then
        return { s with
          stream := Function.update s.stream connectionSocket
            (s.stream connectionSocket ++ (message ++ [0]).take count)
          sent := Function.update s.sent connectionSocket (s.sent connectionSocket ++ [message]) }
      else none

/-- {lit}`send_subscription_message_or_response`, one call of {lit}`send_to_client` at a time.  An
element has a message, which is a string. -/
def senderStep (s : Sender n) : SenderStep n → Option (Sender n)
  | .connect socket =>
      some { s with
        stream := Function.update s.stream socket []
        sent := Function.update s.sent socket [] }
  | .get element =>
      match s.current, element.message with
      | none, some message =>
          if NulFree message then
            some { s with current := some (message, element.oneOrMoreSockets) }
          else none
      | _, _ => none
  | .send socket result =>
      match s.current with
      | none => none
      | some (message, .subscriberConnectionSockets _) => s.sendToClient socket message result
      | some (message, .connectionSocket connectionSocket) =>
          if socket = connectionSocket then
            (s.sendToClient socket message result).map fun s => { s with current := none }
          else none
  | .finish =>
      match s.current with
      | some (_, .subscriberConnectionSockets _) => some { s with current := none }
      | _ => none

/-- Nothing has been sent. -/
def Sender.start : Sender n where
  current := none
  stream := fun _ => []
  sent := fun _ => []

/-- The consumer thread and the connections. -/
def sender (n : Nat) : System (Sender n) (SenderStep n) where
  initial := fun s => s = Sender.start
  step := senderStep

/-! ## Whole frames -/

/-- The frames of messages: every message with its terminator. -/
def messageFrames (messages : List Bytes) : Bytes :=
  messages.flatMap fun message => message ++ [0]

/-- Every client has received the messages that have been sent to it, each as one frame. -/
def WholeFrames (s : Sender n) : Prop :=
  ∀ socket, s.stream socket = messageFrames (s.sent socket)

/-- {lit}`send` takes the whole message and its terminator, if it succeeds. -/
def TakesWhole (s : Sender n) : SenderStep n → Prop
  | .send _ (.accepted count) =>
      ∀ message sockets, s.current = some (message, sockets) → count = message.length + 1
  | _ => True

/-- The message of the current element is a string. -/
def Sender.HasString (s : Sender n) : Prop :=
  ∀ message sockets, s.current = some (message, sockets) → NulFree message

section Steps

variable {s s' : Sender n}

/-- What a call of {lit}`send_to_client` does. -/
theorem Sender.sendToClient_cases {connectionSocket : Socket} {message : Bytes}
    (hmessage : NulFree message) {result : SendResult}
    (h : s.sendToClient connectionSocket message result = some s') :
    result = .socketError ∧ s' = s ∨
      ∃ count, result = .accepted count ∧ 0 < count ∧ count ≤ message.length + 1 ∧
        s' = { s with
          stream := Function.update s.stream connectionSocket
            (s.stream connectionSocket ++ (message ++ [0]).take count)
          sent := Function.update s.sent connectionSocket
            (s.sent connectionSocket ++ [message]) } := by
  rw [sendToClient, strlen_append hmessage, Option.bind_eq_bind, Option.bind_some] at h
  cases result with
  | socketError =>
      left
      exact ⟨rfl, (Option.some.inj h).symm⟩
  | accepted count =>
      right
      simp only [Option.pure_def, Option.ite_none_right_eq_some, Option.some.injEq] at h
      rcases h with ⟨⟨hpos, hle⟩, rfl⟩
      exact ⟨count, rfl, hpos, hle, rfl⟩

/-- What one step does to the streams: nothing, or it begins a connection, or it hands bytes of
the current message to a socket. -/
inductive StreamStep (s : Sender n) : SenderStep n → Sender n → Prop
  | quiet {l : SenderStep n} {s' : Sender n} (htakes : TakesWhole s l)
      (hstream : s'.stream = s.stream) (hsent : s'.sent = s.sent) : StreamStep s l s'
  | connect {s' : Sender n} (socket : Socket)
      (hstream : s'.stream = Function.update s.stream socket [])
      (hsent : s'.sent = Function.update s.sent socket []) : StreamStep s (.connect socket) s'
  | taken {s' : Sender n} (socket : Socket) {count : Nat} {message : Bytes}
      {sockets : OneOrMoreSockets n} (hcurrent : s.current = some (message, sockets))
      (hcount : count ≤ message.length + 1)
      (hstream : s'.stream = Function.update s.stream socket
        (s.stream socket ++ (message ++ [0]).take count))
      (hsent : s'.sent = Function.update s.sent socket (s.sent socket ++ [message])) :
      StreamStep s (.send socket (.accepted count)) s'

/-- A call of {lit}`send_to_client` for the current element, whatever becomes of the element. -/
theorem Sender.sendToClient_streamStep {socket : Socket} {message : Bytes}
    {sockets : OneOrMoreSockets n} (hmessage : NulFree message)
    (hcurrent : s.current = some (message, sockets)) {result : SendResult} {s₁ : Sender n}
    (h : s.sendToClient socket message result = some s₁) (hstream : s'.stream = s₁.stream)
    (hsent : s'.sent = s₁.sent) : StreamStep s (.send socket result) s' := by
  rcases sendToClient_cases hmessage h with ⟨rfl, rfl⟩ | ⟨count, rfl, -, hcount, rfl⟩
  · exact .quiet trivial hstream hsent
  · exact .taken socket hcurrent hcount hstream hsent

theorem senderStep_cases (hs : s.HasString) {l : SenderStep n} (h : senderStep s l = some s') :
    StreamStep s l s' := by
  cases l with
  | connect socket =>
      simp only [senderStep, Option.some.injEq] at h
      subst h
      exact .connect socket rfl rfl
  | get element =>
      simp only [senderStep] at h
      split at h
      · simp only [Option.ite_none_right_eq_some, Option.some.injEq] at h
        rcases h with ⟨-, rfl⟩
        exact .quiet trivial rfl rfl
      · contradiction
  | send socket result =>
      simp only [senderStep] at h
      split at h
      · contradiction
      · next message t hcurrent =>
          exact Sender.sendToClient_streamStep (hs message _ hcurrent) hcurrent h rfl rfl
      · next message connectionSocket hcurrent =>
          simp only [Option.ite_none_right_eq_some, Option.map_eq_some_iff] at h
          rcases h with ⟨-, s₁, hsend, rfl⟩
          exact Sender.sendToClient_streamStep (hs message _ hcurrent) hcurrent hsend rfl rfl
  | finish =>
      simp only [senderStep] at h
      split at h
      · rw [Option.some.injEq] at h
        subst h
        exact .quiet trivial rfl rfl
      · contradiction

/-- Only {lit}`get` brings a message, and it brings a string. -/
theorem senderStep_hasString (hs : s.HasString) {l : SenderStep n}
    (h : senderStep s l = some s') : s'.HasString := by
  have hsend : ∀ {socket message result sockets} {s₁ : Sender n},
      s.current = some (message, sockets) → s.sendToClient socket message result = some s₁ →
        s₁.current = s.current := by
    intro socket message result sockets s₁ hcurrent h
    rcases Sender.sendToClient_cases (hs message sockets hcurrent) h with ⟨-, rfl⟩ |
      ⟨count, -, -, -, rfl⟩
    · rfl
    · rfl
  cases l with
  | connect socket =>
      simp only [senderStep, Option.some.injEq] at h
      subst h
      exact hs
  | get element =>
      simp only [senderStep] at h
      split at h
      · next message _ hmessage =>
          simp only [Option.ite_none_right_eq_some, Option.some.injEq] at h
          rcases h with ⟨hfree, rfl⟩
          rintro message' sockets' hcurrent'
          simp only [Option.some.injEq, Prod.mk.injEq] at hcurrent'
          exact hcurrent'.1 ▸ hfree
      · contradiction
  | send socket result =>
      simp only [senderStep] at h
      split at h
      · contradiction
      · next message t hcurrent =>
          rw [Sender.HasString, hsend hcurrent h]
          exact hs
      · next message connectionSocket hcurrent =>
          simp only [Option.ite_none_right_eq_some, Option.map_eq_some_iff] at h
          rcases h with ⟨-, s₁, -, rfl⟩
          rintro message' sockets' hcurrent'
          contradiction
  | finish =>
      simp only [senderStep] at h
      split at h
      · rw [Option.some.injEq] at h
        subst h
        rintro message' sockets' hcurrent'
        contradiction
      · contradiction

theorem messageFrames_append (messages messages' : List Bytes) :
    messageFrames (messages ++ messages') = messageFrames messages ++ messageFrames messages' := by
  simp [messageFrames]

/-- Every step but a short {lit}`send` keeps the streams rows of whole frames. -/
theorem senderStep_wholeFrames (hs : s.HasString) (hwhole : WholeFrames s) {l : SenderStep n}
    (htakes : TakesWhole s l) (h : senderStep s l = some s') : WholeFrames s' := by
  intro other
  cases senderStep_cases hs h with
  | quiet _ hstream hsent =>
      rw [hstream, hsent]
      exact hwhole other
  | connect socket hstream hsent =>
      rw [hstream, hsent]
      by_cases hother : other = socket
      · subst hother
        rw [Function.update_self, Function.update_self]
        rfl
      · rw [Function.update_of_ne hother, Function.update_of_ne hother]
        exact hwhole other
  | @taken _ socket count message sockets hcurrent _ hstream hsent =>
      have hcount : count = message.length + 1 := htakes message sockets hcurrent
      rw [hstream, hsent]
      by_cases hother : other = socket
      · subst hother
        have hall : (message ++ [0]).take count = messageFrames [message] := by
          rw [hcount, List.take_of_length_le (by simp), messageFrames, List.flatMap_singleton]
        rw [Function.update_self, Function.update_self, hwhole other, hall, messageFrames_append]
      · rw [Function.update_of_ne hother, Function.update_of_ne hother]
        exact hwhole other

/-- A short {lit}`send` leaves the peer with fewer bytes than the frames of its messages have. -/
theorem senderStep_cutFrame (hs : s.HasString) (hwhole : WholeFrames s) {l : SenderStep n}
    (htakes : ¬ TakesWhole s l) (h : senderStep s l = some s') : ¬ WholeFrames s' := by
  intro hwhole'
  cases senderStep_cases hs h with
  | quiet htakes' _ _ => exact htakes htakes'
  | connect socket _ _ => exact htakes trivial
  | @taken _ socket count message sockets hcurrent hcount hstream hsent =>
      have hshort : count ≠ message.length + 1 := by
        rintro rfl
        apply htakes
        intro message' sockets' hcurrent'
        rw [hcurrent, Option.some.injEq, Prod.mk.injEq] at hcurrent'
        rw [hcurrent'.1]
      have hlength := congrArg List.length (hwhole' socket)
      rw [hstream, hsent, Function.update_self, Function.update_self, hwhole socket,
        messageFrames_append, List.length_append, List.length_append, List.length_take] at hlength
      simp only [messageFrames, List.flatMap_singleton, List.length_append,
        List.length_singleton] at hlength
      omega

end Steps

/-- In every run, all clients receive whole frames, one for each message sent to them and in
order, exactly when every {lit}`send` takes the whole message or reports an error. -/
theorem wholeFrames_iff (run : List (SenderStep n)) :
    (sender n).StatesSatisfy WholeFrames Sender.start run ↔
      (sender n).StepsSatisfy TakesWhole Sender.start run := by
  have hstart : WholeFrames (Sender.start : Sender n) := fun _ => rfl
  have hstring : (Sender.start : Sender n).HasString := by
    rintro message sockets hcurrent
    contradiction
  refine System.statesSatisfy_iff_stepsSatisfy (fun s => s.HasString ∧ WholeFrames s) ?_ ?_ run
    ⟨hstring, hstart⟩ hstart
  · rintro s l s' ⟨hs, hwhole⟩ htakes h
    have hwhole' := senderStep_wholeFrames hs hwhole htakes h
    exact ⟨⟨senderStep_hasString hs h, hwhole'⟩, hwhole'⟩
  · rintro s l s' ⟨hs, hwhole⟩ htakes h
    exact senderStep_cutFrame hs hwhole htakes h

/-- A response whose terminator the socket has no room for, and a second response. -/
def shortSend : List (SenderStep 0) :=
  [.connect 5, .get ⟨some [byteOf '1'], .connectionSocket 5⟩, .send 5 (.accepted 1),
    .get ⟨some [byteOf '0'], .connectionSocket 5⟩, .send 5 (.accepted 2)]

/-- The client receives one frame instead of two. -/
theorem not_wholeFrames_shortSend :
    ¬ (sender 0).StatesSatisfy WholeFrames Sender.start shortSend := by
  have hrun : ((sender 0).run Sender.start shortSend).map (fun s => (s.stream 5, s.sent 5)) =
      some ([byteOf '1', byteOf '0', 0], [[byteOf '1'], [byteOf '0']]) := by
    decide
  rcases Option.map_eq_some_iff.mp hrun with ⟨s, hs, heq⟩
  rw [Prod.mk.injEq] at heq
  intro hstates
  have hwhole := hstates.of_run hs 5
  rw [heq.1, heq.2] at hwhole
  contradiction

end Broker
end PubSub
