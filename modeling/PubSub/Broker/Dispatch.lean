import Mathlib.Data.List.TakeWhile
import PubSub.Broker.Segmentation

/-!
# Framing and dispatch

{lit}`create_command` puts a topic and a message into one string, with a number sign between
them, and {lit}`execute_command` splits that string at its first number sign.  The two agree on
every topic without a number sign; a topic that has one is cut there, and its rest goes
in front of the message.

Main results:

- Theorem {lit}`publishesAs_typed`: what becomes of a topic and a message of any form.
- Theorem {lit}`commands_dispatched`: over a sequence of receives of whole commands, the loop
  executes each command of each receive once, in order, and recovers its parts.
-/

namespace PubSub
namespace Broker

open Foundations Client

/-! ## A typed topic and message -/

/-- The frame of a publish command with the topic and the message publishes
{lit}`publishedMessage`, with a number sign in front, to the topic {lit}`publishedTopic` if there
is one, and has no effect otherwise. -/
def PublishesAs (topics : List Topic) (connectionSocketPtr : SocketPtr)
    (topic message publishedTopic publishedMessage : Bytes) : Prop :=
  ∃ command, createCommand (byteOf '2') (topic ++ [0]) (some (message ++ [0])) =
      some ((hashtag :: command ++ [0]).map some) ∧
    (getTopicByName topics publishedTopic = none → ∀ rest,
      executeCommand topics (command ++ 0 :: rest) connectionSocketPtr =
        some ⟨topics, none, none⟩) ∧
    ∀ i, getTopicByName topics publishedTopic = some i → ∃ notification, ∀ rest,
      executeCommand topics (command ++ 0 :: rest) connectionSocketPtr =
        some ⟨topics.set i { topics.get i with
          messageQueue := (topics.get i).messageQueue ++ [hashtag :: publishedMessage] },
          none, some notification⟩

/-- What the broker takes for the topic: the typed one up to its first number sign. -/
def publishedTopic (topic : Bytes) : Bytes :=
  topic.takeWhile (· ≠ hashtag)

/-- What the broker takes for the message: everything behind the first number sign behind
the beginning of the topic. -/
def publishedMessage (topic message : Bytes) : Bytes :=
  ((topic ++ hashtag :: message).dropWhile (· ≠ hashtag)).tail

theorem publishedTopic_of_hashtagFree {topic : Bytes} (hfree : ∀ b ∈ topic, b ≠ hashtag) :
    publishedTopic topic = topic :=
  List.takeWhile_eq_self_iff.mpr fun b hb => decide_eq_true (hfree b hb)

theorem publishedMessage_of_hashtagFree {topic : Bytes} (hfree : ∀ b ∈ topic, b ≠ hashtag)
    (message : Bytes) : publishedMessage topic message = message := by
  rw [publishedMessage, List.dropWhile_append_of_pos fun b hb => decide_eq_true (hfree b hb),
    List.dropWhile_cons_of_neg (by simp), List.tail_cons]

/-- Nothing between the two parts is lost. -/
theorem published_append (topic message : Bytes) :
    publishedTopic topic ++ hashtag :: publishedMessage topic message =
      topic ++ hashtag :: message := by
  induction topic with
  | nil => simp [publishedTopic, publishedMessage]
  | cons b topic ih =>
      by_cases hb : b = hashtag
      · simp [publishedTopic, publishedMessage, hb]
      · have htopic : publishedTopic (b :: topic) = b :: publishedTopic topic :=
          List.takeWhile_cons_of_pos (by simpa using hb)
        have hmessage : publishedMessage (b :: topic) message = publishedMessage topic message := by
          rw [publishedMessage, List.cons_append, List.dropWhile_cons_of_pos (by simpa using hb),
            publishedMessage]
        rw [htopic, hmessage, List.cons_append, ih, List.cons_append]

/-- The frames of two commands are the same when the first number sign separates the same
parts. -/
theorem text_published (topic message : Bytes) :
    (Command.publish topic message).text =
      (Command.publish (publishedTopic topic) (publishedMessage topic message)).text := by
  simp only [Command.text, Command.type, Command.topic, Command.tail, published_append]

theorem published_wellFormed {topic message : Bytes} (htopic : NulFree topic)
    (hmessage : NulFree message) :
    (Command.publish (publishedTopic topic) (publishedMessage topic message)).WellFormed := by
  have hparts : NulFree (publishedTopic topic ++ hashtag :: publishedMessage topic message) := by
    rw [published_append]
    simp [htopic, hmessage]
  rw [nulFree_append] at hparts
  refine ⟨hparts.1, fun b hb => ?_, hparts.2⟩
  simpa using List.mem_takeWhile_imp hb

/-- Whatever the topic and the message are, the broker publishes what is behind the first
number sign of the frame's fields to the topic that is named before it. -/
theorem publishesAs_typed (topics : List Topic) (connectionSocketPtr : SocketPtr)
    {topic message : Bytes} (htopic : NulFree topic) (hmessage : NulFree message) :
    PublishesAs topics connectionSocketPtr topic message (publishedTopic topic)
        (publishedMessage topic message) ∧
      ((∀ b ∈ topic, b ≠ hashtag) →
        publishedTopic topic = topic ∧ publishedMessage topic message = message) := by
  have htail : NulFree (Command.publish topic message).tail := by
    simp [Command.tail, hmessage]
  have hcreated := createCommand_eq (Command.publish topic message) htopic htail [] []
  have hexecuted := fun rest => executeCommand_eq topics connectionSocketPtr
    (published_wellFormed htopic hmessage) rest
  simp only [← text_published, perform, publish, Option.map_some] at hexecuted
  constructor
  · refine ⟨(Command.publish topic message).text, hcreated, fun hnone rest => ?_,
      fun i hsome => ⟨notificationOf
        (.publish (publishedTopic topic) (publishedMessage topic message)), fun rest => ?_⟩⟩
    · rw [hexecuted, hnone]
      rfl
    · rw [hexecuted, hsome]
      rfl
  · intro hfree
    exact ⟨publishedTopic_of_hashtagFree hfree, publishedMessage_of_hashtagFree hfree message⟩

/-- A topic with a number sign, for which the message goes to news. -/
theorem publishesAs_typed_newsHashtag :
    PublishesAs [⟨news, [], []⟩] 1 (news ++ [hashtag, byteOf 'a']) [byteOf 'b'] news
      [byteOf 'a', hashtag, byteOf 'b'] :=
  (publishesAs_typed [⟨news, [], []⟩] 1 (by decide : NulFree (news ++ [hashtag, byteOf 'a']))
    (by decide : NulFree [byteOf 'b'])).1

/-- The broker has no topic of that name, and publishes to news nevertheless. -/
theorem not_publishesAs_newsHashtag :
    ¬ ∀ (topics : List Topic) (connectionSocketPtr : SocketPtr) (topic message : Bytes),
      NulFree topic → topic.length ≤ 20 → NulFree message → message.length ≤ 20 →
        PublishesAs topics connectionSocketPtr topic message topic message := by
  intro hall
  rcases hall [⟨news, [], []⟩] 1 (news ++ [hashtag, byteOf 'a']) [byteOf 'b'] (by decide)
    (by decide) (by decide) (by decide) with ⟨command, hcreated, hnone, -⟩
  have htyped : createCommand (byteOf '2') (news ++ [hashtag, byteOf 'a'] ++ [0])
      (some ([byteOf 'b'] ++ [0])) =
        some ((Command.publish news [byteOf 'a', hashtag, byteOf 'b']).frame.map some) := by
    decide
  have hcommand : hashtag :: command ++ [0] =
      hashtag :: (Command.publish news [byteOf 'a', hashtag, byteOf 'b']).text ++ [0] := by
    rw [htyped, Option.some.injEq] at hcreated
    exact (List.map_injective_iff.mpr (Option.some_injective _) hcreated).symm
  have heq := List.append_cancel_right hcommand
  rw [List.cons.injEq] at heq
  have hexecuted := hnone (by decide) []
  rw [heq.2] at hexecuted
  revert hexecuted
  decide

/-! ## Receives of whole commands -/

/-- What {lit}`execute_command` takes out of a command before it acts on the topics.  The
message has a number sign in front. -/
structure Decoded where
  commandType : Byte
  topicName : Bytes
  message : Option Bytes
deriving DecidableEq, Repr

/-- The part of {lit}`execute_command` that takes a command of one of the five types apart. -/
def decodeCommand (command : Bytes) : Option Decoded :=
  match command with
  | [] => none
  | commandType :: _ =>
      if commandType = byteOf '2' then
        (extractForPublish command).map fun (topicName, message) =>
          ⟨commandType, topicName, some message⟩
      else (extractTopicName command).map fun topicName => ⟨commandType, topicName, none⟩

/-- The parts of a command. -/
def decodedOf (c : Command) : Decoded :=
  ⟨c.type, c.topic, c.message.map fun message => hashtag :: message⟩

theorem decodeCommand_eq {c : Command} (hc : c.WellFormed) (rest : Bytes) :
    decodeCommand (c.text ++ 0 :: rest) = some (decodedOf c) := by
  cases c with
  | publish topic message =>
      have hextract := extractForPublish_eq hc rest
      have htext : ∃ t, (Command.publish topic message).text ++ 0 :: rest = byteOf '2' :: t :=
        ⟨_, rfl⟩
      rcases htext with ⟨t, htext⟩
      rw [htext] at hextract ⊢
      simp only [decodeCommand, if_true, hextract, Option.map_some]
      rfl
  | subscribe topic | topicExists topic | subscriberNumber topic | unsubscribe topic =>
      simp only [Command.text, Command.tail, List.append_nil, List.cons_append, decodeCommand]
      rw [if_neg (by simp [Command.type, byteOf]),
        extractTopicName_eq (Command.type_ne_nul _) hashtag_ne_nul hc.topic_nulFree rest]
      rfl

/-- The bytes that clients send for commands, as {lit}`create_command` makes them. -/
def createdBytes (cs : List Command) : Option Bytes :=
  (cs.mapM fun c => (createCommand c.type (c.topic ++ [0])
    (c.message.map fun message => message ++ [0])).bind Block.bytes).map List.flatten

theorem createdBytes_eq {cs : List Command} (hcs : ∀ c ∈ cs, c.WellFormed) :
    createdBytes cs = some (stream cs) := by
  have hframes : (cs.mapM fun c => (createCommand c.type (c.topic ++ [0])
      (c.message.map fun message => message ++ [0])).bind Block.bytes) =
        some (cs.map Command.frame) := by
    induction cs with
    | nil => rfl
    | cons c cs ih =>
        have hc := hcs c (by simp)
        have hcreated := createCommand_eq c hc.topic_nulFree hc.tail_nulFree [] []
        rw [List.mapM_cons, ih fun d hd => hcs d (by simp [hd]), hcreated, Option.bind_some,
          Block.bytes_map_some]
        rfl
  rw [createdBytes, hframes, Option.map_some, stream, framesOf, List.flatMap_map,
    ← List.flatMap_def]
  rfl

/-- What becomes of the bytes of the commands when they are received.  The loop calls
{lit}`execute_command` with the memory behind each of {lit}`starts`. -/
structure Dispatched (s : MainLoop) (cs : List Command) (bytes : Bytes) : Prop where
  decoded : ∃ receiveBuffer starts i,
    recvInto s.receiveBuffer brokerReceiveBufferSize bytes = some receiveBuffer ∧
    frameStarts hashtag false 0 receiveBuffer = some (starts, i) ∧
    starts.map (fun start => decodeCommand start.2) = cs.map (fun c => some (decodedOf c)) ∧
    zeroFill receiveBuffer brokerReceiveBufferSize = some (zeros brokerReceiveBufferSize)
  executed : ∀ connectionSocketPtr rest socket, s.walker = connectionSocketPtr :: rest →
    s.socket connectionSocketPtr = some socket →
    (serveRound s (.data bytes) : Option (MainLoop × Produced 0)) =
      (cs.foldlM (fun produced c => performAndProduce connectionSocketPtr socket c produced)
        ⟨s.topics, [], []⟩).map fun produced =>
          ({ s with
            topics := produced.topics
            walker := rest
            receiveBuffer := zeros brokerReceiveBufferSize }, produced)

/-- Taking apart what the loop finds. -/
theorem decodeCommand_starts {cs : List Command} (hcs : ∀ c ∈ cs, c.WellFormed)
    {starts : List (Nat × Bytes)}
    (hframes : List.Forall₂ (fun f start => ∃ rest, start.2 = f ++ 0 :: rest)
      (cs.map Command.text) starts) :
    starts.map (fun start => decodeCommand start.2) = cs.map fun c => some (decodedOf c) := by
  induction cs generalizing starts with
  | nil =>
      cases hframes
      rfl
  | cons c cs ih =>
      rw [List.map_cons] at hframes
      cases hframes with
      | cons hhead htail =>
          rcases hhead with ⟨rest, hstart⟩
          rw [List.map_cons, List.map_cons, hstart, decodeCommand_eq (hcs c (by simp)),
            ih (fun d hd => hcs d (by simp [hd])) htail]

/-- A receive into a buffer of zeros. -/
theorem dispatched_of_zeros {s : MainLoop}
    (hzeros : s.receiveBuffer = zeros brokerReceiveBufferSize) {cs : List Command}
    (hcs : ∀ c ∈ cs, c.WellFormed) (hsize : (stream cs).length < brokerReceiveBufferSize) :
    Dispatched s cs (stream cs) := by
  constructor
  case decoded =>
    have hreceived := recvInto_zeros (Nat.le_of_lt hsize) (Nat.le_refl brokerReceiveBufferSize)
    rcases Nat.exists_eq_add_of_lt hsize with ⟨m, hm⟩
    have hroom : brokerReceiveBufferSize - (stream cs).length = m + 1 := by omega
    have hfree : ∀ f ∈ cs.map Command.text, NulFree f := by
      intro f hf
      rcases List.mem_map.mp hf with ⟨c, hc, rfl⟩
      exact (hcs c hc).text_nulFree
    rcases frameStarts_frames hfree nul_ne_hashtag 0 (zeros m) with ⟨starts, hstarts, hframes⟩
    rw [hroom, zeros_succ, ← hzeros] at hreceived
    refine ⟨_, starts, _, hreceived, hstarts, decodeCommand_starts hcs hframes, zeroFill_all ?_⟩
    simp only [List.length_append, List.length_cons, length_zeros, stream] at hm ⊢
    omega
  case executed =>
    intro connectionSocketPtr rest socket hwalker hsocket
    rw [serveRound_commands hwalker hzeros hsocket hcs hsize, hzeros]

/-- Clearing the buffer leaves zeros, whatever has been received. -/
theorem serveRound_zeros {s s' : MainLoop} {incoming : Incoming} {produced : Produced 0}
    (hzeros : s.receiveBuffer = zeros brokerReceiveBufferSize)
    (h : serveRound s incoming = some (s', produced)) :
    s'.receiveBuffer = zeros brokerReceiveBufferSize := by
  unfold serveRound at h
  split at h
  · contradiction
  next p rest hwalker =>
    cases incoming with
    | selectError | willBlock | recvError | closed =>
        simp only [receiveCommands, Option.bind_eq_bind, Option.bind_some, Option.pure_def,
          Option.some.injEq, Prod.mk.injEq] at h
        rcases h with ⟨rfl, -⟩
        exact hzeros
    | data bytes =>
        simp only [receiveCommands, Option.bind_eq_bind, Option.bind_eq_some_iff,
          Option.map_eq_some_iff] at h
        rcases h with ⟨-, ⟨receiveBuffer, hreceived, rfl⟩, h⟩
        simp only [Option.bind_eq_some_iff, Option.pure_def, Option.some.injEq,
          Prod.mk.injEq] at h
        rcases h with ⟨socket, -, ⟨produced', i⟩, -, cleared, hcleared, rfl, -⟩
        have hlength : receiveBuffer.length = brokerReceiveBufferSize := by
          rw [length_recvInto hreceived, hzeros, length_zeros]
        rw [zeroFill_all hlength, Option.some.injEq] at hcleared
        exact hcleared.symm

/-- The buffer is zero between two steps of the main loop. -/
theorem mainLoopStep_zeros {s s' : MainLoop} {l : MainLoopStep}
    (hzeros : s.receiveBuffer = zeros brokerReceiveBufferSize)
    (h : mainLoopStep s l = some s') : s'.receiveBuffer = zeros brokerReceiveBufferSize := by
  cases l with
  | accept accepted =>
      rcases mainLoopStep_accept_eq_some_iff.mp h with ⟨-, t, ht, rfl⟩
      rcases acceptConnection_cases ht with ⟨-, hbuffer, -⟩
      exact hbuffer.trans hzeros
  | serve incoming =>
      rcases mainLoopStep_serve_eq_some_iff.mp h with ⟨produced, ht⟩
      exact serveRound_zeros hzeros ht

theorem zeros_of_run {topicNames : List Bytes} {s s' : MainLoop} {run : List MainLoopStep}
    (hzeros : s.receiveBuffer = zeros brokerReceiveBufferSize)
    (hrun : (mainLoop topicNames).run s run = some s') :
    s'.receiveBuffer = zeros brokerReceiveBufferSize := by
  induction run generalizing s with
  | nil =>
      rw [System.run_nil, Option.some.injEq] at hrun
      exact hrun ▸ hzeros
  | cons l run ih =>
      rw [System.run_cons, Option.bind_eq_some_iff] at hrun
      rcases hrun with ⟨s₁, hstep, hrest⟩
      exact ih (mainLoopStep_zeros hzeros hstep) hrest

/-- Whatever has been received since the buffer was zero, it is zero again, and of the next
receive of whole commands each one is executed once, in order, with its own type, topic and
message. -/
theorem commands_dispatched {topicNames : List Bytes} {s s' : MainLoop} {run : List MainLoopStep}
    (hzeros : s.receiveBuffer = zeros brokerReceiveBufferSize)
    (hrun : (mainLoop topicNames).run s run = some s') {cs : List Command}
    (hcs : ∀ c ∈ cs, c.WellFormed) {bytes : Bytes} (hbytes : createdBytes cs = some bytes)
    (hsize : bytes.length ≤ brokerReceiveBufferSize - 1) :
    s'.receiveBuffer = zeros brokerReceiveBufferSize ∧ Dispatched s' cs bytes := by
  have hzeros' := zeros_of_run hzeros hrun
  rw [createdBytes_eq hcs, Option.some.injEq] at hbytes
  subst hbytes
  have hroom : (stream cs).length < brokerReceiveBufferSize := by
    have hpositive : 0 < brokerReceiveBufferSize := by decide
    omega
  exact ⟨hzeros', dispatched_of_zeros hzeros' hcs hroom⟩

/-- A short receive after a longer one. -/
theorem commands_dispatched_shorter :
    ∃ s : MainLoop, s.walker = [1] ∧ Dispatched s [.subscribe news]
      (stream [.subscribe news]) := by
  have hrun : ((mainLoop [news]).run (MainLoop.start [news])
      [.accept (.socket 1 7 true),
        .serve (.data (stream [.publish news updates, .topicExists news])),
        .accept .willBlock]).map MainLoop.walker = some [1] := by
    decide +kernel
  rcases Option.map_eq_some_iff.mp hrun with ⟨s, hs, hwalker⟩
  have hnews : ∀ c ∈ [Command.subscribe news], c.WellFormed := by decide
  exact ⟨s, hwalker, (commands_dispatched rfl hs hnews (createdBytes_eq hnews) (by decide)).2⟩

end Broker
end PubSub
