import PubSub.Broker.MainLoop

/-!
# Segmentation of the command stream

A client sends its commands as one stream of bytes, which arrives in the chunks that
successive calls of {lit}`recv` return.  The main loop looks at every chunk alone: it
clears the buffer in between and keeps no part of a frame.

Main results:

- Theorem {lit}`serveRound_starts`: the commands that a round of the main loop executes are
  the strings of {lit}`commandsOf`.
- Theorem {lit}`weight_executedCommands_le`: no byte of a chunk is executed twice.
- Theorem {lit}`executedCommands_eq_iff`: the commands of the stream are executed once each
  and in order exactly when every cut is at the end of a frame, or right before a
  terminator that then arrives alone.
-/

namespace PubSub
namespace Broker

open Foundations Client

/-! ## What is executed -/

/-- The commands that the loop over the receive buffer passes to
{lit}`execute_command_and_produce`, as strings. -/
def commandsOf (receiveBuffer : Bytes) : Option (List Bytes) :=
  frameStrings hashtag receiveBuffer

/-- The commands that are executed when {lit}`recv` returns the chunks, one after the other. -/
def executedCommands (receiveBuffer : Bytes) : List Bytes → Option (List Bytes)
  | [] => some []
  | chunk :: chunks => do
      let receiveBuffer ← recvInto receiveBuffer brokerReceiveBufferSize chunk
      let commands ← commandsOf receiveBuffer
      let receiveBuffer ← zeroFill receiveBuffer brokerReceiveBufferSize
      let rest ← executedCommands receiveBuffer chunks
      return commands ++ rest

/-- The commands of a stream of which every cut is at the end of a frame, or right before
a terminator that arrives alone and is the one that the buffer has in its place. -/
inductive CutBetweenFrames : List Bytes → List Command → Prop
  | nil : CutBetweenFrames [] []
  | whole {chunks : List Bytes} {cs : List Command} (ds : List Command)
      (hrest : CutBetweenFrames chunks cs) :
      CutBetweenFrames (stream ds :: chunks) (ds ++ cs)
  | beforeTerminator {chunks : List Bytes} {cs : List Command} (ds : List Command) (c : Command)
      (hroom : (stream ds ++ hashtag :: c.text).length + 1 < brokerReceiveBufferSize)
      (hrest : CutBetweenFrames chunks cs) :
      CutBetweenFrames ((stream ds ++ hashtag :: c.text) :: [0] :: chunks) (ds ++ c :: cs)

/-- A round of the main loop executes the strings of {lit}`commandsOf`, each with the memory
behind it. -/
theorem serveRound_starts {n : Nat} {s s' : MainLoop} {chunk : Bytes} {produced : Produced n}
    (h : serveRound s (.data chunk) = some (s', produced)) :
    ∃ p socket receiveBuffer starts i,
      s.walker.head? = some p ∧ s.socket p = some socket ∧
      recvInto s.receiveBuffer brokerReceiveBufferSize chunk = some receiveBuffer ∧
      frameStarts hashtag false 0 receiveBuffer = some (starts, i) ∧
      starts.foldlM (fun produced start =>
        executeCommandAndProduce p socket start.2 produced) ⟨s.topics, [], []⟩ = some produced ∧
      commandsOf receiveBuffer =
        starts.foldlM (fun commands start => recordString start.1 start.2 commands) [] := by
  unfold serveRound at h
  split at h
  · contradiction
  next p rest hwalker =>
    simp only [receiveCommands, Option.bind_eq_bind, Option.bind_eq_some_iff,
      Option.map_eq_some_iff] at h
    rcases h with ⟨-, ⟨receiveBuffer, hreceived, rfl⟩, h⟩
    simp only [Option.bind_eq_some_iff, Option.pure_def, Option.some.injEq, Prod.mk.injEq] at h
    rcases h with ⟨socket, hsocket, ⟨produced', i⟩, hloop, cleared, -, -, rfl⟩
    rw [frameLoop_eq_foldlM, Option.bind_eq_some_iff] at hloop
    rcases hloop with ⟨⟨starts, j⟩, hstarts, hfold⟩
    rw [Option.map_eq_some_iff] at hfold
    rcases hfold with ⟨produced'', hfold, heq⟩
    rw [Prod.mk.injEq] at heq
    rcases heq with ⟨rfl, rfl⟩
    refine ⟨p, socket, receiveBuffer, starts, j, by simp [hwalker], hsocket, hreceived, hstarts,
      hfold, ?_⟩
    rw [commandsOf, frameStrings, frameLoop_eq_foldlM, hstarts, Option.bind_some, Option.map_map]
    exact Option.map_id'

/-! ## Chunks of frames -/

/-- One chunk: what arrives in front of zeros is executed, and the buffer is zero again. -/
theorem executedCommands_cons {chunk : Bytes} (hsize : chunk.length ≤ brokerReceiveBufferSize)
    (chunks : List Bytes) :
    executedCommands (zeros brokerReceiveBufferSize) (chunk :: chunks) =
      (commandsOf (chunk ++ zeros (brokerReceiveBufferSize - chunk.length))).bind fun commands =>
        (executedCommands (zeros brokerReceiveBufferSize) chunks).map fun rest =>
          commands ++ rest := by
  have hcleared : zeroFill (chunk ++ zeros (brokerReceiveBufferSize - chunk.length))
      brokerReceiveBufferSize = some (zeros brokerReceiveBufferSize) := by
    rw [zeroFill_append_zeros hsize (by omega)]
    congr 2
    omega
  rw [executedCommands, recvInto_zeros hsize (Nat.le_refl _), Option.bind_eq_bind,
    Option.bind_some]
  cases commandsOf (chunk ++ zeros (brokerReceiveBufferSize - chunk.length)) with
  | none => simp only [Option.bind_eq_bind, Option.bind_none]
  | some commands =>
      simp only [hcleared, Option.bind_eq_bind, Option.bind_some]
      cases executedCommands (zeros brokerReceiveBufferSize) chunks <;> simp

/-- A chunk that consists of frames, the last of which may lack its terminator. -/
theorem executedCommands_frames {fs : List Bytes} (hfree : ∀ f ∈ fs, NulFree f) {chunk : Bytes}
    {k : Nat} (hchunk : chunk ++ zeros k = framesOf hashtag fs)
    (hroom : chunk.length + k < brokerReceiveBufferSize) (chunks : List Bytes) :
    executedCommands (zeros brokerReceiveBufferSize) (chunk :: chunks) =
      (executedCommands (zeros brokerReceiveBufferSize) chunks).map fun rest => fs ++ rest := by
  have hzeros : zeros (brokerReceiveBufferSize - chunk.length) =
      zeros k ++ 0 :: zeros (brokerReceiveBufferSize - chunk.length - k - 1) := by
    rw [← zeros_succ, zeros, zeros, zeros, List.replicate_append_replicate]
    congr 1
    omega
  rw [executedCommands_cons (by omega), hzeros, ← List.append_assoc, hchunk,
    commandsOf, frameStrings_frames hfree nul_ne_hashtag, Option.bind_some]

/-- A chunk that does not begin with a number sign is lost. -/
theorem executedCommands_stop {b : Byte} (hb : b ≠ hashtag) (bs : Bytes) (chunks : List Bytes)
    (hsize : (b :: bs).length ≤ brokerReceiveBufferSize) :
    executedCommands (zeros brokerReceiveBufferSize) ((b :: bs) :: chunks) =
      executedCommands (zeros brokerReceiveBufferSize) chunks := by
  rw [executedCommands_cons hsize, List.cons_append, commandsOf, frameStrings_stop hb,
    Option.bind_some]
  simp

/-! ## No byte is executed twice -/

/-- The text of a stream is what its commands take up. -/
theorem textLength_stream {cs : List Command} (hcs : ∀ c ∈ cs, c.WellFormed) :
    textLength (stream cs) = weight (cs.map Command.text) := by
  induction cs with
  | nil => simp [stream, textLength, weight]
  | cons c cs ih =>
      have hfree : NulFree (hashtag :: c.text) := by simp [(hcs c (by simp)).text_nulFree]
      have hrest := ih fun d hd => hcs d (by simp [hd])
      have hframe : stream (c :: cs) = (hashtag :: c.text) ++ (zeros 1 ++ stream cs) := by
        simp [stream, zeros]
      rw [hframe, textLength_append, textLength_append, textLength_nulFree hfree,
        textLength_zeros, hrest]
      simp [weight]

/-- No byte of the chunks is executed twice. -/
theorem weight_executedCommands_le {chunks : List Bytes} {commands : List Bytes}
    (hsize : ∀ chunk ∈ chunks, chunk.length ≤ brokerReceiveBufferSize)
    (h : executedCommands (zeros brokerReceiveBufferSize) chunks = some commands) :
    weight commands ≤ textLength chunks.flatten := by
  induction chunks generalizing commands with
  | nil =>
      rw [executedCommands, Option.some.injEq] at h
      simp [← h, weight]
  | cons chunk chunks ih =>
      rw [executedCommands_cons (hsize chunk (by simp)), Option.bind_eq_some_iff] at h
      rcases h with ⟨here, hhere, hrest⟩
      rw [Option.map_eq_some_iff] at hrest
      rcases hrest with ⟨rest, hrest, rfl⟩
      have hle := weight_frameStrings_le hashtag_ne_nul hhere
      have hle' := ih (fun c hc => hsize c (by simp [hc])) hrest
      simp only [textLength_append, textLength_zeros, weight_append, List.flatten_cons] at *
      omega

/-! ## Cuts -/

/-- The first chunk of a stream consists of whole frames and perhaps the beginning of one
more. -/
theorem exists_split {chunk rest : Bytes} {cs : List Command} (hchunk : chunk ≠ [])
    (h : chunk ++ rest = stream cs) :
    (∃ ds es, cs = ds ++ es ∧ chunk = stream ds ∧ rest = stream es) ∨
      ∃ ds c es text tail, cs = ds ++ c :: es ∧ c.text = text ++ tail ∧
        chunk = stream ds ++ hashtag :: text ∧ rest = tail ++ 0 :: stream es := by
  induction cs generalizing chunk with
  | nil =>
      have hnil : chunk = [] := (List.append_eq_nil_iff.mp (by simpa [stream] using h)).1
      exact absurd hnil hchunk
  | cons c cs ih =>
      have hstream : stream (c :: cs) = (hashtag :: c.text ++ [0]) ++ stream cs := by
        simp [stream]
      rw [hstream] at h
      rcases List.append_eq_append_iff.mp h with ⟨tail, hframe, hrest⟩ | ⟨more, hmore, hrest⟩
      · -- the cut is inside the first frame or at its end
        rcases List.eq_nil_or_concat tail with rfl | ⟨tail', z, rfl⟩
        · refine .inl ⟨[c], cs, rfl, ?_, by simpa using hrest⟩
          rw [List.append_nil] at hframe
          simp [stream, ← hframe]
        · cases chunk with
          | nil => exact absurd rfl hchunk
          | cons b text =>
              rw [List.concat_eq_append, ← List.append_assoc] at hframe
              rcases List.append_inj' hframe rfl with ⟨hbody, hz⟩
              rw [List.cons_append, List.cons.injEq] at hbody
              rw [List.cons.injEq] at hz
              refine .inr ⟨[], c, cs, text, tail', rfl, hbody.2, ?_, ?_⟩
              · simp [stream, hbody.1]
              · rw [hrest, ← hz.1]
                simp
      · by_cases hnil : more = []
        · subst hnil
          refine .inl ⟨[c], cs, rfl, ?_, by simpa using hrest.symm⟩
          rw [hmore]
          simp [stream]
        · rcases ih hnil hrest.symm with ⟨ds, es, rfl, rfl, hes⟩ |
            ⟨ds, d, es, text, tail, rfl, htext, rfl, hes⟩
          · refine .inl ⟨c :: ds, es, rfl, ?_, hes⟩
            rw [hmore]
            simp [stream]
          · refine .inr ⟨c :: ds, d, es, text, tail, rfl, htext, ?_, hes⟩
            rw [hmore]
            simp [stream]

theorem nulFree_texts {cs : List Command} (hcs : ∀ c ∈ cs, NulFree c.text) :
    ∀ f ∈ cs.map Command.text, NulFree f := by
  intro f hf
  rcases List.mem_map.mp hf with ⟨c, hc, rfl⟩
  exact hcs c hc

/-- A chunk of whole frames. -/
theorem executedCommands_whole {ds : List Command} (hds : ∀ d ∈ ds, d.WellFormed)
    (chunks : List Bytes) (hsize : (stream ds).length < brokerReceiveBufferSize) :
    executedCommands (zeros brokerReceiveBufferSize) (stream ds :: chunks) =
      (executedCommands (zeros brokerReceiveBufferSize) chunks).map fun rest =>
        ds.map Command.text ++ rest := by
  have hchunk : stream ds ++ zeros 0 = framesOf hashtag (ds.map Command.text) := by
    simp [stream, zeros]
  exact executedCommands_frames (nulFree_texts fun d hd => (hds d hd).text_nulFree) hchunk hsize
    chunks

theorem nulFree_texts_append {ds : List Command} (hds : ∀ d ∈ ds, NulFree d.text) {text : Bytes}
    (htext : NulFree text) : ∀ f ∈ ds.map Command.text ++ [text], NulFree f := by
  intro f hf
  rcases List.mem_append.mp hf with hmem | hmem
  · exact nulFree_texts hds f hmem
  · exact List.mem_singleton.mp hmem ▸ htext

theorem stream_append_beginning (ds : List Command) (text : Bytes) :
    (stream ds ++ hashtag :: text) ++ zeros 1 =
      framesOf hashtag (ds.map Command.text ++ [text]) := by
  simp [stream, zeros, framesOf_append]

/-- A chunk that ends inside a frame executes the beginning of a command. -/
theorem executedCommands_beginning {ds : List Command} (hds : ∀ d ∈ ds, d.WellFormed)
    {text : Bytes} (htext : NulFree text) (chunks : List Bytes)
    (hroom : (stream ds ++ hashtag :: text).length + 1 < brokerReceiveBufferSize) :
    executedCommands (zeros brokerReceiveBufferSize) ((stream ds ++ hashtag :: text) :: chunks) =
      (executedCommands (zeros brokerReceiveBufferSize) chunks).map fun rest =>
        ds.map Command.text ++ text :: rest := by
  have hfree := nulFree_texts_append (fun d hd => (hds d hd).text_nulFree) htext
  rw [executedCommands_frames hfree (stream_append_beginning ds text) hroom]
  simp

/-- With no room for a byte behind the terminator, such a chunk makes the loop leave the
buffer. -/
theorem executedCommands_full {ds : List Command} (hds : ∀ d ∈ ds, d.WellFormed) {text : Bytes}
    (htext : NulFree text) (chunks : List Bytes)
    (hfull : (stream ds ++ hashtag :: text).length + 1 = brokerReceiveBufferSize) :
    executedCommands (zeros brokerReceiveBufferSize) ((stream ds ++ hashtag :: text) :: chunks) =
      none := by
  have hone : brokerReceiveBufferSize - (stream ds ++ hashtag :: text).length = 1 := by omega
  have hfree := nulFree_texts_append (fun d hd => (hds d hd).text_nulFree) htext
  rw [executedCommands_cons (by omega), hone, stream_append_beginning, commandsOf,
    frameStrings_overrun hfree, Option.bind_none]

/-- Chunks that are cut between frames execute the commands of the stream. -/
theorem executedCommands_of_cutBetweenFrames {chunks : List Bytes} {cs : List Command}
    (hcut : CutBetweenFrames chunks cs) (hcs : ∀ c ∈ cs, c.WellFormed)
    (hsize : ∀ chunk ∈ chunks, chunk.length < brokerReceiveBufferSize) :
    executedCommands (zeros brokerReceiveBufferSize) chunks = some (cs.map Command.text) := by
  induction hcut with
  | nil => rfl
  | @whole chunks cs ds hrest ih =>
      have hds : ∀ d ∈ ds, d.WellFormed := fun d hd => hcs d (by simp [hd])
      rw [executedCommands_whole hds chunks (hsize _ (by simp)),
        ih (fun c hc => hcs c (by simp [hc])) fun chunk h => hsize chunk (by simp [h])]
      simp
  | @beforeTerminator chunks cs ds c hroom hrest ih =>
      have hds : ∀ d ∈ ds, d.WellFormed := fun d hd => hcs d (by simp [hd])
      have htext : NulFree c.text := (hcs c (by simp)).text_nulFree
      -- the buffer has a terminator behind the text, and the one of the stream starts no frame
      rw [executedCommands_beginning hds htext _ hroom,
        executedCommands_stop nul_ne_hashtag [] chunks (by decide),
        ih (fun c hc => hcs c (by simp [hc])) fun chunk h => hsize chunk (by simp [h])]
      simp

/-- A chunk that begins with a terminator is lost, so it must be the terminator alone if
the commands behind it are executed. -/
theorem terminator_alone {chunk : Bytes} {chunks : List Bytes} {cs : List Command}
    (hcs : ∀ c ∈ cs, c.WellFormed) (hstream : (chunk :: chunks).flatten = 0 :: stream cs)
    (hchunks : ∀ d ∈ chunk :: chunks, d ≠ [] ∧ d.length < brokerReceiveBufferSize)
    (h : executedCommands (zeros brokerReceiveBufferSize) (chunk :: chunks) =
      some (cs.map Command.text)) :
    chunk = [0] ∧ chunks.flatten = stream cs ∧
      executedCommands (zeros brokerReceiveBufferSize) chunks = some (cs.map Command.text) := by
  have hchunk := hchunks chunk (by simp)
  cases chunk with
  | nil => exact absurd rfl hchunk.1
  | cons b more =>
      rw [List.flatten_cons, List.cons_append, List.cons.injEq] at hstream
      rcases hstream with ⟨rfl, hstream⟩
      rw [executedCommands_stop nul_ne_hashtag more chunks (Nat.le_of_lt hchunk.2)] at h
      -- the commands take up all text of the stream, so none of it has been lost
      have hweight := weight_executedCommands_le
        (fun d hd => Nat.le_of_lt (hchunks d (by simp [hd])).2) h
      have htext := textLength_stream hcs
      rw [← hstream, textLength_append] at htext
      have hmore : more = [] := by
        cases cs with
        | nil =>
            simp only [stream, List.map_nil, framesOf_nil] at hstream
            exact (List.append_eq_nil_iff.mp hstream).1
        | cons c cs =>
            cases more with
            | nil => rfl
            | cons b more =>
                have hmark : b = hashtag := by
                  simp only [stream, List.map_cons, framesOf_cons, List.cons_append,
                    List.cons.injEq] at hstream
                  exact hstream.1
                rw [textLength_cons (hmark ▸ hashtag_ne_nul)] at htext
                omega
      subst hmore
      exact ⟨rfl, by simpa using hstream, h⟩

/-- Chunks of a stream that execute its commands are cut between frames. -/
theorem cutBetweenFrames_of_executedCommands {chunks : List Bytes} {cs : List Command}
    (hcs : ∀ c ∈ cs, c.WellFormed) (hstream : chunks.flatten = stream cs)
    (hchunks : ∀ chunk ∈ chunks, chunk ≠ [] ∧ chunk.length < brokerReceiveBufferSize)
    (h : executedCommands (zeros brokerReceiveBufferSize) chunks = some (cs.map Command.text)) :
    CutBetweenFrames chunks cs := by
  induction hk : chunks.length using Nat.strong_induction_on generalizing chunks cs with
  | _ k ih =>
  cases chunks with
  | nil =>
      cases cs with
      | nil => exact .nil
      | cons c cs => simp [stream] at hstream
  | cons chunk chunks =>
      have hchunk := hchunks chunk (by simp)
      rw [List.flatten_cons] at hstream
      rcases exists_split hchunk.1 hstream with ⟨ds, es, rfl, rfl, hes⟩ |
        ⟨ds, c, es, text, tail, rfl, htext, rfl, hes⟩
      · have hds : ∀ d ∈ ds, d.WellFormed := fun d hd => hcs d (by simp [hd])
        rw [executedCommands_whole hds chunks hchunk.2, Option.map_eq_some_iff] at h
        rcases h with ⟨rest, hrest, heq⟩
        rw [List.map_append, List.append_cancel_left_eq] at heq
        subst heq
        refine .whole ds (ih chunks.length (by simp [← hk]) (fun e he => hcs e (by simp [he])) hes
          (fun d hd => hchunks d (by simp [hd])) hrest rfl)
      · have hds : ∀ d ∈ ds, d.WellFormed := fun d hd => hcs d (by simp [hd])
        have hfree : NulFree (text ++ tail) := htext ▸ (hcs c (by simp)).text_nulFree
        rw [nulFree_append] at hfree
        by_cases hroom : (stream ds ++ hashtag :: text).length + 1 < brokerReceiveBufferSize
        · rw [executedCommands_beginning hds hfree.1 chunks hroom, Option.map_eq_some_iff] at h
          rcases h with ⟨rest, hrest, heq⟩
          rw [List.map_append, List.append_cancel_left_eq, List.map_cons, List.cons.injEq] at heq
          -- the command that has been executed is the whole one, so the cut is at its end
          have htail : tail = [] := by
            rw [htext] at heq
            simpa using heq.1
          rw [heq.2] at hrest
          rw [htail, List.nil_append] at hes
          cases chunks with
          | nil => simp at hes
          | cons next chunks =>
              have hsizes : ∀ d ∈ next :: chunks, d ≠ [] ∧ d.length < brokerReceiveBufferSize :=
                fun d hd => hchunks d (List.mem_cons_of_mem _ hd)
              rcases terminator_alone (fun e he => hcs e (by simp [he])) hes hsizes hrest with
                ⟨rfl, hflatten, hrest'⟩
              have hshorter : chunks.length < k := by
                rw [← hk, List.length_cons, List.length_cons]
                omega
              have hcut := ih chunks.length hshorter (fun e he => hcs e (by simp [he])) hflatten
                (fun d hd => hsizes d (by simp [hd])) hrest' rfl
              have hwhole : text = c.text := by simp [htext, htail]
              subst hwhole
              exact .beforeTerminator ds c hroom hcut
        · have hfull := executedCommands_full hds hfree.1 chunks (by omega)
          rw [hfull] at h
          contradiction

/-- The commands of a stream are executed once each and in order exactly when every cut is
at the end of a frame, or right before a terminator that then arrives alone. -/
theorem executedCommands_eq_iff {chunks : List Bytes} {cs : List Command}
    (hcs : ∀ c ∈ cs, c.WellFormed) (hstream : chunks.flatten = stream cs)
    (hchunks : ∀ chunk ∈ chunks, chunk ≠ [] ∧ chunk.length < brokerReceiveBufferSize) :
    executedCommands (zeros brokerReceiveBufferSize) chunks = some (cs.map Command.text) ↔
      CutBetweenFrames chunks cs := by
  constructor
  · exact cutBetweenFrames_of_executedCommands hcs hstream hchunks
  · intro hcut
    exact executedCommands_of_cutBetweenFrames hcut hcs fun chunk h => (hchunks chunk h).2

/-- A cut in front of the terminator of a subscription. -/
theorem executedCommands_eq_beforeTerminator :
    executedCommands (zeros brokerReceiveBufferSize)
        [hashtag :: (Command.subscribe news).text, [0]] =
      some ([Command.subscribe news].map Command.text) :=
  (executedCommands_eq_iff (by decide) (by decide) (by decide)).mpr
    (.beforeTerminator [] (.subscribe news) (by decide) .nil)

/-- A cut inside the topic of a subscription. -/
theorem executedCommands_ne_insideTopic :
    executedCommands (zeros brokerReceiveBufferSize)
        [hashtag :: byteOf '3' :: hashtag :: bytesOf ['n', 'e'], bytesOf ['w', 's'] ++ [0]] ≠
      some ([Command.subscribe news].map Command.text) := by
  have hnone : ∀ d ∈ ([] : List Command), d.WellFormed := by simp
  have htext : NulFree (byteOf '3' :: hashtag :: bytesOf ['n', 'e']) := by decide
  have hbeginning :=
    executedCommands_beginning hnone htext [bytesOf ['w', 's'] ++ [0]] (by decide)
  have hstop : executedCommands (zeros brokerReceiveBufferSize) [bytesOf ['w', 's'] ++ [0]] =
      executedCommands (zeros brokerReceiveBufferSize) [] :=
    executedCommands_stop (by decide) _ [] (by decide)
  have hfirst : stream [] ++ hashtag :: byteOf '3' :: hashtag :: bytesOf ['n', 'e'] =
      hashtag :: byteOf '3' :: hashtag :: bytesOf ['n', 'e'] := by
    simp [stream]
  rw [hstop, hfirst] at hbeginning
  rw [hbeginning]
  decide

end Broker
end PubSub
