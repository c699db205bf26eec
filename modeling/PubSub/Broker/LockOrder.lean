import Mathlib.Data.List.FinRange
import PubSub.Broker.BufferLoops
import PubSub.Foundations.LockOrder

/-!
# The lock order of the broker

All functions of the broker that the three kinds of threads run, reduced to the critical sections
that they enter and leave.  Conditions are not kept, except for the functions that they call: every
branch may be taken, every loop may go on or end, and {lit}`SleepConditionVariableCS` may
return at any time.  So every run of the program is among the runs of this code.  {lit}`exit` and
the end of {lit}`main` end the thread that gets there only, and {lit}`DeleteCriticalSection` does
nothing.

The outgoing buffer and the message queues come first in the lock order, then {lit}`printf`, then
the subscriber lists, and last the shutting-down flag.  The only critical section that is
entered against this order is that of a message queue in {lit}`print_message_queue_unsafe`, by
a thread that is already in it.

Main results:

- Theorem {lit}`keeps_program`: all threads keep this order.
- Theorem {lit}`no_waitCycle`: they never wait for one another in a cycle.
- Theorem {lit}`some_thread_steps`: some thread can go on, until all have finished.
-/

namespace PubSub
namespace Broker
namespace Locking

open Foundations LockCode

/-- The critical sections of the broker.  Every topic has two of them. -/
inductive CriticalSection (n : Nat) where
  | printf
  | shuttingDown
  | outgoingBuffer
  | messageQueue (i : Fin n)
  | subscriberConnectionSockets (i : Fin n)
deriving DecidableEq, Repr

/-- Code that enters and leaves them. -/
abbrev Code (n : Nat) :=
  LockCode (CriticalSection n)

variable {n : Nat}

/-! ## The flag and the output -/

/-- {lit}`is_shutting_down`, which leaves the critical section in two places. -/
def isShuttingDown : Code n :=
  block [enter .shuttingDown, either (leave .shuttingDown) (leave .shuttingDown)]

/-- {lit}`signal_shut_down`. -/
def signalShutDown : Code n :=
  block [enter .shuttingDown, leave .shuttingDown]

/-- Calls of {lit}`printf` in their critical section. -/
def printLine : Code n :=
  block [enter .printf, leave .printf]

/-! ## Message queues -/

/-- {lit}`print_message_queue_unsafe`. -/
def printMessageQueueUnsafe (i : Fin n) : Code n :=
  block [enter (.messageQueue i), either (leave (.messageQueue i)) (leave (.messageQueue i))]

/-- {lit}`enqueue`. -/
def enqueue (i : Fin n) : Code n :=
  block [enter (.messageQueue i), enter .printf, printMessageQueueUnsafe i, leave .printf,
    leave (.messageQueue i)]

/-- {lit}`dequeue`. -/
def dequeue (i : Fin n) : Code n :=
  block [enter (.messageQueue i),
    whileDo (either skip isShuttingDown) (sleep (.messageQueue i)),
    isShuttingDown,
    either (leave (.messageQueue i)) (leave (.messageQueue i))]

/-- {lit}`free_message_queue`. -/
def freeMessageQueue (i : Fin n) : Code n :=
  block [enter (.messageQueue i), either (leave (.messageQueue i)) (leave (.messageQueue i))]

/-! ## Socket lists -/

/-- {lit}`enter_cs`.  The list of connection sockets has no critical section. -/
def enterCs : Option (CriticalSection n) → Code n
  | none => skip
  | some l => enter l

/-- {lit}`leave_cs`. -/
def leaveCs : Option (CriticalSection n) → Code n
  | none => skip
  | some l => leave l

/-- {lit}`add_to_start`. -/
def addToStart (list : Option (CriticalSection n)) : Code n :=
  block [enterCs list, leaveCs list]

/-- {lit}`free_node`: the list is empty, or the node is its head, or behind it, or not
in it. -/
def freeNode (list : Option (CriticalSection n)) : Code n :=
  block [enterCs list,
    either (leaveCs list) (either (leaveCs list) (either (leaveCs list) (leaveCs list)))]

/-- {lit}`close_sockets_and_free_socket_list`. -/
def closeSocketsAndFreeSocketList (list : Option (CriticalSection n)) : Code n :=
  block [enterCs list, either (leaveCs list) (leaveCs list)]

/-- {lit}`print_socket_list_unsafe`. -/
def printSocketListUnsafe (list : Option (CriticalSection n)) : Code n :=
  block [enterCs list, either (leaveCs list) (leaveCs list)]

/-! ## Networking -/

/-- {lit}`wait_until_nonblocking`. -/
def waitUntilNonblocking : Code n :=
  either printLine skip

/-- {lit}`send_to_client`. -/
def sendToClient : Code n :=
  block [waitUntilNonblocking, either printLine skip]

/-- {lit}`send_to_stats_manager`. -/
def sendToStatsManager : Code n :=
  block [waitUntilNonblocking, either printLine skip]

/-- {lit}`accept_connection`: three of its calls may fail, and the list may be full or the socket
not ready. -/
def acceptConnection : Code n :=
  oneOf [printLine, printLine, printLine,
    block [addToStart none, enter .printf, printSocketListUnsafe none, leave .printf]]

/-- {lit}`receive_commands`: {lit}`select` may fail, or the connection be closed, or {lit}`recv`
fail. -/
def receiveCommands : Code n :=
  oneOf [printLine,
    block [printLine, freeNode none,
      block ((List.finRange n).map fun i => freeNode (some (.subscriberConnectionSockets i)))],
    printLine]

/-! ## The outgoing buffer -/

/-- {lit}`produce_new_message`. -/
def produceNewMessage : Code n :=
  block [enter .outgoingBuffer,
    whileDo (either skip isShuttingDown) (sleep .outgoingBuffer),
    isShuttingDown,
    either (leave .outgoingBuffer) (leave .outgoingBuffer)]

/-- {lit}`produce`. -/
def produce (i : Fin n) : Code n :=
  block [whileDo isShuttingDown (block [dequeue i, produceNewMessage]), signalShutDown]

/-- {lit}`send_subscription_message_or_response` for a message of topic {lit}`i`. -/
def sendSubscriptionMessage (i : Fin n) : Code n :=
  block [enter .printf, leave .printf,
    enter (.subscriberConnectionSockets i),
    loop (block [leave (.subscriberConnectionSockets i), sendToClient,
      enter (.subscriberConnectionSockets i)]),
    leave (.subscriberConnectionSockets i)]

/-- {lit}`send_subscription_message_or_response`, for whatever element. -/
def sendSubscriptionMessageOrResponse : Code n :=
  either (oneOf ((List.finRange n).map sendSubscriptionMessage)) sendToClient

/-- A round of {lit}`consume`, up to the test behind {lit}`get`. -/
def getElement : Code n :=
  block [enter .outgoingBuffer,
    whileDo (either skip isShuttingDown) (sleep .outgoingBuffer),
    isShuttingDown]

/-- {lit}`consume`.  The round that ends with {lit}`break` sends in the critical section. -/
def consume : Code n :=
  block [
    whileBreak isShuttingDown
      (block [getElement, leave .outgoingBuffer, sendSubscriptionMessageOrResponse])
      (block [getElement, sendSubscriptionMessageOrResponse, leave .outgoingBuffer]),
    signalShutDown]

/-! ## Commands -/

/-- {lit}`publish`, for any topic or none. -/
def publish : Code n :=
  oneOf ((List.finRange n).map enqueue)

/-- {lit}`subscribe`, once it has found the topic. -/
def subscribeTo (i : Fin n) : Code n :=
  either
    (block [addToStart (some (.subscriberConnectionSockets i)), enter .printf,
      printSocketListUnsafe (some (.subscriberConnectionSockets i)), leave .printf])
    printLine

/-- {lit}`subscribe`. -/
def subscribe : Code n :=
  oneOf ((List.finRange n).map subscribeTo)

/-- {lit}`unsubscribe`, once it has found the topic. -/
def unsubscribeFrom (i : Fin n) : Code n :=
  block [freeNode (some (.subscriberConnectionSockets i)),
    either
      (block [enter .printf, printSocketListUnsafe (some (.subscriberConnectionSockets i)),
        leave .printf])
      printLine]

/-- {lit}`unsubscribe`. -/
def unsubscribe : Code n :=
  oneOf ((List.finRange n).map unsubscribeFrom)

/-- {lit}`notify_stats_manager`, for a publish command and for others. -/
def notifyStatsManager : Code n :=
  either sendToStatsManager sendToStatsManager

/-- {lit}`execute_command`.  {lit}`topic_exists` and {lit}`subscriber_number` enter no critical
section. -/
def executeCommand : Code n :=
  oneOf [block [publish, either notifyStatsManager skip],
    block [subscribe, either notifyStatsManager skip],
    either notifyStatsManager skip,
    either notifyStatsManager skip,
    block [unsubscribe, either notifyStatsManager skip]]

/-! ## The main thread -/

/-- {lit}`execute_command_and_produce`. -/
def executeCommandAndProduce : Code n :=
  block [executeCommand, either produceNewMessage skip]

/-- {lit}`receive_and_execute_commands`. -/
def receiveAndExecuteCommands : Code n :=
  loop (block [receiveCommands, either (loop executeCommandAndProduce) skip])

/-- {lit}`shut_down_threads`. -/
def shutDownThreads : Code n :=
  block [enter .shuttingDown, leave .shuttingDown,
    block ((List.finRange n).map fun i => block [enter (.messageQueue i), leave (.messageQueue i)]),
    enter .outgoingBuffer, leave .outgoingBuffer,
    enter .shuttingDown, loop (sleep .shuttingDown), leave .shuttingDown]

/-- {lit}`mutual_assured_destruction`. -/
def mutualAssuredDestruction : Code n :=
  block [shutDownThreads, closeSocketsAndFreeSocketList none,
    block ((List.finRange n).map fun i =>
      block [freeMessageQueue i,
        closeSocketsAndFreeSocketList (some (.subscriberConnectionSockets i))])]

/-- {lit}`main` from {lit}`create_and_start_threads` on. -/
def main : Code n :=
  either mutualAssuredDestruction
    (either skip (loop (block [acceptConnection, receiveAndExecuteCommands])))

/-- What the threads of the broker run. -/
def program : ThreadId n → Code n
  | .main => main
  | .topic i => produce i
  | .consumer => consume

/-! ## The order -/

/-- The place of a critical section in the lock order. -/
def rank : CriticalSection n → Nat
  | .outgoingBuffer | .messageQueue _ => 0
  | .printf => 1
  | .subscriberConnectionSockets _ => 2
  | .shuttingDown => 3

section Specs

variable {held : List (CriticalSection n)} {list : Option (CriticalSection n)}

/-! ### The flag and the output -/

/-- Leave in one of two places. -/
theorem after_leaveEither {l : CriticalSection n} :
    (either (leave l) (leave l)).after rank (l :: held) = some held :=
  after_either after_leave after_leave

/-- Enter, and leave in one of two places. -/
theorem keeps_enterEither {l : CriticalSection n} (h : ∀ m ∈ held, rank m < rank l) :
    (block [enter l, either (leave l) (leave l)]).Keeps rank held := by
  unfold Keeps
  rw [after_block_cons (after_enter h), after_block_cons after_leaveEither]
  rfl

/-- Enter and leave. -/
theorem keeps_enterLeave {l : CriticalSection n} (h : ∀ m ∈ held, rank m < rank l) :
    (block [enter l, leave l]).Keeps rank held := by
  unfold Keeps
  rw [after_block_cons (after_enter h), after_block_cons after_leave]
  rfl

theorem keeps_isShuttingDown (h : ∀ m ∈ held, rank m < 3) :
    (isShuttingDown : Code n).Keeps rank held :=
  keeps_enterEither h

theorem keeps_signalShutDown : (signalShutDown : Code n).Keeps rank [] :=
  keeps_enterLeave (by simp)

theorem keeps_printLine (h : ∀ m ∈ held, rank m < 1) : (printLine : Code n).Keeps rank held :=
  keeps_enterLeave h

/-- Enter a critical section and wait in it: {lit}`is_shutting_down` is called inside, by the
condition of the loop and behind it. -/
theorem after_waitLoop {l : CriticalSection n} (h : rank l < 3) (cs : List (Code n)) :
    (block (enter l :: whileDo (either skip isShuttingDown) (sleep l) :: isShuttingDown ::
      cs)).after rank [] = (block cs).after rank [l] := by
  have hflag : (isShuttingDown : Code n).Keeps rank [l] :=
    keeps_isShuttingDown (by simpa using h)
  have hloop : (whileDo (either skip isShuttingDown) (sleep l)).Keeps rank [l] :=
    keeps_whileDo (keeps_either keeps_skip hflag) (keeps_sleep (by simp))
  rw [after_block_cons (after_enter (by simp)), after_block_cons hloop, after_block_cons hflag]

/-! ### Message queues -/

/-- The message queue is entered again, by the thread that is in it. -/
theorem keeps_printMessageQueueUnsafe (i : Fin n) :
    (printMessageQueueUnsafe i).Keeps rank [.printf, .messageQueue i] := by
  unfold Keeps printMessageQueueUnsafe
  rw [after_block_cons (after_enter_again (by simp)), after_block_cons after_leaveEither]
  rfl

theorem keeps_enqueue (i : Fin n) : (enqueue i).Keeps rank [] := by
  unfold Keeps enqueue
  rw [after_block_cons (after_enter (by simp)), after_block_cons (after_enter (by simp [rank])),
    after_block_cons (keeps_printMessageQueueUnsafe i), after_block_cons after_leave,
    after_block_cons after_leave]
  rfl

theorem keeps_dequeue (i : Fin n) : (dequeue i).Keeps rank [] := by
  unfold Keeps dequeue
  rw [after_waitLoop (by simp [rank]), after_block_cons after_leaveEither]
  rfl

theorem keeps_freeMessageQueue (i : Fin n) : (freeMessageQueue i).Keeps rank [] :=
  keeps_enterEither (by simp)

/-! ### Socket lists -/

theorem after_enterCs (h : ∀ l ∈ list, ∀ m ∈ held, rank m < rank l) :
    (enterCs list).after rank held = some (list.toList ++ held) := by
  cases list with
  | none => rfl
  | some l => exact after_enter (h l rfl)

theorem after_leaveCs : (leaveCs list).after rank (list.toList ++ held) = some held := by
  cases list with
  | none => rfl
  | some l => exact after_leave

theorem keeps_addToStart : (addToStart list).Keeps rank [] := by
  unfold Keeps addToStart
  rw [after_block_cons (after_enterCs (by simp)), after_block_cons after_leaveCs]
  rfl

theorem keeps_freeNode : (freeNode list).Keeps rank [] := by
  have hbehind : (either (leaveCs list) (leaveCs list)).after rank (list.toList ++ []) = some [] :=
    after_either after_leaveCs after_leaveCs
  unfold Keeps freeNode
  rw [after_block_cons (after_enterCs (by simp)),
    after_block_cons (after_either after_leaveCs (after_either after_leaveCs hbehind))]
  rfl

theorem keeps_closeSocketsAndFreeSocketList :
    (closeSocketsAndFreeSocketList list).Keeps rank [] := by
  unfold Keeps closeSocketsAndFreeSocketList
  rw [after_block_cons (after_enterCs (by simp)),
    after_block_cons (after_either after_leaveCs after_leaveCs)]
  rfl

/-- A list is printed in the critical section of the output. -/
theorem keeps_printSocketListUnsafe (h : ∀ l ∈ list, 1 < rank l) :
    (printSocketListUnsafe list).Keeps rank [.printf] := by
  have hranks : ∀ l ∈ list, ∀ m ∈ ([.printf] : List (CriticalSection n)), rank m < rank l := by
    intro l hl m hm
    rw [List.mem_singleton.mp hm]
    exact h l hl
  unfold Keeps printSocketListUnsafe
  rw [after_block_cons (after_enterCs hranks),
    after_block_cons (after_either after_leaveCs after_leaveCs)]
  rfl

theorem keeps_printSocketList (h : ∀ l ∈ list, 1 < rank l) :
    (block [enter .printf, printSocketListUnsafe list, leave .printf]).Keeps rank [] :=
  keeps_section (by simp) (keeps_printSocketListUnsafe h)

/-! ### Networking -/

theorem keeps_sendToClient (h : ∀ m ∈ held, rank m < 1) :
    (sendToClient : Code n).Keeps rank held := by
  have hline : (either printLine skip : Code n).Keeps rank held :=
    keeps_either (keeps_printLine h) keeps_skip
  exact keeps_block (by simp [waitUntilNonblocking, hline])

theorem keeps_sendToStatsManager : (sendToStatsManager : Code n).Keeps rank [] :=
  keeps_sendToClient (by simp)

theorem keeps_acceptConnection : (acceptConnection : Code n).Keeps rank [] := by
  have hline : (printLine : Code n).Keeps rank [] := keeps_printLine (by simp)
  have hadded : (block [addToStart none, enter .printf, printSocketListUnsafe none,
      leave .printf] : Code n).Keeps rank [] := by
    unfold Keeps
    rw [after_block_cons keeps_addToStart]
    exact keeps_printSocketList (by simp)
  exact keeps_oneOf (by simp [hline, hadded])

theorem keeps_receiveCommands : (receiveCommands : Code n).Keeps rank [] := by
  have hline : (printLine : Code n).Keeps rank [] := keeps_printLine (by simp)
  have hlists : (block ((List.finRange n).map fun i =>
      freeNode (some (.subscriberConnectionSockets i)))).Keeps rank [] :=
    keeps_block (by simp [keeps_freeNode])
  have hclosed : (block [printLine, freeNode none, block ((List.finRange n).map fun i =>
      freeNode (some (.subscriberConnectionSockets i)))]).Keeps rank [] :=
    keeps_block (by simp [hline, hlists, keeps_freeNode])
  exact keeps_oneOf (by simp [hline, hclosed])

/-! ### The outgoing buffer -/

theorem keeps_produceNewMessage : (produceNewMessage : Code n).Keeps rank [] := by
  unfold Keeps produceNewMessage
  rw [after_waitLoop (by simp [rank]), after_block_cons after_leaveEither]
  rfl

theorem keeps_produce (i : Fin n) : (produce i).Keeps rank [] := by
  have hbody : (block [dequeue i, produceNewMessage]).Keeps rank [] :=
    keeps_block (by simp [keeps_dequeue, keeps_produceNewMessage])
  have hloop : (whileDo isShuttingDown (block [dequeue i, produceNewMessage])).Keeps rank [] :=
    keeps_whileDo (keeps_isShuttingDown (by simp)) hbody
  exact keeps_block (by simp [hloop, keeps_signalShutDown])

/-- Messages are sent outside the critical section of the list, and on shutdown inside the
critical section of the buffer. -/
theorem keeps_sendSubscriptionMessage (i : Fin n) (h : ∀ m ∈ held, rank m < 1) :
    (sendSubscriptionMessage i).Keeps rank held := by
  have hlist : ∀ m ∈ held, rank m < rank (.subscriberConnectionSockets i) :=
    fun m hm => (h m hm).trans (by simp [rank])
  have hround : (block [leave (.subscriberConnectionSockets i), sendToClient,
      enter (.subscriberConnectionSockets i)]).Keeps rank
        (.subscriberConnectionSockets i :: held) := by
    unfold Keeps
    rw [after_block_cons after_leave, after_block_cons (keeps_sendToClient h),
      after_block_cons (after_enter hlist)]
    rfl
  unfold Keeps sendSubscriptionMessage
  rw [after_block_cons (after_enter h), after_block_cons after_leave,
    after_block_cons (after_enter hlist), after_block_cons (keeps_loop hround),
    after_block_cons after_leave]
  rfl

theorem keeps_sendSubscriptionMessageOrResponse (h : ∀ m ∈ held, rank m < 1) :
    (sendSubscriptionMessageOrResponse : Code n).Keeps rank held := by
  have hmessages : (oneOf ((List.finRange n).map sendSubscriptionMessage)).Keeps rank held :=
    keeps_oneOf (by simp [keeps_sendSubscriptionMessage _ h])
  exact keeps_either hmessages (keeps_sendToClient h)

theorem after_getElement :
    (getElement : Code n).after rank [] = some [.outgoingBuffer] := by
  unfold getElement
  rw [after_waitLoop (by simp [rank])]
  rfl

theorem keeps_consume : (consume : Code n).Keeps rank [] := by
  have hround : (block [getElement, leave .outgoingBuffer,
      sendSubscriptionMessageOrResponse] : Code n).Keeps rank [] := by
    unfold Keeps
    rw [after_block_cons after_getElement, after_block_cons after_leave,
      after_block_cons (keeps_sendSubscriptionMessageOrResponse (by simp))]
    rfl
  have hlastRound : (block [getElement, sendSubscriptionMessageOrResponse,
      leave .outgoingBuffer] : Code n).Keeps rank [] := by
    unfold Keeps
    rw [after_block_cons after_getElement,
      after_block_cons (keeps_sendSubscriptionMessageOrResponse (by simp [rank])),
      after_block_cons after_leave]
    rfl
  have hloop := keeps_whileBreak (keeps_isShuttingDown (by simp)) hround hlastRound
  exact keeps_block (by simp [hloop, keeps_signalShutDown])

/-! ### Commands -/

theorem keeps_publish : (publish : Code n).Keeps rank [] :=
  keeps_oneOf (by simp [keeps_enqueue])

theorem keeps_subscribe : (subscribe : Code n).Keeps rank [] := by
  apply keeps_oneOf
  simp only [List.forall_mem_map]
  intro i _
  apply keeps_either
  · unfold Keeps
    rw [after_block_cons keeps_addToStart]
    exact keeps_printSocketList (by simp [rank])
  · exact keeps_printLine (by simp)

theorem keeps_unsubscribe : (unsubscribe : Code n).Keeps rank [] := by
  apply keeps_oneOf
  simp only [List.forall_mem_map]
  intro i _
  unfold Keeps unsubscribeFrom
  rw [after_block_cons keeps_freeNode,
    after_block_cons (keeps_either (keeps_printSocketList (by simp [rank]))
      (keeps_printLine (by simp)))]
  rfl

theorem keeps_executeCommand : (executeCommand : Code n).Keeps rank [] := by
  have hnotify : (either notifyStatsManager skip : Code n).Keeps rank [] :=
    keeps_either (keeps_either keeps_sendToStatsManager keeps_sendToStatsManager) keeps_skip
  have hpublish : (block [publish, either notifyStatsManager skip] : Code n).Keeps rank [] :=
    keeps_block (by simp [keeps_publish, hnotify])
  have hsubscribe : (block [subscribe, either notifyStatsManager skip] : Code n).Keeps rank [] :=
    keeps_block (by simp [keeps_subscribe, hnotify])
  have hunsubscribe :
      (block [unsubscribe, either notifyStatsManager skip] : Code n).Keeps rank [] :=
    keeps_block (by simp [keeps_unsubscribe, hnotify])
  exact keeps_oneOf (by simp [hpublish, hsubscribe, hnotify, hunsubscribe])

/-! ### The main thread -/

theorem keeps_receiveAndExecuteCommands :
    (receiveAndExecuteCommands : Code n).Keeps rank [] := by
  have hcommand : (executeCommandAndProduce : Code n).Keeps rank [] :=
    keeps_block (by simp [keeps_executeCommand, keeps_either keeps_produceNewMessage keeps_skip])
  have hcommands : (either (loop executeCommandAndProduce) skip : Code n).Keeps rank [] :=
    keeps_either (keeps_loop hcommand) keeps_skip
  exact keeps_loop (keeps_block (by simp [keeps_receiveCommands, hcommands]))

theorem keeps_shutDownThreads : (shutDownThreads : Code n).Keeps rank [] := by
  have hqueues : (block ((List.finRange n).map fun i =>
      block [enter (.messageQueue i), leave (.messageQueue i)])).Keeps rank [] :=
    keeps_block (by simp [keeps_enterLeave])
  unfold Keeps shutDownThreads
  rw [after_block_cons (after_enter (by simp)), after_block_cons after_leave,
    after_block_cons hqueues, after_block_cons (after_enter (by simp)),
    after_block_cons after_leave, after_block_cons (after_enter (by simp)),
    after_block_cons (keeps_loop (keeps_sleep (by simp))), after_block_cons after_leave]
  rfl

theorem keeps_mutualAssuredDestruction :
    (mutualAssuredDestruction : Code n).Keeps rank [] := by
  have htopic : ∀ i : Fin n, (block [freeMessageQueue i,
      closeSocketsAndFreeSocketList (some (.subscriberConnectionSockets i))]).Keeps rank [] :=
    fun i => keeps_block (by simp [keeps_freeMessageQueue, keeps_closeSocketsAndFreeSocketList])
  have htopics : (block ((List.finRange n).map fun i => block [freeMessageQueue i,
      closeSocketsAndFreeSocketList (some (.subscriberConnectionSockets i))])).Keeps rank [] :=
    keeps_block (by simp [htopic])
  exact keeps_block
    (by simp [keeps_shutDownThreads, keeps_closeSocketsAndFreeSocketList, htopics])

theorem keeps_main : (main : Code n).Keeps rank [] := by
  have hround : (block [acceptConnection, receiveAndExecuteCommands] : Code n).Keeps rank [] :=
    keeps_block (by simp [keeps_acceptConnection, keeps_receiveAndExecuteCommands])
  exact keeps_either keeps_mutualAssuredDestruction (keeps_either keeps_skip (keeps_loop hround))

/-- All threads keep the lock order. -/
theorem keeps_program (t : ThreadId n) : (program t).Keeps rank [] := by
  cases t with
  | main => exact keeps_main
  | topic i => exact keeps_produce i
  | consumer => exact keeps_consume

end Specs

/-! ## No cycles -/

/-- The threads of the broker never wait for one another in a cycle. -/
theorem no_waitCycle (n : Nat) {s : LockState (ThreadId n) (CriticalSection n)}
    (hreach : (lockSystem program).Reachable s) (t : ThreadId n) :
    ¬ Relation.TransGen s.WaitsFor t t :=
  not_waitCycle keeps_program hreach t

/-- The thread of a topic is about to read the flag, and the main thread to set it. -/
def readAndSetFlag : List (ThreadId topicsNum × Bool) :=
  List.replicate 6 (.topic 0, true) ++ List.replicate 3 (.main, true)

/-- The main thread waits for the thread of the topic, but not the other way round. -/
theorem no_waitCycle_readAndSetFlag :
    ∃ s, (lockSystem program).run (LockState.start program) readAndSetFlag = some s ∧
      s.WaitsFor .main (.topic 0) ∧ ¬ Relation.TransGen s.WaitsFor .main .main := by
  have hwaits : ∃ s, (lockSystem program).run (LockState.start program) readAndSetFlag = some s ∧
      s.WaitsFor .main (.topic 0) :=
    ⟨_, rfl, .shuttingDown, _, 0, rfl, rfl, by decide⟩
  rcases hwaits with ⟨s, hrun, hwaits⟩
  exact ⟨s, hrun, hwaits, no_waitCycle topicsNum ((System.Reachable.start rfl).run hrun) .main⟩

/-- As long as a thread has something to run, some thread can go on. -/
theorem some_thread_steps {s : LockState (ThreadId n) (CriticalSection n)}
    (hreach : (lockSystem program).Reachable s) {t : ThreadId n} (hrest : s.rest t ≠ []) :
    ∃ t' s', s.step t' true = some s' :=
  exists_step keeps_program hreach hrest

end Locking
end Broker
end PubSub
