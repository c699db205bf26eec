import Mathlib.Data.Fintype.Sum
import Mathlib.Tactic.DeriveFintype
import PubSub.Broker.Conservation
import PubSub.Broker.QueueLoop

/-!
# The wait loops of the outgoing buffer under all interleavings

Producers wait in {lit}`produce_new_message` while the outgoing buffer is full, and the consumer
waits in {lit}`consume` while it is empty.  Every {lit}`get` wakes one producer only, and a producer
that has not waited may take the free slot before the one that has been woken does.  So a
producer may wait although the buffer is not full, but then there are enough producers
that have been woken and have not entered the critical section again.

Main results:

- Theorem {lit}`threadStep_bufferStep`: what a step can do to the wait loops of the buffer.
- Theorem {lit}`bufferLoopsInv_reachable`: the consumer waits on an empty buffer only; as long as
  a producer waits, the elements in the buffer and the producers that have been woken are
  enough to fill it; nobody waits after {lit}`shut_down_threads` has woken everybody; and no
  element without a message is ever put.
-/

namespace PubSub
namespace Broker

open Foundations Threads

variable {n : Nat}

deriving instance Fintype for ThreadId

/-! ## Producers that have been woken -/

/-- Has a thread at this position been woken without having entered the critical section
again? -/
def ProducePc.isWoken : ProducePc n → Bool
  | .woken _ => true
  | .enter _ | .loop _ | .sleep _ | .waiting _ | .test _ | .put _ => false

/-- The producers that have been woken and have not entered the critical section again. -/
def wokenProducers (producing : ThreadId n → Option (ProducePc n)) : Finset (ThreadId n) :=
  Finset.univ.filter fun w => (producing w).any ProducePc.isWoken

@[simp]
theorem mem_wokenProducers {producing : ThreadId n → Option (ProducePc n)} {w : ThreadId n} :
    w ∈ wokenProducers producing ↔ (producing w).any ProducePc.isWoken = true := by
  simp [wokenProducers]

/-- One thread that moves counts at its new position instead of its old one. -/
theorem card_wokenProducers_update (producing : ThreadId n → Option (ProducePc n))
    (w : ThreadId n) (pc : Option (ProducePc n)) :
    (wokenProducers (Function.update producing w pc)).card +
        ((producing w).any ProducePc.isWoken).toNat =
      (wokenProducers producing).card + (pc.any ProducePc.isWoken).toNat := by
  have hothers : (wokenProducers (Function.update producing w pc)).erase w =
      (wokenProducers producing).erase w := by
    ext w'
    rw [Finset.mem_erase, Finset.mem_erase, and_congr_right_iff]
    intro hne
    rw [mem_wokenProducers, mem_wokenProducers, Function.update_of_ne hne]
  have hcount : ∀ p : ThreadId n → Option (ProducePc n),
      (wokenProducers p).card =
        ((wokenProducers p).erase w).card + ((p w).any ProducePc.isWoken).toNat := by
    intro p
    cases hw : (p w).any ProducePc.isWoken with
    | true =>
        have hmem : w ∈ wokenProducers p := mem_wokenProducers.mpr hw
        exact (Finset.card_erase_add_one hmem).symm
    | false =>
        have hnot : w ∉ wokenProducers p := by simp [hw]
        rw [Finset.erase_eq_of_notMem hnot]
        rfl
  have hnew := hcount (Function.update producing w pc)
  have hold := hcount producing
  rw [hothers, Function.update_self] at hnew
  omega

/-! ## The wait loops -/

/-- Has {lit}`shut_down_threads` finished waking threads? -/
def ShutDownPc.hasWokenBuffer : ShutDownPc → Bool
  | .notCalled | .wakeQueue _ | .wakeBuffer => false
  | .loop | .waiting | .woken | .returned => true

@[simp]
theorem ShutDownPc.hasWokenBuffer_wake (pc : ShutDownPc) :
    pc.wake.hasWokenBuffer = pc.hasWokenBuffer := by
  cases pc <;> rfl

/-- What the wait loops of the outgoing buffer look at, and the elements that were put. -/
structure BufferLoops (n : Nat) where
  count : Int
  bufferLock : Option (ThreadId n)
  shuttingDown : Bool
  /-- {lit}`shut_down_threads` has woken the producers and the consumer -/
  hasWoken : Bool
  producing : ThreadId n → Option (ProducePc n)
  consumer : ConsumerPc n
  put : List (OutgoingBufferElement n)

/-- The part of the state that the wait loops of the outgoing buffer look at. -/
def Threads.bufferLoops (s : Threads n) : BufferLoops n :=
  ⟨s.outgoingBuffer.count, s.bufferLock, s.shuttingDown, s.shutDown.hasWokenBuffer, s.producing,
    s.consumer, s.log.put⟩

/-- Move a thread inside {lit}`produce_new_message`. -/
def BufferLoops.setProducing (b : BufferLoops n) (w : ThreadId n) (pc : Option (ProducePc n)) :
    BufferLoops n :=
  { b with producing := Function.update b.producing w pc }

/-- What a step can do to the wait loops of the outgoing buffer. -/
inductive BufferStep (b : BufferLoops n) : BufferLoops n → Prop
  | stay : BufferStep b b
  | requestShutDown : BufferStep b { b with shuttingDown := true }
  /-- a thread calls {lit}`produce_new_message`; without a message only after the flag is set -/
  | call {w : ThreadId n} {e : OutgoingBufferElement n} (hw : w ≠ .consumer)
      (hidle : b.producing w = none) (hnull : e.message = none → b.shuttingDown = true) :
      BufferStep b (b.setProducing w (some (.enter e)))
  | enter {w : ThreadId n} {e : OutgoingBufferElement n}
      (hpc : b.producing w = some (.enter e) ∨ b.producing w = some (.woken e))
      (hfree : b.bufferLock = none) :
      BufferStep b ({ b with bufferLock := some w }.setProducing w (some (.loop e)))
  | toSleep {w : ThreadId n} {e : OutgoingBufferElement n} (hpc : b.producing w = some (.loop e))
      (hfull : b.count = maxOutgoingBufferSize) (hflag : b.shuttingDown = false) :
      BufferStep b (b.setProducing w (some (.sleep e)))
  | wait {w : ThreadId n} {e : OutgoingBufferElement n} (hpc : b.producing w = some (.sleep e)) :
      BufferStep b ({ b with bufferLock := none }.setProducing w (some (.waiting e)))
  | toTest {w : ThreadId n} {e : OutgoingBufferElement n} (hpc : b.producing w = some (.loop e)) :
      BufferStep b (b.setProducing w (some (.test e)))
  | giveUp {w : ThreadId n} {e : OutgoingBufferElement n} (hpc : b.producing w = some (.test e))
      (hflag : b.shuttingDown = true) :
      BufferStep b ({ b with bufferLock := none }.setProducing w none)
  | toPut {w : ThreadId n} {e : OutgoingBufferElement n} (hpc : b.producing w = some (.test e))
      (hflag : b.shuttingDown = false) : BufferStep b (b.setProducing w (some (.put e)))
  | put {w : ThreadId n} {e : OutgoingBufferElement n} (hpc : b.producing w = some (.put e)) :
      BufferStep b ({ b with
        count := b.count + 1
        bufferLock := none
        consumer := b.consumer.wake
        put := b.put ++ [e] }.setProducing w none)
  /-- the consumer moves outside the critical section -/
  | consumerOutside {pc : ConsumerPc n} (hold : b.consumer.holdsLock = false)
      (hnew : pc.holdsLock = false ∧ pc ≠ .waiting) : BufferStep b { b with consumer := pc }
  | consumerEnter (hfree : b.bufferLock = none) :
      BufferStep b { b with bufferLock := some .consumer, consumer := .loop }
  | consumerToSleep (hpc : b.consumer = .loop) (hempty : b.count = 0)
      (hflag : b.shuttingDown = false) : BufferStep b { b with consumer := .sleep }
  | consumerWait (hpc : b.consumer = .sleep) :
      BufferStep b { b with bufferLock := none, consumer := .waiting }
  | consumerToGet (hpc : b.consumer = .loop) : BufferStep b { b with consumer := .get }
  | get {e : OutgoingBufferElement n} (hpc : b.consumer = .get) :
      BufferStep b { b with count := b.count - 1, consumer := .test e }
  | toLeave {e : OutgoingBufferElement n} (hpc : b.consumer = .test e) :
      BufferStep b { b with consumer := .leave e }
  | toSendLast {e : OutgoingBufferElement n} (hpc : b.consumer = .test e)
      (hflag : b.shuttingDown = true) : BufferStep b { b with consumer := .sendLast e }
  | leave {w : ThreadId n} {e e' : OutgoingBufferElement n} (hpc : b.consumer = .leave e)
      (hwait : b.producing w = some (.waiting e')) :
      BufferStep b ({ b with bufferLock := none, consumer := .send e }.setProducing w
        (some (.woken e')))
  | leaveNobody {e : OutgoingBufferElement n} (hpc : b.consumer = .leave e)
      (hnobody : ∀ w e', b.producing w ≠ some (.waiting e')) :
      BufferStep b { b with bufferLock := none, consumer := .send e }
  | sendLast {e : OutgoingBufferElement n} (hpc : b.consumer = .sendLast e) :
      BufferStep b { b with bufferLock := none, consumer := .signal }
  | wakeProducer (w : ThreadId n) :
      BufferStep b (b.setProducing w ((b.producing w).map ProducePc.wake))
  | wakeConsumer : BufferStep b { b with consumer := b.consumer.wake }
  | shutDownWake (hfree : b.bufferLock = none) (hflag : b.shuttingDown = true) :
      BufferStep b { b with
        hasWoken := true
        producing := fun w => (b.producing w).map ProducePc.wake
        consumer := b.consumer.wake }

/-- Nothing undoes the wake-ups of {lit}`shut_down_threads`. -/
theorem BufferStep.hasWoken {b b' : BufferLoops n} (hstep : BufferStep b b')
    (hwoken : b.hasWoken = true) : b'.hasWoken = true := by
  cases hstep with
  | shutDownWake hfree hflag => rfl
  | _ => exact hwoken

/-! ## Mutual exclusion -/

/-- At most one thread is inside the critical section of the outgoing buffer, and it owns
the lock. -/
structure BufferMutex (b : BufferLoops n) : Prop where
  producer : ∀ w pc, b.producing w = some pc → pc.holdsLock = true → b.bufferLock = some w
  consumer : b.consumer.holdsLock = true → b.bufferLock = some .consumer
  idle : b.producing .consumer = none

namespace BufferMutex

variable {b b' : BufferLoops n}

/-- A producer is not the consumer. -/
theorem ne_consumer (hb : BufferMutex b) {w : ThreadId n} {pc : ProducePc n}
    (hpc : b.producing w = some pc) : w ≠ .consumer := by
  rintro rfl
  rw [hb.idle] at hpc
  contradiction

/-- A producer {lit}`w` moves, and the lock ends up with an owner that suits it and those who
are inside. -/
theorem of_setProducing (hb : BufferMutex b) {w : ThreadId n} {pc' : Option (ProducePc n)}
    (hw : w ≠ .consumer) (hprod : b'.producing = Function.update b.producing w pc')
    (hself : ∀ pc, pc' = some pc → pc.holdsLock = true → b'.bufferLock = some w)
    (hothers : ∀ w' ≠ w, b.bufferLock = some w' → b'.bufferLock = some w')
    (hconsumer : b'.consumer.holdsLock = b.consumer.holdsLock) : BufferMutex b' where
  producer := by
    intro w' pc hpc hinside
    rw [hprod] at hpc
    by_cases hne : w' = w
    · subst hne
      rw [Function.update_self] at hpc
      exact hself pc hpc hinside
    · rw [Function.update_of_ne hne] at hpc
      exact hothers w' hne (hb.producer w' pc hpc hinside)
  consumer := by
    intro hinside
    exact hothers _ (Ne.symm hw) (hb.consumer (hconsumer ▸ hinside))
  idle := by
    rw [hprod, Function.update_of_ne (Ne.symm hw)]
    exact hb.idle

/-- The consumer moves, and the lock ends up with an owner that suits it and the producer
that is inside. -/
theorem of_consumerMove (hb : BufferMutex b) (hprod : b'.producing = b.producing)
    (hself : b'.consumer.holdsLock = true → b'.bufferLock = some .consumer)
    (hothers : ∀ w ≠ .consumer, b.bufferLock = some w → b'.bufferLock = some w) :
    BufferMutex b' where
  producer := by
    intro w pc hpc hinside
    rw [hprod] at hpc
    exact hothers w (hb.ne_consumer hpc) (hb.producer w pc hpc hinside)
  consumer := hself
  idle := hprod ▸ hb.idle

/-- Wake-ups move nobody into the critical section. -/
theorem of_wake (hb : BufferMutex b)
    (hprod : ∀ w, b'.producing w = b.producing w ∨
      b'.producing w = (b.producing w).map ProducePc.wake)
    (hconsumer : b'.consumer.holdsLock = b.consumer.holdsLock)
    (hlock : b'.bufferLock = b.bufferLock) : BufferMutex b' where
  producer := by
    intro w pc hpc hinside
    rw [hlock]
    rcases hprod w with hsame | hwake
    · exact hb.producer w pc (hsame ▸ hpc) hinside
    · rw [hwake, Option.map_eq_some_iff] at hpc
      rcases hpc with ⟨pc₀, hpc₀, rfl⟩
      rw [ProducePc.wake_of_holdsLock hinside] at hinside
      exact hb.producer w pc₀ hpc₀ hinside
  consumer := by
    intro hinside
    rw [hlock]
    exact hb.consumer (hconsumer ▸ hinside)
  idle := by
    rcases hprod .consumer with hsame | hwake
    · rw [hsame, hb.idle]
    · rw [hwake, hb.idle, Option.map_none]

/-- Whoever is at a position inside the critical section owns the lock, and no other thread
does. -/
theorem lock_ne (hb : BufferMutex b) {w : ThreadId n} {pc : ProducePc n}
    (hpc : b.producing w = some pc) (hinside : pc.holdsLock = true) :
    ∀ w' ≠ w, b.bufferLock ≠ some w' := by
  intro w' hne hlock
  rw [hb.producer w pc hpc hinside, Option.some.injEq] at hlock
  exact hne hlock.symm

theorem lock_ne_of_consumer (hb : BufferMutex b) (hinside : b.consumer.holdsLock = true) :
    ∀ w ≠ .consumer, b.bufferLock ≠ some w := by
  intro w hne hlock
  rw [hb.consumer hinside, Option.some.injEq] at hlock
  exact hne hlock.symm

/-- So it may leave the lock to anybody. -/
theorem release (hb : BufferMutex b) {w : ThreadId n} {pc : ProducePc n}
    (hpc : b.producing w = some pc) (hinside : pc.holdsLock = true) (owner : Option (ThreadId n)) :
    ∀ w' ≠ w, b.bufferLock = some w' → owner = some w' :=
  fun w' hne hlock => absurd hlock (hb.lock_ne hpc hinside w' hne)

theorem consumerRelease (hb : BufferMutex b) (hinside : b.consumer.holdsLock = true)
    (owner : Option (ThreadId n)) :
    ∀ w ≠ .consumer, b.bufferLock = some w → owner = some w :=
  fun w hne hlock => absurd hlock (hb.lock_ne_of_consumer hinside w hne)

/-- Whoever does not own the lock is outside. -/
theorem outside (hb : BufferMutex b) {w : ThreadId n} {pc : ProducePc n}
    (hpc : b.producing w = some pc) (hlock : b.bufferLock ≠ some w) : pc.holdsLock = false :=
  Bool.eq_false_iff.mpr fun hinside => hlock (hb.producer w pc hpc hinside)

theorem consumer_outside (hb : BufferMutex b) (hlock : b.bufferLock ≠ some .consumer) :
    b.consumer.holdsLock = false :=
  Bool.eq_false_iff.mpr fun hinside => hlock (hb.consumer hinside)

theorem lock_ne_of_free (hfree : b.bufferLock = none) (w : ThreadId n) :
    b.bufferLock ≠ some w := by
  rw [hfree]
  exact (Option.some_ne_none w).symm

end BufferMutex

/-- While the lock is free there is no owner to keep. -/
theorem no_owner {lock owner : Option (ThreadId n)} (hfree : lock = none) (v : ThreadId n) :
    ∀ w ≠ v, lock = some w → owner = some w := by
  intro w _ hlock
  rw [hfree] at hlock
  contradiction

/-- Every step keeps mutual exclusion. -/
theorem BufferMutex.step {b b' : BufferLoops n} (hb : BufferMutex b) (hstep : BufferStep b b') :
    BufferMutex b' := by
  have hkeep : ∀ w : ThreadId n, ∀ w' ≠ w, b.bufferLock = some w' → b.bufferLock = some w' :=
    fun _ _ _ hlock => hlock
  cases hstep with
  | stay => exact hb
  | requestShutDown => exact ⟨hb.producer, hb.consumer, hb.idle⟩
  | @call w e hw hidle hnull =>
      refine hb.of_setProducing hw rfl ?_ (hkeep w) rfl
      rintro pc ⟨rfl⟩ hinside
      contradiction
  | @enter w e hpc hfree =>
      have hw : w ≠ .consumer := hpc.elim hb.ne_consumer hb.ne_consumer
      exact hb.of_setProducing hw rfl (fun _ _ _ => rfl) (no_owner hfree w) rfl
  | @toSleep w e hpc hfull hflag =>
      exact hb.of_setProducing (hb.ne_consumer hpc) rfl
        (fun _ _ _ => hb.producer w _ hpc rfl) (hkeep w) rfl
  | @toTest w e hpc =>
      exact hb.of_setProducing (hb.ne_consumer hpc) rfl
        (fun _ _ _ => hb.producer w _ hpc rfl) (hkeep w) rfl
  | @toPut w e hpc hflag =>
      exact hb.of_setProducing (hb.ne_consumer hpc) rfl
        (fun _ _ _ => hb.producer w _ hpc rfl) (hkeep w) rfl
  | @wait w e hpc =>
      refine hb.of_setProducing (hb.ne_consumer hpc) rfl ?_ (hb.release hpc rfl none) rfl
      rintro pc ⟨rfl⟩ hinside
      contradiction
  | @giveUp w e hpc hflag =>
      exact hb.of_setProducing (hb.ne_consumer hpc) rfl (by simp) (hb.release hpc rfl none) rfl
  | @put w e hpc =>
      exact hb.of_setProducing (hb.ne_consumer hpc) rfl (by simp) (hb.release hpc rfl none)
        (ConsumerPc.holdsLock_wake _)
  | consumerOutside hold hnew =>
      exact hb.of_consumerMove rfl (by simp [hnew.1]) (hkeep .consumer)
  | consumerEnter hfree =>
      exact hb.of_consumerMove rfl (fun _ => rfl) (no_owner hfree .consumer)
  | consumerToSleep hpc hempty hflag =>
      exact hb.of_consumerMove rfl (fun _ => hb.consumer (by rw [hpc]; rfl)) (hkeep .consumer)
  | consumerToGet hpc | get hpc | toLeave hpc =>
      exact hb.of_consumerMove rfl (fun _ => hb.consumer (by rw [hpc]; rfl)) (hkeep .consumer)
  | toSendLast hpc hflag =>
      exact hb.of_consumerMove rfl (fun _ => hb.consumer (by rw [hpc]; rfl)) (hkeep .consumer)
  | consumerWait hpc | sendLast hpc =>
      exact hb.of_consumerMove rfl (by simp [ConsumerPc.holdsLock])
        (hb.consumerRelease (by rw [hpc]; rfl) none)
  | leaveNobody hpc hnobody =>
      exact hb.of_consumerMove rfl (by simp [ConsumerPc.holdsLock])
        (hb.consumerRelease (by rw [hpc]; rfl) none)
  | @leave w e e' hpc hwait =>
      have hreleased : BufferMutex { b with bufferLock := none, consumer := .send e } :=
        hb.of_consumerMove rfl (by simp [ConsumerPc.holdsLock])
          (hb.consumerRelease (by rw [hpc]; rfl) none)
      refine hreleased.of_setProducing (hb.ne_consumer hwait) rfl ?_ (fun _ _ hlock => hlock) rfl
      rintro pc ⟨rfl⟩ hinside
      contradiction
  | wakeProducer w =>
      refine hb.of_wake (fun w' => ?_) rfl rfl
      by_cases hne : w' = w
      · subst hne
        exact Or.inr (Function.update_self _ _ _)
      · exact Or.inl (Function.update_of_ne hne _ _)
  | wakeConsumer => exact hb.of_wake (fun _ => Or.inl rfl) (ConsumerPc.holdsLock_wake _) rfl
  | shutDownWake hfree hflag =>
      exact hb.of_wake (fun _ => Or.inr rfl) (ConsumerPc.holdsLock_wake _) rfl

/-! ## Why threads wait -/

/-- A position after one producer has moved is its new one or an old one. -/
theorem setProducing_cases {b : BufferLoops n} {w w' : ThreadId n} {pc' : Option (ProducePc n)}
    {pc : ProducePc n} (h : (b.setProducing w pc').producing w' = some pc) :
    w' = w ∧ pc' = some pc ∨ w' ≠ w ∧ b.producing w' = some pc := by
  by_cases hne : w' = w
  · subst hne
    simp only [BufferLoops.setProducing, Function.update_self] at h
    exact Or.inl ⟨rfl, h⟩
  · simp only [BufferLoops.setProducing, Function.update_of_ne hne] at h
    exact Or.inr ⟨hne, h⟩

/-- Is the thread about to sleep, or asleep and not woken yet? -/
def ProducePc.waits : ProducePc n → Bool
  | .sleep _ | .waiting _ => true
  | .enter _ | .loop _ | .woken _ | .test _ | .put _ => false

/-- Is the consumer about to sleep, or asleep and not woken yet? -/
def ConsumerPc.waits : ConsumerPc n → Bool
  | .sleep | .waiting => true
  | _ => false

/-- What the positions around the two calls that sleep say about the buffer, and that
nobody waits behind the wake-ups of {lit}`shut_down_threads`. -/
structure BufferWaits (b : BufferLoops n) : Prop where
  full : ∀ w e, b.producing w = some (.sleep e) → b.count = maxOutgoingBufferSize
  empty : b.consumer.waits = true → b.count = 0
  last : ∀ e, b.consumer = .sendLast e → b.shuttingDown = true
  flag : b.hasWoken = true → b.shuttingDown = true
  awake : b.hasWoken = true →
    (∀ w pc, b.producing w = some pc → pc.waits = false) ∧ b.consumer.waits = false

namespace BufferWaits

variable {b b' : BufferLoops n}

/-- A step that leaves the counter and the flag alone and sends nobody to sleep. -/
theorem of_nobodySleeps (hb : BufferWaits b) (hcount : b'.count = b.count)
    (hflag : b'.shuttingDown = b.shuttingDown) (hwoken : b'.hasWoken = b.hasWoken)
    (hprod : ∀ w pc, b'.producing w = some pc → pc.waits = true →
      ∃ pc₀, b.producing w = some pc₀ ∧ pc₀.waits = true ∧
        ∀ e, pc = .sleep e → pc₀ = .sleep e)
    (hconsumer : b'.consumer.waits = true → b.consumer.waits = true)
    (hlast : ∀ e, b'.consumer = .sendLast e → b.shuttingDown = true) : BufferWaits b' where
  full := by
    intro w e hpc
    rcases hprod w _ hpc rfl with ⟨pc₀, hpc₀, -, hsleep⟩
    rw [hcount]
    exact hb.full w e (hsleep e rfl ▸ hpc₀)
  empty := by
    intro hwaits
    rw [hcount]
    exact hb.empty (hconsumer hwaits)
  last := by
    intro e he
    rw [hflag]
    exact hlast e he
  flag := by
    rw [hwoken, hflag]
    exact hb.flag
  awake := by
    rw [hwoken]
    intro h
    rcases hb.awake h with ⟨hproducers, hcons⟩
    refine ⟨fun w pc hpc => ?_, ?_⟩
    · cases hwaits : pc.waits with
      | false => rfl
      | true =>
          rcases hprod w pc hpc hwaits with ⟨pc₀, hpc₀, hwaits₀, -⟩
          rw [hproducers w pc₀ hpc₀] at hwaits₀
          contradiction
    · cases hwaits : b'.consumer.waits with
      | false => rfl
      | true =>
          rw [hconsumer hwaits] at hcons
          contradiction

/-- Such a step of a producer. -/
theorem of_producer (hb : BufferWaits b) {w : ThreadId n} {pc' : Option (ProducePc n)}
    (hprod : b'.producing = (b.setProducing w pc').producing) (hcount : b'.count = b.count)
    (hflag : b'.shuttingDown = b.shuttingDown) (hwoken : b'.hasWoken = b.hasWoken)
    (hself : ∀ pc, pc' = some pc → pc.waits = true →
      ∃ pc₀, b.producing w = some pc₀ ∧ pc₀.waits = true ∧ ∀ e, pc = .sleep e → pc₀ = .sleep e)
    (hconsumer : b'.consumer = b.consumer) : BufferWaits b' := by
  refine hb.of_nobodySleeps hcount hflag hwoken ?_ (by rw [hconsumer]; exact id) ?_
  · intro w' pc hpc hwaits
    rw [hprod] at hpc
    rcases setProducing_cases hpc with ⟨rfl, hnew⟩ | ⟨-, hold⟩
    · exact hself pc hnew hwaits
    · exact ⟨pc, hold, hwaits, fun _ he => he⟩
  · rw [hconsumer]
    exact hb.last

/-- Such a step to a position at which nobody waits. -/
theorem of_awakeProducer (hb : BufferWaits b) {w : ThreadId n} {pc : ProducePc n}
    (hprod : b'.producing = (b.setProducing w (some pc)).producing) (hcount : b'.count = b.count)
    (hflag : b'.shuttingDown = b.shuttingDown) (hwoken : b'.hasWoken = b.hasWoken)
    (hawake : pc.waits = false) (hconsumer : b'.consumer = b.consumer) : BufferWaits b' := by
  refine hb.of_producer hprod hcount hflag hwoken ?_ hconsumer
  rintro pc' ⟨rfl⟩ hwaits
  rw [hawake] at hwaits
  contradiction

/-- Such a step of the consumer. -/
theorem of_consumer (hb : BufferWaits b) (hprod : b'.producing = b.producing)
    (hcount : b'.count = b.count) (hflag : b'.shuttingDown = b.shuttingDown)
    (hwoken : b'.hasWoken = b.hasWoken)
    (hconsumer : b'.consumer.waits = true → b.consumer.waits = true)
    (hlast : ∀ e, b'.consumer = .sendLast e → b.shuttingDown = true) : BufferWaits b' := by
  refine hb.of_nobodySleeps hcount hflag hwoken (fun w pc hpc hwaits => ?_) hconsumer hlast
  rw [hprod] at hpc
  exact ⟨pc, hpc, hwaits, fun _ he => he⟩

end BufferWaits

/-- A wake-up leaves nobody waiting, and moves nobody who is about to sleep. -/
theorem ProducePc.wake_of_waits {pc : ProducePc n} (hwaits : pc.wake.waits = true) :
    pc.wake = pc := by
  cases pc with
  | waiting e => contradiction
  | enter | loop | sleep | woken | test | put => rfl

theorem ConsumerPc.wake_of_waits {pc : ConsumerPc n} (hwaits : pc.wake.waits = true) :
    pc.wake = pc := by
  cases hpc : pc with
  | waiting =>
      rw [hpc] at hwaits
      contradiction
  | _ => rfl

/-- Whoever is outside the critical section is not about to sleep, so a wake-up leaves it
awake. -/
theorem ProducePc.awake_of_outside {pc : ProducePc n} (hout : pc.holdsLock = false) :
    pc.wake.waits = false := by
  cases pc with
  | sleep e => contradiction
  | enter | loop | waiting | woken | test | put => rfl

theorem ConsumerPc.awake_of_outside {pc : ConsumerPc n} (hout : pc.holdsLock = false) :
    pc.wake.waits = false := by
  cases pc with
  | sleep => contradiction
  | _ => rfl

/-- A wake-up does not move the consumer to its last message. -/
theorem ConsumerPc.sendLast_of_wake {pc : ConsumerPc n} {e : OutgoingBufferElement n}
    (hlast : pc.wake = .sendLast e) : pc = .sendLast e := by
  cases pc with
  | waiting => contradiction
  | _ => exact hlast

/-- Every step keeps the reasons for waiting. -/
theorem BufferWaits.step {b b' : BufferLoops n} (hb : BufferWaits b) (hmutex : BufferMutex b)
    (hstep : BufferStep b b') : BufferWaits b' := by
  cases hstep with
  | stay => exact hb
  | requestShutDown =>
      exact ⟨hb.full, hb.empty, fun _ _ => rfl, fun _ => rfl, hb.awake⟩
  | call | enter => exact hb.of_awakeProducer rfl rfl rfl rfl rfl rfl
  | @toSleep w e hpc hfull hflag =>
      refine ⟨fun w' e' _ => hfull, hb.empty, hb.last, hb.flag, fun hwoken => ?_⟩
      rw [hb.flag hwoken] at hflag
      contradiction
  | @wait w e hpc =>
      refine hb.of_producer rfl rfl rfl rfl ?_ rfl
      rintro pc ⟨rfl⟩ hwaits
      exact ⟨_, hpc, rfl, by simp⟩
  | toTest | toPut => exact hb.of_awakeProducer rfl rfl rfl rfl rfl rfl
  | @giveUp w e hpc hflag => exact hb.of_producer rfl rfl rfl rfl (by simp) rfl
  | @put w e hpc =>
      have hlock := hmutex.lock_ne hpc rfl
      have hawake : b.consumer.wake.waits = false :=
        ConsumerPc.awake_of_outside
          (hmutex.consumer_outside (hlock _ (hmutex.ne_consumer hpc).symm))
      refine ⟨fun w' e' hsleep => ?_, ?_, ?_, hb.flag, fun hwoken => ⟨fun w' pc hpc' => ?_, hawake⟩⟩
      · rcases setProducing_cases hsleep with ⟨-, hnone⟩ | ⟨hne, hold⟩
        · contradiction
        · have hout := hmutex.outside hold (hlock w' hne)
          contradiction
      · intro hwaits
        exact absurd hwaits (by simp [BufferLoops.setProducing, hawake])
      · exact fun e' he' => hb.last e' (ConsumerPc.sendLast_of_wake he')
      · rcases setProducing_cases hpc' with ⟨-, hnone⟩ | ⟨-, hold⟩
        · contradiction
        · exact (hb.awake hwoken).1 w' pc hold
  | @consumerOutside pc hold hnew =>
      have hawake : pc.waits = false := by
        cases pc <;> simp_all [ConsumerPc.waits, ConsumerPc.holdsLock]
      refine hb.of_consumer rfl rfl rfl rfl (by simp [hawake]) ?_
      rintro e rfl
      simp [ConsumerPc.holdsLock] at hnew
  | consumerEnter | consumerToGet | toLeave | leaveNobody | sendLast =>
      exact hb.of_consumer rfl rfl rfl rfl (by simp [ConsumerPc.waits]) (by simp)
  | consumerToSleep hpc hempty hflag =>
      refine ⟨hb.full, fun _ => hempty, by simp, hb.flag, fun hwoken => ?_⟩
      rw [hb.flag hwoken] at hflag
      contradiction
  | consumerWait hpc =>
      exact hb.of_consumer rfl rfl rfl rfl (fun _ => by rw [hpc]; rfl) (by simp)
  | @get e hpc =>
      have hlock := hmutex.lock_ne_of_consumer (by rw [hpc]; rfl)
      refine ⟨fun w e' hsleep => ?_, by simp [ConsumerPc.waits], by simp, hb.flag, ?_⟩
      · have hout := hmutex.outside hsleep (hlock w (hmutex.ne_consumer hsleep))
        contradiction
      · exact fun hwoken => ⟨(hb.awake hwoken).1, rfl⟩
  | toSendLast hpc hflag =>
      exact hb.of_consumer rfl rfl rfl rfl (by simp [ConsumerPc.waits]) (fun _ _ => hflag)
  | @leave w e e' hpc hwait =>
      have hleft : BufferWaits { b with bufferLock := none, consumer := .send e } :=
        hb.of_consumer rfl rfl rfl rfl (by simp [ConsumerPc.waits]) (by simp)
      exact hleft.of_awakeProducer rfl rfl rfl rfl rfl rfl
  | wakeProducer w =>
      refine hb.of_producer rfl rfl rfl rfl ?_ rfl
      intro pc hpc hwaits
      rw [Option.map_eq_some_iff] at hpc
      rcases hpc with ⟨pc₀, hpc₀, rfl⟩
      have hsame := ProducePc.wake_of_waits hwaits
      rw [hsame] at hwaits ⊢
      exact ⟨pc₀, hpc₀, hwaits, fun _ he => he⟩
  | wakeConsumer =>
      refine hb.of_consumer rfl rfl rfl rfl (fun hwaits => ?_)
        (fun e he => hb.last e (ConsumerPc.sendLast_of_wake he))
      rw [ConsumerPc.wake_of_waits hwaits] at hwaits
      exact hwaits
  | shutDownWake hfree hflag =>
      -- while the lock is free nobody is about to sleep, so everybody who waits is woken
      have hproducers : ∀ w pc, (b.producing w).map ProducePc.wake = some pc →
          pc.waits = false := by
        intro w pc hpc
        rw [Option.map_eq_some_iff] at hpc
        rcases hpc with ⟨pc₀, hpc₀, rfl⟩
        exact ProducePc.awake_of_outside (hmutex.outside hpc₀ (BufferMutex.lock_ne_of_free hfree w))
      have hconsumer : b.consumer.wake.waits = false :=
        ConsumerPc.awake_of_outside
          (hmutex.consumer_outside (BufferMutex.lock_ne_of_free hfree .consumer))
      refine ⟨fun w e hsleep => ?_, fun hwaits => ?_, fun _ _ => hflag, fun _ => hflag,
        fun _ => ⟨hproducers, hconsumer⟩⟩
      · have hwaits := hproducers w _ hsleep
        contradiction
      · rw [hconsumer] at hwaits
        contradiction

/-! ## Room for those who wait -/

/-- Is the thread on its way from the wait loop to {lit}`put`? -/
def ProducePc.willPut : ProducePc n → Bool
  | .loop _ | .test _ | .put _ => true
  | .enter _ | .sleep _ | .waiting _ | .woken _ => false

/-- Has the consumer taken an element without having woken a producer yet? -/
def ConsumerPc.willWake : ConsumerPc n → Bool
  | .test _ | .leave _ => true
  | _ => false

/-- Outside the critical section the thread is not on this way. -/
theorem ProducePc.willPut_of_outside {pc : ProducePc n} (hout : pc.holdsLock = false) :
    pc.willPut = false := by
  cases pc with
  | loop | test | put => contradiction
  | enter | sleep | waiting | woken => rfl

theorem ConsumerPc.willWake_of_outside {pc : ConsumerPc n} (hout : pc.holdsLock = false) :
    pc.willWake = false := by
  cases pc with
  | test | leave => contradiction
  | _ => rfl

/-- While the lock is free, the consumer has nobody to wake. -/
theorem BufferMutex.willWake_of_free {b : BufferLoops n} (hmutex : BufferMutex b)
    (hfree : b.bufferLock = none) : b.consumer.willWake = false :=
  ConsumerPc.willWake_of_outside (hmutex.consumer_outside (lock_ne_of_free hfree .consumer))

/-- As long as a producer waits, the elements in the buffer and the producers that have been
woken fill the buffer, but for one element while a thread inside the critical section is
about to put one or to wake a producer. -/
structure BufferSpace (b : BufferLoops n) : Prop where
  busy : b.shuttingDown = false → ∀ w e, b.producing w = some (.waiting e) →
    (maxOutgoingBufferSize : Int) ≤ b.count + (wokenProducers b.producing).card + 1
  quiet : b.shuttingDown = false → (∀ w pc, b.producing w = some pc → pc.willPut = false) →
    b.consumer.willWake = false → ∀ w e, b.producing w = some (.waiting e) →
    (maxOutgoingBufferSize : Int) ≤ b.count + (wokenProducers b.producing).card

namespace BufferSpace

variable {b b' : BufferLoops n}

/-- After the flag has been set nothing is left to prove. -/
theorem of_shuttingDown (hflag : b.shuttingDown = true) : BufferSpace b := by
  constructor
  all_goals
    intro hrunning
    rw [hflag] at hrunning
    contradiction

/-- A full buffer leaves nothing to prove either. -/
theorem of_full (hfull : b.count = maxOutgoingBufferSize) : BufferSpace b := by
  constructor
  all_goals
    intros
    omega

/-- A step that only moves the consumer, and not away from waking a producer. -/
theorem of_consumerMove (hb : BufferSpace b) (hprod : b'.producing = b.producing)
    (hcount : b'.count = b.count) (hflag : b'.shuttingDown = b.shuttingDown)
    (hwake : b'.consumer.willWake = false → b.consumer.willWake = false) : BufferSpace b' where
  busy := by
    rw [hprod, hcount, hflag]
    exact hb.busy
  quiet := by
    rw [hprod, hcount, hflag]
    exact fun hrunning hputs hwakes => hb.quiet hrunning hputs (hwake hwakes)

/-- While nobody who owns the lock is inside, the elements and the woken producers fill the
buffer. -/
theorem quiet_of_free (hb : BufferSpace b) (hmutex : BufferMutex b) (hfree : b.bufferLock = none)
    (hrunning : b.shuttingDown = false) {w : ThreadId n} {e : OutgoingBufferElement n}
    (hwait : b.producing w = some (.waiting e)) :
    (maxOutgoingBufferSize : Int) ≤ b.count + (wokenProducers b.producing).card := by
  refine hb.quiet hrunning (fun w' pc hpc => ?_) (hmutex.willWake_of_free hfree) w e hwait
  exact ProducePc.willPut_of_outside (hmutex.outside hpc (BufferMutex.lock_ne_of_free hfree w'))

end BufferSpace

/-- Moving a producer that has not been woken to a position where it is not woken. -/
theorem card_setProducing (b : BufferLoops n) {w : ThreadId n} (pc' : Option (ProducePc n))
    (hold : (b.producing w).any ProducePc.isWoken = false)
    (hnew : pc'.any ProducePc.isWoken = false) :
    (wokenProducers (b.setProducing w pc').producing).card =
      (wokenProducers b.producing).card := by
  have hcard := card_wokenProducers_update b.producing w pc'
  rw [hold, hnew] at hcard
  simpa [BufferLoops.setProducing] using hcard

/-- A producer moves without waiting or having been woken, and not away from {lit}`put`. -/
theorem BufferSpace.of_setProducing {b b' : BufferLoops n} (hb : BufferSpace b) {w : ThreadId n}
    {pc' : Option (ProducePc n)} (hprod : b'.producing = (b.setProducing w pc').producing)
    (hcount : b'.count = b.count) (hflag : b'.shuttingDown = b.shuttingDown)
    (hconsumer : b'.consumer = b.consumer) (hold : (b.producing w).any ProducePc.isWoken = false)
    (hnew : pc'.any ProducePc.isWoken = false) (hwait : ∀ e, pc' ≠ some (.waiting e))
    (hputs : (b.producing w).any ProducePc.willPut = true →
      pc'.any ProducePc.willPut = true) : BufferSpace b' := by
  have hcard := card_setProducing b pc' hold hnew
  have hwaiting : ∀ w' e, (b.setProducing w pc').producing w' = some (.waiting e) →
      b.producing w' = some (.waiting e) := by
    intro w' e hpc
    rcases setProducing_cases hpc with ⟨-, hself⟩ | ⟨-, hother⟩
    · exact absurd hself (hwait e)
    · exact hother
  constructor
  · rw [hprod, hcount, hflag, hcard]
    exact fun hrunning w' e hpc => hb.busy hrunning w' e (hwaiting w' e hpc)
  · rw [hprod, hcount, hflag, hcard, hconsumer]
    intro hrunning hnobody hwakes w' e hpc
    refine hb.quiet hrunning (fun w'' pc hpc'' => ?_) hwakes w' e (hwaiting w' e hpc)
    by_cases hne : w'' = w
    · subst hne
      cases hput : pc.willPut with
      | false => rfl
      | true =>
          have hany := hputs (by rw [hpc'', Option.any_some, hput])
          cases hnext : pc' with
          | none =>
              rw [hnext] at hany
              contradiction
          | some pc₁ =>
              have hfalse := hnobody w'' pc₁ (by simp [BufferLoops.setProducing, hnext])
              rw [hnext, Option.any_some, hfalse] at hany
              contradiction
    · apply hnobody w'' pc
      simpa [BufferLoops.setProducing, Function.update_of_ne hne] using hpc''

/-- A producer that waits is woken: those who wait have as much room as before, since one
more has been woken. -/
theorem BufferSpace.of_wakeUp {b b' : BufferLoops n} (hb : BufferSpace b) {w : ThreadId n}
    {e : OutgoingBufferElement n} (hwait : b.producing w = some (.waiting e))
    (hprod : b'.producing = (b.setProducing w (some (.woken e))).producing)
    (hcount : b'.count = b.count) (hflag : b'.shuttingDown = b.shuttingDown) :
    BufferSpace b' := by
  have hcard := card_wokenProducers_update b.producing w (some (.woken e))
  have hzero : ((b.producing w).any ProducePc.isWoken).toNat = 0 := by rw [hwait]; rfl
  have hone : ((some (ProducePc.woken e)).any ProducePc.isWoken).toNat = 1 := rfl
  have hroom : b'.shuttingDown = false →
      (maxOutgoingBufferSize : Int) ≤ b'.count + (wokenProducers b'.producing).card := by
    intro hrunning
    have hbusy := hb.busy (hflag ▸ hrunning) w e hwait
    rw [hcount, hprod]
    simp only [BufferLoops.setProducing]
    omega
  constructor
  · intro hrunning _ _ _
    have hle := hroom hrunning
    omega
  · exact fun hrunning _ _ _ _ _ => hroom hrunning

/-- Every step keeps the room for those who wait. -/
theorem BufferSpace.step {b b' : BufferLoops n} (hb : BufferSpace b) (hmutex : BufferMutex b)
    (hwaits : BufferWaits b) (hstep : BufferStep b b') : BufferSpace b' := by
  cases hstep with
  | stay => exact hb
  | requestShutDown => exact BufferSpace.of_shuttingDown rfl
  | @call w e hw hidle hnull =>
      exact hb.of_setProducing rfl rfl rfl rfl (by simp [hidle]) rfl (by simp) (by simp [hidle])
  | @enter w e hpc hfree =>
      have hcard := card_wokenProducers_update b.producing w (some (.loop e))
      have hone : ((b.producing w).any ProducePc.isWoken).toNat ≤ 1 := Bool.toNat_le _
      have hzero : ((some (ProducePc.loop e)).any ProducePc.isWoken).toNat = 0 := rfl
      constructor
      · intro hrunning w' e' hwait
        rcases setProducing_cases hwait with ⟨-, hself⟩ | ⟨-, hold⟩
        · simp at hself
        · have hroom := hb.quiet_of_free hmutex hfree hrunning hold
          simp only [BufferLoops.setProducing]
          omega
      · intro _ hnobody
        have hfalse := hnobody w (.loop e) (by simp [BufferLoops.setProducing])
        contradiction
  | toSleep hpc hfull hflag => exact BufferSpace.of_full hfull
  | wait hpc => exact BufferSpace.of_full (hwaits.full _ _ hpc)
  | toTest hpc | toPut hpc =>
      exact hb.of_setProducing rfl rfl rfl rfl (by rw [hpc]; rfl) rfl (by simp) (fun _ => rfl)
  | giveUp hpc hflag => exact BufferSpace.of_shuttingDown hflag
  | @put w e hpc =>
      have hcard := card_setProducing b (w := w) none (by rw [hpc]; rfl) rfl
      have hroom : b.shuttingDown = false → ∀ w' e',
          (b.setProducing w none).producing w' = some (.waiting e') →
          (maxOutgoingBufferSize : Int) ≤
            b.count + 1 + (wokenProducers (b.setProducing w none).producing).card := by
        intro hrunning w' e' hwait
        rcases setProducing_cases hwait with ⟨-, hself⟩ | ⟨-, hold⟩
        · contradiction
        · have hbusy := hb.busy hrunning w' e' hold
          omega
      constructor
      · intro hrunning w' e' hwait
        have hle := hroom hrunning w' e' hwait
        simp only [BufferLoops.setProducing] at hle ⊢
        omega
      · exact fun hrunning _ _ w' e' hwait => hroom hrunning w' e' hwait
  | @consumerOutside pc hold hnew =>
      exact hb.of_consumerMove rfl rfl rfl fun _ => ConsumerPc.willWake_of_outside hold
  | consumerEnter hfree =>
      exact hb.of_consumerMove rfl rfl rfl fun _ => hmutex.willWake_of_free hfree
  | consumerToSleep hpc | consumerWait hpc | consumerToGet hpc =>
      exact hb.of_consumerMove rfl rfl rfl fun _ => by rw [hpc]; rfl
  | @get e hpc =>
      have hlock := hmutex.lock_ne_of_consumer (by rw [hpc]; rfl)
      have hnobody : ∀ w pc, b.producing w = some pc → pc.willPut = false := by
        intro w pc hw
        exact ProducePc.willPut_of_outside (hmutex.outside hw (hlock w (hmutex.ne_consumer hw)))
      constructor
      · intro hrunning w e' hwait
        have hroom := hb.quiet hrunning hnobody (by rw [hpc]; rfl) w e' hwait
        simp only
        omega
      · intro _ _ hwakes
        contradiction
  | toLeave hpc => exact hb.of_consumerMove rfl rfl rfl (fun h => by contradiction)
  | toSendLast hpc hflag => exact BufferSpace.of_shuttingDown hflag
  | @leave w e e' hpc hwait =>
      exact hb.of_wakeUp hwait rfl rfl rfl
  | @leaveNobody e hpc hnobody =>
      constructor
      · exact fun _ w e' hwait => absurd hwait (hnobody w e')
      · exact fun _ _ _ w e' hwait => absurd hwait (hnobody w e')
  | sendLast hpc => exact BufferSpace.of_shuttingDown (hwaits.last _ hpc)
  | wakeProducer w =>
      cases hpc : b.producing w with
      | none =>
          exact hb.of_setProducing rfl rfl rfl rfl (by simp [hpc]) rfl (by simp) (by simp [hpc])
      | some pc =>
          cases pc with
          | waiting e => exact hb.of_wakeUp hpc rfl rfl rfl
          | enter | loop | sleep | woken | test | put =>
              have hsame : Function.update b.producing w (b.producing w) = b.producing :=
                Function.update_eq_self w b.producing
              rw [hpc] at hsame
              simp only [BufferLoops.setProducing, Option.map_some, ProducePc.wake, hsame]
              exact hb
  | wakeConsumer =>
      refine hb.of_consumerMove rfl rfl rfl fun hwakes => ?_
      cases hc : b.consumer <;> simp_all [ConsumerPc.willWake, ConsumerPc.wake]
  | shutDownWake hfree hflag => exact BufferSpace.of_shuttingDown hflag

/-! ## Elements without a message -/

/-- Is the thread about to put its element? -/
def ProducePc.isPut : ProducePc n → Bool
  | .put _ => true
  | .enter _ | .loop _ | .sleep _ | .waiting _ | .woken _ | .test _ => false

@[simp]
theorem ProducePc.isPut_wake (pc : ProducePc n) : pc.wake.isPut = pc.isPut := by
  cases pc <;> rfl

/-- An element without a message is held only after the flag has been set, and it does not
get past the second look at the flag. -/
structure BufferMessages (b : BufferLoops n) : Prop where
  held : ∀ w pc, b.producing w = some pc → pc.element.message = none →
    b.shuttingDown = true ∧ pc.isPut = false
  put : ∀ e ∈ b.put, e.message ≠ none

/-- A producer goes on with its element, or returns. -/
theorem BufferMessages.of_setProducing {b b' : BufferLoops n} (hb : BufferMessages b)
    {w : ThreadId n} {pc' : Option (ProducePc n)}
    (hprod : b'.producing = (b.setProducing w pc').producing)
    (hflag : b'.shuttingDown = b.shuttingDown) (hput : b'.put = b.put)
    (hself : ∀ pc, pc' = some pc → pc.element.message = none →
      b.shuttingDown = true ∧ pc.isPut = false) : BufferMessages b' where
  held := by
    intro w' pc hpc hnull
    rw [hprod] at hpc
    rw [hflag]
    rcases setProducing_cases hpc with ⟨-, hnew⟩ | ⟨-, hold⟩
    · exact hself pc hnew hnull
    · exact hb.held w' pc hold hnull
  put := hput ▸ hb.put

/-- Every step keeps elements without a message away from the buffer. -/
theorem BufferMessages.step {b b' : BufferLoops n} (hb : BufferMessages b)
    (hstep : BufferStep b b') : BufferMessages b' := by
  -- a producer that moves on keeps its element
  have hgoOn : ∀ {w : ThreadId n} {pc : ProducePc n} (pc' : ProducePc n),
      b.producing w = some pc → pc'.element = pc.element → pc'.isPut = false →
      ∀ pc₁, some pc' = some pc₁ → pc₁.element.message = none →
        b.shuttingDown = true ∧ pc₁.isPut = false := by
    rintro w pc pc' hpc helem hput pc₁ ⟨rfl⟩ hnull
    exact ⟨(hb.held w pc hpc (helem ▸ hnull)).1, hput⟩
  cases hstep with
  | stay => exact hb
  | requestShutDown => exact ⟨fun w pc hpc hnull => ⟨rfl, (hb.held w pc hpc hnull).2⟩, hb.put⟩
  | @call w e hw hidle hnull =>
      apply hb.of_setProducing rfl rfl rfl
      rintro pc ⟨rfl⟩ hmessage
      exact ⟨hnull hmessage, rfl⟩
  | @enter w e hpc hfree =>
      rcases hpc with hpc | hpc
      · exact hb.of_setProducing rfl rfl rfl (hgoOn (.loop e) hpc rfl rfl)
      · exact hb.of_setProducing rfl rfl rfl (hgoOn (.loop e) hpc rfl rfl)
  | toSleep hpc hfull hflag => exact hb.of_setProducing rfl rfl rfl (hgoOn _ hpc rfl rfl)
  | wait hpc | toTest hpc => exact hb.of_setProducing rfl rfl rfl (hgoOn _ hpc rfl rfl)
  | giveUp hpc hflag => exact hb.of_setProducing rfl rfl rfl (by simp)
  | @toPut w e hpc hflag =>
      apply hb.of_setProducing rfl rfl rfl
      rintro pc ⟨rfl⟩ hnull
      have hset := (hb.held w _ hpc hnull).1
      rw [hset] at hflag
      contradiction
  | @put w e hpc =>
      have hreturned : BufferMessages (b.setProducing w none) :=
        hb.of_setProducing rfl rfl rfl (by simp)
      refine ⟨hreturned.held, fun e' he' => ?_⟩
      rcases List.mem_append.mp he' with hold | hnew
      · exact hb.put e' hold
      · rw [List.mem_singleton.mp hnew]
        intro hnull
        have hfalse := (hb.held w _ hpc hnull).2
        contradiction
  | consumerOutside | consumerEnter | consumerToSleep | consumerWait | consumerToGet | get |
    toLeave | toSendLast | leaveNobody | sendLast | wakeConsumer => exact ⟨hb.held, hb.put⟩
  | @leave w e e' hpc hwait => exact hb.of_setProducing rfl rfl rfl (hgoOn _ hwait rfl rfl)
  | wakeProducer w =>
      apply hb.of_setProducing rfl rfl rfl
      intro pc hpc hnull
      rw [Option.map_eq_some_iff] at hpc
      rcases hpc with ⟨pc₀, hpc₀, rfl⟩
      rw [ProducePc.element_wake] at hnull
      simpa using hb.held w pc₀ hpc₀ hnull
  | shutDownWake hfree hflag =>
      refine ⟨fun w pc hpc hnull => ?_, hb.put⟩
      rw [Option.map_eq_some_iff] at hpc
      rcases hpc with ⟨pc₀, hpc₀, rfl⟩
      rw [ProducePc.element_wake] at hnull
      simpa using hb.held w pc₀ hpc₀ hnull

/-! ## What a step does to the wait loops -/

theorem produceNewMessage_bufferStep {s s' : Threads n} {w : ThreadId n} {pc : ProducePc n}
    (hpc : s.producing w = some pc) (hstep : produceNewMessage s w pc = some s') :
    BufferStep s.bufferLoops s'.bufferLoops := by
  cases pc with
  | enter e =>
      simp only [produceNewMessage] at hstep
      split at hstep
      · next hfree =>
          rw [← Option.some.inj hstep]
          exact BufferStep.enter (Or.inl hpc) hfree
      · contradiction
  | woken e =>
      simp only [produceNewMessage] at hstep
      split at hstep
      · next hfree =>
          rw [← Option.some.inj hstep]
          exact BufferStep.enter (Or.inr hpc) hfree
      · contradiction
  | loop e =>
      simp only [produceNewMessage] at hstep
      split at hstep
      · next hcond =>
          rw [← Option.some.inj hstep]
          exact BufferStep.toSleep hpc hcond.1 hcond.2
      · rw [← Option.some.inj hstep]
        exact BufferStep.toTest hpc
  | sleep e =>
      simp only [produceNewMessage] at hstep
      rw [← Option.some.inj hstep]
      exact BufferStep.wait hpc
  | waiting e => simp [produceNewMessage] at hstep
  | test e =>
      simp only [produceNewMessage] at hstep
      split at hstep
      · next hflag =>
          rw [← Option.some.inj hstep]
          exact BufferStep.giveUp hpc hflag
      · next hflag =>
          rw [← Option.some.inj hstep]
          exact BufferStep.toPut hpc (by simpa [bufferLoops] using hflag)
  | put e =>
      simp only [produceNewMessage] at hstep
      rw [← Option.some.inj hstep]
      exact BufferStep.put hpc

theorem bufferLoops_signalShutDown (s : Threads n) :
    s.signalShutDown.bufferLoops = s.bufferLoops := by
  simp [bufferLoops, signalShutDown]

/-- The thread of a topic hands on a message unless the flag is set. -/
theorem produce_bufferStep {s s' : Threads n} {i : Fin n} (hcalls : CallsInv s)
    (hqueue : QueueWaits i (s.queueSide i)) (hstep : produce s i = some s') :
    BufferStep s.bufferLoops s'.bufferLoops := by
  cases produce_cases hstep with
  | move owner hold hnew hidle hpass => exact BufferStep.stay
  | callNull hpc hflag =>
      have hidle := hcalls.calling i (by simp [hpc])
      exact BufferStep.call (b := s.bufferLoops) (by simp) hidle (fun _ => hflag)
  | @take nodes q message hpc hdequeue =>
      have hidle := hcalls.calling i (by simp [hpc])
      have hhead : (s.messageQueue i).head ≠ none := hqueue.take hpc
      refine BufferStep.call (b := s.bufferLoops) (by simp) hidle (fun hnull => ?_)
      cases hq : (s.messageQueue i).head with
      | none => exact absurd hq hhead
      | some head =>
          simp only [dequeueUnsafe, hq, Option.map_eq_some_iff, Prod.mk.injEq] at hdequeue
          rcases hdequeue with ⟨node, -, -, -, hmessage⟩
          rw [← hmessage] at hnull
          contradiction
  | call hprod hcall => exact produceNewMessage_bufferStep hprod hcall
  | signal hpc =>
      have hside := BufferStep.stay (b := s.bufferLoops)
      rwa [← bufferLoops_signalShutDown] at hside ⊢

theorem waitsForSpace_iff {s : Threads n} {w : ThreadId n} :
    s.waitsForSpace w = true ↔ ∃ e, s.producing w = some (.waiting e) := by
  unfold waitsForSpace
  split
  · next e hpc => simp [hpc]
  · next hnot =>
      constructor
      · intro h
        contradiction
      · rintro ⟨e, hpc⟩
        exact absurd hpc (hnot e)

/-- The consumer wakes one of the producers that wait, or there is none. -/
theorem leave_bufferStep {s s₁ : Threads n} {wake : Option (ThreadId n)} (hcalls : CallsInv s)
    {e : OutgoingBufferElement n} (hpc : s.consumer = .leave e)
    (hwake : s.wakeEmptyCv wake = some s₁) :
    BufferStep s.bufferLoops
      ({ s₁ with bufferLock := none, consumer := .send e } : Threads n).bufferLoops := by
  cases wake with
  | some w =>
      simp only [wakeEmptyCv] at hwake
      split at hwake
      · next hwaits =>
          rcases waitsForSpace_iff.mp hwaits with ⟨e', hwait⟩
          rw [← Option.some.inj hwake]
          have hside := BufferStep.leave (b := s.bufferLoops) (w := w) hpc hwait
          simpa [bufferLoops, BufferLoops.setProducing, Threads.wakeProducer,
            Threads.setProducing, hwait, ProducePc.wake] using hside
      · contradiction
  | none =>
      simp only [wakeEmptyCv] at hwake
      split at hwake
      · contradiction
      · next hnobody =>
          rw [← Option.some.inj hwake]
          refine BufferStep.leaveNobody (b := s.bufferLoops) hpc (fun w e' hwait => ?_)
          have hwaits := waitsForSpace_iff.mpr ⟨e', hwait⟩
          apply hnobody
          rw [Bool.or_eq_true, List.any_eq_true]
          cases w with
          | main => exact Or.inl hwaits
          | topic i => exact Or.inr ⟨i, List.mem_finRange i, hwaits⟩
          | consumer =>
              have hidle : s.producing .consumer = some (.waiting e') := hwait
              rw [hcalls.consumer] at hidle
              contradiction

theorem consume_bufferStep {s s' : Threads n} {wake : Option (ThreadId n)} (hcalls : CallsInv s)
    (hstep : consume s wake = some s') : BufferStep s.bufferLoops s'.bufferLoops := by
  have houtside : ∀ pc : ConsumerPc n, s.consumer.holdsLock = false →
      pc.holdsLock = false ∧ pc ≠ .waiting →
      BufferStep s.bufferLoops { s.bufferLoops with consumer := pc } :=
    fun pc hold hnew => BufferStep.consumerOutside hold hnew
  cases hpc : s.consumer with
  | notCreated | waiting | returned => simp [consume, hpc] at hstep
  | top =>
      simp only [consume, hpc] at hstep
      split at hstep
      all_goals
        rw [← Option.some.inj hstep]
        exact houtside _ (by rw [hpc]; rfl) (by simp [ConsumerPc.holdsLock])
  | enter | woken =>
      simp only [consume, hpc] at hstep
      split at hstep
      · next hfree =>
          rw [← Option.some.inj hstep]
          exact BufferStep.consumerEnter (b := s.bufferLoops) hfree
      · contradiction
  | loop =>
      simp only [consume, hpc] at hstep
      split at hstep
      · next hcond =>
          rw [← Option.some.inj hstep]
          exact BufferStep.consumerToSleep (b := s.bufferLoops) hpc hcond.1 hcond.2
      · rw [← Option.some.inj hstep]
        exact BufferStep.consumerToGet (b := s.bufferLoops) hpc
  | sleep =>
      simp only [consume, hpc] at hstep
      rw [← Option.some.inj hstep]
      exact BufferStep.consumerWait (b := s.bufferLoops) hpc
  | get =>
      simp only [consume, hpc] at hstep
      rw [← Option.some.inj hstep]
      exact BufferStep.get (b := s.bufferLoops) hpc
  | test e =>
      simp only [consume, hpc] at hstep
      split at hstep
      · next hflag =>
          rw [← Option.some.inj hstep]
          exact BufferStep.toSendLast (b := s.bufferLoops) hpc hflag
      · rw [← Option.some.inj hstep]
        exact BufferStep.toLeave (b := s.bufferLoops) hpc
  | leave e =>
      simp only [consume, hpc, Option.map_eq_some_iff] at hstep
      rcases hstep with ⟨s₁, hwake, rfl⟩
      exact leave_bufferStep hcalls hpc hwake
  | send e =>
      simp only [consume, hpc] at hstep
      rw [← Option.some.inj hstep]
      exact houtside .top (by rw [hpc]; rfl) (by simp [ConsumerPc.holdsLock])
  | sendLast e =>
      simp only [consume, hpc] at hstep
      rw [← Option.some.inj hstep]
      exact BufferStep.sendLast (b := s.bufferLoops) hpc
  | signal =>
      simp only [consume, hpc] at hstep
      rw [← Option.some.inj hstep]
      have hside := houtside .returned (by rw [hpc]; rfl) (by simp [ConsumerPc.holdsLock])
      simpa [bufferLoops, signalShutDown] using hside

theorem shutDownThreads_bufferStep {s s' : Threads n} (hcalls : CallsInv s)
    (hstep : shutDownThreads s = some s') : BufferStep s.bufferLoops s'.bufferLoops := by
  have hside := BufferStep.stay (b := s.bufferLoops)
  cases shutDownThreads_cases hstep with
  | request hpc =>
      have hrequest := BufferStep.requestShutDown (b := s.bufferLoops)
      simpa [bufferLoops, hpc, ShutDownPc.hasWokenBuffer] using hrequest
  | wakeQueue hi hpc hfree =>
      simpa [bufferLoops, wakeQueueCv, setTopic, hpc, ShutDownPc.hasWokenBuffer] using hside
  | queuesWoken hi hpc => simpa [bufferLoops, hpc, ShutDownPc.hasWokenBuffer] using hside
  | wakeBuffer hpc hfree =>
      have hflag := hcalls.flag (by simp [hpc])
      exact BufferStep.shutDownWake (b := s.bufferLoops) hfree hflag
  | wait hpc | finish hpc =>
      rcases hpc with hpc | hpc
      all_goals simpa [bufferLoops, hpc, ShutDownPc.hasWokenBuffer] using hside

/-- What a step can do to the wait loops of the outgoing buffer. -/
theorem threadStep_bufferStep {s s' : Threads n} (hcalls : CallsInv s)
    (hqueues : ∀ i, QueueWaits i (s.queueSide i)) {a : Action n}
    (hstep : threadStep s a = some s') : BufferStep s.bufferLoops s'.bufferLoops := by
  cases threadStep_cases hstep with
  | publish hstep =>
      rcases enqueue_cases hstep with ⟨-, -, -, nodes, q, -, rfl⟩
      exact BufferStep.stay
  | respond hidle => exact BufferStep.call (b := s.bufferLoops) (by simp) hidle (by simp)
  | main hprod hstep => exact produceNewMessage_bufferStep hprod hstep
  | topic hstep => exact produce_bufferStep hcalls (hqueues _) hstep
  | consumer hstep => exact consume_bufferStep hcalls hstep
  | shutDown hstep => exact shutDownThreads_bufferStep hcalls hstep
  | spurious w =>
      cases w with
      | main => exact BufferStep.wakeProducer (b := s.bufferLoops) .main
      | topic i => exact BufferStep.wakeProducer (b := s.bufferLoops) (.topic i)
      | consumer => exact BufferStep.wakeConsumer (b := s.bufferLoops)

/-! ## The invariants in every run -/

/-- All that is known about the wait loops of the outgoing buffer. -/
structure BufferLoopsInv (b : BufferLoops n) : Prop where
  mutex : BufferMutex b
  waits : BufferWaits b
  space : BufferSpace b
  messages : BufferMessages b

theorem bufferLoopsInv_start (garbage : Nat → OutgoingBufferElement n) (created : Fin n → Bool)
    (consumerCreated : Bool) :
    BufferLoopsInv (Threads.start garbage created consumerCreated).bufferLoops := by
  have hconsumer : (Threads.start garbage created consumerCreated).consumer.waits = false ∧
      (Threads.start garbage created consumerCreated).consumer.holdsLock = false := by
    cases consumerCreated <;> exact ⟨rfl, rfl⟩
  rcases hconsumer with ⟨hwaits, hinside⟩
  constructor
  case mutex => exact ⟨by simp [bufferLoops, Threads.start], by simp [bufferLoops, hinside], rfl⟩
  case waits =>
    refine ⟨by simp [bufferLoops, Threads.start], by simp [bufferLoops, hwaits], ?_, ?_, ?_⟩
    · cases consumerCreated <;> simp [bufferLoops, Threads.start]
    · simp [bufferLoops, Threads.start, ShutDownPc.hasWokenBuffer]
    · simp [bufferLoops, Threads.start, ShutDownPc.hasWokenBuffer]
  case space => exact ⟨by simp [bufferLoops, Threads.start], by simp [bufferLoops, Threads.start]⟩
  case messages =>
    exact ⟨by simp [bufferLoops, Threads.start], by simp [bufferLoops, Threads.start]⟩

variable {created : Fin n → Bool} {consumerCreated : Bool}

theorem bufferLoopsInv_reachable {s : Threads n}
    (hreach : (threadSystem created consumerCreated).Reachable s) :
    BufferLoopsInv s.bufferLoops := by
  have hboth : (threadSystem created consumerCreated).Reachable s ∧
      BufferLoopsInv s.bufferLoops := by
    refine System.Reachable.invariant (fun s =>
      (threadSystem created consumerCreated).Reachable s ∧ BufferLoopsInv s.bufferLoops) ?_ ?_
      hreach
    · rintro s ⟨garbage, rfl⟩
      exact ⟨System.Reachable.start ⟨garbage, rfl⟩,
        bufferLoopsInv_start garbage created consumerCreated⟩
    · rintro s a s' ⟨hreach, hinv⟩ hstep
      have hside := threadStep_bufferStep (callsInv_reachable hreach)
        (queueWaits_reachable hreach) hstep
      exact ⟨System.Reachable.step hreach hstep, hinv.mutex.step hside,
        hinv.waits.step hinv.mutex hside, hinv.space.step hinv.mutex hinv.waits hside,
        hinv.messages.step hside⟩
  exact hboth.2

end Broker
end PubSub
