import Shmchan.Process.Crash
import Shmchan.Managed.Operations
import Shmchan.Managed.Queue

open process

namespace shmchan.managed

/-- The layout fields are those of an accepted pair of options. -/
structure Configured (m : Memory) : Prop where
  capacity_pos : 0 < m.header.message_capacity
  capacity_lt : m.header.message_capacity < 2 ^ 64
  max_lt : m.header.max_message_size < 2 ^ 32
  max_le_stride : m.header.max_message_size ≤ m.header.payload_stride

/-- Every slot is FREE, WRITING or a READY slot that recovery accepts. -/
structure WellFormed (m : Memory) : Prop where
  states : ∀ i, i < m.header.message_capacity →
    (m.slots i).state = ManagedSlotState.free.word ∨
      (m.slots i).state = ManagedSlotState.writing.word ∨
      (m.slots i).state = ManagedSlotState.ready.word
  ready : ∀ i, i < m.header.message_capacity →
    (m.slots i).state = ManagedSlotState.ready.word →
      (m.slots i).payload_size ≤ m.header.max_message_size ∧ 0 < (m.slots i).sequence ∧
        (m.slots i).sequence < m.header.next_sequence
  distinct : m.Distinct

/-- The slots are well formed, and the queue is what was published, in
    increasing sequence order, less what was taken. -/
structure Sound (m : Memory) : Prop where
  wellFormed : WellFormed m
  history : m.history.published = m.history.taken.map Prod.fst ++ m.queue
  increasing : m.history.published.Pairwise fun a b => a.1 < b.1
  below : ∀ x ∈ m.history.published, x.1 < m.header.next_sequence

/-- No slot is WRITING and the three counts are exact. -/
structure Settled (m : Memory) : Prop where
  idle : ∀ i, i < m.header.message_capacity →
    (m.slots i).state ≠ ManagedSlotState.writing.word
  free : m.header.free_slots = (m.slots_in .free).length
  writing : m.header.writing_messages = 0
  ready : m.header.ready_messages = (m.slots_in .ready).length

/-- A slot that is still READY no longer has the descriptor the receiver found
    in it: the receiver has begun to erase it. -/
def HalfErased (m : Memory) (entry : Entry) : Prop :=
  ∃ i, i < m.header.message_capacity ∧ (m.slots i).state = ManagedSlotState.ready.word ∧
    m.slots i ≠ entry.slots i

/-- How far a receiver has changed the queue it found. -/
inductive ReceiveProgress (m : Memory) (entry : Entry) : Prop where
  | untouched (hsound : Sound m) (hqueue : m.queue = entry.queue) (hkept : ¬ HalfErased m entry)
  | truncated (sequence : Nat) (bytes : Bytes) (rest : List Message) (hwell : WellFormed m)
      (hentry : entry.queue = (sequence, bytes) :: rest) (hbytes : bytes ≠ [])
      (hqueue : m.queue = (sequence, []) :: rest) (herased : HalfErased m entry)
      (hhistory : m.history.published = m.history.taken.map Prod.fst ++ entry.queue)
      (hincreasing : m.history.published.Pairwise fun a b => a.1 < b.1)
  | unsequenced (i : Nat) (hi : i < m.header.message_capacity)
      (hready : (m.slots i).state = ManagedSlotState.ready.word) (hzero : (m.slots i).sequence = 0)
      (herased : HalfErased m entry)
      (hhistory : m.history.published = m.history.taken.map Prod.fst ++ entry.queue)
      (hincreasing : m.history.published.Pairwise fun a b => a.1 < b.1)
  | taken (hsound : Sound m) (hentry : entry.queue ≠ []) (hqueue : m.queue = entry.queue.tail)
      (hkept : ¬ HalfErased m entry)

/-- What holds after every single store. `unlinks` says whether `unlink` may
    be called. The channel can only be broken by running out of sequences. -/
structure Inv (unlinks : Bool) (m : Memory) : Prop where
  configured : Configured m
  claimed : m.header.next_sequence = m.history.claimed + 1
  claimed_lt : m.history.claimed < 2 ^ 64 - 1
  state : m.header.state = ManagedChannelState.healthy.word ∨
    m.header.state = ManagedChannelState.closed.word ∨
    (m.header.state = ManagedChannelState.destroying.word ∧ unlinks = true) ∨
    (m.header.state = ManagedChannelState.broken.word ∧ m.history.claimed = 2 ^ 64 - 2)
  initialized : m.header.mutex ≠ .raw
  unlocked : m.header.mutex = .unlocked → Settled m
  entry : m.history.entry ≠ none → m.header.mutex.is_held = true
  sound : m.history.entry = none → Sound m
  outside : ∀ entry, m.history.entry = some entry → entry.inside = false → Sound m
  progress : ∀ entry, m.history.entry = some entry → ReceiveProgress m entry

/-- What other processes may do to the shared memory while one holds the
    mutex: count waiters and timeouts, sleep and wake, advance the epoch, and,
    with `unlink`, store `destroying`. -/
def Interference (unlinks : Bool) (m m' : Memory) : Prop :=
  ∃ state event_epoch counters waiters,
    (state = m.header.state ∨ (unlinks = true ∧ state = ManagedChannelState.destroying.word)) ∧
      m' = { m with
        header := { m.header with state := state, event_epoch := event_epoch, counters := counters }
        waiters := waiters }

theorem Interference.refl (unlinks : Bool) (m : Memory) : Interference unlinks m m :=
  ⟨_, _, _, _, .inl rfl, rfl⟩

theorem Interference.trans {unlinks : Bool} {m₁ m₂ m₃ : Memory} (h : Interference unlinks m₁ m₂)
    (h' : Interference unlinks m₂ m₃) : Interference unlinks m₁ m₃ := by
  obtain ⟨s₁, e₁, c₁, w₁, hs₁, rfl⟩ := h
  obtain ⟨s₂, e₂, c₂, w₂, hs₂, rfl⟩ := h'
  refine ⟨s₂, e₂, c₂, w₂, ?_, rfl⟩
  rcases hs₂ with hs₂ | hs₂
  · exact hs₁.imp hs₂.trans fun h => ⟨h.1, hs₂.trans h.2⟩
  · exact .inr hs₂

section

variable {unlinks : Bool} {m m' : Memory} {entry : Entry}

/-- Two memories with the same layout, slots, payloads and history. -/
structure SameQueue (m m' : Memory) : Prop where
  capacity : m'.header.message_capacity = m.header.message_capacity
  max : m'.header.max_message_size = m.header.max_message_size
  stride : m'.header.payload_stride = m.header.payload_stride
  slots : m'.slots = m.slots
  payloads : m'.payloads = m.payloads
  next : m'.header.next_sequence = m.header.next_sequence
  history : m'.history = m.history

theorem Interference.sameQueue (h : Interference unlinks m m') : SameQueue m m' := by
  obtain ⟨s, e, c, w, hs, rfl⟩ := h
  exact ⟨rfl, rfl, rfl, rfl, rfl, rfl, rfl⟩

theorem SameQueue.message (h : SameQueue m m') (i : Nat) : m'.message i = m.message i := by
  simp only [Memory.message, Memory.payload_bytes, Memory.payload_base, h.slots, h.payloads, h.stride]

theorem SameQueue.queue (h : SameQueue m m') : m'.queue = m.queue :=
  Memory.queue_congr h.capacity (fun _ _ => by rw [h.slots]) fun i _ _ => h.message i

theorem SameQueue.configured (h : SameQueue m m') (hm : Configured m) : Configured m' := by
  constructor
  · rw [h.capacity]; exact hm.capacity_pos
  · rw [h.capacity]; exact hm.capacity_lt
  · rw [h.max]; exact hm.max_lt
  · rw [h.max, h.stride]; exact hm.max_le_stride

theorem SameQueue.wellFormed (h : SameQueue m m') (hm : WellFormed m) : WellFormed m' := by
  constructor
  · rw [h.capacity, h.slots]; exact hm.states
  · rw [h.capacity, h.slots, h.max, h.next]; exact hm.ready
  · unfold Memory.Distinct
    rw [h.capacity, h.slots]; exact hm.distinct

theorem SameQueue.sound (h : SameQueue m m') (hm : Sound m) : Sound m' := by
  constructor
  · exact h.wellFormed hm.wellFormed
  · rw [h.history, h.queue]; exact hm.history
  · rw [h.history]; exact hm.increasing
  · rw [h.history, h.next]; exact hm.below

theorem SameQueue.halfErased (h : SameQueue m m') :
    HalfErased m' entry ↔ HalfErased m entry := by
  simp only [HalfErased, h.capacity, h.slots]

theorem SameQueue.progress (h : SameQueue m m') (hm : ReceiveProgress m entry) :
    ReceiveProgress m' entry := by
  cases hm with
  | untouched hsound hqueue hkept =>
    exact .untouched (h.sound hsound) (h.queue.trans hqueue) (mt h.halfErased.mp hkept)
  | truncated sequence bytes rest hwell hentry hbytes hqueue herased hhistory hincreasing =>
    exact .truncated sequence bytes rest (h.wellFormed hwell) hentry hbytes (h.queue.trans hqueue)
      (h.halfErased.mpr herased) (h.history ▸ hhistory) (h.history ▸ hincreasing)
  | unsequenced i hi hready hzero herased hhistory hincreasing =>
    exact .unsequenced i (h.capacity ▸ hi) (h.slots ▸ hready) (h.slots ▸ hzero)
      (h.halfErased.mpr herased) (h.history ▸ hhistory) (h.history ▸ hincreasing)
  | taken hsound hentry hqueue hkept =>
    exact .taken (h.sound hsound) hentry (h.queue.trans hqueue) (mt h.halfErased.mp hkept)

theorem Settled.interference (hm : Settled m) (h : Interference unlinks m m') : Settled m' := by
  obtain ⟨s, e, c, w, hs, rfl⟩ := h
  exact ⟨hm.idle, hm.free, hm.writing, hm.ready⟩

/-- The invariant survives what other processes do without the mutex. -/
theorem Inv.interference (hm : Inv unlinks m) (h : Interference unlinks m m') : Inv unlinks m' := by
  have hsame := h.sameQueue
  have hsettled := fun hs : Settled m => hs.interference h
  obtain ⟨s, e, c, w, hs, rfl⟩ := h
  refine ⟨hsame.configured hm.configured, hm.claimed, hm.claimed_lt, ?_, hm.initialized,
    fun hmutex => hsettled (hm.unlocked hmutex), hm.entry, fun hentry => hsame.sound (hm.sound hentry),
    fun entry hentry hinside => hsame.sound (hm.outside entry hentry hinside),
    fun entry hentry => hsame.progress (hm.progress entry hentry)⟩
  rcases hs with rfl | ⟨hunlinks, rfl⟩
  · exact hm.state
  · exact .inr (.inr (.inl ⟨rfl, hunlinks⟩))

end

end shmchan.managed
