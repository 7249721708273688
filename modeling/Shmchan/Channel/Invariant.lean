import Shmchan.Channel.Operations
import Shmchan.Endpoint.Phases
import Shmchan.Endpoint.Senders

open process shmchan.endpoint

namespace shmchan.channel

/-- The phases in the order of the items, of which those that may be in the
    ring fit the slots. -/
structure Ordered (capacity : Nat) (phase : Nat → Phase) (count claimed : Nat) : Prop where
  claimed_le : claimed ≤ count
  behind : ∀ i < claimed, (phase i).taken = true
  ahead : ∀ i, claimed ≤ i → (phase i).taken = false
  occupied : ∀ i < count, phase i ≠ .vacant
  vacant : ∀ i, count ≤ i → phase i = .vacant
  settled : ∀ i, i + capacity < count → phase i = .consumed

/-- The sequence word of the slot whose last item has this index. A single slot
    has its own states. -/
def word_of (capacity index : Nat) : Phase → Nat
  | .reserved _ => if capacity = 1 then 1 else index
  | .published => if capacity = 1 then 2 else index + 1
  | .claimed _ => if capacity = 1 then 3 else index + 1
  | .vacant | .consumed => if capacity = 1 then 0 else index + capacity

/-- The two positions and the sequence words. -/
structure Placed (capacity : Nat) (phase : Nat → Phase) (count claimed : Nat)
    (enqueue_position dequeue_position : Nat) (sequence : Nat → Nat) : Prop where
  enqueue_position : enqueue_position = if capacity = 1 then 0 else count
  dequeue_position : dequeue_position = if capacity = 1 then 0 else claimed
  unused : ∀ i, count ≤ i → i < capacity → sequence i = i
  used : ∀ i < count, count ≤ i + capacity → sequence (i % capacity) = word_of capacity i (phase i)

/-- The first `count` bytes of a value are in the storage of a slot. -/
def Holds (storage : Nat → UInt8) (value : Bytes) (count : Nat) : Prop :=
  ∀ k (hk : k < value.length), k < count → storage k = value[k]

/-- Fewer than 2^63 items, with those that the slots have room for. -/
def Bounded (channel : Channel) (s : Memory) : Prop := s.log.count + channel.capacity ≤ 2 ^ 63

instance (channel : Channel) (s : Memory) : Decidable (Bounded channel s) := inferInstanceAs (Decidable (_ ≤ _))

/-- The positions and the sequence words fit their 64 bits. -/
def Representable (channel : Channel) (s : Memory) : Prop := s.log.count + channel.capacity < 2 ^ 64

theorem Bounded.representable {channel : Channel} {s : Memory} (h : Bounded channel s) :
    Representable channel s := by
  rw [Bounded] at h
  rw [Representable]
  omega

/-- The slot of the next position to enqueue is free, as `try_enqueue` sees it. -/
def SlotFree (channel : Channel) (s : Memory) : Prop :=
  if channel.capacity = 1 then s.ring.sequence 0 = 0
  else s.ring.sequence (s.ring.enqueue_position % channel.capacity) = s.ring.enqueue_position

/-- The slot of the next position to dequeue is full, as `try_dequeue` sees it. -/
def SlotFull (channel : Channel) (s : Memory) : Prop :=
  if channel.capacity = 1 then s.ring.sequence 0 = 2
  else s.ring.sequence (s.ring.dequeue_position % channel.capacity) = add64 s.ring.dequeue_position 1

instance (channel : Channel) (s : Memory) : Decidable (SlotFree channel s) :=
  inferInstanceAs (Decidable (ite _ _ _))

instance (channel : Channel) (s : Memory) : Decidable (SlotFull channel s) :=
  inferInstanceAs (Decidable (ite _ _ _))

/-- `guarded` says whether the processes are senders under their guards, or
    bare tries. -/
structure Inv (guarded : Prop) (channel : Channel) (s : Memory) : Prop where
  ordered : Ordered channel.capacity s.log.phase s.log.count s.log.claimed
  placed : Placed channel.capacity s.log.phase s.log.count s.log.claimed s.ring.enqueue_position
    s.ring.dequeue_position s.ring.sequence
  sized : ∀ i < s.log.count, (s.log.message i).length = channel.element_size
  stored : ∀ i, (s.log.phase i = .published ∨ ∃ pid, s.log.phase i = .claimed pid) →
    Holds (s.ring.storage (i % channel.capacity)) (s.log.message i) channel.element_size
  writing : ∀ pid slot, s.ring.writing pid = some slot →
    ∃ i, s.log.phase i = .reserved pid ∧ i % channel.capacity = slot
  reading : ∀ pid slot, s.ring.reading pid = some slot →
    ∃ i, s.log.phase i = .claimed pid ∧ i % channel.capacity = slot
  delivered : ∀ x ∈ s.log.delivered, s.log.phase x.1 = .consumed ∧ x.2 = s.log.message x.1
  once : (s.log.delivered.map Prod.fst).Nodup
  senders_done : Finishers 2 s.log.phase s.ring.sent
  receivers_done : Finishers 4 s.log.phase s.ring.last
  senders : guarded → Senders s.sender_state s.closings s.guards s.log.phase

/-- What a process may rely on from the others. -/
structure Rely (guarded : Prop) (channel : Channel) (pid : Nat) (s s' : Memory) : Prop where
  sender : guarded → SenderRely pid s s'
  count : s.log.count ≤ s'.log.count
  claimed : s.log.claimed ≤ s'.log.claimed
  message : ∀ i < s.log.count, s'.log.message i = s.log.message i
  stage : ∀ i, (s.log.phase i).stage ≤ (s'.log.phase i).stage
  held : ∀ i, holder (s.log.phase i) = some pid → s'.log.phase i = s.log.phase i
  fresh : ∀ i, holder (s'.log.phase i) = some pid → s'.log.phase i = s.log.phase i
  storage : ∀ i, holder (s.log.phase i) = some pid →
    s'.ring.storage (i % channel.capacity) = s.ring.storage (i % channel.capacity)
  delivered : ∀ x ∈ s'.log.delivered, x ∈ s.log.delivered ∨ s.log.phase x.1 ≠ .consumed
  kept : ∀ x ∈ s.log.delivered, x ∈ s'.log.delivered
  hasty : s'.hasty pid = s.hasty pid
  sent : s'.ring.sent pid = s.ring.sent pid
  last : s'.ring.last pid = s.ring.last pid

def slot_reliance (guarded : Prop) (channel : Channel) : Reliance Memory Nat :=
  ⟨Inv guarded channel, Rely guarded channel⟩

section

variable {guarded : Prop} {channel : Channel} {pid : Nat} {s s' : Memory}

theorem Rely.refl (guarded : Prop) (channel : Channel) (pid : Nat) (s : Memory) :
    Rely guarded channel pid s s where
  sender _ := .refl pid s
  count := le_rfl
  claimed := le_rfl
  message _ _ := rfl
  stage _ := le_rfl
  held _ _ := rfl
  fresh _ _ := rfl
  storage _ _ := rfl
  delivered _ h := .inl h
  kept _ h := h
  hasty := rfl
  sent := rfl
  last := rfl

/-- An item that a receiver has copied out stays so. -/
theorem Rely.consumed (h : Rely guarded channel pid s s') {i : Nat} (hi : s.log.phase i = .consumed) :
    s'.log.phase i = .consumed := by
  have hstage := h.stage i
  rw [hi] at hstage
  exact Phase.stage_consumed.mp hstage

theorem Rely.taken (h : Rely guarded channel pid s s') {i : Nat} (hi : (s.log.phase i).taken = true) :
    (s'.log.phase i).taken = true :=
  Phase.stage_taken.mp ((Phase.stage_taken.mpr hi).trans (h.stage i))

theorem Rely.trans {s₁ s₂ s₃ : Memory} (h : Rely guarded channel pid s₁ s₂)
    (h' : Rely guarded channel pid s₂ s₃) : Rely guarded channel pid s₁ s₃ where
  sender hguarded := (h.sender hguarded).trans (h'.sender hguarded)
  count := h.count.trans h'.count
  claimed := h.claimed.trans h'.claimed
  message i hi := (h'.message i (hi.trans_le h.count)).trans (h.message i hi)
  stage i := (h.stage i).trans (h'.stage i)
  held i hi := by
    have hmid := h.held i hi
    rw [← hmid] at hi
    exact (h'.held i hi).trans hmid
  fresh i hi := by
    have hlast := h'.fresh i hi
    rw [hlast] at hi
    exact hlast.trans (h.fresh i hi)
  storage i hi := by
    have hmid : holder (s₂.log.phase i) = some pid := by
      rw [h.held i hi]
      exact hi
    exact (h'.storage i hmid).trans (h.storage i hi)
  delivered x hx := by
    rcases h'.delivered x hx with hmid | hmid
    · exact h.delivered x hmid
    · exact .inr fun hconsumed => hmid (h.consumed hconsumed)
  kept x hx := h'.kept x (h.kept x hx)
  hasty := h'.hasty.trans h.hasty
  sent := h'.sent.trans h.sent
  last := h'.last.trans h.last

/-- Two positions less than a lap apart that share their slot. -/
theorem same_slot {capacity i j : Nat} (hij : i < j + capacity) (hji : j < i + capacity)
    (hslot : i % capacity = j % capacity) : i = j := by
  have hle {i j : Nat} (hle : i ≤ j) (hlt : j < i + capacity) (hslot : i % capacity = j % capacity) : i = j := by
    have hdvd : capacity ∣ j - i := (Nat.modEq_iff_dvd' hle).mp hslot
    have hzero := Nat.eq_zero_of_dvd_of_lt hdvd (by omega)
    omega
  rcases Nat.le_total i j with h | h
  · exact hle h hji hslot
  · exact (hle h hij hslot.symm).symm

/-- An item in the ring is one of the last lap. -/
theorem Ordered.live {capacity count claimed i : Nat} {phase : Nat → Phase}
    (h : Ordered capacity phase count claimed) (hvacant : phase i ≠ .vacant) (hconsumed : phase i ≠ .consumed) :
    i < count ∧ count ≤ i + capacity := by
  constructor
  · by_contra hge
    exact hvacant (h.vacant i (by omega))
  · by_contra hlt
    exact hconsumed (h.settled i (by omega))

theorem Ordered.live_of_holder {capacity count claimed i : Nat} {phase : Nat → Phase}
    (h : Ordered capacity phase count claimed) (hholder : holder (phase i) = some pid) :
    i < count ∧ count ≤ i + capacity := by
  apply h.live
  · intro hvacant
    rw [hvacant] at hholder
    cases hholder
  · intro hconsumed
    rw [hconsumed] at hholder
    cases hholder

end

end shmchan.channel
