import Shmchan.ByteChannel.Operations
import Shmchan.Endpoint.Phases
import Shmchan.Endpoint.Senders

open process shmchan.endpoint

namespace shmchan.byte_channel

/-- The three positions are those of the next record to reserve, to claim and
    to reclaim, and the records in between fit the ring. -/
structure Placed (capacity : Nat) (message : Nat → Bytes) (count claimed reclaimed : Nat)
    (write_position claim_position reclaim_position : Nat) : Prop where
  reclaimed_le : reclaimed ≤ claimed
  claimed_le : claimed ≤ count
  fits : ∀ i < count, (message i).length + 32 ≤ capacity
  write_position : write_position = offset message count
  claim_position : claim_position = offset message claimed
  reclaim_position : reclaim_position = offset message reclaimed
  room : offset message count ≤ offset message reclaimed + capacity
  total : offset message count < 2 ^ 64

/-- The phases in the order of the records: consumed or claimed, at most the
    next one claimed, published or reserved, and vacant. -/
structure Phased (phase : Nat → Phase) (count claimed reclaimed : Nat) : Prop where
  reclaimed : ∀ i < reclaimed, phase i = .consumed
  behind : ∀ i < claimed, phase i = .consumed ∨ ∃ pid, phase i = .claimed pid
  ahead : ∀ i, claimed ≤ i → phase i ≠ .consumed
  beyond : ∀ i pid, claimed < i → phase i ≠ .claimed pid
  occupied : ∀ i < count, phase i ≠ .vacant
  vacant : ∀ i, count ≤ i → phase i = .vacant

/-- A record whose sender has published it. -/
structure Body (capacity : Nat) (data : Nat → UInt8) (position : Nat) (message : Bytes) : Prop where
  total_size : load64 data (position % capacity + 8) = record_size message.length
  payload_size : load64 data (position % capacity + 16) = message.length
  bytes : ∀ k (hk : k < message.length), data ((position + 32 + k) % capacity) = message[k]

/-- What the state word of a record adds to its position. -/
def token_of : Phase → Option Nat
  | .published => some 1
  | .claimed _ => some 2
  | .consumed => some 3
  | _ => none

/-- The state word and the rest of a record in its phase. -/
structure Stored (capacity : Nat) (data : Nat → UInt8) (position : Nat) (message : Bytes)
    (phase : Phase) : Prop where
  token : ∀ t, token_of phase = some t → load64 data (position % capacity) = position + t
  body : ∀ t, token_of phase = some t → Body capacity data position message

/-- No byte at an index that is a multiple of 32 looks like the low byte of a
    publish token. -/
def Tame (message : Bytes) : Prop :=
  ∀ (k : Nat) (hk : k < message.length), k % 32 = 0 → message[k].toNat % 32 ≠ 1

/-- All messages so far are tame. -/
def AllTame (s : Memory) : Prop := ∀ i < s.log.count, Tame (s.log.message i)

/-- Only the state word of a published record looks like a publish token. -/
def Unmistakable (capacity : Nat) (data : Nat → UInt8) (message : Nat → Bytes) (phase : Nat → Phase) : Prop :=
  ∀ x < capacity, x % 32 = 0 → (data x).toNat % 32 = 1 →
    ∃ i, phase i = .published ∧ offset message i % capacity = x

/-- An access to bytes of the record with its index. -/
def Inside (capacity : Nat) (message : Nat → Bytes) (count : Nat) (a : Access) : Prop :=
  a.index < count ∧ ∃ j, j + a.length ≤ record_size (message a.index).length ∧
    ∀ k < a.length, a.first + k = (offset message a.index + j + k) % capacity

structure Inv (channel : ByteChannel) (s : Memory) : Prop where
  placed : Placed channel.capacity_bytes s.log.message s.log.count s.log.claimed s.ring.reclaimed
    s.ring.write_position s.ring.claim_position s.ring.reclaim_position
  phased : Phased s.log.phase s.log.count s.log.claimed s.ring.reclaimed
  stored : ∀ i, s.ring.reclaimed ≤ i → i < s.log.count →
    Stored channel.capacity_bytes s.ring.data (offset s.log.message i) (s.log.message i) (s.log.phase i)
  unmistakable : AllTame s →
    Unmistakable channel.capacity_bytes s.ring.data s.log.message s.log.phase
  honest : s.ring.forged = false
  locked : s.ring.reclaim_lock = if s.ring.locker.isSome then 1 else 0
  owed : s.ring.reclaimed < s.log.claimed → s.log.phase s.ring.reclaimed = .consumed →
    ∃ pid, s.ring.owes_scan pid = true
  receiving : ∀ pid, (s.ring.owes_scan pid = true ∨ ∃ i, s.log.phase i = .claimed pid) →
    s.receiving pid = true
  delivered : ∀ x ∈ s.log.delivered, s.log.phase x.1 = .consumed ∧ x.2 = s.log.message x.1
  once : (s.log.delivered.map Prod.fst).Nodup
  finishers : Finishers 4 s.log.phase s.ring.last
  claims : s.ring.claims = (List.range s.log.claimed).map (offset s.log.message)
  accesses : ∀ a ∈ s.ring.accesses, Inside channel.capacity_bytes s.log.message s.log.count a
  senders : Senders s.sender_state s.closings s.guards s.log.phase

/-- What a process may rely on from the others. -/
structure Rely (channel : ByteChannel) (pid : Nat) (s s' : Memory) : Prop
    extends SenderRely pid s s' where
  count : s.log.count ≤ s'.log.count
  claimed : s.log.claimed ≤ s'.log.claimed
  reclaimed : s.ring.reclaimed ≤ s'.ring.reclaimed
  message : ∀ i < s.log.count, s'.log.message i = s.log.message i
  held : ∀ i, holder (s.log.phase i) = some pid → s'.log.phase i = s.log.phase i
  fresh : ∀ i, holder (s'.log.phase i) = some pid → s'.log.phase i = s.log.phase i
  bytes : ∀ i < s.log.count, holder (s.log.phase i) = some pid →
    ∀ k < record_size (s.log.message i).length,
      s'.ring.data ((offset s.log.message i + k) % channel.capacity_bytes) =
        s.ring.data ((offset s.log.message i + k) % channel.capacity_bytes)
  consumed : ∀ i, s.log.phase i = .consumed → s'.log.phase i = .consumed
  taken : ∀ i, (s.log.phase i).taken = true → (s'.log.phase i).taken = true
  delivered : ∀ x ∈ s'.log.delivered, x ∈ s.log.delivered ∨ s.log.phase x.1 ≠ .consumed
  kept : ∀ x ∈ s.log.delivered, x ∈ s'.log.delivered
  head : s.log.phase s.log.claimed = .claimed pid → s'.log.claimed = s.log.claimed
  locker : s'.ring.locker = some pid ↔ s.ring.locker = some pid
  scanning : s.ring.locker = some pid → s'.ring.reclaimed = s.ring.reclaimed
  receiving : s'.receiving pid = s.receiving pid
  hasty : s'.hasty pid = s.hasty pid
  owes_scan : s'.ring.owes_scan pid = s.ring.owes_scan pid
  last : s'.ring.last pid = s.ring.last pid

def ring_reliance (channel : ByteChannel) : Reliance Memory Nat := ⟨Inv channel, Rely channel⟩

/-- Fewer than 2^64 bytes have been reserved, and no receiver has claimed a
    record that was not published, unless all messages are tame. -/
structure Sane (s : Memory) : Prop where
  total : offset s.log.message s.log.count < 2 ^ 64
  honest : AllTame s ∨ s.ring.forged = false

section

variable {channel : ByteChannel} {pid : Nat} {s s' : Memory}

theorem Rely.refl (channel : ByteChannel) (pid : Nat) (s : Memory) : Rely channel pid s s where
  count := le_rfl
  claimed := le_rfl
  reclaimed := le_rfl
  message _ _ := rfl
  held _ _ := rfl
  fresh _ _ := rfl
  bytes _ _ _ _ _ := rfl
  consumed _ h := h
  taken _ h := h
  delivered _ h := .inl h
  kept _ h := h
  head _ := rfl
  locker := Iff.rfl
  scanning _ := rfl
  receiving := rfl
  hasty := rfl
  owes_scan := rfl
  last := rfl
  toSenderRely := .refl pid s

/-- A record keeps its place. -/
theorem Rely.offset (h : Rely channel pid s s') {i : Nat} (hi : i ≤ s.log.count) :
    offset s'.log.message i = offset s.log.message i :=
  offset_congr fun j hj => h.message j (by omega)

theorem Rely.trans {s₁ s₂ s₃ : Memory} (h : Rely channel pid s₁ s₂) (h' : Rely channel pid s₂ s₃) :
    Rely channel pid s₁ s₃ where
  count := h.count.trans h'.count
  claimed := h.claimed.trans h'.claimed
  reclaimed := h.reclaimed.trans h'.reclaimed
  message i hi := (h'.message i (hi.trans_le h.count)).trans (h.message i hi)
  held i hi := by
    have hmid := h.held i hi
    rw [← hmid] at hi
    exact (h'.held i hi).trans hmid
  fresh i hi := by
    have hlast := h'.fresh i hi
    rw [hlast] at hi
    exact hlast.trans (h.fresh i hi)
  bytes i hi hholder k hk := by
    have hmid : holder (s₂.log.phase i) = some pid := by
      rw [h.held i hholder]
      exact hholder
    have hlast := h'.bytes i (hi.trans_le h.count) hmid k
    rw [h.message i hi, h.offset hi.le] at hlast
    exact (hlast hk).trans (h.bytes i hi hholder k hk)
  consumed i hi := h'.consumed i (h.consumed i hi)
  taken i hi := h'.taken i (h.taken i hi)
  delivered x hx := by
    rcases h'.delivered x hx with hmid | hmid
    · exact h.delivered x hmid
    · exact .inr fun hconsumed => hmid (h.consumed _ hconsumed)
  kept x hx := h'.kept x (h.kept x hx)
  head hhead := by
    have hmid := h.head hhead
    have hphase : s₂.log.phase s₂.log.claimed = .claimed pid := by
      rw [hmid, h.held _ (by rw [hhead]; rfl), hhead]
    exact (h'.head hphase).trans hmid
  locker := h'.locker.trans h.locker
  scanning hlocker := (h'.scanning (h.locker.mpr hlocker)).trans (h.scanning hlocker)
  receiving := h'.receiving.trans h.receiving
  hasty := h'.hasty.trans h.hasty
  owes_scan := h'.owes_scan.trans h.owes_scan
  last := h'.last.trans h.last
  toSenderRely := h.toSenderRely.trans h'.toSenderRely

theorem Placed.offset_le {capacity : Nat} {message : Nat → Bytes} {count claimed reclaimed wp cp rp : Nat}
    (h : Placed capacity message count claimed reclaimed wp cp rp) {i : Nat} (hi : i < count)
    (hsmall : capacity < 2 ^ 63) : offset message i + (message i).length + 32 < 2 ^ 64 := by
  have hfits := h.fits i hi
  have hnext : offset message (i + 1) ≤ offset message count := offset_mono hi
  have hsize := (record_size_spec (show (message i).length < 2 ^ 63 by omega)).1
  have htotal := h.total
  rw [offset] at hnext
  omega

/-- Positions are multiples of the record alignment. -/
theorem Placed.offset_aligned {capacity : Nat} {message : Nat → Bytes}
    {count claimed reclaimed wp cp rp : Nat}
    (h : Placed capacity message count claimed reclaimed wp cp rp) (hsmall : capacity < 2 ^ 63)
    {i : Nat} (hi : i ≤ count) : offset message i % 32 = 0 := by
  induction i with
  | zero => rfl
  | succ i ih =>
    have hfits := h.fits i (by omega)
    have hsize := (record_size_spec (show (message i).length < 2 ^ 63 by omega)).2.1
    have := ih (by omega)
    rw [offset]
    omega

/-- Two records that are not reclaimed share no byte of the ring. -/
theorem Placed.disjoint {capacity : Nat} {message : Nat → Bytes} {count claimed reclaimed wp cp rp : Nat}
    (h : Placed capacity message count claimed reclaimed wp cp rp) {i j k l : Nat}
    (hne : i ≠ j) (hi : reclaimed ≤ i) (hi' : i < count) (hj : reclaimed ≤ j) (hj' : j < count)
    (hk : k < record_size (message i).length) (hl : l < record_size (message j).length) :
    (offset message i + k) % capacity ≠ (offset message j + l) % capacity := by
  have hbounds {i : Nat} (hi : reclaimed ≤ i) (hi' : i < count) :
      offset message reclaimed ≤ offset message i ∧
        offset message i + record_size (message i).length ≤ offset message count :=
    ⟨offset_mono hi, offset_mono hi'⟩
  have horder {i j : Nat} (hij : i < j) :
      offset message i + record_size (message i).length ≤ offset message j := offset_mono hij
  have hroom := h.room
  have hbi := hbounds hi hi'
  have hbj := hbounds hj hj'
  have hne_mod {a b : Nat} (hab : a < b) (hb : b < a + capacity) : a % capacity ≠ b % capacity := by
    intro heq
    have hdvd : capacity ∣ b - a := (Nat.modEq_iff_dvd' hab.le).mp heq
    have := Nat.le_of_dvd (by omega) hdvd
    omega
  rcases Nat.lt_or_gt_of_ne hne with hij | hij
  · have := horder hij
    exact hne_mod (by omega) (by omega)
  · have := horder hij
    exact (hne_mod (by omega) (by omega)).symm

/-- The bytes of a record header do not wrap around the end of the ring. -/
theorem header_byte {capacity position field : Nat} (hposition : position % 32 = 0)
    (hcapacity : capacity % 32 = 0) (hpos : 0 < capacity) (hfield : field < 32) :
    position % capacity + field = (position + field) % capacity := by
  have halign : position % capacity % 32 = 0 := by
    rw [Nat.mod_mod_of_dvd _ (Nat.dvd_of_mod_eq_zero hcapacity)]
    exact hposition
  have hlt := Nat.mod_lt position hpos
  have hroom : position % capacity + field < capacity := by omega
  rw [Nat.add_mod, Nat.mod_eq_of_lt (show field < capacity by omega), Nat.mod_eq_of_lt hroom]

/-- The two copies of `copy_to_record` and `copy_from_record` go around the ring. -/
theorem payload_byte_eq {capacity position size k : Nat} (hfits : size + 32 ≤ capacity) (hk : k < size) :
    payload_byte capacity position size k = (position + 32 + k) % capacity := by
  have hpayload : (position + 32 + k) % capacity =
      ((position % capacity + 32) % capacity + k) % capacity := by
    rw [Nat.mod_add_mod, Nat.add_assoc, Nat.add_assoc, Nat.mod_add_mod]
  have hlt := Nat.mod_lt (position % capacity + 32) (show 0 < capacity by omega)
  rw [hpayload, payload_byte, sizeof_record_header]
  generalize (position % capacity + 32) % capacity = first at hlt
  split
  next hfirst =>
    rw [Nat.mod_eq_of_lt]
    omega
  next hfirst =>
    have hover : first + k = k - (capacity - first) + capacity := by omega
    rw [Nat.min_eq_right (by omega), hover, Nat.add_mod_right, Nat.mod_eq_of_lt (by omega)]

end

end shmchan.byte_channel
