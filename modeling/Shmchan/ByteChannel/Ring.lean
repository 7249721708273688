import Shmchan.Endpoint.State

open process shmchan.endpoint

namespace shmchan.byte_channel

def record_alignment : Nat := 32

def sizeof_record_header : Nat := 32

def checked_capacity (capacity_bytes : Nat) : Except Exception Nat :=
  if capacity_bytes ≤ sizeof_record_header then
    .error (.invalid_argument "shmchan: byte channel capacity must be larger than the record header")
  else if capacity_bytes > 2 ^ 64 - 1 - (record_alignment - 1) then
    .error (.length_error "shmchan: byte channel capacity is too large")
  else
    let capacity_bytes := align_up capacity_bytes record_alignment
    if capacity_bytes > 2 ^ 63 - 1 then
      .error (.length_error "shmchan: byte channel capacity is too large")
    else
      .ok capacity_bytes

/-- A handle: the name of the object and the capacity that `create` has stored
    in its header. -/
structure ByteChannel where
  name : String
  capacity_bytes : Nat
  accepted : ∃ requested, checked_capacity requested = .ok capacity_bytes

def record_size (payload_size : Nat) : Nat :=
  align_up (sizeof_record_header + payload_size) record_alignment

def published_token (position : Nat) : Nat := add64 position 1

def claimed_token (position : Nat) : Nat := add64 position 2

def consumed_token (position : Nat) : Nat := add64 position 3

/-- The little-endian value of `count` bytes. -/
def load_bytes (data : Nat → UInt8) : Nat → Nat → Nat
  | _, 0 => 0
  | offset, count + 1 => (data offset).toNat + 256 * load_bytes data (offset + 1) count

def load64 (data : Nat → UInt8) (offset : Nat) : Nat := load_bytes data offset 8

/-- Stores the `count` low bytes of `value`. -/
def store_bytes (data : Nat → UInt8) : Nat → Nat → Nat → Nat → UInt8
  | _, _, 0 => data
  | offset, value, count + 1 =>
    Function.update (store_bytes data (offset + 1) (value / 256) count) offset (UInt8.ofNat value)

def store64 (data : Nat → UInt8) (offset value : Nat) : Nat → UInt8 := store_bytes data offset value 8

/-- History: `length` ring bytes from `first` on, read or written by the
    process that holds the record with the given index. -/
structure Access where
  index : Nat
  first : Nat
  length : Nat
  deriving DecidableEq, Repr

/-- The ring of a `byte_channel`. The fields after `data` are history: how many
    records are reclaimed, who holds the reclaim lock, which processes still
    have to scan for consumed records, which record each has finished
    last, the positions claimed in order, the accesses of the holders of
    records, whether a receiver has claimed a record that was not published, and
    for the fullness test which processes have met too little room in their
    current try, what size each has last tried to reserve, and whose last test
    has compared a reclaim position beyond the write position it held. -/
structure ByteRing where
  write_position : Nat := 0
  claim_position : Nat := 0
  reclaim_position : Nat := 0
  reclaim_lock : Nat := 0
  reclaim_waiters : List Nat := []
  data : Nat → UInt8 := fun _ => 0
  reclaimed : Nat := 0
  locker : Option Nat := none
  owes_scan : Nat → Bool := fun _ => false
  last : Nat → Option Nat := fun _ => none
  claims : List Nat := []
  accesses : List Access := []
  forged : Bool := false
  lacked : Nat → Bool := fun _ => false
  required : Nat → Nat := fun _ => 0
  outrun : Nat → Bool := fun _ => false

/-- The shared memory of a `byte_channel`. -/
abbrev Memory : Type := Endpoint ByteRing Bytes

/-- The memory that `create` leaves behind. -/
def created : Memory where
  ring := {}
  log := { message := fun _ => [] }

/-- History: the position of a record, by its index. -/
def offset (message : Nat → Bytes) : Nat → Nat
  | 0 => 0
  | index + 1 => offset message index + record_size (message index).length

/-- A change of the ring and its log. -/
def set_ring (f : ByteRing → ByteRing) (s : Memory) : Memory := { s with ring := f s.ring }

section

theorem align_up_record {value : Nat} (h : value + 32 ≤ 2 ^ 64) :
    align_up value record_alignment = (value + 31) / 32 * 32 :=
  align_up_two_pow (k := 5) (by norm_num) h

theorem checked_capacity_spec {requested capacity : Nat}
    (hok : checked_capacity requested = .ok capacity) :
    32 < capacity ∧ capacity % 32 = 0 ∧ capacity < 2 ^ 63 := by
  unfold checked_capacity at hok
  split at hok
  · cases hok
  next hlarger =>
  split at hok
  · cases hok
  next hbounded =>
  rw [sizeof_record_header] at hlarger
  rw [record_alignment] at hbounded
  rw [align_up_record (by omega)] at hok
  simp only at hok
  split at hok
  · cases hok
  next hmapping =>
  injection hok with hcapacity
  omega

theorem ByteChannel.larger (channel : ByteChannel) : 32 < channel.capacity_bytes := by
  obtain ⟨requested, hok⟩ := channel.accepted
  exact (checked_capacity_spec hok).1

theorem ByteChannel.aligned (channel : ByteChannel) : channel.capacity_bytes % 32 = 0 := by
  obtain ⟨requested, hok⟩ := channel.accepted
  exact (checked_capacity_spec hok).2.1

theorem ByteChannel.bounded (channel : ByteChannel) : channel.capacity_bytes < 2 ^ 63 := by
  obtain ⟨requested, hok⟩ := channel.accepted
  exact (checked_capacity_spec hok).2.2

theorem record_size_eq {size : Nat} (h : size < 2 ^ 63) :
    record_size size = (size + 63) / 32 * 32 := by
  rw [record_size, sizeof_record_header, align_up_record (by omega), show 32 + size + 31 = size + 63 by omega]

/-- A record holds its header and its payload, and ends on a record boundary. -/
theorem record_size_spec {size : Nat} (h : size < 2 ^ 63) :
    size + 32 ≤ record_size size ∧ record_size size % 32 = 0 ∧ record_size size < size + 64 := by
  rw [record_size_eq h]
  omega

theorem ByteChannel.record_size_le (channel : ByteChannel) {size : Nat}
    (h : size + 32 ≤ channel.capacity_bytes) : record_size size ≤ channel.capacity_bytes := by
  have haligned := channel.aligned
  have hbounded := channel.bounded
  rw [record_size_eq (by omega)]
  omega

theorem published_token_eq {position : Nat} (h : position + 1 < 2 ^ 64) :
    published_token position = position + 1 := add64_of_lt h

theorem claimed_token_eq {position : Nat} (h : position + 2 < 2 ^ 64) :
    claimed_token position = position + 2 := add64_of_lt h

theorem consumed_token_eq {position : Nat} (h : position + 3 < 2 ^ 64) :
    consumed_token position = position + 3 := add64_of_lt h

theorem load_bytes_congr {data data' : Nat → UInt8} {count : Nat} :
    ∀ {offset : Nat}, (∀ k < count, data (offset + k) = data' (offset + k)) →
      load_bytes data offset count = load_bytes data' offset count := by
  induction count with
  | zero => exact fun _ => rfl
  | succ count ih =>
    intro offset h
    have hrest : load_bytes data (offset + 1) count = load_bytes data' (offset + 1) count := by
      apply ih
      intro k hk
      have := h (k + 1) (by omega)
      rwa [show offset + (k + 1) = offset + 1 + k by omega] at this
    have hfirst := h 0 (by omega)
    rw [load_bytes, load_bytes, hrest, show data offset = data' offset from hfirst]

theorem load64_congr {data data' : Nat → UInt8} {offset : Nat}
    (h : ∀ k < 8, data (offset + k) = data' (offset + k)) : load64 data offset = load64 data' offset :=
  load_bytes_congr h

theorem store_bytes_of_lt {data : Nat → UInt8} {count : Nat} :
    ∀ {offset value x : Nat}, x < offset → store_bytes data offset value count x = data x := by
  induction count with
  | zero => exact fun _ => rfl
  | succ count ih =>
    intro offset value x hx
    rw [store_bytes, Function.update_of_ne (by omega)]
    exact ih (by omega)

theorem store_bytes_of_ge {data : Nat → UInt8} {count : Nat} :
    ∀ {offset value x : Nat}, offset + count ≤ x → store_bytes data offset value count x = data x := by
  induction count with
  | zero => exact fun _ => rfl
  | succ count ih =>
    intro offset value x hx
    rw [store_bytes, Function.update_of_ne (by omega)]
    exact ih (by omega)

theorem store64_of_disjoint {data : Nat → UInt8} {offset value x : Nat}
    (h : x < offset ∨ offset + 8 ≤ x) : store64 data offset value x = data x := by
  rcases h with h | h
  · exact store_bytes_of_lt h
  · exact store_bytes_of_ge h

theorem load_bytes_store_bytes {data : Nat → UInt8} {count : Nat} :
    ∀ {offset value : Nat}, load_bytes (store_bytes data offset value count) offset count =
      value % 256 ^ count := by
  induction count with
  | zero => intro offset value; rw [load_bytes, pow_zero, Nat.mod_one]
  | succ count ih =>
    intro offset value
    have hrest : load_bytes (store_bytes data offset value (count + 1)) (offset + 1) count =
        load_bytes (store_bytes data (offset + 1) (value / 256) count) (offset + 1) count := by
      apply load_bytes_congr
      intro k _
      rw [store_bytes, Function.update_of_ne (by omega)]
    have hsplit : value % 256 ^ (count + 1) = value % 256 + 256 * (value / 256 % 256 ^ count) := by
      rw [pow_succ', Nat.mod_mul]
    rw [load_bytes, hrest, ih, store_bytes, Function.update_self, UInt8.toNat_ofNat', hsplit]

theorem load64_store64 {data : Nat → UInt8} {offset value : Nat} (h : value < 2 ^ 64) :
    load64 (store64 data offset value) offset = value := by
  rw [load64, store64, load_bytes_store_bytes]
  exact Nat.mod_eq_of_lt h

/-- A store elsewhere does not change a word. -/
theorem load64_store64_of_disjoint {data : Nat → UInt8} {first second value : Nat}
    (h : second + 8 ≤ first ∨ first + 8 ≤ second) :
    load64 (store64 data first value) second = load64 data second := by
  apply load64_congr
  intro k hk
  apply store64_of_disjoint
  omega

theorem store64_first {data : Nat → UInt8} {offset value : Nat} :
    (store64 data offset value offset).toNat = value % 256 := by
  rw [store64, store_bytes, Function.update_self, UInt8.toNat_ofNat']

/-- The first byte of a word is its lowest. -/
theorem load64_first (data : Nat → UInt8) (offset : Nat) :
    load64 data offset % 256 = (data offset).toNat := by
  rw [load64, load_bytes, Nat.add_mul_mod_self_left]
  exact Nat.mod_eq_of_lt (data offset).toNat_lt

attribute [irreducible] load64 store64

theorem offset_congr {message message' : Nat → Bytes} {index : Nat}
    (h : ∀ i < index, message i = message' i) : offset message index = offset message' index := by
  induction index with
  | zero => rfl
  | succ index ih => rw [offset, offset, ih fun i hi => h i (by omega), h index (by omega)]

theorem offset_mono {message : Nat → Bytes} {i j : Nat} (h : i ≤ j) :
    offset message i ≤ offset message j := by
  induction h with
  | refl => exact le_rfl
  | step _ ih => exact ih.trans (Nat.le_add_right _ _)

end

end shmchan.byte_channel
