import Shmchan.Endpoint.State

open process shmchan.endpoint

namespace shmchan.channel

def cache_line_size : Nat := 64

/-- `slots_offset_value`: the header takes eight cache lines. -/
def slots_offset : Nat := 8 * cache_line_size

/-- The size of a slot: its sequence word and the bytes of an element. -/
def slot_size (element_size : Nat) : Nat := align_up (8 + element_size) cache_line_size

def checked_mapping_size (element_size capacity : Nat) : Except Exception Nat :=
  if capacity = 0 then
    .error (.invalid_argument "shmchan: capacity must be greater than zero")
  else if capacity > 2 ^ 63 - 1 then
    .error (.length_error "shmchan: capacity is too large")
  else if capacity > (2 ^ 64 - 1 - slots_offset) / slot_size element_size then
    .error (.length_error "shmchan: shared-memory mapping size overflows size_t")
  else
    let size := slots_offset + capacity * slot_size element_size
    if size > 2 ^ 63 - 1 then
      .error (.length_error "shmchan: shared-memory mapping size overflows off_t")
    else
      .ok size

/-- A handle: the capacity that `create` has stored in the header, and the size
    of the elements. -/
structure Channel where
  capacity : Nat
  element_size : Nat
  accepted : ∃ size, checked_mapping_size element_size capacity = .ok size

/-- The bytes of an element. -/
abbrev Value (channel : Channel) : Type := { value : Bytes // value.length = channel.element_size }

/-- The slots of a `channel` with the positions. The fields after `storage` are
    history: which slot each process is writing to or reading from, which item
    each has sent and received last, and whether a try has given up at a slot
    that was not ready although one further on was. -/
structure SlotRing where
  enqueue_position : Nat := 0
  dequeue_position : Nat := 0
  sequence : Nat → Nat
  storage : Nat → Nat → UInt8 := fun _ _ => 0
  writing : Nat → Option Nat := fun _ => none
  reading : Nat → Option Nat := fun _ => none
  sent : Nat → Option Nat := fun _ => none
  last : Nat → Option Nat := fun _ => none
  passed_over : Bool := false

/-- The shared memory of a `channel`. -/
abbrev Memory : Type := Endpoint SlotRing Bytes

/-- The memory that `create` leaves behind: the slots hold their indices. -/
def created : Memory where
  ring := { sequence := id }
  log := { message := fun _ => [] }

/-- A change of the ring. -/
def set_ring (f : SlotRing → SlotRing) (s : Memory) : Memory := { s with ring := f s.ring }

/-- The item that was in the slot of a position before has been released. -/
def released (capacity : Nat) (phase : Nat → Phase) (position : Nat) : Bool :=
  decide (position < capacity) || decide (phase (position - capacity) = .consumed)

section

theorem checked_mapping_size_spec {element_size capacity size : Nat}
    (hok : checked_mapping_size element_size capacity = .ok size) : 0 < capacity ∧ capacity < 2 ^ 63 := by
  unfold checked_mapping_size at hok
  split at hok
  · cases hok
  next hpos =>
  split at hok
  · cases hok
  next hbounded => omega

theorem Channel.pos (channel : Channel) : 0 < channel.capacity := by
  obtain ⟨size, hok⟩ := channel.accepted
  exact (checked_mapping_size_spec hok).1

end

end shmchan.channel
