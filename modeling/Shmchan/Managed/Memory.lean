import Shmchan.Process.Prog
import Shmchan.Managed.Layout

namespace shmchan.managed

inductive ManagedChannelState where
  | initializing
  | healthy
  | closed
  | broken
  | destroying
  deriving DecidableEq, Repr

/-- The value stored in the `state` word of the header. -/
def ManagedChannelState.word : ManagedChannelState → Nat
  | initializing => 0
  | healthy => 1
  | closed => 2
  | broken => 3
  | destroying => 4

inductive BreakReason where
  | none
  | robust_mutex_not_recoverable
  | corrupt_data
  | sequence_exhausted
  deriving DecidableEq, Repr

/-- The value stored in the `reason` word of the header. -/
def BreakReason.word : BreakReason → Nat
  | none => 0
  | robust_mutex_not_recoverable => 1
  | corrupt_data => 2
  | sequence_exhausted => 3

inductive ManagedSlotState where
  | free
  | writing
  | ready
  deriving DecidableEq, Repr

/-- The value stored in the `state` word of a slot. -/
def ManagedSlotState.word : ManagedSlotState → Nat
  | free => 0
  | writing => 1
  | ready => 2

/-- One message descriptor. The words may hold anything, also no enumerator. -/
structure ManagedMessageSlot where
  state : Nat := 0
  payload_size : Nat := 0
  sequence : Nat := 0
  deriving DecidableEq, Repr

structure ManagedCounters where
  sent_messages : Nat := 0
  sent_bytes : Nat := 0
  received_messages : Nat := 0
  received_bytes : Nat := 0
  owner_death_recoveries : Nat := 0
  discarded_incomplete_writes : Nat := 0
  send_timeouts : Nat := 0
  receive_timeouts : Nat := 0
  waiting_senders : Nat := 0
  waiting_receivers : Nat := 0
  deriving DecidableEq, Repr

/-- The process-shared robust mutex: zero bytes before `pthread_mutex_init`,
    and afterwards unlocked, held by a live process, or abandoned by a dead one. -/
inductive RobustMutex where
  | raw
  | unlocked
  | held (pid : Nat)
  | owner_dead
  deriving DecidableEq, Repr

def RobustMutex.is_held : RobustMutex → Bool
  | held _ => true
  | _ => false

structure ManagedSharedHeader where
  magic : Nat := 0
  layout_version : Nat := 0
  header_size : Nat := 0
  mapping_size : Nat := 0
  protocol_id_value : Nat := 0
  protocol_version : Nat := 0
  message_capacity : Nat := 0
  max_message_size : Nat := 0
  slots_offset : Nat := 0
  payload_offset : Nat := 0
  payload_stride : Nat := 0
  slot_size : Nat := 0
  mutex_size : Nat := 0
  mutex_alignment : Nat := 0
  initialization : Nat := 0
  state : Nat := 0
  reason : Nat := 0
  event_epoch : Nat := 0
  mutex : RobustMutex := .raw
  next_sequence : Nat := 1
  next_slot_hint : Nat := 0
  free_slots : Nat := 0
  writing_messages : Nat := 0
  ready_messages : Nat := 0
  counters : ManagedCounters := {}
  deriving DecidableEq, Repr

/-- A message as the queue sees it: its sequence and its bytes. -/
abbrev Message := Nat × Bytes

/-- What a receiver found when it took the mutex. `inside` is set once its
    guard has returned, that is after any recovery. -/
structure Entry where
  slots : Nat → ManagedMessageSlot
  queue : List Message
  inside : Bool

/-- History variables: written together with the store they describe and
    never read by the code. `claimed` counts the sequence numbers handed out,
    `published` lists the messages whose READY store was executed, `taken`
    those whose slot a receiver set FREE, with the receiver. -/
structure History where
  claimed : Nat := 0
  published : List Message := []
  taken : List (Message × Nat) := []
  entry : Option Entry := none

/-- One mapped channel: the header, the descriptors, the payload area, the
    processes asleep on `event_epoch`, and the history variables. -/
structure Memory where
  header : ManagedSharedHeader
  slots : Nat → ManagedMessageSlot
  payloads : Nat → UInt8
  waiters : List Nat
  history : History

namespace Memory

/-- Offset of the first byte of `managed_mapping::payload(index)`. -/
def payload_base (m : Memory) (index : Nat) : Nat := index * m.header.payload_stride

/-- The first `size` bytes of a slot's payload area. -/
def payload_bytes (m : Memory) (index size : Nat) : Bytes :=
  (List.range size).map fun k => m.payloads (m.payload_base index + k)

def set_slot (m : Memory) (index : Nat) (f : ManagedMessageSlot → ManagedMessageSlot) : Memory :=
  { m with slots := Function.update m.slots index (f (m.slots index)) }

def set_header (m : Memory) (f : ManagedSharedHeader → ManagedSharedHeader) : Memory :=
  { m with header := f m.header }

def set_counters (m : Memory) (f : ManagedCounters → ManagedCounters) : Memory :=
  m.set_header fun h => { h with counters := f h.counters }

def set_history (m : Memory) (f : History → History) : Memory :=
  { m with history := f m.history }

section

variable (m : Memory) (index : Nat) (f : ManagedMessageSlot → ManagedMessageSlot)
  (g : ManagedSharedHeader → ManagedSharedHeader) (c : ManagedCounters → ManagedCounters)
  (h : History → History)

@[simp] theorem set_slot_header : (m.set_slot index f).header = m.header := by rfl
@[simp] theorem set_slot_payloads : (m.set_slot index f).payloads = m.payloads := by rfl
@[simp] theorem set_slot_history : (m.set_slot index f).history = m.history := by rfl
@[simp] theorem set_header_header : (m.set_header g).header = g m.header := by rfl
@[simp] theorem set_header_slots : (m.set_header g).slots = m.slots := by rfl
@[simp] theorem set_header_payloads : (m.set_header g).payloads = m.payloads := by rfl
@[simp] theorem set_header_history : (m.set_header g).history = m.history := by rfl
@[simp] theorem set_counters_header :
    (m.set_counters c).header = { m.header with counters := c m.header.counters } := by rfl
@[simp] theorem set_counters_slots : (m.set_counters c).slots = m.slots := by rfl
@[simp] theorem set_counters_payloads : (m.set_counters c).payloads = m.payloads := by rfl
@[simp] theorem set_counters_history : (m.set_counters c).history = m.history := by rfl
@[simp] theorem set_history_header : (m.set_history h).header = m.header := by rfl
@[simp] theorem set_history_slots : (m.set_history h).slots = m.slots := by rfl
@[simp] theorem set_history_payloads : (m.set_history h).payloads = m.payloads := by rfl
@[simp] theorem set_history_history : (m.set_history h).history = h m.history := by rfl

@[simp] theorem set_slot_slots_self : (m.set_slot index f).slots index = f (m.slots index) :=
  Function.update_self ..

@[simp] theorem set_slot_slots_of_ne {other : Nat} (hne : other ≠ index) :
    (m.set_slot index f).slots other = m.slots other :=
  Function.update_of_ne hne ..

end

/-- The message a slot would deliver. -/
def message (m : Memory) (index : Nat) : Message :=
  ((m.slots index).sequence, m.payload_bytes index (m.slots index).payload_size)

/-- Indices of the slots in a given state. -/
def slots_in (m : Memory) (state : ManagedSlotState) : List Nat :=
  (List.range m.header.message_capacity).filter fun i => (m.slots i).state = state.word

/-- The READY messages in sequence order. -/
def queue (m : Memory) : List Message :=
  ((m.slots_in .ready).map m.message).insertionSort fun a b => a.1 ≤ b.1

end Memory

end shmchan.managed
