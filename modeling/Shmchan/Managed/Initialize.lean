import Shmchan.Managed.Memory
import Shmchan.Managed.Layout

open process

namespace shmchan.managed

structure ProtocolDescriptor where
  id : Nat := 0
  version : Nat := 1
  deriving DecidableEq, Repr

/-- The 64-bit FNV-1a hash of a protocol name. -/
def protocol_id (name : String) : Nat :=
  name.toUTF8.toList.foldl (fun hash character => (hash ^^^ character.toNat) * 1099511628211 % 2 ^ 64)
    14695981039346656037

structure ManagedChannelOptions where
  message_capacity : Nat := 1024
  max_message_size : Nat := 4096
  protocol : ProtocolDescriptor := { id := protocol_id "shmchan.raw-bytes", version := 1 }
  deriving DecidableEq, Repr

def managed_simple_magic : Nat := 0x53484d4353494d50

def managed_simple_version : Nat := 1

def managed_initialization_ready : Nat := 1

/-- A mapping of zero bytes, as `ftruncate` leaves it. -/
def zeroed : Memory where
  header := { next_sequence := 0 }
  slots _ := {}
  payloads _ := 0
  waiters := []
  history := {}

/-- The header stores of `initialize_managed_mapping_locked`, up to the slots. -/
def initialize_header (options : ManagedChannelOptions) (layout : ManagedLayout) :
    List (Memory → Memory) :=
  [ fun m => m.set_header fun _ => {},
    fun m => m.set_header fun h => { h with magic := managed_simple_magic },
    fun m => m.set_header fun h => { h with layout_version := managed_simple_version },
    fun m => m.set_header fun h => { h with header_size := sizeof_managed_shared_header },
    fun m => m.set_header fun h => { h with mapping_size := layout.mapping_size },
    fun m => m.set_header fun h => { h with protocol_id_value := options.protocol.id },
    fun m => m.set_header fun h => { h with protocol_version := options.protocol.version },
    fun m => m.set_header fun h => { h with message_capacity := options.message_capacity },
    fun m => m.set_header fun h => { h with max_message_size := options.max_message_size },
    fun m => m.set_header fun h => { h with slots_offset := layout.slots_offset },
    fun m => m.set_header fun h => { h with payload_offset := layout.payload_offset },
    fun m => m.set_header fun h => { h with payload_stride := layout.payload_stride },
    fun m => m.set_header fun h => { h with slot_size := sizeof_managed_message_slot },
    fun m => m.set_header fun h => { h with mutex_size := sizeof_pthread_mutex },
    fun m => m.set_header fun h => { h with mutex_alignment := alignof_pthread_mutex },
    fun m => m.set_header fun h => { h with initialization := 0 },
    fun m => m.set_header fun h => { h with state := ManagedChannelState.initializing.word },
    fun m => m.set_header fun h => { h with reason := BreakReason.none.word },
    fun m => m.set_header fun h => { h with event_epoch := 0 },
    fun m => m.set_header fun h => { h with next_sequence := 1 },
    fun m => m.set_header fun h => { h with next_slot_hint := 0 },
    fun m => m.set_header fun h => { h with free_slots := options.message_capacity },
    fun m => m.set_header fun h => { h with writing_messages := 0 },
    fun m => m.set_header fun h => { h with ready_messages := 0 } ]

/-- `construct_at` on every slot. -/
def initialize_slots (capacity : Nat) : List (Memory → Memory) :=
  (List.range capacity).map fun index m => m.set_slot index fun _ => {}

/-- `pthread_mutex_init` and the last two stores. -/
def initialize_finish : List (Memory → Memory) :=
  [ fun m => m.set_header fun h => { h with mutex := .unlocked },
    fun m => m.set_header fun h => { h with state := ManagedChannelState.healthy.word },
    fun m => m.set_header fun h => { h with initialization := managed_initialization_ready } ]

/-- All stores of `initialize_managed_mapping_locked` to the mapping. -/
def initialize_stores (options : ManagedChannelOptions) (layout : ManagedLayout) :
    List (Memory → Memory) :=
  initialize_header options layout ++ initialize_slots options.message_capacity ++ initialize_finish

/-- The mapping that a completed initialisation leaves. -/
def initialized (options : ManagedChannelOptions) (layout : ManagedLayout) : Memory :=
  ((Prog.stores (initialize_stores options layout)).exec zeroed).2

theorem initialize_slots_foldl (capacity : Nat) {m : Memory} (hslots : ∀ i, m.slots i = {}) :
    (initialize_slots capacity).foldl (fun m store => store m) m = m := by
  have hkeep (index : Nat) : (m.set_slot index fun _ => {}) = m := by
    unfold Memory.set_slot
    congr 1
    rw [← hslots index, Function.update_eq_self]
  unfold initialize_slots
  rw [List.foldl_map]
  induction List.range capacity with
  | nil => rfl
  | cons index rest ih =>
    simp only [List.foldl_cons, hkeep]
    exact ih

/-- A fresh channel: every slot is FREE and the counts say so. -/
theorem initialized_eq (options : ManagedChannelOptions) (layout : ManagedLayout) :
    initialized options layout = { zeroed with
      header := {
        magic := managed_simple_magic, layout_version := managed_simple_version,
        header_size := sizeof_managed_shared_header, mapping_size := layout.mapping_size,
        protocol_id_value := options.protocol.id, protocol_version := options.protocol.version,
        message_capacity := options.message_capacity, max_message_size := options.max_message_size,
        slots_offset := layout.slots_offset, payload_offset := layout.payload_offset,
        payload_stride := layout.payload_stride, slot_size := sizeof_managed_message_slot,
        mutex_size := sizeof_pthread_mutex, mutex_alignment := alignof_pthread_mutex,
        initialization := managed_initialization_ready, state := ManagedChannelState.healthy.word,
        mutex := .unlocked, free_slots := options.message_capacity } } := by
  rw [initialized, Prog.exec_stores, initialize_stores, List.foldl_append, List.foldl_append,
    initialize_slots_foldl]
  · rfl
  · intro i
    rfl

end shmchan.managed
