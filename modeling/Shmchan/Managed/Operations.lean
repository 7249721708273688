import Shmchan.Managed.Recovery

open process

namespace shmchan.managed

inductive ManagedLockMode where
  | blocking
  | nonblocking
  | timed
  deriving DecidableEq, Repr

/-- What the clock and the allocator decide during one pass of an operation's
    loop: whether the deadline passes while the mutex is busy, whether the
    futex wait times out (its own deadline is the poll interval), whether the
    operation's deadline has then passed, and whether the receive buffer is
    refused. -/
structure Circumstances where
  lock_expires : Bool := false
  wait_expires : Bool := false
  deadline_passed : Bool := false
  alloc_fails : Bool := false
  deriving DecidableEq, Repr

inductive Op where
  | send (message : Bytes) (mode : ManagedLockMode)
  | receive (mode : ManagedLockMode)
  | close
  | stats
  | unlink
  deriving DecidableEq, Repr

structure ManagedChannelStats where
  state : Nat := 0
  reason : Nat := 0
  message_capacity : Nat := 0
  max_message_size : Nat := 0
  free_slots : Nat := 0
  writing_messages : Nat := 0
  ready_messages : Nat := 0
  counters : ManagedCounters := {}
  deriving DecidableEq, Repr

/-- How a pass of an operation ends. After `again` the loop starts over. -/
inductive Outcome where
  | idle
  | sent (status : ChannelStatus)
  | received (status : ChannelStatus) (payload : Option Bytes)
  | closed (first : Bool)
  | stats (snapshot : ManagedChannelStats)
  | unlinked
  | threw (error : Exception)
  | again (op : Op)
  | dead
  deriving DecidableEq, Repr

inductive LockResult where
  | acquired
  | owner_dead
  | busy
  deriving DecidableEq, Repr

def lock_result (m : Memory) : LockResult :=
  match m.header.mutex with
  | .held _ => .busy
  | .owner_dead => .owner_dead
  | _ => .acquired

/-- The mutex becomes `pid`'s; a receiver's entry is noted. -/
def take_mutex (pid : Nat) (receiving : Bool) (m : Memory) : Memory :=
  { m.set_header fun h => { h with mutex := .held pid } with
    history.entry := if receiving then some ⟨m.slots, m.queue, false⟩ else none }

/-- `pthread_mutex_lock`: waits while another process holds the mutex. -/
def pthread_mutex_lock (pid : Nat) (receiving : Bool) : Prog Memory LockResult :=
  .act (fun m => !m.header.mutex.is_held) (take_mutex pid receiving) fun m => .ret (lock_result m)

def pthread_mutex_trylock (pid : Nat) (receiving : Bool) : Prog Memory LockResult :=
  .modifyGet lock_result fun m =>
    if m.header.mutex.is_held then m else take_mutex pid receiving m

/-- The mutex becomes free, and the entry of its holder is forgotten. -/
def release_mutex (m : Memory) : Memory :=
  { m.set_header fun h => { h with mutex := .unlocked } with history.entry := none }

/-- `managed_mutex_guard::unlock`, also run by the destructor: `owns_` says
    that the mutex is held by this process. -/
def guard_unlock (pid : Nat) : Prog Memory Unit :=
  .store fun m => if m.header.mutex = .held pid then release_mutex m else m

/-- The call on the mutex that ends the loop of the guard's constructor: a
    timed guard polls until the mutex is free or, at the deadline, still busy. -/
def acquire_mutex (pid : Nat) (mode : ManagedLockMode) (lock_expires receiving : Bool) :
    Prog Memory LockResult :=
  match mode with
  | .blocking => pthread_mutex_lock pid receiving
  | .nonblocking => pthread_mutex_trylock pid receiving
  | .timed =>
    if lock_expires then pthread_mutex_trylock pid receiving else pthread_mutex_lock pid receiving

/-- The constructor of `managed_mutex_guard`, returning `status()`. The branches
    that are left out cannot be reached: `pthread_mutex_consistent` only fails on
    a mutex that is not robust or not inconsistent, and it is called on a robust
    one that has just been acquired as EOWNERDEAD; since it succeeds, nobody
    unlocks an inconsistent mutex, and only that makes a mutex ENOTRECOVERABLE;
    the other errors of a lock need a mutex that is not initialised or a lock by
    its owner, while a handle is a handle of an initialised channel and a thread
    is in one guard at a time. -/
def managed_mutex_guard (pid : Nat) (mode : ManagedLockMode) (lock_expires receiving : Bool) :
    Prog Memory ChannelStatus := do
  match ← acquire_mutex pid mode lock_expires receiving with
  | .acquired => pure .success
  | .owner_dead =>
    if ← recover_managed_slots then pure .success else pure .broken
  | .busy => pure (if mode = .nonblocking then .would_block else .timed_out)

def operation_state_of (m : Memory) : ChannelStatus :=
  if m.header.state = ManagedChannelState.healthy.word then .success
  else if m.header.state = ManagedChannelState.closed.word then .closed
  else .broken

def operation_state : Prog Memory ChannelStatus := .load operation_state_of

/-- The circular scan for a FREE slot: `offset` runs up to the capacity. -/
def find_free_slot (capacity start : Nat) : Nat → Nat → Prog Memory (Option Nat)
  | 0, _ => pure none
  | todo + 1, offset => do
    let index := (start + offset) % capacity
    let state ← .load fun m => (m.slots index).state
    if state = ManagedSlotState.free.word then pure (some index)
    else find_free_slot capacity start todo (offset + 1)

/-- `memcpy` of a message into a payload area, one byte at a time. -/
def copy_payload (index : Nat) : Nat → Bytes → Prog Memory Unit
  | _, [] => pure ()
  | offset, byte :: rest => do
    .store fun m =>
      { m with payloads := Function.update m.payloads (m.payload_base index + offset) byte }
    copy_payload index (offset + 1) rest

/-- How a critical section is left: by returning a status, after a
    publication, or to wait for an event. -/
inductive SendExit where
  | leave (status : ChannelStatus)
  | published
  | wait (epoch : Nat)
  deriving DecidableEq, Repr

/-- The stores of `send_impl` from the WRITING store up to the copy, with the
    sequence that was handed out. -/
def reserve_slot (selected : Nat) : Prog Memory Nat := do
  .store fun m => m.set_slot selected fun slot => { slot with state := ManagedSlotState.writing.word }
  .store fun m => m.set_header fun h => { h with free_slots := sub64 h.free_slots 1 }
  .store fun m => m.set_header fun h => { h with writing_messages := add64 h.writing_messages 1 }
  .store fun m => m.set_slot selected fun slot => { slot with payload_size := 0 }
  -- `slot.sequence = header.next_sequence++`: the increment is stored first
  let sequence ← .modifyGet (fun m => m.header.next_sequence) fun m =>
    (m.set_header fun h => { h with next_sequence := add64 h.next_sequence 1 }).set_history
      fun history => { history with claimed := history.claimed + 1 }
  .store fun m => m.set_slot selected fun slot => { slot with sequence := sequence }
  return sequence

/-- The stores of `send_impl` after the READY store. -/
def count_published (selected capacity size : Nat) : Prog Memory Unit := do
  .store fun m => m.set_header fun h => { h with writing_messages := sub64 h.writing_messages 1 }
  .store fun m => m.set_header fun h => { h with ready_messages := add64 h.ready_messages 1 }
  .store fun m => m.set_header fun h => { h with next_slot_hint := (selected + 1) % capacity }
  .store fun m => m.set_counters fun c => { c with sent_messages := add64 c.sent_messages 1 }
  .store fun m => m.set_counters fun c => { c with sent_bytes := add64 c.sent_bytes size }

/-- The stores of `send_impl` from the WRITING store on. -/
def publish_message (selected capacity : Nat) (message : Bytes) : Prog Memory Unit := do
  let sequence ← reserve_slot selected
  copy_payload selected 0 message
  .store fun m => m.set_slot selected fun slot => { slot with payload_size := message.length % 2 ^ 32 }
  .store fun m =>
    (m.set_slot selected fun slot => { slot with state := ManagedSlotState.ready.word }).set_history
      fun history => { history with published := history.published ++ [(sequence, message)] }
  count_published selected capacity message.length

/-- `send_impl` between the successful lock and the unlock. -/
def send_critical (message : Bytes) (mode : ManagedLockMode) : Prog Memory SendExit := do
  let locked_state ← operation_state
  if locked_state ≠ .success then return .leave locked_state
  if !(← validate_managed_slots) then return .leave .broken
  if (← .load fun m => m.header.free_slots) ≠ 0 then
    if (← .load fun m => m.header.next_sequence) = 2 ^ 64 - 1 then
      mark_managed_broken .sequence_exhausted
      return .leave .broken
    let capacity ← .load fun m => m.header.message_capacity
    let start ← .load fun m => m.header.next_slot_hint % capacity
    match ← find_free_slot capacity start capacity 0 with
    | none =>
      mark_managed_broken .corrupt_data
      return .leave .broken
    | some selected =>
      publish_message selected capacity message
      return .published
  if mode = .nonblocking then return .leave .would_block
  let epoch ← .load fun m => m.header.event_epoch
  return .wait epoch

/-- `futex_wait_until(event_epoch, epoch, poll_deadline)`: the comparison and
    the enqueueing are one action; the call returns when a wake removed the
    process or, if `expires`, at any moment. The result says whether it timed
    out. -/
def futex_wait_until (pid epoch : Nat) (expires : Bool) : Prog Memory Bool := do
  let asleep ← .modifyGet (fun m => decide (m.header.event_epoch = epoch)) fun m =>
    if m.header.event_epoch = epoch then { m with waiters := pid :: m.waiters } else m
  if asleep then
    .act (fun m => expires || !m.waiters.contains pid)
      (fun m => { m with waiters := m.waiters.filter (· ≠ pid) }) fun _ => .ret expires
  else
    return expires

/-- The wait of `send_impl` and `receive_impl` between two increments of a
    waiter count, which `waiting` selects. -/
def wait_for_event (pid epoch : Nat) (expires : Bool)
    (waiting : (Nat → Nat) → ManagedCounters → ManagedCounters) : Prog Memory Bool := do
  .store fun m => m.set_counters (waiting fun count => (count + 1) % 2 ^ 32)
  let expired ← futex_wait_until pid epoch expires
  .store fun m => m.set_counters (waiting fun count => (2 ^ 32 - 1 + count) % 2 ^ 32)
  return expired

def count_send_timeout : Prog Memory Unit :=
  .store fun m => m.set_counters fun c => { c with send_timeouts := add64 c.send_timeouts 1 }

/-- One pass of the loop of `send_impl`, the size check included. -/
def send_impl (pid : Nat) (message : Bytes) (mode : ManagedLockMode) (c : Circumstances) :
    Prog Memory Outcome := do
  let max_message_size ← .load fun m => m.header.max_message_size
  if message.length > max_message_size then return .sent .message_too_large
  let before_lock ← operation_state
  if before_lock ≠ .success then return .sent before_lock
  let status ← managed_mutex_guard pid mode c.lock_expires false
  if status ≠ .success then
    (if status = .timed_out then count_send_timeout else pure ())
    guard_unlock pid
    return .sent status
  let exit ← send_critical message mode
  guard_unlock pid
  match exit with
  | .leave status => return .sent status
  | .published =>
    signal_managed_event
    let after ← operation_state
    return .sent (if after = .broken then .broken else .success)
  | .wait epoch =>
    let expired ← wait_for_event pid epoch c.wait_expires fun f c =>
      { c with waiting_senders := f c.waiting_senders }
    if expired && mode = .timed && c.deadline_passed then
      count_send_timeout
      return .sent .timed_out
    return .again (.send message mode)

/-- The scan for the READY slot with the least sequence: the loop keeps
    `selected`, initially the capacity, and `selected_sequence`. -/
def find_first_ready : Nat → Nat → Nat → Nat → Prog Memory Nat
  | 0, _, selected, _ => pure selected
  | todo + 1, index, selected, selected_sequence => do
    let slot ← .load fun m => m.slots index
    if slot.state = ManagedSlotState.ready.word ∧ slot.sequence < selected_sequence then
      find_first_ready todo (index + 1) index slot.sequence
    else
      find_first_ready todo (index + 1) selected selected_sequence

inductive ReceiveExit where
  | leave (status : ChannelStatus)
  | took (payload : Bytes)
  | threw
  | wait (epoch : Nat)
  deriving DecidableEq, Repr

/-- The stores of `receive_impl` after the private copy is complete. -/
def release_slot (pid selected : Nat) (message : Message) : Prog Memory Unit := do
  reset_managed_slot selected fun m => m.set_history fun history =>
    { history with taken := history.taken ++ [(message, pid)] }
  .store fun m => m.set_header fun h => { h with ready_messages := sub64 h.ready_messages 1 }
  .store fun m => m.set_header fun h => { h with free_slots := add64 h.free_slots 1 }
  .store fun m => m.set_counters fun c => { c with received_messages := add64 c.received_messages 1 }
  .store fun m => m.set_counters fun c =>
    { c with received_bytes := add64 c.received_bytes message.2.length }

/-- History only: the constructor of the receiver's guard has returned. -/
def mark_inside (m : Memory) : Memory :=
  m.set_history fun history =>
    { history with entry := history.entry.map fun entry => { entry with inside := true } }

/-- `receive_impl` between the successful lock and the unlock. -/
def receive_critical (pid : Nat) (mode : ManagedLockMode) (alloc_fails : Bool) :
    Prog Memory ReceiveExit := do
  .store mark_inside
  if !(← validate_managed_slots) then return .leave .broken
  let capacity ← .load fun m => m.header.message_capacity
  let selected ← find_first_ready capacity 0 capacity (2 ^ 64 - 1)
  if selected ≠ capacity then
    let corrupt ← .load fun m => ready_slot_is_corrupt m selected || m.header.ready_messages == 0
    if corrupt then
      mark_managed_broken .corrupt_data
      return .leave .broken
    if alloc_fails then return .threw
    let message ← .load fun m => m.message selected
    release_slot pid selected message
    return .took message.2
  let locked_state ← operation_state
  if locked_state = .closed then return .leave .closed
  if locked_state = .broken then return .leave .broken
  if mode = .nonblocking then return .leave .would_block
  let epoch ← .load fun m => m.header.event_epoch
  return .wait epoch

def count_receive_timeout : Prog Memory Unit :=
  .store fun m => m.set_counters fun c => { c with receive_timeouts := add64 c.receive_timeouts 1 }

/-- One pass of the loop of `receive_impl`. -/
def receive_impl (pid : Nat) (mode : ManagedLockMode) (c : Circumstances) : Prog Memory Outcome := do
  let before_lock ← operation_state
  if before_lock = .broken then return .received before_lock none
  let status ← managed_mutex_guard pid mode c.lock_expires true
  if status ≠ .success then
    (if status = .timed_out then count_receive_timeout else pure ())
    guard_unlock pid
    return .received status none
  let exit ← receive_critical pid mode c.alloc_fails
  guard_unlock pid
  match exit with
  | .leave status => return .received status none
  | .threw => return .threw .bad_alloc
  | .took payload =>
    signal_managed_event
    return .received .success (some payload)
  | .wait epoch =>
    let expired ← wait_for_event pid epoch c.wait_expires fun f c =>
      { c with waiting_receivers := f c.waiting_receivers }
    if expired && mode = .timed && c.deadline_passed then
      count_receive_timeout
      return .received .timed_out none
    return .again (.receive mode)

/-- `close` between the successful lock and the unlock. -/
def close_critical : Prog Memory Bool := do
  let current ← .load fun m => m.header.state
  if current ≠ ManagedChannelState.healthy.word then return false
  .store fun m => m.set_header fun h => { h with state := ManagedChannelState.closed.word }
  return true

def close (pid : Nat) : Prog Memory Outcome := do
  let status ← managed_mutex_guard pid .blocking false false
  if status ≠ .success then
    guard_unlock pid
    return .closed false
  let stored ← close_critical
  guard_unlock pid
  if stored then
    signal_managed_event
    return .closed true
  return .closed false

def stats (pid : Nat) : Prog Memory Outcome := do
  let header ← .load fun m => m.header
  let result : ManagedChannelStats :=
    { state := header.state, reason := header.reason,
      message_capacity := header.message_capacity, max_message_size := header.max_message_size }
  let status ← managed_mutex_guard pid .blocking false false
  if status = .success then
    let header ← .load fun m => m.header
    guard_unlock pid
    return .stats { result with
      free_slots := header.free_slots, writing_messages := header.writing_messages,
      ready_messages := header.ready_messages, counters := header.counters }
  else
    let header ← .load fun m => m.header
    guard_unlock pid
    return .stats { result with counters := header.counters }

/-- What `unlink` does to the mapping of an initialised channel. -/
def unlink_mapping : Prog Memory Outcome := do
  .store fun m => m.set_header fun h => { h with state := ManagedChannelState.destroying.word }
  signal_managed_event
  return .unlinked

/-- One pass of an operation. -/
def attempt (pid : Nat) (op : Op) (c : Circumstances) : Prog Memory Outcome :=
  match op with
  | .send message mode => send_impl pid message mode c
  | .receive mode => receive_impl pid mode c
  | .close => close pid
  | .stats => stats pid
  | .unlink => unlink_mapping

end shmchan.managed
