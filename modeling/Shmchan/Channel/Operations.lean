import Shmchan.Channel.Slots
import Shmchan.Endpoint.Operations
import Shmchan.Process.Within

open process shmchan.endpoint

namespace shmchan.channel

/-- The chances of one try: for each round of its loop whether a
    `compare_exchange_weak` fails spuriously, and the waiter that the kernel
    picks. -/
structure SlotChances where
  attempts : List Bool
  pick : Nat := 0
  deriving DecidableEq, Repr

/-- The `memcpy` into the storage of a slot, from byte `k` on. -/
def copy_to_slot (pid slot : Nat) : Bytes → Nat → Prog Memory Unit
  | [], _ => .ret ()
  | byte :: rest, k => do
    .store (set_ring fun r =>
      { r with
        storage := Function.update r.storage slot (Function.update (r.storage slot) k byte)
        writing := Function.update r.writing pid (some slot) })
    copy_to_slot pid slot rest (k + 1)

/-- The `memcpy` out of the storage of a slot: `count` bytes from byte `k` on. -/
def copy_from_slot (pid slot : Nat) : Nat → Nat → Prog Memory Bytes
  | 0, _ => .ret []
  | count + 1, k => do
    let byte ← .modifyGet (fun s => s.ring.storage slot k)
      (set_ring fun r => { r with reading := Function.update r.reading pid (some slot) })
    let rest ← copy_from_slot pid slot count (k + 1)
    return byte :: rest

/-- The exchange that claims the next position for a sender; `f` is what it
    does to the ring. -/
def reserve (pid : Nat) (value : Bytes) (f : SlotRing → SlotRing) (s : Memory) : Memory :=
  { s with
    writable := s.writable.set_retry pid .none
    ring := f s.ring
    log := { s.log with
      count := s.log.count + 1
      message := Function.update s.log.message s.log.count value
      phase := Function.update s.log.phase s.log.count (.reserved pid) } }

/-- The store to `sequence` that publishes an item. -/
def publish (pid index slot sequence : Nat) (s : Memory) : Memory :=
  { s with
    readable := s.readable.owe pid false
    log := { s.log with phase := Function.update s.log.phase index .published }
    ring := { s.ring with
      sequence := Function.update s.ring.sequence slot sequence
      writing := Function.update s.ring.writing pid none
      sent := Function.update s.ring.sent pid (some index) } }

/-- What `try_enqueue` does with the slot it has claimed. -/
def fill_slot (pid index slot sequence : Nat) (value : Bytes) (pick : Nat) : Prog Memory (Ended Bool) := do
  copy_to_slot pid slot value 0
  .store (publish pid index slot sequence)
  bump pid .readable
  wake_one pid .readable pick
  return .returned true

/-- History only: a try to send gives up. -/
def refuse (channel : Channel) (pid : Nat) (s : Memory) : Memory :=
  { s with
    writable := s.writable.set_retry pid .none
    ring := { s.ring with
      passed_over := s.ring.passed_over || decide (∃ k < channel.capacity,
        released channel.capacity s.log.phase (s.log.count + k) = true) } }

/-- The loop of `try_enqueue`. -/
def enqueue_loop (channel : Channel) (pid : Nat) (value : Bytes) (pick : Nat) :
    List Bool → Nat → Prog Memory (Ended Bool)
  | attempts, position => do
    let slot := position % channel.capacity
    let sequence ← .modifyGet (fun s => s.ring.sequence slot) fun s =>
      if to_int64 (sub64 (s.ring.sequence slot) position) < 0 then refuse channel pid s else s
    let difference := to_int64 (sub64 sequence position)
    if difference = 0 then
      match attempts with
      | [] => return .unfinished
      | spurious :: attempts =>
        .act (fun _ => true)
          (fun s =>
            if !spurious && s.ring.enqueue_position == position then
              reserve pid value (fun r => { r with enqueue_position := add64 position 1 }) s
            else s)
          fun s =>
            if !spurious && s.ring.enqueue_position == position then
              fill_slot pid s.log.count slot (add64 position 1) value pick
            else enqueue_loop channel pid value pick attempts s.ring.enqueue_position
    else if difference < 0 then
      return .returned false
    else
      match attempts with
      | [] => return .unfinished
      | _ :: attempts => do
        let position ← .load fun s => s.ring.enqueue_position
        enqueue_loop channel pid value pick attempts position

/-- `try_enqueue`. A single slot has its own states: empty, being written, full
    and being read. -/
def try_enqueue (channel : Channel) (pid : Nat) (value : Bytes) (chances : SlotChances) :
    Prog Memory (Ended Bool) :=
  if channel.capacity = 1 then
    .act (fun _ => true)
      (fun s =>
        if s.ring.sequence 0 == 0 then
          reserve pid value (fun r => { r with sequence := Function.update r.sequence 0 1 }) s
        else refuse channel pid s)
      fun s =>
        if s.ring.sequence 0 == 0 then fill_slot pid s.log.count 0 2 value chances.pick
        else .ret (.returned false)
  else do
    let position ← .load fun s => s.ring.enqueue_position
    enqueue_loop channel pid value chances.pick chances.attempts position

/-- The exchange that claims the next position for a receiver; `f` is what it
    does to the ring. -/
def claim (pid : Nat) (f : SlotRing → SlotRing) (s : Memory) : Memory :=
  { s with
    readable := s.readable.set_retry pid .none
    ring := f s.ring
    log := { s.log with
      claimed := s.log.claimed + 1
      phase := Function.update s.log.phase s.log.claimed (.claimed pid) } }

/-- The store to `sequence` that releases a slot. The history records the item
    that the receiver has copied out. -/
def release (pid index slot sequence : Nat) (value : Bytes) (s : Memory) : Memory :=
  { s with
    writable := s.writable.owe pid false
    log := { s.log with
      phase := Function.update s.log.phase index .consumed
      delivered := (index, value) :: s.log.delivered }
    ring := { s.ring with
      sequence := Function.update s.ring.sequence slot sequence
      reading := Function.update s.ring.reading pid none
      last := Function.update s.ring.last pid (some index) } }

/-- What `try_dequeue` does with the slot it has claimed. -/
def empty_slot (channel : Channel) (pid index slot sequence pick : Nat) :
    Prog Memory (Ended (Option Bytes)) := do
  let value ← copy_from_slot pid slot channel.element_size 0
  .store (release pid index slot sequence value)
  bump pid .writable
  wake_one pid .writable pick
  return .returned (some value)

/-- History only: a try to receive gives up, too early if a sender may still
    come. -/
def miss (pid : Nat) (s : Memory) : Memory :=
  { s with
    readable := s.readable.set_retry pid .none
    hasty := Function.update s.hasty pid (decide (s.sender_state ≠ channel_closed_bit))
    ring := { s.ring with
      passed_over := s.ring.passed_over || decide (∃ i < s.log.count, s.log.phase i = .published) } }

/-- The loop of `try_dequeue`. -/
def dequeue_loop (channel : Channel) (pid pick : Nat) :
    List Bool → Nat → Prog Memory (Ended (Option Bytes))
  | attempts, position => do
    let slot := position % channel.capacity
    let sequence ← .modifyGet (fun s => s.ring.sequence slot) fun s =>
      if to_int64 (sub64 (s.ring.sequence slot) (add64 position 1)) < 0 then miss pid s else s
    let difference := to_int64 (sub64 sequence (add64 position 1))
    if difference = 0 then
      match attempts with
      | [] => return .unfinished
      | spurious :: attempts =>
        .act (fun _ => true)
          (fun s =>
            if !spurious && s.ring.dequeue_position == position then
              claim pid (fun r => { r with dequeue_position := add64 position 1 }) s
            else s)
          fun s =>
            if !spurious && s.ring.dequeue_position == position then
              empty_slot channel pid s.log.claimed slot (add64 position channel.capacity) pick
            else dequeue_loop channel pid pick attempts s.ring.dequeue_position
    else if difference < 0 then
      return .returned none
    else
      match attempts with
      | [] => return .unfinished
      | _ :: attempts => do
        let position ← .load fun s => s.ring.dequeue_position
        dequeue_loop channel pid pick attempts position

def try_dequeue (channel : Channel) (pid : Nat) (chances : SlotChances) :
    Prog Memory (Ended (Option Bytes)) :=
  if channel.capacity = 1 then
    .act (fun _ => true)
      (fun s =>
        if s.ring.sequence 0 == 2 then
          claim pid (fun r => { r with sequence := Function.update r.sequence 0 3 }) s
        else miss pid s)
      fun s =>
        if s.ring.sequence 0 == 2 then empty_slot channel pid s.log.claimed 0 0 chances.pick
        else .ret (.returned none)
  else do
    let position ← .load fun s => s.ring.dequeue_position
    dequeue_loop channel pid chances.pick chances.attempts position

/-- The calls on a channel with all that chance decides in them. -/
inductive Call (channel : Channel) where
  | try_send (value : Value channel) (registration : List Bool) (chances : SlotChances)
  | send (value : Value channel) (timed : Bool) (registration : List Bool) (turns : List (SendTurn SlotChances))
  | try_receive (first second : SlotChances)
  | receive (timed : Bool) (turns : List (ReceiveTurn SlotChances))
  | close

/-- `try_send`, `send` and `send_for`, `try_receive`, `receive` and
    `receive_for`, and `close`. -/
def Call.run {channel : Channel} (pid : Nat) : Call channel → Prog Memory (Reply Bytes)
  | .try_send value registration chances => do
    let ended ← endpoint.try_send pid (try_enqueue channel pid value.1) registration chances
    return ended.reply .sent
  | .send value timed registration turns => do
    let ended ← send_impl pid (try_enqueue channel pid value.1) timed registration turns
    return ended.reply .sent
  | .try_receive first second => do
    let ended ← endpoint.try_receive (try_dequeue channel pid) first second
    return ended.reply .received
  | .receive timed turns => do
    let ended ← receive_impl pid (try_dequeue channel pid) timed turns
    return ended.reply .received
  | .close => do
    let first ← endpoint.close pid
    return .closing first

/-- Any process may begin any call when its last one has ended. Nobody dies. -/
def discipline (channel : Channel) : Discipline Memory (Reply Bytes) Nat where
  starts pid result program := result ≠ .unfinished ∧ ∃ call : Call channel, program = call.run pid
  onDeath _ s := s
  mayDie _ _ := False
  dead := .idle

/-- The new channel: no process has begun a call. -/
def new_channel : Config Memory (Reply Bytes) Nat := ⟨created, fun _ => .ret .idle⟩

/-- A process begins a call. -/
def begin_call {channel : Channel} (c : Config Memory (Reply Bytes) Nat) (pid : Nat) (call : Call channel) :
    Config Memory (Reply Bytes) Nat :=
  ⟨c.shared, Function.update c.procs pid (call.run pid)⟩

end shmchan.channel
