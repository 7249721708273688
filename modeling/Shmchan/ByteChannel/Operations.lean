import Shmchan.ByteChannel.Ring
import Shmchan.Endpoint.Operations
import Shmchan.Process.Within

open process shmchan.endpoint

namespace shmchan.byte_channel

/-- The chances of one `try_enqueue`: which of its `compare_exchange_weak` fail
    spuriously, and the waiter that the kernel picks. -/
structure EnqueueChances where
  attempts : List Bool
  pick : Nat := 0
  deriving DecidableEq, Repr

/-- One round for the reclaim lock: a spurious failure, and what ends the wait. -/
structure LockTurn where
  spurious : Bool := false
  outcome : WaitOutcome := .woken
  deriving DecidableEq, Repr

/-- The chances of one `try_dequeue`: the picks of the kernel, the rounds for
    the reclaim lock, the `compare_exchange_weak` of the scan, and whether the
    buffer is refused. -/
structure DequeueChances where
  pick : Nat := 0
  lock : List LockTurn
  unlock_pick : Nat := 0
  scans : List Bool
  alloc_fails : Bool := false
  deriving DecidableEq, Repr

/-- The ring byte of payload byte `k` of a record: `copy_to_record` and
    `copy_from_record` copy up to the end of the ring and then from its start. -/
def payload_byte (capacity_bytes position size k : Nat) : Nat :=
  let record_offset := position % capacity_bytes
  let payload_offset := (record_offset + sizeof_record_header) % capacity_bytes
  let first_size := min size (capacity_bytes - payload_offset)
  if k < first_size then payload_offset + k else k - first_size

/-- A word of a record header, which its holder stores. -/
def store_word (channel : ByteChannel) (index position field value : Nat) : Prog Memory Unit :=
  .store (set_ring fun r =>
    { r with
      data := store64 r.data (position % channel.capacity_bytes + field) value
      accesses := ⟨index, position % channel.capacity_bytes + field, 8⟩ :: r.accesses })

/-- A word of a record header, which its holder loads. -/
def load_word (channel : ByteChannel) (index position field : Nat) : Prog Memory Nat :=
  .modifyGet (fun s => load64 s.ring.data (position % channel.capacity_bytes + field))
    (set_ring fun r =>
      { r with accesses := ⟨index, position % channel.capacity_bytes + field, 8⟩ :: r.accesses })

/-- `copy_to_record`, from payload byte `k` on. -/
def copy_to_record (channel : ByteChannel) (index position size : Nat) :
    Bytes → Nat → Prog Memory Unit
  | [], _ => .ret ()
  | byte :: rest, k => do
    let target := payload_byte channel.capacity_bytes position size k
    .store (set_ring fun r =>
      { r with data := Function.update r.data target byte, accesses := ⟨index, target, 1⟩ :: r.accesses })
    copy_to_record channel index position size rest (k + 1)

/-- `copy_from_record`: `count` bytes from payload byte `k` on. -/
def copy_from_record (channel : ByteChannel) (index position size : Nat) :
    Nat → Nat → Prog Memory Bytes
  | 0, _ => .ret []
  | count + 1, k => do
    let source := payload_byte channel.capacity_bytes position size k
    let byte ← .modifyGet (fun s => s.ring.data source)
      (set_ring fun r => { r with accesses := ⟨index, source, 1⟩ :: r.accesses })
    let rest ← copy_from_record channel index position size count (k + 1)
    return byte :: rest

/-- The store of `published_token`. -/
def publish (channel : ByteChannel) (pid index position : Nat) (s : Memory) : Memory :=
  { s with
    readable := s.readable.owe pid false
    log := { s.log with phase := Function.update s.log.phase index .published }
    ring := { s.ring with
      data := store64 s.ring.data (position % channel.capacity_bytes) (published_token position)
      accesses := ⟨index, position % channel.capacity_bytes, 8⟩ :: s.ring.accesses } }

/-- What `try_enqueue` does with the record it has reserved. -/
def fill_record (channel : ByteChannel) (pid index position : Nat) (message : Bytes) (pick : Nat) :
    Prog Memory Unit := do
  store_word channel index position 8 (record_size message.length)
  store_word channel index position 16 message.length
  store_word channel index position 24 0
  copy_to_record channel index position message.length message 0
  .store (publish channel pid index position)
  bump pid .readable
  wake_one pid .readable pick

/-- The free space of the ring. -/
def free_space (channel : ByteChannel) (s : Memory) : Nat :=
  channel.capacity_bytes - (s.ring.write_position - s.ring.reclaim_position)

/-- History only: at the load of `reclaim_position`, whether there is too
    little room, and whether the position held has been outrun. -/
def note_room (channel : ByteChannel) (pid position required : Nat) : Memory → Memory := fun s =>
  set_ring (fun r =>
    { r with
      lacked := Function.update r.lacked pid
        (r.lacked pid || decide (free_space channel s < required))
      outrun := Function.update r.outrun pid (decide (position < r.reclaim_position)) }) s

/-- The exchange of `write_position`. -/
def reserve (pid position : Nat) (message : Bytes) (s : Memory) : Memory :=
  { s with
    ring := { s.ring with write_position := add64 position (record_size message.length) }
    log := { s.log with
      count := s.log.count + 1
      message := Function.update s.log.message s.log.count message
      phase := Function.update s.log.phase s.log.count (.reserved pid) } }

/-- The loop of `try_enqueue`. -/
def enqueue_loop (channel : ByteChannel) (pid : Nat) (message : Bytes) (pick : Nat) :
    List Bool → Nat → Prog Memory (Ended Bool)
  | attempts, position => do
    let required := record_size message.length
    let reclaimed ← .modifyGet (fun s => s.ring.reclaim_position) (note_room channel pid position required)
    let used := sub64 position reclaimed
    if used > channel.capacity_bytes ∨ required > channel.capacity_bytes - used then
      return .returned false
    match attempts with
    | [] => return .unfinished
    | spurious :: attempts =>
      .act (fun _ => true)
        (fun s => if !spurious && s.ring.write_position == position then reserve pid position message s else s)
        fun s =>
          if !spurious && s.ring.write_position == position then do
            fill_record channel pid s.log.count position message pick
            return .returned true
          else enqueue_loop channel pid message pick attempts s.ring.write_position

/-- History only: a try to send begins. -/
def begin_enqueue (pid required : Nat) (s : Memory) : Memory :=
  { s with
    writable := s.writable.set_retry pid .none
    ring := { s.ring with
      lacked := Function.update s.ring.lacked pid false
      required := Function.update s.ring.required pid required } }

def try_enqueue (channel : ByteChannel) (pid : Nat) (message : Bytes) (chances : EnqueueChances) :
    Prog Memory (Ended Bool) := do
  let position ← .modifyGet (fun s => s.ring.write_position) (begin_enqueue pid (record_size message.length))
  enqueue_loop channel pid message chances.pick chances.attempts position

/-- The spinning of `reclaim_lock_guard` on the lock word. -/
def spin_reclaim_lock : Nat → Prog Memory Unit
  | 0 => .ret ()
  | spin + 1 => do
    if (← .load fun s => s.ring.reclaim_lock) = 0 then return ()
    spin_reclaim_lock spin

/-- The `FUTEX_WAIT` of `reclaim_lock_guard`, whose result is ignored. -/
def wait_reclaim_lock (pid : Nat) (outcome : WaitOutcome) : Prog Memory Unit := do
  if outcome = .refused then return ()
  let asleep ← .modifyGet (fun s => decide (s.ring.reclaim_lock = 1))
    (set_ring fun r =>
      if r.reclaim_lock = 1 then { r with reclaim_waiters := pid :: r.reclaim_waiters } else r)
  if asleep then
    .act (fun s => decide (outcome ≠ .woken) || !s.ring.reclaim_waiters.contains pid)
      (set_ring fun r => { r with reclaim_waiters := r.reclaim_waiters.erase pid }) fun _ => .ret ()

/-- The constructor of `reclaim_lock_guard`; `false` when its chances are used up. -/
def reclaim_lock_guard (pid : Nat) : List LockTurn → Prog Memory Bool
  | [] => .ret false
  | turn :: turns =>
    .act (fun _ => true)
      (fun s =>
        if !turn.spurious && s.ring.reclaim_lock == 0 then
          set_ring (fun r => { r with reclaim_lock := 1, locker := some pid }) s
        else s)
      fun s =>
        if !turn.spurious && s.ring.reclaim_lock == 0 then .ret true
        else do
          spin_reclaim_lock 32
          if (← .load fun s => s.ring.reclaim_lock) ≠ 0 then wait_reclaim_lock pid turn.outcome
          reclaim_lock_guard pid turns

/-- The destructor of `reclaim_lock_guard`. -/
def leave_reclaim_lock (pid pick : Nat) : Prog Memory Unit := do
  .store (set_ring fun r => { r with reclaim_lock := 0, locker := none })
  .store fun s =>
    (set_ring (fun r =>
      { r with reclaim_waiters := r.reclaim_waiters.eraseIdx (pick % r.reclaim_waiters.length) }) s).end_try pid

/-- The exchange of `reclaim_position`, which makes room. -/
def reclaim (pid position total_size : Nat) (s : Memory) : Memory :=
  { s with
    writable := s.writable.owe pid true
    ring := { s.ring with
      reclaim_position := add64 position total_size
      reclaimed := s.ring.reclaimed + 1 } }

/-- History only: the scan ends when it has met no consumed record. -/
def end_scan (pid : Nat) (ended : Memory → Bool) : Memory → Memory := fun s =>
  if ended s then set_ring (fun r => { r with owes_scan := Function.update r.owes_scan pid false }) s else s

/-- The size check of a record header. -/
def size_is_corrupt (channel : ByteChannel) (total_size : Nat) : Prop :=
  total_size < sizeof_record_header ∨ total_size > channel.capacity_bytes ∨
    total_size % record_alignment ≠ 0

instance (channel : ByteChannel) (total_size : Nat) : Decidable (size_is_corrupt channel total_size) :=
  inferInstanceAs (Decidable (_ ∨ _))

/-- The loop of `reclaim_consumed`: the result is `reclaimed_any`, or none when
    the chances are used up. -/
def reclaim_loop (channel : ByteChannel) (pid : Nat) : List Bool → Nat → Bool → Prog Memory (Option Bool)
  | scans, position, reclaimed_any => do
    let claimed ← .modifyGet (fun s => s.ring.claim_position)
      (end_scan pid fun s => s.ring.claim_position == position)
    if position = claimed then return some reclaimed_any
    let state ← .modifyGet (fun s => load64 s.ring.data (position % channel.capacity_bytes))
      (end_scan pid fun s =>
        load64 s.ring.data (position % channel.capacity_bytes) != consumed_token position)
    if state ≠ consumed_token position then return some reclaimed_any
    let total_size ← .load fun s => load64 s.ring.data (position % channel.capacity_bytes + 8)
    if size_is_corrupt channel total_size then return some reclaimed_any
    match scans with
    | [] => return none
    | spurious :: scans =>
      .act (fun _ => true)
        (fun s =>
          if !spurious && s.ring.reclaim_position == position then reclaim pid position total_size s else s)
        fun s =>
          if !spurious && s.ring.reclaim_position == position then
            reclaim_loop channel pid scans (add64 position total_size) true
          else reclaim_loop channel pid scans s.ring.reclaim_position reclaimed_any

/-- The signal of `reclaim_consumed`. -/
def signal_reclaimed (pid : Nat) (reclaimed_any : Bool) : Prog Memory Unit :=
  if reclaimed_any then do
    bump pid .writable
    wake_all pid .writable
  else .ret ()

/-- `reclaim_consumed`; `false` when the chances are used up. -/
def reclaim_consumed (channel : ByteChannel) (pid : Nat) (chances : DequeueChances) : Prog Memory Bool := do
  if !(← reclaim_lock_guard pid chances.lock) then return false
  let position ← .load fun s => s.ring.reclaim_position
  match ← reclaim_loop channel pid chances.scans position false with
  | none => return false
  | some reclaimed_any =>
    signal_reclaimed pid reclaimed_any
    leave_reclaim_lock pid chances.unlock_pick
    return true

/-- The store of `consumed_token`. The history records what the receiver has
    copied out of the record. -/
def consume (channel : ByteChannel) (pid index position : Nat) (value : Option Bytes) (s : Memory) :
    Memory :=
  { s with
    log := { s.log with
      phase := Function.update s.log.phase index .consumed
      delivered := value.toList.map (fun value => (index, value)) ++ s.log.delivered }
    ring := { s.ring with
      data := store64 s.ring.data (position % channel.capacity_bytes) (consumed_token position)
      accesses := ⟨index, position % channel.capacity_bytes, 8⟩ :: s.ring.accesses
      owes_scan := Function.update s.ring.owes_scan pid true
      last := Function.update s.ring.last pid (some index) } }

/-- The end of a claimed record: its token, and the scan. -/
def finish_record (channel : ByteChannel) (pid index position : Nat) (value : Option Bytes)
    (chances : DequeueChances) (ended : Ended (Option Bytes)) : Prog Memory (Ended (Option Bytes)) := do
  .store (consume channel pid index position value)
  if !(← reclaim_consumed channel pid chances) then return .unfinished
  return ended

/-- The exchange of the state word of the head record. The history records
    whether it was the published head. -/
def claim (channel : ByteChannel) (pid position : Nat) (s : Memory) : Memory :=
  { s with
    readable := s.readable.set_retry pid .none
    log := { s.log with phase := Function.update s.log.phase s.log.claimed (.claimed pid) }
    ring := { s.ring with
      data := store64 s.ring.data (position % channel.capacity_bytes) (claimed_token position)
      forged := s.ring.forged || !(decide (s.log.phase s.log.claimed = .published) &&
        decide (offset s.log.message s.log.claimed = position)) } }

/-- The exchange of `claim_position`. -/
def advance (pid position total_size : Nat) (s : Memory) : Memory :=
  { s with
    readable := s.readable.owe pid false
    log := { s.log with claimed := s.log.claimed + 1 }
    ring := { s.ring with
      claim_position := add64 position total_size
      claims := s.ring.claims ++ [position] } }

/-- `try_dequeue` after the claim of a record. -/
def take_record (channel : ByteChannel) (pid index position : Nat) (chances : DequeueChances) :
    Prog Memory (Ended (Option Bytes)) := do
  let total_size ← load_word channel index position 8
  let payload_size ← load_word channel index position 16
  if size_is_corrupt channel total_size ∨ payload_size > total_size - sizeof_record_header then
    finish_record channel pid index position none chances
      (.thrown (.runtime_error ("shmchan: corrupt byte-channel record in " ++ channel.name)))
  else
    .act (fun _ => true)
      (fun s => if s.ring.claim_position == position then advance pid position total_size s else s) fun s =>
        if s.ring.claim_position == position then do
          bump pid .readable
          wake_one pid .readable chances.pick
          if chances.alloc_fails ∧ payload_size ≠ 0 then
            finish_record channel pid index position none chances (.thrown .bad_alloc)
          else
            let value ← copy_from_record channel index position payload_size payload_size 0
            finish_record channel pid index position (some value) chances (.returned (some value))
        else
          finish_record channel pid index position none chances
            (.thrown (.runtime_error ("shmchan: inconsistent byte-channel claim position in " ++ channel.name)))

def try_dequeue (channel : ByteChannel) (pid : Nat) (chances : DequeueChances) :
    Prog Memory (Ended (Option Bytes)) := do
  let position ← .modifyGet (fun s => s.ring.claim_position) fun s =>
    { s.begin_try pid with
      ring := { s.ring with last := Function.update s.ring.last pid none }
      readable := if s.readable.retry pid = .none then s.readable
        else s.readable.set_retry pid (.looking s.ring.claim_position) }
  let written ← .modifyGet (fun s => s.ring.write_position) fun s =>
    if s.ring.write_position = position then
      { s.end_try pid with readable := s.readable.set_retry pid .none }
    else s
  if position = written then return .returned none
  .act (fun _ => true)
    (fun s =>
      if load64 s.ring.data (position % channel.capacity_bytes) == published_token position then
        claim channel pid position s
      else { s.give_up pid with readable := s.readable.set_retry pid .none }) fun s =>
      if load64 s.ring.data (position % channel.capacity_bytes) == published_token position then
        take_record channel pid s.log.claimed position chances
      else .ret (.returned none)

def max_message_size (channel : ByteChannel) : Nat := channel.capacity_bytes - sizeof_record_header

/-- The calls on a channel with all that chance decides in them. -/
inductive Call where
  | try_send (message : Bytes) (registration : List Bool) (chances : EnqueueChances)
  | send (message : Bytes) (timed : Bool) (registration : List Bool)
      (turns : List (SendTurn EnqueueChances))
  | try_receive (first second : DequeueChances)
  | receive (timed : Bool) (turns : List (ReceiveTurn DequeueChances))
  | close

/-- `try_send`, `send` and `send_for`, `try_receive`, `receive` and
    `receive_for`, and `close`. -/
def Call.run (channel : ByteChannel) (pid : Nat) : Call → Prog Memory (Reply Bytes)
  | .try_send message registration chances =>
    if message.length > max_message_size channel then .ret (.sent .message_too_large)
    else do
      let ended ← endpoint.try_send pid (try_enqueue channel pid message) registration chances
      return ended.reply .sent
  | .send message timed registration turns =>
    if message.length > max_message_size channel then .ret (.sent .message_too_large)
    else do
      let ended ← send_impl pid (try_enqueue channel pid message) timed registration turns
      return ended.reply .sent
  | .try_receive first second => do
    let ended ← endpoint.try_receive (try_dequeue channel pid) first second
    return ended.reply .received
  | .receive timed turns => do
    let ended ← receive_impl pid (try_dequeue channel pid) timed turns
    return ended.reply .received
  | .close => do
    let first ← endpoint.close pid
    return .closing first

/-- Any process may begin any call when its last one has ended. Nobody dies. -/
def discipline (channel : ByteChannel) : Discipline Memory (Reply Bytes) Nat where
  starts pid result program := result ≠ .unfinished ∧ ∃ call : Call, program = call.run channel pid
  onDeath _ s := s
  mayDie _ _ := False
  dead := .idle

/-- The new channel: no process has begun a call. -/
def new_channel : Config Memory (Reply Bytes) Nat := ⟨created, fun _ => .ret .idle⟩

end shmchan.byte_channel
