import Shmchan.Managed.Memory

open process

namespace shmchan.managed

def signal_managed_event : Prog Memory Unit := do
  .store fun m => m.set_header fun h => { h with event_epoch := (h.event_epoch + 1) % 2 ^ 32 }
  -- futex_wake(event_epoch, INT_MAX)
  .store fun m => { m with waiters := [] }

def mark_managed_broken (reason : BreakReason) : Prog Memory Unit := do
  .store fun m => m.set_header fun h => { h with reason := reason.word }
  .store fun m => m.set_header fun h => { h with state := ManagedChannelState.broken.word }
  signal_managed_event

/-- `mark` is the history update that accompanies the FREE store. -/
def reset_managed_slot (index : Nat) (mark : Memory → Memory := id) : Prog Memory Unit := do
  .store fun m => m.set_slot index fun slot => { slot with payload_size := 0 }
  .store fun m => m.set_slot index fun slot => { slot with sequence := 0 }
  .store fun m => mark (m.set_slot index fun slot => { slot with state := ManagedSlotState.free.word })

/-- The test both scans make on a READY slot. -/
def ready_slot_is_corrupt (m : Memory) (index : Nat) : Bool :=
  m.header.max_message_size < (m.slots index).payload_size || (m.slots index).sequence == 0

/-- The scan of `recover_managed_slots`, from `index` on, with the counts of
    free, ready and discarded slots so far; `none` after a corrupt slot. -/
def recover_scan : Nat → Nat → Nat → Nat → Nat → Prog Memory (Option (Nat × Nat × Nat))
  | 0, _, free_count, ready_count, discarded => pure (some (free_count, ready_count, discarded))
  | todo + 1, index, free_count, ready_count, discarded => do
    let state ← .load fun m => (m.slots index).state
    if state = ManagedSlotState.free.word then
      recover_scan todo (index + 1) (free_count + 1) ready_count discarded
    else if state = ManagedSlotState.writing.word then
      reset_managed_slot index
      recover_scan todo (index + 1) (free_count + 1) ready_count (discarded + 1)
    else if state = ManagedSlotState.ready.word then
      if ← .load fun m => ready_slot_is_corrupt m index then
        mark_managed_broken .corrupt_data
        pure none
      else
        recover_scan todo (index + 1) free_count (ready_count + 1) discarded
    else
      mark_managed_broken .corrupt_data
      pure none

/-- The stores `recover_managed_slots` makes once every slot was accepted. -/
def recover_finish (free_count ready_count discarded : Nat) : Prog Memory Bool := do
  .store fun m => m.set_header fun h => { h with free_slots := free_count }
  .store fun m => m.set_header fun h => { h with writing_messages := 0 }
  .store fun m => m.set_header fun h => { h with ready_messages := ready_count }
  .store fun m => m.set_counters fun c =>
    { c with owner_death_recoveries := add64 c.owner_death_recoveries 1 }
  .store fun m => m.set_counters fun c =>
    { c with discarded_incomplete_writes := add64 c.discarded_incomplete_writes discarded }
  signal_managed_event
  pure true

def recover_managed_slots : Prog Memory Bool := do
  let capacity ← .load fun m => m.header.message_capacity
  match ← recover_scan capacity 0 0 0 0 with
  | none => pure false
  | some (free_count, ready_count, discarded) => recover_finish free_count ready_count discarded

/-- The scan of `validate_managed_slots`, with the counts of free, writing and
    ready slots so far; `none` after a corrupt slot. -/
def validate_scan : Nat → Nat → Nat → Nat → Nat → Prog Memory (Option (Nat × Nat × Nat))
  | 0, _, free_count, writing_count, ready_count =>
    pure (some (free_count, writing_count, ready_count))
  | todo + 1, index, free_count, writing_count, ready_count => do
    let state ← .load fun m => (m.slots index).state
    if state = ManagedSlotState.free.word then
      validate_scan todo (index + 1) (free_count + 1) writing_count ready_count
    else if state = ManagedSlotState.writing.word then
      validate_scan todo (index + 1) free_count (writing_count + 1) ready_count
    else if state = ManagedSlotState.ready.word then
      if ← .load fun m => ready_slot_is_corrupt m index then
        mark_managed_broken .corrupt_data
        pure none
      else
        validate_scan todo (index + 1) free_count writing_count (ready_count + 1)
    else
      mark_managed_broken .corrupt_data
      pure none

/-- The test of the recomputed counts against the header. -/
def counts_are_consistent (h : ManagedSharedHeader) (free_count writing_count ready_count : Nat) :
    Bool :=
  writing_count == 0 && free_count == h.free_slots && writing_count == h.writing_messages &&
    ready_count == h.ready_messages &&
    free_count + writing_count + ready_count == h.message_capacity

def validate_managed_slots : Prog Memory Bool := do
  let capacity ← .load fun m => m.header.message_capacity
  match ← validate_scan capacity 0 0 0 0 with
  | none => pure false
  | some (free_count, writing_count, ready_count) =>
    if ← .load fun m => counts_are_consistent m.header free_count writing_count ready_count then
      pure true
    else
      mark_managed_broken .corrupt_data
      pure false

end shmchan.managed
