import Shmchan.Process.Prog
import Shmchan.Status

open process

namespace shmchan.endpoint

def channel_closed_bit : Nat := 0x80000000

def active_sender_mask : Nat := channel_closed_bit - 1

/-- History of a ring position: reserved by a sender, published, claimed by a
    receiver, and given back. -/
inductive Phase where
  | vacant
  | reserved (pid : Nat)
  | published
  | claimed (pid : Nat)
  | consumed
  deriving DecidableEq, Repr

/-- A receiver has claimed the position. -/
def Phase.taken : Phase → Bool
  | claimed _ => true
  | consumed => true
  | _ => false

/-- History variables of a ring, by the order of the reservations: how many
    positions have been reserved and how many handed to receivers, the message
    and the phase of each, and what the receivers have copied out. -/
structure Log (Message : Type) where
  count : Nat := 0
  claimed : Nat := 0
  message : Nat → Message
  phase : Nat → Phase := fun _ => .vacant
  delivered : List (Nat × Message) := []

/-- The positions that receivers have claimed; the last of them may not have
    been handed over yet. -/
def Log.taken {Message : Type} (log : Log Message) : Nat :=
  if (log.phase log.claimed).taken then log.claimed + 1 else log.claimed

/-- History of a wake-up that a process owes, to one waiter or to all: it has
    made something true that they wait for, and then incremented the epoch. -/
inductive Pending where
  | none
  | before (all : Bool)
  | after (all : Bool)
  deriving DecidableEq, Repr

/-- The epoch has been incremented. -/
def Pending.bumped : Pending → Pending
  | before all => after all
  | pending => pending

/-- History of a process that a wake-up has removed from the waiters and that
    has not tried again since; while it tries, the position it has loaded. -/
inductive Retry where
  | none
  | awaited
  | looking (position : Nat)
  deriving DecidableEq, Repr

/-- An epoch word with the kernel's queue of the processes that wait on it. The
    last three fields are history. -/
structure Event where
  epoch : Nat := 0
  waiters : List Nat := []
  bumps : Nat := 0
  pending : Nat → Pending := fun _ => .none
  retry : Nat → Retry := fun _ => .none

namespace Event

/-- History only: the process has made true what the waiters wait for. -/
def owe (pid : Nat) (all : Bool) (e : Event) : Event :=
  { e with pending := Function.update e.pending pid (.before all) }

/-- `fetch_add(1)` on the epoch. -/
def bump (pid : Nat) (e : Event) : Event :=
  { e with
    epoch := (e.epoch + 1) % 2 ^ 32
    bumps := e.bumps + 1
    pending := Function.update e.pending pid (e.pending pid).bumped }

/-- `futex_wake(INT_MAX)`. -/
def wake_all (pid : Nat) (e : Event) : Event :=
  { e with
    waiters := []
    pending := Function.update e.pending pid .none
    retry := fun other => if other ∈ e.waiters then .awaited else e.retry other }

/-- `futex_wake(1)`: the kernel picks the waiter. -/
def wake_one (pid pick : Nat) (e : Event) : Event :=
  match e.waiters[pick % e.waiters.length]? with
  | none => { e with pending := Function.update e.pending pid .none }
  | some woken =>
    { e with
      waiters := e.waiters.erase woken
      pending := Function.update e.pending pid .none
      retry := Function.update e.retry woken .awaited }

/-- The kernel queues the process. -/
def sleep (pid : Nat) (e : Event) : Event := { e with waiters := pid :: e.waiters }

/-- The kernel ends the wait of the process. -/
def leave (pid : Nat) (e : Event) : Event := { e with waiters := e.waiters.erase pid }

/-- History only: how far the process is with its next try. -/
def set_retry (pid : Nat) (retry : Retry) (e : Event) : Event :=
  { e with retry := Function.update e.retry pid retry }

end Event

/-- The part of a channel's shared memory that `channel` and `byte_channel` lay
    out alike, with its ring. The fields after `ring` are history: the
    processes with a registered `active_sender_guard`, how many calls of `close`
    found the channel open, which processes are trying to receive, whose last try
    to receive was hasty, and whether an epoch comparison was deceived by a wrap. -/
structure Endpoint (Ring Message : Type) where
  sender_state : Nat := 0
  readable : Event := {}
  writable : Event := {}
  ring : Ring
  log : Log Message
  guards : List Nat := []
  closings : Nat := 0
  receiving : Nat → Bool := fun _ => false
  hasty : Nat → Bool := fun _ => false
  wrapped : Bool := false

/-- The two epoch words. -/
inductive Word where
  | readable
  | writable
  deriving DecidableEq, Repr

section

variable {Ring Message : Type}

def Endpoint.event (s : Endpoint Ring Message) : Word → Event
  | .readable => s.readable
  | .writable => s.writable

def Endpoint.set_event (word : Word) (f : Event → Event) (s : Endpoint Ring Message) :
    Endpoint Ring Message :=
  match word with
  | .readable => { s with readable := f s.readable }
  | .writable => { s with writable := f s.writable }

/-- History only: the process begins a try to receive, too early if a sender
    may still come. -/
def Endpoint.begin_try (pid : Nat) (s : Endpoint Ring Message) : Endpoint Ring Message :=
  { s with
    receiving := Function.update s.receiving pid true
    hasty := Function.update s.hasty pid (decide (s.sender_state ≠ channel_closed_bit)) }

/-- History only: the try ends. -/
def Endpoint.end_try (pid : Nat) (s : Endpoint Ring Message) : Endpoint Ring Message :=
  { s with receiving := Function.update s.receiving pid false }

/-- History only: the try ends at a record that it cannot claim, too early if
    another one is unclaimed. -/
def Endpoint.give_up (pid : Nat) (s : Endpoint Ring Message) : Endpoint Ring Message :=
  { s.end_try pid with hasty := Function.update s.hasty pid (s.hasty pid || decide (s.log.taken < s.log.count)) }

@[simp] theorem Endpoint.set_event_ring (s : Endpoint Ring Message) (word : Word) (f : Event → Event) :
    (s.set_event word f).ring = s.ring := by
  cases word <;> rfl

@[simp] theorem Endpoint.set_event_log (s : Endpoint Ring Message) (word : Word) (f : Event → Event) :
    (s.set_event word f).log = s.log := by
  cases word <;> rfl

@[simp] theorem Endpoint.set_event_sender_state (s : Endpoint Ring Message) (word : Word)
    (f : Event → Event) : (s.set_event word f).sender_state = s.sender_state := by
  cases word <;> rfl

@[simp] theorem Endpoint.set_event_guards (s : Endpoint Ring Message) (word : Word) (f : Event → Event) :
    (s.set_event word f).guards = s.guards := by
  cases word <;> rfl

@[simp] theorem Endpoint.set_event_closings (s : Endpoint Ring Message) (word : Word)
    (f : Event → Event) : (s.set_event word f).closings = s.closings := by
  cases word <;> rfl

@[simp] theorem Endpoint.set_event_receiving (s : Endpoint Ring Message) (word : Word)
    (f : Event → Event) : (s.set_event word f).receiving = s.receiving := by
  cases word <;> rfl

end

end shmchan.endpoint
