import Shmchan.Endpoint.State

open process

namespace shmchan.endpoint

/-- How a part of an operation ends: with a value, with an exception, or not
    before the chances given to its loops are used up. Nothing follows then. -/
inductive Ended (α : Type) where
  | returned (value : α)
  | thrown (error : Exception)
  | unfinished
  deriving DecidableEq, Repr

/-- What ends a futex wait. A refused wait fails with an unexpected `errno`. -/
inductive WaitOutcome where
  | woken
  | interrupted
  | timed_out
  | refused
  deriving DecidableEq, Repr

/-- A wait: whether the deadline has passed before it, and what ends it. -/
structure Wait where
  expired : Bool := false
  outcome : WaitOutcome := .woken
  deriving DecidableEq, Repr

section

variable {Ring Message α β : Type}

abbrev EndpointProg (Ring Message α : Type) : Type := Prog (Endpoint Ring Message) α

/-- Continue with the value; an exception and the lack of chances end the rest. -/
def andThen (p : EndpointProg Ring Message (Ended α))
    (f : α → EndpointProg Ring Message (Ended β)) : EndpointProg Ring Message (Ended β) :=
  p >>= fun
    | .returned value => f value
    | .thrown error => .ret (.thrown error)
    | .unfinished => .ret .unfinished

def bump (pid : Nat) (word : Word) : EndpointProg Ring Message Unit :=
  .store (Endpoint.set_event word (Event.bump pid))

def wake_all (pid : Nat) (word : Word) : EndpointProg Ring Message Unit :=
  .store (Endpoint.set_event word (Event.wake_all pid))

def wake_one (pid : Nat) (word : Word) (pick : Nat) : EndpointProg Ring Message Unit :=
  .store (Endpoint.set_event word (Event.wake_one pid pick))

/-- `epoch.load`, with the number of increments so far for the history. -/
def load_epoch (word : Word) : EndpointProg Ring Message (Nat × Nat) :=
  .load fun s => ((s.event word).epoch, (s.event word).bumps)

/-- The futex compares and queues in one action. -/
def compare_and_sleep (pid : Nat) (word : Word) (epoch : Nat × Nat) (s : Endpoint Ring Message) :
    Endpoint Ring Message :=
  if (s.event word).epoch = epoch.1 then
    { s.set_event word (Event.sleep pid) with
      wrapped := s.wrapped || decide ((s.event word).bumps ≠ epoch.2) }
  else s

/-- `futex_wait`: the result is `timed_out`. A process that a wake-up has
    removed meanwhile does not time out. -/
def futex_wait (pid : Nat) (word : Word) (epoch : Nat × Nat) (timed : Bool) (outcome : WaitOutcome) :
    EndpointProg Ring Message (Ended Bool) := do
  if outcome = .refused then return .thrown (.system_error "futex(FUTEX_WAIT)")
  let asleep ← .modifyGet (fun s => decide ((s.event word).epoch = epoch.1))
    (compare_and_sleep pid word epoch)
  if asleep then
    .act (fun s => decide (outcome ≠ .woken) || !(s.event word).waiters.contains pid)
      (Endpoint.set_event word (Event.leave pid)) fun s =>
        .ret (.returned (decide (outcome = .timed_out) && timed && (s.event word).waiters.contains pid))
  else
    return .returned false

/-- `futex_wait_until`. -/
def futex_wait_until (pid : Nat) (word : Word) (epoch : Nat × Nat) (wait : Wait) :
    EndpointProg Ring Message (Ended Bool) := do
  if wait.expired then return .returned true
  futex_wait pid word epoch true wait.outcome

/-- The wait of a blocking loop, with or without a deadline. -/
def wait_for_change (pid : Nat) (word : Word) (epoch : Nat × Nat) (timed : Bool) (wait : Wait) :
    EndpointProg Ring Message (Ended Bool) :=
  if timed then futex_wait_until pid word epoch wait
  else andThen (futex_wait pid word epoch false wait.outcome) fun _ => .ret (.returned false)

/-- History only: a sender that finds the channel closed will not try again. -/
def Endpoint.give_in (pid : Nat) (s : Endpoint Ring Message) : Endpoint Ring Message :=
  if s.sender_state &&& channel_closed_bit ≠ 0 then s.set_event .writable (Event.set_retry pid .none) else s

/-- `is_closed_state`, as a sender asks. -/
def is_closed_state (pid : Nat) : EndpointProg Ring Message Bool :=
  .modifyGet (fun s => decide (s.sender_state &&& channel_closed_bit ≠ 0)) (Endpoint.give_in pid)

def closed_and_senders_done : EndpointProg Ring Message Bool :=
  .load fun s => decide (s.sender_state = channel_closed_bit)

/-- A sender registers: the increment of `sender_state`. -/
def Endpoint.register (pid : Nat) (s : Endpoint Ring Message) : Endpoint Ring Message :=
  { s with sender_state := (s.sender_state + 1) % 2 ^ 32, guards := pid :: s.guards }

/-- The loop of the constructor of `active_sender_guard`. Each chance is one
    `compare_exchange_weak`, which may fail spuriously. -/
def register_loop (pid : Nat) : List Bool → Nat → EndpointProg Ring Message (Ended Bool)
  | chances, current =>
    if current &&& channel_closed_bit ≠ 0 then .ret (.returned false)
    else if current &&& active_sender_mask = active_sender_mask then
      .ret (.thrown (.overflow_error "shmchan: too many concurrent senders"))
    else
      match chances with
      | [] => .ret .unfinished
      | spurious :: chances =>
        .act (fun _ => true)
          (fun s => if !spurious && s.sender_state == current then s.register pid else s) fun s =>
            if !spurious && s.sender_state == current then .ret (.returned true)
            else register_loop pid chances s.sender_state

/-- The constructor of `active_sender_guard`; the result is `registered()`. -/
def active_sender_guard (pid : Nat) (chances : List Bool) : EndpointProg Ring Message (Ended Bool) := do
  let current ← .load fun s => s.sender_state
  register_loop pid chances current

/-- The decrement of `sender_state`. The last sender of a closed channel makes
    true what the receivers wait for. -/
def Endpoint.unregister (pid : Nat) (s : Endpoint Ring Message) : Endpoint Ring Message :=
  { s with
    sender_state := (2 ^ 32 - 1 + s.sender_state) % 2 ^ 32
    guards := s.guards.erase pid
    readable := if s.sender_state = channel_closed_bit ||| 1 then s.readable.owe pid true else s.readable }

/-- The destructor of a registered `active_sender_guard`. -/
def leave_sender (pid : Nat) : EndpointProg Ring Message Unit := do
  let previous ← .modifyGet (fun s => s.sender_state) (Endpoint.unregister pid)
  if previous = channel_closed_bit ||| 1 then
    bump pid .readable
    wake_all pid .readable

/-- A send under its `active_sender_guard`; `body` is what follows the check
    of `registered()`. -/
def guarded (pid : Nat) (chances : List Bool) (body : EndpointProg Ring Message (Ended ChannelStatus)) :
    EndpointProg Ring Message (Ended ChannelStatus) :=
  andThen (active_sender_guard pid chances) fun registered =>
    if registered then do
      let ended ← body
      if ended = .unfinished then return .unfinished
      leave_sender pid
      return ended
    else .ret (.returned .closed)

/-- `fetch_or` of the closed bit. The first call closes the channel for the
    senders, and for the receivers when no sender is registered. -/
def Endpoint.set_closed (pid : Nat) (s : Endpoint Ring Message) : Endpoint Ring Message :=
  { s with
    sender_state := s.sender_state ||| channel_closed_bit
    closings := if s.sender_state &&& channel_closed_bit ≠ 0 then s.closings else s.closings + 1
    readable := if s.sender_state = 0 then s.readable.owe pid true else s.readable
    writable := if s.sender_state &&& channel_closed_bit ≠ 0 then s.writable else s.writable.owe pid true }

/-- `close`. -/
def close (pid : Nat) : EndpointProg Ring Message Bool := do
  let previous ← .modifyGet (fun s => s.sender_state) (Endpoint.set_closed pid)
  if previous &&& channel_closed_bit ≠ 0 then return false
  bump pid .readable
  bump pid .writable
  wake_all pid .readable
  wake_all pid .writable
  return true

end

/-- One round of the loop of `send_impl`: the chances of its try, the wait, and
    the chances of the try after the deadline. -/
structure SendTurn (Chances : Type) where
  first : Chances
  wait : Wait := {}
  last : Chances

/-- One round of the loop of `receive_impl`: its two tries, the wait, and the
    try after the deadline. -/
structure ReceiveTurn (Chances : Type) where
  first : Chances
  second : Chances
  wait : Wait := {}
  last : Chances

/-- `receive_result`. -/
structure ReceiveResult (Message : Type) where
  code : ChannelStatus
  value : Option Message := none
  deriving DecidableEq, Repr

section

variable {Ring Message Chances : Type}

/-- `try_send` after its guard. -/
def try_send_body (pid : Nat) (try_enqueue : Chances → EndpointProg Ring Message (Ended Bool))
    (chances : Chances) : EndpointProg Ring Message (Ended ChannelStatus) := do
  if ← is_closed_state pid then return .returned .closed
  andThen (try_enqueue chances) fun enqueued => do
    if enqueued then return .returned .success
    return .returned (if ← is_closed_state pid then .closed else .would_block)

def try_send (pid : Nat) (try_enqueue : Chances → EndpointProg Ring Message (Ended Bool))
    (registration : List Bool) (chances : Chances) : EndpointProg Ring Message (Ended ChannelStatus) :=
  guarded pid registration (try_send_body pid try_enqueue chances)

/-- The loop of `send_impl`, after its guard. -/
def send_loop (pid : Nat) (try_enqueue : Chances → EndpointProg Ring Message (Ended Bool)) (timed : Bool) :
    List (SendTurn Chances) → EndpointProg Ring Message (Ended ChannelStatus)
  | [] => .ret .unfinished
  | turn :: turns => do
    if ← is_closed_state pid then return .returned .closed
    let epoch ← load_epoch .writable
    andThen (try_enqueue turn.first) fun enqueued => do
      if enqueued then return .returned .success
      if ← is_closed_state pid then return .returned .closed
      andThen (wait_for_change pid .writable epoch timed turn.wait) fun timed_out => do
        if timed_out then
          if ← is_closed_state pid then return .returned .closed
          andThen (try_enqueue turn.last) fun enqueued => do
            if enqueued then return .returned .success
            return .returned (if ← is_closed_state pid then .closed else .timed_out)
        else
          send_loop pid try_enqueue timed turns

def send_impl (pid : Nat) (try_enqueue : Chances → EndpointProg Ring Message (Ended Bool)) (timed : Bool)
    (registration : List Bool) (turns : List (SendTurn Chances)) :
    EndpointProg Ring Message (Ended ChannelStatus) :=
  guarded pid registration (send_loop pid try_enqueue timed turns)

/-- The second try of a receive, which has found the channel closed and
    without senders. -/
def receive_rest (try_dequeue : Chances → EndpointProg Ring Message (Ended (Option Message)))
    (chances : Chances) : EndpointProg Ring Message (Ended (ReceiveResult Message)) :=
  andThen (try_dequeue chances) fun
    | some value => .ret (.returned { code := .success, value := some value })
    | none => .ret (.returned { code := .closed })

def try_receive (try_dequeue : Chances → EndpointProg Ring Message (Ended (Option Message)))
    (first second : Chances) : EndpointProg Ring Message (Ended (ReceiveResult Message)) :=
  andThen (try_dequeue first) fun
    | some value => .ret (.returned { code := .success, value := some value })
    | none => do
      if ← closed_and_senders_done then receive_rest try_dequeue second
      else return .returned { code := .would_block }

/-- `receive_impl`. -/
def receive_impl (pid : Nat) (try_dequeue : Chances → EndpointProg Ring Message (Ended (Option Message)))
    (timed : Bool) : List (ReceiveTurn Chances) → EndpointProg Ring Message (Ended (ReceiveResult Message))
  | [] => .ret .unfinished
  | turn :: turns => do
    let epoch ← load_epoch .readable
    andThen (try_dequeue turn.first) fun
      | some value => .ret (.returned { code := .success, value := some value })
      | none => do
        if ← closed_and_senders_done then receive_rest try_dequeue turn.second
        else
          andThen (wait_for_change pid .readable epoch timed turn.wait) fun timed_out => do
            if timed_out then
              andThen (try_dequeue turn.last) fun
                | some value => .ret (.returned { code := .success, value := some value })
                | none => do
                  if ← closed_and_senders_done then return .returned { code := .closed }
                  return .returned { code := .timed_out }
            else
              receive_impl pid try_dequeue timed turns

end

/-- The result a process shows. -/
inductive Reply (Message : Type) where
  | idle
  | sent (status : ChannelStatus)
  | received (result : ReceiveResult Message)
  | closing (first : Bool)
  | threw (error : Exception)
  | unfinished
  deriving DecidableEq, Repr

/-- The result of an operation that has ended. -/
def Ended.reply {Message α : Type} (f : α → Reply Message) : Ended α → Reply Message
  | .returned value => f value
  | .thrown error => .threw error
  | .unfinished => .unfinished

end shmchan.endpoint
