import Mathlib

namespace process

/-- A queue of bounded length that can be closed. -/
structure BoundedQueue (α : Type) where
  capacity : Nat
  messages : List α
  closed : Bool
  bound : messages.length ≤ capacity

inductive QueueCall (α : Type) where
  | send (message : α)
  | receive
  | close
  deriving DecidableEq, Repr

inductive QueueReply (α : Type) where
  | accepted
  | full
  | received (message : α)
  | empty
  | closed
  | closing (first : Bool)
  deriving DecidableEq, Repr

namespace BoundedQueue

variable {α : Type}

@[ext] theorem ext {q q' : BoundedQueue α} (hcapacity : q.capacity = q'.capacity)
    (hmessages : q.messages = q'.messages) (hclosed : q.closed = q'.closed) : q = q' := by
  cases q
  cases q'
  simp only at hcapacity hmessages hclosed
  subst hcapacity hmessages hclosed
  rfl

def empty (α : Type) (capacity : Nat) : BoundedQueue α where
  capacity := capacity
  messages := []
  closed := false
  bound := Nat.zero_le _

def push (q : BoundedQueue α) (message : α) (hroom : q.messages.length < q.capacity) :
    BoundedQueue α where
  capacity := q.capacity
  messages := q.messages ++ [message]
  closed := q.closed
  bound := by
    rw [List.length_append, List.length_singleton]
    omega

def pop (q : BoundedQueue α) : BoundedQueue α where
  capacity := q.capacity
  messages := q.messages.tail
  closed := q.closed
  bound := by
    have := q.bound
    rw [List.length_tail]
    omega

@[simp] theorem push_messages (q : BoundedQueue α) (message : α)
    (hroom : q.messages.length < q.capacity) :
    (q.push message hroom).messages = q.messages ++ [message] := rfl

@[simp] theorem pop_messages (q : BoundedQueue α) : q.pop.messages = q.messages.tail := rfl

/-- One call: a closed queue accepts nothing and still gives out what it holds. -/
def step (q : BoundedQueue α) : QueueCall α → QueueReply α × BoundedQueue α
  | .send message =>
    if q.closed then (.closed, q)
    else if hroom : q.messages.length < q.capacity then (.accepted, q.push message hroom)
    else (.full, q)
  | .receive =>
    match q.messages with
    | message :: _ => (.received message, q.pop)
    | [] => (if q.closed then .closed else .empty, q)
  | .close => (.closing (!q.closed), { q with closed := true })

theorem step_receive_cons (q : BoundedQueue α) {message : α} {rest : List α}
    (hmessages : q.messages = message :: rest) : q.step .receive = (.received message, q.pop) := by
  obtain ⟨capacity, messages, closed, bound⟩ := q
  subst hmessages
  rfl

theorem step_receive_nil (q : BoundedQueue α) (hmessages : q.messages = []) :
    q.step .receive = (if q.closed then .closed else .empty, q) := by
  obtain ⟨capacity, messages, closed, bound⟩ := q
  subst hmessages
  rfl

theorem step_send_closed (q : BoundedQueue α) (message : α) (hclosed : q.closed = true) :
    q.step (.send message) = (.closed, q) := by
  simp [step, hclosed]

theorem step_send_room (q : BoundedQueue α) (message : α) (hopen : q.closed = false)
    (hroom : q.messages.length < q.capacity) :
    q.step (.send message) = (.accepted, q.push message hroom) := by
  simp [step, hopen, hroom]

theorem step_send_full (q : BoundedQueue α) (message : α) (hopen : q.closed = false)
    (hfull : q.capacity ≤ q.messages.length) : q.step (.send message) = (.full, q) := by
  simp [step, hopen, Nat.not_lt.2 hfull]

end BoundedQueue

end process
