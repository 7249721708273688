import Shmchan.ByteChannel.Session

open process shmchan.endpoint

namespace shmchan.byte_channel

/-- The smallest channel that holds two records, for concrete runs. -/
def two_records : ByteChannel where
  name := "ch"
  capacity_bytes := 64
  accepted := ⟨64, by decide⟩

/-- Chances that nothing spoils. -/
def fair_enqueue : EnqueueChances := { attempts := [false] }

def fair_dequeue : DequeueChances := { lock := [{}], scans := [false, false] }

/-- A call of a process, run for `count` actions. -/
def call (channel : ByteChannel) (c : Config Memory (Reply Bytes) Nat) (pid : Nat) (call : Call)
    (count : Nat) : Config Memory (Reply Bytes) Nat :=
  Config.advance pid count ⟨c.shared, Function.update c.procs pid (call.run channel pid)⟩

/-- Whether a process may begin a call, and `q` holds after each action of it. -/
def call_stays (channel : ByteChannel) (q : Memory → Bool) (c : Config Memory (Reply Bytes) Nat)
    (pid : Nat) (call : Call) (count : Nat) : Bool :=
  (c.procs pid).shown.any (fun reply => decide (reply ≠ .unfinished)) && q c.shared &&
    Config.stays q pid count ⟨c.shared, Function.update c.procs pid (call.run channel pid)⟩

/-- An empty message, in one try. -/
def send_empty : Call := .try_send [] [false] fair_enqueue

def receive_once : Call := .try_receive fair_dequeue fair_dequeue

section

variable {channel : ByteChannel} {Q : Memory → Prop} {c : Config Memory (Reply Bytes) Nat} {pid : Nat}

theorem reachable_call (hreach : ReachableWithin Q (discipline channel) new_channel c) {q : Memory → Bool}
    (hq : ∀ s, q s = true → Q s) {next : Call} {count : Nat}
    (hstays : call_stays channel q c pid next count = true) :
    ReachableWithin Q (discipline channel) new_channel (call channel c pid next count) := by
  simp only [call_stays, Bool.and_eq_true, Option.any_eq_true, decide_eq_true_eq] at hstays
  obtain ⟨⟨⟨reply, hshown, hended⟩, hshared⟩, hstays⟩ := hstays
  have hreply : c.procs pid = .ret reply := Prog.eq_ret_of_shown hshown
  exact ReachableWithin.advance (hreach.tail ⟨.start hreply ⟨hended, next, rfl⟩, hq _ hshared⟩) hq hstays

end

end shmchan.byte_channel
