import Shmchan.Process.Focus
import Shmchan.Managed.Runs

open process

namespace shmchan.managed

def normalize_name (name : String) : Except Exception String :=
  if name.isEmpty then
    .error (.invalid_argument "shmchan: the shared-memory name cannot be empty")
  else if name.toList.contains (Char.ofNat 0) then
    .error (.invalid_argument "shmchan: the shared-memory name cannot contain NUL")
  else
    let normalized := if name.toList.head? = some '/' then name else "/" ++ name
    if normalized.toList.length = 1 ∨ (normalized.toList.drop 1).contains '/' then
      .error (.invalid_argument
        "shmchan: use a POSIX shared-memory name with no slash except the leading one")
    else .ok normalized

def managed_object_name (base_name : String) : Except Exception String := do
  let normalized ← normalize_name base_name
  let result := normalized ++ ".shmchan.managed"
  if result.utf8ByteSize > 250 then
    throw (.invalid_argument "shmchan: managed channel name is too long")
  return result

/-- The exception of `throw_errno`. -/
def throw_errno (operation name : String) : Exception :=
  .system_error (if name.isEmpty then operation else operation ++ " [" ++ name ++ "]")

/-- The calls of a management function that the kernel, the allocator or the
    thread library may refuse, each at its place in the code. -/
inductive Syscall where
  | shm_open
  | flock
  | probe_fstat
  | probe_mmap
  | reset_ftruncate
  | fstat
  | ftruncate
  | mmap
  | pthread_mutexattr_init
  | pthread_mutexattr_setpshared
  | pthread_mutexattr_setrobust
  | pthread_mutex_init
  | allocation
  | shm_unlink
  | unflock
  deriving DecidableEq, Repr

/-- A shared-memory object: its size, its bytes, and who holds its `flock`. -/
structure ShmObject where
  size : Nat := 0
  memory : Memory := zeroed
  exclusive : Option Nat := none
  shared : List Nat := []

/-- One name: the object it denotes, all objects that were ever created under
    it, and the number of them. History variables: `late` is set when `create`
    gets the lock of an object that is already ready and that it will
    initialise; `stray` when an object leaves the name in a way that `unlink`
    does not see. -/
structure Namespace where
  linked : Option Nat := none
  objects : Nat → ShmObject := fun _ => {}
  next : Nat := 0
  late : Bool := false
  stray : Bool := false

/-- The initialization word says ready. -/
def ShmObject.ready (o : ShmObject) : Bool :=
  decide (o.memory.header.initialization = managed_initialization_ready)

namespace Namespace

def set_object (s : Namespace) (object : Nat) (f : ShmObject → ShmObject) : Namespace :=
  { s with objects := Function.update s.objects object (f (s.objects object)) }

def set_memory (object : Nat) (f : Memory → Memory) (s : Namespace) : Namespace :=
  s.set_object object fun o => { o with memory := f o.memory }

/-- A new empty object takes the name. -/
def add_object (s : Namespace) : Namespace :=
  { s with linked := some s.next, objects := Function.update s.objects s.next {}, next := s.next + 1 }

/-- What the lock of `pid` on an object leaves when it is given up. -/
def unlock (pid object : Nat) (s : Namespace) : Namespace :=
  s.set_object object fun o => { o with
    exclusive := if o.exclusive = some pid then none else o.exclusive
    shared := o.shared.filter (· ≠ pid) }

/-- The name denotes nothing any more. It strays when the object removed is
    not the one its caller has locked. -/
def remove_name (pid own : Nat) (s : Namespace) : Namespace :=
  { s with
    linked := none
    stray := s.stray || decide (s.linked ≠ none ∧
      (s.linked ≠ some own ∨ (s.objects own).exclusive ≠ some pid)) }

/-- History only: `create` has got its lock. -/
def note_create (object : Nat) (options : ManagedChannelOptions) (s : Namespace) : Namespace :=
  match checked_managed_layout options.message_capacity options.max_message_size with
  | .ok _ => { s with
      late := s.late || (s.objects object).ready
      stray := s.stray || decide (s.linked ≠ some object) }
  | .error _ => { s with stray := s.stray || (s.objects object).ready }

/-- History only: `open_or_create` has got its lock. -/
def note_open_or_create (object : Nat) (options : ManagedChannelOptions) (s : Namespace) : Namespace :=
  match checked_managed_layout options.message_capacity options.max_message_size with
  | .ok _ => { s with
      stray := s.stray || (!(s.objects object).ready && decide (s.linked ≠ some object)) }
  | .error _ => s

end Namespace

/-- `shm_open` with `O_CREAT | O_EXCL`. -/
def shm_open_exclusive : Prog Namespace (Option Nat) :=
  .modifyGet (fun s => if s.linked = none then some s.next else none) fun s =>
    if s.linked = none then s.add_object else s

/-- `shm_open` with `O_CREAT`. -/
def shm_open_or_create : Prog Namespace Nat :=
  .modifyGet (fun s => s.linked.getD s.next) fun s => if s.linked = none then s.add_object else s

def shm_open : Prog Namespace (Option Nat) := .load fun s => s.linked

/-- `flock(LOCK_EX)`: waits while another process holds the lock. -/
def flock_exclusive (pid object : Nat) (note : Namespace → Namespace) : Prog Namespace Unit :=
  .act (fun s => (s.objects object).exclusive.isNone && (s.objects object).shared.isEmpty)
    (fun s => (note s).set_object object fun o => { o with exclusive := some pid }) fun _ => .ret ()

/-- `flock(LOCK_SH)`. -/
def flock_shared (pid object : Nat) : Prog Namespace Unit :=
  .act (fun s => (s.objects object).exclusive.isNone)
    (fun s => s.set_object object fun o => { o with shared := pid :: o.shared }) fun _ => .ret ()

/-- `flock(LOCK_UN)`. -/
def flock_unlock (pid object : Nat) : Prog Namespace Unit := .store (Namespace.unlock pid object)

/-- `~unique_fd`: closing the descriptor gives up its lock. -/
def close_fd (pid object : Nat) : Prog Namespace Unit := .store (Namespace.unlock pid object)

def fstat (object : Nat) : Prog Namespace Nat := .load fun s => (s.objects object).size

/-- Bytes up to the smaller of the two sizes stay, the others are zero. No
    object of this library is ever shorter than a header and not empty. -/
def ftruncate (object size : Nat) : Prog Namespace Unit :=
  .store fun s => s.set_object object fun o =>
    { o with size := size, memory := if size = 0 ∨ o.size = 0 then zeroed else o.memory }

/-- `shm_unlink`, by a process that has opened the object `own`; the result
    says whether the name denoted an object. -/
def shm_unlink (pid own : Nat) : Prog Namespace Bool :=
  .modifyGet (fun s => s.linked.isSome) (Namespace.remove_name pid own)

/-- Accesses to the mapping of an object. -/
def mapped {α : Type} (object : Nat) (program : Prog Memory α) : Prog Namespace α :=
  program.focus (fun s => (s.objects object).memory) (Namespace.set_memory object)

end shmchan.managed
