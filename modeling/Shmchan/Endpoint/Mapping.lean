import Shmchan.Endpoint.Operations
import Shmchan.Managed.Namespace
import Shmchan.Process.Objects
import Shmchan.Process.Recorded

open process

namespace shmchan.endpoint

def initialization_ready : Nat := 1

/-- The system calls of `create`, `open` and `unlink` that the kernel may refuse. -/
inductive Syscall where
  | shm_open
  | flock
  | fstat
  | ftruncate
  | mmap
  | shm_unlink
  | unflock
  deriving DecidableEq, Repr

/-- A mapping: the initialization word, the other fields that `create` stores in
    the header once, and the channel. The programs in `live` are history: what
    each process still has to do in its last call. -/
structure Mapping (Header Ring : Type) where
  initialization : Nat := 0
  header : Header
  live : Config (Endpoint Ring Bytes) (Reply Bytes) Nat

/-- A channel that `create` is asked for, once its arguments are accepted. -/
structure Layout (Channel : Type) where
  channel : Channel
  mapping_size : Nat

/-- What `channel` and `byte_channel` put into the same functions: texts, sizes,
    the checks and stores of their own headers, and their calls. `zeroed` is a
    mapping of zero bytes for a capacity; a `channel` has its type as its kind. -/
structure Format (Kind Header Ring Channel : Type) where
  create_operation : String
  open_operation : String
  sizeof_header : Nat
  layout : Kind → String → Nat → Except Exception (Layout Channel)
  capacity : Channel → Nat
  zeroed : Nat → Mapping Header Ring
  stores : Kind → Layout Channel → List (Mapping Header Ring → Mapping Header Ring)
  validate : Kind → String → Header → Nat → Except Exception Channel
  calls : Channel → Nat → Prog (Endpoint Ring Bytes) (Reply Bytes) → Prop

/-- A `channel` or `byte_channel` object of a process. -/
structure Handle (Kind Channel : Type) where
  object : Nat
  kind : Kind
  name : String
  mapping_size : Nat
  channel : Channel

/-- The shared memory objects of the system. -/
abbrev Objects (Header Ring : Type) : Type := ObjectSpace (Mapping Header Ring)

section

variable {Kind Header Ring Channel : Type}

/-- Accesses to the channel in a mapping. -/
def on_channel (object : Nat) (program : Prog (Config (Endpoint Ring Bytes) (Reply Bytes) Nat) (Reply Bytes)) :
    Prog (Objects Header Ring) (Reply Bytes) :=
  on_object object (program.focus (fun m => m.live) fun f m => { m with live := f m.live })

namespace Format

variable (F : Format Kind Header Ring Channel)

/-- The part of `create` inside `try`. -/
def create_locked (pid object : Nat) (kind : Kind) (name : String) (layout : Layout Channel)
    (fails : Syscall → Bool) : Prog (Objects Header Ring) (Except Exception (Handle Kind Channel)) := do
  if fails .flock then return .error (.system_error "flock")
  lock_exclusive pid object
  if fails .ftruncate then return .error (managed.throw_errno "ftruncate" name)
  resize (F.zeroed (F.capacity layout.channel)) object layout.mapping_size
  if fails .mmap then return .error (managed.throw_errno "mmap" name)
  on_object object (.stores (F.stores kind layout))
  on_object object (.store fun m => { m with initialization := initialization_ready })
  if fails .unflock then return .error (.system_error "flock")
  give_up_lock pid object
  return .ok ⟨object, kind, name, layout.mapping_size, layout.channel⟩

/-- The end of `create`: its `catch` clause, and the descriptor. -/
def end_create (pid object : Nat) (name : String) (fails : Syscall → Bool)
    (result : Except Exception (Handle Kind Channel)) :
    Prog (Objects Header Ring) (Except Exception (Handle Kind Channel)) := do
  if result.isOk = false ∧ fails .shm_unlink = false then
    let _ ← remove_name name
  give_up_lock pid object
  return result

def create (pid : Nat) (kind : Kind) (name : String) (capacity : Nat) (fails : Syscall → Bool) :
    Prog (Objects Header Ring) (Except Exception (Handle Kind Channel)) := do
  match managed.normalize_name name with
  | .error error => return .error error
  | .ok normalized =>
    match F.layout kind normalized capacity with
    | .error error => return .error error
    | .ok layout =>
      if fails .shm_open then return .error (managed.throw_errno F.create_operation normalized)
      match ← create_exclusive (F.zeroed (F.capacity layout.channel)) pid normalized with
      | none => return .error (managed.throw_errno F.create_operation normalized)
      | some object =>
        let result ← F.create_locked pid object kind normalized layout fails
        end_create pid object normalized fails result

/-- `open` from its lock on. An `off_t` is never too large for a `size_t`. -/
def open_locked (pid object : Nat) (kind : Kind) (name : String) (fails : Syscall → Bool) :
    Prog (Objects Header Ring) (Except Exception (Handle Kind Channel)) := do
  if fails .flock then return .error (.system_error "flock")
  lock_shared pid object
  if fails .fstat then return .error (managed.throw_errno "fstat" name)
  let size ← object_size object
  if size < F.sizeof_header then
    return .error (.runtime_error ("shmchan: shared-memory object is incomplete: " ++ name))
  if fails .mmap then return .error (managed.throw_errno "mmap" name)
  let initialization ← on_object object (.load fun m => m.initialization)
  if initialization ≠ initialization_ready then
    return .error (.runtime_error ("shmchan: shared-memory object is not initialized: " ++ name))
  let header ← on_object object (.load fun m => m.header)
  match F.validate kind name header size with
  | .error error => return .error error
  | .ok channel =>
    if fails .unflock then return .error (.system_error "flock")
    give_up_lock pid object
    return .ok ⟨object, kind, name, size, channel⟩

def open_existing (pid : Nat) (kind : Kind) (name : String) (fails : Syscall → Bool) :
    Prog (Objects Header Ring) (Except Exception (Handle Kind Channel)) := do
  match managed.normalize_name name with
  | .error error => return .error error
  | .ok normalized =>
    if fails .shm_open then return .error (managed.throw_errno F.open_operation normalized)
    match ← find_object normalized with
    | none => return .error (managed.throw_errno F.open_operation normalized)
    | some object =>
      let result ← F.open_locked pid object kind normalized fails
      give_up_lock pid object
      return result

/-- `unlink`. Without the name there is nothing to remove. -/
def unlink (name : String) (fails : Syscall → Bool) : Prog (Objects Header Ring) (Except Exception Bool) := do
  match managed.normalize_name name with
  | .error error => return .error error
  | .ok normalized =>
    if fails .shm_unlink then return .error (managed.throw_errno "shm_unlink" normalized)
    let removed ← remove_name normalized
    return .ok removed

end Format

/-- What a process asks for. A call runs on a handle that it holds. -/
inductive Request (Kind Ring Channel : Type) where
  | create (kind : Kind) (name : String) (capacity : Nat)
  | open_existing (kind : Kind) (name : String)
  | unlink (name : String)
  | call (handle : Handle Kind Channel) (program : Prog (Endpoint Ring Bytes) (Reply Bytes))

/-- How a request ends. -/
inductive Answer (Kind Channel : Type) where
  | idle
  | created (kind : Kind) (name : String) (capacity : Nat) (result : Except Exception (Handle Kind Channel))
  | opened (kind : Kind) (name : String) (result : Except Exception (Handle Kind Channel))
  | unlinked (result : Except Exception Bool)
  | called (reply : Reply Bytes)
  | dead

/-- The exception that a request has ended with. -/
def Answer.error {Kind Channel : Type} : Answer Kind Channel → Option Exception
  | .created _ _ _ (.error error) => some error
  | .opened _ _ (.error error) => some error
  | .unlinked (.error error) => some error
  | _ => none

/-- A process between two requests. -/
structure Client (Kind Channel : Type) where
  handles : List (Handle Kind Channel) := []
  answer : Answer Kind Channel := .idle

namespace Format

variable (F : Format Kind Header Ring Channel)

/-- The handles after a call that may have mapped an object. -/
def add_handle (result : Except Exception (Handle Kind Channel)) (handles : List (Handle Kind Channel)) :
    List (Handle Kind Channel) :=
  result.toOption.toList ++ handles

def perform (pid : Nat) (client : Client Kind Channel) (fails : Syscall → Bool) :
    Request Kind Ring Channel → Prog (Objects Header Ring) (Client Kind Channel)
  | .create kind name capacity => do
    let result ← F.create pid kind name capacity fails
    return ⟨add_handle result client.handles, .created kind name capacity result⟩
  | .open_existing kind name => do
    let result ← F.open_existing pid kind name fails
    return ⟨add_handle result client.handles, .opened kind name result⟩
  | .unlink name => do
    let result ← unlink name fails
    return ⟨client.handles, .unlinked result⟩
  | .call handle program => do
    let reply ← on_channel handle.object (program.recorded pid)
    return ⟨client.handles, .called reply⟩

/-- The calls of one channel: any process may begin any call when its last one
    has ended. -/
def discipline (channel : Channel) : Discipline (Endpoint Ring Bytes) (Reply Bytes) Nat where
  starts pid result program := result ≠ .unfinished ∧ F.calls channel pid program
  onDeath _ s := s
  mayDie _ _ := False
  dead := .idle

/-- The calls of a process go to the channels that it has created or opened. -/
def Admitted (pid : Nat) (client : Client Kind Channel) : Request Kind Ring Channel → Prop
  | .call handle program => handle ∈ client.handles ∧ F.calls handle.channel pid program
  | _ => True

/-- Processes that create, open, use and unlink channels under any names. Any
    process may be killed between any two of its actions. -/
def system : Discipline (Objects Header Ring) (Client Kind Channel) Nat where
  starts pid client program := client.answer ≠ .dead ∧ client.answer ≠ .called .unfinished ∧
    ∃ request fails, F.Admitted pid client request ∧ program = F.perform pid client fails request
  onDeath := ObjectSpace.on_death
  mayDie _ _ := True
  dead := ⟨[], .dead⟩

/-- No object exists. -/
def nothing : Config (Objects Header Ring) (Client Kind Channel) Nat :=
  ⟨{ objects := fun _ => { memory := F.zeroed 0 } }, fun _ => .ret {}⟩

end Format

end

end shmchan.endpoint
