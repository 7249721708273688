import Shmchan.Managed.Namespace

open process

namespace shmchan.managed

/-- The first of the thread library's calls that is refused. -/
def refused_mutex_call (fails : Syscall → Bool) : Option String :=
  if fails .pthread_mutexattr_init then some "pthread_mutexattr_init"
  else if fails .pthread_mutexattr_setpshared then some "pthread_mutexattr_setpshared"
  else if fails .pthread_mutexattr_setrobust then some "pthread_mutexattr_setrobust"
  else if fails .pthread_mutex_init then some "pthread_mutex_init"
  else none

/-- The stores of an initialisation before the mutex calls. -/
def initialize_prologue (options : ManagedChannelOptions) (layout : ManagedLayout) :
    List (Memory → Memory) :=
  initialize_header options layout ++ initialize_slots options.message_capacity

def initialize_managed_mapping_locked (object : Nat) (object_name : String)
    (options : ManagedChannelOptions) (fails : Syscall → Bool) :
    Prog Namespace (Except Exception Nat) := do
  match checked_managed_layout options.message_capacity options.max_message_size with
  | .error error => return .error error
  | .ok layout =>
    if fails .ftruncate then return .error (throw_errno "ftruncate(managed channel)" object_name)
    ftruncate object layout.mapping_size
    if fails .mmap then return .error (throw_errno "mmap(create managed channel)" object_name)
    mapped object (.stores (initialize_prologue options layout))
    match refused_mutex_call fails with
    | some operation => return .error (.system_error operation)
    | none =>
      mapped object (.stores initialize_finish)
      -- `finish_managed_mapping` allocates the handle
      if fails .allocation then return .error .bad_alloc
      return .ok object

/-- The checks of `validate_managed_mapping` on the fields that a live channel
    keeps, after those on the state words. -/
def validate_layout (header : ManagedSharedHeader) (mapping_size : Nat) (object_name : String)
    (protocol : ProtocolDescriptor) : Except Exception Unit :=
  match checked_managed_layout header.message_capacity header.max_message_size with
  | .error error => .error error
  | .ok expected =>
    if expected.mapping_size ≠ mapping_size ∨ expected.slots_offset ≠ header.slots_offset ∨
        expected.payload_offset ≠ header.payload_offset ∨
        expected.payload_stride ≠ header.payload_stride then
      .error (.runtime_error ("shmchan: corrupt managed channel layout: " ++ object_name))
    else if header.protocol_id_value ≠ protocol.id ∨ header.protocol_version ≠ protocol.version then
      .error (.managed_channel_error .protocol_mismatch
        ("shmchan: managed channel protocol mismatch: " ++ object_name))
    else .ok ()

def validate_managed_mapping (object mapping_size : Nat) (object_name : String)
    (protocol : ProtocolDescriptor) : Prog Namespace (Except Exception Unit) := do
  let header ← mapped object (.load fun m => m.header)
  if header.magic ≠ managed_simple_magic ∨ header.layout_version ≠ managed_simple_version ∨
      header.header_size ≠ sizeof_managed_shared_header ∨ header.mapping_size ≠ mapping_size ∨
      header.slot_size ≠ sizeof_managed_message_slot ∨ header.mutex_size ≠ sizeof_pthread_mutex ∨
      header.mutex_alignment ≠ alignof_pthread_mutex ∨
      header.initialization ≠ managed_initialization_ready then
    return .error (.runtime_error
      ("shmchan: incompatible or incomplete managed channel: " ++ object_name))
  let stored_state ← mapped object (.load fun m => m.header.state)
  let stored_reason ← mapped object (.load fun m => m.header.reason)
  if stored_state > ManagedChannelState.destroying.word ∨
      stored_reason > BreakReason.sequence_exhausted.word then
    return .error (.runtime_error ("shmchan: invalid managed channel state: " ++ object_name))
  return validate_layout header mapping_size object_name protocol

def map_managed_fd_locked (object : Nat) (object_name : String) (protocol : ProtocolDescriptor)
    (fails : Syscall → Bool) : Prog Namespace (Except Exception Nat) := do
  if fails .fstat then return .error (throw_errno "fstat(managed channel)" object_name)
  let size ← fstat object
  if size < sizeof_managed_shared_header ∨ size > 2 ^ 64 - 1 then
    return .error (.runtime_error ("shmchan: incomplete managed channel: " ++ object_name))
  if fails .mmap then return .error (throw_errno "mmap(open managed channel)" object_name)
  match ← validate_managed_mapping object size object_name protocol with
  | .error error => return .error error
  | .ok _ =>
    if fails .allocation then return .error .bad_alloc
    return .ok object

/-- The part of `create_managed_mapping` inside `try`. -/
def create_locked (pid object : Nat) (object_name : String) (options : ManagedChannelOptions)
    (fails : Syscall → Bool) : Prog Namespace (Except Exception Nat) := do
  if fails .flock then return .error (.system_error "flock")
  flock_exclusive pid object (Namespace.note_create object options)
  match ← initialize_managed_mapping_locked object object_name options fails with
  | .error error => return .error error
  | .ok mapping =>
    if fails .unflock then return .error (.system_error "flock")
    flock_unlock pid object
    return .ok mapping

/-- The `catch` clause of `create_managed_mapping`. -/
def unlink_on_failure (pid object : Nat) (fails : Syscall → Bool) :
    Except Exception Nat → Prog Namespace Unit
  | .ok _ => pure ()
  | .error _ => if fails .shm_unlink then pure () else shm_unlink pid object >>= fun _ => pure ()

def create_managed_mapping (pid : Nat) (name : String) (options : ManagedChannelOptions)
    (fails : Syscall → Bool) : Prog Namespace (Except Exception Nat) := do
  match normalize_name name >>= managed_object_name with
  | .error error => return .error error
  | .ok object_name =>
    if fails .shm_open then
      return .error (throw_errno "shm_open(create managed channel)" object_name)
    match ← shm_open_exclusive with
    | none => return .error (throw_errno "shm_open(create managed channel)" object_name)
    | some object =>
      let result ← create_locked pid object object_name options fails
      unlink_on_failure pid object fails result
      close_fd pid object
      return result

/-- `open_managed_mapping` from its lock on. -/
def open_locked (pid object : Nat) (object_name : String) (protocol : ProtocolDescriptor)
    (fails : Syscall → Bool) : Prog Namespace (Except Exception Nat) := do
  if fails .flock then return .error (.system_error "flock")
  flock_shared pid object
  match ← map_managed_fd_locked object object_name protocol fails with
  | .error error => return .error error
  | .ok mapping =>
    if fails .unflock then return .error (.system_error "flock")
    flock_unlock pid object
    return .ok mapping

def open_managed_mapping (pid : Nat) (name : String) (protocol : ProtocolDescriptor)
    (fails : Syscall → Bool) : Prog Namespace (Except Exception Nat) := do
  match normalize_name name >>= managed_object_name with
  | .error error => return .error error
  | .ok object_name =>
    if fails .shm_open then
      return .error (throw_errno "shm_open(open managed channel)" object_name)
    match ← shm_open with
    | none => return .error (throw_errno "shm_open(open managed channel)" object_name)
    | some object =>
      let result ← open_locked pid object object_name protocol fails
      close_fd pid object
      return result

/-- The decision of `open_or_create_managed_mapping`: does the object still
    have to be initialised? -/
def probe_initialization (object : Nat) (object_name : String) (fails : Syscall → Bool) :
    Prog Namespace (Except Exception Bool) := do
  if fails .probe_fstat then
    return .error (throw_errno "fstat(open_or_create managed channel)" object_name)
  let size ← fstat object
  if size = 0 then return .ok true
  if sizeof_managed_shared_header ≤ size then
    if size > 2 ^ 64 - 1 then
      return .error (.runtime_error ("shmchan: managed channel object is too large: " ++ object_name))
    if fails .probe_mmap then
      return .error (throw_errno "mmap(probe managed channel)" object_name)
    let initialization ← mapped object (.load fun m => m.header.initialization)
    return .ok (decide (initialization ≠ managed_initialization_ready))
  return .ok true

/-- The rest of `open_or_create_managed_mapping`, up to its unlock. -/
def initialize_or_map (object : Nat) (object_name : String) (options : ManagedChannelOptions)
    (fails : Syscall → Bool) (needs_initialization : Bool) :
    Prog Namespace (Except Exception Nat) := do
  if needs_initialization then
    if fails .reset_ftruncate then
      return .error (throw_errno "ftruncate(reset managed channel)" object_name)
    ftruncate object 0
    initialize_managed_mapping_locked object object_name options fails
  else
    match ← map_managed_fd_locked object object_name options.protocol fails with
    | .error error => return .error error
    | .ok mapping =>
      let header ← mapped object (.load fun m => m.header)
      if header.message_capacity ≠ options.message_capacity ∨
          header.max_message_size ≠ options.max_message_size then
        return .error (.invalid_argument
          "shmchan: open_or_create options do not match the existing channel")
      return .ok mapping

/-- `open_or_create_managed_mapping` from its lock on. -/
def open_or_create_locked (pid object : Nat) (object_name : String)
    (options : ManagedChannelOptions) (fails : Syscall → Bool) :
    Prog Namespace (Except Exception Nat) := do
  if fails .flock then return .error (.system_error "flock")
  flock_exclusive pid object (Namespace.note_open_or_create object options)
  match ← probe_initialization object object_name fails with
  | .error error => return .error error
  | .ok needs_initialization =>
    match ← initialize_or_map object object_name options fails needs_initialization with
    | .error error => return .error error
    | .ok mapping =>
      if fails .unflock then return .error (.system_error "flock")
      flock_unlock pid object
      return .ok mapping

def open_or_create_managed_mapping (pid : Nat) (name : String) (options : ManagedChannelOptions)
    (fails : Syscall → Bool) : Prog Namespace (Except Exception Nat) := do
  match normalize_name name >>= managed_object_name with
  | .error error => return .error error
  | .ok object_name =>
    if fails .shm_open then
      return .error (throw_errno "shm_open(open_or_create managed channel)" object_name)
    let object ← shm_open_or_create
    let result ← open_or_create_locked pid object object_name options fails
    close_fd pid object
    return result

/-- The part of `unlink` that marks the channel, if the object holds one. -/
def mark_destroying (object : Nat) (fails : Syscall → Bool) : Prog Namespace Unit := do
  if fails .fstat then return ()
  let size ← fstat object
  if sizeof_managed_shared_header ≤ size ∧ size ≤ 2 ^ 64 - 1 then
    if fails .mmap then return ()
    let header ← mapped object (.load fun m => m.header)
    if header.magic = managed_simple_magic ∧ header.mapping_size = size then
      let _ ← mapped object unlink_mapping
      return ()
  return ()

/-- The part of `unlink` after the mapping: `shm_unlink` and the unlock. -/
def remove_and_unlock (pid object : Nat) (object_name : String) (fails : Syscall → Bool) :
    Prog Namespace (Except Exception Bool) := do
  if fails .shm_unlink then
    (if fails .unflock then pure () else flock_unlock pid object)
    return .error (if fails .unflock then .system_error "flock" else
      throw_errno "shm_unlink(managed channel)" object_name)
  let removed ← shm_unlink pid object
  if fails .unflock then return .error (.system_error "flock")
  flock_unlock pid object
  return .ok removed

/-- `managed_byte_channel::unlink` from its lock on. -/
def unlink_locked (pid object : Nat) (object_name : String) (fails : Syscall → Bool) :
    Prog Namespace (Except Exception Bool) := do
  if fails .flock then return .error (.system_error "flock")
  flock_exclusive pid object id
  mark_destroying object fails
  remove_and_unlock pid object object_name fails

/-- `managed_byte_channel::unlink`. -/
def unlink (pid : Nat) (name : String) (fails : Syscall → Bool) :
    Prog Namespace (Except Exception Bool) := do
  match managed_object_name name with
  | .error error => return .error error
  | .ok object_name =>
    if fails .shm_open then
      return .error (throw_errno "shm_open(unlink managed channel)" object_name)
    match ← shm_open with
    | none => return .ok false
    | some object =>
      let result ← unlink_locked pid object object_name fails
      close_fd pid object
      return result

/-- What a process asks for: a management call, or an operation on a channel
    that an earlier call has mapped. -/
inductive Request where
  | create (name : String) (options : ManagedChannelOptions)
  | open_existing (name : String) (protocol : ProtocolDescriptor)
  | open_or_create (name : String) (options : ManagedChannelOptions)
  | unlink (name : String)
  | operate (object : Nat) (op : Op) (c : Circumstances)

/-- How a request ends. -/
inductive Reply where
  | idle
  | mapped (result : Except Exception Nat)
  | unlinked (result : Except Exception Bool)
  | operated (outcome : Outcome)
  | dead
  deriving DecidableEq

/-- A process between two requests: the objects it has mapped, and the answer
    to its last request. -/
structure Client where
  handles : List Nat := []
  reply : Reply := .idle
  deriving DecidableEq

/-- The client after a call that may have mapped an object. -/
def Client.map (client : Client) (result : Except Exception Nat) : Client :=
  match result with
  | .ok object => ⟨object :: client.handles, .mapped result⟩
  | .error _ => ⟨client.handles, .mapped result⟩

def perform (pid : Nat) (client : Client) (request : Request) (fails : Syscall → Bool) :
    Prog Namespace Client :=
  match request with
  | .create name options =>
    create_managed_mapping pid name options fails >>= fun result => .ret (client.map result)
  | .open_existing name protocol =>
    open_managed_mapping pid name protocol fails >>= fun result => .ret (client.map result)
  | .open_or_create name options =>
    open_or_create_managed_mapping pid name options fails >>= fun result => .ret (client.map result)
  | .unlink name =>
    unlink pid name fails >>= fun result => .ret ⟨client.handles, .unlinked result⟩
  | .operate object op c =>
    mapped object (attempt pid op c) >>= fun outcome => .ret ⟨client.handles, .operated outcome⟩

/-- The name a management call uses. -/
def Request.name : Request → Option String
  | create name _ => some name
  | open_existing name _ => some name
  | open_or_create name _ => some name
  | unlink name => some name
  | operate _ _ _ => none

/-- All names that denote an object here denote the same one; operations need
    a handle. -/
def Request.admitted (object_name : String) (client : Client) (request : Request) : Prop :=
  (∀ name resolved, request.name = some name → managed_object_name name = .ok resolved →
    resolved = object_name) ∧
  ∀ object op c, request = .operate object op c → op ≠ .unlink ∧ object ∈ client.handles

/-- SIGKILL: the kernel closes the descriptors of the process and marks the
    mutexes it holds. -/
def Namespace.on_death (pid : Nat) (s : Namespace) : Namespace :=
  { s with objects := fun object => { s.objects object with
      memory := managed.on_death pid (s.objects object).memory
      exclusive := if (s.objects object).exclusive = some pid then none else (s.objects object).exclusive
      shared := (s.objects object).shared.filter (· ≠ pid) } }

/-- Processes that manage and use the channels under one name. `failures` says
    whether calls may be refused and processes killed. -/
def management (object_name : String) (failures : Bool) : Discipline Namespace Client Nat where
  starts pid client program := ∃ request fails, request.admitted object_name client ∧
    client.reply ≠ .dead ∧ (failures = false → fails = fun _ => false) ∧
      program = perform pid client request fails
  onDeath := Namespace.on_death
  mayDie _ _ := failures = true
  dead := { reply := .dead }

/-- Nothing has the name yet, and nobody has called. -/
def unnamed : Config Namespace Client Nat where
  shared := {}
  procs _ := .ret {}

end shmchan.managed
