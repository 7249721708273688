import Shmchan.Process.Crash
import Shmchan.Managed.Management.Calls

open process

namespace shmchan.managed

/-- A program that only looks, in `s`, and returns `a`. -/
def Looks {α : Type} (s : Namespace) (p : Prog Namespace α) (a : α) : Prop :=
  CrashSafe (fun _ t => t = s) (fun result t => result = a ∧ t = s) p s

/-- The checks of `validate_managed_mapping` on a header. -/
def validated (header : ManagedSharedHeader) (mapping_size : Nat) (object_name : String)
    (protocol : ProtocolDescriptor) : Except Exception Unit :=
  if header.magic ≠ managed_simple_magic ∨ header.layout_version ≠ managed_simple_version ∨
      header.header_size ≠ sizeof_managed_shared_header ∨ header.mapping_size ≠ mapping_size ∨
      header.slot_size ≠ sizeof_managed_message_slot ∨ header.mutex_size ≠ sizeof_pthread_mutex ∨
      header.mutex_alignment ≠ alignof_pthread_mutex ∨
      header.initialization ≠ managed_initialization_ready then
    .error (.runtime_error ("shmchan: incompatible or incomplete managed channel: " ++ object_name))
  else if header.state > ManagedChannelState.destroying.word ∨
      header.reason > BreakReason.sequence_exhausted.word then
    .error (.runtime_error ("shmchan: invalid managed channel state: " ++ object_name))
  else validate_layout header mapping_size object_name protocol

/-- What an object holds, its locks apart. -/
structure Contents where
  size : Nat := 0
  memory : Memory := zeroed

def ShmObject.contents (o : ShmObject) : Contents := ⟨o.size, o.memory⟩

/-- The initialization word says ready. -/
def Contents.ready (c : Contents) : Bool :=
  decide (c.memory.header.initialization = managed_initialization_ready)

/-- The same bytes: an empty object has none. -/
def Contents.Same (c c' : Contents) : Prop := c.size = c'.size ∧ (c.size = 0 ∨ c.memory = c'.memory)

/-- What `ftruncate` leaves. -/
def Contents.truncate (size : Nat) (c : Contents) : Contents :=
  ⟨size, if size = 0 ∨ c.size = 0 then zeroed else c.memory⟩

def Contents.store (updates : List (Memory → Memory)) (c : Contents) : Contents :=
  { c with memory := updates.foldl (fun m store => store m) c.memory }

def Namespace.set_contents (s : Namespace) (object : Nat) (c : Contents) : Namespace :=
  s.set_object object fun o => { o with size := c.size, memory := c.memory }

/-- What `map_managed_fd_locked` returns for an object. -/
def mapping_of (object : Nat) (c : Contents) (object_name : String) (protocol : ProtocolDescriptor)
    (fails : Syscall → Bool) : Except Exception Nat :=
  if fails .fstat then .error (throw_errno "fstat(managed channel)" object_name)
  else if c.size < sizeof_managed_shared_header ∨ c.size > 2 ^ 64 - 1 then
    .error (.runtime_error ("shmchan: incomplete managed channel: " ++ object_name))
  else if fails .mmap then .error (throw_errno "mmap(open managed channel)" object_name)
  else match validated c.memory.header c.size object_name protocol with
    | .error error => .error error
    | .ok _ => if fails .allocation then .error .bad_alloc else .ok object

/-- The decision that `open_or_create` makes about an object. -/
def probed (c : Contents) (object_name : String) (fails : Syscall → Bool) : Except Exception Bool :=
  if fails .probe_fstat then
    .error (throw_errno "fstat(open_or_create managed channel)" object_name)
  else if c.size = 0 then .ok true
  else if sizeof_managed_shared_header ≤ c.size then
    if c.size > 2 ^ 64 - 1 then
      .error (.runtime_error ("shmchan: managed channel object is too large: " ++ object_name))
    else if fails .probe_mmap then .error (throw_errno "mmap(probe managed channel)" object_name)
    else .ok !c.ready
  else .ok true

/-- What `initialize_managed_mapping_locked` returns and leaves of an object. -/
def initialization_of (object : Nat) (c : Contents) (object_name : String)
    (options : ManagedChannelOptions) (fails : Syscall → Bool) : Except Exception Nat × Contents :=
  match checked_managed_layout options.message_capacity options.max_message_size with
  | .error error => (.error error, c)
  | .ok layout =>
    if fails .ftruncate then (.error (throw_errno "ftruncate(managed channel)" object_name), c)
    else
      let sized := c.truncate layout.mapping_size
      if fails .mmap then (.error (throw_errno "mmap(create managed channel)" object_name), sized)
      else
        let prepared := sized.store (initialize_prologue options layout)
        match refused_mutex_call fails with
        | some operation => (.error (.system_error operation), prepared)
        | none =>
          let finished := prepared.store initialize_finish
          if fails .allocation then (.error .bad_alloc, finished) else (.ok object, finished)

/-- What `open_or_create` returns for an object it does not initialise. -/
def matched (object : Nat) (c : Contents) (object_name : String) (options : ManagedChannelOptions)
    (fails : Syscall → Bool) : Except Exception Nat :=
  match mapping_of object c object_name options.protocol fails with
  | .error error => .error error
  | .ok mapping =>
    if c.memory.header.message_capacity ≠ options.message_capacity ∨
        c.memory.header.max_message_size ≠ options.max_message_size then
      .error (.invalid_argument "shmchan: open_or_create options do not match the existing channel")
    else .ok mapping

/-- What `initialize_or_map` returns and leaves of an object. -/
def initialized_or_mapped (object : Nat) (c : Contents) (object_name : String)
    (options : ManagedChannelOptions) (fails : Syscall → Bool) (needs_initialization : Bool) :
    Except Exception Nat × Contents :=
  if needs_initialization then
    if fails .reset_ftruncate then
      (.error (throw_errno "ftruncate(reset managed channel)" object_name), c)
    else initialization_of object (c.truncate 0) object_name options fails
  else (matched object c object_name options fails, c)

/-- What `open_or_create` returns and leaves of the object it has opened. -/
def opened_or_created (object : Nat) (c : Contents) (object_name : String)
    (options : ManagedChannelOptions) (fails : Syscall → Bool) : Except Exception Nat × Contents :=
  if fails .flock then (.error (.system_error "flock"), c)
  else match probed c object_name fails with
    | .error error => (.error error, c)
    | .ok needs_initialization =>
      let attempted := initialized_or_mapped object c object_name options fails needs_initialization
      match attempted.1 with
      | .error error => (.error error, attempted.2)
      | .ok mapping =>
        (if fails .unflock then .error (.system_error "flock") else .ok mapping, attempted.2)

section

variable {pid k : Nat} {s s' : Namespace} {α β : Type} {G : Namespace → Namespace → Prop}
  {post : β → Namespace → Prop}

theorem Looks.ret {a : α} : Looks s (.ret a) a := ⟨rfl, rfl⟩

theorem Looks.then {p : Prog Namespace α} {a : α} {f : α → Prog Namespace β} (hp : Looks s p a)
    (hs : G s s) (hf : CrashSafe G post (f a) s) : CrashSafe G post (p >>= f) s := by
  have hquiet : CrashSafe G (fun result t => result = a ∧ t = s) p s := by
    revert hp
    induction p with
    | ret b => exact fun hp => hp
    | act enabled update next ih =>
      rintro ⟨hupdate, hnext⟩
      change update s = s at hupdate
      rw [hupdate] at hnext
      refine ⟨?_, ?_⟩
      · rw [hupdate]
        exact hs
      · rw [hupdate]
        exact ih s hnext
  apply hquiet.bind
  rintro _ _ ⟨rfl, rfl⟩
  exact hf

theorem Looks.bind {p : Prog Namespace α} {a : α} {b : β} {f : α → Prog Namespace β} (hp : Looks s p a)
    (hf : Looks s (f a) b) : Looks s (p >>= f) b :=
  hp.then (G := fun _ t => t = s) rfl hf

theorem Looks.load (f : Namespace → α) : Looks s (.load f) (f s) := ⟨rfl, rfl, rfl⟩

theorem Looks.mapped_load (f : Memory → α) :
    Looks s (mapped k (.load f)) (f (s.objects k).contents.memory) :=
  ⟨set_memory_id k s, rfl, set_memory_id k s⟩

theorem Looks.exec {p : Prog Namespace α} {a : α} (h : Looks s p a) : p.exec s = (a, s) := by
  obtain ⟨hresult, hstate⟩ := CrashSafe.exec h
  exact Prod.ext hresult hstate

theorem validate_managed_mapping_looks (mapping_size : Nat) (object_name : String)
    (protocol : ProtocolDescriptor) :
    Looks s (validate_managed_mapping k mapping_size object_name protocol)
      (validated (s.objects k).contents.memory.header mapping_size object_name protocol) := by
  unfold validate_managed_mapping validated
  apply (Looks.mapped_load _).bind
  split
  · exact .ret
  apply (Looks.mapped_load _).bind
  apply (Looks.mapped_load _).bind
  split <;> exact .ret

theorem map_managed_fd_locked_looks (object_name : String) (protocol : ProtocolDescriptor)
    (fails : Syscall → Bool) :
    Looks s (map_managed_fd_locked k object_name protocol fails)
      (mapping_of k (s.objects k).contents object_name protocol fails) := by
  unfold map_managed_fd_locked mapping_of
  split
  · exact .ret
  apply (Looks.load fun s => (s.objects k).contents.size).bind
  split
  · exact .ret
  split
  · exact .ret
  apply (validate_managed_mapping_looks _ object_name protocol).bind
  cases validated (s.objects k).contents.memory.header (s.objects k).contents.size object_name protocol with
  | error error => exact .ret
  | ok _ =>
    simp only
    split <;> exact .ret

theorem probe_initialization_looks (object_name : String) (fails : Syscall → Bool) :
    Looks s (probe_initialization k object_name fails) (probed (s.objects k).contents object_name fails) := by
  unfold probe_initialization probed
  split
  · exact .ret
  apply (Looks.load fun s => (s.objects k).contents.size).bind
  split
  · exact .ret
  split
  · split
    · exact .ret
    split
    · exact .ret
    apply (Looks.mapped_load _).bind
    rw [Contents.ready, ← decide_not]
    exact .ret
  · exact .ret

theorem matched_looks (object_name : String) (options : ManagedChannelOptions) (fails : Syscall → Bool) :
    Looks s (initialize_or_map k object_name options fails false)
      (matched k (s.objects k).contents object_name options fails) := by
  unfold initialize_or_map matched
  simp only [Bool.false_eq_true, if_false]
  apply (map_managed_fd_locked_looks object_name options.protocol fails).bind
  cases mapping_of k (s.objects k).contents object_name options.protocol fails with
  | error error => exact .ret
  | ok mapping =>
    apply (Looks.mapped_load _).bind
    split <;> exact .ret

@[simp] theorem set_contents_contents (c : Contents) :
    ((s.set_contents k c).objects k).contents = c := by
  rw [Namespace.set_contents, set_object_self]
  rfl

@[simp] theorem set_contents_set_contents (c c' : Contents) :
    (s.set_contents k c).set_contents k c' = s.set_contents k c' := by
  simp only [Namespace.set_contents, Namespace.set_object, Function.update_self, Function.update_idem]

/-- An object is mapped only as what it was opened as, and only when it passes
    all checks. -/
theorem mapping_of_ok {c : Contents} {object : Nat} {object_name : String} {protocol : ProtocolDescriptor}
    {fails : Syscall → Bool} (hok : mapping_of k c object_name protocol fails = .ok object) :
    object = k ∧ sizeof_managed_shared_header ≤ c.size ∧ c.size ≤ 2 ^ 64 - 1 ∧
      validated c.memory.header c.size object_name protocol = .ok () := by
  unfold mapping_of at hok
  split at hok
  · cases hok
  split at hok
  · cases hok
  next hsize =>
  split at hok
  · cases hok
  split at hok
  · cases hok
  next hvalidated =>
  split at hok
  · cases hok
  simp only [not_or, not_lt] at hsize
  exact ⟨(Except.ok.inj hok).symm, hsize.1, hsize.2, hvalidated⟩

theorem set_contents_self : s.set_contents k (s.objects k).contents = s := by
  simp only [Namespace.set_contents, Namespace.set_object, ShmObject.contents, Function.update_eq_self]

theorem ftruncate_exec (size : Nat) :
    (ftruncate k size).exec s = ((), s.set_contents k ((s.objects k).contents.truncate size)) := rfl

theorem mapped_stores_exec (updates : List (Memory → Memory)) :
    (mapped k (.stores updates)).exec s = ((), s.set_contents k ((s.objects k).contents.store updates)) := by
  induction updates generalizing s with
  | nil => exact Prod.ext rfl set_contents_self.symm
  | cons update rest ih =>
    have hstep : (mapped k (.stores (update :: rest))).exec s =
        (mapped k (.stores rest)).exec (s.set_contents k ((s.objects k).contents.store [update])) := rfl
    rw [hstep, ih, set_contents_contents, set_contents_set_contents]
    rfl

theorem initialize_managed_mapping_locked_exec (object_name : String) (options : ManagedChannelOptions)
    (fails : Syscall → Bool) :
    (initialize_managed_mapping_locked k object_name options fails).exec s =
      ((initialization_of k (s.objects k).contents object_name options fails).1,
        s.set_contents k (initialization_of k (s.objects k).contents object_name options fails).2) := by
  unfold initialize_managed_mapping_locked initialization_of
  cases checked_managed_layout options.message_capacity options.max_message_size with
  | error error => exact Prod.ext rfl set_contents_self.symm
  | ok layout =>
    simp only
    split
    · exact Prod.ext rfl set_contents_self.symm
    rw [Prog.exec_bind, ftruncate_exec]
    split
    · rfl
    rw [Prog.exec_bind, mapped_stores_exec, set_contents_contents, set_contents_set_contents]
    cases refused_mutex_call fails with
    | some operation => rfl
    | none =>
      simp only
      rw [Prog.exec_bind, mapped_stores_exec, set_contents_contents, set_contents_set_contents]
      split <;> rfl

theorem initialize_or_map_exec (object_name : String) (options : ManagedChannelOptions)
    (fails : Syscall → Bool) (needs_initialization : Bool) :
    (initialize_or_map k object_name options fails needs_initialization).exec s =
      ((initialized_or_mapped k (s.objects k).contents object_name options fails needs_initialization).1,
        s.set_contents k
          (initialized_or_mapped k (s.objects k).contents object_name options fails needs_initialization).2) := by
  cases needs_initialization with
  | false =>
    rw [(matched_looks object_name options fails).exec]
    exact Prod.ext rfl set_contents_self.symm
  | true =>
    unfold initialize_or_map initialized_or_mapped
    simp only [if_true]
    split
    · exact Prod.ext rfl set_contents_self.symm
    rw [Prog.exec_bind, ftruncate_exec, initialize_managed_mapping_locked_exec, set_contents_contents,
      set_contents_set_contents]

theorem unlock_contents (object : Nat) :
    ((s.unlock pid k).objects object).contents = (s.objects object).contents := by
  by_cases hobject : object = k
  · subst hobject
    rw [Namespace.unlock, set_object_self]
    rfl
  · rw [Namespace.unlock, set_object_of_ne hobject]

theorem note_open_or_create_keeps (options : ManagedChannelOptions) :
    (s.note_open_or_create k options).linked = s.linked ∧
      (s.note_open_or_create k options).objects = s.objects := by
  unfold Namespace.note_open_or_create
  split <;> exact ⟨rfl, rfl⟩

/-- What a call has done to the name and to one object, locks apart. -/
structure Leaves (s t : Namespace) (k : Nat) (c : Contents) : Prop where
  linked : t.linked = s.linked
  contents : (t.objects k).contents = c

theorem Leaves.unlock {t : Namespace} {c : Contents} (h : Leaves s t k c) :
    Leaves s (t.unlock pid k) k c :=
  ⟨h.linked, (unlock_contents k).trans h.contents⟩

theorem open_or_create_locked_exec (object_name : String) (options : ManagedChannelOptions)
    (fails : Syscall → Bool) :
    let effect := opened_or_created k (s.objects k).contents object_name options fails
    ((open_or_create_locked pid k object_name options fails).exec s).1 = effect.1 ∧
      Leaves s ((open_or_create_locked pid k object_name options fails).exec s).2 k effect.2 := by
  unfold open_or_create_locked opened_or_created
  split
  · exact ⟨rfl, rfl, rfl⟩
  let s₁ : Namespace := (s.note_open_or_create k options).set_object k fun o =>
    { o with exclusive := some pid }
  have hlinked : s₁.linked = s.linked := (note_open_or_create_keeps options).1
  have hcontents : (s₁.objects k).contents = (s.objects k).contents := by
    simp only [s₁, set_object_self, (note_open_or_create_keeps options).2]
    rfl
  have hlock : (flock_exclusive pid k (Namespace.note_open_or_create k options)).exec s = ((), s₁) := rfl
  rw [Prog.exec_bind, hlock, Prog.exec_bind, (probe_initialization_looks object_name fails).exec,
    hcontents]
  cases probed (s.objects k).contents object_name fails with
  | error error => exact ⟨rfl, hlinked, hcontents⟩
  | ok needs_initialization =>
    simp only
    rw [Prog.exec_bind, initialize_or_map_exec, hcontents]
    cases (initialized_or_mapped k (s.objects k).contents object_name options fails
      needs_initialization).1 with
    | error error => exact ⟨rfl, hlinked, set_contents_contents _⟩
    | ok mapping =>
      simp only
      split
      · exact ⟨rfl, hlinked, set_contents_contents _⟩
      · exact ⟨rfl, Leaves.unlock ⟨hlinked, set_contents_contents _⟩⟩

/-- `open_or_create` in closed form: what it returns, and what it leaves of the
    name and of the object behind it. -/
theorem open_or_create_exec {name object_name : String} (options : ManagedChannelOptions)
    {fails : Syscall → Bool} (hname : (normalize_name name >>= managed_object_name) = .ok object_name)
    (hopen : fails .shm_open = false) :
    let k := s.linked.getD s.next
    let effect := opened_or_created k (if s.linked = none then {} else (s.objects k).contents)
      object_name options fails
    ((open_or_create_managed_mapping pid name options fails).exec s).1 = effect.1 ∧
      ((open_or_create_managed_mapping pid name options fails).exec s).2.linked = some k ∧
      (((open_or_create_managed_mapping pid name options fails).exec s).2.objects k).contents = effect.2 := by
  unfold open_or_create_managed_mapping
  simp only [hname, hopen, Bool.false_eq_true, if_false]
  have hclose {result : Except Exception Nat} {t : Namespace} {k : Nat} :
      (close_fd pid k >>= fun _ => .ret result).exec t = (result, t.unlock pid k) := rfl
  cases hlinked : s.linked with
  | none =>
    have hshm : shm_open_or_create.exec s = (s.next, s.add_object) := by
      simp only [shm_open_or_create, Prog.modifyGet, Prog.exec_act, Prog.exec_ret, hlinked,
        Option.getD_none, if_true]
    have hnew : (s.add_object.objects s.next).contents = {} := by
      simp only [Namespace.add_object, Function.update_self]
      rfl
    obtain ⟨hresult, hleaves⟩ :=
      @open_or_create_locked_exec pid s.next s.add_object object_name options fails
    rw [hnew] at hresult hleaves
    rw [Prog.exec_bind, hshm, Prog.exec_bind]
    simp only [Option.getD_none, if_true, Prog.pure_eq]
    rw [hclose, hresult]
    exact ⟨rfl, hleaves.unlock.linked, hleaves.unlock.contents⟩
  | some k =>
    have hshm : shm_open_or_create.exec s = (k, s) := by
      simp only [shm_open_or_create, Prog.modifyGet, Prog.exec_act, Prog.exec_ret, hlinked,
        Option.getD_some, reduceCtorEq, if_false]
    obtain ⟨hresult, hleaves⟩ := @open_or_create_locked_exec pid k s object_name options fails
    rw [Prog.exec_bind, hshm, Prog.exec_bind]
    simp only [Option.getD_some, reduceCtorEq, if_false, Prog.pure_eq]
    rw [hclose, hresult]
    exact ⟨rfl, hleaves.unlock.linked.trans hlinked, hleaves.unlock.contents⟩

theorem note_create_keeps (options : ManagedChannelOptions) :
    (s.note_create k options).linked = s.linked ∧ (s.note_create k options).objects = s.objects := by
  unfold Namespace.note_create
  split <;> exact ⟨rfl, rfl⟩

/-- With usable options and no refused call, `create` makes a channel where
    nothing has the name. -/
theorem create_exec {name object_name : String} {options : ManagedChannelOptions} {layout : ManagedLayout}
    (hname : (normalize_name name >>= managed_object_name) = .ok object_name) (hlinked : s.linked = none)
    (hlayout : checked_managed_layout options.message_capacity options.max_message_size = .ok layout) :
    ((create_managed_mapping pid name options fun _ => false).exec s).1 = .ok s.next := by
  have hshm : shm_open_exclusive.exec s = (some s.next, s.add_object) := by
    simp only [shm_open_exclusive, Prog.modifyGet, Prog.exec_act, Prog.exec_ret, hlinked, if_true]
  have hresult (t : Namespace) :
      ((create_locked pid s.next object_name options fun _ => false).exec t).1 = .ok s.next := by
    have hlock : (flock_exclusive pid s.next (Namespace.note_create s.next options)).exec t =
        ((), (t.note_create s.next options).set_object s.next fun o => { o with exclusive := some pid }) := rfl
    unfold create_locked
    simp only [Bool.false_eq_true, if_false]
    rw [Prog.exec_bind, hlock, Prog.exec_bind, initialize_managed_mapping_locked_exec]
    simp only [initialization_of, hlayout, refused_mutex_call, Bool.false_eq_true, if_false]
    rfl
  unfold create_managed_mapping
  simp only [hname, Bool.false_eq_true, if_false]
  rw [Prog.exec_bind, hshm]
  simp only
  rw [Prog.exec_bind, hresult]
  rfl

end

end shmchan.managed
