import Shmchan.Channel.Mapping

open process shmchan.endpoint

namespace shmchan.channel

/-- Configurations of the processes that create, open, use and unlink `channel`s. -/
abbrev ChannelSystem : Type := Config (Objects SharedHeader SlotRing) (Client ElementType Channel) Nat

/-- The object of a handle is a mapping of the right size and header, whose
    channel is in a state of the calls on one channel. -/
structure Serving (handle : Handle ElementType Channel) (o : SharedObject (Mapping SharedHeader SlotRing)) :
    Prop where
  size : o.size = handle.mapping_size
  slots : handle.mapping_size = slots_offset + handle.channel.capacity * slot_size handle.kind.size
  element_size : handle.channel.element_size = handle.kind.size
  initialization : o.memory.initialization = initialization_ready
  header : o.memory.header = created_header handle.kind handle.channel.capacity handle.mapping_size
  calls : Reachable (discipline handle.channel) new_channel o.memory.live

section

variable {c c' : ChannelSystem} {pid : Nat} {client : Client ElementType Channel}
  {handle : Handle ElementType Channel}

/-- Whatever processes create, open, use and unlink under whatever names, and
    whoever is killed when: from the moment a process has a handle, its object is
    a complete channel of the handle's type and capacity, and all that happens in
    it is a run of the calls on this one channel. A process that is between two
    requests is between two calls there. -/
theorem handles_serve_channels (hreach : Reachable format.system format.nothing c)
    (hshown : (c.procs pid).shown = some client) (hhandle : handle ∈ client.handles)
    (hlater : Reachable format.system c c') :
    Serving handle (c'.shared.objects handle.object) ∧
      ∀ other client', (c'.procs other).shown = some client' → client'.answer ≠ .dead →
        client'.answer ≠ .called .unfinished →
          ∃ reply, reply ≠ .unfinished ∧ (c'.shared.objects handle.object).memory.live.procs other = .ret reply := by
  have hserves := system_serves format_lawful hreach hshown hhandle hlater
  obtain ⟨hsize, hready, hheader, hcalls⟩ := hserves.reachable
  obtain ⟨hslots, helement⟩ := accepted_spec hserves.accepted
  refine ⟨⟨hsize, hslots, helement, hready, ?_, hcalls⟩, ?_⟩
  · rw [hheader, made_eq]
  · intro other client' hother hdead hfinished
    exact (system_shown format_lawful (hreach.trans hlater) hother).rest hdead hfinished _ hserves.grown.ready

/-- What `create` and `open` answer is true of what the actions of this very
    call have found, and of the objects in every later state, whatever the other
    processes do in the meantime. A handle is one on a whole channel, on the
    object that `open` has found. An object that `open` calls not initialised has
    lost its maker, and will never be ready; a mismatch comes from a channel of
    another type. -/
theorem answers_are_truthful {request : Request ElementType SlotRing Channel} {fails : Syscall → Bool}
    {own : Executed SharedHeader SlotRing} {c₀ : ChannelSystem} {client' : Client ElementType Channel}
    (hreach : Reachable format.system format.nothing c₀) (hprocs : c₀.procs pid = .ret client)
    (halive : client.answer ≠ .dead) (hended : client.answer ≠ .called .unfinished)
    (hadmitted : format.Admitted pid client request)
    (hown : OwnRun format.system (fun _ => False) pid
      ⟨c₀.shared, Function.update c₀.procs pid (format.perform pid client fails request)⟩ own c)
    (hshown : (c.procs pid).shown = some client') (hlater : Reachable format.system c c') :
    Truthful format_lawful fails own c'.shared client'.answer :=
  system_truthful format_lawful hreach hprocs halive hended hadmitted hown hshown hlater

end

def int64 : ElementType := ⟨8, 8, 0xcbf29ce484222325⟩

/-- The processes 0 and 1 create a channel of two integers and open it. -/
def jobs_opened : ChannelSystem :=
  format.first_request (format.first_request format.nothing 0 (.create int64 "jobs" 2) 60) 1
    (.open_existing int64 "/jobs") 60

theorem jobs_opened_reachable : Reachable format.system format.nothing jobs_opened :=
  first_request_reachable (first_request_reachable .refl rfl trivial)
    (first_request_procs Nat.one_ne_zero rfl) trivial

/-- The maker is killed, and a third process removes the name. -/
def jobs_removed : ChannelSystem := format.first_request (format.kill jobs_opened 0) 2 (.unlink "jobs") 1

theorem jobs_removed_later : Reachable format.system jobs_opened jobs_removed := by
  refine first_request_reachable (kill_reachable .refl 0) (kill_procs ?_ ?_) trivial
  · decide
  · exact first_request_procs (by decide) (first_request_procs (by decide) rfl)

/-- The second process still has a whole channel. -/
theorem handles_serve_channels_opened : ∃ handle : Handle ElementType Channel, handle.channel.capacity = 2 ∧
    Serving handle (jobs_removed.shared.objects handle.object) := by
  have hopened : ((jobs_opened.procs 1).shown.map fun client =>
      client.handles.map fun h => h.channel.capacity) = some [2] := by decide +kernel
  obtain ⟨client, hshown, hhandles⟩ := Option.map_eq_some_iff.mp hopened
  obtain ⟨handle, hhandle, hcapacity⟩ := List.mem_map.mp (hhandles ▸ List.mem_singleton_self 2)
  exact ⟨handle, hcapacity,
    (handles_serve_channels jobs_opened_reachable hshown hhandle jobs_removed_later).1⟩

/-- The maker of a channel is killed after four actions: it has given the object
    its size. -/
def jobs_unmade : ChannelSystem :=
  format.kill (format.first_request format.nothing 0 (.create int64 "jobs" 2) 4) 0

theorem jobs_unmade_reachable : Reachable format.system format.nothing jobs_unmade := by
  have hcreated : Reachable format.system format.nothing
      (format.first_request format.nothing 0 (.create int64 "jobs" 2) 4) :=
    first_request_reachable .refl rfl trivial
  exact kill_reachable hcreated 0

/-- Another process begins to open it. -/
def jobs_opening : ChannelSystem :=
  ⟨jobs_unmade.shared, Function.update jobs_unmade.procs 1
    (format.perform 1 {} (fun _ => false) (.open_existing int64 "jobs"))⟩

/-- Afterwards a third process removes the name. -/
def jobs_forgotten : ChannelSystem := format.first_request (jobs_opening.advance 1 60) 2 (.unlink "jobs") 1

theorem answers_are_truthful_abandoned : ∃ client : Client ElementType Channel,
    client.answer.error = some (.runtime_error "shmchan: shared-memory object is not initialized: /jobs") ∧
      Truthful format_lawful (fun _ => false) (jobs_opening.own_actions 1 60) jobs_forgotten.shared
        client.answer := by
  have hidle (pid : Nat) (hpid : pid ≠ 0) : jobs_unmade.procs pid = .ret {} :=
    kill_procs hpid (first_request_procs hpid rfl)
  have hopened : ((jobs_opening.advance 1 60).procs 1).shown.map (fun client => client.answer.error) =
      some (some (.runtime_error "shmchan: shared-memory object is not initialized: /jobs")) := by decide +kernel
  obtain ⟨client, hshown, herror⟩ := Option.map_eq_some_iff.mp hopened
  have hlater : Reachable format.system (jobs_opening.advance 1 60) jobs_forgotten := by
    refine first_request_reachable .refl ?_ trivial
    have hne : 2 ≠ 1 := by decide
    rw [Config.advance_procs_of_ne hne, jobs_opening]
    simp only [Function.update_of_ne hne]
    exact hidle 2 (by decide)
  have hadmitted : format.Admitted 1 {} (.open_existing int64 "jobs") := trivial
  have hown : OwnRun format.system (fun _ => False) 1 jobs_opening (jobs_opening.own_actions 1 60)
      (jobs_opening.advance 1 60) := OwnRun.advance .refl 60
  exact ⟨client, herror, answers_are_truthful jobs_unmade_reachable (hidle 1 (by decide)) (by rintro ⟨⟩)
    (by rintro ⟨⟩) hadmitted hown hshown hlater⟩

end shmchan.channel
