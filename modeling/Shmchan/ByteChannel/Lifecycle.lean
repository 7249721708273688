import Shmchan.ByteChannel.Mapping

open process shmchan.endpoint

namespace shmchan.byte_channel

/-- Configurations of the processes that create, open, use and unlink
    `byte_channel`s. -/
abbrev RingSystem : Type := Config (Objects SharedHeader ByteRing) (Client Unit ByteChannel) Nat

/-- The object of a handle is a mapping of the right size and header, whose
    ring is in a state of the calls on one channel. -/
structure RingServing (handle : Handle Unit ByteChannel) (o : SharedObject (Mapping SharedHeader ByteRing)) :
    Prop where
  size : o.size = handle.mapping_size
  ring : handle.mapping_size = 576 + handle.channel.capacity_bytes
  name : handle.channel.name = handle.name
  initialization : o.memory.initialization = initialization_ready
  header : o.memory.header = created_header handle.channel.capacity_bytes handle.mapping_size
  calls : Reachable (discipline handle.channel) new_channel o.memory.live

section

variable {c c' : RingSystem} {pid : Nat} {client : Client Unit ByteChannel} {handle : Handle Unit ByteChannel}

/-- Whatever processes create, open, use and unlink under whatever names, and
    whoever is killed when: from the moment a process has a handle, its object is
    a complete ring of the handle's name and capacity, and all that happens in it
    is a run of the calls on this one channel. -/
theorem handles_serve_rings (hreach : Reachable format.system format.nothing c)
    (hshown : (c.procs pid).shown = some client) (hhandle : handle ∈ client.handles)
    (hlater : Reachable format.system c c') :
    RingServing handle (c'.shared.objects handle.object) ∧
      ∀ other client', (c'.procs other).shown = some client' → client'.answer ≠ .dead →
        client'.answer ≠ .called .unfinished →
          ∃ reply, reply ≠ .unfinished ∧ (c'.shared.objects handle.object).memory.live.procs other = .ret reply := by
  have hserves := system_serves format_lawful hreach hshown hhandle hlater
  obtain ⟨hsize, hready, hheader, hcalls⟩ := hserves.reachable
  obtain ⟨hname, hmapping⟩ := accepted_spec hserves.accepted
  refine ⟨⟨hsize, ?_, hname, hready, ?_, hcalls⟩, ?_⟩
  · rw [← data_offset_eq]
    exact (checked_mapping_size_eq hmapping).1
  · rw [hheader, made_eq]
  · intro other client' hother hdead hfinished
    exact (system_shown format_lawful (hreach.trans hlater) hother).rest hdead hfinished _ hserves.grown.ready

end

/-- The processes 0 and 1 create a ring for three bytes and more, and open it. -/
def bytes_opened : RingSystem :=
  format.first_request (format.first_request format.nothing 0 (.create () "/bytes" 35) 60) 1
    (.open_existing () "bytes") 60

theorem bytes_opened_reachable : Reachable format.system format.nothing bytes_opened :=
  first_request_reachable (first_request_reachable .refl rfl trivial)
    (first_request_procs Nat.one_ne_zero rfl) trivial

/-- The maker is killed. -/
theorem handles_serve_rings_opened : ∃ handle : Handle Unit ByteChannel, handle.channel.capacity_bytes = 64 ∧
    RingServing handle ((format.kill bytes_opened 0).shared.objects handle.object) := by
  have hopened : ((bytes_opened.procs 1).shown.map fun client =>
      client.handles.map fun h => h.channel.capacity_bytes) = some [64] := by decide +kernel
  obtain ⟨client, hshown, hhandles⟩ := Option.map_eq_some_iff.mp hopened
  obtain ⟨handle, hhandle, hcapacity⟩ := List.mem_map.mp (hhandles ▸ List.mem_singleton_self 64)
  exact ⟨handle, hcapacity,
    (handles_serve_rings bytes_opened_reachable hshown hhandle (kill_reachable .refl 0)).1⟩

end shmchan.byte_channel
