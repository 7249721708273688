import Shmchan.Endpoint.Mapping
import Shmchan.Process.Making

open process

namespace shmchan.endpoint

section

variable {Kind Header Ring Channel : Type}

/-- The mapping that a completed `create` leaves behind. -/
def Format.made (F : Format Kind Header Ring Channel) (kind : Kind) (layout : Layout Channel) :
    Mapping Header Ring :=
  { (F.stores kind layout).foldl (fun m update => update m) (F.zeroed (F.capacity layout.channel)) with
    initialization := initialization_ready }

/-- The layout that `create` computes for some requested capacity. -/
def Format.Accepted (F : Format Kind Header Ring Channel) (kind : Kind) (name : String) (layout : Layout Channel) :
    Prop :=
  ∃ capacity, F.layout kind name capacity = .ok layout

/-- What the parts of a format have to do with each other: `create` makes the
    initialization word ready at the very end, in a mapping that holds a new
    channel (`new`) and that `validate` accepts for the same kind only. -/
structure Format.Lawful [DecidableEq Kind] (F : Format Kind Header Ring Channel) (new : Endpoint Ring Bytes)
    (mismatch : String → Exception → Prop) : Prop where
  zeroed_unready : ∀ capacity, (F.zeroed capacity).initialization ≠ initialization_ready
  stores_unready : ∀ kind layout, ∀ update ∈ F.stores kind layout, ∀ m,
    m.initialization ≠ initialization_ready → (update m).initialization ≠ initialization_ready
  sizeof_header : 0 < F.sizeof_header
  mapping_size : ∀ {kind name layout}, F.Accepted kind name layout → F.sizeof_header ≤ layout.mapping_size
  made_live : ∀ {kind name layout}, F.Accepted kind name layout →
    (F.made kind layout).live = ⟨new, fun _ => .ret .idle⟩
  validate_made : ∀ {kind name layout}, F.Accepted kind name layout →
    F.validate kind name (F.made kind layout).header layout.mapping_size = .ok layout.channel
  validate_other : ∀ {kind kind' name layout}, F.Accepted kind name layout → kind' ≠ kind →
    ∃ error, F.validate kind' name (F.made kind layout).header layout.mapping_size = .error error ∧
      mismatch name error
  channel_unique : ∀ {kind kind' name layout layout'}, F.Accepted kind name layout →
    F.Accepted kind' name layout' → (F.made kind layout).header = (F.made kind' layout').header →
      layout.channel = layout'.channel

namespace Format

variable (F : Format Kind Header Ring Channel)

/-- The steps of a process on a ready mapping: its calls go on as in the system
    of the one channel. -/
structure CallStep (name : String) (pid : Nat) (m m' : Mapping Header Ring) : Prop where
  initialization : m'.initialization = m.initialization
  header : m'.header = m.header
  others : ∀ other, other ≠ pid → m'.live.procs other = m.live.procs other
  steps : ∀ kind layout, F.Accepted kind name layout → m.header = (F.made kind layout).header →
    Reachable (F.discipline layout.channel) m.live m'.live

variable [DecidableEq Kind] {F} {new : Endpoint Ring Bytes} {mismatch : String → Exception → Prop}

/-- The objects of a format, from their making to their calls. -/
def Lawful.life (hF : F.Lawful new mismatch) : ObjectLife (Mapping Header Ring) where
  ready m := decide (m.initialization = initialization_ready)
  Born name size m := ∃ kind layout, F.Accepted kind name layout ∧ size = layout.mapping_size ∧
    m = F.made kind layout
  Operation := F.CallStep
  idle pid m := ∃ reply, reply ≠ .unfinished ∧ m.live.procs pid = .ret reply
  keeps hstep hready := by
    rw [hstep.initialization]
    exact hready
  born_idle := by
    rintro name size _ ⟨kind, layout, haccepted, _, rfl⟩ pid
    rw [hF.made_live haccepted]
    exact ⟨.idle, (by rintro ⟨⟩), rfl⟩
  others_idle := by
    rintro name other pid m m' hstep hother ⟨reply, hfinished, hprog⟩
    exact ⟨reply, hfinished, (hstep.others pid hother.symm).trans hprog⟩

end Format

section

variable [DecidableEq Kind] {F : Format Kind Header Ring Channel} {new : Endpoint Ring Bytes}
  {mismatch : String → Exception → Prop}

/-- The handle refers to a whole object of its name and kind: the object has
    the size that is mapped, and it holds a channel that only calls have changed
    since `create` has made it. -/
structure Serves (hF : F.Lawful new mismatch) (h : Handle Kind Channel) (s : Objects Header Ring) : Prop where
  accepted : F.Accepted h.kind h.name ⟨h.channel, h.mapping_size⟩
  grown : hF.life.Grown h.object h.name h.mapping_size (F.made h.kind ⟨h.channel, h.mapping_size⟩) s

/-- The actions that a call has executed, as the states before and after each. -/
abbrev Executed (Header Ring : Type) : Type := List (Objects Header Ring × Objects Header Ring)

/-- The exceptions of `create`, and what the call has found: the name was taken,
    or the kernel has refused the operation that the exception names. -/
inductive CreateRefused (F : Format Kind Header Ring Channel) (fails : Syscall → Bool)
    (own : Executed Header Ring) (kind : Kind) (name : String) (capacity : Nat) : Exception → Prop where
  | name {error : Exception} (h : managed.normalize_name name = .error error) :
      CreateRefused F fails own kind name capacity error
  | capacity {normalized : String} {error : Exception} (h : managed.normalize_name name = .ok normalized)
      (hlayout : F.layout kind normalized capacity = .error error) :
      CreateRefused F fails own kind name capacity error
  | shm_open {normalized : String} (h : managed.normalize_name name = .ok normalized)
      (hfound : fails .shm_open = true ∨ ∃ object, ObjectLife.Finds own normalized (some object)) :
      CreateRefused F fails own kind name capacity (managed.throw_errno F.create_operation normalized)
  | ftruncate {normalized : String} (h : managed.normalize_name name = .ok normalized)
      (hfails : fails .ftruncate = true) :
      CreateRefused F fails own kind name capacity (managed.throw_errno "ftruncate" normalized)
  | mmap {normalized : String} (h : managed.normalize_name name = .ok normalized) (hfails : fails .mmap = true) :
      CreateRefused F fails own kind name capacity (managed.throw_errno "mmap" normalized)
  | flock (hfails : fails .flock = true ∨ fails .unflock = true) :
      CreateRefused F fails own kind name capacity (.system_error "flock")

/-- The exceptions of `open`, what the call has found, and what that says of the
    object it has found: one that is not initialised has been given up by its
    maker, and one that does not match has been created for another kind. -/
inductive OpenRefused (hF : F.Lawful new mismatch) (fails : Syscall → Bool) (own : Executed Header Ring)
    (kind : Kind) (name : String) (s : Objects Header Ring) : Exception → Prop where
  | name {error : Exception} (h : managed.normalize_name name = .error error) :
      OpenRefused hF fails own kind name s error
  | shm_open {normalized : String} (h : managed.normalize_name name = .ok normalized)
      (hfound : fails .shm_open = true ∨ ObjectLife.Finds own normalized none) :
      OpenRefused hF fails own kind name s (managed.throw_errno F.open_operation normalized)
  | fstat {normalized : String} (h : managed.normalize_name name = .ok normalized) (hfails : fails .fstat = true) :
      OpenRefused hF fails own kind name s (managed.throw_errno "fstat" normalized)
  | mmap {normalized : String} (h : managed.normalize_name name = .ok normalized) (hfails : fails .mmap = true) :
      OpenRefused hF fails own kind name s (managed.throw_errno "mmap" normalized)
  | flock (hfails : fails .flock = true ∨ fails .unflock = true) :
      OpenRefused hF fails own kind name s (.system_error "flock")
  | incomplete {normalized : String} {object : Nat} (h : managed.normalize_name name = .ok normalized)
      (hfound : ObjectLife.Finds own normalized (some object))
      (hsize : ∃ x ∈ own, (x.1.objects object).size < F.sizeof_header) :
      OpenRefused hF fails own kind name s
        (.runtime_error ("shmchan: shared-memory object is incomplete: " ++ normalized))
  | abandoned {normalized : String} {object : Nat} (h : managed.normalize_name name = .ok normalized)
      (hfound : ObjectLife.Finds own normalized (some object))
      (hunready : ∃ x ∈ own, (x.1.objects object).memory.initialization ≠ initialization_ready)
      (hname : (s.objects object).name = normalized) (habandoned : hF.life.Abandoned (s.objects object)) :
      OpenRefused hF fails own kind name s
        (.runtime_error ("shmchan: shared-memory object is not initialized: " ++ normalized))
  | mismatch {normalized : String} {other : Handle Kind Channel} {error : Exception}
      (h : managed.normalize_name name = .ok normalized)
      (hfound : ObjectLife.Finds own normalized (some other.object)) (hname : other.name = normalized)
      (hkind : kind ≠ other.kind) (hserves : Serves hF other s) (herror : mismatch normalized error) :
      OpenRefused hF fails own kind name s error

/-- What the answer to a request says, of what its call has found and of the
    objects ever after. -/
def Truthful (hF : F.Lawful new mismatch) (fails : Syscall → Bool) (own : Executed Header Ring)
    (s : Objects Header Ring) : Answer Kind Channel → Prop
  | .created kind name capacity (.ok h) => h.kind = kind ∧ managed.normalize_name name = .ok h.name ∧
      F.layout kind h.name capacity = .ok ⟨h.channel, h.mapping_size⟩ ∧
      ObjectLife.Finds own h.name none ∧ Serves hF h s
  | .created kind name capacity (.error error) => CreateRefused F fails own kind name capacity error
  | .opened kind name (.ok h) => h.kind = kind ∧ managed.normalize_name name = .ok h.name ∧
      ObjectLife.Finds own h.name (some h.object) ∧ Serves hF h s
  | .opened kind name (.error error) => OpenRefused hF fails own kind name s error
  | _ => True

/-- What is known of a process between two requests. -/
structure Between (hF : F.Lawful new mismatch) (pid : Nat) (client : Client Kind Channel)
    (s : Objects Header Ring) : Prop where
  rest : client.answer ≠ .dead → client.answer ≠ .called .unfinished → hF.life.AtRest pid s
  handles : ∀ h ∈ client.handles, Serves hF h s

variable {hF : F.Lawful new mismatch} {pid object size : Nat} {kind : Kind} {name normalized : String}
  {h : Handle Kind Channel} {layout : Layout Channel} {s s' : Objects Header Ring}
  {m m' : Mapping Header Ring} {who : Nat → Prop} {fails : Syscall → Bool}

theorem ready_iff : hF.life.ready m = true ↔ m.initialization = initialization_ready := decide_eq_true_iff

theorem unready_iff : hF.life.ready m = false ↔ m.initialization ≠ initialization_ready :=
  decide_eq_false_iff_not

/-- Calls leave the header alone, and go on as in the system of the one channel. -/
theorem grows_spec (hgrows : hF.life.Grows name who m m') : m'.header = m.header ∧
    ∀ kind layout, F.Accepted kind name layout → m.header = (F.made kind layout).header →
      Reachable (F.discipline layout.channel) m.live m'.live := by
  induction hgrows with
  | refl => exact ⟨rfl, fun _ _ _ _ => .refl⟩
  | tail _ hstep ih =>
    obtain ⟨pid, _, hstep⟩ := hstep
    refine ⟨hstep.header.trans ih.1, fun kind layout haccepted hheader => ?_⟩
    exact (ih.2 kind layout haccepted hheader).trans
      (hstep.steps kind layout haccepted (ih.1.trans hheader))

theorem grows_others (hgrows : hF.life.Grows name (· ≠ pid) m m') : m'.live.procs pid = m.live.procs pid := by
  induction hgrows with
  | refl => rfl
  | tail _ hstep ih =>
    obtain ⟨other, hother, hstep⟩ := hstep
    exact (hstep.others pid hother.symm).trans ih

theorem Serves.stable (hrely : hF.life.Rely pid s s') (hserves : Serves hF h s) : Serves hF h s' :=
  ⟨hserves.accepted, hserves.grown.stable hrely⟩

/-- What a handle refers to is a run of its one channel. -/
theorem Serves.reachable (hserves : Serves hF h s) :
    (s.objects h.object).size = h.mapping_size ∧
      (s.objects h.object).memory.initialization = initialization_ready ∧
      (s.objects h.object).memory.header = (F.made h.kind ⟨h.channel, h.mapping_size⟩).header ∧
      Reachable (F.discipline h.channel) ⟨new, fun _ => .ret .idle⟩ (s.objects h.object).memory.live := by
  obtain ⟨hheader, hsteps⟩ := grows_spec hserves.grown.grows
  have hreach := hsteps h.kind _ hserves.accepted rfl
  rw [hF.made_live hserves.accepted] at hreach
  exact ⟨hserves.grown.sized, ready_iff.mp hserves.grown.ready, hheader, hreach⟩

/-- An object that is ready serves the handles of its kind. -/
theorem serves_of_whole (hF : F.Lawful new mismatch) {o : SharedObject (Mapping Header Ring)}
    (hobject : s.objects object = o) (hready : hF.life.ready o.memory = true) (hwhole : hF.life.Whole o) :
    ∃ kind layout, F.Accepted kind o.name layout ∧ o.memory.header = (F.made kind layout).header ∧
      o.size = layout.mapping_size ∧ Serves hF ⟨object, kind, o.name, o.size, layout.channel⟩ s := by
  obtain ⟨m, ⟨kind, layout, haccepted, hsize, rfl⟩, hgrows⟩ := hwhole
  have hlayout : (⟨layout.channel, o.size⟩ : Layout Channel) = layout := by
    rw [hsize]
  refine ⟨kind, layout, haccepted, (grows_spec hgrows).1, hsize, ⟨?_, ⟨?_, ?_, ?_, ?_⟩⟩⟩
  · simp only [hlayout]
    exact haccepted
  · rw [hobject]
  · rw [hobject]
  · rw [hobject]
    exact hready
  · rw [hobject]
    simp only [hlayout]
    exact hgrows

end

end

end shmchan.endpoint
