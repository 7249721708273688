import Shmchan.Managed.Initialize
import Shmchan.Managed.Session

open process

namespace shmchan.managed

/-- What a process shows between two passes: all payloads its receives have
    returned so far, and how its last pass ended. -/
structure Session where
  received : List Bytes := []
  outcome : Outcome := .idle

/-- A pass of a process that has received `received` before. -/
def pass (received : List Bytes) (program : Prog Memory Outcome) : Prog Memory Session :=
  program >>= fun outcome => .ret ⟨received ++ outcome.payloads, outcome⟩

/-- The passes that may follow: after `again` the same operation, otherwise any
    operation, `unlink` only where `unlinks` says so. -/
def starts (unlinks : Bool) (pid : Nat) (session : Session) (program : Prog Memory Session) : Prop :=
  ∃ op c, (op = .unlink → unlinks = true) ∧ session.outcome ≠ .dead ∧
    (∀ op', session.outcome = .again op' → op = op') ∧
      program = pass session.received (attempt pid op c)

/-- SIGKILL: the kernel marks a mutex held by the process and drops its futex
    waits; the shared stores it made stay. -/
def on_death (pid : Nat) (m : Memory) : Memory :=
  let m := if m.header.mutex = .held pid then
    { m.set_header fun h => { h with mutex := .owner_dead } with history.entry := none } else m
  { m with waiters := m.waiters.filter (· ≠ pid) }

/-- Processes that run operations on one channel. -/
def discipline (unlinks : Bool) (may_die : Nat → Memory → Prop) : Discipline Memory Session Nat where
  starts := starts unlinks
  onDeath := on_death
  mayDie := may_die
  dead := { outcome := .dead }

/-- A freshly initialised channel and processes that have not called it yet. -/
def initial (options : ManagedChannelOptions) (layout : ManagedLayout) : Config Memory Session Nat where
  shared := initialized options layout
  procs _ := .ret {}

/-- The smallest channel, for concrete runs. -/
def one_slot : ManagedChannelOptions := { message_capacity := 1, max_message_size := 4 }

def one_slot_layout : ManagedLayout :=
  { mapping_size := 576, slots_offset := 448, payload_offset := 512, payload_stride := 64 }

theorem one_slot_layout_ok : checked_managed_layout one_slot.message_capacity one_slot.max_message_size =
    .ok one_slot_layout := by
  decide +kernel

/-- A first operation of a process, run for `count` actions. -/
def call (c : Config Memory Session Nat) (pid : Nat) (op : Op) (count : Nat) :
    Config Memory Session Nat :=
  Config.advance pid count
    ⟨c.shared, Function.update c.procs pid (pass [] (attempt pid op {}))⟩

/-- What is known of a process between two passes. -/
def between (pid : Nat) (session : Session) (m : Memory) : Prop :=
  m.header.mutex ≠ .held pid ∧ (session.outcome ≠ .dead → m.taken_by pid = session.received)

section

variable {unlinks : Bool} {pid : Nat} {m : Memory}

theorem initialized_inv (unlinks : Bool) {options : ManagedChannelOptions} {layout : ManagedLayout}
    (hlayout : checked_managed_layout options.message_capacity options.max_message_size = .ok layout) :
    Inv unlinks (initialized options layout) ∧ (initialized options layout).header.mutex = .unlocked ∧
      (initialized options layout).history.taken = [] := by
  obtain ⟨hcapacity, hmax, hmax_lt, _, hpayload, hstride, hmapping, hmapping_lt⟩ :=
    checked_managed_layout_spec hlayout
  have hcapacity_lt : options.message_capacity < 2 ^ 64 := by omega
  rw [initialized_eq]
  refine ⟨⟨⟨hcapacity, hcapacity_lt, hmax_lt, ?_⟩, rfl, by norm_num [zeroed], .inl rfl,
    RobustMutex.noConfusion, fun _ => ⟨?_, ?_, rfl, ?_⟩, fun h => absurd rfl h, fun _ => ?_,
    (fun _ h => absurd h (Option.some_ne_none _).symm), fun _ h => absurd h (Option.some_ne_none _).symm⟩,
    rfl, rfl⟩
  · simp only [hstride]
    omega
  · intro i _
    simp [zeroed, ManagedSlotState.word]
  · rw [Memory.slots_in_length]
    simp [zeroed, ManagedSlotState.word]
  · rw [Memory.slots_in_length]
    simp [zeroed, ManagedSlotState.word]
  · have hnone (i : Nat) : (zeroed.slots i).state ≠ ManagedSlotState.ready.word := by
      simp [zeroed, ManagedSlotState.word]
    refine ⟨⟨fun i _ => .inl rfl, fun i _ h => absurd h (hnone i), fun i _ _ _ h => absurd h (hnone i)⟩,
      ?_, List.Pairwise.nil, fun x hx => absurd hx List.not_mem_nil⟩
    refine (List.eq_nil_iff_forall_not_mem.mpr fun x hx => ?_ : Memory.queue _ = []).symm
    obtain ⟨i, _, hready, _⟩ := Memory.mem_queue.mp hx
    exact hnone i hready

/-- A death keeps the invariant when the queue the process leaves is sound. -/
theorem Inv.on_death (hm : Inv unlinks m) (hsound : m.header.mutex = .held pid → Sound m) :
    Inv unlinks (managed.on_death pid m) := by
  by_cases hheld : m.header.mutex = .held pid
  · have hsound := hsound hheld
    have hdead : managed.on_death pid m =
        { m.set_header fun h => { h with mutex := .owner_dead } with
          history := { m.history with entry := none }
          waiters := m.waiters.filter (· ≠ pid) } := by
      simp only [managed.on_death, hheld, if_true]
      rfl
    rw [hdead]
    exact {
      configured := ⟨hm.configured.capacity_pos, hm.configured.capacity_lt, hm.configured.max_lt,
        hm.configured.max_le_stride⟩
      claimed := hm.claimed
      claimed_lt := hm.claimed_lt
      state := hm.state
      initialized := RobustMutex.noConfusion
      unlocked := fun h => nomatch h
      entry := fun h => absurd rfl h
      sound := fun _ => ⟨⟨hsound.wellFormed.states, hsound.wellFormed.ready,
        hsound.wellFormed.distinct⟩, hsound.history, hsound.increasing, hsound.below⟩
      outside := fun _ h _ => nomatch h
      progress := fun _ h => nomatch h }
  · have hE : Interference unlinks m (managed.on_death pid m) := by
      simp only [managed.on_death, hheld, if_false]
      exact ⟨_, _, _, _, .inl rfl, rfl⟩
    exact hm.interference hE

/-- Other processes may rely on a death as on any other step. -/
theorem on_death_rely {other : Nat} (hother : other ≠ pid) :
    Rely unlinks other m (managed.on_death pid m) := by
  by_cases hheld : m.header.mutex = .held pid
  · have hne : m.header.mutex ≠ .held other := by
      rw [hheld]
      intro heq
      cases heq
      exact hother rfl
    refine ⟨⟨?_, ?_⟩, ?_, fun h => absurd h hne⟩
    · simp only [managed.on_death, hheld, if_true]
      rfl
    · simp only [managed.on_death, hheld, if_true]
      rfl
    · simp only [managed.on_death, hheld, if_true]
      constructor
      · intro h
        cases h
      · intro h
        cases h
        exact absurd rfl hother
  · have hE : Interference unlinks m (managed.on_death pid m) := by
      simp only [managed.on_death, hheld, if_false]
      exact ⟨_, _, _, _, .inl rfl, rfl⟩
    exact hE.rely other

theorem on_death_mutex : (managed.on_death pid m).header.mutex ≠ .held pid := by
  by_cases hheld : m.header.mutex = .held pid
  · simp only [managed.on_death, hheld, if_true]
    exact RobustMutex.noConfusion
  · simp only [managed.on_death, hheld, if_false]
    exact hheld

/-- Every operation keeps the invariant at every store, provided each process
    that dies leaves a sound queue behind. -/
theorem discipline_adequate {may_die : Nat → Memory → Prop}
    (hdeath : ∀ pid m, Inv unlinks m → may_die pid m → m.header.mutex = .held pid → Sound m) :
    Adequate (discipline unlinks may_die) (reliance unlinks) between where
  refl pid m := Rely.refl unlinks pid m
  trans _ _ _ _ h h' := Rely.trans h h'
  stable pid session m m' hrely _ hpost :=
    ⟨mt hrely.mutex.mp hpost.1, fun halive => hrely.taken.trans (hpost.2 halive)⟩
  start pid session program m _ hpost hstart := by
    obtain ⟨op, c, hop, halive, _, rfl⟩ := hstart
    refine (attempt_safe op c hop hpost.1).bind ?_
    rintro outcome m' ⟨hnot, htaken⟩
    refine ⟨hnot, fun _ => ?_⟩
    rw [htaken, hpost.2 halive]
  die pid m hinv hdie :=
    ⟨Inv.on_death hinv (hdeath pid m hinv hdie), fun _ hother => on_death_rely hother,
      on_death_mutex, fun halive => absurd rfl halive⟩

theorem call_procs_of_ne {other : Nat} (hother : other ≠ pid) (c : Config Memory Session Nat) (op : Op)
    (count : Nat) : (call c pid op count).procs other = c.procs other := by
  rw [call, Config.advance_procs_of_ne hother]
  exact Function.update_of_ne hother _ _

/-- A call runs from its start. -/
theorem call_eq_advance (c : Config Memory Session Nat) (pid : Nat) (op : Op) (count : Nat) :
    call c pid op count = (call c pid op 0).advance pid count := rfl

theorem reachable_call {may_die : Nat → Memory → Prop} {init c : Config Memory Session Nat}
    (hreach : Reachable (discipline unlinks may_die) init c) {op : Op}
    (hop : op = .unlink → unlinks = true) (hidle : c.procs pid = .ret {}) (count : Nat) :
    Reachable (discipline unlinks may_die) init (call c pid op count) :=
  (hreach.step (.start hidle ⟨op, {}, hop, Outcome.noConfusion, (fun _ h => nomatch h), rfl⟩)).advance pid
    count

/-- In every state of every run the invariant holds, and every live process
    between two passes has received exactly what was taken in its name. -/
theorem reachable_inv {may_die : Nat → Memory → Prop}
    (hdeath : ∀ pid m, Inv unlinks m → may_die pid m → m.header.mutex = .held pid → Sound m)
    {options : ManagedChannelOptions} {layout : ManagedLayout}
    (hlayout : checked_managed_layout options.message_capacity options.max_message_size = .ok layout)
    {c : Config Memory Session Nat}
    (hreach : Reachable (discipline unlinks may_die) (initial options layout) c) :
    Inv unlinks c.shared ∧ ∀ pid session, c.procs pid = .ret session → between pid session c.shared := by
  obtain ⟨hinit, hmutex, htaken⟩ := initialized_inv unlinks hlayout
  obtain ⟨hinv, hsafe⟩ := @Adequate.reachable _ _ _ _ _ _ _ (discipline_adequate hdeath) (initial options layout) c hinit
    (fun pid => ⟨by simp only [initial, hmutex]; exact RobustMutex.noConfusion, fun _ => by
      simp only [initial, Memory.taken_by, htaken]
      rfl⟩) hreach
  refine ⟨hinv, fun pid session hsession => ?_⟩
  have hpost := hsafe pid
  rw [hsession] at hpost
  exact hpost

end

end shmchan.managed
