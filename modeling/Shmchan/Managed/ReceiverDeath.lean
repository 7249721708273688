import Shmchan.Managed.Runs

open process

namespace shmchan.managed

/-- Receivers die only while no slot is READY with a descriptor they have
    begun to erase. Any other process may die at any store. -/
def spares_half_erased (pid : Nat) (m : Memory) : Prop :=
  m.header.mutex = .held pid → ∀ entry, m.history.entry = some entry → ¬ HalfErased m entry

/-- What is left once the receiver `pid` was killed in `m` and `other` took
    the abandoned mutex and recovered: the result of the recovery and the memory. -/
def recovered_after_death (pid other : Nat) (receiving : Bool) (m : Memory) : Bool × Memory :=
  recover_managed_slots.exec (take_mutex other receiving (on_death pid m))

/-- The recovery succeeds, keeps the state word, and finds the queue as the
    receiver found it or without its first message. -/
def DeathSurvived (pid : Nat) (m : Memory) (entry : Entry) : Prop :=
  ∀ other receiving,
    (recovered_after_death pid other receiving m).1 = true ∧
      (recovered_after_death pid other receiving m).2.header.state = m.header.state ∧
      ((recovered_after_death pid other receiving m).2.queue = entry.queue ∨
        (recovered_after_death pid other receiving m).2.queue = entry.queue.tail)

section

variable {unlinks receiving : Bool} {pid other : Nat} {m : Memory} {entry : Entry}

theorem sound_of_spares_half_erased (hinv : Inv unlinks m) (hdie : spares_half_erased pid m)
    (hmutex : m.header.mutex = .held pid) : Sound m := by
  cases hentry : m.history.entry with
  | none => exact hinv.sound hentry
  | some entry =>
    have hkept := hdie hmutex entry hentry
    cases hinv.progress entry hentry with
    | untouched hsound => exact hsound
    | taken hsound => exact hsound
    | truncated _ _ _ _ _ _ _ herased _ _ => exact absurd herased hkept
    | unsequenced _ _ _ _ herased => exact absurd herased hkept

/-- The death of the holder and the next lock leave the slots as they were. -/
theorem take_mutex_on_death (hmutex : m.header.mutex = .held pid) :
    take_mutex other receiving (on_death pid m) = { m with
      header := { m.header with mutex := .held other }
      waiters := m.waiters.filter (· ≠ pid)
      history := { m.history with
        entry := if receiving then some ⟨m.slots, m.queue, false⟩ else none } } := by
  simp only [take_mutex, on_death, hmutex, if_true]
  rfl

/-- From well-formed slots the recovery succeeds and keeps queue and state. -/
theorem recovered_after_death_wellFormed (other : Nat) (receiving : Bool) (hm : WellFormed m) (hmutex : m.header.mutex = .held pid) :
    (recovered_after_death pid other receiving m).1 = true ∧
      (recovered_after_death pid other receiving m).2.header.state = m.header.state ∧
      (recovered_after_death pid other receiving m).2.queue = m.queue := by
  rw [recovered_after_death, take_mutex_on_death hmutex]
  have hwell : WellFormed { m with
      header := { m.header with mutex := .held other }
      waiters := m.waiters.filter (· ≠ pid)
      history := { m.history with
        entry := if receiving then some ⟨m.slots, m.queue, false⟩ else none } } :=
    ⟨hm.states, hm.ready, hm.distinct⟩
  obtain ⟨hresult, hrecovering, _⟩ :=
    (recover_managed_slots_crashSafe (G := fun _ _ => True) (fun _ _ _ _ => trivial) hwell).exec
  exact ⟨hresult, hrecovering.state, hrecovering.queue⟩

/-- A READY slot without a sequence makes the recovery fail. -/
theorem recovered_after_death_unsequenced {i : Nat} (hmutex : m.header.mutex = .held pid)
    (hi : i < m.header.message_capacity)
    (hready : (m.slots i).state = ManagedSlotState.ready.word) (hzero : (m.slots i).sequence = 0) :
    (recovered_after_death pid other receiving m).1 = false := by
  rw [recovered_after_death, take_mutex_on_death hmutex]
  exact recover_managed_slots_rejects hi hready hzero

/-- The death of a receiver is survived exactly when no slot is half erased. -/
theorem deathSurvived_iff (hmutex : m.header.mutex = .held pid) (hm : ReceiveProgress m entry) :
    DeathSurvived pid m entry ↔ ¬ HalfErased m entry := by
  cases hm with
  | untouched hsound hqueue hkept =>
    refine ⟨fun _ => hkept, fun _ other receiving => ?_⟩
    obtain ⟨hresult, hstate, hqueue'⟩ :=
      recovered_after_death_wellFormed other receiving hsound.wellFormed hmutex
    exact ⟨hresult, hstate, .inl (hqueue'.trans hqueue)⟩
  | taken hsound _ hqueue hkept =>
    refine ⟨fun _ => hkept, fun _ other receiving => ?_⟩
    obtain ⟨hresult, hstate, hqueue'⟩ :=
      recovered_after_death_wellFormed other receiving hsound.wellFormed hmutex
    exact ⟨hresult, hstate, .inr (hqueue'.trans hqueue)⟩
  | truncated sequence bytes rest hwell hentry hbytes hqueue herased _ _ =>
    refine ⟨fun hsurvived => ?_, fun hkept => absurd herased hkept⟩
    obtain ⟨_, _, hqueue'⟩ := recovered_after_death_wellFormed 0 false hwell hmutex
    rcases (hsurvived 0 false).2.2 with h | h
    · -- the first message has lost its bytes
      rw [hqueue', hqueue, hentry] at h
      simp only [List.cons.injEq, Prod.mk.injEq, true_and, and_true] at h
      exact absurd h.symm hbytes
    · rw [hqueue', hqueue, hentry, List.tail_cons] at h
      have hlength := congrArg List.length h
      simp at hlength
  | unsequenced i hi hready hzero herased _ _ =>
    refine ⟨fun hsurvived => ?_, fun hkept => absurd herased hkept⟩
    have hresult := (hsurvived 0 false).1
    rw [recovered_after_death_unsequenced hmutex hi hready hzero] at hresult
    cases hresult

end

/-- In every run whose deaths spare half-erased slots: a receiver that dies
    while it holds the mutex is survived exactly when its death does so too. -/
theorem receiver_death_survived_iff {unlinks : Bool} {options : ManagedChannelOptions}
    {layout : ManagedLayout}
    (hlayout : checked_managed_layout options.message_capacity options.max_message_size = .ok layout)
    {c : Config Memory Session Nat}
    (hreach : Reachable (discipline unlinks spares_half_erased) (initial options layout) c) {pid : Nat}
    (hmutex : c.shared.header.mutex = .held pid) {entry : Entry}
    (hentry : c.shared.history.entry = some entry) :
    DeathSurvived pid c.shared entry ↔ spares_half_erased pid c.shared := by
  obtain ⟨hinv, _⟩ := reachable_inv (fun _ _ => sound_of_spares_half_erased) hlayout hreach
  rw [deathSurvived_iff hmutex (hinv.progress entry hentry)]
  constructor
  · rintro hkept _ entry' hentry'
    obtain rfl : entry = entry' := Option.some.inj (hentry.symm.trans hentry')
    exact hkept
  · exact fun hspares => hspares hmutex entry hentry

/-- Process 0 has sent one byte, and process 1 is `count` actions into a receive. -/
def one_slot_receive (count : Nat) : Config Memory Session Nat :=
  call (call (initial one_slot one_slot_layout) 0 (.send [7] .blocking) 60) 1 (.receive .blocking) count

theorem one_slot_receive_reachable {may_die : Nat → Memory → Prop} (count : Nat) :
    Reachable (discipline false may_die) (initial one_slot one_slot_layout) (one_slot_receive count) :=
  reachable_call (reachable_call .refl Op.noConfusion rfl 60) Op.noConfusion rfl count

theorem receiver_death_survived_iff_one_slot :
    DeathSurvived 1 (one_slot_receive 11).shared
        ((one_slot_receive 11).shared.history.entry.get (by decide +kernel)) ↔
      spares_half_erased 1 (one_slot_receive 11).shared :=
  receiver_death_survived_iff one_slot_layout_ok (one_slot_receive_reachable 11) (by decide +kernel)
    (Option.some_get _).symm

/-- Killed right after `payload_size = 0`, the receiver leaves a READY message
    that has lost its byte. -/
theorem receiver_death_truncates :
    ∃ c entry, Reachable (discipline false spares_half_erased) (initial one_slot one_slot_layout) c ∧
      c.shared.header.mutex = .held 1 ∧ c.shared.history.entry = some entry ∧
      entry.queue = [(1, [7])] ∧ ¬ DeathSurvived 1 c.shared entry ∧
      (recovered_after_death 1 2 true c.shared).2.queue = [(1, [])] := by
  have hsome : (one_slot_receive 12).shared.history.entry.isSome = true := by decide +kernel
  have hentry := (Option.some_get hsome).symm
  have hqueue : (((one_slot_receive 12).shared.history.entry).get hsome).queue = [(1, [7])] := by
    have h : (one_slot_receive 12).shared.history.entry.map Entry.queue = some [(1, [7])] := by
      decide +kernel
    rw [hentry] at h
    exact Option.some.inj h
  have hrecovered : (recovered_after_death 1 2 true (one_slot_receive 12).shared).2.queue =
      [(1, [])] := by
    decide +kernel
  refine ⟨one_slot_receive 12, _, one_slot_receive_reachable 12, by decide +kernel, hentry, hqueue,
    fun hsurvived => ?_, hrecovered⟩
  rcases (hsurvived 2 true).2.2 with h | h
  · rw [hrecovered, hqueue] at h
    cases h
  · rw [hrecovered, hqueue] at h
    cases h

end shmchan.managed
