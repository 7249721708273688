import Shmchan.Managed.Invariant

open process

namespace shmchan.managed

section

variable {unlinks : Bool} {m m' : Memory}

theorem Interference.set_slot (h : Interference unlinks m m') (index : Nat)
    (f : ManagedMessageSlot → ManagedMessageSlot) :
    Interference unlinks (m.set_slot index f) (m'.set_slot index f) := by
  obtain ⟨state, epoch, counters, waiters, hstate, rfl⟩ := h
  exact ⟨state, epoch, counters, waiters, hstate, rfl⟩

theorem Interference.set_history (h : Interference unlinks m m') (f : History → History) :
    Interference unlinks (m.set_history f) (m'.set_history f) := by
  obtain ⟨state, epoch, counters, waiters, hstate, rfl⟩ := h
  exact ⟨state, epoch, counters, waiters, hstate, rfl⟩

/-- A store to the header commutes with interference when it writes the fields
    that others change only from those fields. -/
theorem Interference.set_header (h : Interference unlinks m m')
    {f : ManagedSharedHeader → ManagedSharedHeader}
    (hf : ∀ h state epoch counters, ∃ epoch' counters',
      f { h with state := state, event_epoch := epoch, counters := counters } =
          { f h with state := state, event_epoch := epoch', counters := counters' } ∧
        (f h).state = h.state ∨
      f { h with state := state, event_epoch := epoch, counters := counters } =
          { f h with event_epoch := epoch', counters := counters' }) :
    Interference unlinks (m.set_header f) (m'.set_header f) := by
  obtain ⟨state, epoch, counters, waiters, hstate, rfl⟩ := h
  obtain ⟨epoch', counters', ⟨heq, hkept⟩ | heq⟩ := hf m.header state epoch counters
  · refine ⟨state, epoch', counters', waiters, ?_, ?_⟩
    · rw [Memory.set_header_header, hkept]
      exact hstate
    · simp only [Memory.set_header, heq]
  · refine ⟨(f m.header).state, epoch', counters', waiters, .inl rfl, ?_⟩
    simp only [Memory.set_header, heq]

theorem Interference.set_waiters (h : Interference unlinks m m') (waiters : List Nat) :
    Interference unlinks { m with waiters := waiters } { m' with waiters := waiters } := by
  obtain ⟨state, epoch, counters, _, hstate, rfl⟩ := h
  exact ⟨state, epoch, counters, waiters, hstate, rfl⟩

/-- Everything but the state word, the epoch and the metrics reads the same. -/
theorem Interference.header (h : Interference unlinks m m') :
    m'.header = { m.header with
      state := m'.header.state, event_epoch := m'.header.event_epoch,
      counters := m'.header.counters } := by
  obtain ⟨_, _, _, _, _, rfl⟩ := h
  rfl

theorem uniform_signal : Uniform (Interference unlinks) signal_managed_event := by
  unfold signal_managed_event
  refine (uniform_store fun m m' h => ?_).bind fun _ => uniform_store fun m m' h => h.set_waiters []
  exact h.set_header fun h _ epoch c => ⟨(epoch + 1) % 2 ^ 32, c, .inl ⟨rfl, rfl⟩⟩

theorem uniform_mark_broken (reason : BreakReason) :
    Uniform (Interference unlinks) (mark_managed_broken reason) := by
  unfold mark_managed_broken
  refine (uniform_store fun m m' h => ?_).bind fun _ => (uniform_store fun m m' h => ?_).bind fun _ =>
    uniform_signal
  · exact h.set_header fun h _ epoch c => ⟨epoch, c, .inl ⟨rfl, rfl⟩⟩
  · exact h.set_header fun h _ epoch c => ⟨epoch, c, .inr rfl⟩

theorem uniform_recover_scan (todo index free_count ready_count discarded : Nat) :
    Uniform (Interference unlinks) (recover_scan todo index free_count ready_count discarded) := by
  induction todo generalizing index free_count ready_count discarded with
  | zero => exact uniform_ret _
  | succ todo ih =>
    rw [recover_scan]
    refine (uniform_load fun m m' h => by rw [h.sameQueue.slots]).bind fun state => ?_
    split_ifs
    · exact ih _ _ _ _
    · refine Uniform.bind ?_ fun _ => ih _ _ _ _
      exact (uniform_store fun m m' h => h.set_slot _ _).bind fun _ =>
        (uniform_store fun m m' h => h.set_slot _ _).bind fun _ =>
          uniform_store fun m m' h => h.set_slot _ _
    · refine (uniform_load fun m m' h => ?_).bind fun corrupt => ?_
      · rw [ready_slot_is_corrupt, ready_slot_is_corrupt, h.sameQueue.slots, h.sameQueue.max]
      · split_ifs
        · exact (uniform_mark_broken _).bind fun _ => uniform_ret _
        · exact ih _ _ _ _
    · exact (uniform_mark_broken _).bind fun _ => uniform_ret _

theorem uniform_recover : Uniform (Interference unlinks) recover_managed_slots := by
  unfold recover_managed_slots
  refine (uniform_load fun m m' h => h.sameQueue.capacity.symm).bind fun capacity => ?_
  refine (uniform_recover_scan _ _ _ _ _).bind fun result => ?_
  cases result with
  | none => exact uniform_ret _
  | some counts =>
    simp only [recover_finish, Memory.set_counters]
    refine (uniform_store fun m m' h => ?_).bind fun _ => (uniform_store fun m m' h => ?_).bind fun _ =>
      (uniform_store fun m m' h => ?_).bind fun _ => (uniform_store fun m m' h => ?_).bind fun _ =>
      (uniform_store fun m m' h => ?_).bind fun _ => uniform_signal.bind fun _ => uniform_ret _
    · exact h.set_header fun h _ epoch c => ⟨epoch, c, .inl ⟨rfl, rfl⟩⟩
    · exact h.set_header fun h _ epoch c => ⟨epoch, c, .inl ⟨rfl, rfl⟩⟩
    · exact h.set_header fun h _ epoch c => ⟨epoch, c, .inl ⟨rfl, rfl⟩⟩
    · exact h.set_header fun h _ epoch c => ⟨epoch, _, .inl ⟨rfl, rfl⟩⟩
    · exact h.set_header fun h _ epoch c => ⟨epoch, _, .inl ⟨rfl, rfl⟩⟩

theorem uniform_validate_scan (todo index free_count writing_count ready_count : Nat) :
    Uniform (Interference unlinks) (validate_scan todo index free_count writing_count ready_count) := by
  induction todo generalizing index free_count writing_count ready_count with
  | zero => exact uniform_ret _
  | succ todo ih =>
    rw [validate_scan]
    refine (uniform_load fun m m' h => by rw [h.sameQueue.slots]).bind fun state => ?_
    split_ifs
    · exact ih _ _ _ _
    · exact ih _ _ _ _
    · refine (uniform_load fun m m' h => ?_).bind fun corrupt => ?_
      · rw [ready_slot_is_corrupt, ready_slot_is_corrupt, h.sameQueue.slots, h.sameQueue.max]
      · split_ifs
        · exact (uniform_mark_broken _).bind fun _ => uniform_ret _
        · exact ih _ _ _ _
    · exact (uniform_mark_broken _).bind fun _ => uniform_ret _

theorem uniform_validate : Uniform (Interference unlinks) validate_managed_slots := by
  unfold validate_managed_slots
  refine (uniform_load fun m m' h => h.sameQueue.capacity.symm).bind fun capacity => ?_
  refine (uniform_validate_scan _ _ _ _ _).bind fun result => ?_
  cases result with
  | none => exact uniform_ret _
  | some counts =>
    refine (uniform_load fun m m' h => ?_).bind fun consistent => ?_
    · rw [h.header]
      rfl
    · split_ifs
      · exact uniform_ret _
      · exact (uniform_mark_broken _).bind fun _ => uniform_ret _

theorem uniform_find_free_slot (capacity start todo offset : Nat) :
    Uniform (Interference unlinks) (find_free_slot capacity start todo offset) := by
  induction todo generalizing offset with
  | zero => exact uniform_ret _
  | succ todo ih =>
    rw [find_free_slot]
    refine (uniform_load fun m m' h => by rw [h.sameQueue.slots]).bind fun state => ?_
    split_ifs
    · exact uniform_ret _
    · exact ih _

theorem uniform_copy_payload (index : Nat) (message : Bytes) (offset : Nat) :
    Uniform (Interference unlinks) (copy_payload index offset message) := by
  induction message generalizing offset with
  | nil => exact uniform_ret _
  | cons byte rest ih =>
    rw [copy_payload]
    refine (uniform_store fun m m' h => ?_).bind fun _ => ih _
    obtain ⟨state, epoch, counters, waiters, hstate, rfl⟩ := h
    exact ⟨state, epoch, counters, waiters, hstate, rfl⟩

theorem uniform_publish (selected capacity : Nat) (message : Bytes) :
    Uniform (Interference unlinks) (publish_message selected capacity message) := by
  have hreserve : Uniform (Interference unlinks) (reserve_slot selected) := by
    unfold reserve_slot
    refine (uniform_store fun m m' h => h.set_slot _ _).bind fun _ =>
      (uniform_store fun m m' h => ?_).bind fun _ => (uniform_store fun m m' h => ?_).bind fun _ =>
      (uniform_store fun m m' h => h.set_slot _ _).bind fun _ =>
      (uniform_modifyGet (fun m m' h => h.sameQueue.next.symm) fun m m' h => ?_).bind fun sequence =>
      (uniform_store fun m m' h => h.set_slot _ _).bind fun _ => uniform_ret _
    · exact h.set_header fun h _ epoch c => ⟨epoch, c, .inl ⟨rfl, rfl⟩⟩
    · exact h.set_header fun h _ epoch c => ⟨epoch, c, .inl ⟨rfl, rfl⟩⟩
    · refine Interference.set_history ?_ _
      exact h.set_header fun h _ epoch c => ⟨epoch, c, .inl ⟨rfl, rfl⟩⟩
  simp only [publish_message, count_published, Memory.set_counters]
  refine hreserve.bind fun sequence => (uniform_copy_payload _ _ _).bind fun _ =>
    (uniform_store fun m m' h => h.set_slot _ _).bind fun _ =>
    (uniform_store fun m m' h => (h.set_slot _ _).set_history _).bind fun _ =>
    (uniform_store fun m m' h => ?_).bind fun _ => (uniform_store fun m m' h => ?_).bind fun _ =>
    (uniform_store fun m m' h => ?_).bind fun _ => (uniform_store fun m m' h => ?_).bind fun _ =>
    uniform_store fun m m' h => ?_
  · exact h.set_header fun h _ epoch c => ⟨epoch, c, .inl ⟨rfl, rfl⟩⟩
  · exact h.set_header fun h _ epoch c => ⟨epoch, c, .inl ⟨rfl, rfl⟩⟩
  · exact h.set_header fun h _ epoch c => ⟨epoch, c, .inl ⟨rfl, rfl⟩⟩
  · exact h.set_header fun h _ epoch c => ⟨epoch, _, .inl ⟨rfl, rfl⟩⟩
  · exact h.set_header fun h _ epoch c => ⟨epoch, _, .inl ⟨rfl, rfl⟩⟩

theorem uniform_find_first_ready (todo index selected selected_sequence : Nat) :
    Uniform (Interference unlinks) (find_first_ready todo index selected selected_sequence) := by
  induction todo generalizing index selected selected_sequence with
  | zero => exact uniform_ret _
  | succ todo ih =>
    rw [find_first_ready]
    refine (uniform_load fun m m' h => by rw [h.sameQueue.slots]).bind fun slot => ?_
    split_ifs
    · exact ih _ _ _
    · exact ih _ _ _

theorem uniform_release (pid selected : Nat) (message : Message) :
    Uniform (Interference unlinks) (release_slot pid selected message) := by
  simp only [release_slot, reset_managed_slot, Prog.bind_assoc, Memory.set_counters]
  refine (uniform_store fun m m' h => h.set_slot _ _).bind fun _ =>
    (uniform_store fun m m' h => h.set_slot _ _).bind fun _ =>
    (uniform_store fun m m' h => (h.set_slot _ _).set_history _).bind fun _ =>
    (uniform_store fun m m' h => ?_).bind fun _ => (uniform_store fun m m' h => ?_).bind fun _ =>
    (uniform_store fun m m' h => ?_).bind fun _ => uniform_store fun m m' h => ?_
  · exact h.set_header fun h _ epoch c => ⟨epoch, c, .inl ⟨rfl, rfl⟩⟩
  · exact h.set_header fun h _ epoch c => ⟨epoch, c, .inl ⟨rfl, rfl⟩⟩
  · exact h.set_header fun h _ epoch c => ⟨epoch, _, .inl ⟨rfl, rfl⟩⟩
  · exact h.set_header fun h _ epoch c => ⟨epoch, _, .inl ⟨rfl, rfl⟩⟩

end

end shmchan.managed
