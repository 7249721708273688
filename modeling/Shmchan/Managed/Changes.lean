import Shmchan.Managed.Runs

open process

namespace shmchan.managed

/-- Published and taken messages are only ever appended. -/
structure HistoryGrows (m m' : Memory) : Prop where
  published : m.history.published <+: m'.history.published
  taken : m.history.taken <+: m'.history.taken

/-- The header fields that only an initialisation writes. -/
def ManagedSharedHeader.identity (h : ManagedSharedHeader) : List Nat :=
  [h.magic, h.layout_version, h.header_size, h.mapping_size, h.protocol_id_value, h.protocol_version,
    h.message_capacity, h.max_message_size, h.slots_offset, h.payload_offset, h.payload_stride,
    h.slot_size, h.mutex_size, h.mutex_alignment, h.initialization]

/-- What one action of any operation may do, the READY store and the store of
    `close` apart: the state word only ever becomes broken or destroying, and
    the epoch moves by one. -/
structure Change (m m' : Memory) : Prop where
  published : m'.history.published = m.history.published
  taken : m.history.taken <+: m'.history.taken
  identity : m'.header.identity = m.header.identity
  state : m'.header.state = m.header.state ∨
    m'.header.state = ManagedChannelState.broken.word ∨
    m'.header.state = ManagedChannelState.destroying.word
  epoch : m'.header.event_epoch = m.header.event_epoch ∨
    m'.header.event_epoch = (m.header.event_epoch + 1) % 2 ^ 32

theorem HistoryGrows.refl (m : Memory) : HistoryGrows m m := ⟨List.prefix_rfl, List.prefix_rfl⟩

theorem HistoryGrows.trans (m₁ m₂ m₃ : Memory) (h : HistoryGrows m₁ m₂) (h' : HistoryGrows m₂ m₃) :
    HistoryGrows m₁ m₃ :=
  ⟨h.published.trans h'.published, h.taken.trans h'.taken⟩

namespace Change

variable {m m' : Memory}

theorem historyGrows (h : Change m m') : HistoryGrows m m' := ⟨by rw [h.published], h.taken⟩

theorem max (h : Change m m') : m'.header.max_message_size = m.header.max_message_size := by
  have hidentity := h.identity
  simp only [ManagedSharedHeader.identity, List.cons.injEq] at hidentity
  exact hidentity.2.2.2.2.2.2.2.1

theorem refl (m : Memory) : Change m m := ⟨rfl, List.prefix_rfl, rfl, .inl rfl, .inl rfl⟩

/-- An action that leaves the history, the state word and the epoch alone. -/
theorem of_same (hpublished : m'.history.published = m.history.published)
    (htaken : m'.history.taken = m.history.taken)
    (hidentity : m'.header.identity = m.header.identity)
    (hstate : m'.header.state = m.header.state)
    (hepoch : m'.header.event_epoch = m.header.event_epoch) : Change m m' :=
  ⟨hpublished, by rw [htaken], hidentity, .inl hstate, .inl hepoch⟩

theorem set_slot (index : Nat) (f : ManagedMessageSlot → ManagedMessageSlot) (m : Memory) :
    Change m (m.set_slot index f) := of_same rfl rfl rfl rfl rfl

theorem set_counters (f : ManagedCounters → ManagedCounters) (m : Memory) :
    Change m (m.set_counters f) := of_same rfl rfl rfl rfl rfl

theorem load {α : Type} (f : Memory → α) :
    (Prog.load f).Always Change fun _ => True :=
  Prog.always_load refl f

/-- A sequence that starts with a store. -/
theorem store_bind {α : Type} {P : α → Prop} {update : Memory → Memory} {k : Unit → Prog Memory α}
    (hupdate : ∀ m, Change m (update m)) (hk : (k ()).Always Change P) :
    (Prog.store update >>= k).Always Change P :=
  (Prog.always_store hupdate).bind fun _ _ => hk

theorem signal : signal_managed_event.Always Change fun _ => True := by
  refine store_bind (fun m => ?_) (Prog.always_store fun m => of_same rfl rfl rfl rfl rfl)
  exact ⟨rfl, List.prefix_rfl, rfl, .inl rfl, .inr rfl⟩

theorem mark_broken (reason : BreakReason) :
    (mark_managed_broken reason).Always Change fun _ => True := by
  refine store_bind (fun m => of_same rfl rfl rfl rfl rfl) <| store_bind (fun m => ?_) signal
  exact ⟨rfl, List.prefix_rfl, rfl, .inr (.inl rfl), .inl rfl⟩

theorem reset_slot {mark : Memory → Memory} (hmark : ∀ m, Change m (mark m)) (index : Nat) :
    (reset_managed_slot index mark).Always Change fun _ => True := by
  refine store_bind (set_slot index _) <| store_bind (set_slot index _) <| Prog.always_store fun m => ?_
  have h := hmark (m.set_slot index fun slot => { slot with state := ManagedSlotState.free.word })
  exact ⟨h.published, h.taken, h.identity, h.state, h.epoch⟩

theorem recover_scan (todo index free_count ready_count discarded : Nat) :
    (managed.recover_scan todo index free_count ready_count discarded).Always Change
      fun _ => True := by
  induction todo generalizing index free_count ready_count discarded with
  | zero => trivial
  | succ todo ih =>
    rw [managed.recover_scan]
    refine (load _).bind fun state _ => ?_
    split_ifs
    · exact ih _ _ _ _
    · exact (reset_slot refl index).bind fun _ _ => ih _ _ _ _
    · refine (load _).bind fun corrupt _ => ?_
      split_ifs
      · exact (mark_broken _).bind fun _ _ => trivial
      · exact ih _ _ _ _
    · exact (mark_broken _).bind fun _ _ => trivial

theorem recover : recover_managed_slots.Always Change fun _ => True := by
  refine (load _).bind fun capacity _ => (recover_scan _ _ _ _ _).bind fun result _ => ?_
  cases result with
  | none => trivial
  | some counts =>
    exact store_bind (fun m => of_same rfl rfl rfl rfl rfl) <|
      store_bind (fun m => of_same rfl rfl rfl rfl rfl) <| store_bind (fun m => of_same rfl rfl rfl rfl rfl) <|
      store_bind (set_counters _) <| store_bind (set_counters _) <| signal.bind fun _ _ => trivial

theorem validate_scan (todo index free_count writing_count ready_count : Nat) :
    (managed.validate_scan todo index free_count writing_count ready_count).Always Change
      fun _ => True := by
  induction todo generalizing index free_count writing_count ready_count with
  | zero => trivial
  | succ todo ih =>
    rw [managed.validate_scan]
    refine (load _).bind fun state _ => ?_
    split_ifs
    · exact ih _ _ _ _
    · exact ih _ _ _ _
    · refine (load _).bind fun corrupt _ => ?_
      split_ifs
      · exact (mark_broken _).bind fun _ _ => trivial
      · exact ih _ _ _ _
    · exact (mark_broken _).bind fun _ _ => trivial

theorem validate : validate_managed_slots.Always Change fun _ => True := by
  refine (load _).bind fun capacity _ => (validate_scan _ _ _ _ _).bind fun result _ => ?_
  cases result with
  | none => trivial
  | some counts =>
    refine (load _).bind fun consistent _ => ?_
    split_ifs
    · trivial
    · exact (mark_broken _).bind fun _ _ => trivial

theorem guard (pid : Nat) (mode : ManagedLockMode) (lock_expires receiving : Bool) :
    (managed_mutex_guard pid mode lock_expires receiving).Always Change fun _ => True := by
  have hlock : (pthread_mutex_lock pid receiving).Always Change fun _ => True :=
    ⟨fun _ => of_same rfl rfl rfl rfl rfl, fun _ => trivial⟩
  have htrylock : (pthread_mutex_trylock pid receiving).Always Change fun _ => True := by
    refine ⟨fun m => ?_, fun _ => trivial⟩
    cases hheld : m.header.mutex.is_held
    · simp only [hheld]
      exact of_same rfl rfl rfl rfl rfl
    · simp only [hheld]
      exact refl m
  unfold managed_mutex_guard
  refine Prog.Always.bind (P := fun _ => True) ?_ fun result _ => ?_
  · cases mode with
    | blocking => exact hlock
    | nonblocking => exact htrylock
    | timed =>
      cases lock_expires with
      | false => exact hlock
      | true => exact htrylock
  · cases result with
    | acquired => trivial
    | busy => trivial
    | owner_dead =>
      refine recover.bind fun recovered _ => ?_
      split_ifs <;> trivial

theorem unlock (pid : Nat) : (guard_unlock pid).Always Change fun _ => True := by
  refine Prog.always_store fun m => ?_
  split_ifs
  · exact of_same rfl rfl rfl rfl rfl
  · exact refl m

theorem find_free (capacity start todo offset : Nat) :
    (find_free_slot capacity start todo offset).Always Change fun _ => True := by
  induction todo generalizing offset with
  | zero => trivial
  | succ todo ih =>
    rw [find_free_slot]
    refine (load _).bind fun state _ => ?_
    split_ifs
    · trivial
    · exact ih _

theorem copy (index : Nat) (message : Bytes) (offset : Nat) :
    (copy_payload index offset message).Always Change fun _ => True := by
  induction message generalizing offset with
  | nil => trivial
  | cons byte rest ih =>
    rw [copy_payload]
    exact store_bind (fun m => of_same rfl rfl rfl rfl rfl) <| ih _

theorem reserve (selected : Nat) : (reserve_slot selected).Always Change fun _ => True := by
  have hclaim : (Prog.modifyGet (fun m : Memory => m.header.next_sequence) fun m =>
      (m.set_header fun h => { h with next_sequence := add64 h.next_sequence 1 }).set_history
        fun history => { history with claimed := history.claimed + 1 }).Always Change
      fun _ => True :=
    ⟨fun _ => of_same rfl rfl rfl rfl rfl, fun _ => trivial⟩
  refine store_bind (set_slot selected _) <| store_bind (fun m => of_same rfl rfl rfl rfl rfl) <|
    store_bind (fun m => of_same rfl rfl rfl rfl rfl) <| store_bind (set_slot selected _) <|
    hclaim.bind fun _ _ => store_bind (set_slot selected _) trivial

theorem count (selected capacity size : Nat) :
    (count_published selected capacity size).Always Change fun _ => True := by
  exact store_bind (fun m => of_same rfl rfl rfl rfl rfl) <|
    store_bind (fun m => of_same rfl rfl rfl rfl rfl) <| store_bind (fun m => of_same rfl rfl rfl rfl rfl) <|
    store_bind (set_counters _) <| Prog.always_store (set_counters _)

end Change

end shmchan.managed
