import Shmchan.Managed.Invariant

open process

namespace shmchan.managed

/-- A point of a recovery that started in `m`: apart from the counts, the
    metrics and the epoch, only WRITING slots have changed. -/
structure Recovering (m t : Memory) : Prop where
  header : ∃ event_epoch free_slots writing_messages ready_messages counters,
    t.header = { m.header with
      event_epoch := event_epoch, free_slots := free_slots, writing_messages := writing_messages,
      ready_messages := ready_messages, counters := counters }
  slots : ∀ i, t.slots i = m.slots i ∨
    ((m.slots i).state = ManagedSlotState.writing.word ∧
      ((t.slots i).state = ManagedSlotState.writing.word ∨
        (t.slots i).state = ManagedSlotState.free.word))
  payloads : t.payloads = m.payloads
  history : t.history = m.history

namespace Recovering

variable {m t : Memory} {entry : Entry}

theorem refl (m : Memory) : Recovering m m :=
  ⟨⟨_, _, _, _, _, rfl⟩, fun _ => .inl rfl, rfl, rfl⟩

theorem capacity (h : Recovering m t) :
    t.header.message_capacity = m.header.message_capacity := by
  obtain ⟨_, _, _, _, _, hheader⟩ := h.header
  rw [hheader]

theorem max (h : Recovering m t) : t.header.max_message_size = m.header.max_message_size := by
  obtain ⟨_, _, _, _, _, hheader⟩ := h.header
  rw [hheader]

theorem stride (h : Recovering m t) : t.header.payload_stride = m.header.payload_stride := by
  obtain ⟨_, _, _, _, _, hheader⟩ := h.header
  rw [hheader]

theorem next (h : Recovering m t) : t.header.next_sequence = m.header.next_sequence := by
  obtain ⟨_, _, _, _, _, hheader⟩ := h.header
  rw [hheader]

theorem state (h : Recovering m t) : t.header.state = m.header.state := by
  obtain ⟨_, _, _, _, _, hheader⟩ := h.header
  rw [hheader]

theorem mutex (h : Recovering m t) : t.header.mutex = m.header.mutex := by
  obtain ⟨_, _, _, _, _, hheader⟩ := h.header
  rw [hheader]

/-- READY slots are exactly as they were. -/
theorem ready_iff (h : Recovering m t) (i : Nat) :
    (t.slots i).state = ManagedSlotState.ready.word ↔
      (m.slots i).state = ManagedSlotState.ready.word := by
  rcases h.slots i with heq | ⟨hm, ht | ht⟩
  · rw [heq]
  · simp [hm, ht, ManagedSlotState.word]
  · simp [hm, ht, ManagedSlotState.word]

theorem slots_of_ready (h : Recovering m t) {i : Nat}
    (hready : (m.slots i).state = ManagedSlotState.ready.word) : t.slots i = m.slots i := by
  rcases h.slots i with heq | ⟨hm, _⟩
  · exact heq
  · simp [hready, ManagedSlotState.word] at hm

theorem queue (h : Recovering m t) : t.queue = m.queue := by
  apply Memory.queue_congr h.capacity fun i _ => h.ready_iff i
  intro i _ hready
  simp only [Memory.message, Memory.payload_bytes, Memory.payload_base, h.slots_of_ready hready,
    h.payloads, h.stride]

theorem configured (h : Recovering m t) (hm : Configured m) : Configured t := by
  constructor
  · rw [h.capacity]; exact hm.capacity_pos
  · rw [h.capacity]; exact hm.capacity_lt
  · rw [h.max]; exact hm.max_lt
  · rw [h.max, h.stride]; exact hm.max_le_stride

theorem wellFormed (h : Recovering m t) (hm : WellFormed m) : WellFormed t := by
  refine ⟨fun i hi => ?_, fun i hi hready => ?_, fun i j hi hj hri hrj heq => ?_⟩
  · rw [h.capacity] at hi
    rcases h.slots i with heq | ⟨_, ht | ht⟩
    · rw [heq]; exact hm.states i hi
    · exact .inr (.inl ht)
    · exact .inl ht
  · rw [h.capacity] at hi
    have hready' := (h.ready_iff i).mp hready
    rw [h.slots_of_ready hready', h.max, h.next]
    exact hm.ready i hi hready'
  · rw [h.capacity] at hi hj
    have hri' := (h.ready_iff i).mp hri
    have hrj' := (h.ready_iff j).mp hrj
    rw [h.slots_of_ready hri', h.slots_of_ready hrj'] at heq
    exact hm.distinct i j hi hj hri' hrj' heq

theorem sound (h : Recovering m t) (hm : Sound m) : Sound t := by
  refine ⟨h.wellFormed hm.wellFormed, ?_, ?_, ?_⟩
  · rw [h.history, h.queue]; exact hm.history
  · rw [h.history]; exact hm.increasing
  · rw [h.history, h.next]; exact hm.below

theorem halfErased (h : Recovering m t) : HalfErased t entry ↔ HalfErased m entry := by
  simp only [HalfErased, h.capacity, h.ready_iff]
  constructor
  · rintro ⟨i, hi, hready, hne⟩
    exact ⟨i, hi, hready, h.slots_of_ready hready ▸ hne⟩
  · rintro ⟨i, hi, hready, hne⟩
    exact ⟨i, hi, hready, (h.slots_of_ready hready).symm ▸ hne⟩

theorem set_header (h : Recovering m t) (f : ManagedSharedHeader → ManagedSharedHeader)
    (hf : ∃ event_epoch free_slots writing_messages ready_messages counters,
      f t.header = { t.header with
        event_epoch := event_epoch, free_slots := free_slots, writing_messages := writing_messages,
        ready_messages := ready_messages, counters := counters }) :
    Recovering m (t.set_header f) := by
  obtain ⟨_, _, _, _, _, hheader⟩ := h.header
  obtain ⟨e, w, x, y, z, hf⟩ := hf
  refine ⟨⟨e, w, x, y, z, ?_⟩, h.slots, h.payloads, h.history⟩
  rw [Memory.set_header, hf, hheader]

theorem set_waiters (h : Recovering m t) (waiters : List Nat) :
    Recovering m { t with waiters := waiters } :=
  ⟨h.header, h.slots, h.payloads, h.history⟩

/-- A store into a slot that was WRITING, leaving it WRITING or FREE. -/
theorem set_slot (h : Recovering m t) {i : Nat} {f : ManagedMessageSlot → ManagedMessageSlot}
    (hm : (m.slots i).state = ManagedSlotState.writing.word)
    (hf : (f (t.slots i)).state = ManagedSlotState.writing.word ∨
      (f (t.slots i)).state = ManagedSlotState.free.word) :
    Recovering m (t.set_slot i f) := by
  refine ⟨h.header, fun j => ?_, h.payloads, h.history⟩
  by_cases hj : j = i
  · subst hj
    exact .inr ⟨hm, by simpa using hf⟩
  · rw [Memory.set_slot_slots_of_ne _ _ _ hj]
    exact h.slots j

end Recovering

/-- The counts of a scan that has passed `index` slots of `t`. -/
structure Scanned (t : Memory) (index free_count ready_count : Nat) : Prop where
  idle : ∀ i, i < index → (t.slots i).state ≠ ManagedSlotState.writing.word
  free : free_count =
    (List.range index).countP fun i => (t.slots i).state = ManagedSlotState.free.word
  ready : ready_count =
    (List.range index).countP fun i => (t.slots i).state = ManagedSlotState.ready.word

namespace Scanned

variable {t : Memory} {index free_count ready_count : Nat}

theorem zero (t : Memory) : Scanned t 0 0 0 := ⟨by omega, rfl, rfl⟩

theorem passes_free (h : Scanned t index free_count ready_count)
    (hfree : (t.slots index).state = ManagedSlotState.free.word) :
    Scanned t (index + 1) (free_count + 1) ready_count := by
  refine ⟨fun i hi => ?_, ?_, ?_⟩
  · by_cases heq : i = index
    · subst heq; simp [hfree, ManagedSlotState.word]
    · exact h.idle i (by omega)
  · simp [List.range_succ, h.free, hfree]
  · simp [List.range_succ, h.ready, hfree, ManagedSlotState.word]

theorem passes_ready (h : Scanned t index free_count ready_count)
    (hready : (t.slots index).state = ManagedSlotState.ready.word) :
    Scanned t (index + 1) free_count (ready_count + 1) := by
  refine ⟨fun i hi => ?_, ?_, ?_⟩
  · by_cases heq : i = index
    · subst heq; simp [hready, ManagedSlotState.word]
    · exact h.idle i (by omega)
  · simp [List.range_succ, h.free, hready, ManagedSlotState.word]
  · simp [List.range_succ, h.ready, hready]

/-- Slots from `index` on do not matter to the counts so far. -/
theorem congr (h : Scanned t index free_count ready_count) {t' : Memory}
    (hslots : ∀ i, i < index → t'.slots i = t.slots i) : Scanned t' index free_count ready_count := by
  refine ⟨fun i hi => by rw [hslots i hi]; exact h.idle i hi, ?_, ?_⟩
  · rw [h.free]
    exact List.countP_congr fun i hi => by rw [hslots i (List.mem_range.mp hi)]
  · rw [h.ready]
    exact List.countP_congr fun i hi => by rw [hslots i (List.mem_range.mp hi)]

/-- Once every slot is passed the counts are the exact ones. -/
theorem settled (h : Scanned t index free_count ready_count)
    (hcapacity : t.header.message_capacity = index) (hfree : t.header.free_slots = free_count)
    (hwriting : t.header.writing_messages = 0) (hready : t.header.ready_messages = ready_count) :
    Settled t := by
  subst hcapacity
  refine ⟨h.idle, ?_, hwriting, ?_⟩
  · rw [hfree, h.free, Memory.slots_in_length]
  · rw [hready, h.ready, Memory.slots_in_length]

end Scanned

section

variable {G : Memory → Memory → Prop} {m : Memory}

/-- The scan of a recovery accepts every well-formed slot array and leaves it
    with every WRITING slot reset. -/
theorem recover_scan_crashSafe (hG : ∀ s t, Recovering m s → Recovering m t → G s t)
    (hm : WellFormed m) (todo index free_count ready_count discarded : Nat) {t : Memory}
    (ht : Recovering m t) (hindex : index + todo = m.header.message_capacity)
    (hscan : Scanned t index free_count ready_count) :
    CrashSafe G (fun result t' => ∃ free_count ready_count discarded,
        result = some (free_count, ready_count, discarded) ∧ Recovering m t' ∧
          Scanned t' m.header.message_capacity free_count ready_count)
      (recover_scan todo index free_count ready_count discarded) t := by
  induction todo generalizing index free_count ready_count discarded t with
  | zero => exact ⟨free_count, ready_count, discarded, rfl, ht, by simpa [← hindex] using hscan⟩
  | succ todo ih =>
    rw [recover_scan]
    apply CrashSafe.load_bind (hG t t ht ht)
    have hwell := ht.wellFormed hm
    split_ifs with hfree hwriting hready
    · exact ih _ _ _ _ ht (by omega) (hscan.passes_free hfree)
    · -- the slot of the dead owner: three stores, then the scan goes on
      have hstart : (m.slots index).state = ManagedSlotState.writing.word := by
        rcases ht.slots index with heq | ⟨hw, _⟩
        · rw [← heq]; exact hwriting
        · exact hw
      have ht₁ := ht.set_slot (f := fun slot => { slot with payload_size := 0 }) hstart (.inl hwriting)
      have ht₂ := ht₁.set_slot (i := index) (f := fun slot => { slot with sequence := 0 }) hstart
        (.inl (by simpa using hwriting))
      have ht₃ := ht₂.set_slot (i := index)
        (f := fun slot => { slot with state := ManagedSlotState.free.word }) hstart (.inr rfl)
      simp only [reset_managed_slot, Prog.bind_assoc, id_eq]
      refine CrashSafe.store_bind (hG _ _ ht ht₁) ?_
      refine CrashSafe.store_bind (hG _ _ ht₁ ht₂) ?_
      refine CrashSafe.store_bind (hG _ _ ht₂ ht₃) ?_
      refine ih _ _ _ _ ht₃ (by omega) (Scanned.passes_free (hscan.congr fun i hi => ?_) ?_)
      · simp [show i ≠ index by omega]
      · simp
    · apply CrashSafe.load_bind (hG t t ht ht)
      have hgood := hwell.ready index (by rw [ht.capacity]; omega) hready
      have hcorrupt : ready_slot_is_corrupt t index = false := by
        simp [ready_slot_is_corrupt, hgood.1, Nat.pos_iff_ne_zero.mp hgood.2.1]
      rw [if_neg (by simp [hcorrupt])]
      exact ih _ _ _ _ ht (by omega) (hscan.passes_ready hready)
    · rcases hwell.states index (by rw [ht.capacity]; omega) with h | h | h <;> contradiction

/-- From any well-formed memory a recovery succeeds and settles it; it changes
    no READY slot, no payload and no state word on the way. -/
theorem recover_managed_slots_crashSafe (hG : ∀ s t, Recovering m s → Recovering m t → G s t)
    (hm : WellFormed m) :
    CrashSafe G (fun result t => result = true ∧ Recovering m t ∧ Settled t) recover_managed_slots m := by
  have hstart := Recovering.refl m
  unfold recover_managed_slots
  apply CrashSafe.load_bind (hG m m hstart hstart)
  apply (recover_scan_crashSafe hG hm _ 0 0 0 0 hstart (by omega) (Scanned.zero m)).bind
  rintro _ t ⟨free_count, ready_count, discarded, rfl, ht, hscan⟩
  have ht₁ := ht.set_header (fun h => { h with free_slots := free_count }) ⟨_, _, _, _, _, rfl⟩
  have ht₂ := ht₁.set_header (fun h => { h with writing_messages := 0 }) ⟨_, _, _, _, _, rfl⟩
  have ht₃ := ht₂.set_header (fun h => { h with ready_messages := ready_count }) ⟨_, _, _, _, _, rfl⟩
  have ht₄ := ht₃.set_header (fun h => { h with counters := { h.counters with
    owner_death_recoveries := add64 h.counters.owner_death_recoveries 1 } }) ⟨_, _, _, _, _, rfl⟩
  have ht₅ := ht₄.set_header (fun h => { h with counters := { h.counters with
    discarded_incomplete_writes := add64 h.counters.discarded_incomplete_writes discarded } })
    ⟨_, _, _, _, _, rfl⟩
  have ht₆ := ht₅.set_header (fun h => { h with event_epoch := (h.event_epoch + 1) % 2 ^ 32 })
    ⟨_, _, _, _, _, rfl⟩
  simp only [recover_finish, signal_managed_event, Prog.bind_assoc]
  refine CrashSafe.store_bind (hG _ _ ht ht₁) ?_
  refine CrashSafe.store_bind (hG _ _ ht₁ ht₂) ?_
  refine CrashSafe.store_bind (hG _ _ ht₂ ht₃) ?_
  refine CrashSafe.store_bind (hG _ _ ht₃ ht₄) ?_
  refine CrashSafe.store_bind (hG _ _ ht₄ ht₅) ?_
  refine CrashSafe.store_bind (hG _ _ ht₅ ht₆) ?_
  have ht₇ := ht₆.set_waiters []
  refine CrashSafe.store_bind (hG _ _ ht₆ ht₇) ?_
  refine ⟨rfl, ht₇, (hscan.congr fun i _ => ?_).settled ht₇.capacity ?_ ?_ ?_⟩ <;> rfl

/-- A READY slot without a sequence makes a recovery fail, whatever the other
    slots hold. -/
theorem recover_scan_rejects {i : Nat} (todo index free_count ready_count discarded : Nat)
    {t : Memory} (hlo : index ≤ i) (hhi : i < index + todo)
    (hready : (t.slots i).state = ManagedSlotState.ready.word) (hzero : (t.slots i).sequence = 0) :
    ((recover_scan todo index free_count ready_count discarded).exec t).1 = none := by
  induction todo generalizing index free_count ready_count discarded t with
  | zero => omega
  | succ todo ih =>
    rw [recover_scan, Prog.exec_load_bind]
    split_ifs with hfree hwriting hslot
    · have hne : index ≠ i := by
        rintro rfl
        rw [hready] at hfree
        cases hfree
      exact ih _ _ _ _ (by omega) (by omega) hready hzero
    · have hne : i ≠ index := by
        rintro rfl
        rw [hready] at hwriting
        cases hwriting
      simp only [reset_managed_slot, Prog.bind_assoc, Prog.exec_store_bind]
      apply ih _ _ _ _ (by omega) (by omega)
      · simpa [hne] using hready
      · simpa [hne] using hzero
    · rw [Prog.exec_load_bind]
      by_cases heq : index = i
      · subst heq
        rw [if_pos (by simp [ready_slot_is_corrupt, hzero]), Prog.exec_bind]
        rfl
      · split_ifs
        · rw [Prog.exec_bind]
          rfl
        · exact ih _ _ _ _ (by omega) (by omega) hready hzero
    · rw [Prog.exec_bind]
      rfl

theorem recover_managed_slots_rejects {i : Nat} (hi : i < m.header.message_capacity)
    (hready : (m.slots i).state = ManagedSlotState.ready.word) (hzero : (m.slots i).sequence = 0) :
    (recover_managed_slots.exec m).1 = false := by
  have hnone := recover_scan_rejects m.header.message_capacity 0 0 0 0 (Nat.zero_le i)
    (by omega) hready hzero
  rw [recover_managed_slots, Prog.exec_load_bind, Prog.exec_bind, hnone]
  rfl

end

end shmchan.managed
