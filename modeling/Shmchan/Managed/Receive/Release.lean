import Shmchan.Managed.Scans

open process

namespace shmchan.managed

/-- A point of the release of a message by `pid`, which found `entry` when it
    took the mutex and started the release in `m`. -/
structure Releasing (pid : Nat) (message : Message) (m : Memory) (entry : Entry) (t : Memory) :
    Prop where
  header : ∃ free_slots ready_messages counters,
    t.header = { m.header with
      free_slots := free_slots, ready_messages := ready_messages, counters := counters }
  history : t.history = m.history ∨
    t.history = { m.history with taken := m.history.taken ++ [(message, pid)] }
  progress : ReceiveProgress t entry

/-- The result of a release that started in `m`. -/
structure Released (pid : Nat) (message : Message) (m t : Memory) : Prop where
  header : ∃ free_slots ready_messages counters,
    t.header = { m.header with
      free_slots := free_slots, ready_messages := ready_messages, counters := counters }
  history : t.history = { m.history with taken := m.history.taken ++ [(message, pid)] }
  sound : Sound t
  settled : Settled t
  queue : t.queue = m.queue.tail

namespace Releasing

variable {pid : Nat} {message : Message} {m t : Memory} {entry : Entry}

theorem set_header (h : Releasing pid message m entry t)
    (f : ManagedSharedHeader → ManagedSharedHeader)
    (hf : ∃ free_slots ready_messages counters,
      f t.header = { t.header with
        free_slots := free_slots, ready_messages := ready_messages, counters := counters }) :
    Releasing pid message m entry (t.set_header f) := by
  obtain ⟨_, _, _, hheader⟩ := h.header
  obtain ⟨x, y, z, hf⟩ := hf
  have hsame : SameQueue t (t.set_header f) := by
    constructor <;> first | rfl | simp only [Memory.set_header_header, hf]
  refine ⟨⟨x, y, z, ?_⟩, h.history, hsame.progress h.progress⟩
  rw [Memory.set_header_header, hf, hheader]

end Releasing

section

variable {G : Memory → Memory → Prop} {m t : Memory} {pid selected : Nat} {entry : Entry}

/-- The counts of a release: one READY slot became FREE. -/
theorem Settled.release (hs : Settled m) (hm : WellFormed m) (hconfigured : Configured m)
    (hi : selected < m.header.message_capacity)
    (hready : (m.slots selected).state = ManagedSlotState.ready.word)
    (hcapacity : t.header.message_capacity = m.header.message_capacity)
    (hfree : (t.slots selected).state = ManagedSlotState.free.word)
    (hother : ∀ j, j ≠ selected → (t.slots j).state = (m.slots j).state)
    (hfree_slots : t.header.free_slots = add64 m.header.free_slots 1)
    (hwriting_messages : t.header.writing_messages = m.header.writing_messages)
    (hready_messages : t.header.ready_messages = sub64 m.header.ready_messages 1) : Settled t := by
  have hsum := hs.counts_add hm
  have hlt := hconfigured.capacity_lt
  have hcount (state : ManagedSlotState) := countP_range_update
    (p := fun j => decide ((m.slots j).state = state.word))
    (q := fun j => decide ((t.slots j).state = state.word)) hi fun j hj => by rw [hother j hj]
  have hcount_free := hcount .free
  have hcount_ready := hcount .ready
  simp only [hfree, hready, ManagedSlotState.word, decide_true, Bool.toNat_true, Nat.reduceEqDiff,
    decide_false, Bool.toNat_false, Nat.add_zero] at hcount_free hcount_ready
  simp only [Memory.slots_in_length, ManagedSlotState.word] at hsum
  refine ⟨fun j hj => ?_, ?_, hwriting_messages.trans hs.writing, ?_⟩
  · by_cases hne : j = selected
    · simp [hne, hfree, ManagedSlotState.word]
    · rw [hother j hne]
      exact hs.idle j (hcapacity ▸ hj)
  · rw [hfree_slots, hs.free, Memory.slots_in_length, Memory.slots_in_length, hcapacity,
      add64_of_lt] <;> simp only [ManagedSlotState.word] <;> omega
  · rw [hready_messages, hs.ready, Memory.slots_in_length, Memory.slots_in_length, hcapacity,
      sub64_of_le] <;> simp only [ManagedSlotState.word] <;> omega

variable (hm : Sound m) (hi : selected < m.header.message_capacity)
  (hready : (m.slots selected).state = ManagedSlotState.ready.word)
  (hhead : m.queue = m.message selected :: m.queue.tail) (hqueue : m.queue = entry.queue)
  (hkept : ¬ HalfErased m entry)

include hi hready hkept in
theorem entry_slot : entry.slots selected = m.slots selected := by
  by_contra hne
  exact hkept ⟨selected, hi, hready, fun heq => hne heq.symm⟩

include hm hi hready hhead hqueue hkept in
/-- After the first store of the release the message is empty. -/
theorem ReceiveProgress.erase_size : ReceiveProgress
    (m.set_slot selected fun slot => { slot with payload_size := 0 }) entry := by
  have hentry := entry_slot hi hready hkept
  by_cases hsize : (m.slots selected).payload_size = 0
  · -- the message was empty already, and the store changes nothing
    have hslots : (m.set_slot selected fun slot => { slot with payload_size := 0 }).slots =
        m.slots := by
      funext j
      by_cases hj : j = selected
      · rw [hj, Memory.set_slot_slots_self, ← hsize]
      · rw [Memory.set_slot_slots_of_ne _ _ _ hj]
    have hsame : SameQueue m (m.set_slot selected fun slot => { slot with payload_size := 0 }) :=
      ⟨rfl, rfl, rfl, hslots, rfl, rfl, rfl⟩
    exact .untouched (hsame.sound hm) (hsame.queue.trans hqueue) (mt hsame.halfErased.mp hkept)
  · have hother (j : Nat) (hj : j ≠ selected) :
        (m.set_slot selected fun slot => { slot with payload_size := 0 }).slots j = m.slots j :=
      Memory.set_slot_slots_of_ne _ _ _ hj
    have hstate (j : Nat) :
        ((m.set_slot selected fun slot => { slot with payload_size := 0 }).slots j).state =
          (m.slots j).state := by
      by_cases hj : j = selected
      · rw [hj, Memory.set_slot_slots_self]
      · rw [hother j hj]
    have hsequence (j : Nat) :
        ((m.set_slot selected fun slot => { slot with payload_size := 0 }).slots j).sequence =
          (m.slots j).sequence := by
      by_cases hj : j = selected
      · rw [hj, Memory.set_slot_slots_self]
      · rw [hother j hj]
    have hwell : WellFormed (m.set_slot selected fun slot => { slot with payload_size := 0 }) := by
      refine ⟨fun j hj => ?_, fun j hj hj' => ?_, fun j k hj hk hrj hrk heq => ?_⟩
      · rw [hstate]
        exact hm.wellFormed.states j hj
      · rw [hstate] at hj'
        rw [hsequence]
        refine ⟨?_, (hm.wellFormed.ready j hj hj').2⟩
        by_cases hne : j = selected
        · rw [hne, Memory.set_slot_slots_self]
          exact Nat.zero_le _
        · rw [hother j hne]
          exact (hm.wellFormed.ready j hj hj').1
      · rw [hstate] at hrj hrk
        rw [hsequence, hsequence] at heq
        exact hm.wellFormed.distinct j k hj hk hrj hrk heq
    have hother_message (j : Nat) (hj : j ≠ selected) :
        (m.set_slot selected fun slot => { slot with payload_size := 0 }).message j = m.message j := by
      simp only [Memory.message, hother j hj]
      rfl
    refine .truncated (m.slots selected).sequence
      (m.payload_bytes selected (m.slots selected).payload_size) m.queue.tail hwell
      (hqueue.symm.trans hhead) ?_ ?_ ⟨selected, hi, by rw [hstate, hready], ?_⟩
      (hqueue ▸ hm.history) hm.increasing
    · intro hnil
      have hlength := congrArg List.length hnil
      simp only [Memory.payload_bytes, List.length_map, List.length_range, List.length_nil] at hlength
      exact hsize hlength
    · rw [hm.wellFormed.distinct.queue_alter hi (by rfl) hready hhead hwell.distinct
        (by rw [hstate, hready]) (hsequence selected) fun j _ hj => ⟨hstate j, hother_message j hj⟩]
      simp only [Memory.message, Memory.set_slot_slots_self, Memory.payload_bytes, List.range_zero,
        List.map_nil]
    · rw [Memory.set_slot_slots_self, hentry]
      intro heq
      exact hsize (congrArg ManagedMessageSlot.payload_size heq).symm

/-- The last store of `reset_managed_slot` frees the head of the queue. -/
theorem Sound.release (hm : Sound m) (hi : selected < m.header.message_capacity)
    (hready : (m.slots selected).state = ManagedSlotState.ready.word)
    (hhead : m.queue = m.message selected :: m.queue.tail)
    (hcapacity : t.header.message_capacity = m.header.message_capacity)
    (hmax : t.header.max_message_size = m.header.max_message_size)
    (hstride : t.header.payload_stride = m.header.payload_stride)
    (hnext : t.header.next_sequence = m.header.next_sequence) (hpayloads : t.payloads = m.payloads)
    (hfree : (t.slots selected).state = ManagedSlotState.free.word)
    (hother : ∀ j, j ≠ selected → t.slots j = m.slots j)
    (hhistory : t.history =
      { m.history with taken := m.history.taken ++ [(m.message selected, pid)] }) :
    Sound t ∧ t.queue = m.queue.tail := by
  have hmessage (j : Nat) (hj : j ≠ selected) : t.message j = m.message j := by
    simp only [Memory.message, Memory.payload_bytes, Memory.payload_base, hother j hj, hpayloads,
      hstride]
  have hkept (j : Nat) (hrj : (t.slots j).state = ManagedSlotState.ready.word) : j ≠ selected := by
    rintro rfl
    simp [hfree, ManagedSlotState.word] at hrj
  obtain ⟨hdistinct, hqueue⟩ := hm.wellFormed.distinct.queue_release hi hcapacity hready hhead
    (by simp [hfree, ManagedSlotState.word])
    fun j _ hj => ⟨by rw [hother j hj], hmessage j hj⟩
  refine ⟨⟨⟨fun j hj => ?_, fun j hj hrj => ?_, hdistinct⟩, ?_, ?_, ?_⟩, hqueue⟩
  · by_cases hne : j = selected
    · rw [hne]
      exact .inl hfree
    · rw [hother j hne]
      exact hm.wellFormed.states j (hcapacity ▸ hj)
  · have hne := hkept j hrj
    rw [hother j hne] at hrj ⊢
    rw [hmax, hnext]
    exact hm.wellFormed.ready j (hcapacity ▸ hj) hrj
  · simp only [hhistory, hqueue, List.map_append, List.map_cons, List.map_nil]
    rw [hm.history, List.append_assoc, List.singleton_append, ← hhead]
  · rw [hhistory]
    exact hm.increasing
  · rw [hhistory, hnext]
    exact hm.below

include hm hi hready hhead hqueue hkept in
/-- Taking the head of the queue out of its slot. -/
theorem release_slot_crashSafe
    (hG : ∀ s t, Releasing pid (m.message selected) m entry s →
      Releasing pid (m.message selected) m entry t → G s t)
    (hs : Settled m) (hconfigured : Configured m) :
    CrashSafe G (fun _ t => Released pid (m.message selected) m t)
      (release_slot pid selected (m.message selected)) m := by
  have hentry := entry_slot hi hready hkept
  have hm₀ : Releasing pid (m.message selected) m entry m :=
    ⟨⟨_, _, _, rfl⟩, .inl rfl, .untouched hm hqueue hkept⟩
  have ht₁ : Releasing pid (m.message selected) m entry
      (m.set_slot selected fun slot => { slot with payload_size := 0 }) :=
    ⟨⟨_, _, _, rfl⟩, .inl rfl, .erase_size hm hi hready hhead hqueue hkept⟩
  have ht₂ : Releasing pid (m.message selected) m entry
      ((m.set_slot selected fun slot => { slot with payload_size := 0 }).set_slot selected
        fun slot => { slot with sequence := 0 }) := by
    refine ⟨⟨_, _, _, rfl⟩, .inl rfl, .unsequenced selected hi ?_ ?_ ⟨selected, hi, ?_, ?_⟩
      (hqueue ▸ hm.history) hm.increasing⟩
    · simp only [Memory.set_slot_slots_self, hready]
    · simp only [Memory.set_slot_slots_self]
    · simp only [Memory.set_slot_slots_self, hready]
    · simp only [Memory.set_slot_slots_self, hentry]
      intro heq
      have hpos := (hm.wellFormed.ready selected hi hready).2.1
      have hzero := congrArg ManagedMessageSlot.sequence heq
      simp only at hzero
      omega
  obtain ⟨t₃, ht₃eq⟩ : ∃ t, t = (((m.set_slot selected fun slot =>
      { slot with payload_size := 0 }).set_slot selected fun slot =>
      { slot with sequence := 0 }).set_slot selected fun slot =>
      { slot with state := ManagedSlotState.free.word }).set_history fun history =>
      { history with taken := history.taken ++ [(m.message selected, pid)] } := ⟨_, rfl⟩
  have hheader₃ : t₃.header = m.header := by rw [ht₃eq]; rfl
  have hhistory₃ : t₃.history =
      { m.history with taken := m.history.taken ++ [(m.message selected, pid)] } := by rw [ht₃eq]; rfl
  have hfree₃ : (t₃.slots selected).state = ManagedSlotState.free.word := by
    rw [ht₃eq, Memory.set_history_slots, Memory.set_slot_slots_self]
  have hother₃ (j : Nat) (hj : j ≠ selected) : t₃.slots j = m.slots j := by
    simp only [ht₃eq, Memory.set_history_slots, Memory.set_slot_slots_of_ne _ _ _ hj]
  obtain ⟨hsound₃, hqueue₃⟩ := hm.release hi hready hhead (by rw [hheader₃]) (by rw [hheader₃])
    (by rw [hheader₃]) (by rw [hheader₃]) (by rw [ht₃eq]; rfl) hfree₃ hother₃ hhistory₃
  have ht₃ : Releasing pid (m.message selected) m entry t₃ := by
    refine ⟨by rw [hheader₃]; exact ⟨_, _, _, rfl⟩, .inr hhistory₃,
      .taken hsound₃ ?_ (by rw [hqueue₃, hqueue]) ?_⟩
    · rw [← hqueue, hhead]
      exact List.cons_ne_nil _ _
    · rintro ⟨j, hj, hrj, hne⟩
      have hne_selected : j ≠ selected := by
        rintro rfl
        simp [hfree₃, ManagedSlotState.word] at hrj
      rw [hother₃ j hne_selected] at hrj hne
      exact hkept ⟨j, by rwa [hheader₃] at hj, hrj, hne⟩
  have ht₄ := ht₃.set_header (fun h => { h with ready_messages := sub64 h.ready_messages 1 })
    ⟨_, _, _, rfl⟩
  have ht₅ := ht₄.set_header (fun h => { h with free_slots := add64 h.free_slots 1 }) ⟨_, _, _, rfl⟩
  have ht₆ := ht₅.set_header (fun h => { h with counters := { h.counters with
    received_messages := add64 h.counters.received_messages 1 } }) ⟨_, _, _, rfl⟩
  have ht₇ := ht₆.set_header (fun h => { h with counters := { h.counters with
    received_bytes := add64 h.counters.received_bytes (m.message selected).2.length } })
    ⟨_, _, _, rfl⟩
  have hsame : SameQueue t₃ ((((t₃.set_header fun h =>
      { h with ready_messages := sub64 h.ready_messages 1 }).set_header fun h =>
      { h with free_slots := add64 h.free_slots 1 }).set_header fun h =>
      { h with counters := { h.counters with
        received_messages := add64 h.counters.received_messages 1 } }).set_header fun h =>
      { h with counters := { h.counters with
        received_bytes := add64 h.counters.received_bytes (m.message selected).2.length } }) := by
    constructor <;> simp only [Memory.set_header_header, Memory.set_header_slots,
      Memory.set_header_payloads, Memory.set_header_history]
  simp only [release_slot, reset_managed_slot, Prog.bind_assoc, Memory.set_counters]
  refine CrashSafe.store_bind (hG _ _ hm₀ ht₁) ?_
  refine CrashSafe.store_bind (hG _ _ ht₁ ht₂) ?_
  rw [ht₃eq] at ht₃ ht₄ ht₅ ht₆ ht₇
  refine CrashSafe.store_bind (hG _ _ ht₂ ht₃) ?_
  refine CrashSafe.store_bind (hG _ _ ht₃ ht₄) ?_
  refine CrashSafe.store_bind (hG _ _ ht₄ ht₅) ?_
  refine CrashSafe.store_bind (hG _ _ ht₅ ht₆) ?_
  rw [← ht₃eq] at ht₆ ht₇ ⊢
  refine ⟨hG _ _ ht₆ ht₇, ht₇.header, ?_, hsame.sound hsound₃, ?_, hsame.queue.trans hqueue₃⟩
  · simp only [Memory.set_header_history, hhistory₃]
  · refine hs.release hm.wellFormed hconfigured hi hready ?_ ?_ (fun j hj => ?_) ?_ ?_ ?_
    · simp only [Memory.set_header_header, hheader₃]
    · simp only [Memory.set_header_slots, hfree₃]
    · simp only [Memory.set_header_slots, hother₃ j hj]
    all_goals simp only [Memory.set_header_header, hheader₃]

end

end shmchan.managed
