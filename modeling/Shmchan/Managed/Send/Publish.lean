import Shmchan.Managed.Scans

open process

namespace shmchan.managed

/-- A point of a publication that started in `m`. -/
structure Publishing (m t : Memory) : Prop where
  header : ∃ next_sequence next_slot_hint free_slots writing_messages ready_messages counters,
    t.header = { m.header with
      next_sequence := next_sequence, next_slot_hint := next_slot_hint, free_slots := free_slots,
      writing_messages := writing_messages, ready_messages := ready_messages, counters := counters }
  sound : Sound t
  claimed : t.header.next_sequence = t.history.claimed + 1
  claimed_lt : t.history.claimed < 2 ^ 64 - 1
  taken : t.history.taken = m.history.taken
  entry : t.history.entry = m.history.entry

/-- A point of a publication before its READY store: the selected slot is
    WRITING and nothing outside it and its payload area has changed. -/
structure Filling (m : Memory) (selected : Nat) (t : Memory) : Prop where
  header : ∃ next_sequence next_slot_hint free_slots writing_messages ready_messages counters,
    t.header = { m.header with
      next_sequence := next_sequence, next_slot_hint := next_slot_hint, free_slots := free_slots,
      writing_messages := writing_messages, ready_messages := ready_messages, counters := counters }
  next_le : m.header.next_sequence ≤ t.header.next_sequence
  claimed : t.header.next_sequence = t.history.claimed + 1
  claimed_lt : t.history.claimed < 2 ^ 64 - 1
  published : t.history.published = m.history.published
  taken : t.history.taken = m.history.taken
  entry : t.history.entry = m.history.entry
  writing : (t.slots selected).state = ManagedSlotState.writing.word
  slots : ∀ j, j ≠ selected → t.slots j = m.slots j
  payloads : ∀ j k, j ≠ selected → k < m.header.payload_stride →
    t.payloads (j * m.header.payload_stride + k) = m.payloads (j * m.header.payload_stride + k)

namespace Publishing

variable {m t : Memory}

theorem capacity (h : Publishing m t) :
    t.header.message_capacity = m.header.message_capacity := by
  obtain ⟨_, _, _, _, _, _, hheader⟩ := h.header
  rw [hheader]

theorem max (h : Publishing m t) : t.header.max_message_size = m.header.max_message_size := by
  obtain ⟨_, _, _, _, _, _, hheader⟩ := h.header
  rw [hheader]

/-- The stores around and after the READY store: the counts, the hint and the
    metrics. -/
theorem set_header (h : Publishing m t) (f : ManagedSharedHeader → ManagedSharedHeader)
    (hf : ∃ next_slot_hint free_slots writing_messages ready_messages counters,
      f t.header = { t.header with
        next_slot_hint := next_slot_hint, free_slots := free_slots,
        writing_messages := writing_messages, ready_messages := ready_messages,
        counters := counters }) :
    Publishing m (t.set_header f) := by
  obtain ⟨_, _, _, _, _, _, hheader⟩ := h.header
  obtain ⟨v, w, x, y, z, hf⟩ := hf
  have hsame : SameQueue t (t.set_header f) := by
    constructor <;> first | rfl | simp only [Memory.set_header_header, hf]
  refine ⟨⟨t.header.next_sequence, v, w, x, y, z, ?_⟩, hsame.sound h.sound, ?_, h.claimed_lt, h.taken,
    h.entry⟩
  · rw [Memory.set_header_header, hf, hheader]
  · rw [hsame.next]
    exact h.claimed

end Publishing

/-- The result of a publication that started in `m`. -/
structure Published (m : Memory) (message : Bytes) (t : Memory) : Prop where
  publishing : Publishing m t
  settled : Settled t
  next : t.header.next_sequence = m.header.next_sequence + 1
  queue : t.queue = m.queue ++ [(m.header.next_sequence, message)]
  published : t.history.published = m.history.published ++ [(m.header.next_sequence, message)]

/-- The selected slot has its sequence and the first two counts are stored. -/
structure Reserved (m : Memory) (selected : Nat) (t : Memory) : Prop where
  filling : Filling m selected t
  next : t.header.next_sequence = m.header.next_sequence + 1
  sequence : (t.slots selected).sequence = m.header.next_sequence
  free : t.header.free_slots = sub64 m.header.free_slots 1
  writing_messages : t.header.writing_messages = add64 m.header.writing_messages 1
  ready : t.header.ready_messages = m.header.ready_messages

namespace Filling

variable {m t : Memory} {selected : Nat}

theorem capacity (h : Filling m selected t) :
    t.header.message_capacity = m.header.message_capacity := by
  obtain ⟨_, _, _, _, _, _, hheader⟩ := h.header
  rw [hheader]

theorem max (h : Filling m selected t) :
    t.header.max_message_size = m.header.max_message_size := by
  obtain ⟨_, _, _, _, _, _, hheader⟩ := h.header
  rw [hheader]

theorem stride (h : Filling m selected t) :
    t.header.payload_stride = m.header.payload_stride := by
  obtain ⟨_, _, _, _, _, _, hheader⟩ := h.header
  rw [hheader]

theorem set_header (h : Filling m selected t) (f : ManagedSharedHeader → ManagedSharedHeader)
    (hf : ∃ next_slot_hint free_slots writing_messages ready_messages counters,
      f t.header = { t.header with
        next_slot_hint := next_slot_hint, free_slots := free_slots,
        writing_messages := writing_messages, ready_messages := ready_messages,
        counters := counters }) :
    Filling m selected (t.set_header f) := by
  obtain ⟨_, _, _, _, _, _, hheader⟩ := h.header
  obtain ⟨v, w, x, y, z, hf⟩ := hf
  have hnext : (t.set_header f).header.next_sequence = t.header.next_sequence := by
    rw [Memory.set_header_header, hf]
  refine ⟨⟨t.header.next_sequence, v, w, x, y, z, ?_⟩, hnext ▸ h.next_le, hnext ▸ h.claimed,
    h.claimed_lt, h.published, h.taken, h.entry, h.writing, h.slots, h.payloads⟩
  rw [Memory.set_header_header, hf, hheader]

theorem set_slot (h : Filling m selected t) (f : ManagedMessageSlot → ManagedMessageSlot)
    (hf : (f (t.slots selected)).state = ManagedSlotState.writing.word) :
    Filling m selected (t.set_slot selected f) := by
  refine ⟨h.header, h.next_le, h.claimed, h.claimed_lt, h.published, h.taken, h.entry, ?_, ?_,
    h.payloads⟩
  · simpa using hf
  · intro j hj
    rw [Memory.set_slot_slots_of_ne _ _ _ hj, h.slots j hj]

theorem claim (h : Filling m selected t) {sequence : Nat}
    (hsequence : t.header.next_sequence = sequence) (hroom : sequence < 2 ^ 64 - 1) :
    Filling m selected ((t.set_header fun h =>
      { h with next_sequence := add64 h.next_sequence 1 }).set_history fun history =>
        { history with claimed := history.claimed + 1 }) := by
  obtain ⟨_, w, x, y, z, c, hheader⟩ := h.header
  subst hsequence
  have hadd : add64 t.header.next_sequence 1 = t.header.next_sequence + 1 := add64_of_lt (by omega)
  have hclaimed := h.claimed
  have hle := h.next_le
  refine ⟨⟨t.header.next_sequence + 1, w, x, y, z, c, ?_⟩, ?_, ?_, ?_, h.published, h.taken, h.entry,
    h.writing, h.slots, h.payloads⟩
  · simp only [Memory.set_history_header, Memory.set_header_header, hadd]
    rw [hheader]
  · simp only [Memory.set_history_header, Memory.set_header_header, hadd]
    omega
  · simp only [Memory.set_history_header, Memory.set_header_header, Memory.set_history_history,
      Memory.set_header_history, hadd]
    omega
  · simp only [Memory.set_history_history, Memory.set_header_history]
    omega

/-- One byte stored into the payload area of the selected slot. -/
theorem set_payload (h : Filling m selected t) (offset : Nat)
    (hoffset : offset < m.header.payload_stride) (byte : UInt8) :
    Filling m selected
      { t with payloads := Function.update t.payloads (t.payload_base selected + offset) byte } := by
  refine ⟨h.header, h.next_le, h.claimed, h.claimed_lt, h.published, h.taken, h.entry, h.writing,
    h.slots, fun j k hj hk => ?_⟩
  have hne : j * m.header.payload_stride + k ≠ t.payload_base selected + offset := by
    rw [Memory.payload_base, h.stride]
    intro heq
    have hdiv := congrArg (· / m.header.payload_stride) heq
    simp only [Nat.mul_comm _ m.header.payload_stride] at hdiv
    rw [Nat.mul_add_div (by omega), Nat.mul_add_div (by omega), Nat.div_eq_of_lt hk,
      Nat.div_eq_of_lt hoffset] at hdiv
    exact hj hdiv
  simp only [Function.update_of_ne hne]
  exact h.payloads j k hj hk

variable (hi : selected < m.header.message_capacity)
  (hfree : (m.slots selected).state = ManagedSlotState.free.word)

include hfree in
theorem ready_iff (h : Filling m selected t) (j : Nat) :
    (t.slots j).state = ManagedSlotState.ready.word ↔
      (m.slots j).state = ManagedSlotState.ready.word := by
  by_cases hj : j = selected
  · subst hj
    simp [h.writing, hfree, ManagedSlotState.word]
  · rw [h.slots j hj]

include hfree in
theorem ne_selected {j : Nat} (hready : (m.slots j).state = ManagedSlotState.ready.word) :
    j ≠ selected := by
  rintro rfl
  simp [hready, ManagedSlotState.word] at hfree

/-- Messages in other slots are untouched. -/
theorem message (h : Filling m selected t) (hconfigured : Configured m) (hm : WellFormed m)
    {j : Nat} (hj : j < m.header.message_capacity) (hne : j ≠ selected)
    (hready : (m.slots j).state = ManagedSlotState.ready.word) : t.message j = m.message j := by
  have hsize := (hm.ready j hj hready).1
  have hstride := hconfigured.max_le_stride
  simp only [Memory.message, Memory.payload_bytes, Memory.payload_base, h.slots j hne, h.stride,
    Prod.mk.injEq, true_and]
  apply List.map_congr_left
  intro k hk
  exact h.payloads j k hne (by have := List.mem_range.mp hk; omega)

include hfree in
theorem queue (h : Filling m selected t) (hconfigured : Configured m) (hm : WellFormed m) :
    t.queue = m.queue :=
  Memory.queue_congr h.capacity (fun j _ => h.ready_iff hfree j) fun _ hj hready =>
    h.message hconfigured hm hj (ne_selected hfree hready) hready

include hfree in
theorem sound (h : Filling m selected t) (hconfigured : Configured m) (hm : Sound m) : Sound t := by
  have hnext := h.next_le
  have hwell : WellFormed t := by
    refine ⟨fun j hj => ?_, fun j hj hready => ?_, fun j k hj hk hrj hrk heq => ?_⟩
    · rw [h.capacity] at hj
      by_cases hne : j = selected
      · exact .inr (.inl (hne ▸ h.writing))
      · rw [h.slots j hne]
        exact hm.wellFormed.states j hj
    · rw [h.capacity] at hj
      have hready' := (h.ready_iff hfree j).mp hready
      have hgood := hm.wellFormed.ready j hj hready'
      rw [h.slots j (ne_selected hfree hready'), h.max]
      exact ⟨hgood.1, hgood.2.1, by omega⟩
    · rw [h.capacity] at hj hk
      have hrj' := (h.ready_iff hfree j).mp hrj
      have hrk' := (h.ready_iff hfree k).mp hrk
      rw [h.slots j (ne_selected hfree hrj'), h.slots k (ne_selected hfree hrk')] at heq
      exact hm.wellFormed.distinct j k hj hk hrj' hrk' heq
  refine ⟨hwell, ?_, ?_, fun x hx => ?_⟩
  · rw [h.published, h.taken, h.queue hfree hconfigured hm.wellFormed]
    exact hm.history
  · rw [h.published]
    exact hm.increasing
  · rw [h.published] at hx
    have := hm.below x hx
    omega

include hfree in
theorem publishing (h : Filling m selected t) (hconfigured : Configured m) (hm : Sound m) :
    Publishing m t :=
  ⟨h.header, h.sound hfree hconfigured hm, h.claimed, h.claimed_lt, h.taken, h.entry⟩

end Filling

section

variable {G : Memory → Memory → Prop} {m : Memory} {selected : Nat}

/-- The copy fills the selected payload area and touches nothing else. -/
theorem copy_payload_crashSafe (hG : ∀ s t, Filling m selected s → Filling m selected t → G s t)
    (message : Bytes) (offset : Nat) {t : Memory} (ht : Filling m selected t)
    (hfits : offset + message.length ≤ m.header.payload_stride) :
    CrashSafe G (fun _ t' => ∃ payloads, t' = { t with payloads := payloads } ∧
        Filling m selected t' ∧
        (∀ x, x < t.payload_base selected + offset → payloads x = t.payloads x) ∧
        (List.range message.length).map
          (fun k => payloads (t.payload_base selected + (offset + k))) = message)
      (copy_payload selected offset message) t := by
  induction message generalizing offset t with
  | nil => exact ⟨t.payloads, rfl, ht, fun _ _ => rfl, rfl⟩
  | cons byte rest ih =>
    rw [List.length_cons] at hfits
    have ht₁ := ht.set_payload offset (by omega) byte
    rw [copy_payload]
    refine CrashSafe.store_bind (hG _ _ ht ht₁) ?_
    refine (ih (offset + 1) ht₁ (by omega)).mono (fun _ _ h => h) ?_
    rintro _ t' ⟨payloads, rfl, ht', hkept, hcopied⟩
    have hbase : Memory.payload_base
        { t with payloads := Function.update t.payloads (t.payload_base selected + offset) byte }
        selected = t.payload_base selected := rfl
    rw [hbase] at hkept hcopied
    refine ⟨payloads, rfl, ht', fun x hx => ?_, ?_⟩
    · rw [hkept x (by omega)]
      exact Function.update_of_ne (by omega) ..
    · have hbyte : payloads (t.payload_base selected + offset) = byte := by
        rw [hkept _ (by omega)]
        exact Function.update_self ..
      rw [List.length_cons, List.range_succ_eq_map, List.map_cons, List.map_map, Nat.add_zero, hbyte]
      congr 1
      calc (List.range rest.length).map
            ((fun k => payloads (t.payload_base selected + (offset + k))) ∘ Nat.succ)
          = (List.range rest.length).map
            (fun k => payloads (t.payload_base selected + (offset + 1 + k))) := by
              apply List.map_congr_left
              intro k _
              simp only [Function.comp_apply, Nat.succ_eq_add_one]
              congr 1
              omega
        _ = rest := hcopied

/-- The READY store: the filled slot joins the queue as its last message. -/
theorem Filling.ready_store {t : Memory} (ht : Filling m selected t)
    (hi : selected < m.header.message_capacity)
    (hfree : (m.slots selected).state = ManagedSlotState.free.word) (hconfigured : Configured m)
    (hm : Sound m) (hpos : 0 < m.header.next_sequence)
    (hnext : t.header.next_sequence = m.header.next_sequence + 1)
    (hsequence : (t.slots selected).sequence = m.header.next_sequence) (message : Bytes)
    (hsize : (t.slots selected).payload_size = message.length)
    (hlength : message.length ≤ m.header.max_message_size)
    (hbytes : t.payload_bytes selected message.length = message) {t' : Memory}
    (ht' : t' = (t.set_slot selected fun slot =>
      { slot with state := ManagedSlotState.ready.word }).set_history fun history =>
        { history with published := history.published ++ [(m.header.next_sequence, message)] }) :
    Publishing m t' ∧ t'.queue = m.queue ++ [(m.header.next_sequence, message)] := by
  have hsound := ht.sound hfree hconfigured hm
  have hqueue := ht.queue hfree hconfigured hm.wellFormed
  have hheader : t'.header = t.header := by rw [ht']; rfl
  have hslot : t'.slots selected = { t.slots selected with state := ManagedSlotState.ready.word } := by
    rw [ht', Memory.set_history_slots, Memory.set_slot_slots_self]
  have hother (j : Nat) (hj : j ≠ selected) : t'.slots j = t.slots j := by
    rw [ht', Memory.set_history_slots, Memory.set_slot_slots_of_ne _ _ _ hj]
  have hpayloads (j size : Nat) : t'.payload_bytes j size = t.payload_bytes j size := by
    rw [ht']
    rfl
  have hmessage : t'.message selected = (m.header.next_sequence, message) := by
    rw [Memory.message, hpayloads, hslot]
    simp only [hsequence, hsize, hbytes]
  have habove : ∀ x ∈ t.queue, x.1 < (t'.slots selected).sequence := by
    intro x hx
    rw [hqueue] at hx
    rw [hslot]
    simp only [hsequence]
    exact hm.below x (by rw [hm.history]; exact List.mem_append_right _ hx)
  have hjoin := @Memory.Distinct.queue_publish _ t' selected hsound.wellFormed.distinct
    (by rw [ht.capacity]; exact hi) (by rw [hheader])
    (by simp [ht.writing, ManagedSlotState.word]) (by rw [hslot])
    (fun j _ hj => ⟨by rw [hother j hj], by simp only [Memory.message, hpayloads, hother j hj]⟩) habove
  rw [hqueue, hmessage] at hjoin
  have hpublished : t'.history.published =
      m.history.published ++ [(m.header.next_sequence, message)] := by
    rw [ht', ← ht.published]
    rfl
  have htaken : t'.history.taken = m.history.taken := by
    rw [ht', ← ht.taken]
    rfl
  refine ⟨⟨by rw [hheader]; exact ht.header, ⟨⟨fun j hj => ?_, fun j hj hready => ?_, hjoin.1⟩, ?_, ?_, ?_⟩,
    ?_, ?_, htaken, ?_⟩, hjoin.2⟩
  · by_cases hne : j = selected
    · rw [hne, hslot]
      exact .inr (.inr rfl)
    · rw [hother j hne]
      exact hsound.wellFormed.states j (hheader ▸ hj)
  · by_cases hne : j = selected
    · rw [hne, hslot, hheader, ht.max]
      simp only [hsize, hsequence, hnext]
      omega
    · rw [hother j hne] at hready ⊢
      rw [hheader]
      exact hsound.wellFormed.ready j (hheader ▸ hj) hready
  · rw [hpublished, htaken, hjoin.2, hm.history, List.append_assoc]
  · rw [hpublished]
    refine List.pairwise_append.mpr ⟨hm.increasing, List.pairwise_singleton _ _, fun x hx y hy => ?_⟩
    rw [List.mem_singleton.mp hy]
    exact hm.below x hx
  · intro x hx
    rw [hpublished, List.mem_append, List.mem_singleton] at hx
    rw [hheader, hnext]
    rcases hx with hx | rfl
    · have := hm.below x hx
      omega
    · exact Nat.lt_succ_self _
  · rw [hheader, ht']
    exact ht.claimed
  · rw [ht']
    exact ht.claimed_lt
  · rw [ht']
    exact ht.entry

/-- The counts of a publication: one FREE slot became READY. -/
theorem Settled.publish {t : Memory} (hs : Settled m) (hm : WellFormed m) (hconfigured : Configured m)
    (hi : selected < m.header.message_capacity)
    (hfree : (m.slots selected).state = ManagedSlotState.free.word)
    (hcapacity : t.header.message_capacity = m.header.message_capacity)
    (hready : (t.slots selected).state = ManagedSlotState.ready.word)
    (hother : ∀ j, j ≠ selected → (t.slots j).state = (m.slots j).state)
    (hfree_slots : t.header.free_slots = sub64 m.header.free_slots 1)
    (hwriting_messages : t.header.writing_messages = sub64 (add64 m.header.writing_messages 1) 1)
    (hready_messages : t.header.ready_messages = add64 m.header.ready_messages 1) : Settled t := by
  have hsum := hs.counts_add hm
  have hlt := hconfigured.capacity_lt
  have hcount (state : ManagedSlotState) := countP_range_update
    (p := fun j => decide ((m.slots j).state = state.word))
    (q := fun j => decide ((t.slots j).state = state.word)) hi fun j hj => by rw [hother j hj]
  have hcount_free := hcount .free
  have hcount_ready := hcount .ready
  simp only [hfree, hready, ManagedSlotState.word, decide_true, Bool.toNat_true, Nat.reduceEqDiff,
    decide_false, Bool.toNat_false, Nat.add_zero] at hcount_free hcount_ready
  simp only [Memory.slots_in_length, ManagedSlotState.word] at hsum
  refine ⟨fun j hj => ?_, ?_, ?_, ?_⟩
  · by_cases hne : j = selected
    · simp [hne, hready, ManagedSlotState.word]
    · rw [hother j hne]
      exact hs.idle j (hcapacity ▸ hj)
  · rw [hfree_slots, hs.free, Memory.slots_in_length, Memory.slots_in_length, hcapacity,
      sub64_of_le] <;> simp only [ManagedSlotState.word] <;> omega
  · rw [hwriting_messages, hs.writing, add64_of_lt (by omega), sub64_of_le (by omega) (by omega)]
  · rw [hready_messages, hs.ready, Memory.slots_in_length, Memory.slots_in_length, hcapacity,
      add64_of_lt] <;> simp only [ManagedSlotState.word] <;> omega

/-- The stores before the copy reserve the slot and the next sequence. -/
theorem reserve_slot_crashSafe (hG : ∀ s t, Publishing m s → Publishing m t → G s t)
    (hconfigured : Configured m) (hm : Sound m)
    (hclaimed : m.header.next_sequence = m.history.claimed + 1)
    (hroom : m.header.next_sequence < 2 ^ 64 - 1)
    (hfree : (m.slots selected).state = ManagedSlotState.free.word) :
    CrashSafe G (fun sequence t => sequence = m.header.next_sequence ∧ Reserved m selected t)
      (reserve_slot selected) m := by
  have hGF : ∀ s t, Filling m selected s → Filling m selected t → G s t := fun s t hs ht =>
    hG s t (hs.publishing hfree hconfigured hm) (ht.publishing hfree hconfigured hm)
  have hm₀ : Publishing m m :=
    ⟨⟨_, _, _, _, _, _, rfl⟩, hm, hclaimed, by omega, rfl, rfl⟩
  have ht₁ : Filling m selected (m.set_slot selected fun slot =>
      { slot with state := ManagedSlotState.writing.word }) :=
    ⟨⟨_, _, _, _, _, _, rfl⟩, Nat.le_refl _, hclaimed, by rw [Memory.set_slot_history]; omega, rfl, rfl,
      rfl, by rw [Memory.set_slot_slots_self], fun j hj => Memory.set_slot_slots_of_ne _ _ _ hj,
      fun _ _ _ _ => rfl⟩
  have ht₂ := ht₁.set_header (fun h => { h with free_slots := sub64 h.free_slots 1 })
    ⟨_, _, _, _, _, rfl⟩
  have ht₃ := ht₂.set_header (fun h => { h with writing_messages := add64 h.writing_messages 1 })
    ⟨_, _, _, _, _, rfl⟩
  have ht₄ := ht₃.set_slot (fun slot => { slot with payload_size := 0 }) ht₃.writing
  have ht₅ := ht₄.claim
    (by simp only [Memory.set_slot_header, Memory.set_header_header]) hroom
  have ht₆ := ht₅.set_slot (fun slot => { slot with sequence := m.header.next_sequence }) ht₅.writing
  unfold reserve_slot
  have hs₁ := hG _ _ hm₀ (ht₁.publishing hfree hconfigured hm)
  refine CrashSafe.store_bind hs₁ ?_
  refine CrashSafe.store_bind (hGF _ _ ht₁ ht₂) ?_
  refine CrashSafe.store_bind (hGF _ _ ht₂ ht₃) ?_
  refine CrashSafe.store_bind (hGF _ _ ht₃ ht₄) ?_
  refine CrashSafe.modifyGet_bind (a := m.header.next_sequence)
    (by simp only [Memory.set_slot_header, Memory.set_header_header]) (hGF _ _ ht₄ ht₅) ?_
  refine CrashSafe.store_bind (hGF _ _ ht₅ ht₆) ⟨rfl, ht₆, ?_, ?_, ?_, ?_, ?_⟩
  · simp only [Memory.set_slot_header, Memory.set_history_header, Memory.set_header_header]
    exact add64_of_lt (by omega)
  · simp only [Memory.set_slot_slots_self]
  all_goals simp only [Memory.set_slot_header, Memory.set_history_header, Memory.set_header_header]

/-- The stores after the READY store settle the counts. -/
theorem count_published_crashSafe (hG : ∀ s t, Publishing m s → Publishing m t → G s t)
    (hconfigured : Configured m) (hm : Sound m) (hs : Settled m)
    (hi : selected < m.header.message_capacity)
    (hfree : (m.slots selected).state = ManagedSlotState.free.word) {t : Memory}
    (ht : Publishing m t) (hready : (t.slots selected).state = ManagedSlotState.ready.word)
    (hother : ∀ j, j ≠ selected → (t.slots j).state = (m.slots j).state)
    (hfree_slots : t.header.free_slots = sub64 m.header.free_slots 1)
    (hwriting_messages : t.header.writing_messages = add64 m.header.writing_messages 1)
    (hready_messages : t.header.ready_messages = m.header.ready_messages) (capacity size : Nat) :
    CrashSafe G (fun _ t' => Publishing m t' ∧ Settled t' ∧
        t'.header.next_sequence = t.header.next_sequence ∧ t'.queue = t.queue ∧
        t'.history = t.history)
      (count_published selected capacity size) t := by
  have ht₁ := ht.set_header (fun h => { h with writing_messages := sub64 h.writing_messages 1 })
    ⟨_, _, _, _, _, rfl⟩
  have ht₂ := ht₁.set_header (fun h => { h with ready_messages := add64 h.ready_messages 1 })
    ⟨_, _, _, _, _, rfl⟩
  have ht₃ := ht₂.set_header (fun h => { h with next_slot_hint := (selected + 1) % capacity })
    ⟨_, _, _, _, _, rfl⟩
  have ht₄ := ht₃.set_header (fun h => { h with counters := { h.counters with
    sent_messages := add64 h.counters.sent_messages 1 } }) ⟨_, _, _, _, _, rfl⟩
  have ht₅ := ht₄.set_header (fun h => { h with counters := { h.counters with
    sent_bytes := add64 h.counters.sent_bytes size } }) ⟨_, _, _, _, _, rfl⟩
  simp only [count_published, Memory.set_counters]
  refine CrashSafe.store_bind (hG _ _ ht ht₁) ?_
  refine CrashSafe.store_bind (hG _ _ ht₁ ht₂) ?_
  refine CrashSafe.store_bind (hG _ _ ht₂ ht₃) ?_
  refine CrashSafe.store_bind (hG _ _ ht₃ ht₄) ?_
  refine ⟨hG _ _ ht₄ ht₅, ht₅, ?_, ?_, ?_, ?_⟩
  · refine hs.publish hm.wellFormed hconfigured hi hfree ht₅.capacity hready hother ?_ ?_ ?_
    · simp only [Memory.set_header_header, hfree_slots]
    · simp only [Memory.set_header_header, hwriting_messages]
    · simp only [Memory.set_header_header, hready_messages]
  · simp only [Memory.set_header_header]
  · rw [Memory.queue_set_header, Memory.queue_set_header, Memory.queue_set_header,
      Memory.queue_set_header, Memory.queue_set_header] <;> simp only [Memory.set_header_header]
  · simp only [Memory.set_header_history]

/-- A publication into a FREE slot, with the lock held and the sequence in
    range, appends the message to the queue and leaves the memory settled. -/
theorem publish_message_crashSafe (hG : ∀ s t, Publishing m s → Publishing m t → G s t)
    (hconfigured : Configured m) (hm : Sound m) (hs : Settled m)
    (hclaimed : m.header.next_sequence = m.history.claimed + 1)
    (hroom : m.header.next_sequence < 2 ^ 64 - 1) (hi : selected < m.header.message_capacity)
    (hfree : (m.slots selected).state = ManagedSlotState.free.word) (message : Bytes)
    (hlength : message.length ≤ m.header.max_message_size) :
    CrashSafe G (fun _ t => Published m message t)
      (publish_message selected m.header.message_capacity message) m := by
  have hGF : ∀ s t, Filling m selected s → Filling m selected t → G s t := fun s t hs ht =>
    hG s t (hs.publishing hfree hconfigured hm) (ht.publishing hfree hconfigured hm)
  have hstride : message.length ≤ m.header.payload_stride :=
    hlength.trans hconfigured.max_le_stride
  have hmod : message.length % 2 ^ 32 = message.length := Nat.mod_eq_of_lt (by
    have := hconfigured.max_lt
    omega)
  unfold publish_message
  apply (reserve_slot_crashSafe hG hconfigured hm hclaimed hroom hfree).bind
  rintro _ t ⟨rfl, ht⟩
  apply (copy_payload_crashSafe hGF message 0 ht.filling (by omega)).bind
  rintro _ t₁ ⟨payloads, ht₁eq, ht₁, _, hcopied⟩
  have hslots₁ : t₁.slots = t.slots := by rw [ht₁eq]
  have hheader₁ : t₁.header = t.header := by rw [ht₁eq]
  have hbytes₁ : t₁.payload_bytes selected message.length = message := by
    rw [ht₁eq]
    simpa [Memory.payload_bytes, Memory.payload_base] using hcopied
  rw [hmod]
  have ht₂ := ht₁.set_slot (fun slot => { slot with payload_size := message.length }) ht₁.writing
  refine CrashSafe.store_bind (hGF _ _ ht₁ ht₂) ?_
  obtain ⟨ht₃, hqueue⟩ := ht₂.ready_store hi hfree hconfigured hm (by omega)
    (by rw [Memory.set_slot_header, hheader₁]; exact ht.next)
    (by rw [Memory.set_slot_slots_self, hslots₁]; exact ht.sequence) message
    (by rw [Memory.set_slot_slots_self]) hlength hbytes₁ rfl
  refine CrashSafe.store_bind (hG _ _ (ht₂.publishing hfree hconfigured hm) ht₃) ?_
  have hcount := count_published_crashSafe hG hconfigured hm hs hi hfree ht₃
    (by rw [Memory.set_history_slots, Memory.set_slot_slots_self])
    (fun j hj => by
      rw [Memory.set_history_slots, Memory.set_slot_slots_of_ne _ _ _ hj, ht₂.slots j hj])
    (by simp only [Memory.set_history_header, Memory.set_slot_header, hheader₁, ht.free])
    (by simp only [Memory.set_history_header, Memory.set_slot_header, hheader₁, ht.writing_messages])
    (by simp only [Memory.set_history_header, Memory.set_slot_header, hheader₁, ht.ready])
    m.header.message_capacity message.length
  refine hcount.mono (fun _ _ h => h) ?_
  rintro _ t₄ ⟨ht₄, hsettled, hnext, hqueue', hhistory⟩
  refine ⟨ht₄, hsettled, ?_, hqueue'.trans hqueue, ?_⟩
  · rw [hnext, Memory.set_history_header, Memory.set_slot_header, Memory.set_slot_header, hheader₁]
    exact ht.next
  · rw [hhistory, Memory.set_history_history, Memory.set_slot_history, Memory.set_slot_history,
      ht₁.published]

end

end shmchan.managed
