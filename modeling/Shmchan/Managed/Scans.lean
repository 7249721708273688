import Shmchan.Managed.Recovery.Restores

open process

namespace shmchan.managed

section

variable {G : Memory → Memory → Prop} {m : Memory}

/-- FREE and READY slots make up the whole array once no slot is WRITING. -/
theorem Settled.counts_add (hs : Settled m) (hm : WellFormed m) :
    (m.slots_in .free).length + (m.slots_in .ready).length = m.header.message_capacity := by
  have hsplit := List.length_eq_countP_add_countP
    (fun i => decide ((m.slots i).state = ManagedSlotState.free.word))
    (l := List.range m.header.message_capacity)
  have hrest : (List.range m.header.message_capacity).countP
      (fun i => decide ¬decide ((m.slots i).state = ManagedSlotState.free.word) = true) =
      (m.slots_in .ready).length := by
    rw [Memory.slots_in_length]
    apply List.countP_congr
    intro i hi
    have hi := List.mem_range.mp hi
    rcases hm.states i hi with h | h | h
    · simp [h, ManagedSlotState.word]
    · exact absurd h (hs.idle i hi)
    · simp [h, ManagedSlotState.word]
  rw [hrest, List.length_range] at hsplit
  rw [Memory.slots_in_length]
  exact hsplit.symm

theorem validate_scan_crashSafe (hG : G m m) (hm : WellFormed m)
    (hidle : ∀ i, i < m.header.message_capacity →
      (m.slots i).state ≠ ManagedSlotState.writing.word)
    (todo index free_count ready_count : Nat) (hindex : index + todo = m.header.message_capacity)
    (hscan : Scanned m index free_count ready_count) :
    CrashSafe G (fun result t => t = m ∧ ∃ free_count ready_count,
        result = some (free_count, 0, ready_count) ∧
          Scanned m m.header.message_capacity free_count ready_count)
      (validate_scan todo index free_count 0 ready_count) m := by
  induction todo generalizing index free_count ready_count with
  | zero => exact ⟨rfl, free_count, ready_count, rfl, by simpa [← hindex] using hscan⟩
  | succ todo ih =>
    rw [validate_scan]
    apply CrashSafe.load_bind hG
    have hi : index < m.header.message_capacity := by omega
    split_ifs with hfree hwriting hready
    · exact ih _ _ _ (by omega) (hscan.passes_free hfree)
    · exact absurd hwriting (hidle index hi)
    · apply CrashSafe.load_bind hG
      have hgood := hm.ready index hi hready
      have hcorrupt : ready_slot_is_corrupt m index = false := by
        simp [ready_slot_is_corrupt, hgood.1, Nat.pos_iff_ne_zero.mp hgood.2.1]
      rw [if_neg (by simp [hcorrupt])]
      exact ih _ _ _ (by omega) (hscan.passes_ready hready)
    · rcases hm.states index hi with h | h | h <;> contradiction

/-- Validation accepts a settled memory and stores nothing. -/
theorem validate_managed_slots_crashSafe (hG : G m m) (hm : WellFormed m) (hs : Settled m) :
    CrashSafe G (fun result t => result = true ∧ t = m) validate_managed_slots m := by
  unfold validate_managed_slots
  apply CrashSafe.load_bind hG
  apply (validate_scan_crashSafe hG hm hs.idle _ 0 0 0 (by omega) (Scanned.zero m)).bind
  rintro _ _ ⟨rfl, free_count, ready_count, rfl, hscan⟩
  apply CrashSafe.load_bind hG
  have hfree := hscan.free
  have hready := hscan.ready
  rw [← Memory.slots_in_length] at hfree hready
  have hsum := hs.counts_add hm
  rw [if_pos]
  · exact ⟨rfl, rfl⟩
  · simp [counts_are_consistent, hfree, hready, hs.free, hs.ready, hs.writing, hsum]

/-- The circular scan passes every index of the array. -/
theorem exists_offset {n i : Nat} (start : Nat) (hi : i < n) : ∃ k, k < n ∧ (start + k) % n = i := by
  have hn : 0 < n := by omega
  have hlt := Nat.mod_lt start hn
  refine ⟨(i + n - start % n) % n, Nat.mod_lt _ hn, ?_⟩
  calc (start + (i + n - start % n) % n) % n
      = (start % n + (i + n - start % n)) % n := by rw [Nat.add_mod_mod, Nat.mod_add_mod]
    _ = (i + n) % n := by congr 1; omega
    _ = i := by rw [Nat.add_mod_right, Nat.mod_eq_of_lt hi]

theorem find_free_slot_scan_crashSafe (hG : G m m) {start : Nat} (todo offset : Nat)
    (hn : 0 < m.header.message_capacity) (hoffset : offset + todo = m.header.message_capacity)
    (hpassed : ∀ k, k < offset →
      (m.slots ((start + k) % m.header.message_capacity)).state ≠ ManagedSlotState.free.word) :
    CrashSafe G (fun result t => t = m ∧
        ((∃ i, result = some i ∧ i < m.header.message_capacity ∧
            (m.slots i).state = ManagedSlotState.free.word) ∨
          (result = none ∧ ∀ k, k < m.header.message_capacity →
            (m.slots ((start + k) % m.header.message_capacity)).state ≠ ManagedSlotState.free.word)))
      (find_free_slot m.header.message_capacity start todo offset) m := by
  induction todo generalizing offset with
  | zero => exact ⟨rfl, .inr ⟨rfl, fun k hk => hpassed k (by omega)⟩⟩
  | succ todo ih =>
    rw [find_free_slot]
    apply CrashSafe.load_bind hG
    split_ifs with hfree
    · exact ⟨rfl, .inl ⟨_, rfl, Nat.mod_lt _ hn, hfree⟩⟩
    · refine ih (offset + 1) (by omega) fun k hk => ?_
      by_cases heq : k = offset
      · subst heq
        exact hfree
      · exact hpassed k (by omega)

/-- While a slot is FREE the circular scan finds one, from any start. -/
theorem find_free_slot_crashSafe (hG : G m m) (start : Nat) (hfree : 0 < (m.slots_in .free).length) :
    CrashSafe G (fun result t => t = m ∧ ∃ i, result = some i ∧ i < m.header.message_capacity ∧
        (m.slots i).state = ManagedSlotState.free.word)
      (find_free_slot m.header.message_capacity start m.header.message_capacity 0) m := by
  obtain ⟨i, hi⟩ := List.exists_mem_of_length_pos hfree
  obtain ⟨hi, hstate⟩ := Memory.mem_slots_in.mp hi
  apply (find_free_slot_scan_crashSafe hG _ 0 (by omega) (by omega) (by omega)).mono fun _ _ h => h
  rintro result t ⟨rfl, hfound | ⟨_, hnone⟩⟩
  · exact ⟨rfl, hfound⟩
  · obtain ⟨k, hk, hindex⟩ := exists_offset start hi
    exact absurd (hindex.symm ▸ hstate) (hnone k hk)

theorem find_first_ready_scan_crashSafe (hG : G m m) (hm : WellFormed m)
    (hnext : m.header.next_sequence ≤ 2 ^ 64 - 1) (todo index selected selected_sequence : Nat)
    (hindex : index + todo = m.header.message_capacity)
    (hselected : (selected = m.header.message_capacity ∧ selected_sequence = 2 ^ 64 - 1 ∧
        ∀ j, j < index → (m.slots j).state ≠ ManagedSlotState.ready.word) ∨
      (selected < index ∧ (m.slots selected).state = ManagedSlotState.ready.word ∧
        selected_sequence = (m.slots selected).sequence ∧
        ∀ j, j < index → (m.slots j).state = ManagedSlotState.ready.word →
          (m.slots selected).sequence ≤ (m.slots j).sequence)) :
    CrashSafe G (fun result t => t = m ∧
        ((result = m.header.message_capacity ∧ m.queue = []) ∨
          (result < m.header.message_capacity ∧
            (m.slots result).state = ManagedSlotState.ready.word ∧
            m.queue = m.message result :: m.queue.tail)))
      (find_first_ready todo index selected selected_sequence) m := by
  induction todo generalizing index selected selected_sequence with
  | zero =>
    refine ⟨rfl, ?_⟩
    rcases hselected with ⟨hsel, _, hnone⟩ | ⟨hsel, hready, _, hleast⟩
    · refine .inl ⟨hsel, List.eq_nil_iff_forall_not_mem.mpr fun x hx => ?_⟩
      obtain ⟨j, hj, hrj, _⟩ := Memory.mem_queue.mp hx
      exact hnone j (by omega) hrj
    · have hlt : selected < m.header.message_capacity := by omega
      exact .inr ⟨hlt, hready, hm.distinct.queue_head hlt hready fun j hj => hleast j (by omega)⟩
  | succ todo ih =>
    rw [find_first_ready]
    apply CrashSafe.load_bind hG
    have hi : index < m.header.message_capacity := by omega
    split_ifs with htest
    · obtain ⟨hready, hless⟩ := htest
      refine ih _ _ _ (by omega) (.inr ⟨by omega, hready, rfl, fun j hj hrj => ?_⟩)
      by_cases heq : j = index
      · rw [heq]
      · rcases hselected with ⟨_, _, hnone⟩ | ⟨_, _, hseq, hleast⟩
        · exact absurd hrj (hnone j (by omega))
        · have := hleast j (by omega) hrj
          omega
    · refine ih _ _ _ (by omega) ?_
      have hpasses : (m.slots index).state = ManagedSlotState.ready.word →
          selected_sequence ≤ (m.slots index).sequence := by
        intro hready
        by_contra hlt
        exact htest ⟨hready, by omega⟩
      rcases hselected with ⟨hsel, hseq, hnone⟩ | ⟨hsel, hready, hseq, hleast⟩
      · refine .inl ⟨hsel, hseq, fun j hj hrj => ?_⟩
        by_cases heq : j = index
        · subst heq
          have := hpasses hrj
          have := (hm.ready j hi hrj).2.2
          omega
        · exact hnone j (by omega) hrj
      · refine .inr ⟨by omega, hready, hseq, fun j hj hrj => ?_⟩
        by_cases heq : j = index
        · subst heq
          have := hpasses hrj
          omega
        · exact hleast j (by omega) hrj

/-- The scan of a receiver selects the head of the queue, or nothing when the
    queue is empty. -/
theorem find_first_ready_crashSafe (hG : G m m) (hm : WellFormed m)
    (hnext : m.header.next_sequence ≤ 2 ^ 64 - 1) :
    CrashSafe G (fun result t => t = m ∧
        ((result = m.header.message_capacity ∧ m.queue = []) ∨
          (result < m.header.message_capacity ∧
            (m.slots result).state = ManagedSlotState.ready.word ∧
            m.queue = m.message result :: m.queue.tail)))
      (find_first_ready m.header.message_capacity 0 m.header.message_capacity (2 ^ 64 - 1)) m :=
  find_first_ready_scan_crashSafe hG hm hnext _ _ _ _ (by omega) (.inl ⟨rfl, rfl, by omega⟩)

end

end shmchan.managed
