import Shmchan.Managed.Exclusion

open process

namespace shmchan.managed

section

variable {unlinks : Bool} {pid : Nat} {m m' s : Memory} {α : Type}

/-- The holder does not care what becomes of the channel. -/
theorem holding_any {P : α → Prop} {p : Prog Memory α} (hp : p.Always Inside P)
    (hheld : s.header.mutex = .held pid) :
    Safe (exclusion unlinks) pid (fun a m => P a ∧ m.header.mutex = .held pid) p s :=
  (holding (A := fun _ => True) (fun _ _ _ => id) hp hheld trivial).mono fun _ _ h => ⟨h.1, h.2.1⟩

theorem corrupt_holding {result : α} {post : α → Memory → Prop} (hheld : s.header.mutex = .held pid)
    (hpost : ∀ m, m.header.mutex = .held pid → post result m) :
    Safe (exclusion unlinks) pid post (mark_managed_broken .corrupt_data >>= fun _ => .ret result) s :=
  (holding_any (inside_mark_broken _) hheld).bind fun _ m h => hpost m h.2

/-- A scan that accepts all slots counts the FREE ones. -/
theorem validate_scan_holding (todo index free_count writing_count ready_count : Nat)
    (hheld : s.header.mutex = .held pid) :
    Safe (exclusion unlinks) pid (fun result m => m.header.mutex = .held pid ∧
        ∀ counts, result = some counts → Interference unlinks s m ∧ free_count ≤ counts.1 ∧
          (counts.1 = free_count → ∀ i, index ≤ i → i < index + todo →
            (s.slots i).state ≠ ManagedSlotState.free.word))
      (validate_scan todo index free_count writing_count ready_count) s := by
  induction todo generalizing index free_count writing_count ready_count s with
  | zero =>
    refine ⟨hheld, ?_⟩
    rintro counts ⟨⟩
    exact ⟨Interference.refl unlinks s, le_rfl, fun _ i hi hlt => by omega⟩
  | succ todo ih =>
    rw [validate_scan]
    refine holding_load_bind hheld fun m hE hheld' _ => ?_
    have hslots : m.slots = s.slots := hE.sameQueue.slots
    have hmore {m' : Memory} (hE' : Interference unlinks s m') (hheld' : m'.header.mutex = .held pid)
        (hne : (s.slots index).state ≠ ManagedSlotState.free.word) (writing_count ready_count : Nat) :
        Safe (exclusion unlinks) pid (fun result m => m.header.mutex = .held pid ∧
          ∀ counts, result = some counts → Interference unlinks s m ∧ free_count ≤ counts.1 ∧
            (counts.1 = free_count → ∀ i, index ≤ i → i < index + (todo + 1) →
              (s.slots i).state ≠ ManagedSlotState.free.word))
          (validate_scan todo (index + 1) free_count writing_count ready_count) m' := by
      apply (ih (index + 1) free_count writing_count ready_count hheld').mono
      rintro result t ⟨hheld₁, hcounts⟩
      refine ⟨hheld₁, fun counts hsome => ?_⟩
      obtain ⟨hE₁, hle, hnone⟩ := hcounts counts hsome
      refine ⟨hE'.trans hE₁, hle, fun heq i hi hlt => ?_⟩
      by_cases hself : i = index
      · rw [hself]
        exact hne
      · rw [← hE'.sameQueue.slots]
        exact hnone heq i (by omega) (by omega)
    split_ifs with hfree hwriting hready
    · apply (ih (index + 1) (free_count + 1) writing_count ready_count hheld').mono
      rintro result t ⟨hheld₁, hcounts⟩
      refine ⟨hheld₁, fun counts hsome => ?_⟩
      obtain ⟨hE₁, hle, _⟩ := hcounts counts hsome
      exact ⟨hE.trans hE₁, by omega, fun heq => by omega⟩
    · rw [hslots] at hfree
      exact hmore hE hheld' hfree _ _
    · rw [hslots] at hfree
      refine holding_load_bind hheld' fun m₂ hE₂ hheld₂ _ => ?_
      split_ifs
      · refine corrupt_holding hheld₂ fun t ht => ⟨ht, ?_⟩
        rintro _ ⟨⟩
      · exact hmore (hE.trans hE₂) hheld₂ hfree _ _
    · refine corrupt_holding hheld' fun t ht => ⟨ht, ?_⟩
      rintro _ ⟨⟩

/-- What the header says about FREE slots is true of a channel that is accepted. -/
theorem validate_holding (hheld : s.header.mutex = .held pid) :
    Safe (exclusion unlinks) pid (fun valid m => m.header.mutex = .held pid ∧ (valid = true →
        (m.header.free_slots = 0 → ∀ i, i < m.header.message_capacity →
          (m.slots i).state ≠ ManagedSlotState.free.word)))
      validate_managed_slots s := by
  unfold validate_managed_slots
  refine holding_load_bind hheld fun m hE hheld₁ _ => ?_
  refine (validate_scan_holding _ _ _ _ _ hheld₁).bind ?_
  rintro result m₂ ⟨hheld₂, hcounts⟩
  cases result with
  | none =>
    refine ⟨hheld₂, ?_⟩
    rintro ⟨⟩
  | some counts =>
    obtain ⟨free_count, writing_count, ready_count⟩ := counts
    obtain ⟨hE₂, _, hnone⟩ := hcounts _ rfl
    refine holding_load_bind hheld₂ fun m₃ hE₃ hheld₃ _ => ?_
    have hsame := (hE₂.trans hE₃).sameQueue
    split_ifs with hconsistent
    · refine ⟨hheld₃, fun _ hzero i hi => ?_⟩
      simp only [counts_are_consistent, Bool.and_eq_true, beq_iff_eq] at hconsistent
      rw [hsame.slots]
      exact hnone (hconsistent.1.1.1.2.trans hzero) i (Nat.zero_le i) (by rw [← hsame.capacity]; omega)
    · refine corrupt_holding hheld₃ fun t ht => ⟨ht, ?_⟩
      rintro ⟨⟩

/-- The holder, before it hands out a sequence number that is not the last. -/
theorem holding_numbered {P : α → Prop} {p : Prog Memory α} (hp : p.Always Inside P)
    (hheld : s.header.mutex = .held pid) (hnext : s.header.next_sequence < 2 ^ 64 - 1) :
    Safe (exclusion unlinks) pid (fun a m => P a ∧ m.header.mutex = .held pid ∧
      m.header.next_sequence < 2 ^ 64 - 1) p s := by
  refine holding (fun m m' hinside h => ?_) hp hheld hnext
  rw [hinside.next]
  exact h

theorem numbered_store_bind {update : Memory → Memory} {k : Unit → Prog Memory α} {post : α → Memory → Prop}
    (hupdate : ∀ m, Inside m (update m)) (hheld : s.header.mutex = .held pid)
    (hnext : s.header.next_sequence < 2 ^ 64 - 1)
    (hk : ∀ m, m.header.mutex = .held pid → m.header.next_sequence < 2 ^ 64 - 1 →
      Safe (exclusion unlinks) pid post (k ()) m) :
    Safe (exclusion unlinks) pid post (.store update >>= k) s :=
  (holding_numbered (Prog.always_store hupdate) hheld hnext).bind fun _ m h => hk m h.2.1 h.2.2

theorem reserve_holding (selected : Nat) (hheld : s.header.mutex = .held pid)
    (hnext : s.header.next_sequence < 2 ^ 64 - 1) :
    Safe (exclusion unlinks) pid (fun _ m => m.header.mutex = .held pid) (reserve_slot selected) s := by
  unfold reserve_slot
  have hslot {f : ManagedMessageSlot → ManagedMessageSlot} (hf : ∀ slot, (f slot).sequence = slot.sequence) :=
    inside_set_slot selected fun slot => .inl (hf slot)
  refine numbered_store_bind (hslot fun _ => rfl) hheld hnext fun m₁ hheld₁ hnext₁ => ?_
  refine numbered_store_bind (fun _ => inside_of_same rfl rfl rfl) hheld₁ hnext₁ fun m₂ hheld₂ hnext₂ => ?_
  refine numbered_store_bind (fun _ => inside_of_same rfl rfl rfl) hheld₂ hnext₂ fun m₃ hheld₃ hnext₃ => ?_
  refine numbered_store_bind (hslot fun _ => rfl) hheld₃ hnext₃ fun m₄ hheld₄ hnext₄ => ?_
  refine holding_act hheld₄ fun m hE hheld₅ hinv => ⟨hheld₅, ⟨Nat.mod_lt _ (by norm_num), hinv.slots⟩, ?_⟩
  refine holding_act hheld₅ fun t hE' hheld₆ hinv' => ⟨hheld₆, ⟨hinv'.next, fun i => ?_⟩, hheld₆⟩
  by_cases hi : i = selected
  · subst hi
    rw [Memory.set_slot_slots_self]
    simp only [hE.sameQueue.next]
    exact hnext₄
  · rw [Memory.set_slot_slots_of_ne _ _ _ hi]
    exact hinv'.slots i

theorem publish_holding (selected capacity : Nat) (message : Bytes) (hheld : s.header.mutex = .held pid)
    (hnext : s.header.next_sequence < 2 ^ 64 - 1) :
    Safe (exclusion unlinks) pid (fun _ m => m.header.mutex = .held pid)
      (publish_message selected capacity message) s := by
  unfold publish_message
  refine (reserve_holding selected hheld hnext).bind fun sequence m₁ h₁ => ?_
  refine (holding_any (P := fun _ => True) ?_ h₁).mono fun _ _ h => h.2
  refine (inside_copy _ _ _).bind fun _ _ => ?_
  refine inside_store_bind (inside_set_slot selected fun slot => .inl rfl) ?_
  refine inside_store_bind (fun m => ?_) (inside_count_published _ _ _)
  have hready := inside_set_slot selected
    (f := fun slot => { slot with state := ManagedSlotState.ready.word }) (fun slot => .inl rfl) m
  exact ⟨hready.mutex, hready.next, hready.slots⟩

/-- A sender that leaves to wait has seen that there is no FREE slot. -/
theorem send_critical_holding (message : Bytes) (mode : ManagedLockMode)
    (hheld : s.header.mutex = .held pid) :
    Safe (exclusion unlinks) pid (fun exit m => m.header.mutex = .held pid ∧ ∀ epoch, exit = .wait epoch →
        ∀ i, i < m.header.message_capacity → (m.slots i).state ≠ ManagedSlotState.free.word)
      (send_critical message mode) s := by
  unfold send_critical
  refine holding_load_bind hheld fun m₁ _ hheld₁ _ => ?_
  split
  · refine ⟨hheld₁, ?_⟩
    rintro _ ⟨⟩
  refine (validate_holding hheld₁).bind ?_
  rintro valid m₂ ⟨hheld₂, hfull⟩
  cases valid with
  | false =>
    refine ⟨hheld₂, ?_⟩
    rintro _ ⟨⟩
  | true =>
    refine holding_load_bind hheld₂ fun m₃ hE₃ hheld₃ _ => ?_
    split
    · refine holding_load_bind hheld₃ fun m₄ _ hheld₄ hinv₄ => ?_
      split
      · refine (holding_any (inside_mark_broken _) hheld₄).bind fun _ m h => ⟨h.2, ?_⟩
        rintro _ ⟨⟩
      next hlast =>
      have hnext : m₄.header.next_sequence < 2 ^ 64 - 1 := by
        have := hinv₄.next
        omega
      refine (holding_numbered (inside_load _) hheld₄ hnext).bind ?_
      rintro capacity m₅ ⟨_, hheld₅, hnext₅⟩
      refine (holding_numbered (inside_load _) hheld₅ hnext₅).bind ?_
      rintro start m₆ ⟨_, hheld₆, hnext₆⟩
      refine (holding_numbered (inside_find_free _ _ _ _) hheld₆ hnext₆).bind ?_
      rintro found m₇ ⟨_, hheld₇, hnext₇⟩
      cases found with
      | none =>
        refine corrupt_holding hheld₇ fun t ht => ⟨ht, ?_⟩
        rintro _ ⟨⟩
      | some selected =>
        refine (publish_holding _ _ _ hheld₇ hnext₇).bind fun _ m h => ⟨h, ?_⟩
        rintro _ ⟨⟩
    next hslots =>
      split
      · refine ⟨hheld₃, ?_⟩
        rintro _ ⟨⟩
      · refine holding_load_bind hheld₃ fun m₄ hE₄ hheld₄ _ => ⟨hheld₄, fun _ _ i hi => ?_⟩
        have hsame := (hE₃.trans hE₄).sameQueue
        have hcount : m₃.header.free_slots = m₂.header.free_slots := by
          obtain ⟨_, _, _, _, _, rfl⟩ := hE₃
          rfl
        rw [hsame.slots]
        exact hfull rfl (hcount.symm.trans (not_not.mp hslots)) i (hsame.capacity ▸ hi)

/-- The scan for the oldest message passes over those with a greater number. -/
theorem find_first_holding (todo index selected selected_sequence : Nat)
    (hheld : s.header.mutex = .held pid) :
    Safe (exclusion unlinks) pid (fun result m => m.header.mutex = .held pid ∧ Interference unlinks s m ∧
        (index ≤ result ∧ result < index + todo ∨ result = selected ∧ ∀ i, index ≤ i → i < index + todo →
          (s.slots i).state = ManagedSlotState.ready.word → selected_sequence ≤ (s.slots i).sequence))
      (find_first_ready todo index selected selected_sequence) s := by
  induction todo generalizing index selected selected_sequence s with
  | zero => exact ⟨hheld, Interference.refl unlinks s, .inr ⟨rfl, fun i hi hlt => by omega⟩⟩
  | succ todo ih =>
    rw [find_first_ready]
    refine holding_load_bind hheld fun m hE hheld' _ => ?_
    have hslots : m.slots = s.slots := hE.sameQueue.slots
    split_ifs with hready
    · apply (ih (index + 1) index _ hheld').mono
      rintro result t ⟨hheld₁, hE₁, hresult⟩
      refine ⟨hheld₁, hE.trans hE₁, .inl ?_⟩
      rcases hresult with ⟨hle, hlt⟩ | ⟨rfl, _⟩
      · omega
      · omega
    · apply (ih (index + 1) selected _ hheld').mono
      rintro result t ⟨hheld₁, hE₁, hresult⟩
      refine ⟨hheld₁, hE.trans hE₁, ?_⟩
      rcases hresult with ⟨hle, hlt⟩ | ⟨rfl, hgreater⟩
      · exact .inl ⟨by omega, by omega⟩
      · refine .inr ⟨rfl, fun i hi hlt hstate => ?_⟩
        rw [hslots] at hready hgreater
        by_cases hself : i = index
        · rw [hself] at hstate ⊢
          exact not_lt.mp fun hless => hready ⟨hstate, hless⟩
        · exact hgreater i (by omega) (by omega) hstate

/-- A receiver that leaves to wait has seen that there is no READY slot. -/
theorem receive_critical_holding (mode : ManagedLockMode) (alloc_fails : Bool)
    (hheld : s.header.mutex = .held pid) :
    Safe (exclusion unlinks) pid (fun exit m => m.header.mutex = .held pid ∧ ∀ epoch, exit = .wait epoch →
        ∀ i, i < m.header.message_capacity → (m.slots i).state ≠ ManagedSlotState.ready.word)
      (receive_critical pid mode alloc_fails) s := by
  unfold receive_critical
  have hmark (m : Memory) : Inside m (mark_inside m) := inside_of_same rfl rfl rfl
  refine (holding_any (Prog.always_store hmark) hheld).bind ?_
  rintro _ m₁ ⟨_, hheld₁⟩
  refine (validate_holding hheld₁).bind ?_
  rintro valid m₂ ⟨hheld₂, _⟩
  cases valid with
  | false =>
    refine ⟨hheld₂, ?_⟩
    rintro _ ⟨⟩
  | true =>
    refine holding_load_bind hheld₂ fun m₃ _ hheld₃ hinv₃ => ?_
    refine (find_first_holding _ _ _ _ hheld₃).bind ?_
    rintro selected m₄ ⟨hheld₄, hE₄, hselected⟩
    split
    · refine (holding_any (inside_load _) hheld₄).bind ?_
      rintro corrupt m₅ ⟨_, hheld₅⟩
      split
      · refine corrupt_holding hheld₅ fun t ht => ⟨ht, ?_⟩
        rintro _ ⟨⟩
      split
      · refine ⟨hheld₅, ?_⟩
        rintro _ ⟨⟩
      · refine (holding_any (inside_load _) hheld₅).bind ?_
        rintro message m₆ ⟨_, hheld₆⟩
        refine (holding_any (inside_release _ _) hheld₆).bind fun _ m h => ⟨h.2, ?_⟩
        rintro _ ⟨⟩
    next hsome =>
      obtain rfl : selected = m₃.header.message_capacity := not_not.mp hsome
      have hnone := (hselected.resolve_left (by omega)).2
      refine holding_load_bind hheld₄ fun m₅ hE₅ hheld₅ _ => ?_
      split
      · refine ⟨hheld₅, ?_⟩
        rintro _ ⟨⟩
      split
      · refine ⟨hheld₅, ?_⟩
        rintro _ ⟨⟩
      split
      · refine ⟨hheld₅, ?_⟩
        rintro _ ⟨⟩
      · refine holding_load_bind hheld₅ fun m₆ hE₆ hheld₆ _ => ⟨hheld₆, fun _ _ i hi hready => ?_⟩
        have hsame := ((hE₄.trans hE₅).trans hE₆).sameQueue
        rw [hsame.slots] at hready
        have hnumber := hinv₃.slots i
        have hlast := hnone i (Nat.zero_le i) (by rw [← hsame.capacity]; omega) hready
        omega

/-- The calls on the mutex. -/
theorem acquire_excluded (mode : ManagedLockMode) (lock_expires receiving : Bool) :
    Safe (exclusion unlinks) pid (fun result m => result ≠ .busy → m.header.mutex = .held pid)
      (acquire_mutex pid mode lock_expires receiving) s := by
  have htake {m : Memory} (hinv : Sequenced m) (hfree : m.header.mutex.is_held = false) :
      Sequenced (take_mutex pid receiving m) ∧
        ∀ other, other ≠ pid → Excluded unlinks other m (take_mutex pid receiving m) := by
    refine ⟨⟨hinv.next, hinv.slots⟩, fun other hother => ?_⟩
    have hnot : m.header.mutex ≠ .held other := by
      intro hheld
      rw [hheld] at hfree
      cases hfree
    refine ⟨iff_of_false ?_ hnot, fun h => absurd h hnot⟩
    rintro ⟨⟩
    exact hother rfl
  have hlock : Safe (exclusion unlinks) pid (fun result m => result ≠ .busy → m.header.mutex = .held pid)
      (pthread_mutex_lock pid receiving) s := by
    intro m _ (hinv : Sequenced m) henabled
    obtain ⟨hinv', hothers⟩ := htake hinv (by simpa using henabled)
    exact ⟨hinv', hothers, fun _ => rfl⟩
  have htrylock : Safe (exclusion unlinks) pid (fun result m => result ≠ .busy → m.header.mutex = .held pid)
      (pthread_mutex_trylock pid receiving) s := by
    intro m _ (hinv : Sequenced m) _
    by_cases hheld : m.header.mutex.is_held = true
    · simp only [hheld, if_true]
      refine ⟨hinv, fun other _ => Excluded.refl unlinks other m, fun hbusy => absurd ?_ hbusy⟩
      cases hmutex : m.header.mutex with
      | held owner => simp only [lock_result, hmutex]
      | raw | unlocked | owner_dead =>
        rw [hmutex] at hheld
        cases hheld
    · simp only [hheld]
      obtain ⟨hinv', hothers⟩ := htake hinv (by simpa using hheld)
      exact ⟨hinv', hothers, fun _ => rfl⟩
  cases mode with
  | blocking => exact hlock
  | nonblocking => exact htrylock
  | timed =>
    cases lock_expires with
    | false => exact hlock
    | true => exact htrylock

theorem guard_excluded (mode : ManagedLockMode) (lock_expires receiving : Bool) :
    Safe (exclusion unlinks) pid (fun status m => status = .success → m.header.mutex = .held pid)
      (managed_mutex_guard pid mode lock_expires receiving) s := by
  unfold managed_mutex_guard
  refine (acquire_excluded mode lock_expires receiving).bind fun result m hresult => ?_
  cases result with
  | acquired => exact fun _ => hresult (by rintro ⟨⟩)
  | busy =>
    split_ifs
    · rintro ⟨⟩
    · rintro ⟨⟩
  | owner_dead =>
    refine (holding_any inside_recover (hresult (by rintro ⟨⟩))).bind fun recovered m' h => ?_
    split_ifs
    · exact fun _ => h.2
    · rintro ⟨⟩

/-- After the unlock the mutex is not its own, whether it was or not. -/
theorem unlock_excluded :
    Safe (exclusion unlinks) pid (fun _ m => m.header.mutex ≠ .held pid) (guard_unlock pid) s := by
  intro m _ (hinv : Sequenced m) _
  by_cases hheld : m.header.mutex = .held pid
  · simp only [hheld, if_true]
    refine ⟨⟨hinv.next, hinv.slots⟩, fun other hother => excluded_of_held hother hheld ?_, ?_⟩
    · rintro ⟨⟩
    · rintro ⟨⟩
  · simp only [hheld, if_false]
    exact ⟨hinv, fun other _ => Excluded.refl unlinks other m, hheld⟩

/-- A quiet program leaves the mutex alone. -/
theorem Quiet.excluded {P : α → Prop} {p : Prog Memory α} (hp : Quiet unlinks P p)
    (hm : Excluded unlinks pid s m) :
    Safe (exclusion unlinks) pid (fun a m' => P a ∧ Excluded unlinks pid s m') p m := by
  induction p generalizing m with
  | ret a => exact ⟨hp, hm⟩
  | act enabled update next ih =>
    intro m' (hrely : Excluded unlinks pid m m') (hinv : Sequenced m') _
    have hE := hp.1 m'
    exact ⟨hE.inside.sequenced hinv, fun other _ => hE.excluded other,
      ih m' (hp.2 m') ((hm.trans hrely).trans (hE.excluded pid))⟩

theorem unlock_rest_excluded {k : Unit → Prog Memory α} (hk : Quiet unlinks (fun _ => True) (k ())) :
    Safe (exclusion unlinks) pid (fun _ m => m.header.mutex ≠ .held pid) (guard_unlock pid >>= k) s :=
  unlock_excluded.bind fun _ m hnot =>
    (hk.excluded (Excluded.refl unlinks pid m)).mono fun _ _ h => mt h.2.mutex.mp hnot

/-- A pass whose guard reports a failure. -/
theorem refused_excluded (count : Prog Memory Unit) {a : α} (hcount : Quiet unlinks (fun _ => True) count) :
    Safe (exclusion unlinks) pid (fun _ m => m.header.mutex ≠ .held pid)
      (count >>= fun _ => guard_unlock pid >>= fun _ => .ret a) s :=
  (hcount.excluded (Excluded.refl unlinks pid s)).bind fun _ _ _ => unlock_rest_excluded trivial

theorem excluded_load_bind {β : Type} {post : β → Memory → Prop} {f : Memory → α} {k : α → Prog Memory β}
    (hk : ∀ m, Excluded unlinks pid s m → Safe (exclusion unlinks) pid post (k (f m)) m) :
    Safe (exclusion unlinks) pid post (.load f >>= k) s :=
  fun m hrely hinv _ => ⟨hinv, fun other _ => Excluded.refl unlinks other m, hk m hrely⟩

theorem send_impl_excluded (message : Bytes) (mode : ManagedLockMode) (c : Circumstances)
    (hnot : s.header.mutex ≠ .held pid) :
    Safe (exclusion unlinks) pid (fun _ m => m.header.mutex ≠ .held pid)
      (send_impl pid message mode c) s := by
  unfold send_impl
  refine excluded_load_bind fun m₁ hrely₁ => ?_
  split
  · exact mt hrely₁.mutex.mp hnot
  refine excluded_load_bind fun m₂ hrely₂ => ?_
  split
  · exact mt (hrely₁.trans hrely₂).mutex.mp hnot
  refine (guard_excluded mode c.lock_expires false).bind fun status m₃ hstatus => ?_
  split
  · refine refused_excluded _ ?_
    split
    · exact quiet_set_counters _
    · trivial
  next hsuccess =>
    have hheld := hstatus (not_not.mp hsuccess)
    refine (send_critical_holding message mode hheld).bind fun exit m₄ _ => unlock_rest_excluded ?_
    cases exit with
    | leave status => trivial
    | published => exact quiet_signal.bind fun _ _ => (quiet_load _).bind fun after _ => trivial
    | wait epoch =>
      refine (quiet_wait_for_event _ _ _).bind fun expired _ => ?_
      split
      · exact (quiet_set_counters _).bind fun _ _ => trivial
      · trivial

theorem receive_impl_excluded (mode : ManagedLockMode) (c : Circumstances)
    (hnot : s.header.mutex ≠ .held pid) :
    Safe (exclusion unlinks) pid (fun _ m => m.header.mutex ≠ .held pid) (receive_impl pid mode c) s := by
  unfold receive_impl
  refine excluded_load_bind fun m₁ hrely => ?_
  split
  · exact mt hrely.mutex.mp hnot
  refine (guard_excluded mode c.lock_expires true).bind fun status m₂ hstatus => ?_
  split
  · refine refused_excluded _ ?_
    split
    · exact quiet_set_counters _
    · trivial
  next hsuccess =>
    have hheld := hstatus (not_not.mp hsuccess)
    refine (receive_critical_holding mode c.alloc_fails hheld).bind fun exit m₃ _ => unlock_rest_excluded ?_
    cases exit with
    | leave status => trivial
    | threw => trivial
    | took payload => exact quiet_signal.bind fun _ _ => trivial
    | wait epoch =>
      refine (quiet_wait_for_event _ _ _).bind fun expired _ => ?_
      split
      · exact (quiet_set_counters _).bind fun _ _ => trivial
      · trivial

theorem close_excluded :
    Safe (exclusion unlinks) pid (fun _ m => m.header.mutex ≠ .held pid) (close pid) s := by
  unfold close
  refine (guard_excluded .blocking false false).bind fun status m₁ hstatus => ?_
  split
  · exact refused_excluded (.ret ()) trivial
  next hsuccess =>
    refine (holding_any inside_close (hstatus (not_not.mp hsuccess))).bind fun stored m₂ _ => ?_
    refine unlock_rest_excluded ?_
    split
    · exact quiet_signal.bind fun _ _ => trivial
    · trivial

theorem stats_excluded :
    Safe (exclusion unlinks) pid (fun _ m => m.header.mutex ≠ .held pid) (stats pid) s := by
  unfold stats
  refine excluded_load_bind fun m₁ _ => ?_
  refine (guard_excluded .blocking false false).bind fun status m₂ _ => ?_
  split
  · exact excluded_load_bind fun m₃ _ => unlock_rest_excluded trivial
  · exact excluded_load_bind fun m₃ _ => unlock_rest_excluded trivial

/-- One pass of any operation, whatever it finds. -/
theorem attempt_excluded (op : Op) (c : Circumstances) (hop : op = .unlink → unlinks = true)
    (hnot : s.header.mutex ≠ .held pid) :
    Safe (exclusion unlinks) pid (fun _ m => m.header.mutex ≠ .held pid) (attempt pid op c) s := by
  cases op with
  | send message mode => exact send_impl_excluded message mode c hnot
  | receive mode => exact receive_impl_excluded mode c hnot
  | close => exact close_excluded
  | stats => exact stats_excluded
  | unlink =>
    obtain rfl := hop rfl
    exact (quiet_unlink_mapping.excluded (Excluded.refl true pid s)).mono fun _ _ h => mt h.2.mutex.mp hnot

end

section

variable {unlinks : Bool} {may_die : Nat → Memory → Prop} {options : ManagedChannelOptions}
  {layout : ManagedLayout} {c : Config Memory Session Nat}

/-- The mutex excludes, whoever dies. -/
theorem discipline_excluded :
    Adequate (discipline unlinks may_die) (exclusion unlinks) fun pid _ m => m.header.mutex ≠ .held pid where
  refl := Excluded.refl unlinks
  trans _ _ _ _ h h' := Excluded.trans h h'
  stable _ _ _ _ hrely _ := mt hrely.mutex.mp
  start pid session program m _ hnot hstart := by
    obtain ⟨op, c, hop, _, _, rfl⟩ := hstart
    exact (attempt_excluded op c hop hnot).bind fun _ _ h => h
  die pid m hinv _ := by
    have hsame : (on_death pid m).header.next_sequence = m.header.next_sequence ∧
        (on_death pid m).slots = m.slots := by
      unfold on_death
      split_ifs
      · exact ⟨rfl, rfl⟩
      · exact ⟨rfl, rfl⟩
    have hdead : Sequenced (on_death pid m) := by
      refine ⟨hsame.1 ▸ hinv.next, fun i => ?_⟩
      rw [hsame.2]
      exact hinv.slots i
    exact ⟨hdead, fun _ hother => (on_death_rely hother).excluded, on_death_mutex⟩

theorem reachable_excluded (hreach : Reachable (discipline unlinks may_die) (initial options layout) c) :
    Sequenced c.shared ∧
      ∀ pid, Safe (exclusion unlinks) pid (fun _ m => m.header.mutex ≠ .held pid) (c.procs pid) c.shared := by
  have hinit : Sequenced (initialized options layout) := by
    rw [initialized_eq]
    exact ⟨by norm_num [zeroed], fun i => by norm_num [zeroed]⟩
  have hnot (pid : Nat) : (initialized options layout).header.mutex ≠ .held pid := by
    rw [initialized_eq]
    rintro ⟨⟩
  have hbase : (exclusion unlinks).inv (initial options layout).shared := hinit
  exact Adequate.reachable discipline_excluded hbase hnot hreach

end

end shmchan.managed
