import Shmchan.Managed.Recovery.Restores

open process

namespace shmchan.managed

/-- The memory without its metric counters and its event epoch. -/
def Memory.without_metrics (m : Memory) : Memory :=
  m.set_header fun h => { h with counters := {}, event_epoch := 0 }

/-- A slot at which the scan of `recover_managed_slots` goes on. -/
def Accepted (m : Memory) (index : Nat) : Prop :=
  (m.slots index).state = ManagedSlotState.free.word ∨
    (m.slots index).state = ManagedSlotState.writing.word ∨
      ((m.slots index).state = ManagedSlotState.ready.word ∧ ready_slot_is_corrupt m index = false)

instance (m : Memory) (index : Nat) : Decidable (Accepted m index) :=
  inferInstanceAs (Decidable (_ ∨ _ ∨ _))

/-- A slot that the scan comes to. -/
def Reached (m : Memory) (index : Nat) : Prop :=
  index < m.header.message_capacity ∧ ∀ j, j < index → Accepted m j

instance (m : Memory) (index : Nat) : Decidable (Reached m index) :=
  inferInstanceAs (Decidable (_ ∧ _))

/-- The slots that a recovery leaves. -/
def settled_slots (m : Memory) (index : Nat) : ManagedMessageSlot :=
  if Reached m index ∧ (m.slots index).state = ManagedSlotState.writing.word then {}
  else m.slots index

/-- The number of slots that a recovery leaves FREE, if it accepts them all. -/
def settled_free (m : Memory) : Nat :=
  (List.range m.header.message_capacity).countP fun i =>
    (m.slots i).state = ManagedSlotState.free.word ∨ (m.slots i).state = ManagedSlotState.writing.word

def settled_ready (m : Memory) : Nat :=
  (List.range m.header.message_capacity).countP fun i =>
    (m.slots i).state = ManagedSlotState.ready.word

/-- The header that a recovery leaves, by its verdict. -/
def settled_header (accepted : Bool) (m : Memory) : ManagedSharedHeader :=
  let h := m.without_metrics.header
  if accepted then
    { h with free_slots := settled_free m, writing_messages := 0, ready_messages := settled_ready m }
  else
    { h with reason := BreakReason.corrupt_data.word, state := ManagedChannelState.broken.word }

/-- The verdict of a recovery. -/
def accepts (m : Memory) : Bool :=
  decide (∀ i, i < m.header.message_capacity → Accepted m i)

/-- What an uninterrupted recovery returns and leaves, in closed form. -/
def settlement (m : Memory) : Bool × Memory :=
  (accepts m,
    { m with header := settled_header (accepts m) m, slots := settled_slots m, waiters := [] })

section

variable {m t t' : Memory} {index : Nat}

/-- The settlement is a function of the fields below. -/
theorem settlement_congr (hcapacity : t'.header.message_capacity = t.header.message_capacity)
    (haccepted : ∀ i, Accepted t' i ↔ Accepted t i)
    (hslots : settled_slots t' = settled_slots t)
    (hheader : settled_header (accepts t) t' = settled_header (accepts t) t)
    (hpayloads : t'.payloads = t.payloads) (hhistory : t'.history = t.history) :
    settlement t' = settlement t := by
  have haccepts : accepts t' = accepts t := by
    rw [accepts, accepts]
    apply decide_eq_decide.mpr
    simp only [hcapacity, haccepted]
  rw [settlement, settlement, haccepts, hslots, hheader, hpayloads, hhistory]

theorem Reached.mono {j : Nat} (h : Reached m index) (hj : j ≤ index) : Reached m j :=
  ⟨hj.trans_lt h.1, fun i hi => h.2 i (hi.trans_le hj)⟩

/-- A store into a WRITING slot that the scan has come to leaves it WRITING, or
    is the last one of its reset. -/
theorem settlement_set_slot {f : ManagedMessageSlot → ManagedMessageSlot} (hreached : Reached t index)
    (hwriting : (t.slots index).state = ManagedSlotState.writing.word)
    (hf : (f (t.slots index)).state = ManagedSlotState.writing.word ∨ f (t.slots index) = {}) :
    settlement (t.set_slot index f) = settlement t := by
  have hself : Accepted (t.set_slot index f) index := by
    rw [Accepted, Memory.set_slot_slots_self]
    rcases hf with hstill | hreset
    · exact .inr (.inl hstill)
    · exact .inl (by rw [hreset]; rfl)
  have haccepted (i : Nat) : Accepted (t.set_slot index f) i ↔ Accepted t i := by
    by_cases hi : i = index
    · subst hi
      exact ⟨fun _ => .inr (.inl hwriting), fun _ => hself⟩
    · simp only [Accepted, ready_slot_is_corrupt, Memory.set_slot_slots_of_ne _ _ _ hi,
        Memory.set_slot_header]
  have hreach (i : Nat) : Reached (t.set_slot index f) i ↔ Reached t i := by
    simp only [Reached, haccepted, Memory.set_slot_header]
  have hidle (i : Nat) : ((t.set_slot index f).slots i).state = ManagedSlotState.free.word ∨
      ((t.set_slot index f).slots i).state = ManagedSlotState.writing.word ↔
      (t.slots i).state = ManagedSlotState.free.word ∨
        (t.slots i).state = ManagedSlotState.writing.word := by
    by_cases hi : i = index
    · subst hi
      rw [Memory.set_slot_slots_self]
      refine ⟨fun _ => .inr hwriting, fun _ => ?_⟩
      rcases hf with hstill | hreset
      · exact .inr hstill
      · exact .inl (by rw [hreset]; rfl)
    · rw [Memory.set_slot_slots_of_ne _ _ _ hi]
  have hready (i : Nat) : ((t.set_slot index f).slots i).state = ManagedSlotState.ready.word ↔
      (t.slots i).state = ManagedSlotState.ready.word := by
    by_cases hi : i = index
    · subst hi
      rw [Memory.set_slot_slots_self]
      rcases hf with hstill | hreset
      · rw [hstill, hwriting]
      · rw [hreset, hwriting]
        decide
    · rw [Memory.set_slot_slots_of_ne _ _ _ hi]
  refine settlement_congr rfl haccepted ?_ ?_ rfl rfl
  · funext i
    by_cases hi : i = index
    · subst hi
      simp only [settled_slots, Memory.set_slot_slots_self]
      rw [if_pos (show Reached t i ∧ _ from ⟨hreached, hwriting⟩)]
      rcases hf with hstill | hreset
      · exact if_pos ⟨(hreach i).mpr hreached, hstill⟩
      · rw [hreset, ite_self]
    · simp only [settled_slots, Memory.set_slot_slots_of_ne _ _ _ hi]
      exact if_congr (and_congr (hreach i) Iff.rfl) rfl rfl
  · simp only [settled_header, settled_free, settled_ready, Memory.without_metrics, hidle, hready,
      Memory.set_header_header, Memory.set_slot_header]

/-- A store into the header that a recovery with the same verdict overwrites. -/
theorem settlement_set_header {f : ManagedSharedHeader → ManagedSharedHeader}
    (hcapacity : (f t.header).message_capacity = t.header.message_capacity)
    (hmax : (f t.header).max_message_size = t.header.max_message_size)
    (hheader : settled_header (accepts t) (t.set_header f) = settled_header (accepts t) t) :
    settlement (t.set_header f) = settlement t := by
  have haccepted (i : Nat) : Accepted (t.set_header f) i ↔ Accepted t i := by
    simp only [Accepted, ready_slot_is_corrupt, Memory.set_header_slots, Memory.set_header_header, hmax]
  have hreach (i : Nat) : Reached (t.set_header f) i ↔ Reached t i := by
    simp only [Reached, haccepted, Memory.set_header_header, hcapacity]
  refine settlement_congr hcapacity haccepted ?_ hheader rfl rfl
  funext i
  exact if_congr (and_congr (hreach i) Iff.rfl) rfl rfl

/-- A scan that has come to `index` found no WRITING slot it has not reset. -/
theorem settled_slots_of_idle (hidle : ∀ i, i < index → (t.slots i).state ≠ ManagedSlotState.writing.word)
    (hstop : index < t.header.message_capacity → ¬ Accepted t index) : settled_slots t = t.slots := by
  funext i
  apply if_neg
  rintro ⟨hreached, hwriting⟩
  rcases Nat.lt_or_ge i index with hlt | hge
  · exact hidle i hlt hwriting
  · have hindex := hge.trans_lt hreached.1
    rcases Nat.eq_or_lt_of_le hge with rfl | hlt
    · exact hstop hindex (.inr (.inl hwriting))
    · exact hstop hindex (hreached.2 index hlt)

/-- How the scan of a recovery that started in `m` ends: with the counts, or
    with the settlement made. -/
def ScanEnd (m : Memory) : Option (Nat × Nat × Nat) → Memory → Prop
  | none, t => settlement m = (false, t.without_metrics)
  | some (free_count, ready_count, _), t => settlement t = settlement m ∧
      (∀ i, i < t.header.message_capacity → Accepted t i) ∧
        Scanned t t.header.message_capacity free_count ready_count

/-- At a corrupt slot the channel is marked broken, and that is the settlement. -/
theorem mark_managed_broken_settles (hsettle : settlement t = settlement m)
    (hindex : index < t.header.message_capacity) (hcorrupt : ¬ Accepted t index)
    (hidle : ∀ i, i < index → (t.slots i).state ≠ ManagedSlotState.writing.word) :
    CrashSafe (fun _ t' => settlement t' = settlement m) (ScanEnd m)
      (mark_managed_broken .corrupt_data >>= fun _ => .ret none) t := by
  have hverdict : accepts t = false := decide_eq_false fun hall => hcorrupt (hall index hindex)
  let t₁ := t.set_header fun h => { h with reason := BreakReason.corrupt_data.word }
  let t₂ := t₁.set_header fun h => { h with state := ManagedChannelState.broken.word }
  have h₁ : settlement t₁ = settlement m := by
    refine (settlement_set_header rfl rfl ?_).trans hsettle
    rw [hverdict]
    rfl
  have h₂ : settlement t₂ = settlement m := by
    refine (settlement_set_header rfl rfl ?_).trans h₁
    have hverdict₁ : accepts t₁ = false := hverdict
    rw [hverdict₁]
    rfl
  have h₃ (event_epoch : Nat) (waiters : List Nat) : settlement { t₂ with
      header := { t₂.header with event_epoch := event_epoch }, waiters := waiters } = settlement m :=
    h₂
  refine ⟨h₁, h₂, h₃ _ _, h₃ _ _, ?_⟩
  change settlement m = (false, _)
  rw [← hsettle, settlement, hverdict, settled_slots_of_idle hidle fun _ => hcorrupt]
  rfl

/-- The three stores of a reset. -/
theorem reset_managed_slot_settles (hsettle : settlement t = settlement m) (hreached : Reached t index)
    (hwriting : (t.slots index).state = ManagedSlotState.writing.word) :
    CrashSafe (fun _ t' => settlement t' = settlement m)
      (fun _ t' => settlement t' = settlement m ∧ t' = t.set_slot index fun _ => {})
      (reset_managed_slot index) t := by
  let t₁ := t.set_slot index fun slot => { slot with payload_size := 0 }
  let t₂ := t₁.set_slot index fun slot => { slot with sequence := 0 }
  let t₃ := t₂.set_slot index fun slot => { slot with state := ManagedSlotState.free.word }
  have hfinal : t₃ = t.set_slot index fun _ => {} := by
    simp only [t₃, t₂, t₁, Memory.set_slot, Function.update_self, Function.update_idem]
    rfl
  have hset {f : ManagedMessageSlot → ManagedMessageSlot}
      (hf : (f (t.slots index)).state = ManagedSlotState.writing.word ∨ f (t.slots index) = {}) :
      settlement (t.set_slot index f) = settlement m :=
    (settlement_set_slot hreached hwriting hf).trans hsettle
  have h₁ : settlement t₁ = settlement m := hset (.inl hwriting)
  have h₂ : settlement t₂ = settlement m := by
    have hmerged : t₂ = t.set_slot index fun slot => { slot with payload_size := 0, sequence := 0 } := by
      simp only [t₂, t₁, Memory.set_slot, Function.update_self, Function.update_idem]
    rw [hmerged]
    exact hset (.inl hwriting)
  have h₃ : settlement t₃ = settlement m := by
    rw [hfinal]
    exact hset (.inr rfl)
  exact ⟨h₁, h₂, h₃, h₃, hfinal⟩

theorem recover_scan_settles (todo index free_count ready_count discarded : Nat) {t : Memory}
    (hsettle : settlement t = settlement m) (hindex : index + todo = t.header.message_capacity)
    (hpassed : ∀ i, i < index → Accepted t i) (hscan : Scanned t index free_count ready_count) :
    CrashSafe (fun _ t' => settlement t' = settlement m) (ScanEnd m)
      (recover_scan todo index free_count ready_count discarded) t := by
  induction todo generalizing index free_count ready_count discarded t with
  | zero =>
    have hcapacity : index = t.header.message_capacity := hindex
    subst hcapacity
    exact ⟨hsettle, hpassed, hscan⟩
  | succ todo ih =>
    have hpass {t' : Memory} (haccepted : Accepted t' index) (hsame : ∀ i, i < index → Accepted t' i) :
        ∀ i, i < index + 1 → Accepted t' i := by
      intro i hi
      rcases Nat.lt_succ_iff_lt_or_eq.mp hi with hlt | rfl
      · exact hsame i hlt
      · exact haccepted
    rw [recover_scan]
    apply CrashSafe.load_bind hsettle
    split_ifs with hfree hwriting hready
    · exact ih _ _ _ _ hsettle (by omega) (hpass (.inl hfree) hpassed) (hscan.passes_free hfree)
    · apply (reset_managed_slot_settles hsettle ⟨by omega, hpassed⟩ hwriting).bind
      rintro _ t' ⟨hsettle', rfl⟩
      have hreset : ((t.set_slot index fun _ => {}).slots index).state = ManagedSlotState.free.word := by
        rw [Memory.set_slot_slots_self]
        rfl
      refine ih _ _ _ _ hsettle' (by rw [Memory.set_slot_header]; omega) (hpass (.inl hreset) ?_) ?_
      · intro i hi
        simp only [Accepted, ready_slot_is_corrupt, Memory.set_slot_header,
          Memory.set_slot_slots_of_ne t index _ (show i ≠ index by omega)]
        exact hpassed i hi
      · refine Scanned.passes_free (hscan.congr fun i hi => ?_) hreset
        exact Memory.set_slot_slots_of_ne t index _ (show i ≠ index by omega)
    · apply CrashSafe.load_bind hsettle
      split_ifs with hcorrupt
      · refine mark_managed_broken_settles hsettle (by omega) ?_ hscan.idle
        rintro (h | h | ⟨_, h⟩)
        · exact hfree h
        · exact hwriting h
        · rw [hcorrupt] at h
          cases h
      · have haccepted : Accepted t index := .inr (.inr ⟨hready, Bool.eq_false_iff.mpr hcorrupt⟩)
        exact ih _ _ _ _ hsettle (by omega) (hpass haccepted hpassed) (hscan.passes_ready hready)
    · refine mark_managed_broken_settles hsettle (by omega) ?_ hscan.idle
      rintro (h | h | ⟨h, _⟩)
      · exact hfree h
      · exact hwriting h
      · exact hready h

/-- Once every slot is accepted, the counts of the scan are the settled ones. -/
theorem Scanned.settled_counts {free_count ready_count : Nat}
    (h : Scanned t t.header.message_capacity free_count ready_count) :
    settled_free t = free_count ∧ settled_ready t = ready_count := by
  refine ⟨?_, h.ready.symm⟩
  rw [h.free, settled_free]
  apply List.countP_congr
  intro i hi
  have hidle := h.idle i (List.mem_range.mp hi)
  simp only [hidle, or_false]

/-- The stores that follow an accepting scan. -/
theorem recover_finish_settles {free_count ready_count : Nat} (discarded : Nat)
    (hsettle : settlement t = settlement m)
    (haccepted : ∀ i, i < t.header.message_capacity → Accepted t i)
    (hscan : Scanned t t.header.message_capacity free_count ready_count) :
    CrashSafe (fun _ t' => settlement t' = settlement m)
      (fun verdict t' => settlement m = (verdict, t'.without_metrics))
      (recover_finish free_count ready_count discarded) t := by
  obtain ⟨hfree, hready⟩ := hscan.settled_counts
  have hverdict : accepts t = true := decide_eq_true haccepted
  have hset {t' : Memory} (h : settlement t' = settlement m) {f : ManagedSharedHeader → ManagedSharedHeader}
      (hf : ∃ free_slots writing_messages ready_messages event_epoch counters,
        f t'.header = { t'.header with
          free_slots, writing_messages, ready_messages, event_epoch, counters }) :
      settlement (t'.set_header f) = settlement m := by
    have haccepts : accepts t' = true := (congrArg Prod.fst (h.trans hsettle.symm)).trans hverdict
    obtain ⟨_, _, _, _, _, hf⟩ := hf
    refine (settlement_set_header (by rw [hf]) (by rw [hf]) ?_).trans h
    simp only [haccepts, settled_header, settled_free, settled_ready, Memory.without_metrics,
      Memory.set_header_header, Memory.set_header_slots, hf, if_true]
  have h₁ := hset hsettle (f := fun h => { h with free_slots := free_count }) ⟨_, _, _, _, _, rfl⟩
  have h₂ := hset h₁ (f := fun h => { h with writing_messages := 0 }) ⟨_, _, _, _, _, rfl⟩
  have h₃ := hset h₂ (f := fun h => { h with ready_messages := ready_count }) ⟨_, _, _, _, _, rfl⟩
  have h₄ := hset h₃ (f := fun h => { h with counters := { h.counters with
    owner_death_recoveries := add64 h.counters.owner_death_recoveries 1 } }) ⟨_, _, _, _, _, rfl⟩
  have h₅ := hset h₄ (f := fun h => { h with counters := { h.counters with
    discarded_incomplete_writes := add64 h.counters.discarded_incomplete_writes discarded } })
    ⟨_, _, _, _, _, rfl⟩
  have h₆ := hset h₅ (f := fun h => { h with event_epoch := (h.event_epoch + 1) % 2 ^ 32 })
    ⟨_, _, _, _, _, rfl⟩
  simp only [recover_finish, signal_managed_event, Prog.bind_assoc]
  refine CrashSafe.store_bind h₁ ?_
  refine CrashSafe.store_bind h₂ ?_
  refine CrashSafe.store_bind h₃ ?_
  refine CrashSafe.store_bind h₄ ?_
  refine CrashSafe.store_bind h₅ ?_
  refine CrashSafe.store_bind h₆ ?_
  refine CrashSafe.store_bind h₆ ?_
  have hidle := settled_slots_of_idle hscan.idle fun h => absurd h (lt_irrefl _)
  change settlement m = (true, _)
  rw [← hsettle, settlement, hverdict, hidle]
  simp only [settled_header, if_true, hfree, hready, Memory.without_metrics, Memory.set_header,
    Memory.set_counters]

/-- Every step of a recovery keeps its settlement, and its end is the settlement. -/
theorem recover_managed_slots_settles (m : Memory) :
    CrashSafe (fun _ t => settlement t = settlement m)
      (fun verdict t => settlement m = (verdict, t.without_metrics)) recover_managed_slots m := by
  unfold recover_managed_slots
  refine CrashSafe.load_bind rfl ?_
  apply (recover_scan_settles _ 0 0 0 0 rfl (by omega) (by omega) (Scanned.zero m)).bind
  intro result t hend
  cases result with
  | none => exact hend
  | some counts =>
    obtain ⟨hsettle, haccepted, hscan⟩ := hend
    exact recover_finish_settles _ hsettle haccepted hscan

/-- However often recoveries are killed, and wherever, the next one that runs
    to its end returns and leaves what the first one would have, metrics and
    epoch apart. -/
theorem recovery_restartable (m : Memory) (kills : List Nat) :
    let t := kills.foldl (fun t count => recover_managed_slots.killed count t) m
    (recover_managed_slots.exec t).1 = (recover_managed_slots.exec m).1 ∧
      (recover_managed_slots.exec t).2.without_metrics =
        (recover_managed_slots.exec m).2.without_metrics := by
  intro t
  have hkept : settlement t = settlement m :=
    killed_runs_keep recover_managed_slots_settles kills m
  have hlast := (recover_managed_slots_settles t).exec
  have honce := (recover_managed_slots_settles m).exec
  rw [hkept, honce] at hlast
  exact ⟨(congrArg Prod.fst hlast).symm, (congrArg Prod.snd hlast).symm⟩

end

end shmchan.managed
