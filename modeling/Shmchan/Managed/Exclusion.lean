import Shmchan.Managed.Runs

open process

namespace shmchan.managed

/-- No slot has the sequence number that is never handed out. -/
structure Sequenced (m : Memory) : Prop where
  next : m.header.next_sequence < 2 ^ 64
  slots : ∀ i, (m.slots i).sequence < 2 ^ 64 - 1

/-- What `pid` relies on whoever dies, and wherever. -/
structure Excluded (unlinks : Bool) (pid : Nat) (m m' : Memory) : Prop where
  mutex : m'.header.mutex = .held pid ↔ m.header.mutex = .held pid
  held : m.header.mutex = .held pid → Interference unlinks m m'

/-- The mutex alone: nothing is known of what it protects. -/
def exclusion (unlinks : Bool) : Reliance Memory Nat := ⟨Sequenced, Excluded unlinks⟩

/-- A step of the holder of the mutex that hands out no sequence number. -/
structure Inside (m m' : Memory) : Prop where
  mutex : m'.header.mutex = m.header.mutex
  next : m'.header.next_sequence = m.header.next_sequence
  slots : ∀ i, (m'.slots i).sequence = (m.slots i).sequence ∨ (m'.slots i).sequence = 0

section

variable {unlinks : Bool} {pid : Nat} {m m' m'' s : Memory} {α β : Type}

theorem Excluded.refl (unlinks : Bool) (pid : Nat) (m : Memory) : Excluded unlinks pid m m :=
  ⟨Iff.rfl, fun _ => Interference.refl unlinks m⟩

theorem Excluded.trans (h : Excluded unlinks pid m m') (h' : Excluded unlinks pid m' m'') :
    Excluded unlinks pid m m'' :=
  ⟨h'.mutex.trans h.mutex, fun hheld => (h.held hheld).trans (h'.held (h.mutex.mpr hheld))⟩

theorem Rely.excluded (h : Rely unlinks pid m m') : Excluded unlinks pid m m' := ⟨h.mutex, h.held⟩

theorem Interference.excluded (h : Interference unlinks m m') (pid : Nat) : Excluded unlinks pid m m' :=
  (h.rely pid).excluded

/-- Nobody else relies on a memory that `pid` holds. -/
theorem excluded_of_held {other : Nat} (hother : other ≠ pid) (hheld : m.header.mutex = .held pid)
    (hafter : m'.header.mutex ≠ .held other) : Excluded unlinks other m m' := by
  have hnot : m.header.mutex ≠ .held other := by
    rw [hheld]
    rintro ⟨⟩
    exact hother rfl
  exact ⟨iff_of_false hafter hnot, fun h => absurd h hnot⟩

theorem Interference.inside (h : Interference unlinks m m') : Inside m m' := by
  obtain ⟨_, _, _, _, _, rfl⟩ := h
  exact ⟨rfl, rfl, fun _ => .inl rfl⟩

theorem Inside.sequenced (h : Inside m m') (hm : Sequenced m) : Sequenced m' := by
  refine ⟨h.next ▸ hm.next, fun i => ?_⟩
  rcases h.slots i with hsame | hzero
  · rw [hsame]
    exact hm.slots i
  · rw [hzero]
    norm_num

theorem inside_of_same (hmutex : m'.header.mutex = m.header.mutex)
    (hnext : m'.header.next_sequence = m.header.next_sequence) (hslots : m'.slots = m.slots) : Inside m m' :=
  ⟨hmutex, hnext, fun i => .inl (by rw [hslots])⟩

theorem inside_set_slot (index : Nat) {f : ManagedMessageSlot → ManagedMessageSlot}
    (hf : ∀ slot, (f slot).sequence = slot.sequence ∨ (f slot).sequence = 0) (m : Memory) :
    Inside m (m.set_slot index f) := by
  refine ⟨rfl, rfl, fun i => ?_⟩
  by_cases hi : i = index
  · subst hi
    rw [Memory.set_slot_slots_self]
    exact hf _
  · rw [Memory.set_slot_slots_of_ne _ _ _ hi]
    exact .inl rfl

/-- The holder executes an action. -/
theorem holding_act {post : α → Memory → Prop} {enabled : Memory → Bool} {update : Memory → Memory}
    {next : Memory → Prog Memory α} (hheld : s.header.mutex = .held pid)
    (hstep : ∀ m, Interference unlinks s m → m.header.mutex = .held pid → Sequenced m →
      (update m).header.mutex = .held pid ∧ Sequenced (update m) ∧
        Safe (exclusion unlinks) pid post (next m) (update m)) :
    Safe (exclusion unlinks) pid post (.act enabled update next) s := by
  intro m (hrely : Excluded unlinks pid s m) (hinv : Sequenced m) _
  have hheld' : m.header.mutex = .held pid := hrely.mutex.mpr hheld
  obtain ⟨hafter, hinv', hnext⟩ := hstep m (hrely.held hheld) hheld' hinv
  refine ⟨hinv', fun other hother => excluded_of_held hother hheld' ?_, hnext⟩
  rw [hafter]
  rintro ⟨⟩
  exact hother rfl

theorem holding_load_bind {post : β → Memory → Prop} {f : Memory → α} {k : α → Prog Memory β}
    (hheld : s.header.mutex = .held pid)
    (hk : ∀ m, Interference unlinks s m → m.header.mutex = .held pid → Sequenced m →
      Safe (exclusion unlinks) pid post (k (f m)) m) :
    Safe (exclusion unlinks) pid post (.load f >>= k) s :=
  holding_act hheld fun m hE hheld' hinv => ⟨hheld', hinv, hk m hE hheld' hinv⟩

/-- The holder executes a part of its critical section. -/
theorem holding {A : Memory → Prop} {P : α → Prop} {p : Prog Memory α}
    (hA : ∀ m m', Inside m m' → A m → A m') (hp : p.Always Inside P) (hheld : s.header.mutex = .held pid)
    (hs : A s) :
    Safe (exclusion unlinks) pid (fun a m => P a ∧ m.header.mutex = .held pid ∧ A m) p s := by
  induction p generalizing s with
  | ret a => exact ⟨hp, hheld, hs⟩
  | act enabled update next ih =>
    refine holding_act hheld fun m hE hheld' hinv => ?_
    have hinside := hp.1 m
    have hafter := hinside.mutex.trans hheld'
    exact ⟨hafter, hinside.sequenced hinv,
      ih m (hp.2 m) hafter (hA _ _ hinside (hA _ _ hE.inside hs))⟩

theorem inside_load (f : Memory → α) : (Prog.load f).Always Inside fun _ => True :=
  Prog.always_load (fun _ => inside_of_same rfl rfl rfl) f

theorem inside_store_bind {P : α → Prop} {update : Memory → Memory} {k : Unit → Prog Memory α}
    (hupdate : ∀ m, Inside m (update m)) (hk : (k ()).Always Inside P) :
    (Prog.store update >>= k).Always Inside P :=
  (Prog.always_store hupdate).bind fun _ _ => hk

theorem inside_set_counters (f : ManagedCounters → ManagedCounters) (m : Memory) :
    Inside m (m.set_counters f) :=
  inside_of_same rfl rfl rfl

theorem inside_signal : signal_managed_event.Always Inside fun _ => True :=
  inside_store_bind (fun _ => inside_of_same rfl rfl rfl) <|
    Prog.always_store fun _ => inside_of_same rfl rfl rfl

theorem inside_mark_broken (reason : BreakReason) :
    (mark_managed_broken reason).Always Inside fun _ => True :=
  inside_store_bind (fun _ => inside_of_same rfl rfl rfl) <|
    inside_store_bind (fun _ => inside_of_same rfl rfl rfl) inside_signal

theorem inside_reset_slot {mark : Memory → Memory} (hmark : ∀ m, Inside m (mark m)) (index : Nat) :
    (reset_managed_slot index mark).Always Inside fun _ => True := by
  refine inside_store_bind (inside_set_slot index fun slot => .inl rfl) <|
    inside_store_bind (inside_set_slot index fun slot => .inr rfl) <| Prog.always_store fun m => ?_
  have hfree := inside_set_slot index (f := fun slot => { slot with state := ManagedSlotState.free.word })
    (fun slot => .inl rfl) m
  have h := hmark (m.set_slot index fun slot => { slot with state := ManagedSlotState.free.word })
  refine ⟨h.mutex, h.next, fun i => ?_⟩
  rcases h.slots i with hsame | hzero
  · rw [hsame]
    exact hfree.slots i
  · exact .inr hzero

theorem inside_recover_scan (todo index free_count ready_count discarded : Nat) :
    (recover_scan todo index free_count ready_count discarded).Always Inside fun _ => True := by
  induction todo generalizing index free_count ready_count discarded with
  | zero => trivial
  | succ todo ih =>
    rw [recover_scan]
    refine (inside_load _).bind fun state _ => ?_
    split_ifs
    · exact ih _ _ _ _
    · exact (inside_reset_slot (fun _ => inside_of_same rfl rfl rfl) index).bind fun _ _ => ih _ _ _ _
    · refine (inside_load _).bind fun corrupt _ => ?_
      split_ifs
      · exact (inside_mark_broken _).bind fun _ _ => trivial
      · exact ih _ _ _ _
    · exact (inside_mark_broken _).bind fun _ _ => trivial

theorem inside_recover : recover_managed_slots.Always Inside fun _ => True := by
  refine (inside_load _).bind fun capacity _ => (inside_recover_scan _ _ _ _ _).bind fun result _ => ?_
  cases result with
  | none => trivial
  | some counts =>
    exact inside_store_bind (fun _ => inside_of_same rfl rfl rfl) <|
      inside_store_bind (fun _ => inside_of_same rfl rfl rfl) <|
      inside_store_bind (fun _ => inside_of_same rfl rfl rfl) <|
      inside_store_bind (inside_set_counters _) <| inside_store_bind (inside_set_counters _) <|
      inside_signal.bind fun _ _ => trivial

theorem inside_find_free (capacity start todo offset : Nat) :
    (find_free_slot capacity start todo offset).Always Inside fun _ => True := by
  induction todo generalizing offset with
  | zero => trivial
  | succ todo ih =>
    rw [find_free_slot]
    refine (inside_load _).bind fun state _ => ?_
    split_ifs
    · trivial
    · exact ih _

theorem inside_copy (index offset : Nat) (bytes : Bytes) :
    (copy_payload index offset bytes).Always Inside fun _ => True := by
  induction bytes generalizing offset with
  | nil => trivial
  | cons byte rest ih => exact inside_store_bind (fun _ => inside_of_same rfl rfl rfl) (ih _)

theorem inside_count_published (selected capacity size : Nat) :
    (count_published selected capacity size).Always Inside fun _ => True :=
  inside_store_bind (fun _ => inside_of_same rfl rfl rfl) <|
    inside_store_bind (fun _ => inside_of_same rfl rfl rfl) <|
    inside_store_bind (fun _ => inside_of_same rfl rfl rfl) <|
    inside_store_bind (inside_set_counters _) <| Prog.always_store (inside_set_counters _)

theorem inside_release (selected : Nat) (message : Message) :
    (release_slot pid selected message).Always Inside fun _ => True := by
  unfold release_slot
  refine Prog.Always.bind (inside_reset_slot (fun m => ?_) selected) fun _ _ => ?_
  · exact inside_of_same rfl rfl rfl
  exact inside_store_bind (fun _ => inside_of_same rfl rfl rfl) <|
    inside_store_bind (fun _ => inside_of_same rfl rfl rfl) <|
    inside_store_bind (inside_set_counters _) <| Prog.always_store (inside_set_counters _)

theorem inside_close : close_critical.Always Inside fun _ => True := by
  unfold close_critical
  refine (inside_load _).bind fun current _ => ?_
  split
  · trivial
  · exact inside_store_bind (fun _ => inside_of_same rfl rfl rfl) trivial

end

end shmchan.managed
