import Shmchan.ByteChannel.Enqueue

open process shmchan.endpoint

namespace shmchan.byte_channel

section

variable {channel : ByteChannel} {pid : Nat} {s s' : Memory}

/-- A record is consumed and nobody has its message. -/
def Lost (index : Nat) (s : Memory) : Prop :=
  s.log.phase index = .consumed ∧ ∀ value, (index, value) ∉ s.log.delivered

/-- The try of a process has finished a record: it is delivered, or lost. -/
def Finished (pid index : Nat) : Option Bytes → Memory → Prop
  | some value, s => s.ring.last pid = some index ∧ (index, value) ∈ s.log.delivered
  | none, s => s.ring.last pid = some index ∧ Lost index s

theorem lost_stable (channel : ByteChannel) (pid index : Nat) :
    Stable (ring_reliance channel) pid (Lost index) := by
  intro s s' hrely _ h
  refine ⟨hrely.consumed _ h.1, fun value hvalue => ?_⟩
  rcases hrely.delivered _ hvalue with hold | hnot
  · exact h.2 value hold
  · exact hnot h.1

theorem finished_stable (channel : ByteChannel) (pid index : Nat) (value : Option Bytes) :
    Stable (ring_reliance channel) pid (Finished pid index value) := by
  intro s s' hrely hinv h
  cases value with
  | some value => exact ⟨hrely.last.trans h.1, hrely.kept _ h.2⟩
  | none => exact ⟨hrely.last.trans h.1, lost_stable channel pid index s s' hrely hinv h.2⟩

/-- A receiver that has consumed its record and has not scanned yet. -/
structure Scanning (pid index : Nat) (value : Option Bytes) (locked owes : Bool) (s : Memory) : Prop where
  holder : ∀ i, holder (s.log.phase i) ≠ some pid
  locker : s.ring.locker = some pid ↔ locked = true
  owes_scan : s.ring.owes_scan pid = owes
  finished : Finished pid index value s

theorem scanning_stable (channel : ByteChannel) (pid index : Nat) (value : Option Bytes)
    (locked owes : Bool) :
    Stable (ring_reliance channel) pid (Scanning pid index value locked owes) := by
  intro s s' hrely hinv h
  refine ⟨fun i hi => ?_, hrely.locker.trans h.locker, hrely.owes_scan.trans h.owes_scan,
    finished_stable channel pid index value s s' hrely hinv h.finished⟩
  have hsame := hrely.fresh i hi
  rw [hsame] at hi
  exact h.holder i hi

/-- The futex queue of the reclaim lock does not concern the ring. -/
theorem Inv.set_waiters (h : Inv channel s) (waiters : List Nat) :
    Inv channel (set_ring (fun r => { r with reclaim_waiters := waiters }) s) ∧
      ∀ other, Rely channel other s (set_ring (fun r => { r with reclaim_waiters := waiters }) s) :=
  ⟨{ h with }, fun other => { Rely.refl channel other s with }⟩

variable {index : Nat} {value : Option Bytes}

theorem spin_reclaim_lock_safe {A : Memory → Prop} (hstable : Stable (ring_reliance channel) pid A)
    (spins : Nat) (h : A s) :
    SafeWithin Sane (ring_reliance channel) pid (fun _ s' => A s') (spin_reclaim_lock spins) s := by
  induction spins generalizing s with
  | zero => exact h
  | succ spins ih =>
    apply SafeWithin.load (Rely.refl channel) hstable h
    intro s' h' _ _
    split
    · exact h'
    · exact ih h'

theorem wait_reclaim_lock_safe (outcome : WaitOutcome) (h : Scanning pid index value false true s) :
    SafeWithin Sane (ring_reliance channel) pid (fun _ s' => Scanning pid index value false true s')
      (wait_reclaim_lock pid outcome) s := by
  unfold wait_reclaim_lock
  split
  · exact h
  apply SafeWithin.modifyGet (scanning_stable channel pid index value false true) h
  intro s₁ h₁ hinv₁ _ _
  have hwaiters : ∃ waiters, set_ring (fun r =>
      if r.reclaim_lock = 1 then { r with reclaim_waiters := pid :: r.reclaim_waiters } else r) s₁ =
      set_ring (fun r => { r with reclaim_waiters := waiters }) s₁ := by
    by_cases hlock : s₁.ring.reclaim_lock = 1
    · exact ⟨pid :: s₁.ring.reclaim_waiters, by rw [set_ring, if_pos hlock]; rfl⟩
    · exact ⟨s₁.ring.reclaim_waiters, by rw [set_ring, if_neg hlock]; rfl⟩
  obtain ⟨waiters, hwaiters⟩ := hwaiters
  rw [hwaiters]
  obtain ⟨hinv, hothers⟩ := Inv.set_waiters hinv₁ waiters
  have h₂ : Scanning pid index value false true
      (set_ring (fun r => { r with reclaim_waiters := waiters }) s₁) :=
    ⟨h₁.holder, h₁.locker, h₁.owes_scan, by cases value <;> exact h₁.finished⟩
  refine ⟨hinv, fun other _ => hothers other, ?_⟩
  split
  · apply SafeWithin.act (scanning_stable channel pid index value false true) h₂
    intro s₃ h₃ hinv₃ _ _ _
    obtain ⟨hinv, hothers⟩ := Inv.set_waiters hinv₃ (s₃.ring.reclaim_waiters.erase pid)
    exact ⟨hinv, fun other _ => hothers other,
      ⟨h₃.holder, h₃.locker, h₃.owes_scan, by cases value <;> exact h₃.finished⟩⟩
  · exact h₂

theorem reclaim_lock_guard_safe :
    ∀ {turns : List LockTurn} {s : Memory}, Scanning pid index value false true s →
      SafeWithin Sane (ring_reliance channel) pid
        (fun locked s' => locked = true → Scanning pid index value true true s')
        (reclaim_lock_guard pid turns) s := by
  intro turns
  induction turns with
  | nil => exact fun _ hfalse => absurd hfalse Bool.noConfusion
  | cons turn turns ih =>
    intro s h
    unfold reclaim_lock_guard
    apply SafeWithin.act (scanning_stable channel pid index value false true) h
    intro s₁ h₁ hinv₁ _ _ _
    have hinv₁ : Inv channel s₁ := hinv₁
    by_cases hexchanged : (!turn.spurious && s₁.ring.reclaim_lock == 0) = true
    · simp only [hexchanged, if_true]
      simp only [Bool.and_eq_true, beq_iff_eq] at hexchanged
      have hfree : s₁.ring.locker = none := by
        have hlocked := hinv₁.locked
        rw [hexchanged.2] at hlocked
        split at hlocked
        · cases hlocked
        next hsome => exact Option.not_isSome_iff_eq_none.mp hsome
      obtain ⟨hinv, hothers⟩ := hinv₁.set_lock (some pid) (.inl hfree) (.inr rfl)
      exact ⟨hinv, hothers, fun _ => ⟨h₁.holder, iff_of_true rfl rfl, h₁.owes_scan,
        by cases value <;> exact h₁.finished⟩⟩
    · simp only [hexchanged]
      refine ⟨hinv₁, fun other _ => Rely.refl channel other s₁, ?_⟩
      apply (spin_reclaim_lock_safe (scanning_stable channel pid index value false true) 32 h₁).bind
      intro _ s₂ h₂
      apply SafeWithin.load (Rely.refl channel) (scanning_stable channel pid index value false true) h₂
      intro s₃ h₃ _ _
      split
      · exact (wait_reclaim_lock_safe turn.outcome h₃).bind fun _ _ h₄ => ih h₄
      · exact ih h₃

/-- The holder of the reclaim lock, which has not ended its scan, at the first
    record that is not reclaimed. -/
structure AtFirst (pid index : Nat) (value : Option Bytes) (position : Nat) (s : Memory) : Prop
    extends Scanning pid index value true true s where
  place : position = offset s.log.message s.ring.reclaimed
  le : s.ring.reclaimed ≤ s.log.count

theorem atFirst_stable (channel : ByteChannel) (pid index : Nat) (value : Option Bytes) (position : Nat) :
    Stable (ring_reliance channel) pid (AtFirst pid index value position) := by
  intro s s' hrely hinv h
  have hreclaimed := hrely.scanning (h.locker.mpr rfl)
  refine ⟨scanning_stable channel pid index value true true s s' hrely hinv h.toScanning, ?_, ?_⟩
  · rw [hreclaimed, hrely.offset h.le]
    exact h.place
  · rw [hreclaimed]
    exact h.le.trans hrely.count

/-- The scan has met a claimed record. -/
structure AtClaimed (pid index : Nat) (value : Option Bytes) (position : Nat) (s : Memory) : Prop
    extends AtFirst pid index value position s where
  lt : s.ring.reclaimed < s.log.claimed
  lt_count : s.ring.reclaimed < s.log.count

theorem atClaimed_stable (channel : ByteChannel) (pid index : Nat) (value : Option Bytes) (position : Nat) :
    Stable (ring_reliance channel) pid (AtClaimed pid index value position) := by
  intro s s' hrely hinv h
  refine ⟨atFirst_stable channel pid index value position s s' hrely hinv h.toAtFirst, ?_, ?_⟩
  · rw [hrely.scanning (h.locker.mpr rfl)]
    exact h.lt.trans_le hrely.claimed
  · rw [hrely.scanning (h.locker.mpr rfl)]
    exact h.lt_count.trans_le hrely.count

/-- The scan has met a consumed record. -/
structure AtConsumed (pid index : Nat) (value : Option Bytes) (position : Nat) (s : Memory) : Prop
    extends AtClaimed pid index value position s where
  consumed : s.log.phase s.ring.reclaimed = .consumed

theorem atConsumed_stable (channel : ByteChannel) (pid index : Nat) (value : Option Bytes)
    (position : Nat) : Stable (ring_reliance channel) pid (AtConsumed pid index value position) := by
  intro s s' hrely hinv h
  refine ⟨atClaimed_stable channel pid index value position s s' hrely hinv h.toAtClaimed, ?_⟩
  rw [hrely.scanning (h.locker.mpr rfl)]
  exact hrely.consumed _ h.consumed

/-- The scan has loaded the size of the record. -/
structure AtSize (pid index : Nat) (value : Option Bytes) (position total_size : Nat) (s : Memory) : Prop
    extends AtConsumed pid index value position s where
  size : total_size = record_size (s.log.message s.ring.reclaimed).length

theorem atSize_stable (channel : ByteChannel) (pid index : Nat) (value : Option Bytes)
    (position total_size : Nat) :
    Stable (ring_reliance channel) pid (AtSize pid index value position total_size) := by
  intro s s' hrely hinv h
  refine ⟨atConsumed_stable channel pid index value position s s' hrely hinv h.toAtConsumed, ?_⟩
  rw [hrely.scanning (h.locker.mpr rfl), hrely.message _ h.lt_count]
  exact h.size

/-- A word that the scan loads may end it. -/
theorem scan_safe {A : Memory → Prop} (hstable : Stable (ring_reliance channel) pid A) (h : A s)
    {α β : Type} {post : β → Memory → Prop} {load : Memory → α} {ends : Memory → Bool}
    {f : α → Prog Memory β} (hA : ∀ s, A s → Scanning pid index value true true s)
    (hend : ∀ s', A s' → Inv channel s' → ends s' = true →
      (s'.ring.reclaimed < s'.log.claimed → s'.log.phase s'.ring.reclaimed ≠ .consumed) ∧
        ∀ s'', Scanning pid index value true false s'' →
          SafeWithin Sane (ring_reliance channel) pid post (f (load s')) s'')
    (hnext : ∀ s', A s' → Inv channel s' → ends s' = false →
      SafeWithin Sane (ring_reliance channel) pid post (f (load s')) s') :
    SafeWithin Sane (ring_reliance channel) pid post (.modifyGet load (end_scan pid ends) >>= f) s := by
  apply SafeWithin.modifyGet hstable h
  intro s' h' hinv _ _
  have hinv : Inv channel s' := hinv
  cases hends : ends s' with
  | true =>
    obtain ⟨hnone, hf⟩ := hend s' h' hinv hends
    obtain ⟨hinv', hothers⟩ := hinv.after_scan pid hnone
    have hscanning := hA s' h'
    simp only [end_scan, hends, if_true]
    refine ⟨hinv', hothers, hf _ ⟨hscanning.holder, hscanning.locker, Function.update_self _ _ _, ?_⟩⟩
    cases value <;> exact hscanning.finished
  | false =>
    simp only [end_scan, hends]
    exact ⟨hinv, fun other _ => Rely.refl channel other s', hnext s' h' hinv hends⟩

/-- A claimed record has its size and either of two tokens in its header. -/
theorem Inv.first_record (h : Inv channel s) {position : Nat} (hlt : s.ring.reclaimed < s.log.claimed)
    (hplace : position = offset s.log.message s.ring.reclaimed) :
    (load64 s.ring.data (position % channel.capacity_bytes) = consumed_token position ↔
      s.log.phase s.ring.reclaimed = .consumed) ∧
    load64 s.ring.data (position % channel.capacity_bytes + 8) =
      record_size (s.log.message s.ring.reclaimed).length ∧
    ¬ size_is_corrupt channel (record_size (s.log.message s.ring.reclaimed).length) := by
  subst hplace
  have hcount : s.ring.reclaimed < s.log.count := hlt.trans_le h.placed.claimed_le
  have hstored := h.stored _ le_rfl hcount
  have hsize := h.size_spec hcount
  have hsmall := h.placed.offset_le hcount channel.bounded
  rw [consumed_token_eq (by omega), size_is_corrupt, sizeof_record_header, record_alignment]
  rcases h.phased.behind _ hlt with hphase | ⟨other, hphase⟩
  · rw [hphase] at hstored ⊢
    exact ⟨iff_of_true (hstored.token 3 rfl) rfl, (hstored.body 3 rfl).total_size, by omega⟩
  · rw [hphase] at hstored ⊢
    refine ⟨iff_of_false ?_ Phase.noConfusion, (hstored.body 2 rfl).total_size, by omega⟩
    rw [hstored.token 2 rfl]
    omega

/-- What `reclaim_loop` ends with. -/
def Scanned (pid index : Nat) (value : Option Bytes) (result : Option Bool) (s : Memory) : Prop :=
  result.isSome = true → Scanning pid index value true false s

/-- One round of the scan; `hrest` is about the rounds after it. -/
theorem reclaim_round_safe {scans : List Bool} {position : Nat} {reclaimed_any : Bool}
    (hrest : ∀ spurious rest, scans = spurious :: rest → ∀ {position reclaimed_any s},
      AtFirst pid index value position s → SafeWithin Sane (ring_reliance channel) pid
        (Scanned pid index value) (reclaim_loop channel pid rest position reclaimed_any) s)
    (h : AtFirst pid index value position s) :
    SafeWithin Sane (ring_reliance channel) pid (Scanned pid index value)
      (reclaim_loop channel pid scans position reclaimed_any) s := by
  unfold reclaim_loop
  apply scan_safe (atFirst_stable channel pid index value position) h fun _ h => h.toScanning
  · intro s₁ h₁ hinv₁ hends
    rw [beq_iff_eq] at hends
    refine ⟨fun hlt => ?_, fun s₂ h₂ => ?_⟩
    · have hclaim := hinv₁.placed.claim_position
      have := hinv₁.offset_lt hlt hinv₁.placed.claimed_le
      rw [← h₁.place, ← hclaim] at this
      omega
    · rw [if_pos hends.symm]
      exact fun _ => h₂
  intro s₁ h₁ hinv₁ hends
  rw [beq_eq_false_iff_ne] at hends
  rw [if_neg hends.symm]
  have hclaimed : AtClaimed pid index value position s₁ := by
    suffices hlt : s₁.ring.reclaimed < s₁.log.claimed from
      ⟨h₁, hlt, hlt.trans_le hinv₁.placed.claimed_le⟩
    by_contra hge
    have heq : s₁.ring.reclaimed = s₁.log.claimed := by
      have := hinv₁.placed.reclaimed_le
      omega
    exact hends (by rw [hinv₁.placed.claim_position, h₁.place, heq])
  apply scan_safe (atClaimed_stable channel pid index value position) hclaimed fun _ h => h.toScanning
  · intro s₂ h₂ hinv₂ hends
    rw [bne_iff_ne] at hends
    refine ⟨fun hlt hconsumed => ?_, fun s₃ h₃ => ?_⟩
    · exact hends ((hinv₂.first_record hlt h₂.place).1.mpr hconsumed)
    · rw [if_pos hends]
      exact fun _ => h₃
  intro s₂ h₂ hinv₂ hends
  rw [bne_eq_false_iff_eq] at hends
  rw [if_neg (not_not_intro hends)]
  have hconsumed : AtConsumed pid index value position s₂ :=
    ⟨h₂, (hinv₂.first_record h₂.lt h₂.place).1.mp hends⟩
  apply SafeWithin.load (Rely.refl channel) (atConsumed_stable channel pid index value position) hconsumed
  intro s₃ h₃ hinv₃ _
  obtain ⟨_, hsize, hcorrupt⟩ := Inv.first_record hinv₃ h₃.lt h₃.place
  rw [hsize, if_neg hcorrupt]
  cases scans with
  | nil => exact fun hnone => absurd hnone Bool.noConfusion
  | cons spurious rest =>
    apply SafeWithin.act (atSize_stable channel pid index value position _) ⟨h₃, rfl⟩
    intro s₄ h₄ hinv₄ _ _ _
    have hinv₄ : Inv channel s₄ := hinv₄
    by_cases hexchanged : (!spurious && s₄.ring.reclaim_position == position) = true
    · simp only [hexchanged, if_true]
      obtain ⟨hinv₅, hothers⟩ := hinv₄.after_reclaim (h₄.locker.mpr rfl) h₄.owes_scan h₄.lt h₄.consumed
        h₄.place.symm h₄.size
      refine ⟨hinv₅, hothers, hrest spurious rest rfl ⟨⟨h₄.holder, h₄.locker, h₄.owes_scan, ?_⟩, ?_, ?_⟩⟩
      · cases value <;> exact h₄.finished
      · exact hinv₅.placed.reclaim_position
      · exact h₄.lt.trans_le hinv₄.placed.claimed_le
    · simp only [hexchanged]
      refine ⟨hinv₄, fun other _ => Rely.refl channel other s₄, hrest spurious rest rfl ?_⟩
      exact ⟨h₄.toScanning, hinv₄.placed.reclaim_position, h₄.le⟩

theorem reclaim_loop_safe {scans : List Bool} {position : Nat} {reclaimed_any : Bool}
    (h : AtFirst pid index value position s) :
    SafeWithin Sane (ring_reliance channel) pid (Scanned pid index value)
      (reclaim_loop channel pid scans position reclaimed_any) s := by
  induction scans generalizing position reclaimed_any s with
  | nil => exact reclaim_round_safe (fun _ _ hcons => by cases hcons) h
  | cons spurious rest ih =>
    apply reclaim_round_safe _ h
    intro _ _ hcons _ _ _ hnext
    cases hcons
    exact ih hnext

end

end shmchan.byte_channel
