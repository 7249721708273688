import Shmchan.ByteChannel.Alone

open process shmchan.endpoint

namespace shmchan.byte_channel

section

variable {channel : ByteChannel} {o : Outline} {pid index position : Nat} {message : Bytes} {s : Memory}
  {α : Type}

theorem spin_reclaim_lock_alone (hinv : Inv channel s) (hfree : s.ring.reclaim_lock = 0) (spins : Nat) :
    AloneWithin (Inv channel) (fun _ s' => s' = s) (spin_reclaim_lock spins) s := by
  cases spins with
  | zero => exact rfl
  | succ spins =>
    unfold spin_reclaim_lock
    apply AloneWithin.load hinv
    rw [if_pos hfree]
    exact rfl

/-- The outline with another holder of the reclaim lock. -/
def Outline.lock (locker : Option Nat) (o : Outline) : Outline := { o with locker := locker }

/-- The reclaim lock is free. -/
theorem reclaim_lock_guard_alone (hfree : o.locker = none) :
    ∀ {turns : List LockTurn} {s : Memory}, (∃ turn ∈ turns, turn.spurious = false) → Stands channel o s →
      AloneWithin (Inv channel) (fun locked s' => locked = true ∧ Stands channel (o.lock (some pid)) s')
        (reclaim_lock_guard pid turns) s := by
  intro turns
  induction turns with
  | nil =>
    rintro _ ⟨turn, hturn, _⟩
    exact absurd hturn List.not_mem_nil
  | cons turn turns ih =>
    rintro s hturns h
    have hlocker : s.ring.locker = none := (congrArg Outline.locker h.outlined).trans hfree
    have hzero : s.ring.reclaim_lock = 0 := by
      rw [h.inv.locked, hlocker]
      rfl
    unfold reclaim_lock_guard
    by_cases hspurious : turn.spurious = true
    · have htest : (!turn.spurious && s.ring.reclaim_lock == 0) = false := by
        rw [hspurious]
        rfl
      refine AloneWithin.no_exchange htest h.inv ?_
      apply (spin_reclaim_lock_alone h.inv hzero 32).bind
      rintro _ _ rfl
      apply AloneWithin.load h.inv
      rw [if_neg (not_not_intro hzero)]
      refine ih ?_ h
      obtain ⟨good, hgood, hfair⟩ := hturns
      refine ⟨good, List.mem_of_ne_of_mem ?_ hgood, hfair⟩
      rintro rfl
      rw [hspurious] at hfair
      cases hfair
    · have htest : (!turn.spurious && s.ring.reclaim_lock == 0) = true := by
        rw [eq_false_of_ne_true hspurious, hzero]
        rfl
      have hinv := (@Inv.set_lock channel pid s h.inv (some pid) (.inl hlocker) (.inr rfl)).1
      refine AloneWithin.exchange htest hinv ⟨rfl, hinv, ?_⟩
      rw [← h.outlined]
      rfl

/-- The outline with the scan of a process ended. -/
def Outline.end_scan (pid : Nat) (o : Outline) : Outline :=
  { o with owes_scan := Function.update o.owes_scan pid false }

/-- The scan ends when it has caught up with the claims. -/
theorem reclaim_loop_end {scans : List Bool} {reclaimed_any : Bool} (hend : o.reclaimed = o.log.claimed)
    (h : Stands channel o s) :
    AloneWithin (Inv channel)
      (fun result s' => result = some reclaimed_any ∧ Stands channel (o.end_scan pid) s')
      (reclaim_loop channel pid scans s.ring.reclaim_position reclaimed_any) s := by
  obtain ⟨hinv, rfl⟩ := h
  have hend : s.ring.reclaimed = s.log.claimed := hend
  have hsame : s.ring.claim_position = s.ring.reclaim_position := by
    rw [hinv.placed.claim_position, hinv.placed.reclaim_position, hend]
  have hscan : end_scan pid (fun s' => s'.ring.claim_position == s.ring.reclaim_position) s =
      set_ring (fun r => { r with owes_scan := Function.update r.owes_scan pid false }) s :=
    if_pos (beq_iff_eq.mpr hsame)
  have hinv' := (hinv.after_scan pid fun hlt => absurd hlt (by omega)).1
  unfold reclaim_loop
  apply AloneWithin.modifyGet
  · rw [hscan]
    exact hinv'
  · rw [hscan, if_pos hsame.symm]
    exact ⟨rfl, hinv', rfl⟩

/-- The outline with one more record reclaimed. -/
def Outline.reclaim (o : Outline) : Outline := { o with reclaimed := o.reclaimed + 1 }

/-- The scan reclaims the one record that is consumed. -/
theorem reclaim_loop_alone (hlocker : o.locker = some pid) (howes : o.owes_scan pid = true)
    (hone : o.log.claimed = o.reclaimed + 1) (hconsumed : o.log.phase o.reclaimed = .consumed) :
    ∀ {scans : List Bool} {reclaimed_any : Bool} {s : Memory}, false ∈ scans → Stands channel o s →
      AloneWithin (Inv channel)
        (fun result s' => result = some true ∧ Stands channel (o.reclaim.end_scan pid) s')
        (reclaim_loop channel pid scans s.ring.reclaim_position reclaimed_any) s := by
  intro scans
  induction scans with
  | nil => exact fun hnone => absurd hnone List.not_mem_nil
  | cons spurious scans ih =>
    intro reclaimed_any s hscans h
    have hinv := h.inv
    have houtline := h.outlined
    subst houtline
    have hone : s.log.claimed = s.ring.reclaimed + 1 := hone
    have hconsumed : s.log.phase s.ring.reclaimed = .consumed := hconsumed
    have hlt : s.ring.reclaimed < s.log.claimed := by omega
    obtain ⟨htoken, hsize, hsound⟩ := hinv.first_record hlt hinv.placed.reclaim_position
    have hposition : s.ring.claim_position ≠ s.ring.reclaim_position := by
      have := hinv.offset_lt hlt hinv.placed.claimed_le
      rw [hinv.placed.claim_position, hinv.placed.reclaim_position]
      omega
    have hword := htoken.mpr hconsumed
    have hscan : end_scan pid (fun s' => s'.ring.claim_position == s.ring.reclaim_position) s = s :=
      if_neg (by rw [beq_iff_eq]; exact hposition)
    have hscan' : end_scan pid (fun s' => load64 s'.ring.data (s.ring.reclaim_position % channel.capacity_bytes) !=
        consumed_token s.ring.reclaim_position) s = s :=
      if_neg (by rw [bne_iff_ne]; exact not_not_intro hword)
    unfold reclaim_loop
    apply AloneWithin.modifyGet
    · rw [hscan]
      exact hinv
    rw [hscan, if_neg hposition.symm]
    apply AloneWithin.modifyGet
    · rw [hscan']
      exact hinv
    rw [hscan', if_neg (not_not_intro hword)]
    apply AloneWithin.load hinv
    rw [hsize, if_neg hsound]
    cases spurious with
    | true =>
      refine AloneWithin.no_exchange rfl hinv ?_
      exact ih (List.mem_of_ne_of_mem Bool.noConfusion hscans) h
    | false =>
      have hreclaim := (hinv.after_reclaim hlocker howes hlt hconsumed hinv.placed.reclaim_position.symm rfl).1
      refine AloneWithin.exchange (beq_iff_eq.mpr rfl) hreclaim ?_
      exact reclaim_loop_end (o := (outline s).reclaim) hone.symm ⟨hreclaim, rfl⟩

theorem nonBlocking_signal_reclaimed (pid : Nat) (reclaimed_any : Bool) :
    (signal_reclaimed pid reclaimed_any).NonBlocking := by
  unfold signal_reclaimed
  split
  · exact (nonBlocking_bump pid .writable).bind fun _ => nonBlocking_wake_all pid .writable
  · trivial

/-- The outline with the try of a process ended. -/
def Outline.end_try (pid : Nat) (o : Outline) : Outline :=
  { o with receiving := Function.update o.receiving pid false }

theorem leave_reclaim_lock_alone {pick : Nat} (hresting : ∀ i, holder (o.log.phase i) ≠ some pid)
    (howes : o.owes_scan pid = false) (h : Stands channel (o.lock (some pid)) s) :
    AloneWithin (Inv channel) (fun _ s' => Stands channel ((o.end_try pid).lock none) s')
      (leave_reclaim_lock pid pick) s := by
  obtain ⟨hinv, houtline⟩ := h
  have hlocker : s.ring.locker = some pid := congrArg Outline.locker houtline
  have hlog : s.log = o.log := congrArg Outline.log houtline
  have howes' : s.ring.owes_scan = o.owes_scan := congrArg Outline.owes_scan houtline
  have hunlocked := (@Inv.set_lock channel pid s hinv none (.inr hlocker) (.inl rfl)).1
  have hpicked := (hunlocked.set_waiters
    (s.ring.reclaim_waiters.eraseIdx (pick % s.ring.reclaim_waiters.length))).1
  have hholder (i : Nat) : holder (s.log.phase i) ≠ some pid := by
    rw [hlog]
    exact hresting i
  have hscan : s.ring.owes_scan pid = false := by rw [howes', howes]
  have hended := (hpicked.end_try hholder hscan s.readable s.hasty fun _ _ => rfl).1
  unfold leave_reclaim_lock
  apply AloneWithin.store hunlocked
  refine ⟨rfl, hended, hended, ?_⟩
  have hend : (o.end_try pid).lock none = (((o.lock (some pid)).end_try pid).lock none) := rfl
  rw [hend, ← houtline]
  rfl

/-- The reclaiming of the one record that is consumed. -/
theorem reclaim_consumed_alone {chances : DequeueChances} (hlock : ∃ turn ∈ chances.lock, turn.spurious = false)
    (hscans : false ∈ chances.scans) (hresting : ∀ i, holder (o.log.phase i) ≠ some pid)
    (hlocker : o.locker = none) (howes : o.owes_scan pid = true) (hone : o.log.claimed = o.reclaimed + 1)
    (hconsumed : o.log.phase o.reclaimed = .consumed) (h : Stands channel o s) :
    AloneWithin (Inv channel)
      (fun finished s' => finished = true ∧ Stands channel ((o.reclaim.end_scan pid).end_try pid) s')
      (reclaim_consumed channel pid chances) s := by
  unfold reclaim_consumed
  apply (reclaim_lock_guard_alone hlocker hlock h).bind
  rintro _ s₁ ⟨rfl, h₁⟩
  apply AloneWithin.load h₁.inv
  apply (reclaim_loop_alone (o := o.lock (some pid)) rfl howes hone hconsumed hscans h₁).bind
  rintro _ s₂ ⟨rfl, h₂⟩
  apply (quiet_alone (undisturbed_signal_reclaimed pid true) (nonBlocking_signal_reclaimed pid true) h₂).bind
  rintro _ s₃ ⟨_, h₃⟩
  apply (leave_reclaim_lock_alone (o := o.reclaim.end_scan pid) hresting (Function.update_self _ _ _) h₃).bind
  intro _ s₄ h₄
  refine ⟨rfl, ?_⟩
  have hend : (o.reclaim.end_scan pid).end_try pid = ((o.reclaim.end_scan pid).end_try pid).lock none := by
    simp only [Outline.lock, Outline.end_try, Outline.end_scan, Outline.reclaim, hlocker]
  rw [hend]
  exact h₄

/-- The outline while a receiver tries, and after it has claimed the head. -/
def Outline.begin_try (pid : Nat) (o : Outline) : Outline :=
  { o with receiving := Function.update o.receiving pid true }

def Outline.claim (pid : Nat) (o : Outline) : Outline :=
  { o with log := { o.log with phase := Function.update o.log.phase o.log.claimed (.claimed pid) } }

def Outline.advance (o : Outline) : Outline := { o with log := { o.log with claimed := o.log.claimed + 1 } }

/-- The outline with a claimed record consumed. -/
def Outline.consume (pid index : Nat) (value : Bytes) (o : Outline) : Outline :=
  { o with
    owes_scan := Function.update o.owes_scan pid true
    log := { o.log with
      phase := Function.update o.log.phase index .consumed
      delivered := (index, value) :: o.log.delivered } }

/-- The outline after a successful try to receive. -/
def Outline.dequeue (o : Outline) : Outline :=
  { o with
    reclaimed := o.reclaimed + 1
    log := { o.log with
      claimed := o.log.claimed + 1
      phase := Function.update o.log.phase o.log.claimed .consumed
      delivered := (o.log.claimed, o.log.message o.log.claimed) :: o.log.delivered } }

/-- The chances of a try to receive let it end. -/
structure DequeueChances.Able (chances : DequeueChances) : Prop where
  lock : ∃ turn ∈ chances.lock, turn.spurious = false
  scans : false ∈ chances.scans
  alloc : chances.alloc_fails = false

/-- A word of the header of the claimed record. -/
theorem load_word_alone {field : Nat} {post : α → Memory → Prop} {k : Nat → Prog Memory α}
    (hfield : field + 8 ≤ 32) (hindex : index < o.log.count) (hplace : offset o.log.message index = position)
    (h : Stands channel o s)
    (hk : ∀ a, let s' := set_ring (fun r => { r with accesses := a :: r.accesses }) s
      Stands channel o s' → AloneWithin (Inv channel) post
        (k (load64 s.ring.data (position % channel.capacity_bytes + field))) s') :
    AloneWithin (Inv channel) post (load_word channel index position field >>= k) s := by
  have hlog : s.log = o.log := congrArg Outline.log h.outlined
  have hplace' : offset s.log.message index = position := by
    rw [hlog]
    exact hplace
  have hinside := h.inv.inside_header (i := index) field (by rw [hlog]; exact hindex) hfield
  rw [hplace'] at hinside
  have hinv := (h.inv.access hinside).1
  exact AloneWithin.modifyGet hinv (hk _ ⟨hinv, h.outlined⟩)

/-- The receiver copies the whole payload out of the record it has claimed. -/
theorem copy_from_record_alone (h : Stands channel o s) (htaken : Taken pid index position message s) :
    AloneWithin (Inv channel)
      (fun copied s' => copied = message ∧ Taken pid index position message s' ∧ Stands channel o s')
      (copy_from_record channel index position message.length message.length 0) s := by
  have houtline := same_alone (same_copy_from_record channel index position message.length message.length 0)
    (nonBlocking_copy_from_record channel index position message.length message.length 0) h.inv.sane h.outlined
  apply (houtline.safe (copy_from_record_safe (Nat.zero_add _) htaken) (Rely.refl channel) h.inv h.inv.sane).mono
  rintro copied s' ⟨⟨_, _, h'⟩, ⟨rfl, htaken'⟩, hinv⟩
  exact ⟨rfl, htaken', hinv, h'⟩

theorem finish_record_alone {chances : DequeueChances} {ended : Ended (Option Bytes)} (hable : chances.Able)
    (hlocker : o.locker = none) (hone : o.log.claimed = o.reclaimed + 1) (hindex : index = o.reclaimed)
    (h : Stands channel o s) (htaken : Taken pid index position message s) :
    AloneWithin (Inv channel)
      (fun result s' => result = ended ∧
        Stands channel (((o.consume pid index message).reclaim.end_scan pid).end_try pid) s')
      (finish_record channel pid index position (some message) chances ended) s := by
  have hvalue (v : Bytes) (hv : v ∈ some message) : v = s.log.message index := by
    rw [htaken.content]
    exact (Option.mem_some_iff.mp hv).symm
  have hinv := (h.inv.after_consume htaken.phase htaken.behind htaken.place hvalue).1
  have hstands : Stands channel (o.consume pid index message)
      (consume channel pid index position (some message) s) := by
    refine ⟨hinv, ?_⟩
    rw [← h.outlined]
    rfl
  have hholder (i : Nat) : holder ((o.consume pid index message).log.phase i) ≠ some pid := by
    have hlog : s.log = o.log := congrArg Outline.log h.outlined
    intro hi
    simp only [Outline.consume] at hi
    by_cases hindex : i = index
    · rw [hindex, Function.update_self] at hi
      cases hi
    · rw [Function.update_of_ne hindex, ← hlog] at hi
      exact hindex (htaken.only i hi)
  have hconsumed : (o.consume pid index message).log.phase o.reclaimed = .consumed := by
    rw [← hindex]
    exact Function.update_self _ _ _
  unfold finish_record
  apply AloneWithin.store hinv
  apply (reclaim_consumed_alone hable.lock hable.scans hholder hlocker (Function.update_self _ _ _) hone hconsumed
    hstands).bind
  rintro _ s' ⟨rfl, h'⟩
  exact ⟨rfl, h'⟩

/-- The receiver takes the record at the head, which it has claimed. -/
theorem take_record_alone {chances : DequeueChances} (hable : chances.Able)
    (hfits : message.length + 32 ≤ channel.capacity_bytes) (hlocker : o.locker = none)
    (hreclaimed : o.reclaimed = o.log.claimed) (h : Stands channel o s)
    (hhead : AtHead pid index position message s) :
    AloneWithin (Inv channel)
      (fun ended s' => ended = .returned (some message) ∧
        Stands channel (((o.advance.consume pid index message).reclaim.end_scan pid).end_try pid) s')
      (take_record channel pid index position chances) s := by
  have hlog : s.log = o.log := congrArg Outline.log h.outlined
  have hbody := hhead.body h.inv
  have hindex : index < o.log.count := by
    rw [← hlog]
    exact hhead.index_lt
  have hplace : offset o.log.message index = position := by
    rw [← hlog]
    exact hhead.place
  have hbounded := channel.bounded
  have hsize := record_size_spec (show message.length < 2 ^ 63 by omega)
  have hcap := channel.record_size_le hfits
  have hsound : ¬ (size_is_corrupt channel (record_size message.length) ∨
      message.length > record_size message.length - sizeof_record_header) := by
    rw [size_is_corrupt, sizeof_record_header, record_alignment]
    omega
  have haccess (s : Memory) (a : Access) (h : AtHead pid index position message s) :
      AtHead pid index position message (set_ring (fun r => { r with accesses := a :: r.accesses }) s) :=
    ⟨⟨h.locker, h.owes_scan, h.phase, h.only, h.index_lt, h.content, h.place⟩, h.head⟩
  unfold take_record
  apply load_word_alone (by omega) hindex hplace h
  intro a s₁ h₁
  have hhead₁ : AtHead pid index position message s₁ := haccess s a hhead
  apply load_word_alone (by omega) hindex hplace h₁
  intro a' s₂ h₂
  have hhead₂ : AtHead pid index position message s₂ := haccess s₁ a' hhead₁
  rw [hbody.total_size, (hhead₁.body h₁.inv).payload_size, if_neg hsound]
  generalize s₂ = s₂ at h₂ hhead₂ ⊢
  have hposition : s₂.ring.claim_position = position := by
    rw [h₂.inv.placed.claim_position, hhead₂.head, hhead₂.place]
  have hadvance : Inv channel (advance pid position (record_size message.length) s₂) := by
    refine (h₂.inv.after_advance ?_ ?_ ?_).1
    · rw [hhead₂.head]
      exact hhead₂.phase
    · rw [hhead₂.head]
      exact hhead₂.place
    · rw [hhead₂.head, hhead₂.content]
  have h₃ : Stands channel o.advance (advance pid position (record_size message.length) s₂) := by
    refine ⟨hadvance, ?_⟩
    rw [← h₂.outlined]
    rfl
  have htaken₃ : Taken pid index position message (advance pid position (record_size message.length) s₂) := by
    refine ⟨⟨hhead₂.locker, hhead₂.owes_scan, hhead₂.phase, hhead₂.only, hhead₂.index_lt, hhead₂.content,
      hhead₂.place⟩, ?_⟩
    simp only [advance, hhead₂.head]
    exact Nat.lt_succ_self index
  refine AloneWithin.exchange (beq_iff_eq.mpr hposition) hadvance ?_
  have hstable := taken_stable channel pid index position message
  apply (quiet_alone_and (undisturbed_bump pid .readable) (nonBlocking_bump pid .readable) hstable h₃ htaken₃).bind
  rintro _ s₄ ⟨_, h₄, htaken₄⟩
  apply (quiet_alone_and (undisturbed_wake_one pid .readable chances.pick)
    (nonBlocking_wake_one pid .readable chances.pick) hstable h₄ htaken₄).bind
  rintro _ s₅ ⟨_, h₅, htaken₅⟩
  rw [hable.alloc, if_neg fun hfails => Bool.false_ne_true hfails.1]
  apply (copy_from_record_alone h₅ htaken₅).bind
  rintro _ s₆ ⟨rfl, htaken₆, h₆⟩
  apply finish_record_alone (o := o.advance) hable hlocker _ _ h₆ htaken₆
  · simp only [Outline.advance, hreclaimed]
  · rw [← hhead.head, hlog, ← hreclaimed]
    rfl

/-- The beginning of a try to receive. -/
theorem begin_try_alone {post : α → Memory → Prop} {k : Nat → Prog Memory α} {readable : Memory → Event}
    (h : Stands channel o s)
    (hk : ∀ s', Stands channel (o.begin_try pid) s' →
      AloneWithin (Inv channel) post (k (offset o.log.message o.log.claimed)) s') :
    AloneWithin (Inv channel) post
      (.modifyGet (fun s => s.ring.claim_position) (fun s =>
        { s.begin_try pid with
          ring := { s.ring with last := Function.update s.ring.last pid none }, readable := readable s }) >>= k) s := by
  have hinv := (h.inv.begin_try pid (readable s)).1
  have hposition : s.ring.claim_position = offset o.log.message o.log.claimed := by
    rw [h.inv.placed.claim_position, ← h.outlined]
    rfl
  apply AloneWithin.modifyGet hinv
  rw [hposition]
  refine hk _ ⟨hinv, ?_⟩
  rw [← h.outlined]
  rfl

theorem Outline.Resting.unheld_trying (hresting : o.Resting) (h : Stands channel (o.begin_try pid) s) :
    Unheld pid s :=
  @Outline.Resting.unheld o s hresting o.guards _ h.outlined pid

theorem Outline.Resting.begin_end_try (hresting : o.Resting) (pid : Nat) : (o.begin_try pid).end_try pid = o := by
  have hreceiving : Function.update (Function.update o.receiving pid true) pid false = o.receiving := by
    rw [Function.update_idem, ← hresting.receiving pid, Function.update_eq_self]
  simp only [Outline.begin_try, Outline.end_try, hreceiving]

/-- All records are claimed: a try to receive finds none. -/
theorem try_dequeue_none {chances : DequeueChances} (hresting : o.Resting) (hnone : o.log.claimed = o.log.count)
    (h : Stands channel o s) :
    AloneWithin (Inv channel) (fun ended s' => ended = .returned none ∧ Stands channel o s')
      (try_dequeue channel pid chances) s := by
  unfold try_dequeue
  apply begin_try_alone h
  intro s₁ h₁
  have hlog : s₁.log = o.log := congrArg Outline.log h₁.outlined
  have hwritten : s₁.ring.write_position = offset o.log.message o.log.claimed := by
    rw [h₁.inv.placed.write_position, hlog, hnone]
  have hunheld := hresting.unheld_trying h₁
  have hinv := (h₁.inv.end_try hunheld.holder hunheld.owes_scan (s₁.readable.set_retry pid .none) s₁.hasty
    fun _ _ => rfl).1
  apply AloneWithin.modifyGet
  · rw [if_pos hwritten]
    exact hinv
  rw [if_pos hwritten, if_pos hwritten.symm]
  refine ⟨rfl, hinv, ?_⟩
  rw [← hresting.begin_end_try pid, ← h₁.outlined]
  rfl

/-- A published record is at the head: a try to receive returns its message. -/
theorem try_dequeue_head {chances : DequeueChances} (hable : chances.Able) (hresting : o.Resting)
    (hreclaimed : o.reclaimed = o.log.claimed) (hpublished : o.log.phase o.log.claimed = .published)
    (h : Stands channel o s) :
    AloneWithin (Inv channel)
      (fun ended s' => ended = .returned (some (o.log.message o.log.claimed)) ∧ Stands channel o.dequeue s')
      (try_dequeue channel pid chances) s := by
  unfold try_dequeue
  apply begin_try_alone h
  intro s₁ h₁
  have hlog : s₁.log = o.log := congrArg Outline.log h₁.outlined
  have hphase : s₁.log.phase s₁.log.claimed = .published := by
    rw [hlog]
    exact hpublished
  have hlive := h₁.inv.live (i := s₁.log.claimed) (by rw [hphase]; rintro ⟨⟩) (by rw [hphase]; rintro ⟨⟩)
  have hposition : offset s₁.log.message s₁.log.claimed = offset o.log.message o.log.claimed := by rw [hlog]
  have hsmall := h₁.inv.placed.offset_le hlive.2 channel.bounded
  have hlt := h₁.inv.offset_lt hlive.2 le_rfl
  have hwritten : s₁.ring.write_position ≠ offset o.log.message o.log.claimed := by
    rw [h₁.inv.placed.write_position, ← hposition]
    omega
  have htoken := (h₁.inv.stored _ hlive.1 hlive.2).token 1 (by rw [hphase]; rfl)
  rw [hposition] at htoken hsmall
  apply AloneWithin.modifyGet
  · rw [if_neg hwritten]
    exact h₁.inv
  rw [if_neg hwritten, if_neg hwritten.symm]
  have htest : (load64 s₁.ring.data (offset o.log.message o.log.claimed % channel.capacity_bytes) ==
      published_token (offset o.log.message o.log.claimed)) = true := by
    rw [beq_iff_eq, published_token_eq (by omega)]
    exact htoken
  have hreceiving : s₁.receiving pid = true := by
    have hsame : s₁.receiving = (o.begin_try pid).receiving := congrArg Outline.receiving h₁.outlined
    rw [hsame]
    exact Function.update_self _ _ _
  have hunheld := hresting.unheld_trying h₁
  have hclaim := (h₁.inv.after_claim hreceiving hphase hposition).1
  have h₂ : Stands channel ((o.begin_try pid).claim pid)
      (claim channel pid (offset o.log.message o.log.claimed) s₁) := by
    refine ⟨hclaim, ?_⟩
    rw [← h₁.outlined]
    rfl
  have hhead : AtHead pid s₁.log.claimed (offset o.log.message o.log.claimed) (o.log.message o.log.claimed)
      (claim channel pid (offset o.log.message o.log.claimed) s₁) := by
    refine ⟨⟨hunheld.locker, hunheld.owes_scan, Function.update_self _ _ _, fun i hi => ?_, hlive.2, ?_, hposition⟩,
      rfl⟩
    · by_contra hne
      simp only [claim, Function.update_of_ne hne] at hi
      exact hunheld.holder i hi
    · simp only [claim, hlog]
  have hfits := h₁.inv.placed.fits _ hlive.2
  rw [hlog] at hfits
  refine AloneWithin.exchange htest hclaim ?_
  apply (take_record_alone (o := (o.begin_try pid).claim pid) hable hfits hresting.locker hreclaimed h₂ hhead).mono
  rintro ended s' ⟨rfl, h'⟩
  refine ⟨rfl, ?_⟩
  have hend : o.dequeue = (((((o.begin_try pid).claim pid).advance.consume pid s₁.log.claimed
      (o.log.message o.log.claimed)).reclaim.end_scan pid).end_try pid) := by
    have howes : Function.update (Function.update o.owes_scan pid true) pid false = o.owes_scan := by
      rw [Function.update_idem, ← hresting.owes_scan pid, Function.update_eq_self]
    have hreceiving : Function.update (Function.update o.receiving pid true) pid false = o.receiving := by
      rw [Function.update_idem, ← hresting.receiving pid, Function.update_eq_self]
    simp only [Outline.dequeue, Outline.begin_try, Outline.claim, Outline.advance, Outline.consume,
      Outline.reclaim, Outline.end_scan, Outline.end_try, hlog, howes, hreceiving, Function.update_idem]
  rw [hend]
  exact h'

theorem closed_and_senders_done_alone {post : α → Memory → Prop} {k : Bool → Prog Memory α}
    (hresting : o.Resting) (h : Stands channel o s)
    (hk : AloneWithin (Inv channel) post (k (decide (o.closings = 1))) s) :
    AloneWithin (Inv channel) post (closed_and_senders_done >>= k) s := by
  have hdone : decide (s.sender_state = channel_closed_bit) = decide (o.closings = 1) := by
    rw [decide_eq_decide, h.inv.senders.done_iff, ← h.outlined]
    refine and_iff_left ?_
    exact (congrArg Outline.guards h.outlined).trans hresting.guards
  apply AloneWithin.load h.inv
  rw [hdone]
  exact hk

/-- A call of `try_receive` that runs alone and finds no message. -/
theorem try_receive_none {first second : DequeueChances} (hresting : o.Resting)
    (hnone : o.log.claimed = o.log.count) (h : Stands channel o s) :
    AloneWithin (Inv channel)
      (fun ended s' => ended = .returned { code := if o.closings = 1 then .closed else .would_block } ∧
        Stands channel o s')
      (endpoint.try_receive (try_dequeue channel pid) first second) s := by
  unfold endpoint.try_receive andThen
  apply (try_dequeue_none hresting hnone h).bind
  rintro _ s₁ ⟨rfl, h₁⟩
  apply closed_and_senders_done_alone hresting h₁
  by_cases hclosed : o.closings = 1
  · rw [decide_eq_true hclosed, if_pos rfl, if_pos hclosed]
    unfold receive_rest andThen
    apply (try_dequeue_none hresting hnone h₁).bind
    rintro _ s₂ ⟨rfl, h₂⟩
    exact ⟨rfl, h₂⟩
  · rw [decide_eq_false hclosed, if_neg Bool.false_ne_true, if_neg hclosed]
    exact ⟨rfl, h₁⟩

/-- A call of `try_receive` that runs alone and finds a message. -/
theorem try_receive_head {first second : DequeueChances} (hable : first.Able) (hresting : o.Resting)
    (hreclaimed : o.reclaimed = o.log.claimed) (hpublished : o.log.phase o.log.claimed = .published)
    (h : Stands channel o s) :
    AloneWithin (Inv channel)
      (fun ended s' =>
        ended = .returned { code := .success, value := some (o.log.message o.log.claimed) } ∧
          Stands channel o.dequeue s')
      (endpoint.try_receive (try_dequeue channel pid) first second) s := by
  unfold endpoint.try_receive andThen
  apply (try_dequeue_head hable hresting hreclaimed hpublished h).bind
  rintro _ s₁ ⟨rfl, h₁⟩
  exact ⟨rfl, h₁⟩

theorem Outline.Resting.dequeue (hresting : o.Resting) : o.dequeue.Resting := by
  refine ⟨hresting.guards, hresting.receiving, hresting.locker, hresting.owes_scan, fun i pid => ?_⟩
  by_cases hi : i = o.log.claimed
  · simp only [Outline.dequeue, hi, Function.update_self]
    rintro ⟨⟩
  · simp only [Outline.dequeue, Function.update_of_ne hi]
    exact hresting.holder i pid

end

end shmchan.byte_channel
