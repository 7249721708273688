import Shmchan.ByteChannel.Reclaim

open process shmchan.endpoint

namespace shmchan.byte_channel

section

variable {channel : ByteChannel} {pid index position : Nat} {value : Option Bytes} {message : Bytes}
  {s s' : Memory}

/-- The end of a try that has nothing left to give back. -/
theorem Inv.end_try (h : Inv channel s) (hholder : ∀ i, holder (s.log.phase i) ≠ some pid)
    (howes : s.ring.owes_scan pid = false) (readable : Event) (hasty : Nat → Bool)
    (hhasty : ∀ other, other ≠ pid → hasty other = s.hasty other) :
    Inv channel { s.end_try pid with readable := readable, hasty := hasty } ∧
      ∀ other, other ≠ pid →
        Rely channel other s { s.end_try pid with readable := readable, hasty := hasty } := by
  refine ⟨{ h with receiving := fun other hother => ?_ }, fun other hother =>
    { Rely.refl channel other s with
      receiving := Function.update_of_ne hother _ _
      hasty := hhasty other hother }⟩
  by_cases hpid : other = pid
  · subst hpid
    rcases hother with howes' | ⟨i, hi⟩
    · exact absurd (howes.symm.trans howes') Bool.noConfusion
    · have hi : s.log.phase i = .claimed other := hi
      exact absurd (by rw [hi]; rfl) (hholder i)
  · exact (Function.update_of_ne hpid _ _).trans (h.receiving other hother)

theorem leave_reclaim_lock_safe (pick : Nat) (h : Scanning pid index value true false s) :
    SafeWithin Sane (ring_reliance channel) pid
      (fun _ s' => Scanning pid index value false false s' ∧ s'.receiving pid = false)
      (leave_reclaim_lock pid pick) s := by
  unfold leave_reclaim_lock
  apply SafeWithin.act (scanning_stable channel pid index value true false) h
  intro s₁ h₁ hinv₁ _ _ _
  obtain ⟨hinv, hothers⟩ := Inv.set_lock hinv₁ none (.inr (h₁.locker.mpr rfl)) (.inl rfl)
  refine ⟨hinv, hothers, ?_⟩
  have h₂ : Scanning pid index value false false
      (set_ring (fun r => { r with reclaim_lock := 0, locker := none }) s₁) :=
    ⟨h₁.holder, iff_of_false (Option.some_ne_none pid).symm Bool.noConfusion, h₁.owes_scan,
      by cases value <;> exact h₁.finished⟩
  apply SafeWithin.act (scanning_stable channel pid index value false false) h₂
  intro s₃ h₃ hinv₃ _ _ _
  obtain ⟨hinv, hothers⟩ := Inv.set_waiters hinv₃
    (s₃.ring.reclaim_waiters.eraseIdx (pick % s₃.ring.reclaim_waiters.length))
  obtain ⟨hinv', hothers'⟩ := hinv.end_try h₃.holder h₃.owes_scan s₃.readable s₃.hasty fun _ _ => rfl
  exact ⟨hinv', fun other hother => (hothers other).trans (hothers' other hother),
    ⟨h₃.holder, h₃.locker, h₃.owes_scan, by cases value <;> exact h₃.finished⟩, Function.update_self _ _ _⟩

theorem undisturbed_signal_reclaimed (pid : Nat) (reclaimed_any : Bool) :
    (signal_reclaimed pid reclaimed_any).Always Undisturbed fun _ => True := by
  unfold signal_reclaimed
  split
  · exact (undisturbed_bump pid .writable).bind fun _ _ => undisturbed_wake_all pid .writable
  · trivial

/-- A receiver gives back what it holds; then other operations may follow. -/
theorem reclaim_consumed_safe (chances : DequeueChances) (h : Scanning pid index value false true s) :
    SafeWithin Sane (ring_reliance channel) pid
      (fun finished s' => finished = true →
        Scanning pid index value false false s' ∧ s'.receiving pid = false)
      (reclaim_consumed channel pid chances) s := by
  unfold reclaim_consumed
  apply (reclaim_lock_guard_safe h).bind
  intro locked s₁ h₁
  cases locked with
  | false => exact fun hfalse => absurd hfalse Bool.noConfusion
  | true =>
    apply SafeWithin.act (scanning_stable channel pid index value true true) (h₁ rfl)
    intro s₂ h₂ hinv₂ _ _ _
    have hinv₂ : Inv channel s₂ := hinv₂
    refine ⟨hinv₂, fun other _ => Rely.refl channel other s₂, ?_⟩
    have hfirst : AtFirst pid index value s₂.ring.reclaim_position s₂ :=
      ⟨h₂, hinv₂.placed.reclaim_position, hinv₂.placed.reclaimed_le.trans hinv₂.placed.claimed_le⟩
    apply (reclaim_loop_safe hfirst).bind
    intro result s₃ h₃
    cases result with
    | none => exact fun hfalse => absurd hfalse Bool.noConfusion
    | some reclaimed_any =>
      have hstable := scanning_stable channel pid index value true false
      apply (quiet_safe (undisturbed_signal_reclaimed pid reclaimed_any) hstable (h₃ rfl)).bind
      intro _ s₄ h₄
      apply (leave_reclaim_lock_safe chances.unlock_pick h₄.2).bind
      exact fun _ s₅ h₅ _ => h₅

/-- A receiver that has claimed a record. -/
structure Taking (pid index position : Nat) (message : Bytes) (s : Memory) : Prop where
  locker : s.ring.locker ≠ some pid
  owes_scan : s.ring.owes_scan pid = false
  phase : s.log.phase index = .claimed pid
  only : ∀ i, holder (s.log.phase i) = some pid → i = index
  index_lt : index < s.log.count
  content : s.log.message index = message
  place : offset s.log.message index = position

theorem taking_stable (channel : ByteChannel) (pid index position : Nat) (message : Bytes) :
    Stable (ring_reliance channel) pid (Taking pid index position message) := by
  intro s s' hrely hinv h
  have hholder : holder (s.log.phase index) = some pid := by rw [h.phase]; rfl
  refine ⟨mt hrely.locker.mp h.locker, hrely.owes_scan.trans h.owes_scan,
    (hrely.held index hholder).trans h.phase, fun i hi => ?_, h.index_lt.trans_le hrely.count,
    (hrely.message index h.index_lt).trans h.content, (hrely.offset h.index_lt.le).trans h.place⟩
  have hsame := hrely.fresh i hi
  rw [hsame] at hi
  exact h.only i hi

/-- The claimed record is the head: `claim_position` has not been moved yet. -/
structure AtHead (pid index position : Nat) (message : Bytes) (s : Memory) : Prop
    extends Taking pid index position message s where
  head : s.log.claimed = index

theorem atHead_stable (channel : ByteChannel) (pid index position : Nat) (message : Bytes) :
    Stable (ring_reliance channel) pid (AtHead pid index position message) := by
  intro s s' hrely hinv h
  refine ⟨taking_stable channel pid index position message s s' hrely hinv h.toTaking, ?_⟩
  rw [hrely.head (by rw [h.head]; exact h.phase)]
  exact h.head

/-- The claimed record is behind `claim_position`. -/
structure Taken (pid index position : Nat) (message : Bytes) (s : Memory) : Prop
    extends Taking pid index position message s where
  behind : index < s.log.claimed

theorem taken_stable (channel : ByteChannel) (pid index position : Nat) (message : Bytes) :
    Stable (ring_reliance channel) pid (Taken pid index position message) := by
  intro s s' hrely hinv h
  exact ⟨taking_stable channel pid index position message s s' hrely hinv h.toTaking,
    h.behind.trans_le hrely.claimed⟩

theorem Taking.body (h : Taking pid index position message s) (hinv : Inv channel s) :
    Body channel.capacity_bytes s.ring.data position message := by
  have hlive := hinv.live_of_holder (i := index) (by rw [h.phase]; rfl)
  have hbody := (hinv.stored index hlive.1 hlive.2).body 2 (by rw [h.phase]; rfl)
  rwa [h.place, h.content] at hbody

/-- The result of a try: nothing is held, and a message is delivered, or lost
    because its buffer was refused, or there was none to claim. -/
def Dequeued (pid : Nat) : Ended (Option Bytes) → Memory → Prop :=
  Ended.Post
    (fun value s => Idle pid s ∧
      (∀ message, value = some message → ∃ index, Finished pid index (some message) s) ∧
      (value = none → Emptied pid s))
    (fun error s => Idle pid s ∧ error = .bad_alloc ∧ ∃ index, Finished pid index none s)

theorem finish_record_safe (chances : DequeueChances) {ended : Ended (Option Bytes)}
    (h : Taken pid index position message s) (hvalue : ∀ v ∈ value, v = message)
    (hended : ∀ s', Idle pid s' → Finished pid index value s' → Dequeued pid ended s') :
    SafeWithin Sane (ring_reliance channel) pid (Dequeued pid)
      (finish_record channel pid index position value chances ended) s := by
  unfold finish_record
  apply SafeWithin.act (taken_stable channel pid index position message) h
  intro s₁ h₁ hinv₁ _ _ _
  have hinv₁ : Inv channel s₁ := hinv₁
  obtain ⟨hinv, hothers⟩ := hinv₁.after_consume h₁.phase h₁.behind h₁.place
    (fun v hv => (hvalue v hv).trans h₁.content.symm)
  have hscanning : Scanning pid index value false true (consume channel pid index position value s₁) := by
    refine ⟨fun i hi => ?_, iff_of_false h₁.locker Bool.noConfusion, Function.update_self _ _ _, ?_⟩
    · simp only [consume] at hi
      by_cases hindex : i = index
      · rw [hindex, Function.update_self] at hi
        cases hi
      · rw [Function.update_of_ne hindex] at hi
        exact hindex (h₁.only i hi)
    · cases value with
      | some v => exact ⟨Function.update_self _ _ _, List.mem_cons_self⟩
      | none =>
        refine ⟨Function.update_self _ _ _, Function.update_self _ _ _, fun v hv => ?_⟩
        have hconsumed := (hinv₁.delivered _ hv).1
        rw [h₁.phase] at hconsumed
        cases hconsumed
  refine ⟨hinv, hothers, ?_⟩
  apply (reclaim_consumed_safe chances hscanning).bind
  intro finished s₂ h₂
  cases finished with
  | false => trivial
  | true =>
    obtain ⟨hend, hreceiving⟩ := h₂ rfl
    exact hended s₂ ⟨⟨hend.holder, mt hend.locker.mp Bool.noConfusion, hend.owes_scan⟩, hreceiving⟩
      hend.finished

/-- A word of the header of a claimed record. -/
theorem load_word_safe {A : Memory → Prop} {field expected : Nat} {β : Type} {post : β → Memory → Prop}
    {f : Nat → Prog Memory β} (hstable : Stable (ring_reliance channel) pid A) (h : A s)
    (hA : ∀ s a, A s → A (set_ring (fun r => { r with accesses := a :: r.accesses }) s))
    (hfield : field + 8 ≤ 32)
    (hvalue : ∀ s', A s' → Inv channel s' → index < s'.log.count ∧ offset s'.log.message index = position ∧
      load64 s'.ring.data (position % channel.capacity_bytes + field) = expected)
    (hf : ∀ s', A s' → SafeWithin Sane (ring_reliance channel) pid post (f expected) s') :
    SafeWithin Sane (ring_reliance channel) pid post (load_word channel index position field >>= f) s := by
  apply SafeWithin.modifyGet hstable h
  intro s' h' hinv _ _
  have hinv : Inv channel s' := hinv
  obtain ⟨hindex, hplace, hload⟩ := hvalue s' h' hinv
  have hinside := hinv.inside_header field hindex hfield
  rw [hplace] at hinside
  obtain ⟨hinv', hothers⟩ := hinv.access hinside
  rw [hload]
  exact ⟨hinv', fun other _ => hothers other, hf _ (hA s' _ h')⟩

/-- `copy_from_record` returns the payload from byte `k` on. -/
theorem copy_from_record_safe :
    ∀ {count k : Nat} {s : Memory}, k + count = message.length →
      Taken pid index position message s →
      SafeWithin Sane (ring_reliance channel) pid
        (fun copied s' => copied = message.drop k ∧ Taken pid index position message s')
        (copy_from_record channel index position message.length count k) s := by
  intro count
  induction count with
  | zero =>
    intro k s hk h
    exact ⟨(List.drop_eq_nil_of_le (by omega)).symm, h⟩
  | succ count ih =>
    intro k s hk h
    unfold copy_from_record
    apply SafeWithin.modifyGet (taken_stable channel pid index position message) h
    intro s₁ h₁ hinv₁ _ _
    have hinv₁ : Inv channel s₁ := hinv₁
    have hfits := hinv₁.placed.fits index h₁.index_lt
    have hinside := hinv₁.inside_payload (i := index) (k := k) h₁.index_lt (by rw [h₁.content]; omega)
    rw [h₁.content] at hfits
    rw [h₁.place, h₁.content] at hinside
    obtain ⟨hinv, hothers⟩ := hinv₁.access hinside
    refine ⟨hinv, fun other _ => hothers other, ?_⟩
    have h₂ : Taken pid index position message (set_ring (fun r =>
        { r with accesses := ⟨index, payload_byte channel.capacity_bytes position message.length k, 1⟩ ::
            r.accesses }) s₁) :=
      ⟨⟨h₁.locker, h₁.owes_scan, h₁.phase, h₁.only, h₁.index_lt, h₁.content, h₁.place⟩, h₁.behind⟩
    apply (ih (by omega) h₂).bind
    rintro rest s₃ ⟨rfl, h₃⟩
    refine ⟨?_, h₃⟩
    rw [List.drop_eq_getElem_cons (show k < message.length by omega),
      payload_byte_eq hfits (by omega), (h₁.toTaking.body hinv₁).bytes k (by omega)]

theorem take_record_safe (chances : DequeueChances)
    (hfits : message.length + 32 ≤ channel.capacity_bytes) (h : AtHead pid index position message s) :
    SafeWithin Sane (ring_reliance channel) pid (Dequeued pid)
      (take_record channel pid index position chances) s := by
  have hstable := atHead_stable channel pid index position message
  have haccess (s : Memory) (a : Access) (h : AtHead pid index position message s) :
      AtHead pid index position message (set_ring (fun r => { r with accesses := a :: r.accesses }) s) :=
    ⟨⟨h.locker, h.owes_scan, h.phase, h.only, h.index_lt, h.content, h.place⟩, h.head⟩
  unfold take_record
  apply load_word_safe hstable h haccess (by omega)
    fun s' h' hinv => ⟨h'.index_lt, h'.place, (h'.body hinv).total_size⟩
  intro s₁ h₁
  apply load_word_safe hstable h₁ haccess (by omega)
    fun s' h' hinv => ⟨h'.index_lt, h'.place, (h'.body hinv).payload_size⟩
  intro s₂ h₂
  have hbounded := channel.bounded
  have hsize := record_size_spec (show message.length < 2 ^ 63 by omega)
  have hcap := channel.record_size_le hfits
  have hsound : ¬ (size_is_corrupt channel (record_size message.length) ∨
      message.length > record_size message.length - sizeof_record_header) := by
    rw [size_is_corrupt, sizeof_record_header, record_alignment]
    omega
  rw [if_neg hsound]
  apply SafeWithin.act hstable h₂
  intro s₃ h₃ hinv₃ _ _ _
  have hinv₃ : Inv channel s₃ := hinv₃
  have hposition : s₃.ring.claim_position = position := by
    rw [hinv₃.placed.claim_position, h₃.head, h₃.place]
  have hexchanged : (s₃.ring.claim_position == position) = true := beq_iff_eq.mpr hposition
  simp only [hexchanged, if_true]
  have hadvance : Inv channel (advance pid position (record_size message.length) s₃) ∧
      ∀ other, other ≠ pid →
        Rely channel other s₃ (advance pid position (record_size message.length) s₃) := by
    apply hinv₃.after_advance
    · rw [h₃.head]
      exact h₃.phase
    · rw [h₃.head]
      exact h₃.place
    · rw [h₃.head, h₃.content]
  have h₄ : Taken pid index position message (advance pid position (record_size message.length) s₃) := by
    refine ⟨⟨h₃.locker, h₃.owes_scan, h₃.phase, h₃.only, h₃.index_lt, h₃.content, h₃.place⟩, ?_⟩
    simp only [advance, h₃.head]
    exact Nat.lt_succ_self index
  refine ⟨hadvance.1, hadvance.2, ?_⟩
  have htaken := taken_stable channel pid index position message
  apply (quiet_safe (undisturbed_bump pid .readable) htaken h₄).bind
  intro _ s₅ h₅
  apply (quiet_safe (undisturbed_wake_one pid .readable chances.pick) htaken h₅.2).bind
  intro _ s₆ h₆
  split
  · apply finish_record_safe chances h₆.2 (fun v hv => absurd hv (Option.not_mem_none v))
    exact fun s' hidle hlost => ⟨hidle, rfl, index, hlost⟩
  · apply (copy_from_record_safe (Nat.zero_add _) h₆.2).bind
    rintro copied s₇ ⟨rfl, h₇⟩
    apply finish_record_safe chances h₇
    · intro v hv
      exact (Option.mem_some_iff.mp hv).symm
    · intro s' hidle hdelivered
      refine ⟨hidle, fun v hv => ⟨index, ?_⟩, fun hnone => by cases hnone⟩
      cases hv
      exact hdelivered

/-- The receiver's comparison of the head's state word can only succeed on the
    published head: the messages are tame, or forged tokens are excluded. -/
theorem Inv.genuine (hinv : Inv channel s) (hsane : Sane (claim channel pid position s))
    (hpast : Past (fun s => s.log.claimed) position s)
    (htoken : load64 s.ring.data (position % channel.capacity_bytes) = published_token position) :
    s.log.phase s.log.claimed = .published ∧ offset s.log.message s.log.claimed = position := by
  rcases hsane.honest with htame | hhonest
  · obtain ⟨j, hj, hcount, rfl⟩ := hpast
    have halign := hinv.aligned hcount
    have htotal := hinv.placed.total
    have hle : offset s.log.message j ≤ offset s.log.message s.log.count := offset_mono hcount
    rw [published_token_eq (by omega)] at htoken
    have hpos : 0 < channel.capacity_bytes := by
      have := channel.larger
      omega
    have hhead : offset s.log.message j % channel.capacity_bytes % 32 = 0 := by
      rw [Nat.mod_mod_of_dvd _ (Nat.dvd_of_mod_eq_zero channel.aligned)]
      exact halign
    have hbyte := load64_first s.ring.data (offset s.log.message j % channel.capacity_bytes)
    rw [htoken] at hbyte
    obtain ⟨i, hi, hsame⟩ := hinv.unmistakable htame _ (Nat.mod_lt _ hpos) hhead (by omega)
    have hlive := hinv.live (i := i) (by rw [hi]; exact Phase.noConfusion) (by rw [hi]; exact Phase.noConfusion)
    have hword := (hinv.stored i hlive.1 hlive.2).token 1 (by rw [hi]; rfl)
    rw [hsame, htoken] at hword
    -- the published record is not behind the head, and the position not beyond it
    have hahead : s.log.claimed ≤ i := by
      by_contra hlt
      rcases hinv.phased.behind i (by omega) with hbehind | ⟨other, hbehind⟩
      · rw [hi] at hbehind
        cases hbehind
      · rw [hi] at hbehind
        cases hbehind
    have hji : j = i := by
      by_contra hne
      have := hinv.offset_lt (show j < i by have hj : j ≤ s.log.claimed := hj; omega) hlive.2.le
      omega
    have hclaimed : s.log.claimed = i := by
      have hj : j ≤ s.log.claimed := hj
      omega
    rw [hclaimed, hji]
    exact ⟨hi, rfl⟩
  · simp only [claim, Bool.or_eq_false_iff, Bool.not_eq_false', Bool.and_eq_true,
      decide_eq_true_eq] at hhonest
    exact hhonest.2

/-- What a receiver knows of the position it has loaded. -/
structure Seeking (pid position : Nat) (s : Memory) : Prop extends Unheld pid s where
  receiving : s.receiving pid = true
  past : Past (fun s => s.log.claimed) position s
  early : s.hasty pid = true ∨ s.Done

theorem seeking_stable (channel : ByteChannel) (pid position : Nat) :
    Stable (ring_reliance channel) pid (Seeking pid position) := by
  intro s s' hrely hinv h
  refine ⟨unheld_stable channel pid s s' hrely hinv h.toUnheld, hrely.receiving.trans h.receiving,
    past_stable position (fun _ _ hrely => hrely.claimed) s s' hrely hinv h.past, ?_⟩
  exact h.early.imp (fun hearly => hrely.hasty.trans hearly) hrely.toSenderRely.keeps_done

theorem emptied_stable (channel : ByteChannel) (pid : Nat) :
    Stable (ring_reliance channel) pid (Emptied pid) := by
  intro s s' hrely _ h
  exact hrely.toSenderRely.keeps_emptied hrely.hasty hrely.taken h

/-- The receiver begins. -/
theorem Inv.begin_try (h : Inv channel s) (pid : Nat) (readable : Event) :
    let s' : Memory := { s.begin_try pid with
      ring := { s.ring with last := Function.update s.ring.last pid none }, readable := readable }
    Inv channel s' ∧ ∀ other, other ≠ pid → Rely channel other s s' := by
  refine ⟨{ h with receiving := fun other hother => ?_, finishers := h.finishers.forget pid },
    fun other hother =>
    { Rely.refl channel other s with
      receiving := Function.update_of_ne hother _ _
      hasty := Function.update_of_ne hother _ _
      last := Function.update_of_ne hother _ _ }⟩
  by_cases hpid : other = pid
  · rw [hpid]
    exact Function.update_self _ _ _
  · exact (Function.update_of_ne hpid _ _).trans (h.receiving other hother)

/-- A try that begins with the bare closed bit comes after the last sender. -/
theorem Inv.early (h : Inv channel s) (pid : Nat) : (s.begin_try pid).hasty pid = true ∨ s.Done := by
  simp only [Endpoint.begin_try, Function.update_self, decide_eq_true_eq, Endpoint.Done]
  by_cases hdone : s.sender_state = channel_closed_bit
  · obtain ⟨hclosings, hguards⟩ := h.senders.done_iff.mp hdone
    exact .inr ⟨by omega, hguards⟩
  · exact .inl hdone

/-- The two positions that a try has loaded are equal: there is no record. -/
theorem Seeking.empty (h : Seeking pid s.ring.write_position s) (hinv : Inv channel s) : Emptied pid s := by
  rcases h.early with hearly | hdone
  · exact .inl hearly
  obtain ⟨j, hj, hcount, hposition⟩ := h.past
  refine .inr ⟨hdone, fun i hi => ?_⟩
  rw [hinv.placed.write_position] at hposition
  have hjcount : j = s.log.count := by
    by_contra hne
    have := hinv.offset_lt (show j < s.log.count by omega) le_rfl
    omega
  have hj : j ≤ s.log.claimed := hj
  rcases hinv.phased.behind i (by omega) with hphase | ⟨other, hphase⟩ <;> rw [hphase] <;> rfl

/-- The head could not be claimed: the try was hasty, or all records are claimed. -/
theorem Seeking.refused (h : Seeking pid position s) (hinv : Inv channel s) :
    Emptied pid (s.give_up pid) := by
  by_cases hleft : s.log.taken < s.log.count
  · left
    simp only [Endpoint.give_up, Function.update_self, hleft, decide_true, Bool.or_true]
  rcases h.early with hearly | hdone
  · left
    simp only [Endpoint.give_up, Function.update_self, hearly, Bool.true_or]
  refine .inr ⟨hdone, fun i hi => ?_⟩
  have hi : i < s.log.count := hi
  rw [Log.taken] at hleft
  by_cases hbehind : i < s.log.claimed
  · rcases hinv.phased.behind i hbehind with hphase | ⟨other, hphase⟩ <;>
      simp only [Endpoint.give_up, Endpoint.end_try, hphase] <;> rfl
  · split at hleft
    next htaken =>
      obtain rfl : i = s.log.claimed := by omega
      exact htaken
    next => omega

theorem try_dequeue_safe (chances : DequeueChances) (h : Idle pid s) :
    SafeWithin Sane (ring_reliance channel) pid (Dequeued pid) (try_dequeue channel pid chances) s := by
  unfold try_dequeue
  apply SafeWithin.modifyGet (idle_stable channel pid) h
  intro s₁ h₁ hinv₁ _ _
  have hinv₁ : Inv channel s₁ := hinv₁
  obtain ⟨hinv, hothers⟩ := hinv₁.begin_try pid (if s₁.readable.retry pid = .none then s₁.readable
    else s₁.readable.set_retry pid (.looking s₁.ring.claim_position))
  refine ⟨hinv, hothers, ?_⟩
  generalize (if s₁.readable.retry pid = .none then s₁.readable else _) = readable
  have hseeking : Seeking pid s₁.ring.claim_position { s₁.begin_try pid with
      ring := { s₁.ring with last := Function.update s₁.ring.last pid none }, readable := readable } :=
    ⟨⟨h₁.holder, h₁.locker, h₁.owes_scan⟩, Function.update_self _ _ _, ⟨s₁.log.claimed, le_rfl,
      hinv₁.placed.claimed_le, hinv₁.placed.claim_position⟩, hinv₁.early pid⟩
  generalize s₁.ring.claim_position = position at hseeking ⊢
  apply SafeWithin.modifyGet (seeking_stable channel pid position) hseeking
  intro s₂ h₂ hinv₂ _ _
  have hinv₂ : Inv channel s₂ := hinv₂
  have hstable := seeking_stable channel pid position
  by_cases hwritten : s₂.ring.write_position = position
  · simp only [hwritten, if_true]
    obtain ⟨hinv, hothers⟩ := hinv₂.end_try h₂.holder h₂.owes_scan (s₂.readable.set_retry pid .none)
      s₂.hasty fun _ _ => rfl
    subst hwritten
    exact ⟨hinv, hothers, ⟨⟨h₂.holder, h₂.locker, h₂.owes_scan⟩, Function.update_self _ _ _⟩,
      fun message hnone => absurd hnone.symm (Option.some_ne_none message), fun _ => h₂.empty hinv₂⟩
  · simp only [hwritten, Ne.symm hwritten, if_false]
    refine ⟨hinv₂, fun other _ => Rely.refl channel other s₂, ?_⟩
    apply SafeWithin.act hstable h₂
    intro s₃ h₃ hinv₃ _ _ hsane
    have hinv₃ : Inv channel s₃ := hinv₃
    by_cases htoken : (load64 s₃.ring.data (position % channel.capacity_bytes) ==
        published_token position) = true
    · simp only [htoken, if_true] at hsane ⊢
      obtain ⟨hphase, hposition⟩ := hinv₃.genuine hsane h₃.past (beq_iff_eq.mp htoken)
      obtain ⟨hinv, hothers⟩ := hinv₃.after_claim h₃.receiving hphase hposition
      have hlive := hinv₃.live (i := s₃.log.claimed) (by rw [hphase]; exact Phase.noConfusion)
        (by rw [hphase]; exact Phase.noConfusion)
      refine ⟨hinv, hothers, take_record_safe chances (hinv₃.placed.fits _ hlive.2) ⟨⟨h₃.locker,
        h₃.owes_scan, Function.update_self _ _ _, fun i hi => ?_, hlive.2, rfl, hposition⟩, rfl⟩⟩
      by_contra hne
      simp only [claim, Function.update_of_ne hne] at hi
      exact h₃.holder i hi
    · simp only [htoken]
      obtain ⟨hinv, hothers⟩ := hinv₃.end_try h₃.holder h₃.owes_scan (s₃.readable.set_retry pid .none)
        (s₃.give_up pid).hasty fun other hother => Function.update_of_ne hother _ _
      exact ⟨hinv, hothers, ⟨⟨h₃.holder, h₃.locker, h₃.owes_scan⟩, Function.update_self _ _ _⟩,
        fun message hnone => absurd hnone.symm (Option.some_ne_none message), fun _ => h₃.refused hinv₃⟩

end

end shmchan.byte_channel
