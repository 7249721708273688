import Shmchan.ByteChannel.Session
import Shmchan.Endpoint.Waiting

open process shmchan.endpoint

namespace shmchan.byte_channel

/-- A receiver waits for a published record at the head, and a woken one looks
    at the head it has loaded. A sender waits for room for its record. -/
def watch (channel : ByteChannel) : Word → Watch ByteRing Bytes
  | .readable => {
      items := fun _ log i => i = log.claimed ∧ log.phase i = .published
      looks := fun ring _ position => position = ring.claim_position
      room := fun _ _ _ => False }
  | .writable => {
      items := fun _ _ _ => False
      looks := fun _ _ _ => False
      room := fun pid ring _ =>
        ring.required pid ≤ channel.capacity_bytes - (ring.write_position - ring.reclaim_position) }

/-- What a process may rely on from the others for its waits. -/
structure WakeRely (channel : ByteChannel) (pid : Nat) (s s' : Memory) : Prop where
  words : ∀ word, WatchRely (watch channel word) word pid s s'
  written : s.ring.write_position ≤ s'.ring.write_position
  required : s'.ring.required pid = s.ring.required pid
  head : s'.readable.bumps = s.readable.bumps → s'.ring.claim_position = s.ring.claim_position ∨
    (watch channel .readable).Covered .readable s'
  reclaimed : s'.writable.bumps = s.writable.bumps →
    s'.ring.reclaim_position = s.ring.reclaim_position ∨ s'.writable.Owed

def wake_reliance (channel : ByteChannel) : Reliance Memory Nat :=
  ⟨fun s => ∀ word, Watched (watch channel word) word s, WakeRely channel⟩

/-- The states that `reachable_safe` speaks of, and no epoch comparison has
    been deceived by a wrap. -/
structure Unwrapped (channel : ByteChannel) (s : Memory) : Prop where
  sane : Sane s
  inv : Inv channel s
  unwrapped : s.wrapped = false

section

variable {channel : ByteChannel} {pid : Nat} {s s' : Memory} {own : Word → Pending × Retry}

theorem WakeRely.refl (channel : ByteChannel) (pid : Nat) (s : Memory) : WakeRely channel pid s s :=
  ⟨fun word => .refl _ word pid s, le_rfl, rfl, fun _ => .inl rfl, fun _ => .inl rfl⟩

theorem WakeRely.trans {s₁ s₂ s₃ : Memory} (h : WakeRely channel pid s₁ s₂) (h' : WakeRely channel pid s₂ s₃) :
    WakeRely channel pid s₁ s₃ where
  words word := (h.words word).trans (h'.words word)
  written := h.written.trans h'.written
  required := h'.required.trans h.required
  head hbumps := by
    have hle : s₁.readable.bumps ≤ s₂.readable.bumps := (h.words .readable).bumps
    have hle' : s₂.readable.bumps ≤ s₃.readable.bumps := (h'.words .readable).bumps
    rcases h'.head (by omega) with hsame | hcovered
    · rcases h.head (by omega) with hold | hcovered
      · exact .inl (hsame.trans hold)
      · exact .inr ((h'.words .readable).covered (show s₃.readable.bumps = s₂.readable.bumps by omega) hcovered)
    · exact .inr hcovered
  reclaimed hbumps := by
    have hle : s₁.writable.bumps ≤ s₂.writable.bumps := (h.words .writable).bumps
    have hle' : s₂.writable.bumps ≤ s₃.writable.bumps := (h'.words .writable).bumps
    rcases h'.reclaimed (by omega) with hsame | howed
    · rcases h.reclaimed (by omega) with hold | howed
      · exact .inl (hsame.trans hold)
      · exact .inr ((h'.words .writable).toEventRely.owed (show s₃.writable.bumps = s₂.writable.bumps by omega) howed)
    · exact .inr howed

theorem wake_protocol (channel : ByteChannel) :
    WakeProtocol (watch channel) (Unwrapped channel) (wake_reliance channel) where
  inv _ := Iff.rfl
  rely _ _ _ h := h.words
  refl := WakeRely.refl channel
  framed pid s s' hframe hwords := by
    refine ⟨hwords, ?_, ?_, fun _ => .inl ?_, fun _ => .inl ?_⟩
    · rw [hframe.ring]
    · rw [hframe.ring]
    · rw [hframe.ring]
    · rw [hframe.ring]
  senders s h := h.inv.senders
  unwrapped s h := h.unwrapped

/-- A step of a process that the waits do not notice. -/
structure Unseen (channel : ByteChannel) (pid : Nat) (s s' : Memory) : Prop where
  events : ∀ word, s'.event word = s.event word
  sender_state : s'.sender_state = s.sender_state
  claimed : s'.log.claimed = s.log.claimed
  head : s'.log.phase s.log.claimed = .published → s.log.phase s.log.claimed = .published
  claim_position : s'.ring.claim_position = s.ring.claim_position
  reclaim_position : s'.ring.reclaim_position = s.ring.reclaim_position
  written : s.ring.write_position ≤ s'.ring.write_position
  required : ∀ other, other ≠ pid → s'.ring.required other = s.ring.required other

theorem Unseen.of_data (f : ByteRing → ByteRing) (hclaim : (f s.ring).claim_position = s.ring.claim_position)
    (hreclaim : (f s.ring).reclaim_position = s.ring.reclaim_position)
    (hwrite : (f s.ring).write_position = s.ring.write_position)
    (hrequired : ∀ other, other ≠ pid → (f s.ring).required other = s.ring.required other) :
    Unseen channel pid s (set_ring f s) :=
  ⟨fun word => by cases word <;> rfl, rfl, rfl, id, hclaim, hreclaim, hwrite.ge, hrequired⟩

/-- Nothing new to wait for on the readable word. -/
theorem calmer_readable (hsender : s'.sender_state = s.sender_state) (hclaimed : s'.log.claimed = s.log.claimed)
    (hhead : s'.log.phase s.log.claimed = .published → s.log.phase s.log.claimed = .published)
    (hposition : s'.ring.claim_position = s.ring.claim_position) :
    Calmer (watch channel .readable) .readable pid s s' where
  item i hi := by
    obtain ⟨hi, hphase⟩ := hi
    rw [hclaimed] at hi
    subst hi
    exact ⟨rfl, hhead hphase⟩
  looks position h := h.trans hposition.symm
  room _ _ h := h
  shut := by
    rw [Endpoint.Shut, Endpoint.Shut, hsender]

theorem calmer_writable (hsender : s'.sender_state = s.sender_state)
    (hreclaim : s'.ring.reclaim_position = s.ring.reclaim_position)
    (hwritten : s.ring.write_position ≤ s'.ring.write_position)
    (hrequired : ∀ other, other ≠ pid → s'.ring.required other = s.ring.required other) :
    Calmer (watch channel .writable) .writable pid s s' where
  item _ hi := hi
  looks _ h := h
  room other hother h := by
    have h : s'.ring.required other ≤
        channel.capacity_bytes - (s'.ring.write_position - s'.ring.reclaim_position) := h
    rw [hreclaim, hrequired other hother] at h
    exact h.trans (by omega)
  shut := by
    rw [Endpoint.Shut, Endpoint.Shut, hsender]

/-- A step by what it does to the words and to the positions. -/
theorem wake_step (hwords : ∀ word, WatchStep (watch channel word) word pid s s')
    (hwritten : s.ring.write_position ≤ s'.ring.write_position)
    (hrequired : ∀ other, other ≠ pid → s'.ring.required other = s.ring.required other)
    (hhead : s'.ring.claim_position = s.ring.claim_position ∨ (watch channel .readable).Covered .readable s')
    (hreclaimed : s'.ring.reclaim_position = s.ring.reclaim_position ∨ s'.writable.Owed) :
    (wake_reliance channel).inv s' ∧ ∀ other, other ≠ pid → (wake_reliance channel).rely other s s' := by
  refine ⟨fun word => (hwords word).1, fun other hother => ?_⟩
  exact ⟨fun word => (hwords word).2 other hother, hwritten, hrequired other hother, fun _ => hhead,
    fun _ => hreclaimed⟩

theorem unseen_step (hinv : (wake_reliance channel).inv s) (hown : s.Own pid own)
    (hstep : Unseen channel pid s s') :
    (wake_reliance channel).inv s' ∧ (∀ other, other ≠ pid → (wake_reliance channel).rely other s s') ∧
      s'.Own pid own := by
  have hwords (word : Word) : WatchStep (watch channel word) word pid s s' := by
    refine (hinv word).stay (hown word).waiters ?_ (hstep.events word)
    cases word with
    | readable => exact calmer_readable hstep.sender_state hstep.claimed hstep.head hstep.claim_position
    | writable => exact calmer_writable hstep.sender_state hstep.reclaim_position hstep.written hstep.required
  obtain ⟨hinv', hothers⟩ := wake_step hwords hstep.written hstep.required (.inl hstep.claim_position)
    (.inl hstep.reclaim_position)
  refine ⟨hinv', hothers, fun word => ?_⟩
  rw [hstep.events word]
  exact hown word

/-- A program of steps that the waits do not notice. -/
theorem unseen_safe {α : Type} {P : α → Prop} {p : Prog Memory α} (hp : p.Always (Unseen channel pid) P)
    (hown : s.Own pid own) :
    SafeWithin (Unwrapped channel) (wake_reliance channel) pid (fun a s' => P a ∧ s'.Own pid own) p s := by
  apply SafeWithin.of_always hp ((wake_protocol channel).own_stable own) _ hown
  exact fun s s' hstep hinv hown => unseen_step hinv hown hstep

theorem Unseen.refl (channel : ByteChannel) (pid : Nat) (s : Memory) : Unseen channel pid s s :=
  ⟨fun _ => rfl, rfl, rfl, id, rfl, rfl, le_rfl, fun _ _ => rfl⟩

theorem unseen_store_word (index position field value : Nat) :
    (store_word channel index position field value).Always (Unseen channel pid) fun _ => True :=
  Prog.always_store fun _ => .of_data _ rfl rfl rfl fun _ _ => rfl

theorem unseen_load_word (index position field : Nat) :
    (load_word channel index position field).Always (Unseen channel pid) fun _ => True :=
  ⟨fun _ => .of_data _ rfl rfl rfl fun _ _ => rfl, fun _ => trivial⟩

theorem unseen_copy_to_record (index position size : Nat) (bytes : Bytes) (k : Nat) :
    (copy_to_record channel index position size bytes k).Always (Unseen channel pid) fun _ => True := by
  induction bytes generalizing k with
  | nil => trivial
  | cons byte rest ih =>
    unfold copy_to_record
    exact ⟨fun _ => .of_data _ rfl rfl rfl fun _ _ => rfl, fun _ => ih (k + 1)⟩

theorem unseen_copy_from_record (index position size count k : Nat) :
    (copy_from_record channel index position size count k).Always (Unseen channel pid) fun _ => True := by
  induction count generalizing k with
  | zero => trivial
  | succ count ih =>
    unfold copy_from_record
    refine ⟨fun _ => .of_data _ rfl rfl rfl fun _ _ => rfl, fun _ => ?_⟩
    exact (ih (k + 1)).bind fun _ _ => trivial

theorem unseen_spin_reclaim_lock (spin : Nat) :
    (spin_reclaim_lock spin).Always (Unseen channel pid) fun _ => True := by
  induction spin with
  | zero => trivial
  | succ spin ih =>
    apply (Prog.always_load (Unseen.refl channel pid) _).bind
    intro lock _
    split
    · trivial
    · exact ih

theorem unseen_wait_reclaim_lock (outcome : WaitOutcome) :
    (wait_reclaim_lock pid outcome).Always (Unseen channel pid) fun _ => True := by
  unfold wait_reclaim_lock
  split
  · trivial
  refine Prog.Always.bind (P := fun _ => True) ⟨fun s => ?_, fun _ => trivial⟩ fun asleep _ => ?_
  · apply Unseen.of_data
    · split <;> rfl
    · split <;> rfl
    · split <;> rfl
    · intro other _
      split <;> rfl
  · split
    · exact ⟨fun _ => .of_data _ rfl rfl rfl fun _ _ => rfl, fun _ => trivial⟩
    · trivial

theorem unseen_reclaim_lock_guard (turns : List LockTurn) :
    (reclaim_lock_guard pid turns).Always (Unseen channel pid) fun _ => True := by
  induction turns with
  | nil => trivial
  | cons turn turns ih =>
    unfold reclaim_lock_guard
    refine ⟨fun s => ?_, fun s => ?_⟩
    · beta_reduce
      split
      · exact .of_data _ rfl rfl rfl fun _ _ => rfl
      · exact .refl channel pid s
    · beta_reduce
      split
      · trivial
      · apply (unseen_spin_reclaim_lock 32).bind
        intro _ _
        apply (Prog.always_load (Unseen.refl channel pid) _).bind
        intro lock _
        split
        · exact (unseen_wait_reclaim_lock turn.outcome).bind fun _ _ => ih
        · exact ih

theorem unseen_leave_reclaim_lock (pick : Nat) :
    (leave_reclaim_lock pid pick).Always (Unseen channel pid) fun _ => True :=
  ⟨fun _ => .of_data _ rfl rfl rfl fun _ _ => rfl, fun _ => ⟨fun s => ⟨fun word => by cases word <;> rfl,
    rfl, rfl, id, rfl, rfl, le_rfl, fun _ _ => rfl⟩, fun _ => trivial⟩⟩

/-- What a process owes the receivers. -/
def owing (pending : Pending) : Word → Pending × Retry :=
  Function.update (fun _ => (.none, .none)) .readable (pending, .none)

/-- A step after which the process owes one receiver a wake-up for the head. -/
theorem owe_head_step (hinv : (wake_reliance channel).inv s) (hcalm : Calm pid s)
    (hsender : s'.sender_state = s.sender_state) (hreadable : s'.readable = s.readable.owe pid false)
    (hwritable : s'.writable = s.writable) (hwritten : s'.ring.write_position = s.ring.write_position)
    (hreclaim : s'.ring.reclaim_position = s.ring.reclaim_position)
    (hrequired : s'.ring.required = s.ring.required) :
    (wake_reliance channel).inv s' ∧ (∀ other, other ≠ pid → (wake_reliance channel).rely other s s') ∧
      s'.Own pid (owing (.before false)) := by
  have hself : s'.readable.pending pid = .before false := hreadable ▸ Event.owe_self pid false _
  have hcovered : (watch channel .readable).Covered .readable s' := by
    refine ⟨fun _ => pid, fun i hi j hj _ => ?_, fun i _ => ⟨false, hself⟩⟩
    exact hi.1.trans hj.1.symm
  have hwords (word : Word) : WatchStep (watch channel word) word pid s s' := by
    cases word with
    | readable =>
      refine (hinv .readable).owe_item (hcalm .readable) s'.log.claimed (fun i hi => .inl hi.1)
        (fun i hne hi => absurd hi.1 hne) (fun _ _ => id) ?_ hreadable
      rw [Endpoint.Shut, Endpoint.Shut, hsender]
    | writable =>
      exact (hinv .writable).stay (hcalm .writable).waiters
        (calmer_writable hsender hreclaim hwritten.ge fun other _ => by rw [hrequired]) hwritable
  obtain ⟨hinv', hothers⟩ := wake_step hwords hwritten.ge (fun other _ => by rw [hrequired]) (.inr hcovered)
    (.inl hreclaim)
  refine ⟨hinv', hothers, fun word => ?_⟩
  cases word with
  | readable =>
    have hwaiters : pid ∉ s'.readable.waiters := by
      rw [hreadable]
      exact (hcalm .readable).waiters
    have hretry : s'.readable.retry pid = .none := by
      rw [hreadable]
      exact (hcalm .readable).retry
    exact ⟨hwaiters, hself, hretry⟩
  | writable =>
    have hown := hcalm .writable
    rw [show s.event .writable = s'.event .writable from hwritable.symm] at hown
    exact hown

/-- The wake-up of one receiver. -/
theorem signal_one_safe (pick : Nat) {α : Type} {post : α → Memory → Prop} {rest : Prog Memory α}
    (hown : s.Own pid (owing (.before false)))
    (hrest : ∀ s', Calm pid s' → SafeWithin (Unwrapped channel) (wake_reliance channel) pid post rest s') :
    SafeWithin (Unwrapped channel) (wake_reliance channel) pid post
      (do bump pid .readable; wake_one pid .readable pick; rest) s := by
  have hR := wake_protocol channel
  apply (hR.bump_safe .readable hown).bind
  intro _ s₁ h₁
  apply (hR.wake_one_safe .readable pick h₁ rfl).bind
  intro _ s₂ h₂
  apply hrest
  intro word
  cases word with
  | readable => exact h₂ .readable
  | writable => exact h₂ .writable

theorem fill_record_wakes (index position : Nat) (message : Bytes) (pick : Nat) (hcalm : Calm pid s) :
    SafeWithin (Unwrapped channel) (wake_reliance channel) pid (fun _ s' => Calm pid s')
      (fill_record channel pid index position message pick) s := by
  unfold fill_record
  apply (unseen_safe (unseen_store_word index position 8 _) hcalm).bind
  intro _ s₁ h₁
  apply (unseen_safe (unseen_store_word index position 16 _) h₁.2).bind
  intro _ s₂ h₂
  apply (unseen_safe (unseen_store_word index position 24 0) h₂.2).bind
  intro _ s₃ h₃
  apply (unseen_safe (unseen_copy_to_record index position _ message 0) h₃.2).bind
  intro _ s₄ h₄
  apply SafeWithin.act ((wake_protocol channel).own_stable _) h₄.2
  intro s₅ h₅ hinv₅ _ _ _
  obtain ⟨hinv, hothers, hown⟩ := @owe_head_step channel pid s₅ (publish channel pid index position s₅) hinv₅ h₅
    rfl rfl rfl rfl rfl rfl
  refine ⟨hinv, hothers, ?_⟩
  have hsignal := @signal_one_safe channel pid (publish channel pid index position s₅) pick Unit
    (fun _ s' => Calm pid s') (.ret ()) hown fun _ h => h
  exact hsignal

theorem Unwrapped.reclaimed_le_written (h : Unwrapped channel s) :
    s.ring.reclaim_position ≤ s.ring.write_position := by
  rw [h.inv.placed.reclaim_position, h.inv.placed.write_position]
  exact offset_mono (h.inv.placed.reclaimed_le.trans h.inv.placed.claimed_le)

/-- What a sender knows in the loop of `try_enqueue`: the ring has not been
    reclaimed beyond its position, unless the wake-up for that is owed or done. -/
structure Reserving (pid required position seen : Nat) (s : Memory) : Prop where
  calm : Calm pid s
  required : s.ring.required pid = required
  written : position ≤ s.ring.write_position
  later : seen ≤ s.writable.bumps
  reclaimed : s.writable.bumps = seen → s.ring.reclaim_position ≤ position ∨ s.writable.Owed

theorem reserving_stable (channel : ByteChannel) (pid required position seen : Nat) :
    Stable (wake_reliance channel) pid (Reserving pid required position seen) := by
  intro s s' hrely hinv h
  have hbumps : s.writable.bumps ≤ s'.writable.bumps := (hrely.words .writable).bumps
  have hlater := h.later
  refine ⟨(wake_protocol channel).calm_stable s s' hrely hinv h.calm, hrely.required.trans h.required,
    h.written.trans hrely.written, by omega, fun heq => ?_⟩
  rcases hrely.reclaimed (by omega) with hsame | howed
  · rw [hsame]
    exact (h.reclaimed (by omega)).imp id
      ((hrely.words .writable).toEventRely.owed (show s'.writable.bumps = s.writable.bumps by omega))
  · exact .inr howed

/-- A sender that is refused has missed no room since it has loaded the epoch. -/
theorem Reserving.searched {required position seen : Nat} (h : Reserving pid required position seen s)
    (hQ : Unwrapped channel s)
    (hfull : sub64 position s.ring.reclaim_position > channel.capacity_bytes ∨
      required > channel.capacity_bytes - sub64 position s.ring.reclaim_position) :
    Searched (watch channel) .writable pid seen s := by
  refine ⟨h.later, fun _ => ⟨id, fun i hi => hi.elim, fun i hi => hi.elim⟩, fun hbumps hroom => ?_⟩
  have hroom : s.ring.required pid ≤
      channel.capacity_bytes - (s.ring.write_position - s.ring.reclaim_position) := hroom
  rw [h.required] at hroom
  rcases h.reclaimed hbumps with hle | howed
  · have hplaced := hQ.inv.placed
    have htotal := hplaced.total
    have hspace := hplaced.room
    have hwritten := h.written
    have hbounded := channel.bounded
    rw [← hplaced.write_position, ← hplaced.reclaim_position] at hspace
    rw [← hplaced.write_position] at htotal
    rw [sub64_of_le hle (by omega)] at hfull
    omega
  · exact howed

/-- The load of `reclaim_position`: a refusal has missed nothing. -/
theorem load_reclaimed_wakes {required position seen : Nat} {β : Type} {post : β → Memory → Prop}
    {f : Nat → Prog Memory β} (h : Reserving pid required position seen s)
    (hf : ∀ reclaimed s', Reserving pid required position seen s' →
      (sub64 position reclaimed > channel.capacity_bytes ∨
        required > channel.capacity_bytes - sub64 position reclaimed →
          Searched (watch channel) .writable pid seen s') →
      SafeWithin (Unwrapped channel) (wake_reliance channel) pid post (f reclaimed) s') :
    SafeWithin (Unwrapped channel) (wake_reliance channel) pid post
      (.modifyGet (fun s => s.ring.reclaim_position) (note_room channel pid position required) >>= f) s := by
  apply SafeWithin.modifyGet (reserving_stable channel pid required position seen) h
  intro s₁ h₁ hinv₁ hQ _
  have hunseen : Unseen channel pid s₁ (note_room channel pid position required s₁) :=
    .of_data _ rfl rfl rfl fun _ _ => rfl
  obtain ⟨hinv, hothers, _⟩ := unseen_step hinv₁ h₁.calm hunseen
  refine ⟨hinv, hothers, hf _ _ ⟨h₁.calm, h₁.required, h₁.written, h₁.later, h₁.reclaimed⟩ fun hfull => ?_⟩
  have hsearched := h₁.searched hQ hfull
  exact ⟨hsearched.later, hsearched.covered, hsearched.room⟩

/-- The reservation of a record takes room, and changes nothing at the head. -/
theorem unseen_reserve {position : Nat} {message : Bytes} (hQ : Unwrapped channel s)
    (hQ' : Unwrapped channel (reserve pid position message s)) :
    Unseen channel pid s (reserve pid position message s) where
  events word := by cases word <;> rfl
  sender_state := rfl
  claimed := rfl
  head hphase := by
    have hphase : Function.update s.log.phase s.log.count (.reserved pid) s.log.claimed = .published := hphase
    by_cases hlast : s.log.claimed = s.log.count
    · rw [hlast, Function.update_self] at hphase
      cases hphase
    · rwa [Function.update_of_ne hlast] at hphase
  claim_position := rfl
  reclaim_position := rfl
  written := by
    rw [hQ.inv.placed.write_position, hQ'.inv.placed.write_position]
    have hsame : offset (reserve pid position message s).log.message s.log.count =
        offset s.log.message s.log.count := by
      apply offset_congr
      intro i hi
      exact Function.update_of_ne (by omega) _ _
    rw [← hsame]
    exact offset_mono (Nat.le_succ _)
  required _ _ := rfl

theorem enqueue_loop_wakes {message : Bytes} {pick seen : Nat} :
    ∀ {attempts : List Bool} {position : Nat} {s : Memory},
      Reserving pid (record_size message.length) position seen s →
      SafeWithin (Unwrapped channel) (wake_reliance channel) pid
        (Ended.Post (fun enqueued s' => Calm pid s' ∧
          (enqueued = false → Searched (watch channel) .writable pid seen s')) fun _ s' => Calm pid s')
        (enqueue_loop channel pid message pick attempts position) s := by
  intro attempts
  induction attempts with
  | nil =>
    intro position s h
    unfold enqueue_loop
    apply load_reclaimed_wakes h
    intro reclaimed s₁ h₁ hfull
    simp only
    split
    next hroom => exact ⟨h₁.calm, fun _ => hfull hroom⟩
    next => trivial
  | cons spurious attempts ih =>
    intro position s h
    unfold enqueue_loop
    apply load_reclaimed_wakes h
    intro reclaimed s₁ h₁ hfull
    simp only
    split
    next hroom => exact ⟨h₁.calm, fun _ => hfull hroom⟩
    next hroom =>
    apply SafeWithin.act (reserving_stable channel pid _ position seen) h₁
    intro s₂ h₂ hinv₂ hQ _ hQ'
    by_cases hexchanged : (!spurious && s₂.ring.write_position == position) = true
    · simp only [hexchanged, if_true] at hQ' ⊢
      obtain ⟨hinv, hothers, hcalm⟩ := unseen_step hinv₂ h₂.calm (unseen_reserve hQ hQ')
      refine ⟨hinv, hothers, ?_⟩
      apply (fill_record_wakes _ position message pick hcalm).bind
      exact fun _ s₃ h₃ => ⟨h₃, fun hfalse => absurd hfalse Bool.noConfusion⟩
    · simp only [hexchanged]
      exact ⟨hinv₂, fun other _ => WakeRely.refl channel other s₂, ih ⟨h₂.calm, h₂.required, le_rfl, h₂.later,
        fun _ => .inl hQ.reclaimed_le_written⟩⟩

/-- A try to send that is refused has missed nothing since the epoch was loaded. -/
theorem try_enqueue_wakes (pid : Nat) (message : Bytes) :
    EnqueueWatches (watch channel) (Unwrapped channel) (wake_reliance channel) pid
      (try_enqueue channel pid message) := by
  intro chances seen s hwoken hseen
  have hR := wake_protocol channel
  unfold try_enqueue
  apply SafeWithin.modifyGet (hR.woken_stable.and (later_stable hR .writable seen)) ⟨hwoken, hseen⟩
  rintro s₁ ⟨⟨retry, hown⟩, hlater⟩ hinv₁ hQ _
  have hself := hown .writable
  rw [Function.update_self] at hself
  let s₂ := begin_enqueue pid (record_size message.length) s₁
  have hrequired (other : Nat) (hother : other ≠ pid) : s₂.ring.required other = s₁.ring.required other :=
    Function.update_of_ne hother _ _
  have hwords (word : Word) : WatchStep (watch channel word) word pid s₁ s₂ := by
    cases word with
    | readable => exact (hinv₁ .readable).stay (hown .readable).waiters (calmer_readable rfl rfl id rfl) rfl
    | writable =>
      exact (hinv₁ .writable).set_retry hself.waiters (calmer_writable rfl rfl le_rfl hrequired)
        (fun i hi => hi.elim) rfl
  obtain ⟨hinv, hothers⟩ := wake_step hwords le_rfl hrequired (.inl rfl) (.inl rfl)
  have hcalm : Calm pid s₂ := by
    intro word
    cases word with
    | readable => exact hown .readable
    | writable => exact ⟨hself.waiters, hself.pending, Function.update_self _ _ _⟩
  exact ⟨hinv, hothers, enqueue_loop_wakes ⟨hcalm, Function.update_self _ _ _, le_rfl, hlater,
    fun _ => .inl hQ.reclaimed_le_written⟩⟩

/-- What a process owes the senders while it reclaims records. -/
def reclaiming (reclaimed_any : Bool) : Word → Pending × Retry
  | .readable => (.none, .none)
  | .writable => (if reclaimed_any then .before true else .none, .none)

theorem reclaiming_false (h : s.Own pid (reclaiming false)) : Calm pid s := by
  intro word
  cases word with
  | readable => exact h .readable
  | writable => exact h .writable

/-- The exchange of `reclaim_position`: the senders are owed a wake-up. -/
theorem after_reclaim_wakes {position total_size : Nat} {reclaimed_any : Bool}
    (hinv : (wake_reliance channel).inv s) (hown : s.Own pid (reclaiming reclaimed_any)) :
    (wake_reliance channel).inv (reclaim pid position total_size s) ∧
      (∀ other, other ≠ pid → (wake_reliance channel).rely other s (reclaim pid position total_size s)) ∧
        (reclaim pid position total_size s).Own pid (reclaiming true) := by
  have hwritable := hown .writable
  have hwords (word : Word) : WatchStep (watch channel word) word pid s (reclaim pid position total_size s) := by
    cases word with
    | readable => exact (hinv .readable).stay (hown .readable).waiters (calmer_readable rfl rfl id rfl) rfl
    | writable =>
      refine (hinv .writable).owe_all hwritable.waiters (fun all hall => ?_) (fun _ => id) (fun _ => id) id rfl
      rw [hwritable.pending, reclaiming] at hall
      cases reclaimed_any with
      | true => exact (Pending.before.inj hall).symm
      | false => cases hall
  obtain ⟨hinv', hothers⟩ := wake_step hwords le_rfl (fun _ _ => rfl) (.inl rfl)
    (.inr ⟨pid, Event.owe_self pid true s.writable⟩)
  refine ⟨hinv', hothers, fun word => ?_⟩
  cases word with
  | readable => exact hown .readable
  | writable => exact ⟨hwritable.waiters, Event.owe_self pid true s.writable, hwritable.retry⟩

theorem unseen_end_scan (ended : Memory → Bool) (s : Memory) : Unseen channel pid s (end_scan pid ended s) := by
  rw [end_scan]
  split
  · exact .of_data _ rfl rfl rfl fun _ _ => rfl
  · exact .refl channel pid s

/-- What a scan ends with: the wake-up for what it has reclaimed is owed. -/
def ReclaimEnd (pid : Nat) (result : Option Bool) (s : Memory) : Prop :=
  ∀ reclaimed_any, result = some reclaimed_any → s.Own pid (reclaiming reclaimed_any)

/-- A round of the loop of `reclaim_consumed`; `hrest` is about the next ones. -/
theorem reclaim_round_wakes {scans : List Bool} {position : Nat} {reclaimed_any : Bool}
    (hrest : ∀ spurious rest, scans = spurious :: rest → ∀ position reclaimed_any s,
      s.Own pid (reclaiming reclaimed_any) →
        SafeWithin (Unwrapped channel) (wake_reliance channel) pid (ReclaimEnd pid)
          (reclaim_loop channel pid rest position reclaimed_any) s)
    (hown : s.Own pid (reclaiming reclaimed_any)) :
    SafeWithin (Unwrapped channel) (wake_reliance channel) pid (ReclaimEnd pid)
      (reclaim_loop channel pid scans position reclaimed_any) s := by
  have hstable : Stable (wake_reliance channel) pid (Endpoint.Own pid (reclaiming reclaimed_any)) :=
    (wake_protocol channel).own_stable (reclaiming reclaimed_any)
  have hdone (s' : Memory) (h' : s'.Own pid (reclaiming reclaimed_any)) :
      ReclaimEnd pid (some reclaimed_any) s' := by
    intro any hany
    cases hany
    exact h'
  unfold reclaim_loop
  apply SafeWithin.modifyGet hstable hown
  intro s₁ h₁ hinv₁ _ _
  obtain ⟨hinv, hothers, h₂⟩ := unseen_step hinv₁ h₁ (unseen_end_scan _ s₁)
  refine ⟨hinv, hothers, ?_⟩
  split
  · exact hdone _ h₂
  apply SafeWithin.modifyGet hstable h₂
  intro s₃ h₃ hinv₃ _ _
  obtain ⟨hinv, hothers, h₄⟩ := unseen_step hinv₃ h₃ (unseen_end_scan _ s₃)
  refine ⟨hinv, hothers, ?_⟩
  split
  · exact hdone _ h₄
  apply (wake_protocol channel).load hstable h₄
  intro s₅ h₅ _
  split
  · exact hdone _ h₅
  cases scans with
  | nil =>
    intro any hany
    cases hany
  | cons spurious rest =>
    apply SafeWithin.act hstable h₅
    intro s₆ h₆ hinv₆ _ _ _
    by_cases hexchanged : (!spurious && s₆.ring.reclaim_position == position) = true
    · simp only [hexchanged, if_true]
      obtain ⟨hinv, hothers, h₇⟩ := @after_reclaim_wakes channel pid s₆ position _ _ hinv₆ h₆
      exact ⟨hinv, hothers, hrest spurious rest rfl _ _ _ h₇⟩
    · simp only [hexchanged]
      exact ⟨hinv₆, fun other _ => WakeRely.refl channel other s₆, hrest spurious rest rfl _ _ _ h₆⟩

theorem reclaim_loop_wakes {scans : List Bool} {position : Nat} {reclaimed_any : Bool}
    (hown : s.Own pid (reclaiming reclaimed_any)) :
    SafeWithin (Unwrapped channel) (wake_reliance channel) pid (ReclaimEnd pid)
      (reclaim_loop channel pid scans position reclaimed_any) s := by
  induction scans generalizing position reclaimed_any s with
  | nil => exact reclaim_round_wakes (fun _ _ hcons => by cases hcons) hown
  | cons spurious rest ih =>
    refine reclaim_round_wakes (fun _ _ hcons position any s' h' => ?_) hown
    cases hcons
    exact ih h'

theorem signal_reclaimed_wakes (reclaimed_any : Bool) (hown : s.Own pid (reclaiming reclaimed_any)) :
    SafeWithin (Unwrapped channel) (wake_reliance channel) pid (fun _ s' => Calm pid s')
      (signal_reclaimed pid reclaimed_any) s := by
  have hR := wake_protocol channel
  cases reclaimed_any with
  | false => exact reclaiming_false hown
  | true =>
    rw [signal_reclaimed, if_pos rfl]
    apply (hR.bump_safe .writable hown).bind
    intro _ s₁ h₁
    apply (hR.wake_all_safe .writable h₁ fun all => Pending.noConfusion).mono
    intro _ s₂ h₂ word
    cases word with
    | readable => exact h₂ .readable
    | writable => exact h₂ .writable

theorem reclaim_consumed_wakes (chances : DequeueChances) (hcalm : Calm pid s) :
    SafeWithin (Unwrapped channel) (wake_reliance channel) pid (fun finished s' => finished = true → Calm pid s')
      (reclaim_consumed channel pid chances) s := by
  have hR := wake_protocol channel
  unfold reclaim_consumed
  apply (unseen_safe (unseen_reclaim_lock_guard chances.lock) hcalm).bind
  intro locked s₁ h₁
  split
  · exact fun hfalse => absurd hfalse Bool.noConfusion
  apply hR.load hR.calm_stable h₁.2
  intro s₂ h₂ _
  have hnothing : s₂.Own pid (reclaiming false) := by
    intro word
    cases word with
    | readable => exact h₂ .readable
    | writable => exact h₂ .writable
  apply (reclaim_loop_wakes hnothing).bind
  intro result s₃ h₃
  cases result with
  | none => exact fun hfalse => absurd hfalse Bool.noConfusion
  | some reclaimed_any =>
    apply (signal_reclaimed_wakes reclaimed_any (h₃ _ rfl)).bind
    intro _ s₄ h₄
    apply (unseen_safe (unseen_leave_reclaim_lock chances.unlock_pick) h₄).bind
    exact fun _ s₅ h₅ _ => h₅.2

/-- The store of `consumed_token` adds nothing at the head. -/
theorem unseen_consume (index position : Nat) (value : Option Bytes) (s : Memory) :
    Unseen channel pid s (consume channel pid index position value s) where
  events word := by cases word <;> rfl
  sender_state := rfl
  claimed := rfl
  head hphase := by
    have hphase : Function.update s.log.phase index .consumed s.log.claimed = .published := hphase
    by_cases hindex : s.log.claimed = index
    · rw [hindex, Function.update_self] at hphase
      cases hphase
    · rwa [Function.update_of_ne hindex] at hphase
  claim_position := rfl
  reclaim_position := rfl
  written := le_rfl
  required _ _ := rfl

/-- A try to receive has ended, and the process waits for nothing. -/
def Received (channel : ByteChannel) (pid seen : Nat) : Ended (Option Bytes) → Memory → Prop :=
  Ended.Post (fun value s => Calm pid s ∧ (value = none → Searched (watch channel) .readable pid seen s))
    fun _ s => Calm pid s

theorem finish_record_wakes {seen index position : Nat} {value : Option Bytes} (chances : DequeueChances)
    {ended : Ended (Option Bytes)} (hended : ended ≠ .returned none) (hcalm : Calm pid s) :
    SafeWithin (Unwrapped channel) (wake_reliance channel) pid (Received channel pid seen)
      (finish_record channel pid index position value chances ended) s := by
  have hR := wake_protocol channel
  unfold finish_record
  apply SafeWithin.act hR.calm_stable hcalm
  intro s₁ h₁ hinv₁ _ _ _
  obtain ⟨hinv, hothers, h₂⟩ := unseen_step hinv₁ h₁ (unseen_consume index position value s₁)
  refine ⟨hinv, hothers, ?_⟩
  apply (reclaim_consumed_wakes chances h₂).bind
  intro finished s₃ h₃
  cases finished with
  | false => trivial
  | true =>
    have hcalm := h₃ rfl
    cases ended with
    | returned result => exact ⟨hcalm, fun hnone => absurd (congrArg Ended.returned hnone) hended⟩
    | thrown error => exact hcalm
    | unfinished => trivial

/-- A receiver that has claimed a record hands the wake-up on. -/
theorem take_record_wakes {seen index position : Nat} (chances : DequeueChances) (hcalm : Calm pid s) :
    SafeWithin (Unwrapped channel) (wake_reliance channel) pid (Received channel pid seen)
      (take_record channel pid index position chances) s := by
  have hR := wake_protocol channel
  have hthrown (error : Exception) : (Ended.thrown error : Ended (Option Bytes)) ≠ .returned none := by
    rintro ⟨⟩
  unfold take_record
  apply (unseen_safe (unseen_load_word index position 8) hcalm).bind
  intro total_size s₁ h₁
  apply (unseen_safe (unseen_load_word index position 16) h₁.2).bind
  intro payload_size s₂ h₂
  split
  · exact finish_record_wakes chances (hthrown _) h₂.2
  apply SafeWithin.act hR.calm_stable h₂.2
  intro s₃ h₃ hinv₃ _ _ _
  by_cases hexchanged : (s₃.ring.claim_position == position) = true
  · simp only [hexchanged, if_true]
    obtain ⟨hinv, hothers, hown⟩ := @owe_head_step channel pid s₃ (advance pid position total_size s₃) hinv₃ h₃
      rfl rfl rfl rfl rfl rfl
    refine ⟨hinv, hothers, signal_one_safe chances.pick hown fun s₄ h₄ => ?_⟩
    split
    · exact finish_record_wakes chances (hthrown _) h₄
    apply (unseen_safe (unseen_copy_from_record index position payload_size payload_size 0) h₄).bind
    intro value s₅ h₅
    apply finish_record_wakes chances _ h₅.2
    rintro ⟨⟩
  · simp only [hexchanged]
    exact ⟨hinv₃, fun other _ => WakeRely.refl channel other s₃, finish_record_wakes chances (hthrown _) h₃⟩

/-- A published head can be claimed: the ring is not empty, and its state word
    is the publish token. -/
theorem Unwrapped.head (h : Unwrapped channel s) (hphase : s.log.phase s.log.claimed = .published) :
    s.ring.claim_position ≠ s.ring.write_position ∧
      load64 s.ring.data (s.ring.claim_position % channel.capacity_bytes) =
        published_token s.ring.claim_position := by
  have hinv := h.inv
  have hplaced := hinv.placed
  have hlt : s.log.claimed < s.log.count := by
    by_contra hge
    rw [hinv.phased.vacant _ (by omega)] at hphase
    cases hphase
  have hsmall := hplaced.offset_le hlt channel.bounded
  have htoken := (hinv.stored _ hplaced.reclaimed_le hlt).token 1 (by rw [hphase]; rfl)
  rw [← hplaced.claim_position] at htoken hsmall
  refine ⟨?_, ?_⟩
  · have hless := hinv.offset_lt hlt le_rfl
    rw [hplaced.claim_position, hplaced.write_position]
    omega
  · rw [htoken, published_token_eq (by omega)]

/-- A receiver that has loaded `claim_position`: if the head has changed since
    then, the wake-up for the new one is owed or done. -/
structure Looking (channel : ByteChannel) (pid position seen : Nat) (s : Memory) : Prop where
  own : ∃ retry, s.Own pid (Function.update (fun _ => (.none, .none)) .readable (.none, retry)) ∧
    (retry = .none ∨ retry = .looking position)
  later : seen ≤ s.readable.bumps
  head : s.readable.bumps = seen →
    s.ring.claim_position = position ∨ (watch channel .readable).Covered .readable s

theorem looking_stable (channel : ByteChannel) (pid position seen : Nat) :
    Stable (wake_reliance channel) pid (Looking channel pid position seen) := by
  intro s s' hrely hinv h
  obtain ⟨retry, hown, hretry⟩ := h.own
  have hbumps : s.readable.bumps ≤ s'.readable.bumps := (hrely.words .readable).bumps
  have hlater := h.later
  refine ⟨⟨retry, (wake_protocol channel).own_stable _ s s' hrely hinv hown, hretry⟩, by omega, fun heq => ?_⟩
  rcases hrely.head (by omega) with hsame | hcovered
  · rw [hsame]
    exact (h.head (by omega)).imp id
      ((hrely.words .readable).covered (show s'.readable.bumps = s.readable.bumps by omega))
  · exact .inr hcovered

/-- A receiver gives up, having found no published record at the head it has
    loaded. -/
theorem Looking.give_up {position seen : Nat} (h : Looking channel pid position seen s)
    (hinv : (wake_reliance channel).inv s)
    (hnone : s.ring.claim_position = position → s.log.phase s.log.claimed ≠ .published) (hasty : Nat → Bool) :
    let s' := { s.end_try pid with readable := s.readable.set_retry pid .none, hasty := hasty }
    (wake_reliance channel).inv s' ∧ (∀ other, other ≠ pid → (wake_reliance channel).rely other s s') ∧
      Received channel pid seen (.returned none) s' := by
  obtain ⟨retry, hown, hretry⟩ := h.own
  have hself := hown .readable
  rw [Function.update_self] at hself
  let s' := { s.end_try pid with readable := s.readable.set_retry pid .none, hasty := hasty }
  have hempty (hposition : s.ring.claim_position = position) (i : Nat) :
      ¬ (watch channel .readable).Item s i := by
    rintro ⟨rfl, hphase⟩
    exact hnone hposition hphase
  have hwords (word : Word) : WatchStep (watch channel word) word pid s s' := by
    cases word with
    | readable =>
      refine (hinv .readable).set_retry hself.waiters (calmer_readable rfl rfl id rfl) (fun i hi _ htrying => ?_) rfl
      rw [hself.retry] at htrying
      rcases hretry with rfl | rfl
      · exact htrying
      · exact hempty htrying.symm i hi
    | writable => exact (hinv .writable).stay (hown .writable).waiters (calmer_writable rfl rfl le_rfl fun _ _ => rfl) rfl
  obtain ⟨hinv', hothers⟩ := wake_step hwords le_rfl (fun _ _ => rfl) (.inl rfl) (.inl rfl)
  have hcalm : Calm pid s' := by
    intro word
    cases word with
    | readable => exact ⟨hself.waiters, hself.pending, Function.update_self _ _ _⟩
    | writable => exact hown .writable
  refine ⟨hinv', hothers, hcalm, fun _ => ⟨h.later, fun hbumps => ?_, fun _ hroom => hroom.elim⟩⟩
  rcases h.head hbumps with hposition | ⟨f, hinj, hf⟩
  · exact ⟨id, fun i hi => absurd hi (hempty hposition i), fun i hi => absurd hi (hempty hposition i)⟩
  · exact ⟨f, hinj, hf⟩

/-- The load of `claim_position`. -/
theorem begin_dequeue_wakes {seen : Nat} (hwoken : Woken .readable pid s) (hseen : seen ≤ s.readable.bumps)
    (hinv : (wake_reliance channel).inv s) (last : Nat → Option Nat) :
    let s' := { s.begin_try pid with
      ring := { s.ring with last := last }
      readable := if s.readable.retry pid = .none then s.readable
        else s.readable.set_retry pid (.looking s.ring.claim_position) }
    (wake_reliance channel).inv s' ∧ (∀ other, other ≠ pid → (wake_reliance channel).rely other s s') ∧
      Looking channel pid s.ring.claim_position seen s' := by
  obtain ⟨retry, hown⟩ := hwoken
  have hself := hown .readable
  rw [Function.update_self] at hself
  by_cases hnone : s.readable.retry pid = .none
  · simp only [hnone, if_true]
    let s' := { s.begin_try pid with ring := { s.ring with last := last } }
    have hstep : Unseen channel pid s s' :=
      ⟨fun word => by cases word <;> rfl, rfl, rfl, id, rfl, rfl, le_rfl, fun _ _ => rfl⟩
    obtain ⟨hinv', hothers, hown'⟩ := unseen_step hinv hown hstep
    exact ⟨hinv', hothers, ⟨retry, hown', .inl (hself.retry.symm.trans hnone)⟩, hseen, fun _ => .inl rfl⟩
  · simp only [hnone, if_false]
    let s' := { s.begin_try pid with
      ring := { s.ring with last := last }
      readable := s.readable.set_retry pid (.looking s.ring.claim_position) }
    have hwords (word : Word) : WatchStep (watch channel word) word pid s s' := by
      cases word with
      | readable =>
        refine (hinv .readable).set_retry hself.waiters (calmer_readable rfl rfl id rfl) (fun _ _ _ _ => ?_) rfl
        exact rfl
      | writable =>
        exact (hinv .writable).stay (hown .writable).waiters (calmer_writable rfl rfl le_rfl fun _ _ => rfl) rfl
    obtain ⟨hinv', hothers⟩ := wake_step hwords le_rfl (fun _ _ => rfl) (.inl rfl) (.inl rfl)
    refine ⟨hinv', hothers, ⟨.looking s.ring.claim_position, fun word => ?_, .inr rfl⟩, hseen, fun _ => .inl rfl⟩
    cases word with
    | readable => exact ⟨hself.waiters, hself.pending, Function.update_self _ _ _⟩
    | writable => exact hown .writable

/-- The claim of the head: there is nothing to wait for until the claim is
    handed over. -/
theorem Looking.take {position seen : Nat} (h : Looking channel pid position seen s)
    (hinv : (wake_reliance channel).inv s) :
    (wake_reliance channel).inv (claim channel pid position s) ∧
      (∀ other, other ≠ pid → (wake_reliance channel).rely other s (claim channel pid position s)) ∧
        Calm pid (claim channel pid position s) := by
  obtain ⟨retry, hown, _⟩ := h.own
  have hself := hown .readable
  rw [Function.update_self] at hself
  have hclaimed : (claim channel pid position s).log.phase s.log.claimed ≠ .published := by
    have hphase : (claim channel pid position s).log.phase s.log.claimed = .claimed pid :=
      Function.update_self _ _ _
    rw [hphase]
    exact Phase.noConfusion
  have hwords (word : Word) : WatchStep (watch channel word) word pid s (claim channel pid position s) := by
    cases word with
    | readable =>
      refine (hinv .readable).set_retry hself.waiters
        (calmer_readable rfl rfl (fun hphase => absurd hphase hclaimed) rfl) (fun i hi => ?_) rfl
      obtain ⟨rfl, hphase⟩ := hi
      exact absurd hphase hclaimed
    | writable =>
      exact (hinv .writable).stay (hown .writable).waiters (calmer_writable rfl rfl le_rfl fun _ _ => rfl) rfl
  obtain ⟨hinv', hothers⟩ := wake_step hwords le_rfl (fun _ _ => rfl) (.inl rfl) (.inl rfl)
  refine ⟨hinv', hothers, fun word => ?_⟩
  cases word with
  | readable => exact ⟨hself.waiters, hself.pending, Function.update_self _ _ _⟩
  | writable => exact hown .writable

/-- A try to receive that finds nothing has missed nothing since the epoch was
    loaded. -/
theorem try_dequeue_wakes (pid : Nat) :
    DequeueWatches (watch channel) (Unwrapped channel) (wake_reliance channel) pid
      (try_dequeue channel pid) := by
  intro chances seen s hwoken hseen
  have hR := wake_protocol channel
  unfold try_dequeue
  apply SafeWithin.modifyGet (hR.woken_stable.and (later_stable hR .readable seen)) ⟨hwoken, hseen⟩
  rintro s₁ ⟨hwoken₁, hlater⟩ hinv₁ _ _
  obtain ⟨hinv, hothers, hlooking⟩ := begin_dequeue_wakes hwoken₁ hlater hinv₁
    (Function.update s₁.ring.last pid none)
  refine ⟨hinv, hothers, ?_⟩
  generalize s₁.ring.claim_position = position at hlooking ⊢
  have hstable := looking_stable channel pid position seen
  apply SafeWithin.modifyGet hstable hlooking
  intro s₂ h₂ hinv₂ hQ₂ _
  by_cases hwritten : s₂.ring.write_position = position
  · simp only [hwritten, if_true]
    exact h₂.give_up hinv₂ (fun hposition hphase => (hQ₂.head hphase).1 (hposition.trans hwritten.symm)) s₂.hasty
  simp only [hwritten, Ne.symm hwritten, if_false]
  refine ⟨hinv₂, fun other _ => WakeRely.refl channel other s₂, ?_⟩
  apply SafeWithin.act hstable h₂
  intro s₃ h₃ hinv₃ hQ₃ _ _
  by_cases htoken : (load64 s₃.ring.data (position % channel.capacity_bytes) == published_token position) = true
  · simp only [htoken, if_true]
    obtain ⟨hinv, hothers, hcalm⟩ := h₃.take hinv₃
    exact ⟨hinv, hothers, take_record_wakes chances hcalm⟩
  · simp only [htoken]
    refine h₃.give_up hinv₃ (fun hposition hphase => htoken ?_) (s₃.give_up pid).hasty
    rw [beq_iff_eq, ← hposition]
    exact (hQ₃.head hphase).2

end

end shmchan.byte_channel
