import Shmchan.Endpoint.Protocol
import Shmchan.Endpoint.Wakes

open process

namespace shmchan.endpoint

section

variable {Ring Message Chances α β : Type}

/-- What a process holds on both epoch words. -/
def Endpoint.Own (pid : Nat) (own : Word → Pending × Retry) (s : Endpoint Ring Message) : Prop :=
  ∀ word, (s.event word).Own pid (own word).1 (own word).2

/-- A process that waits for nothing, owes no wake-up, and has tried since it
    was woken. -/
def Calm (pid : Nat) (s : Endpoint Ring Message) : Prop := s.Own pid fun _ => (.none, .none)

/-- A process that may have been woken, and has not tried since. -/
def Woken (word : Word) (pid : Nat) (s : Endpoint Ring Message) : Prop :=
  ∃ retry, s.Own pid (Function.update (fun _ => (.none, .none)) word (.none, retry))

/-- A process that may be queued on the word. -/
def Asleep (word : Word) (pid : Nat) (s : Endpoint Ring Message) : Prop :=
  (s.event word).pending pid = .none ∧ ∀ other, other ≠ word → (s.event other).Own pid .none .none

/-- A process has looked for items and for room of its own, and has missed
    none since it has loaded the epoch. -/
structure Searched (W : Word → Watch Ring Message) (word : Word) (pid seen : Nat)
    (s : Endpoint Ring Message) : Prop where
  later : seen ≤ (s.event word).bumps
  covered : (s.event word).bumps = seen → (W word).Covered word s
  room : (s.event word).bumps = seen → (W word).room pid s.ring s.log → (s.event word).Owed

/-- It has not missed the closing of the channel either. -/
structure Alert (W : Word → Watch Ring Message) (word : Word) (pid seen : Nat)
    (s : Endpoint Ring Message) : Prop extends Searched W word pid seen s where
  shut : (s.event word).bumps = seen → s.Shut word → (s.event word).Owed

/-- What the waits of the calls need from a reliance. -/
structure WakeProtocol (W : Word → Watch Ring Message) (Q : Endpoint Ring Message → Prop)
    (R : Reliance (Endpoint Ring Message) Nat) : Prop where
  inv : ∀ s, R.inv s ↔ ∀ word, Watched (W word) word s
  rely : ∀ pid s s', R.rely pid s s' → ∀ word, WatchRely (W word) word pid s s'
  refl : ∀ pid s, R.rely pid s s
  framed : ∀ pid s s', Framed s s' → (∀ word, WatchRely (W word) word pid s s') → R.rely pid s s'
  senders : ∀ s, Q s → Senders s.sender_state s.closings s.guards s.log.phase
  unwrapped : ∀ s, Q s → s.wrapped = false

variable {W : Word → Watch Ring Message} {Q : Endpoint Ring Message → Prop}
  {R : Reliance (Endpoint Ring Message) Nat} {word : Word} {pid : Nat} {s s' : Endpoint Ring Message}
  {own : Word → Pending × Retry}

theorem Endpoint.set_event_event (s : Endpoint Ring Message) (word : Word) (f : Event → Event) :
    (s.set_event word f).event word = f (s.event word) := by
  cases word <;> rfl

theorem Endpoint.set_event_event_of_ne (s : Endpoint Ring Message) {word other : Word} (f : Event → Event)
    (hne : other ≠ word) : (s.set_event word f).event other = s.event other := by
  cases word <;> cases other <;> first | rfl | exact absurd rfl hne

/-- A step that keeps the waiters of both words and all that concerns them. -/
theorem WakeProtocol.step (hR : WakeProtocol W Q R) (hframe : Framed s s')
    (hstep : ∀ word, WatchStep (W word) word pid s s') :
    R.inv s' ∧ ∀ other, other ≠ pid → R.rely other s s' := by
  refine ⟨(hR.inv s').mpr fun word => (hstep word).1, fun other hother => ?_⟩
  exact hR.framed other s s' hframe fun word => (hstep word).2 other hother

/-- A step on one epoch word. -/
theorem WakeProtocol.event_step (hR : WakeProtocol W Q R) (hinv : R.inv s) (hown : s.Own pid own)
    {f : Event → Event} (hstep : WatchStep (W word) word pid s (s.set_event word f)) :
    R.inv (s.set_event word f) ∧ ∀ other, other ≠ pid → R.rely other s (s.set_event word f) := by
  have hframe : Framed s (s.set_event word f) := by
    cases word <;> exact ⟨rfl, rfl, rfl, rfl⟩
  refine hR.step hframe fun other => ?_
  by_cases hother : other = word
  · rw [hother]
    exact hstep
  · have hcalmer := Calmer.of_same (W other) other pid (s.set_event_ring word f) (s.set_event_log word f)
      (s.set_event_sender_state word f)
    exact ((hR.inv s).mp hinv other).stay (hown other).waiters hcalmer (s.set_event_event_of_ne f hother)

theorem own_set_event (hown : s.Own pid own) {f : Event → Event} {pending : Pending} {retry : Retry}
    (hword : (f (s.event word)).Own pid pending retry) :
    (s.set_event word f).Own pid (Function.update own word (pending, retry)) := by
  intro other
  by_cases hother : other = word
  · rw [hother, Function.update_self, s.set_event_event]
    exact hword
  · rw [Function.update_of_ne hother, s.set_event_event_of_ne f hother]
    exact hown other

theorem WakeProtocol.own_stable (hR : WakeProtocol W Q R) (own : Word → Pending × Retry) :
    Stable R pid (Endpoint.Own pid own) :=
  fun s s' hrely _ hown word => (hown word).rely (hR.rely pid s s' hrely word).toEventRely

theorem WakeProtocol.calm_stable (hR : WakeProtocol W Q R) : Stable R pid (Calm pid) := hR.own_stable _

theorem WakeProtocol.woken_stable (hR : WakeProtocol W Q R) : Stable R pid (Woken word pid) :=
  fun s s' hrely hinv ⟨retry, hown⟩ => ⟨retry, hR.own_stable _ s s' hrely hinv hown⟩

theorem WakeProtocol.asleep_stable (hR : WakeProtocol W Q R) : Stable R pid (Asleep word pid) := by
  intro s s' hrely _ h
  have hevents := hR.rely pid s s' hrely
  exact ⟨(hevents word).pending.trans h.1, fun other hother => (h.2 other hother).rely (hevents other).toEventRely⟩

theorem WakeProtocol.searched_stable (hR : WakeProtocol W Q R) (seen : Nat) :
    Stable R pid (Searched W word pid seen) := by
  intro s s' hrely _ h
  have hword := hR.rely pid s s' hrely word
  have hle := hword.bumps
  have hlater := h.later
  refine ⟨by omega, fun heq => ?_, fun heq hroom => ?_⟩
  · exact hword.covered (by omega) (h.covered (by omega))
  · rcases hword.room (by omega) hroom with hold | howed
    · exact hword.toEventRely.owed (by omega) (h.room (by omega) hold)
    · exact howed

theorem WakeProtocol.alert_stable (hR : WakeProtocol W Q R) (seen : Nat) :
    Stable R pid (Alert W word pid seen) := by
  intro s s' hrely hinv h
  refine ⟨hR.searched_stable seen s s' hrely hinv h.toSearched, fun heq hshut => ?_⟩
  have hword := hR.rely pid s s' hrely word
  have hle := hword.bumps
  have hlater := h.later
  rcases hword.shut (by omega) hshut with hold | howed
  · exact hword.toEventRely.owed (by omega) (h.shut (by omega) hold)
  · exact howed

theorem Calm.woken (h : Calm pid s) (word : Word) : Woken word pid s := by
  refine ⟨.none, fun other => ?_⟩
  by_cases hother : other = word
  · rw [hother, Function.update_self]
    exact h word
  · rw [Function.update_of_ne hother]
    exact h other

theorem Woken.out (h : Woken word pid s) (other : Word) : pid ∉ (s.event other).waiters := by
  obtain ⟨retry, hown⟩ := h
  exact (hown other).waiters


/-- One step on an epoch word by its owner. -/
theorem WakeProtocol.set_event_safe (hR : WakeProtocol W Q R) (hown : s.Own pid own) {f : Event → Event}
    {pending : Pending} {retry : Retry}
    (hstep : ∀ s', s'.Own pid own → Watched (W word) word s' →
      WatchStep (W word) word pid s' (s'.set_event word f))
    (hword : ∀ e : Event, e.Own pid (own word).1 (own word).2 → (f e).Own pid pending retry) :
    SafeWithin Q R pid (fun _ s' => s'.Own pid (Function.update own word (pending, retry)))
      (.store (Endpoint.set_event word f)) s := by
  apply SafeWithin.act (hR.own_stable own) hown
  intro s' hown' hinv _ _ _
  obtain ⟨hinv', hothers⟩ := hR.event_step hinv hown' (hstep s' hown' ((hR.inv s').mp hinv word))
  exact ⟨hinv', hothers, own_set_event hown' (hword _ (hown' word))⟩

theorem calmer_set_event (W : Watch Ring Message) (word : Word) (pid : Nat) (s : Endpoint Ring Message)
    (f : Event → Event) : Calmer W word pid s (s.set_event word f) :=
  .of_same W word pid (s.set_event_ring word f) (s.set_event_log word f) (s.set_event_sender_state word f)

theorem WakeProtocol.bump_safe (hR : WakeProtocol W Q R) (word : Word) (hown : s.Own pid own) :
    SafeWithin Q R pid
      (fun _ s' => s'.Own pid (Function.update own word ((own word).1.bumped, (own word).2))) (bump pid word) s := by
  apply hR.set_event_safe hown
  · intro s' hown' hwatched
    exact hwatched.bump (hown' word).waiters (calmer_set_event _ word pid s' _) (s'.set_event_event word _)
  · intro e he
    refine ⟨he.waiters, ?_, he.retry⟩
    rw [← he.pending]
    exact Function.update_self _ _ _

theorem WakeProtocol.wake_all_safe (hR : WakeProtocol W Q R) (word : Word) (hown : s.Own pid own)
    (hbumped : ∀ all, (own word).1 ≠ .before all) :
    SafeWithin Q R pid (fun _ s' => s'.Own pid (Function.update own word (.none, (own word).2)))
      (wake_all pid word) s := by
  apply hR.set_event_safe hown
  · intro s' hown' _
    refine Watched.wake_all (fun all => ?_) (calmer_set_event _ word pid s' _) (s'.set_event_event word _)
    rw [(hown' word).pending]
    exact hbumped all
  · intro e he
    refine ⟨List.not_mem_nil, Function.update_self _ _ _, ?_⟩
    rw [Event.wake_all]
    exact (if_neg he.waiters).trans he.retry

theorem Event.Own.wake_one {e : Event} {pending : Pending} {retry : Retry} (h : e.Own pid pending retry)
    (pick : Nat) : (e.wake_one pid pick).Own pid .none retry := by
  rw [Event.wake_one]
  split
  next => exact ⟨h.waiters, Function.update_self _ _ _, h.retry⟩
  next woken hwoken =>
    have hne : pid ≠ woken := fun heq => h.waiters (heq ▸ List.mem_of_getElem? hwoken)
    exact ⟨fun hmem => h.waiters (List.mem_of_mem_erase hmem), Function.update_self _ _ _,
      (Function.update_of_ne hne _ _).trans h.retry⟩

theorem WakeProtocol.wake_one_safe (hR : WakeProtocol W Q R) (word : Word) (pick : Nat) (hown : s.Own pid own)
    (hbumped : (own word).1 = .after false) :
    SafeWithin Q R pid (fun _ s' => s'.Own pid (Function.update own word (.none, (own word).2)))
      (wake_one pid word pick) s := by
  apply hR.set_event_safe hown
  · intro s' hown' hwatched
    exact hwatched.wake_one (hown' word).waiters ((hown' word).pending.trans hbumped)
      (calmer_set_event _ word pid s' _) (s'.set_event_event word _)
  · exact fun e he => he.wake_one pick

/-- The wake-up of one that a process owes, and what follows it. -/
theorem WakeProtocol.signal_one_safe (hR : WakeProtocol W Q R) (word : Word) (pick : Nat)
    {post : α → Endpoint Ring Message → Prop} {rest : EndpointProg Ring Message α}
    (hown : s.Own pid (Function.update (fun _ => (.none, .none)) word (.before false, .none)))
    (hrest : ∀ s', Calm pid s' → SafeWithin Q R pid post rest s') :
    SafeWithin Q R pid post (do bump pid word; wake_one pid word pick; rest) s := by
  apply (hR.bump_safe word hown).bind
  intro _ s₁ h₁
  rw [Function.update_self, Function.update_idem] at h₁
  apply (hR.wake_one_safe word pick h₁ (by rw [Function.update_self]; rfl)).bind
  intro _ s₂ h₂
  rw [Function.update_self, Function.update_idem] at h₂
  apply hrest
  intro other
  have hother := h₂ other
  by_cases heq : other = word
  · rw [heq, Function.update_self] at hother
    rw [heq]
    exact hother
  · rwa [Function.update_of_ne heq] at hother

theorem WakeProtocol.load (hR : WakeProtocol W Q R) {A : Endpoint Ring Message → Prop}
    {post : β → Endpoint Ring Message → Prop} {f : Endpoint Ring Message → α}
    {k : α → EndpointProg Ring Message β} (hA : Stable R pid A) (h : A s)
    (hk : ∀ s', A s' → Q s' → SafeWithin Q R pid post (k (f s')) s') :
    SafeWithin Q R pid post (.load f >>= k) s :=
  SafeWithin.load hR.refl hA h fun s' h' _ hQ => hk s' h' hQ

/-- A step that leaves the ring and both words alone. -/
theorem WakeProtocol.quiet_step (hR : WakeProtocol W Q R) (hinv : R.inv s) (hown : s.Own pid own)
    (hframe : Framed s s') (hevents : ∀ word, s'.event word = s.event word)
    (hshut : ∀ word, s'.Shut word ↔ s.Shut word) :
    R.inv s' ∧ (∀ other, other ≠ pid → R.rely other s s') ∧ s'.Own pid own := by
  have hstep : R.inv s' ∧ ∀ other, other ≠ pid → R.rely other s s' := by
    refine hR.step hframe fun word => ?_
    refine ((hR.inv s).mp hinv word).stay (hown word).waiters ⟨fun i hi => ?_, fun position h => ?_,
      fun other _ h => ?_, hshut word⟩ (hevents word)
    · rwa [Watch.Item, hframe.ring, hframe.log] at hi
    · rwa [hframe.ring, hframe.log]
    · rwa [hframe.ring, hframe.log] at h
  refine ⟨hstep.1, hstep.2, fun word => ?_⟩
  rw [hevents word]
  exact hown word

theorem Senders.shut (h : Senders s.sender_state s.closings s.guards s.log.phase) (hshut : s.Shut word) :
    s.closings = 1 := by
  cases word with
  | readable => exact (h.done_iff.mp hshut).1
  | writable => exact h.closed_iff.mp hshut

/-- A sender registers on an open channel. -/
theorem WakeProtocol.after_register (hR : WakeProtocol W Q R) (hinv : R.inv s) (hcalm : Calm pid s)
    (hQ : Q s) (hQ' : Q (s.register pid)) (hopen : ¬ s.sender_state &&& channel_closed_bit ≠ 0) :
    R.inv (s.register pid) ∧ (∀ other, other ≠ pid → R.rely other s (s.register pid)) ∧
      Calm pid (s.register pid) := by
  have hframe : Framed s (s.register pid) := ⟨rfl, rfl, rfl, rfl⟩
  apply hR.quiet_step hinv hcalm hframe
  · intro word
    cases word <;> rfl
  · intro word
    have hclosings : s.closings ≠ 1 := fun hone => hopen ((hR.senders s hQ).closed_iff.mpr hone)
    exact iff_of_false (mt (hR.senders _ hQ').shut hclosings) (mt (hR.senders s hQ).shut hclosings)

theorem WakeProtocol.register_loop_safe (hR : WakeProtocol W Q R) :
    ∀ {chances : List Bool} {current : Nat} {s : Endpoint Ring Message}, Calm pid s →
      SafeWithin Q R pid (Ended.Post (fun _ s' => Calm pid s') fun _ s' => Calm pid s')
        (register_loop pid chances current) s := by
  intro chances
  induction chances with
  | nil =>
    intro current s hcalm
    unfold register_loop
    split
    · exact hcalm
    split
    · exact hcalm
    · trivial
  | cons spurious chances ih =>
    intro current s hcalm
    unfold register_loop
    split
    · exact hcalm
    next hopen =>
    split
    · exact hcalm
    simp only
    apply SafeWithin.act hR.calm_stable hcalm
    intro s₁ h₁ hinv₁ hQ _ hQ'
    by_cases hexchanged : (!spurious && s₁.sender_state == current) = true
    · simp only [hexchanged, if_true] at hQ' ⊢
      simp only [Bool.and_eq_true, beq_iff_eq] at hexchanged
      rw [← hexchanged.2] at hopen
      exact hR.after_register hinv₁ h₁ hQ hQ' hopen
    · simp only [hexchanged]
      exact ⟨hinv₁, fun other _ => hR.refl other s₁, ih h₁⟩

theorem WakeProtocol.active_sender_guard_safe (hR : WakeProtocol W Q R) (chances : List Bool)
    (hcalm : Calm pid s) :
    SafeWithin Q R pid (Ended.Post (fun _ s' => Calm pid s') fun _ s' => Calm pid s')
      (active_sender_guard pid chances) s := by
  unfold active_sender_guard
  apply hR.load hR.calm_stable hcalm
  exact fun s₁ h₁ _ => hR.register_loop_safe h₁

/-- A sender that is not the last one of a closed channel changes nothing for
    the receivers. -/
theorem not_last_shut (hsenders : Senders s.sender_state s.closings s.guards s.log.phase)
    (hsenders' : Senders (s.unregister pid).sender_state (s.unregister pid).closings (s.unregister pid).guards
      (s.unregister pid).log.phase) (hlast : s.sender_state ≠ channel_closed_bit ||| 1) :
    (s.unregister pid).Shut .readable ↔ s.Shut .readable := by
  have hword := hsenders.word
  have hbound := hsenders.bound
  have hclosings := hsenders.closings
  have hword' : (2 ^ 32 - 1 + s.sender_state) % 2 ^ 32 =
      s.closings * channel_closed_bit + (s.guards.erase pid).length := hsenders'.word
  have hguard : s.guards.length ≠ (s.guards.erase pid).length := by
    intro heq
    rw [← heq, ← hword] at hword'
    rw [channel_closed_bit] at hword hbound
    omega
  have hsome : s.guards ≠ [] := fun hnone => hguard (by rw [hnone]; rfl)
  apply iff_of_false
  · intro hshut
    have hshut : (2 ^ 32 - 1 + s.sender_state) % 2 ^ 32 = channel_closed_bit := hshut
    rw [channel_closed_bit] at hword hbound hlast hshut
    rw [show (0x80000000 ||| 1 : Nat) = 0x80000001 from rfl] at hlast
    omega
  · exact fun hshut => hsome (hsenders.done_iff.mp hshut).2

/-- The destructor of a registered `active_sender_guard`: the last sender of a
    closed channel wakes all receivers. -/
theorem WakeProtocol.leave_sender_safe (hR : WakeProtocol W Q R) (hcalm : Calm pid s) :
    SafeWithin Q R pid (fun _ s' => Calm pid s') (leave_sender pid) s := by
  unfold leave_sender
  apply SafeWithin.modifyGet hR.calm_stable hcalm
  intro s₁ h₁ hinv₁ hQ hQ'
  have hsenders := hR.senders s₁ hQ
  have hsenders' := hR.senders _ hQ'
  have hframe : Framed s₁ (s₁.unregister pid) := ⟨rfl, rfl, rfl, rfl⟩
  have hreadable := (hR.inv s₁).mp hinv₁ .readable
  have hwritable := (hR.inv s₁).mp hinv₁ .writable
  have hstay : WatchStep (W .writable) .writable pid s₁ (s₁.unregister pid) := by
    refine hwritable.stay (h₁ .writable).waiters ⟨fun _ => id, fun _ => id, fun _ _ => id, ?_⟩ rfl
    exact hsenders'.closed_iff.trans hsenders.closed_iff.symm
  by_cases hlast : s₁.sender_state = channel_closed_bit ||| 1
  · have howe : (s₁.unregister pid).event .readable = (s₁.event .readable).owe pid true := by
      simp only [Endpoint.event, Endpoint.unregister, hlast, if_true]
    have hstep : WatchStep (W .readable) .readable pid s₁ (s₁.unregister pid) := by
      refine hreadable.owe_all (h₁ .readable).waiters (fun all hall => ?_) (fun _ => id) (fun _ => id) ?_ howe
      · rw [(h₁ .readable).pending] at hall
        cases hall
      · exact fun hshut => absurd (hshut.symm.trans hlast) (by decide)
    obtain ⟨hinv, hothers⟩ := hR.step hframe fun word => by
      cases word with
      | readable => exact hstep
      | writable => exact hstay
    have howned : (s₁.unregister pid).Own pid
        (Function.update (fun _ => (.none, .none)) .readable (.before true, .none)) := by
      intro word
      cases word with
      | readable =>
        rw [howe]
        exact ⟨(h₁ .readable).waiters, Event.owe_self _ _ _, (h₁ .readable).retry⟩
      | writable => exact h₁ .writable
    refine ⟨hinv, hothers, ?_⟩
    rw [if_pos hlast]
    apply (hR.bump_safe .readable howned).bind
    intro _ s₂ h₂
    apply (hR.wake_all_safe .readable h₂ (fun all => Pending.noConfusion)).mono
    intro _ s₃ h₃ word
    cases word with
    | readable => exact h₃ .readable
    | writable => exact h₃ .writable
  · have hsame (word : Word) : (s₁.unregister pid).event word = s₁.event word := by
      cases word with
      | readable => simp only [Endpoint.event, Endpoint.unregister, hlast, if_false]
      | writable => rfl
    obtain ⟨hinv, hothers, h₂⟩ := hR.quiet_step hinv₁ h₁ hframe hsame fun word => by
      cases word with
      | readable => exact not_last_shut hsenders hsenders' hlast
      | writable => exact hsenders'.closed_iff.trans hsenders.closed_iff.symm
    refine ⟨hinv, hothers, ?_⟩
    rw [if_neg hlast]
    exact h₂

/-- A part of an operation has ended, and the process waits for nothing. -/
def EndedCalm (pid : Nat) (ended : Ended α) (s : Endpoint Ring Message) : Prop :=
  ended ≠ .unfinished → Calm pid s

/-- A send: its body runs as a registered sender. -/
theorem WakeProtocol.guarded_safe (hR : WakeProtocol W Q R) (chances : List Bool)
    {body : EndpointProg Ring Message (Ended ChannelStatus)}
    (hbody : ∀ s, Calm pid s → SafeWithin Q R pid (EndedCalm pid) body s) (hcalm : Calm pid s) :
    SafeWithin Q R pid (EndedCalm pid) (guarded pid chances body) s := by
  unfold guarded andThen
  apply (hR.active_sender_guard_safe chances hcalm).bind
  intro ended s₁ h₁
  cases ended with
  | returned registered =>
    cases registered with
    | false => exact fun _ => h₁
    | true =>
      simp only [if_true]
      apply (hbody s₁ h₁).bind
      intro ended s₂ h₂
      split
      · exact fun hne => absurd rfl hne
      next hended =>
        apply (hR.leave_sender_safe (h₂ hended)).bind
        exact fun _ s₃ h₃ _ => h₃
  | thrown error => exact fun _ => h₁
  | unfinished => exact fun hne => absurd rfl hne

theorem compare_and_sleep_event {epoch : Nat × Nat} (hequal : (s.event word).epoch = epoch.1) :
    (compare_and_sleep pid word epoch s).event word = (s.event word).sleep pid := by
  rw [compare_and_sleep, if_pos hequal]
  cases word <;> rfl

theorem compare_and_sleep_event_of_ne {epoch : Nat × Nat} {other : Word} (hne : other ≠ word) :
    (compare_and_sleep pid word epoch s).event other = s.event other := by
  rw [compare_and_sleep]
  split
  · cases word <;> cases other <;> first | rfl | exact absurd rfl hne
  · rfl

theorem compare_and_sleep_framed (pid : Nat) (word : Word) (epoch : Nat × Nat) (s : Endpoint Ring Message) :
    Framed s (compare_and_sleep pid word epoch s) ∧
      (compare_and_sleep pid word epoch s).sender_state = s.sender_state := by
  rw [compare_and_sleep]
  split
  · cases word <;> exact ⟨⟨rfl, rfl, rfl, rfl⟩, rfl⟩
  · exact ⟨⟨rfl, rfl, rfl, rfl⟩, rfl⟩

/-- The futex queues a process that has missed nothing. -/
theorem WakeProtocol.after_sleep (hR : WakeProtocol W Q R) (hinv : R.inv s) (hcalm : Calm pid s)
    {epoch : Nat × Nat} (halert : Alert W word pid epoch.2 s) (hequal : (s.event word).epoch = epoch.1)
    (hQ : Q (compare_and_sleep pid word epoch s)) :
    R.inv (compare_and_sleep pid word epoch s) ∧
      (∀ other, other ≠ pid → R.rely other s (compare_and_sleep pid word epoch s)) ∧
      Asleep word pid (compare_and_sleep pid word epoch s) := by
  obtain ⟨hframe, hsender⟩ := compare_and_sleep_framed pid word epoch s
  have hbumps : (s.event word).bumps = epoch.2 := by
    have hunwrapped := hR.unwrapped _ hQ
    rw [compare_and_sleep, if_pos hequal, Bool.or_eq_false_iff] at hunwrapped
    exact of_decide_eq_false hunwrapped.2 |> not_not.mp
  have hcalmer (other : Word) := Calmer.of_same (W other) other pid hframe.ring hframe.log hsender
  have hwatched := (hR.inv s).mp hinv
  have hstep : R.inv (compare_and_sleep pid word epoch s) ∧
      ∀ other, other ≠ pid → R.rely other s (compare_and_sleep pid word epoch s) := by
    refine hR.step hframe fun other => ?_
    by_cases hother : other = word
    · subst hother
      refine (hwatched other).sleep (hcalm other) (hcalmer other) (fun hroom => ?_) (halert.covered hbumps)
        (fun hcause => hcause.elim (halert.room hbumps) (halert.shut hbumps)) (compare_and_sleep_event hequal)
      rwa [hframe.ring, hframe.log] at hroom
    · exact (hwatched other).stay (hcalm other).waiters (hcalmer other) (compare_and_sleep_event_of_ne hother)
  refine ⟨hstep.1, hstep.2, ?_, fun other hother => ?_⟩
  · rw [compare_and_sleep_event hequal]
    exact (hcalm word).pending
  · rw [compare_and_sleep_event_of_ne hother]
    exact hcalm other

/-- The kernel ends the wait. -/
theorem WakeProtocol.after_leave (hR : WakeProtocol W Q R) (hinv : R.inv s) (hasleep : Asleep word pid s) :
    R.inv (s.set_event word (Event.leave pid)) ∧
      (∀ other, other ≠ pid → R.rely other s (s.set_event word (Event.leave pid))) ∧
      Woken word pid (s.set_event word (Event.leave pid)) := by
  have hwatched := (hR.inv s).mp hinv
  have hframe : Framed s (s.set_event word (Event.leave pid)) := by
    cases word <;> exact ⟨rfl, rfl, rfl, rfl⟩
  have hcalmer (other : Word) := Calmer.of_same (W other) other pid hframe.ring hframe.log
    (s.set_event_sender_state word (Event.leave pid))
  have hstep : R.inv (s.set_event word (Event.leave pid)) ∧
      ∀ other, other ≠ pid → R.rely other s (s.set_event word (Event.leave pid)) := by
    refine hR.step hframe fun other => ?_
    by_cases hother : other = word
    · subst hother
      exact (hwatched other).leave (hcalmer other) (s.set_event_event other _)
    · exact (hwatched other).stay (hasleep.2 other hother).waiters (hcalmer other)
        (s.set_event_event_of_ne _ hother)
  refine ⟨hstep.1, hstep.2, (s.event word).retry pid, fun other => ?_⟩
  by_cases hother : other = word
  · rw [hother, Function.update_self, s.set_event_event]
    exact ⟨(hwatched word).nodup.not_mem_erase, hasleep.1, rfl⟩
  · rw [Function.update_of_ne hother, s.set_event_event_of_ne _ hother]
    exact hasleep.2 other hother

/-- A wait of a process that has missed nothing. -/
theorem WakeProtocol.futex_wait_safe (hR : WakeProtocol W Q R) (epoch : Nat × Nat) (timed : Bool)
    (outcome : WaitOutcome) (hcalm : Calm pid s) (halert : Alert W word pid epoch.2 s) :
    SafeWithin Q R pid (Ended.Post (fun _ s' => Woken word pid s') fun _ s' => Calm pid s')
      (futex_wait pid word epoch timed outcome) s := by
  unfold futex_wait
  split
  · exact hcalm
  apply SafeWithin.modifyGet (hR.calm_stable.and (hR.alert_stable epoch.2)) ⟨hcalm, halert⟩
  rintro s₁ ⟨hcalm₁, halert₁⟩ hinv₁ _ hQ
  by_cases hequal : (s₁.event word).epoch = epoch.1
  · obtain ⟨hinv, hothers, hasleep⟩ := hR.after_sleep hinv₁ hcalm₁ halert₁ hequal hQ
    refine ⟨hinv, hothers, ?_⟩
    simp only [hequal, decide_true, if_true]
    apply SafeWithin.act hR.asleep_stable hasleep
    intro s₂ hasleep₂ hinv₂ _ _ _
    exact hR.after_leave hinv₂ hasleep₂
  · have hsame : compare_and_sleep pid word epoch s₁ = s₁ := if_neg hequal
    rw [hsame]
    refine ⟨hinv₁, fun other _ => hR.refl other s₁, ?_⟩
    simp only [hequal, decide_false]
    exact hcalm₁.woken word

theorem WakeProtocol.wait_safe (hR : WakeProtocol W Q R) (epoch : Nat × Nat) (timed : Bool) (wait : Wait)
    (hcalm : Calm pid s) (halert : Alert W word pid epoch.2 s) :
    SafeWithin Q R pid (Ended.Post (fun _ s' => Woken word pid s') fun _ s' => Calm pid s')
      (wait_for_change pid word epoch timed wait) s := by
  unfold wait_for_change futex_wait_until
  split
  · split
    · exact hcalm.woken word
    · exact hR.futex_wait_safe epoch true wait.outcome hcalm halert
  · exact andThen_safe (hR.futex_wait_safe epoch false wait.outcome hcalm halert) fun _ _ h => h

/-- A try to send, as the waits need it: a refused one has missed nothing since
    the epoch was loaded. -/
def EnqueueWatches (W : Word → Watch Ring Message) (Q : Endpoint Ring Message → Prop)
    (R : Reliance (Endpoint Ring Message) Nat) (pid : Nat)
    (try_enqueue : Chances → EndpointProg Ring Message (Ended Bool)) : Prop :=
  ∀ chances seen s, Woken .writable pid s → seen ≤ s.writable.bumps → SafeWithin Q R pid
    (Ended.Post (fun enqueued s' => Calm pid s' ∧ (enqueued = false → Searched W .writable pid seen s'))
      fun _ s' => Calm pid s')
    (try_enqueue chances) s

/-- A try to receive, as the waits need it. -/
def DequeueWatches (W : Word → Watch Ring Message) (Q : Endpoint Ring Message → Prop)
    (R : Reliance (Endpoint Ring Message) Nat) (pid : Nat)
    (try_dequeue : Chances → EndpointProg Ring Message (Ended (Option Message))) : Prop :=
  ∀ chances seen s, Woken .readable pid s → seen ≤ s.readable.bumps → SafeWithin Q R pid
    (Ended.Post (fun value s' => Calm pid s' ∧ (value = none → Searched W .readable pid seen s'))
      fun _ s' => Calm pid s')
    (try_dequeue chances) s

/-- A check for the closing of the channel that has not found it. -/
theorem Searched.alert {seen : Nat} (h : Searched W word pid seen s) (hopen : ¬ s.Shut word) :
    Alert W word pid seen s :=
  ⟨h, fun _ hshut => absurd hshut hopen⟩

section

variable {try_enqueue : Chances → EndpointProg Ring Message (Ended Bool)}

theorem EnqueueWatches.andThen (htry : EnqueueWatches W Q R pid try_enqueue) (chances : Chances) (seen : Nat)
    {f : Bool → EndpointProg Ring Message (Ended β)} (hwoken : Woken .writable pid s)
    (hseen : seen ≤ s.writable.bumps)
    (htrue : ∀ s', Calm pid s' → SafeWithin Q R pid (EndedCalm pid) (f true) s')
    (hfalse : ∀ s', Calm pid s' → Searched W .writable pid seen s' →
      SafeWithin Q R pid (EndedCalm pid) (f false) s') :
    SafeWithin Q R pid (EndedCalm pid) (andThen (try_enqueue chances) f) s := by
  apply (htry chances seen s hwoken hseen).bind
  intro ended s₁ h₁
  cases ended with
  | returned enqueued =>
    cases enqueued with
    | true => exact htrue s₁ h₁.1
    | false => exact hfalse s₁ h₁.1 (h₁.2 rfl)
  | thrown error => exact fun _ => h₁
  | unfinished => exact fun hne => absurd rfl hne

/-- A sender's check for the closing of the channel. -/
theorem WakeProtocol.is_closed_state_safe (hR : WakeProtocol W Q R) {A : Endpoint Ring Message → Prop}
    {post : β → Endpoint Ring Message → Prop} {k : Bool → EndpointProg Ring Message β} (hA : Stable R pid A)
    (h : A s) (hwoken : ∀ s', A s' → Woken .writable pid s')
    (hclosed : ∀ s', Calm pid s' → SafeWithin Q R pid post (k true) s')
    (hopen : ∀ s', A s' → ¬ s'.Shut .writable → SafeWithin Q R pid post (k false) s') :
    SafeWithin Q R pid post (is_closed_state pid >>= k) s := by
  apply SafeWithin.modifyGet hA h
  intro s₁ h₁ hinv₁ _ _
  by_cases hshut : s₁.sender_state &&& channel_closed_bit ≠ 0
  · have hgive : s₁.give_in pid = s₁.set_event .writable (Event.set_retry pid .none) := if_pos hshut
    rw [hgive, decide_eq_true hshut]
    obtain ⟨retry, hown⟩ := hwoken s₁ h₁
    have hself := hown .writable
    rw [Function.update_self] at hself
    obtain ⟨hinv, hothers⟩ := hR.event_step (f := Event.set_retry pid .none) hinv₁ hown
      (((hR.inv s₁).mp hinv₁ .writable).set_retry hself.waiters (calmer_set_event _ _ pid s₁ _)
        (fun _ _ hopen => absurd hshut hopen) (s₁.set_event_event .writable _))
    refine ⟨hinv, hothers, hclosed _ fun word => ?_⟩
    have hcalm := own_set_event (f := Event.set_retry pid .none) hown
      ⟨hself.waiters, hself.pending, Function.update_self _ _ _⟩ word
    rw [Function.update_idem] at hcalm
    cases word with
    | readable => exact hcalm
    | writable => exact hcalm
  · have hsame : s₁.give_in pid = s₁ := if_neg hshut
    rw [hsame, decide_eq_false hshut]
    exact ⟨hinv₁, fun other _ => hR.refl other s₁, hopen s₁ h₁ hshut⟩

theorem WakeProtocol.refused_safe (hR : WakeProtocol W Q R) (status : ChannelStatus) (hcalm : Calm pid s) :
    SafeWithin Q R pid (EndedCalm pid)
      (do return .returned (if ← is_closed_state pid then .closed else status)) s := by
  apply hR.is_closed_state_safe hR.calm_stable hcalm fun s' h' => h'.woken .writable
  · exact fun s' h' _ => h'
  · exact fun s' h' _ _ => h'

theorem WakeProtocol.try_send_safe (hR : WakeProtocol W Q R) (htry : EnqueueWatches W Q R pid try_enqueue)
    (registration : List Bool) (chances : Chances) (hcalm : Calm pid s) :
    SafeWithin Q R pid (EndedCalm pid) (try_send pid try_enqueue registration chances) s := by
  apply hR.guarded_safe registration _ hcalm
  intro s₁ h₁
  unfold try_send_body
  apply hR.is_closed_state_safe hR.calm_stable h₁ fun s' h' => h'.woken .writable
  · exact fun s' h' _ => h'
  · intro s₂ h₂ _
    apply htry.andThen chances s₂.writable.bumps (h₂.woken .writable) le_rfl
    · exact fun s' h' _ => h'
    · exact fun s' h' _ => hR.refused_safe .would_block h'

theorem later_stable (hR : WakeProtocol W Q R) (word : Word) (seen : Nat) :
    Stable R pid fun s => seen ≤ (s.event word).bumps :=
  fun s s' hrely _ hseen => hseen.trans (hR.rely pid s s' hrely word).bumps

/-- The loop of `send_impl`: a sender that sleeps has missed nothing. -/
theorem WakeProtocol.send_loop_safe (hR : WakeProtocol W Q R) (htry : EnqueueWatches W Q R pid try_enqueue)
    (timed : Bool) (turns : List (SendTurn Chances)) (hwoken : Woken .writable pid s) :
    SafeWithin Q R pid (EndedCalm pid) (send_loop pid try_enqueue timed turns) s := by
  induction turns generalizing s with
  | nil => exact fun hne => absurd rfl hne
  | cons turn turns ih =>
    have hdone (status : ChannelStatus) (s' : Endpoint Ring Message) (h' : Calm pid s') :
        SafeWithin Q R pid (EndedCalm pid) (.ret (.returned status)) s' := fun _ => h'
    unfold send_loop
    apply hR.is_closed_state_safe hR.woken_stable hwoken fun s' h' => h'
    · exact hdone .closed
    intro s₁ h₁ _
    apply hR.load hR.woken_stable h₁
    intro s₂ h₂ _
    apply htry.andThen turn.first s₂.writable.bumps h₂ le_rfl
    · exact hdone .success
    intro s₃ hcalm₃ hsearched₃
    apply hR.is_closed_state_safe (hR.calm_stable.and (hR.searched_stable s₂.writable.bumps))
      ⟨hcalm₃, hsearched₃⟩ fun s' h' => h'.1.woken .writable
    · exact hdone .closed
    rintro s₄ ⟨hcalm₄, hsearched₄⟩ hopen
    apply (hR.wait_safe (s₂.writable.epoch, s₂.writable.bumps) timed turn.wait hcalm₄
      (hsearched₄.alert hopen)).bind
    intro ended s₅ h₅
    cases ended with
    | thrown error => exact fun _ => h₅
    | unfinished => exact fun hne => absurd rfl hne
    | returned timed_out =>
      cases timed_out with
      | false => exact ih h₅
      | true =>
        simp only [if_true]
        apply hR.is_closed_state_safe hR.woken_stable h₅ fun s' h' => h'
        · exact hdone .closed
        intro s₆ h₆ _
        apply htry.andThen turn.last s₆.writable.bumps h₆ le_rfl
        · exact hdone .success
        · exact fun s' h' _ => hR.refused_safe .timed_out h'

theorem WakeProtocol.send_impl_safe (hR : WakeProtocol W Q R) (htry : EnqueueWatches W Q R pid try_enqueue)
    (timed : Bool) (registration : List Bool) (turns : List (SendTurn Chances)) (hcalm : Calm pid s) :
    SafeWithin Q R pid (EndedCalm pid) (send_impl pid try_enqueue timed registration turns) s :=
  hR.guarded_safe registration (fun _ h' => hR.send_loop_safe htry timed turns (h'.woken .writable)) hcalm

end

section

variable {try_dequeue : Chances → EndpointProg Ring Message (Ended (Option Message))}

theorem DequeueWatches.andThen (htry : DequeueWatches W Q R pid try_dequeue) (chances : Chances) (seen : Nat)
    {f : EndpointProg Ring Message (Ended (ReceiveResult Message))} (hwoken : Woken .readable pid s)
    (hseen : seen ≤ s.readable.bumps)
    (hnone : ∀ s', Calm pid s' → Searched W .readable pid seen s' → SafeWithin Q R pid (EndedCalm pid) f s') :
    SafeWithin Q R pid (EndedCalm pid)
      (andThen (try_dequeue chances) fun
        | some value => .ret (.returned { code := .success, value := some value })
        | none => f) s := by
  apply (htry chances seen s hwoken hseen).bind
  intro ended s₁ h₁
  cases ended with
  | returned value =>
    cases value with
    | some value => exact fun _ => h₁.1
    | none => exact hnone s₁ h₁.1 (h₁.2 rfl)
  | thrown error => exact fun _ => h₁
  | unfinished => exact fun hne => absurd rfl hne

theorem DequeueWatches.receive_rest_safe (htry : DequeueWatches W Q R pid try_dequeue) (chances : Chances)
    (hcalm : Calm pid s) :
    SafeWithin Q R pid (EndedCalm pid) (receive_rest try_dequeue chances) s := by
  apply htry.andThen chances s.readable.bumps (hcalm.woken .readable) le_rfl
  exact fun s' h' _ _ => h'

theorem WakeProtocol.try_receive_safe (hR : WakeProtocol W Q R) (htry : DequeueWatches W Q R pid try_dequeue)
    (first second : Chances) (hcalm : Calm pid s) :
    SafeWithin Q R pid (EndedCalm pid) (try_receive try_dequeue first second) s := by
  apply htry.andThen first s.readable.bumps (hcalm.woken .readable) le_rfl
  intro s₁ h₁ _
  apply hR.load hR.calm_stable h₁
  intro s₂ h₂ _
  split
  · exact htry.receive_rest_safe second h₂
  · exact fun _ => h₂

/-- `receive` and `receive_for`: a receiver that sleeps has missed nothing. -/
theorem WakeProtocol.receive_impl_safe (hR : WakeProtocol W Q R) (htry : DequeueWatches W Q R pid try_dequeue)
    (timed : Bool) (turns : List (ReceiveTurn Chances)) (hwoken : Woken .readable pid s) :
    SafeWithin Q R pid (EndedCalm pid) (receive_impl pid try_dequeue timed turns) s := by
  induction turns generalizing s with
  | nil => exact fun hne => absurd rfl hne
  | cons turn turns ih =>
    unfold receive_impl
    apply hR.load hR.woken_stable hwoken
    intro s₁ h₁ _
    apply htry.andThen turn.first s₁.readable.bumps h₁ le_rfl
    intro s₂ hcalm₂ hsearched₂
    apply hR.load (hR.calm_stable.and (hR.searched_stable s₁.readable.bumps)) ⟨hcalm₂, hsearched₂⟩
    rintro s₃ ⟨hcalm₃, hsearched₃⟩ _
    by_cases hdone : s₃.sender_state = channel_closed_bit
    · simp only [hdone, decide_true, if_true]
      exact htry.receive_rest_safe turn.second hcalm₃
    simp only [hdone, decide_false]
    apply (hR.wait_safe (s₁.readable.epoch, s₁.readable.bumps) timed turn.wait hcalm₃
      (hsearched₃.alert hdone)).bind
    intro ended s₄ h₄
    cases ended with
    | thrown error => exact fun _ => h₄
    | unfinished => exact fun hne => absurd rfl hne
    | returned timed_out =>
      cases timed_out with
      | false => exact ih h₄
      | true =>
        apply htry.andThen turn.last s₄.readable.bumps h₄ le_rfl
        intro s₅ h₅ _
        apply hR.load hR.calm_stable h₅
        intro s₆ h₆ _
        split
        · exact fun _ => h₆
        · exact fun _ => h₆

end

/-- What the process that closes the channel owes: the receivers a wake-up
    when no sender is registered, and the senders one. -/
def closing_own (alone : Bool) : Word → Pending × Retry
  | .readable => (if alone then .before true else .none, .none)
  | .writable => (.before true, .none)

theorem WakeProtocol.after_close (hR : WakeProtocol W Q R) (hinv : R.inv s) (hcalm : Calm pid s) (hQ : Q s)
    (hQ' : Q (s.set_closed pid)) (hopen : ¬ s.sender_state &&& channel_closed_bit ≠ 0) :
    R.inv (s.set_closed pid) ∧ (∀ other, other ≠ pid → R.rely other s (s.set_closed pid)) ∧
      (s.set_closed pid).Own pid (closing_own (decide (s.sender_state = 0))) := by
  have hsenders := hR.senders s hQ
  have hframe : Framed s (s.set_closed pid) := ⟨rfl, rfl, rfl, rfl⟩
  have hwatched := (hR.inv s).mp hinv
  have hpending (word : Word) (all : Bool) (hall : (s.event word).pending pid = .before all) : all = true := by
    rw [(hcalm word).pending] at hall
    cases hall
  have hunshut (word : Word) : ¬ s.Shut word := fun hshut => hopen (hsenders.closed_iff.mpr (hsenders.shut hshut))
  have hwritable : (s.set_closed pid).event .writable = (s.event .writable).owe pid true := if_neg hopen
  have howed (word : Word) (hword : (s.set_closed pid).event word = (s.event word).owe pid true) :
      WatchStep (W word) word pid s (s.set_closed pid) :=
    (hwatched word).owe_all (hcalm word).waiters (hpending word) (fun _ => id) (fun _ => id)
      (fun hshut => absurd hshut (hunshut word)) hword
  have hown (word : Word) (hword : (s.set_closed pid).event word = (s.event word).owe pid true) :
      ((s.set_closed pid).event word).Own pid (.before true) .none := by
    rw [hword]
    exact ⟨(hcalm word).waiters, Event.owe_self _ _ _, (hcalm word).retry⟩
  by_cases hzero : s.sender_state = 0
  · have hreadable : (s.set_closed pid).event .readable = (s.event .readable).owe pid true := if_pos hzero
    have hstep (word : Word) : WatchStep (W word) word pid s (s.set_closed pid) := by
      cases word with
      | readable => exact howed .readable hreadable
      | writable => exact howed .writable hwritable
    obtain ⟨hinv', hothers⟩ := hR.step hframe hstep
    refine ⟨hinv', hothers, fun word => ?_⟩
    rw [decide_eq_true hzero]
    cases word with
    | readable => exact hown .readable hreadable
    | writable => exact hown .writable hwritable
  · have hreadable : (s.set_closed pid).event .readable = s.event .readable := if_neg hzero
    have hshut : (s.set_closed pid).Shut .readable ↔ s.Shut .readable := by
      refine iff_of_false (fun hshut => ?_) (hunshut .readable)
      have hguards : s.guards = [] := ((hR.senders _ hQ').done_iff.mp hshut).2
      have hword := hsenders.word
      have hclosings : s.closings ≠ 1 := fun hone => hopen (hsenders.closed_iff.mpr hone)
      have hle := hsenders.closings
      rw [hguards, List.length_nil, show s.closings = 0 by omega] at hword
      omega
    have hstep (word : Word) : WatchStep (W word) word pid s (s.set_closed pid) := by
      cases word with
      | readable =>
        exact (hwatched .readable).stay (hcalm .readable).waiters
          ⟨fun _ => id, fun _ => id, fun _ _ => id, hshut⟩ hreadable
      | writable => exact howed .writable hwritable
    obtain ⟨hinv', hothers⟩ := hR.step hframe hstep
    refine ⟨hinv', hothers, fun word => ?_⟩
    rw [decide_eq_false hzero]
    cases word with
    | readable =>
      rw [hreadable]
      exact hcalm .readable
    | writable => exact hown .writable hwritable

/-- `close`. -/
theorem WakeProtocol.close_safe (hR : WakeProtocol W Q R) (hcalm : Calm pid s) :
    SafeWithin Q R pid (fun _ s' => Calm pid s') (close pid) s := by
  unfold close
  apply SafeWithin.modifyGet hR.calm_stable hcalm
  intro s₁ h₁ hinv₁ hQ hQ'
  by_cases hshut : s₁.sender_state &&& channel_closed_bit ≠ 0
  · have hframe : Framed s₁ (s₁.set_closed pid) := ⟨rfl, rfl, rfl, rfl⟩
    have hnonzero : s₁.sender_state ≠ 0 := fun hzero => hshut (by rw [hzero]; rfl)
    have hsenders := hR.senders s₁ hQ
    have hsenders' := hR.senders _ hQ'
    have hclosings : (s₁.set_closed pid).closings = s₁.closings := if_pos hshut
    obtain ⟨hinv, hothers, h₂⟩ := hR.quiet_step hinv₁ h₁ hframe
      (fun word => by
        cases word with
        | readable => exact if_neg hnonzero
        | writable => exact if_pos hshut)
      (fun word => by
        cases word with
        | readable => exact hsenders'.done_iff.trans (hclosings ▸ hsenders.done_iff.symm)
        | writable => exact hsenders'.closed_iff.trans (hclosings ▸ hsenders.closed_iff.symm))
    refine ⟨hinv, hothers, ?_⟩
    rw [if_pos hshut]
    exact h₂
  · obtain ⟨hinv, hothers, h₂⟩ := hR.after_close hinv₁ h₁ hQ hQ' hshut
    refine ⟨hinv, hothers, ?_⟩
    rw [if_neg hshut]
    apply (hR.bump_safe .readable h₂).bind
    intro _ s₃ h₃
    apply (hR.bump_safe .writable h₃).bind
    intro _ s₄ h₄
    apply (hR.wake_all_safe .readable h₄ _).bind
    · intro _ s₅ h₅
      apply (hR.wake_all_safe .writable h₅ fun all => Pending.noConfusion).bind
      intro _ s₆ h₆ word
      cases word with
      | readable => exact h₆ .readable
      | writable => exact h₆ .writable
    · intro all
      cases decide (s₁.sender_state = 0) <;> exact Pending.noConfusion

end

end shmchan.endpoint
