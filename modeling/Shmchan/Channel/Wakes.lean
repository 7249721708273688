import Shmchan.Channel.Session
import Shmchan.Endpoint.Waiting

open process shmchan.endpoint

namespace shmchan.channel

/-- Each published item is worth the wake-up of one receiver, and each position
    whose slot has been released that of one sender. -/
def watch (channel : Channel) : Word → Watch SlotRing Bytes
  | .readable => {
      items := fun _ log i => log.phase i = .published
      looks := fun _ _ _ => False
      room := fun _ _ _ => False }
  | .writable => {
      items := fun _ log i =>
        log.count ≤ i ∧ i < log.count + channel.capacity ∧ released channel.capacity log.phase i = true
      looks := fun _ _ _ => False
      room := fun _ _ _ => False }

def wake_reliance (channel : Channel) : Reliance Memory Nat :=
  ⟨fun s => ∀ word, Watched (watch channel word) word s,
    fun pid s s' => ∀ word, WatchRely (watch channel word) word pid s s'⟩

/-- The states that `reachable_safe` speaks of, in which no epoch comparison has
    been deceived by a wrap, and no try has given up while something further on
    was ready. -/
structure Unwrapped (channel : Channel) (s : Memory) : Prop where
  bounded : Bounded channel s
  inv : Inv True channel s
  unwrapped : s.wrapped = false
  passed_over : s.ring.passed_over = false

/-- A step of a process that the waits do not notice. -/
structure Unseen (s s' : Memory) : Prop where
  events : ∀ word, s'.event word = s.event word
  sender_state : s'.sender_state = s.sender_state
  log : s'.log = s.log

section

variable {channel : Channel} {pid : Nat} {s s' : Memory} {word : Word} {own : Word → Pending × Retry}

theorem wake_protocol (channel : Channel) :
    WakeProtocol (watch channel) (Unwrapped channel) (wake_reliance channel) where
  inv _ := Iff.rfl
  rely _ _ _ h := h
  refl pid s word := .refl _ word pid s
  framed _ _ _ _ hwords := hwords
  senders _ h := h.inv.senders trivial
  unwrapped _ h := h.unwrapped

/-- A step after which there are no more items than before. -/
theorem calmer_of_items (hsender : s'.sender_state = s.sender_state)
    (hitem : ∀ i, (watch channel word).Item s' i → (watch channel word).Item s i) :
    Calmer (watch channel word) word pid s s' where
  item := hitem
  looks _ h := by cases word <;> exact h
  room _ _ h := by cases word <;> exact h
  shut := by cases word <;> rw [Endpoint.Shut, Endpoint.Shut, hsender]

theorem wake_step (hwords : ∀ word, WatchStep (watch channel word) word pid s s') :
    (wake_reliance channel).inv s' ∧ ∀ other, other ≠ pid → (wake_reliance channel).rely other s s' :=
  ⟨fun word => (hwords word).1, fun other hother word => (hwords word).2 other hother⟩

theorem unseen_step (hinv : (wake_reliance channel).inv s) (hown : s.Own pid own) (hstep : Unseen s s') :
    (wake_reliance channel).inv s' ∧ (∀ other, other ≠ pid → (wake_reliance channel).rely other s s') ∧
      s'.Own pid own := by
  have hwords (word : Word) : WatchStep (watch channel word) word pid s s' := by
    refine (hinv word).stay (hown word).waiters (calmer_of_items hstep.sender_state fun i hi => ?_) (hstep.events word)
    cases word <;>
    · rw [Watch.Item, hstep.log] at hi
      exact hi
  obtain ⟨hinv', hothers⟩ := wake_step hwords
  refine ⟨hinv', hothers, fun word => ?_⟩
  rw [hstep.events word]
  exact hown word

/-- A program of steps that the waits do not notice. -/
theorem unseen_safe {α : Type} {P : α → Prop} {p : Prog Memory α} (hp : p.Always Unseen P)
    (hown : s.Own pid own) :
    SafeWithin (Unwrapped channel) (wake_reliance channel) pid (fun a s' => P a ∧ s'.Own pid own) p s := by
  apply SafeWithin.of_always hp ((wake_protocol channel).own_stable own) _ hown
  exact fun s s' hstep hinv hown => unseen_step hinv hown hstep

theorem unseen_set_ring (f : SlotRing → SlotRing) (s : Memory) : Unseen s (set_ring f s) :=
  ⟨fun word => by cases word <;> rfl, rfl, rfl⟩

theorem unseen_copy_to_slot (slot : Nat) (value : Bytes) (k : Nat) :
    (copy_to_slot pid slot value k).Always Unseen fun _ => True := by
  induction value generalizing k with
  | nil => trivial
  | cons byte rest ih => exact ⟨unseen_set_ring _, fun _ => ih (k + 1)⟩

theorem unseen_copy_from_slot (slot count k : Nat) :
    (copy_from_slot pid slot count k).Always Unseen fun _ => True := by
  induction count generalizing k with
  | zero => trivial
  | succ count ih => exact ⟨unseen_set_ring _, fun _ => (ih (k + 1)).bind fun _ _ => trivial⟩

theorem released_update {capacity index position : Nat} {phase : Nat → Phase} {new : Phase}
    (hnew : new ≠ .consumed)
    (h : released capacity (Function.update phase index new) position = true) :
    released capacity phase position = true := by
  simp only [released, Bool.or_eq_true, decide_eq_true_eq] at h ⊢
  rcases h with hfirst | hconsumed
  · exact .inl hfirst
  · by_cases heq : position - capacity = index
    · rw [heq, Function.update_self] at hconsumed
      exact absurd hconsumed hnew
    · rw [Function.update_of_ne heq] at hconsumed
      exact .inr hconsumed

theorem published_update {index i : Nat} {phase : Nat → Phase} {new : Phase} (hnew : new ≠ .published)
    (h : Function.update phase index new i = .published) : phase i = .published := by
  by_cases heq : i = index
  · rw [heq, Function.update_self] at h
    exact absurd h hnew
  · rwa [Function.update_of_ne heq] at h

/-- What a process owes that has to wake one waiter. -/
def owing (word : Word) : Word → Pending × Retry :=
  Function.update (fun _ => (.none, .none)) word (.before false, .none)

/-- The word that a process has made something true for. -/
theorem owing_of_owe (hcalm : Calm pid s) (hevent : s'.event word = (s.event word).owe pid false)
    (hothers : ∀ other, other ≠ word → s'.event other = s.event other) : s'.Own pid (owing word) := by
  intro other
  by_cases hother : other = word
  · subst hother
    rw [owing, Function.update_self, hevent]
    exact ⟨(hcalm other).waiters, Function.update_self _ _ _, (hcalm other).retry⟩
  · rw [owing, Function.update_of_ne hother, hothers other hother]
    exact hcalm other

/-- The store that publishes an item: it is worth a wake-up, which is owed. -/
theorem after_publish (hinv : (wake_reliance channel).inv s) (hcalm : Calm pid s) (index slot sequence : Nat) :
    (wake_reliance channel).inv (publish pid index slot sequence s) ∧
      (∀ other, other ≠ pid → (wake_reliance channel).rely other s (publish pid index slot sequence s)) ∧
        (publish pid index slot sequence s).Own pid (owing .readable) := by
  have hwords (word : Word) :
      WatchStep (watch channel word) word pid s (publish pid index slot sequence s) := by
    cases word with
    | readable =>
      refine (hinv .readable).owe_item (hcalm .readable) index (fun i hi => ?_) (fun _ _ _ _ h => h)
        (fun _ _ h => h) Iff.rfl rfl
      by_cases heq : i = index
      · exact .inl heq
      · have hi : Function.update s.log.phase index .published i = .published := hi
        rw [Function.update_of_ne heq] at hi
        exact .inr hi
    | writable =>
      refine (hinv .writable).stay (hcalm .writable).waiters (calmer_of_items rfl fun i hi => ?_) rfl
      exact ⟨hi.1, hi.2.1, released_update Phase.noConfusion hi.2.2⟩
  obtain ⟨hinv', hothers⟩ := wake_step hwords
  refine ⟨hinv', hothers, owing_of_owe hcalm rfl fun other hother => ?_⟩
  cases other with
  | readable => exact absurd rfl hother
  | writable => rfl

/-- The store that releases a slot. -/
theorem after_release (hinv : (wake_reliance channel).inv s) (hcalm : Calm pid s)
    (index slot sequence : Nat) (value : Bytes) :
    (wake_reliance channel).inv (release pid index slot sequence value s) ∧
      (∀ other, other ≠ pid → (wake_reliance channel).rely other s (release pid index slot sequence value s)) ∧
        (release pid index slot sequence value s).Own pid (owing .writable) := by
  have hwords (word : Word) :
      WatchStep (watch channel word) word pid s (release pid index slot sequence value s) := by
    cases word with
    | readable =>
      refine (hinv .readable).stay (hcalm .readable).waiters (calmer_of_items rfl fun i hi => ?_) rfl
      exact published_update Phase.noConfusion hi
    | writable =>
      refine (hinv .writable).owe_item (hcalm .writable) (index + channel.capacity) (fun i hi => ?_)
        (fun _ _ _ _ h => h) (fun _ _ h => h) Iff.rfl rfl
      obtain ⟨hcount, hlap, hreleased⟩ := hi
      have hreleased : released channel.capacity (Function.update s.log.phase index .consumed) i = true := hreleased
      simp only [released, Bool.or_eq_true, decide_eq_true_eq] at hreleased
      by_cases heq : i = index + channel.capacity
      · exact .inl heq
      · refine .inr ⟨hcount, hlap, ?_⟩
        simp only [released, Bool.or_eq_true, decide_eq_true_eq]
        rcases hreleased with hfirst | hconsumed
        · exact .inl hfirst
        · by_cases hfirst : i < channel.capacity
          · exact .inl hfirst
          · rw [Function.update_of_ne (by omega)] at hconsumed
            exact .inr hconsumed
  obtain ⟨hinv', hothers⟩ := wake_step hwords
  refine ⟨hinv', hothers, owing_of_owe hcalm rfl fun other hother => ?_⟩
  cases other with
  | readable => rfl
  | writable => exact absurd rfl hother

/-- A process has ended its try. -/
theorem calm_of_retry (hwoken : Woken word pid s) (hevent : s'.event word = (s.event word).set_retry pid .none)
    (hothers : ∀ other, other ≠ word → s'.event other = s.event other) : Calm pid s' := by
  obtain ⟨retry, hown⟩ := hwoken
  intro other
  have hother := hown other
  by_cases heq : other = word
  · subst heq
    rw [Function.update_self] at hother
    rw [hevent]
    exact ⟨hother.waiters, hother.pending, Function.update_self _ _ _⟩
  · rw [Function.update_of_ne heq] at hother
    rw [hothers other heq]
    exact hother

/-- The slot of the position that a sender claims has been released. -/
theorem Unwrapped.free_of_reserve {value : Bytes} {f : SlotRing → SlotRing}
    (h : Unwrapped channel (reserve pid value f s)) : Free channel s := by
  simp only [Free, released, Bool.or_eq_true, decide_eq_true_eq]
  by_cases hfirst : s.log.count < channel.capacity
  · exact .inl hfirst
  · right
    have hpos := channel.pos
    have hsettled := h.inv.ordered.settled (s.log.count - channel.capacity) (by
      show s.log.count - channel.capacity + channel.capacity < s.log.count + 1
      omega)
    have hsettled : Function.update s.log.phase s.log.count (.reserved pid) (s.log.count - channel.capacity) =
      .consumed := hsettled
    rwa [Function.update_of_ne (by omega)] at hsettled

/-- A sender claims the next position. -/
theorem after_reserve {value : Bytes} {f : SlotRing → SlotRing} (hinv : (wake_reliance channel).inv s)
    (hwoken : Woken .writable pid s) (hQ' : Unwrapped channel (reserve pid value f s)) :
    (wake_reliance channel).inv (reserve pid value f s) ∧
      (∀ other, other ≠ pid → (wake_reliance channel).rely other s (reserve pid value f s)) ∧
        Calm pid (reserve pid value f s) := by
  have hpos := channel.pos
  have hwords (word : Word) : WatchStep (watch channel word) word pid s (reserve pid value f s) := by
    cases word with
    | readable =>
      refine (hinv .readable).stay (hwoken.out .readable) (calmer_of_items rfl fun i hi => ?_) rfl
      exact published_update Phase.noConfusion hi
    | writable =>
      have hfree : (watch channel .writable).Item s s.log.count :=
        ⟨le_rfl, by omega, hQ'.free_of_reserve⟩
      refine (hinv .writable).take_item (hwoken.out .writable) (calmer_of_items rfl fun i hi => ?_) hfree ?_ rfl
      · obtain ⟨hcount, hlap, hreleased⟩ := hi
        have hcount : s.log.count + 1 ≤ i := hcount
        have hlap : i < s.log.count + 1 + channel.capacity := hlap
        have hreleased : released channel.capacity (Function.update s.log.phase s.log.count (.reserved pid)) i = true :=
          hreleased
        refine ⟨by omega, ?_, released_update Phase.noConfusion hreleased⟩
        by_contra hlast
        have heq : i - channel.capacity = s.log.count := by omega
        simp only [released, heq, Function.update_self, Bool.or_eq_true, decide_eq_true_eq] at hreleased
        rcases hreleased with hfirst | hconsumed
        · omega
        · cases hconsumed
      · intro hi
        have hcount : s.log.count + 1 ≤ s.log.count := hi.1
        omega
  obtain ⟨hinv', hothers⟩ := wake_step hwords
  refine ⟨hinv', hothers, calm_of_retry hwoken rfl fun other hother => ?_⟩
  cases other with
  | readable => rfl
  | writable => exact absurd rfl hother

/-- A sender gives up: no slot is free. -/
theorem after_refuse (hinv : (wake_reliance channel).inv s) (hwoken : Woken .writable pid s)
    (hQ' : Unwrapped channel (refuse channel pid s)) {seen : Nat} (hlater : seen ≤ s.writable.bumps) :
    (wake_reliance channel).inv (refuse channel pid s) ∧
      (∀ other, other ≠ pid → (wake_reliance channel).rely other s (refuse channel pid s)) ∧
        Calm pid (refuse channel pid s) ∧ Searched (watch channel) .writable pid seen (refuse channel pid s) := by
  have hnone (i : Nat) : ¬ (watch channel .writable).Item s i := by
    rintro ⟨hcount, hlap, hreleased⟩
    have hpassed := hQ'.passed_over
    simp only [refuse, Bool.or_eq_false_iff, decide_eq_false_iff_not] at hpassed
    apply hpassed.2
    refine ⟨i - s.log.count, by omega, ?_⟩
    rwa [show s.log.count + (i - s.log.count) = i by omega]
  have hwords (word : Word) : WatchStep (watch channel word) word pid s (refuse channel pid s) := by
    cases word with
    | readable => exact (hinv .readable).stay (hwoken.out .readable) (calmer_of_items rfl fun i hi => hi) rfl
    | writable =>
      exact (hinv .writable).set_retry (hwoken.out .writable) (calmer_of_items rfl fun i hi => hi)
        (fun i hi => absurd hi (hnone i)) rfl
  obtain ⟨hinv', hothers⟩ := wake_step hwords
  refine ⟨hinv', hothers, calm_of_retry hwoken rfl fun other hother => ?_, hlater, fun _ => ?_, fun _ h => h.elim⟩
  · cases other with
    | readable => rfl
    | writable => exact absurd rfl hother
  · exact ⟨id, fun i hi => absurd hi (hnone i), fun i hi => absurd hi (hnone i)⟩

/-- The item that a receiver claims is published. -/
theorem Unwrapped.head_of_claim {f : SlotRing → SlotRing} (h : Unwrapped channel s)
    (h' : Unwrapped channel (claim pid f s))
    (hsequence : (f s.ring).sequence (s.log.claimed % channel.capacity) =
        s.ring.sequence (s.log.claimed % channel.capacity) ∧ channel.capacity ≠ 1 ∨
      channel.capacity = 1 ∧ s.ring.sequence 0 = 2) : HeadPublished s := by
  have hordered := h.inv.ordered
  have hordered' := h'.inv.ordered
  have hlt : s.log.claimed < s.log.count := hordered'.claimed_le
  have hlive := hordered.live (hordered.occupied _ hlt) fun hconsumed => by
    have hahead := hordered.ahead _ le_rfl
    rw [hconsumed] at hahead
    cases hahead
  have hword := h.inv.placed.used _ hlt hlive.2
  have hahead := hordered.ahead _ (le_refl s.log.claimed)
  rw [HeadPublished]
  rcases hsequence with ⟨hsame, hcap⟩ | ⟨hcap, hfull⟩
  · have hword' := h'.inv.placed.used s.log.claimed hlt hlive.2
    have hword' : (f s.ring).sequence (s.log.claimed % channel.capacity) =
        word_of channel.capacity s.log.claimed (Function.update s.log.phase s.log.claimed (.claimed pid) s.log.claimed) :=
      hword'
    rw [Function.update_self, hsame, hword] at hword'
    cases hphase : s.log.phase s.log.claimed with
    | published => rfl
    | vacant => exact absurd hphase (hordered.occupied _ hlt)
    | reserved other =>
      rw [hphase] at hword'
      simp only [word_of, if_neg hcap] at hword'
      omega
    | claimed other | consumed =>
      rw [hphase] at hahead
      cases hahead
  · rw [hcap, Nat.mod_one, hfull] at hword
    cases hphase : s.log.phase s.log.claimed with
    | published => rfl
    | vacant => exact absurd hphase (hordered.occupied _ hlt)
    | reserved other =>
      rw [hphase] at hword
      simp only [word_of, if_pos] at hword
      omega
    | claimed other | consumed =>
      rw [hphase] at hahead
      cases hahead

/-- A receiver claims the next item. -/
theorem after_claim {f : SlotRing → SlotRing} (hinv : (wake_reliance channel).inv s)
    (hwoken : Woken .readable pid s) (hhead : HeadPublished s) :
    (wake_reliance channel).inv (claim pid f s) ∧
      (∀ other, other ≠ pid → (wake_reliance channel).rely other s (claim pid f s)) ∧
        Calm pid (claim pid f s) := by
  have hwords (word : Word) : WatchStep (watch channel word) word pid s (claim pid f s) := by
    cases word with
    | readable =>
      have hitem : (watch channel .readable).Item s s.log.claimed := hhead
      refine (hinv .readable).take_item (hwoken.out .readable) (calmer_of_items rfl fun i hi => ?_) hitem ?_ rfl
      · exact published_update Phase.noConfusion hi
      · intro hi
        have hi : Function.update s.log.phase s.log.claimed (.claimed pid) s.log.claimed = .published := hi
        rw [Function.update_self] at hi
        cases hi
    | writable =>
      refine (hinv .writable).stay (hwoken.out .writable) (calmer_of_items rfl fun i hi => ?_) rfl
      exact ⟨hi.1, hi.2.1, released_update Phase.noConfusion hi.2.2⟩
  obtain ⟨hinv', hothers⟩ := wake_step hwords
  refine ⟨hinv', hothers, calm_of_retry hwoken rfl fun other hother => ?_⟩
  cases other with
  | readable => exact absurd rfl hother
  | writable => rfl

/-- A receiver gives up: no item is published. -/
theorem after_miss (hinv : (wake_reliance channel).inv s) (hwoken : Woken .readable pid s)
    (hQ : Unwrapped channel s) (hQ' : Unwrapped channel (miss pid s)) {seen : Nat}
    (hlater : seen ≤ s.readable.bumps) :
    (wake_reliance channel).inv (miss pid s) ∧
      (∀ other, other ≠ pid → (wake_reliance channel).rely other s (miss pid s)) ∧
        Calm pid (miss pid s) ∧ Searched (watch channel) .readable pid seen (miss pid s) := by
  have hnone (i : Nat) : ¬ (watch channel .readable).Item s i := by
    intro hi
    have hi : s.log.phase i = .published := hi
    have hpassed := hQ'.passed_over
    simp only [miss, Bool.or_eq_false_iff, decide_eq_false_iff_not] at hpassed
    apply hpassed.2
    refine ⟨i, ?_, hi⟩
    by_contra hge
    rw [hQ.inv.ordered.vacant i (by omega)] at hi
    cases hi
  have hwords (word : Word) : WatchStep (watch channel word) word pid s (miss pid s) := by
    cases word with
    | readable =>
      exact (hinv .readable).set_retry (hwoken.out .readable) (calmer_of_items rfl fun i hi => hi)
        (fun i hi => absurd hi (hnone i)) rfl
    | writable => exact (hinv .writable).stay (hwoken.out .writable) (calmer_of_items rfl fun i hi => hi) rfl
  obtain ⟨hinv', hothers⟩ := wake_step hwords
  refine ⟨hinv', hothers, calm_of_retry hwoken rfl fun other hother => ?_, hlater, fun _ => ?_, fun _ h => h.elim⟩
  · cases other with
    | readable => exact absurd rfl hother
    | writable => rfl
  · exact ⟨id, fun i hi => absurd hi (hnone i), fun i hi => absurd hi (hnone i)⟩

/-- What ends a try to send, for the waits. -/
abbrev SendTried (channel : Channel) (pid seen : Nat) : Ended Bool → Memory → Prop :=
  Ended.Post (fun enqueued s' => Calm pid s' ∧
    (enqueued = false → Searched (watch channel) .writable pid seen s')) fun _ s' => Calm pid s'

/-- A sender that has loaded the epoch and not ended its try. -/
def Sending (pid seen : Nat) (s : Memory) : Prop := Woken .writable pid s ∧ seen ≤ s.writable.bumps

theorem sending_stable (channel : Channel) (pid seen : Nat) :
    Stable (wake_reliance channel) pid (Sending pid seen) :=
  (wake_protocol channel).woken_stable.and (later_stable (wake_protocol channel) .writable seen)

theorem fill_slot_wakes (index slot sequence : Nat) (value : Bytes) (pick : Nat) {seen : Nat}
    (hcalm : Calm pid s) :
    SafeWithin (Unwrapped channel) (wake_reliance channel) pid (SendTried channel pid seen)
      (fill_slot pid index slot sequence value pick) s := by
  have hR := wake_protocol channel
  unfold fill_slot
  apply (unseen_safe (unseen_copy_to_slot slot value 0) hcalm).bind
  rintro _ s₁ ⟨_, h₁⟩
  apply SafeWithin.act (hR.own_stable _) h₁
  intro s₂ h₂ hinv₂ _ _ _
  obtain ⟨hinv, hothers, hown⟩ := after_publish hinv₂ h₂ index slot sequence
  refine ⟨hinv, hothers, hR.signal_one_safe .readable pick hown fun s' h' => ⟨h', fun hfalse => ?_⟩⟩
  cases hfalse

/-- The load of a sequence word by a sender, which may give up. -/
theorem look_wakes {position seen : Nat} {k : Nat → Prog Memory (Ended Bool)} (h : Sending pid seen s)
    (hstay : ∀ sequence s', ¬ to_int64 (sub64 sequence position) < 0 → Sending pid seen s' →
      SafeWithin (Unwrapped channel) (wake_reliance channel) pid (SendTried channel pid seen) (k sequence) s')
    (hleave : ∀ sequence s', to_int64 (sub64 sequence position) < 0 → Calm pid s' →
      Searched (watch channel) .writable pid seen s' →
      SafeWithin (Unwrapped channel) (wake_reliance channel) pid (SendTried channel pid seen) (k sequence) s') :
    SafeWithin (Unwrapped channel) (wake_reliance channel) pid (SendTried channel pid seen)
      (.modifyGet (fun s => s.ring.sequence (position % channel.capacity)) (fun s =>
        if to_int64 (sub64 (s.ring.sequence (position % channel.capacity)) position) < 0 then
          refuse channel pid s else s) >>= k) s := by
  apply SafeWithin.modifyGet (sending_stable channel pid seen) h
  rintro s₁ h₁ hinv₁ _ hQ'
  by_cases hbehind : to_int64 (sub64 (s₁.ring.sequence (position % channel.capacity)) position) < 0
  · rw [if_pos hbehind] at hQ' ⊢
    obtain ⟨hinv, hothers, hcalm, hsearched⟩ := after_refuse hinv₁ h₁.1 hQ' h₁.2
    exact ⟨hinv, hothers, hleave _ _ hbehind hcalm hsearched⟩
  · rw [if_neg hbehind]
    exact ⟨hinv₁, fun other _ => (wake_protocol channel).refl other s₁, hstay _ _ hbehind h₁⟩

theorem enqueue_loop_wakes (value : Bytes) (pick : Nat) (attempts : List Bool) {position seen : Nat}
    (h : Sending pid seen s) :
    SafeWithin (Unwrapped channel) (wake_reliance channel) pid (SendTried channel pid seen)
      (enqueue_loop channel pid value pick attempts position) s := by
  have hR := wake_protocol channel
  induction attempts generalizing position s with
  | nil =>
    unfold enqueue_loop
    apply look_wakes h
    · intro sequence s₁ hbehind h₁
      simp only [hbehind, if_false]
      split <;> trivial
    · intro sequence s₁ hbehind hcalm hsearched
      simp only [hbehind, if_true]
      split
      · trivial
      · exact ⟨hcalm, fun _ => hsearched⟩
  | cons spurious attempts ih =>
    unfold enqueue_loop
    apply look_wakes h
    · intro sequence s₁ hbehind h₁
      simp only [hbehind, if_false]
      split
      · apply SafeWithin.act (sending_stable channel pid seen) h₁
        intro s₂ h₂ hinv₂ _ _ hQ'
        by_cases hexchanged : (!spurious && s₂.ring.enqueue_position == position) = true
        · simp only [hexchanged, if_true] at hQ' ⊢
          obtain ⟨hinv, hothers, hcalm⟩ := after_reserve hinv₂ h₂.1 hQ'
          exact ⟨hinv, hothers, fill_slot_wakes _ _ _ value pick hcalm⟩
        · simp only [hexchanged]
          exact ⟨hinv₂, fun other _ => hR.refl other s₂, ih h₂⟩
      · apply hR.load (sending_stable channel pid seen) h₁
        exact fun s₂ h₂ _ => ih h₂
    · intro sequence s₁ hbehind hcalm hsearched
      have hzero : to_int64 (sub64 sequence position) ≠ 0 := by omega
      simp only [hbehind, if_true, if_neg hzero]
      exact ⟨hcalm, fun _ => hsearched⟩

/-- A try to send that gives up has missed nothing since the epoch was loaded. -/
theorem try_enqueue_wakes (channel : Channel) (pid : Nat) (value : Bytes) :
    EnqueueWatches (watch channel) (Unwrapped channel) (wake_reliance channel) pid
      (try_enqueue channel pid value) := by
  intro chances seen s hwoken hseen
  have hR := wake_protocol channel
  unfold try_enqueue
  split
  · apply SafeWithin.act (sending_stable channel pid seen) ⟨hwoken, hseen⟩
    intro s₁ h₁ hinv₁ _ _ hQ'
    by_cases hempty : (s₁.ring.sequence 0 == 0) = true
    · simp only [hempty, if_true] at hQ' ⊢
      obtain ⟨hinv, hothers, hcalm⟩ := after_reserve hinv₁ h₁.1 hQ'
      exact ⟨hinv, hothers, fill_slot_wakes _ _ _ value chances.pick hcalm⟩
    · simp only [hempty] at hQ' ⊢
      obtain ⟨hinv, hothers, hcalm, hsearched⟩ := after_refuse hinv₁ h₁.1 hQ' h₁.2
      exact ⟨hinv, hothers, hcalm, fun _ => hsearched⟩
  · apply hR.load (sending_stable channel pid seen) ⟨hwoken, hseen⟩
    exact fun s₁ h₁ _ => enqueue_loop_wakes value chances.pick chances.attempts h₁

/-- What ends a try to receive, for the waits. -/
abbrev ReceiveTried (channel : Channel) (pid seen : Nat) : Ended (Option Bytes) → Memory → Prop :=
  Ended.Post (fun value s' => Calm pid s' ∧
    (value = none → Searched (watch channel) .readable pid seen s')) fun _ s' => Calm pid s'

/-- A receiver that has loaded the epoch and not ended its try. -/
def Receiving (pid seen : Nat) (s : Memory) : Prop := Woken .readable pid s ∧ seen ≤ s.readable.bumps

theorem receiving_stable (channel : Channel) (pid seen : Nat) :
    Stable (wake_reliance channel) pid (Receiving pid seen) :=
  (wake_protocol channel).woken_stable.and (later_stable (wake_protocol channel) .readable seen)

theorem empty_slot_wakes (index slot sequence pick : Nat) {seen : Nat} (hcalm : Calm pid s) :
    SafeWithin (Unwrapped channel) (wake_reliance channel) pid (ReceiveTried channel pid seen)
      (empty_slot channel pid index slot sequence pick) s := by
  have hR := wake_protocol channel
  unfold empty_slot
  apply (unseen_safe (unseen_copy_from_slot slot channel.element_size 0) hcalm).bind
  rintro value s₁ ⟨_, h₁⟩
  apply SafeWithin.act (hR.own_stable _) h₁
  intro s₂ h₂ hinv₂ _ _ _
  obtain ⟨hinv, hothers, hown⟩ := after_release hinv₂ h₂ index slot sequence value
  refine ⟨hinv, hothers, hR.signal_one_safe .writable pick hown fun s' h' => ⟨h', fun hnone => ?_⟩⟩
  cases hnone

/-- The load of a sequence word by a receiver, which may give up. -/
theorem peek_wakes {position seen : Nat} {k : Nat → Prog Memory (Ended (Option Bytes))}
    (h : Receiving pid seen s)
    (hstay : ∀ sequence s', ¬ to_int64 (sub64 sequence (add64 position 1)) < 0 → Receiving pid seen s' →
      SafeWithin (Unwrapped channel) (wake_reliance channel) pid (ReceiveTried channel pid seen) (k sequence) s')
    (hleave : ∀ sequence s', to_int64 (sub64 sequence (add64 position 1)) < 0 → Calm pid s' →
      Searched (watch channel) .readable pid seen s' →
      SafeWithin (Unwrapped channel) (wake_reliance channel) pid (ReceiveTried channel pid seen) (k sequence) s') :
    SafeWithin (Unwrapped channel) (wake_reliance channel) pid (ReceiveTried channel pid seen)
      (.modifyGet (fun s => s.ring.sequence (position % channel.capacity)) (fun s =>
        if to_int64 (sub64 (s.ring.sequence (position % channel.capacity)) (add64 position 1)) < 0 then
          miss pid s else s) >>= k) s := by
  apply SafeWithin.modifyGet (receiving_stable channel pid seen) h
  rintro s₁ h₁ hinv₁ hQ hQ'
  by_cases hbehind : to_int64 (sub64 (s₁.ring.sequence (position % channel.capacity)) (add64 position 1)) < 0
  · rw [if_pos hbehind] at hQ' ⊢
    obtain ⟨hinv, hothers, hcalm, hsearched⟩ := after_miss hinv₁ h₁.1 hQ hQ' h₁.2
    exact ⟨hinv, hothers, hleave _ _ hbehind hcalm hsearched⟩
  · rw [if_neg hbehind]
    exact ⟨hinv₁, fun other _ => (wake_protocol channel).refl other s₁, hstay _ _ hbehind h₁⟩

theorem dequeue_loop_wakes (hcap : channel.capacity ≠ 1) (pick : Nat) (attempts : List Bool)
    {position seen : Nat} (h : Receiving pid seen s) :
    SafeWithin (Unwrapped channel) (wake_reliance channel) pid (ReceiveTried channel pid seen)
      (dequeue_loop channel pid pick attempts position) s := by
  have hR := wake_protocol channel
  induction attempts generalizing position s with
  | nil =>
    unfold dequeue_loop
    apply peek_wakes h
    · intro sequence s₁ hbehind h₁
      simp only [hbehind, if_false]
      split <;> trivial
    · intro sequence s₁ hbehind hcalm hsearched
      simp only [hbehind, if_true]
      split
      · trivial
      · exact ⟨hcalm, fun _ => hsearched⟩
  | cons spurious attempts ih =>
    unfold dequeue_loop
    apply peek_wakes h
    · intro sequence s₁ hbehind h₁
      simp only [hbehind, if_false]
      split
      · apply SafeWithin.act (receiving_stable channel pid seen) h₁
        intro s₂ h₂ hinv₂ hQ _ hQ'
        by_cases hexchanged : (!spurious && s₂.ring.dequeue_position == position) = true
        · simp only [hexchanged, if_true] at hQ' ⊢
          have hhead := hQ.head_of_claim hQ' (.inl ⟨rfl, hcap⟩)
          obtain ⟨hinv, hothers, hcalm⟩ := after_claim hinv₂ h₂.1 hhead
          exact ⟨hinv, hothers, empty_slot_wakes _ _ _ pick hcalm⟩
        · simp only [hexchanged]
          exact ⟨hinv₂, fun other _ => hR.refl other s₂, ih h₂⟩
      · apply hR.load (receiving_stable channel pid seen) h₁
        exact fun s₂ h₂ _ => ih h₂
    · intro sequence s₁ hbehind hcalm hsearched
      have hzero : to_int64 (sub64 sequence (add64 position 1)) ≠ 0 := by omega
      simp only [hbehind, if_true, if_neg hzero]
      exact ⟨hcalm, fun _ => hsearched⟩

/-- A try to receive that gives up has missed nothing since the epoch was loaded. -/
theorem try_dequeue_wakes (channel : Channel) (pid : Nat) :
    DequeueWatches (watch channel) (Unwrapped channel) (wake_reliance channel) pid
      (try_dequeue channel pid) := by
  intro chances seen s hwoken hseen
  have hR := wake_protocol channel
  unfold try_dequeue
  split
  next hcap =>
    apply SafeWithin.act (receiving_stable channel pid seen) ⟨hwoken, hseen⟩
    intro s₁ h₁ hinv₁ hQ _ hQ'
    by_cases hfull : (s₁.ring.sequence 0 == 2) = true
    · simp only [hfull, if_true] at hQ' ⊢
      have hhead := hQ.head_of_claim hQ' (.inr ⟨hcap, eq_of_beq hfull⟩)
      obtain ⟨hinv, hothers, hcalm⟩ := after_claim hinv₁ h₁.1 hhead
      exact ⟨hinv, hothers, empty_slot_wakes _ _ _ chances.pick hcalm⟩
    · simp only [hfull] at hQ' ⊢
      obtain ⟨hinv, hothers, hcalm, hsearched⟩ := after_miss hinv₁ h₁.1 hQ hQ' h₁.2
      exact ⟨hinv, hothers, hcalm, fun _ => hsearched⟩
  next hcap =>
    apply hR.load (receiving_stable channel pid seen) ⟨hwoken, hseen⟩
    exact fun s₁ h₁ _ => dequeue_loop_wakes hcap chances.pick chances.attempts h₁

end

end shmchan.channel
