import Shmchan.Managed.Watching

open process

namespace shmchan.managed

/-- What an operation has made sure of when it leaves its critical section to wait. -/
def Sought : Op → (Memory → Prop) → Prop
  | .send _ _, E => ∀ m, E m → HasSlot .free m
  | .receive _, E => ∀ m, E m → HasSlot .ready m
  | _, _ => True

/-- An event that an operation may wait for: the others can only make it by an
    event, and the operation looks for it among the slots, or looks at the state
    word to see that it is not on. -/
structure Awaited (op : Op) (E : Memory → Prop) : Prop where
  uneventful : ∀ m m', Uneventful m m' → E m' → E m
  sought : Sought op E ∨ ∀ m, operation_state_of m = .success → ¬ E m

section

variable {unlinks : Bool} {E : Memory → Prop} {op : Op} {pid start epoch : Nat} {v : View} {m s : Memory}

theorem not_hasSlot {state : ManagedSlotState}
    (hnone : ∀ i, i < m.header.message_capacity → (m.slots i).state ≠ state.word) : ¬ HasSlot state m := by
  rintro ⟨i, hi, hstate⟩
  exact hnone i hi hstate

theorem healthy_of_success (hstate : operation_state_of m = .success) :
    m.header.state = ManagedChannelState.healthy.word := by
  unfold operation_state_of at hstate
  split_ifs at hstate with hhealthy
  exact hhealthy

/-- The epoch is what the critical section of a send loads last. -/
theorem send_critical_returns (message : Bytes) (mode : ManagedLockMode) (s : Memory) :
    (send_critical message mode).Returns
      (fun exit m => ∀ epoch, exit = .wait epoch → epoch = m.header.event_epoch) s := by
  unfold send_critical
  refine Prog.returns_bind (fun locked_state s => ?_) _ s
  split
  · rintro _ ⟨⟩
  refine Prog.returns_bind (fun valid s => ?_) _ s
  split
  · rintro _ ⟨⟩
  refine Prog.returns_bind (fun free_slots s => ?_) _ s
  split
  · refine Prog.returns_bind (fun next_sequence s => ?_) _ s
    split
    · refine Prog.returns_bind (fun _ _ => ?_) _ s
      rintro _ ⟨⟩
    refine Prog.returns_bind (fun capacity s => Prog.returns_bind (fun first s =>
      Prog.returns_bind (fun found s => ?_) _ s) _ s) _ s
    cases found with
    | none =>
      refine Prog.returns_bind (fun _ _ => ?_) _ s
      rintro _ ⟨⟩
    | some selected =>
      refine Prog.returns_bind (fun _ _ => ?_) _ s
      rintro _ ⟨⟩
  · split
    · rintro _ ⟨⟩
    · rintro s epoch ⟨⟩
      rfl

theorem receive_critical_returns (pid : Nat) (mode : ManagedLockMode) (alloc_fails : Bool) (s : Memory) :
    (receive_critical pid mode alloc_fails).Returns
      (fun exit m => ∀ epoch, exit = .wait epoch → epoch = m.header.event_epoch) s := by
  unfold receive_critical
  refine Prog.returns_bind (fun _ s => Prog.returns_bind (fun valid s => ?_) _ s) _ s
  split
  · rintro _ ⟨⟩
  refine Prog.returns_bind (fun capacity s => Prog.returns_bind (fun selected s => ?_) _ s) _ s
  split
  · refine Prog.returns_bind (fun corrupt s => ?_) _ s
    split
    · refine Prog.returns_bind (fun _ _ => ?_) _ s
      rintro _ ⟨⟩
    split
    · rintro _ ⟨⟩
    · refine Prog.returns_bind (fun message s => Prog.returns_bind (fun _ _ => ?_) _ s) _ s
      rintro _ ⟨⟩
  · refine Prog.returns_bind (fun locked_state s => ?_) _ s
    split
    · rintro _ ⟨⟩
    split
    · rintro _ ⟨⟩
    split
    · rintro _ ⟨⟩
    · rintro s epoch ⟨⟩
      rfl

theorem load_watched {α : Type} (f : Memory → α) :
    Safe (exclusion unlinks) pid (fun a m => a = f m) (.load f) s :=
  excluded_load_bind fun _ _ => rfl

theorem moves_of_plain {α : Type} {p : Prog Memory α} (hp : p.Always Plain fun _ => True) :
    p.Always Moves fun _ => True :=
  hp.mono (fun _ _ h => h.1) fun _ h => h

/-- A load in a pass. -/
theorem viewed_load_bind {α β : Type} {post : β → View → Prop} {f : Memory → α} {k : α → Prog Memory β}
    (hawake : Awake E pid start v)
    (hk : ∀ v', Awake E pid start v' →
      Safe (watching unlinks E pid start) () post (viewed (k (f v'.memory))) v') :
    Safe (watching unlinks E pid start) () post (viewed (.load f >>= k)) v := by
  rw [viewed_bind]
  refine (awake_lift (moves_of_plain (plain_load f)) (load_watched f) hawake).bind ?_
  rintro a v' ⟨rfl, hawake'⟩
  exact hk v' hawake'

/-- Falling asleep on an epoch since which no event has been missed. -/
theorem futex_wait_watched (hE : ∀ m m', Uneventful m m' → E m' → E m) (expires : Bool)
    (hawake : Awake E pid start v) (hv : Informed E start epoch v) :
    Safe (watching unlinks E pid start) () (fun _ v' => Awake E pid start v')
      (viewed (futex_wait_until pid epoch expires)) v := by
  intro v₁ hturns (hview₁ : ViewInv E pid start v₁) _
  have hawake₁ := awake_stable hturns hview₁ hawake
  have hv₁ := informed_stable hturns hv
  by_cases hepoch : v₁.memory.header.event_epoch = epoch
  · have hsleep (m : Memory) (waiters : List Nat) : Inside m { m with waiters := waiters } :=
      inside_of_same rfl rfl rfl
    simp only [hepoch, decide_true]
    have hinv₂ : ViewInv E pid start (v₁.store fun m =>
        if m.header.event_epoch = epoch then { m with waiters := pid :: m.waiters } else m) := by
      have hsame : ((v₁.store fun m => if m.header.event_epoch = epoch then
          { m with waiters := pid :: m.waiters } else m)).memory =
          { v₁.memory with waiters := pid :: v₁.memory.waiters } := by
        simp only [View.store_memory, hepoch, if_true]
      have hdate : ((v₁.store fun m => if m.header.event_epoch = epoch then
          { m with waiters := pid :: m.waiters } else m)).date = v₁.date := by
        simp [View.store, hepoch]
      refine ⟨?_, ?_, ?_, hview₁.called, hview₁.hidden, fun _ hroom hevent => ?_⟩
      · rw [hsame]
        exact (hsleep _ _).sequenced hview₁.inv
      · rw [hsame, hdate]
        exact hview₁.dated
      · rw [hdate]
        exact hview₁.started
      · rw [hdate] at hroom
        rw [hsame] at hevent
        have hsleeps : Uneventful v₁.memory { v₁.memory with waiters := pid :: v₁.memory.waiters } :=
          ⟨rfl, fun _ => .inl rfl, rfl⟩
        have hwaking : v₁.waking := hv₁.served hview₁ hepoch (hE _ _ hsleeps hevent) hroom
        exact hwaking
    refine ⟨hinv₂, fun _ hother => absurd rfl hother, fun v₃ hturns₃ hview₃ _ => ?_⟩
    have hawake₃ : Awake E pid start (v₃.store fun m =>
        { m with waiters := m.waiters.filter (· ≠ pid) }) :=
      ViewInv.awake_store hview₃ ((hsleep _ _).sequenced hview₃.inv) (.inl rfl) (by simp)
    exact ⟨hawake₃.toViewInv, fun _ hother => absurd rfl hother, hawake₃⟩
  · have hsame : (v₁.store fun m =>
        if m.header.event_epoch = epoch then { m with waiters := pid :: m.waiters } else m) = v₁ := by
      simp [View.store, hepoch]
    simp only [hepoch, decide_false]
    rw [hsame]
    exact ⟨hview₁, fun _ hother => absurd rfl hother, hawake₁⟩

theorem wait_watched (hE : ∀ m m', Uneventful m m' → E m' → E m) (expires : Bool)
    (waiting : (Nat → Nat) → ManagedCounters → ManagedCounters) (hawake : Awake E pid start v)
    (hv : Informed E start epoch v) :
    Safe (watching unlinks E pid start) () (fun _ v' => Awake E pid start v')
      (viewed (wait_for_event pid epoch expires waiting)) v := by
  have hcount (g : ManagedCounters → ManagedCounters) (m : Memory) :
      Safe (exclusion unlinks) pid (fun _ m' => True ∧ Excluded unlinks pid m m')
        (.store fun m => m.set_counters g) m :=
    (quiet_set_counters g).excluded (Excluded.refl unlinks pid m)
  have hplain (g : ManagedCounters → ManagedCounters) :
      (Prog.store fun m : Memory => m.set_counters g).Always Plain fun _ => True :=
    Prog.always_store (plain_set_counters g)
  unfold wait_for_event
  rw [viewed_bind]
  refine (informed_lift hE (hplain _) (hcount _ _) hawake hv).bind ?_
  rintro _ v₁ ⟨_, hawake₁, hv₁⟩
  rw [viewed_bind]
  refine (futex_wait_watched hE expires hawake₁ hv₁).bind fun expired v₂ hawake₂ => ?_
  rw [viewed_bind]
  refine (awake_lift (moves_of_plain (hplain _)) (hcount _ _) hawake₂).bind ?_
  rintro _ v₃ ⟨_, hawake₃⟩
  exact hawake₃

/-- The end of a critical section that found no event, the wait, and what
    follows it. -/
theorem unlock_wait_watched (hE : ∀ m m', Uneventful m m' → E m' → E m) (expires : Bool)
    (waiting : (Nat → Nat) → ManagedCounters → ManagedCounters) {tail : Bool → Prog Memory Outcome}
    (htail : ∀ expired, (tail expired).Always Plain fun _ => True)
    (hquiet : ∀ expired, Quiet unlinks (fun _ => True) (tail expired))
    (hawake : Awake E pid start v) (hv : Informed E start epoch v) :
    Safe (watching unlinks E pid start) () (fun _ v' => Awake E pid start v')
      (viewed (guard_unlock pid >>= fun _ => wait_for_event pid epoch expires waiting >>= tail)) v := by
  rw [viewed_bind]
  refine (informed_lift hE (plain_unlock pid) unlock_excluded hawake hv).bind ?_
  rintro _ v₁ ⟨_, hawake₁, hv₁⟩
  rw [viewed_bind]
  refine (wait_watched hE expires waiting hawake₁ hv₁).bind fun expired v₂ hawake₂ => ?_
  refine (awake_lift (moves_of_plain (htail expired))
    ((hquiet expired).excluded (Excluded.refl unlinks pid v₂.memory)) hawake₂).mono ?_
  rintro _ v₃ ⟨_, hawake₃⟩
  exact hawake₃

/-- A critical section that is left with a result. -/
theorem unlock_watched {k : Unit → Prog Memory Outcome} (hk : Quiet unlinks (fun _ => True) (k ()))
    (hsignals : Signals (fun _ => False) (k ())) (hawake : Awake E pid start v) :
    Safe (watching unlinks E pid start) () (fun _ v' => Awake E pid start v')
      (viewed (guard_unlock pid >>= k)) v := by
  apply (awake_lift (signals_unlock_bind pid hsignals).always (unlock_rest_excluded hk) hawake).mono
  exact fun _ _ h => h.2

/-- A pass whose guard reports a failure. -/
theorem refused_watched (count : Prog Memory Unit) {outcome : Outcome}
    (hcount : Quiet unlinks (fun _ => True) count) (hplain : count.Always Plain fun _ => True)
    (hawake : Awake E pid start v) :
    Safe (watching unlinks E pid start) () (fun _ v' => Awake E pid start v')
      (viewed (count >>= fun _ => guard_unlock pid >>= fun _ => .ret outcome)) v := by
  apply (awake_lift (signals_refused count hplain pid).always (refused_excluded count hcount) hawake).mono
  exact fun _ _ h => h.2

theorem secluded_refl (m : Memory) : Secluded m m := ⟨⟨rfl, fun _ => .inl rfl, rfl⟩, rfl⟩

/-- A scan that finds no corrupt slot has only read. -/
theorem keeps_validate_scan (todo index free_count writing_count ready_count : Nat) :
    (validate_scan todo index free_count writing_count ready_count).Keeps Secluded
      fun result => result ≠ none := by
  have hcorrupt : (mark_managed_broken .corrupt_data >>= fun _ => Prog.ret none).Keeps Secluded
      fun result : Option (Nat × Nat × Nat) => result ≠ none := by
    apply Prog.keeps_of_never
    exact Prog.never_bind_of (fun _ hne => hne rfl) _
  induction todo generalizing index free_count writing_count ready_count with
  | zero => trivial
  | succ todo ih =>
    rw [validate_scan]
    apply Prog.keeps_load_bind secluded_refl
    intro state
    split_ifs
    · exact ih _ _ _ _
    · exact ih _ _ _ _
    · apply Prog.keeps_load_bind secluded_refl
      intro corrupt
      split_ifs
      · exact hcorrupt
      · exact ih _ _ _ _
    · exact hcorrupt

theorem keeps_validate : validate_managed_slots.Keeps Secluded fun valid => valid = true := by
  have hcorrupt : (mark_managed_broken .corrupt_data >>= fun _ => Prog.ret false).Keeps Secluded
      fun valid => valid = true := by
    apply Prog.keeps_of_never
    apply Prog.never_bind_of
    rintro _ ⟨⟩
  unfold validate_managed_slots
  apply Prog.keeps_load_bind secluded_refl
  intro capacity
  apply (keeps_validate_scan _ _ _ _ _).bind
  · rintro (_ | ⟨free_count, writing_count, ready_count⟩) hsome
    · exact absurd rfl hsome
    · apply Prog.keeps_load_bind secluded_refl
      intro consistent
      split_ifs
      · trivial
      · exact hcorrupt
  · rintro (_ | counts) hnone
    · rintro ⟨⟩
    · exact absurd (Option.some_ne_none counts) hnone

/-- A sender that is going to wait has looked at the state word first. -/
theorem send_critical_checks (message : Bytes) (mode : ManagedLockMode)
    (hE : ∀ m, operation_state_of m = .success → ¬ E m) :
    (send_critical message mode).Checks (fun m => ¬ E m) Secluded
      fun exit => ∃ epoch, exit = .wait epoch := by
  have hnever (exit : SendExit) (hexit : ∀ epoch, exit ≠ .wait epoch) :
      (Prog.ret exit : Prog Memory SendExit).Always (fun _ _ => True)
        fun exit => ¬ ∃ epoch, exit = .wait epoch :=
    fun ⟨epoch, hwait⟩ => hexit epoch hwait
  have hleave (status : ChannelStatus) := hnever (.leave status) (by rintro _ ⟨⟩)
  unfold send_critical
  refine Prog.checks_load_bind secluded_refl fun m => ?_
  by_cases hstate : operation_state_of m = .success
  case neg =>
    right
    rw [if_pos hstate]
    exact hleave _
  refine .inl ⟨hE m hstate, ?_⟩
  rw [if_neg (not_not.mpr hstate)]
  apply keeps_validate.bind
  · rintro valid rfl
    refine Prog.keeps_load_bind secluded_refl _ fun free_slots => ?_
    split
    · -- there is a slot, and nothing of what follows ends in a wait
      apply Prog.keeps_of_never
      refine Prog.never_bind_of (fun next_sequence => ?_) _
      split
      · exact Prog.never_bind_of (fun _ => hleave _) _
      refine Prog.never_bind_of (fun capacity => Prog.never_bind_of (fun first =>
        Prog.never_bind_of (fun found => ?_) _) _) _
      cases found with
      | none => exact Prog.never_bind_of (fun _ => hleave _) _
      | some selected => exact Prog.never_bind_of (fun _ => hnever .published (by rintro _ ⟨⟩)) _
    · split
      · trivial
      · exact Prog.keeps_load_bind secluded_refl _ fun _ => trivial
  · intro valid hvalid
    rw [Bool.eq_false_iff.mpr hvalid]
    exact hleave _

/-- So has a receiver, after it has looked for a message. -/
theorem receive_critical_checks (pid : Nat) (mode : ManagedLockMode) (alloc_fails : Bool)
    (hE : ∀ m, operation_state_of m = .success → ¬ E m) :
    (receive_critical pid mode alloc_fails).Checks (fun m => ¬ E m) Secluded
      fun exit => ∃ epoch, exit = .wait epoch := by
  have hends (exit : ReceiveExit) (hexit : ∀ epoch, exit ≠ .wait epoch) :
      (Prog.ret exit : Prog Memory ReceiveExit).Checks (fun m => ¬ E m) Secluded
        fun exit => ∃ epoch, exit = .wait epoch :=
    fun ⟨epoch, hwait⟩ => hexit epoch hwait
  have hleave (status : ChannelStatus) := hends (.leave status) (by rintro _ ⟨⟩)
  unfold receive_critical
  refine Prog.checks_bind_of (fun _ => Prog.checks_bind_of (fun valid => ?_) _) _
  split
  · exact hleave _
  refine Prog.checks_bind_of (fun capacity => Prog.checks_bind_of (fun selected => ?_) _) _
  split
  · refine Prog.checks_bind_of (fun corrupt => ?_) _
    split
    · exact Prog.checks_bind_of (fun _ => hleave _) _
    split
    · exact hends .threw (by rintro _ ⟨⟩)
    · refine Prog.checks_bind_of (fun message => Prog.checks_bind_of (fun _ => ?_) _) _
      exact hends (.took _) (by rintro _ ⟨⟩)
  · refine Prog.checks_load_bind secluded_refl fun m => ?_
    by_cases hclosed : operation_state_of m = .closed
    · right
      rw [if_pos hclosed]
      exact hleave _
    by_cases hbroken : operation_state_of m = .broken
    · right
      rw [if_neg hclosed, if_pos hbroken]
      exact hleave _
    have hstate : operation_state_of m = .success := by
      unfold operation_state_of at hclosed hbroken ⊢
      split_ifs at hclosed hbroken ⊢ with hhealthy
      all_goals first | rfl | exact absurd rfl hclosed | exact absurd rfl hbroken
    refine .inl ⟨hE m hstate, ?_⟩
    rw [if_neg hclosed, if_neg hbroken]
    split
    · trivial
    · exact Prog.keeps_load_bind secluded_refl _ fun _ => trivial

/-- The critical section of a send: who leaves it to wait has missed nothing. -/
theorem send_critical_watched {message : Bytes} {mode : ManagedLockMode}
    (hE : Awaited (.send message mode) E) (hheld : v.memory.header.mutex = .held pid)
    (hawake : Awake E pid start v) :
    Safe (watching unlinks E pid start) () (fun exit v' => Awake E pid start v' ∧
      ∀ epoch, exit = .wait epoch → Informed E start epoch v') (viewed (send_critical message mode)) v := by
  have hsafe : Safe (exclusion unlinks) pid _ (send_critical message mode) v.memory :=
    (send_critical_holding message mode hheld).returns (send_critical_returns message mode _)
  have hmoves := (signals_send_critical message mode).always
  rcases hE.sought with hslot | hstate
  · apply (awake_lift hmoves hsafe hawake).mono
    rintro exit v' ⟨⟨⟨_, hfull⟩, hloaded⟩, hawake'⟩
    refine ⟨hawake', ?_⟩
    rintro epoch rfl
    obtain rfl := hloaded epoch rfl
    exact informed_of_announcing hawake'.toViewInv fun hevent =>
      absurd (hslot _ hevent) (not_hasSlot (hfull _ rfl))
  · apply (checked_lift hE.uneventful hmoves (send_critical_checks message mode hstate) hsafe hawake).mono
    rintro exit v' ⟨⟨⟨hheld', _⟩, hloaded⟩, hawake', hsheltered⟩
    refine ⟨hawake', ?_⟩
    rintro epoch rfl
    obtain rfl := hloaded epoch rfl
    exact informed_of_announcing hawake'.toViewInv fun hevent =>
      hawake'.hidden (hsheltered ⟨_, rfl⟩ hheld' hevent)

/-- The critical section of a receive. -/
theorem receive_critical_watched {mode : ManagedLockMode} (alloc_fails : Bool)
    (hE : Awaited (.receive mode) E) (hheld : v.memory.header.mutex = .held pid)
    (hawake : Awake E pid start v) :
    Safe (watching unlinks E pid start) () (fun exit v' => Awake E pid start v' ∧
      ∀ epoch, exit = .wait epoch → Informed E start epoch v')
      (viewed (receive_critical pid mode alloc_fails)) v := by
  have hsafe : Safe (exclusion unlinks) pid _ (receive_critical pid mode alloc_fails) v.memory :=
    (receive_critical_holding mode alloc_fails hheld).returns (receive_critical_returns pid mode _ _)
  have hmoves := (signals_receive_critical pid mode alloc_fails).always
  rcases hE.sought with hslot | hstate
  · apply (awake_lift hmoves hsafe hawake).mono
    rintro exit v' ⟨⟨⟨_, hempty⟩, hloaded⟩, hawake'⟩
    refine ⟨hawake', ?_⟩
    rintro epoch rfl
    obtain rfl := hloaded epoch rfl
    exact informed_of_announcing hawake'.toViewInv fun hevent =>
      absurd (hslot _ hevent) (not_hasSlot (hempty _ rfl))
  · apply (checked_lift hE.uneventful hmoves (receive_critical_checks pid mode alloc_fails hstate) hsafe
      hawake).mono
    rintro exit v' ⟨⟨⟨hheld', _⟩, hloaded⟩, hawake', hsheltered⟩
    refine ⟨hawake', ?_⟩
    rintro epoch rfl
    obtain rfl := hloaded epoch rfl
    exact informed_of_announcing hawake'.toViewInv fun hevent =>
      hawake'.hidden (hsheltered ⟨_, rfl⟩ hheld' hevent)

theorem guard_watched (mode : ManagedLockMode) (lock_expires receiving : Bool)
    (hawake : Awake E pid start v) :
    Safe (watching unlinks E pid start) () (fun status v' =>
      (status = .success → v'.memory.header.mutex = .held pid) ∧ Awake E pid start v')
      (viewed (managed_mutex_guard pid mode lock_expires receiving)) v :=
  awake_lift (signals_guard _ _ _ _).always (guard_excluded mode lock_expires receiving) hawake

/-- One pass of `send_impl`: a sender that sleeps has missed nothing. -/
theorem send_watched {message : Bytes} {mode : ManagedLockMode} (c : Circumstances)
    (hE : Awaited (.send message mode) E) (hawake : Awake E pid start v) :
    Safe (watching unlinks E pid start) () (fun _ v' => Awake E pid start v')
      (viewed (send_impl pid message mode c)) v := by
  unfold send_impl
  refine viewed_load_bind hawake fun v₁ hawake₁ => ?_
  split
  · exact hawake₁
  refine viewed_load_bind hawake₁ fun v₂ hawake₂ => ?_
  split
  · exact hawake₂
  rw [viewed_bind]
  refine (guard_watched mode c.lock_expires false hawake₂).bind ?_
  rintro status v₃ ⟨hstatus, hawake₃⟩
  split
  · refine refused_watched _ ?_ ?_ hawake₃
    · split_ifs
      · exact quiet_set_counters _
      · exact trivial
    · split_ifs
      · exact Prog.always_store (plain_set_counters _)
      · trivial
  next hsuccess =>
    rw [viewed_bind]
    refine (send_critical_watched hE (hstatus (not_not.mp hsuccess)) hawake₃).bind ?_
    rintro exit v₄ ⟨hawake₄, hinformed⟩
    cases exit with
    | leave status => exact unlock_watched trivial trivial hawake₄
    | published =>
      refine unlock_watched ?_ ?_ hawake₄
      · exact quiet_signal.bind fun _ _ => (quiet_load _).bind fun after _ => trivial
      · exact (signals_signal _).then fun _ => signals_load_bind _ fun _ => trivial
    | wait epoch =>
      refine unlock_wait_watched hE.uneventful _ _ (fun expired => ?_) (fun expired => ?_) hawake₄
        (hinformed epoch rfl)
      · split_ifs
        · exact plain_store_bind (plain_set_counters _) trivial
        · trivial
      · split_ifs
        · exact (quiet_set_counters _).bind fun _ _ => trivial
        · trivial

/-- One pass of `receive_impl`: a receiver that sleeps has missed nothing. -/
theorem receive_watched {mode : ManagedLockMode} (c : Circumstances) (hE : Awaited (.receive mode) E)
    (hawake : Awake E pid start v) :
    Safe (watching unlinks E pid start) () (fun _ v' => Awake E pid start v')
      (viewed (receive_impl pid mode c)) v := by
  unfold receive_impl
  refine viewed_load_bind hawake fun v₁ hawake₁ => ?_
  split
  · exact hawake₁
  rw [viewed_bind]
  refine (guard_watched mode c.lock_expires true hawake₁).bind ?_
  rintro status v₂ ⟨hstatus, hawake₂⟩
  split
  · refine refused_watched _ ?_ ?_ hawake₂
    · split_ifs
      · exact quiet_set_counters _
      · exact trivial
    · split_ifs
      · exact Prog.always_store (plain_set_counters _)
      · trivial
  next hsuccess =>
    rw [viewed_bind]
    refine (receive_critical_watched c.alloc_fails hE (hstatus (not_not.mp hsuccess)) hawake₂).bind ?_
    rintro exit v₃ ⟨hawake₃, hinformed⟩
    cases exit with
    | leave status => exact unlock_watched trivial trivial hawake₃
    | threw => exact unlock_watched trivial trivial hawake₃
    | took payload =>
      refine unlock_watched ?_ ?_ hawake₃
      · exact quiet_signal.bind fun _ _ => trivial
      · exact (signals_signal _).then fun _ => trivial
    | wait epoch =>
      refine unlock_wait_watched hE.uneventful _ _ (fun expired => ?_) (fun expired => ?_) hawake₃
        (hinformed epoch rfl)
      · split_ifs
        · exact plain_store_bind (plain_set_counters _) trivial
        · trivial
      · split_ifs
        · exact (quiet_set_counters _).bind fun _ _ => trivial
        · trivial

/-- One pass of any operation. -/
theorem attempt_watched (c : Circumstances) (hE : Awaited op E) (hop : op = .unlink → unlinks = true)
    (hnot : v.memory.header.mutex ≠ .held pid) (hawake : Awake E pid start v) :
    Safe (watching unlinks E pid start) () (fun _ v' => Awake E pid start v')
      (viewed (attempt pid op c)) v := by
  have hlift (hmoves : (attempt pid op c).Always Moves fun _ => True) :
      Safe (watching unlinks E pid start) () (fun _ v' => Awake E pid start v')
        (viewed (attempt pid op c)) v :=
    (awake_lift hmoves (attempt_excluded op c hop hnot) hawake).mono fun _ _ h => h.2
  cases op with
  | send message mode => exact send_watched c hE hawake
  | receive mode => exact receive_watched c hE hawake
  | close => exact hlift (signals_close pid).always
  | stats => exact hlift (signals_stats pid).always
  | unlink => exact hlift signals_unlink_mapping.always

end

end shmchan.managed
