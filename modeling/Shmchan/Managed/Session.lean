import Shmchan.Managed.Send.Critical
import Shmchan.Managed.Receive.Critical

open process

namespace shmchan.managed

/-- A program whose every action is within interference needs no mutex. -/
def Quiet {α : Type} (unlinks : Bool) (P : α → Prop) (p : Prog Memory α) : Prop :=
  p.Always (Interference unlinks) P

section

variable {unlinks : Bool} {pid : Nat} {s : Memory} {α β : Type} {P : α → Prop}

theorem quiet_load (f : Memory → α) : Quiet unlinks (fun _ => True) (.load f) :=
  Prog.always_load (Interference.refl unlinks) f

theorem quiet_set_counters (f : ManagedCounters → ManagedCounters) :
    Quiet unlinks (fun _ => True) (.store fun m => m.set_counters f) :=
  Prog.always_store fun _ => ⟨_, _, _, _, .inl rfl, rfl⟩

theorem Quiet.bind {Q : β → Prop} {p : Prog Memory α} {f : α → Prog Memory β}
    (hp : Quiet unlinks P p) (hf : ∀ a, P a → Quiet unlinks Q (f a)) : Quiet unlinks Q (p >>= f) :=
  Prog.Always.bind hp hf

/-- A quiet program is safe for every process, whatever it relies on. -/
theorem Quiet.safe {p : Prog Memory α} (hp : Quiet unlinks P p) {m : Memory}
    (hm : Rely unlinks pid s m) :
    Safe (reliance unlinks) pid (fun a m' => P a ∧ Rely unlinks pid s m') p m := by
  induction p generalizing m with
  | ret a => exact ⟨hp, hm⟩
  | act enabled update next ih =>
    exact Safe.outside hp.1 fun m' hm' _ =>
      ih m' (hp.2 m') ((hm.trans hm').trans ((hp.1 m').rely pid))

theorem quiet_signal : Quiet unlinks (fun _ => True) signal_managed_event :=
  ⟨fun _ => ⟨_, _, _, _, .inl rfl, rfl⟩, fun _ => ⟨fun _ => ⟨_, _, _, _, .inl rfl, rfl⟩, fun _ => trivial⟩⟩

theorem quiet_futex_wait (epoch : Nat) (expires : Bool) :
    Quiet unlinks (fun _ => True) (futex_wait_until pid epoch expires) := by
  refine ⟨fun m => ?_, fun m => ?_⟩
  · by_cases hepoch : m.header.event_epoch = epoch
    · simp only [hepoch, if_true]
      exact ⟨_, _, _, _, .inl rfl, rfl⟩
    · simp only [hepoch, if_false]
      exact Interference.refl unlinks m
  · by_cases hepoch : m.header.event_epoch = epoch
    · simp only [hepoch, decide_true]
      exact ⟨fun _ => ⟨_, _, _, _, .inl rfl, rfl⟩, fun _ => trivial⟩
    · simp only [hepoch, decide_false]
      exact trivial

theorem quiet_wait_for_event (epoch : Nat) (expires : Bool)
    (waiting : (Nat → Nat) → ManagedCounters → ManagedCounters) :
    Quiet unlinks (fun _ => True) (wait_for_event pid epoch expires waiting) :=
  (quiet_set_counters _).bind fun _ _ => (quiet_futex_wait _ _).bind fun _ _ =>
    (quiet_set_counters _).bind fun _ _ => trivial

end

/-- The payloads a pass hands to its caller. -/
def Outcome.payloads : Outcome → List Bytes
  | .received _ (some payload) => [payload]
  | _ => []

/-- What a pass of an operation leaves behind: the mutex is not its own, and
    exactly the payloads it hands out were taken in its name. -/
def PassEnd (pid : Nat) (s : Memory) (outcome : Outcome) (m : Memory) : Prop :=
  m.header.mutex ≠ .held pid ∧ m.taken_by pid = s.taken_by pid ++ outcome.payloads

section

variable {unlinks : Bool} {pid : Nat} {s m : Memory}

/-- A quiet rest of a pass that hands out payloads already taken. -/
theorem Quiet.passEnd {p : Prog Memory Outcome} {payloads : List Bytes}
    (hp : Quiet unlinks (fun outcome => outcome.payloads = payloads) p)
    (hnot : m.header.mutex ≠ .held pid) (htaken : m.taken_by pid = s.taken_by pid ++ payloads) :
    Safe (reliance unlinks) pid (PassEnd pid s) p m := by
  refine (hp.safe (Rely.refl unlinks pid m)).mono ?_
  rintro outcome m' ⟨rfl, hrely⟩
  exact ⟨mt hrely.mutex.mp hnot, hrely.taken.trans htaken⟩

/-- The rest of a pass from its unlock on, when the mutex is its own. -/
theorem unlock_passEnd {k : Unit → Prog Memory Outcome} (payloads : List Bytes)
    (hleaving : Leaving pid m) (hk : Quiet unlinks (fun outcome => outcome.payloads = payloads) (k ()))
    (htaken : m.taken_by pid = s.taken_by pid ++ payloads) :
    Safe (reliance unlinks) pid (PassEnd pid s) (guard_unlock pid >>= k) m := by
  have hunlock : Safe (reliance unlinks) pid
      (fun _ m' => m'.header.mutex ≠ .held pid ∧ m'.taken_by pid = s.taken_by pid ++ payloads)
      (guard_unlock pid) m := by
    refine guard_unlock_safe (fun m' hE => ⟨RobustMutex.noConfusion, ?_⟩) hleaving.mutex hleaving.settled
      hleaving.sound
    exact (hE.taken_by pid).trans htaken
  refine hunlock.bind ?_
  rintro _ m' ⟨hnot, htaken'⟩
  exact hk.passEnd hnot htaken'

/-- The rest of a pass whose guard does not own the mutex. -/
theorem refused_passEnd (count : Prog Memory Unit) {outcome : Outcome}
    (hcount : Quiet unlinks (fun _ => True) count) (houtcome : outcome.payloads = [])
    (hnot : m.header.mutex ≠ .held pid) (htaken : m.taken_by pid = s.taken_by pid) :
    Safe (reliance unlinks) pid (PassEnd pid s)
      (count >>= fun _ => guard_unlock pid >>= fun _ => .ret outcome) m := by
  refine (hcount.safe (Rely.refl unlinks pid m)).bind ?_
  rintro _ m₁ ⟨_, hrely₁⟩
  have hunlock : Safe (reliance unlinks) pid (fun _ m' => Rely unlinks pid m m') (guard_unlock pid) m₁ :=
    guard_unlock_safe_of_not_held (fun m₂ hrely₂ => hrely₁.trans hrely₂) (mt hrely₁.mutex.mp hnot)
  refine hunlock.bind fun _ m₂ hrely₂ => ⟨mt hrely₂.mutex.mp hnot, ?_⟩
  rw [houtcome, List.append_nil]
  exact hrely₂.taken.trans htaken

/-- The early return of a pass before its guard. -/
theorem early_passEnd {outcome : Outcome} (houtcome : outcome.payloads = [])
    (hrely : Rely unlinks pid s m) (hnot : s.header.mutex ≠ .held pid) :
    Safe (reliance unlinks) pid (PassEnd pid s) (.ret outcome) m := by
  refine ⟨mt hrely.mutex.mp hnot, ?_⟩
  rw [houtcome, List.append_nil]
  exact hrely.taken

theorem send_impl_safe (message : Bytes) (mode : ManagedLockMode) (c : Circumstances)
    (hnot : s.header.mutex ≠ .held pid) :
    Safe (reliance unlinks) pid (PassEnd pid s) (send_impl pid message mode c) s := by
  unfold send_impl
  refine Safe.load_bind fun m₁ hrely₁ _ => ?_
  by_cases hlarge : message.length > m₁.header.max_message_size
  · rw [if_pos hlarge]
    exact early_passEnd rfl hrely₁ hnot
  rw [if_neg hlarge]
  refine Safe.load_bind fun m₂ hrely₂ _ => ?_
  have hrely := hrely₁.trans hrely₂
  by_cases hstate : operation_state_of m₂ = .success
  case neg =>
    rw [if_pos hstate]
    exact early_passEnd rfl hrely hnot
  rw [if_neg (not_not.mpr hstate)]
  refine (managed_mutex_guard_safe false mode c.lock_expires
    (mt hrely.mutex.mp hnot)).bind ?_
  rintro status m₃ ⟨hkept₃, ⟨rfl, howned⟩ | ⟨hstatus, hnot₃⟩⟩
  · rw [if_neg (by decide)]
    have hkept := hrely.toKept.trans hkept₃
    have hlength : message.length ≤ m₃.header.max_message_size := by
      rw [hkept₃.max, hrely₂.max]
      omega
    refine (send_critical_safe mode howned hlength).bind ?_
    rintro exit m₄ ⟨htaken, howned₄, _⟩
    refine unlock_passEnd [] howned₄.leaving ?_
      ((htaken.trans hkept.taken).trans (List.append_nil _).symm)
    cases exit with
    | leave status => exact rfl
    | published =>
      exact quiet_signal.bind fun _ _ => (quiet_load _).bind fun after _ => rfl
    | wait epoch =>
      refine (quiet_wait_for_event _ _ _).bind fun expired _ => ?_
      split_ifs
      · exact (quiet_set_counters _).bind fun _ _ => rfl
      · exact rfl
  · rw [if_pos (by rcases hstatus with rfl | rfl <;> decide)]
    refine refused_passEnd _ ?_ rfl hnot₃ (hrely.toKept.trans hkept₃).taken
    split_ifs
    · exact quiet_set_counters _
    · exact trivial

theorem receive_impl_safe (mode : ManagedLockMode) (c : Circumstances)
    (hnot : s.header.mutex ≠ .held pid) :
    Safe (reliance unlinks) pid (PassEnd pid s) (receive_impl pid mode c) s := by
  unfold receive_impl
  refine Safe.load_bind fun m₁ hrely _ => ?_
  by_cases hstate : operation_state_of m₁ = .broken
  · rw [if_pos hstate]
    exact early_passEnd rfl hrely hnot
  rw [if_neg hstate]
  refine (managed_mutex_guard_safe true mode c.lock_expires
    (mt hrely.mutex.mp hnot)).bind ?_
  rintro status m₂ ⟨hkept₂, ⟨rfl, howned⟩ | ⟨hstatus, hnot₂⟩⟩
  · rw [if_neg (by decide)]
    have hkept := hrely.toKept.trans hkept₂
    refine (receive_critical_safe mode c.alloc_fails howned).bind ?_
    rintro exit m₃ ⟨htaken, hleaving, _⟩
    rw [hkept.taken] at htaken
    refine unlock_passEnd _ hleaving ?_ htaken
    cases exit with
    | leave status => exact rfl
    | threw => exact rfl
    | took payload => exact quiet_signal.bind fun _ _ => rfl
    | wait epoch =>
      refine (quiet_wait_for_event _ _ _).bind fun expired _ => ?_
      split_ifs
      · exact (quiet_set_counters _).bind fun _ _ => rfl
      · exact rfl
  · rw [if_pos (by rcases hstatus with rfl | rfl <;> decide)]
    refine refused_passEnd _ ?_ rfl hnot₂ (hrely.toKept.trans hkept₂).taken
    split_ifs
    · exact quiet_set_counters _
    · exact trivial

/-- The critical section of `close` under the lock. -/
theorem close_critical_safe (howned : Owned pid false s) :
    Safe (reliance unlinks) pid (fun _ m => Owned pid false m ∧ Kept pid s m) close_critical s := by
  unfold close_critical
  refine howned.load_bind fun m₁ hE₁ hinv₁ howned₁ => ?_
  split_ifs with hstate
  · exact ⟨howned₁, hE₁.kept pid⟩
  · intro m₂ hrely₂ (hinv₂ : Inv unlinks m₂) _
    have hE₂ := hE₁.trans (hrely₂.held howned₁.mutex)
    have howned₂ := howned.interference hE₂
    have hsame : SameQueue m₂ (m₂.set_header fun h =>
        { h with state := ManagedChannelState.closed.word }) := ⟨rfl, rfl, rfl, rfl, rfl, rfl, rfl⟩
    have howned₃ := hsame.owned rfl rfl rfl rfl howned₂
    refine ⟨howned₃.toEntered.inv hinv₂ (hsame.configured hinv₂.configured) rfl rfl (.inr (.inl rfl)),
      fun other hother => ⟨⟨rfl, rfl⟩, Iff.rfl, fun hheld => ?_⟩, howned₃,
      (hE₂.kept pid).taken, (hE₂.kept pid).max⟩
    rw [howned₂.mutex] at hheld
    cases hheld
    exact absurd rfl hother

theorem close_safe (hnot : s.header.mutex ≠ .held pid) :
    Safe (reliance unlinks) pid (PassEnd pid s) (close pid) s := by
  unfold close
  refine (managed_mutex_guard_safe false .blocking false hnot).bind ?_
  rintro status m₁ ⟨hkept₁, ⟨rfl, howned⟩ | ⟨hstatus, hnot₁⟩⟩
  · rw [if_neg (by decide)]
    refine (close_critical_safe howned).bind ?_
    rintro stored m₂ ⟨howned₂, hkept₂⟩
    refine unlock_passEnd [] howned₂.leaving ?_
      ((hkept₁.trans hkept₂).taken.trans (List.append_nil _).symm)
    split_ifs
    · exact quiet_signal.bind fun _ _ => rfl
    · exact rfl
  · rw [if_pos (by rcases hstatus with rfl | rfl <;> decide)]
    exact refused_passEnd (.ret ()) trivial rfl hnot₁ hkept₁.taken

theorem stats_safe (hnot : s.header.mutex ≠ .held pid) :
    Safe (reliance unlinks) pid (PassEnd pid s) (stats pid) s := by
  unfold stats
  refine Safe.load_bind fun m₁ hrely _ => ?_
  refine (managed_mutex_guard_safe false .blocking false
    (mt hrely.mutex.mp hnot)).bind ?_
  rintro status m₂ ⟨hkept₂, ⟨rfl, howned⟩ | ⟨hstatus, hnot₂⟩⟩
  · rw [if_pos rfl]
    refine howned.load_bind fun m₃ hE₃ _ howned₃ => ?_
    refine unlock_passEnd [] howned₃.leaving rfl ?_
    rw [List.append_nil]
    exact ((hrely.toKept.trans hkept₂).trans (hE₃.kept pid)).taken
  · rw [if_neg (by rcases hstatus with rfl | rfl <;> decide)]
    refine Safe.load_bind fun m₃ hrely₃ _ => ?_
    exact refused_passEnd (.ret ()) trivial rfl (mt hrely₃.mutex.mp hnot₂)
      ((hrely.toKept.trans hkept₂).trans hrely₃.toKept).taken

/-- `unlink` needs no mutex. -/
theorem quiet_unlink_mapping :
    Quiet true (fun outcome => outcome.payloads = []) unlink_mapping := by
  refine Quiet.bind (P := fun _ => True) ⟨fun m => ?_, fun _ => trivial⟩ fun _ _ =>
    quiet_signal.bind fun _ _ => rfl
  exact ⟨_, _, _, _, .inr ⟨rfl, rfl⟩, rfl⟩

/-- One pass of any operation. -/
theorem attempt_safe (op : Op) (c : Circumstances) (hop : op = .unlink → unlinks = true)
    (hnot : s.header.mutex ≠ .held pid) :
    Safe (reliance unlinks) pid (PassEnd pid s) (attempt pid op c) s := by
  cases op with
  | send message mode => exact send_impl_safe message mode c hnot
  | receive mode => exact receive_impl_safe mode c hnot
  | close => exact close_safe hnot
  | stats => exact stats_safe hnot
  | unlink =>
    obtain rfl := hop rfl
    exact quiet_unlink_mapping.passEnd hnot (List.append_nil _).symm

end

end shmchan.managed
