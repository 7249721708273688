import Shmchan.Managed.Changes

open process

namespace shmchan.managed

namespace Change

theorem find_first (todo index selected selected_sequence : Nat) :
    (find_first_ready todo index selected selected_sequence).Always Change fun _ => True := by
  induction todo generalizing index selected selected_sequence with
  | zero => trivial
  | succ todo ih =>
    rw [find_first_ready]
    refine (load _).bind fun slot _ => ?_
    split_ifs
    · exact ih _ _ _
    · exact ih _ _ _

/-- The FREE store appends the message to those taken. -/
theorem release (pid selected : Nat) (message : Message) :
    (release_slot pid selected message).Always Change fun _ => True := by
  unfold release_slot
  refine Prog.Always.bind (reset_slot (fun m => ?_) selected) fun _ _ => ?_
  · exact ⟨rfl, List.prefix_append _ _, rfl, .inl rfl, .inl rfl⟩
  · exact store_bind (fun m => of_same rfl rfl rfl rfl rfl) <|
      store_bind (fun m => of_same rfl rfl rfl rfl rfl) <| store_bind (set_counters _) <|
      Prog.always_store (set_counters _)

theorem receive_section (pid : Nat) (mode : ManagedLockMode) (alloc_fails : Bool) :
    (receive_critical pid mode alloc_fails).Always Change fun _ => True := by
  unfold receive_critical
  refine store_bind (fun m => of_same rfl rfl rfl rfl rfl) <| validate.bind fun valid _ => ?_
  split
  · trivial
  refine (load _).bind fun capacity _ => (find_first _ _ _ _).bind fun selected _ => ?_
  split
  · refine (load _).bind fun corrupt _ => ?_
    split
    · exact (mark_broken _).bind fun _ _ => trivial
    split
    · trivial
    · exact (load _).bind fun message _ => (release _ _ _).bind fun _ _ => trivial
  · refine (load _).bind fun locked_state _ => ?_
    split
    · trivial
    split
    · trivial
    split
    · trivial
    · exact (load _).bind fun _ _ => trivial

theorem wait (pid epoch : Nat) (expires : Bool)
    (waiting : (Nat → Nat) → ManagedCounters → ManagedCounters) :
    (wait_for_event pid epoch expires waiting).Always Change fun _ => True := by
  have hsleep : (futex_wait_until pid epoch expires).Always Change fun _ => True := by
    refine ⟨fun m => ?_, fun m => ?_⟩
    · by_cases hepoch : m.header.event_epoch = epoch
      · simp only [hepoch, if_true]
        exact of_same rfl rfl rfl rfl rfl
      · simp only [hepoch, if_false]
        exact refl m
    · by_cases hepoch : m.header.event_epoch = epoch
      · simp only [hepoch, decide_true]
        exact ⟨fun _ => of_same rfl rfl rfl rfl rfl, fun _ => trivial⟩
      · simp only [hepoch, decide_false]
        exact trivial
  unfold wait_for_event
  exact store_bind (set_counters _) <| hsleep.bind fun _ _ => store_bind (set_counters _) trivial

/-- Every operation but `send` and `close` only makes such changes. -/
theorem attempt (pid : Nat) (op : Op) (c : Circumstances) (hop : op ≠ .close)
    (hsend : ∀ message mode, op ≠ .send message mode) :
    (managed.attempt pid op c).Always Change fun _ => True := by
  cases op with
  | send message mode => exact absurd rfl (hsend message mode)
  | receive mode =>
    unfold managed.attempt receive_impl
    refine (load _).bind fun before_lock _ => ?_
    split
    · trivial
    refine (guard _ _ _ _).bind fun status _ => ?_
    split
    · refine Prog.Always.bind (P := fun _ => True) ?_ fun _ _ => (unlock pid).bind fun _ _ => trivial
      split
      · exact Prog.always_store (set_counters _)
      · trivial
    refine (receive_section _ _ _).bind fun exit _ => (unlock pid).bind fun _ _ => ?_
    cases exit with
    | leave status => trivial
    | threw => trivial
    | took payload => exact signal.bind fun _ _ => trivial
    | wait epoch =>
      refine (wait _ _ _ _).bind fun expired _ => ?_
      split
      · exact store_bind (set_counters _) trivial
      · trivial
  | close => exact absurd rfl hop
  | stats =>
    unfold managed.attempt stats
    refine (load _).bind fun header _ => (guard _ _ _ _).bind fun status _ => ?_
    split
    · exact (load _).bind fun _ _ => (unlock pid).bind fun _ _ => trivial
    · exact (load _).bind fun _ _ => (unlock pid).bind fun _ _ => trivial
  | unlink =>
    unfold managed.attempt unlink_mapping
    refine store_bind (fun m => ?_) (signal.bind fun _ _ => trivial)
    exact ⟨rfl, List.prefix_rfl, rfl, .inr (.inr rfl), .inl rfl⟩

end Change

/-- The store of `close`. -/
def close_store (m : Memory) : Memory :=
  m.set_header fun h => { h with state := ManagedChannelState.closed.word }

/-- The READY store of a send. -/
def ready_store (selected : Nat) (message : Message) (m : Memory) : Memory :=
  (m.set_slot selected fun slot => { slot with state := ManagedSlotState.ready.word }).set_history
    fun history => { history with published := history.published ++ [message] }

section

variable {G : Memory → Memory → Prop}

theorem publish_always (hchange : ∀ m m', Change m m' → G m m')
    (hready : ∀ selected message m, G m (ready_store selected message m)) (selected capacity : Nat)
    (message : Bytes) : (publish_message selected capacity message).Always G fun _ => True := by
  have hweaken {α : Type} {p : Prog Memory α} (hp : p.Always Change fun _ => True) :
      p.Always G fun _ => True := hp.mono hchange fun _ h => h
  unfold publish_message
  refine (hweaken (Change.reserve _)).bind fun sequence _ => (hweaken (Change.copy _ _ _)).bind fun _ _ => ?_
  refine (hweaken (Prog.always_store (Change.set_slot _ _))).bind fun _ _ => ?_
  exact (Prog.always_store (hready selected (sequence, message))).bind fun _ _ =>
    hweaken (Change.count _ _ _)

theorem send_critical_always (hchange : ∀ m m', Change m m' → G m m')
    (hready : ∀ selected message m, G m (ready_store selected message m)) (message : Bytes)
    (mode : ManagedLockMode) : (send_critical message mode).Always G fun _ => True := by
  have hweaken {α : Type} {p : Prog Memory α} (hp : p.Always Change fun _ => True) :
      p.Always G fun _ => True := hp.mono hchange fun _ h => h
  unfold send_critical
  refine (hweaken (Change.load _)).bind fun locked_state _ => ?_
  split
  · trivial
  refine (hweaken Change.validate).bind fun valid _ => ?_
  split
  · trivial
  refine (hweaken (Change.load _)).bind fun free_slots _ => ?_
  split
  · refine (hweaken (Change.load _)).bind fun next_sequence _ => ?_
    split
    · exact (hweaken (Change.mark_broken _)).bind fun _ _ => trivial
    refine (hweaken (Change.load _)).bind fun capacity _ => (hweaken (Change.load _)).bind fun start _ => ?_
    refine (hweaken (Change.find_free _ _ _ _)).bind fun found _ => ?_
    cases found with
    | none => exact (hweaken (Change.mark_broken _)).bind fun _ _ => trivial
    | some selected => exact (publish_always hchange hready _ _ _).bind fun _ _ => trivial
  · split
    · trivial
    · exact (hweaken (Change.load _)).bind fun _ _ => trivial

/-- What every change and the READY store satisfy, every action of every
    operation but `close` satisfies. -/
theorem attempt_always_of_ne (hchange : ∀ m m', Change m m' → G m m')
    (hready : ∀ selected message m, G m (ready_store selected message m)) (pid : Nat) (op : Op)
    (c : Circumstances) (hop : op ≠ .close) : (attempt pid op c).Always G fun _ => True := by
  have hweaken {α : Type} {p : Prog Memory α} (hp : p.Always Change fun _ => True) :
      p.Always G fun _ => True := hp.mono hchange fun _ h => h
  cases op with
  | send message mode =>
    unfold attempt send_impl
    refine (hweaken (Change.load _)).bind fun max_message_size _ => ?_
    split
    · trivial
    refine (hweaken (Change.load _)).bind fun before_lock _ => ?_
    split
    · trivial
    refine (hweaken (Change.guard _ _ _ _)).bind fun status _ => ?_
    split
    · refine Prog.Always.bind (P := fun _ => True) ?_ fun _ _ =>
        (hweaken (Change.unlock pid)).bind fun _ _ => trivial
      split
      · exact hweaken (Prog.always_store (Change.set_counters _))
      · trivial
    refine (send_critical_always hchange hready _ _).bind fun exit _ =>
      (hweaken (Change.unlock pid)).bind fun _ _ => ?_
    cases exit with
    | leave status => trivial
    | published => exact (hweaken Change.signal).bind fun _ _ => (hweaken (Change.load _)).bind fun _ _ => trivial
    | wait epoch =>
      refine (hweaken (Change.wait _ _ _ _)).bind fun expired _ => ?_
      split
      · exact (hweaken (Prog.always_store (Change.set_counters _))).bind fun _ _ => trivial
      · trivial
  | close => exact absurd rfl hop
  | receive mode => exact hweaken (Change.attempt pid _ c hop fun _ _ => Op.noConfusion)
  | stats => exact hweaken (Change.attempt pid _ c hop fun _ _ => Op.noConfusion)
  | unlink => exact hweaken (Change.attempt pid _ c hop fun _ _ => Op.noConfusion)

/-- What every change, the READY store and the store of `close` satisfy, every
    action of every operation satisfies. -/
theorem attempt_always (hchange : ∀ m m', Change m m' → G m m')
    (hready : ∀ selected message m, G m (ready_store selected message m))
    (hclose : ∀ m, G m (close_store m)) (pid : Nat) (op : Op) (c : Circumstances) :
    (attempt pid op c).Always G fun _ => True := by
  have hweaken {α : Type} {p : Prog Memory α} (hp : p.Always Change fun _ => True) :
      p.Always G fun _ => True := hp.mono hchange fun _ h => h
  by_cases hop : op = .close
  · subst hop
    unfold attempt close close_critical
    refine (hweaken (Change.guard _ _ _ _)).bind fun status _ => ?_
    split
    · exact (hweaken (Change.unlock pid)).bind fun _ _ => trivial
    refine Prog.Always.bind (P := fun _ => True) ?_ fun stored _ =>
      (hweaken (Change.unlock pid)).bind fun _ _ => ?_
    · refine (hweaken (Change.load _)).bind fun current _ => ?_
      split
      · trivial
      · exact (Prog.always_store hclose).bind fun _ _ => trivial
    · split
      · exact (hweaken Change.signal).bind fun _ _ => trivial
      · trivial
  · exact attempt_always_of_ne hchange hready pid op c hop

end

/-- What every change, the store of `close` and every death satisfy, every run
    satisfies. -/
theorem reachable_always {G : Memory → Memory → Prop} (hrefl : ∀ m, G m m)
    (htrans : ∀ m₁ m₂ m₃, G m₁ m₂ → G m₂ m₃ → G m₁ m₃) (hchange : ∀ m m', Change m m' → G m m')
    (hready : ∀ selected message m, G m (ready_store selected message m))
    (hclose : ∀ m, G m (close_store m)) (hdeath : ∀ pid m, G m (on_death pid m)) {unlinks : Bool}
    {may_die : Nat → Memory → Prop} {init c c' : Config Memory Session Nat}
    (hinit : ∀ pid, ∃ session, init.procs pid = .ret session)
    (hreach : Reachable (discipline unlinks may_die) init c)
    (hlater : Reachable (discipline unlinks may_die) c c') : G c.shared c'.shared := by
  have hstart (pid : Nat) (session : Session) (program : Prog Memory Session)
      (h : (discipline unlinks may_die).starts pid session program) :
      program.Always G fun _ => True := by
    obtain ⟨op, circumstances, _, _, _, rfl⟩ := h
    exact (attempt_always hchange hready hclose pid op circumstances).bind fun _ _ => trivial
  have hprocs (pid : Nat) : (init.procs pid).Always G fun _ => True := by
    obtain ⟨session, hsession⟩ := hinit pid
    rw [hsession]
    trivial
  have hc := (hreach.always hrefl htrans hstart hdeath hprocs).2
  exact (hlater.always hrefl htrans hstart hdeath hc).1

/-- A death leaves everything but the mutex, its holder's entry and the waiters. -/
theorem on_death_same (pid : Nat) (m : Memory) :
    (on_death pid m).history.published = m.history.published ∧
      (on_death pid m).history.taken = m.history.taken ∧
      (on_death pid m).header.max_message_size = m.header.max_message_size ∧
      (on_death pid m).header.state = m.header.state ∧
      (on_death pid m).header.event_epoch = m.header.event_epoch := by
  by_cases hheld : m.header.mutex = .held pid
  · simp only [on_death, hheld, if_true]
    exact ⟨rfl, rfl, rfl, rfl, rfl⟩
  · have hdead : on_death pid m = { m with waiters := m.waiters.filter (· ≠ pid) } := by
      simp only [on_death, hheld, if_false]
    rw [hdead]
    exact ⟨rfl, rfl, rfl, rfl, rfl⟩

/-- In every run the published and the taken messages only grow. -/
theorem reachable_history {unlinks : Bool} {may_die : Nat → Memory → Prop}
    {init c c' : Config Memory Session Nat} (hinit : ∀ pid, ∃ session, init.procs pid = .ret session)
    (hreach : Reachable (discipline unlinks may_die) init c)
    (hlater : Reachable (discipline unlinks may_die) c c') : HistoryGrows c.shared c'.shared := by
  refine reachable_always HistoryGrows.refl HistoryGrows.trans (fun _ _ h => h.historyGrows)
    (fun _ _ _ => ⟨List.prefix_append _ _, List.prefix_rfl⟩) (fun _ => ⟨List.prefix_rfl, List.prefix_rfl⟩) (fun pid m => ?_) hinit hreach hlater
  obtain ⟨hpublished, htaken, _⟩ := on_death_same pid m
  exact ⟨by rw [hpublished], by rw [htaken]⟩

end shmchan.managed
