import Shmchan.Managed.Waits

open process

namespace shmchan.managed

/-- A process in the middle of a pass, or between two. -/
structure Watched (unlinks : Bool) (E : Memory → Prop) (pid start : Nat) (v : View)
    (p : Prog Memory Session) : Prop where
  inv : ViewInv E pid start v
  safe : Safe (watching unlinks E pid start) () (fun _ v' => Awake E pid start v') (viewed p) v

/-- The channel as `pid` sees it, at a date, with somebody else's duties. -/
def view (c : Config Memory Session Nat) (pid date : Nat) : View :=
  ⟨c.shared, date, Owed c pid announcement, Owed c pid [Wakes], False⟩

/-- The next date. -/
def tick (m m' : Memory) : Nat := if m'.header.event_epoch = m.header.event_epoch then 0 else 1

section

variable {unlinks : Bool} {E : Memory → Prop} {op : Op} {pid other start date : Nat} {v v' : View}
  {p : Prog Memory Session} {m m' : Memory}

theorem Stirs.refl (pid : Nat) (m : Memory) : Stirs pid m m := ⟨.inl rfl, fun _ _ => id⟩

theorem Uneventful.refl (m : Memory) : Uneventful m m := ⟨rfl, fun _ => .inl rfl, rfl⟩

theorem on_death_waiters (pid : Nat) (m : Memory) :
    (on_death pid m).waiters = m.waiters.filter (· ≠ pid) := by
  unfold on_death
  split_ifs
  · rfl
  · rfl

/-- A death makes no event and sends nobody to sleep. -/
theorem on_death_stirs (pid : Nat) (m : Memory) :
    Stirs pid m (on_death pid m) ∧ Uneventful m (on_death pid m) := by
  by_cases hheld : m.header.mutex = .held pid
  · simp only [on_death, hheld, if_true]
    exact ⟨⟨.inl rfl, fun _ _ hmem => (List.mem_filter.mp hmem).1⟩, ⟨rfl, fun _ => .inl rfl, rfl⟩⟩
  · simp only [on_death, hheld, if_false]
    exact ⟨⟨.inl rfl, fun _ _ hmem => (List.mem_filter.mp hmem).1⟩, ⟨rfl, fun _ => .inl rfl, rfl⟩⟩

theorem Watched.turn (h : Watched unlinks E pid start v p) (hturn : Turn unlinks E pid v v')
    (hinv : Sequenced v'.memory)
    (hdated : v'.memory.header.event_epoch % 2 ^ 32 = v'.date % 2 ^ 32) :
    Watched unlinks E pid start v' p := by
  have hview := h.inv.turn hturn hinv hdated
  have hsingle : Relation.ReflTransGen (Turn unlinks E pid) v v' := .single hturn
  exact ⟨hview, h.safe.interfere (R := watching unlinks E pid start) (fun _ _ _ => .trans)
    (fun _ => awake_stable hsingle hview) hsingle⟩

theorem Watched.own {enabled : Memory → Bool} {update : Memory → Memory}
    {next : Memory → Prog Memory Session} (h : Watched unlinks E pid start v (.act enabled update next))
    (henabled : enabled v.memory = true) : Watched unlinks E pid start (v.store update) (next v.memory) := by
  obtain ⟨hinv, _, hnext⟩ := h.safe v .refl h.inv henabled
  exact ⟨hinv, hnext⟩

/-- A pass starts at the present date. -/
theorem watched_pass (c : Circumstances) (received : List Bytes) (hE : Awaited op E)
    (hop : op = .unlink → unlinks = true)
    (hinv : Sequenced v.memory) (hdated : v.memory.header.event_epoch % 2 ^ 32 = v.date % 2 ^ 32)
    (hcalled : v.announcing → v.waking) (hhidden : v.covert → v.announcing)
    (hnot : v.memory.header.mutex ≠ .held pid) (hawake : pid ∉ v.memory.waiters) :
    Watched unlinks E pid v.date v (pass received (attempt pid op c)) := by
  have hview : ViewInv E pid v.date v :=
    ⟨hinv, hdated, le_rfl, hcalled, hhidden, fun hasleep => absurd hasleep hawake⟩
  refine ⟨hview, ?_⟩
  rw [pass, viewed_bind]
  exact (attempt_watched c hE hop hnot ⟨hview, hawake⟩).bind fun _ _ h => h

/-- A step of another process, for somebody who counts on no announcement. -/
theorem turn_unannounced (hrely : Excluded unlinks pid m m') (hstirs : Stirs other m m')
    (hother : pid ≠ other) :
    Turn unlinks E pid ⟨m, date, True, True, True⟩ ⟨m', date + tick m m', True, True, True⟩ where
  rely := hrely
  event _ := .inr trivial
  announcing _ _ := .inl trivial
  called := id
  waking _ _ := .inl trivial
  hidden := id
  entered _ _ := .inr trivial
  covert _ _ _ := trivial
  sleeper := hstirs.sleepers pid hother
  date := Nat.le_add_right _ _

end

section

variable {unlinks : Bool} {may_die : Nat → Memory → Prop} {options : ManagedChannelOptions}
  {layout : ManagedLayout} {c c' : Config Memory Session Nat} {pid other : Nat}

/-- Every program of a run announces every event that it makes. -/
theorem reachable_signals (hreach : Reachable (discipline unlinks may_die) (initial options layout) c)
    (pid : Nat) : SignalsAs pid (fun _ => False) (c.procs pid) := by
  have hinit (pid : Nat) : SignalsAs pid (fun _ => False) ((initial options layout).procs pid) := trivial
  refine Reachable.heralds (fun pid result program hstart => ?_) hinit hreach pid
  obtain ⟨op, circumstances, _, _, _, rfl⟩ := hstart
  exact signals_pass pid _ op circumstances

/-- What a live process does to the others, and what it owes them afterwards. -/
theorem goes_stirs (hsignals : SignalsAs other (fun _ => False) (c.procs other))
    (hgoes : Goes (discipline unlinks may_die) other c c') :
    Stirs other c.shared c'.shared ∧ (Uneventful c.shared c'.shared ∨
      (c'.procs other).Owes (fun _ => False) announcement) := by
  cases hgoes with
  | run hprog _ =>
    rw [hprog] at hsignals
    obtain ⟨hstirs, hevent, _⟩ := hsignals
    refine ⟨hstirs _, hevent.imp (fun h => h _) fun h => ?_⟩
    simp only [Function.update_self]
    exact h _
  | start _ _ => exact ⟨Stirs.refl _ _, .inl (Uneventful.refl _)⟩

theorem awaited_never (op : Op) : Awaited op fun _ => False := ⟨fun _ _ _ => id, .inr fun _ _ => id⟩

/-- Nobody sleeps between two passes. -/
theorem reachable_watched (hreach : Reachable (discipline unlinks may_die) (initial options layout) c) :
    ∀ pid, ∃ start date,
      Watched unlinks (fun _ => False) pid start ⟨c.shared, date, True, True, True⟩ (c.procs pid) := by
  induction hreach with
  | refl =>
    intro pid
    have hinit : Reachable (discipline unlinks may_die) (initial options layout) _ := .refl
    obtain ⟨hinv, _⟩ := reachable_excluded hinit
    have hview : ViewInv (fun _ => False) pid 0
        ⟨initialized options layout, (initialized options layout).header.event_epoch, True, True, True⟩ :=
      ⟨hinv, rfl, Nat.zero_le _, id, id, fun _ _ _ => trivial⟩
    have hawake : pid ∉ (initialized options layout).waiters := by
      rw [initialized_eq]
      exact List.not_mem_nil
    exact ⟨0, _, hview, hview, hawake⟩
  | @tail c c' hsteps hstep ih =>
    obtain ⟨hinv, hsafe⟩ := reachable_excluded hsteps
    obtain ⟨hinv', _⟩ := reachable_excluded (hsteps.tail hstep)
    have hothers {acting : Nat} (hrely : ∀ other, other ≠ acting → Excluded unlinks other c.shared c'.shared)
        (hstirs : Stirs acting c.shared c'.shared) {pid : Nat} (hne : pid ≠ acting)
        (hprog : c'.procs pid = c.procs pid) : ∃ start date,
          Watched unlinks (fun _ => False) pid start ⟨c'.shared, date, True, True, True⟩ (c'.procs pid) := by
      obtain ⟨start, date, hwatched⟩ := ih pid
      rw [hprog]
      exact ⟨start, _, hwatched.turn (turn_unannounced (hrely pid hne) hstirs hne) hinv'
        (dated_step hwatched.inv.dated hstirs.epoch)⟩
    have hgoing {acting : Nat} (hgoes : Goes (discipline unlinks may_die) acting c c') {pid : Nat}
        (hne : pid ≠ acting) : ∃ start date,
          Watched unlinks (fun _ => False) pid start ⟨c'.shared, date, True, True, True⟩ (c'.procs pid) :=
      hothers (fun other hother => discipline_excluded.rely_goes hinv (hsafe acting) hgoes hother)
        (goes_stirs (reachable_signals hsteps acting) hgoes).1 hne (hgoes.procs_of_ne hne)
    intro pid
    cases hstep with
    | @run acting enabled update next hprog henabled =>
      by_cases hself : pid = acting
      · subst hself
        obtain ⟨start, date, hwatched⟩ := ih pid
        rw [hprog] at hwatched
        refine ⟨start, date + tick c.shared (update c.shared), ?_⟩
        simp only [Function.update_self]
        exact hwatched.own henabled
      · exact hgoing (.run hprog henabled) hself
    | @start acting result program hprog hstart =>
      by_cases hself : pid = acting
      · subst hself
        obtain ⟨start, date, hwatched⟩ := ih pid
        rw [hprog] at hwatched
        have hawake : Awake (fun _ => False) pid start ⟨c.shared, date, True, True, True⟩ := hwatched.safe
        have hbetween := hsafe pid
        rw [hprog] at hbetween
        obtain ⟨op', circumstances, hop, _, _, rfl⟩ := hstart
        refine ⟨date, date, ?_⟩
        simp only [Function.update_self]
        exact watched_pass circumstances _ (awaited_never op') hop hinv hawake.dated id id hbetween
          hawake.awake
      · exact hgoing (.start hprog hstart) hself
    | @die acting hdie =>
      obtain ⟨hstirs, _⟩ := on_death_stirs acting c.shared
      by_cases hself : pid = acting
      · subst hself
        obtain ⟨start, date, hwatched⟩ := ih pid
        have hview : ViewInv (fun _ => False) pid start
            ⟨on_death pid c.shared, date + tick c.shared _, True, True, True⟩ :=
          ⟨hinv', dated_step hwatched.inv.dated hstirs.epoch,
            hwatched.inv.started.trans (Nat.le_add_right _ _), id, id, fun _ _ _ => trivial⟩
        refine ⟨start, _, hview, ?_⟩
        simp only [Function.update_self]
        have hawake : pid ∉ (on_death pid c.shared).waiters := by
          rw [on_death_waiters]
          exact fun hmem => of_decide_eq_true (List.mem_filter.mp hmem).2 rfl
        exact ⟨hview, hawake⟩
      · exact hothers (discipline_excluded.die acting _ hinv hdie).2.1 hstirs hself
          (Function.update_of_ne hself _ _)

theorem tick_of_bumps {m m' : Memory} (h : Bumps m m') : tick m m' = 1 := by
  rw [Bumps] at h
  rw [tick, if_neg (by omega)]

/-- What the others do while a process holds the mutex neither fills nor empties a slot. -/
theorem Interference.hasSlot {state : ManagedSlotState} {m m' : Memory} (h : Interference unlinks m m')
    (hslot : HasSlot state m') : HasSlot state m := by
  obtain ⟨i, hi, hstate⟩ := hslot
  have hsame := h.sameQueue
  exact ⟨i, hsame.capacity ▸ hi, hsame.slots ▸ hstate⟩

/-- Nor does it end the channel, but for the store of `unlink`, which does not count. -/
theorem Interference.ended {m m' : Memory} (h : Interference unlinks m m') (hended : Ended unlinks m') :
    Ended unlinks m := by
  obtain ⟨state, epoch, counters, waiters, hstate, rfl⟩ := h
  rcases hstate with rfl | ⟨hunlinks, hdestroying⟩
  · exact hended
  · exact absurd hdestroying (hended.2 hunlinks)

/-- An event that no process makes without the mutex. -/
structure Protected (unlinks : Bool) (op : Op) (E : Memory → Prop) : Prop extends Awaited op E where
  calm : ∀ m m', Interference unlinks m m' → E m' → E m

theorem Event.cause {op : Op} {m : Memory} (hevent : Event unlinks op m) :
    ∃ E, Protected unlinks op E ∧ E m := by
  have hslot {state : ManagedSlotState} (hne : state ≠ .writing) (m m' : Memory) (h : Uneventful m m')
      (hslot : HasSlot state m') : HasSlot state m := h.hasSlot hne hslot
  have hended {op : Op} : Protected unlinks op (Ended unlinks) := by
    refine ⟨⟨fun m m' h hended => ?_, .inr fun m hstate hended => ?_⟩, fun m m' h => h.ended⟩
    · rw [Ended, ← h.state]
      exact hended
    · exact hended.1 (healthy_of_success hstate)
  cases op with
  | send message mode =>
    rcases hevent with hfree | hend
    · exact ⟨_, ⟨⟨hslot ManagedSlotState.noConfusion, .inl fun _ => id⟩, fun _ _ h => h.hasSlot⟩, hfree⟩
    · exact ⟨_, hended, hend⟩
  | receive mode =>
    rcases hevent with hready | hend
    · exact ⟨_, ⟨⟨hslot ManagedSlotState.noConfusion, .inl fun _ => id⟩, fun _ _ h => h.hasSlot⟩, hready⟩
    · exact ⟨_, hended, hend⟩
  | close | stats | unlink => exact hevent.elim

/-- A step of another process that does not die with a duty. -/
theorem turn_goes {op : Op} {E : Memory → Prop} {date : Nat} (hE : Protected unlinks op E)
    (hrely : Excluded unlinks pid c.shared c'.shared) (hother : other ≠ pid)
    (hsignals : SignalsAs other (fun _ => False) (c.procs other))
    (hgoes : Goes (discipline unlinks may_die) other c c') :
    Turn unlinks E pid (view c pid date) (view c' pid (date + tick c.shared c'.shared)) := by
  obtain ⟨hstirs, hevent⟩ := goes_stirs hsignals hgoes
  refine ⟨hrely, fun h => ?_, fun h _ => ?_, Owed.tail, fun h _ => ?_, False.elim,
    fun hheld h => .inl (hE.calm _ _ (hrely.held hheld) h), fun _ h _ => h, hstirs.sleepers pid hother.symm,
    Nat.le_add_right _ _⟩
  · exact hevent.imp (fun hsame => hE.uneventful _ _ hsame h) fun howes => ⟨other, hother, howes⟩
  · rcases Owed.goes h hgoes hother with hstill | ⟨hbumps, _⟩
    · exact .inl hstill
    · refine .inr ?_
      simp only [view, tick_of_bumps hbumps]
      exact Nat.lt_succ_self date
  · rcases Owed.goes h hgoes hother with hstill | ⟨hwakes, _⟩
    · exact .inl hstill
    · refine .inr fun hmem => ?_
      have hnone : c'.shared.waiters = [] := hwakes
      simp only [view, hnone] at hmem
      exact List.not_mem_nil hmem

theorem turn_death {op : Op} {E : Memory → Prop} {date : Nat} (hE : Protected unlinks op E)
    (hrely : Excluded unlinks pid c.shared (on_death other c.shared)) (hother : other ≠ pid)
    (hfree : ¬ (c.procs other).Owes (fun _ => False) [Wakes]) :
    Turn unlinks E pid (view c pid date)
      (view ⟨on_death other c.shared, Function.update c.procs other (.ret { outcome := .dead })⟩ pid
        (date + tick c.shared (on_death other c.shared))) := by
  obtain ⟨hstirs, hsame⟩ := on_death_stirs other c.shared
  exact ⟨hrely, fun h => .inl (hE.uneventful _ _ hsame h),
    fun h _ => .inl (Owed.death h (mt Prog.Owes.tail hfree)), Owed.tail, fun h _ => .inl (Owed.death h hfree),
    False.elim, fun hheld h => .inl (hE.calm _ _ (hrely.held hheld) h), fun _ h _ => h,
    hstirs.sleepers pid hother.symm, Nat.le_add_right _ _⟩

/-- In the middle of its pass a process is still watched. -/
theorem vigil_watched {op : Op} {E : Memory → Prop} (hE : Protected unlinks op E)
    {c₀ : Config Memory Session Nat}
    (hreach : Reachable (discipline unlinks may_die) (initial options layout) c₀) {date : Nat}
    (hstart : Watched unlinks E pid date (view c₀ pid date) (c₀.procs pid)) {count : Nat}
    (hrun : Vigil (discipline unlinks may_die) (fun m => m.header.event_epoch) [Wakes] pid c₀ count c) :
    Watched unlinks E pid date (view c pid (date + count)) (c.procs pid) := by
  have hrest {c : Config Memory Session Nat} {count : Nat}
      (h : Vigil (discipline unlinks may_die) (fun m => m.header.event_epoch) [Wakes] pid c₀ count c) :=
    reachable_excluded (Relation.ReflTransGen.trans hreach h.reachable)
  induction hrun with
  | refl => exact hstart
  | @own count c enabled update next hsteps hprog henabled ih =>
    rw [hprog] at ih
    have hview : view ⟨update c.shared, Function.update c.procs pid (next c.shared)⟩ pid
        (date + count + tick c.shared (update c.shared)) = (view c pid (date + count)).store update := by
      simp only [view, View.store, Owed.own]
      rfl
    simp only [Function.update_self]
    rw [← Nat.add_assoc]
    exact hview ▸ ih.own henabled
  | @other count other c c' hsteps hother hgoes ih =>
    obtain ⟨hinv, hsafe⟩ := hrest hsteps
    have hsignals := reachable_signals (Relation.ReflTransGen.trans hreach hsteps.reachable) other
    have hturn : Turn unlinks E pid (view c pid (date + count)) _ :=
      turn_goes hE (discipline_excluded.rely_goes hinv (hsafe other) hgoes hother.symm) hother hsignals hgoes
    rw [hgoes.procs_of_ne hother.symm, ← Nat.add_assoc]
    exact ih.turn hturn (hrest (.other hsteps hother hgoes)).1
      (dated_step ih.inv.dated (goes_stirs hsignals hgoes).1.epoch)
  | @death count other c hsteps hother hdie hfree ih =>
    obtain ⟨hinv, _⟩ := hrest hsteps
    have hrely := (discipline_excluded.die other _ hinv hdie).2.1 pid hother.symm
    have hturn : Turn unlinks E pid (view c pid (date + count)) _ := turn_death hE hrely hother hfree
    simp only [Function.update_of_ne hother.symm]
    rw [← Nat.add_assoc]
    exact ih.turn hturn (hrest (.death hsteps hother hdie hfree)).1
      (dated_step ih.inv.dated (on_death_stirs other c.shared).1.epoch)

/-- A process between two passes neither holds the mutex nor sleeps. -/
theorem reachable_idle (hreach : Reachable (discipline unlinks may_die) (initial options layout) c)
    {session : Session} (hprog : c.procs pid = .ret session) :
    Sequenced c.shared ∧ c.shared.header.mutex ≠ .held pid ∧ pid ∉ c.shared.waiters := by
  obtain ⟨hinv, hsafe⟩ := reachable_excluded hreach
  have hnot := hsafe pid
  obtain ⟨start, date, hwatched⟩ := reachable_watched hreach pid
  rw [hprog] at hnot hwatched
  have hawake : Awake (fun _ => False) pid start ⟨c.shared, date, True, True, True⟩ := hwatched.safe
  exact ⟨hinv, hnot, hawake.awake⟩

/-- Nobody sleeps past its event: from any state of any run, whoever dies in it
    and wherever, take a pass of an operation, as long as nobody dies who still
    has to wake the sleepers and the epoch does not wrap. When the process is
    asleep in it although there is what it waits for, some other process wakes
    all sleepers before its own call ends. -/
theorem sleepers_are_woken (hreach : Reachable (discipline unlinks may_die) (initial options layout) c)
    {session : Session} (hprog : c.procs pid = .ret session) {op : Op} {circumstances : Circumstances}
    (hop : op = .unlink → unlinks = true) (halive : session.outcome ≠ .dead)
    (hagain : ∀ op', session.outcome = .again op' → op = op') {count : Nat}
    (hrun : Vigil (discipline unlinks may_die) (fun m => m.header.event_epoch) [Wakes] pid
      ⟨c.shared, Function.update c.procs pid (pass session.received (attempt pid op circumstances))⟩ count c')
    (hcount : count < 2 ^ 32) (hasleep : pid ∈ c'.shared.waiters) (hevent : Event unlinks op c'.shared) :
    ∃ other, other ≠ pid ∧ (c'.procs other).Owes (fun _ => False) [Wakes] := by
  obtain ⟨hinv, hnot, hawake⟩ := reachable_idle hreach hprog
  obtain ⟨E, hE, hon⟩ := hevent.cause
  have hstart : Step (discipline unlinks may_die) c
      ⟨c.shared, Function.update c.procs pid (pass session.received (attempt pid op circumstances))⟩ :=
    .start hprog ⟨op, circumstances, hop, halive, hagain, rfl⟩
  have hfirst : Watched unlinks E pid c.shared.header.event_epoch
      (view ⟨c.shared, Function.update c.procs pid (pass session.received (attempt pid op circumstances))⟩ pid
        c.shared.header.event_epoch)
      (Function.update c.procs pid (pass session.received (attempt pid op circumstances)) pid) := by
    rw [Function.update_self]
    exact watched_pass (v := view _ pid _) circumstances _ hE.toAwaited hop hinv rfl Owed.tail False.elim hnot
      hawake
  have hlast := vigil_watched hE (hreach.step hstart) hfirst hrun
  exact hlast.inv.served hasleep (Nat.add_lt_add_left hcount _) hon

end

/-- Process 1 receives from the empty channel and falls asleep. -/
def sleeping_receiver : Config Memory Session Nat :=
  call (initial one_slot one_slot_layout) 1 (.receive .blocking) 13

/-- Process 0 has published a message since, and not announced it yet. -/
def unannounced_message : Config Memory Session Nat := call sleeping_receiver 0 (.send [7] .nonblocking) 27

theorem sleepers_are_woken_unannounced :
    ∃ other, other ≠ 1 ∧ (unannounced_message.procs other).Owes (fun _ => False) [Wakes] := by
  have hstart : Vigil (discipline false fun _ _ => True) (fun m => m.header.event_epoch) [Wakes] 1
      ⟨initialized one_slot one_slot_layout, Function.update (initial one_slot one_slot_layout).procs 1
        (pass [] (attempt 1 (.receive .blocking) {}))⟩ 0 _ := .refl
  obtain ⟨count, hcount, hasleep⟩ := hstart.own_advance 13
  have hidle : sleeping_receiver.procs 0 = .ret {} := call_procs_of_ne (by decide) _ _ _
  have hsend : Goes (discipline false fun _ _ => True) 0 sleeping_receiver
      ⟨sleeping_receiver.shared, Function.update sleeping_receiver.procs 0
        (pass [] (attempt 0 (.send [7] .nonblocking) {}))⟩ := by
    refine .start hidle ⟨.send [7] .nonblocking, {}, ?_, ?_, ?_, rfl⟩
    · rintro ⟨⟩
    · rintro ⟨⟩
    · rintro _ ⟨⟩
  have hne : (0 : Nat) ≠ 1 := by decide
  obtain ⟨count', hcount', hrun⟩ := (hasleep.other hne hsend).other_advance hne 27
  have hready : Event false (.receive .blocking) unannounced_message.shared :=
    Or.inl ⟨0, by decide +kernel, by decide +kernel⟩
  refine sleepers_are_woken (c := initial one_slot one_slot_layout) .refl rfl ?_ ?_ ?_
    hrun ?_ ?_ hready
  · rintro ⟨⟩
  · rintro ⟨⟩
  · rintro _ ⟨⟩
  · split_ifs at hcount'
    · omega
    · omega
  · decide +kernel

/-- Process 1 has read the state of the empty channel, process 0 unlinks it, and
    process 1 goes on to load the epoch and to wait. -/
def missed_unlink : Config Memory Session Nat :=
  (call (call (initial one_slot one_slot_layout) 1 (.receive .blocking) 9) 0 .unlink 10).advance 1 10

/-- The store of `unlink` does not count as an event for a reason: here it has
    been announced before the epoch was loaded, and process 1 sleeps. -/
example : missed_unlink.shared.waiters = [1] ∧
    missed_unlink.shared.header.state = ManagedChannelState.destroying.word ∧
    (missed_unlink.procs 0).shown.map Session.outcome = some .unlinked := by
  decide +kernel

end shmchan.managed
