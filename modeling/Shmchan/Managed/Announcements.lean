import Shmchan.Managed.History
import Shmchan.Managed.WakeUps

open process

namespace shmchan.managed

/-- Why a sleeper should be awake: there is a slot for it, or the channel is no
    longer healthy. -/
inductive Cause where
  | slot
  | state
  deriving DecidableEq

def has_slot (state : ManagedSlotState) (m : Memory) : Bool :=
  (List.range m.header.message_capacity).any fun i => (m.slots i).state = state.word

def Cause.holds : Cause → Op → Memory → Bool
  | slot, .send _ _, m => has_slot .free m
  | slot, .receive _, m => has_slot .ready m
  | state, .send _ _, m => m.header.state ≠ ManagedChannelState.healthy.word
  | state, .receive _, m => m.header.state ≠ ManagedChannelState.healthy.word
  | _, _, _ => false

/-- What to look out for while `pid` is in a pass of `op`. -/
def lookout (pid : Nat) (op : Op) (cause : Cause) : Lookout Memory Nat where
  reading m := m.header.event_epoch
  event := cause.holds op
  asleep m := pid ∈ m.waiters
  inside m := m.header.mutex = .held pid

/-- The channel as it has been seen since the date `start` by a process that
    fell asleep, if it sleeps, after `fell` steps of the epoch. -/
def sighted (sight : Sight Nat Nat) (start fell : Nat) (m : Memory) : View where
  memory := m
  date := start + sight.count
  announcing := sight.Pending
  waking := sight.Pending ∨ sight.count ≠ fell
  covert := sight.covert = true ∧ sight.Pending

/-- `pid` is in a pass that began at the date `start`, and this has been seen since. -/
def Seen (unlinks : Bool) (op : Op) (cause : Cause) (pid start : Nat) (sight : Sight Nat Nat) (m : Memory)
    (p : Prog Memory Session) : Prop :=
  ∃ fell, fell ≤ sight.count ∧ sight.expected % 2 ^ 32 = (start + fell) % 2 ^ 32 ∧
    Watched unlinks (fun m => cause.holds op m = true) pid start (sighted sight start fell m) p

section

variable {unlinks : Bool} {may_die : Nat → Memory → Prop} {options : ManagedChannelOptions}
  {layout : ManagedLayout} {op : Op} {cause : Cause} {pid other start fell : Nat}
  {c c' : Config Memory Session Nat} {sight : Sight Nat Nat} {m m' : Memory}

theorem has_slot_iff {state : ManagedSlotState} : has_slot state m = true ↔ HasSlot state m := by
  simp only [has_slot, HasSlot, List.any_eq_true, List.mem_range, decide_eq_true_eq]

/-- No cause comes up but by an event, and nobody waits without having looked. -/
theorem awaited_cause (op : Op) (cause : Cause) : Awaited op fun m => cause.holds op m = true := by
  cases cause with
  | slot =>
    cases op with
    | send _ _ | receive _ =>
      refine ⟨fun m m' hsame => ?_, .inl fun m => has_slot_iff.mp⟩
      simp only [Cause.holds, has_slot_iff]
      exact hsame.hasSlot ManagedSlotState.noConfusion
    | close | stats | unlink => exact ⟨fun _ _ _ => id, .inl trivial⟩
  | state =>
    cases op with
    | send _ _ | receive _ =>
      refine ⟨fun m m' hsame => ?_, .inr fun m hstate => ?_⟩
      · simp only [Cause.holds, hsame.state]
        exact id
      · simp only [Cause.holds, healthy_of_success hstate, ne_eq, not_true_eq_false, decide_false]
        exact Bool.false_ne_true
    | close | stats | unlink => exact ⟨fun _ _ _ => id, .inl trivial⟩

theorem lookout_makes (h : Uneventful m m') : (lookout pid op cause).makes m m' = false := by
  simp only [Lookout.makes, lookout, Bool.and_eq_false_iff, Bool.not_eq_false']
  by_cases hevent : cause.holds op m' = true
  · exact .inr ((awaited_cause op cause).uneventful m m' h hevent)
  · exact .inl (Bool.eq_false_iff.mpr hevent)

/-- A step of somebody else, as it is seen. -/
theorem turn_sighted (hrely : Excluded unlinks pid m m') (hstirs : Stirs other m m') (hother : other ≠ pid)
    (hfell : fell ≤ sight.count)
    (hopen : sight.covert = true → sight.maker = some other → m'.header.event_epoch = m.header.event_epoch) :
    Turn unlinks (fun m => cause.holds op m = true) pid (sighted sight start fell m)
      (sighted (sight.after (lookout pid op cause) pid other m m') start fell m') := by
  set L := lookout pid op cause with hL
  -- what comes up is pending, and what is pending stays so or is announced
  have hcomes (hbefore : ¬ cause.holds op m = true) (hafter : cause.holds op m' = true) :
      (sight.after L pid other m m').Pending := by
    refine Sight.pending_of_makes ?_ hother
    simp only [Lookout.makes, hL, lookout, hafter, Bool.eq_false_iff.mpr hbefore, Bool.not_false,
      Bool.true_and]
  have hstays (hpending : sight.Pending) (hafter : cause.holds op m' = true) :
      (sight.after L pid other m m').Pending ∨ sight.count < (sight.after L pid other m m').count := by
    by_cases hbefore : cause.holds op m = true
    · by_cases hsame : m'.header.event_epoch = m.header.event_epoch
      · exact .inl (hpending.after hbefore hafter fun _ => hsame)
      · right
        simp only [Sight.after, hL, lookout, hsame, if_false]
        exact Nat.lt_succ_self _
    · exact .inl (hcomes hbefore hafter)
  have hcount : sight.count ≤ (sight.after L pid other m m').count := Nat.le_add_right _ _
  refine ⟨hrely, fun hafter => ?_, fun hpending hafter => ?_, .inl, fun hwaking hafter => ?_, fun h => h.2,
    fun hheld hafter => ?_, fun hheld hcovert hafter => ?_, hstirs.sleepers pid hother.symm,
    Nat.add_le_add_left hcount start⟩
  · by_cases hbefore : cause.holds op m = true
    · exact .inl hbefore
    · exact .inr (hcomes hbefore hafter)
  · exact (hstays hpending hafter).imp_right fun h => Nat.add_lt_add_left h start
  · left
    rcases hwaking with hpending | hlater
    · rcases hstays hpending hafter with hstill | hadvanced
      · exact .inl hstill
      · exact .inr (by omega)
    · exact .inr (by omega)
  · by_cases hbefore : cause.holds op m = true
    · exact .inl hbefore
    · refine .inr ⟨Sight.after_covert hafter ?_ (.inr ⟨hbefore, decide_eq_true hheld⟩), hcomes hbefore hafter⟩
      exact decide_eq_true (hrely.mutex.mpr hheld)
  · have hinside : L.inside m' = true := decide_eq_true (hrely.mutex.mpr hheld)
    by_cases hbefore : cause.holds op m = true
    · exact ⟨Sight.after_covert hafter hinside (.inl ⟨hbefore, hcovert.1⟩),
        hcovert.2.after hbefore hafter (hopen hcovert.1)⟩
    · exact ⟨Sight.after_covert hafter hinside (.inr ⟨hbefore, decide_eq_true hheld⟩), hcomes hbefore hafter⟩

/-- A change of what is known, not of the channel. -/
theorem turn_still {E : Memory → Prop} {date : Nat}
    {announcing waking covert announcing' waking' covert' : Prop}
    (hannouncing : E m → announcing → announcing') (hcalled : announcing' → waking')
    (hwaking : E m → waking → waking' ∨ pid ∉ m.waiters) (hhidden : covert' → announcing')
    (hcovert : E m → m.header.mutex = .held pid → covert → covert') :
    Turn unlinks E pid ⟨m, date, announcing, waking, covert⟩ ⟨m, date, announcing', waking', covert'⟩ where
  rely := Excluded.refl unlinks pid m
  event := .inl
  announcing h hevent := .inl (hannouncing hevent h)
  called := hcalled
  waking h hevent := hwaking hevent h
  hidden := hhidden
  entered _ := .inl
  covert hheld h hevent := hcovert hevent hheld h
  sleeper := id
  date := le_rfl

/-- A process that falls asleep by an action does so on the present epoch. -/
theorem own_fell (hfell : fell ≤ sight.count) (hexpected : sight.expected % 2 ^ 32 = (start + fell) % 2 ^ 32) :
    ∃ fell', fell' ≤ (sight.after (lookout pid op cause) pid pid m m').count ∧
      (m'.header.event_epoch % 2 ^ 32 =
          (start + (sight.after (lookout pid op cause) pid pid m m').count) % 2 ^ 32 →
        (sight.after (lookout pid op cause) pid pid m m').expected % 2 ^ 32 = (start + fell') % 2 ^ 32) ∧
      (fell' = fell ∨ pid ∉ m.waiters) := by
  by_cases hasleep : ((lookout pid op cause).asleep m' && !(lookout pid op cause).asleep m) = true
  · refine ⟨_, le_rfl, fun hdated => ?_, .inr ?_⟩
    · simp only [Sight.after, hasleep, if_true]
      exact hdated
    · rw [Bool.and_eq_true, Bool.not_eq_true'] at hasleep
      exact of_decide_eq_false hasleep.2
  · refine ⟨fell, hfell.trans (Nat.le_add_right _ _), fun _ => ?_, .inl rfl⟩
    simp only [Sight.after, hasleep, Bool.false_eq_true, if_false]
    exact hexpected

/-- An action of the process itself, as it is seen. -/
theorem Seen.own {enabled : Memory → Bool} {update : Memory → Memory} {next : Memory → Prog Memory Session}
    (hseen : Seen unlinks op cause pid start sight m (.act enabled update next)) (henabled : enabled m = true)
    (hmaker : sight.maker ≠ some pid) :
    Seen unlinks op cause pid start (sight.after (lookout pid op cause) pid pid m (update m)) (update m)
      (next m) := by
  obtain ⟨fell, hfell, hexpected, h⟩ := hseen
  obtain ⟨fell', hfell', hdated, hfalls⟩ := own_fell hfell hexpected
  set sight' := sight.after (lookout pid op cause) pid pid m (update m)
  have hcount : sight'.count = sight.count + tick m (update m) := rfl
  -- what is known may be stated anew before the action, and again after it
  have hthrough (announcing waking covert : Prop)
      (hbefore : Turn unlinks (fun m => cause.holds op m = true) pid (sighted sight start fell m)
        ⟨m, start + sight.count, announcing, waking, covert⟩)
      (hafter : Turn unlinks (fun m => cause.holds op m = true) pid
        ⟨update m, start + sight'.count, announcing, waking, covert⟩
        (sighted sight' start fell' (update m))) :
      Watched unlinks (fun m => cause.holds op m = true) pid start (sighted sight' start fell' (update m))
        (next m) := by
    have hview : View.store update ⟨m, start + sight.count, announcing, waking, covert⟩ =
        ⟨update m, start + sight'.count, announcing, waking, covert⟩ := by
      simp only [View.store, hcount, tick, Nat.add_assoc]
    have hacts := (h.turn hbefore h.inv.inv h.inv.dated).own henabled
    rw [hview] at hacts
    exact hacts.turn hafter hacts.inv.inv hacts.inv.dated
  have hwatched : Watched unlinks (fun m => cause.holds op m = true) pid start
      (sighted sight' start fell' (update m)) (next m) := by
    by_cases hon : cause.holds op m = true
    case neg =>
      refine hthrough False (sight'.count ≠ fell') False ?_ ?_
      · exact turn_still (absurd · hon) False.elim (absurd · hon) False.elim (absurd · hon)
      · exact turn_still (fun _ => False.elim) .inl (fun _ h => .inl (.inr h)) (fun h => h.2)
          fun _ _ => False.elim
    by_cases hstill : cause.holds op (update m) = true
    case neg =>
      refine hthrough sight.Pending (sight.Pending ∨ sight.count ≠ fell)
        (sight.covert = true ∧ sight.Pending) ?_ ?_
      · exact turn_still (fun _ => id) .inl (fun _ => .inl) (fun h => h.2) fun _ _ => id
      · exact turn_still (absurd · hstill) .inl (absurd · hstill) (fun h => h.2) (absurd · hstill)
    have hstays (hpending : sight.Pending) : sight'.Pending :=
      hpending.after hon hstill fun hself => absurd hself hmaker
    refine hthrough sight.Pending (sight.Pending ∨ sight.count ≠ fell ∧ fell' = fell)
      (sight.covert = true ∧ sight.Pending) ?_ ?_
    · refine turn_still (fun _ => id) .inl (fun _ hwaking => ?_) (fun h => h.2) fun _ _ => id
      rcases hfalls with hsame | hawake
      · exact .inl (hwaking.imp_right fun hlater => ⟨hlater, hsame⟩)
      · exact .inr hawake
    · refine turn_still (fun _ => hstays) .inl (fun _ hwaking => .inl ?_) (fun h => h.2)
        fun _ hheld hcovert => ?_
      · exact hwaking.imp hstays fun hlater => by omega
      · exact ⟨Sight.after_covert hstill (decide_eq_true hheld) (.inl ⟨hon, hcovert.1⟩), hstays hcovert.2⟩
  exact ⟨fell', hfell', hdated hwatched.inv.dated, hwatched⟩

/-- A step of somebody else leaves the process where it is. -/
theorem Seen.turn {p : Prog Memory Session} (hseen : Seen unlinks op cause pid start sight m p)
    (hrely : Excluded unlinks pid m m') (hstirs : Stirs other m m') (hother : other ≠ pid)
    (hopen : sight.covert = true → sight.maker = some other → m'.header.event_epoch = m.header.event_epoch)
    (hinv : Sequenced m') :
    Seen unlinks op cause pid start (sight.after (lookout pid op cause) pid other m m') m' p := by
  obtain ⟨fell, hfell, hexpected, h⟩ := hseen
  refine ⟨fell, hfell.trans (Nat.le_add_right _ _), ?_,
    h.turn (turn_sighted hrely hstirs hother hfell hopen) hinv ?_⟩
  · have hstays : (decide (pid ∈ m'.waiters) && !decide (pid ∈ m.waiters)) = false := by
      by_cases hasleep : pid ∈ m'.waiters
      · simp only [hstirs.sleepers pid hother.symm hasleep, decide_true, Bool.not_true, Bool.and_false]
      · simp only [hasleep, decide_false, Bool.false_and]
    simp only [Sight.after, lookout, hstays, Bool.false_eq_true, if_false]
    exact hexpected
  · have hdated := dated_step h.inv.dated hstirs.epoch
    rw [sighted, Nat.add_assoc] at hdated
    exact hdated

/-- In the middle of its pass a process is still watched, with what has been seen. -/
theorem sighted_seen {c₀ : Config Memory Session Nat}
    (hreach : Reachable (discipline unlinks may_die) (initial options layout) c₀)
    (hstart : Seen unlinks op cause pid start { expected := c₀.shared.header.event_epoch } c₀.shared
      (c₀.procs pid))
    (hrun : Sighted (discipline unlinks may_die) (lookout pid op cause) pid c₀ sight c)
    (hopen : sight.missed = false) : Seen unlinks op cause pid start sight c.shared (c.procs pid) := by
  have hrest {c : Config Memory Session Nat} {sight : Sight Nat Nat}
      (h : Sighted (discipline unlinks may_die) (lookout pid op cause) pid c₀ sight c) :=
    reachable_excluded (Relation.ReflTransGen.trans hreach h.reachable)
  induction hrun with
  | refl => exact hstart
  | @own sight c enabled update next hsteps hprog henabled ih =>
    have hseen := ih (Sight.after_missed hopen).1
    rw [hprog] at hseen
    simp only [Function.update_self]
    exact hseen.own henabled hsteps.maker_ne
  | @other sight actor c c' hsteps hother hgoes ih =>
    obtain ⟨hbefore, hquiet⟩ := Sight.after_missed hopen
    obtain ⟨hinv, hsafe⟩ := hrest hsteps
    have hsignals := reachable_signals (Relation.ReflTransGen.trans hreach hsteps.reachable) actor
    rw [hgoes.procs_of_ne hother.symm]
    exact (ih hbefore).turn (discipline_excluded.rely_goes hinv (hsafe actor) hgoes hother.symm)
      (goes_stirs hsignals hgoes).1 hother hquiet (hrest (.other hsteps hother hgoes)).1
  | @death sight actor c hsteps hother hdie ih =>
    obtain ⟨hinv, _⟩ := hrest hsteps
    simp only [Function.update_of_ne hother.symm]
    exact (ih (Sight.after_missed hopen).1).turn
      ((discipline_excluded.die actor _ hinv hdie).2.1 pid hother.symm)
      (on_death_stirs actor c.shared).1 hother (fun _ _ => (on_death_same actor c.shared).2.2.2.2)
      (hrest (.death hsteps hother hdie)).1

/-- Without `unlink` nobody makes an event while another process holds the mutex. -/
theorem cause_calm (h : Interference false m m') (hevent : cause.holds op m' = true) :
    cause.holds op m = true := by
  cases cause with
  | slot =>
    cases op with
    | send _ _ | receive _ =>
      simp only [Cause.holds, has_slot_iff] at hevent ⊢
      exact h.hasSlot hevent
    | close | stats | unlink => exact hevent
  | state =>
    obtain ⟨state, _, _, _, rfl | ⟨⟨⟩, _⟩, rfl⟩ := h
    cases op with
    | send _ _ | receive _ | close | stats | unlink => exact hevent

theorem covert_after (hmakes : (lookout pid op cause).makes m m' = true →
      (lookout pid op cause).inside m = true → other = pid)
    (hcovert : sight.covert = true → sight.maker = none)
    (h : (sight.after (lookout pid op cause) pid other m m').covert = true) :
    (sight.after (lookout pid op cause) pid other m m').maker = none := by
  simp only [Sight.after, Bool.and_eq_true] at h ⊢
  obtain ⟨⟨hevent, _⟩, hsince⟩ := h
  split_ifs at hsince ⊢ with hmade hself
  · rfl
  · exact absurd (hmakes hmade hsince) hself
  · exact hcovert hsince

/-- Only `unlink` makes an event within a critical section of the process. -/
theorem not_missed {c₀ : Config Memory Session Nat}
    (hreach : Reachable (discipline false may_die) (initial options layout) c₀)
    (hrun : Sighted (discipline false may_die) (lookout pid op cause) pid c₀ sight c) :
    sight.missed = false ∧ (sight.covert = true → sight.maker = none) := by
  have hkeeps {sight : Sight Nat Nat} (h : sight.missed = false ∧ (sight.covert = true → sight.maker = none))
      (actor : Nat) (m m' : Memory) : (sight.after (lookout pid op cause) pid actor m m').missed = false := by
    simp only [Sight.after, h.1, Bool.false_or, Bool.and_eq_false_imp, decide_eq_false_iff_not]
    rintro hcovert ⟨hmaker, _⟩
    rw [h.2 hcovert] at hmaker
    cases hmaker
  have hothers {m m' : Memory} {actor : Nat} (hrely : Excluded false pid m m')
      (hmakes : (lookout pid op cause).makes m m' = true) (hinside : (lookout pid op cause).inside m = true) :
      actor = pid := by
    simp only [Lookout.makes, lookout, Bool.and_eq_true, Bool.not_eq_true'] at hmakes
    rw [cause_calm (hrely.held (of_decide_eq_true hinside)) hmakes.1] at hmakes
    cases hmakes.2
  have hrest {c : Config Memory Session Nat} {sight : Sight Nat Nat}
      (h : Sighted (discipline false may_die) (lookout pid op cause) pid c₀ sight c) :=
    reachable_excluded (Relation.ReflTransGen.trans hreach h.reachable)
  induction hrun with
  | refl => exact ⟨rfl, fun _ => rfl⟩
  | own _ _ _ ih => exact ⟨hkeeps ih _ _ _, covert_after (fun _ _ => rfl) ih.2⟩
  | @other sight actor c c' hsteps hother hgoes ih =>
    obtain ⟨hinv, hsafe⟩ := hrest hsteps
    exact ⟨hkeeps ih _ _ _, covert_after
      (hothers (discipline_excluded.rely_goes hinv (hsafe actor) hgoes hother.symm)) ih.2⟩
  | @death sight actor c hsteps hother hdie ih =>
    exact ⟨hkeeps ih _ _ _, covert_after
      (hothers ((discipline_excluded.die actor _ (hrest hsteps).1 hdie).2.1 pid hother.symm)) ih.2⟩

/-- Who has made an event without announcing it is still to do so, or has died. -/
theorem sighted_owes {c₀ : Config Memory Session Nat}
    (hreach : Reachable (discipline unlinks may_die) (initial options layout) c₀)
    (hrun : Sighted (discipline unlinks may_die) (lookout pid op cause) pid c₀ sight c) {maker : Nat}
    (hmaker : sight.maker = some maker) (hsilent : sight.announced = false) :
    (c.procs maker).Owes (fun _ => False) announcement ∨ c.procs maker = .ret { outcome := .dead } := by
  refine hrun.owes (fun c hlater => reachable_signals (Relation.ReflTransGen.trans hreach hlater))
    (fun m m' => lookout_makes) (fun actor m => lookout_makes (on_death_stirs actor m).2)
    (fun m m' hbumps => ?_) ?_ hmaker hsilent
  · rw [Bumps] at hbumps
    simp only [lookout]
    omega
  · rintro actor program ⟨_, _, _, halive, _⟩
    exact halive rfl

/-- Who sleeps in a state of a run is in a pass of it, and what came after the
    start of the pass can be seen. -/
theorem asleep_in_pass (hreach : Reachable (discipline unlinks may_die) (initial options layout) c')
    (hasleep : pid ∈ c'.shared.waiters) :
    ∃ (c : Config Memory Session Nat) (session : Session) (op : Op) (circumstances : Circumstances),
      Reachable (discipline unlinks may_die) (initial options layout) c ∧ c.procs pid = .ret session ∧
      (op = .unlink → unlinks = true) ∧ session.outcome ≠ .dead ∧
      (∀ op', session.outcome = .again op' → op = op') ∧ ∀ cause, ∃ sight,
        Sighted (discipline unlinks may_die) (lookout pid op cause) pid
          ⟨c.shared, Function.update c.procs pid (pass session.received (attempt pid op circumstances))⟩
          sight c' := by
  rcases hreach.sighted Nat (fun pid => ⟨{}, rfl⟩) pid with ⟨session, hprog⟩ | hpass
  · exact absurd hasleep (reachable_idle hreach hprog).2.2
  · obtain ⟨c, session, program, hreach', hprog, hstart, hseen⟩ := hpass
    obtain ⟨op, circumstances, hop, halive, hagain, rfl⟩ := hstart
    exact ⟨c, session, op, circumstances, hreach', hprog, hop, halive, hagain, fun cause => hseen _⟩

/-- Nobody sleeps on the present epoch past its event: from any state of any run,
    whoever dies in it and wherever, take a pass of an operation in which the epoch
    does not wrap, and in which nobody makes an event and advances the epoch within
    one critical section of the process, as only `unlink` could. When the process sleeps in it on the present
    epoch although there is what it waits for, another process has made that so and
    not announced it, and still has to, or has died. -/
theorem events_are_announced (hreach : Reachable (discipline unlinks may_die) (initial options layout) c)
    {session : Session} (hprog : c.procs pid = .ret session) {circumstances : Circumstances}
    (hop : op = .unlink → unlinks = true) (halive : session.outcome ≠ .dead)
    (hagain : ∀ op', session.outcome = .again op' → op = op')
    (hrun : Sighted (discipline unlinks may_die) (lookout pid op cause) pid
      ⟨c.shared, Function.update c.procs pid (pass session.received (attempt pid op circumstances))⟩ sight c')
    (hcount : sight.count < 2 ^ 32) (hopen : unlinks = true → sight.missed = false)
    (hasleep : pid ∈ c'.shared.waiters) (hexpected : sight.expected = c'.shared.header.event_epoch)
    (hevent : cause.holds op c'.shared = true) :
    ∃ maker, maker ≠ pid ∧ sight.maker = some maker ∧ sight.announced = false ∧
      ((c'.procs maker).Owes (fun _ => False) announcement ∨ c'.procs maker = .ret { outcome := .dead }) := by
  obtain ⟨hinv, hnot, hawake⟩ := reachable_idle hreach hprog
  have hstart : Step (discipline unlinks may_die) c
      ⟨c.shared, Function.update c.procs pid (pass session.received (attempt pid op circumstances))⟩ :=
    .start hprog ⟨op, circumstances, hop, halive, hagain, rfl⟩
  have hbegins : Seen unlinks op cause pid c.shared.header.event_epoch
      { expected := c.shared.header.event_epoch } c.shared
      (Function.update c.procs pid (pass session.received (attempt pid op circumstances)) pid) := by
    rw [Function.update_self]
    refine ⟨0, le_rfl, rfl, ?_⟩
    exact watched_pass (v := sighted { expected := c.shared.header.event_epoch } _ 0 c.shared) circumstances _
      (awaited_cause op cause) hop hinv rfl .inl (fun h => h.2) hnot hawake
  have hseen : sight.missed = false := by
    cases unlinks with
    | false => exact (not_missed (hreach.step hstart) hrun).1
    | true => exact hopen rfl
  obtain ⟨fell, hfell, hdated, hlast⟩ := sighted_seen (hreach.step hstart) hbegins hrun hseen
  have hnow := hlast.inv.dated
  simp only [sighted, ← hexpected, hdated] at hnow
  have hsame : sight.count = fell := by omega
  obtain ⟨hmade, hsilent⟩ : sight.Pending :=
    (hlast.inv.served hasleep (Nat.add_lt_add_left hcount _) hevent).resolve_right (not_not.mpr hsame)
  obtain ⟨maker, hmaker⟩ := Option.ne_none_iff_exists'.mp hmade
  refine ⟨maker, ?_, hmaker, hsilent, sighted_owes (hreach.step hstart) hrun hmaker hsilent⟩
  rintro rfl
  exact hrun.maker_ne hmaker

end

/-- Process 1 begins a pass of `receive` on an empty channel. -/
def receiving : Config Memory Session Nat where
  shared := initialized one_slot one_slot_layout
  procs := Function.update (initial one_slot one_slot_layout).procs 1
    (pass [] (attempt 1 (.receive .blocking) {}))

/-- Process 1 executes `before` actions, process 0 begins a pass and executes
    `between` actions of it, and process 1 goes on for `after` actions. -/
def interrupted (cause : Cause) (before : Nat) (op : Op) (between after : Nat) :
    Sight Nat Nat × Config Memory Session Nat :=
  let L := lookout 1 (.receive .blocking) cause
  let (sight, c) := Config.watch L 1 1 before { expected := receiving.shared.header.event_epoch } receiving
  let (sight, c) := Config.watch L 1 0 between (sight.after L 1 0 c.shared c.shared)
    ⟨c.shared, Function.update c.procs 0 (pass [] (attempt 0 op {}))⟩
  Config.watch L 1 1 after sight c

theorem interrupted_sighted (may_die : Nat → Memory → Prop) (cause : Cause) (before : Nat) (op : Op)
    (between after : Nat) :
    Sighted (discipline true may_die) (lookout 1 (.receive .blocking) cause) 1 receiving
      (interrupted cause before op between after).1 (interrupted cause before op between after).2 := by
  have hfirst : Sighted (discipline true may_die) (lookout 1 (.receive .blocking) cause) 1 receiving
      { expected := receiving.shared.header.event_epoch } receiving := .refl
  have hbefore := hfirst.watch 1 before
  have hne : (0 : Nat) ≠ 1 := by decide
  have hstart := hbefore.other hne <| .start (Config.watch_procs_of_ne hne _ _ _)
    ⟨op, {}, fun _ => rfl, Outcome.noConfusion, fun _ => Outcome.noConfusion, rfl⟩
  exact (hstart.watch 0 between).watch 1 after

/-- Process 0 has published a message while process 1 sleeps, and not announced
    it yet. -/
theorem events_are_announced_send :
    ∃ maker, maker ≠ 1 ∧ (interrupted .slot 13 (.send [7] .nonblocking) 27 0).1.maker = some maker ∧
      (interrupted .slot 13 (.send [7] .nonblocking) 27 0).1.announced = false ∧
      (((interrupted .slot 13 (.send [7] .nonblocking) 27 0).2.procs maker).Owes (fun _ => False)
          announcement ∨
        (interrupted .slot 13 (.send [7] .nonblocking) 27 0).2.procs maker = .ret { outcome := .dead }) := by
  have hidle : (initial one_slot one_slot_layout).procs 1 = .ret {} := rfl
  refine events_are_announced (c := initial one_slot one_slot_layout) .refl hidle
    (fun _ => rfl) Outcome.noConfusion (fun _ => Outcome.noConfusion)
    (interrupted_sighted (fun _ _ => True) .slot 13 (.send [7] .nonblocking) 27 0) ?_ ?_ ?_ ?_ ?_
  all_goals decide +kernel

/-- Process 1 has read the state of the empty channel, process 0 unlinks it, and
    process 1 goes on to load the epoch and to wait. Nobody dies. -/
theorem unlink_is_overlooked :
    Sighted (discipline true fun _ _ => False) (lookout 1 (.receive .blocking) .state) 1 receiving
      (interrupted .state 9 .unlink 10 10).1 (interrupted .state 9 .unlink 10 10).2 ∧
    1 ∈ (interrupted .state 9 .unlink 10 10).2.shared.waiters ∧
    (interrupted .state 9 .unlink 10 10).1.expected =
      (interrupted .state 9 .unlink 10 10).2.shared.header.event_epoch ∧
    Cause.state.holds (.receive .blocking) (interrupted .state 9 .unlink 10 10).2.shared = true ∧
    (interrupted .state 9 .unlink 10 10).1.maker = some 0 ∧
    (interrupted .state 9 .unlink 10 10).1.announced = true ∧
    ((interrupted .state 9 .unlink 10 10).2.procs 0).shown.map Session.outcome = some .unlinked :=
  ⟨interrupted_sighted _ _ _ _ _ _, by decide +kernel⟩

end shmchan.managed
