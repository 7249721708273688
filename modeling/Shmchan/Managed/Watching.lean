import Shmchan.Process.Sights
import Shmchan.Managed.Signals
import Shmchan.Managed.Exclusion.Operations

open process

namespace shmchan.managed

/-- What a process that may wait sees: the channel, the epoch counted without
    wrapping, whether somebody else is going to announce or to wake, and whether
    its event is on for a reason that it may have overlooked. -/
structure View where
  memory : Memory
  date : Nat
  announcing : Prop
  waking : Prop
  covert : Prop

def View.store (update : Memory → Memory) (v : View) : View :=
  { v with
    memory := update v.memory
    date := v.date +
      if (update v.memory).header.event_epoch = v.memory.header.event_epoch then 0 else 1 }

@[simp] theorem View.store_memory (update : Memory → Memory) (v : View) :
    (v.store update).memory = update v.memory := rfl

/-- The channel is no longer healthy. Where `unlink` may run, its own store
    does not count. -/
def Ended (unlinks : Bool) (m : Memory) : Prop :=
  m.header.state ≠ ManagedChannelState.healthy.word ∧
    (unlinks = true → m.header.state ≠ ManagedChannelState.destroying.word)

def HasSlot (state : ManagedSlotState) (m : Memory) : Prop :=
  ∃ i, i < m.header.message_capacity ∧ (m.slots i).state = state.word

/-- What an operation waits for. -/
def Event (unlinks : Bool) : Op → Memory → Prop
  | .send _ _, m => HasSlot .free m ∨ Ended unlinks m
  | .receive _, m => HasSlot .ready m ∨ Ended unlinks m
  | _, _ => False

/-- What another process may do in one step to the view of `pid`, which waits
    for `E`. While `pid` holds the mutex only covert events come up. -/
structure Turn (unlinks : Bool) (E : Memory → Prop) (pid : Nat) (v v' : View) : Prop where
  rely : Excluded unlinks pid v.memory v'.memory
  event : E v'.memory → E v.memory ∨ v'.announcing
  announcing : v.announcing → E v'.memory → v'.announcing ∨ v.date < v'.date
  called : v'.announcing → v'.waking
  waking : v.waking → E v'.memory → v'.waking ∨ pid ∉ v'.memory.waiters
  hidden : v'.covert → v'.announcing
  entered : v.memory.header.mutex = .held pid → E v'.memory → E v.memory ∨ v'.covert
  covert : v.memory.header.mutex = .held pid → v.covert → E v'.memory → v'.covert
  sleeper : pid ∈ v'.memory.waiters → pid ∈ v.memory.waiters
  date : v.date ≤ v'.date

/-- Who sleeps past an event will be woken, unless the epoch has wrapped since
    the date `start`. -/
def Served (E : Memory → Prop) (pid start : Nat) (v : View) : Prop :=
  pid ∈ v.memory.waiters → v.date < start + 2 ^ 32 → E v.memory → v.waking

structure ViewInv (E : Memory → Prop) (pid start : Nat) (v : View) : Prop where
  inv : Sequenced v.memory
  dated : v.memory.header.event_epoch % 2 ^ 32 = v.date % 2 ^ 32
  started : start ≤ v.date
  called : v.announcing → v.waking
  hidden : v.covert → v.announcing
  served : Served E pid start v

/-- What `pid` relies on while it executes one pass of an operation. -/
def watching (unlinks : Bool) (E : Memory → Prop) (pid start : Nat) : Reliance View Unit where
  inv := ViewInv E pid start
  rely _ := Relation.ReflTransGen (Turn unlinks E pid)

/-- A point of the pass at which the process is not asleep. -/
structure Awake (E : Memory → Prop) (pid start : Nat) (v : View) : Prop
    extends ViewInv E pid start v where
  awake : pid ∉ v.memory.waiters

/-- The epoch was loaded at a time since when no event has been missed. -/
def Informed (E : Memory → Prop) (start epoch : Nat) (v : View) : Prop :=
  ∃ date, start ≤ date ∧ date ≤ v.date ∧ epoch % 2 ^ 32 = date % 2 ^ 32 ∧
    (v.date = date → E v.memory → v.announcing)

/-- An event that comes up while `pid` holds the mutex is known to be covert. -/
def Sheltered (E : Memory → Prop) (pid : Nat) (v : View) : Prop :=
  v.memory.header.mutex = .held pid → E v.memory → v.covert

/-- A step of the holder of the mutex that makes no event and keeps the mutex. -/
def Secluded (m m' : Memory) : Prop := Uneventful m m' ∧ m'.header.mutex = m.header.mutex

section

variable {unlinks : Bool} {E : Memory → Prop} {pid start epoch : Nat} {v v' : View} {m m' : Memory}

/-- A slot becomes FREE or READY by an event only. -/
theorem Uneventful.hasSlot (h : Uneventful m m') {state : ManagedSlotState} (hne : state ≠ .writing)
    (hslot : HasSlot state m') : HasSlot state m := by
  obtain ⟨i, hi, hstate⟩ := hslot
  refine ⟨i, h.capacity ▸ hi, ?_⟩
  rcases h.slots i with hsame | hwriting
  · rw [← hsame, hstate]
  · rw [hwriting] at hstate
    cases state with
    | free => cases hstate
    | ready => cases hstate
    | writing => exact absurd rfl hne

theorem View.store_date_le (update : Memory → Memory) (v : View) : v.date ≤ (v.store update).date :=
  Nat.le_add_right _ _

/-- A step of the epoch is a step of the date. -/
theorem dated_step (hdated : m.header.event_epoch % 2 ^ 32 = v.date % 2 ^ 32)
    (hepoch : m'.header.event_epoch = m.header.event_epoch ∨ Bumps m m') :
    m'.header.event_epoch % 2 ^ 32 =
      (v.date + if m'.header.event_epoch = m.header.event_epoch then 0 else 1) % 2 ^ 32 := by
  rcases hepoch with hsame | hbumps
  · rw [if_pos hsame, hsame]
    exact hdated
  · rw [Bumps] at hbumps
    have hne : m'.header.event_epoch ≠ m.header.event_epoch := by omega
    rw [if_neg hne]
    omega

theorem sleeper_stable (h : Relation.ReflTransGen (Turn unlinks E pid) v v')
    (hv : pid ∉ v.memory.waiters) : pid ∉ v'.memory.waiters := by
  induction h with
  | refl => exact hv
  | tail _ hturn ih => exact fun hmem => ih (hturn.sleeper hmem)

theorem awake_stable (h : Relation.ReflTransGen (Turn unlinks E pid) v v')
    (hinv : ViewInv E pid start v') (hv : Awake E pid start v) :
    Awake E pid start v' :=
  ⟨hinv, sleeper_stable h hv.awake⟩

theorem turns_rely (h : Relation.ReflTransGen (Turn unlinks E pid) v v') :
    Excluded unlinks pid v.memory v'.memory := by
  induction h with
  | refl => exact Excluded.refl unlinks pid _
  | tail _ hturn ih => exact ih.trans hturn.rely

/-- Whatever the others do, an announcement is on its way for each event. -/
theorem Informed.turn (hv : Informed E start epoch v) (hturn : Turn unlinks E pid v v') :
    Informed E start epoch v' := by
  obtain ⟨date, hstart, hdate, hepoch, hevent⟩ := hv
  refine ⟨date, hstart, hdate.trans hturn.date, hepoch, fun hnow hevent' => ?_⟩
  have hsame : v.date = date := le_antisymm (hnow ▸ hturn.date) hdate
  rcases hturn.event hevent' with hold | hnew
  · exact (hturn.announcing (hevent hsame hold) hevent').resolve_right (by omega)
  · exact hnew

theorem informed_stable (h : Relation.ReflTransGen (Turn unlinks E pid) v v')
    (hv : Informed E start epoch v) : Informed E start epoch v' := by
  induction h with
  | refl => exact hv
  | tail _ hturn ih => exact ih.turn hturn

/-- An epoch that is loaded while the event, if it is on, is to be announced. -/
theorem informed_of_announcing (hinv : ViewInv E pid start v) (hevent : E v.memory → v.announcing) :
    Informed E start v.memory.header.event_epoch v :=
  ⟨v.date, hinv.started, le_rfl, hinv.dated, fun _ => hevent⟩

/-- Who has missed no event and falls asleep on the epoch is served. -/
theorem Informed.served (hinv : ViewInv E pid start v) (hv : Informed E start epoch v)
    (hepoch : v.memory.header.event_epoch = epoch) (hevent : E v.memory)
    (hroom : v.date < start + 2 ^ 32) : v.waking := by
  obtain ⟨date, hstart, hdate, hloaded, hannounced⟩ := hv
  have hdated := hinv.dated
  have hsame : v.date = date := by
    rw [hepoch, hloaded] at hdated
    omega
  exact hinv.called (hannounced hsame hevent)

/-- The others' steps keep the invariant of the view. -/
theorem ViewInv.turn (hv : ViewInv E pid start v) (hturn : Turn unlinks E pid v v')
    (hinv : Sequenced v'.memory)
    (hdated : v'.memory.header.event_epoch % 2 ^ 32 = v'.date % 2 ^ 32) :
    ViewInv E pid start v' := by
  refine ⟨hinv, hdated, hv.started.trans hturn.date, hturn.called, hturn.hidden,
    fun hasleep hroom hevent => ?_⟩
  rcases hturn.event hevent with hold | hnew
  · have hwaking := hv.served (hturn.sleeper hasleep) (by have := hturn.date; omega) hold
    exact (hturn.waking hwaking hevent).resolve_right fun hnot => hnot hasleep
  · exact hturn.called hnew

/-- A step of its own after which `pid` is awake. -/
theorem ViewInv.awake_store (hv : ViewInv E pid start v) {update : Memory → Memory}
    (hinv : Sequenced (update v.memory))
    (hepoch : (update v.memory).header.event_epoch = v.memory.header.event_epoch ∨
      Bumps v.memory (update v.memory))
    (hawake : pid ∉ (update v.memory).waiters) : Awake E pid start (v.store update) :=
  ⟨⟨hinv, dated_step hv.dated hepoch, hv.started.trans (View.store_date_le _ _), hv.called, hv.hidden,
    fun hasleep => absurd hasleep hawake⟩, hawake⟩

variable {α β : Type} {post : α → Memory → Prop} {p : Prog Memory α}

/-- A program on the memory, seen on the view. -/
def viewed (p : Prog Memory α) : Prog View α := p.focus View.memory View.store

theorem viewed_bind (p : Prog Memory α) (f : α → Prog Memory β) :
    viewed (p >>= f) = viewed p >>= fun a => viewed (f a) := Prog.focus_bind _ _ p f

/-- The parts of a pass in which nobody falls asleep. -/
theorem awake_lift (hp : p.Always Moves fun _ => True)
    (h : Safe (exclusion unlinks) pid post p v.memory) (hv : Awake E pid start v) :
    Safe (watching unlinks E pid start) ()
      (fun a v' => post a v'.memory ∧ Awake E pid start v') (viewed p) v := by
  refine Safe.lift (R := exclusion unlinks) (fun _ _ => rfl) (fun _ _ => turns_rely)
    (fun v (hv : ViewInv E pid start v) => hv.inv) (fun _ _ h hinv => awake_stable h hinv)
    (fun v update hmoves hinv hview hawake => ?_) hp h hv
  have hstays : Awake E pid start (v.store update) :=
    ViewInv.awake_store hview hinv hmoves.epoch fun hmem => hawake.awake (hmoves.sleepers pid hmem)
  exact ⟨hstays.toViewInv, fun _ hother => absurd rfl hother, hstays⟩

theorem sheltered_stable (h : Relation.ReflTransGen (Turn unlinks E pid) v v') (hv : Sheltered E pid v) :
    Sheltered E pid v' := by
  induction h with
  | refl => exact hv
  | tail _ hturn ih =>
    intro hheld hevent
    have hbefore := hturn.rely.mutex.mp hheld
    rcases hturn.entered hbefore hevent with hold | hcovert
    · exact hturn.covert hbefore (ih hbefore hold) hevent
    · exact hcovert

/-- A critical section that has looked for the event before it ends. -/
theorem checked_lift (hE : ∀ m m', Uneventful m m' → E m' → E m) {P : α → Prop}
    (hp : p.Always Moves fun _ => True) (hchecks : p.Checks (fun m => ¬ E m) Secluded P)
    (h : Safe (exclusion unlinks) pid post p v.memory) (hv : Awake E pid start v) :
    Safe (watching unlinks E pid start) ()
      (fun a v' => post a v'.memory ∧ Awake E pid start v' ∧ (P a → Sheltered E pid v')) (viewed p) v := by
  refine Safe.lift_checks (R := exclusion unlinks) (fun _ _ => rfl) (fun _ _ => turns_rely)
    (fun v (hv : ViewInv E pid start v) => hv.inv) (fun _ _ h hinv => awake_stable h hinv)
    (fun v update hmoves hinv hview hawake => ?_) (fun _ _ h _ => sheltered_stable h)
    (fun v update hsecluded hsheltered hheld hevent => ?_) (fun v hno _ hevent => absurd hevent hno) hp
    hchecks h hv
  · have hstays : Awake E pid start (v.store update) :=
      ViewInv.awake_store hview hinv hmoves.epoch fun hmem => hawake.awake (hmoves.sleepers pid hmem)
    exact ⟨hstays.toViewInv, fun _ hother => absurd rfl hother, hstays⟩
  · exact hsheltered (hsecluded.2.symm.trans hheld) (hE _ _ hsecluded.1 hevent)

/-- The parts of a pass between the load of the epoch and the wait. -/
theorem informed_lift (hE : ∀ m m', Uneventful m m' → E m' → E m) (hp : p.Always Plain fun _ => True)
    (h : Safe (exclusion unlinks) pid post p v.memory) (hawake : Awake E pid start v)
    (hv : Informed E start epoch v) :
    Safe (watching unlinks E pid start) ()
      (fun a v' => post a v'.memory ∧ Awake E pid start v' ∧
        Informed E start epoch v') (viewed p) v := by
  refine Safe.lift (R := exclusion unlinks) (fun _ _ => rfl) (fun _ _ => turns_rely)
    (fun v (hv : ViewInv E pid start v) => hv.inv)
    (fun _ _ h hinv hv => ⟨awake_stable h hinv hv.1, informed_stable h hv.2⟩)
    (fun v update hplain hinv hview hv => ?_) hp h ⟨hawake, hv⟩
  obtain ⟨hawake, date, hstart, hdate, hepoch, hevent⟩ := hv
  have hstays : Awake E pid start (v.store update) :=
    ViewInv.awake_store hview hinv hplain.1.epoch fun hmem => hawake.awake (hplain.1.sleepers pid hmem)
  have hle := View.store_date_le update v
  refine ⟨hstays.toViewInv, fun _ hother => absurd rfl hother, hstays, date, hstart, hdate.trans hle,
    hepoch, fun hnow hevent' => ?_⟩
  exact hevent (le_antisymm (hnow ▸ hle) hdate) (hE _ _ hplain.2 hevent')

end

end shmchan.managed
