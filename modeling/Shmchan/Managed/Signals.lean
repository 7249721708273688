import Shmchan.Process.Duties
import Shmchan.Managed.Runs

open process

namespace shmchan.managed

/-- The first action of `signal_managed_event`. -/
def Bumps (m m' : Memory) : Prop := m'.header.event_epoch = (m.header.event_epoch + 1) % 2 ^ 32

/-- The second one. -/
def Wakes (_ m' : Memory) : Prop := m'.waiters = []

/-- What a process that has made an event still has to do. -/
def announcement : List (Memory → Memory → Prop) := [Bumps, Wakes]

/-- Only `pid` may fall asleep, and the epoch only advances by one. -/
structure Stirs (pid : Nat) (m m' : Memory) : Prop where
  epoch : m'.header.event_epoch = m.header.event_epoch ∨ Bumps m m'
  sleepers : ∀ other, other ≠ pid → other ∈ m'.waiters → other ∈ m.waiters

/-- Nobody falls asleep, and the epoch only advances by one. -/
structure Moves (m m' : Memory) : Prop where
  epoch : m'.header.event_epoch = m.header.event_epoch ∨ Bumps m m'
  sleepers : ∀ pid, pid ∈ m'.waiters → pid ∈ m.waiters

/-- No slot becomes READY or FREE, and the state word stays. -/
structure Uneventful (m m' : Memory) : Prop where
  capacity : m'.header.message_capacity = m.header.message_capacity
  slots : ∀ i, (m'.slots i).state = (m.slots i).state ∨
    (m'.slots i).state = ManagedSlotState.writing.word
  state : m'.header.state = m.header.state

def Plain (m m' : Memory) : Prop := Moves m m' ∧ Uneventful m m'

/-- The program announces every event that it makes, unless it returns what `P`
    admits. -/
def Signals {α : Type} (P : α → Prop) (p : Prog Memory α) : Prop :=
  p.Heralds Moves Uneventful announcement P

section

variable {α β : Type} {P : α → Prop} {Q : β → Prop} {m m' : Memory} {p : Prog Memory α}
  {f : α → Prog Memory β}

theorem Moves.stirs (h : Moves m m') (pid : Nat) : Stirs pid m m' := ⟨h.epoch, fun other _ => h.sleepers other⟩

theorem plain_of_same (hepoch : m'.header.event_epoch = m.header.event_epoch)
    (hwaiters : m'.waiters = m.waiters) (hslots : m'.slots = m.slots)
    (hcapacity : m'.header.message_capacity = m.header.message_capacity)
    (hstate : m'.header.state = m.header.state) : Plain m m' :=
  ⟨⟨.inl hepoch, fun _ hpid => hwaiters ▸ hpid⟩, ⟨hcapacity, fun i => .inl (by rw [hslots]), hstate⟩⟩

theorem Plain.refl (m : Memory) : Plain m m := plain_of_same rfl rfl rfl rfl rfl

theorem plain_set_counters (f : ManagedCounters → ManagedCounters) (m : Memory) :
    Plain m (m.set_counters f) := plain_of_same rfl rfl rfl rfl rfl

/-- A store to a descriptor that does not end in READY or FREE. -/
theorem plain_set_slot (index : Nat) {f : ManagedMessageSlot → ManagedMessageSlot}
    (hf : ∀ slot, (f slot).state = slot.state ∨ (f slot).state = ManagedSlotState.writing.word)
    (m : Memory) : Plain m (m.set_slot index f) := by
  refine ⟨⟨.inl rfl, fun _ => id⟩, ⟨rfl, fun i => ?_, rfl⟩⟩
  by_cases hi : i = index
  · subst hi
    rw [Memory.set_slot_slots_self]
    exact hf _
  · rw [Memory.set_slot_slots_of_ne _ _ _ hi]
    exact .inl rfl

theorem plain_load (f : Memory → α) : (Prog.load f).Always Plain fun _ => True :=
  Prog.always_load Plain.refl f

theorem plain_store_bind {update : Memory → Memory} {k : Unit → Prog Memory α}
    (hupdate : ∀ m, Plain m (update m)) (hk : (k ()).Always Plain fun _ => True) :
    (Prog.store update >>= k).Always Plain fun _ => True :=
  (Prog.always_store hupdate).bind fun _ _ => hk

theorem signals_of_plain (hp : p.Always Plain fun _ => True) : Signals P p := Prog.heralds_of_always hp

theorem Signals.bind (hp : Signals P p) (hP : ∀ a, P a → (f a).Owes Q announcement)
    (hf : ∀ a, Signals Q (f a)) : Signals Q (p >>= f) :=
  Prog.Heralds.bind hp hP hf

/-- A part that makes no event, or has announced all it makes. -/
theorem Signals.then (hp : Signals (fun _ => False) p) (hf : ∀ a, Signals Q (f a)) : Signals Q (p >>= f) :=
  hp.bind (fun _ => False.elim) hf

theorem signals_load_bind {γ : Type} (g : Memory → γ) {f : γ → Prog Memory α} (hf : ∀ a, Signals P (f a)) :
    Signals P (.load g >>= f) :=
  (signals_of_plain (plain_load g)).then hf

theorem signals_store_bind {update : Memory → Memory} {k : Unit → Prog Memory α}
    (hupdate : ∀ m, Plain m (update m)) (hk : Signals P (k ())) : Signals P (.store update >>= k) :=
  (signals_of_plain (Prog.always_store hupdate)).then fun _ => hk

/-- The store that makes an event. -/
theorem signals_event_bind {update : Memory → Memory} {k : Unit → Prog Memory α}
    (hupdate : ∀ m, Moves m (update m)) (howes : (k ()).Owes P announcement) (hk : Signals P (k ())) :
    Signals P (.store update >>= k) :=
  ⟨hupdate, .inr fun _ => howes, fun _ => hk⟩

theorem owes_load_bind {γ : Type} {duties : List (Memory → Memory → Prop)} (g : Memory → γ)
    {f : γ → Prog Memory α} (hf : ∀ a, (f a).Owes P duties) : (Prog.load g >>= f).Owes P duties :=
  Prog.owes_bind_of hf _

theorem owes_store {duties : List (Memory → Memory → Prop)} {update : Memory → Memory} {P : Unit → Prop}
    (hP : P ()) : (Prog.store update).Owes P duties := .inr fun _ => .inr hP

/-- `signal_managed_event` is the announcement. -/
theorem owes_signal (P : Unit → Prop) : signal_managed_event.Owes P announcement := by
  refine .inl ⟨Bumps, [Wakes], rfl, fun m => rfl, fun _ => .inl ⟨Wakes, [], rfl, fun m => rfl, fun _ => ?_⟩⟩
  exact Prog.owes_nil P _

theorem owes_signal_bind (k : Unit → Prog Memory α) :
    (signal_managed_event >>= k).Owes P announcement :=
  (owes_signal fun _ => False).bind fun _ => False.elim

theorem signals_signal (P : Unit → Prop) : Signals P signal_managed_event := by
  refine ⟨fun m => ⟨.inr rfl, fun _ => id⟩, .inl fun m => ⟨rfl, fun _ => .inl rfl, rfl⟩, fun _ => ?_⟩
  exact ⟨fun m => ⟨.inl rfl, fun _ hpid => absurd hpid List.not_mem_nil⟩,
    .inl fun m => ⟨rfl, fun _ => .inl rfl, rfl⟩, fun _ => trivial⟩

theorem owes_mark_broken (reason : BreakReason) (P : Unit → Prop) :
    (mark_managed_broken reason).Owes P announcement := .inr fun _ => .inr fun _ => owes_signal P

theorem signals_mark_broken (reason : BreakReason) (P : Unit → Prop) :
    Signals P (mark_managed_broken reason) := by
  unfold mark_managed_broken
  refine signals_store_bind (fun m => plain_of_same rfl rfl rfl rfl rfl) ?_
  exact signals_event_bind (fun m => ⟨.inl rfl, fun _ => id⟩) (owes_signal P) (signals_signal P)

/-- The end of a scan at a corrupt slot. -/
theorem signals_corrupt {γ : Type} {P : γ → Prop} (result : γ) :
    Signals P (mark_managed_broken .corrupt_data >>= fun _ => .ret result) :=
  (signals_mark_broken _ _).then fun _ => trivial

theorem owes_corrupt {γ : Type} {P : γ → Prop} (result : γ) :
    (mark_managed_broken .corrupt_data >>= fun _ => .ret result).Owes P announcement :=
  (owes_mark_broken _ fun _ => False).bind fun _ => False.elim

/-- The FREE store ends the reset. -/
theorem signals_reset_slot {mark : Memory → Memory} (hmark : ∀ m, Plain m (mark m)) (index : Nat) :
    Signals (fun _ => True) (reset_managed_slot index mark) := by
  unfold reset_managed_slot
  refine signals_store_bind (plain_set_slot index fun slot => .inl rfl) ?_
  refine signals_store_bind (plain_set_slot index fun slot => .inl rfl) ?_
  refine ⟨fun m => ?_, .inr fun _ => .inr trivial, fun _ => trivial⟩
  have h := (hmark (m.set_slot index fun slot => { slot with state := ManagedSlotState.free.word })).1
  exact ⟨h.epoch, h.sleepers⟩

/-- The rest of a scan after it has made a slot FREE. -/
theorem owes_recover_scan (todo index free_count ready_count discarded : Nat) :
    (recover_scan todo index free_count ready_count discarded).Owes (fun result => result ≠ none)
      announcement := by
  induction todo generalizing index free_count ready_count discarded with
  | zero => exact .inr (Option.some_ne_none _)
  | succ todo ih =>
    rw [recover_scan]
    refine owes_load_bind _ fun state => ?_
    split_ifs
    · exact ih _ _ _ _
    · exact Prog.owes_bind_of (fun _ => ih _ _ _ _) _
    · refine owes_load_bind _ fun corrupt => ?_
      split_ifs
      · exact owes_corrupt none
      · exact ih _ _ _ _
    · exact owes_corrupt none

theorem signals_recover_scan (todo index free_count ready_count discarded : Nat) :
    Signals (fun result => result ≠ none) (recover_scan todo index free_count ready_count discarded) := by
  induction todo generalizing index free_count ready_count discarded with
  | zero => trivial
  | succ todo ih =>
    rw [recover_scan]
    refine signals_load_bind _ fun state => ?_
    split_ifs
    · exact ih _ _ _ _
    · exact (signals_reset_slot Plain.refl index).bind (fun _ _ => owes_recover_scan _ _ _ _ _)
        fun _ => ih _ _ _ _
    · refine signals_load_bind _ fun corrupt => ?_
      split_ifs
      · exact signals_corrupt none
      · exact ih _ _ _ _
    · exact signals_corrupt none

/-- The recovery announces the slots it frees. -/
theorem signals_recover : Signals (fun _ => False) recover_managed_slots := by
  unfold recover_managed_slots
  refine signals_load_bind _ fun capacity => (signals_recover_scan _ _ _ _ _).bind ?_ ?_
  · rintro (_ | ⟨free_count, ready_count, discarded⟩) hsome
    · exact absurd rfl hsome
    · unfold recover_finish
      exact Prog.owes_bind_of (fun _ => Prog.owes_bind_of (fun _ => Prog.owes_bind_of (fun _ =>
        Prog.owes_bind_of (fun _ => Prog.owes_bind_of (fun _ => owes_signal_bind _) _) _) _) _) _
  · rintro (_ | ⟨free_count, ready_count, discarded⟩)
    · trivial
    · exact signals_store_bind (fun m => plain_of_same rfl rfl rfl rfl rfl) <|
        signals_store_bind (fun m => plain_of_same rfl rfl rfl rfl rfl) <|
        signals_store_bind (fun m => plain_of_same rfl rfl rfl rfl rfl) <|
        signals_store_bind (plain_set_counters _) <| signals_store_bind (plain_set_counters _) <|
        (signals_signal _).then fun _ => trivial

theorem signals_validate_scan (todo index free_count writing_count ready_count : Nat) :
    Signals (fun _ => False) (validate_scan todo index free_count writing_count ready_count) := by
  induction todo generalizing index free_count writing_count ready_count with
  | zero => trivial
  | succ todo ih =>
    rw [validate_scan]
    refine signals_load_bind _ fun state => ?_
    split_ifs
    · exact ih _ _ _ _
    · exact ih _ _ _ _
    · refine signals_load_bind _ fun corrupt => ?_
      split_ifs
      · exact signals_corrupt none
      · exact ih _ _ _ _
    · exact signals_corrupt none

theorem signals_validate : Signals (fun _ => False) validate_managed_slots := by
  unfold validate_managed_slots
  refine signals_load_bind _ fun capacity => (signals_validate_scan _ _ _ _ _).then ?_
  rintro (_ | ⟨free_count, writing_count, ready_count⟩)
  · trivial
  · refine signals_load_bind _ fun consistent => ?_
    split_ifs
    · trivial
    · exact signals_corrupt false

theorem plain_take_mutex (pid : Nat) (receiving : Bool) (m : Memory) : Plain m (take_mutex pid receiving m) :=
  plain_of_same rfl rfl rfl rfl rfl

theorem plain_acquire (pid : Nat) (mode : ManagedLockMode) (lock_expires receiving : Bool) :
    (acquire_mutex pid mode lock_expires receiving).Always Plain fun _ => True := by
  have hlock : (pthread_mutex_lock pid receiving).Always Plain fun _ => True :=
    ⟨plain_take_mutex pid receiving, fun _ => trivial⟩
  have htrylock : (pthread_mutex_trylock pid receiving).Always Plain fun _ => True := by
    refine ⟨fun m => ?_, fun _ => trivial⟩
    by_cases hheld : m.header.mutex.is_held = true
    · simp only [hheld, if_true]
      exact Plain.refl m
    · simp only [hheld]
      exact plain_take_mutex pid receiving m
  unfold acquire_mutex
  cases mode with
  | blocking => exact hlock
  | nonblocking => exact htrylock
  | timed =>
    cases lock_expires with
    | true => exact htrylock
    | false => exact hlock

theorem signals_guard (pid : Nat) (mode : ManagedLockMode) (lock_expires receiving : Bool) :
    Signals (fun _ => False) (managed_mutex_guard pid mode lock_expires receiving) := by
  unfold managed_mutex_guard
  refine (signals_of_plain (plain_acquire _ _ _ _)).then fun result => ?_
  cases result with
  | acquired => trivial
  | busy => trivial
  | owner_dead =>
    refine signals_recover.then fun recovered => ?_
    split_ifs
    · trivial
    · trivial

theorem plain_unlock (pid : Nat) : (guard_unlock pid).Always Plain fun _ => True := by
  refine Prog.always_store fun m => ?_
  by_cases hheld : m.header.mutex = .held pid
  · rw [if_pos hheld]
    exact plain_of_same rfl rfl rfl rfl rfl
  · rw [if_neg hheld]
    exact Plain.refl m

theorem signals_unlock_bind {k : Unit → Prog Memory α} (pid : Nat) (hk : Signals P (k ())) :
    Signals P (guard_unlock pid >>= k) :=
  (signals_of_plain (plain_unlock pid)).then fun _ => hk

theorem plain_find_free (capacity start todo offset : Nat) :
    (find_free_slot capacity start todo offset).Always Plain fun _ => True := by
  induction todo generalizing offset with
  | zero => trivial
  | succ todo ih =>
    rw [find_free_slot]
    refine (plain_load _).bind fun state _ => ?_
    split_ifs
    · trivial
    · exact ih _

theorem plain_copy (index offset : Nat) (bytes : Bytes) :
    (copy_payload index offset bytes).Always Plain fun _ => True := by
  induction bytes generalizing offset with
  | nil => trivial
  | cons byte rest ih =>
    exact plain_store_bind (fun m => plain_of_same rfl rfl rfl rfl rfl) (ih _)

theorem plain_reserve (selected : Nat) : (reserve_slot selected).Always Plain fun _ => True := by
  unfold reserve_slot
  refine plain_store_bind (plain_set_slot selected fun slot => .inr rfl) ?_
  refine plain_store_bind (fun m => plain_of_same rfl rfl rfl rfl rfl) ?_
  refine plain_store_bind (fun m => plain_of_same rfl rfl rfl rfl rfl) ?_
  refine plain_store_bind (plain_set_slot selected fun slot => .inl rfl) ?_
  refine ⟨fun m => plain_of_same rfl rfl rfl rfl rfl, fun m => ?_⟩
  exact plain_store_bind (plain_set_slot selected fun slot => .inl rfl) trivial

/-- The READY store is announced after the critical section. -/
theorem signals_publish (selected capacity : Nat) (message : Bytes) :
    Signals (fun _ => True) (publish_message selected capacity message) := by
  unfold publish_message
  refine (signals_of_plain (plain_reserve selected)).then fun sequence => ?_
  refine (signals_of_plain (plain_copy _ _ _)).then fun _ => ?_
  refine signals_store_bind (plain_set_slot selected fun slot => .inl rfl) ?_
  refine signals_event_bind (fun m => ⟨.inl rfl, fun _ => id⟩) ?_ ?_
  · exact Prog.owes_bind_of (fun _ => Prog.owes_bind_of (fun _ => Prog.owes_bind_of (fun _ =>
      Prog.owes_bind_of (fun _ => owes_store trivial) _) _) _) _
  · exact signals_store_bind (fun m => plain_of_same rfl rfl rfl rfl rfl) <|
      signals_store_bind (fun m => plain_of_same rfl rfl rfl rfl rfl) <|
      signals_store_bind (fun m => plain_of_same rfl rfl rfl rfl rfl) <|
      signals_store_bind (plain_set_counters _) <|
      signals_of_plain (Prog.always_store (plain_set_counters _))

theorem signals_send_critical (message : Bytes) (mode : ManagedLockMode) :
    Signals (fun exit => exit = .published) (send_critical message mode) := by
  unfold send_critical
  refine signals_load_bind _ fun locked_state => ?_
  split
  · trivial
  refine signals_validate.then fun valid => ?_
  split
  · trivial
  refine signals_load_bind _ fun free_slots => ?_
  split
  · refine signals_load_bind _ fun next_sequence => ?_
    split
    · exact (signals_mark_broken _ _).then fun _ => trivial
    refine signals_load_bind _ fun capacity => signals_load_bind _ fun start => ?_
    refine (signals_of_plain (plain_find_free _ _ _ _)).then fun found => ?_
    cases found with
    | none => exact (signals_mark_broken _ _).then fun _ => trivial
    | some selected => exact (signals_publish _ _ _).bind (fun _ _ => .inr rfl) fun _ => trivial
  · split
    · trivial
    · exact signals_load_bind _ fun epoch => trivial

theorem plain_find_first (todo index selected selected_sequence : Nat) :
    (find_first_ready todo index selected selected_sequence).Always Plain fun _ => True := by
  induction todo generalizing index selected selected_sequence with
  | zero => trivial
  | succ todo ih =>
    rw [find_first_ready]
    refine (plain_load _).bind fun slot _ => ?_
    split_ifs
    · exact ih _ _ _
    · exact ih _ _ _

/-- The FREE store of a receive too. -/
theorem signals_release (pid selected : Nat) (message : Message) :
    Signals (fun _ => True) (release_slot pid selected message) := by
  unfold release_slot
  refine Signals.bind (signals_reset_slot (fun m => ?_) selected) ?_ ?_
  · exact plain_of_same rfl rfl rfl rfl rfl
  · intro _ _
    exact Prog.owes_bind_of (fun _ => Prog.owes_bind_of (fun _ => Prog.owes_bind_of (fun _ =>
      owes_store trivial) _) _) _
  · intro _
    exact signals_store_bind (fun m => plain_of_same rfl rfl rfl rfl rfl) <|
      signals_store_bind (fun m => plain_of_same rfl rfl rfl rfl rfl) <|
      signals_store_bind (plain_set_counters _) <|
      signals_of_plain (Prog.always_store (plain_set_counters _))

/-- The exits after which a receive announces. -/
def ReceiveExit.took_one : ReceiveExit → Prop
  | took _ => True
  | _ => False

theorem signals_receive_critical (pid : Nat) (mode : ManagedLockMode) (alloc_fails : Bool) :
    Signals ReceiveExit.took_one (receive_critical pid mode alloc_fails) := by
  unfold receive_critical
  refine signals_store_bind (fun m => plain_of_same rfl rfl rfl rfl rfl) ?_
  refine signals_validate.then fun valid => ?_
  split
  · trivial
  refine signals_load_bind _ fun capacity => ?_
  refine (signals_of_plain (plain_find_first _ _ _ _)).then fun selected => ?_
  split
  · refine signals_load_bind _ fun corrupt => ?_
    split
    · exact (signals_mark_broken _ _).then fun _ => trivial
    split
    · trivial
    · exact signals_load_bind _ fun message =>
        (signals_release _ _ _).bind (fun _ _ => .inr trivial) fun _ => trivial
  · refine signals_load_bind _ fun locked_state => ?_
    split
    · trivial
    split
    · trivial
    split
    · trivial
    · exact signals_load_bind _ fun epoch => trivial

/-- What the whole of a program signals, the waits of `pid` included. -/
def SignalsAs (pid : Nat) (P : α → Prop) (p : Prog Memory α) : Prop :=
  p.Heralds (Stirs pid) Uneventful announcement P

theorem Signals.stirs (h : Signals P p) (pid : Nat) : SignalsAs pid P p :=
  Prog.Heralds.mono h fun _ _ hmoves => hmoves.stirs pid

theorem SignalsAs.then {pid : Nat} (hp : SignalsAs pid (fun _ => False) p) (hf : ∀ a, SignalsAs pid Q (f a)) :
    SignalsAs pid Q (p >>= f) :=
  Prog.Heralds.bind hp (fun _ => False.elim) hf

/-- Sleeping and waking up are no events. -/
theorem signals_futex_wait (pid epoch : Nat) (expires : Bool) :
    SignalsAs pid (fun _ => False) (futex_wait_until pid epoch expires) := by
  have hsleepers (m : Memory) {waiters : List Nat}
      (hwaiters : ∀ other, other ≠ pid → other ∈ waiters → other ∈ m.waiters) :
      Stirs pid m { m with waiters := waiters } ∧ Uneventful m { m with waiters := waiters } :=
    ⟨⟨.inl rfl, hwaiters⟩, ⟨rfl, fun _ => .inl rfl, rfl⟩⟩
  refine Prog.heralds_of_always ⟨fun m => ?_, fun m => ?_⟩
  · by_cases hepoch : m.header.event_epoch = epoch
    · simp only [hepoch, if_true]
      exact hsleepers m fun other hother hmem => (List.mem_cons.mp hmem).resolve_left hother
    · simp only [hepoch, if_false]
      exact hsleepers m fun other _ hmem => hmem
  · by_cases hepoch : m.header.event_epoch = epoch
    · simp only [hepoch, decide_true]
      exact ⟨fun m' => hsleepers m' fun other _ hmem => (List.mem_filter.mp hmem).1, fun _ => trivial⟩
    · simp only [hepoch, decide_false]
      exact trivial

theorem signals_wait (pid epoch : Nat) (expires : Bool)
    (waiting : (Nat → Nat) → ManagedCounters → ManagedCounters) :
    SignalsAs pid (fun _ => False) (wait_for_event pid epoch expires waiting) := by
  have hcount (g : ManagedCounters → ManagedCounters) :
      SignalsAs pid (fun _ => False) (.store fun m => m.set_counters g) :=
    (signals_of_plain (Prog.always_store (plain_set_counters g))).stirs pid
  unfold wait_for_event
  exact (hcount _).then fun _ => (signals_futex_wait _ _ _).then fun _ => (hcount _).then fun _ => trivial

/-- A pass that found the mutex busy. -/
theorem signals_refused (count : Prog Memory Unit) {outcome : Outcome}
    (hcount : count.Always Plain fun _ => True) (pid : Nat) :
    Signals (fun _ => False) (count >>= fun _ => guard_unlock pid >>= fun _ => .ret outcome) :=
  (signals_of_plain hcount).then fun _ => signals_unlock_bind pid trivial

theorem signals_send_impl (pid : Nat) (message : Bytes) (mode : ManagedLockMode) (c : Circumstances) :
    SignalsAs pid (fun _ => False) (send_impl pid message mode c) := by
  unfold send_impl
  refine ((signals_of_plain (plain_load _)).stirs pid).then fun max_message_size => ?_
  split
  · trivial
  refine ((signals_of_plain (plain_load _)).stirs pid).then fun before_lock => ?_
  split
  · trivial
  refine ((signals_guard _ _ _ _).stirs pid).then fun status => ?_
  split
  · refine (signals_refused _ ?_ pid).stirs pid
    split
    · exact Prog.always_store (plain_set_counters _)
    · trivial
  refine Prog.Heralds.bind ((signals_send_critical message mode).stirs pid) ?_ fun exit => ?_
  · rintro exit rfl
    exact Prog.owes_bind_of (fun _ => owes_signal_bind _) _
  refine ((signals_of_plain (plain_unlock pid)).stirs pid).then fun _ => ?_
  cases exit with
  | leave status => trivial
  | published =>
    exact ((signals_signal _).stirs pid).then fun _ =>
      ((signals_of_plain (plain_load _)).stirs pid).then fun _ => trivial
  | wait epoch =>
    refine (signals_wait _ _ _ _).then fun expired => ?_
    split
    · exact ((signals_of_plain (Prog.always_store (plain_set_counters _))).stirs pid).then fun _ => trivial
    · trivial

theorem signals_receive_impl (pid : Nat) (mode : ManagedLockMode) (c : Circumstances) :
    SignalsAs pid (fun _ => False) (receive_impl pid mode c) := by
  unfold receive_impl
  refine ((signals_of_plain (plain_load _)).stirs pid).then fun before_lock => ?_
  split
  · trivial
  refine ((signals_guard _ _ _ _).stirs pid).then fun status => ?_
  split
  · refine (signals_refused _ ?_ pid).stirs pid
    split
    · exact Prog.always_store (plain_set_counters _)
    · trivial
  refine Prog.Heralds.bind ((signals_receive_critical pid mode _).stirs pid) ?_ fun exit => ?_
  · intro exit htook
    cases exit with
    | took payload => exact Prog.owes_bind_of (fun _ => owes_signal_bind _) _
    | leave status => exact htook.elim
    | threw => exact htook.elim
    | wait epoch => exact htook.elim
  refine ((signals_of_plain (plain_unlock pid)).stirs pid).then fun _ => ?_
  cases exit with
  | leave status => trivial
  | threw => trivial
  | took payload => exact ((signals_signal _).stirs pid).then fun _ => trivial
  | wait epoch =>
    refine (signals_wait _ _ _ _).then fun expired => ?_
    split
    · exact ((signals_of_plain (Prog.always_store (plain_set_counters _))).stirs pid).then fun _ => trivial
    · trivial

/-- `close` announces its store. -/
theorem signals_close (pid : Nat) : Signals (fun _ => False) (close pid) := by
  have hcritical : Signals (fun stored => stored = true) close_critical := by
    unfold close_critical
    refine signals_load_bind _ fun current => ?_
    split
    · trivial
    · exact signals_event_bind (fun m => ⟨.inl rfl, fun _ => id⟩) (.inr rfl) trivial
  unfold close
  refine (signals_guard _ _ _ _).then fun status => ?_
  split
  · exact signals_unlock_bind pid trivial
  refine hcritical.bind ?_ fun stored => signals_unlock_bind pid ?_
  · rintro stored rfl
    exact Prog.owes_bind_of (fun _ => owes_signal_bind _) _
  · split
    · exact (signals_signal _).then fun _ => trivial
    · trivial

theorem signals_stats (pid : Nat) : Signals (fun _ => False) (stats pid) := by
  unfold stats
  refine signals_load_bind _ fun header => (signals_guard _ _ _ _).then fun status => ?_
  split
  · exact signals_load_bind _ fun _ => signals_unlock_bind pid trivial
  · exact signals_load_bind _ fun _ => signals_unlock_bind pid trivial

theorem signals_unlink_mapping : Signals (fun _ => False) unlink_mapping :=
  signals_event_bind (fun _ => ⟨.inl rfl, fun _ => id⟩) (owes_signal_bind _) <|
    (signals_signal _).then fun _ => trivial

/-- Every operation announces every event that it makes. -/
theorem signals_attempt (pid : Nat) (op : Op) (c : Circumstances) :
    SignalsAs pid (fun _ => False) (attempt pid op c) := by
  cases op with
  | send message mode => exact signals_send_impl pid message mode c
  | receive mode => exact signals_receive_impl pid mode c
  | close => exact (signals_close pid).stirs pid
  | stats => exact (signals_stats pid).stirs pid
  | unlink => exact signals_unlink_mapping.stirs pid

theorem signals_pass (pid : Nat) (received : List Bytes) (op : Op) (c : Circumstances) :
    SignalsAs pid (fun _ => False) (pass received (attempt pid op c)) :=
  (signals_attempt pid op c).then fun _ => trivial

end

end shmchan.managed
