import Shmchan.Managed.Scans
import Shmchan.Managed.Rely
import Shmchan.Managed.Uniform

open process

namespace shmchan.managed

/-- `pid` holds the mutex and has not changed the queue since it took it. -/
structure Entered (pid : Nat) (receiving : Bool) (m : Memory) : Prop where
  mutex : m.header.mutex = .held pid
  sound : Sound m
  sender : receiving = false → m.history.entry = none
  receiver : receiving = true → ∃ entry, m.history.entry = some entry ∧ m.queue = entry.queue ∧
    ¬ HalfErased m entry

/-- What the guard guarantees when its status is `success`. -/
structure Owned (pid : Nat) (receiving : Bool) (m : Memory) : Prop extends Entered pid receiving m where
  settled : Settled m

section

variable {unlinks receiving : Bool} {pid : Nat} {m m' s t : Memory}

theorem SameQueue.owned (h : SameQueue m m') (hmutex : m'.header.mutex = m.header.mutex)
    (hfree : m'.header.free_slots = m.header.free_slots)
    (hwriting : m'.header.writing_messages = m.header.writing_messages)
    (hready : m'.header.ready_messages = m.header.ready_messages) (hm : Owned pid receiving m) :
    Owned pid receiving m' := by
  have hslots (state : ManagedSlotState) : m'.slots_in state = m.slots_in state :=
    Memory.slots_in_congr h.capacity fun i _ => by rw [h.slots]
  refine ⟨⟨hmutex.trans hm.mutex, h.sound hm.sound, fun hreceiving => ?_, fun hreceiving => ?_⟩,
    ⟨fun i hi => ?_, ?_, hwriting.trans hm.settled.writing, ?_⟩⟩
  · rw [h.history]
    exact hm.sender hreceiving
  · obtain ⟨entry, hentry, hqueue, hkept⟩ := hm.receiver hreceiving
    exact ⟨entry, h.history ▸ hentry, h.queue.trans hqueue, mt h.halfErased.mp hkept⟩
  · rw [h.slots]
    exact hm.settled.idle i (h.capacity ▸ hi)
  · rw [hfree, hslots]
    exact hm.settled.free
  · rw [hready, hslots]
    exact hm.settled.ready

theorem Entered.interference (h : Entered pid receiving m) (hm : Interference unlinks m m') :
    Entered pid receiving m' := by
  have hsame := hm.sameQueue
  refine ⟨hm.mutex.trans h.mutex, hsame.sound h.sound, fun hreceiving => ?_, fun hreceiving => ?_⟩
  · rw [hsame.history]
    exact h.sender hreceiving
  · obtain ⟨entry, hentry, hqueue, hkept⟩ := h.receiver hreceiving
    exact ⟨entry, hsame.history ▸ hentry, hsame.queue.trans hqueue, mt hsame.halfErased.mp hkept⟩

theorem Owned.interference (h : Owned pid receiving m) (hm : Interference unlinks m m') :
    Owned pid receiving m' :=
  ⟨h.toEntered.interference hm, h.settled.interference hm⟩

theorem Entered.recovering (h : Entered pid receiving m) (ht : Recovering m t) :
    Entered pid receiving t := by
  refine ⟨ht.mutex.trans h.mutex, ht.sound h.sound, fun hreceiving => ?_, fun hreceiving => ?_⟩
  · rw [ht.history]
    exact h.sender hreceiving
  · obtain ⟨entry, hentry, hqueue, hkept⟩ := h.receiver hreceiving
    exact ⟨entry, ht.history ▸ hentry, ht.queue.trans hqueue, mt ht.halfErased.mp hkept⟩

/-- A load by the owner: the others have interfered at most. -/
theorem Owned.load_bind {α β : Type} {post : β → Memory → Prop} {f : Memory → α}
    {k : α → Prog Memory β} (h : Owned pid receiving s)
    (hk : ∀ m, Interference unlinks s m → Inv unlinks m → Owned pid receiving m →
      Safe (reliance unlinks) pid post (k (f m)) m) :
    Safe (reliance unlinks) pid post (.load f >>= k) s :=
  Safe.load_bind fun m hrely hinv =>
    hk m (hrely.held h.mutex) hinv (h.interference (hrely.held h.mutex))

/-- A process that has the mutex and an unchanged queue satisfies everything
    the invariant says about the queue. -/
theorem Entered.inv (h : Entered pid receiving t) (hm : Inv unlinks m)
    (hconfigured : Configured t) (hnext : t.header.next_sequence = m.header.next_sequence)
    (hclaimed : t.history.claimed = m.history.claimed)
    (hstate : t.header.state = m.header.state ∨ t.header.state = ManagedChannelState.closed.word ∨
      (t.header.state = ManagedChannelState.broken.word ∧ m.history.claimed = 2 ^ 64 - 2)) :
    Inv unlinks t := by
  refine ⟨hconfigured, ?_, ?_, ?_, ?_, ?_, ?_, fun _ => h.sound, fun _ _ _ => h.sound, ?_⟩
  · rw [hnext, hclaimed]
    exact hm.claimed
  · rw [hclaimed]
    exact hm.claimed_lt
  · rw [hclaimed]
    rcases hstate with hstate | hclosed | hbroken
    · rw [hstate]
      exact hm.state
    · exact .inr (.inl hclosed)
    · exact .inr (.inr (.inr hbroken))
  · rw [h.mutex]
    exact RobustMutex.noConfusion
  · rw [h.mutex]
    exact RobustMutex.noConfusion
  · intro _
    rw [h.mutex]
    rfl
  · intro entry hentry
    cases receiving with
    | false => simp [h.sender rfl] at hentry
    | true =>
      obtain ⟨entry', hentry', hqueue, hkept⟩ := h.receiver rfl
      obtain rfl : entry' = entry := Option.some.inj (hentry'.symm.trans hentry)
      exact .untouched h.sound hqueue hkept

/-- Taking a mutex that no live process holds. -/
theorem Inv.take_mutex (pid : Nat) (receiving : Bool) (hm : Inv unlinks m) (hfree : m.header.mutex.is_held = false) :
    Inv unlinks (take_mutex pid receiving m) ∧ Entered pid receiving (take_mutex pid receiving m) := by
  have hentry : m.history.entry = none := by
    by_contra hsome
    rw [hm.entry hsome] at hfree
    cases hfree
  have hmutex : (managed.take_mutex pid receiving m).header.mutex = .held pid := rfl
  have hslots : (managed.take_mutex pid receiving m).slots = m.slots := rfl
  have hqueue : (managed.take_mutex pid receiving m).queue = m.queue := rfl
  have hsound : Sound (managed.take_mutex pid receiving m) := by
    have h := hm.sound hentry
    exact ⟨⟨h.wellFormed.states, h.wellFormed.ready, h.wellFormed.distinct⟩, h.history, h.increasing,
      h.below⟩
  have hentered : Entered pid receiving (managed.take_mutex pid receiving m) := by
    refine ⟨hmutex, hsound, fun hreceiving => ?_, fun hreceiving => ?_⟩
    · simp [managed.take_mutex, hreceiving]
    · refine ⟨⟨m.slots, m.queue, false⟩, by simp [managed.take_mutex, hreceiving], hqueue, ?_⟩
      rintro ⟨i, _, _, hne⟩
      exact hne rfl
  refine ⟨hentered.inv hm ⟨?_, ?_, ?_, ?_⟩ rfl rfl (.inl rfl), hentered⟩
  · exact hm.configured.capacity_pos
  · exact hm.configured.capacity_lt
  · exact hm.configured.max_lt
  · exact hm.configured.max_le_stride

/-- Recovery under the lock: every store of it keeps the invariant, it
    succeeds, and the guard ends up owning a settled channel. -/
theorem recover_managed_slots_safe (hinv : Inv unlinks s) (hentered : Entered pid receiving s) :
    Safe (reliance unlinks) pid
      (fun result m => result = true ∧ Owned pid receiving m ∧ Kept pid s m)
      recover_managed_slots s := by
  refine safe_of_crashSafe uniform_recover hentered.mutex ?_ ?_
  · rintro result m m' ⟨hresult, howned, hkept⟩ h
    exact ⟨hresult, howned.interference h, hkept.trans (h.kept pid)⟩
  · have hkept (t : Memory) (ht : Recovering s t) (other : Nat) : Kept other s t :=
      ⟨by rw [Memory.taken_by, Memory.taken_by, ht.history], ht.max⟩
    refine (recover_managed_slots_crashSafe (fun t t' ht ht' => ?_) hentered.sound.wellFormed).mono
      (fun _ _ h => h) ?_
    · have hentered' := hentered.recovering ht'
      refine ⟨ht.mutex.trans hentered.mutex, hentered'.mutex, ?_, fun other _ => ?_⟩
      · exact hentered'.inv hinv (ht'.configured hinv.configured) ht'.next (by rw [ht'.history])
          (.inl ht'.state)
      · exact ⟨(hkept t' ht' other).taken.trans (hkept t ht other).taken.symm, ht'.max.trans ht.max.symm⟩
    · rintro result t ⟨hresult, ht, hsettled⟩
      exact ⟨hresult, ⟨hentered.recovering ht, hsettled⟩, hkept t ht pid⟩

/-- What is known once `pthread_mutex_lock` or `pthread_mutex_trylock` returns. -/
def Locked (unlinks receiving : Bool) (pid : Nat) (s : Memory) (result : LockResult) (m : Memory) :
    Prop :=
  Kept pid s m ∧
    match result with
    | .acquired => Owned pid receiving m
    | .owner_dead => Inv unlinks m ∧ Entered pid receiving m
    | .busy => m.header.mutex ≠ .held pid

theorem Inv.acquire (hm : Inv unlinks m) (hfree : m.header.mutex.is_held = false)
    (hkept : Kept pid s m) :
    Inv unlinks (managed.take_mutex pid receiving m) ∧
      (∀ other, other ≠ pid → Rely unlinks other m (managed.take_mutex pid receiving m)) ∧
      Locked unlinks receiving pid s (lock_result m) (managed.take_mutex pid receiving m) := by
  obtain ⟨hinv, hentered⟩ := hm.take_mutex pid receiving hfree
  refine ⟨hinv, fun other hother => ⟨⟨rfl, rfl⟩, ?_, fun hheld => ?_⟩,
    ⟨hkept.taken, hkept.max⟩, ?_⟩
  · rw [hentered.mutex]
    constructor
    · intro heq
      cases heq
      exact absurd rfl hother
    · intro heq
      rw [heq] at hfree
      cases hfree
  · rw [hheld] at hfree
    cases hfree
  · cases hmutex : m.header.mutex with
    | raw => exact absurd hmutex hm.initialized
    | unlocked =>
      have hsettled := hm.unlocked hmutex
      simp only [lock_result, hmutex]
      exact ⟨hentered, ⟨hsettled.idle, hsettled.free, hsettled.writing, hsettled.ready⟩⟩
    | held owner =>
      rw [hmutex] at hfree
      cases hfree
    | owner_dead =>
      simp only [lock_result, hmutex]
      exact ⟨hinv, hentered⟩

theorem pthread_mutex_lock_safe :
    Safe (reliance unlinks) pid (Locked unlinks receiving pid s) (pthread_mutex_lock pid receiving) s := by
  intro m hrely hinv henabled
  exact Inv.acquire hinv (by simpa using henabled) hrely.toKept

theorem pthread_mutex_trylock_safe (hnot : s.header.mutex ≠ .held pid) :
    Safe (reliance unlinks) pid (Locked unlinks receiving pid s)
      (pthread_mutex_trylock pid receiving) s := by
  intro m hrely hinv _
  by_cases hheld : m.header.mutex.is_held = true
  · simp only [hheld, if_true]
    refine ⟨hinv, fun other _ => Rely.refl unlinks other m, hrely.toKept, ?_⟩
    cases hmutex : m.header.mutex with
    | raw => simp [hmutex, RobustMutex.is_held] at hheld
    | unlocked => simp [hmutex, RobustMutex.is_held] at hheld
    | owner_dead => simp [hmutex, RobustMutex.is_held] at hheld
    | held owner =>
      simp only [lock_result, hmutex]
      exact mt (fun h => hrely.mutex.mp (hmutex.trans h)) hnot
  · simp only [hheld]
    exact Inv.acquire hinv (by simpa using hheld) hrely.toKept

theorem acquire_mutex_safe (mode : ManagedLockMode) (lock_expires : Bool)
    (hnot : s.header.mutex ≠ .held pid) :
    Safe (reliance unlinks) pid (Locked unlinks receiving pid s)
      (acquire_mutex pid mode lock_expires receiving) s := by
  cases mode with
  | blocking => exact pthread_mutex_lock_safe
  | nonblocking => exact pthread_mutex_trylock_safe hnot
  | timed =>
    cases lock_expires with
    | false => exact pthread_mutex_lock_safe
    | true => exact pthread_mutex_trylock_safe hnot

/-- The guard either owns a settled channel, after a recovery if the previous
    owner died, or reports that the mutex stayed busy. -/
theorem managed_mutex_guard_safe (receiving : Bool) (mode : ManagedLockMode) (lock_expires : Bool)
    (hnot : s.header.mutex ≠ .held pid) :
    Safe (reliance unlinks) pid
      (fun status m => Kept pid s m ∧
        ((status = .success ∧ Owned pid receiving m) ∨
          ((status = .would_block ∨ status = .timed_out) ∧ m.header.mutex ≠ .held pid)))
      (managed_mutex_guard pid mode lock_expires receiving) s := by
  unfold managed_mutex_guard
  refine (acquire_mutex_safe mode lock_expires hnot).bind ?_
  rintro result m ⟨hkept, hresult⟩
  cases result with
  | acquired => exact ⟨hkept, .inl ⟨rfl, hresult⟩⟩
  | busy =>
    refine ⟨hkept, .inr ⟨?_, hresult⟩⟩
    split_ifs
    · exact .inl rfl
    · exact .inr rfl
  | owner_dead =>
    obtain ⟨hinv, hentered⟩ := hresult
    refine (recover_managed_slots_safe hinv hentered).bind ?_
    rintro recovered m' ⟨rfl, howned, hkept'⟩
    exact ⟨hkept.trans hkept', .inl ⟨rfl, howned⟩⟩

theorem Inv.release_mutex (hm : Inv unlinks m) (hsettled : Settled m) (hsound : Sound m) :
    Inv unlinks (managed.release_mutex m) where
  configured := ⟨hm.configured.capacity_pos, hm.configured.capacity_lt, hm.configured.max_lt,
    hm.configured.max_le_stride⟩
  claimed := hm.claimed
  claimed_lt := hm.claimed_lt
  state := hm.state
  initialized := RobustMutex.noConfusion
  unlocked _ := ⟨hsettled.idle, hsettled.free, hsettled.writing, hsettled.ready⟩
  entry h := absurd rfl h
  sound _ := ⟨⟨hsound.wellFormed.states, hsound.wellFormed.ready, hsound.wellFormed.distinct⟩,
    hsound.history, hsound.increasing, hsound.below⟩
  outside _ h _ := nomatch h
  progress _ h := nomatch h

/-- Unlocking a settled channel. -/
theorem guard_unlock_safe {post : Unit → Memory → Prop}
    (hpost : ∀ m, Interference unlinks s m → post () (managed.release_mutex m))
    (hheld : s.header.mutex = .held pid) (hsettled : Settled s) (hsound : Sound s) :
    Safe (reliance unlinks) pid post (guard_unlock pid) s := by
  intro m hrely hinv _
  have hE : Interference unlinks s m := hrely.held hheld
  have hmutex : m.header.mutex = .held pid := hE.mutex.trans hheld
  simp only [hmutex, if_true]
  refine ⟨Inv.release_mutex hinv (hsettled.interference hE) (hE.sameQueue.sound hsound),
    fun other hother => ⟨⟨rfl, rfl⟩, ?_, fun h => ?_⟩, hpost m hE⟩
  · rw [hmutex]
    constructor
    · intro h
      cases h
    · intro h
      cases h
      exact absurd rfl hother
  · rw [hmutex] at h
    cases h
    exact absurd rfl hother

/-- The destructor of a guard that does not own the mutex does nothing. -/
theorem guard_unlock_safe_of_not_held {post : Unit → Memory → Prop}
    (hpost : ∀ m, Rely unlinks pid s m → post () m) (hnot : s.header.mutex ≠ .held pid) :
    Safe (reliance unlinks) pid post (guard_unlock pid) s := by
  intro m hrely hinv _
  have hnot' : m.header.mutex ≠ .held pid := mt hrely.mutex.mp hnot
  simp only [hnot', if_false]
  exact ⟨hinv, fun other _ => Rely.refl unlinks other m, hpost m hrely⟩

/-- Under the lock validation succeeds. -/
theorem validate_managed_slots_safe (hinv : Inv unlinks s) (howned : Owned pid receiving s) :
    Safe (reliance unlinks) pid (fun result m => result = true ∧ Interference unlinks s m)
      validate_managed_slots s := by
  refine safe_of_crashSafe uniform_validate howned.mutex ?_ ?_
  · rintro result m m' ⟨hresult, hm⟩ h
    exact ⟨hresult, hm.trans h⟩
  · refine (validate_managed_slots_crashSafe ?_ howned.sound.wellFormed howned.settled).mono
      (fun _ _ h => h) ?_
    · exact ⟨howned.mutex, howned.mutex, hinv, fun other _ => Kept.refl other s⟩
    · rintro result t ⟨hresult, rfl⟩
      exact ⟨hresult, Interference.refl unlinks t⟩

/-- FREE slots are what the queue leaves of the capacity. -/
theorem Owned.free_slots (h : Owned pid receiving m) :
    m.header.free_slots + m.queue.length = m.header.message_capacity := by
  rw [h.settled.free, Memory.queue_length, h.settled.counts_add h.sound.wellFormed]

end

end shmchan.managed
