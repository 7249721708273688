import Shmchan.Managed.History

open process

namespace shmchan.managed

/-- Receivers are not killed inside their critical section. Any process may
    die at any other store, of a recovery too. -/
def spares_receivers (pid : Nat) (m : Memory) : Prop :=
  m.header.mutex = .held pid → ∀ entry, m.history.entry = some entry → entry.inside = false

/-- What every state of the channel promises about its messages. -/
structure MessagesKept (m : Memory) : Prop where
  state : m.header.state = ManagedChannelState.healthy.word ∨
    m.header.state = ManagedChannelState.closed.word
  -- published messages are those taken, then those queued, whole and in order
  kept : m.history.entry = none → m.history.published = m.history.taken.map Prod.fst ++ m.queue
  -- while a receive has the mutex they are those it found, or it has taken the first
  receiving : ∀ entry, m.history.entry = some entry →
    m.history.published = m.history.taken.map Prod.fst ++ entry.queue ∨
      (m.history.published = m.history.taken.map Prod.fst ++ entry.queue.tail ∧
        m.queue = entry.queue.tail)
  increasing : m.history.published.Pairwise fun a b => a.1 < b.1
  settled : m.header.mutex = .unlocked → Settled m

/-- What the recovery of an abandoned channel does: it succeeds, frees every
    unpublished slot, makes the counts true and keeps queue, state and history. -/
structure RecoveryRestores (m : Memory) (result : Bool) (m' : Memory) : Prop where
  succeeds : result = true
  state : m'.header.state = m.header.state
  queue : m'.queue = m.queue
  published : m'.history.published = m.history.published
  taken : m'.history.taken = m.history.taken
  freed : ∀ i, i < m.header.message_capacity →
    (m.slots i).state ≠ ManagedSlotState.ready.word →
      (m'.slots i).state = ManagedSlotState.free.word
  settled : Settled m'

section

variable {unlinks : Bool} {pid : Nat} {m : Memory}

theorem sound_of_spares_receivers (hinv : Inv unlinks m) (hdie : spares_receivers pid m)
    (hmutex : m.header.mutex = .held pid) : Sound m := by
  cases hentry : m.history.entry with
  | none => exact hinv.sound hentry
  | some entry => exact hinv.outside entry hentry (hdie hmutex entry hentry)

/-- The invariant, read without its bookkeeping. -/
theorem Inv.messagesKept (hinv : Inv false m) (hfew : m.history.claimed < 2 ^ 64 - 2) :
    MessagesKept m := by
  refine ⟨?_, fun hentry => (hinv.sound hentry).history, fun entry hentry => ?_, ?_, hinv.unlocked⟩
  · rcases hinv.state with h | h | ⟨_, h⟩ | ⟨_, h⟩
    · exact .inl h
    · exact .inr h
    · cases h
    · omega
  · cases hinv.progress entry hentry with
    | untouched hsound hqueue => exact .inl (hqueue ▸ hsound.history)
    | truncated _ _ _ _ _ _ _ _ hhistory _ => exact .inl hhistory
    | unsequenced _ _ _ _ _ hhistory _ => exact .inl hhistory
    | taken hsound _ hqueue => exact .inr ⟨hqueue ▸ hsound.history, hqueue⟩
  · cases hentry : m.history.entry with
    | none => exact (hinv.sound hentry).increasing
    | some entry =>
      cases hinv.progress entry hentry with
      | untouched hsound => exact hsound.increasing
      | taken hsound => exact hsound.increasing
      | truncated _ _ _ _ _ _ _ _ _ hincreasing => exact hincreasing
      | unsequenced _ _ _ _ _ _ hincreasing => exact hincreasing

/-- Recovery by whoever locks an abandoned channel next. -/
theorem Inv.recoveryRestores (hinv : Inv unlinks m) (hdead : m.header.mutex = .owner_dead)
    (other : Nat) (receiving : Bool) :
    RecoveryRestores m (recover_managed_slots.exec (managed.take_mutex other receiving m)).1
      (recover_managed_slots.exec (managed.take_mutex other receiving m)).2 := by
  obtain ⟨_, hentered⟩ := hinv.take_mutex other receiving
    (by rw [hdead]; rfl)
  obtain ⟨hresult, hrecovering, hsettled⟩ := (recover_managed_slots_crashSafe (G := fun _ _ => True)
    (fun _ _ _ _ => trivial) hentered.sound.wellFormed).exec
  refine ⟨hresult, hrecovering.state, hrecovering.queue, ?_, ?_, fun i hi hnot => ?_, hsettled⟩
  · rw [hrecovering.history]
    rfl
  · rw [hrecovering.history]
    rfl
  · have hidle := hsettled.idle i (hrecovering.capacity.symm ▸ hi)
    have hready := mt (hrecovering.ready_iff i).mp hnot
    rcases (hrecovering.wellFormed hentered.sound.wellFormed).states i
      (hrecovering.capacity.symm ▸ hi) with h | h | h
    · exact h
    · exact absurd h hidle
    · exact absurd h hready

end

/-- Producers, closers and recoverers may die at any store, in any run: as long
    as the sequences last, no message is lost, altered, repeated or invented,
    and the next recovery always succeeds. -/
theorem sender_deaths_keep_messages {options : ManagedChannelOptions} {layout : ManagedLayout}
    (hlayout : checked_managed_layout options.message_capacity options.max_message_size = .ok layout)
    {c : Config Memory Session Nat}
    (hreach : Reachable (discipline false spares_receivers) (initial options layout) c)
    (hfew : c.shared.history.claimed < 2 ^ 64 - 2) :
    MessagesKept c.shared ∧
      (∀ c', Reachable (discipline false spares_receivers) c c' → HistoryGrows c.shared c'.shared) ∧
      (∀ pid session, c.procs pid = .ret session → session.outcome ≠ .dead →
        c.shared.taken_by pid = session.received) ∧
      (c.shared.header.mutex = .owner_dead → ∀ other receiving,
        RecoveryRestores c.shared
          (recover_managed_slots.exec (take_mutex other receiving c.shared)).1
          (recover_managed_slots.exec (take_mutex other receiving c.shared)).2) := by
  obtain ⟨hinv, hbetween⟩ := reachable_inv (fun _ _ => sound_of_spares_receivers) hlayout hreach
  exact ⟨hinv.messagesKept hfew,
    fun c' hlater => reachable_history (fun _ => ⟨_, rfl⟩) hreach hlater,
    fun pid session hsession => (hbetween pid session hsession).2,
    fun hdead other receiving => hinv.recoveryRestores hdead other receiving⟩

/-- A sender is killed in the middle of its copy. -/
theorem sender_deaths_keep_messages_one_slot :
    let c := call (initial one_slot one_slot_layout) 0 (.send [7] .blocking) 22
    RecoveryRestores (on_death 0 c.shared)
      (recover_managed_slots.exec (take_mutex 1 true (on_death 0 c.shared))).1
      (recover_managed_slots.exec (take_mutex 1 true (on_death 0 c.shared))).2 := by
  intro c
  have hreach : Reachable (discipline false spares_receivers) (initial one_slot one_slot_layout) c :=
    reachable_call .refl Op.noConfusion rfl 22
  have hentry : c.shared.history.entry.isSome = false := by decide +kernel
  have hspares : spares_receivers 0 c.shared := by
    intro _ entry hsome
    rw [hsome] at hentry
    cases hentry
  exact (sender_deaths_keep_messages one_slot_layout_ok (hreach.step (.die hspares))
    (by decide +kernel)).2.2.2 (by decide +kernel) 1 true

end shmchan.managed
