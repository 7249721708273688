import Shmchan.Managed.Guard
import Shmchan.Managed.Send.Publish

open process

namespace shmchan.managed

/-- What the critical section of a send did to the channel `s` it found. -/
inductive SendEffect (unlinks : Bool) (s : Memory) (message : Bytes) (mode : ManagedLockMode) :
    SendExit → Memory → Prop where
  | refused {m m' : Memory} (hbefore : Interference unlinks s m)
      (hstate : operation_state_of m ≠ .success) (hafter : Interference unlinks m m') :
      SendEffect unlinks s message mode (.leave (operation_state_of m)) m'
  | exhausted {m m' : Memory} (hbefore : Interference unlinks s m)
      (hstate : operation_state_of m = .success) (hclaimed : s.history.claimed = 2 ^ 64 - 2) :
      SendEffect unlinks s message mode (.leave .broken) m'
  | published {m₀ m t m' : Memory} (hbefore : Interference unlinks s m₀)
      (hstate : operation_state_of m₀ = .success) (hlater : Interference unlinks m₀ m)
      (hroom : s.queue.length < s.header.message_capacity) (hpublished : Published m message t)
      (hafter : Interference unlinks t m') : SendEffect unlinks s message mode .published m'
  | full {m m' : Memory} {epoch : Nat} (hbefore : Interference unlinks s m)
      (hstate : operation_state_of m = .success) (hafter : Interference unlinks m m')
      (hfull : s.queue.length = s.header.message_capacity) :
      SendEffect unlinks s message mode
        (if mode = .nonblocking then .leave .would_block else .wait epoch) m'

section

variable {unlinks receiving : Bool} {pid : Nat} {m m' s t : Memory}

/-- A point of `mark_managed_broken`. -/
structure Marking (m t : Memory) : Prop where
  header : ∃ state reason event_epoch,
    (state = m.header.state ∨ state = ManagedChannelState.broken.word) ∧
      t.header = { m.header with state := state, reason := reason, event_epoch := event_epoch }
  slots : t.slots = m.slots
  payloads : t.payloads = m.payloads
  history : t.history = m.history

theorem Marking.sameQueue (h : Marking m t) : SameQueue m t := by
  obtain ⟨_, _, _, _, hheader⟩ := h.header
  exact ⟨by rw [hheader], by rw [hheader], by rw [hheader], h.slots, h.payloads, by rw [hheader],
    h.history⟩

theorem Marking.owned (h : Marking m t) (hm : Owned pid receiving m) : Owned pid receiving t := by
  obtain ⟨_, _, _, _, hheader⟩ := h.header
  exact h.sameQueue.owned (by rw [hheader]) (by rw [hheader]) (by rw [hheader]) (by rw [hheader]) hm

/-- Once the sequences are used up the channel may be marked broken. -/
theorem mark_exhausted_safe (hinv : Inv unlinks s) (howned : Owned pid receiving s)
    (hclaimed : s.history.claimed = 2 ^ 64 - 2) :
    Safe (reliance unlinks) pid
      (fun _ m => Owned pid receiving m ∧ m.taken_by pid = s.taken_by pid)
      (mark_managed_broken .sequence_exhausted) s := by
  have hG (t t' : Memory) (ht : Marking s t) (ht' : Marking s t') : Holding unlinks pid t t' := by
    have howned' := ht'.owned howned
    obtain ⟨state, reason, epoch, hstate, hheader⟩ := ht'.header
    refine ⟨(ht.owned howned).mutex, howned'.mutex, ?_, fun other _ => ?_⟩
    · refine howned'.toEntered.inv hinv (ht'.sameQueue.configured hinv.configured) ht'.sameQueue.next
        (by rw [ht'.history]) ?_
      rw [hheader]
      exact hstate.imp_right fun h => .inr ⟨h, hclaimed⟩
    · exact ⟨by rw [Memory.taken_by, Memory.taken_by, ht.history, ht'.history],
        ht'.sameQueue.max.trans ht.sameQueue.max.symm⟩
  have h₀ : Marking s s := ⟨⟨_, _, _, .inl rfl, rfl⟩, rfl, rfl, rfl⟩
  have h₁ : Marking s (s.set_header fun h => { h with reason := BreakReason.sequence_exhausted.word }) :=
    ⟨⟨_, _, _, .inl rfl, rfl⟩, rfl, rfl, rfl⟩
  have h₂ : Marking s ((s.set_header fun h =>
      { h with reason := BreakReason.sequence_exhausted.word }).set_header fun h =>
      { h with state := ManagedChannelState.broken.word }) :=
    ⟨⟨_, _, _, .inr rfl, rfl⟩, rfl, rfl, rfl⟩
  have h₃ : Marking s (((s.set_header fun h =>
      { h with reason := BreakReason.sequence_exhausted.word }).set_header fun h =>
      { h with state := ManagedChannelState.broken.word }).set_header fun h =>
      { h with event_epoch := (h.event_epoch + 1) % 2 ^ 32 }) :=
    ⟨⟨_, _, _, .inr rfl, rfl⟩, rfl, rfl, rfl⟩
  refine safe_of_crashSafe (uniform_mark_broken _) howned.mutex ?_ ?_
  · rintro _ m m' ⟨hm, htaken⟩ h
    exact ⟨hm.interference h, (h.taken_by pid).trans htaken⟩
  · simp only [mark_managed_broken, signal_managed_event]
    refine CrashSafe.store_bind (hG _ _ h₀ h₁) (CrashSafe.store_bind (hG _ _ h₁ h₂)
      (CrashSafe.store_bind (hG _ _ h₂ h₃) ⟨hG _ _ h₃ ?_, ?_, ?_⟩))
    · exact ⟨h₃.header, rfl, rfl, rfl⟩
    · exact Marking.owned ⟨h₃.header, rfl, rfl, rfl⟩ howned
    · rfl

theorem Publishing.inv (h : Publishing m t) (hm : Inv unlinks m) (hmutex : m.header.mutex = .held pid)
    (hentry : m.history.entry = none) (hroom : m.history.claimed ≠ 2 ^ 64 - 2) : Inv unlinks t := by
  obtain ⟨_, _, _, _, _, _, hheader⟩ := h.header
  have hnone : t.history.entry = none := h.entry.trans hentry
  refine ⟨⟨?_, ?_, ?_, ?_⟩, h.claimed, h.claimed_lt, ?_, ?_, ?_, fun hsome => absurd hnone hsome,
    fun _ => h.sound, fun _ _ _ => h.sound, ?_⟩
  · rw [hheader]
    exact hm.configured.capacity_pos
  · rw [hheader]
    exact hm.configured.capacity_lt
  · rw [hheader]
    exact hm.configured.max_lt
  · rw [hheader]
    exact hm.configured.max_le_stride
  · rw [hheader]
    rcases hm.state with hstate | hstate | hstate | ⟨_, hclaimed⟩
    · exact .inl hstate
    · exact .inr (.inl hstate)
    · exact .inr (.inr (.inl hstate))
    · exact absurd hclaimed hroom
  · simp only [hheader, hmutex]
    exact RobustMutex.noConfusion
  · simp only [hheader, hmutex]
    exact RobustMutex.noConfusion
  · intro entry hsome
    rw [hnone] at hsome
    cases hsome

/-- Publication under the lock. -/
theorem publish_message_safe (message : Bytes) {selected : Nat} (hinv : Inv unlinks s)
    (howned : Owned pid false s) (hroom : s.header.next_sequence ≠ 2 ^ 64 - 1)
    (hi : selected < s.header.message_capacity)
    (hfree : (s.slots selected).state = ManagedSlotState.free.word)
    (hlength : message.length ≤ s.header.max_message_size) :
    Safe (reliance unlinks) pid
      (fun _ m => Owned pid false m ∧ ∃ t, Published s message t ∧ Interference unlinks t m)
      (publish_message selected s.header.message_capacity message) s := by
  have hentry := howned.sender rfl
  have hclaimed := hinv.claimed
  have hclaimed_lt := hinv.claimed_lt
  have hmutex (t : Memory) (ht : Publishing s t) : t.header.mutex = .held pid := by
    obtain ⟨_, _, _, _, _, _, hheader⟩ := ht.header
    rw [hheader]
    exact howned.mutex
  have hG (t t' : Memory) (ht : Publishing s t) (ht' : Publishing s t') : Holding unlinks pid t t' :=
    ⟨hmutex t ht, hmutex t' ht', ht'.inv hinv howned.mutex hentry (by omega), fun other _ =>
      ⟨by rw [Memory.taken_by, Memory.taken_by, ht.taken, ht'.taken], ht'.max.trans ht.max.symm⟩⟩
  refine safe_of_crashSafe (uniform_publish _ _ _) howned.mutex ?_ ?_
  · rintro _ m m' ⟨hm, t, ht, htm⟩ h
    exact ⟨hm.interference h, t, ht, htm.trans h⟩
  · refine (publish_message_crashSafe hG hinv.configured howned.sound howned.settled hclaimed (by omega)
      hi hfree message hlength).mono (fun _ _ h => h) ?_
    intro _ t ht
    refine ⟨⟨⟨hmutex t ht.publishing, ht.publishing.sound, fun _ => ?_, fun h => absurd h Bool.false_ne_true⟩, ht.settled⟩,
      t, ht, Interference.refl unlinks t⟩
    rw [ht.publishing.entry, hentry]

/-- The search for a FREE slot under the lock. -/
theorem find_free_slot_safe {start : Nat} (hinv : Inv unlinks s) (howned : Owned pid receiving s)
    (hfree : s.header.free_slots ≠ 0) :
    Safe (reliance unlinks) pid
      (fun result m => Interference unlinks s m ∧ ∃ i, result = some i ∧
        i < s.header.message_capacity ∧ (s.slots i).state = ManagedSlotState.free.word)
      (find_free_slot s.header.message_capacity start s.header.message_capacity 0) s := by
  refine safe_of_crashSafe (uniform_find_free_slot _ _ _ _) howned.mutex ?_ ?_
  · rintro result m m' ⟨hm, hfound⟩ h
    exact ⟨hm.trans h, hfound⟩
  · refine (find_free_slot_crashSafe ⟨howned.mutex, howned.mutex, hinv,
      fun other _ => Kept.refl other s⟩ start ?_).mono
      (fun _ _ h => h) ?_
    · have := howned.settled.free
      omega
    · rintro result t ⟨rfl, hfound⟩
      exact ⟨Interference.refl unlinks t, hfound⟩

/-- The critical section of a send: it keeps the invariant at every store, and
    it publishes whenever the channel is healthy and not full. -/
theorem send_critical_safe {message : Bytes} (mode : ManagedLockMode)
    (howned : Owned pid false s) (hlength : message.length ≤ s.header.max_message_size) :
    Safe (reliance unlinks) pid
      (fun exit m => m.taken_by pid = s.taken_by pid ∧ Owned pid false m ∧
        SendEffect unlinks s message mode exit m)
      (send_critical message mode) s := by
  unfold send_critical
  refine howned.load_bind fun m₁ hE₁ hinv₁ howned₁ => ?_
  by_cases hstate : operation_state_of m₁ = .success
  case neg =>
    rw [if_pos hstate]
    exact ⟨hE₁.taken_by pid, howned₁, .refused hE₁ hstate (Interference.refl unlinks m₁)⟩
  rw [if_neg (not_not.mpr hstate)]
  refine (validate_managed_slots_safe hinv₁ howned₁).bind ?_
  rintro _ m₂ ⟨rfl, hE₂⟩
  refine (howned₁.interference hE₂).load_bind fun m₃ hE₃ hinv₃ howned₃ => ?_
  have hlater : Interference unlinks m₁ m₃ := hE₂.trans hE₃
  have hsame : SameQueue s m₃ := (hE₁.trans hlater).sameQueue
  have hcount := howned₃.free_slots
  rw [hsame.capacity, hsame.queue] at hcount
  by_cases hfree : m₃.header.free_slots = 0
  · -- the channel is full
    rw [if_neg (not_not.mpr hfree)]
    have hfull : s.queue.length = s.header.message_capacity := by omega
    by_cases hmode : mode = .nonblocking
    · rw [if_pos hmode]
      refine ⟨(hE₁.trans hlater).taken_by pid, howned₃, ?_⟩
      have heffect : SendEffect unlinks s message mode
          (if mode = .nonblocking then .leave .would_block else .wait 0) m₃ :=
        .full hE₁ hstate hlater hfull
      rwa [if_pos hmode] at heffect
    · rw [if_neg hmode]
      refine howned₃.load_bind fun m₄ hE₄ hinv₄ howned₄ => ?_
      refine ⟨(hE₁.trans (hlater.trans hE₄)).taken_by pid, howned₄, ?_⟩
      have heffect : SendEffect unlinks s message mode
          (if mode = .nonblocking then .leave .would_block else .wait m₄.header.event_epoch) m₄ :=
        .full hE₁ hstate (hlater.trans hE₄) hfull
      rwa [if_neg hmode] at heffect
  · rw [if_pos hfree]
    refine howned₃.load_bind fun m₄ hE₄ hinv₄ howned₄ => ?_
    by_cases hroom : m₄.header.next_sequence = 2 ^ 64 - 1
    · -- the sequences are used up
      rw [if_pos hroom]
      have hclaimed : s.history.claimed = 2 ^ 64 - 2 := by
        have hclaimed₄ := hinv₄.claimed
        rw [hE₄.history, hsame.history] at hclaimed₄
        omega
      have hclaimed₄ : m₄.history.claimed = 2 ^ 64 - 2 := by
        rw [hE₄.history, hsame.history, hclaimed]
      refine (mark_exhausted_safe hinv₄ howned₄ hclaimed₄).bind ?_
      rintro _ m₅ ⟨howned₅, htaken₅⟩
      exact ⟨htaken₅.trans ((hE₁.trans (hlater.trans hE₄)).taken_by pid), howned₅,
        .exhausted hE₁ hstate hclaimed⟩
    · rw [if_neg hroom]
      refine howned₄.load_bind fun m₅ hE₅ hinv₅ howned₅ => ?_
      refine howned₅.load_bind fun m₆ hE₆ hinv₆ howned₆ => ?_
      have hE₆' : Interference unlinks m₃ m₆ := hE₄.trans (hE₅.trans hE₆)
      have hcapacity : m₅.header.message_capacity = m₆.header.message_capacity :=
        hE₆.sameQueue.capacity.symm
      rw [hcapacity]
      have hfree₆ : m₆.header.free_slots ≠ 0 := by
        rw [hE₆'.header]
        exact hfree
      refine (find_free_slot_safe hinv₆ howned₆ hfree₆).bind ?_
      rintro _ m₇ ⟨hE₇, i, rfl, hi, hslot⟩
      have hE₇' : Interference unlinks m₃ m₇ := hE₆'.trans hE₇
      have hnext : m₇.header.next_sequence ≠ 2 ^ 64 - 1 := by
        rw [hE₇.sameQueue.next, hE₆.sameQueue.next, hE₅.sameQueue.next]
        exact hroom
      have hpublish := publish_message_safe message (hinv₆.interference hE₇)
        (howned₆.interference hE₇) hnext (hE₇.sameQueue.capacity ▸ hi) (hE₇.sameQueue.slots ▸ hslot)
        (by rw [hE₇'.sameQueue.max, hsame.max]; exact hlength)
      rw [hE₇.sameQueue.capacity] at hpublish
      refine hpublish.bind ?_
      rintro _ m₈ ⟨howned₈, t, ht, hE₈⟩
      refine ⟨?_, howned₈, .published hE₁ hstate (hlater.trans hE₇') (by omega) ht hE₈⟩
      calc m₈.taken_by pid = t.taken_by pid := hE₈.taken_by pid
        _ = m₇.taken_by pid := by rw [Memory.taken_by, Memory.taken_by, ht.publishing.taken]
        _ = s.taken_by pid := (hE₁.trans (hlater.trans hE₇')).taken_by pid

end

end shmchan.managed
