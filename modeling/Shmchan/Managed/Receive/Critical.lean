import Shmchan.Managed.Guard
import Shmchan.Managed.Receive.Release

open process

namespace shmchan.managed

/-- What the critical section of a receive did to the channel `s` it found. -/
inductive ReceiveEffect (unlinks : Bool) (pid : Nat) (s : Memory) (mode : ManagedLockMode)
    (alloc_fails : Bool) : ReceiveExit → Memory → Prop where
  | took {m t m' : Memory} {message : Message} (hfails : alloc_fails = false)
      (hbefore : Interference unlinks (mark_inside s) m)
      (hhead : s.queue = message :: s.queue.tail) (hreleased : Released pid message m t)
      (hafter : Interference unlinks t m') :
      ReceiveEffect unlinks pid s mode alloc_fails (.took message.2) m'
  | threw {m : Memory} (hfails : alloc_fails = true) (hbefore : Interference unlinks (mark_inside s) m)
      (hqueue : s.queue ≠ []) : ReceiveEffect unlinks pid s mode alloc_fails .threw m
  | refused {m m' : Memory} (hbefore : Interference unlinks (mark_inside s) m) (hqueue : s.queue = [])
      (hstate : operation_state_of m ≠ .success) (hafter : Interference unlinks m m') :
      ReceiveEffect unlinks pid s mode alloc_fails (.leave (operation_state_of m)) m'
  | empty {m m' : Memory} {epoch : Nat} (hbefore : Interference unlinks (mark_inside s) m)
      (hqueue : s.queue = []) (hstate : operation_state_of m = .success)
      (hafter : Interference unlinks m m') :
      ReceiveEffect unlinks pid s mode alloc_fails
        (if mode = .nonblocking then .leave .would_block else .wait epoch) m'

section

variable {unlinks : Bool} {pid : Nat} {m m' s t : Memory} {entry : Entry}

theorem Owned.mark_inside (h : Owned pid true m) : Owned pid true (managed.mark_inside m) := by
  obtain ⟨entry, hentry, hqueue, hkept⟩ := h.receiver rfl
  refine ⟨⟨h.mutex, ?_, (fun h => nomatch h), fun _ => ⟨{ entry with inside := true }, ?_, hqueue, hkept⟩⟩,
    ⟨h.settled.idle, h.settled.free, h.settled.writing, h.settled.ready⟩⟩
  · exact ⟨⟨h.sound.wellFormed.states, h.sound.wellFormed.ready, h.sound.wellFormed.distinct⟩,
      h.sound.history, h.sound.increasing, h.sound.below⟩
  · simp only [managed.mark_inside, Memory.set_history_history, hentry, Option.map_some]

theorem Releasing.inv {message : Message} (h : Releasing pid message m entry t) (hm : Inv unlinks m)
    (hmutex : m.header.mutex = .held pid) (hentry : m.history.entry = some entry)
    (hinside : entry.inside = true) : Inv unlinks t := by
  obtain ⟨_, _, _, hheader⟩ := h.header
  have hclaimed : t.history.claimed = m.history.claimed := by
    rcases h.history with heq | heq <;> rw [heq]
  have hentry' : t.history.entry = some entry := by
    rcases h.history with heq | heq <;> rw [heq] <;> exact hentry
  refine ⟨⟨?_, ?_, ?_, ?_⟩, ?_, ?_, ?_, ?_, ?_, fun _ => ?_, fun hnone => ?_, fun entry' hsome hout => ?_,
    fun entry' hsome => ?_⟩
  · rw [hheader]
    exact hm.configured.capacity_pos
  · rw [hheader]
    exact hm.configured.capacity_lt
  · rw [hheader]
    exact hm.configured.max_lt
  · rw [hheader]
    exact hm.configured.max_le_stride
  · rw [hclaimed, hheader]
    exact hm.claimed
  · rw [hclaimed]
    exact hm.claimed_lt
  · rw [hclaimed, hheader]
    exact hm.state
  · simp only [hheader, hmutex]
    exact RobustMutex.noConfusion
  · simp only [hheader, hmutex]
    exact RobustMutex.noConfusion
  · simp only [hheader, hmutex]
    rfl
  · rw [hentry'] at hnone
    cases hnone
  · obtain rfl : entry = entry' := Option.some.inj (hentry'.symm.trans hsome)
    rw [hinside] at hout
    cases hout
  · obtain rfl : entry = entry' := Option.some.inj (hentry'.symm.trans hsome)
    exact h.progress

/-- The release under the lock. -/
theorem release_slot_safe {selected : Nat} (hinv : Inv unlinks s) (howned : Owned pid true s)
    (hinside : ∀ entry, s.history.entry = some entry → entry.inside = true)
    (hi : selected < s.header.message_capacity)
    (hready : (s.slots selected).state = ManagedSlotState.ready.word)
    (hhead : s.queue = s.message selected :: s.queue.tail) :
    Safe (reliance unlinks) pid
      (fun _ m => ∃ t, Released pid (s.message selected) s t ∧ Interference unlinks t m)
      (release_slot pid selected (s.message selected)) s := by
  obtain ⟨entry, hentry, hqueue, hkept⟩ := howned.receiver rfl
  have hG (t t' : Memory) (ht : Releasing pid (s.message selected) s entry t)
      (ht' : Releasing pid (s.message selected) s entry t') : Holding unlinks pid t t' := by
    have hmutex {t : Memory} (ht : Releasing pid (s.message selected) s entry t) :
        t.header.mutex = .held pid := by
      obtain ⟨_, _, _, hheader⟩ := ht.header
      rw [hheader]
      exact howned.mutex
    have htaken {t : Memory} (ht : Releasing pid (s.message selected) s entry t) (other : Nat)
        (hother : other ≠ pid) : t.taken_by other = s.taken_by other := by
      rw [Memory.taken_by, Memory.taken_by]
      rcases ht.history with heq | heq <;> rw [heq]
      rw [List.filter_append, List.filter_cons_of_neg (by simpa using hother.symm), List.filter_nil,
        List.append_nil]
    have hmax {t : Memory} (ht : Releasing pid (s.message selected) s entry t) :
        t.header.max_message_size = s.header.max_message_size := by
      obtain ⟨_, _, _, hheader⟩ := ht.header
      rw [hheader]
    exact ⟨hmutex ht, hmutex ht', ht'.inv hinv howned.mutex hentry (hinside entry hentry),
      fun other hother => ⟨(htaken ht' other hother).trans (htaken ht other hother).symm,
        (hmax ht').trans (hmax ht).symm⟩⟩
  refine safe_of_crashSafe (uniform_release _ _ _) howned.mutex ?_ ?_
  · rintro _ m m' ⟨t, ht, htm⟩ h
    exact ⟨t, ht, htm.trans h⟩
  · refine (release_slot_crashSafe howned.sound hi hready hhead hqueue hkept hG howned.settled
      hinv.configured).mono (fun _ _ h => h) ?_
    intro _ t ht
    exact ⟨t, ht, Interference.refl unlinks t⟩

/-- The search for the first READY message under the lock. -/
theorem find_first_ready_safe (hinv : Inv unlinks s) (howned : Owned pid true s) :
    Safe (reliance unlinks) pid
      (fun result m => Interference unlinks s m ∧
        ((result = s.header.message_capacity ∧ s.queue = []) ∨
          (result < s.header.message_capacity ∧
            (s.slots result).state = ManagedSlotState.ready.word ∧
            s.queue = s.message result :: s.queue.tail)))
      (find_first_ready s.header.message_capacity 0 s.header.message_capacity (2 ^ 64 - 1)) s := by
  refine safe_of_crashSafe (uniform_find_first_ready _ _ _ _) howned.mutex ?_ ?_
  · rintro result m m' ⟨hm, hfound⟩ h
    exact ⟨hm.trans h, hfound⟩
  · refine (find_first_ready_crashSafe ⟨howned.mutex, howned.mutex, hinv,
      fun other _ => Kept.refl other s⟩
      howned.sound.wellFormed ?_).mono (fun _ _ h => h) ?_
    · have := hinv.claimed
      have := hinv.claimed_lt
      omega
    · rintro result t ⟨rfl, hfound⟩
      exact ⟨Interference.refl unlinks t, hfound⟩

/-- The mark at the start of the critical section. -/
theorem mark_inside_safe {α : Type} {post : α → Memory → Prop} {k : Unit → Prog Memory α}
    (howned : Owned pid true s)
    (hk : ∀ m, Interference unlinks (mark_inside s) m → Inv unlinks m → Owned pid true m →
      (∀ entry, m.history.entry = some entry → entry.inside = true) →
      Safe (reliance unlinks) pid post (k ()) m) :
    Safe (reliance unlinks) pid post (.store mark_inside >>= k) s := by
  intro m hrely (hinv : Inv unlinks m) _
  have hE : Interference unlinks s m := hrely.held howned.mutex
  have hE' : Interference unlinks (mark_inside s) (mark_inside m) := hE.set_history _
  have howned' := (howned.interference hE).mark_inside
  have hinv' : Inv unlinks (mark_inside m) :=
    howned'.toEntered.inv hinv ⟨hinv.configured.capacity_pos, hinv.configured.capacity_lt,
      hinv.configured.max_lt, hinv.configured.max_le_stride⟩ rfl rfl (.inl rfl)
  refine ⟨hinv', fun other hother => ⟨⟨rfl, rfl⟩, Iff.rfl, fun hheld => ?_⟩, hk _ hE' hinv' howned' ?_⟩
  · rw [(howned.interference hE).mutex] at hheld
    cases hheld
    exact absurd rfl hother
  · intro entry hentry
    simp only [mark_inside, Memory.set_history_history, Option.map_eq_some_iff] at hentry
    obtain ⟨_, _, rfl⟩ := hentry
    rfl

/-- What holds when a receiver leaves its critical section. -/
structure Leaving (pid : Nat) (m : Memory) : Prop where
  mutex : m.header.mutex = .held pid
  settled : Settled m
  sound : Sound m

theorem Owned.leaving {receiving : Bool} (h : Owned pid receiving m) : Leaving pid m :=
  ⟨h.mutex, h.settled, h.sound⟩

/-- The payloads a critical section hands to its caller. -/
def ReceiveExit.payloads : ReceiveExit → List Bytes
  | took payload => [payload]
  | _ => []

/-- The critical section of a receive: it keeps the invariant at every store,
    and it takes the head of the queue whenever there is one. -/
theorem receive_critical_safe (mode : ManagedLockMode) (alloc_fails : Bool)
    (howned : Owned pid true s) :
    Safe (reliance unlinks) pid
      (fun exit m => m.taken_by pid = s.taken_by pid ++ exit.payloads ∧ Leaving pid m ∧
        ReceiveEffect unlinks pid s mode alloc_fails exit m)
      (receive_critical pid mode alloc_fails) s := by
  unfold receive_critical
  refine mark_inside_safe howned fun m₁ hE₁ hinv₁ howned₁ hinside₁ => ?_
  refine (validate_managed_slots_safe hinv₁ howned₁).bind ?_
  rintro _ m₂ ⟨rfl, hE₂⟩
  refine (howned₁.interference hE₂).load_bind fun m₃ hE₃ hinv₃ howned₃ => ?_
  have hlater : Interference unlinks m₁ m₃ := hE₂.trans hE₃
  have hqueue : s.queue = m₃.queue := (hE₁.trans hlater).sameQueue.queue.symm
  refine (find_first_ready_safe hinv₃ howned₃).bind ?_
  rintro selected m₄ ⟨hE₄, hfound⟩
  have hE : Interference unlinks (mark_inside s) m₄ := hE₁.trans (hlater.trans hE₄)
  have howned₄ := howned₃.interference hE₄
  rcases hfound with ⟨hnone, hempty⟩ | ⟨hi, hready, hhead⟩
  · -- nothing is READY
    rw [if_neg (not_not.mpr hnone)]
    have hempty' : s.queue = [] := hqueue.trans hempty
    refine howned₄.load_bind fun m₅ hE₅ hinv₅ howned₅ => ?_
    have hleave (m₆ : Memory) (hE₆ : Interference unlinks m₅ m₆) :
        m₆.taken_by pid = s.taken_by pid ++ [] ∧ Leaving pid m₆ := by
      rw [List.append_nil]
      exact ⟨(hE.trans (hE₅.trans hE₆)).taken_by pid, (howned₅.interference hE₆).leaving⟩
    have hrefl := Interference.refl unlinks m₅
    by_cases hclosed : operation_state_of m₅ = .closed
    · rw [if_pos hclosed]
      refine ⟨(hleave m₅ hrefl).1, (hleave m₅ hrefl).2, ?_⟩
      have heffect : ReceiveEffect unlinks pid s mode alloc_fails (.leave (operation_state_of m₅)) m₅ :=
        .refused (hE.trans hE₅) hempty' (by simp [hclosed]) hrefl
      rwa [hclosed] at heffect
    · rw [if_neg hclosed]
      by_cases hbroken : operation_state_of m₅ = .broken
      · rw [if_pos hbroken]
        refine ⟨(hleave m₅ hrefl).1, (hleave m₅ hrefl).2, ?_⟩
        have heffect : ReceiveEffect unlinks pid s mode alloc_fails (.leave (operation_state_of m₅)) m₅ :=
          .refused (hE.trans hE₅) hempty' (by simp [hbroken]) hrefl
        rwa [hbroken] at heffect
      · rw [if_neg hbroken]
        have hsuccess : operation_state_of m₅ = .success := by
          unfold operation_state_of at hclosed hbroken ⊢
          split_ifs at hclosed hbroken ⊢
          · rfl
          · exact absurd rfl hclosed
          · exact absurd rfl hbroken
        by_cases hmode : mode = .nonblocking
        · rw [if_pos hmode]
          refine ⟨(hleave m₅ hrefl).1, (hleave m₅ hrefl).2, ?_⟩
          have heffect : ReceiveEffect unlinks pid s mode alloc_fails
              (if mode = .nonblocking then .leave .would_block else .wait 0) m₅ :=
            .empty (hE.trans hE₅) hempty' hsuccess hrefl
          rwa [if_pos hmode] at heffect
        · rw [if_neg hmode]
          refine howned₅.load_bind fun m₆ hE₆ hinv₆ howned₆ => ?_
          refine ⟨(hleave m₆ hE₆).1, (hleave m₆ hE₆).2, ?_⟩
          have heffect : ReceiveEffect unlinks pid s mode alloc_fails
              (if mode = .nonblocking then .leave .would_block else .wait m₆.header.event_epoch) m₆ :=
            .empty (hE.trans hE₅) hempty' hsuccess hE₆
          rwa [if_neg hmode] at heffect
  · rw [if_pos (by omega)]
    refine howned₄.load_bind fun m₅ hE₅ hinv₅ howned₅ => ?_
    have hE₅' : Interference unlinks m₃ m₅ := hE₄.trans hE₅
    have hgood := howned₃.sound.wellFormed.ready selected hi hready
    have hsame := hE₅'.sameQueue
    have hcount : m₅.header.ready_messages ≠ 0 := by
      rw [howned₅.settled.ready, ← Memory.queue_length, hsame.queue, hhead]
      simp
    have hcorrupt : (ready_slot_is_corrupt m₅ selected || m₅.header.ready_messages == 0) = false := by
      simp [ready_slot_is_corrupt, hsame.slots, hsame.max, hgood.1, Nat.pos_iff_ne_zero.mp hgood.2.1,
        hcount]
    rw [if_neg (by simp [hcorrupt])]
    cases alloc_fails with
    | true =>
      rw [if_pos rfl]
      have htaken₅ := (hE.trans hE₅).taken_by pid
      refine ⟨htaken₅.trans (List.append_nil _).symm, howned₅.leaving, .threw rfl (hE.trans hE₅) ?_⟩
      rw [hqueue, hhead]
      exact List.cons_ne_nil _ _
    | false =>
      rw [if_neg (by decide)]
      refine howned₅.load_bind fun m₆ hE₆ hinv₆ howned₆ => ?_
      have hsame₆ := (hE₅'.trans hE₆).sameQueue
      have hhead₆ : m₆.queue = m₆.message selected :: m₆.queue.tail := by
        rw [hsame₆.queue, hsame₆.message]
        exact hhead
      have hinside₆ : ∀ entry, m₆.history.entry = some entry → entry.inside = true := by
        rw [hsame₆.history, hlater.history]
        exact hinside₁
      refine (release_slot_safe hinv₆ howned₆ hinside₆ (hsame₆.capacity ▸ hi) (hsame₆.slots ▸ hready)
        hhead₆).bind ?_
      rintro _ m₇ ⟨t, ht, hE₇⟩
      obtain ⟨_, _, _, hheader⟩ := ht.header
      have hmutex : t.header.mutex = .held pid := by
        rw [hheader]
        exact howned₆.mutex
      have hbefore : Interference unlinks (mark_inside s) m₆ := hE.trans (hE₅.trans hE₆)
      refine ⟨?_, ⟨hE₇.mutex.trans hmutex, ht.settled.interference hE₇, hE₇.sameQueue.sound ht.sound⟩,
        .took rfl hbefore ?_ ht hE₇⟩
      · rw [hE₇.taken_by, Memory.taken_by, ht.history, List.filter_append, List.map_append,
          List.filter_cons_of_pos (by simp), List.filter_nil, List.map_cons, List.map_nil]
        exact congrArg (· ++ _) (hbefore.taken_by pid)
      · have hqueue₆ : s.queue = m₆.queue := hbefore.sameQueue.queue.symm
        rw [hqueue₆]
        exact hhead₆

end

end shmchan.managed
