import Shmchan.Channel.Invariant
import Shmchan.Endpoint.Quiet

open process shmchan.endpoint

namespace shmchan.channel

section

variable {capacity count claimed i enqueue_position dequeue_position : Nat} {phase : Nat → Phase}
  {sequence sequence' : Nat → Nat} {new : Phase}

/-- An item that stays on its side of the next claim changes its phase. -/
theorem Ordered.update_phase (h : Ordered capacity phase count claimed) (hi : i < count)
    (hvacant : new ≠ .vacant) (hconsumed : phase i ≠ .consumed) (htaken : new.taken = (phase i).taken) :
    Ordered capacity (Function.update phase i new) count claimed where
  claimed_le := h.claimed_le
  behind j hj := by
    by_cases hji : j = i
    · subst hji
      rw [Function.update_self, htaken]
      exact h.behind j hj
    · rw [Function.update_of_ne hji]
      exact h.behind j hj
  ahead j hj := by
    by_cases hji : j = i
    · subst hji
      rw [Function.update_self, htaken]
      exact h.ahead j hj
    · rw [Function.update_of_ne hji]
      exact h.ahead j hj
  occupied j hj := by
    by_cases hji : j = i
    · rwa [hji, Function.update_self]
    · rw [Function.update_of_ne hji]
      exact h.occupied j hj
  vacant j hj := by
    rw [Function.update_of_ne (by omega)]
    exact h.vacant j hj
  settled j hj := consumed_update hconsumed j (h.settled j hj)

/-- The next item is claimed. -/
theorem Ordered.claim (h : Ordered capacity phase count claimed) (pid : Nat)
    (hphase : phase claimed = .published) :
    Ordered capacity (Function.update phase claimed (.claimed pid)) count (claimed + 1) where
  claimed_le := by
    by_contra hge
    rw [h.vacant claimed (by omega)] at hphase
    cases hphase
  behind j hj := by
    by_cases hjc : j = claimed
    · rw [hjc, Function.update_self]
      rfl
    · rw [Function.update_of_ne hjc]
      exact h.behind j (by omega)
  ahead j hj := by
    rw [Function.update_of_ne (by omega)]
    exact h.ahead j (by omega)
  occupied j hj := by
    by_cases hjc : j = claimed
    · rw [hjc, Function.update_self]
      rintro ⟨⟩
    · rw [Function.update_of_ne hjc]
      exact h.occupied j hj
  vacant j hj := by
    rw [Function.update_of_ne]
    · exact h.vacant j hj
    · rintro rfl
      rw [h.vacant j hj] at hphase
      cases hphase
  settled j hj := by
    apply consumed_update _ j (h.settled j hj)
    rw [hphase]
    rintro ⟨⟩

/-- A new item takes the slot of one that has been copied out. -/
theorem Ordered.reserve (h : Ordered capacity phase count claimed) (pid : Nat)
    (hfree : released capacity phase count = true) :
    Ordered capacity (Function.update phase count (.reserved pid)) (count + 1) claimed where
  claimed_le := h.claimed_le.trans (Nat.le_succ _)
  behind j hj := by
    rw [Function.update_of_ne (by have := h.claimed_le; omega)]
    exact h.behind j hj
  ahead j hj := by
    by_cases hjc : j = count
    · rw [hjc, Function.update_self]
      rfl
    · rw [Function.update_of_ne hjc]
      exact h.ahead j hj
  occupied j hj := by
    by_cases hjc : j = count
    · rw [hjc, Function.update_self]
      rintro ⟨⟩
    · rw [Function.update_of_ne hjc]
      exact h.occupied j (by omega)
  vacant j hj := by
    rw [Function.update_of_ne (by omega)]
    exact h.vacant j (by omega)
  settled j hj := by
    have hne : phase count ≠ .consumed := by
      rw [h.vacant count le_rfl]
      rintro ⟨⟩
    apply consumed_update hne
    by_cases hjc : j + capacity = count
    · rw [released, Bool.or_eq_true, decide_eq_true_eq, decide_eq_true_eq] at hfree
      rcases hfree with hfree | hfree
      · omega
      · rwa [show count - capacity = j by omega] at hfree
    · exact h.settled j (by omega)

/-- The sequence word of an item of the last lap follows its phase. -/
theorem Placed.update_phase (h : Placed capacity phase count claimed enqueue_position dequeue_position sequence)
    (hi : i < count) (hlast : count ≤ i + capacity)
    (hword : sequence' (i % capacity) = word_of capacity i new)
    (hothers : ∀ x, x ≠ i % capacity → sequence' x = sequence x) :
    Placed capacity (Function.update phase i new) count claimed enqueue_position dequeue_position sequence' where
  enqueue_position := h.enqueue_position
  dequeue_position := h.dequeue_position
  unused j hj hlt := by
    rw [hothers]
    · exact h.unused j hj hlt
    · rw [Nat.mod_eq_of_lt (by omega)]
      omega
  used j hj hlap := by
    by_cases hji : j = i
    · rw [hji, Function.update_self]
      exact hword
    · rw [Function.update_of_ne hji, hothers]
      · exact h.used j hj hlap
      · exact fun hslot => hji (same_slot (by omega) (by omega) hslot)

/-- The sequence word of the next slot, which a sender has claimed. -/
theorem Placed.reserve (h : Placed capacity phase count claimed enqueue_position dequeue_position sequence)
    {enqueue_position' : Nat} (hposition : enqueue_position' = if capacity = 1 then 0 else count + 1)
    (hword : sequence' (count % capacity) = word_of capacity count new)
    (hothers : ∀ x, x ≠ count % capacity → sequence' x = sequence x) :
    Placed capacity (Function.update phase count new) (count + 1) claimed enqueue_position' dequeue_position
      sequence' where
  enqueue_position := hposition
  dequeue_position := h.dequeue_position
  unused j hj hlt := by
    rw [hothers]
    · exact h.unused j (by omega) hlt
    · rw [Nat.mod_eq_of_lt (by omega)]
      omega
  used j hj hlap := by
    by_cases hjc : j = count
    · rw [hjc, Function.update_self]
      exact hword
    · rw [Function.update_of_ne hjc, hothers]
      · exact h.used j (by omega) (by omega)
      · exact fun hslot => hjc (same_slot (by omega) (by omega) hslot)

end

section

variable {guarded : Prop} {channel : Channel} {pid i : Nat} {s s' : Memory}

theorem Inv.live_of_holder (h : Inv guarded channel s) (hholder : holder (s.log.phase i) = some pid) :
    i < s.log.count ∧ s.log.count ≤ i + channel.capacity :=
  h.ordered.live_of_holder hholder

/-- Two items in the ring do not share a slot. -/
theorem Inv.other_slot (h : Inv guarded channel s) {j : Nat} (hi : holder (s.log.phase i) = some pid)
    (hj : s.log.phase j = .published ∨ ∃ other, holder (s.log.phase j) = some other) (hne : j ≠ i) :
    j % channel.capacity ≠ i % channel.capacity := by
  have hlive := h.live_of_holder hi
  have hlive' : j < s.log.count ∧ s.log.count ≤ j + channel.capacity := by
    rcases hj with hj | ⟨other, hj⟩
    · apply h.ordered.live <;> rw [hj] <;> rintro ⟨⟩
    · exact h.live_of_holder hj
  exact fun hslot => hne (same_slot (by omega) (by omega) hslot)

/-- The holder of an item touches nobody else's slot. -/
theorem Inv.storage_other (h : Inv guarded channel s) {other : Nat} {storage' : Nat → Nat → UInt8}
    (hi : holder (s.log.phase i) = some pid) (hother : other ≠ pid)
    (hstorage : ∀ x, x ≠ i % channel.capacity → storage' x = s.ring.storage x) (j : Nat)
    (hj : holder (s.log.phase j) = some other) :
    storage' (j % channel.capacity) = s.ring.storage (j % channel.capacity) := by
  apply hstorage
  apply h.other_slot hi (.inr ⟨other, hj⟩)
  rintro rfl
  rw [hi] at hj
  exact hother (Option.some.inj hj).symm

/-- A byte that the sender of a reserved item stores in its slot. -/
theorem Inv.after_write (h : Inv guarded channel s) (storage' : Nat → Nat → UInt8)
    (hphase : s.log.phase i = .reserved pid)
    (hstorage : ∀ x, x ≠ i % channel.capacity → storage' x = s.ring.storage x) :
    let r := { s.ring with
      storage := storage', writing := Function.update s.ring.writing pid (some (i % channel.capacity)) }
    Inv guarded channel { s with ring := r } ∧
      ∀ other, other ≠ pid → Rely guarded channel other s { s with ring := r } := by
  have hholder : holder (s.log.phase i) = some pid := by rw [hphase]; rfl
  refine ⟨{ h with stored := fun j hj => ?_, writing := fun other slot hslot => ?_ }, fun other hother => ?_⟩
  · have hslot : j % channel.capacity ≠ i % channel.capacity := by
      rcases hj with hj | ⟨other, hj⟩
      · apply h.other_slot hholder (.inl hj)
        rintro rfl
        rw [hphase] at hj
        cases hj
      · apply h.other_slot hholder (.inr ⟨other, by rw [hj]; rfl⟩)
        rintro rfl
        rw [hphase] at hj
        cases hj
    simp only [hstorage _ hslot]
    exact h.stored j hj
  · by_cases hpid : other = pid
    · subst hpid
      simp only [Function.update_self, Option.some.injEq] at hslot
      exact ⟨i, hphase, hslot⟩
    · simp only [Function.update_of_ne hpid] at hslot
      exact h.writing other slot hslot
  · exact { Rely.refl guarded channel other s with
      sender := fun _ => .of_same rfl rfl rfl
      storage := h.storage_other hholder hother hstorage }

/-- A byte that the receiver of a claimed item loads from its slot. -/
theorem Inv.after_read (h : Inv guarded channel s) (hphase : s.log.phase i = .claimed pid) :
    let r := { s.ring with reading := Function.update s.ring.reading pid (some (i % channel.capacity)) }
    Inv guarded channel { s with ring := r } ∧
      ∀ other, Rely guarded channel other s { s with ring := r } := by
  refine ⟨{ h with reading := fun other slot hslot => ?_ }, fun other =>
    { Rely.refl guarded channel other s with sender := fun _ => .of_same rfl rfl rfl }⟩
  by_cases hpid : other = pid
  · subst hpid
    simp only [Function.update_self, Option.some.injEq] at hslot
    exact ⟨i, hphase, hslot⟩
  · simp only [Function.update_of_ne hpid] at hslot
    exact h.reading other slot hslot

/-- The publication of a reserved item whose bytes are complete. -/
theorem Inv.after_publish (h : Inv guarded channel s) {word : Nat} (hphase : s.log.phase i = .reserved pid)
    (hword : word = word_of channel.capacity i .published)
    (hholds : Holds (s.ring.storage (i % channel.capacity)) (s.log.message i) channel.element_size) :
    Inv guarded channel (publish pid i (i % channel.capacity) word s) ∧
      ∀ other, other ≠ pid → Rely guarded channel other s (publish pid i (i % channel.capacity) word s) := by
  subst hword
  have hholder : holder (s.log.phase i) = some pid := by rw [hphase]; rfl
  have hlive := h.live_of_holder hholder
  have hconsumed : s.log.phase i ≠ .consumed := by
    rw [hphase]
    rintro ⟨⟩
  have hkeep {j : Nat} {phase : Phase} (hj : s.log.phase j = phase) (hphase' : phase ≠ .reserved pid) :
      Function.update s.log.phase i .published j = phase := by
    rw [Function.update_of_ne, hj]
    rintro rfl
    exact hphase' (hj.symm.trans hphase)
  constructor
  · exact { h with
      ordered := h.ordered.update_phase hlive.1 (by rintro ⟨⟩) hconsumed (by rw [hphase]; rfl)
      placed := h.placed.update_phase hlive.1 hlive.2 (Function.update_self _ _ _)
        fun x hx => Function.update_of_ne hx _ _
      stored := by
        intro j hj
        by_cases hji : j = i
        · subst hji
          exact hholds
        · simp only [publish, Function.update_of_ne hji] at hj
          exact h.stored j hj
      writing := by
        intro other slot hslot
        by_cases hpid : other = pid
        · subst hpid
          simp only [publish, Function.update_self] at hslot
          cases hslot
        · simp only [publish, Function.update_of_ne hpid] at hslot
          obtain ⟨j, hj, hslot⟩ := h.writing other slot hslot
          exact ⟨j, hkeep hj fun heq => hpid (Phase.reserved.inj heq), hslot⟩
      reading := by
        intro other slot hslot
        obtain ⟨j, hj, hslot⟩ := h.reading other slot hslot
        exact ⟨j, hkeep hj (by rintro ⟨⟩), hslot⟩
      delivered := by
        intro x hx
        obtain ⟨hx, hvalue⟩ := h.delivered x hx
        exact ⟨consumed_update hconsumed _ hx, hvalue⟩
      senders_done := h.senders_done.finish (by rw [hphase, Phase.stage]; omega) le_rfl
      receivers_done := h.receivers_done.update_phase hconsumed
      senders := fun hguarded => (h.senders hguarded).update_phase fun other hnew => by cases hnew }
  · intro other hother
    exact { Rely.refl guarded channel other s with
      sender := fun _ => .of_same rfl rfl rfl
      stage := stage_update (by rw [hphase, Phase.stage, Phase.stage]; omega)
      held := held_update (by rw [hholder]; exact fun heq => hother (Option.some.inj heq).symm)
      fresh := fresh_update (Option.some_ne_none other).symm
      delivered := fun x hx => .inl hx
      sent := Function.update_of_ne hother _ _ }

/-- The claim of the next item, which is published. -/
theorem Inv.after_claim (h : Inv guarded channel s) (pid : Nat) {f : SlotRing → SlotRing}
    {dequeue_position : Nat} {sequence : Nat → Nat} (hphase : s.log.phase s.log.claimed = .published)
    (hring : f s.ring = { s.ring with dequeue_position := dequeue_position, sequence := sequence })
    (hposition : dequeue_position = if channel.capacity = 1 then 0 else s.log.claimed + 1)
    (hword : sequence (s.log.claimed % channel.capacity) =
      word_of channel.capacity s.log.claimed (.claimed pid))
    (hothers : ∀ x, x ≠ s.log.claimed % channel.capacity → sequence x = s.ring.sequence x) :
    Inv guarded channel (claim pid f s) ∧
      ∀ other, other ≠ pid → Rely guarded channel other s (claim pid f s) := by
  have hlive : s.log.claimed < s.log.count ∧ s.log.count ≤ s.log.claimed + channel.capacity := by
    apply h.ordered.live <;> rw [hphase] <;> rintro ⟨⟩
  have hconsumed : s.log.phase s.log.claimed ≠ .consumed := by
    rw [hphase]
    rintro ⟨⟩
  have hkeep {j : Nat} {phase : Phase} (hj : s.log.phase j = phase) (hphase' : phase ≠ .published) :
      Function.update s.log.phase s.log.claimed (.claimed pid) j = phase := by
    rw [Function.update_of_ne, hj]
    rintro rfl
    exact hphase' (hj.symm.trans hphase)
  rw [claim, hring]
  constructor
  · exact { h with
      ordered := h.ordered.claim pid hphase
      placed := { h.placed.update_phase hlive.1 hlive.2 hword hothers with dequeue_position := hposition }
      stored := by
        intro j hj
        by_cases hjc : j = s.log.claimed
        · subst hjc
          exact h.stored _ (.inl hphase)
        · simp only [Function.update_of_ne hjc] at hj
          exact h.stored j hj
      writing := by
        intro other slot hslot
        obtain ⟨j, hj, hslot⟩ := h.writing other slot hslot
        exact ⟨j, hkeep hj (by rintro ⟨⟩), hslot⟩
      reading := by
        intro other slot hslot
        obtain ⟨j, hj, hslot⟩ := h.reading other slot hslot
        exact ⟨j, hkeep hj (by rintro ⟨⟩), hslot⟩
      delivered := by
        intro x hx
        obtain ⟨hx, hvalue⟩ := h.delivered x hx
        exact ⟨consumed_update hconsumed _ hx, hvalue⟩
      senders_done := h.senders_done.mono fun j hj =>
        hj.trans (stage_update (by rw [hphase, Phase.stage, Phase.stage]; omega) j)
      receivers_done := h.receivers_done.update_phase hconsumed
      senders := fun hguarded => (h.senders hguarded).update_phase fun other hnew => by cases hnew }
  · intro other hother
    exact { Rely.refl guarded channel other s with
      sender := fun _ => .of_same rfl rfl rfl
      claimed := Nat.le_succ _
      stage := stage_update (by rw [hphase, Phase.stage, Phase.stage]; omega)
      held := held_update (by rw [hphase]; exact (Option.some_ne_none other).symm)
      fresh := fresh_update fun heq => hother (Option.some.inj heq).symm
      delivered := fun x hx => .inl hx }

/-- The release of the slot of a claimed item whose value has been copied out. -/
theorem Inv.after_release (h : Inv guarded channel s) {word : Nat} {value : Bytes}
    (hphase : s.log.phase i = .claimed pid) (hword : word = word_of channel.capacity i .consumed)
    (hvalue : value = s.log.message i) :
    Inv guarded channel (release pid i (i % channel.capacity) word value s) ∧
      ∀ other, other ≠ pid →
        Rely guarded channel other s (release pid i (i % channel.capacity) word value s) := by
  subst hword
  have hholder : holder (s.log.phase i) = some pid := by rw [hphase]; rfl
  have hlive := h.live_of_holder hholder
  have hconsumed : s.log.phase i ≠ .consumed := by
    rw [hphase]
    rintro ⟨⟩
  have hkeep {j : Nat} {phase : Phase} (hj : s.log.phase j = phase) (hphase' : phase ≠ .claimed pid) :
      Function.update s.log.phase i .consumed j = phase := by
    rw [Function.update_of_ne, hj]
    rintro rfl
    exact hphase' (hj.symm.trans hphase)
  constructor
  · exact { h with
      ordered := h.ordered.update_phase hlive.1 (by rintro ⟨⟩) hconsumed (by rw [hphase]; rfl)
      placed := h.placed.update_phase hlive.1 hlive.2 (Function.update_self _ _ _)
        fun x hx => Function.update_of_ne hx _ _
      stored := by
        intro j hj
        by_cases hji : j = i
        · subst hji
          simp only [release, Function.update_self] at hj
          rcases hj with hj | ⟨other, hj⟩ <;> cases hj
        · simp only [release, Function.update_of_ne hji] at hj
          exact h.stored j hj
      writing := by
        intro other slot hslot
        obtain ⟨j, hj, hslot⟩ := h.writing other slot hslot
        exact ⟨j, hkeep hj (by rintro ⟨⟩), hslot⟩
      reading := by
        intro other slot hslot
        by_cases hpid : other = pid
        · subst hpid
          simp only [release, Function.update_self] at hslot
          cases hslot
        · simp only [release, Function.update_of_ne hpid] at hslot
          obtain ⟨j, hj, hslot⟩ := h.reading other slot hslot
          exact ⟨j, hkeep hj fun heq => hpid (Phase.claimed.inj heq), hslot⟩
      delivered := by
        intro x hx
        rcases List.mem_cons.mp hx with rfl | hx
        · exact ⟨Function.update_self _ _ _, hvalue⟩
        · obtain ⟨hx, hmessage⟩ := h.delivered x hx
          exact ⟨consumed_update hconsumed _ hx, hmessage⟩
      once := by
        apply List.nodup_cons.mpr ⟨fun hmem => ?_, h.once⟩
        obtain ⟨x, hx, rfl⟩ := List.mem_map.mp hmem
        exact hconsumed (h.delivered x hx).1
      senders_done := h.senders_done.mono fun j hj =>
        hj.trans (stage_update (by rw [hphase, Phase.stage, Phase.stage]; omega) j)
      receivers_done := h.receivers_done.finish (by rw [hphase, Phase.stage]; omega) le_rfl
      senders := fun hguarded => (h.senders hguarded).update_phase fun other hnew => by cases hnew }
  · intro other hother
    exact { Rely.refl guarded channel other s with
      sender := fun _ => .of_same rfl rfl rfl
      stage := stage_update (by rw [hphase, Phase.stage, Phase.stage]; omega)
      held := held_update (by rw [hholder]; exact fun heq => hother (Option.some.inj heq).symm)
      fresh := fresh_update (Option.some_ne_none other).symm
      delivered := by
        intro x hx
        rcases List.mem_cons.mp hx with rfl | hx
        · exact .inr hconsumed
        · exact .inl hx
      kept := fun x hx => List.mem_cons_of_mem _ hx
      last := Function.update_of_ne hother _ _ }

/-- A sender claims the next position, whose slot is free. -/
theorem Inv.after_reserve (h : Inv guarded channel s) (pid : Nat) (value : Bytes) {f : SlotRing → SlotRing}
    {enqueue_position : Nat} {sequence : Nat → Nat} (hguard : guarded → pid ∈ s.guards)
    (hfree : released channel.capacity s.log.phase s.log.count = true)
    (hsize : value.length = channel.element_size)
    (hring : f s.ring = { s.ring with enqueue_position := enqueue_position, sequence := sequence })
    (hposition : enqueue_position = if channel.capacity = 1 then 0 else s.log.count + 1)
    (hword : sequence (s.log.count % channel.capacity) =
      word_of channel.capacity s.log.count (.reserved pid))
    (hothers : ∀ x, x ≠ s.log.count % channel.capacity → sequence x = s.ring.sequence x) :
    Inv guarded channel (reserve pid value f s) ∧
      ∀ other, other ≠ pid → Rely guarded channel other s (reserve pid value f s) := by
  have hvacant := h.ordered.vacant s.log.count le_rfl
  have hconsumed : s.log.phase s.log.count ≠ .consumed := by
    rw [hvacant]
    rintro ⟨⟩
  have hkeep {j : Nat} {phase : Phase} (hj : s.log.phase j = phase) (hphase' : phase ≠ .vacant) :
      j < s.log.count ∧ Function.update s.log.phase s.log.count (.reserved pid) j = phase := by
    have hlt : j < s.log.count := by
      by_contra hge
      exact hphase' (hj.symm.trans (h.ordered.vacant j (by omega)))
    exact ⟨hlt, by rw [Function.update_of_ne (by omega), hj]⟩
  have hmessage {j : Nat} (hj : j < s.log.count) :
      Function.update s.log.message s.log.count value j = s.log.message j :=
    Function.update_of_ne (by omega) _ _
  rw [reserve, hring]
  constructor
  · exact { h with
      ordered := h.ordered.reserve pid hfree
      placed := h.placed.reserve hposition hword hothers
      sized := by
        intro j hj
        by_cases hjc : j = s.log.count
        · simp only [hjc, Function.update_self]
          exact hsize
        · simp only [Function.update_of_ne hjc]
          exact h.sized j (by simp only at hj; omega)
      stored := by
        intro j hj
        have hjc : j ≠ s.log.count := by
          rintro rfl
          simp only [Function.update_self] at hj
          rcases hj with hj | ⟨other, hj⟩ <;> cases hj
        simp only [Function.update_of_ne hjc] at hj ⊢
        exact h.stored j hj
      writing := by
        intro other slot hslot
        obtain ⟨j, hj, hslot⟩ := h.writing other slot hslot
        exact ⟨j, (hkeep hj (by rintro ⟨⟩)).2, hslot⟩
      reading := by
        intro other slot hslot
        obtain ⟨j, hj, hslot⟩ := h.reading other slot hslot
        exact ⟨j, (hkeep hj (by rintro ⟨⟩)).2, hslot⟩
      delivered := by
        intro x hx
        obtain ⟨hx, hvalue⟩ := h.delivered x hx
        obtain ⟨hlt, hphase⟩ := hkeep hx (by rintro ⟨⟩)
        exact ⟨hphase, hvalue.trans (hmessage hlt).symm⟩
      senders_done := h.senders_done.mono fun j hj =>
        hj.trans (stage_update (by rw [hvacant, Phase.stage]; omega) j)
      receivers_done := h.receivers_done.update_phase hconsumed
      senders := fun hguarded => (h.senders hguarded).update_phase fun other hnew => by
        cases hnew
        exact hguard hguarded }
  · intro other hother
    exact { Rely.refl guarded channel other s with
      sender := fun hguarded => .of_guard (hguard hguarded) le_rfl Iff.rfl
      count := Nat.le_succ _
      message := fun j hj => hmessage hj
      stage := stage_update (by rw [hvacant, Phase.stage]; omega)
      held := held_update (by rw [hvacant]; exact (Option.some_ne_none other).symm)
      fresh := fresh_update fun heq => hother (Option.some.inj heq).symm
      delivered := fun x hx => .inl hx }

/-- The history of the tries that give up does not concern the ring. -/
theorem Inv.after_refuse (h : Inv guarded channel s) (pid : Nat) :
    Inv guarded channel (refuse channel pid s) ∧ ∀ other, Rely guarded channel other s (refuse channel pid s) :=
  ⟨{ h with }, fun other => { Rely.refl guarded channel other s with sender := fun _ => .of_same rfl rfl rfl }⟩

theorem Inv.after_miss (h : Inv guarded channel s) (pid : Nat) :
    Inv guarded channel (miss pid s) ∧ ∀ other, other ≠ pid → Rely guarded channel other s (miss pid s) :=
  ⟨{ h with }, fun other hother =>
    { Rely.refl guarded channel other s with
      sender := fun _ => .of_same rfl rfl rfl
      hasty := Function.update_of_ne hother _ _ }⟩

theorem Inv.undisturbed (h : Inv guarded channel s) (hsame : Undisturbed s s') : Inv guarded channel s' := by
  obtain ⟨_, _, _, rfl⟩ := hsame
  exact { h with }

theorem rely_of_undisturbed (guarded : Prop) (channel : Channel) (pid : Nat) (hsame : Undisturbed s s') :
    Rely guarded channel pid s s' := by
  obtain ⟨_, _, _, rfl⟩ := hsame
  exact { Rely.refl guarded channel pid s with sender := fun _ => .of_same rfl rfl rfl }

end

end shmchan.channel
