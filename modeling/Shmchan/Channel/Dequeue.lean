import Shmchan.Channel.Enqueue

open process shmchan.endpoint

namespace shmchan.channel

/-- The item at the next position to dequeue is published. -/
def HeadPublished (s : Memory) : Prop := s.log.phase s.log.claimed = .published

/-- The receiver has claimed an item and not released its slot yet. -/
structure Taking (pid index : Nat) (message : Bytes) (s : Memory) : Prop where
  phase : s.log.phase index = .claimed pid
  only : ∀ i, holder (s.log.phase i) = some pid → i = index
  index_lt : index < s.log.count
  content : s.log.message index = message

/-- The last item that the process has received. -/
def Received (pid : Nat) (value : Bytes) (s : Memory) : Prop :=
  ∃ index, s.ring.last pid = some index ∧ (index, value) ∈ s.log.delivered

/-- Closed, without senders, and every item has been claimed. -/
def Finished (s : Memory) : Prop := s.Done ∧ s.Drained

/-- A try to receive ends with an item of its own, or without one. -/
def Obtained (missed : Memory → Prop) (pid : Nat) (value : Option Bytes) (s : Memory) : Prop :=
  (∀ message, value = some message → Received pid message s) ∧ (value = none → missed s)

/-- A try to receive ends with an item of its own, or at a head that was not
    published; if the channel was closed and without senders then, nothing is left. -/
def Got (guarded : Prop) (Q : Memory → Prop) (pid : Nat) (value : Option Bytes) (s : Memory) : Prop :=
  (∀ message, value = some message → Received pid message s) ∧
    (value = none → ∃ s', Q s' ∧ ¬ HeadPublished s' ∧
      (guarded → Emptied pid s ∧ (s'.Done → Finished s)))

section

variable {guarded : Prop} {channel : Channel} {pid index position k : Nat} {s s' : Memory} {message : Bytes}
  {Q missed : Memory → Prop}

theorem taking_stable (guarded : Prop) (channel : Channel) (pid index : Nat) (message : Bytes) :
    Stable (slot_reliance guarded channel) pid (Taking pid index message) := by
  intro s s' hrely _ h
  have hholder : holder (s.log.phase index) = some pid := by rw [h.phase]; rfl
  refine ⟨(hrely.held index hholder).trans h.phase, fun i hi => ?_, h.index_lt.trans_le hrely.count,
    (hrely.message index h.index_lt).trans h.content⟩
  have hsame := hrely.fresh i hi
  rw [hsame] at hi
  exact h.only i hi

theorem received_stable (guarded : Prop) (channel : Channel) (pid : Nat) (value : Bytes) :
    Stable (slot_reliance guarded channel) pid (Received pid value) := by
  rintro s s' hrely _ ⟨index, hlast, hdelivered⟩
  exact ⟨index, hrely.last.trans hlast, hrely.kept _ hdelivered⟩

theorem Rely.finished (h : Rely guarded channel pid s s') (hguarded : guarded) (hfinished : Finished s) :
    Finished s' := by
  have hsender := h.sender hguarded
  refine ⟨hsender.keeps_done hfinished.1, fun i hi => h.taken (hfinished.2 i ?_)⟩
  rwa [hsender.count hfinished.1] at hi

theorem got_stable (guarded : Prop) (channel : Channel) (Q : Memory → Prop) (pid : Nat) (value : Option Bytes) :
    Stable (slot_reliance guarded channel) pid (Got guarded Q pid value) := by
  intro s s' hrely hinv h
  refine ⟨fun message hmessage => received_stable guarded channel pid message s s' hrely hinv (h.1 message hmessage),
    fun hnone => ?_⟩
  obtain ⟨s₀, hQ, hhead, hend⟩ := h.2 hnone
  refine ⟨s₀, hQ, hhead, fun hguarded => ⟨?_, fun hdone => hrely.finished hguarded ((hend hguarded).2 hdone)⟩⟩
  exact (hrely.sender hguarded).keeps_emptied hrely.hasty (fun _ => hrely.taken) (hend hguarded).1

/-- The bytes of the item, in order. -/
theorem copy_from_slot_safe : ∀ {count k : Nat} {s : Memory}, k + count = channel.element_size →
    Taking pid index message s →
      SafeWithin Q (slot_reliance guarded channel) pid
        (fun bytes s' => (message.length = channel.element_size → bytes = message.drop k) ∧
          Taking pid index message s')
        (copy_from_slot pid (index % channel.capacity) count k) s := by
  intro count
  induction count with
  | zero =>
    intro k s hk h
    refine ⟨fun hsize => ?_, h⟩
    rw [List.drop_eq_nil_of_le (by omega)]
  | succ count ih =>
    intro k s hk h
    apply SafeWithin.modifyGet (taking_stable guarded channel pid index message) h
    intro s₁ h₁ hinv₁ _ _
    have hinv₁ : Inv guarded channel s₁ := hinv₁
    obtain ⟨hinv₂, hothers⟩ := hinv₁.after_read h₁.phase
    refine ⟨hinv₂, fun other _ => hothers other, ?_⟩
    have hrest := ih (k := k + 1) (s := set_ring (fun r =>
      { r with reading := Function.update r.reading pid (some (index % channel.capacity)) }) s₁) (by omega)
      ⟨h₁.phase, h₁.only, h₁.index_lt, h₁.content⟩
    apply hrest.bind
    rintro rest s₂ ⟨hrest, h₂⟩
    refine ⟨fun hsize => ?_, h₂⟩
    have hholds := hinv₁.stored index (.inr ⟨pid, h₁.phase⟩)
    rw [h₁.content] at hholds
    rw [hrest hsize, List.drop_eq_getElem_cons (show k < message.length by omega)]
    congr 1
    exact hholds k (by omega) (by omega)

/-- The receiver copies its item out, releases the slot and wakes a sender. -/
theorem empty_slot_safe {word pick : Nat} (hword : word = word_of channel.capacity index .consumed)
    (h : Taking pid index message s) :
    SafeWithin Q (slot_reliance guarded channel) pid
      (Ended.Post (fun value s' => Idle pid s' ∧ Obtained missed pid value s') fun _ _ => False)
      (empty_slot channel pid index (index % channel.capacity) word pick) s := by
  unfold empty_slot
  apply (copy_from_slot_safe (Nat.zero_add _) h).bind
  rintro value s₁ ⟨hvalue, h₁⟩
  apply SafeWithin.act (taking_stable guarded channel pid index message) h₁
  intro s₂ h₂ hinv₂ _ _ _
  have hinv₂ : Inv guarded channel s₂ := hinv₂
  have hsize : message.length = channel.element_size := by
    rw [← h₂.content]
    exact hinv₂.sized index h₂.index_lt
  obtain ⟨hinv₃, hothers⟩ := hinv₂.after_release h₂.phase hword ((hvalue hsize).trans h₂.content.symm)
  let released := release pid index (index % channel.capacity) word value s₂
  have hend : Idle pid released ∧ Received pid value released := by
    refine ⟨fun i hi => ?_, index, Function.update_self _ _ _, List.mem_cons_self⟩
    simp only [released, release] at hi
    by_cases hindex : i = index
    · rw [hindex, Function.update_self] at hi
      cases hi
    · rw [Function.update_of_ne hindex] at hi
      exact hindex (h₂.only i hi)
  have hstable := (idle_stable guarded channel pid).and (received_stable guarded channel pid value)
  refine ⟨hinv₃, hothers, ?_⟩
  apply (quiet_safe (undisturbed_bump pid .writable) hstable hend).bind
  intro _ s₃ h₃
  apply (quiet_safe (undisturbed_wake_one pid .writable pick) hstable h₃.2).bind
  rintro _ s₄ ⟨_, hidle, hreceived⟩
  refine ⟨hidle, fun message hmessage => ?_, fun hnone => by cases hnone⟩
  cases hmessage
  exact hreceived

/-- The sequence word of the slot of the next position to dequeue. -/
theorem Inv.head_sequence (h : Inv guarded channel s) (hne : channel.capacity ≠ 1) :
    s.ring.sequence (s.log.claimed % channel.capacity) ≤ s.log.claimed + 1 ∧
      (s.ring.sequence (s.log.claimed % channel.capacity) = s.log.claimed + 1 ↔ HeadPublished s) := by
  have hclaimed := h.ordered.claimed_le
  rw [HeadPublished]
  rcases Nat.lt_or_eq_of_le hclaimed with hlt | heq
  · have htaken := h.ordered.ahead s.log.claimed le_rfl
    have hlive : s.log.count ≤ s.log.claimed + channel.capacity := by
      by_contra hge
      rw [h.ordered.settled s.log.claimed (by omega)] at htaken
      cases htaken
    rw [h.placed.used _ hlt hlive]
    cases hphase : s.log.phase s.log.claimed with
    | vacant => exact absurd hphase (h.ordered.occupied _ hlt)
    | published =>
      simp only [word_of, if_neg hne]
      exact ⟨le_rfl, trivial⟩
    | reserved _ =>
      simp only [word_of, if_neg hne]
      refine ⟨by omega, iff_of_false (by omega) ?_⟩
      rintro ⟨⟩
    | claimed _ | consumed =>
      rw [hphase] at htaken
      cases htaken
  · have hword := (h.next_sequence hne).1
    rw [heq, h.ordered.vacant _ le_rfl]
    refine ⟨by omega, iff_of_false (by omega) ?_⟩
    rintro ⟨⟩

/-- A try to receive that finds its slot behind, at a position it has loaded
    before. -/
theorem Inv.dequeue_behind (h : Inv guarded channel s) (hbounded : Bounded channel s)
    (hcap : 1 < channel.capacity) (hposition : position ≤ s.log.claimed)
    (hbehind : to_int64 (sub64 (s.ring.sequence (position % channel.capacity)) (add64 position 1)) < 0) :
    ¬ HeadPublished s := by
  intro hpublished
  have hne : channel.capacity ≠ 1 := by omega
  rw [Bounded] at hbounded
  have hlive : s.log.claimed < s.log.count ∧ s.log.count ≤ s.log.claimed + channel.capacity := by
    apply h.ordered.live <;> rw [hpublished] <;> rintro ⟨⟩
  rw [add64_of_lt (by omega)] at hbehind
  rcases Nat.lt_or_eq_of_le hposition with hlt | rfl
  · obtain ⟨i, hslot, hi, hlast, hlap⟩ := last_item channel.pos (hlt.trans hlive.1)
    have hword := h.placed.used i hi hlast
    have hbounds := word_of_bounds hcap i (s.log.phase i)
    rw [hslot] at hword
    rw [hword, to_int64_sub64 (by omega) (by omega)] at hbehind
    rcases hlap with rfl | hlap
    · have htaken := h.ordered.behind i hlt
      cases hphase : s.log.phase i with
      | vacant | reserved _ | published =>
        rw [hphase] at htaken
        cases htaken
      | claimed _ | consumed =>
        simp only [hphase, word_of, if_neg hne] at hbehind
        omega
    · omega
  · rw [(h.head_sequence hne).2.mpr hpublished, to_int64_sub64 (by omega) (by omega)] at hbehind
    omega

/-- A try to receive that finds the word after its position in its slot. -/
theorem Inv.dequeue_matched (h : Inv guarded channel s) (hfits : Representable channel s)
    (hcap : 1 < channel.capacity) (hposition : position ≤ s.log.claimed)
    (hmatch : to_int64 (sub64 (s.ring.sequence (position % channel.capacity)) (add64 position 1)) = 0) :
    2 ≤ (s.log.phase position).stage := by
  have hclaimed := h.ordered.claimed_le
  rw [Representable] at hfits
  rw [add64_of_lt (by omega)] at hmatch
  rcases Nat.lt_or_eq_of_le hposition with hlt | rfl
  · have hstage := Phase.stage_taken.mpr (h.ordered.behind position hlt)
    omega
  · obtain ⟨hle, hhead⟩ := h.head_sequence (by omega : channel.capacity ≠ 1)
    rw [to_int64_sub64_eq_zero (by omega) (by omega)] at hmatch
    rw [hhead.mp hmatch, Phase.stage]

/-- What a receiver knows in the loop of `try_dequeue`. -/
def Seeking (pid position : Nat) (s : Memory) : Prop := Idle pid s ∧ position ≤ s.log.claimed

theorem seeking_stable (guarded : Prop) (channel : Channel) (pid position : Nat) :
    Stable (slot_reliance guarded channel) pid (Seeking pid position) :=
  fun s s' hrely hinv h => ⟨idle_stable guarded channel pid s s' hrely hinv h.1, h.2.trans hrely.claimed⟩

/-- A receiver that has found the item of its position published. -/
def Found (pid position : Nat) (s : Memory) : Prop :=
  Seeking pid position s ∧ 2 ≤ (s.log.phase position).stage

theorem found_stable (guarded : Prop) (channel : Channel) (pid position : Nat) :
    Stable (slot_reliance guarded channel) pid (Found pid position) :=
  fun s s' hrely hinv h => ⟨seeking_stable guarded channel pid position s s' hrely hinv h.1,
    h.2.trans (hrely.stage position)⟩

/-- The exchange is the beginning of a receipt. -/
theorem Inv.taking (hinv : Inv guarded channel s) (h : Idle pid s) (hpublished : HeadPublished s)
    (f : SlotRing → SlotRing) :
    Taking pid s.log.claimed (s.log.message s.log.claimed) (claim pid f s) := by
  refine ⟨Function.update_self _ _ _, fun i hi => ?_, ?_, rfl⟩
  · by_contra hne
    simp only [claim, Function.update_of_ne hne] at hi
    exact h i hi
  · by_contra hge
    have hvacant := hinv.ordered.vacant s.log.claimed (Nat.not_lt.mp hge)
    rw [HeadPublished, hvacant] at hpublished
    cases hpublished

/-- Nothing is left of a closed channel without senders whose head is not
    published. -/
theorem Inv.drained (h : Inv guarded channel s) (hguarded : guarded) (hhead : ¬ HeadPublished s)
    (hdone : s.Done) : s.Drained := by
  have hsenders := h.senders hguarded
  have hall : s.log.claimed = s.log.count := by
    have hclaimed := h.ordered.claimed_le
    by_contra hne
    have htaken := h.ordered.ahead s.log.claimed le_rfl
    cases hphase : s.log.phase s.log.claimed with
    | vacant => exact h.ordered.occupied s.log.claimed (by omega) hphase
    | published => exact hhead hphase
    | reserved other =>
      have hguard := hsenders.owner _ other hphase
      rw [hdone.2] at hguard
      cases hguard
    | claimed _ | consumed =>
      rw [hphase] at htaken
      cases htaken
  exact fun i hi => h.ordered.behind i (by omega)

/-- A try that gives up at a head that is not published: another sender may
    come, or the channel is closed and drained. -/
theorem Inv.emptied (h : Inv guarded channel s) (hguarded : guarded) (hhead : ¬ HeadPublished s) :
    Emptied pid (miss pid s) := by
  by_cases hstate : s.sender_state = channel_closed_bit
  · have hdone : s.Done := by
      obtain ⟨hclosings, hguards⟩ := (h.senders hguarded).done_iff.mp hstate
      exact ⟨by omega, hguards⟩
    exact .inr ⟨hdone, h.drained hguarded hhead hdone⟩
  · left
    simp only [miss, Function.update_self, ne_eq, hstate, not_false_eq_true, decide_true]

/-- The postcondition of a try to receive. -/
def Dequeued (guarded : Prop) (Q : Memory → Prop) (pid : Nat) : Ended (Option Bytes) → Memory → Prop :=
  Ended.Post (fun value s => Idle pid s ∧ Got guarded Q pid value s) fun _ _ => False

/-- A try that gives up at a head that is not published. -/
theorem Inv.gives_up (h : Inv guarded channel s) (hQ : Q s) (hhead : ¬ HeadPublished s) :
    ∃ s', Q s' ∧ ¬ HeadPublished s' ∧
      (guarded → Emptied pid (miss pid s) ∧ (s'.Done → Finished (miss pid s))) := by
  refine ⟨s, hQ, hhead, fun hguarded => ⟨h.emptied hguarded hhead, fun hdone => ?_⟩⟩
  exact ⟨hdone, h.drained hguarded hhead hdone⟩

/-- The load of the sequence word, with what its value says. -/
theorem load_token_safe (hQ : ∀ s, Q s → Representable channel s)
    (hmissed : ∀ s, Q s → Inv guarded channel s → (Bounded channel s → ¬ HeadPublished s) → missed (miss pid s))
    (hcap : 1 < channel.capacity) {β : Type} {post : β → Memory → Prop} {f : Nat → Prog Memory β}
    (h : Seeking pid position s)
    (hf : ∀ sequence s', Seeking pid position s' →
      (to_int64 (sub64 sequence (add64 position 1)) < 0 → missed s') →
      (to_int64 (sub64 sequence (add64 position 1)) = 0 → Found pid position s') →
      SafeWithin Q (slot_reliance guarded channel) pid post (f sequence) s') :
    SafeWithin Q (slot_reliance guarded channel) pid post
      (.modifyGet (fun s => s.ring.sequence (position % channel.capacity)) (fun s =>
        if to_int64 (sub64 (s.ring.sequence (position % channel.capacity)) (add64 position 1)) < 0 then
          miss pid s else s) >>= f) s := by
  apply SafeWithin.modifyGet (seeking_stable guarded channel pid position) h
  intro s₁ h₁ hinv₁ hQ₁ _
  have hinv₁ : Inv guarded channel s₁ := hinv₁
  by_cases hsign : to_int64 (sub64 (s₁.ring.sequence (position % channel.capacity)) (add64 position 1)) < 0
  · rw [if_pos hsign]
    obtain ⟨hinv₂, hothers⟩ := hinv₁.after_miss pid
    have hend := hmissed s₁ hQ₁ hinv₁ fun hbounded => hinv₁.dequeue_behind hbounded hcap h₁.2 hsign
    exact ⟨hinv₂, hothers, hf _ _ h₁ (fun _ => hend) fun heq => absurd hsign (by omega)⟩
  · rw [if_neg hsign]
    exact ⟨hinv₁, fun other _ => Rely.refl guarded channel other s₁, hf _ _ h₁
      (fun hlt => absurd hlt hsign) fun heq => ⟨h₁, hinv₁.dequeue_matched (hQ s₁ hQ₁) hcap h₁.2 heq⟩⟩

/-- The exchange of `dequeue_position` succeeds at a position whose item has
    been found published. -/
theorem Found.claim (h : Found pid position s) (hinv : Inv guarded channel s) (hcap : 1 < channel.capacity)
    (hfits : Representable channel s) (hposition : s.ring.dequeue_position = position) :
    position = s.log.claimed ∧ HeadPublished s ∧
      let f (r : SlotRing) := { r with dequeue_position := add64 position 1 }
      Inv guarded channel (claim pid f s) ∧
        ∀ other, other ≠ pid → Rely guarded channel other s (claim pid f s) := by
  have hne : channel.capacity ≠ 1 := by omega
  have hclaimed := hinv.placed.dequeue_position
  rw [if_neg hne, hposition] at hclaimed
  subst hclaimed
  have htaken := hinv.ordered.ahead s.log.claimed le_rfl
  have hstage := h.2
  have hpublished : HeadPublished s := by
    rw [HeadPublished]
    cases hphase : s.log.phase s.log.claimed with
    | published => rfl
    | vacant | reserved _ =>
      rw [hphase, Phase.stage] at hstage
      omega
    | claimed _ | consumed =>
      rw [hphase] at htaken
      cases htaken
  have hle := hinv.ordered.claimed_le
  rw [Representable] at hfits
  have hnext : add64 s.log.claimed 1 = if channel.capacity = 1 then 0 else s.log.claimed + 1 := by
    rw [if_neg hne, add64_of_lt (by omega)]
  refine ⟨rfl, hpublished, hinv.after_claim pid hpublished rfl hnext ?_ fun _ _ => rfl⟩
  have hlive : s.log.claimed < s.log.count ∧ s.log.count ≤ s.log.claimed + channel.capacity := by
    apply hinv.ordered.live <;> rw [hpublished] <;> rintro ⟨⟩
  rw [hinv.placed.used _ hlive.1 hlive.2, hpublished, word_of, word_of, if_neg hne, if_neg hne]

theorem dequeue_loop_safe (hQ : ∀ s, Q s → Representable channel s)
    (hmissed : ∀ s, Q s → Inv guarded channel s → (Bounded channel s → ¬ HeadPublished s) → missed (miss pid s))
    (hcap : 1 < channel.capacity) {pick : Nat} :
    ∀ {attempts : List Bool} {position : Nat} {s : Memory}, Seeking pid position s →
      SafeWithin Q (slot_reliance guarded channel) pid
        (Ended.Post (fun value s' => Idle pid s' ∧ Obtained missed pid value s') fun _ _ => False)
        (dequeue_loop channel pid pick attempts position) s := by
  intro attempts
  induction attempts with
  | nil =>
    intro position s h
    unfold dequeue_loop
    apply load_token_safe hQ hmissed hcap h
    intro sequence s₁ h₁ hbehind _
    simp only
    split_ifs with hzero hsign
    · trivial
    · exact ⟨h₁.1, fun message hmessage => (by cases hmessage), fun _ => hbehind hsign⟩
    · trivial
  | cons spurious attempts ih =>
    intro position s h
    unfold dequeue_loop
    apply load_token_safe hQ hmissed hcap h
    intro sequence s₁ h₁ hbehind hfound
    simp only
    split_ifs with hzero hsign
    · apply SafeWithin.act (found_stable guarded channel pid position) (hfound hzero)
      intro s₂ h₂ hinv₂ hQ₂ _ _
      have hinv₂ : Inv guarded channel s₂ := hinv₂
      by_cases hexchanged : (!spurious && s₂.ring.dequeue_position == position) = true
      · simp only [hexchanged, if_true]
        simp only [Bool.and_eq_true, beq_iff_eq] at hexchanged
        have hfits := hQ s₂ hQ₂
        obtain ⟨rfl, hpublished, hinv', hothers⟩ := h₂.claim hinv₂ hcap hfits hexchanged.2
        refine ⟨hinv', hothers, ?_⟩
        have hclaimed := hinv₂.ordered.claimed_le
        rw [Representable] at hfits
        apply empty_slot_safe _ (hinv₂.taking h₂.1.1 hpublished _)
        rw [word_of, if_neg (by omega), add64_of_lt (by omega)]
      · simp only [hexchanged, Bool.false_eq_true, if_false]
        refine ⟨hinv₂, fun other _ => Rely.refl guarded channel other s₂, ih ⟨h₂.1.1, ?_⟩⟩
        rw [hinv₂.placed.dequeue_position, if_neg (by omega)]
    · exact ⟨h₁.1, fun message hmessage => (by cases hmessage), fun _ => hbehind hsign⟩
    · apply SafeWithin.load (Rely.refl guarded channel) (idle_stable guarded channel pid) h₁.1
      intro s₂ h₂ hinv₂ _
      have hinv₂ : Inv guarded channel s₂ := hinv₂
      apply ih ⟨h₂, _⟩
      rw [hinv₂.placed.dequeue_position, if_neg (by omega)]

/-- The state of a single slot, and the exchange that claims its item. -/
theorem Inv.single_full (h : Inv guarded channel s) (hcap : channel.capacity = 1) :
    s.ring.sequence 0 = 2 ↔ HeadPublished s := by
  rw [HeadPublished]
  by_cases hzero : s.log.count = 0
  · rw [h.placed.unused 0 (by omega) (by omega), h.ordered.vacant _ (by omega)]
    refine iff_of_false (by omega) ?_
    rintro ⟨⟩
  · have hword := h.placed.used (s.log.count - 1) (by omega) (by omega)
    rw [hcap, Nat.mod_one] at hword
    rw [hword]
    by_cases hclaimed : s.log.claimed = s.log.count - 1
    · rw [hclaimed]
      cases hphase : s.log.phase (s.log.count - 1) with
      | published => exact iff_of_true rfl rfl
      | vacant | reserved _ | claimed _ | consumed =>
        refine iff_of_false (by simp only [word_of, if_true]; omega) ?_
        rintro ⟨⟩
    · have hle := h.ordered.claimed_le
      have hall : s.log.claimed = s.log.count := by
        by_contra hne
        have htaken := h.ordered.ahead s.log.claimed le_rfl
        rw [h.ordered.settled s.log.claimed (by omega)] at htaken
        cases htaken
      have htaken := h.ordered.behind (s.log.count - 1) (by omega)
      rw [hall, h.ordered.vacant _ le_rfl]
      refine iff_of_false ?_ ?_
      · cases hphase : s.log.phase (s.log.count - 1) with
        | vacant | reserved _ | published =>
          rw [hphase] at htaken
          cases htaken
        | claimed _ | consumed =>
          simp only [word_of, if_true]
          omega
      · rintro ⟨⟩

/-- `try_dequeue` sees whether the item of the next position is published. -/
theorem Inv.slot_full_iff (h : Inv guarded channel s) (hbounded : Bounded channel s) :
    SlotFull channel s ↔ HeadPublished s := by
  have hpos := channel.pos
  have hclaimed := h.ordered.claimed_le
  rw [Bounded] at hbounded
  rw [SlotFull]
  split_ifs with hcap
  · exact h.single_full hcap
  · rw [h.placed.dequeue_position, if_neg hcap, add64_of_lt (by omega)]
    exact (h.head_sequence hcap).2

/-- A try to receive. One that gives up knows that the head was not published,
    unless the difference of the words has overflowed. -/
theorem try_dequeue_obtained (hQ : ∀ s, Q s → Representable channel s)
    (hmissed : ∀ s, Q s → Inv guarded channel s → (Bounded channel s → ¬ HeadPublished s) → missed (miss pid s))
    (chances : SlotChances) (h : Idle pid s) :
    SafeWithin Q (slot_reliance guarded channel) pid
      (Ended.Post (fun value s' => Idle pid s' ∧ Obtained missed pid value s') fun _ _ => False)
      (try_dequeue channel pid chances) s := by
  have hstable := idle_stable guarded channel pid
  have hpos := channel.pos
  unfold try_dequeue
  split_ifs with hcap
  · apply SafeWithin.act hstable h
    intro s₁ h₁ hinv₁ hQ₁ _ _
    have hinv₁ : Inv guarded channel s₁ := hinv₁
    have hstate := hinv₁.single_full hcap
    by_cases hfull : s₁.ring.sequence 0 = 2
    · simp only [hfull, beq_self_eq_true, if_true]
      have hpublished := hstate.mp hfull
      let f (r : SlotRing) := { r with sequence := Function.update r.sequence 0 3 }
      obtain ⟨hinv₂, hothers⟩ := hinv₁.after_claim pid (f := f) hpublished rfl
        (by rw [hinv₁.placed.dequeue_position, if_pos hcap, if_pos hcap])
        (by rw [hcap, Nat.mod_one, Function.update_self, word_of, if_pos rfl])
        fun x hx => Function.update_of_ne (by rwa [hcap, Nat.mod_one] at hx) _ _
      refine ⟨hinv₂, hothers, ?_⟩
      have hempty : SafeWithin Q (slot_reliance guarded channel) pid
          (Ended.Post (fun value s' => Idle pid s' ∧ Obtained missed pid value s') fun _ _ => False)
          (empty_slot channel pid s₁.log.claimed (s₁.log.claimed % channel.capacity) 0 chances.pick)
          (claim pid f s₁) :=
        empty_slot_safe (by rw [word_of, if_pos hcap]) (hinv₁.taking h₁ hpublished f)
      rw [hcap, Nat.mod_one] at hempty
      exact hempty
    · simp only [beq_iff_eq, hfull, if_false]
      obtain ⟨hinv₂, hothers⟩ := hinv₁.after_miss pid
      exact ⟨hinv₂, hothers, h₁, fun message hmessage => (by cases hmessage),
        fun _ => hmissed s₁ hQ₁ hinv₁ fun _ => mt hstate.mpr hfull⟩
  · apply SafeWithin.load (Rely.refl guarded channel) hstable h
    intro s₁ h₁ hinv₁ _
    have hinv₁ : Inv guarded channel s₁ := hinv₁
    apply dequeue_loop_safe hQ hmissed (by omega) ⟨h₁, _⟩
    rw [hinv₁.placed.dequeue_position, if_neg hcap]

theorem try_dequeue_safe (hQ : ∀ s, Q s → Bounded channel s) (chances : SlotChances) (h : Idle pid s) :
    SafeWithin Q (slot_reliance guarded channel) pid (Dequeued guarded Q pid)
      (try_dequeue channel pid chances) s :=
  try_dequeue_obtained (fun s hs => (hQ s hs).representable)
    (fun s hs hinv hhead => hinv.gives_up hs (hhead (hQ s hs))) chances h

end

end shmchan.channel
