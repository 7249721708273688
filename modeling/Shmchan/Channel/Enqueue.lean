import Shmchan.Channel.Transitions

open process shmchan.endpoint

namespace shmchan.channel

/-- The slot of the next position to enqueue has been released. -/
def Free (channel : Channel) (s : Memory) : Prop :=
  released channel.capacity s.log.phase s.log.count = true

/-- The process holds no slot. -/
def Idle (pid : Nat) (s : Memory) : Prop := ∀ i, holder (s.log.phase i) ≠ some pid

/-- A sender that holds no slot. -/
structure Registered (guarded : Prop) (pid : Nat) (s : Memory) : Prop where
  idle : Idle pid s
  guard : guarded → pid ∈ s.guards

/-- The sender has claimed the slot of an item and stored its first `k` bytes. -/
structure Filling (guarded : Prop) (channel : Channel) (pid index : Nat) (value : Bytes) (k : Nat)
    (s : Memory) : Prop where
  guard : guarded → pid ∈ s.guards
  phase : s.log.phase index = .reserved pid
  only : ∀ i, holder (s.log.phase i) = some pid → i = index
  index_lt : index < s.log.count
  content : s.log.message index = value
  bytes : Holds (s.ring.storage (index % channel.capacity)) value k

/-- The last item that the process has sent. -/
def Sent (pid : Nat) (value : Bytes) (s : Memory) : Prop :=
  ∃ index, s.ring.sent pid = some index ∧ index < s.log.count ∧ s.log.message index = value

/-- A try to send ends with its item published, or it has been refused. -/
def Attempted (guarded refused : Prop) (pid : Nat) (value : Bytes) (enqueued : Bool) (s : Memory) : Prop :=
  Registered guarded pid s ∧ (enqueued = true → Sent pid value s) ∧ (enqueued = false → refused)

/-- A try to send ends with its item published, or at a slot that was not free. -/
def Tried (guarded : Prop) (Q : Memory → Prop) (channel : Channel) (pid : Nat) (value : Bytes)
    (enqueued : Bool) (s : Memory) : Prop :=
  Registered guarded pid s ∧ (enqueued = true → Sent pid value s) ∧
    (enqueued = false → ∃ s', Q s' ∧ ¬ Free channel s')

section

variable {guarded refused : Prop} {channel : Channel} {pid index position k : Nat} {s s' : Memory}
  {value : Bytes} {Q : Memory → Prop} {α : Type}

/-- The programs that handle only the epoch words and their waiters keep every
    assertion about the ring. -/
theorem quiet_safe {P : α → Prop} {A : Memory → Prop} {p : Prog Memory α} (hp : p.Always Undisturbed P)
    (hstable : Stable (slot_reliance guarded channel) pid A) (hA : A s) :
    SafeWithin Q (slot_reliance guarded channel) pid (fun a s' => P a ∧ A s') p s := by
  apply SafeWithin.of_always hp hstable _ hA
  intro s s' hsame hinv hA
  have hinv' : Inv guarded channel s' := Inv.undisturbed hinv hsame
  exact ⟨hinv', fun other _ => rely_of_undisturbed guarded channel other hsame,
    hstable s s' (rely_of_undisturbed guarded channel pid hsame) hinv' hA⟩

theorem idle_stable (guarded : Prop) (channel : Channel) (pid : Nat) :
    Stable (slot_reliance guarded channel) pid (Idle pid) := by
  intro s s' hrely _ h i hi
  have hsame := hrely.fresh i hi
  rw [hsame] at hi
  exact h i hi

theorem registered_stable (guarded : Prop) (channel : Channel) (pid : Nat) :
    Stable (slot_reliance guarded channel) pid (Registered guarded pid) :=
  fun s s' hrely hinv h => ⟨idle_stable guarded channel pid s s' hrely hinv h.idle,
    fun hguarded => (hrely.sender hguarded).guard.mpr (h.guard hguarded)⟩

theorem filling_stable (guarded : Prop) (channel : Channel) (pid index : Nat) (value : Bytes) (k : Nat) :
    Stable (slot_reliance guarded channel) pid (Filling guarded channel pid index value k) := by
  intro s s' hrely _ h
  have hholder : holder (s.log.phase index) = some pid := by rw [h.phase]; rfl
  refine ⟨fun hguarded => (hrely.sender hguarded).guard.mpr (h.guard hguarded),
    (hrely.held index hholder).trans h.phase, fun i hi => ?_, h.index_lt.trans_le hrely.count,
    (hrely.message index h.index_lt).trans h.content, ?_⟩
  · have hsame := hrely.fresh i hi
    rw [hsame] at hi
    exact h.only i hi
  · rw [hrely.storage index hholder]
    exact h.bytes

theorem sent_stable (guarded : Prop) (channel : Channel) (pid : Nat) (value : Bytes) :
    Stable (slot_reliance guarded channel) pid (Sent pid value) := by
  rintro s s' hrely _ ⟨index, hsent, hlt, hmessage⟩
  exact ⟨index, hrely.sent.trans hsent, hlt.trans_le hrely.count, (hrely.message index hlt).trans hmessage⟩

/-- The bytes of the value, in order. -/
theorem copy_to_slot_safe : ∀ {rest : Bytes} {k : Nat} {s : Memory}, value.drop k = rest →
    Filling guarded channel pid index value k s →
      SafeWithin Q (slot_reliance guarded channel) pid
        (fun _ s' => Filling guarded channel pid index value value.length s')
        (copy_to_slot pid (index % channel.capacity) rest k) s := by
  intro rest
  induction rest with
  | nil =>
    intro k s hrest h
    have hlength := List.drop_eq_nil_iff.mp hrest
    exact { h with bytes := fun j hj _ => h.bytes j hj (by omega) }
  | cons byte rest ih =>
    intro k s hrest h
    have hk : k < value.length := by
      by_contra hge
      rw [List.drop_eq_nil_of_le (by omega)] at hrest
      cases hrest
    rw [List.drop_eq_getElem_cons hk] at hrest
    injection hrest with hbyte hrest
    apply SafeWithin.act (filling_stable guarded channel pid index value k) h
    intro s' h' hinv _ _ _
    obtain ⟨hinv', hothers⟩ := Inv.after_write hinv (Function.update s'.ring.storage
      (index % channel.capacity) (Function.update (s'.ring.storage (index % channel.capacity)) k byte)) h'.phase
      fun x hx => Function.update_of_ne hx _ _
    refine ⟨hinv', hothers, ih hrest { h' with bytes := fun j hj hjk => ?_ }⟩
    simp only [set_ring, Function.update_self]
    by_cases hjk' : j = k
    · subst hjk'
      rw [Function.update_self, hbyte]
    · rw [Function.update_of_ne hjk']
      exact h'.bytes j hj (by omega)

/-- The sender fills the slot it has claimed, publishes the item and wakes a
    receiver. -/
theorem fill_slot_safe {word pick : Nat} (hword : word = word_of channel.capacity index .published)
    (hsize : value.length = channel.element_size) (h : Filling guarded channel pid index value 0 s) :
    SafeWithin Q (slot_reliance guarded channel) pid
      (Ended.Post (fun enqueued s' => enqueued = true ∧ Registered guarded pid s' ∧ Sent pid value s')
        fun _ _ => False)
      (fill_slot pid index (index % channel.capacity) word value pick) s := by
  unfold fill_slot
  apply (copy_to_slot_safe List.drop_zero h).bind
  intro _ s₁ h₁
  apply SafeWithin.act (filling_stable guarded channel pid index value value.length) h₁
  intro s₂ h₂ hinv₂ _ _ _
  have hholds : Holds (s₂.ring.storage (index % channel.capacity)) (s₂.log.message index)
      channel.element_size := by
    rw [h₂.content, ← hsize]
    exact h₂.bytes
  obtain ⟨hinv', hothers⟩ := Inv.after_publish hinv₂ h₂.phase hword hholds
  let published := publish pid index (index % channel.capacity) word s₂
  have hend : Registered guarded pid published ∧ Sent pid value published := by
    refine ⟨⟨fun i hi => ?_, h₂.guard⟩, index, Function.update_self _ _ _, h₂.index_lt, h₂.content⟩
    simp only [published, publish] at hi
    by_cases hindex : i = index
    · rw [hindex, Function.update_self] at hi
      cases hi
    · rw [Function.update_of_ne hindex] at hi
      exact hindex (h₂.only i hi)
  have hstable := (registered_stable guarded channel pid).and (sent_stable guarded channel pid value)
  refine ⟨hinv', hothers, ?_⟩
  apply (quiet_safe (undisturbed_bump pid .readable) hstable hend).bind
  intro _ s₃ h₃
  apply (quiet_safe (undisturbed_wake_one pid .readable pick) hstable h₃.2).bind
  exact fun _ s₄ h₄ => ⟨rfl, h₄.2⟩

/-- The last item that was put in the slot of a position. -/
theorem last_item {capacity count position : Nat} (hpos : 0 < capacity) (hlt : position < count) :
    ∃ i, i % capacity = position % capacity ∧ i < count ∧ count ≤ i + capacity ∧
      (i = position ∨ position + capacity ≤ i) := by
  refine ⟨position + capacity * ((count - 1 - position) / capacity), Nat.add_mul_mod_self_left _ _ _, ?_⟩
  have hdiv := Nat.div_add_mod (count - 1 - position) capacity
  have hmod := Nat.mod_lt (count - 1 - position) hpos
  generalize hlaps : (count - 1 - position) / capacity = laps at hdiv
  refine ⟨by omega, by omega, ?_⟩
  cases laps with
  | zero => exact .inl rfl
  | succ laps =>
    right
    rw [Nat.mul_succ]
    omega

theorem word_of_bounds {capacity : Nat} (hcap : 1 < capacity) (index : Nat) (phase : Phase) :
    index ≤ word_of capacity index phase ∧ word_of capacity index phase ≤ index + capacity := by
  have hne : capacity ≠ 1 := by omega
  cases phase with
  | vacant | reserved _ | published | claimed _ | consumed =>
    simp only [word_of, if_neg hne]
    omega

/-- The sequence word of the slot of the next position to enqueue. -/
theorem Inv.next_sequence (h : Inv guarded channel s) (hne : channel.capacity ≠ 1) :
    s.ring.sequence (s.log.count % channel.capacity) ≤ s.log.count ∧
      (s.ring.sequence (s.log.count % channel.capacity) = s.log.count ↔ Free channel s) := by
  have hpos := channel.pos
  by_cases hunused : s.log.count < channel.capacity
  · rw [Nat.mod_eq_of_lt hunused, h.placed.unused _ le_rfl hunused, Free, released, decide_eq_true hunused,
      Bool.true_or]
    exact ⟨le_rfl, iff_of_true rfl rfl⟩
  · have hword := h.placed.used (s.log.count - channel.capacity) (by omega) (by omega)
    have hoccupied := h.ordered.occupied (s.log.count - channel.capacity) (by omega)
    rw [← Nat.mod_eq_sub_mod (by omega)] at hword
    rw [hword, Free, released, decide_eq_false hunused, Bool.false_or, decide_eq_true_eq]
    cases hphase : s.log.phase (s.log.count - channel.capacity) with
    | vacant => exact absurd hphase hoccupied
    | consumed =>
      simp only [word_of, if_neg hne]
      exact ⟨by omega, iff_of_true (by omega) trivial⟩
    | reserved _ | published | claimed _ =>
      simp only [word_of, if_neg hne]
      refine ⟨by omega, iff_of_false (by omega) ?_⟩
      rintro ⟨⟩

/-- A try to send that finds its slot behind, at a position it has loaded before. -/
theorem Inv.enqueue_behind (h : Inv guarded channel s) (hbounded : Bounded channel s)
    (hcap : 1 < channel.capacity) (hposition : position ≤ s.log.count)
    (hbehind : to_int64 (sub64 (s.ring.sequence (position % channel.capacity)) position) < 0) :
    ¬ Free channel s := by
  rw [Bounded] at hbounded
  rcases Nat.lt_or_eq_of_le hposition with hlt | rfl
  · obtain ⟨i, hslot, hi, hlast, hlap⟩ := last_item channel.pos hlt
    have hword := h.placed.used i hi hlast
    have hbounds := word_of_bounds hcap i (s.log.phase i)
    rw [hslot] at hword
    rw [hword, to_int64_sub64 (by omega) (by omega)] at hbehind
    omega
  · intro hfree
    rw [(h.next_sequence (by omega)).2.mpr hfree, to_int64_sub64 (by omega) (by omega)] at hbehind
    omega

/-- A try to send that finds the word of its position in its slot. -/
theorem Inv.enqueue_matched (h : Inv guarded channel s) (hfits : Representable channel s)
    (hcap : 1 < channel.capacity) (hposition : position ≤ s.log.count)
    (hmatch : to_int64 (sub64 (s.ring.sequence (position % channel.capacity)) position) = 0) :
    position < s.log.count ∨ released channel.capacity s.log.phase position = true := by
  rw [Representable] at hfits
  rcases Nat.lt_or_eq_of_le hposition with hlt | rfl
  · exact .inl hlt
  · obtain ⟨hle, hfree⟩ := h.next_sequence (by omega : channel.capacity ≠ 1)
    rw [to_int64_sub64_eq_zero (by omega) (by omega)] at hmatch
    exact .inr (hfree.mp hmatch)

/-- What a sender knows in the loop of `try_enqueue`. -/
def Trying (guarded : Prop) (pid position : Nat) (s : Memory) : Prop :=
  Registered guarded pid s ∧ position ≤ s.log.count

theorem trying_stable (guarded : Prop) (channel : Channel) (pid position : Nat) :
    Stable (slot_reliance guarded channel) pid (Trying guarded pid position) :=
  fun s s' hrely hinv h =>
    ⟨registered_stable guarded channel pid s s' hrely hinv h.1, h.2.trans hrely.count⟩

/-- A sender that has found the slot of its position released, unless the
    position has been claimed since it was loaded. -/
def Matched (guarded : Prop) (channel : Channel) (pid position : Nat) (s : Memory) : Prop :=
  Trying guarded pid position s ∧
    (position < s.log.count ∨ released channel.capacity s.log.phase position = true)

theorem matched_stable (guarded : Prop) (channel : Channel) (pid position : Nat) :
    Stable (slot_reliance guarded channel) pid (Matched guarded channel pid position) := by
  rintro s s' hrely hinv ⟨htrying, hmatched⟩
  refine ⟨trying_stable guarded channel pid position s s' hrely hinv htrying, ?_⟩
  rcases hmatched with hlt | hreleased
  · exact .inl (hlt.trans_le hrely.count)
  · right
    rw [released, Bool.or_eq_true, decide_eq_true_eq, decide_eq_true_eq] at hreleased ⊢
    exact hreleased.imp id hrely.consumed

/-- The exchange is the beginning of an item. -/
theorem Registered.reserved (h : Registered guarded pid s) {f : SlotRing → SlotRing} :
    Filling guarded channel pid s.log.count value 0 (reserve pid value f s) := by
  refine ⟨h.guard, Function.update_self _ _ _, fun i hi => ?_, Nat.lt_succ_self _, Function.update_self _ _ _,
    fun j _ hj => absurd hj (Nat.not_lt_zero j)⟩
  by_contra hne
  simp only [reserve, Function.update_of_ne hne] at hi
  exact h.idle i hi

theorem filled_attempted (ended : Ended Bool)
    (h : Ended.Post (fun enqueued s' => enqueued = true ∧ Registered guarded pid s' ∧ Sent pid value s')
      (fun _ _ => False) ended s) :
    Ended.Post (Attempted guarded refused pid value) (fun _ _ => False) ended s := by
  cases ended with
  | returned enqueued =>
    obtain ⟨rfl, hregistered, hsent⟩ := h
    exact ⟨hregistered, fun _ => hsent, fun hfalse => by cases hfalse⟩
  | thrown error => exact h
  | unfinished => trivial

/-- The load of the sequence word, with what its value says. -/
theorem load_sequence_safe (hQ : ∀ s, Q s → Representable channel s)
    (hrefused : ∀ s, Q s → (Bounded channel s → ¬ Free channel s) → refused) (hcap : 1 < channel.capacity)
    {β : Type} {post : β → Memory → Prop} {f : Nat → Prog Memory β} (h : Trying guarded pid position s)
    (hf : ∀ sequence s', Trying guarded pid position s' →
      (to_int64 (sub64 sequence position) < 0 → refused) →
      (to_int64 (sub64 sequence position) = 0 → Matched guarded channel pid position s') →
      SafeWithin Q (slot_reliance guarded channel) pid post (f sequence) s') :
    SafeWithin Q (slot_reliance guarded channel) pid post
      (.modifyGet (fun s => s.ring.sequence (position % channel.capacity)) (fun s =>
        if to_int64 (sub64 (s.ring.sequence (position % channel.capacity)) position) < 0 then
          refuse channel pid s else s) >>= f) s := by
  apply SafeWithin.modifyGet (trying_stable guarded channel pid position) h
  intro s₁ h₁ hinv₁ hQ₁ _
  have hinv₁ : Inv guarded channel s₁ := hinv₁
  by_cases hsign : to_int64 (sub64 (s₁.ring.sequence (position % channel.capacity)) position) < 0
  · rw [if_pos hsign]
    obtain ⟨hinv₂, hothers⟩ := hinv₁.after_refuse pid
    exact ⟨hinv₂, fun other _ => hothers other, hf _ _ ⟨⟨h₁.1.idle, h₁.1.guard⟩, h₁.2⟩
      (fun _ => hrefused s₁ hQ₁ fun hbounded => hinv₁.enqueue_behind hbounded hcap h₁.2 hsign)
      fun heq => absurd hsign (by omega)⟩
  · rw [if_neg hsign]
    exact ⟨hinv₁, fun other _ => Rely.refl guarded channel other s₁, hf _ _ h₁
      (fun hlt => absurd hlt hsign) fun heq => ⟨h₁, hinv₁.enqueue_matched (hQ s₁ hQ₁) hcap h₁.2 heq⟩⟩

/-- The exchange of `enqueue_position` succeeds at a position whose slot has
    been found released. -/
theorem Matched.reserve (h : Matched guarded channel pid position s) (hinv : Inv guarded channel s)
    (hcap : 1 < channel.capacity) (hfits : Representable channel s) (hsize : value.length = channel.element_size)
    (hposition : s.ring.enqueue_position = position) :
    position = s.log.count ∧
      let f (r : SlotRing) := { r with enqueue_position := add64 position 1 }
      Inv guarded channel (reserve pid value f s) ∧
        ∀ other, other ≠ pid → Rely guarded channel other s (reserve pid value f s) := by
  have hne : channel.capacity ≠ 1 := by omega
  have hcount := hinv.placed.enqueue_position
  rw [if_neg hne, hposition] at hcount
  subst hcount
  rw [Representable] at hfits
  have hfree : Free channel s := h.2.resolve_left (lt_irrefl _)
  have hnext : add64 s.log.count 1 = if channel.capacity = 1 then 0 else s.log.count + 1 := by
    rw [if_neg hne, add64_of_lt (by omega)]
  refine ⟨rfl, hinv.after_reserve pid value h.1.1.guard hfree hsize rfl hnext ?_ fun _ _ => rfl⟩
  rw [word_of, if_neg hne]
  -- the word of a free slot is the position that comes next
  exact (hinv.next_sequence hne).2.mpr hfree

theorem enqueue_loop_safe (hQ : ∀ s, Q s → Representable channel s)
    (hrefused : ∀ s, Q s → (Bounded channel s → ¬ Free channel s) → refused) (hcap : 1 < channel.capacity)
    {pick : Nat} (hsize : value.length = channel.element_size) :
    ∀ {attempts : List Bool} {position : Nat} {s : Memory}, Trying guarded pid position s →
      SafeWithin Q (slot_reliance guarded channel) pid
        (Ended.Post (Attempted guarded refused pid value) fun _ _ => False)
        (enqueue_loop channel pid value pick attempts position) s := by
  intro attempts
  induction attempts with
  | nil =>
    intro position s h
    unfold enqueue_loop
    apply load_sequence_safe hQ hrefused hcap h
    intro sequence s₁ h₁ hbehind _
    simp only
    split_ifs with hzero hsign
    · trivial
    · exact ⟨h₁.1, fun htrue => (by cases htrue), fun _ => hbehind hsign⟩
    · trivial
  | cons spurious attempts ih =>
    intro position s h
    unfold enqueue_loop
    apply load_sequence_safe hQ hrefused hcap h
    intro sequence s₁ h₁ hbehind hmatched
    simp only
    split_ifs with hzero hsign
    · apply SafeWithin.act (matched_stable guarded channel pid position) (hmatched hzero)
      intro s₂ h₂ hinv₂ hQ₂ _ _
      have hinv₂ : Inv guarded channel s₂ := hinv₂
      by_cases hexchanged : (!spurious && s₂.ring.enqueue_position == position) = true
      · simp only [hexchanged, if_true]
        simp only [Bool.and_eq_true, beq_iff_eq] at hexchanged
        obtain ⟨rfl, hinv', hothers⟩ := h₂.reserve hinv₂ hcap (hQ s₂ hQ₂) hsize hexchanged.2
        refine ⟨hinv', hothers, ?_⟩
        have hword : add64 s₂.log.count 1 = word_of channel.capacity s₂.log.count .published := by
          have hfits := hQ s₂ hQ₂
          rw [Representable] at hfits
          rw [word_of, if_neg (by omega), add64_of_lt (by omega)]
        exact (fill_slot_safe hword hsize h₂.1.1.reserved).mono fun ended _ => filled_attempted ended
      · simp only [hexchanged, Bool.false_eq_true, if_false]
        refine ⟨hinv₂, fun other _ => Rely.refl guarded channel other s₂, ih ⟨h₂.1.1, ?_⟩⟩
        rw [hinv₂.placed.enqueue_position, if_neg (by omega)]
    · exact ⟨h₁.1, fun htrue => (by cases htrue), fun _ => hbehind hsign⟩
    · apply SafeWithin.load (Rely.refl guarded channel) (registered_stable guarded channel pid) h₁.1
      intro s₂ h₂ hinv₂ _
      have hinv₂ : Inv guarded channel s₂ := hinv₂
      apply ih ⟨h₂, _⟩
      rw [hinv₂.placed.enqueue_position, if_neg (by omega)]

/-- The state of a single slot, and the exchange that claims it. -/
theorem Inv.single_state (h : Inv guarded channel s) (hcap : channel.capacity = 1) :
    s.ring.sequence 0 = 0 ↔ Free channel s := by
  rw [Free, released, hcap, Bool.or_eq_true, decide_eq_true_eq, decide_eq_true_eq]
  by_cases hzero : s.log.count = 0
  · rw [h.placed.unused 0 (by omega) (by omega)]
    exact iff_of_true rfl (.inl (by omega))
  · have hword := h.placed.used (s.log.count - 1) (by omega) (by omega)
    have hoccupied := h.ordered.occupied (s.log.count - 1) (by omega)
    rw [hcap, Nat.mod_one] at hword
    rw [hword]
    cases hphase : s.log.phase (s.log.count - 1) with
    | vacant => exact absurd hphase hoccupied
    | consumed => exact iff_of_true rfl (.inr rfl)
    | reserved _ | published | claimed _ =>
      refine iff_of_false (by simp only [word_of, if_true]; omega) ?_
      rintro (hlt | hconsumed)
      · omega
      · cases hconsumed

/-- `try_enqueue` sees whether the slot of the next position is free. -/
theorem Inv.slot_free_iff (h : Inv guarded channel s) : SlotFree channel s ↔ Free channel s := by
  rw [SlotFree]
  split_ifs with hcap
  · exact h.single_state hcap
  · rw [h.placed.enqueue_position, if_neg hcap]
    exact (h.next_sequence hcap).2

/-- A try to send. One that gives up knows that the slot of the next position
    was not free, unless the difference of the words has overflowed. -/
theorem try_enqueue_attempted (hQ : ∀ s, Q s → Representable channel s)
    (hrefused : ∀ s, Q s → (Bounded channel s → ¬ Free channel s) → refused) (chances : SlotChances)
    (hsize : value.length = channel.element_size) (h : Registered guarded pid s) :
    SafeWithin Q (slot_reliance guarded channel) pid
      (Ended.Post (Attempted guarded refused pid value) fun _ _ => False)
      (try_enqueue channel pid value chances) s := by
  have hstable := registered_stable guarded channel pid
  have hpos := channel.pos
  unfold try_enqueue
  split_ifs with hcap
  · apply SafeWithin.act hstable h
    intro s₁ h₁ hinv₁ hQ₁ _ _
    have hinv₁ : Inv guarded channel s₁ := hinv₁
    have hstate := hinv₁.single_state hcap
    by_cases hempty : s₁.ring.sequence 0 = 0
    · simp only [hempty, beq_self_eq_true, if_true]
      let f (r : SlotRing) := { r with sequence := Function.update r.sequence 0 1 }
      obtain ⟨hinv₂, hothers⟩ := hinv₁.after_reserve pid value (f := f) h₁.guard (hstate.mp hempty) hsize rfl
        (by rw [hinv₁.placed.enqueue_position, if_pos hcap, if_pos hcap])
        (by rw [hcap, Nat.mod_one, Function.update_self, word_of, if_pos rfl])
        fun x hx => Function.update_of_ne (by rwa [hcap, Nat.mod_one] at hx) _ _
      refine ⟨hinv₂, hothers, ?_⟩
      have hfill : SafeWithin Q (slot_reliance guarded channel) pid
          (Ended.Post (fun enqueued s' => enqueued = true ∧ Registered guarded pid s' ∧ Sent pid value s')
            fun _ _ => False)
          (fill_slot pid s₁.log.count (s₁.log.count % channel.capacity) 2 value chances.pick)
          (reserve pid value f s₁) :=
        fill_slot_safe (by rw [word_of, if_pos hcap]) hsize h₁.reserved
      rw [hcap, Nat.mod_one] at hfill
      exact hfill.mono fun ended _ => filled_attempted ended
    · simp only [beq_iff_eq, hempty, if_false]
      obtain ⟨hinv₂, hothers⟩ := hinv₁.after_refuse pid
      exact ⟨hinv₂, fun other _ => hothers other, ⟨h₁.idle, h₁.guard⟩, fun htrue => (by cases htrue),
        fun _ => hrefused s₁ hQ₁ fun _ => mt hstate.mpr hempty⟩
  · apply SafeWithin.load (Rely.refl guarded channel) hstable h
    intro s₁ h₁ hinv₁ _
    have hinv₁ : Inv guarded channel s₁ := hinv₁
    apply enqueue_loop_safe hQ hrefused (by omega) hsize ⟨h₁, _⟩
    rw [hinv₁.placed.enqueue_position, if_neg hcap]

theorem try_enqueue_safe (hQ : ∀ s, Q s → Bounded channel s) (chances : SlotChances)
    (hsize : value.length = channel.element_size) (h : Registered guarded pid s) :
    SafeWithin Q (slot_reliance guarded channel) pid
      (Ended.Post (Tried guarded Q channel pid value) fun _ _ => False)
      (try_enqueue channel pid value chances) s :=
  try_enqueue_attempted (fun s hs => (hQ s hs).representable) (fun s hs hfree => ⟨s, hs, hfree (hQ s hs)⟩)
    chances hsize h

end

end shmchan.channel
