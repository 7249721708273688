import Shmchan.Managed.Memory

namespace shmchan.managed

/-- Changing a predicate at one index below `n` moves its count by the
    difference at that index. -/
theorem countP_range_update {p q : Nat → Bool} {n i : Nat} (hi : i < n)
    (hsame : ∀ j, j ≠ i → q j = p j) :
    (List.range n).countP q + (p i).toNat = (List.range n).countP p + (q i).toNat := by
  have hbelow (k : Nat) (hk : k ≤ i) : (List.range k).countP q = (List.range k).countP p := by
    apply List.countP_congr
    intro j hj
    rw [hsame j (by have := List.mem_range.mp hj; omega)]
  induction n with
  | zero => omega
  | succ n ih =>
    simp only [List.range_succ, List.countP_append, List.countP_singleton]
    by_cases heq : i = n
    · subst heq
      rw [hbelow i (by omega)]
      cases p i <;> cases q i <;> simp
    · rw [hsame n (by omega)]
      have := ih (by omega)
      omega

namespace Memory

variable {m m' : Memory} {i n : Nat} {state : ManagedSlotState}

theorem mem_slots_in :
    i ∈ m.slots_in state ↔ i < m.header.message_capacity ∧ (m.slots i).state = state.word := by
  simp [slots_in]

theorem slots_in_nodup : (m.slots_in state).Nodup := List.nodup_range.filter _

theorem slots_in_length :
    (m.slots_in state).length =
      (List.range m.header.message_capacity).countP fun i => (m.slots i).state = state.word := by
  rw [slots_in, List.countP_eq_length_filter]

theorem slots_in_congr (hcapacity : m'.header.message_capacity = m.header.message_capacity)
    (hstate : ∀ i, i < m.header.message_capacity → (m'.slots i).state = (m.slots i).state) :
    m'.slots_in state = m.slots_in state := by
  rw [slots_in, slots_in, hcapacity]
  apply List.filter_congr
  intro i hi
  rw [hstate i (List.mem_range.mp hi)]

theorem mem_queue {x : Message} :
    x ∈ m.queue ↔ ∃ i, i < m.header.message_capacity ∧
      (m.slots i).state = ManagedSlotState.ready.word ∧ m.message i = x := by
  simp only [queue, List.mem_insertionSort, List.mem_map, mem_slots_in, and_assoc]

theorem queue_length : m.queue.length = (m.slots_in .ready).length := by
  rw [queue, List.length_insertionSort, List.length_map]

theorem queue_pairwise_le : m.queue.Pairwise fun a b => a.1 ≤ b.1 := by
  have : Std.Total (fun a b : Message => a.1 ≤ b.1) := ⟨fun a b => Nat.le_total a.1 b.1⟩
  have : IsTrans Message (fun a b : Message => a.1 ≤ b.1) := ⟨fun a b c => Nat.le_trans⟩
  exact List.pairwise_insertionSort _ _

/-- The READY slots carry different sequences. -/
def Distinct (m : Memory) : Prop :=
  ∀ i j, i < m.header.message_capacity → j < m.header.message_capacity →
    (m.slots i).state = ManagedSlotState.ready.word →
    (m.slots j).state = ManagedSlotState.ready.word →
    (m.slots i).sequence = (m.slots j).sequence → i = j

theorem Distinct.queue_nodup (h : m.Distinct) : m.queue.Nodup := by
  rw [queue, (List.perm_insertionSort _ _).nodup_iff]
  apply List.Nodup.map_on _ slots_in_nodup
  intro i hi j hj heq
  obtain ⟨hi, hri⟩ := mem_slots_in.mp hi
  obtain ⟨hj, hrj⟩ := mem_slots_in.mp hj
  exact h i j hi hj hri hrj (congrArg Prod.fst heq)

theorem Distinct.queue_sorted (h : m.Distinct) : m.queue.Pairwise fun a b => a.1 < b.1 := by
  refine (queue_pairwise_le.and h.queue_nodup).imp_of_mem ?_
  intro a b ha hb hab
  obtain ⟨i, hi, hri, rfl⟩ := mem_queue.mp ha
  obtain ⟨j, hj, hrj, rfl⟩ := mem_queue.mp hb
  refine lt_of_le_of_ne hab.1 fun heq => hab.2 ?_
  rw [h i j hi hj hri hrj heq]

/-- A strictly increasing list with the READY messages as its members is the
    queue. -/
theorem Distinct.queue_eq (h : m.Distinct) {q : List Message}
    (hsorted : q.Pairwise fun a b => a.1 < b.1) (hmem : ∀ x, x ∈ q ↔ x ∈ m.queue) : m.queue = q := by
  have hperm : m.queue.Perm q :=
    (List.perm_ext_iff_of_nodup h.queue_nodup
      (hsorted.imp fun {a b} hlt heq => by subst heq; omega)).mpr fun x => (hmem x).symm
  refine List.Perm.eq_of_pairwise ?_ h.queue_sorted hsorted hperm
  intro a b _ _ hab hba
  omega

/-- The queue only depends on the READY slots and their bytes. -/
theorem queue_congr (hcapacity : m'.header.message_capacity = m.header.message_capacity)
    (hready : ∀ i, i < m.header.message_capacity →
      ((m'.slots i).state = ManagedSlotState.ready.word ↔
        (m.slots i).state = ManagedSlotState.ready.word))
    (hmessage : ∀ i, i < m.header.message_capacity →
      (m.slots i).state = ManagedSlotState.ready.word → m'.message i = m.message i) :
    m'.queue = m.queue := by
  have hslots : m'.slots_in .ready = m.slots_in .ready := by
    rw [slots_in, slots_in, hcapacity]
    apply List.filter_congr
    intro i hi
    simpa using hready i (List.mem_range.mp hi)
  rw [queue, queue, hslots]
  congr 1
  apply List.map_congr_left
  intro i hi
  obtain ⟨hi, hri⟩ := mem_slots_in.mp hi
  exact hmessage i hi hri

theorem queue_set_header {f : ManagedSharedHeader → ManagedSharedHeader}
    (hcapacity : (f m.header).message_capacity = m.header.message_capacity)
    (hstride : (f m.header).payload_stride = m.header.payload_stride) :
    (m.set_header f).queue = m.queue :=
  queue_congr hcapacity (fun _ _ => Iff.rfl) fun _ _ _ => by
    simp only [message, payload_bytes, payload_base, set_header_slots, set_header_payloads,
      set_header_header, hstride]

/-- A slot that becomes READY with a sequence above all others is queued last. -/
theorem Distinct.queue_publish (h : m.Distinct) (hi : i < m.header.message_capacity)
    (hcapacity : m'.header.message_capacity = m.header.message_capacity)
    (hnot : (m.slots i).state ≠ ManagedSlotState.ready.word)
    (hready : (m'.slots i).state = ManagedSlotState.ready.word)
    (hother : ∀ j, j < m.header.message_capacity → j ≠ i →
      (m'.slots j).state = (m.slots j).state ∧ m'.message j = m.message j)
    (habove : ∀ x ∈ m.queue, x.1 < (m'.slots i).sequence) :
    m'.Distinct ∧ m'.queue = m.queue ++ [m'.message i] := by
  have hold (j : Nat) (hj : j < m.header.message_capacity)
      (hrj : (m'.slots j).state = ManagedSlotState.ready.word) (hne : j ≠ i) :
      (m.slots j).state = ManagedSlotState.ready.word ∧
        (m'.slots j).sequence = (m.slots j).sequence :=
    ⟨(hother j hj hne).1 ▸ hrj, congrArg Prod.fst (hother j hj hne).2⟩
  have hless (j : Nat) (hj : j < m.header.message_capacity)
      (hrj : (m'.slots j).state = ManagedSlotState.ready.word) (hne : j ≠ i) :
      (m'.slots j).sequence < (m'.slots i).sequence := by
    obtain ⟨hrj', hseq⟩ := hold j hj hrj hne
    rw [hseq]
    exact habove _ (mem_queue.mpr ⟨j, hj, hrj', rfl⟩)
  have hdistinct : m'.Distinct := by
    intro j k hj hk hrj hrk heq
    rw [hcapacity] at hj hk
    by_cases hji : j = i
    · by_cases hki : k = i
      · omega
      · have := hless k hk hrk hki
        subst hji
        omega
    · by_cases hki : k = i
      · have := hless j hj hrj hji
        subst hki
        omega
      · obtain ⟨hrj', hsj⟩ := hold j hj hrj hji
        obtain ⟨hrk', hsk⟩ := hold k hk hrk hki
        exact h j k hj hk hrj' hrk' (by omega)
  refine ⟨hdistinct, hdistinct.queue_eq ?_ fun x => ?_⟩
  · refine List.pairwise_append.mpr ⟨h.queue_sorted, List.pairwise_singleton _ _, ?_⟩
    intro x hx y hy
    rw [List.mem_singleton] at hy
    subst hy
    exact habove x hx
  · rw [List.mem_append, List.mem_singleton, mem_queue, mem_queue, hcapacity]
    constructor
    · rintro (⟨j, hj, hrj, rfl⟩ | rfl)
      · have hne : j ≠ i := fun heq => hnot (heq ▸ hrj)
        exact ⟨j, hj, (hother j hj hne).1.trans hrj, (hother j hj hne).2⟩
      · exact ⟨i, hi, hready, rfl⟩
    · rintro ⟨j, hj, hrj, rfl⟩
      by_cases hne : j = i
      · exact .inr (by rw [hne])
      · exact .inl ⟨j, hj, (hold j hj hrj hne).1, ((hother j hj hne).2).symm⟩

/-- A READY slot with the least sequence holds the head of the queue. -/
theorem Distinct.queue_head (h : m.Distinct) (hi : i < m.header.message_capacity)
    (hready : (m.slots i).state = ManagedSlotState.ready.word)
    (hleast : ∀ j, j < m.header.message_capacity →
      (m.slots j).state = ManagedSlotState.ready.word → (m.slots i).sequence ≤ (m.slots j).sequence) :
    m.queue = m.message i :: m.queue.tail := by
  have hmem : m.message i ∈ m.queue := mem_queue.mpr ⟨i, hi, hready, rfl⟩
  cases hqueue : m.queue with
  | nil => simp [hqueue] at hmem
  | cons x rest =>
    have hsorted := h.queue_sorted
    rw [hqueue] at hmem hsorted
    rcases List.mem_cons.mp hmem with heq | hrest
    · rw [heq, List.tail_cons]
    · have hlt := (List.pairwise_cons.mp hsorted).1 _ hrest
      have hx : x ∈ m.queue := by simp [hqueue]
      obtain ⟨j, hj, hrj, rfl⟩ := mem_queue.mp hx
      have := hleast j hj hrj
      simp only [message] at hlt
      omega

/-- The messages behind the head are those of the other READY slots. -/
theorem Distinct.mem_queue_tail (h : m.Distinct) (hi : i < m.header.message_capacity)
    (hready : (m.slots i).state = ManagedSlotState.ready.word)
    (hhead : m.queue = m.message i :: m.queue.tail) {x : Message} :
    x ∈ m.queue.tail ↔ ∃ j, j < m.header.message_capacity ∧ j ≠ i ∧
      (m.slots j).state = ManagedSlotState.ready.word ∧ m.message j = x := by
  have hsorted := h.queue_sorted
  rw [hhead] at hsorted
  have hbelow := (List.pairwise_cons.mp hsorted).1
  constructor
  · intro hx
    obtain ⟨j, hj, hrj, rfl⟩ := mem_queue.mp (List.mem_of_mem_tail hx)
    refine ⟨j, hj, ?_, hrj, rfl⟩
    rintro rfl
    have := hbelow _ hx
    omega
  · rintro ⟨j, hj, hne, hrj, rfl⟩
    have hqueue : m.message j ∈ m.queue := mem_queue.mpr ⟨j, hj, hrj, rfl⟩
    rw [hhead] at hqueue
    rcases List.mem_cons.mp hqueue with heq | hrest
    · exact absurd (h j i hj hi hrj hready (congrArg Prod.fst heq)) hne
    · exact hrest

/-- Freeing the slot that holds the head of the queue removes the head. -/
theorem Distinct.queue_release (h : m.Distinct) (hi : i < m.header.message_capacity)
    (hcapacity : m'.header.message_capacity = m.header.message_capacity)
    (hready : (m.slots i).state = ManagedSlotState.ready.word)
    (hhead : m.queue = m.message i :: m.queue.tail)
    (hfree : (m'.slots i).state ≠ ManagedSlotState.ready.word)
    (hother : ∀ j, j < m.header.message_capacity → j ≠ i →
      (m'.slots j).state = (m.slots j).state ∧ m'.message j = m.message j) :
    m'.Distinct ∧ m'.queue = m.queue.tail := by
  have hold (j : Nat) (hj : j < m.header.message_capacity)
      (hrj : (m'.slots j).state = ManagedSlotState.ready.word) :
      j ≠ i ∧ (m.slots j).state = ManagedSlotState.ready.word ∧ m'.message j = m.message j := by
    have hne : j ≠ i := fun heq => hfree (heq ▸ hrj)
    exact ⟨hne, (hother j hj hne).1 ▸ hrj, (hother j hj hne).2⟩
  have hdistinct : m'.Distinct := by
    intro j k hj hk hrj hrk heq
    rw [hcapacity] at hj hk
    obtain ⟨_, hrj', hmj⟩ := hold j hj hrj
    obtain ⟨_, hrk', hmk⟩ := hold k hk hrk
    have hsj := congrArg Prod.fst hmj
    have hsk := congrArg Prod.fst hmk
    simp only [message] at hsj hsk
    exact h j k hj hk hrj' hrk' (by omega)
  have hsorted := h.queue_sorted
  rw [hhead] at hsorted
  refine ⟨hdistinct, hdistinct.queue_eq (List.pairwise_cons.mp hsorted).2 fun x => ?_⟩
  rw [h.mem_queue_tail hi hready hhead, mem_queue, hcapacity]
  constructor
  · rintro ⟨j, hj, hne, hrj, rfl⟩
    exact ⟨j, hj, (hother j hj hne).1.trans hrj, (hother j hj hne).2⟩
  · rintro ⟨j, hj, hrj, rfl⟩
    obtain ⟨hne, hrj', hmj⟩ := hold j hj hrj
    exact ⟨j, hj, hne, hrj', hmj.symm⟩

/-- Changing the bytes of the slot that holds the head of the queue changes
    the head only. -/
theorem Distinct.queue_alter (h : m.Distinct) (hi : i < m.header.message_capacity)
    (hcapacity : m'.header.message_capacity = m.header.message_capacity)
    (hready : (m.slots i).state = ManagedSlotState.ready.word)
    (hhead : m.queue = m.message i :: m.queue.tail) (hdistinct : m'.Distinct)
    (hready' : (m'.slots i).state = ManagedSlotState.ready.word)
    (hsequence : (m'.slots i).sequence = (m.slots i).sequence)
    (hother : ∀ j, j < m.header.message_capacity → j ≠ i →
      (m'.slots j).state = (m.slots j).state ∧ m'.message j = m.message j) :
    m'.queue = m'.message i :: m.queue.tail := by
  have hsorted := h.queue_sorted
  rw [hhead] at hsorted
  obtain ⟨hbelow, htail⟩ := List.pairwise_cons.mp hsorted
  refine hdistinct.queue_eq (List.pairwise_cons.mpr ⟨fun x hx => ?_, htail⟩) fun x => ?_
  · have hlt := hbelow x hx
    simp only [message] at hlt ⊢
    omega
  · rw [List.mem_cons, h.mem_queue_tail hi hready hhead, mem_queue, hcapacity]
    constructor
    · rintro (rfl | ⟨j, hj, hne, hrj, rfl⟩)
      · exact ⟨i, hi, hready', rfl⟩
      · exact ⟨j, hj, (hother j hj hne).1.trans hrj, (hother j hj hne).2⟩
    · rintro ⟨j, hj, hrj, rfl⟩
      by_cases hne : j = i
      · exact .inl (by rw [hne])
      · exact .inr ⟨j, hj, hne, (hother j hj hne).1 ▸ hrj, ((hother j hj hne).2).symm⟩

end Memory

end shmchan.managed
