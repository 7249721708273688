import Mathlib.Order.Interval.Set.Disjoint
import Shmchan.Managed.Layout

namespace shmchan.managed

/-- One operation on machine words: the word it yields, and its result on
    unbounded integers. -/
structure WordOperation where
  word : Nat
  exact : Int
  deriving DecidableEq, Repr

def WordOperation.wraps (op : WordOperation) : Prop := (op.word : Int) ≠ op.exact

instance (op : WordOperation) : Decidable op.wraps := inferInstanceAs (Decidable (_ ≠ _))

def added (a b : Nat) : WordOperation := ⟨add64 a b, a + b⟩

def subtracted (a b : Nat) : WordOperation := ⟨sub64 a b, (a : Int) - b⟩

def multiplied (a b : Nat) : WordOperation := ⟨a * b % 2 ^ 64, a * b⟩

/-- The two operations of `managed_align_up` before its mask, and the alignment
    as a whole. -/
def align_up_operations (value alignment : Nat) : List WordOperation :=
  [added value alignment, subtracted (add64 value alignment) 1,
    ⟨managed_align_up value alignment, ((value + alignment - 1) / alignment * alignment : Nat)⟩]

/-- `checked_managed_layout` together with the operations it executes. -/
def recorded_managed_layout (capacity max_message_size : Nat) :
    List WordOperation × Except Exception ManagedLayout :=
  if capacity = 0 ∨ max_message_size = 0 then
    ([], .error (.invalid_argument
      "shmchan: managed channel capacity and max message size must be positive"))
  else if max_message_size > 2 ^ 32 - 1 then
    ([], .error (.length_error "shmchan: managed message size exceeds uint32_t"))
  else if max_message_size > 2 ^ 64 - 1 - (managed_cache_line - 1) then
    ([], .error (.length_error "shmchan: managed payload alignment overflows size_t"))
  else
    let payload_stride := managed_align_up max_message_size managed_cache_line
    let slots_offset := managed_align_up sizeof_managed_shared_header managed_cache_line
    let alignments := align_up_operations max_message_size managed_cache_line ++
      align_up_operations sizeof_managed_shared_header managed_cache_line ++
        [subtracted (2 ^ 64 - 1) slots_offset]
    if capacity > (2 ^ 64 - 1 - slots_offset) / sizeof_managed_message_slot then
      (alignments, .error (.length_error "shmchan: managed descriptor area is too large"))
    else
      let descriptors := capacity * sizeof_managed_message_slot % 2 ^ 64
      let payload_offset := managed_align_up (add64 slots_offset descriptors) managed_cache_line
      let offsets := alignments ++ [multiplied capacity sizeof_managed_message_slot,
          added slots_offset descriptors] ++
        align_up_operations (add64 slots_offset descriptors) managed_cache_line ++
          [subtracted (2 ^ 64 - 1) payload_offset]
      if capacity > (2 ^ 64 - 1 - payload_offset) / payload_stride then
        (offsets, .error (.length_error "shmchan: managed payload area is too large"))
      else
        let areas := capacity * payload_stride % 2 ^ 64
        let mapping_size := add64 payload_offset areas
        let sizes := offsets ++ [multiplied capacity payload_stride, added payload_offset areas]
        if mapping_size > 2 ^ 63 - 1 then
          (sizes, .error (.length_error "shmchan: managed mapping size overflows off_t"))
        else
          (sizes, .ok { mapping_size, slots_offset, payload_offset, payload_stride })

/-- Recording changes nothing. -/
theorem recorded_managed_layout_result (capacity max_message_size : Nat) :
    (recorded_managed_layout capacity max_message_size).2 =
      checked_managed_layout capacity max_message_size := by
  simp only [recorded_managed_layout, checked_managed_layout, apply_ite Prod.snd]

/-- The size of a mapping on unbounded integers. -/
def exact_total (capacity max_message_size : Nat) : Nat :=
  sizeof_managed_shared_header + capacity * sizeof_managed_message_slot +
    capacity * ((max_message_size + 63) / 64 * 64)

section

variable {capacity max_message_size : Nat} {layout : ManagedLayout}

theorem align_up_header : managed_align_up 448 managed_cache_line = 448 :=
  managed_align_up_cache_line (by norm_num)

/-- The end of the descriptors is aligned, also at the end of the word. -/
theorem align_up_descriptors (h : capacity * 64 ≤ 2 ^ 64 - 512) :
    managed_align_up (448 + capacity * 64) managed_cache_line = 448 + capacity * 64 := by
  rw [managed_align_up_cache_line (by omega)]
  omega

/-- Exactly the options whose exact total is an `off_t` are accepted. -/
theorem checked_managed_layout_ok_iff :
    (∃ layout, checked_managed_layout capacity max_message_size = .ok layout) ↔
      0 < capacity ∧ 0 < max_message_size ∧ max_message_size < 2 ^ 32 ∧
        exact_total capacity max_message_size < 2 ^ 63 := by
  constructor
  · rintro ⟨layout, hok⟩
    obtain ⟨hcapacity, hmax, hmax_lt, _, hpayload, hstride, hmapping, hlt⟩ :=
      checked_managed_layout_spec hok
    refine ⟨hcapacity, hmax, hmax_lt, ?_⟩
    rw [hmapping, hpayload, hstride] at hlt
    exact hlt
  · rintro ⟨hcapacity, hmax, hmax_lt, htotal⟩
    unfold exact_total sizeof_managed_shared_header sizeof_managed_message_slot at htotal
    have hstride : managed_align_up max_message_size managed_cache_line =
        (max_message_size + 63) / 64 * 64 := managed_align_up_cache_line (by omega)
    have hpayload := @align_up_descriptors capacity (by omega)
    have hproduct : capacity * 64 % 2 ^ 64 = capacity * 64 := Nat.mod_eq_of_lt (by omega)
    have hdescriptors : capacity ≤ (2 ^ 64 - 1 - 448) / 64 :=
      (Nat.le_div_iff_mul_le (by omega)).mpr (by omega)
    have hareas : capacity ≤
        (2 ^ 64 - 1 - (448 + capacity * 64)) / ((max_message_size + 63) / 64 * 64) :=
      (Nat.le_div_iff_mul_le (by omega)).mpr (by omega)
    unfold checked_managed_layout
    simp only [hstride, sizeof_managed_shared_header, align_up_header, sizeof_managed_message_slot,
      hproduct]
    rw [if_neg (by omega), if_neg (by omega), if_neg (by rw [managed_cache_line]; omega),
      if_neg (by omega), add64_of_lt (by omega), hpayload, if_neg (by omega),
      Nat.mod_eq_of_lt (by omega), add64_of_lt (by omega), if_neg (by omega)]
    exact ⟨_, rfl⟩

/-- `checked_managed_layout` throws exactly for these options. -/
theorem checked_managed_layout_error_iff :
    (∃ error, checked_managed_layout capacity max_message_size = .error error) ↔
      capacity = 0 ∨ max_message_size = 0 ∨ max_message_size > 2 ^ 32 - 1 ∨
        exact_total capacity max_message_size > 2 ^ 63 - 1 := by
  have hok := @checked_managed_layout_ok_iff capacity max_message_size
  cases hresult : checked_managed_layout capacity max_message_size with
  | error error =>
    rw [hresult] at hok
    refine ⟨fun _ => ?_, fun _ => ⟨error, rfl⟩⟩
    by_contra hvalid
    obtain ⟨_, habsurd⟩ := hok.mpr (by omega)
    cases habsurd
  | ok layout =>
    rw [hresult] at hok
    have hvalid := hok.mp ⟨layout, rfl⟩
    refine ⟨fun ⟨_, habsurd⟩ => ?_, fun _ => by omega⟩
    cases habsurd

theorem added_exact {a b : Nat} (h : a + b < 2 ^ 64) : ¬ (added a b).wraps := by
  simp [WordOperation.wraps, added, add64_of_lt h]

theorem subtracted_exact {a b : Nat} (hle : b ≤ a) (ha : a < 2 ^ 64) : ¬ (subtracted a b).wraps := by
  simp [WordOperation.wraps, subtracted, sub64_of_le hle ha, Nat.cast_sub hle]

theorem multiplied_exact {a b : Nat} (h : a * b < 2 ^ 64) : ¬ (multiplied a b).wraps := by
  rw [WordOperation.wraps, not_not, multiplied, Nat.mod_eq_of_lt h]
  push_cast
  rfl

theorem align_up_operations_exact {value : Nat} (h : value + 64 < 2 ^ 64) :
    ∀ op ∈ align_up_operations value managed_cache_line, ¬ op.wraps := by
  simp only [align_up_operations, List.mem_cons, List.not_mem_nil, or_false, managed_cache_line]
  rintro op (rfl | rfl | rfl)
  · exact added_exact h
  · rw [add64_of_lt h]
    exact subtracted_exact (by omega) h
  · rw [WordOperation.wraps, not_not, Nat.cast_inj]
    exact managed_align_up_cache_line h.le

/-- The one alignment at the end of the word: its sum wraps, its result does not. -/
theorem align_up_operations_last :
    ∀ op ∈ align_up_operations (2 ^ 64 - 64) managed_cache_line,
      op.wraps → op = added (2 ^ 64 - 64) 64 ∨ op = subtracted 0 1 := by
  decide

/-- Every addition, subtraction, multiplication and alignment is exact, for all
    options, except that on the way to one refusal the sum inside the alignment
    of `payload_offset` wraps through zero and back. -/
theorem recorded_managed_layout_wraps {op : WordOperation}
    (hmem : op ∈ (recorded_managed_layout capacity max_message_size).1) (hwraps : op.wraps) :
    capacity = 2 ^ 58 - 8 ∧ (op = added (2 ^ 64 - 64) 64 ∨ op = subtracted 0 1) := by
  unfold recorded_managed_layout at hmem
  split at hmem
  · cases hmem
  next hpositive =>
  split at hmem
  · cases hmem
  next hsmall =>
  split at hmem
  · cases hmem
  simp only [not_or] at hpositive
  have hstride : managed_align_up max_message_size managed_cache_line =
      (max_message_size + 63) / 64 * 64 := managed_align_up_cache_line (by omega)
  simp only [hstride, sizeof_managed_shared_header, align_up_header, sizeof_managed_message_slot]
    at hmem
  -- before the first guard
  have halignments : ∀ op ∈ align_up_operations max_message_size managed_cache_line ++
      align_up_operations 448 managed_cache_line ++ [subtracted (2 ^ 64 - 1) 448], ¬ op.wraps := by
    simp only [List.mem_append, List.mem_singleton]
    rintro op ((hop | hop) | rfl)
    · exact align_up_operations_exact (by omega) op hop
    · exact align_up_operations_exact (by omega) op hop
    · exact subtracted_exact (by omega) (by omega)
  split at hmem
  · exact absurd hwraps (halignments op hmem)
  next hdescriptors =>
  have hcapacity : capacity * 64 ≤ 2 ^ 64 - 1 - 448 :=
    (Nat.le_div_iff_mul_le (by omega)).mp (by omega)
  have hpayload := @align_up_descriptors capacity (by omega)
  rw [Nat.mod_eq_of_lt (show capacity * 64 < 2 ^ 64 by omega), add64_of_lt (by omega), hpayload] at hmem
  -- between the two guards: only here can the alignment be the last one of the word
  have hoffsets : ∀ op ∈ (align_up_operations max_message_size managed_cache_line ++
      align_up_operations 448 managed_cache_line ++ [subtracted (2 ^ 64 - 1) 448]) ++
        [multiplied capacity 64, added 448 (capacity * 64)] ++
          align_up_operations (448 + capacity * 64) managed_cache_line ++
            [subtracted (2 ^ 64 - 1) (448 + capacity * 64)],
      op.wraps → capacity = 2 ^ 58 - 8 ∧ (op = added (2 ^ 64 - 64) 64 ∨ op = subtracted 0 1) := by
    intro op hop hwraps
    rw [List.mem_append, List.mem_append, List.mem_append] at hop
    rcases hop with ((hop | hop) | hop) | hop
    · exact absurd hwraps (halignments op hop)
    · simp only [List.mem_cons, List.not_mem_nil, or_false] at hop
      rcases hop with rfl | rfl
      · exact absurd hwraps (multiplied_exact (by omega))
      · exact absurd hwraps (added_exact (by omega))
    · by_cases hlast : 448 + capacity * 64 + 64 < 2 ^ 64
      · exact absurd hwraps (align_up_operations_exact hlast op hop)
      · rw [show 448 + capacity * 64 = 2 ^ 64 - 64 by omega] at hop
        exact ⟨by omega, align_up_operations_last op hop hwraps⟩
    · rw [List.mem_singleton] at hop
      subst hop
      exact absurd hwraps (subtracted_exact (by omega) (by omega))
  split at hmem
  · exact hoffsets op hmem hwraps
  next hareas =>
  have hfits : capacity * ((max_message_size + 63) / 64 * 64) ≤ 2 ^ 64 - 1 - (448 + capacity * 64) :=
    (Nat.le_div_iff_mul_le (by omega)).mp (by omega)
  rw [Nat.mod_eq_of_lt (show capacity * ((max_message_size + 63) / 64 * 64) < 2 ^ 64 by omega)] at hmem
  have hsizes : op ∈ ((align_up_operations max_message_size managed_cache_line ++
      align_up_operations 448 managed_cache_line ++ [subtracted (2 ^ 64 - 1) 448]) ++
        [multiplied capacity 64, added 448 (capacity * 64)] ++
          align_up_operations (448 + capacity * 64) managed_cache_line ++
            [subtracted (2 ^ 64 - 1) (448 + capacity * 64)]) ++
        [multiplied capacity ((max_message_size + 63) / 64 * 64),
          added (448 + capacity * 64) (capacity * ((max_message_size + 63) / 64 * 64))] := by
    split at hmem <;> exact hmem
  rcases List.mem_append.mp hsizes with hop | hop
  · exact hoffsets op hop hwraps
  · simp only [List.mem_cons, List.not_mem_nil, or_false] at hop
    rcases hop with rfl | rfl
    · exact absurd hwraps (multiplied_exact (by omega))
    · exact absurd hwraps (added_exact (by omega))

/-- The parts of a mapping, as the code addresses them. -/
inductive Area where
  | header
  | descriptor (index : Nat)
  | payload (index : Nat)
  deriving DecidableEq, Repr

/-- Offset of the first byte of a part. -/
def Area.start (layout : ManagedLayout) : Area → Nat
  | header => 0
  | descriptor index => layout.slots_offset + index * sizeof_managed_message_slot
  | payload index => layout.payload_offset + index * layout.payload_stride

/-- Number of bytes of a part. -/
def Area.length (max_message_size : Nat) : Area → Nat
  | header => sizeof_managed_shared_header
  | descriptor _ => sizeof_managed_message_slot
  | payload _ => max_message_size

/-- Where a part lies. -/
def Area.bytes (layout : ManagedLayout) (max_message_size : Nat) (area : Area) : Set Nat :=
  Set.Ico (area.start layout) (area.start layout + area.length max_message_size)

/-- The parts that a channel has. -/
def Area.Used (capacity : Nat) : Area → Prop
  | header => True
  | descriptor index => index < capacity
  | payload index => index < capacity

/-- What `checked_managed_layout` returns: the exact total, everything aligned,
    and the parts disjoint and inside. -/
structure ExactLayout (capacity max_message_size : Nat) (layout : ManagedLayout) : Prop where
  total : layout.mapping_size = exact_total capacity max_message_size
  slots : managed_cache_line ∣ layout.slots_offset
  payloads : managed_cache_line ∣ layout.payload_offset
  stride : managed_cache_line ∣ layout.payload_stride
  inside : ∀ area : Area, area.Used capacity →
    area.bytes layout max_message_size ⊆ Set.Ico 0 layout.mapping_size
  disjoint : ∀ area other : Area, area.Used capacity → other.Used capacity → area ≠ other →
    Disjoint (area.bytes layout max_message_size) (other.bytes layout max_message_size)

theorem mul_add_le_mul {i n stride size : Nat} (hi : i < n) (hsize : size ≤ stride) :
    i * stride + size ≤ n * stride := by
  have hnext : (i + 1) * stride ≤ n * stride := Nat.mul_le_mul_right stride hi
  rw [Nat.add_mul, one_mul] at hnext
  omega

theorem checked_managed_layout_exact (hok : checked_managed_layout capacity max_message_size = .ok layout) :
    ExactLayout capacity max_message_size layout := by
  obtain ⟨_, _, _, hslots, hpayload, hstride, hmapping, _⟩ := checked_managed_layout_spec hok
  have hmax : max_message_size ≤ layout.payload_stride := by omega
  have hslot {i : Nat} (hi : i < capacity) : i * 64 + 64 ≤ capacity * 64 := mul_add_le_mul hi le_rfl
  have harea {i n : Nat} (hi : i < n) :
      i * layout.payload_stride + max_message_size ≤ n * layout.payload_stride :=
    mul_add_le_mul hi hmax
  constructor
  · rw [hmapping, hpayload, hstride]
    rfl
  · rw [hslots]
    decide
  · rw [hpayload, managed_cache_line]
    omega
  · rw [hstride]
    exact Nat.dvd_mul_left 64 _
  · intro area hused
    apply Set.Ico_subset_Ico (Nat.zero_le _)
    cases area with
    | header =>
      simp only [Area.start, Area.length, sizeof_managed_shared_header]
      omega
    | descriptor i =>
      have hi := hslot hused
      simp only [Area.start, Area.length, sizeof_managed_message_slot]
      omega
    | payload i =>
      have hi := harea hused
      simp only [Area.start, Area.length]
      omega
  · intro area other hused hother hne
    -- one of the two ends before the other starts
    apply Set.Ico_disjoint_Ico.mpr
    rcases area with _ | i | i <;> rcases other with _ | j | j <;>
      simp only [Area.start, Area.length, sizeof_managed_shared_header, sizeof_managed_message_slot,
        Area.Used, Area.descriptor.injEq, Area.payload.injEq, ne_eq, not_true_eq_false] at *
    · omega
    · omega
    · omega
    · omega
    · have hi := hslot hused
      omega
    · omega
    · have hj := hslot hother
      omega
    · rcases Nat.lt_or_gt_of_ne hne with hlt | hgt
      · have hi := harea hlt
        omega
      · have hj := harea hgt
        omega

end

end shmchan.managed
