import Shmchan.Channel.Mapping

open shmchan.endpoint

namespace shmchan.channel

/-- `sizeof(slot)` over the integers: whole cache lines. -/
def exact_slot_size (element_size : Nat) : Nat := (8 + element_size + 63) / 64 * 64

/-- Where a slot starts. -/
def slot_start (element_size index : Nat) : Nat := sizeof_shared_header + index * exact_slot_size element_size

/-- The bytes of the sequence word and the element of a slot. -/
def slot_bytes (element_size index : Nat) : Set Nat :=
  Set.Ico (slot_start element_size index) (slot_start element_size index + 8 + element_size)

/-- A mapping that holds its slots, behind the header and apart from each other. -/
structure HoldsSlots (element_size capacity size : Nat) : Prop where
  nonempty : 0 < capacity
  total : size = slot_start element_size capacity
  bounded : size < 2 ^ 63
  aligned : ∀ index, cache_line_size ∣ slot_start element_size index
  inside : ∀ index, index < capacity → slot_bytes element_size index ⊆ Set.Ico sizeof_shared_header size
  disjoint : ∀ index other, index ≠ other →
    Disjoint (slot_bytes element_size index) (slot_bytes element_size other)

section

variable {element : ElementType} {name : String} {element_size capacity size : Nat} {header : SharedHeader}
  {channel : Channel}

theorem slot_size_eq (hsize : element_size < 2 ^ 63) : slot_size element_size = exact_slot_size element_size :=
  align_up_two_pow (k := 6) (by norm_num) (by omega)

theorem le_exact_slot_size (element_size : Nat) : 8 + element_size ≤ exact_slot_size element_size := by
  unfold exact_slot_size
  omega

/-- The checks of `create` accept what fits into an `off_t`, computed exactly. -/
theorem checked_mapping_size_ok_iff (hsize : element_size < 2 ^ 63) :
    checked_mapping_size element_size capacity = .ok size ↔
      0 < capacity ∧ size = slot_start element_size capacity ∧ size < 2 ^ 63 := by
  have hslot := slot_size_eq hsize
  have hpos : 0 < exact_slot_size element_size := by
    have := le_exact_slot_size element_size
    omega
  have hmul : capacity ≤ capacity * exact_slot_size element_size := Nat.le_mul_of_pos_right capacity hpos
  have hoffset : slots_offset = sizeof_shared_header := rfl
  constructor
  · intro hok
    obtain ⟨htotal, _, hnonzero⟩ := checked_mapping_size_eq hok
    refine ⟨Nat.pos_of_ne_zero hnonzero, ?_, ?_⟩
    · rw [htotal, hslot, hoffset]
      rfl
    · unfold checked_mapping_size at hok
      split_ifs at hok with _ _ _
      simp only at hok
      split_ifs at hok with hlarge
      injection hok with heq
      omega
  · rintro ⟨hcapacity, rfl, hbounded⟩
    have hstart : slot_start element_size capacity = slots_offset + capacity * exact_slot_size element_size := rfl
    have hdiv : capacity ≤ (2 ^ 64 - 1 - slots_offset) / exact_slot_size element_size := by
      rw [Nat.le_div_iff_mul_le hpos]
      omega
    unfold checked_mapping_size
    rw [hslot, if_neg (by omega), if_neg (by omega), if_neg (by omega)]
    simp only
    rw [if_neg (by omega), hstart]

theorem holds_slots (hnonempty : 0 < capacity) (htotal : size = slot_start element_size capacity)
    (hbounded : size < 2 ^ 63) : HoldsSlots element_size capacity size := by
  have hlength := le_exact_slot_size element_size
  have hnext {index other : Nat} (hlt : index < other) :
      slot_start element_size index + 8 + element_size ≤ slot_start element_size other := by
    have hmul := Nat.mul_le_mul_right (exact_slot_size element_size) hlt
    rw [Nat.succ_mul] at hmul
    unfold slot_start
    omega
  refine ⟨hnonempty, htotal, hbounded, fun index => ?_, fun index hindex => ?_, fun index other hne => ?_⟩
  · refine Nat.dvd_add (by decide) (Nat.dvd_mul_left_of_dvd ?_ index)
    exact Nat.dvd_mul_left 64 _
  · refine Set.Ico_subset_Ico (Nat.le_add_right _ _) ?_
    rw [htotal]
    exact hnext hindex
  · apply Set.Ico_disjoint_Ico.mpr
    rcases Nat.lt_or_gt_of_ne hne with hlt | hgt
    · have := hnext hlt
      omega
    · have := hnext hgt
      omega

/-- `open` accepts no header but the one that `create` stores. -/
theorem validate_mapping_ok (hok : validate_mapping element name header size = .ok channel) :
    checked_mapping_size element.size header.capacity = .ok size ∧
      header = created_header element header.capacity size := by
  unfold validate_mapping at hok
  split_ifs at hok with hformat hcapacity
  split at hok
  · cases hok
  next expected hexpected =>
  split_ifs at hok with hdiffers
  simp only [not_or, not_not] at hformat hdiffers
  obtain ⟨hmagic, hversion⟩ := hformat
  obtain ⟨hmapping, hsame, hoffset, hheader, hslot, halignment, hsize, helement, htag⟩ := hdiffers
  refine ⟨hsame ▸ hexpected, ?_⟩
  cases header
  simp only [created_header, SharedHeader.mk.injEq] at *
  exact ⟨hmagic, hversion, hmapping, hoffset, trivial, hheader, hslot, halignment, hsize, helement, htag⟩

/-- `open` accepts a ready object, whatever its header holds, exactly when `create` would
    have made it with this size, and then the slots lie in it as they should. -/
theorem open_accepts_what_create_makes (helement : element.size < 2 ^ 63) (name : String)
    (header : SharedHeader) (size : Nat) :
    ((∃ channel, validate_mapping element name header size = .ok channel) ↔
      ∃ layout, checked_layout element name header.capacity = .ok layout ∧ layout.mapping_size = size ∧
        header = created_header element header.capacity size) ∧
    ((∃ layout, checked_layout element name header.capacity = .ok layout ∧ layout.mapping_size = size) ↔
      HoldsSlots element.size header.capacity size) := by
  have hlayout (hok : checked_mapping_size element.size header.capacity = .ok size) :
      ∃ layout, checked_layout element name header.capacity = .ok layout ∧ layout.mapping_size = size := by
    unfold checked_layout
    split
    next error herror =>
      rw [hok] at herror
      cases herror
    next expected hexpected =>
      rw [hok] at hexpected
      cases hexpected
      exact ⟨_, rfl, rfl⟩
  constructor
  · constructor
    · rintro ⟨channel, hok⟩
      obtain ⟨hsize, hheader⟩ := validate_mapping_ok hok
      obtain ⟨layout, haccepted, htotal⟩ := hlayout hsize
      exact ⟨layout, haccepted, htotal, hheader⟩
    · rintro ⟨layout, haccepted, rfl, hheader⟩
      obtain ⟨hcapacity, _, _⟩ := checked_layout_spec haccepted
      rw [← hcapacity] at hheader
      rw [hheader]
      exact ⟨_, validate_mapping_made haccepted⟩
  · constructor
    · rintro ⟨layout, haccepted, rfl⟩
      obtain ⟨_, _, hsize⟩ := checked_layout_spec haccepted
      obtain ⟨hnonempty, htotal, hbounded⟩ := (checked_mapping_size_ok_iff helement).mp hsize
      exact holds_slots hnonempty htotal hbounded
    · intro hholds
      exact hlayout ((checked_mapping_size_ok_iff helement).mpr
        ⟨hholds.nonempty, hholds.total, hholds.bounded⟩)

theorem open_accepts_what_create_makes_bytes :
    (∃ layout, checked_layout ⟨1, 1, 0⟩ "/c" 2 = .ok layout ∧ layout.mapping_size = 640) ↔ HoldsSlots 1 2 640 := by
  have hsize : (⟨1, 1, 0⟩ : ElementType).size < 2 ^ 63 := by decide
  exact (open_accepts_what_create_makes hsize "/c" { capacity := 2 } 640).2

end

end shmchan.channel
