import Shmchan.ByteChannel.Mapping

open shmchan.endpoint

namespace shmchan.byte_channel

/-- The capacity that `create` makes of the requested one, and the mapping with
    it: whole record alignments, not one more than needed. -/
structure HoldsRequest (requested capacity_bytes size : Nat) : Prop where
  larger : sizeof_record_header < requested
  enough : requested ≤ capacity_bytes
  least : capacity_bytes < requested + record_alignment
  aligned : record_alignment ∣ capacity_bytes
  total : size = sizeof_shared_header + capacity_bytes
  bounded : size < 2 ^ 63

section

variable {name : String} {requested capacity_bytes size : Nat} {header : SharedHeader} {channel : ByteChannel}
  {layout : Layout ByteChannel}

theorem data_offset_eq_header : data_offset = sizeof_shared_header := data_offset_eq

/-- The checks of `create`, computed exactly. -/
theorem checked_capacity_ok_iff : checked_capacity requested = .ok capacity_bytes ↔
    sizeof_record_header < requested ∧ capacity_bytes = (requested + 31) / 32 * 32 ∧ capacity_bytes < 2 ^ 63 := by
  constructor
  · intro hok
    obtain ⟨_, _, hbounded⟩ := checked_capacity_spec hok
    unfold checked_capacity at hok
    split_ifs at hok with hsmall hlarge
    rw [record_alignment] at hlarge
    rw [align_up_record (by omega)] at hok
    simp only at hok
    split_ifs at hok with hmax
    injection hok with heq
    exact ⟨by omega, heq.symm, hbounded⟩
  · rintro ⟨hlarger, rfl, hbounded⟩
    rw [sizeof_record_header] at hlarger
    unfold checked_capacity
    rw [align_up_record (by omega), if_neg (by rw [sizeof_record_header]; omega),
      if_neg (by rw [record_alignment]; omega)]
    simp only
    rw [if_neg (by omega)]

theorem checked_mapping_size_ok_iff : checked_mapping_size capacity_bytes = .ok size ↔
    size = sizeof_shared_header + capacity_bytes ∧ size < 2 ^ 63 := by
  constructor
  · intro hok
    obtain ⟨htotal, hbounded⟩ := checked_mapping_size_eq hok
    exact ⟨htotal.trans (by rw [data_offset_eq_header]), by omega⟩
  · rintro ⟨rfl, hbounded⟩
    unfold checked_mapping_size
    rw [data_offset_eq_header, if_neg (by omega)]
    simp only
    rw [if_neg (by omega)]

/-- The layout of a request exists exactly when the exact sizes fit. -/
theorem checked_layout_ok_iff (name : String) :
    (∃ layout, checked_layout () name requested = .ok layout ∧ layout.channel.capacity_bytes = capacity_bytes ∧
      layout.mapping_size = size) ↔ HoldsRequest requested capacity_bytes size := by
  constructor
  · rintro ⟨layout, hok, rfl, rfl⟩
    unfold checked_layout at hok
    split at hok
    · cases hok
    next rounded hrounded =>
    split at hok
    · cases hok
    next total htotal =>
    cases hok
    obtain ⟨hlarger, rfl, _⟩ := checked_capacity_ok_iff.mp hrounded
    obtain ⟨htotal, hbounded⟩ := checked_mapping_size_ok_iff.mp htotal
    have henough : requested ≤ (requested + 31) / 32 * 32 := by omega
    have hleast : (requested + 31) / 32 * 32 < requested + 32 := by omega
    exact ⟨hlarger, henough, hleast, Nat.dvd_mul_left 32 _, htotal, hbounded⟩
  · rintro ⟨hlarger, henough, hleast, ⟨count, hcount⟩, htotal, hbounded⟩
    rw [record_alignment] at hleast hcount
    have hcapacity : checked_capacity requested = .ok capacity_bytes :=
      checked_capacity_ok_iff.mpr ⟨hlarger, by omega, by omega⟩
    have hmapping : checked_mapping_size capacity_bytes = .ok size :=
      checked_mapping_size_ok_iff.mpr ⟨htotal, hbounded⟩
    unfold checked_layout
    split
    next error herror =>
      rw [hcapacity] at herror
      cases herror
    next rounded hrounded =>
      rw [hcapacity] at hrounded
      cases hrounded
      split
      next error herror =>
        rw [hmapping] at herror
        cases herror
      next total htotal =>
        rw [hmapping] at htotal
        cases htotal
        exact ⟨_, rfl, rfl, rfl⟩

/-- `open` accepts no header but the one that `create` stores. -/
theorem validate_mapping_ok (hok : validate_mapping () name header size = .ok channel) :
    header = created_header header.capacity_bytes size ∧
      HoldsRequest header.capacity_bytes header.capacity_bytes size := by
  unfold validate_mapping at hok
  split_ifs at hok with hformat hcapacity
  split at hok
  · cases hok
  next expected hexpected =>
  split_ifs at hok with hdiffers
  simp only [not_or, not_not] at hformat hdiffers
  obtain ⟨hmagic, hversion⟩ := hformat
  obtain ⟨hmapping, rfl, hoffset, hheader, hrecord, halignment⟩ := hdiffers
  obtain ⟨htotal, hbounded⟩ := checked_mapping_size_ok_iff.mp hexpected
  unfold capacity_is_invalid at hcapacity
  refine ⟨?_, by omega, le_rfl, Nat.lt_add_of_pos_right (by decide), ?_, htotal, hbounded⟩
  · cases header
    simp only [created_header, SharedHeader.mk.injEq] at *
    exact ⟨hmagic, hversion, hmapping, hoffset, trivial, hheader, hrecord, halignment⟩
  · exact Nat.dvd_of_mod_eq_zero (by omega)

/-- `open` accepts a ready object, whatever its header holds, exactly when some `create`
    would have made it with this size, which rounds the request up to whole
    record alignments and no further. -/
theorem open_accepts_requests (name : String) (header : SharedHeader) (size : Nat) :
    ((∃ channel, validate_mapping () name header size = .ok channel) ↔
      ∃ requested layout, checked_layout () name requested = .ok layout ∧ layout.mapping_size = size ∧
        header = created_header layout.channel.capacity_bytes size) ∧
    ∀ requested capacity_bytes,
      (∃ layout, checked_layout () name requested = .ok layout ∧
        layout.channel.capacity_bytes = capacity_bytes ∧ layout.mapping_size = size) ↔
      HoldsRequest requested capacity_bytes size := by
  refine ⟨⟨?_, ?_⟩, fun requested capacity_bytes => checked_layout_ok_iff name⟩
  · rintro ⟨channel, hok⟩
    obtain ⟨hheader, hholds⟩ := validate_mapping_ok hok
    obtain ⟨layout, haccepted, hcapacity, htotal⟩ := (checked_layout_ok_iff name).mpr hholds
    exact ⟨_, layout, haccepted, htotal, hcapacity ▸ hheader⟩
  · rintro ⟨requested, layout, haccepted, rfl, rfl⟩
    exact ⟨_, validate_mapping_made ⟨requested, haccepted⟩⟩

end

end shmchan.byte_channel
