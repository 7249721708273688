import Shmchan.Status

namespace shmchan.managed

/-- `managed_cache_line`. -/
def managed_cache_line : Nat := 64

/-- `sizeof(managed_message_slot)`. -/
def sizeof_managed_message_slot : Nat := 64

/-- `sizeof(managed_shared_header)`: five groups aligned to cache lines, of
    104, 16, `sizeof(pthread_mutex_t)`, 40 and 72 bytes. -/
def sizeof_managed_shared_header : Nat := 448

/-- `sizeof(pthread_mutex_t)` on a 64-bit Linux host. -/
def sizeof_pthread_mutex : Nat := 40

/-- `alignof(pthread_mutex_t)`. -/
def alignof_pthread_mutex : Nat := 8

structure ManagedLayout where
  mapping_size : Nat
  slots_offset : Nat
  payload_offset : Nat
  payload_stride : Nat
  deriving DecidableEq, Repr

/-- `(value + alignment - 1) & ~(alignment - 1)` on 64-bit words. -/
def managed_align_up (value alignment : Nat) : Nat :=
  (sub64 (add64 value alignment) 1) &&& (2 ^ 64 - 1 - (alignment - 1))

def checked_managed_layout (capacity max_message_size : Nat) : Except Exception ManagedLayout :=
  if capacity = 0 ∨ max_message_size = 0 then
    .error (.invalid_argument
      "shmchan: managed channel capacity and max message size must be positive")
  else if max_message_size > 2 ^ 32 - 1 then
    .error (.length_error "shmchan: managed message size exceeds uint32_t")
  else if max_message_size > 2 ^ 64 - 1 - (managed_cache_line - 1) then
    .error (.length_error "shmchan: managed payload alignment overflows size_t")
  else
    let payload_stride := managed_align_up max_message_size managed_cache_line
    let slots_offset := managed_align_up sizeof_managed_shared_header managed_cache_line
    if capacity > (2 ^ 64 - 1 - slots_offset) / sizeof_managed_message_slot then
      .error (.length_error "shmchan: managed descriptor area is too large")
    else
      let payload_offset := managed_align_up
        (add64 slots_offset (capacity * sizeof_managed_message_slot % 2 ^ 64)) managed_cache_line
      if capacity > (2 ^ 64 - 1 - payload_offset) / payload_stride then
        .error (.length_error "shmchan: managed payload area is too large")
      else
        let mapping_size := add64 payload_offset (capacity * payload_stride % 2 ^ 64)
        if mapping_size > 2 ^ 63 - 1 then
          .error (.length_error "shmchan: managed mapping size overflows off_t")
        else
          .ok { mapping_size, slots_offset, payload_offset, payload_stride }

/-- Rounding up to a cache line, away from the end of the word. -/
theorem managed_align_up_cache_line {value : Nat} (h : value + 64 ≤ 2 ^ 64) :
    managed_align_up value managed_cache_line = (value + 63) / 64 * 64 :=
  align_up_two_pow (k := 6) (by norm_num) h

/-- An accepted pair of options gets the exact layout: no addition,
    multiplication or alignment of the computation wraps. -/
theorem checked_managed_layout_spec {capacity max_message_size : Nat} {layout : ManagedLayout}
    (hok : checked_managed_layout capacity max_message_size = .ok layout) :
    0 < capacity ∧ 0 < max_message_size ∧ max_message_size < 2 ^ 32 ∧
      layout.slots_offset = 448 ∧ layout.payload_offset = 448 + capacity * 64 ∧
      layout.payload_stride = (max_message_size + 63) / 64 * 64 ∧
      layout.mapping_size = layout.payload_offset + capacity * layout.payload_stride ∧
      layout.mapping_size < 2 ^ 63 := by
  unfold checked_managed_layout at hok
  split at hok
  · cases hok
  next hpositive =>
  split at hok
  · cases hok
  next hsmall =>
  split at hok
  · cases hok
  simp only [not_or] at hpositive
  have hstride : managed_align_up max_message_size managed_cache_line =
      (max_message_size + 63) / 64 * 64 :=
    managed_align_up_cache_line (by omega)
  have hslots : managed_align_up sizeof_managed_shared_header managed_cache_line = 448 :=
    managed_align_up_cache_line (by norm_num [sizeof_managed_shared_header])
  simp only [hstride, hslots, sizeof_managed_message_slot] at hok
  split at hok
  · cases hok
  next hdescriptors =>
  have hcapacity : capacity * 64 ≤ 2 ^ 64 - 1 - 448 :=
    (Nat.le_div_iff_mul_le (by omega)).mp (by omega)
  have hproduct : capacity * 64 % 2 ^ 64 = capacity * 64 := Nat.mod_eq_of_lt (by omega)
  have hpayload : managed_align_up (448 + capacity * 64) managed_cache_line = 448 + capacity * 64 := by
    rw [managed_align_up_cache_line (by omega)]
    omega
  rw [hproduct, add64_of_lt (by omega), hpayload] at hok
  split at hok
  · cases hok
  next hareas =>
  have hfits : capacity * ((max_message_size + 63) / 64 * 64) ≤ 2 ^ 64 - 1 - (448 + capacity * 64) :=
    (Nat.le_div_iff_mul_le (by omega)).mp (by omega)
  rw [Nat.mod_eq_of_lt (by omega), add64_of_lt (by omega)] at hok
  split at hok
  · cases hok
  next hmapping =>
  injection hok with hlayout
  subst hlayout
  exact ⟨by omega, by omega, by omega, rfl, rfl, rfl, rfl, by simp only; omega⟩

end shmchan.managed
