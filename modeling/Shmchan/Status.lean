import Mathlib

namespace shmchan

/-- `channel_status`, in the order of the C++ enumeration. -/
inductive ChannelStatus where
  | success
  | closed
  | would_block
  | timed_out
  | message_too_large
  | broken
  | protocol_mismatch
  deriving DecidableEq, Repr

/-- The exceptions the library throws, with the text they carry. A
    `system_error` records the failing operation instead of an `errno`. -/
inductive Exception where
  | invalid_argument (what : String)
  | length_error (what : String)
  | runtime_error (what : String)
  | overflow_error (what : String)
  | system_error (operation : String)
  | managed_channel_error (code : ChannelStatus) (what : String)
  | bad_alloc
  deriving DecidableEq, Repr

/-- A byte string in process-private memory. -/
abbrev Bytes := List UInt8

/-- Unsigned 64-bit addition. -/
def add64 (a b : Nat) : Nat := (a + b) % 2 ^ 64

/-- Unsigned 64-bit subtraction. -/
def sub64 (a b : Nat) : Nat := (2 ^ 64 + a - b % 2 ^ 64) % 2 ^ 64

/-- `static_cast<std::int64_t>` of an unsigned 64-bit value. -/
def to_int64 (a : Nat) : Int := if a < 2 ^ 63 then a else (a : Int) - 2 ^ 64

theorem add64_of_lt {a b : Nat} (h : a + b < 2 ^ 64) : add64 a b = a + b := by
  rw [add64, Nat.mod_eq_of_lt h]

theorem sub64_of_le {a b : Nat} (hab : b ≤ a) (ha : a < 2 ^ 64) : sub64 a b = a - b := by
  have hb : b % 2 ^ 64 = b := Nat.mod_eq_of_lt (by omega)
  rw [sub64, hb, show 2 ^ 64 + a - b = (a - b) + 2 ^ 64 by omega, Nat.add_mod_right]
  exact Nat.mod_eq_of_lt (by omega)

theorem sub64_of_lt {a b : Nat} (hab : a < b) (hb : b < 2 ^ 64) :
    sub64 a b = a + 2 ^ 64 - b := by
  rw [sub64, Nat.mod_eq_of_lt hb, Nat.mod_eq_of_lt (by omega)]
  omega

/-- The signed difference of two words is exact while both stay below 2^63. -/
theorem to_int64_sub64 {a b : Nat} (ha : a < 2 ^ 63) (hb : b < 2 ^ 63) :
    to_int64 (sub64 a b) = (a : Int) - b := by
  by_cases hab : b ≤ a
  · rw [sub64_of_le hab (by omega), to_int64, if_pos (by omega)]
    omega
  · rw [sub64_of_lt (by omega) (by omega), to_int64, if_neg (by omega)]
    omega

/-- Two words are equal if their signed difference is zero. -/
theorem to_int64_sub64_eq_zero {a b : Nat} (ha : a < 2 ^ 64) (hb : b < 2 ^ 64) :
    to_int64 (sub64 a b) = 0 ↔ a = b := by
  by_cases hab : b ≤ a
  · rw [sub64_of_le hab ha, to_int64]
    split_ifs <;> omega
  · rw [sub64_of_lt (by omega) hb, to_int64]
    split_ifs <;> omega

/-- Clearing the low bits of a word rounds it down. -/
theorem land_high_mask {x k : Nat} (hx : x < 2 ^ 64) (hk : k ≤ 64) :
    x &&& (2 ^ 64 - 2 ^ k) = x / 2 ^ k * 2 ^ k := by
  apply Nat.eq_of_testBit_eq
  intro i
  have hmask : 2 ^ 64 - 2 ^ k = (2 ^ (64 - k) - 1) * 2 ^ k := by
    rw [Nat.sub_mul, ← Nat.pow_add, Nat.sub_add_cancel hk, one_mul]
  rw [Nat.testBit_and, hmask, Nat.testBit_mul_two_pow, Nat.testBit_mul_two_pow,
    Nat.testBit_two_pow_sub_one, Nat.testBit_div_two_pow]
  by_cases hlow : k ≤ i
  · rw [Nat.sub_add_cancel hlow]
    by_cases hhigh : i < 64
    · simp [hlow, show i - k < 64 - k by omega]
    · have hzero : x.testBit i = false :=
        Nat.testBit_lt_two_pow (hx.trans_le (Nat.pow_le_pow_right (n := 2) (by omega)
          (show 64 ≤ i by omega)))
      simp [hlow, hzero]
  · simp [hlow]

/-- `(value + alignment - 1) & ~(alignment - 1)` on 64-bit words. -/
def align_up (value alignment : Nat) : Nat :=
  (sub64 (add64 value alignment) 1) &&& (2 ^ 64 - 1 - (alignment - 1))

/-- Rounding up, away from the end of the word. -/
theorem align_up_two_pow {value k : Nat} (hk : k < 64) (h : value + 2 ^ k ≤ 2 ^ 64) :
    align_up value (2 ^ k) = (value + 2 ^ k - 1) / 2 ^ k * 2 ^ k := by
  have hpos : 0 < 2 ^ k := Nat.two_pow_pos k
  have hle : 2 ^ k ≤ 2 ^ 63 := Nat.pow_le_pow_right (by omega) (by omega)
  have hsub : sub64 (add64 value (2 ^ k)) 1 = value + 2 ^ k - 1 := by
    rcases Nat.lt_or_eq_of_le h with hlt | heq
    · rw [add64_of_lt hlt, sub64_of_le (by omega) hlt]
    · rw [add64, heq, Nat.mod_self, sub64_of_lt (by omega) (by norm_num)]
      omega
  rw [align_up, hsub, show 2 ^ 64 - 1 - (2 ^ k - 1) = 2 ^ 64 - 2 ^ k by omega]
  exact land_high_mask (by omega) (by omega)

end shmchan
