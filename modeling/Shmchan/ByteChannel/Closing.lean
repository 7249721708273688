import Shmchan.ByteChannel.Touches

open process shmchan.endpoint

namespace shmchan.byte_channel

/-- The reliance of the calls when only their closing matters. -/
abbrev closing : Reliance Memory Nat := closing_reliance ByteRing.write_position

theorem ring_closing : Protocol closing Unreserved := closing_protocol ByteRing.write_position

section

variable {channel : ByteChannel} {pid : Nat} {s s' : Memory} {α β : Type}

theorem reserves_next (position : Nat) (message : Bytes) (s : Memory) :
    Reserves pid s (reserve pid position message s) :=
  ⟨rfl, rfl, rfl, rfl, rfl⟩

theorem new_channel_unused : Unused new_channel where
  inv := {
    senders := {
      word := rfl
      bound := Nat.two_pow_pos 31
      closings := Nat.zero_le 1
      owner := fun _ _ hi => by cases hi }
    occupied := fun i hi => absurd hi (Nat.not_lt_zero i) }
  closings := rfl
  unreserved _ _ hi := by cases hi
  shown _ := rfl

/-- What a call sends. -/
def Call.message : Call → Option Bytes
  | .try_send message _ _ => some message
  | .send message _ _ _ => some message
  | _ => none

end

end shmchan.byte_channel
