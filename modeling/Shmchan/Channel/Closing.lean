import Shmchan.Channel.Delivery
import Shmchan.Endpoint.Closing

open process shmchan.endpoint

namespace shmchan.channel

/-- The reliance of the calls when only their closing matters. -/
abbrev closing : Reliance Memory Nat := closing_reliance SlotRing.enqueue_position

/-- A step that uses the slots without reserving. -/
abbrev Touches (s s' : Memory) : Prop := Uses SlotRing.enqueue_position s s'

section

variable {channel : Channel} {pid : Nat} {s s' : Memory}

theorem reserves_next (value : Bytes) (f : SlotRing → SlotRing) (s : Memory) : Reserves pid s (reserve pid value f s) :=
  ⟨rfl, rfl, rfl, rfl, rfl⟩

theorem new_channel_unused : Unused new_channel where
  inv := {
    senders := {
      word := rfl
      bound := Nat.two_pow_pos 31
      closings := Nat.zero_le 1
      owner := fun _ _ hi => by cases hi }
    occupied := fun i hi => absurd hi (Nat.not_lt_zero i) }
  closings := rfl
  unreserved _ _ hi := by cases hi
  shown _ := rfl

/-- A call that sends. -/
def Call.sends : Call channel → Bool
  | .try_send _ _ _ => true
  | .send _ _ _ _ => true
  | _ => false

end

end shmchan.channel
