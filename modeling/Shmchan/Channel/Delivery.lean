import Shmchan.Channel.Tries
import Shmchan.Process.Alone

open process shmchan.endpoint

namespace shmchan.channel

section

variable {channel : Channel} {s : Memory} {c : Config Memory (Ended Outcome) Nat}

/-- Fewer than 2^63 items. -/
def Counted (s : Memory) : Prop := s.log.count < 2 ^ 63

theorem Counted.representable (hcounted : Counted s) : Representable channel s := by
  obtain ⟨size, hok⟩ := channel.accepted
  have hcap := (checked_mapping_size_spec hok).2
  rw [Counted] at hcounted
  rw [Representable]
  omega

end

/-- Two slots of one byte each. -/
def pair : Channel where
  capacity := 2
  element_size := 1
  accepted := ⟨_, rfl⟩

/-- Chances that nothing spoils. -/
def fair : SlotChances := { attempts := [false] }

def seven : Value pair := ⟨[7], rfl⟩

theorem bounded_check (s : Memory) (hs : decide (Bounded pair s) = true) : Bounded pair s := of_decide_eq_true hs

/-- Fewer than 2^63 items, and the slot of the next position is always free. -/
def Roomy (s : Memory) : Prop := s.log.count < 2 ^ 63 ∧ Free pair s

/-- What the copies and the epoch words leave alone. -/
structure Kept (s s' : Memory) : Prop where
  log : s'.log = s.log
  enqueue_position : s'.ring.enqueue_position = s.ring.enqueue_position
  dequeue_position : s'.ring.dequeue_position = s.ring.dequeue_position
  sequence : s'.ring.sequence = s.ring.sequence

/-- Items go through the two slots one by one: how many have been sent, claimed
    and received, and the sequence word of the slot of the next one to receive. -/
structure Passed (sent claimed received word : Nat) (s : Memory) : Prop where
  enqueue_position : s.ring.enqueue_position = sent
  dequeue_position : s.ring.dequeue_position = claimed
  first : s.ring.sequence (received % 2) = word
  second : s.ring.sequence ((received + 1) % 2) = received + 1
  count : s.log.count = sent
  claimed : s.log.claimed = claimed
  consumed : ∀ i < received, s.log.phase i = .consumed

section

variable {sent claimed received word pid k : Nat} {s s' : Memory} {value : Bytes} {α : Type}

theorem Passed.kept (h : Passed sent claimed received word s) (hkept : Kept s s') :
    Passed sent claimed received word s' := by
  obtain ⟨hlog, henqueue, hdequeue, hsequence⟩ := hkept
  refine ⟨henqueue.trans h.enqueue_position, hdequeue.trans h.dequeue_position, ?_, ?_, ?_, ?_, ?_⟩
  · rw [hsequence]
    exact h.first
  · rw [hsequence]
    exact h.second
  all_goals rw [hlog]
  · exact h.count
  · exact h.claimed
  · exact h.consumed

/-- There is room as long as no item but the last one may be in its slot. -/
theorem Passed.roomy (h : Passed sent claimed received word s) (hsent : sent ≤ received + 1)
    (hsmall : sent < 2 ^ 63) : Roomy s := by
  have hcount := h.count
  refine ⟨by omega, ?_⟩
  rw [Free, released, Bool.or_eq_true, decide_eq_true_eq, decide_eq_true_eq]
  have hcap : pair.capacity = 2 := rfl
  by_cases hunused : s.log.count < 2
  · exact .inl hunused
  · exact .inr (h.consumed _ (by omega))

/-- The copies and the wake-ups of a process. -/
theorem Passed.keeps (h : Passed sent claimed received word s) (hsent : sent ≤ received + 1)
    (hsmall : sent < 2 ^ 63) {p : Prog Memory α} (hfree : p.NonBlocking) (hp : p.Always Kept fun _ => True) :
    AloneWithin Roomy (fun _ s' => Passed sent claimed received word s') p s := by
  apply (AloneWithin.of_always hp hfree _ h).mono fun _ _ h' => h'.2
  intro s s' hkept h
  have h' := h.kept hkept
  exact ⟨h'.roomy hsent hsmall, h'⟩

end

end shmchan.channel
