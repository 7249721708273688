import Shmchan.Endpoint.Operations

open process

namespace shmchan.endpoint

/-- The low bits of `sender_state` count the registered guards, its top bit
    says whether a call of `close` has found the channel open, and only a
    registered sender has a reserved position. -/
structure Senders (sender_state closings : Nat) (guards : List Nat) (phase : Nat → Phase) : Prop where
  word : sender_state = closings * channel_closed_bit + guards.length
  bound : guards.length < channel_closed_bit
  closings : closings ≤ 1
  owner : ∀ i pid, phase i = .reserved pid → pid ∈ guards

section

variable {sender_state closings : Nat} {guards : List Nat} {phase : Nat → Phase}

theorem closed_bit_word {closings count : Nat} (hclosings : closings ≤ 1)
    (hcount : count < channel_closed_bit) :
    (closings * channel_closed_bit + count) &&& channel_closed_bit = closings * channel_closed_bit := by
  rw [channel_closed_bit] at hcount
  rw [channel_closed_bit, show 0x80000000 = 2 ^ 31 from rfl, Nat.and_two_pow,
    Nat.testBit_eq_decide_div_mod_eq]
  have hdiv : (closings * 2 ^ 31 + count) / 2 ^ 31 = closings := by omega
  rw [hdiv]
  interval_cases closings <;> rfl

/-- The closed bit is set when a call of `close` has found the channel open. -/
theorem Senders.closed_iff (h : Senders sender_state closings guards phase) :
    sender_state &&& channel_closed_bit ≠ 0 ↔ closings = 1 := by
  rw [h.word, closed_bit_word h.closings h.bound]
  have := h.closings
  rw [channel_closed_bit]
  omega

theorem Senders.active (h : Senders sender_state closings guards phase) :
    sender_state &&& active_sender_mask = guards.length := by
  have hbound := h.bound
  rw [h.word, active_sender_mask]
  rw [channel_closed_bit] at hbound ⊢
  rw [show 0x80000000 - 1 = 2 ^ 31 - 1 from rfl, Nat.and_two_pow_sub_one_eq_mod]
  omega

/-- The bare closed bit: closed, and no sender is registered. -/
theorem Senders.done_iff (h : Senders sender_state closings guards phase) :
    sender_state = channel_closed_bit ↔ closings = 1 ∧ guards = [] := by
  have hclosings := h.closings
  have hbound := h.bound
  rw [h.word, ← List.length_eq_zero_iff]
  rw [channel_closed_bit] at hbound ⊢
  omega

theorem Senders.update_phase (h : Senders sender_state closings guards phase) {i : Nat} {new : Phase}
    (hnew : ∀ pid, new = .reserved pid → pid ∈ guards) :
    Senders sender_state closings guards (Function.update phase i new) := by
  refine { h with owner := fun j pid hj => ?_ }
  by_cases hji : j = i
  · rw [hji, Function.update_self] at hj
    exact hnew pid hj
  · rw [Function.update_of_ne hji] at hj
    exact h.owner j pid hj

/-- A sender that finds the count below its maximum registers without a carry
    into the closed bit. -/
theorem Senders.register (h : Senders sender_state closings guards phase) (pid : Nat)
    (hactive : sender_state &&& active_sender_mask ≠ active_sender_mask) :
    Senders ((sender_state + 1) % 2 ^ 32) closings (pid :: guards) phase := by
  have hclosings := h.closings
  have hbound := h.bound
  have hword := h.word
  rw [h.active, active_sender_mask] at hactive
  rw [channel_closed_bit] at hbound hword hactive
  refine ⟨?_, ?_, hclosings, fun i other hi => List.mem_cons_of_mem _ (h.owner i other hi)⟩
  · rw [List.length_cons, channel_closed_bit]
    omega
  · rw [List.length_cons, channel_closed_bit]
    omega

/-- A registered sender without a reserved position leaves without a borrow
    from the closed bit. -/
theorem Senders.unregister (h : Senders sender_state closings guards phase) {pid : Nat}
    (hpid : pid ∈ guards) (hnone : ∀ i, phase i ≠ .reserved pid) :
    Senders ((2 ^ 32 - 1 + sender_state) % 2 ^ 32) closings (guards.erase pid) phase := by
  have hclosings := h.closings
  have hbound := h.bound
  have hword := h.word
  have hlength := List.length_erase_of_mem hpid
  have hpos := List.length_pos_of_mem hpid
  rw [channel_closed_bit] at hbound hword
  refine ⟨?_, ?_, hclosings, fun i other hi => ?_⟩
  · rw [hlength, channel_closed_bit]
    omega
  · rw [hlength, channel_closed_bit]
    omega
  · apply (List.mem_erase_of_ne _).mpr (h.owner i other hi)
    rintro rfl
    exact hnone i hi

theorem Senders.set_closed (h : Senders sender_state closings guards phase) :
    Senders (sender_state ||| channel_closed_bit)
      (if sender_state &&& channel_closed_bit ≠ 0 then closings else closings + 1) guards phase := by
  have hclosed := h.closed_iff
  have hclosings := h.closings
  have hbound := h.bound
  have hset : (channel_closed_bit + guards.length) ||| channel_closed_bit =
      channel_closed_bit + guards.length ∧ guards.length ||| channel_closed_bit =
      channel_closed_bit + guards.length := by
    rw [channel_closed_bit] at hbound ⊢
    have hor := Nat.two_pow_add_eq_or_of_lt (i := 31) hbound 1
    rw [show 2 ^ 31 * 1 = 0x80000000 from rfl] at hor
    rw [hor, Nat.or_comm guards.length, Nat.or_comm (0x80000000 ||| guards.length), ← Nat.or_assoc,
      Nat.or_self]
    exact ⟨rfl, rfl⟩
  split
  next hbit =>
    have hone := hclosed.mp hbit
    refine { h with word := ?_ }
    rw [h.word, hone, one_mul]
    exact hset.1
  next hbit =>
    have hzero : closings = 0 := by
      have := mt hclosed.mpr hbit
      omega
    refine { h with word := ?_, closings := by omega }
    rw [h.word, hzero, zero_mul, zero_add, zero_add, one_mul]
    exact hset.2

end

/-- What a process may rely on from the others' handling of `sender_state`. -/
structure SenderRely {Ring Message : Type} (pid : Nat) (s s' : Endpoint Ring Message) : Prop where
  closings : s.closings ≤ s'.closings
  guard : pid ∈ s'.guards ↔ pid ∈ s.guards
  done : 0 < s.closings → s.guards = [] → s'.guards = [] ∧ s'.log.count = s.log.count

/-- Closed, and no sender is registered. -/
def Endpoint.Done {Ring Message : Type} (s : Endpoint Ring Message) : Prop := 0 < s.closings ∧ s.guards = []

/-- Every reserved position has been claimed. -/
def Endpoint.Drained {Ring Message : Type} (s : Endpoint Ring Message) : Prop :=
  ∀ i < s.log.count, (s.log.phase i).taken = true

/-- What the end of a try without a message says: the try was hasty, or there
    is nothing left and nothing will come. -/
def Emptied {Ring Message : Type} (pid : Nat) (s : Endpoint Ring Message) : Prop :=
  s.hasty pid = true ∨ s.Done ∧ s.Drained

section

variable {Ring Message : Type} {pid : Nat} {s s' s₁ s₂ s₃ : Endpoint Ring Message}

theorem SenderRely.refl (pid : Nat) (s : Endpoint Ring Message) : SenderRely pid s s :=
  ⟨le_rfl, Iff.rfl, fun _ hguards => ⟨hguards, rfl⟩⟩

theorem SenderRely.trans (h : SenderRely pid s₁ s₂) (h' : SenderRely pid s₂ s₃) :
    SenderRely pid s₁ s₃ where
  closings := h.closings.trans h'.closings
  guard := h'.guard.trans h.guard
  done hclosings hguards := by
    have hmid := h.done hclosings hguards
    have hlast := h'.done (hclosings.trans_le h.closings) hmid.1
    exact ⟨hlast.1, hlast.2.trans hmid.2⟩

/-- Nothing is reserved any more. -/
theorem SenderRely.count (h : SenderRely pid s s') (hdone : s.Done) : s'.log.count = s.log.count :=
  (h.done hdone.1 hdone.2).2

theorem SenderRely.keeps_done (h : SenderRely pid s s') (hdone : s.Done) : s'.Done :=
  ⟨hdone.1.trans_le h.closings, (h.done hdone.1 hdone.2).1⟩

theorem SenderRely.keeps_emptied (h : SenderRely pid s s') (hhasty : s'.hasty pid = s.hasty pid)
    (htaken : ∀ i, (s.log.phase i).taken = true → (s'.log.phase i).taken = true)
    (hemptied : Emptied pid s) : Emptied pid s' := by
  rcases hemptied with hearly | ⟨hdone, hdrained⟩
  · exact .inl (hhasty.trans hearly)
  · refine .inr ⟨h.keeps_done hdone, fun i hi => htaken i (hdrained i ?_)⟩
    rwa [h.count hdone] at hi

/-- A step that leaves `sender_state` and the count of reservations alone. -/
theorem SenderRely.of_same (hclosings : s'.closings = s.closings) (hguards : s'.guards = s.guards)
    (hcount : s'.log.count = s.log.count) : SenderRely pid s s' where
  closings := hclosings.ge
  guard := by rw [hguards]
  done _ h := ⟨hguards.trans h, hcount⟩

/-- While a sender is registered, there is a sender. -/
theorem SenderRely.of_guard {other : Nat} (hguard : other ∈ s.guards)
    (hclosings : s.closings ≤ s'.closings) (hother : pid ∈ s'.guards ↔ pid ∈ s.guards) :
    SenderRely pid s s' where
  closings := hclosings
  guard := hother
  done _ h := absurd hguard (h ▸ List.not_mem_nil)

end

end shmchan.endpoint
