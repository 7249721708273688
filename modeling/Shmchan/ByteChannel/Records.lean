import Shmchan.ByteChannel.Invariant

open process shmchan.endpoint

namespace shmchan.byte_channel

section

variable {channel : ByteChannel} {pid : Nat} {s s' : Memory}

/-- A record whose phase has a holder or that is published is still in the ring. -/
theorem Inv.live (h : Inv channel s) {i : Nat} (hvacant : s.log.phase i ≠ .vacant)
    (hconsumed : s.log.phase i ≠ .consumed) : s.ring.reclaimed ≤ i ∧ i < s.log.count := by
  constructor
  · by_contra hlt
    exact hconsumed (h.phased.reclaimed i (by omega))
  · by_contra hge
    exact hvacant (h.phased.vacant i (by omega))

theorem Inv.live_of_holder (h : Inv channel s) {i other : Nat}
    (hholder : holder (s.log.phase i) = some other) : s.ring.reclaimed ≤ i ∧ i < s.log.count := by
  apply h.live
  · intro hphase
    rw [hphase] at hholder
    cases hholder
  · intro hphase
    rw [hphase] at hholder
    cases hholder

/-- Outside of the receives nothing is left to reclaim. -/
theorem Inv.all_reclaimed (h : Inv channel s) (hnone : ∀ pid, s.receiving pid = false) :
    s.ring.reclaimed = s.log.claimed := by
  by_contra hne
  have hlt : s.ring.reclaimed < s.log.claimed := by
    have := h.placed.reclaimed_le
    omega
  -- the first record that is not reclaimed has a receiver that is not done with it
  have hreceiver : ∃ pid, s.receiving pid = true := by
    rcases h.phased.behind _ hlt with hconsumed | ⟨other, hclaimed⟩
    · obtain ⟨other, howes⟩ := h.owed hlt hconsumed
      exact ⟨other, h.receiving other (.inl howes)⟩
    · exact ⟨other, h.receiving other (.inr ⟨_, hclaimed⟩)⟩
  obtain ⟨other, hother⟩ := hreceiver
  rw [hnone other] at hother
  cases hother

theorem Inv.aligned (h : Inv channel s) {i : Nat} (hi : i ≤ s.log.count) :
    offset s.log.message i % 32 = 0 := h.placed.offset_aligned channel.bounded hi

theorem Inv.size_spec (h : Inv channel s) {i : Nat} (hi : i < s.log.count) :
    (s.log.message i).length + 32 ≤ record_size (s.log.message i).length ∧
      record_size (s.log.message i).length % 32 = 0 ∧
      record_size (s.log.message i).length ≤ channel.capacity_bytes := by
  have hfits := h.placed.fits i hi
  have hbounded := channel.bounded
  have hspec := record_size_spec (show (s.log.message i).length < 2 ^ 63 by omega)
  exact ⟨hspec.1, hspec.2.1, channel.record_size_le hfits⟩

/-- The bytes of a header field are bytes of the record. -/
theorem ByteChannel.header_field (channel : ByteChannel) {position field k : Nat}
    (hposition : position % 32 = 0) (hfield : field + k < 32) :
    position % channel.capacity_bytes + field + k = (position + (field + k)) % channel.capacity_bytes := by
  rw [Nat.add_assoc]
  exact header_byte hposition channel.aligned (by have := channel.larger; omega) hfield

/-- The words and bytes of a record only depend on the bytes of the record. -/
theorem Stored.congr {data data' : Nat → UInt8} {position : Nat} {message : Bytes} {phase : Phase}
    (hposition : position % 32 = 0) (hfits : message.length + 32 ≤ channel.capacity_bytes)
    (hbytes : ∀ k < record_size message.length, data' ((position + k) % channel.capacity_bytes) =
      data ((position + k) % channel.capacity_bytes))
    (h : Stored channel.capacity_bytes data position message phase) :
    Stored channel.capacity_bytes data' position message phase := by
  have hbounded := channel.bounded
  have hsize := (record_size_spec (show message.length < 2 ^ 63 by omega)).1
  have hword (field : Nat) (hfield : field + 8 ≤ 32) :
      load64 data' (position % channel.capacity_bytes + field) =
        load64 data (position % channel.capacity_bytes + field) := by
    apply load64_congr
    intro k hk
    rw [channel.header_field hposition (by omega)]
    exact hbytes (field + k) (by omega)
  refine ⟨fun t ht => ?_, fun t ht => ?_⟩
  · rw [← h.token t ht]
    exact hword 0 (by omega)
  · have hbody := h.body t ht
    refine ⟨?_, ?_, fun k hk => ?_⟩
    · rw [hword _ (by omega)]
      exact hbody.total_size
    · rw [hword _ (by omega)]
      exact hbody.payload_size
    · have hbyte := hbytes (32 + k) (by omega)
      rw [← Nat.add_assoc] at hbyte
      rw [hbyte]
      exact hbody.bytes k hk

/-- Different bytes of a record are different bytes of the ring. -/
theorem same_byte {capacity position k l : Nat} (hk : k < capacity) (hl : l < capacity)
    (heq : (position + k) % capacity = (position + l) % capacity) : k = l := by
  have hmod : k ≡ l [MOD capacity] := Nat.ModEq.add_left_cancel' position heq
  rwa [Nat.ModEq, Nat.mod_eq_of_lt hk, Nat.mod_eq_of_lt hl] at hmod

/-- Nothing outside the bytes of a record has changed. -/
def WritesInside (channel : ByteChannel) (position size : Nat) (data data' : Nat → UInt8) : Prop :=
  ∀ x, (∀ k < size, x ≠ (position + k) % channel.capacity_bytes) → data' x = data x

theorem writesInside_store64 {data : Nat → UInt8} {position value size : Nat} (field : Nat)
    (hposition : position % 32 = 0) (hfield : field + 8 ≤ 32) (hsize : 32 ≤ size) :
    WritesInside channel position size data
      (store64 data (position % channel.capacity_bytes + field) value) := by
  intro x hx
  apply store64_of_disjoint
  by_contra hin
  apply hx (field + (x - (position % channel.capacity_bytes + field))) (by omega)
  rw [← channel.header_field hposition (by omega)]
  omega

/-- A write to one record does not touch the bytes of another. -/
theorem Inv.untouched (h : Inv channel s) {i j : Nat} {data' : Nat → UInt8}
    (hi : s.ring.reclaimed ≤ i ∧ i < s.log.count) (hj : s.ring.reclaimed ≤ j ∧ j < s.log.count)
    (hne : j ≠ i) (hwrites : WritesInside channel (offset s.log.message i)
      (record_size (s.log.message i).length) s.ring.data data') :
    ∀ k < record_size (s.log.message j).length,
      data' ((offset s.log.message j + k) % channel.capacity_bytes) =
        s.ring.data ((offset s.log.message j + k) % channel.capacity_bytes) := by
  intro k hk
  apply hwrites
  intro l hl
  exact h.placed.disjoint hne hj.1 hj.2 hi.1 hi.2 hk hl

theorem Inv.stored_other (h : Inv channel s) {i j : Nat} {data' : Nat → UInt8}
    (hi : s.ring.reclaimed ≤ i ∧ i < s.log.count) (hj : s.ring.reclaimed ≤ j ∧ j < s.log.count)
    (hne : j ≠ i) (hwrites : WritesInside channel (offset s.log.message i)
      (record_size (s.log.message i).length) s.ring.data data') :
    Stored channel.capacity_bytes data' (offset s.log.message j) (s.log.message j) (s.log.phase j) :=
  (h.stored j hj.1 hj.2).congr (h.aligned hj.2.le) (h.placed.fits j hj.2) (h.untouched hi hj hne hwrites)

/-- The store of a token in the state word of a complete record. -/
theorem Inv.stored_token (h : Inv channel s) {i t : Nat} (phase : Phase)
    (hi : s.ring.reclaimed ≤ i ∧ i < s.log.count) (htoken : token_of phase = some t) (ht : t < 4)
    (hbody : Body channel.capacity_bytes s.ring.data (offset s.log.message i) (s.log.message i)) :
    ∀ j, s.ring.reclaimed ≤ j → j < s.log.count → Stored channel.capacity_bytes
      (store64 s.ring.data (offset s.log.message i % channel.capacity_bytes) (offset s.log.message i + t))
      (offset s.log.message j) (s.log.message j) (Function.update s.log.phase i phase j) := by
  have hsmall := h.placed.offset_le hi.2 channel.bounded
  have hsize := h.size_spec hi.2
  have halign := h.aligned hi.2.le
  intro j hj hj'
  by_cases hji : j = i
  · subst hji
    rw [Function.update_self]
    have hheader {field : Nat} (hfield : 8 ≤ field) :
        load64 (store64 s.ring.data (offset s.log.message j % channel.capacity_bytes)
          (offset s.log.message j + t)) (offset s.log.message j % channel.capacity_bytes + field) =
        load64 s.ring.data (offset s.log.message j % channel.capacity_bytes + field) :=
      load64_store64_of_disjoint (by omega)
    refine ⟨fun t' ht' => ?_, fun _ _ => ⟨?_, ?_, fun k hk => ?_⟩⟩
    · rw [htoken] at ht'
      cases ht'
      exact load64_store64 (by omega)
    · rw [hheader (by omega)]
      exact hbody.total_size
    · rw [hheader (by omega)]
      exact hbody.payload_size
    · rw [← hbody.bytes k hk]
      apply store64_of_disjoint
      by_contra hin
      -- a byte of the state word is no byte of the payload
      obtain ⟨d, hd, hstate⟩ : ∃ d < 8, (offset s.log.message j + (32 + k)) % channel.capacity_bytes =
          offset s.log.message j % channel.capacity_bytes + d := by
        refine ⟨(offset s.log.message j + 32 + k) % channel.capacity_bytes -
          offset s.log.message j % channel.capacity_bytes, by omega, ?_⟩
        rw [← Nat.add_assoc]
        omega
      rw [header_byte halign channel.aligned (by omega) (by omega)] at hstate
      have := same_byte (by omega) (by omega) hstate
      omega
  · rw [Function.update_of_ne hji]
    apply h.stored_other hi ⟨hj, hj'⟩ hji
    exact writesInside_store64 0 halign (by omega) (by omega)

/-- A token other than the publish token is not mistaken for one. -/
theorem Inv.unmistakable_token (h : Inv channel s) {i t : Nat} (phase : Phase) (htame : AllTame s)
    (hi : s.ring.reclaimed ≤ i ∧ i < s.log.count) (htoken : token_of phase = some t) (ht : t < 4) :
    Unmistakable channel.capacity_bytes
      (store64 s.ring.data (offset s.log.message i % channel.capacity_bytes) (offset s.log.message i + t))
      s.log.message (Function.update s.log.phase i phase) := by
  have halign := h.aligned hi.2.le
  have hhead : offset s.log.message i % channel.capacity_bytes % 32 = 0 := by
    rw [Nat.mod_mod_of_dvd _ (Nat.dvd_of_mod_eq_zero channel.aligned)]
    exact halign
  intro x hx hx32 hbyte
  by_cases hxi : x = offset s.log.message i % channel.capacity_bytes
  · subst hxi
    rw [store64_first] at hbyte
    have ht1 : t = 1 := by omega
    subst ht1
    refine ⟨i, ?_, rfl⟩
    rw [Function.update_self]
    cases phase with
    | published => rfl
    | vacant => cases htoken
    | reserved pid => cases htoken
    | claimed pid => cases htoken
    | consumed => cases htoken
  · rw [store64_of_disjoint (by omega)] at hbyte
    obtain ⟨j, hj, rfl⟩ := h.unmistakable htame x hx hx32 hbyte
    have hji : j ≠ i := by
      rintro rfl
      exact hxi rfl
    exact ⟨j, by rw [Function.update_of_ne hji, hj], rfl⟩

/-- The bytes of the records of the other processes are not touched. -/
theorem Inv.others_bytes (h : Inv channel s) {i other : Nat} {data' : Nat → UInt8}
    (hi : s.ring.reclaimed ≤ i ∧ i < s.log.count) (hholder : holder (s.log.phase i) ≠ some other)
    (hwrites : WritesInside channel (offset s.log.message i)
      (record_size (s.log.message i).length) s.ring.data data') :
    ∀ j < s.log.count, holder (s.log.phase j) = some other →
      ∀ k < record_size (s.log.message j).length,
        data' ((offset s.log.message j + k) % channel.capacity_bytes) =
          s.ring.data ((offset s.log.message j + k) % channel.capacity_bytes) := by
  intro j _ hother
  apply h.untouched hi (h.live_of_holder hother) ?_ hwrites
  rintro rfl
  exact hholder hother

end

end shmchan.byte_channel
