import Shmchan.ByteChannel.Records

open process shmchan.endpoint

namespace shmchan.byte_channel

section

variable {channel : ByteChannel} {pid : Nat} {s : Memory}

/-- A header word or a payload byte that the sender of a reserved record stores. -/
theorem Inv.write (h : Inv channel s) {i : Nat} (hphase : s.log.phase i = .reserved pid)
    {data' : Nat → UInt8} {a : Access}
    (hwrites : WritesInside channel (offset s.log.message i) (record_size (s.log.message i).length)
      s.ring.data data')
    (hbytes : ∀ x, x % 32 = 0 → data' x = s.ring.data x ∨ (AllTame s → (data' x).toNat % 32 ≠ 1))
    (ha : Inside channel.capacity_bytes s.log.message s.log.count a) :
    Inv channel (set_ring (fun r => { r with data := data', accesses := a :: r.accesses }) s) ∧
      ∀ other, other ≠ pid → Rely channel other s
        (set_ring (fun r => { r with data := data', accesses := a :: r.accesses }) s) := by
  have hi : s.ring.reclaimed ≤ i ∧ i < s.log.count :=
    h.live (by rw [hphase]; exact Phase.noConfusion) (by rw [hphase]; exact Phase.noConfusion)
  constructor
  · refine { h with stored := fun j hj hj' => ?_, unmistakable := fun htame x hx hx32 hbyte => ?_,
                    accesses := fun b hb => ?_ }
    · by_cases hji : j = i
      · subst hji
        refine ⟨fun t ht => ?_, fun t ht => ?_⟩
        · rw [show (set_ring _ s).log.phase j = s.log.phase j from rfl, hphase] at ht
          cases ht
        · rw [show (set_ring _ s).log.phase j = s.log.phase j from rfl, hphase] at ht
          cases ht
      · exact h.stored_other hi ⟨hj, hj'⟩ hji hwrites
    · rcases hbytes x hx32 with hsame | hnot
      · exact h.unmistakable htame x hx hx32 (hsame ▸ hbyte)
      · exact absurd hbyte (hnot htame)
    · rcases List.mem_cons.mp hb with rfl | hb
      · exact ha
      · exact h.accesses b hb
  · intro other hother
    refine { Rely.refl channel other s with bytes := ?_ }
    apply h.others_bytes hi ?_ hwrites
    rw [hphase]
    exact fun heq => hother (Option.some.inj heq).symm

theorem Inv.inside_header (h : Inv channel s) {i : Nat} (field : Nat) (hi : i < s.log.count)
    (hfield : field + 8 ≤ 32) : Inside channel.capacity_bytes s.log.message s.log.count
      ⟨i, offset s.log.message i % channel.capacity_bytes + field, 8⟩ := by
  have hsize := h.size_spec hi
  refine ⟨hi, field, by simp only; omega, fun k hk => ?_⟩
  rw [Nat.add_assoc (offset s.log.message i)]
  exact channel.header_field (h.aligned hi.le) (by simp only at hk; omega)

theorem Inv.inside_payload (h : Inv channel s) {i k : Nat} (hi : i < s.log.count)
    (hk : k < (s.log.message i).length) : Inside channel.capacity_bytes s.log.message s.log.count
      ⟨i, payload_byte channel.capacity_bytes (offset s.log.message i) (s.log.message i).length k, 1⟩ := by
  have hsize := h.size_spec hi
  refine ⟨hi, 32 + k, by simp only; omega, fun l hl => ?_⟩
  simp only at hl ⊢
  rw [payload_byte_eq (h.placed.fits i hi) hk, show l = 0 by omega, Nat.add_assoc (offset s.log.message i)]
  rfl

/-- An access of the holder of a record that changes nothing but the history. -/
theorem Inv.access (h : Inv channel s) {a : Access}
    (ha : Inside channel.capacity_bytes s.log.message s.log.count a) :
    Inv channel (set_ring (fun r => { r with accesses := a :: r.accesses }) s) ∧
      ∀ other, Rely channel other s (set_ring (fun r => { r with accesses := a :: r.accesses }) s) := by
  refine ⟨{ h with accesses := fun b hb => ?_ }, fun other => { Rely.refl channel other s with }⟩
  rcases List.mem_cons.mp hb with rfl | hb
  · exact ha
  · exact h.accesses b hb

/-- A record that is not yet handed out changes its phase. -/
theorem Phased.update_ahead {phase : Nat → Phase} {count claimed reclaimed i : Nat} {new : Phase}
    (h : Phased phase count claimed reclaimed) (hreclaimed : reclaimed ≤ claimed) (hi : claimed ≤ i)
    (hi' : i < count) (hconsumed : new ≠ .consumed) (hvacant : new ≠ .vacant)
    (hclaimed : ∀ pid, new = .claimed pid → i = claimed) :
    Phased (Function.update phase i new) count claimed reclaimed := by
  have hother {j : Nat} (hj : j ≠ i) : Function.update phase i new j = phase j :=
    Function.update_of_ne hj _ _
  refine ⟨fun j hj => ?_, fun j hj => ?_, fun j hj => ?_, fun j pid hj => ?_, fun j hj => ?_, fun j hj => ?_⟩
  · rw [hother (by omega)]
    exact h.reclaimed j hj
  · rw [hother (by omega)]
    exact h.behind j hj
  · by_cases hji : j = i
    · rwa [hji, Function.update_self]
    · rw [hother hji]
      exact h.ahead j hj
  · by_cases hji : j = i
    · rw [hji, Function.update_self]
      intro hnew
      have := hclaimed pid hnew
      omega
    · rw [hother hji]
      exact h.beyond j pid hj
  · by_cases hji : j = i
    · rwa [hji, Function.update_self]
    · rw [hother hji]
      exact h.occupied j hj
  · rw [hother (by omega)]
    exact h.vacant j hj

/-- The store of a token in a record that is not yet handed out: its
    publication or its claim. -/
theorem Inv.ahead_token (h : Inv channel s) {i t : Nat} (new : Phase) (hi : s.log.claimed ≤ i)
    (hi' : i < s.log.count) (htoken : token_of new = some t) (ht : t < 3)
    (hclaimed : ∀ other, new = .claimed other → i = s.log.claimed ∧ s.receiving other = true)
    (hreserved : ∀ other, new ≠ .reserved other)
    (hbody : Body channel.capacity_bytes s.ring.data (offset s.log.message i) (s.log.message i)) :
    Inv channel { s with
      log := { s.log with phase := Function.update s.log.phase i new }
      ring := { s.ring with
        data := store64 s.ring.data (offset s.log.message i % channel.capacity_bytes)
          (offset s.log.message i + t) } } := by
  have hlive : s.ring.reclaimed ≤ i ∧ i < s.log.count := ⟨h.placed.reclaimed_le.trans hi, hi'⟩
  have hvacant : new ≠ .vacant := by
    rintro rfl
    cases htoken
  have hconsumed : new ≠ .consumed := by
    rintro rfl
    cases htoken
    omega
  have hbehind {j : Nat} (hj : j < s.log.claimed) : Function.update s.log.phase i new j = s.log.phase j :=
    Function.update_of_ne (by omega) _ _
  exact { h with
    phased := h.phased.update_ahead h.placed.reclaimed_le hi hi' hconsumed hvacant
      fun other hnew => (hclaimed other hnew).1
    stored := h.stored_token new hlive htoken (by omega) hbody
    unmistakable := fun htame => h.unmistakable_token new htame hlive htoken (by omega)
    owed := fun hlt hfirst => h.owed hlt (by rwa [← hbehind hlt])
    receiving := by
      rintro other (howes | ⟨j, hj⟩)
      · exact h.receiving other (.inl howes)
      · by_cases hji : j = i
        · subst hji
          simp only [Function.update_self] at hj
          exact (hclaimed other hj).2
        · simp only [Function.update_of_ne hji] at hj
          exact h.receiving other (.inr ⟨j, hj⟩)
    delivered := by
      intro x hx
      obtain ⟨hphase, hvalue⟩ := h.delivered x hx
      refine ⟨?_, hvalue⟩
      apply consumed_update _ _ hphase
      exact h.phased.ahead i hi
    finishers := h.finishers.update_phase (h.phased.ahead i hi)
    senders := h.senders.update_phase fun other hnew => absurd hnew (hreserved other) }

/-- The publication of a reserved record whose bytes are complete. -/
theorem Inv.after_publish (h : Inv channel s) {i position : Nat} (hphase : s.log.phase i = .reserved pid)
    (hposition : offset s.log.message i = position)
    (hbody : Body channel.capacity_bytes s.ring.data position (s.log.message i)) :
    Inv channel (publish channel pid i position s) ∧
      ∀ other, other ≠ pid → Rely channel other s (publish channel pid i position s) := by
  subst hposition
  have hi : s.ring.reclaimed ≤ i ∧ i < s.log.count := h.live_of_holder (by rw [hphase]; rfl)
  have hconsumed : s.log.phase i ≠ .consumed := by
    rw [hphase]
    exact Phase.noConfusion
  have hahead : s.log.claimed ≤ i := by
    by_contra hlt
    rcases h.phased.behind i (by omega) with hbehind | ⟨other, hbehind⟩
    · exact hconsumed hbehind
    · rw [hphase] at hbehind
      cases hbehind
  have hsmall := h.placed.offset_le hi.2 channel.bounded
  have htoken : published_token (offset s.log.message i) = offset s.log.message i + 1 :=
    published_token_eq (by omega)
  have hsize := h.size_spec hi.2
  constructor
  · have hinv := h.ahead_token .published hahead hi.2 rfl (by omega)
      (fun other hnew => by cases hnew) (fun _ => Phase.noConfusion) hbody
    rw [← htoken] at hinv
    have haccess := (hinv.access (h.inside_header 0 hi.2 (by omega))).1
    exact { haccess with }
  · intro other hother
    have hholder : holder (s.log.phase i) ≠ some other := by
      rw [hphase]
      exact fun heq => hother (Option.some.inj heq).symm
    exact { Rely.refl channel other s with
      held := held_update hholder
      fresh := fresh_update (Option.some_ne_none other).symm
      bytes := h.others_bytes hi hholder
        (writesInside_store64 0 (h.aligned hi.2.le) (by omega) (by omega))
      consumed := consumed_update hconsumed
      taken := taken_update fun htaken => by rw [hphase] at htaken; cases htaken
      delivered := fun x hx => .inl hx }

/-- The claim of the published head record. -/
theorem Inv.after_claim (h : Inv channel s) {position : Nat} (hreceiving : s.receiving pid = true)
    (hphase : s.log.phase s.log.claimed = .published)
    (hposition : offset s.log.message s.log.claimed = position) :
    Inv channel (claim channel pid position s) ∧
      ∀ other, other ≠ pid → Rely channel other s (claim channel pid position s) := by
  subst hposition
  have hi : s.ring.reclaimed ≤ s.log.claimed ∧ s.log.claimed < s.log.count :=
    h.live (by rw [hphase]; exact Phase.noConfusion) (by rw [hphase]; exact Phase.noConfusion)
  have hsmall := h.placed.offset_le hi.2 channel.bounded
  have htoken : claimed_token (offset s.log.message s.log.claimed) =
      offset s.log.message s.log.claimed + 2 := claimed_token_eq (by omega)
  have hsize := h.size_spec hi.2
  have hbody := (h.stored _ hi.1 hi.2).body 1 (by rw [hphase]; rfl)
  constructor
  · have hinv := h.ahead_token (.claimed pid) le_rfl hi.2 rfl (by omega)
      (fun other hnew => ⟨rfl, by cases hnew; exact hreceiving⟩) (fun _ => Phase.noConfusion) hbody
    rw [← htoken] at hinv
    exact { hinv with
      honest := by
        rw [claim, hphase, h.honest]
        simp }
  · intro other hother
    have hholder : holder (s.log.phase s.log.claimed) ≠ some other := by
      rw [hphase]
      exact (Option.some_ne_none other).symm
    exact { Rely.refl channel other s with
      held := held_update hholder
      fresh := fresh_update fun heq => hother (Option.some.inj heq).symm
      bytes := h.others_bytes hi hholder
        (writesInside_store64 0 (h.aligned hi.2.le) (by omega) (by omega))
      consumed := consumed_update (by rw [hphase]; exact Phase.noConfusion)
      taken := taken_update fun _ => rfl
      delivered := fun x hx => .inl hx
      head := fun _ => rfl }

/-- Records that lie behind each other start at different positions. -/
theorem Inv.offset_lt (h : Inv channel s) {i j : Nat} (hij : i < j) (hj : j ≤ s.log.count) :
    offset s.log.message i < offset s.log.message j := by
  have hsize := h.size_spec (show i < s.log.count by omega)
  have hnext : offset s.log.message (i + 1) ≤ offset s.log.message j := offset_mono hij
  rw [offset] at hnext
  omega

theorem Inside.congr {capacity count count' : Nat} {message message' : Nat → Bytes} {a : Access}
    (h : Inside capacity message count a) (hcount : count ≤ count')
    (hmessage : ∀ i < count, message' i = message i) : Inside capacity message' count' a := by
  obtain ⟨hindex, j, hj, hbytes⟩ := h
  have hoffset : offset message' a.index = offset message a.index :=
    offset_congr fun i hi => hmessage i (by omega)
  refine ⟨by omega, j, by rwa [hmessage _ hindex], fun k hk => ?_⟩
  rw [hoffset]
  exact hbytes k hk

/-- The reservation of a record that fits the free space. -/
theorem Inv.after_reserve (h : Inv channel s) {position : Nat} {message : Bytes}
    (hguard : pid ∈ s.guards)
    (hposition : s.ring.write_position = position)
    (hfits : message.length + 32 ≤ channel.capacity_bytes)
    (hroom : position + record_size message.length ≤ s.ring.reclaim_position + channel.capacity_bytes)
    (hsane : Sane (reserve pid position message s)) :
    Inv channel (reserve pid position message s) ∧
      ∀ other, other ≠ pid → Rely channel other s (reserve pid position message s) := by
  have hplace := h.placed.write_position
  rw [hposition] at hplace
  subst hplace
  have hmessage {i : Nat} (hi : i < s.log.count) :
      Function.update s.log.message s.log.count message i = s.log.message i :=
    Function.update_of_ne (by omega) _ _
  have hoffset {i : Nat} (hi : i ≤ s.log.count) :
      offset (Function.update s.log.message s.log.count message) i = offset s.log.message i :=
    offset_congr fun j hj => hmessage (by omega)
  have hnext : offset (Function.update s.log.message s.log.count message) (s.log.count + 1) =
      offset s.log.message s.log.count + record_size message.length := by
    rw [offset, hoffset le_rfl, Function.update_self]
  have htotal := hsane.total
  simp only [reserve] at htotal
  rw [hnext] at htotal
  have hphase {i : Nat} (hi : i ≠ s.log.count) :
      Function.update s.log.phase s.log.count (.reserved pid) i = s.log.phase i :=
    Function.update_of_ne hi _ _
  have hvacant := h.phased.vacant s.log.count le_rfl
  have hlt {i : Nat} {phase : Phase} (hi : s.log.phase i = phase) (hnot : phase ≠ .vacant) :
      i < s.log.count := by
    by_contra hge
    exact hnot (hi ▸ h.phased.vacant i (by omega))
  have hclaimed := h.placed.claimed_le
  have hreclaimed := h.placed.reclaimed_le
  constructor
  · exact
      { placed :=
          { reclaimed_le := hreclaimed
            claimed_le := by simp only [reserve]; omega
            fits := by
              intro i hi
              simp only [reserve] at hi ⊢
              by_cases hcount : i = s.log.count
              · rwa [hcount, Function.update_self]
              · rw [hmessage (by omega)]
                exact h.placed.fits i (by omega)
            write_position := by
              simp only [reserve]
              rw [hnext]
              exact add64_of_lt htotal
            claim_position := h.placed.claim_position.trans (hoffset hclaimed).symm
            reclaim_position := h.placed.reclaim_position.trans (hoffset (by omega)).symm
            room := by
              simp only [reserve]
              rw [hnext, hoffset (by omega), ← h.placed.reclaim_position]
              exact hroom
            total := by
              simp only [reserve]
              rw [hnext]
              exact htotal }
        phased :=
          { reclaimed := by
              intro i hi
              simp only [reserve] at hi ⊢
              rw [hphase (by omega)]
              exact h.phased.reclaimed i hi
            behind := by
              intro i hi
              simp only [reserve] at hi ⊢
              rw [hphase (by omega)]
              exact h.phased.behind i hi
            ahead := by
              intro i hi
              simp only [reserve] at hi ⊢
              by_cases hcount : i = s.log.count
              · rw [hcount, Function.update_self]
                exact Phase.noConfusion
              · rw [hphase hcount]
                exact h.phased.ahead i hi
            beyond := by
              intro i other hi
              simp only [reserve] at hi ⊢
              by_cases hcount : i = s.log.count
              · rw [hcount, Function.update_self]
                exact Phase.noConfusion
              · rw [hphase hcount]
                exact h.phased.beyond i other hi
            occupied := by
              intro i hi
              simp only [reserve] at hi ⊢
              by_cases hcount : i = s.log.count
              · rw [hcount, Function.update_self]
                exact Phase.noConfusion
              · rw [hphase hcount]
                exact h.phased.occupied i (by omega)
            vacant := by
              intro i hi
              simp only [reserve] at hi ⊢
              rw [hphase (by omega)]
              exact h.phased.vacant i (by omega) }
        stored := by
          intro i hi hi'
          simp only [reserve] at hi hi' ⊢
          by_cases hcount : i = s.log.count
          · rw [hcount, Function.update_self _ (Phase.reserved pid) s.log.phase]
            exact ⟨fun t ht => (by cases ht), fun t ht => (by cases ht)⟩
          · rw [hphase hcount, hmessage (by omega), hoffset (by omega)]
            exact h.stored i hi (by omega)
        unmistakable := by
          intro htame x hx hx32 hbyte
          have hold : AllTame s := by
            intro i hi
            have := htame i (by simp only [reserve]; omega)
            simp only [reserve] at this
            rwa [hmessage hi] at this
          obtain ⟨i, hi, rfl⟩ := h.unmistakable hold x hx hx32 hbyte
          have hcount := hlt hi Phase.noConfusion
          refine ⟨i, ?_, ?_⟩
          · simp only [reserve]
            rw [hphase (by omega), hi]
          · simp only [reserve]
            rw [hoffset hcount.le]
        honest := h.honest
        locked := h.locked
        owed := by
          intro hlt hfirst
          simp only [reserve] at hlt hfirst
          rw [hphase (by omega)] at hfirst
          exact h.owed hlt hfirst
        receiving := by
          rintro other (howes | ⟨i, hi⟩)
          · exact h.receiving other (.inl howes)
          · simp only [reserve] at hi
            by_cases hcount : i = s.log.count
            · rw [hcount, Function.update_self] at hi
              cases hi
            · rw [hphase hcount] at hi
              exact h.receiving other (.inr ⟨i, hi⟩)
        delivered := by
          intro x hx
          obtain ⟨hconsumed, hvalue⟩ := h.delivered x hx
          have hcount := hlt hconsumed Phase.noConfusion
          exact ⟨(hphase (by omega)).trans hconsumed, hvalue.trans (hmessage hcount).symm⟩
        once := h.once
        finishers := h.finishers.update_phase (by rw [hvacant]; exact Phase.noConfusion)
        claims := by
          simp only [reserve]
          rw [h.claims]
          apply List.map_congr_left
          intro i hi
          exact (hoffset (by have := List.mem_range.mp hi; omega)).symm
        accesses := fun a ha => (h.accesses a ha).congr (Nat.le_succ _) fun i hi => hmessage hi
        senders := h.senders.update_phase fun other hnew => by cases hnew; exact hguard }
  · intro other hother
    exact { Rely.refl channel other s with
      toSenderRely := .of_guard hguard le_rfl Iff.rfl
      count := Nat.le_succ _
      message := fun i hi => hmessage hi
      held := held_update (by rw [hvacant]; exact (Option.some_ne_none other).symm)
      fresh := fresh_update fun heq => hother (Option.some.inj heq).symm
      consumed := consumed_update (by rw [hvacant]; exact Phase.noConfusion)
      taken := taken_update fun htaken => by rw [hvacant] at htaken; cases htaken
      delivered := fun x hx => .inl hx }

/-- The exchange of `claim_position` by the process that has claimed the head. -/
theorem Inv.after_advance (h : Inv channel s) {position total_size : Nat}
    (hphase : s.log.phase s.log.claimed = .claimed pid)
    (hposition : offset s.log.message s.log.claimed = position)
    (hsize : total_size = record_size (s.log.message s.log.claimed).length) :
    Inv channel (advance pid position total_size s) ∧
      ∀ other, other ≠ pid → Rely channel other s (advance pid position total_size s) := by
  subst hposition hsize
  have hi := (h.live_of_holder (i := s.log.claimed) (by rw [hphase]; rfl)).2
  have hnext : offset s.log.message (s.log.claimed + 1) ≤ offset s.log.message s.log.count := offset_mono hi
  have htotal := h.placed.total
  have hreclaimed := h.placed.reclaimed_le
  constructor
  · exact { h with
      placed := { h.placed with
        reclaimed_le := by simp only [advance]; omega
        claimed_le := hi
        claim_position := add64_of_lt (by rw [offset] at hnext; omega) }
      phased := { h.phased with
        behind := by
          intro i hi'
          simp only [advance] at hi' ⊢
          by_cases hclaimed : i = s.log.claimed
          · exact .inr ⟨pid, hclaimed ▸ hphase⟩
          · exact h.phased.behind i (by omega)
        ahead := fun i hi' => h.phased.ahead i (by simp only [advance] at hi'; omega)
        beyond := fun i other hi' => h.phased.beyond i other (by simp only [advance] at hi'; omega) }
      owed := by
        intro hlt hfirst
        simp only [advance] at hlt hfirst
        by_cases hclaimed : s.ring.reclaimed = s.log.claimed
        · rw [hclaimed, hphase] at hfirst
          cases hfirst
        · exact h.owed (by omega) hfirst
      claims := by
        simp only [advance]
        rw [List.range_succ, List.map_append, ← h.claims]
        rfl }
  · intro other hother
    exact { Rely.refl channel other s with
      claimed := Nat.le_succ _
      head := by
        intro hhead
        rw [hphase] at hhead
        exact absurd (Phase.claimed.inj hhead).symm hother }

/-- The store of `consumed_token` by the process that has claimed the record. -/
theorem Inv.after_consume (h : Inv channel s) {i position : Nat} {value : Option Bytes}
    (hphase : s.log.phase i = .claimed pid) (hi : i < s.log.claimed)
    (hposition : offset s.log.message i = position) (hvalue : ∀ v ∈ value, v = s.log.message i) :
    Inv channel (consume channel pid i position value s) ∧
      ∀ other, other ≠ pid → Rely channel other s (consume channel pid i position value s) := by
  subst hposition
  have hlive := h.live_of_holder (i := i) (by rw [hphase]; rfl)
  have hsmall := h.placed.offset_le hlive.2 channel.bounded
  have htoken : consumed_token (offset s.log.message i) = offset s.log.message i + 3 :=
    consumed_token_eq (by omega)
  have hsize := h.size_spec hlive.2
  have hbody := (h.stored i hlive.1 hlive.2).body 2 (by rw [hphase]; rfl)
  have hnot : s.log.phase i ≠ .consumed := by
    rw [hphase]
    exact Phase.noConfusion
  have hother {j : Nat} (hj : j ≠ i) : Function.update s.log.phase i .consumed j = s.log.phase j :=
    Function.update_of_ne hj _ _
  have hclaimed := h.placed.claimed_le
  have hdata := h.stored_token .consumed hlive rfl (by omega) hbody
  have hunmistakable (htame : AllTame s) :=
    h.unmistakable_token .consumed htame hlive rfl (by omega)
  rw [← htoken] at hdata hunmistakable
  constructor
  · exact { h with
      phased :=
        { reclaimed := fun j hj => by
            simp only [consume]
            rw [consumed_update hnot j (h.phased.reclaimed j hj)]
          behind := by
            intro j hj
            simp only [consume] at hj ⊢
            by_cases hji : j = i
            · exact .inl (by rw [hji, Function.update_self])
            · rw [hother hji]
              exact h.phased.behind j hj
          ahead := by
            intro j hj
            simp only [consume] at hj ⊢
            rw [hother (by omega)]
            exact h.phased.ahead j hj
          beyond := by
            intro j other hj
            simp only [consume] at hj ⊢
            rw [hother (by omega)]
            exact h.phased.beyond j other hj
          occupied := by
            intro j hj
            simp only [consume] at hj ⊢
            by_cases hji : j = i
            · rw [hji, Function.update_self]
              exact Phase.noConfusion
            · rw [hother hji]
              exact h.phased.occupied j hj
          vacant := by
            intro j hj
            simp only [consume] at hj ⊢
            rw [hother (by omega)]
            exact h.phased.vacant j hj }
      stored := hdata
      unmistakable := hunmistakable
      owed := fun _ _ => ⟨pid, Function.update_self _ _ _⟩
      finishers := h.finishers.finish (by rw [hphase, Phase.stage]; omega) le_rfl
      senders := h.senders.update_phase fun other hnew => by cases hnew
      receiving := by
        rintro other (howes | ⟨j, hj⟩)
        · by_cases hpid : other = pid
          · exact h.receiving other (.inr ⟨i, hpid ▸ hphase⟩)
          · simp only [consume, Function.update_of_ne hpid] at howes
            exact h.receiving other (.inl howes)
        · simp only [consume] at hj
          by_cases hji : j = i
          · rw [hji, Function.update_self] at hj
            cases hj
          · rw [hother hji] at hj
            exact h.receiving other (.inr ⟨j, hj⟩)
      delivered := by
        intro x hx
        rcases List.mem_append.mp hx with hx | hx
        · obtain ⟨v, hv, rfl⟩ := List.mem_map.mp hx
          exact ⟨Function.update_self _ _ _, hvalue v (Option.mem_toList.mp hv)⟩
        · obtain ⟨hconsumed, hdelivered⟩ := h.delivered x hx
          exact ⟨consumed_update hnot _ hconsumed, hdelivered⟩
      once := by
        simp only [consume]
        rw [List.map_append]
        have hfresh : i ∉ s.log.delivered.map Prod.fst := by
          intro hmem
          obtain ⟨x, hx, rfl⟩ := List.mem_map.mp hmem
          exact hnot (h.delivered x hx).1
        cases value with
        | none => exact h.once
        | some v => exact List.nodup_cons.mpr ⟨hfresh, h.once⟩
      accesses := by
        intro b hb
        rcases List.mem_cons.mp hb with rfl | hb
        · exact h.inside_header 0 hlive.2 (by omega)
        · exact h.accesses b hb }
  · intro other hother'
    have hholder : holder (s.log.phase i) ≠ some other := by
      rw [hphase]
      exact fun heq => hother' (Option.some.inj heq).symm
    exact { Rely.refl channel other s with
      held := held_update hholder
      fresh := fresh_update (Option.some_ne_none other).symm
      bytes := h.others_bytes hlive hholder
        (writesInside_store64 0 (h.aligned hlive.2.le) (by omega) (by omega))
      consumed := consumed_update hnot
      taken := taken_update fun _ => rfl
      delivered := by
        intro x hx
        rcases List.mem_append.mp hx with hx | hx
        · obtain ⟨v, _, rfl⟩ := List.mem_map.mp hx
          exact .inr hnot
        · exact .inl hx
      kept := fun x hx => List.mem_append_right _ hx
      owes_scan := Function.update_of_ne hother' _ _
      last := Function.update_of_ne hother' _ _ }

/-- The exchange of `reclaim_position` by the holder of the reclaim lock. -/
theorem Inv.after_reclaim (h : Inv channel s) {position total_size : Nat}
    (hlocker : s.ring.locker = some pid) (howes : s.ring.owes_scan pid = true)
    (hlt : s.ring.reclaimed < s.log.claimed) (hphase : s.log.phase s.ring.reclaimed = .consumed)
    (hposition : offset s.log.message s.ring.reclaimed = position)
    (hsize : total_size = record_size (s.log.message s.ring.reclaimed).length) :
    Inv channel (reclaim pid position total_size s) ∧
      ∀ other, other ≠ pid → Rely channel other s (reclaim pid position total_size s) := by
  subst hposition hsize
  have hclaimed := h.placed.claimed_le
  have hnext : offset s.log.message (s.ring.reclaimed + 1) ≤ offset s.log.message s.log.count :=
    offset_mono (by omega)
  have htotal := h.placed.total
  have hroom := h.placed.room
  constructor
  · exact { h with
      placed := { h.placed with
        reclaimed_le := hlt
        reclaim_position := add64_of_lt (by rw [offset] at hnext; omega)
        room := by
          simp only [reclaim]
          rw [offset]
          omega }
      phased := { h.phased with
        reclaimed := by
          intro i hi
          simp only [reclaim] at hi ⊢
          by_cases hreclaimed : i = s.ring.reclaimed
          · rwa [hreclaimed]
          · exact h.phased.reclaimed i (by omega) }
      stored := fun i hi => h.stored i (by simp only [reclaim] at hi; omega)
      owed := fun _ _ => ⟨pid, howes⟩ }
  · intro other hother
    exact { Rely.refl channel other s with
      reclaimed := Nat.le_succ _
      scanning := by
        intro hother'
        rw [hlocker] at hother'
        exact absurd (Option.some.inj hother').symm hother }

/-- The reclaim lock changes hands. -/
theorem Inv.set_lock (h : Inv channel s) (locker : Option Nat)
    (hold : s.ring.locker = none ∨ s.ring.locker = some pid) (hnew : locker = none ∨ locker = some pid) :
    Inv channel (set_ring (fun r =>
        { r with reclaim_lock := if locker.isSome then 1 else 0, locker := locker }) s) ∧
      ∀ other, other ≠ pid → Rely channel other s (set_ring (fun r =>
        { r with reclaim_lock := if locker.isSome then 1 else 0, locker := locker }) s) := by
  refine ⟨{ h with locked := rfl }, fun other hother => ?_⟩
  have hnot {l : Option Nat} (hl : l = none ∨ l = some pid) : ¬ l = some other := by
    rintro rfl
    rcases hl with hl | hl
    · cases hl
    · exact hother (Option.some.inj hl)
  exact { Rely.refl channel other s with
    locker := iff_of_false (hnot hnew) (hnot hold) }

/-- A scan may end when the first record that is not reclaimed is not consumed. -/
theorem Inv.after_scan (h : Inv channel s) (pid : Nat)
    (hnone : s.ring.reclaimed < s.log.claimed → s.log.phase s.ring.reclaimed ≠ .consumed) :
    Inv channel (set_ring (fun r => { r with owes_scan := Function.update r.owes_scan pid false }) s) ∧
      ∀ other, other ≠ pid → Rely channel other s
        (set_ring (fun r => { r with owes_scan := Function.update r.owes_scan pid false }) s) := by
  refine ⟨{ h with
    owed := fun hlt hfirst => absurd hfirst (hnone hlt)
    receiving := ?_ }, fun other hother => { Rely.refl channel other s with
      owes_scan := Function.update_of_ne hother _ _ }⟩
  rintro other (howes | hclaim)
  · by_cases hpid : other = pid
    · subst hpid
      simp only [set_ring, Function.update_self] at howes
      cases howes
    · simp only [set_ring, Function.update_of_ne hpid] at howes
      exact h.receiving other (.inl howes)
  · exact h.receiving other (.inr hclaim)

end

end shmchan.byte_channel
