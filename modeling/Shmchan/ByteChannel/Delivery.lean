import Shmchan.ByteChannel.Runs

open process shmchan.endpoint

namespace shmchan.byte_channel

/-- Fewer than 2^63 bytes have been reserved, and either all messages so far
    are tame, or no receiver has met the publish token of its position in bytes
    that are not the state word of the published head. -/
structure Unforged (s : Memory) : Prop where
  total : offset s.log.message s.log.count < 2 ^ 63
  genuine : AllTame s ∨ s.ring.forged = false

/-- What the receivers have done so far is in order: they have claimed the
    published records one after another, each finished its own, and copied each
    message at most once and whole, inside the record. -/
structure InOrder (channel : ByteChannel) (s : Memory) : Prop where
  genuine : s.ring.forged = false
  claims : s.ring.claims = (List.range s.log.claimed).map (offset s.log.message)
  claimed : ∀ i < s.log.claimed, (s.log.phase i).taken = true
  delivered : ∀ x ∈ s.log.delivered, x.1 < s.log.claimed ∧ x.2 = s.log.message x.1
  once : (s.log.delivered.map Prod.fst).Nodup
  alone : ∀ pid pid' index, s.ring.last pid = some index → s.ring.last pid' = some index → pid = pid'
  accesses : ∀ a ∈ s.ring.accesses, Inside channel.capacity_bytes s.log.message s.log.count a

/-- The ring space of a channel is used safely. -/
structure SpaceSafe (channel : ByteChannel) (s : Memory) : Prop where
  order : s.ring.reclaim_position ≤ s.ring.claim_position ∧ s.ring.claim_position ≤ s.ring.write_position ∧
    s.ring.write_position ≤ s.ring.reclaim_position + channel.capacity_bytes
  aligned : s.ring.reclaim_position % 32 = 0 ∧ s.ring.claim_position % 32 = 0 ∧
    s.ring.write_position % 32 = 0
  accesses : ∀ a ∈ s.ring.accesses, Inside channel.capacity_bytes s.log.message s.log.count a
  disjoint : ∀ i j k l, i ≠ j → holder (s.log.phase i) ≠ none → holder (s.log.phase j) ≠ none →
    k < record_size (s.log.message i).length → l < record_size (s.log.message j).length →
      (offset s.log.message i + k) % channel.capacity_bytes ≠
        (offset s.log.message j + l) % channel.capacity_bytes
  reclaimed : (∀ pid, s.receiving pid = false) → s.ring.reclaim_position = s.ring.claim_position

section

variable {channel : ByteChannel} {pid : Nat} {s : Memory} {c c' : Config Memory (Reply Bytes) Nat}

theorem Unforged.sane (h : Unforged s) : Sane s := ⟨by have := h.total; omega, h.genuine⟩

theorem Inv.in_order (h : Inv channel s) : InOrder channel s where
  genuine := h.honest
  claims := h.claims
  claimed i hi := by
    rcases h.phased.behind i hi with hphase | ⟨other, hphase⟩ <;> rw [hphase] <;> rfl
  delivered x hx := by
    obtain ⟨hphase, hvalue⟩ := h.delivered x hx
    refine ⟨?_, hvalue⟩
    by_contra hge
    exact h.phased.ahead x.1 (by omega) hphase
  once := h.once
  alone := h.finishers.alone
  accesses := h.accesses

theorem Inv.space_safe (h : Inv channel s) : SpaceSafe channel s where
  order := by
    have hplaced := h.placed
    rw [hplaced.write_position, hplaced.claim_position, hplaced.reclaim_position]
    exact ⟨offset_mono hplaced.reclaimed_le, offset_mono hplaced.claimed_le, hplaced.room⟩
  aligned := by
    have hplaced := h.placed
    rw [hplaced.write_position, hplaced.claim_position, hplaced.reclaim_position]
    exact ⟨h.aligned (hplaced.reclaimed_le.trans hplaced.claimed_le), h.aligned hplaced.claimed_le,
      h.aligned le_rfl⟩
  accesses := h.accesses
  disjoint := by
    intro i j k l hne hi hj hk hl
    obtain ⟨other, hi⟩ := Option.ne_none_iff_exists'.mp hi
    obtain ⟨other', hj⟩ := Option.ne_none_iff_exists'.mp hj
    have hlive := h.live_of_holder hi
    have hlive' := h.live_of_holder hj
    exact h.placed.disjoint hne hlive.1 hlive.2 hlive'.1 hlive'.2 hk hl
  reclaimed := by
    intro hnone
    rw [h.placed.reclaim_position, h.placed.claim_position, h.all_reclaimed hnone]

/-- The run of `reachable_safe`, with more asked of its states. -/
theorem within_sane {Q : Memory → Prop} (hQ : ∀ s, Q s → Sane s)
    (hreach : ReachableWithin Q (discipline channel) new_channel c) :
    ReachableWithin Sane (discipline channel) new_channel c :=
  hreach.mono hQ

/-- As long as no receiver mistakes payload for a publish token, every message
    is delivered at most once, whole, and in the order of the reservations, and
    no receive fails but for its buffer or its wait. -/
theorem messages_are_delivered (hreach : ReachableWithin Unforged (discipline channel) new_channel c) :
    InOrder channel c.shared ∧
      (∀ pid result, c.procs pid = .ret (.received result) →
        (result.code = .success ↔ result.value.isSome = true) ∧
          ∀ value, result.value = some value →
            ∃ index, c.shared.ring.last pid = some index ∧ (index, value) ∈ c.shared.log.delivered) ∧
      ∀ pid error, c.procs pid = .ret (.threw error) →
        error = .overflow_error "shmchan: too many concurrent senders" ∨
          error = .system_error "futex(FUTEX_WAIT)" ∨ error = .bad_alloc := by
  have hsane := within_sane (fun _ => Unforged.sane) hreach
  refine ⟨(reachable_safe hsane).2.1.in_order, fun pid result hreply => ?_, fun pid error hreply => ?_⟩
  · obtain ⟨_, hsuccess, hgot, _⟩ := reachable_answered hsane hreply
    refine ⟨hsuccess, fun value hvalue => ?_⟩
    have hcode : result.code = .success := by
      rw [hsuccess, hvalue]
      rfl
    exact (hgot (.inl hcode)).1 value hvalue
  · obtain ⟨_, hoverflow | hwait | hfailed⟩ := reachable_answered hsane hreply
    · exact .inl hoverflow
    · exact .inr (.inl hwait)
    · exact .inr (.inr hfailed.1)

/-- The use of the ring is safe in every run with tame messages, and no space
    is lost: a process that is not in a receive keeps none from being reclaimed. -/
theorem ring_space_is_safe
    (hreach : ReachableWithin (fun s => offset s.log.message s.log.count < 2 ^ 63 ∧ AllTame s)
      (discipline channel) new_channel c) :
    SpaceSafe channel c.shared ∧
      ∀ pid reply, c.procs pid = .ret reply → reply ≠ .unfinished → c.shared.receiving pid = false := by
  have hsane := within_sane (fun s hs => ⟨by omega, .inl hs.2⟩) hreach
  refine ⟨(reachable_safe hsane).2.1.space_safe, fun pid reply hreply hended => ?_⟩
  exact (answered_idle hended (reachable_answered hsane hreply)).receiving

/-- A receive that fails for lack of memory loses the message of the record it
    has claimed: nobody ever gets it. -/
theorem failed_receive_loses_message (hreach : ReachableWithin Sane (discipline channel) new_channel c)
    (hfailed : c.procs pid = .ret (.threw .bad_alloc)) :
    ∃ index, c.shared.ring.last pid = some index ∧ index < c.shared.log.count ∧
      ∀ later, ReachableWithin Sane (discipline channel) c later → Lost index later.shared := by
  obtain ⟨hsane, hinv, hsafe⟩ := reachable_safe hreach
  obtain ⟨_, hoverflow | hwait | ⟨_, index, hlast, hlost⟩⟩ := reachable_answered hreach hfailed
  · cases hoverflow
  · cases hwait
  · refine ⟨index, hlast, ?_, fun later hlater => ?_⟩
    · by_contra hge
      have hvacant := hinv.phased.vacant index (by omega)
      rw [hlost.1] at hvacant
      cases hvacant
    · exact (discipline_adequate channel).keeps (fun other => ⟨other + 1, Nat.succ_ne_self other⟩)
        (fun other => lost_stable channel other index) hsane hinv hsafe hlost hlater

end

instance (message : Bytes) : Decidable (Tame message) :=
  inferInstanceAs (Decidable (∀ (k : Nat) (hk : k < message.length), k % 32 = 0 → message[k].toNat % 32 ≠ 1))

instance (s : Memory) : Decidable (AllTame s) :=
  inferInstanceAs (Decidable (∀ i < s.log.count, Tame (s.log.message i)))

/-- Fewer than 2^63 bytes, and all messages are tame. -/
def tame_check (s : Memory) : Bool := decide (offset s.log.message s.log.count < 2 ^ 63 ∧ AllTame s)

theorem tame_check_unforged (s : Memory) (h : tame_check s = true) : Unforged s :=
  ⟨(of_decide_eq_true h).1, .inl (of_decide_eq_true h).2⟩

theorem tame_check_sane (s : Memory) (h : tame_check s = true) : Sane s := (tame_check_unforged s h).sane

/-- Process 0 has sent one byte, and process 1 has tried to receive it. -/
def one_byte (chances : DequeueChances) : Config Memory (Reply Bytes) Nat :=
  call two_records (call two_records new_channel 0 (.try_send [7] [false] fair_enqueue) 60) 1
    (.try_receive chances fair_dequeue) 60

theorem one_byte_reachable {Q : Memory → Prop} (hQ : ∀ s, tame_check s = true → Q s) {chances : DequeueChances}
    (hstays : call_stays two_records tame_check
      (call two_records new_channel 0 (.try_send [7] [false] fair_enqueue) 60) 1
      (.try_receive chances fair_dequeue) 60 = true) :
    ReachableWithin Q (discipline two_records) new_channel (one_byte chances) := by
  have hsent : ReachableWithin Q (discipline two_records) new_channel
      (call two_records new_channel 0 (.try_send [7] [false] fair_enqueue) 60) := by
    apply reachable_call .refl hQ
    decide +kernel
  exact reachable_call hsent hQ hstays

theorem messages_are_delivered_one_byte :
    ∃ index, (one_byte fair_dequeue).shared.ring.last 1 = some index ∧
      (index, [7]) ∈ (one_byte fair_dequeue).shared.log.delivered := by
  have hreach : ReachableWithin Unforged (discipline two_records) new_channel (one_byte fair_dequeue) :=
    one_byte_reachable tame_check_unforged (by decide +kernel)
  have hreply : (one_byte fair_dequeue).procs 1 = .ret (.received { code := .success, value := some [7] }) :=
    Prog.eq_ret_of_shown (by decide +kernel)
  exact ((messages_are_delivered hreach).2.1 1 _ hreply).2 [7] rfl

theorem ring_space_is_safe_one_byte : SpaceSafe two_records (one_byte fair_dequeue).shared :=
  (ring_space_is_safe (one_byte_reachable (fun _ hs => of_decide_eq_true hs) (by decide +kernel))).1

theorem failed_receive_loses_message_one_byte :
    ∃ index, Lost index (one_byte { fair_dequeue with alloc_fails := true }).shared := by
  have hreach : ReachableWithin Sane (discipline two_records) new_channel
      (one_byte { fair_dequeue with alloc_fails := true }) :=
    one_byte_reachable tame_check_sane (by decide +kernel)
  have hreply : (one_byte { fair_dequeue with alloc_fails := true }).procs 1 = .ret (.threw .bad_alloc) :=
    Prog.eq_ret_of_shown (by decide +kernel)
  obtain ⟨index, _, _, hlost⟩ := failed_receive_loses_message hreach hreply
  exact ⟨index, hlost _ .refl⟩

/-- The buffer of a receive is refused: the next receive finds nothing. -/
theorem message_is_lost :
    ∃ c, ReachableWithin Sane (discipline two_records) new_channel c ∧
      c.procs 0 = .ret (.sent .success) ∧ c.procs 1 = .ret (.threw .bad_alloc) ∧
      c.procs 2 = .ret (.received { code := .would_block }) := by
  have hreach : ReachableWithin Sane (discipline two_records) new_channel
      (one_byte { fair_dequeue with alloc_fails := true }) :=
    one_byte_reachable tame_check_sane (by decide +kernel)
  refine ⟨call two_records (one_byte { fair_dequeue with alloc_fails := true }) 2 receive_once 60, ?_, ?_, ?_, ?_⟩
  · exact reachable_call hreach tame_check_sane (by decide +kernel)
  all_goals
    apply Prog.eq_ret_of_shown
    decide +kernel

/-- A message whose first word is the publish token of position 96. -/
def forging_message : Bytes := 97 :: List.replicate 31 0

/-- The forging message has gone through the ring, and so has an empty one
    behind it; then a sender has reserved the record at position 96 and stored
    nothing yet, and a receiver tries. -/
def forged : Config Memory (Reply Bytes) Nat :=
  let c := call two_records new_channel 0 (.try_send forging_message [false] fair_enqueue) 60
  let c := call two_records c 1 receive_once 100
  let c := call two_records c 0 send_empty 60
  let c := call two_records c 1 receive_once 60
  let c := call two_records c 0 send_empty 6
  call two_records c 1 receive_once 60

/-- The receiver claims the record that is not published, and finds it corrupt. -/
theorem forged_token_is_claimed :
    ReachableWithin (fun s => offset s.log.message s.log.count < 2 ^ 63) (discipline two_records)
        new_channel forged ∧
      (forged.procs 0).shown = none ∧ forged.shared.log.phase 2 = .consumed ∧
      forged.procs 1 = .ret (.threw (.runtime_error "shmchan: corrupt byte-channel record in ch")) := by
  have hsmall (s : Memory) (hs : decide (offset s.log.message s.log.count < 2 ^ 63) = true) :=
    of_decide_eq_true hs
  refine ⟨?_, by decide +kernel, by decide +kernel, Prog.eq_ret_of_shown (by decide +kernel)⟩
  apply reachable_call _ hsmall (by decide +kernel)
  apply reachable_call _ hsmall (by decide +kernel)
  apply reachable_call _ hsmall (by decide +kernel)
  apply reachable_call _ hsmall (by decide +kernel)
  apply reachable_call _ hsmall (by decide +kernel)
  exact reachable_call .refl hsmall (by decide +kernel)

end shmchan.byte_channel
