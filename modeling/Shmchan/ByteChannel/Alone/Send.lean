import Shmchan.ByteChannel.Alone

open process shmchan.endpoint

namespace shmchan.byte_channel

section

variable {channel : ByteChannel} {o : Outline} {pid index position : Nat} {message : Bytes} {s : Memory}
  {α : Type}

/-- The outline with the record of its number published. -/
def Outline.publish (index : Nat) (o : Outline) : Outline :=
  { o with log := { o.log with phase := Function.update o.log.phase index .published } }

/-- The sender fills and publishes the record that it has reserved. -/
theorem fill_record_alone {pick : Nat} (hfits : message.length + 32 ≤ channel.capacity_bytes)
    (h : Stands channel o s) (hfilling : Filling channel pid index position message 0 0 s) :
    AloneWithin (Inv channel) (fun _ s' => Stands channel (o.publish index) s')
      (fill_record channel pid index position message pick) s := by
  have houtline : AloneWithin Sane (fun _ s' => outline s' = o.publish index)
      (fill_record channel pid index position message pick) s := by
    unfold fill_record
    apply (same_alone (same_store_word _ _ _ _ _) (Prog.nonBlocking_store _) h.inv.sane h.outlined).bind
    rintro _ s₁ ⟨_, hsane₁, h₁⟩
    apply (same_alone (same_store_word _ _ _ _ _) (Prog.nonBlocking_store _) hsane₁ h₁).bind
    rintro _ s₂ ⟨_, hsane₂, h₂⟩
    apply (same_alone (same_store_word _ _ _ _ _) (Prog.nonBlocking_store _) hsane₂ h₂).bind
    rintro _ s₃ ⟨_, hsane₃, h₃⟩
    apply (same_alone (same_copy_to_record _ _ _ _ _ _) (nonBlocking_copy_to_record _ _ _ _ _ _) hsane₃ h₃).bind
    rintro _ s₄ ⟨_, hsane₄, h₄⟩
    have hsane₅ : Sane (publish channel pid index position s₄) := ⟨hsane₄.total, hsane₄.honest⟩
    have h₅ : outline (publish channel pid index position s₄) = o.publish index := by
      rw [← h₄]
      rfl
    refine ⟨rfl, hsane₅, ?_⟩
    apply (same_alone ((undisturbed_bump pid .readable).mono same_of_undisturbed fun _ => id)
      (nonBlocking_bump pid .readable) hsane₅ h₅).bind
    rintro _ s₆ ⟨_, hsane₆, h₆⟩
    apply (same_alone ((undisturbed_wake_one pid .readable pick).mono same_of_undisturbed fun _ => id)
      (nonBlocking_wake_one pid .readable pick) hsane₆ h₆).mono
    exact fun _ _ h' => h'.2.2
  apply (houtline.safe (fill_record_safe hfits hfilling) (Rely.refl channel) h.inv h.inv.sane).mono
  exact fun _ s' h' => ⟨h'.2.2, h'.1⟩

/-- The outline after a successful try to send. -/
def Outline.enqueue (message : Bytes) (o : Outline) : Outline :=
  { o with log := { o.log with
      count := o.log.count + 1
      message := Function.update o.log.message o.log.count message
      phase := Function.update o.log.phase o.log.count .published } }

/-- The test of `try_enqueue` for a full ring, when it runs alone. -/
theorem Stands.full_iff (h : Stands channel o s) {size : Nat} (hsize : size + 32 ≤ channel.capacity_bytes) :
    (sub64 s.ring.write_position s.ring.reclaim_position > channel.capacity_bytes ∨
      record_size size > channel.capacity_bytes - sub64 s.ring.write_position s.ring.reclaim_position) ↔
    ¬ o.Room channel size := by
  obtain ⟨hinv, rfl⟩ := h
  have hplaced := hinv.placed
  have hroom := hplaced.room
  have htotal := hplaced.total
  have hle : offset s.log.message s.ring.reclaimed ≤ offset s.log.message s.log.count :=
    offset_mono (hplaced.reclaimed_le.trans hplaced.claimed_le)
  have hcap := channel.record_size_le hsize
  have hgoal : offset s.log.message s.log.count + record_size size ≤
      offset s.log.message s.ring.reclaimed + channel.capacity_bytes ↔
        (outline s).Room channel size := Iff.rfl
  rw [hplaced.write_position, hplaced.reclaim_position, sub64_of_le hle htotal, ← hgoal]
  omega

/-- The loads of a try change nothing that matters. -/
theorem Stands.note (h : Stands channel o s) (pid position required : Nat) :
    Stands channel o (note_room channel pid position required s) := by
  refine ⟨?_, h.outlined⟩
  exact (h.inv.note _ s.ring.required _ s.writable).1

theorem enqueue_loop_full {pick : Nat} {attempts : List Bool}
    (hfits : message.length + 32 ≤ channel.capacity_bytes) (hfull : ¬ o.Room channel message.length)
    (h : Stands channel o s) :
    AloneWithin (Inv channel) (fun ended s' => ended = .returned false ∧ Stands channel o s')
      (enqueue_loop channel pid message pick attempts s.ring.write_position) s := by
  have hnoted := h.note pid s.ring.write_position (record_size message.length)
  unfold enqueue_loop
  apply AloneWithin.modifyGet hnoted.inv
  rw [if_pos ((h.full_iff hfits).mpr hfull)]
  exact ⟨rfl, hnoted⟩

/-- One more record. -/
theorem offset_snoc (log : Nat → Bytes) (count : Nat) (message : Bytes) :
    offset (Function.update log count message) (count + 1) = offset log count + record_size message.length := by
  have hbefore : offset (Function.update log count message) count = offset log count :=
    offset_congr fun i hi => Function.update_of_ne (by omega) _ _
  rw [offset, hbefore, Function.update_self]

/-- The outline after the exchange of `write_position`. -/
def Outline.reserve (pid : Nat) (message : Bytes) (o : Outline) : Outline :=
  { o with log := { o.log with
      count := o.log.count + 1
      message := Function.update o.log.message o.log.count message
      phase := Function.update o.log.phase o.log.count (.reserved pid) } }

theorem Stands.reserve (h : Stands channel o s) (hguard : pid ∈ s.guards)
    (hfits : message.length + 32 ≤ channel.capacity_bytes) (hroom : o.Room channel message.length)
    (htotal : offset o.log.message o.log.count + record_size message.length < 2 ^ 64) :
    Stands channel (o.reserve pid message) (reserve pid s.ring.write_position message s) := by
  obtain ⟨hinv, rfl⟩ := h
  refine ⟨(hinv.after_reserve hguard rfl hfits ?_ ⟨?_, .inr hinv.honest⟩).1, rfl⟩
  · rw [hinv.placed.write_position, hinv.placed.reclaim_position]
    exact hroom
  · exact (offset_snoc s.log.message s.log.count message).trans_lt htotal

/-- With room, the first exchange that does not fail spuriously succeeds. -/
theorem enqueue_loop_room {pick : Nat} (hfits : message.length + 32 ≤ channel.capacity_bytes)
    (hroom : o.Room channel message.length)
    (htotal : offset o.log.message o.log.count + record_size message.length < 2 ^ 64) :
    ∀ {attempts : List Bool} {s : Memory}, false ∈ attempts → Stands channel o s → Registered pid s →
      AloneWithin (Inv channel)
        (fun ended s' => ended = .returned true ∧ Stands channel (o.enqueue message) s')
        (enqueue_loop channel pid message pick attempts s.ring.write_position) s := by
  intro attempts
  induction attempts with
  | nil => exact fun hnone => absurd hnone List.not_mem_nil
  | cons spurious attempts ih =>
    intro s hattempts h hregistered
    have hnoted := h.note pid s.ring.write_position (record_size message.length)
    have hregistered' : Registered pid (note_room channel pid s.ring.write_position (record_size message.length) s) :=
      ⟨⟨⟨hregistered.holder, hregistered.locker, hregistered.owes_scan⟩, hregistered.receiving⟩,
        hregistered.guard⟩
    unfold enqueue_loop
    apply AloneWithin.modifyGet hnoted.inv
    rw [if_neg (not_not_intro hroom ∘ (h.full_iff hfits).mp)]
    cases spurious with
    | true =>
      apply AloneWithin.no_exchange rfl hnoted.inv
      exact ih (List.mem_of_ne_of_mem Bool.noConfusion hattempts) hnoted hregistered'
    | false =>
      have hreserved := hnoted.reserve hregistered'.guard hfits hroom htotal
      refine AloneWithin.exchange (beq_iff_eq.mpr rfl) hreserved.inv ?_
      apply (fill_record_alone hfits hreserved (hregistered'.reserved hnoted.inv rfl)).bind
      rintro _ s' h'
      have hlog : (o.reserve pid message).publish o.log.count = o.enqueue message := by
        rw [Outline.publish, Outline.reserve, Outline.enqueue, Function.update_idem]
      refine ⟨rfl, ?_⟩
      rw [← hlog, ← h.outlined]
      rw [← h.outlined] at h'
      exact h'

/-- How a try to send ends, when it runs alone. -/
def Enqueued (channel : ByteChannel) (o : Outline) (message : Bytes) (ended : Ended Bool) (s : Memory) : Prop :=
  o.Room channel message.length ∧ ended = .returned true ∧ Stands channel (o.enqueue message) s ∨
    ¬ o.Room channel message.length ∧ ended = .returned false ∧ Stands channel o s

theorem try_enqueue_alone {chances : EnqueueChances} (hattempts : false ∈ chances.attempts)
    (hfits : message.length + 32 ≤ channel.capacity_bytes)
    (htotal : o.Room channel message.length →
      offset o.log.message o.log.count + record_size message.length < 2 ^ 64)
    (h : Stands channel o s) (hregistered : Registered pid s) :
    AloneWithin (Inv channel) (Enqueued channel o message) (try_enqueue channel pid message chances) s := by
  have hbegun : Stands channel o (begin_enqueue pid (record_size message.length) s) := by
    refine ⟨?_, h.outlined⟩
    exact (h.inv.note _ _ s.ring.outrun _).1
  have hregistered' : Registered pid (begin_enqueue pid (record_size message.length) s) :=
    ⟨⟨⟨hregistered.holder, hregistered.locker, hregistered.owes_scan⟩, hregistered.receiving⟩, hregistered.guard⟩
  unfold try_enqueue
  apply AloneWithin.modifyGet hbegun.inv
  by_cases hroom : o.Room channel message.length
  · apply (enqueue_loop_room hfits hroom (htotal hroom) hattempts hbegun hregistered').mono
    exact fun _ _ h' => .inl ⟨hroom, h'⟩
  · apply (enqueue_loop_full hfits hroom hbegun).mono
    exact fun _ _ h' => .inr ⟨hroom, h'⟩

/-- The outline while a sender is registered. -/
def Outline.enter (pid : Nat) (o : Outline) : Outline := { o with guards := [pid] }

theorem Stands.sender_state (h : Stands channel o s) :
    s.sender_state = o.closings * channel_closed_bit + o.guards.length := by
  obtain ⟨hinv, rfl⟩ := h
  exact hinv.senders.word

theorem register_loop_alone (hresting : o.Resting) (hopen : o.closings = 0) :
    ∀ {registration : List Bool} {s : Memory}, false ∈ registration → Stands channel o s →
      AloneWithin (Inv channel) (fun ended s' => ended = .returned true ∧ Stands channel (o.enter pid) s')
        (register_loop pid registration 0) s := by
  intro registration
  induction registration with
  | nil => exact fun hnone => absurd hnone List.not_mem_nil
  | cons spurious registration ih =>
    intro s hregistration h
    have hzero : s.sender_state = 0 := by
      rw [h.sender_state, hopen, hresting.guards]
      rfl
    unfold register_loop
    rw [if_neg (by decide), if_neg (by decide)]
    cases spurious with
    | true =>
      refine AloneWithin.no_exchange rfl h.inv ?_
      rw [hzero]
      exact ih (List.mem_of_ne_of_mem Bool.noConfusion hregistration) h
    | false =>
      obtain ⟨hinv, _⟩ := (ring_protocol channel).after_register (.const True) h.inv (hresting.idle h pid) trivial
        (by rw [hzero]; decide) (by rw [hzero]; decide)
      refine AloneWithin.exchange (beq_iff_eq.mpr hzero) hinv ⟨rfl, hinv, ?_⟩
      obtain ⟨_, rfl⟩ := h
      have hguards : s.guards = [] := hresting.guards
      simp only [outline, Endpoint.register, Outline.enter, hguards]

/-- An open channel registers a sender that runs alone. -/
theorem active_sender_guard_alone {registration : List Bool} (hregistration : false ∈ registration)
    (hresting : o.Resting) (hopen : o.closings = 0) (h : Stands channel o s) :
    AloneWithin (Inv channel) (fun ended s' => ended = .returned true ∧ Stands channel (o.enter pid) s')
      (active_sender_guard pid registration) s := by
  unfold active_sender_guard
  apply AloneWithin.load h.inv
  rw [h.sender_state, hopen, hresting.guards]
  exact register_loop_alone hresting hopen hregistration h

/-- A closed channel refuses a sender. -/
theorem active_sender_guard_closed {registration : List Bool} (hresting : o.Resting) (hclosed : o.closings = 1)
    (h : Stands channel o s) :
    AloneWithin (Inv channel) (fun ended s' => ended = .returned false ∧ Stands channel o s')
      (active_sender_guard pid registration) s := by
  unfold active_sender_guard
  apply AloneWithin.load h.inv
  rw [h.sender_state, hclosed, hresting.guards]
  unfold register_loop
  rw [if_pos (by decide)]
  exact ⟨rfl, h⟩

/-- The last sender leaves. -/
theorem leave_sender_alone (hresting : o.Resting) (hopen : o.closings = 0) (h : Stands channel (o.enter pid) s) :
    AloneWithin (Inv channel) (fun _ s' => Stands channel o s') (leave_sender pid) s := by
  have hone : s.sender_state = 1 := by
    rw [h.sender_state, Outline.enter, hopen]
    rfl
  obtain ⟨hinv, houtline⟩ := h
  have hguards : s.guards = [pid] := congrArg Outline.guards houtline
  have hlog : s.log = o.log := congrArg Outline.log houtline
  have hnone (i : Nat) : s.log.phase i ≠ .reserved pid := by
    rw [hlog]
    intro hi
    exact hresting.holder i pid (by rw [hi]; rfl)
  have hinv' : Inv channel (s.unregister pid) :=
    hinv.framed ⟨rfl, rfl, rfl, rfl⟩ (hinv.senders.unregister (by rw [hguards]; exact List.mem_cons_self) hnone)
  have houtline' : outline (s.unregister pid) = o := by
    have hend : outline (s.unregister pid) = { outline s with guards := s.guards.erase pid } := rfl
    rw [hend, houtline, hguards, List.erase_cons_head, ← hresting.guards]
    rfl
  unfold leave_sender
  apply AloneWithin.modifyGet hinv'
  rw [hone, if_neg (by decide)]
  exact ⟨hinv', houtline'⟩

theorem is_closed_state_alone {post : α → Memory → Prop} {k : Bool → Prog Memory α} (h : Stands channel o s)
    (hk : ∀ s', Stands channel o s' → AloneWithin (Inv channel) post (k (decide (o.closings = 1))) s') :
    AloneWithin (Inv channel) post (is_closed_state pid >>= k) s := by
  have hsame : Undisturbed s (s.give_in pid) := (undisturbed_is_closed_state pid).1 s
  have h' : Stands channel o (s.give_in pid) :=
    ⟨h.inv.undisturbed hsame, (same_of_undisturbed s _ hsame).1.trans h.outlined⟩
  have hclosed : decide (s.sender_state &&& channel_closed_bit ≠ 0) = decide (o.closings = 1) := by
    rw [decide_eq_decide, h.inv.senders.closed_iff, ← h.outlined]
    rfl
  apply AloneWithin.modifyGet h'.inv
  rw [hclosed]
  exact hk _ h'

/-- What a call of `try_send` that runs alone does. -/
def Sent (channel : ByteChannel) (o : Outline) (message : Bytes) (ended : Ended ChannelStatus) (s : Memory) :
    Prop :=
  o.closings = 1 ∧ ended = .returned .closed ∧ Stands channel o s ∨
    o.closings = 0 ∧ (o.Room channel message.length ∧ ended = .returned .success ∧
        Stands channel (o.enqueue message) s ∨
      ¬ o.Room channel message.length ∧ ended = .returned .would_block ∧ Stands channel o s)

theorem try_send_body_alone {chances : EnqueueChances} (hattempts : false ∈ chances.attempts)
    (hfits : message.length + 32 ≤ channel.capacity_bytes)
    (htotal : o.Room channel message.length →
      offset o.log.message o.log.count + record_size message.length < 2 ^ 64)
    (hresting : o.Resting) (hopen : o.closings = 0) (h : Stands channel (o.enter pid) s) :
    AloneWithin (Inv channel) (fun ended s' =>
        o.Room channel message.length ∧ ended = .returned .success ∧
          Stands channel ((o.enqueue message).enter pid) s' ∨
        ¬ o.Room channel message.length ∧ ended = .returned .would_block ∧ Stands channel (o.enter pid) s')
      (try_send_body pid (try_enqueue channel pid message) chances) s := by
  have hfalse : decide ((o.enter pid).closings = 1) = false := by
    rw [Outline.enter, hopen]
    rfl
  unfold try_send_body
  apply is_closed_state_alone h
  intro s₁ h₁
  rw [hfalse, if_neg Bool.false_ne_true]
  have hregistered : Registered pid s₁ := by
    refine ⟨hresting.idle_of h₁.outlined pid, ?_⟩
    have hguards : s₁.guards = [pid] := congrArg Outline.guards h₁.outlined
    rw [hguards]
    exact List.mem_cons_self
  apply (try_enqueue_alone (o := o.enter pid) hattempts hfits htotal h₁ hregistered).bind
  rintro ended s₂ (⟨hroom, rfl, h₂⟩ | ⟨hroom, rfl, h₂⟩)
  · exact .inl ⟨hroom, rfl, h₂⟩
  · apply is_closed_state_alone h₂
    intro s₃ h₃
    rw [hfalse]
    exact .inr ⟨hroom, rfl, h₃⟩

theorem Outline.Resting.enqueue (hresting : o.Resting) (message : Bytes) : (o.enqueue message).Resting := by
  refine ⟨hresting.guards, hresting.receiving, hresting.locker, hresting.owes_scan, fun i pid => ?_⟩
  by_cases hi : i = o.log.count
  · simp only [Outline.enqueue, hi, Function.update_self]
    rintro ⟨⟩
  · simp only [Outline.enqueue, Function.update_of_ne hi]
    exact hresting.holder i pid

theorem try_send_alone {registration : List Bool} {chances : EnqueueChances}
    (hregistration : false ∈ registration) (hattempts : false ∈ chances.attempts)
    (hfits : message.length + 32 ≤ channel.capacity_bytes)
    (htotal : o.closings = 0 → o.Room channel message.length →
      offset o.log.message o.log.count + record_size message.length < 2 ^ 64)
    (hresting : o.Resting) (h : Stands channel o s) :
    AloneWithin (Inv channel) (Sent channel o message)
      (endpoint.try_send pid (try_enqueue channel pid message) registration chances) s := by
  unfold endpoint.try_send guarded
  have hclosings : o.closings ≤ 1 := by
    rw [← h.outlined]
    exact h.inv.senders.closings
  by_cases hclosed : o.closings = 1
  · apply (active_sender_guard_closed hresting hclosed h).bind
    rintro _ s₁ ⟨rfl, h₁⟩
    exact .inl ⟨hclosed, rfl, h₁⟩
  · have hopen : o.closings = 0 := by omega
    apply (active_sender_guard_alone hregistration hresting hopen h).bind
    rintro _ s₁ ⟨rfl, h₁⟩
    apply (try_send_body_alone hattempts hfits (htotal hopen) hresting hopen h₁).bind
    rintro _ s₂ (⟨hroom, rfl, h₂⟩ | ⟨hroom, rfl, h₂⟩)
    · apply (leave_sender_alone (hresting.enqueue message) hopen h₂).bind
      exact fun _ s₃ h₃ => .inr ⟨hopen, .inl ⟨hroom, rfl, h₃⟩⟩
    · apply (leave_sender_alone hresting hopen h₂).bind
      exact fun _ s₃ h₃ => .inr ⟨hopen, .inr ⟨hroom, rfl, h₃⟩⟩

/-- The outline after `close`. -/
def Outline.close (o : Outline) : Outline := { o with closings := 1 }

theorem close_alone (h : Stands channel o s) :
    AloneWithin (Inv channel) (fun first s' => first = decide (o.closings = 0) ∧ Stands channel o.close s')
      (endpoint.close pid) s := by
  have hclosings := h.inv.senders.closings
  have hiff := h.inv.senders.closed_iff
  have hinv : Inv channel (s.set_closed pid) := h.inv.framed ⟨rfl, rfl, rfl, rfl⟩ h.inv.senders.set_closed
  obtain ⟨_, rfl⟩ := h
  have houtline : outline (s.set_closed pid) = (outline s).close := by
    have hone : (if s.sender_state &&& channel_closed_bit ≠ 0 then s.closings else s.closings + 1) = 1 := by
      split
      next hbit => exact hiff.mp hbit
      next hbit =>
        have := mt hiff.mpr hbit
        omega
    simp only [outline, Outline.close, Endpoint.set_closed, hone]
  have hstands : Stands channel (outline s).close (s.set_closed pid) := ⟨hinv, houtline⟩
  unfold endpoint.close
  apply AloneWithin.modifyGet hinv
  by_cases hbit : s.sender_state &&& channel_closed_bit ≠ 0
  · rw [if_pos hbit]
    have hclosed : (outline s).closings = 1 := hiff.mp hbit
    exact ⟨by rw [hclosed]; rfl, hstands⟩
  · rw [if_neg hbit]
    have hopen : (outline s).closings = 0 := by
      have hnot : s.closings ≠ 1 := mt hiff.mpr hbit
      exact Nat.lt_one_iff.mp (Nat.lt_of_le_of_ne hclosings hnot)
    apply (quiet_alone (undisturbed_bump pid .readable) (nonBlocking_bump pid .readable) hstands).bind
    intro _ s₁ h₁
    apply (quiet_alone (undisturbed_bump pid .writable) (nonBlocking_bump pid .writable) h₁.2).bind
    intro _ s₂ h₂
    apply (quiet_alone (undisturbed_wake_all pid .readable) (nonBlocking_wake_all pid .readable) h₂.2).bind
    intro _ s₃ h₃
    apply (quiet_alone (undisturbed_wake_all pid .writable) (nonBlocking_wake_all pid .writable) h₃.2).bind
    exact fun _ s₄ h₄ => ⟨by rw [hopen]; rfl, h₄.2⟩

end

end shmchan.byte_channel
