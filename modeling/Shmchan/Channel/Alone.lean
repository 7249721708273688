import Shmchan.Channel.Delivery
import Shmchan.Channel.Session
import Shmchan.Endpoint.Alone
import Shmchan.Process.BoundedQueue

open process shmchan.endpoint

namespace shmchan.channel

/-- The log after an item has been sent. -/
def log_sent (value : Bytes) (log : Log Bytes) : Log Bytes :=
  { log with
    count := log.count + 1
    message := Function.update log.message log.count value
    phase := Function.update log.phase log.count .published }

/-- The log after the item at the head has been received. -/
def log_received (log : Log Bytes) : Log Bytes :=
  { log with
    claimed := log.claimed + 1
    phase := Function.update log.phase log.claimed .consumed
    delivered := (log.claimed, log.message log.claimed) :: log.delivered }

/-- The item at the head, when it is published. -/
def head (log : Log Bytes) : Option Bytes :=
  if log.phase log.claimed = .published then some (log.message log.claimed) else none

/-- The slot of the next position has been released. -/
def Room (channel : Channel) (log : Log Bytes) : Prop :=
  released channel.capacity log.phase log.count = true

/-- What a call asks for, with chances that let it end: some exchange does not
    fail spuriously. -/
inductive Call.Asks {channel : Channel} : Call channel → QueueCall Bytes → Prop where
  | try_send {value : Value channel} {registration : List Bool} {chances : SlotChances}
      (hregistration : false ∈ registration) (hattempts : false ∈ chances.attempts) :
      Asks (.try_send value registration chances) (.send value.1)
  | try_receive {first second : SlotChances} (hfirst : false ∈ first.attempts) (hsecond : false ∈ second.attempts) :
      Asks (.try_receive first second) .receive
  | close : Asks .close .close

/-- A send is accepted: the channel is open, another guard can be counted, and
    the next slot is free. -/
def Accepts (channel : Channel) (s : Memory) : Prop :=
  s.sender_state &&& channel_closed_bit = 0 ∧ s.sender_state ≠ active_sender_mask ∧ SlotFree channel s

instance (channel : Channel) (s : Memory) : Decidable (Accepts channel s) :=
  inferInstanceAs (Decidable (_ ∧ _))

/-- The reply of a call that runs alone, as the words of the memory decide it. -/
def reply_alone (channel : Channel) (s : Memory) : QueueCall Bytes → Reply Bytes
  | .send _ =>
    if s.sender_state &&& channel_closed_bit ≠ 0 then .sent .closed
    else if s.sender_state = active_sender_mask then
      .threw (.overflow_error "shmchan: too many concurrent senders")
    else if SlotFree channel s then .sent .success
    else .sent .would_block
  | .receive =>
    if SlotFull channel s then .received { code := .success, value := some (s.log.message s.log.claimed) }
    else if s.sender_state = channel_closed_bit then .received { code := .closed }
    else .received { code := .would_block }
  | .close => .closing (decide (s.sender_state &&& channel_closed_bit = 0))

/-- The outline after a call that runs alone. -/
def outline_alone_after (channel : Channel) (s : Memory) : QueueCall Bytes → Outline Bytes
  | .send value => { s.outline with log := if Accepts channel s then log_sent value s.log else s.log }
  | .receive => { s.outline with log := if SlotFull channel s then log_received s.log else s.log }
  | .close => s.outline.close

/-- A step that keeps the outline. -/
def SameOutline (s s' : Memory) : Prop := s'.outline = s.outline

section

variable {channel : Channel} {o : Outline Bytes} {pid slot index : Nat} {value : Bytes} {s s' : Memory} {α : Type}
  {call : Call channel} {asked : QueueCall Bytes} {c : Config Memory (Reply Bytes) Nat}

theorem same_copy_to_slot (pid slot : Nat) (rest : Bytes) (k : Nat) :
    (copy_to_slot pid slot rest k).NonBlocking ∧
      (copy_to_slot pid slot rest k).Always SameOutline fun _ => True := by
  induction rest generalizing k with
  | nil => exact ⟨trivial, trivial⟩
  | cons byte rest ih =>
    obtain ⟨hfree, hsame⟩ := ih (k + 1)
    exact ⟨⟨fun _ => rfl, fun _ => hfree⟩, fun _ => rfl, fun _ => hsame⟩

theorem same_copy_from_slot (pid slot count k : Nat) :
    (copy_from_slot pid slot count k).NonBlocking ∧
      (copy_from_slot pid slot count k).Always SameOutline fun _ => True := by
  induction count generalizing k with
  | zero => exact ⟨trivial, trivial⟩
  | succ count ih =>
    obtain ⟨hfree, hsame⟩ := ih (k + 1)
    refine ⟨⟨fun _ => rfl, fun _ => hfree.bind fun _ => trivial⟩, fun _ => rfl, fun _ => ?_⟩
    exact hsame.bind fun _ _ => trivial

/-- The programs that keep the outline. -/
theorem outline_alone {P : α → Prop} {p : Prog Memory α} (hp : p.Always SameOutline P) (hfree : p.NonBlocking)
    (hbounded : o.log.count + channel.capacity ≤ 2 ^ 63) (h : s.outline = o) :
    AloneWithin (Bounded channel) (fun a s' => P a ∧ s'.outline = o) p s := by
  apply AloneWithin.of_always hp hfree _ h
  intro s s' hsame h
  have h' : s'.outline = o := hsame.trans h
  have hlog : s'.log = o.log := congrArg Outline.log h'
  refine ⟨?_, h'⟩
  rw [Bounded, hlog]
  exact hbounded

/-- The wake-up at the end of a try. -/
theorem signal_alone (hbounded : o.log.count + channel.capacity ≤ 2 ^ 63) (h : s.outline = o) (word : Word)
    (pick : Nat) (result : α) :
    AloneWithin (Bounded channel) (fun a s' => a = result ∧ s'.outline = o)
      (do bump pid word; wake_one pid word pick; return result) s := by
  have hsame (s s' : Memory) (hundisturbed : Undisturbed s s') : SameOutline s s' :=
    outline_undisturbed hundisturbed
  apply (outline_alone ((undisturbed_bump pid word).mono hsame fun _ => id) (Prog.nonBlocking_store _) hbounded
    h).bind
  rintro _ s₁ ⟨_, h₁⟩
  apply (outline_alone ((undisturbed_wake_one pid word pick).mono hsame fun _ => id) (Prog.nonBlocking_store _)
    hbounded h₁).bind
  exact fun _ s₂ h₂ => ⟨rfl, h₂.2⟩

/-- The sender fills and publishes the slot that it has claimed. -/
theorem fill_slot_alone {word pick : Nat} (hbounded : o.log.count + channel.capacity ≤ 2 ^ 63)
    (h : s.outline = o) :
    AloneWithin (Bounded channel) (fun ended s' => ended = .returned true ∧ s'.outline =
        { o with log := { o.log with phase := Function.update o.log.phase index .published } })
      (fill_slot pid index slot word value pick) s := by
  unfold fill_slot
  have hcopy := same_copy_to_slot pid slot value 0
  apply (outline_alone hcopy.2 hcopy.1 hbounded h).bind
  rintro _ s₁ ⟨_, h₁⟩
  let last : Outline Bytes :=
    { o with log := { o.log with phase := Function.update o.log.phase index .published } }
  have h₂ : (publish pid index slot word s₁).outline = last := by
    simp only [last, ← h₁]
    rfl
  apply AloneWithin.store
  · have hcount : s₁.log.count = o.log.count := congrArg (fun o => o.log.count) h₁
    rw [← hcount] at hbounded
    exact hbounded
  · exact signal_alone (o := last) hbounded h₂ .readable pick _

/-- How a try to send ends when it runs alone. -/
def EnqueuedAlone (channel : Channel) (value : Bytes) (s : Memory) (ended : Ended Bool) (s' : Memory) : Prop :=
  Free channel s ∧ ended = .returned true ∧ s'.outline = { s.outline with log := log_sent value s.log } ∨
    ¬ Free channel s ∧ ended = .returned false ∧ s'.outline = s.outline

/-- The exchange succeeds, and the item is published. -/
theorem reserve_alone {f : SlotRing → SlotRing} {word pick : Nat} (hfree : Free channel s)
    (hroom : s.log.count + 1 + channel.capacity ≤ 2 ^ 63) :
    AloneWithin (Bounded channel) (EnqueuedAlone channel value s)
      (fill_slot pid s.log.count slot word value pick) (reserve pid value f s) := by
  apply (fill_slot_alone (o := (reserve pid value f s).outline) hroom rfl).mono
  rintro ended s' ⟨rfl, h'⟩
  refine .inl ⟨hfree, rfl, ?_⟩
  rw [h']
  simp only [Endpoint.outline, reserve, log_sent, Function.update_idem]

theorem enqueue_loop_alone {pick : Nat} (hinv : Inv True channel s) (hcap : 1 < channel.capacity)
    (hbounded : Bounded channel s) (hroom : Free channel s → s.log.count + 1 + channel.capacity ≤ 2 ^ 63) :
    ∀ {attempts : List Bool}, false ∈ attempts →
      AloneWithin (Bounded channel) (EnqueuedAlone channel value s)
        (enqueue_loop channel pid value pick attempts s.ring.enqueue_position) s := by
  have hne : channel.capacity ≠ 1 := by omega
  have hposition : s.ring.enqueue_position = s.log.count := by
    rw [hinv.placed.enqueue_position, if_neg hne]
  obtain ⟨hle, hfree⟩ := hinv.next_sequence hne
  have hcount : s.log.count + channel.capacity ≤ 2 ^ 63 := hbounded
  have hdifference : to_int64 (sub64 (s.ring.sequence (s.log.count % channel.capacity)) s.log.count) =
      s.ring.sequence (s.log.count % channel.capacity) - s.log.count := by
    apply to_int64_sub64
    · omega
    · omega
  intro attempts
  induction attempts with
  | nil => exact fun hnone => absurd hnone List.not_mem_nil
  | cons spurious attempts ih =>
    intro hattempts
    unfold enqueue_loop
    rw [hposition]
    apply AloneWithin.modifyGet
    · split_ifs
      · exact hbounded
      · exact hbounded
    by_cases hslot : Free channel s
    · rw [hfree.mpr hslot] at hdifference ⊢
      rw [hdifference, sub_self, if_neg (lt_irrefl _), if_pos rfl]
      simp only
      cases spurious with
      | true =>
        refine AloneWithin.no_exchange rfl ?_ ?_
        · exact hbounded
        · exact ih (List.mem_of_ne_of_mem Bool.noConfusion hattempts)
      | false => exact AloneWithin.exchange (beq_iff_eq.mpr hposition) (hroom hslot) (reserve_alone hslot (hroom hslot))
    · have hsign : (s.ring.sequence (s.log.count % channel.capacity) : Int) - s.log.count < 0 := by
        have := mt hfree.mp hslot
        omega
      rw [hdifference, if_pos hsign, if_neg (by omega), if_pos hsign]
      exact .inr ⟨hslot, rfl, rfl⟩

/-- A try to send that runs alone ends, and fails only at a slot that is not free. -/
theorem try_enqueue_alone {chances : SlotChances} (hinv : Inv True channel s) (hbounded : Bounded channel s)
    (hroom : Free channel s → s.log.count + 1 + channel.capacity ≤ 2 ^ 63) (hattempts : false ∈ chances.attempts) :
    AloneWithin (Bounded channel) (EnqueuedAlone channel value s) (try_enqueue channel pid value chances) s := by
  have hpos := channel.pos
  unfold try_enqueue
  split_ifs with hcap
  · have hstate := hinv.single_state hcap
    by_cases hfree : Free channel s
    · exact AloneWithin.exchange (beq_iff_eq.mpr (hstate.mpr hfree)) (hroom hfree) (reserve_alone hfree (hroom hfree))
    · refine AloneWithin.no_exchange (beq_eq_false_iff_ne.mpr (mt hstate.mp hfree)) hbounded ?_
      exact .inr ⟨hfree, rfl, rfl⟩
  · apply AloneWithin.load hbounded
    exact enqueue_loop_alone hinv (by omega) hbounded hroom hattempts

/-- The receiver copies its item out and releases its slot. -/
theorem empty_slot_alone {word pick : Nat} (hbounded : o.log.count + channel.capacity ≤ 2 ^ 63)
    (h : s.outline = o) :
    AloneWithin (Bounded channel) (fun ended s' => ∃ value, ended = .returned (some value) ∧ s'.outline =
        { o with log := { o.log with
            phase := Function.update o.log.phase index .consumed
            delivered := (index, value) :: o.log.delivered } })
      (empty_slot channel pid index slot word pick) s := by
  unfold empty_slot
  have hcopy := same_copy_from_slot pid slot channel.element_size 0
  apply (outline_alone hcopy.2 hcopy.1 hbounded h).bind
  rintro value s₁ ⟨_, h₁⟩
  let last : Outline Bytes :=
    { o with log := { o.log with
        phase := Function.update o.log.phase index .consumed
        delivered := (index, value) :: o.log.delivered } }
  have h₂ : (release pid index slot word value s₁).outline = last := by
    simp only [last, ← h₁]
    rfl
  apply AloneWithin.store
  · have hcount : s₁.log.count = o.log.count := congrArg (fun o => o.log.count) h₁
    rw [← hcount] at hbounded
    exact hbounded
  · apply (signal_alone (o := last) hbounded h₂ .writable pick _).mono
    exact fun ended s' h' => ⟨value, h'⟩

/-- How a try to receive ends when it runs alone. -/
def DequeuedAlone (s : Memory) (ended : Ended (Option Bytes)) (s' : Memory) : Prop :=
  HeadPublished s ∧ (∃ value, ended = .returned (some value) ∧ s'.outline =
      { s.outline with log := { log_received s.log with delivered := (s.log.claimed, value) :: s.log.delivered } }) ∨
    ¬ HeadPublished s ∧ ended = .returned none ∧ s'.outline = s.outline

theorem claim_alone {f : SlotRing → SlotRing} {word pick : Nat} (hhead : HeadPublished s)
    (hbounded : Bounded channel s) :
    AloneWithin (Bounded channel) (DequeuedAlone s) (empty_slot channel pid s.log.claimed slot word pick)
      (claim pid f s) := by
  apply (empty_slot_alone (o := (claim pid f s).outline) hbounded rfl).mono
  rintro ended s' ⟨value, rfl, h'⟩
  refine .inl ⟨hhead, value, rfl, ?_⟩
  rw [h']
  simp only [Endpoint.outline, claim, log_received, Function.update_idem]

theorem dequeue_loop_alone {pick : Nat} (hinv : Inv True channel s) (hcap : 1 < channel.capacity)
    (hbounded : Bounded channel s) : ∀ {attempts : List Bool}, false ∈ attempts →
      AloneWithin (Bounded channel) (DequeuedAlone s)
        (dequeue_loop channel pid pick attempts s.ring.dequeue_position) s := by
  have hne : channel.capacity ≠ 1 := by omega
  have hposition : s.ring.dequeue_position = s.log.claimed := by
    rw [hinv.placed.dequeue_position, if_neg hne]
  obtain ⟨hle, hfull⟩ := hinv.head_sequence hne
  have hclaimed := hinv.ordered.claimed_le
  have hcount : s.log.count + channel.capacity ≤ 2 ^ 63 := hbounded
  have hnext : add64 s.log.claimed 1 = s.log.claimed + 1 := add64_of_lt (by omega)
  have hdifference : to_int64 (sub64 (s.ring.sequence (s.log.claimed % channel.capacity)) (s.log.claimed + 1)) =
      s.ring.sequence (s.log.claimed % channel.capacity) - (s.log.claimed + 1 : Nat) := by
    apply to_int64_sub64
    · omega
    · omega
  intro attempts
  induction attempts with
  | nil => exact fun hnone => absurd hnone List.not_mem_nil
  | cons spurious attempts ih =>
    intro hattempts
    unfold dequeue_loop
    rw [hposition, hnext]
    apply AloneWithin.modifyGet
    · split_ifs
      · exact hbounded
      · exact hbounded
    by_cases hslot : HeadPublished s
    · rw [hfull.mpr hslot] at hdifference ⊢
      rw [hdifference, sub_self, if_neg (lt_irrefl _), if_pos rfl]
      simp only
      cases spurious with
      | true =>
        refine AloneWithin.no_exchange rfl ?_ ?_
        · exact hbounded
        · exact ih (List.mem_of_ne_of_mem Bool.noConfusion hattempts)
      | false => exact AloneWithin.exchange (beq_iff_eq.mpr hposition) hbounded (claim_alone hslot hbounded)
    · have hsign : (s.ring.sequence (s.log.claimed % channel.capacity) : Int) - (s.log.claimed + 1 : Nat) < 0 := by
        have := mt hfull.mp hslot
        omega
      rw [hdifference, if_pos hsign, if_neg (by omega), if_pos hsign]
      exact .inr ⟨hslot, rfl, rfl⟩

/-- A try to receive that runs alone ends, and fails only at a head that is not
    published. -/
theorem try_dequeue_alone {chances : SlotChances} (hinv : Inv True channel s) (hbounded : Bounded channel s)
    (hattempts : false ∈ chances.attempts) :
    AloneWithin (Bounded channel) (DequeuedAlone s) (try_dequeue channel pid chances) s := by
  have hpos := channel.pos
  unfold try_dequeue
  split_ifs with hcap
  · have hstate := hinv.single_full hcap
    by_cases hhead : HeadPublished s
    · exact AloneWithin.exchange (beq_iff_eq.mpr (hstate.mpr hhead)) hbounded (claim_alone hhead hbounded)
    · refine AloneWithin.no_exchange (beq_eq_false_iff_ne.mpr (mt hstate.mp hhead)) hbounded ?_
      exact .inr ⟨hhead, rfl, rfl⟩
  · apply AloneWithin.load hbounded
    exact dequeue_loop_alone hinv (by omega) hbounded hattempts

/-- A try to send of a registered sender. -/
theorem enqueues_alone {channel : Channel} {value : Value channel} {chances : SlotChances}
    (hattempts : false ∈ chances.attempts) (hguard : pid ∈ o.guards)
    (hbounded : o.log.count + channel.capacity ≤ 2 ^ 63)
    (hroom : Room channel o.log → o.log.count + 1 + channel.capacity ≤ 2 ^ 63) :
    EnqueuesAlone (slot_reliance True channel) Idle pid (Room channel o.log) (log_sent value.1 o.log) o
      (try_enqueue channel pid value.1 chances) := by
  rintro s ⟨hinv, hidle, rfl⟩
  have hsafe : SafeWithin (Bounded channel) (slot_reliance True channel) pid
      (Ended.Post (Tried True (Bounded channel) channel pid value.1) fun _ _ => False)
      (try_enqueue channel pid value.1 chances) s :=
    try_enqueue_safe (fun _ h => h) chances value.2 ⟨hidle, fun _ => hguard⟩
  apply ((try_enqueue_alone hinv hbounded hroom hattempts).safe hsafe (Rely.refl True channel) hinv
    hbounded).mono
  rintro ended s' ⟨⟨hfree, rfl, h'⟩ | ⟨hfree, rfl, h'⟩, ⟨hregistered, _⟩, hinv'⟩
  · exact .inl ⟨hfree, rfl, hinv', hregistered.idle, h'⟩
  · exact .inr ⟨hfree, rfl, hinv', hregistered.idle, h'⟩

/-- A try to receive. -/
theorem dequeues_alone {chances : SlotChances} (hattempts : false ∈ chances.attempts)
    (hbounded : o.log.count + channel.capacity ≤ 2 ^ 63) :
    DequeuesAlone (slot_reliance True channel) Idle pid (head o.log) (log_received o.log) o
      (try_dequeue channel pid chances) := by
  rintro s ⟨hinv, hidle, rfl⟩
  have hsafe : SafeWithin (Bounded channel) (slot_reliance True channel) pid (Dequeued True (Bounded channel) pid)
      (try_dequeue channel pid chances) s := try_dequeue_safe (fun _ h => h) chances hidle
  apply ((try_dequeue_alone hinv hbounded hattempts).safe hsafe (Rely.refl True channel) hinv hbounded).mono
  rintro ended s' ⟨⟨hhead, value, rfl, h'⟩ | ⟨hhead, rfl, h'⟩, ⟨hidle', _⟩, hinv'⟩
  · have hlog : s'.log = { log_received s.log with delivered := (s.log.claimed, value) :: s.log.delivered } :=
      congrArg Outline.log h'
    have hinv' : Inv True channel s' := hinv'
    -- what has been delivered is the message of its position
    have hvalue : value = s.log.message s.log.claimed := by
      have hdelivered := (hinv'.delivered (s.log.claimed, value) (by rw [hlog]; exact List.mem_cons_self)).2
      rw [hlog] at hdelivered
      exact hdelivered
    have hfound : head s.outline.log = some (s.log.message s.log.claimed) := if_pos hhead
    rw [hfound]
    refine ⟨by rw [hvalue], hinv', hidle', ?_⟩
    rw [h', hvalue]
    rfl
  · have hnone : head s.outline.log = none := if_neg hhead
    rw [hnone]
    exact ⟨rfl, hinv', hidle', h'⟩

theorem Inv.open_iff (h : Inv True channel s) :
    s.sender_state &&& channel_closed_bit = 0 ↔ s.closings = 0 := by
  have hclosed := (h.senders trivial).closed_iff
  have hclosings := (h.senders trivial).closings
  omega

/-- On an open channel `sender_state` is the count of the guards. -/
theorem Inv.full_iff (h : Inv True channel s) (hopen : s.closings = 0) :
    s.sender_state = active_sender_mask ↔ s.guards.length = active_sender_mask := by
  rw [(h.senders trivial).word, hopen, Nat.zero_mul, Nat.zero_add]

theorem reply_alone_success {value : Bytes} :
    reply_alone channel s (.send value) = .sent .success ↔ Accepts channel s := by
  rw [reply_alone, Accepts]
  split_ifs with hbit hfull hslot
  · refine iff_of_false ?_ fun h => hbit h.1
    rintro ⟨⟩
  · refine iff_of_false ?_ fun h => h.2.1 hfull
    rintro ⟨⟩
  · exact iff_of_true rfl ⟨not_not.mp hbit, hfull, hslot⟩
  · refine iff_of_false ?_ fun h => hslot h.2.2
    rintro ⟨⟩

/-- Only an accepted send adds to the items. -/
theorem count_alone_after (channel : Channel) (s : Memory) (asked : QueueCall Bytes) :
    (outline_alone_after channel s asked).log.count =
      s.log.count + if reply_alone channel s asked = .sent .success then 1 else 0 := by
  cases asked with
  | send value =>
    simp only [outline_alone_after, reply_alone_success]
    split_ifs
    · rfl
    · rfl
  | receive =>
    have hreply : reply_alone channel s .receive ≠ .sent .success := by
      rw [reply_alone]
      split_ifs <;> rintro ⟨⟩
    rw [if_neg hreply, outline_alone_after]
    split_ifs
    · rfl
    · rfl
  | close =>
    have hreply : reply_alone channel s .close ≠ .sent .success := by rintro ⟨⟩
    rw [if_neg hreply]
    rfl

/-- How a call of `try_send` that runs alone ends, read off the words of the
    memory. -/
theorem sent_alone_reply (hinv : Inv True channel s) {value : Bytes} {ended : Ended ChannelStatus}
    (h : SentAlone (slot_reliance True channel) Idle pid (Room channel s.log) (log_sent value s.log) s.outline
      ended s') :
    (ended.reply .sent : Reply Bytes) = reply_alone channel s (.send value) ∧
      Stands (slot_reliance True channel) Idle pid (outline_alone_after channel s (.send value)) s' := by
  have hroom : SlotFree channel s ↔ Room channel s.log := hinv.slot_free_iff
  have hopen_iff := hinv.open_iff
  simp only [reply_alone, outline_alone_after]
  cases h with
  | closed hclosed h =>
    have hbit : ¬ s.sender_state &&& channel_closed_bit = 0 := by
      rw [hopen_iff, show s.closings = 1 from hclosed]
      exact Nat.one_ne_zero
    rw [if_pos hbit, if_neg fun haccepts => hbit haccepts.1]
    exact ⟨rfl, h⟩
  | full hopen hfull h =>
    have hbit := hopen_iff.mpr hopen
    have hword := (hinv.full_iff hopen).mpr hfull
    rw [if_neg (not_not_intro hbit), if_pos hword, if_neg fun haccepts => haccepts.2.1 hword]
    exact ⟨rfl, h⟩
  | success hopen hguards hslot h =>
    have hbit := hopen_iff.mpr hopen
    have hword := mt (hinv.full_iff hopen).mp hguards
    rw [if_neg (not_not_intro hbit), if_neg hword, if_pos (hroom.mpr hslot), if_pos ⟨hbit, hword, hroom.mpr hslot⟩]
    exact ⟨rfl, h⟩
  | would_block hopen hguards hslot h =>
    have hbit := hopen_iff.mpr hopen
    have hword := mt (hinv.full_iff hopen).mp hguards
    rw [if_neg (not_not_intro hbit), if_neg hword, if_neg (mt hroom.mp hslot),
      if_neg fun haccepts => hslot (hroom.mp haccepts.2.2)]
    exact ⟨rfl, h⟩

/-- A call that asks for something of the queue, alone in a sound memory. -/
theorem Inv.call_alone (hinv : Inv True channel s) (hbounded : Bounded channel s) (hidle : Idle pid s)
    (hasks : call.Asks asked)
    (hroom : ∀ value, asked = .send value → Accepts channel s → s.log.count + 1 + channel.capacity ≤ 2 ^ 63) :
    AloneWithin (Inv True channel) (fun reply s' => reply = reply_alone channel s asked ∧
        Stands (slot_reliance True channel) Idle pid (outline_alone_after channel s asked) s')
      (call.run pid) s := by
  have hR := slot_protocol channel
  have hstands : Stands (slot_reliance True channel) Idle pid s.outline s := ⟨hinv, hidle, rfl⟩
  cases hasks with
  | @try_send value registration chances hregistration hattempts =>
    rw [Call.run]
    have htry (hopen : s.closings = 0) (hguards : s.guards.length ≠ active_sender_mask) :
        EnqueuesAlone (slot_reliance True channel) Idle pid (Room channel s.log) (log_sent value.1 s.log)
          (s.outline.enter pid) (try_enqueue channel pid value.1 chances) := by
      refine enqueues_alone hattempts List.mem_cons_self hbounded fun hslot => hroom value.1 rfl ?_
      exact ⟨hinv.open_iff.mpr hopen, mt (hinv.full_iff hopen).mp hguards, hinv.slot_free_iff.mpr hslot⟩
    apply (hstands.try_send hR hregistration htry).bind
    exact fun ended s' h' => sent_alone_reply hinv h'
  | @try_receive first second hfirst hsecond =>
    rw [Call.run]
    have htry (chances : SlotChances) (hattempts : false ∈ chances.attempts) :
        DequeuesAlone (slot_reliance True channel) Idle pid (head s.log) (log_received s.log) s.outline
          (try_dequeue channel pid chances) := dequeues_alone hattempts hbounded
    apply (hstands.try_receive hR (htry first hfirst) fun _ => htry second hsecond).bind
    rintro _ s' ⟨rfl, h'⟩
    have hhead := hinv.slot_full_iff hbounded
    have hdone := (hinv.senders trivial).done_iff
    simp only [reply_alone, outline_alone_after]
    by_cases hpublished : HeadPublished s
    · have hfound : head s.log = some (s.log.message s.log.claimed) := if_pos hpublished
      rw [hfound] at h' ⊢
      rw [if_pos (hhead.mpr hpublished), if_pos (hhead.mpr hpublished)]
      exact ⟨rfl, h'⟩
    · have hnone : head s.log = none := if_neg hpublished
      rw [hnone] at h' ⊢
      rw [if_neg (mt hhead.mp hpublished), if_neg (mt hhead.mp hpublished)]
      refine ⟨?_, h'⟩
      by_cases hlast : s.sender_state = channel_closed_bit
      · have hword : s.outline.closings = 1 ∧ s.outline.guards = [] := hdone.mp hlast
        rw [if_pos hlast, received_alone, if_pos hword]
        rfl
      · have hword : ¬ (s.outline.closings = 1 ∧ s.outline.guards = []) := mt hdone.mpr hlast
        rw [if_neg hlast, received_alone, if_neg hword]
        rfl
  | close =>
    rw [Call.run]
    apply (hstands.close hR).bind
    rintro _ s' ⟨rfl, h'⟩
    refine ⟨?_, h'⟩
    rw [reply_alone, decide_eq_decide.mpr hinv.open_iff]
    rfl

/-- Whatever the other processes are in the middle of, a call that is not
    interrupted any more ends without a wait, and the words of the memory decide
    its reply and what it leaves behind. -/
theorem call_runs_alone
    (hreach : ReachableWithin (Bounded channel) (discipline channel) new_channel c) {reply : Reply Bytes}
    (hshown : c.procs pid = .ret reply) (hended : reply ≠ .unfinished) (hasks : call.Asks asked)
    (hroom : ∀ value, asked = .send value → Accepts channel c.shared →
      c.shared.log.count + 1 + channel.capacity ≤ 2 ^ 63) :
    (call.run pid).unblocked c.shared = true ∧
      ((call.run pid).exec c.shared).1 = reply_alone channel c.shared asked ∧
      ((call.run pid).exec c.shared).2.outline = outline_alone_after channel c.shared asked := by
  obtain ⟨hbounded, hinv, _⟩ := reachable_safe hreach
  have hidle : Idle pid c.shared := answered_idle hended (reachable_answered hreach hshown)
  obtain ⟨hunblocked, hreply, h'⟩ := (Inv.call_alone hinv hbounded hidle hasks hroom).exec
  exact ⟨hunblocked, hreply, h'.outlined⟩

end

/-- Process 0 has claimed the first slot and is suspended there. -/
def suspended : Config Memory (Reply Bytes) Nat :=
  new_channel.perform 0 ((.try_send seven [false] fair : Call pair).run 0) 6

theorem call_runs_alone_suspended :
    (((.try_send seven [false] fair : Call pair).run 1).exec suspended.shared).1 = .sent .success ∧
      (((.try_receive fair fair : Call pair).run 1).exec suspended.shared).1 =
        .received { code := .would_block } := by
  have hcheck (s : Memory) (hs : decide (Bounded pair s) = true) : Bounded pair s := of_decide_eq_true hs
  have hfair : false ∈ fair.attempts := List.mem_cons_self
  have hstart : (discipline pair).starts 0 .idle ((.try_send seven [false] fair : Call pair).run 0) :=
    ⟨by rintro ⟨⟩, .try_send seven [false] fair, rfl⟩
  have hreach : ReachableWithin (Bounded pair) (discipline pair) new_channel suspended :=
    ReachableWithin.perform .refl hcheck (by decide +kernel) hstart (by decide +kernel)
  have hshown : suspended.procs 1 = .ret .idle := Prog.eq_ret_of_shown (by decide +kernel)
  have hended : (.idle : Reply Bytes) ≠ .unfinished := by rintro ⟨⟩
  constructor
  · have hasks : (.try_send seven [false] fair : Call pair).Asks (.send seven.1) := .try_send List.mem_cons_self hfair
    rw [(call_runs_alone hreach hshown hended hasks fun _ _ _ => by decide +kernel).2.1]
    decide +kernel
  · have hasks : (.try_receive fair fair : Call pair).Asks .receive := .try_receive hfair hfair
    have hnone (value : Bytes) (hsend : QueueCall.receive = .send value) : ¬ Accepts pair suspended.shared := by
      cases hsend
    rw [(call_runs_alone hreach hshown hended hasks fun value hsend h => absurd h (hnone value hsend)).2.1]
    decide +kernel

end shmchan.channel
