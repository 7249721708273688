import Shmchan.ByteChannel.Closing
import Shmchan.ByteChannel.Delivery

open process shmchan.endpoint

namespace shmchan.byte_channel

/-- How many bytes have been reserved. -/
def reserved_bytes (s : Memory) : Nat := offset s.log.message s.log.count

/-- Fewer than 2^64 bytes have been reserved. -/
def Bounded (s : Memory) : Prop := reserved_bytes s < 2 ^ 64

/-- What the fullness test depends on, whatever the records hold: the write
    position counts the reserved bytes. -/
structure RoomInv (s : Memory) : Prop extends ClosingInv s where
  tail : s.ring.write_position = reserved_bytes s % 2 ^ 64

/-- What a sender relies on: the write position only grows, and the others do
    not touch the history of its test. -/
structure RoomRely (pid : Nat) (s s' : Memory) : Prop extends ClosingRely ByteRing.write_position pid s s' where
  sent : reserved_bytes s ≤ reserved_bytes s'
  lacked : s'.ring.lacked pid = s.ring.lacked pid
  outrun : s'.ring.outrun pid = s.ring.outrun pid

def room : Reliance Memory Nat := ⟨RoomInv, RoomRely⟩

/-- The last fullness test was justified, or deceived by an outrun position. -/
def Justified (pid : Nat) (s : Memory) : Prop := s.ring.lacked pid = true ∨ s.ring.outrun pid = true

/-- A registered sender holds a write position that it has loaded. -/
def Attempting (pid position : Nat) (s : Memory) : Prop := Ready Unreserved pid s ∧ position ≤ reserved_bytes s

/-- What a reply says about the fullness tests of its call. -/
def RoomAnswer (pid : Nat) (reply : Reply Bytes) (s : Memory) : Prop :=
  (reply ≠ .unfinished → Unreserved pid s) ∧
    ∀ status, reply = .sent status → status = .would_block ∨ status = .timed_out → Justified pid s

section

variable {channel : ByteChannel} {pid : Nat} {s s' : Memory} {c : Config Memory (Reply Bytes) Nat}

theorem RoomInv.write_position (h : RoomInv s) (hbounded : Bounded s) :
    s.ring.write_position = reserved_bytes s :=
  h.tail.trans (Nat.mod_eq_of_lt hbounded)

theorem RoomRely.refl (pid : Nat) (s : Memory) : RoomRely pid s s := ⟨.refl _ pid s, le_rfl, rfl, rfl⟩

theorem RoomRely.trans {s₁ s₂ s₃ : Memory} (h : RoomRely pid s₁ s₂) (h' : RoomRely pid s₂ s₃) :
    RoomRely pid s₁ s₃ :=
  ⟨h.toClosingRely.trans h'.toClosingRely, h.sent.trans h'.sent, h'.lacked.trans h.lacked,
    h'.outrun.trans h.outrun⟩

/-- The calls follow their protocol. -/
theorem room_protocol : Protocol room Unreserved where
  refl := RoomRely.refl
  senders _ hinv := hinv.senders
  sender_rely _ _ _ hrely := hrely.sender
  stable pid s s' hrely _ h i hi := h i (hrely.fresh i hi)
  unreserved _ _ h := h
  undisturbed s s' hsame hinv := by
    obtain ⟨_, _, _, rfl⟩ := hsame
    exact ⟨{ hinv with }, fun pid => ⟨⟨.of_same rfl rfl rfl, fun _ h => h, fun _ => rfl⟩, le_rfl, rfl, rfl⟩⟩
  framed pid s s' hframe hinv hidle hsenders hothers := by
    obtain ⟨hclosing, hrely, hidle'⟩ := ring_closing.framed pid s s' hframe hinv.toClosingInv hidle hsenders hothers
    have hsame : reserved_bytes s' = reserved_bytes s := by
      rw [reserved_bytes, hframe.log]
      rfl
    refine ⟨⟨hclosing, ?_⟩, fun other hother => ⟨hrely other hother, hsame.ge, ?_, ?_⟩, hidle'⟩
    · rw [hframe.ring, hsame]
      exact hinv.tail
    · rw [hframe.ring]
    · rw [hframe.ring]

theorem indifferent_room : Indifferent room where
  protocol := room_protocol
  touches s s' h hinv := by
    have hinv : RoomInv s := hinv
    have hsame : reserved_bytes s' = reserved_bytes s := by
      rw [reserved_bytes, h.message, h.count]
      rfl
    refine ⟨⟨h.toUses.inv hinv.toClosingInv, ?_⟩, fun pid => ⟨h.toUses.rely pid, hsame.ge, ?_, ?_⟩⟩
    · rw [hsame]
      exact h.tail.trans hinv.tail
    · rw [h.lacked]
    · rw [h.outrun]
  holding pid i s s' hrely _ h := ⟨hrely.sender.guard.mpr h.1, fun j hj => h.2 j (hrely.fresh j hj)⟩

theorem attempting_stable (pid position : Nat) : Stable room pid (Attempting pid position) := by
  intro s s' hrely hinv h
  exact ⟨room_protocol.ready_stable pid s s' hrely hinv h.1, h.2.trans hrely.sent⟩

theorem justified_lasting (pid : Nat) : Lasting room pid (Justified pid) := by
  constructor
  · rintro s s' hrely _ (h | h)
    · exact .inl (hrely.lacked.trans h)
    · exact .inr (hrely.outrun.trans h)
  · intro s s' hframe h
    rw [Justified, hframe.ring]
    exact h

/-- The history of the fullness test concerns its sender only. -/
theorem RoomInv.note (h : RoomInv s) (lacked : Nat → Bool) (required : Nat → Nat) (outrun : Nat → Bool)
    (writable : Event) (hlacked : ∀ other, other ≠ pid → lacked other = s.ring.lacked other)
    (houtrun : ∀ other, other ≠ pid → outrun other = s.ring.outrun other) :
    let r := { s.ring with lacked := lacked, required := required, outrun := outrun }
    RoomInv { s with ring := r, writable := writable } ∧
      ∀ other, other ≠ pid → RoomRely other s { s with ring := r, writable := writable } :=
  ⟨{ h with }, fun other hother => ⟨⟨.of_same rfl rfl rfl, fun _ h => h, fun _ => rfl⟩, le_rfl,
    hlacked other hother, houtrun other hother⟩⟩

/-- The reservation moves the write position on by the size of its record. -/
theorem RoomInv.reserve (h : RoomInv s) {message : Bytes} (hready : Ready Unreserved pid s) :
    RoomInv (reserve pid s.ring.write_position message s) ∧
      (∀ other, other ≠ pid → RoomRely other s (reserve pid s.ring.write_position message s)) ∧
      Holding pid s.log.count (reserve pid s.ring.write_position message s) := by
  obtain ⟨hclosing, hrely, hholding⟩ :=
    (@reserves_next pid s.ring.write_position message s).step h.toClosingInv hready
  have hsum : reserved_bytes (byte_channel.reserve pid s.ring.write_position message s) =
      reserved_bytes s + record_size message.length := by
    simp only [reserved_bytes, byte_channel.reserve, offset, Function.update_self]
    congr 1
    exact offset_congr fun i hi => Function.update_of_ne hi.ne _ _
  refine ⟨⟨hclosing, ?_⟩, fun other hother => ⟨hrely other hother, ?_, rfl, rfl⟩, hholding⟩
  · rw [hsum, ← Nat.mod_add_mod, ← h.tail]
    rfl
  · rw [hsum]
    exact Nat.le_add_right _ _

/-- A full ring: the free space at the load of `reclaim_position` is too small,
    unless the write position held lies before it. -/
theorem RoomInv.justified (h : RoomInv s) (hbounded : Bounded s) {position required : Nat}
    (hrequired : 0 < required) (hposition : position ≤ reserved_bytes s)
    (hfull : sub64 position s.ring.reclaim_position > channel.capacity_bytes ∨
      required > channel.capacity_bytes - sub64 position s.ring.reclaim_position) :
    Justified pid (note_room channel pid position required s) := by
  have hwrite := h.write_position hbounded
  have hlt : reserved_bytes s < 2 ^ 64 := hbounded
  by_cases houtrun : position < s.ring.reclaim_position
  · right
    simp only [note_room, set_ring, Function.update_self, houtrun, decide_true]
  · left
    rw [sub64_of_le (not_lt.mp houtrun) (by omega)] at hfull
    have hlack : free_space channel s < required := by
      rw [free_space, hwrite]
      omega
    simp only [note_room, set_ring, Function.update_self, hlack, decide_true, Bool.or_true]

/-- The load of `reclaim_position`: if it shows a full ring, that is justified. -/
theorem note_room_safe {position required : Nat} {β : Type} {post : β → Memory → Prop}
    {f : Nat → Prog Memory β} (hrequired : 0 < required) (h : Attempting pid position s)
    (hf : ∀ reclaimed s', Attempting pid position s' →
      (sub64 position reclaimed > channel.capacity_bytes ∨
        required > channel.capacity_bytes - sub64 position reclaimed → Justified pid s') →
      SafeWithin Bounded room pid post (f reclaimed) s') :
    SafeWithin Bounded room pid post
      (.modifyGet (fun s => s.ring.reclaim_position) (note_room channel pid position required) >>= f) s := by
  apply SafeWithin.modifyGet (attempting_stable pid position) h
  intro s' h' hinv hbounded _
  have hinv : RoomInv s' := hinv
  obtain ⟨hinv', hothers⟩ := @RoomInv.note pid _ hinv
    (Function.update s'.ring.lacked pid (s'.ring.lacked pid || decide (free_space channel s' < required)))
    s'.ring.required (Function.update s'.ring.outrun pid (decide (position < s'.ring.reclaim_position))) s'.writable
    (fun other hother => Function.update_of_ne hother _ _) (fun other hother => Function.update_of_ne hother _ _)
  exact ⟨hinv', hothers, hf _ _ h' fun hfull => hinv.justified hbounded hrequired h'.2 hfull⟩

theorem enqueue_loop_justified {message : Bytes} {pick : Nat} {attempts : List Bool} {position : Nat}
    (hrequired : 0 < record_size message.length) (h : Attempting pid position s) :
    SafeWithin Bounded room pid
      (Ended.Post (fun enqueued s' => Ready Unreserved pid s' ∧ (enqueued = false → Justified pid s'))
        fun _ _ => False)
      (enqueue_loop channel pid message pick attempts position) s := by
  induction attempts generalizing position s with
  | nil =>
    unfold enqueue_loop
    apply note_room_safe hrequired h
    intro reclaimed s₁ h₁ hfull
    simp only
    split
    next hroom => exact ⟨h₁.1, fun _ => hfull hroom⟩
    next => trivial
  | cons spurious attempts ih =>
    unfold enqueue_loop
    apply note_room_safe hrequired h
    intro reclaimed s₁ h₁ hfull
    simp only
    split
    next hroom => exact ⟨h₁.1, fun _ => hfull hroom⟩
    next =>
    apply SafeWithin.act (attempting_stable pid position) h₁
    intro s₂ h₂ hinv hbounded _ _
    have hinv : RoomInv s₂ := hinv
    by_cases hexchanged : (!spurious && s₂.ring.write_position == position) = true
    · simp only [hexchanged, if_true]
      simp only [Bool.and_eq_true, beq_iff_eq] at hexchanged
      obtain rfl := hexchanged.2
      obtain ⟨hinv', hothers, hholding⟩ := @RoomInv.reserve pid _ hinv message h₂.1
      refine ⟨hinv', hothers, ?_⟩
      apply (indifferent_room.fill_record _ _ _ _ hholding).bind
      exact fun _ s₃ h₃ => ⟨h₃, fun hfalse => absurd hfalse Bool.noConfusion⟩
    · simp only [hexchanged]
      exact ⟨hinv, fun other _ => RoomRely.refl other s₂, ih ⟨h₂.1, (hinv.write_position hbounded).le⟩⟩

/-- A try to send is refused only with a reason. -/
theorem try_enqueue_justified {message : Bytes} (hrequired : 0 < record_size message.length) :
    TriesEnqueue Bounded room Unreserved pid (Justified pid) (try_enqueue channel pid message) := by
  intro chances s hready
  unfold try_enqueue
  apply SafeWithin.modifyGet (room_protocol.ready_stable pid) hready
  intro s' h' hinv hbounded _
  have hinv : RoomInv s' := hinv
  obtain ⟨hinv', hothers⟩ := @RoomInv.note pid _ hinv (Function.update s'.ring.lacked pid false)
    (Function.update s'.ring.required pid (record_size message.length)) s'.ring.outrun
    (s'.writable.set_retry pid .none) (fun other hother => Function.update_of_ne hother _ _) fun _ _ => rfl
  exact ⟨hinv', hothers, enqueue_loop_justified hrequired ⟨h', (hinv.write_position hbounded).le⟩⟩

/-- The reply of a send. -/
theorem sent_justified {ended : Ended ChannelStatus}
    (h : EndedIdle Unreserved pid (SendEnd (Justified pid)) ended s) : RoomAnswer pid (ended.reply .sent) s := by
  cases ended with
  | returned status =>
    refine ⟨fun _ => h.returned.1, fun status' hsent hstatus => ?_⟩
    cases hsent
    exact h.returned.2 hstatus
  | thrown error => exact ⟨fun _ => h.thrown.1, by rintro status ⟨⟩⟩
  | unfinished => exact ⟨fun hne => absurd rfl hne, by rintro status ⟨⟩⟩

/-- The reply of a call that sends nothing. -/
theorem received_justified {P : Ended (ReceiveResult Bytes) → Memory → Prop}
    {ended : Ended (ReceiveResult Bytes)} (h : EndedIdle Unreserved pid P ended s) :
    RoomAnswer pid (ended.reply .received) s := by
  cases ended with
  | returned result => exact ⟨fun _ => h.returned.1, by rintro status ⟨⟩⟩
  | thrown error => exact ⟨fun _ => h.thrown.1, by rintro status ⟨⟩⟩
  | unfinished => exact ⟨fun hne => absurd rfl hne, by rintro status ⟨⟩⟩

/-- Every call is safe. -/
theorem call_justified (call : Call) (hidle : Unreserved pid s) :
    SafeWithin Bounded room pid (RoomAnswer pid) (call.run channel pid) s := by
  have hR := room_protocol
  have hrefused := justified_lasting pid
  have hlarge : RoomAnswer pid (.sent .message_too_large) s := by
    refine ⟨fun _ => hidle, fun status hsent hstatus => ?_⟩
    cases hsent
    exact absurd hstatus (not_or.mpr ⟨ChannelStatus.noConfusion, ChannelStatus.noConfusion⟩)
  have hrequired {message : Bytes} (hsize : ¬ message.length > max_message_size channel) :
      0 < record_size message.length := by
    have hbounded := channel.bounded
    rw [max_message_size] at hsize
    have hspec := record_size_spec (show message.length < 2 ^ 63 by omega)
    omega
  cases call with
  | try_send message registration chances =>
    rw [Call.run]
    split
    · exact hlarge
    next hsize =>
    apply (hR.try_send_safe hrefused (try_enqueue_justified (hrequired hsize)) registration chances hidle).bind
    exact fun ended s' h' => sent_justified h'
  | send message timed registration turns =>
    rw [Call.run]
    split
    · exact hlarge
    next hsize =>
    apply (hR.send_impl_safe hrefused (try_enqueue_justified (hrequired hsize)) timed registration turns hidle).bind
    exact fun ended s' h' => sent_justified h'
  | try_receive first second =>
    apply (hR.try_receive_safe indifferent_room.try_dequeue first second hidle).bind
    exact fun ended s' h' => received_justified h'
  | receive timed turns =>
    apply (hR.receive_impl_safe indifferent_room.try_dequeue (fun _ _ _ _ h => h) timed turns hidle).bind
    exact fun ended s' h' => received_justified h'
  | close =>
    apply (hR.close_safe hidle).bind
    exact fun first s' h' => ⟨fun _ => h'.1, by rintro status ⟨⟩⟩

theorem room_adequate (channel : ByteChannel) :
    AdequateWithin Bounded (discipline channel) room RoomAnswer where
  refl := RoomRely.refl
  trans _ _ _ _ h h' := h.trans h'
  stable pid reply s s' hrely hinv h :=
    ⟨fun hended => room_protocol.stable pid s s' hrely hinv (h.1 hended), fun status hreply hstatus =>
      (justified_lasting pid).stable s s' hrely hinv (h.2 status hreply hstatus)⟩
  start := by
    rintro pid reply program s _ _ hanswer ⟨hended, call, rfl⟩
    exact call_justified call (hanswer.1 hended)
  immortal _ _ := id

/-- A send that is refused has, in its last try, met a ring with too little
    room for its record, unless the reclaim position that it has compared last
    was beyond the write position it held. -/
theorem refused_for_lack_of_room (hreach : ReachableWithin Bounded (discipline channel) new_channel c)
    {status : ChannelStatus} (hreply : c.procs pid = .ret (.sent status))
    (hstatus : status = .would_block ∨ status = .timed_out) (hfresh : c.shared.ring.outrun pid = false) :
    c.shared.ring.lacked pid = true := by
  have hbounded : Bounded created := by
    rw [Bounded, reserved_bytes, created, offset]
    norm_num
  have hinv : RoomInv created := ⟨new_channel_unused.inv, rfl⟩
  have hstart (other : Nat) : RoomAnswer other .idle created := by
    refine ⟨fun _ => new_channel_unused.unreserved other, ?_⟩
    rintro status ⟨⟩
  have hsafe : SafeWithin Bounded room pid (RoomAnswer pid) (c.procs pid) c.shared := by
    refine ((room_adequate channel).reachable ?_ ?_ ?_ hreach).2.2 pid
    · exact hbounded
    · exact hinv
    · exact hstart
  rw [hreply] at hsafe
  have hanswer : RoomAnswer pid (.sent status) c.shared := hsafe
  rcases hanswer.2 status rfl hstatus with hlacked | houtrun
  · exact hlacked
  · rw [hfresh] at houtrun
    cases houtrun

end

/-- Process 0 has filled the ring with two empty messages, and tries a third. -/
def full : Config Memory (Reply Bytes) Nat :=
  let c := call two_records new_channel 0 send_empty 60
  let c := call two_records c 0 send_empty 60
  call two_records c 0 send_empty 60

theorem refused_for_lack_of_room_full : full.shared.ring.lacked 0 = true := by
  have hcheck (s : Memory) (hs : tame_check s = true) : Bounded s := (tame_check_sane s hs).total
  have hreach : ReachableWithin Bounded (discipline two_records) new_channel full := by
    apply reachable_call _ hcheck (by decide +kernel)
    apply reachable_call _ hcheck (by decide +kernel)
    exact reachable_call .refl hcheck (by decide +kernel)
  have hreply : full.procs 0 = .ret (.sent .would_block) := Prog.eq_ret_of_shown (by decide +kernel)
  exact refused_for_lack_of_room hreach hreply (.inl rfl) (by decide +kernel)

/-- Process 0 begins to send an empty message, process 1 sends one and receives
    it, and then process 0 goes on: the reclaim position it loads is beyond the
    write position it has loaded before. -/
def outrun : Config Memory (Reply Bytes) Nat :=
  let c := call two_records new_channel 0 send_empty 4
  let c := call two_records c 1 send_empty 60
  let c := call two_records c 1 receive_once 60
  c.advance 0 60

/-- There is always room for the empty message, and the send is refused. -/
theorem outrun_is_refused :
    ReachableWithin (fun s => Sane s ∧ record_size 0 ≤ free_space two_records s) (discipline two_records)
        new_channel outrun ∧ outrun.procs 0 = .ret (.sent .would_block) := by
  have hroom (s : Memory) (hs : (tame_check s && decide (record_size 0 ≤ free_space two_records s)) = true) :
      Sane s ∧ record_size 0 ≤ free_space two_records s := by
    rw [Bool.and_eq_true, decide_eq_true_eq] at hs
    exact ⟨tame_check_sane s hs.1, hs.2⟩
  refine ⟨?_, Prog.eq_ret_of_shown (by decide +kernel)⟩
  apply ReachableWithin.advance _ hroom (by decide +kernel)
  apply reachable_call _ hroom (by decide +kernel)
  apply reachable_call _ hroom (by decide +kernel)
  exact reachable_call .refl hroom (by decide +kernel)

end shmchan.byte_channel
