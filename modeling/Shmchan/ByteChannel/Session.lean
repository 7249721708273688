import Shmchan.ByteChannel.Dequeue
import Shmchan.Endpoint.Protocol

open process shmchan.endpoint

namespace shmchan.byte_channel

/-- What a try to receive says: what it returns has been delivered, and without
    a message there was none to claim. -/
def Got (pid : Nat) (value : Option Bytes) (s : Memory) : Prop :=
  (∀ message, value = some message → ∃ index, Finished pid index (some message) s) ∧
    (value = none → Emptied pid s)

/-- What the exception of a try to receive says: its record is lost. -/
def Failed (pid : Nat) (error : Exception) (s : Memory) : Prop :=
  error = .bad_alloc ∧ ∃ index, Finished pid index none s

/-- What is known while a process shows a reply. -/
def Answered (pid : Nat) : Reply Bytes → Memory → Prop
  | .idle, s => Idle pid s
  | .sent _, s => Idle pid s
  | .received result, s => Idle pid s ∧ ReceiveEnd (Got pid) (Failed pid) (.returned result) s
  | .closing _, s => Idle pid s ∧ 0 < s.closings
  | .threw error, s => Idle pid s ∧ (error = .overflow_error "shmchan: too many concurrent senders" ∨
      error = .system_error "futex(FUTEX_WAIT)" ∨ Failed pid error s)
  | .unfinished, _ => True

section

variable {channel : ByteChannel} {pid : Nat} {s s' : Memory}

/-- The ring does not care about `sender_state`, nor about the epoch words. -/
theorem Inv.framed (h : Inv channel s) (hframe : Framed s s')
    (hsenders : Senders s'.sender_state s'.closings s'.guards s'.log.phase) : Inv channel s' := by
  obtain ⟨hring, hlog, hreceiving, hhasty⟩ := hframe
  cases s
  cases s'
  simp only at hring hlog hreceiving hhasty
  subst hring hlog hreceiving hhasty
  exact { h with senders := hsenders }

theorem rely_of_framed {other : Nat} (hframe : Framed s s') (hsender : SenderRely other s s') :
    Rely channel other s s' := by
  obtain ⟨hring, hlog, hreceiving, hhasty⟩ := hframe
  cases s
  cases s'
  simp only at hring hlog hreceiving hhasty
  subst hring hlog hreceiving hhasty
  exact { Rely.refl channel other _ with toSenderRely := hsender }

theorem idle_framed (h : Idle pid s) (hframe : Framed s s') : Idle pid s' := by
  refine ⟨⟨?_, ?_, ?_⟩, ?_⟩
  · rw [hframe.log]
    exact h.holder
  · rw [hframe.ring]
    exact h.locker
  · rw [hframe.ring]
    exact h.owes_scan
  · rw [hframe.receiving]
    exact h.receiving

/-- The byte channel follows the protocol of the calls. -/
theorem ring_protocol (channel : ByteChannel) : Protocol (ring_reliance channel) Idle where
  refl := Rely.refl channel
  senders _ hinv := hinv.senders
  sender_rely _ _ _ hrely := hrely.toSenderRely
  stable := idle_stable channel
  unreserved pid s hidle i hi := hidle.holder i (by rw [hi]; rfl)
  undisturbed s s' hsame hinv := ⟨hinv.undisturbed hsame, fun pid => rely_of_undisturbed channel pid hsame⟩
  framed pid s s' hframe hinv hidle hsenders hothers :=
    ⟨Inv.framed hinv hframe hsenders,
      fun other hother => rely_of_framed hframe (hothers other hother), idle_framed hidle hframe⟩

theorem tries_enqueue {message : Bytes} (hfits : message.length + 32 ≤ channel.capacity_bytes) :
    TriesEnqueue Sane (ring_reliance channel) Idle pid (fun _ => True) (try_enqueue channel pid message) := by
  intro chances s hready
  apply (try_enqueue_safe chances hfits ⟨hready.1, hready.2⟩).mono
  intro ended s' hend
  cases ended with
  | returned enqueued => exact ⟨⟨hend.toIdle, hend.guard⟩, fun _ => trivial⟩
  | thrown error => exact hend
  | unfinished => trivial

theorem tries_dequeue :
    TriesDequeue Sane (ring_reliance channel) Idle pid (Got pid) (Failed pid) (try_dequeue channel pid) :=
  fun chances _ hidle => try_dequeue_safe chances hidle

theorem finished_value_stable (channel : ByteChannel) (pid : Nat) (value : Option Bytes) :
    Stable (ring_reliance channel) pid fun s => ∃ index, Finished pid index value s := by
  rintro s s' hrely hinv ⟨index, h⟩
  exact ⟨index, finished_stable channel pid index value s s' hrely hinv h⟩

theorem got_stable (channel : ByteChannel) (pid : Nat) (value : Option Bytes) :
    Stable (ring_reliance channel) pid (Got pid value) := by
  intro s s' hrely hinv h
  refine ⟨fun message hmessage => ?_, fun hnone => ?_⟩
  · exact finished_value_stable channel pid _ s s' hrely hinv (h.1 message hmessage)
  · exact emptied_stable channel pid s s' hrely hinv (h.2 hnone)

theorem failed_stable (channel : ByteChannel) (pid : Nat) (error : Exception) :
    Stable (ring_reliance channel) pid (Failed pid error) :=
  fun s s' hrely hinv h => ⟨h.1, finished_value_stable channel pid none s s' hrely hinv h.2⟩

/-- What a reply says stays true. -/
theorem answered_stable (channel : ByteChannel) (pid : Nat) (reply : Reply Bytes) :
    Stable (ring_reliance channel) pid (Answered pid reply) := by
  have hidle := idle_stable channel pid
  intro s s' hrely hinv h
  cases reply with
  | idle => exact hidle s s' hrely hinv h
  | sent status => exact hidle s s' hrely hinv h
  | received result =>
    obtain ⟨hidle', hsuccess, hgot, hdone⟩ := h
    exact ⟨hidle s s' hrely hinv hidle', hsuccess,
      fun hcode => got_stable channel pid result.value s s' hrely hinv (hgot hcode),
      fun hcode => hrely.toSenderRely.keeps_done (hdone hcode)⟩
  | closing first => exact ⟨hidle s s' hrely hinv h.1, h.2.trans_le hrely.closings⟩
  | threw error =>
    refine ⟨hidle s s' hrely hinv h.1, h.2.imp id (Or.imp id ?_)⟩
    exact failed_stable channel pid error s s' hrely hinv
  | unfinished => trivial

/-- The reply of a send. -/
theorem sent_answered (ended : Ended ChannelStatus) (h : EndedIdle Idle pid (SendEnd fun _ => True) ended s) :
    Answered pid (ended.reply .sent) s := by
  cases ended with
  | returned status => exact h.returned.1
  | thrown error =>
    obtain ⟨hidle, hend⟩ := h.thrown
    exact ⟨hidle, hend.imp id .inl⟩
  | unfinished => trivial

/-- The reply of a receive. -/
theorem received_answered (ended : Ended (ReceiveResult Bytes))
    (h : EndedIdle Idle pid (ReceiveEnd (Got pid) (Failed pid)) ended s) :
    Answered pid (ended.reply .received) s := by
  cases ended with
  | returned result => exact h.returned
  | thrown error =>
    obtain ⟨hidle, hend⟩ := h.thrown
    exact ⟨hidle, .inr hend.symm⟩
  | unfinished => trivial

/-- Every call is safe. -/
theorem call_safe (call : Call) (hidle : Idle pid s) :
    SafeWithin Sane (ring_reliance channel) pid (Answered pid) (call.run channel pid) s := by
  have hR := ring_protocol channel
  have hrefused : Lasting (ring_reliance channel) pid fun _ => True := .const True
  have hlarger := channel.larger
  have hlarge (s : Memory) (hidle : Idle pid s) : SafeWithin Sane (ring_reliance channel) pid (Answered pid)
      (.ret (.sent .message_too_large)) s := hidle
  cases call with
  | try_send message registration chances =>
    rw [Call.run]
    split
    · exact hlarge s hidle
    next hsize =>
    have hfits : message.length + 32 ≤ channel.capacity_bytes := by
      rw [max_message_size, sizeof_record_header] at hsize
      omega
    apply (hR.try_send_safe hrefused (tries_enqueue hfits) registration chances hidle).bind
    exact fun ended s' h' => sent_answered ended h'
  | send message timed registration turns =>
    rw [Call.run]
    split
    · exact hlarge s hidle
    next hsize =>
    have hfits : message.length + 32 ≤ channel.capacity_bytes := by
      rw [max_message_size, sizeof_record_header] at hsize
      omega
    apply (hR.send_impl_safe hrefused (tries_enqueue hfits) timed registration turns hidle).bind
    exact fun ended s' h' => sent_answered ended h'
  | try_receive first second =>
    apply (hR.try_receive_safe tries_dequeue first second hidle).bind
    exact fun ended s' h' => received_answered ended h'
  | receive timed turns =>
    apply (hR.receive_impl_safe tries_dequeue (got_stable channel pid none) timed turns hidle).bind
    exact fun ended s' h' => received_answered ended h'
  | close =>
    apply (hR.close_safe hidle).bind
    exact fun first s' h' => h'

theorem answered_idle {reply : Reply Bytes} (hreply : reply ≠ .unfinished) (h : Answered pid reply s) :
    Idle pid s := by
  cases reply with
  | idle => exact h
  | sent status => exact h
  | received result => exact h.1
  | closing first => exact h.1
  | threw error => exact h.1
  | unfinished => exact absurd rfl hreply

theorem discipline_adequate (channel : ByteChannel) :
    AdequateWithin Sane (discipline channel) (ring_reliance channel) Answered where
  refl := Rely.refl channel
  trans _ _ _ _ h h' := h.trans h'
  stable := answered_stable channel
  start := by
    rintro pid reply program s _ _ hanswered ⟨hreply, call, rfl⟩
    exact call_safe call (answered_idle hreply hanswered)
  immortal _ _ := id

/-- The new channel. -/
theorem created_inv (channel : ByteChannel) : Inv channel created where
  placed := {
    reclaimed_le := le_rfl
    claimed_le := le_rfl
    fits := fun i hi => absurd hi (Nat.not_lt_zero i)
    write_position := rfl
    claim_position := rfl
    reclaim_position := rfl
    room := Nat.zero_le _
    total := by
      rw [created, offset]
      norm_num }
  phased := {
    reclaimed := fun i hi => absurd hi (Nat.not_lt_zero i)
    behind := fun i hi => absurd hi (Nat.not_lt_zero i)
    ahead := fun _ _ => Phase.noConfusion
    beyond := fun _ _ _ => Phase.noConfusion
    occupied := fun i hi => absurd hi (Nat.not_lt_zero i)
    vacant := fun _ _ => rfl }
  stored i _ hi := absurd hi (Nat.not_lt_zero i)
  unmistakable _ x _ _ hx := by
    have hzero : (created.ring.data x).toNat = 0 := rfl
    rw [hzero] at hx
    cases hx
  honest := rfl
  locked := rfl
  owed hlt := absurd hlt (Nat.lt_irrefl 0)
  receiving pid := by
    rintro (howes | ⟨i, hi⟩)
    · cases howes
    · cases hi
  delivered x hx := absurd hx List.not_mem_nil
  once := List.nodup_nil
  finishers := .empty 4 _
  claims := rfl
  accesses a ha := absurd ha List.not_mem_nil
  senders := {
    word := rfl
    bound := Nat.two_pow_pos 31
    closings := Nat.zero_le 1
    owner := fun _ _ hi => by cases hi }

theorem created_sane : Sane created := by
  refine ⟨?_, .inr rfl⟩
  rw [created, offset]
  norm_num

theorem created_idle (pid : Nat) : Idle pid created :=
  ⟨⟨fun _ => (Option.some_ne_none pid).symm, (Option.some_ne_none pid).symm, rfl⟩, rfl⟩

/-- In every state of every run within `Sane`, the invariant holds and every
    process is safe; what a process shows is true. -/
theorem reachable_safe {c : Config Memory (Reply Bytes) Nat}
    (hreach : ReachableWithin Sane (discipline channel) new_channel c) :
    Sane c.shared ∧ Inv channel c.shared ∧
      ∀ pid, SafeWithin Sane (ring_reliance channel) pid (Answered pid) (c.procs pid) c.shared := by
  apply (discipline_adequate channel).reachable _ _ _ hreach
  · exact created_sane
  · exact created_inv channel
  · exact created_idle

theorem reachable_answered {c : Config Memory (Reply Bytes) Nat}
    (hreach : ReachableWithin Sane (discipline channel) new_channel c) {reply : Reply Bytes}
    (hreply : c.procs pid = .ret reply) : Answered pid reply c.shared := by
  have hsafe := (reachable_safe hreach).2.2 pid
  rw [hreply] at hsafe
  exact hsafe

end

end shmchan.byte_channel
