import Shmchan.Channel.Tries
import Shmchan.Endpoint.Protocol

open process shmchan.endpoint

namespace shmchan.channel

/-- A send has found the slot of the next position not free. -/
def Refused (Q : Memory → Prop) (channel : Channel) (_ : Memory) : Prop := ∃ s, Q s ∧ ¬ Free channel s

/-- What is known while a process shows a reply. -/
def Answered (Q : Memory → Prop) (channel : Channel) (pid : Nat) : Reply Bytes → Memory → Prop
  | .idle, s => Idle pid s
  | .sent status, s => Idle pid s ∧ SendEnd (Refused Q channel) (.returned status) s
  | .received result, s => Idle pid s ∧ ReceiveEnd (Got True Q pid) (fun _ _ => False) (.returned result) s
  | .closing _, s => Idle pid s ∧ 0 < s.closings
  | .threw error, s => Idle pid s ∧ (error = .overflow_error "shmchan: too many concurrent senders" ∨
      error = .system_error "futex(FUTEX_WAIT)")
  | .unfinished, _ => True

section

variable {channel : Channel} {pid : Nat} {s s' : Memory} {Q : Memory → Prop}
  {c : Config Memory (Reply Bytes) Nat}

/-- The slots do not care about `sender_state`, nor about the epoch words. -/
theorem Inv.framed (h : Inv True channel s) (hframe : Framed s s')
    (hsenders : Senders s'.sender_state s'.closings s'.guards s'.log.phase) : Inv True channel s' := by
  obtain ⟨hring, hlog, hreceiving, hhasty⟩ := hframe
  cases s
  cases s'
  simp only at hring hlog hreceiving hhasty
  subst hring hlog hreceiving hhasty
  exact { h with senders := fun _ => hsenders }

theorem rely_of_framed {other : Nat} (hframe : Framed s s') (hsender : SenderRely other s s') :
    Rely True channel other s s' := by
  obtain ⟨hring, hlog, hreceiving, hhasty⟩ := hframe
  cases s
  cases s'
  simp only at hring hlog hreceiving hhasty
  subst hring hlog hreceiving hhasty
  exact { Rely.refl True channel other _ with sender := fun _ => hsender }

theorem idle_framed (h : Idle pid s) (hframe : Framed s s') : Idle pid s' := by
  rw [Idle, hframe.log]
  exact h

/-- The channel follows the protocol of the calls. -/
theorem slot_protocol (channel : Channel) : Protocol (slot_reliance True channel) Idle where
  refl := Rely.refl True channel
  senders _ hinv := hinv.senders trivial
  sender_rely _ _ _ hrely := hrely.sender trivial
  stable := idle_stable True channel
  unreserved pid s hidle i hi := hidle i (by rw [hi]; rfl)
  undisturbed s s' hsame hinv :=
    ⟨Inv.undisturbed hinv hsame, fun pid => rely_of_undisturbed True channel pid hsame⟩
  framed pid s s' hframe hinv hidle hsenders hothers :=
    ⟨Inv.framed hinv hframe hsenders, fun other hother => rely_of_framed hframe (hothers other hother),
      idle_framed hidle hframe⟩

theorem refused_lasting (Q : Memory → Prop) (channel : Channel) (pid : Nat) :
    Lasting (slot_reliance True channel) pid (Refused Q channel) :=
  .const _

theorem tries_enqueue (hQ : ∀ s, Q s → Bounded channel s) (value : Value channel) :
    TriesEnqueue Q (slot_reliance True channel) Idle pid (Refused Q channel)
      (try_enqueue channel pid value.1) := by
  intro chances s hready
  apply (try_enqueue_safe hQ chances value.2 ⟨hready.1, fun _ => hready.2⟩).mono
  intro ended s' hend
  cases ended with
  | returned enqueued => exact ⟨⟨hend.1.idle, hend.1.guard trivial⟩, hend.2.2⟩
  | thrown error => exact hend
  | unfinished => trivial

theorem tries_dequeue (hQ : ∀ s, Q s → Bounded channel s) :
    TriesDequeue Q (slot_reliance True channel) Idle pid (Got True Q pid) (fun _ _ => False)
      (try_dequeue channel pid) := by
  intro chances s hidle
  apply (try_dequeue_safe hQ chances hidle).mono
  intro ended s' hend
  cases ended with
  | returned value => exact hend
  | thrown error => exact hend.elim
  | unfinished => trivial

/-- What a reply says stays true. -/
theorem answered_stable (Q : Memory → Prop) (channel : Channel) (pid : Nat) (reply : Reply Bytes) :
    Stable (slot_reliance True channel) pid (Answered Q channel pid reply) := by
  have hidle := idle_stable True channel pid
  intro s s' hrely hinv h
  cases reply with
  | idle => exact hidle s s' hrely hinv h
  | sent status => exact ⟨hidle s s' hrely hinv h.1, h.2⟩
  | received result =>
    obtain ⟨hidle', hsuccess, hgot, hdone⟩ := h
    exact ⟨hidle s s' hrely hinv hidle', hsuccess,
      fun hcode => got_stable True channel Q pid result.value s s' hrely hinv (hgot hcode),
      fun hcode => (hrely.sender trivial).keeps_done (hdone hcode)⟩
  | closing first =>
    exact ⟨hidle s s' hrely hinv h.1, h.2.trans_le (hrely.sender trivial).closings⟩
  | threw error => exact ⟨hidle s s' hrely hinv h.1, h.2⟩
  | unfinished => trivial

/-- The reply of a send. -/
theorem sent_answered (ended : Ended ChannelStatus)
    (h : EndedIdle Idle pid (SendEnd (Refused Q channel)) ended s) :
    Answered Q channel pid (ended.reply .sent) s := by
  cases ended with
  | returned status => exact h.returned
  | thrown error => exact h.thrown
  | unfinished => trivial

/-- The reply of a receive. -/
theorem received_answered (ended : Ended (ReceiveResult Bytes))
    (h : EndedIdle Idle pid (ReceiveEnd (Got True Q pid) fun _ _ => False) ended s) :
    Answered Q channel pid (ended.reply .received) s := by
  cases ended with
  | returned result => exact h.returned
  | thrown error =>
    obtain ⟨hidle, hend⟩ := h.thrown
    exact ⟨hidle, .inr (hend.resolve_left id)⟩
  | unfinished => trivial

/-- Every call is safe. -/
theorem call_safe (hQ : ∀ s, Q s → Bounded channel s) (call : Call channel) (hidle : Idle pid s) :
    SafeWithin Q (slot_reliance True channel) pid (Answered Q channel pid) (call.run pid) s := by
  have hR := slot_protocol channel
  have hrefused := refused_lasting Q channel pid
  cases call with
  | try_send value registration chances =>
    rw [Call.run]
    apply (hR.try_send_safe hrefused (tries_enqueue hQ value) registration chances hidle).bind
    exact fun ended s' h' => sent_answered ended h'
  | send value timed registration turns =>
    rw [Call.run]
    apply (hR.send_impl_safe hrefused (tries_enqueue hQ value) timed registration turns hidle).bind
    exact fun ended s' h' => sent_answered ended h'
  | try_receive first second =>
    rw [Call.run]
    apply (hR.try_receive_safe (tries_dequeue hQ) first second hidle).bind
    exact fun ended s' h' => received_answered ended h'
  | receive timed turns =>
    rw [Call.run]
    apply (hR.receive_impl_safe (tries_dequeue hQ) (got_stable True channel Q pid none) timed turns hidle).bind
    exact fun ended s' h' => received_answered ended h'
  | close =>
    rw [Call.run]
    apply (hR.close_safe hidle).bind
    exact fun first s' h' => h'

theorem answered_idle {reply : Reply Bytes} (hreply : reply ≠ .unfinished)
    (h : Answered Q channel pid reply s) : Idle pid s := by
  cases reply with
  | idle => exact h
  | sent status => exact h.1
  | received result => exact h.1
  | closing first => exact h.1
  | threw error => exact h.1
  | unfinished => exact absurd rfl hreply

theorem discipline_adequate (hQ : ∀ s, Q s → Bounded channel s) :
    AdequateWithin Q (discipline channel) (slot_reliance True channel) (Answered Q channel) where
  refl := Rely.refl True channel
  trans _ _ _ _ h h' := h.trans h'
  stable := answered_stable Q channel
  start := by
    rintro pid reply program s _ _ hanswered ⟨hreply, call, rfl⟩
    exact call_safe hQ call (answered_idle hreply hanswered)
  immortal _ _ := id

/-- In every state of every run with few enough items, the invariant holds and
    every process is safe; what a process shows is true. -/
theorem reachable_safe (hreach : ReachableWithin (Bounded channel) (discipline channel) new_channel c) :
    Bounded channel c.shared ∧ Inv True channel c.shared ∧ ∀ pid, SafeWithin (Bounded channel)
      (slot_reliance True channel) pid (Answered (Bounded channel) channel pid) (c.procs pid) c.shared := by
  apply (discipline_adequate fun _ h => h).reachable _ _ _ hreach
  · exact created_bounded channel
  · exact created_inv True channel
  · exact created_idle

theorem reachable_answered (hreach : ReachableWithin (Bounded channel) (discipline channel) new_channel c)
    {reply : Reply Bytes} (hreply : c.procs pid = .ret reply) :
    Answered (Bounded channel) channel pid reply c.shared := by
  have hsafe := (reachable_safe hreach).2.2 pid
  rw [hreply] at hsafe
  exact hsafe

end

end shmchan.channel
