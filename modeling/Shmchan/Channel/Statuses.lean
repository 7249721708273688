import Shmchan.Channel.Delivery
import Shmchan.Channel.Session
import Shmchan.Endpoint.Patience

open process shmchan.endpoint

namespace shmchan.channel

/-- The receives that look at the closed bit before their last try. -/
def Call.patient {channel : Channel} : Call channel → Bool
  | .try_receive _ _ => true
  | .receive timed _ => !timed
  | _ => false

/-- The channel is closed, no sender is left, every item has been claimed, and
    nothing will be sent any more. -/
def Exhausted (channel : Channel) (c : Config Memory (Reply Bytes) Nat) : Prop :=
  ∀ later, ReachableWithin (Bounded channel) (discipline channel) c later →
    later.shared.sender_state = channel_closed_bit ∧ later.shared.log.count = c.shared.log.count ∧
      later.shared.log.claimed = later.shared.log.count

section

variable {channel : Channel} {pid : Nat} {s : Memory} {Q : Memory → Prop}
  {c : Config Memory (Reply Bytes) Nat}

theorem done_stable (channel : Channel) (pid : Nat) : Stable (slot_reliance True channel) pid Endpoint.Done :=
  fun _ _ hrely _ hdone => (hrely.sender trivial).keeps_done hdone

/-- A try that begins when the channel is closed and without senders. -/
theorem tries_rest (hQ : ∀ s, Q s → Bounded channel s) :
    TriesRest Q (slot_reliance True channel) Idle pid Finished (try_dequeue channel pid) := by
  intro chances s hidle hdone
  have hall : SafeWithin Q (slot_reliance True channel) pid (Dequeued True Q pid)
      (try_dequeue channel pid chances) s := try_dequeue_safe hQ chances hidle
  have hwhile : SafeWithin (fun s => Q s ∧ s.Done) (slot_reliance True channel) pid
      (Dequeued True (fun s => Q s ∧ s.Done) pid) (try_dequeue channel pid chances) s :=
    try_dequeue_safe (fun s hs => hQ s hs.1) chances hidle
  apply (hall.confine (Nat.succ_ne_self pid) (done_stable channel) hwhile hdone).mono
  rintro ended s' ⟨_, hend⟩
  cases ended with
  | returned value =>
    intro hnone
    obtain ⟨_, ⟨_, hmissed⟩, _, hfinished⟩ := hend.2.2 hnone
    exact (hfinished trivial).2 hmissed
  | thrown error => trivial
  | unfinished => trivial

theorem finished_stable (channel : Channel) (pid : Nat) : Stable (slot_reliance True channel) pid Finished :=
  fun _ _ hrely _ hfinished => hrely.finished trivial hfinished

theorem patient_safe (hQ : ∀ s, Q s → Bounded channel s) {call : Call channel} (hpatient : call.patient = true)
    (hidle : Idle pid s) :
    SafeWithin Q (slot_reliance True channel) pid
      (fun reply s' => ∀ value, reply = .received { code := .closed, value := value } → Finished s')
      (call.run pid) s := by
  have hR := slot_protocol channel
  have hreceived (ended : Ended (ReceiveResult Bytes)) (s' : Memory) (h : ClosedEnd Finished ended s')
      (value : Option Bytes) (hreply : ended.reply .received = .received { code := .closed, value := value }) :
      Finished s' := by
    cases ended with
    | returned result =>
      cases hreply
      exact h _ rfl rfl
    | thrown error => cases hreply
    | unfinished => cases hreply
  cases call with
  | try_receive first second =>
    rw [Call.run]
    apply (hR.try_receive_patient (tries_dequeue hQ) (tries_rest hQ) first second hidle).bind
    exact fun ended s' h' => hreceived ended s' h'
  | receive timed turns =>
    cases timed with
    | true => cases hpatient
    | false =>
      rw [Call.run]
      apply (hR.receive_patient (tries_dequeue hQ) (tries_rest hQ) turns hidle).bind
      exact fun ended s' h' => hreceived ended s' h'
  | try_send _ _ _ | send _ _ _ _ | close => cases hpatient

/-- A channel that is finished stays so. -/
theorem Finished.exhausted (h : Finished c.shared)
    (hreach : ReachableWithin (Bounded channel) (discipline channel) new_channel c) : Exhausted channel c := by
  intro later hlater
  obtain ⟨hbounded, hinv, hsafe⟩ := reachable_safe hreach
  let A (s : Memory) : Prop := Finished s ∧ s.log.count = c.shared.log.count
  have hA (other : Nat) : Stable (slot_reliance True channel) other A := by
    rintro s s' hrely hinv' ⟨hfinished, hcount⟩
    exact ⟨finished_stable channel other s s' hrely hinv' hfinished,
      ((hrely.sender trivial).count hfinished.1).trans hcount⟩
  obtain ⟨⟨hdone, hdrained⟩, hcount⟩ := (discipline_adequate fun _ h => h).keeps
    (fun other => ⟨other + 1, Nat.succ_ne_self other⟩) hA hbounded hinv hsafe ⟨h, rfl⟩ hlater
  have hinv' : Inv True channel later.shared :=
    ((discipline_adequate fun _ h => h).reachable hbounded hinv hsafe hlater).2.1
  have hclosings := (hinv'.senders trivial).closings
  refine ⟨(hinv'.senders trivial).done_iff.mpr ⟨by have := hdone.1; omega, hdone.2⟩, hcount, ?_⟩
  have hclaimed := hinv'.ordered.claimed_le
  by_contra hne
  have hahead := hinv'.ordered.ahead later.shared.log.claimed le_rfl
  rw [hdrained _ (by omega)] at hahead
  cases hahead

/-- A receive that has returned closed, and whose last try was not too early. -/
theorem closed_finished (hreach : ReachableWithin (Bounded channel) (discipline channel) new_channel c)
    {value : Option Bytes} (hreply : c.procs pid = .ret (.received { code := .closed, value := value }))
    (hpatient : c.shared.hasty pid = false) : Finished c.shared := by
  obtain ⟨_, hsuccess, hgot, _⟩ := reachable_answered hreach hreply
  have hvalue : value = none := by
    cases value with
    | none => rfl
    | some message => exact absurd (hsuccess.mpr rfl) ChannelStatus.noConfusion
  obtain ⟨_, _, _, hend⟩ := (hgot (.inr rfl)).2 hvalue
  rcases (hend trivial).1 with hhasty | hfinished
  · rw [hpatient] at hhasty
    cases hhasty
  · exact hfinished

/-- A `try_receive` or `receive` that returns closed. -/
theorem patient_finished (hreach : ReachableWithin (Bounded channel) (discipline channel) new_channel c)
    {reply : Reply Bytes} {call : Call channel} {later : Config Memory (Reply Bytes) Nat} {value : Option Bytes}
    (hreply : c.procs pid = .ret reply) (hended : reply ≠ .unfinished) (hpatient : call.patient = true)
    (hlater : ReachableWithin (Bounded channel) ((discipline channel).without pid) (begin_call c pid call) later)
    (hclosed : later.procs pid = .ret (.received { code := .closed, value := value })) :
    Finished later.shared ∧ ReachableWithin (Bounded channel) (discipline channel) new_channel later := by
  obtain ⟨hbounded, hinv, hsafe⟩ := reachable_safe hreach
  have hidle : Idle pid c.shared := answered_idle hended (reachable_answered hreach hreply)
  have hstable (reply : Reply Bytes) : Stable (slot_reliance True channel) pid fun s =>
      ∀ value, reply = .received { code := .closed, value := value } → Finished s :=
    fun s s' hrely hinv h value hreply =>
      finished_stable channel pid s s' hrely hinv (h value hreply)
  have hend := (discipline_adequate fun _ h => h).during hstable hbounded hinv hsafe
    (patient_safe (fun _ h => h) hpatient hidle) hlater
  rw [hclosed] at hend
  exact ⟨hend value rfl, (hreach.tail ⟨.start hreply ⟨hended, call, rfl⟩, hbounded⟩).trans hlater.of_without⟩

/-- A receive that returns closed leaves nothing behind. For `receive_for` this
    takes that the last sender had left the closed channel before its last try
    looked at the head: it looks at the closed bit after that try. -/
theorem closed_receive_leaves_nothing
    (hreach : ReachableWithin (Bounded channel) (discipline channel) new_channel c) (pid : Nat)
    (value : Option Bytes) :
    (c.procs pid = .ret (.received { code := .closed, value := value }) → c.shared.hasty pid = false →
      Exhausted channel c) ∧
    ∀ reply (call : Call channel) later, c.procs pid = .ret reply → reply ≠ .unfinished → call.patient = true →
      ReachableWithin (Bounded channel) ((discipline channel).without pid) (begin_call c pid call) later →
      later.procs pid = .ret (.received { code := .closed, value := value }) → Exhausted channel later := by
  constructor
  · exact fun hreply hpatient => Finished.exhausted (closed_finished hreach hreply hpatient) hreach
  · intro reply call later hreply hended hpatient hlater hclosed
    obtain ⟨hfinished, hreach'⟩ := patient_finished hreach hreply hended hpatient hlater hclosed
    exact hfinished.exhausted hreach'

end

/-- Process 0 closes the empty channel, and process 1 has received. -/
def closed_empty : Config Memory (Reply Bytes) Nat :=
  (new_channel.perform 0 ((.close : Call pair).run 0) 10).perform 1 ((.try_receive fair fair : Call pair).run 1) 10

theorem closed_empty_reachable : ReachableWithin (Bounded pair) (discipline pair) new_channel closed_empty := by
  have hstart (pid : Nat) (call : Call pair) : (discipline pair).starts pid .idle (call.run pid) :=
    ⟨by rintro ⟨⟩, call, rfl⟩
  have hclosed : ReachableWithin (Bounded pair) (discipline pair) new_channel
      (new_channel.perform 0 ((.close : Call pair).run 0) 10) :=
    ReachableWithin.perform .refl bounded_check (by decide +kernel) (hstart 0 .close) (by decide +kernel)
  exact hclosed.perform bounded_check (by decide +kernel) (hstart 1 (.try_receive fair fair))
    (by decide +kernel)

theorem closed_receive_leaves_nothing_empty : Exhausted pair closed_empty := by
  have hreply : closed_empty.procs 1 = .ret (.received { code := .closed }) :=
    Prog.eq_ret_of_shown (by decide +kernel)
  exact (closed_receive_leaves_nothing closed_empty_reachable 1 none).1 hreply (by decide +kernel)

end shmchan.channel
