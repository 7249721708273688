import Shmchan.ByteChannel.Delivery
import Shmchan.ByteChannel.Wakes

open process shmchan.endpoint

namespace shmchan.byte_channel

section

variable {channel : ByteChannel} {pid : Nat} {s s' : Memory}

/-- A process that shows a reply waits for nothing and owes no wake-up. -/
def Resting (pid : Nat) (reply : Reply Bytes) (s : Memory) : Prop := reply ≠ .unfinished → Calm pid s

theorem resting_reply {α : Type} {f : α → Reply Bytes} (ended : Ended α) (h : EndedCalm pid ended s) :
    Resting pid (ended.reply f) s := by
  intro hreply
  cases ended with
  | unfinished => exact absurd rfl hreply
  | returned value =>
    apply h
    rintro ⟨⟩
  | thrown error =>
    apply h
    rintro ⟨⟩

theorem call_wakes (call : Call) (hcalm : Calm pid s) :
    SafeWithin (Unwrapped channel) (wake_reliance channel) pid (Resting pid) (call.run channel pid) s := by
  have hR := wake_protocol channel
  cases call with
  | try_send message registration chances =>
    rw [Call.run]
    split
    · exact fun _ => hcalm
    apply (hR.try_send_safe (try_enqueue_wakes pid message) registration chances hcalm).bind
    exact fun ended s' h' => resting_reply ended h'
  | send message timed registration turns =>
    rw [Call.run]
    split
    · exact fun _ => hcalm
    apply (hR.send_impl_safe (try_enqueue_wakes pid message) timed registration turns hcalm).bind
    exact fun ended s' h' => resting_reply ended h'
  | try_receive first second =>
    apply (hR.try_receive_safe (try_dequeue_wakes pid) first second hcalm).bind
    exact fun ended s' h' => resting_reply ended h'
  | receive timed turns =>
    apply (hR.receive_impl_safe (try_dequeue_wakes pid) timed turns (hcalm.woken .readable)).bind
    exact fun ended s' h' => resting_reply ended h'
  | close =>
    apply (hR.close_safe hcalm).bind
    exact fun first s' h' _ => h'

theorem wakes_adequate (channel : ByteChannel) :
    AdequateWithin (Unwrapped channel) (discipline channel) (wake_reliance channel) Resting where
  refl := WakeRely.refl channel
  trans _ _ _ _ h h' := h.trans h'
  stable _ _ s s' hrely hinv h hreply := (wake_protocol channel).calm_stable s s' hrely hinv (h hreply)
  start := by
    rintro pid reply program s _ _ hresting ⟨hreply, call, rfl⟩
    exact call_wakes call (hresting hreply)
  immortal _ _ := id

/-- In every run within `Sane` without a deceived epoch comparison, nobody
    sleeps on what is there, unless a wake-up is on its way. -/
theorem reachable_watched {Q : Memory → Prop} (hQ : ∀ s, Q s → Sane s ∧ s.wrapped = false)
    {c : Config Memory (Reply Bytes) Nat} (hreach : ReachableWithin Q (discipline channel) new_channel c) :
    (∀ word, Watched (watch channel word) word c.shared) ∧
      ∀ pid reply, c.procs pid = .ret reply → reply ≠ .unfinished → Calm pid c.shared := by
  have hinv (c : Config Memory (Reply Bytes) Nat)
      (hc : ReachableWithin Q (discipline channel) new_channel c) : Inv channel c.shared :=
    (reachable_safe (hc.mono fun s hs => (hQ s hs).1)).2.1
  have hunwrapped : ReachableWithin (Unwrapped channel) (discipline channel) new_channel c :=
    (hreach.strengthen hinv).mono fun s hs => ⟨(hQ s hs.1).1, hs.2, (hQ s hs.1).2⟩
  have hreachable : Unwrapped channel c.shared ∧ (wake_reliance channel).inv c.shared ∧ ∀ pid,
      SafeWithin (Unwrapped channel) (wake_reliance channel) pid (Resting pid) (c.procs pid) c.shared := by
    apply (wakes_adequate channel).reachable _ _ _ hunwrapped
    · exact ⟨created_sane, created_inv channel, rfl⟩
    · intro word
      apply Watched.of_no_waiters
      cases word <;> rfl
    · intro pid _ word
      cases word <;> exact ⟨List.not_mem_nil, rfl, rfl⟩
  obtain ⟨_, hwatched, hsafe⟩ := hreachable
  refine ⟨hwatched, fun pid reply hreply hended => ?_⟩
  have hresting := hsafe pid
  rw [hreply] at hresting
  exact hresting hended

/-- A process in the middle of a call. -/
def Busy (c : Config Memory (Reply Bytes) Nat) (pid : Nat) : Prop :=
  ∀ reply, c.procs pid = .ret reply → reply = .unfinished

/-- With tame messages and no deceived epoch comparison, no wake-up is lost. A
    receiver that sleeps while the record at `claim_position` is published, or
    the channel is closed without senders, is about to be woken, or another one
    has been woken and has not ended its next try. A sender that sleeps while
    its record would fit, or the channel is closed, is about to be woken. -/
theorem no_wake_up_is_lost {c : Config Memory (Reply Bytes) Nat}
    (hreach : ReachableWithin (fun s => offset s.log.message s.log.count < 2 ^ 63 ∧ AllTame s ∧ s.wrapped = false)
      (discipline channel) new_channel c) :
    (c.shared.readable.waiters ≠ [] →
      load64 c.shared.ring.data (c.shared.ring.claim_position % channel.capacity_bytes) =
          published_token c.shared.ring.claim_position ∨ c.shared.sender_state = channel_closed_bit →
        ∃ pid, Busy c pid ∧ (c.shared.readable.pending pid ≠ .none ∨ c.shared.readable.retry pid = .awaited ∨
          c.shared.readable.retry pid = .looking c.shared.ring.claim_position)) ∧
    ∀ sender ∈ c.shared.writable.waiters,
      c.shared.ring.required sender ≤ free_space channel c.shared ∨
          c.shared.sender_state &&& channel_closed_bit ≠ 0 →
        ∃ pid, Busy c pid ∧ c.shared.writable.pending pid ≠ .none := by
  have hsane (s : Memory)
      (hs : offset s.log.message s.log.count < 2 ^ 63 ∧ AllTame s ∧ s.wrapped = false) :
      Sane s ∧ s.wrapped = false := ⟨⟨by omega, .inl hs.2.1⟩, hs.2.2⟩
  obtain ⟨hwatched, hcalm⟩ := reachable_watched hsane hreach
  obtain ⟨hsane, hinv, _⟩ := reachable_safe (hreach.mono fun s hs => (hsane s hs).1)
  -- what a process owes or is about to do, it does in the middle of a call
  have hbusy (pid : Nat) (hnot : ¬ Calm pid c.shared) : Busy c pid := by
    intro reply hreply
    by_contra hended
    exact hnot (hcalm pid reply hreply hended)
  have hpending {word : Word} {pid : Nat} (hne : (c.shared.event word).pending pid ≠ .none) : Busy c pid :=
    hbusy pid fun h => hne (h word).pending
  have hcoming {word : Word} (h : (c.shared.event word).Coming) :
      ∃ pid, Busy c pid ∧ (c.shared.event word).pending pid ≠ .none := by
    obtain ⟨pid, hpid⟩ := h
    have hne : (c.shared.event word).pending pid ≠ .none := by
      rcases hpid with hpid | hpid <;>
      · rw [hpid]
        exact Pending.noConfusion
    exact ⟨pid, hpending hne, hne⟩
  refine ⟨fun hasleep hcause => ?_, fun sender hsender hcause => ?_⟩
  swap
  · exact hcoming ((hwatched .writable).called sender hsender hcause)
  by_cases hshut : c.shared.Shut .readable
  · obtain ⟨sleeper, hsleeper⟩ := List.exists_mem_of_ne_nil _ hasleep
    obtain ⟨pid, hpid, hne⟩ := hcoming ((hwatched .readable).called sleeper hsleeper (.inr hshut))
    exact ⟨pid, hpid, .inl hne⟩
  · have htame : AllTame c.shared := by
      cases hreach with
      | refl => exact fun i hi => absurd hi (Nat.not_lt_zero i)
      | tail _ hstep => exact hstep.2.2.1
    have hclaim : Sane (claim channel 0 c.shared.ring.claim_position c.shared) := ⟨hsane.total, .inl htame⟩
    have hgenuine := hinv.genuine hclaim
      ⟨_, le_rfl, hinv.placed.claimed_le, hinv.placed.claim_position⟩ (hcause.resolve_right hshut)
    obtain ⟨f, _, hbearer⟩ := (hwatched .readable).served hasleep hshut
    rcases hbearer c.shared.log.claimed ⟨rfl, hgenuine.1⟩ with hne | htrying
    · exact ⟨_, hpending hne, .inl hne⟩
    · refine ⟨f c.shared.log.claimed, hbusy _ fun h => ?_, ?_⟩
      · rw [(h .readable).retry] at htrying
        exact htrying
      · cases hretry : c.shared.readable.retry (f c.shared.log.claimed) with
        | none =>
          rw [show (c.shared.event .readable).retry _ = Retry.none from hretry] at htrying
          exact htrying.elim
        | awaited => exact .inr (.inl rfl)
        | looking position =>
          rw [show (c.shared.event .readable).retry _ = Retry.looking position from hretry] at htrying
          have hposition : position = c.shared.ring.claim_position := htrying
          exact .inr (.inr (by rw [hposition]))

end

/-- Process 1 sleeps on the empty channel, and process 0 has published an empty
    message and not yet signalled it. -/
def unsignalled : Config Memory (Reply Bytes) Nat :=
  let turn := { first := fair_dequeue, second := fair_dequeue, last := fair_dequeue }
  call two_records (call two_records new_channel 1 (.receive false [turn]) 5) 0 send_empty 10

theorem no_wake_up_is_lost_unsignalled :
    ∃ pid, Busy unsignalled pid ∧ (unsignalled.shared.readable.pending pid ≠ .none ∨
      unsignalled.shared.readable.retry pid = .awaited ∨
        unsignalled.shared.readable.retry pid = .looking unsignalled.shared.ring.claim_position) := by
  have hcheck (s : Memory) (hs : (tame_check s && !s.wrapped) = true) :
      offset s.log.message s.log.count < 2 ^ 63 ∧ AllTame s ∧ s.wrapped = false := by
    rw [Bool.and_eq_true, Bool.not_eq_true'] at hs
    exact ⟨(of_decide_eq_true hs.1).1, (of_decide_eq_true hs.1).2, hs.2⟩
  have hreach : ReachableWithin
      (fun s => offset s.log.message s.log.count < 2 ^ 63 ∧ AllTame s ∧ s.wrapped = false)
      (discipline two_records) new_channel unsignalled := by
    apply reachable_call _ hcheck (by decide +kernel)
    exact reachable_call .refl hcheck (by decide +kernel)
  exact (no_wake_up_is_lost hreach).1 (by decide +kernel) (.inl (by decide +kernel))

end shmchan.byte_channel
