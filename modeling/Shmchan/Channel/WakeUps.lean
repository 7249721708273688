import Shmchan.Channel.Statuses
import Shmchan.Channel.Wakes

open process shmchan.endpoint

namespace shmchan.channel

/-- A process that shows a reply waits for nothing and owes no wake-up. -/
def Resting (pid : Nat) (reply : Reply Bytes) (s : Memory) : Prop := reply ≠ .unfinished → Calm pid s

/-- A process in the middle of a call. -/
def Busy (c : Config Memory (Reply Bytes) Nat) (pid : Nat) : Prop :=
  ∀ reply, c.procs pid = .ret reply → reply = .unfinished

section

variable {channel : Channel} {pid : Nat} {s s' : Memory}

theorem resting_reply {α : Type} {f : α → Reply Bytes} (ended : Ended α) (h : EndedCalm pid ended s) :
    Resting pid (ended.reply f) s := by
  intro hreply
  cases ended with
  | unfinished => exact absurd rfl hreply
  | returned value =>
    apply h
    rintro ⟨⟩
  | thrown error =>
    apply h
    rintro ⟨⟩

theorem call_wakes (call : Call channel) (hcalm : Calm pid s) :
    SafeWithin (Unwrapped channel) (wake_reliance channel) pid (Resting pid) (call.run pid) s := by
  have hR := wake_protocol channel
  cases call with
  | try_send value registration chances =>
    apply (hR.try_send_safe (try_enqueue_wakes channel pid value.1) registration chances hcalm).bind
    exact fun ended s' h' => resting_reply ended h'
  | send value timed registration turns =>
    apply (hR.send_impl_safe (try_enqueue_wakes channel pid value.1) timed registration turns hcalm).bind
    exact fun ended s' h' => resting_reply ended h'
  | try_receive first second =>
    apply (hR.try_receive_safe (try_dequeue_wakes channel pid) first second hcalm).bind
    exact fun ended s' h' => resting_reply ended h'
  | receive timed turns =>
    apply (hR.receive_impl_safe (try_dequeue_wakes channel pid) timed turns (hcalm.woken .readable)).bind
    exact fun ended s' h' => resting_reply ended h'
  | close =>
    apply (hR.close_safe hcalm).bind
    exact fun first s' h' _ => h'

theorem wakes_adequate (channel : Channel) :
    AdequateWithin (Unwrapped channel) (discipline channel) (wake_reliance channel) Resting where
  refl := (wake_protocol channel).refl
  trans _ _ _ _ h h' word := (h word).trans (h' word)
  stable _ _ s s' hrely hinv h hreply := (wake_protocol channel).calm_stable s s' hrely hinv (h hreply)
  start := by
    rintro pid reply program s _ _ hresting ⟨hreply, call, rfl⟩
    exact call_wakes call (hresting hreply)
  immortal _ _ := id

/-- A run in which no epoch comparison is deceived and no try gives up while
    something further on is ready. -/
def Orderly (channel : Channel) (s : Memory) : Prop :=
  Bounded channel s ∧ s.wrapped = false ∧ s.ring.passed_over = false

instance (channel : Channel) (s : Memory) : Decidable (Orderly channel s) :=
  inferInstanceAs (Decidable (_ ∧ _))

theorem reachable_watched {c : Config Memory (Reply Bytes) Nat}
    (hreach : ReachableWithin (Orderly channel) (discipline channel) new_channel c) :
    Unwrapped channel c.shared ∧ (∀ word, Watched (watch channel word) word c.shared) ∧
      ∀ pid reply, c.procs pid = .ret reply → reply ≠ .unfinished → Calm pid c.shared := by
  have hinv (c : Config Memory (Reply Bytes) Nat)
      (hc : ReachableWithin (Orderly channel) (discipline channel) new_channel c) : Inv True channel c.shared :=
    (reachable_safe (hc.mono fun s hs => hs.1)).2.1
  have hunwrapped : ReachableWithin (Unwrapped channel) (discipline channel) new_channel c :=
    (hreach.strengthen hinv).mono fun s hs => ⟨hs.1.1, hs.2, hs.1.2.1, hs.1.2.2⟩
  have hreachable : Unwrapped channel c.shared ∧ (wake_reliance channel).inv c.shared ∧ ∀ pid,
      SafeWithin (Unwrapped channel) (wake_reliance channel) pid (Resting pid) (c.procs pid) c.shared := by
    apply (wakes_adequate channel).reachable _ _ _ hunwrapped
    · exact ⟨created_bounded channel, created_inv True channel, rfl, rfl⟩
    · intro word
      apply Watched.of_no_waiters
      cases word <;> rfl
    · intro pid _ word
      cases word <;> exact ⟨List.not_mem_nil, rfl, rfl⟩
  obtain ⟨hQ, hwatched, hsafe⟩ := hreachable
  refine ⟨hQ, hwatched, fun pid reply hreply hended => ?_⟩
  have hresting := hsafe pid
  rw [hreply] at hresting
  exact hresting hended

/-- An item in reach of a word on which somebody sleeps, or the closing of the
    channel, has somebody in the middle of a call who sees to it. -/
theorem bearer_is_busy {c : Config Memory (Reply Bytes) Nat}
    (hreach : ReachableWithin (Orderly channel) (discipline channel) new_channel c) (word : Word) (item : Nat)
    (hasleep : (c.shared.event word).waiters ≠ [])
    (hcause : (watch channel word).Item c.shared item ∨ c.shared.Shut word) :
    ∃ pid, Busy c pid ∧ pid ∉ (c.shared.event word).waiters ∧
      ((c.shared.event word).pending pid ≠ .none ∨ (c.shared.event word).retry pid = .awaited) := by
  obtain ⟨_, hwatched, hcalm⟩ := reachable_watched hreach
  have hbearer : ∃ pid, (watch channel word).Bearer word c.shared pid := by
    by_cases hshut : c.shared.Shut word
    · obtain ⟨sleeper, hsleeper⟩ := List.exists_mem_of_ne_nil _ hasleep
      obtain ⟨pid, hpid⟩ := (hwatched word).called sleeper hsleeper (.inr hshut)
      refine ⟨pid, .inl ?_⟩
      rcases hpid with hpid | hpid <;>
      · rw [hpid]
        exact Pending.noConfusion
    · obtain ⟨f, _, hf⟩ := (hwatched word).served hasleep hshut
      exact ⟨f item, hf item (hcause.resolve_right hshut)⟩
  obtain ⟨pid, hpid⟩ := hbearer
  -- whoever sees to the item has not ended its call and does not sleep
  have hactive (hpending : (c.shared.event word).pending pid = .none)
      (hretry : (c.shared.event word).retry pid = .none) : False := by
    rw [Watch.Bearer, hpending, hretry] at hpid
    exact hpid.elim (fun hne => hne rfl) id
  refine ⟨pid, fun reply hreply => ?_, fun hsleeps => ?_, hpid.imp id fun htrying => ?_⟩
  · by_contra hended
    have hown := hcalm pid reply hreply hended word
    exact hactive hown.pending hown.retry
  · obtain ⟨hpending, hretry⟩ := (hwatched word).quiet pid hsleeps
    exact hactive hpending hretry
  · cases hretry : (c.shared.event word).retry pid with
    | awaited => rfl
    | none =>
      rw [hretry] at htrying
      exact htrying.elim
    | looking position =>
      rw [hretry] at htrying
      cases word <;> exact htrying.elim

theorem slot_full_bearer {c : Config Memory (Reply Bytes) Nat}
    (hreach : ReachableWithin (Orderly channel) (discipline channel) new_channel c)
    (hasleep : c.shared.readable.waiters ≠ [])
    (hcause : SlotFull channel c.shared ∨ c.shared.sender_state = channel_closed_bit) :
    ∃ pid, Busy c pid ∧ pid ∉ c.shared.readable.waiters ∧
      (c.shared.readable.pending pid ≠ .none ∨ c.shared.readable.retry pid = .awaited) := by
  obtain ⟨hQ, _⟩ := reachable_watched hreach
  apply bearer_is_busy hreach .readable c.shared.log.claimed hasleep
  exact hcause.imp (hQ.inv.slot_full_iff hQ.bounded).mp id

theorem slot_free_bearer {c : Config Memory (Reply Bytes) Nat}
    (hreach : ReachableWithin (Orderly channel) (discipline channel) new_channel c)
    (hasleep : c.shared.writable.waiters ≠ [])
    (hcause : SlotFree channel c.shared ∨ c.shared.sender_state &&& channel_closed_bit ≠ 0) :
    ∃ pid, Busy c pid ∧ pid ∉ c.shared.writable.waiters ∧
      (c.shared.writable.pending pid ≠ .none ∨ c.shared.writable.retry pid = .awaited) := by
  obtain ⟨hQ, _⟩ := reachable_watched hreach
  have hpos := channel.pos
  apply bearer_is_busy hreach .writable c.shared.log.count hasleep
  refine hcause.imp (fun hslot => ?_) id
  exact ⟨le_rfl, by omega, hQ.inv.slot_free_iff.mp hslot⟩

/-- In orderly runs nobody sleeps on what is there: when a process sleeps while
    the slot it waits for is ready, or the channel is closed for it, another one
    is in the middle of a call and owes a wake-up on that word, or has been woken
    there and not ended its next try. -/
theorem waiters_are_woken {c : Config Memory (Reply Bytes) Nat}
    (hreach : ReachableWithin (Orderly channel) (discipline channel) new_channel c) :
    (c.shared.readable.waiters ≠ [] → SlotFull channel c.shared ∨ c.shared.sender_state = channel_closed_bit →
      ∃ pid, Busy c pid ∧ pid ∉ c.shared.readable.waiters ∧
        (c.shared.readable.pending pid ≠ .none ∨ c.shared.readable.retry pid = .awaited)) ∧
    (c.shared.writable.waiters ≠ [] →
      SlotFree channel c.shared ∨ c.shared.sender_state &&& channel_closed_bit ≠ 0 →
      ∃ pid, Busy c pid ∧ pid ∉ c.shared.writable.waiters ∧
        (c.shared.writable.pending pid ≠ .none ∨ c.shared.writable.retry pid = .awaited)) :=
  ⟨slot_full_bearer hreach, slot_free_bearer hreach⟩

/-- What a process waits for that sleeps on the word. -/
def Due (channel : Channel) (s : Memory) : Word → Prop
  | .readable => SlotFull channel s ∨ s.sender_state = channel_closed_bit
  | .writable => SlotFree channel s ∨ s.sender_state &&& channel_closed_bit ≠ 0

/-- Somebody other than the sleeper is on the way to the word: its wake-up is
    still to come, or it has been woken there and has not tried since. -/
def Called (c : Config Memory (Reply Bytes) Nat) (word : Word) (sleeper : Nat) : Prop :=
  ∃ pid, pid ≠ sleeper ∧ Busy c pid ∧ pid ∉ (c.shared.event word).waiters ∧
    ((c.shared.event word).pending pid ≠ .none ∨ (c.shared.event word).retry pid = .awaited)

/-- No wake-up is lost in a run in which no try gives up at a slot that is not
    ready while one further on is: every sleeper whose event has come is called. -/
theorem sleepers_are_called {c : Config Memory (Reply Bytes) Nat}
    (hreach : ReachableWithin (Orderly channel) (discipline channel) new_channel c) (word : Word) :
    ∀ sleeper ∈ (c.shared.event word).waiters, Due channel c.shared word → Called c word sleeper := by
  intro sleeper hsleeper hdue
  have hasleep := List.ne_nil_of_mem hsleeper
  have hbusy : ∃ pid, Busy c pid ∧ pid ∉ (c.shared.event word).waiters ∧
      ((c.shared.event word).pending pid ≠ .none ∨ (c.shared.event word).retry pid = .awaited) := by
    cases word with
    | readable => exact slot_full_bearer hreach hasleep hdue
    | writable => exact slot_free_bearer hreach hasleep hdue
  obtain ⟨pid, hbusy, hawake, hsees⟩ := hbusy
  exact ⟨pid, fun heq => hawake (heq ▸ hsleeper), hbusy, hawake, hsees⟩

end

/-- A round that nothing spoils. -/
def fair_turn : ReceiveTurn SlotChances := { first := fair, second := fair, last := fair }

/-- Process 1 sleeps on the empty channel, and process 0 has published an item
    and not signalled it yet. -/
def unsignalled : Config Memory (Reply Bytes) Nat :=
  (new_channel.perform 1 ((.receive false [fair_turn] : Call pair).run 1) 5).perform 0
    ((.try_send seven [false] fair : Call pair).run 0) 8

theorem orderly_check (s : Memory) (hs : decide (Orderly pair s) = true) : Orderly pair s :=
  of_decide_eq_true hs

theorem unsignalled_reachable :
    ReachableWithin (Orderly pair) (discipline pair) new_channel unsignalled := by
  have hstart (pid : Nat) (call : Call pair) : (discipline pair).starts pid .idle (call.run pid) :=
    ⟨by rintro ⟨⟩, call, rfl⟩
  have hasleep : ReachableWithin (Orderly pair) (discipline pair) new_channel
      (new_channel.perform 1 ((.receive false [fair_turn] : Call pair).run 1) 5) :=
    ReachableWithin.perform .refl orderly_check (by decide +kernel) (hstart 1 (.receive false [fair_turn]))
      (by decide +kernel)
  exact hasleep.perform orderly_check (by decide +kernel) (hstart 0 (.try_send seven [false] fair))
    (by decide +kernel)

theorem waiters_are_woken_unsignalled :
    ∃ pid, Busy unsignalled pid ∧ pid ∉ unsignalled.shared.readable.waiters ∧
      (unsignalled.shared.readable.pending pid ≠ .none ∨ unsignalled.shared.readable.retry pid = .awaited) :=
  (waiters_are_woken unsignalled_reachable).1 (by decide +kernel) (.inl (by decide +kernel))

theorem sleepers_are_called_unsignalled : Called unsignalled .readable 1 :=
  sleepers_are_called unsignalled_reachable .readable 1 (by decide +kernel) (.inl (by decide +kernel))

/-- Processes 1 and 2 sleep, and process 3 has claimed the first position. -/
def head_claimed : Config Memory (Reply Bytes) Nat :=
  let receive : Call pair := .receive false [fair_turn, fair_turn, fair_turn]
  let c : Config Memory (Reply Bytes) Nat := new_channel.perform 1 (receive.run 1) 5
  let c : Config Memory (Reply Bytes) Nat := c.perform 2 (receive.run 2) 5
  c.perform 3 ((.try_send seven [false] fair : Call pair).run 3) 6

/-- Process 4 sends an item in the second position. Its wake-up goes to process
    2, which finds the head not ready and sleeps again, before process 3 goes on. -/
def passed : Config Memory (Reply Bytes) Nat :=
  let c : Config Memory (Reply Bytes) Nat :=
    head_claimed.perform 4 ((.try_send seven [false] fair : Call pair).run 4) 20
  let c : Config Memory (Reply Bytes) Nat := c.advance 2 6
  let c : Config Memory (Reply Bytes) Nat := c.advance 3 20
  c.advance 2 20

theorem passed_reachable :
    ReachableWithin (fun s => Bounded pair s ∧ s.wrapped = false) (discipline pair) new_channel passed := by
  have hcheck (s : Memory) (hs : decide (Bounded pair s ∧ s.wrapped = false) = true) :
      Bounded pair s ∧ s.wrapped = false := of_decide_eq_true hs
  have hstart (pid : Nat) (call : Call pair) : (discipline pair).starts pid .idle (call.run pid) :=
    ⟨by rintro ⟨⟩, call, rfl⟩
  let receive : Call pair := .receive false [fair_turn, fair_turn, fair_turn]
  let send : Call pair := .try_send seven [false] fair
  let first : Config Memory (Reply Bytes) Nat := new_channel.perform 1 (receive.run 1) 5
  let second : Config Memory (Reply Bytes) Nat := first.perform 2 (receive.run 2) 5
  let sent : Config Memory (Reply Bytes) Nat := head_claimed.perform 4 (send.run 4) 20
  let asleep : Config Memory (Reply Bytes) Nat := sent.advance 2 6
  have hfirst : ReachableWithin _ (discipline pair) new_channel first :=
    ReachableWithin.perform .refl hcheck (by decide +kernel) (hstart 1 receive) (by decide +kernel)
  have hsecond : ReachableWithin _ (discipline pair) new_channel second :=
    hfirst.perform hcheck (by decide +kernel) (hstart 2 receive) (by decide +kernel)
  have hclaimed : ReachableWithin _ (discipline pair) new_channel head_claimed :=
    hsecond.perform hcheck (by decide +kernel) (hstart 3 send) (by decide +kernel)
  have hsent : ReachableWithin _ (discipline pair) new_channel sent :=
    hclaimed.perform hcheck (by decide +kernel) (hstart 4 send) (by decide +kernel)
  have hasleep : ReachableWithin _ (discipline pair) new_channel asleep :=
    hsent.advance hcheck (by decide +kernel)
  have hpublished : ReachableWithin _ (discipline pair) new_channel (asleep.advance 3 20) :=
    hasleep.advance hcheck (by decide +kernel)
  exact hpublished.advance hcheck (by decide +kernel)

/-- Nobody but process 1 is in the middle of a call. -/
theorem passed_idle {pid : Nat} (hpid : pid ≠ 1) : ¬ Busy passed pid := by
  intro hbusy
  have hshown (reply : Reply Bytes) (hreply : (passed.procs pid).shown = some reply)
      (hended : reply ≠ .unfinished) : False := hended (hbusy reply (Prog.eq_ret_of_shown hreply))
  by_cases htwo : pid = 2
  · subst htwo
    exact hshown (.received { code := .success, value := some [7] }) (by decide +kernel) (by rintro ⟨⟩)
  by_cases hthree : pid = 3
  · subst hthree
    exact hshown (.sent .success) (by decide +kernel) (by rintro ⟨⟩)
  by_cases hfour : pid = 4
  · subst hfour
    exact hshown (.sent .success) (by decide +kernel) (by rintro ⟨⟩)
  refine hshown .idle ?_ (by rintro ⟨⟩)
  simp only [passed, head_claimed, Config.perform, Config.advance_procs_of_ne hpid,
    Config.advance_procs_of_ne htwo, Config.advance_procs_of_ne hthree, Config.advance_procs_of_ne hfour,
    Function.update_of_ne hpid, Function.update_of_ne htwo, Function.update_of_ne hthree,
    Function.update_of_ne hfour]
  rfl

/-- The condition on runs is needed: the first item has been sent and received,
    the second one waits, and process 1 sleeps on with nobody else in a call. -/
theorem spent_wake_up :
    ReachableWithin (fun s => Bounded pair s ∧ s.wrapped = false) (discipline pair) new_channel passed ∧
      1 ∈ (passed.shared.event .readable).waiters ∧ Due pair passed.shared .readable ∧
      (passed.shared.event .readable).pending 1 = .none ∧ ∀ pid, pid ≠ 1 → ¬ Busy passed pid :=
  ⟨passed_reachable, by decide +kernel, .inl (by decide +kernel), by decide +kernel, fun _ => passed_idle⟩

end shmchan.channel
