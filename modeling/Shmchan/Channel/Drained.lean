import Shmchan.Channel.Statuses

open process shmchan.endpoint

namespace shmchan.channel

/-- Every item has been taken, nothing is sent any more, and no receive that
    begins later returns an item. -/
structure NothingLeft (channel : Channel) (c : Config Memory (Reply Bytes) Nat) : Prop where
  taken : ∀ i < c.shared.log.count, (c.shared.log.phase i).taken = true
  exhausted : Exhausted channel c
  fruitless : ∀ later pid reply (call : Call channel) last code value,
    ReachableWithin (Bounded channel) (discipline channel) c later → later.procs pid = .ret reply →
    reply ≠ .unfinished →
    ReachableWithin (Bounded channel) ((discipline channel).without pid) (begin_call later pid call) last →
    last.procs pid ≠ .ret (.received { code := code, value := some value })

section

variable {channel : Channel} {pid n : Nat} {Q : Memory → Prop} {c : Config Memory (Reply Bytes) Nat}

theorem not_claim (hQ : ∀ s, Q s → s.log.claimed = n) {s : Memory} (hs : Q s) (f : SlotRing → SlotRing) :
    ¬ Q (claim pid f s) := by
  intro hclaim
  have hbefore := hQ s hs
  have hafter : s.log.claimed + 1 = n := hQ _ hclaim
  omega

/-- As long as no item is claimed, a try to receive finds none. -/
theorem try_dequeue_fruitless (hQ : ∀ s, Q s → s.log.claimed = n) (chances : SlotChances) :
    (try_dequeue channel pid chances).Yields Q fun ended => ∀ message, ended ≠ .returned (some message) := by
  have hnone : ∀ message, (.returned none : Ended (Option Bytes)) ≠ .returned (some message) := by
    rintro message ⟨⟩
  have hunfinished : ∀ message, (.unfinished : Ended (Option Bytes)) ≠ .returned (some message) := by
    rintro message ⟨⟩
  have hloop (pick : Nat) (attempts : List Bool) (position : Nat) :
      (dequeue_loop channel pid pick attempts position).Yields Q
        fun ended => ∀ message, ended ≠ .returned (some message) := by
    induction attempts generalizing position with
    | nil =>
      unfold dequeue_loop
      apply Prog.yields_bind_of
      intro sequence
      simp only
      split_ifs
      · exact hunfinished
      · exact hnone
      · exact hunfinished
    | cons spurious attempts ih =>
      unfold dequeue_loop
      apply Prog.yields_bind_of
      intro sequence
      simp only
      split_ifs
      · intro s hs hs'
        simp only at hs' ⊢
        split at hs'
        · exact absurd hs' (not_claim hQ hs _)
        next hlost =>
          rw [if_neg hlost]
          exact ih _
      · exact hnone
      · exact Prog.yields_bind_of (fun position => ih position) _
  unfold try_dequeue
  split
  · intro s hs hs'
    simp only at hs' ⊢
    split at hs'
    · exact absurd hs' (not_claim hQ hs _)
    next hempty =>
      rw [if_neg hempty]
      exact hnone
  · exact Prog.yields_bind_of (fun position => hloop _ _ position) _

theorem call_fruitless (hQ : ∀ s, Q s → s.log.claimed = n) (call : Call channel) :
    (call.run pid).Yields Q fun reply => ∀ code value, reply ≠ .received { code := code, value := some value } := by
  have hsent (p : Prog Memory (Ended ChannelStatus)) : (p >>= fun ended => .ret (ended.reply .sent)).Yields Q
      fun reply => ∀ code value, (reply : Reply Bytes) ≠ .received { code := code, value := some value } := by
    apply Prog.yields_bind_of
    intro ended
    cases ended with
    | returned status | thrown error | unfinished => rintro code value ⟨⟩
  have hreceived {p : Prog Memory (Ended (ReceiveResult Bytes))} (hp : p.Yields Q Fruitless) :
      (p >>= fun ended => .ret (ended.reply .received)).Yields Q
        fun reply => ∀ code value, (reply : Reply Bytes) ≠ .received { code := code, value := some value } := by
    apply hp.bind
    intro ended hended
    cases ended with
    | returned result =>
      rintro code value ⟨⟩
      exact Option.some_ne_none _ (hended _ rfl)
    | thrown error | unfinished => rintro code value ⟨⟩
  cases call with
  | try_send value registration chances => exact hsent _
  | send value timed registration turns => exact hsent _
  | try_receive first second => exact hreceived (try_receive_fruitless (try_dequeue_fruitless hQ) first second)
  | receive timed turns => exact hreceived (receive_impl_fruitless (try_dequeue_fruitless hQ) pid timed turns)
  | close =>
    apply Prog.yields_bind_of
    rintro first code value ⟨⟩

/-- A channel that is finished has nothing left. -/
theorem Finished.nothing_left (h : Finished c.shared)
    (hreach : ReachableWithin (Bounded channel) (discipline channel) new_channel c) : NothingLeft channel c := by
  have hexhausted := h.exhausted hreach
  refine ⟨h.2, hexhausted, ?_⟩
  intro later pid reply call last code value hlater hreply hended hlast
  have hbounded := (reachable_safe (hreach.trans hlater)).1
  have hbegun : ReachableWithin (Bounded channel) (discipline channel) c (begin_call later pid call) :=
    hlater.tail ⟨.start hreply ⟨hended, call, rfl⟩, hbounded⟩
  have hclaimed (mid : Config Memory (Reply Bytes) Nat)
      (hmid : ReachableWithin (Bounded channel) ((discipline channel).without pid) (begin_call later pid call) mid) :
      mid.shared.log.claimed = c.shared.log.count := by
    obtain ⟨_, hcount, hall⟩ := hexhausted mid (hbegun.trans hmid.of_without)
    exact hall.trans hcount
  have hdie : ¬ ∃ pid s, (discipline channel).mayDie pid s := fun ⟨_, _, hdies⟩ => hdies
  have hfruitless : (call.run pid).Yields
      (fun s => Bounded channel s ∧ s.log.claimed = c.shared.log.count)
      fun reply => ∀ code value, reply ≠ .received { code := code, value := some value } :=
    call_fruitless (fun _ hs => hs.2) call
  rw [← Function.update_self pid (call.run pid) later.procs] at hfruitless
  have hyields := ReachableWithin.yields hdie ⟨hbounded, hclaimed _ .refl⟩ hfruitless
    (hlast.strengthen hclaimed)
  intro hshown
  rw [hshown] at hyields
  exact hyields.2 code value rfl

/-- A receive that returns closed leaves nothing in the channel, provided that
    the last sender of the closed channel had left before the last try of the
    receive looked at the head. Only `receive_for` can do otherwise. -/
theorem closed_means_taken (hreach : ReachableWithin (Bounded channel) (discipline channel) new_channel c)
    (pid : Nat) (value : Option Bytes) :
    (c.procs pid = .ret (.received { code := .closed, value := value }) → c.shared.hasty pid = false →
      NothingLeft channel c) ∧
    ∀ reply (call : Call channel) later, c.procs pid = .ret reply → reply ≠ .unfinished → call.patient = true →
      ReachableWithin (Bounded channel) ((discipline channel).without pid) (begin_call c pid call) later →
      later.procs pid = .ret (.received { code := .closed, value := value }) → NothingLeft channel later := by
  constructor
  · exact fun hreply hpatient => (closed_finished hreach hreply hpatient).nothing_left hreach
  · intro reply call later hreply hended hpatient hlater hclosed
    obtain ⟨hfinished, hreach'⟩ := patient_finished hreach hreply hended hpatient hlater hclosed
    exact hfinished.nothing_left hreach'

end

theorem closed_means_taken_empty : NothingLeft pair closed_empty :=
  (closed_means_taken closed_empty_reachable 1 none).1 (Prog.eq_ret_of_shown (by decide +kernel)) (by decide +kernel)

/-- A round in which the deadline has passed. -/
def late_turn : ReceiveTurn SlotChances :=
  { first := fair, second := fair, wait := { expired := true }, last := fair }

/-- The last try of a `receive_for` of process 1 has found nothing. -/
def late_receive : Config Memory (Reply Bytes) Nat :=
  new_channel.perform 1 ((.receive true [late_turn] : Call pair).run 1) 6

/-- Then process 0 sends an item and closes, and process 1 looks at the closed bit. -/
def late_close : Config Memory (Reply Bytes) Nat :=
  Config.advance 1 10 ((late_receive.perform 0 ((.try_send seven [false] fair : Call pair).run 0) 20).perform
    0 ((.close : Call pair).run 0) 10)

/-- `receive_for` returns closed, and the item is still there. -/
theorem late_receive_leaves_item :
    ReachableWithin (Bounded pair) (discipline pair) new_channel late_close ∧
      late_close.procs 1 = .ret (.received { code := .closed }) ∧ late_close.shared.log.phase 0 = .published := by
  have hstart {pid : Nat} {reply : Reply Bytes} (hreply : reply ≠ .unfinished) (call : Call pair) :
      (discipline pair).starts pid reply (call.run pid) := ⟨hreply, call, rfl⟩
  let sent := late_receive.perform 0 ((.try_send seven [false] fair : Call pair).run 0) 20
  have hfirst : (new_channel.procs 1).shown = some .idle := rfl
  have hsecond : (late_receive.procs 0).shown = some .idle := by decide +kernel
  have hthird : (sent.procs 0).shown = some (.sent .success) := by decide +kernel
  have hreceiving : ReachableWithin (Bounded pair) (discipline pair) new_channel late_receive :=
    ReachableWithin.perform .refl bounded_check hfirst (hstart (by rintro ⟨⟩) (.receive true [late_turn]))
      (by decide +kernel)
  have hsent : ReachableWithin (Bounded pair) (discipline pair) new_channel sent :=
    hreceiving.perform bounded_check hsecond (hstart (by rintro ⟨⟩) (.try_send seven [false] fair))
      (by decide +kernel)
  have hclosed : ReachableWithin (Bounded pair) (discipline pair) new_channel
      (sent.perform 0 ((.close : Call pair).run 0) 10) :=
    hsent.perform bounded_check hthird (hstart (by rintro ⟨⟩) .close) (by decide +kernel)
  exact ⟨hclosed.advance bounded_check (by decide +kernel), Prog.eq_ret_of_shown (by decide +kernel),
    by decide +kernel⟩

end shmchan.channel
