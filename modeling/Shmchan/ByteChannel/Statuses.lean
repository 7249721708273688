import Shmchan.ByteChannel.Delivery

open process shmchan.endpoint

namespace shmchan.byte_channel

section

variable {channel : ByteChannel} {pid : Nat} {s : Memory} {c : Config Memory (Reply Bytes) Nat}

/-- All records are claimed, counting a head that is marked but not handed over. -/
theorem Inv.drained_iff (h : Inv channel s) : s.Drained ↔ s.log.taken = s.log.count := by
  have hclaimed := h.placed.claimed_le
  have hvacant : (s.log.phase s.log.count).taken = false := by
    rw [h.phased.vacant _ le_rfl]
    rfl
  rw [Log.taken]
  constructor
  · intro hdrained
    split
    next htaken =>
      have hlt : s.log.claimed < s.log.count := by
        by_contra hge
        have heq : s.log.claimed = s.log.count := by omega
        rw [heq, hvacant] at htaken
        cases htaken
      by_contra hne
      -- nothing behind the head is claimed
      have hnext := hdrained (s.log.claimed + 1) (by omega)
      cases hphase : s.log.phase (s.log.claimed + 1) with
      | claimed other => exact h.phased.beyond _ other (Nat.lt_succ_self _) hphase
      | consumed => exact h.phased.ahead _ (Nat.le_succ _) hphase
      | vacant | reserved _ | published =>
        rw [hphase] at hnext
        cases hnext
    next hnot =>
      by_contra hne
      exact hnot (hdrained s.log.claimed (by omega))
  · intro htaken i hi
    by_cases hbehind : i < s.log.claimed
    · exact h.in_order.claimed i hbehind
    · split at htaken
      next hhead =>
        obtain rfl : i = s.log.claimed := by omega
        exact hhead
      next => omega

/-- A receive that returns closed leaves nothing behind, unless its last try
    was hasty: it began before the last sender had left a closed channel, or
    ended at a record that another receiver had claimed while a further one was
    unclaimed. -/
theorem closed_means_drained (hreach : ReachableWithin Sane (discipline channel) new_channel c)
    {value : Option Bytes} (hreply : c.procs pid = .ret (.received { code := .closed, value := value }))
    (hpatient : c.shared.hasty pid = false) :
    c.shared.sender_state = channel_closed_bit ∧ c.shared.log.taken = c.shared.log.count ∧
      ∀ later, ReachableWithin Sane (discipline channel) c later →
        later.shared.log.count = c.shared.log.count ∧ later.shared.log.taken = later.shared.log.count := by
  obtain ⟨hsane, hinv, hsafe⟩ := reachable_safe hreach
  have hinv : Inv channel c.shared := hinv
  obtain ⟨_, hsuccess, hgot, hdone⟩ := reachable_answered hreach hreply
  have hvalue : value = none := by
    cases value with
    | none => rfl
    | some message => exact absurd (hsuccess.mpr rfl) ChannelStatus.noConfusion
  have hdone := hdone rfl
  have hempty : c.shared.Done ∧ c.shared.Drained := by
    rcases (hgot (.inr rfl)).2 hvalue with hhasty | hempty
    · rw [hpatient] at hhasty
      cases hhasty
    · exact hempty
  have hclosings := hinv.senders.closings
  refine ⟨hinv.senders.done_iff.mpr ⟨by have := hdone.1; omega, hdone.2⟩, hinv.drained_iff.mp hempty.2,
    fun later hlater => ?_⟩
  let A (s : Memory) : Prop := s.Done ∧ s.Drained ∧ s.log.count = c.shared.log.count
  have hA (other : Nat) : Stable (ring_reliance channel) other A := by
    rintro s s' hrely _ ⟨hdone, hdrained, hcount⟩
    have hsame := hrely.toSenderRely.count hdone
    refine ⟨hrely.toSenderRely.keeps_done hdone, fun i hi => hrely.taken i (hdrained i ?_), hsame.trans hcount⟩
    rwa [hsame] at hi
  obtain ⟨_, hdrained, hcount⟩ := (discipline_adequate channel).keeps
    (fun other => ⟨other + 1, Nat.succ_ne_self other⟩) hA hsane hinv hsafe ⟨hempty.1, hempty.2, rfl⟩ hlater
  exact ⟨hcount, ((discipline_adequate channel).reachable hsane hinv hsafe hlater).2.1.drained_iff.mp hdrained⟩

end

/-- A closed channel with nothing in it: process 1 receives. -/
def closed_empty : Config Memory (Reply Bytes) Nat :=
  let c := call two_records new_channel 0 .close 60
  call two_records c 1 receive_once 60

theorem closed_means_drained_empty :
    closed_empty.shared.sender_state = channel_closed_bit ∧ closed_empty.shared.log.taken = 0 := by
  have hreach : ReachableWithin Sane (discipline two_records) new_channel closed_empty := by
    apply reachable_call _ tame_check_sane (by decide +kernel)
    exact reachable_call .refl tame_check_sane (by decide +kernel)
  have hreply : closed_empty.procs 1 = .ret (.received { code := .closed }) :=
    Prog.eq_ret_of_shown (by decide +kernel)
  obtain ⟨hstate, htaken, _⟩ := closed_means_drained hreach hreply (by decide +kernel)
  exact ⟨hstate, htaken.trans (by decide +kernel)⟩

/-- Two messages are in the ring and the channel is closed; process 1 has
    claimed the first one and not advanced, and process 3 receives. -/
def head_taken : Config Memory (Reply Bytes) Nat :=
  let c := call two_records new_channel 0 send_empty 60
  let c := call two_records c 0 send_empty 60
  let c := call two_records c 2 .close 60
  let c := call two_records c 1 receive_once 3
  call two_records c 3 receive_once 60

/-- The receive returns closed with a published record unclaimed. -/
theorem head_taken_returns_closed :
    ReachableWithin Sane (discipline two_records) new_channel head_taken ∧
      head_taken.procs 3 = .ret (.received { code := .closed }) ∧
      head_taken.shared.log.taken = 1 ∧ head_taken.shared.log.phase 1 = .published := by
  refine ⟨?_, Prog.eq_ret_of_shown (by decide +kernel), by decide +kernel, by decide +kernel⟩
  apply reachable_call _ tame_check_sane (by decide +kernel)
  apply reachable_call _ tame_check_sane (by decide +kernel)
  apply reachable_call _ tame_check_sane (by decide +kernel)
  apply reachable_call _ tame_check_sane (by decide +kernel)
  exact reachable_call .refl tame_check_sane (by decide +kernel)

end shmchan.byte_channel
