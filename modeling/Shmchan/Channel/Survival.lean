import Shmchan.Channel.Lifecycle
import Shmchan.Channel.Session
import Shmchan.Endpoint.Steps

open process shmchan.endpoint

namespace shmchan.channel

/-- A step that takes no reservation and no delivery back, and in which an item
    that comes to its end has been delivered. -/
structure Accounts (s s' : Memory) : Prop where
  count : s.log.count ≤ s'.log.count
  delivered : ∀ x ∈ s.log.delivered, x ∈ s'.log.delivered
  consumed : ∀ i, s'.log.phase i = .consumed → s.log.phase i = .consumed ∨ ∃ value, (i, value) ∈ s'.log.delivered

/-- The process is in the middle of a request, or it has been killed. -/
def Interrupted (c : ChannelSystem) (pid : Nat) : Prop :=
  ∀ client, (c.procs pid).shown = some client → client.answer = .dead ∨ client.answer = .called .unfinished

/-- Where the items of a channel are: what the receivers have copied out was
    sent, once each and in order, and every other item is published or with a
    process that is interrupted. -/
structure Conserved (c : ChannelSystem) (log : Log Bytes) : Prop where
  sent : ∀ x ∈ log.delivered, x.1 < log.count ∧ x.2 = log.message x.1
  once : (log.delivered.map Prod.fst).Nodup
  in_order : ∀ i, (log.phase i).taken = true ↔ i < log.claimed
  accounted : ∀ i < log.count, (∃ value, (i, value) ∈ log.delivered) ∨ log.phase i = .published ∨
    ∃ pid, holder (log.phase i) = some pid ∧ Interrupted c pid

section

variable {channel : Channel} {pid : Nat} {s s' s'' : Memory}

theorem Accounts.of_log (h : s'.log = s.log) : Accounts s s' := by
  refine ⟨by rw [h], fun x hx => by rw [h]; exact hx, fun i hi => .inl ?_⟩
  rw [h] at hi
  exact hi

theorem Accounts.trans (h : Accounts s s') (h' : Accounts s' s'') : Accounts s s'' where
  count := h.count.trans h'.count
  delivered x hx := h'.delivered x (h.delivered x hx)
  consumed i hi := by
    rcases h'.consumed i hi with hmid | hlast
    · rcases h.consumed i hmid with hfirst | ⟨value, hvalue⟩
      · exact .inl hfirst
      · exact .inr ⟨value, h'.delivered _ hvalue⟩
    · exact .inr hlast

/-- A step that moves one item to a phase other than its last. -/
theorem Accounts.of_phase {i : Nat} {phase : Phase} (hcount : s.log.count ≤ s'.log.count)
    (hdelivered : s'.log.delivered = s.log.delivered) (hphase : s'.log.phase = Function.update s.log.phase i phase)
    (hne : phase ≠ .consumed) : Accounts s s' := by
  refine ⟨hcount, fun x hx => by rw [hdelivered]; exact hx, fun j hj => .inl ?_⟩
  rw [hphase] at hj
  by_cases hji : j = i
  · rw [hji, Function.update_self] at hj
    exact absurd hj hne
  · rwa [Function.update_of_ne hji] at hj

theorem accounts_release (pid index slot sequence : Nat) (value : Bytes) (s : Memory) :
    Accounts s (release pid index slot sequence value s) := by
  refine ⟨le_rfl, fun x hx => List.mem_cons_of_mem _ hx, fun j hj => ?_⟩
  by_cases hji : j = index
  · rw [hji]
    exact .inr ⟨value, List.mem_cons_self⟩
  · have hphase : (release pid index slot sequence value s).log.phase j = s.log.phase j :=
      Function.update_of_ne hji _ _
    rw [hphase] at hj
    exact .inl hj

theorem accounts_publish (pid index slot sequence : Nat) (s : Memory) :
    Accounts s (publish pid index slot sequence s) := by
  refine .of_phase le_rfl rfl rfl ?_
  rintro ⟨⟩

theorem accounts_claim (pid : Nat) (f : SlotRing → SlotRing) (s : Memory) : Accounts s (claim pid f s) := by
  refine .of_phase le_rfl rfl rfl ?_
  rintro ⟨⟩

theorem accounts_reserve (pid : Nat) (value : Bytes) (f : SlotRing → SlotRing) (s : Memory) :
    Accounts s (reserve pid value f s) := by
  refine .of_phase (Nat.le_succ _) rfl rfl ?_
  rintro ⟨⟩

theorem accounts_of_ite {p : Prop} [Decidable p] {t : Memory} (h : Accounts s t) :
    Accounts s (if p then t else s) := by
  split
  · exact h
  · exact .of_log rfl

theorem accounts_calls : CallSteps Accounts where
  undisturbed := by
    rintro s _ ⟨readable, writable, wrapped, rfl⟩
    exact .of_log rfl
  register pid s := .of_log rfl
  unregister pid s := .of_log rfl

theorem accounts_copy_to_slot (slot : Nat) (value : Bytes) (k : Nat) :
    (copy_to_slot pid slot value k).Always Accounts fun _ => True := by
  induction value generalizing k with
  | nil => trivial
  | cons byte rest ih => exact ⟨fun s => .of_log rfl, fun _ => ih (k + 1)⟩

theorem accounts_copy_from_slot (slot count k : Nat) :
    (copy_from_slot pid slot count k).Always Accounts fun _ => True := by
  induction count generalizing k with
  | zero => trivial
  | succ count ih => exact ⟨fun s => .of_log rfl, fun s => (ih (k + 1)).bind fun _ _ => trivial⟩

theorem accounts_signal (word : Word) (pick : Nat) {α : Type} (value : α) : (do
    bump pid word
    wake_one pid word pick
    return .returned value : Prog Memory (Ended α)).Always Accounts fun _ => True := by
  apply (accounts_calls.of_undisturbed (undisturbed_bump pid word)).bind
  intro _ _
  apply (accounts_calls.of_undisturbed (undisturbed_wake_one pid word pick)).bind
  exact fun _ _ => trivial

theorem accounts_fill_slot (index slot sequence pick : Nat) (value : Bytes) :
    (fill_slot pid index slot sequence value pick).Always Accounts fun _ => True := by
  apply (accounts_copy_to_slot slot value 0).bind
  exact fun _ _ => ⟨accounts_publish pid index slot sequence, fun _ => accounts_signal .readable pick true⟩

theorem accounts_empty_slot (index slot sequence pick : Nat) :
    (empty_slot channel pid index slot sequence pick).Always Accounts fun _ => True := by
  apply (accounts_copy_from_slot slot channel.element_size 0).bind
  intro value _
  exact ⟨accounts_release pid index slot sequence value, fun _ => accounts_signal .writable pick (some value)⟩

theorem accounts_enqueue_loop (value : Bytes) (pick : Nat) (attempts : List Bool) (position : Nat) :
    (enqueue_loop channel pid value pick attempts position).Always Accounts fun _ => True := by
  induction attempts generalizing position with
  | nil =>
    unfold enqueue_loop
    refine ⟨fun s => accounts_of_ite (.of_log rfl), fun s => ?_⟩
    simp only [Prog.bind]
    split_ifs <;> trivial
  | cons spurious attempts ih =>
    unfold enqueue_loop
    refine ⟨fun s => accounts_of_ite (.of_log rfl), fun s => ?_⟩
    simp only [Prog.bind]
    split
    · refine ⟨fun s => accounts_of_ite (accounts_reserve pid value _ s), fun s => ?_⟩
      simp only
      split
      · exact accounts_fill_slot _ _ _ _ value
      · exact ih _
    split
    · trivial
    · exact ⟨fun s => .of_log rfl, fun s => ih s.ring.enqueue_position⟩

theorem accounts_try_enqueue (value : Bytes) (chances : SlotChances) :
    (try_enqueue channel pid value chances).Always Accounts fun _ => True := by
  unfold try_enqueue
  split
  · refine ⟨fun s => ?_, fun s => ?_⟩
    · simp only
      split
      · exact accounts_reserve pid value _ s
      · exact .of_log rfl
    · simp only
      split
      · exact accounts_fill_slot _ _ _ _ value
      · trivial
  · exact ⟨fun s => .of_log rfl, fun s => accounts_enqueue_loop value _ _ s.ring.enqueue_position⟩

theorem accounts_dequeue_loop (pick : Nat) (attempts : List Bool) (position : Nat) :
    (dequeue_loop channel pid pick attempts position).Always Accounts fun _ => True := by
  induction attempts generalizing position with
  | nil =>
    unfold dequeue_loop
    refine ⟨fun s => accounts_of_ite (.of_log rfl), fun s => ?_⟩
    simp only [Prog.bind]
    split_ifs <;> trivial
  | cons spurious attempts ih =>
    unfold dequeue_loop
    refine ⟨fun s => accounts_of_ite (.of_log rfl), fun s => ?_⟩
    simp only [Prog.bind]
    split
    · refine ⟨fun s => accounts_of_ite (accounts_claim pid _ s), fun s => ?_⟩
      simp only
      split
      · exact accounts_empty_slot _ _ _ _
      · exact ih _
    split
    · trivial
    · exact ⟨fun s => .of_log rfl, fun s => ih s.ring.dequeue_position⟩

theorem accounts_try_dequeue (chances : SlotChances) :
    (try_dequeue channel pid chances).Always Accounts fun _ => True := by
  unfold try_dequeue
  split
  · refine ⟨fun s => ?_, fun s => ?_⟩
    · simp only
      split
      · exact accounts_claim pid _ s
      · exact .of_log rfl
    · simp only
      split
      · exact accounts_empty_slot _ _ _ _
      · trivial
  · exact ⟨fun s => .of_log rfl, fun s => accounts_dequeue_loop _ _ s.ring.dequeue_position⟩

theorem accounts_close (pid : Nat) : (close pid : Prog Memory Bool).Always Accounts fun _ => True := by
  refine ⟨fun s => .of_log rfl, fun s => ?_⟩
  simp only [Prog.bind]
  split
  · trivial
  apply CallSteps.bind (accounts_calls.of_undisturbed (undisturbed_bump pid .readable))
  intro _
  apply CallSteps.bind (accounts_calls.of_undisturbed (undisturbed_bump pid .writable))
  intro _
  apply CallSteps.bind (accounts_calls.of_undisturbed (undisturbed_wake_all pid .readable))
  intro _
  apply CallSteps.bind (accounts_calls.of_undisturbed (undisturbed_wake_all pid .writable))
  exact fun _ => trivial

/-- Every call accounts for the items. -/
theorem accounts_call (call : Call channel) : (call.run pid).Always Accounts fun _ => True := by
  cases call with
  | try_send value registration chances =>
    rw [Call.run]
    exact CallSteps.bind (accounts_calls.try_send (accounts_try_enqueue value.1) registration chances)
      fun _ => trivial
  | send value timed registration turns =>
    rw [Call.run]
    exact CallSteps.bind (accounts_calls.send_impl (accounts_try_enqueue value.1) timed registration turns)
      fun _ => trivial
  | try_receive first second =>
    rw [Call.run]
    exact CallSteps.bind (accounts_calls.try_receive accounts_try_dequeue first second) fun _ => trivial
  | receive timed turns =>
    rw [Call.run]
    exact CallSteps.bind (accounts_calls.receive_impl accounts_try_dequeue timed turns) fun _ => trivial
  | close =>
    rw [Call.run]
    exact CallSteps.bind (accounts_close pid) fun _ => trivial

theorem new_channel_accounts (pid : Nat) : (new_channel.procs pid).Always Accounts fun _ => True := trivial

theorem discipline_accounts (pid : Nat) (reply : Reply Bytes) (program : Prog Memory (Reply Bytes))
    (hstart : (discipline channel).starts pid reply program) : program.Always Accounts fun _ => True := by
  obtain ⟨_, call, rfl⟩ := hstart
  exact accounts_call call

/-- The items of a run that ends within the bound have been within it always. -/
theorem reachable_within {c : Config Memory (Reply Bytes) Nat}
    (hreach : Reachable (discipline channel) new_channel c) (hbounded : Bounded channel c.shared) :
    ReachableWithin (Bounded channel) (discipline channel) new_channel c := by
  refine Reachable.within_of_last (G := Accounts) (fun s s' h hb => ?_) (fun _ => .of_log rfl) (fun _ _ _ => .trans)
    discipline_accounts (fun _ _ => .of_log rfl) new_channel_accounts hreach hbounded
  exact (Nat.add_le_add_right h.count _).trans hb

/-- An item at its end has been delivered. -/
theorem reachable_consumed {c : Config Memory (Reply Bytes) Nat}
    (hreach : Reachable (discipline channel) new_channel c) {i : Nat} (hi : c.shared.log.phase i = .consumed) :
    ∃ value, (i, value) ∈ c.shared.log.delivered := by
  obtain ⟨haccounts, _⟩ := Reachable.always (G := Accounts) (fun _ => .of_log rfl) (fun _ _ _ => .trans)
    discipline_accounts (fun _ _ => .of_log rfl) new_channel_accounts hreach
  rcases haccounts.consumed i hi with hvacant | hdelivered
  · cases hvacant
  · exact hdelivered

/-- Killed processes take no published item with them, nor do refused system
    calls or removed names: every item of every channel is delivered once and in
    order, or still published, unless a process that is interrupted has it. -/
theorem items_survive_kills {c c' : ChannelSystem} {client : Client ElementType Channel}
    {handle : Handle ElementType Channel} (hreach : Reachable format.system format.nothing c)
    (hshown : (c.procs pid).shown = some client) (hhandle : handle ∈ client.handles)
    (hlater : Reachable format.system c c')
    (hbounded : Bounded handle.channel (c'.shared.objects handle.object).memory.live.shared) :
    Conserved c' (c'.shared.objects handle.object).memory.live.shared.log := by
  have hserves := system_serves format_lawful hreach hshown hhandle hlater
  obtain ⟨_, _, _, hcalls⟩ := hserves.reachable
  have hcalls : Reachable (discipline handle.channel) new_channel _ := hcalls
  have hwithin := reachable_within hcalls hbounded
  obtain ⟨_, hinv, _⟩ := reachable_safe hwithin
  refine ⟨fun x hx => ?_, hinv.once, fun i => ⟨fun htaken => ?_, hinv.ordered.behind i⟩, fun i hi => ?_⟩
  · obtain ⟨hconsumed, hvalue⟩ := hinv.delivered x hx
    refine ⟨?_, hvalue⟩
    by_contra hge
    have hvacant := hinv.ordered.vacant x.1 (Nat.le_of_not_lt hge)
    rw [hconsumed] at hvacant
    cases hvacant
  · by_contra hge
    rw [hinv.ordered.ahead i (Nat.le_of_not_lt hge)] at htaken
    cases htaken
  · -- a process between two requests holds no item
    have hheld {other : Nat}
        (hholder : holder ((c'.shared.objects handle.object).memory.live.shared.log.phase i) = some other) :
        Interrupted c' other := by
      intro client' hother
      by_contra hended
      obtain ⟨hdead, hfinished⟩ := not_or.mp hended
      obtain ⟨reply, hreply, hprog⟩ :=
        (system_shown format_lawful (hreach.trans hlater) hother).rest hdead hfinished _ hserves.grown.ready
      exact answered_idle hreply (reachable_answered hwithin hprog) i hholder
    rcases hphase : (c'.shared.objects handle.object).memory.live.shared.log.phase i with _ | other | _ | other | _
    · exact absurd hphase (hinv.ordered.occupied i hi)
    · rw [hphase] at hheld
      exact .inr (.inr ⟨other, rfl, hheld rfl⟩)
    · exact .inr (.inl rfl)
    · rw [hphase] at hheld
      exact .inr (.inr ⟨other, rfl, hheld rfl⟩)
    · exact .inl (reachable_consumed hcalls hphase)

end

/-- The channel that process 1 has opened. -/
def jobs_handle : Handle ElementType Channel where
  object := 0
  kind := int64
  name := "/jobs"
  mapping_size := 640
  channel := ⟨2, 8, ⟨_, rfl⟩⟩

def jobs_client : Client ElementType Channel := ⟨[jobs_handle], .opened int64 "/jobs" (.ok jobs_handle)⟩

def send_job : Call jobs_handle.channel := .try_send ⟨[1, 0, 0, 0, 0, 0, 0, 0], rfl⟩ [false] { attempts := [false] }

/-- Process 1 begins to send an integer, and is killed before all bytes of it
    are in the slot. -/
def jobs_killed : ChannelSystem :=
  format.kill (jobs_opened.perform 1
    (format.perform 1 jobs_client (fun _ => false) (.call jobs_handle (send_job.run 1))) 10) 1

theorem jobs_killed_later : Reachable format.system jobs_opened jobs_killed := by
  have hadmitted : format.Admitted 1 jobs_client (.call jobs_handle (send_job.run 1)) :=
    ⟨List.mem_singleton_self _, send_job, rfl⟩
  have hstarts : format.system.starts 1 jobs_client
      (format.perform 1 jobs_client (fun _ => false) (.call jobs_handle (send_job.run 1))) :=
    ⟨by rintro ⟨⟩, by rintro ⟨⟩, _, _, hadmitted, rfl⟩
  exact kill_reachable (.advance (Reachable.step .refl (.start rfl hstarts)) 1 10) 1

theorem items_survive_kills_sending :
    (jobs_killed.shared.objects jobs_handle.object).memory.live.shared.log.count = 1 ∧
      holder ((jobs_killed.shared.objects jobs_handle.object).memory.live.shared.log.phase 0) = some 1 ∧
      Conserved jobs_killed (jobs_killed.shared.objects jobs_handle.object).memory.live.shared.log := by
  have hbounded : Bounded jobs_handle.channel (jobs_killed.shared.objects jobs_handle.object).memory.live.shared := by
    decide +kernel
  have hshown : (jobs_opened.procs 1).shown = some jobs_client := rfl
  have hhandle : jobs_handle ∈ jobs_client.handles := List.mem_singleton_self _
  exact ⟨by decide +kernel, by decide +kernel,
    items_survive_kills jobs_opened_reachable hshown hhandle jobs_killed_later hbounded⟩

end shmchan.channel
