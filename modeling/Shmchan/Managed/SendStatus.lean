import Shmchan.Process.Own
import Shmchan.Managed.History

open process

namespace shmchan.managed

/-- The messages that the recorded actions append to those published. -/
def published_in (own : List (Memory × Memory)) : List Message :=
  own.flatMap fun x => x.2.history.published.drop x.1.history.published.length

/-- The last recorded action is the check after a publication, and it found the
    channel neither healthy nor closed. -/
def FinalCheckBroken (own : List (Memory × Memory)) : Prop :=
  ∃ before m, own = before ++ [(m, m)] ∧ operation_state_of m = .broken

/-- What a pass of a send may return after what it has done. -/
structure SendReport (message : Bytes) (own : List (Memory × Memory)) (outcome : Outcome) : Prop where
  once : published_in own = [] ∨ ∃ sequence, published_in own = [(sequence, message)]
  success : outcome = .sent .success → published_in own ≠ []
  otherwise : outcome ≠ .sent .success →
    published_in own = [] ∨ outcome = .sent .broken ∧ FinalCheckBroken own
  again : ∀ op, outcome = .again op → ∃ mode, op = .send message mode

/-- How a critical section may end after what the pass has done. -/
structure SendExitReport (message : Bytes) (own : List (Memory × Memory)) (exit : SendExit) : Prop where
  published : exit = .published → ∃ sequence, published_in own = [(sequence, message)]
  otherwise : exit ≠ .published → published_in own = []
  refused : exit ≠ .leave .success

/-- A call goes on only by repeating its pass. -/
def repeats (session : Session) : Prop := ∃ op, session.outcome = .again op

section

variable {own : List (Memory × Memory)} {m : Memory} {α β : Type} {message : Bytes}

theorem published_in_append (own later : List (Memory × Memory)) :
    published_in (own ++ later) = published_in own ++ published_in later :=
  List.flatMap_append

theorem published_in_change {later : List (Memory × Memory)} (h : ∀ x ∈ later, Change x.1 x.2) :
    published_in later = [] := by
  refine List.flatMap_eq_nil_iff.mpr fun x hx => ?_
  rw [(h x hx).published, List.drop_length]

/-- Programs that publish nothing. -/
theorem own_change {P : α → Prop} {p : Prog Memory α} (hp : p.Always Change P)
    (own : List (Memory × Memory)) :
    Own (fun own' _ => published_in own' = published_in own) own p := by
  refine (hp.own own).mono ?_
  rintro _ _ ⟨_, later, rfl, hlater⟩
  rw [published_in_append, published_in_change hlater, List.append_nil]

/-- Publication appends the message and nothing else. -/
theorem own_publish (selected capacity : Nat) (hown : published_in own = []) :
    Own (fun own' _ => ∃ sequence, published_in own' = [(sequence, message)]) own
      (publish_message selected capacity message) := by
  unfold publish_message
  refine (own_change (Change.reserve selected) own).bind fun own₁ sequence h₁ => ?_
  refine (own_change (Change.copy selected message 0) own₁).bind fun own₂ _ h₂ => ?_
  have hsize : (Prog.store fun m : Memory => m.set_slot selected fun slot =>
      { slot with payload_size := message.length % 2 ^ 32 }).Always Change fun _ => True :=
    Prog.always_store (Change.set_slot selected _)
  refine (own_change hsize own₂).bind fun own₃ _ h₃ s => ?_
  refine (own_change (Change.count selected capacity message.length) _).mono fun own₄ _ h₄ => ⟨sequence, ?_⟩
  rw [h₄, published_in_append, h₃, h₂, h₁, hown]
  simp [published_in]

/-- The critical section publishes exactly when it says so. -/
theorem own_send_critical (mode : ManagedLockMode) (hown : published_in own = []) :
    Own (SendExitReport message) own (send_critical message mode) := by
  have hleave {own' : List (Memory × Memory)} {exit : SendExit} (hexit : exit ≠ .published)
      (hrefused : exit ≠ .leave .success) (hown' : published_in own' = []) :
      SendExitReport message own' exit := ⟨fun h => absurd h hexit, fun _ => hown', hrefused⟩
  unfold send_critical
  refine (own_change (Change.load _) own).bind fun own₁ locked_state h₁ => ?_
  rw [hown] at h₁
  split
  next hstate =>
    refine hleave SendExit.noConfusion ?_ h₁
    rintro ⟨⟩
    exact hstate rfl
  refine (own_change Change.validate own₁).bind fun own₂ valid h₂ => ?_
  rw [h₁] at h₂
  split
  · exact hleave SendExit.noConfusion (by decide) h₂
  refine (own_change (Change.load _) own₂).bind fun own₃ free_slots h₃ => ?_
  rw [h₂] at h₃
  split
  · refine (own_change (Change.load _) own₃).bind fun own₄ next_sequence h₄ => ?_
    rw [h₃] at h₄
    split
    · refine (own_change (Change.mark_broken _) own₄).bind fun own₅ _ h₅ => ?_
      exact hleave SendExit.noConfusion (by decide) (h₅.trans h₄)
    refine (own_change (Change.load _) own₄).bind fun own₅ capacity h₅ => ?_
    refine (own_change (Change.load _) own₅).bind fun own₆ start h₆ => ?_
    refine (own_change (Change.find_free _ _ _ _) own₆).bind fun own₇ found h₇ => ?_
    have h₇' : published_in own₇ = [] := h₇.trans (h₆.trans (h₅.trans h₄))
    cases found with
    | none =>
      refine (own_change (Change.mark_broken _) own₇).bind fun own₈ _ h₈ => ?_
      exact hleave SendExit.noConfusion (by decide) (h₈.trans h₇')
    | some selected =>
      refine (own_publish selected capacity h₇').bind fun own₈ _ h₈ => ?_
      exact ⟨fun _ => h₈, fun h => absurd rfl h, SendExit.noConfusion⟩
  · split
    · exact hleave SendExit.noConfusion (by decide) h₃
    · refine (own_change (Change.load _) own₃).bind fun own₄ epoch h₄ => ?_
      exact hleave SendExit.noConfusion SendExit.noConfusion (h₄.trans h₃)

/-- A pass that has published nothing may return anything but success. -/
theorem SendReport.nothing {outcome : Outcome} (hown : published_in own = [])
    (hsuccess : outcome ≠ .sent .success)
    (hagain : ∀ op, outcome = .again op → ∃ mode, op = .send message mode) :
    SendReport message own outcome :=
  ⟨.inl hown, fun h => absurd h hsuccess, fun _ => .inl hown, hagain⟩

/-- A pass of a send. -/
theorem own_send (pid : Nat) (mode : ManagedLockMode) (c : Circumstances) (hown : published_in own = []) :
    Own (SendReport message) own (attempt pid (.send message mode) c) := by
  unfold attempt send_impl
  refine (own_change (Change.load _) own).bind fun own₁ max_message_size h₁ => ?_
  rw [hown] at h₁
  split
  · exact .nothing h₁ (by decide) fun _ => Outcome.noConfusion
  refine (own_change (Change.load _) own₁).bind fun own₂ before_lock h₂ => ?_
  rw [h₁] at h₂
  split
  next hbefore =>
    refine .nothing h₂ ?_ fun _ => Outcome.noConfusion
    rintro ⟨⟩
    exact hbefore rfl
  refine (own_change (Change.guard pid mode c.lock_expires false) own₂).bind fun own₃ status h₃ => ?_
  rw [h₂] at h₃
  split
  next hstatus =>
    have hcount : Prog.Always Change (fun _ => True)
        (if status = .timed_out then count_send_timeout else Prog.ret ()) := by
      split_ifs
      · exact Prog.always_store (Change.set_counters _)
      · trivial
    refine (own_change hcount own₃).bind fun own₄ _ h₄ => ?_
    refine (own_change (Change.unlock pid) own₄).bind fun own₅ _ h₅ => ?_
    refine .nothing (h₅.trans (h₄.trans h₃)) ?_ fun _ => Outcome.noConfusion
    rintro ⟨⟩
    exact hstatus rfl
  refine (own_send_critical mode h₃).bind fun own₄ exit h₄ => ?_
  refine (own_change (Change.unlock pid) own₄).bind fun own₅ _ h₅ => ?_
  cases exit with
  | leave status =>
    refine .nothing (h₅.trans (h₄.otherwise SendExit.noConfusion)) ?_ fun _ => Outcome.noConfusion
    rintro ⟨⟩
    exact h₄.refused rfl
  | published =>
    obtain ⟨sequence, hpublished⟩ := h₄.published rfl
    refine (own_change Change.signal own₅).bind fun own₆ _ h₆ => Own.load_bind fun m => ?_
    have hone : published_in (own₆ ++ [(m, m)]) = [(sequence, message)] := by
      rw [published_in_append, h₆, h₅, hpublished]
      simp [published_in]
    refine ⟨.inr ⟨sequence, hone⟩, fun _ => by rw [hone]; exact List.cons_ne_nil _ _, fun hfailed => ?_,
      fun _ => Outcome.noConfusion⟩
    by_cases hbroken : operation_state_of m = .broken
    · rw [if_pos hbroken]
      exact .inr ⟨rfl, own₆, m, rfl, hbroken⟩
    · rw [if_neg hbroken] at hfailed
      exact absurd rfl hfailed
  | wait epoch =>
    have hnothing := h₅.trans (h₄.otherwise SendExit.noConfusion)
    refine (own_change (Change.wait pid epoch c.wait_expires _) own₅).bind fun own₆ expired h₆ => ?_
    split
    · have htimeouts : (Prog.store fun m : Memory => m.set_counters fun c =>
          { c with send_timeouts := add64 c.send_timeouts 1 }).Always Change fun _ => True :=
        Prog.always_store (Change.set_counters _)
      refine (own_change htimeouts own₆).bind fun own₇ _ h₇ => ?_
      exact .nothing (h₇.trans (h₆.trans hnothing)) (by decide) fun _ => Outcome.noConfusion
    · refine .nothing (h₆.trans hnothing) Outcome.noConfusion fun op hop => ⟨mode, ?_⟩
      cases hop
      rfl

end

section

variable {unlinks : Bool} {m : Memory} {c₀ c₁ c₂ : Config Memory Session Nat} {message : Bytes}
  {own : List (Memory × Memory)}

/-- What receives have taken is a part of what was published. -/
theorem Inv.taken_published (hinv : Inv unlinks m) :
    m.history.taken.map Prod.fst <+: m.history.published ∧
      m.history.published.Pairwise fun a b => a.1 < b.1 := by
  have hsplit {queue : List Message}
      (h : m.history.published = m.history.taken.map Prod.fst ++ queue) :
      m.history.taken.map Prod.fst <+: m.history.published := by
    rw [h]
    exact List.prefix_append _ _
  cases hentry : m.history.entry with
  | none => exact ⟨hsplit (hinv.sound hentry).history, (hinv.sound hentry).increasing⟩
  | some entry =>
    cases hinv.progress entry hentry with
    | untouched hsound => exact ⟨hsplit hsound.history, hsound.increasing⟩
    | truncated _ _ _ _ _ _ _ _ hhistory hincreasing => exact ⟨hsplit hhistory, hincreasing⟩
    | unsequenced _ _ _ _ _ hhistory hincreasing => exact ⟨hsplit hhistory, hincreasing⟩
    | taken hsound => exact ⟨hsplit hsound.history, hsound.increasing⟩

/-- What becomes of the messages that a call has published: receives only
    return published messages, and each of these at most once. -/
structure Delivered (c : Config Memory Session Nat) : Prop where
  published : c.shared.history.taken.map Prod.fst <+: c.shared.history.published
  distinct : c.shared.history.published.Pairwise fun a b => a.1 < b.1
  received : ∀ pid session, c.procs pid = .ret session →
    session.outcome ≠ .dead → session.received = c.shared.taken_by pid

/-- A send call that runs from its start in `c₀` to its return in `c₁`, while
    other processes send, receive, close and unlink in any order, publishes its
    message at most once; unless it returns success it has published nothing,
    except when its check after the publication finds the channel unlinked or
    broken and it returns broken. -/
theorem send_status_truthful {options : ManagedChannelOptions} {layout : ManagedLayout}
    (hlayout : checked_managed_layout options.message_capacity options.max_message_size = .ok layout)
    (hreach : Reachable (discipline true fun _ _ => False) (initial options layout) c₀) {pid : Nat}
    {received : List Bytes} {mode : ManagedLockMode} {circumstances : Circumstances}
    (hcall : c₀.procs pid = pass received (attempt pid (.send message mode) circumstances))
    (hrun : OwnRun (discipline true fun _ _ => False) repeats pid c₀ own c₁) {session : Session}
    (hreturn : c₁.procs pid = .ret session) :
    SendReport message own session.outcome ∧
      ∀ c₂, Reachable (discipline true fun _ _ => False) c₁ c₂ → Delivered c₂ := by
  constructor
  · have hpass (own : List (Memory × Memory)) (received : List Bytes) (mode : ManagedLockMode)
        (circumstances : Circumstances) (hown : published_in own = []) :
        Own (fun own session => SendReport message own session.outcome) own
          (pass received (attempt pid (.send message mode) circumstances)) :=
      (own_send pid mode circumstances hown).bind fun _ _ h => h
    have hfits := hrun.fits (Q := fun own session => SendReport message own session.outcome)
      (by rw [hcall]; exact hpass [] received mode circumstances rfl) ?_
    · rw [hreturn] at hfits
      exact hfits
    · rintro own result _ hreport ⟨op, hop⟩ ⟨op', circumstances', _, _, hsame, rfl⟩
      obtain ⟨mode', rfl⟩ := hreport.again op hop
      obtain rfl := hsame _ hop
      have hnothing : published_in own = [] := by
        rcases hreport.otherwise (by rw [hop]; exact Outcome.noConfusion) with h | ⟨h, _⟩
        · exact h
        · rw [hop] at h
          cases h
      exact hpass own result.received mode' circumstances' hnothing
  · intro c₂ hlater
    obtain ⟨hinv, hbetween⟩ := reachable_inv (fun _ _ _ h _ => h.elim) hlayout
      ((hreach.trans hrun.reachable).trans hlater)
    obtain ⟨hpublished, hdistinct⟩ := hinv.taken_published
    exact ⟨hpublished, hdistinct, fun pid session hsession halive =>
      ((hbetween pid session hsession).2 halive).symm⟩

/-- Process 2 has found the channel healthy and is about to take the mutex,
    process 0 has sent a message up to its last check, and process 1 unlinks
    the channel. -/
def one_slot_resend_unlinked : Config Memory Session Nat :=
  call (call (call (initial one_slot one_slot_layout) 2 (.receive .blocking) 1) 0 (.send [7] .blocking) 28)
    1 .unlink 10

/-- Meanwhile another process makes a call. -/
theorem own_run_call {c : Config Memory Session Nat} {pid other : Nat} {op : Op}
    (hrun : OwnRun (discipline true fun _ _ => False) repeats pid c₀ own c) (hother : pid ≠ other)
    (hidle : c.procs other = .ret {}) (count : Nat) :
    OwnRun (discipline true fun _ _ => False) repeats pid c₀ own (call c other op count) := by
  have hstarted := hrun.other (.start hidle
    ⟨op, {}, fun _ => rfl, Outcome.noConfusion, (by rintro _ ⟨⟩), rfl⟩) (Function.update_of_ne hother _ _)
  exact hstarted.advance_other hother count

/-- A message is sent to the smallest channel, undisturbed, and in the run above:
    there the send has published it and returns broken. -/
theorem send_status_truthful_one_slot :
    let alone := call (initial one_slot one_slot_layout) 0 (.send [7] .blocking) 0
    let resend := call (call (initial one_slot one_slot_layout) 2 (.receive .blocking) 1) 0 (.send [7] .blocking) 0
    let own := resend.own_actions 0 28 ++ one_slot_resend_unlinked.own_actions 0 10
    SendReport [7] (alone.own_actions 0 60) (.sent .success) ∧
      SendReport [7] own (.sent .broken) ∧ published_in own = [(1, [7])] := by
  intro alone resend own
  have halone : Reachable (discipline true fun _ _ => False) (initial one_slot one_slot_layout) alone :=
    reachable_call .refl (fun _ => rfl) rfl 0
  have hresend : Reachable (discipline true fun _ _ => False) (initial one_slot one_slot_layout) resend :=
    reachable_call (reachable_call .refl (fun _ => rfl) rfl 1) (fun _ => rfl) rfl 0
  have hsent : OwnRun (discipline true fun _ _ => False) repeats 0 alone (alone.own_actions 0 60)
      (alone.advance 0 60) := OwnRun.advance .refl 60
  have hunlinked : one_slot_resend_unlinked = call (resend.advance 0 28) 1 .unlink 10 := by
    rw [one_slot_resend_unlinked, call_eq_advance _ 0 _ 28]
  have hrun : OwnRun (discipline true fun _ _ => False) repeats 0 resend own
      (one_slot_resend_unlinked.advance 0 10) := by
    have hother : (0 : Nat) ≠ 1 := by decide
    have hpublished : OwnRun (discipline true fun _ _ => False) repeats 0 resend (resend.own_actions 0 28)
        (resend.advance 0 28) := OwnRun.advance .refl 28
    have hidle : (resend.advance 0 28).procs 1 = .ret {} := by
      rw [Config.advance_procs_of_ne hother.symm]
      rfl
    have hstopped := @own_run_call _ _ _ 0 1 .unlink hpublished hother hidle 10
    rw [← hunlinked] at hstopped
    exact hstopped.advance 10
  have houtcomes : ((alone.advance 0 60).procs 0).shown.map Session.outcome = some (.sent .success) ∧
      ((one_slot_resend_unlinked.advance 0 10).procs 0).shown.map Session.outcome = some (.sent .broken) := by
    decide +kernel
  obtain ⟨session, hsession, houtcome⟩ := Option.map_eq_some_iff.mp houtcomes.1
  obtain ⟨session', hsession', houtcome'⟩ := Option.map_eq_some_iff.mp houtcomes.2
  refine ⟨?_, ?_, by decide +kernel⟩
  · rw [← houtcome]
    exact (send_status_truthful one_slot_layout_ok halone rfl hsent (Prog.eq_ret_of_shown hsession)).1
  · rw [← houtcome']
    exact (send_status_truthful one_slot_layout_ok hresend rfl hrun (Prog.eq_ret_of_shown hsession')).1

/-- Then processes 0 and 2 finish. -/
def one_slot_resend : Config Memory Session Nat := (one_slot_resend_unlinked.advance 0 10).advance 2 60

/-- The send returns broken, and its message is received all the same. -/
theorem broken_send_is_received :
    Reachable (discipline true fun _ _ => False) (initial one_slot one_slot_layout) one_slot_resend ∧
      (one_slot_resend.procs 0).shown.map Session.outcome = some (.sent .broken) ∧
      (one_slot_resend.procs 2).shown.map Session.received = some [[7]] := by
  have hreach : Reachable (discipline true fun _ _ => False) (initial one_slot one_slot_layout)
      one_slot_resend_unlinked := by
    refine reachable_call (reachable_call (reachable_call .refl (fun _ => rfl) rfl 1) (fun _ => rfl) ?_ 28)
      (fun _ => rfl) ?_ 10
    · rw [call_procs_of_ne (by decide)]
      rfl
    · rw [call_procs_of_ne (by decide), call_procs_of_ne (by decide)]
      rfl
  exact ⟨(hreach.advance 0 10).advance 2 60, by decide +kernel, by decide +kernel⟩

end

end shmchan.managed
