import Shmchan.Managed.History

open process

namespace shmchan.managed

/-- No operation takes the channel for healthy or closed. -/
def Fenced (m : Memory) : Prop :=
  m.header.state ≠ ManagedChannelState.healthy.word ∧ m.header.state ≠ ManagedChannelState.closed.word

/-- The store of `unlink` to the state word. -/
def unlink_store (m : Memory) : Memory :=
  m.set_header fun h => { h with state := ManagedChannelState.destroying.word }

/-- The next action of the program is the store of `close`: it has read the
    state word as healthy. -/
def AtCloseStore {α : Type} (p : Prog Memory α) : Prop :=
  ∃ next, p = .act (fun _ => true) close_store next

/-- A process executes the store of `unlink`. -/
def UnlinkStep (c c' : Config Memory Session Nat) : Prop :=
  ∃ pid next, c.procs pid = .act (fun _ => true) unlink_store next ∧
    c' = ⟨unlink_store c.shared, Function.update c.procs pid (next c.shared)⟩

/-- The first action of the program does not lift the fence. -/
def KeepsFence {α : Type} : Prog Memory α → Prop
  | .ret _ => True
  | .act _ update _ => ∀ m, Fenced m → Fenced (update m)

/-- Only the store of `close` lifts the fence, and no action that finds or
    leaves the channel fenced leads to it. -/
def Tame {α : Type} : Prog Memory α → Prop
  | .ret _ => True
  | .act enabled update next =>
    ((enabled = fun _ => true) ∧ update = close_store ∨ ∀ m, Fenced m → Fenced (update m)) ∧
      ∀ m, Tame (next m) ∧ (Fenced (update m) → KeepsFence (next m))

section

variable {α β : Type} {m m' : Memory}

theorem Change.fenced (h : Change m m') (hm : Fenced m) : Fenced m' := by
  rcases h.state with hstate | hstate | hstate
  · rw [Fenced, hstate]
    exact hm
  · rw [Fenced, hstate]
    decide
  · rw [Fenced, hstate]
    decide

theorem unlink_store_fenced (m : Memory) : Fenced (unlink_store m) := by
  have hstate : (unlink_store m).header.state = ManagedChannelState.destroying.word := rfl
  rw [Fenced, hstate]
  decide

theorem close_store_not_fenced (m : Memory) : ¬ Fenced (close_store m) := fun h => h.2 rfl

/-- Programs whose every action keeps the fence. -/
theorem keepsFence_of_always {P : α → Prop} {p : Prog Memory α}
    (hp : p.Always (fun m m' => Fenced m → Fenced m') P) : KeepsFence p := by
  cases p with
  | ret a => trivial
  | act enabled update next => exact hp.1

theorem tame_of_always {P : α → Prop} {p : Prog Memory α}
    (hp : p.Always (fun m m' => Fenced m → Fenced m') P) : Tame p := by
  induction p with
  | ret a => trivial
  | act enabled update next ih =>
    exact ⟨.inr hp.1, fun m => ⟨ih m (hp.2 m), fun _ => keepsFence_of_always (hp.2 m)⟩⟩

theorem keepsFence_of_change {P : α → Prop} {p : Prog Memory α} (hp : p.Always Change P) :
    KeepsFence p :=
  keepsFence_of_always (hp.mono (fun _ _ h => h.fenced) fun _ h => h)

theorem tame_of_change {P : α → Prop} {p : Prog Memory α} (hp : p.Always Change P) : Tame p :=
  tame_of_always (hp.mono (fun _ _ h => h.fenced) fun _ h => h)

theorem KeepsFence.bind {p : Prog Memory α} {f : α → Prog Memory β} (hp : KeepsFence p)
    (hf : ∀ a, KeepsFence (f a)) : KeepsFence (p >>= f) := by
  cases p with
  | ret a => exact hf a
  | act enabled update next => exact hp

theorem Tame.bind {p : Prog Memory α} {f : α → Prog Memory β} (hp : Tame p)
    (hf : ∀ a, Tame (f a) ∧ KeepsFence (f a)) : Tame (p >>= f) := by
  induction p with
  | ret a => exact (hf a).1
  | act enabled update next ih =>
    exact ⟨hp.1, fun m => ⟨ih m (hp.2 m).1, fun hm => ((hp.2 m).2 hm).bind fun a => (hf a).2⟩⟩

/-- A program that is not at the store of `close` keeps the fence. -/
theorem Tame.keepsFence {p : Prog Memory α} (hp : Tame p) (hnot : ¬ AtCloseStore p) : KeepsFence p := by
  cases p with
  | ret a => trivial
  | act enabled update next =>
    rcases hp.1 with ⟨rfl, rfl⟩ | hkeeps
    · exact absurd ⟨next, rfl⟩ hnot
    · exact hkeeps

/-- `close` stores only after it has read healthy. -/
theorem tame_close_critical : Tame close_critical := by
  refine ⟨.inr fun m hm => hm, fun m => ?_⟩
  by_cases hstate : m.header.state = ManagedChannelState.healthy.word
  · refine ⟨?_, fun hm => absurd hstate hm.1⟩
    change Tame (if m.header.state ≠ ManagedChannelState.healthy.word then _ else _)
    rw [if_neg (not_not.mpr hstate)]
    exact ⟨.inl ⟨rfl, rfl⟩, fun _ => ⟨trivial, fun _ => trivial⟩⟩
  · change Tame (if m.header.state ≠ ManagedChannelState.healthy.word then _ else _) ∧ (_ →
      KeepsFence (if m.header.state ≠ ManagedChannelState.healthy.word then _ else _))
    rw [if_pos hstate]
    exact ⟨trivial, fun _ => trivial⟩

/-- Every operation is tame, and none starts with the store of `close`. -/
theorem tame_attempt (pid : Nat) (op : Op) (c : Circumstances) :
    Tame (attempt pid op c) ∧ KeepsFence (attempt pid op c) := by
  by_cases hop : op = .close
  · subst hop
    have hguard := Change.guard pid .blocking false false
    have hunlock := Change.unlock pid
    have hrest (stored : Bool) : Prog.Always Change (fun _ => True)
        (if stored = true then signal_managed_event >>= fun _ => Prog.ret (Outcome.closed true)
          else Prog.ret (Outcome.closed false)) := by
      split_ifs
      · exact Change.signal.bind fun _ _ => trivial
      · trivial
    have hafter (status : ChannelStatus) :
        Tame (if status ≠ .success then guard_unlock pid >>= fun _ => Prog.ret (Outcome.closed false)
          else close_critical >>= fun stored => guard_unlock pid >>= fun _ =>
            if stored = true then signal_managed_event >>= fun _ => Prog.ret (Outcome.closed true)
            else Prog.ret (Outcome.closed false)) ∧
        KeepsFence (if status ≠ .success then guard_unlock pid >>= fun _ => Prog.ret (Outcome.closed false)
          else close_critical >>= fun stored => guard_unlock pid >>= fun _ =>
            if stored = true then signal_managed_event >>= fun _ => Prog.ret (Outcome.closed true)
            else Prog.ret (Outcome.closed false)) := by
      split_ifs
      · have hrefused := hunlock.bind (Q := fun _ => True) (f := fun _ => Prog.ret (Outcome.closed false))
          fun _ _ => trivial
        exact ⟨tame_of_change hrefused, keepsFence_of_change hrefused⟩
      · have hleave (stored : Bool) := hunlock.bind fun _ _ => hrest stored
        exact ⟨tame_close_critical.bind fun stored =>
          ⟨tame_of_change (hleave stored), keepsFence_of_change (hleave stored)⟩, fun m hm => hm⟩
    exact ⟨(tame_of_change hguard).bind hafter,
      (keepsFence_of_change hguard).bind fun status => (hafter status).2⟩
  · have hkeeps := attempt_always_of_ne (fun _ _ h => h.fenced) (fun _ _ _ hm => hm) pid op c hop
    exact ⟨tame_of_always hkeeps, keepsFence_of_always hkeeps⟩

theorem tame_pass (pid : Nat) (received : List Bytes) (op : Op) (c : Circumstances) :
    Tame (pass received (attempt pid op c)) ∧ KeepsFence (pass received (attempt pid op c)) := by
  obtain ⟨htame, hkeeps⟩ := tame_attempt pid op c
  exact ⟨htame.bind fun _ => ⟨trivial, trivial⟩, hkeeps.bind fun _ => trivial⟩

end

section

variable {unlinks : Bool} {may_die : Nat → Memory → Prop} {c c' init : Config Memory Session Nat}

/-- Programs of a run are tame. -/
theorem reachable_tame (hinit : ∀ pid, ∃ session, init.procs pid = .ret session)
    (hreach : Reachable (discipline unlinks may_die) init c) (pid : Nat) : Tame (c.procs pid) := by
  induction hreach generalizing pid with
  | refl =>
    obtain ⟨session, hsession⟩ := hinit pid
    rw [hsession]
    trivial
  | @tail c c' _ hstep ih =>
    have hupdate (acting : Nat) {program : Prog Memory Session} (hprogram : Tame program) :
        Tame (Function.update c.procs acting program pid) := by
      by_cases hacting : pid = acting
      · subst hacting
        rwa [Function.update_self]
      · rw [Function.update_of_ne hacting]
        exact ih pid
    cases hstep with
    | @run acting enabled update next hprog _ =>
      have htame := ih acting
      rw [hprog] at htame
      exact hupdate acting (htame.2 _).1
    | @start acting result program hprog hstart =>
      obtain ⟨op, circumstances, _, _, _, rfl⟩ := hstart
      exact hupdate acting (tame_pass acting result.received op circumstances).1
    | @die acting hdie => exact hupdate acting trivial

/-- A channel that is fenced while no process is at the store of `close` stays so. -/
theorem fenced_step (htame : ∀ pid, Tame (c.procs pid)) (hfenced : Fenced c.shared)
    (hkeeps : ∀ pid, KeepsFence (c.procs pid)) (hstep : Step (discipline unlinks may_die) c c') :
    Fenced c'.shared ∧ ∀ pid, KeepsFence (c'.procs pid) := by
  have hupdate (acting : Nat) {program : Prog Memory Session} (hprogram : KeepsFence program) (pid : Nat) :
      KeepsFence (Function.update c.procs acting program pid) := by
    by_cases hacting : pid = acting
    · subst hacting
      rwa [Function.update_self]
    · rw [Function.update_of_ne hacting]
      exact hkeeps pid
  cases hstep with
  | @run acting enabled update next hprog _ =>
    have hact := htame acting
    have hkeep := hkeeps acting
    rw [hprog] at hact hkeep
    have hfenced' := hkeep c.shared hfenced
    exact ⟨hfenced', hupdate acting ((hact.2 _).2 hfenced')⟩
  | @start acting result program hprog hstart =>
    obtain ⟨op, circumstances, _, _, _, rfl⟩ := hstart
    exact ⟨hfenced, hupdate acting (tame_pass acting result.received op circumstances).2⟩
  | @die acting hdie =>
    refine ⟨?_, hupdate acting trivial⟩
    have hstate := (on_death_same acting c.shared).2.2.2.1
    simp only [discipline, Fenced, hstate]
    exact hfenced

theorem fenced_later (hinit : ∀ pid, ∃ session, init.procs pid = .ret session)
    (hreach : Reachable (discipline unlinks may_die) init c) (hfenced : Fenced c.shared)
    (hkeeps : ∀ pid, KeepsFence (c.procs pid))
    (hlater : Reachable (discipline unlinks may_die) c c') : Fenced c'.shared := by
  have hboth : Fenced c'.shared ∧ ∀ pid, KeepsFence (c'.procs pid) := by
    induction hlater with
    | refl => exact ⟨hfenced, hkeeps⟩
    | tail hsteps hstep ih =>
      exact fenced_step (reachable_tame hinit (hreach.trans hsteps)) ih.1 ih.2 hstep
  exact hboth.1

/-- The maximum size never changes. -/
theorem max_later (hinit : ∀ pid, ∃ session, init.procs pid = .ret session)
    (hreach : Reachable (discipline unlinks may_die) init c)
    (hlater : Reachable (discipline unlinks may_die) c c') :
    c'.shared.header.max_message_size = c.shared.header.max_message_size :=
  reachable_always (G := fun m m' => m'.header.max_message_size = m.header.max_message_size)
    (fun _ => rfl) (fun _ _ _ h h' => h'.trans h) (fun _ _ h => h.max) (fun _ _ _ => rfl) (fun _ => rfl)
    (fun pid m => (on_death_same pid m).2.2.1) hinit hreach hlater

/-- The old mapping is fenced for good: in every later state of every run the
    state word is neither healthy nor closed, and whatever a process reads of
    these states, its send or receive is refused; a message over the maximum
    size is refused for its size. -/
structure FencedForGood (D : Discipline Memory Session Nat) (c : Config Memory Session Nat) : Prop where
  state : ∀ c', Reachable D c c' → Fenced c'.shared
  sends : ∀ pid message mode circumstances s outcome t,
    Interleaved (fun _ m => ∃ c', Reachable D c c' ∧ m = c'.shared)
      (attempt pid (.send message mode) circumstances) s outcome t →
    outcome = .sent (if message.length > c.shared.header.max_message_size then .message_too_large
      else .broken)
  receives : ∀ pid mode circumstances s outcome t,
    Interleaved (fun _ m => ∃ c', Reachable D c c' ∧ m = c'.shared)
      (attempt pid (.receive mode) circumstances) s outcome t →
    outcome = .received .broken none

theorem Fenced.operation_state {m : Memory} (hm : Fenced m) : operation_state_of m = .broken := by
  rw [operation_state_of, if_neg hm.1, if_neg hm.2]

theorem fencedForGood (hinit : ∀ pid, ∃ session, init.procs pid = .ret session)
    (hreach : Reachable (discipline unlinks may_die) init c) (hfenced : Fenced c.shared)
    (hkeeps : ∀ pid, KeepsFence (c.procs pid)) : FencedForGood (discipline unlinks may_die) c := by
  have hlater (c' : Config Memory Session Nat) (h : Reachable (discipline unlinks may_die) c c') :=
    fenced_later hinit hreach hfenced hkeeps h
  refine ⟨hlater, ?_, ?_⟩
  · intro pid message mode circumstances s outcome t hrun
    obtain ⟨_, ⟨c₁, hc₁, rfl⟩, hrest⟩ := Interleaved.load_bind_inv hrun
    rw [max_later hinit hreach hc₁] at hrest
    by_cases hlarge : message.length > c.shared.header.max_message_size
    · rw [if_pos hlarge] at hrest ⊢
      exact hrest.ret_inv.1
    · rw [if_neg hlarge] at hrest ⊢
      obtain ⟨_, ⟨c₂, hc₂, rfl⟩, hrest⟩ := Interleaved.load_bind_inv hrest
      rw [(hlater c₂ hc₂).operation_state, if_pos (by decide)] at hrest
      exact hrest.ret_inv.1
  · intro pid mode circumstances s outcome t hrun
    obtain ⟨_, ⟨c₁, hc₁, rfl⟩, hrest⟩ := Interleaved.load_bind_inv hrun
    rw [(hlater c₁ hc₁).operation_state, if_pos rfl] at hrest
    exact hrest.ret_inv.1

/-- The store of `unlink` fences the mapping for good exactly when no `close`
    has read healthy and not yet stored closed at that moment. -/
theorem unlink_fences_iff {options : ManagedChannelOptions} {layout : ManagedLayout}
    (hreach : Reachable (discipline true may_die) (initial options layout) c) (hunlink : UnlinkStep c c') :
    FencedForGood (discipline true may_die) c' ↔ ∀ pid, ¬ AtCloseStore (c.procs pid) := by
  obtain ⟨acting, next, hprog, rfl⟩ := hunlink
  have hinit (pid : Nat) : ∃ session, (initial options layout).procs pid = .ret session := ⟨_, rfl⟩
  have htame := reachable_tame hinit hreach
  constructor
  · rintro hgood pid ⟨nextclose, hclose⟩
    have hne : pid ≠ acting := by
      rintro rfl
      rw [hclose] at hprog
      have hstores : close_store = unlink_store := (Prog.act.inj hprog).2.1
      have hfenced := unlink_store_fenced c.shared
      rw [← hstores] at hfenced
      exact close_store_not_fenced _ hfenced
    have hstill : Function.update c.procs acting (next c.shared) pid =
        .act (fun _ => true) close_store nextclose := by
      rw [Function.update_of_ne hne]
      exact hclose
    exact close_store_not_fenced _ (hgood.state _ (Relation.ReflTransGen.single (.run hstill rfl)))
  · intro hnone
    have hact := htame acting
    rw [hprog] at hact
    refine fencedForGood hinit (hreach.step (.run hprog rfl)) (unlink_store_fenced c.shared) fun pid => ?_
    by_cases hacting : pid = acting
    · subst hacting
      simp only [Function.update_self]
      exact (hact.2 _).2 (unlink_store_fenced c.shared)
    · simp only [Function.update_of_ne hacting]
      exact (htame pid).keepsFence (hnone pid)

theorem KeepsFence.not_atCloseStore {α : Type} {p : Prog Memory α} (hp : KeepsFence p) :
    ¬ AtCloseStore p := by
  rintro ⟨next, rfl⟩
  exact close_store_not_fenced _ (hp _ (unlink_store_fenced zeroed))

/-- Process 1 is `count` actions into a close, and process 0 is about to
    execute the store of an unlink. -/
def one_slot_unlink (count : Nat) : Config Memory Session Nat :=
  call (call (initial one_slot one_slot_layout) 1 .close count) 0 .unlink 0

/-- The next state. -/
def one_slot_unlinked (count : Nat) : Config Memory Session Nat :=
  call (call (initial one_slot one_slot_layout) 1 .close count) 0 .unlink 1

theorem one_slot_unlink_reachable {may_die : Nat → Memory → Prop} {count : Nat}
    (hidle : (call (initial one_slot one_slot_layout) 1 .close count).procs 0 = .ret {}) :
    Reachable (discipline true may_die) (initial one_slot one_slot_layout) (one_slot_unlink count) :=
  reachable_call (reachable_call .refl (fun _ => rfl) rfl count) (fun _ => rfl) hidle 0

theorem unlink_fences_iff_one_slot :
    FencedForGood (discipline true fun _ _ => False) (one_slot_unlinked 0) := by
  refine (unlink_fences_iff (c := one_slot_unlink 0) (one_slot_unlink_reachable rfl)
    ⟨0, _, rfl, rfl⟩).mpr fun pid => KeepsFence.not_atCloseStore ?_
  rcases pid with _ | _ | pid
  · exact (tame_pass 0 [] .unlink {}).2
  · exact (tame_pass 1 [] .close {}).2
  · exact trivial

/-- A close that has read healthy before the unlink stores closed after it. -/
theorem close_lifts_fence :
    Reachable (discipline true fun _ _ => False) (initial one_slot one_slot_layout) (one_slot_unlink 2) ∧
      UnlinkStep (one_slot_unlink 2) (one_slot_unlinked 2) ∧
      ∃ c, Reachable (discipline true fun _ _ => False) (one_slot_unlinked 2) c ∧
        c.shared.header.state = ManagedChannelState.closed.word := by
  refine ⟨one_slot_unlink_reachable rfl, ⟨0, _, rfl, rfl⟩, (one_slot_unlinked 2).advance 1 1,
    Reachable.advance .refl 1 1, ?_⟩
  decide +kernel

end

end shmchan.managed
