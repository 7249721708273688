import Shmchan.Endpoint.Protocol
import Shmchan.Process.Alone

open process

namespace shmchan.endpoint

/-- What decides the course of a call that runs alone, whatever the other
    processes are in the middle of. -/
structure Outline (Message : Type) where
  guards : List Nat
  closings : Nat
  log : Log Message

section

variable {Ring Message Chances α β : Type}

def Endpoint.outline (s : Endpoint Ring Message) : Outline Message := ⟨s.guards, s.closings, s.log⟩

/-- The outline while one more sender is registered. -/
def Outline.enter {Message : Type} (pid : Nat) (o : Outline Message) : Outline Message :=
  { o with guards := pid :: o.guards }

/-- The outline after `close`. -/
def Outline.close {Message : Type} (o : Outline Message) : Outline Message := { o with closings := 1 }

/-- A memory with the given outline, in which the process holds nothing. -/
structure Stands (R : Reliance (Endpoint Ring Message) Nat) (idle : Nat → Endpoint Ring Message → Prop)
    (pid : Nat) (o : Outline Message) (s : Endpoint Ring Message) : Prop where
  inv : R.inv s
  idle : idle pid s
  outlined : s.outline = o

variable {R : Reliance (Endpoint Ring Message) Nat} {idle : Nat → Endpoint Ring Message → Prop} {pid : Nat}
  {o : Outline Message} {s : Endpoint Ring Message}

theorem outline_undisturbed {s s' : Endpoint Ring Message} (h : Undisturbed s s') : s'.outline = s.outline := by
  obtain ⟨_, _, _, rfl⟩ := h
  rfl

theorem Stands.undisturbed (hR : Protocol R idle) (h : Stands R idle pid o s) {s' : Endpoint Ring Message}
    (hsame : Undisturbed s s') : Stands R idle pid o s' := by
  obtain ⟨hinv, hrely⟩ := hR.undisturbed s s' hsame h.inv
  exact ⟨hinv, hR.stable pid s s' (hrely pid) hinv h.idle, (outline_undisturbed hsame).trans h.outlined⟩

theorem Stands.senders (hR : Protocol R idle) (h : Stands R idle pid o s) :
    Senders s.sender_state o.closings o.guards o.log.phase := by
  obtain ⟨hinv, _, rfl⟩ := h
  exact hR.senders s hinv

/-- The programs that handle only the epoch words and their waiters. -/
theorem Stands.quiet (hR : Protocol R idle) {P : α → Prop} {p : EndpointProg Ring Message α}
    (hp : p.Always Undisturbed P) (hfree : p.NonBlocking) (h : Stands R idle pid o s) :
    AloneWithin R.inv (fun a s' => P a ∧ Stands R idle pid o s') p s := by
  apply AloneWithin.of_always hp hfree _ h
  intro s s' hsame h
  have h' := h.undisturbed hR hsame
  exact ⟨h'.inv, h'⟩

theorem Stands.bump (hR : Protocol R idle) (h : Stands R idle pid o s) (word : Word)
    {post : β → Endpoint Ring Message → Prop} {k : Unit → EndpointProg Ring Message β}
    (hk : ∀ s', Stands R idle pid o s' → AloneWithin R.inv post (k ()) s') :
    AloneWithin R.inv post (bump pid word >>= k) s := by
  apply (h.quiet hR (undisturbed_bump pid word) (Prog.nonBlocking_store _)).bind
  exact fun _ s' h' => hk s' h'.2

theorem Stands.wake_all (hR : Protocol R idle) (h : Stands R idle pid o s) (word : Word)
    {post : β → Endpoint Ring Message → Prop} {k : Unit → EndpointProg Ring Message β}
    (hk : ∀ s', Stands R idle pid o s' → AloneWithin R.inv post (k ()) s') :
    AloneWithin R.inv post (wake_all pid word >>= k) s := by
  apply (h.quiet hR (undisturbed_wake_all pid word) (Prog.nonBlocking_store _)).bind
  exact fun _ s' h' => hk s' h'.2

theorem Stands.is_closed_state (hR : Protocol R idle) (h : Stands R idle pid o s)
    {post : β → Endpoint Ring Message → Prop} {k : Bool → EndpointProg Ring Message β}
    (hk : ∀ s', Stands R idle pid o s' → AloneWithin R.inv post (k (decide (o.closings = 1))) s') :
    AloneWithin R.inv post (is_closed_state pid >>= k) s := by
  have h' : Stands R idle pid o (s.give_in pid) := h.undisturbed hR ((undisturbed_is_closed_state pid).1 s)
  have hclosed : decide (s.sender_state &&& channel_closed_bit ≠ 0) = decide (o.closings = 1) :=
    decide_eq_decide.mpr (h.senders hR).closed_iff
  apply AloneWithin.modifyGet h'.inv
  rw [hclosed]
  exact hk _ h'

theorem Stands.closed_and_senders_done (hR : Protocol R idle) (h : Stands R idle pid o s)
    {post : β → Endpoint Ring Message → Prop} {k : Bool → EndpointProg Ring Message β}
    (hk : AloneWithin R.inv post (k (decide (o.closings = 1 ∧ o.guards = []))) s) :
    AloneWithin R.inv post (closed_and_senders_done >>= k) s := by
  have hdone : decide (s.sender_state = channel_closed_bit) = decide (o.closings = 1 ∧ o.guards = []) :=
    decide_eq_decide.mpr (h.senders hR).done_iff
  apply AloneWithin.load h.inv
  rw [hdone]
  exact hk

/-- A change of `sender_state` that keeps the rest. -/
theorem Stands.framed (hR : Protocol R idle) (h : Stands R idle pid o s) {s' : Endpoint Ring Message}
    (hframe : Framed s s') (hsenders : Senders s'.sender_state s'.closings s'.guards s'.log.phase)
    (hothers : ∀ other, other ≠ pid → SenderRely other s s') {o' : Outline Message} (ho : s'.outline = o') :
    Stands R idle pid o' s' := by
  obtain ⟨hinv, _, hidle⟩ := hR.framed pid s s' hframe h.inv h.idle hsenders hothers
  exact ⟨hinv, hidle, ho⟩

/-- How the registration of a sender that runs alone ends. -/
inductive Entered (R : Reliance (Endpoint Ring Message) Nat) (idle : Nat → Endpoint Ring Message → Prop)
    (pid : Nat) (o : Outline Message) : Ended Bool → Endpoint Ring Message → Prop where
  | closed {s : Endpoint Ring Message} (hclosed : o.closings = 1) (h : Stands R idle pid o s) :
      Entered R idle pid o (.returned false) s
  | full {s : Endpoint Ring Message} (hopen : o.closings = 0) (hfull : o.guards.length = active_sender_mask)
      (h : Stands R idle pid o s) :
      Entered R idle pid o (.thrown (.overflow_error "shmchan: too many concurrent senders")) s
  | entered {s : Endpoint Ring Message} (hopen : o.closings = 0) (hroom : o.guards.length ≠ active_sender_mask)
      (h : Stands R idle pid (o.enter pid) s) : Entered R idle pid o (.returned true) s

theorem Stands.register_loop (hR : Protocol R idle) :
    ∀ {chances : List Bool}, false ∈ chances → Stands R idle pid o s →
      AloneWithin R.inv (Entered R idle pid o) (register_loop pid chances s.sender_state) s := by
  intro chances
  induction chances with
  | nil => exact fun hnone => absurd hnone List.not_mem_nil
  | cons spurious chances ih =>
    intro hchances h
    have hsenders := h.senders hR
    have hclosings := hsenders.closings
    unfold endpoint.register_loop
    split_ifs with hbit hmask
    · exact .closed (hsenders.closed_iff.mp hbit) h
    · have hopen := mt hsenders.closed_iff.mpr hbit
      exact .full (by omega) (hsenders.active.symm.trans hmask) h
    · cases spurious with
      | true => exact AloneWithin.no_exchange rfl h.inv (ih (List.mem_of_ne_of_mem Bool.noConfusion hchances) h)
      | false =>
        have hopen := mt hsenders.closed_iff.mpr hbit
        have hroom : o.guards.length ≠ active_sender_mask := fun hfull => hmask (hsenders.active.trans hfull)
        obtain ⟨hinv, _, hready, _⟩ :=
          hR.after_register (.const True) h.inv h.idle trivial hbit hmask
        have h' : Stands R idle pid (o.enter pid) (s.register pid) := by
          refine ⟨hinv, hready.1, ?_⟩
          rw [← h.outlined]
          rfl
        exact AloneWithin.exchange (beq_self_eq_true _) hinv (.entered (by omega) hroom h')

/-- The constructor of `active_sender_guard`. -/
theorem Stands.active_sender_guard (hR : Protocol R idle) (h : Stands R idle pid o s) {chances : List Bool}
    (hchances : false ∈ chances) :
    AloneWithin R.inv (Entered R idle pid o) (active_sender_guard pid chances) s := by
  unfold endpoint.active_sender_guard
  apply AloneWithin.load h.inv
  exact h.register_loop hR hchances

/-- The destructor of a registered `active_sender_guard`. -/
theorem Stands.leave_sender (hR : Protocol R idle) (h : Stands R idle pid (o.enter pid) s) :
    AloneWithin R.inv (fun _ s' => Stands R idle pid o s') (leave_sender pid) s := by
  have hguards : s.guards = pid :: o.guards := congrArg Outline.guards h.outlined
  have hguard : pid ∈ s.guards := by
    rw [hguards]
    exact List.mem_cons_self
  have houtline : (s.unregister pid).outline = o := by
    have hend : (s.unregister pid).outline = { s.outline with guards := s.guards.erase pid } := rfl
    rw [hend, h.outlined, hguards, List.erase_cons_head]
    rfl
  have hframe : Framed s (s.unregister pid) := ⟨rfl, rfl, rfl, rfl⟩
  have h' : Stands R idle pid o (s.unregister pid) :=
    h.framed hR hframe ((hR.senders s h.inv).unregister hguard (hR.unreserved pid s h.idle))
      (fun other hother => .of_guard hguard le_rfl (List.mem_erase_of_ne hother)) houtline
  unfold endpoint.leave_sender
  apply AloneWithin.modifyGet h'.inv
  split_ifs
  · apply h'.bump hR
    intro s₁ h₁
    apply (h₁.quiet hR (undisturbed_wake_all pid .readable) (Prog.nonBlocking_store _)).mono
    exact fun _ _ h₂ => h₂.2
  · exact h'

/-- `close`. -/
theorem Stands.close (hR : Protocol R idle) (h : Stands R idle pid o s) :
    AloneWithin R.inv (fun first s' => first = decide (o.closings = 0) ∧ Stands R idle pid o.close s')
      (close pid) s := by
  have hsenders := h.senders hR
  have hclosings := hsenders.closings
  have hiff := hsenders.closed_iff
  have hsame : s.closings = o.closings := congrArg Outline.closings h.outlined
  have hlast : (s.set_closed pid).closings = 1 := by
    simp only [Endpoint.set_closed]
    split_ifs with hbit
    · exact hsame.trans (hiff.mp hbit)
    · have hopen := mt hiff.mpr hbit
      omega
  have hframe : Framed s (s.set_closed pid) := ⟨rfl, rfl, rfl, rfl⟩
  have h' : Stands R idle pid o.close (s.set_closed pid) := by
    apply h.framed hR hframe (hR.senders s h.inv).set_closed
    · intro other _
      refine ⟨?_, Iff.rfl, fun _ hguards => ⟨hguards, rfl⟩⟩
      rw [hlast]
      omega
    · have hend : (s.set_closed pid).outline = { s.outline with closings := (s.set_closed pid).closings } := rfl
      rw [hend, hlast, h.outlined]
      rfl
  unfold endpoint.close
  apply AloneWithin.modifyGet h'.inv
  split_ifs with hbit
  · have hclosed := hiff.mp hbit
    exact ⟨by rw [hclosed]; rfl, h'⟩
  · have hopen : o.closings = 0 := by
      have hnot := mt hiff.mpr hbit
      omega
    apply h'.bump hR
    intro s₁ h₁
    apply h₁.bump hR
    intro s₂ h₂
    apply h₂.wake_all hR
    intro s₃ h₃
    apply h₃.wake_all hR
    exact fun s₄ h₄ => ⟨by rw [hopen]; rfl, h₄⟩

/-- What a try to send does when it runs alone: with room, it leaves the given
    log behind. -/
def EnqueuesAlone (R : Reliance (Endpoint Ring Message) Nat) (idle : Nat → Endpoint Ring Message → Prop)
    (pid : Nat) (room : Prop) (log : Log Message) (o : Outline Message)
    (p : EndpointProg Ring Message (Ended Bool)) : Prop :=
  ∀ s, Stands R idle pid o s → AloneWithin R.inv (fun ended s' =>
    room ∧ ended = .returned true ∧ Stands R idle pid { o with log := log } s' ∨
      ¬ room ∧ ended = .returned false ∧ Stands R idle pid o s') p s

/-- What `try_send` does when it runs alone. -/
inductive SentAlone (R : Reliance (Endpoint Ring Message) Nat) (idle : Nat → Endpoint Ring Message → Prop)
    (pid : Nat) (room : Prop) (log : Log Message) (o : Outline Message) :
    Ended ChannelStatus → Endpoint Ring Message → Prop where
  | closed {s : Endpoint Ring Message} (hclosed : o.closings = 1) (h : Stands R idle pid o s) :
      SentAlone R idle pid room log o (.returned .closed) s
  | full {s : Endpoint Ring Message} (hopen : o.closings = 0) (hfull : o.guards.length = active_sender_mask)
      (h : Stands R idle pid o s) :
      SentAlone R idle pid room log o (.thrown (.overflow_error "shmchan: too many concurrent senders")) s
  | success {s : Endpoint Ring Message} (hopen : o.closings = 0)
      (hguards : o.guards.length ≠ active_sender_mask) (hroom : room)
      (h : Stands R idle pid { o with log := log } s) : SentAlone R idle pid room log o (.returned .success) s
  | would_block {s : Endpoint Ring Message} (hopen : o.closings = 0)
      (hguards : o.guards.length ≠ active_sender_mask) (hroom : ¬ room) (h : Stands R idle pid o s) :
      SentAlone R idle pid room log o (.returned .would_block) s

theorem Stands.try_send (hR : Protocol R idle) (h : Stands R idle pid o s) {room : Prop} {log : Log Message}
    {try_enqueue : Chances → EndpointProg Ring Message (Ended Bool)} {registration : List Bool}
    {chances : Chances} (hregistration : false ∈ registration)
    (htry : o.closings = 0 → o.guards.length ≠ active_sender_mask →
      EnqueuesAlone R idle pid room log (o.enter pid) (try_enqueue chances)) :
    AloneWithin R.inv (SentAlone R idle pid room log o) (try_send pid try_enqueue registration chances) s := by
  unfold endpoint.try_send guarded
  apply (h.active_sender_guard hR hregistration).bind
  rintro _ s₁ (⟨hclosed, h₁⟩ | ⟨hopen, hfull, h₁⟩ | ⟨hopen, hguards, h₁⟩)
  · exact .closed hclosed h₁
  · exact .full hopen hfull h₁
  have hfalse : decide ((o.enter pid).closings = 1) = false := by
    rw [Outline.enter, hopen]
    rfl
  have hbody : AloneWithin R.inv (fun ended s' =>
      room ∧ ended = .returned .success ∧ Stands R idle pid (Outline.enter pid { o with log := log }) s' ∨
        ¬ room ∧ ended = .returned .would_block ∧ Stands R idle pid (o.enter pid) s')
      (try_send_body pid try_enqueue chances) s₁ := by
    unfold try_send_body
    apply h₁.is_closed_state hR
    intro s₂ h₂
    rw [hfalse, if_neg Bool.false_ne_true]
    apply (htry hopen hguards s₂ h₂).bind
    rintro _ s₃ (⟨hroom, rfl, h₃⟩ | ⟨hroom, rfl, h₃⟩)
    · exact .inl ⟨hroom, rfl, h₃⟩
    · apply h₃.is_closed_state hR
      intro s₄ h₄
      rw [hfalse]
      exact .inr ⟨hroom, rfl, h₄⟩
  apply hbody.bind
  rintro _ s₂ (⟨hroom, rfl, h₂⟩ | ⟨hroom, rfl, h₂⟩)
  · apply (h₂.leave_sender hR).bind
    exact fun _ s₃ h₃ => .success hopen hguards hroom h₃
  · apply (h₂.leave_sender hR).bind
    exact fun _ s₃ h₃ => .would_block hopen hguards hroom h₃

/-- What a try to receive does when it runs alone: it takes what it finds, and
    leaves the given log behind. -/
def DequeuesAlone (R : Reliance (Endpoint Ring Message) Nat) (idle : Nat → Endpoint Ring Message → Prop)
    (pid : Nat) (found : Option Message) (log : Log Message) (o : Outline Message)
    (p : EndpointProg Ring Message (Ended (Option Message))) : Prop :=
  ∀ s, Stands R idle pid o s → AloneWithin R.inv (fun ended s' =>
    ended = .returned found ∧ Stands R idle pid { o with log := if found.isSome then log else o.log } s') p s

/-- The result of `try_receive` when it runs alone. -/
def received_alone (found : Option Message) (o : Outline Message) : ReceiveResult Message :=
  match found with
  | some value => { code := .success, value := some value }
  | none => { code := if o.closings = 1 ∧ o.guards = [] then .closed else .would_block }

theorem Stands.try_receive (hR : Protocol R idle) (h : Stands R idle pid o s) {found : Option Message}
    {log : Log Message} {try_dequeue : Chances → EndpointProg Ring Message (Ended (Option Message))}
    {first second : Chances} (hfirst : DequeuesAlone R idle pid found log o (try_dequeue first))
    (hsecond : found = none → DequeuesAlone R idle pid found log o (try_dequeue second)) :
    AloneWithin R.inv (fun ended s' => ended = .returned (received_alone found o) ∧
        Stands R idle pid { o with log := if found.isSome then log else o.log } s')
      (try_receive try_dequeue first second) s := by
  unfold endpoint.try_receive
  apply (hfirst s h).bind
  rintro _ s₁ ⟨rfl, h₁⟩
  cases found with
  | some value => exact ⟨rfl, h₁⟩
  | none =>
    have h₁ : Stands R idle pid o s₁ := h₁
    apply h₁.closed_and_senders_done hR
    by_cases hdone : o.closings = 1 ∧ o.guards = []
    · rw [decide_eq_true hdone, if_pos rfl, received_alone, if_pos hdone]
      unfold receive_rest
      apply (hsecond rfl s₁ h₁).bind
      rintro _ s₂ ⟨rfl, h₂⟩
      exact ⟨rfl, h₂⟩
    · rw [decide_eq_false hdone, if_neg Bool.false_ne_true, received_alone, if_neg hdone]
      exact ⟨rfl, h₁⟩

end

end shmchan.endpoint
