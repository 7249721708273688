import Shmchan.Endpoint.Quiet
import Shmchan.Endpoint.Senders

open process

namespace shmchan.endpoint

section

variable {Ring Message Chances α β : Type}

/-- A step that leaves the ring and the history of its use alone. -/
structure Framed (s s' : Endpoint Ring Message) : Prop where
  ring : s'.ring = s.ring
  log : s'.log = s.log
  receiving : s'.receiving = s.receiving
  hasty : s'.hasty = s.hasty

/-- What the calls of a channel need from its invariant and its reliance.
    `idle` says what a process holds that is not using the ring: nothing. -/
structure Protocol (R : Reliance (Endpoint Ring Message) Nat)
    (idle : Nat → Endpoint Ring Message → Prop) : Prop where
  refl : ∀ pid s, R.rely pid s s
  senders : ∀ s, R.inv s → Senders s.sender_state s.closings s.guards s.log.phase
  sender_rely : ∀ pid s s', R.rely pid s s' → SenderRely pid s s'
  stable : ∀ pid, Stable R pid (idle pid)
  unreserved : ∀ pid s, idle pid s → ∀ i, s.log.phase i ≠ .reserved pid
  undisturbed : ∀ s s', Undisturbed s s' → R.inv s → R.inv s' ∧ ∀ pid, R.rely pid s s'
  framed : ∀ pid s s', Framed s s' → R.inv s → idle pid s →
    Senders s'.sender_state s'.closings s'.guards s'.log.phase →
    (∀ other, other ≠ pid → SenderRely other s s') →
      R.inv s' ∧ (∀ other, other ≠ pid → R.rely other s s') ∧ idle pid s'

/-- An assertion that neither the others nor the calls' own handling of
    `sender_state` break. -/
structure Lasting (R : Reliance (Endpoint Ring Message) Nat) (pid : Nat)
    (A : Endpoint Ring Message → Prop) : Prop where
  stable : Stable R pid A
  framed : ∀ s s', Framed s s' → A s → A s'

/-- A registered sender that is not using the ring. -/
def Ready (idle : Nat → Endpoint Ring Message → Prop) (pid : Nat) (s : Endpoint Ring Message) : Prop :=
  idle pid s ∧ pid ∈ s.guards

variable {Q : Endpoint Ring Message → Prop} {R : Reliance (Endpoint Ring Message) Nat}
  {idle : Nat → Endpoint Ring Message → Prop} {pid : Nat} {s s' : Endpoint Ring Message}
  {A : Endpoint Ring Message → Prop}

theorem Lasting.const (P : Prop) : Lasting R pid fun _ => P := ⟨fun _ _ _ _ h => h, fun _ _ _ h => h⟩

theorem Protocol.ready_stable (hR : Protocol R idle) (pid : Nat) : Stable R pid (Ready idle pid) := by
  intro s s' hrely hinv h
  exact ⟨hR.stable pid s s' hrely hinv h.1, (hR.sender_rely pid s s' hrely).guard.mpr h.2⟩

/-- The programs that handle only the epoch words and their waiters. -/
theorem Protocol.quiet_safe (hR : Protocol R idle) {P : α → Prop} {p : EndpointProg Ring Message α}
    (hp : p.Always Undisturbed P) (hA : Stable R pid A) (h : A s) :
    SafeWithin Q R pid (fun a s' => P a ∧ A s') p s := by
  apply SafeWithin.of_always hp hA _ h
  intro s s' hsame hinv h
  obtain ⟨hinv', hrely⟩ := hR.undisturbed s s' hsame hinv
  exact ⟨hinv', fun other _ => hrely other, hA s s' (hrely pid) hinv' h⟩

/-- A sender's check for the closing of the channel. -/
theorem Protocol.is_closed_state_safe (hR : Protocol R idle) {post : β → Endpoint Ring Message → Prop}
    {k : Bool → EndpointProg Ring Message β} (hA : Stable R pid A) (h : A s)
    (hk : ∀ closed s', A s' → SafeWithin Q R pid post (k closed) s') :
    SafeWithin Q R pid post (is_closed_state pid >>= k) s := by
  apply (hR.quiet_safe (undisturbed_is_closed_state pid) hA h).bind
  exact fun closed s' h' => hk closed s' h'.2

theorem Protocol.load (hR : Protocol R idle) {post : β → Endpoint Ring Message → Prop}
    {f : Endpoint Ring Message → α} {k : α → EndpointProg Ring Message β} (hA : Stable R pid A) (h : A s)
    (hk : ∀ s', A s' → R.inv s' → SafeWithin Q R pid post (k (f s')) s') :
    SafeWithin Q R pid post (.load f >>= k) s :=
  SafeWithin.load hR.refl hA h fun s' h' hinv _ => hk s' h' hinv

/-- A wait keeps every assertion, and fails only with its own exception. -/
theorem Protocol.wait_safe (hR : Protocol R idle) (word : Word) (epoch : Nat × Nat) (timed : Bool)
    (wait : Wait) (hA : Stable R pid A) (h : A s) :
    SafeWithin Q R pid
      (Ended.Post (fun _ s' => A s') fun error s' => error = .system_error "futex(FUTEX_WAIT)" ∧ A s')
      (wait_for_change pid word epoch timed wait) s := by
  apply (hR.quiet_safe (undisturbed_wait_for_change pid word epoch timed wait) hA h).mono
  rintro ended s' ⟨hend, h'⟩
  cases ended with
  | returned value => exact h'
  | thrown error => exact ⟨hend, h'⟩
  | unfinished => trivial

/-- A sender registers, unless it finds the channel closed. -/
theorem Protocol.after_register (hR : Protocol R idle) (hA : Lasting R pid A) (hinv : R.inv s)
    (hidle : idle pid s) (h : A s) (hopen : ¬ s.sender_state &&& channel_closed_bit ≠ 0)
    (hroom : s.sender_state &&& active_sender_mask ≠ active_sender_mask) :
    R.inv (s.register pid) ∧ (∀ other, other ≠ pid → R.rely other s (s.register pid)) ∧
      Ready idle pid (s.register pid) ∧ A (s.register pid) := by
  have hsenders := hR.senders s hinv
  have hframe : Framed s (s.register pid) := ⟨rfl, rfl, rfl, rfl⟩
  have hclosings : s.closings = 0 := by
    have hclosed := mt hsenders.closed_iff.mpr hopen
    have := hsenders.closings
    omega
  obtain ⟨hinv', hothers, hidle'⟩ := hR.framed pid s (s.register pid) hframe hinv hidle
    (hsenders.register pid hroom) fun other hother =>
      { closings := le_rfl
        guard := List.mem_cons.trans ⟨fun h => h.resolve_left hother, .inr⟩
        done := fun hclosed _ => absurd hclosed (by omega) }
  exact ⟨hinv', hothers, ⟨hidle', List.mem_cons_self⟩, hA.framed s _ hframe h⟩

theorem Protocol.register_loop_safe (hR : Protocol R idle) (hA : Lasting R pid A) :
    ∀ {chances : List Bool} {current : Nat} {s : Endpoint Ring Message}, idle pid s → A s →
      SafeWithin Q R pid
        (Ended.Post (fun registered s' => (if registered = true then Ready idle pid s' else idle pid s') ∧ A s')
          fun error s' => idle pid s' ∧ A s' ∧
            error = .overflow_error "shmchan: too many concurrent senders")
        (register_loop pid chances current) s := by
  intro chances
  induction chances with
  | nil =>
    intro current s hidle h
    unfold register_loop
    split
    · exact ⟨hidle, h⟩
    split
    · exact ⟨hidle, h, rfl⟩
    · trivial
  | cons spurious chances ih =>
    intro current s hidle h
    unfold register_loop
    split
    · exact ⟨hidle, h⟩
    next hopen =>
    split
    · exact ⟨hidle, h, rfl⟩
    next hroom =>
    simp only
    apply SafeWithin.act ((hR.stable pid).and hA.stable) ⟨hidle, h⟩
    rintro s₁ ⟨hidle₁, h₁⟩ hinv₁ _ _ _
    by_cases hexchanged : (!spurious && s₁.sender_state == current) = true
    · simp only [hexchanged, if_true]
      simp only [Bool.and_eq_true, beq_iff_eq] at hexchanged
      rw [← hexchanged.2] at hopen hroom
      exact hR.after_register hA hinv₁ hidle₁ h₁ hopen hroom
    · simp only [hexchanged]
      exact ⟨hinv₁, fun other _ => hR.refl other s₁, ih hidle₁ h₁⟩

/-- The constructor of `active_sender_guard`. -/
theorem Protocol.active_sender_guard_safe (hR : Protocol R idle) (hA : Lasting R pid A)
    (chances : List Bool) (hidle : idle pid s) (h : A s) :
    SafeWithin Q R pid
      (Ended.Post (fun registered s' => (if registered = true then Ready idle pid s' else idle pid s') ∧ A s')
        fun error s' => idle pid s' ∧ A s' ∧
          error = .overflow_error "shmchan: too many concurrent senders")
      (active_sender_guard pid chances) s := by
  unfold active_sender_guard
  apply hR.load ((hR.stable pid).and hA.stable) ⟨hidle, h⟩
  exact fun s₁ h₁ _ => hR.register_loop_safe hA h₁.1 h₁.2

/-- The destructor of a registered `active_sender_guard`. -/
theorem Protocol.leave_sender_safe (hR : Protocol R idle) (hA : Lasting R pid A) (hready : Ready idle pid s)
    (h : A s) :
    SafeWithin Q R pid (fun _ s' => idle pid s' ∧ A s') (leave_sender pid) s := by
  unfold leave_sender
  apply SafeWithin.modifyGet ((hR.ready_stable pid).and hA.stable) ⟨hready, h⟩
  rintro s₁ ⟨⟨hidle₁, hguard₁⟩, h₁⟩ hinv₁ _ _
  have hframe : Framed s₁ (s₁.unregister pid) := ⟨rfl, rfl, rfl, rfl⟩
  obtain ⟨hinv, hothers, hidle₂⟩ := hR.framed pid s₁ _ hframe hinv₁ hidle₁
    ((hR.senders s₁ hinv₁).unregister hguard₁ (hR.unreserved pid s₁ hidle₁))
    fun other hother => .of_guard hguard₁ le_rfl (List.mem_erase_of_ne hother)
  have h₂ := hA.framed s₁ _ hframe h₁
  refine ⟨hinv, hothers, ?_⟩
  split
  · have hstable := (hR.stable pid).and hA.stable
    apply (hR.quiet_safe (undisturbed_bump pid .readable) hstable ⟨hidle₂, h₂⟩).bind
    intro _ s₃ h₃
    apply (hR.quiet_safe (undisturbed_wake_all pid .readable) hstable h₃.2).mono
    exact fun _ _ hend => hend.2
  · exact ⟨hidle₂, h₂⟩

/-- A part of an operation has ended, the process holds nothing, and `P` holds. -/
def EndedIdle (idle : Nat → Endpoint Ring Message → Prop) (pid : Nat)
    (P : Ended α → Endpoint Ring Message → Prop) (ended : Ended α) (s : Endpoint Ring Message) : Prop :=
  ended ≠ .unfinished → idle pid s ∧ P ended s

theorem EndedIdle.returned {P : Ended α → Endpoint Ring Message → Prop} {value : α}
    (h : EndedIdle idle pid P (.returned value) s) : idle pid s ∧ P (.returned value) s := by
  apply h
  rintro ⟨⟩

theorem EndedIdle.thrown {P : Ended α → Endpoint Ring Message → Prop} {error : Exception}
    (h : EndedIdle idle pid P (.thrown error) s) : idle pid s ∧ P (.thrown error) s := by
  apply h
  rintro ⟨⟩

/-- A send: its body runs as a registered sender. -/
theorem Protocol.guarded_safe (hR : Protocol R idle) (chances : List Bool)
    {body : EndpointProg Ring Message (Ended ChannelStatus)}
    {P : Ended ChannelStatus → Endpoint Ring Message → Prop} (hP : ∀ ended, Lasting R pid (P ended))
    (hclosed : ∀ s, P (.returned .closed) s)
    (hfull : ∀ s, P (.thrown (.overflow_error "shmchan: too many concurrent senders")) s)
    (hbody : ∀ s, Ready idle pid s → SafeWithin Q R pid (EndedIdle (Ready idle) pid P) body s)
    (hidle : idle pid s) : SafeWithin Q R pid (EndedIdle idle pid P) (guarded pid chances body) s := by
  unfold guarded andThen
  apply (hR.active_sender_guard_safe (.const True) chances hidle trivial).bind
  intro ended s₁ h₁
  cases ended with
  | returned registered =>
    cases registered with
    | false => exact fun _ => ⟨h₁.1, hclosed s₁⟩
    | true =>
      simp only [if_true]
      apply (hbody s₁ h₁.1).bind
      intro ended s₂ h₂
      split
      · exact fun hne => absurd rfl hne
      next hended =>
        obtain ⟨hready, hend⟩ := h₂ hended
        apply (hR.leave_sender_safe (hP ended) hready hend).bind
        exact fun _ s₃ h₃ _ => h₃
  | thrown error =>
    obtain ⟨hidle₁, _, rfl⟩ := h₁
    exact fun _ => ⟨hidle₁, hfull s₁⟩
  | unfinished => exact fun hne => absurd rfl hne

/-- What a send says at its end: a refusal for lack of room has a reason, and
    the exceptions are those of the guard and of the wait. -/
def SendEnd (refused : Endpoint Ring Message → Prop) : Ended ChannelStatus → Endpoint Ring Message → Prop
  | .returned status, s => status = .would_block ∨ status = .timed_out → refused s
  | .thrown error, _ => error = .overflow_error "shmchan: too many concurrent senders" ∨
      error = .system_error "futex(FUTEX_WAIT)"
  | .unfinished, _ => True

theorem sendEnd_lasting {refused : Endpoint Ring Message → Prop} (h : Lasting R pid refused)
    (ended : Ended ChannelStatus) : Lasting R pid (SendEnd refused ended) := by
  cases ended with
  | returned status =>
    exact ⟨fun s s' hrely hinv hend hstatus => h.stable s s' hrely hinv (hend hstatus),
      fun s s' hframe hend hstatus => h.framed s s' hframe (hend hstatus)⟩
  | thrown error => exact .const _
  | unfinished => exact .const _

theorem endedIdle_of_not_refused {refused : Endpoint Ring Message → Prop} {status : ChannelStatus}
    (hready : Ready idle pid s) (hblock : status ≠ .would_block) (htimed : status ≠ .timed_out) :
    EndedIdle (Ready idle) pid (SendEnd refused) (.returned status) s := by
  intro _
  exact ⟨hready, fun hstatus => absurd hstatus (not_or.mpr ⟨hblock, htimed⟩)⟩

/-- A try to send, as the calls need it. -/
def TriesEnqueue (Q : Endpoint Ring Message → Prop) (R : Reliance (Endpoint Ring Message) Nat)
    (idle : Nat → Endpoint Ring Message → Prop) (pid : Nat) (refused : Endpoint Ring Message → Prop)
    (try_enqueue : Chances → EndpointProg Ring Message (Ended Bool)) : Prop :=
  ∀ chances s, Ready idle pid s → SafeWithin Q R pid
    (Ended.Post (fun enqueued s' => Ready idle pid s' ∧ (enqueued = false → refused s')) fun _ _ => False)
    (try_enqueue chances) s

section

variable {refused : Endpoint Ring Message → Prop}
  {try_enqueue : Chances → EndpointProg Ring Message (Ended Bool)}

/-- A try, and then what depends on its result. -/
theorem TriesEnqueue.andThen (htry : TriesEnqueue Q R idle pid refused try_enqueue) (chances : Chances)
    {P : Ended β → Endpoint Ring Message → Prop}
    {f : Bool → EndpointProg Ring Message (Ended β)} (hready : Ready idle pid s)
    (htrue : ∀ s', Ready idle pid s' → SafeWithin Q R pid (EndedIdle (Ready idle) pid P) (f true) s')
    (hfalse : ∀ s', Ready idle pid s' → refused s' →
      SafeWithin Q R pid (EndedIdle (Ready idle) pid P) (f false) s') :
    SafeWithin Q R pid (EndedIdle (Ready idle) pid P) (andThen (try_enqueue chances) f) s := by
  apply (htry chances s hready).bind
  intro ended s₁ h₁
  cases ended with
  | returned enqueued =>
    cases enqueued with
    | true => exact htrue s₁ h₁.1
    | false => exact hfalse s₁ h₁.1 (h₁.2 rfl)
  | thrown error => exact h₁.elim
  | unfinished => exact fun hne => absurd rfl hne

/-- The end of a last try that was refused. -/
theorem Protocol.refused_safe (hR : Protocol R idle) (hrefused : Lasting R pid refused)
    (status : ChannelStatus) (hready : Ready idle pid s) (h : refused s) :
    SafeWithin Q R pid (EndedIdle (Ready idle) pid (SendEnd refused))
      (do return .returned (if ← is_closed_state pid then .closed else status)) s := by
  apply hR.is_closed_state_safe ((hR.ready_stable pid).and hrefused.stable) ⟨hready, h⟩
  exact fun _ s' h' _ => ⟨h'.1, fun _ => h'.2⟩

theorem Protocol.try_send_body_safe (hR : Protocol R idle) (hrefused : Lasting R pid refused)
    (htry : TriesEnqueue Q R idle pid refused try_enqueue) (chances : Chances) (hready : Ready idle pid s) :
    SafeWithin Q R pid (EndedIdle (Ready idle) pid (SendEnd refused))
      (try_send_body pid try_enqueue chances) s := by
  unfold try_send_body
  apply hR.is_closed_state_safe (hR.ready_stable pid) hready
  intro closed s₁ h₁
  split
  · exact endedIdle_of_not_refused h₁ ChannelStatus.noConfusion ChannelStatus.noConfusion
  · apply htry.andThen chances h₁
    · exact fun s' h' => endedIdle_of_not_refused h' ChannelStatus.noConfusion ChannelStatus.noConfusion
    · exact fun s' h' hend => hR.refused_safe hrefused .would_block h' hend

theorem Protocol.send_loop_safe (hR : Protocol R idle) (hrefused : Lasting R pid refused)
    (htry : TriesEnqueue Q R idle pid refused try_enqueue) (timed : Bool)
    (turns : List (SendTurn Chances)) (hready : Ready idle pid s) :
    SafeWithin Q R pid (EndedIdle (Ready idle) pid (SendEnd refused))
      (send_loop pid try_enqueue timed turns) s := by
  induction turns generalizing s with
  | nil => exact fun hne => absurd rfl hne
  | cons turn turns ih =>
    have hstable := hR.ready_stable pid
    have hdone (status : ChannelStatus) (hblock : status ≠ .would_block) (htimed : status ≠ .timed_out)
        (s' : Endpoint Ring Message) (h' : Ready idle pid s') :
        SafeWithin Q R pid (EndedIdle (Ready idle) pid (SendEnd refused)) (.ret (.returned status)) s' :=
      endedIdle_of_not_refused h' hblock htimed
    unfold send_loop
    apply hR.is_closed_state_safe hstable hready
    intro closed s₁ h₁
    split
    · exact hdone .closed ChannelStatus.noConfusion ChannelStatus.noConfusion s₁ h₁
    apply hR.load hstable h₁
    intro s₂ h₂ _
    apply htry.andThen turn.first h₂
    · exact hdone .success ChannelStatus.noConfusion ChannelStatus.noConfusion
    intro s₃ h₃ _
    apply hR.is_closed_state_safe hstable h₃
    intro closed s₄ h₄
    split
    · exact hdone .closed ChannelStatus.noConfusion ChannelStatus.noConfusion s₄ h₄
    apply (hR.wait_safe .writable _ timed turn.wait hstable h₄).bind
    intro ended s₅ h₅
    cases ended with
    | thrown error => exact fun _ => ⟨h₅.2, .inr h₅.1⟩
    | unfinished => exact fun hne => absurd rfl hne
    | returned timed_out =>
      cases timed_out with
      | false => exact ih h₅
      | true =>
        simp only [if_true]
        apply hR.is_closed_state_safe hstable h₅
        intro closed s₆ h₆
        split
        · exact hdone .closed ChannelStatus.noConfusion ChannelStatus.noConfusion s₆ h₆
        apply htry.andThen turn.last h₆
        · exact hdone .success ChannelStatus.noConfusion ChannelStatus.noConfusion
        · exact fun s' h' hend => hR.refused_safe hrefused .timed_out h' hend

/-- `try_send`, from its guard on. -/
theorem Protocol.try_send_safe (hR : Protocol R idle) (hrefused : Lasting R pid refused)
    (htry : TriesEnqueue Q R idle pid refused try_enqueue) (registration : List Bool) (chances : Chances)
    (hidle : idle pid s) :
    SafeWithin Q R pid (EndedIdle idle pid (SendEnd refused))
      (try_send pid try_enqueue registration chances) s := by
  apply hR.guarded_safe registration (sendEnd_lasting hrefused) _ (fun _ => .inl rfl) _ hidle
  · exact fun _ hstatus => hstatus.elim ChannelStatus.noConfusion ChannelStatus.noConfusion
  · exact fun s' h' => hR.try_send_body_safe hrefused htry chances h'

theorem Protocol.send_impl_safe (hR : Protocol R idle) (hrefused : Lasting R pid refused)
    (htry : TriesEnqueue Q R idle pid refused try_enqueue) (timed : Bool) (registration : List Bool)
    (turns : List (SendTurn Chances)) (hidle : idle pid s) :
    SafeWithin Q R pid (EndedIdle idle pid (SendEnd refused))
      (send_impl pid try_enqueue timed registration turns) s := by
  apply hR.guarded_safe registration (sendEnd_lasting hrefused) _ (fun _ => .inl rfl) _ hidle
  · exact fun _ hstatus => hstatus.elim ChannelStatus.noConfusion ChannelStatus.noConfusion
  · exact fun s' h' => hR.send_loop_safe hrefused htry timed turns h'

end

/-- What a receive says at its end. `got` is what a try says, with or without a
    message, and `failed` what its exception says. -/
def ReceiveEnd (got : Option Message → Endpoint Ring Message → Prop)
    (failed : Exception → Endpoint Ring Message → Prop) :
    Ended (ReceiveResult Message) → Endpoint Ring Message → Prop
  | .returned result, s => (result.code = .success ↔ result.value.isSome = true) ∧
      (result.code = .success ∨ result.code = .closed → got result.value s) ∧
      (result.code = .closed → s.Done)
  | .thrown error, s => failed error s ∨ error = .system_error "futex(FUTEX_WAIT)"
  | .unfinished, _ => True

/-- A try to receive, as the calls need it. -/
def TriesDequeue (Q : Endpoint Ring Message → Prop) (R : Reliance (Endpoint Ring Message) Nat)
    (idle : Nat → Endpoint Ring Message → Prop) (pid : Nat)
    (got : Option Message → Endpoint Ring Message → Prop)
    (failed : Exception → Endpoint Ring Message → Prop)
    (try_dequeue : Chances → EndpointProg Ring Message (Ended (Option Message))) : Prop :=
  ∀ chances s, idle pid s → SafeWithin Q R pid
    (Ended.Post (fun value s' => idle pid s' ∧ got value s') fun error s' => idle pid s' ∧ failed error s')
    (try_dequeue chances) s

section

variable {got : Option Message → Endpoint Ring Message → Prop}
  {failed : Exception → Endpoint Ring Message → Prop}
  {try_dequeue : Chances → EndpointProg Ring Message (Ended (Option Message))}

theorem endedIdle_value {value : Message} (hidle : idle pid s) (hgot : got (some value) s) :
    EndedIdle idle pid (ReceiveEnd got failed) (.returned { code := .success, value := some value }) s := by
  refine fun _ => ⟨hidle, iff_of_true rfl rfl, fun _ => hgot, fun hclosed => ?_⟩
  cases hclosed

/-- A try that returns a message ends the receive; `f` is what follows the others. -/
theorem TriesDequeue.andThen (htry : TriesDequeue Q R idle pid got failed try_dequeue) (chances : Chances)
    {f : EndpointProg Ring Message (Ended (ReceiveResult Message))} (hidle : idle pid s)
    (hnone : ∀ s', idle pid s' → got none s' →
      SafeWithin Q R pid (EndedIdle idle pid (ReceiveEnd got failed)) f s') :
    SafeWithin Q R pid (EndedIdle idle pid (ReceiveEnd got failed))
      (andThen (try_dequeue chances) fun
        | some value => .ret (.returned { code := .success, value := some value })
        | none => f) s := by
  apply (htry chances s hidle).bind
  intro ended s₁ h₁
  cases ended with
  | returned value =>
    cases value with
    | some value => exact endedIdle_value h₁.1 h₁.2
    | none => exact hnone s₁ h₁.1 h₁.2
  | thrown error => exact fun _ => ⟨h₁.1, .inl h₁.2⟩
  | unfinished => exact fun hne => absurd rfl hne

theorem done_stable (hR : Protocol R idle) (pid : Nat) : Stable R pid Endpoint.Done :=
  fun s s' hrely _ h => (hR.sender_rely pid s s' hrely).keeps_done h

/-- The check that ends a receive without a message. -/
theorem Protocol.closed_and_senders_done_safe (hR : Protocol R idle) {A : Endpoint Ring Message → Prop}
    {post : β → Endpoint Ring Message → Prop} {f : Bool → EndpointProg Ring Message β}
    (hA : Stable R pid A) (h : A s)
    (htrue : ∀ s', A s' → s'.Done → SafeWithin Q R pid post (f true) s')
    (hfalse : ∀ s', A s' → SafeWithin Q R pid post (f false) s') :
    SafeWithin Q R pid post (closed_and_senders_done >>= f) s := by
  apply hR.load hA h
  intro s₁ h₁ hinv₁
  by_cases hdone : s₁.sender_state = channel_closed_bit
  · simp only [hdone, decide_true]
    obtain ⟨hclosings, hguards⟩ := (hR.senders s₁ hinv₁).done_iff.mp hdone
    exact htrue s₁ h₁ ⟨by omega, hguards⟩
  · simp only [hdone, decide_false]
    exact hfalse s₁ h₁

theorem endedIdle_closed (hidle : idle pid s) (hgot : got none s) (hdone : s.Done) :
    EndedIdle idle pid (ReceiveEnd got failed) (.returned { code := .closed }) s := by
  refine fun _ => ⟨hidle, ⟨fun hcode => ?_, fun hvalue => ?_⟩, fun _ => hgot, fun _ => hdone⟩
  · cases hcode
  · cases hvalue

theorem endedIdle_empty {code : ChannelStatus} (hidle : idle pid s) (hsuccess : code ≠ .success)
    (hclosed : code ≠ .closed) :
    EndedIdle idle pid (ReceiveEnd got failed) (.returned { code := code }) s := by
  refine fun _ => ⟨hidle, ⟨fun hcode => absurd hcode hsuccess, fun hvalue => ?_⟩, ?_, fun hcode => ?_⟩
  · cases hvalue
  · rintro (hcode | hcode)
    · exact absurd hcode hsuccess
    · exact absurd hcode hclosed
  · exact absurd hcode hclosed

theorem Protocol.receive_rest_safe (hR : Protocol R idle)
    (htry : TriesDequeue Q R idle pid got failed try_dequeue) (chances : Chances) (hidle : idle pid s)
    (hdone : s.Done) :
    SafeWithin Q R pid (EndedIdle idle pid (ReceiveEnd got failed)) (receive_rest try_dequeue chances) s := by
  unfold receive_rest andThen
  apply ((htry chances s hidle).keep (Nat.succ_ne_self pid) (done_stable hR) hdone).bind
  rintro ended s₁ ⟨h₁, hdone₁⟩
  cases ended with
  | returned value =>
    cases value with
    | some value => exact endedIdle_value h₁.1 h₁.2
    | none => exact endedIdle_closed h₁.1 h₁.2 hdone₁
  | thrown error => exact fun _ => ⟨h₁.1, .inl h₁.2⟩
  | unfinished => exact fun hne => absurd rfl hne

theorem Protocol.try_receive_safe (hR : Protocol R idle)
    (htry : TriesDequeue Q R idle pid got failed try_dequeue) (first second : Chances) (hidle : idle pid s) :
    SafeWithin Q R pid (EndedIdle idle pid (ReceiveEnd got failed)) (try_receive try_dequeue first second) s := by
  apply htry.andThen first hidle
  intro s₁ h₁ _
  apply hR.closed_and_senders_done_safe (hR.stable pid) h₁
  · exact fun s₂ h₂ hdone => hR.receive_rest_safe htry second h₂ hdone
  · exact fun s₂ h₂ => endedIdle_empty h₂ ChannelStatus.noConfusion ChannelStatus.noConfusion

/-- `receive` and `receive_for`. -/
theorem Protocol.receive_impl_safe (hR : Protocol R idle)
    (htry : TriesDequeue Q R idle pid got failed try_dequeue) (hgot : Stable R pid (got none))
    (timed : Bool) (turns : List (ReceiveTurn Chances)) (hidle : idle pid s) :
    SafeWithin Q R pid (EndedIdle idle pid (ReceiveEnd got failed))
      (receive_impl pid try_dequeue timed turns) s := by
  induction turns generalizing s with
  | nil => exact fun hne => absurd rfl hne
  | cons turn turns ih =>
    unfold receive_impl
    apply hR.load (hR.stable pid) hidle
    intro s₁ h₁ _
    apply htry.andThen turn.first h₁
    intro s₂ h₂ _
    apply hR.closed_and_senders_done_safe (hR.stable pid) h₂
    · exact fun s₃ h₃ hdone => hR.receive_rest_safe htry turn.second h₃ hdone
    intro s₃ h₃
    apply (hR.wait_safe .readable _ timed turn.wait (hR.stable pid) h₃).bind
    intro ended s₄ h₄
    cases ended with
    | thrown error => exact fun _ => ⟨h₄.2, .inr h₄.1⟩
    | unfinished => exact fun hne => absurd rfl hne
    | returned timed_out =>
      cases timed_out with
      | false => exact ih h₄
      | true =>
        apply htry.andThen turn.last h₄
        intro s₅ h₅ hgot₅
        apply hR.closed_and_senders_done_safe ((hR.stable pid).and hgot) ⟨h₅, hgot₅⟩
        · exact fun s₆ h₆ hdone => endedIdle_closed h₆.1 h₆.2 hdone
        · exact fun s₆ h₆ => endedIdle_empty h₆.1 ChannelStatus.noConfusion ChannelStatus.noConfusion

end

/-- `close`. -/
theorem Protocol.close_safe (hR : Protocol R idle) (hidle : idle pid s) :
    SafeWithin Q R pid (fun _ s' => idle pid s' ∧ 0 < s'.closings) (close pid) s := by
  unfold close
  apply SafeWithin.modifyGet (hR.stable pid) hidle
  intro s₁ h₁ hinv₁ _ _
  have hsenders := hR.senders s₁ hinv₁
  have hframe : Framed s₁ (s₁.set_closed pid) := ⟨rfl, rfl, rfl, rfl⟩
  have hclosings : s₁.closings ≤ (s₁.set_closed pid).closings ∧ 0 < (s₁.set_closed pid).closings := by
    simp only [Endpoint.set_closed]
    split
    next hbit =>
      have := hsenders.closed_iff.mp hbit
      omega
    next => omega
  obtain ⟨hinv, hothers, h₂⟩ := hR.framed pid s₁ _ hframe hinv₁ h₁ hsenders.set_closed fun other _ =>
    ⟨hclosings.1, Iff.rfl, fun _ hguards => ⟨hguards, rfl⟩⟩
  refine ⟨hinv, hothers, ?_⟩
  have hstable : Stable R pid fun s' => idle pid s' ∧ 0 < s'.closings := by
    intro s s' hrely hinv h
    exact ⟨hR.stable pid s s' hrely hinv h.1, h.2.trans_le (hR.sender_rely pid s s' hrely).closings⟩
  have hclosed : idle pid (s₁.set_closed pid) ∧ 0 < (s₁.set_closed pid).closings := ⟨h₂, hclosings.2⟩
  split
  · exact hclosed
  apply (hR.quiet_safe (undisturbed_bump pid .readable) hstable hclosed).bind
  intro _ s₃ h₃
  apply (hR.quiet_safe (undisturbed_bump pid .writable) hstable h₃.2).bind
  intro _ s₄ h₄
  apply (hR.quiet_safe (undisturbed_wake_all pid .readable) hstable h₄.2).bind
  intro _ s₅ h₅
  apply (hR.quiet_safe (undisturbed_wake_all pid .writable) hstable h₅.2).bind
  exact fun _ s₆ h₆ => h₆.2

end

end shmchan.endpoint
