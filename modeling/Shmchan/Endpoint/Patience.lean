import Shmchan.Endpoint.Protocol

open process

namespace shmchan.endpoint

section

variable {Ring Message Chances : Type}

/-- A receive that returns closed has `finished`. -/
def ClosedEnd (finished : Endpoint Ring Message → Prop) (ended : Ended (ReceiveResult Message))
    (s : Endpoint Ring Message) : Prop :=
  ∀ result, ended = .returned result → result.code = .closed → finished s

/-- What a try without a message says that begins when the channel is closed
    and without senders. -/
def TriesRest (Q : Endpoint Ring Message → Prop) (R : Reliance (Endpoint Ring Message) Nat)
    (idle : Nat → Endpoint Ring Message → Prop) (pid : Nat) (finished : Endpoint Ring Message → Prop)
    (try_dequeue : Chances → EndpointProg Ring Message (Ended (Option Message))) : Prop :=
  ∀ chances s, idle pid s → s.Done →
    SafeWithin Q R pid (Ended.Post (fun value s' => value = none → finished s') fun _ _ => True)
      (try_dequeue chances) s

variable {Q : Endpoint Ring Message → Prop} {R : Reliance (Endpoint Ring Message) Nat}
  {idle : Nat → Endpoint Ring Message → Prop} {pid : Nat} {s : Endpoint Ring Message}
  {got : Option Message → Endpoint Ring Message → Prop} {failed : Exception → Endpoint Ring Message → Prop}
  {finished : Endpoint Ring Message → Prop}
  {try_dequeue : Chances → EndpointProg Ring Message (Ended (Option Message))}

theorem closedEnd_other {code : ChannelStatus} {value : Option Message} (hcode : code ≠ .closed) :
    ClosedEnd finished (.returned { code := code, value := value }) s := by
  intro result hended hclosed
  cases hended
  exact absurd hclosed hcode

theorem closedEnd_of_not_returned {ended : Ended (ReceiveResult Message)}
    (hended : ∀ result, ended ≠ .returned result) : ClosedEnd finished ended s :=
  fun result heq => absurd heq (hended result)

/-- A try, and then what follows when it has no message. -/
theorem TriesDequeue.closedEnd (htry : TriesDequeue Q R idle pid got failed try_dequeue) (chances : Chances)
    {f : EndpointProg Ring Message (Ended (ReceiveResult Message))} (hidle : idle pid s)
    (hnone : ∀ s', idle pid s' → SafeWithin Q R pid (ClosedEnd finished) f s') :
    SafeWithin Q R pid (ClosedEnd finished)
      (endpoint.andThen (try_dequeue chances) fun
        | some value => .ret (.returned { code := .success, value := some value })
        | none => f) s := by
  apply (htry chances s hidle).bind
  intro ended s₁ h₁
  cases ended with
  | returned value =>
    cases value with
    | some value => exact closedEnd_other (by rintro ⟨⟩)
    | none => exact hnone s₁ h₁.1
  | thrown error => exact closedEnd_of_not_returned (by rintro result ⟨⟩)
  | unfinished => exact closedEnd_of_not_returned (by rintro result ⟨⟩)

theorem TriesRest.receive_rest (hrest : TriesRest Q R idle pid finished try_dequeue) (chances : Chances)
    (hidle : idle pid s) (hdone : s.Done) :
    SafeWithin Q R pid (ClosedEnd finished) (receive_rest try_dequeue chances) s := by
  unfold endpoint.receive_rest andThen
  apply (hrest chances s hidle hdone).bind
  intro ended s₁ h₁
  cases ended with
  | returned value =>
    cases value with
    | some value => exact closedEnd_other (by rintro ⟨⟩)
    | none => exact fun _ _ _ => h₁ rfl
  | thrown error => exact closedEnd_of_not_returned (by rintro result ⟨⟩)
  | unfinished => exact closedEnd_of_not_returned (by rintro result ⟨⟩)

/-- A `try_receive` that returns closed has finished. -/
theorem Protocol.try_receive_patient (hR : Protocol R idle)
    (htry : TriesDequeue Q R idle pid got failed try_dequeue)
    (hrest : TriesRest Q R idle pid finished try_dequeue) (first second : Chances) (hidle : idle pid s) :
    SafeWithin Q R pid (ClosedEnd finished) (try_receive try_dequeue first second) s := by
  apply htry.closedEnd first hidle
  intro s₁ h₁
  apply hR.closed_and_senders_done_safe (hR.stable pid) h₁
  · exact fun s₂ h₂ hdone => hrest.receive_rest second h₂ hdone
  · exact fun s₂ _ => closedEnd_other (by rintro ⟨⟩)

/-- A wait without a deadline does not time out. -/
theorem undisturbed_untimed (pid : Nat) (word : Word) (epoch : Nat × Nat) (wait : Wait) :
    (wait_for_change pid word epoch false wait : EndpointProg Ring Message (Ended Bool)).Always Undisturbed
      fun ended => ended ≠ .returned true := by
  apply (undisturbed_futex_wait pid word epoch false wait.outcome).bind
  intro ended _
  cases ended with
  | returned value | thrown error | unfinished => rintro ⟨⟩

/-- A `receive` that returns closed has finished. -/
theorem Protocol.receive_patient (hR : Protocol R idle)
    (htry : TriesDequeue Q R idle pid got failed try_dequeue)
    (hrest : TriesRest Q R idle pid finished try_dequeue) (turns : List (ReceiveTurn Chances))
    (hidle : idle pid s) :
    SafeWithin Q R pid (ClosedEnd finished) (receive_impl pid try_dequeue false turns) s := by
  induction turns generalizing s with
  | nil => exact closedEnd_of_not_returned (by rintro result ⟨⟩)
  | cons turn turns ih =>
    unfold receive_impl
    apply hR.load (hR.stable pid) hidle
    intro s₁ h₁ _
    apply htry.closedEnd turn.first h₁
    intro s₂ h₂
    apply hR.closed_and_senders_done_safe (hR.stable pid) h₂
    · exact fun s₃ h₃ hdone => hrest.receive_rest turn.second h₃ hdone
    intro s₃ h₃
    apply (hR.quiet_safe (undisturbed_untimed pid .readable _ turn.wait) (hR.stable pid) h₃).bind
    rintro ended s₄ ⟨huntimed, h₄⟩
    cases ended with
    | thrown error => exact closedEnd_of_not_returned (by rintro result ⟨⟩)
    | unfinished => exact closedEnd_of_not_returned (by rintro result ⟨⟩)
    | returned timed_out =>
      cases timed_out with
      | true => exact absurd rfl huntimed
      | false => exact ih h₄

/-- A receive whose tries find nothing returns no message. -/
def Fruitless (ended : Ended (ReceiveResult Message)) : Prop :=
  ∀ result, ended = .returned result → result.value = none

/-- A try that finds nothing, and what follows it. -/
theorem yields_andThen {α : Type} {p : EndpointProg Ring Message (Ended (Option Message))}
    {f : Option Message → EndpointProg Ring Message (Ended α)} {P : Ended α → Prop}
    (htry : p.Yields Q fun ended => ∀ message, ended ≠ .returned (some message))
    (hnone : (f none).Yields Q P) (hthrown : ∀ error, P (.thrown error)) (hunfinished : P .unfinished) :
    (endpoint.andThen p f).Yields Q P := by
  apply htry.bind
  intro ended hended
  cases ended with
  | returned value =>
    cases value with
    | none => exact hnone
    | some message => exact absurd rfl (hended message)
  | thrown error => exact hthrown error
  | unfinished => exact hunfinished

theorem fruitless_of_none {code : ChannelStatus} :
    Fruitless (.returned ({ code := code } : ReceiveResult Message)) := by
  rintro result ⟨⟩
  rfl

theorem fruitless_thrown (error : Exception) : Fruitless (.thrown error : Ended (ReceiveResult Message)) := by
  rintro result ⟨⟩

theorem fruitless_unfinished : Fruitless (.unfinished : Ended (ReceiveResult Message)) := by
  rintro result ⟨⟩

section

variable (htry : ∀ chances, (try_dequeue chances).Yields Q fun ended => ∀ message, ended ≠ .returned (some message))

include htry

theorem receive_rest_fruitless (chances : Chances) : (receive_rest try_dequeue chances).Yields Q Fruitless :=
  yields_andThen (htry chances) fruitless_of_none fruitless_thrown fruitless_unfinished

theorem try_receive_fruitless (first second : Chances) :
    (try_receive try_dequeue first second).Yields Q Fruitless := by
  apply yields_andThen (htry first) _ fruitless_thrown fruitless_unfinished
  apply Prog.yields_bind_of
  intro done
  split
  · exact receive_rest_fruitless htry second
  · exact fruitless_of_none

theorem receive_impl_fruitless (pid : Nat) (timed : Bool) (turns : List (ReceiveTurn Chances)) :
    (receive_impl pid try_dequeue timed turns).Yields Q Fruitless := by
  induction turns with
  | nil => exact fruitless_unfinished
  | cons turn turns ih =>
    unfold receive_impl
    apply Prog.yields_bind_of
    intro epoch
    apply yields_andThen (htry turn.first) _ fruitless_thrown fruitless_unfinished
    apply Prog.yields_bind_of
    intro done
    split
    · exact receive_rest_fruitless htry turn.second
    apply Prog.yields_bind_of
    intro ended
    cases ended with
    | thrown error => exact fruitless_thrown error
    | unfinished => exact fruitless_unfinished
    | returned timed_out =>
      cases timed_out with
      | false => exact ih
      | true =>
        apply yields_andThen (htry turn.last) _ fruitless_thrown fruitless_unfinished
        apply Prog.yields_bind_of
        intro done
        split
        · exact fruitless_of_none
        · exact fruitless_of_none

end

end

end shmchan.endpoint
