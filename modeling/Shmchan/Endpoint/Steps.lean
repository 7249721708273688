import Shmchan.Endpoint.Quiet

open process

namespace shmchan.endpoint

section

variable {Ring Message Chances α β : Type}

/-- A guarantee that the parts of the calls keep, `close` and the tries apart. -/
structure CallSteps (G : Endpoint Ring Message → Endpoint Ring Message → Prop) : Prop where
  undisturbed : ∀ s s', Undisturbed s s' → G s s'
  register : ∀ pid s, G s (s.register pid)
  unregister : ∀ pid s, G s (s.unregister pid)

variable {G : Endpoint Ring Message → Endpoint Ring Message → Prop} {pid : Nat}

theorem CallSteps.of_undisturbed (hG : CallSteps G) {P : α → Prop} {p : EndpointProg Ring Message α}
    (hp : p.Always Undisturbed P) : p.Always G fun _ => True :=
  hp.mono hG.undisturbed fun _ _ => trivial

theorem CallSteps.refl (hG : CallSteps G) (s : Endpoint Ring Message) : G s s :=
  hG.undisturbed s s (undisturbed_refl s)

theorem CallSteps.bind {p : EndpointProg Ring Message α} {f : α → EndpointProg Ring Message β}
    (hp : p.Always G fun _ => True) (hf : ∀ a, (f a).Always G fun _ => True) :
    (p >>= f).Always G fun _ => True :=
  hp.bind fun a _ => hf a

theorem CallSteps.andThen {p : EndpointProg Ring Message (Ended α)}
    {f : α → EndpointProg Ring Message (Ended β)} (hp : p.Always G fun _ => True)
    (hf : ∀ a, (f a).Always G fun _ => True) : (endpoint.andThen p f).Always G fun _ => True := by
  apply CallSteps.bind hp
  intro ended
  cases ended with
  | returned value => exact hf value
  | thrown error => trivial
  | unfinished => trivial

theorem CallSteps.register_loop (hG : CallSteps G) (chances : List Bool) (current : Nat) :
    (register_loop pid chances current : EndpointProg Ring Message (Ended Bool)).Always G fun _ => True := by
  induction chances generalizing current with
  | nil =>
    unfold endpoint.register_loop
    split_ifs <;> trivial
  | cons spurious chances ih =>
    unfold endpoint.register_loop
    split
    · trivial
    split
    · trivial
    refine ⟨fun s => ?_, fun s => ?_⟩
    · simp only
      split
      · exact hG.register pid s
      · exact hG.refl s
    · simp only
      split
      · trivial
      · exact ih s.sender_state

theorem CallSteps.leave_sender (hG : CallSteps G) :
    (leave_sender pid : EndpointProg Ring Message Unit).Always G fun _ => True := by
  unfold endpoint.leave_sender
  have hmodify : (Prog.modifyGet (fun s => s.sender_state) (Endpoint.unregister pid) :
      EndpointProg Ring Message Nat).Always G fun _ => True :=
    ⟨hG.unregister pid, fun _ => trivial⟩
  apply CallSteps.bind hmodify
  intro previous
  split
  · apply CallSteps.bind (hG.of_undisturbed (undisturbed_bump pid .readable))
    exact fun _ => hG.of_undisturbed (undisturbed_wake_all pid .readable)
  · trivial

theorem CallSteps.guarded (hG : CallSteps G) (chances : List Bool)
    {body : EndpointProg Ring Message (Ended ChannelStatus)} (hbody : body.Always G fun _ => True) :
    (guarded pid chances body).Always G fun _ => True := by
  unfold endpoint.guarded
  apply CallSteps.andThen
  · apply CallSteps.bind (hG.of_undisturbed (undisturbed_load _))
    exact hG.register_loop chances
  intro registered
  split
  · apply CallSteps.bind hbody
    intro ended
    split
    · trivial
    · exact CallSteps.bind hG.leave_sender fun _ => trivial
  · trivial

theorem CallSteps.is_closed_state (hG : CallSteps G) {f : Bool → EndpointProg Ring Message β}
    (hf : ∀ closed, (f closed).Always G fun _ => True) :
    (endpoint.is_closed_state pid >>= f).Always G fun _ => True :=
  CallSteps.bind (hG.of_undisturbed (undisturbed_is_closed_state pid)) hf

theorem CallSteps.wait (hG : CallSteps G) (word : Word) (epoch : Nat × Nat) (timed : Bool) (wait : Wait) :
    (wait_for_change pid word epoch timed wait : EndpointProg Ring Message (Ended Bool)).Always G
      fun _ => True :=
  hG.of_undisturbed (undisturbed_wait_for_change pid word epoch timed wait)

section

variable {try_enqueue : Chances → EndpointProg Ring Message (Ended Bool)}

theorem CallSteps.try_send (hG : CallSteps G) (htry : ∀ chances, (try_enqueue chances).Always G fun _ => True)
    (registration : List Bool) (chances : Chances) :
    (try_send pid try_enqueue registration chances).Always G fun _ => True := by
  apply hG.guarded
  apply hG.is_closed_state
  intro closed
  split
  · trivial
  apply CallSteps.andThen (htry chances)
  intro enqueued
  split
  · trivial
  · exact hG.is_closed_state fun _ => trivial

theorem CallSteps.send_loop (hG : CallSteps G) (htry : ∀ chances, (try_enqueue chances).Always G fun _ => True)
    (timed : Bool) (turns : List (SendTurn Chances)) :
    (send_loop pid try_enqueue timed turns).Always G fun _ => True := by
  induction turns with
  | nil => trivial
  | cons turn turns ih =>
    apply hG.is_closed_state
    intro closed
    split
    · trivial
    apply CallSteps.bind (hG.of_undisturbed (undisturbed_load _))
    intro epoch
    apply CallSteps.andThen (htry turn.first)
    intro enqueued
    split
    · trivial
    apply hG.is_closed_state
    intro closed
    split
    · trivial
    apply CallSteps.andThen (hG.wait .writable epoch timed turn.wait)
    intro timed_out
    split
    · apply hG.is_closed_state
      intro closed
      split
      · trivial
      apply CallSteps.andThen (htry turn.last)
      intro enqueued
      split
      · trivial
      · exact hG.is_closed_state fun _ => trivial
    · exact ih

theorem CallSteps.send_impl (hG : CallSteps G) (htry : ∀ chances, (try_enqueue chances).Always G fun _ => True)
    (timed : Bool) (registration : List Bool) (turns : List (SendTurn Chances)) :
    (send_impl pid try_enqueue timed registration turns).Always G fun _ => True :=
  hG.guarded registration (hG.send_loop htry timed turns)

end

section

variable {try_dequeue : Chances → EndpointProg Ring Message (Ended (Option Message))}

/-- A try to receive, and what follows it when there was no message. -/
theorem CallSteps.try_then (htry : ∀ chances, (try_dequeue chances).Always G fun _ => True) (chances : Chances)
    {p : EndpointProg Ring Message (Ended (ReceiveResult Message))} (hp : p.Always G fun _ => True) :
    (endpoint.andThen (try_dequeue chances) fun
      | some value => .ret (.returned { code := .success, value := some value })
      | none => p).Always G fun _ => True := by
  apply CallSteps.andThen (htry chances)
  intro value
  cases value with
  | some value => trivial
  | none => exact hp

theorem CallSteps.try_receive (hG : CallSteps G) (htry : ∀ chances, (try_dequeue chances).Always G fun _ => True)
    (first second : Chances) : (try_receive try_dequeue first second).Always G fun _ => True := by
  apply CallSteps.try_then htry first
  apply CallSteps.bind (hG.of_undisturbed (undisturbed_load _))
  intro done
  split
  · exact CallSteps.try_then htry second trivial
  · trivial

theorem CallSteps.receive_impl (hG : CallSteps G) (htry : ∀ chances, (try_dequeue chances).Always G fun _ => True)
    (timed : Bool) (turns : List (ReceiveTurn Chances)) :
    (receive_impl pid try_dequeue timed turns).Always G fun _ => True := by
  induction turns with
  | nil => trivial
  | cons turn turns ih =>
    apply CallSteps.bind (hG.of_undisturbed (undisturbed_load _))
    intro epoch
    apply CallSteps.try_then htry turn.first
    apply CallSteps.bind (hG.of_undisturbed (undisturbed_load _))
    intro done
    split
    · exact CallSteps.try_then htry turn.second trivial
    apply CallSteps.andThen (hG.wait .readable epoch timed turn.wait)
    intro timed_out
    split
    · apply CallSteps.try_then htry turn.last
      apply CallSteps.bind (hG.of_undisturbed (undisturbed_load _))
      intro done
      split
      · trivial
      · trivial
    · exact ih

end

end

end shmchan.endpoint
