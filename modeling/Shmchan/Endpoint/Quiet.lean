import Shmchan.Endpoint.Operations
import Shmchan.Process.Within

open process

namespace shmchan.endpoint

section

variable {Ring Message α β Pid : Type}

/-- A step that concerns the epoch words and their waiters only. -/
def Undisturbed (s s' : Endpoint Ring Message) : Prop :=
  ∃ readable writable wrapped,
    s' = { s with readable := readable, writable := writable, wrapped := wrapped }

theorem undisturbed_refl (s : Endpoint Ring Message) : Undisturbed s s := ⟨_, _, _, rfl⟩

theorem undisturbed_set_event (s : Endpoint Ring Message) (word : Word) (f : Event → Event) :
    Undisturbed s (s.set_event word f) := by
  cases word with
  | readable => exact ⟨f s.readable, s.writable, s.wrapped, rfl⟩
  | writable => exact ⟨s.readable, f s.writable, s.wrapped, rfl⟩

theorem undisturbed_load (f : Endpoint Ring Message → α) :
    (Prog.load f).Always Undisturbed fun _ => True :=
  Prog.always_load undisturbed_refl f

theorem undisturbed_is_closed_state (pid : Nat) :
    (is_closed_state pid : EndpointProg Ring Message Bool).Always Undisturbed fun _ => True := by
  refine ⟨fun s => ?_, fun _ => trivial⟩
  rw [Endpoint.give_in]
  split
  · exact undisturbed_set_event s .writable _
  · exact undisturbed_refl s

theorem undisturbed_bump (pid : Nat) (word : Word) :
    (bump pid word : EndpointProg Ring Message Unit).Always Undisturbed fun _ => True :=
  Prog.always_store fun s => undisturbed_set_event s word _

theorem undisturbed_wake_all (pid : Nat) (word : Word) :
    (wake_all pid word : EndpointProg Ring Message Unit).Always Undisturbed fun _ => True :=
  Prog.always_store fun s => undisturbed_set_event s word _

theorem undisturbed_wake_one (pid : Nat) (word : Word) (pick : Nat) :
    (wake_one pid word pick : EndpointProg Ring Message Unit).Always Undisturbed fun _ => True :=
  Prog.always_store fun s => undisturbed_set_event s word _

theorem undisturbed_compare_and_sleep (pid : Nat) (word : Word) (epoch : Nat × Nat)
    (s : Endpoint Ring Message) : Undisturbed s (compare_and_sleep pid word epoch s) := by
  unfold compare_and_sleep
  split
  · cases word with
    | readable => exact ⟨s.readable.sleep pid, s.writable, _, rfl⟩
    | writable => exact ⟨s.readable, s.writable.sleep pid, _, rfl⟩
  · exact undisturbed_refl s

/-- What a wait can end with: no exception but its own. -/
def WaitEnd : Ended Bool → Prop
  | .thrown error => error = .system_error "futex(FUTEX_WAIT)"
  | _ => True

theorem undisturbed_futex_wait (pid : Nat) (word : Word) (epoch : Nat × Nat) (timed : Bool)
    (outcome : WaitOutcome) : (futex_wait pid word epoch timed outcome :
      EndpointProg Ring Message (Ended Bool)).Always Undisturbed WaitEnd := by
  unfold futex_wait
  split
  · exact rfl
  · have hcompare : (Prog.modifyGet (fun s => decide ((s.event word).epoch = epoch.1))
        (compare_and_sleep pid word epoch) : EndpointProg Ring Message Bool).Always Undisturbed
          fun _ => True :=
      ⟨undisturbed_compare_and_sleep pid word epoch, fun _ => trivial⟩
    apply hcompare.bind
    intro asleep _
    split
    · exact ⟨fun s => undisturbed_set_event s word _, fun _ => trivial⟩
    · trivial

theorem undisturbed_wait_for_change (pid : Nat) (word : Word) (epoch : Nat × Nat) (timed : Bool)
    (wait : Wait) : (wait_for_change pid word epoch timed wait :
      EndpointProg Ring Message (Ended Bool)).Always Undisturbed WaitEnd := by
  unfold wait_for_change
  split
  · unfold futex_wait_until
    split
    · trivial
    · exact undisturbed_futex_wait pid word epoch true wait.outcome
  · apply (undisturbed_futex_wait pid word epoch false wait.outcome).bind
    intro ended hended
    cases ended with
    | returned value => trivial
    | thrown error => exact hended
    | unfinished => trivial

/-- A postcondition on how a part of an operation ends. -/
def Ended.Post (returned : α → Endpoint Ring Message → Prop)
    (thrown : Exception → Endpoint Ring Message → Prop) : Ended α → Endpoint Ring Message → Prop
  | .returned value, s => returned value s
  | .thrown error, s => thrown error s
  | .unfinished, _ => True

/-- What follows a part of an operation only matters when that part returns. -/
theorem andThen_safe {Q : Endpoint Ring Message → Prop} {R : Reliance (Endpoint Ring Message) Pid}
    {pid : Pid} {mid : α → Endpoint Ring Message → Prop} {post : β → Endpoint Ring Message → Prop}
    {thrown : Exception → Endpoint Ring Message → Prop} {p : EndpointProg Ring Message (Ended α)}
    {f : α → EndpointProg Ring Message (Ended β)} {s : Endpoint Ring Message}
    (h : SafeWithin Q R pid (Ended.Post mid thrown) p s)
    (hf : ∀ a s', mid a s' → SafeWithin Q R pid (Ended.Post post thrown) (f a) s') :
    SafeWithin Q R pid (Ended.Post post thrown) (andThen p f) s := by
  apply SafeWithin.bind h
  intro ended s' hmid
  cases ended with
  | returned value => exact hf value s' hmid
  | thrown error => exact hmid
  | unfinished => trivial

end

end shmchan.endpoint
