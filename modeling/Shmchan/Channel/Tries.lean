import Shmchan.Channel.Dequeue

open process shmchan.endpoint

namespace shmchan.channel

/-- What a bare try returns. -/
inductive Outcome where
  | idle
  | enqueued (result : Bool)
  | dequeued (value : Option Bytes)
  deriving DecidableEq, Repr

/-- A bare try with all that chance decides in it. -/
inductive Try (channel : Channel) where
  | enqueue (value : Value channel) (chances : SlotChances)
  | dequeue (chances : SlotChances)

def Try.run {channel : Channel} (pid : Nat) : Try channel → Prog Memory (Ended Outcome)
  | .enqueue value chances =>
    andThen (try_enqueue channel pid value.1 chances) fun result => .ret (.returned (.enqueued result))
  | .dequeue chances =>
    andThen (try_dequeue channel pid chances) fun value => .ret (.returned (.dequeued value))

/-- The same, of a try that knows `refused` or `missed` when it has done nothing. -/
def TryDone {channel : Channel} (refused missed : Prop) (pid : Nat) :
    Try channel → Ended Outcome → Memory → Prop
  | .enqueue value _, .returned (.enqueued true), s => Sent pid value.1 s
  | .enqueue _ _, .returned (.enqueued false), _ => refused
  | .dequeue _, .returned (.dequeued (some value)), s => Received pid value s
  | .dequeue _, .returned (.dequeued none), _ => missed
  | _, .unfinished, _ => True
  | _, _, _ => False

section

variable {refused missed : Prop} {channel : Channel} {pid : Nat} {s s' : Memory} {Q : Memory → Prop}
  {c : Config Memory (Ended Outcome) Nat}

theorem TryDone.mono {refused' missed' : Prop} {next : Try channel} {result : Ended Outcome}
    (h : TryDone refused missed pid next result s) (hrefused : refused → refused') (hmissed : missed → missed') :
    TryDone refused' missed' pid next result s := by
  cases next with
  | enqueue value chances =>
    cases result with
    | returned outcome =>
      cases outcome with
      | enqueued enqueued =>
        cases enqueued with
        | true => exact h
        | false => exact hrefused h
      | idle | dequeued _ => exact h
    | thrown error => exact h
    | unfinished => trivial
  | dequeue chances =>
    cases result with
    | returned outcome =>
      cases outcome with
      | dequeued value =>
        cases value with
        | some value => exact h
        | none => exact hmissed h
      | idle | enqueued _ => exact h
    | thrown error => exact h
    | unfinished => trivial

/-- The new channel. -/
theorem created_inv (guarded : Prop) (channel : Channel) : Inv guarded channel created where
  ordered := {
    claimed_le := le_rfl
    behind := fun i hi => absurd hi (Nat.not_lt_zero i)
    ahead := fun _ _ => rfl
    occupied := fun i hi => absurd hi (Nat.not_lt_zero i)
    vacant := fun _ _ => rfl
    settled := fun i hi => absurd hi (Nat.not_lt_zero _) }
  placed := {
    enqueue_position := by split_ifs <;> rfl
    dequeue_position := by split_ifs <;> rfl
    unused := fun _ _ _ => rfl
    used := fun i hi => absurd hi (Nat.not_lt_zero i) }
  sized i hi := absurd hi (Nat.not_lt_zero i)
  stored i hi := by rcases hi with hi | ⟨_, hi⟩ <;> cases hi
  writing _ _ hslot := by cases hslot
  reading _ _ hslot := by cases hslot
  delivered x hx := absurd hx List.not_mem_nil
  once := List.nodup_nil
  senders_done := .empty 2 _
  receivers_done := .empty 4 _
  senders _ := {
    word := rfl
    bound := Nat.two_pow_pos 31
    closings := Nat.zero_le 1
    owner := fun _ _ hi => by cases hi }

theorem created_bounded (channel : Channel) : Bounded channel created := by
  obtain ⟨size, hok⟩ := channel.accepted
  have hcap := (checked_mapping_size_spec hok).2
  have hcount : created.log.count = 0 := rfl
  rw [Bounded, hcount]
  omega

theorem created_idle (pid : Nat) : Idle pid created := fun _ hi => by cases hi

end

end shmchan.channel
