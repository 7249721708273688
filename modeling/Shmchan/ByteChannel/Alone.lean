import Shmchan.ByteChannel.Session
import Shmchan.Process.Alone

open process shmchan.endpoint

namespace shmchan.byte_channel

/-- What decides the course of a call that runs alone. The words of the memory
    follow from it, by the invariant. -/
structure Outline where
  guards : List Nat
  closings : Nat
  receiving : Nat → Bool
  reclaimed : Nat
  locker : Option Nat
  owes_scan : Nat → Bool
  log : Log Bytes

def outline (s : Memory) : Outline where
  guards := s.guards
  closings := s.closings
  receiving := s.receiving
  reclaimed := s.ring.reclaimed
  locker := s.ring.locker
  owes_scan := s.ring.owes_scan
  log := s.log

/-- No call is under way. -/
structure Outline.Resting (o : Outline) : Prop where
  guards : o.guards = []
  receiving : ∀ pid, o.receiving pid = false
  locker : o.locker = none
  owes_scan : ∀ pid, o.owes_scan pid = false
  holder : ∀ i pid, holder (o.log.phase i) ≠ some pid

/-- The room that a record of the given size needs. -/
def Outline.Room (channel : ByteChannel) (o : Outline) (size : Nat) : Prop :=
  offset o.log.message o.log.count + record_size size ≤
    offset o.log.message o.reclaimed + channel.capacity_bytes

/-- A sound memory with the given outline. -/
structure Stands (channel : ByteChannel) (o : Outline) (s : Memory) : Prop where
  inv : Inv channel s
  outlined : outline s = o

/-- A step that concerns neither the outline nor the forged tokens. -/
def Same (s s' : Memory) : Prop := outline s' = outline s ∧ s'.ring.forged = s.ring.forged

section

variable {channel : ByteChannel} {o : Outline} {pid index position : Nat} {message : Bytes} {s : Memory}
  {α : Type}

theorem Inv.sane (h : Inv channel s) : Sane s := ⟨h.placed.total, .inr h.honest⟩

theorem same_of_undisturbed (s s' : Memory) (h : Undisturbed s s') : Same s s' := by
  obtain ⟨_, _, _, rfl⟩ := h
  exact ⟨rfl, rfl⟩

/-- The programs that handle only the epoch words and their waiters. -/
theorem quiet_alone_and {P : α → Prop} {A : Memory → Prop} {p : Prog Memory α}
    (hp : p.Always Undisturbed P) (hfree : p.NonBlocking) (hstable : Stable (ring_reliance channel) pid A)
    (h : Stands channel o s) (hA : A s) :
    AloneWithin (Inv channel) (fun a s' => P a ∧ Stands channel o s' ∧ A s') p s := by
  apply AloneWithin.of_always hp hfree _ ⟨h, hA⟩
  rintro s s' hsame ⟨h, hA⟩
  obtain ⟨hinv, _, hA'⟩ := quiet_step hsame h.inv hstable hA
  exact ⟨hinv, ⟨hinv, (same_of_undisturbed s s' hsame).1.trans h.outlined⟩, hA'⟩

theorem quiet_alone {P : α → Prop} {p : Prog Memory α} (hp : p.Always Undisturbed P)
    (hfree : p.NonBlocking) (h : Stands channel o s) :
    AloneWithin (Inv channel) (fun a s' => P a ∧ Stands channel o s') p s := by
  have htrue : Stable (ring_reliance channel) 0 fun _ => True := fun _ _ _ _ h => h
  apply (quiet_alone_and hp hfree htrue h trivial).mono
  exact fun _ _ h' => ⟨h'.1, h'.2.1⟩

/-- The programs that keep the outline. -/
theorem same_alone {P : α → Prop} {p : Prog Memory α} (hp : p.Always Same P) (hfree : p.NonBlocking)
    (hsane : Sane s) (h : outline s = o) :
    AloneWithin Sane (fun a s' => P a ∧ Sane s' ∧ outline s' = o) p s := by
  apply AloneWithin.of_always hp hfree _ ⟨hsane, h⟩
  rintro s s' ⟨hsame, hforged⟩ ⟨hsane, h⟩
  have hlog : s'.log = s.log := congrArg Outline.log hsame
  have hsane' : Sane s' := by
    refine ⟨?_, ?_⟩
    · rw [hlog]
      exact hsane.total
    · rw [AllTame, hlog, hforged]
      exact hsane.honest
  exact ⟨hsane', hsane', hsame.trans h⟩

theorem same_store_word (channel : ByteChannel) (index position field value : Nat) :
    (store_word channel index position field value).Always Same fun _ => True :=
  Prog.always_store fun _ => ⟨rfl, rfl⟩

theorem same_copy_to_record (channel : ByteChannel) (index position size : Nat) (rest : Bytes) (k : Nat) :
    (copy_to_record channel index position size rest k).Always Same fun _ => True := by
  induction rest generalizing k with
  | nil => trivial
  | cons byte rest ih => exact Prog.Always.bind (Prog.always_store fun _ => ⟨rfl, rfl⟩) fun _ _ => ih (k + 1)

theorem nonBlocking_copy_to_record (channel : ByteChannel) (index position size : Nat) (rest : Bytes)
    (k : Nat) : (copy_to_record channel index position size rest k).NonBlocking := by
  induction rest generalizing k with
  | nil => trivial
  | cons byte rest ih => exact (Prog.nonBlocking_store _).bind fun _ => ih (k + 1)

theorem same_copy_from_record (channel : ByteChannel) (index position size count k : Nat) :
    (copy_from_record channel index position size count k).Always Same fun _ => True := by
  induction count generalizing k with
  | zero => trivial
  | succ count ih =>
    refine ⟨fun _ => ⟨rfl, rfl⟩, fun s => ?_⟩
    exact (ih (k + 1)).bind fun _ _ => trivial

theorem nonBlocking_copy_from_record (channel : ByteChannel) (index position size count k : Nat) :
    (copy_from_record channel index position size count k).NonBlocking := by
  induction count generalizing k with
  | zero => trivial
  | succ count ih =>
    exact (Prog.nonBlocking_modifyGet _ _).bind fun _ => (ih (k + 1)).bind fun _ => trivial

theorem nonBlocking_bump (pid : Nat) (word : Word) : (bump pid word : Prog Memory Unit).NonBlocking :=
  Prog.nonBlocking_store _

theorem nonBlocking_wake_all (pid : Nat) (word : Word) : (wake_all pid word : Prog Memory Unit).NonBlocking :=
  Prog.nonBlocking_store _

theorem nonBlocking_wake_one (pid : Nat) (word : Word) (pick : Nat) :
    (wake_one pid word pick : Prog Memory Unit).NonBlocking :=
  Prog.nonBlocking_store _

/-- No process holds anything, though a call may have begun. -/
theorem Outline.Resting.unheld (hresting : o.Resting) {guards : List Nat} {receiving : Nat → Bool}
    (h : outline s = { o with guards := guards, receiving := receiving }) (pid : Nat) : Unheld pid s := by
  have hlocker : s.ring.locker = o.locker := congrArg Outline.locker h
  have howes : s.ring.owes_scan = o.owes_scan := congrArg Outline.owes_scan h
  have hlog : s.log = o.log := congrArg Outline.log h
  refine ⟨?_, ?_, ?_⟩
  · rw [hlog]
    exact fun i => hresting.holder i pid
  · rw [hlocker, hresting.locker]
    exact (Option.some_ne_none pid).symm
  · rw [howes]
    exact hresting.owes_scan pid

theorem Outline.Resting.idle_of (hresting : o.Resting) {guards : List Nat}
    (h : outline s = { o with guards := guards }) (pid : Nat) : Idle pid s := by
  have hreceiving : s.receiving = o.receiving := congrArg Outline.receiving h
  refine ⟨hresting.unheld h pid, ?_⟩
  rw [hreceiving]
  exact hresting.receiving pid

theorem Outline.Resting.idle (hresting : o.Resting) (h : Stands channel o s) (pid : Nat) : Idle pid s :=
  hresting.idle_of h.outlined pid

end

end shmchan.byte_channel
