import Shmchan.Managed.Invariant

open process

namespace shmchan.managed

/-- The payloads that receives of one process have taken, in order. -/
def Memory.taken_by (m : Memory) (pid : Nat) : List Bytes :=
  (m.history.taken.filter fun x => x.2 = pid).map fun x => x.1.2

/-- What no other process changes under `pid`, not even a holder of the mutex. -/
structure Kept (pid : Nat) (m m' : Memory) : Prop where
  taken : m'.taken_by pid = m.taken_by pid
  max : m'.header.max_message_size = m.header.max_message_size

/-- What `pid` relies on between two of its own actions. -/
structure Rely (unlinks : Bool) (pid : Nat) (m m' : Memory) : Prop extends Kept pid m m' where
  mutex : m'.header.mutex = .held pid ↔ m.header.mutex = .held pid
  held : m.header.mutex = .held pid → Interference unlinks m m'

def reliance (unlinks : Bool) : Reliance Memory Nat := ⟨Inv unlinks, Rely unlinks⟩

/-- One step of the holder of the mutex. -/
structure Holding (unlinks : Bool) (pid : Nat) (m m' : Memory) : Prop where
  before : m.header.mutex = .held pid
  after : m'.header.mutex = .held pid
  inv : Inv unlinks m'
  kept : ∀ other, other ≠ pid → Kept other m m'

section

variable {unlinks : Bool} {pid : Nat} {m m' m'' s t : Memory}

theorem Kept.refl (pid : Nat) (m : Memory) : Kept pid m m := ⟨rfl, rfl⟩

theorem Kept.trans (h : Kept pid m m') (h' : Kept pid m' m'') : Kept pid m m'' :=
  ⟨h'.taken.trans h.taken, h'.max.trans h.max⟩

theorem Rely.refl (unlinks : Bool) (pid : Nat) (m : Memory) : Rely unlinks pid m m :=
  ⟨Kept.refl pid m, Iff.rfl, fun _ => Interference.refl unlinks m⟩

theorem Rely.trans (h : Rely unlinks pid m m') (h' : Rely unlinks pid m' m'') :
    Rely unlinks pid m m'' :=
  ⟨h.toKept.trans h'.toKept, h'.mutex.trans h.mutex,
    fun hheld => (h.held hheld).trans (h'.held (h.mutex.mpr hheld))⟩

theorem Interference.mutex (h : Interference unlinks m m') : m'.header.mutex = m.header.mutex := by
  obtain ⟨_, _, _, _, _, rfl⟩ := h
  rfl

theorem Interference.history (h : Interference unlinks m m') : m'.history = m.history :=
  h.sameQueue.history

theorem Interference.taken_by (h : Interference unlinks m m') (pid : Nat) :
    m'.taken_by pid = m.taken_by pid := by
  rw [Memory.taken_by, Memory.taken_by, h.history]

theorem Interference.kept (h : Interference unlinks m m') (pid : Nat) : Kept pid m m' :=
  ⟨h.taken_by pid, h.sameQueue.max⟩

/-- Interference is what every process may rely on from the others. -/
theorem Interference.rely (h : Interference unlinks m m') (pid : Nat) : Rely unlinks pid m m' :=
  ⟨h.kept pid, by rw [h.mutex], fun _ => h⟩

/-- Programs of the holder of the mutex that neither read nor disturb what
    others may change can be verified by their uninterrupted run. -/
theorem safe_of_crashSafe {α : Type} {post : α → Memory → Prop} {p : Prog Memory α}
    (huniform : Uniform (Interference unlinks) p) (hheld : s.header.mutex = .held pid)
    (hpost : ∀ a m m', post a m → Interference unlinks m m' → post a m')
    (h : CrashSafe (Holding unlinks pid) post p s) : Safe (reliance unlinks) pid post p s := by
  refine CrashSafe.safe (E := Interference unlinks) (fun m => m.header.mutex = .held pid)
    (fun _ _ _ => Interference.trans) (fun m m' hheld (hrely : Rely unlinks pid m m') => hrely.held hheld)
    ?_ hpost huniform hheld (Interference.refl unlinks s) h
  intro m t m' t' hstep hm ht _
  have hafter : t'.header.mutex = .held pid := ht.mutex.trans hstep.after
  have hbefore : m'.header.mutex = .held pid := hm.mutex.trans hstep.before
  refine ⟨hstep.inv.interference ht, hafter, fun other hother => ⟨⟨?_, ?_⟩, ?_, fun hheld => ?_⟩⟩
  · rw [ht.taken_by, hm.taken_by]
    exact (hstep.kept other hother).taken
  · rw [ht.sameQueue.max, hm.sameQueue.max]
    exact (hstep.kept other hother).max
  · rw [hafter, hbefore]
  · rw [hbefore] at hheld
    cases hheld
    exact absurd rfl hother

/-- An action that only counts, sleeps, wakes or advances the epoch is safe
    for every process. -/
theorem Safe.outside {α : Type} {post : α → Memory → Prop} {enabled : Memory → Bool}
    {update : Memory → Memory} {next : Memory → Prog Memory α}
    (hupdate : ∀ m, Interference unlinks m (update m))
    (hnext : ∀ m, Rely unlinks pid s m → Inv unlinks m →
      Safe (reliance unlinks) pid post (next m) (update m)) :
    Safe (reliance unlinks) pid post (.act enabled update next) s := by
  intro m hrely hinv _
  exact ⟨hinv.interference (hupdate m), fun other _ => (hupdate m).rely other, hnext m hrely hinv⟩

theorem Safe.load_bind {α β : Type} {post : β → Memory → Prop} {f : Memory → α}
    {k : α → Prog Memory β}
    (hk : ∀ m, Rely unlinks pid s m → Inv unlinks m →
      Safe (reliance unlinks) pid post (k (f m)) m) :
    Safe (reliance unlinks) pid post (.load f >>= k) s :=
  Safe.outside (fun m => Interference.refl unlinks m) hk

end

end shmchan.managed
