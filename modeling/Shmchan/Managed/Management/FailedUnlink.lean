import Shmchan.Managed.Fence
import Shmchan.Managed.Management.LiveChannels
import Shmchan.Managed.Management.Reopening

open process

namespace shmchan.managed

/-- `unlink` gets as far as the object and takes it for a channel. -/
structure Marks (name : String) (fails : Syscall → Bool) (o : ShmObject) : Prop where
  named : ∃ object_name, managed_object_name name = .ok object_name
  granted : ∀ call ∈ [Syscall.shm_open, .flock, .fstat, .mmap], fails call = false
  recognised : o.Recognised

/-- How many actions `unlink` spends on the mapping. -/
def marking_actions (fails : Syscall → Bool) (o : ShmObject) : Nat :=
  if fails .fstat then 0
  else if sizeof_managed_shared_header ≤ o.size ∧ o.size ≤ 2 ^ 64 - 1 then
    if fails .mmap then 1
    else if o.memory.header.magic = managed_simple_magic ∧ o.memory.header.mapping_size = o.size then 5
    else 2
  else 1

/-- `unlink` gets the lock, is not refused `shm_unlink`, and lives long enough
    to execute it. -/
structure Removes (name : String) (fails : Syscall → Bool) (count : Nat) (o : ShmObject) : Prop where
  named : ∃ object_name, managed_object_name name = .ok object_name
  granted : ∀ call ∈ [Syscall.shm_open, .flock, .shm_unlink], fails call = false
  reached : 2 + marking_actions fails o < count

/-- Whatever the moment of death, the state word of the object is `w`. -/
def Keeps {α : Type} (k w : Nat) (p : Prog Namespace α) (s : Namespace) : Prop :=
  CrashSafe (fun _ t => state_word k t = w) (fun _ t => state_word k t = w) p s

section

variable {pid k w : Nat} {s : Namespace} {α β : Type} {name : String} {fails : Syscall → Bool}

theorem Keeps.killed {p : Prog Namespace α} (h : Keeps k w p s) (hs : state_word k s = w) (count : Nat) :
    state_word k (p.killed count s) = w :=
  CrashSafe.killed h hs (fun _ _ ht => ht) count

theorem Keeps.bind {p : Prog Namespace α} {f : α → Prog Namespace β} (h : Keeps k w p s)
    (hf : ∀ a s', state_word k s' = w → Keeps k w (f a) s') : Keeps k w (p >>= f) s :=
  CrashSafe.bind h hf

theorem Keeps.unlock (h : state_word k s = w) : Keeps k w (.store (Namespace.unlock pid k)) s := by
  have hkeep : state_word k (s.unlock pid k) = w := by
    rw [state_word, Namespace.unlock, set_object_self]
    exact h
  exact ⟨hkeep, hkeep⟩

theorem Keeps.mapped_load {f : Memory → α} {next : α → Prog Namespace β} (h : state_word k s = w)
    (hnext : Keeps k w (next (f (s.objects k).memory)) s) : Keeps k w (mapped k (.load f) >>= next) s := by
  have hsame : s.set_memory k id = s := set_memory_id k s
  have hload : CrashSafe (fun _ t => state_word k t = w)
      (fun a t => a = f (s.objects k).memory ∧ t = s) (mapped k (.load f)) s := by
    refine ⟨?_, rfl, hsame⟩
    rw [hsame]
    exact h
  apply hload.bind
  rintro _ _ ⟨rfl, rfl⟩
  exact hnext

/-- Removing the name and giving up the lock leave the channel alone. -/
theorem Keeps.remove_and_unlock (object_name : String) (h : state_word k s = w) :
    Keeps k w (remove_and_unlock pid k object_name fails) s := by
  unfold managed.remove_and_unlock
  split
  · refine Keeps.bind ?_ fun _ _ hend => hend
    split
    · exact h
    · exact .unlock h
  · refine Keeps.bind (p := shm_unlink pid k) ⟨h, h⟩ fun removed s' h' => ?_
    split
    · exact h'
    · exact (Keeps.unlock h').bind fun _ _ hend => hend

/-- The object is mapped only to be marked, and only as a channel. -/
theorem Keeps.mark_destroying (h : state_word k s = w)
    (hnot : ¬ ((∀ call ∈ [Syscall.fstat, .mmap], fails call = false) ∧ (s.objects k).Recognised)) :
    Keeps k w (mark_destroying k fails) s := by
  unfold managed.mark_destroying
  split
  · exact h
  next hfstat =>
  refine .load_bind h ?_
  split
  next hsize =>
    split
    · exact h
    next hmmap =>
    refine Keeps.mapped_load h ?_
    split
    next hheader =>
      refine absurd ⟨fun call hcall => ?_, hsize, hheader⟩ hnot
      simp only [List.mem_cons, List.not_mem_nil, or_false] at hcall
      rcases hcall with rfl | rfl
      · exact Bool.eq_false_iff.mpr hfstat
      · exact Bool.eq_false_iff.mpr hmmap
    · exact h
  · exact h

/-- An `unlink` that does not take the object for a channel leaves it alone. -/
theorem unlink_keeps (hlinked : s.linked = some k) (hnot : ¬ Marks name fails (s.objects k)) :
    Keeps k (state_word k s) (unlink pid name fails) s := by
  unfold unlink
  split
  · exact rfl
  next object_name hname =>
  split
  · exact rfl
  next hopen =>
  refine .load_bind rfl ?_
  rw [hlinked]
  refine Keeps.bind ?_ fun result s₁ h₁ => (Keeps.unlock h₁).bind fun _ _ hend => hend
  unfold unlink_locked
  split
  · exact rfl
  next hflock =>
  have hmemory : ((s.set_object k fun o => { o with exclusive := some pid }).objects k) =
      { s.objects k with exclusive := some pid } := set_object_self
  have hword : state_word k (s.set_object k fun o => { o with exclusive := some pid }) = state_word k s := by
    rw [state_word, hmemory]
    rfl
  have hlock : CrashSafe (fun _ t => state_word k t = state_word k s)
      (fun _ t => t = s.set_object k fun o => { o with exclusive := some pid })
      (flock_exclusive pid k id) s := ⟨hword, rfl⟩
  apply hlock.bind
  rintro _ _ rfl
  refine Keeps.bind (Keeps.mark_destroying hword fun hmarks => hnot ⟨⟨object_name, hname⟩, ?_, ?_⟩)
    fun _ s₂ h₂ => Keeps.remove_and_unlock object_name h₂
  · intro call hcall
    simp only [List.mem_cons, List.not_mem_nil, or_false] at hcall
    rcases hcall with rfl | rfl | rfl | rfl
    · exact Bool.eq_false_iff.mpr hopen
    · exact Bool.eq_false_iff.mpr hflock
    · exact hmarks.1 _ List.mem_cons_self
    · exact hmarks.1 _ (List.mem_cons_of_mem _ List.mem_cons_self)
  · have hrecognised := hmarks.2
    rw [hmemory] at hrecognised
    exact hrecognised

theorem killed_mapped_load_bind (f : Memory → α) (next : α → Prog Namespace β) (count : Nat) :
    (mapped k (.load f) >>= next).killed (count + 1) s =
      (next (f (s.objects k).memory)).killed count (s.set_memory k id) := rfl

/-- The first action of `unlink` on the mapping is its store, and the others
    leave the state word as it is. -/
theorem Keeps.unlink_mapping {f : Outcome → Prog Namespace β}
    (hf : ∀ outcome s', state_word k s' = ManagedChannelState.destroying.word →
      Keeps k ManagedChannelState.destroying.word (f outcome) s') (count : Nat) :
    state_word k ((mapped k unlink_mapping >>= f).killed (count + 1) s) =
      ManagedChannelState.destroying.word := by
  have hset {s : Namespace} {update : Memory → Memory}
      (hupdate : (update (s.objects k).memory).header.state = ManagedChannelState.destroying.word) :
      state_word k (s.set_memory k update) = ManagedChannelState.destroying.word := by
    rw [state_word, set_memory_self]
    exact hupdate
  have hstored : state_word k (s.set_memory k unlink_store) = ManagedChannelState.destroying.word :=
    hset rfl
  have hrest : Keeps k ManagedChannelState.destroying.word
      (mapped k (signal_managed_event >>= fun _ => .ret Outcome.unlinked) >>= f)
      (s.set_memory k unlink_store) := by
    refine Keeps.bind ?_ hf
    have hepoch : state_word k ((s.set_memory k unlink_store).set_memory k fun m => m.set_header fun h =>
        { h with event_epoch := (h.event_epoch + 1) % 2 ^ 32 }) =
        ManagedChannelState.destroying.word := hset hstored
    exact ⟨hepoch, hset hepoch, hset hepoch⟩
  exact hrest.killed hstored count

/-- An `unlink` that takes the object for a channel: four actions that leave its
    state word alone, the store, and a rest that keeps what was stored. -/
theorem unlink_marks (hlinked : s.linked = some k) (hmarks : Marks name fails (s.objects k)) (count : Nat) :
    state_word k ((unlink pid name fails).killed count s) =
      if count ≤ 4 then state_word k s else ManagedChannelState.destroying.word := by
  obtain ⟨⟨object_name, hname⟩, hgranted, hsize, hheader⟩ := hmarks
  have hopen : fails .shm_open = false := hgranted _ (by decide)
  have hflock : fails .flock = false := hgranted _ (by decide)
  have hfstat : fails .fstat = false := hgranted _ (by decide)
  have hmmap : fails .mmap = false := hgranted _ (by decide)
  let s₁ : Namespace := s.set_object k fun o => { o with exclusive := some pid }
  have hobject : s₁.objects k = { s.objects k with exclusive := some pid } := set_object_self
  have hword : state_word k s₁ = state_word k s := by
    rw [state_word, hobject]
    rfl
  have hsame : s₁.set_memory k id = s₁ := set_memory_id k s₁
  have hsize₁ : sizeof_managed_shared_header ≤ (s₁.objects k).size ∧ (s₁.objects k).size ≤ 2 ^ 64 - 1 := by
    rw [hobject]
    exact hsize
  have hheader₁ : (s₁.objects k).memory.header.magic = managed_simple_magic ∧
      (s₁.objects k).memory.header.mapping_size = (s₁.objects k).size := by
    rw [hobject]
    exact hheader
  unfold unlink unlink_locked mark_destroying
  simp only [hname, hopen, hflock, hfstat, hmmap, Bool.false_eq_true, if_false]
  rcases count with _ | count
  · rw [Prog.killed_zero, if_pos (by decide)]
  rw [shm_open, Prog.killed_load_bind, hlinked]
  simp only [Prog.bind_assoc]
  rcases count with _ | count
  · rw [Prog.killed_zero, if_pos (by decide)]
  rw [flock_exclusive, Prog.killed_act_bind]
  rcases count with _ | count
  · rw [Prog.killed_zero, if_pos (by decide)]
    exact hword
  change state_word k (Prog.killed _ (count + 1) s₁) = _
  rw [Prog.ret_bind, fstat, Prog.killed_load_bind, if_pos hsize₁, Prog.bind_assoc]
  rcases count with _ | count
  · rw [Prog.killed_zero, if_pos (by decide)]
    exact hword
  rw [killed_mapped_load_bind, hsame, if_pos hheader₁, Prog.bind_assoc]
  rcases count with _ | count
  · rw [Prog.killed_zero, if_pos (by decide)]
    exact hword
  rw [if_neg (by omega)]
  refine Keeps.unlink_mapping (fun _ s₂ h₂ => ?_) count
  refine Keeps.bind (p := .ret ()) h₂ fun _ s₃ h₃ => ?_
  refine (Keeps.remove_and_unlock object_name h₃).bind fun result s₄ h₄ => ?_
  exact Keeps.bind (Keeps.unlock h₄) fun _ _ hend => hend

/-- The state word of the channel survives an `unlink` that is killed after
    `count` actions exactly when it had not come to its store, does not take the
    object for a channel, or the channel was being destroyed before. -/
theorem unlink_keeps_state_iff (hlinked : s.linked = some k) (count : Nat) :
    state_word k ((unlink pid name fails).killed count s) = state_word k s ↔
      ¬ (Marks name fails (s.objects k) ∧ 4 < count) ∨
        state_word k s = ManagedChannelState.destroying.word := by
  by_cases hmarks : Marks name fails (s.objects k)
  · rw [unlink_marks hlinked hmarks count]
    split_ifs with hcount
    · exact ⟨fun _ => .inl fun h => absurd h.2 (not_lt.mpr hcount), fun _ => rfl⟩
    · constructor
      · intro hsame
        exact .inr hsame.symm
      · rintro (hfew | hdestroying)
        · exact absurd ⟨hmarks, not_le.mp hcount⟩ hfew
        · exact hdestroying.symm
  · refine ⟨fun _ => .inl fun h => hmarks h.1, fun _ => ?_⟩
    exact (unlink_keeps hlinked hmarks).killed rfl count

/-- The name denotes what it denoted. -/
def Naming (s t : Namespace) : Prop := t.linked = s.linked

theorem Naming.refl (s : Namespace) : Naming s s := rfl

theorem Naming.trans (s₁ s₂ s₃ : Namespace) (h : Naming s₁ s₂) (h' : Naming s₂ s₃) : Naming s₁ s₃ :=
  Eq.trans h' h

/-- The object may be marked and locked, but it is the same channel. -/
def Keeping (s t : Namespace) : Prop := ∀ k, SameOutline (s.objects k) (t.objects k)

theorem Keeping.refl (s : Namespace) : Keeping s s := fun _ => .refl _

theorem Keeping.trans (s₁ s₂ s₃ : Namespace) (h : Keeping s₁ s₂) (h' : Keeping s₂ s₃) : Keeping s₁ s₃ :=
  fun k => (h k).trans (h' k)

theorem Keeping.set_object {f : ShmObject → ShmObject} (hf : ∀ o, SameOutline o (f o)) :
    Keeping s (s.set_object k f) := by
  intro other
  by_cases hother : other = k
  · subst hother
    rw [set_object_self]
    exact hf _
  · rw [set_object_of_ne hother]
    exact .refl _

/-- No update of a program on a mapping changes what the checks look at. -/
theorem mapped_keeping {p : Prog Memory α} (hp : p.Always (fun m m' =>
      m'.header.identity = m.header.identity ∧ m'.header.reason = m.header.reason) fun _ => True) :
    (mapped k p).Always (fun s t => Naming s t ∧ Keeping s t) fun _ => True := by
  refine Prog.Always.focus hp fun s update hupdate => ⟨rfl, ?_⟩
  exact Keeping.set_object fun o => ⟨rfl, (hupdate o.memory).1, (hupdate o.memory).2⟩

theorem unlock_keeping (pid k : Nat) :
    (Prog.store (Namespace.unlock pid k)).Always (fun s t => Naming s t ∧ Keeping s t)
      fun _ => True :=
  Prog.always_store fun _ => ⟨rfl, Keeping.set_object fun _ => ⟨rfl, rfl, rfl⟩⟩

theorem mark_destroying_keeping (k : Nat) (fails : Syscall → Bool) :
    (mark_destroying k fails).Always (fun s t => Naming s t ∧ Keeping s t) fun _ => True := by
  unfold mark_destroying
  split
  · exact trivial
  refine (Prog.always_load (fun s => ⟨rfl, .refl s⟩) _).bind fun size _ => ?_
  split
  · split
    · exact trivial
    refine (mapped_keeping (Prog.always_load (fun m => ⟨rfl, rfl⟩) _)).bind fun header _ => ?_
    split
    · refine (mapped_keeping ?_).bind fun _ _ => trivial
      exact ⟨fun m => ⟨rfl, rfl⟩, fun _ => ⟨fun m => ⟨rfl, rfl⟩, fun _ => ⟨fun m => ⟨rfl, rfl⟩, fun _ =>
        trivial⟩⟩⟩
    · exact trivial
  · exact trivial

theorem unlink_keeping (pid : Nat) (name : String) (fails : Syscall → Bool) :
    (unlink pid name fails).Always Keeping fun _ => True := by
  have hunlock {k : Nat} : (Prog.store (Namespace.unlock pid k)).Always Keeping fun _ => True :=
    (unlock_keeping pid k).mono (fun _ _ h => h.2) fun _ h => h
  unfold unlink
  split
  · exact trivial
  split
  · exact trivial
  refine (Prog.always_load Keeping.refl _).bind fun linked _ => ?_
  cases linked with
  | none => exact trivial
  | some k =>
    refine Prog.Always.bind (P := fun _ => True) ?_ fun _ _ => hunlock.bind fun _ _ => trivial
    unfold unlink_locked
    split
    · exact trivial
    refine ⟨fun s => Keeping.set_object fun _ => ⟨rfl, rfl, rfl⟩, fun _ => ?_⟩
    refine ((mark_destroying_keeping k fails).mono (fun _ _ h => h.2) fun _ h => h).bind fun _ _ => ?_
    unfold remove_and_unlock
    split
    · refine Prog.Always.bind (P := fun _ => True) ?_ fun _ _ => trivial
      split
      · exact trivial
      · exact hunlock
    · refine Prog.Always.bind (P := fun _ => True) ⟨Keeping.refl, fun _ => trivial⟩ fun _ _ => ?_
      split
      · exact trivial
      · exact hunlock.bind fun _ _ => trivial

theorem mark_destroying_length (k : Nat) (fails : Syscall → Bool) (s : Namespace) :
    (mark_destroying k fails).length s = marking_actions fails (s.objects k) := by
  have hsize (next : Nat → Prog Namespace Unit) :
      (fstat k >>= next).length s = (next (s.objects k).size).length s + 1 := rfl
  have hheader (next : ManagedSharedHeader → Prog Namespace Unit) :
      (mapped k (.load fun m => m.header) >>= next).length s =
        (next (s.objects k).memory.header).length (s.set_memory k id) + 1 := rfl
  unfold mark_destroying marking_actions
  split
  · rfl
  simp only [hsize]
  split
  · split
    · rfl
    simp only [hheader]
    split <;> rfl
  · rfl

/-- The name goes exactly when `shm_unlink` is executed. -/
theorem unlink_linked_iff (hlinked : s.linked = some k) (count : Nat) :
    ((unlink pid name fails).killed count s).linked = some k ↔ ¬ Removes name fails count (s.objects k) := by
  have hkept {β : Type} {p : Prog Namespace β} (hp : p.Always Naming fun _ => True) (count : Nat)
      (s : Namespace) : (p.killed count s).linked = s.linked :=
    hp.killed Naming.refl Naming.trans count s
  have hret (result : Except Exception Bool) :
      (.ret result : Prog Namespace (Except Exception Bool)).Always Naming fun _ => True := trivial
  have hunlock : (Prog.store (Namespace.unlock pid k)).Always Naming fun _ => True :=
    Prog.always_store fun _ => rfl
  have hclose (result : Except Exception Bool) :
      (close_fd pid k >>= fun _ => (.ret result : Prog Namespace (Except Exception Bool))).Always Naming
        fun _ => True := hunlock.bind fun _ _ => hret result
  unfold unlink
  cases hname : managed_object_name name with
  | error error =>
    refine ⟨fun _ h => ?_, fun _ => (hkept (hret _) count s).trans hlinked⟩
    obtain ⟨object_name, hnamed⟩ := h.named
    rw [hname] at hnamed
    cases hnamed
  | ok object_name =>
    cases hopen : fails .shm_open with
    | true =>
      simp only [if_true]
      refine ⟨fun _ h => ?_, fun _ => (hkept (hret _) count s).trans hlinked⟩
      rw [h.granted _ (by decide)] at hopen
      cases hopen
    | false =>
      simp only [Bool.false_eq_true, if_false]
      rcases count with _ | count
      · rw [Prog.killed_zero]
        exact ⟨fun _ h => absurd h.reached (Nat.not_lt_zero _), fun _ => hlinked⟩
      rw [shm_open, Prog.killed_load_bind, hlinked]
      simp only
      cases hflock : fails .flock with
      | true =>
        unfold unlink_locked
        simp only [hflock, if_true]
        refine ⟨fun _ h => ?_, fun _ => (hkept (hclose _) count s).trans hlinked⟩
        rw [h.granted _ (by decide)] at hflock
        cases hflock
      | false =>
        unfold unlink_locked
        simp only [hflock, Bool.false_eq_true, if_false, Prog.bind_assoc]
        rcases count with _ | count
        · rw [Prog.killed_zero]
          exact ⟨fun _ h => absurd h.reached (by omega), fun _ => hlinked⟩
        let s₁ : Namespace := s.set_object k fun o => { o with exclusive := some pid }
        have hobject : marking_actions fails (s₁.objects k) = marking_actions fails (s.objects k) := by
          simp only [s₁, set_object_self]
          rfl
        rw [flock_exclusive, Prog.killed_act_bind, Prog.ret_bind]
        change (Prog.killed _ count s₁).linked = some k ↔ _
        rw [Prog.killed_bind, mark_destroying_length, hobject]
        have hmark := (mark_destroying_keeping k fails).mono (fun _ _ h => h.1) fun _ h => h
        by_cases hcount : count ≤ marking_actions fails (s.objects k)
        · rw [if_pos hcount]
          refine ⟨fun _ h => absurd h.reached (by omega), fun _ => ?_⟩
          exact (hkept hmark count _).trans hlinked
        rw [if_neg hcount]
        have hmarked : ((mark_destroying k fails).exec s₁).2.linked = some k :=
          Eq.trans (hmark.exec Naming.refl Naming.trans s₁) hlinked
        obtain ⟨rest, hrest⟩ : ∃ rest, count - marking_actions fails (s.objects k) = rest + 1 :=
          ⟨count - marking_actions fails (s.objects k) - 1, by omega⟩
        rw [hrest]
        unfold remove_and_unlock
        cases hremove : fails .shm_unlink with
        | true =>
          simp only [if_true]
          refine ⟨fun _ h => ?_, fun _ => ?_⟩
          · rw [h.granted _ (by decide)] at hremove
            cases hremove
          · refine (hkept (Prog.Always.bind (P := fun _ => True) ?_ fun _ _ => hclose _) _ _).trans hmarked
            refine Prog.Always.bind (P := fun _ => True) ?_ fun _ _ => trivial
            split
            · exact trivial
            · exact hunlock
        | false =>
          simp only [Bool.false_eq_true, if_false, Prog.bind_assoc]
          rw [shm_unlink, Prog.modifyGet, Prog.killed_act_bind, Prog.ret_bind]
          refine ⟨fun h => ?_, fun hnot => absurd ⟨⟨object_name, hname⟩, ?_, by omega⟩ hnot⟩
          · rw [hkept ?_ rest] at h
            · cases h
            split
            · exact hclose _
            · exact Prog.Always.bind (hunlock.bind fun _ _ => hret _) fun _ _ => hclose _
          · intro call hcall
            simp only [List.mem_cons, List.not_mem_nil, or_false] at hcall
            rcases hcall with rfl | rfl | rfl
            · exact hopen
            · exact hflock
            · exact hremove

/-- The channel survives an `unlink` that fails or is killed after `count`
    actions: if the name is still there, the channel behind it is as usable as
    it was. This is so exactly when the name is gone, or the channel was not
    being destroyed and has not been marked, or it was being destroyed and is
    not one that `open_or_create` would return. -/
theorem failed_unlink_keeps_state_iff (hlinked : s.linked = some k) (count : Nat) :
    (((unlink pid name fails).killed count s).linked = some k →
        AsUsable name k (state_word k s) ((unlink pid name fails).killed count s)) ↔
      Removes name fails count (s.objects k) ∨
        (state_word k s ≠ ManagedChannelState.destroying.word ∧
          ¬ (Marks name fails (s.objects k) ∧ 4 < count)) ∨
        (state_word k s = ManagedChannelState.destroying.word ∧ ¬ Complete name (s.objects k)) := by
  set t := (unlink pid name fails).killed count s
  have hname : t.linked = some k ↔ ¬ Removes name fails count (s.objects k) := unlink_linked_iff hlinked count
  have hword : state_word k t = state_word k s ↔ ¬ (Marks name fails (s.objects k) ∧ 4 < count) ∨
      state_word k s = ManagedChannelState.destroying.word := unlink_keeps_state_iff hlinked count
  have houtline : SameOutline (s.objects k) (t.objects k) :=
    (unlink_keeping pid name fails).killed Keeping.refl Keeping.trans count s k
  by_cases hremoves : Removes name fails count (s.objects k)
  · exact ⟨fun _ => .inl hremoves, fun _ hstill => absurd hremoves (hname.mp hstill)⟩
  have hstill : t.linked = some k := hname.mpr hremoves
  constructor
  · intro husable
    obtain ⟨hstate, hreopens⟩ := husable hstill
    have hnot := (reopens_iff hstill).mp hreopens
    by_cases hdestroying : state_word k s = ManagedChannelState.destroying.word
    · refine .inr (.inr ⟨hdestroying, fun hcomplete => hnot ⟨hstate.trans hdestroying, ?_⟩⟩)
      exact (houtline.complete hstate).mpr hcomplete
    · exact .inr (.inl ⟨hdestroying, (hword.mp hstate).resolve_right hdestroying⟩)
  · rintro (hremoves' | ⟨hdestroying, hmarked⟩ | ⟨hdestroying, hincomplete⟩)
    · exact absurd hremoves' hremoves
    · intro _
      have hstate := hword.mpr (.inl hmarked)
      exact ⟨hstate, (reopens_iff hstill).mpr fun h => hdestroying (hstate.symm.trans h.1)⟩
    · intro _
      have hstate := hword.mpr (.inr hdestroying)
      exact ⟨hstate, (reopens_iff hstill).mpr fun h => hincomplete ((houtline.complete hstate).mp h.2)⟩

end

/-- `shm_unlink` is refused, as to a process that may write the object but not
    remove the name. -/
def shm_unlink_refused : Syscall → Bool
  | .shm_unlink => true
  | _ => false

/-- Killed just before its first store, `unlink` leaves the channel usable. -/
theorem failed_unlink_keeps_state_iff_one_slot :
    let t := (unlink 1 "ch" shm_unlink_refused).killed 4 one_created.shared
    one_created.shared.linked = some 0 ∧ t.linked = some 0 ∧
      AsUsable "ch" 0 (state_word 0 one_created.shared) t := by
  have hlinked : one_created.shared.linked = some 0 := by decide +kernel
  have hstill : ((unlink 1 "ch" shm_unlink_refused).killed 4 one_created.shared).linked = some 0 := by
    decide +kernel
  have hhealthy : state_word 0 one_created.shared ≠ ManagedChannelState.destroying.word := by decide +kernel
  have hfew {name : String} {fails : Syscall → Bool} :
      ¬ (Marks name fails (one_created.shared.objects 0) ∧ 4 < 4) := fun h => absurd h.2 (lt_irrefl 4)
  exact ⟨hlinked, hstill, (failed_unlink_keeps_state_iff hlinked 4).mpr (.inr (.inl ⟨hhealthy, hfew⟩)) hstill⟩

/-- `unlink` throws, the name stays, and the channel behind it is being
    destroyed: whoever opens it again gets that channel. -/
theorem failed_unlink_destroys :
    ((unlink 1 "ch" shm_unlink_refused).exec one_created.shared).1 =
        .error (throw_errno "shm_unlink(managed channel)" "/ch.shmchan.managed") ∧
      ((unlink 1 "ch" shm_unlink_refused).exec one_created.shared).2.linked = some 0 ∧
      state_word 0 one_created.shared = ManagedChannelState.healthy.word ∧
      state_word 0 ((unlink 1 "ch" shm_unlink_refused).exec one_created.shared).2 =
        ManagedChannelState.destroying.word ∧
      ((open_or_create_managed_mapping 2 "ch" one_slot fun _ => false).exec
        ((unlink 1 "ch" shm_unlink_refused).exec one_created.shared).2).1 = .ok 0 := by
  decide +kernel

end shmchan.managed
