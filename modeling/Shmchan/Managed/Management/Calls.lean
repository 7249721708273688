import Shmchan.Managed.Management.Initialization

open process

namespace shmchan.managed

/-- `pid` holds no lock. -/
def Unlocked (pid : Nat) (s : Namespace) : Prop := ∀ k, (s.objects k).exclusive ≠ some pid

/-- A handle that a call may return: the object exists and is a channel. -/
structure Mapped (k : Nat) (s : Namespace) : Prop where
  allocated : k < s.next
  ready : s.late = false → (s.objects k).ready = true

/-- `pid` may close its descriptor: if it still holds the lock, the object is
    not left in the middle of an initialisation. -/
structure Closing (failures : Bool) (pid k : Nat) (s : Namespace) : Prop where
  allocated : k < s.next
  only : ∀ j, j ≠ k → (s.objects j).exclusive ≠ some pid
  settled : failures = false → (s.objects k).exclusive = some pid → (s.objects k).Settled

/-- The history flags only ever rise. -/
def Namespace.raise (late stray : Bool) (s : Namespace) : Namespace :=
  { s with late := s.late || late, stray := s.stray || stray }

section

variable {W : Nat → Conduct} {failures : Bool} {pid other k : Nat} {s s' : Namespace} {α β : Type}

theorem Unlocked.rely (h : Unlocked pid s) (hrely : NamespaceRely W pid s s') : Unlocked pid s' :=
  fun k => mt (hrely.lock k).mp (h k)

theorem Mapped.rely (h : Mapped k s) (hrely : NamespaceRely W pid s s') : Mapped k s' := by
  refine ⟨h.allocated.trans_le hrely.next, fun hlate => ?_⟩
  have hready := h.ready (hrely.late hlate)
  exact (hrely.ready hlate k hready).maintained.ready.trans hready

theorem Closing.rely (h : Closing failures pid k s) (hrely : NamespaceRely W pid s s') :
    Closing failures pid k s' := by
  refine ⟨h.allocated.trans_le hrely.next, fun j hj => mt (hrely.lock j).mp (h.only j hj), ?_⟩
  intro hfailures hexclusive
  have hheld := (hrely.lock k).mp hexclusive
  exact (hrely.locked k hheld).settled (h.settled hfailures hheld)

theorem Unlocked.closing (h : Unlocked pid s) (hk : k < s.next) : Closing failures pid k s :=
  ⟨hk, fun j _ => h j, fun _ hexclusive => absurd hexclusive (h k)⟩

theorem Flocked.closing (h : Flocked pid k s) (hsettled : failures = false → (s.objects k).Settled) :
    Closing failures pid k s :=
  ⟨h.allocated, h.only, fun hfailures _ => hsettled hfailures⟩

/-- An action that changes nothing. -/
theorem observe_safe {post : α → Namespace → Prop} {enabled : Namespace → Bool}
    {update : Namespace → Namespace} {next : Namespace → Prog Namespace α} (hupdate : ∀ s, update s = s)
    (hnext : ∀ s', NamespaceRely W pid s s' → NamespaceInv failures s' →
      Safe (name_reliance W failures) pid post (next s') s') :
    Safe (name_reliance W failures) pid post (.act enabled update next) s := by
  intro s' hrely hinv _
  rw [hupdate]
  exact ⟨hinv, fun other _ => .refl W other s', hnext s' hrely hinv⟩

theorem set_memory_id (k : Nat) (s : Namespace) : s.set_memory k id = s := by
  rw [Namespace.set_memory, Namespace.set_object]
  simp only [id_eq, Function.update_eq_self]

theorem load_safe {post : β → Namespace → Prop} {f : Namespace → α} {next : α → Prog Namespace β}
    (hnext : ∀ s', NamespaceRely W pid s s' → NamespaceInv failures s' →
      Safe (name_reliance W failures) pid post (next (f s')) s') :
    Safe (name_reliance W failures) pid post (.load f >>= next) s :=
  observe_safe (fun _ => rfl) hnext

theorem mapped_load_safe {post : β → Namespace → Prop} {f : Memory → α} {next : α → Prog Namespace β}
    (hnext : ∀ s', NamespaceRely W pid s s' → NamespaceInv failures s' →
      Safe (name_reliance W failures) pid post (next (f (s'.objects k).memory)) s') :
    Safe (name_reliance W failures) pid post (mapped k (.load f) >>= next) s :=
  observe_safe (set_memory_id k) hnext

/-- Giving up a lock. -/
theorem unlock_safe (h : Closing failures pid k s) :
    Safe (name_reliance W failures) pid (fun _ s' => Unlocked pid s' ∧ k < s'.next)
      (.store (Namespace.unlock pid k)) s := by
  intro s' hrely hinv _
  have h' := h.rely hrely
  have hkept (o : ShmObject) : Maintained o { o with
      exclusive := if o.exclusive = some pid then none else o.exclusive
      shared := o.shared.filter (· ≠ pid) } := ⟨rfl, rfl, fun hhealthy => hhealthy⟩
  refine ⟨hinv.set_object h'.allocated (fun hlate hready => hinv.sized hlate k hready)
    (fun hfailures hstray hhealthy => hinv.healthy hfailures hstray k hhealthy) ?_, ?_, fun j => ?_, h'.allocated⟩
  · intro hfailures hexclusive
    refine (hkept _).settled ?_
    by_cases hheld : (s'.objects k).exclusive = some pid
    · exact h'.settled hfailures hheld
    · rw [if_neg hheld] at hexclusive
      exact hinv.settled hfailures k hexclusive
  · intro other hother
    refine .set_object ?_ (fun _ => hkept _) fun _ _ => ⟨rfl, .refl⟩
    by_cases hheld : (s'.objects k).exclusive = some pid
    · simp only [hheld, if_true, Option.some.injEq, hother.symm, reduceCtorEq]
    · simp only [if_neg hheld]
  · by_cases hj : j = k
    · subst hj
      rw [Namespace.unlock, set_object_self]
      by_cases hheld : (s'.objects j).exclusive = some pid
      · simp only [if_pos hheld]
        exact Option.some_ne_none pid ∘ Eq.symm
      · simp only [if_neg hheld]
        exact hheld
    · rw [Namespace.unlock, set_object_of_ne hj]
      exact h'.only j hj

theorem NamespaceInv.raise (h : NamespaceInv failures s) (late stray : Bool) :
    NamespaceInv failures (s.raise late stray) where
  fresh := h.fresh
  linked := h.linked
  sized hlate := h.sized (Bool.or_eq_false_iff.mp hlate).1
  healthy hfailures hstray := h.healthy hfailures (Bool.or_eq_false_iff.mp hstray).1
  settled := h.settled

theorem NamespaceRely.raise (W : Nat → Conduct) (pid : Nat) (s : Namespace) (late stray : Bool) :
    NamespaceRely W pid s (s.raise late stray) where
  late hlate := (Bool.or_eq_false_iff.mp hlate).1
  stray hstray := (Bool.or_eq_false_iff.mp hstray).1
  next := le_rfl
  lock _ := Iff.rfl
  locked _ _ := .refl _
  ready _ k _ := .refl _ k _
  linked _ _ _ h := h

/-- Taking the lock, with what is noted on that occasion. -/
theorem flock_exclusive_safe {note : Namespace → Namespace} {P : Namespace → Prop}
    (hnote : ∀ s, ∃ late stray, note s = s.raise late stray)
    (hP : ∀ s, P ((note s).set_object k fun o => { o with exclusive := some pid }))
    (h : Unlocked pid s) (hk : k < s.next) :
    Safe (name_reliance W failures) pid
      (fun _ s' => Flocked pid k s' ∧ (failures = false → (s'.objects k).Settled) ∧ P s')
      (flock_exclusive pid k note) s := by
  intro s' hrely hinv henabled
  simp only [Bool.and_eq_true, Option.isNone_iff_eq_none] at henabled
  have hfree := henabled.1
  have hp := hP s'
  obtain ⟨late, stray, hraise⟩ := hnote s'
  simp only [hraise] at hp ⊢
  have hobjects : (s'.raise late stray).objects = s'.objects := rfl
  have hkept (o : ShmObject) : Maintained o { o with exclusive := some pid } :=
    ⟨rfl, rfl, fun hhealthy => hhealthy⟩
  have hinv₁ := hinv.raise late stray
  have hk' : k < s'.next := hk.trans_le hrely.next
  refine ⟨hinv₁.set_object hk' (fun hlate hready => hinv₁.sized hlate k hready)
    (fun hfailures hstray hhealthy => hinv₁.healthy hfailures hstray k hhealthy) ?_, ?_,
    ⟨hk', ?_, fun j hj => ?_⟩, fun hfailures => ?_, hp⟩
  · intro _ hexclusive
    cases hexclusive
  · intro other hother
    refine (NamespaceRely.raise W other s' late stray).trans ?_
    refine .set_object ?_ (fun _ => hkept _) fun _ _ => ⟨rfl, .refl⟩
    simp only [hobjects, hfree, Option.some.injEq, hother.symm, reduceCtorEq]
  · rw [set_object_self]
  · rw [set_object_of_ne hj]
    exact h.rely hrely j
  · rw [set_object_self]
    exact (hkept _).settled (hinv.settled hfailures k hfree)

theorem flock_shared_safe (h : Unlocked pid s) (hk : k < s.next) :
    Safe (name_reliance W failures) pid (fun _ s' => Unlocked pid s' ∧ k < s'.next)
      (flock_shared pid k) s := by
  intro s' hrely hinv _
  have hkept (o : ShmObject) : Maintained o { o with shared := pid :: o.shared } :=
    ⟨rfl, rfl, fun hhealthy => hhealthy⟩
  have hk' : k < s'.next := hk.trans_le hrely.next
  refine ⟨hinv.set_object hk' (fun hlate hready => hinv.sized hlate k hready)
    (fun hfailures hstray hhealthy => hinv.healthy hfailures hstray k hhealthy) ?_, ?_, fun j => ?_, hk'⟩
  · intro hfailures hexclusive
    exact (hkept _).settled (hinv.settled hfailures k hexclusive)
  · intro other _
    exact .set_object Iff.rfl (fun _ => hkept _) fun _ _ => ⟨rfl, .refl⟩
  · by_cases hj : j = k
    · subst hj
      rw [set_object_self]
      exact h.rely hrely j
    · rw [set_object_of_ne hj]
      exact h.rely hrely j

/-- Removing the name: the object that loses it is the caller's own, or the
    event is noted. -/
theorem shm_unlink_safe (h : Closing failures pid k s)
    (hhealthy : failures = false → s.stray = false → (s.objects k).exclusive = some pid →
      ¬ (s.objects k).Healthy) :
    Safe (name_reliance W failures) pid (fun _ s' => Closing failures pid k s') (shm_unlink pid k) s := by
  intro s' hrely hinv _
  have h' := h.rely hrely
  refine ⟨⟨hinv.fresh, fun _ hlinked => ?_, hinv.sized, fun hfailures hstray j hj => ?_, hinv.settled⟩,
    fun other hother => ⟨fun hlate => hlate, fun hstray => (Bool.or_eq_false_iff.mp hstray).1, le_rfl,
      fun _ => Iff.rfl, fun _ _ => .refl _, fun _ j _ => .refl _ j _, fun hstray j hexclusive hlinked => ?_⟩,
    ⟨h'.allocated, h'.only, h'.settled⟩⟩
  · cases hlinked
  · obtain ⟨hstray', hown⟩ := Bool.or_eq_false_iff.mp hstray
    have hlinked := hinv.healthy hfailures hstray' j hj
    simp only [hlinked, decide_eq_false_iff_not, ne_eq, reduceCtorEq, not_false_eq_true, true_and, not_or,
      not_not, Option.some.injEq] at hown
    obtain ⟨rfl, hexclusive⟩ := hown
    have hheld := (hrely.lock j).mp hexclusive
    have hnot := hhealthy hfailures (hrely.stray hstray') hheld
    exact absurd ((hrely.locked j hheld).healthy hj) hnot
  · obtain ⟨_, hown⟩ := Bool.or_eq_false_iff.mp hstray
    simp only [hlinked, decide_eq_false_iff_not, ne_eq, reduceCtorEq, not_false_eq_true, true_and, not_or,
      not_not, Option.some.injEq] at hown
    obtain ⟨rfl, hheld⟩ := hown
    rw [hheld] at hexclusive
    exact absurd (Option.some.inj hexclusive).symm hother

end

end shmchan.managed
