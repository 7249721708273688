import Shmchan.Managed.History
import Shmchan.Managed.Management

open process

namespace shmchan.managed

/-- One action of an operation of some process on a channel, or a death. -/
def OperationStep (m m' : Memory) : Prop :=
  (∃ pid op c update, (attempt pid op c).Acts update ∧ m' = update m) ∨ ∃ pid, m' = on_death pid m

/-- The state word says healthy. -/
def ShmObject.Healthy (o : ShmObject) : Prop :=
  o.memory.header.state = ManagedChannelState.healthy.word

instance (o : ShmObject) : Decidable o.Healthy := inferInstanceAs (Decidable (_ = _))

/-- `unlink` takes the object for a channel. -/
def ShmObject.Recognised (o : ShmObject) : Prop :=
  (sizeof_managed_shared_header ≤ o.size ∧ o.size ≤ 2 ^ 64 - 1) ∧
    o.memory.header.magic = managed_simple_magic ∧ o.memory.header.mapping_size = o.size

/-- The object is not in the middle of an initialisation. -/
structure ShmObject.Settled (o : ShmObject) : Prop where
  healthy : o.Healthy → o.ready = true ∧ o.Recognised
  sized : o.ready = true → sizeof_managed_shared_header ≤ o.size

/-- What nobody but the holder of the lock changes. -/
structure Maintained (o o' : ShmObject) : Prop where
  size : o'.size = o.size
  identity : o'.memory.header.identity = o.memory.header.identity
  healthy : o'.Healthy → o.Healthy

/-- What one action may do to the memory of a ready channel: it never writes
    the identity, and never makes the channel healthy. -/
structure Conduct where
  allows : Nat → Memory → Memory → Prop
  kept : ∀ {k m m'}, allows k m m' → m'.header.identity = m.header.identity ∧
    (m'.header.state = ManagedChannelState.healthy.word →
      m.header.state = ManagedChannelState.healthy.word)

/-- The life of a ready channel: only actions within a conduct write to it. -/
structure Live (conduct : Conduct) (k : Nat) (o o' : ShmObject) : Prop where
  size : o'.size = o.size
  steps : Relation.ReflTransGen (conduct.allows k) o.memory o'.memory

/-- What holds between any two actions. Without `failures`, no call is refused
    and no process is killed. -/
structure NamespaceInv (failures : Bool) (s : Namespace) : Prop where
  fresh : ∀ k, s.next ≤ k → s.objects k = {}
  linked : ∀ k, s.linked = some k → k < s.next
  sized : s.late = false → ∀ k, (s.objects k).ready = true → sizeof_managed_shared_header ≤ (s.objects k).size
  healthy : failures = false → s.stray = false → ∀ k, (s.objects k).Healthy → s.linked = some k
  settled : failures = false → ∀ k, (s.objects k).exclusive = none → (s.objects k).Settled

/-- What `pid` relies on between two of its own actions, when the others treat
    ready channels within its conduct. -/
structure NamespaceRely (W : Nat → Conduct) (pid : Nat) (s s' : Namespace) : Prop where
  late : s'.late = false → s.late = false
  stray : s'.stray = false → s.stray = false
  next : s.next ≤ s'.next
  lock : ∀ k, (s'.objects k).exclusive = some pid ↔ (s.objects k).exclusive = some pid
  locked : ∀ k, (s.objects k).exclusive = some pid → Maintained (s.objects k) (s'.objects k)
  ready : s'.late = false → ∀ k, (s.objects k).ready = true →
    Live (W pid) k (s.objects k) (s'.objects k)
  linked : s'.stray = false → ∀ k, (s.objects k).exclusive = some pid → s.linked = some k →
    s'.linked = some k

def name_reliance (W : Nat → Conduct) (failures : Bool) : Reliance Namespace Nat :=
  ⟨NamespaceInv failures, NamespaceRely W⟩

section

variable {m m' : Memory} {o o' o'' : ShmObject}

theorem Change.initialization (h : m'.header.identity = m.header.identity) :
    m'.header.initialization = m.header.initialization := by
  simp only [ManagedSharedHeader.identity, List.cons.injEq] at h
  exact h.2.2.2.2.2.2.2.2.2.2.2.2.2.2.1

theorem Maintained.refl (o : ShmObject) : Maintained o o := ⟨rfl, rfl, fun h => h⟩

theorem Maintained.trans (h : Maintained o o') (h' : Maintained o' o'') : Maintained o o'' :=
  ⟨h'.size.trans h.size, h'.identity.trans h.identity, fun hhealthy => h.healthy (h'.healthy hhealthy)⟩

theorem Maintained.ready (h : Maintained o o') : o'.ready = o.ready := by
  rw [ShmObject.ready, ShmObject.ready, Change.initialization h.identity]

theorem Maintained.recognised (h : Maintained o o') (ho : o.Recognised) : o'.Recognised := by
  have hidentity := h.identity
  simp only [ManagedSharedHeader.identity, List.cons.injEq] at hidentity
  obtain ⟨hmagic, _, _, hmapping, _⟩ := hidentity
  rw [ShmObject.Recognised, hmagic, hmapping, h.size]
  exact ho

theorem Maintained.settled (h : Maintained o o') (ho : o.Settled) : o'.Settled := by
  constructor
  · intro hhealthy
    obtain ⟨hready, hrecognised⟩ := ho.healthy (h.healthy hhealthy)
    exact ⟨h.ready.trans hready, h.recognised hrecognised⟩
  · intro hready
    rw [h.size]
    exact ho.sized (h.ready.symm.trans hready)

/-- Operations never write the identity of a channel, and never make it
    healthy. -/
theorem OperationStep.kept (h : OperationStep m m') :
    m'.header.identity = m.header.identity ∧
      (m'.header.state = ManagedChannelState.healthy.word →
        m.header.state = ManagedChannelState.healthy.word) := by
  rcases h with ⟨pid, op, c, update, hacts, rfl⟩ | ⟨pid, rfl⟩
  · have halways : (attempt pid op c).Always (fun m m' => m'.header.identity = m.header.identity ∧
        (m'.header.state = ManagedChannelState.healthy.word →
          m.header.state = ManagedChannelState.healthy.word)) fun _ => True := by
      apply attempt_always
      · intro m m' hchange
        refine ⟨hchange.identity, fun hhealthy => ?_⟩
        rcases hchange.state with hstate | hstate | hstate
        · rwa [← hstate]
        · rw [hstate] at hhealthy
          cases hhealthy
        · rw [hstate] at hhealthy
          cases hhealthy
      · intro selected message m
        exact ⟨rfl, fun hhealthy => hhealthy⟩
      · intro m
        refine ⟨rfl, fun hhealthy => ?_⟩
        cases hhealthy
    exact halways.acts hacts m
  · unfold on_death
    by_cases hheld : m.header.mutex = .held pid
    · rw [if_pos hheld]
      exact ⟨rfl, fun hhealthy => hhealthy⟩
    · rw [if_neg hheld]
      exact ⟨rfl, fun hhealthy => hhealthy⟩

theorem Live.refl (conduct : Conduct) (k : Nat) (o : ShmObject) : Live conduct k o o := ⟨rfl, .refl⟩

section

variable {conduct : Conduct} {k : Nat}

theorem Live.trans (h : Live conduct k o o') (h' : Live conduct k o' o'') : Live conduct k o o'' :=
  ⟨h'.size.trans h.size, h.steps.trans h'.steps⟩

theorem Live.step (hsize : o'.size = o.size) (h : conduct.allows k o.memory o'.memory) :
    Live conduct k o o' :=
  ⟨hsize, .single h⟩

theorem Live.maintained (h : Live conduct k o o') : Maintained o o' := by
  have hkept {m m' : Memory} (hsteps : Relation.ReflTransGen (conduct.allows k) m m') :
      m'.header.identity = m.header.identity ∧
        (m'.header.state = ManagedChannelState.healthy.word →
          m.header.state = ManagedChannelState.healthy.word) := by
    induction hsteps with
    | refl => exact ⟨rfl, fun hhealthy => hhealthy⟩
    | tail _ hstep ih =>
      have hlast := conduct.kept hstep
      exact ⟨hlast.1.trans ih.1, fun hhealthy => ih.2 (hlast.2 hhealthy)⟩
  exact ⟨h.size, (hkept h.steps).1, (hkept h.steps).2⟩

end

/-- Any operations of any processes, and deaths. -/
def operations : Conduct := ⟨fun _ => OperationStep, OperationStep.kept⟩

end

section

variable {W : Nat → Conduct} {failures : Bool} {pid other k : Nat} {s s' s'' : Namespace}
  {f : ShmObject → ShmObject} {update : Memory → Memory}

theorem NamespaceRely.refl (W : Nat → Conduct) (pid : Nat) (s : Namespace) : NamespaceRely W pid s s :=
  ⟨fun h => h, fun h => h, le_rfl, fun _ => Iff.rfl, fun _ _ => .refl _, fun _ k _ => .refl _ k _,
    fun _ _ _ h => h⟩

theorem NamespaceRely.trans (h : NamespaceRely W pid s s') (h' : NamespaceRely W pid s' s'') :
    NamespaceRely W pid s s'' where
  late hlate := h.late (h'.late hlate)
  stray hstray := h.stray (h'.stray hstray)
  next := h.next.trans h'.next
  lock k := (h'.lock k).trans (h.lock k)
  locked k hk := (h.locked k hk).trans (h'.locked k ((h.lock k).mpr hk))
  ready hlate k hk := by
    have hfirst := h.ready (h'.late hlate) k hk
    exact hfirst.trans (h'.ready hlate k (hfirst.maintained.ready.trans hk))
  linked hstray k hk hlinked :=
    h'.linked hstray k ((h.lock k).mpr hk) (h.linked (h'.stray hstray) k hk hlinked)

@[simp] theorem set_object_self : (s.set_object k f).objects k = f (s.objects k) :=
  Function.update_self ..

@[simp] theorem set_object_of_ne (hother : other ≠ k) :
    (s.set_object k f).objects other = s.objects other :=
  Function.update_of_ne hother ..

@[simp] theorem set_memory_self {update : Memory → Memory} :
    (s.set_memory k update).objects k =
      { s.objects k with memory := update (s.objects k).memory } :=
  Function.update_self ..

@[simp] theorem set_object_linked : (s.set_object k f).linked = s.linked := rfl
@[simp] theorem set_object_next : (s.set_object k f).next = s.next := rfl
@[simp] theorem set_object_late : (s.set_object k f).late = s.late := rfl
@[simp] theorem set_object_stray : (s.set_object k f).stray = s.stray := rfl

/-- A change of one object, as the others see it. -/
theorem NamespaceRely.set_object
    (hlock : (f (s.objects k)).exclusive = some other ↔ (s.objects k).exclusive = some other)
    (hlocked : (s.objects k).exclusive = some other → Maintained (s.objects k) (f (s.objects k)))
    (hready : s.late = false → (s.objects k).ready = true →
      Live (W other) k (s.objects k) (f (s.objects k))) :
    NamespaceRely W other s (s.set_object k f) where
  late h := h
  stray h := h
  next := le_rfl
  lock j := by
    by_cases hj : j = k
    · subst hj
      rw [set_object_self]
      exact hlock
    · rw [set_object_of_ne hj]
  locked j hexclusive := by
    by_cases hj : j = k
    · subst hj
      rw [set_object_self]
      exact hlocked hexclusive
    · rw [set_object_of_ne hj]
      exact .refl _
  ready hlate j hexclusive := by
    by_cases hj : j = k
    · subst hj
      rw [set_object_self]
      exact hready hlate hexclusive
    · rw [set_object_of_ne hj]
      exact .refl _ j _
  linked _ _ _ h := h

/-- A change of one object that keeps the invariant. -/
theorem NamespaceInv.set_object (h : NamespaceInv failures s) (hk : k < s.next)
    (hsized : s.late = false → (f (s.objects k)).ready = true →
      sizeof_managed_shared_header ≤ (f (s.objects k)).size)
    (hhealthy : failures = false → s.stray = false → (f (s.objects k)).Healthy → s.linked = some k)
    (hsettled : failures = false → (f (s.objects k)).exclusive = none → (f (s.objects k)).Settled) :
    NamespaceInv failures (s.set_object k f) where
  fresh j hj := by
    have hne : j ≠ k := by
      rintro rfl
      exact absurd hk (not_lt.mpr hj)
    rw [set_object_of_ne hne]
    exact h.fresh j hj
  linked := h.linked
  sized hlate j := by
    by_cases hj : j = k
    · subst hj
      rw [set_object_self]
      exact hsized hlate
    · rw [set_object_of_ne hj]
      exact h.sized hlate j
  healthy hfailures hstray j := by
    by_cases hj : j = k
    · subst hj
      rw [set_object_self]
      exact hhealthy hfailures hstray
    · rw [set_object_of_ne hj]
      exact h.healthy hfailures hstray j
  settled hfailures j := by
    by_cases hj : j = k
    · subst hj
      rw [set_object_self]
      exact hsettled hfailures
    · rw [set_object_of_ne hj]
      exact h.settled hfailures j

/-- What an action within every conduct does to an object. -/
theorem Maintained.memory (hupdate : ∀ other m, (W other).allows k m (update m)) (o : ShmObject) :
    Maintained o { o with memory := update o.memory } := by
  have hlive : Live (W 0) k o { o with memory := update o.memory } := .step rfl (hupdate 0 _)
  exact hlive.maintained

/-- An action within every conduct, whoever holds the locks. -/
theorem NamespaceInv.operation (h : NamespaceInv failures s) (hk : k < s.next)
    (hupdate : ∀ other m, (W other).allows k m (update m)) :
    NamespaceInv failures (s.set_memory k update) ∧
      ∀ other, NamespaceRely W other s (s.set_memory k update) := by
  have hkept := Maintained.memory hupdate (s.objects k)
  constructor
  · refine h.set_object hk (fun hlate hready => ?_) (fun hfailures hstray hhealthy => ?_)
      fun hfailures hexclusive => ?_
    · exact h.sized hlate k (hkept.ready.symm.trans hready)
    · exact h.healthy hfailures hstray k (hkept.healthy hhealthy)
    · exact hkept.settled (h.settled hfailures k hexclusive)
  · intro other
    exact .set_object Iff.rfl (fun _ => hkept) fun _ _ => .step rfl (hupdate other _)

end

end shmchan.managed
