import Shmchan.Managed.Management.Safety

open process

namespace shmchan.managed

/-- An object that `open_or_create` will initialise still has the name. -/
def Named (k : Nat) (options : ManagedChannelOptions) (s : Namespace) : Prop :=
  ∀ layout, checked_managed_layout options.message_capacity options.max_message_size = .ok layout →
    s.stray = false → (s.objects k).ready = false → s.linked = some k

/-- What `open_or_create` knows once it has its lock. -/
structure Probing (failures : Bool) (pid k : Nat) (options : ManagedChannelOptions) (s : Namespace) :
    Prop extends Flocked pid k s where
  settled : failures = false → (s.objects k).Settled
  named : Named k options s

/-- The process that holds the lock may take the object for uninitialised. -/
def Unready (failures : Bool) (k : Nat) (s : Namespace) : Prop :=
  s.late = false ∨ failures = false → (s.objects k).ready = false

section

variable {W : Nat → Conduct} {failures : Bool} {pid k : Nat} {s s' : Namespace} {fails : Syscall → Bool}
  {options : ManagedChannelOptions}

theorem Probing.rely (h : Probing failures pid k options s) (hrely : NamespaceRely W pid s s') :
    Probing failures pid k options s' := by
  have hkept := hrely.locked k h.exclusive
  refine ⟨h.toFlocked.rely hrely, fun hfailures => hkept.settled (h.settled hfailures), ?_⟩
  intro layout hlayout hstray hready
  rw [hkept.ready] at hready
  exact hrely.linked hstray k h.exclusive (h.named layout hlayout (hrely.stray hstray) hready)

theorem Unready.rely (h : Unready failures k s) (hlocked : Flocked pid k s)
    (hrely : NamespaceRely W pid s s') : Unready failures k s' := by
  intro hcase
  rw [(hrely.locked k hlocked.exclusive).ready]
  exact h (hcase.imp_left hrely.late)

theorem note_open_or_create_raise (k : Nat) (options : ManagedChannelOptions) (s : Namespace) :
    ∃ late stray, Namespace.note_open_or_create k options s = s.raise late stray := by
  unfold Namespace.note_open_or_create
  split
  · exact ⟨false, _, by rw [Namespace.raise, Bool.or_false]⟩
  · exact ⟨false, false, by rw [Namespace.raise, Bool.or_false, Bool.or_false]⟩

theorem note_open_or_create_noted (pid k : Nat) (options : ManagedChannelOptions) (s : Namespace) :
    Named k options ((Namespace.note_open_or_create k options s).set_object k fun o =>
      { o with exclusive := some pid }) := by
  intro layout hlayout hstray hready
  simp only [Namespace.note_open_or_create, hlayout, set_object_stray, set_object_self,
    set_object_linked] at hstray hready ⊢
  have hunready : (s.objects k).ready = false := hready
  rw [hunready, Bool.not_false, Bool.true_and, Bool.or_eq_false_iff] at hstray
  exact not_not.mp (of_decide_eq_false hstray.2)

/-- An object shorter than a header is not ready. -/
theorem Probing.unready_of_short (h : Probing failures pid k options s) (hinv : NamespaceInv failures s)
    (hshort : (s.objects k).size < sizeof_managed_shared_header) : Unready failures k s := by
  intro hcase
  cases hready : (s.objects k).ready with
  | false => rfl
  | true =>
    rcases hcase with hlate | hfailures
    · exact absurd (hinv.sized hlate k hready) (not_le.mpr hshort)
    · exact absurd ((h.settled hfailures).sized hready) (not_le.mpr hshort)

/-- The probe of `open_or_create` tells a ready channel from any other object. -/
theorem probe_initialization_safe (object_name : String) (h : Probing failures pid k options s) :
    Safe (name_reliance W failures) pid
      (fun result s' => Probing failures pid k options s' ∧
        (result = .ok true → Unready failures k s') ∧ (result = .ok false → Mapped k s'))
      (probe_initialization k object_name fails) s := by
  have hthrow {error : Exception} {s' : Namespace} (h' : Probing failures pid k options s') :
      Probing failures pid k options s' ∧ (Except.error error = .ok true → Unready failures k s') ∧
        (Except.error error = .ok false → Mapped k s') := by
    refine ⟨h', fun hok => ?_, fun hok => ?_⟩
    · cases hok
    · cases hok
  have hneeds {s' : Namespace} (h' : Probing failures pid k options s') (hunready : Unready failures k s') :
      Probing failures pid k options s' ∧
        ((.ok true : Except Exception Bool) = .ok true → Unready failures k s') ∧
        ((.ok true : Except Exception Bool) = .ok false → Mapped k s') := by
    refine ⟨h', fun _ => hunready, fun hok => ?_⟩
    cases hok
  unfold probe_initialization
  split
  next _ => exact hthrow h
  refine load_safe fun s₁ hrely₁ hinv₁ => ?_
  have h₁ := h.rely hrely₁
  split
  next hzero =>
    refine hneeds h₁ (h₁.unready_of_short hinv₁ ?_)
    rw [hzero]
    decide
  split
  next hlong =>
    split
    next _ => exact hthrow h₁
    split
    next _ => exact hthrow h₁
    refine mapped_load_safe fun s₂ hrely₂ _ => ?_
    have h₂ := h₁.rely hrely₂
    by_cases hready : (s₂.objects k).memory.header.initialization = managed_initialization_ready
    · simp only [hready, ne_eq, not_true, decide_false]
      refine ⟨h₂, fun hok => ?_, fun _ => ⟨h₂.allocated, fun _ => decide_eq_true hready⟩⟩
      cases hok
    · simp only [ne_eq, hready, not_false_eq_true, decide_true]
      exact hneeds h₂ fun _ => ready_eq_false.mpr hready
  next hshort => exact hneeds h₁ (h₁.unready_of_short hinv₁ (not_le.mp hshort))

/-- The reset of an object that is not ready. -/
theorem ftruncate_reset_safe (h : Probing failures pid k options s) (hunready : Unready failures k s) :
    Safe (name_reliance W failures) pid
      (fun _ s' => Closing failures pid k s' ∧
        ∀ layout, checked_managed_layout options.message_capacity options.max_message_size = .ok layout →
          Initialising failures pid k s') (ftruncate k 0) s := by
  intro s' hrely hinv _
  have h' := h.rely hrely
  have hunready' := hunready.rely h.toFlocked hrely
  obtain ⟨hlocked, hothers⟩ := h'.toFlocked.set_object (f := fun o => { o with size := 0, memory := zeroed })
    rfl fun hlate => hunready' (.inl hlate)
  have hnothealthy (o : ShmObject) : ¬ ({ o with size := 0, memory := zeroed } : ShmObject).Healthy := by
    intro hhealthy
    cases hhealthy
  have hsettled (o : ShmObject) : ({ o with size := 0, memory := zeroed } : ShmObject).Settled := by
    refine ⟨fun hhealthy => absurd hhealthy (hnothealthy o), fun hready => ?_⟩
    cases hready
  refine ⟨hinv.set_object h'.allocated (fun _ hready => ?_) (fun _ _ hhealthy => ?_) fun _ _ => hsettled _,
    hothers, hlocked.closing fun _ => ?_, fun layout hlayout => ⟨hlocked, fun _ => ?_, ?_⟩⟩
  · cases hready
  · exact absurd hhealthy (hnothealthy _)
  · rw [set_object_self]
    exact hsettled _
  · rw [set_object_self]
    rfl
  · intro hfailures hstray
    exact h'.named layout hlayout hstray (hunready' (.inr hfailures))

/-- `open_or_create` after its probe. -/
theorem initialize_or_map_safe (hclean : failures = false → fails = fun _ => false) (object_name : String)
    {needs_initialization : Bool} (h : Probing failures pid k options s)
    (hunready : needs_initialization = true → Unready failures k s) :
    Safe (name_reliance W failures) pid
      (fun result s' => Closing failures pid k s' ∧
        ∀ mapping, result = .ok mapping → mapping = k ∧ Mapped k s')
      (initialize_or_map k object_name options fails needs_initialization) s := by
  have hthrow {error : Exception} {s' : Namespace} (h' : Closing failures pid k s') :
      Closing failures pid k s' ∧ ∀ mapping, Except.error error = .ok mapping → mapping = k ∧ Mapped k s' := by
    refine ⟨h', fun mapping hok => ?_⟩
    cases hok
  unfold initialize_or_map
  split
  next hneeds =>
    split
    next _ => exact hthrow (h.toFlocked.closing h.settled)
    refine (ftruncate_reset_safe h (hunready hneeds)).bind fun _ s₁ ⟨hclosing₁, hinitialising⟩ => ?_
    cases hlayout : checked_managed_layout options.message_capacity options.max_message_size with
    | error error =>
      unfold initialize_managed_mapping_locked
      simp only [hlayout]
      exact hthrow hclosing₁
    | ok layout =>
      refine (initialize_managed_mapping_locked_safe object_name hlayout hclean
        (hinitialising layout hlayout)).mono fun result s₂ hresult => ?_
      cases result with
      | error error =>
        have hfailures := hresult.error error rfl
        exact hthrow (hresult.locked.closing fun hnone =>
          absurd (hnone.symm.trans hfailures) Bool.false_ne_true)
      | ok mapping =>
        obtain ⟨rfl, hready, hrecognised⟩ := hresult.ok mapping rfl
        refine ⟨hresult.locked.closing fun _ =>
          ⟨fun _ => ⟨hready, hrecognised⟩, fun _ => hrecognised.1.1⟩, fun other hok => ?_⟩
        cases hok
        exact ⟨rfl, hresult.locked.allocated, fun _ => hready⟩
  next _ =>
    refine (map_managed_fd_locked_safe (A := Probing failures pid k options)
      (fun s s' hrely h => h.rely hrely) object_name options.protocol h.allocated h).bind
      fun result s₁ ⟨h₁, hmapped⟩ => ?_
    cases result with
    | error error => exact hthrow (h₁.toFlocked.closing h₁.settled)
    | ok mapping =>
      obtain ⟨rfl, hmapped⟩ := hmapped mapping rfl
      refine mapped_load_safe fun s₂ hrely₂ _ => ?_
      have h₂ := h₁.rely hrely₂
      have hclosing₂ := h₂.toFlocked.closing h₂.settled
      split
      next _ => exact hthrow hclosing₂
      refine ⟨hclosing₂, fun other hok => ?_⟩
      cases hok
      exact ⟨rfl, hmapped.rely hrely₂⟩

/-- `open_or_create_managed_mapping` from its lock on. -/
theorem open_or_create_locked_safe (hclean : failures = false → fails = fun _ => false)
    (object_name : String) (h : Unlocked pid s) (hk : k < s.next) :
    Safe (name_reliance W failures) pid (CallEnd failures pid k)
      (open_or_create_locked pid k object_name options fails) s := by
  unfold open_or_create_locked
  split
  next _ => exact .error (h.closing hk) _
  refine (flock_exclusive_safe (P := Named k options) (note_open_or_create_raise k options)
    (note_open_or_create_noted pid k options) h hk).bind fun _ s₂ ⟨hlocked, hsettled, hnamed⟩ => ?_
  refine (probe_initialization_safe object_name ⟨hlocked, hsettled, hnamed⟩).bind
    fun result s₃ ⟨h₃, hneeds, _⟩ => ?_
  cases result with
  | error error => exact .error (h₃.toFlocked.closing h₃.settled) error
  | ok needs_initialization =>
    refine (initialize_or_map_safe hclean object_name h₃ fun hneeds' => hneeds (by rw [hneeds'])).bind
      fun result s₄ ⟨hclosing, hmapped⟩ => ?_
    cases result with
    | error error => exact .error hclosing error
    | ok mapping =>
      obtain ⟨rfl, hmapped⟩ := hmapped mapping rfl
      simp only
      split
      next _ => exact .error hclosing _
      exact (unlock_mapped_safe hclosing hmapped).mono fun _ _ hend => hend.2

/-- `open_or_create_managed_mapping`. -/
theorem open_or_create_managed_mapping_safe (hclean : failures = false → fails = fun _ => false)
    (name : String) (h : Unlocked pid s) :
    Safe (name_reliance W failures) pid (CallDone pid)
      (open_or_create_managed_mapping pid name options fails) s := by
  unfold open_or_create_managed_mapping
  split
  next error _ => exact .error h error
  next object_name _ =>
  split
  next _ => exact .error h _
  refine (shm_open_or_create_safe h).bind fun k s₁ ⟨h₁, hk₁⟩ => ?_
  exact (open_or_create_locked_safe hclean object_name h₁ hk₁).bind fun _ _ hend => hend.close_fd

end

end shmchan.managed
