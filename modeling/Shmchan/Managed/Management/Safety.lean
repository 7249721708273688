import Shmchan.Managed.Management.Calls

open process

namespace shmchan.managed

/-- A call that may return a mapping, before it closes its descriptor. -/
structure CallEnd (failures : Bool) (pid k : Nat) (result : Except Exception Nat) (s : Namespace) :
    Prop where
  closing : Closing failures pid k s
  mapped : ∀ mapping, result = .ok mapping → Mapped mapping s

/-- A call after which the process holds no lock. -/
structure CallDone (pid : Nat) (result : Except Exception Nat) (s : Namespace) : Prop where
  unlocked : Unlocked pid s
  mapped : ∀ mapping, result = .ok mapping → Mapped mapping s

section

variable {W : Nat → Conduct} {failures : Bool} {pid k : Nat} {s s' : Namespace} {fails : Syscall → Bool}

theorem CallDone.error (h : Unlocked pid s) (error : Exception) : CallDone pid (.error error) s := by
  refine ⟨h, fun mapping hok => ?_⟩
  cases hok

theorem CallEnd.error (h : Closing failures pid k s) (error : Exception) :
    CallEnd failures pid k (.error error) s := by
  refine ⟨h, fun mapping hok => ?_⟩
  cases hok

theorem CallEnd.ok (h : Closing failures pid k s) (hk : Mapped k s) : CallEnd failures pid k (.ok k) s := by
  refine ⟨h, fun mapping hok => ?_⟩
  cases hok
  exact hk

/-- Nothing that any process does takes a handle away. -/
theorem Safe.keep_mapped {α : Type} {post : α → Namespace → Prop} {p : Prog Namespace α}
    (h : Safe (name_reliance W failures) pid post p s) (hk : Mapped k s) :
    Safe (name_reliance W failures) pid (fun a s' => post a s' ∧ Mapped k s') p s :=
  h.keep (Nat.succ_ne_self pid) (fun _ _ _ hrely _ hmapped => hmapped.rely hrely) hk

/-- The end of a call on an object: the descriptor is closed. -/
theorem CallEnd.close_fd {result : Except Exception Nat} (h : CallEnd failures pid k result s) :
    Safe (name_reliance W failures) pid (CallDone pid) (close_fd pid k >>= fun _ => .ret result) s := by
  cases result with
  | error error => exact (unlock_safe h.closing).bind fun _ s' h' => .error h'.1 error
  | ok mapping =>
    refine (Safe.keep_mapped (unlock_safe h.closing) (h.mapped mapping rfl)).bind fun _ s' h' => ?_
    refine ⟨h'.1.1, fun other hok => ?_⟩
    cases hok
    exact h'.2

/-- The unlock of a call that has mapped the object it holds. -/
theorem unlock_mapped_safe (hclosing : Closing failures pid k s) (hk : Mapped k s) :
    Safe (name_reliance W failures) pid (fun result s' => result = .ok k ∧ CallEnd failures pid k result s')
      (flock_unlock pid k >>= fun _ => .ret (.ok k)) s := by
  refine (Safe.keep_mapped (unlock_safe hclosing) hk).bind fun _ s' h' => ?_
  exact ⟨rfl, .ok (h'.1.1.closing h'.1.2) h'.2⟩

/-- A new object takes a name that denotes nothing. -/
theorem NamespaceInv.add_object (h : NamespaceInv failures s) (hlinked : s.linked = none) :
    NamespaceInv failures s.add_object ∧ ∀ pid, NamespaceRely W pid s s.add_object := by
  have hobjects : s.add_object.objects = s.objects := by
    rw [Namespace.add_object, ← h.fresh s.next le_rfl, Function.update_eq_self]
  constructor
  · refine ⟨fun k hk => ?_, fun k hk => ?_, fun hlate k => ?_, fun hfailures hstray k hhealthy => ?_,
      fun hfailures k => ?_⟩
    · rw [hobjects]
      exact h.fresh k ((Nat.le_succ _).trans hk)
    · cases hk
      exact Nat.lt_succ_self _
    · rw [hobjects]
      exact h.sized hlate k
    · rw [hobjects] at hhealthy
      have hnamed := h.healthy hfailures hstray k hhealthy
      rw [hlinked] at hnamed
      cases hnamed
    · rw [hobjects]
      exact h.settled hfailures k
  · intro pid
    refine ⟨fun hlate => hlate, fun hstray => hstray, Nat.le_succ _, fun k => by rw [hobjects],
      fun k _ => ?_, fun _ k _ => ?_, fun _ k _ hnamed => ?_⟩
    · rw [hobjects]
      exact .refl _
    · rw [hobjects]
      exact .refl _ k _
    · rw [hlinked] at hnamed
      cases hnamed

theorem shm_open_exclusive_safe (h : Unlocked pid s) :
    Safe (name_reliance W failures) pid (fun found s' => Unlocked pid s' ∧ ∀ k, found = some k → k < s'.next)
      shm_open_exclusive s := by
  intro s' hrely hinv _
  have h' := h.rely hrely
  by_cases hlinked : s'.linked = none
  · obtain ⟨hinv', hothers⟩ := hinv.add_object hlinked
    simp only [if_pos hlinked]
    refine ⟨hinv', fun other _ => hothers other, h'.rely (hothers pid), fun k hk => ?_⟩
    cases hk
    exact Nat.lt_succ_self _
  · simp only [if_neg hlinked]
    refine ⟨hinv, fun other _ => .refl W other s', h', fun k hk => ?_⟩
    cases hk

theorem shm_open_or_create_safe (h : Unlocked pid s) :
    Safe (name_reliance W failures) pid (fun k s' => Unlocked pid s' ∧ k < s'.next) shm_open_or_create s := by
  intro s' hrely hinv _
  have h' := h.rely hrely
  cases hlinked : s'.linked with
  | none =>
    obtain ⟨hinv', hothers⟩ := hinv.add_object hlinked
    simp only [hlinked, if_true, Option.getD_none]
    exact ⟨hinv', fun other _ => hothers other, h'.rely (hothers pid), Nat.lt_succ_self _⟩
  | some k =>
    simp only [hlinked, reduceCtorEq, if_false, Option.getD_some]
    exact ⟨hinv, fun other _ => .refl W other s', h', hinv.linked k hlinked⟩

theorem shm_open_safe {α : Type} {post : α → Namespace → Prop} {next : Option Nat → Prog Namespace α}
    (h : Unlocked pid s)
    (hnext : ∀ found s', Unlocked pid s' → (∀ k, found = some k → k < s'.next) →
      Safe (name_reliance W failures) pid post (next found) s') :
    Safe (name_reliance W failures) pid post (shm_open >>= next) s :=
  load_safe fun s' hrely hinv => hnext _ s' (h.rely hrely) fun k hk => hinv.linked k hk

/-- What `create` knows once it has its lock. -/
structure CreateNoted (k : Nat) (options : ManagedChannelOptions) (s : Namespace) : Prop where
  usable : ∀ layout, checked_managed_layout options.message_capacity options.max_message_size = .ok layout →
    (s.late = false → (s.objects k).ready = false) ∧ (s.stray = false → s.linked = some k)
  refused : ∀ error, checked_managed_layout options.message_capacity options.max_message_size = .error error →
    s.stray = false → (s.objects k).ready = false

theorem note_create_raise (k : Nat) (options : ManagedChannelOptions) (s : Namespace) :
    ∃ late stray, Namespace.note_create k options s = s.raise late stray := by
  unfold Namespace.note_create
  split
  · exact ⟨_, _, rfl⟩
  · exact ⟨false, (s.objects k).ready, by rw [Namespace.raise, Bool.or_false]⟩

theorem note_create_noted (pid k : Nat) (options : ManagedChannelOptions) (s : Namespace) :
    CreateNoted k options ((Namespace.note_create k options s).set_object k fun o =>
      { o with exclusive := some pid }) := by
  unfold Namespace.note_create
  constructor
  · intro layout hlayout
    simp only [hlayout, set_object_self, set_object_late, set_object_stray, set_object_linked]
    refine ⟨fun hlate => (Bool.or_eq_false_iff.mp hlate).2, fun hstray => ?_⟩
    exact not_not.mp (of_decide_eq_false (Bool.or_eq_false_iff.mp hstray).2)
  · intro error herror hstray
    simp only [herror, set_object_self, set_object_stray] at hstray ⊢
    exact (Bool.or_eq_false_iff.mp hstray).2

/-- `create` up to its `catch` clause: when it fails without a refused call, its
    object is no healthy channel. -/
theorem create_locked_safe (hclean : failures = false → fails = fun _ => false) (object_name : String)
    (options : ManagedChannelOptions) (h : Unlocked pid s) (hk : k < s.next) :
    Safe (name_reliance W failures) pid
      (fun result s' => CallEnd failures pid k result s' ∧ ∀ error, result = .error error →
        failures = false → s'.stray = false → (s'.objects k).exclusive = some pid → ¬ (s'.objects k).Healthy)
      (create_locked pid k object_name options fails) s := by
  have hthrow {error : Exception} {s' : Namespace} (hfailures : failures = true)
      (hclosing : Closing failures pid k s') :
      CallEnd failures pid k (.error error) s' ∧ ∀ error', (.error error : Except Exception Nat) = .error error' →
        failures = false → s'.stray = false → (s'.objects k).exclusive = some pid →
          ¬ (s'.objects k).Healthy :=
    ⟨.error hclosing error, fun _ _ hnone => absurd (hnone.symm.trans hfailures) Bool.false_ne_true⟩
  unfold create_locked
  split
  next hfails => exact hthrow (refused hclean hfails) (h.closing hk)
  refine (flock_exclusive_safe (P := CreateNoted k options) (note_create_raise k options)
    (note_create_noted pid k options) h hk).bind fun _ s₁ ⟨hlocked, hsettled, hnoted⟩ => ?_
  cases hlayout : checked_managed_layout options.message_capacity options.max_message_size with
  | error error =>
    have hrefused : initialize_managed_mapping_locked k object_name options fails = .ret (.error error) := by
      unfold initialize_managed_mapping_locked
      simp only [hlayout]
      rfl
    rw [hrefused]
    refine ⟨.error (hlocked.closing hsettled) error, fun _ _ hfailures hstray _ hhealthy => ?_⟩
    have hready := ((hsettled hfailures).healthy hhealthy).1
    rw [hnoted.refused error hlayout hstray] at hready
    cases hready
  | ok layout =>
    obtain ⟨hunready, hnamed⟩ := hnoted.usable layout hlayout
    have hinitialising : Initialising failures pid k s₁ := ⟨hlocked, hunready, fun _ => hnamed⟩
    refine (initialize_managed_mapping_locked_safe object_name hlayout hclean hinitialising).bind
      fun result s₂ hresult => ?_
    cases result with
    | error error =>
      have hfailures := hresult.error error rfl
      exact hthrow hfailures (hresult.locked.closing fun hnone =>
        absurd (hnone.symm.trans hfailures) Bool.false_ne_true)
    | ok mapping =>
      obtain ⟨rfl, hready, hrecognised⟩ := hresult.ok mapping rfl
      have hclosing : Closing failures pid mapping s₂ :=
        hresult.locked.closing fun _ => ⟨fun _ => ⟨hready, hrecognised⟩, fun _ => hrecognised.1.1⟩
      simp only
      split
      next hfails => exact hthrow (refused hclean hfails) hclosing
      refine (unlock_mapped_safe hclosing ⟨hresult.locked.allocated, fun _ => hready⟩).mono ?_
      rintro result s₃ ⟨rfl, hend⟩
      refine ⟨hend, fun error herror => ?_⟩
      cases herror

/-- `create_managed_mapping`. -/
theorem create_managed_mapping_safe (hclean : failures = false → fails = fun _ => false) (name : String)
    (options : ManagedChannelOptions) (h : Unlocked pid s) :
    Safe (name_reliance W failures) pid (CallDone pid) (create_managed_mapping pid name options fails) s := by
  unfold create_managed_mapping
  split
  next error _ => exact .error h error
  next object_name _ =>
  split
  next _ => exact .error h _
  refine (shm_open_exclusive_safe h).bind fun found s₁ ⟨h₁, hfound⟩ => ?_
  cases found with
  | none => exact .error h₁ _
  | some k =>
    refine (create_locked_safe hclean object_name options h₁ (hfound k rfl)).bind
      fun result s₂ ⟨hend, hhealthy⟩ => ?_
    cases result with
    | ok mapping => exact hend.close_fd
    | error error =>
      have hclose {s' : Namespace} (hclosing : Closing failures pid k s') :
          Safe (name_reliance W failures) pid (CallDone pid)
            (close_fd pid k >>= fun _ => .ret (.error error)) s' :=
        CallEnd.close_fd (.error hclosing error)
      by_cases hfails : fails .shm_unlink = true
      · simp only [unlink_on_failure, if_pos hfails]
        exact hclose hend.closing
      · simp only [unlink_on_failure, if_neg hfails]
        refine Safe.bind ?_ fun _ s₃ hclosing => hclose hclosing
        exact (shm_unlink_safe hend.closing (hhealthy error rfl)).bind fun _ _ hclosing => hclosing

/-- The checks on a mapping: whoever passes them has seen the ready word. -/
theorem validate_managed_mapping_safe {A : Namespace → Prop}
    (hA : ∀ s s', NamespaceRely W pid s s' → A s → A s') (size : Nat) (object_name : String)
    (protocol : ProtocolDescriptor) (hk : k < s.next) (h : A s) :
    Safe (name_reliance W failures) pid (fun result s' => A s' ∧ (result = .ok () → Mapped k s'))
      (validate_managed_mapping k size object_name protocol) s := by
  unfold validate_managed_mapping
  refine mapped_load_safe fun s₁ hrely₁ _ => ?_
  split
  next _ =>
    refine ⟨hA s s₁ hrely₁ h, fun hok => ?_⟩
    cases hok
  next hheader =>
  simp only [not_or, not_not] at hheader
  have hmapped : Mapped k s₁ :=
    ⟨hk.trans_le hrely₁.next, fun _ => decide_eq_true hheader.2.2.2.2.2.2.2⟩
  refine mapped_load_safe fun s₂ hrely₂ _ => mapped_load_safe fun s₃ hrely₃ _ => ?_
  have hA₃ : A s₃ := hA _ _ hrely₃ (hA _ _ hrely₂ (hA _ _ hrely₁ h))
  have hmapped₃ : Mapped k s₃ := (hmapped.rely hrely₂).rely hrely₃
  split
  · exact ⟨hA₃, fun _ => hmapped₃⟩
  · exact ⟨hA₃, fun _ => hmapped₃⟩

/-- `map_managed_fd_locked` writes nothing. -/
theorem map_managed_fd_locked_safe {A : Namespace → Prop}
    (hA : ∀ s s', NamespaceRely W pid s s' → A s → A s') (object_name : String)
    (protocol : ProtocolDescriptor) (hk : k < s.next) (h : A s) :
    Safe (name_reliance W failures) pid
      (fun result s' => A s' ∧ ∀ mapping, result = .ok mapping → mapping = k ∧ Mapped k s')
      (map_managed_fd_locked k object_name protocol fails) s := by
  have hthrow {error : Exception} {s' : Namespace} (h' : A s') :
      A s' ∧ ∀ mapping, Except.error error = .ok mapping → mapping = k ∧ Mapped k s' := by
    refine ⟨h', fun mapping hok => ?_⟩
    cases hok
  unfold map_managed_fd_locked
  split
  next _ => exact hthrow h
  refine load_safe fun s₁ hrely₁ _ => ?_
  have h₁ := hA _ _ hrely₁ h
  split
  next _ => exact hthrow h₁
  split
  next _ => exact hthrow h₁
  refine (validate_managed_mapping_safe hA _ object_name protocol (hk.trans_le hrely₁.next) h₁).bind
    fun result s₂ ⟨h₂, hmapped⟩ => ?_
  cases result with
  | error error => exact hthrow h₂
  | ok _ =>
    simp only
    split
    next _ => exact hthrow h₂
    refine ⟨h₂, fun mapping hok => ?_⟩
    cases hok
    exact ⟨rfl, hmapped rfl⟩

/-- `open_managed_mapping` from its lock on. -/
theorem open_locked_safe (object_name : String) (protocol : ProtocolDescriptor) (h : Unlocked pid s)
    (hk : k < s.next) :
    Safe (name_reliance W failures) pid (CallEnd failures pid k)
      (open_locked pid k object_name protocol fails) s := by
  unfold open_locked
  split
  next _ => exact .error (h.closing hk) _
  refine (flock_shared_safe h hk).bind fun _ s₂ ⟨h₂, hk₂⟩ => ?_
  refine (map_managed_fd_locked_safe (A := fun s => Unlocked pid s ∧ k < s.next)
    (fun s s' hrely h => ⟨h.1.rely hrely, h.2.trans_le hrely.next⟩) object_name protocol hk₂
    ⟨h₂, hk₂⟩).bind fun result s₃ ⟨⟨h₃, hk₃⟩, hmapped⟩ => ?_
  cases result with
  | error error => exact .error (h₃.closing hk₃) error
  | ok mapping =>
    obtain ⟨rfl, hmapped⟩ := hmapped mapping rfl
    simp only
    split
    next _ => exact .error (h₃.closing hk₃) _
    exact (unlock_mapped_safe (h₃.closing hk₃) hmapped).mono fun _ _ hend => hend.2

/-- `open_managed_mapping`. -/
theorem open_managed_mapping_safe (name : String) (protocol : ProtocolDescriptor) (h : Unlocked pid s) :
    Safe (name_reliance W failures) pid (CallDone pid) (open_managed_mapping pid name protocol fails) s := by
  unfold open_managed_mapping
  split
  next error _ => exact .error h error
  next object_name _ =>
  split
  next _ => exact .error h _
  refine shm_open_safe h fun found s₁ h₁ hfound => ?_
  cases found with
  | none => exact .error h₁ _
  | some k =>
    exact (open_locked_safe object_name protocol h₁ (hfound k rfl)).bind fun _ _ hend => hend.close_fd

end

end shmchan.managed
