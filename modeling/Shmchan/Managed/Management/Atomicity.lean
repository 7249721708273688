import Shmchan.Managed.Management.Sequential

open process

namespace shmchan.managed

/-- If `open_or_create` throws, the name and the object behind it are as before
    the call; where nothing had the name, a `create` then succeeds. -/
def AtomicOnFailure (pid : Nat) (name : String) (options : ManagedChannelOptions)
    (fails : Syscall → Bool) (s : Namespace) : Prop :=
  ∀ error, ((open_or_create_managed_mapping pid name options fails).exec s).1 = .error error →
    let t := ((open_or_create_managed_mapping pid name options fails).exec s).2
    t.linked = s.linked ∧
      (∀ k, s.linked = some k → (t.objects k).contents.Same (s.objects k).contents) ∧
      (s.linked = none → ∀ creator object_name usable layout,
        (normalize_name name >>= managed_object_name) = .ok object_name →
        checked_managed_layout usable.message_capacity usable.max_message_size = .ok layout →
          ((create_managed_mapping creator name usable fun _ => false).exec t).1 = .ok t.next)

/-- None of the calls on the way from the reset to the returned channel is refused. -/
structure Completes (options : ManagedChannelOptions) (fails : Syscall → Bool) : Prop where
  usable : ∃ layout, checked_managed_layout options.message_capacity options.max_message_size = .ok layout
  truncated : fails .ftruncate = false
  mapped : fails .mmap = false
  mutex : refused_mutex_call fails = none
  allocated : fails .allocation = false
  unlocked : fails .unflock = false

/-- An `open_or_create` that either does not throw, or throws without having
    changed the object that has the name. -/
inductive Harmless (options : ManagedChannelOptions) (fails : Syscall → Bool) (c : Contents) : Prop where
  /-- It throws before it writes. -/
  | early (hrefused : fails .flock = true ∨ fails .probe_fstat = true ∨ fails .reset_ftruncate = true)
  /-- It never writes, since it cannot look or finds a ready channel. -/
  | looked (hsize : sizeof_managed_shared_header ≤ c.size)
      (hlook : 2 ^ 64 - 1 < c.size ∨ fails .probe_mmap = true ∨ c.ready = true)
  /-- It empties an object that was empty. -/
  | empty (hempty : c.size = 0)
      (hrefused : fails .ftruncate = true ∨
        ∃ error, checked_managed_layout options.message_capacity options.max_message_size = .error error)
  /-- It leaves zero bytes of the new size, and finds as many. -/
  | zeroed (layout : ManagedLayout) (hc : c = ⟨layout.mapping_size, zeroed⟩)
      (husable : checked_managed_layout options.message_capacity options.max_message_size = .ok layout)
      (hgranted : fails .ftruncate = false) (hrefused : fails .mmap = true)
  /-- It leaves the same unfinished initialisation that it finds. -/
  | prepared (layout : ManagedLayout)
      (hc : c = (Contents.mk layout.mapping_size managed.zeroed).store (initialize_prologue options layout))
      (husable : checked_managed_layout options.message_capacity options.max_message_size = .ok layout)
      (hgranted : fails .ftruncate = false ∧ fails .mmap = false) (hrefused : refused_mutex_call fails ≠ none)
  /-- It returns a channel. -/
  | returned (hcompletes : Completes options fails)

/-- When `open_or_create` is atomic on failure: it throws before it opens the
    name, returns a channel under a new name, or does no harm to the object. -/
inductive Survives (name : String) (options : ManagedChannelOptions) (fails : Syscall → Bool)
    (s : Namespace) : Prop where
  | unnamed (error : Exception) (hname : (normalize_name name >>= managed_object_name) = .error error)
  | unopened (hrefused : fails .shm_open = true)
  | created (hlinked : s.linked = none) (hcompletes : Completes options fails)
      (hgranted : fails .flock = false ∧ fails .probe_fstat = false ∧ fails .reset_ftruncate = false)
  | existing (k : Nat) (hlinked : s.linked = some k) (hharmless : Harmless options fails (s.objects k).contents)

section

variable {k : Nat} {c : Contents} {object_name : String} {options : ManagedChannelOptions}
  {fails : Syscall → Bool} {layout : ManagedLayout}

theorem Contents.Same.refl (c : Contents) : c.Same c := ⟨rfl, .inr rfl⟩

theorem same_empty {m : Memory} : (Contents.mk 0 m).Same c ↔ c.size = 0 :=
  ⟨fun h => h.1.symm, fun h => ⟨h.symm, .inl rfl⟩⟩

theorem same_of_pos {size : Nat} {m : Memory} (hsize : 0 < size) :
    (Contents.mk size m).Same c ↔ c = ⟨size, m⟩ := by
  constructor
  · rintro ⟨hsame, hzero | hmemory⟩
    · exact absurd hzero hsize.ne'
    · cases c
      simp only at hsame hmemory
      rw [hsame, hmemory]
  · rintro rfl
    exact Contents.Same.refl _

/-- What the probe has found about an object that it says to initialise. -/
theorem probed_true (h : probed c object_name fails = .ok true) :
    fails .probe_fstat = false ∧ (sizeof_managed_shared_header ≤ c.size →
      c.size ≤ 2 ^ 64 - 1 ∧ fails .probe_mmap = false ∧ c.ready = false) := by
  unfold probed at h
  split at h
  · cases h
  next hfstat =>
  refine ⟨Bool.eq_false_iff.mpr hfstat, fun hsize => ?_⟩
  rw [if_neg (show c.size ≠ 0 by rw [sizeof_managed_shared_header] at hsize; omega), if_pos hsize] at h
  split at h
  · cases h
  next hlarge =>
  split at h
  · cases h
  next hmmap =>
  exact ⟨by omega, Bool.eq_false_iff.mpr hmmap, by simpa using Except.ok.inj h⟩

/-- An object that it says not to initialise, or cannot decide about. -/
theorem probed_other (h : probed c object_name fails ≠ .ok true) : Harmless options fails c := by
  unfold probed at h
  split at h
  next hfstat => exact .early (.inr (.inl hfstat))
  split at h
  · exact absurd rfl h
  split at h
  next hsize =>
    split at h
    next hlarge => exact .looked hsize (.inl hlarge)
    split at h
    next hmmap => exact .looked hsize (.inr (.inl hmmap))
    · refine .looked hsize (.inr (.inr ?_))
      cases hready : c.ready with
      | true => rfl
      | false =>
        rw [hready] at h
        exact absurd rfl h
  · exact absurd rfl h

/-- A completed initialisation is never what it found. -/
theorem finished_differs (hlayout : checked_managed_layout options.message_capacity options.max_message_size = .ok layout)
    (hunready : sizeof_managed_shared_header ≤ c.size → c.ready = false) (m : Memory) :
    ¬ ((Contents.mk layout.mapping_size m).store initialize_finish).Same c := by
  obtain ⟨_, _, _, _, hpayload, _, hmapping, _⟩ := checked_managed_layout_spec hlayout
  rintro ⟨hsize, hzero | hmemory⟩
  · have hzero' : layout.mapping_size = 0 := hzero
    omega
  · have hsize' : layout.mapping_size = c.size := hsize
    have hlarge : sizeof_managed_shared_header ≤ c.size := by
      rw [sizeof_managed_shared_header]
      omega
    have hready : c.ready = true := by
      rw [Contents.ready, ← hmemory]
      rfl
    rw [hunready hlarge] at hready
    cases hready

/-- The result of `open_or_create` after an initialisation. -/
def unlocked_result (result : Except Exception Nat) (fails : Syscall → Bool) : Except Exception Nat :=
  match result with
  | .error error => .error error
  | .ok mapping => if fails .unflock then .error (.system_error "flock") else .ok mapping

theorem unlocked_result_error (error : Exception) :
    unlocked_result (.error error) fails = .error error := rfl

/-- What a harmless call may be once it has come to the initialisation. -/
theorem Harmless.initialising (h : Harmless options fails c)
    (hgranted : ∀ call ∈ [Syscall.flock, .probe_fstat, .reset_ftruncate], fails call = false)
    (hprobed : sizeof_managed_shared_header ≤ c.size →
      c.size ≤ 2 ^ 64 - 1 ∧ fails .probe_mmap = false ∧ c.ready = false) :
    (c.size = 0 ∧ (fails .ftruncate = true ∨
        ∃ error, checked_managed_layout options.message_capacity options.max_message_size = .error error)) ∨
      (∃ layout, checked_managed_layout options.message_capacity options.max_message_size = .ok layout ∧
        fails .ftruncate = false ∧ ((c = ⟨layout.mapping_size, managed.zeroed⟩ ∧ fails .mmap = true) ∨
          (c = (Contents.mk layout.mapping_size managed.zeroed).store (initialize_prologue options layout) ∧
            fails .mmap = false ∧ refused_mutex_call fails ≠ none))) ∨
      Completes options fails := by
  cases h with
  | early hrefused =>
    rw [hgranted .flock (by decide), hgranted .probe_fstat (by decide),
      hgranted .reset_ftruncate (by decide)] at hrefused
    rcases hrefused with h | h | h <;> cases h
  | looked hsize hlook =>
    obtain ⟨hsmall, hmmap, hready⟩ := hprobed hsize
    rw [hmmap, hready] at hlook
    rcases hlook with h | h | h
    · omega
    · cases h
    · cases h
  | empty hempty hrefused => exact .inl ⟨hempty, hrefused⟩
  | zeroed layout hc husable hgranted hrefused =>
    exact .inr (.inl ⟨layout, husable, hgranted, .inl ⟨hc, hrefused⟩⟩)
  | prepared layout hc husable hgranted hrefused =>
    exact .inr (.inl ⟨layout, husable, hgranted.1, .inr ⟨hc, hgranted.2, hrefused⟩⟩)
  | returned hcompletes => exact .inr (.inr hcompletes)

/-- An initialisation that is refused at some point leaves what it found
    exactly in the harmless cases. -/
theorem initialization_harmless
    (hgranted : ∀ call ∈ [Syscall.flock, .probe_fstat, .reset_ftruncate], fails call = false)
    (hprobed : sizeof_managed_shared_header ≤ c.size →
      c.size ≤ 2 ^ 64 - 1 ∧ fails .probe_mmap = false ∧ c.ready = false) :
    (∀ error, unlocked_result (initialization_of k (c.truncate 0) object_name options fails).1 fails =
      .error error → (initialization_of k (c.truncate 0) object_name options fails).2.Same c) ↔
        Harmless options fails c := by
  have hreset : c.truncate 0 = ⟨0, managed.zeroed⟩ := by
    rw [Contents.truncate, if_pos (.inl rfl)]
  have hsized (size : Nat) : (Contents.mk 0 managed.zeroed).truncate size = ⟨size, managed.zeroed⟩ := by
    rw [Contents.truncate, if_pos (.inr rfl)]
  -- one leaf of the code: it throws and leaves `left`
  have hthrown {e : Exception} {left : Contents} (hleft : left.Same c ↔ Harmless options fails c) :
      (∀ error, unlocked_result (.error e) fails = .error error → left.Same c) ↔
        Harmless options fails c := by
    simpa only [unlocked_result_error, Except.error.injEq, forall_eq'] using hleft
  have hcases (h : Harmless options fails c) := h.initialising hgranted hprobed
  unfold initialization_of
  rw [hreset]
  cases hlayout : checked_managed_layout options.message_capacity options.max_message_size with
  | error error =>
    refine hthrown ⟨fun h => .empty (same_empty.mp h) (.inr ⟨error, hlayout⟩), fun h => same_empty.mpr ?_⟩
    rcases hcases h with hempty | ⟨layout, husable, _⟩ | hcompletes
    · exact hempty.1
    · rw [hlayout] at husable
      cases husable
    · obtain ⟨layout, husable⟩ := hcompletes.usable
      rw [hlayout] at husable
      cases husable
  | ok layout =>
    have hpositive : 0 < layout.mapping_size := by
      obtain ⟨_, _, _, _, hpayload, _, hmapping, _⟩ := checked_managed_layout_spec hlayout
      omega
    have husable_eq {other : ManagedLayout}
        (husable : checked_managed_layout options.message_capacity options.max_message_size = .ok other) :
        other = layout := Except.ok.inj (husable.symm.trans hlayout)
    have hnot_error : ¬ ∃ error, checked_managed_layout options.message_capacity
        options.max_message_size = .error error := by
      rintro ⟨error, herror⟩
      rw [hlayout] at herror
      cases herror
    simp only [hsized]
    split
    next hftruncate =>
      refine hthrown ⟨fun h => .empty (same_empty.mp h) (.inl hftruncate), fun h => same_empty.mpr ?_⟩
      rcases hcases h with hempty | ⟨_, _, hgranted, _⟩ | hcompletes
      · exact hempty.1
      · rw [hftruncate] at hgranted
        cases hgranted
      · have hgranted := hcompletes.truncated
        rw [hftruncate] at hgranted
        cases hgranted
    next hftruncate =>
    have hftruncate := Bool.eq_false_iff.mpr hftruncate
    have hnot_empty : ¬ (c.size = 0 ∧ (fails .ftruncate = true ∨
        ∃ error, checked_managed_layout options.message_capacity options.max_message_size = .error error)) := by
      rintro ⟨_, hrefused | herror⟩
      · rw [hftruncate] at hrefused
        cases hrefused
      · exact hnot_error herror
    split
    next hmmap =>
      refine hthrown ⟨fun h => .zeroed layout ((same_of_pos hpositive).mp h) hlayout hftruncate hmmap, fun h => ?_⟩
      rcases hcases h with hempty | ⟨other, husable, _, ⟨hc, _⟩ | ⟨_, hgranted, _⟩⟩ | hcompletes
      · exact absurd hempty hnot_empty
      · rw [husable_eq husable] at hc
        exact (same_of_pos hpositive).mpr hc
      · rw [hmmap] at hgranted
        cases hgranted
      · have hgranted := hcompletes.mapped
        rw [hmmap] at hgranted
        cases hgranted
    next hmmap =>
    have hmmap := Bool.eq_false_iff.mpr hmmap
    cases hmutex : refused_mutex_call fails with
    | some operation =>
      refine hthrown ⟨fun h => .prepared layout ((same_of_pos hpositive).mp h) hlayout ⟨hftruncate, hmmap⟩ ?_,
        fun h => ?_⟩
      · rw [hmutex]
        exact Option.some_ne_none operation
      · rcases hcases h with hempty | ⟨other, husable, _, ⟨_, hrefused⟩ | ⟨hc, _, _⟩⟩ | hcompletes
        · exact absurd hempty hnot_empty
        · rw [hmmap] at hrefused
          cases hrefused
        · rw [husable_eq husable] at hc
          exact (same_of_pos hpositive).mpr hc
        · have hgranted := hcompletes.mutex
          rw [hmutex] at hgranted
          cases hgranted
    | none =>
      have hdiffers := finished_differs hlayout (fun hsize => (hprobed hsize).2.2)
        ((initialize_prologue options layout).foldl (fun m store => store m) managed.zeroed)
      have honly (h : Harmless options fails c) : Completes options fails := by
        rcases hcases h with hempty | ⟨_, _, _, ⟨_, hrefused⟩ | ⟨_, _, hrefused⟩⟩ | hcompletes
        · exact absurd hempty hnot_empty
        · rw [hmmap] at hrefused
          cases hrefused
        · exact absurd hmutex hrefused
        · exact hcompletes
      simp only
      split
      next hallocation =>
        refine hthrown ⟨fun h => absurd h hdiffers, fun h => ?_⟩
        have hgranted := (honly h).allocated
        rw [hallocation] at hgranted
        cases hgranted
      next hallocation =>
      simp only [unlocked_result]
      by_cases hunflock : fails .unflock = true
      · rw [if_pos hunflock]
        refine ⟨fun h => absurd (h _ rfl) hdiffers, fun h => ?_⟩
        have hgranted := (honly h).unlocked
        rw [hunflock] at hgranted
        cases hgranted
      · rw [if_neg hunflock]
        refine ⟨fun _ => .returned ⟨⟨layout, hlayout⟩, hftruncate, hmmap, hmutex,
          Bool.eq_false_iff.mpr hallocation, Bool.eq_false_iff.mpr hunflock⟩, fun _ error herror => ?_⟩
        cases herror

theorem opened_or_created_eq (hflock : fails .flock = false) (hprobed : probed c object_name fails = .ok true)
    (hreset : fails .reset_ftruncate = false) :
    opened_or_created k c object_name options fails =
      (unlocked_result (initialization_of k (c.truncate 0) object_name options fails).1 fails,
        (initialization_of k (c.truncate 0) object_name options fails).2) := by
  unfold opened_or_created initialized_or_mapped
  simp only [hflock, hprobed, hreset, Bool.false_eq_true, if_false, if_true]
  cases (initialization_of k (c.truncate 0) object_name options fails).1 <;> rfl

/-- Of the object it has opened, `open_or_create` leaves what it found, if it
    throws, exactly in the harmless cases. -/
theorem opened_or_created_harmless :
    (∀ error, (opened_or_created k c object_name options fails).1 = .error error →
      (opened_or_created k c object_name options fails).2.Same c) ↔ Harmless options fails c := by
  have hkept (hsame : (opened_or_created k c object_name options fails).2 = c)
      (h : Harmless options fails c) : (∀ error,
        (opened_or_created k c object_name options fails).1 = .error error →
          (opened_or_created k c object_name options fails).2.Same c) ↔ Harmless options fails c := by
    refine ⟨fun _ => h, fun _ _ _ => ?_⟩
    rw [hsame]
    exact Contents.Same.refl c
  by_cases hflock : fails .flock = true
  · refine hkept ?_ (.early (.inl hflock))
    rw [opened_or_created, if_pos hflock]
  have hflock := Bool.eq_false_iff.mpr hflock
  by_cases hprobed : probed c object_name fails = .ok true
  · by_cases hreset : fails .reset_ftruncate = true
    · refine hkept ?_ (.early (.inr (.inr hreset)))
      unfold opened_or_created initialized_or_mapped
      simp only [hflock, hprobed, hreset, Bool.false_eq_true, if_false, if_true]
    · have hreset := Bool.eq_false_iff.mpr hreset
      obtain ⟨hfstat, hlooked⟩ := probed_true hprobed
      rw [opened_or_created_eq hflock hprobed hreset]
      refine initialization_harmless (fun call hcall => ?_) hlooked
      simp only [List.mem_cons, List.not_mem_nil, or_false] at hcall
      rcases hcall with rfl | rfl | rfl <;> assumption
  · refine hkept ?_ (probed_other hprobed)
    unfold opened_or_created initialized_or_mapped
    rw [hflock, if_neg Bool.false_ne_true]
    cases hresult : probed c object_name fails with
    | error error => rfl
    | ok needs_initialization =>
      cases needs_initialization with
      | true => exact absurd hresult hprobed
      | false =>
        simp only [Bool.false_eq_true, if_false]
        cases matched k c object_name options fails <;> rfl

/-- An initialisation ends in a channel exactly when nothing on its way is refused. -/
theorem initialization_returns :
    (∀ error, unlocked_result (initialization_of k c object_name options fails).1 fails ≠ .error error) ↔
      Completes options fails := by
  have hthrown {e : Exception} (hnot : ¬ Completes options fails) :
      (∀ error, unlocked_result (.error e) fails ≠ .error error) ↔ Completes options fails :=
    ⟨fun h => absurd rfl (h e), fun h => absurd h hnot⟩
  unfold initialization_of
  cases hlayout : checked_managed_layout options.message_capacity options.max_message_size with
  | error error =>
    refine hthrown fun h => ?_
    obtain ⟨layout, husable⟩ := h.usable
    rw [hlayout] at husable
    cases husable
  | ok layout =>
    simp only
    split
    next hftruncate => exact hthrown fun h => Bool.eq_false_iff.mp h.truncated hftruncate
    next hftruncate =>
    split
    next hmmap => exact hthrown fun h => Bool.eq_false_iff.mp h.mapped hmmap
    next hmmap =>
    cases hmutex : refused_mutex_call fails with
    | some operation =>
      refine hthrown fun h => ?_
      have hgranted := h.mutex
      rw [hmutex] at hgranted
      cases hgranted
    | none =>
      simp only
      split
      next hallocation => exact hthrown fun h => Bool.eq_false_iff.mp h.allocated hallocation
      next hallocation =>
      simp only [unlocked_result]
      by_cases hunflock : fails .unflock = true
      · rw [if_pos hunflock]
        exact ⟨fun h => absurd rfl (h _), fun h => absurd hunflock (Bool.eq_false_iff.mp h.unlocked)⟩
      · rw [if_neg hunflock]
        refine ⟨fun _ => ⟨⟨layout, hlayout⟩, Bool.eq_false_iff.mpr hftruncate, Bool.eq_false_iff.mpr hmmap,
          hmutex, Bool.eq_false_iff.mpr hallocation, Bool.eq_false_iff.mpr hunflock⟩, fun _ error => ?_⟩
        rintro ⟨⟩

/-- Under a new name, `open_or_create` does not throw exactly when nothing on
    its way is refused. -/
theorem opened_or_created_returns :
    (∀ error, (opened_or_created k {} object_name options fails).1 ≠ .error error) ↔
      Completes options fails ∧
        (fails .flock = false ∧ fails .probe_fstat = false ∧ fails .reset_ftruncate = false) := by
  by_cases hflock : fails .flock = true
  · rw [opened_or_created, if_pos hflock]
    exact ⟨fun h => absurd rfl (h _), fun h => absurd hflock (Bool.eq_false_iff.mp h.2.1)⟩
  have hflock := Bool.eq_false_iff.mpr hflock
  by_cases hfstat : fails .probe_fstat = true
  · have hprobed : probed {} object_name fails =
        .error (throw_errno "fstat(open_or_create managed channel)" object_name) := if_pos hfstat
    rw [opened_or_created, hflock, if_neg Bool.false_ne_true, hprobed]
    exact ⟨fun h => absurd rfl (h _), fun h => absurd hfstat (Bool.eq_false_iff.mp h.2.2.1)⟩
  have hfstat := Bool.eq_false_iff.mpr hfstat
  have hprobed : probed {} object_name fails = .ok true := by
    rw [probed, hfstat, if_neg Bool.false_ne_true, if_pos rfl]
  by_cases hreset : fails .reset_ftruncate = true
  · simp only [opened_or_created, initialized_or_mapped, hflock, hprobed, hreset, Bool.false_eq_true,
      if_false, if_true]
    refine ⟨fun h => absurd rfl (h _), ?_⟩
    rintro ⟨_, _, _, ⟨⟩⟩
  have hreset := Bool.eq_false_iff.mpr hreset
  rw [opened_or_created_eq hflock hprobed hreset, initialization_returns]
  exact ⟨fun h => ⟨h, hflock, hfstat, hreset⟩, fun h => h.1⟩

end

/-- `open_or_create` is atomic on failure exactly when it throws before it opens
    the name, returns a channel under a new name, or does no harm to the object
    that has the name. -/
theorem open_or_create_atomic_iff (pid : Nat) (name : String) (options : ManagedChannelOptions)
    (fails : Syscall → Bool) (s : Namespace) :
    AtomicOnFailure pid name options fails s ↔ Survives name options fails s := by
  -- a call that throws before it opens the name
  have huntouched (error : Exception)
      (hexec : (open_or_create_managed_mapping pid name options fails).exec s = (.error error, s)) :
      AtomicOnFailure pid name options fails s := by
    intro _ _
    simp only [hexec]
    exact ⟨trivial, fun k _ => Contents.Same.refl _, fun hlinked creator object_name usable layout hname hlayout =>
      create_exec hname hlinked hlayout⟩
  cases hname : normalize_name name >>= managed_object_name with
  | error error =>
    refine ⟨fun _ => .unnamed error hname, fun _ => huntouched error ?_⟩
    unfold open_or_create_managed_mapping
    rw [hname]
    rfl
  | ok object_name =>
  by_cases hopen : fails .shm_open = true
  · refine ⟨fun _ => .unopened hopen, fun _ =>
      huntouched (throw_errno "shm_open(open_or_create managed channel)" object_name) ?_⟩
    unfold open_or_create_managed_mapping
    simp only [hname, hopen, if_true]
    rfl
  have hopen := Bool.eq_false_iff.mpr hopen
  obtain ⟨hresult, hlinked, hcontents⟩ :=
    @open_or_create_exec pid s name object_name options fails hname hopen
  cases hname_linked : s.linked with
  | none =>
    simp only [hname_linked, Option.getD_none, if_true] at hresult hlinked hcontents
    have hnever : AtomicOnFailure pid name options fails s ↔
        ∀ error, (opened_or_created s.next {} object_name options fails).1 ≠ .error error := by
      rw [← hresult]
      refine ⟨fun h error herror => ?_, fun h error herror => absurd herror (h error)⟩
      have hgone := (h error herror).1
      rw [hlinked, hname_linked] at hgone
      cases hgone
    rw [hnever, opened_or_created_returns]
    constructor
    · rintro ⟨hcompletes, hgranted⟩
      exact .created hname_linked hcompletes hgranted
    · intro h
      cases h with
      | unnamed error hname' =>
        rw [hname] at hname'
        cases hname'
      | unopened hrefused => exact absurd hrefused (Bool.eq_false_iff.mp hopen)
      | created _ hcompletes hgranted => exact ⟨hcompletes, hgranted⟩
      | existing k hk _ =>
        rw [hname_linked] at hk
        cases hk
  | some k =>
    simp only [hname_linked, Option.getD_some, reduceCtorEq, if_false] at hresult hlinked hcontents
    have hobject : AtomicOnFailure pid name options fails s ↔
        ∀ error, (opened_or_created k (s.objects k).contents object_name options fails).1 = .error error →
          (opened_or_created k (s.objects k).contents object_name options fails).2.Same
            (s.objects k).contents := by
      rw [← hresult, ← hcontents]
      constructor
      · intro h error herror
        exact (h error herror).2.1 k hname_linked
      · intro h error herror
        refine ⟨hlinked.trans hname_linked.symm, fun j hj => ?_, fun hnone => ?_⟩
        · obtain rfl : k = j := Option.some.inj (hname_linked.symm.trans hj)
          exact h error herror
        · rw [hname_linked] at hnone
          cases hnone
    rw [hobject, opened_or_created_harmless]
    constructor
    · exact fun hharmless => .existing k hname_linked hharmless
    · intro h
      cases h with
      | unnamed error hname' =>
        rw [hname] at hname'
        cases hname'
      | unopened hrefused => exact absurd hrefused (Bool.eq_false_iff.mp hopen)
      | created hnone _ _ =>
        rw [hname_linked] at hnone
        cases hnone
      | existing j hj hharmless =>
        obtain rfl : k = j := Option.some.inj (hname_linked.symm.trans hj)
        exact hharmless

/-- `open_or_create` refuses options without a capacity, but leaves an empty
    object under the name, so that `create` fails with good ones; after a failed
    `create` it does not. -/
theorem open_or_create_leaves_name :
    let unusable : ManagedChannelOptions := { one_slot with message_capacity := 0 }
    let t := ((open_or_create_managed_mapping 0 "ch" unusable fun _ => false).exec {}).2
    let u := ((create_managed_mapping 0 "ch" unusable fun _ => false).exec {}).2
    ¬ AtomicOnFailure 0 "ch" unusable (fun _ => false) {} ∧ t.linked = some 0 ∧
      ((create_managed_mapping 1 "ch" one_slot fun _ => false).exec t).1 =
        .error (throw_errno "shm_open(create managed channel)" "/ch.shmchan.managed") ∧
      u.linked = none ∧ ((create_managed_mapping 1 "ch" one_slot fun _ => false).exec u).1 = .ok 1 := by
  refine ⟨fun h => ?_, by decide +kernel, by decide +kernel, by decide +kernel, by decide +kernel⟩
  have hthrows : ((open_or_create_managed_mapping 0 "ch" { one_slot with message_capacity := 0 }
      fun _ => false).exec {}).1 = .error (.invalid_argument
        "shmchan: managed channel capacity and max message size must be positive") := by
    decide +kernel
  have hlinked : ((open_or_create_managed_mapping 0 "ch" { one_slot with message_capacity := 0 }
      fun _ => false).exec {}).2.linked = some 0 := by
    decide +kernel
  have hgone := (h _ hthrows).1
  rw [hlinked] at hgone
  cases hgone

end shmchan.managed
