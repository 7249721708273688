import Shmchan.Managed.Management.Sequential

open process

namespace shmchan.managed

/-- The state word of an object. -/
def state_word (k : Nat) (s : Namespace) : Nat := (s.objects k).memory.header.state

/-- `open_or_create` takes the object for a channel of some protocol, and does
    not initialise it. -/
def Complete (name : String) (o : ShmObject) : Prop :=
  ∃ object_name protocol, (normalize_name name >>= managed_object_name) = .ok object_name ∧
    sizeof_managed_shared_header ≤ o.size ∧ o.size ≤ 2 ^ 64 - 1 ∧
      validated o.memory.header o.size object_name protocol = .ok ()

/-- What the checks of a mapping look at is as it was: messages, sleepers and
    locks may have come and gone. -/
structure SameOutline (o o' : ShmObject) : Prop where
  size : o'.size = o.size
  identity : o'.memory.header.identity = o.memory.header.identity
  reason : o'.memory.header.reason = o.memory.header.reason

/-- The name still denotes the object, with the state word and the outline it
    had. -/
structure Undisturbed (k : Nat) (s t : Namespace) : Prop where
  linked : t.linked = some k
  outline : SameOutline (s.objects k) (t.objects k)
  state : state_word k t = state_word k s

/-- The channel behind the name is as usable as with the state word `w`: that
    is still its state word, and as long as it is, no `open_or_create` returns
    a channel that is being destroyed. -/
structure AsUsable (name : String) (k w : Nat) (s : Namespace) : Prop where
  state : state_word k s = w
  reopens : ∀ t, Undisturbed k s t → ∀ pid options fails object,
    ((open_or_create_managed_mapping pid name options fails).exec t).1 = .ok object →
      state_word object ((open_or_create_managed_mapping pid name options fails).exec t).2 ≠
        ManagedChannelState.destroying.word

section

variable {pid k w : Nat} {s t : Namespace} {o o' o'' : ShmObject} {name object_name : String}
  {options : ManagedChannelOptions} {fails : Syscall → Bool} {c : Contents}

theorem SameOutline.refl (o : ShmObject) : SameOutline o o := ⟨rfl, rfl, rfl⟩

theorem SameOutline.trans (h : SameOutline o o') (h' : SameOutline o' o'') : SameOutline o o'' :=
  ⟨h'.size.trans h.size, h'.identity.trans h.identity, h'.reason.trans h.reason⟩

/-- The checks look at the identity, the state and the reason only. -/
theorem validated_congr {header header' : ManagedSharedHeader} (hidentity : header'.identity = header.identity)
    (hstate : header'.state = header.state) (hreason : header'.reason = header.reason) (size : Nat)
    (object_name : String) (protocol : ProtocolDescriptor) :
    validated header' size object_name protocol = validated header size object_name protocol := by
  simp only [ManagedSharedHeader.identity, List.cons.injEq] at hidentity
  obtain ⟨hmagic, hversion, hheader, hmapping, hid, hprotocol, hcapacity, hmax, hslots, hpayload, hstride,
    hslot, hmutex, halignment, hready, _⟩ := hidentity
  simp only [validated, validate_layout, hmagic, hversion, hheader, hmapping, hid, hprotocol, hcapacity, hmax,
    hslots, hpayload, hstride, hslot, hmutex, halignment, hready, hstate, hreason]

theorem SameOutline.complete (h : SameOutline o o') (hstate : o'.memory.header.state = o.memory.header.state) :
    Complete name o' ↔ Complete name o := by
  simp only [Complete, h.size, validated_congr h.identity hstate h.reason]

theorem initialization_of_ok {object : Nat}
    (hok : (initialization_of k c object_name options fails).1 = .ok object) :
    object = k ∧ (initialization_of k c object_name options fails).2.memory.header.state =
      ManagedChannelState.healthy.word := by
  unfold initialization_of at hok ⊢
  split at hok
  · cases hok
  split at hok
  · cases hok
  next hftruncate =>
  simp only [if_neg hftruncate]
  split at hok
  · cases hok
  next hmmap =>
  simp only [if_neg hmmap]
  split at hok
  · cases hok
  split at hok
  · cases hok
  next hallocation =>
  rw [if_neg hallocation]
  exact ⟨(Except.ok.inj hok).symm, rfl⟩

theorem matched_ok {object : Nat} (hok : matched k c object_name options fails = .ok object) :
    object = k ∧ sizeof_managed_shared_header ≤ c.size ∧ c.size ≤ 2 ^ 64 - 1 ∧
      validated c.memory.header c.size object_name options.protocol = .ok () := by
  unfold matched at hok
  split at hok
  · cases hok
  next mapping hmapping =>
  split at hok
  · cases hok
  obtain rfl : mapping = object := Except.ok.inj hok
  exact mapping_of_ok hmapping

/-- What `open_or_create` returns it has just initialised, or it has found it
    to be a channel and left it alone. -/
theorem opened_or_created_ok {object : Nat}
    (hok : (opened_or_created k c object_name options fails).1 = .ok object) :
    object = k ∧ ((opened_or_created k c object_name options fails).2.memory.header.state =
        ManagedChannelState.healthy.word ∨
      (opened_or_created k c object_name options fails).2 = c ∧ sizeof_managed_shared_header ≤ c.size ∧
        c.size ≤ 2 ^ 64 - 1 ∧ validated c.memory.header c.size object_name options.protocol = .ok ()) := by
  unfold opened_or_created at hok ⊢
  split at hok
  · cases hok
  next hflock =>
  rw [if_neg hflock]
  cases hprobed : probed c object_name fails with
  | error error =>
    rw [hprobed] at hok
    cases hok
  | ok needs_initialization =>
    rw [hprobed] at hok
    simp only at hok ⊢
    cases hattempted : (initialized_or_mapped k c object_name options fails needs_initialization).1 with
    | error error =>
      rw [hattempted] at hok
      cases hok
    | ok mapping =>
      rw [hattempted] at hok
      simp only at hok ⊢
      split at hok
      · cases hok
      obtain rfl : mapping = object := Except.ok.inj hok
      cases needs_initialization with
      | true =>
        simp only [initialized_or_mapped, if_true] at hattempted ⊢
        split at hattempted
        · cases hattempted
        next hreset =>
        rw [if_neg hreset]
        obtain ⟨hmapping, hhealthy⟩ := initialization_of_ok hattempted
        exact ⟨hmapping, .inl hhealthy⟩
      | false =>
        simp only [initialized_or_mapped, Bool.false_eq_true, if_false] at hattempted ⊢
        obtain ⟨hmapping, hsizes⟩ := matched_ok hattempted
        exact ⟨hmapping, .inr ⟨trivial, hsizes⟩⟩

/-- A channel that is being destroyed is returned by `open_or_create` exactly
    when it is complete. -/
theorem reopens_iff (hlinked : s.linked = some k) :
    (∀ t, Undisturbed k s t → ∀ pid options fails object,
      ((open_or_create_managed_mapping pid name options fails).exec t).1 = .ok object →
        state_word object ((open_or_create_managed_mapping pid name options fails).exec t).2 ≠
          ManagedChannelState.destroying.word) ↔
      ¬ (state_word k s = ManagedChannelState.destroying.word ∧ Complete name (s.objects k)) := by
  constructor
  · rintro hreopens ⟨hdestroying, object_name, protocol, hname, hsize, hfits, hvalidated⟩
    let options : ManagedChannelOptions :=
      { message_capacity := (s.objects k).memory.header.message_capacity
        max_message_size := (s.objects k).memory.header.max_message_size, protocol := protocol }
    obtain ⟨hresult, _, hcontents⟩ :=
      @open_or_create_exec 0 s name object_name options (fun _ => false) hname rfl
    simp only [hlinked, Option.getD_some, reduceCtorEq, if_false] at hresult hcontents
    have hready : (s.objects k).contents.ready = true := by
      unfold validated at hvalidated
      split at hvalidated
      · cases hvalidated
      next hheader =>
      simp only [not_or, ne_eq, not_not] at hheader
      exact decide_eq_true hheader.2.2.2.2.2.2.2
    have hpositive : (s.objects k).contents.size ≠ 0 := by
      have hheader : 0 < sizeof_managed_shared_header := by decide
      exact (hheader.trans_le hsize).ne'
    have hprobed : (probed (s.objects k).contents object_name fun _ => false) = .ok false := by
      simp only [probed, Bool.false_eq_true, if_false, if_neg hpositive, hready, Bool.not_true]
      have hsize' : sizeof_managed_shared_header ≤ (s.objects k).contents.size := hsize
      have hfits' : ¬ (s.objects k).contents.size > 2 ^ 64 - 1 := not_lt.mpr hfits
      rw [if_pos hsize', if_neg hfits']
    have hmapping : (mapping_of k (s.objects k).contents object_name protocol fun _ => false) = .ok k := by
      have hsizes : ¬ ((s.objects k).contents.size < sizeof_managed_shared_header ∨
          (s.objects k).contents.size > 2 ^ 64 - 1) := not_or.mpr ⟨not_lt.mpr hsize, not_lt.mpr hfits⟩
      have hvalid : validated (s.objects k).contents.memory.header (s.objects k).contents.size object_name
          protocol = .ok () := hvalidated
      simp only [mapping_of, Bool.false_eq_true, if_false, if_neg hsizes, hvalid]
    have hreturned : opened_or_created k (s.objects k).contents object_name options (fun _ => false) =
        (.ok k, (s.objects k).contents) := by
      have hcapacity : (s.objects k).contents.memory.header.message_capacity = options.message_capacity := rfl
      have hmax : (s.objects k).contents.memory.header.max_message_size = options.max_message_size := rfl
      simp only [opened_or_created, hprobed, initialized_or_mapped, matched, options, hmapping,
        Bool.false_eq_true, if_false]
      simp only [hcapacity, hmax, options, ne_eq, not_true_eq_false, or_self, if_false]
    rw [hreturned] at hresult hcontents
    refine hreopens s ⟨hlinked, .refl _, rfl⟩ 0 options (fun _ => false) k hresult ?_
    rw [← hdestroying]
    exact congrArg (fun c : Contents => c.memory.header.state) hcontents
  · intro hnot t ht pid options fails object hok hdestroying
    cases hname : normalize_name name >>= managed_object_name with
    | error error =>
      unfold open_or_create_managed_mapping at hok
      rw [hname] at hok
      cases hok
    | ok object_name =>
      cases hopen : fails .shm_open with
      | true =>
        unfold open_or_create_managed_mapping at hok
        simp only [hname, hopen, if_true] at hok
        cases hok
      | false =>
        obtain ⟨hresult, _, hcontents⟩ := @open_or_create_exec pid t name object_name options fails hname hopen
        simp only [ht.linked, Option.getD_some, reduceCtorEq, if_false] at hresult hcontents
        rw [hok] at hresult
        obtain ⟨rfl, hreturned⟩ := opened_or_created_ok hresult.symm
        have hword := congrArg (fun c : Contents => c.memory.header.state) hcontents
        change state_word object _ = _ at hword
        rw [hword] at hdestroying
        rcases hreturned with hhealthy | ⟨hsame, hsize, hfits, hvalidated⟩
        · rw [hhealthy] at hdestroying
          cases hdestroying
        · rw [hsame] at hdestroying
          have hcomplete : Complete name (t.objects object) :=
            ⟨object_name, options.protocol, hname, hsize, hfits, hvalidated⟩
          exact hnot ⟨ht.state.symm.trans hdestroying, (ht.outline.complete ht.state).mp hcomplete⟩

end

end shmchan.managed
