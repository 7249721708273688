import Shmchan.Managed.Confinement
import Shmchan.Managed.LayoutBounds
import Shmchan.Managed.Management.Sequential

open process

namespace shmchan.managed

/-- The mutex is held by `pid`, over a header with the right layout. -/
structure Bolted (shape : Shape) (pid : Nat) (m : Memory) : Prop extends Shaped shape m where
  held : m.header.mutex = .held pid

/-- A run that any process may disturb, and that ends as `post` says. -/
def Bounded {α : Type} (shape : Shape) (pid : Nat) (post : α → Memory → Prop) (p : Prog Memory α)
    (m : Memory) : Prop :=
  Confined (used_areas shape) (Disturbance pid) post p m

section

variable {shape : Shape} {pid : Nat} {m m' : Memory} {α β : Type}

theorem Bolted.disturbed (h : Bolted shape pid m) (hothers : Disturbance pid m m') :
    Bolted shape pid m' :=
  ⟨h.toShaped.disturbed hothers, (hothers.held h.held).1⟩

theorem Tidy.shaped {P : α → Prop} {p : Prog Memory α} (h : Tidy shape P p) (hm : Shaped shape m) :
    Bounded shape pid (fun a m' => P a ∧ Shaped shape m') p m :=
  AlwaysConfined.confined h (fun _ _ hothers h => h.disturbed hothers) (fun _ h => h)
    (fun _ _ hsteady h => h.steady hsteady) hm

theorem Tidy.bolted {P : α → Prop} {p : Prog Memory α} (h : Tidy shape P p) (hm : Bolted shape pid m) :
    Bounded shape pid (fun a m' => P a ∧ Bolted shape pid m') p m :=
  AlwaysConfined.confined h (fun _ _ hothers h => h.disturbed hothers) (fun _ h => h.toShaped)
    (fun _ _ hsteady h => ⟨h.toShaped.steady hsteady, hsteady.mutex.trans h.held⟩) hm

theorem Bounded.bind {mid : α → Memory → Prop} {post : β → Memory → Prop} {p : Prog Memory α}
    {f : α → Prog Memory β} (h : Bounded shape pid mid p m)
    (hf : ∀ a m', mid a m' → Bounded shape pid post (f a) m') : Bounded shape pid post (p >>= f) m :=
  Confined.bind h hf

/-- What the call on the mutex leaves. -/
structure AfterLock (shape : Shape) (pid : Nat) (result : LockResult) (m : Memory) : Prop where
  shaped : Shaped shape m
  held : result ≠ .busy → m.header.mutex = .held pid

theorem take_mutex_admits {receiving : Bool} {enabled : Memory → Bool}
    (henabled : ∀ m', SameInside shape m m' → enabled m' = enabled m) :
    (used_areas shape).Admits enabled (take_mutex pid receiving)
      (fun m => Prog.ret (lock_result m)) m := by
  refine ⟨⟨fun _ _ => rfl, fun _ _ => rfl⟩, henabled, fun m' hsame => ?_, fun m' hsame => ?_⟩
  · rw [lock_result, lock_result, hsame.header]
  · refine ⟨?_, hsame.waiters, hsame.slots, hsame.payloads⟩
    simp only [take_mutex, Memory.set_header_header, hsame.header]

theorem pthread_mutex_lock_bounded (receiving : Bool) (hm : Shaped shape m) :
    Bounded shape pid (AfterLock shape pid) (pthread_mutex_lock pid receiving) m := by
  intro m' hothers _
  refine ⟨take_mutex_admits fun m'' hsame => ?_, ?_, fun _ => rfl⟩
  · rw [hsame.header]
  · have hm' := hm.disturbed hothers
    exact ⟨hm'.capacity, hm'.max, hm'.stride⟩

theorem pthread_mutex_trylock_bounded (receiving : Bool) (hm : Shaped shape m) :
    Bounded shape pid (AfterLock shape pid) (pthread_mutex_trylock pid receiving) m := by
  intro m' hothers _
  have hm' := hm.disturbed hothers
  by_cases hheld : m'.header.mutex.is_held = true
  · have hbusy : lock_result m' = .busy := by
      unfold lock_result
      cases hmutex : m'.header.mutex <;> rw [hmutex] at hheld <;> first | rfl | cases hheld
    refine ⟨⟨?_, fun _ _ => rfl, fun m'' hsame => ?_, fun m'' hsame => ?_⟩, ?_, fun hne => absurd hbusy hne⟩
    · simp only [if_pos hheld]
      exact KeptOutside.refl m'
    · rw [lock_result, lock_result, hsame.header]
    · have hheld' : m''.header.mutex.is_held = true := by rw [hsame.header]; exact hheld
      simp only [if_pos hheld, if_pos hheld']
      exact hsame
    · simp only [if_pos hheld]
      exact hm'
  · have hadmits : (used_areas shape).Admits (fun _ => true) (take_mutex pid receiving)
        (fun m => Prog.ret (lock_result m)) m' := take_mutex_admits fun _ _ => rfl
    refine ⟨⟨?_, fun _ _ => rfl, hadmits.next, fun m'' hsame => ?_⟩, ?_, fun _ => ?_⟩
    · simp only [if_neg hheld]
      exact hadmits.keeps
    · have hfree' : ¬ m''.header.mutex.is_held = true := by rw [hsame.header]; exact hheld
      simp only [if_neg hheld, if_neg hfree']
      exact hadmits.same m'' hsame
    · simp only [if_neg hheld]
      exact ⟨hm'.capacity, hm'.max, hm'.stride⟩
    · simp only [if_neg hheld]
      rfl

/-- What the guard's constructor leaves. -/
structure AfterGuard (shape : Shape) (pid : Nat) (status : ChannelStatus) (m : Memory) : Prop where
  shaped : Shaped shape m
  held : status = .success → m.header.mutex = .held pid

theorem acquire_mutex_bounded (mode : ManagedLockMode) (lock_expires receiving : Bool)
    (hm : Shaped shape m) :
    Bounded shape pid (AfterLock shape pid) (acquire_mutex pid mode lock_expires receiving) m := by
  unfold acquire_mutex
  split
  · exact pthread_mutex_lock_bounded receiving hm
  · exact pthread_mutex_trylock_bounded receiving hm
  · split
    · exact pthread_mutex_trylock_bounded receiving hm
    · exact pthread_mutex_lock_bounded receiving hm

theorem managed_mutex_guard_bounded (mode : ManagedLockMode) (lock_expires receiving : Bool)
    (hm : Shaped shape m) :
    Bounded shape pid (AfterGuard shape pid) (managed_mutex_guard pid mode lock_expires receiving) m := by
  apply (acquire_mutex_bounded mode lock_expires receiving hm).bind
  intro result m₁ hlocked
  cases result with
  | acquired => exact ⟨hlocked.shaped, fun _ => hlocked.held (by decide)⟩
  | owner_dead =>
    apply (recover_managed_slots_tidy.bolted ⟨hlocked.shaped, hlocked.held (by decide)⟩).bind
    rintro recovered m₂ ⟨_, hheld⟩
    cases recovered with
    | true => exact ⟨hheld.toShaped, fun _ => hheld.held⟩
    | false =>
      refine ⟨hheld.toShaped, ?_⟩
      rintro ⟨⟩
  | busy =>
    refine ⟨hlocked.shaped, fun h => ?_⟩
    split at h <;> cases h

theorem guard_unlock_bounded (hm : Shaped shape m) :
    Bounded shape pid (fun _ m' => Shaped shape m') (guard_unlock pid) m := by
  intro m' hothers _
  have hm' := hm.disturbed hothers
  by_cases hheld : m'.header.mutex = .held pid
  · refine ⟨⟨?_, fun _ _ => rfl, fun _ _ => rfl, fun m'' hsame => ?_⟩, ?_⟩
    · simp only [if_pos hheld]
      exact ⟨fun _ _ => rfl, fun _ _ => rfl⟩
    · have hheld' : m''.header.mutex = .held pid := by rw [hsame.header]; exact hheld
      simp only [if_pos hheld, if_pos hheld']
      refine ⟨?_, hsame.waiters, hsame.slots, hsame.payloads⟩
      simp only [release_mutex, Memory.set_header_header, hsame.header]
    · simp only [if_pos hheld]
      exact ⟨hm'.capacity, hm'.max, hm'.stride⟩
  · refine ⟨⟨?_, fun _ _ => rfl, fun _ _ => rfl, fun m'' hsame => ?_⟩, ?_⟩
    · simp only [if_neg hheld]
      exact KeptOutside.refl m'
    · have hfree' : ¬ m''.header.mutex = .held pid := by rw [hsame.header]; exact hheld
      simp only [if_neg hheld, if_neg hfree']
      exact hsame
    · simp only [if_neg hheld]
      exact hm'

/-- The message that `receive_impl` copies lies in the area of its slot, since
    the size was checked and nobody else writes the slots meanwhile. -/
theorem receive_critical_bounded (hm : Bolted shape pid m) (mode : ManagedLockMode) (alloc_fails : Bool) :
    Bounded shape pid (fun _ m' => Shaped shape m') (receive_critical pid mode alloc_fails) m := by
  have hret {exit : ReceiveExit} {m' : Memory} (h : Bolted shape pid m') :
      Bounded shape pid (fun _ m' => Shaped shape m') (.ret exit) m' := h.toShaped
  have hmark : Tidy shape (fun _ => True) (.store mark_inside) := by
    apply AlwaysConfined.store
    · exact fun m _ => ⟨fun _ _ => rfl, fun _ _ => rfl⟩
    · exact fun m _ => ⟨rfl, rfl, rfl, rfl⟩
    · exact fun m m' _ hsame => ⟨hsame.header, hsame.waiters, hsame.slots, hsame.payloads⟩
  unfold receive_critical
  apply (hmark.bolted hm).bind
  rintro _ m₁ ⟨_, h₁⟩
  apply (validate_managed_slots_tidy.bolted h₁).bind
  rintro valid m₂ ⟨_, h₂⟩
  split
  · exact hret h₂
  apply (load_capacity_tidy.bolted h₂).bind
  rintro _ m₃ ⟨rfl, h₃⟩
  apply ((find_first_ready_tidy shape.capacity 0 shape.capacity _ (by omega) le_rfl).bolted h₃).bind
  rintro selected m₄ ⟨hle, h₄⟩
  split
  next hselected =>
    have hlt : selected < shape.capacity := lt_of_le_of_ne hle hselected
    apply Confined.load_bind (A := Bolted shape pid) (fun _ _ hothers h => h.disturbed hothers) h₄
      KeptOutside.refl
    · intro s s' _ hsame
      simp only [ready_slot_is_corrupt, hsame.header, hsame.slots selected hlt]
    intro m₅ h₅
    split
    · apply ((mark_managed_broken_tidy _).bolted h₅).bind
      rintro _ m₆ ⟨_, h₆⟩
      exact hret h₆
    next hcorrupt =>
    split
    · exact hret h₅
    have hsize : (m₅.slots selected).payload_size ≤ shape.max := by
      simp only [ready_slot_is_corrupt, Bool.or_eq_true, decide_eq_true_eq, not_or, not_lt, h₅.max] at hcorrupt
      exact hcorrupt.1.1
    apply Confined.load_bind
      (A := fun m => Bolted shape pid m ∧ (m.slots selected).payload_size ≤ shape.max)
      _ ⟨h₅, hsize⟩ KeptOutside.refl
    · rintro s s' ⟨hs, hsize⟩ hsame
      simp only [Memory.message, hsame.slots selected hlt, Prod.mk.injEq, true_and]
      apply List.map_congr_left
      intro k hk
      have hk' : k < (s.slots selected).payload_size := List.mem_range.mp hk
      have hbase : s'.payload_base selected = s.payload_base selected := by
        rw [Memory.payload_base, Memory.payload_base, hsame.header]
      rw [hbase]
      apply hsame.payloads
      refine ⟨selected, k, hlt, hk'.trans_le hsize, ?_⟩
      rw [Memory.payload_base, hs.stride]
    · rintro m₆ ⟨h₆, _⟩
      apply ((release_slot_tidy hlt _).bolted h₆).bind
      rintro _ m₇ ⟨_, h₇⟩
      exact hret h₇
    · rintro s s' hothers ⟨hs, hsize⟩
      refine ⟨hs.disturbed hothers, ?_⟩
      rw [(hothers.held hs.held).2]
      exact hsize
  · apply (operation_state_tidy.bolted h₄).bind
    rintro locked_state m₅ ⟨_, h₅⟩
    split
    · exact hret h₅
    split
    · exact hret h₅
    split
    · exact hret h₅
    apply ((Tidy.read_header fun h => h.event_epoch).bolted h₅).bind
    rintro epoch m₆ ⟨_, h₆⟩
    exact hret h₆

/-- A run after which the layout is still the accepted one. -/
def Runs {α : Type} (shape : Shape) (pid : Nat) (p : Prog Memory α) (m : Memory) : Prop :=
  Bounded shape pid (fun _ m' => Shaped shape m') p m

theorem Tidy.runs {P : α → Prop} {p : Prog Memory α} (h : Tidy shape P p) (hm : Shaped shape m)
    {f : α → Prog Memory β} (hf : ∀ a m', P a → Shaped shape m' → Runs shape pid (f a) m') :
    Runs shape pid (p >>= f) m := by
  apply (h.shaped hm).bind
  rintro a m' ⟨ha, hm'⟩
  exact hf a m' ha hm'

theorem Runs.bind {p : Prog Memory α} {f : α → Prog Memory β} (h : Runs shape pid p m)
    (hf : ∀ a m', Shaped shape m' → Runs shape pid (f a) m') : Runs shape pid (p >>= f) m :=
  Bounded.bind h fun a m' hm' => hf a m' hm'

theorem guard_unlock_runs {a : α} (hm : Shaped shape m) :
    Runs shape pid (guard_unlock pid >>= fun _ => .ret a) m := by
  apply Runs.bind (guard_unlock_bounded hm)
  intro _ m' hm'
  exact hm'

theorem count_timeout_runs {a : α} {c : Prop} [Decidable c] (f : ManagedCounters → ManagedCounters)
    (hm : Shaped shape m) :
    Runs shape pid ((if c then .store fun m => m.set_counters f else .ret ()) >>= fun _ =>
      guard_unlock pid >>= fun _ => .ret a) m := by
  have htidy : Tidy shape (fun _ => True)
      (if c then .store fun m => m.set_counters f else .ret () : Prog Memory Unit) := by
    split
    · exact Tidy.set_counters f
    · exact Tidy.ret trivial
  apply htidy.runs hm
  intro _ m' _ hm'
  exact guard_unlock_runs hm'

theorem send_impl_runs (hcapacity : 0 < shape.capacity) (hm : Shaped shape m) (message : Bytes)
    (mode : ManagedLockMode) (c : Circumstances) :
    Runs shape pid (send_impl pid message mode c) m := by
  unfold send_impl
  refine Tidy.runs (P := fun max => max = shape.max) (Tidy.load_header _ fun _ hm => hm.max) hm ?_
  rintro _ m₁ rfl h₁
  split
  · exact h₁
  next hlength =>
  apply operation_state_tidy.runs h₁
  intro before_lock m₂ _ h₂
  split
  · exact h₂
  apply Bounded.bind (managed_mutex_guard_bounded mode c.lock_expires false h₂)
  intro status m₃ h₃
  split
  · exact count_timeout_runs _ h₃.shaped
  next hstatus =>
  apply Bounded.bind ((send_critical_tidy hcapacity (by omega) mode).bolted
    ⟨h₃.shaped, h₃.held (not_not.mp hstatus)⟩)
  rintro exit m₄ ⟨_, h₄⟩
  apply Runs.bind (guard_unlock_bounded h₄.toShaped)
  intro _ m₅ h₅
  cases exit with
  | leave status => exact h₅
  | published =>
    apply signal_managed_event_tidy.runs h₅
    intro _ m₆ _ h₆
    apply operation_state_tidy.runs h₆
    intro after m₇ _ h₇
    exact h₇
  | wait epoch =>
    apply (wait_for_event_tidy epoch c.wait_expires _).runs h₅
    intro expired m₆ _ h₆
    split
    · apply (Tidy.set_counters _).runs h₆
      intro _ m₇ _ h₇
      exact h₇
    · exact h₆

theorem receive_impl_runs (hm : Shaped shape m) (mode : ManagedLockMode) (c : Circumstances) :
    Runs shape pid (receive_impl pid mode c) m := by
  unfold receive_impl
  apply operation_state_tidy.runs hm
  intro before_lock m₁ _ h₁
  split
  · exact h₁
  apply Bounded.bind (managed_mutex_guard_bounded mode c.lock_expires true h₁)
  intro status m₂ h₂
  split
  · exact count_timeout_runs _ h₂.shaped
  next hstatus =>
  apply Runs.bind (receive_critical_bounded ⟨h₂.shaped, h₂.held (not_not.mp hstatus)⟩ mode c.alloc_fails)
  intro exit m₃ h₃
  apply Runs.bind (guard_unlock_bounded h₃)
  intro _ m₄ h₄
  cases exit with
  | leave status => exact h₄
  | threw => exact h₄
  | took payload =>
    apply signal_managed_event_tidy.runs h₄
    intro _ m₅ _ h₅
    exact h₅
  | wait epoch =>
    apply (wait_for_event_tidy epoch c.wait_expires _).runs h₄
    intro expired m₅ _ h₅
    split
    · apply (Tidy.set_counters _).runs h₅
      intro _ m₆ _ h₆
      exact h₆
    · exact h₅

theorem close_runs (hm : Shaped shape m) : Runs shape pid (close pid) m := by
  unfold close
  apply Bounded.bind (managed_mutex_guard_bounded .blocking false false hm)
  intro status m₁ h₁
  split
  · exact guard_unlock_runs h₁.shaped
  have hclose : Tidy shape (fun _ => True) close_critical := by
    unfold close_critical
    apply Tidy.bind (Tidy.read_header fun h => h.state)
    intro current _
    split
    · exact Tidy.ret trivial
    · exact Tidy.bind (Tidy.set_header fun _ => ⟨rfl, rfl, rfl, rfl⟩) fun _ _ => Tidy.ret trivial
  apply hclose.runs h₁.shaped
  intro stored m₂ _ h₂
  apply Runs.bind (guard_unlock_bounded h₂)
  intro _ m₃ h₃
  split
  · apply signal_managed_event_tidy.runs h₃
    intro _ m₄ _ h₄
    exact h₄
  · exact h₃

theorem stats_runs (hm : Shaped shape m) : Runs shape pid (stats pid) m := by
  unfold stats
  apply (Tidy.read_header fun h => h).runs hm
  intro header m₁ _ h₁
  apply Bounded.bind (managed_mutex_guard_bounded .blocking false false h₁)
  intro status m₂ h₂
  split
  · apply (Tidy.read_header fun h => h).runs h₂.shaped
    intro header m₃ _ h₃
    exact guard_unlock_runs h₃
  · apply (Tidy.read_header fun h => h).runs h₂.shaped
    intro header m₃ _ h₃
    exact guard_unlock_runs h₃

/-- No pass of an operation leaves the areas of the channel, whatever its
    slots and the other fields of its header hold and become. -/
theorem attempt_runs (hcapacity : 0 < shape.capacity) (hm : Shaped shape m) (op : Op) (c : Circumstances) :
    Runs shape pid (attempt pid op c) m := by
  cases op with
  | send message mode => exact send_impl_runs hcapacity hm message mode c
  | receive mode => exact receive_impl_runs hm mode c
  | close => exact close_runs hm
  | stats => exact stats_runs hm
  | unlink =>
    apply Tidy.runs (Tidy.set_header fun _ => ⟨rfl, rfl, rfl, rfl⟩) hm
    intro _ m₁ _ h₁
    apply signal_managed_event_tidy.runs h₁
    intro _ m₂ _ h₂
    exact h₂

end

/-- The layout that a header announces. -/
def ManagedSharedHeader.shape (h : ManagedSharedHeader) : Shape :=
  ⟨h.message_capacity, h.max_message_size, h.payload_stride⟩

/-- The descriptors and the payload bytes that the operations address through
    a header lie in the mapping. -/
structure Contained (header : ManagedSharedHeader) (mapping_size : Nat) : Prop where
  descriptors : ∀ i, i < header.message_capacity →
    header.slots_offset + i * sizeof_managed_message_slot + sizeof_managed_message_slot ≤ mapping_size
  payloads : ∀ offset, PayloadByte header.shape offset → header.payload_offset + offset < mapping_size

/-- What `validate_managed_mapping` has checked of the layout. -/
theorem validated_layout {header : ManagedSharedHeader} {mapping_size : Nat} {object_name : String}
    {protocol : ProtocolDescriptor} (hok : validated header mapping_size object_name protocol = .ok ()) :
    ∃ layout, checked_managed_layout header.message_capacity header.max_message_size = .ok layout ∧
      layout.mapping_size = mapping_size ∧ layout.slots_offset = header.slots_offset ∧
        layout.payload_offset = header.payload_offset ∧ layout.payload_stride = header.payload_stride := by
  unfold validated at hok
  split at hok
  · cases hok
  split at hok
  · cases hok
  unfold validate_layout at hok
  split at hok
  · cases hok
  next layout hlayout =>
  split at hok
  · cases hok
  next hsame =>
  simp only [not_or, ne_eq, not_not] at hsame
  exact ⟨layout, hlayout, hsame⟩

theorem validated_contained {header : ManagedSharedHeader} {mapping_size : Nat} {object_name : String}
    {protocol : ProtocolDescriptor} (hok : validated header mapping_size object_name protocol = .ok ()) :
    0 < header.message_capacity ∧ Contained header mapping_size := by
  obtain ⟨layout, hlayout, hsize, hslots, hpayload, hstride⟩ := validated_layout hok
  have hexact := checked_managed_layout_exact hlayout
  refine ⟨(checked_managed_layout_spec hlayout).1, fun i hi => ?_, ?_⟩
  · have hinside := hexact.inside (.descriptor i) hi
    have hlast : layout.slots_offset + i * 64 + 63 ∈ (Area.descriptor i).bytes layout header.max_message_size := by
      simp only [Area.bytes, Area.start, Area.length, sizeof_managed_message_slot, Set.mem_Ico]
      omega
    have hlt := (Set.mem_Ico.mp (hinside hlast)).2
    rw [← hslots, ← hsize, sizeof_managed_message_slot]
    omega
  · rintro offset ⟨index, byte, hindex, hbyte, rfl⟩
    have hinside := hexact.inside (.payload index) hindex
    have hmem : layout.payload_offset + (index * layout.payload_stride + byte) ∈
        (Area.payload index).bytes layout header.max_message_size := by
      have hlt : byte < header.max_message_size := hbyte
      simp only [Area.bytes, Area.start, Area.length, Set.mem_Ico]
      omega
    have hlt := (Set.mem_Ico.mp (hinside hmem)).2
    rw [hpayload, hstride, hsize] at hlt
    exact hlt

/-- `checked_managed_layout` throws exactly for the options whose exact total is
    no positive `off_t`; none of its operations wraps, except the sum inside one
    alignment on the way to a refusal, whose result is right; what it returns is
    the exact layout. Through a header that `validate_managed_mapping` accepts,
    whatever else it and the slots hold and become, no operation ever leaves the
    mapping. -/
theorem managed_layout_exact :
    (∀ capacity max_message_size : Nat,
      ((∃ error, checked_managed_layout capacity max_message_size = .error error) ↔
        capacity = 0 ∨ max_message_size = 0 ∨ max_message_size > 2 ^ 32 - 1 ∨
          exact_total capacity max_message_size > 2 ^ 63 - 1) ∧
      (recorded_managed_layout capacity max_message_size).2 =
        checked_managed_layout capacity max_message_size ∧
      (∀ op ∈ (recorded_managed_layout capacity max_message_size).1, op.wraps →
        capacity = 2 ^ 58 - 8 ∧ (op = added (2 ^ 64 - 64) 64 ∨ op = subtracted 0 1)) ∧
      ∀ layout, checked_managed_layout capacity max_message_size = .ok layout →
        ExactLayout capacity max_message_size layout) ∧
    ∀ (s : Namespace) (object mapping_size : Nat) (object_name : String) (protocol : ProtocolDescriptor)
      (pid : Nat) (op : Op) (c : Circumstances),
      ((validate_managed_mapping object mapping_size object_name protocol).exec s).1 = .ok () →
        Contained (s.objects object).memory.header mapping_size ∧
          Runs (s.objects object).memory.header.shape pid (attempt pid op c) (s.objects object).memory := by
  refine ⟨fun capacity max_message_size => ⟨checked_managed_layout_error_iff,
    recorded_managed_layout_result capacity max_message_size,
    fun op hmem hwraps => recorded_managed_layout_wraps hmem hwraps,
    fun layout hok => checked_managed_layout_exact hok⟩, ?_⟩
  intro s object mapping_size object_name protocol pid op c hok
  rw [(validate_managed_mapping_looks mapping_size object_name protocol).exec] at hok
  obtain ⟨hcapacity, hcontained⟩ := validated_contained hok
  exact ⟨hcontained, attempt_runs hcapacity ⟨rfl, rfl, rfl⟩ op c⟩

/-- An object that holds a fresh channel of one slot. -/
def one_slot_object : Namespace where
  objects _ := { size := 576, memory := initialized one_slot one_slot_layout }

theorem managed_layout_exact_one_slot :
    ExactLayout 1 4 one_slot_layout ∧
      ((validate_managed_mapping 0 576 "ch" one_slot.protocol).exec one_slot_object).1 = .ok () ∧
      Contained (one_slot_object.objects 0).memory.header 576 ∧
      Runs (one_slot_object.objects 0).memory.header.shape 1 (attempt 1 (.send [7] .blocking) {})
        (one_slot_object.objects 0).memory := by
  have hok : ((validate_managed_mapping 0 576 "ch" one_slot.protocol).exec one_slot_object).1 = .ok () := by
    decide +kernel
  obtain ⟨hcontained, hruns⟩ :=
    managed_layout_exact.2 one_slot_object 0 576 "ch" one_slot.protocol 1 (.send [7] .blocking) {} hok
  exact ⟨(managed_layout_exact.1 1 4).2.2.2 one_slot_layout one_slot_layout_ok, hok, hcontained, hruns⟩

/-- The largest number of descriptors that the first guard lets through. -/
theorem managed_layout_sum_wraps :
    ∃ op ∈ (recorded_managed_layout (2 ^ 58 - 8) 1).1, op.wraps := by
  decide

end shmchan.managed
