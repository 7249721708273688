import Shmchan.Managed.Management.Rely

open process

namespace shmchan.managed

/-- `pid` holds the lock of one object, and no other. -/
structure Flocked (pid k : Nat) (s : Namespace) : Prop where
  allocated : k < s.next
  exclusive : (s.objects k).exclusive = some pid
  only : ∀ j, j ≠ k → (s.objects j).exclusive ≠ some pid

/-- `pid` may initialise the object it has locked: it is not a live channel,
    and it still has the name. -/
structure Initialising (failures : Bool) (pid k : Nat) (s : Namespace) : Prop extends Flocked pid k s where
  unready : s.late = false → (s.objects k).ready = false
  named : failures = false → s.stray = false → s.linked = some k

/-- What `unlink` and `open_or_create` look at. -/
def ManagedSharedHeader.stamp (h : ManagedSharedHeader) : Nat × Nat × Nat :=
  (h.magic, h.mapping_size, h.initialization)

/-- A store of the initialisation before the ready store: what it leaves of the
    stamp depends on the stamp alone, and it never says ready. -/
structure PlainStore (f : Memory → Memory) : Prop where
  stamp : ∀ m m', m.header.stamp = m'.header.stamp → (f m).header.stamp = (f m').header.stamp
  initialization : ∀ m, (f m).header.initialization = m.header.initialization ∨
    (f m).header.initialization = 0

section

variable {W : Nat → Conduct} {failures : Bool} {pid other k : Nat} {s s' : Namespace}

theorem Flocked.rely (h : Flocked pid k s) (hrely : NamespaceRely W pid s s') : Flocked pid k s' :=
  ⟨h.allocated.trans_le hrely.next, (hrely.lock k).mpr h.exclusive,
    fun j hj => mt (hrely.lock j).mp (h.only j hj)⟩

theorem Initialising.rely (h : Initialising failures pid k s) (hrely : NamespaceRely W pid s s') :
    Initialising failures pid k s' := by
  refine ⟨h.toFlocked.rely hrely, fun hlate => ?_, fun hfailures hstray => ?_⟩
  · rw [(hrely.locked k h.exclusive).ready]
    exact h.unready (hrely.late hlate)
  · exact hrely.linked hstray k h.exclusive (h.named hfailures (hrely.stray hstray))

/-- What the holder of the lock does to an object that is not ready, as the
    others see it. -/
theorem Flocked.set_object (h : Flocked pid k s) {f : ShmObject → ShmObject}
    (hf : (f (s.objects k)).exclusive = (s.objects k).exclusive)
    (hunready : s.late = false → (s.objects k).ready = false) :
    Flocked pid k (s.set_object k f) ∧
      ∀ other, other ≠ pid → NamespaceRely W other s (s.set_object k f) := by
  constructor
  · refine ⟨h.allocated, ?_, fun j hj => ?_⟩
    · rw [set_object_self, hf]
      exact h.exclusive
    · rw [set_object_of_ne hj]
      exact h.only j hj
  · intro other hother
    refine .set_object (by rw [hf]) (fun hexclusive => ?_) fun hlate hready => ?_
    · rw [h.exclusive] at hexclusive
      exact absurd (Option.some.inj hexclusive).symm hother
    · rw [hunready hlate] at hready
      cases hready

/-- What an initialising process does to its object keeps the invariant. -/
theorem Initialising.set_object (h : Initialising failures pid k s) (hinv : NamespaceInv failures s)
    {f : ShmObject → ShmObject} (hf : (f (s.objects k)).exclusive = (s.objects k).exclusive)
    (hsized : s.late = false → (f (s.objects k)).ready = true →
      sizeof_managed_shared_header ≤ (f (s.objects k)).size) :
    NamespaceInv failures (s.set_object k f) ∧
      (∀ other, other ≠ pid → NamespaceRely W other s (s.set_object k f)) ∧
      Flocked pid k (s.set_object k f) := by
  obtain ⟨hlocked, hothers⟩ := h.toFlocked.set_object hf h.unready
  refine ⟨?_, hothers, hlocked⟩
  refine hinv.set_object h.allocated hsized (fun hfailures hstray _ => h.named hfailures hstray) ?_
  intro _ hexclusive
  rw [hf, h.exclusive] at hexclusive
  cases hexclusive

/-- Such a store that never says ready keeps the process initialising. -/
theorem Initialising.plain (h : Initialising failures pid k s) (hinv : NamespaceInv failures s)
    {f : ShmObject → ShmObject} (hf : (f (s.objects k)).exclusive = (s.objects k).exclusive)
    (hready : (s.objects k).ready = false → (f (s.objects k)).ready = false) :
    NamespaceInv failures (s.set_object k f) ∧
      (∀ other, other ≠ pid → NamespaceRely W other s (s.set_object k f)) ∧
      Initialising failures pid k (s.set_object k f) := by
  have hunready (hlate : s.late = false) : (f (s.objects k)).ready = false := hready (h.unready hlate)
  obtain ⟨hinv', hothers, hlocked⟩ := h.set_object hinv hf fun hlate hfready =>
    absurd (hunready hlate) (by rw [hfready]; exact Bool.noConfusion)
  refine ⟨hinv', hothers, hlocked, fun hlate => ?_, h.named⟩
  rw [set_object_self]
  exact hunready hlate

theorem ready_eq_false {o : ShmObject} :
    o.ready = false ↔ o.memory.header.initialization ≠ managed_initialization_ready := by
  rw [ShmObject.ready, decide_eq_false_iff_not]

theorem PlainStore.unready {f : Memory → Memory} (h : PlainStore f) {o : ShmObject}
    (ho : o.ready = false) : ({ o with memory := f o.memory } : ShmObject).ready = false := by
  rw [ready_eq_false] at ho ⊢
  rcases h.initialization o.memory with hkeep | hzero
  · rw [hkeep]
    exact ho
  · rw [hzero]
    decide

theorem Maintained.stamp {o o' : ShmObject} (h : Maintained o o') :
    o'.memory.header.stamp = o.memory.header.stamp := by
  have hidentity := h.identity
  simp only [ManagedSharedHeader.identity, List.cons.injEq] at hidentity
  obtain ⟨hmagic, _, _, hmapping, _, _, _, _, _, _, _, _, _, _, hinitialization, _⟩ := hidentity
  rw [ManagedSharedHeader.stamp, ManagedSharedHeader.stamp, hmagic, hmapping, hinitialization]

theorem ftruncate_safe (h : Initialising failures pid k s) (size : Nat) :
    Safe (name_reliance W failures) pid
      (fun _ s' => Initialising failures pid k s' ∧ (s'.objects k).size = size) (ftruncate k size) s := by
  intro s' hrely hinv _
  have hready {o : ShmObject} (ho : o.ready = false) :
      ({ o with size, memory := if size = 0 ∨ o.size = 0 then zeroed else o.memory } : ShmObject).ready =
        false := by
    by_cases hzero : size = 0 ∨ o.size = 0
    · simp only [if_pos hzero]
      rfl
    · simp only [if_neg hzero]
      exact ho
  obtain ⟨hinv', hothers, hnext⟩ := (h.rely hrely).plain hinv
    (f := fun o => { o with size, memory := if size = 0 ∨ o.size = 0 then zeroed else o.memory }) rfl hready
  refine ⟨hinv', hothers, hnext, ?_⟩
  rw [set_object_self]

/-- Plain stores, whatever the operations write in between. -/
theorem stores_safe {updates : List (Memory → Memory)} (hupdates : ∀ f ∈ updates, PlainStore f)
    {size : Nat} {m : Memory} (h : Initialising failures pid k s) (hsize : (s.objects k).size = size)
    (hstamp : (s.objects k).memory.header.stamp = m.header.stamp) :
    Safe (name_reliance W failures) pid
      (fun _ s' => Initialising failures pid k s' ∧ (s'.objects k).size = size ∧
        (s'.objects k).memory.header.stamp = (updates.foldl (fun m f => f m) m).header.stamp)
      (mapped k (.stores updates)) s := by
  induction updates generalizing s m with
  | nil => exact ⟨h, hsize, hstamp⟩
  | cons f rest ih =>
    intro s' hrely hinv _
    have hf := hupdates f List.mem_cons_self
    have hkept := hrely.locked k h.exclusive
    obtain ⟨hinv', hothers, hnext⟩ := (h.rely hrely).plain hinv
      (f := fun o => { o with memory := f o.memory }) rfl hf.unready
    refine ⟨hinv', hothers, ih (fun g hg => hupdates g (List.mem_cons_of_mem f hg)) hnext ?_ ?_⟩
    · rw [set_memory_self]
      exact hkept.size.trans hsize
    · rw [set_memory_self]
      exact hf.stamp _ _ (hkept.stamp.trans hstamp)

/-- The stores of an initialisation up to the ready store. -/
theorem plain_stores (options : ManagedChannelOptions) (layout : ManagedLayout) :
    ∀ f ∈ initialize_prologue options layout, PlainStore f := by
  intro f hf
  rcases List.mem_append.mp hf with hheader | hslots
  · simp only [initialize_header, List.mem_cons, List.not_mem_nil, or_false] at hheader
    rcases hheader with rfl | hheader
    · exact ⟨fun _ _ _ => rfl, fun _ => .inr rfl⟩
    rcases hheader with rfl | rfl | rfl | rfl | rfl | rfl | rfl | rfl | rfl | rfl | rfl | rfl | rfl |
      rfl | rfl | rfl | rfl | rfl | rfl | rfl | rfl | rfl | rfl
    all_goals
      refine ⟨fun m m' hstamp => ?_, fun m => ?_⟩
      · simp only [ManagedSharedHeader.stamp, Prod.mk.injEq, Memory.set_header_header] at hstamp ⊢
        simp only [hstamp, and_self]
      · simp only [Memory.set_header_header, true_or, or_true]
  · obtain ⟨index, _, rfl⟩ := List.mem_map.mp hslots
    exact ⟨fun m m' hstamp => hstamp, fun m => .inl rfl⟩

/-- What the stores of an initialisation make of the header, whatever was there. -/
theorem prologue_stamp (options : ManagedChannelOptions) (layout : ManagedLayout) (m : Memory) :
    ((initialize_prologue options layout).foldl (fun m f => f m) m).header.stamp =
      (managed_simple_magic, layout.mapping_size, 0) := by
  have hslots (m : Memory) (capacity : Nat) :
      ((initialize_slots capacity).foldl (fun m f => f m) m).header = m.header := by
    rw [initialize_slots, List.foldl_map]
    induction List.range capacity generalizing m with
    | nil => rfl
    | cons index rest ih => exact ih _
  rw [initialize_prologue, List.foldl_append, ManagedSharedHeader.stamp, hslots]
  rfl

theorem mapped_stores_append (k : Nat) (first rest : List (Memory → Memory)) :
    mapped k (.stores (first ++ rest)) =
      mapped k (.stores first) >>= fun _ => mapped k (.stores rest) := by
  induction first with
  | nil => rfl
  | cons f first ih =>
    have hcons (updates : List (Memory → Memory)) : mapped k (.stores (f :: updates)) =
        .act (fun _ => true) (Namespace.set_memory k f) fun _ => mapped k (.stores updates) := rfl
    rw [List.cons_append, hcons, hcons, ih]
    rfl

/-- The ready store: the last step of an initialisation. -/
theorem ready_store_safe {layout : ManagedLayout} (h : Initialising failures pid k s)
    (hsize : (s.objects k).size = layout.mapping_size)
    (hstamp : (s.objects k).memory.header.stamp = (managed_simple_magic, layout.mapping_size, 0))
    (hmapping : sizeof_managed_shared_header ≤ layout.mapping_size ∧ layout.mapping_size ≤ 2 ^ 64 - 1) :
    Safe (name_reliance W failures) pid
      (fun _ s' => Flocked pid k s' ∧ (s'.objects k).ready = true ∧ (s'.objects k).Recognised)
      (mapped k (.stores [fun m => m.set_header fun h =>
        { h with initialization := managed_initialization_ready }])) s := by
  intro s' hrely hinv _
  have hkept := hrely.locked k h.exclusive
  have hsize' : (s'.objects k).size = layout.mapping_size := hkept.size.trans hsize
  have hstamp' := hkept.stamp.trans hstamp
  simp only [ManagedSharedHeader.stamp, Prod.mk.injEq] at hstamp'
  obtain ⟨hinv', hothers, hlocked⟩ := (h.rely hrely).set_object hinv
    (f := fun o => { o with memory := o.memory.set_header fun h =>
      { h with initialization := managed_initialization_ready } }) rfl
    fun _ _ => hmapping.1.trans hsize'.ge
  refine ⟨hinv', hothers, hlocked, ?_, ?_⟩
  · rw [set_memory_self]
    rfl
  · rw [set_memory_self]
    refine ⟨⟨hmapping.1.trans hsize'.ge, hsize'.le.trans hmapping.2⟩, hstamp'.1, ?_⟩
    exact hstamp'.2.1.trans hsize'.symm

/-- What the initialisation of a locked object leaves. -/
structure Initialised (failures : Bool) (pid k : Nat) (result : Except Exception Nat) (s : Namespace) :
    Prop where
  locked : Flocked pid k s
  ok : ∀ mapping, result = .ok mapping → mapping = k ∧ (s.objects k).ready = true ∧ (s.objects k).Recognised
  error : ∀ error, result = .error error → failures = true

theorem refused {fails : Syscall → Bool} (hclean : failures = false → fails = fun _ => false)
    {call : Syscall} (hfails : fails call = true) : failures = true := by
  cases failures with
  | true => rfl
  | false =>
    rw [hclean rfl] at hfails
    cases hfails

theorem refused_mutex {fails : Syscall → Bool} (hclean : failures = false → fails = fun _ => false)
    {operation : String} (hfails : refused_mutex_call fails = some operation) : failures = true := by
  cases failures with
  | true => rfl
  | false =>
    rw [hclean rfl] at hfails
    cases hfails

/-- With usable options, the object becomes a channel that `unlink` recognises. -/
theorem initialize_managed_mapping_locked_safe {options : ManagedChannelOptions}
    {layout : ManagedLayout} {fails : Syscall → Bool} (object_name : String)
    (hlayout : checked_managed_layout options.message_capacity options.max_message_size = .ok layout)
    (hclean : failures = false → fails = fun _ => false) (h : Initialising failures pid k s) :
    Safe (name_reliance W failures) pid (Initialised failures pid k)
      (initialize_managed_mapping_locked k object_name options fails) s := by
  have hthrow {error : Exception} {s' : Namespace} (hfailures : failures = true)
      (hlocked : Flocked pid k s') : Initialised failures pid k (.error error) s' := by
    refine ⟨hlocked, fun _ hok => ?_, fun _ _ => hfailures⟩
    cases hok
  obtain ⟨_, _, _, _, hpayload, _, hmapping, hmapping_lt⟩ := checked_managed_layout_spec hlayout
  have hbounds : sizeof_managed_shared_header ≤ layout.mapping_size ∧
      layout.mapping_size ≤ 2 ^ 64 - 1 := by
    rw [sizeof_managed_shared_header]
    omega
  unfold initialize_managed_mapping_locked
  simp only [hlayout]
  split
  next hfails => exact hthrow (refused hclean hfails) h.toFlocked
  apply (ftruncate_safe h layout.mapping_size).bind
  rintro _ s₁ ⟨h₁, hsize₁⟩
  split
  next hfails => exact hthrow (refused hclean hfails) h₁.toFlocked
  apply (stores_safe (plain_stores options layout) h₁ hsize₁ rfl).bind
  rintro _ s₂ ⟨h₂, hsize₂, hstamp₂⟩
  rw [prologue_stamp] at hstamp₂
  split
  next hfails => exact hthrow (refused_mutex hclean hfails) h₂.toFlocked
  have hfinish : initialize_finish = initialize_finish.take 2 ++ initialize_finish.drop 2 := rfl
  have hplain : ∀ f ∈ initialize_finish.take 2, PlainStore f := by
    intro f hf
    simp only [initialize_finish, List.take, List.mem_cons, List.not_mem_nil, or_false] at hf
    rcases hf with rfl | rfl
    · exact ⟨fun _ _ hstamp => hstamp, fun _ => .inl rfl⟩
    · exact ⟨fun _ _ hstamp => hstamp, fun _ => .inl rfl⟩
  rw [hfinish, mapped_stores_append, Prog.bind_assoc]
  apply (stores_safe hplain h₂ hsize₂ rfl).bind
  rintro _ s₃ ⟨h₃, hsize₃, hstamp₃⟩
  apply (ready_store_safe h₃ hsize₃ (hstamp₃.trans hstamp₂) hbounds).bind
  rintro _ s₄ ⟨h₄, hready₄, hrecognised₄⟩
  split
  next hfails => exact hthrow (refused hclean hfails) h₄
  refine ⟨h₄, fun mapping hok => ?_, fun _ herror => ?_⟩
  · exact ⟨(Except.ok.inj hok).symm, hready₄, hrecognised₄⟩
  · cases herror

end

end shmchan.managed
