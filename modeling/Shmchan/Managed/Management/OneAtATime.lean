import Shmchan.Managed.Management.Atomicity

open process

namespace shmchan.managed

/-- The two calls that initialise objects. -/
inductive Maker where
  | create
  | open_or_create
  deriving DecidableEq, Repr

def Maker.call (maker : Maker) (pid : Nat) (name : String) (options : ManagedChannelOptions)
    (fails : Syscall → Bool) : Prog Namespace (Except Exception Nat) :=
  match maker with
  | create => create_managed_mapping pid name options fails
  | open_or_create => open_or_create_managed_mapping pid name options fails

/-- The states of a name after `create` and `open_or_create` calls that did not
    overlap, each of which returned, threw, or was killed after some action. -/
inductive OneAtATime (name : String) : Namespace → Prop where
  | unnamed : OneAtATime name {}
  | returned {s : Namespace} (hbefore : OneAtATime name s) (maker : Maker) (pid : Nat)
      (options : ManagedChannelOptions) (fails : Syscall → Bool) :
      OneAtATime name ((maker.call pid name options fails).exec s).2
  | killed {s : Namespace} (hbefore : OneAtATime name s) (maker : Maker) (pid : Nat)
      (options : ManagedChannelOptions) (fails : Syscall → Bool) (count : Nat) :
      OneAtATime name (((maker.call pid name options fails).killed count s).on_death pid)

/-- A completely initialised channel that nobody has used: healthy and empty,
    every slot FREE and every payload byte zero, as its own options say. -/
structure Fresh (options : ManagedChannelOptions) (c : Contents) : Prop where
  layout : ∃ layout, checked_managed_layout options.message_capacity options.max_message_size = .ok layout ∧
    c = ⟨layout.mapping_size, initialized options layout⟩
  capacity : c.memory.header.message_capacity = options.message_capacity
  max : c.memory.header.max_message_size = options.max_message_size
  protocol : c.memory.header.protocol_id_value = options.protocol.id ∧
    c.memory.header.protocol_version = options.protocol.version
  healthy : c.memory.header.state = ManagedChannelState.healthy.word ∧
    c.memory.header.reason = BreakReason.none.word
  slots : ∀ i, c.memory.slots i = { state := ManagedSlotState.free.word, payload_size := 0, sequence := 0 }
  payloads : ∀ offset, c.memory.payloads offset = 0
  counts : c.memory.header.free_slots = options.message_capacity ∧
    c.memory.header.writing_messages = 0 ∧ c.memory.header.ready_messages = 0
  next : c.memory.header.next_sequence = 1

/-- An object that says ready is a fresh channel; its size is an `off_t`. -/
structure ShmObject.Whole (o : ShmObject) : Prop where
  size : o.size < 2 ^ 63
  fresh : o.ready = true → ∃ options, Fresh options o.contents

def Orderly (s : Namespace) : Prop := ∀ k, (s.objects k).Whole

/-- Every step of a call leaves the objects orderly, and so does its end. -/
def KeepsOrder {α : Type} (post : α → Namespace → Prop) (p : Prog Namespace α) (s : Namespace) : Prop :=
  CrashSafe (fun _ t => Orderly t) (fun a t => Orderly t ∧ post a t) p s

section

variable {pid k : Nat} {s t : Namespace} {options : ManagedChannelOptions} {layout : ManagedLayout}
  {fails : Syscall → Bool} {object_name : String} {α β : Type} {post : β → Namespace → Prop}

theorem fresh_initialized
    (hlayout : checked_managed_layout options.message_capacity options.max_message_size = .ok layout) :
    Fresh options ⟨layout.mapping_size, initialized options layout⟩ := by
  constructor
  · exact ⟨layout, hlayout, rfl⟩
  all_goals
    rw [initialized_eq]
    try exact fun _ => rfl
  all_goals first
    | rfl
    | exact ⟨rfl, rfl⟩
    | exact ⟨rfl, rfl, rfl⟩

theorem Orderly.set_object (h : Orderly s) {f : ShmObject → ShmObject} (hf : (f (s.objects k)).Whole) :
    Orderly (s.set_object k f) := by
  intro j
  by_cases hj : j = k
  · subst hj
    rw [set_object_self]
    exact hf
  · rw [set_object_of_ne hj]
    exact h j

/-- What the size and the memory of an object say. -/
theorem ShmObject.Whole.congr {o o' : ShmObject} (h : o.Whole) (hcontents : o'.contents = o.contents) :
    o'.Whole := by
  obtain ⟨hsize, hmemory⟩ := Contents.mk.inj hcontents
  constructor
  · rw [hsize]
    exact h.size
  · rw [ShmObject.ready, hmemory, hcontents]
    exact h.fresh

/-- An object that does not say ready. -/
theorem ShmObject.Whole.of_unready {o : ShmObject} (hsize : o.size < 2 ^ 63) (hready : o.ready = false) :
    o.Whole := by
  refine ⟨hsize, fun habsurd => ?_⟩
  rw [hready] at habsurd
  cases habsurd

/-- Locks do not matter. -/
theorem Orderly.set_locks (h : Orderly s) {f : ShmObject → ShmObject}
    (hf : ∀ o, (f o).contents = o.contents) : Orderly (s.set_object k f) :=
  h.set_object ((h k).congr (hf _))

theorem Orderly.unlock (h : Orderly s) : Orderly (s.unlock pid k) := h.set_locks fun _ => rfl

theorem Orderly.congr (h : Orderly s) (hobjects : t.objects = s.objects) : Orderly t := by
  intro j
  rw [hobjects]
  exact h j

theorem Orderly.add_object (h : Orderly s) : Orderly s.add_object := by
  intro j
  simp only [Namespace.add_object]
  by_cases hj : j = s.next
  · subst hj
    rw [Function.update_self]
    exact .of_unready (by norm_num) rfl
  · rw [Function.update_of_ne hj]
    exact h j

theorem KeepsOrder.bind {mid : α → Namespace → Prop} {p : Prog Namespace α} {f : α → Prog Namespace β}
    (h : KeepsOrder mid p s) (hf : ∀ a t, Orderly t → mid a t → KeepsOrder post (f a) t) :
    KeepsOrder post (p >>= f) s :=
  CrashSafe.bind h fun a t ht => hf a t ht.1 ht.2

theorem Looks.keepsOrder {p : Prog Namespace α} {a : α} (h : Looks s p a) (hs : Orderly s)
    {f : α → Prog Namespace β} (hf : KeepsOrder post (f a) s) : KeepsOrder post (p >>= f) s :=
  h.then hs hf

/-- Plain stores into an object that is not ready. -/
theorem plain_stores_keep_order {updates : List (Memory → Memory)} (hupdates : ∀ f ∈ updates, PlainStore f)
    (hs : Orderly s) (hready : (s.objects k).ready = false) :
    KeepsOrder (fun _ t => (t.objects k).ready = false ∧
        t = s.set_contents k ((s.objects k).contents.store updates)) (mapped k (.stores updates)) s := by
  induction updates generalizing s with
  | nil => exact ⟨hs, hready, set_contents_self.symm⟩
  | cons f rest ih =>
    have hf := (hupdates f List.mem_cons_self).unready hready
    have hs₁ : Orderly (s.set_memory k f) := hs.set_object (.of_unready (hs k).size hf)
    have hready₁ : ((s.set_memory k f).objects k).ready = false := by
      rw [set_memory_self]
      exact hf
    refine ⟨hs₁, ?_⟩
    refine (ih (fun g hg => hupdates g (List.mem_cons_of_mem f hg)) hs₁ hready₁).mono (fun _ _ h => h) ?_
    rintro _ t ⟨ht, hready', rfl⟩
    refine ⟨ht, hready', ?_⟩
    have hstep : s.set_memory k f = s.set_contents k ((s.objects k).contents.store [f]) := rfl
    rw [hstep, set_contents_contents, set_contents_set_contents]
    rfl

/-- From an empty object, only the ready store makes it say ready, and then it
    is a fresh channel. -/
theorem initialize_keeps_order (hs : Orderly s) (hsize : (s.objects k).size = 0) :
    KeepsOrder (fun _ _ => True) (initialize_managed_mapping_locked k object_name options fails) s := by
  unfold initialize_managed_mapping_locked
  split
  · exact ⟨hs, trivial⟩
  next layout hlayout =>
  split
  · exact ⟨hs, trivial⟩
  have hblank : (s.objects k).contents.truncate layout.mapping_size = ⟨layout.mapping_size, zeroed⟩ := by
    rw [Contents.truncate, if_pos (.inr hsize)]
  have htruncate : KeepsOrder (fun _ t => t = s.set_contents k ⟨layout.mapping_size, zeroed⟩)
      (ftruncate k layout.mapping_size) s := by
    have hend : Orderly (s.set_contents k ((s.objects k).contents.truncate layout.mapping_size)) := by
      rw [hblank]
      exact hs.set_object (.of_unready (checked_managed_layout_spec hlayout).2.2.2.2.2.2.2 rfl)
    refine ⟨hend, hend, ?_⟩
    rw [← hblank]
    rfl
  apply htruncate.bind
  rintro _ s₁ hs₁ rfl
  have hready₁ : ((s.set_contents k ⟨layout.mapping_size, zeroed⟩).objects k).ready = false := by
    rw [Namespace.set_contents, set_object_self]
    rfl
  split
  · exact ⟨hs₁, trivial⟩
  apply (plain_stores_keep_order (plain_stores options layout) hs₁ hready₁).bind
  rintro _ s₂ hs₂ ⟨hready₂, rfl⟩
  simp only [set_contents_contents, set_contents_set_contents] at hs₂ hready₂ ⊢
  split
  · exact ⟨hs₂, trivial⟩
  have hfinish : initialize_finish = initialize_finish.take 2 ++ initialize_finish.drop 2 := rfl
  have hplain : ∀ f ∈ initialize_finish.take 2, PlainStore f := by
    intro f hf
    simp only [initialize_finish, List.take, List.mem_cons, List.not_mem_nil, or_false] at hf
    rcases hf with rfl | rfl
    · exact ⟨fun _ _ hstamp => hstamp, fun _ => .inl rfl⟩
    · exact ⟨fun _ _ hstamp => hstamp, fun _ => .inl rfl⟩
  rw [hfinish, mapped_stores_append, Prog.bind_assoc]
  apply (plain_stores_keep_order hplain hs₂ hready₂).bind
  rintro _ s₃ hs₃ ⟨hready₃, rfl⟩
  simp only [set_contents_contents, set_contents_set_contents] at hs₃ hready₃ ⊢
  -- the ready store
  have hlast : KeepsOrder (fun _ _ => True) (mapped k (.stores (initialize_finish.drop 2)))
      (s.set_contents k (((Contents.mk layout.mapping_size zeroed).store
        (initialize_prologue options layout)).store (initialize_finish.take 2))) := by
    have hend : Orderly ((s.set_contents k (((Contents.mk layout.mapping_size zeroed).store
        (initialize_prologue options layout)).store (initialize_finish.take 2))).set_memory k
          fun m => m.set_header fun h => { h with initialization := managed_initialization_ready }) := by
      have hsize := (checked_managed_layout_spec hlayout).2.2.2.2.2.2.2
      refine hs₃.set_object ⟨?_, fun _ => ⟨options, ?_⟩⟩
      · rw [Namespace.set_contents, set_object_self]
        exact hsize
      have hfresh := fresh_initialized hlayout
      have hmemory : initialized options layout =
          (initialize_stores options layout).foldl (fun m store => store m) zeroed := by
        rw [initialized, Prog.exec_stores]
      rw [hmemory, initialize_stores, List.foldl_append] at hfresh
      rw [Namespace.set_contents, set_object_self]
      exact hfresh
    exact ⟨hend, hend, trivial⟩
  apply hlast.bind
  intro _ s₄ hs₄ _
  split <;> exact ⟨hs₄, trivial⟩

theorem close_fd_keeps_order (hs : Orderly s) {a : α} :
    KeepsOrder (fun _ _ => True) (close_fd pid k >>= fun _ => .ret a) s :=
  ⟨hs.unlock, hs.unlock, trivial⟩

theorem flock_exclusive_keeps_order {note : Namespace → Namespace} (hs : Orderly s)
    (hnote : (note s).objects = s.objects) :
    KeepsOrder (fun _ t => (t.objects k).contents = (s.objects k).contents)
      (flock_exclusive pid k note) s := by
  have hend : Orderly ((note s).set_object k fun o => { o with exclusive := some pid }) :=
    (hs.congr hnote).set_locks fun _ => rfl
  refine ⟨hend, hend, ?_⟩
  simp only [set_object_self, hnote]
  rfl

theorem create_keeps_order (name : String) (hs : Orderly s) :
    KeepsOrder (fun _ _ => True) (create_managed_mapping pid name options fails) s := by
  unfold create_managed_mapping
  split
  · exact ⟨hs, trivial⟩
  next object_name hname =>
  split
  · exact ⟨hs, trivial⟩
  have hshm : KeepsOrder (fun found t => ∀ k, found = some k → (t.objects k).size = 0)
      shm_open_exclusive s := by
    by_cases hlinked : s.linked = none
    · have hend : Orderly (if s.linked = none then s.add_object else s) := by
        rw [if_pos hlinked]
        exact hs.add_object
      refine ⟨hend, hend, fun k hfound => ?_⟩
      simp only [hlinked, if_true, Option.some.injEq] at hfound ⊢
      subst hfound
      simp only [Namespace.add_object, Function.update_self]
    · have hend : Orderly (if s.linked = none then s.add_object else s) := by
        rw [if_neg hlinked]
        exact hs
      refine ⟨hend, hend, fun k hfound => ?_⟩
      simp only [hlinked, if_false, reduceCtorEq] at hfound
  apply hshm.bind
  intro found s₁ hs₁ hnew
  cases found with
  | none => exact ⟨hs₁, trivial⟩
  | some k =>
    have hsize := hnew k rfl
    have hlocked : KeepsOrder (fun _ _ => True) (create_locked pid k object_name options fails) s₁ := by
      unfold create_locked
      split
      · exact ⟨hs₁, trivial⟩
      apply (flock_exclusive_keeps_order hs₁ (note_create_keeps options).2).bind
      intro _ s₂ hs₂ hcontents
      have hsize₂ : (s₂.objects k).size = 0 := (congrArg Contents.size hcontents).trans hsize
      apply (initialize_keeps_order hs₂ hsize₂).bind
      intro result s₃ hs₃ _
      cases result with
      | error error => exact ⟨hs₃, trivial⟩
      | ok mapping =>
        simp only
        split
        · exact ⟨hs₃, trivial⟩
        · exact ⟨hs₃.unlock, hs₃.unlock, trivial⟩
    apply hlocked.bind
    intro result s₂ hs₂ _
    have hunlink : KeepsOrder (fun _ _ => True) (unlink_on_failure pid k fails result) s₂ := by
      cases result with
      | ok mapping => exact ⟨hs₂, trivial⟩
      | error error =>
        simp only [unlink_on_failure]
        split
        · exact ⟨hs₂, trivial⟩
        · exact ⟨hs₂.congr rfl, hs₂.congr rfl, trivial⟩
    apply hunlink.bind
    intro _ s₃ hs₃ _
    exact close_fd_keeps_order hs₃

theorem open_or_create_keeps_order (name : String) (hs : Orderly s) :
    KeepsOrder (fun _ _ => True) (open_or_create_managed_mapping pid name options fails) s := by
  unfold open_or_create_managed_mapping
  split
  · exact ⟨hs, trivial⟩
  next object_name hname =>
  split
  · exact ⟨hs, trivial⟩
  have hshm : KeepsOrder (fun _ _ => True) shm_open_or_create s := by
    have hend : Orderly (if s.linked = none then s.add_object else s) := by
      split
      · exact hs.add_object
      · exact hs
    exact ⟨hend, hend, trivial⟩
  apply hshm.bind
  intro k s₁ hs₁ _
  have hlocked : KeepsOrder (fun _ _ => True) (open_or_create_locked pid k object_name options fails) s₁ := by
    unfold open_or_create_locked
    split
    · exact ⟨hs₁, trivial⟩
    apply (flock_exclusive_keeps_order hs₁ (note_open_or_create_keeps options).2).bind
    intro _ s₂ hs₂ _
    apply (probe_initialization_looks object_name fails).keepsOrder hs₂
    cases probed (s₂.objects k).contents object_name fails with
    | error error => exact ⟨hs₂, trivial⟩
    | ok needs_initialization =>
      have hattempt : KeepsOrder (fun _ _ => True)
          (initialize_or_map k object_name options fails needs_initialization) s₂ := by
        cases needs_initialization with
        | false =>
          have hlooks := matched_looks (s := s₂) (k := k) object_name options fails
          refine CrashSafe.mono hlooks (fun _ t ht => ?_) fun _ t ht => ?_
          · rw [ht]
            exact hs₂
          · rw [ht.2]
            exact ⟨hs₂, trivial⟩
        | true =>
          unfold initialize_or_map
          simp only [if_true]
          split
          · exact ⟨hs₂, trivial⟩
          have hreset : Orderly (s₂.set_contents k ((s₂.objects k).contents.truncate 0)) := by
            refine hs₂.set_object (.of_unready ?_ ?_)
            · exact Nat.two_pow_pos 63
            · rw [Contents.truncate, if_pos (.inl rfl)]
              rfl
          have htruncate : KeepsOrder (fun _ t => (t.objects k).size = 0) (ftruncate k 0) s₂ := by
            refine ⟨hreset, hreset, ?_⟩
            simp only [set_object_self]
          apply htruncate.bind
          intro _ s₃ hs₃ hsize
          exact initialize_keeps_order hs₃ hsize
      apply hattempt.bind
      intro result s₃ hs₃ _
      cases result with
      | error error => exact ⟨hs₃, trivial⟩
      | ok mapping =>
        simp only
        split
        · exact ⟨hs₃, trivial⟩
        · exact ⟨hs₃.unlock, hs₃.unlock, trivial⟩
  apply hlocked.bind
  intro result s₂ hs₂ _
  exact close_fd_keeps_order hs₂

theorem Maker.keeps_order (maker : Maker) (name : String) (hs : Orderly s) :
    KeepsOrder (fun _ _ => True) (maker.call pid name options fails) s := by
  cases maker with
  | create => exact create_keeps_order name hs
  | open_or_create => exact open_or_create_keeps_order name hs

/-- A death changes nothing about a channel that nobody has used. -/
theorem Orderly.on_death (hs : Orderly s) (pid : Nat) : Orderly (s.on_death pid) := by
  intro k
  have hready : ((s.on_death pid).objects k).ready = (s.objects k).ready := by
    rw [ShmObject.ready, ShmObject.ready, Namespace.on_death]
    apply decide_eq_decide.mpr
    simp only [managed.on_death]
    split_ifs <;> rfl
  refine ⟨(hs k).size, fun hready' => ?_⟩
  obtain ⟨options, hfresh⟩ := (hs k).fresh (hready.symm.trans hready')
  obtain ⟨layout, hlayout, hcontents⟩ := hfresh.layout
  have hmemory : (s.objects k).memory = initialized options layout := congrArg Contents.memory hcontents
  have hsame : ((s.on_death pid).objects k).contents = (s.objects k).contents := by
    simp only [Namespace.on_death, ShmObject.contents, hmemory, Contents.mk.injEq, true_and]
    rw [initialized_eq]
    simp only [managed.on_death, reduceCtorEq, if_false]
    rfl
  exact ⟨options, hsame ▸ hfresh⟩

theorem OneAtATime.orderly {name : String} (h : OneAtATime name s) : Orderly s := by
  induction h with
  | unnamed => exact fun _ => .of_unready (by norm_num) rfl
  | returned _ maker pid options fails ih =>
    exact (CrashSafe.exec (maker.keeps_order name ih)).1
  | killed _ maker pid options fails count ih =>
    have hkilled : Orderly ((maker.call pid name options fails).killed count _) :=
      CrashSafe.killed (maker.keeps_order name ih) ih (fun _ _ ht => ht) count
    exact hkilled.on_death pid

/-- What `validate_managed_mapping` says of a fresh channel. -/
theorem validated_fresh {stored : ManagedChannelOptions}
    (hlayout : checked_managed_layout stored.message_capacity stored.max_message_size = .ok layout)
    (object_name : String) (protocol : ProtocolDescriptor) :
    validated (initialized stored layout).header layout.mapping_size object_name protocol =
      if stored.protocol = protocol then .ok ()
      else .error (.managed_channel_error .protocol_mismatch
        ("shmchan: managed channel protocol mismatch: " ++ object_name)) := by
  have hprotocol (p q : ProtocolDescriptor) : (p.id ≠ q.id ∨ p.version ≠ q.version) ↔ ¬ p = q := by
    cases p
    cases q
    rw [ProtocolDescriptor.mk.injEq, not_and_or]
  rw [initialized_eq]
  unfold validated validate_layout
  rw [if_neg (by simp), if_neg (by simp [ManagedChannelState.word, BreakReason.word])]
  simp only [hlayout, ne_eq, not_true_eq_false, or_self, if_false]
  by_cases hsame : stored.protocol = protocol
  · rw [if_pos hsame, if_neg (by rw [hsame]; simp)]
  · rw [if_neg hsame, if_pos ((hprotocol _ _).mpr hsame)]

/-- What a successful `open` has seen. -/
theorem open_returns {name : String} {protocol : ProtocolDescriptor} {object : Nat}
    (hok : ((open_managed_mapping pid name protocol fails).exec s).1 = .ok object) :
    s.linked = some object ∧
      (∃ object_name,
        mapping_of object (s.objects object).contents object_name protocol fails = .ok object) ∧
      (((open_managed_mapping pid name protocol fails).exec s).2.objects object).contents =
        (s.objects object).contents := by
  revert hok
  unfold open_managed_mapping
  split
  · intro hok
    cases hok
  next object_name hname =>
  split
  · intro hok
    cases hok
  rw [shm_open, Prog.exec_load_bind]
  cases hlinked : s.linked with
  | none =>
    intro hok
    cases hok
  | some k =>
    simp only
    rw [Prog.exec_bind]
    have hclose {result : Except Exception Nat} {t : Namespace} :
        (close_fd pid k >>= fun _ => .ret result).exec t = (result, t.unlock pid k) := rfl
    rw [Prog.pure_eq, hclose]
    simp only [unlock_contents]
    unfold open_locked
    split
    · intro hok
      cases hok
    let s₁ : Namespace := s.set_object k fun o => { o with shared := pid :: o.shared }
    have hlock : (flock_shared pid k).exec s = ((), s₁) := rfl
    have hcontents : (s₁.objects k).contents = (s.objects k).contents := by
      simp only [s₁, set_object_self]
      rfl
    rw [Prog.exec_bind, hlock, Prog.exec_bind, (map_managed_fd_locked_looks object_name protocol fails).exec,
      hcontents]
    cases hmapping : mapping_of k (s.objects k).contents object_name protocol fails with
    | error error =>
      intro hok
      cases hok
    | ok mapping =>
      have hk : mapping = k := (mapping_of_ok hmapping).1
      subst hk
      simp only
      split
      · intro hok
        cases hok
      · intro hok
        obtain rfl : mapping = object := Except.ok.inj hok
        refine ⟨rfl, ⟨object_name, hmapping⟩, ?_⟩
        exact (unlock_contents mapping).trans hcontents

theorem validated_ready {c : Contents} {mapping_size : Nat} {protocol : ProtocolDescriptor}
    (hok : validated c.memory.header mapping_size object_name protocol = .ok ()) : c.ready = true := by
  unfold validated at hok
  split at hok
  · cases hok
  next hheader =>
  simp only [not_or, ne_eq, not_not] at hheader
  exact decide_eq_true hheader.2.2.2.2.2.2.2

/-- What `open_or_create` returns for a fresh channel, with no refused call. -/
theorem matched_fresh {stored : ManagedChannelOptions} {c : Contents} (hfresh : Fresh stored c)
    (object_name : String) :
    (matched k c object_name options fun _ => false) =
      if stored.protocol = options.protocol then
        if stored.message_capacity ≠ options.message_capacity ∨
            stored.max_message_size ≠ options.max_message_size then
          .error (.invalid_argument "shmchan: open_or_create options do not match the existing channel")
        else .ok k
      else .error (.managed_channel_error .protocol_mismatch
        ("shmchan: managed channel protocol mismatch: " ++ object_name)) := by
  obtain ⟨layout, hlayout, rfl⟩ := hfresh.layout
  obtain ⟨_, _, _, _, hpayload, _, hmapping, hlt⟩ := checked_managed_layout_spec hlayout
  unfold matched mapping_of
  simp only [Bool.false_eq_true, if_false]
  rw [if_neg (by rw [sizeof_managed_shared_header]; omega), validated_fresh hlayout]
  have hcapacity : (initialized stored layout).header.message_capacity = stored.message_capacity :=
    hfresh.capacity
  have hmax : (initialized stored layout).header.max_message_size = stored.max_message_size := hfresh.max
  by_cases hprotocol : stored.protocol = options.protocol
  · simp only [if_pos hprotocol, hcapacity, hmax]
  · simp only [if_neg hprotocol]

/-- What the initialisation of an emptied object makes, with no refused call. -/
theorem initialization_of_emptied
    (hlayout : checked_managed_layout options.message_capacity options.max_message_size = .ok layout)
    (c : Contents) (object_name : String) :
    (initialization_of k (c.truncate 0) object_name options fun _ => false) =
      (.ok k, ⟨layout.mapping_size, initialized options layout⟩) := by
  have hmemory : initialized options layout =
      (initialize_stores options layout).foldl (fun m store => store m) zeroed := by
    rw [initialized, Prog.exec_stores]
  have hblank : (c.truncate 0).truncate layout.mapping_size = ⟨layout.mapping_size, zeroed⟩ := by
    rw [Contents.truncate, if_pos (.inr rfl)]
  rw [hmemory, initialize_stores, List.foldl_append]
  simp only [initialization_of, hlayout, refused_mutex_call, Bool.false_eq_true, if_false, hblank,
    Contents.store, initialize_prologue]

/-- `open_or_create` makes a channel of an object that does not say ready. -/
theorem opened_or_created_unready {c : Contents} (hsize : c.size < 2 ^ 63) (hready : c.ready = false)
    (hlayout : checked_managed_layout options.message_capacity options.max_message_size = .ok layout)
    (object_name : String) :
    (opened_or_created k c object_name options fun _ => false) =
      (.ok k, ⟨layout.mapping_size, initialized options layout⟩) := by
  have hprobed : (probed c object_name fun _ => false) = .ok true := by
    have hfits : ¬ c.size > 2 ^ 64 - 1 := by omega
    simp only [probed, Bool.false_eq_true, if_false, hready, Bool.not_false, if_neg hfits, ite_self]
  simp only [opened_or_created, hprobed, initialized_or_mapped, initialization_of_emptied hlayout,
    Bool.false_eq_true, if_false, if_true]

/-- `open_or_create` leaves a fresh channel alone. -/
theorem opened_or_created_fresh {stored : ManagedChannelOptions} {c : Contents} (hfresh : Fresh stored c)
    (object_name : String) :
    (opened_or_created k c object_name options fun _ => false).2 = c ∧
      if stored.message_capacity = options.message_capacity ∧
          stored.max_message_size = options.max_message_size ∧ stored.protocol = options.protocol
        then (opened_or_created k c object_name options fun _ => false).1 = .ok k
        else ∃ error, (opened_or_created k c object_name options fun _ => false).1 = .error error := by
  have hprobed : (probed c object_name fun _ => false) = .ok false := by
    obtain ⟨layout, hlayout, rfl⟩ := hfresh.layout
    obtain ⟨_, _, _, _, hpayload, _, hmapping, hlt⟩ := checked_managed_layout_spec hlayout
    have hready : (Contents.mk layout.mapping_size (initialized stored layout)).ready = true := by
      rw [Contents.ready, initialized_eq]
      rfl
    simp only [probed, Bool.false_eq_true, if_false, hready, Bool.not_true]
    rw [if_neg (by omega), if_pos (by rw [sizeof_managed_shared_header]; omega), if_neg (by omega)]
  simp only [opened_or_created, hprobed, initialized_or_mapped, matched_fresh hfresh,
    Bool.false_eq_true, if_false]
  by_cases hprotocol : stored.protocol = options.protocol
  · by_cases hoptions : stored.message_capacity = options.message_capacity ∧
        stored.max_message_size = options.max_message_size
    · simp only [hprotocol, hoptions, ne_eq, not_true_eq_false, or_self, and_self, if_true, if_false]
    · have hdiffer : stored.message_capacity ≠ options.message_capacity ∨
          stored.max_message_size ≠ options.max_message_size := not_and_or.mp hoptions
      rw [if_pos hprotocol, if_pos hdiffer, if_neg fun hall => hoptions ⟨hall.1, hall.2.1⟩]
      exact ⟨rfl, _, rfl⟩
  · rw [if_neg hprotocol, if_neg fun hall => hprotocol hall.2.2]
    exact ⟨rfl, _, rfl⟩

/-- Initialisation is crash-safe: after any calls one at a time, killed wherever,
    what `open` returns is a fresh channel. When the name denotes a fresh channel,
    `open_or_create` leaves it alone and returns it if the options match, and
    otherwise throws; when it denotes none, `open_or_create` makes one. -/
theorem initialization_is_crash_safe {name : String} (h : OneAtATime name s) :
    (∀ (pid : Nat) (protocol : ProtocolDescriptor) (fails : Syscall → Bool) (object : Nat),
      ((open_managed_mapping pid name protocol fails).exec s).1 = .ok object →
        ∃ stored, stored.protocol = protocol ∧
          Fresh stored (((open_managed_mapping pid name protocol fails).exec s).2.objects object).contents) ∧
    ∀ (pid : Nat) (object_name : String) (options : ManagedChannelOptions) (layout : ManagedLayout),
      (normalize_name name >>= managed_object_name) = .ok object_name →
      checked_managed_layout options.message_capacity options.max_message_size = .ok layout →
        let result := ((open_or_create_managed_mapping pid name options fun _ => false).exec s).1
        let t := ((open_or_create_managed_mapping pid name options fun _ => false).exec s).2
        (∀ k stored, s.linked = some k → Fresh stored (s.objects k).contents →
          t.linked = some k ∧ (t.objects k).contents = (s.objects k).contents ∧
          (if stored.message_capacity = options.message_capacity ∧
              stored.max_message_size = options.max_message_size ∧ stored.protocol = options.protocol
            then result = .ok k else ∃ error, result = .error error)) ∧
        ((∀ k stored, s.linked = some k → ¬ Fresh stored (s.objects k).contents) →
          ∃ k, result = .ok k ∧ t.linked = some k ∧ Fresh options (t.objects k).contents) := by
  have horderly := h.orderly
  constructor
  · intro pid protocol fails object hok
    obtain ⟨_, ⟨object_name, hmapping⟩, hcontents⟩ := open_returns hok
    have hvalidated := (mapping_of_ok hmapping).2.2.2
    obtain ⟨stored, hfresh⟩ := (horderly object).fresh (validated_ready hvalidated)
    rw [hcontents]
    refine ⟨stored, ?_, hfresh⟩
    obtain ⟨layout, hlayout, heq⟩ := hfresh.layout
    rw [heq, validated_fresh hlayout] at hvalidated
    by_contra hne
    rw [if_neg hne] at hvalidated
    cases hvalidated
  · intro pid object_name options layout hname hlayout
    obtain ⟨hresult, hlinked, hcontents⟩ :=
      @open_or_create_exec pid s name object_name options (fun _ => false) hname rfl
    constructor
    · intro k stored hs hfresh
      rw [hs] at hresult hlinked hcontents
      simp only [Option.getD_some, reduceCtorEq, if_false] at hresult hlinked hcontents
      obtain ⟨hsame, hreturned⟩ := @opened_or_created_fresh k options stored _ hfresh object_name
      rw [← hresult] at hreturned
      exact ⟨hlinked, hcontents.trans hsame, hreturned⟩
    · intro hnone
      cases hs : s.linked with
      | none =>
        rw [hs] at hresult hlinked hcontents
        simp only [if_true] at hresult hcontents
        rw [opened_or_created_unready (by norm_num) rfl hlayout] at hresult hcontents
        refine ⟨_, hresult, hlinked, ?_⟩
        rw [hcontents]
        exact fresh_initialized hlayout
      | some k =>
        rw [hs] at hresult hlinked hcontents
        simp only [Option.getD_some, reduceCtorEq, if_false] at hresult hlinked hcontents
        -- a ready object is fresh, so this one cannot say ready
        have hready : (s.objects k).contents.ready = false := by
          rw [← Bool.not_eq_true]
          intro hready
          obtain ⟨stored, hfresh⟩ := (horderly k).fresh hready
          exact hnone k stored hs hfresh
        rw [opened_or_created_unready (horderly k).size hready hlayout] at hresult hcontents
        refine ⟨k, hresult, hlinked, ?_⟩
        rw [hcontents]
        exact fresh_initialized hlayout

/-- `create` is killed between its last two stores: a later `open_or_create`
    with other options makes the channel anew. -/
theorem initialization_is_crash_safe_abandoned :
    let abandoned := ((Maker.create.call 1 "ch" one_slot fun _ => false).killed 30 {}).on_death 1
    let larger : ManagedChannelOptions := { one_slot with message_capacity := 2 }
    let t := ((open_or_create_managed_mapping 2 "ch" larger fun _ => false).exec abandoned).2
    abandoned.linked = some 0 ∧ (abandoned.objects 0).ready = false ∧
      ∃ k, t.linked = some k ∧ Fresh larger (t.objects k).contents := by
  intro abandoned larger t
  have hlinked : abandoned.linked = some 0 := by decide +kernel
  have hready : (abandoned.objects 0).ready = false := by decide +kernel
  refine ⟨hlinked, hready, ?_⟩
  have hsafe := initialization_is_crash_safe
    (.killed (@OneAtATime.unnamed "ch") .create 1 one_slot (fun _ => false) 30)
  have hmade := (hsafe.2 2 "/ch.shmchan.managed" larger
    { one_slot_layout with payload_offset := 576, mapping_size := 704 } (by decide +kernel) (by decide +kernel)).2
  obtain ⟨k, _, hk, hfresh⟩ := hmade fun k stored hk hfresh => by
    obtain rfl : 0 = k := Option.some.inj (hlinked.symm.trans hk)
    obtain ⟨layout, _, hcontents⟩ := hfresh.layout
    have hmemory : (abandoned.objects 0).memory = initialized stored layout :=
      congrArg Contents.memory hcontents
    rw [ShmObject.ready, hmemory, initialized_eq] at hready
    cases hready
  exact ⟨k, hk, hfresh⟩

end

end shmchan.managed
