import Shmchan.Process.Confined
import Shmchan.Managed.Operations

open process

namespace shmchan.managed

/-- The layout fields that the operations use. -/
structure Shape where
  capacity : Nat
  max : Nat
  stride : Nat

/-- The header still has the layout it was accepted with. The other fields, the
    slots and the payloads may hold anything. -/
structure Shaped (shape : Shape) (m : Memory) : Prop where
  capacity : m.header.message_capacity = shape.capacity
  max : m.header.max_message_size = shape.max
  stride : m.header.payload_stride = shape.stride

/-- A byte of the payload area of one of the slots. -/
def PayloadByte (shape : Shape) (offset : Nat) : Prop :=
  ∃ index k, index < shape.capacity ∧ k < shape.max ∧ offset = index * shape.stride + k

/-- No slot and no payload byte outside the areas has changed. -/
structure KeptOutside (shape : Shape) (m m' : Memory) : Prop where
  slots : ∀ i, shape.capacity ≤ i → m'.slots i = m.slots i
  payloads : ∀ offset, ¬ PayloadByte shape offset → m'.payloads offset = m.payloads offset

/-- Two memories that differ only outside the areas. -/
structure SameInside (shape : Shape) (m m' : Memory) : Prop where
  header : m'.header = m.header
  waiters : m'.waiters = m.waiters
  slots : ∀ i, i < shape.capacity → m'.slots i = m.slots i
  payloads : ∀ offset, PayloadByte shape offset → m'.payloads offset = m.payloads offset

/-- The header, the descriptors and the payload areas of a channel. -/
def used_areas (shape : Shape) : Boundary Memory where
  keeps := KeptOutside shape
  same := SameInside shape

/-- The layout fields and the mutex are as before. -/
structure Steady (m m' : Memory) : Prop where
  capacity : m'.header.message_capacity = m.header.message_capacity
  max : m'.header.max_message_size = m.header.max_message_size
  stride : m'.header.payload_stride = m.header.payload_stride
  mutex : m'.header.mutex = m.header.mutex

/-- Anything may happen to the memory between two actions of `pid`, except that
    the layout stays and that nobody else writes the slots while it holds the
    mutex. -/
structure Disturbance (pid : Nat) (m m' : Memory) : Prop where
  capacity : m'.header.message_capacity = m.header.message_capacity
  max : m'.header.max_message_size = m.header.max_message_size
  stride : m'.header.payload_stride = m.header.payload_stride
  held : m.header.mutex = .held pid → m'.header.mutex = .held pid ∧ m'.slots = m.slots

/-- A program none of whose actions leaves the areas, whatever the slots and
    the other fields of the header hold. -/
def Tidy {α : Type} (shape : Shape) (P : α → Prop) (p : Prog Memory α) : Prop :=
  AlwaysConfined (used_areas shape) (Shaped shape) Steady P p

section

variable {shape : Shape} {pid : Nat} {m m' : Memory} {α β : Type}

theorem KeptOutside.refl (m : Memory) : KeptOutside shape m m := ⟨fun _ _ => rfl, fun _ _ => rfl⟩

theorem Steady.refl (m : Memory) : Steady m m := ⟨rfl, rfl, rfl, rfl⟩

theorem Shaped.steady (h : Shaped shape m) (hsteady : Steady m m') : Shaped shape m' :=
  ⟨hsteady.capacity.trans h.capacity, hsteady.max.trans h.max, hsteady.stride.trans h.stride⟩

theorem Shaped.disturbed (h : Shaped shape m) (hothers : Disturbance pid m m') : Shaped shape m' :=
  ⟨hothers.capacity.trans h.capacity, hothers.max.trans h.max, hothers.stride.trans h.stride⟩

theorem Tidy.ret {P : α → Prop} {a : α} (h : P a) : Tidy shape P (.ret a) := h

theorem Tidy.bind {P : α → Prop} {Q : β → Prop} {p : Prog Memory α} {f : α → Prog Memory β}
    (h : Tidy shape P p) (hf : ∀ a, P a → Tidy shape Q (f a)) : Tidy shape Q (p >>= f) :=
  AlwaysConfined.bind h hf

/-- A load from the header. -/
theorem Tidy.load_header {P : α → Prop} (f : ManagedSharedHeader → α)
    (hP : ∀ m, Shaped shape m → P (f m.header)) : Tidy shape P (.load fun m => f m.header) := by
  apply AlwaysConfined.load
  · exact KeptOutside.refl
  · exact Steady.refl
  · intro m m' _ hsame
    exact congrArg f hsame.header
  · exact hP

theorem Tidy.read_header (f : ManagedSharedHeader → α) :
    Tidy shape (fun _ => True) (.load fun m => f m.header) :=
  Tidy.load_header f fun _ _ => trivial

/-- A load from a descriptor of the channel, and from the header. -/
theorem Tidy.load_slot {index : Nat} (hindex : index < shape.capacity)
    (f : ManagedSharedHeader → ManagedMessageSlot → α) :
    Tidy shape (fun _ => True) (.load fun m => f m.header (m.slots index)) := by
  apply AlwaysConfined.load
  · exact KeptOutside.refl
  · exact Steady.refl
  · intro m m' _ hsame
    rw [hsame.header, hsame.slots index hindex]
  · exact fun _ _ => trivial

/-- A read-modify-write of the header, apart from the layout and the mutex. The
    history may be written on the same occasion. -/
theorem Tidy.modify_header {P : α → Prop} {f : ManagedSharedHeader → α} {update : Memory → Memory}
    (g : ManagedSharedHeader → ManagedSharedHeader) (hheader : ∀ m, (update m).header = g m.header)
    (hrest : ∀ m, (update m).waiters = m.waiters ∧ (update m).slots = m.slots ∧
      (update m).payloads = m.payloads)
    (hsteady : ∀ m, Steady m (update m)) (hP : ∀ h, P (f h)) :
    Tidy shape P (.modifyGet (fun m => f m.header) update) := by
  apply AlwaysConfined.modifyGet
  · intro m _
    exact ⟨fun i _ => congrFun (hrest m).2.1 i, fun k _ => congrFun (hrest m).2.2 k⟩
  · exact fun m _ => hsteady m
  · intro m m' _ hsame
    exact congrArg f hsame.header
  · intro m m' _ hsame
    obtain ⟨hwaiters, hslots, hpayloads⟩ := hrest m
    obtain ⟨hwaiters', hslots', hpayloads'⟩ := hrest m'
    refine ⟨?_, ?_, fun i hi => ?_, fun k hk => ?_⟩
    · rw [hheader, hheader, hsame.header]
    · rw [hwaiters, hwaiters', hsame.waiters]
    · rw [hslots, hslots', hsame.slots i hi]
    · rw [hpayloads, hpayloads', hsame.payloads k hk]
  · exact fun m _ => hP m.header

theorem Tidy.set_header {f : ManagedSharedHeader → ManagedSharedHeader}
    (hf : ∀ m, Steady m (m.set_header f)) : Tidy shape (fun _ => True) (.store fun m => m.set_header f) :=
  Tidy.modify_header (f := fun _ => ()) f (fun _ => rfl) (fun _ => ⟨rfl, rfl, rfl⟩) hf fun _ => trivial

theorem Tidy.set_counters (f : ManagedCounters → ManagedCounters) :
    Tidy shape (fun _ => True) (.store fun m => m.set_counters f) :=
  Tidy.set_header fun _ => ⟨rfl, rfl, rfl, rfl⟩

/-- A store into a descriptor of the channel. -/
theorem Tidy.store_slot {index : Nat} (hindex : index < shape.capacity) {update : Memory → Memory}
    (f : ManagedMessageSlot → ManagedMessageSlot)
    (hslots : ∀ m, (update m).slots = (m.set_slot index f).slots)
    (hrest : ∀ m, (update m).header = m.header ∧ (update m).waiters = m.waiters ∧
      (update m).payloads = m.payloads) : Tidy shape (fun _ => True) (.store update) := by
  apply AlwaysConfined.store
  · intro m _
    refine ⟨fun i hi => ?_, fun k _ => congrFun (hrest m).2.2 k⟩
    rw [hslots, Memory.set_slot_slots_of_ne m index f (show i ≠ index by omega)]
  · intro m _
    obtain ⟨hheader, _, _⟩ := hrest m
    exact ⟨by rw [hheader], by rw [hheader], by rw [hheader], by rw [hheader]⟩
  · intro m m' _ hsame
    obtain ⟨hheader, hwaiters, hpayloads⟩ := hrest m
    obtain ⟨hheader', hwaiters', hpayloads'⟩ := hrest m'
    refine ⟨?_, ?_, fun i hi => ?_, fun k hk => ?_⟩
    · rw [hheader, hheader', hsame.header]
    · rw [hwaiters, hwaiters', hsame.waiters]
    · rw [hslots, hslots]
      by_cases heq : i = index
      · subst heq
        rw [Memory.set_slot_slots_self, Memory.set_slot_slots_self, hsame.slots i hi]
      · rw [Memory.set_slot_slots_of_ne _ _ _ heq, Memory.set_slot_slots_of_ne _ _ _ heq, hsame.slots i hi]
    · rw [hpayloads, hpayloads', hsame.payloads k hk]

theorem Tidy.set_slot {index : Nat} (hindex : index < shape.capacity)
    (f : ManagedMessageSlot → ManagedMessageSlot) :
    Tidy shape (fun _ => True) (.store fun m => m.set_slot index f) :=
  Tidy.store_slot hindex f (fun _ => rfl) fun _ => ⟨rfl, rfl, rfl⟩

theorem signal_managed_event_tidy : Tidy shape (fun _ => True) signal_managed_event := by
  apply Tidy.bind (Tidy.set_header fun _ => ⟨rfl, rfl, rfl, rfl⟩)
  intro _ _
  apply AlwaysConfined.store
  · exact fun m _ => ⟨fun _ _ => rfl, fun _ _ => rfl⟩
  · exact fun m _ => ⟨rfl, rfl, rfl, rfl⟩
  · exact fun m m' _ hsame => ⟨hsame.header, rfl, hsame.slots, hsame.payloads⟩

theorem mark_managed_broken_tidy (reason : BreakReason) :
    Tidy shape (fun _ => True) (mark_managed_broken reason) := by
  apply Tidy.bind (Tidy.set_header fun _ => ⟨rfl, rfl, rfl, rfl⟩)
  intro _ _
  apply Tidy.bind (Tidy.set_header fun _ => ⟨rfl, rfl, rfl, rfl⟩)
  intro _ _
  exact signal_managed_event_tidy

theorem reset_managed_slot_tidy {index : Nat} (hindex : index < shape.capacity) {mark : Memory → Memory}
    (hslots : ∀ m, (mark m).slots = m.slots)
    (hrest : ∀ m, (mark m).header = m.header ∧ (mark m).waiters = m.waiters ∧
      (mark m).payloads = m.payloads) : Tidy shape (fun _ => True) (reset_managed_slot index mark) := by
  apply Tidy.bind (Tidy.set_slot hindex _)
  intro _ _
  apply Tidy.bind (Tidy.set_slot hindex _)
  intro _ _
  exact Tidy.store_slot hindex _ (fun m => hslots _) fun m => hrest _

theorem recover_scan_tidy (todo index free_count ready_count discarded : Nat)
    (hindex : index + todo = shape.capacity) :
    Tidy shape (fun _ => True) (recover_scan todo index free_count ready_count discarded) := by
  induction todo generalizing index free_count ready_count discarded with
  | zero => exact Tidy.ret trivial
  | succ todo ih =>
    have hlt : index < shape.capacity := by omega
    have hbroken : Tidy shape (fun _ => True)
        (mark_managed_broken .corrupt_data >>= fun _ => .ret (none : Option (Nat × Nat × Nat))) :=
      Tidy.bind (mark_managed_broken_tidy _) fun _ _ => Tidy.ret trivial
    rw [recover_scan]
    apply Tidy.bind (Tidy.load_slot hlt fun _ slot => slot.state)
    intro state _
    split_ifs with hfree hwriting hready
    · exact ih _ _ _ _ (by omega)
    · apply Tidy.bind (reset_managed_slot_tidy hlt (fun _ => rfl) fun _ => ⟨rfl, rfl, rfl⟩)
      intro _ _
      exact ih _ _ _ _ (by omega)
    · apply Tidy.bind (Tidy.load_slot hlt
        fun h slot => h.max_message_size < slot.payload_size || slot.sequence == 0)
      intro corrupt _
      split_ifs
      · exact hbroken
      · exact ih _ _ _ _ (by omega)
    · exact hbroken

theorem recover_finish_tidy (free_count ready_count discarded : Nat) :
    Tidy shape (fun _ => True) (recover_finish free_count ready_count discarded) := by
  apply Tidy.bind (Tidy.set_header fun _ => ⟨rfl, rfl, rfl, rfl⟩)
  intro _ _
  apply Tidy.bind (Tidy.set_header fun _ => ⟨rfl, rfl, rfl, rfl⟩)
  intro _ _
  apply Tidy.bind (Tidy.set_header fun _ => ⟨rfl, rfl, rfl, rfl⟩)
  intro _ _
  apply Tidy.bind (Tidy.set_counters _)
  intro _ _
  apply Tidy.bind (Tidy.set_counters _)
  intro _ _
  exact Tidy.bind signal_managed_event_tidy fun _ _ => Tidy.ret trivial

theorem load_capacity_tidy :
    Tidy shape (fun capacity => capacity = shape.capacity) (.load fun m => m.header.message_capacity) :=
  Tidy.load_header _ fun _ hm => hm.capacity

theorem recover_managed_slots_tidy : Tidy shape (fun _ => True) recover_managed_slots := by
  apply Tidy.bind load_capacity_tidy
  rintro _ rfl
  apply Tidy.bind (recover_scan_tidy _ 0 0 0 0 (by omega))
  intro result _
  cases result with
  | none => exact Tidy.ret trivial
  | some counts => exact recover_finish_tidy _ _ _

theorem validate_scan_tidy (todo index free_count writing_count ready_count : Nat)
    (hindex : index + todo = shape.capacity) :
    Tidy shape (fun _ => True) (validate_scan todo index free_count writing_count ready_count) := by
  induction todo generalizing index free_count writing_count ready_count with
  | zero => exact Tidy.ret trivial
  | succ todo ih =>
    have hlt : index < shape.capacity := by omega
    have hbroken : Tidy shape (fun _ => True)
        (mark_managed_broken .corrupt_data >>= fun _ => .ret (none : Option (Nat × Nat × Nat))) :=
      Tidy.bind (mark_managed_broken_tidy _) fun _ _ => Tidy.ret trivial
    rw [validate_scan]
    apply Tidy.bind (Tidy.load_slot hlt fun _ slot => slot.state)
    intro state _
    split_ifs with hfree hwriting hready
    · exact ih _ _ _ _ (by omega)
    · exact ih _ _ _ _ (by omega)
    · apply Tidy.bind (Tidy.load_slot hlt
        fun h slot => h.max_message_size < slot.payload_size || slot.sequence == 0)
      intro corrupt _
      split_ifs
      · exact hbroken
      · exact ih _ _ _ _ (by omega)
    · exact hbroken

theorem validate_managed_slots_tidy : Tidy shape (fun _ => True) validate_managed_slots := by
  apply Tidy.bind load_capacity_tidy
  rintro _ rfl
  apply Tidy.bind (validate_scan_tidy _ 0 0 0 0 (by omega))
  intro result _
  cases result with
  | none => exact Tidy.ret trivial
  | some counts =>
    obtain ⟨free_count, writing_count, ready_count⟩ := counts
    apply Tidy.bind (Tidy.read_header
      fun h => counts_are_consistent h free_count writing_count ready_count)
    intro consistent _
    split_ifs
    · exact Tidy.ret trivial
    · exact Tidy.bind (mark_managed_broken_tidy _) fun _ _ => Tidy.ret trivial

/-- The circular scan never looks past the capacity. -/
theorem find_free_slot_tidy (start todo offset : Nat) (hcapacity : 0 < shape.capacity) :
    Tidy shape (fun found => ∀ index, found = some index → index < shape.capacity)
      (find_free_slot shape.capacity start todo offset) := by
  induction todo generalizing offset with
  | zero =>
    apply Tidy.ret
    rintro _ ⟨⟩
  | succ todo ih =>
    have hlt : (start + offset) % shape.capacity < shape.capacity := Nat.mod_lt _ hcapacity
    rw [find_free_slot]
    apply Tidy.bind (Tidy.load_slot hlt fun _ slot => slot.state)
    intro state _
    split_ifs
    · refine Tidy.ret fun index hindex => ?_
      cases hindex
      exact hlt
    · exact ih (offset + 1)

/-- A copy of at most `max_message_size` bytes stays in the area of its slot. -/
theorem copy_payload_tidy {index offset : Nat} (hindex : index < shape.capacity) {bytes : Bytes}
    (hlength : offset + bytes.length ≤ shape.max) :
    Tidy shape (fun _ => True) (copy_payload index offset bytes) := by
  induction bytes generalizing offset with
  | nil => exact Tidy.ret trivial
  | cons byte rest ih =>
    rw [List.length_cons] at hlength
    rw [copy_payload]
    refine Tidy.bind (P := fun _ => True) ?_ fun _ _ => ih (by omega)
    have hinside : PayloadByte shape (index * shape.stride + offset) :=
      ⟨index, offset, hindex, by omega, rfl⟩
    have hbase {m : Memory} (hm : Shaped shape m) : m.payload_base index = index * shape.stride := by
      rw [Memory.payload_base, hm.stride]
    apply AlwaysConfined.store
    · intro m hm
      refine ⟨fun _ _ => rfl, fun k hk => ?_⟩
      simp only [hbase hm]
      apply Function.update_of_ne
      rintro rfl
      exact hk hinside
    · exact fun m _ => ⟨rfl, rfl, rfl, rfl⟩
    · intro m m' hm hsame
      have hm' : Shaped shape m' :=
        ⟨by rw [hsame.header]; exact hm.capacity, by rw [hsame.header]; exact hm.max,
          by rw [hsame.header]; exact hm.stride⟩
      refine ⟨hsame.header, hsame.waiters, hsame.slots, fun k hk => ?_⟩
      simp only [hbase hm, hbase hm']
      by_cases heq : k = index * shape.stride + offset
      · rw [heq, Function.update_self, Function.update_self]
      · rw [Function.update_of_ne heq, Function.update_of_ne heq, hsame.payloads k hk]

theorem reserve_slot_tidy {selected : Nat} (hselected : selected < shape.capacity) :
    Tidy shape (fun _ => True) (reserve_slot selected) := by
  apply Tidy.bind (Tidy.set_slot hselected _)
  intro _ _
  apply Tidy.bind (Tidy.set_header fun _ => ⟨rfl, rfl, rfl, rfl⟩)
  intro _ _
  apply Tidy.bind (Tidy.set_header fun _ => ⟨rfl, rfl, rfl, rfl⟩)
  intro _ _
  apply Tidy.bind (Tidy.set_slot hselected _)
  intro _ _
  refine Tidy.bind (P := fun _ => True) ?_ fun sequence _ => ?_
  · exact Tidy.modify_header (f := fun h => h.next_sequence)
      (fun h => { h with next_sequence := add64 h.next_sequence 1 }) (fun _ => rfl)
      (fun _ => ⟨rfl, rfl, rfl⟩) (fun _ => ⟨rfl, rfl, rfl, rfl⟩) fun _ => trivial
  apply Tidy.bind (Tidy.set_slot hselected _)
  intro _ _
  exact Tidy.ret trivial

theorem count_published_tidy (selected capacity size : Nat) :
    Tidy shape (fun _ => True) (count_published selected capacity size) := by
  apply Tidy.bind (Tidy.set_header fun _ => ⟨rfl, rfl, rfl, rfl⟩)
  intro _ _
  apply Tidy.bind (Tidy.set_header fun _ => ⟨rfl, rfl, rfl, rfl⟩)
  intro _ _
  apply Tidy.bind (Tidy.set_header fun _ => ⟨rfl, rfl, rfl, rfl⟩)
  intro _ _
  apply Tidy.bind (Tidy.set_counters _)
  intro _ _
  exact Tidy.set_counters _

theorem publish_message_tidy {selected : Nat} (hselected : selected < shape.capacity) {message : Bytes}
    (hlength : message.length ≤ shape.max) (capacity : Nat) :
    Tidy shape (fun _ => True) (publish_message selected capacity message) := by
  apply Tidy.bind (reserve_slot_tidy hselected)
  intro sequence _
  apply Tidy.bind (copy_payload_tidy hselected (by omega))
  intro _ _
  apply Tidy.bind (Tidy.set_slot hselected _)
  intro _ _
  refine Tidy.bind (P := fun _ => True) ?_ fun _ _ => ?_
  · exact Tidy.store_slot hselected (fun slot => { slot with state := ManagedSlotState.ready.word })
      (fun _ => rfl) fun _ => ⟨rfl, rfl, rfl⟩
  exact count_published_tidy selected capacity message.length

theorem operation_state_tidy : Tidy shape (fun _ => True) operation_state := by
  apply AlwaysConfined.load
  · exact KeptOutside.refl
  · exact Steady.refl
  · intro m m' _ hsame
    rw [operation_state_of, operation_state_of, hsame.header]
  · exact fun _ _ => trivial

theorem send_critical_tidy (hcapacity : 0 < shape.capacity) {message : Bytes}
    (hlength : message.length ≤ shape.max) (mode : ManagedLockMode) :
    Tidy shape (fun _ => True) (send_critical message mode) := by
  unfold send_critical
  apply Tidy.bind operation_state_tidy
  intro locked_state _
  split
  · exact Tidy.ret trivial
  apply Tidy.bind validate_managed_slots_tidy
  intro valid _
  split
  · exact Tidy.ret trivial
  apply Tidy.bind (Tidy.read_header fun h => h.free_slots)
  intro free_slots _
  split
  · apply Tidy.bind (Tidy.read_header fun h => h.next_sequence)
    intro next_sequence _
    split
    · exact Tidy.bind (mark_managed_broken_tidy _) fun _ _ => Tidy.ret trivial
    apply Tidy.bind load_capacity_tidy
    rintro _ rfl
    apply Tidy.bind (Tidy.read_header fun h => h.next_slot_hint % shape.capacity)
    intro start _
    apply Tidy.bind (find_free_slot_tidy start shape.capacity 0 hcapacity)
    intro found hfound
    cases found with
    | none => exact Tidy.bind (mark_managed_broken_tidy _) fun _ _ => Tidy.ret trivial
    | some selected =>
      exact Tidy.bind (publish_message_tidy (hfound selected rfl) hlength _) fun _ _ => Tidy.ret trivial
  split
  · exact Tidy.ret trivial
  · exact Tidy.bind (Tidy.read_header fun h => h.event_epoch) fun _ _ => Tidy.ret trivial

theorem find_first_ready_tidy (todo index selected selected_sequence : Nat)
    (hindex : index + todo = shape.capacity) (hselected : selected ≤ shape.capacity) :
    Tidy shape (fun found => found ≤ shape.capacity)
      (find_first_ready todo index selected selected_sequence) := by
  induction todo generalizing index selected selected_sequence with
  | zero => exact Tidy.ret hselected
  | succ todo ih =>
    have hlt : index < shape.capacity := by omega
    rw [find_first_ready]
    apply Tidy.bind (Tidy.load_slot hlt fun _ slot => slot)
    intro slot _
    split_ifs
    · exact ih _ _ _ (by omega) hlt.le
    · exact ih _ _ _ (by omega) hselected

theorem release_slot_tidy {selected : Nat} (hselected : selected < shape.capacity) (message : Message) :
    Tidy shape (fun _ => True) (release_slot pid selected message) := by
  refine Tidy.bind (P := fun _ => True) ?_ fun _ _ => ?_
  · exact reset_managed_slot_tidy hselected (fun _ => rfl) fun _ => ⟨rfl, rfl, rfl⟩
  apply Tidy.bind (Tidy.set_header fun _ => ⟨rfl, rfl, rfl, rfl⟩)
  intro _ _
  apply Tidy.bind (Tidy.set_header fun _ => ⟨rfl, rfl, rfl, rfl⟩)
  intro _ _
  apply Tidy.bind (Tidy.set_counters _)
  intro _ _
  exact Tidy.set_counters _

theorem futex_wait_until_tidy (epoch : Nat) (expires : Bool) :
    Tidy shape (fun _ => True) (futex_wait_until pid epoch expires) := by
  refine Tidy.bind (P := fun _ => True) ?_ fun asleep _ => ?_
  · intro m _
    have hbranch (m : Memory) : (if m.header.event_epoch = epoch then { m with waiters := pid :: m.waiters }
        else m) = { m with
          waiters := if m.header.event_epoch = epoch then pid :: m.waiters else m.waiters } := by
      split_ifs <;> rfl
    refine ⟨⟨?_, fun _ _ => rfl, fun m' hsame => ?_, fun m' hsame => ?_⟩, ?_, trivial⟩
    · rw [hbranch]
      exact ⟨fun _ _ => rfl, fun _ _ => rfl⟩
    · simp only [hsame.header]
    · rw [hbranch, hbranch]
      refine ⟨hsame.header, ?_, hsame.slots, hsame.payloads⟩
      simp only [hsame.header, hsame.waiters]
    · simp only [hbranch]
      exact ⟨rfl, rfl, rfl, rfl⟩
  · split
    · intro m _
      refine ⟨⟨⟨fun _ _ => rfl, fun _ _ => rfl⟩, fun m' hsame => ?_, fun _ _ => rfl, fun m' hsame => ?_⟩,
        ⟨rfl, rfl, rfl, rfl⟩, trivial⟩
      · simp only [hsame.waiters]
      · refine ⟨hsame.header, ?_, hsame.slots, hsame.payloads⟩
        simp only [hsame.waiters]
    · exact Tidy.ret trivial

theorem wait_for_event_tidy (epoch : Nat) (expires : Bool)
    (waiting : (Nat → Nat) → ManagedCounters → ManagedCounters) :
    Tidy shape (fun _ => True) (wait_for_event pid epoch expires waiting) := by
  apply Tidy.bind (Tidy.set_counters _)
  intro _ _
  apply Tidy.bind (futex_wait_until_tidy epoch expires)
  intro expired _
  apply Tidy.bind (Tidy.set_counters _)
  intro _ _
  exact Tidy.ret trivial

end

end shmchan.managed
