import Shmchan.Channel.Session
import Shmchan.Endpoint.System

open process shmchan.endpoint

namespace shmchan.channel

def layout_magic : Nat := 0x53484d4348414e31

def layout_version : Nat := 1

/-- `sizeof(shared_header)`. -/
def sizeof_shared_header : Nat := 8 * cache_line_size

/-- The type of the messages, as far as a header tells types apart. -/
@[ext]
structure ElementType where
  size : Nat
  alignment : Nat
  type_tag : Nat
  deriving DecidableEq, Repr

/-- The fields of `shared_header` that `create` stores once. -/
structure SharedHeader where
  magic : Nat := 0
  version : Nat := 0
  mapping_size : Nat := 0
  slots_offset : Nat := 0
  capacity : Nat := 0
  header_size : Nat := 0
  slot_size : Nat := 0
  slot_alignment : Nat := 0
  element_size : Nat := 0
  element_alignment : Nat := 0
  element_type_tag : Nat := 0
  deriving DecidableEq, Repr

/-- The first lines of `create`. -/
def checked_layout (element : ElementType) (_ : String) (capacity : Nat) : Except Exception (Layout Channel) :=
  match hsize : checked_mapping_size element.size capacity with
  | .error error => .error error
  | .ok mapping_size => .ok ⟨⟨capacity, element.size, ⟨mapping_size, hsize⟩⟩, mapping_size⟩

/-- Zero bytes, except for the indices in the first `count` slots. What would be
    a slot beyond the capacity is no part of the mapping. -/
def indexed (capacity count : Nat) : Memory :=
  { created with ring := { sequence := fun index => if index < count ∨ capacity ≤ index then index else 0 } }

def zeroed (capacity : Nat) : Mapping SharedHeader SlotRing where
  header := {}
  live := ⟨indexed capacity 0, fun _ => .ret .idle⟩

def store_header (f : SharedHeader → SharedHeader) (m : Mapping SharedHeader SlotRing) : Mapping SharedHeader SlotRing :=
  { m with header := f m.header }

def store_live (f : Memory → Memory) (m : Mapping SharedHeader SlotRing) : Mapping SharedHeader SlotRing :=
  { m with live := { m.live with shared := f m.live.shared } }

/-- The stores of `create` to the header, up to the slots. -/
def initialize_header (element : ElementType) (layout : Layout Channel) :
    List (Mapping SharedHeader SlotRing → Mapping SharedHeader SlotRing) :=
  [ fun m => { store_header (fun _ => {}) m with initialization := 0 },
    store_header fun h => { h with magic := layout_magic },
    store_header fun h => { h with version := layout_version },
    store_header fun h => { h with mapping_size := layout.mapping_size },
    store_header fun h => { h with slots_offset := slots_offset },
    store_header fun h => { h with capacity := layout.channel.capacity },
    store_header fun h => { h with header_size := sizeof_shared_header },
    store_header fun h => { h with slot_size := slot_size element.size },
    store_header fun h => { h with slot_alignment := cache_line_size },
    store_header fun h => { h with element_size := element.size },
    store_header fun h => { h with element_alignment := element.alignment },
    store_header fun h => { h with element_type_tag := element.type_tag },
    fun m => { m with initialization := 0 },
    store_live fun s => { s with sender_state := 0 },
    store_live (set_ring fun r => { r with enqueue_position := 0 }),
    store_live (set_ring fun r => { r with dequeue_position := 0 }),
    store_live fun s => { s with readable := { s.readable with epoch := 0 } },
    store_live fun s => { s with writable := { s.writable with epoch := 0 } } ]

/-- `construct_at` of a slot, and the store of its index. -/
def initialize_slot (index : Nat) : List (Mapping SharedHeader SlotRing → Mapping SharedHeader SlotRing) :=
  [ store_live (set_ring fun r => { r with
      sequence := Function.update r.sequence index 0
      storage := Function.update r.storage index fun _ => 0 }),
    store_live (set_ring fun r => { r with sequence := Function.update r.sequence index index }) ]

def initialize_stores (element : ElementType) (layout : Layout Channel) :
    List (Mapping SharedHeader SlotRing → Mapping SharedHeader SlotRing) :=
  initialize_header element layout ++ (List.range layout.channel.capacity).flatMap initialize_slot

/-- `validate_mapping`, after its check of the initialization word. -/
def validate_mapping (element : ElementType) (name : String) (header : SharedHeader) (mapping_size : Nat) :
    Except Exception Channel :=
  if header.magic ≠ layout_magic ∨ header.version ≠ layout_version then
    .error (.runtime_error ("shmchan: incompatible shared-memory format: " ++ name))
  else if header.capacity = 0 ∨ header.capacity > 2 ^ 64 - 1 then
    .error (.runtime_error ("shmchan: invalid capacity in shared-memory object: " ++ name))
  else
    match hsize : checked_mapping_size element.size header.capacity with
    | .error _ => .error (.runtime_error ("shmchan: invalid mapping size in shared-memory object: " ++ name))
    | .ok expected_size =>
      if header.mapping_size ≠ mapping_size ∨ expected_size ≠ mapping_size ∨
          header.slots_offset ≠ slots_offset ∨ header.header_size ≠ sizeof_shared_header ∨
          header.slot_size ≠ slot_size element.size ∨ header.slot_alignment ≠ cache_line_size ∨
          header.element_size ≠ element.size ∨ header.element_alignment ≠ element.alignment ∨
          header.element_type_tag ≠ element.type_tag then
        .error (.runtime_error ("shmchan: channel type or library ABI does not match: " ++ name))
      else .ok ⟨header.capacity, element.size, ⟨expected_size, hsize⟩⟩

/-- `create`, `open`, `unlink` and the calls of `channel`. -/
def format : Format ElementType SharedHeader SlotRing Channel where
  create_operation := "shm_open(create)"
  open_operation := "shm_open(open)"
  sizeof_header := sizeof_shared_header
  layout := checked_layout
  capacity channel := channel.capacity
  zeroed := zeroed
  stores := initialize_stores
  validate := validate_mapping
  calls channel pid program := ∃ call : Call channel, program = call.run pid

def create (pid : Nat) (element : ElementType) (name : String) (capacity : Nat) (fails : Syscall → Bool) :=
  format.create pid element name capacity fails

def open_existing (pid : Nat) (element : ElementType) (name : String) (fails : Syscall → Bool) :=
  format.open_existing pid element name fails

def unlink (name : String) (fails : Syscall → Bool) :
    Prog (Objects SharedHeader SlotRing) (Except Exception Bool) :=
  Format.unlink name fails

/-- The header that `create` leaves behind. -/
def created_header (element : ElementType) (capacity mapping_size : Nat) : SharedHeader where
  magic := layout_magic
  version := layout_version
  mapping_size := mapping_size
  slots_offset := slots_offset
  capacity := capacity
  header_size := sizeof_shared_header
  slot_size := slot_size element.size
  slot_alignment := cache_line_size
  element_size := element.size
  element_alignment := element.alignment
  element_type_tag := element.type_tag

/-- The errors of `open` for an object of another type. -/
def Mismatch (name : String) (error : Exception) : Prop :=
  error = .runtime_error ("shmchan: invalid mapping size in shared-memory object: " ++ name) ∨
    error = .runtime_error ("shmchan: channel type or library ABI does not match: " ++ name)

section

variable {element other : ElementType} {name : String} {layout : Layout Channel} {capacity : Nat}

theorem discipline_eq (channel : Channel) : format.discipline channel = discipline channel := rfl

theorem checked_layout_spec (hok : checked_layout element name capacity = .ok layout) :
    layout.channel.capacity = capacity ∧ layout.channel.element_size = element.size ∧
      checked_mapping_size element.size capacity = .ok layout.mapping_size := by
  unfold checked_layout at hok
  split at hok
  · cases hok
  next mapping_size hsize =>
    cases hok
    exact ⟨rfl, rfl, hsize⟩

/-- An accepted capacity has its slots in the mapping. -/
theorem checked_mapping_size_eq {element_size size : Nat}
    (hok : checked_mapping_size element_size capacity = .ok size) :
    size = slots_offset + capacity * slot_size element_size ∧ capacity ≤ 2 ^ 63 - 1 ∧ capacity ≠ 0 := by
  unfold checked_mapping_size at hok
  split at hok
  · cases hok
  split at hok
  · cases hok
  split at hok
  · cases hok
  simp only at hok
  split at hok
  · cases hok
  · cases hok
    exact ⟨rfl, by omega, by assumption⟩

theorem accepted_spec (haccepted : format.Accepted element name layout) :
    layout.mapping_size = slots_offset + layout.channel.capacity * slot_size element.size ∧
      layout.channel.element_size = element.size := by
  obtain ⟨capacity, hok⟩ := haccepted
  have hok : checked_layout element name capacity = .ok layout := hok
  obtain ⟨hcapacity, helement, hsize⟩ := checked_layout_spec hok
  rw [hcapacity]
  exact ⟨(checked_mapping_size_eq hsize).1, helement⟩

theorem initialize_slot_indexed (capacity count : Nat) (m : Mapping SharedHeader SlotRing)
    (hm : m.live.shared = indexed capacity count) :
    (initialize_slot count).foldl (fun m update => update m) m = store_live (fun _ => indexed capacity (count + 1)) m := by
  have hsequence : Function.update (Function.update (indexed capacity count).ring.sequence count 0) count count =
      (indexed capacity (count + 1)).ring.sequence := by
    funext index
    by_cases hindex : index = count
    · simp only [hindex, Function.update_self, indexed, Nat.lt_succ_self, true_or, if_true]
    · rw [Function.update_of_ne hindex, Function.update_of_ne hindex]
      have hlt : index < count ↔ index < count + 1 := by omega
      simp only [indexed, hlt]
  have hstorage : Function.update (indexed capacity count).ring.storage count (fun _ => 0) =
      (indexed capacity (count + 1)).ring.storage := Function.update_eq_self count _
  unfold initialize_slot store_live set_ring
  simp only [List.foldl_cons, List.foldl_nil, hm, hsequence, hstorage]
  rfl

/-- The loop of `create` over the slots. -/
theorem initialize_slots_foldl {capacity : Nat} (count : Nat) (m : Mapping SharedHeader SlotRing)
    (hm : m.live.shared = indexed capacity 0) :
    ((List.range count).flatMap initialize_slot).foldl (fun m update => update m) m =
      store_live (fun _ => indexed capacity count) m := by
  induction count with
  | zero =>
    unfold store_live
    rw [← hm]
    rfl
  | succ count ih =>
    rw [List.range_succ, List.flatMap_append, List.foldl_append, ih, List.flatMap_singleton,
      initialize_slot_indexed capacity count _ rfl]
    rfl

theorem indexed_capacity (capacity : Nat) : indexed capacity capacity = created := by
  have hall (index : Nat) : index < capacity ∨ capacity ≤ index := Nat.lt_or_ge index capacity
  unfold indexed created
  simp only [hall, if_true]
  rfl

/-- The mapping that `create` leaves behind holds the new channel of the model. -/
theorem made_eq (element : ElementType) (layout : Layout Channel) : format.made element layout =
    { initialization := initialization_ready
      header := created_header element layout.channel.capacity layout.mapping_size
      live := new_channel } := by
  have hslots := initialize_slots_foldl layout.channel.capacity
    ((initialize_header element layout).foldl (fun m update => update m) (zeroed layout.channel.capacity)) rfl
  rw [indexed_capacity] at hslots
  unfold Format.made
  simp only [format, initialize_stores, List.foldl_append, hslots]
  rfl

/-- The first checks of `validate_mapping` find nothing wrong with what `create`
    has stored. -/
theorem created_header_valid (hok : checked_layout element name capacity = .ok layout) :
    (¬ ((created_header element layout.channel.capacity layout.mapping_size).magic ≠ layout_magic ∨
      (created_header element layout.channel.capacity layout.mapping_size).version ≠ layout_version)) ∧
    ¬ ((created_header element layout.channel.capacity layout.mapping_size).capacity = 0 ∨
      (created_header element layout.channel.capacity layout.mapping_size).capacity > 2 ^ 64 - 1) := by
  obtain ⟨hcapacity, _, hsize⟩ := checked_layout_spec hok
  obtain ⟨_, hle, hpos⟩ := checked_mapping_size_eq hsize
  simp only [created_header, hcapacity]
  omega

theorem validate_mapping_made (hok : checked_layout element name capacity = .ok layout) :
    validate_mapping element name (created_header element layout.channel.capacity layout.mapping_size)
      layout.mapping_size = .ok layout.channel := by
  obtain ⟨hmagic, hcapacity⟩ := created_header_valid hok
  unfold validate_mapping
  rw [if_neg hmagic, if_neg hcapacity]
  unfold checked_layout at hok
  split at hok
  · cases hok
  next mapping_size hsize =>
  cases hok
  split
  next error herror =>
    simp only [created_header, hsize] at herror
    cases herror
  next expected hexpected =>
    simp only [created_header, hsize] at hexpected
    cases hexpected
    simp only [created_header, ne_eq, not_true_eq_false, or_self, if_false]

theorem validate_mapping_other (hok : checked_layout element name capacity = .ok layout) (hother : other ≠ element) :
    ∃ error, validate_mapping other name
        (created_header element layout.channel.capacity layout.mapping_size) layout.mapping_size = .error error ∧
      Mismatch name error := by
  obtain ⟨hmagic, hcapacity⟩ := created_header_valid hok
  unfold validate_mapping
  rw [if_neg hmagic, if_neg hcapacity]
  split
  · exact ⟨_, rfl, .inl rfl⟩
  · rw [if_pos]
    · exact ⟨_, rfl, .inr rfl⟩
    by_contra hsame
    simp only [created_header, ne_eq, not_or, not_not] at hsame
    obtain ⟨_, _, _, _, _, _, hsize, halignment, htag⟩ := hsame
    exact hother (ElementType.ext hsize.symm halignment.symm htag.symm)

/-- `create` never makes the initialization word ready before its last store. -/
theorem initialize_stores_initialization : ∀ update ∈ initialize_stores element layout,
    ∀ m : Mapping SharedHeader SlotRing,
      (update m).initialization = m.initialization ∨ (update m).initialization = 0 := by
  intro update hupdate
  rw [initialize_stores, List.mem_append, List.mem_flatMap] at hupdate
  rcases hupdate with hupdate | ⟨index, _, hupdate⟩
  · revert update
    simp [initialize_header, store_header, store_live]
  · revert update
    simp [initialize_slot, store_live]

theorem channel_ext {channel channel' : Channel} (hcapacity : channel.capacity = channel'.capacity)
    (hsize : channel.element_size = channel'.element_size) : channel = channel' := by
  cases channel
  cases channel'
  cases hcapacity
  cases hsize
  rfl

theorem format_lawful : format.Lawful created Mismatch where
  zeroed_unready capacity h := by cases h
  stores_unready element layout update hupdate m hm := by
    rcases initialize_stores_initialization update hupdate m with hsame | hzero
    · rw [hsame]
      exact hm
    · rw [hzero]
      decide
  sizeof_header := by decide
  mapping_size := by
    intro element name layout haccepted
    rw [(accepted_spec haccepted).1]
    exact Nat.le_add_right _ _
  made_live := by
    intro element name layout _
    rw [made_eq]
    rfl
  validate_made := by
    rintro element name layout ⟨capacity, hok⟩
    rw [made_eq]
    exact validate_mapping_made hok
  validate_other := by
    rintro element other name layout ⟨capacity, hok⟩ hother
    rw [made_eq]
    exact validate_mapping_other hok hother
  channel_unique := by
    intro element other name layout layout' haccepted haccepted' hheader
    rw [made_eq, made_eq] at hheader
    simp only [created_header, SharedHeader.mk.injEq] at hheader
    obtain ⟨_, _, _, _, hcapacity, _, _, _, hsize, _⟩ := hheader
    exact channel_ext hcapacity
      ((accepted_spec haccepted).2.trans (hsize.trans (accepted_spec haccepted').2.symm))

end

end shmchan.channel
