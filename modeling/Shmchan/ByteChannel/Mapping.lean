import Shmchan.ByteChannel.Session
import Shmchan.Endpoint.System

open process shmchan.endpoint

namespace shmchan.byte_channel

def layout_magic : Nat := 0x53484d4348414e42

def layout_version : Nat := 2

/-- `sizeof(shared_header)`: nine cache lines. -/
def sizeof_shared_header : Nat := 9 * 64

/-- `data_offset_value`. -/
def data_offset : Nat := align_up sizeof_shared_header record_alignment

/-- The fields of `shared_header` that `create` stores once. -/
structure SharedHeader where
  magic : Nat := 0
  version : Nat := 0
  mapping_size : Nat := 0
  data_offset : Nat := 0
  capacity_bytes : Nat := 0
  header_size : Nat := 0
  record_header_size : Nat := 0
  record_alignment_value : Nat := 0
  deriving DecidableEq, Repr

def checked_mapping_size (capacity_bytes : Nat) : Except Exception Nat :=
  if capacity_bytes > 2 ^ 64 - 1 - data_offset then
    .error (.length_error "shmchan: shared-memory mapping size overflows size_t")
  else
    let size := data_offset + capacity_bytes
    if size > 2 ^ 63 - 1 then
      .error (.length_error "shmchan: shared-memory mapping size overflows off_t")
    else
      .ok size

/-- The first lines of `create`. -/
def checked_layout (_ : Unit) (name : String) (capacity_bytes : Nat) : Except Exception (Layout ByteChannel) :=
  match haccepted : checked_capacity capacity_bytes with
  | .error error => .error error
  | .ok rounded =>
    match checked_mapping_size rounded with
    | .error error => .error error
    | .ok mapping_size => .ok ⟨⟨name, rounded, ⟨capacity_bytes, haccepted⟩⟩, mapping_size⟩

def zeroed (_ : Nat) : Mapping SharedHeader ByteRing where
  header := {}
  live := new_channel

def store_header (f : SharedHeader → SharedHeader) (m : Mapping SharedHeader ByteRing) :
    Mapping SharedHeader ByteRing :=
  { m with header := f m.header }

def store_live (f : Memory → Memory) (m : Mapping SharedHeader ByteRing) : Mapping SharedHeader ByteRing :=
  { m with live := { m.live with shared := f m.live.shared } }

/-- The stores of `create` to the header. -/
def initialize_header (layout : Layout ByteChannel) :
    List (Mapping SharedHeader ByteRing → Mapping SharedHeader ByteRing) :=
  [ fun m => { store_header (fun _ => {}) m with initialization := 0 },
    store_header fun h => { h with magic := layout_magic },
    store_header fun h => { h with version := layout_version },
    store_header fun h => { h with mapping_size := layout.mapping_size },
    store_header fun h => { h with data_offset := data_offset },
    store_header fun h => { h with capacity_bytes := layout.channel.capacity_bytes },
    store_header fun h => { h with header_size := sizeof_shared_header },
    store_header fun h => { h with record_header_size := sizeof_record_header },
    store_header fun h => { h with record_alignment_value := record_alignment },
    fun m => { m with initialization := 0 },
    store_live fun s => { s with sender_state := 0 },
    store_live (set_ring fun r => { r with write_position := 0 }),
    store_live (set_ring fun r => { r with claim_position := 0 }),
    store_live (set_ring fun r => { r with reclaim_position := 0 }),
    store_live (set_ring fun r => { r with reclaim_lock := 0 }),
    store_live fun s => { s with readable := { s.readable with epoch := 0 } },
    store_live fun s => { s with writable := { s.writable with epoch := 0 } } ]

/-- `construct_at` of a record header. -/
def initialize_record (index : Nat) (m : Mapping SharedHeader ByteRing) : Mapping SharedHeader ByteRing :=
  store_live (set_ring fun r => { r with
    data := fun k => if k / record_alignment = index then 0 else r.data k }) m

def initialize_stores (_ : Unit) (layout : Layout ByteChannel) :
    List (Mapping SharedHeader ByteRing → Mapping SharedHeader ByteRing) :=
  initialize_header layout ++ (List.range (layout.channel.capacity_bytes / record_alignment)).map initialize_record

/-- The checks of `validate_mapping` on the stored capacity. -/
def capacity_is_invalid (capacity_bytes : Nat) : Prop :=
  capacity_bytes ≤ sizeof_record_header ∨ capacity_bytes > 2 ^ 64 - 1 ∨ capacity_bytes % record_alignment ≠ 0

instance (capacity_bytes : Nat) : Decidable (capacity_is_invalid capacity_bytes) :=
  inferInstanceAs (Decidable (_ ∨ _))

theorem data_offset_eq : data_offset = 576 := align_up_record (by norm_num [sizeof_shared_header])

theorem checked_mapping_size_eq {capacity_bytes size : Nat} (hok : checked_mapping_size capacity_bytes = .ok size) :
    size = data_offset + capacity_bytes ∧ size ≤ 2 ^ 63 - 1 := by
  unfold checked_mapping_size at hok
  split at hok
  · cases hok
  simp only at hok
  split at hok
  · cases hok
  · cases hok
    exact ⟨rfl, by omega⟩

/-- A capacity that passes the checks of `open` needs no rounding. -/
theorem checked_capacity_stored {capacity_bytes size : Nat} (hvalid : ¬ capacity_is_invalid capacity_bytes)
    (hok : checked_mapping_size capacity_bytes = .ok size) : checked_capacity capacity_bytes = .ok capacity_bytes := by
  obtain ⟨hsize, hbounded⟩ := checked_mapping_size_eq hok
  unfold capacity_is_invalid at hvalid
  rw [data_offset_eq] at hsize
  rw [sizeof_record_header, record_alignment] at hvalid
  have hround : align_up capacity_bytes record_alignment = capacity_bytes := by
    rw [align_up_record (by omega)]
    omega
  unfold checked_capacity
  rw [hround, if_neg (by rw [sizeof_record_header]; omega), if_neg (by rw [record_alignment]; omega),
    if_neg (by omega)]

/-- `validate_mapping`, after its check of the initialization word. -/
def validate_mapping (_ : Unit) (name : String) (header : SharedHeader) (mapping_size : Nat) :
    Except Exception ByteChannel :=
  if header.magic ≠ layout_magic ∨ header.version ≠ layout_version then
    .error (.runtime_error ("shmchan: incompatible byte-channel format: " ++ name))
  else if hvalid : capacity_is_invalid header.capacity_bytes then
    .error (.runtime_error ("shmchan: invalid byte-channel capacity: " ++ name))
  else
    match hsize : checked_mapping_size header.capacity_bytes with
    | .error _ => .error (.runtime_error ("shmchan: invalid byte-channel mapping size: " ++ name))
    | .ok expected_size =>
      if header.mapping_size ≠ mapping_size ∨ expected_size ≠ mapping_size ∨
          header.data_offset ≠ data_offset ∨ header.header_size ≠ sizeof_shared_header ∨
          header.record_header_size ≠ sizeof_record_header ∨
          header.record_alignment_value ≠ record_alignment then
        .error (.runtime_error ("shmchan: byte-channel library ABI does not match: " ++ name))
      else .ok ⟨name, header.capacity_bytes, ⟨_, checked_capacity_stored hvalid hsize⟩⟩

/-- `create`, `open`, `unlink` and the calls of `byte_channel`. -/
def format : Format Unit SharedHeader ByteRing ByteChannel where
  create_operation := "shm_open(create byte channel)"
  open_operation := "shm_open(open byte channel)"
  sizeof_header := sizeof_shared_header
  layout := checked_layout
  capacity channel := channel.capacity_bytes
  zeroed := zeroed
  stores := initialize_stores
  validate := validate_mapping
  calls channel pid program := ∃ call : Call, program = call.run channel pid

def create (pid : Nat) (name : String) (capacity_bytes : Nat) (fails : Syscall → Bool) :=
  format.create pid () name capacity_bytes fails

def open_existing (pid : Nat) (name : String) (fails : Syscall → Bool) :=
  format.open_existing pid () name fails

def unlink (name : String) (fails : Syscall → Bool) :
    Prog (Objects SharedHeader ByteRing) (Except Exception Bool) :=
  Format.unlink name fails

/-- The header that `create` leaves behind. -/
def created_header (capacity_bytes mapping_size : Nat) : SharedHeader where
  magic := layout_magic
  version := layout_version
  mapping_size := mapping_size
  data_offset := data_offset
  capacity_bytes := capacity_bytes
  header_size := sizeof_shared_header
  record_header_size := sizeof_record_header
  record_alignment_value := record_alignment

section

variable {name : String} {layout : Layout ByteChannel} {capacity : Nat}

theorem discipline_eq (channel : ByteChannel) : format.discipline channel = discipline channel := rfl

theorem accepted_spec (haccepted : format.Accepted () name layout) :
    layout.channel.name = name ∧ checked_mapping_size layout.channel.capacity_bytes = .ok layout.mapping_size := by
  obtain ⟨capacity, hok⟩ := haccepted
  have hok : checked_layout () name capacity = .ok layout := hok
  unfold checked_layout at hok
  split at hok
  · cases hok
  split at hok
  · cases hok
  next mapping_size hsize =>
    cases hok
    exact ⟨rfl, hsize⟩

/-- The record headers are zero bytes among zero bytes. -/
theorem initialize_records_foldl (indices : List Nat) (m : Mapping SharedHeader ByteRing)
    (hm : m.live.shared = created) :
    (indices.map initialize_record).foldl (fun m update => update m) m = m := by
  have hkeep (index : Nat) : initialize_record index m = m := by
    have hdata : (fun k => if k / record_alignment = index then 0 else created.ring.data k) =
        created.ring.data := by
      funext k
      exact ite_self 0
    have hlive : set_ring (fun r => { r with
        data := fun k => if k / record_alignment = index then 0 else r.data k }) created = created :=
      congrArg (fun data => { created with ring := { created.ring with data := data } }) hdata
    unfold initialize_record store_live
    rw [hm, hlive, ← hm]
  rw [List.foldl_map]
  induction indices with
  | nil => rfl
  | cons index rest ih =>
    rw [List.foldl_cons, hkeep]
    exact ih

theorem made_eq (layout : Layout ByteChannel) : format.made () layout =
    { initialization := initialization_ready
      header := created_header layout.channel.capacity_bytes layout.mapping_size
      live := new_channel } := by
  unfold Format.made
  simp only [format, initialize_stores, List.foldl_append]
  rw [initialize_records_foldl]
  · rfl
  · rfl

theorem byte_channel_ext {channel channel' : ByteChannel} (hname : channel.name = channel'.name)
    (hcapacity : channel.capacity_bytes = channel'.capacity_bytes) : channel = channel' := by
  cases channel
  cases channel'
  cases hname
  cases hcapacity
  rfl

/-- `create` never makes the initialization word ready before its last store. -/
theorem initialize_stores_initialization : ∀ update ∈ initialize_stores () layout,
    ∀ m : Mapping SharedHeader ByteRing,
      (update m).initialization = m.initialization ∨ (update m).initialization = 0 := by
  intro update hupdate
  rw [initialize_stores, List.mem_append, List.mem_map] at hupdate
  rcases hupdate with hupdate | ⟨index, _, rfl⟩
  · revert update
    simp [initialize_header, store_header, store_live]
  · exact fun m => .inl rfl

theorem validate_mapping_made (haccepted : format.Accepted () name layout) :
    validate_mapping () name (created_header layout.channel.capacity_bytes layout.mapping_size)
      layout.mapping_size = .ok layout.channel := by
  obtain ⟨hname, hsize⟩ := accepted_spec haccepted
  have hvalid : ¬ capacity_is_invalid layout.channel.capacity_bytes := by
    have hlarger := layout.channel.larger
    have haligned := layout.channel.aligned
    have hbounded := layout.channel.bounded
    unfold capacity_is_invalid
    rw [sizeof_record_header, record_alignment]
    omega
  unfold validate_mapping
  rw [if_neg (by simp [created_header])]
  split
  next hinvalid => exact absurd hinvalid hvalid
  split
  next error herror =>
    simp only [created_header, hsize] at herror
    cases herror
  next expected hexpected =>
    simp only [created_header, hsize] at hexpected
    cases hexpected
    simp only [created_header, ne_eq, not_true_eq_false, or_self, if_false]
    exact congrArg Except.ok (byte_channel_ext hname.symm rfl)

theorem format_lawful : format.Lawful created fun _ _ => False where
  zeroed_unready capacity h := by cases h
  stores_unready kind layout update hupdate m hm := by
    rcases initialize_stores_initialization update hupdate m with hsame | hzero
    · rw [hsame]
      exact hm
    · rw [hzero]
      decide
  sizeof_header := by decide
  mapping_size := by
    intro kind name layout haccepted
    have hsize := (checked_mapping_size_eq (accepted_spec haccepted).2).1
    rw [hsize, data_offset_eq]
    exact Nat.le_add_right _ _
  made_live := by
    intro kind name layout _
    rw [made_eq]
    rfl
  validate_made := by
    intro kind name layout haccepted
    rw [made_eq]
    exact validate_mapping_made haccepted
  validate_other := by
    intro kind kind' name layout _ hother
    exact absurd rfl hother
  channel_unique := by
    intro kind kind' name layout layout' haccepted haccepted' hheader
    rw [made_eq, made_eq] at hheader
    simp only [created_header, SharedHeader.mk.injEq] at hheader
    obtain ⟨_, _, _, _, hcapacity, _⟩ := hheader
    exact byte_channel_ext ((accepted_spec haccepted).1.trans (accepted_spec haccepted').1.symm) hcapacity

end

end shmchan.byte_channel
