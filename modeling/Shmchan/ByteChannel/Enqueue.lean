import Shmchan.ByteChannel.Transitions
import Shmchan.Endpoint.Quiet

open process shmchan.endpoint

namespace shmchan.byte_channel

section

variable {channel : ByteChannel} {pid : Nat} {s s' : Memory} {α : Type}

theorem Inv.undisturbed (h : Inv channel s) (hsame : Undisturbed s s') : Inv channel s' := by
  obtain ⟨_, _, _, rfl⟩ := hsame
  exact { h with }

theorem rely_of_undisturbed (channel : ByteChannel) (pid : Nat) (hsame : Undisturbed s s') :
    Rely channel pid s s' := by
  obtain ⟨_, _, _, rfl⟩ := hsame
  exact { Rely.refl channel pid s with }

theorem quiet_step {A : Memory → Prop} (hsame : Undisturbed s s') (hinv : Inv channel s)
    (hstable : Stable (ring_reliance channel) pid A) (hA : A s) :
    Inv channel s' ∧ (∀ other, other ≠ pid → Rely channel other s s') ∧ A s' := by
  have hinv' := hinv.undisturbed hsame
  exact ⟨hinv', fun other _ => rely_of_undisturbed channel other hsame,
    hstable s s' (rely_of_undisturbed channel pid hsame) hinv' hA⟩

/-- The programs that handle only the epoch words and their waiters keep every
    assertion about the ring. -/
theorem quiet_safe {P : α → Prop} {A : Memory → Prop} {p : Prog Memory α}
    (hp : p.Always Undisturbed P) (hstable : Stable (ring_reliance channel) pid A) (hA : A s) :
    SafeWithin Sane (ring_reliance channel) pid (fun a s' => P a ∧ A s') p s := by
  apply SafeWithin.of_always hp hstable _ hA
  exact fun s s' hsame hinv hA => quiet_step hsame hinv hstable hA

/-- The process holds no record and no lock, and has no scan to make. -/
structure Unheld (pid : Nat) (s : Memory) : Prop where
  holder : ∀ i, holder (s.log.phase i) ≠ some pid
  locker : s.ring.locker ≠ some pid
  owes_scan : s.ring.owes_scan pid = false

theorem unheld_stable (channel : ByteChannel) (pid : Nat) :
    Stable (ring_reliance channel) pid (Unheld pid) := by
  intro s s' hrely _ h
  refine ⟨fun i hi => ?_, fun hlocker => ?_, hrely.owes_scan.trans h.owes_scan⟩
  · have hsame := hrely.fresh i hi
    rw [hsame] at hi
    exact h.holder i hi
  · exact h.locker (hrely.locker.mp hlocker)

/-- The process is not using the ring. -/
structure Idle (pid : Nat) (s : Memory) : Prop extends Unheld pid s where
  receiving : s.receiving pid = false

theorem idle_stable (channel : ByteChannel) (pid : Nat) :
    Stable (ring_reliance channel) pid (Idle pid) := by
  intro s s' hrely hinv h
  exact ⟨unheld_stable channel pid s s' hrely hinv h.toUnheld, hrely.receiving.trans h.receiving⟩

/-- A registered sender that holds nothing. -/
structure Registered (pid : Nat) (s : Memory) : Prop extends Idle pid s where
  guard : pid ∈ s.guards

theorem registered_stable (channel : ByteChannel) (pid : Nat) :
    Stable (ring_reliance channel) pid (Registered pid) := by
  intro s s' hrely hinv h
  exact ⟨idle_stable channel pid s s' hrely hinv h.toIdle, hrely.guard.mpr h.guard⟩

/-- The sender has reserved a record: it has stored the first `words` of the
    three words after the state word and the first `k` bytes of the payload. -/
structure Filling (channel : ByteChannel) (pid index position : Nat) (message : Bytes) (words k : Nat)
    (s : Memory) : Prop where
  guard : pid ∈ s.guards
  locker : s.ring.locker ≠ some pid
  owes_scan : s.ring.owes_scan pid = false
  receiving : s.receiving pid = false
  phase : s.log.phase index = .reserved pid
  only : ∀ i, holder (s.log.phase i) = some pid → i = index
  index_lt : index < s.log.count
  content : s.log.message index = message
  place : offset s.log.message index = position
  total_size : 1 ≤ words →
    load64 s.ring.data (position % channel.capacity_bytes + 8) = record_size message.length
  payload_size : 2 ≤ words → load64 s.ring.data (position % channel.capacity_bytes + 16) = message.length
  bytes : ∀ j (hj : j < message.length), j < k →
    s.ring.data ((position + 32 + j) % channel.capacity_bytes) = message[j]

theorem filling_stable (channel : ByteChannel) (pid index position : Nat) (message : Bytes)
    (words k : Nat) :
    Stable (ring_reliance channel) pid (Filling channel pid index position message words k) := by
  intro s s' hrely hinv h
  have hinv : Inv channel s' := hinv
  have hphase : holder (s.log.phase index) = some pid := by rw [h.phase]; rfl
  have hmessage := (hrely.message index h.index_lt).trans h.content
  have hposition := (hrely.offset h.index_lt.le).trans h.place
  have hindex := h.index_lt.trans_le hrely.count
  have halign := hinv.aligned hindex.le
  have hsize := hinv.size_spec hindex
  rw [hposition] at halign
  rw [hmessage] at hsize
  have hbytes := hrely.bytes index h.index_lt hphase
  rw [h.content, h.place] at hbytes
  have hword {field : Nat} (hfield : field + 8 ≤ 32) :
      load64 s'.ring.data (position % channel.capacity_bytes + field) =
        load64 s.ring.data (position % channel.capacity_bytes + field) := by
    apply load64_congr
    intro k hk
    rw [channel.header_field halign (by omega)]
    exact hbytes (field + k) (by omega)
  refine ⟨hrely.guard.mpr h.guard, mt hrely.locker.mp h.locker, hrely.owes_scan.trans h.owes_scan,
    hrely.receiving.trans h.receiving, (hrely.held index hphase).trans h.phase, fun i hi => ?_, hindex, hmessage, hposition,
    fun hwords => ?_, fun hwords => ?_, fun j hj hjk => ?_⟩
  · have hsame := hrely.fresh i hi
    rw [hsame] at hi
    exact h.only i hi
  · rw [hword (by omega)]
    exact h.total_size hwords
  · rw [hword (by omega)]
    exact h.payload_size hwords
  · have hbyte := hbytes (32 + j) (by omega)
    rw [← Nat.add_assoc] at hbyte
    rw [hbyte]
    exact h.bytes j hj hjk

/-- A store of the sender into the record it fills. -/
theorem Filling.write {index position words k words' k' : Nat} {message : Bytes}
    {β : Type} {post : β → Memory → Prop} {f : Unit → Prog Memory β} {update : ByteRing → ByteRing}
    (h : Filling channel pid index position message words k s) (a : Access)
    (hupdate : ∀ s', Inv channel s' → Filling channel pid index position message words k s' →
      ∃ data', update s'.ring = { s'.ring with data := data', accesses := a :: s'.ring.accesses } ∧
        WritesInside channel position (record_size message.length) s'.ring.data data' ∧
        (∀ x, x % 32 = 0 → data' x = s'.ring.data x ∨ (AllTame s' → (data' x).toNat % 32 ≠ 1)) ∧
        Inside channel.capacity_bytes s'.log.message s'.log.count a ∧
        Filling channel pid index position message words' k' (set_ring update s'))
    (hf : ∀ s', Filling channel pid index position message words' k' s' →
      SafeWithin Sane (ring_reliance channel) pid post (f ()) s') :
    SafeWithin Sane (ring_reliance channel) pid post (.store (set_ring update) >>= f) s := by
  apply SafeWithin.act (filling_stable channel pid index position message words k) h
  intro s' hfilling hinv _ _ _
  obtain ⟨data', hring, hwrites, htame, hinside, hnext⟩ := hupdate s' hinv hfilling
  have hwrites' : WritesInside channel (offset s'.log.message index)
      (record_size (s'.log.message index).length) s'.ring.data data' := by
    rw [hfilling.place, hfilling.content]
    exact hwrites
  obtain ⟨hinv', hothers⟩ := Inv.write hinv hfilling.phase hwrites' htame hinside
  have heq : set_ring update s' =
      set_ring (fun r => { r with data := data', accesses := a :: r.accesses }) s' := by
    rw [set_ring, hring]
    rfl
  rw [heq] at hnext ⊢
  exact ⟨hinv', hothers, hf _ hnext⟩

theorem Filling.bounds {index position words k : Nat} {message : Bytes} (hinv : Inv channel s)
    (h : Filling channel pid index position message words k s) :
    position % 32 = 0 ∧ position % channel.capacity_bytes % 32 = 0 ∧
      position + message.length + 32 < 2 ^ 64 ∧ message.length + 32 ≤ record_size message.length ∧
      message.length + 32 ≤ channel.capacity_bytes ∧
      record_size message.length ≤ channel.capacity_bytes := by
  have halign := hinv.aligned h.index_lt.le
  have hsmall := hinv.placed.offset_le h.index_lt channel.bounded
  have hsize := hinv.size_spec h.index_lt
  have hfits := hinv.placed.fits index h.index_lt
  rw [h.place] at halign hsmall
  rw [h.content] at hsmall hsize hfits
  refine ⟨halign, ?_, hsmall, hsize.1, hfits, hsize.2.2⟩
  rw [Nat.mod_mod_of_dvd _ (Nat.dvd_of_mod_eq_zero channel.aligned)]
  exact halign

/-- The three words after the state word, in order. -/
theorem store_word_safe {index position words value : Nat} {message : Bytes} (hwords : words < 3)
    (hvalue : value < 2 ^ 64) (hfirst : words = 0 → value = record_size message.length)
    (hsecond : words = 1 → value = message.length)
    (h : Filling channel pid index position message words 0 s) {β : Type} {post : β → Memory → Prop}
    {f : Unit → Prog Memory β}
    (hf : ∀ s', Filling channel pid index position message (words + 1) 0 s' →
      SafeWithin Sane (ring_reliance channel) pid post (f ()) s') :
    SafeWithin Sane (ring_reliance channel) pid post
      (store_word channel index position (8 * (words + 1)) value >>= f) s := by
  refine h.write ⟨index, position % channel.capacity_bytes + 8 * (words + 1), 8⟩ (fun s' hinv h' => ?_) hf
  obtain ⟨halign, hhead, _, hsize, _, _⟩ := h'.bounds hinv
  refine ⟨_, rfl, writesInside_store64 _ halign (by omega) (by omega), fun x hx => .inl ?_, ?_, ?_⟩
  · exact store64_of_disjoint (by omega)
  · have := hinv.inside_header (8 * (words + 1)) h'.index_lt (by omega)
    rwa [h'.place] at this
  · refine { h' with
      total_size := fun _ => ?_, payload_size := fun _ => ?_
      bytes := fun j hj hjk => absurd hjk (Nat.not_lt_zero j) }
    · simp only [set_ring]
      by_cases hzero : words = 0
      · subst hzero
        rw [load64_store64 hvalue]
        exact hfirst rfl
      · rw [load64_store64_of_disjoint (by omega)]
        exact h'.total_size (by omega)
    · simp only [set_ring]
      by_cases hone : words = 1
      · subst hone
        rw [load64_store64 hvalue]
        exact hsecond rfl
      · rw [load64_store64_of_disjoint (by omega)]
        exact h'.payload_size (by omega)

theorem copy_to_record_safe {index position : Nat} {message : Bytes} :
    ∀ {rest : Bytes} {k : Nat} {s : Memory}, message.drop k = rest →
      Filling channel pid index position message 3 k s →
      SafeWithin Sane (ring_reliance channel) pid
        (fun _ s' => Filling channel pid index position message 3 message.length s')
        (copy_to_record channel index position message.length rest k) s := by
  intro rest
  induction rest with
  | nil =>
    intro k s hrest h
    exact { h with bytes := fun j hj _ => h.bytes j hj (by have := List.drop_eq_nil_iff.mp hrest; omega) }
  | cons byte rest ih =>
    intro k s hrest h
    have hk : k < message.length := by
      by_contra hge
      rw [List.drop_eq_nil_of_le (by omega)] at hrest
      cases hrest
    rw [List.drop_eq_getElem_cons hk] at hrest
    injection hrest with hbyte hrest
    refine h.write ⟨index, payload_byte channel.capacity_bytes position message.length k, 1⟩
      (fun s' hinv h' => ?_)
      fun s' (h' : Filling channel pid index position message 3 (k + 1) s') => ih hrest h'
    obtain ⟨halign, hhead, _, hsize, hfits, hcap⟩ := h'.bounds hinv
    rw [payload_byte_eq hfits hk]
    have hother {j : Nat} (hj : j < record_size message.length) (hne : j ≠ 32 + k) :
        (position + j) % channel.capacity_bytes ≠ (position + 32 + k) % channel.capacity_bytes := by
      intro heq
      rw [Nat.add_assoc] at heq
      exact hne (same_byte (by omega) (by omega) heq)
    have hword {field : Nat} (hfield : field + 8 ≤ 32) :
        load64 (Function.update s'.ring.data ((position + 32 + k) % channel.capacity_bytes) byte)
          (position % channel.capacity_bytes + field) =
        load64 s'.ring.data (position % channel.capacity_bytes + field) := by
      apply load64_congr
      intro j hj
      rw [channel.header_field halign (by omega)]
      exact Function.update_of_ne (hother (by omega) (by omega)) _ _
    refine ⟨_, rfl, fun x hx => ?_, fun x hx32 => ?_, ?_, ?_⟩
    · apply Function.update_of_ne
      rw [Nat.add_assoc]
      exact hx (32 + k) (by omega)
    · by_cases hxk : x = (position + 32 + k) % channel.capacity_bytes
      · right
        intro htame
        rw [hxk, Function.update_self, ← hbyte]
        have hmessage := htame index h'.index_lt
        rw [h'.content] at hmessage
        apply hmessage k hk
        rw [hxk, Nat.mod_mod_of_dvd _ (Nat.dvd_of_mod_eq_zero channel.aligned)] at hx32
        omega
      · exact .inl (Function.update_of_ne hxk _ _)
    · have hinside := hinv.inside_payload (i := index) (k := k) h'.index_lt (by rwa [h'.content])
      rwa [h'.place, h'.content, payload_byte_eq hfits hk] at hinside
    · refine { h' with
        total_size := fun hwords => ?_, payload_size := fun hwords => ?_, bytes := fun j hj hjk => ?_ }
      · exact (hword (by omega)).trans (h'.total_size hwords)
      · exact (hword (by omega)).trans (h'.payload_size hwords)
      · simp only [set_ring]
        by_cases hjk' : j = k
        · subst hjk'
          rw [Function.update_self, ← hbyte]
        · rw [Function.update_of_ne]
          · exact h'.bytes j hj (by omega)
          · rw [Nat.add_assoc]
            exact hother (by omega) (by omega)

/-- The sender fills the record it has reserved, publishes it and wakes a
    receiver. -/
theorem fill_record_safe {index position pick : Nat} {message : Bytes}
    (hfits : message.length + 32 ≤ channel.capacity_bytes)
    (h : Filling channel pid index position message 0 0 s) :
    SafeWithin Sane (ring_reliance channel) pid (fun _ s' => Registered pid s')
      (fill_record channel pid index position message pick) s := by
  have hbounded := channel.bounded
  have hcap := channel.record_size_le hfits
  unfold fill_record
  apply store_word_safe (by omega) (by omega) (fun _ => rfl) (fun hzero => by cases hzero) h
  intro s₁ h₁
  apply store_word_safe (by omega) (by omega) (fun hone => by cases hone) (fun _ => rfl) h₁
  intro s₂ h₂
  apply store_word_safe (by omega) (by omega) (fun htwo => by cases htwo) (fun htwo => by cases htwo) h₂
  intro s₃ h₃
  apply (copy_to_record_safe List.drop_zero h₃).bind
  intro _ s₄ h₄
  apply SafeWithin.act (filling_stable channel pid index position message 3 message.length) h₄
  intro s' h' hinv _ _ _
  have hinv : Inv channel s' := hinv
  have hbody : Body channel.capacity_bytes s'.ring.data position (s'.log.message index) := by
    rw [h'.content]
    exact ⟨h'.total_size (by omega), h'.payload_size (by omega), fun j hj => h'.bytes j hj hj⟩
  obtain ⟨hinv', hothers⟩ := hinv.after_publish h'.phase h'.place hbody
  have hregistered : Registered pid (publish channel pid index position s') := by
    refine ⟨⟨⟨fun i hi => ?_, h'.locker, h'.owes_scan⟩, h'.receiving⟩, h'.guard⟩
    simp only [publish] at hi
    by_cases hindex : i = index
    · rw [hindex, Function.update_self] at hi
      cases hi
    · rw [Function.update_of_ne hindex] at hi
      exact hindex (h'.only i hi)
  refine ⟨hinv', hothers, ?_⟩
  apply (quiet_safe (undisturbed_bump pid .readable) (registered_stable channel pid) hregistered).bind
  intro _ s₅ h₅
  apply (quiet_safe (undisturbed_wake_one pid .readable pick) (registered_stable channel pid) h₅.2).mono
  exact fun _ _ hend => hend.2

/-- A position at which the next record has begun. -/
def Past (bound : Memory → Nat) (position : Nat) (s : Memory) : Prop :=
  ∃ j, j ≤ bound s ∧ j ≤ s.log.count ∧ position = offset s.log.message j

theorem past_stable {bound : Memory → Nat} (position : Nat)
    (hbound : ∀ s s', Rely channel pid s s' → bound s ≤ bound s') :
    Stable (ring_reliance channel) pid (Past bound position) := by
  rintro s s' hrely _ ⟨j, hj, hcount, rfl⟩
  exact ⟨j, hj.trans (hbound s s' hrely), hcount.trans hrely.count, (hrely.offset hcount).symm⟩

/-- The history of the fullness test does not concern the ring. -/
theorem Inv.note (h : Inv channel s) (lacked : Nat → Bool) (required : Nat → Nat) (outrun : Nat → Bool)
    (writable : Event) :
    let r := { s.ring with lacked := lacked, required := required, outrun := outrun }
    Inv channel { s with ring := r, writable := writable } ∧
      ∀ other, Rely channel other s { s with ring := r, writable := writable } :=
  ⟨{ h with }, fun other => { Rely.refl channel other s with }⟩

/-- What a sender knows in the loop of `try_enqueue`. -/
def Trying (pid position : Nat) (s : Memory) : Prop :=
  Registered pid s ∧ Past (fun s => s.log.count) position s

theorem trying_stable (channel : ByteChannel) (pid position : Nat) :
    Stable (ring_reliance channel) pid (Trying pid position) :=
  (registered_stable channel pid).and (past_stable position fun _ _ hrely => hrely.count)

/-- The reservation is the beginning of a record. -/
theorem Registered.reserved {position : Nat} {message : Bytes} (h : Registered pid s)
    (hinv : Inv channel s) (hposition : s.ring.write_position = position) :
    Filling channel pid s.log.count position message 0 0 (reserve pid position message s) := by
  refine ⟨h.guard, h.locker, h.owes_scan, h.receiving, Function.update_self _ _ _, fun i hi => ?_, Nat.lt_succ_self _,
    Function.update_self _ _ _, ?_, fun hwords => absurd hwords (by omega),
    fun hwords => absurd hwords (by omega), fun j _ hj => absurd hj (Nat.not_lt_zero j)⟩
  · by_contra hne
    simp only [reserve, Function.update_of_ne hne] at hi
    exact h.holder i hi
  · rw [← hposition, hinv.placed.write_position]
    apply offset_congr
    intro i hi
    exact Function.update_of_ne (by omega) _ _

/-- The load of `reclaim_position`: later it is still a past one. -/
theorem load_reclaimed_safe {position required : Nat} {β : Type} {post : β → Memory → Prop}
    {f : Nat → Prog Memory β} (h : Trying pid position s)
    (hf : ∀ reclaimed s', Trying pid position s' → Past (fun s => s.ring.reclaimed) reclaimed s' →
      SafeWithin Sane (ring_reliance channel) pid post (f reclaimed) s') :
    SafeWithin Sane (ring_reliance channel) pid post
      (.modifyGet (fun s => s.ring.reclaim_position) (note_room channel pid position required) >>= f) s := by
  apply SafeWithin.act (trying_stable channel pid position) h
  intro s' h' hinv _ _ _
  have hinv : Inv channel s' := hinv
  obtain ⟨hinv', hothers⟩ := hinv.note
    (Function.update s'.ring.lacked pid (s'.ring.lacked pid || decide (free_space channel s' < required)))
    s'.ring.required (Function.update s'.ring.outrun pid (decide (position < s'.ring.reclaim_position))) s'.writable
  have hcounts := hinv.placed.reclaimed_le.trans hinv.placed.claimed_le
  exact ⟨hinv', fun other _ => hothers other,
    hf _ _ ⟨⟨⟨⟨h'.1.holder, h'.1.locker, h'.1.owes_scan⟩, h'.1.receiving⟩, h'.1.guard⟩, h'.2⟩
      ⟨s'.ring.reclaimed, le_rfl, hcounts, hinv.placed.reclaim_position⟩⟩

theorem enqueue_loop_safe {message : Bytes} {pick : Nat}
    (hfits : message.length + 32 ≤ channel.capacity_bytes) :
    ∀ {attempts : List Bool} {position : Nat} {s : Memory}, Trying pid position s →
      SafeWithin Sane (ring_reliance channel) pid (Ended.Post (fun _ => Registered pid) fun _ _ => False)
        (enqueue_loop channel pid message pick attempts position) s := by
  intro attempts
  induction attempts with
  | nil =>
    intro position s h
    unfold enqueue_loop
    apply load_reclaimed_safe h
    intro reclaimed s₁ h₁ _
    simp only
    split
    · exact h₁.1
    · trivial
  | cons spurious attempts ih =>
    intro position s h
    unfold enqueue_loop
    apply load_reclaimed_safe h
    intro reclaimed s₁ h₁ hpast
    simp only
    split
    · exact h₁.1
    next hroom =>
    apply SafeWithin.act ((trying_stable channel pid position).and
      (past_stable reclaimed fun _ _ hrely => hrely.reclaimed)) ⟨h₁, hpast⟩
    intro s' ⟨h', hpast'⟩ hinv hsane _ hsane'
    have hinv : Inv channel s' := hinv
    by_cases hexchanged : (!spurious && s'.ring.write_position == position) = true
    · simp only [hexchanged, if_true] at hsane' ⊢
      simp only [Bool.and_eq_true, beq_iff_eq] at hexchanged
      obtain ⟨j, hj, _, rfl⟩ := hpast'
      simp only [not_or, not_lt] at hroom
      have hreclaimed : offset s'.log.message j ≤ s'.ring.reclaim_position := by
        rw [hinv.placed.reclaim_position]
        exact offset_mono hj
      have hwrite := hinv.placed.write_position
      have htotal := hinv.placed.total
      have hle : offset s'.log.message j ≤ offset s'.log.message s'.log.count :=
        offset_mono (hj.trans (hinv.placed.reclaimed_le.trans hinv.placed.claimed_le))
      rw [sub64_of_le (by omega) (by omega)] at hroom
      obtain ⟨hinv', hothers⟩ := hinv.after_reserve h'.1.guard hexchanged.2 hfits (by omega) hsane'
      refine ⟨hinv', hothers, ?_⟩
      apply (fill_record_safe hfits (h'.1.reserved hinv hexchanged.2)).bind
      exact fun _ _ h₂ => h₂
    · simp only [hexchanged] at hsane' ⊢
      refine ⟨hinv, fun other _ => Rely.refl channel other s', ih ⟨h'.1, s'.log.count, le_rfl, le_rfl, ?_⟩⟩
      exact hinv.placed.write_position

theorem try_enqueue_safe {message : Bytes} (chances : EnqueueChances)
    (hfits : message.length + 32 ≤ channel.capacity_bytes) (h : Registered pid s) :
    SafeWithin Sane (ring_reliance channel) pid (Ended.Post (fun _ => Registered pid) fun _ _ => False)
      (try_enqueue channel pid message chances) s := by
  unfold try_enqueue
  apply SafeWithin.act (registered_stable channel pid) h
  intro s' h' hinv _ _ _
  have hinv : Inv channel s' := hinv
  obtain ⟨hinv', hothers⟩ := hinv.note (Function.update s'.ring.lacked pid false)
    (Function.update s'.ring.required pid (record_size message.length)) s'.ring.outrun
    (s'.writable.set_retry pid .none)
  refine ⟨hinv', fun other _ => hothers other, ?_⟩
  apply enqueue_loop_safe hfits
  exact ⟨⟨⟨⟨h'.holder, h'.locker, h'.owes_scan⟩, h'.receiving⟩, h'.guard⟩, s'.log.count, le_rfl, le_rfl,
    hinv.placed.write_position⟩

end

end shmchan.byte_channel
