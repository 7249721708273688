import Shmchan.ByteChannel.Runs
import Shmchan.Endpoint.Closing

open process shmchan.endpoint

namespace shmchan.byte_channel

/-- A step that uses the ring without reserving, and that is not one of the
    fullness tests of a sender. -/
structure Touches (s s' : Memory) : Prop extends Uses ByteRing.write_position s s' where
  message : s'.log.message = s.log.message
  lacked : s'.ring.lacked = s.ring.lacked
  outrun : s'.ring.outrun = s.ring.outrun

section

variable {channel : ByteChannel} {pid : Nat} {s s' : Memory} {α β : Type}

theorem Touches.refl (s : Memory) : Touches s s := ⟨.refl _ s, rfl, rfl, rfl⟩

theorem Touches.of_undisturbed (h : Undisturbed s s') : Touches s s' := by
  have huses : Uses ByteRing.write_position s s' := .of_undisturbed h
  obtain ⟨_, _, _, rfl⟩ := h
  exact ⟨huses, rfl, rfl, rfl⟩

theorem Touches.of_ite {p : Prop} [Decidable p] (h : Touches s s') : Touches s (if p then s' else s) := by
  split
  · exact h
  · exact .refl s

/-- A step that leaves the history of the ring alone. -/
theorem Touches.of_log (hsender_state : s'.sender_state = s.sender_state) (hclosings : s'.closings = s.closings)
    (hguards : s'.guards = s.guards) (hcount : s'.log.count = s.log.count)
    (hmessage : s'.log.message = s.log.message) (hphase : s'.log.phase = s.log.phase)
    (htail : s'.ring.write_position = s.ring.write_position) (hlacked : s'.ring.lacked = s.ring.lacked)
    (houtrun : s'.ring.outrun = s.ring.outrun) : Touches s s' :=
  ⟨⟨hsender_state, hclosings, hguards, hcount, htail, fun i => .inl (congrFun hphase i)⟩, hmessage, hlacked,
    houtrun⟩

theorem touches_set_ring {f : ByteRing → ByteRing} (s : Memory)
    (htail : (f s.ring).write_position = s.ring.write_position) (hlacked : (f s.ring).lacked = s.ring.lacked)
    (houtrun : (f s.ring).outrun = s.ring.outrun) : Touches s (set_ring f s) :=
  .of_log rfl rfl rfl rfl rfl rfl htail hlacked houtrun

theorem touching_bind {p : Prog Memory α} {f : α → Prog Memory β} (hp : p.Always Touches fun _ => True)
    (hf : ∀ a, (f a).Always Touches fun _ => True) : (p >>= f).Always Touches fun _ => True :=
  hp.bind fun a _ => hf a

theorem touching_load (f : Memory → α) : (Prog.load f).Always Touches fun _ => True :=
  Prog.always_load Touches.refl f

theorem touching_of_undisturbed {P : α → Prop} {p : Prog Memory α} (hp : p.Always Undisturbed P) :
    p.Always Touches fun _ => True :=
  hp.mono (fun _ _ => Touches.of_undisturbed) fun _ _ => trivial

theorem touching_store_word (index position field value : Nat) :
    (store_word channel index position field value).Always Touches fun _ => True :=
  Prog.always_store fun s => touches_set_ring s rfl rfl rfl

theorem touching_load_word (index position field : Nat) :
    (load_word channel index position field).Always Touches fun _ => True :=
  ⟨fun s => touches_set_ring s rfl rfl rfl, fun _ => trivial⟩

theorem touching_copy_to_record (index position size : Nat) (bytes : Bytes) (k : Nat) :
    (copy_to_record channel index position size bytes k).Always Touches fun _ => True := by
  induction bytes generalizing k with
  | nil => trivial
  | cons byte rest ih => exact ⟨fun s => touches_set_ring s rfl rfl rfl, fun _ => ih (k + 1)⟩

theorem touching_copy_from_record (index position size count k : Nat) :
    (copy_from_record channel index position size count k).Always Touches fun _ => True := by
  induction count generalizing k with
  | zero => trivial
  | succ count ih =>
    have hload : (Prog.modifyGet (fun s => s.ring.data (payload_byte channel.capacity_bytes position size k))
        (set_ring fun r => { r with accesses :=
          ⟨index, payload_byte channel.capacity_bytes position size k, 1⟩ :: r.accesses }) :
        Prog Memory UInt8).Always Touches fun _ => True :=
      ⟨fun s => touches_set_ring s rfl rfl rfl, fun _ => trivial⟩
    exact touching_bind hload fun _ => touching_bind (ih (k + 1)) fun _ => trivial

theorem touching_spin_reclaim_lock (spin : Nat) : (spin_reclaim_lock spin).Always Touches fun _ => True := by
  induction spin with
  | zero => trivial
  | succ spin ih =>
    apply touching_bind (touching_load _)
    intro lock
    split
    · trivial
    · exact ih

theorem touching_wait_reclaim_lock (outcome : WaitOutcome) :
    (wait_reclaim_lock pid outcome).Always Touches fun _ => True := by
  unfold wait_reclaim_lock
  split
  · trivial
  refine ⟨fun s => touches_set_ring s ?_ ?_ ?_, fun s => ?_⟩
  · split <;> rfl
  · split <;> rfl
  · split <;> rfl
  · simp only [Prog.bind]
    split
    · exact ⟨fun s => touches_set_ring s rfl rfl rfl, fun _ => trivial⟩
    · trivial

theorem touching_reclaim_lock_guard (turns : List LockTurn) :
    (reclaim_lock_guard pid turns).Always Touches fun _ => True := by
  induction turns with
  | nil => trivial
  | cons turn turns ih =>
    unfold reclaim_lock_guard
    refine ⟨fun s => .of_ite (touches_set_ring s rfl rfl rfl), fun s => ?_⟩
    simp only
    split
    · trivial
    apply touching_bind (touching_spin_reclaim_lock 32)
    intro _
    apply touching_bind (touching_load _)
    intro lock
    split
    · exact touching_bind (touching_wait_reclaim_lock turn.outcome) fun _ => ih
    · exact ih

theorem touching_leave_reclaim_lock (pick : Nat) :
    (leave_reclaim_lock pid pick).Always Touches fun _ => True :=
  ⟨fun s => touches_set_ring s rfl rfl rfl, fun _ =>
    ⟨fun _ => .of_log rfl rfl rfl rfl rfl rfl rfl rfl rfl, fun _ => trivial⟩⟩

theorem touches_end_scan (ended : Memory → Bool) (s : Memory) : Touches s (end_scan pid ended s) :=
  .of_ite (touches_set_ring s rfl rfl rfl)

theorem touches_reclaim (position total_size : Nat) (s : Memory) :
    Touches s (reclaim pid position total_size s) :=
  .of_log rfl rfl rfl rfl rfl rfl rfl rfl rfl

/-- A load that may end the scan, and what follows it. -/
theorem touching_scan (f : Memory → α) (ended : Memory → Bool) {k : α → Prog Memory β}
    (hk : ∀ a, (k a).Always Touches fun _ => True) :
    (.modifyGet f (end_scan pid ended) >>= k).Always Touches fun _ => True :=
  ⟨touches_end_scan ended, fun _ => hk _⟩

theorem touching_reclaim_loop (scans : List Bool) (position : Nat) (reclaimed_any : Bool) :
    (reclaim_loop channel pid scans position reclaimed_any).Always Touches fun _ => True := by
  induction scans generalizing position reclaimed_any with
  | nil =>
    unfold reclaim_loop
    apply touching_scan
    intro claimed
    split
    · trivial
    apply touching_scan
    intro state
    split
    · trivial
    apply touching_bind (touching_load _)
    intro total_size
    split <;> trivial
  | cons spurious scans ih =>
    unfold reclaim_loop
    apply touching_scan
    intro claimed
    split
    · trivial
    apply touching_scan
    intro state
    split
    · trivial
    apply touching_bind (touching_load _)
    intro total_size
    split
    · trivial
    refine ⟨fun s => .of_ite (touches_reclaim position total_size s), fun s => ?_⟩
    simp only
    split
    · exact ih _ _
    · exact ih _ _

theorem touching_reclaim_consumed (chances : DequeueChances) :
    (reclaim_consumed channel pid chances).Always Touches fun _ => True := by
  unfold reclaim_consumed
  apply touching_bind (touching_reclaim_lock_guard chances.lock)
  intro locked
  split
  · trivial
  apply touching_bind (touching_load _)
  intro position
  apply touching_bind (touching_reclaim_loop chances.scans position false)
  intro reclaimed
  cases reclaimed with
  | none => trivial
  | some reclaimed_any =>
    have hsignal : (signal_reclaimed pid reclaimed_any).Always Touches fun _ => True := by
      unfold signal_reclaimed
      split
      · exact touching_bind (touching_of_undisturbed (undisturbed_bump pid .writable))
          fun _ => touching_of_undisturbed (undisturbed_wake_all pid .writable)
      · trivial
    apply touching_bind hsignal
    intro _
    exact touching_bind (touching_leave_reclaim_lock chances.unlock_pick) fun _ => trivial

theorem touches_publish (index position : Nat) (s : Memory) :
    Touches s (publish channel pid index position s) :=
  ⟨.of_update rfl rfl rfl rfl rfl rfl Phase.noConfusion fun _ => Phase.noConfusion, rfl, rfl, rfl⟩

theorem touches_consume (index position : Nat) (value : Option Bytes) (s : Memory) :
    Touches s (consume channel pid index position value s) :=
  ⟨.of_update rfl rfl rfl rfl rfl rfl Phase.noConfusion fun _ => Phase.noConfusion, rfl, rfl, rfl⟩

theorem touches_claim (position : Nat) (s : Memory) : Touches s (claim channel pid position s) :=
  ⟨.of_update rfl rfl rfl rfl rfl rfl Phase.noConfusion fun _ => Phase.noConfusion, rfl, rfl, rfl⟩

theorem touches_advance (position total_size : Nat) (s : Memory) :
    Touches s (advance pid position total_size s) :=
  .of_log rfl rfl rfl rfl rfl rfl rfl rfl rfl

theorem touching_finish_record (index position : Nat) (value : Option Bytes) (chances : DequeueChances)
    (ended : Ended (Option Bytes)) :
    (finish_record channel pid index position value chances ended).Always Touches fun _ => True := by
  refine ⟨touches_consume index position value, fun _ => ?_⟩
  apply touching_bind (touching_reclaim_consumed chances)
  intro finished
  split <;> trivial

theorem touching_take_record (index position : Nat) (chances : DequeueChances) :
    (take_record channel pid index position chances).Always Touches fun _ => True := by
  unfold take_record
  apply touching_bind (touching_load_word index position 8)
  intro total_size
  apply touching_bind (touching_load_word index position 16)
  intro payload_size
  split
  · exact touching_finish_record _ _ _ _ _
  refine ⟨fun s => .of_ite (touches_advance position total_size s), fun s => ?_⟩
  simp only
  split
  · apply touching_bind (touching_of_undisturbed (undisturbed_bump pid .readable))
    intro _
    apply touching_bind (touching_of_undisturbed (undisturbed_wake_one pid .readable chances.pick))
    intro _
    split
    · exact touching_finish_record _ _ _ _ _
    · exact touching_bind (touching_copy_from_record _ _ _ _ _) fun _ => touching_finish_record _ _ _ _ _
  · exact touching_finish_record _ _ _ _ _

theorem touching_try_dequeue (chances : DequeueChances) :
    (try_dequeue channel pid chances).Always Touches fun _ => True := by
  unfold try_dequeue
  refine ⟨fun _ => .of_log rfl rfl rfl rfl rfl rfl rfl rfl rfl, fun s => ?_⟩
  refine ⟨fun s => .of_ite (.of_log rfl rfl rfl rfl rfl rfl rfl rfl rfl), fun s => ?_⟩
  simp only [Prog.bind]
  split
  · trivial
  refine ⟨fun s => ?_, fun s => ?_⟩
  · simp only
    split
    · exact touches_claim _ s
    · exact .of_log rfl rfl rfl rfl rfl rfl rfl rfl rfl
  · simp only
    split
    · exact touching_take_record _ _ chances
    · trivial

/-- A reliance for which only the reservations and the fullness tests matter. -/
structure Indifferent (R : Reliance Memory Nat) : Prop where
  protocol : Protocol R Unreserved
  touches : ∀ s s', Touches s s' → R.inv s → R.inv s' ∧ ∀ pid, R.rely pid s s'
  holding : ∀ pid i, Stable R pid (Holding pid i)

section

variable {R : Reliance Memory Nat} {Q A : Memory → Prop}

theorem Indifferent.safe (hR : Indifferent R) {P : α → Prop} {p : Prog Memory α} (hp : p.Always Touches P)
    (hA : Stable R pid A) (h : A s) : SafeWithin Q R pid (fun a s' => P a ∧ A s') p s := by
  apply SafeWithin.of_always hp hA _ h
  intro s s' htouches hinv h
  obtain ⟨hinv', hrely⟩ := hR.touches s s' htouches hinv
  exact ⟨hinv', fun other _ => hrely other, hA s s' (hrely pid) hinv' h⟩

/-- The sender fills and publishes the record it has reserved. -/
theorem Indifferent.fill_record (hR : Indifferent R) (index position : Nat) (message : Bytes) (pick : Nat)
    (hholding : Holding pid index s) :
    SafeWithin Q R pid (fun _ s' => Ready Unreserved pid s')
      (fill_record channel pid index position message pick) s := by
  have hheld : Stable R pid (Holding pid index) := hR.holding pid index
  have hready_stable := hR.protocol.ready_stable pid
  unfold byte_channel.fill_record
  apply (hR.safe (touching_store_word index position 8 _) hheld hholding).bind
  rintro _ s₁ ⟨_, h₁⟩
  apply (hR.safe (touching_store_word index position 16 _) hheld h₁).bind
  rintro _ s₂ ⟨_, h₂⟩
  apply (hR.safe (touching_store_word index position 24 _) hheld h₂).bind
  rintro _ s₃ ⟨_, h₃⟩
  apply (hR.safe (touching_copy_to_record index position message.length message 0) hheld h₃).bind
  rintro _ s₄ ⟨_, h₄⟩
  apply SafeWithin.modifyGet hheld h₄
  intro s₅ h₅ hinv₅ _ _
  obtain ⟨hinv, hrely⟩ := hR.touches _ _ (@touches_publish channel pid index position s₅) hinv₅
  refine ⟨hinv, fun other _ => hrely other, ?_⟩
  have hready : Ready Unreserved pid (publish channel pid index position s₅) := h₅.publish rfl rfl
  apply (hR.safe (touching_of_undisturbed (undisturbed_bump pid .readable)) hready_stable hready).bind
  rintro _ s₆ ⟨_, h₆⟩
  apply (hR.safe (touching_of_undisturbed (undisturbed_wake_one pid .readable pick)) hready_stable h₆).mono
  exact fun _ _ h => h.2

theorem Indifferent.try_dequeue (hR : Indifferent R) :
    TriesDequeue Q R Unreserved pid (fun _ _ => True) (fun _ _ => True) (try_dequeue channel pid) := by
  intro chances s hidle
  apply (hR.safe (touching_try_dequeue chances) (hR.protocol.stable pid) hidle).mono
  rintro ended s' ⟨_, h'⟩
  cases ended with
  | returned value => exact ⟨h', trivial⟩
  | thrown error => exact ⟨h', trivial⟩
  | unfinished => trivial

end

end

end shmchan.byte_channel
