import Shmchan.Managed.Management.Runs

open process

namespace shmchan.managed

/-- A process that is between two requests makes one, and runs for `count`
    actions; no call is refused. -/
def request (c : Config Namespace Client Nat) (pid : Nat) (client : Client) (r : Request) (count : Nat) :
    Config Namespace Client Nat :=
  Config.advance pid count
    ⟨c.shared, Function.update c.procs pid (perform pid client r fun _ => false)⟩

section

variable {object_name : String} {failures : Bool} {c c' init : Config Namespace Client Nat} {k : Nat}

theorem reachable_request {pid : Nat} {client : Client} {r : Request}
    (hreach : Reachable (management object_name failures) init c) (hprocs : c.procs pid = .ret client)
    (hadmitted : r.admitted object_name client) (halive : client.reply ≠ .dead) (count : Nat) :
    Reachable (management object_name failures) init (request c pid client r count) :=
  Reachable.advance (hreach.step (.start hprocs ⟨r, _, hadmitted, halive, fun _ => rfl, rfl⟩)) pid count

theorem request_procs_of_ne {pid other : Nat} (hother : other ≠ pid) (client : Client) (r : Request)
    (count : Nat) : (request c pid client r count).procs other = c.procs other := by
  rw [request, Config.advance_procs_of_ne hother]
  exact Function.update_of_ne hother _ _

/-- Until some `create` comes late, every step of a run leaves a ready channel
    alive. -/
theorem live_step (hreach : Reachable (management object_name failures) unnamed c)
    (hstep : Step (management object_name failures) c c') (htimely : c'.shared.late = false) :
    c.shared.late = false ∧ ∀ k, (c.shared.objects k).ready = true →
      Live operations k (c.shared.objects k) (c'.shared.objects k) := by
  obtain ⟨hinv, hsafe⟩ := management_reachable hreach
  obtain ⟨pid, hothers⟩ := (management_adequate object_name failures).rely_step hinv hsafe hstep
  have hrely : NamespaceRely (fun _ => operations) (pid + 1) c.shared c'.shared :=
    hothers (pid + 1) (Nat.succ_ne_self pid)
  exact ⟨hrely.late htimely, hrely.ready htimely⟩

theorem live_run (hreach : Reachable (management object_name failures) unnamed c)
    (hlater : Reachable (management object_name failures) c c') (htimely : c'.shared.late = false)
    (hready : (c.shared.objects k).ready = true) :
    Live operations k (c.shared.objects k) (c'.shared.objects k) := by
  induction hlater with
  | refl => exact .refl _ k _
  | tail hrun hstep ih =>
    obtain ⟨htimely', hkeeps⟩ := live_step (Relation.ReflTransGen.trans hreach hrun) hstep htimely
    have hfirst := ih htimely'
    exact hfirst.trans (hkeeps k (hfirst.maintained.ready.trans hready))

/-- Only the words that `unlink` stores into may differ, and the sleepers: the
    slots, the payloads, the mutex, the sequence counter and the identity do not. -/
def OnlyMarked (m m' : Memory) : Prop :=
  m' = { m with
    header := { m.header with state := m'.header.state, event_epoch := m'.header.event_epoch }
    waiters := m'.waiters }

/-- What the actions of a request leave of a ready channel `k`: an operation
    acts on its own channel only, `unlink` marks the channel and wakes the
    sleepers, and the other calls write nothing. -/
def Request.Keeps (pid k : Nat) (request : Request) (o o' : ShmObject) : Prop :=
  o'.size = o.size ∧
  match request with
  | create _ _ => o'.memory = o.memory
  | open_existing _ _ => o'.memory = o.memory
  | open_or_create _ _ => o'.memory = o.memory
  | unlink _ => OnlyMarked o.memory o'.memory
  | operate object op c => (k ≠ object → o'.memory = o.memory) ∧
      Relation.ReflTransGen (fun m m' => ∃ update, (attempt pid op c).Acts update ∧ m' = update m)
        o.memory o'.memory

theorem OnlyMarked.trans {m₁ m₂ m₃ : Memory} (h : OnlyMarked m₁ m₂) (h' : OnlyMarked m₂ m₃) :
    OnlyMarked m₁ m₃ := by
  rw [OnlyMarked] at h h' ⊢
  rw [h', h]

theorem unlink_mapping_marks : unlink_mapping.Always OnlyMarked fun _ => True := by
  unfold unlink_mapping signal_managed_event
  exact ⟨fun _ => rfl, fun _ => ⟨fun _ => rfl, fun _ => ⟨fun _ => rfl, fun _ => trivial⟩⟩⟩

/-- What a request may write in one action, and so in any number of them. -/
theorem Live.keeps {pid : Nat} {request : Request} {o o' : ShmObject}
    (h : Live (request.conduct pid) k o o') : request.Keeps pid k o o' := by
  refine ⟨h.size, ?_⟩
  have hsteps : Relation.ReflTransGen (request.writes pid k) o.memory o'.memory := h.steps
  -- where nothing may be written
  have hnothing (hnone : ∀ m m', ¬ request.writes pid k m m') : o'.memory = o.memory := by
    rcases Relation.ReflTransGen.cases_head hsteps with heq | ⟨m, hwrites, _⟩
    · exact heq.symm
    · exact absurd hwrites (hnone _ m)
  cases request with
  | create name options => exact hnothing fun _ _ h => h
  | open_existing name protocol => exact hnothing fun _ _ h => h
  | open_or_create name options => exact hnothing fun _ _ h => h
  | unlink name =>
    have hmarks {m : Memory} (hsteps : Relation.ReflTransGen ((Request.unlink name).writes pid k) o.memory m) :
        OnlyMarked o.memory m := by
      induction hsteps with
      | refl => rfl
      | tail _ hwrites ih =>
        obtain ⟨update, hacts, rfl⟩ := hwrites
        exact ih.trans (unlink_mapping_marks.acts hacts _)
    exact hmarks hsteps
  | operate object op c =>
    refine ⟨fun hother => hnothing fun _ _ h => hother h.1, ?_⟩
    exact Relation.ReflTransGen.mono (fun _ _ h => h.2) _ _ hsteps

/-- As long as no `create` gets the lock of an object that is already ready, a
    ready channel is never initialised again. It keeps its size and its
    identity, only operations, the stores of `unlink` and deaths ever write to
    it; and whatever the other processes do during a request, no action of a
    management call changes anything of it, but `unlink` marks it. -/
theorem live_channels_are_kept (hreach : Reachable (management object_name failures) unnamed c) :
    (∀ c' k, Reachable (management object_name failures) c c' → c'.shared.late = false →
      (c.shared.objects k).ready = true →
      Live operations k (c.shared.objects k) (c'.shared.objects k) ∧ (c'.shared.objects k).ready = true ∧
        (c'.shared.objects k).memory.header.identity = (c.shared.objects k).memory.header.identity) ∧
    ∀ pid client (request : Request) fails own c', c.procs pid = .ret client →
      request.admitted object_name client → client.reply ≠ .dead →
      (failures = false → fails = fun _ => false) →
      OwnRun (management object_name failures) (fun _ => False) pid
        ⟨c.shared, Function.update c.procs pid (perform pid client request fails)⟩ own c' →
      ∀ x ∈ own, x.2.late = false → ∀ k, (x.1.objects k).ready = true →
        request.Keeps pid k (x.1.objects k) (x.2.objects k) := by
  constructor
  · intro c' k hlater htimely hready
    have hlive := live_run hreach hlater htimely hready
    exact ⟨hlive, hlive.maintained.ready.trans hready, hlive.maintained.identity⟩
  · intro pid client request fails own c' hprocs hadmitted halive hclean hown x hx htimely k hready
    exact (request_writes hreach hprocs hadmitted halive hclean hown hx htimely hready).keeps

end

/-- A channel created by one process. -/
def one_created : Config Namespace Client Nat := request unnamed 0 {} (.create "ch" one_slot) 40

/-- A second process opens it or creates it. -/
def one_created_opened : Config Namespace Client Nat :=
  request one_created 1 {} (.open_or_create "ch" one_slot) 40

/-- The names in the examples below denote one object. -/
theorem ch_admitted {client : Client} {r : Request} (hname : r.name = some "ch") :
    r.admitted "/ch.shmchan.managed" client := by
  constructor
  · intro name resolved hname' hresolved
    rw [hname] at hname'
    cases hname'
    exact (Except.ok.inj hresolved).symm
  · rintro object op c rfl
    cases hname

theorem one_created_reachable :
    Reachable (management "/ch.shmchan.managed" true) unnamed one_created :=
  reachable_request .refl rfl (ch_admitted rfl) (fun h => by cases h) 40

/-- The actions of a second process that opens or creates the channel. -/
def opening_actions : List (Namespace × Namespace) :=
  Config.own_actions 1 40 ⟨one_created.shared, Function.update one_created.procs 1
    (perform 1 {} (.open_or_create "ch" one_slot) fun _ => false)⟩

/-- The actions of a second process that removes the name. -/
def unlinking_actions : List (Namespace × Namespace) :=
  Config.own_actions 1 40 ⟨one_created.shared, Function.update one_created.procs 1
    (perform 1 {} (.unlink "ch") fun _ => false)⟩

theorem live_channels_are_kept_one_slot :
    ((one_created.shared.objects 0).ready = true ∧
      Live operations 0 (one_created.shared.objects 0) (one_created_opened.shared.objects 0) ∧
      (one_created_opened.shared.objects 0).ready = true ∧
      (one_created_opened.shared.objects 0).memory.header.identity =
        (one_created.shared.objects 0).memory.header.identity) ∧
    (opening_actions ≠ [] ∧ ∀ x ∈ opening_actions,
      (x.2.objects 0).size = (x.1.objects 0).size ∧ (x.2.objects 0).memory = (x.1.objects 0).memory) ∧
    (∃ x ∈ unlinking_actions, (x.1.objects 0).Healthy ∧ ¬ (x.2.objects 0).Healthy) ∧
      ∀ x ∈ unlinking_actions, OnlyMarked (x.1.objects 0).memory (x.2.objects 0).memory := by
  obtain ⟨hruns, hactions⟩ := live_channels_are_kept one_created_reachable
  have hready : (one_created.shared.objects 0).ready = true := by rfl
  have htimely : one_created_opened.shared.late = false := by decide +kernel
  have hlater : Reachable (management "/ch.shmchan.managed" true) one_created one_created_opened :=
    reachable_request .refl rfl (ch_admitted rfl) (fun h => by cases h) 40
  have hopening : ∀ x ∈ opening_actions, x.2.late = false ∧ (x.1.objects 0).ready = true := by decide +kernel
  have hunlinking : ∀ x ∈ unlinking_actions, x.2.late = false ∧ (x.1.objects 0).ready = true := by
    decide +kernel
  refine ⟨⟨hready, hruns _ 0 hlater htimely hready⟩, ⟨by decide +kernel, fun x hx => ?_⟩,
    by decide +kernel, fun x hx => ?_⟩
  · exact hactions 1 {} (.open_or_create "ch" one_slot) (fun _ => false) opening_actions _ rfl
      (ch_admitted rfl) (fun h => by cases h) (fun _ => rfl) (.advance .refl 40) x hx (hopening x hx).1 0
      (hopening x hx).2
  · exact (hactions 1 {} (.unlink "ch") (fun _ => false) unlinking_actions _ rfl (ch_admitted rfl)
      (fun h => by cases h) (fun _ => rfl) (.advance .refl 40) x hx (hunlinking x hx).1 0
      (hunlinking x hx).2).2

/-- The same options under another version of the protocol. -/
def one_slot_v2 : ManagedChannelOptions :=
  { one_slot with protocol := { one_slot.protocol with version := 2 } }

/-- `create` has made the object, but not yet locked it. -/
def creating : Config Namespace Client Nat := request unnamed 0 {} (.create "ch" one_slot_v2) 1

/-- Meanwhile `open_or_create` locks and initialises it. -/
def created_in_between : Config Namespace Client Nat :=
  request creating 1 {} (.open_or_create "ch" one_slot) 40

/-- A message is sent on it, and `send` returns success. -/
def sent_in_between : Config Namespace Client Nat :=
  request created_in_between 1 ⟨[0], .mapped (.ok 0)⟩ (.operate 0 (.send [7] .nonblocking) {}) 60

/-- `create` goes on. -/
def created_late : Config Namespace Client Nat := sent_in_between.advance 0 40

/-- `create` initialises a live channel again: the message is gone, the
    sequence counter starts over, and the protocol is another one. -/
theorem late_create_erases_message :
    ∃ c c', Reachable (management "/ch.shmchan.managed" false) unnamed c ∧
      Reachable (management "/ch.shmchan.managed" false) c c' ∧
      (c.shared.objects 0).ready = true ∧ (c.shared.objects 0).memory.queue = [(1, [7])] ∧
      c.procs 1 = .ret ⟨[0], .operated (.sent .success)⟩ ∧
      (c'.shared.objects 0).memory.queue = [] ∧ (c'.shared.objects 0).memory.history.taken = [] ∧
      (c'.shared.objects 0).memory.header.next_sequence = 1 ∧
      ¬ Live operations 0 (c.shared.objects 0) (c'.shared.objects 0) := by
  have hcreating : Reachable (management "/ch.shmchan.managed" false) unnamed creating :=
    reachable_request .refl rfl (ch_admitted rfl) (fun h => by cases h) 1
  have hcreated : Reachable (management "/ch.shmchan.managed" false) unnamed created_in_between :=
    reachable_request hcreating rfl (ch_admitted rfl) (fun h => by cases h) 40
  have hopened : created_in_between.procs 1 = .ret ⟨[0], .mapped (.ok 0)⟩ :=
    Prog.eq_ret_of_shown (by decide +kernel)
  have hsent : Reachable (management "/ch.shmchan.managed" false) unnamed sent_in_between := by
    refine reachable_request hcreated hopened ⟨fun name resolved hname => ?_, fun object op c h => ?_⟩
      (fun h => by cases h) 60
    · cases hname
    · cases h
      exact ⟨Op.noConfusion, List.mem_cons_self⟩
  have hsuccess : sent_in_between.procs 1 = .ret ⟨[0], .operated (.sent .success)⟩ :=
    Prog.eq_ret_of_shown (by decide +kernel)
  have hbefore : (sent_in_between.shared.objects 0).ready = true ∧
      (sent_in_between.shared.objects 0).memory.queue = [(1, [7])] := by decide +kernel
  have hafter : (created_late.shared.objects 0).memory.queue = [] ∧
      (created_late.shared.objects 0).memory.history.taken = [] ∧
      (created_late.shared.objects 0).memory.header.next_sequence = 1 := by decide +kernel
  refine ⟨sent_in_between, created_late, hsent, .advance .refl 0 40, hbefore.1, hbefore.2, hsuccess,
    hafter.1, hafter.2.1, hafter.2.2, fun hlive => ?_⟩
  have hidentity : (created_late.shared.objects 0).memory.header.identity ≠
      (sent_in_between.shared.objects 0).memory.header.identity := by decide +kernel
  exact hidentity hlive.maintained.identity

end shmchan.managed
