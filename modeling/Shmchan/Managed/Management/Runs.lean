import Shmchan.Process.Own
import Shmchan.Managed.Management.OpenOrCreate

open process

namespace shmchan.managed

/-- What `unlink` knows before it removes the name. -/
structure Marked (failures : Bool) (pid k : Nat) (s : Namespace) : Prop extends Flocked pid k s where
  settled : failures = false → (s.objects k).Settled
  unhealthy : failures = false → ¬ (s.objects k).Healthy

/-- What is known of a process between two requests. -/
structure Between (pid : Nat) (client : Client) (s : Namespace) : Prop where
  unlocked : Unlocked pid s
  handles : ∀ k ∈ client.handles, Mapped k s

/-- How the actions of a request may write to a ready channel `k`. -/
def Request.writes (pid k : Nat) : Request → Memory → Memory → Prop
  | create _ _, _, _ => False
  | open_existing _ _, _, _ => False
  | open_or_create _ _, _, _ => False
  | unlink _, m, m' => ∃ update, unlink_mapping.Acts update ∧ m' = update m
  | operate object op c, m, m' => k = object ∧ ∃ update, (attempt pid op c).Acts update ∧ m' = update m

theorem Request.operation {request : Request} {pid k : Nat} {m m' : Memory}
    (h : request.writes pid k m m') : OperationStep m m' := by
  cases request with
  | create name options => exact h.elim
  | open_existing name protocol => exact h.elim
  | open_or_create name options => exact h.elim
  | unlink name =>
    obtain ⟨update, hacts, rfl⟩ := h
    exact .inl ⟨pid, .unlink, {}, update, hacts, rfl⟩
  | operate object op c =>
    obtain ⟨_, update, hacts, rfl⟩ := h
    exact .inl ⟨pid, op, c, update, hacts, rfl⟩

/-- What one request may do to ready channels. -/
def Request.conduct (pid : Nat) (request : Request) : Conduct :=
  ⟨fun k => request.writes pid k, fun h => (Request.operation h).kept⟩

section

variable {W : Nat → Conduct} {failures : Bool} {pid k : Nat} {s s' : Namespace} {fails : Syscall → Bool}

theorem Marked.rely (h : Marked failures pid k s) (hrely : NamespaceRely W pid s s') :
    Marked failures pid k s' := by
  have hkept := hrely.locked k h.exclusive
  exact ⟨h.toFlocked.rely hrely, fun hfailures => hkept.settled (h.settled hfailures),
    fun hfailures hhealthy => h.unhealthy hfailures (hkept.healthy hhealthy)⟩

/-- When every action of a program is within every conduct, so is the program. -/
theorem always_allowed {p : Prog Memory Outcome}
    (hwrites : ∀ update, p.Acts update → ∀ other m, (W other).allows k m (update m)) :
    p.Always (fun m m' => ∀ other, (W other).allows k m m') fun _ => True := by
  refine (Prog.always_acts p).mono ?_ fun _ h => h
  rintro m _ ⟨update, hacts, rfl⟩ other
  exact hwrites update hacts other m

theorem Flocked.set_memory (h : Flocked pid k s) (update : Memory → Memory) :
    Flocked pid k (s.set_memory k update) := by
  refine ⟨h.allocated, ?_, fun j hj => ?_⟩
  · rw [set_memory_self]
    exact h.exclusive
  · rw [Namespace.set_memory, set_object_of_ne hj]
    exact h.only j hj

/-- An action within every conduct, by the holder of the lock. -/
theorem Marked.set_memory (h : Flocked pid k s) (hsettled : failures = false → (s.objects k).Settled)
    {update : Memory → Memory} (hupdate : ∀ m other, (W other).allows k m (update m))
    (hunhealthy : failures = false → ¬ ({ s.objects k with memory := update (s.objects k).memory } :
      ShmObject).Healthy) : Marked failures pid k (s.set_memory k update) := by
  have hkept := Maintained.memory (fun other m => hupdate m other) (s.objects k)
  refine ⟨h.set_memory update, fun hfailures => ?_, fun hfailures => ?_⟩
  · rw [set_memory_self]
    exact hkept.settled (hsettled hfailures)
  · rw [set_memory_self]
    exact hunhealthy hfailures

/-- The two events of `unlink` on the mapping. -/
theorem unlink_mapping_safe
    (hwrites : ∀ update, unlink_mapping.Acts update → ∀ other m, (W other).allows k m (update m))
    (h : Flocked pid k s) (hsettled : failures = false → (s.objects k).Settled) :
    Safe (name_reliance W failures) pid (fun _ s' => Marked failures pid k s') (mapped k unlink_mapping) s := by
  have hall := always_allowed hwrites
  intro s' hrely hinv _
  have h' := h.rely hrely
  have hsettled' (hfailures : failures = false) :=
    (hrely.locked k h.exclusive).settled (hsettled hfailures)
  obtain ⟨hinv', hothers⟩ := hinv.operation h'.allocated fun other m => hall.1 m other
  refine ⟨hinv', fun other _ => hothers other, ?_⟩
  refine (Safe.focus (A := Marked failures pid k) (hall.2 (s'.objects k).memory)
    (fun t t' hrely' _ ht => ht.rely hrely') ?_ (.set_memory h' hsettled' hall.1 fun _ hhealthy => ?_)).mono
    fun _ _ hend => hend.2
  · intro t update hupdate hinv₁ ht
    obtain ⟨hinv₂, hothers₂⟩ := hinv₁.operation ht.allocated fun other m => hupdate m other
    refine ⟨hinv₂, fun other _ => hothers₂ other, .set_memory ht.toFlocked ht.settled hupdate ?_⟩
    exact fun hfailures hhealthy => ht.unhealthy hfailures (((W 0).kept (hupdate _ 0)).2 hhealthy)
  · cases hhealthy

/-- The part of `unlink` before the name is removed: afterwards the object is
    not a healthy channel. -/
theorem mark_destroying_safe
    (hwrites : ∀ update, unlink_mapping.Acts update → ∀ other m, (W other).allows k m (update m))
    (hclean : failures = false → fails = fun _ => false) (h : Flocked pid k s)
    (hsettled : failures = false → (s.objects k).Settled) :
    Safe (name_reliance W failures) pid (fun _ s' => Marked failures pid k s') (mark_destroying k fails) s := by
  have hskip {call : Syscall} {s' : Namespace} (h' : Flocked pid k s') (hfails : fails call = true) :
      Marked failures pid k s' := by
    have hfailures := refused hclean hfails
    exact ⟨h', fun hnone => absurd (hnone.symm.trans hfailures) Bool.false_ne_true,
      fun hnone => absurd (hnone.symm.trans hfailures) Bool.false_ne_true⟩
  have hforeign {s' : Namespace} (hrely : NamespaceRely W pid s s')
      (hnot : ¬ (s'.objects k).Recognised) : Marked failures pid k s' := by
    have hsettled' (hfailures : failures = false) := (hrely.locked k h.exclusive).settled (hsettled hfailures)
    exact ⟨h.rely hrely, hsettled', fun hfailures hhealthy => hnot ((hsettled' hfailures).healthy hhealthy).2⟩
  unfold mark_destroying
  split
  next hfails => exact hskip h hfails
  refine load_safe fun s₁ hrely₁ _ => ?_
  split
  next hsize =>
    split
    next hfails => exact hskip (h.rely hrely₁) hfails
    refine mapped_load_safe fun s₂ hrely₂ hinv₂ => ?_
    have hkept₂ := hrely₂.locked k (h.rely hrely₁).exclusive
    split
    next _ =>
      have hsettled₂ (hfailures : failures = false) :=
        ((hrely₁.trans hrely₂).locked k h.exclusive).settled (hsettled hfailures)
      exact (unlink_mapping_safe hwrites (h.rely (hrely₁.trans hrely₂)) hsettled₂).bind
        fun _ _ hmarked => hmarked
    next hheader =>
      refine hforeign (hrely₁.trans hrely₂) fun hrecognised => hheader ⟨hrecognised.2.1, ?_⟩
      exact hrecognised.2.2.trans hkept₂.size
  next hsize => exact hforeign hrely₁ fun hrecognised => hsize hrecognised.1

/-- `shm_unlink` with what follows it. -/
theorem remove_and_unlock_safe (object_name : String) (hclosing : Closing failures pid k s)
    (hmarked : failures = false → ¬(s.objects k).Healthy) :
    Safe (name_reliance W failures) pid (fun _ s' => Closing failures pid k s')
      (remove_and_unlock pid k object_name fails) s := by
  unfold remove_and_unlock
  split
  next _ =>
    suffices hunlock : Safe (name_reliance W failures) pid (fun _ s' => Closing failures pid k s')
        (if fails .unflock then pure () else flock_unlock pid k) s from hunlock.bind fun _ _ hend => hend
    split
    · exact hclosing
    · exact (unlock_safe hclosing).mono fun _ _ hend => hend.1.closing hend.2
  refine (shm_unlink_safe hclosing fun hfailures _ _ => hmarked hfailures).bind
    fun removed s' hclosing' => ?_
  split
  next _ => exact hclosing'
  exact (unlock_safe hclosing').bind fun _ _ hend => hend.1.closing hend.2

/-- `managed_byte_channel::unlink`. -/
theorem unlink_safe
    (hwrites : ∀ k update, unlink_mapping.Acts update → ∀ other m, (W other).allows k m (update m))
    (hclean : failures = false → fails = fun _ => false) (name : String) (h : Unlocked pid s) :
    Safe (name_reliance W failures) pid (fun _ s' => Unlocked pid s') (unlink pid name fails) s := by
  unfold unlink
  split
  next _ => exact h
  next object_name _ =>
  split
  next _ => exact h
  refine shm_open_safe h fun found s₁ h₁ hfound => ?_
  cases found with
  | none => exact h₁
  | some k =>
    suffices hlocked : Safe (name_reliance W failures) pid (fun _ s => Closing failures pid k s)
        (unlink_locked pid k object_name fails) s₁ from
      hlocked.bind fun _ _ hclosing => (unlock_safe hclosing).bind fun _ _ hend => hend.1
    unfold unlink_locked
    split
    next _ => exact h₁.closing (hfound k rfl)
    have hraise (s : Namespace) : ∃ late stray, id s = s.raise late stray :=
      ⟨false, false, by rw [Namespace.raise, Bool.or_false, Bool.or_false]; rfl⟩
    apply (flock_exclusive_safe (P := fun _ => True) hraise (fun _ => trivial) h₁ (hfound k rfl)).bind
    rintro _ s₂ ⟨hlocked, hsettled, _⟩
    apply (mark_destroying_safe (hwrites k) hclean hlocked hsettled).bind
    intro _ s₃ hmarked
    have hclosing := hmarked.toFlocked.closing hmarked.settled
    exact remove_and_unlock_safe object_name hclosing hmarked.unhealthy

/-- An operation on a mapped channel. -/
theorem operate_safe (op : Op) (c : Circumstances)
    (hwrites : ∀ update, (attempt pid op c).Acts update → ∀ other m, (W other).allows k m (update m))
    (h : Unlocked pid s) (hk : k < s.next) :
    Safe (name_reliance W failures) pid (fun _ s' => Unlocked pid s')
      (mapped k (attempt pid op c)) s := by
  refine (Safe.focus (R := name_reliance W failures) (A := fun s => Unlocked pid s ∧ k < s.next)
    (always_allowed hwrites)
    (fun t t' (hrely : NamespaceRely W pid t t') _ ht => ⟨ht.1.rely hrely, ht.2.trans_le hrely.next⟩) ?_
    ⟨h, hk⟩).mono
    fun _ _ hend => hend.2.1
  intro t update hupdate hinv ht
  obtain ⟨hinv', hothers⟩ := hinv.operation ht.2 fun other m => hupdate m other
  refine ⟨hinv', fun other _ => hothers other, fun j => ?_, ht.2⟩
  exact mt ((hothers pid).lock j).mp (ht.1 j)

theorem Between.rely {client : Client} (h : Between pid client s) (hrely : NamespaceRely W pid s s') :
    Between pid client s' :=
  ⟨h.unlocked.rely hrely, fun k hk => (h.handles k hk).rely hrely⟩

/-- Every request keeps the handles of its process. -/
theorem perform_safe {object_name : String} {client : Client} {request : Request}
    (hwrites : ∀ other k m m', request.writes pid k m m' → (W other).allows k m m')
    (hclean : failures = false → fails = fun _ => false)
    (hadmitted : request.admitted object_name client) (h : Between pid client s) :
    Safe (name_reliance W failures) pid (Between pid) (perform pid client request fails) s := by
  have hkeep {α : Type} {post : α → Namespace → Prop} {p : Prog Namespace α}
      (hp : Safe (name_reliance W failures) pid post p s) :
      Safe (name_reliance W failures) pid (fun a s' => post a s' ∧ ∀ k ∈ client.handles, Mapped k s') p s :=
    hp.keep (Nat.succ_ne_self pid) (fun _ _ _ hrely _ hmapped k hk => (hmapped k hk).rely hrely) h.handles
  have hcall {p : Prog Namespace (Except Exception Nat)}
      (hp : Safe (name_reliance W failures) pid (CallDone pid) p s) :
      Safe (name_reliance W failures) pid (Between pid) (p >>= fun result => .ret (client.map result)) s := by
    refine (hkeep hp).bind fun result s' ⟨hdone, hhandles⟩ => ?_
    cases result with
    | error error => exact ⟨hdone.unlocked, hhandles⟩
    | ok mapping =>
      refine ⟨hdone.unlocked, fun k hk => ?_⟩
      rcases List.mem_cons.mp hk with rfl | hk
      · exact hdone.mapped k rfl
      · exact hhandles k hk
  cases request with
  | create name options => exact hcall (create_managed_mapping_safe hclean name options h.unlocked)
  | open_existing name protocol => exact hcall (open_managed_mapping_safe name protocol h.unlocked)
  | open_or_create name options => exact hcall (open_or_create_managed_mapping_safe hclean name h.unlocked)
  | unlink name =>
    have hunlink := unlink_safe (fun k update hacts other m => hwrites other k m _ ⟨update, hacts, rfl⟩) hclean
      name h.unlocked
    exact (hkeep hunlink).bind fun _ _ hend => ⟨hend.1, hend.2⟩
  | operate k op c =>
    have hk := (hadmitted.2 k op c rfl).2
    have hoperate : Safe (name_reliance W failures) pid (fun _ s' => Unlocked pid s')
        (mapped k (attempt pid op c)) s :=
      operate_safe op c (fun update hacts other m => hwrites other k m _ ⟨rfl, update, hacts, rfl⟩)
        h.unlocked (h.handles k hk).allocated
    exact (hkeep hoperate).bind
      fun _ _ hend => ⟨hend.1, hend.2⟩

/-- A killed process leaves its objects to the others. -/
theorem NamespaceInv.on_death (h : NamespaceInv true s) (pid : Nat) :
    NamespaceInv true (s.on_death pid) ∧
      ∀ other, other ≠ pid → NamespaceRely (fun _ => operations) other s (s.on_death pid) := by
  have hlive (k : Nat) : Live operations k (s.objects k) ((s.on_death pid).objects k) :=
    .step rfl (.inr ⟨pid, rfl⟩)
  constructor
  · refine ⟨fun k hk => ?_, h.linked, fun hlate k hready => ?_, fun hnone => ?_, fun hnone => ?_⟩
    · have hnew : s.objects k = {} := h.fresh k hk
      simp only [Namespace.on_death, hnew]
      rfl
    · exact h.sized hlate k ((hlive k).maintained.ready.symm.trans hready)
    · cases hnone
    · cases hnone
  · intro other hother
    refine ⟨fun hlate => hlate, fun hstray => hstray, le_rfl, fun k => ?_, fun k _ => (hlive k).maintained,
      fun _ k _ => hlive k, fun _ _ _ hlinked => hlinked⟩
    simp only [Namespace.on_death]
    by_cases hheld : (s.objects k).exclusive = some pid
    · simp only [hheld, if_true, Option.some.injEq, hother.symm, reduceCtorEq]
    · simp only [if_neg hheld]

theorem management_adequate (object_name : String) (failures : Bool) :
    Adequate (management object_name failures) (name_reliance (fun _ => operations) failures) Between where
  refl := NamespaceRely.refl _
  trans _ _ _ _ := NamespaceRely.trans
  stable _ _ _ _ hrely _ h := h.rely hrely
  start := by
    rintro pid client _ s _ h ⟨request, fails, hadmitted, _, hclean, rfl⟩
    exact perform_safe (fun _ _ _ _ => Request.operation) hclean hadmitted h
  die := by
    intro pid s hinv hdie
    cases failures with
    | false => cases hdie
    | true =>
      obtain ⟨hinv', hothers⟩ := NamespaceInv.on_death hinv pid
      refine ⟨hinv', hothers, fun k hexclusive => ?_, fun k hk => absurd hk List.not_mem_nil⟩
      have hexclusive' : (if (s.objects k).exclusive = some pid then none else (s.objects k).exclusive) =
          some pid := hexclusive
      split_ifs at hexclusive' with hheld
      exact hheld hexclusive'

theorem unnamed_inv (failures : Bool) : NamespaceInv failures unnamed.shared := by
  refine ⟨fun _ _ => rfl, fun k hlinked => ?_, fun _ k hready => ?_, fun _ _ k hhealthy => ?_,
    fun _ k _ => ⟨fun hhealthy => ?_, fun hready => ?_⟩⟩
  · cases hlinked
  · cases hready
  · cases hhealthy
  · cases hhealthy
  · cases hready

/-- Every reachable state satisfies the invariant, and every process is safe. -/
theorem management_reachable {object_name : String} {c : Config Namespace Client Nat}
    (hreach : Reachable (management object_name failures) unnamed c) :
    NamespaceInv failures c.shared ∧
      ∀ pid, Safe (name_reliance (fun _ => operations) failures) pid (Between pid) (c.procs pid) c.shared := by
  refine (management_adequate object_name failures).reachable (unnamed_inv failures) (fun pid => ?_) hreach
  refine ⟨fun k hexclusive => ?_, fun k hk => absurd hk List.not_mem_nil⟩
  cases hexclusive

/-- The process that serves a request treats ready channels as the request
    says; of the others it expects no more than in general. -/
def served (pid : Nat) (request : Request) (other : Nat) : Conduct :=
  if other = pid then operations else request.conduct pid

theorem NamespaceRely.served {request : Request}
    (h : NamespaceRely (fun _ => operations) pid s s') : NamespaceRely (served pid request) pid s s' := by
  refine ⟨h.late, h.stray, h.next, h.lock, h.locked, fun hlate k hready => ?_, h.linked⟩
  rw [managed.served, if_pos rfl]
  exact h.ready hlate k hready

/-- Every action of a request writes to ready channels what the request may
    write, whatever the other processes do in the meantime. -/
theorem request_writes {object_name : String} {c c' : Config Namespace Client Nat} {client : Client}
    {request : Request} {own : List (Namespace × Namespace)}
    (hreach : Reachable (management object_name failures) unnamed c) (hprocs : c.procs pid = .ret client)
    (hadmitted : request.admitted object_name client) (halive : client.reply ≠ .dead)
    (hclean : failures = false → fails = fun _ => false)
    (hown : OwnRun (management object_name failures) (fun _ => False) pid
      ⟨c.shared, Function.update c.procs pid (perform pid client request fails)⟩ own c')
    {x : Namespace × Namespace} (hx : x ∈ own) (htimely : x.2.late = false)
    (hready : (x.1.objects k).ready = true) :
    Live (request.conduct pid) k (x.1.objects k) (x.2.objects k) := by
  obtain ⟨hinv, hsafe⟩ := management_reachable hreach
  have hbetween : Between pid client c.shared := by
    have hpid := hsafe pid
    rwa [hprocs] at hpid
  obtain ⟨hinv₀, hsafe₀⟩ := management_reachable
    (hreach.step (.start hprocs ⟨request, fails, hadmitted, halive, hclean, rfl⟩))
  have hprogram : Safe (name_reliance (served pid request) failures) pid (Between pid)
      (perform pid client request fails) c.shared := by
    refine perform_safe (fun other j m m' hwrites => ?_) hclean hadmitted hbetween
    rw [served]
    split_ifs
    · exact Request.operation hwrites
    · exact hwrites
  have hkept : NamespaceRely (served pid request) (pid + 1) x.1 x.2 := by
    refine (hown.promises (T := name_reliance (served pid request) failures)
      (management_adequate object_name failures) (fun _ h => h) (fun _ _ h => h.served) (fun s => .refl _ pid s)
      (fun _ _ _ => .trans) hinv₀ hsafe₀ ?_).2 x hx (pid + 1) (Nat.succ_ne_self pid)
    simp only [Function.update_self]
    exact hprogram.mono fun _ _ _ => trivial
  have hlive := hkept.ready htimely k hready
  rwa [served, if_neg (Nat.succ_ne_self pid)] at hlive

end

end shmchan.managed
