import Shmchan.Endpoint.Opening
import Shmchan.Process.Within

open process

namespace shmchan.endpoint

/-- A process makes its first request, which is not refused, and runs for
    `count` actions. -/
def Format.first_request {Kind Header Ring Channel : Type} (F : Format Kind Header Ring Channel)
    (c : Config (Objects Header Ring) (Client Kind Channel) Nat) (pid : Nat) (request : Request Kind Ring Channel)
    (count : Nat) : Config (Objects Header Ring) (Client Kind Channel) Nat :=
  c.perform pid (F.perform pid {} (fun _ => false) request) count

/-- SIGKILL. -/
def Format.kill {Kind Header Ring Channel : Type} (F : Format Kind Header Ring Channel)
    (c : Config (Objects Header Ring) (Client Kind Channel) Nat) (pid : Nat) :
    Config (Objects Header Ring) (Client Kind Channel) Nat :=
  ⟨c.shared.on_death pid, Function.update c.procs pid (.ret F.system.dead)⟩

section

variable {Kind Header Ring Channel : Type} [DecidableEq Kind] {F : Format Kind Header Ring Channel}
  {new : Endpoint Ring Bytes} {mismatch : String → Exception → Prop} {hF : F.Lawful new mismatch} {pid object : Nat}
  {kind : Kind} {name : String} {h : Handle Kind Channel} {layout : Layout Channel}
  {client : Client Kind Channel} {s s' : Objects Header Ring} {fails : Syscall → Bool}
  {c c' : Config (Objects Header Ring) (Client Kind Channel) Nat}

/-- A call on a mapping of its channel, while the others call. -/
theorem recorded_safe (hF : F.Lawful new mismatch) {program : Prog (Endpoint Ring Bytes) (Reply Bytes)}
    {m : Mapping Header Ring} (haccepted : F.Accepted kind name layout) (hheader : m.header = (F.made kind layout).header)
    (hprogram : UnderWay (F.discipline layout.channel) pid program m.live) :
    Safe (hF.life.contents name) pid
      (fun reply m' => UnderWay (F.discipline layout.channel) pid (.ret reply) m'.live)
      ((program.recorded pid).focus (fun m => m.live) fun f m => { m with live := f m.live }) m := by
  induction program generalizing m with
  | ret reply => exact hprogram
  | act enabled update next ih =>
    intro m₁ hgrows hready henabled
    have hheader₁ := (grows_spec hgrows).1.trans hheader
    have hprogram₁ : UnderWay (F.discipline layout.channel) pid (.act enabled update next) m₁.live := by
      unfold UnderWay
      rw [grows_others hgrows]
      exact hprogram
    obtain ⟨hadvances, hnext⟩ := hprogram₁.step henabled
    refine ⟨hready, fun other hother => .single ⟨pid, hother.symm, ⟨rfl, rfl, hadvances.others, ?_⟩⟩, ?_⟩
    · intro kind' layout' haccepted' hheader'
      rw [← hF.channel_unique haccepted haccepted' (hheader₁.symm.trans hheader')]
      exact hadvances.steps
    · exact ih m₁.live.shared hheader₁ hnext

theorem idle_of_under_way {D : Discipline (Endpoint Ring Bytes) (Reply Bytes) Nat} {reply : Reply Bytes}
    (hD : D = F.discipline layout.channel) {m : Mapping Header Ring} (hreply : reply ≠ .unfinished)
    (h : UnderWay D pid (.ret reply) m.live) : hF.life.idle pid m := by
  subst hD
  rcases h with hprog | ⟨result, hprog, hfinished, _⟩
  · exact ⟨reply, hreply, hprog⟩
  · exact ⟨result, hfinished, hprog⟩

theorem on_channel_safe {program : Prog (Endpoint Ring Bytes) (Reply Bytes)} (hrest : hF.life.AtRest pid s)
    (hserves : Serves hF h s) (hcalls : F.calls h.channel pid program) :
    Safe hF.life.reliance pid (fun reply s' => reply ≠ .unfinished → hF.life.AtRest pid s')
      (on_channel h.object (program.recorded pid)) s := by
  have hready := hserves.grown.ready
  obtain ⟨reply, hfinished, hprog⟩ := hrest h.object hready
  have hprogram : UnderWay (F.discipline h.channel) pid program (s.objects h.object).memory.live :=
    .inr ⟨reply, hprog, hfinished, hcalls⟩
  have hcontents := recorded_safe hF hserves.accepted hserves.reachable.2.2.1 hprogram
  refine (ObjectLife.Operating.safe hcontents (hrest.operating hserves.grown.named hready)).mono ?_
  rintro reply s' ⟨hend, hoperating⟩ hreply
  exact hoperating.rest (idle_of_under_way rfl hreply hend)

theorem Between.stable (hrely : hF.life.Rely pid s s') (h : Between hF pid client s) :
    Between hF pid client s' :=
  ⟨fun hdead hfinished => (h.rest hdead hfinished).stable hrely,
    fun handle hhandle => (h.handles handle hhandle).stable hrely⟩

/-- The handles that a process has keep their objects whatever it does. -/
theorem keep_handles {α : Type} {handles : List (Handle Kind Channel)} {own : Executed Header Ring}
    {post : Executed Header Ring → α → Objects Header Ring → Prop} {p : Prog (Objects Header Ring) α}
    (hhandles : ∀ h ∈ handles, Serves hF h s) (hp : SafeOwn hF.life.reliance pid post own p s) :
    SafeOwn hF.life.reliance pid (fun own' a s' => post own' a s' ∧ ∀ h ∈ handles, Serves hF h s') own p s := by
  refine hp.keep (A := fun s => ∀ h ∈ handles, Serves hF h s) (Nat.succ_ne_self pid) ?_ hhandles
  exact fun _ _ _ hrely _ h handle hhandle => (h handle hhandle).stable hrely

/-- The handles after a call that has mapped an object, or has not. -/
theorem serves_add_handle {result : Except Exception (Handle Kind Channel)} {handles : List (Handle Kind Channel)}
    (hresult : ∀ h, result = .ok h → Serves hF h s) (hhandles : ∀ h ∈ handles, Serves hF h s) :
    ∀ h ∈ Format.add_handle result handles, Serves hF h s := by
  intro h hmem
  cases result with
  | error error => exact hhandles h hmem
  | ok handle =>
    rcases List.mem_cons.mp hmem with rfl | hmem
    · exact hresult h rfl
    · exact hhandles h hmem

/-- Every request leaves its process between two requests, with an answer that
    is true. -/
theorem perform_own {request : Request Kind Ring Channel} (hrest : hF.life.AtRest pid s)
    (hhandles : ∀ h ∈ client.handles, Serves hF h s) (hadmitted : F.Admitted pid client request) :
    SafeOwn hF.life.reliance pid
      (fun own client' s' => Between hF pid client' s' ∧ Truthful hF fails own s' client'.answer) []
      (F.perform pid client fails request) s := by
  cases request with
  | create kind name capacity =>
    refine (keep_handles hhandles (create_own hrest)).bind fun own result s' ⟨hend, hhandles'⟩ => ?_
    refine ⟨⟨fun _ _ => hend.rest, serves_add_handle (fun h hok => ?_) hhandles'⟩, hend.truthful⟩
    subst hok
    exact hend.created
  | open_existing kind name =>
    refine (keep_handles hhandles (open_existing_own hrest)).bind fun own result s' ⟨hend, hhandles'⟩ => ?_
    refine ⟨⟨fun _ _ => hend.rest, serves_add_handle (fun h hok => ?_) hhandles'⟩, hend.truthful⟩
    subst hok
    exact hend.opened
  | unlink name =>
    have hunlink := (ObjectLife.light_safe (light_unlink pid name fails) hrest).records []
    refine (keep_handles hhandles hunlink).bind fun own result s' ⟨hend, hhandles'⟩ => ?_
    exact ⟨⟨fun _ _ => hend.2.2, hhandles'⟩, trivial⟩
  | call handle program =>
    have hcall := (on_channel_safe hrest (hhandles handle hadmitted.1) hadmitted.2).records []
    refine (keep_handles hhandles hcall).bind fun own reply s' ⟨hend, hhandles'⟩ => ?_
    exact ⟨⟨fun _ hfinished => hend.2 fun hreply => hfinished (congrArg Answer.called hreply), hhandles'⟩,
      trivial⟩

theorem system_adequate (hF : F.Lawful new mismatch) :
    Adequate F.system hF.life.reliance (Between hF) where
  refl pid s k := ObjectLife.Evolves.refl hF.life pid (s.objects k)
  trans pid s₁ s₂ s₃ h h' k := (h k).trans (h' k)
  stable pid client s s' hrely _ h := h.stable hrely
  start := by
    rintro pid client _ s hinv h ⟨hdead, hfinished, request, fails, hadmitted, rfl⟩
    have hperform : SafeOwn hF.life.reliance pid
        (fun own client' s' => Between hF pid client' s' ∧ Truthful hF fails own s' client'.answer) []
        (F.perform pid client fails request) s :=
      perform_own (h.rest hdead hfinished) h.handles hadmitted
    exact hperform.safe.mono fun _ _ ⟨_, hbetween, _⟩ => hbetween
  die := by
    intro pid s hinv _
    obtain ⟨hinv', hothers⟩ := hinv.on_death pid
    exact ⟨hinv', hothers, fun hdead => absurd rfl hdead, fun _ hmem => absurd hmem List.not_mem_nil⟩

theorem nothing_inv (hF : F.Lawful new mismatch) : hF.life.Inv F.nothing.shared := by
  have hunready : ¬ hF.life.ready (F.zeroed 0) = true := fun h => hF.zeroed_unready 0 (ready_iff.mp h)
  refine ⟨fun k => ⟨fun h => absurd rfl h, fun h => absurd h hunready, fun h => absurd rfl h,
    fun h => absurd rfl h, fun h => absurd rfl h, fun h => absurd h hunready⟩, fun k h => absurd rfl h, ?_⟩
  intro name k h
  cases h

theorem nothing_between (hF : F.Lawful new mismatch) (pid : Nat) : Between hF pid {} F.nothing.shared := by
  refine ⟨fun _ _ k h => ?_, fun _ hmem => absurd hmem List.not_mem_nil⟩
  exact absurd (ready_iff.mp h) (hF.zeroed_unready 0)

theorem system_reachable (hF : F.Lawful new mismatch) (hreach : Reachable F.system F.nothing c) :
    hF.life.Inv c.shared ∧ ∀ pid, Safe hF.life.reliance pid (Between hF pid) (c.procs pid) c.shared :=
  (system_adequate hF).reachable (nothing_inv hF) (nothing_between hF) hreach

/-- What is known while a process shows an answer. -/
theorem system_shown (hF : F.Lawful new mismatch) (hreach : Reachable F.system F.nothing c)
    (hshown : (c.procs pid).shown = some client) : Between hF pid client c.shared := by
  have hsafe := (system_reachable hF hreach).2 pid
  rw [Prog.eq_ret_of_shown hshown] at hsafe
  exact hsafe

/-- What every process may rely on, holds for ever. -/
theorem system_keeps (hF : F.Lawful new mismatch) {A : Objects Header Ring → Prop}
    (hA : ∀ pid s s', hF.life.Rely pid s s' → A s → A s') (hreach : Reachable F.system F.nothing c)
    (hlater : Reachable F.system c c') (h : A c.shared) : A c'.shared := by
  induction hlater with
  | refl => exact h
  | tail hsteps hstep ih =>
    obtain ⟨hinv, hsafe⟩ := system_reachable hF (hreach.trans hsteps)
    obtain ⟨pid, hrely⟩ := (system_adequate hF).rely_step hinv hsafe hstep
    exact hA (pid + 1) _ _ (hrely (pid + 1) (Nat.succ_ne_self pid)) ih

/-- The handles of a process keep what they refer to, whatever any process does. -/
theorem system_serves (hF : F.Lawful new mismatch) (hreach : Reachable F.system F.nothing c)
    (hshown : (c.procs pid).shown = some client) (hhandle : h ∈ client.handles)
    (hlater : Reachable F.system c c') : Serves hF h c'.shared :=
  system_keeps hF (fun _ _ _ hrely hserves => hserves.stable hrely) hreach hlater
    ((system_shown hF hreach hshown).handles h hhandle)

/-- The answer to a request is true of what its own actions have found, and
    stays true. -/
theorem system_truthful (hF : F.Lawful new mismatch) {request : Request Kind Ring Channel}
    {client' : Client Kind Channel} {own : Executed Header Ring}
    {c₀ : Config (Objects Header Ring) (Client Kind Channel) Nat}
    (hreach : Reachable F.system F.nothing c₀) (hprocs : c₀.procs pid = .ret client)
    (halive : client.answer ≠ .dead) (hended : client.answer ≠ .called .unfinished)
    (hadmitted : F.Admitted pid client request)
    (hown : OwnRun F.system (fun _ => False) pid
      ⟨c₀.shared, Function.update c₀.procs pid (F.perform pid client fails request)⟩ own c)
    (hshown : (c.procs pid).shown = some client') (hlater : Reachable F.system c c') :
    Truthful hF fails own c'.shared client'.answer := by
  have hstarted := hreach.step (.start hprocs ⟨halive, hended, request, fails, hadmitted, rfl⟩)
  obtain ⟨hinv, hsafe⟩ := system_reachable hF hstarted
  have hbetween := system_shown hF hreach (by rw [hprocs]; rfl)
  have hperform : SafeOwn hF.life.reliance pid
      (fun own client' s' => Truthful hF fails own s' client'.answer) []
      (F.perform pid client fails request) c₀.shared :=
    (perform_own (hbetween.rest halive hended) hbetween.handles hadmitted).mono fun _ _ _ h => h.2
  have hanswer : Truthful hF fails own c.shared client'.answer := by
    have hreturns := hown.returns (system_adequate hF)
      (Q := fun own client' s' => Truthful hF fails own s' client'.answer)
      (fun _ _ _ _ hrely h => h.stable hrely) hinv hsafe (by simpa only [Function.update_self] using hperform)
    rw [Prog.eq_ret_of_shown hshown] at hreturns
    rcases hreturns with hdead | htruthful
    · cases hdead
      trivial
    · exact htruthful
  refine system_keeps hF (A := fun s => Truthful hF fails own s client'.answer) ?_ (hstarted.trans hown.reachable)
    hlater hanswer
  exact fun _ _ _ hrely h => h.stable hrely

end

section

variable {Kind Header Ring Channel : Type} {F : Format Kind Header Ring Channel} {pid other count : Nat}
  {request : Request Kind Ring Channel} {init c : Config (Objects Header Ring) (Client Kind Channel) Nat}

/-- Runs of processes that have made no request before. -/
theorem first_request_reachable (hreach : Reachable F.system init c)
    (hprocs : c.procs pid = .ret {}) (hadmitted : F.Admitted pid {} request) :
    Reachable F.system init (F.first_request c pid request count) := by
  have hstarts : F.system.starts pid {} (F.perform pid {} (fun _ => false) request) :=
    ⟨by rintro ⟨⟩, by rintro ⟨⟩, request, fun _ => false, hadmitted, rfl⟩
  exact Reachable.advance (hreach.step (.start hprocs hstarts)) pid count

theorem first_request_procs (hother : other ≠ pid) (hprocs : c.procs other = .ret {}) :
    (F.first_request c pid request count).procs other = .ret {} := by
  rw [Format.first_request, Config.perform, Config.advance_procs_of_ne hother]
  exact (Function.update_of_ne hother _ _).trans hprocs

theorem kill_reachable (hreach : Reachable F.system init c) (pid : Nat) : Reachable F.system init (F.kill c pid) :=
  hreach.step (.die trivial)

theorem kill_procs (hother : other ≠ pid) (hprocs : c.procs other = .ret {}) :
    (F.kill c pid).procs other = .ret {} :=
  (Function.update_of_ne hother _ _).trans hprocs

end

end shmchan.endpoint
