import Shmchan.Process.Reliance

namespace process

section

variable {σ α β Pid : Type}

/-- As `Safe`, as long as every state satisfies `Q`: nothing is asked of an
    action that starts or ends outside `Q`, nor of what follows it. -/
def SafeWithin (Q : σ → Prop) (R : Reliance σ Pid) (pid : Pid) (post : α → σ → Prop) :
    Prog σ α → σ → Prop
  | .ret a, s => post a s
  | .act enabled update next, s => ∀ s', R.rely pid s s' → R.inv s' → Q s' → enabled s' = true →
      Q (update s') → R.inv (update s') ∧ (∀ other, other ≠ pid → R.rely other s' (update s')) ∧
        SafeWithin Q R pid post (next s') (update s')

/-- An assertion that the other processes do not break. -/
def Stable (R : Reliance σ Pid) (pid : Pid) (A : σ → Prop) : Prop :=
  ∀ s s', R.rely pid s s' → R.inv s' → A s → A s'

variable {Q : σ → Prop} {R : Reliance σ Pid} {pid : Pid}

theorem Stable.and {A B : σ → Prop} (hA : Stable R pid A) (hB : Stable R pid B) :
    Stable R pid fun s => A s ∧ B s :=
  fun s s' hrely hinv h => ⟨hA s s' hrely hinv h.1, hB s s' hrely hinv h.2⟩

theorem SafeWithin.mono {post post' : α → σ → Prop} {p : Prog σ α} {s : σ}
    (h : SafeWithin Q R pid post p s) (hpost : ∀ a s', post a s' → post' a s') :
    SafeWithin Q R pid post' p s := by
  induction p generalizing s with
  | ret a => exact hpost a s h
  | act enabled update next ih =>
    intro s' hrely hinv hQ henabled hQ'
    obtain ⟨hupdate, hothers, hnext⟩ := h s' hrely hinv hQ henabled hQ'
    exact ⟨hupdate, hothers, ih s' hnext⟩

theorem SafeWithin.bind {mid : α → σ → Prop} {post : β → σ → Prop} {p : Prog σ α}
    {f : α → Prog σ β} {s : σ} (h : SafeWithin Q R pid mid p s)
    (hf : ∀ a s', mid a s' → SafeWithin Q R pid post (f a) s') :
    SafeWithin Q R pid post (p >>= f) s := by
  induction p generalizing s with
  | ret a => exact hf a s h
  | act enabled update next ih =>
    intro s' hrely hinv hQ henabled hQ'
    obtain ⟨hupdate, hothers, hnext⟩ := h s' hrely hinv hQ henabled hQ'
    exact ⟨hupdate, hothers, ih s' hnext⟩

/-- One action, from an assertion that the others do not break. -/
theorem SafeWithin.act {A : σ → Prop} {post : α → σ → Prop} {enabled : σ → Bool} {update : σ → σ}
    {next : σ → Prog σ α} {s : σ} (hstable : Stable R pid A) (hA : A s)
    (hstep : ∀ s', A s' → R.inv s' → Q s' → enabled s' = true → Q (update s') →
      R.inv (update s') ∧ (∀ other, other ≠ pid → R.rely other s' (update s')) ∧
        SafeWithin Q R pid post (next s') (update s')) :
    SafeWithin Q R pid post (.act enabled update next) s := by
  intro s' hrely hinv
  exact hstep s' (hstable s s' hrely hinv hA) hinv

/-- One action with a result. -/
theorem SafeWithin.modifyGet {A : σ → Prop} {post : β → σ → Prop} {f : σ → α} {update : σ → σ}
    {k : α → Prog σ β} {s : σ} (hstable : Stable R pid A) (hA : A s)
    (hstep : ∀ s', A s' → R.inv s' → Q s' → Q (update s') →
      R.inv (update s') ∧ (∀ other, other ≠ pid → R.rely other s' (update s')) ∧
        SafeWithin Q R pid post (k (f s')) (update s')) :
    SafeWithin Q R pid post (.modifyGet f update >>= k) s :=
  SafeWithin.act hstable hA fun s' hA' hinv hQ _ hQ' => hstep s' hA' hinv hQ hQ'

/-- A load changes nothing. -/
theorem SafeWithin.load {A : σ → Prop} {post : β → σ → Prop} {f : σ → α} {k : α → Prog σ β} {s : σ}
    (hrefl : ∀ pid s, R.rely pid s s) (hstable : Stable R pid A) (hA : A s)
    (hk : ∀ s', A s' → R.inv s' → Q s' → SafeWithin Q R pid post (k (f s')) s') :
    SafeWithin Q R pid post (.load f >>= k) s := by
  apply SafeWithin.act hstable hA
  intro s' hA' hinv hQ _ _
  exact ⟨hinv, fun other _ => hrefl other s', hk s' hA' hinv hQ⟩

/-- A program keeps an assertion that neither the others nor the steps of its
    own guarantee break. -/
theorem SafeWithin.of_always {G : σ → σ → Prop} {P : α → Prop} {A : σ → Prop} {p : Prog σ α}
    (hp : p.Always G P) (hstable : Stable R pid A)
    (hstep : ∀ s s', G s s' → R.inv s → A s →
      R.inv s' ∧ (∀ other, other ≠ pid → R.rely other s s') ∧ A s') {s : σ} (hA : A s) :
    SafeWithin Q R pid (fun a s' => P a ∧ A s') p s := by
  induction p generalizing s with
  | ret a => exact ⟨hp, hA⟩
  | act enabled update next ih =>
    intro s' hrely hinv _ _ _
    obtain ⟨hupdate, hothers, hkept⟩ := hstep s' _ (hp.1 s') hinv (hstable s s' hrely hinv hA)
    exact ⟨hupdate, hothers, ih s' (hp.2 s') hkept⟩

/-- What every process may rely on from every other one, a safe program keeps:
    there are at least two processes. -/
theorem SafeWithin.keep {A : σ → Prop} {post : α → σ → Prop} {p : Prog σ α} {other : Pid}
    (hother : other ≠ pid) (hA : ∀ pid, Stable R pid A) {s : σ} (h : SafeWithin Q R pid post p s)
    (hs : A s) : SafeWithin Q R pid (fun a s' => post a s' ∧ A s') p s := by
  induction p generalizing s with
  | ret a => exact ⟨h, hs⟩
  | act enabled update next ih =>
    intro s' hrely hinv hQ henabled hQ'
    obtain ⟨hupdate, hothers, hnext⟩ := h s' hrely hinv hQ henabled hQ'
    have hmid := hA pid s s' hrely hinv hs
    exact ⟨hupdate, hothers, ih s' hnext (hA other s' _ (hothers other hother) hupdate hmid)⟩

/-- What every process may rely on from every other one, may be added to `Q`. -/
theorem SafeWithin.confine {A : σ → Prop} {post post' : α → σ → Prop} {p : Prog σ α} {other : Pid}
    (hother : other ≠ pid) (hA : ∀ pid, Stable R pid A) {s : σ} (h : SafeWithin Q R pid post p s)
    (h' : SafeWithin (fun s => Q s ∧ A s) R pid post' p s) (hs : A s) :
    SafeWithin Q R pid (fun a s' => post a s' ∧ post' a s') p s := by
  induction p generalizing s with
  | ret a => exact ⟨h, h'⟩
  | act enabled update next ih =>
    intro s' hrely hinv hQ henabled hQ'
    obtain ⟨hupdate, hothers, hnext⟩ := h s' hrely hinv hQ henabled hQ'
    have hmid := hA pid s s' hrely hinv hs
    have hlast := hA other s' _ (hothers other hother) hupdate hmid
    obtain ⟨_, _, hnext'⟩ := h' s' hrely hinv ⟨hQ, hmid⟩ henabled ⟨hQ', hlast⟩
    exact ⟨hupdate, hothers, ih s' hnext hnext' hlast⟩

/-- A safe program stays safe when the other processes act. -/
theorem SafeWithin.interfere {post : α → σ → Prop} {p : Prog σ α} {s s' : σ}
    (htrans : ∀ s₁ s₂ s₃, R.rely pid s₁ s₂ → R.rely pid s₂ s₃ → R.rely pid s₁ s₃)
    (hstable : ∀ a, post a s → post a s') (hrely : R.rely pid s s')
    (h : SafeWithin Q R pid post p s) : SafeWithin Q R pid post p s' := by
  cases p with
  | ret a => exact hstable a h
  | act enabled update next =>
    intro s'' hlater hinv hQ henabled hQ'
    exact h s'' (htrans s s' s'' hrely hlater) hinv hQ henabled hQ'

end

section

variable {σ ρ Pid : Type} [DecidableEq Pid] {D : Discipline σ ρ Pid}

/-- States of the runs from `init` whose states all satisfy `Q`. -/
def ReachableWithin (Q : σ → Prop) (D : Discipline σ ρ Pid) (init c : Config σ ρ Pid) : Prop :=
  Relation.ReflTransGen (fun c c' => Step D c c' ∧ Q c'.shared) init c

theorem ReachableWithin.reachable {Q : σ → Prop} {init c : Config σ ρ Pid}
    (h : ReachableWithin Q D init c) : Reachable D init c :=
  Relation.ReflTransGen.mono (fun _ _ hstep => And.left hstep) _ _ h

theorem Reachable.within {init c : Config σ ρ Pid} (h : Reachable D init c) :
    ReachableWithin (fun _ => True) D init c :=
  Relation.ReflTransGen.mono (fun _ _ hstep => ⟨hstep, trivial⟩) _ _ h

/-- What holds in every state of the runs within `Q` may be added to `Q`. -/
theorem ReachableWithin.strengthen {Q P : σ → Prop} {init c : Config σ ρ Pid}
    (hP : ∀ c, ReachableWithin Q D init c → P c.shared) (h : ReachableWithin Q D init c) :
    ReachableWithin (fun s => Q s ∧ P s) D init c := by
  induction h with
  | refl => exact .refl
  | tail hreach hstep ih => exact ih.tail ⟨hstep.1, hstep.2, hP _ (.tail hreach hstep)⟩

theorem ReachableWithin.mono {Q Q' : σ → Prop} {init c : Config σ ρ Pid}
    (h : ReachableWithin Q D init c) (hQ : ∀ s, Q s → Q' s) : ReachableWithin Q' D init c :=
  Relation.ReflTransGen.mono (fun _ _ hstep => And.imp_right (hQ _) hstep) _ _ h

/-- Whether `q` holds after each of the next `count` actions of a process. -/
def Config.stays (q : σ → Bool) (pid : Pid) : Nat → Config σ ρ Pid → Bool
  | 0, _ => true
  | count + 1, c =>
    match c.procs pid with
    | .ret _ => true
    | .act enabled update next =>
      if enabled c.shared = true then
        q (update c.shared) &&
          stays q pid count ⟨update c.shared, Function.update c.procs pid (next c.shared)⟩
      else true

theorem ReachableWithin.advance {Q : σ → Prop} {init c : Config σ ρ Pid} (h : ReachableWithin Q D init c)
    {q : σ → Bool} (hq : ∀ s, q s = true → Q s) {pid : Pid} {count : Nat}
    (hstays : c.stays q pid count = true) : ReachableWithin Q D init (c.advance pid count) := by
  induction count generalizing c with
  | zero => exact h
  | succ count ih =>
    rw [Config.advance]
    rw [Config.stays] at hstays
    split
    · exact h
    next enabled update next hprog =>
      rw [hprog] at hstays
      simp only at hstays
      split_ifs with henabled
      · rw [if_pos henabled, Bool.and_eq_true] at hstays
        exact ih (h.tail ⟨.run hprog henabled, hq _ hstays.1⟩) hstays.2
      · exact h

/-- A process that shows a result runs the first `count` actions of its next
    program. -/
def Config.perform (c : Config σ ρ Pid) (pid : Pid) (program : Prog σ ρ) (count : Nat) : Config σ ρ Pid :=
  advance pid count ⟨c.shared, Function.update c.procs pid program⟩

/-- Whether `q` holds before the program and after each of its actions. -/
def Config.performs (q : σ → Bool) (c : Config σ ρ Pid) (pid : Pid) (program : Prog σ ρ) (count : Nat) : Bool :=
  q c.shared && stays q pid count ⟨c.shared, Function.update c.procs pid program⟩

theorem ReachableWithin.perform {Q : σ → Prop} {init c : Config σ ρ Pid} (h : ReachableWithin Q D init c)
    {q : σ → Bool} (hq : ∀ s, q s = true → Q s) {pid : Pid} {result : ρ} {program : Prog σ ρ} {count : Nat}
    (hshown : (c.procs pid).shown = some result) (hstart : D.starts pid result program)
    (hperforms : c.performs q pid program count = true) :
    ReachableWithin Q D init (c.perform pid program count) := by
  rw [Config.performs, Bool.and_eq_true] at hperforms
  exact ReachableWithin.advance (h.tail ⟨.start (Prog.eq_ret_of_shown hshown) hstart, hq _ hperforms.1⟩) hq
    hperforms.2

/-- The obligations of `Adequate`, for runs within `Q` and without deaths. -/
structure AdequateWithin (Q : σ → Prop) (D : Discipline σ ρ Pid) (R : Reliance σ Pid)
    (post : Pid → ρ → σ → Prop) : Prop where
  refl : ∀ pid s, R.rely pid s s
  trans : ∀ pid s₁ s₂ s₃, R.rely pid s₁ s₂ → R.rely pid s₂ s₃ → R.rely pid s₁ s₃
  stable : ∀ pid result, Stable R pid (post pid result)
  start : ∀ pid result program s, R.inv s → Q s → post pid result s → D.starts pid result program →
    SafeWithin Q R pid (post pid) program s
  immortal : ∀ pid s, ¬ D.mayDie pid s

/-- In every state of a run within `Q` the invariant holds and every process is
    safe, and each further step is one that the other processes may rely on. -/
theorem AdequateWithin.reachable {Q : σ → Prop} {R : Reliance σ Pid} {post : Pid → ρ → σ → Prop}
    (hD : AdequateWithin Q D R post) {init c : Config σ ρ Pid} (hQ : Q init.shared)
    (hinv : R.inv init.shared)
    (hsafe : ∀ pid, SafeWithin Q R pid (post pid) (init.procs pid) init.shared)
    (hreach : ReachableWithin Q D init c) :
    Q c.shared ∧ R.inv c.shared ∧ ∀ pid, SafeWithin Q R pid (post pid) (c.procs pid) c.shared := by
  induction hreach with
  | refl => exact ⟨hQ, hinv, hsafe⟩
  | @tail c c' _ hstep ih =>
    obtain ⟨ihQ, ihinv, ihsafe⟩ := ih
    obtain ⟨hstep, hQ'⟩ := hstep
    -- what every process other than the acting one keeps
    have others (pid : Pid) (s' : σ) (hinv' : R.inv s')
        (hrely : ∀ other, other ≠ pid → R.rely other c.shared s') (program : Prog σ ρ)
        (hprogram : SafeWithin Q R pid (post pid) program s') (other : Pid) :
        SafeWithin Q R other (post other) (Function.update c.procs pid program other) s' := by
      by_cases hother : other = pid
      · subst hother
        simpa using hprogram
      · rw [Function.update_of_ne hother]
        exact (ihsafe other).interfere (hD.trans other)
          (fun result => hD.stable other result _ _ (hrely other hother) hinv') (hrely other hother)
    cases hstep with
    | @run pid enabled update next hprog henabled =>
      have hact := ihsafe pid
      rw [hprog] at hact
      obtain ⟨hupdate, hothers, hnext⟩ := hact _ (hD.refl pid _) ihinv ihQ henabled hQ'
      exact ⟨hQ', hupdate, others pid _ hupdate hothers _ hnext⟩
    | @start pid result program hprog hstart =>
      have hret := ihsafe pid
      rw [hprog] at hret
      exact ⟨hQ', ihinv, others pid _ ihinv (fun other _ => hD.refl other _) _
        (hD.start pid result program _ ihinv ihQ hret hstart)⟩
    | @die pid hdie => exact absurd hdie (hD.immortal pid _)

/-- Every step of a run within `Q` is one that the processes other than the
    acting one may rely on. -/
theorem AdequateWithin.rely_step {Q : σ → Prop} {R : Reliance σ Pid} {post : Pid → ρ → σ → Prop}
    (hD : AdequateWithin Q D R post) {c c' : Config σ ρ Pid} (hQ : Q c.shared) (hinv : R.inv c.shared)
    (hsafe : ∀ pid, SafeWithin Q R pid (post pid) (c.procs pid) c.shared) (hstep : Step D c c')
    (hQ' : Q c'.shared) : ∃ pid, ∀ other, other ≠ pid → R.rely other c.shared c'.shared := by
  cases hstep with
  | @run pid enabled update next hprog henabled =>
    have hact := hsafe pid
    rw [hprog] at hact
    obtain ⟨_, hothers, _⟩ := hact _ (hD.refl pid _) hinv hQ henabled hQ'
    exact ⟨pid, hothers⟩
  | @start pid result program hprog hstart => exact ⟨pid, fun other _ => hD.refl other _⟩
  | @die pid hdie => exact absurd hdie (hD.immortal pid _)

/-- What every process may rely on from every other one, holds for good: there
    are at least two processes. -/
theorem AdequateWithin.keeps {Q A : σ → Prop} {R : Reliance σ Pid} {post : Pid → ρ → σ → Prop}
    (hD : AdequateWithin Q D R post) (hpids : ∀ pid : Pid, ∃ other, other ≠ pid)
    (hA : ∀ pid, Stable R pid A) {c c' : Config σ ρ Pid} (hQ : Q c.shared) (hinv : R.inv c.shared)
    (hsafe : ∀ pid, SafeWithin Q R pid (post pid) (c.procs pid) c.shared) (hs : A c.shared)
    (hreach : ReachableWithin Q D c c') : A c'.shared := by
  induction hreach with
  | refl => exact hs
  | @tail mid last hreach hstep ih =>
    obtain ⟨hQmid, hinvmid, hsafemid⟩ := hD.reachable hQ hinv hsafe hreach
    obtain ⟨_, hinvlast, _⟩ := hD.reachable hQ hinv hsafe (hreach.tail hstep)
    obtain ⟨pid, hrely⟩ := hD.rely_step hQmid hinvmid hsafemid hstep.1 hstep.2
    obtain ⟨other, hother⟩ := hpids pid
    exact hA other _ _ (hrely other hother) hinvlast ih

/-- On every way whose states all satisfy `Q`, the program only returns what `P`
    admits. -/
def Prog.Yields {α : Type} (Q : σ → Prop) (P : α → Prop) : Prog σ α → Prop
  | .ret a => P a
  | .act _ update next => ∀ s, Q s → Q (update s) → Yields Q P (next s)

section

variable {α β : Type} {Q : σ → Prop} {P : α → Prop} {P' : β → Prop} {p : Prog σ α} {f : α → Prog σ β}

theorem Prog.Yields.bind (h : p.Yields Q P) (hf : ∀ a, P a → (f a).Yields Q P') : (p >>= f).Yields Q P' := by
  induction p with
  | ret a => exact hf a h
  | act enabled update next ih => exact fun s hs hs' => ih s (h s hs hs')

/-- What the second part returns, whatever the first one does. -/
theorem Prog.yields_bind_of (hf : ∀ a, (f a).Yields Q P') (p : Prog σ α) : (p >>= f).Yields Q P' := by
  induction p with
  | ret a => exact hf a
  | act enabled update next ih => exact fun s _ _ => ih s

end

/-- The discipline, without further programs of one process. -/
def Discipline.without (D : Discipline σ ρ Pid) (pid : Pid) : Discipline σ ρ Pid :=
  { D with starts := fun other result program => other ≠ pid ∧ D.starts other result program }

theorem ReachableWithin.of_without {Q : σ → Prop} {pid : Pid} {c c' : Config σ ρ Pid}
    (h : ReachableWithin Q (D.without pid) c c') : ReachableWithin Q D c c' := by
  refine Relation.ReflTransGen.mono (fun c c' hstep => ⟨?_, hstep.2⟩) _ _ h
  cases hstep.1 with
  | run hprog henabled => exact .run hprog henabled
  | start hprog hstart => exact .start hprog hstart.2
  | die hdie => exact .die hdie

/-- What a program may return in a run within `Q`. -/
theorem ReachableWithin.yields {Q : σ → Prop} {P : ρ → Prop} {pid : Pid} {c c' : Config σ ρ Pid}
    (hdie : ¬ ∃ pid s, D.mayDie pid s) (hQ : Q c.shared) (hprog : (c.procs pid).Yields Q P)
    (hreach : ReachableWithin Q (D.without pid) c c') : Q c'.shared ∧ (c'.procs pid).Yields Q P := by
  induction hreach with
  | refl => exact ⟨hQ, hprog⟩
  | tail _ hstep ih =>
    obtain ⟨hstep, hQ'⟩ := hstep
    refine ⟨hQ', ?_⟩
    cases hstep with
    | @run other _ _ _ hact _ =>
      by_cases hother : pid = other
      · subst hother
        have hyields := ih.2
        rw [hact] at hyields
        simp only [Function.update_self]
        exact hyields _ ih.1 hQ'
      · simpa only [Function.update_of_ne hother] using ih.2
    | start _ hstart => simpa only [Function.update_of_ne hstart.1.symm] using ih.2
    | die hdies => exact absurd ⟨_, _, hdies⟩ hdie

/-- One program of a process among the others, until its end: what it
    guarantees depends on the states of this time only. -/
theorem AdequateWithin.during {Q : σ → Prop} {R : Reliance σ Pid} {post : Pid → ρ → σ → Prop}
    (hD : AdequateWithin Q D R post) {pid : Pid} {post' : ρ → σ → Prop}
    (hstable : ∀ result, Stable R pid (post' result)) {c c' : Config σ ρ Pid} {program : Prog σ ρ}
    (hQ : Q c.shared) (hinv : R.inv c.shared)
    (hsafe : ∀ other, SafeWithin Q R other (post other) (c.procs other) c.shared)
    (hprogram : SafeWithin Q R pid post' program c.shared)
    (hreach : ReachableWithin Q (D.without pid) ⟨c.shared, Function.update c.procs pid program⟩ c') :
    SafeWithin Q R pid post' (c'.procs pid) c'.shared := by
  let post'' := Function.update post pid post'
  have hself : post'' pid = post' := Function.update_self _ _ _
  have hother {other : Pid} (hne : other ≠ pid) : post'' other = post other := Function.update_of_ne hne _ _
  have hwithout : AdequateWithin Q (D.without pid) R post'' := by
    refine ⟨hD.refl, hD.trans, fun other result => ?_, fun other result program s hinv hQ hpost hstart => ?_,
      hD.immortal⟩
    · by_cases hne : other = pid
      · subst hne
        rw [hself]
        exact hstable result
      · rw [hother hne]
        exact hD.stable other result
    · rw [hother hstart.1] at hpost ⊢
      exact hD.start other result program s hinv hQ hpost hstart.2
  have hlast : SafeWithin Q R pid (post'' pid) (c'.procs pid) c'.shared := by
    refine (hwithout.reachable ?_ ?_ ?_ hreach).2.2 pid
    · exact hQ
    · exact hinv
    · intro other
      simp only
      by_cases hne : other = pid
      · subst hne
        rw [hself, Function.update_self]
        exact hprogram
      · rw [hother hne, Function.update_of_ne hne]
        exact hsafe other
  rwa [hself] at hlast

/-- A run ends within `Q` only if it has been within `Q` all along, when the
    steps of all programs and deaths lead into `Q` only from within. -/
theorem Reachable.within_of_last {Q : σ → Prop} {G : σ → σ → Prop} (hback : ∀ s s', G s s' → Q s' → Q s)
    (hrefl : ∀ s, G s s) (htrans : ∀ s₁ s₂ s₃, G s₁ s₂ → G s₂ s₃ → G s₁ s₃)
    (hstart : ∀ pid result program, D.starts pid result program → program.Always G fun _ => True)
    (hdeath : ∀ pid s, G s (D.onDeath pid s)) {init c : Config σ ρ Pid}
    (hprocs : ∀ pid, (init.procs pid).Always G fun _ => True) (hreach : Reachable D init c)
    (hQ : Q c.shared) : ReachableWithin Q D init c := by
  induction hreach with
  | refl => exact .refl
  | tail hsteps hstep ih =>
    have hmid := (Reachable.always hrefl htrans hstart hdeath hprocs hsteps).2
    have hG := (Reachable.always hrefl htrans hstart hdeath hmid (.single hstep)).1
    exact (ih (hback _ _ hG hQ)).tail ⟨hstep, hQ⟩

end

end process
