import Shmchan.Process.Prog

namespace process

/-- Processes that share a state. A process whose program has returned shows
    its result until it starts the next program. -/
structure Config (σ ρ Pid : Type) where
  shared : σ
  procs : Pid → Prog σ ρ

/-- Which program may follow a result, what the death of a process does to the
    shared state, when a death is admitted, and the result a dead process shows. -/
structure Discipline (σ ρ Pid : Type) where
  starts : Pid → ρ → Prog σ ρ → Prop
  onDeath : Pid → σ → σ
  mayDie : Pid → σ → Prop
  dead : ρ

section

variable {σ ρ Pid : Type} [DecidableEq Pid]

/-- One action of a process, the start of its next program, or its death. -/
inductive Step (D : Discipline σ ρ Pid) : Config σ ρ Pid → Config σ ρ Pid → Prop where
  | run {c : Config σ ρ Pid} {pid : Pid} {enabled : σ → Bool} {update : σ → σ}
      {next : σ → Prog σ ρ} (hprog : c.procs pid = .act enabled update next)
      (henabled : enabled c.shared = true) :
      Step D c ⟨update c.shared, Function.update c.procs pid (next c.shared)⟩
  | start {c : Config σ ρ Pid} {pid : Pid} {result : ρ} {program : Prog σ ρ}
      (hprog : c.procs pid = .ret result) (hstart : D.starts pid result program) :
      Step D c ⟨c.shared, Function.update c.procs pid program⟩
  | die {c : Config σ ρ Pid} {pid : Pid} (hdie : D.mayDie pid c.shared) :
      Step D c ⟨D.onDeath pid c.shared, Function.update c.procs pid (.ret D.dead)⟩

/-- States of the runs from `init`. -/
def Reachable (D : Discipline σ ρ Pid) (init c : Config σ ρ Pid) : Prop :=
  Relation.ReflTransGen (Step D) init c

/-- A run extended by one step. -/
theorem Reachable.step {D : Discipline σ ρ Pid} {init c c' : Config σ ρ Pid}
    (h : Reachable D init c) (hstep : Step D c c') : Reachable D init c' :=
  Relation.ReflTransGen.tail h hstep

/-- When every program that is running or may be started only takes steps of
    `G`, and so does every death, the whole run does. -/
theorem Reachable.always {D : Discipline σ ρ Pid} {G : σ → σ → Prop} (hrefl : ∀ s, G s s)
    (htrans : ∀ s₁ s₂ s₃, G s₁ s₂ → G s₂ s₃ → G s₁ s₃)
    (hstart : ∀ pid result program, D.starts pid result program → program.Always G fun _ => True)
    (hdeath : ∀ pid s, G s (D.onDeath pid s)) {c c' : Config σ ρ Pid}
    (hprocs : ∀ pid, (c.procs pid).Always G fun _ => True) (hreach : Reachable D c c') :
    G c.shared c'.shared ∧ ∀ pid, (c'.procs pid).Always G fun _ => True := by
  induction hreach with
  | refl => exact ⟨hrefl c.shared, hprocs⟩
  | tail _ hstep ih =>
    obtain ⟨ihG, ihprocs⟩ := ih
    have hupdate {procs : Pid → Prog σ ρ} (h : ∀ pid, (procs pid).Always G fun _ => True) (pid : Pid)
        {program : Prog σ ρ} (hprogram : program.Always G fun _ => True) (other : Pid) :
        (Function.update procs pid program other).Always G fun _ => True := by
      by_cases hother : other = pid
      · subst hother
        rwa [Function.update_self]
      · rw [Function.update_of_ne hother]
        exact h other
    cases hstep with
    | @run pid enabled update next hprog _ =>
      have hact := ihprocs pid
      rw [hprog] at hact
      exact ⟨htrans _ _ _ ihG (hact.1 _), hupdate ihprocs pid (hact.2 _)⟩
    | @start pid result program _ hprogram =>
      exact ⟨ihG, hupdate ihprocs pid (hstart pid result program hprogram)⟩
    | @die pid _ => exact ⟨htrans _ _ _ ihG (hdeath pid _), hupdate ihprocs pid trivial⟩

/-- One process runs for `count` actions, as long as they are enabled. -/
def Config.advance (pid : Pid) : Nat → Config σ ρ Pid → Config σ ρ Pid
  | 0, c => c
  | count + 1, c =>
    match c.procs pid with
    | .ret _ => c
    | .act enabled update next =>
      if enabled c.shared = true then
        advance pid count ⟨update c.shared, Function.update c.procs pid (next c.shared)⟩
      else c

theorem Config.advance_procs_of_ne {pid other : Pid} (hother : other ≠ pid) (count : Nat)
    (c : Config σ ρ Pid) : (c.advance pid count).procs other = c.procs other := by
  induction count generalizing c with
  | zero => rfl
  | succ count ih =>
    rw [Config.advance]
    split
    · rfl
    · split_ifs
      · rw [ih]
        exact Function.update_of_ne hother _ _
      · rfl

theorem Reachable.advance {D : Discipline σ ρ Pid} {init c : Config σ ρ Pid}
    (h : Reachable D init c) (pid : Pid) (count : Nat) : Reachable D init (c.advance pid count) := by
  induction count generalizing c with
  | zero => exact h
  | succ count ih =>
    rw [Config.advance]
    split
    · exact h
    next enabled update next hprog =>
      split_ifs with henabled
      · exact ih (h.step (.run hprog henabled))
      · exact h

end

/-- A shared invariant, and for each process what the others may do to the
    shared state between two of its actions. -/
structure Reliance (σ Pid : Type) where
  inv : σ → Prop
  rely : Pid → σ → σ → Prop

section

variable {σ ρ α β Pid : Type}

/-- From this state every action of the program keeps the invariant and what
    the other processes rely on, whatever they do in between, and the program
    can only return with the postcondition. -/
def Safe (R : Reliance σ Pid) (pid : Pid) (post : α → σ → Prop) : Prog σ α → σ → Prop
  | .ret a, s => post a s
  | .act enabled update next, s => ∀ s', R.rely pid s s' → R.inv s' → enabled s' = true →
      R.inv (update s') ∧ (∀ other, other ≠ pid → R.rely other s' (update s')) ∧
        Safe R pid post (next s') (update s')

variable {R : Reliance σ Pid} {pid : Pid}

theorem Safe.mono {post post' : α → σ → Prop} {p : Prog σ α} {s : σ}
    (h : Safe R pid post p s) (hpost : ∀ a s', post a s' → post' a s') : Safe R pid post' p s := by
  induction p generalizing s with
  | ret a => exact hpost a s h
  | act enabled update next ih =>
    intro s' hrely hinv henabled
    obtain ⟨hupdate, hothers, hnext⟩ := h s' hrely hinv henabled
    exact ⟨hupdate, hothers, ih s' hnext⟩

theorem Safe.bind {mid : α → σ → Prop} {post : β → σ → Prop} {p : Prog σ α}
    {f : α → Prog σ β} {s : σ} (h : Safe R pid mid p s)
    (hf : ∀ a s', mid a s' → Safe R pid post (f a) s') : Safe R pid post (p >>= f) s := by
  induction p generalizing s with
  | ret a => exact hf a s h
  | act enabled update next ih =>
    intro s' hrely hinv henabled
    obtain ⟨hupdate, hothers, hnext⟩ := h s' hrely hinv henabled
    exact ⟨hupdate, hothers, ih s' hnext⟩

/-- A safe program stays safe when the other processes act. -/
theorem Safe.interfere {post : α → σ → Prop} {p : Prog σ α} {s s' : σ}
    (htrans : ∀ s₁ s₂ s₃, R.rely pid s₁ s₂ → R.rely pid s₂ s₃ → R.rely pid s₁ s₃)
    (hstable : ∀ a, post a s → post a s') (hrely : R.rely pid s s') (h : Safe R pid post p s) :
    Safe R pid post p s' := by
  cases p with
  | ret a => exact hstable a h
  | act enabled update next =>
    intro s'' hlater hinv henabled
    exact h s'' (htrans s s' s'' hrely hlater) hinv henabled

/-- What every process may rely on from every other one, a safe program keeps:
    there are at least two processes. -/
theorem Safe.keep {post : α → σ → Prop} {p : Prog σ α} {s : σ} {A : σ → Prop} {other : Pid}
    (hother : other ≠ pid) (hA : ∀ pid s s', R.rely pid s s' → R.inv s' → A s → A s')
    (h : Safe R pid post p s) (hs : A s) : Safe R pid (fun a s' => post a s' ∧ A s') p s := by
  induction p generalizing s with
  | ret a => exact ⟨h, hs⟩
  | act enabled update next ih =>
    intro s' hrely hinv henabled
    obtain ⟨hupdate, hothers, hnext⟩ := h s' hrely hinv henabled
    have hkept : A (update s') := hA other s' _ (hothers other hother) hupdate (hA pid s s' hrely hinv hs)
    exact ⟨hupdate, hothers, ih s' hnext hkept⟩

/-- A run of the program to its end; the others act before each of its actions. -/
inductive Interleaved (E : σ → σ → Prop) : Prog σ α → σ → α → σ → Prop where
  | ret {a : α} {s : σ} : Interleaved E (.ret a) s a s
  | act {enabled : σ → Bool} {update : σ → σ} {next : σ → Prog σ α} {s s' t : σ} {a : α}
      (hothers : E s s') (henabled : enabled s' = true)
      (hrest : Interleaved E (next s') (update s') a t) :
      Interleaved E (.act enabled update next) s a t

theorem Interleaved.ret_inv {E : σ → σ → Prop} {s t : σ} {a b : α}
    (h : Interleaved E (.ret a) s b t) : b = a ∧ t = s := by
  cases h
  exact ⟨rfl, rfl⟩

theorem Interleaved.act_inv {E : σ → σ → Prop} {enabled : σ → Bool} {update : σ → σ}
    {next : σ → Prog σ α} {s t : σ} {a : α} (h : Interleaved E (.act enabled update next) s a t) :
    ∃ s', E s s' ∧ enabled s' = true ∧ Interleaved E (next s') (update s') a t := by
  cases h with
  | act hothers henabled hrest => exact ⟨_, hothers, henabled, hrest⟩

theorem Interleaved.bind_inv {E : σ → σ → Prop} {p : Prog σ α} {f : α → Prog σ β} {s t : σ} {b : β}
    (h : Interleaved E (p >>= f) s b t) :
    ∃ a s', Interleaved E p s a s' ∧ Interleaved E (f a) s' b t := by
  induction p generalizing s with
  | ret a => exact ⟨a, s, .ret, h⟩
  | act enabled update next ih =>
    obtain ⟨s', hothers, henabled, hrest⟩ := h.act_inv
    obtain ⟨a, s₁, hfirst, hlast⟩ := ih s' hrest
    exact ⟨a, s₁, .act hothers henabled hfirst, hlast⟩

theorem Interleaved.load_bind_inv {E : σ → σ → Prop} {f : σ → α} {k : α → Prog σ β} {s t : σ} {b : β}
    (h : Interleaved E (.load f >>= k) s b t) : ∃ s', E s s' ∧ Interleaved E (k (f s')) s' b t := by
  obtain ⟨s', hothers, _, hrest⟩ := h.act_inv
  exact ⟨s', hothers, hrest⟩

theorem Interleaved.store_bind_inv {E : σ → σ → Prop} {update : σ → σ} {k : Unit → Prog σ β} {s t : σ}
    {b : β} (h : Interleaved E (.store update >>= k) s b t) :
    ∃ s', E s s' ∧ Interleaved E (k ()) (update s') b t := by
  obtain ⟨s', hothers, _, hrest⟩ := h.act_inv
  exact ⟨s', hothers, hrest⟩

/-- An uninterrupted run whose actions are all enabled. -/
theorem Interleaved.alone {E : σ → σ → Prop} (hrefl : ∀ s, E s s) {p : Prog σ α} {s : σ}
    (hruns : p.unblocked s = true) : Interleaved E p s (p.exec s).1 (p.exec s).2 := by
  induction p generalizing s with
  | ret a => exact .ret
  | act enabled update next ih =>
    simp only [Prog.unblocked, Bool.and_eq_true] at hruns
    exact .act (hrefl s) hruns.1 (ih s hruns.2)

/-- A safe program that is interrupted only by what it relies on returns its
    postcondition. -/
theorem Safe.interleaved {E : σ → σ → Prop} {post : α → σ → Prop} {p : Prog σ α} {s t : σ} {a : α}
    (hE : ∀ s s', E s s' → R.inv s → R.rely pid s s' ∧ R.inv s') (hinv : R.inv s)
    (h : Safe R pid post p s) (hrun : Interleaved E p s a t) : post a t ∧ R.inv t := by
  induction hrun with
  | ret => exact ⟨h, hinv⟩
  | act hothers henabled _ ih =>
    obtain ⟨hrely, hinv'⟩ := hE _ _ hothers hinv
    obtain ⟨hupdate, _, hnext⟩ := h _ hrely hinv' henabled
    exact ih hupdate hnext

end

section

variable {σ ρ Pid : Type} [DecidableEq Pid]

/-- The obligations under which a discipline's processes can be verified one
    at a time. `post` is what is known while a result is shown. -/
structure Adequate (D : Discipline σ ρ Pid) (R : Reliance σ Pid) (post : Pid → ρ → σ → Prop) :
    Prop where
  refl : ∀ pid s, R.rely pid s s
  trans : ∀ pid s₁ s₂ s₃, R.rely pid s₁ s₂ → R.rely pid s₂ s₃ → R.rely pid s₁ s₃
  stable : ∀ pid result s s', R.rely pid s s' → R.inv s' → post pid result s → post pid result s'
  start : ∀ pid result program s, R.inv s → post pid result s → D.starts pid result program →
    Safe R pid (post pid) program s
  die : ∀ pid s, R.inv s → D.mayDie pid s → R.inv (D.onDeath pid s) ∧
    (∀ other, other ≠ pid → R.rely other s (D.onDeath pid s)) ∧ post pid D.dead (D.onDeath pid s)

/-- In every reachable state the invariant holds and every process is safe. -/
theorem Adequate.reachable {D : Discipline σ ρ Pid} {R : Reliance σ Pid}
    {post : Pid → ρ → σ → Prop} (hD : Adequate D R post) {init c : Config σ ρ Pid}
    (hinv : R.inv init.shared) (hsafe : ∀ pid, Safe R pid (post pid) (init.procs pid) init.shared)
    (hreach : Reachable D init c) :
    R.inv c.shared ∧ ∀ pid, Safe R pid (post pid) (c.procs pid) c.shared := by
  induction hreach with
  | refl => exact ⟨hinv, hsafe⟩
  | @tail c c' _ hstep ih =>
    obtain ⟨ihinv, ihsafe⟩ := ih
    -- what every process other than the acting one keeps
    have others (pid : Pid) (s' : σ) (hinv' : R.inv s')
        (hrely : ∀ other, other ≠ pid → R.rely other c.shared s') (program : Prog σ ρ)
        (hprogram : Safe R pid (post pid) program s') (other : Pid) :
        Safe R other (post other) (Function.update c.procs pid program other) s' := by
      by_cases hother : other = pid
      · subst hother
        simpa using hprogram
      · rw [Function.update_of_ne hother]
        exact (ihsafe other).interfere (hD.trans other)
          (fun result => hD.stable other result _ _ (hrely other hother) hinv') (hrely other hother)
    cases hstep with
    | @run pid enabled update next hprog henabled =>
      have hact := ihsafe pid
      rw [hprog] at hact
      obtain ⟨hupdate, hothers, hnext⟩ := hact _ (hD.refl pid _) ihinv henabled
      exact ⟨hupdate, others pid _ hupdate hothers _ hnext⟩
    | @start pid result program hprog hstart =>
      have hret := ihsafe pid
      rw [hprog] at hret
      exact ⟨ihinv, others pid _ ihinv (fun other _ => hD.refl other _) _
        (hD.start pid result program _ ihinv hret hstart)⟩
    | @die pid hdie =>
      obtain ⟨hdead, hothers, hpost⟩ := hD.die pid _ ihinv hdie
      exact ⟨hdead, others pid _ hdead hothers _ hpost⟩

/-- Every step of a reachable state is one that the processes other than the
    acting one may rely on. -/
theorem Adequate.rely_step {D : Discipline σ ρ Pid} {R : Reliance σ Pid}
    {post : Pid → ρ → σ → Prop} (hD : Adequate D R post) {c c' : Config σ ρ Pid}
    (hinv : R.inv c.shared) (hsafe : ∀ pid, Safe R pid (post pid) (c.procs pid) c.shared)
    (hstep : Step D c c') : ∃ pid, ∀ other, other ≠ pid → R.rely other c.shared c'.shared := by
  cases hstep with
  | @run pid enabled update next hprog henabled =>
    have hact := hsafe pid
    rw [hprog] at hact
    obtain ⟨_, hothers, _⟩ := hact _ (hD.refl pid _) hinv henabled
    exact ⟨pid, hothers⟩
  | @start pid result program hprog hstart => exact ⟨pid, fun other _ => hD.refl other _⟩
  | @die pid hdie => exact ⟨pid, (hD.die pid _ hinv hdie).2.1⟩

end

end process
