import Shmchan.Process.Reliance

namespace process

variable {σ α β ρ Pid : Type}

/-- Whatever the others do in between, a program that has already executed the
    actions `own`, each recorded as the states before and after it, only
    returns a result that fits the actions it has executed by then. -/
def Own (Q : List (σ × σ) → α → Prop) : List (σ × σ) → Prog σ α → Prop
  | own, .ret a => Q own a
  | own, .act _ update next => ∀ s, Own Q (own ++ [(s, update s)]) (next s)

theorem Own.mono {Q Q' : List (σ × σ) → α → Prop} {own : List (σ × σ)} {p : Prog σ α}
    (h : Own Q own p) (hQ : ∀ own a, Q own a → Q' own a) : Own Q' own p := by
  induction p generalizing own with
  | ret a => exact hQ own a h
  | act enabled update next ih => exact fun s => ih s (h s)

theorem Own.bind {Q : List (σ × σ) → α → Prop} {Q' : List (σ × σ) → β → Prop} {own : List (σ × σ)}
    {p : Prog σ α} {f : α → Prog σ β} (h : Own Q own p) (hf : ∀ own' a, Q own' a → Own Q' own' (f a)) :
    Own Q' own (p >>= f) := by
  induction p generalizing own with
  | ret a => exact hf own a h
  | act enabled update next ih => exact fun s => ih s (h s)

/-- A load adds one action that changes nothing. -/
theorem Own.load_bind {Q : List (σ × σ) → β → Prop} {own : List (σ × σ)} {f : σ → α} {k : α → Prog σ β}
    (hk : ∀ s, Own Q (own ++ [(s, s)]) (k (f s))) : Own Q own (.load f >>= k) := hk

/-- A program whose every action is a step of `G` adds steps of `G`. -/
theorem Prog.Always.own {G : σ → σ → Prop} {P : α → Prop} {p : Prog σ α} (hp : p.Always G P)
    (own : List (σ × σ)) :
    Own (fun own' a => P a ∧ ∃ later, own' = own ++ later ∧ ∀ x ∈ later, G x.1 x.2) own p := by
  induction p generalizing own with
  | ret a => exact ⟨hp, [], (List.append_nil own).symm, fun x hx => absurd hx List.not_mem_nil⟩
  | act enabled update next ih =>
    intro s
    refine (ih s (hp.2 s) _).mono ?_
    rintro own' a ⟨ha, later, rfl, hlater⟩
    refine ⟨ha, (s, update s) :: later, by rw [List.append_assoc, List.singleton_append], fun x hx => ?_⟩
    rcases List.mem_cons.mp hx with rfl | hx
    · exact hp.1 s
    · exact hlater x hx

/-- As `Safe`, with the actions that the program has executed so far: what is
    known when it returns may speak of what it has found on its way. -/
def SafeOwn (R : Reliance σ Pid) (pid : Pid) (post : List (σ × σ) → α → σ → Prop) :
    List (σ × σ) → Prog σ α → σ → Prop
  | own, .ret a, s => post own a s
  | own, .act enabled update next, s => ∀ s', R.rely pid s s' → R.inv s' → enabled s' = true →
      R.inv (update s') ∧ (∀ other, other ≠ pid → R.rely other s' (update s')) ∧
        SafeOwn R pid post (own ++ [(s', update s')]) (next s') (update s')

section

variable {R : Reliance σ Pid} {pid : Pid} {own : List (σ × σ)}

theorem SafeOwn.bind {mid : List (σ × σ) → α → σ → Prop} {post : List (σ × σ) → β → σ → Prop}
    {p : Prog σ α} {f : α → Prog σ β} {s : σ} (h : SafeOwn R pid mid own p s)
    (hf : ∀ own' a s', mid own' a s' → SafeOwn R pid post own' (f a) s') :
    SafeOwn R pid post own (p >>= f) s := by
  induction p generalizing own s with
  | ret a => exact hf own a s h
  | act enabled update next ih =>
    intro s' hrely hinv henabled
    obtain ⟨hupdate, hothers, hnext⟩ := h s' hrely hinv henabled
    exact ⟨hupdate, hothers, ih s' hnext⟩

theorem SafeOwn.mono {post post' : List (σ × σ) → α → σ → Prop} {p : Prog σ α} {s : σ}
    (h : SafeOwn R pid post own p s) (hpost : ∀ own a s', post own a s' → post' own a s') :
    SafeOwn R pid post' own p s := by
  induction p generalizing own s with
  | ret a => exact hpost own a s h
  | act enabled update next ih =>
    intro s' hrely hinv henabled
    obtain ⟨hupdate, hothers, hnext⟩ := h s' hrely hinv henabled
    exact ⟨hupdate, hothers, ih s' hnext⟩

/-- What every process may rely on from every other one, a safe program keeps. -/
theorem SafeOwn.keep {post : List (σ × σ) → α → σ → Prop} {p : Prog σ α} {s : σ} {A : σ → Prop} {other : Pid}
    (hother : other ≠ pid) (hA : ∀ pid s s', R.rely pid s s' → R.inv s' → A s → A s')
    (h : SafeOwn R pid post own p s) (hs : A s) :
    SafeOwn R pid (fun own' a s' => post own' a s' ∧ A s') own p s := by
  induction p generalizing own s with
  | ret a => exact ⟨h, hs⟩
  | act enabled update next ih =>
    intro s' hrely hinv henabled
    obtain ⟨hupdate, hothers, hnext⟩ := h s' hrely hinv henabled
    have hkept : A (update s') := hA other s' _ (hothers other hother) hupdate (hA pid s s' hrely hinv hs)
    exact ⟨hupdate, hothers, ih s' hnext hkept⟩

/-- Whatever it has found, the program is safe. -/
theorem SafeOwn.safe {post : List (σ × σ) → α → σ → Prop} {p : Prog σ α} {s : σ}
    (h : SafeOwn R pid post own p s) : Safe R pid (fun a s' => ∃ own', post own' a s') p s := by
  induction p generalizing own s with
  | ret a => exact ⟨own, h⟩
  | act enabled update next ih =>
    intro s' hrely hinv henabled
    obtain ⟨hupdate, hothers, hnext⟩ := h s' hrely hinv henabled
    exact ⟨hupdate, hothers, ih s' hnext⟩

/-- A safe program only adds to what has been found before. -/
theorem Safe.records {post : α → σ → Prop} {p : Prog σ α} {s : σ} (h : Safe R pid post p s)
    (own : List (σ × σ)) : SafeOwn R pid (fun own' a s' => own <+: own' ∧ post a s') own p s := by
  suffices hfrom : ∀ before, own <+: before →
      SafeOwn R pid (fun own' a s' => own <+: own' ∧ post a s') before p s from hfrom own List.prefix_rfl
  induction p generalizing s with
  | ret a => exact fun before hbefore => ⟨hbefore, h⟩
  | act enabled update next ih =>
    intro before hbefore s' hrely hinv henabled
    obtain ⟨hupdate, hothers, hnext⟩ := h s' hrely hinv henabled
    exact ⟨hupdate, hothers, ih s' hnext _ (hbefore.trans (List.prefix_append _ _))⟩

/-- A safe program stays safe when the other processes act. -/
theorem SafeOwn.interfere {post : List (σ × σ) → α → σ → Prop} {p : Prog σ α} {s s' : σ}
    (htrans : ∀ s₁ s₂ s₃, R.rely pid s₁ s₂ → R.rely pid s₂ s₃ → R.rely pid s₁ s₃)
    (hstable : ∀ a s s', R.rely pid s s' → post own a s → post own a s') (hrely : R.rely pid s s')
    (h : SafeOwn R pid post own p s) : SafeOwn R pid post own p s' := by
  cases p with
  | ret a => exact hstable a s s' hrely h
  | act enabled update next =>
    intro s'' hlater hinv henabled
    exact h s'' (htrans s s' s'' hrely hlater) hinv henabled

/-- An action that changes nothing has found the state in which it is executed. -/
theorem SafeOwn.observe {post : List (σ × σ) → α → σ → Prop} {enabled : σ → Bool} {update : σ → σ}
    {next : σ → Prog σ α} {s : σ} (hrefl : ∀ other s, R.rely other s s) (hupdate : ∀ s, update s = s)
    (hnext : ∀ s', R.rely pid s s' → R.inv s' → SafeOwn R pid post (own ++ [(s', s')]) (next s') s') :
    SafeOwn R pid post own (.act enabled update next) s := by
  intro s' hrely hinv _
  rw [hupdate]
  exact ⟨hinv, fun other _ => hrefl other s', hnext s' hrely hinv⟩

end

/-- A part of a run, from `c₀` on, with the actions that one process executes
    in it. The process may start a next program only after a result that
    `continues`. -/
inductive OwnRun [DecidableEq Pid] (D : Discipline σ ρ Pid) (continues : ρ → Prop) (pid : Pid)
    (c₀ : Config σ ρ Pid) : List (σ × σ) → Config σ ρ Pid → Prop where
  | refl : OwnRun D continues pid c₀ [] c₀
  | own {own : List (σ × σ)} {c : Config σ ρ Pid} {enabled : σ → Bool} {update : σ → σ}
      {next : σ → Prog σ ρ} (hrun : OwnRun D continues pid c₀ own c)
      (hprog : c.procs pid = .act enabled update next) (henabled : enabled c.shared = true) :
      OwnRun D continues pid c₀ (own ++ [(c.shared, update c.shared)])
        ⟨update c.shared, Function.update c.procs pid (next c.shared)⟩
  | again {own : List (σ × σ)} {c : Config σ ρ Pid} {result : ρ} {program : Prog σ ρ}
      (hrun : OwnRun D continues pid c₀ own c) (hprog : c.procs pid = .ret result)
      (hcontinues : continues result) (hstart : D.starts pid result program) :
      OwnRun D continues pid c₀ own ⟨c.shared, Function.update c.procs pid program⟩
  | other {own : List (σ × σ)} {c c' : Config σ ρ Pid} (hrun : OwnRun D continues pid c₀ own c)
      (hstep : Step D c c') (hother : c'.procs pid = c.procs pid) : OwnRun D continues pid c₀ own c'

section

variable [DecidableEq Pid] {D : Discipline σ ρ Pid} {continues : ρ → Prop} {pid : Pid}
  {c₀ c : Config σ ρ Pid} {own : List (σ × σ)}

theorem OwnRun.reachable (h : OwnRun D continues pid c₀ own c) : Reachable D c₀ c := by
  induction h with
  | refl => exact .refl
  | own _ hprog henabled ih => exact ih.step (.run hprog henabled)
  | again _ hprog _ hstart ih => exact ih.step (.start hprog hstart)
  | other _ hstep _ ih => exact ih.step hstep

/-- The actions that `Config.advance` executes. -/
def Config.own_actions (pid : Pid) : Nat → Config σ ρ Pid → List (σ × σ)
  | 0, _ => []
  | count + 1, c =>
    match c.procs pid with
    | .ret _ => []
    | .act enabled update next =>
      if enabled c.shared = true then
        (c.shared, update c.shared) ::
          own_actions pid count ⟨update c.shared, Function.update c.procs pid (next c.shared)⟩
      else []

theorem OwnRun.advance (h : OwnRun D continues pid c₀ own c) (count : Nat) :
    OwnRun D continues pid c₀ (own ++ c.own_actions pid count) (c.advance pid count) := by
  induction count generalizing c own with
  | zero =>
    rw [Config.own_actions, List.append_nil]
    exact h
  | succ count ih =>
    cases hprog : c.procs pid with
    | ret result =>
      simp only [Config.advance, Config.own_actions, hprog, List.append_nil]
      exact h
    | act enabled update next =>
      simp only [Config.advance, Config.own_actions, hprog]
      split_ifs with henabled
      · have hnext := ih (h.own hprog henabled)
        rwa [List.append_assoc, List.singleton_append] at hnext
      · rw [List.append_nil]
        exact h

/-- Another process goes on. -/
theorem OwnRun.advance_other (h : OwnRun D continues pid c₀ own c) {other : Pid} (hother : pid ≠ other)
    (count : Nat) : OwnRun D continues pid c₀ own (c.advance other count) := by
  induction count generalizing c with
  | zero => exact h
  | succ count ih =>
    rw [Config.advance]
    split
    · exact h
    next enabled update next hprog =>
      split_ifs with henabled
      · exact ih (h.other (.run hprog henabled) (Function.update_of_ne hother _ _))
      · exact h

/-- What fits every program of a call fits the call. -/
theorem OwnRun.fits {Q : List (σ × σ) → ρ → Prop} (hstart : Own Q [] (c₀.procs pid))
    (hagain : ∀ own result program, Q own result → continues result → D.starts pid result program →
      Own Q own program)
    (h : OwnRun D continues pid c₀ own c) : Own Q own (c.procs pid) := by
  induction h with
  | refl => exact hstart
  | own _ hprog _ ih =>
    rw [hprog] at ih
    simp only [Function.update_self]
    exact ih _
  | again _ hprog hcontinues hnext ih =>
    rw [hprog] at ih
    simp only [Function.update_self]
    exact hagain _ _ _ ih hcontinues hnext
  | other _ _ hother ih =>
    rw [hother]
    exact ih

/-- No program is what one of its own actions leads to. -/
theorem Prog.next_ne {enabled : σ → Bool} {update : σ → σ} {next : σ → Prog σ α} (s : σ) :
    next s ≠ .act enabled update next := by
  suffices h : ∀ (p : Prog σ α) enabled update next s, p = .act enabled update next → next s ≠ p from
    h _ _ _ _ s rfl
  intro p
  induction p with
  | ret a =>
    intro _ _ _ _ h
    cases h
  | act enabled update next ih =>
    intro _ _ _ s h hnext
    cases h
    exact ih s _ _ _ s hnext rfl

/-- A step after which a live process is where it was is a step that it may
    rely on. -/
theorem Adequate.rely_other {R : Reliance σ Pid} {post : Pid → ρ → σ → Prop} (hD : Adequate D R post)
    {c' : Config σ ρ Pid} (hinv : R.inv c.shared)
    (hsafe : ∀ pid, Safe R pid (post pid) (c.procs pid) c.shared) (hstep : Step D c c')
    (hother : c'.procs pid = c.procs pid) (halive : c.procs pid ≠ .ret D.dead) :
    R.rely pid c.shared c'.shared := by
  cases hstep with
  | @run actor _ _ next' hact henabled =>
    have hne : pid ≠ actor := by
      rintro rfl
      simp only [Function.update_self, hact] at hother
      exact Prog.next_ne _ hother
    have hactor := hsafe actor
    rw [hact] at hactor
    exact (hactor _ (hD.refl actor _) hinv henabled).2.1 pid hne
  | start _ _ => exact hD.refl pid _
  | @die actor hdie =>
    have hne : pid ≠ actor := by
      rintro rfl
      simp only [Function.update_self] at hother
      exact halive hother.symm
    exact (hD.die actor _ hinv hdie).2.1 pid hne

/-- A process may promise the others more during one of its programs than the
    discipline does in general: every action it then executes keeps the promise. -/
theorem OwnRun.promises {R T : Reliance σ Pid} {post : Pid → ρ → σ → Prop} (hD : Adequate D R post)
    (hinvs : ∀ s, R.inv s → T.inv s) (hrely : ∀ s s', R.rely pid s s' → T.rely pid s s')
    (hrefl : ∀ s, T.rely pid s s)
    (htrans : ∀ s₁ s₂ s₃, T.rely pid s₁ s₂ → T.rely pid s₂ s₃ → T.rely pid s₁ s₃)
    (hinv : R.inv c₀.shared) (hsafe : ∀ other, Safe R other (post other) (c₀.procs other) c₀.shared)
    (hprogram : Safe T pid (fun _ _ => True) (c₀.procs pid) c₀.shared)
    (hrun : OwnRun D (fun _ => False) pid c₀ own c) :
    Safe T pid (fun _ _ => True) (c.procs pid) c.shared ∧
      ∀ x ∈ own, ∀ other, other ≠ pid → T.rely other x.1 x.2 := by
  induction hrun with
  | refl => exact ⟨hprogram, fun x hx => absurd hx List.not_mem_nil⟩
  | own hrun hprog henabled ih =>
    obtain ⟨ihsafe, ihown⟩ := ih
    rw [hprog] at ihsafe
    have hmid := (hD.reachable hinv hsafe hrun.reachable).1
    obtain ⟨_, hothers, hnext⟩ := ihsafe _ (hrefl _) (hinvs _ hmid) henabled
    refine ⟨by simpa only [Function.update_self] using hnext, fun x hx => ?_⟩
    rcases List.mem_append.mp hx with hx | hx
    · exact ihown x hx
    · rw [List.mem_singleton.mp hx]
      exact hothers
  | again _ _ hcontinues => exact hcontinues.elim
  | @other _ mid last hrun hstep hother ih =>
    obtain ⟨ihsafe, ihown⟩ := ih
    obtain ⟨hmid, hmidsafe⟩ := hD.reachable hinv hsafe hrun.reachable
    refine ⟨?_, ihown⟩
    rw [hother]
    by_cases hdead : mid.procs pid = .ret D.dead
    · rw [hdead]
      trivial
    · exact ihsafe.interfere htrans (fun _ _ => trivial)
        (hrely _ _ (hD.rely_other hmid hmidsafe hstep hother hdead))

/-- What a program has returned at the end of its part of a run, together with
    the actions that it has executed in it. -/
theorem OwnRun.returns {R : Reliance σ Pid} {post : Pid → ρ → σ → Prop} (hD : Adequate D R post)
    {Q : List (σ × σ) → ρ → σ → Prop}
    (hstable : ∀ own result s s', R.rely pid s s' → Q own result s → Q own result s')
    (hinv : R.inv c₀.shared) (hsafe : ∀ other, Safe R other (post other) (c₀.procs other) c₀.shared)
    (hprogram : SafeOwn R pid Q [] (c₀.procs pid) c₀.shared)
    (hrun : OwnRun D (fun _ => False) pid c₀ own c) :
    c.procs pid = .ret D.dead ∨ SafeOwn R pid Q own (c.procs pid) c.shared := by
  induction hrun with
  | refl => exact .inr hprogram
  | own hrun hprog henabled ih =>
    have hmid := (hD.reachable hinv hsafe hrun.reachable).1
    rw [hprog] at ih
    rcases ih with hdead | hmidsafe
    · cases hdead
    · simp only [Function.update_self]
      exact .inr (hmidsafe _ (hD.refl pid _) hmid henabled).2.2
  | again _ _ hcontinues => exact hcontinues.elim
  | @other _ mid last hrun hstep hother ih =>
    rw [hother]
    rcases ih with hdead | hmidsafe
    · exact .inl hdead
    · by_cases hdead : mid.procs pid = .ret D.dead
      · exact .inl hdead
      · obtain ⟨hmid, hall⟩ := hD.reachable hinv hsafe hrun.reachable
        exact .inr (hmidsafe.interfere (hD.trans pid) (hstable _)
          (hD.rely_other hmid hall hstep hother hdead))

end

end process
