import Shmchan.Process.Duties

namespace process

variable {σ τ α β ρ ν Pid Pid' : Type}

namespace Prog

/-- On the way to a result that `P` admits, the program only makes steps of `S`. -/
def Keeps (S : σ → σ → Prop) (P : α → Prop) : Prog σ α → Prop
  | ret _ => True
  | act _ update next => ∀ s, S s (update s) ∧ Keeps S P (next s) ∨
      (next s).Always (fun _ _ => True) fun a => ¬ P a

/-- On the way to a result that `P` admits, the program executes an action in a
    state of `G`, and only makes steps of `S` from then on. -/
def Checks (G : σ → Prop) (S : σ → σ → Prop) (P : α → Prop) : Prog σ α → Prop
  | ret a => ¬ P a
  | act _ update next => ∀ s, G s ∧ S s (update s) ∧ Keeps S P (next s) ∨ Checks G S P (next s)

section

variable {G : σ → Prop} {S : σ → σ → Prop} {P : α → Prop} {Q : β → Prop} {p : Prog σ α} {f : α → Prog σ β}

theorem never_bind_of (hf : ∀ a, (f a).Always (fun _ _ => True) Q) (p : Prog σ α) :
    (p >>= f).Always (fun _ _ => True) Q := by
  induction p with
  | ret a => exact hf a
  | act enabled update next ih => exact ⟨fun _ => trivial, ih⟩

theorem keeps_of_never (h : p.Always (fun _ _ => True) fun a => ¬ P a) : p.Keeps S P := by
  cases p with
  | ret a => trivial
  | act enabled update next => exact fun s => .inr (h.2 s)

theorem Keeps.bind (h : p.Keeps S P) (hf : ∀ a, P a → (f a).Keeps S Q)
    (hnever : ∀ a, ¬ P a → (f a).Always (fun _ _ => True) fun b => ¬ Q b) : (p >>= f).Keeps S Q := by
  induction p with
  | ret a =>
    by_cases hP : P a
    · exact hf a hP
    · exact keeps_of_never (hnever a hP)
  | act enabled update next ih =>
    intro s
    rcases h s with ⟨hstep, hnext⟩ | hno
    · exact .inl ⟨hstep, ih s hnext⟩
    · exact .inr (hno.bind hnever)

theorem keeps_load_bind (hrefl : ∀ s, S s s) (g : σ → α) (hf : ∀ a, (f a).Keeps S Q) :
    (load g >>= f).Keeps S Q :=
  fun s => .inl ⟨hrefl s, hf (g s)⟩

/-- The program looks. -/
theorem checks_load_bind (hrefl : ∀ s, S s s) {g : σ → α}
    (hf : ∀ s, G s ∧ (f (g s)).Keeps S Q ∨ (f (g s)).Checks G S Q) : (load g >>= f).Checks G S Q :=
  fun s => (hf s).imp_left fun h => ⟨h.1, hrefl s, h.2⟩

theorem checks_bind_of (hf : ∀ a, (f a).Checks G S Q) (p : Prog σ α) : (p >>= f).Checks G S Q := by
  induction p with
  | ret a => exact hf a
  | act enabled update next ih => exact fun s => .inr (ih s)

end

end Prog

/-- A program that is safe on a part of the state, on the whole of it, and what
    it knows at the end because it has looked. -/
theorem Safe.lift_checks {R : Reliance σ Pid} {R' : Reliance τ Pid'} {pid : Pid} {pid' : Pid'}
    {get : τ → σ} {modify : (σ → σ) → τ → τ} {H : σ → σ → Prop} {A I : τ → Prop} {G : σ → Prop}
    {S : σ → σ → Prop} (hget : ∀ update t, get (modify update t) = update (get t))
    (hrely : ∀ t t', R'.rely pid' t t' → R.rely pid (get t) (get t'))
    (hinv : ∀ t, R'.inv t → R.inv (get t))
    (hstable : ∀ t t', R'.rely pid' t t' → R'.inv t' → A t → A t')
    (hstep : ∀ t update, H (get t) (update (get t)) → R.inv (update (get t)) → R'.inv t → A t →
      R'.inv (modify update t) ∧ (∀ other, other ≠ pid' → R'.rely other t (modify update t)) ∧
        A (modify update t))
    (hknown : ∀ t t', R'.rely pid' t t' → R'.inv t' → I t → I t')
    (hkept : ∀ t update, S (get t) (update (get t)) → I t → I (modify update t))
    (hgood : ∀ t, G (get t) → I t)
    {post : α → σ → Prop} {P : α → Prop} {p : Prog σ α} (hp : p.Always H fun _ => True)
    (hchecks : p.Checks G S P) {t : τ} (h : Safe R pid post p (get t)) (ht : A t) :
    Safe R' pid' (fun a t' => post a (get t') ∧ A t' ∧ (P a → I t')) (p.focus get modify) t := by
  -- it has not looked yet, or it has and knows, or it will not return such a result
  suffices hall : ∀ (p : Prog σ α) (t : τ), p.Always H (fun _ => True) → Safe R pid post p (get t) → A t →
      (p.Checks G S P ∨ p.Keeps S P ∧ I t ∨ p.Always (fun _ _ => True) fun a => ¬ P a) →
      Safe R' pid' (fun a t' => post a (get t') ∧ A t' ∧ (P a → I t')) (p.focus get modify) t from
    hall p t hp h ht (.inl hchecks)
  intro p
  induction p with
  | ret a =>
    rintro t _ h ht (hno | ⟨_, hI⟩ | hno)
    · exact ⟨h, ht, fun hP => absurd hP hno⟩
    · exact ⟨h, ht, fun _ => hI⟩
    · exact ⟨h, ht, fun hP => absurd hP hno⟩
  | act enabled update next ih =>
    intro t hp h ht hknows t' hrely' hinv' henabled
    obtain ⟨hupdate, _, hnext⟩ := h (get t') (hrely t t' hrely') (hinv t' hinv') henabled
    obtain ⟨hkeep, hothers, hA⟩ :=
      hstep t' update (hp.1 _) hupdate hinv' (hstable t t' hrely' hinv' ht)
    refine ⟨hkeep, hothers, ih _ _ (hp.2 _) ?_ hA ?_⟩
    · rw [hget]
      exact hnext
    · rcases hknows with hchecks | ⟨hkeeps, hI⟩ | hno
      · rcases hchecks (get t') with ⟨hG, hS, hkeeps⟩ | hlater
        · exact .inr (.inl ⟨hkeeps, hkept t' update hS (hgood t' hG)⟩)
        · exact .inl hlater
      · rcases hkeeps (get t') with ⟨hS, hkeeps⟩ | hno
        · exact .inr (.inl ⟨hkeeps, hkept t' update hS (hknown t t' hrely' hinv' hI)⟩)
        · exact .inr (.inr hno)
      · exact .inr (.inr (hno.2 _))

/-- What to look out for on behalf of one process: the reading that it compares
    before it falls asleep, the event that it waits for, whether it is asleep,
    and whether it is in its critical section. -/
structure Lookout (σ ν : Type) where
  reading : σ → ν
  event : σ → Bool
  asleep : σ → Bool
  inside : σ → Bool

/-- What has been seen of a run: how often the reading has changed, what it was
    when the process fell asleep, which other process has made the event that is
    on, whether that one has changed the reading since, whether it made the event
    while the process was in the critical section that it is still in, and whether
    an event of this kind has ever been announced before that section ended. -/
structure Sight (ν Pid : Type) where
  count : Nat := 0
  expected : ν
  maker : Option Pid := none
  announced : Bool := false
  covert : Bool := false
  missed : Bool := false

section

variable [DecidableEq ν] [DecidableEq Pid]

/-- The event that was off is on. -/
def Lookout.makes (L : Lookout σ ν) (s s' : σ) : Bool := L.event s' && !L.event s

/-- A step of `actor`, seen on behalf of `pid`. -/
def Sight.after (L : Lookout σ ν) (pid actor : Pid) (s s' : σ) (sight : Sight ν Pid) : Sight ν Pid where
  count := sight.count + if L.reading s' = L.reading s then 0 else 1
  expected := if L.asleep s' && !L.asleep s then L.reading s' else sight.expected
  maker :=
    if L.makes s s' then if actor = pid then none else some actor
    else if L.event s' then sight.maker else none
  announced :=
    !L.makes s s' && (sight.announced || decide (sight.maker = some actor ∧ L.reading s' ≠ L.reading s))
  covert := L.event s' && L.inside s' && if L.makes s s' then L.inside s else sight.covert
  missed :=
    sight.missed || sight.covert && decide (sight.maker = some actor ∧ L.reading s' ≠ L.reading s)

/-- A part of a run, from `c₀` on, in which `pid` stays in one program. -/
inductive Sighted (D : Discipline σ ρ Pid) (L : Lookout σ ν) (pid : Pid) (c₀ : Config σ ρ Pid) :
    Sight ν Pid → Config σ ρ Pid → Prop where
  | refl : Sighted D L pid c₀ { expected := L.reading c₀.shared } c₀
  | own {sight : Sight ν Pid} {c : Config σ ρ Pid} {enabled : σ → Bool} {update : σ → σ}
      {next : σ → Prog σ ρ} (hrun : Sighted D L pid c₀ sight c)
      (hprog : c.procs pid = .act enabled update next) (henabled : enabled c.shared = true) :
      Sighted D L pid c₀ (sight.after L pid pid c.shared (update c.shared))
        ⟨update c.shared, Function.update c.procs pid (next c.shared)⟩
  | other {sight : Sight ν Pid} {actor : Pid} {c c' : Config σ ρ Pid} (hrun : Sighted D L pid c₀ sight c)
      (hother : actor ≠ pid) (hgoes : Goes D actor c c') :
      Sighted D L pid c₀ (sight.after L pid actor c.shared c'.shared) c'
  | death {sight : Sight ν Pid} {actor : Pid} {c : Config σ ρ Pid} (hrun : Sighted D L pid c₀ sight c)
      (hother : actor ≠ pid) (hdie : D.mayDie actor c.shared) :
      Sighted D L pid c₀ (sight.after L pid actor c.shared (D.onDeath actor c.shared))
        ⟨D.onDeath actor c.shared, Function.update c.procs actor (.ret D.dead)⟩

variable {D : Discipline σ ρ Pid} {L : Lookout σ ν} {pid actor : Pid} {c₀ c c' : Config σ ρ Pid}
  {sight : Sight ν Pid} {s s' : σ}

theorem Sighted.reachable (h : Sighted D L pid c₀ sight c) : Reachable D c₀ c := by
  induction h with
  | refl => exact .refl
  | own _ hprog henabled ih => exact ih.step (.run hprog henabled)
  | other _ _ hgoes ih => exact ih.step hgoes.step
  | death _ _ hdie ih => exact ih.step (.die hdie)

/-- Another process has made the event and not announced it yet. -/
def Sight.Pending (sight : Sight ν Pid) : Prop := sight.maker ≠ none ∧ sight.announced = false

/-- Who has made the event: the one who makes it now, or the one before. -/
theorem Sight.after_maker {maker : Pid} (h : (sight.after L pid actor s s').maker = some maker) :
    L.makes s s' = true ∧ maker = actor ∧ actor ≠ pid ∨ L.makes s s' = false ∧ sight.maker = some maker := by
  simp only [Sight.after] at h
  split_ifs at h with hmakes hself
  · exact .inl ⟨hmakes, (Option.some.inj h).symm, hself⟩
  · exact .inr ⟨Bool.eq_false_iff.mpr hmakes, h⟩

theorem Sight.after_announced {maker : Pid} (hmakes : L.makes s s' = false)
    (hmaker : sight.maker = some maker) (h : (sight.after L pid actor s s').announced = false) :
    sight.announced = false ∧ (maker = actor → L.reading s' = L.reading s) := by
  simp only [Sight.after, hmakes, hmaker, Bool.not_false, Bool.true_and, Bool.or_eq_false_iff,
    decide_eq_false_iff_not, Option.some.injEq, not_and, not_not] at h
  exact h

/-- Nobody has announced an event that has just come up. -/
theorem Sight.pending_of_makes (hmakes : L.makes s s' = true) (hother : actor ≠ pid) :
    (sight.after L pid actor s s').Pending := by
  refine ⟨?_, ?_⟩
  · simp only [Sight.after, hmakes, if_true, hother, if_false]
    exact Option.some_ne_none actor
  · simp only [Sight.after, hmakes, Bool.not_true, Bool.false_and]

/-- What is pending stays so until it is announced, or until it is past. -/
theorem Sight.Pending.after (h : sight.Pending) (hbefore : L.event s = true) (hafter : L.event s' = true)
    (hsame : sight.maker = some actor → L.reading s' = L.reading s) :
    (sight.after L pid actor s s').Pending := by
  have hmakes : L.makes s s' = false := by
    simp only [Lookout.makes, hbefore, hafter, Bool.not_true, Bool.and_false]
  refine ⟨?_, ?_⟩
  · simp only [Sight.after, hmakes, Bool.false_eq_true, if_false, hafter, if_true]
    exact h.1
  · simp only [Sight.after, hmakes, Bool.not_false, Bool.true_and, Bool.or_eq_false_iff,
      decide_eq_false_iff_not, not_and, not_not]
    exact ⟨h.2, hsame⟩

/-- An event is covert as long as the process is in the critical section in
    which it was when the event came up. -/
theorem Sight.after_covert (hafter : L.event s' = true) (hinside : L.inside s' = true)
    (hcovert : L.event s = true ∧ sight.covert = true ∨ ¬ L.event s = true ∧ L.inside s = true) :
    (sight.after L pid actor s s').covert = true := by
  simp only [Sight.after, Lookout.makes, hafter, hinside, Bool.true_and]
  rcases hcovert with ⟨hbefore, hcovert⟩ | ⟨hbefore, hheld⟩
  · simp only [hbefore, Bool.not_true, Bool.false_eq_true, if_false, hcovert]
  · simp only [Bool.eq_false_iff.mpr hbefore, Bool.not_false, if_true, hheld]

theorem Sight.after_missed (h : (sight.after L pid actor s s').missed = false) :
    sight.missed = false ∧
      (sight.covert = true → sight.maker = some actor → L.reading s' = L.reading s) := by
  simp only [Sight.after, Bool.or_eq_false_iff, Bool.and_eq_false_imp, decide_eq_false_iff_not, not_and,
    not_not] at h
  exact h

theorem Sighted.maker_ne (hrun : Sighted D L pid c₀ sight c) : sight.maker ≠ some pid := by
  have hafter {sight : Sight ν Pid} {actor : Pid} {s s' : σ} (ih : sight.maker ≠ some pid) :
      (sight.after L pid actor s s').maker ≠ some pid := by
    intro hmaker
    rcases Sight.after_maker hmaker with ⟨_, hself, hother⟩ | ⟨_, hold⟩
    · exact hother hself.symm
    · exact ih hold
  induction hrun with
  | refl => exact (Option.some_ne_none pid).symm
  | own _ _ _ ih => exact hafter ih
  | other _ _ _ ih => exact hafter ih
  | death _ _ _ ih => exact hafter ih

/-- Who has made the event and not announced it either still has to, or has
    died: under programs that herald their events, and announce them by a change
    of the reading. -/
theorem Sighted.owes {G : Pid → σ → σ → Prop} {E A : σ → σ → Prop} {duties : List (σ → σ → Prop)}
    (hheralds : ∀ c, Reachable D c₀ c → ∀ actor,
      (c.procs actor).Heralds (G actor) E (A :: duties) fun _ => False)
    (hE : ∀ s s', E s s' → L.makes s s' = false)
    (hdeath : ∀ actor s, L.makes s (D.onDeath actor s) = false)
    (hA : ∀ s s', A s s' → L.reading s' ≠ L.reading s)
    (hdead : ∀ actor program, ¬ D.starts actor D.dead program)
    (hrun : Sighted D L pid c₀ sight c) {maker : Pid} (hmaker : sight.maker = some maker)
    (hsilent : sight.announced = false) :
    (c.procs maker).Owes (fun _ => False) (A :: duties) ∨ c.procs maker = .ret D.dead := by
  induction hrun generalizing maker with
  | refl => cases hmaker
  | own hrun hprog _ ih =>
    rcases Sight.after_maker hmaker with ⟨_, _, hself⟩ | ⟨hmakes, hold⟩
    · exact absurd rfl hself
    · have hother : maker ≠ pid := by
        rintro rfl
        exact hrun.maker_ne hold
      simp only [Function.update_of_ne hother]
      exact ih hold (Sight.after_announced hmakes hold hsilent).1
  | @other sight actor c c' hrun hother hgoes ih =>
    rcases Sight.after_maker hmaker with ⟨hmakes, rfl, hself⟩ | ⟨hmakes, hold⟩
    · left
      cases hgoes with
      | run hprog henabled =>
        have hherald := hheralds _ hrun.reachable maker
        rw [hprog] at hherald
        simp only [Function.update_self]
        rcases hherald.2.1 with hquiet | howes
        · rw [hE _ _ (hquiet _)] at hmakes
          cases hmakes
        · exact howes _
      | start hprog hstart =>
        rw [Lookout.makes, Bool.and_not_self] at hmakes
        cases hmakes
    · obtain ⟨hbefore, hsame⟩ := Sight.after_announced hmakes hold hsilent
      by_cases hacts : maker = actor
      · subst hacts
        rcases ih hold hbefore with howes | hgone
        · exact (hgoes.owes howes).imp_right fun hdone => absurd (hsame rfl) (hA _ _ hdone.1)
        · cases hgoes with
          | run hprog _ =>
            rw [hgone] at hprog
            cases hprog
          | start hprog hstart =>
            rw [hgone] at hprog
            cases hprog
            exact absurd hstart (hdead _ _)
      · rw [hgoes.procs_of_ne hacts]
        exact ih hold hbefore
  | @death sight actor c hrun hother hdie ih =>
    rcases Sight.after_maker hmaker with ⟨hmakes, _, _⟩ | ⟨hmakes, hold⟩
    · rw [hdeath] at hmakes
      cases hmakes
    · by_cases hacts : maker = actor
      · rw [hacts]
        exact .inr (Function.update_self _ _ _)
      · simp only [Function.update_of_ne hacts]
        exact ih hold (Sight.after_announced hmakes hold hsilent).1

/-- Where a process is in the middle of a program of a run, that program has been
    started in the run, and all that came after can be seen. -/
theorem Reachable.sighted (ν : Type) [DecidableEq ν] {init : Config σ ρ Pid}
    (hinit : ∀ pid, ∃ result, init.procs pid = .ret result)
    (hreach : Reachable D init c) (pid : Pid) :
    (∃ result, c.procs pid = .ret result) ∨
      ∃ c₀ result program, Reachable D init c₀ ∧ c₀.procs pid = .ret result ∧ D.starts pid result program ∧
        ∀ L : Lookout σ ν, ∃ sight,
          Sighted D L pid ⟨c₀.shared, Function.update c₀.procs pid program⟩ sight c := by
  induction hreach with
  | refl => exact .inl (hinit pid)
  | @tail c c' hsteps hstep ih =>
    -- a step of somebody else is seen, if there is anything to be seen
    have hothers (hsame : c'.procs pid = c.procs pid)
        (hsee : ∀ {L : Lookout σ ν} {c₀ : Config σ ρ Pid} {sight : Sight ν Pid},
          Sighted D L pid c₀ sight c → ∃ sight', Sighted D L pid c₀ sight' c') :
        (∃ result, c'.procs pid = .ret result) ∨
          ∃ c₀ result program, Reachable D init c₀ ∧ c₀.procs pid = .ret result ∧
            D.starts pid result program ∧ ∀ L : Lookout σ ν, ∃ sight,
              Sighted D L pid ⟨c₀.shared, Function.update c₀.procs pid program⟩ sight c' := by
      rw [hsame]
      refine ih.imp_right ?_
      rintro ⟨c₀, result, program, hreach₀, hprog, hstart, hseen⟩
      exact ⟨c₀, result, program, hreach₀, hprog, hstart, fun L => (hseen L).elim fun _ => hsee⟩
    cases hstep with
    | @run acting enabled update next hprog henabled =>
      by_cases hself : acting = pid
      · subst hself
        right
        rcases ih with ⟨result, hret⟩ | ⟨c₀, result, program, hreach₀, hprog₀, hstart, hseen⟩
        · rw [hprog] at hret
          cases hret
        · refine ⟨c₀, result, program, hreach₀, hprog₀, hstart, fun L => ?_⟩
          obtain ⟨sight, hsighted⟩ := hseen L
          exact ⟨_, hsighted.own hprog henabled⟩
      · exact hothers (Function.update_of_ne (Ne.symm hself) _ _) fun h =>
          ⟨_, h.other hself (.run hprog henabled)⟩
    | @start acting result program hprog hstart =>
      by_cases hself : acting = pid
      · subst hself
        exact .inr ⟨c, result, program, hsteps, hprog, hstart, fun L => ⟨_, .refl⟩⟩
      · exact hothers (Function.update_of_ne (Ne.symm hself) _ _) fun h =>
          ⟨_, h.other hself (.start hprog hstart)⟩
    | @die acting hdie =>
      by_cases hself : acting = pid
      · subst hself
        exact .inl ⟨_, Function.update_self _ _ _⟩
      · exact hothers (Function.update_of_ne (Ne.symm hself) _ _) fun h => ⟨_, h.death hself hdie⟩

/-- A process runs for some actions and is seen. -/
def Config.watch (L : Lookout σ ν) (pid actor : Pid) :
    Nat → Sight ν Pid → Config σ ρ Pid → Sight ν Pid × Config σ ρ Pid
  | 0, sight, c => (sight, c)
  | count + 1, sight, c =>
    match c.procs actor with
    | .ret _ => (sight, c)
    | .act enabled update next =>
      if enabled c.shared then
        watch L pid actor count (sight.after L pid actor c.shared (update c.shared))
          ⟨update c.shared, Function.update c.procs actor (next c.shared)⟩
      else (sight, c)

theorem Config.watch_procs_of_ne {other : Pid} (hother : other ≠ actor) (count : Nat) (sight : Sight ν Pid)
    (c : Config σ ρ Pid) : (Config.watch L pid actor count sight c).2.procs other = c.procs other := by
  induction count generalizing sight c with
  | zero => rfl
  | succ count ih =>
    rw [Config.watch]
    split
    · rfl
    · split_ifs
      · rw [ih]
        exact Function.update_of_ne hother _ _
      · rfl

theorem Sighted.watch (hrun : Sighted D L pid c₀ sight c) (actor : Pid) (count : Nat) :
    Sighted D L pid c₀ (Config.watch L pid actor count sight c).1
      (Config.watch L pid actor count sight c).2 := by
  induction count generalizing sight c with
  | zero => exact hrun
  | succ count ih =>
    rw [Config.watch]
    split
    · exact hrun
    next enabled update next hprog =>
      split_ifs with henabled
      · by_cases hself : actor = pid
        · subst hself
          exact ih (hrun.own hprog henabled)
        · exact ih (hrun.other hself (.run hprog henabled))
      · exact hrun

end

end process
