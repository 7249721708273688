import Shmchan.Process.Focus

namespace process

variable {σ τ α β ρ Pid : Type}

namespace Prog

/-- Whatever it reads, the program executes actions of these kinds in this order
    before it returns anything but what `P` admits. -/
def Owes (P : α → Prop) : Prog σ α → List (σ → σ → Prop) → Prop
  | ret a, duties => duties = [] ∨ P a
  | act _ update next, duties =>
    (∃ A rest, duties = A :: rest ∧ (∀ s, A s (update s)) ∧ ∀ s, Owes P (next s) rest) ∨
      ∀ s, Owes P (next s) duties

/-- Every action is a step of `G`, and after an action that is no step of `E`
    the program owes the duties. -/
def Heralds (G E : σ → σ → Prop) (duties : List (σ → σ → Prop)) (P : α → Prop) : Prog σ α → Prop
  | ret _ => True
  | act _ update next => (∀ s, G s (update s)) ∧
      ((∀ s, E s (update s)) ∨ ∀ s, Owes P (next s) duties) ∧ ∀ s, Heralds G E duties P (next s)

section

variable {G G' E : σ → σ → Prop} {A : σ → σ → Prop} {duties : List (σ → σ → Prop)} {P : α → Prop}
  {Q : β → Prop} {p : Prog σ α} {f : α → Prog σ β}

theorem owes_nil (P : α → Prop) (p : Prog σ α) : p.Owes P [] := by
  induction p with
  | ret a => exact .inl rfl
  | act enabled update next ih => exact .inr ih

/-- Who owes more owes less. -/
theorem Owes.tail (h : p.Owes P (A :: duties)) : p.Owes P duties := by
  induction p with
  | ret a => exact .inr (h.resolve_left (List.cons_ne_nil _ _))
  | act enabled update next ih =>
    rcases h with ⟨A', rest, heq, _, hrest⟩ | hlater
    · obtain ⟨rfl, rfl⟩ := List.cons.inj heq
      exact .inr hrest
    · exact .inr fun s => ih s (hlater s)

theorem Owes.bind (h : p.Owes P duties) (hf : ∀ a, P a → (f a).Owes Q duties) :
    (p >>= f).Owes Q duties := by
  induction p generalizing duties with
  | ret a =>
    rcases h with rfl | hP
    · exact owes_nil Q _
    · exact hf a hP
  | act enabled update next ih =>
    rcases h with ⟨A, rest, rfl, hA, hrest⟩ | hlater
    · exact .inl ⟨A, rest, rfl, hA, fun s => ih s (hrest s) fun a hP => (hf a hP).tail⟩
    · exact .inr fun s => ih s (hlater s) hf

/-- A program whose end alone pays. -/
theorem owes_bind_of (hf : ∀ a, (f a).Owes Q duties) (p : Prog σ α) : (p >>= f).Owes Q duties := by
  induction p with
  | ret a => exact hf a
  | act enabled update next ih => exact .inr ih

theorem Heralds.bind (h : p.Heralds G E duties P) (hP : ∀ a, P a → (f a).Owes Q duties)
    (hf : ∀ a, (f a).Heralds G E duties Q) : (p >>= f).Heralds G E duties Q := by
  induction p with
  | ret a => exact hf a
  | act enabled update next ih =>
    obtain ⟨hG, hE, hnext⟩ := h
    exact ⟨hG, hE.imp_right fun howes s => (howes s).bind hP, fun s => ih s (hnext s)⟩

theorem Heralds.mono (h : p.Heralds G E duties P) (hG : ∀ s t, G s t → G' s t) :
    p.Heralds G' E duties P := by
  induction p with
  | ret a => trivial
  | act enabled update next ih => exact ⟨fun s => hG _ _ (h.1 s), h.2.1, fun s => ih s (h.2.2 s)⟩

theorem Heralds.always (h : p.Heralds G E duties P) : p.Always G fun _ => True := by
  induction p with
  | ret a => trivial
  | act enabled update next ih => exact ⟨h.1, fun s => ih s (h.2.2 s)⟩

/-- A program that makes no event. -/
theorem heralds_of_always (h : p.Always (fun s t => G s t ∧ E s t) fun _ => True) :
    p.Heralds G E duties P := by
  induction p with
  | ret a => trivial
  | act enabled update next ih =>
    exact ⟨fun s => (h.1 s).1, .inl fun s => (h.1 s).2, fun s => ih s (h.2 s)⟩

end

theorem focus_bind (get : τ → σ) (modify : (σ → σ) → τ → τ) (p : Prog σ α) (f : α → Prog σ β) :
    (p >>= f).focus get modify = p.focus get modify >>= fun a => (f a).focus get modify := by
  induction p with
  | ret a => rfl
  | act enabled update next ih =>
    simp only [act_bind, focus]
    congr 1
    funext t
    exact ih (get t)

end Prog

/-- A program that is safe on a part of the state, on the whole of it. -/
theorem Safe.lift {Pid' : Type} {R : Reliance σ Pid} {R' : Reliance τ Pid'} {pid : Pid} {pid' : Pid'}
    {get : τ → σ} {modify : (σ → σ) → τ → τ} {G : σ → σ → Prop} {A : τ → Prop}
    (hget : ∀ update t, get (modify update t) = update (get t))
    (hrely : ∀ t t', R'.rely pid' t t' → R.rely pid (get t) (get t'))
    (hinv : ∀ t, R'.inv t → R.inv (get t))
    (hstable : ∀ t t', R'.rely pid' t t' → R'.inv t' → A t → A t')
    (hstep : ∀ t update, G (get t) (update (get t)) → R.inv (update (get t)) → R'.inv t → A t →
      R'.inv (modify update t) ∧ (∀ other, other ≠ pid' → R'.rely other t (modify update t)) ∧
        A (modify update t))
    {post : α → σ → Prop} {P : α → Prop} {p : Prog σ α} (hp : p.Always G P) {t : τ}
    (h : Safe R pid post p (get t)) (ht : A t) :
    Safe R' pid' (fun a t' => post a (get t') ∧ A t') (p.focus get modify) t := by
  induction p generalizing t with
  | ret a => exact ⟨h, ht⟩
  | act enabled update next ih =>
    intro t' hrely' hinv' henabled
    obtain ⟨hupdate, _, hnext⟩ := h (get t') (hrely t t' hrely') (hinv t' hinv') henabled
    obtain ⟨hkeep, hothers, hA⟩ :=
      hstep t' update (hp.1 _) hupdate hinv' (hstable t t' hrely' hinv' ht)
    refine ⟨hkeep, hothers, ih _ (hp.2 _) ?_ hA⟩
    rw [hget]
    exact hnext

/-- Whatever the others do, the program returns right after an action that
    leaves such a state for the result. -/
def Prog.Returns (Q : α → σ → Prop) : Prog σ α → σ → Prop
  | ret a, s => Q a s
  | act _ update next, _ => ∀ s, Returns Q (next s) (update s)

section

variable {Q : α → σ → Prop} {Q' : β → σ → Prop} {p : Prog σ α} {s : σ}

theorem Prog.returns_bind {f : α → Prog σ β} (hf : ∀ a s, (f a).Returns Q' s) (p : Prog σ α) (s : σ) :
    (p >>= f).Returns Q' s := by
  induction p generalizing s with
  | ret a => exact hf a s
  | act enabled update next ih => exact fun s => ih s _

theorem Safe.returns {R : Reliance σ Pid} {pid : Pid} {post : α → σ → Prop} (h : Safe R pid post p s)
    (h' : p.Returns Q s) : Safe R pid (fun a s' => post a s' ∧ Q a s') p s := by
  induction p generalizing s with
  | ret a => exact ⟨h, h'⟩
  | act enabled update next ih =>
    intro s' hrely hinv henabled
    obtain ⟨hupdate, hothers, hnext⟩ := h s' hrely hinv henabled
    exact ⟨hupdate, hothers, ih s' hnext (h' s')⟩

end

/-- Some process other than `pid` has these duties. -/
def Owed (c : Config σ ρ Pid) (pid : Pid) (duties : List (σ → σ → Prop)) : Prop :=
  ∃ other, other ≠ pid ∧ (c.procs other).Owes (fun _ => False) duties

theorem Owed.tail {c : Config σ ρ Pid} {pid : Pid} {A : σ → σ → Prop} {duties : List (σ → σ → Prop)}
    (h : Owed c pid (A :: duties)) : Owed c pid duties := by
  obtain ⟨other, hother, howes⟩ := h
  exact ⟨other, hother, howes.tail⟩

theorem not_owes_ret {a : ρ} {A : σ → σ → Prop} {duties : List (σ → σ → Prop)} :
    ¬ (Prog.ret a : Prog σ ρ).Owes (fun _ => False) (A :: duties) := by
  rintro (h | h)
  · exact List.cons_ne_nil _ _ h
  · exact h

section

variable [DecidableEq Pid] {D : Discipline σ ρ Pid} {pid other : Pid} {c c' : Config σ ρ Pid}

/-- An action of a process, or the start of its next program. -/
inductive Goes (D : Discipline σ ρ Pid) (pid : Pid) (c : Config σ ρ Pid) : Config σ ρ Pid → Prop where
  | run {enabled : σ → Bool} {update : σ → σ} {next : σ → Prog σ ρ}
      (hprog : c.procs pid = .act enabled update next) (henabled : enabled c.shared = true) :
      Goes D pid c ⟨update c.shared, Function.update c.procs pid (next c.shared)⟩
  | start {result : ρ} {program : Prog σ ρ} (hprog : c.procs pid = .ret result)
      (hstart : D.starts pid result program) :
      Goes D pid c ⟨c.shared, Function.update c.procs pid program⟩

theorem Goes.step (h : Goes D pid c c') : Step D c c' := by
  cases h with
  | run hprog henabled => exact .run hprog henabled
  | start hprog hstart => exact .start hprog hstart

theorem Goes.procs_of_ne (h : Goes D pid c c') (hother : other ≠ pid) : c'.procs other = c.procs other := by
  cases h with
  | run hprog henabled => exact Function.update_of_ne hother _ _
  | start hprog hstart => exact Function.update_of_ne hother _ _

/-- A part of a run, from `c₀` on, in which `pid` stays in one program and no
    process dies while it has these duties. It counts the changes of `reading`. -/
inductive Vigil {ν : Type} [DecidableEq ν] (D : Discipline σ ρ Pid) (reading : σ → ν)
    (duties : List (σ → σ → Prop)) (pid : Pid) (c₀ : Config σ ρ Pid) : Nat → Config σ ρ Pid → Prop where
  | refl : Vigil D reading duties pid c₀ 0 c₀
  | own {count : Nat} {c : Config σ ρ Pid} {enabled : σ → Bool} {update : σ → σ} {next : σ → Prog σ ρ}
      (hrun : Vigil D reading duties pid c₀ count c) (hprog : c.procs pid = .act enabled update next)
      (henabled : enabled c.shared = true) :
      Vigil D reading duties pid c₀ (count + if reading (update c.shared) = reading c.shared then 0 else 1)
        ⟨update c.shared, Function.update c.procs pid (next c.shared)⟩
  | other {count : Nat} {other : Pid} {c c' : Config σ ρ Pid}
      (hrun : Vigil D reading duties pid c₀ count c) (hother : other ≠ pid) (hgoes : Goes D other c c') :
      Vigil D reading duties pid c₀ (count + if reading c'.shared = reading c.shared then 0 else 1) c'
  | death {count : Nat} {other : Pid} {c : Config σ ρ Pid}
      (hrun : Vigil D reading duties pid c₀ count c) (hother : other ≠ pid)
      (hdie : D.mayDie other c.shared) (hfree : ¬ (c.procs other).Owes (fun _ => False) duties) :
      Vigil D reading duties pid c₀
        (count + if reading (D.onDeath other c.shared) = reading c.shared then 0 else 1)
        ⟨D.onDeath other c.shared, Function.update c.procs other (.ret D.dead)⟩

theorem Vigil.reachable {ν : Type} [DecidableEq ν] {reading : σ → ν} {duties : List (σ → σ → Prop)}
    {c₀ : Config σ ρ Pid} {count : Nat} (h : Vigil D reading duties pid c₀ count c) : Reachable D c₀ c := by
  induction h with
  | refl => exact .refl
  | own _ hprog henabled ih => exact ih.step (.run hprog henabled)
  | other _ _ hgoes ih => exact ih.step hgoes.step
  | death _ _ hdie _ ih => exact ih.step (.die hdie)

/-- A process keeps a duty until it does it. -/
theorem Goes.owes {A : σ → σ → Prop} {duties : List (σ → σ → Prop)} (hgoes : Goes D pid c c')
    (h : (c.procs pid).Owes (fun _ => False) (A :: duties)) :
    (c'.procs pid).Owes (fun _ => False) (A :: duties) ∨
      A c.shared c'.shared ∧ (c'.procs pid).Owes (fun _ => False) duties := by
  cases hgoes with
  | run hprog _ =>
    simp only [Function.update_self]
    rw [hprog] at h
    rcases h with ⟨A', rest, heq, hA, hrest⟩ | hlater
    · obtain ⟨rfl, rfl⟩ := List.cons.inj heq
      exact .inr ⟨hA _, hrest _⟩
    · exact .inl (hlater _)
  | start hprog _ =>
    rw [hprog] at h
    exact absurd h not_owes_ret

/-- A duty stays until it is done, by whoever has it. -/
theorem Owed.goes {A : σ → σ → Prop} {duties : List (σ → σ → Prop)} (h : Owed c pid (A :: duties))
    (hgoes : Goes D other c c') (hother : other ≠ pid) :
    Owed c' pid (A :: duties) ∨ A c.shared c'.shared ∧ Owed c' pid duties := by
  obtain ⟨owing, howing, howes⟩ := h
  by_cases hself : owing = other
  · subst hself
    rcases hgoes.owes howes with hstill | ⟨hdone, hrest⟩
    · exact .inl ⟨owing, howing, hstill⟩
    · exact .inr ⟨hdone, owing, howing, hrest⟩
  · refine .inl ⟨owing, howing, ?_⟩
    rw [hgoes.procs_of_ne hself]
    exact howes

theorem Owed.death {duties : List (σ → σ → Prop)} (h : Owed c pid duties) {s : σ} {result : ρ}
    (hfree : ¬ (c.procs other).Owes (fun _ => False) duties) :
    Owed ⟨s, Function.update c.procs other (.ret result)⟩ pid duties := by
  obtain ⟨owing, howing, howes⟩ := h
  refine ⟨owing, howing, ?_⟩
  have hne : owing ≠ other := by
    rintro rfl
    exact hfree howes
  simp only [Function.update_of_ne hne]
  exact howes

theorem Owed.own {duties : List (σ → σ → Prop)} {s : σ} {p : Prog σ ρ} :
    Owed ⟨s, Function.update c.procs pid p⟩ pid duties ↔ Owed c pid duties := by
  constructor
  · rintro ⟨owing, howing, howes⟩
    simp only [Function.update_of_ne howing] at howes
    exact ⟨owing, howing, howes⟩
  · rintro ⟨owing, howing, howes⟩
    refine ⟨owing, howing, ?_⟩
    simp only [Function.update_of_ne howing]
    exact howes

section

variable {ν : Type} [DecidableEq ν] {reading : σ → ν} {duties : List (σ → σ → Prop)} {c₀ : Config σ ρ Pid}
  {count : Nat}

/-- The process itself runs for some actions. -/
theorem Vigil.own_advance (h : Vigil D reading duties pid c₀ count c) (actions : Nat) :
    ∃ count', count' ≤ count + actions ∧ Vigil D reading duties pid c₀ count' (c.advance pid actions) := by
  induction actions generalizing c count with
  | zero => exact ⟨count, le_rfl, h⟩
  | succ actions ih =>
    rw [Config.advance]
    split
    · exact ⟨count, Nat.le_add_right _ _, h⟩
    next enabled update next hprog =>
      split_ifs with henabled
      · obtain ⟨count', hle, hlater⟩ := ih (h.own hprog henabled)
        refine ⟨count', hle.trans ?_, hlater⟩
        split_ifs
        · omega
        · omega
      · exact ⟨count, Nat.le_add_right _ _, h⟩

/-- Another process runs for some actions. -/
theorem Vigil.other_advance (h : Vigil D reading duties pid c₀ count c) (hother : other ≠ pid)
    (actions : Nat) :
    ∃ count', count' ≤ count + actions ∧ Vigil D reading duties pid c₀ count' (c.advance other actions) := by
  induction actions generalizing c count with
  | zero => exact ⟨count, le_rfl, h⟩
  | succ actions ih =>
    rw [Config.advance]
    split
    · exact ⟨count, Nat.le_add_right _ _, h⟩
    next enabled update next hprog =>
      split_ifs with henabled
      · obtain ⟨count', hle, hlater⟩ := ih (h.other hother (.run hprog henabled))
        refine ⟨count', hle.trans ?_, hlater⟩
        split_ifs
        · omega
        · omega
      · exact ⟨count, Nat.le_add_right _ _, h⟩

end

/-- A step of `pid` is what the others rely on. -/
theorem Adequate.rely_goes {R : Reliance σ Pid} {post : Pid → ρ → σ → Prop} (hD : Adequate D R post)
    (hinv : R.inv c.shared) (hsafe : Safe R pid (post pid) (c.procs pid) c.shared)
    (hgoes : Goes D pid c c') (hother : other ≠ pid) : R.rely other c.shared c'.shared := by
  cases hgoes with
  | run hprog henabled =>
    rw [hprog] at hsafe
    exact (hsafe _ (hD.refl pid _) hinv henabled).2.1 other hother
  | start hprog hstart => exact hD.refl other _

/-- The programs of a run herald what they do. -/
theorem Reachable.heralds {G : Pid → σ → σ → Prop} {E : σ → σ → Prop} {duties : List (σ → σ → Prop)}
    (hstart : ∀ pid result program, D.starts pid result program →
      program.Heralds (G pid) E duties fun _ => False)
    (hprocs : ∀ pid, (c.procs pid).Heralds (G pid) E duties fun _ => False) (hreach : Reachable D c c') :
    ∀ pid, (c'.procs pid).Heralds (G pid) E duties fun _ => False := by
  induction hreach with
  | refl => exact hprocs
  | @tail c' c'' _ hstep ih =>
    have hupdate {acting : Pid} {program : Prog σ ρ}
        (hprogram : program.Heralds (G acting) E duties fun _ => False) (pid : Pid) :
        (Function.update c'.procs acting program pid).Heralds (G pid) E duties fun _ => False := by
      by_cases hacting : pid = acting
      · subst hacting
        rwa [Function.update_self]
      · rw [Function.update_of_ne hacting]
        exact ih pid
    cases hstep with
    | @run acting enabled update next hprog _ =>
      have hact := ih acting
      rw [hprog] at hact
      exact hupdate (hact.2.2 _)
    | @start acting result program _ hprogram => exact hupdate (hstart acting result program hprogram)
    | @die acting _ => exact hupdate trivial

end

end process
