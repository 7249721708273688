import Shmchan.Process.Reliance

namespace process

variable {σ α β Pid : Type}

/-- The uninterrupted run takes only steps of `G` and ends in the
    postcondition. Since a process can die between any two actions, a
    condition that `G` imposes on the later state holds at every death point. -/
def CrashSafe (G : σ → σ → Prop) (post : α → σ → Prop) : Prog σ α → σ → Prop
  | .ret a, s => post a s
  | .act _ update next, s => G s (update s) ∧ CrashSafe G post (next s) (update s)

variable {G : σ → σ → Prop}

theorem CrashSafe.mono {G' : σ → σ → Prop} {post post' : α → σ → Prop} {p : Prog σ α} {s : σ}
    (h : CrashSafe G post p s) (hG : ∀ s t, G s t → G' s t)
    (hpost : ∀ a s', post a s' → post' a s') : CrashSafe G' post' p s := by
  induction p generalizing s with
  | ret a => exact hpost a s h
  | act enabled update next ih => exact ⟨hG _ _ h.1, ih s h.2⟩

theorem CrashSafe.bind {mid : α → σ → Prop} {post : β → σ → Prop} {p : Prog σ α}
    {f : α → Prog σ β} {s : σ} (h : CrashSafe G mid p s)
    (hf : ∀ a s', mid a s' → CrashSafe G post (f a) s') : CrashSafe G post (p >>= f) s := by
  induction p generalizing s with
  | ret a => exact hf a s h
  | act enabled update next ih => exact ⟨h.1, ih s h.2⟩

theorem CrashSafe.load_bind {post : β → σ → Prop} {f : σ → α} {k : α → Prog σ β} {s : σ}
    (hstay : G s s) (hk : CrashSafe G post (k (f s)) s) : CrashSafe G post (.load f >>= k) s :=
  ⟨hstay, hk⟩

theorem CrashSafe.store_bind {post : β → σ → Prop} {update : σ → σ} {k : Unit → Prog σ β} {s : σ}
    (hstep : G s (update s)) (hk : CrashSafe G post (k ()) (update s)) :
    CrashSafe G post (.store update >>= k) s :=
  ⟨hstep, hk⟩

theorem CrashSafe.modifyGet_bind {post : β → σ → Prop} {f : σ → α} {update : σ → σ}
    {k : α → Prog σ β} {s : σ} {a : α} (ha : f s = a) (hstep : G s (update s))
    (hk : CrashSafe G post (k a) (update s)) : CrashSafe G post (.modifyGet f update >>= k) s := by
  subst ha
  exact ⟨hstep, hk⟩

theorem CrashSafe.exec {post : α → σ → Prop} {p : Prog σ α} {s : σ} (h : CrashSafe G post p s) :
    post (p.exec s).1 (p.exec s).2 := by
  induction p generalizing s with
  | ret a => exact h
  | act enabled update next ih => exact ih s h.2

/-- A condition that every step of `G` establishes holds at every death point. -/
theorem CrashSafe.killed {post : α → σ → Prop} {p : Prog σ α} {s : σ} {P : σ → Prop}
    (h : CrashSafe G post p s) (hs : P s) (hG : ∀ s t, G s t → P t) (count : Nat) :
    P (p.killed count s) := by
  induction count generalizing p s with
  | zero => cases p <;> exact hs
  | succ count ih =>
    cases p with
    | ret a => exact hs
    | act enabled update next => exact ih h.2 (hG _ _ h.1)

/-- A program whose every run keeps an observation may be killed and started
    again any number of times: the observation is still that of the start. -/
theorem killed_runs_keep {γ : Type} {observe : σ → γ} {post : σ → α → σ → Prop} {p : Prog σ α}
    (h : ∀ s, CrashSafe (fun _ t => observe t = observe s) (post s) p s) (kills : List Nat) (s : σ) :
    observe (kills.foldl (fun s count => p.killed count s) s) = observe s := by
  induction kills generalizing s with
  | nil => rfl
  | cons count rest ih =>
    have hcount : observe (p.killed count s) = observe s :=
      (h s).killed (P := fun t => observe t = observe s) rfl (fun _ _ ht => ht) count
    exact (ih (p.killed count s)).trans hcount

/-- The program never waits, and it neither observes nor disturbs the
    difference between `E`-related states. -/
def Uniform (E : σ → σ → Prop) : Prog σ α → Prop
  | .ret _ => True
  | .act enabled update next =>
    (∀ s, enabled s = true) ∧
      (∀ s s', E s s' → E (update s) (update s') ∧ next s = next s') ∧ ∀ s, Uniform E (next s)

section

variable {E : σ → σ → Prop}

@[simp] theorem uniform_ret (a : α) : Uniform E (.ret a : Prog σ α) := trivial

theorem uniform_load {f : σ → α} (hf : ∀ s s', E s s' → f s = f s') : Uniform E (.load f) :=
  ⟨fun _ => rfl, fun s s' h => ⟨h, congrArg Prog.ret (hf s s' h)⟩, fun _ => trivial⟩

theorem uniform_store {update : σ → σ} (hupdate : ∀ s s', E s s' → E (update s) (update s')) :
    Uniform E (.store update) :=
  ⟨fun _ => rfl, fun s s' h => ⟨hupdate s s' h, rfl⟩, fun _ => trivial⟩

theorem uniform_modifyGet {f : σ → α} {update : σ → σ} (hf : ∀ s s', E s s' → f s = f s')
    (hupdate : ∀ s s', E s s' → E (update s) (update s')) : Uniform E (.modifyGet f update) :=
  ⟨fun _ => rfl, fun s s' h => ⟨hupdate s s' h, congrArg Prog.ret (hf s s' h)⟩, fun _ => trivial⟩

theorem Uniform.bind {p : Prog σ α} {f : α → Prog σ β} (hp : Uniform E p)
    (hf : ∀ a, Uniform E (f a)) : Uniform E (p >>= f) := by
  induction p with
  | ret a => exact hf a
  | act enabled update next ih =>
    exact ⟨hp.1, fun s s' h => ⟨(hp.2.1 s s' h).1, congrArg (fun q => q >>= f) (hp.2.1 s s' h).2⟩,
      fun s => ih s (hp.2.2 s)⟩

/-- Sequential reasoning under a lock. While the process holds it, the others
    change the state only within `E`; a program that is uniform in `E` is then
    safe as soon as its uninterrupted run from one `E`-related state is. -/
theorem CrashSafe.safe {R : Reliance σ Pid} {pid : Pid} {post : α → σ → Prop} (held : σ → Prop)
    (htrans : ∀ s₁ s₂ s₃, E s₁ s₂ → E s₂ s₃ → E s₁ s₃)
    (hrely : ∀ s s', held s → R.rely pid s s' → E s s')
    (hstep : ∀ s t s' t', G s t → E s s' → E t t' → R.inv s' →
      R.inv t' ∧ held t' ∧ ∀ other, other ≠ pid → R.rely other s' t')
    (hpost : ∀ a s s', post a s → E s s' → post a s')
    {p : Prog σ α} (huniform : Uniform E p) {s s' : σ} (hheld : held s') (hE : E s s')
    (h : CrashSafe G post p s) : Safe R pid post p s' := by
  induction p generalizing s s' with
  | ret a => exact hpost a s s' h hE
  | act enabled update next ih =>
    intro s'' hinterfere hinv _
    have hE' : E s s'' := htrans _ _ _ hE (hrely _ _ hheld hinterfere)
    obtain ⟨hupdate, hnext⟩ := huniform.2.1 s s'' hE'
    obtain ⟨hinv', hheld', hothers⟩ := hstep _ _ _ _ h.1 hE' hupdate hinv
    refine ⟨hinv', hothers, ?_⟩
    rw [← hnext]
    exact ih s (huniform.2.2 s) hheld' hupdate h.2

end

end process
