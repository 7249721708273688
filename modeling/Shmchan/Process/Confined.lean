import Shmchan.Process.Prog

namespace process

variable {σ α β : Type}

/-- A boundary in the state: `keeps` says that nothing beyond it has changed,
    `same` that two states differ only beyond it. -/
structure Boundary (σ : Type) where
  keeps : σ → σ → Prop
  same : σ → σ → Prop

/-- In `s`, an action stays within the boundary: it changes nothing beyond it,
    and neither its effect nor what follows depends on what lies beyond. -/
structure Boundary.Admits (B : Boundary σ) (enabled : σ → Bool) (update : σ → σ)
    (next : σ → Prog σ α) (s : σ) : Prop where
  keeps : B.keeps s (update s)
  enabled : ∀ s', B.same s s' → enabled s' = enabled s
  next : ∀ s', B.same s s' → next s' = next s
  same : ∀ s', B.same s s' → B.same (update s) (update s')

theorem Boundary.Admits.bind {B : Boundary σ} {enabled : σ → Bool} {update : σ → σ}
    {next : σ → Prog σ α} {s : σ} (h : B.Admits enabled update next s) (f : α → Prog σ β) :
    B.Admits enabled update (fun s => next s >>= f) s :=
  ⟨h.keeps, h.enabled, fun s' hs => congrArg (fun p => p >>= f) (h.next s' hs), h.same⟩

/-- Every action of a run stays within the boundary, whatever the others do
    within `others` in between. -/
def Confined (B : Boundary σ) (others : σ → σ → Prop) (post : α → σ → Prop) : Prog σ α → σ → Prop
  | .ret a, s => post a s
  | .act enabled update next, s => ∀ s', others s s' → enabled s' = true →
      B.Admits enabled update next s' ∧ Confined B others post (next s') (update s')

/-- Every action of the program stays within the boundary, in whatever state
    with `I` it runs, and is a step of `G`; the program can only return what `P`
    admits. -/
def AlwaysConfined (B : Boundary σ) (I : σ → Prop) (G : σ → σ → Prop) (P : α → Prop) : Prog σ α → Prop
  | .ret a => P a
  | .act enabled update next => ∀ s, I s →
      B.Admits enabled update next s ∧ G s (update s) ∧ AlwaysConfined B I G P (next s)

variable {B : Boundary σ} {others : σ → σ → Prop} {I : σ → Prop} {G : σ → σ → Prop}

theorem Confined.bind {mid : α → σ → Prop} {post : β → σ → Prop} {p : Prog σ α} {f : α → Prog σ β}
    {s : σ} (h : Confined B others mid p s) (hf : ∀ a s', mid a s' → Confined B others post (f a) s') :
    Confined B others post (p >>= f) s := by
  induction p generalizing s with
  | ret a => exact hf a s h
  | act enabled update next ih =>
    intro s' hothers henabled
    obtain ⟨hadmits, hnext⟩ := h s' hothers henabled
    exact ⟨hadmits.bind f, ih s' hnext⟩

theorem AlwaysConfined.bind {P : α → Prop} {Q : β → Prop} {p : Prog σ α} {f : α → Prog σ β}
    (h : AlwaysConfined B I G P p) (hf : ∀ a, P a → AlwaysConfined B I G Q (f a)) :
    AlwaysConfined B I G Q (p >>= f) := by
  induction p with
  | ret a => exact hf a h
  | act enabled update next ih =>
    intro s hs
    obtain ⟨hadmits, hstep, hnext⟩ := h s hs
    exact ⟨hadmits.bind f, hstep, ih s hnext⟩

/-- A load of something on the near side of the boundary. -/
theorem AlwaysConfined.load {P : α → Prop} {f : σ → α} (hkeeps : ∀ s, B.keeps s s)
    (hrefl : ∀ s, G s s) (hf : ∀ s s', I s → B.same s s' → f s' = f s) (hP : ∀ s, I s → P (f s)) :
    AlwaysConfined B I G P (.load f) := by
  intro s hs
  exact ⟨⟨hkeeps s, fun _ _ => rfl, fun s' hsame => congrArg Prog.ret (hf s s' hs hsame),
    fun _ hsame => hsame⟩, hrefl s, hP s hs⟩

/-- A read-modify-write on the near side. -/
theorem AlwaysConfined.modifyGet {P : α → Prop} {f : σ → α} {update : σ → σ}
    (hkeeps : ∀ s, I s → B.keeps s (update s)) (hG : ∀ s, I s → G s (update s))
    (hf : ∀ s s', I s → B.same s s' → f s' = f s)
    (hsame : ∀ s s', I s → B.same s s' → B.same (update s) (update s')) (hP : ∀ s, I s → P (f s)) :
    AlwaysConfined B I G P (.modifyGet f update) := by
  intro s hs
  exact ⟨⟨hkeeps s hs, fun _ _ => rfl, fun s' h => congrArg Prog.ret (hf s s' hs h), fun s' h => hsame s s' hs h⟩,
    hG s hs, hP s hs⟩

/-- A store on the near side. -/
theorem AlwaysConfined.store {update : σ → σ} (hkeeps : ∀ s, I s → B.keeps s (update s))
    (hG : ∀ s, I s → G s (update s))
    (hsame : ∀ s s', I s → B.same s s' → B.same (update s) (update s')) :
    AlwaysConfined B I G (fun _ => True) (.store update) := by
  intro s hs
  exact ⟨⟨hkeeps s hs, fun _ _ => rfl, fun _ _ => rfl, fun s' h => hsame s s' hs h⟩, hG s hs, trivial⟩

/-- One action, from an assertion that the others keep. -/
theorem Confined.act {A : σ → Prop} {post : α → σ → Prop} {enabled : σ → Bool} {update : σ → σ}
    {next : σ → Prog σ α} {s : σ} (hothers : ∀ s s', others s s' → A s → A s') (hs : A s)
    (hstep : ∀ s', A s' → enabled s' = true →
      B.Admits enabled update next s' ∧ Confined B others post (next s') (update s')) :
    Confined B others post (.act enabled update next) s :=
  fun s' hinterfere henabled => hstep s' (hothers s s' hinterfere hs) henabled

/-- A load, from an assertion that keeps it on the near side. -/
theorem Confined.load_bind {A : σ → Prop} {post : β → σ → Prop} {f : σ → α} {k : α → Prog σ β} {s : σ}
    (hothers : ∀ s s', others s s' → A s → A s') (hs : A s) (hkeeps : ∀ s, B.keeps s s)
    (hf : ∀ s s', A s → B.same s s' → f s' = f s)
    (hk : ∀ s', A s' → Confined B others post (k (f s')) s') :
    Confined B others post (.load f >>= k) s := by
  apply Confined.act hothers hs
  intro s' hs' _
  refine ⟨⟨hkeeps s', fun _ _ => rfl, fun t hsame => ?_, fun _ hsame => hsame⟩, hk s' hs'⟩
  exact congrArg k (hf s' t hs' hsame)

/-- Runs of such a program, among others that keep an assertion it relies on. -/
theorem AlwaysConfined.confined {A : σ → Prop} {P : α → Prop} {p : Prog σ α}
    (h : AlwaysConfined B I G P p) (hothers : ∀ s s', others s s' → A s → A s')
    (hI : ∀ s, A s → I s) (hG : ∀ s s', G s s' → A s → A s') {s : σ} (hs : A s) :
    Confined B others (fun a s' => P a ∧ A s') p s := by
  induction p generalizing s with
  | ret a => exact ⟨h, hs⟩
  | act enabled update next ih =>
    intro s' hinterfere _
    have hs' := hothers s s' hinterfere hs
    obtain ⟨hadmits, hstep, hnext⟩ := h s' (hI s' hs')
    exact ⟨hadmits, ih s' hnext (hG s' (update s') hstep hs')⟩

end process
