import Shmchan.Process.Within

namespace process

section

variable {σ α β Pid : Type}

/-- The uninterrupted run of a program: no action waits, `Q` holds after each of
    them, and the run ends in `post`. -/
def AloneWithin (Q : σ → Prop) (post : α → σ → Prop) : Prog σ α → σ → Prop
  | .ret a, s => post a s
  | .act enabled update next, s =>
    enabled s = true ∧ Q (update s) ∧ AloneWithin Q post (next s) (update s)

variable {Q : σ → Prop}

theorem AloneWithin.mono {post post' : α → σ → Prop} {p : Prog σ α} {s : σ}
    (h : AloneWithin Q post p s) (hpost : ∀ a s', post a s' → post' a s') : AloneWithin Q post' p s := by
  induction p generalizing s with
  | ret a => exact hpost a s h
  | act enabled update next ih => exact ⟨h.1, h.2.1, ih s h.2.2⟩

theorem AloneWithin.bind {mid : α → σ → Prop} {post : β → σ → Prop} {p : Prog σ α}
    {f : α → Prog σ β} {s : σ} (h : AloneWithin Q mid p s)
    (hf : ∀ a s', mid a s' → AloneWithin Q post (f a) s') : AloneWithin Q post (p >>= f) s := by
  induction p generalizing s with
  | ret a => exact hf a s h
  | act enabled update next ih => exact ⟨h.1, h.2.1, ih s h.2.2⟩

/-- One action with a result. -/
theorem AloneWithin.modifyGet {post : β → σ → Prop} {f : σ → α} {update : σ → σ} {k : α → Prog σ β} {s : σ}
    (hQ : Q (update s)) (hk : AloneWithin Q post (k (f s)) (update s)) :
    AloneWithin Q post (.modifyGet f update >>= k) s :=
  ⟨rfl, hQ, hk⟩

/-- A load changes nothing. -/
theorem AloneWithin.load {post : β → σ → Prop} {f : σ → α} {k : α → Prog σ β} {s : σ} (hQ : Q s)
    (hk : AloneWithin Q post (k (f s)) s) : AloneWithin Q post (.load f >>= k) s :=
  ⟨rfl, hQ, hk⟩

theorem AloneWithin.store {post : β → σ → Prop} {update : σ → σ} {k : Unit → Prog σ β} {s : σ}
    (hQ : Q (update s)) (hk : AloneWithin Q post (k ()) (update s)) :
    AloneWithin Q post (.store update >>= k) s :=
  ⟨rfl, hQ, hk⟩

/-- An exchange that succeeds. -/
theorem AloneWithin.exchange {post : α → σ → Prop} {test : σ → Bool} {update failed : σ → σ}
    {f g : σ → Prog σ α} {s : σ} (htest : test s = true) (hQ : Q (update s))
    (hk : AloneWithin Q post (f s) (update s)) :
    AloneWithin Q post (.act (fun _ => true) (fun s => if test s = true then update s else failed s) fun s =>
      if test s = true then f s else g s) s := by
  refine ⟨rfl, ?_⟩
  simp only [htest, if_true]
  exact ⟨hQ, hk⟩

/-- An exchange that fails. -/
theorem AloneWithin.no_exchange {post : α → σ → Prop} {test : σ → Bool} {update failed : σ → σ}
    {f g : σ → Prog σ α} {s : σ} (htest : test s = false) (hQ : Q (failed s))
    (hk : AloneWithin Q post (g s) (failed s)) :
    AloneWithin Q post (.act (fun _ => true) (fun s => if test s = true then update s else failed s) fun s =>
      if test s = true then f s else g s) s := by
  refine ⟨rfl, ?_⟩
  simp only [htest, Bool.false_eq_true, if_false]
  exact ⟨hQ, hk⟩

/-- A program whose steps keep an assertion, and whose states satisfy `Q` while
    they do. -/
theorem AloneWithin.of_always {G : σ → σ → Prop} {P : α → Prop} {A : σ → Prop} {p : Prog σ α}
    (hp : p.Always G P) (hfree : p.NonBlocking)
    (hstep : ∀ s s', G s s' → A s → Q s' ∧ A s') {s : σ} (hA : A s) :
    AloneWithin Q (fun a s' => P a ∧ A s') p s := by
  induction p generalizing s with
  | ret a => exact ⟨hp, hA⟩
  | act enabled update next ih =>
    obtain ⟨hQ, hA'⟩ := hstep s _ (hp.1 s) hA
    exact ⟨hfree.1 s, hQ, ih s (hp.2 s) (hfree.2 s) hA'⟩

/-- What a program guarantees among others, it guarantees alone. -/
theorem AloneWithin.safe {R : Reliance σ Pid} {pid : Pid} {post post' : α → σ → Prop} {p : Prog σ α}
    {s : σ} (h : AloneWithin Q post p s) (hsafe : SafeWithin Q R pid post' p s)
    (hrefl : ∀ pid s, R.rely pid s s) (hinv : R.inv s) (hQ : Q s) :
    AloneWithin R.inv (fun a s' => post a s' ∧ post' a s' ∧ R.inv s') p s := by
  induction p generalizing s with
  | ret a => exact ⟨h, hsafe, hinv⟩
  | act enabled update next ih =>
    obtain ⟨henabled, hQ', hnext⟩ := h
    obtain ⟨hinv', _, hsafe'⟩ := hsafe s (hrefl pid s) hinv hQ henabled hQ'
    exact ⟨henabled, hinv', ih s hnext hsafe' hinv' hQ'⟩

/-- The run is that of `exec`. -/
theorem AloneWithin.exec {post : α → σ → Prop} {p : Prog σ α} {s : σ} (h : AloneWithin Q post p s) :
    p.unblocked s = true ∧ post (p.exec s).1 (p.exec s).2 := by
  induction p generalizing s with
  | ret a => exact ⟨rfl, h⟩
  | act enabled update next ih =>
    obtain ⟨henabled, _, hnext⟩ := h
    obtain ⟨hunblocked, hpost⟩ := ih s hnext
    exact ⟨by rw [Prog.unblocked, henabled, hunblocked]; rfl, hpost⟩

end

section

variable {σ ρ Pid : Type} [DecidableEq Pid]

end

end process
