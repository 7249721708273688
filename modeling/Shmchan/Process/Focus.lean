import Shmchan.Process.Reliance

namespace process

variable {σ τ α Pid : Type}

namespace Prog

/-- A program that runs on one part of a larger state. -/
def focus (get : τ → σ) (modify : (σ → σ) → τ → τ) : Prog σ α → Prog τ α
  | ret a => ret a
  | act enabled update next =>
    act (fun t => enabled (get t)) (modify update) fun t => focus get modify (next (get t))

/-- The update of one of the actions of a program, wherever it may lead. -/
inductive Acts : Prog σ α → (σ → σ) → Prop where
  | here {enabled : σ → Bool} {update : σ → σ} {next : σ → Prog σ α} :
      Acts (act enabled update next) update
  | later {enabled : σ → Bool} {first update : σ → σ} {next : σ → Prog σ α} {s : σ}
      (h : Acts (next s) update) : Acts (act enabled first next) update

/-- Every action of a program is one of its actions. -/
theorem always_acts (p : Prog σ α) :
    p.Always (fun s t => ∃ update, p.Acts update ∧ t = update s) fun _ => True := by
  induction p with
  | ret a => trivial
  | act enabled update next ih =>
    refine ⟨fun s => ⟨update, .here, rfl⟩, fun s => (ih s).mono ?_ fun _ h => h⟩
    rintro s₁ s₂ ⟨later, hlater, rfl⟩
    exact ⟨later, .later hlater, rfl⟩

theorem Always.acts {G : σ → σ → Prop} {P : α → Prop} {p : Prog σ α} {update : σ → σ}
    (hp : p.Always G P) (hacts : p.Acts update) (s : σ) : G s (update s) := by
  induction hacts with
  | here => exact hp.1 s
  | later _ ih => exact ih (hp.2 _)

/-- What the updates of a program do to its part, they do to the whole. -/
theorem Always.focus {get : τ → σ} {modify : (σ → σ) → τ → τ} {G : σ → σ → Prop} {H : τ → τ → Prop}
    {P : α → Prop} {p : Prog σ α} (hp : p.Always G P)
    (hG : ∀ t update, (∀ s, G s (update s)) → H t (modify update t)) :
    (p.focus get modify).Always H P := by
  induction p with
  | ret a => exact hp
  | act enabled update next ih => exact ⟨fun t => hG t update hp.1, fun t => ih _ (hp.2 _)⟩

end Prog

/-- A program on a part of the state keeps an assertion that the others keep
    and that no update within its guarantee breaks. -/
theorem Safe.focus {R : Reliance τ Pid} {pid : Pid} {get : τ → σ} {modify : (σ → σ) → τ → τ}
    {G : σ → σ → Prop} {P : α → Prop} {A : τ → Prop} {p : Prog σ α} (hp : p.Always G P)
    (hstable : ∀ t t', R.rely pid t t' → R.inv t' → A t → A t')
    (hstep : ∀ t update, (∀ s, G s (update s)) → R.inv t → A t →
      R.inv (modify update t) ∧ (∀ other, other ≠ pid → R.rely other t (modify update t)) ∧
        A (modify update t)) {t : τ} (ht : A t) :
    Safe R pid (fun a t' => P a ∧ A t') (p.focus get modify) t := by
  induction p generalizing t with
  | ret a => exact ⟨hp, ht⟩
  | act enabled update next ih =>
    intro t' hrely hinv _
    obtain ⟨hupdate, hothers, hkept⟩ := hstep t' update hp.1 hinv (hstable t t' hrely hinv ht)
    exact ⟨hupdate, hothers, ih (get t') (hp.2 _) hkept⟩

end process
