import Shmchan.Process.Reliance

namespace process

variable {σ ρ Pid : Type} [DecidableEq Pid]

/-- A program on the shared state of a configuration that records there how far
    it has come. -/
def Prog.recorded (pid : Pid) : Prog σ ρ → Prog (Config σ ρ Pid) ρ
  | ret a => ret a
  | act enabled update next =>
    act (fun c => enabled c.shared)
      (fun c => ⟨update c.shared, Function.update c.procs pid (next c.shared)⟩)
      fun c => recorded pid (next c.shared)

/-- Steps of one process. -/
structure Advances (D : Discipline σ ρ Pid) (pid : Pid) (c c' : Config σ ρ Pid) : Prop where
  steps : Reachable D c c'
  others : ∀ other, other ≠ pid → c'.procs other = c.procs other

/-- The process is at this point of a program, or may start it there. -/
def UnderWay (D : Discipline σ ρ Pid) (pid : Pid) (p : Prog σ ρ) (c : Config σ ρ Pid) : Prop :=
  c.procs pid = p ∨ ∃ result, c.procs pid = .ret result ∧ D.starts pid result p

section

variable {D : Discipline σ ρ Pid} {pid other : Pid} {c c' : Config σ ρ Pid} {p : Prog σ ρ}

/-- A recorded action is a step of its process, or two with the start. -/
theorem UnderWay.step {enabled : σ → Bool} {update : σ → σ} {next : σ → Prog σ ρ}
    (h : UnderWay D pid (.act enabled update next) c) (henabled : enabled c.shared = true) :
    Advances D pid c ⟨update c.shared, Function.update c.procs pid (next c.shared)⟩ ∧
      UnderWay D pid (next c.shared) ⟨update c.shared, Function.update c.procs pid (next c.shared)⟩ := by
  refine ⟨⟨?_, fun other hother => Function.update_of_ne hother _ _⟩, .inl (Function.update_self _ _ _)⟩
  rcases h with hprog | ⟨result, hprog, hstart⟩
  · exact .single (.run hprog henabled)
  · have hstarted := Step.start (c := c) hprog hstart
    have hrun : Step D ⟨c.shared, Function.update c.procs pid (.act enabled update next)⟩
        ⟨update c.shared, Function.update (Function.update c.procs pid (.act enabled update next)) pid
          (next c.shared)⟩ := .run (Function.update_self _ _ _) henabled
    rw [Function.update_idem] at hrun
    exact (Reachable.step .refl hstarted).step hrun

end

end process
