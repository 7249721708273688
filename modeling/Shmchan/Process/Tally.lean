import Shmchan.Process.Within

namespace process

section

variable {σ α β : Type} {counter : σ → Nat} {won : α → Prop}

/-- The program tells the result of a counter: it increments it once before a
    result in `won`, and never otherwise. `counted` says whether it has. -/
def Prog.Counts (counter : σ → Nat) (won : α → Prop) : Prog σ α → Prop → Prop
  | .ret a, counted => won a ↔ counted
  | .act _ update next, counted => ∀ s,
      (counter (update s) = counter s ∧ Counts counter won (next s) counted) ∨
        (¬ counted ∧ counter (update s) = counter s + 1 ∧ Counts counter won (next s) True)

/-- A program that leaves the counter alone. -/
theorem Prog.Always.counts {P : α → Prop} {p : Prog σ α} {counted : Prop}
    (hp : p.Always (fun s s' => counter s' = counter s) P) (hP : ∀ a, P a → (won a ↔ counted)) :
    p.Counts counter won counted := by
  induction p with
  | ret a => exact hP a hp
  | act enabled update next ih => exact fun s => .inl ⟨hp.1 s, ih s (hp.2 s)⟩

end

section

variable {σ ρ Pid : Type} [DecidableEq Pid]

/-- The runs from `init` without deaths, with the results that programs have
    returned in them. -/
inductive Trace (D : Discipline σ ρ Pid) (init : Config σ ρ Pid) : List ρ → Config σ ρ Pid → Prop where
  | refl : Trace D init [] init
  | run {results : List ρ} {c : Config σ ρ Pid} {pid : Pid} {enabled : σ → Bool} {update : σ → σ}
      {next : σ → Prog σ ρ} (h : Trace D init results c) (hprog : c.procs pid = .act enabled update next)
      (henabled : enabled c.shared = true) :
      Trace D init ((next c.shared).shown.toList ++ results)
        ⟨update c.shared, Function.update c.procs pid (next c.shared)⟩
  | start {results : List ρ} {c : Config σ ρ Pid} {pid : Pid} {result : ρ} {program : Prog σ ρ}
      (h : Trace D init results c) (hprog : c.procs pid = .ret result) (hstart : D.starts pid result program) :
      Trace D init (program.shown.toList ++ results) ⟨c.shared, Function.update c.procs pid program⟩

variable {D : Discipline σ ρ Pid} {init c : Config σ ρ Pid} {results : List ρ}

theorem Trace.reachable (h : Trace D init results c) : Reachable D init c := by
  induction h with
  | refl => exact .refl
  | run _ hprog henabled ih => exact ih.step (.run hprog henabled)
  | start _ hprog hstart ih => exact ih.step (.start hprog hstart)

/-- A running process goes on for `count` actions, as long as they are enabled. -/
theorem Trace.advance (h : Trace D init results c) {pid : Pid} (hrunning : (c.procs pid).shown = none)
    (count : Nat) :
    Trace D init (((c.advance pid count).procs pid).shown.toList ++ results) (c.advance pid count) := by
  induction count generalizing c results with
  | zero =>
    rw [Config.advance, hrunning]
    exact h
  | succ count ih =>
    rw [Config.advance]
    split
    next hprog =>
      rw [hprog] at hrunning
      cases hrunning
    next enabled update next hprog =>
      split_ifs with henabled
      · have hrun := h.run hprog henabled
        cases hshown : (next c.shared).shown with
        | none =>
          rw [hshown] at hrun
          apply ih hrun
          simp only [Function.update_self, hshown]
        | some result =>
          have hstays (count : Nat) : Config.advance pid count
              ⟨update c.shared, Function.update c.procs pid (next c.shared)⟩ =
              ⟨update c.shared, Function.update c.procs pid (next c.shared)⟩ := by
            cases count with
            | zero => rfl
            | succ count => simp [Config.advance, Prog.eq_ret_of_shown hshown]
          rw [hstays]
          simp only [Function.update_self]
          exact hrun
      · rw [hrunning]
        exact h

section

variable {counter : σ → Nat} {won : ρ → Prop}

/-- The processes that have incremented the counter and not returned yet. -/
structure Winners (counter : σ → Nat) (won : ρ → Prop) (c : Config σ ρ Pid) (winners : List Pid) : Prop where
  nodup : winners.Nodup
  running : ∀ pid ∈ winners, (c.procs pid).shown = none
  counts : ∀ pid, (c.procs pid).shown = none → (c.procs pid).Counts counter won (pid ∈ winners)

theorem Prog.Counts.shown {p : Prog σ ρ} {counted : Prop} {result : ρ} (h : p.Counts counter won counted)
    (hshown : p.shown = some result) : won result ↔ counted := by
  rw [Prog.eq_ret_of_shown hshown] at h
  exact h

theorem Winners.replace {winners winners' : List Pid} (h : Winners counter won c winners) {pid : Pid}
    {program : Prog σ ρ} (s : σ) (hnodup : winners'.Nodup)
    (hothers : ∀ other, other ≠ pid → (other ∈ winners' ↔ other ∈ winners))
    (hself : pid ∈ winners' → program.shown = none)
    (hcounts : program.shown = none → program.Counts counter won (pid ∈ winners')) :
    Winners counter won ⟨s, Function.update c.procs pid program⟩ winners' := by
  refine ⟨hnodup, fun other hmem => ?_, fun other hrunning => ?_⟩
  · by_cases hne : other = pid
    · subst hne
      simp only [Function.update_self]
      exact hself hmem
    · simp only [Function.update_of_ne hne]
      exact h.running other ((hothers other hne).mp hmem)
  · by_cases hne : other = pid
    · subst hne
      simp only [Function.update_self] at hrunning ⊢
      exact hcounts hrunning
    · simp only [Function.update_of_ne hne] at hrunning ⊢
      rw [propext (hothers other hne)]
      exact h.counts other hrunning

/-- A process goes on or begins; it has incremented the counter if `counted`. -/
theorem Winners.update {winners : List Pid} (h : Winners counter won c winners) {pid : Pid} {program : Prog σ ρ}
    {counted : Prop} [Decidable counted] [DecidablePred won] (hcounts : program.Counts counter won counted)
    (s : σ) : ∃ winners', Winners counter won ⟨s, Function.update c.procs pid program⟩ winners' ∧
      winners'.length + program.shown.toList.countP (fun result => decide (won result)) =
        (winners.erase pid).length + if counted then 1 else 0 := by
  have hout : pid ∉ winners.erase pid := fun hmem => ((h.nodup.mem_erase_iff).mp hmem).1 rfl
  have hothers (other : Pid) (hne : other ≠ pid) : other ∈ winners.erase pid ↔ other ∈ winners :=
    List.mem_erase_of_ne hne
  cases hshown : program.shown with
  | some result =>
    have hwon := hcounts.shown hshown
    refine ⟨winners.erase pid, h.replace s (h.nodup.erase pid) hothers (fun hmem => absurd hmem hout) ?_, ?_⟩
    · rw [hshown]
      rintro ⟨⟩
    · by_cases hcounted : counted
      · simp [hcounted, hwon.mpr hcounted]
      · simp [hcounted, mt hwon.mp hcounted]
  | none =>
    by_cases hcounted : counted
    · refine ⟨pid :: winners.erase pid, h.replace s (List.nodup_cons.mpr ⟨hout, h.nodup.erase pid⟩) ?_
        (fun _ => hshown) fun _ => ?_, by simp [hcounted]⟩
      · intro other hne
        rw [List.mem_cons, or_iff_right hne]
        exact hothers other hne
      · rwa [show (pid ∈ pid :: winners.erase pid) = counted from
          propext (iff_of_true List.mem_cons_self hcounted)]
    · refine ⟨winners.erase pid, h.replace s (h.nodup.erase pid) hothers (fun hmem => absurd hmem hout)
        fun _ => ?_, by simp [hcounted]⟩
      rwa [show (pid ∈ winners.erase pid) = counted from propext (iff_of_false hout hcounted)]

/-- The counter is the number of results in `won` that have been returned or
    are going to be. -/
theorem Trace.counts [DecidablePred won] (hinit : ∀ pid, (init.procs pid).shown ≠ none)
    (hcounter : counter init.shared = 0)
    (hstart : ∀ pid result program, D.starts pid result program → program.Counts counter won False)
    (h : Trace D init results c) : ∃ winners, Winners counter won c winners ∧
      winners.length + results.countP (fun result => decide (won result)) = counter c.shared := by
  induction h with
  | refl =>
    refine ⟨[], ⟨List.nodup_nil, ?_, fun pid hrunning => absurd hrunning (hinit pid)⟩, by simp [hcounter]⟩
    exact fun pid hmem => absurd hmem List.not_mem_nil
  | @run results c pid enabled update next _ hprog _ ih =>
    obtain ⟨winners, hwinners, hsum⟩ := ih
    have hact := hwinners.counts pid (by rw [hprog]; rfl)
    rw [hprog] at hact
    rcases hact c.shared with ⟨hsame, hnext⟩ | ⟨hnot, hmore, hnext⟩
    · obtain ⟨winners', hwinners', hlength⟩ := hwinners.update hnext (update c.shared)
      refine ⟨winners', hwinners', ?_⟩
      rw [List.countP_append, hsame, ← hsum]
      by_cases hmem : pid ∈ winners
      · rw [if_pos hmem, List.length_erase_of_mem hmem] at hlength
        have := List.length_pos_of_mem hmem
        omega
      · rw [if_neg hmem, List.erase_of_not_mem hmem] at hlength
        omega
    · obtain ⟨winners', hwinners', hlength⟩ := hwinners.update hnext (update c.shared)
      refine ⟨winners', hwinners', ?_⟩
      rw [if_pos trivial, List.erase_of_not_mem hnot] at hlength
      rw [List.countP_append, hmore, ← hsum]
      omega
  | @start results c pid result program _ hprog hbegin ih =>
    obtain ⟨winners, hwinners, hsum⟩ := ih
    obtain ⟨winners', hwinners', hlength⟩ := hwinners.update (hstart pid result program hbegin) c.shared
    refine ⟨winners', hwinners', ?_⟩
    have hnot : pid ∉ winners := by
      intro hmem
      have hrunning := hwinners.running pid hmem
      rw [hprog] at hrunning
      cases hrunning
    rw [if_neg id, List.erase_of_not_mem hnot] at hlength
    rw [List.countP_append, ← hsum]
    omega

omit [DecidableEq Pid] in
/-- When every process shows a result, all of them have been returned. -/
theorem Winners.settled {winners : List Pid} (h : Winners counter won c winners)
    (hshown : ∀ pid, (c.procs pid).shown ≠ none) : winners = [] :=
  List.eq_nil_iff_forall_not_mem.mpr fun pid hmem => hshown pid (h.running pid hmem)

end

end

section

variable {σ ρ Pid : Type} [DecidableEq Pid] {D : Discipline σ ρ Pid} {Q : σ → Prop} {R : Reliance σ Pid}
  {post : Pid → ρ → σ → Prop} {init c : Config σ ρ Pid} {results : List ρ}

/-- What the results of a run say, and no process breaks, is true. -/
theorem AdequateWithin.truthful (hD : AdequateWithin (fun _ => True) D R post)
    (hpids : ∀ pid : Pid, ∃ other, other ≠ pid) {fact : ρ → σ → Prop}
    (hfact : ∀ pid result s, post pid result s → fact result s)
    (hstable : ∀ pid result, Stable R pid (fact result)) (hinv : R.inv init.shared)
    (hsafe : ∀ pid, SafeWithin (fun _ => True) R pid (post pid) (init.procs pid) init.shared)
    (h : Trace D init results c) : ∀ result ∈ results, fact result c.shared := by
  have hnew {results : List ρ} {c : Config σ ρ Pid} (hreach : ReachableWithin (fun _ => True) D init c)
      (pid : Pid) (hold : ∀ result ∈ results, fact result c.shared) :
      ∀ result ∈ (c.procs pid).shown.toList ++ results, fact result c.shared := by
    intro result hmem
    rcases List.mem_append.mp hmem with hmem | hmem
    · have hshown := (hD.reachable trivial hinv hsafe hreach).2.2 pid
      rw [Prog.eq_ret_of_shown (Option.mem_toList.mp hmem)] at hshown
      exact hfact pid result _ hshown
    · exact hold result hmem
  induction h with
  | refl => exact fun result hmem => absurd hmem List.not_mem_nil
  | @run results c pid enabled update next h hprog henabled ih =>
    have hreach := (h.run hprog henabled).reachable.within
    obtain ⟨_, hinv', hsafe'⟩ := hD.reachable trivial hinv hsafe h.reachable.within
    have hkeep (result : ρ) (hmem : result ∈ results) : fact result (update c.shared) :=
      hD.keeps hpids (fun pid => hstable pid result) trivial hinv' hsafe' (ih result hmem)
        (.single ⟨.run hprog henabled, trivial⟩)
    have hall := hnew hreach pid hkeep
    simp only [Function.update_self] at hall
    exact hall
  | @start results c pid result program h hprog hbegin ih =>
    have hall := hnew (h.start hprog hbegin).reachable.within pid ih
    simp only [Function.update_self] at hall
    exact hall

end

end process
