import Shmchan.Managed.Management.LiveChannels

open process

namespace shmchan.managed

/-- As long as nothing strays from the name, every object whose state word says
    healthy has the name: no healthy channel is an orphan, and two healthy
    channels are the same object. -/
theorem no_healthy_orphan {object_name : String} {c : Config Namespace Client Nat}
    (hreach : Reachable (management object_name false) unnamed c) (hstray : c.shared.stray = false) :
    (∀ k, (c.shared.objects k).ready = true → c.shared.linked ≠ some k →
      ¬ (c.shared.objects k).Healthy) ∧
    ∀ pid pid' client client' k k', c.procs pid = .ret client → c.procs pid' = .ret client' →
      k ∈ client.handles → k' ∈ client'.handles → (c.shared.objects k).Healthy →
      (c.shared.objects k').Healthy → k = k' := by
  obtain ⟨hinv, _⟩ := management_reachable hreach
  have hlinked {k : Nat} (hhealthy : (c.shared.objects k).Healthy) : c.shared.linked = some k :=
    hinv.healthy rfl hstray k hhealthy
  constructor
  · intro k _ hunlinked hhealthy
    exact hunlinked (hlinked hhealthy)
  · intro pid pid' client client' k k' _ _ _ _ hhealthy hhealthy'
    exact Option.some.inj ((hlinked hhealthy).symm.trans (hlinked hhealthy'))

/-- A channel is created, and its name removed. -/
def created_unlinked : Config Namespace Client Nat := request one_created 1 {} (.unlink "ch") 40

theorem no_healthy_orphan_one_slot :
    (created_unlinked.shared.objects 0).ready = true ∧ created_unlinked.shared.linked ≠ some 0 ∧
      ¬ (created_unlinked.shared.objects 0).Healthy := by
  have hcreated : Reachable (management "/ch.shmchan.managed" false) unnamed one_created :=
    reachable_request .refl rfl (ch_admitted rfl) (fun h => by cases h) 40
  have hunlinked : Reachable (management "/ch.shmchan.managed" false) unnamed created_unlinked :=
    reachable_request hcreated rfl (ch_admitted rfl) (fun h => by cases h) 40
  have hfinal : created_unlinked.shared.stray = false ∧ (created_unlinked.shared.objects 0).ready = true ∧
      created_unlinked.shared.linked ≠ some 0 := by decide +kernel
  exact ⟨hfinal.2.1, hfinal.2.2, (no_healthy_orphan hunlinked hfinal.1).1 0 hfinal.2.1 hfinal.2.2⟩

/-- `open_or_create` has made the object, but not yet locked it. -/
def opening : Config Namespace Client Nat := request unnamed 0 {} (.open_or_create "ch" one_slot) 1

/-- Meanwhile `unlink` locks the empty object and removes the name. -/
def unlinked_in_between : Config Namespace Client Nat := request opening 1 {} (.unlink "ch") 40

/-- `open_or_create` goes on, and another process calls it as well. -/
def opened_twice : Config Namespace Client Nat :=
  request (unlinked_in_between.advance 0 40) 1 ⟨[], .unlinked (.ok true)⟩
    (.open_or_create "ch" one_slot) 40

/-- Two processes hold different healthy channels under one name, and no call
    is in progress. -/
theorem late_open_leaves_orphan :
    ∃ c, Reachable (management "/ch.shmchan.managed" false) unnamed c ∧
      c.procs 0 = .ret ⟨[0], .mapped (.ok 0)⟩ ∧ c.procs 1 = .ret ⟨[1], .mapped (.ok 1)⟩ ∧
      (∀ pid, pid ≠ 0 → pid ≠ 1 → c.procs pid = .ret {}) ∧
      (c.shared.objects 0).ready = true ∧ c.shared.linked ≠ some 0 ∧ (c.shared.objects 0).Healthy ∧
      (c.shared.objects 1).Healthy := by
  have hopening : Reachable (management "/ch.shmchan.managed" false) unnamed opening :=
    reachable_request .refl rfl (ch_admitted rfl) (fun h => by cases h) 1
  have hunlinked : Reachable (management "/ch.shmchan.managed" false) unnamed unlinked_in_between :=
    reachable_request hopening rfl (ch_admitted rfl) (fun h => by cases h) 40
  have hidle : (unlinked_in_between.advance 0 40).procs 1 = .ret ⟨[], .unlinked (.ok true)⟩ :=
    Prog.eq_ret_of_shown (by decide +kernel)
  have htwice : Reachable (management "/ch.shmchan.managed" false) unnamed opened_twice :=
    reachable_request (.advance hunlinked 0 40) hidle (ch_admitted rfl) (fun h => by cases h) 40
  have hfirst : opened_twice.procs 0 = .ret ⟨[0], .mapped (.ok 0)⟩ :=
    Prog.eq_ret_of_shown (by decide +kernel)
  have hsecond : opened_twice.procs 1 = .ret ⟨[1], .mapped (.ok 1)⟩ :=
    Prog.eq_ret_of_shown (by decide +kernel)
  have hfinal : (opened_twice.shared.objects 0).ready = true ∧ opened_twice.shared.linked ≠ some 0 ∧
      (opened_twice.shared.objects 0).Healthy ∧ (opened_twice.shared.objects 1).Healthy := by
    decide +kernel
  refine ⟨opened_twice, htwice, hfirst, hsecond, fun pid h₀ h₁ => ?_, hfinal⟩
  rw [opened_twice, request_procs_of_ne h₁, Config.advance_procs_of_ne h₀, unlinked_in_between,
    request_procs_of_ne h₁, opening, request_procs_of_ne h₀]
  rfl

end shmchan.managed
