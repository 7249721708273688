import Shmchan.Endpoint.State

namespace shmchan.endpoint

/-- The process that may write the bytes of a record, or read its payload. -/
def holder : Phase → Option Nat
  | .reserved pid => some pid
  | .claimed pid => some pid
  | _ => none

/-- The phases in the order in which a position goes through them. -/
def Phase.stage : Phase → Nat
  | vacant => 0
  | reserved _ => 1
  | published => 2
  | claimed _ => 3
  | consumed => 4

/-- The positions that the processes have last finished with have come that
    far, and each is that of one process. -/
structure Finishers (stage : Nat) (phase : Nat → Phase) (last : Nat → Option Nat) : Prop where
  reached : ∀ pid i, last pid = some i → stage ≤ (phase i).stage
  alone : ∀ pid pid' i, last pid = some i → last pid' = some i → pid = pid'

section

theorem Phase.stage_consumed {phase : Phase} : 4 ≤ phase.stage ↔ phase = .consumed := by
  cases phase with
  | consumed => exact iff_of_true le_rfl rfl
  | vacant | reserved _ | published | claimed _ =>
    refine iff_of_false (by simp [stage]) ?_
    rintro ⟨⟩

theorem Phase.stage_taken {phase : Phase} : 3 ≤ phase.stage ↔ phase.taken = true := by
  cases phase with
  | claimed _ | consumed => exact iff_of_true (by simp [stage]) rfl
  | vacant | reserved _ | published => exact iff_of_false (by simp [stage]) Bool.false_ne_true

theorem held_update {phase : Nat → Phase} {i other : Nat} {new : Phase}
    (hholder : holder (phase i) ≠ some other) (j : Nat) (hj : holder (phase j) = some other) :
    Function.update phase i new j = phase j := by
  apply Function.update_of_ne
  rintro rfl
  exact hholder hj

theorem fresh_update {phase : Nat → Phase} {i other : Nat} {new : Phase}
    (hholder : holder new ≠ some other) (j : Nat) (hj : holder (Function.update phase i new j) = some other) :
    Function.update phase i new j = phase j := by
  apply Function.update_of_ne
  rintro rfl
  rw [Function.update_self] at hj
  exact hholder hj

theorem consumed_update {phase : Nat → Phase} {i : Nat} {new : Phase} (hi : phase i ≠ .consumed)
    (j : Nat) (hj : phase j = .consumed) : Function.update phase i new j = .consumed := by
  rw [Function.update_of_ne, hj]
  rintro rfl
  exact hi hj

theorem taken_update {phase : Nat → Phase} {i : Nat} {new : Phase}
    (hi : (phase i).taken = true → new.taken = true) (j : Nat) (hj : (phase j).taken = true) :
    (Function.update phase i new j).taken = true := by
  by_cases hji : j = i
  · subst hji
    rw [Function.update_self]
    exact hi hj
  · rwa [Function.update_of_ne hji]

theorem stage_update {phase : Nat → Phase} {i : Nat} {new : Phase} (hi : (phase i).stage ≤ new.stage)
    (j : Nat) : (phase j).stage ≤ (Function.update phase i new j).stage := by
  by_cases hji : j = i
  · subst hji
    rwa [Function.update_self]
  · rw [Function.update_of_ne hji]

theorem Finishers.empty (stage : Nat) (phase : Nat → Phase) : Finishers stage phase fun _ => none := by
  constructor
  · rintro pid i ⟨⟩
  · rintro pid pid' i ⟨⟩

theorem Finishers.mono {stage : Nat} {phase phase' : Nat → Phase} {last : Nat → Option Nat}
    (h : Finishers stage phase last) (hphase : ∀ i, stage ≤ (phase i).stage → stage ≤ (phase' i).stage) :
    Finishers stage phase' last :=
  ⟨fun pid i hi => hphase i (h.reached pid i hi), h.alone⟩

theorem Finishers.update_phase {phase : Nat → Phase} {last : Nat → Option Nat} (h : Finishers 4 phase last)
    {i : Nat} {new : Phase} (hi : phase i ≠ .consumed) : Finishers 4 (Function.update phase i new) last :=
  h.mono fun j hj => Phase.stage_consumed.mpr (consumed_update hi j (Phase.stage_consumed.mp hj))

theorem Finishers.forget {stage : Nat} {phase : Nat → Phase} {last : Nat → Option Nat}
    (h : Finishers stage phase last) (pid : Nat) : Finishers stage phase (Function.update last pid none) := by
  have hlast {other i : Nat} (hi : Function.update last pid none other = some i) : last other = some i := by
    by_cases hpid : other = pid
    · rw [hpid, Function.update_self] at hi
      cases hi
    · rwa [Function.update_of_ne hpid] at hi
  exact ⟨fun other i hi => h.reached other i (hlast hi),
    fun other other' i hi hi' => h.alone other other' i (hlast hi) (hlast hi')⟩

/-- A process finishes with a position that nobody has finished with. -/
theorem Finishers.finish {stage : Nat} {phase : Nat → Phase} {last : Nat → Option Nat}
    (h : Finishers stage phase last) {pid i : Nat} {new : Phase} (hi : (phase i).stage < stage)
    (hnew : stage ≤ new.stage) :
    Finishers stage (Function.update phase i new) (Function.update last pid (some i)) := by
  have hlast {other j : Nat} (hj : Function.update last pid (some i) other = some j) :
      other = pid ∧ j = i ∨ other ≠ pid ∧ j ≠ i ∧ last other = some j := by
    by_cases hpid : other = pid
    · rw [hpid, Function.update_self] at hj
      exact .inl ⟨hpid, (Option.some.inj hj).symm⟩
    · rw [Function.update_of_ne hpid] at hj
      refine .inr ⟨hpid, ?_, hj⟩
      rintro rfl
      exact hi.not_ge (h.reached other j hj)
  constructor
  · intro other j hj
    rcases hlast hj with ⟨_, rfl⟩ | ⟨_, hne, hj⟩
    · rwa [Function.update_self]
    · rw [Function.update_of_ne hne]
      exact h.reached other j hj
  · intro other other' j hj hj'
    rcases hlast hj with ⟨rfl, rfl⟩ | ⟨_, hne, hj⟩ <;> rcases hlast hj' with ⟨rfl, heq⟩ | ⟨_, hne', hj'⟩
    · rfl
    · exact absurd rfl hne'
    · exact absurd heq hne
    · exact h.alone other other' j hj hj'

end

end shmchan.endpoint
