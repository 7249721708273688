import Mathlib

namespace process

/-- A sequential program over a shared state, as the tree of its atomic
    actions. An action waits until it is enabled, updates the state, and
    continues with what it read just before the update. -/
inductive Prog (σ : Type) (α : Type) : Type where
  | ret (a : α)
  | act (enabled : σ → Bool) (update : σ → σ) (next : σ → Prog σ α)

namespace Prog

variable {σ α β γ : Type}

def bind : Prog σ α → (α → Prog σ β) → Prog σ β
  | ret a, f => f a
  | act enabled update next, f => act enabled update fun s => (next s).bind f

instance : Monad (Prog σ) where
  pure := ret
  bind := bind

@[simp] theorem pure_eq (a : α) : (pure a : Prog σ α) = ret a := rfl

@[simp] theorem ret_bind (a : α) (f : α → Prog σ β) : (ret a : Prog σ α) >>= f = f a := rfl

@[simp] theorem act_bind (enabled : σ → Bool) (update : σ → σ) (next : σ → Prog σ α)
    (f : α → Prog σ β) :
    act enabled update next >>= f = act enabled update fun s => next s >>= f := rfl

theorem bind_assoc (p : Prog σ α) (f : α → Prog σ β) (g : β → Prog σ γ) :
    p >>= f >>= g = p >>= fun a => f a >>= g := by
  induction p with
  | ret a => rfl
  | act enabled update next ih =>
    simp only [act_bind]
    congr 1
    funext s
    exact ih s

/-- A load: one action that changes nothing. -/
def load (f : σ → α) : Prog σ α := act (fun _ => true) id fun s => ret (f s)

/-- A store: one action that returns nothing. -/
def store (update : σ → σ) : Prog σ Unit := act (fun _ => true) update fun _ => ret ()

/-- An atomic read-modify-write: the result is computed from the old state. -/
def modifyGet (f : σ → α) (update : σ → σ) : Prog σ α :=
  act (fun _ => true) update fun s => ret (f s)

/-- Stores executed one after another. -/
def stores : List (σ → σ) → Prog σ Unit
  | [] => ret ()
  | update :: rest => store update >>= fun _ => stores rest

/-- The uninterrupted run, with the final state and the result. -/
def exec : Prog σ α → σ → α × σ
  | ret a, s => (a, s)
  | act _ update next, s => exec (next s) (update s)

@[simp] theorem exec_ret (a : α) (s : σ) : exec (ret a) s = (a, s) := rfl

@[simp] theorem exec_act (enabled : σ → Bool) (update : σ → σ) (next : σ → Prog σ α) (s : σ) :
    exec (act enabled update next) s = exec (next s) (update s) := rfl

theorem exec_bind (p : Prog σ α) (f : α → Prog σ β) (s : σ) :
    exec (p >>= f) s = exec (f (exec p s).1) (exec p s).2 := by
  induction p generalizing s with
  | ret a => rfl
  | act enabled update next ih => exact ih s (update s)

theorem exec_load_bind (f : σ → α) (k : α → Prog σ β) (s : σ) :
    (load f >>= k).exec s = (k (f s)).exec s := rfl

theorem exec_store_bind (update : σ → σ) (k : Unit → Prog σ β) (s : σ) :
    (store update >>= k).exec s = (k ()).exec (update s) := rfl

theorem exec_stores (updates : List (σ → σ)) (s : σ) :
    (stores updates).exec s = ((), updates.foldl (fun s update => update s) s) := by
  induction updates generalizing s with
  | nil => rfl
  | cons update rest ih => exact ih (update s)

/-- No action of the program ever waits. -/
def NonBlocking : Prog σ α → Prop
  | ret _ => True
  | act enabled _ next => (∀ s, enabled s = true) ∧ ∀ s, NonBlocking (next s)

@[simp] theorem nonBlocking_ret (a : α) : (ret a : Prog σ α).NonBlocking := trivial

@[simp] theorem nonBlocking_load (f : σ → α) : (load f).NonBlocking := ⟨fun _ => rfl, fun _ => trivial⟩

@[simp] theorem nonBlocking_store (update : σ → σ) : (store update).NonBlocking :=
  ⟨fun _ => rfl, fun _ => trivial⟩

@[simp] theorem nonBlocking_modifyGet (f : σ → α) (update : σ → σ) :
    (modifyGet f update).NonBlocking :=
  ⟨fun _ => rfl, fun _ => trivial⟩

theorem NonBlocking.bind {p : Prog σ α} {f : α → Prog σ β} (hp : p.NonBlocking)
    (hf : ∀ a, (f a).NonBlocking) : (p >>= f).NonBlocking := by
  induction p with
  | ret a => exact hf a
  | act enabled update next ih => exact ⟨hp.1, fun s => ih s (hp.2 s)⟩

/-- The uninterrupted run never waits. -/
def unblocked : Prog σ α → σ → Bool
  | ret _, _ => true
  | act enabled update next, s => enabled s && unblocked (next s) (update s)

/-- Every action of the program, in whatever state it runs, is a step of `G`,
    and the program can only return what `P` admits. -/
def Always (G : σ → σ → Prop) (P : α → Prop) : Prog σ α → Prop
  | ret a => P a
  | act _ update next => (∀ s, G s (update s)) ∧ ∀ s, Always G P (next s)

section

variable {G : σ → σ → Prop}

theorem always_load (hrefl : ∀ s, G s s) (f : σ → α) : (load f).Always G fun _ => True :=
  ⟨hrefl, fun _ => trivial⟩

theorem always_store {update : σ → σ} (hupdate : ∀ s, G s (update s)) :
    (store update).Always G fun _ => True :=
  ⟨hupdate, fun _ => trivial⟩

theorem Always.mono {G' : σ → σ → Prop} {P Q : α → Prop} {p : Prog σ α} (hp : p.Always G P)
    (hG : ∀ s t, G s t → G' s t) (hPQ : ∀ a, P a → Q a) : p.Always G' Q := by
  induction p with
  | ret a => exact hPQ a hp
  | act enabled update next ih => exact ⟨fun s => hG _ _ (hp.1 s), fun s => ih s (hp.2 s)⟩

theorem Always.bind {P : α → Prop} {Q : β → Prop} {p : Prog σ α} {f : α → Prog σ β}
    (hp : p.Always G P) (hf : ∀ a, P a → (f a).Always G Q) : (p >>= f).Always G Q := by
  induction p with
  | ret a => exact hf a hp
  | act enabled update next ih => exact ⟨hp.1, fun s => ih s (hp.2 s)⟩

end

/-- The result of a program that has returned. -/
def shown : Prog σ α → Option α
  | ret a => some a
  | act _ _ _ => none

theorem eq_ret_of_shown {p : Prog σ α} {a : α} (h : p.shown = some a) : p = ret a := by
  cases p with
  | ret b => rw [Option.some.inj h]
  | act enabled update next => cases h

/-- The state a process leaves behind when it dies after `count` actions. -/
def killed : Prog σ α → Nat → σ → σ
  | _, 0, s => s
  | ret _, _ + 1, s => s
  | act _ update next, count + 1, s => killed (next s) count (update s)

theorem killed_zero (p : Prog σ α) (s : σ) : p.killed 0 s = s := by
  cases p with
  | ret a => rfl
  | act enabled update next => rfl

theorem killed_act_bind (enabled : σ → Bool) (update : σ → σ) (next : σ → Prog σ α) (f : α → Prog σ β)
    (count : Nat) (s : σ) : (act enabled update next >>= f).killed (count + 1) s =
      (next s >>= f).killed count (update s) := rfl

theorem killed_load_bind (f : σ → α) (k : α → Prog σ β) (count : Nat) (s : σ) :
    (load f >>= k).killed (count + 1) s = (k (f s)).killed count s := rfl

/-- The number of actions of the uninterrupted run. -/
def length : Prog σ α → σ → Nat
  | ret _, _ => 0
  | act _ update next, s => length (next s) (update s) + 1

/-- A death hits the first of two programs, or leaves its end to the second. -/
theorem killed_bind (p : Prog σ α) (f : α → Prog σ β) (count : Nat) (s : σ) :
    (p >>= f).killed count s = if count ≤ p.length s then p.killed count s
      else (f (p.exec s).1).killed (count - p.length s) (p.exec s).2 := by
  induction p generalizing s count with
  | ret a =>
    rw [length, Nat.sub_zero]
    split_ifs with hcount
    · rw [Nat.le_zero.mp hcount, killed_zero, killed_zero]
    · rfl
  | act enabled update next ih =>
    cases count with
    | zero => rw [killed_zero, killed_zero, if_pos (Nat.zero_le _)]
    | succ count =>
      rw [killed_act_bind, ih s, length, Nat.add_sub_add_right]
      simp only [Nat.add_le_add_iff_right, killed, exec_act]

/-- What every action keeps, a death at any point keeps. -/
theorem Always.killed {G : σ → σ → Prop} {P : α → Prop} (hrefl : ∀ s, G s s)
    (htrans : ∀ s₁ s₂ s₃, G s₁ s₂ → G s₂ s₃ → G s₁ s₃) {p : Prog σ α} (hp : p.Always G P) (count : Nat)
    (s : σ) : G s (p.killed count s) := by
  induction count generalizing p s with
  | zero =>
    rw [killed_zero]
    exact hrefl s
  | succ count ih =>
    cases p with
    | ret a => exact hrefl s
    | act enabled update next => exact htrans _ _ _ (hp.1 s) (ih (hp.2 s) (update s))

theorem Always.exec {G : σ → σ → Prop} {P : α → Prop} (hrefl : ∀ s, G s s)
    (htrans : ∀ s₁ s₂ s₃, G s₁ s₂ → G s₂ s₃ → G s₁ s₃) {p : Prog σ α} (hp : p.Always G P) (s : σ) :
    G s (p.exec s).2 := by
  induction p generalizing s with
  | ret a => exact hrefl s
  | act enabled update next ih => exact htrans _ _ _ (hp.1 s) (ih s (hp.2 s) (update s))

end Prog

end process
