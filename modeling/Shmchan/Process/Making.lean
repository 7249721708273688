import Shmchan.Process.Lives

namespace process

namespace ObjectLife

variable {M α : Type}

/-- The process has created the object and is not done with it. It operates on
    no object. -/
structure Making (L : ObjectLife M) (pid object : Nat) (name : String) (size : Nat) (m : M) (s : ObjectSpace M) :
    Prop where
  maker : (s.objects object).maker = some pid
  named : (s.objects object).name = name
  sized : (s.objects object).size = size
  memory : (s.objects object).memory = m
  unready : L.ready m = false
  rest : L.AtRest pid s

/-- The maker of an object has the lock. -/
structure Building (L : ObjectLife M) (pid object : Nat) (name : String) (size : Nat) (m : M) (s : ObjectSpace M) :
    Prop extends L.Making pid object name size m s where
  exclusive : (s.objects object).exclusive = some pid

/-- The object is ready, and only operations have changed it since it had these
    contents. -/
structure Grown (L : ObjectLife M) (object : Nat) (name : String) (size : Nat) (m : M) (s : ObjectSpace M) :
    Prop where
  named : (s.objects object).name = name
  sized : (s.objects object).size = size
  ready : L.ready (s.objects object).memory = true
  grows : L.Grows name (fun _ => True) m (s.objects object).memory

/-- The object is ready, and the process operates on no other one. -/
structure Operating (L : ObjectLife M) (pid object : Nat) (name : String) (s : ObjectSpace M) : Prop where
  named : (s.objects object).name = name
  ready : L.ready (s.objects object).memory = true
  elsewhere : ∀ k, k ≠ object → L.ready (s.objects k).memory = true → L.idle pid (s.objects k).memory

/-- What may be relied on in the contents of a ready object. -/
def contents (L : ObjectLife M) (name : String) : Reliance M Nat :=
  ⟨fun m => L.ready m = true, fun pid => L.Grows name (· ≠ pid)⟩

section

variable {L : ObjectLife M} {pid other object size : Nat} {name : String} {m : M}
  {o : SharedObject M} {s s' : ObjectSpace M}

theorem Making.stable (hrely : L.Rely pid s s') (h : L.Making pid object name size m s) :
    L.Making pid object name size m s' := by
  have hevolves := hrely object
  obtain ⟨hmaker, hname⟩ := hevolves.maker (by rw [h.maker]; exact Option.some_ne_none pid)
  obtain ⟨hmemory, hsize⟩ := hevolves.making h.maker (by rw [h.memory]; exact h.unready)
  exact ⟨hmaker.trans h.maker, hname.trans h.named, hsize.trans h.sized, hmemory.trans h.memory, h.unready,
    h.rest.stable hrely⟩

theorem Building.stable (hrely : L.Rely pid s s') (h : L.Building pid object name size m s) :
    L.Building pid object name size m s' :=
  ⟨h.toMaking.stable hrely, (hrely object).exclusive h.exclusive⟩

/-- What is ready and has grown from some contents, has so for ever. -/
theorem Grown.stable (hrely : L.Rely pid s s') (h : L.Grown object name size m s) :
    L.Grown object name size m s' := by
  obtain ⟨hname, hsize, hgrows⟩ := (hrely object).whole h.ready
  rw [h.named] at hgrows
  exact ⟨hname.trans h.named, hsize.trans h.sized, (hrely object).ready h.ready,
    h.grows.trans (hgrows.mono fun _ _ => trivial)⟩

theorem Operating.stable (hrely : L.Rely pid s s') (h : L.Operating pid object name s) :
    L.Operating pid object name s' := by
  refine ⟨((hrely object).whole h.ready).1.trans h.named, (hrely object).ready h.ready, fun k hk hready' => ?_⟩
  rcases hready : L.ready (s.objects k).memory with _ | _
  · obtain ⟨m, hborn, hgrows⟩ := (hrely k).born hready hready'
    exact hgrows.idle (L.born_idle hborn pid)
  · exact ((hrely k).whole hready).2.2.idle (h.elsewhere k hk hready)

/-- A new object, which nobody else writes to. -/
theorem Inv.add_object (hinv : L.Inv s) {blank : M} (hblank : L.ready blank = false) (name : String)
    (hrest : L.AtRest pid s) : L.Inv (s.add_object blank pid name) ∧
      (∀ other, L.Rely other s (s.add_object blank pid name)) ∧
      L.Making pid s.next name 0 blank (s.add_object blank pid name) := by
  have hself : (s.add_object blank pid name).objects s.next =
      { memory := blank, maker := some pid, name := name } := Function.update_self _ _ _
  have hother {k : Nat} (hk : k ≠ s.next) : (s.add_object blank pid name).objects k = s.objects k :=
    Function.update_of_ne hk _ _
  have hnew {k : Nat} (hk : (s.objects k).maker ≠ none) : k ≠ s.next := Nat.ne_of_lt (hinv.made k hk)
  have hunmade : (s.objects s.next).maker = none := by
    by_contra hmade
    exact hnew hmade rfl
  have hnext : (s.add_object blank pid name).next = s.next + 1 := rfl
  refine ⟨⟨fun k => ?_, fun k hk => ?_, fun called k hk => ?_⟩, fun other k => ?_, ?_⟩
  · by_cases hk : k = s.next
    · rw [hk, hself]
      refine ⟨fun h => absurd rfl h, fun h => ?_, fun h => absurd rfl h, fun h => absurd rfl h,
        fun h => absurd rfl h, fun h => ?_⟩
      all_goals
        rw [hblank] at h
        cases h
    · rw [hother hk]
      exact hinv.sound k
  · rw [hnext]
    by_cases hkeq : k = s.next
    · rw [hkeq]
      exact Nat.lt_succ_self _
    · rw [hother hkeq] at hk
      exact (hinv.made k hk).trans (Nat.lt_succ_self _)
  · by_cases hcalled : called = name
    · have hlinked : (s.add_object blank pid name).linked name = some s.next := Function.update_self _ _ _
      rw [hcalled, hlinked] at hk
      rw [← Option.some.inj hk, hself]
      exact ⟨Option.some_ne_none pid, hcalled.symm⟩
    · have hlinked : (s.add_object blank pid name).linked called = s.linked called :=
        Function.update_of_ne hcalled _ _
      have hk' := hlinked.symm.trans hk
      rw [hother (hnew (hinv.linked called k hk').1)]
      exact hinv.linked called k hk'
  · by_cases hk : k = s.next
    · rw [hk, hself]
      exact evolves_of_unmade (hinv.sound s.next) hunmade hblank
    · rw [hother hk]
      exact Evolves.refl L other _
  · refine ⟨by rw [hself], by rw [hself], by rw [hself], by rw [hself], hblank, fun k hready => ?_⟩
    by_cases hk : k = s.next
    · rw [hk, hself, hblank] at hready
      cases hready
    · rw [hother hk] at hready ⊢
      exact hrest k hready

theorem create_exclusive_own {blank : M} (hblank : L.ready blank = false) (name : String)
    (h : L.AtRest pid s) :
    SafeOwn L.reliance pid (fun own found s' => L.AtRest pid s' ∧
        (found = none → ∃ object, Finds own name (some object)) ∧
        ∀ object, found = some object → Finds own name none ∧ L.Making pid object name 0 blank s')
      [] (create_exclusive blank pid name) s := by
  intro s₁ hrely hinv _
  have h₁ := h.stable hrely
  by_cases hfree : s₁.linked name = none
  · simp only [if_pos hfree]
    obtain ⟨hinv', hothers, hmaking⟩ := hinv.add_object hblank name h₁
    refine ⟨hinv', fun other _ => hothers other, hmaking.rest, fun hnone => ?_, fun object hobject => ?_⟩
    · cases hnone
    · rw [← Option.some.inj hobject]
      exact ⟨⟨_, rfl, hfree⟩, hmaking⟩
  · simp only [if_neg hfree]
    obtain ⟨taken, htaken⟩ := Option.ne_none_iff_exists'.mp hfree
    refine ⟨hinv, fun other _ k => Evolves.refl L other (s₁.objects k), h₁,
      fun _ => ⟨taken, _, rfl, htaken⟩, fun _ hobject => ?_⟩
    cases hobject

/-- The maker of an object takes the lock while the object is empty. -/
theorem Making.lock_exclusive {blank : M} (h : L.Making pid object name 0 blank s) :
    Safe L.reliance pid (fun _ s' => L.Building pid object name 0 blank s') (lock_exclusive pid object) s := by
  intro s₁ hrely hinv henabled
  have h₁ := h.stable hrely
  simp only [Bool.and_eq_true, Option.isNone_iff_eq_none, List.isEmpty_iff] at henabled
  have hrelocks : L.Relocks pid (s₁.objects object) { s₁.objects object with exclusive := some pid } :=
    { size := rfl
      memory := rfl
      maker := rfl
      name := rfl
      locked := fun _ => by
        rw [h₁.maker]
        exact Option.some_ne_none pid
      alone := fun _ => henabled.2
      exclusive := fun other _ hlocked => by
        rw [henabled.1] at hlocked
        cases hlocked
      shared := fun _ _ hshared => hshared
      abandoned := fun habandoned => absurd h₁.sized habandoned.sized }
  refine ⟨hinv.set_object rfl rfl (hrelocks.sound (hinv.sound object)),
    fun other hother => rely_set_object (hrelocks.evolves hother), ⟨⟨?_, ?_, ?_, ?_, h.unready, ?_⟩, ?_⟩⟩
  · rw [ObjectSpace.set_object_self]
    exact h₁.maker
  · rw [ObjectSpace.set_object_self]
    exact h₁.named
  · rw [ObjectSpace.set_object_self]
    exact h₁.sized
  · rw [ObjectSpace.set_object_self]
    exact h₁.memory
  · exact h₁.rest.set_object fun hready => h₁.rest object hready
  · rw [ObjectSpace.set_object_self]

/-- The maker of an object writes to it under its lock. If it becomes ready,
    then by the last store of its making. -/
theorem Building.write {size' : Nat} {m' : M} (h : L.Building pid object name size m s) (hinv : L.Inv s)
    {f : SharedObject M → SharedObject M}
    (hf : f (s.objects object) = { s.objects object with size := size', memory := m' })
    (hsize : size ≠ 0 → size' = size) (hborn : L.ready m' = true → L.Born name size' m') :
    L.Inv (s.set_object object f) ∧ (∀ other, other ≠ pid → L.Rely other s (s.set_object object f)) ∧
      L.AtRest pid (s.set_object object f) := by
  have hsound := hinv.sound object
  have hunready : L.ready (s.objects object).memory = false := by
    rw [h.memory]
    exact h.unready
  have hmade : (s.objects object).maker ≠ none := by
    rw [h.maker]
    exact Option.some_ne_none pid
  have hborn' (hready : L.ready m' = true) : L.Born (s.objects object).name size' m' := by
    rw [h.named]
    exact hborn hready
  refine ⟨hinv.set_object ?_ ?_ ?_, fun other hother => rely_set_object ?_, h.rest.set_object ?_⟩
  all_goals rw [hf]
  · exact ⟨fun _ => hmade, fun _ => hmade, fun _ => hmade, fun _ => hmade, hsound.alone,
      fun hready => ⟨m', hborn' hready, .refl⟩⟩
  · exact
      { maker := fun _ => ⟨rfl, rfl⟩
        sized := fun hsized => by
          rw [h.sized] at hsized ⊢
          exact hsize hsized
        exclusive := fun hexclusive => hexclusive
        shared := fun hshared => hshared
        making := fun hmaker _ => absurd (Option.some.inj (hmaker.symm.trans h.maker)) hother
        abandoned := fun habandoned => absurd (h.exclusive.trans h.maker.symm) habandoned.unlocked
        whole := fun hready => by
          rw [hunready] at hready
          cases hready
        born := fun _ hready => ⟨m', hborn' hready, .refl⟩ }
  · exact fun hready => L.born_idle (hborn' hready) pid

/-- A write that does not make the object ready. -/
theorem Building.go_on {size' : Nat} {m' : M} (h : L.Building pid object name size m s) (hinv : L.Inv s)
    {f : SharedObject M → SharedObject M}
    (hf : f (s.objects object) = { s.objects object with size := size', memory := m' })
    (hsize : size ≠ 0 → size' = size) (hunready : L.ready m' = false) :
    L.Inv (s.set_object object f) ∧ (∀ other, other ≠ pid → L.Rely other s (s.set_object object f)) ∧
      L.Building pid object name size' m' (s.set_object object f) := by
  obtain ⟨hinv', hothers, hrest⟩ := h.write hinv hf hsize fun hready => by
    rw [hunready] at hready
    cases hready
  refine ⟨hinv', hothers, ⟨⟨?_, ?_, ?_, ?_, hunready, hrest⟩, ?_⟩⟩
  all_goals rw [ObjectSpace.set_object_self, hf]
  · exact h.maker
  · exact h.named
  · exact h.exclusive

/-- The maker gives its empty object a size. -/
theorem Building.resize {blank : M} (h : L.Building pid object name 0 blank s) (size : Nat) :
    Safe L.reliance pid (fun _ s' => L.Building pid object name size blank s') (resize blank object size) s := by
  intro s₁ hrely hinv _
  have h₁ := h.stable hrely
  refine h₁.go_on hinv ?_ (fun hne => absurd rfl hne) h.unready
  rw [SharedObject.resize, if_pos (.inr h₁.sized)]

/-- A store of the maker that does not make the object ready. -/
theorem Building.store {update : M → M} (hupdate : ∀ m, L.ready m = false → L.ready (update m) = false)
    (h : L.Building pid object name size m s) :
    Safe L.reliance pid (fun _ s' => L.Building pid object name size (update m) s')
      (on_object object (.store update)) s := by
  intro s₁ hrely hinv _
  have h₁ := h.stable hrely
  refine h₁.go_on hinv ?_ (fun _ => rfl) (hupdate m h.unready)
  rw [h₁.memory, ← h₁.sized]

theorem Building.stores {updates : List (M → M)} :
    (∀ update ∈ updates, ∀ m, L.ready m = false → L.ready (update m) = false) →
    ∀ {m : M} {s : ObjectSpace M}, L.Building pid object name size m s →
      Safe L.reliance pid (fun _ s' =>
          L.Building pid object name size (updates.foldl (fun m update => update m) m) s')
        (on_object object (.stores updates)) s := by
  induction updates with
  | nil => exact fun _ _ _ h => h
  | cons update rest ih =>
    intro hupdates m s h
    have hfirst := hupdates update List.mem_cons_self
    intro s₁ hrely hinv henabled
    obtain ⟨hinv', hothers, hmid⟩ := h.store hfirst s₁ hrely hinv henabled
    exact ⟨hinv', hothers, ih (fun later hlater => hupdates later (List.mem_cons_of_mem _ hlater)) hmid⟩

/-- The last store of the making. -/
theorem Building.finish {last : M → M} (hready : L.ready (last m) = true) (hborn : L.Born name size (last m))
    (h : L.Building pid object name size m s) :
    Safe L.reliance pid (fun _ s' => L.Grown object name size (last m) s' ∧ L.AtRest pid s')
      (on_object object (.store last)) s := by
  intro s₁ hrely hinv _
  have h₁ := h.stable hrely
  let f (o : SharedObject M) : SharedObject M := { o with memory := last o.memory }
  have hf : f (s₁.objects object) = { s₁.objects object with size := size, memory := last m } := by
    rw [← h₁.memory, ← h₁.sized]
  obtain ⟨hinv', hothers, hrest⟩ := h₁.write hinv hf (fun _ => rfl) fun _ => hborn
  refine ⟨hinv', hothers, ⟨?_, ?_, ?_, ?_⟩, hrest⟩
  all_goals simp only [ObjectSpace.set_memory, ObjectSpace.set_object_self, h₁.named, h₁.sized, h₁.memory]
  · exact hready
  · exact .refl

/-- A program that is safe on the contents of a ready object. Its process is at
    rest once it is idle there again. -/
theorem Operating.safe {post : α → M → Prop} {p : Prog M α}
    (hp : Safe (L.contents name) pid post p (s.objects object).memory) (h : L.Operating pid object name s) :
    Safe L.reliance pid (fun a s' => post a (s'.objects object).memory ∧ L.Operating pid object name s')
      (on_object object p) s := by
  induction p generalizing s with
  | ret a => exact ⟨hp, h⟩
  | act enabled update next ih =>
    intro s₁ hrely hinv henabled
    have h₁ := h.stable hrely
    have hgrows := ((hrely object).whole h.ready).2.2
    rw [h.named] at hgrows
    obtain ⟨hready, hothers, hnext⟩ := hp _ hgrows h₁.ready henabled
    have hsound := hinv.sound object
    have hself : ((s₁.set_memory object update).objects object) =
        { s₁.objects object with memory := update (s₁.objects object).memory } := ObjectSpace.set_object_self ..
    have hevolves (other : Nat) (hother : other ≠ pid) : L.Evolves other (s₁.objects object)
        { s₁.objects object with memory := update (s₁.objects object).memory } :=
      { maker := fun _ => ⟨rfl, rfl⟩
        sized := fun _ => rfl
        exclusive := fun hexclusive => hexclusive
        shared := fun hshared => hshared
        making := fun _ hunready => by
          rw [h₁.ready] at hunready
          cases hunready
        abandoned := fun habandoned => by
          have hunready := habandoned.unready
          rw [h₁.ready] at hunready
          cases hunready
        whole := fun _ => ⟨rfl, rfl, by rw [h₁.named]; exact hothers other hother⟩
        born := fun hunready _ => by
          rw [h₁.ready] at hunready
          cases hunready }
    have hwhole : L.Whole { s₁.objects object with memory := update (s₁.objects object).memory } := by
      obtain ⟨m, hborn, hgrown⟩ := hsound.whole h₁.ready
      refine ⟨m, hborn, hgrown.trans ?_⟩
      rw [h₁.named]
      exact (hothers (pid + 1) (Nat.succ_ne_self pid)).mono fun _ _ => trivial
    refine ⟨hinv.set_object rfl rfl ⟨hsound.sized, fun _ => hsound.owned h₁.ready, hsound.locked, hsound.shared,
      hsound.alone, fun _ => hwhole⟩, fun other hother => rely_set_object (hevolves other hother), ?_⟩
    refine ih (s₁.objects object).memory ?_ ⟨?_, ?_, fun k hk hkready => ?_⟩
    · rw [hself]
      exact hnext
    · rw [hself]
      exact h₁.named
    · rw [hself]
      exact hready
    · rw [ObjectSpace.set_memory, ObjectSpace.set_object_of_ne hk] at hkready ⊢
      exact h₁.elsewhere k hk hkready

/-- The operation has ended. -/
theorem Operating.rest (h : L.Operating pid object name s) (hidle : L.idle pid (s.objects object).memory) :
    L.AtRest pid s := by
  intro k hready
  by_cases hk : k = object
  · rw [hk]
    exact hidle
  · exact h.elsewhere k hk hready

theorem AtRest.operating (h : L.AtRest pid s) (hname : (s.objects object).name = name)
    (hready : L.ready (s.objects object).memory = true) : L.Operating pid object name s :=
  ⟨hname, hready, fun k _ => h k⟩

end

end ObjectLife

end process
