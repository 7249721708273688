import Shmchan.Process.Objects
import Shmchan.Process.Own

namespace process

/-- The life of shared objects: the maker of an object writes to it until it is
    ready, which leaves what `Born` says of its name and size. From then on only
    operations change it. A process is idle in an object that it does not
    operate on. -/
structure ObjectLife (M : Type) where
  ready : M → Bool
  Born : String → Nat → M → Prop
  Operation : String → Nat → M → M → Prop
  idle : Nat → M → Prop
  keeps : ∀ {name pid m m'}, Operation name pid m m' → ready m = true → ready m' = true
  born_idle : ∀ {name size m}, Born name size m → ∀ pid, idle pid m
  others_idle : ∀ {name other pid m m'}, Operation name other m m' → other ≠ pid → idle pid m → idle pid m'

namespace ObjectLife

variable {M α β : Type}

/-- What the operations of the processes in `who` make of contents. -/
def Grows (L : ObjectLife M) (name : String) (who : Nat → Prop) : M → M → Prop :=
  Relation.ReflTransGen fun m m' => ∃ pid, who pid ∧ L.Operation name pid m m'

/-- The object has been made to its end, and only operated on since. -/
def Whole (L : ObjectLife M) (o : SharedObject M) : Prop :=
  ∃ m, L.Born o.name o.size m ∧ L.Grows o.name (fun _ => True) m o.memory

/-- An object whose maker has given up its lock too early. -/
structure Abandoned (L : ObjectLife M) (o : SharedObject M) : Prop where
  made : o.maker ≠ none
  sized : o.size ≠ 0
  unready : L.ready o.memory = false
  unlocked : o.exclusive ≠ o.maker

structure Sound (L : ObjectLife M) (o : SharedObject M) : Prop where
  sized : o.size ≠ 0 → o.maker ≠ none
  owned : L.ready o.memory = true → o.maker ≠ none
  locked : o.exclusive ≠ none → o.maker ≠ none
  shared : o.shared ≠ [] → o.maker ≠ none
  alone : o.exclusive ≠ none → o.shared = []
  whole : L.ready o.memory = true → L.Whole o

/-- What becomes of an object while `pid` does not act. -/
structure Evolves (L : ObjectLife M) (pid : Nat) (o o' : SharedObject M) : Prop where
  maker : o.maker ≠ none → o'.maker = o.maker ∧ o'.name = o.name
  sized : o.size ≠ 0 → o'.size = o.size
  exclusive : o.exclusive = some pid → o'.exclusive = some pid
  shared : pid ∈ o.shared → pid ∈ o'.shared
  making : o.maker = some pid → L.ready o.memory = false → o'.memory = o.memory ∧ o'.size = o.size
  abandoned : L.Abandoned o → L.Abandoned o'
  whole : L.ready o.memory = true → o'.name = o.name ∧ o'.size = o.size ∧
    L.Grows o.name (· ≠ pid) o.memory o'.memory
  born : L.ready o.memory = false → L.ready o'.memory = true →
    ∃ m, L.Born o'.name o'.size m ∧ L.Grows o'.name (· ≠ pid) m o'.memory

structure Inv (L : ObjectLife M) (s : ObjectSpace M) : Prop where
  sound : ∀ k, L.Sound (s.objects k)
  made : ∀ k, (s.objects k).maker ≠ none → k < s.next
  linked : ∀ name k, s.linked name = some k → (s.objects k).maker ≠ none ∧ (s.objects k).name = name

def Rely (L : ObjectLife M) (pid : Nat) (s s' : ObjectSpace M) : Prop :=
  ∀ k, L.Evolves pid (s.objects k) (s'.objects k)

def reliance (L : ObjectLife M) : Reliance (ObjectSpace M) Nat := ⟨L.Inv, L.Rely⟩

/-- The process operates on no object. -/
def AtRest (L : ObjectLife M) (pid : Nat) (s : ObjectSpace M) : Prop :=
  ∀ k, L.ready (s.objects k).memory = true → L.idle pid (s.objects k).memory

/-- What a program has found under a name: it looks the name up in its first
    action. -/
def Finds (own : List (ObjectSpace M × ObjectSpace M)) (name : String) (found : Option Nat) : Prop :=
  ∃ x, own.head? = some x ∧ x.1.linked name = found

/-- The process has found an object under a name. It operates on no object. -/
structure Found (L : ObjectLife M) (pid object : Nat) (name : String) (s : ObjectSpace M) : Prop where
  made : (s.objects object).maker ≠ none
  named : (s.objects object).name = name
  rest : L.AtRest pid s

/-- It shares the lock of the object. -/
structure Opened (L : ObjectLife M) (pid object : Nat) (name : String) (s : ObjectSpace M) : Prop
    extends L.Found pid object name s where
  shared : pid ∈ (s.objects object).shared

section

variable {L : ObjectLife M} {pid other object k size : Nat} {name : String} {m m' m'' : M}
  {o o' o'' : SharedObject M} {s s' s'' : ObjectSpace M} {who who' : Nat → Prop}

theorem Grows.mono (h : L.Grows name who m m') (hwho : ∀ pid, who pid → who' pid) : L.Grows name who' m m' := by
  refine Relation.ReflTransGen.mono ?_ _ _ h
  rintro m m' ⟨pid, hpid, hstep⟩
  exact ⟨pid, hwho pid hpid, hstep⟩

theorem Grows.ready (h : L.Grows name who m m') (hready : L.ready m = true) : L.ready m' = true := by
  induction h with
  | refl => exact hready
  | tail _ hstep ih =>
    obtain ⟨_, _, hstep⟩ := hstep
    exact L.keeps hstep ih

/-- What the others do to an object does not begin an operation of the process. -/
theorem Grows.idle (h : L.Grows name (· ≠ pid) m m') (hidle : L.idle pid m) : L.idle pid m' := by
  induction h with
  | refl => exact hidle
  | tail _ hstep ih =>
    obtain ⟨other, hother, hstep⟩ := hstep
    exact L.others_idle hstep hother ih

theorem Evolves.refl (L : ObjectLife M) (pid : Nat) (o : SharedObject M) : L.Evolves pid o o where
  maker _ := ⟨rfl, rfl⟩
  sized _ := rfl
  exclusive h := h
  shared h := h
  making _ _ := ⟨rfl, rfl⟩
  abandoned h := h
  whole _ := ⟨rfl, rfl, .refl⟩
  born hunready hready := by
    rw [hunready] at hready
    cases hready

theorem Evolves.trans (h : L.Evolves pid o o') (h' : L.Evolves pid o' o'') : L.Evolves pid o o'' where
  maker hmaker := by
    obtain ⟨hsame, hname⟩ := h.maker hmaker
    rw [← hsame] at hmaker
    obtain ⟨hsame', hname'⟩ := h'.maker hmaker
    exact ⟨hsame'.trans hsame, hname'.trans hname⟩
  sized hsized := by
    have hsame := h.sized hsized
    rw [← hsame] at hsized
    exact (h'.sized hsized).trans hsame
  exclusive hexclusive := h'.exclusive (h.exclusive hexclusive)
  shared hshared := h'.shared (h.shared hshared)
  making hmaker hunready := by
    obtain ⟨hmemory, hsize⟩ := h.making hmaker hunready
    have hmaker' : o'.maker = some pid := by
      rw [(h.maker (by rw [hmaker]; exact Option.some_ne_none pid)).1, hmaker]
    rw [← hmemory] at hunready
    obtain ⟨hmemory', hsize'⟩ := h'.making hmaker' hunready
    exact ⟨hmemory'.trans hmemory, hsize'.trans hsize⟩
  abandoned habandoned := h'.abandoned (h.abandoned habandoned)
  whole hready := by
    obtain ⟨hname, hsize, hgrows⟩ := h.whole hready
    obtain ⟨hname', hsize', hgrows'⟩ := h'.whole (hgrows.ready hready)
    rw [hname] at hgrows'
    exact ⟨hname'.trans hname, hsize'.trans hsize, hgrows.trans hgrows'⟩
  born hunready hready := by
    rcases hmid : L.ready o'.memory with _ | _
    · exact h'.born hmid hready
    · obtain ⟨m, hborn, hgrows⟩ := h.born hunready hmid
      obtain ⟨hname, hsize, hgrows'⟩ := h'.whole hmid
      rw [hname, hsize]
      exact ⟨m, hborn, hgrows.trans hgrows'⟩

/-- A whole object stays whole. -/
theorem Evolves.ready (h : L.Evolves pid o o') (hready : L.ready o.memory = true) :
    L.ready o'.memory = true :=
  (h.whole hready).2.2.ready hready

/-- An object that nobody has created holds nothing that a process relies on. -/
theorem evolves_of_unmade (hsound : L.Sound o) (hunmade : o.maker = none) (hunready : L.ready o'.memory = false) :
    L.Evolves pid o o' where
  maker hmade := absurd hunmade hmade
  sized hsized := absurd hunmade (hsound.sized hsized)
  exclusive hlocked := absurd hunmade (hsound.locked (by rw [hlocked]; exact Option.some_ne_none pid))
  shared hshared := absurd hunmade (hsound.shared (List.ne_nil_of_mem hshared))
  making hmaker _ := absurd (hunmade.symm.trans hmaker) (Option.some_ne_none pid).symm
  abandoned habandoned := absurd hunmade habandoned.made
  whole hready := absurd hunmade (hsound.owned hready)
  born _ hready := by
    rw [hunready] at hready
    cases hready

theorem AtRest.stable (hrely : L.Rely pid s s') (h : L.AtRest pid s) : L.AtRest pid s' := by
  intro k hready'
  rcases hready : L.ready (s.objects k).memory with _ | _
  · obtain ⟨m, hborn, hgrows⟩ := (hrely k).born hready hready'
    exact hgrows.idle (L.born_idle hborn pid)
  · exact ((hrely k).whole hready).2.2.idle (h k hready)

/-- A step on one object that leaves its maker and its name. -/
theorem Inv.set_object (hinv : L.Inv s) {f : SharedObject M → SharedObject M}
    (hmaker : (f (s.objects object)).maker = (s.objects object).maker)
    (hname : (f (s.objects object)).name = (s.objects object).name)
    (hsound : L.Sound (f (s.objects object))) : L.Inv (s.set_object object f) := by
  have hsame (k : Nat) : ((s.set_object object f).objects k).maker = (s.objects k).maker ∧
      ((s.set_object object f).objects k).name = (s.objects k).name := by
    by_cases hk : k = object
    · rw [hk, ObjectSpace.set_object_self]
      exact ⟨hmaker, hname⟩
    · rw [ObjectSpace.set_object_of_ne hk]
      exact ⟨rfl, rfl⟩
  refine ⟨fun k => ?_, fun k hk => ?_, fun name k hk => ?_⟩
  · by_cases hk : k = object
    · rw [hk, ObjectSpace.set_object_self]
      exact hsound
    · rw [ObjectSpace.set_object_of_ne hk]
      exact hinv.sound k
  · rw [(hsame k).1] at hk
    exact hinv.made k hk
  · rw [(hsame k).1, (hsame k).2]
    exact hinv.linked name k hk

theorem rely_set_object {f : SharedObject M → SharedObject M}
    (hevolves : L.Evolves pid (s.objects object) (f (s.objects object))) :
    L.Rely pid s (s.set_object object f) := by
  intro k
  by_cases hk : k = object
  · rw [hk, ObjectSpace.set_object_self]
    exact hevolves
  · rw [ObjectSpace.set_object_of_ne hk]
    exact Evolves.refl L pid _

theorem AtRest.set_object (h : L.AtRest pid s) {f : SharedObject M → SharedObject M}
    (hidle : L.ready (f (s.objects object)).memory = true → L.idle pid (f (s.objects object)).memory) :
    L.AtRest pid (s.set_object object f) := by
  intro k hready
  by_cases hk : k = object
  · rw [hk, ObjectSpace.set_object_self] at hready ⊢
    exact hidle hready
  · rw [ObjectSpace.set_object_of_ne hk] at hready ⊢
    exact h k hready

/-- A step that takes a lock or gives it up: it leaves everything else of the
    object alone. -/
structure Relocks (L : ObjectLife M) (pid : Nat) (o o' : SharedObject M) : Prop where
  size : o'.size = o.size
  memory : o'.memory = o.memory
  maker : o'.maker = o.maker
  name : o'.name = o.name
  locked : o'.exclusive ≠ none ∨ o'.shared ≠ [] → o'.maker ≠ none
  alone : o'.exclusive ≠ none → o'.shared = []
  exclusive : ∀ other, other ≠ pid → o.exclusive = some other → o'.exclusive = some other
  shared : ∀ other, other ≠ pid → other ∈ o.shared → other ∈ o'.shared
  abandoned : L.Abandoned o → o'.exclusive ≠ o'.maker

theorem Relocks.sound (h : L.Relocks pid o o') (hsound : L.Sound o) : L.Sound o' := by
  obtain ⟨hsized, howned, _, _, _, hwhole⟩ := hsound
  refine ⟨?_, ?_, fun hlocked => h.locked (.inl hlocked), fun hshared => h.locked (.inr hshared), h.alone, ?_⟩
  · rw [h.size, h.maker]
    exact hsized
  · rw [h.memory, h.maker]
    exact howned
  · rw [Whole, h.memory, h.size, h.name]
    exact hwhole

theorem Relocks.abandons (h : L.Relocks pid o o') (ho : L.Abandoned o) : L.Abandoned o' := by
  refine ⟨?_, ?_, ?_, h.abandoned ho⟩
  · rw [h.maker]
    exact ho.made
  · rw [h.size]
    exact ho.sized
  · rw [h.memory]
    exact ho.unready

theorem Relocks.evolves (h : L.Relocks pid o o') (hother : other ≠ pid) : L.Evolves other o o' where
  maker _ := ⟨h.maker, h.name⟩
  sized _ := h.size
  exclusive := h.exclusive other hother
  shared := h.shared other hother
  making _ _ := ⟨h.memory, h.size⟩
  abandoned := h.abandons
  whole _ := by
    rw [h.memory]
    exact ⟨h.name, h.size, .refl⟩
  born hunready hready := by
    rw [h.memory, hunready] at hready
    cases hready

theorem relocks_unlock (hsound : L.Sound o) (pid : Nat) : L.Relocks pid o (o.unlock pid) where
  size := rfl
  memory := rfl
  maker := rfl
  name := rfl
  locked hlocked := by
    rcases hlocked with hexclusive | hshared
    · refine hsound.locked fun hnone => hexclusive ?_
      simp only [SharedObject.unlock, hnone, reduceCtorEq, if_false]
    · refine hsound.shared fun hnone => hshared ?_
      simp only [SharedObject.unlock, hnone, List.filter_nil]
  alone hexclusive := by
    have hempty := hsound.alone fun hnone => hexclusive (by
      simp only [SharedObject.unlock, hnone, reduceCtorEq, if_false])
    simp only [SharedObject.unlock, hempty, List.filter_nil]
  exclusive other hother hexclusive := by
    have hne : ¬ some other = some pid := fun h => hother (Option.some.inj h)
    simp only [SharedObject.unlock, hexclusive, hne, if_false]
  shared other hother hshared := List.mem_filter.mpr ⟨hshared, decide_eq_true hother⟩
  abandoned ho := by
    simp only [SharedObject.unlock]
    split
    · exact ho.made.symm
    · exact ho.unlocked

/-- A step of the process that changes locks and names only. -/
structure Light (L : ObjectLife M) (pid : Nat) (s s' : ObjectSpace M) : Prop where
  memory : ∀ k, (s'.objects k).memory = (s.objects k).memory
  inv : L.Inv s → L.Inv s'
  rely : L.Inv s → ∀ other, other ≠ pid → L.Rely other s s'

theorem Light.refl (L : ObjectLife M) (pid : Nat) (s : ObjectSpace M) : L.Light pid s s :=
  ⟨fun _ => rfl, fun h => h, fun _ other _ k => Evolves.refl L other (s.objects k)⟩

theorem Light.at_rest (h : L.Light pid s s') (hrest : L.AtRest other s) : L.AtRest other s' := by
  intro k hready
  rw [h.memory] at hready ⊢
  exact hrest k hready

theorem light_give_up_lock (pid object : Nat) :
    (give_up_lock pid object : Prog (ObjectSpace M) Unit).Always (L.Light pid) fun _ => True := by
  refine Prog.always_store fun s => ⟨fun k => ?_, fun hinv => ?_, fun hinv other hother => ?_⟩
  · by_cases hk : k = object
    · rw [hk, ObjectSpace.set_object_self]
      rfl
    · rw [ObjectSpace.set_object_of_ne hk]
  · exact hinv.set_object rfl rfl ((relocks_unlock (hinv.sound object) pid).sound (hinv.sound object))
  · exact rely_set_object ((relocks_unlock (hinv.sound object) pid).evolves hother)

theorem light_remove_name (pid : Nat) (name : String) :
    (remove_name name : Prog (ObjectSpace M) Bool).Always (L.Light pid) fun _ => True := by
  refine ⟨fun s => ⟨fun _ => rfl, fun hinv => ⟨hinv.sound, hinv.made, fun other k hk => ?_⟩,
    fun _ other _ k => Evolves.refl L other (s.objects k)⟩, fun _ => trivial⟩
  by_cases hname : other = name
  · simp only [hname, Function.update_self, reduceCtorEq] at hk
  · simp only [Function.update_of_ne hname] at hk
    exact hinv.linked other k hk

/-- The death of a process frees its locks, and no more. -/
theorem Inv.on_death (hinv : L.Inv s) (pid : Nat) :
    L.Inv (s.on_death pid) ∧ ∀ other, other ≠ pid → L.Rely other s (s.on_death pid) := by
  have hrelocks (k : Nat) := relocks_unlock (hinv.sound k) pid
  exact ⟨⟨fun k => (hrelocks k).sound (hinv.sound k), hinv.made, hinv.linked⟩,
    fun other hother k => (hrelocks k).evolves hother⟩

/-- A program that changes locks and names only. -/
theorem light_safe {P : α → Prop} {p : Prog (ObjectSpace M) α} (hp : p.Always (L.Light pid) P)
    (h : L.AtRest pid s) : Safe L.reliance pid (fun a s' => P a ∧ L.AtRest pid s') p s := by
  induction p generalizing s with
  | ret a => exact ⟨hp, h⟩
  | act enabled update next ih =>
    intro s' hrely hinv _
    have hstep := hp.1 s'
    exact ⟨hstep.inv hinv, hstep.rely hinv, ih s' (hp.2 s') (hstep.at_rest (AtRest.stable hrely h))⟩

theorem load_own {own : List (ObjectSpace M × ObjectSpace M)}
    {post : List (ObjectSpace M × ObjectSpace M) → β → ObjectSpace M → Prop} {f : ObjectSpace M → α}
    {next : α → Prog (ObjectSpace M) β}
    (hnext : ∀ s', L.Rely pid s s' → L.Inv s' →
      SafeOwn L.reliance pid post (own ++ [(s', s')]) (next (f s')) s') :
    SafeOwn L.reliance pid post own (.load f >>= next) s :=
  SafeOwn.observe (fun other s k => Evolves.refl L other (s.objects k)) (fun _ => rfl) hnext

theorem load_object_own {own : List (ObjectSpace M × ObjectSpace M)}
    {post : List (ObjectSpace M × ObjectSpace M) → β → ObjectSpace M → Prop} {f : M → α}
    {next : α → Prog (ObjectSpace M) β}
    (hnext : ∀ s', L.Rely pid s s' → L.Inv s' →
      SafeOwn L.reliance pid post (own ++ [(s', s')]) (next (f (s'.objects object).memory)) s') :
    SafeOwn L.reliance pid post own (on_object object (.load f) >>= next) s := by
  have hsame (s : ObjectSpace M) : s.set_memory object id = s := by
    unfold ObjectSpace.set_memory ObjectSpace.set_object
    simp only [id, Function.update_eq_self]
  exact SafeOwn.observe (fun other s k => Evolves.refl L other (s.objects k)) hsame hnext

theorem Finds.later {own own' : List (ObjectSpace M × ObjectSpace M)} {found : Option Nat}
    (h : Finds own name found) (hlater : own <+: own') : Finds own' name found := by
  obtain ⟨x, hfirst, hfound⟩ := h
  obtain ⟨rest, rfl⟩ := hlater
  exact ⟨x, by rw [List.head?_append, hfirst]; rfl, hfound⟩

theorem Found.stable (hrely : L.Rely pid s s') (h : L.Found pid object name s) : L.Found pid object name s' := by
  obtain ⟨hmaker, hname⟩ := (hrely object).maker h.made
  refine ⟨?_, hname.trans h.named, h.rest.stable hrely⟩
  rw [hmaker]
  exact h.made

theorem Opened.stable (hrely : L.Rely pid s s') (h : L.Opened pid object name s) : L.Opened pid object name s' :=
  ⟨h.toFound.stable hrely, (hrely object).shared h.shared⟩

theorem Found.lock_shared (h : L.Found pid object name s) :
    Safe L.reliance pid (fun _ s' => L.Opened pid object name s') (lock_shared pid object) s := by
  intro s₁ hrely hinv henabled
  have h₁ := h.stable hrely
  have hfree : (s₁.objects object).exclusive = none := Option.isNone_iff_eq_none.mp henabled
  have hrelocks : L.Relocks pid (s₁.objects object)
      { s₁.objects object with shared := pid :: (s₁.objects object).shared } :=
    { size := rfl
      memory := rfl
      maker := rfl
      name := rfl
      locked := fun _ => h₁.made
      alone := fun hlocked => absurd hfree hlocked
      exclusive := fun _ _ hlocked => hlocked
      shared := fun _ _ hshared => List.mem_cons_of_mem _ hshared
      abandoned := fun habandoned => habandoned.unlocked }
  refine ⟨hinv.set_object rfl rfl (hrelocks.sound (hinv.sound object)),
    fun other hother => rely_set_object (hrelocks.evolves hother), ⟨⟨?_, ?_, ?_⟩, ?_⟩⟩
  · rw [ObjectSpace.set_object_self]
    exact h₁.made
  · rw [ObjectSpace.set_object_self]
    exact h₁.named
  · exact h₁.rest.set_object fun hready => h₁.rest object hready
  · rw [ObjectSpace.set_object_self]
    exact List.mem_cons_self

/-- Under a shared lock, an object with a size that is not ready is abandoned. -/
theorem Opened.abandoned (hinv : L.Inv s) (h : L.Opened pid object name s) (hsized : (s.objects object).size ≠ 0)
    (hunready : L.ready (s.objects object).memory = false) : L.Abandoned (s.objects object) := by
  refine ⟨h.made, hsized, hunready, fun hmaker => ?_⟩
  have hshared := h.shared
  rw [(hinv.sound object).alone (by rw [hmaker]; exact h.made)] at hshared
  exact List.not_mem_nil hshared

end

end ObjectLife

end process
