import Shmchan.Endpoint.Lifecycle

open process

namespace shmchan.endpoint

section

variable {Kind Header Ring Channel α : Type} [DecidableEq Kind] {F : Format Kind Header Ring Channel}
  {new : Endpoint Ring Bytes} {mismatch : String → Exception → Prop} {hF : F.Lawful new mismatch} {pid object : Nat}
  {kind : Kind} {name normalized : String} {capacity : Nat} {h : Handle Kind Channel} {layout : Layout Channel}
  {s s' : Objects Header Ring} {fails : Syscall → Bool} {own own' : Executed Header Ring}
  {answer : Answer Kind Channel}

theorem OpenRefused.stable {error : Exception} (hrely : hF.life.Rely pid s s')
    (hrefused : OpenRefused hF fails own kind name s error) : OpenRefused hF fails own kind name s' error := by
  cases hrefused with
  | name hname => exact .name hname
  | shm_open hname hfound => exact .shm_open hname hfound
  | fstat hname hfails => exact .fstat hname hfails
  | mmap hname hfails => exact .mmap hname hfails
  | flock hfails => exact .flock hfails
  | incomplete hname hfound hsize => exact .incomplete hname hfound hsize
  | @abandoned _ object hname hfound hunready hnamed habandoned =>
    exact .abandoned hname hfound hunready (((hrely object).maker habandoned.made).2.trans hnamed)
      ((hrely object).abandoned habandoned)
  | mismatch hname hfound hnamed hkind hserves herror =>
    exact .mismatch hname hfound hnamed hkind (hserves.stable hrely) herror

/-- What a call has found, it has found for good. -/
theorem OpenRefused.later {error : Exception} (hlater : own <+: own')
    (hrefused : OpenRefused hF fails own kind name s error) : OpenRefused hF fails own' kind name s error := by
  have hseen {P : Objects Header Ring × Objects Header Ring → Prop} : (∃ x ∈ own, P x) → ∃ x ∈ own', P x :=
    fun ⟨x, hx, hP⟩ => ⟨x, hlater.subset hx, hP⟩
  cases hrefused with
  | name hname => exact .name hname
  | shm_open hname hfound => exact .shm_open hname (hfound.imp_right (·.later hlater))
  | fstat hname hfails => exact .fstat hname hfails
  | mmap hname hfails => exact .mmap hname hfails
  | flock hfails => exact .flock hfails
  | incomplete hname hfound hsize => exact .incomplete hname (hfound.later hlater) (hseen hsize)
  | abandoned hname hfound hunready hnamed habandoned =>
    exact .abandoned hname (hfound.later hlater) (hseen hunready) hnamed habandoned
  | mismatch hname hfound hnamed hkind hserves herror =>
    exact .mismatch hname (hfound.later hlater) hnamed hkind hserves herror

omit [DecidableEq Kind] in
theorem CreateRefused.later {error : Exception} (hlater : own <+: own')
    (hrefused : CreateRefused F fails own kind name capacity error) :
    CreateRefused F fails own' kind name capacity error := by
  cases hrefused with
  | name hname => exact .name hname
  | capacity hname hlayout => exact .capacity hname hlayout
  | shm_open hname hfound =>
    exact .shm_open hname (hfound.imp_right fun ⟨object, hobject⟩ => ⟨object, hobject.later hlater⟩)
  | ftruncate hname hfails => exact .ftruncate hname hfails
  | mmap hname hfails => exact .mmap hname hfails
  | flock hfails => exact .flock hfails

theorem Truthful.stable (hrely : hF.life.Rely pid s s') (h : Truthful hF fails own s answer) :
    Truthful hF fails own s' answer := by
  cases answer with
  | idle => trivial
  | created kind name capacity result =>
    cases result with
    | ok handle =>
      obtain ⟨hkind, hname, hlayout, hfound, hserves⟩ := h
      exact ⟨hkind, hname, hlayout, hfound, hserves.stable hrely⟩
    | error error => exact h
  | opened kind name result =>
    cases result with
    | ok handle =>
      obtain ⟨hkind, hname, hfound, hserves⟩ := h
      exact ⟨hkind, hname, hfound, hserves.stable hrely⟩
    | error error => exact OpenRefused.stable hrely h
  | unlinked result => trivial
  | called reply => trivial
  | dead => trivial

theorem Truthful.later (hlater : own <+: own') (h : Truthful hF fails own s answer) :
    Truthful hF fails own' s answer := by
  cases answer with
  | idle => trivial
  | created kind name capacity result =>
    cases result with
    | ok handle =>
      obtain ⟨hkind, hname, hlayout, hfound, hserves⟩ := h
      exact ⟨hkind, hname, hlayout, hfound.later hlater, hserves⟩
    | error error => exact CreateRefused.later hlater h
  | opened kind name result =>
    cases result with
    | ok handle =>
      obtain ⟨hkind, hname, hfound, hserves⟩ := h
      exact ⟨hkind, hname, hfound.later hlater, hserves⟩
    | error error => exact OpenRefused.later hlater h
  | unlinked result => trivial
  | called reply => trivial
  | dead => trivial

/-- Nothing that a process does makes an answer untrue. -/
theorem Truthful.keep {post : α → Objects Header Ring → Prop} {p : Prog (Objects Header Ring) α}
    (h : Truthful hF fails own s answer) (hp : Safe hF.life.reliance pid post p s) :
    SafeOwn hF.life.reliance pid (fun own' a s' => post a s' ∧ Truthful hF fails own' s' answer) own p s := by
  have hkept := (hp.records own).keep (A := fun s => Truthful hF fails own s answer) (Nat.succ_ne_self pid)
    (fun _ _ _ hrely _ ht => ht.stable hrely) h
  exact hkept.mono fun _ _ _ ⟨⟨hlater, hpost⟩, ht⟩ => ⟨hpost, ht.later hlater⟩

/-- How a call of `create` or `open` ends, and the parts of it. -/
structure Replied (hF : F.Lawful new mismatch) (pid : Nat) (fails : Syscall → Bool)
    (answer : Except Exception (Handle Kind Channel) → Answer Kind Channel) (own : Executed Header Ring)
    (result : Except Exception (Handle Kind Channel)) (s : Objects Header Ring) : Prop where
  rest : hF.life.AtRest pid s
  truthful : Truthful hF fails own s (answer result)

/-- A call that has mapped an object serves it. -/
theorem Replied.created (hend : Replied hF pid fails (.created kind name capacity) own (.ok h) s) : Serves hF h s :=
  hend.truthful.2.2.2.2

theorem Replied.opened (hend : Replied hF pid fails (.opened kind name) own (.ok h) s) : Serves hF h s :=
  hend.truthful.2.2.2

theorem create_locked_own (hname : managed.normalize_name name = .ok normalized)
    (hlayout : F.layout kind normalized capacity = .ok layout) (hfree : ObjectLife.Finds own normalized none)
    (hmaking : hF.life.Making pid object normalized 0 (F.zeroed (F.capacity layout.channel)) s) :
    SafeOwn hF.life.reliance pid (Replied hF pid fails (.created kind name capacity)) own
      (F.create_locked pid object kind normalized layout fails) s := by
  have haccepted : F.Accepted kind normalized layout := ⟨capacity, hlayout⟩
  unfold Format.create_locked
  split
  next hfails => exact ⟨hmaking.rest, CreateRefused.flock (.inl hfails)⟩
  refine (hmaking.lock_exclusive.records own).bind fun own₁ _ s₁ hpair => ?_
  obtain ⟨hlater₁, hempty⟩ := hpair
  split
  next hfails => exact ⟨hempty.rest, CreateRefused.ftruncate hname hfails⟩
  refine ((hempty.resize layout.mapping_size).records own₁).bind fun own₂ _ s₂ hpair => ?_
  obtain ⟨hlater₂, hsized⟩ := hpair
  split
  next hfails => exact ⟨hsized.rest, CreateRefused.mmap hname hfails⟩
  have hunready (update : Mapping Header Ring → Mapping Header Ring) (hupdate : update ∈ F.stores kind layout)
      (m : Mapping Header Ring) (hm : hF.life.ready m = false) : hF.life.ready (update m) = false :=
    unready_iff.mpr (hF.stores_unready kind layout update hupdate m (unready_iff.mp hm))
  refine ((hsized.stores hunready).records own₂).bind fun own₃ _ s₃ hpair => ?_
  obtain ⟨hlater₃, hstored⟩ := hpair
  have hborn : hF.life.Born normalized layout.mapping_size (F.made kind layout) :=
    ⟨kind, layout, haccepted, rfl, rfl⟩
  refine ((hstored.finish (ready_iff.mpr rfl) hborn).records own₃).bind fun own₄ _ s₄ hpair => ?_
  obtain ⟨hlater₄, hgrown, hrest⟩ := hpair
  have hserves : Serves hF ⟨object, kind, normalized, layout.mapping_size, layout.channel⟩ s₄ :=
    ⟨haccepted, hgrown⟩
  split
  next hfails => exact ⟨hrest, CreateRefused.flock (.inr hfails)⟩
  have hfree₄ := hfree.later (((hlater₁.trans hlater₂).trans hlater₃).trans hlater₄)
  have htruthful : Truthful hF fails own₄ s₄ (.created kind name capacity
      (.ok ⟨object, kind, normalized, layout.mapping_size, layout.channel⟩)) :=
    ⟨rfl, hname, hlayout, hfree₄, hserves⟩
  refine (htruthful.keep (ObjectLife.light_safe (ObjectLife.light_give_up_lock pid object) hrest)).bind
    fun own₅ _ s₅ hend => ?_
  exact ⟨hend.1.2, hend.2⟩

/-- The catch clause and the descriptor. -/
theorem light_end_create (result : Except Exception (Handle Kind Channel)) :
    (Format.end_create pid object name fails result : Prog (Objects Header Ring) _).Always (hF.life.Light pid)
      fun result' => result' = result := by
  have hclose : (give_up_lock pid object >>= fun _ => Prog.ret result : Prog (Objects Header Ring) _).Always
      (hF.life.Light pid) fun result' => result' = result :=
    (ObjectLife.light_give_up_lock pid object).bind fun _ _ => rfl
  unfold Format.end_create
  split
  · exact (ObjectLife.light_remove_name pid name).bind fun _ _ => hclose
  · exact hclose

theorem create_own (hrest : hF.life.AtRest pid s) :
    SafeOwn hF.life.reliance pid (Replied hF pid fails (.created kind name capacity)) []
      (F.create pid kind name capacity fails) s := by
  unfold Format.create
  split
  next error hname => exact ⟨hrest, CreateRefused.name hname⟩
  next normalized hname =>
  split
  next error hlayout => exact ⟨hrest, CreateRefused.capacity hname hlayout⟩
  next layout hlayout =>
  split
  next hfails => exact ⟨hrest, CreateRefused.shm_open hname (.inl hfails)⟩
  have hzeroed : hF.life.ready (F.zeroed (F.capacity layout.channel)) = false :=
    unready_iff.mpr (hF.zeroed_unready _)
  refine (ObjectLife.create_exclusive_own hzeroed normalized hrest).bind
    fun own₁ found s₁ hfound => ?_
  obtain ⟨hrest₁, htaken, hmaking⟩ := hfound
  cases found with
  | none => exact ⟨hrest₁, CreateRefused.shm_open hname (.inr (htaken rfl))⟩
  | some object =>
  obtain ⟨hfree, hmaking⟩ := hmaking object rfl
  refine (create_locked_own hname hlayout hfree hmaking).bind fun own₂ result s₂ hend => ?_
  have hlight : Safe hF.life.reliance pid (fun result' s' => result' = result ∧ hF.life.AtRest pid s')
      (Format.end_create pid object normalized fails result) s₂ :=
    ObjectLife.light_safe (light_end_create result) hend.rest
  refine (hend.truthful.keep hlight).mono ?_
  rintro own₃ _ s₃ ⟨⟨rfl, hrest₃⟩, htruthful⟩
  exact ⟨hrest₃, htruthful⟩

theorem open_locked_own (hname : managed.normalize_name name = .ok normalized)
    (hfinds : ObjectLife.Finds own normalized (some object)) (hfound : hF.life.Found pid object normalized s) :
    SafeOwn hF.life.reliance pid (Replied hF pid fails (.opened kind name)) own
      (F.open_locked pid object kind normalized fails) s := by
  unfold Format.open_locked
  split
  next hfails => exact ⟨hfound.rest, OpenRefused.flock (.inl hfails)⟩
  refine (hfound.lock_shared.records own).bind fun own₁ _ s₁ hpair => ?_
  obtain ⟨hlater₁, h₁⟩ := hpair
  have hfinds₁ := hfinds.later hlater₁
  split
  next hfails => exact ⟨h₁.rest, OpenRefused.fstat hname hfails⟩
  refine ObjectLife.load_own fun s₂ hrely₂ hinv₂ => ?_
  have h₂ := h₁.stable hrely₂
  have hfinds₂ := hfinds₁.later (List.prefix_append own₁ [(s₂, s₂)])
  split
  next hsize =>
    exact ⟨h₂.rest, OpenRefused.incomplete hname hfinds₂ ⟨(s₂, s₂), List.mem_concat_self, hsize⟩⟩
  next hsize =>
  split
  next hfails => exact ⟨h₂.rest, OpenRefused.mmap hname hfails⟩
  refine ObjectLife.load_object_own fun s₃ hrely₃ hinv₃ => ?_
  have h₃ := h₂.stable hrely₃
  have hfinds₃ := hfinds₂.later (List.prefix_append _ [(s₃, s₃)])
  have hsized : (s₂.objects object).size ≠ 0 := by
    have := hF.sizeof_header
    omega
  have hsame := (hrely₃ object).sized hsized
  split
  next hunready =>
    have habandoned := h₃.abandoned hinv₃ (by rw [hsame]; exact hsized) (unready_iff.mpr hunready)
    exact ⟨h₃.rest, OpenRefused.abandoned hname hfinds₃ ⟨(s₃, s₃), List.mem_concat_self, hunready⟩ h₃.named
      habandoned⟩
  next hready =>
  have hready' : hF.life.ready (s₃.objects object).memory = true := ready_iff.mpr (not_not.mp hready)
  refine ObjectLife.load_object_own fun s₄ hrely₄ hinv₄ => ?_
  have h₄ := h₃.stable hrely₄
  have hfinds₄ := hfinds₃.later (List.prefix_append _ [(s₄, s₄)])
  have hready₄ := (hrely₄ object).ready hready'
  have hsame₄ := ((hrely₄ object).whole hready').2.1
  obtain ⟨kind', layout, haccepted, hheader, hmapped, hserves⟩ :=
    serves_of_whole hF rfl hready₄ ((hinv₄.sound object).whole hready₄)
  rw [h₄.named, hmapped] at hserves
  rw [h₄.named] at haccepted
  rw [hheader, ← hsame, ← hsame₄, hmapped]
  by_cases hkind : kind = kind'
  · subst hkind
    rw [hF.validate_made haccepted]
    simp only
    split
    next hfails => exact ⟨h₄.rest, OpenRefused.flock (.inr hfails)⟩
    have htruthful : Truthful hF fails (own₁ ++ [(s₂, s₂)] ++ [(s₃, s₃)] ++ [(s₄, s₄)]) s₄
        (.opened kind name (.ok ⟨object, kind, normalized, layout.mapping_size, layout.channel⟩)) :=
      ⟨rfl, hname, hfinds₄, hserves⟩
    refine (htruthful.keep (ObjectLife.light_safe (ObjectLife.light_give_up_lock pid object) h₄.rest)).bind
      fun own₅ _ s₅ hend => ?_
    exact ⟨hend.1.2, hend.2⟩
  · obtain ⟨error, hrefused, herror⟩ := hF.validate_other haccepted hkind
    rw [hrefused]
    exact ⟨h₄.rest, OpenRefused.mismatch hname hfinds₄ rfl hkind hserves herror⟩

theorem open_existing_own (hrest : hF.life.AtRest pid s) :
    SafeOwn hF.life.reliance pid (Replied hF pid fails (.opened kind name)) []
      (F.open_existing pid kind name fails) s := by
  unfold Format.open_existing
  split
  next error hname => exact ⟨hrest, OpenRefused.name hname⟩
  next normalized hname =>
  split
  next hfails => exact ⟨hrest, OpenRefused.shm_open hname (.inl hfails)⟩
  refine ObjectLife.load_own fun s₁ hrely₁ hinv₁ => ?_
  have hrest₁ := hrest.stable hrely₁
  split
  next hnone => exact ⟨hrest₁, OpenRefused.shm_open hname (.inr ⟨_, rfl, hnone⟩)⟩
  next object hlinked =>
  obtain ⟨hmade, hnamed⟩ := hinv₁.linked normalized object hlinked
  refine (open_locked_own hname ⟨_, rfl, hlinked⟩ ⟨hmade, hnamed, hrest₁⟩).bind fun own₂ result s₂ hend => ?_
  refine (hend.truthful.keep (ObjectLife.light_safe (ObjectLife.light_give_up_lock pid object) hend.rest)).bind
    fun own₃ _ s₃ h₃ => ?_
  exact ⟨h₃.1.2, h₃.2⟩

theorem light_unlink (pid : Nat) (name : String) (fails : Syscall → Bool) :
    (Format.unlink name fails : Prog (Objects Header Ring) _).Always (hF.life.Light pid) fun _ => True := by
  unfold Format.unlink
  split
  · trivial
  split
  · trivial
  · exact (ObjectLife.light_remove_name pid _).bind fun _ _ => trivial

end

end shmchan.endpoint
