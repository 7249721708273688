import Shmchan.Endpoint.Senders
import Shmchan.Process.Within

open process

namespace shmchan.endpoint

/-- What a process may rely on about an epoch word from the others. -/
structure EventRely (pid : Nat) (e e' : Event) : Prop where
  bumps : e.bumps ≤ e'.bumps
  pending : e'.pending pid = e.pending pid
  waiters : pid ∈ e'.waiters → pid ∈ e.waiters
  retry : pid ∉ e.waiters → e'.retry pid = e.retry pid
  kept : e'.bumps = e.bumps → ∀ q all, e.pending q = .before all → e'.pending q = .before all

/-- A process is not queued, owes the given wake-up, and is so far with its
    next try. -/
structure Event.Own (pid : Nat) (pending : Pending) (retry : Retry) (e : Event) : Prop where
  waiters : pid ∉ e.waiters
  pending : e.pending pid = pending
  retry : e.retry pid = retry

/-- The wake-up of all waiters is owed, and the epoch not incremented for it. -/
def Event.Owed (e : Event) : Prop := ∃ q, e.pending q = .before true

/-- The wake-up of all waiters is owed. -/
def Event.Coming (e : Event) : Prop := ∃ q, e.pending q = .before true ∨ e.pending q = .after true

/-- What the processes on an epoch word wait for. Each of `items` is worth the
    wake-up of one of them; a process that has loaded the position `p` and goes
    on from there will look at the items when `looks p` holds. `room` is what
    one process waits for, and is worth the wake-up of all. -/
structure Watch (Ring Message : Type) where
  items : Ring → Log Message → Nat → Prop
  looks : Ring → Log Message → Nat → Prop
  room : Nat → Ring → Log Message → Prop

section

variable {Ring Message : Type}

/-- Closed for the waiters of the word. -/
def Endpoint.Shut (word : Word) (s : Endpoint Ring Message) : Prop :=
  match word with
  | .readable => s.sender_state = channel_closed_bit
  | .writable => s.sender_state &&& channel_closed_bit ≠ 0

def Watch.Item (W : Watch Ring Message) (s : Endpoint Ring Message) (i : Nat) : Prop := W.items s.ring s.log i

/-- The retry of a process that will look at the items. -/
def Watch.Trying (W : Watch Ring Message) (s : Endpoint Ring Message) : Retry → Prop
  | .none => False
  | .awaited => True
  | .looking position => W.looks s.ring s.log position

/-- A process that owes a wake-up, or has been woken and will look. -/
def Watch.Bearer (W : Watch Ring Message) (word : Word) (s : Endpoint Ring Message) (q : Nat) : Prop :=
  (s.event word).pending q ≠ .none ∨ W.Trying s ((s.event word).retry q)

/-- For each item there is a bearer of its own. -/
def Watch.Served (W : Watch Ring Message) (word : Word) (s : Endpoint Ring Message) : Prop :=
  ∃ f : Nat → Nat, Set.InjOn f {i | W.Item s i} ∧ ∀ i, W.Item s i → W.Bearer word s (f i)

/-- For each item a wake-up of its own is owed, and the epoch not incremented
    for it. -/
def Watch.Covered (W : Watch Ring Message) (word : Word) (s : Endpoint Ring Message) : Prop :=
  ∃ f : Nat → Nat, Set.InjOn f {i | W.Item s i} ∧
    ∀ i, W.Item s i → ∃ all, (s.event word).pending (f i) = .before all

/-- No process sleeps on the word while there is something for it, unless a
    wake-up is on its way, or a woken process will look. -/
structure Watched (W : Watch Ring Message) (word : Word) (s : Endpoint Ring Message) : Prop where
  nodup : (s.event word).waiters.Nodup
  quiet : ∀ w ∈ (s.event word).waiters, (s.event word).pending w = .none ∧ (s.event word).retry w = .none
  served : (s.event word).waiters ≠ [] → ¬ s.Shut word → W.Served word s
  called : ∀ w ∈ (s.event word).waiters, W.room w s.ring s.log ∨ s.Shut word → (s.event word).Coming

/-- What a process may rely on about an epoch word and what it waits for there. -/
structure WatchRely (W : Watch Ring Message) (word : Word) (pid : Nat) (s s' : Endpoint Ring Message) : Prop
    extends EventRely pid (s.event word) (s'.event word) where
  covered : (s'.event word).bumps = (s.event word).bumps → W.Covered word s → W.Covered word s'
  room : (s'.event word).bumps = (s.event word).bumps → W.room pid s'.ring s'.log →
    W.room pid s.ring s.log ∨ (s'.event word).Owed
  shut : (s'.event word).bumps = (s.event word).bumps → s'.Shut word → s.Shut word ∨ (s'.event word).Owed

/-- A step of a process that keeps what concerns the waiters of a word. -/
def WatchStep (W : Watch Ring Message) (word : Word) (pid : Nat) (s s' : Endpoint Ring Message) : Prop :=
  Watched W word s' ∧ ∀ other, other ≠ pid → WatchRely W word other s s'

/-- A step after which there is nothing new to wait for. -/
structure Calmer (W : Watch Ring Message) (word : Word) (pid : Nat) (s s' : Endpoint Ring Message) : Prop where
  item : ∀ i, W.Item s' i → W.Item s i
  looks : ∀ position, W.looks s.ring s.log position → W.looks s'.ring s'.log position
  room : ∀ other, other ≠ pid → W.room other s'.ring s'.log → W.room other s.ring s.log
  shut : s'.Shut word ↔ s.Shut word

variable {W : Watch Ring Message} {word : Word} {pid : Nat} {s s' s₁ s₂ s₃ : Endpoint Ring Message}
  {e e' e₁ e₂ e₃ : Event} {pending : Pending} {retry : Retry}

theorem EventRely.refl (pid : Nat) (e : Event) : EventRely pid e e :=
  ⟨le_rfl, rfl, id, fun _ => rfl, fun _ _ _ h => h⟩

theorem EventRely.trans (h : EventRely pid e₁ e₂) (h' : EventRely pid e₂ e₃) : EventRely pid e₁ e₃ where
  bumps := h.bumps.trans h'.bumps
  pending := h'.pending.trans h.pending
  waiters hpid := h.waiters (h'.waiters hpid)
  retry hpid := (h'.retry fun hmid => hpid (h.waiters hmid)).trans (h.retry hpid)
  kept hbumps q all hq := by
    have hle := h.bumps
    have hle' := h'.bumps
    exact h'.kept (by omega) q all (h.kept (by omega) q all hq)

theorem EventRely.owed (h : EventRely pid e e') (hbumps : e'.bumps = e.bumps) (howed : e.Owed) : e'.Owed := by
  obtain ⟨q, hq⟩ := howed
  exact ⟨q, h.kept hbumps q true hq⟩

theorem Event.Own.rely (hown : e.Own pid pending retry) (h : EventRely pid e e') : e'.Own pid pending retry :=
  ⟨fun hpid => hown.waiters (h.waiters hpid), h.pending.trans hown.pending,
    (h.retry hown.waiters).trans hown.retry⟩

theorem WatchRely.refl (W : Watch Ring Message) (word : Word) (pid : Nat) (s : Endpoint Ring Message) :
    WatchRely W word pid s s :=
  ⟨.refl pid _, fun _ h => h, fun _ h => .inl h, fun _ h => .inl h⟩

theorem WatchRely.trans (h : WatchRely W word pid s₁ s₂) (h' : WatchRely W word pid s₂ s₃) :
    WatchRely W word pid s₁ s₃ where
  toEventRely := h.toEventRely.trans h'.toEventRely
  covered hbumps hcovered := by
    have hle := h.bumps
    have hle' := h'.bumps
    exact h'.covered (by omega) (h.covered (by omega) hcovered)
  room hbumps hroom := by
    have hle := h.bumps
    have hle' := h'.bumps
    rcases h'.room (by omega) hroom with hroom | howed
    · exact (h.room (by omega) hroom).imp id (h'.toEventRely.owed (by omega))
    · exact .inr howed
  shut hbumps hshut := by
    have hle := h.bumps
    have hle' := h'.bumps
    rcases h'.shut (by omega) hshut with hshut | howed
    · exact (h.shut (by omega) hshut).imp id (h'.toEventRely.owed (by omega))
    · exact .inr howed

theorem Calmer.of_same (W : Watch Ring Message) (word : Word) (pid : Nat) (hring : s'.ring = s.ring)
    (hlog : s'.log = s.log) (hsender : s'.sender_state = s.sender_state) : Calmer W word pid s s' where
  item i hi := by rwa [Watch.Item, hring, hlog] at hi
  looks position h := by rwa [hring, hlog]
  room other _ h := by rwa [hring, hlog] at h
  shut := by
    unfold Endpoint.Shut
    rw [hsender]

theorem Watch.Served.mono (h : W.Served word s) (hitem : ∀ i, W.Item s' i → W.Item s i)
    (hbearer : ∀ q, W.Bearer word s q → W.Bearer word s' q) : W.Served word s' := by
  obtain ⟨f, hinj, hf⟩ := h
  exact ⟨f, hinj.mono hitem, fun i hi => hbearer _ (hf i (hitem i hi))⟩

theorem Watch.Covered.mono (h : W.Covered word s) (hitem : ∀ i, W.Item s' i → W.Item s i)
    (hpending : ∀ q all, (s.event word).pending q = .before all →
      ∃ all', (s'.event word).pending q = .before all') : W.Covered word s' := by
  obtain ⟨f, hinj, hf⟩ := h
  refine ⟨f, hinj.mono hitem, fun i hi => ?_⟩
  obtain ⟨all, hall⟩ := hf i (hitem i hi)
  exact hpending _ all hall

theorem Watch.Covered.served (h : W.Covered word s) : W.Served word s := by
  obtain ⟨f, hinj, hf⟩ := h
  refine ⟨f, hinj, fun i hi => .inl ?_⟩
  obtain ⟨all, hall⟩ := hf i hi
  rw [hall]
  exact Pending.noConfusion

theorem Watch.Trying.mono (hlooks : ∀ position, W.looks s.ring s.log position → W.looks s'.ring s'.log position)
    {retry : Retry} (h : W.Trying s retry) : W.Trying s' retry := by
  cases retry with
  | none => exact h
  | awaited => trivial
  | looking position => exact hlooks position h

/-- What a process does to an epoch word without waking anybody. -/
structure OwnStep (pid : Nat) (e e' : Event) : Prop where
  bumps : e.bumps ≤ e'.bumps
  pending : ∀ q, q ≠ pid → e'.pending q = e.pending q
  retry : ∀ q, q ≠ pid → e'.retry q = e.retry q
  waiters : ∀ q, q ≠ pid → q ∈ e'.waiters → q ∈ e.waiters
  kept : e'.bumps = e.bumps → ∀ all, e.pending pid = .before all → e'.pending pid = .before all

theorem OwnStep.kept_all (h : OwnStep pid e e') (hbumps : e'.bumps = e.bumps) (q : Nat) (all : Bool)
    (hq : e.pending q = .before all) : e'.pending q = .before all := by
  by_cases hpid : q = pid
  · subst hpid
    exact h.kept hbumps all hq
  · rw [h.pending q hpid, hq]

theorem OwnStep.rely {other : Nat} (h : OwnStep pid e e') (hother : other ≠ pid) : EventRely other e e' :=
  ⟨h.bumps, h.pending other hother, h.waiters other hother, fun _ => h.retry other hother, h.kept_all⟩

theorem OwnStep.bearer (h : OwnStep pid (s.event word) (s'.event word))
    (hlooks : ∀ position, W.looks s.ring s.log position → W.looks s'.ring s'.log position) {q : Nat}
    (hq : q ≠ pid) (hbearer : W.Bearer word s q) : W.Bearer word s' q := by
  rw [Watch.Bearer, h.pending q hq, h.retry q hq]
  exact hbearer.imp id (Watch.Trying.mono hlooks)

theorem OwnStep.quiet (h : OwnStep pid (s.event word) (s'.event word)) (hW : Watched W word s) {w : Nat}
    (hw : w ∈ (s'.event word).waiters) (hne : w ≠ pid) :
    (s'.event word).pending w = .none ∧ (s'.event word).retry w = .none := by
  rw [h.pending w hne, h.retry w hne]
  exact hW.quiet w (h.waiters w hne hw)

/-- A step of a process that is not queued, after which there is nothing new
    to wait for, or a wake-up of all is owed. -/
theorem Watched.own_step (h : Watched W word s) (hstep : OwnStep pid (s.event word) (s'.event word))
    (hwaiters : (s'.event word).waiters = (s.event word).waiters) (hout : pid ∉ (s.event word).waiters)
    (hserved : ¬ s.Shut word → W.Served word s → W.Served word s') (hkept : s.Shut word → s'.Shut word)
    (hcovered : (s'.event word).bumps = (s.event word).bumps → W.Covered word s → W.Covered word s')
    (hroom : ∀ other, other ≠ pid → W.room other s'.ring s'.log →
      W.room other s.ring s.log ∨ (s'.event word).Owed)
    (hshut : s'.Shut word → s.Shut word ∨ (s'.event word).Owed)
    (hcoming : (s.event word).Coming → (s'.event word).Coming) : WatchStep W word pid s s' := by
  have howed : (s'.event word).Owed → (s'.event word).Coming := fun ⟨q, hq⟩ => ⟨q, .inl hq⟩
  refine ⟨⟨?_, fun w hw => ?_, fun hne hopen => ?_, fun w hw hcause => ?_⟩, fun other hother => ?_⟩
  · rw [hwaiters]
    exact h.nodup
  · refine hstep.quiet h hw fun heq => hout ?_
    rwa [heq, hwaiters] at hw
  · rw [hwaiters] at hne
    exact hserved (mt hkept hopen) (h.served hne (mt hkept hopen))
  · rw [hwaiters] at hw
    have hne : w ≠ pid := fun heq => hout (heq ▸ hw)
    rcases hcause with hcause | hcause
    · exact (hroom w hne hcause).elim (fun hold => hcoming (h.called w hw (.inl hold))) howed
    · exact (hshut hcause).elim (fun hold => hcoming (h.called w hw (.inr hold))) howed
  · exact ⟨hstep.rely hother, hcovered, fun _ => hroom other hother, fun _ => hshut⟩

theorem OwnStep.of_eq (heq : e' = e) : OwnStep pid e e' := by
  subst heq
  exact ⟨le_rfl, fun _ _ => rfl, fun _ _ => rfl, fun _ _ => id, fun _ _ => id⟩

/-- A word that stays as it is. -/
theorem Watched.stay (h : Watched W word s) (hout : pid ∉ (s.event word).waiters)
    (hcalmer : Calmer W word pid s s') (hevent : s'.event word = s.event word) : WatchStep W word pid s s' := by
  have hbearer (q : Nat) (hq : W.Bearer word s q) : W.Bearer word s' q := by
    rw [Watch.Bearer, hevent]
    exact hq.imp id (Watch.Trying.mono hcalmer.looks)
  apply h.own_step (.of_eq hevent) (by rw [hevent]) hout
  · exact fun _ hserved => hserved.mono hcalmer.item hbearer
  · exact hcalmer.shut.mpr
  · exact fun _ hcovered => hcovered.mono hcalmer.item fun q all hq => ⟨all, by rwa [hevent]⟩
  · exact fun other hother hroom => .inl (hcalmer.room other hother hroom)
  · exact fun hshut => .inl (hcalmer.shut.mp hshut)
  · rw [hevent]
    exact id

theorem Event.owe_self (pid : Nat) (all : Bool) (e : Event) : (e.owe pid all).pending pid = .before all :=
  Function.update_self _ _ _

theorem ownStep_owe {all : Bool} (hpending : ∀ all', e.pending pid = .before all' → all' = all) :
    OwnStep pid e (e.owe pid all) where
  bumps := le_rfl
  pending q hq := Function.update_of_ne hq _ _
  retry _ _ := rfl
  waiters _ _ := id
  kept _ all' hall := by rw [Event.owe_self, hpending all' hall]

/-- A process owes the wake-up of all for what it has made true. -/
theorem Watched.owe_all (h : Watched W word s) (hout : pid ∉ (s.event word).waiters)
    (hpending : ∀ all, (s.event word).pending pid = .before all → all = true)
    (hitem : ∀ i, W.Item s' i → W.Item s i)
    (hlooks : ∀ position, W.looks s.ring s.log position → W.looks s'.ring s'.log position)
    (hkept : s.Shut word → s'.Shut word) (hevent : s'.event word = (s.event word).owe pid true) :
    WatchStep W word pid s s' := by
  have hstep : OwnStep pid (s.event word) (s'.event word) := hevent ▸ ownStep_owe hpending
  have hself : (s'.event word).pending pid = .before true := hevent ▸ Event.owe_self pid true _
  have hbumps : (s'.event word).bumps = (s.event word).bumps := by rw [hevent, Event.owe]
  apply h.own_step hstep (by rw [hevent, Event.owe]) hout
  · intro _ hserved
    refine hserved.mono hitem fun q hq => ?_
    by_cases hpid : q = pid
    · left
      rw [hpid, hself]
      exact Pending.noConfusion
    · exact hstep.bearer hlooks hpid hq
  · exact hkept
  · exact fun _ hcovered => hcovered.mono hitem fun q all hq => ⟨all, hstep.kept_all hbumps q all hq⟩
  · exact fun _ _ _ => .inr ⟨pid, hself⟩
  · exact fun _ => .inr ⟨pid, hself⟩
  · exact fun _ => ⟨pid, .inl hself⟩

/-- A process owes the wake-up of one for the item that it has added. -/
theorem Watched.owe_item (h : Watched W word s)
    (hown : (s.event word).Own pid .none .none) (item : Nat)
    (hitem : ∀ i, W.Item s' i → i = item ∨ W.Item s i)
    (hlooks : ∀ i, i ≠ item → W.Item s' i →
      ∀ position, W.looks s.ring s.log position → W.looks s'.ring s'.log position)
    (hroom : ∀ other, other ≠ pid → W.room other s'.ring s'.log → W.room other s.ring s.log)
    (hshut : s'.Shut word ↔ s.Shut word) (hevent : s'.event word = (s.event word).owe pid false) :
    WatchStep W word pid s s' := by
  have hnone (all : Bool) : (s.event word).pending pid ≠ .before all := by
    rw [hown.pending]
    exact Pending.noConfusion
  have hstep : OwnStep pid (s.event word) (s'.event word) :=
    hevent ▸ ownStep_owe fun all hall => absurd hall (hnone all)
  have hself : (s'.event word).pending pid = .before false := hevent ▸ Event.owe_self pid false _
  have hbumps : (s'.event word).bumps = (s.event word).bumps := by rw [hevent, Event.owe]
  have hfree : ¬ W.Bearer word s pid := by
    rw [Watch.Bearer, hown.pending, hown.retry]
    exact fun hor => hor.elim (fun hne => hne rfl) id
  -- the new item is borne by the process itself, the others as before
  have hinj {f : Nat → Nat} (hf : Set.InjOn f {i | W.Item s i}) (hpid : ∀ i, W.Item s i → f i ≠ pid) :
      Set.InjOn (Function.update f item pid) {i | W.Item s' i} := by
    intro i hi j hj heq
    by_cases hitem_i : i = item
    · by_cases hitem_j : j = item
      · rw [hitem_i, hitem_j]
      · rw [hitem_i, Function.update_self, Function.update_of_ne hitem_j] at heq
        exact absurd heq.symm (hpid j ((hitem j hj).resolve_left hitem_j))
    · have hold := (hitem i hi).resolve_left hitem_i
      rw [Function.update_of_ne hitem_i] at heq
      by_cases hitem_j : j = item
      · rw [hitem_j, Function.update_self] at heq
        exact absurd heq (hpid i hold)
      · rw [Function.update_of_ne hitem_j] at heq
        exact hf hold ((hitem j hj).resolve_left hitem_j) heq
  apply h.own_step hstep (by rw [hevent, Event.owe]) hown.waiters
  · rintro _ ⟨f, hf, hbearer⟩
    have hpid (i : Nat) (hi : W.Item s i) : f i ≠ pid := fun heq => hfree (heq ▸ hbearer i hi)
    refine ⟨Function.update f item pid, hinj hf hpid, fun i hi => ?_⟩
    by_cases hitem_i : i = item
    · left
      rw [hitem_i, Function.update_self, hself]
      exact Pending.noConfusion
    · rw [Function.update_of_ne hitem_i]
      have hold := (hitem i hi).resolve_left hitem_i
      exact hstep.bearer (hlooks i hitem_i hi) (hpid i hold) (hbearer i hold)
  · exact hshut.mpr
  · rintro _ ⟨f, hf, hpending⟩
    have hpid (i : Nat) (hi : W.Item s i) : f i ≠ pid := by
      rintro heq
      obtain ⟨all, hall⟩ := hpending i hi
      exact hnone all (heq ▸ hall)
    refine ⟨Function.update f item pid, hinj hf hpid, fun i hi => ?_⟩
    by_cases hitem_i : i = item
    · rw [hitem_i, Function.update_self]
      exact ⟨false, hself⟩
    · rw [Function.update_of_ne hitem_i]
      obtain ⟨all, hall⟩ := hpending i ((hitem i hi).resolve_left hitem_i)
      exact ⟨all, hstep.kept_all hbumps _ all hall⟩
  · exact fun other hother hnew => .inl (hroom other hother hnew)
  · exact fun hnew => .inl (hshut.mp hnew)
  · rintro ⟨q, hq⟩
    have hne : q ≠ pid := by
      rintro rfl
      rw [hown.pending] at hq
      exact hq.elim Pending.noConfusion Pending.noConfusion
    exact ⟨q, by rwa [hstep.pending q hne]⟩

/-- The increment of the epoch. -/
theorem Watched.bump (h : Watched W word s) (hout : pid ∉ (s.event word).waiters)
    (hcalmer : Calmer W word pid s s') (hevent : s'.event word = (s.event word).bump pid) :
    WatchStep W word pid s s' := by
  have hself : (s'.event word).pending pid = ((s.event word).pending pid).bumped := by
    rw [hevent]
    exact Function.update_self _ _ _
  have hbumps : (s'.event word).bumps = (s.event word).bumps + 1 := by rw [hevent, Event.bump]
  have hstep : OwnStep pid (s.event word) (s'.event word) := by
    refine ⟨by omega, fun q hq => ?_, fun q _ => ?_, fun q _ hmem => ?_, fun heq => by omega⟩
    · rw [hevent]
      exact Function.update_of_ne hq _ _
    · rw [hevent, Event.bump]
    · rwa [hevent] at hmem
  apply h.own_step hstep (by rw [hevent, Event.bump]) hout
  · intro _ hserved
    refine hserved.mono hcalmer.item fun q hq => ?_
    by_cases hpid : q = pid
    · subst hpid
      rw [Watch.Bearer, hself, hevent]
      refine hq.imp (fun hne => ?_) (Watch.Trying.mono hcalmer.looks)
      cases hcase : (s.event word).pending q with
      | none => exact absurd hcase hne
      | before all => exact Pending.noConfusion
      | after all => exact Pending.noConfusion
    · exact hstep.bearer hcalmer.looks hpid hq
  · exact hcalmer.shut.mpr
  · exact fun heq => by omega
  · exact fun other hother hroom => .inl (hcalmer.room other hother hroom)
  · exact fun hshut => .inl (hcalmer.shut.mp hshut)
  · rintro ⟨q, hq⟩
    refine ⟨q, ?_⟩
    by_cases hpid : q = pid
    · subst hpid
      right
      rcases hq with hq | hq <;>
      rw [hself, hq] <;> rfl
    · rwa [hstep.pending q hpid]

/-- A process records how far it is with its next try. -/
theorem Watched.set_retry (h : Watched W word s) (hout : pid ∉ (s.event word).waiters)
    (hcalmer : Calmer W word pid s s') {retry : Retry}
    (htrying : ∀ i, W.Item s' i → ¬ s.Shut word → W.Trying s ((s.event word).retry pid) → W.Trying s' retry)
    (hevent : s'.event word = (s.event word).set_retry pid retry) : WatchStep W word pid s s' := by
  have hself : (s'.event word).retry pid = retry := by
    rw [hevent]
    exact Function.update_self _ _ _
  have hpending : (s'.event word).pending = (s.event word).pending := by rw [hevent, Event.set_retry]
  have hstep : OwnStep pid (s.event word) (s'.event word) := by
    refine ⟨?_, fun q _ => by rw [hpending], fun q hq => ?_, fun q _ hmem => ?_, fun _ all hall => by rwa [hpending]⟩
    · rw [hevent, Event.set_retry]
    · rw [hevent]
      exact Function.update_of_ne hq _ _
    · rwa [hevent] at hmem
  apply h.own_step hstep (by rw [hevent, Event.set_retry]) hout
  · rintro hopen ⟨f, hf, hbearer⟩
    refine ⟨f, hf.mono hcalmer.item, fun i hi => ?_⟩
    have hold := hbearer i (hcalmer.item i hi)
    by_cases hpid : f i = pid
    · rw [hpid] at hold ⊢
      rw [Watch.Bearer, hself, hpending]
      exact hold.imp id (htrying i hi hopen)
    · exact hstep.bearer hcalmer.looks hpid hold
  · exact hcalmer.shut.mpr
  · exact fun _ hcovered => hcovered.mono hcalmer.item fun q all hq => ⟨all, by rwa [hpending]⟩
  · exact fun other hother hroom => .inl (hcalmer.room other hother hroom)
  · exact fun hshut => .inl (hcalmer.shut.mp hshut)
  · rw [Event.Coming, Event.Coming, hpending]
    exact id

/-- A process takes an item: who has borne that one now bears the one that
    the process has borne, if any. -/
theorem Watched.take_item (h : Watched W word s) (hout : pid ∉ (s.event word).waiters)
    (hcalmer : Calmer W word pid s s') {item : Nat} (hitem : W.Item s item) (htaken : ¬ W.Item s' item)
    (hevent : s'.event word = (s.event word).set_retry pid .none) : WatchStep W word pid s s' := by
  have hpending : (s'.event word).pending = (s.event word).pending := by rw [hevent, Event.set_retry]
  have hstep : OwnStep pid (s.event word) (s'.event word) := by
    refine ⟨?_, fun q _ => by rw [hpending], fun q hq => ?_, fun q _ hmem => ?_, fun _ all hall => by rwa [hpending]⟩
    · rw [hevent, Event.set_retry]
    · rw [hevent]
      exact Function.update_of_ne hq _ _
    · rwa [hevent] at hmem
  apply h.own_step hstep (by rw [hevent, Event.set_retry]) hout
  · rintro _ ⟨f, hf, hbearer⟩
    have hold {i : Nat} (hi : W.Item s' i) : i ≠ item ∧ W.Item s i := by
      refine ⟨?_, hcalmer.item i hi⟩
      rintro rfl
      exact htaken hi
    refine ⟨fun i => if f i = pid then f item else f i, fun i hi j hj heq => ?_, fun i hi => ?_⟩
    · obtain ⟨hi_ne, hi⟩ := hold hi
      obtain ⟨hj_ne, hj⟩ := hold hj
      simp only at heq
      split_ifs at heq with hi_pid hj_pid hj_pid
      · exact hf hi hj (hi_pid.trans hj_pid.symm)
      · exact absurd (hf hitem hj heq).symm hj_ne
      · exact absurd (hf hi hitem heq) hi_ne
      · exact hf hi hj heq
    · obtain ⟨hi_ne, hi⟩ := hold hi
      simp only
      split_ifs with hi_pid
      · have hne : f item ≠ pid := fun heq => hi_ne (hf hi hitem (hi_pid.trans heq.symm))
        exact hstep.bearer hcalmer.looks hne (hbearer item hitem)
      · exact hstep.bearer hcalmer.looks hi_pid (hbearer i hi)
  · exact hcalmer.shut.mpr
  · exact fun _ hcovered => hcovered.mono hcalmer.item fun q all hq => ⟨all, by rwa [hpending]⟩
  · exact fun other hother hroom => .inl (hcalmer.room other hother hroom)
  · exact fun hshut => .inl (hcalmer.shut.mp hshut)
  · rw [Event.Coming, Event.Coming, hpending]
    exact id

theorem coming_of_ne {pid : Nat} (hpid : e.pending pid ≠ .before true ∧ e.pending pid ≠ .after true)
    (hpending : ∀ q, q ≠ pid → e'.pending q = e.pending q) (h : e.Coming) : e'.Coming := by
  obtain ⟨q, hq⟩ := h
  have hne : q ≠ pid := by
    rintro rfl
    exact hq.elim hpid.1 hpid.2
  exact ⟨q, by rwa [hpending q hne]⟩

/-- A process queues itself, with nothing missed since it has loaded the epoch. -/
theorem Watched.sleep (h : Watched W word s) (hown : (s.event word).Own pid .none .none)
    (hcalmer : Calmer W word pid s s') (hself : W.room pid s'.ring s'.log → W.room pid s.ring s.log)
    (hcovered : W.Covered word s) (howed : W.room pid s.ring s.log ∨ s.Shut word → (s.event word).Owed)
    (hevent : s'.event word = (s.event word).sleep pid) : WatchStep W word pid s s' := by
  have hpending : (s'.event word).pending = (s.event word).pending := by rw [hevent, Event.sleep]
  have hretry : (s'.event word).retry = (s.event word).retry := by rw [hevent, Event.sleep]
  have hwaiters : (s'.event word).waiters = pid :: (s.event word).waiters := by rw [hevent, Event.sleep]
  have hcovered' : W.Covered word s' :=
    hcovered.mono hcalmer.item fun q all hq => ⟨all, by rwa [hpending]⟩
  have hcoming (h : (s.event word).Coming) : (s'.event word).Coming := by
    rw [Event.Coming, hpending]
    exact h
  refine ⟨⟨?_, fun w hw => ?_, fun _ _ => hcovered'.served, fun w hw hcause => ?_⟩, fun other hother => ?_⟩
  · rw [hwaiters]
    exact List.nodup_cons.mpr ⟨hown.waiters, h.nodup⟩
  · rw [hpending, hretry]
    rw [hwaiters, List.mem_cons] at hw
    rcases hw with rfl | hw
    · exact ⟨hown.pending, hown.retry⟩
    · exact h.quiet w hw
  · rw [hwaiters, List.mem_cons] at hw
    apply hcoming
    rcases hw with rfl | hw
    · obtain ⟨q, hq⟩ := howed (hcause.imp hself hcalmer.shut.mp)
      exact ⟨q, .inl hq⟩
    · have hne : w ≠ pid := fun heq => hown.waiters (heq ▸ hw)
      exact h.called w hw (hcause.imp (hcalmer.room w hne) hcalmer.shut.mp)
  · refine ⟨⟨?_, by rw [hpending], fun hmem => ?_, fun _ => by rw [hretry], fun _ q all hq => by rwa [hpending]⟩,
      fun _ h => h.mono hcalmer.item fun q all hq => ⟨all, by rwa [hpending]⟩,
      fun _ hroom => .inl (hcalmer.room other hother hroom), fun _ hshut => .inl (hcalmer.shut.mp hshut)⟩
    · rw [hevent, Event.sleep]
    · rw [hwaiters, List.mem_cons] at hmem
      exact hmem.resolve_left hother

/-- The wait of a process ends. -/
theorem Watched.leave (h : Watched W word s) (hcalmer : Calmer W word pid s s')
    (hevent : s'.event word = (s.event word).leave pid) : WatchStep W word pid s s' := by
  have hpending : (s'.event word).pending = (s.event word).pending := by rw [hevent, Event.leave]
  have hretry : (s'.event word).retry = (s.event word).retry := by rw [hevent, Event.leave]
  have hwaiters : (s'.event word).waiters = (s.event word).waiters.erase pid := by rw [hevent, Event.leave]
  have hmem {w : Nat} (hw : w ∈ (s'.event word).waiters) : w ≠ pid ∧ w ∈ (s.event word).waiters := by
    rwa [hwaiters, h.nodup.mem_erase_iff] at hw
  refine ⟨⟨?_, fun w hw => ?_, fun hne hopen => ?_, fun w hw hcause => ?_⟩, fun other hother => ?_⟩
  · rw [hwaiters]
    exact h.nodup.erase pid
  · rw [hpending, hretry]
    exact h.quiet w (hmem hw).2
  · obtain ⟨w, hw⟩ := List.exists_mem_of_ne_nil _ hne
    have hserved := h.served (List.ne_nil_of_mem (hmem hw).2) (mt hcalmer.shut.mpr hopen)
    refine hserved.mono hcalmer.item fun q hq => ?_
    rw [Watch.Bearer, hpending, hretry]
    exact hq.imp id (Watch.Trying.mono hcalmer.looks)
  · rw [Event.Coming, hpending]
    exact h.called w (hmem hw).2 (hcause.imp (hcalmer.room w (hmem hw).1) hcalmer.shut.mp)
  · refine ⟨⟨?_, by rw [hpending], fun hw => (hmem hw).2, fun _ => by rw [hretry],
      fun _ q all hq => by rwa [hpending]⟩,
      fun _ h => h.mono hcalmer.item fun q all hq => ⟨all, by rwa [hpending]⟩,
      fun _ hroom => .inl (hcalmer.room other hother hroom), fun _ hshut => .inl (hcalmer.shut.mp hshut)⟩
    rw [hevent, Event.leave]

/-- What the others may rely on when a process wakes waiters. -/
theorem waking_rely {other : Nat} (hpid : ∀ all, (s.event word).pending pid ≠ .before all)
    (hcalmer : Calmer W word pid s s') (hbumps : (s'.event word).bumps = (s.event word).bumps)
    (hpending : ∀ q, q ≠ pid → (s'.event word).pending q = (s.event word).pending q)
    (hretry : ∀ q, q ∉ (s.event word).waiters → (s'.event word).retry q = (s.event word).retry q)
    (hwaiters : ∀ q, q ∈ (s'.event word).waiters → q ∈ (s.event word).waiters) (hother : other ≠ pid) :
    WatchRely W word other s s' := by
  have hkept (q : Nat) (all : Bool) (hq : (s.event word).pending q = .before all) :
      (s'.event word).pending q = .before all := by
    rw [hpending q fun heq => hpid all (heq ▸ hq)]
    exact hq
  exact ⟨⟨hbumps.ge, hpending other hother, hwaiters other, hretry other, fun _ => hkept⟩,
    fun _ h => h.mono hcalmer.item fun q all hq => ⟨all, hkept q all hq⟩,
    fun _ hroom => .inl (hcalmer.room other hother hroom), fun _ hshut => .inl (hcalmer.shut.mp hshut)⟩

theorem Watched.of_no_waiters (hnone : (s.event word).waiters = []) : Watched W word s := by
  have hmem (w : Nat) : w ∉ (s.event word).waiters := by
    rw [hnone]
    exact List.not_mem_nil
  refine ⟨?_, fun w hw => absurd hw (hmem w), fun hne => absurd hnone hne, fun w hw => absurd hw (hmem w)⟩
  rw [hnone]
  exact List.nodup_nil

/-- The wake-up of all. -/
theorem Watched.wake_all (hpid : ∀ all, (s.event word).pending pid ≠ .before all)
    (hcalmer : Calmer W word pid s s') (hevent : s'.event word = (s.event word).wake_all pid) :
    WatchStep W word pid s s' := by
  have hwaiters : (s'.event word).waiters = [] := by rw [hevent, Event.wake_all]
  refine ⟨.of_no_waiters hwaiters, fun other hother => ?_⟩
  apply waking_rely hpid hcalmer _ _ _ _ hother
  · rw [hevent, Event.wake_all]
  · intro q hq
    rw [hevent]
    exact Function.update_of_ne hq _ _
  · intro q hq
    rw [hevent]
    exact if_neg hq
  · intro q hq
    rw [hwaiters] at hq
    exact absurd hq List.not_mem_nil

/-- The wake-up of one: the woken process bears the item in its turn. -/
theorem Watched.wake_one (h : Watched W word s) (hout : pid ∉ (s.event word).waiters)
    (hpid : (s.event word).pending pid = .after false) (hcalmer : Calmer W word pid s s') {pick : Nat}
    (hevent : s'.event word = (s.event word).wake_one pid pick) : WatchStep W word pid s s' := by
  have hbefore (all : Bool) : (s.event word).pending pid ≠ .before all := by
    rw [hpid]
    exact Pending.noConfusion
  rw [Event.wake_one] at hevent
  split at hevent
  next hnone =>
    have hempty : (s.event word).waiters = [] := by
      by_contra hne
      have hpos := List.length_pos_iff.mpr hne
      have hlt := Nat.mod_lt pick hpos
      rw [List.getElem?_eq_none_iff] at hnone
      omega
    have hwaiters : (s'.event word).waiters = [] := by
      rw [hevent]
      exact hempty
    refine ⟨.of_no_waiters hwaiters, fun other hother => ?_⟩
    apply waking_rely hbefore hcalmer _ _ _ _ hother
    · rw [hevent]
    · intro q hq
      rw [hevent]
      exact Function.update_of_ne hq _ _
    · intro q _
      rw [hevent]
    · intro q hq
      rw [hwaiters] at hq
      exact absurd hq List.not_mem_nil
  next woken hsome =>
    have hwoken : woken ∈ (s.event word).waiters := List.mem_of_getElem? hsome
    have hpending (q : Nat) (hq : q ≠ pid) : (s'.event word).pending q = (s.event word).pending q := by
      rw [hevent]
      exact Function.update_of_ne hq _ _
    have hawaited : (s'.event word).retry woken = .awaited := by
      rw [hevent]
      exact Function.update_self _ _ _
    have hretry (q : Nat) (hq : q ≠ woken) : (s'.event word).retry q = (s.event word).retry q := by
      rw [hevent]
      exact Function.update_of_ne hq _ _
    have hmem {w : Nat} (hw : w ∈ (s'.event word).waiters) : w ≠ woken ∧ w ∈ (s.event word).waiters := by
      rw [hevent] at hw
      exact h.nodup.mem_erase_iff.mp hw
    refine ⟨⟨?_, fun w hw => ?_, fun _ hopen => ?_, fun w hw hcause => ?_⟩, fun other hother => ?_⟩
    · rw [hevent]
      exact h.nodup.erase woken
    · have hne : w ≠ pid := fun heq => hout (heq ▸ (hmem hw).2)
      rw [hpending w hne, hretry w (hmem hw).1]
      exact h.quiet w (hmem hw).2
    · obtain ⟨f, hf, hbearer⟩ := h.served (List.ne_nil_of_mem hwoken) (mt hcalmer.shut.mpr hopen)
      have hfree : ¬ W.Bearer word s woken := by
        obtain ⟨hnone, hrested⟩ := h.quiet woken hwoken
        rw [Watch.Bearer, hnone, hrested]
        exact fun hor => hor.elim (fun hne => hne rfl) id
      refine ⟨fun i => if f i = pid then woken else f i, fun i hi j hj heq => ?_, fun i hi => ?_⟩
      · have hi_ne : f i ≠ woken := fun heq => hfree (heq ▸ hbearer i (hcalmer.item i hi))
        have hj_ne : f j ≠ woken := fun heq => hfree (heq ▸ hbearer j (hcalmer.item j hj))
        simp only at heq
        split_ifs at heq with hi_pid hj_pid hj_pid
        · exact hf (hcalmer.item i hi) (hcalmer.item j hj) (hi_pid.trans hj_pid.symm)
        · exact absurd heq.symm hj_ne
        · exact absurd heq hi_ne
        · exact hf (hcalmer.item i hi) (hcalmer.item j hj) heq
      · simp only
        split_ifs with hi_pid
        · right
          rw [hawaited]
          trivial
        · have hi_ne : f i ≠ woken := fun heq => hfree (heq ▸ hbearer i (hcalmer.item i hi))
          rw [Watch.Bearer, hpending _ hi_pid, hretry _ hi_ne]
          exact (hbearer i (hcalmer.item i hi)).imp id (Watch.Trying.mono hcalmer.looks)
    · have hne : w ≠ pid := fun heq => hout (heq ▸ (hmem hw).2)
      apply coming_of_ne _ hpending (h.called w (hmem hw).2 (hcause.imp (hcalmer.room w hne) hcalmer.shut.mp))
      rw [hpid]
      exact ⟨Pending.noConfusion, fun heq => by cases heq⟩
    · apply waking_rely hbefore hcalmer _ hpending _ _ hother
      · rw [hevent]
      · exact fun q hq => hretry q fun heq => hq (heq ▸ hwoken)
      · exact fun q hq => (hmem hq).2

end

end shmchan.endpoint
