import Shmchan.Endpoint.Protocol
import Shmchan.Endpoint.Steps
import Shmchan.Process.Own
import Shmchan.Process.Tally

open process

namespace shmchan.endpoint

section

variable {Ring Message : Type}

end

/-- What the closing of a channel depends on: who is a sender, and that every
    position is reserved by one of them before anything else happens to it. -/
structure ClosingInv {Ring Message : Type} (s : Endpoint Ring Message) : Prop where
  senders : Senders s.sender_state s.closings s.guards s.log.phase
  occupied : ∀ i < s.log.count, s.log.phase i ≠ .vacant

/-- What a process may rely on; `tail` is the position that the senders move. -/
structure ClosingRely {Ring Message : Type} (tail : Ring → Nat) (pid : Nat) (s s' : Endpoint Ring Message) :
    Prop where
  sender : SenderRely pid s s'
  fresh : ∀ i, s'.log.phase i = .reserved pid → s.log.phase i = .reserved pid
  tail : s.Done → tail s'.ring = tail s.ring

def closing_reliance {Ring Message : Type} (tail : Ring → Nat) : Reliance (Endpoint Ring Message) Nat :=
  ⟨ClosingInv, ClosingRely tail⟩

/-- The process has no reserved position. -/
def Unreserved {Ring Message : Type} (pid : Nat) (s : Endpoint Ring Message) : Prop :=
  ∀ i, s.log.phase i ≠ .reserved pid

/-- A registered sender has reserved a position. -/
def Holding {Ring Message : Type} (pid i : Nat) (s : Endpoint Ring Message) : Prop :=
  pid ∈ s.guards ∧ ∀ j, s.log.phase j = .reserved pid → j = i

/-- A step that uses the ring without reserving. -/
structure Uses {Ring Message : Type} (tail : Ring → Nat) (s s' : Endpoint Ring Message) : Prop where
  sender_state : s'.sender_state = s.sender_state
  closings : s'.closings = s.closings
  guards : s'.guards = s.guards
  count : s'.log.count = s.log.count
  tail : tail s'.ring = tail s.ring
  phase : ∀ i, s'.log.phase i = s.log.phase i ∨
    s'.log.phase i ≠ .vacant ∧ ∀ pid, s'.log.phase i ≠ .reserved pid

/-- A step that reserves the next position. -/
structure Reserves {Ring Message : Type} (pid : Nat) (s s' : Endpoint Ring Message) : Prop where
  sender_state : s'.sender_state = s.sender_state
  closings : s'.closings = s.closings
  guards : s'.guards = s.guards
  count : s'.log.count = s.log.count + 1
  phase : s'.log.phase = Function.update s.log.phase s.log.count (.reserved pid)

/-- What a call says about the closing. -/
def ClosingAnswer {Ring Message : Type} (pid : Nat) (reply : Reply Message) (s : Endpoint Ring Message) : Prop :=
  (reply ≠ .unfinished → Unreserved pid s) ∧ ∀ first, reply = .closing first → 0 < s.closings

section

variable {Ring Message α : Type} {tail : Ring → Nat} {pid : Nat} {s s' : Endpoint Ring Message}
  {Q A : Endpoint Ring Message → Prop}

theorem ClosingRely.refl (tail : Ring → Nat) (pid : Nat) (s : Endpoint Ring Message) :
    ClosingRely tail pid s s :=
  ⟨.refl pid s, fun _ h => h, fun _ => rfl⟩

theorem ClosingRely.trans {s₁ s₂ s₃ : Endpoint Ring Message} (h : ClosingRely tail pid s₁ s₂)
    (h' : ClosingRely tail pid s₂ s₃) : ClosingRely tail pid s₁ s₃ where
  sender := h.sender.trans h'.sender
  fresh i hi := h.fresh i (h'.fresh i hi)
  tail hdone := (h'.tail (h.sender.keeps_done hdone)).trans (h.tail hdone)

theorem unreserved_stable (tail : Ring → Nat) (pid : Nat) :
    Stable (closing_reliance tail : Reliance (Endpoint Ring Message) Nat) pid (Unreserved pid) :=
  fun _ _ hrely _ h i hi => h i (hrely.fresh i hi)

/-- The calls of a channel follow their protocol whatever its ring does. -/
theorem closing_protocol (tail : Ring → Nat) :
    Protocol (closing_reliance tail : Reliance (Endpoint Ring Message) Nat) Unreserved where
  refl := ClosingRely.refl tail
  senders _ hinv := hinv.senders
  sender_rely _ _ _ hrely := hrely.sender
  stable := unreserved_stable tail
  unreserved _ _ h := h
  undisturbed s s' hsame hinv := by
    obtain ⟨_, _, _, rfl⟩ := hsame
    exact ⟨⟨hinv.senders, hinv.occupied⟩, fun pid =>
      ⟨.of_same rfl rfl rfl, fun _ h => h, fun _ => rfl⟩⟩
  framed pid s s' hframe hinv hidle hsenders hothers := by
    have hlog : s'.log = s.log := hframe.log
    refine ⟨⟨hsenders, ?_⟩, fun other hother => ⟨hothers other hother, ?_, ?_⟩, ?_⟩
    · rw [hlog]
      exact hinv.occupied
    · rw [hlog]
      exact fun _ h => h
    · rw [hframe.ring]
      exact fun _ => rfl
    · rw [Unreserved, hlog]
      exact hidle

theorem Uses.refl (tail : Ring → Nat) (s : Endpoint Ring Message) : Uses tail s s :=
  ⟨rfl, rfl, rfl, rfl, rfl, fun _ => .inl rfl⟩

theorem Uses.of_undisturbed (h : Undisturbed s s') : Uses tail s s' := by
  obtain ⟨_, _, _, rfl⟩ := h
  exact ⟨rfl, rfl, rfl, rfl, rfl, fun _ => .inl rfl⟩

theorem Uses.of_ite {p : Prop} [Decidable p] (h : Uses tail s s') : Uses tail s (if p then s' else s) := by
  split
  · exact h
  · exact .refl tail s

/-- A step that gives one position a phase in which no sender holds it. -/
theorem Uses.of_update {i : Nat} {new : Phase} (hsender_state : s'.sender_state = s.sender_state)
    (hclosings : s'.closings = s.closings) (hguards : s'.guards = s.guards)
    (hcount : s'.log.count = s.log.count) (htail : tail s'.ring = tail s.ring)
    (hphase : s'.log.phase = Function.update s.log.phase i new) (hvacant : new ≠ .vacant)
    (hnew : ∀ pid, new ≠ .reserved pid) : Uses tail s s' := by
  refine ⟨hsender_state, hclosings, hguards, hcount, htail, fun j => ?_⟩
  rw [hphase]
  by_cases hj : j = i
  · subst hj
    rw [Function.update_self]
    exact .inr ⟨hvacant, hnew⟩
  · exact .inl (Function.update_of_ne hj _ _)

theorem Uses.fresh (h : Uses tail s s') {i : Nat} (hi : s'.log.phase i = .reserved pid) :
    s.log.phase i = .reserved pid := by
  rcases h.phase i with hsame | ⟨_, hnot⟩
  · rw [← hsame]
    exact hi
  · exact absurd hi (hnot pid)

theorem Uses.rely (h : Uses tail s s') (pid : Nat) : ClosingRely tail pid s s' :=
  ⟨.of_same h.closings h.guards h.count, fun _ hi => h.fresh hi, fun _ => h.tail⟩

theorem Uses.inv (h : Uses tail s s') (hinv : ClosingInv s) : ClosingInv s' := by
  constructor
  · rw [h.sender_state, h.closings, h.guards]
    exact { hinv.senders with owner := fun i pid hi => hinv.senders.owner i pid (h.fresh hi) }
  · intro i hi
    rw [h.count] at hi
    rcases h.phase i with hsame | ⟨hvacant, _⟩
    · rw [hsame]
      exact hinv.occupied i hi
    · exact hvacant

/-- A registered sender reserves the next position. -/
theorem Reserves.step (h : Reserves pid s s') (hinv : ClosingInv s) (hready : Ready Unreserved pid s) :
    ClosingInv s' ∧ (∀ other, other ≠ pid → ClosingRely tail other s s') ∧ Holding pid s.log.count s' := by
  have hguard : pid ∈ s.guards := hready.2
  refine ⟨⟨?_, ?_⟩, fun other hother => ⟨.of_guard hguard h.closings.ge (by rw [h.guards]), ?_, ?_⟩, ?_⟩
  · rw [h.sender_state, h.closings, h.guards, h.phase]
    apply hinv.senders.update_phase
    intro other hother
    rwa [← Phase.reserved.inj hother]
  · intro i hi
    rw [h.phase]
    by_cases hcount : i = s.log.count
    · subst hcount
      rw [Function.update_self]
      rintro ⟨⟩
    · rw [Function.update_of_ne hcount]
      rw [h.count] at hi
      exact hinv.occupied i (by omega)
  · intro i hi
    rw [h.phase] at hi
    by_cases hcount : i = s.log.count
    · subst hcount
      rw [Function.update_self] at hi
      exact absurd (Phase.reserved.inj hi).symm hother
    · rwa [Function.update_of_ne hcount] at hi
  · intro hdone
    rw [hdone.2] at hguard
    exact absurd hguard List.not_mem_nil
  · refine ⟨by rwa [h.guards], fun j hj => ?_⟩
    rw [h.phase] at hj
    by_contra hcount
    rw [Function.update_of_ne hcount] at hj
    exact hready.1 j hj

/-- The position of a sender is published. -/
theorem Holding.publish {i : Nat} (h : Holding pid i s) (hguards : s'.guards = s.guards)
    (hphase : s'.log.phase = Function.update s.log.phase i .published) : Ready Unreserved pid s' := by
  refine ⟨fun j hj => ?_, by rw [hguards]; exact h.1⟩
  rw [hphase] at hj
  by_cases hji : j = i
  · subst hji
    rw [Function.update_self] at hj
    cases hj
  · rw [Function.update_of_ne hji] at hj
    exact hji (h.2 j hj)

end

/-- Processes whose calls take part in the closing of a channel. -/
structure Closes {Ring Message : Type} (tail : Ring → Nat)
    (D : Discipline (Endpoint Ring Message) (Reply Message) Nat) : Prop where
  counts : ∀ pid reply program, D.starts pid reply program →
    program.Counts Endpoint.closings (fun reply => reply = .closing true) False
  safe : ∀ pid reply program s, D.starts pid reply program → reply ≠ .unfinished ∧
    (Unreserved pid s → SafeWithin (fun _ => True) (closing_reliance tail) pid (ClosingAnswer pid) program s)
  immortal : ∀ pid s, ¬ D.mayDie pid s

/-- A channel that nobody uses yet. -/
structure Unused {Ring Message : Type} (c : Config (Endpoint Ring Message) (Reply Message) Nat) : Prop where
  inv : ClosingInv c.shared
  closings : c.shared.closings = 0
  unreserved : ∀ pid, Unreserved pid c.shared
  shown : ∀ pid, c.procs pid = .ret .idle

/-- The closing and draining of a channel, in a state that is reached with
    these results of calls. -/
structure CloseProtocol {Ring Message : Type} [DecidableEq Message] (tail : Ring → Nat)
    (D : Discipline (Endpoint Ring Message) (Reply Message) Nat) (results : List (Reply Message))
    (c : Config (Endpoint Ring Message) (Reply Message) Nat) : Prop where
  active : c.shared.sender_state &&& active_sender_mask = c.shared.guards.length
  no_carry : c.shared.guards.length ≤ active_sender_mask
  closed : c.shared.sender_state &&& channel_closed_bit ≠ 0 ↔ 0 < c.shared.closings
  lasting : c.shared.sender_state &&& channel_closed_bit ≠ 0 → ∀ later, Reachable D c later →
    later.shared.sender_state &&& channel_closed_bit ≠ 0
  returned : ∀ first, .closing first ∈ results → c.shared.sender_state &&& channel_closed_bit ≠ 0
  once : results.count (.closing true) ≤ 1
  first : (∃ first, .closing first ∈ results) → (∀ pid, (c.procs pid).shown ≠ none) →
    results.count (.closing true) = 1
  drained : c.shared.sender_state = channel_closed_bit →
    (∀ i < c.shared.log.count, c.shared.log.phase i ≠ .vacant ∧ ∀ pid, c.shared.log.phase i ≠ .reserved pid) ∧
    ∀ later, Reachable D c later → later.shared.sender_state = channel_closed_bit ∧
      tail later.shared.ring = tail c.shared.ring ∧ later.shared.log.count = c.shared.log.count

section

variable {Ring Message : Type} {tail : Ring → Nat}
  {D : Discipline (Endpoint Ring Message) (Reply Message) Nat} {results : List (Reply Message)}
  {init c : Config (Endpoint Ring Message) (Reply Message) Nat}

theorem closingAnswer_stable (tail : Ring → Nat) (pid : Nat) (reply : Reply Message) :
    Stable (closing_reliance tail : Reliance (Endpoint Ring Message) Nat) pid (ClosingAnswer pid reply) :=
  fun s s' hrely hinv h => ⟨fun hended => unreserved_stable tail pid s s' hrely hinv (h.1 hended),
    fun first hfirst => (h.2 first hfirst).trans_le hrely.sender.closings⟩

theorem Closes.adequate (hD : Closes tail D) :
    AdequateWithin (fun _ => True) D (closing_reliance tail) ClosingAnswer where
  refl := ClosingRely.refl tail
  trans _ _ _ _ h h' := h.trans h'
  stable := closingAnswer_stable tail
  start pid reply program s _ _ hanswer hstart := by
    obtain ⟨hended, hsafe⟩ := hD.safe pid reply program s hstart
    exact hsafe (hanswer.1 hended)
  immortal := hD.immortal

theorem Unused.safe (h : Unused init) (pid : Nat) :
    SafeWithin (fun _ => True) (closing_reliance tail) pid (ClosingAnswer pid) (init.procs pid) init.shared := by
  rw [h.shown pid]
  refine ⟨fun _ => h.unreserved pid, ?_⟩
  rintro first ⟨⟩

/-- What every process may rely on from every other one, holds for good. -/
theorem Closes.keeps (hD : Closes tail D) {A : Endpoint Ring Message → Prop}
    (hA : ∀ pid, Stable (closing_reliance tail) pid A) (hinit : Unused init) (hreach : Reachable D init c)
    (h : A c.shared) {later : Config (Endpoint Ring Message) (Reply Message) Nat} (hlater : Reachable D c later) :
    A later.shared := by
  obtain ⟨_, hinv, hsafe⟩ := hD.adequate.reachable trivial hinit.inv hinit.safe hreach.within
  exact hD.adequate.keeps (fun pid => ⟨pid + 1, Nat.succ_ne_self pid⟩) hA trivial hinv hsafe h
    hlater.within

theorem Closes.inv (hD : Closes tail D) (hinit : Unused init) (hreach : Reachable D init c) :
    ClosingInv c.shared :=
  (hD.adequate.reachable trivial hinit.inv hinit.safe hreach.within).2.1

theorem ClosingInv.closed_iff {s : Endpoint Ring Message} (h : ClosingInv s) :
    s.sender_state &&& channel_closed_bit ≠ 0 ↔ 0 < s.closings := by
  rw [h.senders.closed_iff]
  have := h.senders.closings
  omega

/-- The closed bit stays set. -/
theorem Closes.lasting (hD : Closes tail D) (hinit : Unused init) (hreach : Reachable D init c)
    (hclosed : c.shared.sender_state &&& channel_closed_bit ≠ 0)
    {later : Config (Endpoint Ring Message) (Reply Message) Nat} (hlater : Reachable D c later) :
    later.shared.sender_state &&& channel_closed_bit ≠ 0 := by
  rw [(hD.inv hinit hreach).closed_iff] at hclosed
  rw [(hD.inv hinit (hreach.trans hlater)).closed_iff]
  exact hD.keeps (A := fun s => 0 < s.closings) (fun _ _ _ hrely _ h => h.trans_le hrely.sender.closings) hinit
    hreach hclosed hlater

/-- From the bare closed bit on, nothing is reserved any more. -/
theorem Closes.drained (hD : Closes tail D) (hinit : Unused init) (hreach : Reachable D init c)
    (hbare : c.shared.sender_state = channel_closed_bit) :
    (∀ i < c.shared.log.count, c.shared.log.phase i ≠ .vacant ∧ ∀ pid, c.shared.log.phase i ≠ .reserved pid) ∧
    ∀ later, Reachable D c later → later.shared.sender_state = channel_closed_bit ∧
      tail later.shared.ring = tail c.shared.ring ∧ later.shared.log.count = c.shared.log.count := by
  have hinv := hD.inv hinit hreach
  obtain ⟨hclosings, hguards⟩ := hinv.senders.done_iff.mp hbare
  constructor
  · refine fun i hi => ⟨hinv.occupied i hi, fun pid hpid => ?_⟩
    have howner := hinv.senders.owner i pid hpid
    rw [hguards] at howner
    exact absurd howner List.not_mem_nil
  · intro later hlater
    have hstable (pid : Nat) : Stable (closing_reliance tail) pid fun s : Endpoint Ring Message =>
        s.Done ∧ tail s.ring = tail c.shared.ring ∧ s.log.count = c.shared.log.count := by
      rintro s s' hrely _ ⟨hdone, htail, hcount⟩
      exact ⟨hrely.sender.keeps_done hdone, (hrely.tail hdone).trans htail,
        (hrely.sender.count hdone).trans hcount⟩
    obtain ⟨hdone, htail, hcount⟩ := hD.keeps hstable hinit hreach ⟨⟨by omega, hguards⟩, rfl, rfl⟩ hlater
    have hsenders := (hD.inv hinit (hreach.trans hlater)).senders
    refine ⟨hsenders.done_iff.mpr ⟨?_, hdone.2⟩, htail, hcount⟩
    have := hsenders.closings
    have := hdone.1
    omega

/-- The channel closes and drains by its protocol in every run. -/
theorem Closes.protocol [DecidableEq Message] (hD : Closes tail D) (hinit : Unused init)
    (h : Trace D init results c) : CloseProtocol tail D results c := by
  have hinv := hD.inv hinit h.reachable
  have hclosed := hinv.closed_iff
  have hreturned (first : Bool) (hmem : .closing first ∈ results) : 0 < c.shared.closings := by
    have hpids (pid : Nat) : ∃ other, other ≠ pid := ⟨pid + 1, Nat.succ_ne_self pid⟩
    let fact (reply : Reply Message) (s : Endpoint Ring Message) : Prop :=
      ∀ first, reply = .closing first → 0 < s.closings
    have hfact (pid : Nat) (reply : Reply Message) : Stable (closing_reliance tail) pid (fact reply) :=
      fun _ _ hrely _ h first hfirst => (h first hfirst).trans_le hrely.sender.closings
    have hall : ∀ reply ∈ results, fact reply c.shared :=
      hD.adequate.truthful hpids (fun _ _ _ h => h.2) hfact hinit.inv hinit.safe h
    exact hall _ hmem first rfl
  obtain ⟨winners, hwinners, hsum⟩ := h.counts (fun pid => by rw [hinit.shown pid]; exact Option.some_ne_none _)
    hinit.closings hD.counts
  have hcount : results.countP (fun reply => decide (reply = .closing true)) = results.count (.closing true) := by
    rw [List.count]
    rfl
  rw [hcount] at hsum
  have hle := hinv.senders.closings
  refine ⟨hinv.senders.active, ?_, hclosed, ?_, ?_, by omega, ?_, hD.drained hinit h.reachable⟩
  · have := hinv.senders.bound
    rw [active_sender_mask]
    omega
  · exact fun hbit later hlater => hD.lasting hinit h.reachable hbit hlater
  · exact fun first hmem => hclosed.mpr (hreturned first hmem)
  · rintro ⟨first, hmem⟩ hshown
    rw [hwinners.settled hshown, List.length_nil] at hsum
    have := hreturned first hmem
    omega

end

end shmchan.endpoint
