import Shmchan.Process.BoundedQueue
import Shmchan.Managed.Runs

open process

namespace shmchan.managed

inductive ManagedCall where
  | send (message : Bytes) (mode : ManagedLockMode)
  | receive (mode : ManagedLockMode) (alloc_fails : Bool)
  | close
  | stats
  deriving DecidableEq, Repr

/-- What `send_impl` makes of an exit, unless it is broken or timed out meanwhile. -/
def SendExit.outcome (message : Bytes) (mode : ManagedLockMode) : SendExit → Outcome
  | leave status => .sent status
  | published => .sent .success
  | wait _ => .again (.send message mode)

def ReceiveExit.outcome (mode : ManagedLockMode) : ReceiveExit → Outcome
  | leave status => .received status none
  | took payload => .received .success (some payload)
  | threw => .threw .bad_alloc
  | wait _ => .again (.receive mode)

/-- The turn of a call at the mutex: a pass of `send_impl` or `receive_impl`
    up to its unlock, or the whole of `close` or `stats`. -/
def turn (pid : Nat) : ManagedCall → Prog Memory Outcome
  | .send message mode => do
    let max_message_size ← .load fun m => m.header.max_message_size
    if message.length > max_message_size then return .sent .message_too_large
    let status ← managed_mutex_guard pid mode false false
    if status ≠ .success then return .sent status
    let exit ← send_critical message mode
    guard_unlock pid
    return exit.outcome message mode
  | .receive mode alloc_fails => do
    let status ← managed_mutex_guard pid mode false true
    if status ≠ .success then return .received status none
    let exit ← receive_critical pid mode alloc_fails
    guard_unlock pid
    return exit.outcome mode
  | .close => close pid
  | .stats => stats pid

/-- The turns of a run without deaths and without `unlink`, in the order in
    which the mutex was taken. Before each single action of a turn the other
    processes do what they may do without the mutex. -/
inductive Turns : Memory → List (ManagedCall × Outcome) → Memory → Prop where
  | nil {m m' : Memory} (hothers : Interference false m m') : Turns m [] m'
  | cons {pid : Nat} {call : ManagedCall} {outcome : Outcome} {m m₁ m' : Memory}
      {trace : List (ManagedCall × Outcome)}
      (hturn : Interleaved (Interference false) (turn pid call) m outcome m₁)
      (hrest : Turns m₁ trace m') : Turns m ((call, outcome) :: trace) m'

/-- The outcome of a send for the queue's reply. -/
def sent_outcome (message : Bytes) (mode : ManagedLockMode) : QueueReply Bytes → Outcome
  | .accepted => .sent .success
  | .closed => .sent .closed
  | _ => if mode = .nonblocking then .sent .would_block else .again (.send message mode)

def received_outcome (mode : ManagedLockMode) : QueueReply Bytes → Outcome
  | .received payload => .received .success (some payload)
  | .closed => .received .closed none
  | _ => if mode = .nonblocking then .received .would_block none else .again (.receive mode)

/-- What a bounded queue with messages of at most `max` bytes does on a call. -/
def Answer (max : Nat) (q : BoundedQueue Bytes) : ManagedCall → Outcome → BoundedQueue Bytes → Prop
  | .send message mode, outcome, q' =>
    if message.length > max then outcome = .sent .message_too_large ∧ q' = q
    else outcome = sent_outcome message mode (q.step (.send message)).1 ∧
      q' = (q.step (.send message)).2
  | .receive mode alloc_fails, outcome, q' =>
    if alloc_fails = true ∧ q.messages ≠ [] then outcome = .threw .bad_alloc ∧ q' = q
    else outcome = received_outcome mode (q.step .receive).1 ∧ q' = (q.step .receive).2
  | .close, outcome, q' => outcome = .closed (!q.closed) ∧ q' = (q.step .close).2
  | .stats, outcome, q' => q' = q ∧ ∃ counters, outcome = .stats {
      state := if q.closed then ManagedChannelState.closed.word else ManagedChannelState.healthy.word
      reason := BreakReason.none.word
      message_capacity := q.capacity
      max_message_size := max
      free_slots := q.capacity - q.messages.length
      writing_messages := 0
      ready_messages := q.messages.length
      counters := counters }

/-- The queue gives the outcomes of a trace. -/
def Answers (max : Nat) (q : BoundedQueue Bytes) : List (ManagedCall × Outcome) → BoundedQueue Bytes → Prop
  | [], q' => q' = q
  | (call, outcome) :: trace, q' => ∃ q₁, Answer max q call outcome q₁ ∧ Answers max q₁ trace q'

/-- The message a call puts into the channel. -/
def accepted_by : ManagedCall → Outcome → List Bytes
  | .send message _, .sent .success => [message]
  | _, _ => []

/-- The payloads of the sends that succeeded. -/
def accepted (trace : List (ManagedCall × Outcome)) : List Bytes :=
  trace.flatMap fun x => accepted_by x.1 x.2

/-- The payloads that receives returned. -/
def returned (trace : List (ManagedCall × Outcome)) : List Bytes :=
  trace.flatMap fun x => x.2.payloads

def ManagedCall.is_send : ManagedCall → Bool
  | send _ _ => true
  | _ => false

/-- The number of sends of a trace. -/
def sends (trace : List (ManagedCall × Outcome)) : Nat := trace.countP fun x => x.1.is_send

/-- The outcomes after which the channel is not what it was. -/
def Outcome.acts : Outcome → Bool
  | sent .success => true
  | received .success _ => true
  | closed true => true
  | _ => false

/-- The channel holds the messages of the queue, and is closed when it is. -/
structure Represents (m : Memory) (q : BoundedQueue Bytes) : Prop where
  capacity : q.capacity = m.header.message_capacity
  messages : q.messages = m.queue.map Prod.snd
  state : m.header.state =
    if q.closed then ManagedChannelState.closed.word else ManagedChannelState.healthy.word

/-- What holds whenever nobody has the mutex. -/
structure Consistent (m : Memory) : Prop where
  mutex : m.header.mutex = .unlocked
  reason : m.header.reason = BreakReason.none.word
  slots : ∀ i, i < m.header.message_capacity →
    (m.slots i).state = ManagedSlotState.free.word ∨ (m.slots i).state = ManagedSlotState.ready.word
  free : m.header.free_slots = (m.slots_in .free).length
  ready : m.header.ready_messages = (m.slots_in .ready).length
  writing : m.header.writing_messages = 0
  sequences : ∀ i, i < m.header.message_capacity →
    (m.slots i).state = ManagedSlotState.ready.word →
      0 < (m.slots i).sequence ∧ (m.slots i).sequence < m.header.next_sequence
  distinct : m.Distinct
  validates : ∀ pid receiving result m',
    Interleaved (Interference false) validate_managed_slots (take_mutex pid receiving m) result m' →
      result = true

/-- The invariant between two turns. -/
structure Idle (max : Nat) (m : Memory) : Prop where
  inv : Inv false m
  mutex : m.header.mutex = .unlocked
  reason : m.header.reason = BreakReason.none.word
  max_message_size : m.header.max_message_size = max

/-- What a turn leaves behind that finds the channel as `q`. -/
structure TurnEnd (max : Nat) (m : Memory) (q : BoundedQueue Bytes) (call : ManagedCall)
    (outcome : Outcome) (m' : Memory) : Prop where
  idle : Idle max m'
  answered : ∃ q', Answer max q call outcome q' ∧ Represents m' q'
  claimed : m'.history.claimed ≤ m.history.claimed + sends [(call, outcome)]
  unchanged : outcome.acts = false → Interference false m m'

section

variable {max pid : Nat} {m m' s t : Memory} {q : BoundedQueue Bytes} {receiving : Bool}

theorem Interference.relied (h : Interference false s t) (hinv : Inv false s) :
    (reliance false).rely pid s t ∧ (reliance false).inv t :=
  ⟨h.rely pid, hinv.interference h⟩

theorem Interference.same_state (h : Interference false s t) : t.header.state = s.header.state := by
  obtain ⟨_, _, _, _, hstate | ⟨hfalse, _⟩, rfl⟩ := h
  · exact hstate
  · cases hfalse

theorem Interference.reason (h : Interference false s t) : t.header.reason = s.header.reason := by
  obtain ⟨_, _, _, _, _, rfl⟩ := h
  rfl

theorem Idle.interference (h : Idle max m) (hm : Interference false m m') : Idle max m' :=
  ⟨h.inv.interference hm, hm.mutex.trans h.mutex, hm.reason.trans h.reason,
    hm.sameQueue.max.trans h.max_message_size⟩

theorem Represents.interference (h : Represents m q) (hm : Interference false m m') :
    Represents m' q := by
  refine ⟨h.capacity.trans hm.sameQueue.capacity.symm, ?_, hm.same_state.trans h.state⟩
  rw [hm.sameQueue.queue]
  exact h.messages

theorem Represents.operation_state (h : Represents m q) :
    operation_state_of m = if q.closed then .closed else .success := by
  rw [operation_state_of, h.state]
  cases q.closed <;> rfl

theorem Idle.no_entry (h : Idle max m) : m.history.entry = none := by
  by_contra hsome
  have hheld := h.inv.entry hsome
  rw [h.mutex] at hheld
  cases hheld

/-- The process that takes the mutex finds the channel settled. -/
theorem Idle.take_mutex (pid : Nat) (receiving : Bool) (h : Idle max m) :
    Inv false (managed.take_mutex pid receiving m) ∧ Owned pid receiving (managed.take_mutex pid receiving m) := by
  have hfree : m.header.mutex.is_held = false := by rw [h.mutex]; rfl
  obtain ⟨hinv, hentered⟩ := h.inv.take_mutex pid receiving hfree
  have hsettled := h.inv.unlocked h.mutex
  exact ⟨hinv, hentered, hsettled.idle, hsettled.free, hsettled.writing, hsettled.ready⟩

/-- A holder that did not touch the channel leaves what others made of it. -/
theorem Interference.released (hmutex : m.header.mutex = .unlocked) (hentry : m.history.entry = none)
    {entry : Option Entry}
    (h : Interference false { m with
      header := { m.header with mutex := .held pid }, history := { m.history with entry := entry } } m') :
    Interference false m (release_mutex m') := by
  obtain ⟨⟨_, _, _, _, _, _, _, _, _, _, _, _, _, _, _, _, _, _, _, _, _⟩, _, _, _, ⟨_, _, _, _⟩⟩ := m
  simp only at hmutex hentry
  subst hmutex hentry
  obtain ⟨state, epoch, counters, waiters, hstate, rfl⟩ := h
  exact ⟨state, epoch, counters, waiters, hstate, rfl⟩

/-- A turn that changed nothing, for which the queue has the same outcome. -/
theorem TurnEnd.same {call : ManagedCall} {outcome : Outcome} (hidle : Idle max m)
    (hq : Represents m q) (hm : Interference false m m') (hanswer : Answer max q call outcome q) :
    TurnEnd max m q call outcome m' := by
  refine ⟨hidle.interference hm, ⟨q, hanswer, hq.interference hm⟩, ?_, fun _ => hm⟩
  rw [hm.history]
  exact Nat.le_add_right _ _

/-- Without the mutex taken the guard gets it. -/
theorem guard_turn {α : Type} {k : ChannelStatus → Prog Memory α} {a : α} {mode : ManagedLockMode}
    (hidle : Idle max m)
    (hrun : Interleaved (Interference false) (managed_mutex_guard pid mode false receiving >>= k) m a t) :
    ∃ m₁, Interference false m m₁ ∧
      Interleaved (Interference false) (k .success) (take_mutex pid receiving m₁) a t := by
  obtain ⟨status, s, hguard, hk⟩ := hrun.bind_inv
  rw [managed_mutex_guard] at hguard
  obtain ⟨result, s₁, hacquire, hrest⟩ := hguard.bind_inv
  have hacquired : ∃ m₁, Interference false m m₁ ∧ result = .acquired ∧
      s₁ = take_mutex pid receiving m₁ := by
    cases mode with
    | nonblocking =>
      obtain ⟨m₁, hothers, _, hret⟩ := hacquire.act_inv
      obtain ⟨hresult, hs₁⟩ := hret.ret_inv
      have hmutex : m₁.header.mutex = .unlocked := hothers.mutex.trans hidle.mutex
      refine ⟨m₁, hothers, ?_, ?_⟩
      · rw [hresult, lock_result, hmutex]
      · rw [hs₁, hmutex]
        rfl
    | _ =>
      obtain ⟨m₁, hothers, _, hret⟩ := hacquire.act_inv
      obtain ⟨hresult, hs₁⟩ := hret.ret_inv
      have hmutex : m₁.header.mutex = .unlocked := hothers.mutex.trans hidle.mutex
      refine ⟨m₁, hothers, ?_, hs₁⟩
      rw [hresult, lock_result, hmutex]
  obtain ⟨m₁, hothers, rfl, rfl⟩ := hacquired
  obtain ⟨rfl, rfl⟩ := hrest.ret_inv
  exact ⟨m₁, hothers, hk⟩

theorem unlock_turn {α : Type} {k : Unit → Prog Memory α} {a : α}
    (hheld : s.header.mutex = .held pid)
    (hrun : Interleaved (Interference false) (guard_unlock pid >>= k) s a t) :
    ∃ s₁, Interference false s s₁ ∧
      Interleaved (Interference false) (k ()) (release_mutex s₁) a t := by
  obtain ⟨s₁, hothers, _, hrest⟩ := hrun.act_inv
  have hheld₁ : s₁.header.mutex = .held pid := hothers.mutex.trans hheld
  simp only [hheld₁, if_true] at hrest
  exact ⟨s₁, hothers, hrest⟩

/-- A quiet program adds nothing to what the others do. -/
theorem Quiet.interleaved {α : Type} {P : α → Prop} {p : Prog Memory α} {a : α}
    (hp : Quiet false P p) (hrun : Interleaved (Interference false) p s a t) :
    P a ∧ Interference false s t := by
  induction hrun with
  | ret => exact ⟨hp, Interference.refl false _⟩
  | act hothers _ _ ih =>
    obtain ⟨hP, hrest⟩ := ih (hp.2 _)
    exact ⟨hP, hothers.trans ((hp.1 _).trans hrest)⟩

/-- The state in which the owner has unlocked. -/
theorem Idle.of_release (hinv : Inv false s) (hleaving : Leaving pid s)
    (hreason : s.header.reason = BreakReason.none.word) (hmax : s.header.max_message_size = max) :
    Idle max (release_mutex s) :=
  ⟨hinv.release_mutex hleaving.settled hleaving.sound, rfl, hreason, hmax⟩

/-- A send: it publishes what the queue accepts, and otherwise changes nothing. -/
theorem send_turn {message : Bytes} {mode : ManagedLockMode} {outcome : Outcome} (hidle : Idle max m)
    (hq : Represents m q) (hroom : m.history.claimed < 2 ^ 64 - 2)
    (hrun : Interleaved (Interference false) (turn pid (.send message mode)) m outcome m') :
    TurnEnd max m q (.send message mode) outcome m' := by
  obtain ⟨m₁, hothers₁, hrest⟩ := Interleaved.load_bind_inv hrun
  have hidle₁ := hidle.interference hothers₁
  rw [hidle₁.max_message_size] at hrest
  by_cases hlarge : message.length > max
  · -- the size check comes before the lock
    rw [if_pos hlarge] at hrest
    obtain ⟨rfl, rfl⟩ := hrest.ret_inv
    refine .same hidle hq hothers₁ ?_
    rw [Answer, if_pos hlarge]
    exact ⟨rfl, rfl⟩
  rw [if_neg hlarge] at hrest
  obtain ⟨m₂, hothers₂, hlocked⟩ := guard_turn hidle₁ hrest
  have hbefore : Interference false m m₂ := hothers₁.trans hothers₂
  have hidle₂ := hidle.interference hbefore
  have hq₂ := hq.interference hbefore
  obtain ⟨hinv, howned⟩ := hidle₂.take_mutex pid false
  rw [if_neg (by decide)] at hlocked
  obtain ⟨exit, m₃, hcritical, hunlock⟩ := hlocked.bind_inv
  have hlength : message.length ≤ (take_mutex pid false m₂).header.max_message_size := by
    have hmax : (take_mutex pid false m₂).header.max_message_size = max := hidle₂.max_message_size
    omega
  obtain ⟨⟨_, howned₃, heffect⟩, hinv₃⟩ := (send_critical_safe mode howned hlength).interleaved
    (fun _ _ hE hinv => hE.relied hinv) hinv hcritical
  obtain ⟨m₄, hothers₄, hret⟩ := unlock_turn howned₃.mutex hunlock
  obtain ⟨rfl, rfl⟩ := hret.ret_inv
  have hsame {m₅ : Memory} (hm₅ : Interference false (take_mutex pid false m₂) m₅)
      (hm₄ : Interference false m₅ m₃) : Interference false m (release_mutex m₄) :=
    hbefore.trans (Interference.released hidle₂.mutex hidle₂.no_entry (hm₅.trans (hm₄.trans hothers₄)))
  have hstate {m₅ : Memory} (hm₅ : Interference false (take_mutex pid false m₂) m₅) :
      operation_state_of m₅ = if q.closed then .closed else .success := by
    refine Represents.operation_state ⟨hq₂.capacity.trans hm₅.sameQueue.capacity.symm, ?_, ?_⟩
    · rw [hm₅.sameQueue.queue]
      exact hq₂.messages
    · exact hm₅.same_state.trans hq₂.state
  have hcount : q.messages.length = (take_mutex pid false m₂).queue.length := by
    rw [hq₂.messages, List.length_map]
    rfl
  have hanswer {q' : BoundedQueue Bytes} {reply : QueueReply Bytes}
      (hstep : q.step (.send message) = (reply, q')) :
      Answer max q (.send message mode) (sent_outcome message mode reply) q' := by
    rw [Answer, if_neg hlarge, hstep]
    exact ⟨rfl, rfl⟩
  cases heffect with
  | @refused m₅ _ hm₅ hrefused hm₃ =>
    rw [hstate hm₅] at hrefused ⊢
    cases hclosed : q.closed with
    | false => simp [hclosed] at hrefused
    | true => exact .same hidle hq (hsame hm₅ hm₃) (hanswer (q.step_send_closed message hclosed))
  | exhausted _ _ hclaimed =>
    have : m₂.history.claimed = 2 ^ 64 - 2 := hclaimed
    rw [hbefore.history] at this
    omega
  | @full m₅ _ epoch hm₅ hsuccess hm₃ hfull =>
    have hopen : q.closed = false := by
      rw [hstate hm₅] at hsuccess
      cases hclosed : q.closed with
      | false => rfl
      | true => simp [hclosed] at hsuccess
    have hstep := q.step_send_full message hopen (by rw [hcount, hfull, hq₂.capacity]; exact Nat.le_refl _)
    refine .same hidle hq (hsame hm₅ hm₃) ?_
    have hfull := hanswer hstep
    simp only [sent_outcome] at hfull
    by_cases hmode : mode = .nonblocking
    · rw [if_pos hmode] at hfull ⊢
      exact hfull
    · rw [if_neg hmode] at hfull ⊢
      exact hfull
  | @published m₅ m₆ m₇ _ hm₅ hsuccess hm₆ hspace hpublished hm₃ =>
    have hopen : q.closed = false := by
      rw [hstate hm₅] at hsuccess
      cases hclosed : q.closed with
      | false => rfl
      | true => simp [hclosed] at hsuccess
    have hstep := q.step_send_room message hopen (by rw [hcount, hq₂.capacity]; exact hspace)
    have hE : Interference false (take_mutex pid false m₂) m₆ := hm₅.trans hm₆
    have hlater : Interference false m₇ m₄ := hm₃.trans hothers₄
    obtain ⟨_, _, _, _, _, _, hheader⟩ := hpublished.publishing.header
    have hcapacity₇ : m₇.header.message_capacity = m₆.header.message_capacity := by rw [hheader]
    have hmax₇ : m₇.header.max_message_size = m₆.header.max_message_size := by rw [hheader]
    have hreason₇ : m₇.header.reason = m₆.header.reason := by rw [hheader]
    have hstate₇ : m₇.header.state = m₆.header.state := by rw [hheader]
    refine ⟨?_, ⟨_, hanswer hstep, ?_, ?_, ?_⟩, ?_, fun hacts => nomatch hacts⟩
    · refine Idle.of_release (hinv₃.interference hothers₄) (howned₃.interference hothers₄).leaving ?_ ?_
      · rw [hlater.reason, hreason₇, hE.reason]
        exact hidle₂.reason
      · rw [hlater.sameQueue.max, hmax₇, hE.sameQueue.max]
        exact hidle₂.max_message_size
    · calc (q.push message _).capacity = q.capacity := rfl
        _ = m₂.header.message_capacity := hq₂.capacity
        _ = m₆.header.message_capacity := hE.sameQueue.capacity.symm
        _ = m₇.header.message_capacity := hcapacity₇.symm
        _ = m₄.header.message_capacity := hlater.sameQueue.capacity.symm
    · have hqueue : (release_mutex m₄).queue = m₂.queue ++ [(m₆.header.next_sequence, message)] :=
        calc (release_mutex m₄).queue = m₄.queue := rfl
          _ = m₇.queue := hlater.sameQueue.queue
          _ = m₆.queue ++ [(m₆.header.next_sequence, message)] := hpublished.queue
          _ = m₂.queue ++ [(m₆.header.next_sequence, message)] := by rw [hE.sameQueue.queue]; rfl
      rw [hqueue, List.map_append, ← hq₂.messages]
      rfl
    · calc (release_mutex m₄).header.state = m₄.header.state := rfl
        _ = m₇.header.state := hlater.same_state
        _ = m₆.header.state := hstate₇
        _ = m₂.header.state := hE.same_state
        _ = _ := hq₂.state
    · have hclaimed₄ := (hinv₃.interference hothers₄).claimed
      have hnext : m₄.header.next_sequence = m₂.header.next_sequence + 1 := by
        rw [hlater.sameQueue.next, hpublished.next, hE.sameQueue.next]
        rfl
      have hclaimed₂ := hidle₂.inv.claimed
      have hclaimed : m₂.history.claimed = m.history.claimed := by rw [hbefore.history]
      have hgoal : (release_mutex m₄).history.claimed = m₄.history.claimed := rfl
      have hsends : sends [(.send message mode, SendExit.published.outcome message mode)] = 1 := rfl
      omega

/-- A receive: it hands out what the queue delivers, and otherwise changes nothing. -/
theorem receive_turn {mode : ManagedLockMode} {alloc_fails : Bool} {outcome : Outcome}
    (hidle : Idle max m) (hq : Represents m q)
    (hrun : Interleaved (Interference false) (turn pid (.receive mode alloc_fails)) m outcome m') :
    TurnEnd max m q (.receive mode alloc_fails) outcome m' := by
  obtain ⟨m₂, hbefore, hlocked⟩ := guard_turn hidle hrun
  have hidle₂ := hidle.interference hbefore
  have hq₂ := hq.interference hbefore
  obtain ⟨hinv, howned⟩ := hidle₂.take_mutex pid true
  rw [if_neg (by decide)] at hlocked
  obtain ⟨exit, m₃, hcritical, hunlock⟩ := hlocked.bind_inv
  obtain ⟨⟨_, hleaving₃, heffect⟩, hinv₃⟩ := (receive_critical_safe mode alloc_fails howned).interleaved
    (fun _ _ hE hinv => hE.relied hinv) hinv hcritical
  obtain ⟨m₄, hothers₄, hret⟩ := unlock_turn hleaving₃.mutex hunlock
  obtain ⟨rfl, rfl⟩ := hret.ret_inv
  have hsame {m₅ : Memory} (hm₅ : Interference false (mark_inside (take_mutex pid true m₂)) m₅)
      (hm₄ : Interference false m₅ m₃) : Interference false m (release_mutex m₄) :=
    hbefore.trans (Interference.released hidle₂.mutex hidle₂.no_entry (hm₅.trans (hm₄.trans hothers₄)))
  have hstate {m₅ : Memory} (hm₅ : Interference false (mark_inside (take_mutex pid true m₂)) m₅) :
      operation_state_of m₅ = if q.closed then .closed else .success := by
    refine Represents.operation_state ⟨hq₂.capacity.trans hm₅.sameQueue.capacity.symm, ?_, ?_⟩
    · rw [hm₅.sameQueue.queue]
      exact hq₂.messages
    · exact hm₅.same_state.trans hq₂.state
  have hmessages : q.messages = (take_mutex pid true m₂).queue.map Prod.snd := hq₂.messages
  have hanswer {q' : BoundedQueue Bytes} {reply : QueueReply Bytes}
      (halloc : ¬(alloc_fails = true ∧ q.messages ≠ [])) (hstep : q.step .receive = (reply, q')) :
      Answer max q (.receive mode alloc_fails) (received_outcome mode reply) q' := by
    rw [Answer, if_neg halloc, hstep]
    exact ⟨rfl, rfl⟩
  cases heffect with
  | threw hfails hthrew hqueue =>
    refine .same hidle hq (hsame hthrew (Interference.refl false _)) ?_
    have hne : q.messages ≠ [] := by
      rw [hmessages]
      exact mt List.map_eq_nil_iff.mp hqueue
    rw [Answer, if_pos ⟨hfails, hne⟩]
    exact ⟨rfl, rfl⟩
  | @refused m₅ _ hm₅ hempty hrefused hm₃ =>
    have hnil : q.messages = [] := by rw [hmessages, hempty]; rfl
    rw [hstate hm₅] at hrefused ⊢
    refine .same hidle hq (hsame hm₅ hm₃) ?_
    cases hclosed : q.closed with
    | false => simp [hclosed] at hrefused
    | true =>
      have hstep := q.step_receive_nil hnil
      rw [hclosed] at hstep
      exact hanswer (fun h => h.2 hnil) hstep
  | @empty m₅ _ epoch hm₅ hempty hsuccess hm₃ =>
    have hnil : q.messages = [] := by rw [hmessages, hempty]; rfl
    have hopen : q.closed = false := by
      rw [hstate hm₅] at hsuccess
      cases hclosed : q.closed with
      | false => rfl
      | true => simp [hclosed] at hsuccess
    have hstep := q.step_receive_nil hnil
    rw [hopen] at hstep
    refine .same hidle hq (hsame hm₅ hm₃) ?_
    have hempty := hanswer (fun h => h.2 hnil) hstep
    simp only [received_outcome] at hempty
    by_cases hmode : mode = .nonblocking
    · rw [if_pos hmode] at hempty ⊢
      exact hempty
    · rw [if_neg hmode] at hempty ⊢
      exact hempty
  | @took m₆ m₇ _ message hfails hE hhead hreleased hm₃ =>
    have hcons : q.messages = message.2 :: (take_mutex pid true m₂).queue.tail.map Prod.snd := by
      rw [hmessages]
      conv_lhs => rw [hhead]
      rfl
    have hlater : Interference false m₇ m₄ := hm₃.trans hothers₄
    obtain ⟨_, _, _, hheader⟩ := hreleased.header
    have hcapacity₇ : m₇.header.message_capacity = m₆.header.message_capacity := by rw [hheader]
    have hmax₇ : m₇.header.max_message_size = m₆.header.max_message_size := by rw [hheader]
    have hreason₇ : m₇.header.reason = m₆.header.reason := by rw [hheader]
    have hstate₇ : m₇.header.state = m₆.header.state := by rw [hheader]
    refine ⟨?_, ⟨_, hanswer (fun h => ?_) (q.step_receive_cons hcons), ?_, ?_, ?_⟩, ?_,
      fun hacts => nomatch hacts⟩
    · have hleaving₄ : Leaving pid m₄ :=
        ⟨hothers₄.mutex.trans hleaving₃.mutex, hleaving₃.settled.interference hothers₄,
          hothers₄.sameQueue.sound hleaving₃.sound⟩
      refine Idle.of_release (hinv₃.interference hothers₄) hleaving₄ ?_ ?_
      · rw [hlater.reason, hreason₇, hE.reason]
        exact hidle₂.reason
      · rw [hlater.sameQueue.max, hmax₇, hE.sameQueue.max]
        exact hidle₂.max_message_size
    · rw [hfails] at h
      exact Bool.false_ne_true h.1
    · calc q.pop.capacity = q.capacity := rfl
        _ = m₂.header.message_capacity := hq₂.capacity
        _ = m₆.header.message_capacity := hE.sameQueue.capacity.symm
        _ = m₇.header.message_capacity := hcapacity₇.symm
        _ = m₄.header.message_capacity := hlater.sameQueue.capacity.symm
    · have hqueue : (release_mutex m₄).queue = (take_mutex pid true m₂).queue.tail :=
        calc (release_mutex m₄).queue = m₄.queue := rfl
          _ = m₇.queue := hlater.sameQueue.queue
          _ = m₆.queue.tail := hreleased.queue
          _ = (take_mutex pid true m₂).queue.tail := by rw [hE.sameQueue.queue]; rfl
      rw [hqueue, BoundedQueue.pop_messages, hcons]
      rfl
    · calc (release_mutex m₄).header.state = m₄.header.state := rfl
        _ = m₇.header.state := hlater.same_state
        _ = m₆.header.state := hstate₇
        _ = m₂.header.state := hE.same_state
        _ = _ := hq₂.state
    · have hclaimed : (release_mutex m₄).history.claimed = m.history.claimed :=
        calc (release_mutex m₄).history.claimed = m₄.history.claimed := rfl
          _ = m₇.history.claimed := by rw [hlater.history]
          _ = m₆.history.claimed := by rw [hreleased.history]
          _ = m₂.history.claimed := by rw [hE.history]; rfl
          _ = m.history.claimed := by rw [hbefore.history]
      rw [hclaimed]
      exact Nat.le_add_right _ _

/-- A close: the first one closes the queue. -/
theorem close_turn {outcome : Outcome} (hidle : Idle max m) (hq : Represents m q)
    (hrun : Interleaved (Interference false) (turn pid .close) m outcome m') :
    TurnEnd max m q .close outcome m' := by
  obtain ⟨m₁, hbefore, hlocked⟩ := guard_turn hidle hrun
  have hidle₁ := hidle.interference hbefore
  have hq₁ := hq.interference hbefore
  obtain ⟨hinv, howned⟩ := hidle₁.take_mutex pid false
  rw [if_neg (by decide)] at hlocked
  obtain ⟨stored, m₂, hcritical, hunlock⟩ := hlocked.bind_inv
  obtain ⟨⟨howned₂, _⟩, hinv₂⟩ := (close_critical_safe howned).interleaved
    (fun _ _ hE hinv => hE.relied hinv) hinv hcritical
  obtain ⟨m₃, hothers₃, hret⟩ := unlock_turn howned₂.mutex hunlock
  obtain ⟨m₄, hothers₄, hstored⟩ := Interleaved.load_bind_inv hcritical
  have hstate₄ : m₄.header.state = m₁.header.state := hothers₄.same_state
  rw [hstate₄, hq₁.state] at hstored
  cases hclosed : q.closed with
  | true =>
    rw [hclosed, if_pos rfl, if_pos (by decide)] at hstored
    obtain ⟨rfl, rfl⟩ := hstored.ret_inv
    obtain ⟨rfl, rfl⟩ := hret.ret_inv
    have hsame : Interference false m (release_mutex m₃) :=
      hbefore.trans (Interference.released hidle₁.mutex hidle₁.no_entry (hothers₄.trans hothers₃))
    refine .same hidle hq hsame ⟨by rw [hclosed]; rfl, ?_⟩
    exact BoundedQueue.ext rfl rfl hclosed
  | false =>
    rw [hclosed, if_neg (by decide)] at hstored
    obtain ⟨m₅, hothers₅, hreturn⟩ := Interleaved.store_bind_inv hstored
    obtain ⟨rfl, rfl⟩ := hreturn.ret_inv
    have hquiet : Quiet false (fun outcome : Outcome => outcome = .closed true)
        (signal_managed_event >>= fun _ => .ret (.closed true)) := quiet_signal.bind fun _ _ => rfl
    obtain ⟨rfl, hafter⟩ := hquiet.interleaved hret
    have hE : Interference false (take_mutex pid false m₁) m₅ := hothers₄.trans hothers₅
    have hclosed₃ : m₃.header.state = ManagedChannelState.closed.word := hothers₃.same_state
    refine ⟨?_, ⟨{ q with closed := true }, ⟨by rw [hclosed]; rfl, rfl⟩, ?_, ?_, ?_⟩, ?_,
      fun hacts => nomatch hacts⟩
    · refine Idle.interference (Idle.of_release (hinv₂.interference hothers₃)
        (howned₂.interference hothers₃).leaving ?_ ?_) hafter
      · calc m₃.header.reason = m₅.header.reason := hothers₃.reason
          _ = m₁.header.reason := hE.reason
          _ = _ := hidle₁.reason
      · calc m₃.header.max_message_size = m₅.header.max_message_size := hothers₃.sameQueue.max
          _ = m₁.header.max_message_size := hE.sameQueue.max
          _ = _ := hidle₁.max_message_size
    · calc q.capacity = m₁.header.message_capacity := hq₁.capacity
        _ = m₅.header.message_capacity := hE.sameQueue.capacity.symm
        _ = m₃.header.message_capacity := hothers₃.sameQueue.capacity.symm
        _ = m'.header.message_capacity := hafter.sameQueue.capacity.symm
    · have hqueue : m'.queue = m₁.queue :=
        calc m'.queue = m₃.queue := hafter.sameQueue.queue
          _ = m₅.queue := hothers₃.sameQueue.queue
          _ = m₁.queue := hE.sameQueue.queue
      rw [hqueue]
      exact hq₁.messages
    · rw [hafter.same_state]
      exact hclosed₃
    · have hclaimed : m'.history.claimed = m.history.claimed :=
        calc m'.history.claimed = m₃.history.claimed := by rw [hafter.history]; rfl
          _ = m₅.history.claimed := by rw [hothers₃.history]; rfl
          _ = m₁.history.claimed := by rw [hE.history]; rfl
          _ = m.history.claimed := by rw [hbefore.history]
      rw [hclaimed]
      exact Nat.le_add_right _ _

/-- A read of the statistics. -/
theorem stats_turn {outcome : Outcome} (hidle : Idle max m) (hq : Represents m q)
    (hrun : Interleaved (Interference false) (turn pid .stats) m outcome m') :
    TurnEnd max m q .stats outcome m' := by
  obtain ⟨m₁, hothers₁, hrest⟩ := Interleaved.load_bind_inv hrun
  have hidle₁ := hidle.interference hothers₁
  have hq₁ := hq.interference hothers₁
  obtain ⟨m₂, hothers₂, hlocked⟩ := guard_turn hidle₁ hrest
  have hidle₂ := hidle₁.interference hothers₂
  obtain ⟨hinv, howned⟩ := hidle₂.take_mutex pid false
  rw [if_pos rfl] at hlocked
  obtain ⟨m₃, hothers₃, hunlock⟩ := Interleaved.load_bind_inv hlocked
  have howned₃ := howned.interference hothers₃
  obtain ⟨m₄, hothers₄, hret⟩ := unlock_turn howned₃.mutex hunlock
  obtain ⟨rfl, rfl⟩ := hret.ret_inv
  have hbefore : Interference false m m₂ := hothers₁.trans hothers₂
  refine .same hidle hq (hbefore.trans
    (Interference.released hidle₂.mutex hidle₂.no_entry (hothers₃.trans hothers₄))) ?_
  have hqueue : m₃.queue.length = q.messages.length := by
    rw [hothers₃.sameQueue.queue, hq.messages, List.length_map, ← hbefore.sameQueue.queue]
    rfl
  have hcapacity : m₃.header.message_capacity = q.capacity := by
    rw [hothers₃.sameQueue.capacity, hq.capacity, ← hbefore.sameQueue.capacity]
    rfl
  have hready : m₃.header.ready_messages = q.messages.length := by
    rw [howned₃.settled.ready, ← Memory.queue_length, hqueue]
  have hfree : m₃.header.free_slots = q.capacity - q.messages.length := by
    have := howned₃.free_slots
    omega
  refine ⟨rfl, m₃.header.counters, ?_⟩
  rw [hfree, hready, howned₃.settled.writing, hq₁.state, hidle₁.reason, hidle₁.max_message_size,
    ← hq₁.capacity]

/-- One turn is one call of the queue. -/
theorem turn_end {call : ManagedCall} {outcome : Outcome} (hidle : Idle max m) (hq : Represents m q)
    (hroom : m.history.claimed + sends [(call, outcome)] < 2 ^ 64 - 1)
    (hrun : Interleaved (Interference false) (turn pid call) m outcome m') :
    TurnEnd max m q call outcome m' := by
  cases call with
  | send message mode =>
    have hsends : sends [(.send message mode, outcome)] = 1 := rfl
    exact send_turn hidle hq (by omega) hrun
  | receive mode alloc_fails => exact receive_turn hidle hq hrun
  | close => exact close_turn hidle hq hrun
  | stats => exact stats_turn hidle hq hrun

theorem sends_cons (call : ManagedCall) (outcome : Outcome) (trace : List (ManagedCall × Outcome)) :
    sends ((call, outcome) :: trace) = sends [(call, outcome)] + sends trace := by
  rw [sends, sends, sends, ← List.countP_append, List.singleton_append]

/-- Every sequence of turns is a sequence of calls of the queue. -/
theorem Turns.answers {trace : List (ManagedCall × Outcome)} (hturns : Turns m trace m')
    (hidle : Idle max m) (hq : Represents m q) (hroom : m.history.claimed + sends trace < 2 ^ 64 - 2) :
    Idle max m' ∧ m'.history.claimed ≤ m.history.claimed + sends trace ∧
      ∃ q', Answers max q trace q' ∧ Represents m' q' := by
  induction hturns generalizing q with
  | nil hothers =>
    refine ⟨hidle.interference hothers, ?_, q, rfl, hq.interference hothers⟩
    rw [hothers.history]
    exact Nat.le_add_right _ _
  | @cons pid call outcome m m₁ m' trace hturn _ ih =>
    rw [sends_cons] at hroom ⊢
    have hend := turn_end hidle hq (by omega) hturn
    obtain ⟨q₁, hanswer, hq₁⟩ := hend.answered
    have hclaimed := hend.claimed
    obtain ⟨hidle', hclaimed', q', hanswers, hq'⟩ := ih hend.idle hq₁ (by omega)
    exact ⟨hidle', by omega, q', ⟨q₁, hanswer, hanswers⟩, hq'⟩

/-- Nobody has the mutex: the counts are exact and validation succeeds. -/
theorem Idle.consistent (h : Idle max m) : Consistent m := by
  have hsettled := h.inv.unlocked h.mutex
  have hsound := h.inv.sound h.no_entry
  refine ⟨h.mutex, h.reason, fun i hi => ?_, hsettled.free, hsettled.ready, hsettled.writing,
    fun i hi hready => (hsound.wellFormed.ready i hi hready).2, hsound.wellFormed.distinct, ?_⟩
  · rcases hsound.wellFormed.states i hi with hfree | hwriting | hready
    · exact .inl hfree
    · exact absurd hwriting (hsettled.idle i hi)
    · exact .inr hready
  · intro pid receiving result m' hrun
    obtain ⟨hinv, howned⟩ := h.take_mutex pid receiving
    exact ((validate_managed_slots_safe hinv howned).interleaved
      (fun _ _ hE hinv => hE.relied hinv) hinv hrun).1.1

/-- A call that gives out what it takes from the front and takes in what it
    accepts at the back. -/
theorem Answer.conserved {call : ManagedCall} {outcome : Outcome} {q₁ : BoundedQueue Bytes}
    (h : Answer max q call outcome q₁) :
    q.messages ++ accepted_by call outcome = outcome.payloads ++ q₁.messages := by
  cases call with
  | send message mode =>
    rw [Answer] at h
    by_cases hlarge : message.length > max
    · rw [if_pos hlarge] at h
      obtain ⟨rfl, rfl⟩ := h
      exact List.append_nil _
    rw [if_neg hlarge] at h
    obtain ⟨rfl, rfl⟩ := h
    cases hclosed : q.closed with
    | true =>
      rw [q.step_send_closed message hclosed]
      exact List.append_nil _
    | false =>
      by_cases hroom : q.messages.length < q.capacity
      · rw [q.step_send_room message hclosed hroom]
        rfl
      · rw [q.step_send_full message hclosed (Nat.not_lt.mp hroom)]
        simp only [sent_outcome]
        split_ifs <;> exact List.append_nil _
  | receive mode alloc_fails =>
    rw [Answer] at h
    split_ifs at h with hfails
    · obtain ⟨rfl, rfl⟩ := h
      exact List.append_nil _
    obtain ⟨rfl, rfl⟩ := h
    cases hmessages : q.messages with
    | cons message rest =>
      rw [q.step_receive_cons hmessages, BoundedQueue.pop_messages, hmessages]
      exact List.append_nil _
    | nil =>
      rw [q.step_receive_nil hmessages, hmessages]
      cases q.closed with
      | true => rfl
      | false =>
        simp only [received_outcome]
        split_ifs <;> rfl
  | close =>
    obtain ⟨rfl, rfl⟩ := h
    exact List.append_nil _
  | stats =>
    obtain ⟨rfl, counters, rfl⟩ := h
    exact List.append_nil _

/-- What the queue accepted and has not delivered is what it holds. -/
theorem Answers.conserved {trace : List (ManagedCall × Outcome)} {q' : BoundedQueue Bytes}
    (h : Answers max q trace q') : q.messages ++ accepted trace = returned trace ++ q'.messages := by
  induction trace generalizing q with
  | nil =>
    obtain rfl := h
    exact List.append_nil _
  | cons x trace ih =>
    obtain ⟨q₁, hanswer, hrest⟩ := h
    calc q.messages ++ accepted (x :: trace)
        = (q.messages ++ accepted_by x.1 x.2) ++ accepted trace := by
          rw [List.append_assoc]
          rfl
      _ = x.2.payloads ++ (q₁.messages ++ accepted trace) := by
          rw [hanswer.conserved, List.append_assoc]
      _ = returned (x :: trace) ++ q'.messages := by
          rw [ih hrest, ← List.append_assoc]
          rfl

theorem initialized_idle {options : ManagedChannelOptions} {layout : ManagedLayout}
    (hlayout : checked_managed_layout options.message_capacity options.max_message_size = .ok layout) :
    Idle options.max_message_size (initialized options layout) ∧
      Represents (initialized options layout) (BoundedQueue.empty Bytes options.message_capacity) ∧
      (initialized options layout).history.claimed = 0 := by
  obtain ⟨hinv, hmutex, _⟩ := initialized_inv false hlayout
  rw [initialized_eq] at hinv hmutex ⊢
  refine ⟨⟨hinv, hmutex, rfl, rfl⟩, ⟨rfl, ?_, rfl⟩, rfl⟩
  have hqueue : [] = [] ++ Memory.queue _ := (hinv.sound rfl).history
  rw [List.nil_append] at hqueue
  exact congrArg (List.map Prod.snd) hqueue

/-- The queue accepts a message exactly when it is open, the message is small
    enough and there is room. -/
theorem Answer.send_success_iff {message : Bytes} {mode : ManagedLockMode} {outcome : Outcome}
    {q' : BoundedQueue Bytes} (h : Answer max q (.send message mode) outcome q') :
    outcome = .sent .success ↔
      q.closed = false ∧ message.length ≤ max ∧ q.messages.length < q.capacity := by
  rw [Answer] at h
  by_cases hlarge : message.length > max
  · rw [if_pos hlarge] at h
    obtain ⟨rfl, -⟩ := h
    exact ⟨(fun h => nomatch h), fun h => absurd h.2.1 (Nat.not_le.mpr hlarge)⟩
  rw [if_neg hlarge] at h
  obtain ⟨rfl, -⟩ := h
  cases hclosed : q.closed with
  | true =>
    rw [q.step_send_closed message hclosed]
    exact ⟨(fun h => nomatch h), fun h => nomatch h.1⟩
  | false =>
    by_cases hroom : q.messages.length < q.capacity
    · rw [q.step_send_room message hclosed hroom]
      exact ⟨fun _ => ⟨rfl, Nat.not_lt.mp hlarge, hroom⟩, fun _ => rfl⟩
    · rw [q.step_send_full message hclosed (Nat.not_lt.mp hroom)]
      refine ⟨fun h => ?_, fun h => absurd h.2.2 hroom⟩
      simp only [sent_outcome] at h
      split_ifs at h
      · cases h

/-- What one more turn does: a send publishes exactly when the channel is
    healthy, the message is small enough and fewer messages are queued than
    there are slots; a turn that is refused changes nothing. -/
structure NextTurn (max : Nat) (m : Memory) (call : ManagedCall) (outcome : Outcome) (m' : Memory) :
    Prop where
  publishes : ∀ message mode, call = .send message mode →
    (outcome = .sent .success ↔ m.header.state = ManagedChannelState.healthy.word ∧
      message.length ≤ max ∧ m.queue.length < m.header.message_capacity)
  refused : outcome.acts = false → Interference false m m'

/-- Without deaths and without `unlink` the channel is a bounded queue: after
    any sequence of turns, with fewer than 2^64 - 2 sends, the slots and the
    counts are consistent and every outcome is the queue's. -/
theorem turns_refine_queue {options : ManagedChannelOptions} {layout : ManagedLayout}
    (hlayout : checked_managed_layout options.message_capacity options.max_message_size = .ok layout)
    {trace : List (ManagedCall × Outcome)} {m : Memory}
    (hturns : Turns (initialized options layout) trace m) (hsends : sends trace < 2 ^ 64 - 2) :
    Consistent m ∧
      (∃ q, Answers options.max_message_size (BoundedQueue.empty Bytes options.message_capacity) trace q ∧
        Represents m q) ∧
      accepted trace = returned trace ++ m.queue.map Prod.snd ∧
      ∀ pid call outcome m', Interleaved (Interference false) (turn pid call) m outcome m' →
        NextTurn options.max_message_size m call outcome m' := by
  obtain ⟨hidle₀, hq₀, hclaimed₀⟩ := initialized_idle hlayout
  obtain ⟨hidle, hclaimed, q, hanswers, hq⟩ := hturns.answers hidle₀ hq₀ (by omega)
  refine ⟨hidle.consistent, ⟨q, hanswers, hq⟩, ?_, fun pid call outcome m' hrun => ?_⟩
  · rw [← hq.messages]
    exact hanswers.conserved
  · have hone : sends [(call, outcome)] ≤ 1 := List.countP_le_length
    have hend := turn_end hidle hq (by omega) hrun
    obtain ⟨q', hanswer, _⟩ := hend.answered
    refine ⟨?_, hend.unchanged⟩
    rintro message mode rfl
    rw [hanswer.send_success_iff, hq.state, ← hq.capacity, hq.messages, List.length_map]
    refine and_congr_left fun _ => ?_
    cases q.closed <;> decide

/-- Turns that nobody interrupts, each with the process that takes it. -/
def take_turns : List (Nat × ManagedCall) → Memory → List (ManagedCall × Outcome) × Memory
  | [], m => ([], m)
  | (pid, call) :: rest, m =>
    let (outcome, m₁) := (turn pid call).exec m
    let (trace, last) := take_turns rest m₁
    ((call, outcome) :: trace, last)

/-- None of the turns has to wait. -/
def turns_unblocked : List (Nat × ManagedCall) → Memory → Bool
  | [], _ => true
  | (pid, call) :: rest, m => (turn pid call).unblocked m && turns_unblocked rest ((turn pid call).exec m).2

theorem Turns.alone {calls : List (Nat × ManagedCall)} (hruns : turns_unblocked calls m = true) :
    Turns m (take_turns calls m).1 (take_turns calls m).2 := by
  induction calls generalizing m with
  | nil => exact .nil (Interference.refl false m)
  | cons first rest ih =>
    rw [turns_unblocked, Bool.and_eq_true] at hruns
    exact .cons (.alone (Interference.refl false) hruns.1) (ih hruns.2)

def three_slots : ManagedChannelOptions := { one_slot with message_capacity := 3 }

def three_slots_layout : ManagedLayout :=
  { one_slot_layout with payload_offset := 640, mapping_size := 832 }

/-- The channel is filled, half emptied, filled again from its first slot on,
    refuses a message, and hands out the oldest one. -/
def exchanges : List (Nat × ManagedCall) :=
  [(0, .send [1] .nonblocking), (1, .send [2] .nonblocking), (0, .send [3] .nonblocking),
    (2, .receive .nonblocking false), (3, .receive .nonblocking false), (1, .send [4] .nonblocking),
    (0, .send [5] .nonblocking), (1, .send [6] .nonblocking), (2, .receive .nonblocking false)]

theorem turns_refine_queue_three_slots :
    let m := (take_turns exchanges (initialized three_slots three_slots_layout)).2
    (∃ q, Answers 4 (BoundedQueue.empty Bytes 3)
        (take_turns exchanges (initialized three_slots three_slots_layout)).1 q ∧ Represents m q) ∧
      [[1], [2], [3], [4], [5]] = [[1], [2], [3]] ++ m.queue.map Prod.snd := by
  intro m
  have hlayout : checked_managed_layout three_slots.message_capacity three_slots.max_message_size =
      .ok three_slots_layout := by decide +kernel
  have hruns : turns_unblocked exchanges (initialized three_slots three_slots_layout) = true := by decide +kernel
  have hturns := Turns.alone hruns
  have hrefines := turns_refine_queue hlayout hturns (by decide +kernel)
  have haccepted : accepted (take_turns exchanges (initialized three_slots three_slots_layout)).1 =
      [[1], [2], [3], [4], [5]] := by decide +kernel
  have hreturned : returned (take_turns exchanges (initialized three_slots three_slots_layout)).1 =
      [[1], [2], [3]] := by decide +kernel
  have hconserved := hrefines.2.2.1
  rw [haccepted, hreturned] at hconserved
  exact ⟨hrefines.2.1, hconserved⟩

end

end shmchan.managed
