import Shmchan.ByteChannel.Alone.Send
import Shmchan.ByteChannel.Alone.Receive
import Shmchan.ByteChannel.Runs
import Shmchan.Process.BoundedQueue

open process shmchan.endpoint

namespace shmchan.byte_channel

/-- What a message takes of the budget: a header of 32 bytes and its own size,
    rounded up to a multiple of 32. -/
def cost (message : Bytes) : Nat := (32 + message.length + 31) / 32 * 32

/-- What a byte channel is for: a queue of messages within a budget of bytes,
    which can be closed. `reserved` adds up all that has been taken so far. -/
structure ByteQueue where
  capacity : Nat
  messages : List Bytes
  closed : Bool
  reserved : Nat
  within : (messages.map cost).sum ≤ capacity

namespace ByteQueue

def used (q : ByteQueue) : Nat := (q.messages.map cost).sum

def empty (capacity : Nat) : ByteQueue where
  capacity := capacity
  messages := []
  closed := false
  reserved := 0
  within := Nat.zero_le _

def push (q : ByteQueue) (message : Bytes) (hroom : q.used + cost message ≤ q.capacity) : ByteQueue where
  capacity := q.capacity
  messages := q.messages ++ [message]
  closed := q.closed
  reserved := q.reserved + cost message
  within := by
    rw [List.map_append, List.sum_append, List.map_singleton, List.sum_singleton]
    exact hroom

def pop (q : ByteQueue) : ByteQueue where
  capacity := q.capacity
  messages := q.messages.tail
  closed := q.closed
  reserved := q.reserved
  within := by
    obtain ⟨capacity, messages, closed, reserved, within⟩ := q
    cases messages with
    | nil => exact within
    | cons message rest =>
      rw [List.map_cons, List.sum_cons] at within
      simp only [List.tail_cons]
      omega

/-- One call and its reply. -/
def step (q : ByteQueue) : QueueCall Bytes → Reply Bytes × ByteQueue
  | .send message =>
    if message.length > q.capacity - 32 then (.sent .message_too_large, q)
    else if q.closed then (.sent .closed, q)
    else if hroom : q.used + cost message ≤ q.capacity then (.sent .success, q.push message hroom)
    else (.sent .would_block, q)
  | .receive =>
    match q.messages with
    | message :: _ => (.received { code := .success, value := some message }, q.pop)
    | [] => (.received { code := if q.closed then .closed else .would_block }, q)
  | .close => (.closing (!q.closed), { q with closed := true })

theorem step_send_large (q : ByteQueue) {message : Bytes} (hlarge : message.length > q.capacity - 32) :
    q.step (.send message) = (.sent .message_too_large, q) :=
  if_pos hlarge

theorem step_send_closed (q : ByteQueue) {message : Bytes} (hsize : ¬ message.length > q.capacity - 32)
    (hclosed : q.closed = true) : q.step (.send message) = (.sent .closed, q) := by
  rw [step, if_neg hsize, if_pos hclosed]

theorem step_send_room (q : ByteQueue) {message : Bytes} (hsize : ¬ message.length > q.capacity - 32)
    (hopen : q.closed = false) (hroom : q.used + cost message ≤ q.capacity) :
    q.step (.send message) = (.sent .success, q.push message hroom) := by
  rw [step, if_neg hsize, hopen, if_neg Bool.false_ne_true, dif_pos hroom]

theorem step_send_full (q : ByteQueue) {message : Bytes} (hsize : ¬ message.length > q.capacity - 32)
    (hopen : q.closed = false) (hfull : ¬ q.used + cost message ≤ q.capacity) :
    q.step (.send message) = (.sent .would_block, q) := by
  rw [step, if_neg hsize, hopen, if_neg Bool.false_ne_true, dif_neg hfull]

theorem step_receive_cons (q : ByteQueue) {message : Bytes} {rest : List Bytes}
    (hmessages : q.messages = message :: rest) :
    q.step .receive = (.received { code := .success, value := some message }, q.pop) := by
  obtain ⟨capacity, messages, closed, reserved, within⟩ := q
  subst hmessages
  rfl

theorem step_receive_nil (q : ByteQueue) (hmessages : q.messages = []) :
    q.step .receive = (.received { code := if q.closed then .closed else .would_block }, q) := by
  obtain ⟨capacity, messages, closed, reserved, within⟩ := q
  subst hmessages
  rfl

/-- The replies to a sequence of calls, each with the queue after it. -/
def run (q : ByteQueue) : List (QueueCall Bytes) → List (Reply Bytes × ByteQueue)
  | [] => []
  | call :: calls => q.step call :: run (q.step call).2 calls

end ByteQueue

/-- What a call asks for, with chances that let it end: some exchange does not
    fail spuriously, and no allocation fails. -/
inductive Call.Asks : Call → QueueCall Bytes → Prop where
  | try_send {message : Bytes} {registration : List Bool} {chances : EnqueueChances}
      (hregistration : false ∈ registration) (hattempts : false ∈ chances.attempts) :
      Asks (.try_send message registration chances) (.send message)
  | try_receive {first second : DequeueChances} (hable : first.Able) :
      Asks (.try_receive first second) .receive
  | close : Asks .close .close

/-- A call that has run alone: whether none of its actions waited, its reply,
    and the memory after it. -/
structure Turn where
  unblocked : Bool
  reply : Reply Bytes
  memory : Memory

/-- Calls of any processes, executed one after another. -/
def sequential (channel : ByteChannel) (s : Memory) : List (Nat × Call) → List Turn
  | [] => []
  | (pid, call) :: calls =>
    let program := call.run channel pid
    ⟨program.unblocked s, (program.exec s).1, (program.exec s).2⟩ :: sequential channel (program.exec s).2 calls

/-- The memory of a channel at rest holds the queue: its records between
    `claim_position` and `write_position`, and nothing else in use. -/
structure Represents (channel : ByteChannel) (q : ByteQueue) (s : Memory) : Prop where
  inv : Inv channel s
  resting : (outline s).Resting
  capacity : q.capacity = channel.capacity_bytes
  messages : q.messages =
    (List.range' s.log.claimed (s.log.count - s.log.claimed)).map s.log.message
  closed : q.closed = decide (s.closings = 1)
  reserved : q.reserved = offset s.log.message s.log.count

section

variable {channel : ByteChannel} {q : ByteQueue} {s s' : Memory}

theorem record_size_cost {message : Bytes} (h : message.length < 2 ^ 63) :
    record_size message.length = cost message := by
  rw [record_size_eq h, cost]
  omega

/-- The records in a row take what their messages cost. -/
theorem offset_add {message : Nat → Bytes} {first count : Nat}
    (h : ∀ i < first + count, (message i).length < 2 ^ 63) :
    offset message (first + count) =
      offset message first + (((List.range' first count).map message).map cost).sum := by
  induction count with
  | zero => rfl
  | succ count ih =>
    rw [← Nat.add_assoc, offset, ih fun i hi => h i (by omega), List.range'_1_concat, List.map_append,
      List.map_append, List.sum_append, List.map_singleton, List.map_singleton, List.sum_singleton,
      record_size_cost (h _ (by omega)), Nat.add_assoc]

theorem Represents.used (h : Represents channel q s) :
    offset s.log.message s.log.count = offset s.log.message s.log.claimed + q.used := by
  have hbounded := channel.bounded
  have hclaimed := h.inv.placed.claimed_le
  have hsum : s.log.claimed + (s.log.count - s.log.claimed) = s.log.count := by omega
  have hadd := @offset_add s.log.message s.log.claimed (s.log.count - s.log.claimed) fun i hi => by
    have := h.inv.placed.fits i (by omega)
    omega
  rw [hsum, ← h.messages] at hadd
  exact hadd

/-- The positions of a channel at rest. -/
theorem Represents.positions (h : Represents channel q s) :
    s.ring.reclaim_position = s.ring.claim_position ∧
      s.ring.write_position = s.ring.claim_position + q.used := by
  have hplaced := h.inv.placed
  rw [hplaced.write_position, hplaced.claim_position, hplaced.reclaim_position,
    h.inv.all_reclaimed h.resting.receiving]
  exact ⟨rfl, h.used⟩

/-- The records that are not claimed are published. -/
theorem Represents.published (h : Represents channel q s) {i : Nat} (hi : s.log.claimed ≤ i)
    (hi' : i < s.log.count) : s.log.phase i = .published := by
  have hvacant := h.inv.phased.occupied i hi'
  have hconsumed := h.inv.phased.ahead i hi
  have hholder := h.resting.holder i
  cases hphase : s.log.phase i with
  | vacant => exact absurd hphase hvacant
  | reserved pid => exact absurd (by rw [show (outline s).log.phase i = .reserved pid from hphase]; rfl) (hholder pid)
  | published => rfl
  | claimed pid => exact absurd (by rw [show (outline s).log.phase i = .claimed pid from hphase]; rfl) (hholder pid)
  | consumed => exact absurd hphase hconsumed

/-- There is room for a record when the queue has room for its message. -/
theorem Represents.room_iff (h : Represents channel q s) {message : Bytes}
    (hfits : message.length + 32 ≤ channel.capacity_bytes) :
    (outline s).Room channel message.length ↔ q.used + cost message ≤ q.capacity := by
  have hbounded := channel.bounded
  have hused := h.used
  have hreclaimed := h.inv.all_reclaimed h.resting.receiving
  have hiff : (outline s).Room channel message.length ↔
      offset s.log.message s.log.count + record_size message.length ≤
        offset s.log.message s.ring.reclaimed + channel.capacity_bytes := Iff.rfl
  rw [hiff, record_size_cost (by omega), hused, hreclaimed, h.capacity]
  omega

theorem Represents.stands (h : Represents channel q s) : Stands channel (outline s) s := ⟨h.inv, rfl⟩

/-- What does not change the log keeps the queue. -/
theorem Represents.same (h : Represents channel q s) (hstands : Stands channel (outline s) s') :
    Represents channel q s' := by
  obtain ⟨hinv, houtline⟩ := hstands
  have hlog : s'.log = s.log := congrArg Outline.log houtline
  have hclosings : s'.closings = s.closings := congrArg Outline.closings houtline
  refine ⟨hinv, ?_, h.capacity, ?_, ?_, ?_⟩
  · rw [houtline]
    exact h.resting
  · rw [hlog]
    exact h.messages
  · rw [hclosings]
    exact h.closed
  · rw [hlog]
    exact h.reserved

theorem Represents.enqueue (h : Represents channel q s) {message : Bytes}
    (hfits : message.length + 32 ≤ channel.capacity_bytes) (hroom : q.used + cost message ≤ q.capacity)
    (hstands : Stands channel ((outline s).enqueue message) s') :
    Represents channel (q.push message hroom) s' := by
  obtain ⟨hinv, houtline⟩ := hstands
  have hbounded := channel.bounded
  have hclaimed := h.inv.placed.claimed_le
  have hlog : s'.log = ((outline s).enqueue message).log := congrArg Outline.log houtline
  have hclosings : s'.closings = s.closings := congrArg Outline.closings houtline
  refine ⟨hinv, ?_, h.capacity, ?_, ?_, ?_⟩
  · rw [houtline]
    exact h.resting.enqueue message
  · have hcount : s.log.count + 1 - s.log.claimed = s.log.count - s.log.claimed + 1 := by omega
    have hlast : s.log.claimed + (s.log.count - s.log.claimed) = s.log.count := by omega
    have hbefore : (List.range' s.log.claimed (s.log.count - s.log.claimed)).map
        (Function.update s.log.message s.log.count message) = q.messages := by
      rw [h.messages]
      apply List.map_congr_left
      intro i hi
      rw [List.mem_range'_1] at hi
      exact Function.update_of_ne (by omega) _ _
    rw [hlog]
    simp only [Outline.enqueue, outline, ByteQueue.push, hcount]
    rw [List.range'_1_concat, List.map_append, hbefore, List.map_singleton, hlast, Function.update_self]
  · rw [hclosings]
    exact h.closed
  · rw [hlog]
    simp only [Outline.enqueue, outline, ByteQueue.push]
    rw [offset_snoc, h.reserved, record_size_cost (by omega)]

theorem Represents.dequeue (h : Represents channel q s) (hlt : s.log.claimed < s.log.count)
    (hstands : Stands channel (outline s).dequeue s') : Represents channel q.pop s' := by
  obtain ⟨hinv, houtline⟩ := hstands
  have hlog : s'.log = (outline s).dequeue.log := congrArg Outline.log houtline
  have hclosings : s'.closings = s.closings := congrArg Outline.closings houtline
  refine ⟨hinv, ?_, h.capacity, ?_, ?_, ?_⟩
  · rw [houtline]
    exact h.resting.dequeue
  · have hcount : s.log.count - s.log.claimed = s.log.count - (s.log.claimed + 1) + 1 := by omega
    rw [hlog]
    simp only [Outline.dequeue, outline, ByteQueue.pop]
    rw [h.messages, hcount, List.range'_succ, List.map_cons, List.tail_cons]
  · rw [hclosings]
    exact h.closed
  · rw [hlog]
    exact h.reserved

theorem Represents.close (h : Represents channel q s) (hstands : Stands channel (outline s).close s') :
    Represents channel { q with closed := true } s' := by
  obtain ⟨hinv, houtline⟩ := hstands
  have hlog : s'.log = s.log := congrArg Outline.log houtline
  have hclosings : s'.closings = 1 := congrArg Outline.closings houtline
  refine ⟨hinv, ?_, h.capacity, ?_, ?_, ?_⟩
  · rw [houtline]
    exact { h.resting with }
  · rw [hlog]
    exact h.messages
  · rw [hclosings]
    rfl
  · rw [hlog]
    exact h.reserved

theorem Represents.try_send (h : Represents channel q s) {message : Bytes} {registration : List Bool}
    {chances : EnqueueChances} (hregistration : false ∈ registration) (hattempts : false ∈ chances.attempts)
    (htotal : (q.step (.send message)).2.reserved < 2 ^ 64) (pid : Nat) :
    AloneWithin (Inv channel)
      (fun reply s' => reply = (q.step (.send message)).1 ∧ Represents channel (q.step (.send message)).2 s')
      ((Call.try_send message registration chances).run channel pid) s := by
  have hbounded := channel.bounded
  have hlarger := channel.larger
  have hmax : max_message_size channel = q.capacity - 32 := by
    rw [max_message_size, sizeof_record_header, h.capacity]
  rw [Call.run]
  by_cases hlarge : message.length > q.capacity - 32
  · rw [hmax, if_pos hlarge, q.step_send_large hlarge]
    exact ⟨rfl, h⟩
  rw [hmax, if_neg hlarge]
  have hfits : message.length + 32 ≤ channel.capacity_bytes := by
    rw [h.capacity] at hlarge
    omega
  have hopen_iff : s.closings = 0 → q.closed = false := by
    intro hzero
    rw [h.closed, hzero]
    rfl
  have hbytes : (outline s).closings = 0 → (outline s).Room channel message.length →
      offset s.log.message s.log.count + record_size message.length < 2 ^ 64 := by
    intro hopen hroom
    rw [q.step_send_room hlarge (hopen_iff hopen) ((h.room_iff hfits).mp hroom)] at htotal
    rw [← h.reserved, record_size_cost (by omega)]
    exact htotal
  apply (try_send_alone hregistration hattempts hfits hbytes h.resting h.stands).bind
  rintro _ s' (⟨hclosed, rfl, h'⟩ | ⟨hopen, ⟨hroom, rfl, h'⟩ | ⟨hroom, rfl, h'⟩⟩)
  · have hclosed : q.closed = true := by
      rw [h.closed]
      exact decide_eq_true hclosed
    rw [q.step_send_closed hlarge hclosed]
    exact ⟨rfl, h.same h'⟩
  · have hroom' := (h.room_iff hfits).mp hroom
    rw [q.step_send_room hlarge (hopen_iff hopen) hroom']
    exact ⟨rfl, h.enqueue hfits hroom' h'⟩
  · rw [q.step_send_full hlarge (hopen_iff hopen) (mt (h.room_iff hfits).mpr hroom)]
    exact ⟨rfl, h.same h'⟩

theorem Represents.try_receive (h : Represents channel q s) {first second : DequeueChances}
    (hable : first.Able) (pid : Nat) :
    AloneWithin (Inv channel)
      (fun reply s' => reply = (q.step .receive).1 ∧ Represents channel (q.step .receive).2 s')
      ((Call.try_receive first second).run channel pid) s := by
  have hclaimed := h.inv.placed.claimed_le
  rw [Call.run]
  by_cases hnone : s.log.claimed = s.log.count
  · have hmessages : q.messages = [] := by
      rw [h.messages, hnone, Nat.sub_self]
      rfl
    rw [q.step_receive_nil hmessages]
    apply (try_receive_none h.resting hnone h.stands).bind
    rintro _ s' ⟨rfl, h'⟩
    refine ⟨?_, h.same h'⟩
    simp only [Ended.reply, h.closed, decide_eq_true_eq]
    rfl
  · have hlt : s.log.claimed < s.log.count := by omega
    have hmessages : q.messages = s.log.message s.log.claimed ::
        (List.range' (s.log.claimed + 1) (s.log.count - (s.log.claimed + 1))).map s.log.message := by
      have hcount : s.log.count - s.log.claimed = s.log.count - (s.log.claimed + 1) + 1 := by omega
      rw [h.messages, hcount, List.range'_succ, List.map_cons]
    rw [q.step_receive_cons hmessages]
    apply (try_receive_head hable h.resting (h.inv.all_reclaimed h.resting.receiving)
      (h.published le_rfl hlt) h.stands).bind
    rintro _ s' ⟨rfl, h'⟩
    exact ⟨rfl, h.dequeue hlt h'⟩

/-- One call that runs alone: its reply is the queue's. -/
theorem Represents.call (h : Represents channel q s) {call : Call} {asked : QueueCall Bytes}
    (hasks : call.Asks asked) (htotal : (q.step asked).2.reserved < 2 ^ 64) (pid : Nat) :
    AloneWithin (Inv channel)
      (fun reply s' => reply = (q.step asked).1 ∧ Represents channel (q.step asked).2 s')
      (call.run channel pid) s := by
  cases hasks with
  | try_send hregistration hattempts => exact h.try_send hregistration hattempts htotal pid
  | try_receive hable => exact h.try_receive hable pid
  | close =>
    apply (close_alone h.stands).bind
    rintro _ s' ⟨rfl, h'⟩
    refine ⟨?_, h.close h'⟩
    have hclosings := h.inv.senders.closings
    have hfirst : decide ((outline s).closings = 0) = !q.closed := by
      rw [h.closed]
      have hiff : (outline s).closings = 0 ↔ ¬ s.closings = 1 := by
        have hsame : (outline s).closings = s.closings := rfl
        omega
      rw [decide_eq_decide.mpr hiff, decide_not]
    rw [hfirst]
    rfl

/-- What a call that has run alone shows is the queue's reply, and afterwards
    the memory holds the queue, at the positions that its messages need. -/
structure Agrees (channel : ByteChannel) (turn : Turn) (answer : Reply Bytes × ByteQueue) : Prop where
  unblocked : turn.unblocked = true
  reply : turn.reply = answer.1
  represents : Represents channel answer.2 turn.memory
  reclaimed : turn.memory.ring.reclaim_position = turn.memory.ring.claim_position
  used : turn.memory.ring.write_position - turn.memory.ring.claim_position = answer.2.used

/-- A sequence of calls that run alone, from a channel at rest. -/
theorem Represents.sequential (h : Represents channel q s) {calls : List (Nat × Call)}
    {asked : List (QueueCall Bytes)} (hasked : List.Forall₂ (fun x y => x.2.Asks y) calls asked)
    (htotal : ∀ answer ∈ q.run asked, answer.2.reserved < 2 ^ 64) :
    List.Forall₂ (Agrees channel) (sequential channel s calls) (q.run asked) := by
  induction hasked generalizing q s with
  | nil => exact .nil
  | @cons x y calls asked hask hrest ih =>
    obtain ⟨pid, call⟩ := x
    have hfirst := htotal _ List.mem_cons_self
    obtain ⟨hunblocked, hreply, h'⟩ := (h.call hask hfirst pid).exec
    obtain ⟨hreclaimed, hwritten⟩ := h'.positions
    refine .cons ⟨hunblocked, hreply, h', hreclaimed, ?_⟩ (ih h' fun answer hanswer => ?_)
    · simp only [hwritten, Nat.add_sub_cancel_left]
    · exact htotal answer (List.mem_cons_of_mem _ hanswer)

theorem created_represents (channel : ByteChannel) :
    Represents channel (.empty channel.capacity_bytes) created where
  inv := created_inv channel
  resting := ⟨rfl, fun _ => rfl, rfl, fun _ => rfl, fun _ _ => (Option.some_ne_none _).symm⟩
  capacity := rfl
  messages := rfl
  closed := rfl
  reserved := rfl

/-- Calls of `try_send`, `try_receive` and `close` that are executed one after
    another on a new channel make it a queue within a budget of bytes, as long
    as fewer than 2^64 bytes are reserved: every reply is the queue's, and
    after every call the memory holds the queue. -/
theorem sequential_refines_queue {calls : List (Nat × Call)} {asked : List (QueueCall Bytes)}
    (hasked : List.Forall₂ (fun x y => x.2.Asks y) calls asked)
    (htotal : ∀ answer ∈ (ByteQueue.empty channel.capacity_bytes).run asked, answer.2.reserved < 2 ^ 64) :
    List.Forall₂ (Agrees channel) (sequential channel created calls)
      ((ByteQueue.empty channel.capacity_bytes).run asked) :=
  (created_represents channel).sequential hasked htotal

end

/-- An empty message, and then one whose payload begins at the start of the
    ring: its record wraps around the end. -/
def wrapped_calls : List (Nat × Call) :=
  [(0, send_empty), (1, receive_once), (0, .try_send (List.replicate 20 7) [true, false] fair_enqueue),
    (2, .try_send [] [false] fair_enqueue), (0, .close), (1, receive_once), (1, receive_once)]

def wrapped_asked : List (QueueCall Bytes) :=
  [.send [], .receive, .send (List.replicate 20 7), .send [], .close, .receive, .receive]

theorem sequential_refines_queue_wrapped :
    List.Forall₂ (Agrees two_records) (sequential two_records created wrapped_calls)
      ((ByteQueue.empty 64).run wrapped_asked) ∧
    ((ByteQueue.empty 64).run wrapped_asked).map Prod.fst =
      [.sent .success, .received { code := .success, value := some [] }, .sent .success,
        .sent .would_block, .closing true,
        .received { code := .success, value := some (List.replicate 20 7) }, .received { code := .closed }] := by
  have hfair : fair_dequeue.Able := ⟨⟨{}, List.mem_cons_self, rfl⟩, List.mem_cons_self, rfl⟩
  have hsend (message : Bytes) : (Call.try_send message [false] fair_enqueue).Asks (.send message) :=
    .try_send List.mem_cons_self List.mem_cons_self
  have hreceive : receive_once.Asks .receive := .try_receive hfair
  have hasked : List.Forall₂ (fun x y => x.2.Asks y) wrapped_calls wrapped_asked :=
    .cons (hsend []) (.cons hreceive (.cons (.try_send (by decide) List.mem_cons_self)
      (.cons (hsend []) (.cons .close (.cons hreceive (.cons hreceive .nil))))))
  exact ⟨@sequential_refines_queue two_records _ _ hasked (by decide +kernel), by decide +kernel⟩

end shmchan.byte_channel
