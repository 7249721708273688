import Shmchan.Channel.Alone
import Shmchan.Process.BoundedQueue

open process shmchan.endpoint

namespace shmchan.channel

/-- How the channel says what a queue replies. -/
def answer : QueueCall Bytes → QueueReply Bytes → Reply Bytes
  | _, .accepted => .sent .success
  | _, .full => .sent .would_block
  | _, .received message => .received { code := .success, value := some message }
  | _, .empty => .received { code := .would_block }
  | .send _, .closed => .sent .closed
  | _, .closed => .received { code := .closed }
  | _, .closing first => .closing first

/-- The answers of a queue to a sequence of calls, each with the queue after it. -/
def answers (q : BoundedQueue Bytes) : List (QueueCall Bytes) → List (Reply Bytes × BoundedQueue Bytes)
  | [] => []
  | call :: calls => (answer call (q.step call).1, (q.step call).2) :: answers (q.step call).2 calls

/-- A call that has run alone: whether none of its actions waited, its reply,
    and the memory after it. -/
structure Turn where
  unblocked : Bool
  reply : Reply Bytes
  memory : Memory

/-- Calls of any processes, executed one after another. -/
def sequential {channel : Channel} (s : Memory) : List (Nat × Call channel) → List Turn
  | [] => []
  | (pid, call) :: calls =>
    let program := call.run pid
    ⟨program.unblocked s, (program.exec s).1, (program.exec s).2⟩ :: sequential (program.exec s).2 calls

/-- The memory of a channel at rest holds the queue: its items between the two
    positions. -/
structure Represents (channel : Channel) (q : BoundedQueue Bytes) (s : Memory) : Prop where
  inv : Inv True channel s
  guards : s.guards = []
  settled : ∀ i pid, holder (s.log.phase i) ≠ some pid
  capacity : q.capacity = channel.capacity
  messages : q.messages =
    (List.range' s.log.claimed (s.log.count - s.log.claimed)).map s.log.message
  closed : q.closed = decide (s.closings = 1)

section

variable {channel : Channel} {q : BoundedQueue Bytes} {s s' : Memory}

theorem Represents.idle (h : Represents channel q s) (pid : Nat) : Idle pid s := fun i => h.settled i pid

/-- The items between the two positions are published. -/
theorem Represents.published (h : Represents channel q s) {i : Nat} (hi : s.log.claimed ≤ i)
    (hi' : i < s.log.count) : s.log.phase i = .published := by
  have hvacant := h.inv.ordered.occupied i hi'
  have htaken := h.inv.ordered.ahead i hi
  have hsettled := h.settled i
  cases hphase : s.log.phase i with
  | vacant => exact absurd hphase hvacant
  | reserved other => exact absurd (by rw [hphase]; rfl) (hsettled other)
  | published => rfl
  | claimed _ | consumed =>
    rw [hphase] at htaken
    cases htaken

/-- The items before them have been received. -/
theorem Represents.consumed (h : Represents channel q s) {i : Nat} (hi : i < s.log.claimed) :
    s.log.phase i = .consumed := by
  have htaken := h.inv.ordered.behind i hi
  have hsettled := h.settled i
  cases hphase : s.log.phase i with
  | claimed other => exact absurd (by rw [hphase]; rfl) (hsettled other)
  | consumed => rfl
  | vacant | reserved _ | published =>
    rw [hphase] at htaken
    cases htaken

theorem Represents.length (h : Represents channel q s) : q.messages.length = s.log.count - s.log.claimed := by
  rw [h.messages, List.length_map, List.length_range']

/-- The next slot is free when the queue is not full. -/
theorem Represents.room_iff (h : Represents channel q s) :
    SlotFree channel s ↔ q.messages.length < q.capacity := by
  have hpos := channel.pos
  have hclaimed := h.inv.ordered.claimed_le
  rw [h.inv.slot_free_iff, Free, released, Bool.or_eq_true, decide_eq_true_eq, decide_eq_true_eq, h.length,
    h.capacity]
  by_cases hunused : s.log.count < channel.capacity
  · exact iff_of_true (.inl hunused) (by omega)
  · by_cases hlap : s.log.count - channel.capacity < s.log.claimed
    · exact iff_of_true (.inr (h.consumed hlap)) (by omega)
    · rw [h.published (by omega) (by omega)]
      refine iff_of_false ?_ (by omega)
      rintro (hlt | hconsumed)
      · exact hunused hlt
      · cases hconsumed

theorem Represents.open_iff (h : Represents channel q s) :
    s.sender_state &&& channel_closed_bit = 0 ↔ q.closed = false := by
  have hclosings := (h.inv.senders trivial).closings
  rw [h.inv.open_iff, h.closed, decide_eq_false_iff_not]
  omega

/-- No guard is counted in a channel at rest. -/
theorem Represents.not_crowded (h : Represents channel q s) : s.sender_state ≠ active_sender_mask := by
  have hclosings := (h.inv.senders trivial).closings
  rw [(h.inv.senders trivial).word, h.guards, active_sender_mask, channel_closed_bit]
  interval_cases s.closings <;> decide

theorem Represents.accepts_iff (h : Represents channel q s) :
    Accepts channel s ↔ q.closed = false ∧ q.messages.length < q.capacity := by
  rw [Accepts, h.open_iff, h.room_iff]
  exact and_congr_right fun _ => and_iff_right h.not_crowded

/-- The head of a channel at rest. -/
theorem Represents.full_iff (h : Represents channel q s) (hbounded : Bounded channel s) :
    SlotFull channel s ↔ s.log.claimed < s.log.count := by
  have hclaimed := h.inv.ordered.claimed_le
  rw [h.inv.slot_full_iff hbounded, HeadPublished]
  by_cases hlt : s.log.claimed < s.log.count
  · exact iff_of_true (h.published le_rfl hlt) hlt
  · rw [h.inv.ordered.vacant _ (by omega)]
    refine iff_of_false ?_ hlt
    rintro ⟨⟩

theorem Represents.same (h : Represents channel q s) (hinv : Inv True channel s') (ho : s'.outline = s.outline) :
    Represents channel q s' := by
  have hguards : s'.guards = s.guards := congrArg Outline.guards ho
  have hclosings : s'.closings = s.closings := congrArg Outline.closings ho
  have hlog : s'.log = s.log := congrArg Outline.log ho
  refine ⟨hinv, hguards.trans h.guards, ?_, h.capacity, ?_, ?_⟩
  · rw [hlog]
    exact h.settled
  · rw [hlog]
    exact h.messages
  · rw [hclosings]
    exact h.closed

theorem Represents.push (h : Represents channel q s) {value : Bytes} (hroom : q.messages.length < q.capacity)
    (hinv : Inv True channel s') (ho : s'.outline = { s.outline with log := log_sent value s.log }) :
    Represents channel (q.push value hroom) s' := by
  have hguards : s'.guards = s.guards := congrArg Outline.guards ho
  have hclosings : s'.closings = s.closings := congrArg Outline.closings ho
  have hlog : s'.log = log_sent value s.log := congrArg Outline.log ho
  have hclaimed := h.inv.ordered.claimed_le
  refine ⟨hinv, hguards.trans h.guards, fun i other => ?_, h.capacity, ?_, ?_⟩
  · rw [hlog, log_sent]
    by_cases hi : i = s.log.count
    · simp only [hi, Function.update_self]
      rintro ⟨⟩
    · simp only [Function.update_of_ne hi]
      exact h.settled i other
  · have hcount : s.log.count + 1 - s.log.claimed = s.log.count - s.log.claimed + 1 := by omega
    have hlast : s.log.claimed + (s.log.count - s.log.claimed) = s.log.count := by omega
    have hbefore : (List.range' s.log.claimed (s.log.count - s.log.claimed)).map
        (Function.update s.log.message s.log.count value) = q.messages := by
      rw [h.messages]
      apply List.map_congr_left
      intro i hi
      rw [List.mem_range'_1] at hi
      exact Function.update_of_ne (by omega) _ _
    rw [hlog, BoundedQueue.push_messages]
    simp only [log_sent, hcount]
    rw [List.range'_1_concat, List.map_append, hbefore, List.map_singleton, hlast, Function.update_self]
  · rw [hclosings]
    exact h.closed

/-- The first of the items that are left. -/
theorem Represents.head_cons (h : Represents channel q s) (hlt : s.log.claimed < s.log.count) :
    q.messages = s.log.message s.log.claimed ::
      (List.range' (s.log.claimed + 1) (s.log.count - (s.log.claimed + 1))).map s.log.message := by
  have hcount : s.log.count - s.log.claimed = s.log.count - (s.log.claimed + 1) + 1 := by omega
  rw [h.messages, hcount, List.range'_succ, List.map_cons]

theorem Represents.no_messages (h : Represents channel q s) (hnone : ¬ s.log.claimed < s.log.count) :
    q.messages = [] := by
  apply List.eq_nil_of_length_eq_zero
  rw [h.length]
  omega

theorem Represents.pop (h : Represents channel q s) (hlt : s.log.claimed < s.log.count)
    (hinv : Inv True channel s') (ho : s'.outline = { s.outline with log := log_received s.log }) :
    Represents channel q.pop s' := by
  have hguards : s'.guards = s.guards := congrArg Outline.guards ho
  have hclosings : s'.closings = s.closings := congrArg Outline.closings ho
  have hlog : s'.log = log_received s.log := congrArg Outline.log ho
  refine ⟨hinv, hguards.trans h.guards, fun i other => ?_, h.capacity, ?_, ?_⟩
  · rw [hlog, log_received]
    by_cases hi : i = s.log.claimed
    · simp only [hi, Function.update_self]
      rintro ⟨⟩
    · simp only [Function.update_of_ne hi]
      exact h.settled i other
  · rw [hlog, BoundedQueue.pop_messages, h.head_cons hlt]
    rfl
  · rw [hclosings]
    exact h.closed

theorem Represents.close (h : Represents channel q s) (hinv : Inv True channel s')
    (ho : s'.outline = s.outline.close) : Represents channel { q with closed := true } s' := by
  have hguards : s'.guards = s.guards := congrArg Outline.guards ho
  have hclosings : s'.closings = 1 := congrArg Outline.closings ho
  have hlog : s'.log = s.log := congrArg Outline.log ho
  refine ⟨hinv, hguards.trans h.guards, ?_, h.capacity, ?_, ?_⟩
  · rw [hlog]
    exact h.settled
  · rw [hlog]
    exact h.messages
  · rw [hclosings]
    rfl

/-- The reply of a call that runs alone on a channel at rest is the queue's. -/
theorem Represents.reply (h : Represents channel q s) (hbounded : Bounded channel s) (asked : QueueCall Bytes) :
    reply_alone channel s asked = answer asked (q.step asked).1 := by
  have hopen := h.open_iff
  rw [reply_alone.eq_def]
  cases asked with
  | send value =>
    simp only
    cases hclosed : q.closed with
    | true =>
      have hbit : ¬ s.sender_state &&& channel_closed_bit = 0 := by
        rw [hopen, hclosed]
        exact Bool.noConfusion
      rw [if_pos hbit, q.step_send_closed value hclosed]
      rfl
    | false =>
      rw [if_neg (not_not_intro (hopen.mpr hclosed)), if_neg h.not_crowded]
      by_cases hroom : q.messages.length < q.capacity
      · rw [if_pos (h.room_iff.mpr hroom), q.step_send_room value hclosed hroom]
        rfl
      · rw [if_neg (mt h.room_iff.mp hroom), q.step_send_full value hclosed (by omega)]
        rfl
  | receive =>
    have hfull := h.full_iff hbounded
    simp only
    by_cases hlt : s.log.claimed < s.log.count
    · rw [if_pos (hfull.mpr hlt), q.step_receive_cons (h.head_cons hlt)]
      rfl
    · have hdone : s.sender_state = channel_closed_bit ↔ q.closed = true := by
        rw [(h.inv.senders trivial).done_iff, h.closed, decide_eq_true_eq]
        exact and_iff_left h.guards
      rw [if_neg (mt hfull.mp hlt), q.step_receive_nil (h.no_messages hlt)]
      by_cases hclosed : q.closed = true
      · rw [if_pos (hdone.mpr hclosed), if_pos hclosed]
        rfl
      · rw [if_neg (mt hdone.mp hclosed), if_neg hclosed]
        rfl
  | close =>
    have hfirst : decide (q.closed = false) = !q.closed := by
      cases q.closed <;> rfl
    rw [decide_eq_decide.mpr hopen, hfirst]
    rfl

/-- The memory that it leaves behind holds the queue after it. -/
theorem Represents.step (h : Represents channel q s) (hbounded : Bounded channel s) {asked : QueueCall Bytes}
    (hinv : Inv True channel s') (ho : s'.outline = outline_alone_after channel s asked) :
    Represents channel (q.step asked).2 s' := by
  cases asked with
  | send value =>
    rw [outline_alone_after] at ho
    by_cases haccepts : Accepts channel s
    · obtain ⟨hopen, hroom⟩ := h.accepts_iff.mp haccepts
      rw [if_pos haccepts] at ho
      rw [q.step_send_room value hopen hroom]
      exact h.push hroom hinv ho
    · rw [if_neg haccepts] at ho
      have hsame : (q.step (.send value)).2 = q := by
        cases hclosed : q.closed with
        | true => rw [q.step_send_closed value hclosed]
        | false =>
          have hfull : ¬ q.messages.length < q.capacity := fun hroom => haccepts (h.accepts_iff.mpr ⟨hclosed, hroom⟩)
          rw [q.step_send_full value hclosed (by omega)]
      rw [hsame]
      exact h.same hinv ho
  | receive =>
    have hfull := h.full_iff hbounded
    rw [outline_alone_after] at ho
    by_cases hlt : s.log.claimed < s.log.count
    · rw [if_pos (hfull.mpr hlt)] at ho
      rw [q.step_receive_cons (h.head_cons hlt)]
      exact h.pop hlt hinv ho
    · rw [if_neg (mt hfull.mp hlt)] at ho
      rw [q.step_receive_nil (h.no_messages hlt)]
      exact h.same hinv ho
  | close => exact h.close hinv ho

/-- What a call that has run alone shows is the queue's answer, and afterwards
    the memory holds the queue. -/
structure Agrees (channel : Channel) (turn : Turn) (answer : Reply Bytes × BoundedQueue Bytes) : Prop where
  unblocked : turn.unblocked = true
  reply : turn.reply = answer.1
  represents : Represents channel answer.2 turn.memory

/-- How many sends have been accepted. -/
def accepted (answers : List (Reply Bytes × BoundedQueue Bytes)) : Nat :=
  (answers.map Prod.fst).count (.sent .success)

/-- A sequence of calls that run alone, from a channel at rest. -/
theorem Represents.sequential (h : Represents channel q s) {calls : List (Nat × Call channel)}
    {asked : List (QueueCall Bytes)} (hasked : List.Forall₂ (fun x y => x.2.Asks y) calls asked)
    (htotal : s.log.count + accepted (answers q asked) + channel.capacity ≤ 2 ^ 63) :
    List.Forall₂ (Agrees channel) (sequential s calls) (answers q asked) := by
  induction hasked generalizing q s with
  | nil => exact .nil
  | @cons x y calls asked hask hrest ih =>
    obtain ⟨pid, call⟩ := x
    have hbounded : Bounded channel s := by
      rw [Bounded]
      omega
    have hanswer := h.reply hbounded y
    have haccepted : accepted (answers q (y :: asked)) = accepted (answers (q.step y).2 asked) +
        if reply_alone channel s y = .sent .success then 1 else 0 := by
      rw [hanswer, answers, accepted, List.map_cons, List.count_cons, accepted]
      simp only [beq_iff_eq]
    have hroom (value : Bytes) (hsend : y = .send value) (haccepts : Accepts channel s) :
        s.log.count + 1 + channel.capacity ≤ 2 ^ 63 := by
      rw [hsend, if_pos (reply_alone_success.mpr haccepts)] at haccepted
      rw [hsend] at htotal
      omega
    obtain ⟨hunblocked, hreply, hinv, _, ho⟩ := (h.inv.call_alone hbounded (h.idle pid) hask hroom).exec
    have hcount := congrArg (fun o => o.log.count) ho
    refine .cons ⟨hunblocked, hreply.trans hanswer, h.step hbounded hinv ho⟩ (ih (h.step hbounded hinv ho) ?_)
    rw [show ((call.run pid).exec s).2.log.count = _ from hcount.trans (count_alone_after channel s y)]
    omega

theorem created_represents (channel : Channel) : Represents channel (.empty Bytes channel.capacity) created where
  inv := created_inv True channel
  guards := rfl
  settled _ _ := (Option.some_ne_none _).symm
  capacity := rfl
  messages := rfl
  closed := rfl

/-- Calls of `try_send`, `try_receive` and `close` that are executed one after
    another on a new channel make it a queue of exactly `capacity` items: every
    reply is the queue's, and after every call the memory holds the queue. -/
theorem slots_refine_queue {calls : List (Nat × Call channel)} {asked : List (QueueCall Bytes)}
    (hasked : List.Forall₂ (fun x y => x.2.Asks y) calls asked)
    (htotal : accepted (answers (.empty Bytes channel.capacity) asked) + channel.capacity ≤ 2 ^ 63) :
    List.Forall₂ (Agrees channel) (sequential created calls) (answers (.empty Bytes channel.capacity) asked) := by
  apply (created_represents channel).sequential hasked
  rw [show created.log.count = 0 from rfl, Nat.zero_add]
  exact htotal

end

/-- The two slots are filled, and emptied after the channel has been closed. -/
def drained_calls : List (Nat × Call pair) :=
  let send : Call pair := .try_send seven [true, false] fair
  let receive : Call pair := .try_receive fair fair
  [(0, send), (1, send), (0, send), (2, receive), (0, .close), (1, send), (2, receive), (0, receive)]

def drained_asked : List (QueueCall Bytes) :=
  [.send [7], .send [7], .send [7], .receive, .close, .send [7], .receive, .receive]

theorem slots_refine_queue_drained :
    List.Forall₂ (Agrees pair) (sequential created drained_calls) (answers (.empty Bytes 2) drained_asked) ∧
      (answers (.empty Bytes 2) drained_asked).map Prod.fst =
        [.sent .success, .sent .success, .sent .would_block,
          .received { code := .success, value := some [7] }, .closing true, .sent .closed,
          .received { code := .success, value := some [7] }, .received { code := .closed }] := by
  have hfair : false ∈ fair.attempts := List.mem_cons_self
  have hsend : (.try_send seven [true, false] fair : Call pair).Asks (.send [7]) := .try_send (by decide) hfair
  have hreceive : (.try_receive fair fair : Call pair).Asks .receive := .try_receive hfair hfair
  have hasked : List.Forall₂ (fun x y => x.2.Asks y) drained_calls drained_asked :=
    .cons hsend (.cons hsend (.cons hsend (.cons hreceive (.cons .close (.cons hsend (.cons hreceive
      (.cons hreceive .nil)))))))
  exact ⟨@slots_refine_queue pair _ _ hasked (by decide +kernel), by decide +kernel⟩

end shmchan.channel
