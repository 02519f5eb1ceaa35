import SpsiMaster.Lib.Deque
import SpsiMaster.Radio.Encoder

/-!
# The send queues are double-ended queues

`sendQueue_refines_deque`: along a schedule that keeps `TargetNum` at 99 or less, a send queue and
its thread do what the abstract double-ended queue (`Deque.step`) does, where `Enqueue` is a push
at the back, `Urgent_Enqueue` a push at the front, and the thread's `NowNum++` a pop. What waits is
the window `NowNum + 1, …, TargetNum` of the arrays (`RadioQueue.waiting`); what has been popped is
what was handed to the radio followed by the entry the thread has claimed and not yet read.
-/

namespace Spsi

open Run CInt Deque

/-- The entries not yet claimed, in sending order. -/
def RadioQueue.waiting (q : RadioQueue) : List Slot :=
  window q.slot (q.nowNum + 1) (q.targetNum - q.nowNum)

/-- The abstraction relation, for one queue and its thread. -/
structure Abstracts (s : SendQueue) (d : Deque.State Slot) : Prop where
  popped : d.popped = s.handed ++ s.claim
  waiting : d.waiting = s.queue.waiting
  order : s.queue.nowNum ≤ s.queue.targetNum

/-- The abstract operations of an action on the queue of `r`. -/
def dequeOps (r : Radio) (s : SendQueues) : QueueAct → List (Op Slot)
  | .enqueue r' m => if r' = r then [.pushBack m] else []
  | .urgentEnqueue r' m => if r' = r then [.pushFront m] else []
  | .dequeue r' =>
    if r' = r ∧ (s r).pc = .loop ∧ (s r).queue.nowNum < (s r).queue.targetNum then [.pop] else []

/-- The messages that the calls of a schedule give to the queue of `r`. -/
def calls (r : Radio) : List QueueAct → List Slot
  | [] => []
  | .enqueue r' m :: as | .urgentEnqueue r' m :: as =>
    if r' = r then m :: calls r as else calls r as
  | .dequeue _ :: as => calls r as

/-! ## One call -/

namespace RadioQueue

variable {q : RadioQueue}

theorem enqueue_spec (hn : q.nowNum ≤ q.targetNum) (ht : q.targetNum ≤ 99) (m : Slot) :
    (q.enqueue m).nowNum = q.nowNum ∧ (q.enqueue m).targetNum = q.targetNum + 1 ∧
      (q.enqueue m).slot q.nowNum = q.slot q.nowNum ∧
      (q.enqueue m).waiting = q.waiting ++ [m] := by
  have hu : u8 (q.targetNum + 1) = q.targetNum + 1 := u8_of_lt (by omega)
  have hs : (q.enqueue m).slot = Function.update q.slot (q.targetNum + 1) m := by
    rw [← store_slot]
    simp only [enqueue, if_pos (show q.targetNum < 100 by omega), hu]
    rfl
  have hnow : (q.enqueue m).nowNum = q.nowNum := by
    simp [enqueue, if_pos (show q.targetNum < 100 by omega)]
  have htar : (q.enqueue m).targetNum = q.targetNum + 1 := by
    simp [enqueue, if_pos (show q.targetNum < 100 by omega), hu]
  refine ⟨hnow, htar, by rw [hs, Function.update_of_ne (by omega)], ?_⟩
  unfold waiting
  rw [hnow, htar, show q.targetNum + 1 - q.nowNum = q.targetNum - q.nowNum + 1 by omega, hs]
  have hpush := window_push (show ∀ i, q.nowNum + 1 ≤ i →
      i < q.nowNum + 1 + (q.targetNum - q.nowNum) →
      Function.update q.slot (q.targetNum + 1) m i = q.slot i from
    fun i _ hi => Function.update_of_ne (by omega) _ _)
  rw [hpush, show q.nowNum + 1 + (q.targetNum - q.nowNum) = q.targetNum + 1 by omega,
    Function.update_self]

theorem urgentEnqueue_spec (hn : q.nowNum ≤ q.targetNum) (ht : q.targetNum ≤ 99) (m : Slot) :
    (q.urgentEnqueue m).nowNum = q.nowNum ∧ (q.urgentEnqueue m).targetNum = q.targetNum + 1 ∧
      (q.urgentEnqueue m).slot q.nowNum = q.slot q.nowNum ∧
      (q.urgentEnqueue m).waiting = m :: q.waiting := by
  have hu : u8 (q.targetNum + 1) = q.targetNum + 1 := u8_of_lt (by omega)
  have hs : (q.urgentEnqueue m).slot =
      Function.update (q.shift (q.targetNum + 1)).slot (1 + q.nowNum) m := by
    rw [← store_slot]
    simp only [urgentEnqueue, if_pos (show q.targetNum < 100 by omega), hu, shift_nowNum]
    rfl
  have hnow : (q.urgentEnqueue m).nowNum = q.nowNum := by
    simp [urgentEnqueue, if_pos (show q.targetNum < 100 by omega)]
  have htar : (q.urgentEnqueue m).targetNum = q.targetNum + 1 := by
    simp [urgentEnqueue, if_pos (show q.targetNum < 100 by omega), hu]
  refine ⟨hnow, htar, ?_, ?_⟩
  · rw [hs, Function.update_of_ne (by omega), shift_slot, if_neg (by omega)]
  · unfold waiting
    rw [hnow, htar, show q.targetNum + 1 - q.nowNum = q.targetNum - q.nowNum + 1 by omega, hs]
    have hshift := window_shift (show ∀ i, q.nowNum + 1 ≤ i →
        i < q.nowNum + 1 + (q.targetNum - q.nowNum) →
        Function.update (q.shift (q.targetNum + 1)).slot (1 + q.nowNum) m (i + 1) = q.slot i from
      fun i hi hi' => by
        rw [Function.update_of_ne (by omega), shift_slot, if_pos (by omega), Nat.add_sub_cancel])
    rw [hshift, Nat.add_comm 1, Function.update_self]

end RadioQueue

/-! ## One step -/

/-- A push that keeps `NowNum` and its cell keeps what the thread has claimed. -/
theorem SendQueue.claim_of_push {s : SendQueue} {q : RadioQueue}
    (hnow : q.nowNum = s.queue.nowNum)
    (hslot : q.slot s.queue.nowNum = s.queue.slot s.queue.nowNum) :
    { s with queue := q }.claim = s.claim := by
  unfold claim
  cases s.pc with
  | claimed => simp only [hnow, hslot]
  | loop => rfl
  | sent => rfl

theorem abstracts_enqueue {s : SendQueue} {d : Deque.State Slot} (h : Abstracts s d)
    (ht : s.queue.targetNum ≤ 99) (m : Slot) :
    Abstracts { s with queue := s.queue.enqueue m } { d with waiting := d.waiting ++ [m] } := by
  obtain ⟨hnow, htar, hslot, hw⟩ := RadioQueue.enqueue_spec h.order ht m
  refine ⟨?_, ?_, ?_⟩
  · rw [SendQueue.claim_of_push hnow hslot]
    exact h.popped
  · exact (congrArg (· ++ [m]) h.waiting).trans hw.symm
  · have := h.order
    simp only [hnow, htar]
    omega

theorem abstracts_urgentEnqueue {s : SendQueue} {d : Deque.State Slot} (h : Abstracts s d)
    (ht : s.queue.targetNum ≤ 99) (m : Slot) :
    Abstracts { s with queue := s.queue.urgentEnqueue m } { d with waiting := m :: d.waiting } := by
  obtain ⟨hnow, htar, hslot, hw⟩ := RadioQueue.urgentEnqueue_spec h.order ht m
  refine ⟨?_, ?_, ?_⟩
  · rw [SendQueue.claim_of_push hnow hslot]
    exact h.popped
  · exact (congrArg (m :: ·) h.waiting).trans hw.symm
  · have := h.order
    simp only [hnow, htar]
    omega

/-- A turn of the thread pops exactly when it claims a slot; the read, the end of a turn and the
reset of the two counters change nothing. -/
theorem abstracts_dequeue {s : SendQueue} {d : Deque.State Slot} (h : Abstracts s d)
    (ht : s.queue.targetNum ≤ 99) :
    ∃ d', exec Deque.step d
        (if s.pc = .loop ∧ s.queue.nowNum < s.queue.targetNum then [.pop] else []) = some d' ∧
      Abstracts s.dequeue d' := by
  obtain ⟨hp, hw, ho⟩ := h
  obtain ⟨q, pc, handed⟩ := s
  simp only [RadioQueue.waiting] at hw
  simp only [SendQueue.claim] at hp
  simp only at ht ho
  cases pc with
  | loop =>
    simp only [SendQueue.dequeue, List.append_nil] at hp ⊢
    by_cases he : q.nowNum = q.targetNum
    · -- the window is empty, so the reset drops nothing
      rw [if_pos he, if_neg (by omega)]
      rw [he, Nat.sub_self, window_zero] at hw
      exact ⟨d, rfl, by simpa [SendQueue.claim] using hp, hw, Nat.le_refl _⟩
    · have hlt : q.nowNum < q.targetNum := by omega
      have hu : u8 (q.nowNum + 1) = q.nowNum + 1 := u8_of_lt (by omega)
      rw [if_neg he, if_pos ⟨trivial, hlt⟩, if_pos (by omega), hu]
      rw [show q.targetNum - q.nowNum = q.targetNum - (q.nowNum + 1) + 1 by omega, window_pop] at hw
      obtain ⟨w, p⟩ := d
      simp only at hw hp
      subst hw hp
      exact ⟨_, rfl, rfl, rfl, hlt⟩
  | claimed =>
    rw [if_neg (by simp)]
    refine ⟨d, rfl, ?_, hw, ho⟩
    simpa [SendQueue.dequeue, SendQueue.claim] using hp
  | sent =>
    rw [if_neg (by simp)]
    exact ⟨d, rfl, hp, hw, ho⟩

theorem abstracts_step (r : Radio) {s t : SendQueues} {a : QueueAct} {d : Deque.State Slot}
    (h : Abstracts (s r) d) (hs : (s r).queue.targetNum ≤ 99) (ht : queueStep s a = some t) :
    ∃ d', exec Deque.step d (dequeOps r s a) = some d' ∧ Abstracts (t r) d' := by
  obtain ⟨r', m, rfl, rfl⟩ | ⟨r', m, rfl, rfl⟩ | ⟨r', rfl, rfl⟩ := queueStep_cases ht <;>
    by_cases hr : r' = r
  · subst hr
    simp only [dequeOps, if_pos, SendQueues.on_self]
    exact ⟨_, rfl, abstracts_enqueue h hs m⟩
  · simp only [dequeOps, if_neg hr, SendQueues.on_of_ne s (Ne.symm hr)]
    exact ⟨d, rfl, h⟩
  · subst hr
    simp only [dequeOps, if_pos, SendQueues.on_self]
    exact ⟨_, rfl, abstracts_urgentEnqueue h hs m⟩
  · simp only [dequeOps, if_neg hr, SendQueues.on_of_ne s (Ne.symm hr)]
    exact ⟨d, rfl, h⟩
  · subst hr
    simp only [dequeOps, true_and, Function.update_self]
    exact abstracts_dequeue h hs
  · simp only [dequeOps, hr, false_and, if_false, Function.update_of_ne (Ne.symm hr)]
    exact ⟨d, rfl, h⟩

/-! ## Schedules -/

/-- The pushes of the abstract run are the calls on the queue. -/
theorem pushed_dequeOps (r : Radio) {s t : SendQueues} {as : List QueueAct}
    (he : exec queueStep s as = some t) :
    pushed (labels queueStep (dequeOps r) s as) = calls r as := by
  induction as generalizing s with
  | nil => rfl
  | cons a as ih =>
    obtain ⟨u, hu, hu'⟩ := Option.bind_eq_some_iff.1 he
    have ih := ih hu'
    rw [labels, hu, Option.map_some, Option.getD_some]
    rcases a with ⟨r', m⟩ | ⟨r', m⟩ | r'
    · by_cases hr : r' = r <;> simp [dequeOps, calls, hr, pushed, ih]
    · by_cases hr : r' = r <;> simp [dequeOps, calls, hr, pushed, ih]
    · by_cases hr : r' = r ∧ (s r).pc = .loop ∧ (s r).queue.nowNum < (s r).queue.targetNum
      · rw [dequeOps, if_pos hr]
        exact ih
      · rw [dequeOps, if_neg hr]
        exact ih

/-- **A send queue refines a double-ended queue** along every schedule of calls and thread steps
that keeps its `TargetNum` at 99 or less: the messages handed to the radio, with the one claimed,
are those the abstract queue has popped, in order; the window is what it still holds; together
they are the messages of the calls, each once. -/
theorem sendQueue_refines_deque (r : Radio) {as : List QueueAct} {s : SendQueues}
    (he : exec queueStep SendQueues.init as = some s)
    (hb : Along queueStep (fun s => (s r).queue.targetNum ≤ 99) SendQueues.init as) :
    ∃ d, exec Deque.step {} (labels queueStep (dequeOps r) SendQueues.init as) = some d ∧
      d.popped = (s r).handed ++ (s r).claim ∧ d.waiting = (s r).queue.waiting ∧
      ((s r).handed ++ (s r).claim ++ (s r).queue.waiting).Perm (calls r as) := by
  have hinit : Abstracts (SendQueues.init r) {} := ⟨rfl, rfl, Nat.le_refl _⟩
  obtain ⟨d, hd, hp, hw, -⟩ := simulate
    (fun s a t d h hs _ ht => abstracts_step r h hs ht) hinit hb he
  refine ⟨d, hd, hp, hw, ?_⟩
  rw [← hp, ← hw, ← pushed_dequeOps r he]
  simpa using exec_perm hd

/-- A push in front while the thread has claimed another message. -/
def urgentBetween : List QueueAct :=
  [.enqueue .rf433 ⟨60000000, 2, 1⟩, .enqueue .rf433 ⟨60000000, 2, 0⟩, .dequeue .rf433,
    .urgentEnqueue .rf433 ⟨60000000, 0, 1⟩, .dequeue .rf433, .dequeue .rf433, .dequeue .rf433,
    .dequeue .rf433]

theorem sendQueue_refines_deque_urgent_between :
    ∃ s, exec queueStep SendQueues.init urgentBetween = some s ∧
      (s .rf433).handed = [⟨60000000, 2, 1⟩, ⟨60000000, 0, 1⟩] ∧
      ∃ d, exec Deque.step {} (labels queueStep (dequeOps .rf433) SendQueues.init urgentBetween) =
          some d ∧
        d.popped = (s .rf433).handed ++ (s .rf433).claim ∧
        d.waiting = (s .rf433).queue.waiting ∧
        ((s .rf433).handed ++ (s .rf433).claim ++ (s .rf433).queue.waiting).Perm
          (calls .rf433 urgentBetween) :=
  ⟨_, rfl, rfl, sendQueue_refines_deque .rf433 rfl (by decide)⟩

end Spsi
