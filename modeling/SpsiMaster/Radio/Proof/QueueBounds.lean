import SpsiMaster.Radio.Encoder

/-!
# The indices of the send queues

The arrays of a `Radio_Queue` have 100 cells and a push goes to cell `TargetNum + 1`, but the
guard of `rf_433_Enqueue` and `rf_433_Urgent_Enqueue` lets a push pass while `TargetNum < 100`.
`queues_inBounds_iff`: the indices stay in the arrays along a schedule exactly when no push comes
while `TargetNum` is 99.
-/

namespace Spsi

open Run CInt

namespace RadioQueue

/-- Every index used so far is one of the array's, and the counters are in order. -/
def InBounds (q : RadioQueue) : Prop :=
  (∀ i ∈ q.touched, i ≤ 99) ∧ q.nowNum ≤ q.targetNum ∧ q.targetNum ≤ 99

instance (q : RadioQueue) : Decidable q.InBounds := inferInstanceAs (Decidable (_ ∧ _))

theorem enqueue_inBounds {q : RadioQueue} (h : q.InBounds) (hr : q.targetNum ≠ 99) (m : Slot) :
    (q.enqueue m).InBounds := by
  obtain ⟨hi, hn, ht⟩ := h
  have hu : u8 (q.targetNum + 1) = q.targetNum + 1 := u8_of_lt (by omega)
  simp only [enqueue, if_pos (show q.targetNum < 100 by omega), store_targetNum, hu]
  refine ⟨fun i hm => ?_, by simp only [store_nowNum]; omega, by simp only; omega⟩
  simp only [store_touched, List.mem_cons] at hm
  rcases hm with rfl | hm
  · omega
  · exact hi i hm

theorem urgentEnqueue_inBounds {q : RadioQueue} (h : q.InBounds) (hr : q.targetNum ≠ 99)
    (m : Slot) : (q.urgentEnqueue m).InBounds := by
  obtain ⟨hi, hn, ht⟩ := h
  have hu : u8 (q.targetNum + 1) = q.targetNum + 1 := u8_of_lt (by omega)
  simp only [urgentEnqueue, if_pos (show q.targetNum < 100 by omega), store_targetNum,
    shift_targetNum, shift_nowNum, hu]
  refine ⟨fun i hm => ?_, by simp only [store_nowNum, shift_nowNum]; omega, by simp only; omega⟩
  simp only [store_touched, List.mem_cons] at hm
  rcases hm with rfl | hm
  · omega
  · rcases shift_touched q _ i hm with hm | hm
    · exact hi i hm
    · omega

/-- A push while `TargetNum` is 99 uses index 100. -/
theorem push_full {q : RadioQueue} (h : q.targetNum = 99) (hn : q.nowNum ≤ 99) (m : Slot) :
    100 ∈ (q.enqueue m).touched ∧ 100 ∈ (q.urgentEnqueue m).touched := by
  have hs : ∀ n (p : RadioQueue), 100 ∈ p.touched → 100 ∈ (p.shift n).touched := by
    intro n
    induction n with
    | zero => exact fun p hp => hp
    | succ n ih =>
      intro p hp
      rw [shift]
      split
      · exact ih _ (by simp [hp])
      · exact hp
  have h99 : u8 (99 + 1) = 99 + 1 := rfl
  constructor
  · simp [enqueue, h, h99]
  · simp only [urgentEnqueue, h, h99, if_pos (show 99 < 100 by decide), store_touched,
      List.mem_cons]
    refine .inr ?_
    rw [shift, if_pos (by omega)]
    exact hs 99 _ (by simp)

end RadioQueue

theorem SendQueue.dequeue_inBounds {s : SendQueue} (h : s.queue.InBounds) :
    s.dequeue.queue.InBounds := by
  obtain ⟨hi, hn, ht⟩ := h
  unfold SendQueue.dequeue
  cases s.pc with
  | loop =>
    simp only
    split
    · exact ⟨hi, Nat.le_refl _, Nat.zero_le _⟩
    · split
      · have hu : u8 (s.queue.nowNum + 1) = s.queue.nowNum + 1 := u8_of_lt (by omega)
        refine ⟨hi, ?_, ht⟩
        simp only [hu]
        omega
      · exact ⟨hi, hn, ht⟩
  | claimed =>
    refine ⟨fun i hm => ?_, hn, ht⟩
    rcases List.mem_cons.1 hm with rfl | hm
    · exact Nat.le_trans hn ht
    · exact hi i hm
  | sent => exact ⟨hi, hn, ht⟩

/-- Both queues are in bounds. -/
def QueuesInBounds (s : SendQueues) : Prop := ∀ r, (s r).queue.InBounds

instance (s : SendQueues) : Decidable (QueuesInBounds s) := inferInstanceAs (Decidable (∀ _, _))

/-- The action is not a push on a queue whose `TargetNum` is 99. -/
def NotFull (s : SendQueues) (a : QueueAct) : Prop :=
  match a with
  | .enqueue r _ | .urgentEnqueue r _ => (s r).queue.targetNum ≠ 99
  | .dequeue _ => True

theorem queues_inBounds_step {s t : SendQueues} {a : QueueAct} (h : QueuesInBounds s)
    (ht : queueStep s a = some t) (ha : NotFull s a) : QueuesInBounds t := by
  obtain ⟨r, m, rfl, rfl⟩ | ⟨r, m, rfl, rfl⟩ | ⟨r, rfl, rfl⟩ := queueStep_cases ht
  · exact SendQueues.forall_on (·.queue.InBounds) h (RadioQueue.enqueue_inBounds (h r) ha m)
  · exact SendQueues.forall_on (·.queue.InBounds) h (RadioQueue.urgentEnqueue_inBounds (h r) ha m)
  · exact SendQueues.forall_update (·.queue.InBounds) h (SendQueue.dequeue_inBounds (h r))

theorem queues_inBounds_break {s t : SendQueues} {a : QueueAct} (h : QueuesInBounds s)
    (ht : queueStep s a = some t) (ha : ¬ NotFull s a) : ¬ QueuesInBounds t := by
  have hbad : ∀ r, 100 ∈ (t r).queue.touched → ¬ QueuesInBounds t := by
    intro r hr hq
    have := (hq r).1 100 hr
    omega
  obtain ⟨r, m, rfl, rfl⟩ | ⟨r, m, rfl, rfl⟩ | ⟨r, rfl, rfl⟩ := queueStep_cases ht
  · have hf : (s r).queue.targetNum = 99 := by simpa [NotFull] using ha
    have hn := (h r).2.1
    exact hbad r (by rw [SendQueues.on_self]; exact (RadioQueue.push_full hf (by omega) m).1)
  · have hf : (s r).queue.targetNum = 99 := by simpa [NotFull] using ha
    have hn := (h r).2.1
    exact hbad r (by rw [SendQueues.on_self]; exact (RadioQueue.push_full hf (by omega) m).2)
  · exact absurd trivial ha

theorem queues_inBounds_init : QueuesInBounds SendQueues.init := by decide

/-- **The queues index inside their arrays** along a schedule exactly when none of its pushes
finds `TargetNum` at 99. -/
theorem queues_inBounds_iff (as : List QueueAct) :
    Along queueStep QueuesInBounds SendQueues.init as ↔
      Steps queueStep (fun s a _ => NotFull s a) SendQueues.init as :=
  along_iff_steps (fun _ h => h) (fun _ _ _ h ht ha => queues_inBounds_step h ht ha)
    (fun _ _ _ h ht ha => queues_inBounds_break h ht ha) queues_inBounds_init as

/-- One hundred pushes before the thread of `Queue_433` runs: the last one stores to index 100. -/
theorem queues_outOfBounds_hundred_pushes :
    ¬ Along queueStep QueuesInBounds SendQueues.init
      (List.replicate 100 (.enqueue .rf433 ⟨60000000, 2, 1⟩)) := by
  decide +kernel

end Spsi
