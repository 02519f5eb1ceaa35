import SpsiMaster.Lib.CInt
import SpsiMaster.Lib.Run

/-!
# The send queues

`radio/Radio_Encoder.c`: the queues `Queue_433` and `Queue_4068` and the threads that send from
them. The two queues run the same code, so each function is written once, on a `RadioQueue`, and
taken at each queue by `rf433Enqueue` and the like. Slot 0 is never filled by a push: a push goes
to `TargetNum + 1`, the thread sends slot `NowNum` after it has counted it up.

`touched` collects every index the code uses on the arrays `Taget_Id`, `Counter`, `Command` and
`Data`. The arrays are total functions, so an access past their 100 cells only shows in `touched`.
-/

namespace Spsi

open CInt

/-- The two radios. -/
inductive Radio where
  | rf433
  | rf4068
  deriving DecidableEq

theorem Radio.forall {p : Radio → Prop} : (∀ r, p r) ↔ p .rf433 ∧ p .rf4068 :=
  ⟨fun h => ⟨h _, h _⟩, fun h r => match r with | .rf433 => h.1 | .rf4068 => h.2⟩

instance {p : Radio → Prop} [DecidablePred p] : Decidable (∀ r, p r) :=
  decidable_of_iff _ Radio.forall.symm

/-- The arguments of a push and of `rf_433_send`. -/
structure Slot where
  targetId : UInt32
  command : UInt8
  data : UInt8
  deriving DecidableEq

/-- `Radio_Queue`. -/
structure RadioQueue where
  nowNum : Nat := 0
  targetNum : Nat := 0
  tagetId : Nat → UInt32 := fun _ => 0
  counter : Nat → UInt8 := fun _ => 0
  command : Nat → UInt8 := fun _ => 0
  data : Nat → UInt8 := fun _ => 0
  touched : List Nat := []

namespace RadioQueue

/-- The triple in the cells `i` of the three arrays. -/
def slot (q : RadioQueue) (i : Nat) : Slot := ⟨q.tagetId i, q.command i, q.data i⟩

/-- `Taget_Id[i] = …; Command[i] = …; Data[i] = …`. -/
def store (q : RadioQueue) (i : Nat) (m : Slot) : RadioQueue :=
  { q with
    tagetId := Function.update q.tagetId i m.targetId
    command := Function.update q.command i m.command
    data := Function.update q.data i m.data
    touched := i :: q.touched }

/-- `Taget_Id[j] = Taget_Id[i]; Command[j] = Command[i]; Data[j] = Data[i]`. -/
def move (q : RadioQueue) (i j : Nat) : RadioQueue :=
  { q.store j (q.slot i) with touched := j :: i :: q.touched }

/-- The loop `for (i = NumTemp; i > NowNum; i--)` of `rf_433_Urgent_Enqueue`, from `i` on. -/
def shift (q : RadioQueue) : Nat → RadioQueue
  | 0 => q
  | i + 1 => if q.nowNum < i + 1 then (q.move i (i + 1)).shift i else q

/-- `rf_433_Enqueue`, `rf_4068_Enqueue`. -/
def enqueue (q : RadioQueue) (m : Slot) : RadioQueue :=
  if q.targetNum < 100 then
    let numTemp := u8 (q.targetNum + 1)
    let q := q.store numTemp m
    { q with targetNum := u8 (q.targetNum + 1) }
  else q

/-- `rf_433_Urgent_Enqueue`, `rf_4068_Urgent_Enqueue`. -/
def urgentEnqueue (q : RadioQueue) (m : Slot) : RadioQueue :=
  if q.targetNum < 100 then
    let numTemp := u8 (q.targetNum + 1)
    let q := q.shift numTemp
    let q := q.store (1 + q.nowNum) m
    { q with targetNum := u8 (q.targetNum + 1) }
  else q

end RadioQueue

/-- Where a dequeue thread waits: before a turn of its loop, between `NowNum++` and the send, and
after the send. -/
inductive DequeuePc where
  | loop
  | claimed
  | sent
  deriving DecidableEq

/-- A queue with its thread; `handed` lists, oldest first, what the thread has handed to
`rf_433_send` (`rf_4068_send`). -/
structure SendQueue where
  queue : RadioQueue := {}
  pc : DequeuePc := .loop
  handed : List Slot := []

namespace SendQueue

/-- `rf_433_Dequeue`, `rf_4068_Dequeue`, from one delay to the next. -/
def dequeue (s : SendQueue) : SendQueue :=
  let q := s.queue
  match s.pc with
  | .loop =>
    if q.nowNum = q.targetNum then { s with queue := { q with nowNum := 0, targetNum := 0 } }
    else if q.targetNum > 0 ∧ q.targetNum > q.nowNum then
      { s with queue := { q with nowNum := u8 (q.nowNum + 1) }, pc := .claimed }
    else s
  | .claimed =>
    { queue := { q with touched := q.nowNum :: q.touched }, pc := .sent
      handed := s.handed ++ [q.slot q.nowNum] }
  | .sent => { s with pc := .loop }

/-- The entry that the thread has counted up to and not yet read. -/
def claim (s : SendQueue) : List Slot :=
  match s.pc with
  | .claimed => [s.queue.slot s.queue.nowNum]
  | _ => []

end SendQueue

/-! ## Both queues -/

/-- `Queue_433` and `Queue_4068` with their threads. -/
abbrev SendQueues := Radio → SendQueue

/-- Put the queue of `r` through `f`. -/
def SendQueues.on (s : SendQueues) (r : Radio) (f : RadioQueue → RadioQueue) : SendQueues :=
  Function.update s r { s r with queue := f (s r).queue }

def rf433Enqueue (s : SendQueues) (m : Slot) : SendQueues := s.on .rf433 (·.enqueue m)
def rf4068Enqueue (s : SendQueues) (m : Slot) : SendQueues := s.on .rf4068 (·.enqueue m)
def rf433UrgentEnqueue (s : SendQueues) (m : Slot) : SendQueues := s.on .rf433 (·.urgentEnqueue m)
def rf4068UrgentEnqueue (s : SendQueues) (m : Slot) : SendQueues :=
  s.on .rf4068 (·.urgentEnqueue m)
def rf433Dequeue (s : SendQueues) : SendQueues := Function.update s .rf433 (s .rf433).dequeue
def rf4068Dequeue (s : SendQueues) : SendQueues := Function.update s .rf4068 (s .rf4068).dequeue

/-- The calls on the queues, and one step of a dequeue thread. -/
inductive QueueAct where
  | enqueue (r : Radio) (m : Slot)
  | urgentEnqueue (r : Radio) (m : Slot)
  | dequeue (r : Radio)

/-- The queue an action works on. -/
def QueueAct.radio : QueueAct → Radio
  | .enqueue r _ | .urgentEnqueue r _ | .dequeue r => r

/-- Both queues under any calls and thread steps. -/
def queueStep : Run.Step SendQueues QueueAct
  | s, .enqueue .rf433 m => some (rf433Enqueue s m)
  | s, .enqueue .rf4068 m => some (rf4068Enqueue s m)
  | s, .urgentEnqueue .rf433 m => some (rf433UrgentEnqueue s m)
  | s, .urgentEnqueue .rf4068 m => some (rf4068UrgentEnqueue s m)
  | s, .dequeue .rf433 => some (rf433Dequeue s)
  | s, .dequeue .rf4068 => some (rf4068Dequeue s)

/-- The queues at start-up. -/
def SendQueues.init : SendQueues := fun _ => {}

/-! ## What a call does to a queue -/

namespace RadioQueue

@[simp] theorem store_nowNum (q : RadioQueue) (i : Nat) (m : Slot) :
    (q.store i m).nowNum = q.nowNum := rfl

@[simp] theorem store_targetNum (q : RadioQueue) (i : Nat) (m : Slot) :
    (q.store i m).targetNum = q.targetNum := rfl

@[simp] theorem store_touched (q : RadioQueue) (i : Nat) (m : Slot) :
    (q.store i m).touched = i :: q.touched := rfl

@[simp] theorem store_slot (q : RadioQueue) (i : Nat) (m : Slot) :
    (q.store i m).slot = Function.update q.slot i m := by
  funext j
  by_cases h : j = i
  · subst h; simp [slot, store]
  · simp [slot, store, h]

@[simp] theorem move_nowNum (q : RadioQueue) (i j : Nat) : (q.move i j).nowNum = q.nowNum := rfl

@[simp] theorem move_targetNum (q : RadioQueue) (i j : Nat) :
    (q.move i j).targetNum = q.targetNum := rfl

@[simp] theorem move_touched (q : RadioQueue) (i j : Nat) :
    (q.move i j).touched = j :: i :: q.touched := rfl

@[simp] theorem move_slot (q : RadioQueue) (i j : Nat) :
    (q.move i j).slot = Function.update q.slot j (q.slot i) := store_slot q j (q.slot i)

@[simp] theorem shift_nowNum (q : RadioQueue) (n : Nat) : (q.shift n).nowNum = q.nowNum := by
  induction n generalizing q with
  | zero => rfl
  | succ n ih => rw [shift]; split <;> simp [ih]

@[simp] theorem shift_targetNum (q : RadioQueue) (n : Nat) :
    (q.shift n).targetNum = q.targetNum := by
  induction n generalizing q with
  | zero => rfl
  | succ n ih => rw [shift]; split <;> simp [ih]

/-- The loop from `n` down moves every cell `NowNum, …, n - 1` up by one. -/
theorem shift_slot (q : RadioQueue) (n j : Nat) :
    (q.shift n).slot j = if q.nowNum < j ∧ j ≤ n then q.slot (j - 1) else q.slot j := by
  induction n generalizing q with
  | zero => rw [shift, if_neg (by omega)]
  | succ n ih =>
    rw [shift]
    by_cases hn : q.nowNum < n + 1
    · rw [if_pos hn, ih, move_nowNum, move_slot]
      by_cases hj : j = n + 1
      · subst hj
        rw [if_neg (by omega), if_pos (by omega), Function.update_self, Nat.add_sub_cancel]
      · rw [Function.update_of_ne hj]
        by_cases hj' : q.nowNum < j ∧ j ≤ n
        · rw [if_pos hj', if_pos (by omega), Function.update_of_ne (by omega)]
        · rw [if_neg hj', if_neg (by omega)]
    · rw [if_neg hn, if_neg (by omega)]

/-- The loop uses the indices `NowNum, …, n` only. -/
theorem shift_touched (q : RadioQueue) (n : Nat) :
    ∀ i ∈ (q.shift n).touched, i ∈ q.touched ∨ q.nowNum ≤ i ∧ i ≤ n := by
  induction n generalizing q with
  | zero => exact fun i hi => .inl hi
  | succ n ih =>
    intro i hi
    rw [shift] at hi
    split at hi
    · rcases ih _ i hi with hi | hi
      · simp only [move_touched, List.mem_cons] at hi
        rcases hi with rfl | rfl | hi
        · exact .inr (by omega)
        · exact .inr (by omega)
        · exact .inl hi
      · rw [move_nowNum] at hi
        exact .inr (by omega)
    · exact .inl hi

end RadioQueue

/-- The four calls and the two threads, for either radio. -/
theorem queueStep_cases {s t : SendQueues} {a : QueueAct} (h : queueStep s a = some t) :
    (∃ r m, a = .enqueue r m ∧ t = s.on r (·.enqueue m)) ∨
    (∃ r m, a = .urgentEnqueue r m ∧ t = s.on r (·.urgentEnqueue m)) ∨
    ∃ r, a = .dequeue r ∧ t = Function.update s r (s r).dequeue := by
  rcases a with ⟨r, m⟩ | ⟨r, m⟩ | r
  · exact .inl ⟨r, m, rfl, by cases r <;> exact (Option.some.inj h).symm⟩
  · exact .inr (.inl ⟨r, m, rfl, by cases r <;> exact (Option.some.inj h).symm⟩)
  · exact .inr (.inr ⟨r, rfl, by cases r <;> exact (Option.some.inj h).symm⟩)

theorem SendQueues.on_self (s : SendQueues) (r : Radio) (f : RadioQueue → RadioQueue) :
    s.on r f r = { s r with queue := f (s r).queue } := by simp [SendQueues.on]

theorem SendQueues.on_of_ne (s : SendQueues) {r r' : Radio} (h : r' ≠ r)
    (f : RadioQueue → RadioQueue) : s.on r f r' = s r' := by simp [SendQueues.on, h]

/-- A step on one queue leaves the other alone. -/
theorem SendQueues.forall_update (P : SendQueue → Prop) {s : SendQueues} {r : Radio}
    {x : SendQueue} (h : ∀ r, P (s r)) (hx : P x) : ∀ r', P (Function.update s r x r') :=
  (Function.forall_update_iff s fun _ => P).2 ⟨hx, fun r' _ => h r'⟩

theorem SendQueues.forall_on (P : SendQueue → Prop) {s : SendQueues} {r : Radio}
    {f : RadioQueue → RadioQueue} (h : ∀ r, P (s r)) (hf : P { s r with queue := f (s r).queue }) :
    ∀ r', P (s.on r f r') :=
  SendQueues.forall_update P h hf

end Spsi
