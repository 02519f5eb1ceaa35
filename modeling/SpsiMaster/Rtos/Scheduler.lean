import Mathlib.Data.BitVec
import Mathlib.Logic.Function.Basic

/-!
# The scheduler

`rt-thread/src/scheduler.c` and the part of `rt-thread/src/thread.c` that moves threads in and out
of its queues, for one processor and `RT_THREAD_PRIORITY_MAX` 32: the ready queues, their bitmap,
the running thread and the time slices. A smaller number is a higher priority.

The node `tlist` of a thread is in one list at a time. `stamp` says when it was linked there; it
is no part of the program.
-/

namespace Rtos

/-- `RT_THREAD_PRIORITY_MAX`. -/
abbrev threadPriorityMax : Nat := 32

/-- `RT_THREAD_INIT`, `RT_THREAD_READY`, `RT_THREAD_SUSPEND`, `RT_THREAD_RUNNING`. -/
inductive ThreadStat where
  | init
  | ready
  | suspend
  | running
  deriving DecidableEq

/-- `struct rt_thread`, the fields of the scheduler. `yielded` is `RT_THREAD_STAT_YIELD`. -/
structure Tcb where
  stat : ThreadStat := .init
  currentPriority : Nat
  yielded : Bool := false
  initTick : Nat
  remainingTick : Nat
  stamp : Nat := 0
  deriving DecidableEq

/-- `thread->number_mask`. -/
def Tcb.numberMask (t : Tcb) : BitVec 32 := 1#32 <<< t.currentPriority

/-- `__rt_ffs`: the number of the lowest bit that is set, counted from 1. -/
def ffs (value : BitVec 32) : Nat :=
  match (List.range 32).find? value.getLsbD with
  | some i => i + 1
  | none => 0

/-- The variables of `scheduler.c`: `rt_thread_priority_table`, `rt_thread_ready_priority_group`,
`rt_current_thread`, `rt_scheduler_lock_nest`; and the threads. `rt_scheduler_lock_nest` is an
`rt_int16_t` that `rt_enter_critical` counts up without a check: `lockNest` is its value as long as
no more than 32767 of these calls are nested. -/
structure Sched (τ : Type) where
  tcb : τ → Tcb
  table : Nat → List τ := fun _ => []
  group : BitVec 32 := 0
  current : τ
  lockNest : Nat := 0
  clock : Nat := 0

namespace Sched

variable {τ : Type} [DecidableEq τ] (s : Sched τ)

def setTcb (t : τ) (f : Tcb → Tcb) : Sched τ :=
  { s with tcb := Function.update s.tcb t (f (s.tcb t)) }

/-- The node `tlist` of `t` is linked into a list. -/
def link (t : τ) : Sched τ :=
  { s.setTcb t fun c => { c with stamp := s.clock } with clock := s.clock + 1 }

/-- `rt_schedule_insert_thread`. -/
def insertThread (t : τ) : Sched τ :=
  if t = s.current then s.setTcb t fun c => { c with stat := .running }
  else
    let s := s.setTcb t fun c => { c with stat := .ready }
    let p := (s.tcb t).currentPriority
    let s := { s.link t with table := Function.update s.table p (s.table p ++ [t]) }
    { s with group := s.group ||| (s.tcb t).numberMask }

/-- `rt_schedule_remove_thread`. -/
def removeThread (t : τ) : Sched τ :=
  let p := (s.tcb t).currentPriority
  let s := { s with table := Function.update s.table p ((s.table p).erase t) }
  if s.table p = [] then { s with group := s.group &&& ~~~(s.tcb t).numberMask } else s

/-- `_scheduler_get_highest_priority_thread`: the priority and the head of its queue; `none` if
the queue is empty, where the program would read a thread that is none. -/
def highestPriorityThread : Option (Nat × τ) :=
  let p := ffs s.group - 1
  (s.table p).head?.map fun t => (p, t)

/-- The choice of `rt_schedule` between the running thread and the head of the highest
queue: the next thread, and `need_insert_from_thread`. -/
def choose (highest : Nat) (toThread : τ) : τ × Bool :=
  let c := s.tcb s.current
  if c.stat = .running then
    if c.currentPriority < highest then (s.current, false)
    else if c.currentPriority = highest ∧ c.yielded = false then (s.current, false)
    else (toThread, true)
  else (toThread, false)

/-- `rt_schedule` goes over to the thread `toThread`. -/
def switchTo (toThread : τ) (needInsertFromThread : Bool) : Sched τ :=
  let fromThread := s.current
  let s := { s with current := toThread }
  let s := if needInsertFromThread then s.insertThread fromThread else s
  (s.removeThread toThread).setTcb toThread fun c => { c with stat := .running }

/-- `rt_schedule`. -/
def schedule : Option (Sched τ) :=
  if s.lockNest = 0 ∧ s.group ≠ 0 then
    s.highestPriorityThread.map fun r =>
      let next := s.choose r.1 r.2
      let s := if (s.tcb s.current).stat = .running then
        s.setTcb s.current fun c => { c with yielded := false } else s
      if next.1 ≠ s.current then s.switchTo next.1 next.2
      else (s.removeThread s.current).setTcb s.current fun c => { c with stat := .running }
  else some s

/-- `rt_thread_suspend`, the scheduler's part. -/
def threadSuspend (t : τ) : Sched τ :=
  if (s.tcb t).stat = .ready ∨ (s.tcb t).stat = .running then
    (s.removeThread t).setTcb t fun c => { c with stat := .suspend }
  else s

/-- `RT_THREAD_CTRL_CHANGE_PRIORITY` of `rt_thread_control`. -/
def changePriority (t : τ) (priority : Nat) : Sched τ :=
  if (s.tcb t).stat = .ready then
    ((s.removeThread t).setTcb t fun c => { c with currentPriority := priority }).insertThread t
  else s.setTcb t fun c => { c with currentPriority := priority }

/-- `rt_thread_yield` up to its `rt_schedule`: the time slice is loaded again. -/
def reload : Sched τ :=
  s.setTcb s.current fun c => { c with remainingTick := c.initTick, yielded := true }

/-- `rt_tick_increase`, the time slice of the running thread; whether it is over. -/
def tickIncrease : Sched τ × Bool :=
  let s := s.setTcb s.current fun c =>
    { c with remainingTick := (c.remainingTick + 4294967295) % 4294967296 }
  if (s.tcb s.current).remainingTick = 0 then (s.reload, true) else (s, false)

/-- The scheduler after `rt_system_scheduler_start`: the main thread runs, the idle thread, which
has the lowest priority, is ready, and the other threads wait for their `rt_thread_startup`. -/
def boot (priority initTick : τ → Nat) (main idle : τ) : Sched τ :=
  let s : Sched τ :=
    { tcb := fun t =>
        { currentPriority := if t = idle then threadPriorityMax - 1 else priority t
          initTick := initTick t
          remainingTick := initTick t }
      current := main }
  (s.setTcb main fun c => { c with stat := .running }).insertThread idle

end Sched

end Rtos
