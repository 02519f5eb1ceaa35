import SpsiMaster.Lib.Run
import SpsiMaster.Lib.Serial
import SpsiMaster.Rtos.Ipc

/-!
# Software timers

`rt-thread/src/timer.c` with one level of the skip list (`RT_TIMER_SKIP_LIST_LEVEL` is 1): the
list of the software timers, the functions that work on it and the timer thread, as atomic steps.
What runs with interrupts disabled is one step, and so is what the timer thread does from one such
region to the next. A callback runs with interrupts enabled: the calls it makes are steps between
the one that takes its timer off the list and `callback`'s return.

`rt_tick` and the ticks of the timers are 32 bits wide. The thread that waits in
`rt_thread_delay` is woken by its own timer at a tick, or by `rt_timer_start`.
-/

namespace Rtos

/-- `RT_TICK_MAX`. -/
def tickMax : Nat := 4294967295

/-- The period of `rt_tick_t`. -/
def tickPeriod : Nat := 4294967296

/-- The difference of two values of type `rt_tick_t`. -/
def tickSub (a b : Nat) : Nat := Serial.sub tickPeriod a b

/-- `(a - b) < RT_TICK_MAX / 2`: `a` is not before `b`. -/
def notBefore (a b : Nat) : Bool := tickSub a b < tickMax / 2

/-- `struct rt_timer`, a software timer; the flags of `parent.flag` one by one. -/
structure TimerObj where
  timeoutTick : Nat := 0
  initTick : Nat
  periodic : Bool := false
  activated : Bool := false
  deriving DecidableEq

/-- A timer after `rt_timer_start`. -/
def TimerObj.started (o : TimerObj) (tick : Nat) : TimerObj :=
  { o with timeoutTick := (tick + o.initTick) % tickPeriod, activated := true }

/-- Where the timer thread stands in `_timer_thread_entry`: before `_timer_list_next_timeout`; at
the branch on its result, before `rt_tick_get`; suspended; before `rt_thread_delay`, with the ticks
it has computed; in `rt_thread_delay`, with the tick its own timer is set to; at the head of the
loop in `rt_soft_timer_check`; in a callback. -/
inductive TimerPc (τ : Type) where
  | top
  | decide (nextTimeout : Nat)
  | suspended
  | delay (ticks : Nat)
  | delaying (timeoutTick : Nat)
  | check
  | callback (t : τ)
  deriving DecidableEq

/-- `rt_thread_resume(&_timer_thread)` if the thread is suspended. In a callback
`_soft_timer_status` is busy. -/
def TimerPc.resume {τ : Type} : TimerPc τ → TimerPc τ
  | .suspended | .delaying _ => .check
  | pc => pc

/-- `_soft_timer_list` with its timers and its thread. `pending` is the list `list` of
`rt_soft_timer_check`, which never holds more than one timer. -/
structure SoftTimers (τ : Type) where
  tick : Nat := 0
  obj : τ → TimerObj
  list : List τ := []
  pending : Option τ := none
  pc : TimerPc τ := .top

namespace SoftTimers

variable {τ : Type} [DecidableEq τ] (s : SoftTimers τ)

def setObj (t : τ) (f : TimerObj → TimerObj) : SoftTimers τ :=
  { s with obj := Function.update s.obj t (f (s.obj t)) }

/-- `_timer_remove`: the timer leaves the list it is in. -/
def timerRemove (t : τ) : SoftTimers τ :=
  { s with
    list := s.list.erase t
    pending := if s.pending = some t then none else s.pending }

/-- `_timer_list_next_timeout`. -/
def timerListNextTimeout : Nat :=
  match s.list with
  | [] => tickMax
  | t :: _ => (s.obj t).timeoutTick

/-- The search for `row_head` and the insertion behind it. -/
def timerInsert (obj : τ → TimerObj) (timer : τ) : List τ → List τ
  | [] => [timer]
  | t :: ts =>
    if tickSub (obj t).timeoutTick (obj timer).timeoutTick = 0 then t :: timerInsert obj timer ts
    else if notBefore (obj t).timeoutTick (obj timer).timeoutTick then timer :: t :: ts
    else t :: timerInsert obj timer ts

/-- `rt_timer_start`; a failed assertion stops the program. -/
def timerStart (t : τ) : Option (SoftTimers τ) :=
  let s := (s.timerRemove t).setObj t fun o => { o with activated := false }
  if (s.obj t).initTick < tickMax / 2 then
    let s := s.setObj t fun o => { o with timeoutTick := (s.tick + o.initTick) % tickPeriod }
    let s := { s with list := timerInsert s.obj t s.list }
    let s := s.setObj t fun o => { o with activated := true }
    some { s with pc := s.pc.resume }
  else none

/-- `rt_timer_stop`. -/
def timerStop (t : τ) : SoftTimers τ :=
  if (s.obj t).activated then (s.timerRemove t).setObj t fun o => { o with activated := false }
  else s

/-- The commands of `rt_timer_control` that change a timer. -/
inductive Ctrl where
  | setTime (time : Nat)
  | setOneshot
  | setPeriodic

/-- `rt_timer_control`. -/
def timerControl (t : τ) (cmd : Ctrl) : SoftTimers τ :=
  s.setObj t fun o =>
    match cmd with
    | .setTime time => { o with initTick := time }
    | .setOneshot => { o with periodic := false }
    | .setPeriodic => { o with periodic := true }

/-- `rt_tick_increase`, and `rt_timer_check` on the timer of the thread. -/
def tickIncrease : SoftTimers τ :=
  let s := { s with tick := (s.tick + 1) % tickPeriod }
  match s.pc with
  | .delaying timeoutTick => if notBefore s.tick timeoutTick then { s with pc := .check } else s
  | _ => s

/-! ## The timer thread -/

/-- The loop of `rt_soft_timer_check` up to the call of the timeout function. -/
def softTimerCheck : SoftTimers τ :=
  match s.list with
  | [] => { s with pc := .top }
  | t :: _ =>
    if notBefore s.tick (s.obj t).timeoutTick then
      let s := (s.timerRemove t).setObj t fun o =>
        if o.periodic then o else { o with activated := false }
      { s with pending := some t, pc := .callback t }
    else { s with pc := .top }

/-- The rest of the loop, after the timeout function of `t` has returned. -/
def callbackReturn (t : τ) : Option (SoftTimers τ) :=
  let s := { s with pc := .check }
  if s.pending = none then some s
  else
    let s := { s with pending := none }
    if (s.obj t).periodic ∧ (s.obj t).activated then
      (s.setObj t fun o => { o with activated := false }).timerStart t
    else some s

/-- The branch of `_timer_thread_entry`, with the tick that `rt_tick_get` returns. -/
def timerDecide (nextTimeout : Nat) : SoftTimers τ :=
  if nextTimeout = tickMax then { s with pc := .suspended }
  else if notBefore nextTimeout s.tick then { s with pc := .delay (tickSub nextTimeout s.tick) }
  else { s with pc := .check }

/-- `rt_thread_delay` up to its `rt_schedule`: `rt_timer_start` reads the tick again. -/
def threadDelay (ticks : Nat) : SoftTimers τ :=
  { s with pc := .delaying ((s.tick + ticks) % tickPeriod) }

/-- A step of `_timer_thread_entry`. -/
def timerThreadEntry : Option (SoftTimers τ) :=
  match s.pc with
  | .top => some { s with pc := .decide s.timerListNextTimeout }
  | .decide nextTimeout => some (s.timerDecide nextTimeout)
  | .delay ticks => some (s.threadDelay ticks)
  | .suspended | .delaying _ => none
  | .check => some s.softTimerCheck
  | .callback t => s.callbackReturn t

/-! ## What a call does -/

omit [DecidableEq τ] in
/-- The search reads the timeouts only. -/
theorem timerInsert_congr {obj obj' : τ → TimerObj}
    (h : ∀ t, (obj' t).timeoutTick = (obj t).timeoutTick) (timer : τ) (ts : List τ) :
    timerInsert obj' timer ts = timerInsert obj timer ts := by
  induction ts with
  | nil => rfl
  | cons t ts ih => rw [timerInsert, timerInsert, ih, h, h]

theorem timerStart_spec {t : SoftTimers τ} {u : τ} (h : s.timerStart u = some t) :
    (s.obj u).initTick < tickMax / 2 ∧ t.tick = s.tick ∧
      t.obj = Function.update s.obj u ((s.obj u).started s.tick) ∧
      t.list = timerInsert t.obj u (s.list.erase u) ∧
      t.pending = (if s.pending = some u then none else s.pending) ∧ t.pc = s.pc.resume := by
  simp only [timerStart, setObj, timerRemove, Function.update_self, Function.update_idem] at h
  split at h
  · next hlt =>
    cases h
    refine ⟨hlt, ?_⟩
    have hinsert : ∀ o o' : TimerObj, o'.timeoutTick = o.timeoutTick →
        timerInsert (Function.update s.obj u o') u (s.list.erase u) =
          timerInsert (Function.update s.obj u o) u (s.list.erase u) := by
      intro o o' ho
      refine timerInsert_congr (fun v => ?_) u _
      by_cases hv : v = u
      · subst hv
        rw [Function.update_self, Function.update_self, ho]
      · rw [Function.update_of_ne hv, Function.update_of_ne hv]
    exact ⟨rfl, rfl, hinsert _ _ rfl, rfl, rfl⟩
  · cases h

end SoftTimers

inductive TimerAct (τ : Type) where
  | tick
  | start (t : τ)
  | stop (t : τ)
  | control (t : τ) (cmd : SoftTimers.Ctrl)
  | thread

/-- The ticks, the calls of the program and the timer thread, in any order. -/
def SoftTimers.step {τ : Type} [DecidableEq τ] : Run.Step (SoftTimers τ) (TimerAct τ)
  | s, .tick => some s.tickIncrease
  | s, .start t => s.timerStart t
  | s, .stop t => some (s.timerStop t)
  | s, .control t cmd => some (s.timerControl t cmd)
  | s, .thread => s.timerThreadEntry

end Rtos
