import Mathlib.Logic.Function.Basic

/-!
# RT-Thread kernel objects

The kernel objects the application uses (`rt-thread/src/ipc.c`, `rt-thread/src/timer.c`), with
the calls it makes on them. A semaphore is its value. A thread that waits in `rt_sem_take` when
the semaphore is released is modelled by the value: the token stays in it until the thread runs.
A mutex is its owner and its hold count (`mutex->value` is 1 exactly when there is no owner). An
event object is the set of its pending bits. `Rtos/Proof/IpcValues.lean` has this for the
semaphores and mutexes from the calls with their waiting threads, `Rtos/Proof/TimerThread.lean` for
the timers from the timer list.
-/

namespace Rtos

/-! ## Semaphores -/

/-- `RT_SEM_VALUE_MAX`. -/
def semValueMax : Nat := 65535

/-- `rt_sem_release`. -/
def semRelease (value : Nat) : Nat :=
  if value < semValueMax then value + 1 else value

/-- `rt_sem_take` at the moment the thread runs again: the semaphore after an `RT_EOK`, `none`
when the time is over (`-RT_ETIMEOUT`). -/
def semTake (value : Nat) : Option Nat :=
  if 0 < value then some (value - 1) else none

@[simp] theorem semRelease_zero : semRelease 0 = 1 := rfl

@[simp] theorem semTake_eq_some {v u : Nat} : semTake v = some u ↔ v = u + 1 := by
  unfold semTake
  split <;> simp <;> omega

/-! ## Mutexes -/

/-- `RT_MUTEX_HOLD_MAX`. -/
def mutexHoldMax : Nat := 255

/-- `struct rt_mutex`, for threads named by `τ`. -/
structure Mutex (τ : Type) where
  owner : Option τ := none
  hold : Nat := 0
  deriving DecidableEq

namespace Mutex

variable {τ : Type} [DecidableEq τ]

/-- `rt_mutex_trytake` by thread `t`: whether it returns `RT_EOK`, and the mutex after it. -/
def trytake (m : Mutex τ) (t : τ) : Bool × Mutex τ :=
  if m.owner = some t then
    if m.hold < mutexHoldMax then (true, { m with hold := m.hold + 1 }) else (false, m)
  else if m.owner = none then (true, { owner := some t, hold := m.hold + 1 })
  else (false, m)

/-- `rt_mutex_release` by thread `t`: only the owner's call has an effect. -/
def release (m : Mutex τ) (t : τ) : Mutex τ :=
  if m.owner ≠ some t then m
  else if m.hold - 1 = 0 then { owner := none, hold := 0 }
  else { m with hold := m.hold - 1 }

@[simp] theorem trytake_free (t : τ) : (⟨none, 0⟩ : Mutex τ).trytake t = (true, ⟨some t, 1⟩) := rfl

theorem trytake_held {m : Mutex τ} {t u : τ} (h : m.owner = some u) (hne : u ≠ t) :
    m.trytake t = (false, m) := by
  simp [trytake, h, hne]

@[simp] theorem release_once (t : τ) : (⟨some t, 1⟩ : Mutex τ).release t = ⟨none, 0⟩ := by
  simp [release]

end Mutex

/-! ## Timers -/

/-- `struct rt_timer`: the activated flag and `init_tick`. -/
structure Timer where
  armed : Bool := false
  initTick : Nat := 0
  deriving DecidableEq

namespace Timer

/-- `rt_timer_start`: a running timer is taken out of the list and started afresh. -/
def start (t : Timer) : Timer := { t with armed := true }

/-- `rt_timer_stop`. -/
def stop (t : Timer) : Timer := { t with armed := false }

/-- `rt_timer_control` with `RT_TIMER_CTRL_SET_TIME`. -/
def setTime (t : Timer) (time : Nat) : Timer := { t with initTick := time }

/-- The timer at the call of its timeout function, one-shot. -/
def expire (t : Timer) : Timer := { t with armed := false }

@[simp] theorem start_armed (t : Timer) : t.start.armed = true := rfl
@[simp] theorem stop_armed (t : Timer) : t.stop.armed = false := rfl
@[simp] theorem expire_armed (t : Timer) : t.expire.armed = false := rfl

end Timer

/-! ## Events -/

section
variable {ε : Type} [DecidableEq ε]

/-- `rt_event_send` of one bit. -/
def eventSend (set : ε → Bool) (bit : ε) : ε → Bool := Function.update set bit true

/-- `rt_event_recv` with `RT_EVENT_FLAG_OR | RT_EVENT_FLAG_CLEAR` and no waiting, on a mask that
holds every bit: the bits received and the event object after it. -/
def eventRecv (bits : List ε) (set : ε → Bool) : Option ((ε → Bool) × (ε → Bool)) :=
  if bits.any set then some (set, fun _ => false) else none

@[simp] theorem eventSend_self (set : ε → Bool) (b : ε) : eventSend set b b = true := by
  simp [eventSend]

@[simp] theorem eventSend_of_ne (set : ε → Bool) {b c : ε} (h : c ≠ b) :
    eventSend set b c = set c := by simp [eventSend, h]

theorem eventSend_eq_true {set : ε → Bool} {b c : ε} :
    eventSend set b c = true ↔ c = b ∨ set c = true := by
  by_cases h : c = b
  · simp [h]
  · simp [h]

end

end Rtos
