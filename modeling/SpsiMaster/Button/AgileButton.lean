import SpsiMaster.Lib.CInt
import SpsiMaster.Rtos.SoftTimer

/-!
# The button

`packages/agile_button-latest/src/agile_button.c` and `applications/button.c`: a button object and
`agile_btn_process`, which its thread calls every 5 ms. A pass reads the pin at most once; the
cases `BTN_STATE_PRESS_DOWN` and `BTN_STATE_PRESS_UP` do not read it. The tick does not advance
within a pass.
-/

namespace Spsi

open CInt Rtos

/-- `enum agile_btn_event`. -/
inductive BtnEvent where
  | pressDown
  | hold
  | pressUp
  | click
  deriving DecidableEq

/-- `enum agile_btn_state`. -/
inductive BtnState where
  | nonePress
  | checkPress
  | pressDown
  | pressHold
  | pressUp
  deriving DecidableEq

/-- `agile_btn_t`; `event` is `none` for `BTN_EVENT_SUM`. -/
structure AgileBtn where
  repeatCnt : Nat := 0
  eliminationTime : Nat := 15
  event : Option BtnEvent := none
  state : BtnState := .nonePress
  holdTime : Nat := 0
  prevHoldTime : Nat := 0
  holdCycleTime : Nat := 1000
  activeLogic : Nat
  tickTimeout : Nat
  deriving DecidableEq

namespace AgileBtn

/-- `agile_btn_create`. -/
def create (activeLogic tick : Nat) : AgileBtn := { activeLogic, tickTimeout := tick }

/-- `agile_btn_set_elimination_time`; the argument is a `uint8_t`. -/
def setEliminationTime (b : AgileBtn) (time : Nat) : AgileBtn :=
  { b with eliminationTime := u8 time }

/-- `agile_btn_set_hold_cycle_time`. -/
def setHoldCycleTime (b : AgileBtn) (time : Nat) : AgileBtn := { b with holdCycleTime := time }

/-- `agile_btn_start`. -/
def start (b : AgileBtn) (tick : Nat) : AgileBtn :=
  { b with
    repeatCnt := 0
    event := none
    state := .nonePress
    holdTime := 0
    prevHoldTime := 0
    tickTimeout := tick }

/-- `agile_btn_cal_hold_time`. -/
def calHoldTime (b : AgileBtn) (tick : Nat) : AgileBtn :=
  { b with
    holdTime :=
      if tick < b.tickTimeout then (tickMax - b.tickTimeout + tick) % tickPeriod
      else tick - b.tickTimeout }

/-- One turn of the loop in `agile_btn_process`: the object and the callbacks that are called. -/
def process (b : AgileBtn) (pin tick : Nat) : AgileBtn × List BtnEvent :=
  match b.state with
  | .nonePress =>
    if pin = b.activeLogic then
      ({ b with tickTimeout := (tick + b.eliminationTime) % tickPeriod, state := .checkPress }, [])
    else if b.repeatCnt ≠ 0 ∧ notBefore tick b.tickTimeout then ({ b with repeatCnt := 0 }, [])
    else (b, [])
  | .checkPress =>
    if pin = b.activeLogic then
      if notBefore tick b.tickTimeout then ({ b with state := .pressDown }, []) else (b, [])
    else ({ b with state := .nonePress }, [])
  | .pressDown =>
    ({ b with
      holdTime := 0
      prevHoldTime := 0
      repeatCnt := u8 (b.repeatCnt + 1)
      event := some .pressDown
      tickTimeout := tick
      state := .pressHold }, [.pressDown])
  | .pressHold =>
    if pin = b.activeLogic then
      let b := b.calHoldTime tick
      if tickSub b.holdTime b.prevHoldTime ≥ b.holdCycleTime then
        ({ b with event := some .hold, prevHoldTime := b.holdTime }, [.hold])
      else (b, [])
    else ({ b with state := .pressUp }, [])
  | .pressUp =>
    ({ b with
      event := some .click
      tickTimeout := (tick + 500) % tickPeriod
      state := .nonePress }, [.pressUp, .click])

end AgileBtn

/-- `button_init`: active at `PIN_LOW`. -/
def buttonInit (tick : Nat) : AgileBtn :=
  (((AgileBtn.create 0 tick).setEliminationTime 50).setHoldCycleTime 3000).start tick

/-! ## The thread -/

/-- A pass of the thread, with the level of the pin. -/
structure Pass where
  time : Nat
  active : Bool
  deriving DecidableEq

/-- The button with the time and, newest first, the passes and the callbacks, each with its time. -/
structure ButtonRun where
  btn : AgileBtn
  now : Nat
  passes : List Pass := []
  events : List (BtnEvent × Nat) := []

/-- `agile_btn_auto_thread_entry`: a pass some ticks after the last one, at the level `pin`. -/
structure BtnAct where
  ticks : Nat
  pin : Nat
  deriving DecidableEq

def ButtonRun.step : Run.Step ButtonRun BtnAct
  | s, a =>
    if 0 < a.ticks then
      let now := s.now + a.ticks
      let r := s.btn.process a.pin (now % tickPeriod)
      some
        { btn := r.1
          now
          passes := ⟨now, a.pin = s.btn.activeLogic⟩ :: s.passes
          events := (r.2.map fun e => (e, now)).reverse ++ s.events }
    else none

end Spsi
