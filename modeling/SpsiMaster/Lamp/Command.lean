import SpsiMaster.App.World
import SpsiMaster.Lamp.AgileLed

/-!
# The lamp commands

`applications/led.c`: the functions that drive the lamps, as the calls they make of the LED
package, and the program that runs them. The functions of the two radios are the same code on
LED1 to LED3 and on LED4 to LED6.

`LampAct`: a command is called, the next of its calls is made, or the LED thread calls
`agile_led_process`. The calls of one command are made one after the other; `agile_led_process`
may come in between. `Lamps.last` is a ghost, the last command of each group of lamps.
-/

namespace Spsi

/-! ## LEDs -/

inductive Lamp where
  | led1 | led2 | led3 | led4 | led5 | led6 | led7 | led8
  deriving DecidableEq

/-- The green and the red LED of a lamp: `LED1_G`, `LED1_R` and so on. -/
inductive Led where
  | g (n : Lamp)
  | r (n : Lamp)
  deriving DecidableEq

/-- The lamps that a command is about. -/
inductive Group where
  | rf (r : Radio)
  | transmitter
  | receiver
  deriving DecidableEq

def Lamp.group : Lamp → Group
  | .led1 | .led2 | .led3 => .rf .rf433
  | .led4 | .led5 | .led6 => .rf .rf4068
  | .led7 => .transmitter
  | .led8 => .receiver

def Led.lamp : Led → Lamp
  | .g n | .r n => n

def Led.group (l : Led) : Group := l.lamp.group

/-! ## Calls -/

/-- The calls of `agile_led_set_light_mode`, `agile_led_start`, `agile_led_stop` and
`agile_led_off`. -/
inductive LedCall where
  | setLightMode (l : Led) (lightMode : List UInt8) (loopCnt : Int)
  | start (l : Led)
  | stop (l : Led)
  | off (l : Led)
  deriving DecidableEq

def LedCall.led : LedCall → Led
  | .setLightMode l _ _ | .start l | .stop l | .off l => l

/-- A call at the tick `now`. -/
def LedCall.run (now : UInt32) (e : AgileLeds Led) : LedCall → AgileLeds Led
  | .setLightMode l lightMode loopCnt => e.setLightMode l lightMode loopCnt now
  | .start l => e.start l now
  | .stop l => e.stop l
  | .off l => e.off l

/-- `"300,150"`. -/
def rfMode : List UInt8 := Printf.ascii "300,150"

/-- `"300,100"`. -/
def statusMode : List UInt8 := Printf.ascii "300,100"

/-- `"100,100,100,100"`. -/
def blinkMode : List UInt8 := Printf.ascii "100,100,100,100"

/-! ## The functions of `led.c` -/

section
variable (a b c : Lamp)

def rfLost : List LedCall :=
  [.setLightMode (.r a) rfMode 1, .setLightMode (.r b) rfMode 1, .setLightMode (.r c) rfMode 1,
    .stop (.g a), .stop (.g b), .stop (.g c), .off (.g a), .off (.g b), .off (.g c),
    .start (.r a), .start (.r b), .start (.r c)]

def rfUltralow : List LedCall :=
  [.setLightMode (.r a) rfMode 1, .setLightMode (.g a) rfMode 1,
    .stop (.r b), .stop (.g b), .stop (.r c), .stop (.g c),
    .off (.r b), .off (.g b), .off (.r c), .off (.g c), .start (.g a), .start (.r a)]

def rfLow : List LedCall :=
  [.setLightMode (.g a) rfMode 1,
    .stop (.r a), .stop (.r b), .stop (.g b), .stop (.r c), .stop (.g c),
    .off (.r a), .off (.r b), .off (.g b), .off (.r c), .off (.g c), .start (.g a)]

def rfMid : List LedCall :=
  [.setLightMode (.g a) rfMode 1, .setLightMode (.g b) rfMode 1,
    .stop (.r a), .stop (.r b), .stop (.r c), .stop (.g c),
    .off (.r a), .off (.r b), .off (.r c), .off (.g c), .start (.g a), .start (.g b)]

def rfHigh : List LedCall :=
  [.setLightMode (.g a) rfMode 1, .setLightMode (.g b) rfMode 1, .setLightMode (.g c) rfMode 1,
    .stop (.r a), .stop (.r b), .stop (.r c), .off (.r a), .off (.r b), .off (.r c),
    .start (.g a), .start (.g b), .start (.g c)]

end

def rf433Lost : List LedCall := rfLost .led1 .led2 .led3
def rf433Ultralow : List LedCall := rfUltralow .led1 .led2 .led3
def rf433Low : List LedCall := rfLow .led1 .led2 .led3
def rf433Mid : List LedCall := rfMid .led1 .led2 .led3
def rf433High : List LedCall := rfHigh .led1 .led2 .led3

def rf4068Lost : List LedCall := rfLost .led4 .led5 .led6
def rf4068Ultralow : List LedCall := rfUltralow .led4 .led5 .led6
def rf4068Low : List LedCall := rfLow .led4 .led5 .led6
def rf4068Mid : List LedCall := rfMid .led4 .led5 .led6
def rf4068High : List LedCall := rfHigh .led4 .led5 .led6

def ledRf433Start : Nat → List LedCall
  | 1 => rf433Lost
  | 2 => rf433Ultralow
  | 3 => rf433Low
  | 4 => rf433Mid
  | 5 => rf433High
  | _ => []

def ledRf4068Start : Nat → List LedCall
  | 1 => rf4068Lost
  | 2 => rf4068Ultralow
  | 3 => rf4068Low
  | 4 => rf4068Mid
  | 5 => rf4068High
  | _ => []

def transmitterLost : List LedCall :=
  [.setLightMode (.r .led7) statusMode 1, .off (.g .led7), .start (.r .led7)]

def transmitterOff : List LedCall :=
  [.setLightMode (.r .led7) statusMode 1, .setLightMode (.g .led7) statusMode 1,
    .start (.g .led7), .start (.r .led7)]

def transmitterOn : List LedCall :=
  [.setLightMode (.g .led7) statusMode 1, .off (.r .led7), .start (.g .led7)]

def receiverLost : List LedCall :=
  [.setLightMode (.r .led8) statusMode 1, .off (.g .led8), .start (.r .led8)]

def receiverClose : List LedCall :=
  [.stop (.g .led8), .stop (.r .led8), .off (.g .led8), .off (.r .led8)]

def receiverBlink (valve : Nat) : List LedCall :=
  if valve ≠ 0 then
    [.setLightMode (.g .led8) blinkMode 4, .off (.g .led8), .start (.g .led8)]
  else
    [.setLightMode (.r .led8) blinkMode 4, .setLightMode (.g .led8) blinkMode 4,
      .off (.r .led8), .off (.g .led8), .start (.r .led8), .start (.g .led8)]

def receiverOff : List LedCall :=
  [.setLightMode (.r .led8) statusMode 1, .setLightMode (.g .led8) statusMode 1,
    .start (.g .led8), .start (.r .led8)]

def receiverOn : List LedCall :=
  [.setLightMode (.g .led8) statusMode 1, .off (.r .led8), .start (.g .led8)]

namespace LedCmd

/-- What a command calls; the buzzer is not a lamp. -/
def calls : LedCmd → List LedCall
  | .rf .rf433 mode => ledRf433Start mode
  | .rf .rf4068 mode => ledRf4068Start mode
  | .transmitterLost => Spsi.transmitterLost
  | .transmitterOff => Spsi.transmitterOff
  | .transmitterOn => Spsi.transmitterOn
  | .receiverLost => Spsi.receiverLost
  | .receiverClose => Spsi.receiverClose
  | .receiverOff => Spsi.receiverOff
  | .receiverOn => Spsi.receiverOn
  | .receiverBlink valve => Spsi.receiverBlink valve
  | .beepStart _ | .beepStop => []

/-- The group of a command that sets all the LEDs of a group. -/
def group : LedCmd → Option Group
  | .rf r mode => if 1 ≤ mode ∧ mode ≤ 5 then some (.rf r) else none
  | .transmitterLost | .transmitterOff | .transmitterOn => some .transmitter
  | .receiverLost | .receiverClose | .receiverOff | .receiverOn => some .receiver
  | .receiverBlink _ | .beepStart _ | .beepStop => none

end LedCmd

/-! ## The program -/

/-- The objects, the calls of the current command that are still to be made, and the last command
of each group. -/
structure Lamps where
  leds : AgileLeds Led
  pending : List LedCall := []
  last : Group → Option LedCmd := fun _ => none

/-- `led_Init` up to `psi_led_init`, at the tick `now`. -/
def Lamps.init (now : UInt32) : Lamps where
  leds :=
    { led := fun
        | .g .led1 | .r .led1 | .g .led7 | .r .led7 | .r .led8 =>
          AgileLed.create (Printf.ascii "100,300,500") 1 now
        | _ => AgileLed.create (Printf.ascii "100,100,100") 1 now
      slist := [] }

inductive LampAct where
  | call (c : LedCmd)
  | exec (now : UInt32)
  | tick (now : UInt32)
  deriving DecidableEq

namespace Lamps

/-- The steps. A command is called when the one before has returned. -/
def step : Run.Step Lamps LampAct
  | s, .call c =>
    match s.pending, c.group with
    | [], some g =>
      some { s with pending := c.calls, last := Function.update s.last g (some c) }
    | _, _ => none
  | s, .exec now =>
    match s.pending with
    | p :: ps => some { s with leds := p.run now s.leds, pending := ps }
    | [] => none
  | s, .tick now => some { s with leds := s.leds.process now }

end Lamps

end Spsi
