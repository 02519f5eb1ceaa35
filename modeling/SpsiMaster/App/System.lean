import SpsiMaster.App.Warn
import SpsiMaster.Radio.Decoder

/-!
# The program

`World.step`: the threads, timers and interrupts of the program as atomic steps in any order. A
thread's step is its code between two blocking calls. A timer fires only while it is armed; the
pulse interrupt fires only while it is enabled; a radio task calls its callback only for a packet
with `RxLen` other than 0. What the program cannot determine (the random number, the packet and
its signal strength, the stack) comes with the action.
-/

namespace Spsi

open Rtos

inductive Act where
  | heart (rand : Nat)
  | button
  | press
  | heartTimer
  | connectTimer
  | rx (r : Radio) (rssi : Int) (stack : Message) (rxBuffer : RxBuffer) (rxLen : Nat)
  | warn
  | psi
  | psiPin
  | psiTimer
  | seg
  | dequeue (r : Radio)
  | upload
  deriving DecidableEq

def World.step : Run.Step World Act
  | w, .heart rand => some (w.heartCallback rand)
  | w, .button => some w.buttontestCallback
  | w, .press => some w.heartSingle
  | w, .heartTimer =>
    if w.heart.heartTimer.armed then
      some (w.onHeart fun h => { h with heartTimer := h.heartTimer.expire }).heartTimerCallback
    else none
  | w, .connectTimer =>
    -- a periodic timer stays armed
    if w.heart.connectTimer.armed then some w.connectTimerCallback else none
  | w, .rx r rssi stack rxBuffer rxLen =>
    if rxLen ≠ 0 then some (World.rxCallback r stack w rssi rxBuffer rxLen) else none
  | w, .warn => some w.warnCallback
  | w, .psi => some w.psiThreadCallback
  | w, .psiPin => if w.psi.irq then some w.psiPinCallback else none
  | w, .psiTimer =>
    if w.psi.psiTimer.armed then
      some (w.onPsi fun p => { p with psiTimer := p.psiTimer.expire }).psiTimerCallback
    else none
  | w, .seg => some (w.onSeg Seg.callback)
  | w, .dequeue .rf433 => some (w.onQueue rf433Dequeue)
  | w, .dequeue .rf4068 => some (w.onQueue rf4068Dequeue)
  | w, .upload => some w.longUpload

end Spsi
