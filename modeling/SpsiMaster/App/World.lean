import Mathlib.Tactic.Simps.Basic
import SpsiMaster.Lib.Hist
import SpsiMaster.Radio.Encoder
import SpsiMaster.Rtos.Ipc

/-!
# The state of the application

The global variables of `applications/` and `radio/Radio_Decoder.c`, the kernel objects they are
coupled by, and the program counters of the threads. A program counter stands at a blocking call
(`rt_sem_take`, `rt_thread_mdelay`); the code from one to the next is one atomic step.

`World.hist` is a ghost: the calls that matter to a later reader (display commands, requests,
accepted frames, verdicts, posted and handled events, log records), newest first. No function of
the model reads it.
-/

namespace Spsi

open Rtos

/-! ## Radios -/

/-- `rf_info.freq`, as `heart_init` sets it. -/
def Radio.freq : Radio → Nat
  | .rf433 => 433
  | .rf4068 => 4068

def Radio.other : Radio → Radio
  | .rf433 => .rf4068
  | .rf4068 => .rf433

/-- The radio a `uint8_t` selects: `if(rf_now)`, `(select>0)?433:4068`. -/
def Radio.select (n : Nat) : Radio := if n ≠ 0 then .rf433 else .rf4068

/-- `rf_info`; the flags are only ever set to 0 and 1. -/
structure RfInfo where
  retry : Nat := 0
  alive : Bool := false
  received : Bool := false
  testreceived : Bool := false
  rssi : Int := 0
  rssiLevel : Nat := 0
  startup : Bool := false
  deriving DecidableEq

/-- The bits of `rf_event` (`warn.h`): `RF433_Offline`, `RF433_Online`, `RF4068_Offline`,
`RF4068_Online`. -/
inductive RfEvent where
  | offline (r : Radio)
  | online (r : Radio)
  deriving DecidableEq

/-- The mask of `warn_callback`, every bit there is. -/
def RfEvent.all : List RfEvent :=
  [.offline .rf433, .offline .rf4068, .online .rf433, .online .rf4068]

theorem RfEvent.mem_all (b : RfEvent) : b ∈ RfEvent.all := by
  rcases b with (_ | _) | (_ | _) <;> decide

instance {p : RfEvent → Prop} [DecidablePred p] : Decidable (∀ b, p b) :=
  decidable_of_iff (∀ b ∈ RfEvent.all, p b) ⟨fun h b => h b b.mem_all, fun h b _ => h b⟩

/-! ## Ghost events -/

/-- The calls that drive the lamps and the buzzer. `rf r mode` is `led_rf433_start(mode)` or
`led_rf4068_start(mode)`. -/
inductive LedCmd where
  | rf (r : Radio) (mode : Nat)
  | transmitterLost
  | transmitterOff
  | transmitterOn
  | receiverLost
  | receiverClose
  | receiverOff
  | receiverOn
  | receiverBlink (valve : Nat)
  | beepStart (select : Nat)
  | beepStop
  deriving DecidableEq

/-- The arguments of `File_Output`. -/
structure FileArgs where
  select : Nat
  valve : Nat
  psi : Nat
  shake : Nat
  sendNum : Nat
  rssi : Int
  first : Nat
  button : Nat
  deriving DecidableEq

inductive Ev where
  | led (c : LedCmd)
  | fileOutput (a : FileArgs)
  | heartRequest (r : Radio)
  | buttonRequest (r : Radio)
  /-- `heart_callback` looks whether the request to `r` has been answered. -/
  | judged (r : Radio)
  /-- A frame of `r` passed the id test of `Solve_433` (`Solve_4068`). -/
  | accepted (r : Radio) (command data : Int)
  /-- The fourth attempt on `r` has been judged. -/
  | verdict (r : Radio) (ok : Bool)
  /-- `alive` of `r` was set to 1. -/
  | revived (r : Radio)
  /-- `alive_count_increase` was called for `r`. -/
  | charged (r : Radio)
  | posted (b : RfEvent)
  /-- `warn_callback` has entered the branch of `b`. -/
  | handled (b : RfEvent)
  | psiLedResume
  | psiLedLost
  deriving DecidableEq

/-! ## Threads -/

/-- The threads that use `rf_lock`. -/
inductive Thread where
  | heart
  | button
  deriving DecidableEq

/-- The values of `heart_mode`. -/
inductive HeartMode where
  | send
  | check
  | randtime7
  | randtime8
  deriving DecidableEq

/-- `heart_callback` waits: in `rt_sem_take(connect_sem, 100)`, in the `rt_thread_mdelay(2000)`
after the connection request, in `rt_sem_take(heart_sem, 100)`. -/
inductive HeartPc where
  | connectTake
  | connectWait
  | heartTake
  deriving DecidableEq

/-- `buttontest_callback`: not started, in `rt_sem_take(button_sem, 100)`, in the
`rt_thread_mdelay(2000)` of a case of its `switch`; with the radio of `info_temp`. -/
inductive ButtonPc where
  | start
  | take (info : Radio)
  | wait (info : Radio) (attempt : Nat)
  deriving DecidableEq

/-- The variables of `heart.c`, less the two `rf_info`. -/
structure Heart where
  connectSem : Nat := 0
  heartSem : Nat := 0
  buttonSem : Nat := 0
  rfLock : Mutex Thread := {}
  connectTimer : Timer := { armed := true, initTick := 5000 }
  heartTimer : Timer := { initTick := 1000 }
  rfNow : Nat := 0
  heartMode : HeartMode := .send
  randTime : Nat := 0
  heartPc : HeartPc := .connectTake
  /-- The radio of `info_temp` in `heart_callback`; not read before the first `send`. -/
  heartInfo : Radio := .rf4068
  buttonPc : ButtonPc := .start
  deriving DecidableEq

/-- The variables of `psi.c`; `irq` is the enable state of the pulse interrupt. -/
structure Psi where
  psiStatus : Nat := 0
  valveStatus : Nat := 2
  psiCounter : Nat := 0
  psiLost : Bool := false
  psiSem : Nat := 0
  psiTimer : Timer := { initTick := 5000 }
  irq : Bool := true
  deriving DecidableEq

/-- The variables of `seg.c` and the levels last written to `OUT1` and `OUT2`. -/
structure Seg where
  rssiCount : Radio → Nat := fun _ => 0
  aliveConut : Radio → Nat := fun _ => 0
  seg1Level : Nat := 0
  seg2Level : Nat := 0
  out1 : Nat := 0
  out2 : Nat := 0

structure World where
  heart : Heart := {}
  info : Radio → RfInfo := fun _ => {}
  psi : Psi := {}
  seg : Seg := {}
  event : RfEvent → Bool := fun _ => false
  queue : SendQueues := SendQueues.init
  beepMode : Nat := 0
  selfId : UInt32 := 50000000
  targetId : UInt32 := 60000000
  hist : List Ev := []

/-- After the initialisations of `main`: `led_Init` has shown the PSI as off. -/
def World.init : World := { hist := [.led .transmitterOff] }

namespace World

@[simps -fullyApplied] def log (w : World) (e : Ev) : World := { w with hist := e :: w.hist }

@[simps -fullyApplied] def onHeart (w : World) (f : Heart → Heart) : World :=
  { w with heart := f w.heart }

@[simps -fullyApplied] def onPsi (w : World) (f : Psi → Psi) : World := { w with psi := f w.psi }

@[simps -fullyApplied] def onSeg (w : World) (f : Seg → Seg) : World := { w with seg := f w.seg }

@[simps -fullyApplied] def onQueue (w : World) (f : SendQueues → SendQueues) : World :=
  { w with queue := f w.queue }

@[simps -fullyApplied] def onInfo (w : World) (r : Radio) (f : RfInfo → RfInfo) : World :=
  { w with info := Function.update w.info r (f (w.info r)) }

/-- `rt_event_send(&rf_event, b)`. -/
@[simps -fullyApplied] def post (w : World) (b : RfEvent) : World :=
  { w with event := eventSend w.event b, hist := .posted b :: w.hist }

/-- `File_Output(…)`, by its arguments. -/
@[simps! -fullyApplied] def fileOutput (w : World) (a : FileArgs) : World := w.log (.fileOutput a)

end World

theorem Radio.eq_or_eq_other (r r' : Radio) : r' = r ∨ r' = r.other := by
  cases r <;> cases r' <;> simp [Radio.other]

theorem Radio.other_ne (r : Radio) : r.other ≠ r := by cases r <;> decide

end Spsi
