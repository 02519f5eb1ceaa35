import SpsiMaster.Radio.Transmit

/-!
# The send timer

Every send starts the send timer, and its expiry restarts a radio that is not back in
`trxstate_rx` by then. The interrupt that ends a transmission stops the timer before it looks at
`RADIOSTATE`; while the chip is still busy it leaves the radio in `trxstate_tx_waitdone`, now
without a timer. `transmission_guarded_iff`: a transmission is always guarded along a schedule
exactly when no such interrupt finds the chip busy.
-/

namespace Spsi

open Rtos Run

/-- The states from the send of a packet to its end. -/
def RfState.transmits : RfState → Bool
  | .txXtalwait | .txLongpreamble | .txShortpreamble | .txPacket | .txWaitdone => true
  | _ => false

/-- A radio that transmits has its timer armed, and the expiry takes it back to `trxstate_rx`. -/
def Guarded (tag : UInt8) (selfId : UInt32) (t : RadioTask) : Prop :=
  t.dev.ubRFState.transmits = true → t.sendTimer.armed = true ∧
    ∃ t', radioStep tag selfId t .sendTimer = some t' ∧ t'.dev.ubRFState = .rx

/-- An interrupt in `trxstate_tx_waitdone` reads 0 from `RADIOSTATE`. -/
def EndsIdle (t : RadioTask) (a : RadioAct) (_ : RadioTask) : Prop :=
  ∀ turns, a = .irq turns → t.dev.ubRFState = .txWaitdone → t.dev.reads .radiostate 0 = 0

variable {tag : UInt8} {selfId : UInt32}

theorem guarded_of_armed {t : RadioTask}
    (h : t.dev.ubRFState.transmits = true → t.sendTimer.armed = true) : Guarded tag selfId t := by
  intro ht
  have ha : t.sendTimer.armed = true := h ht
  refine ⟨ha, _, if_pos ha, ?_⟩
  unfold RadioTask.sendTimerCallback
  split
  · rfl
  · next hrx => exact not_not.1 hrx

/-- What `TransmitData` leaves in the device does not matter to the timer. -/
theorem guarded_transmitData {t u : RadioTask} (ha : t.sendTimer.armed = true) {turns : Nat}
    {dev : Transmitter} (hu : (dev.transmitData turns).map (fun dev => { t with dev }) = some u) :
    Guarded tag selfId u := by
  obtain ⟨dev', -, rfl⟩ := Option.map_eq_some_iff.1 hu
  exact guarded_of_armed fun _ => ha

theorem guarded_irq {t u : RadioTask} {turns : Nat} (h : Guarded tag selfId t)
    (hu : t.irq turns = some u) (hq : EndsIdle t (.irq turns) u) : Guarded tag selfId u := by
  have hq := hq turns rfl
  unfold RadioTask.irq at hu
  cases hs : t.dev.ubRFState with
  | txXtalwait =>
    have ha : t.sendTimer.armed = true := (h (by rw [hs]; rfl)).1
    rw [hs] at hu
    exact guarded_transmitData ha hu
  | txLongpreamble | txShortpreamble | txPacket =>
    have ha : t.sendTimer.armed = true := (h (by rw [hs]; rfl)).1
    rw [hs] at hu
    exact guarded_transmitData ha hu
  | txWaitdone =>
    have hidle : t.dev.reads .radiostate 0 = 0 := hq hs
    rw [hs] at hu
    have hread : ((t.dev.read .radioeventreq0).2.read .radiostate).1 = 0 := by
      simpa [Transmitter.read] using hidle
    simp only [hread, ne_eq, not_true_eq_false, if_false, Option.some.injEq] at hu
    subst hu
    exact guarded_of_armed fun ht => nomatch ht
  | waitXtal | pllRanging | pllSettling =>
    rw [hs] at hu
    cases hu
    exact guarded_of_armed fun ht => nomatch ht
  | _ =>
    rw [hs] at hu
    cases hu
    exact h

theorem guarded_step {t u : RadioTask} {a : RadioAct} (h : Guarded tag selfId t)
    (hu : radioStep tag selfId t a = some u) (hq : EndsIdle t a u) : Guarded tag selfId u := by
  cases a with
  | irq turns => exact guarded_irq h hu hq
  | send m =>
    obtain rfl : t.send tag selfId m = u := Option.some.inj hu
    exact guarded_of_armed fun _ => rfl
  | sendTimer =>
    simp only [radioStep, Option.ite_none_right_eq_some, Option.some.injEq] at hu
    obtain ⟨ha, rfl⟩ := hu
    apply guarded_of_armed
    intro ht
    -- after the callback the radio is in `trxstate_rx`
    unfold RadioTask.sendTimerCallback at ht
    split at ht
    · cases ht
    · next hrx =>
      rw [not_not.1 hrx] at ht
      cases ht

/-- An interrupt that finds the chip busy leaves the radio waiting with no timer. -/
theorem guarded_break {t u : RadioTask} {a : RadioAct}
    (hu : radioStep tag selfId t a = some u) (hq : ¬ EndsIdle t a u) : ¬ Guarded tag selfId u := by
  simp only [EndsIdle, not_forall] at hq
  obtain ⟨turns, rfl, hs, hbusy⟩ := hq
  simp only [radioStep, RadioTask.irq, hs] at hu
  have hread : ((t.dev.read .radioeventreq0).2.read .radiostate).1 ≠ 0 := by
    simpa [Transmitter.read] using hbusy
  rw [if_pos hread] at hu
  cases hu
  intro h
  have hstate : ((t.dev.read .radioeventreq0).2.read .radiostate).2.ubRFState = .txWaitdone := hs
  exact nomatch (h (by rw [hstate]; rfl)).1

/-- **A transmission is always guarded by its watchdog**, whatever the registers return, exactly
along the schedules whose interrupts in `trxstate_tx_waitdone` find the chip idle. -/
theorem transmission_guarded_iff (tag : UInt8) (selfId : UInt32) (config : TxConfig)
    (reads : Reg → Nat → UInt8) (as : List RadioAct) :
    Along (radioStep tag selfId) (Guarded tag selfId) (.start config reads) as ↔
      Steps (radioStep tag selfId) EndsIdle (.start config reads) as := by
  have hinit : Guarded tag selfId (.start config reads) :=
    guarded_of_armed fun ht => absurd ht Bool.false_ne_true
  exact along_iff_steps (fun _ h => h) (fun _ _ _ h hu hq => guarded_step h hu hq)
    (fun _ _ _ _ hu hq => guarded_break hu hq) hinit as

/-- The chip of a radio that is busy when the end of a packet is signalled. -/
def busyReads : Reg → Nat → UInt8
  | .fifofree1, _ => 1
  | .framing, _ => 0x26
  | .radiostate, _ => 1
  | _, _ => 0

/-- A packet is sent, and the interrupt that signals its end comes while `RADIOSTATE` is 1. -/
theorem transmission_unguarded_busy : ¬ Along (radioStep 77 50000000) (Guarded 77 50000000)
    (.start .init busyReads) [.send ⟨60000000, 0, 1⟩, .irq 3, .irq 1] := by
  intro h
  have hb := (h.last rfl : Guarded _ _ _) rfl
  exact absurd hb.1 (by decide)

end Spsi
