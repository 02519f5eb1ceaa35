import SpsiMaster.App.Heart

/-!
# PSI and valve

`applications/psi.c`. The two outcomes of `rt_sem_take(psi_sem, 100)` in `psi_thread_callback` are
`psiPulse` and `psiTimeout`; the thread's step ends at the `rt_thread_mdelay(200)`, after which it
does nothing before the next take.
-/

namespace Spsi

open Rtos CInt

namespace World

def psiOpen (w : World) : World :=
  if w.psi.psiStatus = 0 ∧ w.psi.psiLost = false then
    ((w.onPsi fun p => { p with psiStatus := 1 }).transmitterOn).psiUpload 1
  else w

def psiClose (w : World) : World :=
  if w.psi.psiStatus = 1 ∧ w.psi.psiLost = false then
    ((w.onPsi fun p => { p with psiStatus := 0 }).transmitterOff).psiUpload 0
  else w

def psiLedInit (w : World) : World :=
  if w.psi.psiStatus ≠ 0 then w.transmitterOn else w.transmitterOff

def valveLedInit (w : World) : World :=
  if w.psi.valveStatus ≠ 0 then w.receiverOn else w.receiverOff

def psiLedResume (w : World) : World :=
  let w := w.log .psiLedResume
  if w.psi.psiLost then
    let w := ((w.onPsi fun p => { p with psiLost := false }).psiLedInit).valveLedInit
    if w.psi.psiStatus ≠ 0 then w.psiOpen else w.psiClose
  else w

def psiLedLost (w : World) : World :=
  let w := w.log .psiLedLost
  if w.psi.psiLost = false then
    ((w.onPsi fun p => { p with psiLost := true }).transmitterLost).receiverLost
  else w

def psiTimerCallback (w : World) : World := w.psiClose

def psiPinCallback (w : World) : World :=
  w.onPsi fun p => { p with psiSem := semRelease p.psiSem, irq := false }

def valveOpen (w : World) : World :=
  let w' := if w.psi.valveStatus ≠ 1 ∧ w.psi.psiLost = false then w.receiverOn else w
  w'.onPsi fun p => { p with valveStatus := 1 }

def valveClose (w : World) : World :=
  let w' := if w.psi.valveStatus ≠ 0 ∧ w.psi.psiLost = false then w.receiverOff else w
  w'.onPsi fun p => { p with valveStatus := 0 }

def valveControl (w : World) (mode : Nat) : World :=
  if mode ≠ 0 then w.valveOpen else w.valveClose

/-- `psi_thread_callback` after an `RT_EOK`. -/
def psiPulse (w : World) : World :=
  let w := w.onPsi fun p => { p with psiCounter := u8 (p.psiCounter + 1) }
  if w.psi.psiCounter > 4 then
    ((w.onPsi fun p => { p with psiCounter := 0 }).psiOpen).onPsi fun p =>
      { p with psiTimer := p.psiTimer.start }
  else w

/-- `psi_thread_callback` after a timeout. -/
def psiTimeout (w : World) : World := w.onPsi fun p => { p with psiCounter := 0 }

/-- `psi_thread_callback`, from one `rt_sem_take` to the next. -/
def psiThreadCallback (w : World) : World :=
  (match semTake w.psi.psiSem with
    | some v => (w.onPsi fun p => { p with psiSem := v }).psiPulse
    | none => w.psiTimeout).onPsi fun p => { p with irq := true }

end World

/-! ## What the PSI code leaves alone -/

namespace OutputStep

theorem psiUpload (w : World) (value : Nat) : OutputStep w (w.psiUpload value) := by
  unfold World.psiUpload
  split
  · exact onQueue w _
  · exact refl w

theorem psiOpen (w : World) : OutputStep w w.psiOpen := by
  unfold World.psiOpen
  split
  · exact ((onPsi w _).trans (log _ rfl)).trans (psiUpload _ 1)
  · exact refl w

theorem psiClose (w : World) : OutputStep w w.psiClose := by
  unfold World.psiClose
  split
  · exact ((onPsi w _).trans (log _ rfl)).trans (psiUpload _ 0)
  · exact refl w

theorem psiLedInit (w : World) : OutputStep w w.psiLedInit := by
  unfold World.psiLedInit
  split
  · exact log w rfl
  · exact log w rfl

theorem valveLedInit (w : World) : OutputStep w w.valveLedInit := by
  unfold World.valveLedInit
  split
  · exact log w rfl
  · exact log w rfl

theorem psiLedResume_marked (w : World) : OutputStep (w.log .psiLedResume) w.psiLedResume := by
  simp only [World.psiLedResume]
  split
  · split
    · exact (((onPsi _ _).trans (psiLedInit _)).trans (valveLedInit _)).trans (psiOpen _)
    · exact (((onPsi _ _).trans (psiLedInit _)).trans (valveLedInit _)).trans (psiClose _)
  · exact refl _

theorem psiLedResume (w : World) : OutputStep w w.psiLedResume :=
  (log w rfl).trans (psiLedResume_marked w)

theorem psiLedLost_marked (w : World) : OutputStep (w.log .psiLedLost) w.psiLedLost := by
  simp only [World.psiLedLost]
  split
  · exact ((onPsi _ _).trans (log _ rfl)).trans (log _ rfl)
  · exact refl _

theorem psiLedLost (w : World) : OutputStep w w.psiLedLost :=
  (log w rfl).trans (psiLedLost_marked w)

theorem valveControl (w : World) (mode : Nat) : OutputStep w (w.valveControl mode) := by
  unfold World.valveControl World.valveOpen World.valveClose
  split
  · refine OutputStep.trans ?_ (onPsi _ _)
    split
    · exact log w rfl
    · exact refl w
  · refine OutputStep.trans ?_ (onPsi _ _)
    split
    · exact log w rfl
    · exact refl w

theorem psiThreadCallback (w : World) : OutputStep w w.psiThreadCallback := by
  unfold World.psiThreadCallback
  refine OutputStep.trans ?_ (onPsi _ _)
  split
  · simp only [World.psiPulse]
    split
    · exact ((((onPsi _ _).trans (onPsi _ _)).trans (onPsi _ _)).trans (psiOpen _)).trans
        (onPsi _ _)
    · exact (onPsi _ _).trans (onPsi _ _)
  · exact onPsi w _

end OutputStep

/-! ## What the PSI code does to its own variables -/

namespace World

@[simp] theorem psiUpload_psi (w : World) (value : Nat) : (w.psiUpload value).psi = w.psi := by
  unfold psiUpload
  split <;> rfl

/-- `psi_open` sets `PSI_Status` to 1 unless the loss is shown. -/
theorem psiOpen_psi (w : World) : w.psiOpen.psi =
    if w.psi.psiStatus = 0 ∧ w.psi.psiLost = false then { w.psi with psiStatus := 1 }
    else w.psi := by
  unfold psiOpen
  split
  · rw [psiUpload_psi]; rfl
  · rfl

theorem psiClose_psi (w : World) : w.psiClose.psi =
    if w.psi.psiStatus = 1 ∧ w.psi.psiLost = false then { w.psi with psiStatus := 0 }
    else w.psi := by
  unfold psiClose
  split
  · rw [psiUpload_psi]; rfl
  · rfl

@[simp] theorem psiLedInit_psi (w : World) : w.psiLedInit.psi = w.psi := by
  unfold psiLedInit
  split <;> rfl

@[simp] theorem valveLedInit_psi (w : World) : w.valveLedInit.psi = w.psi := by
  unfold valveLedInit
  split <;> rfl

/-- The calls of `psi_open` and `psi_close` in `psi_led_resume` find the status as it should be:
all that changes is `Psi_Lost`. -/
theorem psiLedResume_psi (w : World) : w.psiLedResume.psi = { w.psi with psiLost := false } := by
  have hshow : ∀ v : World, (v.psiLedInit).valveLedInit.psi = v.psi := fun v => by simp
  cases hl : w.psi.psiLost with
  | false =>
    have : w.psiLedResume = w.log .psiLedResume := by simp [psiLedResume, hl]
    rw [this, log_psi, ← hl]
  | true =>
    simp only [psiLedResume, log_psi, hl, if_true]
    split
    · next hs =>
      rw [psiOpen_psi, if_neg fun h => hs h.1, hshow]
      rfl
    · next hs =>
      rw [psiClose_psi, if_neg fun h => hs (by rw [h.1]; exact Nat.one_ne_zero), hshow]
      rfl

theorem psiLedLost_psi (w : World) : w.psiLedLost.psi = { w.psi with psiLost := true } := by
  cases hl : w.psi.psiLost with
  | false => simp [psiLedLost, hl, transmitterLost, receiverLost]
  | true =>
    have : w.psiLedLost = w.log .psiLedLost := by simp [psiLedLost, hl]
    rw [this, log_psi, ← hl]

@[simp] theorem valveControl_psiLost (w : World) (mode : Nat) :
    (w.valveControl mode).psi.psiLost = w.psi.psiLost := by
  unfold valveControl valveOpen valveClose
  split
  · simp only [onPsi_psi]; split <;> rfl
  · simp only [onPsi_psi]; split <;> rfl

end World

end Spsi
