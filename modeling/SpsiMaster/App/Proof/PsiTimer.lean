import SpsiMaster.App.Psi

/-!
# The PSI timer

Every pulse burst starts `psi_timer`, and its expiry closes the PSI. `psi_close` does nothing
while the loss is shown, so an expiry in that time is spent without closing, and `psi_led_resume`
does not start the timer again. `psi_canTimeOut_iff`: an open PSI can always time out along a
schedule exactly when no `psi_led_resume` ends a loss with the PSI open and the timer spent.
-/

namespace Spsi

open Rtos Run

/-- The steps on the variables of `psi.c`: the outcomes of the thread's take, the timer, and the
two calls of the warning thread. -/
inductive PsiAct where
  | pulse
  | timeout
  | expire
  | lost
  | resume
  deriving DecidableEq

namespace World

/-- `psi_timer` fires. -/
def psiExpire (w : World) : World :=
  (w.onPsi fun p => { p with psiTimer := p.psiTimer.expire }).psiTimerCallback

end World

def psiStep : Step World PsiAct
  | w, .pulse => some w.psiPulse
  | w, .timeout => some w.psiTimeout
  | w, .expire => if w.psi.psiTimer.armed then some w.psiExpire else none
  | w, .lost => some w.psiLedLost
  | w, .resume => some w.psiLedResume

/-- An open PSI that is not shown as lost will be closed by `psi_timer`. -/
def CanTimeOut (w : World) : Prop :=
  w.psi.psiLost = false → w.psi.psiStatus = 1 →
    w.psi.psiTimer.armed = true ∧ ∃ t, psiStep w .expire = some t ∧ t.psi.psiStatus = 0

/-- A `psi_led_resume` that ends a loss with the PSI open finds the timer armed. -/
def ResumesArmed (w : World) (a : PsiAct) (_ : World) : Prop :=
  a = .resume → w.psi.psiLost = true → w.psi.psiStatus = 1 → w.psi.psiTimer.armed = true

theorem canTimeOut_of_armed {w : World}
    (h : w.psi.psiLost = false → w.psi.psiStatus = 1 → w.psi.psiTimer.armed = true) :
    CanTimeOut w := by
  intro hl hs
  have ha : w.psi.psiTimer.armed = true := h hl hs
  refine ⟨ha, w.psiExpire, if_pos ha, ?_⟩
  rw [World.psiExpire, World.psiTimerCallback, World.psiClose_psi]
  simp only [World.onPsi_psi]
  rw [if_pos ⟨hs, hl⟩]

/-- A pulse that completes a burst starts the timer; any other changes no more than the count. -/
theorem psiPulse_psi (w : World) : w.psiPulse.psi.psiTimer.armed = true ∨
    ∃ c, w.psiPulse.psi = { w.psi with psiCounter := c } := by
  simp only [World.psiPulse]
  split
  · exact .inl rfl
  · exact .inr ⟨_, rfl⟩

theorem canTimeOut_step {w t : World} {a : PsiAct} (h : CanTimeOut w)
    (ht : psiStep w a = some t) (hq : ResumesArmed w a t) : CanTimeOut t := by
  refine canTimeOut_of_armed fun hl hs => ?_
  cases a with
  | pulse =>
    obtain rfl : w.psiPulse = t := Option.some.inj ht
    rcases psiPulse_psi w with ha | ⟨c, hc⟩
    · exact ha
    · rw [hc] at hl hs ⊢
      exact (h hl hs).1
  | timeout =>
    obtain rfl : w.psiTimeout = t := Option.some.inj ht
    exact (h hl hs).1
  | expire =>
    obtain ⟨-, rfl⟩ : w.psi.psiTimer.armed = true ∧ w.psiExpire = t := by
      simpa only [psiStep, Option.ite_none_right_eq_some, Option.some.injEq] using ht
    -- while the loss is not shown the callback closes, so nothing is left to time out
    rw [World.psiExpire, World.psiTimerCallback, World.psiClose_psi] at hl hs
    split at hs
    · exact nomatch (hs : (0 : Nat) = 1)
    · next hn =>
      rw [if_neg hn] at hl
      exact absurd ⟨hs, hl⟩ hn
  | lost =>
    obtain rfl : w.psiLedLost = t := Option.some.inj ht
    rw [World.psiLedLost_psi] at hl
    exact nomatch (hl : true = false)
  | resume =>
    obtain rfl : w.psiLedResume = t := Option.some.inj ht
    rw [World.psiLedResume_psi] at hs ⊢
    cases hw : w.psi.psiLost with
    | false => exact (h hw hs).1
    | true => exact hq rfl hw hs

/-- A resume with the timer spent leaves the PSI open for good. -/
theorem canTimeOut_break {w t : World} {a : PsiAct} (ht : psiStep w a = some t)
    (hq : ¬ ResumesArmed w a t) : ¬ CanTimeOut t := by
  simp only [ResumesArmed, Classical.not_imp] at hq
  obtain ⟨rfl, -, hs, ha⟩ := hq
  obtain rfl : w.psiLedResume = t := Option.some.inj ht
  intro h
  have hp : w.psiLedResume.psi = { w.psi with psiLost := false } := World.psiLedResume_psi w
  have := (h (by rw [hp]) (by rw [hp]; exact hs)).1
  rw [hp] at this
  exact ha this

/-- **A reported-open PSI can always time out**, from the initial values of `psi.c` on and in
whatever state the rest of the program is, exactly along the schedules whose resumes find the
timer armed. -/
theorem psi_canTimeOut_iff (w : World) (as : List PsiAct) :
    Along psiStep CanTimeOut (w.onPsi fun _ => {}) as ↔
      Steps psiStep ResumesArmed (w.onPsi fun _ => {}) as := by
  have hinit : CanTimeOut (w.onPsi fun _ => {}) :=
    canTimeOut_of_armed fun _ hs => absurd hs (by simp)
  exact along_iff_steps (fun _ h => h) (fun _ _ _ => canTimeOut_step)
    (fun _ _ _ _ => canTimeOut_break) hinit as

/-- Five pulses, the loss, the expiry and the resume: `PSI_Status` stays 1 with no timer. -/
theorem psi_cannotTimeOut_expiry_while_lost :
    ¬ Along psiStep CanTimeOut (World.init.onPsi fun _ => {})
      [.pulse, .pulse, .pulse, .pulse, .pulse, .lost, .expire, .resume] := by
  intro h
  have hb := (h.last rfl : CanTimeOut _) rfl rfl
  exact absurd hb.1 (by decide)

end Spsi
