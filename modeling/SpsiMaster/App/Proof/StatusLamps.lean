import SpsiMaster.App.Proof.Observe
import SpsiMaster.App.Status

/-!
# The status lamps follow the status

`World.status` is the `Status` of a state of the program, the last commands to LED7 and LED8 being
those of the history. Each step does one of the operations of `Status` to it, so `Status.Follows`
is an invariant, as long as no button test ends with LED8 still closed.

`statusLamps_follow_iff`: the lamps follow the status exactly along the schedules without such a
step (`EndsDark`).
-/

namespace Spsi

open Rtos Run World

/-! ## The last commands -/

/-- The lamps that a command drives. -/
def LedCmd.drives : LedCmd → Option Group
  | .rf r _ => some (.rf r)
  | .transmitterLost | .transmitterOff | .transmitterOn => some .transmitter
  | .receiverLost | .receiverClose | .receiverOff | .receiverOn | .receiverBlink _ =>
    some .receiver
  | .beepStart _ | .beepStop => none

def Ev.command (g : Group) : Ev → Option LedCmd
  | .led c => if c.drives = some g then some c else none
  | _ => none

/-- The last command to the lamps of `g`. -/
def lastCommand (g : Group) (h : List Ev) : Option LedCmd := h.findSome? (Ev.command g)

def World.status (w : World) : Status where
  psi := w.psi.psiStatus
  valve := w.psi.valveStatus
  lost := w.psi.psiLost
  led7 := lastCommand .transmitter w.hist
  led8 := lastCommand .receiver w.hist

/-- Neither LED7 nor LED8 is given a command. -/
def Ev.noStatus (e : Ev) : Bool := (e.command .transmitter).isNone && (e.command .receiver).isNone

namespace World

variable (w : World)

theorem status_eq {w t : World} (hp : t.psi.psiStatus = w.psi.psiStatus)
    (hv : t.psi.valveStatus = w.psi.valveStatus) (hl : t.psi.psiLost = w.psi.psiLost)
    (hx : Hist.Extends Ev.noStatus w.hist t.hist) : t.status = w.status := by
  have hlast : ∀ g, (∀ e, Ev.noStatus e = true → e.command g = none) →
      lastCommand g t.hist = lastCommand g w.hist := fun g hg => hx.findSome? hg
  simp only [status, hp, hv, hl]
  rw [hlast .transmitter fun e he => by
      simpa using (Bool.and_eq_true_iff.1 he).1,
    hlast .receiver fun e he => by simpa using (Bool.and_eq_true_iff.1 he).2]

theorem log_status {e : Ev} (he : e.noStatus = true) : (w.log e).status = w.status :=
  status_eq rfl rfl rfl (.cons he (.refl _))

/-! ## The functions of `psi.c` -/

theorem psiUpload_status (value : Nat) : (w.psiUpload value).status = w.status := by
  unfold psiUpload
  split
  · rfl
  · rfl

theorem psiOpen_status : w.psiOpen.status = w.status.psiOpen := by
  rw [psiOpen, apply_ite World.status, psiUpload_status]
  rfl

theorem psiClose_status : w.psiClose.status = w.status.psiClose := by
  rw [psiClose, apply_ite World.status, psiUpload_status]
  rfl

theorem psiLedInit_status : w.psiLedInit.status =
    { w.status with led7 := some w.status.psiLamp } := by
  by_cases h : w.psi.psiStatus ≠ 0
  · have hs : w.status.psiLamp = .transmitterOn := if_pos h
    rw [psiLedInit, if_pos h, hs]
    rfl
  · have hs : w.status.psiLamp = .transmitterOff := if_neg h
    rw [psiLedInit, if_neg h, hs]
    rfl

theorem valveLedInit_status : w.valveLedInit.status =
    { w.status with led8 := some w.status.valveLamp } := by
  by_cases h : w.psi.valveStatus ≠ 0
  · have hs : w.status.valveLamp = .receiverOn := if_pos h
    rw [valveLedInit, if_pos h, hs]
    rfl
  · have hs : w.status.valveLamp = .receiverOff := if_neg h
    rw [valveLedInit, if_neg h, hs]
    rfl

/-- The calls of `psi_open` and `psi_close` in `psi_led_resume` do nothing. -/
theorem psiLedResume_status : w.psiLedResume.status = w.status.resume := by
  have hlog : (w.log .psiLedResume).status = w.status := w.log_status rfl
  cases hl : w.psi.psiLost with
  | false =>
    have he : w.psiLedResume = w.log .psiLedResume := by simp [psiLedResume, hl]
    rw [he, hlog]
    exact (if_neg (by rw [show w.status.lost = false from hl]; decide)).symm
  | true =>
    have hshow : ∀ v : World, (v.psiLedInit).valveLedInit.status =
        { v.status with led7 := some v.status.psiLamp, led8 := some v.status.valveLamp } := by
      intro v
      rw [valveLedInit_status, psiLedInit_status]
      rfl
    have hresume : w.status.resume = { w.status with
        lost := false, led7 := some w.status.psiLamp, led8 := some w.status.valveLamp } := if_pos hl
    have hset : ((w.log .psiLedResume).onPsi fun p => { p with psiLost := false }).status =
        { w.status with lost := false } := rfl
    rw [hresume]
    simp only [psiLedResume, log_psi, hl, if_true]
    split
    · next hs =>
      have hs : w.psi.psiStatus ≠ 0 := by simpa using hs
      rw [psiOpen_status, hshow, hset]
      exact if_neg fun h => hs h.1
    · next hs =>
      have hs : w.psi.psiStatus = 0 := by simpa using hs
      rw [psiClose_status, hshow, hset]
      exact if_neg fun h => absurd (hs.symm.trans h.1) (by decide)

theorem psiLedLost_status : w.psiLedLost.status = w.status.lose := by
  have hlog : (w.log .psiLedLost).status = w.status := w.log_status rfl
  cases hl : w.psi.psiLost with
  | true =>
    have he : w.psiLedLost = w.log .psiLedLost := by simp [psiLedLost, hl]
    rw [he, hlog]
    exact (if_neg (by rw [show w.status.lost = true from hl]; decide)).symm
  | false =>
    have hlose : w.status.lose = { w.status with
      lost := true, led7 := some .transmitterLost, led8 := some .receiverLost } := if_pos hl
    rw [hlose]
    simp only [psiLedLost, log_psi, hl, if_true]
    rfl

theorem valveControl_status (mode : Nat) :
    (w.valveControl mode).status = w.status.setValve (if mode ≠ 0 then 1 else 0) := by
  by_cases hm : mode ≠ 0
  · rw [valveControl, if_pos hm, if_pos hm, Status.setValve]
    by_cases h : w.psi.valveStatus ≠ 1 ∧ w.psi.psiLost = false
    · have hs : w.status.valve ≠ 1 ∧ w.status.lost = false := h
      simp only [valveOpen, if_pos h, if_pos hs]
      rfl
    · have hs : ¬ (w.status.valve ≠ 1 ∧ w.status.lost = false) := h
      simp only [valveOpen, if_neg h, if_neg hs]
      rfl
  · rw [valveControl, if_neg hm, if_neg hm, Status.setValve]
    by_cases h : w.psi.valveStatus ≠ 0 ∧ w.psi.psiLost = false
    · have hs : w.status.valve ≠ 0 ∧ w.status.lost = false := h
      simp only [valveClose, if_pos h, if_pos hs]
      rfl
    · have hs : ¬ (w.status.valve ≠ 0 ∧ w.status.lost = false) := h
      simp only [valveClose, if_neg h, if_neg hs]
      rfl

theorem beepStart_status (select : Nat) : (w.beepStart select).status = w.status := by
  simp only [beepStart]
  split
  · rfl
  · rfl

theorem beepCalc_status (m n : Nat) : (w.beepCalc m n).status = w.status := by
  unfold beepCalc
  split
  · exact beepStart_status w 1
  · split
    · rfl
    · rfl

/-! ## The other threads -/

variable {w} {testing : Prop}

theorem follows_accept (h : w.status.Follows testing) (r : Radio) (rssi c d : Int) :
    (accept r w rssi c d).status.Follows testing := by
  have hcommand : ∀ v : World, v.status.Follows testing →
      (solveCommand r v rssi c d).status.Follows testing := by
    intro v hv
    unfold solveCommand
    split
    · rw [valveControl_status]
      exact hv.setValve _
    · split
      · rw [valveControl_status]
        exact hv.answer _
      · split
        · have hwrite : ∀ v : World, (v.rfWrite r.number rssi).status = v.status := by
            intro v
            unfold rfWrite
            split
            · rfl
            · rfl
          rw [hwrite, valveControl_status]
          exact hv.setValve _
        · exact hv
  simp only [accept, ledRfStart]
  split
  · exact hcommand _ h
  · exact hcommand _ h

theorem follows_warn (h : w.status.Follows testing) : w.warnCallback.status.Follows testing := by
  rcases w.warnCallback_cases with ⟨-, he⟩ | ⟨c, -, he⟩
  · rw [he]
    exact h
  · rw [he]
    cases c with
    | offline r =>
      rw [branch, warnOffline_eq]
      split
      · rw [beepStart_status, psiLedResume_status]
        exact Status.Follows.resume h
      · rw [beepStart_status, psiLedLost_status]
        exact Status.Follows.lose h
    | online r =>
      simp only [branch, warnOnline]
      split
      · rw [beepCalc_status, psiLedResume_status]
        exact Status.Follows.resume h
      · split
        · rw [beepStart_status, psiLedResume_status]
          exact Status.Follows.resume h
        · rw [psiLedResume_status]
          exact Status.Follows.resume h

theorem follows_psiThread (h : w.status.Follows testing) :
    w.psiThreadCallback.status.Follows testing := by
  have hpsi : ∀ (v : World) (f : Psi → Psi), (f v.psi).psiStatus = v.psi.psiStatus →
      (f v.psi).valveStatus = v.psi.valveStatus → (f v.psi).psiLost = v.psi.psiLost →
      (v.onPsi f).status = v.status := fun v f h1 h2 h3 => status_eq h1 h2 h3 (.refl _)
  unfold psiThreadCallback
  rw [hpsi _ _ rfl rfl rfl]
  split
  · simp only [psiPulse]
    split
    · rw [hpsi _ _ rfl rfl rfl, psiOpen_status]
      exact Status.Follows.psiOpen h
    · exact h
  · exact h

end World

/-! ## Button tests -/

/-- A button test is running. -/
def ButtonPc.testing : ButtonPc → Bool
  | .wait _ _ => true
  | .start | .take _ => false

/-- The two threads of `heart.c` leave the status alone, but for the start of a test. -/
def statuses : Observation Status where
  view := World.status
  revive := fun _ s => s
  offline := fun _ s => s
  judge := fun _ _ s => s
  close := Status.close
  view_heart := fun w t _ _ hp hx => by rw [status, status, hp, hx]
  view_info := fun _ _ _ _ _ => rfl
  view_log := fun w e he => w.log_status (by cases e <;> first | rfl | cases he)
  view_revive := fun _ _ => rfl
  view_offline := fun w r => by
    unfold rfOffline
    split
    · rfl
    · split
      · rfl
      · rfl
  view_judge := fun _ _ _ => rfl
  view_close := fun _ => rfl

theorem statuses_attempt (r : Radio) (k : Nat) (ok : Bool) (s : Status) :
    statuses.attempt r k ok s = s := by
  match k with
  | 0 => exact ite_self s
  | 1 => exact ite_self s
  | 2 => exact ite_self s
  | 3 => cases ok <;> rfl
  | _ + 4 => rfl

namespace World

variable (w : World)

theorem heartCallback_status (rand : Nat) : (w.heartCallback rand).status = w.status := by
  rcases statuses.heartCallback w rand with he | he | ⟨hpc, hsem, hm⟩
  · exact he
  · exact he
  · exact (statuses.heartCallback_check w rand hpc hsem hm).trans (statuses_attempt _ _ _ _)

/-- A step of the button thread starts a test, closing LED8, or leaves the status alone. -/
theorem buttontestCallback_status :
    (∃ r, w.heart.buttonPc = .take r ∧ 0 < w.heart.buttonSem ∧
      w.buttontestCallback.status = w.status.close ∧
      w.buttontestCallback.heart.buttonPc.testing = decide ((w.info r).retry ≤ 3)) ∨
    (w.heart.buttonPc.testing = true ∨ ∀ r, w.heart.buttonPc = .take r → w.heart.buttonSem = 0) ∧
      w.buttontestCallback.status = w.status ∧
      w.buttontestCallback.heart.buttonPc.testing = false := by
  cases hpc : w.heart.buttonPc with
  | start =>
    refine .inr ⟨.inr fun r hr => (nomatch hr), ?_, ?_⟩
    · simp only [buttontestCallback, hpc]
      rfl
    · simp only [buttontestCallback, hpc]
      rfl
  | take r =>
    by_cases hsem : w.heart.buttonSem = 0
    · have hnone : semTake w.heart.buttonSem = none := by rw [hsem]; rfl
      refine .inr ⟨.inr fun _ _ => hsem, ?_, ?_⟩
      · simp only [buttontestCallback, hpc, hnone]
        rfl
      · simp only [buttontestCallback, hpc, hnone]
        rfl
    · left
      have hpos : 0 < w.heart.buttonSem := Nat.pos_of_ne_zero hsem
      have hsome : semTake w.heart.buttonSem = some (w.heart.buttonSem - 1) := if_pos hpos
      refine ⟨r, rfl, hpos, statuses.buttontestCallback_take w r hpc hpos, ?_⟩
      simp only [buttontestCallback, hpc, hsome]
      split
      · next hr =>
        have hr : (w.info r).retry ≤ 3 := by simpa using hr
        rw [decide_eq_true hr]
        rfl
      · next hr =>
        have hr : ¬ (w.info r).retry ≤ 3 := by simpa using hr
        rw [decide_eq_false hr]
        rfl
  | wait r k =>
    refine .inr ⟨.inl rfl, ?_, ?_⟩
    · exact (statuses.buttontestCallback_wait w r hpc).trans (statuses_attempt _ _ _ _)
    · simp only [buttontestCallback, hpc]
      rfl

end World

/-! ## The condition -/

/-- A button test ends, or a button is dropped because `retry` has no case, while LED8 is still
closed and has a status to show. -/
def EndsDark (w : World) (a : Act) : Prop :=
  a = .button ∧ w.psi.psiLost = false ∧ w.psi.valveStatus ≤ 1 ∧
    match w.heart.buttonPc with
    | .start => False
    | .take r => 0 < w.heart.buttonSem ∧ 3 < (w.info r).retry
    | .wait _ _ => lastCommand .receiver w.hist = some .receiverClose

/-- While the loss is not shown and no button test is running, LED7 shows the PSI, and LED8 the
valve once a frame has set it. -/
def StatusShown (w : World) : Prop :=
  w.psi.psiLost = false → w.heart.buttonPc.testing = false →
    (w.psi.psiStatus = 1 → lastCommand .transmitter w.hist = some .transmitterOn) ∧
    (w.psi.psiStatus = 0 → lastCommand .transmitter w.hist = some .transmitterOff) ∧
    (w.psi.valveStatus = 1 →
      Gives (lastCommand .receiver w.hist) [receiverOn, receiverBlink 1]) ∧
    (w.psi.valveStatus = 0 →
      Gives (lastCommand .receiver w.hist) [receiverOff, receiverBlink 0])

instance : DecidablePred StatusShown := fun _ =>
  inferInstanceAs (Decidable (_ → _ → _ ∧ _ ∧ _ ∧ _))

/-- The invariant of the program. -/
def StatusInv (w : World) : Prop := w.status.Follows (w.heart.buttonPc.testing = true)

theorem StatusInv.shown {w : World} (h : StatusInv w) : StatusShown w := by
  intro hl ht
  have hled8 := fun hv => (h.led8 hl hv).resolve_right fun hr => by rw [ht] at hr; cases hr.1
  refine ⟨fun hp => ?_, fun hp => ?_, fun hv => ?_, fun hv => ?_⟩
  · exact (h.led7 hl).trans (congrArg some (if_pos (by rw [show w.status.psi = 1 from hp]; decide)))
  · exact (h.led7 hl).trans (congrArg some (if_neg fun hn => hn hp))
  · have hg := hled8 (le_of_eq hv)
    rw [show w.status.valve = 1 from hv] at hg
    exact hg
  · have hg := hled8 (by rw [show w.status.valve = 0 from hv]; decide)
    rw [show w.status.valve = 0 from hv] at hg
    exact hg

/-! ## Every step -/

theorem statusInv_button {w : World} (h : StatusInv w) (hq : ¬ EndsDark w .button) :
    StatusInv w.buttontestCallback := by
  unfold StatusInv
  rcases w.buttontestCallback_status with ⟨r, hpc, hsem, hs, ht⟩ | ⟨hpc, hs, ht⟩
  · rw [hs, ht]
    by_cases hr : (w.info r).retry ≤ 3
    · exact (h.mono fun _ => decide_eq_true hr).close (decide_eq_true hr)
    · have hhidden : ¬ (w.psi.psiLost = false ∧ w.psi.valveStatus ≤ 1) := fun hn =>
        hq ⟨rfl, hn.1, hn.2, by rw [hpc]; exact ⟨hsem, Nat.lt_of_not_le hr⟩⟩
      exact ⟨h.psi, h.led7, fun hl hv => absurd ⟨hl, hv⟩ hhidden⟩
  · rw [hs, ht]
    refine (Status.Follows.endTest h fun hl hv hc => ?_).mono False.elim
    rcases h.led8 hl hv with hg | ⟨hw, -⟩
    · rw [hc] at hg
      exact Status.not_gives_close _ hg
    · apply hq
      cases hpc' : w.heart.buttonPc with
      | wait r k => exact ⟨rfl, hl, hv, by rw [hpc']; exact hc⟩
      | start => rw [hpc'] at hw; cases hw
      | take r => rw [hpc'] at hw; cases hw

theorem statusInv_step (w : World) (a : Act) (t : World) (h : StatusInv w)
    (ht : w.step a = some t) (hq : ¬ EndsDark w a) : StatusInv t := by
  have hkeep : ∀ {t : World}, t.heart.buttonPc = w.heart.buttonPc →
      t.status.Follows (w.heart.buttonPc.testing = true) → StatusInv t := fun hpc hs => by
    unfold StatusInv
    rw [hpc]
    exact hs
  cases a with
  | heart rand =>
    cases ht
    exact hkeep (heartCallback_button w rand).1 (by rw [heartCallback_status]; exact h)
  | button =>
    cases ht
    exact statusInv_button h hq
  | press => cases ht; exact h
  | heartTimer =>
    simp only [World.step, Option.ite_none_right_eq_some, Option.some.injEq] at ht
    obtain ⟨-, rfl⟩ := ht
    exact h
  | connectTimer =>
    simp only [World.step, Option.ite_none_right_eq_some, Option.some.injEq] at ht
    obtain ⟨-, rfl⟩ := ht
    exact h
  | rx r rssi stack rxBuffer rxLen =>
    simp only [World.step, Option.ite_none_right_eq_some, Option.some.injEq] at ht
    obtain ⟨-, rfl⟩ := ht
    rcases rxCallback_cases r stack w rssi rxBuffer rxLen with he | ⟨c, d, he⟩
    · rw [he]
      exact h
    · rw [he]
      exact hkeep (by rw [(accept_spec r w rssi c d).1]) (follows_accept h r rssi c d)
  | warn =>
    cases ht
    exact hkeep (by rw [warnCallback_heart]) (follows_warn h)
  | psi =>
    cases ht
    exact hkeep (by rw [(OutputStep.psiThreadCallback w).heart]) (follows_psiThread h)
  | psiPin =>
    simp only [World.step, Option.ite_none_right_eq_some, Option.some.injEq] at ht
    obtain ⟨-, rfl⟩ := ht
    exact h
  | psiTimer =>
    simp only [World.step, Option.ite_none_right_eq_some, Option.some.injEq] at ht
    obtain ⟨-, rfl⟩ := ht
    refine hkeep (by rw [psiTimerCallback, (OutputStep.psiClose _).heart]; rfl) ?_
    rw [psiTimerCallback, psiClose_status]
    exact Status.Follows.psiClose h
  | seg => cases ht; exact h
  | dequeue r => cases r <;> cases ht <;> exact h
  | upload => cases ht; exact h

/-- A test that ends dark leaves LED8 closed. -/
theorem statusInv_break (w : World) (a : Act) (t : World) (ht : w.step a = some t)
    (hq : EndsDark w a) : ¬ StatusShown t := by
  obtain ⟨rfl, hl, hv, hpc⟩ := hq
  cases ht
  have hend : w.buttontestCallback.status.led8 = some .receiverClose ∧
      w.buttontestCallback.status.lost = false ∧ w.buttontestCallback.status.valve =
        w.psi.valveStatus ∧ w.buttontestCallback.heart.buttonPc.testing = false := by
    rcases w.buttontestCallback_status with ⟨r, hr, -, hs, ht⟩ | ⟨hr, hs, ht⟩
    · rw [hr] at hpc
      rw [hs, ht]
      exact ⟨rfl, hl, rfl, decide_eq_false (Nat.not_le.2 hpc.2)⟩
    · rw [hs, ht]
      refine ⟨?_, hl, rfl, rfl⟩
      cases hw : w.heart.buttonPc with
      | start => rw [hw] at hpc; exact hpc.elim
      | wait r k => rw [hw] at hpc; exact hpc
      | take r =>
        rw [hw] at hpc hr
        rcases hr with hr | hr
        · cases hr
        · exact absurd hpc.1 (by rw [hr r rfl]; decide)
  obtain ⟨hc, hl', hv', ht'⟩ := hend
  intro hshown
  obtain ⟨-, -, h1, h0⟩ := hshown hl' ht'
  have hc : lastCommand .receiver w.buttontestCallback.hist = some .receiverClose := hc
  rcases Nat.le_one_iff_eq_zero_or_eq_one.1 hv with hv | hv
  · have hg := h0 (hv'.trans hv)
    rw [hc] at hg
    exact Status.not_gives_close 0 hg
  · have hg := h1 (hv'.trans hv)
    rw [hc] at hg
    exact Status.not_gives_close 1 hg

theorem statusInv_init : StatusInv World.init where
  psi := Nat.zero_le 1
  led7 := fun _ => rfl
  led8 := fun _ hv => absurd hv (by decide)

/-! ## Along schedules -/

/-- **The status lamps follow the status** exactly along the schedules in which no button test
ends with LED8 closed. -/
theorem statusLamps_follow_iff (as : List Act) : Along World.step StatusShown World.init as ↔
    Steps World.step (fun w a _ => ¬ EndsDark w a) World.init as :=
  along_iff_steps (fun _ h => StatusInv.shown h) statusInv_step
    (fun w a t _ ht hq => statusInv_break w a t ht (not_not.1 hq)) statusInv_init as

/-- A frame opens the valve; a button test that is not answered leaves LED8 closed. -/
theorem statusLamps_dark_unanswered : ¬ Along World.step StatusShown World.init
    [.rx .rf4068 (-70) ⟨0, 0, 0, 0⟩ (peerFrame 0 1) 29, .button, .press, .button, .button] := by
  decide +kernel

end Spsi
