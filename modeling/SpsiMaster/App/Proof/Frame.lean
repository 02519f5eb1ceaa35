import SpsiMaster.App.System

/-!
# The effects of the functions of `heart.c`

For each function the state after the call, field by field, in closed form. The heartbeat and the
button thread never touch the variables of `psi.c`; a function that is not mentioned with a field
leaves it alone by definition.
-/

namespace Spsi

open Rtos CInt

namespace World

-- one update, or two in a row: these are unfolded
attribute [simp] heartTimeStart revive radioRefresh setMode releaseHeartSem setRetry retryIncrease
  heartRecord heartGoto buttonRecord buttonGoto buttonLoop aliveCountIncrease receiverClose

variable (w : World) (r : Radio) (n : Nat)

/-! ## Requests -/

@[simp] theorem heartRequest_heart :
    (w.heartRequest n).heart = { w.heart with rfNow := n } := by
  unfold heartRequest
  split <;> rfl

/-- A request clears `received` of the radio it is for. -/
@[simp] theorem heartRequest_info : (w.heartRequest n).info r =
    { w.info r with received := if r.number = n then false else (w.info r).received } := by
  unfold heartRequest
  split
  · cases r <;> rfl
  · cases r <;> rfl
  · next h0 h1 =>
    have hn : r.number ≠ n := by
      rintro rfl
      cases r
      · exact h1 rfl
      · exact h0 rfl
    rw [if_neg hn]
    rfl

@[simp] theorem heartRequest_hist : (w.heartRequest n).hist =
    if n ≤ 1 then .heartRequest (Radio.select n) :: w.hist else w.hist := by
  unfold heartRequest
  split
  · rfl
  · rfl
  · next h0 h1 =>
    have hn : ¬ n ≤ 1 := fun hn => (Nat.le_one_iff_eq_zero_or_eq_one.1 hn).elim h0 h1
    rw [if_neg hn]
    rfl

theorem heartSend_hist : w.heartSend.hist =
    if w.heart.rfNow ≤ 1 then .heartRequest (Radio.select w.heart.rfNow) :: w.hist
    else w.hist := by
  simp [heartSend]

@[simp] theorem buttonRequest_heart :
    (w.buttonRequest n).heart = { w.heart with rfNow := n } := by
  unfold buttonRequest
  split <;> rfl

/-- A test request clears `testreceived` of the radio it is for. -/
@[simp] theorem buttonRequest_info : (w.buttonRequest n).info r =
    { w.info r with testreceived := if r.number = n then false else (w.info r).testreceived } := by
  unfold buttonRequest
  split
  · cases r <;> rfl
  · cases r <;> rfl
  · next h0 h1 =>
    have hn : r.number ≠ n := by
      rintro rfl
      cases r
      · exact h1 rfl
      · exact h0 rfl
    rw [if_neg hn]
    rfl

@[simp] theorem buttonRequest_hist : (w.buttonRequest n).hist =
    if n ≤ 1 then .buttonRequest (Radio.select n) :: w.hist else w.hist := by
  unfold buttonRequest
  split
  · rfl
  · rfl
  · next h0 h1 =>
    have hn : ¬ n ≤ 1 := fun hn => (Nat.le_one_iff_eq_zero_or_eq_one.1 hn).elim h0 h1
    rw [if_neg hn]
    rfl

/-! ## Radio state -/

/-- An update of the `rf_info` of a radio keeps the fields that it keeps for this radio. -/
theorem field_update {α : Type} (f : RfInfo → α) (r' : Radio) {i : RfInfo}
    (h : f i = f (w.info r)) : f (Function.update w.info r i r') = f (w.info r') := by
  by_cases hr : r' = r
  · subst hr
    rw [Function.update_self, h]
  · rw [Function.update_of_ne hr]

@[simp] theorem rfOffline_heart : (w.rfOffline r).heart = w.heart := by
  unfold rfOffline
  split
  · rfl
  · split <;> rfl

@[simp] theorem rfOffline_psi : (w.rfOffline r).psi = w.psi := by
  unfold rfOffline
  split
  · rfl
  · split <;> rfl

/-- A radio that is declared offline is started and not alive. -/
@[simp] theorem rfOffline_info : (w.rfOffline r).info = Function.update w.info r
    { w.info r with
      alive := false
      startup := (w.info r).startup || !(w.info r).alive } := by
  unfold rfOffline
  cases ha : (w.info r).alive with
  | true => simp
  | false =>
    cases hs : (w.info r).startup with
    | false => simp [ha]
    | true =>
      have hi : w.info r = { w.info r with alive := false, startup := true } := by
        rw [← ha, ← hs]
      simp [← hi]

/-- The event of the radio is posted unless the radio is started and not alive. -/
@[simp] theorem rfOffline_event : (w.rfOffline r).event =
    if (w.info r).alive = true ∨ (w.info r).startup = false then
      eventSend w.event (.offline r)
    else w.event := by
  unfold rfOffline
  cases ha : (w.info r).alive with
  | true => simp
  | false => cases hs : (w.info r).startup <;> simp

@[simp] theorem rfOffline_hist : (w.rfOffline r).hist =
    if (w.info r).alive = true ∨ (w.info r).startup = false then
      .posted (.offline r) :: w.hist
    else w.hist := by
  unfold rfOffline
  cases ha : (w.info r).alive with
  | true => simp
  | false => cases hs : (w.info r).startup <;> simp

@[simp] theorem buttonFlip_info : w.buttonFlip.info = w.info := by
  unfold buttonFlip
  split <;> rfl

@[simp] theorem buttonFlip_event : w.buttonFlip.event = w.event := by
  unfold buttonFlip
  split <;> rfl

@[simp] theorem buttonFlip_psi : w.buttonFlip.psi = w.psi := by
  unfold buttonFlip
  split <;> rfl

@[simp] theorem buttonFlip_hist : w.buttonFlip.hist = w.hist := by
  unfold buttonFlip
  split <;> rfl

/-- `n` and `m` are `rf_now` and the lock after a flip by the button thread: it flips nothing while
the heartbeat has the lock. -/
def Flipped (n : Nat) (m : Mutex Thread) : Prop :=
  n = w.heart.rfNow ∧ m = w.heart.rfLock ∨
    w.heart.rfLock.owner ≠ some .heart ∧ n = cNot w.heart.rfNow ∧
      m = (w.heart.rfLock.trytake .button).2.release .button

theorem buttonFlip_heart : ∃ n m, w.buttonFlip.heart = { w.heart with rfNow := n, rfLock := m } ∧
    w.Flipped n m := by
  unfold buttonFlip
  split
  · next m hm =>
    refine ⟨_, _, rfl, .inr ⟨fun ho => ?_, rfl, by rw [hm]⟩⟩
    rw [Mutex.trytake_held ho (by decide)] at hm
    cases hm
  · exact ⟨_, _, rfl, .inl ⟨rfl, rfl⟩⟩

/-! ## The end of an attempt -/

end World

/-- What the end of an attempt on `r` leaves in the history, with `n` in `rf_now`. -/
def Ev.isVerdict (r : Radio) (n : Nat) : Ev → Bool
  | .fileOutput f => f.select = n
  | .charged r' => r' = Radio.select n
  | .revived r' | .posted (.offline r') | .verdict r' _ => r' = r
  | _ => false

namespace World

variable (w : World) (r : Radio) (n : Nat)

theorem rfOffline_extends : Hist.Extends (Ev.isVerdict r n) w.hist (w.rfOffline r).hist := by
  rw [rfOffline_hist]
  split
  · exact .cons (by simp [Ev.isVerdict]) (.refl _)
  · exact .refl _

theorem heartAttempt_extends {k : Nat} {fail : World → Radio → World}
    (hf : (fail w r).hist = w.hist) : Hist.Extends (Ev.isVerdict r w.heart.rfNow) w.hist
      (heartAttempt k fail w r).hist := by
  unfold heartAttempt
  split
  · simp only [heartTimeStart, radioRefresh, revive, heartRecord, setMode, onHeart_hist, log_hist,
      onInfo_hist, fileOutput_hist, onHeart_heart]
    exact .cons (by simp [Ev.isVerdict]) (.cons (by simp [Ev.isVerdict]) (.refl _))
  · rw [hf]
    exact .refl _

theorem heartFinal_extends : Hist.Extends (Ev.isVerdict r w.heart.rfNow) w.hist
    (w.heartFinal r).hist := by
  have hrec : Hist.Extends (Ev.isVerdict r w.heart.rfNow) w.hist
      (w.heartRecord r (w.info r).received 3).hist :=
    .cons (by simp [Ev.isVerdict]) (.refl _)
  simp only [heartFinal]
  split
  · exact .cons (by simp [Ev.isVerdict]) (.cons (by simp [Ev.isVerdict]) hrec)
  · have hcharge : Hist.Extends (Ev.isVerdict r w.heart.rfNow) w.hist
        ((w.heartRecord r (w.info r).received 3).aliveCountIncrease w.heart.rfNow).hist :=
      .cons (by simp [Ev.isVerdict]) hrec
    exact .cons (by simp [Ev.isVerdict]) (hcharge.trans (rfOffline_extends _ r _))

/-- A check turn judges the radio of `info_temp`, under the name in `rf_now`. -/
theorem heartCheck_hist : Hist.Extends (Ev.isVerdict w.heart.heartInfo w.heart.rfNow)
    (.judged w.heart.heartInfo :: w.hist) w.heartCheck.hist := by
  simp only [heartCheck, onHeart_hist]
  split
  · exact heartAttempt_extends _ _ rfl
  · exact heartAttempt_extends _ _ rfl
  · exact heartAttempt_extends _ _ rfl
  · exact heartFinal_extends _ _
  · exact .refl _

theorem buttonFinish_extends (k : Nat) : Hist.Extends (Ev.isVerdict r w.heart.rfNow) w.hist
    (w.buttonFinish r k).hist := by
  have hattempt : ∀ k, Hist.Extends (Ev.isVerdict r w.heart.rfNow) w.hist
      (buttonAttempt k w r).hist := by
    intro k
    unfold buttonAttempt
    split
    · rw [buttonFlip_hist]
      exact .cons (by simp [Ev.isVerdict]) (.cons (by simp [Ev.isVerdict]) (.refl _))
    · exact .refl _
  have hrec : Hist.Extends (Ev.isVerdict r w.heart.rfNow) w.hist
      (w.buttonRecord r (w.info r).testreceived 3).hist :=
    .cons (by simp [Ev.isVerdict]) (.refl _)
  unfold buttonFinish
  split
  · exact hattempt 0
  · exact hattempt 1
  · exact hattempt 2
  · simp only [buttonFinal]
    split
    · rw [log_hist, buttonFlip_hist]
      exact .cons (by simp [Ev.isVerdict]) (.cons (by simp [Ev.isVerdict]) hrec)
    · have hcharge : Hist.Extends (Ev.isVerdict r w.heart.rfNow) w.hist
          ((w.buttonRecord r (w.info r).testreceived 3).aliveCountIncrease
            w.heart.rfNow).buttonFlip.hist := by
        rw [buttonFlip_hist]
        exact .cons (by simp [Ev.isVerdict]) hrec
      exact .cons (by simp [Ev.isVerdict]) (hcharge.trans (rfOffline_extends _ r _))
  · exact .refl _

/-! ## The button thread -/

/-- What the button thread changes of the variables of `heart.c`. -/
def ButtonHeart (w t : World) : Prop :=
  ∃ n m v pc, t.heart = { w.heart with rfNow := n, rfLock := m, buttonSem := v, buttonPc := pc } ∧
    w.Flipped n m

theorem ButtonHeart.of_flip {w t : World} (h : ∃ n m, t.heart =
    { w.heart with rfNow := n, rfLock := m } ∧ w.Flipped n m) : ButtonHeart w t := by
  obtain ⟨n, m, he, hf⟩ := h
  exact ⟨n, m, w.heart.buttonSem, w.heart.buttonPc, he, hf⟩

theorem buttonFinish_heart (k : Nat) : ButtonHeart w (w.buttonFinish r k) := by
  have hidle : ButtonHeart w w := ⟨_, _, _, _, rfl, .inl ⟨rfl, rfl⟩⟩
  have hattempt : ∀ k, ButtonHeart w (buttonAttempt k w r) := by
    intro k
    unfold buttonAttempt
    split
    · exact .of_flip (buttonFlip_heart ((w.buttonRecord r true k).revive r))
    · exact hidle
  unfold buttonFinish
  split
  · exact hattempt 0
  · exact hattempt 1
  · exact hattempt 2
  · simp only [buttonFinal]
    split
    · exact .of_flip (buttonFlip_heart ((w.buttonRecord r (w.info r).testreceived 3).revive r))
    · obtain ⟨n, m, he, hf⟩ := buttonFlip_heart
        ((w.buttonRecord r (w.info r).testreceived 3).aliveCountIncrease w.heart.rfNow)
      refine .of_flip ⟨n, m, ?_, hf⟩
      simp only [buttonDeclare, log_heart, setRetry, onInfo_heart, rfOffline_heart]
      exact he
  · exact hidle

theorem buttontestCallback_heart : ButtonHeart w w.buttontestCallback := by
  unfold buttontestCallback
  split
  · exact ⟨_, _, _, _, rfl, .inl ⟨rfl, rfl⟩⟩
  · next r _ =>
    split
    · next v _ =>
      simp only
      split
      · exact ⟨w.heart.rfNow, w.heart.rfLock, v, .wait r (w.info r).retry, by simp,
          .inl ⟨rfl, rfl⟩⟩
      · exact ⟨w.heart.rfNow, w.heart.rfLock, v, .take (Radio.select w.heart.rfNow), by simp,
          .inl ⟨rfl, rfl⟩⟩
    · exact ⟨_, _, _, _, rfl, .inl ⟨rfl, rfl⟩⟩
  · next r k _ =>
    obtain ⟨n, m, v, pc, he, hf⟩ := buttonFinish_heart w r k
    refine ⟨n, m, v, .take (Radio.select n), ?_, hf⟩
    simp [he]

/-- The end of an attempt changes no reception flag. -/
def SameFlags (w t : World) : Prop :=
  ∀ r, (t.info r).received = (w.info r).received ∧
    (t.info r).testreceived = (w.info r).testreceived

theorem SameFlags.of_eq {w t : World} (h : t.info = w.info) : SameFlags w t := by
  intro r
  rw [h]
  exact ⟨rfl, rfl⟩

theorem SameFlags.trans {w₁ w₂ w₃ : World} (h : SameFlags w₁ w₂) (h' : SameFlags w₂ w₃) :
    SameFlags w₁ w₃ :=
  fun r => ⟨(h' r).1.trans (h r).1, (h' r).2.trans (h r).2⟩

theorem SameFlags.set {w t : World} {r : Radio} (h : ∃ a b c, t.info = Function.update w.info r
    { w.info r with retry := a, alive := b, startup := c }) : SameFlags w t := by
  obtain ⟨a, b, c, h⟩ := h
  intro r'
  rw [h]
  exact ⟨field_update w r RfInfo.received r' rfl, field_update w r RfInfo.testreceived r' rfl⟩

theorem rfOffline_flags : SameFlags w (w.rfOffline r) := by
  unfold rfOffline
  split
  · exact .set ⟨_, _, _, rfl⟩
  · split
    · exact .set ⟨_, _, _, rfl⟩
    · exact .of_eq rfl

theorem buttonFinish_flags (k : Nat) : SameFlags w (w.buttonFinish r k) := by
  have hrevive : SameFlags w (w.revive r) := .set ⟨_, _, _, rfl⟩
  have hattempt : ∀ k, SameFlags w (buttonAttempt k w r) := by
    intro k
    unfold buttonAttempt
    split
    · exact hrevive.trans (.of_eq (buttonFlip_info _))
    · exact .set ⟨_, _, _, rfl⟩
  unfold buttonFinish
  split
  · exact hattempt 0
  · exact hattempt 1
  · exact hattempt 2
  · simp only [buttonFinal]
    split
    · exact hrevive.trans (.of_eq (buttonFlip_info _))
    · have hflip : SameFlags w ((w.buttonRecord r (w.info r).testreceived 3).aliveCountIncrease
          w.heart.rfNow).buttonFlip := .of_eq (buttonFlip_info _)
      exact (hflip.trans (rfOffline_flags _ r)).trans (.set ⟨_, _, _, rfl⟩)
  · exact .of_eq rfl

/-! ## The heartbeat thread -/

/-- What a case of mode `check` changes of the variables of `heart.c`: it leaves the mode. -/
def HeartJudged (w t : World) : Prop :=
  ∃ n m tm s, t.heart =
      { w.heart with rfNow := n, heartMode := m, heartTimer := tm, heartSem := s } ∧
    (n = w.heart.rfNow ∨ n = cNot w.heart.rfNow) ∧ m ≠ .check

theorem heartAttempt_judged {k : Nat} {fail : World → Radio → World} {w : World} {r : Radio}
    (hf : HeartJudged w (fail w r)) : HeartJudged w (heartAttempt k fail w r) := by
  unfold heartAttempt
  split
  · exact ⟨_, _, _, _, rfl, .inr rfl, by simp⟩
  · exact hf

theorem heartFinal_judged : HeartJudged w (w.heartFinal r) := by
  simp only [heartFinal]
  split
  · exact ⟨_, _, _, _, rfl, .inr rfl, by simp⟩
  · exact ⟨_, _, w.heart.heartTimer, semRelease w.heart.heartSem, by simp [heartDeclare]; rfl,
      .inr rfl, by simp⟩

/-- The cases of a check. -/
def checkCase (w : World) : World :=
  match (w.info w.heart.heartInfo).retry with
  | 0 => w.heartFirst w.heart.heartInfo
  | 1 => w.heartSecond w.heart.heartInfo
  | 2 => w.heartThird w.heart.heartInfo
  | 3 => w.heartFinal w.heart.heartInfo
  | _ => w

theorem heartCheck_eq : w.heartCheck = ((w.log (.judged w.heart.heartInfo)).checkCase).onHeart
    fun h => { h with rfLock := h.rfLock.release .heart } := rfl

/-- A check has one of the cases, or the retry count is too high and it does nothing. -/
theorem checkCase_judged : HeartJudged w w.checkCase ∨
    w.checkCase = w ∧ 3 < (w.info w.heart.heartInfo).retry := by
  unfold checkCase
  split
  · exact .inl (heartAttempt_judged ⟨_, _, _, _, rfl, .inl rfl, by simp⟩)
  · exact .inl (heartAttempt_judged ⟨_, _, _, _, rfl, .inl rfl, by simp⟩)
  · exact .inl (heartAttempt_judged ⟨_, _, _, _, rfl, .inl rfl, by simp⟩)
  · exact .inl (heartFinal_judged w _)
  · next h0 h1 h2 h3 =>
    simp only [imp_false] at h0 h1 h2 h3
    exact .inr ⟨rfl, by omega⟩

theorem checkCase_flags : SameFlags w w.checkCase := by
  have hattempt : ∀ {k} {fail : World → Radio → World} {r : Radio}, SameFlags w (fail w r) →
      SameFlags w (heartAttempt k fail w r) := by
    intro k fail r hf
    unfold heartAttempt
    split
    · exact .set ⟨_, _, _, rfl⟩
    · exact hf
  unfold checkCase
  split
  · exact hattempt (.set ⟨_, _, _, rfl⟩)
  · exact hattempt (.set ⟨_, _, _, rfl⟩)
  · exact hattempt (.set ⟨_, _, _, rfl⟩)
  · simp only [heartFinal]
    split
    · exact .set ⟨_, _, _, rfl⟩
    · have hoff : SameFlags w (World.rfOffline _ w.heart.heartInfo) := rfOffline_flags
        (((w.heartRecord w.heart.heartInfo (w.info w.heart.heartInfo).received 3).aliveCountIncrease
          w.heart.rfNow).onHeart fun h => { h with rfNow := cNot h.rfNow }) w.heart.heartInfo
      exact hoff.trans (.set ⟨_, _, _, rfl⟩)
  · exact .of_eq rfl

theorem connectCheck_flags : SameFlags w w.connectCheck := by
  simp only [connectCheck]
  split
  · exact .set ⟨_, _, _, rfl⟩
  · exact .of_eq rfl

/-- The check of a connection request judges 433. -/
theorem connectCheck_hist : Hist.Extends (Ev.isVerdict .rf433 1) (.judged .rf433 :: w.hist)
    w.connectCheck.hist := by
  simp only [connectCheck]
  split
  · exact .cons rfl (.cons rfl (.refl _))
  · exact .refl _

/-- The heartbeat thread leaves the place of the button thread, and 0 or 1 in `rf_now`. -/
theorem heartCallback_button (w : World) (rand : Nat) :
    (w.heartCallback rand).heart.buttonPc = w.heart.buttonPc ∧
      (w.heart.rfNow ≤ 1 → (w.heartCallback rand).heart.rfNow ≤ 1) := by
  have hsend : ∀ v : World, v.heartSend.heart.buttonPc = v.heart.buttonPc ∧
      v.heartSend.heart.rfNow = v.heart.rfNow := fun v => by simp [heartSend]
  unfold heartCallback
  split
  · split
    · simp
    · exact ⟨rfl, id⟩
  · simp only [connectCheck]
    split
    · exact ⟨rfl, fun _ => cNot_le _⟩
    · exact ⟨rfl, id⟩
  · split
    · unfold heartSwitch
      split
      · next v _ _ _ =>
        obtain ⟨h1, h2⟩ := hsend (w.onHeart fun h => { h with heartSem := v })
        simp only [heartGoto, onHeart_heart] at h1 h2 ⊢
        rw [h1, h2]
        exact ⟨rfl, id⟩
      · next v _ _ _ =>
        rw [heartCheck_eq]
        rcases checkCase_judged ((w.onHeart fun h => { h with heartSem := v }).log
          (.judged w.heart.heartInfo)) with ⟨n, m, tm, s, he, hn, -⟩ | ⟨he, -⟩
        · simp only [onHeart_heart, log_heart, heartGoto] at he hn ⊢
          rw [he]
          refine ⟨rfl, fun h => ?_⟩
          rcases hn with rfl | rfl
          · exact h
          · exact cNot_le _
        · simp only [onHeart_heart, heartGoto] at he ⊢
          rw [he]
          exact ⟨rfl, id⟩
      · exact ⟨rfl, id⟩
      · exact ⟨rfl, id⟩
    · exact ⟨rfl, id⟩

end World

/-! ## Steps of the program -/

/-- What follows from a frame, from an event or from the change of a variable, and is not looked at
by the threads. -/
def Ev.isSideEffect : Ev → Bool
  | .led _ | .fileOutput _ | .posted _ | .handled _ | .psiLedResume | .psiLedLost => true
  | _ => false

/-- What `warn_callback` leaves in the history. -/
def Ev.isDisplay : Ev → Bool
  | .led _ | .fileOutput _ | .handled _ | .psiLedResume | .psiLedLost => true
  | _ => false

theorem isOutput_isDisplay (e : Ev) (h : e.isOutput = true) : e.isDisplay = true := by
  cases e <;> first | rfl | cases h

theorem isDisplay_isSideEffect (e : Ev) (h : e.isDisplay = true) : e.isSideEffect = true := by
  cases e <;> first | rfl | cases h

theorem isOutput_isSideEffect (e : Ev) (h : e.isOutput = true) : e.isSideEffect = true :=
  isDisplay_isSideEffect e (isOutput_isDisplay e h)

namespace World

variable (w : World) (r : Radio)

theorem accept_extends (rssi c d : Int) :
    Hist.Extends Ev.isSideEffect (.accepted r c d :: w.hist) (accept r w rssi c d).hist := by
  obtain ⟨-, -, -, h, hx, he⟩ := accept_spec r w rssi c d
  have hpost : Hist.Extends Ev.isSideEffect (.accepted r c d :: w.hist)
      (.posted (.online r) :: .accepted r c d :: w.hist) := .cons rfl (.refl _)
  rw [he]
  exact .cons rfl (hpost.trans (hx.mono isOutput_isSideEffect))

theorem warnCallback_extends : Hist.Extends Ev.isDisplay w.hist w.warnCallback.hist := by
  rcases w.warnCallback_cases with ⟨-, he⟩ | ⟨c, -, he⟩
  · rw [he]
    exact .refl _
  · rw [he]
    cases c with
    | offline r =>
      have hshow : Hist.Extends Ev.isDisplay w.hist
          (({ w with event := fun _ => false } : World).showLost r).hist :=
        .cons rfl (.cons rfl (.refl _))
      exact hshow.trans ((warnOffline_output _ r).hist.mono isOutput_isDisplay)
    | online r =>
      have hlog : Hist.Extends Ev.isDisplay w.hist
          (({ w with event := fun _ => false } : World).log (.handled (.online r))).hist :=
        .cons rfl (.refl _)
      exact hlog.trans ((warnOnline_output _ r).hist.mono isOutput_isDisplay)

theorem warnCallback_sideEffects : Hist.Extends Ev.isSideEffect w.hist w.warnCallback.hist :=
  w.warnCallback_extends.mono isDisplay_isSideEffect

theorem warnCallback_heart : w.warnCallback.heart = w.heart := by
  rcases w.warnCallback_cases with ⟨-, he⟩ | ⟨c, -, he⟩
  · rw [he]
  · rw [he]
    cases c with
    | offline r => exact (warnOffline_output _ r).heart
    | online r => exact (warnOnline_output _ r).heart

theorem warnCallback_info : w.warnCallback.info = w.info := by
  rcases w.warnCallback_cases with ⟨-, he⟩ | ⟨c, -, he⟩
  · rw [he]
  · rw [he]
    cases c with
    | offline r => exact (warnOffline_output _ r).info
    | online r => exact (warnOnline_output _ r).info

theorem psiOpen_psiLost : w.psiOpen.psi.psiLost = w.psi.psiLost := by
  rw [psiOpen_psi]
  split <;> rfl

theorem psiClose_psiLost : w.psiClose.psi.psiLost = w.psi.psiLost := by
  rw [psiClose_psi]
  split <;> rfl

theorem solveCommand_psiLost (rssi c d : Int) :
    (solveCommand r w rssi c d).psi.psiLost = w.psi.psiLost := by
  unfold solveCommand
  split
  · simp
  · split
    · simp [receiverBlink]
    · split
      · unfold rfWrite
        split <;> simp
      · rfl

theorem accept_psiLost (rssi c d : Int) : (accept r w rssi c d).psi.psiLost = w.psi.psiLost := by
  simp only [accept, ledRfStart]
  split
  · rw [log_psi, solveCommand_psiLost]
    rfl
  · rw [solveCommand_psiLost]
    rfl

theorem psiThreadCallback_psiLost : w.psiThreadCallback.psi.psiLost = w.psi.psiLost := by
  unfold psiThreadCallback
  rw [onPsi_psi]
  split
  · simp only [psiPulse]
    split
    · simp [psiOpen_psiLost]
    · rfl
  · rfl

end World

/-- A step that none of the threads `heart`, `buttontest`, `warn` makes and that accepts no frame:
it leaves their variables alone. -/
structure QuietStep (w t : World) : Prop where
  heart : t.heart = w.heart
  info : t.info = w.info
  event : t.event = w.event
  psiLost : t.psi.psiLost = w.psi.psiLost
  hist : Hist.Extends Ev.isOutput w.hist t.hist

theorem QuietStep.refl (w : World) : QuietStep w w :=
  ⟨rfl, rfl, rfl, rfl, .refl _⟩

theorem QuietStep.sideEffects {w t : World} (h : QuietStep w t) :
    Hist.Extends Ev.isSideEffect w.hist t.hist := h.hist.mono isOutput_isSideEffect

theorem OutputStep.quiet {w t : World} (h : OutputStep w t)
    (hl : t.psi.psiLost = w.psi.psiLost) : QuietStep w t :=
  ⟨h.heart, h.info, h.event, hl, h.hist⟩

/-- The steps of the program. -/
inductive StepCase (w : World) : Act → World → Prop
  | heart (rand : Nat) : StepCase w (.heart rand) (w.heartCallback rand)
  | button : StepCase w .button w.buttontestCallback
  | press : StepCase w .press w.heartSingle
  | heartTimer (ha : w.heart.heartTimer.armed = true) : StepCase w .heartTimer
      (w.onHeart fun h => { h with heartTimer := h.heartTimer.expire }).heartTimerCallback
  | connectTimer (ha : w.heart.connectTimer.armed = true) :
      StepCase w .connectTimer w.connectTimerCallback
  | accept (r : Radio) (rssi : Int) (stack : Message) (rxBuffer : RxBuffer) (rxLen : Nat)
      (c d : Int) : StepCase w (.rx r rssi stack rxBuffer rxLen) (World.accept r w rssi c d)
  | warn : StepCase w .warn w.warnCallback
  | quiet {a : Act} {t : World} (hb : a ≠ .button) (hh : ∀ n, a ≠ .heart n) (hw : a ≠ .warn)
      (h : QuietStep w t) : StepCase w a t

theorem step_case {w t : World} {a : Act} (h : w.step a = some t) : StepCase w a t := by
  cases a with
  | heart rand => cases h; exact .heart rand
  | button => cases h; exact .button
  | press => cases h; exact .press
  | heartTimer =>
    simp only [World.step, Option.ite_none_right_eq_some, Option.some.injEq] at h
    obtain ⟨ha, rfl⟩ := h
    exact .heartTimer ha
  | connectTimer =>
    simp only [World.step, Option.ite_none_right_eq_some, Option.some.injEq] at h
    obtain ⟨ha, rfl⟩ := h
    exact .connectTimer ha
  | rx r rssi stack rxBuffer rxLen =>
    simp only [World.step, Option.ite_none_right_eq_some, Option.some.injEq] at h
    obtain ⟨-, rfl⟩ := h
    rcases World.rxCallback_cases r stack w rssi rxBuffer rxLen with he | ⟨c, d, he⟩
    · rw [he]
      exact .quiet (by simp) (by simp) (by simp) (.refl w)
    · rw [he]
      exact .accept r rssi stack rxBuffer rxLen c d
  | warn => cases h; exact .warn
  | psi =>
    cases h
    exact .quiet (by simp) (by simp) (by simp)
      ((OutputStep.psiThreadCallback w).quiet w.psiThreadCallback_psiLost)
  | psiPin =>
    simp only [World.step, Option.ite_none_right_eq_some, Option.some.injEq] at h
    obtain ⟨-, rfl⟩ := h
    exact .quiet (by simp) (by simp) (by simp) ((OutputStep.onPsi w _).quiet rfl)
  | psiTimer =>
    simp only [World.step, Option.ite_none_right_eq_some, Option.some.injEq] at h
    obtain ⟨-, rfl⟩ := h
    exact .quiet (by simp) (by simp) (by simp)
      (((OutputStep.onPsi w _).trans (.psiClose _)).quiet (World.psiClose_psiLost _))
  | seg =>
    cases h
    exact .quiet (by simp) (by simp) (by simp)
      ⟨rfl, rfl, rfl, rfl, .refl _⟩
  | dequeue r =>
    cases r with
    | rf433 =>
      cases h
      exact .quiet (by simp) (by simp) (by simp) ((OutputStep.onQueue w _).quiet rfl)
    | rf4068 =>
      cases h
      exact .quiet (by simp) (by simp) (by simp) ((OutputStep.onQueue w _).quiet rfl)
  | upload =>
    cases h
    exact .quiet (by simp) (by simp) (by simp) ((OutputStep.onQueue w _).quiet rfl)

/-! ## The events of a step -/

/-- The calls between two states. -/
def made (w t : World) : List Ev := Hist.fresh w.hist t.hist

theorem made_eq {w t : World} {es : List Ev} (h : t.hist = es ++ w.hist) : made w t = es := by
  rw [made, h, Hist.fresh_append]

theorem mem_made {c : Ev → Bool} {w t : World} (h : Hist.Extends c w.hist t.hist) :
    ∀ e ∈ made w t, c e = true := Hist.mem_fresh h

/-- A log record or a charge is one for `r`. -/
def Ev.isFor (r : Radio) : Ev → Bool
  | .fileOutput f => Radio.select f.select = r
  | .charged r' => r' = r
  | _ => true

theorem isVerdict_isFor {r : Radio} {n : Nat} (hn : Radio.select n = r) (e : Ev)
    (h : e.isVerdict r n = true) : e.isFor r = true := by
  cases e with
  | fileOutput f =>
    have hs : f.select = n := of_decide_eq_true h
    simp [Ev.isFor, hs, hn]
  | charged r' =>
    have hr : r' = Radio.select n := of_decide_eq_true h
    simp [Ev.isFor, hr, hn]
  | _ => rfl

end Spsi
