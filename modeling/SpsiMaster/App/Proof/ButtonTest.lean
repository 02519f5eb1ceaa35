import SpsiMaster.App.Proof.WakeUp

/-!
# Which radio a button test judges

`buttontest_callback` chooses `info_temp` by `rf_now` before it waits in `rt_sem_take`, sends the
request by the value of `rf_now` after the wait, and writes its log record and the charge by the
value after another two seconds. The heartbeat thread flips `rf_now` in both waits.

`buttonTest_of_tested`: along a schedule in which `rf_now` names the radio of `info_temp` when the
button is taken and when a record is written, every test judges the radio it has tested.
-/

namespace Spsi

open Rtos CInt Run World

/-! ## Tests and answers in the history -/

def Ev.isButtonRequest : Ev → Bool
  | .buttonRequest _ => true
  | _ => false

/-- A frame of `r` with command 1. -/
def Ev.isTestAnswerOn (r : Radio) : Ev → Bool
  | .accepted r' c _ => r' = r ∧ c = 1
  | _ => false

/-- The events the definitions below look at. -/
def Ev.isTestExchange : Ev → Bool
  | .buttonRequest _ | .accepted _ _ _ => true
  | _ => false

/-- The radio of a `button_request`. -/
def Ev.buttonRequestOf : Ev → Option Radio
  | .buttonRequest r => some r
  | _ => none

/-- The radio of the latest `button_request`. -/
def tested (h : List Ev) : Option Radio := h.findSome? Ev.buttonRequestOf

def Ev.isButtonRequestOf (r : Radio) : Ev → Bool
  | .buttonRequest r' => r' = r
  | _ => false

/-- A frame of `r` with command 1 has been accepted after the latest `button_request` for `r`. -/
def testAnswered (r : Radio) (h : List Ev) : Bool :=
  Hist.since (Ev.isTestAnswerOn r) (Ev.isButtonRequestOf r) h

/-- `t` continues `w` without a test request or a frame. -/
def NoTestExchange (w t : World) : Prop :=
  Hist.Extends (fun e => !e.isTestExchange) w.hist t.hist

theorem NoTestExchange.tested {w t : World} (h : NoTestExchange w t) :
    tested t.hist = tested w.hist :=
  Hist.Extends.findSome? h fun e he => by cases e <;> first | rfl | cases he

theorem NoTestExchange.answered {w t : World} (h : NoTestExchange w t) (r : Radio) :
    testAnswered r t.hist = testAnswered r w.hist :=
  Hist.Extends.since h (fun e he => by cases e <;> first | rfl | cases he)
    (fun e he => by cases e <;> first | rfl | cases he)

theorem isSideEffect_noTestExchange (e : Ev) (h : e.isSideEffect = true) :
    e.isTestExchange = false := by
  cases e <;> first | rfl | cases h

theorem isVerdict_noTestExchange {r : Radio} {n : Nat} (e : Ev) (h : e.isVerdict r n = true) :
    e.isTestExchange = false := by
  cases e <;> first | rfl | cases h

/-! ## The heartbeat thread -/

theorem heartCallback_noTestExchange (w : World) (rand : Nat) :
    NoTestExchange w (w.heartCallback rand) := by
  have hrequest : ∀ (v : World) n, NoTestExchange v (v.heartRequest n) := by
    intro v n
    unfold NoTestExchange
    rw [heartRequest_hist]
    split
    · exact .cons rfl (.refl _)
    · exact .refl _
  have hsend : ∀ v : World, NoTestExchange v v.heartSend := by
    intro v
    unfold NoTestExchange
    rw [heartSend_hist]
    split
    · exact .cons rfl (.refl _)
    · exact .refl _
  have hcheck : ∀ v : World, NoTestExchange v v.heartCheck := fun v =>
    .trans (.cons rfl (.refl _)) (.avoid (heartCheck_hist v) isVerdict_noTestExchange)
  unfold heartCallback
  split
  · split
    · exact hrequest _ 1
    · exact .refl _
  · exact Hist.Extends.trans (.cons rfl (.refl _))
      (Hist.Extends.avoid (connectCheck_hist w) isVerdict_noTestExchange)
  · split
    · unfold heartSwitch
      split
      · next v _ _ _ => exact hsend (w.onHeart fun h => { h with heartSem := v })
      · next v _ _ _ => exact hcheck (w.onHeart fun h => { h with heartSem := v })
      · exact .refl _
      · exact .refl _
    · exact .refl _

theorem heartCallback_testreceived (w : World) (rand : Nat) (r : Radio) :
    ((w.heartCallback rand).info r).testreceived = (w.info r).testreceived := by
  unfold heartCallback
  split
  · split
    · simp
    · rfl
  · exact (connectCheck_flags w r).2
  · split
    · unfold heartSwitch
      split
      · simp [heartSend]
      · rw [heartCheck_eq]
        exact (checkCase_flags _ r).2
      · rfl
      · rfl
    · rfl

/-! ## The invariant -/

/-- The test that `buttontest_callback` is in was requested from the radio of `info_temp`, and
`testreceived` tells whether a radio has answered its latest test request. -/
structure ButtonTest (w : World) : Prop where
  bit : w.heart.rfNow ≤ 1
  wait : ∀ r k, w.heart.buttonPc = .wait r k → tested w.hist = some r
  received : ∀ r, (w.info r).testreceived = testAnswered r w.hist

theorem buttonTest_init : ButtonTest World.init where
  bit := Nat.zero_le 1
  wait := fun _ _ h => nomatch h
  received := fun _ => rfl

/-- No test is under way. -/
theorem ButtonTest.idle {w : World} (hb : w.heart.rfNow ≤ 1)
    (hp : ∀ r k, w.heart.buttonPc ≠ .wait r k)
    (hr : ∀ r, (w.info r).testreceived = testAnswered r w.hist) : ButtonTest w :=
  ⟨hb, fun r k h => absurd h (hp r k), hr⟩

/-- A step without a test request or a frame that leaves the button thread where it is. -/
theorem ButtonTest.same {w t : World} (h : ButtonTest w) (hx : NoTestExchange w t)
    (hb : t.heart.rfNow ≤ 1) (hp : t.heart.buttonPc = w.heart.buttonPc)
    (hr : ∀ r, (t.info r).testreceived = (w.info r).testreceived) : ButtonTest t where
  bit := hb
  wait := by
    intro r k hpc
    rw [hx.tested]
    exact h.wait r k (hp ▸ hpc)
  received := by
    intro r
    rw [hr r, hx.answered r]
    exact h.received r

/-- `rf_now` names the radio of `info_temp` when a press is taken for a test, and when a test that
writes a record is over. -/
def NamesTestedAt (w : World) : ButtonPc → Prop
  | .start => True
  | .take r => 0 < w.heart.buttonSem → (w.info r).retry ≤ 3 → Radio.select w.heart.rfNow = r
  | .wait r k => (w.info r).testreceived = true ∨ k = 3 → Radio.select w.heart.rfNow = r

def NamesTested (w : World) (a : Act) (_ : World) : Prop :=
  a = .button → NamesTestedAt w w.heart.buttonPc

/-- A finished test judges the radio of its request: it is the one of `info_temp`, whose `rf_info`
is the only one changed; the log record and the charge are for it; and it succeeds only if a
frame with command 1 has been accepted on it since. -/
def JudgesTestedAt (w t : World) : ButtonPc → Prop
  | .start | .take _ => True
  | .wait r _ =>
    tested w.hist = some r ∧ (∀ r', r' ≠ r → t.info r' = w.info r') ∧
      (∀ e ∈ made w t, e.isFor r = true) ∧
      ((w.info r).testreceived = true →
        Hist.since (Ev.isTestAnswerOn r) Ev.isButtonRequest w.hist = true)

def JudgesTested (w : World) (a : Act) (t : World) : Prop :=
  a = .button → JudgesTestedAt w t w.heart.buttonPc

instance decidableNamesTestedAt (w : World) : (pc : ButtonPc) → Decidable (NamesTestedAt w pc)
  | .start => inferInstanceAs (Decidable True)
  | .take _ => inferInstanceAs (Decidable (_ → _ → _))
  | .wait _ _ => inferInstanceAs (Decidable (_ → _))

instance decidableJudgesTestedAt (w t : World) :
    (pc : ButtonPc) → Decidable (JudgesTestedAt w t pc)
  | .start => inferInstanceAs (Decidable True)
  | .take _ => inferInstanceAs (Decidable True)
  | .wait _ _ => inferInstanceAs (Decidable (_ ∧ _ ∧ _ ∧ _))

instance decidableNamesTested (w : World) (a : Act) (t : World) :
    Decidable (NamesTested w a t) := inferInstanceAs (Decidable (_ → _))

instance decidableJudgesTested (w : World) (a : Act) (t : World) :
    Decidable (JudgesTested w a t) := inferInstanceAs (Decidable (_ → _))

/-! ## The button thread -/

/-- The state after a test request. -/
theorem buttonRequest_received {w : World}
    (h : ∀ r, (w.info r).testreceived = testAnswered r w.hist)
    {n : Nat} (hn : n ≤ 1) : ∀ r, ((w.buttonRequest n).info r).testreceived =
      testAnswered r (w.buttonRequest n).hist := by
  have hnum : n = (Radio.select n).number := (Radio.number_select hn).symm
  intro r
  rw [buttonRequest_info, buttonRequest_hist, if_pos hn]
  by_cases hr : Radio.select n = r
  · rw [if_pos (by rw [← hr, ← hnum])]
    exact (Hist.since_reset (by simp [Ev.isButtonRequestOf, hr]) _).symm
  · have hne : r.number ≠ n := fun he => hr (by rw [← he, Radio.select_number])
    rw [if_neg hne, h r]
    exact (Hist.since_skip (by simp [Ev.isButtonRequestOf, hr]) rfl _).symm

theorem buttontestCallback_bit {w : World} (h : w.heart.rfNow ≤ 1) :
    w.buttontestCallback.heart.rfNow ≤ 1 := by
  obtain ⟨n, m, v, pc, he, hf⟩ := w.buttontestCallback_heart
  rw [he]
  rcases hf with ⟨hn, -⟩ | ⟨-, hn, -⟩
  · rw [hn]
    exact h
  · rw [hn]
    exact cNot_le _

theorem buttonTest_button {w : World} (h : ButtonTest w)
    (hq : NamesTested w .button w.buttontestCallback) : ButtonTest w.buttontestCallback := by
  suffices hkey : w.buttontestCallback.heart.rfNow ≤ 1 → ButtonTest w.buttontestCallback from
    hkey (buttontestCallback_bit h.bit)
  have hq := hq rfl
  unfold buttontestCallback
  split
  · exact fun hb => .idle hb (fun _ _ => by simp) h.received
  · next r hpc =>
    rw [hpc] at hq
    split
    · next v hv =>
      have hname : (w.info r).retry ≤ 3 → Radio.select w.heart.rfNow = r :=
        hq (by rw [semTake_eq_some.1 hv]; exact Nat.succ_pos v)
      have hreq : ∀ r', (((w.onHeart fun h => { h with buttonSem := v }).buttonRequest
          w.heart.rfNow).info r').testreceived = testAnswered r'
            (((w.onHeart fun h => { h with buttonSem := v }).buttonRequest
              w.heart.rfNow).receiverClose).hist := by
        intro r'
        have hr := @buttonRequest_received (w.onHeart fun h => { h with buttonSem := v })
          h.received w.heart.rfNow h.bit r'
        exact hr.trans (Hist.since_skip rfl rfl _).symm
      simp only
      split
      · next hr =>
        refine fun hb => ⟨hb, fun r' k hpc' => ?_, hreq⟩
        simp only [buttonGoto, onHeart_heart, ButtonPc.wait.injEq] at hpc'
        rw [← hpc'.1, ← hname (by simpa using hr)]
        simp only [tested, buttonGoto, onHeart_hist, World.receiverClose, log_hist,
          buttonRequest_hist, if_pos h.bit]
        rfl
      · exact fun hb => .idle hb (fun _ _ => by simp) hreq
    · exact fun hb => .idle hb (fun _ _ => by simp) h.received
  · next r k _ =>
    refine fun hb => .idle hb (fun _ _ => by simp) fun r' => ?_
    have hx : NoTestExchange w (w.buttonFinish r k) :=
      Hist.Extends.avoid (buttonFinish_extends w r k) isVerdict_noTestExchange
    exact ((buttonFinish_flags w r k r').2.trans (h.received r')).trans (hx.answered r').symm

/-! ## The rest of the program -/

/-- An accepted frame answers the test of its radio if its command is 1. -/
theorem buttonTest_accept {w : World} (h : ButtonTest w) (r : Radio) (rssi c d : Int) :
    ButtonTest (accept r w rssi c d) := by
  obtain ⟨hh, hi, -⟩ := accept_spec r w rssi c d
  have hafter : NoTestExchange (w.log (.accepted r c d)) (accept r w rssi c d) :=
    Hist.Extends.avoid (w.accept_extends r rssi c d) isSideEffect_noTestExchange
  have htested : tested (accept r w rssi c d).hist = tested w.hist := hafter.tested
  refine ⟨?_, ?_, fun r' => ?_⟩
  · rw [hh]
    exact h.bit
  · rw [hh, htested]
    exact h.wait
  · rw [hi, hafter.answered r', log_hist]
    by_cases hr : r' = r ∧ c = 1
    · obtain ⟨rfl, rfl⟩ := hr
      rw [Function.update_self]
      exact (Hist.since_mark rfl (by simp [Ev.isTestAnswerOn]) _).symm
    · have hev : Ev.isTestAnswerOn r' (.accepted r c d) = false :=
        decide_eq_false fun hc => hr ⟨hc.1.symm, hc.2⟩
      have hskip : testAnswered r' (.accepted r c d :: w.hist) = testAnswered r' w.hist :=
        Hist.since_skip rfl hev _
      rw [hskip, ← h.received r']
      by_cases hr' : r' = r
      · subst hr'
        rw [Function.update_self]
        exact if_neg fun hc => hr ⟨rfl, hc⟩
      · rw [Function.update_of_ne hr']

theorem buttonTest_step {w t : World} {a : Act} (h : ButtonTest w) (hq : NamesTested w a t)
    (ht : w.step a = some t) : ButtonTest t := by
  cases step_case ht with
  | heart rand =>
    obtain ⟨hpc, hb⟩ := heartCallback_button w rand
    exact h.same (heartCallback_noTestExchange w rand) (hb h.bit) hpc
      (heartCallback_testreceived w rand)
  | button => exact buttonTest_button h hq
  | press => exact h.same (.refl _) h.bit rfl fun _ => rfl
  | heartTimer => exact h.same (.refl _) h.bit rfl fun _ => rfl
  | connectTimer => exact h.same (.refl _) h.bit rfl fun _ => rfl
  | accept r rssi _ _ _ c d => exact buttonTest_accept h r rssi c d
  | warn =>
    have hh := w.warnCallback_heart
    exact h.same (Hist.Extends.avoid w.warnCallback_sideEffects isSideEffect_noTestExchange)
      (by rw [hh]; exact h.bit) (by rw [hh]) fun r => by rw [w.warnCallback_info]
  | quiet _ _ _ hs =>
    have hh := hs.heart
    exact h.same (Hist.Extends.avoid hs.sideEffects isSideEffect_noTestExchange)
      (by rw [hh]; exact h.bit) (by rw [hh]) fun r => by rw [hs.info]

/-! ## Finished tests -/

/-- The end of a test changes the `rf_info` of `info_temp` only. -/
theorem buttonFinish_info_of_ne (w : World) {r r' : Radio} (k : Nat) (hr : r' ≠ r) :
    (w.buttonFinish r k).info r' = w.info r' := by
  have hattempt : ∀ k, (buttonAttempt k w r).info r' = w.info r' := by
    intro k
    unfold buttonAttempt
    split
    · simp only [buttonFlip_info, revive, log_info, onInfo_info, buttonRecord, fileOutput_info]
      exact Function.update_of_ne hr _ _
    · exact Function.update_of_ne hr _ _
  unfold buttonFinish
  split
  · exact hattempt 0
  · exact hattempt 1
  · exact hattempt 2
  · simp only [buttonFinal]
    split
    · simp [Function.update_of_ne hr]
    · simp [buttonDeclare, Function.update_of_ne hr]
  · rfl

/-- A test that fails before its fourth attempt writes nothing. -/
theorem buttonFinish_silent {w : World} {r : Radio} {k : Nat}
    (h : ¬ ((w.info r).testreceived = true ∨ k = 3)) : (w.buttonFinish r k).hist = w.hist := by
  obtain ⟨ht, hk⟩ := not_or.1 h
  have hattempt : ∀ k, (buttonAttempt k w r).hist = w.hist := by
    intro k
    rw [buttonAttempt, if_neg ht]
    rfl
  unfold buttonFinish
  split
  · exact hattempt 0
  · exact hattempt 1
  · exact hattempt 2
  · exact absurd rfl hk
  · rfl

/-- The latest test request is for `r`: an answer of `r` after it is one after the latest test
request for `r`. -/
theorem testAnswered_of_tested {r : Radio} {h : List Ev} (ha : tested h = some r) :
    Hist.since (Ev.isTestAnswerOn r) Ev.isButtonRequest h = testAnswered r h := by
  refine Hist.since_newest (fun e => ?_) (fun e => ?_) ha
  · cases e <;> rfl
  · cases e with
    | buttonRequest r' => simp [Ev.isButtonRequestOf, Ev.buttonRequestOf]
    | _ => simp [Ev.isButtonRequestOf, Ev.buttonRequestOf]

theorem judgesTested_of_step {w t : World} {a : Act} (h : ButtonTest w) (hq : NamesTested w a t)
    (ht : w.step a = some t) : JudgesTested w a t := by
  rintro rfl
  obtain rfl : w.buttontestCallback = t := Option.some.inj ht
  have hq := hq rfl
  cases hpc : w.heart.buttonPc with
  | start => trivial
  | take r => trivial
  | wait r k =>
    rw [hpc] at hq
    have hasked := h.wait r k hpc
    have hturn : w.buttontestCallback = (w.buttonFinish r k).buttonLoop := by
      rw [buttontestCallback, hpc]
    rw [hturn]
    refine ⟨hasked, fun r' hr => buttonFinish_info_of_ne w k hr, ?_, fun ht => ?_⟩
    · by_cases hw : (w.info r).testreceived = true ∨ k = 3
      · exact mem_made ((buttonFinish_extends w r k).mono (isVerdict_isFor (hq hw)))
      · intro e he
        have hsilent : made w (w.buttonFinish r k).buttonLoop = [] :=
          @made_eq _ _ [] (buttonFinish_silent hw)
        rw [hsilent] at he
        cases he
    · rw [testAnswered_of_tested hasked, ← h.received r]
      exact ht

/-- **A button test judges the radio it tested**, along every schedule in which `rf_now` names the
radio of `info_temp` when the test starts and when it writes its record. -/
theorem buttonTest_of_tested {as : List Act}
    (hq : Steps World.step NamesTested World.init as) :
    Steps World.step JudgesTested World.init as := by
  have hstep : ∀ w a t, ButtonTest w → World.step w a = some t → NamesTested w a t →
      ButtonTest t := fun _ _ _ h ht hs => buttonTest_step h hs ht
  have hinv : Along World.step ButtonTest World.init as :=
    along_of_inv hstep buttonTest_init hq
  exact (hinv.steps.and hq).mono fun _ _ _ ht hs => judgesTested_of_step hs.1.1 hs.2 ht

/-- A test of 4068 that is answered. -/
theorem buttonTest_of_tested_answered : Steps World.step JudgesTested World.init
    (connectRun ++ [.button, .press, .button,
      .rx .rf4068 (-70) ⟨0, 0, 0, 0⟩ (peerFrame 1 1) 29, .button]) :=
  buttonTest_of_tested (by decide +kernel)

/-- A test of 4068 during a heartbeat: the answer serves both, the check flips `rf_now`, and the
record of the test is one for 433. -/
theorem buttonTest_overlap : ¬ Steps World.step JudgesTested World.init
    (connectRun ++ [.button] ++ timedTurn ++ [.press, .button,
      .rx .rf4068 (-70) ⟨0, 0, 0, 0⟩ (peerFrame 1 1) 29] ++ timedTurn ++ [.button]) := by
  decide +kernel

end Spsi
