import SpsiMaster.App.Proof.WakeUp

/-!
# Whose answer a check looks at

`heart_callback` sends a request in one turn and judges the answer in a later one; in between both
threads may run, and both write `rf_now`. What keeps the two turns together is `rf_lock`: the
heartbeat thread holds it from the request to the check, so the button thread cannot flip
`rf_now`, and neither thread chooses another `info_temp`. What can come in between is the heartbeat
thread's own request for a token left in `connect_sem`, which is made on 433 without the lock.

`verdict_of_asked`: at every check `info_temp` and `rf_now` name the radio of the latest
`heart_request`, and `received` tells whether that radio has answered since, as long as no
left-over connection request overtakes a heartbeat (`NotOvertaken`).
-/

namespace Spsi

open Rtos CInt Run World

/-! ## Requests and answers in the history -/

def Ev.isHeartRequest : Ev → Bool
  | .heartRequest _ => true
  | _ => false

def Ev.isJudged : Ev → Bool
  | .judged _ => true
  | _ => false

def Ev.isHeartRequestOf (r : Radio) : Ev → Bool
  | .heartRequest r' => r' = r
  | _ => false

def Ev.isAcceptedOn (r : Radio) : Ev → Bool
  | .accepted r' _ _ => r' = r
  | _ => false

/-- The events the definitions below look at. -/
def Ev.isExchange : Ev → Bool
  | .heartRequest _ | .judged _ | .accepted _ _ _ => true
  | _ => false

/-- The radio of a `heart_request`. -/
def Ev.heartRequestOf : Ev → Option Radio
  | .heartRequest r => some r
  | _ => none

/-- The radio of the latest `heart_request`. -/
def asked (h : List Ev) : Option Radio := h.findSome? Ev.heartRequestOf

/-- A frame of `r` has been accepted after the latest `heart_request` for `r`. -/
def answered (r : Radio) (h : List Ev) : Bool :=
  Hist.since (Ev.isAcceptedOn r) (Ev.isHeartRequestOf r) h

/-- The latest `heart_request` has not been judged yet, after the connection. -/
def InFlight (w : World) : Prop :=
  Connected w ∧ Hist.since Ev.isHeartRequest Ev.isJudged w.hist = true

/-- A heartbeat is to be checked: in mode `check`, with a wake-up for it. -/
def CheckDue (w : World) : Prop := w.heart.heartMode = .check ∧ 0 < w.heart.wakeUps

/-- The test that ends here tries to flip `rf_now`: it is an answered one, or in case 3. -/
def ButtonPc.Flips (info : Radio → RfInfo) : ButtonPc → Prop
  | .wait r k => (info r).testreceived = true ∨ k = 3
  | _ => False

/-- The button thread ends a test on which it tries to flip `rf_now`. -/
def TestFlips (w : World) : Prop := w.heart.buttonPc.Flips w.info

/-- No connection request for a token left in `connect_sem` overtakes a heartbeat: none is over
without an answer while a heartbeat to 4068 is to be checked, and no test flips `rf_now`, with
`rf_lock` free, while one waits for its answer or a check is due. -/
def NotOvertaken (w : World) (a : Act) (_ : World) : Prop :=
  match a with
  | .heart _ => w.heart.heartPc = .connectWait → CheckDue w → (w.info .rf433).received = false →
      w.heart.heartInfo = .rf433
  | .button => Connected w ∧ w.heart.heartPc = .connectWait ∨ CheckDue w →
      w.heart.rfLock.owner = none → ¬ TestFlips w
  | _ => True

instance : DecidablePred InFlight := fun _ => inferInstanceAs (Decidable (_ ∧ _))

instance : DecidablePred CheckDue := fun _ => inferInstanceAs (Decidable (_ ∧ _))

instance (info : Radio → RfInfo) : DecidablePred (ButtonPc.Flips info)
  | .wait _ _ => inferInstanceAs (Decidable (_ ∨ _))
  | .start | .take _ => inferInstanceAs (Decidable False)

instance : DecidablePred TestFlips := fun w =>
  inferInstanceAs (Decidable (w.heart.buttonPc.Flips _))

instance (w : World) (a : Act) (t : World) : Decidable (NotOvertaken w a t) :=
  match a with
  | .heart _ => inferInstanceAs (Decidable (_ → _ → _ → _))
  | .button => inferInstanceAs (Decidable (_ → _ → _))
  | .press | .heartTimer | .connectTimer | .rx .. | .warn | .psi | .psiPin | .psiTimer | .seg
  | .dequeue _ | .upload => .isTrue trivial

/-- `t` continues `w` without a request, a judgement or a frame. -/
def NoExchange (w t : World) : Prop := Hist.Extends (fun e => !e.isExchange) w.hist t.hist

section
variable {w t : World} (h : NoExchange w t)
include h

theorem NoExchange.asked : asked t.hist = asked w.hist :=
  Hist.Extends.findSome? h fun e he => by cases e <;> first | rfl | cases he

theorem NoExchange.answered (r : Radio) : answered r t.hist = answered r w.hist :=
  Hist.Extends.since h (fun e he => by cases e <;> first | rfl | cases he)
    (fun e he => by cases e <;> first | rfl | cases he)

theorem NoExchange.flight : Hist.since Ev.isHeartRequest Ev.isJudged t.hist =
    Hist.since Ev.isHeartRequest Ev.isJudged w.hist :=
  Hist.Extends.since h (fun e he => by cases e <;> first | rfl | cases he)
    (fun e he => by cases e <;> first | rfl | cases he)

end

theorem isSideEffect_noExchange (e : Ev) (h : e.isSideEffect = true) : e.isExchange = false := by
  cases e <;> first | rfl | cases h

theorem isVerdict_noExchange {r : Radio} {n : Nat} (e : Ev) (h : e.isVerdict r n = true) :
    e.isExchange = false := by
  cases e <;> first | rfl | cases h

/-! ## The invariant -/

/-- `rf_lock` is free, or the heartbeat thread has it; it has it from a heartbeat to its check. A
heartbeat that is to be checked is the latest request, and `rf_now` and `info_temp` name its radio;
while a connection request waits for its answer, this is so for a heartbeat to 433. -/
structure Verdict (w : World) : Prop where
  bit : w.heart.rfNow ≤ 1
  lock : w.heart.rfLock = ⟨none, 0⟩ ∨ w.heart.rfLock.owner = some .heart
  held : Hist.since Ev.isHeartRequest Ev.isJudged w.hist = true →
    w.heart.heartPc ≠ .connectWait → w.heart.rfLock.owner = some .heart
  info : CheckDue w → (w.heart.heartPc = .connectWait → w.heart.heartInfo = .rf433) →
    w.heart.rfNow = w.heart.heartInfo.number ∧ asked w.hist = some w.heart.heartInfo
  received : ∀ r, (w.info r).received = answered r w.hist

theorem verdict_init : Verdict World.init where
  bit := Nat.zero_le 1
  lock := .inl rfl
  held := fun h => absurd h (by decide)
  info := fun h => absurd h.1 (by decide)
  received := fun _ => rfl

/-- A step without a request, a judgement or a frame that leaves the lock and the mode. -/
theorem Verdict.same {w t : World} (h : Verdict w) (hx : NoExchange w t)
    (hm : t.heart.heartMode = w.heart.heartMode) (hi : t.heart.heartInfo = w.heart.heartInfo)
    (hpc : t.heart.heartPc = .connectWait ↔ w.heart.heartPc = .connectWait)
    (hl : t.heart.rfLock = w.heart.rfLock) (hw : 0 < t.heart.wakeUps → 0 < w.heart.wakeUps)
    (hb : t.heart.rfNow ≤ 1) (hn : CheckDue w → t.heart.rfNow = w.heart.rfNow)
    (hr : ∀ r, (t.info r).received = (w.info r).received) : Verdict t := by
  refine ⟨hb, ?_, fun hf hwait => ?_, fun hdue hinfo => ?_, fun r => ?_⟩
  · rw [hl]
    exact h.lock
  · rw [hl]
    exact h.held (hx.flight ▸ hf) fun hp => hwait (hpc.2 hp)
  · have hdue' : CheckDue w := ⟨hm ▸ hdue.1, hw hdue.2⟩
    obtain ⟨h1, h2⟩ := h.info hdue' fun hp => hi ▸ hinfo (hpc.2 hp)
    rw [hn hdue', hi, hx.asked]
    exact ⟨h1, h2⟩
  · rw [hr r, hx.answered r]
    exact h.received r

/-! ## The heartbeat thread -/

/-- A request clears `received` of the radio it asks, and no answer is counted yet. -/
theorem heartRequest_received {w : World} (h : ∀ r, (w.info r).received = answered r w.hist)
    {n : Nat} (hn : n ≤ 1) :
    ∀ r, ((w.heartRequest n).info r).received = answered r (w.heartRequest n).hist := by
  have hnum : n = (Radio.select n).number := (Radio.number_select hn).symm
  intro r
  rw [heartRequest_info, heartRequest_hist, if_pos hn]
  by_cases hr : Radio.select n = r
  · rw [if_pos (by rw [← hr, ← hnum])]
    exact (Hist.since_reset (by simp [Ev.isHeartRequestOf, hr]) _).symm
  · have hne : r.number ≠ n := fun he => hr (by rw [← he, Radio.select_number])
    rw [if_neg hne, h r]
    exact (Hist.since_skip (by simp [Ev.isHeartRequestOf, hr]) rfl _).symm

/-- `rt_mutex_trytake(rf_lock)` by the heartbeat thread, of a lock that is free or its own. -/
theorem lock_trytake {m : Mutex Thread} (h : m = ⟨none, 0⟩ ∨ m.owner = some .heart) :
    (m.trytake .heart).2.owner = some .heart := by
  rcases h with rfl | ho
  · rfl
  · rw [Mutex.trytake, if_pos ho]
    split <;> exact ho

theorem lock_release {m : Mutex Thread} (h : m = ⟨none, 0⟩ ∨ m.owner = some .heart) :
    m.release .heart = ⟨none, 0⟩ ∨ (m.release .heart).owner = some .heart := by
  rcases h with rfl | ho
  · exact .inl rfl
  · rw [Mutex.release, if_neg (not_not.2 ho)]
    split
    · exact .inl rfl
    · exact .inr ho

/-- A turn in mode `send`: afterwards the heartbeat thread has the lock and a check is due. -/
theorem verdict_send {w t : World} (h : Verdict w) {v : Nat}
    (ht : t = ((w.onHeart fun h => { h with heartSem := v }).heartSend).heartGoto .connectTake) :
    Verdict t := by
  have hb := h.bit
  have hhist : t.hist = .heartRequest (Radio.select w.heart.rfNow) :: w.hist := by
    rw [ht]
    simp [heartSend, hb]
  have hheart : t.heart.rfNow = w.heart.rfNow ∧ t.heart.heartInfo = Radio.select w.heart.rfNow ∧
      t.heart.rfLock = (w.heart.rfLock.trytake .heart).2 := by
    rw [ht]
    simp [heartSend]
  obtain ⟨hn, hi, hl⟩ := hheart
  have hlock : t.heart.rfLock.owner = some .heart := hl ▸ lock_trytake h.lock
  refine ⟨hn ▸ hb, .inr hlock, fun _ _ => hlock, fun _ _ => ⟨?_, ?_⟩, fun r => ?_⟩
  · rw [hn, hi, Radio.number_select hb]
  · rw [hhist, hi]
    rfl
  · have hr := heartRequest_received h.received hb r
    rw [heartRequest_info, heartRequest_hist, if_pos hb] at hr
    rw [hhist, ← hr, ht]
    simp [heartSend]

/-- A turn in mode `check`: the request is judged and the lock given back. A check without a case
leaves `info_temp` and `rf_now`. -/
theorem verdict_check {w t : World} (h : Verdict w) (hdue : CheckDue w)
    (hpc : w.heart.heartPc = .heartTake) {v : Nat}
    (ht : t = ((w.onHeart fun h => { h with heartSem := v }).heartCheck).heartGoto .connectTake) :
    Verdict t := by
  have hb := h.bit
  have hhist : Hist.Extends (Ev.isVerdict w.heart.heartInfo w.heart.rfNow)
      (.judged w.heart.heartInfo :: w.hist) t.hist := by
    rw [ht]
    exact heartCheck_hist (w.onHeart fun h => { h with heartSem := v })
  have hx : NoExchange (w.log (.judged w.heart.heartInfo)) t :=
    Hist.Extends.avoid hhist isVerdict_noExchange
  have hflags : ∀ r, (t.info r).received = (w.info r).received := by
    intro r
    rw [ht, heartCheck_eq]
    exact (checkCase_flags ((w.onHeart fun h => { h with heartSem := v }).log
      (.judged w.heart.heartInfo)) r).1
  have hheart : t.heart.rfNow ≤ 1 ∧ t.heart.rfLock = w.heart.rfLock.release .heart ∧
      (t.heart.heartMode = .check → t.heart.rfNow = w.heart.rfNow ∧
        t.heart.heartInfo = w.heart.heartInfo) := by
    rw [ht, heartCheck_eq]
    rcases checkCase_judged ((w.onHeart fun h => { h with heartSem := v }).log
      (.judged w.heart.heartInfo)) with ⟨n, m, tm, s, he, hn, hm⟩ | ⟨he, hr⟩
    · simp only [onHeart_heart, log_heart, heartGoto] at he hn ⊢
      rw [he]
      refine ⟨?_, rfl, fun hmc => absurd hmc hm⟩
      rcases hn with rfl | rfl
      · exact hb
      · exact cNot_le _
    · simp only [onHeart_heart, log_heart, heartGoto] at he hr ⊢
      rw [he]
      exact ⟨hb, rfl, fun _ => ⟨rfl, rfl⟩⟩
  obtain ⟨hn, hl, hmode⟩ := hheart
  have hjudged : Hist.since Ev.isHeartRequest Ev.isJudged t.hist = false :=
    hx.flight.trans (Hist.since_reset rfl _)
  refine ⟨hn, hl ▸ lock_release h.lock, fun hf => ?_, fun hdue' _ => ?_, fun r => ?_⟩
  · rw [hjudged] at hf
    cases hf
  · obtain ⟨h1, h2⟩ := h.info hdue fun hp => absurd (hpc.symm.trans hp) (by decide)
    obtain ⟨hn', hi'⟩ := hmode hdue'.1
    rw [hn', hi', hx.asked]
    exact ⟨h1, h2⟩
  · rw [hflags r, hx.answered r, h.received r]
    exact (Hist.since_skip rfl rfl _).symm

/-- A turn in mode `randtime_7` or `randtime_8` ends in mode `send`. -/
theorem verdict_randtime {w t : World} (h : Verdict w) (hpc : w.heart.heartPc = .heartTake)
    {v max rand : Nat} (ht : t = ((w.onHeart fun h => { h with heartSem := v }).heartRandtime max
      rand).heartGoto .connectTake) : Verdict t := by
  subst ht
  refine ⟨h.bit, h.lock, fun hf _ => h.held hf ?_, fun hdue => ?_, h.received⟩
  · rw [hpc]
    decide
  · exact absurd hdue.1 (by simp [heartRandtime, setMode])

/-- The request of the connection. -/
theorem verdict_connectTake {w t : World} (h : Verdict w) {v : Nat}
    (ht : t = ((w.onHeart fun h => { h with connectSem := v }).heartRequest 1).heartGoto
      .connectWait) : Verdict t := by
  have hheart : t.heart.rfNow = 1 ∧ t.heart.rfLock = w.heart.rfLock ∧
      t.heart.heartPc = .connectWait ∧ t.hist = .heartRequest .rf433 :: w.hist := by
    rw [ht]
    simp [Radio.select]
  obtain ⟨hn, hl, hpc, hhist⟩ := hheart
  refine ⟨Nat.le_of_eq hn, hl ▸ h.lock, fun _ hwait => absurd hpc hwait, fun _ hinfo => ?_, ?_⟩
  · rw [hn, hinfo hpc, hhist]
    exact ⟨rfl, rfl⟩
  · rw [ht]
    exact heartRequest_received h.received (Nat.le_refl 1)

/-- The check of a connection request. An answer ends mode `check`; without one the heartbeat that
is to be checked is one to 433. -/
theorem verdict_connectCheck {w t : World} {rand : Nat} (h : Verdict w)
    (hq : NotOvertaken w (.heart rand) t) (hpc : w.heart.heartPc = .connectWait) :
    Verdict (w.connectCheck.heartGoto .heartTake) := by
  have hx : NoExchange (w.log (.judged .rf433)) w.connectCheck :=
    Hist.Extends.avoid w.connectCheck_hist isVerdict_noExchange
  have hjudged : Hist.since Ev.isHeartRequest Ev.isJudged w.connectCheck.hist = false :=
    hx.flight.trans (Hist.since_reset rfl _)
  have hreceived : ∀ r, (w.connectCheck.info r).received = answered r w.connectCheck.hist := by
    intro r
    have hr : answered r w.connectCheck.hist = answered r w.hist :=
      (hx.answered r).trans (Hist.since_skip rfl rfl _)
    exact ((w.connectCheck_flags r).1.trans (h.received r)).trans hr.symm
  have hheart : w.connectCheck.heart.rfNow ≤ 1 ∧ w.connectCheck.heart.rfLock = w.heart.rfLock ∧
      (w.connectCheck.heart.heartMode = .check →
        (w.info .rf433).received = false ∧ w.connectCheck.heart = w.heart) := by
    simp only [connectCheck, log_info]
    split
    · refine ⟨cNot_le _, rfl, fun hm => absurd hm ?_⟩
      simp [setMode]
    · next hr => exact ⟨h.bit, rfl, fun _ => ⟨by simpa using hr, rfl⟩⟩
  obtain ⟨hb, hl, hm⟩ := hheart
  refine ⟨hb, hl ▸ h.lock, fun hf => ?_, fun hdue _ => ?_, hreceived⟩
  · exact absurd (hf.symm.trans hjudged) (by decide)
  · obtain ⟨hr, he⟩ := hm hdue.1
    have hdue' : CheckDue w := by
      obtain ⟨h1, h2⟩ := hdue
      simp only [heartGoto, onHeart_heart, Heart.wakeUps, he] at h1 h2
      exact ⟨h1, h2⟩
    obtain ⟨h1, h2⟩ := h.info hdue' fun _ => hq hpc hdue' hr
    refine ⟨?_, hx.asked.trans ?_⟩
    · simpa [heartGoto, he] using h1
    · rw [heartGoto, onHeart_heart, he]
      exact h2

theorem verdict_heart {w t : World} {rand : Nat} (h : Verdict w)
    (hq : NotOvertaken w (.heart rand) t) : Verdict (w.heartCallback rand) := by
  have hgoto : ∀ {pc}, pc ≠ .connectWait → w.heart.heartPc ≠ .connectWait →
      Verdict (w.heartGoto pc) := fun hpc hpc' =>
    h.same (.refl _) rfl rfl ⟨fun he => absurd he hpc, fun he => absurd he hpc'⟩ rfl id h.bit
      (fun _ => rfl) fun _ => rfl
  unfold heartCallback
  split
  · next hpc =>
    split
    · exact verdict_connectTake h rfl
    · exact hgoto (by decide) (by rw [hpc]; decide)
  · next hpc => exact verdict_connectCheck h hq hpc
  · next hpc =>
    split
    · next v hv =>
      have hsem := semTake_eq_some.1 hv
      unfold heartSwitch
      split
      · exact verdict_send h rfl
      · next hm =>
        refine verdict_check h ⟨hm, ?_⟩ hpc rfl
        rw [Heart.wakeUps, hsem]
        omega
      · exact verdict_randtime h hpc rfl
      · exact verdict_randtime h hpc rfl
    · exact hgoto (by decide) (by rw [hpc]; decide)

/-! ## The button thread and the rest -/

theorem buttontestCallback_noExchange (w : World) : NoExchange w w.buttontestCallback := by
  unfold buttontestCallback
  split
  · exact .refl _
  · split
    · have htake : ∀ v : Nat, NoExchange w ((w.onHeart fun h =>
          { h with buttonSem := v }).buttonRequest w.heart.rfNow).receiverClose := by
        intro v
        unfold NoExchange
        rw [World.receiverClose, log_hist, buttonRequest_hist]
        split
        · exact .cons rfl (.cons rfl (.refl _))
        · exact .cons rfl (.refl _)
      simp only
      split
      · exact htake _
      · exact htake _
    · exact .refl _
  · exact Hist.Extends.avoid (buttonFinish_extends _ _ _) isVerdict_noExchange

theorem buttontestCallback_received (w : World) (r : Radio) :
    (w.buttontestCallback.info r).received = (w.info r).received := by
  unfold buttontestCallback
  split
  · rfl
  · split
    · simp only
      split
      · simp
      · simp
    · rfl
  · exact (buttonFinish_flags w _ _ r).1

/-- A test that is not over, or is over without an answer before case 3, flips nothing. -/
theorem buttontestCallback_noFlip {w : World} (h : ¬ TestFlips w) :
    w.buttontestCallback.heart.rfNow = w.heart.rfNow := by
  unfold buttontestCallback
  split
  · rfl
  · split
    · simp only
      split
      · simp
      · simp
    · rfl
  · next r k hpc =>
    rw [TestFlips, hpc, ButtonPc.Flips] at h
    obtain ⟨htest, hk⟩ := not_or.1 h
    have hattempt : ∀ n, (buttonAttempt n w r).heart = w.heart := by
      intro n
      rw [buttonAttempt, if_neg htest]
      rfl
    have hfin : (w.buttonFinish r k).heart = w.heart := by
      unfold buttonFinish
      split
      · exact hattempt 0
      · exact hattempt 1
      · exact hattempt 2
      · exact absurd rfl hk
      · rfl
    simp [hfin]

/-- A step of the button thread flips nothing while the heartbeat thread has the lock, and leaves a
free lock free. -/
theorem buttontestCallback_lock {w : World} (h : Verdict w) :
    w.buttontestCallback.heart.rfLock = w.heart.rfLock ∧ w.buttontestCallback.heart.rfNow ≤ 1 ∧
      (w.heart.rfLock.owner = some .heart →
        w.buttontestCallback.heart.rfNow = w.heart.rfNow) := by
  obtain ⟨n, m, v, pc, he, hf⟩ := w.buttontestCallback_heart
  rw [he]
  rcases hf with ⟨hn, hm⟩ | ⟨ho, hn, hm⟩
  · exact ⟨hm, hn ▸ h.bit, fun _ => hn⟩
  · have hfree : w.heart.rfLock = ⟨none, 0⟩ := h.lock.resolve_right ho
    refine ⟨?_, hn ▸ cNot_le _, fun hown => absurd hown ho⟩
    rw [hm, hfree]
    rfl

/-- A step of the button thread leaves `rf_now` while a request waits for its check. -/
theorem verdict_noFlip {w t : World} (h : Verdict w) (hq : NotOvertaken w .button t)
    (hf : InFlight w ∨ CheckDue w) : w.buttontestCallback.heart.rfNow = w.heart.rfNow := by
  rcases h.lock with hfree | hheld
  · refine buttontestCallback_noFlip (hq ?_ (by rw [hfree]))
    refine hf.imp_left fun hf => ⟨hf.1, Classical.byContradiction fun hpc => ?_⟩
    have ho := h.held hf.2 hpc
    rw [hfree] at ho
    cases ho
  · exact (buttontestCallback_lock h).2.2 hheld

theorem verdict_button {w t : World} (h : Verdict w) (hq : NotOvertaken w .button t) :
    Verdict w.buttontestCallback := by
  obtain ⟨hl, hb, -⟩ := buttontestCallback_lock h
  obtain ⟨n, m, v, pc, he, -⟩ := w.buttontestCallback_heart
  exact h.same (buttontestCallback_noExchange w) (by rw [he]) (by rw [he]) (by rw [he]) hl
    (by rw [he]; exact id) hb (fun hdue => verdict_noFlip h hq (.inr hdue))
    (buttontestCallback_received w)

/-- An accepted frame answers the request of its radio. -/
theorem verdict_accept {w : World} (h : Verdict w) (r : Radio) (rssi c d : Int) :
    Verdict (accept r w rssi c d) := by
  obtain ⟨hh, hi, -⟩ := accept_spec r w rssi c d
  have hafter : NoExchange (w.log (.accepted r c d)) (accept r w rssi c d) :=
    Hist.Extends.avoid (w.accept_extends r rssi c d) isSideEffect_noExchange
  have hflight : Hist.since Ev.isHeartRequest Ev.isJudged (accept r w rssi c d).hist =
      Hist.since Ev.isHeartRequest Ev.isJudged w.hist :=
    hafter.flight.trans (Hist.since_skip rfl rfl _)
  have hask : asked (accept r w rssi c d).hist = asked w.hist := hafter.asked
  refine ⟨?_, ?_, ?_, ?_, fun r' => ?_⟩
  · rw [hh]
    exact h.bit
  · rw [hh]
    exact h.lock
  · rw [hh, hflight]
    exact h.held
  · rw [CheckDue, hh, hask]
    exact h.info
  · rw [hi, hafter.answered r', log_hist]
    by_cases hr : r' = r
    · subst hr
      rw [Function.update_self]
      exact (Hist.since_mark rfl (by simp [Ev.isAcceptedOn]) _).symm
    · rw [Function.update_of_ne hr, h.received r']
      exact (Hist.since_skip rfl (by simp [Ev.isAcceptedOn, Ne.symm hr]) _).symm

theorem verdict_step {w t : World} {a : Act} (h : Verdict w) (ht : w.step a = some t)
    (hq : NotOvertaken w a t) : Verdict t := by
  cases step_case ht with
  | heart rand => exact verdict_heart h hq
  | button => exact verdict_button h hq
  | press => exact h.same (.refl _) rfl rfl .rfl rfl id h.bit (fun _ => rfl) fun _ => rfl
  | heartTimer ha =>
    refine h.same (.refl _) rfl rfl .rfl rfl (fun _ => ?_) h.bit (fun _ => rfl) fun _ => rfl
    rw [Heart.wakeUps, ha]
    exact Nat.succ_pos _
  | connectTimer =>
    exact h.same (.refl _) rfl rfl .rfl rfl id h.bit (fun _ => rfl) fun _ => rfl
  | accept r rssi _ _ _ c d => exact verdict_accept h r rssi c d
  | warn =>
    have hh := w.warnCallback_heart
    exact h.same (Hist.Extends.avoid w.warnCallback_sideEffects isSideEffect_noExchange)
      (by rw [hh]) (by rw [hh]) (by rw [hh]) (by rw [hh]) (by rw [hh]; exact id)
      (by rw [hh]; exact h.bit) (fun _ => by rw [hh]) fun r => by rw [w.warnCallback_info]
  | quiet _ _ _ hs =>
    have hh := hs.heart
    exact h.same (Hist.Extends.avoid hs.sideEffects isSideEffect_noExchange)
      (by rw [hh]) (by rw [hh]) (by rw [hh]) (by rw [hh]) (by rw [hh]; exact id)
      (by rw [hh]; exact h.bit) (fun _ => by rw [hh]) fun r => by rw [hs.info]

/-! ## Checks -/

/-- A step of the heartbeat thread that executes `case check`. -/
def ChecksAt (w : World) (a : Act) : Prop :=
  (∃ rand, a = .heart rand) ∧ w.heart.heartPc = .heartTake ∧ 0 < w.heart.heartSem ∧
    w.heart.heartMode = .check

/-- A check judges the radio of the latest request: `info_temp` and `rf_now` name it, `received`
says whether it has answered since, and the log record and the charge are for it. The button
thread does not flip `rf_now` while a request is in flight or a check is due. -/
structure VerdictOfAsked (w : World) (a : Act) (t : World) : Prop where
  check : ChecksAt w a → ∃ r, asked w.hist = some r ∧ w.heart.heartInfo = r ∧
    Radio.select w.heart.rfNow = r ∧
    ((w.info r).received = true ↔
      Hist.since (Ev.isAcceptedOn r) Ev.isHeartRequest w.hist = true) ∧
    ∀ e ∈ made w t, e.isFor r = true
  flip : a = .button → InFlight w ∨ CheckDue w → t.heart.rfNow = w.heart.rfNow

/-- The latest request is for `r`: an answer of `r` after it is one after the latest request
for `r`. -/
theorem answered_of_asked {r : Radio} {h : List Ev} (ha : asked h = some r) :
    Hist.since (Ev.isAcceptedOn r) Ev.isHeartRequest h = answered r h := by
  refine Hist.since_newest (fun e => ?_) (fun e => ?_) ha
  · cases e <;> rfl
  · cases e with
    | heartRequest r' => simp [Ev.isHeartRequestOf, Ev.heartRequestOf]
    | _ => simp [Ev.isHeartRequestOf, Ev.heartRequestOf]

theorem verdict_of_step {w t : World} {a : Act} (h : Verdict w) (ht : w.step a = some t)
    (hq : NotOvertaken w a t) : VerdictOfAsked w a t where
  check := by
    rintro ⟨⟨rand, rfl⟩, hpc, hsem, hm⟩
    obtain rfl : w.heartCallback rand = t := Option.some.inj ht
    have hdue : CheckDue w := ⟨hm, Nat.lt_of_lt_of_le hsem (Nat.le_add_right _ _)⟩
    obtain ⟨hn, ha⟩ := h.info hdue fun hp => absurd (hpc.symm.trans hp) (by decide)
    obtain ⟨v, hv⟩ : ∃ v, w.heart.heartSem = v + 1 := ⟨w.heart.heartSem - 1, by omega⟩
    have hturn : w.heartCallback rand =
        ((w.onHeart fun h => { h with heartSem := v }).heartCheck).heartGoto .connectTake := by
      simp [heartCallback, hpc, semTake_eq_some.2 hv, heartSwitch, hm]
    have hx : Hist.Extends (Ev.isFor w.heart.heartInfo) w.hist (w.heartCallback rand).hist := by
      rw [hturn]
      exact Hist.Extends.trans (.cons rfl (.refl _)) ((heartCheck_hist _).mono
        (isVerdict_isFor (by rw [onHeart_heart, hn, Radio.select_number])))
    refine ⟨_, ha, rfl, by rw [hn, Radio.select_number], ?_, mem_made hx⟩
    rw [answered_of_asked ha, h.received]
  flip := by
    rintro rfl hf
    obtain rfl : w.buttontestCallback = t := Option.some.inj ht
    exact verdict_noFlip h hq hf

/-- **A heartbeat verdict belongs to the radio that was asked**, along every schedule in which no
left-over connection request overtakes a heartbeat. -/
theorem verdict_of_asked {as : List Act} (h : Steps World.step NotOvertaken World.init as) :
    Steps World.step VerdictOfAsked World.init as := by
  have hinv : Along World.step Verdict World.init as :=
    along_of_inv (fun _ _ _ h ht hq => verdict_step h ht hq) verdict_init h
  exact (hinv.steps.and h).mono fun _ _ _ ht hs => verdict_of_step hs.1.1 ht hs.2

/-- A left-over connection request between a heartbeat to 433 and its check, after a button test
has flipped `rf_now`. -/
def sameRadioRun : List Act :=
  [.connectTimer] ++ connectRun ++
    [.button, .press, .button, .rx .rf4068 (-70) ⟨0, 0, 0, 0⟩ (peerFrame 1 1) 29, .button] ++
    timedTurn ++ [.heart 0, .heartTimer, .heart 0]

/-- Beside it the run in which a button test overlaps the heartbeat, up to its stall. -/
theorem verdict_of_asked_overlap : Steps World.step VerdictOfAsked World.init overlapRun ∧
    Steps World.step VerdictOfAsked World.init sameRadioRun :=
  ⟨verdict_of_asked (by decide +kernel), verdict_of_asked (by decide +kernel)⟩

/-- Two tokens of `connect_timer` before the first connection: the second request is made, and over
without an answer, between the heartbeat to 4068 and its check. -/
def overtakenRun : List Act :=
  [.connectTimer, .connectTimer, .heart 0, .rx .rf433 (-70) ⟨0, 0, 0, 0⟩ (peerFrame 0 1) 29,
    .heart 0] ++ timedTurn ++ [.heart 0, .heartTimer]

/-- The check is one of 4068 by `info_temp` and one of 433 by `rf_now`. -/
theorem verdict_overtaken :
    ¬ Steps World.step VerdictOfAsked World.init (overtakenRun ++ [.heart 0]) := by
  have hrun : (exec World.step World.init overtakenRun).map (fun w =>
      (w.heart.heartPc, w.heart.heartSem, w.heart.heartMode, asked w.hist, w.heart.heartInfo)) =
        some (.heartTake, 1, .check, some .rf433, .rf4068) := by decide +kernel
  obtain ⟨w, hw, hseen⟩ := Option.map_eq_some_iff.1 hrun
  simp only [Prod.mk.injEq] at hseen
  obtain ⟨hpc, hsem, hm, hask, hi⟩ := hseen
  intro h
  obtain ⟨r, hr, hri, -⟩ := (h.last hw rfl).check ⟨⟨0, rfl⟩, hpc, by omega, hm⟩
  have h433 : Radio.rf433 = r := Option.some.inj (hask.symm.trans hr)
  exact absurd (h433.trans (hri.symm.trans hi)) (by decide)

end Spsi
