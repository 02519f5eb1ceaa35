import SpsiMaster.App.Proof.Frame

/-!
# The alarm outputs and the history of the links

The counters of `seg.c` are saturated lengths of runs: of the weak frames since the last strong
frame or failure of a radio, and of its failures since the last accepted frame (`segAfter_inv`).
`seg_callback` sets its outputs to 0 before the loop; every turn of the loop brings them to what
the runs say (`segAfter_spec`). In a run of the program the history is that of its own accepted
frames, failures and turns (`run_segAfter`).
-/

namespace Spsi

open Hist

/-- An accepted frame, a failure that `alive_count_increase` is told, a turn of `seg_callback`. -/
inductive SegEvent where
  | frame (r : Radio) (rssi : Int)
  | failure (select : Nat)
  | turn
  deriving DecidableEq

namespace SegEvent

def radio : SegEvent → Option Radio
  | frame r _ => some r
  | failure select => some (Radio.select select)
  | turn => none

def weak : SegEvent → Bool
  | frame _ rssi => rssi ≤ -90
  | _ => false

def strong : SegEvent → Bool
  | frame _ rssi => -90 < rssi
  | _ => false

def failed : SegEvent → Bool
  | failure _ => true
  | _ => false

/-- The events of one radio. -/
def ofRadio (r : Radio) (h : List SegEvent) : List SegEvent := h.filter fun e => e.radio = some r

end SegEvent

open SegEvent

/-- The weak frames of a radio since its last strong frame or failure. -/
def weakRun (r : Radio) (h : List SegEvent) : Nat :=
  countSince weak (fun e => e.strong || e.failed) (ofRadio r h)

/-- The failures of a radio since its last accepted frame. -/
def failureRun (r : Radio) (h : List SegEvent) : Nat :=
  countSince SegEvent.failed (fun e => e.weak || e.strong) (ofRadio r h)

def Seg.act (s : Seg) : SegEvent → Seg
  | .frame r rssi => (s.rssiLevelSelect r rssi).2
  | .failure select => s.aliveCountIncrease select
  | .turn => s.callback

/-- The state after a history, newest event first. -/
def segAfter : List SegEvent → Seg
  | [] => {}
  | e :: h => (segAfter h).act e

/-! ## The runs -/

section
variable {r : Radio} {e : SegEvent} {h : List SegEvent}

theorem ofRadio_self (he : e.radio = some r) : ofRadio r (e :: h) = e :: ofRadio r h :=
  List.filter_cons_of_pos (decide_eq_true he)

theorem ofRadio_other (he : e.radio ≠ some r) : ofRadio r (e :: h) = ofRadio r h :=
  List.filter_cons_of_neg (by simpa using he)

/-- The events of the other radio do not change the runs of a radio. -/
theorem runs_other (he : e.radio ≠ some r) :
    weakRun r (e :: h) = weakRun r h ∧ failureRun r (e :: h) = failureRun r h := by
  rw [weakRun, failureRun, ofRadio_other he]
  exact ⟨rfl, rfl⟩

theorem runs_strong (he : e.radio = some r) (hs : e.strong = true) :
    weakRun r (e :: h) = 0 ∧ failureRun r (e :: h) = 0 := by
  rw [weakRun, failureRun, ofRadio_self he]
  exact ⟨countSince_reset (by rw [hs]; rfl) _, countSince_reset (by rw [hs, Bool.or_true]) _⟩

theorem runs_weak {rssi : Int} (hw : rssi ≤ -90) :
    weakRun r (.frame r rssi :: h) = weakRun r h + 1 ∧ failureRun r (.frame r rssi :: h) = 0 := by
  have hweak : weak (.frame r rssi) = true := decide_eq_true hw
  have hstrong : strong (.frame r rssi) = false := decide_eq_false (by omega)
  rw [weakRun, failureRun, ofRadio_self rfl]
  exact ⟨countSince_mark (by rw [hstrong]; rfl) hweak _, countSince_reset (by rw [hweak]; rfl) _⟩

theorem runs_failure {select : Nat} (hr : Radio.select select = r) :
    weakRun r (.failure select :: h) = 0 ∧
      failureRun r (.failure select :: h) = failureRun r h + 1 := by
  have hradio : (failure select).radio = some r := congrArg some hr
  rw [weakRun, failureRun, ofRadio_self hradio]
  exact ⟨countSince_reset rfl _, countSince_mark rfl rfl _⟩

end

/-! ## The counters -/

namespace Seg

/-- The counters are the saturated lengths of the runs. -/
def Counts (s : Seg) (h : List SegEvent) : Prop :=
  ∀ r, s.rssiCount r = min 5 (weakRun r h) ∧ s.aliveConut r = min 2 (failureRun r h)

/-- The levels are 0 or 1, and the outputs have them. -/
structure Written (s : Seg) : Prop where
  seg1Level_le : s.seg1Level ≤ 1
  seg2Level_le : s.seg2Level ≤ 1
  out1 : s.out1 = s.seg1Level
  out2 : s.out2 = s.seg2Level

section
variable (s : Seg) (r : Radio)

/-- A weak frame counts up, a strong one clears the weak ones; both clear the failures. -/
theorem rssiLevelSelect_eq (rssi : Int) : (s.rssiLevelSelect r rssi).2 = { s with
    rssiCount := Function.update s.rssiCount r
      (if rssi ≤ -90 then if s.rssiCount r < 5 then s.rssiCount r + 1 else s.rssiCount r else 0)
    aliveConut := Function.update s.aliveConut r 0 } := by
  unfold rssiLevelSelect
  by_cases hw : rssi ≤ -90
  · rw [if_neg (by omega), if_neg (by omega), if_neg (by omega), if_pos hw, rssiCountIncrease]
    split
    · rfl
    · rw [Function.update_eq_self]
      rfl
  · rw [if_neg hw]
    split
    · rfl
    · split
      · rfl
      · rw [if_pos ⟨by omega, by omega⟩]
        rfl

/-- A failure counts up and clears the weak frames of its radio. -/
theorem aliveCountIncrease_eq (select : Nat) :
    let r := Radio.select select
    s.aliveCountIncrease select = { s with
      rssiCount := Function.update s.rssiCount r 0
      aliveConut := Function.update s.aliveConut r
        (if s.aliveConut r < 2 then s.aliveConut r + 1 else s.aliveConut r) } := by
  have hfailure : ∀ r, s.rfAliveCountIncrease r = { s with
      rssiCount := Function.update s.rssiCount r 0
      aliveConut := Function.update s.aliveConut r
        (if s.aliveConut r < 2 then s.aliveConut r + 1 else s.aliveConut r) } := by
    intro r
    unfold rfAliveCountIncrease
    split
    · rfl
    · rw [Function.update_eq_self]
  unfold aliveCountIncrease Radio.select
  split
  · exact hfailure .rf433
  · exact hfailure .rf4068

end

/-! ## Steps -/

variable {s : Seg} {h : List SegEvent}

theorem Counts.frame (hc : Counts s h) (r : Radio) (rssi : Int) :
    Counts (s.rssiLevelSelect r rssi).2 (.frame r rssi :: h) := by
  intro r'
  rw [rssiLevelSelect_eq]
  by_cases hr : r' = r
  · subst hr
    obtain ⟨hrssi, -⟩ := hc r'
    simp only [Function.update_self]
    by_cases hw : rssi ≤ -90
    · obtain ⟨hweak, hfail⟩ := runs_weak (r := r') (h := h) hw
      rw [hweak, hfail, if_pos hw]
      refine ⟨?_, rfl⟩
      split <;> omega
    · obtain ⟨hweak, hfail⟩ := runs_strong (r := r') (h := h) (e := .frame r' rssi) rfl
        (decide_eq_true (by omega))
      rw [hweak, hfail, if_neg hw]
      exact ⟨rfl, rfl⟩
  · have hother : (SegEvent.frame r rssi).radio ≠ some r' := fun he => hr (Option.some.inj he).symm
    obtain ⟨hweak, hfail⟩ := runs_other (h := h) hother
    rw [hweak, hfail]
    simp only [Function.update_of_ne hr]
    exact hc r'

theorem Counts.failure (hc : Counts s h) (select : Nat) :
    Counts (s.aliveCountIncrease select) (.failure select :: h) := by
  intro r'
  rw [aliveCountIncrease_eq]
  by_cases hr : Radio.select select = r'
  · obtain ⟨hweak, hfail⟩ := runs_failure (h := h) hr
    obtain ⟨-, halive⟩ := hc r'
    rw [hweak, hfail, hr]
    simp only [Function.update_self]
    refine ⟨rfl, ?_⟩
    split <;> omega
  · have hother : (SegEvent.failure select).radio ≠ some r' := fun he => hr (Option.some.inj he)
    obtain ⟨hweak, hfail⟩ := runs_other (h := h) hother
    rw [hweak, hfail]
    simp only [Function.update_of_ne (Ne.symm hr)]
    exact hc r'

/-- What `seg1_control` and `seg2_control` do where the outputs have the levels. -/
theorem seg1Control_eq (hw : s.out1 = s.seg1Level) (level : Nat) :
    s.seg1Control level = { s with seg1Level := level, out1 := level } := by
  obtain ⟨_, _, seg1Level, _, out1, _⟩ := s
  obtain rfl : out1 = seg1Level := hw
  unfold seg1Control
  split
  · rfl
  · next h =>
    obtain rfl : out1 = level := Decidable.not_not.1 h
    rfl

theorem seg2Control_eq (hw : s.out2 = s.seg2Level) (level : Nat) :
    s.seg2Control level = { s with seg2Level := level, out2 := level } := by
  obtain ⟨_, _, _, seg2Level, _, out2⟩ := s
  obtain rfl : out2 = seg2Level := hw
  unfold seg2Control
  split
  · rfl
  · next h =>
    obtain rfl : out2 = level := Decidable.not_not.1 h
    rfl

/-- The levels that a turn of `seg_callback` sets. -/
def level1 (s : Seg) : Nat := if s.rssiCount .rf4068 > 4 ∨ s.rssiCount .rf433 > 4 then 1 else 0

def level2 (s : Seg) : Nat := if s.aliveConut .rf4068 > 1 ∨ s.aliveConut .rf433 > 1 then 1 else 0

theorem callback_eq (hw : Written s) : s.callback = { s with
    seg1Level := s.level1, out1 := s.level1, seg2Level := s.level2, out2 := s.level2 } := by
  have h1 : (if s.rssiCount .rf4068 > 4 ∨ s.rssiCount .rf433 > 4 then s.seg1Control 1
      else s.seg1Control 0) = { s with seg1Level := s.level1, out1 := s.level1 } := by
    unfold level1
    split
    · exact seg1Control_eq hw.out1 1
    · exact seg1Control_eq hw.out1 0
  unfold callback
  rw [h1]
  simp only [level2]
  split
  · refine seg2Control_eq ?_ 1
    exact hw.out2
  · refine seg2Control_eq ?_ 0
    exact hw.out2

theorem ite_one_le (p : Prop) [Decidable p] : (if p then 1 else 0) ≤ 1 := by
  split <;> decide

/-- An event keeps the counters in agreement with the runs, and the outputs with the levels. -/
theorem act_spec (hc : Counts s h) (hw : Written s) (e : SegEvent) :
    Counts (s.act e) (e :: h) ∧ Written (s.act e) := by
  cases e with
  | frame r rssi =>
    refine ⟨hc.frame r rssi, ?_⟩
    rw [act, rssiLevelSelect_eq]
    exact ⟨hw.seg1Level_le, hw.seg2Level_le, hw.out1, hw.out2⟩
  | failure select =>
    refine ⟨hc.failure select, ?_⟩
    rw [act, aliveCountIncrease_eq]
    exact ⟨hw.seg1Level_le, hw.seg2Level_le, hw.out1, hw.out2⟩
  | turn =>
    rw [act, callback_eq hw]
    refine ⟨fun r => ?_, ite_one_le _, ite_one_le _, rfl, rfl⟩
    obtain ⟨hweak, hfail⟩ := runs_other (r := r) (e := .turn) (h := h) fun he => by cases he
    rw [hweak, hfail]
    exact hc r

end Seg

/-! ## Histories -/

theorem segAfter_inv (h : List SegEvent) : (segAfter h).Counts h ∧ (segAfter h).Written := by
  induction h with
  | nil => exact ⟨fun _ => ⟨rfl, rfl⟩, Nat.zero_le 1, Nat.zero_le 1, rfl, rfl⟩
  | cons e h ih => exact Seg.act_spec ih.1 ih.2 e

theorem Radio.exists {p : Radio → Prop} : (∃ r, p r) ↔ p .rf4068 ∨ p .rf433 := by
  constructor
  · rintro ⟨r, hr⟩
    cases r with
    | rf433 => exact .inr hr
    | rf4068 => exact .inl hr
  · rintro (hr | hr)
    · exact ⟨_, hr⟩
    · exact ⟨_, hr⟩

/-- **The outputs are a function of the history**: the counters are the saturated runs of their
radios, the outputs always have the levels, and a turn of `seg_callback` raises `OUT1` for five
weak frames and `OUT2` for two failures. -/
theorem segAfter_spec (h : List SegEvent) :
    (segAfter h).Counts h ∧ (segAfter h).Written ∧
    ((segAfter (.turn :: h)).out1 = 1 ↔ ∃ r, 5 ≤ weakRun r h) ∧
    ((segAfter (.turn :: h)).out2 = 1 ↔ ∃ r, 2 ≤ failureRun r h) := by
  obtain ⟨hc, hw⟩ := segAfter_inv h
  have hturn : segAfter (.turn :: h) = { segAfter h with
      seg1Level := (segAfter h).level1, out1 := (segAfter h).level1
      seg2Level := (segAfter h).level2, out2 := (segAfter h).level2 } := Seg.callback_eq hw
  have hone : ∀ (p : Prop) [Decidable p], (if p then 1 else 0) = 1 ↔ p := by
    intro p _
    split <;> simp_all
  have hcount : ∀ r, (4 < (segAfter h).rssiCount r ↔ 5 ≤ weakRun r h) ∧
      (1 < (segAfter h).aliveConut r ↔ 2 ≤ failureRun r h) := by
    intro r
    obtain ⟨hrssi, halive⟩ := hc r
    constructor <;> omega
  refine ⟨hc, hw, ?_, ?_⟩
  · rw [hturn, Radio.exists, ← (hcount .rf4068).1, ← (hcount .rf433).1]
    exact hone _
  · rw [hturn, Radio.exists, ← (hcount .rf4068).2, ← (hcount .rf433).2]
    exact hone _

/-! ## The program -/

/-- What a call means for the counters, in a step with a packet of strength `rssi`. -/
def Ev.segEvent (rssi : Int) : Ev → Option SegEvent
  | .accepted r _ _ => some (.frame r rssi)
  | .charged r => some (.failure r.number)
  | _ => none

/-- The signal strength of the packet of a step. -/
def Act.rssi : Act → Int
  | .rx _ rssi _ _ _ => rssi
  | _ => 0

/-- The accepted frame, the failures and the turn of a step, newest first. -/
def segEvents (w : World) (a : Act) (t : World) : List SegEvent :=
  (if a = .seg then [.turn] else []) ++ (made w t).filterMap (Ev.segEvent a.rssi)

/-- Those of a schedule. -/
def segHistory : World → List Act → List SegEvent
  | _, [] => []
  | w, a :: as => ((w.step a).map fun t => segHistory t as ++ segEvents w a t).getD []

/-- The counters after further events. -/
def Seg.after (s : Seg) (h : List SegEvent) : Seg := h.foldr (fun e s => s.act e) s

/-- The counters follow the calls that are made. -/
def Counted (rssi : Int) (w t : World) : Prop :=
  ∃ es, t.hist = es ++ w.hist ∧ t.seg = w.seg.after (es.filterMap (Ev.segEvent rssi))

/-- Nothing happens to the counters. -/
structure Uncounted (w t : World) : Prop where
  hist : Hist.Extends (fun e => (e.segEvent 0).isNone) w.hist t.hist
  seg : t.seg = w.seg

theorem filterMap_segEvent {c : Ev → Bool} {es : List Ev} {rssi : Int}
    (hes : ∀ e ∈ es, c e = true) (hc : ∀ e, c e = true → e.segEvent rssi = none) :
    es.filterMap (Ev.segEvent rssi) = [] :=
  List.filterMap_eq_nil_iff.2 fun e hm => hc e (hes e hm)

theorem Uncounted.counted {w t : World} (h : Uncounted w t) (rssi : Int) : Counted rssi w t := by
  obtain ⟨es, he, hes⟩ := h.hist
  have hnone : es.filterMap (Ev.segEvent rssi) = [] :=
    filterMap_segEvent hes fun e hn => by cases e <;> first | rfl | cases hn
  exact ⟨es, he, by rw [hnone]; exact h.seg⟩

theorem Counted.trans {rssi : Int} {w₁ w₂ w₃ : World} (h : Counted rssi w₁ w₂)
    (h' : Counted rssi w₂ w₃) : Counted rssi w₁ w₃ := by
  obtain ⟨es, he, hs⟩ := h
  obtain ⟨es', he', hs'⟩ := h'
  refine ⟨es' ++ es, by rw [he', he, List.append_assoc], ?_⟩
  rw [hs', hs, List.filterMap_append, Seg.after, Seg.after, Seg.after, List.foldr_append]

theorem Uncounted.trans {w₁ w₂ w₃ : World} (h : Uncounted w₁ w₂) (h' : Uncounted w₂ w₃) :
    Uncounted w₁ w₃ := ⟨h.hist.trans h'.hist, h'.seg.trans h.seg⟩

theorem Uncounted.log {w t : World} (h : Uncounted w t) {e : Ev} (he : e.segEvent 0 = none) :
    Uncounted w (t.log e) := ⟨.cons (by rw [he]; rfl) h.hist, h.seg⟩

theorem OutputStep.uncounted {w t : World} (h : OutputStep w t) : Uncounted w t := by
  refine ⟨h.hist.mono fun e he => ?_, h.seg⟩
  cases e <;> first | rfl | cases he

namespace World

variable (w : World) (r : Radio)

/-- A failure is told by its radio. -/
theorem aliveCountIncrease_counted (rssi : Int) (n : Nat) :
    Counted rssi w (w.aliveCountIncrease n) := by
  refine ⟨[.charged (Radio.select n)], rfl, ?_⟩
  change w.seg.aliveCountIncrease n = w.seg.aliveCountIncrease (Radio.select n).number
  unfold Seg.aliveCountIncrease Radio.select
  split <;> rfl

theorem heartRequest_uncounted (n : Nat) : Uncounted w (w.heartRequest n) := by
  unfold heartRequest
  split
  · exact ⟨.cons rfl (.refl _), rfl⟩
  · exact ⟨.cons rfl (.refl _), rfl⟩
  · exact ⟨.refl _, rfl⟩

theorem buttonRequest_uncounted (n : Nat) : Uncounted w (w.buttonRequest n) := by
  unfold buttonRequest
  split
  · exact ⟨.cons rfl (.refl _), rfl⟩
  · exact ⟨.cons rfl (.refl _), rfl⟩
  · exact ⟨.refl _, rfl⟩

theorem rfOffline_uncounted : Uncounted w (w.rfOffline r) := by
  unfold rfOffline
  split
  · exact ⟨.cons rfl (.refl _), rfl⟩
  · split
    · exact ⟨.cons rfl (.refl _), rfl⟩
    · exact ⟨.refl _, rfl⟩

theorem buttonFlip_uncounted : Uncounted w w.buttonFlip := by
  unfold buttonFlip
  split <;> exact ⟨.refl _, rfl⟩

theorem revive_uncounted : Uncounted w (w.revive r) := ⟨.cons rfl (.refl _), rfl⟩

theorem receiverClose_uncounted : Uncounted w w.receiverClose := ⟨.cons rfl (.refl _), rfl⟩

theorem buttonGoto_uncounted (pc : ButtonPc) : Uncounted w (w.buttonGoto pc) := ⟨.refl _, rfl⟩

theorem connectCheck_uncounted : Uncounted w w.connectCheck := by
  simp only [connectCheck]
  split
  · exact ⟨.cons rfl (.cons rfl (.cons rfl (.refl _))), rfl⟩
  · exact ⟨.cons rfl (.refl _), rfl⟩

theorem heartAttempt_uncounted (k : Nat) {fail : World → Radio → World}
    (hf : Uncounted w (fail w r)) : Uncounted w (heartAttempt k fail w r) := by
  unfold heartAttempt
  split
  · exact ⟨.cons rfl (.cons rfl (.refl _)), rfl⟩
  · exact hf

theorem heartFinal_counted (rssi : Int) : Counted rssi w (w.heartFinal r) := by
  have hrec : Uncounted w (w.heartRecord r (w.info r).received 3) := ⟨.cons rfl (.refl _), rfl⟩
  simp only [heartFinal]
  split
  · refine (hrec.trans ?_).counted rssi
    exact ⟨.cons rfl (.cons rfl (.refl _)), rfl⟩
  · have hoff := rfOffline_uncounted (((w.heartRecord r (w.info r).received 3).aliveCountIncrease
      w.heart.rfNow).onHeart fun h => { h with rfNow := CInt.cNot h.rfNow }) r
    refine ((hrec.counted rssi).trans (aliveCountIncrease_counted _ rssi w.heart.rfNow)).trans
      (Uncounted.counted ?_ rssi)
    exact ⟨.cons rfl hoff.hist, hoff.seg⟩

theorem heartCheck_counted (rssi : Int) : Counted rssi w w.heartCheck := by
  have hlog : Uncounted w (w.log (.judged w.heart.heartInfo)) := ⟨.cons rfl (.refl _), rfl⟩
  refine (hlog.counted rssi).trans ?_
  unfold heartCheck
  simp only
  split
  · exact (heartAttempt_uncounted _ _ 0 ⟨.refl _, rfl⟩).counted rssi
  · exact (heartAttempt_uncounted _ _ 1 ⟨.refl _, rfl⟩).counted rssi
  · exact (heartAttempt_uncounted _ _ 2 ⟨.refl _, rfl⟩).counted rssi
  · exact heartFinal_counted _ _ rssi
  · exact Uncounted.counted ⟨.refl _, rfl⟩ rssi

theorem heartSend_uncounted : Uncounted w w.heartSend := by
  have hreq := heartRequest_uncounted
    (w.onHeart fun h => { h with heartInfo := Radio.select h.rfNow }) w.heart.rfNow
  exact ⟨hreq.hist, hreq.seg⟩

theorem heartCallback_counted (rand : Nat) (rssi : Int) :
    Counted rssi w (w.heartCallback rand) := by
  have hsame : ∀ f : Heart → Heart, Uncounted w (w.onHeart f) := fun _ => ⟨.refl _, rfl⟩
  unfold heartCallback
  split
  · split
    · next v _ =>
      exact ((hsame fun h => { h with connectSem := v }).trans
        (heartRequest_uncounted _ 1)).counted rssi
    · exact (hsame _).counted rssi
  · exact w.connectCheck_uncounted.counted rssi
  · split
    · next v _ =>
      have htake := (hsame fun h => { h with heartSem := v }).counted rssi
      unfold heartSwitch
      split
      · exact htake.trans ((heartSend_uncounted _).counted rssi)
      · exact htake.trans (heartCheck_counted _ rssi)
      · exact htake
      · exact htake
    · exact (hsame _).counted rssi

theorem buttonFinish_counted (k : Nat) (rssi : Int) : Counted rssi w (w.buttonFinish r k) := by
  have hattempt : ∀ k, Uncounted w (buttonAttempt k w r) := by
    intro k
    have hrec : Uncounted w (w.buttonRecord r true k) := ⟨.cons rfl (.refl _), rfl⟩
    unfold buttonAttempt
    split
    · exact (hrec.trans (revive_uncounted _ r)).trans (buttonFlip_uncounted _)
    · exact ⟨.refl _, rfl⟩
  unfold buttonFinish
  split
  · exact (hattempt 0).counted rssi
  · exact (hattempt 1).counted rssi
  · exact (hattempt 2).counted rssi
  · have hrec : Uncounted w (w.buttonRecord r (w.info r).testreceived 3) :=
      ⟨.cons rfl (.refl _), rfl⟩
    simp only [buttonFinal]
    split
    · have hflip := (hrec.trans (revive_uncounted _ r)).trans (buttonFlip_uncounted _)
      exact (hflip.log (e := .verdict r true) rfl).counted rssi
    · have hoff := (buttonFlip_uncounted ((w.buttonRecord r (w.info r).testreceived
        3).aliveCountIncrease w.heart.rfNow)).trans (rfOffline_uncounted _ r)
      refine ((hrec.counted rssi).trans (aliveCountIncrease_counted _ rssi w.heart.rfNow)).trans
        (Uncounted.counted ?_ rssi)
      exact ⟨.cons rfl hoff.hist, hoff.seg⟩
  · exact Uncounted.counted ⟨.refl _, rfl⟩ rssi

theorem buttontestCallback_counted (rssi : Int) : Counted rssi w w.buttontestCallback := by
  unfold buttontestCallback
  split
  · exact Uncounted.counted ⟨.refl _, rfl⟩ rssi
  · split
    · next v _ =>
      have htake : Uncounted w (w.onHeart fun h => { h with buttonSem := v }) := ⟨.refl _, rfl⟩
      have hclose := (htake.trans (buttonRequest_uncounted _ w.heart.rfNow)).trans
        (receiverClose_uncounted _)
      simp only
      split
      · exact (hclose.trans (buttonGoto_uncounted _ _)).counted rssi
      · exact (hclose.trans (buttonGoto_uncounted _ _)).counted rssi
    · exact Uncounted.counted ⟨.refl _, rfl⟩ rssi
  · exact buttonFinish_counted w _ _ rssi

theorem accept_seg (rssi c d : Int) : (accept r w rssi c d).seg = w.seg.act (.frame r rssi) := by
  simp only [accept, ledRfStart]
  generalize hw : (((w.log (.accepted r c d)).post (.online r)).onSeg _).onInfo r _ = v
  have hseg : (solveCommand r v rssi c d).seg = v.seg := by
    refine (solveCommand_output r v rssi c d).seg.trans ?_
    split <;> rfl
  split
  · exact hseg.trans (hw ▸ rfl)
  · exact hseg.trans (hw ▸ rfl)

theorem accept_counted (rssi c d : Int) : Counted rssi w (accept r w rssi c d) := by
  obtain ⟨es, he, hes⟩ := w.accept_extends r rssi c d
  have hnone : es.filterMap (Ev.segEvent rssi) = [] :=
    filterMap_segEvent hes fun e hn => by cases e <;> first | rfl | cases hn
  refine ⟨es ++ [.accepted r c d], by rw [he, List.append_assoc]; rfl, ?_⟩
  rw [List.filterMap_append, hnone, accept_seg]
  rfl

theorem warnCallback_uncounted : Uncounted w w.warnCallback := by
  refine ⟨w.warnCallback_extends.mono fun e he => ?_, ?_⟩
  · cases e <;> first | rfl | cases he
  · rcases w.warnCallback_cases with ⟨-, he⟩ | ⟨c, -, he⟩
    · rw [he]
    · rw [he]
      cases c with
      | offline r => exact (warnOffline_output _ r).seg
      | online r => exact (warnOnline_output _ r).seg

end World

theorem Counted.segEvents {w t : World} {a : Act} (ha : a ≠ .seg) (h : Counted a.rssi w t) :
    t.seg = w.seg.after (segEvents w a t) := by
  obtain ⟨es, he, hs⟩ := h
  rw [Spsi.segEvents, if_neg ha, made_eq he]
  exact hs

theorem Uncounted.segEvents {w t : World} {a : Act} (ha : a ≠ .seg) (h : Uncounted w t) :
    t.seg = w.seg.after (segEvents w a t) := (h.counted _).segEvents ha

/-- In each step the counters follow the calls of the step. -/
theorem step_seg {w t : World} {a : Act} (h : w.step a = some t) :
    t.seg = w.seg.after (segEvents w a t) := by
  cases a with
  | heart rand =>
    cases h
    exact (w.heartCallback_counted rand _).segEvents (by simp)
  | button =>
    cases h
    exact (w.buttontestCallback_counted _).segEvents (by simp)
  | press =>
    cases h
    exact Uncounted.segEvents (by simp) ⟨.refl _, rfl⟩
  | heartTimer =>
    simp only [World.step, Option.ite_none_right_eq_some, Option.some.injEq] at h
    obtain ⟨-, rfl⟩ := h
    exact Uncounted.segEvents (by simp) ⟨.refl _, rfl⟩
  | connectTimer =>
    simp only [World.step, Option.ite_none_right_eq_some, Option.some.injEq] at h
    obtain ⟨-, rfl⟩ := h
    exact Uncounted.segEvents (by simp) ⟨.refl _, rfl⟩
  | rx r rssi stack rxBuffer rxLen =>
    simp only [World.step, Option.ite_none_right_eq_some, Option.some.injEq] at h
    obtain ⟨-, rfl⟩ := h
    rcases World.rxCallback_cases r stack w rssi rxBuffer rxLen with he | ⟨c, d, he⟩
    · rw [he]
      exact Uncounted.segEvents (by simp) ⟨.refl _, rfl⟩
    · rw [he]
      exact (w.accept_counted r rssi c d).segEvents (by simp)
  | warn =>
    cases h
    exact w.warnCallback_uncounted.segEvents (by simp)
  | psi =>
    cases h
    exact (OutputStep.psiThreadCallback w).uncounted.segEvents (by simp)
  | psiPin =>
    simp only [World.step, Option.ite_none_right_eq_some, Option.some.injEq] at h
    obtain ⟨-, rfl⟩ := h
    exact Uncounted.segEvents (by simp) ⟨.refl _, rfl⟩
  | psiTimer =>
    simp only [World.step, Option.ite_none_right_eq_some, Option.some.injEq] at h
    obtain ⟨-, rfl⟩ := h
    exact ((OutputStep.onPsi w _).trans (.psiClose _)).uncounted.segEvents (by simp)
  | seg =>
    cases h
    rw [segEvents, if_pos rfl, @made_eq w (w.onSeg Seg.callback) [] rfl]
    rfl
  | dequeue r =>
    cases r with
    | rf433 =>
      cases h
      exact Uncounted.segEvents (by simp) ⟨.refl _, rfl⟩
    | rf4068 =>
      cases h
      exact Uncounted.segEvents (by simp) ⟨.refl _, rfl⟩
  | upload =>
    cases h
    exact Uncounted.segEvents (by simp) ⟨.refl _, rfl⟩

theorem segAfter_eq (h : List SegEvent) : segAfter h = ({} : Seg).after h := by
  induction h with
  | nil => rfl
  | cons e h ih =>
    rw [segAfter, ih]
    rfl

theorem exec_seg {w t : World} {as : List Act} (h : Run.exec World.step w as = some t) :
    t.seg = w.seg.after (segHistory w as) := by
  induction as generalizing w with
  | nil =>
    cases h
    rfl
  | cons a as ih =>
    obtain ⟨u, hu, hrun⟩ := Option.bind_eq_some_iff.1 h
    have hhist : segHistory w (a :: as) = segHistory u as ++ segEvents w a u := by
      simp [segHistory, hu]
    rw [ih hrun, step_seg hu, hhist, Seg.after, Seg.after, Seg.after, List.foldr_append]

/-- **In every run of the program** the counters and the outputs are those after the frames that it
has accepted, the failures that it has declared and its turns of `seg_callback`. -/
theorem run_segAfter {as : List Act} {t : World}
    (h : Run.exec World.step World.init as = some t) :
    t.seg = segAfter (segHistory World.init as) := (exec_seg h).trans (segAfter_eq _).symm

/-- So the counters are the runs of this history, and the outputs have the levels. -/
theorem run_counts {as : List Act} {t : World}
    (h : Run.exec World.step World.init as = some t) :
    t.seg.Counts (segHistory World.init as) ∧ t.seg.Written := by
  rw [run_segAfter h]
  exact segAfter_inv _

end Spsi
