import SpsiMaster.App.Psi

/-!
# Warnings

The loop of `warn_callback` in `applications/warn.c`. The branches of the two radios for an event
are one definition, with the other radio as the one whose `alive` is looked at.
-/

namespace Spsi

open Rtos

namespace World

/-- The branches `e & RF433_Offline` and `e & RF4068_Offline`. -/
def warnOffline (w : World) (r : Radio) : World :=
  let w := (w.log (.handled (.offline r))).ledRfStart r 1
  if (w.info r.other).alive then (w.psiLedResume).beepStart 2
  else (w.psiLedLost).beepStart 3

/-- The branches `e & RF433_Online` and `e & RF4068_Online`. -/
def warnOnline (w : World) (r : Radio) : World :=
  let w := (w.log (.handled (.online r))).psiLedResume
  if (w.info r.other).alive then
    w.beepCalc (w.info .rf4068).rssiLevel (w.info .rf433).rssiLevel
  else if (w.info r.other).alive = false ∧ (w.info r.other).startup then w.beepStart 2
  else w

/-- The `else if` chain. -/
def warnBranch (w : World) (e : RfEvent → Bool) : World :=
  if e (.offline .rf433) then w.warnOffline .rf433
  else if e (.offline .rf4068) then w.warnOffline .rf4068
  else if e (.online .rf433) then w.warnOnline .rf433
  else if e (.online .rf4068) then w.warnOnline .rf4068
  else w

/-- One turn of the loop of `warn_callback`. -/
def warnCallback (w : World) : World :=
  match eventRecv RfEvent.all w.event with
  | some (e, event) => { w with event := event }.warnBranch e
  | none => w

/-! ## What a branch does -/

/-- The branch of an event. -/
def branch (w : World) : RfEvent → World
  | .offline r => w.warnOffline r
  | .online r => w.warnOnline r

/-- The branch that the chain executes: an offline event comes before an online event, and 433
before 4068. -/
structure First (e : RfEvent → Bool) (c : RfEvent) : Prop where
  pending : e c = true
  offline : c = .offline .rf4068 → e (.offline .rf433) = false
  online : ∀ r, c = .online r → ∀ r', e (.offline r') = false

/-- The chain executes the branch of one of the bits. -/
theorem warnBranch_eq (w : World) {e : RfEvent → Bool} {b : RfEvent} (hb : e b = true) :
    ∃ c, First e c ∧ w.warnBranch e = w.branch c := by
  unfold warnBranch
  by_cases h1 : e (.offline .rf433) = true
  · exact ⟨.offline .rf433, ⟨h1, nofun, nofun⟩, if_pos h1⟩
  · rw [if_neg h1]
    have h1 : e (.offline .rf433) = false := Bool.eq_false_iff.2 h1
    by_cases h2 : e (.offline .rf4068) = true
    · exact ⟨.offline .rf4068, ⟨h2, fun _ => h1, nofun⟩, if_pos h2⟩
    · rw [if_neg h2]
      have hoff : ∀ r, e (.offline r) = false := by
        intro r
        cases r with
        | rf433 => exact h1
        | rf4068 => exact Bool.eq_false_iff.2 h2
      by_cases h3 : e (.online .rf433) = true
      · exact ⟨.online .rf433, ⟨h3, nofun, fun _ _ => hoff⟩, if_pos h3⟩
      · rw [if_neg h3]
        by_cases h4 : e (.online .rf4068) = true
        · exact ⟨.online .rf4068, ⟨h4, nofun, fun _ _ => hoff⟩, if_pos h4⟩
        · rcases b with r | (_ | _)
          · exact absurd (hb.symm.trans (hoff r)) (by decide)
          · exact absurd hb h3
          · exact absurd hb h4

/-- The start of an offline branch. -/
def showLost (w : World) (r : Radio) : World :=
  (w.log (.handled (.offline r))).log (.led (.rf r 1))

theorem warnOffline_eq (w : World) (r : Radio) : w.warnOffline r =
    if (w.info r.other).alive then ((w.showLost r).psiLedResume).beepStart 2
    else ((w.showLost r).psiLedLost).beepStart 3 := rfl

/-- An offline branch shows the radio as lost and then gives output. -/
theorem warnOffline_output (w : World) (r : Radio) :
    OutputStep (w.showLost r) (w.warnOffline r) := by
  rw [warnOffline_eq]
  split
  · exact (OutputStep.psiLedResume _).trans (.beepStart _ 2)
  · exact (OutputStep.psiLedLost _).trans (.beepStart _ 3)

/-- The calls of an offline branch, newest first. -/
theorem warnOffline_hist (w : World) (r : Radio) : ∃ es, (∀ e ∈ es, e.isOutput = true) ∧
    (w.warnOffline r).hist =
      .led (.beepStart (if (w.info r.other).alive then 2 else 3)) :: (es ++
        (if (w.info r.other).alive then .psiLedResume else .psiLedLost) ::
          .led (.rf r 1) :: .handled (.offline r) :: w.hist) := by
  rw [warnOffline_eq]
  cases (w.info r.other).alive with
  | true =>
    obtain ⟨es, he, hes⟩ := (OutputStep.psiLedResume_marked (w.showLost r)).hist
    refine ⟨es, hes, ?_⟩
    rw [if_pos rfl, beepStart_hist, he]
    rfl
  | false =>
    obtain ⟨es, he, hes⟩ := (OutputStep.psiLedLost_marked (w.showLost r)).hist
    refine ⟨es, hes, ?_⟩
    rw [if_neg Bool.false_ne_true, beepStart_hist, he]
    rfl

/-- The PSI is shown as lost exactly when the other radio is not alive either. -/
theorem warnOffline_psiLost (w : World) (r : Radio) :
    (w.warnOffline r).psi.psiLost = !(w.info r.other).alive := by
  have hb : ∀ (v : World) n, (v.beepStart n).psi = v.psi := by
    intro v n
    simp only [beepStart]
    split <;> rfl
  rw [warnOffline_eq]
  cases (w.info r.other).alive with
  | true => simp [hb, psiLedResume_psi]
  | false => simp [hb, psiLedLost_psi]

theorem warnOnline_output (w : World) (r : Radio) :
    OutputStep (w.log (.handled (.online r))) (w.warnOnline r) := by
  simp only [warnOnline]
  split
  · exact (OutputStep.psiLedResume _).trans (.beepCalc _ _ _)
  · split
    · exact (OutputStep.psiLedResume _).trans (.beepStart _ 2)
    · exact OutputStep.psiLedResume _

/-- The calls of an online branch start with `psi_led_resume`. -/
theorem warnOnline_hist (w : World) (r : Radio) : ∃ es, (∀ e ∈ es, e.isOutput = true) ∧
    (w.warnOnline r).hist = es ++ .psiLedResume :: .handled (.online r) :: w.hist := by
  have hm := OutputStep.psiLedResume_marked (w.log (.handled (.online r)))
  have ho : OutputStep ((w.log (.handled (.online r))).log .psiLedResume) (w.warnOnline r) := by
    simp only [warnOnline]
    split
    · exact hm.trans (.beepCalc _ _ _)
    · split
      · exact hm.trans (.beepStart _ 2)
      · exact hm
  obtain ⟨es, he, hes⟩ := ho.hist
  exact ⟨es, hes, he⟩

theorem warnOnline_psiLost (w : World) (r : Radio) : (w.warnOnline r).psi.psiLost = false := by
  have hb : ∀ (v : World) n, (v.beepStart n).psi = v.psi := by
    intro v n
    simp only [beepStart]
    split <;> rfl
  have hc : ∀ (v : World) m n, (v.beepCalc m n).psi = v.psi := by
    intro v m n
    unfold beepCalc
    split
    · exact hb v 1
    · split <;> rfl
  simp only [warnOnline]
  split
  · rw [hc, psiLedResume_psi]
  · split
    · rw [hb, psiLedResume_psi]
    · rw [psiLedResume_psi]

/-- A turn of the loop does nothing, or takes all bits and executes the first branch. -/
theorem warnCallback_first (w : World) :
    (∀ b, w.event b = false) ∧ w.warnCallback = w ∨
    ∃ c, First w.event c ∧ w.warnCallback = { w with event := fun _ => false }.branch c := by
  unfold warnCallback
  split
  · next e event he =>
    simp only [eventRecv, Option.ite_none_right_eq_some, Option.some.injEq, Prod.mk.injEq] at he
    obtain ⟨hany, rfl, rfl⟩ := he
    obtain ⟨b, -, hb⟩ := List.any_eq_true.1 hany
    exact .inr (warnBranch_eq _ hb)
  · next he =>
    refine .inl ⟨fun b => ?_, rfl⟩
    simp only [eventRecv, ite_eq_right_iff, reduceCtorEq, imp_false, List.any_eq_true,
      not_exists, not_and] at he
    simpa using he b b.mem_all

/-- The branch is the one of a bit. -/
theorem warnCallback_cases (w : World) :
    (∀ b, w.event b = false) ∧ w.warnCallback = w ∨
    ∃ c, w.event c = true ∧ w.warnCallback = { w with event := fun _ => false }.branch c := by
  rcases w.warnCallback_first with h | ⟨c, hc, he⟩
  · exact .inl h
  · exact .inr ⟨c, hc.pending, he⟩

end World

end Spsi
