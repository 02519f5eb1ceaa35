import SpsiMaster.App.World

/-!
# Lamps and buzzer

The functions of `applications/led.c`, by the commands they give. What a command does to the
lamps (`agile_led_set_light_mode`, `agile_led_start`, …) is not looked at.
-/

namespace Spsi

namespace World

/-- The `switch(mode)` of `led_rf433_start` and `led_rf4068_start`: modes 1 to 5 are the cases. -/
def ledRfStart (w : World) (r : Radio) (mode : Nat) : World :=
  if 1 ≤ mode ∧ mode ≤ 5 then w.log (.led (.rf r mode)) else w

def ledRf433Start (w : World) (mode : Nat) : World := w.ledRfStart .rf433 mode
def ledRf4068Start (w : World) (mode : Nat) : World := w.ledRfStart .rf4068 mode

def transmitterLost (w : World) : World := w.log (.led .transmitterLost)
def transmitterOff (w : World) : World := w.log (.led .transmitterOff)
def transmitterOn (w : World) : World := w.log (.led .transmitterOn)
def receiverLost (w : World) : World := w.log (.led .receiverLost)
def receiverClose (w : World) : World := w.log (.led .receiverClose)
def receiverBlink (w : World) (valve : Nat) : World := w.log (.led (.receiverBlink valve))
def receiverOff (w : World) : World := w.log (.led .receiverOff)
def receiverOn (w : World) : World := w.log (.led .receiverOn)

/-- The pattern of the buzzer is set again only when the mode changes. -/
def beepStart (w : World) (select : Nat) : World :=
  let w := w.log (.led (.beepStart select))
  if select ≠ w.beepMode then { w with beepMode := select } else w

def beepStop (w : World) : World :=
  { w with beepMode := 0, hist := .led .beepStop :: w.hist }

/-- Levels 0 and 1 (no frame yet on one of the radios) leave the buzzer as it is. -/
def beepCalc (w : World) (level4068 level433 : Nat) : World :=
  if level4068 = 2 ∨ level433 = 2 then w.beepStart 1
  else if level4068 > 2 ∧ level433 > 2 then w.beepStop
  else w

end World

/-! ## Steps that only give output -/

/-- The output that no other part of the program depends on: the lamps other than those of a
radio, the buzzer, the calls of the two PSI lamp functions, the log records. -/
def Ev.isOutput : Ev → Bool
  | .led (.rf _ _) => false
  | .led _ | .psiLedResume | .psiLedLost | .fileOutput _ => true
  | _ => false

/-- From `w` to `w'` the program gives output, pushes to the queues and changes the variables of
`psi.c`, and nothing else. -/
structure OutputStep (w w' : World) : Prop where
  heart : w'.heart = w.heart
  info : w'.info = w.info
  seg : w'.seg = w.seg
  event : w'.event = w.event
  selfId : w'.selfId = w.selfId
  targetId : w'.targetId = w.targetId
  hist : Hist.Extends Ev.isOutput w.hist w'.hist

theorem World.beepStart_hist (w : World) (select : Nat) :
    (w.beepStart select).hist = .led (.beepStart select) :: w.hist := by
  simp only [World.beepStart]
  split <;> rfl

namespace OutputStep

theorem refl (w : World) : OutputStep w w := ⟨rfl, rfl, rfl, rfl, rfl, rfl, .refl _⟩

theorem trans {w₁ w₂ w₃ : World} (h : OutputStep w₁ w₂) (h' : OutputStep w₂ w₃) :
    OutputStep w₁ w₃ :=
  ⟨h'.heart.trans h.heart, h'.info.trans h.info, h'.seg.trans h.seg, h'.event.trans h.event,
    h'.selfId.trans h.selfId, h'.targetId.trans h.targetId, h.hist.trans h'.hist⟩

theorem log (w : World) {e : Ev} (he : e.isOutput = true) : OutputStep w (w.log e) :=
  ⟨rfl, rfl, rfl, rfl, rfl, rfl, .cons he (.refl _)⟩

theorem onPsi (w : World) (f : Psi → Psi) : OutputStep w (w.onPsi f) :=
  ⟨rfl, rfl, rfl, rfl, rfl, rfl, .refl _⟩

theorem onQueue (w : World) (f : SendQueues → SendQueues) : OutputStep w (w.onQueue f) :=
  ⟨rfl, rfl, rfl, rfl, rfl, rfl, .refl _⟩

theorem beepStart (w : World) (select : Nat) : OutputStep w (w.beepStart select) := by
  have hl : OutputStep w (w.log (.led (.beepStart select))) := log w rfl
  apply hl.trans
  simp only [World.beepStart]
  split
  · exact ⟨rfl, rfl, rfl, rfl, rfl, rfl, .refl _⟩
  · exact refl _

theorem beepStop (w : World) : OutputStep w w.beepStop :=
  ⟨rfl, rfl, rfl, rfl, rfl, rfl, .cons rfl (.refl _)⟩

theorem beepCalc (w : World) (level4068 level433 : Nat) :
    OutputStep w (w.beepCalc level4068 level433) := by
  unfold World.beepCalc
  split
  · exact beepStart w 1
  · split
    · exact beepStop w
    · exact refl w

end OutputStep

end Spsi
