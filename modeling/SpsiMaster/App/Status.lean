import SpsiMaster.Lamp.Command

/-!
# The status and its lamps

What the program knows of the PSI and of the valve, and the last commands to LED7 and LED8, as a
state of its own. The operations are what the functions of `psi.c` and the button test do to this
state. `Status.Follows` is the invariant: while the loss is not shown, LED7 shows the PSI and LED8
the valve, unless a test that is running has closed it.
-/

namespace Spsi

/-- The functions that show a valve status: for the status, or as a blink. -/
def valveLamps (valve : Nat) : List (List LedCall) :=
  if valve ≠ 0 then [receiverOn, receiverBlink 1] else [receiverOff, receiverBlink 0]

/-- `PSI_Status`, `Valve_Status` and `Psi_Lost`, and the last commands to the lamps. -/
structure Status where
  psi : Nat
  valve : Nat
  lost : Bool
  led7 : Option LedCmd
  led8 : Option LedCmd

/-- The last command makes the calls of one of the functions. -/
def Gives (o : Option LedCmd) (ps : List (List LedCall)) : Prop := ∃ c, o = some c ∧ c.calls ∈ ps

instance (o : Option LedCmd) (ps : List (List LedCall)) : Decidable (Gives o ps) :=
  match o with
  | none => .isFalse fun ⟨_, h, _⟩ => nomatch h
  | some c => decidable_of_iff (c.calls ∈ ps)
    ⟨fun h => ⟨c, rfl, h⟩, fun ⟨_, hc, h⟩ => Option.some.inj hc ▸ h⟩

namespace Status

variable (s : Status)

def psiLamp : LedCmd := if s.psi ≠ 0 then .transmitterOn else .transmitterOff

def valveLamp : LedCmd := if s.valve ≠ 0 then .receiverOn else .receiverOff

def psiOpen : Status :=
  if s.psi = 0 ∧ s.lost = false then { s with psi := 1, led7 := some .transmitterOn } else s

def psiClose : Status :=
  if s.psi = 1 ∧ s.lost = false then { s with psi := 0, led7 := some .transmitterOff } else s

/-- The end of the loss shows the status again. -/
def resume : Status :=
  if s.lost then
    { s with lost := false, led7 := some s.psiLamp, led8 := some s.valveLamp }
  else s

def lose : Status :=
  if s.lost = false then
    { s with lost := true, led7 := some .transmitterLost, led8 := some .receiverLost }
  else s

/-- `valve_open`, `valve_close`: the lamp is given a command only when the status changes. -/
def setValve (v : Nat) : Status :=
  { s with
    valve := v
    led8 := if s.valve ≠ v ∧ s.lost = false then
        some (if v ≠ 0 then .receiverOn else .receiverOff)
      else s.led8 }

def blink (mode : Nat) : Status := { s with led8 := some (.receiverBlink mode) }

/-- The start of a test. -/
def close : Status := { s with led8 := some .receiverClose }

/-! ## The invariant -/

/-- `testing`: a button test is running. -/
structure Follows (testing : Prop) : Prop where
  psi : s.psi ≤ 1
  led7 : s.lost = false → s.led7 = some s.psiLamp
  led8 : s.lost = false → s.valve ≤ 1 →
    Gives s.led8 (valveLamps s.valve) ∨ testing ∧ s.led8 = some .receiverClose

variable {s : Status} {testing : Prop}

theorem Follows.mono {testing' : Prop} (h : s.Follows testing) (ht : testing → testing') :
    s.Follows testing' :=
  ⟨h.psi, h.led7, fun hl hv => (h.led8 hl hv).imp_right (.imp_left ht)⟩

/-- A test that ends must not leave LED8 closed. -/
theorem Follows.endTest (h : s.Follows testing)
    (hc : s.lost = false → s.valve ≤ 1 → s.led8 ≠ some .receiverClose) : s.Follows False :=
  ⟨h.psi, h.led7, fun hl hv => .inl ((h.led8 hl hv).resolve_right fun hr => hc hl hv hr.2)⟩

theorem Follows.psiOpen (h : s.Follows testing) : s.psiOpen.Follows testing := by
  unfold Status.psiOpen
  split
  · exact ⟨Nat.le_refl 1, fun _ => rfl, h.led8⟩
  · exact h

theorem Follows.psiClose (h : s.Follows testing) : s.psiClose.Follows testing := by
  unfold Status.psiClose
  split
  · exact ⟨Nat.zero_le 1, fun _ => rfl, h.led8⟩
  · exact h

theorem Follows.lose (h : s.Follows testing) : s.lose.Follows testing := by
  unfold Status.lose
  split
  · exact ⟨h.psi, fun hl => (nomatch hl), fun hl => nomatch hl⟩
  · exact h

theorem gives_status (v : Nat) :
    Gives (some (if v ≠ 0 then .receiverOn else .receiverOff)) (valveLamps v) := by
  unfold valveLamps
  split
  · exact ⟨_, rfl, List.mem_cons_self⟩
  · exact ⟨_, rfl, List.mem_cons_self⟩

theorem Follows.resume (h : s.Follows testing) : s.resume.Follows testing := by
  unfold Status.resume
  split
  · exact ⟨h.psi, fun _ => rfl, fun _ _ => .inl (gives_status s.valve)⟩
  · exact h

/-- A blink with any number blinks with 0 or 1. -/
theorem gives_blink (mode : Nat) :
    Gives (some (.receiverBlink mode)) (valveLamps (if mode ≠ 0 then 1 else 0)) := by
  refine ⟨_, rfl, ?_⟩
  rw [LedCmd.calls, receiverBlink, valveLamps]
  by_cases hm : mode = 0
  · subst hm
    exact List.mem_cons_of_mem _ List.mem_cons_self
  · rw [if_pos hm, if_pos hm]
    exact List.mem_cons_of_mem _ List.mem_cons_self

theorem Follows.setValve (h : s.Follows testing) (v : Nat) : (s.setValve v).Follows testing := by
  refine ⟨h.psi, h.led7, fun hl hle => ?_⟩
  have hl : s.lost = false := hl
  simp only [Status.setValve] at hle ⊢
  by_cases hv : s.valve = v
  · subst hv
    rw [if_neg fun hn => hn.1 rfl]
    exact h.led8 hl hle
  · rw [if_pos ⟨hv, hl⟩]
    exact .inl (gives_status v)

theorem not_gives_close (v : Nat) : ¬ Gives (some .receiverClose) (valveLamps v) := by
  unfold valveLamps
  split
  · decide
  · decide

/-- LED8 is given a command for its status, or none. -/
theorem setValve_led8 (s : Status) (v : Nat) {P : Option LedCmd → Prop}
    (hnew : P (some (if v ≠ 0 then .receiverOn else .receiverOff))) (hold : P s.led8) :
    P (s.setValve v).led8 := by
  unfold Status.setValve
  dsimp only
  split
  · exact hnew
  · exact hold

/-- The answer to a test blinks, and then sets the valve. -/
theorem Follows.answer (h : s.Follows testing) (mode : Nat) :
    ((s.blink mode).setValve (if mode ≠ 0 then 1 else 0)).Follows testing := by
  have hblink := gives_blink mode
  generalize (if mode ≠ 0 then 1 else 0) = v at hblink ⊢
  refine ⟨h.psi, h.led7, fun hl _ => .inl ?_⟩
  exact setValve_led8 (s.blink mode) v (P := fun o => Gives o (valveLamps v)) (gives_status v)
    hblink

theorem Follows.close (h : s.Follows testing) (ht : testing) : s.close.Follows testing :=
  ⟨h.psi, h.led7, fun _ _ => .inr ⟨ht, rfl⟩⟩

end Status

end Spsi
