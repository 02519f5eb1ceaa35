import SpsiMaster.Lib.Run
import SpsiMaster.Lamp.Command
import SpsiMaster.Lamp.Proof.Pattern

/-!
# The lamps show the last command

What an LED ends with (`AgileLed.final`) is not changed by `agile_led_process`, so it is decided by
the calls of the last command. `Planned` says what these calls still have to do for one LED: set
and start it, or stop it and switch it off. The functions `transmitter_on`, `transmitter_lost`,
`receiver_on` and `receiver_lost` switch the other LED off without stopping it, and a pattern that
has its switch on still ahead relights it.

`lamps_showLast`: along every schedule without such a call (`Relit`) the lamps show the last
command in every state in which all is done. `relit_notShown`: after such a call they never do,
until the next command.
-/

namespace Spsi

open Run

/-! ## What a command shows -/

/-- The LEDs of three lamps that a mode of a radio lights. -/
def rfShows (a b c : Lamp) : Nat → List Led
  | 1 => [.r a, .r b, .r c]
  | 2 => [.g a, .r a]
  | 3 => [.g a]
  | 4 => [.g a, .g b]
  | 5 => [.g a, .g b, .g c]
  | _ => []

namespace LedCmd

/-- The LEDs of its group that a command lights. -/
def shows : LedCmd → List Led
  | .rf .rf433 mode => rfShows .led1 .led2 .led3 mode
  | .rf .rf4068 mode => rfShows .led4 .led5 .led6 mode
  | .transmitterLost => [.r .led7]
  | .transmitterOff => [.g .led7, .r .led7]
  | .transmitterOn => [.g .led7]
  | .receiverLost => [.r .led8]
  | .receiverOff => [.g .led8, .r .led8]
  | .receiverOn => [.g .led8]
  | .receiverClose | .receiverBlink _ | .beepStart _ | .beepStop => []

/-- The command switches an LED off that it does not stop. -/
def noStop : LedCmd → Bool
  | .transmitterLost | .transmitterOn | .receiverLost | .receiverOn => true
  | _ => false

end LedCmd

/-- The lamps of a group after its last command: without one they are dark. -/
def Lamps.shown (s : Lamps) (l : Led) : Bool :=
  match s.last l.group with
  | some c => l ∈ c.shows
  | none => false

/-- Once the last command has returned and all objects are inactive, the LEDs that are lit are
those of the last commands. -/
def ShowsLast (s : Lamps) : Prop :=
  s.pending = [] → (∀ l, (s.leds.led l).active = false) → ∀ l, (s.leds.led l).lit = s.shown l

/-! ## All LEDs -/

def Lamp.all : List Lamp := [.led1, .led2, .led3, .led4, .led5, .led6, .led7, .led8]

theorem Lamp.mem_all (n : Lamp) : n ∈ Lamp.all := by cases n <;> decide

instance {p : Led → Prop} [DecidablePred p] : Decidable (∀ l, p l) :=
  decidable_of_iff (∀ n ∈ Lamp.all, p (.g n) ∧ p (.r n))
    ⟨fun h l => by cases l with
      | g n => exact (h n n.mem_all).1
      | r n => exact (h n n.mem_all).2,
    fun h n _ => ⟨h (.g n), h (.r n)⟩⟩

instance : DecidablePred ShowsLast := fun _ => inferInstanceAs (Decidable (_ → _ → _))

/-! ## The calls of a command for one LED -/

/-- The calls for the LED `l`. -/
def callsFor (l : Led) (ps : List LedCall) : List LedCall := ps.filter fun p => p.led = l

theorem callsFor_cons (l : Led) (p : LedCall) (ps : List LedCall) :
    callsFor l (p :: ps) = if p.led = l then p :: callsFor l ps else callsFor l ps := by
  rw [callsFor, List.filter_cons]
  simp [callsFor]

/-- A command sets and starts what it lights; what it does not light it stops and switches off, or
only switches off. -/
def LedCmd.Handles (c : LedCmd) (l : Led) : Prop :=
  l ∈ c.shows ∧ (∃ m ∈ [rfMode, statusMode], callsFor l c.calls = [.setLightMode l m 1, .start l]) ∨
    l ∉ c.shows ∧ callsFor l c.calls = [.stop l, .off l] ∨
    l ∉ c.shows ∧ c.noStop = true ∧ callsFor l c.calls = [.off l]

instance (c : LedCmd) (l : Led) : Decidable (c.Handles l) := inferInstanceAs (Decidable (_ ∨ _))

/-- A command handles the LEDs of its group, and no others. -/
theorem LedCmd.calls_for {c : LedCmd} {g : Group} (hg : c.group = some g) (l : Led) :
    (l.group = g → c.Handles l) ∧ (l.group ≠ g → callsFor l c.calls = []) := by
  revert l
  cases c with
  | rf r mode =>
    simp only [group, Option.ite_none_right_eq_some, Option.some.injEq] at hg
    obtain ⟨⟨h1, h5⟩, rfl⟩ := hg
    interval_cases mode <;> cases r <;> decide +kernel
  | transmitterLost => cases hg; decide +kernel
  | transmitterOff => cases hg; decide +kernel
  | transmitterOn => cases hg; decide +kernel
  | receiverLost => cases hg; decide +kernel
  | receiverClose => cases hg; decide +kernel
  | receiverOff => cases hg; decide +kernel
  | receiverOn => cases hg; decide +kernel
  | receiverBlink _ => cases hg
  | beepStart _ => cases hg
  | beepStop => cases hg

/-! ## Patterns of two entries -/

namespace AgileLed

variable {l : AgileLed}

/-- The pattern of the commands: a delay off and a delay on. -/
def Pair (xs : List UInt32) : Prop := ∃ x y, xs = [x, y] ∧ x ≠ 0 ∧ y ≠ 0

/-- The object has its switch on still ahead. -/
def ahead (l : AgileLed) : Bool := l.active && l.loopCnt ≠ 0 && l.arrIndex ≤ 1

/-- An active object works off a pattern of two entries, once. -/
def Short (l : AgileLed) : Prop :=
  l.active = true → Pair l.lightArr ∧ (l.loopCnt = 0 ∨ l.loopCnt = 1) ∧ l.arrIndex ≤ 2

theorem Short.visit (h : l.Short) (now : UInt32) : (l.visit now).Short := by
  unfold AgileLed.visit
  split
  · split
    · next ms hms =>
      intro ha
      obtain ⟨⟨x, y, he, hxy⟩, hc, -⟩ := h ha
      have hlt : l.skip < l.lightArr.length := (List.getElem?_eq_some_iff.1 hms).1
      rw [he] at hlt
      exact ⟨⟨x, y, he, hxy⟩, hc, hlt⟩
    · intro ha
      obtain ⟨hp, hc, -⟩ := h ha
      refine ⟨hp, .inl ?_, Nat.le_succ 1⟩
      rcases hc with hc | hc
      · simp [hc]
      · simp [hc]
  · exact h

/-- A short pattern ends with the switch on that is ahead, or with the level there is. -/
theorem Short.final_eq (h : l.Short) : l.final = (l.ahead || l.lit) := by
  unfold AgileLed.ahead
  cases ha : l.active with
  | false => rw [final_inactive _ ha]; rfl
  | true =>
    obtain ⟨⟨x, y, he, hx, hy⟩, hc | hc, hi⟩ := h ha
    · rw [final, if_pos (.inr hc), hc]
      rfl
    · rw [final_active ha (by omega), if_pos hc, rest, he, hc]
      interval_cases l.arrIndex <;> simp [play, hy]

/-- A pattern that has just been set or started ends with the switch on. -/
theorem final_started (hp : Pair l.lightArr) (hc : l.loopCnt = 1) (hi : l.arrIndex = 0)
    (ha : l.active = true) : l.Short ∧ l.final = true := by
  have hs : l.Short := fun _ => ⟨hp, .inr hc, by omega⟩
  refine ⟨hs, ?_⟩
  rw [hs.final_eq, ahead, ha, hc, hi]
  rfl

end AgileLed

/-! ## Plans -/

/-- What the calls that are still to be made for the LED `l` will do, by the last command `c` of
its group: in the end it is lit if `c` lights it. -/
inductive Planned (l : Led) (c : LedCmd) : List LedCall → AgileLed → Prop
  | done {o} (h : o.final = decide (l ∈ c.shows)) : Planned l c [] o
  | light {m o} (h : l ∈ c.shows) (hm : m ∈ [rfMode, statusMode]) :
      Planned l c [.setLightMode l m 1, .start l] o
  | armed {o} (h : l ∈ c.shows) (hp : AgileLed.Pair o.lightArr) (hi : o.loopInit = 1)
      (hf : o.active = true → o.final = true) : Planned l c [.start l] o
  | dark {o} (h : l ∉ c.shows) : Planned l c [.stop l, .off l] o
  | stopped {o} (h : l ∉ c.shows) (ha : o.active = false) : Planned l c [.off l] o
  | bare {o} (h : l ∉ c.shows) (hn : c.noStop = true) : Planned l c [.off l] o

/-- The plan for `l`, without a command that it stays dark. -/
def PlannedBy (l : Led) : Option LedCmd → List LedCall → AgileLed → Prop
  | some c, todo, o => Planned l c todo o
  | none, todo, o => todo = [] ∧ o.final = false

/-- A call of `agile_led_process` changes no plan. -/
theorem PlannedBy.worked {l : Led} {c : Option LedCmd} {todo : List LedCall} {o o' : AgileLed}
    (h : PlannedBy l c todo o) (hw : AgileLeds.Worked o o') : PlannedBy l c todo o' := by
  cases c with
  | none => exact ⟨h.1, hw.final.trans h.2⟩
  | some c =>
    cases h with
    | done h => exact .done (hw.final.trans h)
    | light h hm => exact .light h hm
    | armed h hp hi hf =>
      refine .armed h (hw.lightArr ▸ hp) (hw.loopInit.trans hi) fun ha => ?_
      rw [hw.final]
      exact hf (hw.active ha)
    | dark h => exact .dark h
    | stopped h ha =>
      exact .stopped h (Bool.eq_false_iff.2 fun ha' => by rw [hw.active ha'] at ha; cases ha)
    | bare h hn => exact .bare h hn

/-- The invariant of the program. -/
structure Lamps.Inv (s : Lamps) : Prop where
  listed : s.leds.Listed
  short : ∀ l, (s.leds.led l).Short
  planned : ∀ l, PlannedBy l (s.last l.group) (callsFor l s.pending) (s.leds.led l)

/-! ## Every step -/

theorem pair_mode {m : List UInt8} (hm : m ∈ [rfMode, statusMode]) :
    AgileLed.Pair (getLightArr m) := by
  rcases List.mem_pair.1 hm with rfl | rfl
  · exact ⟨300, 150, by decide +kernel, by decide, by decide⟩
  · exact ⟨300, 100, by decide +kernel, by decide, by decide⟩

namespace LedCall

/-- A call only touches its own LED. -/
theorem run_other (p : LedCall) (now : UInt32) (e : AgileLeds Led) {l : Led} (hl : p.led ≠ l) :
    (p.run now e).led l = e.led l := by
  cases p with
  | setLightMode l' m n => exact Function.update_of_ne (Ne.symm hl) ..
  | start l' => exact AgileLeds.start_other (Ne.symm hl) now
  | stop l' => exact AgileLeds.stop_other (Ne.symm hl)
  | off l' => exact Function.update_of_ne (Ne.symm hl) ..

theorem run_listed (p : LedCall) (now : UInt32) {e : AgileLeds Led} (h : e.Listed) :
    (p.run now e).Listed := by
  cases p with
  | setLightMode l m n => exact h.update l (f := fun o => o.setLightMode m n now) rfl
  | start l => exact h.start l now
  | stop l => exact h.stop l
  | off l => exact h.update l (f := fun o => { o with lit := false }) rfl

end LedCall

/-- The `agile_led_off` of a command that does not stop finds the switch on of its LED ahead. -/
def Relit (s : Lamps) : LampAct → Bool
  | .exec _ =>
    match s.pending with
    | .off l :: _ => (s.last l.group).any LedCmd.noStop && (s.leds.led l).ahead
    | _ => false
  | _ => false

/-- A call does what is planned for its LED. -/
theorem planned_run {p : LedCall} {c : LedCmd} {todo : List LedCall} {e : AgileLeds Led}
    (now : UInt32) (h : Planned p.led c (p :: todo) (e.led p.led)) (hs : (e.led p.led).Short)
    (hq : ∀ l, p = .off l → c.noStop = true → (e.led l).ahead = false) :
    Planned p.led c todo ((p.run now e).led p.led) ∧ ((p.run now e).led p.led).Short := by
  generalize hl : p.led = l at h hs
  generalize ht : p :: todo = ps at h
  cases h with
  | done => cases ht
  | light h hm =>
    obtain ⟨rfl, rfl⟩ := List.cons.inj ht
    simp only [LedCall.run, AgileLeds.setLightMode, AgileLeds.update_led, Function.update_self]
    have hstart : (e.led l).active = true → _ :=
      AgileLed.final_started (l := (e.led l).setLightMode _ 1 now) (pair_mode hm) rfl rfl
    exact ⟨.armed h (pair_mode hm) rfl fun ha => (hstart ha).2, fun ha => (hstart ha).1 ha⟩
  | armed h hp hi hf =>
    obtain ⟨rfl, rfl⟩ := List.cons.inj ht
    have hne : (e.led l).lightArr ≠ [] := by
      obtain ⟨x, y, he, -⟩ := hp
      rw [he]
      exact List.cons_ne_nil x [y]
    rw [LedCall.run]
    cases ha : (e.led l).active with
    | true =>
      rw [AgileLeds.start_active ha]
      exact ⟨.done (by rw [hf ha, decide_eq_true h]), hs⟩
    | false =>
      rw [AgileLeds.start_idle ha hne]
      let o : AgileLed := { e.led l with
        arrIndex := 0, loopCnt := (e.led l).loopInit, tickTimeout := now, active := true }
      have hstart := AgileLed.final_started (l := o) hp hi rfl rfl
      exact ⟨.done (by rw [hstart.2, decide_eq_true h]), hstart.1⟩
  | dark h =>
    obtain ⟨rfl, rfl⟩ := List.cons.inj ht
    rw [LedCall.run, AgileLeds.stop_self]
    exact ⟨.stopped h rfl, fun ha => nomatch ha⟩
  | stopped h ha =>
    obtain ⟨rfl, rfl⟩ := List.cons.inj ht
    simp only [LedCall.run, AgileLeds.off, AgileLeds.update_led, Function.update_self]
    have hfinal : ({ e.led l with lit := false } : AgileLed).final = false :=
      AgileLed.final_inactive _ ha
    exact ⟨.done (by rw [hfinal, decide_eq_false h]), hs⟩
  | bare h hn =>
    obtain ⟨rfl, rfl⟩ := List.cons.inj ht
    simp only [LedCall.run, AgileLeds.off, AgileLeds.update_led, Function.update_self]
    have hoff : ({ e.led l with lit := false } : AgileLed).Short := hs
    refine ⟨.done ?_, hoff⟩
    have hahead : ({ e.led l with lit := false } : AgileLed).ahead = false := hq l rfl hn
    rw [hoff.final_eq, hahead, decide_eq_false h]
    rfl

namespace Lamps

theorem inv_call {s : Lamps} {c : LedCmd} {g : Group} (h : s.Inv) (hp : s.pending = [])
    (hg : c.group = some g) :
    ({ s with pending := c.calls, last := Function.update s.last g (some c) } : Lamps).Inv where
  listed := h.listed
  short := h.short
  planned := fun l => by
    have hold := h.planned l
    rw [hp] at hold
    obtain ⟨hmine, hother⟩ := LedCmd.calls_for hg l
    dsimp only
    by_cases hl : l.group = g
    · rw [hl, Function.update_self]
      rcases hmine hl with ⟨hs, m, hm, he⟩ | ⟨hs, he⟩ | ⟨hs, hn, he⟩
      · rw [he]
        exact .light hs hm
      · rw [he]
        exact .dark hs
      · rw [he]
        exact .bare hs hn
    · rw [Function.update_of_ne hl, hother hl]
      exact hold

theorem inv_exec {s : Lamps} {p : LedCall} {ps : List LedCall} (h : s.Inv)
    (hp : s.pending = p :: ps) (now : UInt32) (hq : Relit s (.exec now) = false) :
    ({ s with leds := p.run now s.leds, pending := ps } : Lamps).Inv := by
  have hmine : PlannedBy p.led (s.last p.led.group) (callsFor p.led ps)
      ((p.run now s.leds).led p.led) ∧ ((p.run now s.leds).led p.led).Short := by
    have hold := h.planned p.led
    rw [hp, callsFor_cons, if_pos rfl] at hold
    cases hc : s.last p.led.group with
    | none =>
      rw [hc] at hold
      cases hold.1
    | some c =>
      rw [hc] at hold
      refine planned_run now hold (h.short p.led) fun l hl hn => ?_
      subst hl
      have hc : s.last l.group = some c := hc
      simpa [Relit, hp, hc, hn] using hq
  refine ⟨p.run_listed now h.listed, fun l => ?_, fun l => ?_⟩
  · by_cases hl : p.led = l
    · exact hl ▸ hmine.2
    · dsimp only
      rw [p.run_other now s.leds hl]
      exact h.short l
  · by_cases hl : p.led = l
    · exact hl ▸ hmine.1
    · have hold := h.planned l
      rw [hp, callsFor_cons, if_neg hl] at hold
      dsimp only
      rw [p.run_other now s.leds hl]
      exact hold

theorem inv_tick {s : Lamps} (h : s.Inv) (now : UInt32) :
    ({ s with leds := s.leds.process now } : Lamps).Inv := by
  have hshort : (s.leds.process now).Listed ∧ ∀ l, ((s.leds.process now).led l).Short :=
    AgileLeds.process_induct (P := fun _ o => AgileLed.Short o)
      (fun _ _ _ _ ho => ho.visit now) (fun _ _ _ _ ha => nomatch ha) h.listed h.short
  refine ⟨hshort.1, hshort.2, fun l => ?_⟩
  exact (h.planned l).worked (AgileLeds.process_worked h.listed now l)

theorem inv_step (s : Lamps) (a : LampAct) (t : Lamps) (h : s.Inv) (ht : s.step a = some t)
    (hq : Relit s a = false) : t.Inv := by
  cases a with
  | call c =>
    simp only [step] at ht
    split at ht
    · next hp hg =>
      cases ht
      exact inv_call h hp hg
    · cases ht
  | exec now =>
    simp only [step] at ht
    split at ht
    · next hp =>
      cases ht
      exact inv_exec h hp now hq
    · cases ht
  | tick now =>
    cases ht
    exact inv_tick h now

theorem inv_init (now : UInt32) : (Lamps.init now).Inv := by
  have hdark : ∀ l, ((Lamps.init now).leds.led l).active = false ∧
      ((Lamps.init now).leds.led l).lit = false := by
    intro l
    rcases l with n | n <;> cases n <;> exact ⟨rfl, rfl⟩
  refine ⟨⟨List.nodup_nil, fun l => ?_⟩, fun l ha => ?_, fun l => ⟨rfl, ?_⟩⟩
  · rw [(hdark l).1]
    exact ⟨fun hm => (nomatch hm), fun hm => nomatch hm⟩
  · rw [(hdark l).1] at ha
    cases ha
  · rw [AgileLed.final_inactive _ (hdark l).1, (hdark l).2]

theorem Inv.showsLast {s : Lamps} (h : s.Inv) : ShowsLast s := by
  intro hp hidle l
  have hl := h.planned l
  rw [hp] at hl
  rw [← AgileLed.final_inactive _ (hidle l), shown]
  cases hc : s.last l.group with
  | none =>
    rw [hc] at hl
    exact hl.2
  | some c =>
    rw [hc] at hl
    cases hl with
    | done hf => exact hf

end Lamps

/-! ## Along schedules -/

/-- **The lamps end up showing the last command** of each group, along every schedule in which
`transmitter_on`, `transmitter_lost`, `receiver_on` and `receiver_lost` switch no LED off that has
its switch on still ahead. -/
theorem lamps_showLast (now : UInt32) {as : List LampAct}
    (hq : Steps Lamps.step (fun s a _ => Relit s a = false) (Lamps.init now) as) :
    Along Lamps.step ShowsLast (Lamps.init now) as :=
  (along_of_inv Lamps.inv_step (Lamps.inv_init now) hq).mono fun _ h => h.showsLast

/-- A PSI that is shown as open once its lamp has settled. -/
theorem lamps_showLast_settled : Along Lamps.step ShowsLast (Lamps.init 0)
    [.call .transmitterOff, .exec 0, .exec 0, .exec 0, .exec 0, .tick 0, .tick 300, .tick 400,
      .tick 405, .tick 410, .call .transmitterOn, .exec 500, .exec 500, .exec 500, .tick 500,
      .tick 800, .tick 900, .tick 905, .tick 910] :=
  lamps_showLast 0 (by decide +kernel)

/-- The PSI is shown as open 100 ms after `led_Init` has shown it as closed. -/
def openTooSoon : List LampAct :=
  [.call .transmitterOff, .exec 0, .exec 0, .exec 0, .exec 0, .tick 0, .tick 100,
    .call .transmitterOn, .exec 100, .exec 100, .exec 100, .tick 100, .tick 300, .tick 400,
    .tick 500, .tick 505, .tick 510]

/-- The red LED is lit again. -/
theorem lamps_relit_openTooSoon : ¬ Along Lamps.step ShowsLast (Lamps.init 0) openTooSoon := by
  decide +kernel

/-! ## After a call that relights -/

/-- Nothing more will be done for `l`, which will be lit though `c` does not light it. -/
structure Lamps.Wrong (l : Led) (c : LedCmd) (s : Lamps) : Prop where
  listed : s.leds.Listed
  done : callsFor l s.pending = []
  final : (s.leds.led l).final = true
  last : s.last l.group = some c

theorem Lamps.wrong_step {l : Led} {c : LedCmd} {s t : Lamps} {a : LampAct} (h : s.Wrong l c)
    (ht : s.step a = some t) (ha : ∀ c, a ≠ .call c) : t.Wrong l c := by
  cases a with
  | call c => exact absurd rfl (ha c)
  | exec now =>
    simp only [step] at ht
    split at ht
    · next p ps hp =>
      cases ht
      have hdone := h.done
      rw [hp, callsFor_cons] at hdone
      have hl : p.led ≠ l := fun hl => by rw [if_pos hl] at hdone; cases hdone
      rw [if_neg hl] at hdone
      refine ⟨p.run_listed now h.listed, hdone, ?_, h.last⟩
      dsimp only
      rw [p.run_other now s.leds hl]
      exact h.final
    · cases ht
  | tick now =>
    cases ht
    have hw := AgileLeds.process_worked h.listed now l
    exact ⟨AgileLeds.process_listed h.listed now, h.done, hw.final.trans h.final, h.last⟩

theorem Lamps.wrong_of_relit {s t : Lamps} {a : LampAct} (h : s.Inv) (hq : Relit s a = true)
    (ht : s.step a = some t) : ∃ l c, t.Wrong l c ∧ l ∉ c.shows := by
  cases a with
  | call c => cases hq
  | tick now => cases hq
  | exec now =>
    simp only [Relit] at hq
    split at hq
    · next l ps hp =>
      obtain ⟨hn, hahead⟩ := Bool.and_eq_true_iff.1 hq
      obtain ⟨c, hc, -⟩ := (Option.any_eq_true _ _).1 hn
      simp only [step, hp] at ht
      cases ht
      have hplan := h.planned l
      have hcalls : callsFor l s.pending = .off l :: callsFor l ps := by
        rw [hp, callsFor_cons]
        exact if_pos rfl
      rw [hcalls, hc] at hplan
      have hoff : ({ s.leds.led l with lit := false } : AgileLed).Short := h.short l
      have hfinal : ({ s.leds.led l with lit := false } : AgileLed).final = true := by
        rw [hoff.final_eq]
        exact (Bool.or_false _).trans hahead
      have hled : ((LedCall.off l).run now s.leds).led l = { s.leds.led l with lit := false } :=
        Function.update_self ..
      have hmine : callsFor l ps = [] ∧ l ∉ c.shows := by
        generalize htodo : LedCall.off l :: callsFor l ps = todo at hplan
        cases hplan with
        | stopped hs => exact ⟨(List.cons.inj htodo).2, hs⟩
        | bare hs => exact ⟨(List.cons.inj htodo).2, hs⟩
        | _ => cases htodo
      exact ⟨l, c, ⟨(LedCall.off l).run_listed now h.listed, hmine.1, hled ▸ hfinal, hc⟩, hmine.2⟩
    · cases hq

/-- After a call that `Relit` names the lamps do not show the last command, however long one waits,
unless another command is called. -/
theorem relit_notShown {s t u : Lamps} {a : LampAct} (h : s.Inv) (hq : Relit s a = true)
    (ht : s.step a = some t) {as : List LampAct} (has : ∀ a ∈ as, ∀ c, a ≠ .call c)
    (hu : exec Lamps.step t as = some u) (hp : u.pending = [])
    (hidle : ∀ l, (u.leds.led l).active = false) : ¬ ShowsLast u := by
  have hrun : ∀ (as : List LampAct) {l c} {t : Lamps}, t.Wrong l c →
      (∀ a ∈ as, ∀ c, a ≠ .call c) → exec Lamps.step t as = some u → u.Wrong l c := by
    intro as
    induction as with
    | nil => exact fun hw _ he => Option.some.inj he ▸ hw
    | cons a as ih =>
      intro l c t hw has he
      obtain ⟨v, hv, he⟩ := Option.bind_eq_some_iff.1 he
      exact ih (Lamps.wrong_step hw hv (has a List.mem_cons_self))
        (fun a ha => has a (List.mem_cons_of_mem _ ha)) he
  obtain ⟨l, c, hw, hs⟩ := Lamps.wrong_of_relit h hq ht
  have hfinal := hrun as hw has hu
  intro hshow
  have hlit := hshow hp hidle l
  rw [← AgileLed.final_inactive _ (hidle l), hfinal.final, Lamps.shown, hfinal.last] at hlit
  simp [hs] at hlit

end Spsi
