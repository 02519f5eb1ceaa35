import SpsiMaster.App.Proof.DeadLink
import SpsiMaster.App.Proof.Observe

/-!
# One alarm per outage

`Outage` is what the flags of a radio have to do with its alarms: a radio that is declared offline
raises an alarm if it was alive or has never been started, and a radio that is found alive clears
it. `Outage.Paired` is the invariant of its operations; `outage` makes it a view of the program.

`alarm_onePerOutage`: along every schedule the offline events of a radio are separated by
recoveries, and a radio that is declared offline while alive, or before it was started, posts its
event once.
-/

namespace Spsi

open Run World

/-! ## Outages -/

inductive Alarm where
  | raised
  | cleared
  deriving DecidableEq

/-- The flags of a radio and its alarms, newest first. -/
structure Outage where
  alive : Bool
  startup : Bool
  alarms : List Alarm

namespace Outage

variable (o : Outage)

def revive : Outage := { alive := true, startup := true, alarms := .cleared :: o.alarms }

def offline : Outage :=
  if o.alive = true ∨ o.startup = false then
    { alive := false, startup := o.startup || !o.alive, alarms := .raised :: o.alarms }
  else o

/-- An alarm that is not cleared belongs to a radio that is started and not alive, and no alarm
was raised during another. -/
structure Paired : Prop where
  startup : o.alive = true → o.startup = true
  pending : o.alive = true ∨ o.startup = false →
    Hist.since (· = Alarm.raised) (· = Alarm.cleared) o.alarms = false
  separated : Hist.Separated (· = Alarm.raised) (· = Alarm.cleared) o.alarms

variable {o}

theorem Paired.revive (h : o.Paired) : o.revive.Paired where
  startup := fun _ => rfl
  pending := fun _ => rfl
  separated := ⟨fun he => (nomatch he), h.separated⟩

/-- An alarm leaves the radio started and not alive. -/
theorem Paired.offline_raised (h : o.Paired) (hr : o.alive = true ∨ o.startup = false) :
    o.offline = { alive := false, startup := true, alarms := .raised :: o.alarms } := by
  have hs : (o.startup || !o.alive) = true := by
    cases ha : o.alive with
    | true => rw [h.startup ha]; rfl
    | false => exact Bool.or_true _
  rw [Outage.offline, if_pos hr, hs]

theorem Paired.offline (h : o.Paired) : o.offline.Paired := by
  by_cases hr : o.alive = true ∨ o.startup = false
  · rw [h.offline_raised hr]
    refine ⟨fun ha => (nomatch ha), fun hp => ?_, fun _ => h.pending hr, h.separated⟩
    rcases hp with ha | hs
    · cases ha
    · cases hs
  · rw [Outage.offline, if_neg hr]
    exact h

end Outage

/-! ## The outages of a radio -/

/-- The event as an alarm of `r`. -/
def Ev.alarm (r : Radio) : Ev → Option Alarm
  | .posted (.offline r') => if r' = r then some .raised else none
  | .revived r' => if r' = r then some .cleared else none
  | _ => none

def World.outage (r : Radio) (w : World) : Outage where
  alive := (w.info r).alive
  startup := (w.info r).startup
  alarms := w.hist.filterMap (Ev.alarm r)

namespace World

variable (r : Radio) (w : World)

theorem outage_eq {w t : World} (ha : (t.info r).alive = (w.info r).alive)
    (hs : (t.info r).startup = (w.info r).startup)
    (hx : Hist.Extends (fun e => (e.alarm r).isNone) w.hist t.hist) :
    t.outage r = w.outage r := by
  obtain ⟨es, he, hes⟩ := hx
  have hnone : es.filterMap (Ev.alarm r) = [] :=
    List.filterMap_eq_nil_iff.2 fun e hm => Option.isNone_iff_eq_none.1 (hes e hm)
  rw [outage, outage, ha, hs, he, List.filterMap_append, hnone]
  rfl

theorem revive_outage (r' : Radio) :
    (w.revive r').outage r = if r' = r then (w.outage r).revive else w.outage r := by
  by_cases hr : r' = r
  · subst hr
    simp [outage, Outage.revive, Ev.alarm]
  · simp [outage, Ev.alarm, hr, Ne.symm hr]

theorem rfOffline_outage (r' : Radio) :
    (w.rfOffline r').outage r = if r' = r then (w.outage r).offline else w.outage r := by
  by_cases hr : r' = r
  · subst hr
    have hi : ((w.rfOffline r').info r') = { w.info r' with
        alive := false, startup := (w.info r').startup || !(w.info r').alive } := by
      rw [rfOffline_info, Function.update_self]
    rw [if_pos rfl, Outage.offline]
    split
    · next hp =>
      have hp : (w.info r').alive = true ∨ (w.info r').startup = false := hp
      rw [outage, hi, rfOffline_hist, if_pos hp]
      simp [outage, Ev.alarm]
    · next hp =>
      have hp : ¬ ((w.info r').alive = true ∨ (w.info r').startup = false) := hp
      have ha : (w.info r').alive = false := by simpa using (not_or.1 hp).1
      have hs : (w.info r').startup = true := by simpa using (not_or.1 hp).2
      rw [outage, hi, rfOffline_hist, if_neg hp, outage, ha, hs]
      rfl
  · rw [if_neg hr]
    refine outage_eq r ?_ ?_ ?_
    · simp [Ne.symm hr]
    · simp [Ne.symm hr]
    · rw [rfOffline_hist]
      split
      · exact .cons (by simp [Ev.alarm, hr]) (.refl _)
      · exact .refl _

end World

/-- The outages of `r` as a view of the links. -/
def outages (r : Radio) : Observation Outage where
  view := World.outage r
  revive := fun r' o => if r' = r then o.revive else o
  offline := fun r' o => if r' = r then o.offline else o
  judge := fun _ _ o => o
  close := fun o => o
  view_heart := fun w t hi _ _ hx => by rw [outage, outage, hi, hx]
  view_info := fun w r' f ha hs => by
    refine outage_eq r ?_ ?_ (.refl _)
    · exact field_update w r' RfInfo.alive r (ha _)
    · exact field_update w r' RfInfo.startup r (hs _)
  view_log := fun w e he => by
    refine outage_eq r rfl rfl (.cons ?_ (.refl _))
    cases e <;> first | rfl | cases he
  view_revive := fun w r' => revive_outage r w r'
  view_offline := fun w r' => rfOffline_outage r w r'
  view_judge := fun w r' ok => outage_eq r rfl rfl (.cons rfl (.refl _))
  view_close := fun w => outage_eq r rfl rfl (.cons rfl (.refl _))

/-! ## Every step -/

/-- The steps of the other threads raise and clear no alarm. -/
theorem accept_outage (r : Radio) (w : World) (r' : Radio) (rssi c d : Int) :
    (accept r' w rssi c d).outage r = w.outage r := by
  obtain ⟨-, hi, -, h, hx, he⟩ := accept_spec r' w rssi c d
  have hflags : ((accept r' w rssi c d).info r).alive = (w.info r).alive ∧
      ((accept r' w rssi c d).info r).startup = (w.info r).startup := by
    rw [hi]
    exact ⟨field_update w r' RfInfo.alive r rfl, field_update w r' RfInfo.startup r rfl⟩
  have hframe : Hist.Extends (fun e => (e.alarm r).isNone) w.hist
      (.posted (.online r') :: .accepted r' c d :: w.hist) := .cons rfl (.cons rfl (.refl _))
  refine outage_eq r hflags.1 hflags.2 ?_
  rw [he]
  refine .cons rfl (hframe.trans (hx.mono fun e ho => ?_))
  cases e <;> first | rfl | cases ho

theorem warnCallback_outage (r : Radio) (w : World) :
    w.warnCallback.outage r = w.outage r := by
  refine outage_eq r (by rw [w.warnCallback_info]) (by rw [w.warnCallback_info])
    (w.warnCallback_extends.mono fun e he => ?_)
  cases e <;> first | rfl | cases he

theorem QuietStep.outage {w t : World} (h : QuietStep w t) (r : Radio) :
    t.outage r = w.outage r := by
  refine outage_eq r (by rw [h.info]) (by rw [h.info]) (h.hist.mono fun e ho => ?_)
  cases e <;> first | rfl | cases ho

/-- Every operation keeps the invariant, and so does every step. -/
theorem paired_step (r : Radio) (w : World) (a : Act) (t : World) (h : (w.outage r).Paired)
    (ht : w.step a = some t) : (t.outage r).Paired := by
  have hrevive : ∀ r' o, o.Paired → ((outages r).revive r' o).Paired := by
    intro r' o ho
    unfold outages
    dsimp only
    split
    · exact ho.revive
    · exact ho
  have hoffline : ∀ r' o, o.Paired → ((outages r).offline r' o).Paired := by
    intro r' o ho
    unfold outages
    dsimp only
    split
    · exact ho.offline
    · exact ho
  have hjudge : ∀ r' ok o, o.Paired → ((outages r).judge r' ok o).Paired := fun _ _ _ ho => ho
  cases step_case ht with
  | heart rand =>
    exact Observation.heartCallback_keeps hrevive hoffline hjudge w rand h
  | button =>
    exact Observation.buttontestCallback_keeps hrevive hoffline hjudge (fun _ ho => ho) w h
  | press => exact h
  | heartTimer => exact h
  | connectTimer => exact h
  | accept r' rssi _ _ _ c d =>
    rw [accept_outage]
    exact h
  | warn =>
    rw [warnCallback_outage]
    exact h
  | quiet _ _ _ hs =>
    rw [hs.outage]
    exact h

theorem paired_init (r : Radio) : (World.init.outage r).Paired where
  startup := fun h => nomatch h
  pending := fun _ => rfl
  separated := trivial

/-- What a view sees of a fourth attempt that fails. -/
theorem failsAt_view {β : Type} (o : Observation β) {w t : World} {r : Radio} {a : Act}
    (hf : FailsAt w r a) (ht : w.step a = some t) : o.view t = o.attempt r 3 false (o.view w) := by
  cases a with
  | heart rand =>
    cases ht
    obtain ⟨hpc, hsem, hm, hi, hretry, hrec⟩ := hf
    have h := o.heartCallback_check w rand hpc hsem hm
    rw [hi, hretry, hrec] at h
    exact h
  | button =>
    cases ht
    obtain ⟨hpc, hrec⟩ := hf
    have h := o.buttontestCallback_wait w r hpc
    rw [hrec] at h
    exact h
  | _ => exact hf.elim

/-- It declares its radio offline. -/
theorem failsAt_outage {w t : World} {r : Radio} {a : Act} (hf : FailsAt w r a)
    (ht : w.step a = some t) : t.outage r = (w.outage r).offline :=
  (failsAt_view (outages r) hf ht).trans (if_pos rfl)

/-- A step that raises an alarm sets the bit of its event, and no other. -/
theorem failsAt_event {w t : World} {r : Radio} {a : Act} (hf : FailsAt w r a)
    (ht : w.step a = some t) (hr : (w.info r).alive = true ∨ (w.info r).startup = false) :
    t.event = Function.update w.event (.offline r) true := by
  have hlink : t.link = (w.link.offline r).judge r false :=
    (failsAt_view links hf ht).trans (links_attempt r 3 false w.link)
  exact (congrArg Link.event hlink).trans (if_pos hr)

/-! ## Along schedules -/

/-- A radio that is alive is started, and between any two offline events of it is a recovery. -/
def OneAlarm (r : Radio) (w : World) : Prop :=
  ((w.info r).alive = true → (w.info r).startup = true) ∧
    ∀ xs ys zs, w.hist = xs ++ .posted (.offline r) :: (ys ++ .posted (.offline r) :: zs) →
      .revived r ∈ ys

/-- A step that declares a radio offline which is alive or has never been started posts its event
once, which sets the bit of the event in `rf_event` and no other, and leaves the radio started and
not alive. -/
def AlarmsOnce (w : World) (a : Act) (t : World) : Prop :=
  ∀ r, FailsAt w r a → (w.info r).alive = true ∨ (w.info r).startup = false →
    t.hist.count (.posted (.offline r)) = w.hist.count (.posted (.offline r)) + 1 ∧
      t.event = Function.update w.event (.offline r) true ∧
      (t.info r).alive = false ∧ (t.info r).startup = true

theorem alarm_eq_raised {r : Radio} {e : Ev} :
    (e.alarm r).any (· = .raised) = true ↔ e = .posted (.offline r) := by
  cases e with
  | posted b =>
    cases b with
    | offline r' => by_cases hr : r' = r <;> simp [Ev.alarm, hr]
    | online r' => simp [Ev.alarm]
  | revived r' => by_cases hr : r' = r <;> simp [Ev.alarm, hr]
  | _ => simp [Ev.alarm]

theorem alarm_eq_cleared {r : Radio} {e : Ev} :
    (e.alarm r).any (· = .cleared) = true ↔ e = .revived r := by
  cases e with
  | posted b =>
    cases b with
    | offline r' => by_cases hr : r' = r <;> simp [Ev.alarm, hr]
    | online r' => simp [Ev.alarm]
  | revived r' => by_cases hr : r' = r <;> simp [Ev.alarm, hr]
  | _ => simp [Ev.alarm]

theorem oneAlarm_of_paired {r : Radio} {w : World} (h : (w.outage r).Paired) : OneAlarm r w := by
  refine ⟨h.startup, fun xs ys zs he => ?_⟩
  have hs := Hist.separated_filterMap h.separated
  obtain ⟨e, hm, he⟩ := hs.between he (alarm_eq_raised.2 rfl) (alarm_eq_raised.2 rfl)
    (by simp [Ev.alarm])
  exact alarm_eq_cleared.1 he ▸ hm

/-- The offline events of a radio are its alarms. -/
theorem count_raised (r : Radio) (w : World) :
    (w.outage r).alarms.count .raised = w.hist.count (.posted (.offline r)) := by
  simp only [outage]
  induction w.hist with
  | nil => rfl
  | cons e h ih =>
    rw [List.filterMap_cons, List.count_cons, ← ih]
    by_cases he : e = .posted (.offline r)
    · subst he
      simp [Ev.alarm]
    · have hne : e.alarm r ≠ some .raised := fun ha => he (alarm_eq_raised.1 (by rw [ha]; rfl))
      cases ha : e.alarm r with
      | none => simp [he]
      | some x =>
        have hx : x ≠ .raised := fun hx => hne (by rw [ha, hx])
        simp [he, hx]

theorem alarmsOnce_of_paired {w t : World} {a : Act} (h : ∀ r, (w.outage r).Paired)
    (ht : w.step a = some t) : AlarmsOnce w a t := by
  intro r hf hr
  have ho : t.outage r = { alive := false, startup := true, alarms :=
      .raised :: (w.outage r).alarms } := (failsAt_outage hf ht).trans ((h r).offline_raised hr)
  refine ⟨?_, failsAt_event hf ht hr, congrArg Outage.alive ho, congrArg Outage.startup ho⟩
  rw [← count_raised, ← count_raised, ho, List.count_cons_self]

/-- **One alarm per outage**, along every schedule. -/
theorem alarm_onePerOutage (as : List Act) :
    Along World.step (fun w => ∀ r, OneAlarm r w) World.init as ∧
      Steps World.step AlarmsOnce World.init as := by
  have hinv : Along World.step (fun w => ∀ r, (w.outage r).Paired) World.init as :=
    along_of_step (fun w a t h ht r => paired_step r w a t (h r) ht) paired_init as
  refine ⟨hinv.mono fun w h r => oneAlarm_of_paired (h r), ?_⟩
  exact hinv.steps.mono fun w a t ht h => alarmsOnce_of_paired h.1 ht

/-- Eight failed tests, four of each radio in turn, raise one alarm each. -/
example : (exec World.step World.init ([.button] ++ failedTests ++ failedTests)).map
    (fun w => ((w.outage .rf433).alarms, (w.outage .rf4068).alarms)) =
      some ([.raised], [.raised]) := by
  decide +kernel

end Spsi
