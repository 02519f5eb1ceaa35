import SpsiMaster.Lib.Deadlines
import SpsiMaster.Rtos.SoftTimer

/-!
# The timer list keeps the deadlines

`timerList_refines_deadlines`: while no start is further ahead and no timer is further behind than
the 32 bits of a tick can tell, the list of the software timers does what timers with an unbounded
clock do (`Deadlines.step`): a callback is called for a timer whose deadline has come, in the
order of the deadlines and, for equal ones, of the starts; and when the loop of
`rt_soft_timer_check` ends, no deadline has come.
-/

namespace Rtos

open Run Deadlines

namespace SoftTimers

variable {τ : Type} [DecidableEq τ]

/-- What the comparisons of the source rely on: every timer is set to `far` ticks or less, and a
timer in the list is at most `late` ticks overdue, or has at most `far` ticks to go. -/
def InWindow (far late : Nat) (s : SoftTimers τ) : Prop :=
  (∀ t, (s.obj t).initTick ≤ far) ∧ ∀ t ∈ s.list,
    tickSub s.tick (s.obj t).timeoutTick ≤ late ∨ tickSub (s.obj t).timeoutTick s.tick ≤ far

/-- The list holds the armed timers of `d` in the order of expiry. -/
structure Tracks (far late : Nat) (s : SoftTimers τ) (d : Deadlines.State τ) : Prop where
  now : s.tick = d.now % tickPeriod
  mem : ∀ t, t ∈ s.list ↔ (d.due t).isSome
  read : ∀ t p, d.due t = some p → (s.obj t).timeoutTick = p.1 % tickPeriod
  fresh : ∀ t p, d.due t = some p → p.2 < d.starts
  near : ∀ t p, d.due t = some p → d.now ≤ p.1 + late ∧ p.1 ≤ d.now + far
  ordered : Ordered (fun t => (d.due t).getD (0, 0)) s.list

/-- The abstract operations of a step. -/
def timerOps (s : SoftTimers τ) : TimerAct τ → List (Op τ)
  | .tick => [.tick]
  | .start t => [.arm t (s.obj t).initTick]
  | .stop t => if (s.obj t).activated then [.disarm t] else []
  | .control _ _ => []
  | .thread =>
    match s.pc, s.list with
    | .check, t :: _ => if notBefore s.tick (s.obj t).timeoutTick then [.expire t] else [.rest]
    | .check, [] => [.rest]
    | .callback t, _ =>
      if s.pending ≠ none ∧ (s.obj t).periodic ∧ (s.obj t).activated then
        [.arm t (s.obj t).initTick]
      else []
    | _, _ => []

/-! ## Readings -/

omit [DecidableEq τ] in
theorem timerInsert_eq (obj : τ → TimerObj) (timer : τ) (ts : List τ) :
    timerInsert obj timer ts = Deadlines.insert (fun t =>
      tickSub (obj t).timeoutTick (obj timer).timeoutTick ≠ 0 &&
        notBefore (obj t).timeoutTick (obj timer).timeoutTick) timer ts := by
  induction ts with
  | nil => rfl
  | cons t ts ih =>
    rw [timerInsert, Deadlines.insert, ih]
    by_cases h0 : tickSub (obj t).timeoutTick (obj timer).timeoutTick = 0
    · simp [h0]
    · simp [h0]

section
variable {a b k : Nat} (hk : k < tickMax / 2) (hab : a ≤ b + k) (hba : b ≤ a + k)
include hk hab hba

/-- Two ticks less than half a period apart are compared as they are. -/
theorem notBefore_iff : notBefore (a % tickPeriod) (b % tickPeriod) = true ↔ b ≤ a := by
  unfold tickMax at hk
  have h := Serial.sub_lt_iff (M := tickPeriod) (a := a) (b := b) (h := tickMax / 2)
    (by decide) (by unfold tickMax; omega) (by unfold tickPeriod tickMax; omega)
  exact decide_eq_true_iff.trans h

theorem tickSub_eq_zero_iff : tickSub (a % tickPeriod) (b % tickPeriod) = 0 ↔ a = b := by
  unfold tickMax at hk
  exact Serial.sub_eq_zero_iff (by unfold tickPeriod; omega) (by unfold tickPeriod; omega)

theorem later_iff : (decide (tickSub (a % tickPeriod) (b % tickPeriod) ≠ 0) &&
    notBefore (a % tickPeriod) (b % tickPeriod)) = true ↔ b < a := by
  rw [Bool.and_eq_true, decide_eq_true_iff, Ne, tickSub_eq_zero_iff hk hab hba,
    notBefore_iff hk hab hba]
  omega

end

/-- A tick that is `late` ticks behind stays so while the next one is in the window. -/
theorem late_of_window {far late now p : Nat} (hw : far + late < tickMax / 2)
    (hlate : now ≤ p + late) (hfar : p ≤ now + far)
    (hwin : tickSub ((now + 1) % tickPeriod) (p % tickPeriod) ≤ late ∨
      tickSub (p % tickPeriod) ((now + 1) % tickPeriod) ≤ far) : now + 1 ≤ p + late := by
  refine Nat.le_of_not_lt fun hover => ?_
  -- one tick more than `late`, and so far more than `far` the other way
  unfold tickMax at hw
  rcases hwin with hin | hin
  · rw [tickSub, Serial.sub_eq (by omega) (by unfold tickPeriod; omega)] at hin
    omega
  · rw [tickSub, Serial.sub_eq_of_lt (by omega) (by unfold tickPeriod; omega)] at hin
    unfold tickPeriod at hin
    omega

/-! ## Operations -/

section
variable {far late : Nat} {s t : SoftTimers τ} {d : Deadlines.State τ}

omit [DecidableEq τ] in
/-- Flags and set times do not matter. -/
theorem Tracks.of_same (h : Tracks far late s d) (htick : t.tick = s.tick) (hlist : t.list = s.list)
    (hread : ∀ u, (t.obj u).timeoutTick = (s.obj u).timeoutTick) : Tracks far late t d :=
  ⟨htick.trans h.now, fun u => hlist ▸ h.mem u, fun u p hp => (hread u).trans (h.read u p hp),
    h.fresh, h.near, hlist ▸ h.ordered⟩

/-- A timer leaves the list. -/
theorem Tracks.erase (h : Tracks far late s d) (u : τ) (htick : t.tick = s.tick)
    (hlist : t.list = s.list.erase u)
    (hread : ∀ v, (t.obj v).timeoutTick = (s.obj v).timeoutTick) :
    Tracks far late t { d with due := Function.update d.due u none } := by
  have hdue : ∀ v p, Function.update d.due u none v = some p → v ≠ u ∧ d.due v = some p := by
    intro v p hp
    by_cases hv : v = u
    · subst hv
      rw [Function.update_self] at hp
      cases hp
    · rw [Function.update_of_ne hv] at hp
      exact ⟨hv, hp⟩
  refine ⟨htick.trans h.now, fun v => ?_, fun v p hp => ?_, fun v p hp => ?_, fun v p hp => ?_, ?_⟩
  · rw [hlist, h.ordered.nodup.mem_erase_iff, h.mem]
    by_cases hv : v = u
    · subst hv
      simp
    · simp [hv]
  · rw [hread]
    exact h.read v p (hdue v p hp).2
  · exact h.fresh v p (hdue v p hp).2
  · exact h.near v p (hdue v p hp).2
  · rw [hlist]
    refine (h.ordered.erase u).congr fun v hv => ?_
    have hne : v ≠ u := (h.ordered.nodup.mem_erase_iff.1 hv).1
    simp only [Function.update_of_ne hne]

/-- A timer that is in no list is put in its place. -/
theorem Tracks.insert (h : Tracks far late s d) (hw : far + late < tickMax / 2) {u : τ}
    (hout : d.due u = none) {ticks : Nat} (hticks : ticks ≤ far) (htick : t.tick = s.tick)
    (hlist : t.list = timerInsert t.obj u s.list)
    (hself : (t.obj u).timeoutTick = (s.tick + ticks) % tickPeriod)
    (hread : ∀ v, v ≠ u → (t.obj v).timeoutTick = (s.obj v).timeoutTick) :
    Tracks far late t { d with
      due := Function.update d.due u (some (d.now + ticks, d.starts))
      starts := d.starts + 1 } := by
  have hself : (t.obj u).timeoutTick = (d.now + ticks) % tickPeriod := by
    rw [hself, h.now, Nat.mod_add_mod]
  have hne : ∀ v ∈ s.list, v ≠ u := by
    intro v hv hvu
    rw [h.mem, hvu, hout] at hv
    cases hv
  have hdue : ∀ v ∈ s.list, ∃ p, d.due v = some p := fun v hv =>
    Option.isSome_iff_exists.1 ((h.mem v).1 hv)
  have hperm : t.list.Perm (u :: s.list) := by
    rw [hlist, timerInsert_eq]
    exact insert_perm _ u s.list
  have hcases : ∀ {P : τ → Due → Prop}, P u (d.now + ticks, d.starts) →
      (∀ v p, v ≠ u → d.due v = some p → P v p) → ∀ v p,
        Function.update d.due u (some (d.now + ticks, d.starts)) v = some p → P v p := by
    intro P hu hv v p hp
    by_cases hvu : v = u
    · subst hvu
      rw [Function.update_self] at hp
      cases hp
      exact hu
    · rw [Function.update_of_ne hvu] at hp
      exact hv v p hvu hp
  refine ⟨htick.trans h.now, fun v => ?_, hcases hself fun v p hv hp => ?_,
    hcases (Nat.lt_succ_self _) fun v p _ hp => Nat.lt_succ_of_lt (h.fresh v p hp),
    hcases ⟨by simp only; omega, by simp only; omega⟩ fun v p _ hp => h.near v p hp, ?_⟩
  · rw [hperm.mem_iff, List.mem_cons, h.mem]
    by_cases hv : v = u
    · subst hv
      simp
    · simp [hv]
  · rw [hread v hv]
    exact h.read v p hp
  · rw [hlist, timerInsert_eq]
    refine Ordered.insert (h.ordered.congr fun v hv => ?_) (fun v hv => ?_) fun v hv => ?_
    · simp only [Function.update_of_ne (hne v hv)]
    · obtain ⟨p, hp⟩ := hdue v hv
      obtain ⟨h1, h2⟩ := h.near v p hp
      rw [hread v (hne v hv), h.read v p hp, hself,
        later_iff (k := far + late) hw (by omega) (by omega)]
      simp only [Function.update_self, Function.update_of_ne (hne v hv), hp, Option.getD_some]
    · obtain ⟨p, hp⟩ := hdue v hv
      simp only [Function.update_self, Function.update_of_ne (hne v hv), hp, Option.getD_some]
      exact h.fresh v p hp

/-- `rt_timer_start` arms the timer, whether it was running or not. -/
theorem Tracks.start (h : Tracks far late s d) (hw : far + late < tickMax / 2)
    (hfar : ∀ v, (s.obj v).initTick ≤ far) {u : τ} (ht : s.timerStart u = some t) :
    ∃ d', exec Deadlines.step d [.arm u (s.obj u).initTick] = some d' ∧ Tracks far late t d' := by
  obtain ⟨-, htick, hobj, hlist, -, -⟩ := timerStart_spec s ht
  have hread : ∀ v, v ≠ u → (t.obj v).timeoutTick = (s.obj v).timeoutTick := fun v hv => by
    rw [hobj, Function.update_of_ne hv]
  have hself : (t.obj u).timeoutTick = (s.tick + (s.obj u).initTick) % tickPeriod := by
    rw [hobj, Function.update_self]
    rfl
  have herase := h.erase (t := { s with list := s.list.erase u }) u rfl rfl fun _ => rfl
  have hins := herase.insert hw (Function.update_self ..) (hfar u) htick hlist hself hread
  simp only [Function.update_idem] at hins
  exact ⟨_, rfl, hins⟩

omit [DecidableEq τ] in
/-- The window after the step bounds the deadlines by what it bounded them before. -/
theorem Tracks.tick (h : Tracks far late s d) (hw : far + late < tickMax / 2)
    (hwin : s.tickIncrease.InWindow far late) :
    Tracks far late s.tickIncrease { d with now := d.now + 1 } := by
  have hsame : s.tickIncrease.tick = (s.tick + 1) % tickPeriod ∧ s.tickIncrease.list = s.list ∧
      s.tickIncrease.obj = s.obj := by
    simp only [tickIncrease]
    split
    · split <;> exact ⟨rfl, rfl, rfl⟩
    · exact ⟨rfl, rfl, rfl⟩
  obtain ⟨htick, hlist, hobj⟩ := hsame
  have hnow : s.tickIncrease.tick = (d.now + 1) % tickPeriod := by
    rw [htick, h.now, Nat.mod_add_mod]
  refine ⟨hnow, fun v => hlist ▸ h.mem v, fun v p hp => hobj ▸ h.read v p hp, h.fresh,
    fun v p hp => ?_, hlist ▸ h.ordered⟩
  obtain ⟨h1, h2⟩ := h.near v p hp
  have hmem : v ∈ s.tickIncrease.list := hlist ▸ (h.mem v).2 (by rw [hp]; rfl)
  have hin := hwin.2 v hmem
  rw [hobj, h.read v p hp, hnow] at hin
  exact ⟨late_of_window hw h1 h2 hin, by simp only; omega⟩

/-- At the head of the loop the next timer expires, or nothing is due. -/
theorem Tracks.check (h : Tracks far late s d) (hw : far + late < tickMax / 2)
    (hpc : s.pc = .check) :
    ∃ d', exec Deadlines.step d (timerOps s .thread) = some d' ∧
      Tracks far late s.softTimerCheck d' := by
  cases hlist : s.list with
  | nil =>
    have hidle : d.Idle := fun v p hp => by
      have hmem := (h.mem v).2 (by rw [hp]; rfl)
      rw [hlist] at hmem
      cases hmem
    refine ⟨d, ?_, h.of_same ?_ ?_ fun _ => ?_⟩
    · simp only [timerOps, hpc, hlist, exec, Deadlines.step, if_pos hidle, Option.bind_some]
    all_goals simp [softTimerCheck, hlist]
  | cons u us =>
    obtain ⟨p, hp⟩ := Option.isSome_iff_exists.1 ((h.mem u).1 (hlist ▸ List.mem_cons_self))
    obtain ⟨h1, h2⟩ := h.near u p hp
    have hord := h.ordered
    rw [hlist] at hord
    have hfirst : ∀ v q, v ≠ u → d.due v = some q → p.Before q := by
      intro v q hv hq
      have hmem : v ∈ us := by
        have hm := (h.mem v).2 (by rw [hq]; rfl)
        rw [hlist] at hm
        exact (List.mem_cons.1 hm).resolve_left hv
      have hb := (List.pairwise_cons.1 hord).1 v hmem
      simpa only [hp, hq, Option.getD_some] using hb
    have hdue : notBefore s.tick (s.obj u).timeoutTick = true ↔ p.1 ≤ d.now := by
      rw [h.now, h.read u p hp]
      exact notBefore_iff (k := far + late) hw (by omega) (by omega)
    by_cases hn : p.1 ≤ d.now
    · have hnext : d.Next u := ⟨p, hp, hn, hfirst⟩
      refine ⟨{ d with due := Function.update d.due u none }, ?_, ?_⟩
      · simp only [timerOps, hpc, hlist, if_pos (hdue.2 hn), exec, Deadlines.step, if_pos hnext,
          Option.bind_some]
      · refine h.erase u ?_ ?_ fun v => ?_
        · simp [softTimerCheck, hlist, hdue.2 hn, setObj, timerRemove]
        · simp [softTimerCheck, hlist, hdue.2 hn, setObj, timerRemove]
        · simp only [softTimerCheck, hlist, if_pos (hdue.2 hn), setObj, timerRemove]
          by_cases hv : v = u
          · subst hv
            rw [Function.update_self]
            split <;> rfl
          · rw [Function.update_of_ne hv]
    · have hidle : d.Idle := fun v q hq => by
        by_cases hv : v = u
        · subst hv
          rw [hp] at hq
          cases hq
          exact Nat.lt_of_not_le hn
        · rcases Due.before_iff.1 (hfirst v q hv hq) with hlt | heq
          · exact Nat.lt_trans (Nat.lt_of_not_le hn) hlt
          · exact heq.1 ▸ Nat.lt_of_not_le hn
      have hf : notBefore s.tick (s.obj u).timeoutTick = false :=
        Bool.eq_false_iff.2 fun ht => hn (hdue.1 ht)
      refine ⟨d, ?_, h.of_same ?_ ?_ fun _ => ?_⟩
      · simp only [timerOps, hpc, hlist, hf, if_neg Bool.false_ne_true, exec, Deadlines.step,
          if_pos hidle, Option.bind_some]
      all_goals simp [softTimerCheck, hlist, hf]

/-- A periodic timer that has been left alone is started again. -/
theorem Tracks.callbackReturn (h : Tracks far late s d) (hw : far + late < tickMax / 2)
    (hfar : ∀ v, (s.obj v).initTick ≤ far) {u : τ} (hpc : s.pc = .callback u)
    (ht : s.callbackReturn u = some t) :
    ∃ d', exec Deadlines.step d (timerOps s .thread) = some d' ∧ Tracks far late t d' := by
  simp only [SoftTimers.callbackReturn] at ht
  simp only [timerOps, hpc]
  by_cases hpend : s.pending = none
  · rw [if_pos hpend] at ht
    rw [if_neg fun hc => hc.1 hpend]
    cases ht
    exact ⟨d, rfl, h.of_same rfl rfl fun _ => rfl⟩
  · rw [if_neg hpend] at ht
    by_cases hper : (s.obj u).periodic = true ∧ (s.obj u).activated = true
    · rw [if_pos hper] at ht
      rw [if_pos ⟨hpend, hper⟩]
      generalize hs₁ : SoftTimers.setObj _ u _ = s₁ at ht
      have hinit : ∀ v, (s₁.obj v).initTick = (s.obj v).initTick ∧
          (s₁.obj v).timeoutTick = (s.obj v).timeoutTick := by
        intro v
        rw [← hs₁]
        by_cases hv : v = u
        · subst hv
          simp [setObj]
        · simp [setObj, hv]
      have h₁ : Tracks far late s₁ d :=
        h.of_same (by rw [← hs₁]; rfl) (by rw [← hs₁]; rfl) fun v => (hinit v).2
      obtain ⟨d', hd, htr⟩ := h₁.start hw (fun v => (hinit v).1 ▸ hfar v) ht
      rw [(hinit u).1] at hd
      exact ⟨d', hd, htr⟩
    · rw [if_neg hper] at ht
      rw [if_neg fun hc => hper hc.2]
      cases ht
      exact ⟨d, rfl, h.of_same rfl rfl fun _ => rfl⟩

theorem tracks_step (hw : far + late < tickMax / 2) {a : TimerAct τ} (h : Tracks far late s d)
    (hs : s.InWindow far late) (ht : t.InWindow far late) (hst : step s a = some t) :
    ∃ d', exec Deadlines.step d (timerOps s a) = some d' ∧ Tracks far late t d' := by
  cases a with
  | tick => cases hst; exact ⟨_, rfl, h.tick hw ht⟩
  | start u => exact h.start hw hs.1 hst
  | stop u =>
    cases hst
    simp only [timerOps, timerStop]
    split
    · refine ⟨_, rfl, h.erase u rfl rfl fun v => ?_⟩
      by_cases hv : v = u
      · subst hv
        simp [setObj, timerRemove]
      · simp [setObj, timerRemove, hv]
    · exact ⟨d, rfl, h⟩
  | control u cmd =>
    cases hst
    refine ⟨d, rfl, h.of_same rfl rfl fun v => ?_⟩
    by_cases hv : v = u
    · subst hv
      cases cmd <;> simp [timerControl, setObj]
    · simp [timerControl, setObj, hv]
  | thread =>
    simp only [step, timerThreadEntry] at hst
    cases hpc : s.pc with
    | top =>
      rw [hpc] at hst
      cases hst
      exact ⟨d, by simp [timerOps, hpc, exec], h.of_same rfl rfl fun _ => rfl⟩
    | decide n =>
      rw [hpc] at hst
      cases hst
      have hsame : (s.timerDecide n).tick = s.tick ∧ (s.timerDecide n).list = s.list ∧
          (s.timerDecide n).obj = s.obj := by
        simp only [timerDecide]
        split
        · exact ⟨rfl, rfl, rfl⟩
        · split <;> exact ⟨rfl, rfl, rfl⟩
      exact ⟨d, by simp [timerOps, hpc, exec],
        h.of_same hsame.1 hsame.2.1 fun v => by rw [hsame.2.2]⟩
    | delay n =>
      rw [hpc] at hst
      cases hst
      exact ⟨d, by simp [timerOps, hpc, exec], h.of_same rfl rfl fun _ => rfl⟩
    | suspended => rw [hpc] at hst; cases hst
    | delaying w => rw [hpc] at hst; cases hst
    | check =>
      rw [hpc] at hst
      cases hst
      exact h.check hw hpc
    | callback u =>
      rw [hpc] at hst
      exact h.callbackReturn hw hs.1 hpc hst

end

/-! ## Runs -/

/-- The timers after `rt_timer_create`, before the first start, at any tick. -/
def init (tick : Nat) (obj : τ → TimerObj) : SoftTimers τ := { tick, obj }

/-- **The timer list refines the deadlines.** In every run whose timers stay in the window (`far`
ticks ahead, `late` ticks behind, together less than `RT_TICK_MAX / 2`), the starts, the stops, the
callbacks and the ends of `rt_soft_timer_check` are a run of the timers with an unbounded clock,
and the list holds the armed ones in the order of expiry. -/
theorem timerList_refines_deadlines {far late tick : Nat} (hw : far + late < tickMax / 2)
    (htick : tick < tickPeriod) (obj : τ → TimerObj) {as : List (TimerAct τ)} {s : SoftTimers τ}
    (he : exec step (init tick obj) as = some s)
    (hwin : Along step (InWindow far late) (init tick obj) as) :
    ∃ d, exec Deadlines.step { now := tick } (labels step timerOps (init tick obj) as) = some d ∧
      Tracks far late s d := by
  have hinit : Tracks far late (init tick obj) { now := tick } :=
    ⟨(Nat.mod_eq_of_lt htick).symm, fun _ => by simp [init], nofun, nofun, nofun,
      List.Pairwise.nil⟩
  exact simulate (fun _ _ _ _ h hs ht hst => tracks_step hw h hs ht hst) hinit hwin he

/-- Two timers, set to 5 and to 3 ticks. -/
def twoTimers (b : Bool) : TimerObj := { initTick := if b then 5 else 3 }

/-- Both are started two ticks before the tick is 0 again; the second one expires first. -/
def acrossZero : List (TimerAct Bool) :=
  [.start true, .start false, .thread, .thread, .thread, .tick, .tick, .tick, .thread, .thread,
    .thread]

instance (far late : Nat) : DecidablePred (InWindow (τ := Bool) far late) := fun _ =>
  inferInstanceAs (Decidable (_ ∧ _))

theorem timerList_refines_deadlines_acrossZero :
    ∃ s, exec step (init 4294967294 twoTimers) acrossZero = some s ∧ s.tick = 1 ∧
      labels step timerOps (init 4294967294 twoTimers) acrossZero =
        [.arm true 5, .arm false 3, .tick, .tick, .tick, .expire false, .rest] ∧
      ∃ d, exec Deadlines.step { now := 4294967294 }
          (labels step timerOps (init 4294967294 twoTimers) acrossZero) = some d ∧
        Tracks 5 0 s d :=
  ⟨_, rfl, rfl, rfl, timerList_refines_deadlines (by decide) (by decide) twoTimers rfl (by decide)⟩

end SoftTimers

end Rtos
