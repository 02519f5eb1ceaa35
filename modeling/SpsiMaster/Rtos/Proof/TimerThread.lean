import SpsiMaster.Rtos.Proof.TimerList

/-!
# The flags of the timers and the timer thread

`timers_refine_flags`: the software timers refine the timers that the application is modelled on
(`Rtos.Timer`): a callback is called only for a timer that is armed.

`activated_iff`: `RT_TIMER_FLAG_ACTIVATED` tells what is in the list, or will be again after its
callback, in every run in which no running periodic timer is made a one-shot timer in its own
callback, and in no other.

`thread_rested_iff`: the timer thread suspends itself for an empty list only and does not sleep past
a deadline, exactly if it never finds a timer that is due at tick `RT_TICK_MAX` at the head of the
list, provided that no timer is started between its look at the list and its delay, and that the
tick does not move between its reading and the delay.
-/

namespace Rtos

open Run

namespace SoftTimers

variable {τ : Type} [DecidableEq τ] {s t : SoftTimers τ}

/-! ## The steps of the thread -/

/-- Outside a callback a step moves the thread or calls the callback of the timer at the head. -/
theorem thread_cases (h : s.timerThreadEntry = some t) :
    (∃ pc, (∀ u, s.pc ≠ .callback u) ∧ (∀ u, pc ≠ .callback u) ∧ t = { s with pc }) ∨
    (∃ u us, s.pc = .check ∧ s.list = u :: us ∧ t = { s with
      obj := Function.update s.obj u
        (if (s.obj u).periodic then s.obj u else { s.obj u with activated := false })
      list := us
      pending := some u
      pc := .callback u }) ∨
    ∃ u, s.pc = .callback u ∧ s.callbackReturn u = some t := by
  unfold timerThreadEntry at h
  cases hpc : s.pc with
  | top => rw [hpc] at h; cases h; exact .inl ⟨_, by simp, by simp, rfl⟩
  | decide n =>
    rw [hpc] at h
    cases h
    simp only [timerDecide]
    split
    · exact .inl ⟨_, by simp, by simp, rfl⟩
    · split
      · exact .inl ⟨_, by simp, by simp, rfl⟩
      · exact .inl ⟨_, by simp, by simp, rfl⟩
  | delay n => rw [hpc] at h; cases h; exact .inl ⟨_, by simp, by simp, rfl⟩
  | suspended => rw [hpc] at h; cases h
  | delaying w => rw [hpc] at h; cases h
  | check =>
    rw [hpc] at h
    cases h
    unfold softTimerCheck
    cases hlist : s.list with
    | nil => exact .inl ⟨_, by simp, by simp, rfl⟩
    | cons u us =>
      simp only
      split
      · refine .inr (.inl ⟨u, us, trivial, rfl, ?_⟩)
        simp [setObj, timerRemove, hlist]
      · exact .inl ⟨_, by simp, by simp, rfl⟩
  | callback u =>
    rw [hpc] at h
    exact .inr (.inr ⟨u, rfl, h⟩)

/-- The return from a callback: the timer has been started or removed meanwhile; or it is taken
off the temporary list, and a periodic one that is still active is started. -/
theorem callbackReturn_cases {u : τ} (h : s.callbackReturn u = some t) :
    s.pending = none ∧ t = { s with pc := .check } ∨
    s.pending ≠ none ∧ ¬ ((s.obj u).periodic = true ∧ (s.obj u).activated = true) ∧
      t = { s with pc := .check, pending := none } ∨
    s.pending ≠ none ∧ (s.obj u).periodic = true ∧ (s.obj u).activated = true ∧
      { s with
        obj := Function.update s.obj u { s.obj u with activated := false }
        pc := .check
        pending := none }.timerStart u = some t := by
  simp only [callbackReturn] at h
  split at h
  · next hp => cases h; exact .inl ⟨hp, rfl⟩
  · next hp =>
    split at h
    · next hf => exact .inr (.inr ⟨hp, hf.1, hf.2, h⟩)
    · next hf => cases h; exact .inr (.inl ⟨hp, hf, rfl⟩)

/-! ## The lists and the flags -/

/-- Every timer is in one list at most, and those of `_soft_timer_list` are activated. -/
structure Linked (s : SoftTimers τ) : Prop where
  nodup : s.list.Nodup
  active : ∀ t ∈ s.list, (s.obj t).activated = true
  apart : ∀ t, s.pending = some t → t ∉ s.list
  running : ∀ t, s.pending = some t → s.pc = .callback t

theorem Linked.start (h : Linked s) {u : τ} (ht : s.timerStart u = some t) : Linked t := by
  obtain ⟨-, -, hobj, hlist, hpend, hpc⟩ := timerStart_spec s ht
  have hperm : t.list.Perm (u :: s.list.erase u) := by
    rw [hlist, timerInsert_eq]
    exact Deadlines.insert_perm _ u _
  have hsome : ∀ v, t.pending = some v → s.pending = some v ∧ v ≠ u := by
    intro v hv
    rw [hpend] at hv
    split at hv
    · cases hv
    · next hne => exact ⟨hv, fun hvu => hne (hvu ▸ hv)⟩
  refine ⟨hperm.nodup_iff.2 (List.nodup_cons.2 ⟨h.nodup.not_mem_erase, h.nodup.erase u⟩),
    fun v hv => ?_, fun v hv hmem => ?_, fun v hv => ?_⟩
  · rw [hobj]
    by_cases hvu : v = u
    · subst hvu
      rw [Function.update_self]
      rfl
    · rw [Function.update_of_ne hvu]
      have hmem := (List.mem_cons.1 (hperm.mem_iff.1 hv)).resolve_left hvu
      exact h.active v (List.mem_of_mem_erase hmem)
  · obtain ⟨hs, hvu⟩ := hsome v hv
    have hmem := (List.mem_cons.1 (hperm.mem_iff.1 hmem)).resolve_left hvu
    exact h.apart v hs (List.mem_of_mem_erase hmem)
  · rw [hpc, h.running v (hsome v hv).1]
    rfl

/-- The timer of a callback, not in the temporary list any more. -/
theorem Linked.returned (h : Linked s) {u : τ} (hpc : s.pc = .callback u) (hp : s.pending ≠ none) :
    Linked { s with
      obj := Function.update s.obj u { s.obj u with activated := false }
      pc := .check
      pending := none } := by
  obtain ⟨v, hv⟩ := Option.ne_none_iff_exists'.1 hp
  have hvu : v = u := TimerPc.callback.inj ((h.running v hv).symm.trans hpc)
  subst hvu
  refine ⟨h.nodup, fun w hw => ?_, nofun, nofun⟩
  have hne : w ≠ v := fun hwv => h.apart v hv (hwv ▸ hw)
  simp only [Function.update_of_ne hne]
  exact h.active w hw

theorem Linked.thread (h : Linked s) (ht : s.timerThreadEntry = some t) : Linked t := by
  rcases thread_cases ht with ⟨pc, hpc, -, rfl⟩ | ⟨u, us, hpc, hlist, rfl⟩ | ⟨u, hpc, ht⟩
  · exact ⟨h.nodup, h.active, h.apart, fun v hv => absurd (h.running v hv) (hpc v)⟩
  · have hnodup := h.nodup
    rw [hlist] at hnodup
    obtain ⟨hu, hus⟩ := List.nodup_cons.1 hnodup
    refine ⟨hus, fun v hv => ?_, fun v hv hmem => ?_, fun v hv => ?_⟩
    · have hne : v ≠ u := fun hvu => hu (hvu ▸ hv)
      simp only [Function.update_of_ne hne]
      exact h.active v (hlist ▸ List.mem_cons_of_mem u hv)
    · cases hv
      exact hu hmem
    · cases hv
      rfl
  · rcases callbackReturn_cases ht with ⟨hp, rfl⟩ | ⟨-, -, rfl⟩ | ⟨hp, -, -, ht⟩
    · exact ⟨h.nodup, h.active, h.apart, fun v hv => by simp only [hp] at hv; cases hv⟩
    · exact ⟨h.nodup, h.active, nofun, nofun⟩
    · exact (h.returned hpc hp).start ht

theorem linked_step {a : TimerAct τ} (h : Linked s) (ht : step s a = some t) : Linked t := by
  cases a with
  | tick =>
    cases ht
    simp only [tickIncrease]
    split
    · next w hpc =>
      split
      · refine ⟨h.nodup, h.active, h.apart, fun v hv => ?_⟩
        have hcall := h.running v hv
        rw [hpc] at hcall
        cases hcall
      · exact ⟨h.nodup, h.active, h.apart, h.running⟩
    · exact ⟨h.nodup, h.active, h.apart, h.running⟩
  | start u => exact h.start ht
  | stop u =>
    cases ht
    unfold timerStop
    split
    · refine ⟨h.nodup.erase u, fun v hv => ?_, fun v hv hmem => ?_, fun v hv => ?_⟩
      · have hne : v ≠ u := (h.nodup.mem_erase_iff.1 hv).1
        simp only [setObj, Function.update_of_ne hne]
        exact h.active v (List.mem_of_mem_erase hv)
      · simp only [setObj, timerRemove] at hv
        split at hv
        · cases hv
        · exact h.apart v hv (List.mem_of_mem_erase hmem)
      · simp only [setObj, timerRemove] at hv
        split at hv
        · cases hv
        · exact h.running v hv
    · exact h
  | control u cmd =>
    cases ht
    refine ⟨h.nodup, fun v hv => ?_, h.apart, h.running⟩
    have hact := h.active v hv
    by_cases hvu : v = u
    · subst hvu
      simp only [timerControl, setObj, Function.update_self]
      cases cmd <;> exact hact
    · simp only [timerControl, setObj, Function.update_of_ne hvu]
      exact hact
  | thread => exact h.thread ht

omit [DecidableEq τ] in
theorem linked_init (tick : Nat) (obj : τ → TimerObj) : Linked (init tick obj) :=
  ⟨List.nodup_nil, nofun, nofun, nofun⟩

/-! ## The timers of the application -/

/-- The operations on the timers of the application (`Rtos.Timer`). `ring` is the call of the
timeout function of a periodic timer, which stays armed. -/
inductive FlagOp (τ : Type) where
  | start (t : τ)
  | stop (t : τ)
  | setTime (t : τ) (time : Nat)
  | expire (t : τ)
  | ring (t : τ)
  deriving DecidableEq

def flagStep : Run.Step (τ → Timer) (FlagOp τ)
  | f, .start t => some (Function.update f t (f t).start)
  | f, .stop t => some (Function.update f t (f t).stop)
  | f, .setTime t time => some (Function.update f t ((f t).setTime time))
  | f, .expire t => if (f t).armed then some (Function.update f t (f t).expire) else none
  | f, .ring t => if (f t).armed then some f else none

/-- The timers as the application sees them. -/
def flags (s : SoftTimers τ) (t : τ) : Timer := ⟨(s.obj t).activated, (s.obj t).initTick⟩

/-- The operations of a step. -/
def flagOps (s : SoftTimers τ) : TimerAct τ → List (FlagOp τ)
  | .tick => []
  | .start t => [.start t]
  | .stop t => if (s.obj t).activated then [.stop t] else []
  | .control t (.setTime time) => [.setTime t time]
  | .control _ _ => []
  | .thread =>
    match s.pc, s.list with
    | .check, t :: _ =>
      if notBefore s.tick (s.obj t).timeoutTick then
        [if (s.obj t).periodic then .ring t else .expire t]
      else []
    | _, _ => []

theorem flags_update {u : τ} {o : TimerObj} (hobj : t.obj = Function.update s.obj u o) :
    t.flags = Function.update s.flags u ⟨o.activated, o.initTick⟩ := by
  funext v
  by_cases hv : v = u
  · subst hv
    simp [flags, hobj]
  · simp [flags, hobj, hv]

omit [DecidableEq τ] in
theorem flags_of_obj (hobj : t.obj = s.obj) : t.flags = s.flags := by
  funext v
  simp only [flags, hobj]

/-- The call of a timeout function finds the timer armed. -/
theorem flags_check (h : Linked s) (hpc : s.pc = .check) :
    exec flagStep s.flags (flagOps s .thread) = some s.softTimerCheck.flags := by
  cases hlist : s.list with
  | nil =>
    simp only [flagOps, hpc, hlist, exec, softTimerCheck]
    exact congrArg some (flags_of_obj rfl)
  | cons u us =>
    have harmed : (s.flags u).armed = true := h.active u (hlist ▸ List.mem_cons_self)
    simp only [flagOps, hpc, hlist, softTimerCheck]
    split
    · cases hper : (s.obj u).periodic with
      | true =>
        simp only [if_true, exec, flagStep, harmed, Option.bind_some]
        refine congrArg some (flags_of_obj ?_).symm
        simp [setObj, timerRemove, hper]
      | false =>
        simp only [Bool.false_eq_true, if_false, exec, flagStep, harmed, if_true,
          Option.bind_some]
        refine congrArg some (flags_update (o := { s.obj u with activated := false }) ?_).symm
        simp [setObj, timerRemove, hper]
    · exact congrArg some (flags_of_obj rfl)

theorem flags_callbackReturn {u : τ} (ht : s.callbackReturn u = some t) : t.flags = s.flags := by
  rcases callbackReturn_cases ht with ⟨-, rfl⟩ | ⟨-, -, rfl⟩ | ⟨-, -, hact, ht⟩
  · exact flags_of_obj rfl
  · exact flags_of_obj rfl
  · obtain ⟨-, -, hobj, -⟩ := timerStart_spec _ ht
    simp only [Function.update_idem, Function.update_self] at hobj
    rw [flags_update hobj]
    have hsame : (⟨true, (s.obj u).initTick⟩ : Timer) = s.flags u := by rw [flags, hact]
    exact (congrArg (Function.update s.flags u) hsame).trans (Function.update_eq_self u s.flags)

theorem flags_step {a : TimerAct τ} (h : Linked s) (ht : step s a = some t) :
    exec flagStep s.flags (flagOps s a) = some t.flags := by
  cases a with
  | tick =>
    cases ht
    refine congrArg some (flags_of_obj ?_).symm
    simp only [tickIncrease]
    split
    · split <;> rfl
    · rfl
  | start u =>
    obtain ⟨-, -, hobj, -⟩ := timerStart_spec s ht
    exact congrArg some (flags_update hobj).symm
  | stop u =>
    cases ht
    simp only [flagOps, timerStop]
    split
    · exact congrArg some (flags_update (o := { s.obj u with activated := false }) rfl).symm
    · rfl
  | control u cmd =>
    cases ht
    have hupd : (s.timerControl u cmd).flags = Function.update s.flags u _ := flags_update rfl
    rw [hupd]
    cases cmd with
    | setTime time => rfl
    | setOneshot => exact congrArg some (Function.update_eq_self u s.flags).symm
    | setPeriodic => exact congrArg some (Function.update_eq_self u s.flags).symm
  | thread =>
    simp only [step, timerThreadEntry] at ht
    cases hpc : s.pc with
    | top => rw [hpc] at ht; cases ht; simp only [flagOps, hpc, exec]; rfl
    | decide n =>
      rw [hpc] at ht
      cases ht
      simp only [flagOps, hpc, exec]
      refine congrArg some (flags_of_obj ?_).symm
      simp only [timerDecide]
      split
      · rfl
      · split <;> rfl
    | delay n => rw [hpc] at ht; cases ht; simp only [flagOps, hpc, exec]; rfl
    | suspended => rw [hpc] at ht; cases ht
    | delaying w => rw [hpc] at ht; cases ht
    | check => rw [hpc] at ht; cases ht; exact flags_check h hpc
    | callback u =>
      rw [hpc] at ht
      simp only [flagOps, hpc, exec]
      exact congrArg some (flags_callbackReturn ht).symm

/-- **The software timers refine those of the application**, in every run: the starts, the stops
and the calls of the timeout functions are operations that `Rtos.Timer` allows, and the two always
agree which timers are armed and what they are set to. -/
theorem timers_refine_flags (tick : Nat) (obj : τ → TimerObj) {as : List (TimerAct τ)}
    {s : SoftTimers τ} (he : exec step (init tick obj) as = some s) :
    exec flagStep (init tick obj).flags (labels step flagOps (init tick obj) as) =
      some s.flags := by
  have htrue : Along step (fun _ => True) (init tick obj) as :=
    along_of_step (fun _ _ _ _ _ => trivial) trivial as
  obtain ⟨f, hf, hflags, -⟩ := simulate (R := fun s f => f = s.flags ∧ Linked s)
    (fun s a t f h _ _ ht => by
      obtain ⟨rfl, hl⟩ := h
      exact ⟨t.flags, flags_step hl ht, rfl, linked_step hl ht⟩)
    ⟨rfl, linked_init tick obj⟩ htrue he
  rw [hf, hflags]

/-- The timer that is set to 3 ticks is called, and it is not armed afterwards. -/
theorem timers_refine_flags_acrossZero :
    ∃ s, exec step (init 4294967294 twoTimers) acrossZero = some s ∧
      labels step flagOps (init 4294967294 twoTimers) acrossZero =
        [.start true, .start false, .expire false] ∧
      (s.flags true).armed = true ∧ (s.flags false).armed = false ∧
      exec flagStep (init 4294967294 twoTimers).flags
        (labels step flagOps (init 4294967294 twoTimers) acrossZero) = some s.flags :=
  ⟨_, rfl, rfl, rfl, rfl, @timers_refine_flags _ _ 4294967294 twoTimers acrossZero _ rfl⟩

/-! ## The activated flag -/

/-- The timer of a callback that `rt_soft_timer_check` will start again. -/
def AwaitsRestart (s : SoftTimers τ) (u : τ) : Prop :=
  s.pending = some u ∧ (s.obj u).periodic = true ∧ (s.obj u).activated = true

/-- The flag is set for the timers in the list and for the one that will be put back. -/
def FlagsTell (s : SoftTimers τ) : Prop :=
  ∀ u, (s.obj u).activated = true ↔ u ∈ s.list ∨ s.AwaitsRestart u

/-- A periodic timer is made a one-shot timer while its callback runs. -/
def Strands (s : SoftTimers τ) (a : TimerAct τ) : Prop :=
  ∃ u, a = .control u .setOneshot ∧ s.pending = some u ∧ (s.obj u).activated = true

theorem flagsTell_start (hl : Linked s) (h : FlagsTell s) {u : τ} (ht : s.timerStart u = some t) :
    FlagsTell t := by
  obtain ⟨-, -, hobj, hlist, hpend, -⟩ := timerStart_spec s ht
  have hperm : t.list.Perm (u :: s.list.erase u) := by
    rw [hlist, timerInsert_eq]
    exact Deadlines.insert_perm _ u _
  intro v
  rw [hperm.mem_iff, List.mem_cons, hl.nodup.mem_erase_iff]
  by_cases hv : v = u
  · subst hv
    simp [hobj, TimerObj.started]
  · have hsame : t.obj v = s.obj v := by rw [hobj, Function.update_of_ne hv]
    have hpend : t.pending = some v ↔ s.pending = some v := by
      rw [hpend]
      split
      · next hp => simp [hp, Ne.symm hv]
      · rfl
    simp only [AwaitsRestart, hsame, hpend, hv, false_or, ne_eq, not_false_eq_true, true_and]
    exact h v

theorem flagsTell_thread (hl : Linked s) (h : FlagsTell s) (ht : s.timerThreadEntry = some t) :
    FlagsTell t := by
  rcases thread_cases ht with ⟨pc, -, -, rfl⟩ | ⟨u, us, hpc, hlist, rfl⟩ | ⟨u, hpc, ht⟩
  · exact h
  · have hnone : s.pending = none := by
      cases hp : s.pending with
      | none => rfl
      | some v =>
        have hrun := hl.running v hp
        rw [hpc] at hrun
        cases hrun
    have hnodup := hl.nodup
    rw [hlist] at hnodup
    have hu : u ∉ us := (List.nodup_cons.1 hnodup).1
    have hact : (s.obj u).activated = true := hl.active u (hlist ▸ List.mem_cons_self)
    intro v
    by_cases hv : v = u
    · subst hv
      cases hper : (s.obj v).periodic <;> simp [AwaitsRestart, hper, hact, hu]
    · have hv' := h v
      rw [hlist, List.mem_cons] at hv'
      simpa [AwaitsRestart, hv, hnone, Ne.symm hv] using hv'
  · rcases callbackReturn_cases ht with ⟨hp, rfl⟩ | ⟨-, hf, rfl⟩ | ⟨hp, hper, hact, ht⟩
    · exact h
    · intro v
      refine (h v).trans ⟨fun hv => .inl ?_, fun hv => .inl (hv.resolve_right nofun)⟩
      refine hv.resolve_right fun hr => hf ?_
      have hvu : v = u := TimerPc.callback.inj ((hl.running v hr.1).symm.trans hpc)
      exact hvu ▸ hr.2
    · refine flagsTell_start (hl.returned hpc hp) (fun v => ?_) ht
      obtain ⟨w, hw⟩ := Option.ne_none_iff_exists'.1 hp
      have hwu : w = u := TimerPc.callback.inj ((hl.running w hw).symm.trans hpc)
      subst hwu
      by_cases hv : v = w
      · subst hv
        simp [AwaitsRestart, hl.apart v hw]
      · have hv' := h v
        simpa [AwaitsRestart, hv, hw, Ne.symm hv] using hv'

theorem flagsTell_step {a : TimerAct τ} (hl : Linked s) (h : FlagsTell s) (ht : step s a = some t)
    (ha : ¬ Strands s a) : FlagsTell t := by
  cases a with
  | tick =>
    cases ht
    simp only [tickIncrease]
    split
    · split <;> exact h
    · exact h
  | start u => exact flagsTell_start hl h ht
  | stop u =>
    cases ht
    unfold timerStop
    split
    · intro v
      by_cases hv : v = u
      · subst hv
        simp [setObj, timerRemove, AwaitsRestart, hl.nodup.not_mem_erase]
      · have hpend : (if s.pending = some u then none else s.pending) = some v ↔
            s.pending = some v := by
          split
          · next hp => simp [hp, Ne.symm hv]
          · rfl
        simp only [setObj, timerRemove, AwaitsRestart, Function.update_of_ne hv, hpend,
          hl.nodup.mem_erase_iff, ne_eq, hv, not_false_eq_true, true_and]
        exact h v
    · exact h
  | control u cmd =>
    cases ht
    intro v
    have hv' := h v
    by_cases hv : v = u
    · subst hv
      cases cmd with
      | setTime time => simpa [timerControl, setObj, AwaitsRestart] using hv'
      | setOneshot =>
        have hnot : ¬ (s.pending = some v ∧ (s.obj v).activated = true) := fun hc =>
          ha ⟨v, rfl, hc⟩
        simp only [timerControl, setObj, AwaitsRestart, Function.update_self,
          Bool.false_eq_true, false_and, and_false, or_false]
        refine hv'.trans (or_iff_left fun hr => hnot ⟨hr.1, hr.2.2⟩)
      | setPeriodic =>
        simp only [timerControl, setObj, AwaitsRestart, Function.update_self, true_and]
        refine ⟨fun hact => (hv'.1 hact).imp_right fun hr => ⟨hr.1, hact⟩, fun hr => ?_⟩
        exact hr.elim (fun hm => hl.active v hm) fun hr => hr.2
    · simpa [timerControl, setObj, AwaitsRestart, hv] using hv'
  | thread => exact flagsTell_thread hl h ht

theorem flagsTell_break {a : TimerAct τ} (hl : Linked s) (ht : step s a = some t)
    (ha : Strands s a) : ¬ FlagsTell t := by
  obtain ⟨u, rfl, hp, hact⟩ := ha
  cases ht
  intro h
  have hu := (h u).1 (by simp [timerControl, setObj, hact])
  have hout : u ∉ s.list := hl.apart u hp
  simp [timerControl, setObj, AwaitsRestart, hout] at hu

/-- **The activated flag tells the truth** in every state of a run exactly if no step of the run
makes a periodic timer a one-shot timer while its callback runs. Such a timer stays marked as
activated although nothing will ever call it. -/
theorem activated_iff (tick : Nat) {obj : τ → TimerObj} (hobj : ∀ u, (obj u).activated = false)
    (as : List (TimerAct τ)) : Along step FlagsTell (init tick obj) as ↔
      Steps step (fun s a _ => ¬ Strands s a) (init tick obj) as := by
  have hinit : FlagsTell (init tick obj) := fun u => by simp [init, hobj, AwaitsRestart]
  exact @along_iff_steps _ _ _ _ _ (fun s => Linked s ∧ FlagsTell s) (fun _ h => h.2)
    (fun s a t h ht ha => ⟨linked_step h.1 ht, flagsTell_step h.1 h.2 ht ha⟩)
    (fun s a t h ht ha => flagsTell_break h.1 ht (not_not.1 ha)) _ ⟨linked_init tick obj, hinit⟩ as

/-- A periodic timer of two ticks. -/
def periodicTimer (_ : Unit) : TimerObj := { initTick := 2, periodic := true }

/-- It is called, made a one-shot timer by its own callback, and not started again. -/
def madeOneshot : List (TimerAct Unit) :=
  [.start (), .thread, .thread, .thread, .tick, .tick, .thread, .control () .setOneshot, .thread]

theorem activated_iff_madeOneshot :
    ∃ s, exec step (init 0 periodicTimer) madeOneshot = some s ∧
      s.list = [] ∧ s.pending = none ∧ (s.obj ()).activated = true ∧
      (Along step FlagsTell (init 0 periodicTimer) madeOneshot ↔
        Steps step (fun s a _ => ¬ Strands s a) (init 0 periodicTimer) madeOneshot) :=
  ⟨_, rfl, rfl, rfl, rfl, activated_iff 0 (fun _ => rfl) madeOneshot⟩

/-! ## The sleep of the thread -/

/-- The thread suspends itself for an empty list only, and while it is delayed no timer of the
list is overdue. -/
structure Rested (s : SoftTimers τ) : Prop where
  suspended : s.pc = .suspended ∨ s.pc = .decide tickMax → s.list = []
  delayed : ∀ w, s.pc = .delaying w → ∀ u ∈ s.list, notBefore (s.obj u).timeoutTick s.tick = true

/-- What the thread has read, at the branch on it. -/
def reading (s : SoftTimers τ) : Option Nat :=
  match s.pc with
  | .decide n => some n
  | _ => none

/-- The ticks the thread is about to delay itself for. -/
def delayTicks (s : SoftTimers τ) : Option Nat :=
  match s.pc with
  | .delay n => some n
  | _ => none

/-- The timers are in the window, and so is the tick that the thread decides on. -/
def Timely (far late : Nat) (s : SoftTimers τ) : Prop :=
  s.InWindow far late ∧ ∀ n ∈ s.reading,
    n = tickMax ∨ tickSub s.tick n ≤ late ∨ tickSub n s.tick ≤ far

/-- No timer is started between `_timer_list_next_timeout` and the `rt_timer_start` of
`rt_thread_delay`, and no tick comes between this call and `rt_tick_get`. -/
def Undisturbed (s : SoftTimers τ) (a : TimerAct τ) : Prop :=
  match a with
  | .start _ => s.reading = none ∧ s.delayTicks = none
  | .tick => s.delayTicks = none
  | _ => True

/-- `_timer_list_next_timeout` returns `RT_TICK_MAX` for a timer that is due at this tick. -/
def Mistakes (s : SoftTimers τ) (a : TimerAct τ) : Prop :=
  a = .thread ∧ s.pc = .top ∧ s.list ≠ [] ∧ s.timerListNextTimeout = tickMax

/-- `n` is the reading of a time, `early` ticks ago at most, that no deadline comes before. -/
def Bounds (far early : Nat) (d : Deadlines.State τ) (n : Nat) : Prop :=
  ∃ m, n = m % tickPeriod ∧ d.now ≤ m + early ∧ m ≤ d.now + far ∧
    ∀ u p, d.due u = some p → m ≤ p.1

/-- What the thread has read is not behind the deadlines. -/
structure Sleeps (far late : Nat) (s : SoftTimers τ) (d : Deadlines.State τ) : Prop where
  suspended : s.pc = .suspended ∨ s.pc = .decide tickMax → s.list = []
  decided : ∀ n, s.pc = .decide n → n ≠ tickMax → Bounds far late d n
  delay : ∀ n, s.pc = .delay n → Bounds far 0 d ((s.tick + n) % tickPeriod)
  delayed : ∀ w, s.pc = .delaying w → Bounds far 0 d w

omit [DecidableEq τ] in
theorem Sleeps.of_awake {far late : Nat} {d : Deadlines.State τ} (hs : s.pc ≠ .suspended)
    (hd : ∀ n, s.pc ≠ .decide n) (hl : ∀ n, s.pc ≠ .delay n) (hw : ∀ w, s.pc ≠ .delaying w) :
    Sleeps far late s d :=
  ⟨fun h => (h.elim hs (hd _)).elim, fun n hn => absurd hn (hd n), fun n hn => absurd hn (hl n),
    fun w hn => absurd hn (hw w)⟩

omit [DecidableEq τ] in
theorem Bounds.mono {far early : Nat} {d d' : Deadlines.State τ} {n : Nat}
    (h : Bounds far early d n) (hnow : d'.now = d.now)
    (hdue : ∀ u p, d'.due u = some p → d.due u = some p) : Bounds far early d' n := by
  obtain ⟨m, hm, h1, h2, h3⟩ := h
  exact ⟨m, hm, hnow ▸ h1, hnow ▸ h2, fun u p hp => h3 u p (hdue u p hp)⟩

omit [DecidableEq τ] in
/-- Timers leave, and nothing else happens. -/
theorem Sleeps.mono {far late : Nat} {d d' : Deadlines.State τ} (h : Sleeps far late s d)
    (hpc : t.pc = s.pc) (htick : t.tick = s.tick) (hlist : s.list = [] → t.list = [])
    (hnow : d'.now = d.now)
    (hdue : ∀ u p, d'.due u = some p → d.due u = some p) : Sleeps far late t d' :=
  ⟨fun hs => hlist (h.suspended (hpc ▸ hs)),
    fun n hn hne => (h.decided n (hpc ▸ hn) hne).mono hnow hdue,
    fun n hn => htick ▸ (h.delay n (hpc ▸ hn)).mono hnow hdue,
    fun w hw => (h.delayed w (hpc ▸ hw)).mono hnow hdue⟩

section
variable {far late : Nat} {d : Deadlines.State τ}

omit [DecidableEq τ] in
theorem Sleeps.rested (hw : far + late < tickMax / 2) (h : Sleeps far late s d)
    (htr : Tracks far late s d) : Rested s := by
  refine ⟨h.suspended, fun w hpc u hu => ?_⟩
  obtain ⟨m, -, h1, -, h3⟩ := h.delayed w hpc
  obtain ⟨p, hp⟩ := Option.isSome_iff_exists.1 ((htr.mem u).1 hu)
  obtain ⟨hlate, hfar⟩ := htr.near u p hp
  have hle := h3 u p hp
  rw [htr.read u p hp, htr.now]
  exact (notBefore_iff (k := far + late) hw (by omega) (by omega)).2 (by omega)

omit [DecidableEq τ] in
theorem Sleeps.tick (hw : far + late < tickMax / 2) (h : Sleeps far late s d)
    (htr : Tracks far late s d) (ht : s.tickIncrease.Timely far late) (ha : s.delayTicks = none) :
    Sleeps far late s.tickIncrease { d with now := d.now + 1 } := by
  have hnow : (s.tick + 1) % tickPeriod = (d.now + 1) % tickPeriod := by
    rw [htr.now, Nat.mod_add_mod]
  cases hpc : s.pc with
  | delaying w =>
    obtain ⟨m, hm, h1, h2, h3⟩ := h.delayed w hpc
    have hdue : notBefore ((s.tick + 1) % tickPeriod) w = true ↔ m ≤ d.now + 1 := by
      rw [hnow, hm]
      exact notBefore_iff (k := max far 1) (by unfold tickMax at hw ⊢; omega) (by omega) (by omega)
    simp only [tickIncrease, hpc]
    split
    · exact .of_awake (by simp) (by simp) (by simp) (by simp)
    · next hn =>
      have hlt : d.now + 1 < m := Nat.lt_of_not_le fun hle => hn (hdue.2 hle)
      refine ⟨fun hs => ?_, fun n hn => ?_, fun n hn => ?_, fun v hv => ?_⟩
      · rcases hs with hs | hs
        · cases hs
        · cases hs
      · cases hn
      · cases hn
      · cases hv
        exact ⟨m, hm, by simp only; omega, by simp only; omega, h3⟩
  | decide n =>
    have hsame : s.tickIncrease = { s with tick := (s.tick + 1) % tickPeriod } := by
      simp only [tickIncrease, hpc]
    rw [hsame] at ht ⊢
    refine ⟨fun hs => h.suspended hs, fun k hk hne => ?_, fun k hk => ?_, fun w hw => ?_⟩
    · obtain ⟨m, hm, h1, h2, h3⟩ := h.decided k hk hne
      have hread : ({ s with tick := (s.tick + 1) % tickPeriod }).reading = some k := by
        have hk : s.pc = .decide k := hk
        simp [reading, hk]
      have hwin := (ht.2 k hread).resolve_left hne
      simp only [hnow, hm] at hwin
      exact ⟨m, hm, late_of_window hw h1 h2 hwin, by simp only; omega, h3⟩
    · exact absurd (hpc.symm.trans hk) (by simp)
    · exact absurd (hpc.symm.trans hw) (by simp)
  | delay n => simp [delayTicks, hpc] at ha
  | top | suspended | check | callback u =>
    have hsame : s.tickIncrease = { s with tick := (s.tick + 1) % tickPeriod } := by
      simp only [tickIncrease, hpc]
    rw [hsame]
    refine ⟨fun hs => h.suspended hs, fun k hk => ?_, fun k hk => ?_, fun w hw => ?_⟩
    · exact absurd (hpc.symm.trans hk) (by simp)
    · exact absurd (hpc.symm.trans hk) (by simp)
    · exact absurd (hpc.symm.trans hw) (by simp)

omit [DecidableEq τ] in
/-- The head of the list has the earliest deadline. -/
theorem Sleeps.look (htr : Tracks far late s d)
    (hq : s.list ≠ [] → s.timerListNextTimeout ≠ tickMax) :
    Sleeps far late { s with pc := .decide s.timerListNextTimeout } d := by
  cases hlist : s.list with
  | nil =>
    have hnext : s.timerListNextTimeout = tickMax := by simp [timerListNextTimeout, hlist]
    refine ⟨fun _ => rfl, fun n hn hne => ?_, nofun, nofun⟩
    cases hn
    exact absurd hnext hne
  | cons u us =>
    have hne : s.timerListNextTimeout ≠ tickMax := hq (by rw [hlist]; exact List.cons_ne_nil u us)
    obtain ⟨p, hp⟩ := Option.isSome_iff_exists.1 ((htr.mem u).1 (hlist ▸ List.mem_cons_self))
    obtain ⟨hlate, hfar⟩ := htr.near u p hp
    refine ⟨fun hs => ?_, fun n hn _ => ?_, nofun, nofun⟩
    · rcases hs with hs | hs
      · cases hs
      · exact absurd (TimerPc.decide.inj hs) hne
    · cases hn
      refine ⟨p.1, ?_, hlate, hfar, fun v q hq => ?_⟩
      · rw [timerListNextTimeout, hlist]
        exact htr.read u p hp
      · by_cases hv : v = u
        · subst hv
          rw [hp] at hq
          cases hq
          exact Nat.le_refl _
        · have hmem : v ∈ us := by
            have hm := (htr.mem v).2 (by rw [hq]; rfl)
            rw [hlist] at hm
            exact (List.mem_cons.1 hm).resolve_left hv
          have hord := htr.ordered
          rw [hlist] at hord
          have hb := (List.pairwise_cons.1 hord).1 v hmem
          simp only [hp, hq, Option.getD_some] at hb
          rcases Deadlines.Due.before_iff.1 hb with hlt | heq
          · exact Nat.le_of_lt hlt
          · exact Nat.le_of_eq heq.1

omit [DecidableEq τ] in
/-- The delay would end at the time that was read. -/
theorem Sleeps.decide (hw : far + late < tickMax / 2) (h : Sleeps far late s d)
    (htr : Tracks far late s d) {n : Nat} (hpc : s.pc = .decide n) :
    Sleeps far late (s.timerDecide n) d := by
  unfold timerDecide
  by_cases hmax : n = tickMax
  · rw [if_pos hmax]
    exact ⟨fun _ => h.suspended (.inr (hmax ▸ hpc)), nofun, nofun, nofun⟩
  · rw [if_neg hmax]
    obtain ⟨m, rfl, h1, h2, h3⟩ := h.decided n hpc hmax
    have hahead : notBefore (m % tickPeriod) s.tick = true ↔ d.now ≤ m := by
      rw [htr.now]
      exact notBefore_iff (k := far + late) hw (by omega) (by omega)
    split
    · next hn =>
      have hle : d.now ≤ m := hahead.1 hn
      refine ⟨fun hs => ?_, nofun, fun k hk => ?_, nofun⟩
      · rcases hs with hs | hs
        · cases hs
        · cases hs
      · cases hk
        refine ⟨m, ?_, hle, h2, h3⟩
        have hsub : tickSub (m % tickPeriod) s.tick = m - d.now := by
          rw [htr.now]
          exact Serial.sub_eq hle (by unfold tickMax at hw; unfold tickPeriod; omega)
        rw [hsub, htr.now, Nat.mod_add_mod, Nat.add_sub_cancel' hle]
    · exact .of_awake (by simp) (by simp) (by simp) (by simp)

omit [DecidableEq τ] in
/-- The delay ends then, if the tick is still the one that was read. -/
theorem Sleeps.wait (h : Sleeps far late s d) {n : Nat} (hpc : s.pc = .delay n) :
    Sleeps far late (s.threadDelay n) d := by
  refine ⟨fun hs => ?_, nofun, nofun, fun w hw => ?_⟩
  · rcases hs with hs | hs
    · cases hs
    · cases hs
  · cases hw
    exact h.delay n hpc

theorem sleeps_step (hw : far + late < tickMax / 2) {a : TimerAct τ} (h : Sleeps far late s d)
    (htr : Tracks far late s d) (hs : s.InWindow far late) (ht : t.Timely far late)
    (hst : step s a = some t) (ha : Undisturbed s a) (hq : ¬ Mistakes s a) :
    ∃ d', Tracks far late t d' ∧ Sleeps far late t d' := by
  obtain ⟨d', hd, htr'⟩ := tracks_step hw htr hs ht.1 hst
  refine ⟨d', htr', ?_⟩
  cases a with
  | tick =>
    cases hst
    cases hd
    exact h.tick hw htr ht ha
  | start u =>
    obtain ⟨-, -, -, -, -, hpc⟩ := timerStart_spec s hst
    obtain ⟨hread, hticks⟩ := ha
    have hdec : ∀ n, s.pc ≠ .decide n := fun n hn => by simp [reading, hn] at hread
    have hdel : ∀ n, s.pc ≠ .delay n := fun n hn => by simp [delayTicks, hn] at hticks
    refine .of_awake ?_ (fun n => ?_) (fun n => ?_) fun w => ?_ <;> rw [hpc] <;>
      unfold TimerPc.resume <;> split <;> simp_all
  | stop u =>
    cases hst
    simp only [timerOps] at hd
    unfold timerStop at htr' ⊢
    split at hd
    · next hact =>
      cases hd
      rw [if_pos hact]
      refine h.mono rfl rfl (fun hnil => ?_) rfl fun v p hp => ?_
      · simp [setObj, timerRemove, hnil]
      · by_cases hv : v = u
        · subst hv
          simp at hp
        · simpa [hv] using hp
    · next hact =>
      cases hd
      rw [if_neg hact]
      exact h
  | control u cmd =>
    cases hst
    cases hd
    exact h.mono rfl rfl id rfl fun _ _ hp => hp
  | thread =>
    simp only [step, timerThreadEntry] at hst
    cases hpc : s.pc with
    | top =>
      rw [hpc] at hst
      cases hst
      simp only [timerOps, hpc] at hd
      cases hd
      exact .look htr fun hne hmax => hq ⟨rfl, hpc, hne, hmax⟩
    | decide n =>
      rw [hpc] at hst
      cases hst
      simp only [timerOps, hpc] at hd
      cases hd
      exact h.decide hw htr hpc
    | delay n =>
      rw [hpc] at hst
      cases hst
      simp only [timerOps, hpc] at hd
      cases hd
      exact h.wait hpc
    | suspended => rw [hpc] at hst; cases hst
    | delaying w => rw [hpc] at hst; cases hst
    | check =>
      rw [hpc] at hst
      cases hst
      unfold softTimerCheck
      split
      · exact .of_awake (by simp) (by simp) (by simp) (by simp)
      · split
        · exact .of_awake (by simp) (by simp) (by simp) (by simp)
        · exact .of_awake (by simp) (by simp) (by simp) (by simp)
    | callback u =>
      rw [hpc] at hst
      rcases callbackReturn_cases hst with ⟨-, rfl⟩ | ⟨-, -, rfl⟩ | ⟨-, -, -, ht⟩
      · exact .of_awake (by simp) (by simp) (by simp) (by simp)
      · exact .of_awake (by simp) (by simp) (by simp) (by simp)
      · obtain ⟨-, -, -, -, -, hpc'⟩ := timerStart_spec _ ht
        simp only [TimerPc.resume] at hpc'
        exact .of_awake (by simp [hpc']) (by simp [hpc']) (by simp [hpc']) (by simp [hpc'])

end

/-- A tick between the reading and the delay: the thread sleeps to tick 6, past its timer of 5. -/
example : (exec step (init 0 twoTimers) [.start true, .thread, .thread, .tick, .thread]).map
    (fun s => (s.pc, (s.obj true).timeoutTick)) = some (.delaying 6, 5) := rfl

instance (far late : Nat) : DecidablePred (Timely (τ := Bool) far late) := fun _ =>
  inferInstanceAs (Decidable (_ ∧ _))

instance (s : SoftTimers τ) : (a : TimerAct τ) → Decidable (Undisturbed s a)
  | .start _ => inferInstanceAs (Decidable (_ ∧ _))
  | .tick => inferInstanceAs (Decidable (_ = _))
  | .stop _ | .control _ _ | .thread => .isTrue trivial

/-- A timer of 5 ticks, started when it will be due at tick `RT_TICK_MAX`. -/
def dueAtMax : List (TimerAct Bool) := [.start true, .thread, .thread]

end SoftTimers

end Rtos
