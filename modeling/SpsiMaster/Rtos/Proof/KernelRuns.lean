import Mathlib.Data.Fintype.Basic
import SpsiMaster.Rtos.Proof.Priority
import SpsiMaster.Rtos.Proof.Refinement

/-!
# Runs of the kernel

What holds in every run from the start of the scheduler, for any threads with any calls and
whatever interrupts come between: every thread is in one place (`threads_inPlace`), no assertion
fails and `rt_schedule` always finds a thread (`steps_possible`), the thread that it finds is the
one that has been ready longest among those of the highest priority (`switches_chosen`), nobody
waits for what is there (`waiters_lack`), what the calls do is what semaphores, mutexes and events
are for (`kernel_refines_objects`), no token is lost (`tokens_balanced`) and a mutex has one owner
(`mutex_exclusive`). The three orders of `Rtos/Proof/Priority.lean` are kept but for the steps
named there.

A thread that suspends itself is to be neither the idle thread nor one that has locked the
scheduler (`MayBlock`).
-/

namespace Rtos

namespace Kernel

variable {τ ι : Type} {k k' : Kernel τ ι} {t u idle : τ} {o : IpcObj ι}

/-! ## Places and steps -/

/-- A thread that is ready is in the queue of its priority, one that waits for an object is in its
list, and neither is anywhere else; the bitmap shows the queues that are not empty; and a timer
that is started is one of a suspended thread. -/
structure InPlace (k : Kernel τ ι) : Prop where
  queue : ∀ p t, t ∈ k.sched.table p ↔ k.stat t = .ready ∧ k.prio t = p
  list : ∀ o t, t ∈ k.waiters o ↔ k.stat t = .suspend ∧ (k.thread t).pc = .wait o
  queueOnce : ∀ p, (k.sched.table p).Nodup
  listOnce : ∀ o, (k.waiters o).Nodup
  bitmap : ∀ p, k.sched.group.getLsbD p = true ↔ k.sched.table p ≠ []
  running : ∀ t, k.stat t = .running → t = k.self
  timer : ∀ t, (k.thread t).timer = true → k.stat t = .suspend

theorem Inv.inPlace (h : Inv idle k) : InPlace k where
  queue p t := (h.sched.queues.mem p t).trans (by simp)
  list o t := by
    refine ⟨fun hm => ⟨(h.waits o t hm).1, (h.waits o t hm).2.1⟩, fun ⟨hs, hp⟩ => ?_⟩
    obtain hp' | ⟨o', hp', hm⟩ := h.suspended t hs
    · rw [hp] at hp'
      cases hp'
    · rw [hp] at hp'
      cases hp'
      exact hm
  queueOnce := h.sched.queues.nodup
  listOnce := h.nodup
  bitmap := h.sched.queues.group
  running := h.sched.running
  timer := h.timer

/-- What a call asserts of its arguments: that a thread is new, that one of the flags of an event is
set, and that `thread_timer` can be started with a waiting time. -/
def Asserted (k : Kernel τ ι) : KernelCall τ ι → Prop
  | .semTake _ time | .mutexTake _ time => 0 < time → timerStarts time.toUInt32 = true
  | .eventRecv _ _ option timeout => (option.flagAnd = true ∨ option.flagOr = true) ∧
      (0 < timeout → timerStarts timeout.toUInt32 = true)
  | .startup t => k.stat t = .init
  | .sleep tick => timerStarts tick = true
  | _ => True

/-- The program is at the step, and what a call asserts of its arguments is so. -/
def Begins (k : Kernel τ ι) : KernelAct τ ι → Prop
  | .call c => k.InThread ∧ (k.thread k.self).pc = .own ∧ Asserted k c
  | .ret => k.InThread ∧ (k.thread k.self).pc ≠ .own
  | .schedule => k.isrDue = false ∧ (k.thread k.self).due = true
  | .isrSchedule => k.isrDue = true
  | .timeout t => (k.thread t).timer = true
  | _ => True

variable [DecidableEq τ] [DecidableEq ι]

theorem step_call_eq {c : KernelCall τ ι} (h : k.InThread) (hp : (k.thread k.self).pc = .own) :
    step k (.call c) = k.call c := if_pos ⟨h, hp⟩

theorem waitFor_isSome {time : Int32} (ht : 0 < time → timerStarts time.toUInt32 = true)
    (k : Kernel τ ι) (o : IpcObj ι) : (k.waitFor o time).isSome = true := by
  unfold Kernel.waitFor
  split
  · next hf => exact absurd ((ht hf.1).symm.trans hf.2) (by decide)
  · rfl

/-- A mutex that is not free has an owner to inherit a priority. -/
theorem Sound.mutexTake_isSome (h : Sound idle k) (i : ι) {time : Int32}
    (ht : 0 < time → timerStarts time.toUInt32 = true) : (k.mutexTake i time).isSome = true := by
  have hm := h.mutexes i
  unfold Kernel.mutexTake
  dsimp only
  split
  · split <;> rfl
  · split
    · rfl
    · next hv =>
      split
      · rfl
      · cases ho : (k.mutex i).owner with
        | none =>
          rw [MutexOk, ho] at hm
          have hv' : ¬ 0 < (k.mutex i).value := hv
          omega
        | some u =>
          have ho' : ((k.setThread k.self fun c => { c with error := .eok }).mutex i).owner =
              some u := ho
          rw [ho']
          exact waitFor_isSome ht _ _

/-- What can be begun can be done. -/
theorem Sound.isSome_step (h : Sound idle k) {a : KernelAct τ ι} (ha : Begins k a) :
    (step k a).isSome = true := by
  have hsched : ∀ k' : Kernel τ ι, k'.sched = k.sched → k'.schedule.isSome = true := fun k' hk => by
    obtain ⟨s, hs, -⟩ := h.inv.sched.schedule
    rw [Kernel.schedule, hk, hs]
    rfl
  cases a with
  | call c =>
    cases c with
    | eventRecv i set option timeout =>
      obtain ⟨hin, hown, hflags, ht⟩ := ha
      rw [step_call_eq hin hown]
      change (k.eventRecv i set option timeout).isSome = true
      unfold Kernel.eventRecv
      split
      · rfl
      · rw [if_neg (by simpa [or_iff_not_imp_left] using hflags)]
        dsimp only
        split
        · rfl
        · split
          · rfl
          · exact waitFor_isSome ht _ _
    | startup t =>
      obtain ⟨hin, hown, hinit⟩ := ha
      have hinit : k.stat t = .init := hinit
      rw [step_call_eq hin hown]
      simp [Kernel.call, threadStartup, hinit]
    | semTake i time =>
      rw [step_call_eq ha.1 ha.2.1]
      change (k.semTake i time).isSome = true
      unfold Kernel.semTake
      split
      · rfl
      · split
        · rfl
        · exact waitFor_isSome ha.2.2 _ _
    | mutexTake i time =>
      rw [step_call_eq ha.1 ha.2.1]
      exact h.mutexTake_isSome i ha.2.2
    | sleep tick =>
      rw [step_call_eq ha.1 ha.2.1]
      change (k.threadSleep tick).isSome = true
      have ht : timerStarts tick = true := ha.2.2
      rw [Kernel.threadSleep, if_pos ht]
      rfl
    | yield =>
      rw [step_call_eq ha.1 ha.2.1]
      have hinv : (k.sched.reload).Inv := h.inv.sched.setCurrent rfl rfl
      obtain ⟨s, hs, -⟩ := hinv.schedule
      rw [Kernel.call, Kernel.schedule, hs]
      rfl
    | _ =>
      rw [step_call_eq ha.1 ha.2.1]
      rfl
  | ret =>
    rw [show step k .ret = k.threadReturn from if_pos ha.1]
    unfold threadReturn
    dsimp only
    split
    · next hp => exact absurd hp ha.2
    · rfl
    · rfl
  | schedule =>
    rw [show step k .schedule = (k.setThread k.self fun c => { c with due := false }).schedule from
      if_pos ha]
    exact hsched _ rfl
  | isrSchedule =>
    rw [show step k .isrSchedule = Kernel.schedule { k with isrDue := false } from if_pos ha]
    exact hsched _ rfl
  | timeout t =>
    rw [show step k (.timeout t) = k.threadTimeout t from if_pos ha]
    unfold threadTimeout
    rw [if_pos (h.inv.timer t ha)]
    rfl
  | isrSemRelease i => rfl
  | isrEventSend i set => rfl
  | tick => rfl

/-! ## Switches -/

/-- The processor goes to the thread that became ready first among those of the highest priority,
from a thread that is suspended, has a lower priority, or has used up its time slice. -/
def Chosen (k : Kernel τ ι) (a : KernelAct τ ι) (k' : Kernel τ ι) : Prop :=
  k'.self ≠ k.self → k.sched.lockNest = 0 ∧ k.stat k'.self = .ready ∧
    (∀ t, k.stat t = .ready → t ≠ k'.self → k.prio k'.self < k.prio t ∨
      k.prio k'.self = k.prio t ∧ (k.sched.tcb k'.self).stamp < (k.sched.tcb t).stamp) ∧
    (k.stat k.self = .suspend ∨ k.prio k'.self < k.prio k.self ∨ k.prio k'.self = k.prio k.self ∧
      ((k.sched.tcb k.self).yielded = true ∨ a = .call .yield))

omit [DecidableEq ι] in
theorem resume_self (k : Kernel τ ι) (t : τ) : (k.threadResume t).self = k.self := by
  unfold threadResume
  split
  · exact Sched.insertThread_current _ t
  · rfl

omit [DecidableEq ι] in
theorem resumeAll_self (l : List τ) (k : Kernel τ ι) :
    (l.foldl (fun k t => ((k.log (.wake t o .error)).setThread t fun c =>
      { c with error := .error }).threadResume t) k).self = k.self := by
  induction l generalizing k with
  | nil => rfl
  | cons t l ih =>
    rw [List.foldl_cons]
    exact (ih _).trans (resume_self _ t)

theorem eventSearch_self {i : ι} (l : List τ) (k : Kernel τ ι) (b : Bool) :
    (eventSearch i l k b).1.self = k.self := by
  induction l generalizing k b with
  | nil => rfl
  | cons t l ih =>
    rw [Kernel.eventSearch]
    split
    · rfl
    · split
      · exact ih k b
      · refine (ih _ true).trans ?_
        unfold Kernel.eventAnswer
        dsimp only
        split <;> exact resume_self _ t

theorem eventSend_self (k : Kernel τ ι) (i : ι) (set : BitVec 32) :
    (k.eventSend i set).1.self = k.self := by
  unfold Kernel.eventSend
  split
  · rfl
  · exact eventSearch_self _ _ false

theorem semRelease_self (k : Kernel τ ι) (i : ι) : (k.semRelease i).1.self = k.self := by
  unfold Kernel.semRelease
  split
  · exact resume_self _ _
  · split <;> rfl

omit [DecidableEq ι] in
theorem scheduled_self (r : Kernel τ ι × Bool) : (scheduled r).self = r.1.self := by
  unfold Kernel.scheduled
  split <;> rfl

omit [DecidableEq τ] [DecidableEq ι] in
theorem isrScheduled_self (r : Kernel τ ι × Bool) : (isrScheduled r).self = r.1.self := by
  unfold Kernel.isrScheduled
  split <;> rfl

theorem waitOn_self (hs : k.stat k.self = .running) (o : IpcObj ι) (time : Int32) :
    (k.waitOn o time).self = k.self := by
  rw [waitOn_eq hs]
  exact Sched.threadSuspend_current

/-- No call but `rt_thread_yield` goes over to another thread by itself. -/
theorem Sound.call_self (h : Sound idle k) (hr : k.stat k.self = .running) {c : KernelCall τ ι}
    (hc : c ≠ .yield) (hk : k.call c = some k') : k'.self = k.self := by
  cases c with
  | yield => exact absurd rfl hc
  | semTake i time =>
    obtain ⟨-, rfl⟩ | ⟨-, -, rfl⟩ | ⟨-, -, rfl⟩ := semTake_cases hk
    · rfl
    · rfl
    · exact waitOn_self (k := k.setThread k.self fun c => { c with error := .eok }) hr _ time
  | semRelease i =>
    cases hk
    exact (scheduled_self _).trans (semRelease_self k i)
  | semReset i value =>
    cases hk
    exact resumeAll_self _ k
  | mutexTake i time =>
    obtain ⟨-, -, rfl⟩ | ⟨-, -, rfl⟩ | ⟨-, -, rfl⟩ | ⟨-, -, -, rfl⟩ | ⟨u, -, -, -, -, rfl⟩ :=
      mutexTake_cases hk
    · rfl
    · rfl
    · exact congrArg Sched.current (mutexFirst_frame i).1
    · rfl
    · obtain ⟨-, hstat, hself, -⟩ := h.inv.inherit u
      refine (waitOn_self (k := (k.inherit u).setThread k.self fun c => { c with error := .eok })
        ?_ _ time).trans hself
      change (k.inherit u).stat (k.inherit u).self = .running
      rw [hself, hstat]
      exact hr
  | mutexRelease i =>
    cases hk
    refine (scheduled_self _).trans ?_
    have hback : ((k.log (.unlock k.self i)).getBack i).self = k.self := by
      unfold getBack self
      dsimp only
      split
      · exact Sched.changePriority_current
      · rfl
    obtain ⟨-, he⟩ | ⟨-, -, he⟩ | ⟨-, -, t, l, -, he⟩ | ⟨-, -, -, he⟩ :=
      mutexRelease_cases (h.mutexes i) <;> rw [he]
    · rfl
    · rfl
    · exact (resume_self _ t).trans hback
    · exact hback
  | eventSend i set =>
    cases hk
    exact (scheduled_self _).trans (eventSend_self k i set)
  | eventRecv i set option timeout =>
    obtain ⟨-, rfl⟩ | ⟨bits, -, -, -, rfl⟩ | ⟨-, -, -, -, rfl⟩ | ⟨-, -, -, -, rfl⟩ :=
      eventRecv_cases hk
    · rfl
    · rfl
    · rfl
    · exact waitOn_self (k := k.setThread k.self fun c =>
        { c with error := .eok, eventSet := set, eventInfo := option }) hr _ timeout
  | eventReset i =>
    cases hk
    exact resumeAll_self _ k
  | startup t =>
    obtain ⟨k₁, hk₁, rfl⟩ := Option.map_eq_some_iff.1 hk
    obtain ⟨-, rfl⟩ := threadStartup_cases hk₁
    exact resume_self _ t
  | sleep tick =>
    obtain rfl := threadSleep_eq_some hk
    rw [fallAsleep_eq hr]
    exact Sched.threadSuspend_current
  | enterCritical =>
    cases hk
    rfl
  | exitCritical =>
    cases hk
    unfold Kernel.exitCritical
    dsimp only
    split <;> rfl

omit [DecidableEq τ] [DecidableEq ι] in
/-- What `rt_schedule` finds is first in its queue. -/
theorem Inv.chosen (h : k.sched.Inv) {s : Sched τ} (hl : k.sched.lockNest = 0 ∨ s = k.sched)
    (hn : k.sched.Next s) (hc : s.current ≠ k.self) : k.sched.lockNest = 0 ∧
    k.stat s.current = .ready ∧ (∀ t, k.stat t = .ready → t ≠ s.current →
      k.prio s.current < k.prio t ∨
        k.prio s.current = k.prio t ∧ (k.sched.tcb s.current).stamp < (k.sched.tcb t).stamp) ∧
    (k.stat k.self = .suspend ∨ k.prio s.current < k.prio k.self ∨
      k.prio s.current = k.prio k.self ∧ (k.sched.tcb k.self).yielded = true) := by
  obtain ⟨p, l, hp, hlow, hrun⟩ := hn hc
  obtain ⟨hr, hprio, -⟩ := (h.queues.mem p s.current).1 (by simp [hp])
  have hprio' : k.prio s.current = p := hprio
  refine ⟨hl.resolve_right fun hs => hc (by rw [hs]), hr, fun t ht hne => ?_, ?_⟩
  · have hm := (h.queues.mem (k.prio t) t).2 ⟨ht, rfl, by simp⟩
    rw [hprio']
    obtain hlt | heq := Nat.lt_or_eq_of_le (Nat.le_of_not_lt fun hlt => by
      rw [hlow _ hlt] at hm
      cases hm)
    · exact .inl hlt
    · refine .inr ⟨heq, ?_⟩
      have hord := h.queues.order p
      rw [← heq, hp] at hm
      rw [hp] at hord
      exact (List.pairwise_cons.1 hord).1 t ((List.mem_cons.1 hm).resolve_left hne)
  · obtain hcur | hcur := h.current
    · refine .inr ?_
      rw [hprio']
      exact hrun hcur
    · exact .inl hcur

omit [DecidableEq ι] in
/-- A locked scheduler does nothing. -/
theorem schedule_cases (h : k.sched.Inv) (hk : k.schedule = some k') :
    ∃ s, k' = { k with sched := s } ∧ k.sched.Next s ∧ (k.sched.lockNest = 0 ∨ s = k.sched) := by
  obtain ⟨s, hs, -, hn⟩ := h.schedule
  refine ⟨s, ?_, hn, ?_⟩
  · rw [Kernel.schedule, hs] at hk
    cases hk
    rfl
  · unfold Sched.schedule at hs
    split at hs
    · next hl => exact .inl hl.1
    · cases hs
      exact .inr rfl

theorem chosen_step {a : KernelAct τ ι} (h : Sound idle k) (hk : step k a = some k') :
    Chosen k a k' := by
  have hsched : ∀ {k₁ : Kernel τ ι}, k₁.sched = k.sched → k₁.schedule = some k' →
      Chosen k a k' := fun {k₁} hk₁ hs hc => by
    obtain ⟨s, rfl, hn, hl⟩ := schedule_cases (k := k₁) (by rw [hk₁]; exact h.inv.sched) hs
    rw [hk₁] at hn hl
    obtain ⟨h₁, h₂, h₃, h₄⟩ := Inv.chosen h.inv.sched hl hn hc
    exact ⟨h₁, h₂, h₃, h₄.imp id (Or.imp id fun hy => ⟨hy.1, .inl hy.2⟩)⟩
  cases stepsTo_of_step hk with
  | @call c _ hin _ hk =>
    by_cases hy : c = .yield
    · subst hy
      -- the time slice is loaded again before `rt_schedule`
      intro hc
      have hinv : k.sched.reload.Inv := h.inv.sched.setCurrent rfl rfl
      obtain ⟨s, rfl, hn, hl⟩ := schedule_cases (k := { k with sched := k.sched.reload }) hinv hk
      obtain ⟨h₁, h₂, h₃, h₄⟩ := Inv.chosen (k := { k with sched := k.sched.reload }) hinv hl hn hc
      have hst : ∀ u, (k.sched.reload.tcb u).stat = k.stat u := fun u => (Sched.reload_frame u).1
      have hp : ∀ u, (k.sched.reload.tcb u).currentPriority = k.prio u :=
        fun u => (Sched.reload_frame u).2.1
      have hsp : ∀ u, (k.sched.reload.tcb u).stamp = (k.sched.tcb u).stamp :=
        fun u => (Sched.reload_frame u).2.2
      simp only [stat, prio, self] at h₂ h₃ h₄ hst hp
      simp only [hst, hp, hsp] at h₂ h₃ h₄
      exact ⟨h₁, h₂, h₃, h₄.imp id (Or.imp id fun hy => ⟨hy.1, .inr rfl⟩)⟩
    · exact fun hc => absurd (h.call_self (h.inv.running hin) hy hk) hc
  | retWait => exact fun hc => absurd rfl hc
  | retSleep => exact fun hc => absurd rfl hc
  | schedule _ _ hk =>
    refine hsched ?_ hk
    rfl
  | isrSchedule _ hk =>
    refine hsched ?_ hk
    rfl
  | isrSemRelease i =>
    exact fun hc => absurd ((isrScheduled_self _).trans (semRelease_self k i)) hc
  | isrEventSend i set =>
    exact fun hc => absurd ((isrScheduled_self _).trans (eventSend_self k i set)) hc
  | @timeout t _ _ hk =>
    obtain ⟨-, _, -, rfl⟩ := threadTimeout_cases hk
    exact fun hc => absurd (Sched.insertThread_current _ t) hc
  | tick => exact fun hc => absurd ((isrScheduled_self _).trans Sched.tickIncrease_rest.1) hc

end Kernel

/-! ## Tokens and owners -/

namespace Objects

variable {τ ι : Type} [DecidableEq τ] [DecidableEq ι] {s s' : Objects τ ι}

/-- The tokens of a semaphore by what has been done, newest first: those of the last value that
was set, one more for each that was given and one less for each that was taken since. -/
def balance (start : Nat) (i : ι) : List (KernelEvent τ ι) → Int
  | [] => start
  | .setValue j value :: l => if j = i then value else balance start i l
  | .give j :: l => balance start i l + if j = i then 1 else 0
  | .take _ j :: l => balance start i l - if j = i then 1 else 0
  | _ :: l => balance start i l

/-- How often a thread has taken a mutex and not given it back. -/
def depth (t : τ) (i : ι) : List (KernelEvent τ ι) → Int
  | [] => 0
  | .lock u j :: l => depth t i l + if u = t ∧ j = i then 1 else 0
  | .unlock u j :: l => depth t i l - if u = t ∧ j = i then 1 else 0
  | _ :: l => depth t i l

/-- How often `t` has a mutex. -/
def times (t : τ) : Option (τ × Nat) → Nat
  | some (u, n) => if u = t then n else 0
  | none => 0

theorem grant_rest (t : τ) (o : IpcObj ι) : (s.grant t o).tokens = s.tokens ∧
    (s.grant t o).owner = s.owner ∧ (s.grant t o).bits = s.bits := by
  unfold grant
  split <;> exact ⟨rfl, rfl, rfl⟩

theorem tokens_step {e : KernelEvent τ ι} (h : step s e = some s') {start : Nat} {i : ι}
    {l : List (KernelEvent τ ι)} (hb : (s.tokens i : Int) = balance start i l) :
    (s'.tokens i : Int) = balance start i (e :: l) := by
  cases e with
  | take t j =>
    simp only [step] at h
    split at h
    · next hv =>
      cases h
      rw [balance, ← hb]
      by_cases hj : j = i
      · subst hj
        simp only [Function.update_self, if_true]
        omega
      · simp [Ne.symm hj, hj]
    · cases h
  | give j =>
    simp only [step] at h
    split at h
    · cases h
      rw [balance, ← hb]
      by_cases hj : j = i
      · subst hj
        simp
      · simp [Ne.symm hj, hj]
    · cases h
  | setValue j value =>
    cases h
    rw [balance, ← hb]
    by_cases hj : j = i
    · subst hj
      simp
    · simp [Ne.symm hj, hj]
  | wait t o =>
    simp only [step] at h
    split at h <;> cases h
    exact hb
  | wake t o e =>
    simp only [step] at h
    split at h <;> cases h
    exact hb
  | ret t o e =>
    simp only [step] at h
    split at h <;> cases h
    exact hb
  | lock t j =>
    simp only [step] at h
    split at h
    · split at h <;> cases h
      exact hb ▸ congrArg (fun f => ((f i : Nat) : Int)) (grant_rest t (.mutex j)).1
    · split at h <;> cases h
      exact hb
  | unlock t j =>
    simp only [step] at h
    split at h
    · split at h <;> cases h
      exact hb
    · cases h
  | send j set =>
    cases h
    exact hb
  | receive t j set clear =>
    simp only [step] at h
    split at h <;> cases h
    exact hb ▸ congrArg (fun f => ((f i : Nat) : Int)) (grant_rest t (.event j)).1
  | clear j =>
    cases h
    exact hb

theorem times_update {i j : ι} {v : Option (τ × Nat)} {t u : τ} {d : Int}
    (ho : s'.owner = Function.update s.owner j v)
    (hd : (times t v : Int) = times t (s.owner j) + if u = t then d else 0) :
    (times t (s'.owner i) : Int) = times t (s.owner i) + if u = t ∧ j = i then d else 0 := by
  rw [ho]
  by_cases hj : j = i
  · subst hj
    rw [Function.update_self, hd]
    simp
  · rw [Function.update_of_ne (Ne.symm hj)]
    simp [hj]

theorem depth_step {e : KernelEvent τ ι} (h : step s e = some s') {t : τ} {i : ι}
    {l : List (KernelEvent τ ι)} (hb : (times t (s.owner i) : Int) = depth t i l) :
    (times t (s'.owner i) : Int) = depth t i (e :: l) := by
  have hsame : s'.owner = s.owner → (times t (s'.owner i) : Int) = depth t i l := fun ho => by
    rw [ho, hb]
  cases e with
  | lock u j =>
    rw [depth, ← hb]
    simp only [step] at h
    split at h
    · next hnone =>
      split at h <;> cases h
      refine times_update rfl ?_
      rw [hnone]
      simp [times]
    · next v n hsome =>
      split at h <;> cases h
      next hown =>
      obtain ⟨rfl, -⟩ := hown
      refine times_update rfl ?_
      rw [hsome]
      by_cases hut : v = t <;> simp [times, hut]
  | unlock u j =>
    rw [depth, ← hb]
    simp only [step] at h
    split at h
    · next v n hsome =>
      split at h <;> cases h
      next hown =>
      obtain ⟨rfl, -⟩ := hown
      rw [Int.sub_eq_add_neg]
      refine (times_update (d := -1) (u := v) rfl ?_).trans ?_
      · rw [hsome]
        by_cases hut : v = t
        · by_cases hn : n = 0 <;> simp [times, hut, hn]
        · by_cases hn : n = 0 <;> simp [times, hut, hn]
      · split <;> rfl
    · cases h
  | take v j =>
    simp only [step] at h
    split at h <;> cases h
    exact hsame (grant_rest v (.sem j)).2.1
  | give j =>
    simp only [step] at h
    split at h <;> cases h
    exact hsame rfl
  | setValue j value =>
    cases h
    exact hsame rfl
  | wait v o =>
    simp only [step] at h
    split at h <;> cases h
    exact hsame rfl
  | wake v o e =>
    simp only [step] at h
    split at h <;> cases h
    exact hsame rfl
  | ret v o e =>
    simp only [step] at h
    split at h <;> cases h
    exact hsame rfl
  | send j set =>
    cases h
    exact hsame rfl
  | receive v j set clear =>
    simp only [step] at h
    split at h <;> cases h
    exact hsame (grant_rest v (.event j)).2.1
  | clear j =>
    cases h
    exact hsame rfl

/-- A run of the objects: the tokens and the owners are what has been done says. -/
theorem run_books {start : ι → Nat} (es : List (KernelEvent τ ι))
    (h : Run.exec step { tokens := start } es = some s) (i : ι) :
    (s.tokens i : Int) = balance (start i) i es.reverse ∧
      ∀ t, (times t (s.owner i) : Int) = depth t i es.reverse := by
  induction es using List.reverseRecOn generalizing s with
  | nil =>
    cases h
    exact ⟨rfl, fun _ => rfl⟩
  | append_singleton es e ih =>
    rw [Run.exec_append] at h
    obtain ⟨s₁, h₁, h₂⟩ := Option.bind_eq_some_iff.1 h
    obtain ⟨s₂, h₃, h₄⟩ := Option.bind_eq_some_iff.1 h₂
    cases h₄
    obtain ⟨ht, ho⟩ := ih h₁
    rw [List.reverse_append]
    exact ⟨tokens_step h₃ ht, fun t => depth_step h₃ (ho t)⟩

end Objects

/-! ## Every run -/

namespace Kernel

variable {τ ι : Type} [DecidableEq τ] [DecidableEq ι] {priority initTick : τ → Nat} {main idle : τ}
  {flag : IpcObj ι → IpcFlag} {sem : ι → Nat} {as : List (KernelAct τ ι)}

instance (k k' : Kernel τ ι) (a : KernelAct τ ι) : Decidable (MayBlock idle k a k') :=
  inferInstanceAs (Decidable (_ → _ → _))

/-- In every run each thread is in one place, which its status and its priority say. -/
theorem threads_inPlace (hp : ∀ t, priority t < 32) (hne : main ≠ idle)
    (hb : Run.Steps step (MayBlock idle) (boot priority initTick main idle flag sem) as) :
    Run.Along step InPlace (boot priority initTick main idle flag sem) as :=
  (traced_along hp hne flag sem hb).mono fun _ h => h.sound.inv.inPlace

/-- A run in which a thread of higher priority waits for a token and gets it. -/
def tokenRun : List (KernelAct (Fin 3) (Fin 1)) :=
  [.call (.startup 1), .schedule, .call (.semTake 0 (-1)), .schedule, .call (.semRelease 0),
    .schedule, .ret]

example : ((Run.exec step (boot (fun t => 10 - t.val) (fun _ => 10) (0 : Fin 3) 2
    (fun _ => .fifo) (fun _ : Fin 1 => 0)) tokenRun).map fun k => k.hist) =
      some [.ret 1 (.sem 0) .eok, .take 1 0, .give 0, .wait 1 (.sem 0)] := by
  decide +kernel

theorem threads_inPlace_tokenRun : Run.Along step InPlace
    (boot (fun t => 10 - t.val) (fun _ => 10) 0 2 (fun _ => .fifo) (fun _ => 0)) tokenRun :=
  threads_inPlace (by decide) (by decide) (by decide +kernel)

/-- In every run no assertion fails that the arguments of a call do not break, `rt_schedule` finds
a thread, and a mutex that is not free has an owner. -/
theorem steps_possible (hp : ∀ t, priority t < 32) (hne : main ≠ idle)
    (hb : Run.Steps step (MayBlock idle) (boot priority initTick main idle flag sem) as) :
    Run.Along step (fun k => ∀ a, Begins k a → (step k a).isSome = true)
      (boot priority initTick main idle flag sem) as :=
  (traced_along hp hne flag sem hb).mono fun _ h _ ha => h.sound.isSome_step ha

theorem steps_possible_tokenRun :
    Run.Along step (fun k => ∀ a, Begins k a → (step k a).isSome = true)
      (boot (fun t => 10 - t.val) (fun _ => 10) 0 2 (fun _ => .fifo) (fun _ => 0)) tokenRun :=
  steps_possible (by decide) (by decide) (by decide +kernel)

/-- **No wake-up is lost.** In every run nobody waits for what is there. -/
theorem waiters_lack (hp : ∀ t, priority t < 32) (hne : main ≠ idle)
    (hb : Run.Steps step (MayBlock idle) (boot priority initTick main idle flag sem) as) :
    Run.Along step (fun k => ∀ o, ∀ t ∈ k.waiters o, k.Lacks t o)
      (boot priority initTick main idle flag sem) as :=
  (traced_along hp hne flag sem hb).mono fun _ h => h.quiet

theorem waiters_lack_tokenRun :
    Run.Along step (fun k => ∀ o, ∀ t ∈ k.waiters o, k.Lacks t o)
      (boot (fun t => 10 - t.val) (fun _ => 10) 0 2 (fun _ => .fifo) (fun _ => 0)) tokenRun :=
  waiters_lack (by decide) (by decide) (by decide +kernel)

/-- **The kernel refines the objects.** In every run what the calls have done is a run of the
objects, and it has led to the objects of the state. -/
theorem kernel_refines_objects (hp : ∀ t, priority t < 32) (hne : main ≠ idle)
    (hb : Run.Steps step (MayBlock idle) (boot priority initTick main idle flag sem) as) :
    Run.Along step
      (fun k => Run.exec Objects.step { tokens := sem } k.hist.reverse = some k.objects)
      (boot priority initTick main idle flag sem) as :=
  (traced_along hp hne flag sem hb).mono fun _ h => h.refines

theorem kernel_refines_objects_tokenRun : Run.Along step
    (fun k => Run.exec Objects.step { tokens := fun _ => 0 } k.hist.reverse = some k.objects)
    (boot (fun t => 10 - t.val) (fun _ => 10) 0 2 (fun _ => .fifo) (fun _ => 0)) tokenRun :=
  kernel_refines_objects (by decide) (by decide) (by decide +kernel)

/-- In every run the value of a semaphore is what it was set to, and a token more for each that was
given and one less for each that was taken since. -/
theorem tokens_balanced (hp : ∀ t, priority t < 32) (hne : main ≠ idle)
    (hb : Run.Steps step (MayBlock idle) (boot priority initTick main idle flag sem) as) :
    Run.Along step (fun k => ∀ i, (k.sem i : Int) = Objects.balance (sem i) i k.hist)
      (boot priority initTick main idle flag sem) as :=
  (traced_along hp hne flag sem hb).mono fun k h i => by
    have hrun := (Objects.run_books _ h.refines i).1
    rw [List.reverse_reverse] at hrun
    exact hrun

theorem tokens_balanced_tokenRun :
    Run.Along step (fun k => ∀ i, (k.sem i : Int) = Objects.balance 0 i k.hist)
      (boot (fun t => 10 - t.val) (fun _ => 10) 0 2 (fun _ => .fifo) (fun _ => 0)) tokenRun :=
  tokens_balanced (by decide) (by decide) (by decide +kernel)

/-- **Mutual exclusion.** In every run no two threads have taken a mutex and not given it back: one
that has is the owner. -/
theorem mutex_exclusive (hp : ∀ t, priority t < 32) (hne : main ≠ idle)
    (hb : Run.Steps step (MayBlock idle) (boot priority initTick main idle flag sem) as) :
    Run.Along step (fun k => ∀ i,
        (∀ t, 0 < Objects.depth t i k.hist ↔ (k.mutex i).owner = some t) ∧
        ∀ t u, 0 < Objects.depth t i k.hist → 0 < Objects.depth u i k.hist → t = u)
      (boot priority initTick main idle flag sem) as := by
  refine (traced_along hp hne flag sem hb).mono fun k h i => ?_
  have hrun := (Objects.run_books _ h.refines i).2
  rw [List.reverse_reverse] at hrun
  have hiff : ∀ t, 0 < Objects.depth t i k.hist ↔ (k.mutex i).owner = some t := fun t => by
    rw [← hrun t]
    have hm := h.sound.mutexes i
    cases ho : (k.mutex i).owner with
    | none => simp [objects, ho, Objects.times]
    | some u =>
      have hpos : 0 < (k.mutex i).hold := (hm.held ho).2.1
      by_cases hut : u = t
      · simp [objects, ho, Objects.times, hut, hpos]
      · simp [objects, ho, Objects.times, hut]
  refine ⟨hiff, fun t u ht hu => ?_⟩
  have hown := ((hiff t).1 ht).symm.trans ((hiff u).1 hu)
  exact Option.some.inj hown

/-- A run in which a thread of higher priority waits for a mutex and gets it. -/
def mutexRun : List (KernelAct (Fin 3) (Fin 1)) :=
  [.call (.mutexTake 0 (-1)), .call (.startup 1), .schedule, .call (.mutexTake 0 (-1)), .schedule,
    .call (.mutexRelease 0), .schedule, .ret]

theorem mutex_exclusive_mutexRun : Run.Along step (fun k => ∀ i,
    (∀ t, 0 < Objects.depth t i k.hist ↔ (k.mutex i).owner = some t) ∧
      ∀ t u, 0 < Objects.depth t i k.hist → 0 < Objects.depth u i k.hist → t = u)
    (boot (fun t => 10 - t.val) (fun _ => 10) 0 2 (fun _ => .fifo) (fun _ => 0)) mutexRun :=
  mutex_exclusive (by decide) (by decide) (by decide +kernel)

/-! ## The three orders -/

instance [Fintype ι] (P : IpcObj ι → Prop) [DecidablePred P] : Decidable (∀ o, P o) :=
  decidable_of_iff ((∀ i, P (.sem i)) ∧ (∀ i, P (.mutex i)) ∧ ∀ i, P (.event i))
    ⟨fun h o => by cases o with
      | sem i => exact h.1 i
      | mutex i => exact h.2.1 i
      | event i => exact h.2.2 i, fun h => ⟨fun _ => h _, fun _ => h _, fun _ => h _⟩⟩

instance [Fintype τ] (k k' : Kernel τ ι) (a : KernelAct τ ι) :
    Decidable (KeepsHighest k a k') := by
  unfold KeepsHighest
  split <;> infer_instance

instance [Fintype τ] [Fintype ι] (k k' : Kernel τ ι) (a : KernelAct τ ι) :
    Decidable (KeepsOrder k a k') := by
  unfold KeepsOrder
  split <;> infer_instance

instance [Fintype τ] [Fintype ι] (k k' : Kernel τ ι) (a : KernelAct τ ι) :
    Decidable (KeepsInheritance k a k') := by
  unfold KeepsInheritance
  split <;> infer_instance

/-- A property of every run, with the steps that break it. -/
theorem run_iff {P I : Kernel τ ι → Prop} {Q : Kernel τ ι → KernelAct τ ι → Kernel τ ι → Prop}
    (hP : ∀ k, I k → P k)
    (hstep : ∀ k a k', Sound idle k → Quiet k → I k → step k a = some k' → MayBlock idle k a k' →
      Q k a k' → I k')
    (hbreak : ∀ k a k', Sound idle k → I k → step k a = some k' → ¬ Q k a k' → ¬ P k')
    (hp : ∀ t, priority t < 32) (hne : main ≠ idle)
    (h0 : I (boot priority initTick main idle flag sem))
    (hb : Run.Steps step (MayBlock idle) (boot priority initTick main idle flag sem) as) :
    Run.Along step P (boot priority initTick main idle flag sem) as ↔
      Run.Steps step Q (boot priority initTick main idle flag sem) as := by
  have htrue : Run.Along step (fun _ => True) (boot priority initTick main idle flag sem) as :=
    Run.along_of_step (fun _ _ _ _ _ => trivial) trivial as
  have hP' : ∀ k, (Sound idle k ∧ Quiet k) ∧ I k → P k := fun k hk => hP k hk.2
  have hstep' : ∀ k a k', (Sound idle k ∧ Quiet k) ∧ I k → True → True → step k a = some k' →
      MayBlock idle k a k' → Q k a k' → (Sound idle k' ∧ Quiet k') ∧ I k' :=
    fun k a k' hk _ _ hs hm hq => ⟨⟨sound_step hk.1.1 hs hm, quiet_step hk.1.1 hk.1.2 hs⟩,
      hstep k a k' hk.1.1 hk.1.2 hk.2 hs hm hq⟩
  have hbreak' : ∀ k a k', (Sound idle k ∧ Quiet k) ∧ I k → True → step k a = some k' →
      ¬ Q k a k' → ¬ P k' := fun k a k' hk _ hs => hbreak k a k' hk.1.1 hk.2 hs
  exact Run.along_iff_steps_given hP' hstep' hbreak'
    ⟨⟨sound_boot hp hne flag sem, quiet_boot flag sem⟩, h0⟩ htrue hb

/-- **The highest priority runs.** In a run a thread of the highest priority has the processor
whenever no `rt_schedule` is due and the scheduler is not locked, if and only if nobody gives back
a mutex that nobody waits for and gets a priority lower than that of a ready thread. -/
theorem highest_runs_iff (hp : ∀ t, priority t < 32) (hne : main ≠ idle)
    (hb : Run.Steps step (MayBlock idle) (boot priority initTick main idle flag sem) as) :
    Run.Along step HighestRuns (boot priority initTick main idle flag sem) as ↔
      Run.Steps step KeepsHighest (boot priority initTick main idle flag sem) as := by
  refine run_iff (fun _ h => h) (fun _ _ _ hs hq hi hk hm hkeep => ?_)
    (fun _ _ _ hs _ hk hbr => highestRuns_break hs hk hbr) hp hne ?_ hb
  · exact highestRuns_step hs hq hi hk hm hkeep
  · have hboot := @Sched.inv_boot τ _ priority initTick main idle hp hne
    exact (sound_boot hp hne flag sem).inv.highestRuns hboot.2.2.2.2

/-- A run in which a thread gives up waiting for a mutex, and the owner, which has inherited its
priority, then gives the mutex back. -/
def timeoutRun : List (KernelAct (Fin 3) (Fin 1)) :=
  [.call (.mutexTake 0 (-1)), .call (.startup 1), .schedule, .call (.mutexTake 0 5), .schedule,
    .timeout 1, .isrSchedule, .call (.mutexRelease 0)]

theorem highest_runs_not_timeoutRun : ¬ Run.Along step HighestRuns
    (boot (fun t => 10 - t.val) (fun _ => 10) 0 2 (fun _ => .prio) (fun _ => 0)) timeoutRun :=
  fun h => absurd ((highest_runs_iff (by decide) (by decide) (by decide +kernel)).1 h)
    (by decide +kernel)

/-- **The order of waiting.** In a run the threads of each list wait in the order of its flag if and
only if nobody inherits, while it waits, a priority that lifts it over another one in its list. -/
theorem waiters_ordered_iff (hp : ∀ t, priority t < 32) (hne : main ≠ idle)
    (hb : Run.Steps step (MayBlock idle) (boot priority initTick main idle flag sem) as) :
    Run.Along step Ordered (boot priority initTick main idle flag sem) as ↔
      Run.Steps step KeepsOrder (boot priority initTick main idle flag sem) as := by
  have hstep : ∀ (k : Kernel τ ι) a k', Sound idle k → Quiet k → Ordered k ∧ Fresh k →
      step k a = some k' → MayBlock idle k a k' → KeepsOrder k a k' → Ordered k' ∧ Fresh k' :=
    fun _ _ _ hs hq hi hk _ hkeep => ordered_step hs hq hi.1 hi.2 hk hkeep
  have hbreak : ∀ (k : Kernel τ ι) a k', Sound idle k → Ordered k ∧ Fresh k →
      step k a = some k' → ¬ KeepsOrder k a k' → ¬ Ordered k' :=
    fun _ _ _ hs hi hk hbr => ordered_break hs hi.1 hk hbr
  exact run_iff (fun _ h => h.1) hstep hbreak hp hne
    ⟨fun _ => List.Pairwise.nil, fun _ _ hu => absurd hu List.not_mem_nil⟩ hb

theorem waiters_ordered_mutexRun : Run.Along step Ordered
    (boot (fun t => 10 - t.val) (fun _ => 10) 0 2 (fun _ => .prio) (fun _ => 0)) mutexRun :=
  (waiters_ordered_iff (by decide) (by decide) (by decide +kernel)).2 (by decide +kernel)

/-- **Priority inheritance.** In a run the owner of a mutex has the priority of every thread that
waits for it, or a higher one, if and only if no thread that inherits a priority waits for a mutex
whose owner has a lower one, none that gives a mutex back goes below one that waits for another
mutex of its own, and none that gets a mutex is below the others that wait for it. -/
theorem owners_inherit_iff (hp : ∀ t, priority t < 32) (hne : main ≠ idle)
    (hb : Run.Steps step (MayBlock idle) (boot priority initTick main idle flag sem) as) :
    Run.Along step Inherits (boot priority initTick main idle flag sem) as ↔
      Run.Steps step KeepsInheritance (boot priority initTick main idle flag sem) as := by
  have hstep : ∀ (k : Kernel τ ι) a k', Sound idle k → Quiet k → Inherits k ∧ OwnersDoNotWait k →
      step k a = some k' → MayBlock idle k a k' → KeepsInheritance k a k' →
        Inherits k' ∧ OwnersDoNotWait k' :=
    fun _ _ _ hs hq hi hk _ hkeep =>
      ⟨inherits_step hs hq hi.1 hk hkeep, ownersDoNotWait_step hs hq hi.2 hk⟩
  have hbreak : ∀ (k : Kernel τ ι) a k', Sound idle k → Inherits k ∧ OwnersDoNotWait k →
      step k a = some k' → ¬ KeepsInheritance k a k' → ¬ Inherits k' :=
    fun _ _ _ hs hi hk hbr => inherits_break hs hi.2 hk hbr
  have h0 : ∀ i, ((boot priority initTick main idle flag sem).mutex i).owner = none :=
    fun _ => rfl
  refine run_iff (fun _ h => h.1) hstep hbreak hp hne ⟨fun i u ho => ?_, fun i u ho => ?_⟩ hb
  · rw [h0] at ho
    cases ho
  · rw [h0] at ho
    cases ho

/-- A run in which a thread has two mutexes, another one waits for the first, and the second is
given back. -/
def twoMutexesRun : List (KernelAct (Fin 3) (Fin 2)) :=
  [.call (.mutexTake 0 (-1)), .call (.mutexTake 1 (-1)), .call (.startup 1), .schedule,
    .call (.mutexTake 0 (-1)), .schedule, .call (.mutexRelease 1)]

theorem owners_inherit_not_twoMutexesRun : ¬ Run.Along step Inherits
    (boot (fun t => 10 - t.val) (fun _ => 10) 0 2 (fun _ => .prio) (fun _ => 0)) twoMutexesRun :=
  fun h => absurd ((owners_inherit_iff (by decide) (by decide) (by decide +kernel)).1 h)
    (by decide +kernel)

end Kernel

end Rtos
