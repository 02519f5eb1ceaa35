import SpsiMaster.Rtos.Kernel
import SpsiMaster.Rtos.Proof.ReadyQueues

/-!
# The threads of the kernel

`Kernel.Inv`: a suspended thread sleeps or is in the list of the one object that it waits for, a
thread in a list is suspended, and only a suspended thread has its timer running. This module has
what a thread does to it that suspends itself, is woken, or goes through `rt_schedule`.
-/

namespace Rtos

namespace Sched

variable {τ : Type} [DecidableEq τ] {s : Sched τ} {t u : τ}

theorem insertThread_stat (u : τ) : ((s.insertThread t).tcb u).stat =
    if u = t then if t = s.current then .running else .ready else (s.tcb u).stat := by
  by_cases hu : u = t
  · subst hu
    obtain ⟨n, hn⟩ := insertThread_tcb_self s u
    rw [hn, if_pos rfl]
  · rw [insertThread_tcb_of_ne _ _ hu, if_neg hu]

theorem threadSuspend_stat (h : (s.tcb t).stat = .ready ∨ (s.tcb t).stat = .running) (u : τ) :
    ((s.threadSuspend t).tcb u).stat = if u = t then .suspend else (s.tcb u).stat := by
  unfold threadSuspend
  rw [if_pos h]
  by_cases hu : u = t
  · subst hu
    simp
  · simp [hu]

theorem threadSuspend_current : (s.threadSuspend t).current = s.current := by
  unfold threadSuspend
  split <;> simp

theorem threadSuspend_lockNest : (s.threadSuspend t).lockNest = s.lockNest := by
  unfold threadSuspend
  split <;> simp

theorem changePriority_current {p : Nat} : (s.changePriority t p).current = s.current := by
  unfold changePriority
  split <;> simp

theorem changePriority_lockNest {p : Nat} : (s.changePriority t p).lockNest = s.lockNest := by
  unfold changePriority
  split <;> simp

theorem Inv.changePriority_stat (h : Inv s) {p : Nat} (u : τ) :
    ((s.changePriority t p).tcb u).stat = (s.tcb u).stat := by
  unfold Sched.changePriority
  split
  · next hr =>
    rw [insertThread_stat]
    by_cases hu : u = t
    · subst hu
      simp [hr, h.ready_ne hr]
    · simp [hu]
  · by_cases hu : u = t
    · subst hu
      simp
    · simp [hu]

theorem threadSuspend_prio (u : τ) :
    ((s.threadSuspend t).tcb u).currentPriority = (s.tcb u).currentPriority := by
  unfold threadSuspend
  split
  · by_cases hu : u = t
    · subst hu
      simp
    · simp [hu]
  · rfl

/-- The node of a thread that no queue holds is linked into another list. -/
theorem Inv.link (h : Inv s) (hs : (s.tcb t).stat ≠ .ready) : Inv (s.link t) := by
  have hn := h.queues.not_mem_of_stat hs
  have hset : Queues (s.setTcb t fun c => { c with stamp := s.clock }) none :=
    h.queues.set hn (h.queues.bound t) (fun u _ => Iff.rfl) (fun hr => absurd hr hs)
  refine ⟨{ hset with fresh := fun p u hu => ?_ }, fun u hu => ?_, ?_⟩
  · exact Nat.lt_succ_of_lt (hset.fresh p u hu)
  · refine h.running u ?_
    by_cases hut : u = t
    · subst hut
      simpa [Sched.link] using hu
    · simpa [Sched.link, hut] using hu
  · by_cases hc : s.current = t
    · subst hc
      simpa [Sched.link] using h.current
    · simpa [Sched.link, hc] using h.current

theorem link_stat (u : τ) : ((s.link t).tcb u).stat = (s.tcb u).stat := by
  by_cases hu : u = t
  · subst hu
    simp [Sched.link]
  · simp [Sched.link, hu]

end Sched

namespace Kernel

variable {τ ι : Type} {k k' : Kernel τ ι} {t u idle : τ} {o : IpcObj ι}
  {f : ThreadCall ι → ThreadCall ι}

/-- The threads and the lists fit together (module doc). -/
structure Inv (idle : τ) (k : Kernel τ ι) : Prop where
  sched : k.sched.Inv
  waits : ∀ o, ∀ t ∈ k.waiters o,
    k.stat t = .suspend ∧ (k.thread t).pc = .wait o ∧ (k.thread t).error = .eok
  nodup : ∀ o, (k.waiters o).Nodup
  suspended : ∀ t, k.stat t = .suspend →
    (k.thread t).pc = .sleep ∨ ∃ o, (k.thread t).pc = .wait o ∧ t ∈ k.waiters o
  timer : ∀ t, (k.thread t).timer = true → k.stat t = .suspend
  init : ∀ t, k.stat t = .init → (k.thread t).pc = .own
  blocked : k.stat k.self = .suspend → (k.thread k.self).due = true ∧ k.sched.lockNest = 0
  idle : k.stat idle = .ready ∨ k.stat idle = .running

namespace Inv

/-- What the invariant is about. -/
theorem congr (h : Inv idle k) (hs : k'.sched = k.sched) (ht : k'.thread = k.thread)
    (hw : k'.waiters = k.waiters) : Inv idle k' where
  sched := hs ▸ h.sched
  waits := by simp only [stat, hs, ht, hw]; exact h.waits
  nodup := by rw [hw]; exact h.nodup
  suspended := by simp only [stat, hs, ht, hw]; exact h.suspended
  timer := by simp only [stat, hs, ht]; exact h.timer
  init := by simp only [stat, hs, ht]; exact h.init
  blocked := by simp only [stat, self, hs, ht]; exact h.blocked
  idle := by simp only [stat, hs]; exact h.idle

theorem logged (h : Inv idle k) (e : KernelEvent τ ι) : Inv idle (k.log e) := h.congr rfl rfl rfl

theorem not_mem (h : Inv idle k) (hs : k.stat t ≠ .suspend) (o : IpcObj ι) : t ∉ k.waiters o :=
  fun hm => hs (h.waits o t hm).1

/-- A thread waits for one object. -/
theorem mem_unique (h : Inv idle k) {o' : IpcObj ι} (hm : t ∈ k.waiters o)
    (hm' : t ∈ k.waiters o') : o = o' := by
  have hp := (h.waits o t hm).2.1
  rw [(h.waits o' t hm').2.1] at hp
  exact (ThreadPc.wait.inj hp).symm

/-- The idle thread can run. -/
theorem group_ne_zero (h : Inv idle k) (hs : k.stat k.self = .suspend) : k.sched.group ≠ 0 := by
  have hr : k.stat idle = .ready := h.idle.resolve_right fun hr => by
    have hc : idle = k.self := h.sched.running idle hr
    rw [hc, hs] at hr
    cases hr
  have hm := (h.sched.queues.mem (k.prio idle) idle).2 ⟨hr, rfl, by simp⟩
  intro hz
  have hg := (h.sched.queues.group (k.prio idle)).2 (List.ne_nil_of_mem hm)
  simp [hz] at hg

end Inv

variable [DecidableEq τ]

@[simp] theorem setThread_self : (k.setThread t f).thread t = f (k.thread t) := by
  simp [setThread]

@[simp] theorem setThread_of_ne (h : u ≠ t) : (k.setThread t f).thread u = k.thread u := by
  simp [setThread, h]

theorem setThread_setThread {g : ThreadCall ι → ThreadCall ι} :
    (k.setThread t f).setThread t g = k.setThread t fun c => g (f c) := by
  simp [setThread]

/-- What `rt_thread_startup` does. -/
theorem threadStartup_cases (hk : k.threadStartup t = some k') :
    k.stat t = .init ∧
      k' = { k with
        sched := k.sched.setTcb t fun c => { c with stat := .suspend } }.threadResume t := by
  unfold threadStartup at hk
  split at hk
  · next hs =>
    cases hk
    exact ⟨hs, rfl⟩
  · cases hk

namespace Inv

/-- A change of a thread that is not suspended. -/
theorem setActive (h : Inv idle k) (hs : k.stat t ≠ .suspend)
    (ht : (f (k.thread t)).timer = false)
    (hi : k.stat t = .init → (f (k.thread t)).pc = .own) : Inv idle (k.setThread t f) where
  sched := h.sched
  waits o u hu := by
    have hne : u ≠ t := by
      rintro rfl
      exact h.not_mem hs o hu
    rw [setThread_of_ne hne]
    exact h.waits o u hu
  nodup := h.nodup
  suspended u hu := by
    have hne : u ≠ t := by
      rintro rfl
      exact hs hu
    rw [setThread_of_ne hne]
    exact h.suspended u hu
  timer u hu := by
    by_cases hne : u = t
    · subst hne
      rw [setThread_self, ht] at hu
      cases hu
    · rw [setThread_of_ne hne] at hu
      exact h.timer u hu
  init u hu := by
    by_cases hne : u = t
    · subst hne
      rw [setThread_self]
      exact hi hu
    · rw [setThread_of_ne hne]
      exact h.init u hu
  blocked hb := by
    have hne : k.self ≠ t := by
      rintro rfl
      exact hs hb
    refine ⟨?_, (h.blocked hb).2⟩
    change ((k.setThread t f).thread k.self).due = true
    rw [setThread_of_ne hne]
    exact (h.blocked hb).1
  idle := h.idle

/-- A change of a thread that leaves it where it is. -/
theorem setKept (h : Inv idle k) (hp : (f (k.thread t)).pc = (k.thread t).pc)
    (ht : (f (k.thread t)).timer = (k.thread t).timer)
    (he : (f (k.thread t)).error = (k.thread t).error)
    (hd : (k.thread t).due = true → (f (k.thread t)).due = true) : Inv idle (k.setThread t f) := by
  have hkeep : ∀ u, ((k.setThread t f).thread u).pc = (k.thread u).pc ∧
      ((k.setThread t f).thread u).timer = (k.thread u).timer ∧
      ((k.setThread t f).thread u).error = (k.thread u).error ∧
      ((k.thread u).due = true → ((k.setThread t f).thread u).due = true) := by
    intro u
    by_cases hu : u = t
    · subst hu
      rw [setThread_self]
      exact ⟨hp, ht, he, hd⟩
    · rw [setThread_of_ne hu]
      exact ⟨rfl, rfl, rfl, id⟩
  refine ⟨h.sched, fun o u hu => ?_, h.nodup, fun u hu => ?_, fun u hu => ?_, fun u hu => ?_,
    fun hb => ?_, h.idle⟩
  · rw [(hkeep u).1, (hkeep u).2.2.1]
    exact h.waits o u hu
  · rw [(hkeep u).1]
    exact h.suspended u hu
  · rw [(hkeep u).2.1] at hu
    exact h.timer u hu
  · rw [(hkeep u).1]
    exact h.init u hu
  · exact ⟨(hkeep _).2.2.2 (h.blocked hb).1, (h.blocked hb).2⟩

/-- A thread that is suspended, or has not been started, gets ready. -/
theorem insert (h : Inv idle k) (hs : k.stat t = .suspend ∨ k.stat t = .init) {s : Sched τ}
    (hsched : s.Inv) (hcur : s.current = k.self) (hlock : s.lockNest = k.sched.lockNest)
    (hstat : ∀ u, (s.tcb u).stat =
      if u = t then if t = k.self then .running else .ready else k.stat u)
    (hth : ∀ u, u ≠ t → k'.thread u = k.thread u) (htimer : (k'.thread t).timer = false)
    (hk : k'.sched = s) (hw : k'.waiters = fun o => (k.waiters o).erase t) : Inv idle k' := by
  subst hk
  have hnew : k'.stat t ≠ .suspend ∧ k'.stat t ≠ .init := by
    rw [stat, hstat, if_pos rfl]
    split <;> decide
  have hself : k'.self = k.self := hcur
  have hold : ∀ {u}, u ≠ t → k'.stat u = k.stat u := fun hu => by rw [stat, hstat, if_neg hu]
  have hne : ∀ {u}, k'.stat u = .suspend ∨ k'.stat u = .init → u ≠ t := by
    rintro u hu rfl
    exact hu.elim hnew.1 hnew.2
  refine ⟨hsched, fun o u hu => ?_, fun o => by rw [hw]; exact (h.nodup o).erase _, fun u hu => ?_,
    fun u hu => ?_, fun u hu => ?_, fun hb => ?_, ?_⟩
  · rw [hw] at hu
    obtain ⟨hut, hm⟩ := (h.nodup o).mem_erase_iff.1 hu
    rw [hold hut, hth u hut]
    exact h.waits o u hm
  · have hut := hne (.inl hu)
    rw [hold hut] at hu
    rw [hth u hut, hw]
    obtain hsl | ⟨o, ho, hm⟩ := h.suspended u hu
    · exact .inl hsl
    · exact .inr ⟨o, ho, (h.nodup o).mem_erase_iff.2 ⟨hut, hm⟩⟩
  · by_cases hut : u = t
    · subst hut
      rw [htimer] at hu
      cases hu
    · rw [hth u hut] at hu
      rw [hold hut]
      exact h.timer u hu
  · have hut := hne (.inr hu)
    rw [hold hut] at hu
    rw [hth u hut]
    exact h.init u hu
  · rw [hself] at hb ⊢
    have hut := hne (.inl hb)
    rw [hold hut] at hb
    rw [hth _ hut]
    exact ⟨(h.blocked hb).1, hlock.trans (h.blocked hb).2⟩
  · have hut : idle ≠ t := by
      rintro rfl
      obtain hr | hr := h.idle <;> obtain hs | hs := hs <;> rw [hs] at hr <;> cases hr
    rw [hold hut]
    exact h.idle

/-- A suspended thread is woken. -/
theorem wake (h : Inv idle k) (hs : k.stat t = .suspend) (ht : (f (k.thread t)).timer = false) :
    Inv idle ((k.setThread t f).wakeUp t) :=
  h.insert (.inl hs) (h.sched.insert hs) (Sched.insertThread_current _ _)
    (Sched.insertThread_lockNest _ _) Sched.insertThread_stat (fun _ hu => setThread_of_ne hu)
    (by simpa [wakeUp] using ht) rfl rfl

theorem resume (h : Inv idle k) (hs : k.stat t = .suspend) : Inv idle (k.threadResume t) := by
  rw [threadResume, if_pos hs]
  exact h.wake hs rfl

/-- `rt_thread_startup` of a thread that has not been started. -/
theorem startup (h : Inv idle k) (hk : k.threadStartup t = some k') : Inv idle k' := by
  obtain ⟨hs, rfl⟩ := threadStartup_cases hk
  have hne : t ≠ k.self := by
    rintro rfl
    obtain hr | hr := h.sched.current <;> rw [stat, hr] at hs <;> cases hs
  have hn := h.sched.queues.not_mem_of_stat (t := t) fun hr => by
    rw [stat, hr] at hs
    cases hs
  have hsched : (k.sched.setTcb t fun c => { c with stat := .suspend }).Inv := by
    refine ⟨h.sched.queues.set hn (h.sched.queues.bound t) (fun u _ => Iff.rfl) (by simp),
      fun u hu => ?_, ?_⟩
    · by_cases hut : u = t
      · subst hut
        simp at hu
      · rw [Sched.setTcb_of_ne hut] at hu
        exact h.sched.running u hu
    · rw [Sched.setTcb_current, Sched.setTcb_of_ne (Ne.symm hne)]
      exact h.sched.current
  have hsus : ((k.sched.setTcb t fun c => { c with stat := .suspend }).tcb t).stat = .suspend := by
    simp
  rw [threadResume, if_pos hsus]
  refine h.insert (.inr hs) (hsched.insert hsus) (Sched.insertThread_current _ _)
    (Sched.insertThread_lockNest _ _) (fun u => ?_) (fun _ hu => ?_) ?_ rfl rfl
  · rw [Sched.insertThread_stat]
    by_cases hut : u = t
    · rw [if_pos hut, if_pos hut]
      rfl
    · rw [if_neg hut, if_neg hut, Sched.setTcb_of_ne hut]
  · simp [wakeUp, hu]
  · simp [wakeUp]

/-- The running thread suspends itself: `l` is the list it is in afterwards. -/
theorem suspend (h : Inv idle k) (hs : k.stat k.self = .running) (hl : k.sched.lockNest = 0)
    (hi : k.self ≠ idle) {s : Sched τ} (hsched : s.Inv) (hcur : s.current = k.self)
    (hlock : s.lockNest = k.sched.lockNest)
    (hstat : ∀ u, (s.tcb u).stat = if u = k.self then .suspend else k.stat u)
    {th : τ → ThreadCall ι} (hth : ∀ u, u ≠ k.self → th u = k.thread u)
    (hdue : (th k.self).due = true) {w : IpcObj ι → List τ} (hnd : ∀ o, (w o).Nodup)
    (hw : ∀ o u, u ∈ w o ↔ u ∈ k.waiters o ∨
      u = k.self ∧ (th k.self).pc = .wait o ∧ (th k.self).error = .eok)
    (hpc : (th k.self).pc = .sleep ∨ ∃ o, (th k.self).pc = .wait o ∧ (th k.self).error = .eok)
    (hsk : k'.sched = s) (htk : k'.thread = th) (hwk : k'.waiters = w) : Inv idle k' := by
  subst hsk htk hwk
  have hnot := h.not_mem (t := k.self) (by rw [hs]; decide)
  have hself : k'.stat k.self = .suspend := by rw [stat, hstat, if_pos rfl]
  have hold : ∀ {u}, u ≠ k.self → k'.stat u = k.stat u := fun hu => by rw [stat, hstat, if_neg hu]
  refine ⟨hsched, fun o u hu => ?_, hnd, fun u hu => ?_, fun u hu => ?_, fun u hu => ?_,
    fun _ => ?_, ?_⟩
  · obtain hm | ⟨rfl, hp, he⟩ := (hw o u).1 hu
    · have hne : u ≠ k.self := by
        rintro rfl
        exact hnot o hm
      rw [hold hne, hth u hne]
      exact h.waits o u hm
    · exact ⟨hself, hp, he⟩
  · by_cases hne : u = k.self
    · subst hne
      obtain hp | ⟨o, hp, he⟩ := hpc
      · exact .inl hp
      · exact .inr ⟨o, hp, (hw o _).2 (.inr ⟨rfl, hp, he⟩)⟩
    · rw [hold hne] at hu
      rw [hth u hne]
      obtain hsl | ⟨o, hp, hm⟩ := h.suspended u hu
      · exact .inl hsl
      · exact .inr ⟨o, hp, (hw o u).2 (.inl hm)⟩
  · by_cases hne : u = k.self
    · rw [hne]
      exact hself
    · rw [hth u hne] at hu
      rw [hold hne]
      exact h.timer u hu
  · have hne : u ≠ k.self := by
      rintro rfl
      rw [hself] at hu
      cases hu
    rw [hold hne] at hu
    rw [hth u hne]
    exact h.init u hu
  · have hc : k'.self = k.self := hcur
    rw [hc]
    exact ⟨hdue, hlock.trans hl⟩
  · rw [hold (Ne.symm hi)]
    exact h.idle

omit [DecidableEq τ] in
/-- The scheduler changes no status. -/
theorem sameStat (h : Inv idle k) {s : Sched τ} (hs : s.Inv) (hst : ∀ u, (s.tcb u).stat = k.stat u)
    (hcur : s.current = k.self) (hlock : s.lockNest = k.sched.lockNest) :
    Inv idle { k with sched := s } := by
  have hstat : ∀ u, ({ k with sched := s } : Kernel τ ι).stat u = k.stat u := hst
  have hself : ({ k with sched := s } : Kernel τ ι).self = k.self := hcur
  refine ⟨hs, ?_, h.nodup, ?_, ?_, ?_, ?_, ?_⟩ <;> simp only [hstat, hself, hlock]
  exacts [h.waits, h.suspended, h.timer, h.init, h.blocked, h.idle]

theorem changePriority (h : Inv idle k) {p : Nat} (hp : p < 32) :
    Inv idle { k with sched := k.sched.changePriority t p } :=
  h.sameStat (h.sched.changePriority hp) h.sched.changePriority_stat
    Sched.changePriority_current Sched.changePriority_lockNest

end Inv

theorem mem_prioInsert {prio : τ → Nat} {l : List τ} :
    u ∈ prioInsert prio t l ↔ u = t ∨ u ∈ l := by
  induction l with
  | nil => simp [prioInsert]
  | cons v l ih =>
    rw [prioInsert]
    split
    · simp
    · rw [List.mem_cons, ih, List.mem_cons]
      tauto

theorem nodup_prioInsert {prio : τ → Nat} {l : List τ} (h : l.Nodup) (ht : t ∉ l) :
    (prioInsert prio t l).Nodup := by
  induction l with
  | nil => simp [prioInsert]
  | cons v l ih =>
    rw [prioInsert]
    obtain ⟨hv, hl⟩ := List.nodup_cons.1 h
    obtain ⟨htv, htl⟩ := not_or.1 (List.mem_cons.not.1 ht)
    split
    · exact List.nodup_cons.2 ⟨ht, h⟩
    · refine List.nodup_cons.2 ⟨fun hm => ?_, ih hl htl⟩
      obtain he | hm := mem_prioInsert.1 hm
      · exact htv he.symm
      · exact hv hm

theorem mem_joined : u ∈ k.joined o t ↔ u = t ∨ u ∈ k.waiters o := by
  unfold joined
  split
  · simp [or_comm]
  · exact mem_prioInsert

theorem nodup_joined (h : (k.waiters o).Nodup) (ht : t ∉ k.waiters o) : (k.joined o t).Nodup := by
  unfold joined
  split
  · exact List.nodup_append.2 ⟨h, List.nodup_singleton _, fun a ha b hb he =>
      ht (List.mem_singleton.1 hb ▸ he ▸ ha)⟩
  · exact nodup_prioInsert h ht

variable [DecidableEq ι]

omit [DecidableEq τ] [DecidableEq ι] in
theorem joined_congr (hf : k'.flag = k.flag) (hw : k'.waiters = k.waiters) (hp : k'.prio = k.prio) :
    k'.joined o t = k.joined o t := by
  unfold joined
  rw [hf, hw, hp]

omit [DecidableEq ι] in
theorem joined_threadSuspend (u : τ) : (k.threadSuspend u).joined o t = k.joined o t := by
  unfold threadSuspend
  split
  · exact joined_congr rfl rfl (funext Sched.threadSuspend_prio)
  · rfl

/-- What a call that waits does. -/
theorem waitOn_eq (hs : k.stat k.self = .running) (o : IpcObj ι) (time : Int32) :
    k.waitOn o time = { k with
      sched := (k.sched.threadSuspend k.self).link k.self
      thread := Function.update k.thread k.self
        { k.thread k.self with timer := decide (0 < time), pc := .wait o, due := true }
      waiters := Function.update k.waiters o (k.joined o k.self)
      hist := .wait k.self o :: k.hist } := by
  simp only [waitOn, ipcListSuspend, joined_threadSuspend]
  by_cases ht : 0 < time
  · simp only [threadSuspend, hs, or_true, if_true, ht, decide_true, setThread, log,
      Function.update_self, Function.update_idem]
  · simp only [threadSuspend, hs, or_true, if_true, ht, decide_false, if_false, setThread, log,
      Function.update_self, Function.update_idem]

theorem waitOn_stat (hs : k.stat k.self = .running) {time : Int32} :
    (k.waitOn o time).stat k.self = .suspend := by
  rw [waitOn_eq hs]
  exact (Sched.link_stat _).trans (by rw [Sched.threadSuspend_stat (.inr hs), if_pos rfl])

omit [DecidableEq ι] in
/-- What `rt_thread_sleep` does. -/
theorem fallAsleep_eq (hs : k.stat k.self = .running) :
    k.fallAsleep = { k with
      sched := k.sched.threadSuspend k.self
      thread := Function.update k.thread k.self
        { k.thread k.self with timer := true, pc := .sleep, due := true } } := by
  simp only [fallAsleep, threadSuspend, hs, or_true, if_true, setThread, Function.update_self,
    Function.update_idem]

namespace Inv

theorem waitOn (h : Inv idle k) (hs : k.stat k.self = .running) (hl : k.sched.lockNest = 0)
    (hi : k.self ≠ idle) (he : (k.thread k.self).error = .eok) (time : Int32) :
    Inv idle (k.waitOn o time) := by
  have hnot := h.not_mem (t := k.self) (by rw [hs]; decide)
  have hstat := Sched.threadSuspend_stat (s := k.sched) (.inr hs)
  refine h.suspend hs hl hi (h.sched.suspend.link ?_) ?_ ?_ (fun u => ?_) (fun u hu => ?_) ?_
    (fun o' => ?_) (fun o' u => ?_) (.inr ⟨o, ?_⟩) (congrArg Kernel.sched (waitOn_eq hs o time))
    (congrArg Kernel.thread (waitOn_eq hs o time)) (congrArg Kernel.waiters (waitOn_eq hs o time))
  · rw [hstat, if_pos rfl]
    decide
  · exact Sched.threadSuspend_current
  · exact Sched.threadSuspend_lockNest
  · rw [Sched.link_stat, hstat]
  · exact Function.update_of_ne hu _ _
  · simp only [Function.update_self]
  · by_cases ho : o' = o
    · subst ho
      simp only [Function.update_self]
      exact nodup_joined (h.nodup _) (hnot _)
    · simp only [Function.update_of_ne ho]
      exact h.nodup o'
  · simp only [Function.update_self]
    by_cases ho : o' = o
    · subst ho
      simp [mem_joined, he, or_comm]
    · simp [ho, Ne.symm ho]
  · simp [he]

omit [DecidableEq ι] in
theorem sleep (h : Inv idle k) (hs : k.stat k.self = .running) (hl : k.sched.lockNest = 0)
    (hi : k.self ≠ idle) : Inv idle k.fallAsleep := by
  have hstat := Sched.threadSuspend_stat (s := k.sched) (.inr hs)
  refine h.suspend hs hl hi h.sched.suspend Sched.threadSuspend_current
    Sched.threadSuspend_lockNest hstat (fun u hu => ?_) ?_ h.nodup (fun o' u => ?_) (.inl ?_)
    (congrArg Kernel.sched (fallAsleep_eq hs)) (congrArg Kernel.thread (fallAsleep_eq hs))
    (by rw [fallAsleep_eq hs])
  · exact Function.update_of_ne hu _ _
  · simp only [Function.update_self]
  · simp
  · simp only [Function.update_self]

omit [DecidableEq ι] in
/-- `rt_schedule`, by a thread that goes on behind it. -/
theorem schedule (h : Inv idle k) (k' : Kernel τ ι) (hk : k'.sched = k.sched)
    (hth : ∀ u, (k'.thread u).pc = (k.thread u).pc ∧ (k'.thread u).timer = (k.thread u).timer ∧
      (k'.thread u).error = (k.thread u).error) (hw : k'.waiters = k.waiters) :
    ∃ s, k'.schedule = some { k' with sched := s } ∧ k.sched.Scheduled s ∧ k.sched.Next s ∧
      (k.sched.lockNest = 0 → s.Highest) ∧ Inv idle { k' with sched := s } := by
  obtain ⟨s, hs, hsch, hnext⟩ := h.sched.schedule
  have hhigh : k.sched.lockNest = 0 → s.Highest := fun hl => hsch.highest hl h.group_ne_zero
  refine ⟨s, by rw [Kernel.schedule, hk, hs]; rfl, hsch, hnext, hhigh, ?_⟩
  have hsus : ∀ u, (s.tcb u).stat = .suspend ↔ k.stat u = .suspend := fun u => by
    obtain he | ⟨h₁, h₂⟩ | ⟨h₁, h₂⟩ := hsch.stat u
    · rw [stat, he]
    · rw [stat, h₁, h₂]
      decide
    · rw [stat, h₁, h₂]
      decide
  refine ⟨hsch.inv, fun o u hu => ?_, by rw [hw]; exact h.nodup, fun u hu => ?_, fun u hu => ?_,
    fun u hu => ?_, fun hb => ?_, ?_⟩
  · rw [hw] at hu
    rw [(hth u).1, (hth u).2.2]
    exact ⟨(hsus u).2 (h.waits o u hu).1, (h.waits o u hu).2⟩
  · rw [(hth u).1, hw]
    exact h.suspended u ((hsus u).1 hu)
  · rw [(hth u).2.1] at hu
    exact (hsus u).2 (h.timer u hu)
  · rw [(hth u).1]
    refine h.init u ?_
    obtain he | ⟨-, h₂⟩ | ⟨-, h₂⟩ := hsch.stat u
    · exact he.trans hu
    · exact absurd (h₂.symm.trans hu) (by decide)
    · exact absurd (h₂.symm.trans hu) (by decide)
  · -- a thread that is suspended is not the one that runs after `rt_schedule`
    have hb' : (s.tcb s.current).stat = .suspend := hb
    have hs' := hsch.blocked hb'
    rw [hs'] at hb'
    have hr := (hhigh (h.blocked hb').2).running
    rw [hs', hb'] at hr
    cases hr
  · obtain he | ⟨-, h₂⟩ | ⟨-, h₂⟩ := hsch.stat idle
    · rw [stat, ← he]
      exact h.idle
    · exact .inr h₂
    · exact .inl h₂

end Inv

end Kernel

end Rtos
