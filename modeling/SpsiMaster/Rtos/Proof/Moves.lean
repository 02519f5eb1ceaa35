import SpsiMaster.Rtos.Proof.Wakeups

/-!
# What a step does to the threads

`step_moves`: a step of the kernel is `Calm`, or the running thread begins to wait, or it gives a
mutex back for the last time. A calm step starts no waiting and changes no priority, and where it
leaves nothing to be scheduled it has changed no status, or `rt_schedule` has chosen the thread.
The orders in which threads run and wait are derived from this alone.
-/

namespace Rtos

namespace Sched

variable {τ : Type} [DecidableEq τ] {s : Sched τ} {t u : τ}

theorem insertThread_prio (u : τ) :
    ((s.insertThread t).tcb u).currentPriority = (s.tcb u).currentPriority := by
  by_cases hu : u = t
  · subst hu
    obtain ⟨n, hn⟩ := insertThread_tcb_self s u
    rw [hn]
  · rw [insertThread_tcb_of_ne _ _ hu]

theorem threadSuspend_stamp (u : τ) :
    ((s.threadSuspend t).tcb u).stamp = (s.tcb u).stamp := by
  unfold threadSuspend
  split
  · by_cases hu : u = t
    · subst hu
      simp
    · simp [hu]
  · rfl

theorem threadSuspend_clock : (s.threadSuspend t).clock = s.clock := by
  unfold threadSuspend
  split <;> simp

/-- What a change of the running thread's time slice leaves alone. -/
theorem setCurrent_frame {f : Tcb → Tcb} (hf : ∀ c, (f c).stat = c.stat ∧
    (f c).currentPriority = c.currentPriority ∧ (f c).stamp = c.stamp) (u : τ) :
    ((s.setTcb t f).tcb u).stat = (s.tcb u).stat ∧
      ((s.setTcb t f).tcb u).currentPriority = (s.tcb u).currentPriority ∧
      ((s.setTcb t f).tcb u).stamp = (s.tcb u).stamp := by
  by_cases hu : u = t
  · subst hu
    rw [setTcb_self]
    exact hf _
  · rw [setTcb_of_ne hu]
    exact ⟨rfl, rfl, rfl⟩

theorem reload_frame (u : τ) : (s.reload.tcb u).stat = (s.tcb u).stat ∧
    (s.reload.tcb u).currentPriority = (s.tcb u).currentPriority ∧
    (s.reload.tcb u).stamp = (s.tcb u).stamp :=
  setCurrent_frame (f := fun c => { c with remainingTick := c.initTick, yielded := true })
    (fun _ => ⟨rfl, rfl, rfl⟩) u

theorem tickIncrease_frame (u : τ) : (s.tickIncrease.1.tcb u).stat = (s.tcb u).stat ∧
    (s.tickIncrease.1.tcb u).currentPriority = (s.tcb u).currentPriority ∧
    (s.tickIncrease.1.tcb u).stamp = (s.tcb u).stamp := by
  obtain ⟨h₁, h₂, h₃⟩ := setCurrent_frame (s := s) (t := s.current) (f := fun c =>
    { c with remainingTick := (c.remainingTick + 4294967295) % 4294967296 })
    (fun _ => ⟨rfl, rfl, rfl⟩) u
  unfold tickIncrease
  dsimp only
  split
  · obtain ⟨h₄, h₅, h₆⟩ := reload_frame (s := s.setTcb s.current fun c =>
      { c with remainingTick := (c.remainingTick + 4294967295) % 4294967296 }) u
    exact ⟨h₄.trans h₁, h₅.trans h₂, h₆.trans h₃⟩
  · exact ⟨h₁, h₂, h₃⟩

theorem tickIncrease_rest : s.tickIncrease.1.current = s.current ∧
    s.tickIncrease.1.lockNest = s.lockNest ∧ s.tickIncrease.1.clock = s.clock := by
  unfold tickIncrease
  dsimp only
  split <;> exact ⟨rfl, rfl, rfl⟩

end Sched

namespace Kernel

variable {τ ι : Type} {k k' k'' : Kernel τ ι} {t u idle : τ} {o : IpcObj ι}

/-- No `rt_schedule` is due, and the scheduler is not locked. -/
def Settled (k : Kernel τ ι) : Prop := k.sched.lockNest = 0 ∧ k.InThread

instance : Decidable k.Settled := inferInstanceAs (Decidable (_ ∧ _))

/-- Nobody begins to wait, no priority changes, and who goes on waiting keeps its place. -/
structure Keeps (k k' : Kernel τ ι) : Prop where
  sublist : ∀ o, (k'.waiters o).Sublist (k.waiters o)
  prio : ∀ u, k'.prio u = k.prio u
  stamp : ∀ o, ∀ u ∈ k'.waiters o, (k'.sched.tcb u).stamp = (k.sched.tcb u).stamp
  clock : k.sched.clock ≤ k'.sched.clock
  flag : k'.flag = k.flag

/-- What is neither a wait nor the end of the possession of a mutex (module doc). -/
structure Calm (k k' : Kernel τ ι) : Prop where
  keeps : Keeps k k'
  owner : ∀ i, (k'.mutex i).owner = (k.mutex i).owner ∨ (k.mutex i).owner = none
  settled : Settled k' → k'.sched.Highest ∨
    Settled k ∧ k'.self = k.self ∧ ∀ u, k'.stat u = k.stat u

namespace Keeps

theorem trans (h : Keeps k k') (h' : Keeps k' k'') : Keeps k k'' where
  sublist o := (h'.sublist o).trans (h.sublist o)
  prio u := (h'.prio u).trans (h.prio u)
  stamp o u hu := (h'.stamp o u hu).trans (h.stamp o u ((h'.sublist o).subset hu))
  clock := h.clock.trans h'.clock
  flag := h'.flag.trans h.flag

/-- The scheduler's part and the lists stay. -/
theorem same (hs : k'.sched = k.sched) (hw : k'.waiters = k.waiters) (hf : k'.flag = k.flag) :
    Keeps k k' where
  sublist o := by rw [hw]
  prio u := congrArg (fun s => (Sched.tcb s u).currentPriority) hs
  stamp o u _ := by rw [hs]
  clock := by rw [hs]
  flag := hf

/-- Nothing changes in the scheduler's part that the lists depend on. -/
theorem setSched {s : Sched τ}
    (hp : ∀ u, (s.tcb u).currentPriority = k.prio u ∧ (s.tcb u).stamp = (k.sched.tcb u).stamp)
    (hc : s.clock = k.sched.clock) : Keeps k { k with sched := s } where
  sublist _ := List.Sublist.refl _
  prio u := (hp u).1
  stamp _ u _ := (hp u).2
  clock := hc.ge
  flag := rfl

theorem scheduled (h : Inv idle k) {s : Sched τ} (hs : k.sched.Scheduled s) :
    Keeps k { k with sched := s } where
  sublist _ := List.Sublist.refl _
  prio := hs.prio
  stamp o u hu := by rw [hs.suspended u (h.waits o u hu).1]
  clock := hs.clock
  flag := rfl

variable [DecidableEq τ]

theorem resume (hnd : ∀ o, (k.waiters o).Nodup) (t : τ) : Keeps k (k.threadResume t) := by
  unfold threadResume
  split
  · refine ⟨fun _ => List.erase_sublist, Sched.insertThread_prio, fun o u hu => ?_,
      Sched.insertThread_clock _ _, rfl⟩
    have hne : u ≠ t := ((hnd o).mem_erase_iff.1 hu).1
    exact congrArg Tcb.stamp (Sched.insertThread_tcb_of_ne _ _ hne)
  · exact same rfl rfl rfl

/-- A list is emptied thread by thread. -/
theorem resumeAll (l : List τ) (hnd : ∀ o, (k.waiters o).Nodup) :
    Keeps k (l.foldl (fun k t => ((k.log (.wake t o .error)).setThread t fun c =>
      { c with error := .error }).threadResume t) k) := by
  induction l generalizing k with
  | nil => exact same rfl rfl rfl
  | cons t l ih =>
    rw [List.foldl_cons]
    have hset : Keeps k ((k.log (.wake t o .error)).setThread t fun c =>
        { c with error := .error }) := same rfl rfl rfl
    have hstep := hset.trans (resume (by exact hnd) t)
    exact hstep.trans (ih fun o' => (hnd o').sublist (hstep.sublist o'))

theorem ipcListResumeAll (h : Inv idle k) (o : IpcObj ι) : Keeps k (k.ipcListResumeAll o) :=
  resumeAll _ h.nodup

variable [DecidableEq ι]

theorem eventAnswer (hnd : ∀ o, (k.waiters o).Nodup) (i : ι) (t : τ) (set : BitVec 32) :
    Keeps k (k.eventAnswer i t set) := by
  unfold Kernel.eventAnswer
  dsimp only
  split
  · refine trans ?_ (resume (by exact hnd) t)
    exact same rfl rfl rfl
  · refine trans ?_ (resume (by exact hnd) t)
    exact same rfl rfl rfl

theorem eventSearch {i : ι} (l : List τ) (hnd : ∀ o, (k.waiters o).Nodup) (b : Bool) :
    Keeps k (Kernel.eventSearch i l k b).1 := by
  induction l generalizing k b with
  | nil => exact same rfl rfl rfl
  | cons t l ih =>
    rw [Kernel.eventSearch]
    split
    · exact same rfl rfl rfl
    · split
      · exact ih hnd b
      · next set _ =>
        have hans := eventAnswer hnd i t set
        exact hans.trans (ih (fun o => (hnd o).sublist (hans.sublist o)) true)

theorem eventSend (h : Inv idle k) (i : ι) (set : BitVec 32) : Keeps k (k.eventSend i set).1 := by
  unfold Kernel.eventSend
  split
  · exact same rfl rfl rfl
  · refine trans ?_ (eventSearch _ (by exact h.nodup) false)
    exact same rfl rfl rfl

theorem semRelease (h : Inv idle k) (i : ι) : Keeps k (k.semRelease i).1 := by
  unfold Kernel.semRelease
  split
  · refine trans ?_ (resume (by exact h.nodup) _)
    exact same rfl rfl rfl
  · split <;> exact same rfl rfl rfl

end Keeps

/-! ## Calm steps -/

namespace Calm

/-- Nobody's status has changed. -/
theorem same (h : Keeps k k') (ho : k'.mutex = k.mutex) (hs : k'.sched = k.sched)
    (hset : Settled k' → Settled k) : Calm k k' where
  keeps := h
  owner i := .inl (by rw [ho])
  settled h := .inr ⟨hset h, congrArg Sched.current hs, fun u => by rw [stat, hs]⟩

/-- An `rt_schedule` is due. -/
theorem due (h : Keeps k k') (ho : ∀ i, (k'.mutex i).owner = (k.mutex i).owner)
    (hd : ¬ Settled k') : Calm k k' where
  keeps := h
  owner i := .inl (ho i)
  settled h := absurd h hd

variable [DecidableEq τ]

theorem not_settled_needSchedule (k : Kernel τ ι) : ¬ Settled k.needSchedule := by
  rintro ⟨-, -, hd⟩
  have hdue : (k.needSchedule.thread k.needSchedule.self).due = true :=
    congrArg ThreadCall.due setThread_self
  rw [hdue] at hd
  cases hd

theorem needSchedule (h : Keeps k k') (ho : ∀ i, (k'.mutex i).owner = (k.mutex i).owner) :
    Calm k k'.needSchedule :=
  due (h.trans (.same rfl rfl rfl)) ho (not_settled_needSchedule k')

/-- A call that has made no thread ready has changed nothing but objects. -/
theorem scheduled {r : Kernel τ ι × Bool} (h : Keeps k r.1)
    (ho : ∀ i, (r.1.mutex i).owner = (k.mutex i).owner)
    (hr : r.2 = false → r.1.sched = k.sched ∧ r.1.thread = k.thread ∧ r.1.isrDue = k.isrDue) :
    Calm k (scheduled r) := by
  unfold Kernel.scheduled
  split
  · exact needSchedule h ho
  · next hf =>
    obtain ⟨hs, ht, hd⟩ := hr (by simpa using hf)
    refine ⟨h, fun i => .inl (ho i), fun hset => .inr ⟨?_, congrArg Sched.current hs, fun u => ?_⟩⟩
    · rw [Settled, InThread, self, hs, ht, hd] at hset
      exact hset
    · rw [stat, hs]

omit [DecidableEq τ] in
theorem isrScheduled {r : Kernel τ ι × Bool} (h : Keeps k r.1)
    (ho : ∀ i, (r.1.mutex i).owner = (k.mutex i).owner)
    (hr : r.2 = false → (∀ u, r.1.stat u = k.stat u) ∧ r.1.self = k.self ∧
      r.1.sched.lockNest = k.sched.lockNest ∧ r.1.thread = k.thread ∧ r.1.isrDue = k.isrDue) :
    Calm k (isrScheduled r) := by
  unfold Kernel.isrScheduled
  split
  · refine due (h.trans (.same rfl rfl rfl)) ho ?_
    rintro ⟨-, hd, -⟩
    cases hd
  · next hf =>
    obtain ⟨hst, hself, hl, ht, hd⟩ := hr (by simpa using hf)
    refine ⟨h, fun i => .inl (ho i), fun hset => .inr ⟨?_, hself, hst⟩⟩
    rwa [Settled, InThread, hself, hl, ht, hd] at hset

/-- `rt_schedule` chooses the thread. -/
theorem schedule (h : Inv idle k) (k' : Kernel τ ι) (hk : k'.sched = k.sched)
    (hth : ∀ u, (k'.thread u).pc = (k.thread u).pc ∧ (k'.thread u).timer = (k.thread u).timer ∧
      (k'.thread u).error = (k.thread u).error) (hw : k'.waiters = k.waiters)
    (hf : k'.flag = k.flag) (hm : k'.mutex = k.mutex) {k'' : Kernel τ ι}
    (hs : k'.schedule = some k'') : Calm k k'' := by
  obtain ⟨s, hs', hsch, -, hhigh, -⟩ := h.schedule k' hk hth hw
  rw [hs'] at hs
  cases hs
  refine ⟨(Keeps.scheduled h hsch).trans (.same rfl hw hf), fun i => .inl (by rw [hm]),
    fun hset => .inl (hhigh ?_)⟩
  rw [← hsch.lockNest]
  exact hset.1

variable [DecidableEq ι]

/-- Without waking anybody the search has done nothing. -/
theorem eventSearch_idle {i : ι} (l : List τ) (h : Searching i l k) (hl : l.Nodup)
    (hw : ∀ t ∈ l, t ∈ k.waiters (.event i)) (hs : ∀ t ∈ l, k.stat t = .suspend)
    (hnd : ∀ o, (k.waiters o).Nodup) {b : Bool} (hb : (eventSearch i l k b).2 = false) :
    b = false ∧ (eventSearch i l k b).1 = k := by
  induction l generalizing k b with
  | nil => exact ⟨hb, rfl⟩
  | cons t l ih =>
    obtain ⟨ht, hl⟩ := List.nodup_cons.1 hl
    have hst := hs t List.mem_cons_self
    have hne : ∀ u ∈ l, u ≠ t := fun u hu he => ht (he ▸ hu)
    rw [Kernel.eventSearch] at hb ⊢
    split at hb
    · next hf =>
      obtain ha | ho := (h.asked i t (hw t List.mem_cons_self)).1
      · rw [hf.1] at ha
        cases ha
      · rw [hf.2] at ho
        cases ho
    · next hf =>
      rw [if_neg hf]
      split at hb
      · next hr =>
        exact ih (h.skip hr) hl (fun u hu => hw u (List.mem_cons_of_mem t hu))
          (fun u hu => hs u (List.mem_cons_of_mem t hu)) hnd hb
      · next set hset =>
        have hwait : ∀ o, (k.eventAnswer i t set).waiters o = (k.waiters o).erase t := fun o => by
          rw [eventAnswer_eq hst]
          rfl
        have hfalse := (ih (h.answer hst hnd) hl (fun u hu => by
          rw [hwait]
          exact (List.mem_erase_of_ne (hne u hu)).2 (hw u (List.mem_cons_of_mem t hu)))
          (fun u hu => by
          rw [eventAnswer_stat hst, if_neg (hne u hu)]
          exact hs u (List.mem_cons_of_mem t hu)) (fun o => by
          rw [hwait]
          exact (hnd o).erase t) hb).1
        cases hfalse

theorem eventSend_idle (h : Inv idle k) (hq : Quiet k) {i : ι} {set : BitVec 32}
    (hb : (k.eventSend i set).2 = false) : (k.eventSend i set).1.sched = k.sched ∧
      (k.eventSend i set).1.thread = k.thread ∧ (k.eventSend i set).1.isrDue = k.isrDue := by
  unfold Kernel.eventSend at hb ⊢
  split at hb
  · next hz =>
    rw [if_pos hz]
    exact ⟨rfl, rfl, rfl⟩
  · next hz =>
    rw [if_neg hz]
    have hsame := (eventSearch_idle _ (hq.searching i set) (h.nodup _) (fun _ hu => hu)
      (fun u hu => (h.waits _ u hu).1) h.nodup hb).2
    exact (congrArg (fun r : Kernel τ ι => r.sched = k.sched ∧ r.thread = k.thread ∧
      r.isrDue = k.isrDue) hsame).mpr ⟨rfl, rfl, rfl⟩

theorem semRelease_idle {i : ι} (hb : (k.semRelease i).2 = false) :
    (k.semRelease i).1.sched = k.sched ∧ (k.semRelease i).1.thread = k.thread ∧
      (k.semRelease i).1.isrDue = k.isrDue := by
  unfold Kernel.semRelease at hb ⊢
  split at hb
  · cases hb
  · split <;> exact ⟨rfl, rfl, rfl⟩

end Calm

/-- What a step does (module doc). -/
inductive Moves [DecidableEq τ] [DecidableEq ι] (k : Kernel τ ι) :
    KernelAct τ ι → Kernel τ ι → Prop where
  | calm {a : KernelAct τ ι} {k' : Kernel τ ι} (h : Calm k k') : Moves k a k'
  | wait {a : KernelAct τ ι} (o : IpcObj ι) (time : Int32) (f : ThreadCall ι → ThreadCall ι)
      (hr : k.stat k.self = .running) (ho : ∀ i, o ≠ .mutex i) :
      Moves k a ((k.setThread k.self f).waitOn o time)
  | waitMutex (i : ι) (time : Int32) (u : τ) (hr : k.stat k.self = .running)
      (ho : (k.mutex i).owner = some u) (hu : u ≠ k.self) (ht : time ≠ 0) :
      Moves k (.call (.mutexTake i time))
        (((k.inherit u).setThread k.self fun c => { c with error := .eok }).waitOn (.mutex i) time)
  | giveBack (i : ι) (hr : k.stat k.self = .running) (ho : (k.mutex i).owner = some k.self)
      (hh : (k.mutex i).hold = 1) :
      Moves k (.call (.mutexRelease i)) (scheduled (k.mutexRelease i))

variable [DecidableEq τ] [DecidableEq ι]

/-- `rt_mutex_take` gives a free mutex an owner, or waits. -/
theorem Sound.moves_mutexTake (h : Sound idle k) (hin : k.InThread) {i : ι} {time : Int32}
    (hk : k.mutexTake i time = some k') : Moves k (.call (.mutexTake i time)) k' := by
  have hr := h.inv.running hin
  obtain ⟨ho, -, rfl⟩ | ⟨-, -, rfl⟩ | ⟨-, hv, rfl⟩ | ⟨-, -, -, rfl⟩ | ⟨u, ho, hu, -, ht, rfl⟩ :=
    mutexTake_cases hk
  · refine .calm ⟨.same rfl rfl rfl, fun j => .inl ?_,
      fun hs => .inr ⟨⟨hs.1, hin⟩, rfl, fun _ => rfl⟩⟩
    by_cases hj : j = i
    · subst hj
      simp [setMutex, setThread, log]
    · simp [setMutex, setThread, log, hj]
  · exact .calm (.same (.same rfl rfl rfl) rfl rfl fun hs => ⟨hs.1, hin⟩)
  · obtain ⟨hnone, -, -⟩ := (h.mutexes i).free hv
    obtain ⟨hs, hth, hw⟩ :=
      mutexFirst_frame (k := k.setThread k.self fun c => { c with error := .eok }) i
    have hflag : ((k.setThread k.self fun c => { c with error := .eok }).mutexFirst i).flag =
        k.flag := by
      unfold mutexFirst
      dsimp only
      split <;> rfl
    refine .calm ⟨.same hs hw hflag, fun j => ?_, fun hst => .inr
      ⟨⟨(congrArg Sched.lockNest hs).symm.trans hst.1, hin⟩, congrArg Sched.current hs,
        fun u => congrArg (fun s => (Sched.tcb s u).stat) hs⟩⟩
    by_cases hj : j = i
    · subst hj
      exact .inr hnone
    · refine .inl ?_
      unfold mutexFirst
      dsimp only
      split <;> simp [setMutex, setThread, log, hj]
  · exact .calm (.same (.same rfl rfl rfl) rfl rfl fun hs => ⟨hs.1, hin⟩)
  · exact .waitMutex i time u hr ho hu ht

theorem Sound.moves_mutexRelease (h : Sound idle k) (hin : k.InThread) (i : ι) :
    Moves k (.call (.mutexRelease i)) (scheduled (k.mutexRelease i)) := by
  have hr := h.inv.running hin
  obtain ⟨-, he⟩ | ⟨ho, -, he⟩ | ⟨ho, hh, -⟩ | ⟨ho, hh, -⟩ := mutexRelease_cases (h.mutexes i)
  · rw [he]
    exact .calm (.same (.same rfl rfl rfl) rfl rfl fun hs => ⟨hs.1, hin⟩)
  · rw [he]
    refine .calm ⟨.same rfl rfl rfl, fun j => .inl ?_,
      fun hs => .inr ⟨⟨hs.1, hin⟩, rfl, fun _ => rfl⟩⟩
    by_cases hj : j = i
    · subst hj
      simp [Kernel.scheduled, setMutex, log]
    · simp [Kernel.scheduled, setMutex, log, hj]
  · exact .giveBack i hr ho hh
  · exact .giveBack i hr ho hh

theorem Sound.moves_call (h : Sound idle k) (hq : Quiet k) {c : KernelCall τ ι} (hin : k.InThread)
    (hk : k.call c = some k') : Moves k (.call c) k' := by
  have hr := h.inv.running hin
  cases c with
  | semTake i time =>
    obtain ⟨-, rfl⟩ | ⟨-, -, rfl⟩ | ⟨-, -, rfl⟩ := semTake_cases hk
    · exact .calm (.same (.same rfl rfl rfl) rfl rfl id)
    · exact .calm (.same (.same rfl rfl rfl) rfl rfl id)
    · exact .wait _ _ _ hr (by simp)
  | semRelease i =>
    cases hk
    exact .calm (.scheduled (.semRelease h.inv i) (fun j => by rw [semRelease_mutex])
      Calm.semRelease_idle)
  | semReset i value =>
    cases hk
    refine .calm (.needSchedule ((Keeps.ipcListResumeAll h.inv (.sem i)).trans (.same rfl rfl rfl))
      fun j => ?_)
    exact congrArg (fun m => (m j).owner) (SameObjects.resumeAll k (.sem i)).mutex
  | mutexTake i time => exact h.moves_mutexTake hin hk
  | mutexRelease i =>
    cases hk
    exact h.moves_mutexRelease hin i
  | eventSend i set =>
    cases hk
    exact .calm (.scheduled (.eventSend h.inv i set) (fun j => by rw [eventSend_mutex])
      (Calm.eventSend_idle h.inv hq))
  | eventRecv i set option timeout =>
    obtain ⟨-, rfl⟩ | ⟨bits, -, -, -, rfl⟩ | ⟨-, -, -, -, rfl⟩ | ⟨-, -, -, -, rfl⟩ :=
      eventRecv_cases hk
    · exact .calm (.same (.same rfl rfl rfl) rfl rfl id)
    · exact .calm (.same (.same rfl rfl rfl) rfl rfl fun hs => ⟨hs.1, hin⟩)
    · exact .calm (.same (.same rfl rfl rfl) rfl rfl fun hs => ⟨hs.1, hin⟩)
    · exact .wait _ _ _ hr (by simp)
  | eventReset i =>
    cases hk
    refine .calm (.needSchedule ((Keeps.ipcListResumeAll h.inv (.event i)).trans
      (.same rfl rfl rfl)) fun j => ?_)
    exact congrArg (fun m => (m j).owner) (SameObjects.resumeAll k (.event i)).mutex
  | startup t =>
    obtain ⟨k₁, hk₁, rfl⟩ := Option.map_eq_some_iff.1 hk
    obtain ⟨-, rfl⟩ := threadStartup_cases hk₁
    refine .calm (.needSchedule (Keeps.trans ?_ (.resume (by exact h.inv.nodup) t)) fun j => ?_)
    · refine .setSched (fun u => ?_) rfl
      obtain ⟨h₁, h₂⟩ : ((k.sched.setTcb t fun c =>
          { c with stat := .suspend }).tcb u).currentPriority = k.prio u ∧
          ((k.sched.setTcb t fun c => { c with stat := .suspend }).tcb u).stamp =
            (k.sched.tcb u).stamp := by
        by_cases hu : u = t
        · subst hu
          simp
        · simp [hu]
      exact ⟨h₁, h₂⟩
    · exact congrArg (fun m => (m j).owner) (SameObjects.resume _ t).mutex
  | sleep tick =>
    obtain rfl := threadSleep_eq_some hk
    rw [fallAsleep_eq hr]
    refine .calm (.due ?_ (fun _ => rfl) ?_)
    · exact ⟨fun _ => List.Sublist.refl _, Sched.threadSuspend_prio,
        fun _ u _ => Sched.threadSuspend_stamp u, Sched.threadSuspend_clock.ge, rfl⟩
    · rintro ⟨-, -, hd⟩
      simp only [self, Sched.threadSuspend_current, Function.update_self] at hd
      cases hd
  | yield =>
    have hset := h.inv.sameStat (s := k.sched.reload) (h.inv.sched.setCurrent rfl rfl)
      (fun u => (Sched.reload_frame u).1) rfl rfl
    have hcalm := Calm.schedule hset { k with sched := k.sched.reload } rfl
      (fun _ => ⟨rfl, rfl, rfl⟩) rfl rfl rfl hk
    refine .calm ⟨Keeps.trans ?_ hcalm.keeps, hcalm.owner, fun hs => ?_⟩
    · exact .setSched (fun u => (Sched.reload_frame u).2) rfl
    · obtain hh | ⟨⟨hl, -⟩, hself, hst⟩ := hcalm.settled hs
      · exact .inl hh
      · refine .inr ⟨⟨hl, hin⟩, hself, fun u => (hst u).trans ?_⟩
        exact (Sched.reload_frame u).1
  | enterCritical =>
    cases hk
    refine .calm (.due ?_ (fun _ => rfl) ?_)
    · exact .setSched (fun _ => ⟨rfl, rfl⟩) rfl
    · rintro ⟨hl, -⟩
      cases hl
  | exitCritical =>
    cases hk
    have hkeeps : Keeps k { k with
        sched := { k.sched with lockNest := k.sched.lockNest - 1 } } :=
      .setSched (fun _ => ⟨rfl, rfl⟩) rfl
    unfold Kernel.exitCritical
    dsimp only
    split
    · exact .calm (.needSchedule hkeeps fun _ => rfl)
    · next hl =>
      refine .calm (.due hkeeps (fun _ => rfl) ?_)
      rintro ⟨hl', -⟩
      exact hl hl'

/-- What a step does. -/
theorem step_moves {a : KernelAct τ ι} (h : Sound idle k) (hq : Quiet k)
    (hk : step k a = some k') : Moves k a k' := by
  cases stepsTo_of_step hk with
  | call hin _ hk => exact h.moves_call hq hin hk
  | retWait hin _ => exact .calm (.same (.same rfl rfl rfl) rfl rfl fun hs => ⟨hs.1, hin⟩)
  | retSleep hin _ => exact .calm (.same (.same rfl rfl rfl) rfl rfl fun hs => ⟨hs.1, hin⟩)
  | schedule _ _ hk =>
    refine .calm (Calm.schedule h.inv _ ?_ (fun u => ?_) ?_ ?_ ?_ hk)
    · rfl
    · by_cases hu : u = k.self
      · subst hu
        simp
      · simp [hu]
    · rfl
    · rfl
    · rfl
  | isrSchedule _ hk =>
    exact .calm (Calm.schedule h.inv { k with isrDue := false } rfl (fun _ => ⟨rfl, rfl, rfl⟩)
      rfl rfl rfl hk)
  | isrSemRelease i =>
    refine .calm (.isrScheduled (.semRelease h.inv i) (fun j => by rw [semRelease_mutex])
      fun hf => ?_)
    obtain ⟨hs, ht, hd⟩ := Calm.semRelease_idle hf
    exact ⟨fun u => by rw [stat, hs], congrArg Sched.current hs, congrArg Sched.lockNest hs, ht, hd⟩
  | isrEventSend i set =>
    refine .calm (.isrScheduled (.eventSend h.inv i set) (fun j => by rw [eventSend_mutex])
      fun hf => ?_)
    obtain ⟨hs, ht, hd⟩ := Calm.eventSend_idle h.inv hq hf
    exact ⟨fun u => by rw [stat, hs], congrArg Sched.current hs, congrArg Sched.lockNest hs, ht, hd⟩
  | @timeout t _ _ hk =>
    obtain ⟨-, _, -, rfl⟩ := threadTimeout_cases hk
    refine .calm (.due ?_ (fun _ => rfl) ?_)
    · refine ⟨fun _ => List.erase_sublist, Sched.insertThread_prio, fun o u hu => ?_,
        Sched.insertThread_clock _ _, rfl⟩
      have hne : u ≠ t := ((h.inv.nodup o).mem_erase_iff.1 hu).1
      exact congrArg Tcb.stamp (Sched.insertThread_tcb_of_ne _ _ hne)
    · rintro ⟨-, hd, -⟩
      cases hd
  | tick =>
    obtain ⟨hc, hl, hcl⟩ := Sched.tickIncrease_rest (s := k.sched)
    exact .calm (.isrScheduled (.setSched (fun u => (Sched.tickIncrease_frame u).2) hcl)
      (fun _ => rfl) fun _ => ⟨fun u => (Sched.tickIncrease_frame u).1, hc, hl, rfl, rfl⟩)

end Kernel

end Rtos
