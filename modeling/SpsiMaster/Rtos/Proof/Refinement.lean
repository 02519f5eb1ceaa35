import SpsiMaster.Rtos.Proof.Wakeups

/-!
# The kernel refines the objects

`Kernel.objects`: the threads and the objects of `Rtos/Objects.lean` that a state stands for. What
a step adds to `hist` is a run of `Objects.step` between the states before and after it (`Does`):
every call does what it may do there, in an order in which it may do it (`does_step`), and so does
every run (`refines`).
-/

namespace Rtos

namespace Objects

variable {τ ι : Type} [DecidableEq τ] [DecidableEq ι] {s : Objects τ ι} {t : τ} {o : IpcObj ι}

/-- A thread that did not wait goes on. -/
theorem grant_active (h : s.status t = .active) : s.grant t o = s := if_pos h

/-- A thread that waited has its answer. -/
theorem grant_waiting (h : s.status t = .waiting o) :
    s.grant t o = s.setStatus t (.answered o .eok) :=
  if_neg (by simp [h])

end Objects

/-- The bits that are received have been sent, and they are those of the asked ones that have. -/
theorem EventInfo.received_spec {info : EventInfo} {set sent bits : BitVec 32}
    (h : info.received set sent = some bits) (hs : set ≠ 0) :
    bits ≠ 0 ∧ bits &&& sent = bits ∧ sent &&& ~~~bits = sent &&& ~~~set := by
  unfold EventInfo.received at h
  split at h
  · split at h <;> cases h
    next ha => exact ⟨hs, ha, rfl⟩
  · split at h
    · split at h <;> cases h
      next hne =>
        refine ⟨hne, by rw [BitVec.and_assoc, BitVec.and_self], ?_⟩
        refine BitVec.eq_of_getLsbD_eq fun j hj => ?_
        simp only [BitVec.getLsbD_and, BitVec.getLsbD_not, hj, decide_true, Bool.true_and]
        cases set.getLsbD j <;> cases sent.getLsbD j <;> rfl
    · cases h

namespace Kernel

variable {τ ι : Type} {k k' k'' : Kernel τ ι} {t u idle : τ} {o : IpcObj ι}
  {f : ThreadCall ι → ThreadCall ι}

variable [DecidableEq τ]

/-- What a thread is at: it waits as long as it is in the list. -/
def status (k : Kernel τ ι) (t : τ) : Status ι :=
  match (k.thread t).pc with
  | .wait o => if t ∈ k.waiters o then .waiting o else .answered o (k.thread t).error
  | .own => .active
  | .sleep => .active

/-- The objects that a state stands for. -/
def objects (k : Kernel τ ι) : Objects τ ι where
  status := k.status
  tokens := k.sem
  owner i := (k.mutex i).owner.map fun u => (u, (k.mutex i).hold)
  bits := k.event

theorem status_own (h : (k.thread t).pc = .own) : k.status t = .active := by
  unfold status
  rw [h]

theorem Inv.status_waiting (h : Inv idle k) (hm : t ∈ k.waiters o) : k.status t = .waiting o := by
  unfold status
  rw [(h.waits o t hm).2.1]
  exact if_pos hm

/-- The status of a thread depends on where it stands, on the lists and on its error number. -/
theorem status_congr (hp : (k'.thread t).pc = (k.thread t).pc)
    (he : (k'.thread t).error = (k.thread t).error)
    (hw : ∀ o, t ∈ k'.waiters o ↔ t ∈ k.waiters o) : k'.status t = k.status t := by
  unfold status
  rw [hp]
  cases (k.thread t).pc with
  | wait o => simp only [hw, he]
  | own => rfl
  | sleep => rfl

/-- The values of the objects and the statuses of the threads are the same. -/
theorem SameObjects.objects (h : SameObjects k k') (hs : ∀ u, k'.status u = k.status u) :
    k'.objects = k.objects :=
  Objects.ext (funext hs) h.sem (by simp only [Kernel.objects, h.mutex]) h.event

theorem objects_setThread (h : (k.setThread t f).status t = k.status t) :
    (k.setThread t f).objects = k.objects := by
  refine SameObjects.objects ⟨rfl, rfl, rfl⟩ fun u => ?_
  by_cases hu : u = t
  · exact hu ▸ h
  · refine status_congr ?_ ?_ (fun _ => Iff.rfl) <;> rw [setThread_of_ne hu]

/-- A change that leaves where the thread stands and its error number. -/
theorem objects_setKept (hp : (f (k.thread t)).pc = (k.thread t).pc)
    (he : (f (k.thread t)).error = (k.thread t).error) :
    (k.setThread t f).objects = k.objects :=
  objects_setThread (status_congr (by rwa [setThread_self]) (by rwa [setThread_self])
    fun _ => Iff.rfl)

/-- A change of a thread that stands in its own code and stays there, or goes to sleep. -/
theorem objects_setOwn (h : (k.thread t).pc = .own)
    (hf : (f (k.thread t)).pc = .own ∨ (f (k.thread t)).pc = .sleep) :
    (k.setThread t f).objects = k.objects := by
  refine objects_setThread ?_
  rw [status_own h]
  unfold status
  rw [setThread_self]
  obtain hp | hp := hf <;> rw [hp]

/-- A waiting thread leaves the list: it has its answer. -/
theorem Inv.objects_wake (h : Inv idle k) (hm : t ∈ k.waiters o)
    (hp : (f (k.thread t)).pc = (k.thread t).pc) : ((k.setThread t f).wakeUp t).objects =
      k.objects.setStatus t (.answered o (f (k.thread t)).error) := by
  refine Objects.ext (funext fun u => ?_) rfl rfl rfl
  change ((k.setThread t f).wakeUp t).status u =
    Function.update k.status t (.answered o (f (k.thread t)).error) u
  by_cases hu : u = t
  · subst hu
    rw [Function.update_self]
    unfold status
    have hth : ((k.setThread u f).wakeUp u).thread u = f (k.thread u) := setThread_self
    rw [hth, hp, (h.waits o u hm).2.1]
    refine if_neg fun hm' => ?_
    exact ((h.nodup o).mem_erase_iff.1 hm').1 rfl
  · rw [Function.update_of_ne hu]
    have hth : ((k.setThread t f).wakeUp t).thread u = k.thread u := setThread_of_ne hu
    exact status_congr (by rw [hth]) (by rw [hth]) fun _ => List.mem_erase_of_ne hu

theorem Inv.objects_resume (h : Inv idle k) (hm : t ∈ k.waiters o) :
    (k.threadResume t).objects = k.objects.setStatus t (.answered o (k.thread t).error) := by
  unfold threadResume
  rw [if_pos (h.waits o t hm).1]
  exact h.objects_wake hm rfl

/-- A thread that waits for nothing is resumed. -/
theorem objects_resume_free (hn : ∀ o, t ∉ k.waiters o) :
    (k.threadResume t).objects = k.objects := by
  unfold threadResume
  split
  · have hth := objects_setKept (k := k) (t := t) (f := fun c => { c with timer := false }) rfl rfl
    refine Eq.trans ?_ hth
    refine SameObjects.objects ⟨rfl, rfl, rfl⟩ fun u => status_congr rfl rfl fun o => ?_
    change u ∈ (k.waiters o).erase t ↔ _
    rw [List.erase_of_not_mem (hn o)]
    rfl
  · rfl

variable [DecidableEq ι]

/-- The running thread waits. -/
theorem Inv.objects_waitOn (h : Inv idle k) (hs : k.stat k.self = .running) (o : IpcObj ι)
    (time : Int32) : (k.waitOn o time).objects = k.objects.setStatus k.self (.waiting o) := by
  have hnot := h.not_mem (t := k.self) (by rw [hs]; decide)
  rw [waitOn_eq hs]
  refine Objects.ext (funext fun u => ?_) rfl rfl rfl
  have hw : ∀ o' u, u ∈ Function.update k.waiters o (k.joined o k.self) o' ↔
      u ∈ k.waiters o' ∨ u = k.self ∧ o' = o := fun o' u => by
    by_cases ho : o' = o
    · subst ho
      rw [Function.update_self, mem_joined]
      simp [or_comm]
    · simp [ho]
  by_cases hu : u = k.self
  · subst hu
    simp only [Kernel.objects, Objects.setStatus, status, Function.update_self]
    exact if_pos ((mem_joined).2 (.inl rfl))
  · simp only [Kernel.objects, Objects.setStatus, Function.update_of_ne hu]
    refine status_congr ?_ ?_ fun o' => (hw o' u).trans (by simp [hu]) <;>
      simp only [Function.update_of_ne hu]

/-! ## Runs of the objects -/

/-- What has been done between two states is a run of the objects. -/
def Does (k k' : Kernel τ ι) : Prop :=
  ∃ es, k'.hist = es.reverse ++ k.hist ∧ Run.exec Objects.step k.objects es = some k'.objects

/-- Nothing has been done. -/
theorem Does.same (hh : k'.hist = k.hist) (ho : k'.objects = k.objects) : Does k k' :=
  ⟨[], hh, congrArg some ho.symm⟩

theorem Does.one {e : KernelEvent τ ι} (hh : k'.hist = e :: k.hist)
    (ho : Objects.step k.objects e = some k'.objects) : Does k k' :=
  ⟨[e], hh, by rw [Run.exec, ho]; rfl⟩

theorem Does.trans (h : Does k k') (h' : Does k' k'') : Does k k'' := by
  obtain ⟨es, hh, he⟩ := h
  obtain ⟨es', hh', he'⟩ := h'
  refine ⟨es ++ es', ?_, ?_⟩
  · rw [hh', hh, List.reverse_append, List.append_assoc]
  · rw [Run.exec_append, he]
    exact he'

/-- An active thread has begun to wait for what is not free. -/
theorem Inv.does_waitOn (h : Inv idle k) (hs : k.stat k.self = .running)
    (ha : k.status k.self = .active) (hf : ¬ k.objects.Free o) (time : Int32) :
    Does k (k.waitOn o time) := by
  refine Does.one (e := .wait k.self o) ?_ ?_
  · rw [waitOn_eq hs]
  · rw [h.objects_waitOn hs]
    exact if_pos ⟨ha, hf⟩

omit [DecidableEq ι] in
theorem resume_hist (k : Kernel τ ι) (t : τ) : (k.threadResume t).hist = k.hist := by
  unfold threadResume
  split <;> rfl

/-- Each thread of a list is woken with an error. -/
theorem Inv.does_resumeAll (l : List τ) (h : Inv idle k) (hl : l.Nodup)
    (hw : ∀ t ∈ l, t ∈ k.waiters o) :
    Does k (l.foldl (fun k t => ((k.log (.wake t o .error)).setThread t fun c =>
      { c with error := .error }).threadResume t) k) := by
  induction l generalizing k with
  | nil => exact Does.same rfl rfl
  | cons t l ih =>
    obtain ⟨ht, hl⟩ := List.nodup_cons.1 hl
    have hm := hw t List.mem_cons_self
    have hst := (h.waits o t hm).1
    rw [List.foldl_cons, resume_of_suspend (by exact hst)]
    refine Does.trans (Does.one (e := .wake t o .error) rfl ?_)
      (ih ((h.logged _).wake hst rfl) hl fun u hu => ?_)
    · rw [(h.logged _).objects_wake hm rfl]
      exact if_pos ⟨h.status_waiting hm, by decide⟩
    · have hne : u ≠ t := ne_of_mem_of_not_mem hu ht
      exact (List.mem_erase_of_ne hne).2 (hw u (List.mem_cons_of_mem t hu))

theorem Inv.does_ipcListResumeAll (h : Inv idle k) (o : IpcObj ι) :
    Does k (k.ipcListResumeAll o) :=
  h.does_resumeAll _ (h.nodup o) fun _ ht => ht

theorem does_needSchedule (k : Kernel τ ι) : Does k k.needSchedule :=
  Does.same rfl (objects_setKept rfl rfl)

theorem Does.scheduled {r : Kernel τ ι × Bool} (h : Does k r.1) : Does k (scheduled r) := by
  unfold Kernel.scheduled
  split
  · exact h.trans (does_needSchedule _)
  · exact h

theorem Does.isrScheduled {r : Kernel τ ι × Bool} (h : Does k r.1) : Does k (isrScheduled r) := by
  unfold Kernel.isrScheduled
  split
  · exact h.trans (Does.same rfl rfl)
  · exact h

/-! ### Semaphores -/

theorem Inv.does_semTake (h : Inv idle k) (hs : k.stat k.self = .running)
    (hown : (k.thread k.self).pc = .own) {i : ι} {time : Int32}
    (hk : k.semTake i time = some k') : Does k k' := by
  have ha : k.objects.status k.self = .active := status_own hown
  obtain ⟨hv, rfl⟩ | ⟨-, -, rfl⟩ | ⟨hv, -, rfl⟩ := semTake_cases hk
  · refine Does.one (e := .take k.self i) rfl ?_
    refine (if_pos ⟨hv, .inl ha⟩).trans (congrArg some ?_)
    rw [Objects.grant_active ha]
    rfl
  · exact Does.same rfl rfl
  · have hset : Does k (k.setThread k.self fun c => { c with error := .eok }) :=
      Does.same rfl (objects_setOwn hown (.inl hown))
    have hinv := h.setSelf (f := fun c => { c with error := .eok }) hs rfl
    have hv' : ¬ 0 < k.sem i := by rw [hv]; exact Nat.lt_irrefl 0
    refine hset.trans (hinv.does_waitOn (o := .sem i) hs (status_own ?_) hv' time)
    exact (congrArg ThreadCall.pc setThread_self).trans hown

/-- A token that is given goes to the first thread that waits. -/
theorem Inv.does_semRelease (h : Inv idle k) (hq : Quiet k) (i : ι) :
    Does k (k.semRelease i).1 := by
  unfold Kernel.semRelease
  split
  · next t l hl =>
    have hm : t ∈ k.waiters (.sem i) := by simp [hl]
    have hz : k.sem i = 0 := hq _ t hm
    have hw := h.status_waiting hm
    refine ⟨[.give i, .take t i], resume_hist _ t, ?_⟩
    rw [((h.logged _).logged _).objects_resume hm]
    have hgive : Objects.step k.objects (.give i) =
        some { k.objects with tokens := Function.update k.sem i 1 } := by
      refine (if_pos ?_).trans ?_
      · change k.sem i < _
        rw [hz]
        decide
      · change some { k.objects with tokens := Function.update k.sem i (k.sem i + 1) } = _
        rw [hz]
    have htake : Objects.step { k.objects with tokens := Function.update k.sem i 1 } (.take t i) =
        some (k.objects.setStatus t (.answered (.sem i) .eok)) := by
      have hpos : 0 < Function.update k.sem i 1 i := by
        rw [Function.update_self]
        exact Nat.one_pos
      have htok : Function.update (Function.update k.sem i 1) i
          (Function.update k.sem i 1 i - 1) = k.sem := by
        rw [Function.update_self, Function.update_idem, Nat.sub_self, ← hz, Function.update_eq_self]
      refine (if_pos ⟨hpos, .inr hw⟩).trans (congrArg some ?_)
      rw [Objects.grant_waiting (by exact hw)]
      simp only [htok]
      rfl
    have he : ((((k.log (.give i)).log (.take t i)).thread t).error) = .eok :=
      (h.waits _ t hm).2.2
    rw [he, Run.exec, hgive, Option.bind_some, Run.exec, htake]
    rfl
  · split
    · next hv => exact Does.one (e := .give i) rfl (if_pos hv)
    · exact Does.same rfl rfl

theorem Inv.does_semReset (h : Inv idle k) (i : ι) (value : Nat) : Does k (k.semReset i value) :=
  (h.does_ipcListResumeAll (.sem i)).trans (Does.one (e := .setValue i (value % 65536)) rfl rfl)

/-! ### Mutexes -/

omit [DecidableEq ι] in
theorem objects_log (e : KernelEvent τ ι) : (k.log e).objects = k.objects := rfl

/-- One mutex of the objects has another owner. -/
theorem objects_setMutex {i : ι} {m : MutexObj τ} : (k.setMutex i m).objects =
    { k.objects with
      owner := Function.update k.objects.owner i (m.owner.map fun u => (u, m.hold)) } := by
  refine Objects.ext rfl rfl (funext fun j => ?_) rfl
  by_cases hj : j = i
  · subst hj
    simp [objects, setMutex]
  · simp [objects, setMutex, hj]

omit [DecidableEq ι] in
theorem objects_owner {i : ι} (ho : (k.mutex i).owner = some t) :
    k.objects.owner i = some (t, (k.mutex i).hold) := by
  simp [objects, ho]

/-- The owner of a mutex has released it once. -/
theorem step_unlock {i : ι} (ha : k.status t = .active) (ho : (k.mutex i).owner = some t)
    (hh : 0 < (k.mutex i).hold) : Objects.step k.objects (.unlock t i) =
      some { k.objects with
        owner := Function.update k.objects.owner i
          (if (k.mutex i).hold = 1 then none else some (t, (k.mutex i).hold - 1)) } := by
  obtain ⟨n, hn⟩ : ∃ n, (k.mutex i).hold = n + 1 := ⟨_, (Nat.succ_pred hh.ne').symm⟩
  have ha' : k.objects.status t = .active := ha
  have hown := objects_owner ho
  rw [hn] at hown ⊢
  simp only [Objects.step, hown, ha', and_self, if_true, Nat.add_eq_right, Nat.add_sub_cancel]

theorem Sound.does_mutexTake (h : Sound idle k) (hs : k.stat k.self = .running)
    (hown : (k.thread k.self).pc = .own) {i : ι} {time : Int32}
    (hk : k.mutexTake i time = some k') : Does k k' := by
  have hm := h.mutexes i
  have ha : k.status k.self = .active := status_own hown
  have hset : (k.setThread k.self fun c => { c with error := .eok }).objects = k.objects :=
    objects_setOwn hown (.inl hown)
  obtain ⟨ho, hh, rfl⟩ | ⟨-, -, rfl⟩ | ⟨-, hv, rfl⟩ | ⟨-, -, -, rfl⟩ | ⟨u, ho, -, -, -, rfl⟩ :=
    mutexTake_cases hk
  · -- the owner takes it once more
    refine Does.one (e := .lock k.self i) rfl ?_
    have hobj : (((k.setThread k.self fun c => { c with error := .eok }).setMutex i
        { k.mutex i with hold := (k.mutex i).hold + 1 }).log (.lock k.self i)).objects =
        { k.objects with
          owner := Function.update k.objects.owner i (some (k.self, (k.mutex i).hold + 1)) } := by
      rw [objects_log, objects_setMutex, hset, ho]
      rfl
    have hact : k.objects.status k.self = .active := ha
    simp only [hobj, Objects.step, objects_owner ho, hact, hh, and_self, if_true]
  · exact Does.same rfl hset
  · -- the mutex is free
    obtain ⟨hnone, hv1, hz⟩ := hm.free hv
    have hfirst : (k.setThread k.self fun c => { c with error := .eok }).mutexFirst i =
        ((k.setThread k.self fun c => { c with error := .eok }).setMutex i
          { value := 0, owner := some k.self, originalPriority := k.prio k.self, hold := 1 }).log
            (.lock k.self i) := by
      simp [mutexFirst, setThread, hz, hv1, mutexHoldMax]
    rw [hfirst]
    refine Does.one (e := .lock k.self i) rfl ?_
    have hobj : (((k.setThread k.self fun c => { c with error := .eok }).setMutex i
        { value := 0, owner := some k.self, originalPriority := k.prio k.self, hold := 1 }).log
          (.lock k.self i)).objects = { k.objects with
            owner := Function.update k.objects.owner i (some (k.self, 1)) } := by
      rw [objects_log, objects_setMutex, hset]
      rfl
    have hno : k.objects.owner i = none := by simp [objects, hnone]
    have hact : k.objects.status k.self = .active := ha
    have hask : k.objects.Asks k.self (.mutex i) := .inl hact
    simp only [hobj, Objects.step, hno, hask, if_true, Objects.grant_active hact]
  · rw [setThread_setThread]
    exact Does.same rfl (objects_setOwn hown (.inl hown))
  · -- another thread has it
    obtain ⟨hinv, hstat, hself, -⟩ := h.inv.inherit u
    have hrun : (k.inherit u).stat (k.inherit u).self = .running := by
      rw [hself]
      exact (hstat _).trans hs
    have hinh : (k.inherit u).objects = k.objects :=
      SameObjects.objects ⟨rfl, rfl, rfl⟩ fun _ => rfl
    have hset' : ((k.inherit u).setThread k.self fun c => { c with error := .eok }).objects =
        (k.inherit u).objects := objects_setOwn hown (.inl hown)
    have hinv' := hinv.setSelf (f := fun c => { c with error := .eok }) hrun rfl
    rw [hself] at hinv'
    have hsame : Does k ((k.inherit u).setThread k.self fun c => { c with error := .eok }) :=
      Does.same rfl (hset'.trans hinh)
    refine hsame.trans (hinv'.does_waitOn ?_ ?_ ?_ time)
    · change (k.inherit u).stat (k.inherit u).self = .running
      exact hrun
    · refine status_own ?_
      change (((k.inherit u).setThread k.self _).thread (k.inherit u).self).pc = .own
      rw [hself, setThread_self]
      exact hown
    · rw [hset', hinh]
      change ¬ k.objects.owner i = none
      rw [objects_owner ho]
      simp

theorem Sound.does_mutexRelease (h : Sound idle k) (hown : (k.thread k.self).pc = .own) (i : ι) :
    Does k (k.mutexRelease i).1 := by
  have ha : k.status k.self = .active := status_own hown
  have hback : ((k.log (.unlock k.self i)).getBack i).objects = k.objects :=
    SameObjects.objects ⟨rfl, rfl, rfl⟩ fun _ => rfl
  obtain ⟨-, he⟩ | ⟨ho, hh, he⟩ | ⟨ho, hh, t, l, hl, he⟩ | ⟨ho, hh, -, he⟩ :=
    mutexRelease_cases (h.mutexes i)
  · rw [he]
    exact Does.same rfl (objects_setOwn (f := fun c => { c with error := .error }) hown (.inl hown))
  · rw [he]
    refine Does.one (e := .unlock k.self i) rfl ?_
    rw [step_unlock ha ho (by omega), if_neg (by omega)]
    rw [objects_log, objects_setMutex, ho]
    rfl
  · -- it goes to the first thread that waits
    rw [he]
    have hm : t ∈ k.waiters (.mutex i) := by simp [hl]
    obtain ⟨-, hhold, -, hprio⟩ := (h.mutexes i).held ho
    have hinv := ((h.inv.logged (.unlock k.self i)).getBack hprio).1
    obtain ⟨k₁, hk₁⟩ : ∃ k₁, k₁ = (((k.log (.unlock k.self i)).getBack i).setMutex i
        { value := 0
          originalPriority := ((k.log (.unlock k.self i)).getBack i).prio t
          hold := 1
          owner := some t }).log (.lock t i) := ⟨_, rfl⟩
    have hinv₁ : Inv idle k₁ := by
      rw [hk₁]
      exact hinv.congr rfl rfl rfl
    have hm₁ : t ∈ k₁.waiters (.mutex i) := by
      rw [hk₁]
      exact hm
    have hobj : k₁.objects = { k.objects with
        owner := Function.update k.objects.owner i (some (t, 1)) } := by
      rw [hk₁, objects_log, objects_setMutex, hback]
      rfl
    refine ⟨[.unlock k.self i, .lock t i], ?_, ?_⟩
    · rw [resume_hist]
      rfl
    · have hw := h.inv.status_waiting hm
      have hlock : Objects.step { k.objects with
          owner := Function.update k.objects.owner i none } (.lock t i) =
          some ({ k.objects with
            owner := Function.update k.objects.owner i (some (t, 1)) }.setStatus t
              (.answered (.mutex i) .eok)) := by
        have hask : Objects.Asks { k.objects with
            owner := Function.update k.objects.owner i none } t (.mutex i) := .inr hw
        simp only [Objects.step, Function.update_self, hask, if_true]
        rw [Objects.grant_waiting (by exact hw)]
        simp only [Objects.setStatus, Function.update_idem]
      rw [Run.exec, step_unlock ha ho hhold, if_pos hh, Option.bind_some, Run.exec, hlock]
      rw [← hk₁, hinv₁.objects_resume hm₁, hobj, (hinv₁.waits _ t hm₁).2.2]
      rfl
  · rw [he]
    refine Does.one (e := .unlock k.self i) rfl ?_
    rw [step_unlock ha ho (by omega), if_pos hh]
    rw [objects_setMutex, hback]
    rfl

/-! ### Events -/

/-- A thread that waits receives its bits. -/
theorem Inv.does_eventAnswer (h : Inv idle k) {i : ι} {set : BitVec 32}
    (hm : t ∈ k.waiters (.event i)) (ha : Asks (k.thread t))
    (hr : (k.thread t).eventInfo.received (k.thread t).eventSet (k.event i) = some set) :
    Does k (k.eventAnswer i t set) := by
  obtain ⟨hne, hsub, -⟩ := EventInfo.received_spec hr ha.2
  rw [eventAnswer_eq (h.waits _ t hm).1]
  refine Does.one (e := .receive t i set (k.thread t).eventInfo.flagClear) rfl ?_
  obtain ⟨k₁, hk₁⟩ : ∃ k₁ : Kernel τ ι, k₁ = { k with
      event := Function.update k.event i
        (if (k.thread t).eventInfo.flagClear then k.event i &&& ~~~set else k.event i)
      hist := .receive t i set (k.thread t).eventInfo.flagClear :: k.hist } := ⟨_, rfl⟩
  have hinv : Inv idle k₁ := by
    rw [hk₁]
    exact h.congr rfl rfl rfl
  have hm₁ : t ∈ k₁.waiters (.event i) := by
    rw [hk₁]
    exact hm
  have hobj : k₁.objects = { k.objects with
      bits := Function.update k.event i
        (if (k.thread t).eventInfo.flagClear then k.event i &&& ~~~set else k.event i) } := by
    rw [hk₁]
    rfl
  have hw := h.status_waiting hm
  rw [← hk₁, hinv.objects_wake hm₁ rfl, hobj, (hinv.waits _ t hm₁).2.2]
  refine (if_pos ⟨hne, hsub, .inr hw⟩).trans ?_
  rw [Objects.grant_waiting (by exact hw)]
  rfl

theorem Inv.does_eventSearch {i : ι} (l : List τ) (h : Inv idle k) (hq : Searching i l k)
    (hl : l.Nodup) (hw : ∀ t ∈ l, t ∈ k.waiters (.event i)) (b : Bool) :
    Does k (Kernel.eventSearch i l k b).1 := by
  induction l generalizing k b with
  | nil => exact Does.same rfl rfl
  | cons t l ih =>
    obtain ⟨ht, hl⟩ := List.nodup_cons.1 hl
    have hm := hw t List.mem_cons_self
    have hst := (h.waits _ t hm).1
    rw [Kernel.eventSearch]
    split
    · exact Does.same rfl rfl
    · split
      · next hr => exact ih h (hq.skip hr) hl (fun u hu => hw u (List.mem_cons_of_mem t hu)) b
      · next set hset =>
        refine (h.does_eventAnswer hm (hq.asked i t hm) hset).trans
          (ih (h.eventAnswer i hst set) (hq.answer hst h.nodup) hl (fun u hu => ?_) true)
        have hne : u ≠ t := fun he => ht (he ▸ hu)
        rw [eventAnswer_eq hst]
        exact (List.mem_erase_of_ne hne).2 (hw u (List.mem_cons_of_mem t hu))

theorem Inv.does_eventSend (h : Inv idle k) (hq : Quiet k) (i : ι) (set : BitVec 32) :
    Does k (k.eventSend i set).1 := by
  unfold Kernel.eventSend
  split
  · exact Does.same rfl rfl
  · obtain ⟨k₁, hk₁⟩ : ∃ k₁, k₁ = ({ k with
        event := Function.update k.event i (k.event i ||| set) } : Kernel τ ι).log
          (.send i set) := ⟨_, rfl⟩
    have hinv : Inv idle k₁ := by
      rw [hk₁]
      exact h.congr rfl rfl rfl
    have hsearch : Searching i (k₁.waiters (.event i)) k₁ := by
      rw [hk₁]
      exact hq.searching i set
    have hsend : Does k k₁ := by
      rw [hk₁]
      exact Does.one (e := .send i set) rfl rfl
    dsimp only
    rw [← hk₁]
    exact hsend.trans (hinv.does_eventSearch _ hsearch (hinv.nodup _) (fun _ hu => hu) false)

theorem Inv.does_eventRecv (h : Inv idle k) (hs : k.stat k.self = .running)
    (hown : (k.thread k.self).pc = .own) {i : ι} {set : BitVec 32} {option : EventInfo}
    {timeout : Int32} (hk : k.eventRecv i set option timeout = some k') : Does k k' := by
  have ha : k.objects.status k.self = .active := status_own hown
  obtain ⟨-, rfl⟩ | ⟨bits, hset, -, hr, rfl⟩ | ⟨-, -, -, -, rfl⟩ | ⟨-, -, -, -, rfl⟩ :=
    eventRecv_cases hk
  · exact Does.same rfl rfl
  · obtain ⟨hne, hsub, hclear⟩ := EventInfo.received_spec hr hset
    refine Does.one (e := .receive k.self i bits option.flagClear) rfl ?_
    refine (if_pos ⟨hne, hsub, .inl ha⟩).trans (congrArg some ?_)
    rw [Objects.grant_active ha]
    have hthread : (k.setThread k.self fun c =>
        { c with error := .eok, eventSet := bits, eventInfo := option }).objects = k.objects :=
      objects_setOwn hown (.inl hown)
    refine Objects.ext (congrArg Objects.status hthread).symm rfl rfl ?_
    exact congrArg (fun v => Function.update k.event i (if option.flagClear then v else k.event i))
      hclear
  · exact Does.same rfl (objects_setOwn hown (.inl hown))
  · have hth : (k.setThread k.self fun c =>
        { c with error := .eok, eventSet := set, eventInfo := option }).objects = k.objects :=
      objects_setOwn hown (.inl hown)
    have hinv := h.setSelf (f := fun c =>
      { c with error := .eok, eventSet := set, eventInfo := option }) hs rfl
    have hsame : Does k (k.setThread k.self fun c =>
        { c with error := .eok, eventSet := set, eventInfo := option }) := Does.same rfl hth
    refine hsame.trans (hinv.does_waitOn (o := .event i) hs ?_ id timeout)
    exact status_own ((congrArg ThreadCall.pc setThread_self).trans hown)

theorem Inv.does_eventReset (h : Inv idle k) (i : ι) : Does k (k.eventReset i) :=
  (h.does_ipcListResumeAll (.event i)).trans (Does.one (e := .clear i) rfl rfl)

/-! ### The steps -/

/-- A change of the scheduler's part. -/
theorem does_setSched (s : Sched τ) : Does k { k with sched := s } := Does.same rfl rfl

theorem Inv.does_timeout (h : Inv idle k) (hk : k.threadTimeout t = some k') : Does k k' := by
  have hs := (threadTimeout_cases hk).1
  unfold threadTimeout at hk
  rw [if_pos hs] at hk
  obtain hp | ⟨o, hp, hm⟩ := h.suspended t hs
  · -- a thread that slept
    simp only [hp, Option.some.injEq] at hk
    have hn : ∀ o, t ∉ k.waiters o := fun o hm => by
      have hw := (h.waits o t hm).2.1
      rw [hp] at hw
      cases hw
    rw [← hk]
    refine Does.same rfl (SameObjects.objects ⟨rfl, rfl, rfl⟩ fun u => ?_)
    have hmem : ∀ o, u ∈ (k.waiters o).erase t ↔ u ∈ k.waiters o := fun o => by
      rw [List.erase_of_not_mem (hn o)]
    by_cases hu : u = t
    · subst hu
      simp only [status, wakeUp, setThread_self, hp]
    · refine status_congr ?_ ?_ hmem <;> simp only [wakeUp, setThread_of_ne hu]
  · simp only [hp, Option.some.injEq] at hk
    rw [← hk]
    refine Does.one (e := .wake t o .etimeout) rfl ?_
    have hw := (h.logged (.wake t o .etimeout)).objects_wake
      (f := fun c => { c with timer := false, error := .etimeout }) hm rfl
    refine (if_pos ⟨h.status_waiting hm, by decide⟩).trans (congrArg some (Eq.trans ?_ hw.symm))
    rfl

theorem does_call (h : Sound idle k) (hq : Quiet k) {c : KernelCall τ ι}
    (hr : k.stat k.self = .running) (hown : (k.thread k.self).pc = .own)
    (hk : k.call c = some k') : Does k k' := by
  cases c with
  | semTake i time => exact h.inv.does_semTake hr hown hk
  | semRelease i =>
    cases hk
    exact (h.inv.does_semRelease hq i).scheduled
  | semReset i value =>
    cases hk
    exact (h.inv.does_semReset i value).trans (does_needSchedule _)
  | mutexTake i time => exact h.does_mutexTake hr hown hk
  | mutexRelease i =>
    cases hk
    exact (h.does_mutexRelease hown i).scheduled
  | eventSend i set =>
    cases hk
    exact (h.inv.does_eventSend hq i set).scheduled
  | eventRecv i set option timeout => exact h.inv.does_eventRecv hr hown hk
  | eventReset i =>
    cases hk
    exact (h.inv.does_eventReset i).trans (does_needSchedule _)
  | startup t =>
    obtain ⟨k₁, hk₁, rfl⟩ := Option.map_eq_some_iff.1 hk
    obtain ⟨hi, rfl⟩ := threadStartup_cases hk₁
    have hn : ∀ o, t ∉ k.waiters o := h.inv.not_mem (by rw [hi]; decide)
    refine Does.trans (Does.trans (does_setSched (k.sched.setTcb t fun c =>
      { c with stat := .suspend })) (Does.same (resume_hist _ t) ?_)) (does_needSchedule _)
    exact objects_resume_free hn
  | sleep tick =>
    obtain rfl := threadSleep_eq_some hk
    rw [fallAsleep_eq hr]
    have hset : (k.setThread k.self fun c =>
        { c with timer := true, pc := .sleep, due := true }).objects = k.objects :=
      objects_setOwn hown (.inr rfl)
    exact Does.same rfl (Eq.trans rfl hset)
  | yield =>
    obtain ⟨s, -, rfl⟩ := Option.map_eq_some_iff.1 hk
    exact does_setSched s
  | enterCritical =>
    cases hk
    exact does_setSched _
  | exitCritical =>
    cases hk
    have hset := does_setSched (k := k) { k.sched with lockNest := k.sched.lockNest - 1 }
    unfold Kernel.exitCritical
    dsimp only
    split
    · exact hset.trans (does_needSchedule _)
    · exact hset

/-- Every step does what may be done. -/
theorem does_step {a : KernelAct τ ι} (h : Sound idle k) (hq : Quiet k)
    (hk : step k a = some k') : Does k k' := by
  cases stepsTo_of_step hk with
  | call hin hown hk => exact does_call h hq (h.inv.running hin) hown hk
  | @retWait o hin hp =>
    have hn := h.inv.not_mem (t := k.self) (by rw [h.inv.running hin]; decide)
    refine Does.one (e := .ret k.self o (k.thread k.self).error) rfl ?_
    have hans : k.objects.status k.self = .answered o (k.thread k.self).error := by
      simp only [objects, status, hp, hn o, if_false]
    refine (if_pos hans).trans (congrArg some (Objects.ext (funext fun u => ?_) rfl rfl rfl))
    by_cases hu : u = k.self
    · subst hu
      have hact : (k.setThread k.self fun c => { c with pc := .own }).status k.self = .active :=
        status_own (congrArg ThreadCall.pc setThread_self)
      simp only [Objects.setStatus, Function.update_self]
      exact hact.symm
    · simp only [Objects.setStatus, Function.update_of_ne hu]
      refine Eq.symm (status_congr ?_ ?_ fun _ => Iff.rfl) <;>
        simp only [log, setThread, Function.update_of_ne hu]
  | retSleep hin hp =>
    refine Does.same rfl (objects_setThread ?_)
    simp only [status, setThread_self, hp]
  | schedule _ _ hk =>
    obtain ⟨s, -, rfl⟩ := Option.map_eq_some_iff.1 hk
    have hset : Does k (k.setThread k.self fun c => { c with due := false }) :=
      Does.same rfl (objects_setKept rfl rfl)
    exact hset.trans (does_setSched s)
  | isrSchedule _ hk =>
    obtain ⟨s, -, rfl⟩ := Option.map_eq_some_iff.1 hk
    have hdue : Does k { k with isrDue := false } := Does.same rfl rfl
    exact hdue.trans (does_setSched s)
  | isrSemRelease i => exact (h.inv.does_semRelease hq i).isrScheduled
  | isrEventSend i set => exact (h.inv.does_eventSend hq i set).isrScheduled
  | timeout _ hk => exact h.inv.does_timeout hk
  | tick => exact Does.isrScheduled (does_setSched _)

/-- What has been done since `s` is a run of the objects, and it has led to those of the state. -/
structure Traced (idle : τ) (s : Objects τ ι) (k : Kernel τ ι) : Prop where
  sound : Sound idle k
  quiet : Quiet k
  refines : Run.exec Objects.step s k.hist.reverse = some k.objects

theorem traced_step {s : Objects τ ι} {a : KernelAct τ ι} (h : Traced idle s k)
    (hk : step k a = some k') (hb : MayBlock idle k a k') : Traced idle s k' := by
  refine ⟨sound_step h.sound hk hb, quiet_step h.sound h.quiet hk, ?_⟩
  obtain ⟨es, hh, he⟩ := does_step h.sound h.quiet hk
  rw [hh, List.reverse_append, List.reverse_reverse, Run.exec_append, h.refines]
  exact he

theorem traced_boot {priority initTick : τ → Nat} {main : τ} (hp : ∀ t, priority t < 32)
    (hne : main ≠ idle) (flag : IpcObj ι → IpcFlag) (sem : ι → Nat) :
    Traced idle { tokens := sem } (boot priority initTick main idle flag sem) :=
  ⟨sound_boot hp hne flag sem, quiet_boot flag sem, rfl⟩

/-- Every run from the start keeps the invariants. -/
theorem traced_along {priority initTick : τ → Nat} {main : τ} (hp : ∀ t, priority t < 32)
    (hne : main ≠ idle) (flag : IpcObj ι → IpcFlag) (sem : ι → Nat) {as : List (KernelAct τ ι)}
    (hb : Run.Steps step (MayBlock idle) (boot priority initTick main idle flag sem) as) :
    Run.Along step (Traced idle { tokens := sem })
      (boot priority initTick main idle flag sem) as := by
  have hstep : ∀ (k : Kernel τ ι) (a : KernelAct τ ι) (k' : Kernel τ ι),
      Traced idle { tokens := sem } k → step k a = some k' → MayBlock idle k a k' →
        Traced idle { tokens := sem } k' := fun _ _ _ => traced_step
  exact Run.along_of_inv hstep (traced_boot hp hne flag sem) hb

end Kernel

end Rtos
