import SpsiMaster.Rtos.Proof.Threads

/-!
# The calls of the kernel

For each call that has more than one branch, what it does (`mutexTake_cases` and the like), and
that it keeps the invariant of the threads. Together with the state of the mutexes this is
`Kernel.Sound`, which every step keeps (`sound_step`), as long as a thread that suspends itself is
not the idle thread and has not locked the scheduler (`MayBlock`).
-/

namespace Rtos

namespace Kernel

variable {τ ι : Type} {k k' : Kernel τ ι} {t u idle : τ} {o : IpcObj ι}
  {f : ThreadCall ι → ThreadCall ι}

variable [DecidableEq τ] [DecidableEq ι]

omit [DecidableEq τ] in
theorem mutexFirst_frame (i : ι) : (k.mutexFirst i).sched = k.sched ∧
    (k.mutexFirst i).thread = k.thread ∧ (k.mutexFirst i).waiters = k.waiters := by
  unfold mutexFirst
  dsimp only
  split <;> exact ⟨rfl, rfl, rfl⟩

omit [DecidableEq ι] in
/-- What a change of a priority leaves alone. -/
theorem Inv.changed (h : Inv idle k) {p : Nat} (hp : p < 32) {c : Prop} [Decidable c] :
    Inv idle { k with sched := if c then k.sched.changePriority t p else k.sched } ∧
      (∀ u, ({ k with sched := if c then k.sched.changePriority t p else k.sched } :
        Kernel τ ι).stat u = k.stat u) ∧
      (if c then k.sched.changePriority t p else k.sched).current = k.self ∧
      (if c then k.sched.changePriority t p else k.sched).lockNest = k.sched.lockNest := by
  split
  · exact ⟨h.changePriority hp, h.sched.changePriority_stat, Sched.changePriority_current,
      Sched.changePriority_lockNest⟩
  · exact ⟨h, fun _ => rfl, rfl, rfl⟩

omit [DecidableEq ι] in
theorem Inv.inherit (h : Inv idle k) (u : τ) : Inv idle (k.inherit u) ∧
    (∀ v, (k.inherit u).stat v = k.stat v) ∧ (k.inherit u).self = k.self ∧
      (k.inherit u).sched.lockNest = k.sched.lockNest :=
  h.changed (h.sched.queues.bound k.self)

omit [DecidableEq ι] in
theorem Inv.getBack (h : Inv idle k) {i : ι} (hp : (k.mutex i).originalPriority < 32) :
    Inv idle (k.getBack i) ∧ (∀ v, (k.getBack i).stat v = k.stat v) ∧
      (k.getBack i).self = k.self ∧ (k.getBack i).sched.lockNest = k.sched.lockNest :=
  h.changed hp

theorem waitFor_eq_some {o : IpcObj ι} {time : Int32} (hk : k.waitFor o time = some k') :
    k' = k.waitOn o time := by
  unfold Kernel.waitFor at hk
  split at hk
  · cases hk
  · exact (Option.some.inj hk).symm

omit [DecidableEq ι] in
theorem threadSleep_eq_some {tick : UInt32} (hk : k.threadSleep tick = some k') :
    k' = k.fallAsleep := by
  unfold Kernel.threadSleep at hk
  split at hk
  · exact (Option.some.inj hk).symm
  · cases hk

/-- What `rt_sem_take` does. -/
theorem semTake_cases {i : ι} {time : Int32} (hk : k.semTake i time = some k') :
    (0 < k.sem i ∧
      k' = { k with sem := Function.update k.sem i (k.sem i - 1) }.log (.take k.self i)) ∨
    (k.sem i = 0 ∧ time = 0 ∧ k' = k) ∨
    k.sem i = 0 ∧ time ≠ 0 ∧
      k' = (k.setThread k.self fun c => { c with error := .eok }).waitOn (.sem i) time := by
  unfold Kernel.semTake at hk
  split at hk
  · next hv => exact .inl ⟨hv, (Option.some.inj hk).symm⟩
  · next hv =>
    have h0 : k.sem i = 0 := Nat.eq_zero_of_not_pos hv
    split at hk
    · next ht => exact .inr (.inl ⟨h0, ht, (Option.some.inj hk).symm⟩)
    · next ht => exact .inr (.inr ⟨h0, ht, waitFor_eq_some hk⟩)

/-- What `rt_mutex_take` does. -/
theorem mutexTake_cases {i : ι} {time : Int32} (hk : k.mutexTake i time = some k') :
    ((k.mutex i).owner = some k.self ∧ (k.mutex i).hold < mutexHoldMax ∧
      k' = ((k.setThread k.self fun c => { c with error := .eok }).setMutex i
        { k.mutex i with hold := (k.mutex i).hold + 1 }).log (.lock k.self i)) ∨
    ((k.mutex i).owner = some k.self ∧ mutexHoldMax ≤ (k.mutex i).hold ∧
      k' = k.setThread k.self fun c => { c with error := .eok }) ∨
    ((k.mutex i).owner ≠ some k.self ∧ 0 < (k.mutex i).value ∧
      k' = (k.setThread k.self fun c => { c with error := .eok }).mutexFirst i) ∨
    ((k.mutex i).owner ≠ some k.self ∧ (k.mutex i).value = 0 ∧ time = 0 ∧
      k' = (k.setThread k.self fun c => { c with error := .eok }).setThread k.self fun c =>
        { c with error := .etimeout }) ∨
    ∃ u, (k.mutex i).owner = some u ∧ u ≠ k.self ∧ (k.mutex i).value = 0 ∧ time ≠ 0 ∧
      k' = ((k.inherit u).setThread k.self fun c => { c with error := .eok }).waitOn (.mutex i)
        time := by
  unfold Kernel.mutexTake at hk
  dsimp only at hk
  split at hk
  · next ho =>
    split at hk <;> cases hk
    · next hh => exact .inl ⟨ho, hh, rfl⟩
    · next hh => exact .inr (.inl ⟨ho, Nat.le_of_not_lt hh, rfl⟩)
  · next ho =>
    split at hk
    · next hv =>
      cases hk
      exact .inr (.inr (.inl ⟨ho, hv, rfl⟩))
    · next hv =>
      have hv' : (k.mutex i).value = 0 := Nat.eq_zero_of_not_pos hv
      split at hk
      · next ht =>
        cases hk
        exact .inr (.inr (.inr (.inl ⟨ho, hv', ht, rfl⟩)))
      · next ht =>
        obtain ⟨u, hu, hk⟩ := Option.bind_eq_some_iff.1 hk
        obtain rfl := waitFor_eq_some hk
        have hu' : (k.mutex i).owner = some u := hu
        refine .inr (.inr (.inr (.inr ⟨u, hu', fun he => ho (he ▸ hu'), hv', ht, ?_⟩)))
        have hcomm : (k.setThread k.self fun c => { c with error := .eok }).inherit u =
            (k.inherit u).setThread k.self fun c => { c with error := .eok } := by
          rfl
        rw [hcomm]

/-- A mutex is free, or it has an owner with a priority to go back to. -/
def MutexOk (m : MutexObj τ) : Prop :=
  match m.owner with
  | none => m.value = 1 ∧ m.hold = 0
  | some _ => m.value = 0 ∧ 0 < m.hold ∧ m.hold ≤ mutexHoldMax ∧ m.originalPriority < 32

omit [DecidableEq τ] [DecidableEq ι] in
theorem MutexOk.held {m : MutexObj τ} (h : MutexOk m) (ho : m.owner = some u) :
    m.value = 0 ∧ 0 < m.hold ∧ m.hold ≤ mutexHoldMax ∧ m.originalPriority < 32 := by
  rw [MutexOk, ho] at h
  exact h

/-- What `rt_mutex_release` does. -/
theorem mutexRelease_cases {i : ι} (hm : MutexOk (k.mutex i)) :
    ((k.mutex i).owner ≠ some k.self ∧
      k.mutexRelease i = (k.setThread k.self fun c => { c with error := .error }, false)) ∨
    ((k.mutex i).owner = some k.self ∧ 1 < (k.mutex i).hold ∧
      k.mutexRelease i = ((k.setMutex i { k.mutex i with
        hold := (k.mutex i).hold - 1 }).log (.unlock k.self i), false)) ∨
    ((k.mutex i).owner = some k.self ∧ (k.mutex i).hold = 1 ∧
      ∃ t l, k.waiters (.mutex i) = t :: l ∧ k.mutexRelease i =
        (((((k.log (.unlock k.self i)).getBack i).setMutex i
          { value := 0
            originalPriority := ((k.log (.unlock k.self i)).getBack i).prio t
            hold := 1
            owner := some t }).log (.lock t i)).threadResume t, true)) ∨
    ((k.mutex i).owner = some k.self ∧ (k.mutex i).hold = 1 ∧ k.waiters (.mutex i) = [] ∧
      k.mutexRelease i = (((k.log (.unlock k.self i)).getBack i).setMutex i {}, false)) := by
  unfold Kernel.mutexRelease
  dsimp only
  split
  · next ho => exact .inl ⟨ho, rfl⟩
  · next ho =>
    have ho := not_not.1 ho
    obtain ⟨hv, hpos, hmax, -⟩ := hm.held ho
    rw [mutexHoldMax] at hmax
    split
    · next hz =>
      have h1 : (k.mutex i).hold = 1 := by omega
      have hback : ((k.setMutex i { k.mutex i with
          hold := ((k.mutex i).hold + 255) % 256 }).log (.unlock k.self i)).getBack i =
          ((k.log (.unlock k.self i)).getBack i).setMutex i { k.mutex i with hold := 0 } := by
        simp only [Kernel.getBack, setMutex, log, Function.update_self, hz]
        rfl
      have hmut : ((k.setMutex i { k.mutex i with
          hold := ((k.mutex i).hold + 255) % 256 }).log (.unlock k.self i)).mutex i =
            { k.mutex i with hold := 0 } := by
        simp only [setMutex, log, Function.update_self, hz]
      have hset : ∀ {k' : Kernel τ ι} {m m' : MutexObj τ},
          (k'.setMutex i m).setMutex i m' = k'.setMutex i m' := by simp [setMutex]
      unfold Kernel.mutexHandOver
      simp only [hback, hmut, hset]
      split
      · next t l hl =>
        refine .inr (.inr (.inl ⟨ho, h1, t, l, hl, ?_⟩))
        simp only [hv, Nat.zero_add]
        rfl
      · next hl =>
        refine .inr (.inr (.inr ⟨ho, h1, hl, ?_⟩))
        rw [if_pos (by rw [hv]; decide)]
        simp only [hv, Nat.zero_add]
    · next hz =>
      refine .inr (.inl ⟨ho, by omega, ?_⟩)
      have h1 : ((k.mutex i).hold + 255) % 256 = (k.mutex i).hold - 1 := by omega
      rw [h1]

/-- What `rt_event_recv` does. -/
theorem eventRecv_cases {i : ι} {set : BitVec 32} {option : EventInfo} {timeout : Int32}
    (hk : k.eventRecv i set option timeout = some k') :
    (set = 0 ∧ k' = k) ∨
    (∃ bits, set ≠ 0 ∧ (option.flagAnd = true ∨ option.flagOr = true) ∧
      option.received set (k.event i) = some bits ∧
      k' = { k.setThread k.self fun c =>
        { c with error := .eok, eventSet := bits, eventInfo := option } with
          event := Function.update k.event i
            (if option.flagClear then k.event i &&& ~~~set else k.event i)
          hist := .receive k.self i bits option.flagClear :: k.hist }) ∨
    (set ≠ 0 ∧ (option.flagAnd = true ∨ option.flagOr = true) ∧
      option.received set (k.event i) = none ∧ timeout = 0 ∧
      k' = k.setThread k.self fun c => { c with error := .etimeout }) ∨
    set ≠ 0 ∧ (option.flagAnd = true ∨ option.flagOr = true) ∧
      option.received set (k.event i) = none ∧ timeout ≠ 0 ∧
      k' = (k.setThread k.self fun c =>
        { c with error := .eok, eventSet := set, eventInfo := option }).waitOn
          (.event i) timeout := by
  unfold Kernel.eventRecv at hk
  split at hk
  · next hz =>
    cases hk
    exact .inl ⟨hz, rfl⟩
  · next hz =>
    split at hk
    · cases hk
    · next ha =>
      have ha' : option.flagAnd = true ∨ option.flagOr = true := by
        simpa [or_iff_not_imp_left] using ha
      obtain ⟨r, hr⟩ : ∃ r, option.received set (k.event i) = r := ⟨_, rfl⟩
      have hr' : option.received set ((k.setThread k.self fun c =>
        { c with error := .eok }).event i) = r := hr
      simp only [hr'] at hk
      cases r with
      | some bits =>
        refine .inr (.inl ⟨bits, hz, ha', hr, ?_⟩)
        cases hk
        by_cases hc : option.flagClear = true
        · simp [hc, setThread, log]
        · simp [hc, setThread, log]
      | none =>
        dsimp only at hk
        split at hk
        · next ht =>
          cases hk
          refine .inr (.inr (.inl ⟨hz, ha', hr, ht, ?_⟩))
          exact setThread_setThread
        · next ht =>
          refine .inr (.inr (.inr ⟨hz, ha', hr, ht, ?_⟩))
          rw [waitFor_eq_some hk]
          exact congrArg (fun k => waitOn k (.event i) timeout) setThread_setThread

omit [DecidableEq ι] in
/-- What the timer of a thread does. -/
theorem threadTimeout_cases (hk : k.threadTimeout t = some k') :
    k.stat t = .suspend ∧ ∃ h, (h = k.hist ∨ ∃ o, (k.thread t).pc = .wait o ∧
      h = .wake t o .etimeout :: k.hist) ∧
      k' = { (k.setThread t fun c => { c with timer := false, error := .etimeout }).wakeUp t with
        isrDue := true, hist := h } := by
  unfold threadTimeout at hk
  split at hk
  · next hs =>
    refine ⟨hs, ?_⟩
    cases hk
    cases hp : (k.thread t).pc with
    | wait o => exact ⟨_, .inr ⟨o, rfl, rfl⟩, rfl⟩
    | own => exact ⟨_, .inl rfl, rfl⟩
    | sleep => exact ⟨_, .inl rfl, rfl⟩
  · cases hk

/-- What a waiting thread that receives its event does. -/
theorem eventAnswer_eq {i : ι} {set : BitVec 32} (hs : k.stat t = .suspend) :
    k.eventAnswer i t set = (({ k with
      event := Function.update k.event i
        (if (k.thread t).eventInfo.flagClear then k.event i &&& ~~~set else k.event i)
      hist := .receive t i set (k.thread t).eventInfo.flagClear :: k.hist } :
        Kernel τ ι).setThread t fun c => { c with eventSet := set, timer := false }).wakeUp t := by
  unfold Kernel.eventAnswer
  dsimp only
  rw [threadResume, if_pos (by split <;> exact hs)]
  by_cases hc : (k.thread t).eventInfo.flagClear = true
  · simp [hc, setThread, log]
  · simp [hc, setThread, log]

theorem eventAnswer_stat {i : ι} {set : BitVec 32} (hs : k.stat t = .suspend) :
    (k.eventAnswer i t set).stat u =
      if u = t then if t = k.self then .running else .ready else k.stat u := by
  rw [eventAnswer_eq hs]
  exact Sched.insertThread_stat u

omit [DecidableEq ι] in
/-- What the resumption of a waiting thread does. -/
theorem resume_of_suspend (hs : k.stat t = .suspend) :
    (k.setThread t f).threadResume t =
      (k.setThread t fun c => { f c with timer := false }).wakeUp t := by
  rw [threadResume, if_pos (by exact hs), setThread_setThread]

/-- A thread that suspends itself is not the idle thread and has not locked the scheduler. -/
def MayBlock (idle : τ) (k : Kernel τ ι) (_ : KernelAct τ ι) (k' : Kernel τ ι) : Prop :=
  k.stat k.self = .running → k'.stat k.self = .suspend → k.self ≠ idle ∧ k.sched.lockNest = 0

namespace Inv

omit [DecidableEq τ] [DecidableEq ι] in
theorem self_timer (h : Inv idle k) (hs : k.stat k.self = .running) :
    (k.thread k.self).timer = false := by
  rw [← Bool.not_eq_true]
  intro ht
  rw [h.timer _ ht] at hs
  cases hs

omit [DecidableEq ι] in
/-- A change of the running thread that leaves its timer and where it stands. -/
theorem setSelf (h : Inv idle k) (hs : k.stat k.self = .running)
    (hf : (f (k.thread k.self)).timer = (k.thread k.self).timer) :
    Inv idle (k.setThread k.self f) :=
  h.setActive (by rw [hs]; decide) (hf.trans (h.self_timer hs)) fun hi => by
    rw [hs] at hi
    cases hi

omit [DecidableEq ι] in
theorem needSchedule (h : Inv idle k) : Inv idle k.needSchedule :=
  h.setKept rfl rfl rfl fun _ => rfl

omit [DecidableEq ι] in
theorem scheduled {r : Kernel τ ι × Bool} (h : Inv idle r.1) : Inv idle (scheduled r) := by
  unfold Kernel.scheduled
  split
  · exact h.needSchedule
  · exact h

omit [DecidableEq τ] [DecidableEq ι] in
theorem isrScheduled {r : Kernel τ ι × Bool} (h : Inv idle r.1) : Inv idle (isrScheduled r) := by
  unfold Kernel.isrScheduled
  split
  · exact h.congr rfl rfl rfl
  · exact h

omit [DecidableEq ι] in
/-- The threads of a list, which are suspended, are resumed one by one. -/
theorem resumeAll (l : List τ) (h : Inv idle k) (hl : l.Nodup)
    (hs : ∀ t ∈ l, k.stat t = .suspend) :
    Inv idle (l.foldl (fun k t => ((k.log (.wake t o .error)).setThread t fun c =>
      { c with error := .error }).threadResume t) k) := by
  induction l generalizing k with
  | nil => exact h
  | cons t l ih =>
    obtain ⟨ht, hl⟩ := List.nodup_cons.1 hl
    have hst := hs t List.mem_cons_self
    rw [List.foldl_cons, resume_of_suspend (by exact hst)]
    refine ih ?_ hl fun u hu => ?_
    · exact (h.logged _).wake hst rfl
    · have hne : u ≠ t := ne_of_mem_of_not_mem hu ht
      refine (Sched.insertThread_stat u).trans ?_
      rw [if_neg hne]
      exact hs u (List.mem_cons_of_mem t hu)

omit [DecidableEq ι] in
theorem ipcListResumeAll (h : Inv idle k) (o : IpcObj ι) : Inv idle (k.ipcListResumeAll o) :=
  h.resumeAll _ (h.nodup o) fun t ht => (h.waits o t ht).1

/-- The running thread waits, with no error so far. -/
theorem waitAs (h : Inv idle k) (hs : k.stat k.self = .running)
    (hf : (f (k.thread k.self)).timer = (k.thread k.self).timer)
    (he : (f (k.thread k.self)).error = .eok) {time : Int32}
    (hb : ((k.setThread k.self f).waitOn o time).stat k.self = .suspend →
      k.self ≠ idle ∧ k.sched.lockNest = 0) : Inv idle ((k.setThread k.self f).waitOn o time) := by
  have hs' : (k.setThread k.self f).stat (k.setThread k.self f).self = .running := hs
  obtain ⟨hi, hl⟩ := hb (waitOn_stat hs')
  refine (h.setSelf hs hf).waitOn hs' hl hi ?_ time
  exact (congrArg ThreadCall.error setThread_self).trans he

theorem semTake (h : Inv idle k) (hs : k.stat k.self = .running) {i : ι} {time : Int32}
    (hk : k.semTake i time = some k')
    (hb : k'.stat k.self = .suspend → k.self ≠ idle ∧ k.sched.lockNest = 0) : Inv idle k' := by
  obtain ⟨-, rfl⟩ | ⟨-, -, rfl⟩ | ⟨-, -, rfl⟩ := semTake_cases hk
  · exact h.congr rfl rfl rfl
  · exact h
  · exact h.waitAs hs rfl rfl hb

theorem semRelease (h : Inv idle k) (i : ι) : Inv idle (k.semRelease i).1 := by
  unfold Kernel.semRelease
  split
  · next t l hl =>
    refine ((h.logged _).logged _).resume ?_
    exact (h.waits (.sem i) t (by simp [hl])).1
  · split
    · exact h.congr rfl rfl rfl
    · exact h

theorem semReset (h : Inv idle k) (i : ι) (value : Nat) : Inv idle (k.semReset i value) :=
  (h.ipcListResumeAll (.sem i)).congr rfl rfl rfl

theorem mutexTake (h : Inv idle k) (hs : k.stat k.self = .running) {i : ι} {time : Int32}
    (hk : k.mutexTake i time = some k')
    (hb : k'.stat k.self = .suspend → k.self ≠ idle ∧ k.sched.lockNest = 0) : Inv idle k' := by
  have h' := h.setSelf (f := fun c => { c with error := .eok }) hs rfl
  obtain ⟨-, -, rfl⟩ | ⟨-, -, rfl⟩ | ⟨-, -, rfl⟩ | ⟨-, -, -, rfl⟩ | ⟨u, -, -, -, -, rfl⟩ :=
    mutexTake_cases hk
  · exact h'.congr rfl rfl rfl
  · exact h'
  · exact h'.congr (mutexFirst_frame i).1 (mutexFirst_frame i).2.1 (mutexFirst_frame i).2.2
  · exact h'.setSelf (f := fun c => { c with error := .etimeout }) hs rfl
  · obtain ⟨hinv, hstat, hself, hlock⟩ := h.inherit u
    have hrun : (k.inherit u).stat (k.inherit u).self = .running := by
      rw [hself]
      exact (hstat _).trans hs
    rw [← hself]
    refine Inv.waitAs hinv hrun rfl rfl fun hb' => ?_
    rw [hself] at hb' ⊢
    exact ⟨(hb hb').1, hlock.trans (hb hb').2⟩

theorem mutexRelease (h : Inv idle k) (hs : k.stat k.self = .running) (i : ι)
    (hm : MutexOk (k.mutex i)) : Inv idle (k.mutexRelease i).1 := by
  have hback : (k.mutex i).owner = some k.self →
      Inv idle ((k.log (.unlock k.self i)).getBack i) := fun ho =>
    ((h.logged _).getBack (hm.held ho).2.2.2).1
  obtain ⟨-, he⟩ | ⟨-, -, he⟩ | ⟨ho, -, t, l, hl, he⟩ | ⟨ho, -, -, he⟩ := mutexRelease_cases hm
  · rw [he]
    exact h.setSelf (f := fun c => { c with error := .error }) hs rfl
  · rw [he]
    exact h.congr rfl rfl rfl
  · rw [he]
    have hw := (hback ho).waits (.mutex i) t (by
      change t ∈ k.waiters (.mutex i)
      simp [hl])
    exact Inv.resume ((hback ho).congr rfl rfl rfl) hw.1
  · rw [he]
    exact (hback ho).congr rfl rfl rfl

theorem eventAnswer (h : Inv idle k) (i : ι) (hs : k.stat t = .suspend) (set : BitVec 32) :
    Inv idle (k.eventAnswer i t set) := by
  rw [eventAnswer_eq hs]
  exact Inv.wake (h.congr rfl rfl rfl) hs rfl

/-- The threads of a list, which are suspended, are looked through, and some are resumed. -/
theorem eventSearch (h : Inv idle k) (i : ι) (l : List τ) (hl : l.Nodup)
    (hs : ∀ t ∈ l, k.stat t = .suspend) (b : Bool) : Inv idle (eventSearch i l k b).1 := by
  induction l generalizing k b with
  | nil => exact h
  | cons t l ih =>
    obtain ⟨ht, hl⟩ := List.nodup_cons.1 hl
    have hst := hs t List.mem_cons_self
    have hs' : ∀ u ∈ l, k.stat u = .suspend := fun u hu => hs u (List.mem_cons_of_mem t hu)
    rw [Kernel.eventSearch]
    split
    · exact h
    · split
      · exact ih h hl hs' b
      · next set hset =>
        refine ih (h.eventAnswer i hst set) hl (fun u hu => ?_) true
        have hne : u ≠ t := ne_of_mem_of_not_mem hu ht
        rw [eventAnswer_stat hst, if_neg hne]
        exact hs' u hu

theorem eventSend (h : Inv idle k) (i : ι) (set : BitVec 32) :
    Inv idle (k.eventSend i set).1 := by
  unfold Kernel.eventSend
  split
  · exact h
  · have h' : Inv idle (({ k with event := Function.update k.event i (k.event i ||| set) } :
        Kernel τ ι).log (.send i set)) := h.congr rfl rfl rfl
    exact h'.eventSearch i _ (h.nodup _) (fun t ht => (h.waits _ t ht).1) false

theorem eventReset (h : Inv idle k) (i : ι) : Inv idle (k.eventReset i) :=
  (h.ipcListResumeAll (.event i)).congr rfl rfl rfl

theorem eventRecv (h : Inv idle k) (hs : k.stat k.self = .running) {i : ι} {set : BitVec 32}
    {option : EventInfo} {timeout : Int32} (hk : k.eventRecv i set option timeout = some k')
    (hb : k'.stat k.self = .suspend → k.self ≠ idle ∧ k.sched.lockNest = 0) : Inv idle k' := by
  obtain ⟨-, rfl⟩ | ⟨bits, -, -, -, rfl⟩ | ⟨-, -, -, -, rfl⟩ | ⟨-, -, -, -, rfl⟩ :=
    eventRecv_cases hk
  · exact h
  · exact (h.setSelf (f := fun c => { c with error := .eok, eventSet := bits, eventInfo := option })
      hs rfl).congr rfl rfl rfl
  · exact h.setSelf (f := fun c => { c with error := .etimeout }) hs rfl
  · exact h.waitAs hs rfl rfl hb

omit [DecidableEq ι] in
theorem exitCritical (h : Inv idle k) (hs : k.stat k.self = .running) :
    Inv idle k.exitCritical := by
  have h' : Inv idle { k with sched := { k.sched with lockNest := k.sched.lockNest - 1 } } :=
    { h with
      sched := ⟨⟨h.sched.queues.group, h.sched.queues.mem, h.sched.queues.order,
        h.sched.queues.fresh, h.sched.queues.bound⟩, h.sched.running, h.sched.current⟩
      blocked := fun hb => by
        have hb' : k.stat k.self = .suspend := hb
        rw [hs] at hb'
        cases hb' }
  unfold Kernel.exitCritical
  dsimp only
  split
  · exact h'.needSchedule
  · exact h'

omit [DecidableEq ι] in
theorem tick (h : Inv idle k) : Inv idle k.tickIncrease := by
  refine Inv.isrScheduled ?_
  have hset : ∀ {s : Sched τ} {f : Tcb → Tcb}, s.Inv → (∀ c, (f c).stat = c.stat) →
      (∀ c, (f c).currentPriority = c.currentPriority) → (s.setTcb s.current f).Inv ∧
        ∀ u, ((s.setTcb s.current f).tcb u).stat = (s.tcb u).stat := by
    intro s f hs hst hp
    refine ⟨hs.setCurrent (hst _) (hp _), fun u => ?_⟩
    by_cases hu : u = s.current
    · subst hu
      simp [hst]
    · simp [hu]
  obtain ⟨h₁, hst₁⟩ := hset (f := fun c =>
    { c with remainingTick := (c.remainingTick + 4294967295) % 4294967296 }) h.sched
    (fun _ => rfl) fun _ => rfl
  have hres : k.sched.tickIncrease.1.Inv ∧
      (∀ u, (k.sched.tickIncrease.1.tcb u).stat = k.stat u) ∧
      k.sched.tickIncrease.1.current = k.self ∧
      k.sched.tickIncrease.1.lockNest = k.sched.lockNest := by
    unfold Sched.tickIncrease
    dsimp only
    split
    · obtain ⟨h₂, hst₂⟩ := hset (f := fun c =>
        { c with remainingTick := c.initTick, yielded := true }) h₁ (fun _ => rfl) fun _ => rfl
      exact ⟨h₂, fun u => (hst₂ u).trans (hst₁ u), rfl, rfl⟩
    · exact ⟨h₁, hst₁, rfl, rfl⟩
  exact h.sameStat hres.1 hres.2.1 hres.2.2.1 hres.2.2.2

end Inv

/-! ## What leaves the objects alone -/

/-- The values of the objects are the same. -/
structure SameObjects (k k' : Kernel τ ι) : Prop where
  sem : k'.sem = k.sem
  mutex : k'.mutex = k.mutex
  event : k'.event = k.event

namespace SameObjects

omit [DecidableEq τ] [DecidableEq ι] in
theorem trans {k'' : Kernel τ ι} (h : SameObjects k k') (h' : SameObjects k' k'') :
    SameObjects k k'' :=
  ⟨h'.sem.trans h.sem, h'.mutex.trans h.mutex, h'.event.trans h.event⟩

omit [DecidableEq ι] in
theorem resume (k : Kernel τ ι) (t : τ) : SameObjects k (k.threadResume t) := by
  unfold threadResume
  split <;> exact ⟨rfl, rfl, rfl⟩

omit [DecidableEq ι] in
theorem resumeAll (k : Kernel τ ι) (o : IpcObj ι) : SameObjects k (k.ipcListResumeAll o) := by
  unfold ipcListResumeAll
  generalize k.waiters o = l
  induction l generalizing k with
  | nil => exact ⟨rfl, rfl, rfl⟩
  | cons t l ih =>
    rw [List.foldl_cons]
    refine SameObjects.trans ?_ (ih _)
    have hr := resume ((k.log (.wake t o .error)).setThread t fun c => { c with error := .error }) t
    exact ⟨hr.sem, hr.mutex, hr.event⟩

theorem waitOn (k : Kernel τ ι) (o : IpcObj ι) (time : Int32) :
    SameObjects k (k.waitOn o time) := by
  unfold Kernel.waitOn ipcListSuspend threadSuspend
  dsimp only
  split <;> split <;> exact ⟨rfl, rfl, rfl⟩

omit [DecidableEq ι] in
theorem scheduled (r : Kernel τ ι × Bool) : SameObjects r.1 (scheduled r) := by
  unfold Kernel.scheduled
  split <;> exact ⟨rfl, rfl, rfl⟩

omit [DecidableEq τ] [DecidableEq ι] in
theorem isrScheduled (r : Kernel τ ι × Bool) : SameObjects r.1 (isrScheduled r) := by
  unfold Kernel.isrScheduled
  split <;> exact ⟨rfl, rfl, rfl⟩

omit [DecidableEq ι] in
theorem schedule (hk : k.schedule = some k') : SameObjects k k' := by
  obtain ⟨s, -, rfl⟩ := Option.map_eq_some_iff.1 hk
  exact ⟨rfl, rfl, rfl⟩

end SameObjects

theorem semRelease_mutex (k : Kernel τ ι) (i : ι) : (k.semRelease i).1.mutex = k.mutex := by
  unfold Kernel.semRelease
  split
  · exact (SameObjects.resume _ _).mutex
  · split <;> rfl

theorem eventAnswer_mutex (k : Kernel τ ι) (i : ι) (t : τ) (set : BitVec 32) :
    (k.eventAnswer i t set).mutex = k.mutex := by
  unfold Kernel.eventAnswer
  dsimp only
  rw [(SameObjects.resume _ _).mutex]
  split <;> rfl

theorem eventSearch_mutex (i : ι) (l : List τ) (k : Kernel τ ι) (b : Bool) :
    (eventSearch i l k b).1.mutex = k.mutex := by
  induction l generalizing k b with
  | nil => rfl
  | cons t l ih =>
    rw [Kernel.eventSearch]
    split
    · rfl
    · split
      · exact ih k b
      · rw [ih, eventAnswer_mutex]

theorem eventSend_mutex (k : Kernel τ ι) (i : ι) (set : BitVec 32) :
    (k.eventSend i set).1.mutex = k.mutex := by
  unfold Kernel.eventSend
  split
  · rfl
  · exact eventSearch_mutex i _ _ _

/-! ## The steps -/

/-- The threads fit together, and every mutex is free or has an owner. -/
structure Sound (idle : τ) (k : Kernel τ ι) : Prop where
  inv : Inv idle k
  mutexes : ∀ i, MutexOk (k.mutex i)

omit [DecidableEq τ] in
/-- One mutex changes. -/
theorem mutexes_update (h : ∀ i, MutexOk (k.mutex i)) {i : ι} {m : MutexObj τ} (hm : MutexOk m)
    (hk : k'.mutex = Function.update k.mutex i m) (j : ι) : MutexOk (k'.mutex j) := by
  rw [hk]
  by_cases hj : j = i
  · subst hj
    rwa [Function.update_self]
  · rw [Function.update_of_ne hj]
    exact h j

omit [DecidableEq τ] [DecidableEq ι] in
theorem Inv.running (h : Inv idle k) (hr : k.InThread) : k.stat k.self = .running := by
  refine h.sched.current.resolve_right fun hs => ?_
  have hd := (h.blocked hs).1
  rw [hr.2] at hd
  cases hd

omit [DecidableEq τ] [DecidableEq ι] in
/-- A mutex that has no owner is free. -/
theorem MutexOk.free {m : MutexObj τ} (h : MutexOk m) (hv : 0 < m.value) :
    m.owner = none ∧ m.value = 1 ∧ m.hold = 0 := by
  cases ho : m.owner with
  | none =>
    rw [MutexOk, ho] at h
    exact ⟨rfl, h⟩
  | some u =>
    have h0 : m.value = 0 := (h.held ho).1
    omega

/-- `rt_mutex_take` keeps the mutexes in order. -/
theorem Sound.mutexTake_mutexes (h : Sound idle k) {i : ι} {time : Int32}
    (hk : k.mutexTake i time = some k') (j : ι) : MutexOk (k'.mutex j) := by
  have hi := h.mutexes i
  obtain ⟨ho, hh, rfl⟩ | ⟨-, -, rfl⟩ | ⟨-, hv, rfl⟩ | ⟨-, -, -, rfl⟩ | ⟨u, -, -, -, -, rfl⟩ :=
    mutexTake_cases hk
  · refine mutexes_update h.mutexes ?_ rfl j
    simp only [MutexOk, ho] at hi ⊢
    exact ⟨hi.1, by omega, hh, hi.2.2.2⟩
  · exact h.mutexes j
  · obtain ⟨-, hv1, hh⟩ := hi.free hv
    have hmut : ((k.setThread k.self fun c => { c with error := .eok }).mutexFirst i).mutex =
        Function.update k.mutex i { k.mutex i with
          value := 0, owner := some k.self, originalPriority := k.prio k.self, hold := 1 } := by
      simp [mutexFirst, setThread, setMutex, log, hh, hv1, mutexHoldMax]
    refine mutexes_update h.mutexes ?_ hmut j
    exact ⟨rfl, Nat.one_pos, by simp [mutexHoldMax], h.inv.sched.queues.bound _⟩
  · exact h.mutexes j
  · rw [(SameObjects.waitOn _ _ time).mutex]
    exact h.mutexes j

/-- `rt_mutex_release` keeps the mutexes in order. -/
theorem Sound.mutexRelease_mutexes (h : Sound idle k) (i : ι) (j : ι) :
    MutexOk ((k.mutexRelease i).1.mutex j) := by
  have hi := h.mutexes i
  obtain ⟨-, he⟩ | ⟨ho, hh, he⟩ | ⟨ho, -, t, l, -, he⟩ | ⟨-, -, -, he⟩ := mutexRelease_cases hi
  · rw [he]
    exact h.mutexes j
  · rw [he]
    refine mutexes_update h.mutexes ?_ rfl j
    simp only [MutexOk, ho, mutexHoldMax] at hi ⊢
    omega
  · rw [he]
    have hback := ((h.inv.logged (.unlock k.self i)).getBack (hi.held ho).2.2.2).1
    refine mutexes_update h.mutexes ?_ (SameObjects.resume _ _).mutex j
    exact ⟨rfl, Nat.one_pos, by simp [mutexHoldMax], hback.sched.queues.bound t⟩
  · rw [he]
    exact mutexes_update (m := {}) h.mutexes ⟨rfl, rfl⟩ rfl j

theorem sound_call (h : Sound idle k) {c : KernelCall τ ι} (hr : k.stat k.self = .running)
    (hk : k.call c = some k')
    (hb : k'.stat k.self = .suspend → k.self ≠ idle ∧ k.sched.lockNest = 0) : Sound idle k' := by
  cases c with
  | semTake i time =>
    refine ⟨h.inv.semTake hr hk hb, fun j => ?_⟩
    obtain ⟨-, rfl⟩ | ⟨-, -, rfl⟩ | ⟨-, -, rfl⟩ := semTake_cases hk
    · exact h.mutexes j
    · exact h.mutexes j
    · rw [(SameObjects.waitOn _ _ _).mutex]
      exact h.mutexes j
  | semRelease i =>
    cases hk
    refine ⟨(h.inv.semRelease i).scheduled, fun j => ?_⟩
    rw [(SameObjects.scheduled _).mutex, semRelease_mutex]
    exact h.mutexes j
  | semReset i value =>
    cases hk
    refine ⟨(h.inv.semReset i value).needSchedule, fun j => ?_⟩
    change MutexOk ((k.ipcListResumeAll (.sem i)).mutex j)
    rw [(SameObjects.resumeAll _ _).mutex]
    exact h.mutexes j
  | mutexTake i time => exact ⟨h.inv.mutexTake hr hk hb, h.mutexTake_mutexes hk⟩
  | mutexRelease i =>
    cases hk
    refine ⟨(h.inv.mutexRelease hr i (h.mutexes i)).scheduled, fun j => ?_⟩
    rw [(SameObjects.scheduled _).mutex]
    exact h.mutexRelease_mutexes i j
  | eventSend i set =>
    cases hk
    refine ⟨(h.inv.eventSend i set).scheduled, fun j => ?_⟩
    rw [(SameObjects.scheduled _).mutex, eventSend_mutex]
    exact h.mutexes j
  | eventRecv i set option timeout =>
    refine ⟨h.inv.eventRecv hr hk hb, fun j => ?_⟩
    obtain ⟨-, rfl⟩ | ⟨bits, -, -, -, rfl⟩ | ⟨-, -, -, -, rfl⟩ | ⟨-, -, -, -, rfl⟩ :=
      eventRecv_cases hk
    · exact h.mutexes j
    · exact h.mutexes j
    · exact h.mutexes j
    · rw [(SameObjects.waitOn _ _ _).mutex]
      exact h.mutexes j
  | eventReset i =>
    cases hk
    refine ⟨(h.inv.eventReset i).needSchedule, fun j => ?_⟩
    change MutexOk ((k.ipcListResumeAll (.event i)).mutex j)
    rw [(SameObjects.resumeAll _ _).mutex]
    exact h.mutexes j
  | startup t =>
    obtain ⟨k₁, hk₁, rfl⟩ := Option.map_eq_some_iff.1 hk
    refine ⟨(h.inv.startup hk₁).needSchedule, fun j => ?_⟩
    obtain ⟨-, rfl⟩ := threadStartup_cases hk₁
    change MutexOk ((threadResume _ t).mutex j)
    rw [(SameObjects.resume _ _).mutex]
    exact h.mutexes j
  | sleep tick =>
    obtain rfl := threadSleep_eq_some hk
    have hs : (k.fallAsleep).stat k.self = .suspend := by
      rw [fallAsleep_eq hr]
      exact (Sched.threadSuspend_stat (.inr hr) _).trans (if_pos rfl)
    refine ⟨h.inv.sleep hr (hb hs).2 (hb hs).1, fun j => ?_⟩
    rw [fallAsleep_eq hr]
    exact h.mutexes j
  | yield =>
    have hset := h.inv.sameStat (s := k.sched.reload) (h.inv.sched.setCurrent rfl rfl)
      (fun u => by
        by_cases hu : u = k.self
        · subst hu
          simp [Sched.reload]
        · simp [Sched.reload, hu]) rfl rfl
    obtain ⟨s, hs, -, -, -, hinv⟩ := hset.schedule _ rfl (fun _ => ⟨rfl, rfl, rfl⟩) rfl
    rw [Kernel.call, hs] at hk
    cases hk
    exact ⟨hinv, h.mutexes⟩
  | enterCritical =>
    cases hk
    refine ⟨{ h.inv with
      sched := ⟨⟨h.inv.sched.queues.group, h.inv.sched.queues.mem, h.inv.sched.queues.order,
        h.inv.sched.queues.fresh, h.inv.sched.queues.bound⟩, h.inv.sched.running,
        h.inv.sched.current⟩
      blocked := fun hs => ?_ }, h.mutexes⟩
    have hs' : k.stat k.self = .suspend := hs
    rw [hr] at hs'
    cases hs'
  | exitCritical =>
    cases hk
    refine ⟨h.inv.exitCritical hr, fun j => ?_⟩
    unfold Kernel.exitCritical
    dsimp only
    split <;> exact h.mutexes j

theorem step_call {c : KernelCall τ ι} (hk : step k (.call c) = some k') :
    (k.InThread ∧ (k.thread k.self).pc = .own) ∧ k.call c = some k' := by
  simp only [step] at hk
  split at hk
  · next hg => exact ⟨hg, hk⟩
  · cases hk

/-- What a step does, with what it asks of the state. -/
inductive StepsTo (k : Kernel τ ι) : KernelAct τ ι → Kernel τ ι → Prop where
  | call {c : KernelCall τ ι} {k' : Kernel τ ι} (hin : k.InThread)
      (hown : (k.thread k.self).pc = .own) (hk : k.call c = some k') : StepsTo k (.call c) k'
  | retWait {o : IpcObj ι} (hin : k.InThread) (hp : (k.thread k.self).pc = .wait o) :
      StepsTo k .ret ((k.setThread k.self fun c => { c with pc := .own }).log
        (.ret k.self o (k.thread k.self).error))
  | retSleep (hin : k.InThread) (hp : (k.thread k.self).pc = .sleep) :
      StepsTo k .ret (k.setThread k.self fun c =>
        { c with pc := .own, error := if c.error = .etimeout then .eok else c.error })
  | schedule {k' : Kernel τ ι} (hisr : k.isrDue = false) (hdue : (k.thread k.self).due = true)
      (hk : (k.setThread k.self fun c => { c with due := false }).schedule = some k') :
      StepsTo k .schedule k'
  | isrSchedule {k' : Kernel τ ι} (hisr : k.isrDue = true)
      (hk : Kernel.schedule { k with isrDue := false } = some k') : StepsTo k .isrSchedule k'
  | isrSemRelease (i : ι) : StepsTo k (.isrSemRelease i) (isrScheduled (k.semRelease i))
  | isrEventSend (i : ι) (set : BitVec 32) :
      StepsTo k (.isrEventSend i set) (isrScheduled (k.eventSend i set))
  | timeout {t : τ} {k' : Kernel τ ι} (ht : (k.thread t).timer = true)
      (hk : k.threadTimeout t = some k') : StepsTo k (.timeout t) k'
  | tick : StepsTo k .tick k.tickIncrease

theorem stepsTo_of_step {a : KernelAct τ ι} (hk : step k a = some k') : StepsTo k a k' := by
  cases a with
  | call c =>
    obtain ⟨⟨hin, hown⟩, hk⟩ := step_call hk
    exact .call hin hown hk
  | ret =>
    simp only [step] at hk
    split at hk
    · next hin =>
      unfold threadReturn at hk
      dsimp only at hk
      split at hk
      · cases hk
      · next o hp =>
        cases hk
        exact .retWait hin hp
      · next hp =>
        cases hk
        exact .retSleep hin hp
    · cases hk
  | schedule =>
    simp only [step] at hk
    split at hk
    · next hg => exact .schedule hg.1 hg.2 hk
    · cases hk
  | isrSchedule =>
    simp only [step] at hk
    split at hk
    · next hisr => exact .isrSchedule hisr hk
    · cases hk
  | isrSemRelease i =>
    cases hk
    exact .isrSemRelease i
  | isrEventSend i set =>
    cases hk
    exact .isrEventSend i set
  | timeout t =>
    simp only [step] at hk
    split at hk
    · next ht => exact .timeout ht hk
    · cases hk
  | tick =>
    cases hk
    exact .tick

/-- Every step keeps the invariant. -/
theorem sound_step {a : KernelAct τ ι} (h : Sound idle k) (hk : step k a = some k')
    (hb : MayBlock idle k a k') : Sound idle k' := by
  cases stepsTo_of_step hk with
  | call hin _ hk => exact sound_call h (h.inv.running hin) hk (hb (h.inv.running hin))
  | retWait hin hp =>
    exact ⟨(h.inv.setSelf (f := fun c => { c with pc := .own }) (h.inv.running hin) rfl).logged _,
      h.mutexes⟩
  | retSleep hin hp => exact ⟨h.inv.setSelf (h.inv.running hin) rfl, h.mutexes⟩
  | schedule _ _ hk =>
    obtain ⟨s, hs, -, -, -, hinv⟩ := h.inv.schedule (k.setThread k.self fun c =>
      { c with due := false }) rfl (fun u => by
        by_cases hu : u = k.self
        · subst hu
          simp
        · simp [hu]) rfl
    rw [hs] at hk
    cases hk
    exact ⟨hinv, h.mutexes⟩
  | isrSchedule _ hk =>
    obtain ⟨s, hs, -, -, -, hinv⟩ := h.inv.schedule { k with isrDue := false } rfl
      (fun _ => ⟨rfl, rfl, rfl⟩) rfl
    rw [hs] at hk
    cases hk
    exact ⟨hinv, h.mutexes⟩
  | isrSemRelease i =>
    refine ⟨(h.inv.semRelease i).isrScheduled, fun j => ?_⟩
    rw [(SameObjects.isrScheduled _).mutex, semRelease_mutex]
    exact h.mutexes j
  | isrEventSend i set =>
    refine ⟨(h.inv.eventSend i set).isrScheduled, fun j => ?_⟩
    rw [(SameObjects.isrScheduled _).mutex, eventSend_mutex]
    exact h.mutexes j
  | timeout _ hk =>
    obtain ⟨hs, _, -, rfl⟩ := threadTimeout_cases hk
    have hw := h.inv.wake (f := fun c => { c with timer := false, error := .etimeout }) hs rfl
    exact ⟨hw.congr rfl rfl rfl, h.mutexes⟩
  | tick =>
    refine ⟨h.inv.tick, fun j => ?_⟩
    unfold tickIncrease
    rw [(SameObjects.isrScheduled _).mutex]
    exact h.mutexes j

omit [DecidableEq ι] in
/-- The kernel starts in order. -/
theorem sound_boot {priority initTick : τ → Nat} {main : τ} (hp : ∀ t, priority t < 32)
    (hne : main ≠ idle) (flag : IpcObj ι → IpcFlag) (sem : ι → Nat) :
    Sound idle (boot priority initTick main idle flag sem) := by
  obtain ⟨hinv, -, -, hstat, -⟩ := @Sched.inv_boot τ _ priority initTick main idle hp hne
  have hsus : ∀ t, (boot priority initTick main idle flag sem).stat t ≠ .suspend := fun t hs => by
    have hs' := (hstat t).symm.trans hs
    split at hs'
    · cases hs'
    · split at hs' <;> cases hs'
  refine ⟨⟨hinv, fun o t ht => absurd ht List.not_mem_nil, fun _ => List.nodup_nil,
    fun t hs => absurd hs (hsus t), fun t ht => Bool.noConfusion ht, fun _ _ => rfl,
    fun hs => absurd hs (hsus _), .inl ?_⟩, fun _ => ⟨rfl, rfl⟩⟩
  exact (hstat idle).trans (if_pos rfl)

end Kernel

end Rtos
