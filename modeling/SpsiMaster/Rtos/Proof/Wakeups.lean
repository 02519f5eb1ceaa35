import SpsiMaster.Rtos.Proof.Calls

/-!
# No lost wake-up

`Kernel.Quiet`: no thread waits for a semaphore with a token, for a mutex without an owner, or for
bits that have been sent. Every step keeps it (`quiet_step`). The step that needs an argument is
`rt_event_send`, which looks at one thread after the other while the ones it wakes may clear bits:
what was not enough before is not enough with fewer bits (`received_anti`).
-/

namespace Rtos

/-- A thread that got nothing from some bits gets nothing from fewer. -/
theorem EventInfo.received_anti {info : EventInfo} {set ev ev' : BitVec 32}
    (h : info.received set ev = none) (hsub : ev' &&& ev = ev') : info.received set ev' = none := by
  have hbit : ∀ j, ev'.getLsbD j = true → ev.getLsbD j = true := fun j hj => by
    rw [← hsub, BitVec.getLsbD_and, Bool.and_eq_true] at hj
    exact hj.2
  unfold EventInfo.received at h ⊢
  split
  · next ha =>
    rw [if_pos ha] at h
    rw [if_neg]
    intro he
    refine absurd (BitVec.eq_of_getLsbD_eq fun j hj => ?_) (by simpa using h)
    by_cases hs : set.getLsbD j = true
    · have := congrArg (fun v => v.getLsbD j) he
      simp only [BitVec.getLsbD_and, hs, Bool.true_and] at this
      simp [hs, hbit j this]
    · simp [hs]
  · next ha =>
    rw [if_neg ha] at h
    split
    · next ho =>
      rw [if_pos ho] at h
      rw [if_neg]
      simp only [ne_eq, not_not]
      have hz : set &&& ev = 0#32 := by simpa using h
      refine BitVec.eq_of_getLsbD_eq fun j hj => ?_
      have hzj : (set.getLsbD j && ev.getLsbD j) = false := by
        rw [← BitVec.getLsbD_and, hz, BitVec.getLsbD_zero]
      rw [BitVec.getLsbD_and, BitVec.ofNat_eq_ofNat, BitVec.getLsbD_zero]
      cases hev' : ev'.getLsbD j with
      | false => simp
      | true => rwa [hbit j hev'] at hzj
    · rfl

namespace Kernel

variable {τ ι : Type} {k k' : Kernel τ ι} {t u idle : τ} {o : IpcObj ι}

/-- A thread asks for some bits, all of them or any. -/
def Asks (c : ThreadCall ι) : Prop :=
  (c.eventInfo.flagAnd = true ∨ c.eventInfo.flagOr = true) ∧ c.eventSet ≠ 0

/-- What `t` would get from the object is not there. -/
def Lacks (k : Kernel τ ι) (t : τ) : IpcObj ι → Prop
  | .sem i => k.sem i = 0
  | .mutex i => (k.mutex i).owner ≠ none
  | .event i => Asks (k.thread t) ∧
      (k.thread t).eventInfo.received (k.thread t).eventSet (k.event i) = none

/-- Nothing that a thread waits for is there (module doc). -/
def Quiet (k : Kernel τ ι) : Prop := ∀ o, ∀ t ∈ k.waiters o, k.Lacks t o

/-- Threads leave the lists, and those that stay ask for the same. -/
structure Leaves (k k' : Kernel τ ι) : Prop where
  sublist : ∀ o, (k'.waiters o).Sublist (k.waiters o)
  asked : ∀ o, ∀ t ∈ k'.waiters o, (k'.thread t).eventSet = (k.thread t).eventSet ∧
    (k'.thread t).eventInfo = (k.thread t).eventInfo

theorem Leaves.trans {k'' : Kernel τ ι} (h : Leaves k k') (h' : Leaves k' k'') : Leaves k k'' where
  sublist o := (h'.sublist o).trans (h.sublist o)
  asked o t ht := by
    obtain ⟨h₁, h₂⟩ := h'.asked o t ht
    obtain ⟨h₃, h₄⟩ := h.asked o t ((h'.sublist o).subset ht)
    exact ⟨h₁.trans h₃, h₂.trans h₄⟩

theorem Lacks.congr (h : k.Lacks t o) (ho : SameObjects k k')
    (hs : (k'.thread t).eventSet = (k.thread t).eventSet)
    (hi : (k'.thread t).eventInfo = (k.thread t).eventInfo) : k'.Lacks t o := by
  cases o with
  | sem i => exact (congrFun ho.sem i).trans h
  | mutex i =>
    rw [Lacks, ho.mutex]
    exact h
  | event i =>
    rw [Lacks, Asks, hs, hi, ho.event]
    exact h

theorem Quiet.leaves (h : Quiet k) (hl : Leaves k k') (ho : SameObjects k k') : Quiet k' :=
  fun o t ht => (h o t ((hl.sublist o).subset ht)).congr ho (hl.asked o t ht).1 (hl.asked o t ht).2

variable [DecidableEq τ]

/-- A change of a thread that waits for nothing, or that goes on asking for the same. -/
theorem leaves_setThread {f : ThreadCall ι → ThreadCall ι}
    (hf : (∀ o, t ∉ k.waiters o) ∨ (f (k.thread t)).eventSet = (k.thread t).eventSet ∧
      (f (k.thread t)).eventInfo = (k.thread t).eventInfo) : Leaves k (k.setThread t f) where
  sublist _ := List.Sublist.refl _
  asked o u hu := by
    by_cases hut : u = t
    · subst hut
      rw [setThread_self]
      exact hf.resolve_left fun hn => hn o hu
    · rw [setThread_of_ne hut]
      exact ⟨rfl, rfl⟩

theorem leaves_resume (k : Kernel τ ι) (t : τ) : Leaves k (k.threadResume t) := by
  unfold threadResume
  split
  · refine (leaves_setThread (f := fun c => { c with timer := false }) (t := t)
      (.inr ⟨rfl, rfl⟩)).trans ⟨fun _ => List.erase_sublist, fun _ _ _ => ⟨rfl, rfl⟩⟩
  · exact ⟨fun _ => List.Sublist.refl _, fun _ _ _ => ⟨rfl, rfl⟩⟩

/-- A resumed thread is in no list. -/
theorem not_mem_resume (hs : k.stat t = .suspend) (hnd : (k.waiters o).Nodup) :
    t ∉ (k.threadResume t).waiters o := by
  rw [threadResume, if_pos hs]
  exact fun hm => ((hnd.mem_erase_iff).1 hm).1 rfl

/-- The threads of a list are resumed one by one. -/
theorem resumeAll_spec (l : List τ) (k : Kernel τ ι) (hl : l.Nodup)
    (hs : ∀ t ∈ l, k.stat t = .suspend) (hnd : ∀ o, (k.waiters o).Nodup) :
    Leaves k (l.foldl (fun k t => ((k.log (.wake t o .error)).setThread t fun c =>
      { c with error := .error }).threadResume t) k) ∧
    ∀ o', ∀ t ∈ l, t ∉ (l.foldl (fun k t => ((k.log (.wake t o .error)).setThread t fun c =>
      { c with error := .error }).threadResume t) k).waiters o' := by
  induction l generalizing k with
  | nil => exact ⟨⟨fun _ => List.Sublist.refl _, fun _ _ _ => ⟨rfl, rfl⟩⟩, fun _ _ hm => by
      cases hm⟩
  | cons t l ih =>
    obtain ⟨ht, hl⟩ := List.nodup_cons.1 hl
    have hst := hs t List.mem_cons_self
    rw [List.foldl_cons]
    obtain ⟨k₁, hk₁⟩ : ∃ k₁, k₁ = ((k.log (.wake t o .error)).setThread t fun c =>
        { c with error := .error }).threadResume t := ⟨_, rfl⟩
    have hleave : Leaves k k₁ := by
      rw [hk₁]
      refine Leaves.trans ?_ (leaves_resume _ t)
      have hlog : Leaves k (k.log (.wake t o .error)) :=
        ⟨fun _ => List.Sublist.refl _, fun _ _ _ => ⟨rfl, rfl⟩⟩
      exact hlog.trans (leaves_setThread (.inr ⟨rfl, rfl⟩))
    have hnd₁ : ∀ o', (k₁.waiters o').Nodup := fun o' => (hnd o').sublist (hleave.sublist o')
    have hs₁ : ∀ u ∈ l, k₁.stat u = .suspend := fun u hu => by
      have hne : u ≠ t := ne_of_mem_of_not_mem hu ht
      rw [hk₁, threadResume, if_pos (by exact hst)]
      refine (Sched.insertThread_stat u).trans ?_
      rw [if_neg hne]
      exact hs u (List.mem_cons_of_mem t hu)
    rw [← hk₁]
    obtain ⟨hle, hnot⟩ := ih k₁ hl hs₁ hnd₁
    refine ⟨hleave.trans hle, fun o' u hu hm => ?_⟩
    obtain rfl | hu := List.mem_cons.1 hu
    · have hm' := (hle.sublist o').subset hm
      rw [hk₁] at hm'
      exact not_mem_resume (k := (k.log (.wake u o .error)).setThread u fun c =>
        { c with error := .error }) hst (hnd o') hm'
    · exact hnot o' u hu hm

theorem Inv.leaves_resumeAll (h : Inv idle k) (o : IpcObj ι) :
    Leaves k (k.ipcListResumeAll o) ∧ (k.ipcListResumeAll o).waiters o = [] := by
  obtain ⟨hl, hn⟩ := resumeAll_spec (o := o) (k.waiters o) k (h.nodup o)
    (fun t ht => (h.waits o t ht).1) h.nodup
  refine ⟨hl, List.eq_nil_iff_forall_not_mem.2 fun t ht => ?_⟩
  exact hn o t ((hl.sublist o).subset ht) ht

variable [DecidableEq ι]

/-- `Quiet`, but some threads that wait for the event `i` are yet to be looked at. -/
structure Searching (i : ι) (l : List τ) (k : Kernel τ ι) : Prop where
  asked : ∀ j, ∀ t ∈ k.waiters (.event j), Asks (k.thread t)
  lacks : ∀ o, ∀ t ∈ k.waiters o, (o = .event i ∧ t ∈ l) ∨ k.Lacks t o

omit [DecidableEq τ] [DecidableEq ι] in
/-- The thread at the head gets nothing. -/
theorem Searching.skip {i : ι} {l : List τ} (h : Searching i (t :: l) k)
    (hr : (k.thread t).eventInfo.received (k.thread t).eventSet (k.event i) = none) :
    Searching i l k := by
  refine ⟨h.asked, fun o u hu => ?_⟩
  obtain ⟨rfl, hm⟩ | hn := h.lacks o u hu
  · obtain rfl | hm := List.mem_cons.1 hm
    · exact .inr ⟨h.asked i u hu, hr⟩
    · exact .inl ⟨rfl, hm⟩
  · exact .inr hn

/-- The thread at the head receives its bits. -/
theorem Searching.answer {i : ι} {l : List τ} {set : BitVec 32} (h : Searching i (t :: l) k)
    (hs : k.stat t = .suspend) (hnd : ∀ o, (k.waiters o).Nodup) :
    Searching i l (k.eventAnswer i t set) := by
  rw [eventAnswer_eq hs]
  -- the threads that stay in the lists are other ones, and the event has fewer bits
  have hmem : ∀ o, ∀ u ∈ (k.waiters o).erase t, u ≠ t ∧ u ∈ k.waiters o := fun o u hu =>
    (hnd o).mem_erase_iff.1 hu
  have hth : ∀ {c : ThreadCall ι} {u : τ}, u ≠ t → Function.update k.thread t c u = k.thread u :=
    fun hne => Function.update_of_ne hne _ _
  refine ⟨fun j u hu => ?_, fun o u hu => ?_⟩
  · obtain ⟨hne, hm⟩ := hmem _ u hu
    simp only [wakeUp, setThread, hth hne]
    exact h.asked j u hm
  · obtain ⟨hne, hm⟩ := hmem _ u hu
    obtain ⟨rfl, hl⟩ | hn := h.lacks o u hm
    · exact .inl ⟨rfl, (List.mem_cons.1 hl).resolve_left hne⟩
    · refine .inr ?_
      cases o with
      | sem j => exact hn
      | mutex j => exact hn
      | event j =>
        simp only [Lacks, wakeUp, setThread, hth hne]
        refine ⟨hn.1, EventInfo.received_anti hn.2 ?_⟩
        by_cases hj : j = i
        · subst hj
          rw [Function.update_self]
          split
          · rw [BitVec.and_assoc, BitVec.and_comm (~~~set), ← BitVec.and_assoc, BitVec.and_self]
          · exact BitVec.and_self
        · rw [Function.update_of_ne hj]
          exact BitVec.and_self

/-- `rt_event_send` leaves nobody waiting for what is there. -/
theorem eventSearch_quiet {i : ι} (l : List τ) (h : Searching i l k) (hl : l.Nodup)
    (hw : ∀ t ∈ l, t ∈ k.waiters (.event i)) (hs : ∀ t ∈ l, k.stat t = .suspend)
    (hnd : ∀ o, (k.waiters o).Nodup) (b : Bool) : Quiet (eventSearch i l k b).1 := by
  induction l generalizing k b with
  | nil => exact fun o t ht => (h.lacks o t ht).resolve_left fun hn => List.not_mem_nil hn.2
  | cons t l ih =>
    obtain ⟨ht, hl⟩ := List.nodup_cons.1 hl
    have hst := hs t List.mem_cons_self
    rw [Kernel.eventSearch]
    split
    · next hf =>
      obtain ha | ho := (h.asked i t (hw t List.mem_cons_self)).1
      · rw [hf.1] at ha
        cases ha
      · rw [hf.2] at ho
        cases ho
    · split
      · next hr =>
        exact ih (h.skip hr) hl (fun u hu => hw u (List.mem_cons_of_mem t hu))
          (fun u hu => hs u (List.mem_cons_of_mem t hu)) hnd b
      · next set hset =>
        have hne : ∀ u ∈ l, u ≠ t := fun u hu he => ht (he ▸ hu)
        have hwait : ∀ o, (k.eventAnswer i t set).waiters o = (k.waiters o).erase t := fun o => by
          rw [eventAnswer_eq hst]
          rfl
        refine ih (h.answer hst hnd) hl (fun u hu => ?_) (fun u hu => ?_) (fun o => ?_) true
        · rw [hwait]
          exact (List.mem_erase_of_ne (hne u hu)).2 (hw u (List.mem_cons_of_mem t hu))
        · rw [eventAnswer_stat hst, if_neg (hne u hu)]
          exact hs u (List.mem_cons_of_mem t hu)
        · rw [hwait]
          exact (hnd o).erase t

namespace Quiet

omit [DecidableEq τ] [DecidableEq ι] in
/-- A change that leaves the lists and what their threads ask for. -/
theorem kept (h : Quiet k) (hw : k'.waiters = k.waiters) (ho : SameObjects k k')
    (ht : ∀ u, (∃ o, u ∈ k.waiters o) → (k'.thread u).eventSet = (k.thread u).eventSet ∧
      (k'.thread u).eventInfo = (k.thread u).eventInfo) : Quiet k' :=
  h.leaves ⟨fun o => by rw [hw], fun o u hu => ht u ⟨o, by rwa [hw] at hu⟩⟩ ho

omit [DecidableEq τ] [DecidableEq ι] in
/-- The scheduler's part is not looked at. -/
theorem setSched (h : Quiet k) (s : Sched τ) : Quiet { k with sched := s } :=
  h.kept rfl ⟨rfl, rfl, rfl⟩ fun _ _ => ⟨rfl, rfl⟩

omit [DecidableEq τ] [DecidableEq ι] in
/-- Objects that nobody waits for change. -/
theorem free (h : Quiet k) (hw : k'.waiters = k.waiters)
    (ht : ∀ u, (∃ o, u ∈ k.waiters o) → k'.thread u = k.thread u)
    (hl : ∀ o u, u ∈ k.waiters o → k.Lacks u o → k'.thread u = k.thread u → k'.Lacks u o) :
    Quiet k' := fun o u hu => by
  rw [hw] at hu
  exact hl o u hu (h o u hu) (ht u ⟨o, hu⟩)

/-- The running thread waits for what is not there. -/
theorem waitOn (h : Quiet k) (hinv : Inv idle k) (hs : k.stat k.self = .running)
    (hl : k.Lacks k.self o) (time : Int32) : Quiet (k.waitOn o time) := by
  have hso := SameObjects.waitOn k o time
  have hnot := hinv.not_mem (t := k.self) (by rw [hs]; decide)
  intro o' u hu
  rw [waitOn_eq hs] at hu ⊢
  have hu' : u ∈ Function.update k.waiters o (k.joined o k.self) o' := hu
  by_cases hself : u = k.self
  · subst hself
    have ho : o' = o := by
      by_contra hne
      rw [Function.update_of_ne hne] at hu'
      exact hnot o' hu'
    subst ho
    refine hl.congr ⟨rfl, rfl, rfl⟩ ?_ ?_ <;> simp only [Function.update_self]
  · have hm : u ∈ k.waiters o' := by
      by_cases ho : o' = o
      · subst ho
        rw [Function.update_self, mem_joined] at hu'
        exact hu'.resolve_left hself
      · rwa [Function.update_of_ne ho] at hu'
    refine (h o' u hm).congr ⟨rfl, rfl, rfl⟩ ?_ ?_ <;> simp only [Function.update_of_ne hself]

omit [DecidableEq ι] in
/-- The running thread, which waits for nothing, changes. -/
theorem setSelf (h : Quiet k) (hinv : Inv idle k) (hs : k.stat k.self = .running)
    {f : ThreadCall ι → ThreadCall ι} : Quiet (k.setThread k.self f) := by
  have hnot := hinv.not_mem (t := k.self) (by rw [hs]; decide)
  refine h.kept rfl ⟨rfl, rfl, rfl⟩ fun u ⟨o, hu⟩ => ?_
  have hne : u ≠ k.self := fun he => hnot o (he ▸ hu)
  rw [setThread_of_ne hne]
  exact ⟨rfl, rfl⟩

omit [DecidableEq ι] in
/-- A thread that is at a call of `rt_schedule`. -/
theorem needSchedule (h : Quiet k) : Quiet k.needSchedule :=
  h.leaves (leaves_setThread (.inr ⟨rfl, rfl⟩)) ⟨rfl, rfl, rfl⟩

omit [DecidableEq ι] in
theorem scheduled {r : Kernel τ ι × Bool} (h : Quiet r.1) : Quiet (scheduled r) := by
  unfold Kernel.scheduled
  split
  · exact h.needSchedule
  · exact h

omit [DecidableEq τ] [DecidableEq ι] in
theorem isrScheduled {r : Kernel τ ι × Bool} (h : Quiet r.1) : Quiet (isrScheduled r) := by
  unfold Kernel.isrScheduled
  split
  · exact h.kept rfl ⟨rfl, rfl, rfl⟩ fun _ _ => ⟨rfl, rfl⟩
  · exact h

omit [DecidableEq ι] in
theorem resume (h : Quiet k) (t : τ) : Quiet (k.threadResume t) :=
  h.leaves (leaves_resume k t) (SameObjects.resume k t)

omit [DecidableEq ι] in
/-- The list of an object becomes empty. -/
theorem emptied (h : Quiet k) (hinv : Inv idle k) :
    Quiet (k.ipcListResumeAll o) ∧ (k.ipcListResumeAll o).waiters o = [] :=
  ⟨h.leaves (hinv.leaves_resumeAll o).1 (SameObjects.resumeAll k o), (hinv.leaves_resumeAll o).2⟩

omit [DecidableEq τ] in
/-- The value of a semaphore that nobody waits for. -/
theorem setSem (h : Quiet k) {i : ι} (hw : k.waiters (.sem i) = []) (v : Nat)
    (e : KernelEvent τ ι) : Quiet ({ k with sem := Function.update k.sem i v }.log e) := by
  refine h.free rfl (fun _ _ => rfl) fun o u hu hl _ => ?_
  cases o with
  | sem j =>
    have hj : j ≠ i := by
      rintro rfl
      rw [hw] at hu
      cases hu
    exact (Function.update_of_ne hj _ _).trans hl
  | mutex j => exact hl
  | event j => exact hl

theorem semTake (h : Quiet k) (hinv : Inv idle k) (hs : k.stat k.self = .running) {i : ι}
    {time : Int32} (hk : k.semTake i time = some k') : Quiet k' := by
  obtain ⟨hv, rfl⟩ | ⟨-, -, rfl⟩ | ⟨hv, -, rfl⟩ := semTake_cases hk
  · refine h.setSem (List.eq_nil_iff_forall_not_mem.2 fun u hu => ?_) _ _
    rw [h _ u hu] at hv
    exact Nat.lt_irrefl 0 hv
  · exact h
  · have hs' := hinv.setSelf (f := fun c => { c with error := .eok }) hs rfl
    exact (h.setSelf hinv hs).waitOn (o := .sem i) hs' hs hv time

theorem semRelease (h : Quiet k) (i : ι) : Quiet (k.semRelease i).1 := by
  unfold Kernel.semRelease
  split
  · refine resume ?_ _
    exact h.kept rfl ⟨rfl, rfl, rfl⟩ fun _ _ => ⟨rfl, rfl⟩
  · next hw =>
    split
    · exact h.setSem hw _ _
    · exact h

theorem semReset (h : Quiet k) (hinv : Inv idle k) (i : ι) (value : Nat) :
    Quiet (k.semReset i value) :=
  (h.emptied hinv).1.setSem (h.emptied hinv).2 _ _

omit [DecidableEq τ] in
/-- A mutex that has an owner, or that nobody waits for. -/
theorem setMutex (h : Quiet k) {i : ι} {m : MutexObj τ}
    (hm : k.waiters (.mutex i) = [] ∨ m.owner ≠ none) : Quiet (k.setMutex i m) := by
  refine h.free rfl (fun _ _ => rfl) fun o u hu hl _ => ?_
  cases o with
  | sem j => exact hl
  | mutex j =>
    by_cases hj : j = i
    · subst hj
      obtain hw | ho := hm
      · rw [hw] at hu
        cases hu
      · simpa only [Lacks, Kernel.setMutex, Function.update_self] using ho
    · simpa only [Lacks, Kernel.setMutex, Function.update_of_ne hj] using hl
  | event j => exact hl

omit [DecidableEq τ] [DecidableEq ι] in
theorem logged (h : Quiet k) (e : KernelEvent τ ι) : Quiet (k.log e) :=
  h.kept rfl ⟨rfl, rfl, rfl⟩ fun _ _ => ⟨rfl, rfl⟩

theorem mutexTake (h : Quiet k) (hinv : Inv idle k) (hs : k.stat k.self = .running) {i : ι}
    {time : Int32} (hk : k.mutexTake i time = some k') : Quiet k' := by
  have h' : Quiet (k.setThread k.self fun c => { c with error := .eok }) := h.setSelf hinv hs
  obtain ⟨ho, -, rfl⟩ | ⟨-, -, rfl⟩ | ⟨-, -, rfl⟩ | ⟨-, -, -, rfl⟩ | ⟨u, ho, -, -, -, rfl⟩ :=
    mutexTake_cases hk
  · exact (h'.setMutex (.inr (by rw [ho]; simp))).logged _
  · exact h'
  · unfold mutexFirst
    dsimp only
    split
    · exact (h'.setMutex (.inr (by simp))).logged _
    · exact h'.setMutex (.inr (by simp))
  · exact setSelf h' (hinv.setSelf hs rfl) hs
  · obtain ⟨hinh, hstat, hself, -⟩ := hinv.inherit u
    have hq : Quiet (k.inherit u) := h.setSched _
    have hrun : (k.inherit u).stat (k.inherit u).self = .running := by
      rw [hself]
      exact (hstat _).trans hs
    rw [← hself]
    refine (hq.setSelf hinh hrun).waitOn (hinh.setSelf (f := fun c => { c with error := .eok })
      hrun rfl) hrun ?_ time
    change (k.mutex i).owner ≠ none
    rw [ho]
    simp

theorem mutexRelease (h : Quiet k) (hinv : Inv idle k) (hs : k.stat k.self = .running) (i : ι)
    (hm : MutexOk (k.mutex i)) : Quiet (k.mutexRelease i).1 := by
  have hback : Quiet ((k.log (.unlock k.self i)).getBack i) :=
    h.kept rfl ⟨rfl, rfl, rfl⟩ fun _ _ => ⟨rfl, rfl⟩
  obtain ⟨-, he⟩ | ⟨ho, -, he⟩ | ⟨-, -, t, l, -, he⟩ | ⟨-, -, hw, he⟩ := mutexRelease_cases hm
  · rw [he]
    exact h.setSelf (f := fun c => { c with error := .error }) hinv hs
  · rw [he]
    exact (h.setMutex (.inr (by rw [ho]; simp))).logged _
  · rw [he]
    exact ((hback.setMutex (.inr (by simp))).logged _).resume t
  · rw [he]
    exact hback.setMutex (.inl hw)

omit [DecidableEq τ] in
/-- The bits of an event become fewer. -/
theorem setEvent (h : Quiet k) {i : ι} {v : BitVec 32} (hv : v &&& k.event i = v)
    (e : KernelEvent τ ι) : Quiet ({ k with event := Function.update k.event i v }.log e) := by
  refine h.free rfl (fun _ _ => rfl) fun o u hu hl _ => ?_
  cases o with
  | sem j => exact hl
  | mutex j => exact hl
  | event j =>
    refine ⟨hl.1, EventInfo.received_anti hl.2 ?_⟩
    by_cases hj : j = i
    · subst hj
      change Function.update k.event j v j &&& _ = Function.update k.event j v j
      rwa [Function.update_self]
    · change Function.update k.event i v j &&& _ = Function.update k.event i v j
      rw [Function.update_of_ne hj]
      exact BitVec.and_self

omit [DecidableEq τ] in
/-- The threads that wait are looked at with the bits that have been sent. -/
theorem searching (h : Quiet k) (i : ι) (set : BitVec 32) :
    Searching i (k.waiters (.event i)) (({ k with
      event := Function.update k.event i (k.event i ||| set) } : Kernel τ ι).log
        (.send i set)) := by
  refine ⟨fun j u hu => (h _ u hu).1, fun o u hu => ?_⟩
  cases o with
  | sem j => exact .inr (h _ u hu)
  | mutex j => exact .inr (h _ u hu)
  | event j =>
    by_cases hj : j = i
    · subst hj
      exact .inl ⟨rfl, hu⟩
    · refine .inr ⟨(h _ u hu).1, ?_⟩
      have he : Function.update k.event i (k.event i ||| set) j = k.event j :=
        Function.update_of_ne hj _ _
      simp only [log, he]
      exact (h _ u hu).2

theorem eventSend (h : Quiet k) (hinv : Inv idle k) (i : ι) (set : BitVec 32) :
    Quiet (k.eventSend i set).1 := by
  unfold Kernel.eventSend
  split
  · exact h
  · exact eventSearch_quiet _ (h.searching i set) (hinv.nodup _) (fun u hu => hu)
      (fun u hu => (hinv.waits _ u hu).1) hinv.nodup false

theorem eventRecv (h : Quiet k) (hinv : Inv idle k) (hs : k.stat k.self = .running) {i : ι}
    {set : BitVec 32} {option : EventInfo} {timeout : Int32}
    (hk : k.eventRecv i set option timeout = some k') : Quiet k' := by
  obtain ⟨-, rfl⟩ | ⟨bits, -, -, -, rfl⟩ | ⟨-, -, -, -, rfl⟩ | ⟨hset, ha, hr, -, rfl⟩ :=
    eventRecv_cases hk
  · exact h
  · refine (h.setSelf hinv hs (f := fun c =>
      { c with error := .eok, eventSet := bits, eventInfo := option })).setEvent ?_ _
    change _ &&& k.event i = _
    split
    · rw [BitVec.and_assoc, BitVec.and_comm (~~~set), ← BitVec.and_assoc, BitVec.and_self]
    · exact BitVec.and_self
  · exact h.setSelf hinv hs
  · refine (h.setSelf hinv hs).waitOn (hinv.setSelf (f := fun c =>
      { c with error := .eok, eventSet := set, eventInfo := option }) hs rfl) hs ?_ timeout
    have hth : ∀ f, (k.setThread k.self f).thread k.self = f (k.thread k.self) :=
      fun _ => setThread_self
    change Asks ((k.setThread k.self _).thread k.self) ∧
      EventInfo.received ((k.setThread k.self _).thread k.self).eventInfo
        ((k.setThread k.self _).thread k.self).eventSet (k.event i) = none
    rw [hth]
    exact ⟨⟨ha, hset⟩, hr⟩

theorem eventReset (h : Quiet k) (hinv : Inv idle k) (i : ι) : Quiet (k.eventReset i) := by
  obtain ⟨hq, -⟩ := h.emptied (o := .event i) hinv
  exact hq.setEvent BitVec.zero_and _

end Quiet

theorem quiet_call (h : Sound idle k) (hq : Quiet k) {c : KernelCall τ ι}
    (hr : k.stat k.self = .running) (hk : k.call c = some k') : Quiet k' := by
  cases c with
  | semTake i time => exact hq.semTake h.inv hr hk
  | semRelease i =>
    cases hk
    exact (hq.semRelease i).scheduled
  | semReset i value =>
    cases hk
    exact (hq.semReset h.inv i value).needSchedule
  | mutexTake i time => exact hq.mutexTake h.inv hr hk
  | mutexRelease i =>
    cases hk
    exact (hq.mutexRelease h.inv hr i (h.mutexes i)).scheduled
  | eventSend i set =>
    cases hk
    exact (hq.eventSend h.inv i set).scheduled
  | eventRecv i set option timeout => exact hq.eventRecv h.inv hr hk
  | eventReset i =>
    cases hk
    exact (hq.eventReset h.inv i).needSchedule
  | startup t =>
    obtain ⟨k₁, hk₁, rfl⟩ := Option.map_eq_some_iff.1 hk
    obtain ⟨-, rfl⟩ := threadStartup_cases hk₁
    exact ((hq.setSched _).resume t).needSchedule
  | sleep tick =>
    obtain rfl := threadSleep_eq_some hk
    rw [fallAsleep_eq hr]
    exact hq.setSelf (f := fun c => { c with timer := true, pc := .sleep, due := true }) h.inv hr
  | yield =>
    obtain ⟨s, -, rfl⟩ := Option.map_eq_some_iff.1 hk
    exact hq.setSched s
  | enterCritical =>
    cases hk
    exact hq.setSched _
  | exitCritical =>
    cases hk
    have hq' := hq.setSched { k.sched with lockNest := k.sched.lockNest - 1 }
    unfold Kernel.exitCritical
    dsimp only
    split
    · exact hq'.needSchedule
    · exact hq'

/-- **No wake-up is lost.** -/
theorem quiet_step {a : KernelAct τ ι} (h : Sound idle k) (hq : Quiet k)
    (hk : step k a = some k') : Quiet k' := by
  cases stepsTo_of_step hk with
  | call hin _ hk => exact quiet_call h hq (h.inv.running hin) hk
  | retWait hin _ =>
    exact (hq.setSelf (f := fun c => { c with pc := .own }) h.inv (h.inv.running hin)).logged _
  | retSleep hin _ => exact hq.setSelf h.inv (h.inv.running hin)
  | schedule _ _ hk =>
    obtain ⟨s, -, rfl⟩ := Option.map_eq_some_iff.1 hk
    have hq' : Quiet (k.setThread k.self fun c => { c with due := false }) :=
      hq.leaves (leaves_setThread (.inr ⟨rfl, rfl⟩)) ⟨rfl, rfl, rfl⟩
    exact hq'.setSched s
  | isrSchedule _ hk =>
    obtain ⟨s, -, rfl⟩ := Option.map_eq_some_iff.1 hk
    exact hq.kept rfl ⟨rfl, rfl, rfl⟩ fun _ _ => ⟨rfl, rfl⟩
  | isrSemRelease i => exact (hq.semRelease i).isrScheduled
  | isrEventSend i set => exact (hq.eventSend h.inv i set).isrScheduled
  | @timeout t _ _ hk =>
    obtain ⟨-, _, -, rfl⟩ := threadTimeout_cases hk
    have hl : Leaves (k.setThread t fun c => { c with timer := false, error := .etimeout })
        ((k.setThread t fun c => { c with timer := false, error := .etimeout }).wakeUp t) :=
      ⟨fun _ => List.erase_sublist, fun _ _ _ => ⟨rfl, rfl⟩⟩
    have hq' := hq.leaves ((leaves_setThread (.inr ⟨rfl, rfl⟩)).trans hl) ⟨rfl, rfl, rfl⟩
    exact hq'.kept rfl ⟨rfl, rfl, rfl⟩ fun _ _ => ⟨rfl, rfl⟩
  | tick => exact Quiet.isrScheduled (hq.setSched _)

omit [DecidableEq ι] in
theorem quiet_boot {priority initTick : τ → Nat} {main : τ} (flag : IpcObj ι → IpcFlag)
    (sem : ι → Nat) : Quiet (boot priority initTick main idle flag sem) :=
  fun _ _ ht => absurd ht List.not_mem_nil

end Kernel

end Rtos
