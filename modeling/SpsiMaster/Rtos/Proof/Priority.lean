import Mathlib.Data.List.Pairwise
import SpsiMaster.Lib.Run
import SpsiMaster.Rtos.Proof.Moves

/-!
# Who runs and who waits first

Three orders of the kernel, each with the steps that break it:

* `HighestRuns`: the running thread has the highest priority of those that can run
  (`highestRuns_step`, `highestRuns_break`);
* `Ordered`: a list of waiting threads has the order that its flag says (`ordered_step`,
  `ordered_break`);
* `Inherits`: the owner of a mutex has the priority of each thread that waits for it
  (`inherits_step`, `inherits_break`).
-/

namespace Rtos

namespace Sched

variable {τ : Type} [DecidableEq τ] {s : Sched τ} {t u : τ}

/-- What a change of a priority does; a thread that is not ready keeps its place. -/
theorem changePriority_frame {p : Nat} (u : τ) :
    ((s.changePriority t p).tcb u).currentPriority =
      (if u = t then p else (s.tcb u).currentPriority) ∧
    (u ≠ t ∨ (s.tcb t).stat ≠ .ready →
      ((s.changePriority t p).tcb u).stamp = (s.tcb u).stamp) := by
  unfold changePriority
  split
  · next hr =>
    constructor
    · rw [insertThread_prio]
      by_cases hu : u = t
      · subst hu
        simp
      · simp [hu]
    · intro hut
      have hu := hut.resolve_right (not_not.2 hr)
      rw [insertThread_tcb_of_ne _ _ hu, setTcb_of_ne hu, removeThread_tcb]
  · by_cases hu : u = t
    · subst hu
      simp
    · simp [hu]

theorem changePriority_clock {p : Nat} : s.clock ≤ (s.changePriority t p).clock := by
  unfold changePriority
  split
  · refine le_trans ?_ (insertThread_clock _ _)
    simp
  · exact le_refl _

theorem link_frame (u : τ) : ((s.link t).tcb u).currentPriority = (s.tcb u).currentPriority ∧
    ((s.link t).tcb u).stamp = if u = t then s.clock else (s.tcb u).stamp := by
  by_cases hu : u = t
  · subst hu
    simp [link]
  · simp [link, hu]

end Sched

namespace Kernel

variable {τ ι : Type} {k k' k'' : Kernel τ ι} {t u idle : τ} {o : IpcObj ι}
variable [DecidableEq τ] [DecidableEq ι]

/-- The running thread joins the list of `o`. -/
structure Joins (k : Kernel τ ι) (o : IpcObj ι) (k' : Kernel τ ι) : Prop where
  waiters : k'.waiters = Function.update k.waiters o (k.joined o k.self)
  prio : ∀ u, k'.prio u = k.prio u
  stamp : ∀ u, (k'.sched.tcb u).stamp = if u = k.self then k.sched.clock else (k.sched.tcb u).stamp
  clock : k'.sched.clock = k.sched.clock + 1
  flag : k'.flag = k.flag
  mutex : k'.mutex = k.mutex
  settled : ¬ Settled k'

theorem joins_waitOn (hr : k.stat k.self = .running) (o : IpcObj ι) (time : Int32)
    (f : ThreadCall ι → ThreadCall ι) : Joins k o ((k.setThread k.self f).waitOn o time) := by
  have heq := waitOn_eq (k := k.setThread k.self f) hr o time
  rw [heq]
  refine ⟨rfl, fun u => ?_, fun u => ?_, ?_, rfl, rfl, ?_⟩
  · exact (Sched.link_frame u).1.trans (Sched.threadSuspend_prio u)
  · refine (Sched.link_frame u).2.trans ?_
    rw [Sched.threadSuspend_clock, Sched.threadSuspend_stamp]
    rfl
  · exact congrArg (· + 1) Sched.threadSuspend_clock
  · rintro ⟨-, -, hd⟩
    have hcur : ((k.sched.threadSuspend k.self).link k.self).current = k.self :=
      Sched.threadSuspend_current
    simp only [self] at hd hcur
    simp only [setThread, hcur, Function.update_self] at hd
    cases hd

/-- A thread joins a list and the others stay. -/
theorem Joins.mem (h : Joins k o k') {o' : IpcObj ι} :
    u ∈ k'.waiters o' ↔ u ∈ k.waiters o' ∨ u = k.self ∧ o' = o := by
  rw [h.waiters]
  by_cases ho : o' = o
  · subst ho
    rw [Function.update_self, mem_joined]
    simp [or_comm]
  · simp [ho]

omit [DecidableEq ι] in
/-- The owner of a mutex inherits the priority of the running thread. -/
theorem inherit_prio (v : τ) : (k.inherit u).prio v =
    if v = u ∧ k.prio k.self < k.prio u then k.prio k.self else k.prio v := by
  by_cases hlt : k.prio k.self < k.prio u
  · have h := (Sched.changePriority_frame (s := k.sched) (t := u) (p := k.prio k.self) v).1
    simp only [inherit, hlt, and_true]
    exact h
  · simp only [inherit, hlt, and_false, if_false]

omit [DecidableEq ι] in
theorem inherit_stamp (hn : t ≠ u ∨ k.stat u ≠ .ready) :
    ((k.inherit u).sched.tcb t).stamp = (k.sched.tcb t).stamp := by
  unfold inherit
  dsimp only
  split
  · exact (Sched.changePriority_frame t).2 hn
  · rfl

omit [DecidableEq ι] in
theorem inherit_clock : k.sched.clock ≤ (k.inherit u).sched.clock := by
  unfold inherit
  dsimp only
  split
  · exact Sched.changePriority_clock
  · exact le_refl _

/-- What the end of the possession of a mutex does: the thread gets its priority back, and the
first thread that waits, if any, is the new owner and leaves the list. -/
structure GivesBack (k : Kernel τ ι) (i : ι) (k' : Kernel τ ι) : Prop where
  waiters : ∀ o, k'.waiters o = (match k.waiters (.mutex i) with
    | [] => k.waiters o
    | t :: _ => (k.waiters o).erase t)
  prio : ∀ u, k'.prio u = if u = k.self then (k.mutex i).originalPriority else k.prio u
  stamp : ∀ o, ∀ u ∈ k'.waiters o, (k'.sched.tcb u).stamp = (k.sched.tcb u).stamp
  clock : k.sched.clock ≤ k'.sched.clock
  flag : k'.flag = k.flag
  owner : ∀ j, (k'.mutex j).owner =
    if j = i then (k.waiters (.mutex i)).head? else (k.mutex j).owner
  settled : Settled k' ↔ k.sched.lockNest = 0 ∧ k.InThread ∧ k.waiters (.mutex i) = []
  self : k'.self = k.self
  stat : ∀ u, u ∉ k.waiters (.mutex i) → k'.stat u = k.stat u

omit [DecidableEq ι] in
theorem getBack_prio (i : ι) (v : τ) : (k.getBack i).prio v =
    if v = k.self then (k.mutex i).originalPriority else k.prio v := by
  by_cases hne : (k.mutex i).originalPriority ≠ k.prio k.self
  · simp only [getBack, if_pos hne]
    exact (Sched.changePriority_frame v).1
  · simp only [getBack, if_neg hne]
    split
    · next hv => rw [hv, not_not.1 hne]
    · rfl

omit [DecidableEq ι] in
theorem getBack_stamp (hr : k.stat k.self = .running) (i : ι) (v : τ) :
    ((k.getBack i).sched.tcb v).stamp = (k.sched.tcb v).stamp := by
  unfold getBack
  dsimp only
  split
  · refine (Sched.changePriority_frame v).2 (.inr ?_)
    rw [show (k.sched.tcb k.self).stat = .running from hr]
    decide
  · rfl

omit [DecidableEq ι] in
theorem getBack_clock (i : ι) : k.sched.clock ≤ (k.getBack i).sched.clock := by
  unfold getBack
  dsimp only
  split
  · exact Sched.changePriority_clock
  · exact le_refl _

theorem Sound.givesBack (h : Sound idle k) (hr : k.stat k.self = .running) {i : ι}
    (ho : (k.mutex i).owner = some k.self) (hh : (k.mutex i).hold = 1) :
    GivesBack k i (scheduled (k.mutexRelease i)) := by
  have hprio : (k.mutex i).originalPriority < 32 := ((h.mutexes i).held ho).2.2.2
  obtain ⟨k₁, hk₁⟩ : ∃ k₁, k₁ = (k.log (.unlock k.self i)).getBack i := ⟨_, rfl⟩
  obtain ⟨hinv, hstat, hself, hlock⟩ : Inv idle k₁ ∧ (∀ v, k₁.stat v = k.stat v) ∧
      k₁.self = k.self ∧ k₁.sched.lockNest = k.sched.lockNest := by
    rw [hk₁]
    exact (h.inv.logged (.unlock k.self i)).getBack hprio
  have hp : ∀ v, k₁.prio v =
      if v = k.self then (k.mutex i).originalPriority else k.prio v := fun v => by
    rw [hk₁]
    exact getBack_prio (k := k.log (.unlock k.self i)) i v
  have hst : ∀ v, (k₁.sched.tcb v).stamp = (k.sched.tcb v).stamp := fun v => by
    rw [hk₁]
    exact getBack_stamp (k := k.log (.unlock k.self i)) hr i v
  have hcl : k.sched.clock ≤ k₁.sched.clock := by
    rw [hk₁]
    exact getBack_clock (k := k.log (.unlock k.self i)) i
  have hw : k₁.waiters = k.waiters := by rw [hk₁]; rfl
  have hf : k₁.flag = k.flag := by rw [hk₁]; rfl
  have hm : k₁.mutex = k.mutex := by rw [hk₁]; rfl
  have hset : ∀ (m : MutexObj τ) j, ((k₁.setMutex i m).mutex j).owner =
      if j = i then m.owner else (k.mutex j).owner := fun m j => by
    by_cases hj : j = i
    · subst hj
      simp [setMutex]
    · simp [setMutex, hj, hm]
  obtain ⟨hne, -⟩ | ⟨-, hlt, -⟩ | ⟨-, -, t, l, hl, he⟩ | ⟨-, -, hl, he⟩ :=
    mutexRelease_cases (h.mutexes i)
  · exact absurd ho hne
  · omega
  · rw [he, ← hk₁]
    have hmem : t ∈ k₁.waiters (.mutex i) := by simp [hw, hl]
    have hstt := (hinv.waits _ t hmem).1
    have hkeeps := Keeps.resume (k := (k₁.setMutex i
      { value := 0, originalPriority := k₁.prio t, hold := 1, owner := some t }).log (.lock t i))
      (by exact hinv.nodup) t
    refine ⟨fun o => ?_, fun u => (hkeeps.prio u).trans (hp u), fun o u hu =>
      (hkeeps.stamp o u hu).trans (hst u), hcl.trans hkeeps.clock, hkeeps.flag.trans hf,
      fun j => ?_, ⟨fun hs => absurd hs (Calm.not_settled_needSchedule _), fun hs => ?_⟩, ?_,
      fun u hu => ?_⟩
    · rw [hl]
      change (threadResume _ t).waiters o = _
      rw [threadResume, if_pos (by exact hstt)]
      change (k₁.waiters o).erase t = _
      rw [hw]
    · refine (congrArg (fun m => (m j).owner) (SameObjects.resume _ t).mutex).trans ?_
      exact (hset _ j).trans (by rw [hl]; rfl)
    · rw [hl] at hs
      cases hs.2.2
    · change (threadResume _ t).self = _
      rw [threadResume, if_pos (by exact hstt)]
      exact (Sched.insertThread_current _ t).trans hself
    · have hne : u ≠ t := by
        rintro rfl
        exact hu (by simp [hl])
      change (threadResume _ t).stat u = _
      rw [threadResume, if_pos (by exact hstt)]
      exact (Sched.insertThread_stat u).trans ((if_neg hne).trans (hstat u))
  · rw [he, ← hk₁]
    refine ⟨fun o => ?_, hp, fun o u _ => hst u, hcl, hf, fun j => ?_, ?_, hself,
      fun u _ => hstat u⟩
    · rw [hl]
      exact congrFun hw o
    · exact (hset _ j).trans (by rw [hl]; rfl)
    · have hth : k₁.thread = k.thread := by rw [hk₁]; rfl
      have hdue : k₁.isrDue = k.isrDue := by rw [hk₁]; rfl
      change k₁.sched.lockNest = 0 ∧ k₁.isrDue = false ∧ (k₁.thread k₁.self).due = false ↔ _
      rw [hlock, hdue, hth, hself]
      exact ⟨fun hs => ⟨hs.1, hs.2, hl⟩, fun hs => ⟨hs.1, hs.2.1⟩⟩

/-- The thread joins the list after the owner has inherited its priority. -/
theorem Inv.joins_inherit (h : Inv idle k) (hr : k.stat k.self = .running) (i : ι)
    (u : τ) (time : Int32) : (k.inherit u).self = k.self ∧ Joins (k.inherit u) (.mutex i)
      (((k.inherit u).setThread k.self fun c => { c with error := .eok }).waitOn (.mutex i) time)
    := by
  obtain ⟨-, hstat, hself, -⟩ := h.inherit u
  have hr' : (k.inherit u).stat (k.inherit u).self = .running := by
    rw [hself, hstat]
    exact hr
  have hj := joins_waitOn hr' (.mutex i) time fun c => { c with error := .eok }
  rw [hself] at hj
  exact ⟨hself, hj⟩

/-! ## The running thread -/

/-- The running thread has the highest priority of those that can run. -/
def HighestRuns (k : Kernel τ ι) : Prop :=
  k.Settled → k.stat k.self = .running ∧ ∀ t, k.stat t = .ready → k.prio k.self ≤ k.prio t

/-- A thread that gives a mutex back that nobody waits for does not get a priority lower than that
of a ready thread. -/
def KeepsHighest (k : Kernel τ ι) (a : KernelAct τ ι) (_ : Kernel τ ι) : Prop :=
  match a with
  | .call (.mutexRelease i) =>
    k.sched.lockNest = 0 → (k.mutex i).owner = some k.self → (k.mutex i).hold = 1 →
      k.waiters (.mutex i) = [] → ∀ t, k.stat t = .ready → (k.mutex i).originalPriority ≤ k.prio t
  | _ => True

omit [DecidableEq τ] [DecidableEq ι] in
theorem Inv.highestRuns (h : Inv idle k) (hh : k.sched.Highest) : HighestRuns k := fun _ =>
  ⟨hh.running, fun t ht => hh.highest _ (List.ne_nil_of_mem
    ((h.sched.queues.mem (k.prio t) t).2 ⟨ht, rfl, by simp⟩))⟩

theorem highestRuns_step {a : KernelAct τ ι} (h : Sound idle k) (hq : Quiet k) (hi : HighestRuns k)
    (hk : step k a = some k') (hb : MayBlock idle k a k') (hkeep : KeepsHighest k a k') :
    HighestRuns k' := by
  have hinv' := (sound_step h hk hb).inv
  intro hs
  cases step_moves h hq hk with
  | calm hc =>
    obtain hh | ⟨hset, hself, hst⟩ := hc.settled hs
    · exact hinv'.highestRuns hh hs
    · obtain ⟨hr, hle⟩ := hi hset
      refine ⟨by rw [hself, hst]; exact hr, fun t ht => ?_⟩
      rw [hc.keeps.prio, hc.keeps.prio, hself]
      exact hle t ((hst t).symm.trans ht)
  | wait o time f hr ho => exact absurd hs (joins_waitOn hr o time f).settled
  | waitMutex i time u hr ho hu ht =>
    exact absurd hs (h.inv.joins_inherit hr i u time).2.settled
  | giveBack i hr ho hh =>
    have hg := h.givesBack hr ho hh
    obtain ⟨hlock, -, hl⟩ := hg.settled.1 hs
    have hst : ∀ u, (Kernel.scheduled (k.mutexRelease i)).stat u = k.stat u :=
      fun u => hg.stat u (by simp [hl])
    refine ⟨by rw [hg.self, hst]; exact hr, fun t ht => ?_⟩
    have ht' : k.stat t = .ready := (hst t).symm.trans ht
    have hne : t ≠ k.self := by
      rintro rfl
      rw [hr] at ht'
      cases ht'
    rw [hg.prio, hg.prio, hg.self, if_pos rfl, if_neg hne]
    exact hkeep hlock ho hh hl t ht'

/-- A step that lowers the priority below that of a ready thread. -/
theorem highestRuns_break {a : KernelAct τ ι} (h : Sound idle k) (hk : step k a = some k')
    (hbreak : ¬ KeepsHighest k a k') : ¬ HighestRuns k' := by
  unfold KeepsHighest at hbreak
  split at hbreak
  · next i =>
    simp only [not_forall] at hbreak
    obtain ⟨hlock, ho, hh, hl, t, ht, hlt⟩ := hbreak
    obtain ⟨hin, hk⟩ := step_call hk
    cases hk
    have hr := h.inv.running hin.1
    have hg := h.givesBack hr ho hh
    have hst : ∀ u, (Kernel.scheduled (k.mutexRelease i)).stat u = k.stat u :=
      fun u => hg.stat u (by simp [hl])
    intro hruns
    have hle := (hruns (hg.settled.2 ⟨hlock, hin.1, hl⟩)).2 t ((hst t).trans ht)
    have hne : t ≠ k.self := by
      rintro rfl
      rw [hr] at ht
      cases ht
    rw [hg.prio, hg.prio, hg.self, if_pos rfl, if_neg hne] at hle
    exact hlt hle
  · exact absurd trivial hbreak

/-! ## The waiting threads -/

omit [DecidableEq τ] [DecidableEq ι] in
theorem sublist_prioInsert {prio : τ → Nat} {l : List τ} : l.Sublist (prioInsert prio t l) := by
  induction l with
  | nil => exact List.nil_sublist _
  | cons u l ih =>
    rw [prioInsert]
    split
    · exact List.sublist_cons_self _ _
    · exact ih.cons_cons u

omit [DecidableEq τ] [DecidableEq ι] in
/-- Of two elements of a list one comes first. -/
theorem pairwise_or {R : τ → τ → Prop} {l : List τ} (h : l.Pairwise R) (ht : t ∈ l) (hu : u ∈ l)
    (hne : t ≠ u) : R t u ∨ R u t := by
  have hsymm : Std.Symm fun x y => R x y ∨ R y x := ⟨fun _ _ => Or.symm⟩
  have hor : l.Pairwise fun x y => R x y ∨ R y x := h.imp Or.inl
  exact hor.forall ht hu hne

/-- The threads that wait stay in their order. -/
theorem Joins.sublist (hj : Joins k o k') (o' : IpcObj ι) :
    (k.waiters o').Sublist (k'.waiters o') := by
  rw [hj.waiters]
  by_cases ho : o' = o
  · subst ho
    rw [Function.update_self]
    unfold joined
    split
    · exact List.sublist_append_left _ _
    · exact sublist_prioInsert
  · rw [Function.update_of_ne ho]

/-- A thread that is put behind those that it does not go before. -/
theorem pairwise_prioInsert {prio : τ → Nat} {R : τ → τ → Prop}
    (hR : ∀ a b, R a b → prio a ≤ prio b) {l : List τ} (hl : l.Pairwise R)
    (hlt : ∀ u ∈ l, prio t < prio u → R t u) (hge : ∀ u ∈ l, prio u ≤ prio t → R u t) :
    (prioInsert prio t l).Pairwise R := by
  induction l with
  | nil => exact List.pairwise_singleton R t
  | cons u l ih =>
    obtain ⟨hu, hl⟩ := List.pairwise_cons.1 hl
    rw [prioInsert]
    split
    · next hp =>
      refine List.pairwise_cons.2 ⟨fun v hv => ?_, List.pairwise_cons.2 ⟨hu, hl⟩⟩
      obtain rfl | hv' := List.mem_cons.1 hv
      · exact hlt v List.mem_cons_self hp
      · exact hlt v hv (hp.trans_le (hR _ _ (hu v hv')))
    · next hp =>
      refine List.pairwise_cons.2 ⟨fun v hv => ?_, ih hl
        (fun v hv => hlt v (List.mem_cons_of_mem u hv))
        fun v hv => hge v (List.mem_cons_of_mem u hv)⟩
      obtain rfl | hv := mem_prioInsert.1 hv
      · exact hge u List.mem_cons_self (Nat.le_of_not_lt hp)
      · exact hu v hv

/-- The order in which threads of the priorities `p` and `q` wait for `o`: the longest first, or
the highest priority first and then the longest. -/
def Goes (k : Kernel τ ι) (o : IpcObj ι) (p q : Nat) (t u : τ) : Prop :=
  match k.flag o with
  | .fifo => (k.sched.tcb t).stamp < (k.sched.tcb u).stamp
  | .prio => p < q ∨ p = q ∧ (k.sched.tcb t).stamp < (k.sched.tcb u).stamp

instance (o : IpcObj ι) (p q : Nat) (t u : τ) : Decidable (k.Goes o p q t u) :=
  match h : k.flag o with
  | .fifo => decidable_of_iff ((k.sched.tcb t).stamp < (k.sched.tcb u).stamp) (by simp [Goes, h])
  | .prio => decidable_of_iff (p < q ∨ p = q ∧ (k.sched.tcb t).stamp < (k.sched.tcb u).stamp)
      (by simp [Goes, h])

omit [DecidableEq τ] [DecidableEq ι] in
theorem Goes.asymm {p q : Nat} (h : k.Goes o p q t u) : ¬ k.Goes o q p u t := by
  unfold Goes at h ⊢
  cases hf : k.flag o with
  | fifo =>
    simp only [hf] at h ⊢
    omega
  | prio =>
    simp only [hf] at h ⊢
    omega

/-- Each list has the order of its flag. -/
def Ordered (k : Kernel τ ι) : Prop :=
  ∀ o, (k.waiters o).Pairwise fun t u => k.Goes o (k.prio t) (k.prio u) t u

/-- A thread that inherits a priority while it waits does not overtake another one in its list. -/
def KeepsOrder (k : Kernel τ ι) (a : KernelAct τ ι) (_ : Kernel τ ι) : Prop :=
  match a with
  | .call (.mutexTake i time) =>
    time ≠ 0 → ∀ u, (k.mutex i).owner = some u → u ≠ k.self → k.prio k.self < k.prio u →
      ∀ o, u ∈ k.waiters o → ∀ v ∈ k.waiters o, v ≠ u →
        k.Goes o (k.prio v) (k.prio u) v u → k.Goes o (k.prio v) (k.prio k.self) v u
  | _ => True

/-- The threads that wait have been linked before now. -/
def Fresh (k : Kernel τ ι) : Prop :=
  ∀ o, ∀ u ∈ k.waiters o, (k.sched.tcb u).stamp < k.sched.clock

omit [DecidableEq τ] [DecidableEq ι] in
theorem Goes.congr {p q : Nat} (h : k.Goes o p q t u) (hf : k'.flag = k.flag)
    (ht : (k'.sched.tcb t).stamp = (k.sched.tcb t).stamp)
    (hu : (k'.sched.tcb u).stamp = (k.sched.tcb u).stamp) : k'.Goes o p q t u := by
  unfold Goes at h ⊢
  rw [hf, ht, hu]
  exact h

omit [DecidableEq τ] [DecidableEq ι] in
/-- Lists whose threads keep their places. -/
theorem Ordered.kept (h : Ordered k) (hw : ∀ o, (k'.waiters o).Sublist (k.waiters o))
    (hp : ∀ o, ∀ u ∈ k'.waiters o, k'.prio u = k.prio u)
    (hs : ∀ o, ∀ u ∈ k'.waiters o, (k'.sched.tcb u).stamp = (k.sched.tcb u).stamp)
    (hf : k'.flag = k.flag) : Ordered k' := fun o =>
  ((h o).sublist (hw o)).imp_of_mem fun ha hb hg => by
    rw [hp o _ ha, hp o _ hb]
    exact hg.congr hf (hs o _ ha) (hs o _ hb)

omit [DecidableEq τ] [DecidableEq ι] in
theorem Fresh.kept (h : Fresh k) (hw : ∀ o, (k'.waiters o).Sublist (k.waiters o))
    (hs : ∀ o, ∀ u ∈ k'.waiters o, (k'.sched.tcb u).stamp = (k.sched.tcb u).stamp)
    (hc : k.sched.clock ≤ k'.sched.clock) : Fresh k' := fun o u hu => by
  rw [hs o u hu]
  exact (h o u ((hw o).subset hu)).trans_le hc

/-- The thread that joins a list comes behind those that are not to go after it. -/
theorem Joins.ordered (hj : Joins k o k') (hn : ∀ o, k.self ∉ k.waiters o) (h : Ordered k)
    (hf : Fresh k) : Ordered k' ∧ Fresh k' := by
  have hne : ∀ o', ∀ u ∈ k.waiters o', u ≠ k.self := fun o' u hu he => hn o' (he ▸ hu)
  have hst : ∀ o', ∀ u ∈ k.waiters o', (k'.sched.tcb u).stamp = (k.sched.tcb u).stamp :=
    fun o' u hu => by rw [hj.stamp, if_neg (hne o' u hu)]
  have hself : (k'.sched.tcb k.self).stamp = k.sched.clock := by rw [hj.stamp, if_pos rfl]
  have hold : ∀ o', (k.waiters o').Pairwise fun t u => k'.Goes o' (k'.prio t) (k'.prio u) t u :=
    fun o' => (h o').imp_of_mem fun ha hb hg => by
      rw [hj.prio, hj.prio]
      exact hg.congr hj.flag (hst o' _ ha) (hst o' _ hb)
  have hlt : ∀ u ∈ k.waiters o, (k'.sched.tcb u).stamp < (k'.sched.tcb k.self).stamp :=
    fun u hu => by
      rw [hst o u hu, hself]
      exact hf o u hu
  refine ⟨fun o' => ?_, fun o' u hu => ?_⟩
  · by_cases ho : o' = o
    · subst ho
      have hold' := hold o'
      rw [hj.waiters, Function.update_self]
      unfold joined
      cases hflag : k.flag o' with
      | fifo =>
        dsimp only
        refine List.pairwise_append.2 ⟨hold', List.pairwise_singleton _ _, fun u hu v hv => ?_⟩
        rw [List.mem_singleton.1 hv]
        simpa only [Goes, hj.flag, hflag] using hlt u hu
      | prio =>
        dsimp only
        simp only [Goes, hj.flag, hflag, hj.prio] at hold' ⊢
        refine pairwise_prioInsert (fun a b hab => ?_) hold' (fun u _ hp => .inl hp)
          fun u hu hp => ?_
        · obtain hab | hab := hab
          · exact hab.le
          · exact hab.1.le
        · obtain hp | hp := Nat.lt_or_eq_of_le hp
          · exact .inl hp
          · exact .inr ⟨hp, hlt u hu⟩
    · rw [hj.waiters, Function.update_of_ne ho]
      exact hold o'
  · rw [hj.clock]
    obtain hu | ⟨rfl, -⟩ := hj.mem.1 hu
    · rw [hst o' u hu]
      exact Nat.lt_succ_of_lt (hf o' u hu)
    · rw [hself]
      exact Nat.lt_succ_self _

omit [DecidableEq ι] in
theorem inherit_stamp_waiting (h : Inv idle k) (u : τ) (o : IpcObj ι) :
    ∀ v ∈ k.waiters o, ((k.inherit u).sched.tcb v).stamp = (k.sched.tcb v).stamp := fun v hv => by
  refine inherit_stamp ?_
  by_cases hvu : v = u
  · subst hvu
    refine .inr ?_
    rw [(h.waits o v hv).1]
    decide
  · exact .inl hvu

theorem ordered_step {a : KernelAct τ ι} (h : Sound idle k) (hq : Quiet k) (ho : Ordered k)
    (hf : Fresh k) (hk : step k a = some k') (hkeep : KeepsOrder k a k') :
    Ordered k' ∧ Fresh k' := by
  have hnot : k.stat k.self = .running → ∀ o, k.self ∉ k.waiters o := fun hr =>
    h.inv.not_mem (by rw [hr]; decide)
  cases step_moves h hq hk with
  | calm hc =>
    have hkp := hc.keeps
    exact ⟨ho.kept hkp.sublist (fun _ u _ => hkp.prio u) hkp.stamp hkp.flag,
      hf.kept hkp.sublist hkp.stamp hkp.clock⟩
  | wait o time f hr _ => exact (joins_waitOn hr o time f).ordered (hnot hr) ho hf
  | waitMutex i time u hr hown hu ht =>
    obtain ⟨hself, hj⟩ := h.inv.joins_inherit hr i u time
    have hst := inherit_stamp_waiting h.inv u
    refine hj.ordered (by rw [hself]; exact hnot hr) (fun o => ?_) ?_
    · refine (ho o).imp_of_mem fun {v w} hv hw hg => ?_
      have hg' : ∀ {p q : Nat}, k.Goes o p q v w → (k.inherit u).Goes o p q v w := fun hg =>
        hg.congr rfl (hst o v hv) (hst o w hw)
      by_cases hlt : k.prio k.self < k.prio u
      · rw [inherit_prio, inherit_prio]
        simp only [hlt, and_true]
        have hvw : v ≠ w := by
          rintro rfl
          exact hg.asymm hg
        by_cases hvu : v = u
        · -- the thread that inherits goes on being before the others
          subst hvu
          rw [if_pos rfl, if_neg (Ne.symm hvw)]
          refine hg' ?_
          unfold Goes at hg ⊢
          cases hflag : k.flag o with
          | fifo => simpa only [hflag] using hg
          | prio =>
            simp only [hflag] at hg ⊢
            omega
        · rw [if_neg hvu]
          by_cases hwu : w = u
          · subst hwu
            rw [if_pos rfl]
            exact hg' (hkeep ht w hown hu hlt o hw v hv hvw hg)
          · rw [if_neg hwu]
            exact hg' hg
      · rw [inherit_prio, inherit_prio, if_neg fun hc => hlt hc.2, if_neg fun hc => hlt hc.2]
        exact hg' hg
    · exact hf.kept (fun _ => List.Sublist.refl _) hst inherit_clock
  | giveBack i hr hown hh =>
    have hg := h.givesBack hr hown hh
    have hsub : ∀ o, ((Kernel.scheduled (k.mutexRelease i)).waiters o).Sublist (k.waiters o) :=
      fun o => by
        rw [hg.waiters]
        split
        · exact List.Sublist.refl _
        · exact List.erase_sublist
    refine ⟨ho.kept hsub (fun o u hu => ?_) hg.stamp hg.flag, hf.kept hsub hg.stamp hg.clock⟩
    have hne : u ≠ k.self := by
      rintro rfl
      exact hnot hr o ((hsub o).subset hu)
    rw [hg.prio, if_neg hne]

/-- `rt_mutex_take` of a mutex that another thread has. -/
theorem Sound.mutexTake_waits (h : Sound idle k) (hr : k.stat k.self = .running) {i : ι}
    {time : Int32} (ho : (k.mutex i).owner = some u) (hu : u ≠ k.self) (ht : time ≠ 0)
    (hk : k.mutexTake i time = some k') :
    (k.inherit u).self = k.self ∧ Joins (k.inherit u) (.mutex i) k' := by
  obtain ⟨ho', -⟩ | ⟨ho', -⟩ | ⟨-, hv, -⟩ | ⟨-, -, ht', -⟩ | ⟨u', hown', -, -, -, rfl⟩ :=
    mutexTake_cases hk
  · rw [ho] at ho'
    exact absurd (Option.some.inj ho') hu
  · rw [ho] at ho'
    exact absurd (Option.some.inj ho') hu
  · rw [((h.mutexes i).free hv).1] at ho
    cases ho
  · exact absurd ht' ht
  · rw [ho] at hown'
    cases hown'
    exact h.inv.joins_inherit hr i u time

/-- A thread overtakes another one in its list. -/
theorem ordered_break {a : KernelAct τ ι} (h : Sound idle k) (ho : Ordered k)
    (hk : step k a = some k') (hbreak : ¬ KeepsOrder k a k') : ¬ Ordered k' := by
  unfold KeepsOrder at hbreak
  split at hbreak
  · next i time =>
    simp only [not_forall] at hbreak
    obtain ⟨ht, u, hown, hu, hlt, o, huo, v, hvo, hvu, hg, hn⟩ := hbreak
    obtain ⟨hin, hk⟩ := step_call hk
    have hr := h.inv.running hin.1
    obtain ⟨hself, hj⟩ := h.mutexTake_waits hr hown hu ht hk
    have hst : ∀ w ∈ k.waiters o, (k'.sched.tcb w).stamp = (k.sched.tcb w).stamp := fun w hw => by
      have hne : w ≠ (k.inherit u).self := fun he => by
        rw [he.trans hself] at hw
        exact h.inv.not_mem (by rw [hr]; decide) o hw
      rw [hj.stamp, if_neg hne]
      exact inherit_stamp_waiting h.inv u o w hw
    intro hord
    -- the two are still in the list: one of them comes first there, before and after
    obtain ⟨-, hn'⟩ | ⟨hg', -⟩ := pairwise_or
      ((ho o).and ((hord o).sublist (hj.sublist o))) hvo huo hvu
    · rw [hj.prio, hj.prio, inherit_prio, inherit_prio, if_neg fun hc => hvu hc.1,
        if_pos ⟨rfl, hlt⟩] at hn'
      exact hn (hn'.congr hj.flag.symm (hst v hvo).symm (hst u huo).symm)
    · exact hg.asymm hg'
  · exact absurd trivial hbreak

/-! ## The owners of the mutexes -/

/-- The owner of a mutex has the priority of each thread that waits for it, or a higher one. -/
def Inherits (k : Kernel τ ι) : Prop :=
  ∀ i u, (k.mutex i).owner = some u → ∀ w ∈ k.waiters (.mutex i), k.prio u ≤ k.prio w

/-- A thread that inherits a priority waits for no mutex whose owner has a lower one; a thread that
gives a mutex back does not go below a thread that waits for another one of its mutexes; and the
thread that gets the mutex is not below the other ones in the list. -/
def KeepsInheritance (k : Kernel τ ι) (a : KernelAct τ ι) (_ : Kernel τ ι) : Prop :=
  match a with
  | .call (.mutexTake i time) =>
    time ≠ 0 → ∀ u, (k.mutex i).owner = some u → u ≠ k.self → k.prio k.self < k.prio u →
      ∀ j v, u ∈ k.waiters (.mutex j) → (k.mutex j).owner = some v → k.prio v ≤ k.prio k.self
  | .call (.mutexRelease i) =>
    (k.mutex i).owner = some k.self → (k.mutex i).hold = 1 →
      (∀ j, j ≠ i → (k.mutex j).owner = some k.self → ∀ w ∈ k.waiters (.mutex j),
        (k.mutex i).originalPriority ≤ k.prio w) ∧
      ∀ t ∈ (k.waiters (.mutex i)).head?, ∀ w ∈ (k.waiters (.mutex i)).tail, k.prio t ≤ k.prio w
  | _ => True

/-- A thread does not wait for a mutex of its own. -/
def OwnersDoNotWait (k : Kernel τ ι) : Prop :=
  ∀ i u, (k.mutex i).owner = some u → u ∉ k.waiters (.mutex i)

theorem ownersDoNotWait_step {a : KernelAct τ ι} (h : Sound idle k) (hq : Quiet k)
    (ho : OwnersDoNotWait k) (hk : step k a = some k') : OwnersDoNotWait k' := by
  intro i u hown hm
  cases step_moves h hq hk with
  | calm hc =>
    have hm' := (hc.keeps.sublist _).subset hm
    obtain he | hn := hc.owner i
    · exact ho i u (he ▸ hown) hm'
    · exact hq _ u hm' hn
  | wait o time f hr hno =>
    have hj := joins_waitOn hr o time f
    rw [hj.mutex] at hown
    obtain hm | ⟨-, hoi⟩ := hj.mem.1 hm
    · exact ho i u hown hm
    · exact hno i hoi.symm
  | waitMutex j time v hr hjv hv ht =>
    obtain ⟨hself, hj⟩ := h.inv.joins_inherit hr j v time
    rw [hj.mutex] at hown
    obtain hm | ⟨rfl, hoi⟩ := hj.mem.1 hm
    · exact ho i u hown hm
    · cases hoi
      have hown' : (k.mutex i).owner = some (k.inherit v).self := hown
      rw [hjv, hself] at hown'
      exact hv (Option.some.inj hown')
  | giveBack j hr hj hh =>
    have hg := h.givesBack hr hj hh
    rw [hg.owner] at hown
    rw [hg.waiters] at hm
    split at hown
    · next hij =>
      subst hij
      cases hl : k.waiters (.mutex i) with
      | nil =>
        rw [hl] at hown
        cases hown
      | cons t l =>
        rw [hl] at hown hm
        cases hown
        have hnd := h.inv.nodup (.mutex i)
        rw [hl] at hnd
        exact (hnd.mem_erase_iff.1 hm).1 rfl
    · refine ho i u hown ?_
      split at hm
      · exact hm
      · exact List.mem_of_mem_erase hm

theorem inherits_step {a : KernelAct τ ι} (h : Sound idle k) (hq : Quiet k)
    (hin : Inherits k) (hk : step k a = some k') (hkeep : KeepsInheritance k a k') :
    Inherits k' := by
  have hnot : k.stat k.self = .running → ∀ o, k.self ∉ k.waiters o := fun hr =>
    h.inv.not_mem (by rw [hr]; decide)
  intro i u hown w hw
  cases step_moves h hq hk with
  | calm hc =>
    have hw' := (hc.keeps.sublist _).subset hw
    rw [hc.keeps.prio, hc.keeps.prio]
    obtain he | hn := hc.owner i
    · exact hin i u (he ▸ hown) w hw'
    · exact absurd hn (hq _ w hw')
  | wait o time f hr hno =>
    have hj := joins_waitOn hr o time f
    rw [hj.mutex] at hown
    rw [hj.prio, hj.prio]
    obtain hw | ⟨-, hoi⟩ := hj.mem.1 hw
    · exact hin i u hown w hw
    · exact absurd hoi.symm (hno i)
  | waitMutex j time v hr hjv hv ht =>
    obtain ⟨hself, hj⟩ := h.inv.joins_inherit hr j v time
    rw [hj.mutex] at hown
    have hown' : (k.mutex i).owner = some u := hown
    rw [hj.prio, hj.prio, inherit_prio, inherit_prio]
    obtain hw | ⟨rfl, hoi⟩ := hj.mem.1 hw
    · have hle := hin i u hown' w hw
      by_cases hlt : k.prio k.self < k.prio v
      · simp only [hlt, and_true]
        by_cases hwv : w = v
        · subst hwv
          rw [if_pos rfl]
          split
          · exact le_refl _
          · exact hkeep ht w hjv hv hlt i u hw hown'
        · rw [if_neg hwv]
          split
          · next huv =>
            subst huv
            omega
          · exact hle
      · simp only [hlt, and_false, if_false]
        exact hle
    · -- the thread that has begun to wait
      cases hoi
      rw [hjv] at hown'
      cases hown'
      have hn : ¬ (k.self = u) := fun he => hv he.symm
      rw [hself]
      by_cases hlt : k.prio k.self < k.prio u
      · simp only [hlt, hn, and_true, if_true, if_false, le_refl]
      · simp only [hlt, and_false, if_false]
        exact Nat.le_of_not_lt hlt
  | giveBack j hr hj hh =>
    have hg := h.givesBack hr hj hh
    obtain ⟨hother, hhead⟩ := hkeep hj hh
    rw [hg.owner] at hown
    have hw' : w ∈ k.waiters (.mutex i) := by
      rw [hg.waiters] at hw
      split at hw
      · exact hw
      · exact List.mem_of_mem_erase hw
    have hne : w ≠ k.self := by
      rintro rfl
      exact hnot hr _ hw'
    rw [hg.prio, hg.prio, if_neg hne]
    split at hown
    · next hij =>
      subst hij
      cases hl : k.waiters (.mutex i) with
      | nil =>
        rw [hl] at hown
        cases hown
      | cons t l =>
        rw [hl] at hown
        cases hown
        have hut : u ≠ k.self := by
          rintro rfl
          exact hnot hr (.mutex i) (by simp [hl])
        rw [if_neg hut]
        simp only [hg.waiters, hl, List.erase_cons_head] at hw
        exact hhead u (by simp [hl]) w (by simpa [hl] using hw)
    · next hij =>
      split
      · next hu =>
        subst hu
        exact hother i hij hown w hw'
      · exact hin i u hown w hw'

/-- A step that leaves an owner below a thread that waits. -/
theorem inherits_break {a : KernelAct τ ι} (h : Sound idle k) (hown : OwnersDoNotWait k)
    (hk : step k a = some k') (hbreak : ¬ KeepsInheritance k a k') : ¬ Inherits k' := by
  have hnot : k.stat k.self = .running → ∀ o, k.self ∉ k.waiters o := fun hr =>
    h.inv.not_mem (by rw [hr]; decide)
  intro hin
  refine hbreak ?_
  unfold KeepsInheritance
  split
  · -- the owner is not told of the priority that a thread waiting for its mutex inherits
    next i time =>
    intro ht u ho hu hlt j v hm hv
    obtain ⟨hg, hk⟩ := step_call hk
    obtain ⟨hself, hj⟩ := h.mutexTake_waits (h.inv.running hg.1) ho hu ht hk
    have hvu : v ≠ u := by
      rintro rfl
      exact hown j v hv hm
    have hle := hin j v (by rw [hj.mutex]; exact hv) u (hj.mem.2 (.inl hm))
    rw [hj.prio, hj.prio, inherit_prio, inherit_prio, if_neg fun hc => hvu hc.1,
      if_pos ⟨rfl, hlt⟩] at hle
    exact hle
  · next i =>
    intro ho hh
    obtain ⟨hg, hk⟩ := step_call hk
    cases hk
    have hr := h.inv.running hg.1
    have hgb := h.givesBack hr ho hh
    refine ⟨fun j hji hj w hw => ?_, fun t ht w hw => ?_⟩
    · have hne : w ≠ k.self := by
        rintro rfl
        exact hnot hr _ hw
      have hw' : w ∈ (Kernel.scheduled (k.mutexRelease i)).waiters (.mutex j) := by
        rw [hgb.waiters]
        split
        · exact hw
        · next t l hl =>
          refine (List.mem_erase_of_ne ?_).2 hw
          rintro rfl
          have hwi : w ∈ k.waiters (.mutex i) := by simp [hl]
          exact hji (IpcObj.mutex.inj (h.inv.mem_unique hw hwi))
      have hle := hin j k.self (by rw [hgb.owner, if_neg hji]; exact hj) w hw'
      rwa [hgb.prio, hgb.prio, if_pos rfl, if_neg hne] at hle
    · cases hl : k.waiters (.mutex i) with
      | nil =>
        rw [hl] at hw
        cases hw
      | cons u l =>
        rw [hl] at ht hw
        cases ht
        have hmem : ∀ v ∈ k.waiters (.mutex i), v ≠ k.self := fun v hv he =>
          hnot hr (.mutex i) (he ▸ hv)
        have hw' : w ∈ (Kernel.scheduled (k.mutexRelease i)).waiters (.mutex i) := by
          simp only [hgb.waiters, hl, List.erase_cons_head]
          exact hw
        have hle := hin i t (by rw [hgb.owner, if_pos rfl, hl]; rfl) w hw'
        rwa [hgb.prio, hgb.prio, if_neg (hmem t (by simp [hl])),
          if_neg (hmem w (by rw [hl]; exact List.mem_cons_of_mem t hw))] at hle
  · trivial

end Kernel

end Rtos
