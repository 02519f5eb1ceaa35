import SpsiMaster.Rtos.Scheduler

/-!
# The ready queues

`Queues s out`: the queues of `s` hold the ready threads, each at its priority, in the order in
which they have been linked, and the bitmap shows the queues that are not empty. `out` is a thread
that is out of its queue while its status still says ready. `Sched.Inv` is this with no such
thread, and one thread that runs. Every function of the scheduler keeps it, and
`schedule_spec` says which thread `rt_schedule` goes over to.
-/

namespace Rtos

theorem getLsbD_numberMask {c : Tcb} (h : c.currentPriority < 32) (p : Nat) :
    c.numberMask.getLsbD p = decide (p = c.currentPriority) := by
  simp only [Tcb.numberMask, BitVec.getLsbD_shiftLeft, BitVec.getLsbD_one]
  by_cases hp : p = c.currentPriority
  · subst hp
    simp [h]
  · by_cases hlt : p < c.currentPriority
    · simp [hp, hlt]
    · have h0 : p - c.currentPriority ≠ 0 := by omega
      simp [hp, h0]

/-- The lowest bit that is set. -/
theorem ffs_spec {v : BitVec 32} (h : v ≠ 0) :
    ∃ p < 32, ffs v = p + 1 ∧ v.getLsbD p = true ∧ ∀ q < p, v.getLsbD q = false := by
  unfold ffs
  cases hf : (List.range 32).find? v.getLsbD with
  | none =>
    refine absurd (BitVec.eq_of_getLsbD_eq fun i hi => ?_) h
    simpa using List.find?_eq_none.1 hf i (List.mem_range.2 hi)
  | some p =>
    obtain ⟨hp, hmem, hlow⟩ := List.find?_range_eq_some.1 hf
    exact ⟨p, List.mem_range.1 hmem, rfl, hp, fun q hq => by simpa using hlow q hq⟩

namespace Sched

variable {τ : Type} [DecidableEq τ] {s s' : Sched τ} {t u : τ} {f : Tcb → Tcb}

@[simp] theorem setTcb_self : (s.setTcb t f).tcb t = f (s.tcb t) := by simp [setTcb]

@[simp] theorem setTcb_of_ne (h : u ≠ t) : (s.setTcb t f).tcb u = s.tcb u := by simp [setTcb, h]

@[simp] theorem setTcb_table : (s.setTcb t f).table = s.table := rfl
@[simp] theorem setTcb_group : (s.setTcb t f).group = s.group := rfl
@[simp] theorem setTcb_current : (s.setTcb t f).current = s.current := rfl
@[simp] theorem setTcb_lockNest : (s.setTcb t f).lockNest = s.lockNest := rfl
@[simp] theorem setTcb_clock : (s.setTcb t f).clock = s.clock := rfl

theorem insertThread_self (h : t = s.current) :
    s.insertThread t = s.setTcb t fun c => { c with stat := .running } := if_pos h

theorem insertThread_eq (h : t ≠ s.current) :
    s.insertThread t =
      { s with
        tcb := Function.update s.tcb t { s.tcb t with stat := .ready, stamp := s.clock }
        table := Function.update s.table (s.tcb t).currentPriority
          (s.table (s.tcb t).currentPriority ++ [t])
        group := s.group ||| (s.tcb t).numberMask
        clock := s.clock + 1 } := by
  simp [insertThread, h, link, setTcb, Tcb.numberMask]

/-- The queues, with the thread `out` missing (module doc). -/
structure Queues (s : Sched τ) (out : Option τ) : Prop where
  group : ∀ p, s.group.getLsbD p = true ↔ s.table p ≠ []
  mem : ∀ p t, t ∈ s.table p ↔
    (s.tcb t).stat = .ready ∧ (s.tcb t).currentPriority = p ∧ some t ≠ out
  order : ∀ p, (s.table p).Pairwise fun t u => (s.tcb t).stamp < (s.tcb u).stamp
  fresh : ∀ p, ∀ t ∈ s.table p, (s.tcb t).stamp < s.clock
  bound : ∀ t, (s.tcb t).currentPriority < 32

namespace Queues

variable {out : Option τ}

omit [DecidableEq τ] in
theorem nodup (h : Queues s out) (p : Nat) : (s.table p).Nodup :=
  (h.order p).imp fun hlt heq => by
    subst heq
    exact Nat.lt_irrefl _ hlt

omit [DecidableEq τ] in
theorem ne_of_mem (hn : ∀ p, t ∉ s.table p) {p : Nat} (hu : u ∈ s.table p) : u ≠ t := by
  rintro rfl
  exact hn p hu

omit [DecidableEq τ] in
theorem not_mem_out (h : Queues s (some t)) (p : Nat) : t ∉ s.table p := fun hm =>
  ((h.mem p t).1 hm).2.2 rfl

omit [DecidableEq τ] in
theorem not_mem_of_stat (h : Queues s out) (hs : (s.tcb t).stat ≠ .ready) (p : Nat) :
    t ∉ s.table p := fun hm => hs ((h.mem p t).1 hm).1

/-- A change of a thread that no queue holds. -/
theorem set (h : Queues s out) (hn : ∀ p, t ∉ s.table p) (hb : (f (s.tcb t)).currentPriority < 32)
    {out' : Option τ} (ho : ∀ u, u ≠ t → (some u ≠ out ↔ some u ≠ out'))
    (ht : (f (s.tcb t)).stat = .ready → out' = some t) : Queues (s.setTcb t f) out' where
  group := h.group
  mem p u := by
    by_cases hu : u = t
    · subst hu
      rw [setTcb_table, setTcb_self]
      refine ⟨fun hm => absurd hm (hn p), fun hr => ?_⟩
      exact absurd (ht hr.1).symm hr.2.2
    · rw [setTcb_table, setTcb_of_ne hu, ← ho u hu]
      exact h.mem p u
  order p := (h.order p).imp_of_mem fun ha hb hlt => by
    rwa [setTcb_of_ne (ne_of_mem hn ha), setTcb_of_ne (ne_of_mem hn hb)]
  fresh p u hu := by
    rw [setTcb_table] at hu
    rw [setTcb_of_ne (ne_of_mem hn hu)]
    exact h.fresh p u hu
  bound u := by
    by_cases hu : u = t
    · subst hu
      rwa [setTcb_self]
    · rw [setTcb_of_ne hu]
      exact h.bound u

/-- The thread is taken out of its queue. -/
theorem remove (h : Queues s none) : Queues (s.removeThread t) (some t) := by
  obtain ⟨p, hp⟩ : ∃ p, p = (s.tcb t).currentPriority := ⟨_, rfl⟩
  have hmem : ∀ q u, u ∈ (Function.update s.table p ((s.table p).erase t)) q ↔
      (s.tcb u).stat = .ready ∧ (s.tcb u).currentPriority = q ∧ some u ≠ some t := by
    intro q u
    by_cases hq : q = p
    · subst hq
      rw [Function.update_self, (h.nodup q).mem_erase_iff, h.mem]
      simp [and_comm, and_assoc]
    · rw [Function.update_of_ne hq, h.mem]
      refine ⟨fun hm => ⟨hm.1, hm.2.1, fun he => hq ?_⟩, fun hm => ⟨hm.1, hm.2.1, by simp⟩⟩
      rw [hp, ← Option.some.inj he, hm.2.1]
  have hsub : ∀ q, ((Function.update s.table p ((s.table p).erase t)) q).Sublist (s.table q) := by
    intro q
    by_cases hq : q = p
    · subst hq
      rw [Function.update_self]
      exact List.erase_sublist
    · rw [Function.update_of_ne hq]
  have hother : ∀ q, q ≠ p → (Function.update s.table p ((s.table p).erase t)) q = s.table q :=
    fun q hq => Function.update_of_ne hq _ _
  have hrest : ∀ g, (∀ q, g.getLsbD q = true ↔
      (Function.update s.table p ((s.table p).erase t)) q ≠ []) →
      Queues { s with table := Function.update s.table p ((s.table p).erase t), group := g }
        (some t) := fun g hg =>
    ⟨hg, hmem, fun q => (h.order q).sublist (hsub q),
      fun q u hu => h.fresh q u ((hsub q).subset hu), h.bound⟩
  simp only [removeThread, ← hp]
  split
  · next hnil =>
    refine hrest _ fun q => ?_
    have hmask := getLsbD_numberMask (h.bound t) q
    rw [← hp] at hmask
    have hlt : q < 32 ∨ s.group.getLsbD q = false := by
      by_cases hq : q < 32
      · exact .inl hq
      · exact .inr (BitVec.getLsbD_of_ge _ _ (by omega))
    by_cases hq : q = p
    · rw [BitVec.getLsbD_and, BitVec.getLsbD_not, hmask, hq]
      simpa [or_iff_not_imp_left] using hnil
    · rw [BitVec.getLsbD_and, BitVec.getLsbD_not, hmask, hother q hq, ← h.group]
      obtain hlt | hf := hlt
      · simp [hq, hlt]
      · simp [hf]
  · next hcons =>
    refine hrest _ fun q => ?_
    rw [h.group]
    by_cases hq : q = p
    · subst hq
      have hne : s.table q ≠ [] := fun hnil => by simp [hnil] at hcons
      simp only [hne, ne_eq, not_false_eq_true, true_iff]
      exact hcons
    · rw [hother q hq]

/-- The thread is put behind the others of its priority. -/
theorem insert (h : Queues s (some t)) (hc : t ≠ s.current) : Queues (s.insertThread t) none := by
  have hn := h.not_mem_out
  have hne : ∀ {q u}, u ∈ s.table q → u ≠ t := ne_of_mem hn
  rw [insertThread_eq hc]
  refine ⟨fun q => ?_, fun q u => ?_, fun q => ?_, fun q u hu => ?_, fun u => ?_⟩
  · simp only [BitVec.getLsbD_or, getLsbD_numberMask (h.bound t) q]
    by_cases hq : q = (s.tcb t).currentPriority
    · simp [hq]
    · simpa [hq] using h.group q
  · by_cases hu : u = t
    · subst hu
      by_cases hq : q = (s.tcb u).currentPriority
      · simp [hq]
      · simp [hq, hn q, Ne.symm hq]
    · have hm := h.mem q u
      simp only [hu, ne_eq, Option.some.injEq, not_false_eq_true, and_true] at hm
      by_cases hq : q = (s.tcb t).currentPriority
      · subst hq
        simpa [hu] using hm
      · simpa [hq, hu] using hm
  · have hold : (s.table q).Pairwise fun a b =>
        (Function.update s.tcb t { s.tcb t with stat := .ready, stamp := s.clock } a).stamp <
          (Function.update s.tcb t { s.tcb t with stat := .ready, stamp := s.clock } b).stamp :=
      (h.order q).imp_of_mem fun ha hb hlt => by simpa [hne ha, hne hb] using hlt
    by_cases hq : q = (s.tcb t).currentPriority
    · subst hq
      simp only [Function.update_self]
      refine List.pairwise_append.2 ⟨hold, List.pairwise_singleton _ _, fun a ha b hb => ?_⟩
      obtain rfl := List.mem_singleton.1 hb
      simpa [hne ha] using h.fresh _ a ha
    · simpa [hq] using hold
  · by_cases hut : u = t
    · subst hut
      simp
    · have hm : u ∈ s.table q := by
        by_cases hq : q = (s.tcb t).currentPriority
        · subst hq
          simpa [hut] using hu
        · simpa [hq] using hu
      have := h.fresh q u hm
      simp only [ne_eq, hut, not_false_eq_true, Function.update_of_ne]
      omega
  · by_cases hu : u = t
    · subst hu
      simpa using h.bound u
    · simpa [hu] using h.bound u

end Queues

/-! ## The functions of the scheduler -/

/-- The queues hold every ready thread, and no thread but the current one runs. -/
structure Inv (s : Sched τ) : Prop where
  queues : Queues s none
  running : ∀ t, (s.tcb t).stat = .running → t = s.current
  current : (s.tcb s.current).stat = .running ∨ (s.tcb s.current).stat = .suspend

/-- The running thread has the highest priority of those that can run. -/
structure Highest (s : Sched τ) : Prop where
  running : (s.tcb s.current).stat = .running
  highest : ∀ p, s.table p ≠ [] → (s.tcb s.current).currentPriority ≤ p

omit [DecidableEq τ] in
theorem Inv.ready_ne (h : Inv s) (hr : (s.tcb t).stat = .ready) : t ≠ s.current := by
  rintro rfl
  obtain hc | hc := h.current <;> rw [hc] at hr <;> cases hr

section
variable (s t)

@[simp] theorem removeThread_tcb : (s.removeThread t).tcb = s.tcb := by
  unfold removeThread; dsimp only; split <;> rfl

@[simp] theorem removeThread_current : (s.removeThread t).current = s.current := by
  unfold removeThread; dsimp only; split <;> rfl

@[simp] theorem removeThread_lockNest : (s.removeThread t).lockNest = s.lockNest := by
  unfold removeThread; dsimp only; split <;> rfl

@[simp] theorem removeThread_clock : (s.removeThread t).clock = s.clock := by
  unfold removeThread; dsimp only; split <;> rfl

@[simp] theorem insertThread_current : (s.insertThread t).current = s.current := by
  unfold insertThread; dsimp only; split <;> rfl

@[simp] theorem insertThread_lockNest : (s.insertThread t).lockNest = s.lockNest := by
  unfold insertThread; dsimp only; split <;> rfl

theorem insertThread_tcb_of_ne (h : u ≠ t) : (s.insertThread t).tcb u = s.tcb u := by
  by_cases hc : t = s.current
  · simp [insertThread_self hc, h]
  · simp [insertThread_eq hc, h]

/-- A thread that becomes ready, or runs on if it is the current one. -/
theorem insertThread_tcb_self : ∃ n, (s.insertThread t).tcb t =
    { s.tcb t with stat := if t = s.current then .running else .ready, stamp := n } := by
  by_cases hc : t = s.current
  · exact ⟨(s.tcb t).stamp, by rw [insertThread_self hc, setTcb_self, if_pos hc]⟩
  · exact ⟨s.clock, by simp [insertThread_eq hc, hc]⟩

end

/-- A suspended thread is made ready. -/
theorem Inv.insert (h : Inv s) (hs : (s.tcb t).stat = .suspend) : Inv (s.insertThread t) := by
  have hn := h.queues.not_mem_of_stat (t := t) (by rw [hs]; decide)
  obtain ⟨n, hself⟩ := insertThread_tcb_self s t
  by_cases hc : t = s.current
  · rw [insertThread_self hc]
    refine ⟨h.queues.set hn (h.queues.bound t) (fun u _ => by simp) (by simp), fun u hu => ?_, ?_⟩
    · by_cases hut : u = t
      · exact hut.trans hc
      · rw [setTcb_of_ne hut] at hu
        exact h.running u hu
    · subst hc
      simp
  · have hout : Queues s (some t) := by
      refine { h.queues with mem := fun p u => (h.queues.mem p u).trans ?_ }
      refine and_congr_right fun hr => and_congr_right fun _ => ?_
      have hut : u ≠ t := by
        rintro rfl
        rw [hs] at hr
        cases hr
      simp [hut]
    refine ⟨hout.insert hc, fun u hu => ?_, ?_⟩
    · rw [insertThread_current]
      by_cases hut : u = t
      · subst hut
        rw [hself] at hu
        simp [hc] at hu
      · rw [insertThread_tcb_of_ne _ _ hut] at hu
        exact h.running u hu
    · rw [insertThread_current, insertThread_tcb_of_ne _ _ (Ne.symm hc)]
      exact h.current

/-- The thread that is ready or runs is suspended. -/
theorem Inv.suspend (h : Inv s) : Inv (s.threadSuspend t) := by
  unfold threadSuspend
  split
  · next hs =>
    have hq := h.queues.remove (t := t)
    refine ⟨hq.set hq.not_mem_out (by simpa using h.queues.bound t) (fun u hu => by simp [hu])
      (by simp), fun u hu => ?_, ?_⟩
    · by_cases hut : u = t
      · subst hut
        simp at hu
      · rw [setTcb_of_ne hut, removeThread_tcb] at hu
        simpa using h.running u hu
    · by_cases hc : s.current = t
      · subst hc
        simp
      · simpa [hc] using h.current
  · exact h

theorem Inv.changePriority (h : Inv s) {p : Nat} (hp : p < 32) : Inv (s.changePriority t p) := by
  unfold Sched.changePriority
  split
  · next hr =>
    have hq := h.queues.remove (t := t)
    have hc := h.ready_ne hr
    have hset := hq.set (f := fun c => { c with currentPriority := p }) hq.not_mem_out hp
      (fun u _ => Iff.rfl) (fun _ => rfl)
    refine ⟨hset.insert (by simpa using hc), fun u hu => ?_, ?_⟩
    · obtain ⟨n, hself⟩ := insertThread_tcb_self ((s.removeThread t).setTcb t fun c =>
        { c with currentPriority := p }) t
      simp only [insertThread_current, setTcb_current, removeThread_current] at hself ⊢
      by_cases hut : u = t
      · subst hut
        rw [hself] at hu
        simp [hc] at hu
      · rw [insertThread_tcb_of_ne _ _ hut, setTcb_of_ne hut, removeThread_tcb] at hu
        exact h.running u hu
    · rw [insertThread_current, setTcb_current, removeThread_current,
        insertThread_tcb_of_ne _ _ (Ne.symm hc), setTcb_of_ne (Ne.symm hc), removeThread_tcb]
      exact h.current
  · next hr =>
    have hn := h.queues.not_mem_of_stat hr
    refine ⟨h.queues.set hn hp (fun u _ => Iff.rfl) (fun hr' => absurd hr' hr), fun u hu => ?_, ?_⟩
    · by_cases hut : u = t
      · subst hut
        exact h.running u (by simpa using hu)
      · rw [setTcb_of_ne hut] at hu
        exact h.running u hu
    · by_cases hc : s.current = t
      · subst hc
        simpa using h.current
      · simpa [hc] using h.current

/-- The thread that runs stays the one with the status of a running thread. -/
theorem Inv.setCurrent (h : Inv s) (hs : (f (s.tcb s.current)).stat = (s.tcb s.current).stat)
    (hp : (f (s.tcb s.current)).currentPriority = (s.tcb s.current).currentPriority) :
    Inv (s.setTcb s.current f) := by
  have hr : (s.tcb s.current).stat ≠ .ready := fun hr => h.ready_ne hr rfl
  refine ⟨h.queues.set (h.queues.not_mem_of_stat hr) (hp ▸ h.queues.bound _) (fun u _ => Iff.rfl)
    (fun hf => absurd (hs ▸ hf) hr), fun u hu => ?_, by simpa [hs] using h.current⟩
  by_cases hu' : u = s.current
  · exact hu'
  · rw [setTcb_of_ne hu'] at hu
    exact h.running u hu

omit [DecidableEq τ] in
/-- The head of the highest queue that is not empty. -/
theorem Inv.highestPriorityThread (h : Inv s) (hg : s.group ≠ 0) :
    ∃ p t l, s.highestPriorityThread = some (p, t) ∧ s.table p = t :: l ∧
      ∀ q < p, s.table q = [] := by
  obtain ⟨p, hp, hffs, hbit, hlow⟩ := ffs_spec hg
  obtain ⟨t, l, htl⟩ := List.exists_cons_of_ne_nil ((h.queues.group p).1 hbit)
  refine ⟨p, t, l, by simp [Sched.highestPriorityThread, hffs, htl], htl, fun q hq => ?_⟩
  have := hlow q hq
  rw [← Bool.not_eq_true, h.queues.group] at this
  simpa using this

/-- `rt_schedule` goes over to another thread, which has been ready, from one that goes back to
the ready queue, or has suspended itself. -/
theorem Inv.switchTo (h : Inv s) (ht : (s.tcb t).stat = .ready) {b : Bool}
    (hb : b = true ↔ (s.tcb s.current).stat = .running) :
    Inv (s.switchTo t b) ∧ ((s.switchTo t b).tcb t).stat = .running := by
  have hne := h.ready_ne ht
  obtain ⟨s₁, hs₁⟩ : ∃ s₁, s₁ = (if b then { s with current := t }.insertThread s.current
    else { s with current := t } : Sched τ) := ⟨_, rfl⟩
  have hq : Queues s₁ none ∧ (s₁.tcb t).stat = .ready ∧ s₁.current = t ∧
      ∀ u, (s₁.tcb u).stat ≠ .running := by
    rw [hs₁]
    cases b with
    | true =>
      have hrun := hb.1 rfl
      have hout : Queues { s with current := t } (some s.current) := by
        refine { h.queues with mem := fun p u => (h.queues.mem p u).trans ?_ }
        refine and_congr_right fun hr => and_congr_right fun _ => ?_
        simp [h.ready_ne hr]
      have hins := hout.insert (Ne.symm hne)
      obtain ⟨n, hself⟩ := insertThread_tcb_self { s with current := t } s.current
      refine ⟨hins, ?_, insertThread_current _ _, fun u hu => ?_⟩
      · simpa only [if_true, insertThread_tcb_of_ne _ _ hne] using ht
      · by_cases hu' : u = s.current
        · subst hu'
          simp only [if_true] at hu
          rw [hself] at hu
          simp [Ne.symm hne] at hu
        · simp only [if_true, insertThread_tcb_of_ne _ _ hu'] at hu
          exact hu' (h.running u hu)
    | false =>
      have hrun : (s.tcb s.current).stat ≠ .running := fun hr => by simpa using hb.2 hr
      refine ⟨{ h.queues with }, ht, rfl, fun u hu => hrun ?_⟩
      obtain rfl := h.running u hu
      exact hu
  obtain ⟨hq, htr, hcur, hno⟩ := hq
  have hrem := hq.remove (t := t)
  have heq : s.switchTo t b =
      (s₁.removeThread t).setTcb t fun c => { c with stat := .running } := by
    rw [hs₁]
    rfl
  rw [heq]
  refine ⟨⟨hrem.set hrem.not_mem_out (by simpa using hq.bound t) (fun u hu => by simp [hu])
    (by simp), fun u hu => ?_, .inl (by simp [hcur])⟩, by simp⟩
  by_cases hut : u = t
  · simp [hcur, hut]
  · rw [setTcb_of_ne hut, removeThread_tcb] at hu
    exact absurd hu (hno u)

section
variable (s t) (b : Bool)

theorem switchTo_current : (s.switchTo t b).current = t := by
  cases b <;> simp [Sched.switchTo]

theorem switchTo_lockNest : (s.switchTo t b).lockNest = s.lockNest := by
  cases b <;> simp [Sched.switchTo]

theorem insertThread_clock : s.clock ≤ (s.insertThread t).clock := by
  by_cases h : t = s.current
  · rw [insertThread_self h]
    exact Nat.le_refl _
  · rw [insertThread_eq h]
    exact Nat.le_succ _

theorem switchTo_clock : s.clock ≤ (s.switchTo t b).clock := by
  cases b with
  | true => simpa [Sched.switchTo] using insertThread_clock { s with current := t } s.current
  | false => simp [Sched.switchTo]

theorem switchTo_tcb_of_ne (hu : u ≠ t) (h : u ≠ s.current ∨ b = false) :
    (s.switchTo t b).tcb u = s.tcb u := by
  cases b with
  | true =>
    have hc := h.resolve_right (by decide)
    simp [Sched.switchTo, hu, insertThread_tcb_of_ne _ _ hc]
  | false => simp [Sched.switchTo, hu]

/-- The thread that had the processor goes to the ready queue. -/
theorem switchTo_tcb_current (h : t ≠ s.current) : ∃ n, (s.switchTo t true).tcb s.current =
    { s.tcb s.current with stat := .ready, stamp := n } := by
  obtain ⟨n, hn⟩ := insertThread_tcb_self { s with current := t } s.current
  refine ⟨n, ?_⟩
  simp only [Sched.switchTo, if_true, setTcb_of_ne (Ne.symm h), removeThread_tcb, hn]
  rw [if_neg (Ne.symm h)]

theorem switchTo_tcb_self (h : t ≠ s.current) :
    (s.switchTo t b).tcb t = { s.tcb t with stat := .running } := by
  cases b with
  | true => simp [Sched.switchTo, insertThread_tcb_of_ne { s with current := t } _ h]
  | false => simp [Sched.switchTo]

end

/-- What `rt_schedule` does to `s`. -/
structure Scheduled (s s' : Sched τ) : Prop where
  inv : Inv s'
  lockNest : s'.lockNest = s.lockNest
  clock : s.clock ≤ s'.clock
  prio : ∀ u, (s'.tcb u).currentPriority = (s.tcb u).currentPriority
  stat : ∀ u, (s.tcb u).stat = (s'.tcb u).stat ∨
    (s.tcb u).stat = .ready ∧ (s'.tcb u).stat = .running ∨
    (s.tcb u).stat = .running ∧ (s'.tcb u).stat = .ready
  suspended : ∀ u, (s.tcb u).stat = .suspend → s'.tcb u = s.tcb u
  blocked : (s'.tcb s'.current).stat = .suspend → s' = s
  highest : s.lockNest = 0 → ((s.tcb s.current).stat = .suspend → s.group ≠ 0) → Highest s'

/-- The thread that `rt_schedule` goes over to is the first one of the highest queue. The running
thread leaves the processor to a thread of higher priority, or of the same one when its time slice
is over. -/
def Next (s s' : Sched τ) : Prop :=
  s'.current ≠ s.current → ∃ p l, s.table p = s'.current :: l ∧ (∀ q < p, s.table q = []) ∧
    ((s.tcb s.current).stat = .running → p < (s.tcb s.current).currentPriority ∨
      p = (s.tcb s.current).currentPriority ∧ (s.tcb s.current).yielded = true)

/-- `rt_schedule_remove_thread` of a thread that no queue holds. -/
theorem Queues.removeThread_of_not_mem {out : Option τ} (h : Queues s out)
    (hn : ∀ p, t ∉ s.table p) : s.removeThread t = s := by
  have htab : Function.update s.table (s.tcb t).currentPriority
      ((s.table (s.tcb t).currentPriority).erase t) = s.table := by
    rw [List.erase_of_not_mem (hn _), Function.update_eq_self]
  unfold Sched.removeThread
  simp only [htab]
  split
  · next hnil =>
    have hgroup : s.group &&& ~~~(s.tcb t).numberMask = s.group := by
      refine BitVec.eq_of_getLsbD_eq fun q hq => ?_
      rw [BitVec.getLsbD_and, BitVec.getLsbD_not, getLsbD_numberMask (h.bound t) q]
      by_cases hp : q = (s.tcb t).currentPriority
      · have hbit : s.group.getLsbD q = false := by
          rw [← Bool.not_eq_true, h.group, hp]
          simpa using hnil
        simp [hbit]
      · simp [hp, hq]
    rw [hgroup]
  · rfl

/-- `rt_schedule` goes on with the running thread. -/
theorem Inv.stay (h : Inv s) (hr : (s.tcb s.current).stat = .running) :
    (s.removeThread s.current).setTcb s.current (fun c => { c with stat := .running }) = s := by
  have htcb :
      Function.update s.tcb s.current { s.tcb s.current with stat := .running } = s.tcb := by
    rw [← hr]
    exact Function.update_eq_self _ _
  rw [h.queues.removeThread_of_not_mem (h.queues.not_mem_of_stat (by rw [hr]; decide)), setTcb,
    htcb]

/-- `rt_schedule` goes over to the head `t` of the highest queue. -/
theorem Inv.scheduled (h : Inv s) {p : Nat} {l : List τ} (ht : s.table p = t :: l)
    (hlow : ∀ q < p, s.table q = []) {b : Bool}
    (hb : b = true ↔ (s.tcb s.current).stat = .running)
    (hrun : b = true → p ≤ (s.tcb s.current).currentPriority) : Scheduled s (s.switchTo t b) := by
  obtain ⟨htr, htp, -⟩ := (h.queues.mem p t).1 (by simp [ht])
  have hne := h.ready_ne htr
  obtain ⟨hinv, hrun'⟩ := h.switchTo htr hb
  have hself := switchTo_tcb_self s t b hne
  -- the threads other than `t`: all but the one that had the processor keep what they have
  have hother : ∀ u, u ≠ t → (s.switchTo t b).tcb u = s.tcb u ∨ u = s.current ∧ b = true ∧
      ∃ n, (s.switchTo t b).tcb u = { s.tcb u with stat := .ready, stamp := n } := by
    intro u hu
    by_cases hc : u = s.current ∧ b = true
    · obtain ⟨rfl, rfl⟩ := hc
      exact .inr ⟨rfl, rfl, switchTo_tcb_current s t hne⟩
    · refine .inl (switchTo_tcb_of_ne s t b hu ?_)
      by_cases hc' : u = s.current
      · exact .inr (by simpa using fun hbt => hc ⟨hc', hbt⟩)
      · exact .inl hc'
  refine ⟨hinv, switchTo_lockNest s t b, switchTo_clock s t b, fun u => ?_, fun u => ?_,
    fun u hu => ?_, fun hs => ?_, fun _ _ => ⟨?_, fun q hq => ?_⟩⟩
  · by_cases hu : u = t
    · subst hu
      rw [hself]
    · obtain he | ⟨-, -, n, he⟩ := hother u hu <;> rw [he]
  · by_cases hu : u = t
    · subst hu
      exact .inr (.inl ⟨htr, by rw [hself]⟩)
    · obtain he | ⟨rfl, hbt, n, he⟩ := hother u hu
      · exact .inl (by rw [he])
      · exact .inr (.inr ⟨hb.1 hbt, by rw [he]⟩)
  · have hut : u ≠ t := by
      rintro rfl
      rw [htr] at hu
      cases hu
    obtain he | ⟨rfl, hbt, -⟩ := hother u hut
    · exact he
    · rw [hb.1 hbt] at hu
      cases hu
  · rw [switchTo_current, hrun'] at hs
    cases hs
  · rw [switchTo_current, hself]
  · rw [switchTo_current, hself]
    obtain ⟨u, l', hul⟩ := List.exists_cons_of_ne_nil hq
    obtain ⟨hur, huq, -⟩ := (hinv.queues.mem q u).1 (by simp [hul])
    have hut : u ≠ t := by
      rintro rfl
      rw [hself] at hur
      cases hur
    refine htp.trans_le ?_
    obtain he | ⟨rfl, hbt, n, he⟩ := hother u hut
    · rw [he] at hur huq
      by_contra hlt
      have hm := (h.queues.mem q u).2 ⟨hur, huq, by simp⟩
      rw [hlow q (by omega)] at hm
      cases hm
    · rw [he] at huq
      exact huq ▸ hrun hbt

/-- The mark of a running thread whose time slice is over is wiped. -/
theorem Scheduled.of_wiped (hr : (s.tcb s.current).stat = .running)
    (h : Scheduled (s.setTcb s.current fun c => { c with yielded := false }) s') :
    Scheduled s s' := by
  have hstat : ∀ u,
      ((s.setTcb s.current fun c => { c with yielded := false }).tcb u).stat = (s.tcb u).stat ∧
      ((s.setTcb s.current fun c => { c with yielded := false }).tcb u).currentPriority =
        (s.tcb u).currentPriority := by
    intro u
    by_cases hu : u = s.current
    · subst hu
      simp
    · simp [hu]
  refine ⟨h.inv, h.lockNest, h.clock, fun u => (h.prio u).trans (hstat u).2, fun u => ?_,
    fun u hu => ?_, fun hs => ?_, fun hl hc => h.highest hl fun hs => ?_⟩
  · rw [← (hstat u).1]
    exact h.stat u
  · have hne : u ≠ s.current := by
      rintro rfl
      rw [hr] at hu
      cases hu
    rw [h.suspended u ((hstat u).1.trans hu), setTcb_of_ne hne]
  · have hs' := h.blocked hs
    rw [hs', setTcb_current, (hstat _).1, hr] at hs
    cases hs
  · rw [setTcb_current, (hstat _).1, hr] at hs
    cases hs

omit [DecidableEq τ] in
theorem Scheduled.refl (h : Inv s)
    (hh : s.lockNest = 0 → ((s.tcb s.current).stat = .suspend → s.group ≠ 0) → Highest s) :
    Scheduled s s :=
  ⟨h, rfl, Nat.le_refl _, fun _ => rfl, fun _ => .inl rfl, fun _ _ => rfl, fun _ => rfl, hh⟩

/-- **`rt_schedule`** always finds a thread. -/
theorem Inv.schedule (h : Inv s) : ∃ s', s.schedule = some s' ∧ Scheduled s s' ∧ Next s s' := by
  unfold Sched.schedule
  split
  · next hg =>
    obtain ⟨p, t, l, hp, ht, hlow⟩ := h.highestPriorityThread hg.2
    have htr := ((h.queues.mem p t).1 (by simp [ht])).1
    have hne := h.ready_ne htr
    rw [hp]
    refine ⟨_, rfl, ?_⟩
    dsimp only
    obtain hr | hs := h.current
    · have hw := h.setCurrent (f := fun c => { c with yielded := false }) rfl rfl
      rw [if_pos hr]
      by_cases hstay : (s.tcb s.current).currentPriority < p ∨
          (s.tcb s.current).currentPriority = p ∧ (s.tcb s.current).yielded = false
      · have hcho : s.choose p t = (s.current, false) := by
          unfold choose
          rw [if_pos hr]
          obtain hlt | heq := hstay
          · rw [if_pos hlt]
          · rw [if_neg (by omega), if_pos heq]
        have hcur := hw.stay (by simpa using hr)
        rw [setTcb_current] at hcur
        simp only [hcho, ne_eq, setTcb_current, not_true_eq_false, if_false, hcur]
        refine ⟨.of_wiped hr (.refl hw fun _ _ => ⟨by simpa using hr, fun q hq => ?_⟩),
          fun hc => absurd rfl hc⟩
        have hpq : p ≤ q := by
          by_contra hlt
          exact hq (hlow q (by omega))
        simp only [setTcb_current, setTcb_self]
        omega
      · have hcho : s.choose p t = (t, true) := by
          unfold choose
          rw [if_pos hr, if_neg fun hlt => hstay (.inl hlt), if_neg fun heq => hstay (.inr heq)]
        simp only [hcho, ne_eq, setTcb_current, hne, not_false_eq_true, if_true]
        refine ⟨.of_wiped hr (hw.scheduled ht hlow (by simpa using hr) fun _ => ?_), fun _ => ?_⟩
        · simp only [setTcb_current, setTcb_self]
          omega
        · rw [switchTo_current]
          refine ⟨p, l, ht, hlow, fun _ => ?_⟩
          obtain ⟨hle, hy⟩ := not_or.1 hstay
          obtain hlt | heq := Nat.lt_or_eq_of_le (Nat.le_of_not_lt hle)
          · exact .inl hlt
          · exact .inr ⟨heq, by simpa [heq] using hy⟩
    · have hb : (s.tcb s.current).stat ≠ .running := by rw [hs]; decide
      simp only [choose, if_neg hb, ne_eq, hne, not_false_eq_true, if_true]
      refine ⟨h.scheduled ht hlow (by simp [hb]) (by simp), fun _ => ?_⟩
      rw [switchTo_current]
      exact ⟨p, l, ht, hlow, fun hr => absurd hr hb⟩
  · next hg =>
    refine ⟨s, rfl, .refl h fun hl hc => ?_, fun hc => absurd rfl hc⟩
    have hzero : s.group = 0 := by
      by_contra hne
      exact hg ⟨hl, hne⟩
    refine ⟨h.current.resolve_right fun hs => hc hs hzero, fun p hp => ?_⟩
    have := (h.queues.group p).2 hp
    simp [hzero] at this

/-- The scheduler starts in order, with the thread that runs first. -/
theorem inv_boot {priority initTick : τ → Nat} {main idle : τ} (hp : ∀ t, priority t < 32)
    (hne : main ≠ idle) : Inv (boot priority initTick main idle) ∧
      (boot priority initTick main idle).current = main ∧
      (boot priority initTick main idle).lockNest = 0 ∧
      (∀ t, ((boot priority initTick main idle).tcb t).stat =
        if t = idle then .ready else if t = main then .running else .init) ∧
      Highest (boot priority initTick main idle) := by
  obtain ⟨s₀, hs₀⟩ : ∃ s₀ : Sched τ, s₀ =
      { tcb := fun t =>
          { currentPriority := if t = idle then threadPriorityMax - 1 else priority t
            initTick := initTick t
            remainingTick := initTick t }
        current := main } := ⟨_, rfl⟩
  have hbound : ∀ t, (s₀.tcb t).currentPriority < 32 := fun t => by
    rw [hs₀]
    dsimp only
    split
    · decide
    · exact hp t
  have hq : Queues (s₀.setTcb main fun c => { c with stat := .running }) (some idle) := by
    refine ⟨fun p => ?_, fun p t => ?_, fun p => ?_, fun p t ht => ?_, fun t => ?_⟩
    · simp [hs₀]
    · rw [hs₀]
      by_cases ht : t = main
      · subst ht
        simp
      · simp [ht]
    · simp [hs₀]
    · simp [hs₀] at ht
    · by_cases ht : t = main
      · subst ht
        simpa using hbound t
      · simpa [ht] using hbound t
  have hboot : boot priority initTick main idle =
      (s₀.setTcb main fun c => { c with stat := .running }).insertThread idle := by
    rw [hs₀]
    rfl
  have hcur : (s₀.setTcb main fun c => { c with stat := .running }).current = main := by
    rw [hs₀]
    rfl
  have hins := hq.insert (by rw [hcur]; exact Ne.symm hne)
  obtain ⟨n, hidle⟩ := insertThread_tcb_self (s₀.setTcb main fun c => { c with stat := .running })
    idle
  rw [hcur, if_neg (Ne.symm hne)] at hidle
  have hstat : ∀ t, ((boot priority initTick main idle).tcb t).stat =
      if t = idle then .ready else if t = main then .running else .init := by
    intro t
    rw [hboot]
    by_cases ht : t = idle
    · subst ht
      simp [hidle]
    · rw [insertThread_tcb_of_ne _ _ ht, if_neg ht]
      by_cases htm : t = main
      · subst htm
        simp
      · simp [htm, hs₀]
  have hmain : (boot priority initTick main idle).current = main := by
    rw [hboot, insertThread_current, hcur]
  have hrun : ((boot priority initTick main idle).tcb main).stat = .running := by
    rw [hstat, if_neg hne, if_pos rfl]
  rw [← hboot] at hins
  refine ⟨⟨hins, fun t ht => ?_, .inl (by rw [hmain]; exact hrun)⟩, hmain, ?_, hstat,
    ⟨by rw [hmain]; exact hrun, fun p hp' => ?_⟩⟩
  · rw [hstat] at ht
    rw [hmain]
    split at ht
    · cases ht
    · split at ht
      · next htm => exact htm
      · cases ht
  · rw [hboot, insertThread_lockNest, hs₀]
    rfl
  · -- only the idle thread is ready, at the lowest priority
    obtain ⟨t, l, htl⟩ := List.exists_cons_of_ne_nil hp'
    obtain ⟨htr, htp, -⟩ := (hins.mem p t).1 (by simp [htl])
    have hti : t = idle := by
      rw [hstat] at htr
      split at htr
      · next h => exact h
      · split at htr <;> cases htr
    have hp31 : p = 31 := by
      rw [← htp, hti, hboot, hidle]
      simp [hs₀, Ne.symm hne]
    have := hins.bound (boot priority initTick main idle).current
    omega

end Sched

end Rtos
