import Mathlib.Algebra.BigOperators.Group.Finset.Basic
import Mathlib.Data.Fintype.Basic
import SpsiMaster.Rtos.Proof.KernelRuns

/-!
# The semaphores and mutexes of the application

`Rtos/Ipc.lean` has a semaphore as a value and a mutex as its owner and its count, with no threads
that wait: a token that `rt_sem_release` hands over stays in the value until the call that has
waited for it returns. The kernel refines these, by way of the objects of `Rtos/Objects.lean`
(`kernel_refines_values`), and they tell which calls get what they ask for (`values_answer`).
-/

namespace Rtos

/-- The calls on semaphores and mutexes by their effect: `rt_sem_release`, `rt_sem_take` that
returns `RT_EOK`, `rt_sem_control` with what is then in the semaphore, `rt_mutex_take` that returns
`RT_EOK`, `rt_mutex_release` by the owner. -/
inductive ValueCall (τ ι : Type) where
  | release (i : ι)
  | take (i : ι)
  | reset (i : ι) (value : Nat)
  | lock (t : τ) (i : ι)
  | unlock (t : τ) (i : ι)
  deriving DecidableEq

/-- The semaphores and mutexes of `Rtos/Ipc.lean`. -/
@[ext] structure Values (τ ι : Type) where
  sem : ι → Nat
  mutex : ι → Mutex τ := fun _ => {}

namespace Values

variable {τ ι : Type} [DecidableEq τ] [DecidableEq ι]

def step : Run.Step (Values τ ι) (ValueCall τ ι)
  | v, .release i => some { v with sem := Function.update v.sem i (semRelease (v.sem i)) }
  | v, .take i => (semTake (v.sem i)).map fun n => { v with sem := Function.update v.sem i n }
  | v, .reset i n => some { v with sem := Function.update v.sem i n }
  | v, .lock t i =>
    if ((v.mutex i).trytake t).1 then
      some { v with mutex := Function.update v.mutex i ((v.mutex i).trytake t).2 }
    else none
  | v, .unlock t i => some { v with mutex := Function.update v.mutex i ((v.mutex i).release t) }

theorem exec_take {v : Values τ ι} {i : ι} {n : Nat} (h : v.sem i = n + 1) :
    Run.exec step v [.take i] = some { v with sem := Function.update v.sem i n } := by
  simp [Run.exec, step, semTake_eq_some.2 h]

end Values

/-! ## The values of the objects -/

namespace Objects

variable {τ ι : Type} [DecidableEq τ] [DecidableEq ι] {s s' : Objects τ ι} {t : τ} {i : ι}

/-- The mutex of an owner and a count. -/
def mutexOf : Option (τ × Nat) → Mutex τ
  | some (u, n) => { owner := some u, hold := n }
  | none => {}

variable [Fintype τ]

/-- The threads that have got a token and whose call has yet to return. -/
def granted (s : Objects τ ι) (i : ι) : Nat :=
  ∑ t, if s.status t = .answered (.sem i) .eok then 1 else 0

/-- What the application sees of the objects. -/
def values (s : Objects τ ι) : Values τ ι where
  sem i := s.tokens i + s.granted i
  mutex i := mutexOf (s.owner i)

/-- No semaphore has more tokens than its counter can tell, those included that threads have got
and have yet to return with. -/
def Within (s : Objects τ ι) : Prop := ∀ i, s.values.sem i ≤ semValueMax

instance [Fintype ι] (s : Objects τ ι) : Decidable s.Within := inferInstanceAs (Decidable (∀ _, _))

/-- The calls that have their effect. -/
def valueCalls (s : Objects τ ι) : KernelEvent τ ι → List (ValueCall τ ι)
  | .give i => [.release i]
  | .take t i => if s.status t = .active then [.take i] else []
  | .ret _ o e =>
    match o with
    | .sem i => if e = .eok then [.take i] else []
    | _ => []
  | .setValue i value => [.reset i (value + s.granted i)]
  | .lock t i => [.lock t i]
  | .unlock t i => [.unlock t i]
  | _ => []

theorem granted_setStatus (t : τ) (c : Status ι) (i : ι) :
    (s.setStatus t c).granted i + (if s.status t = .answered (.sem i) .eok then 1 else 0) =
      s.granted i + if c = .answered (.sem i) .eok then 1 else 0 := by
  have hrest : ∑ u ∈ Finset.univ.erase t,
        (if (s.setStatus t c).status u = .answered (.sem i) .eok then 1 else 0) =
      ∑ u ∈ Finset.univ.erase t, if s.status u = .answered (.sem i) .eok then 1 else 0 := by
    refine Finset.sum_congr rfl fun u hu => ?_
    have hu' : (s.setStatus t c).status u = s.status u :=
      Function.update_of_ne (Finset.ne_of_mem_erase hu) _ _
    rw [hu']
  rw [granted, granted, ← Finset.add_sum_erase _ _ (Finset.mem_univ t), hrest,
    ← Finset.add_sum_erase _ (fun u => if s.status u = .answered (.sem i) .eok then 1 else 0)
      (Finset.mem_univ t)]
  have hself : (s.setStatus t c).status t = c := Function.update_self _ _ _
  rw [hself]
  omega

/-- A change of what a thread is at that is no matter of tokens. -/
theorem granted_of_ne {c : Status ι} (hs : ∀ j, s.status t ≠ .answered (.sem j) .eok)
    (hc : ∀ j, c ≠ .answered (.sem j) .eok) : (s.setStatus t c).granted = s.granted := by
  funext i
  have h := granted_setStatus (s := s) t c i
  rw [if_neg (hs i), if_neg (hc i)] at h
  exact h

/-- A thread that gets a mutex or bits gets no token. -/
theorem granted_grant {o : IpcObj ι} (ha : s.Asks t o) (ho : ∀ j, o ≠ .sem j) :
    (s.grant t o).granted = s.granted := by
  obtain ha | hw := ha
  · rw [grant_active ha]
  · rw [grant_waiting hw]
    refine granted_of_ne (fun j hj => ?_) fun j hj => ?_
    · rw [hw] at hj
      cases hj
    · cases hj
      exact ho j rfl

omit [DecidableEq τ] in
theorem values_same (ht : s'.tokens = s.tokens) (hg : s'.granted = s.granted)
    (ho : s'.owner = s.owner) : s'.values = s.values := by
  unfold values
  rw [ht, hg, ho]

omit [DecidableEq τ] in
theorem values_tokens {n : Nat} (ht : s'.tokens = Function.update s.tokens i n)
    (hg : s'.granted = s.granted) (ho : s'.owner = s.owner) :
    s'.values = { s.values with sem := Function.update s.values.sem i (n + s.granted i) } := by
  unfold values
  rw [ht, hg, ho]
  refine Values.ext (funext fun j => ?_) rfl
  by_cases hj : j = i
  · subst hj
    simp
  · simp [hj]

omit [DecidableEq τ] in
theorem values_owner {v : Option (τ × Nat)} (ht : s'.tokens = s.tokens)
    (hg : s'.granted = s.granted) (ho : s'.owner = Function.update s.owner i v) :
    s'.values = { s.values with mutex := Function.update s.values.mutex i (mutexOf v) } := by
  unfold values
  rw [ht, hg, ho]
  refine Values.ext rfl (funext fun j => ?_)
  by_cases hj : j = i
  · subst hj
    simp
  · simp [hj]

/-- A thread that has waited for a token gets it: the value stays until its call returns. -/
theorem values_handOver (hw : s.status t = .waiting (.sem i)) (hpos : 0 < s.tokens i)
    (ht : s'.tokens = Function.update s.tokens i (s.tokens i - 1))
    (hs : s'.status = (s.grant t (.sem i)).status) (ho : s'.owner = s.owner) :
    s'.values = s.values := by
  have hg : ∀ j, s'.granted j = s.granted j + if i = j then 1 else 0 := fun j => by
    have h := granted_setStatus (s := s) t (.answered (.sem i) .eok) j
    rw [← grant_waiting hw, if_neg (by rw [hw]; exact fun hc => by cases hc)] at h
    have hsame : s'.granted j = (s.grant t (.sem i)).granted j := by rw [granted, granted, hs]
    rw [hsame]
    by_cases hij : i = j
    · simpa [hij] using h
    · simpa [hij] using h
  refine Values.ext (funext fun j => ?_) ?_
  · change s'.tokens j + s'.granted j = s.tokens j + s.granted j
    rw [ht, hg]
    by_cases hij : i = j
    · subst hij
      simp only [Function.update_self, if_true]
      omega
    · simp [hij, Ne.symm hij]
  · change (fun j => mutexOf (s'.owner j)) = _
    rw [ho]
    rfl

/-- The call returns with the token. -/
theorem values_return (ha : s.status t = .answered (.sem i) .eok) :
    s.values.sem i = (s.setStatus t .active).values.sem i + 1 ∧
      (s.setStatus t .active).values = { s.values with
        sem := Function.update s.values.sem i ((s.setStatus t .active).values.sem i) } := by
  have hg : ∀ j, (s.setStatus t .active).granted j + (if i = j then 1 else 0) = s.granted j :=
    fun j => by
      have h := granted_setStatus (s := s) t .active j
      rw [ha] at h
      by_cases hij : i = j
      · simpa [hij] using h
      · simpa [hij] using h
  refine ⟨?_, Values.ext (funext fun j => ?_) rfl⟩
  · have h := hg i
    rw [if_pos rfl] at h
    change s.tokens i + s.granted i = s.tokens i + (s.setStatus t .active).granted i + 1
    omega
  · by_cases hij : j = i
    · subst hij
      simp
    · have h := hg j
      rw [if_neg (Ne.symm hij)] at h
      simp only [Function.update_of_ne hij]
      exact congrArg (s.tokens j + ·) h

/-- What is done to the objects is a call on the values. -/
theorem values_step {e : KernelEvent τ ι} (h : step s e = some s') (hw : s'.Within) :
    Run.exec Values.step s.values (s.valueCalls e) = some s'.values := by
  cases e with
  | give i =>
    simp only [step] at h
    split at h
    · have hs := Option.some.inj h
      have hval : s'.values = { s.values with
          sem := Function.update s.values.sem i (s.tokens i + 1 + s.granted i) } :=
        values_tokens (hs ▸ rfl) (hs ▸ rfl) (hs ▸ rfl)
      have hmax := hw i
      rw [hval] at hmax ⊢
      simp only [Function.update_self] at hmax
      have hsem : semRelease (s.values.sem i) = s.tokens i + 1 + s.granted i := by
        change semRelease (s.tokens i + s.granted i) = _
        rw [semRelease, if_pos (by omega)]
        omega
      rw [← hsem]
      rfl
    · cases h
  | take t i =>
    simp only [step] at h
    split at h
    · next hg =>
      have hs := Option.some.inj h
      obtain ⟨hpos, ha | hwait⟩ := hg
      · rw [grant_active ha] at hs
        have hval : s'.values = { s.values with
            sem := Function.update s.values.sem i (s.tokens i - 1 + s.granted i) } :=
          values_tokens (hs ▸ rfl) (hs ▸ rfl) (hs ▸ rfl)
        rw [valueCalls, if_pos ha, hval]
        refine Values.exec_take ?_
        change s.tokens i + s.granted i = _
        omega
      · have hval : s'.values = s.values := values_handOver hwait hpos (hs ▸ rfl) (hs ▸ rfl)
          (by rw [← hs]; exact (grant_rest t _).2.1)
        rw [valueCalls, if_neg (by rw [hwait]; exact fun hc => by cases hc), hval]
        rfl
    · cases h
  | setValue i value =>
    have hs := Option.some.inj h
    have hval : s'.values = { s.values with
        sem := Function.update s.values.sem i (value + s.granted i) } :=
      values_tokens (hs ▸ rfl) (hs ▸ rfl) (hs ▸ rfl)
    rw [hval]
    rfl
  | wait t o =>
    simp only [step] at h
    split at h
    · next hg =>
      have hs := Option.some.inj h
      have hgr := granted_of_ne (s := s) (t := t) (c := .waiting o)
        (fun j hj => by rw [hg.1] at hj; cases hj) fun j hj => by cases hj
      have hval : s'.values = s.values := values_same (hs ▸ rfl) (hs ▸ hgr) (hs ▸ rfl)
      rw [hval]
      rfl
    · cases h
  | wake t o e =>
    simp only [step] at h
    split at h
    · next hg =>
      have hs := Option.some.inj h
      have hgr := granted_of_ne (s := s) (t := t) (c := .answered o e)
        (fun j hj => by rw [hg.1] at hj; cases hj) fun j hj => by cases hj; exact hg.2 rfl
      have hval : s'.values = s.values := values_same (hs ▸ rfl) (hs ▸ hgr) (hs ▸ rfl)
      rw [hval]
      rfl
    · cases h
  | ret t o e =>
    simp only [step] at h
    split at h
    · next ha =>
      have hs := Option.some.inj h
      have hsame : (∀ j, o = .sem j → e ≠ .eok) → s'.values = s.values := fun hne => by
        have hgr := granted_of_ne (s := s) (t := t) (c := .active)
          (fun j hj => by
            rw [ha] at hj
            cases hj
            exact hne j rfl rfl) fun j hj => by cases hj
        exact values_same (hs ▸ rfl) (hs ▸ hgr) (hs ▸ rfl)
      cases o with
      | sem i =>
        by_cases he : e = .eok
        · subst he
          obtain ⟨hsem, hval⟩ := values_return ha
          rw [hs] at hsem hval
          rw [valueCalls, if_pos rfl, hval]
          exact Values.exec_take hsem
        · rw [valueCalls, if_neg he, hsame fun _ _ => he]
          rfl
      | mutex i =>
        rw [hsame fun j hj => by cases hj]
        rfl
      | event i =>
        rw [hsame fun j hj => by cases hj]
        rfl
    · cases h
  | lock t i =>
    simp only [step] at h
    split at h
    · next hnone =>
      split at h
      · next ha =>
        have hs := Option.some.inj h
        have hval : s'.values = { s.values with
            mutex := Function.update s.values.mutex i (mutexOf (some (t, 1))) } :=
          values_owner (by rw [← hs]; exact (grant_rest t _).1)
            (hs ▸ granted_grant ha fun j hj => by cases hj) (hs ▸ rfl)
        have htry : (s.values.mutex i).trytake t = (true, mutexOf (some (t, 1))) := by
          change (mutexOf (s.owner i)).trytake t = _
          rw [hnone]
          rfl
        rw [hval]
        simp [valueCalls, Run.exec, Values.step, htry]
      · cases h
    · next u n hsome =>
      split at h
      · next hg =>
        obtain ⟨rfl, -, hn⟩ := hg
        have hs := Option.some.inj h
        have hval : s'.values = { s.values with
            mutex := Function.update s.values.mutex i (mutexOf (some (u, n + 1))) } :=
          values_owner (hs ▸ rfl) (hs ▸ rfl) (hs ▸ rfl)
        have htry : (s.values.mutex i).trytake u = (true, mutexOf (some (u, n + 1))) := by
          change (mutexOf (s.owner i)).trytake u = _
          rw [hsome]
          simp [mutexOf, Mutex.trytake, hn]
        rw [hval]
        simp [valueCalls, Run.exec, Values.step, htry]
      · cases h
  | unlock t i =>
    simp only [step] at h
    split at h
    · next u n hsome =>
      split at h
      · next hg =>
        obtain ⟨rfl, -⟩ := hg
        have hs := Option.some.inj h
        have hrel : (s.values.mutex i).release u =
            mutexOf (if n = 0 then none else some (u, n)) := by
          change (mutexOf (s.owner i)).release u = _
          rw [hsome]
          by_cases hn : n = 0 <;> simp [mutexOf, Mutex.release, hn]
        have hval : s'.values = { s.values with
            mutex := Function.update s.values.mutex i
              (mutexOf (if n = 0 then none else some (u, n))) } :=
          values_owner (hs ▸ rfl) (hs ▸ rfl) (hs ▸ rfl)
        rw [hval, ← hrel]
        rfl
      · cases h
    · cases h
  | send i set =>
    have hs := Option.some.inj h
    have hval : s'.values = s.values := values_same (hs ▸ rfl) (hs ▸ rfl) (hs ▸ rfl)
    rw [hval]
    rfl
  | receive t i set clear =>
    simp only [step] at h
    split at h
    · next hg =>
      have hs := Option.some.inj h
      have hgr := granted_grant hg.2.2 fun j hj => by cases hj
      have hval : s'.values = s.values := values_same (by rw [← hs]; exact (grant_rest t _).1)
        (hs ▸ hgr) (by rw [← hs]; exact (grant_rest t _).2.1)
      rw [hval]
      rfl
    · cases h
  | clear i =>
    have hs := Option.some.inj h
    have hval : s'.values = s.values := values_same (hs ▸ rfl) (hs ▸ rfl) (hs ▸ rfl)
    rw [hval]
    rfl

/-- A run of the objects is one of the values. -/
theorem values_run {start : ι → Nat} {es : List (KernelEvent τ ι)}
    (hw : Run.Along step Within { tokens := start } es)
    (he : Run.exec step { tokens := start } es = some s) :
    Run.exec Values.step { sem := start }
      (Run.labels step valueCalls { tokens := start } es) = some s.values := by
  have hstart : ({ sem := start } : Values τ ι) =
      ({ tokens := start } : Objects τ ι).values := by
    refine Values.ext (funext fun i => ?_) rfl
    have hg : ({ tokens := start } : Objects τ ι).granted i = 0 :=
      Finset.sum_eq_zero fun u _ => rfl
    change start i = start i + _
    rw [hg]
    rfl
  obtain ⟨v, hv, rfl⟩ := Run.simulate (R := fun s v => v = s.values)
    (fun s e s' v hv _ hw' h => by
      subst hv
      exact ⟨s'.values, values_step h hw', rfl⟩) hstart hw he
  exact hv

end Objects

/-! ## The answers -/

namespace Kernel

variable {τ ι : Type} [DecidableEq τ] [DecidableEq ι] [Fintype τ] {k : Kernel τ ι} {idle : τ}

/-- The values tell what the calls will do: a thread that waits for a semaphore runs out of time,
`rt_sem_take` takes a token (as long as no other thread has yet to return with one), and
`rt_mutex_trytake` takes the mutex. -/
structure Answers (k : Kernel τ ι) : Prop where
  timeout : ∀ t i, (k.thread t).timer = true → (k.thread t).pc = .wait (.sem i) →
    k.objects.granted i = 0 → Rtos.semTake (k.objects.values.sem i) = none
  take : ∀ i time, k.objects.granted i = 0 →
    ((Rtos.semTake (k.objects.values.sem i)).isSome = true ↔
      (k.semTake i time).map Kernel.hist = some (.take k.self i :: k.hist))
  trytake : ∀ i k', k.mutexTake i 0 = some k' →
    (((k.objects.values.mutex i).trytake k.self).1 = true ↔
      k'.hist = .lock k.self i :: k.hist)

theorem values_sem {i : ι} (hg : k.objects.granted i = 0) : k.objects.values.sem i = k.sem i := by
  change k.sem i + k.objects.granted i = k.sem i
  omega

theorem semTake_answers {i : ι} (time : Int32) (hg : k.objects.granted i = 0) :
    (Rtos.semTake (k.objects.values.sem i)).isSome = true ↔
      (k.semTake i time).map Kernel.hist = some (.take k.self i :: k.hist) := by
  rw [values_sem hg]
  by_cases hpos : 0 < k.sem i
  · refine iff_of_true (by simp [Rtos.semTake, hpos]) ?_
    rw [Kernel.semTake, if_pos hpos]
    rfl
  · refine iff_of_false (by simp [Rtos.semTake, hpos]) fun hc => ?_
    obtain ⟨k', hk, hhist⟩ := Option.map_eq_some_iff.1 hc
    obtain ⟨hv, -⟩ | ⟨-, -, rfl⟩ | ⟨-, -, rfl⟩ := semTake_cases hk
    · exact hpos hv
    · exact List.cons_ne_self _ _ hhist.symm
    · simp [waitOn, ipcListSuspend, log] at hhist

theorem Sound.trytake_answers (h : Sound idle k) {i : ι} {k' : Kernel τ ι}
    (hk : k.mutexTake i 0 = some k') :
    ((k.objects.values.mutex i).trytake k.self).1 = true ↔ k'.hist = .lock k.self i :: k.hist := by
  have hval : k.objects.values.mutex i =
      Objects.mutexOf ((k.mutex i).owner.map fun u => (u, (k.mutex i).hold)) := rfl
  rw [hval]
  have hsame : ∀ e, ¬ k.hist = e :: k.hist := fun e hc => List.cons_ne_self _ _ hc.symm
  obtain ⟨ho, hh, rfl⟩ | ⟨ho, hh, rfl⟩ | ⟨-, hv, rfl⟩ | ⟨ho, hv, -, rfl⟩ | ⟨u, -, -, -, ht, -⟩ :=
    mutexTake_cases hk
  · refine iff_of_true ?_ rfl
    simp [ho, Objects.mutexOf, Mutex.trytake, hh]
  · refine iff_of_false ?_ (hsame _)
    simp [ho, Objects.mutexOf, Mutex.trytake, Nat.not_lt.2 hh]
  · obtain ⟨hnone, -, hz⟩ := (h.mutexes i).free hv
    refine iff_of_true ?_ ?_
    · simp [hnone, Objects.mutexOf, Mutex.trytake]
    · simp [mutexFirst, setThread, setMutex, log, hz, mutexHoldMax]
  · refine iff_of_false ?_ (hsame _)
    have hm := h.mutexes i
    cases hown : (k.mutex i).owner with
    | none =>
      rw [MutexOk, hown] at hm
      have hv' : (k.mutex i).value = 1 := hm.1
      omega
    | some u =>
      have hne : u ≠ k.self := fun hu => ho (by rw [hown, hu])
      simp [Objects.mutexOf, Mutex.trytake, hne]
  · exact absurd rfl ht

theorem Inv.timeout_answers (h : Inv idle k) (hq : Quiet k) {t : τ} {i : ι}
    (ht : (k.thread t).timer = true) (hp : (k.thread t).pc = .wait (.sem i))
    (hg : k.objects.granted i = 0) : Rtos.semTake (k.objects.values.sem i) = none := by
  have hz : k.sem i = 0 := hq (.sem i) t ((h.inPlace.list _ t).2 ⟨h.timer t ht, hp⟩)
  rw [values_sem hg, hz]
  rfl

theorem Sound.answers (h : Sound idle k) (hq : Quiet k) : Answers k where
  timeout _ _ := h.inv.timeout_answers hq
  take _ time := semTake_answers time
  trytake _ _ := h.trytake_answers

/-! ## Every run -/

variable {priority initTick : τ → Nat} {main : τ} {flag : IpcObj ι → IpcFlag} {sem : ι → Nat}
  {as : List (KernelAct τ ι)}

/-- **The kernel refines the semaphores and mutexes of the application.** In every run in which no
semaphore gets more tokens than its counter can tell, what the calls have done to them is a run of
the values, and it has led to those of the state. -/
theorem kernel_refines_values (hp : ∀ t, priority t < 32) (hne : main ≠ idle)
    (hb : Run.Steps step (MayBlock idle) (boot priority initTick main idle flag sem) as)
    (he : Run.exec step (boot priority initTick main idle flag sem) as = some k)
    (hw : Run.Along Objects.step Objects.Within { tokens := sem } k.hist.reverse) :
    Run.exec Values.step { sem }
      (Run.labels Objects.step Objects.valueCalls { tokens := sem } k.hist.reverse) =
        some k.objects.values :=
  Objects.values_run hw ((traced_along hp hne flag sem hb).last he).refines

/-- The token that is handed over to the thread stays in the value until its call returns. -/
theorem kernel_refines_values_tokenRun : ∃ k : Kernel (Fin 3) (Fin 1),
    Run.exec step (boot (fun t => 10 - t.val) (fun _ => 10) 0 2 (fun _ => .fifo) (fun _ => 0))
      tokenRun = some k ∧
    Run.labels Objects.step Objects.valueCalls { tokens := fun _ => 0 } k.hist.reverse =
      [.release 0, .take 0] ∧
    Run.exec Values.step { sem := fun _ => 0 }
      (Run.labels Objects.step Objects.valueCalls { tokens := fun _ => 0 } k.hist.reverse) =
        some k.objects.values := by
  have hrun : (Run.exec step (boot (fun t => 10 - t.val) (fun _ => 10) (0 : Fin 3) 2
      (fun _ => .fifo) (fun _ : Fin 1 => 0)) tokenRun).map (fun k => k.hist) =
        some [.ret 1 (.sem 0) .eok, .take 1 0, .give 0, .wait 1 (.sem 0)] := by
    decide +kernel
  obtain ⟨k, hk, hh⟩ := Option.map_eq_some_iff.1 hrun
  refine ⟨k, hk, ?_, kernel_refines_values (by decide) (by decide) (by decide +kernel) hk ?_⟩
  · rw [hh]
    decide +kernel
  · rw [hh]
    decide +kernel

/-- **The values answer as the kernel does**, in every state of every run. -/
theorem values_answer (hp : ∀ t, priority t < 32) (hne : main ≠ idle)
    (hb : Run.Steps step (MayBlock idle) (boot priority initTick main idle flag sem) as) :
    Run.Along step Answers (boot priority initTick main idle flag sem) as :=
  (traced_along hp hne flag sem hb).mono fun _ h => h.sound.answers h.quiet

theorem values_answer_tokenRun : Run.Along step Answers
    (boot (fun t => 10 - t.val) (fun _ => 10) 0 2 (fun _ => .fifo) (fun _ => 0)) tokenRun :=
  values_answer (by decide) (by decide) (by decide +kernel)

end Kernel

end Rtos
