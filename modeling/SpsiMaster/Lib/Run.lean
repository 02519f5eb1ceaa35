import Mathlib.Logic.Function.Basic

/-!
# Schedules of atomic steps

A program is a partial step function `step : Step σ α`: `step s a = none` when the action `a` is
not enabled in `s`. A schedule is a list of actions; `exec` runs it. Two predicates speak about
whole schedules:

* `Along step P s as`: `P` holds of every state the schedule `as` visits from `s`;
* `Steps step Q s as`: `Q` holds of every step `s₁ -a→ s₂` it takes.

A schedule is followed up to its first action that is not enabled. The rules of the second
section derive both predicates from an invariant; `along_iff_steps` is the exact form: a state
property holds along a schedule if and only if every step of it meets a condition, when the
invariant needs the condition and a step that breaks the condition breaks the property at once.
The last section is the forward simulation of one program by another.
-/

namespace Run

variable {σ α : Type*}

/-- The atomic steps of a program. -/
abbrev Step (σ α : Type*) := σ → α → Option σ

/-- The state after a schedule. -/
def exec (step : Step σ α) : σ → List α → Option σ
  | s, [] => some s
  | s, a :: as => (step s a).bind fun t => exec step t as

/-- `P` holds of every state the schedule visits, the first included. -/
def Along (step : Step σ α) (P : σ → Prop) : σ → List α → Prop
  | s, [] => P s
  | s, a :: as => P s ∧ ∀ t ∈ step s a, Along step P t as

/-- `Q` holds of every step of the schedule. -/
def Steps (step : Step σ α) (Q : σ → α → σ → Prop) : σ → List α → Prop
  | _, [] => True
  | s, a :: as => ∀ t ∈ step s a, Q s a t ∧ Steps step Q t as

instance decidableForallMem {P : σ → Prop} {o : Option σ} [DecidablePred P] :
    Decidable (∀ t ∈ o, P t) :=
  match o with
  | none => .isTrue fun _ h => nomatch h
  | some t => decidable_of_iff (P t) ⟨fun h _ ht => Option.mem_some_iff.1 ht ▸ h, fun h => h t rfl⟩

instance decidableAlong (step : Step σ α) (P : σ → Prop) [DecidablePred P] :
    (s : σ) → (as : List α) → Decidable (Along step P s as)
  | s, [] => inferInstanceAs (Decidable (P s))
  | s, a :: as =>
    have : DecidablePred fun t => Along step P t as := fun t => decidableAlong step P t as
    inferInstanceAs (Decidable (P s ∧ ∀ t ∈ step s a, Along step P t as))

instance decidableSteps (step : Step σ α) (Q : σ → α → σ → Prop)
    [∀ s a t, Decidable (Q s a t)] : (s : σ) → (as : List α) → Decidable (Steps step Q s as)
  | _, [] => .isTrue trivial
  | s, a :: as =>
    have : DecidablePred fun t => Q s a t ∧ Steps step Q t as := fun t =>
      have := decidableSteps step Q t as
      inferInstance
    inferInstanceAs (Decidable (∀ t ∈ step s a, Q s a t ∧ Steps step Q t as))

/-! ## Reading the predicates -/

section
variable {step : Step σ α} {P P' : σ → Prop} {Q Q' : σ → α → σ → Prop}

theorem exec_append (s : σ) (as bs : List α) :
    exec step s (as ++ bs) = (exec step s as).bind fun t => exec step t bs := by
  induction as generalizing s with
  | nil => rfl
  | cons a as ih =>
    simp only [List.cons_append, exec, Option.bind_assoc]
    exact Option.bind_congr fun t _ => ih t

theorem Along.head {s : σ} {as : List α} (h : Along step P s as) : P s := by
  cases as with
  | nil => exact h
  | cons a as => exact h.1

/-- The state a schedule ends in is one it visits. -/
theorem Along.last {s t : σ} {as : List α} (h : Along step P s as)
    (he : exec step s as = some t) : P t := by
  induction as generalizing s with
  | nil => cases he; exact h
  | cons a as ih =>
    obtain ⟨u, hu, he⟩ := Option.bind_eq_some_iff.1 he
    exact ih (h.2 u hu) he

theorem Along.mono {s : σ} {as : List α} (h : Along step P s as) (hP : ∀ s, P s → P' s) :
    Along step P' s as := by
  induction as generalizing s with
  | nil => exact hP s h
  | cons a as ih => exact ⟨hP s h.1, fun t ht => ih (h.2 t ht)⟩

theorem Steps.mono {s : σ} {as : List α} (h : Steps step Q s as)
    (hQ : ∀ s a t, step s a = some t → Q s a t → Q' s a t) : Steps step Q' s as := by
  induction as generalizing s with
  | nil => trivial
  | cons a as ih => exact fun t ht => ⟨hQ s a t ht (h t ht).1, ih (h t ht).2⟩

/-- A condition on the actions alone. -/
theorem steps_of_forall {C : α → Prop} {as : List α} (h : ∀ a ∈ as, C a) (s : σ) :
    Steps step (fun _ a _ => C a) s as := by
  induction as generalizing s with
  | nil => trivial
  | cons a as ih =>
    exact fun t _ => ⟨h a List.mem_cons_self, ih (fun b hb => h b (List.mem_cons_of_mem a hb)) t⟩

/-- A condition that is equivalent to `Q` step by step is equivalent to it along schedules. -/
theorem steps_congr (hQ : ∀ s a t, step s a = some t → (Q s a t ↔ Q' s a t)) (s : σ)
    (as : List α) : Steps step Q s as ↔ Steps step Q' s as :=
  ⟨fun h => h.mono fun s a t ht => (hQ s a t ht).1, fun h => h.mono fun s a t ht => (hQ s a t ht).2⟩

/-- What holds along a schedule holds at both ends of each of its steps. -/
theorem Along.steps {s : σ} {as : List α} (h : Along step P s as) :
    Steps step (fun s _ t => P s ∧ P t) s as := by
  induction as generalizing s with
  | nil => trivial
  | cons a as ih => exact fun t ht => ⟨⟨h.1, (h.2 t ht).head⟩, ih (h.2 t ht)⟩

/-- The step a schedule ends with. -/
theorem Steps.last {s t u : σ} {as : List α} {a : α} (h : Steps step Q s (as ++ [a]))
    (he : exec step s as = some t) (hs : step t a = some u) : Q t a u := by
  induction as generalizing s with
  | nil =>
    cases he
    exact (h u hs).1
  | cons b as ih =>
    obtain ⟨v, hv, he⟩ := Option.bind_eq_some_iff.1 he
    exact ih (h v hv).2 he

theorem Steps.and {s : σ} {as : List α} (h : Steps step Q s as) (h' : Steps step Q' s as) :
    Steps step (fun s a t => Q s a t ∧ Q' s a t) s as := by
  induction as generalizing s with
  | nil => trivial
  | cons a as ih => exact fun t ht => ⟨⟨(h t ht).1, (h' t ht).1⟩, ih (h t ht).2 (h' t ht).2⟩

/-! ## Invariants -/

/-- An invariant that every step meeting `Q` preserves holds along a schedule whose steps all
meet `Q`. -/
theorem along_of_inv {Inv : σ → Prop}
    (hstep : ∀ s a t, Inv s → step s a = some t → Q s a t → Inv t) {s : σ} {as : List α}
    (hs : Inv s) (hQ : Steps step Q s as) : Along step Inv s as := by
  induction as generalizing s with
  | nil => exact hs
  | cons a as ih => exact ⟨hs, fun t ht => ih (hstep s a t hs ht (hQ t ht).1) (hQ t ht).2⟩

/-- An invariant that every step preserves holds along every schedule. -/
theorem along_of_step {Inv : σ → Prop} (hstep : ∀ s a t, Inv s → step s a = some t → Inv t) {s : σ}
    (hs : Inv s) (as : List α) : Along step Inv s as := by
  induction as generalizing s with
  | nil => exact hs
  | cons a as ih => exact ⟨hs, fun t ht => ih (hstep s a t hs ht)⟩

/-- **The exact condition for a state property.** The invariant gives the property and survives
every step that meets `Q`; a step that does not meet `Q` ends in a state without the property. -/
theorem along_iff_steps {Inv : σ → Prop} (hP : ∀ s, Inv s → P s)
    (hstep : ∀ s a t, Inv s → step s a = some t → Q s a t → Inv t)
    (hbreak : ∀ s a t, Inv s → step s a = some t → ¬ Q s a t → ¬ P t) {s : σ} (hs : Inv s)
    (as : List α) : Along step P s as ↔ Steps step Q s as := by
  refine ⟨fun h => ?_, fun h => (along_of_inv hstep hs h).mono hP⟩
  induction as generalizing s with
  | nil => trivial
  | cons a as ih =>
    intro t ht
    have hq : Q s a t := Classical.byContradiction fun hn =>
      hbreak s a t hs ht hn (h.2 t ht).head
    exact ⟨hq, ih (hstep s a t hs ht hq) (h.2 t ht)⟩

/-- `along_iff_steps` under an assumption `A` on the states of the schedule and an assumption `R` on
its steps. -/
theorem along_iff_steps_given {Inv A : σ → Prop} {R : σ → α → σ → Prop} (hP : ∀ s, Inv s → P s)
    (hstep : ∀ s a t, Inv s → A s → A t → step s a = some t → R s a t → Q s a t → Inv t)
    (hbreak : ∀ s a t, Inv s → A s → step s a = some t → ¬ Q s a t → ¬ P t) {s : σ}
    {as : List α} (hs : Inv s) (hA : Along step A s as) (hR : Steps step R s as) :
    Along step P s as ↔ Steps step Q s as := by
  induction as generalizing s with
  | nil => exact ⟨fun _ => trivial, fun _ => hP s hs⟩
  | cons a as ih =>
    have hnext : ∀ t ∈ step s a, Q s a t → (Along step P t as ↔ Steps step Q t as) :=
      fun t ht hq => ih (hstep s a t hs hA.1 (hA.2 t ht).head ht (hR t ht).1 hq) (hA.2 t ht)
        (hR t ht).2
    refine ⟨fun h t ht => ?_, fun h => ⟨hP s hs, fun t ht => ?_⟩⟩
    · have hq : Q s a t := Classical.byContradiction fun hn =>
        hbreak s a t hs hA.1 ht hn (h.2 t ht).head
      exact ⟨hq, (hnext t ht hq).1 (h.2 t ht)⟩
    · exact (hnext t ht (h t ht).1).2 (h t ht).2

end

/-! ## Simulation -/

section
variable {τ β : Type*} {step : Step σ α} {A : σ → Prop}

/-- The abstract operations that a schedule stands for, `ops s a` being those of one action. -/
def labels (step : Step σ α) (ops : σ → α → List β) : σ → List α → List β
  | _, [] => []
  | s, a :: as => ops s a ++ ((step s a).map fun t => labels step ops t as).getD []

/-- **Forward simulation.** If every step is matched by its abstract operations, so is every
schedule. -/
theorem simulate {astep : Step τ β} {ops : σ → α → List β} {R : σ → τ → Prop}
    (hstep : ∀ s a t d, R s d → A s → A t → step s a = some t →
      ∃ d', exec astep d (ops s a) = some d' ∧ R t d')
    {s t : σ} {as : List α} {d : τ} (hR : R s d) (hA : Along step A s as)
    (he : exec step s as = some t) :
    ∃ d', exec astep d (labels step ops s as) = some d' ∧ R t d' := by
  induction as generalizing s d with
  | nil => cases he; exact ⟨d, rfl, hR⟩
  | cons a as ih =>
    obtain ⟨u, hu, he⟩ := Option.bind_eq_some_iff.1 he
    obtain ⟨d₁, h₁, hR₁⟩ := hstep s a u d hR hA.1 (hA.2 u hu).head hu
    obtain ⟨d₂, h₂, hR₂⟩ := ih hR₁ (hA.2 u hu) he
    refine ⟨d₂, ?_, hR₂⟩
    rw [labels, exec_append, h₁, hu]
    exact h₂

end

end Run
