import Mathlib.Data.Prod.Lex
import SpsiMaster.Lib.Run

/-!
# Deadlines

The abstract set of timers: an unbounded clock and, for each timer that is armed, its deadline and
the number of its start. A timer may expire when its deadline has come and no other armed timer is
ahead of it: an earlier deadline, or the same deadline and an earlier start. `rest` is enabled
when nothing is due.

The second half is the representation as a list in this order: `insert` puts a timer in front of
the first one with a later deadline.
-/

namespace Deadlines

variable {τ : Type*}

/-- A deadline and the number of the start, in the order of expiry. -/
abbrev Due := Nat × Nat

/-- `p` comes before `q`. -/
def Due.Before (p q : Due) : Prop := toLex p < toLex q

theorem Due.before_iff {p q : Due} : p.Before q ↔ p.1 < q.1 ∨ p.1 = q.1 ∧ p.2 < q.2 :=
  Prod.Lex.toLex_lt_toLex

structure State (τ : Type*) where
  now : Nat := 0
  starts : Nat := 0
  due : τ → Option Due := fun _ => none

inductive Op (τ : Type*) where
  | tick
  | arm (t : τ) (ticks : Nat)
  | disarm (t : τ)
  | expire (t : τ)
  | rest

/-- The deadline of `t` has come, and no other timer is ahead of it. -/
def State.Next (d : State τ) (t : τ) : Prop :=
  ∃ p, d.due t = some p ∧ p.1 ≤ d.now ∧ ∀ u q, u ≠ t → d.due u = some q → p.Before q

/-- No deadline has come. -/
def State.Idle (d : State τ) : Prop := ∀ t p, d.due t = some p → d.now < p.1

open Classical in
noncomputable def step [DecidableEq τ] : Run.Step (State τ) (Op τ)
  | d, .tick => some { d with now := d.now + 1 }
  | d, .arm t ticks =>
    some { d with
      due := Function.update d.due t (some (d.now + ticks, d.starts)), starts := d.starts + 1 }
  | d, .disarm t => some { d with due := Function.update d.due t none }
  | d, .expire t => if d.Next t then some { d with due := Function.update d.due t none } else none
  | d, .rest => if d.Idle then some d else none

/-! ## Lists of timers -/

/-- In front of the first timer that is later. -/
def insert (later : τ → Bool) (t : τ) : List τ → List τ
  | [] => [t]
  | u :: us => if later u then t :: u :: us else u :: insert later t us

theorem insert_perm (later : τ → Bool) (t : τ) (us : List τ) :
    (insert later t us).Perm (t :: us) := by
  induction us with
  | nil => exact .refl _
  | cons u us ih =>
    rw [insert]
    split
    · exact .refl _
    · exact (ih.cons u).trans (.swap t u us)

/-- The list is in the order of expiry. -/
def Ordered (due : τ → Due) (us : List τ) : Prop := us.Pairwise fun t u => (due t).Before (due u)

variable {due : τ → Due} {us : List τ}

/-- A new start goes behind all deadlines that are not later. -/
theorem Ordered.insert (h : Ordered due us) {later : τ → Bool} {t : τ}
    (hlater : ∀ u ∈ us, later u = true ↔ (due t).1 < (due u).1)
    (hnew : ∀ u ∈ us, (due u).2 < (due t).2) : Ordered due (insert later t us) := by
  induction us with
  | nil => exact List.pairwise_singleton _ t
  | cons u us ih =>
    obtain ⟨hu, hus⟩ := List.pairwise_cons.1 h
    have htail := ih hus (fun v hv => hlater v (List.mem_cons_of_mem u hv))
      fun v hv => hnew v (List.mem_cons_of_mem u hv)
    have hmem := hlater u List.mem_cons_self
    rw [Deadlines.insert]
    split
    · next hl =>
      have htu : (due t).Before (due u) := Due.before_iff.2 (.inl (hmem.1 hl))
      refine List.pairwise_cons.2 ⟨fun v hv => ?_, h⟩
      rcases List.mem_cons.1 hv with rfl | hv
      · exact htu
      · exact lt_trans htu (hu v hv)
    · next hl =>
      refine List.pairwise_cons.2 ⟨fun v hv => ?_, htail⟩
      rcases List.mem_cons.1 ((insert_perm later t us).mem_iff.1 hv) with rfl | hv
      · have hle : (due u).1 ≤ (due v).1 := Nat.le_of_not_lt fun hlt => hl (hmem.2 hlt)
        have hstart := hnew u List.mem_cons_self
        rcases Nat.lt_or_eq_of_le hle with hlt | heq
        · exact Due.before_iff.2 (.inl hlt)
        · exact Due.before_iff.2 (.inr ⟨heq, hstart⟩)
      · exact hu v hv

theorem Ordered.erase [DecidableEq τ] (h : Ordered due us) (t : τ) : Ordered due (us.erase t) :=
  List.Pairwise.erase t h

theorem Ordered.nodup (h : Ordered due us) : us.Nodup := by
  refine List.Pairwise.imp (fun {t u} hlt => ?_) h
  rintro rfl
  exact lt_irrefl _ hlt

theorem Ordered.congr {due' : τ → Due} (h : Ordered due us) (hd : ∀ u ∈ us, due' u = due u) :
    Ordered due' us :=
  h.imp_of_mem fun hu hv hlt => by rw [hd _ hu, hd _ hv]; exact hlt

end Deadlines
