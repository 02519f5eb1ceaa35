import Mathlib.Tactic.Common

/-!
# A FIFO that is read through a port

Every read of the port gives a value: the oldest entry, or something else when there is none.
`idle` are the values of these further reads.
-/

structure Fifo (α : Type*) where
  items : List α
  idle : Nat → α

namespace Fifo

variable {α : Type*}

/-- A read of the port. -/
def pop (f : Fifo α) : α × Fifo α :=
  match f.items with
  | [] => (f.idle 0, { f with idle := fun n => f.idle (n + 1) })
  | x :: xs => (x, { f with items := xs })

/-- `n` reads. -/
def take : Nat → Fifo α → List α × Fifo α
  | 0, f => ([], f)
  | n + 1, f => (f.pop.1 :: (take n f.pop.2).1, (take n f.pop.2).2)

theorem take_succ (n : Nat) (f : Fifo α) :
    take (n + 1) f = (f.pop.1 :: (take n f.pop.2).1, (take n f.pop.2).2) := rfl

@[simp] theorem length_take (n : Nat) (f : Fifo α) : (take n f).1.length = n := by
  induction n generalizing f with
  | zero => rfl
  | succ n ih => rw [take_succ, List.length_cons, ih]

/-- A read removes an entry if there is one. -/
theorem length_pop (f : Fifo α) : f.pop.2.items.length = f.items.length - 1 := by
  unfold pop
  split
  · next h => rw [h]; rfl
  · next h => rw [h]; rfl

theorem length_items_take (n : Nat) (f : Fifo α) :
    (take n f).2.items.length = f.items.length - n := by
  induction n generalizing f with
  | zero => rfl
  | succ n ih =>
    rw [take_succ, ih, length_pop]
    omega

/-- As many reads as there are entries in front. -/
theorem take_append (xs ys : List α) (idle : Nat → α) :
    take xs.length ⟨xs ++ ys, idle⟩ = (xs, ⟨ys, idle⟩) := by
  induction xs with
  | nil => rfl
  | cons x xs ih =>
    rw [List.length_cons, take_succ]
    simp only [pop, List.cons_append]
    rw [ih]

end Fifo
