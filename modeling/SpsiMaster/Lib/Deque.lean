import SpsiMaster.Lib.Run

/-!
# Double-ended queues

The abstract queue with two ends of entry and one exit: `State` holds what is waiting and, in
order, what has been popped. A pop of an empty queue is not enabled. `exec_perm`: what was pushed
is, as a multiset, what was popped together with what still waits.

The second half is the usual array representation, a *window* of an indexed store: `window f lo n`
lists the cells `lo, …, lo + n - 1`. Its three lemmas are the three operations on a window.
-/

namespace Deque

variable {β : Type*}

structure State (β : Type*) where
  waiting : List β := []
  popped : List β := []

inductive Op (β : Type*) where
  | pushBack (b : β)
  | pushFront (b : β)
  | pop

def step : Run.Step (State β) (Op β)
  | d, .pushBack b => some { d with waiting := d.waiting ++ [b] }
  | d, .pushFront b => some { d with waiting := b :: d.waiting }
  | ⟨b :: w, p⟩, .pop => some ⟨w, p ++ [b]⟩
  | ⟨[], _⟩, .pop => none

/-- What the operations push. -/
def pushed : List (Op β) → List β
  | [] => []
  | .pushBack b :: os => b :: pushed os
  | .pushFront b :: os => b :: pushed os
  | .pop :: os => pushed os

/-- Nothing is lost, duplicated or altered between a push and the pop of it. -/
theorem exec_perm {d e : State β} {os : List (Op β)} (h : Run.exec step d os = some e) :
    (e.popped ++ e.waiting).Perm (d.popped ++ d.waiting ++ pushed os) := by
  induction os generalizing d with
  | nil => cases h; simp [pushed]
  | cons o os ih =>
    obtain ⟨c, hc, h⟩ := Option.bind_eq_some_iff.1 h
    apply (ih h).trans
    rcases o with b | b | _
    · cases hc
      simp [pushed]
    · cases hc
      simp only [pushed, List.append_assoc, List.cons_append]
      exact List.Perm.append_left _ List.perm_middle.symm
    · obtain ⟨w, p⟩ := d
      cases w with
      | nil => cases hc
      | cons b w => cases hc; simp [pushed]

/-! ## Windows of an indexed store -/

/-- The cells `lo, …, lo + n - 1`. -/
def window (f : Nat → β) (lo n : Nat) : List β := (List.range' lo n).map f

@[simp] theorem window_zero (f : Nat → β) (lo : Nat) : window f lo 0 = [] := rfl

theorem window_congr {f g : Nat → β} {lo n : Nat}
    (h : ∀ i, lo ≤ i → i < lo + n → g i = f i) : window g lo n = window f lo n :=
  List.map_congr_left fun i hi => by
    rw [List.mem_range'_1] at hi
    exact h i hi.1 hi.2

/-- The first cell leaves the window. -/
theorem window_pop (f : Nat → β) (lo n : Nat) :
    window f lo (n + 1) = f lo :: window f (lo + 1) n := by
  simp [window, List.range'_succ]

/-- A cell is added after the last one. -/
theorem window_push {f g : Nat → β} {lo n : Nat} (h : ∀ i, lo ≤ i → i < lo + n → g i = f i) :
    window g lo (n + 1) = window f lo n ++ [g (lo + n)] := by
  rw [← window_congr h]
  simp [window, List.range'_concat]

/-- Every cell moves up by one and a new one takes the first place. -/
theorem window_shift {f g : Nat → β} {lo n : Nat}
    (h : ∀ i, lo ≤ i → i < lo + n → g (i + 1) = f i) :
    window g lo (n + 1) = g lo :: window f lo n := by
  rw [window_pop]
  congr 1
  have hr : List.range' (lo + 1) n = (List.range' lo n).map (· + 1) := by
    rw [Nat.add_comm, ← List.map_add_range']
    exact List.map_congr_left fun i _ => Nat.add_comm 1 i
  simp only [window, hr, List.map_map]
  refine List.map_congr_left fun i hi => ?_
  rw [List.mem_range'_1] at hi
  exact h i hi.1 hi.2

end Deque
