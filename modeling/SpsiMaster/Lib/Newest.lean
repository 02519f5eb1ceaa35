import Mathlib.Logic.Function.Basic

/-!
# The newest value

`newest f as` is the value `f` gives for the last entry of `as` for which it gives one. A fold that
replaces what it holds by every new value ends with the newest one (`foldl_getD`), and so does every
cell of a map under a sequence of writes (`writes_apply`).
-/

namespace Newest

variable {α β γ κ : Type*} {f : α → Option β}

def newest (f : α → Option β) (as : List α) : Option β := (as.filterMap f).getLast?

@[simp] theorem newest_nil : newest f [] = none := rfl

theorem newest_cons (a : α) (as : List α) : newest f (a :: as) = (newest f as).or (f a) := by
  unfold newest
  cases hf : f a with
  | none => rw [List.filterMap_cons_none hf, Option.or_none]
  | some b => rw [List.filterMap_cons_some hf, List.getLast?_cons, Option.or_some]

theorem newest_append (as bs : List α) :
    newest f (as ++ bs) = (newest f bs).or (newest f as) := by
  rw [newest, List.filterMap_append, List.getLast?_append]
  rfl

theorem newest_concat (as : List α) (a : α) : newest f (as ++ [a]) = (f a).or (newest f as) := by
  rw [newest_append, newest_cons, newest_nil, Option.none_or]

theorem newest_eq_none {as : List α} : newest f as = none ↔ ∀ a ∈ as, f a = none := by
  rw [newest, List.getLast?_eq_none_iff, List.filterMap_eq_nil_iff]

theorem newest_map (g : β → γ) (as : List α) :
    newest (fun a => (f a).map g) as = (newest f as).map g := by
  rw [newest, newest, ← List.getLast?_map, List.map_filterMap]

/-- A fold that takes every new value. -/
theorem foldl_getD (f : α → Option β) (as : List α) (b : β) :
    as.foldl (fun b a => (f a).getD b) b = (newest f as).getD b := by
  induction as generalizing b with
  | nil => rfl
  | cons a as ih =>
    rw [List.foldl_cons, ih, newest_cons]
    cases newest f as <;> rfl

/-! ## Writes to a map -/

section
variable [DecidableEq κ]

/-- The map `m` after the writes of a list, first to last. -/
def writes (m : κ → β) (ws : List (κ × β)) : κ → β :=
  ws.foldl (fun m w => Function.update m w.1 w.2) m

/-- The value of the last write to `k`. -/
def lastWrite (ws : List (κ × β)) (k : κ) : Option β :=
  newest (fun w => if w.1 = k then some w.2 else none) ws

theorem lastWrite_concat (ws : List (κ × β)) (w : κ × β) (k : κ) :
    lastWrite (ws ++ [w]) k = if w.1 = k then some w.2 else lastWrite ws k := by
  rw [lastWrite, newest_concat]
  split <;> rfl

/-- Every cell holds the value of its last write, or what it held. -/
theorem writes_apply (m : κ → β) (ws : List (κ × β)) (k : κ) :
    writes m ws k = (lastWrite ws k).getD (m k) := by
  rw [lastWrite, ← foldl_getD]
  induction ws generalizing m with
  | nil => rfl
  | cons w ws ih =>
    rw [List.foldl_cons]
    refine (ih (Function.update m w.1 w.2)).trans (congrArg (List.foldl _ · ws) ?_)
    split
    · next h => rw [← h, Function.update_self, Option.getD_some]
    · next h => rw [Function.update_of_ne (Ne.symm h), Option.getD_none]

end

end Newest
