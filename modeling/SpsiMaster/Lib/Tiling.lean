import Mathlib.Data.List.Chain
import Mathlib.Tactic.Common

/-!
# Tilings of a line

A stretch of a line is cut into tiles, each with a length and a tag: `At b l p t` says that the
tile `t` of the stretch `l`, which begins at `b`, begins at `p`. Tiles do not overlap
(`At.disjoint`), and an edit of the list in one place leaves the tiles in front of it and behind
it where they are (`at_append`).
-/

namespace Tiling

variable {α : Type*}

/-- The tiles from left to right. -/
abbrev Tiles (α : Type*) := List (Nat × α)

def len : Tiles α → Nat
  | [] => 0
  | t :: l => t.1 + len l

/-- The tile `t` of `l` begins at `p`, when `l` begins at `b`. -/
def At (b : Nat) : Tiles α → Nat → Nat × α → Prop
  | [], _, _ => False
  | s :: l, p, t => (p = b ∧ t = s) ∨ At (b + s.1) l p t

variable {b p q : Nat} {s t : Nat × α} {l l₁ l₂ : Tiles α}

@[simp] theorem len_nil : len ([] : Tiles α) = 0 := rfl

@[simp] theorem len_cons : len (t :: l) = t.1 + len l := rfl

@[simp] theorem len_append : len (l₁ ++ l₂) = len l₁ + len l₂ := by
  induction l₁ with
  | nil => simp
  | cons t l ih => simp [ih, Nat.add_assoc]

@[simp] theorem at_nil : At b ([] : Tiles α) p t ↔ False := Iff.rfl

@[simp] theorem at_cons : At b (s :: l) p t ↔ (p = b ∧ t = s) ∨ At (b + s.1) l p t := Iff.rfl

@[simp] theorem at_append :
    At b (l₁ ++ l₂) p t ↔ At b l₁ p t ∨ At (b + len l₁) l₂ p t := by
  induction l₁ generalizing b with
  | nil => simp
  | cons s l ih => simp [ih, or_assoc, Nat.add_assoc]

/-- A tile with what is in front of it and behind it. -/
theorem at_iff_append : At b l p t ↔ ∃ l₁ l₂, l = l₁ ++ t :: l₂ ∧ p = b + len l₁ := by
  constructor
  · intro h
    induction l generalizing b with
    | nil => exact h.elim
    | cons s l ih =>
      obtain ⟨rfl, rfl⟩ | h := h
      · exact ⟨[], l, rfl, rfl⟩
      · obtain ⟨l₁, l₂, rfl, rfl⟩ := ih h
        exact ⟨s :: l₁, l₂, rfl, by simp [Nat.add_assoc]⟩
  · rintro ⟨l₁, l₂, rfl, rfl⟩
    simp

theorem At.mem (h : At b l p t) : t ∈ l := by
  obtain ⟨l₁, l₂, rfl, -⟩ := at_iff_append.1 h
  simp

/-- A tile lies in the stretch. -/
theorem At.bounds (h : At b l p t) : b ≤ p ∧ p + t.1 ≤ b + len l := by
  obtain ⟨l₁, l₂, rfl, rfl⟩ := at_iff_append.1 h
  simp only [len_append, len_cons]
  omega

theorem exists_at_of_mem (h : t ∈ l) (b : Nat) : ∃ p, At b l p t := by
  obtain ⟨l₁, l₂, rfl⟩ := List.append_of_mem h
  exact ⟨b + len l₁, at_iff_append.2 ⟨l₁, l₂, rfl, rfl⟩⟩

theorem length_mul_le {c : Nat} (h : ∀ t ∈ l, c ≤ t.1) : l.length * c ≤ len l := by
  induction l with
  | nil => simp
  | cons t l ih =>
    have hl := ih fun s hs => h s (List.mem_cons_of_mem _ hs)
    have ht := h t List.mem_cons_self
    rw [List.length_cons, Nat.succ_mul, len_cons]
    omega

theorem dvd_len {c : Nat} (h : ∀ t ∈ l, c ∣ t.1) : c ∣ len l := by
  induction l with
  | nil => exact Nat.dvd_zero c
  | cons t l ih =>
    exact Nat.dvd_add (h t List.mem_cons_self) (ih fun s hs => h s (List.mem_cons_of_mem _ hs))

/-- Two tiles are the same or do not overlap. -/
theorem At.disjoint (hs : At b l p s) (ht : At b l q t) :
    (p = q ∧ s = t) ∨ p + s.1 ≤ q ∨ q + t.1 ≤ p := by
  induction l generalizing b with
  | nil => exact hs.elim
  | cons r l ih =>
    obtain ⟨rfl, rfl⟩ | hs := hs <;> obtain ⟨rfl, rfl⟩ | ht := ht
    · exact .inl ⟨rfl, rfl⟩
    · exact .inr (.inl ht.bounds.1)
    · exact .inr (.inr hs.bounds.1)
    · exact ih hs ht

/-! ## Two kinds of tiles -/

section
variable {l l₁ l₂ : Tiles Bool} {n k : Nat}

/-- Where the first tile with the tag `false` begins, counted from the beginning; the end if there
is none. -/
def first : Tiles Bool → Nat
  | [] => 0
  | (_, false) :: _ => 0
  | (n, true) :: l => n + first l

/-- The length of the tiles with the tag `true`. -/
def marked : Tiles Bool → Nat
  | [] => 0
  | (_, false) :: l => marked l
  | (n, true) :: l => n + marked l

@[simp] theorem marked_append : marked (l₁ ++ l₂) = marked l₁ + marked l₂ := by
  induction l₁ with
  | nil => simp [marked]
  | cons t l ih => obtain ⟨n, _ | _⟩ := t <;> simp [marked, ih, Nat.add_assoc]

theorem marked_le (l : Tiles Bool) : marked l ≤ len l := by
  induction l with
  | nil => exact Nat.le_refl _
  | cons t l ih => obtain ⟨n, _ | _⟩ := t <;> simp only [marked, len_cons] <;> omega

theorem first_le (l : Tiles Bool) : first l ≤ len l := by
  induction l with
  | nil => exact Nat.le_refl _
  | cons t l ih => obtain ⟨n, _ | _⟩ := t <;> simp only [first, len_cons] <;> omega

/-- What is behind a tile with the tag `false` does not matter. -/
theorem first_append_false : first (l₁ ++ (n, false) :: l₂) = first l₁ := by
  induction l₁ with
  | nil => rfl
  | cons t l ih => obtain ⟨k, _ | _⟩ := t <;> simp [first, ih]

theorem first_append (hpos : ∀ t ∈ l₁, 0 < t.1) :
    first (l₁ ++ l₂) = if first l₁ = len l₁ then len l₁ + first l₂ else first l₁ := by
  induction l₁ with
  | nil => simp [first]
  | cons t l ih =>
    obtain ⟨k, _ | _⟩ := t
    · have hk : 0 < k := hpos _ List.mem_cons_self
      have hne : first ((k, false) :: l) ≠ len ((k, false) :: l) := by
        simp only [first, len_cons]
        omega
      rw [if_neg hne]
      rfl
    · have hl := ih fun t ht => hpos t (List.mem_cons_of_mem _ ht)
      simp only [List.cons_append, first, len_cons, hl, Nat.add_left_cancel_iff]
      split <;> omega

/-- In front of the first tile with the tag `false` are none. -/
theorem exists_append_of_first (l : Tiles Bool) :
    ∃ l₁ l₂, l = l₁ ++ l₂ ∧ first l = len l₁ ∧ ∀ t ∈ l₁, t.2 = true := by
  induction l with
  | nil => exact ⟨[], [], rfl, rfl, by simp⟩
  | cons t l ih =>
    obtain ⟨k, _ | _⟩ := t
    · exact ⟨[], _, rfl, rfl, by simp⟩
    · obtain ⟨l₁, l₂, rfl, hf, ha⟩ := ih
      exact ⟨(k, true) :: l₁, l₂, rfl, by simp [first, hf], by simpa using ha⟩

/-- No two tiles in a row have the tag `false`. -/
def Sep (l : Tiles Bool) : Prop := l.IsChain fun s t => s.2 = true ∨ t.2 = true

theorem sep_append_cons {u : Bool} : Sep (l₁ ++ (n, u) :: l₂) ↔ Sep l₁ ∧ Sep l₂ ∧
    (u = true ∨ (∀ t ∈ l₁.getLast?, t.2 = true) ∧ ∀ t ∈ l₂.head?, t.2 = true) := by
  simp only [Sep, List.isChain_append, List.isChain_cons, List.head?_cons, Option.mem_some_iff,
    forall_eq']
  cases u <;> simp
  tauto

theorem sep_cons {u : Bool} :
    Sep ((n, u) :: l) ↔ Sep l ∧ (u = true ∨ ∀ t ∈ l.head?, t.2 = true) := by
  simp only [Sep, List.isChain_cons]
  cases u <;> simp
  tauto

/-- Tiles with the tag `false` only are at most one. -/
theorem Sep.eq_singleton (hsep : Sep l) (hall : ∀ t ∈ l, t.2 = false) (hne : l ≠ []) :
    l = [(len l, false)] := by
  match l, hne with
  | [t], _ =>
    have ht := hall t List.mem_cons_self
    exact congrArg (fun s => [s]) (Prod.ext rfl ht)
  | s :: t :: l, _ =>
    have hs := hall s List.mem_cons_self
    have ht := hall t (List.mem_cons_of_mem _ List.mem_cons_self)
    simp [Sep, hs, ht] at hsep

end

end Tiling
