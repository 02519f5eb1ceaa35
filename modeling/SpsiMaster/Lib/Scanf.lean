import SpsiMaster.Lib.CInt

/-!
# Integer input of `sscanf` and `atol`

`sscanf` on a byte string, for formats of literal characters and the conversion `%d` (`%ld`, with
the same range). A conversion skips white space, takes an optional sign and at least one digit,
and gives the nearest representable value, as `strtol` does. `scan` returns the values of the
conversions that are made before the first directive that fails.

`numeral` reads a whole string as a decimal integer, `Reads` says what a string starts with.
`scan_field` and `scan_no_field`: what a scan returns, by the fields the string starts with.
-/

namespace Scanf

open CInt

/-- The parts of a format. -/
inductive Directive where
  | lit (c : UInt8)
  | int
  deriving DecidableEq

/-- `isspace`. -/
def isSpace (c : UInt8) : Bool := c = 32 || (9 ≤ c && c ≤ 13)

def isDigit (c : UInt8) : Bool := 48 ≤ c && c ≤ 57

def digitsVal (ds : List UInt8) : Nat := ds.foldl (fun n c => 10 * n + (c.toNat - 48)) 0

/-- An optional sign: whether it is a minus, and what follows. -/
def sign : List UInt8 → Bool × List UInt8
  | 43 :: s => (false, s)
  | 45 :: s => (true, s)
  | s => (false, s)

def signed (neg : Bool) (n : Nat) : Int := if neg then -n else n

/-- One conversion: the value and the rest of the input. -/
def scanInt (s : List UInt8) : Option (Int × List UInt8) :=
  let (neg, s) := sign (s.dropWhile isSpace)
  let ds := s.takeWhile isDigit
  if ds = [] then none
  else some (clampLong (signed neg (digitsVal ds)), s.dropWhile isDigit)

/-- `atol`: 0 when there is no number. -/
def atol (s : List UInt8) : Int :=
  match scanInt s with
  | some (v, _) => v
  | none => 0

def scan : List Directive → List UInt8 → List Int
  | [], _ => []
  | .lit _ :: _, [] => []
  | .lit c :: f, x :: s => if x = c then scan f s else []
  | .int :: f, s =>
    match scanInt s with
    | some (v, s) => v :: scan f s
    | none => []

/-- The value of a string that is a decimal integer: an optional sign and digits. -/
def numeral (s : List UInt8) : Option Int :=
  let (neg, ds) := sign s
  if ds ≠ [] ∧ ds.all isDigit then some (signed neg (digitsVal ds)) else none

/-! ## Conversions of numerals -/

theorem isSpace_eq_false {c : UInt8} (h : isDigit c = true ∨ c = 43 ∨ c = 45) :
    isSpace c = false := by
  rcases h with h | rfl | rfl
  · simp only [isDigit, Bool.and_eq_true, decide_eq_true_eq] at h
    obtain ⟨h1, h2⟩ := h
    have h1 : 48 ≤ c.toNat := h1
    simp only [isSpace, Bool.or_eq_false_iff, decide_eq_false_iff_not, Bool.and_eq_false_iff]
    refine ⟨fun hc => ?_, .inr fun hc => ?_⟩
    · rw [hc] at h1
      exact absurd h1 (by decide)
    · have hc : c.toNat ≤ 13 := hc
      omega
  · rfl
  · rfl

/-- A string that starts with a digit has no sign. -/
theorem sign_digit {c : UInt8} (h : isDigit c = true) (s : List UInt8) :
    sign (c :: s) = (false, c :: s) := by
  unfold sign
  split
  · next he =>
    obtain ⟨rfl, -⟩ := List.cons.inj he
    exact absurd h (by decide)
  · next he =>
    obtain ⟨rfl, -⟩ := List.cons.inj he
    exact absurd h (by decide)
  · rfl

/-- A sign followed by digits, with the rest of the input behind them. -/
theorem sign_cases {s ds : List UInt8} {neg : Bool} (h : sign s = (neg, ds)) :
    s = 43 :: ds ∧ neg = false ∨ s = 45 :: ds ∧ neg = true ∨ s = ds ∧ neg = false := by
  unfold sign at h
  split at h
  · obtain ⟨rfl, rfl⟩ := Prod.mk.inj h
    exact .inl ⟨rfl, rfl⟩
  · obtain ⟨rfl, rfl⟩ := Prod.mk.inj h
    exact .inr (.inl ⟨rfl, rfl⟩)
  · obtain ⟨rfl, rfl⟩ := Prod.mk.inj h
    exact .inr (.inr ⟨rfl, rfl⟩)

/-- What is read of a numeral: the sign, a nonempty string of digits, the value. -/
theorem numeral_eq_some {s : List UInt8} {i : Int} (h : numeral s = some i) :
    ∃ neg ds, sign s = (neg, ds) ∧ ds ≠ [] ∧ (∀ c ∈ ds, isDigit c = true) ∧
      i = signed neg (digitsVal ds) := by
  simp only [numeral] at h
  split at h
  · next hd =>
    obtain ⟨hne, ha⟩ := hd
    exact ⟨_, _, rfl, hne, List.all_eq_true.1 ha, (Option.some.inj h).symm⟩
  · cases h

/-- Digits with a non-digit or nothing behind them are read to their end. -/
theorem scan_digits {ds : List UInt8} (hd : ∀ c ∈ ds, isDigit c = true) {rest : List UInt8}
    (hr : ∀ c ∈ rest.head?, isDigit c = false) :
    (ds ++ rest).takeWhile isDigit = ds ∧ (ds ++ rest).dropWhile isDigit = rest := by
  have hstop : rest.takeWhile isDigit = [] ∧ rest.dropWhile isDigit = rest := by
    cases rest with
    | nil => exact ⟨rfl, rfl⟩
    | cons x rest =>
      have hx : ¬ isDigit x = true := by simp [hr x rfl]
      exact ⟨List.takeWhile_cons_of_neg hx, List.dropWhile_cons_of_neg hx⟩
  constructor
  · rw [List.takeWhile_append_of_pos hd, hstop.1, List.append_nil]
  · rw [List.dropWhile_append_of_pos hd, hstop.2]

/-- The digits that are read are digits, and what follows them starts with none. -/
theorem digits_split (s : List UInt8) : (∀ c ∈ s.takeWhile isDigit, isDigit c = true) ∧
    ∀ c ∈ (s.dropWhile isDigit).head?, isDigit c = false := by
  refine ⟨fun c hc => List.all_eq_true.1 List.all_takeWhile c hc, fun c hc => ?_⟩
  have hnot := List.head?_dropWhile_not isDigit s
  rw [Option.mem_def.1 hc] at hnot
  simpa using hnot

/-- `s` starts with a decimal integer of value `i`, with white space in front of it or not, and
`rest` is what follows its last digit. -/
def Reads (s : List UInt8) (i : Int) (rest : List UInt8) : Prop :=
  ∃ ws num, s = ws ++ (num ++ rest) ∧ (∀ c ∈ ws, isSpace c = true) ∧ numeral num = some i ∧
    ∀ c ∈ rest.head?, isDigit c = false

/-- A numeral that a non-digit follows is read. -/
theorem reads_numeral {num : List UInt8} {i : Int} (h : numeral num = some i) {x : UInt8}
    (hx : isDigit x = false) (rest : List UInt8) : Reads (num ++ x :: rest) i (x :: rest) :=
  ⟨[], num, rfl, fun _ hc => (nomatch hc), h, fun _ hc => (Option.mem_some_iff.1 hc) ▸ hx⟩

theorem scanInt_of_reads {s rest : List UInt8} {i : Int} (h : Reads s i rest) :
    scanInt s = some (clampLong i, rest) := by
  obtain ⟨ws, num, rfl, hws, hnum, hrest⟩ := h
  obtain ⟨neg, ds, hs, hne, hd, rfl⟩ := numeral_eq_some hnum
  obtain ⟨d, ds, rfl⟩ := List.exists_cons_of_ne_nil hne
  have hd0 : isDigit d = true := hd d List.mem_cons_self
  obtain ⟨ht, hr⟩ := scan_digits hd hrest
  -- the white space is skipped, and the sign is read as it is in the numeral
  have hsign : sign ((ws ++ (num ++ rest)).dropWhile isSpace) = (neg, d :: ds ++ rest) := by
    rw [List.dropWhile_append_of_pos hws]
    rcases sign_cases hs with ⟨rfl, rfl⟩ | ⟨rfl, rfl⟩ | ⟨rfl, rfl⟩
    · rw [List.cons_append,
        List.dropWhile_cons_of_neg (by simp [isSpace_eq_false (.inr (.inl rfl))])]
      rfl
    · rw [List.cons_append,
        List.dropWhile_cons_of_neg (by simp [isSpace_eq_false (.inr (.inr rfl))])]
      rfl
    · rw [List.cons_append, List.dropWhile_cons_of_neg (by simp [isSpace_eq_false (.inl hd0)])]
      exact sign_digit hd0 _
  simp only [scanInt, hsign, ht, hr, reduceCtorEq, if_false]

theorem atol_of_reads {s rest : List UInt8} {i : Int} (h : Reads s i rest) :
    atol s = clampLong i := by rw [atol, scanInt_of_reads h]

theorem atol_numeral {s : List UInt8} {i : Int} (h : numeral s = some i) :
    atol s = clampLong i :=
  atol_of_reads ⟨[], s, (List.append_nil s).symm, fun _ hc => (nomatch hc), h,
    fun _ hc => nomatch hc⟩

/-- A conversion that is made has read a decimal integer. -/
theorem reads_of_scanInt {s rest : List UInt8} {v : Int} (h : scanInt s = some (v, rest)) :
    ∃ i, Reads s i rest ∧ v = clampLong i := by
  simp only [scanInt] at h
  split at h
  · cases h
  · next hne =>
    obtain ⟨rfl, rfl⟩ := Prod.mk.inj (Option.some.inj h)
    generalize hs : s.dropWhile isSpace = s' at hne ⊢
    have hsplit : s = s.takeWhile isSpace ++ s' := by rw [← hs, List.takeWhile_append_dropWhile]
    have hws : ∀ c ∈ s.takeWhile isSpace, isSpace c = true :=
      List.all_eq_true.1 List.all_takeWhile
    obtain ⟨hds, hrest⟩ := digits_split (sign s').2
    have hvalue : ∀ num, sign num = ((sign s').1, (sign s').2.takeWhile isDigit) →
        numeral num = some (signed (sign s').1 (digitsVal ((sign s').2.takeWhile isDigit))) := by
      intro num hnum
      simp only [numeral, hnum]
      exact if_pos ⟨hne, List.all_eq_true.2 hds⟩
    refine ⟨_, ?_, rfl⟩
    rcases @sign_cases s' (sign s').2 (sign s').1 rfl with ⟨he, hneg⟩ | ⟨he, hneg⟩ | ⟨he, hneg⟩
    · refine ⟨_, 43 :: (sign s').2.takeWhile isDigit, ?_, hws, hvalue _ (by rw [hneg]; rfl), hrest⟩
      rw [List.cons_append, List.takeWhile_append_dropWhile, ← he]
      exact hsplit
    · refine ⟨_, 45 :: (sign s').2.takeWhile isDigit, ?_, hws, hvalue _ (by rw [hneg]; rfl), hrest⟩
      rw [List.cons_append, List.takeWhile_append_dropWhile, ← he]
      exact hsplit
    · refine ⟨_, (sign s').2.takeWhile isDigit, ?_, hws, hvalue _ ?_, hrest⟩
      · rw [List.takeWhile_append_dropWhile, ← he]
        exact hsplit
      · obtain ⟨d, ds, hd⟩ := List.exists_cons_of_ne_nil hne
        rw [hd, hneg]
        exact sign_digit (hds d (by rw [hd]; exact List.mem_cons_self)) ds

/-! ## NULs behind a string -/

theorem dropWhile_append_zeros (s : List UInt8) (n : Nat) :
    (s ++ List.replicate n 0).dropWhile isSpace = s.dropWhile isSpace ++ List.replicate n 0 := by
  have hzeros : (List.replicate n (0 : UInt8)).dropWhile isSpace = List.replicate n 0 := by
    cases n with
    | zero => rfl
    | succ n => exact List.dropWhile_cons_of_neg (by decide)
  rw [List.dropWhile_append]
  split
  · next h => rw [hzeros, List.isEmpty_iff.1 h, List.nil_append]
  · rfl

theorem sign_append_zeros (s : List UInt8) (n : Nat) :
    sign (s ++ List.replicate n 0) = ((sign s).1, (sign s).2 ++ List.replicate n 0) := by
  cases s with
  | nil =>
    cases n with
    | zero => rfl
    | succ n => rfl
  | cons c s =>
    unfold sign
    split
    · next he =>
      obtain ⟨rfl, rfl⟩ := List.cons.inj he
      rfl
    · next he =>
      obtain ⟨rfl, rfl⟩ := List.cons.inj he
      rfl
    · next h43 h45 =>
      split
      · next he => exact absurd (by rw [he]; rfl) (h43 _)
      · next he => exact absurd (by rw [he]; rfl) (h45 _)
      · rfl

/-- The NULs behind a string are not read. -/
theorem atol_append_zeros (s : List UInt8) (n : Nat) :
    atol (s ++ List.replicate n 0) = atol s := by
  have hdigits : ∀ ds : List UInt8,
      (ds ++ List.replicate n 0).takeWhile isDigit = ds.takeWhile isDigit := by
    intro ds
    have hzeros : (List.replicate n (0 : UInt8)).takeWhile isDigit = [] := by
      cases n with
      | zero => rfl
      | succ n => exact List.takeWhile_cons_of_neg (by decide)
    rw [List.takeWhile_append, hzeros, List.append_nil]
    split
    · next h => exact (List.takeWhile_sublist isDigit |>.eq_of_length h).symm
    · rfl
  simp only [atol, scanInt, dropWhile_append_zeros, sign_append_zeros, hdigits]
  by_cases hnone : (sign (s.dropWhile isSpace)).2.takeWhile isDigit = []
  · simp only [if_pos hnone]
  · simp only [if_neg hnone]

/-! ## Formats -/

/-- `s` starts with the characters `lits` and a decimal integer of value `i`. -/
def HasField (lits s : List UInt8) (i : Int) (rest : List UInt8) : Prop :=
  ∃ s', s = lits ++ s' ∧ Reads s' i rest

/-- The directives of a field. -/
def fieldOf (lits : List UInt8) (f : List Directive) : List Directive :=
  lits.map .lit ++ .int :: f

theorem scan_lits (lits : List UInt8) (f : List Directive) (s : List UInt8) :
    scan (lits.map .lit ++ f) (lits ++ s) = scan f s := by
  induction lits with
  | nil => rfl
  | cons c lits ih => simpa [scan] using ih

/-- A field that is there gives its value. -/
theorem scan_field {lits s rest : List UInt8} {i : Int} (h : HasField lits s i rest)
    (f : List Directive) : scan (fieldOf lits f) s = clampLong i :: scan f rest := by
  obtain ⟨s', rfl, hr⟩ := h
  rw [fieldOf, scan_lits]
  simp only [scan, scanInt_of_reads hr]

/-- A field that is not there ends the scan. -/
theorem scan_no_field {lits s : List UInt8} (h : ¬ ∃ i rest, HasField lits s i rest)
    (f : List Directive) : scan (fieldOf lits f) s = [] := by
  induction lits generalizing s with
  | nil =>
    cases hv : scanInt s with
    | none => simp [fieldOf, scan, hv]
    | some p =>
      obtain ⟨i, hr, -⟩ := @reads_of_scanInt s p.2 p.1 hv
      exact absurd ⟨i, p.2, s, rfl, hr⟩ h
  | cons c lits ih =>
    cases s with
    | nil => rfl
    | cons x s =>
      by_cases hx : x = c
      · subst hx
        have hs : scan (fieldOf lits f) s = [] := ih fun ⟨i, rest, s', hs, hr⟩ =>
          h ⟨i, rest, s', by rw [hs]; rfl, hr⟩
        simpa [fieldOf, scan] using hs
      · simp [fieldOf, scan, hx]

/-- A numeral holds no NUL. -/
theorem numeral_ne_zero {s : List UInt8} {i : Int} (h : numeral s = some i) :
    ∀ c ∈ s, c ≠ 0 := by
  obtain ⟨neg, ds, hs, -, hd, -⟩ := numeral_eq_some h
  have hz : ∀ c ∈ ds, c ≠ 0 := by
    intro c hc h0
    have := hd c hc
    rw [h0] at this
    exact absurd this (by decide)
  intro c hc
  rcases sign_cases hs with ⟨rfl, -⟩ | ⟨rfl, -⟩ | ⟨rfl, -⟩
  · rcases List.mem_cons.1 hc with rfl | hc
    · decide
    · exact hz c hc
  · rcases List.mem_cons.1 hc with rfl | hc
    · decide
    · exact hz c hc
  · exact hz c hc

end Scanf
