import Mathlib.Data.Nat.Digits.Lemmas
import SpsiMaster.Lib.Scanf

/-!
# Integer output of `sprintf`

The conversions `%d` (`%ld`, with the same range) and `%0wd` as byte strings. What they print is a
numeral of the value (`numeral_int`, `numeral_zeroPadded`), so `sscanf` and `atol` read it back.
-/

namespace Printf

open Scanf CInt

def digit (d : Nat) : UInt8 := UInt8.ofNat (48 + d)

/-- A natural number in decimal, without leading zeros. -/
def decimal (n : Nat) : List UInt8 :=
  if n = 0 then [48] else (Nat.digits 10 n).reverse.map digit

/-- `%d`. -/
def int (i : Int) : List UInt8 :=
  if i < 0 then 45 :: decimal i.natAbs else decimal i.natAbs

/-- `%0wd`: zeros fill the field, behind the sign. -/
def zeroPadded (w : Nat) (i : Int) : List UInt8 :=
  let ds := decimal i.natAbs
  if i < 0 then 45 :: (List.replicate (w - 1 - ds.length) 48 ++ ds)
  else List.replicate (w - ds.length) 48 ++ ds

/-- The bytes of a C string literal, without its NUL. -/
def ascii (s : String) : List UInt8 := s.toList.map fun c => UInt8.ofNat c.toNat

/-! ## Decimal digits -/

theorem toNat_digit {d : Nat} (h : d < 10) : (digit d).toNat = 48 + d := by
  rw [digit, UInt8.toNat_ofNat']
  omega

theorem isDigit_digit {d : Nat} (h : d < 10) : isDigit (digit d) = true := by
  have ht := toNat_digit h
  simp only [isDigit, Bool.and_eq_true, decide_eq_true_eq, UInt8.le_iff_toNat_le]
  rw [ht]
  exact ⟨Nat.le_add_right 48 d, show 48 + d ≤ 57 by omega⟩

theorem digitsVal_append_digit (ds : List UInt8) {d : Nat} (h : d < 10) :
    digitsVal (ds ++ [digit d]) = 10 * digitsVal ds + d := by
  simp only [digitsVal, List.foldl_append, List.foldl_cons, List.foldl_nil, toNat_digit h]
  omega

/-- The value of digits that are given least significant first. -/
theorem digitsVal_reverse {ds : List Nat} (h : ∀ d ∈ ds, d < 10) :
    digitsVal (ds.reverse.map digit) = Nat.ofDigits 10 ds := by
  induction ds with
  | nil => rfl
  | cons d ds ih =>
    have hd : d < 10 := h d List.mem_cons_self
    rw [List.reverse_cons, List.map_append, List.map_singleton, digitsVal_append_digit _ hd,
      ih fun e he => h e (List.mem_cons_of_mem _ he), Nat.ofDigits_cons]
    omega

theorem digitsVal_decimal (n : Nat) : digitsVal (decimal n) = n := by
  unfold decimal
  split
  · next h => rw [h]; rfl
  · rw [digitsVal_reverse fun d hd => Nat.digits_lt_base (by decide) hd, Nat.ofDigits_digits]

theorem isDigit_decimal (n : Nat) : ∀ c ∈ decimal n, isDigit c = true := by
  intro c hc
  unfold decimal at hc
  split at hc
  · rw [List.mem_singleton.1 hc]
    rfl
  · obtain ⟨d, hd, rfl⟩ := List.mem_map.1 hc
    exact isDigit_digit (Nat.digits_lt_base (by decide) (List.mem_reverse.1 hd))

theorem decimal_ne_nil (n : Nat) : decimal n ≠ [] := by
  unfold decimal
  split
  · exact List.cons_ne_nil _ _
  · next h => simpa using Nat.digits_ne_nil_iff_ne_zero.2 h

/-- A number below `10 ^ w` has at most `w` digits. -/
theorem length_decimal_le {n w : Nat} (hw : 0 < w) (h : n < 10 ^ w) : (decimal n).length ≤ w := by
  unfold decimal
  split
  · exact hw
  · rw [List.length_map, List.length_reverse]
    exact (Nat.digits_length_le_iff (by decide) n).2 h

/-- What `%d` prints has a sign and at most as many digits as the bound. -/
theorem length_int_le_succ {i : Int} {w : Nat} (hw : 0 < w) (h : i.natAbs < 10 ^ w) :
    (int i).length ≤ w + 1 := by
  have hlen := length_decimal_le hw h
  unfold int
  split
  · exact Nat.succ_le_succ hlen
  · exact Nat.le_succ_of_le hlen

/-- Without a sign. -/
theorem length_int_natCast_le {n w : Nat} (hw : 0 < w) (h : n < 10 ^ w) :
    (int (n : Int)).length ≤ w := by
  have hpos : ¬ (n : Int) < 0 := by omega
  rw [int, if_neg hpos]
  exact length_decimal_le hw h

theorem digitsVal_replicate_append (k : Nat) (ds : List UInt8) :
    digitsVal (List.replicate k 48 ++ ds) = digitsVal ds := by
  induction k with
  | zero => rfl
  | succ k ih => simpa [List.replicate_succ, digitsVal] using ih

/-! ## What is printed is read back -/

/-- Zeros in front of the digits do not change the value. -/
theorem numeral_padded (k : Nat) (i : Int) :
    numeral (List.replicate k 48 ++ decimal i.natAbs) = some (i.natAbs : Int) := by
  have hd : ∀ c ∈ List.replicate k 48 ++ decimal i.natAbs, isDigit c = true := by
    intro c hc
    rcases List.mem_append.1 hc with hc | hc
    · rw [(List.mem_replicate.1 hc).2]
      rfl
    · exact isDigit_decimal _ c hc
  have hne : List.replicate k 48 ++ decimal i.natAbs ≠ [] := by
    simp [decimal_ne_nil]
  obtain ⟨d, ds, he⟩ := List.exists_cons_of_ne_nil hne
  have hs : sign (List.replicate k 48 ++ decimal i.natAbs) =
      (false, List.replicate k 48 ++ decimal i.natAbs) := by
    rw [he]
    exact sign_digit (hd d (by rw [he]; exact List.mem_cons_self)) ds
  rw [numeral, hs]
  simp only [if_pos (And.intro hne (List.all_eq_true.2 hd)), digitsVal_replicate_append,
    digitsVal_decimal, signed]
  rfl

/-- A minus sign in front of a number. -/
theorem numeral_minus {ds : List UInt8} {n : Nat} (h : numeral ds = some (n : Int))
    (hd : ∀ c ∈ ds, isDigit c = true) : numeral (45 :: ds) = some (-(n : Int)) := by
  obtain ⟨neg, ds', hs, hne, hall, hv⟩ := numeral_eq_some h
  obtain ⟨d, ds, rfl⟩ : ∃ d t, ds = d :: t := by
    cases ds with
    | nil =>
      obtain ⟨-, rfl⟩ := Prod.mk.inj hs
      exact absurd rfl hne
    | cons d t => exact ⟨d, t, rfl⟩
  rw [sign_digit (hd d List.mem_cons_self)] at hs
  obtain ⟨rfl, rfl⟩ := Prod.mk.inj hs
  simp only [numeral, sign]
  rw [if_pos ⟨hne, List.all_eq_true.2 hall⟩, hv]
  rfl

theorem numeral_int (i : Int) : numeral (int i) = some i := by
  have h := numeral_padded 0 i
  rw [List.replicate_zero, List.nil_append] at h
  unfold int
  split
  · rw [numeral_minus h (isDigit_decimal _)]
    congr 1
    omega
  · rw [h]
    congr 1
    omega

/-- What is printed are digits and a sign. -/
theorem mem_int {i : Int} {c : UInt8} (h : c ∈ int i) : isDigit c = true ∨ c = 45 := by
  unfold int at h
  split at h
  · rcases List.mem_cons.1 h with rfl | h
    · exact .inr rfl
    · exact .inl (isDigit_decimal _ c h)
  · exact .inl (isDigit_decimal _ c h)

theorem numeral_zeroPadded (w : Nat) (i : Int) : numeral (zeroPadded w i) = some i := by
  simp only [zeroPadded]
  split
  · rw [numeral_minus (numeral_padded _ i)]
    · congr 1
      omega
    · intro c hc
      rcases List.mem_append.1 hc with hc | hc
      · rw [(List.mem_replicate.1 hc).2]
        rfl
      · exact isDigit_decimal _ c hc
  · rw [numeral_padded]
    congr 1
    omega

/-- A field that is wide enough has its width. -/
theorem length_zeroPadded {w n : Nat} (hw : 0 < w) (h : n < 10 ^ w) :
    (zeroPadded w (n : Int)).length = w := by
  have hlen : (decimal n).length ≤ w := length_decimal_le hw h
  have hpos : ¬ (n : Int) < 0 := by omega
  simp only [zeroPadded, if_neg hpos, Int.natAbs_natCast, List.length_append,
    List.length_replicate]
  omega

/-- A field is as wide as its number, or as it is told. -/
theorem length_zeroPadded_eq (w : Nat) (i : Int) :
    (zeroPadded w i).length = max w (int i).length := by
  simp only [zeroPadded, int]
  split
  · rw [List.length_cons, List.length_cons, List.length_append, List.length_replicate]
    omega
  · rw [List.length_append, List.length_replicate]
    omega

/-! ## `sprintf` to a buffer -/

/-- A buffer from `malloc`; a byte that nothing has been written to has no value. -/
def malloc (size : Nat) : List (Option UInt8) := List.replicate size none

/-- `sprintf` to the front of a buffer. A text that does not fit makes the list longer. -/
def sprintf (buf : List (Option UInt8)) (text : List UInt8) : List (Option UInt8) :=
  (text ++ [0]).map some ++ buf.drop (text.length + 1)

/-- The text fits with its NUL. -/
theorem length_sprintf_iff (size : Nat) (text : List UInt8) :
    (sprintf (malloc size) text).length = size ↔ text.length + 1 ≤ size := by
  simp only [sprintf, malloc, List.length_append, List.length_map, List.length_cons,
    List.length_nil, List.length_drop, List.length_replicate]
  omega

/-- The front of the buffer has been written if it is no longer than the text with its NUL. -/
theorem take_sprintf {n : Nat} {text : List UInt8} (h : n ≤ text.length + 1)
    (buf : List (Option UInt8)) :
    (sprintf buf text).take n = ((text ++ [0]).take n).map some := by
  have hlen : n ≤ ((text ++ [0]).map (some : UInt8 → Option UInt8)).length := by simpa using h
  rw [sprintf, List.take_append_of_le_length hlen, List.map_take]

end Printf
