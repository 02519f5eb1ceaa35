import Mathlib.Tactic.Common

/-!
# C integers

The unsigned 8-bit and the signed 32-bit integers of a C implementation, as natural numbers and
integers with the conversions written out.
-/

namespace CInt

/-- The value of a `uint8_t` assignment. -/
def u8 (n : Nat) : Nat := n % 256

theorem u8_of_lt {n : Nat} (h : n < 256) : u8 n = n := Nat.mod_eq_of_lt h

/-- The value of a `uint8_t` assignment from a signed expression. -/
def u8OfInt (i : Int) : Nat := (i % 256).toNat

/-- The value of an `int8_t` assignment from a byte. -/
def i8 (b : UInt8) : Int := if b.toNat < 128 then b.toNat else (b.toNat : Int) - 256

/-- The value of an `int32_t` (`int`, `long`) assignment from a `uint32_t`. -/
def i32 (n : UInt32) : Int := if n.toNat < 2147483648 then n.toNat else (n.toNat : Int) - 4294967296

theorem i32_of_lt {n : UInt32} (h : n.toNat < 2147483648) : i32 n = n.toNat := if_pos h

/-- The value of a `uint32_t` assignment from a signed expression. -/
def u32OfInt (i : Int) : UInt32 := UInt32.ofNat (i % 4294967296).toNat

/-- `!n`. -/
def cNot (n : Nat) : Nat := if n = 0 then 1 else 0

theorem cNot_le (n : Nat) : cNot n ≤ 1 := by
  unfold cNot
  split <;> decide

/-- The range of `long` and `int`. -/
def InLong (i : Int) : Prop := -2147483648 ≤ i ∧ i ≤ 2147483647

instance (i : Int) : Decidable (InLong i) := inferInstanceAs (Decidable (_ ∧ _))

/-- The nearest `long`, as `strtol` returns it. -/
def clampLong (i : Int) : Int := max (-2147483648) (min i 2147483647)

theorem clampLong_of_inLong {i : Int} (h : InLong i) : clampLong i = i := by
  obtain ⟨h1, h2⟩ := h
  unfold clampLong
  omega

theorem inLong_clampLong (i : Int) : InLong (clampLong i) := by
  unfold InLong clampLong
  omega

theorem clampLong_eq_self {i : Int} : clampLong i = i ↔ InLong i :=
  ⟨fun h => h ▸ inLong_clampLong i, clampLong_of_inLong⟩

/-- `l == n` for a `long l` and a `uint32_t n`: `l` is converted to unsigned. -/
def longEqU32 (l : Int) (n : UInt32) : Bool := l % 4294967296 == n.toNat

end CInt
