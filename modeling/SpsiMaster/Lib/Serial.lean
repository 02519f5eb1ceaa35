import Mathlib.Algebra.Order.Group.Nat

/-!
# Counters that wrap around

A counter of period `M` shows `n % M` after `n` steps. `sub M` is the difference of two readings.
While two counts are not too far apart, the readings tell how far (`sub_eq`) and which of the two
is the later one (`sub_lt_iff`).
-/

namespace Serial

/-- The difference of two readings. -/
def sub (M x y : Nat) : Nat := (x + M - y) % M

variable {M a b h : Nat}

/-- The reading of a later count, from that of an earlier one. -/
theorem mod_add_eq (hM : 0 < M) (hk : h < M) :
    (b + h) % M = if b % M + h < M then b % M + h else b % M + h - M := by
  rw [Nat.add_mod, Nat.mod_eq_of_lt hk]
  have hr := Nat.mod_lt b hM
  split
  · next hlt => exact Nat.mod_eq_of_lt hlt
  · next hge => rw [Nat.mod_eq_sub_mod (Nat.le_of_not_lt hge), Nat.mod_eq_of_lt (by omega)]

theorem sub_eq (hle : b ≤ a) (hlt : a < b + M) : sub M (a % M) (b % M) = a - b := by
  obtain ⟨k, rfl⟩ := Nat.exists_eq_add_of_le hle
  have hk : k < M := Nat.lt_of_add_lt_add_left hlt
  have hM : 0 < M := Nat.zero_lt_of_lt hk
  have hr := Nat.mod_lt b hM
  rw [sub, mod_add_eq hM hk, Nat.add_sub_cancel_left]
  split
  · rw [show b % M + k + M - b % M = k + M by omega, Nat.add_mod_right, Nat.mod_eq_of_lt hk]
  · rw [show b % M + k - M + M - b % M = k by omega, Nat.mod_eq_of_lt hk]

/-- The difference the other way round. -/
theorem sub_eq_of_lt (hlt : a < b) (hle : b ≤ a + M) : sub M (a % M) (b % M) = a + M - b := by
  rw [← Nat.add_mod_right a M, sub_eq hle (by omega)]

/-- **The later of two counts** is seen in their readings, up to `h` one way and `M - h` the other
way. -/
theorem sub_lt_iff (hh : h ≤ M) (hab : a < b + h) (hba : b ≤ a + (M - h)) :
    sub M (a % M) (b % M) < h ↔ b ≤ a := by
  by_cases hle : b ≤ a
  · rw [sub_eq hle (by omega)]
    omega
  · rw [sub_eq_of_lt (Nat.lt_of_not_le hle) (by omega)]
    omega

theorem sub_eq_zero_iff (hab : a < b + M) (hba : b < a + M) :
    sub M (a % M) (b % M) = 0 ↔ a = b := by
  by_cases hle : b ≤ a
  · rw [sub_eq hle hab]
    omega
  · rw [sub_eq_of_lt (Nat.lt_of_not_le hle) (by omega)]
    omega

end Serial
