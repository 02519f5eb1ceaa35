import Mathlib.Algebra.Group.Nat.Defs
import Mathlib.Data.List.GetD

/-!
# Byte memory

A memory has a byte at every address. `read` and `write` move a list of bytes; `load` and `store`
move a number of a given width, the lowest byte at the lowest address. What is written is read
back (`read_write`, `load_store`), and an access does not see a write to other addresses
(`read_congr`, `load_congr` with `write_outside`).
-/

namespace ByteMem

abbrev Mem := Nat → UInt8

variable {m m' : Mem} {a b i k n v : Nat} {bs : List UInt8}

/-! ## Lists of bytes -/

/-- The `n` bytes from `a` on. -/
def read (m : Mem) (a n : Nat) : List UInt8 := (List.range n).map fun i => m (a + i)

/-- `m` with the bytes `bs` from `a` on. -/
def write (m : Mem) (a : Nat) (bs : List UInt8) : Mem :=
  fun i => if a ≤ i then bs.getD (i - a) (m i) else m i

@[simp] theorem length_read : (read m a n).length = n := by simp [read]

theorem read_congr (h : ∀ i, a ≤ i → i < a + n → m' i = m i) : read m' a n = read m a n :=
  List.map_congr_left fun i hi =>
    h _ (Nat.le_add_right a i) (Nat.add_lt_add_left (List.mem_range.1 hi) a)

/-- A write changes nothing before and nothing behind its bytes. -/
theorem write_outside (h : i < a ∨ a + bs.length ≤ i) : write m a bs i = m i := by
  unfold write
  split
  · next hle => exact List.getD_eq_default _ _ (by omega)
  · rfl

theorem write_inside (h : i < bs.length) : write m a bs (a + i) = bs[i] := by
  rw [write, if_pos (Nat.le_add_right a i), Nat.add_sub_cancel_left, List.getD_eq_getElem _ _ h]

theorem read_write : read (write m a bs) a bs.length = bs := by
  refine List.ext_getElem (by simp) fun i h _ => ?_
  simp only [length_read] at h
  simp [read, write_inside h]

/-! ## Numbers -/

/-- The number with the bytes `bs`. -/
def ofBytes : List UInt8 → Nat
  | [] => 0
  | b :: bs => b.toNat + 256 * ofBytes bs

/-- The `n` lowest bytes of `v`. -/
def toBytes : Nat → Nat → List UInt8
  | 0, _ => []
  | n + 1, v => UInt8.ofNat v :: toBytes n (v / 256)

def load (m : Mem) (a n : Nat) : Nat := ofBytes (read m a n)

def store (m : Mem) (a n v : Nat) : Mem := write m a (toBytes n v)

@[simp] theorem length_toBytes : (toBytes n v).length = n := by
  induction n generalizing v with
  | zero => rfl
  | succ n ih => simp [toBytes, ih]

theorem ofBytes_lt : ofBytes bs < 256 ^ bs.length := by
  induction bs with
  | nil => exact Nat.one_pos
  | cons b bs ih =>
    have hb : b.toNat < 256 := b.toNat_lt
    rw [ofBytes, List.length_cons, Nat.pow_succ]
    omega

theorem load_lt : load m a n < 256 ^ n := by
  simpa [load] using @ofBytes_lt (read m a n)

theorem ofBytes_toBytes (h : v < 256 ^ n) : ofBytes (toBytes n v) = v := by
  induction n generalizing v with
  | zero => rw [Nat.pow_zero] at h; simp [toBytes, ofBytes]; omega
  | succ n ih =>
    have hq : v / 256 < 256 ^ n := by
      rw [Nat.pow_succ] at h
      exact Nat.div_lt_of_lt_mul (by omega)
    rw [toBytes, ofBytes, ih hq, UInt8.toNat_ofNat']
    omega

theorem store_outside (h : i < a ∨ a + n ≤ i) : store m a n v i = m i :=
  write_outside (by simpa using h)

theorem load_congr (h : ∀ i, a ≤ i → i < a + n → m' i = m i) : load m' a n = load m a n :=
  congrArg ofBytes (read_congr h)

@[simp] theorem load_store (h : v < 256 ^ n) : load (store m a n v) a n = v := by
  have hr : read (store m a n v) a n = toBytes n v := by
    simpa [store] using @read_write m a (toBytes n v)
  rw [load, hr, ofBytes_toBytes h]

/-- A load does not see a store to other addresses. -/
theorem load_store_of_disjoint (h : b + k ≤ a ∨ a + n ≤ b) :
    load (store m a n v) b k = load m b k :=
  load_congr fun _ _ _ => store_outside (by omega)

/-- A load does not see a write to other addresses. -/
theorem load_write_of_disjoint (h : b + k ≤ a ∨ a + bs.length ≤ b) :
    load (write m a bs) b k = load m b k :=
  load_congr fun _ _ _ => write_outside (by omega)

end ByteMem
