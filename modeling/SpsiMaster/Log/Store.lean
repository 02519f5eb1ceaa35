import SpsiMaster.Lib.Printf

/-!
# Persistent storage

The key-value store of EasyFlash and the two log files, with the functions of
`applications/flashwork.c` and `filesystem/little.c` on them. A function that writes is the list
of its storage operations, so that power can be lost between any two of them. The operations
themselves succeed.
-/

namespace Spsi

open CInt Printf

inductive Key where
  | id
  | bootTimes
  deriving DecidableEq

/-- `/SPSI_TopLog.csv` and `/SPSI_DownLog.csv`. -/
inductive LogFile where
  | top
  | down
  deriving DecidableEq

theorem LogFile.forall {p : LogFile → Prop} : (∀ f, p f) ↔ p .top ∧ p .down :=
  ⟨fun h => ⟨h _, h _⟩, fun h f => match f with | .top => h.1 | .down => h.2⟩

instance {p : LogFile → Prop} [DecidablePred p] : Decidable (∀ f, p f) :=
  decidable_of_iff _ LogFile.forall.symm

/-- The values of the keys and the contents of the files, as far as they exist. -/
structure Store where
  env : Key → Option (List UInt8) := fun _ => none
  file : LogFile → Option (List UInt8) := fun _ => none

/-- `ef_set_env`, `unlink`, and `open` with `O_CREAT | O_APPEND` followed by `write`. -/
inductive StoreOp where
  | setEnv (k : Key) (value : List UInt8)
  | unlink (f : LogFile)
  | append (f : LogFile) (buf : List UInt8)
  deriving DecidableEq

namespace Store

def apply (s : Store) : StoreOp → Store
  | .setEnv k value => { s with env := Function.update s.env k (some value) }
  | .unlink f => { s with file := Function.update s.file f none }
  | .append f buf =>
    { s with file := Function.update s.file f (some ((s.file f).getD [] ++ buf)) }

def applyAll (s : Store) (ops : List StoreOp) : Store := ops.foldl apply s

@[simp] theorem applyAll_nil (s : Store) : s.applyAll [] = s := rfl

@[simp] theorem applyAll_cons (s : Store) (op : StoreOp) (ops : List StoreOp) :
    s.applyAll (op :: ops) = (s.apply op).applyAll ops := rfl

theorem applyAll_append (s : Store) (ops ops' : List StoreOp) :
    s.applyAll (ops ++ ops') = (s.applyAll ops).applyAll ops' := List.foldl_append

end Store

/-- The key an operation sets. -/
def StoreOp.key : StoreOp → Option Key
  | .setEnv k _ => some k
  | _ => none

/-- The file an operation changes. -/
def StoreOp.file : StoreOp → Option LogFile
  | .setEnv _ _ => none
  | .unlink f => some f
  | .append f _ => some f

namespace Store

theorem apply_env_of_ne {op : StoreOp} {k : Key} (h : op.key ≠ some k) (s : Store) :
    (s.apply op).env k = s.env k := by
  cases op with
  | setEnv k' value => exact Function.update_of_ne (fun he => h (congrArg some he.symm)) _ _
  | unlink f => rfl
  | append f buf => rfl

theorem apply_file_of_ne {op : StoreOp} {f : LogFile} (h : op.file ≠ some f) (s : Store) :
    (s.apply op).file f = s.file f := by
  cases op with
  | setEnv k value => rfl
  | unlink f' => exact Function.update_of_ne (fun he => h (congrArg some he.symm)) _ _
  | append f' buf => exact Function.update_of_ne (fun he => h (congrArg some he.symm)) _ _

/-- A key that no operation sets keeps its value. -/
theorem applyAll_env_of_ne {ops : List StoreOp} {k : Key} (h : ∀ op ∈ ops, op.key ≠ some k)
    (s : Store) : (s.applyAll ops).env k = s.env k := by
  induction ops generalizing s with
  | nil => rfl
  | cons op ops ih =>
    rw [applyAll_cons, ih fun op' hop' => h op' (List.mem_cons_of_mem _ hop')]
    exact apply_env_of_ne (h op List.mem_cons_self) s

/-- A file that no operation changes keeps its contents. -/
theorem applyAll_file_of_ne {ops : List StoreOp} {f : LogFile} (h : ∀ op ∈ ops, op.file ≠ some f)
    (s : Store) : (s.applyAll ops).file f = s.file f := by
  induction ops generalizing s with
  | nil => rfl
  | cons op ops ih =>
    rw [applyAll_cons, ih fun op' hop' => h op' (List.mem_cons_of_mem _ hop')]
    exact apply_file_of_ne (h op List.mem_cons_self) s

/-! ## `flashwork.c` -/

/-- `Flash_Get_IDNums`, `Flash_Get_Boot`; what follows in memory behind the 64 bytes of
`read_value_temp` is not looked at. -/
def flashGet (s : Store) (k : Key) : UInt32 :=
  let temp := ((s.env k).getD []).take 64
  if 0 < temp.length then u32OfInt (Scanf.atol temp) else 0

end Store

/-- `Flash_IDNums_Change`, `Flash_Boot_Change`. -/
def flashChange (k : Key) (value : UInt32) : StoreOp := .setEnv k (int (i32 value))

/-! ## `little.c` -/

def csvHeader : List UInt8 := ascii "No: Freq: Valve: PSI: Shake: Tx: Rssi: First: Button:\n"

/-- `write_csv_top`, `write_csv_down`. -/
def writeCsv (f : LogFile) (buf : List UInt8) : StoreOp := .append f buf

/-- `csv_top_init`, `csv_down_init`. -/
def csvInit (f : LogFile) : List StoreOp := [.unlink f, writeCsv f csvHeader]

/-! ## What is stored is read back -/

theorem natAbs_i32_lt (n : UInt32) : (i32 n).natAbs < 10 ^ 10 := by
  have hn := n.toNat_lt
  unfold i32
  split <;> omega

theorem length_int_le (n : UInt32) : (int (i32 n)).length ≤ 11 :=
  length_int_le_succ (by decide) (natAbs_i32_lt n)

theorem u32OfInt_i32 (n : UInt32) : u32OfInt (i32 n) = n := by
  have hn := n.toNat_lt
  rw [← UInt32.toNat_inj, u32OfInt, UInt32.toNat_ofNat', i32]
  split <;> omega

theorem inLong_i32 (n : UInt32) : InLong (i32 n) := by
  have hn := n.toNat_lt
  unfold InLong i32
  split <;> omega

/-- A number that was stored under a key. -/
theorem Store.flashGet_of_env {s : Store} {k : Key} {n : UInt32}
    (h : s.env k = some (int (i32 n))) : s.flashGet k = n := by
  have htake : (int (i32 n)).take 64 = int (i32 n) :=
    List.take_of_length_le (Nat.le_trans (length_int_le n) (by decide))
  have hpos : 0 < (int (i32 n)).length := by
    unfold int
    split
    · exact Nat.succ_pos _
    · exact List.length_pos_of_ne_nil (decimal_ne_nil _)
  rw [Store.flashGet, h, Option.getD_some, htake, if_pos hpos, Scanf.atol_numeral (numeral_int _),
    clampLong_of_inLong (inLong_i32 n), u32OfInt_i32]

end Spsi
