import SpsiMaster.App.World
import SpsiMaster.Log.Store

/-!
# The log

`applications/file.c`: `ID_Init`, which resets the storage at the first boot, and `File_Output`,
which appends a record to one of the two files and stores its number. Here a call of
`File_Output` has taken `spsi_read_mutex` and runs to its end, or until power is lost; calls that
contend for the mutex are in `Log/Contention.lean`.
-/

namespace Spsi

open CInt Printf

/-- The columns behind the number of a record. -/
def FileArgs.columns (a : FileArgs) : List Int :=
  [if 0 < a.select then 433 else 4068, a.valve, a.psi, a.shake, a.sendNum, a.rssi, a.first,
    a.button]

/-- `sprintf(buf, "%d %d %d %d %d %d %d %d %d\n", Global_Nums, …)`. -/
def recordText (n : UInt32) (a : FileArgs) : List UInt8 :=
  int (i32 n) ++ (a.columns.flatMap (fun i => 32 :: int i) ++ [10])

/-- The storage operations of `File_Output` once `Global_Nums` is `n`. -/
def outputOps (n : UInt32) (a : FileArgs) : List StoreOp :=
  (if n % 400000 < 200000 then
    (if n % 400000 = 0 then csvInit .top else []) ++ [writeCsv .top (recordText n a)]
  else
    (if n % 400000 = 200000 then csvInit .down else []) ++ [writeCsv .down (recordText n a)]) ++
  [flashChange .id n]

/-- The storage operations of `ID_Init`. -/
def initOps (s : Store) : List StoreOp :=
  if s.flashGet .bootTimes = 0 then
    flashChange .bootTimes 1 :: flashChange .id 0 :: (csvInit .top ++ csvInit .down)
  else []

/-- `Global_Nums` and the storage. -/
structure Logger where
  globalNums : UInt32
  store : Store

namespace Logger

/-- `ID_Init`, at a boot that finds the storage `s`. -/
def idInit (s : Store) : Logger where
  globalNums := if s.flashGet .bootTimes = 0 then 0 else s.flashGet .id
  store := s.applyAll (initOps s)

/-- `File_Output`. -/
def fileOutput (l : Logger) (a : FileArgs) : Logger where
  globalNums := l.globalNums + 1
  store := l.store.applyAll (outputOps (l.globalNums + 1) a)

/-- A call of `File_Output` in which power is lost after `done` storage operations, unless these
are all; then the next boot. -/
def cutOutput (l : Logger) (a : FileArgs) (done : Nat) : Logger :=
  let ops := outputOps (l.globalNums + 1) a
  if done < ops.length then idInit (l.store.applyAll (ops.take done)) else l.fileOutput a

end Logger

/-- Boots of which the one number `i` of the list loses power after that many operations of
`ID_Init`, and what they leave in the storage. -/
def cutInits (s : Store) (cuts : List Nat) : Store :=
  cuts.foldl (fun s done => s.applyAll ((initOps s).take done)) s

/-! ## The operations by file -/

/-- The file that takes record `n`. -/
def target (n : UInt32) : LogFile := if n % 400000 < 200000 then .top else .down

/-- Whether record `n` is the first one of its file's next window. -/
def rotates (n : UInt32) : Bool := n % 400000 = 0 ∨ n % 400000 = 200000

/-- A call rotates the file when that is due, appends to it, and stores the number. -/
theorem outputOps_eq (n : UInt32) (a : FileArgs) : outputOps n a =
    (if rotates n then csvInit (target n) else []) ++
      [writeCsv (target n) (recordText n a), flashChange .id n] := by
  unfold outputOps target rotates
  by_cases hlt : n % 400000 < 200000
  · have hne : n % 400000 ≠ 200000 := fun h => by rw [h] at hlt; exact absurd hlt (by decide)
    simp [hlt, hne]
  · have hne : n % 400000 ≠ 0 := fun h => by rw [h] at hlt; exact hlt (by decide)
    simp [hlt, hne]

/-! ## What a call changes -/

/-- No operation of a call sets `boot_times` or changes the other file. -/
theorem mem_outputOps {n : UInt32} {a : FileArgs} {op : StoreOp} (h : op ∈ outputOps n a) :
    op.key ≠ some .bootTimes ∧ ∀ f, target n ≠ f → op.file ≠ some f := by
  have hinit : ∀ op ∈ csvInit (target n), op.key ≠ some .bootTimes ∧
      ∀ f, target n ≠ f → op.file ≠ some f := by
    simp [csvInit, writeCsv, StoreOp.key, StoreOp.file]
  rw [outputOps_eq, List.mem_append] at h
  rcases h with h | h
  · split at h
    · exact hinit op h
    · cases h
  · rcases List.mem_cons.1 h with rfl | h
    · exact ⟨of_decide_eq_false rfl, fun f hf he => hf (Option.some.inj he)⟩
    · rw [List.mem_singleton.1 h]
      exact ⟨of_decide_eq_false rfl, fun f _ => of_decide_eq_false rfl⟩

namespace Logger

variable (l : Logger) (a : FileArgs)

theorem fileOutput_bootTimes :
    (l.fileOutput a).store.env .bootTimes = l.store.env .bootTimes :=
  Store.applyAll_env_of_ne (fun _ h => (mem_outputOps h).1) _

theorem fileOutput_id :
    (l.fileOutput a).store.env .id = some (int (i32 (l.globalNums + 1))) := by
  simp only [fileOutput, outputOps_eq, Store.applyAll_append]
  simp [flashChange, Store.apply]

/-- A call appends its record to the target, behind the header alone when it has rotated it, and
leaves the other file. -/
theorem fileOutput_file (f : LogFile) : (l.fileOutput a).store.file f =
    if target (l.globalNums + 1) = f then
      some ((if rotates (l.globalNums + 1) then csvHeader else (l.store.file f).getD []) ++
        recordText (l.globalNums + 1) a)
    else l.store.file f := by
  split
  · next hf =>
    simp only [fileOutput, outputOps_eq, ← hf]
    cases rotates (l.globalNums + 1) <;> simp [csvInit, writeCsv, flashChange, Store.apply]
  · next hf => exact Store.applyAll_file_of_ne (fun _ h => (mem_outputOps h).2 f hf) _

end Logger

end Spsi
