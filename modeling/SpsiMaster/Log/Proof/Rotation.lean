import Mathlib.Data.List.Range
import SpsiMaster.Lib.Run
import SpsiMaster.Log.Proof.Reset

/-!
# Rotation

The numbers are cut into windows of 200000, which go to the two files in turn. A file is begun
anew with the first number of each of its windows (the window that begins with 0 lacks that
number), so it holds the records of its newest window.

`log_keepsRecent`: whatever reboots come in between, the 200000 newest records are kept, each in
one file and once.
-/

namespace Spsi

open CInt Printf

/-! ## Windows -/

/-- The windows of a file start at the numbers that are this far in front of a multiple of
400000. -/
def LogFile.shift : LogFile → Nat
  | .top => 0
  | .down => 200000

/-- `k` belongs to the window of `f` that is the newest at `n`. -/
def InWindow (f : LogFile) (n k : Nat) : Prop :=
  (k + f.shift) % 400000 < 200000 ∧ (k + f.shift) / 400000 = (n + f.shift) / 400000

instance (f : LogFile) (n k : Nat) : Decidable (InWindow f n k) :=
  inferInstanceAs (Decidable (_ ∧ _))

theorem target_eq_iff {n : UInt32} {f : LogFile} :
    target n = f ↔ (n.toNat + f.shift) % 400000 < 200000 := by
  have hlt : n % 400000 < 200000 ↔ n.toNat % 400000 < 200000 := by
    rw [UInt32.lt_iff_toNat_lt, UInt32.toNat_mod]
    rfl
  unfold target
  split
  · next h =>
    have := hlt.1 h
    cases f <;> simp [LogFile.shift] <;> omega
  · next h =>
    have := mt hlt.2 h
    cases f <;> simp [LogFile.shift] <;> omega

theorem rotates_iff {n : UInt32} :
    rotates n = true ↔ (n.toNat + (target n).shift) % 400000 = 0 := by
  have h0 : n % 400000 = 0 ↔ n.toNat % 400000 = 0 := by
    rw [← UInt32.toNat_inj, UInt32.toNat_mod]
    rfl
  have h2 : n % 400000 = 200000 ↔ n.toNat % 400000 = 200000 := by
    rw [← UInt32.toNat_inj, UInt32.toNat_mod]
    rfl
  have ht := (@target_eq_iff n (target n)).1 rfl
  simp only [rotates, Bool.decide_or, Bool.or_eq_true, decide_eq_true_eq, h0, h2]
  cases hf : target n <;> rw [hf] at ht <;> simp [LogFile.shift] at ht ⊢ <;> omega

/-- The next number begins a new window or belongs to the same ones. -/
theorem inWindow_succ {f : LogFile} {n k : Nat} (hk : k ≤ n) :
    InWindow f (n + 1) k ↔ (n + 1 + f.shift) % 400000 ≠ 0 ∧ InWindow f n k := by
  unfold InWindow
  omega

theorem inWindow_self {f : LogFile} {n : Nat} :
    InWindow f n n ↔ (n + f.shift) % 400000 < 200000 := and_iff_left rfl

/-! ## The records of a file -/

/-- A record: what the call was given and its number. -/
abbrev Record := FileArgs × Nat

/-- The records that `f` holds after the calls `rs`. -/
def kept (f : LogFile) (rs : List FileArgs) : List Record :=
  (rs.zipIdx 1).filter fun x => InWindow f rs.length x.2

/-- A file with these records. -/
def fileText (xs : List Record) : List UInt8 :=
  csvHeader ++ xs.flatMap fun x => recordText (UInt32.ofNat x.2) x.1

theorem fileText_concat (xs : List Record) (x : Record) :
    fileText (xs ++ [x]) = fileText xs ++ recordText (UInt32.ofNat x.2) x.1 := by
  simp [fileText]

theorem kept_concat (f : LogFile) (rs : List FileArgs) (a : FileArgs) :
    kept f (rs ++ [a]) =
      (if (rs.length + 1 + f.shift) % 400000 = 0 then [] else kept f rs) ++
        if (rs.length + 1 + f.shift) % 400000 < 200000 then [(a, rs.length + 1)] else [] := by
  have hold : (rs.zipIdx 1).filter (fun x => InWindow f (rs.length + 1) x.2) =
      if (rs.length + 1 + f.shift) % 400000 = 0 then [] else kept f rs := by
    have hle : ∀ x ∈ rs.zipIdx 1, x.2 ≤ rs.length := fun x hx =>
      Nat.le_of_lt_succ (List.snd_lt_of_mem_zipIdx hx)
    split
    · next h0 =>
      exact List.filter_eq_nil_iff.2 fun x hx => by
        simp [inWindow_succ (hle x hx), h0]
    · next h0 =>
      exact List.filter_congr fun x hx => by
        simp [inWindow_succ (hle x hx), h0]
  rw [kept, List.length_append, List.length_singleton, List.zipIdx_append, List.filter_append, hold]
  congr 1
  rw [List.zipIdx_singleton, Nat.add_comm 1 rs.length, List.filter_singleton]
  simp [inWindow_self]

/-- The numbers of the records of a file. -/
theorem kept_numbers (f : LogFile) (rs : List FileArgs) :
    (kept f rs).map (·.2) = (List.range' 1 rs.length).filter (InWindow f rs.length) := by
  rw [← List.zipIdx_map_snd 1 rs, List.filter_map]
  rfl

theorem kept_increasing (f : LogFile) (rs : List FileArgs) :
    (kept f rs).Pairwise fun x y => x.2 < y.2 := by
  have hnumbers : ((kept f rs).map (·.2)).Pairwise (· < ·) := by
    rw [kept_numbers]
    exact List.Pairwise.filter _ List.pairwise_lt_range'
  exact List.pairwise_map.1 hnumbers

/-- A window has 200000 numbers. -/
theorem kept_length_le (f : LogFile) (rs : List FileArgs) : (kept f rs).length ≤ 200000 := by
  have hnodup : ((kept f rs).map fun x => x.2 + f.shift).Nodup :=
    List.pairwise_map.2 ((kept_increasing f rs).imp fun h => by omega)
  have hsub : ((kept f rs).map fun x => x.2 + f.shift) ⊆
      List.range' (400000 * ((rs.length + f.shift) / 400000)) 200000 := by
    intro m hm
    obtain ⟨x, hx, rfl⟩ := List.mem_map.1 hm
    have hw : InWindow f rs.length x.2 := by simpa using (List.mem_filter.1 hx).2
    rw [List.mem_range'_1]
    unfold InWindow at hw
    omega
  simpa using (List.subperm_of_subset hnodup hsub).length_le

/-- Of the newest numbers each belongs to one window. -/
theorem inWindow_newest {n k : Nat} (h : n < k + 200000) (hk : k ≤ n) :
    InWindow .top n k ↔ ¬ InWindow .down n k := by
  simp only [InWindow, LogFile.shift]
  omega

theorem count_kept (f : LogFile) (rs : List FileArgs) {k : Nat} (h1 : 1 ≤ k) (hk : k ≤ rs.length) :
    ((kept f rs).map (·.2)).count k = if InWindow f rs.length k then 1 else 0 := by
  rw [kept_numbers, List.Nodup.count (List.Nodup.filter _ List.nodup_range')]
  have hmem : k ∈ List.range' 1 rs.length := by
    rw [List.mem_range'_1]
    omega
  simp [List.mem_filter, hmem]

/-! ## Runs -/

/-- A call of `File_Output` that takes the mutex, and a boot with `boot_times` nonzero. -/
inductive LogAct where
  | output (a : FileArgs)
  | reboot
  deriving DecidableEq

/-- `File_Output` or `ID_Init`. -/
def logStep (l : Logger) : LogAct → Logger
  | .output a => l.fileOutput a
  | .reboot => .idInit l.store

/-- The calls of a run. -/
def outputs (as : List LogAct) : List FileArgs := as.filterMap fun
  | .output a => some a
  | .reboot => none

/-- The log after the calls `rs`. -/
structure Holds (rs : List FileArgs) (l : Logger) : Prop where
  globalNums : l.globalNums = UInt32.ofNat rs.length
  id : l.store.env .id = some (int (i32 l.globalNums))
  booted : l.store.flashGet .bootTimes ≠ 0
  file : ∀ f, l.store.file f = some (fileText (kept f rs))

/-- The files are the header and records in order, the windows are in their files, the records of
the last 200000 calls are there, and there are no more than 200000 in a file. -/
def KeepsRecent (rs : List FileArgs) (l : Logger) : Prop :=
  ∃ records : LogFile → List Record,
    (∀ f, l.store.file f = some (fileText (records f)) ∧
      (records f).Pairwise (fun x y => x.2 < y.2) ∧ (records f).length ≤ 200000 ∧
      ∀ x ∈ records f, 1 ≤ x.2 ∧ rs[x.2 - 1]? = some x.1) ∧
    (∀ x ∈ records .top, x.2 % 400000 < 200000) ∧
    (∀ x ∈ records .down, ¬ x.2 % 400000 < 200000) ∧
    ∀ k, 1 ≤ k → rs.length < k + 200000 → k ≤ rs.length →
      ((records .top ++ records .down).map (·.2)).count k = 1

theorem Holds.keepsRecent {rs : List FileArgs} {l : Logger} (h : Holds rs l) :
    KeepsRecent rs l := by
  have hmem : ∀ f, ∀ x ∈ kept f rs, InWindow f rs.length x.2 := fun f x hx => by
    simpa using (List.mem_filter.1 hx).2
  refine ⟨fun f => kept f rs, fun f => ⟨h.file f, kept_increasing f rs, kept_length_le f rs,
    fun x hx => ?_⟩, fun x hx => ?_, fun x hx => ?_, fun k h1 hnew hk => ?_⟩
  · obtain ⟨hle, hget⟩ := List.mem_zipIdx_iff_le_and_getElem?_sub.1 (List.mem_filter.1 hx).1
    exact ⟨hle, hget⟩
  · exact (hmem .top x hx).1
  · have hdown := (hmem .down x hx).1
    simp only [LogFile.shift] at hdown
    omega
  · rw [List.map_append, List.count_append, count_kept _ _ h1 hk, count_kept _ _ h1 hk]
    by_cases hd : InWindow .down rs.length k
    · rw [if_neg fun ht => (inWindow_newest hnew hk).1 ht hd, if_pos hd]
    · rw [if_pos ((inWindow_newest hnew hk).2 hd), if_neg hd]

/-- The first boot. -/
theorem holds_idInit {s : Store} (h : s.flashGet .bootTimes = 0) : Holds [] (.idInit s) := by
  have hr := isReset_idInit h
  have hops : initOps s = flashChange .bootTimes 1 :: flashChange .id 0 ::
      (csvInit .top ++ csvInit .down) := if_pos h
  refine ⟨hr.globalNums, ?_, ?_, fun f => ?_⟩
  · rw [hr.globalNums, Logger.idInit, hops]
    rfl
  · have hboot := flashGet_bootTimes_cut h 5
    rw [List.take_of_length_le (by simp [hops, csvInit])] at hboot
    rw [Logger.idInit, hboot]
    decide
  · rw [hr.files f]
    exact congrArg some (List.append_nil csvHeader).symm

/-- A later boot finds the number of the last call. -/
theorem holds_reboot {rs : List FileArgs} {l : Logger} (h : Holds rs l) :
    Holds rs (.idInit l.store) := by
  have hl : Logger.idInit l.store = l := by
    rw [idInit_booted h.booted, Store.flashGet_of_env h.id]
  rwa [hl]

/-- A call adds its record. -/
theorem holds_output {rs : List FileArgs} {l : Logger} (h : Holds rs l) (a : FileArgs)
    (hn : rs.length + 1 < 2147483648) : Holds (rs ++ [a]) (l.fileOutput a) := by
  have hnum : l.globalNums + 1 = UInt32.ofNat (rs.length + 1) := by
    rw [h.globalNums, UInt32.ofNat_add]
    rfl
  have htoNat : (l.globalNums + 1).toNat = rs.length + 1 := by
    rw [hnum, UInt32.toNat_ofNat']
    omega
  refine ⟨?_, ?_, ?_, fun f => ?_⟩
  · rw [List.length_append]
    exact hnum
  · exact l.fileOutput_id a
  · have hboot := l.fileOutput_bootTimes a
    rw [Store.flashGet, hboot]
    exact h.booted
  · rw [l.fileOutput_file a f, kept_concat, h.file f]
    by_cases hf : target (l.globalNums + 1) = f
    · have hin := target_eq_iff.1 hf
      have hrot := @rotates_iff (l.globalNums + 1)
      rw [hf, htoNat] at hrot
      rw [htoNat] at hin
      rw [if_pos hf, if_pos hin, fileText_concat, hnum]
      by_cases h0 : (rs.length + 1 + f.shift) % 400000 = 0
      · rw [if_pos h0, ← hnum, if_pos (hrot.2 h0)]
        exact congrArg (fun t => some (t ++ _)) (List.append_nil csvHeader).symm
      · rw [if_neg h0, ← hnum, if_neg (mt hrot.1 h0)]
        rfl
    · have hin := mt target_eq_iff.2 hf
      rw [htoNat] at hin
      have h0 : ¬ (rs.length + 1 + f.shift) % 400000 = 0 := fun h0 => hin (by rw [h0]; decide)
      rw [if_neg hf, if_neg hin, if_neg h0, List.append_nil]

theorem holds_run {rs : List FileArgs} {l : Logger} (h : Holds rs l) (as : List LogAct)
    (hn : rs.length + (outputs as).length < 2147483648) :
    Holds (rs ++ outputs as) (as.foldl logStep l) := by
  induction as generalizing rs l with
  | nil =>
    rw [outputs, List.filterMap_nil, List.append_nil]
    exact h
  | cons act as ih =>
    cases act with
    | reboot => exact ih (holds_reboot h) hn
    | output a =>
      have hcons : outputs (.output a :: as) = a :: outputs as := rfl
      rw [hcons, List.length_cons] at hn
      have hstep := ih (holds_output h a (by omega)) (by simp; omega)
      rwa [List.append_assoc, List.singleton_append] at hstep

/-- **The log keeps the recent past**: from the first boot on, through all calls and reboots. -/
theorem log_keepsRecent {s : Store} (hboot : s.flashGet .bootTimes = 0) (as : List LogAct)
    (hn : (outputs as).length < 2147483648) :
    KeepsRecent (outputs as) (as.foldl logStep (.idInit s)) := by
  have hrun := holds_run (holds_idInit hboot) as (by simpa using hn)
  rw [List.nil_append] at hrun
  exact hrun.keepsRecent

/-- A reset storage, a call, a reboot and a second call. -/
theorem log_keepsRecent_reboot :
    KeepsRecent [⟨1, 1, 1, 1, 0, -70, 1, 0⟩, ⟨0, 1, 1, 1, 0, -80, 1, 0⟩]
      ([.output ⟨1, 1, 1, 1, 0, -70, 1, 0⟩, .reboot, .output ⟨0, 1, 1, 1, 0, -80, 1, 0⟩].foldl
        logStep (.idInit {})) :=
  @log_keepsRecent {} (by decide) _ (by decide)

end Spsi
