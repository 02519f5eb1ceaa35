import SpsiMaster.Log.File

/-!
# The factory reset

At a boot with `boot_times` 0 `ID_Init` resets the storage in six operations, and sets
`boot_times` in the first of them. A boot after a power loss in between finds it set and takes
what the other operations have left undone for the log.

`reset_iff`: an interrupted reset comes to the same end exactly if nothing was left to do.
-/

namespace Spsi

open CInt Printf

/-- The log is reset: no record has been counted, and both files hold the header alone. -/
structure IsReset (l : Logger) : Prop where
  globalNums : l.globalNums = 0
  id : l.store.flashGet .id = 0
  files : ∀ f, l.store.file f = some csvHeader

/-- What a reset that is cut after `done` operations leaves is the reset storage: the storage `s`
held the values the other operations would have written. -/
def NothingLeft (s : Store) : Nat → Prop
  | 0 => True
  | 1 => s.flashGet .id = 0 ∧ ∀ f, s.file f = some csvHeader
  | 2 => ∀ f, s.file f = some csvHeader
  | 3 => False
  | 4 => s.file .down = some csvHeader
  | 5 => False
  | _ => True

/-! ## A boot that finds `boot_times` set -/

theorem initOps_booted {s : Store} (h : s.flashGet .bootTimes ≠ 0) : initOps s = [] := if_neg h

theorem cutInits_cons (s : Store) (done : Nat) (cuts : List Nat) :
    cutInits s (done :: cuts) = cutInits (s.applyAll ((initOps s).take done)) cuts := rfl

theorem cutInits_booted {s : Store} (h : s.flashGet .bootTimes ≠ 0) (cuts : List Nat) :
    cutInits s cuts = s := by
  induction cuts with
  | nil => rfl
  | cons done cuts ih =>
    have hs : s.applyAll ((initOps s).take done) = s := by
      rw [initOps_booted h, List.take_nil, Store.applyAll_nil]
    rw [cutInits_cons, hs, ih]

theorem idInit_booted {s : Store} (h : s.flashGet .bootTimes ≠ 0) :
    Logger.idInit s = ⟨s.flashGet .id, s⟩ := by
  rw [Logger.idInit, initOps_booted h, if_neg h, Store.applyAll_nil]

theorem isReset_booted {s : Store} (h : s.flashGet .bootTimes ≠ 0) :
    IsReset (.idInit s) ↔ s.flashGet .id = 0 ∧ ∀ f, s.file f = some csvHeader := by
  rw [idInit_booted h]
  exact ⟨fun hr => ⟨hr.id, hr.files⟩, fun ⟨hid, hfiles⟩ => ⟨hid, hid, hfiles⟩⟩

/-! ## The reset -/

section
variable {s : Store}

theorem isReset_idInit (h : s.flashGet .bootTimes = 0) : IsReset (.idInit s) := by
  rw [Logger.idInit, initOps, if_pos h, if_pos h]
  refine ⟨rfl, Store.flashGet_of_env rfl, LogFile.forall.2 ⟨?_, ?_⟩⟩
  · simp [csvInit, writeCsv, flashChange, Store.apply]
  · simp [csvInit, writeCsv, flashChange, Store.apply]

/-- The first operation of a reset is not undone by the others. -/
theorem flashGet_bootTimes_cut (h : s.flashGet .bootTimes = 0) (done : Nat) :
    (s.applyAll ((initOps s).take (done + 1))).flashGet .bootTimes = 1 := by
  apply Store.flashGet_of_env
  rw [initOps, if_pos h, List.take_succ_cons, Store.applyAll_cons, Store.applyAll_env_of_ne]
  · rfl
  · intro op hop
    have hop := List.mem_of_mem_take hop
    simp only [csvInit, List.mem_cons, List.mem_append, List.not_mem_nil, or_false] at hop
    rcases hop with rfl | (rfl | rfl) | (rfl | rfl) <;> exact of_decide_eq_false rfl

/-- What is left of a reset that is cut. -/
theorem isReset_cut (h : s.flashGet .bootTimes = 0) (done : Nat) :
    IsReset (.idInit (s.applyAll ((initOps s).take (done + 1)))) ↔ NothingLeft s (done + 1) := by
  have hops : initOps s = flashChange .bootTimes 1 :: flashChange .id 0 ::
      (csvInit .top ++ csvInit .down) := if_pos h
  rw [isReset_booted (by rw [flashGet_bootTimes_cut h]; decide), hops]
  have hid : ∀ ops : List StoreOp, (∀ op ∈ ops, op.key ≠ some .id) →
      (((s.apply (flashChange .bootTimes 1)).apply (flashChange .id 0)).applyAll ops).flashGet .id
        = 0 := by
    intro ops hops
    apply Store.flashGet_of_env
    rw [Store.applyAll_env_of_ne hops]
    rfl
  match done with
  | 0 => simp [NothingLeft, Store.flashGet, Store.apply, flashChange]
  | 1 => exact and_iff_right (hid [] fun _ h => absurd h List.not_mem_nil)
  | 2 =>
    -- the top file is gone
    refine iff_of_false (fun hr => ?_) id
    simpa [csvInit, Store.apply, flashChange] using hr.2 .top
  | 3 =>
    have htop : ∀ op ∈ csvInit .top, op.key ≠ some .id := by simp [csvInit, writeCsv, StoreOp.key]
    refine (and_iff_right (hid _ htop)).trans ?_
    rw [LogFile.forall]
    simp [NothingLeft, csvInit, writeCsv, Store.apply, flashChange]
  | 4 =>
    -- the down file is gone
    refine iff_of_false (fun hr => ?_) id
    simpa [csvInit, writeCsv, Store.apply, flashChange] using hr.2 .down
  | n + 5 =>
    have hr := isReset_idInit h
    rw [Logger.idInit, hops] at hr
    rw [List.take_of_length_le (by simp [csvInit])]
    exact iff_of_true ⟨hr.id, hr.files⟩ trivial

/-- **A factory reset survives power losses** exactly if the first one that comes after an
operation leaves nothing to do. -/
theorem reset_iff (h : s.flashGet .bootTimes = 0) (cuts : List Nat) :
    IsReset (.idInit (cutInits s cuts)) ↔ ∀ done ∈ cuts.find? (0 < ·), NothingLeft s done := by
  induction cuts with
  | nil => simpa [cutInits] using isReset_idInit h
  | cons done cuts ih =>
    rw [cutInits_cons]
    cases done with
    | zero => simpa using ih
    | succ done =>
      have hboot : (s.applyAll ((initOps s).take (done + 1))).flashGet .bootTimes ≠ 0 := by
        rw [flashGet_bootTimes_cut h]
        decide
      rw [cutInits_booted hboot, isReset_cut h]
      simp

end

/-- A storage with the log of an earlier time, after `test_hold_callback`. -/
def usedStore : Store where
  env k := match k with
    | .id => some [55]
    | .bootTimes => some [48]
  file _ := some (csvHeader ++ recordText 7 ⟨1, 1, 1, 1, 0, -70, 1, 0⟩)

/-- A reset that is cut after its first operation, and the boot after it. -/
theorem reset_lost_once : ¬ IsReset (.idInit (cutInits usedStore [1])) := by
  intro h
  exact absurd h.globalNums (by decide)

/-- A storage whose files hold the header alone already. -/
def clearedStore : Store := { usedStore with file := fun _ => some csvHeader }

/-- A reset of it that loses power before its first operation, then after `id` is written, then in
a boot that has nothing to do. -/
theorem reset_after_id : IsReset (.idInit (cutInits clearedStore [0, 2, 5])) := by
  refine (reset_iff (by decide) [0, 2, 5]).2 fun done hdone => ?_
  obtain rfl : 2 = done := Option.some.inj hdone
  exact fun _ => rfl

end Spsi
