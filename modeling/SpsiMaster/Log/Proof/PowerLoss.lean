import SpsiMaster.Log.Proof.Rotation

/-!
# Power losses between storage operations

`Global_Nums`, the files and the stored id hold the same number and are written one after the
other. A power loss between two operations of a rotation is made good by the next call, which has
the same number and rotates again. A power loss between the append of a record and the write of
the id is not: the number is used twice.

`numbers_neverReused`: without a power loss at that place no number is reused, as long as the
numbers are printed without a sign.
-/

namespace Spsi

open CInt Printf Scanf Run

/-! ## The numbers in a file -/

/-- The lines that are ended by a newline; `acc` is what has been read of the first one. -/
def lines (acc : List UInt8) : List UInt8 → List (List UInt8)
  | [] => []
  | c :: cs => if c = 10 then acc :: lines [] cs else lines (acc ++ [c]) cs

/-- The numbers of the records in a file: the first column behind the header line. -/
def numbers (file : Option (List UInt8)) : List Int :=
  (lines [] (file.getD [])).tail.map atol

theorem lines_append {l : List UInt8} (h : ∀ c ∈ l, c ≠ 10) (acc rest : List UInt8) :
    lines acc (l ++ 10 :: rest) = (acc ++ l) :: lines [] rest := by
  induction l generalizing acc with
  | nil => simp [lines]
  | cons c l ih =>
    rw [List.cons_append, lines, if_neg (h c List.mem_cons_self),
      ih fun d hd => h d (List.mem_cons_of_mem _ hd)]
    simp

theorem int_ne_newline {i : Int} : ∀ c ∈ int i, c ≠ 10 := by
  rintro c hc rfl
  exact absurd (mem_int hc) (by decide)

/-- A record is a line that begins with its number. -/
theorem lines_recordText (n : UInt32) (a : FileArgs) (rest : List UInt8) :
    ∃ l, lines [] (recordText n a ++ rest) = l :: lines [] rest ∧ atol l = i32 n := by
  have hcols : ∀ c ∈ a.columns.flatMap (fun i => 32 :: int i), c ≠ 10 := by
    intro c hc
    obtain ⟨i, -, hc⟩ := List.mem_flatMap.1 hc
    rcases List.mem_cons.1 hc with rfl | hc
    · decide
    · exact int_ne_newline c hc
  have hline : ∀ c ∈ int (i32 n) ++ a.columns.flatMap (fun i => 32 :: int i), c ≠ 10 := by
    intro c hc
    rcases List.mem_append.1 hc with hc | hc
    · exact int_ne_newline c hc
    · exact hcols c hc
  refine ⟨int (i32 n) ++ a.columns.flatMap fun i => 32 :: int i, ?_, ?_⟩
  · rw [recordText, ← List.append_assoc, List.append_assoc, List.singleton_append,
      lines_append hline, List.nil_append]
  · have hreads := reads_numeral (numeral_int (i32 n)) (show isDigit 32 = false from rfl)
      (int (if 0 < a.select then 433 else 4068) ++
        (a.columns.tail.flatMap fun i => 32 :: int i))
    exact (atol_of_reads hreads).trans (clampLong_of_inLong (inLong_i32 n))

/-- The numbers of a file of records. -/
theorem numbers_fileText (xs : List Record) :
    numbers (some (fileText xs)) = xs.map fun x => i32 (UInt32.ofNat x.2) := by
  have hheader : csvHeader = csvHeader.dropLast ++ [10] := by decide
  have hline : ∀ c ∈ csvHeader.dropLast, c ≠ 10 := by decide +kernel
  have hrest : (lines [] (xs.flatMap fun x => recordText (UInt32.ofNat x.2) x.1)).map atol =
      xs.map fun x => i32 (UInt32.ofNat x.2) := by
    induction xs with
    | nil => rfl
    | cons x xs ih =>
      obtain ⟨l, hl, hatol⟩ := lines_recordText (UInt32.ofNat x.2) x.1
        (xs.flatMap fun x => recordText (UInt32.ofNat x.2) x.1)
      rw [List.flatMap_cons, hl, List.map_cons, List.map_cons, hatol, ih]
  rw [numbers, Option.getD_some, fileText, hheader, List.append_assoc, List.singleton_append,
    lines_append hline, List.tail_cons, hrest]

/-! ## Runs with power losses -/

/-- A call, and after how many of its operations power is lost. -/
abbrev PowerAct := FileArgs × Nat

def powerStep : Step Logger PowerAct := fun l act => some (l.cutOutput act.1 act.2)

/-- The record that a call appends has a greater number than all that are in the files, and the
numbers that are gone after it are those of the window before in a file that it has begun anew:
number `k` goes with the number that is two windows on. -/
structure NeverReused (l : Logger) (act : PowerAct) (l' : Logger) : Prop where
  greater : writeCsv (target (l.globalNums + 1)) (recordText (l.globalNums + 1) act.1) ∈
      (outputOps (l.globalNums + 1) act.1).take act.2 →
    ∀ f, ∀ k ∈ numbers (l.store.file f), k < i32 (l.globalNums + 1)
  removed : ∀ f, ∀ k ∈ numbers (l.store.file f), k ∉ numbers (l'.store.file f) →
    target (l.globalNums + 1) = f ∧ ((l.globalNums + 1).toNat : Int) = (k / 200000 + 2) * 200000

/-- Power is not lost between the append of the record and the write of its number, and the number
is one that `%d` prints without a sign. -/
def KeepsNumber (l : Logger) (act : PowerAct) (_ : Logger) : Prop :=
  act.2 + 1 ≠ (outputOps (l.globalNums + 1) act.1).length ∧ l.globalNums ≠ 2147483647

instance (l : Logger) (act : PowerAct) (l' : Logger) : Decidable (KeepsNumber l act l') :=
  inferInstanceAs (Decidable (_ ∧ _))

/-- What is in a file when `Global_Nums` is `n`: records up to `n` of one window, or nothing at all
when the next call will begin it anew. -/
def Consistent (n : Nat) (f : LogFile) (file : Option (List UInt8)) : Prop :=
  (file = none ∧ (n + 1 + f.shift) % 400000 = 0) ∨
    ∃ xs, file = some (fileText xs) ∧ ∀ x ∈ xs, x.2 ≤ n ∧ InWindow f n x.2

/-- The storage holds the number of the last call, and the files go with it. -/
structure Sound (l : Logger) : Prop where
  bound : l.globalNums.toNat < 2147483648
  id : l.store.env .id = some (int (i32 l.globalNums))
  booted : l.store.flashGet .bootTimes ≠ 0
  file : ∀ f, Consistent l.globalNums.toNat f (l.store.file f)

section
variable {n : Nat} {f : LogFile} {file : Option (List UInt8)}

/-- The numbers of a file. -/
theorem Consistent.mem_numbers (h : Consistent n f file) (hn : n < 2147483648) {k : Int}
    (hk : k ∈ numbers file) : ∃ m : Nat, k = m ∧ m ≤ n ∧ InWindow f n m := by
  rcases h with ⟨rfl, -⟩ | ⟨xs, rfl, hxs⟩
  · cases hk
  · rw [numbers_fileText] at hk
    obtain ⟨x, hx, rfl⟩ := List.mem_map.1 hk
    obtain ⟨hle, hw⟩ := hxs x hx
    have htoNat : (UInt32.ofNat x.2).toNat = x.2 := by
      rw [UInt32.toNat_ofNat']
      omega
    refine ⟨x.2, ?_, hle, hw⟩
    rw [i32_of_lt (by omega), htoNat]

/-- A record of the window before is removed two windows on. -/
theorem removed_of_inWindow {m : Nat} (hw : InWindow f n m) (h0 : (n + 1 + f.shift) % 400000 = 0) :
    ((n + 1 : Nat) : Int) = ((m : Int) / 200000 + 2) * 200000 := by
  unfold InWindow at hw
  cases f <;> simp only [LogFile.shift] at hw h0 <;> omega

/-- A file that the next call does not begin anew. -/
theorem Consistent.next (h : Consistent n f file) (h0 : (n + 1 + f.shift) % 400000 ≠ 0) :
    ∃ xs, file = some (fileText xs) ∧ ∀ x ∈ xs, x.2 ≤ n + 1 ∧ InWindow f (n + 1) x.2 := by
  rcases h with ⟨-, hn⟩ | ⟨xs, rfl, hxs⟩
  · exact absurd hn h0
  · exact ⟨xs, rfl, fun x hx =>
      ⟨Nat.le_succ_of_le (hxs x hx).1, (inWindow_succ (hxs x hx).1).2 ⟨h0, (hxs x hx).2⟩⟩⟩

end

section
variable {l l' : Logger} {a : FileArgs} {done : Nat}

/-- The number of the next call. -/
theorem Sound.next (h : Sound l) (hn : l.globalNums ≠ 2147483647) :
    (l.globalNums + 1).toNat = l.globalNums.toNat + 1 ∧ l.globalNums.toNat + 1 < 2147483648 := by
  have hb := h.bound
  have hne : l.globalNums.toNat ≠ 2147483647 := fun he => hn (UInt32.toNat_inj.1 he)
  refine ⟨?_, by omega⟩
  rw [UInt32.toNat_add]
  exact Nat.mod_eq_of_lt (show l.globalNums.toNat + 1 < 2 ^ 32 by omega)

/-- The rotation is due when the next number begins a window. -/
theorem Sound.rotates_next (h : Sound l) (hn : l.globalNums ≠ 2147483647) {f : LogFile}
    (hf : target (l.globalNums + 1) = f) : rotates (l.globalNums + 1) = true ↔
      (l.globalNums.toNat + 1 + f.shift) % 400000 = 0 := by
  rw [rotates_iff, hf, (h.next hn).1]

theorem Sound.target_next (h : Sound l) (hn : l.globalNums ≠ 2147483647) {f : LogFile} :
    target (l.globalNums + 1) = f ↔ (l.globalNums.toNat + 1 + f.shift) % 400000 < 200000 := by
  rw [target_eq_iff, (h.next hn).1]

/-! ## Calls that run to their end -/

/-- The files after a call: the record is behind those that were there, or alone. -/
theorem Sound.output_file (h : Sound l) (hn : l.globalNums ≠ 2147483647) (f : LogFile) :
    ∃ xs, (l.fileOutput a).store.file f = some (fileText xs) ∧
      (∀ x ∈ xs, x.2 ≤ l.globalNums.toNat + 1 ∧ InWindow f (l.globalNums.toNat + 1) x.2) ∧
      ((l.globalNums.toNat + 1 + f.shift) % 400000 ≠ 0 →
        ∀ k ∈ numbers (l.store.file f), k ∈ numbers (some (fileText xs))) := by
  obtain ⟨hnext, hlt⟩ := h.next hn
  have hnum : l.globalNums + 1 = UInt32.ofNat (l.globalNums.toNat + 1) := by
    rw [← hnext, UInt32.ofNat_toNat]
  rw [l.fileOutput_file a f]
  split
  · next hf =>
    have hself : InWindow f (l.globalNums.toNat + 1) (l.globalNums.toNat + 1) :=
      inWindow_self.2 ((h.target_next hn).1 hf)
    by_cases h0 : (l.globalNums.toNat + 1 + f.shift) % 400000 = 0
    · refine ⟨[(a, l.globalNums.toNat + 1)], ?_, fun x hx => ?_, fun hne => absurd h0 hne⟩
      · rw [if_pos ((h.rotates_next hn hf).2 h0), hnum, fileText]
        simp
      · rw [List.mem_singleton.1 hx]
        exact ⟨Nat.le_refl _, hself⟩
    · obtain ⟨xs, hfile, hxs⟩ := (h.file f).next h0
      refine ⟨xs ++ [(a, l.globalNums.toNat + 1)], ?_, fun x hx => ?_, fun _ k hk => ?_⟩
      · rw [if_neg (mt (h.rotates_next hn hf).1 h0), fileText_concat, hfile, hnum,
          Option.getD_some]
      · rcases List.mem_append.1 hx with hx | hx
        · exact hxs x hx
        · rw [List.mem_singleton.1 hx]
          exact ⟨Nat.le_refl _, hself⟩
      · rw [hfile, numbers_fileText] at hk
        rw [numbers_fileText, List.map_append]
        exact List.mem_append_left _ hk
  · next hf =>
    have h0 : (l.globalNums.toNat + 1 + f.shift) % 400000 ≠ 0 := fun h0 =>
      hf ((h.target_next hn).2 (by rw [h0]; decide))
    obtain ⟨xs, hfile, hxs⟩ := (h.file f).next h0
    exact ⟨xs, hfile, hxs, fun _ k hk => hfile ▸ hk⟩

theorem sound_fileOutput (h : Sound l) (hn : l.globalNums ≠ 2147483647) :
    Sound (l.fileOutput a) := by
  obtain ⟨hnext, hlt⟩ := h.next hn
  refine ⟨hnext ▸ hlt, l.fileOutput_id a, ?_, fun f => ?_⟩
  · rw [Store.flashGet, l.fileOutput_bootTimes a]
    exact h.booted
  · obtain ⟨xs, hfile, hxs, -⟩ := @Sound.output_file l a h hn f
    refine .inr ⟨xs, hfile, fun x hx => ?_⟩
    rw [show (l.fileOutput a).globalNums.toNat = _ from hnext]
    exact hxs x hx

/-! ## Calls that are cut before their record -/

/-- What has been done of a call that is cut before its record belongs to the rotation. -/
theorem take_outputOps {n : UInt32} (hdone : done + 1 < (outputOps n a).length) :
    (outputOps n a).take done = (if rotates n then csvInit (target n) else []).take done := by
  rw [outputOps_eq] at hdone ⊢
  simp only [List.length_append, List.length_cons, List.length_nil] at hdone
  exact List.take_append_of_le_length (by omega)

theorem mem_csvInit {f : LogFile} {op : StoreOp} (h : op ∈ csvInit f) :
    op.key = none ∧ op.file = some f := by
  simp only [csvInit, writeCsv, List.mem_cons, List.not_mem_nil, or_false] at h
  rcases h with rfl | rfl
  · exact ⟨rfl, rfl⟩
  · exact ⟨rfl, rfl⟩

/-- The storage then: the file that is rotated may be gone, or hold the header alone. -/
theorem cut_store (s : Store) {n : UInt32} (hdone : done + 1 < (outputOps n a).length) :
    (s.applyAll ((outputOps n a).take done)).env = s.env ∧
      ∀ f, (s.applyAll ((outputOps n a).take done)).file f = s.file f ∨
        target n = f ∧ rotates n = true ∧
          ((s.applyAll ((outputOps n a).take done)).file f = none ∨
            (s.applyAll ((outputOps n a).take done)).file f = some (fileText [])) := by
  rw [take_outputOps hdone]
  cases rotates n with
  | false => exact ⟨by simp, fun f => .inl (by simp)⟩
  | true =>
    rw [if_pos rfl]
    refine ⟨funext fun k => Store.applyAll_env_of_ne (fun op hop => ?_) s, fun f => ?_⟩
    · rw [(mem_csvInit (List.mem_of_mem_take hop)).1]
      exact nofun
    · by_cases hf : target n = f
      · subst hf
        match done with
        | 0 => exact .inl rfl
        | 1 => exact .inr ⟨rfl, rfl, .inl (by simp [csvInit, Store.apply])⟩
        | _ + 2 =>
          exact .inr ⟨rfl, rfl, .inr (by simp [csvInit, writeCsv, Store.apply, fileText])⟩
      · refine .inl (Store.applyAll_file_of_ne (fun op hop => ?_) s)
        rw [(mem_csvInit (List.mem_of_mem_take hop)).2]
        exact fun he => hf (Option.some.inj he)

/-- The next call has the same number again. -/
theorem Sound.idInit_cut (h : Sound l)
    (hdone : done + 1 < (outputOps (l.globalNums + 1) a).length) :
    Logger.idInit (l.store.applyAll ((outputOps (l.globalNums + 1) a).take done)) =
      ⟨l.globalNums, l.store.applyAll ((outputOps (l.globalNums + 1) a).take done)⟩ := by
  obtain ⟨henv, -⟩ := @cut_store a done l.store _ hdone
  have hget : ∀ k, (l.store.applyAll ((outputOps (l.globalNums + 1) a).take done)).flashGet k =
      l.store.flashGet k := fun k => by rw [Store.flashGet, henv, Store.flashGet]
  rw [idInit_booted (by rw [hget]; exact h.booted), hget, Store.flashGet_of_env h.id]

theorem sound_cut (h : Sound l) (hn : l.globalNums ≠ 2147483647)
    (hdone : done + 1 < (outputOps (l.globalNums + 1) a).length) :
    Sound (.idInit (l.store.applyAll ((outputOps (l.globalNums + 1) a).take done))) := by
  obtain ⟨henv, hfile⟩ := @cut_store a done l.store _ hdone
  rw [h.idInit_cut hdone]
  refine ⟨h.bound, by rw [henv]; exact h.id, ?_, fun f => ?_⟩
  · rw [Store.flashGet, henv]
    exact h.booted
  · rcases hfile f with hsame | ⟨hf, hrot, hnone | hheader⟩
    · rw [hsame]
      exact h.file f
    · exact .inl ⟨hnone, (h.rotates_next hn hf).1 hrot⟩
    · exact .inr ⟨[], hheader, fun _ hx => absurd hx List.not_mem_nil⟩

theorem sound_step (h : Sound l) (hstep : powerStep l (a, done) = some l')
    (hk : KeepsNumber l (a, done) l') : Sound l' := by
  obtain rfl : l.cutOutput a done = l' := Option.some.inj hstep
  obtain ⟨hne, hn⟩ := hk
  simp only [Logger.cutOutput]
  split
  · exact sound_cut h hn (by simp only at hne; omega)
  · exact sound_fileOutput h hn

/-! ## Numbers -/

theorem neverReused_step (h : Sound l) (hstep : powerStep l (a, done) = some l')
    (hk : KeepsNumber l (a, done) l') : NeverReused l (a, done) l' := by
  obtain rfl : l.cutOutput a done = l' := Option.some.inj hstep
  obtain ⟨hne, hn⟩ := hk
  obtain ⟨hnext, hlt⟩ := h.next hn
  refine ⟨fun _ f k hk => ?_, fun f k hk hgone => ?_⟩
  · obtain ⟨m, rfl, hm, -⟩ := (h.file f).mem_numbers h.bound hk
    rw [i32_of_lt (by omega), hnext]
    omega
  · obtain ⟨m, rfl, -, hw⟩ := (h.file f).mem_numbers h.bound hk
    -- a number is gone only if its file has been begun anew
    have hrot : target (l.globalNums + 1) = f ∧
        (l.globalNums.toNat + 1 + f.shift) % 400000 = 0 := by
      simp only [Logger.cutOutput] at hgone
      split at hgone
      · have hdone : done + 1 < (outputOps (l.globalNums + 1) a).length := by
          simp only at hne
          omega
        obtain ⟨-, hfile⟩ := @cut_store a done l.store _ hdone
        rw [h.idInit_cut hdone] at hgone
        rcases hfile f with hsame | ⟨hf, hrot, -⟩
        · rw [hsame] at hgone
          exact absurd hk hgone
        · exact ⟨hf, (h.rotates_next hn hf).1 hrot⟩
      · obtain ⟨xs, hfile, -, hmono⟩ := @Sound.output_file l a h hn f
        rw [hfile] at hgone
        have h0 : (l.globalNums.toNat + 1 + f.shift) % 400000 = 0 :=
          Classical.byContradiction fun h0 => hgone (hmono h0 _ hk)
        exact ⟨(h.target_next hn).2 (by rw [h0]; decide), h0⟩
    refine ⟨hrot.1, ?_⟩
    rw [hnext]
    exact removed_of_inWindow hw hrot.2

end

theorem sound_idInit {s : Store} (h : s.flashGet .bootTimes = 0) : Sound (.idInit s) := by
  obtain ⟨hnum, hid, hboot, hfile⟩ := holds_idInit h
  refine ⟨by rw [hnum]; decide, hid, hboot, fun f => .inr ⟨[], hfile f, fun _ hx => nomatch hx⟩⟩

/-- **Record numbers are never reused** from the first boot on, in the runs whose power losses
spare the place between a record and its number. -/
theorem numbers_neverReused {s : Store} (h : s.flashGet .bootTimes = 0) (as : List PowerAct)
    (hk : Steps powerStep KeepsNumber (.idInit s) as) :
    Steps powerStep NeverReused (.idInit s) as := by
  have hsound : Along powerStep Sound (.idInit s) as :=
    along_of_inv (fun _ _ _ hs ht hq => sound_step hs ht hq) (sound_idInit h) hk
  exact (hsound.steps.and hk).mono fun _ _ _ ht hs => neverReused_step hs.1.1 ht hs.2

/-- A call that is cut before its record, and the same call again. -/
theorem numbers_neverReused_retry : Steps powerStep NeverReused (.idInit {})
    [(⟨1, 1, 1, 1, 0, -70, 1, 0⟩, 0), (⟨1, 1, 1, 1, 0, -70, 1, 0⟩, 2)] :=
  @numbers_neverReused {} (by decide) _ (by decide)

/-- Power is lost between the first record and its number, and the next call appends a second
record with the number 1. -/
theorem numbers_reused_once : ¬ Steps powerStep NeverReused (.idInit {})
    [(⟨1, 1, 1, 1, 0, -70, 1, 0⟩, 1), (⟨1, 1, 1, 1, 0, -70, 1, 0⟩, 2)] := by
  intro h
  have hsecond := ((h _ rfl).2 _ rfl).1.greater (by decide) .top 1 (by decide)
  exact absurd hsecond (by decide)

end Spsi
