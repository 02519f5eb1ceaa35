import SpsiMaster.Log.Contention

/-!
# Calls that contend for the log

A thread that has taken `spsi_read_mutex` is its only owner until it releases it, and a thread
that has not releases nothing. So the storage is written by one thread at a time, and its
operations are those of a call that runs alone.

`output_allOrNothing`: whatever the threads do, the log is what the calls that got the mutex leave
one after the other. `output_commits`: a call that finds the mutex free and runs to its end
commits.
-/

namespace Spsi

open CInt Printf Rtos Run

/-! ## Committed calls and single steps -/

/-- The log after calls that run one after the other, the newest first. -/
def replay (start : Logger) (commits : List FileArgs) : Logger :=
  commits.foldr (fun a l => l.fileOutput a) start

/-- A call has committed one record: behind its number, which follows the one before, and after
the rotation that was due; the number is stored. -/
structure Commits (before : Logger) (a : FileArgs) (after : Logger) : Prop where
  globalNums : after.globalNums = before.globalNums + 1
  id : after.store.env .id = some (int (i32 after.globalNums))
  appended : after.store.file (target after.globalNums) = some
    ((if rotates after.globalNums then csvHeader
      else (before.store.file (target after.globalNums)).getD []) ++
      recordText after.globalNums a)
  other : ∀ f, target after.globalNums ≠ f → after.store.file f = before.store.file f

/-- The thread has got the mutex. -/
def LogPc.holds : LogPc → Bool
  | .idle | .taking _ | .readTaking _ | .refused => false
  | _ => true

/-- The thread has got the mutex in `File_Output`. -/
def LogPc.writes : LogPc → Bool
  | .uploading _ | .readReleasing => false
  | pc => pc.holds

section
variable {τ : Type}

/-- Between the calls the mutex is free, and where no call of `File_Output` has it the log is the
one of the committed calls. -/
structure Settled (start : Logger) (s : LogSystem τ) : Prop where
  free : (∀ t, s.pc t = .idle) → s.mutex = {}
  log : (∀ t, (s.pc t).writes = false) → s.log = replay start s.commits

/-- What a step does to the log and the mutex. -/
structure AllOrNothing (start : Logger) (s : LogSystem τ) (act : LogSystemAct τ)
    (s' : LogSystem τ) : Prop where
  /-- Only a call of `File_Output` that has got the mutex changes the log, and not during an
  upload. -/
  changed : s'.log ≠ s.log → (∃ t, act = .run t ∧ (s.pc t).writes = true) ∧
    ∀ t f, s.pc t ≠ .uploading f
  /-- The release of a call that has not got the mutex. -/
  refused : ∀ t, act = .run t → s.pc t = .refused → s'.mutex = s.mutex
  /-- The release of a call of `File_Output` that has got it. -/
  committed : ∀ t a, act = .run t → s.pc t = .releasing a → s'.commits = a :: s.commits ∧
    Commits (replay start s.commits) a s'.log
  /-- All other steps. -/
  kept : (∀ t a, act = .run t → s.pc t ≠ .releasing a) → s'.commits = s.commits

/-! ## The invariant -/

/-- The log while the owner of the mutex stands at a statement; `base` is the log of the committed
calls. -/
def Midway (base log : Logger) : LogPc → Prop
  | .choosing a buf =>
    log = ⟨base.globalNums + 1, base.store⟩ ∧ buf = recordText (base.globalNums + 1) a
  | .unlinking a f buf =>
    log = ⟨base.globalNums + 1, base.store⟩ ∧ buf = recordText (base.globalNums + 1) a ∧
      f = target (base.globalNums + 1) ∧ rotates (base.globalNums + 1) = true
  | .heading a f buf =>
    log = ⟨base.globalNums + 1, base.store.apply (.unlink f)⟩ ∧
      buf = recordText (base.globalNums + 1) a ∧ f = target (base.globalNums + 1) ∧
      rotates (base.globalNums + 1) = true
  | .appending a f buf =>
    log = ⟨base.globalNums + 1,
        base.store.applyAll (if rotates (base.globalNums + 1) then csvInit f else [])⟩ ∧
      buf = recordText (base.globalNums + 1) a ∧ f = target (base.globalNums + 1)
  | .saving a =>
    log = ⟨base.globalNums + 1, (base.store.applyAll (if rotates (base.globalNums + 1) then
        csvInit (target (base.globalNums + 1)) else [])).apply
      (writeCsv (target (base.globalNums + 1)) (recordText (base.globalNums + 1) a))⟩
  | .releasing a => log = base.fileOutput a
  | _ => log = base

/-- The mutex has one owner at most, the thread that stands behind its `rt_mutex_trytake`. -/
structure Owned (start : Logger) (s : LogSystem τ) : Prop where
  free : (∀ t, (s.pc t).holds = false) → s.mutex = {} ∧ s.log = replay start s.commits
  held : ∀ t, (s.pc t).holds = true →
    s.mutex = ⟨some t, 1⟩ ∧ Midway (replay start s.commits) s.log (s.pc t)

section
variable {start : Logger} {s : LogSystem τ} {t : τ} {pc : LogPc}

theorem Owned.only (h : Owned start s) (ht : (s.pc t).holds = true) {u : τ} (hu : u ≠ t) :
    (s.pc u).holds = false := by
  rw [Bool.eq_false_iff]
  intro hholds
  have hown := (h.held u hholds).1.symm.trans (h.held t ht).1
  exact hu (Option.some.inj (Mutex.mk.inj hown).1)

/-- The log where the owner stands. -/
theorem Owned.midway (h : Owned start s) (hpc : s.pc t = pc) (hh : pc.holds = true) :
    (s.pc t).holds = true ∧ Midway (replay start s.commits) s.log pc := by
  subst hpc
  exact ⟨hh, (h.held t hh).2⟩

/-- Either nobody has the mutex or one thread has. -/
theorem Owned.cases (h : Owned start s) :
    (∀ u, (s.pc u).holds = false) ∧ s.mutex = {} ∧ s.log = replay start s.commits ∨
      ∃ u, (s.pc u).holds = true ∧ s.mutex = ⟨some u, 1⟩ := by
  by_cases hall : ∀ u, (s.pc u).holds = false
  · exact .inl ⟨hall, h.free hall⟩
  · simp only [not_forall, Bool.not_eq_false] at hall
    obtain ⟨u, hu⟩ := hall
    exact .inr ⟨u, hu, (h.held u hu).1⟩

theorem Owned.settled (h : Owned start s) : Settled start s := by
  refine ⟨fun hall => (h.free fun t => by rw [hall t]; rfl).1, fun hall => ?_⟩
  rcases h.cases with ⟨-, -, hlog⟩ | ⟨u, hu, -⟩
  · exact hlog
  · -- the owner is in an upload
    have hmid := (h.held u hu).2
    have hw := hall u
    cases hpc : s.pc u with
    | uploading f =>
      rw [hpc] at hmid
      exact hmid
    | readReleasing =>
      rw [hpc] at hmid
      exact hmid
    | idle | taking _ | readTaking _ | refused =>
      rw [hpc] at hu
      cases hu
    | _ =>
      rw [hpc] at hw
      cases hw

variable [DecidableEq τ]

/-- A thread that has not got the mutex goes on without it. -/
theorem Owned.pass (h : Owned start s) (ht : (s.pc t).holds = false) (hpc : pc.holds = false) :
    Owned start (s.setPc t pc) := by
  have hsame : ∀ u, ((s.setPc t pc).pc u).holds = (s.pc u).holds := by
    intro u
    by_cases hu : u = t
    · subst hu
      simp [LogSystem.setPc, hpc, ht]
    · simp [LogSystem.setPc, hu]
  refine ⟨fun hall => h.free fun u => (hsame u).symm.trans (hall u), fun u hu => ?_⟩
  have hne : u ≠ t := by
    rintro rfl
    rw [hsame, ht] at hu
    exact absurd hu Bool.false_ne_true
  have hheld := h.held u ((hsame u).symm.trans hu)
  simpa [LogSystem.setPc, hne] using hheld

/-- The owner of the mutex goes on with it. -/
theorem Owned.advance (h : Owned start s) (ht : (s.pc t).holds = true) {log : Logger}
    (hmid : Midway (replay start s.commits) log pc) (hpc : pc.holds = true) :
    Owned start ({ s with log }.setPc t pc) := by
  refine ⟨fun hall => ?_, fun u hu => ?_⟩
  · have := hall t
    simp [LogSystem.setPc, hpc] at this
  · by_cases hut : u = t
    · subst hut
      exact ⟨(h.held u ht).1, by simpa [LogSystem.setPc] using hmid⟩
    · have := h.only ht hut
      simp [LogSystem.setPc, hut, this] at hu

theorem Owned.trytake (h : Owned start s) (ht : (s.pc t).holds = false) (hpc : pc.holds = true)
    (hmid : Midway (replay start s.commits) (replay start s.commits) pc) :
    Owned start (s.trytake t pc) := by
  rcases h.cases with ⟨hall, hmutex, hlog⟩ | ⟨u, hu, hmutex⟩
  · have htake : s.trytake t pc = { s with mutex := ⟨some t, 1⟩ }.setPc t pc := by
      rw [LogSystem.trytake, hmutex]
      rfl
    rw [htake]
    refine ⟨fun hfree => ?_, fun v hv => ?_⟩
    · have := hfree t
      simp [LogSystem.setPc, hpc] at this
    · by_cases hvt : v = t
      · subst hvt
        refine ⟨rfl, ?_⟩
        rw [← hlog] at hmid
        simpa [LogSystem.setPc, hlog] using hmid
      · simp [LogSystem.setPc, hvt, hall v] at hv
  · have hne : u ≠ t := by
      rintro rfl
      rw [ht] at hu
      exact absurd hu Bool.false_ne_true
    have htake : s.trytake t pc = s.setPc t .refused := by
      rw [LogSystem.trytake, Mutex.trytake_held (by rw [hmutex]) hne]
      rfl
    rw [htake]
    exact h.pass ht rfl

/-- The owner releases the mutex, and nobody has it then. -/
theorem Owned.release (h : Owned start s) (ht : (s.pc t).holds = true) {commits : List FileArgs}
    (hlog : s.log = replay start commits) : Owned start ({ s with commits }.release t) := by
  have hall : ∀ u, (({ s with commits }.release t).pc u).holds = false := by
    intro u
    by_cases hu : u = t
    · subst hu
      simp [LogSystem.release, LogSystem.setPc, LogPc.holds]
    · simpa [LogSystem.release, LogSystem.setPc, hu] using h.only ht hu
  refine ⟨fun _ => ⟨?_, hlog⟩, fun u hu => absurd hu (by rw [hall u]; exact Bool.false_ne_true)⟩
  have hmutex : s.mutex.release t = {} := by
    rw [(h.held t ht).1]
    exact Mutex.release_once t
  exact hmutex

/-- A thread that has not got the mutex releases nothing. -/
theorem Owned.release_refused (h : Owned start s) (ht : (s.pc t).holds = false) :
    s.mutex.release t = s.mutex := by
  rcases h.cases with ⟨-, hmutex, -⟩ | ⟨u, hu, hmutex⟩
  · rw [hmutex]
    rfl
  · have hne : s.mutex.owner ≠ some t := by
      rw [hmutex]
      rintro hut
      rw [Option.some.inj hut, ht] at hu
      exact absurd hu Bool.false_ne_true
    exact if_pos hne

/-! ## The steps -/

theorem choose_eq (n : UInt32) (a : FileArgs) (buf : List UInt8) :
    (if n % 400000 < 200000 then
      if n % 400000 = 0 then LogPc.unlinking a .top buf else .appending a .top buf
    else if n % 400000 = 200000 then .unlinking a .down buf else .appending a .down buf) =
      if rotates n then .unlinking a (target n) buf else .appending a (target n) buf := by
  unfold rotates target
  by_cases hlt : n % 400000 < 200000
  · have hne : n % 400000 ≠ 200000 := fun h => by rw [h] at hlt; exact absurd hlt (by decide)
    simp [hlt, hne]
  · have hne : n % 400000 ≠ 0 := fun h => by rw [h] at hlt; exact hlt (by decide)
    simp [hlt, hne]

theorem owned_run (h : Owned start s) {s' : LogSystem τ} (hstep : s.run t = some s') :
    Owned start s' := by
  unfold LogSystem.run at hstep
  cases hpc : s.pc t with
  | idle =>
    rw [hpc] at hstep
    cases hstep
  | taking a =>
    rw [hpc] at hstep
    cases hstep
    exact h.trytake (by rw [hpc]; rfl) rfl rfl
  | readTaking f =>
    rw [hpc] at hstep
    cases hstep
    exact h.trytake (by rw [hpc]; rfl) rfl rfl
  | refused =>
    rw [hpc] at hstep
    cases hstep
    have ht : (s.pc t).holds = false := by rw [hpc]; rfl
    have hrel : s.release t = s.setPc t .idle := by
      rw [LogSystem.release, h.release_refused ht]
    rw [hrel]
    exact h.pass ht rfl
  | counting a =>
    obtain ⟨ht, hlog⟩ := h.midway hpc rfl
    rw [hpc] at hstep
    cases hstep
    refine h.advance ht ⟨?_, ?_⟩ rfl
    · rw [hlog]
    · rw [hlog]
  | choosing a buf =>
    obtain ⟨ht, hlog, hbuf⟩ := h.midway hpc rfl
    rw [hpc] at hstep
    simp only [choose_eq, Option.some.injEq] at hstep
    subst hstep
    have hn : s.log.globalNums = (replay start s.commits).globalNums + 1 := by rw [hlog]
    rw [hn]
    split
    · next hrot => exact h.advance ht ⟨hlog, hbuf, rfl, hrot⟩ rfl
    · next hrot => exact h.advance ht ⟨by rw [hlog, if_neg hrot]; rfl, hbuf, rfl⟩ rfl
  | unlinking a f buf =>
    obtain ⟨ht, hlog, hbuf, hf, hrot⟩ := h.midway hpc rfl
    rw [hpc] at hstep
    cases hstep
    refine h.advance ht ⟨?_, hbuf, hf, hrot⟩ rfl
    rw [hlog]
  | heading a f buf =>
    obtain ⟨ht, hlog, hbuf, hf, hrot⟩ := h.midway hpc rfl
    rw [hpc] at hstep
    cases hstep
    refine h.advance ht ⟨?_, hbuf, hf⟩ rfl
    rw [hlog, if_pos hrot]
    rfl
  | appending a f buf =>
    obtain ⟨ht, hlog, hbuf, hf⟩ := h.midway hpc rfl
    rw [hpc] at hstep
    cases hstep
    refine h.advance ht ?_ rfl
    rw [hlog, hbuf, hf]
    rfl
  | saving a =>
    obtain ⟨ht, hlog⟩ := h.midway hpc rfl
    rw [hpc] at hstep
    cases hstep
    refine h.advance ht ?_ rfl
    rw [hlog, Midway, Logger.fileOutput, outputOps_eq, Store.applyAll_append]
    rfl
  | releasing a =>
    obtain ⟨ht, hlog⟩ := h.midway hpc rfl
    rw [hpc] at hstep
    cases hstep
    exact h.release ht hlog
  | uploading f =>
    obtain ⟨ht, hlog⟩ := h.midway hpc rfl
    rw [hpc] at hstep
    cases hstep
    exact h.advance ht hlog rfl
  | readReleasing =>
    obtain ⟨ht, hlog⟩ := h.midway hpc rfl
    rw [hpc] at hstep
    cases hstep
    exact h.release ht hlog

theorem owned_step (h : Owned start s) {act : LogSystemAct τ} {s' : LogSystem τ}
    (hstep : LogSystem.step s act = some s') : Owned start s' := by
  cases act with
  | output t a =>
    obtain ⟨hidle, hsome⟩ := Option.ite_none_right_eq_some.1 hstep
    cases hsome
    exact h.pass (by rw [hidle]; rfl) rfl
  | upload t f =>
    obtain ⟨hidle, hsome⟩ := Option.ite_none_right_eq_some.1 hstep
    cases hsome
    exact h.pass (by rw [hidle]; rfl) rfl
  | run t => exact owned_run h hstep

theorem Logger.commits_fileOutput (l : Logger) (a : FileArgs) : Commits l a (l.fileOutput a) := by
  refine ⟨rfl, l.fileOutput_id a, ?_, fun f hf => ?_⟩
  · rw [l.fileOutput_file a]
    exact if_pos rfl
  · rw [l.fileOutput_file a]
    exact if_neg hf

theorem LogPc.holds_of_writes {pc : LogPc} (h : pc.writes = true) : pc.holds = true := by
  cases pc <;> first | rfl | cases h

/-- Only a thread in `File_Output` that has got the mutex changes the log. -/
theorem run_log {s' : LogSystem τ} (hstep : s.run t = some s') (hpc : (s.pc t).writes = false) :
    s'.log = s.log := by
  unfold LogSystem.run at hstep
  split at hstep <;> rename_i hat
  case h_1 => cases hstep
  case h_2 | h_10 | h_11 | h_12 | h_13 =>
    cases hstep
    rfl
  all_goals
    rw [hat] at hpc
    cases hpc

theorem run_commits {s' : LogSystem τ} (hstep : s.run t = some s')
    (hpc : ∀ a, s.pc t ≠ .releasing a) : s'.commits = s.commits := by
  unfold LogSystem.run at hstep
  split at hstep <;> rename_i hat
  case h_1 => cases hstep
  case h_9 a => exact absurd hat (hpc a)
  all_goals
    cases hstep
    rfl

theorem allOrNothing_step (h : Owned start s) {act : LogSystemAct τ} {s' : LogSystem τ}
    (hstep : LogSystem.step s act = some s') : AllOrNothing start s act s' := by
  have hcall : ∀ {t pc}, (if s.pc t = .idle then some (s.setPc t pc) else none) = some s' →
      s'.log = s.log ∧ s'.commits = s.commits := by
    intro t pc hite
    obtain ⟨-, hsome⟩ := Option.ite_none_right_eq_some.1 hite
    cases hsome
    exact ⟨rfl, rfl⟩
  cases act with
  | output t a =>
    obtain ⟨hlog, hcommits⟩ := hcall hstep
    exact ⟨fun hne => absurd hlog hne, fun _ hact => (nomatch hact), fun _ _ hact => (nomatch hact),
      fun _ => hcommits⟩
  | upload t f =>
    obtain ⟨hlog, hcommits⟩ := hcall hstep
    exact ⟨fun hne => absurd hlog hne, fun _ hact => (nomatch hact), fun _ _ hact => (nomatch hact),
      fun _ => hcommits⟩
  | run t =>
    refine ⟨fun hne => ?_, fun u hact hpc => ?_, fun u a hact hpc => ?_, fun hpc => ?_⟩
    · have hw : (s.pc t).writes = true := by
        rw [← Bool.not_eq_false]
        exact fun hw => hne (run_log hstep hw)
      refine ⟨⟨t, rfl, hw⟩, fun u f hu => ?_⟩
      -- a thread that uploads would be the owner
      have hut : u = t := Classical.byContradiction fun hut => by
        have hfree := h.only (LogPc.holds_of_writes hw) hut
        rw [hu] at hfree
        cases hfree
      subst hut
      rw [hu] at hw
      cases hw
    · cases hact
      simp only [LogSystem.step, LogSystem.run, hpc, Option.some.injEq] at hstep
      subst hstep
      exact h.release_refused (by rw [hpc]; rfl)
    · cases hact
      obtain ⟨-, hlog⟩ := h.midway hpc rfl
      simp only [LogSystem.step, LogSystem.run, hpc, Option.some.injEq] at hstep
      subst hstep
      have hcommits := (replay start s.commits).commits_fileOutput a
      exact ⟨rfl, hlog ▸ hcommits⟩
    · exact run_commits hstep fun a => hpc t a rfl

/-- **A call that finds the mutex free commits** when no other thread comes in between: it takes the
mutex, does to the log what `File_Output` does and gives the mutex back. -/
theorem output_commits (hfree : s.mutex = {}) (hidle : s.pc t = .idle) (a : FileArgs) :
    exec LogSystem.step s (.output t a ::
        List.replicate (if rotates (s.log.globalNums + 1) then 8 else 6) (.run t)) =
      some { s with log := s.log.fileOutput a, commits := a :: s.commits } := by
  have hback : Function.update s.pc t .idle = s.pc := by rw [← hidle, Function.update_eq_self]
  cases hrot : rotates (s.log.globalNums + 1) with
  | true =>
    simp [exec, LogSystem.step, LogSystem.run, LogSystem.setPc, LogSystem.trytake, choose_eq,
      LogSystem.onStore, LogSystem.release, List.replicate, hidle, hfree, hrot, hback,
      Logger.fileOutput, outputOps_eq, csvInit]
  | false =>
    simp [exec, LogSystem.step, LogSystem.run, LogSystem.setPc, LogSystem.trytake, choose_eq,
      LogSystem.onStore, LogSystem.release, List.replicate, hidle, hfree, hrot, hback,
      Logger.fileOutput, outputOps_eq]

/-- **Logging is all or nothing** for every number of threads and every order of their steps. -/
theorem output_allOrNothing (start : Logger) (as : List (LogSystemAct τ)) :
    Along LogSystem.step (Settled start) (.start start) as ∧
      Steps LogSystem.step (AllOrNothing start) (.start start) as := by
  have hstart : Owned start (LogSystem.start start : LogSystem τ) :=
    ⟨fun _ => ⟨rfl, rfl⟩, fun _ ht => absurd ht Bool.false_ne_true⟩
  have howned : Along LogSystem.step (Owned start) (.start start) as :=
    along_of_step (fun _ _ _ h ht => owned_step h ht) hstart as
  exact ⟨howned.mono fun _ h => h.settled,
    howned.steps.mono fun _ _ _ ht h => allOrNothing_step h.1 ht⟩

/-- An answered heartbeat on 433. -/
def heartbeatArgs : FileArgs := ⟨1, 2, 0, 1, 0, -70, 1, 0⟩

/-- A call of `File_Output` commits, during which one of the other thread is refused; then one is
refused during the upload of the other thread. -/
def contendedRun : List (LogSystemAct Bool) :=
  [.output false heartbeatArgs, .run false, .output true heartbeatArgs, .run true, .run true,
    .run false, .run false, .run false, .run false, .run false,
    .upload true .top, .run true, .output false heartbeatArgs, .run false, .run false, .run true,
    .run true]

/-- The one record is in the file, and the mutex is free. -/
theorem output_allOrNothing_contended :
    (exec LogSystem.step (.start ⟨0, {}⟩) contendedRun).map (fun s =>
      (s.commits, s.mutex, s.log.globalNums, s.log.store.file .top)) =
        some ([heartbeatArgs], {}, 1, some (recordText 1 heartbeatArgs)) ∧
    Along LogSystem.step (Settled ⟨0, {}⟩) (.start ⟨0, {}⟩) contendedRun ∧
    Steps LogSystem.step (AllOrNothing ⟨0, {}⟩) (.start ⟨0, {}⟩) contendedRun :=
  ⟨by decide +kernel, output_allOrNothing ⟨0, {}⟩ contendedRun⟩

end

end

end Spsi
