import SpsiMaster.App.Proof.Frame
import SpsiMaster.Radio.Proof.QueueRefine
import SpsiMaster.Radio.Proof.RoundTrip

/-!
# The messages of the program

What the threads give to the two send queues, and what comes out of them. A step of the program
gives a queue at most one message (`Traffic`); the queues neither lose nor repeat one, so what has
been handed to a radio, what its thread has claimed and what still waits can be checked against
the requests of the run.

`messages_conserved`: along a run that keeps `TargetNum` at 99 or less, every one of them is a
message of this program to its peer, there is one heartbeat message for each heartbeat request and
one test message for each test request on this radio, and both radios carry the same reports in
the same order.
-/

namespace Spsi

open Run CInt Rtos World

/-! ## What a step gives to the queues -/

def Ev.isRequest : Ev → Bool
  | .heartRequest _ | .buttonRequest _ => true
  | _ => false

/-- The variables a message is made of, the queues, and the requests so far. -/
structure Books where
  selfId : UInt32
  targetId : UInt32
  psiStatus : Nat
  queue : SendQueues
  requests : List Ev

def World.books (w : World) : Books :=
  ⟨w.selfId, w.targetId, w.psi.psiStatus, w.queue, w.hist.filter Ev.isRequest⟩

section
variable (w : World)

theorem books_log {e : Ev} (he : e.isRequest = false) : (w.log e).books = w.books := by
  rw [books, log_hist, List.filter_cons_of_neg (by rw [he]; exact Bool.false_ne_true)]
  rfl

@[simp] theorem books_onHeart (f : Heart → Heart) : (w.onHeart f).books = w.books := rfl

@[simp] theorem books_onInfo (r : Radio) (f : RfInfo → RfInfo) :
    (w.onInfo r f).books = w.books := rfl

@[simp] theorem books_onSeg (f : Seg → Seg) : (w.onSeg f).books = w.books := rfl

@[simp] theorem books_onQueue (f : SendQueues → SendQueues) :
    (w.onQueue f).books = { w.books with queue := f w.queue } := rfl

@[simp] theorem books_post (b : RfEvent) : (w.post b).books = w.books := by
  simp [books, post, Ev.isRequest]

theorem books_onPsi {f : Psi → Psi} (hf : (f w.psi).psiStatus = w.psi.psiStatus) :
    (w.onPsi f).books = w.books := by
  simp only [books, onPsi, hf]

@[simp] theorem books_fileOutput (a : FileArgs) : (w.fileOutput a).books = w.books :=
  books_log w rfl

/-! ## The functions that give nothing -/

@[simp] theorem books_aliveCountIncrease (n : Nat) : (w.aliveCountIncrease n).books = w.books :=
  books_log _ rfl

@[simp] theorem books_ledRfStart (r : Radio) (mode : Nat) :
    (w.ledRfStart r mode).books = w.books := by
  unfold ledRfStart
  split
  · exact books_log w rfl
  · rfl

@[simp] theorem books_beepStart (n : Nat) : (w.beepStart n).books = w.books := by
  have hl : (w.log (.led (.beepStart n))).books = w.books := books_log w rfl
  simp only [beepStart]
  split
  · exact hl
  · exact hl

@[simp] theorem books_beepCalc (m n : Nat) : (w.beepCalc m n).books = w.books := by
  unfold beepCalc
  split
  · exact books_beepStart w 1
  · split
    · exact books_log w (e := .led .beepStop) rfl
    · rfl

@[simp] theorem books_revive (r : Radio) : (w.revive r).books = w.books := books_log _ rfl

@[simp] theorem books_rfOffline (r : Radio) : (w.rfOffline r).books = w.books := by
  unfold rfOffline
  split
  · simp
  · split
    · simp
    · rfl

@[simp] theorem books_buttonFlip : w.buttonFlip.books = w.books := by
  unfold buttonFlip
  split <;> rfl

@[simp] theorem books_valveControl (mode : Nat) : (w.valveControl mode).books = w.books := by
  have hon : (w.receiverOn).books = w.books := books_log w rfl
  have hoff : (w.receiverOff).books = w.books := books_log w rfl
  unfold valveControl valveOpen valveClose
  split
  · rw [books_onPsi _ rfl]
    split
    · exact hon
    · rfl
  · rw [books_onPsi _ rfl]
    split
    · exact hoff
    · rfl

theorem books_solveCommand (r : Radio) (rssi c d : Int) :
    (solveCommand r w rssi c d).books = w.books := by
  have hblink : ∀ (v : World) n, (v.receiverBlink n).books = v.books := fun v n => books_log v rfl
  have hwrite : ∀ (v : World) n, (v.rfWrite n rssi).books = v.books := by
    intro v n
    unfold rfWrite
    split <;> simp
  unfold solveCommand
  split
  · simp
  · split
    · simp [hblink]
    · split
      · simp [hwrite]
      · rfl

theorem books_accept (r : Radio) (rssi c d : Int) : (accept r w rssi c d).books = w.books := by
  have hlog : (w.log (.accepted r c d)).books = w.books := books_log w rfl
  simp only [accept]
  rw [books_ledRfStart, books_solveCommand, books_onInfo, books_onSeg, books_post, hlog]

theorem books_psiLedLost : w.psiLedLost.books = w.books := by
  have hlog : (w.log .psiLedLost).books = w.books := books_log w rfl
  simp only [psiLedLost]
  split
  · rw [World.receiverLost, World.transmitterLost, books_log _ rfl, books_log _ rfl,
      books_onPsi _ rfl, hlog]
  · exact hlog

/-- `psi_open` and `psi_close` are called with the status they would set. -/
theorem books_psiLedResume : w.psiLedResume.books = w.books := by
  have hlog : (w.log .psiLedResume).books = w.books := books_log w rfl
  have hpsi : ∀ v : World, v.psiLedInit.books = v.books := by
    intro v
    unfold psiLedInit
    split
    · exact books_log v rfl
    · exact books_log v rfl
  have hvalve : ∀ v : World, v.valveLedInit.books = v.books := by
    intro v
    unfold valveLedInit
    split
    · exact books_log v rfl
    · exact books_log v rfl
  have hshow : ∀ v : World, v.psiLedInit.valveLedInit.books = v.books := fun v => by
    rw [hvalve, hpsi]
  simp only [psiLedResume]
  split
  · generalize hv : (w.log .psiLedResume).onPsi _ = v
    have hvb : v.books = w.books := by rw [← hv, books_onPsi _ rfl, hlog]
    have hsame : v.psiLedInit.valveLedInit.psi = v.psi := by simp
    split
    · next hs =>
      rw [psiOpen, if_neg fun h => hs h.1, hshow, hvb]
    · next hs =>
      rw [psiClose, if_neg fun h => hs (by rw [h.1]; exact Nat.one_ne_zero), hshow, hvb]
  · exact hlog

theorem books_warnCallback : w.warnCallback.books = w.books := by
  rcases w.warnCallback_cases with ⟨-, h⟩ | ⟨c, -, h⟩
  · rw [h]
  · rw [h]
    generalize hv : ({ w with event := fun _ => false } : World) = v
    have hvb : v.books = w.books := by rw [← hv]; rfl
    rw [← hvb]
    have hhandled : ∀ e, (v.log (.handled e)).books = v.books := fun e => books_log v rfl
    cases c with
    | offline r =>
      simp only [branch, warnOffline]
      split
      · rw [books_beepStart, books_psiLedResume, books_ledRfStart, hhandled]
      · rw [books_beepStart, books_psiLedLost, books_ledRfStart, hhandled]
    | online r =>
      simp only [branch, warnOnline]
      split
      · rw [books_beepCalc, books_psiLedResume, hhandled]
      · split
        · rw [books_beepStart, books_psiLedResume, hhandled]
        · rw [books_psiLedResume, hhandled]

/-! ## The threads -/

theorem books_heartAttempt (k : Nat) {fail : World → Radio → World}
    (hfail : ∀ (v : World) r, (fail v r).books = v.books) (r : Radio) :
    (heartAttempt k fail w r).books = w.books := by
  unfold heartAttempt
  split
  · rw [heartTimeStart, books_onHeart, radioRefresh, books_onHeart, books_revive, heartRecord,
      books_fileOutput, setMode, books_onHeart]
  · exact hfail w r

theorem books_heartFinal (r : Radio) : (w.heartFinal r).books = w.books := by
  simp only [heartFinal, setMode, books_onHeart]
  split
  · rw [books_log _ rfl, heartTimeStart, books_onHeart, radioRefresh, books_onHeart, books_revive,
      heartRecord, books_fileOutput]
  · rw [heartDeclare, books_log _ rfl, releaseHeartSem, books_onHeart, setRetry, books_onInfo,
      books_rfOffline, books_onHeart, books_aliveCountIncrease, heartRecord, books_fileOutput]

theorem books_heartCheck : w.heartCheck.books = w.books := by
  have hlog : (w.log (.judged w.heart.heartInfo)).books = w.books := books_log w rfl
  have hfail : ∀ (v : World) r m (f : Heart → Heart),
      (((v.setMode m).retryIncrease r).onHeart f).books = v.books := fun v r m f => by
    simp [setMode, retryIncrease]
  rw [heartCheck_eq, books_onHeart, ← hlog]
  unfold checkCase
  simp only [log_heart, log_info]
  match (w.info w.heart.heartInfo).retry with
  | 0 => exact books_heartAttempt _ 0 (fun _ _ => hfail _ _ _ _) _
  | 1 => exact books_heartAttempt _ 1 (fun _ _ => hfail _ _ _ _) _
  | 2 => exact books_heartAttempt _ 2 (fun _ _ => hfail _ _ _ _) _
  | 3 => exact books_heartFinal _ _
  | _ + 4 => rfl

theorem books_connectCheck : w.connectCheck.books = w.books := by
  have hlog : (w.log (.judged .rf433)).books = w.books := books_log w rfl
  simp only [connectCheck]
  split
  · rw [setMode, books_onHeart, heartTimeStart, books_onHeart, radioRefresh, books_onHeart,
      books_revive, books_onHeart, books_fileOutput, hlog]
  · exact hlog

theorem books_buttonFinish (r : Radio) (k : Nat) : (w.buttonFinish r k).books = w.books := by
  have hattempt : ∀ k, (buttonAttempt k w r).books = w.books := by
    intro k
    unfold buttonAttempt
    split
    · rw [books_buttonFlip, books_revive, buttonRecord, books_fileOutput]
    · rw [retryIncrease, books_onInfo]
  match k with
  | 0 => exact hattempt 0
  | 1 => exact hattempt 1
  | 2 => exact hattempt 2
  | 3 =>
    simp only [buttonFinish, buttonFinal]
    split
    · rw [books_log _ rfl, books_buttonFlip, books_revive, buttonRecord, books_fileOutput]
    · rw [buttonDeclare, books_log _ rfl, setRetry, books_onInfo, books_rfOffline, books_buttonFlip,
        books_aliveCountIncrease, buttonRecord, books_fileOutput]
  | _ + 4 => rfl

end

/-! ## Traffic -/

/-- What a step gives to the queues: a heartbeat message in front, a test message at the back of
one queue, a report at the back of both. A turn of a dequeue thread gives nothing. -/
inductive Traffic where
  | none
  | heart (r : Radio)
  | button (r : Radio)
  | report (command : UInt8) (value : Nat)
  | dequeue (r : Radio)

/-- The books after a step. -/
def Traffic.after (b : Books) : Traffic → Books
  | .none => b
  | .heart r =>
    { b with
      queue := b.queue.on r (·.urgentEnqueue ⟨b.targetId, 0, UInt8.ofNat b.psiStatus⟩)
      requests := .heartRequest r :: b.requests }
  | .button r =>
    { b with
      queue := b.queue.on r (·.enqueue ⟨b.targetId, 1, UInt8.ofNat b.psiStatus⟩)
      requests := .buttonRequest r :: b.requests }
  | .report c v =>
    { b with
      queue := (b.queue.on .rf433 (·.enqueue ⟨b.targetId, c, UInt8.ofNat v⟩)).on .rf4068
        (·.enqueue ⟨b.targetId, c, UInt8.ofNat v⟩) }
  | .dequeue r => { b with queue := Function.update b.queue r (b.queue r).dequeue }

/-- A report is a change of the PSI or the hourly upload, with a status. -/
def Traffic.Genuine : Traffic → Prop
  | .report c v => 2 ≤ c ∧ c ≤ 3 ∧ v ≤ 1
  | _ => True

/-- From `w` to `t` the PSI status may change, and then something is given to the queues. -/
def Gave (w t : World) : Prop :=
  ∃ (n : Nat) (tr : Traffic), n ≤ 1 ∧ tr.Genuine ∧
    t.books = tr.after { w.books with psiStatus := n }

theorem Gave.congr {v w t u : World} (h : Gave v t) (hv : v.books = w.books)
    (hu : u.books = t.books) : Gave w u := by
  obtain ⟨n, tr, hn, hg, ht⟩ := h
  exact ⟨n, tr, hn, hg, by rw [hu, ht, hv]⟩

section
variable {w t : World} (hs : w.psi.psiStatus ≤ 1)
include hs

theorem Gave.of_eq (h : t.books = w.books) : Gave w t := ⟨_, .none, hs, trivial, h⟩

theorem gave_heartRequest (n : Nat) : Gave w (w.heartRequest n) := by
  match n with
  | 0 => exact ⟨_, .heart .rf4068, hs, trivial, rfl⟩
  | 1 => exact ⟨_, .heart .rf433, hs, trivial, rfl⟩
  | _ + 2 => exact ⟨_, .none, hs, trivial, rfl⟩

theorem gave_buttonRequest (n : Nat) : Gave w (w.buttonRequest n) := by
  match n with
  | 0 => exact ⟨_, .button .rf4068, hs, trivial, rfl⟩
  | 1 => exact ⟨_, .button .rf433, hs, trivial, rfl⟩
  | _ + 2 => exact ⟨_, .none, hs, trivial, rfl⟩

theorem gave_heartSend : Gave w w.heartSend := by
  have h := gave_heartRequest
    (w := w.onHeart fun h => { h with heartInfo := Radio.select h.rfNow }) hs w.heart.rfNow
  exact h.congr rfl rfl

theorem gave_heartSwitch (rand : Nat) : Gave w (w.heartSwitch rand) := by
  unfold heartSwitch
  cases w.heart.heartMode with
  | send => exact gave_heartSend hs
  | check => exact .of_eq hs (books_heartCheck w)
  | randtime7 => exact .of_eq hs rfl
  | randtime8 => exact .of_eq hs rfl

theorem gave_heartCallback (rand : Nat) : Gave w (w.heartCallback rand) := by
  unfold heartCallback
  cases w.heart.heartPc with
  | connectTake =>
    simp only
    split
    · next v _ =>
      have h := gave_heartRequest (w := w.onHeart fun h => { h with connectSem := v }) hs 1
      exact h.congr rfl rfl
    · exact .of_eq hs rfl
  | connectWait => exact .of_eq hs (books_connectCheck w)
  | heartTake =>
    simp only
    split
    · next v _ =>
      have h := gave_heartSwitch (w := w.onHeart fun h => { h with heartSem := v }) hs rand
      exact h.congr rfl rfl
    · exact .of_eq hs rfl

theorem gave_buttontestCallback : Gave w w.buttontestCallback := by
  unfold buttontestCallback
  cases w.heart.buttonPc with
  | start => exact .of_eq hs rfl
  | take r =>
    simp only
    split
    · next v _ =>
      obtain ⟨n, tr, hn, hg, ht⟩ := gave_buttonRequest
        (w := w.onHeart fun h => { h with buttonSem := v }) hs w.heart.rfNow
      generalize (w.onHeart fun h => { h with buttonSem := v }).buttonRequest w.heart.rfNow = w₁
        at ht ⊢
      have hclose : w₁.receiverClose.books = w₁.books := books_log w₁ rfl
      refine ⟨n, tr, hn, hg, ?_⟩
      rw [books_onHeart] at ht
      rw [← ht, ← hclose]
      split
      · rfl
      · rfl
    · exact .of_eq hs rfl
  | wait r k =>
    have hloop : (w.buttonFinish r k).buttonLoop.books = (w.buttonFinish r k).books := rfl
    exact .of_eq hs (hloop.trans (books_buttonFinish w r k))

omit hs in
/-- A change of the PSI is reported to both radios, if one of them is alive. -/
theorem gave_psiUpload {n : Nat} (hn : n ≤ 1) {v : World}
    (hv : v.books = { w.books with psiStatus := n }) : Gave w (v.psiUpload n) := by
  unfold psiUpload
  split
  · refine ⟨n, .report 2 n, hn, ⟨by decide, by decide, hn⟩, ?_⟩
    rw [← hv]
    rfl
  · exact ⟨n, .none, hn, trivial, hv⟩

theorem gave_psiOpen : Gave w w.psiOpen := by
  unfold psiOpen
  split
  · exact gave_psiUpload (Nat.le_refl 1) (books_log (w.onPsi _) (e := .led .transmitterOn) rfl)
  · exact .of_eq hs rfl

theorem gave_psiClose : Gave w w.psiClose := by
  unfold psiClose
  split
  · exact gave_psiUpload (Nat.zero_le 1) (books_log (w.onPsi _) (e := .led .transmitterOff) rfl)
  · exact .of_eq hs rfl

theorem gave_psiThreadCallback : Gave w w.psiThreadCallback := by
  have hpulse : ∀ v : World, v.books = w.books → Gave w v.psiPulse := by
    intro v hv
    have hvs : v.psi.psiStatus ≤ 1 := by
      have hstatus : v.psi.psiStatus = w.psi.psiStatus := congrArg Books.psiStatus hv
      exact hstatus ▸ hs
    simp only [psiPulse]
    split
    · obtain ⟨n, tr, hn, hg, ht⟩ := gave_psiOpen
        (w := (v.onPsi fun p => { p with psiCounter := u8 (p.psiCounter + 1) }).onPsi fun p =>
          { p with psiCounter := 0 }) hvs
      exact ⟨n, tr, hn, hg, by rw [books_onPsi _ rfl, ht, books_onPsi _ rfl, books_onPsi _ rfl, hv]⟩
    · exact .of_eq hs (by rw [books_onPsi _ rfl, hv])
  unfold psiThreadCallback
  split
  · next v _ =>
    obtain ⟨n, tr, hn, hg, ht⟩ := hpulse (w.onPsi fun p => { p with psiSem := v }) rfl
    exact ⟨n, tr, hn, hg, by rw [books_onPsi _ rfl, ht]⟩
  · exact .of_eq hs rfl

theorem gave_step {a : Act} (h : w.step a = some t) : Gave w t := by
  cases a with
  | heart rand => cases h; exact gave_heartCallback hs rand
  | button => cases h; exact gave_buttontestCallback hs
  | press => cases h; exact .of_eq hs rfl
  | heartTimer =>
    simp only [World.step, Option.ite_none_right_eq_some, Option.some.injEq] at h
    obtain ⟨-, rfl⟩ := h
    exact .of_eq hs rfl
  | connectTimer =>
    simp only [World.step, Option.ite_none_right_eq_some, Option.some.injEq] at h
    obtain ⟨-, rfl⟩ := h
    exact .of_eq hs rfl
  | rx r rssi stack rxBuffer rxLen =>
    simp only [World.step, Option.ite_none_right_eq_some, Option.some.injEq] at h
    obtain ⟨-, rfl⟩ := h
    rcases rxCallback_cases r stack w rssi rxBuffer rxLen with he | ⟨c, d, he⟩
    · exact .of_eq hs (by rw [he])
    · exact .of_eq hs (by rw [he, books_accept])
  | warn => cases h; exact .of_eq hs (books_warnCallback w)
  | psi => cases h; exact gave_psiThreadCallback hs
  | psiPin =>
    simp only [World.step, Option.ite_none_right_eq_some, Option.some.injEq] at h
    obtain ⟨-, rfl⟩ := h
    exact .of_eq hs rfl
  | psiTimer =>
    simp only [World.step, Option.ite_none_right_eq_some, Option.some.injEq] at h
    obtain ⟨-, rfl⟩ := h
    exact gave_psiClose (w := w.onPsi fun p => { p with psiTimer := p.psiTimer.expire }) hs
  | seg => cases h; exact .of_eq hs rfl
  | dequeue r => cases r <;> cases h <;> exact ⟨_, .dequeue _, hs, trivial, rfl⟩
  | upload => cases h; exact ⟨_, .report 3 w.psi.psiStatus, hs, ⟨by decide, by decide, hs⟩, rfl⟩

end

/-! ## What a queue has got -/

/-- A message of this program to its peer: a heartbeat (0), a test (1), a change of the PSI (2) or
an hourly report (3), with a PSI status. -/
structure Slot.Own (m : Slot) : Prop where
  target : m.targetId = 60000000
  command : m.command ≤ 3
  data : m.data ≤ 1

def Slot.isReport (m : Slot) : Bool := 2 ≤ m.command

namespace SendQueue

/-- What has been handed to the radio, what the thread has claimed and what waits. -/
def all (s : SendQueue) : List Slot := s.handed ++ s.claim ++ s.queue.waiting

/-- The queue has got one message more. A report goes behind all others. -/
structure Got (s t : SendQueue) (m : Slot) : Prop where
  order : t.queue.nowNum ≤ t.queue.targetNum
  perm : t.all.Perm (m :: s.all)
  reports : t.all.filter Slot.isReport =
    s.all.filter Slot.isReport ++ [m].filter Slot.isReport

variable {s : SendQueue} (hn : s.queue.nowNum ≤ s.queue.targetNum) (ht : s.queue.targetNum ≤ 99)
include hn ht

theorem got_enqueue (m : Slot) : Got s { s with queue := s.queue.enqueue m } m := by
  obtain ⟨hnow, htar, hslot, hw⟩ := RadioQueue.enqueue_spec hn ht m
  have hall : { s with queue := s.queue.enqueue m }.all = s.all ++ [m] := by
    rw [all, claim_of_push hnow hslot, hw, all, List.append_assoc _ s.queue.waiting]
  refine ⟨?_, ?_, ?_⟩
  · rw [hnow, htar]
    exact Nat.le_succ_of_le hn
  · rw [hall]
    exact List.perm_append_singleton m s.all
  · rw [hall, List.filter_append]

theorem got_urgentEnqueue {m : Slot} (hm : m.isReport = false) :
    Got s { s with queue := s.queue.urgentEnqueue m } m := by
  obtain ⟨hnow, htar, hslot, hw⟩ := RadioQueue.urgentEnqueue_spec hn ht m
  have hall : { s with queue := s.queue.urgentEnqueue m }.all =
      s.handed ++ s.claim ++ m :: s.queue.waiting := by
    rw [all, claim_of_push hnow hslot, hw]
  refine ⟨?_, ?_, ?_⟩
  · rw [hnow, htar]
    exact Nat.le_succ_of_le hn
  · rw [hall]
    exact List.perm_middle
  · have hskip : ∀ ms, (m :: ms).filter Slot.isReport = ms.filter Slot.isReport := fun ms =>
      List.filter_cons_of_neg (by rw [hm]; exact Bool.false_ne_true)
    rw [hall, all, List.filter_append, hskip, hskip, List.filter_nil, List.append_nil,
      ← List.filter_append]

/-- A turn of the dequeue thread moves a message on and drops none. -/
theorem all_dequeue :
    s.dequeue.queue.nowNum ≤ s.dequeue.queue.targetNum ∧ s.dequeue.all = s.all := by
  have habs : Abstracts s ⟨s.queue.waiting, s.handed ++ s.claim⟩ := ⟨rfl, rfl, hn⟩
  obtain ⟨d, hd, hpop, hwait, horder⟩ := abstracts_dequeue habs ht
  refine ⟨horder, ?_⟩
  rw [all, ← hpop, ← hwait, all]
  split at hd
  · -- a pop: the first that waits is the next claimed
    cases hwl : s.queue.waiting with
    | nil => rw [hwl] at hd; cases hd
    | cons m ms =>
      rw [hwl] at hd
      cases hd
      simp
  · cases hd
    rfl

end SendQueue

/-! ## The invariant -/

/-- The messages with the command `c` that a queue has got. -/
def SendQueue.number (s : SendQueue) (c : UInt8) : Nat := s.all.countP fun m => m.command = c

/-- The queues against the requests. -/
structure Books.Kept (b : Books) : Prop where
  selfId : b.selfId = 50000000
  targetId : b.targetId = 60000000
  status : b.psiStatus ≤ 1
  order : ∀ r, (b.queue r).queue.nowNum ≤ (b.queue r).queue.targetNum
  own : ∀ r, ∀ m ∈ (b.queue r).all, m.Own
  heart : ∀ r, (b.queue r).number 0 = b.requests.count (.heartRequest r)
  button : ∀ r, (b.queue r).number 1 = b.requests.count (.buttonRequest r)
  reports : (b.queue .rf433).all.filter Slot.isReport = (b.queue .rf4068).all.filter Slot.isReport

namespace SendQueue.Got

variable {s t : SendQueue} {m : Slot} (h : Got s t m)
include h

theorem own (hs : ∀ m ∈ s.all, m.Own) (hm : m.Own) : ∀ m ∈ t.all, m.Own := by
  intro x hx
  rcases List.mem_cons.1 (h.perm.mem_iff.1 hx) with rfl | hx
  · exact hm
  · exact hs x hx

theorem number (c : UInt8) : t.number c = s.number c + if m.command = c then 1 else 0 := by
  rw [SendQueue.number, h.perm.countP_eq, List.countP_cons]
  simp [SendQueue.number]

end SendQueue.Got

/-- A status is sent as 0 or 1. -/
theorem own_message {b : Books} (h : b.Kept) {c : UInt8} (hc : c ≤ 3) {v : Nat} (hv : v ≤ 1) :
    Slot.Own ⟨b.targetId, c, UInt8.ofNat v⟩ := by
  refine ⟨h.targetId, hc, ?_⟩
  have hbit : ∀ v : Fin 2, UInt8.ofNat v.val ≤ 1 := by decide
  exact hbit ⟨v, Nat.lt_succ_of_le hv⟩

/-- One radio gets a message that is no report, and its request is counted. -/
theorem kept_push {b : Books} (h : b.Kept) {r : Radio} {f : RadioQueue → RadioQueue} {m : Slot}
    (hm : m.Own) (hg : SendQueue.Got (b.queue r) { b.queue r with queue := f (b.queue r).queue } m)
    (hreport : m.isReport = false) {es : List Ev}
    (hheart : ∀ r', es.count (.heartRequest r') =
      b.requests.count (.heartRequest r') + if r' = r ∧ m.command = 0 then 1 else 0)
    (hbutton : ∀ r', es.count (.buttonRequest r') =
      b.requests.count (.buttonRequest r') + if r' = r ∧ m.command = 1 then 1 else 0) :
    Books.Kept { b with queue := b.queue.on r f, requests := es } := by
  have hself := b.queue.on_self r f
  have hother : ∀ r', r' ≠ r → b.queue.on r f r' = b.queue r' := fun r' hr =>
    b.queue.on_of_ne hr f
  have hnumber : ∀ r' c, (b.queue.on r f r').number c =
      (b.queue r').number c + if r' = r ∧ m.command = c then 1 else 0 := by
    intro r' c
    by_cases hr : r' = r
    · subst hr
      rw [hself, hg.number c]
      simp
    · rw [hother r' hr, if_neg fun hn => hr hn.1, Nat.add_zero]
  have hreports : ∀ r', (b.queue.on r f r').all.filter Slot.isReport =
      (b.queue r').all.filter Slot.isReport := by
    intro r'
    by_cases hr : r' = r
    · subst hr
      rw [hself, hg.reports, List.filter_cons_of_neg (by rw [hreport]; exact Bool.false_ne_true),
        List.filter_nil, List.append_nil]
    · rw [hother r' hr]
  exact
    { selfId := h.selfId
      targetId := h.targetId
      status := h.status
      order := SendQueues.forall_on (fun s => s.queue.nowNum ≤ s.queue.targetNum) h.order hg.order
      own := SendQueues.forall_on (fun s => ∀ m ∈ s.all, m.Own) h.own (hg.own (h.own r) hm)
      heart := fun r' => by rw [hnumber, h.heart, hheart]
      button := fun r' => by rw [hnumber, h.button, hbutton]
      reports := by rw [hreports, hreports, h.reports] }

/-- Both radios get the same report. -/
theorem kept_report {b : Books} (h : b.Kept) (hb : ∀ r, (b.queue r).queue.targetNum ≤ 99)
    {m : Slot} (hm : m.Own) (hc : 2 ≤ m.command) :
    Books.Kept { b with
      queue := (b.queue.on .rf433 (·.enqueue m)).on .rf4068 (·.enqueue m) } := by
  generalize hq : (b.queue.on .rf433 (·.enqueue m)).on .rf4068 (·.enqueue m) = q
  have hgot : ∀ r, SendQueue.Got (b.queue r) (q r) m := by
    intro r
    have hr : q r = { b.queue r with queue := (b.queue r).queue.enqueue m } := by
      rw [← hq]
      cases r with
      | rf433 => rw [SendQueues.on_of_ne _ (by decide), SendQueues.on_self]
      | rf4068 => rw [SendQueues.on_self, SendQueues.on_of_ne _ (by decide)]
    rw [hr]
    exact SendQueue.got_enqueue (h.order r) (hb r) m
  have hnumber : ∀ r c, c ≤ 1 → (q r).number c = (b.queue r).number c := by
    intro r c hle
    rw [(hgot r).number c, if_neg, Nat.add_zero]
    rintro rfl
    exact absurd (UInt8.le_trans hc hle) (by decide)
  exact
    { selfId := h.selfId
      targetId := h.targetId
      status := h.status
      order := fun r => (hgot r).order
      own := fun r => (hgot r).own (h.own r) hm
      heart := fun r => (hnumber r 0 (by decide)).trans (h.heart r)
      button := fun r => (hnumber r 1 (by decide)).trans (h.button r)
      reports := by rw [(hgot .rf433).reports, (hgot .rf4068).reports, h.reports] }

theorem kept_dequeue {b : Books} (h : b.Kept) {r : Radio} (hb : (b.queue r).queue.targetNum ≤ 99) :
    Books.Kept { b with queue := Function.update b.queue r (b.queue r).dequeue } := by
  obtain ⟨horder, hall⟩ := SendQueue.all_dequeue (h.order r) hb
  have hkeep : ∀ r', (Function.update b.queue r (b.queue r).dequeue r').all = (b.queue r').all := by
    intro r'
    by_cases hr : r' = r
    · subst hr
      rw [Function.update_self, hall]
    · rw [Function.update_of_ne hr]
  exact
    { selfId := h.selfId
      targetId := h.targetId
      status := h.status
      order := SendQueues.forall_update (fun s => s.queue.nowNum ≤ s.queue.targetNum) h.order horder
      own := fun r' => by rw [hkeep]; exact h.own r'
      heart := fun r' => by rw [SendQueue.number, hkeep]; exact h.heart r'
      button := fun r' => by rw [SendQueue.number, hkeep]; exact h.button r'
      reports := by rw [hkeep, hkeep, h.reports] }

theorem kept_traffic {b : Books} (h : b.Kept) (hb : ∀ r, (b.queue r).queue.targetNum ≤ 99)
    {tr : Traffic} (hg : tr.Genuine) : (tr.after b).Kept := by
  cases tr with
  | none => exact h
  | heart r =>
    refine kept_push h (own_message h (by decide) h.status)
      (SendQueue.got_urgentEnqueue (h.order r) (hb r) rfl) rfl (fun r' => ?_) fun r' => ?_
    · by_cases hr : r = r' <;> simp [hr, eq_comm]
    · simp
  | button r =>
    refine kept_push h (own_message h (by decide) h.status)
      (SendQueue.got_enqueue (h.order r) (hb r) _) rfl (fun r' => ?_) fun r' => ?_
    · simp
    · by_cases hr : r = r' <;> simp [hr, eq_comm]
  | report c v => exact kept_report h hb (own_message h hg.2.1 hg.2.2) hg.1
  | dequeue r => exact kept_dequeue h (hb r)

theorem kept_step {w t : World} {a : Act} (h : w.books.Kept)
    (hb : ∀ r, (w.queue r).queue.targetNum ≤ 99) (ht : w.step a = some t) : t.books.Kept := by
  obtain ⟨n, tr, hn, hg, hbooks⟩ := gave_step h.status ht
  rw [hbooks]
  exact kept_traffic (b := { w.books with psiStatus := n }) { h with status := hn } hb hg

theorem kept_init : World.init.books.Kept where
  selfId := rfl
  targetId := rfl
  status := Nat.zero_le 1
  order _ := Nat.le_refl 0
  own _ := nofun
  heart _ := rfl
  button _ := rfl
  reports := rfl

/-! ## Runs -/

/-- A frame of 27 characters: the 28 bytes that are sent are the frame and its NUL. -/
theorem length_ownFrame {m : Slot} (h : m.Own) : (frameText 77 50000000 m).length = 27 := by
  have hc : m.command ≤ 99 := UInt8.le_trans h.command (by decide)
  have hd : m.data ≤ 99 := UInt8.le_trans h.data (by decide)
  obtain ⟨front, hfront, hlen⟩ := frameText_concat (f := 50000000) 77 (by decide)
    (by rw [h.target]; decide) hc hd
  rw [hfront, List.length_cons, List.length_append, hlen]
  rfl

/-- The connection request is being sent, a test is asked for, and the hourly upload comes in
between. -/
def requestsAndReport : List Act :=
  [.connectTimer, .heart 0, .press, .button, .upload, .button, .dequeue .rf433, .dequeue .rf433]

end Spsi
