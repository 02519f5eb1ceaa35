import SpsiMaster.App.Proof.Frame

/-!
# Views of the links

An `Observation` is a view of the state that the two threads of `heart.c` change by four
operations only: a radio is found alive, it is declared offline, its fourth attempt is judged, the
receiver lamp is closed. For every such view a step of the threads does one of these operations
(`Observation.heartCallback`, `Observation.buttontestCallback`), by the attempt that it ends.
-/

namespace Spsi

open Rtos CInt World

/-- The calls of the two threads that are none of the operations. -/
def Ev.isRecord : Ev → Bool
  | .fileOutput _ | .heartRequest _ | .buttonRequest _ | .judged _ | .charged _ => true
  | _ => false

/-- A view of the state and its operations. -/
structure Observation (β : Type) where
  view : World → β
  revive : Radio → β → β
  offline : Radio → β → β
  judge : Radio → Bool → β → β
  close : β → β
  view_heart : ∀ w t : World, t.info = w.info → t.event = w.event → t.psi = w.psi →
    t.hist = w.hist → view t = view w
  view_info : ∀ (w : World) r (f : RfInfo → RfInfo), (∀ i, (f i).alive = i.alive) →
    (∀ i, (f i).startup = i.startup) → view (w.onInfo r f) = view w
  view_log : ∀ (w : World) e, e.isRecord = true → view (w.log e) = view w
  view_revive : ∀ (w : World) r, view (w.revive r) = revive r (view w)
  view_offline : ∀ (w : World) r, view (w.rfOffline r) = offline r (view w)
  view_judge : ∀ (w : World) r ok, view (w.log (.verdict r ok)) = judge r ok (view w)
  view_close : ∀ w : World, view w.receiverClose = close (view w)

namespace Observation

variable {β : Type} (o : Observation β)

/-- The end of an attempt, the fourth being number 3. -/
def attempt (r : Radio) (k : Nat) (ok : Bool) (b : β) : β :=
  match k with
  | 0 | 1 | 2 => if ok then o.revive r b else b
  | 3 => if ok then o.judge r true (o.revive r b) else o.judge r false (o.offline r b)
  | _ => b

variable (w : World) (r : Radio)

theorem onHeart (f : Heart → Heart) : o.view (w.onHeart f) = o.view w :=
  o.view_heart w _ rfl rfl rfl rfl

theorem onQueue (f : SendQueues → SendQueues) : o.view (w.onQueue f) = o.view w :=
  o.view_heart w _ rfl rfl rfl rfl

theorem buttonFlip : o.view w.buttonFlip = o.view w :=
  o.view_heart w _ (buttonFlip_info w) (buttonFlip_event w) (buttonFlip_psi w) (buttonFlip_hist w)

theorem aliveCountIncrease (n : Nat) : o.view (w.aliveCountIncrease n) = o.view w :=
  (o.view_log _ _ rfl).trans (o.view_heart w _ rfl rfl rfl rfl)

theorem heartRequest (n : Nat) : o.view (w.heartRequest n) = o.view w := by
  have hcase : ∀ r (f : SendQueues → SendQueues), o.view ((((w.onHeart fun h =>
      { h with rfNow := n }).onInfo r fun i => { i with received := false }).onQueue f).log
        (.heartRequest r)) = o.view w := by
    intro r f
    rw [o.view_log _ _ rfl, o.onQueue, o.view_info _ r (fun i => { i with received := false })
      (fun _ => rfl) fun _ => rfl, o.onHeart]
  unfold World.heartRequest
  split
  · exact hcase .rf4068 _
  · exact hcase .rf433 _
  · exact o.onHeart w _

theorem buttonRequest (n : Nat) : o.view (w.buttonRequest n) = o.view w := by
  have hcase : ∀ r (f : SendQueues → SendQueues), o.view ((((w.onHeart fun h =>
      { h with rfNow := n }).onInfo r fun i => { i with testreceived := false }).onQueue f).log
        (.buttonRequest r)) = o.view w := by
    intro r f
    rw [o.view_log _ _ rfl, o.onQueue, o.view_info _ r (fun i => { i with testreceived := false })
      (fun _ => rfl) fun _ => rfl, o.onHeart]
  unfold World.buttonRequest
  split
  · exact hcase .rf4068 _
  · exact hcase .rf433 _
  · exact o.onHeart w _

/-! ## The end of an attempt -/

theorem heartAttempt {k : Nat} {fail : World → Radio → World}
    (hf : o.view (fail w r) = o.view w) : o.view (World.heartAttempt k fail w r) =
      if (w.info r).received then o.revive r (o.view w) else o.view w := by
  unfold World.heartAttempt
  split
  · have hrec : o.view ((w.setMode .send).heartRecord r true k) = o.view w :=
      (o.view_log _ _ rfl).trans (o.onHeart w _)
    exact (o.onHeart _ _).trans ((o.onHeart _ _).trans ((o.view_revive _ r).trans (by rw [hrec])))
  · exact hf

theorem heartFinal : o.view (w.heartFinal r) = o.attempt r 3 (w.info r).received (o.view w) := by
  have hrec : ∀ b, o.view (w.heartRecord r b 3) = o.view w := fun b => o.view_log _ _ rfl
  simp only [World.heartFinal]
  have hinfo : ((w.heartRecord r (w.info r).received 3).info r).received =
      (w.info r).received := rfl
  rw [hinfo, World.setMode, o.onHeart]
  cases (w.info r).received with
  | true =>
    rw [if_pos rfl, o.view_judge, World.heartTimeStart, o.onHeart, World.radioRefresh, o.onHeart,
      o.view_revive, hrec]
    rfl
  | false =>
    have hretry : ∀ v : World, o.view (v.setRetry r 0) = o.view v := fun v =>
      o.view_info v r _ (fun _ => rfl) fun _ => rfl
    rw [if_neg Bool.false_ne_true, World.heartDeclare, o.view_judge, World.releaseHeartSem,
      o.onHeart, hretry, o.view_offline, o.onHeart, o.aliveCountIncrease, hrec]
    rfl

/-- A check ends the attempt that `retry` names. -/
theorem heartCheck : o.view w.heartCheck = o.attempt w.heart.heartInfo
    (w.info w.heart.heartInfo).retry (w.info w.heart.heartInfo).received (o.view w) := by
  have hlog : o.view (w.log (.judged w.heart.heartInfo)) = o.view w := o.view_log _ _ rfl
  have hretry : ∀ (v : World) r, o.view (v.retryIncrease r) = o.view v := fun v r =>
    o.view_info v r _ (fun _ => rfl) fun _ => rfl
  have hfail : ∀ (v : World) r m (f : Heart → Heart),
      o.view (((v.setMode m).retryIncrease r).onHeart f) = o.view v := fun v r m f =>
    (o.onHeart _ f).trans ((hretry _ r).trans (o.onHeart v _))
  rw [heartCheck_eq, o.onHeart, ← hlog]
  unfold checkCase
  simp only [log_heart, log_info]
  match (w.info w.heart.heartInfo).retry with
  | 0 => exact o.heartAttempt _ _ (hfail _ _ _ _)
  | 1 => exact o.heartAttempt _ _ (hfail _ _ _ _)
  | 2 => exact o.heartAttempt _ _ (hfail _ _ _ _)
  | 3 => exact o.heartFinal _ _
  | _ + 4 => rfl

/-- The end of a test ends the attempt that it was started for. -/
theorem buttonFinish (k : Nat) : o.view (w.buttonFinish r k) =
    o.attempt r k (w.info r).testreceived (o.view w) := by
  have hattempt : ∀ k, o.view (World.buttonAttempt k w r) =
      if (w.info r).testreceived then o.revive r (o.view w) else o.view w := by
    intro k
    unfold World.buttonAttempt
    split
    · rw [o.buttonFlip, o.view_revive, World.buttonRecord, World.fileOutput, o.view_log _ _ rfl]
    · exact o.view_info w r _ (fun _ => rfl) fun _ => rfl
  have hrec : ∀ b, o.view (w.buttonRecord r b 3) = o.view w := fun b => o.view_log _ _ rfl
  have hretry : ∀ v : World, o.view (v.setRetry r 0) = o.view v := fun v =>
    o.view_info v r _ (fun _ => rfl) fun _ => rfl
  match k with
  | 0 => exact hattempt 0
  | 1 => exact hattempt 1
  | 2 => exact hattempt 2
  | 3 =>
    have hinfo : ((w.buttonRecord r (w.info r).testreceived 3).info r).testreceived =
        (w.info r).testreceived := rfl
    simp only [World.buttonFinish, World.buttonFinal, attempt]
    rw [hinfo]
    cases (w.info r).testreceived with
    | true => rw [if_pos rfl, if_pos rfl, o.view_judge, o.buttonFlip, o.view_revive, hrec]
    | false =>
      rw [if_neg Bool.false_ne_true, if_neg Bool.false_ne_true, World.buttonDeclare, o.view_judge,
        hretry, o.view_offline, o.buttonFlip, o.aliveCountIncrease, hrec]
  | _ + 4 => rfl

/-! ## The threads -/

theorem heartRandtime (max rand : Nat) : o.view (w.heartRandtime max rand) = o.view w := by
  simp only [World.heartRandtime]
  rw [World.heartTimeStart, o.onHeart, o.onHeart, World.setMode, o.onHeart]

/-- A turn of the heartbeat thread that executes `case check`. -/
theorem heartCallback_check (rand : Nat) (hpc : w.heart.heartPc = .heartTake)
    (hsem : 0 < w.heart.heartSem) (hm : w.heart.heartMode = .check) :
    o.view (w.heartCallback rand) = o.attempt w.heart.heartInfo
      (w.info w.heart.heartInfo).retry (w.info w.heart.heartInfo).received (o.view w) := by
  have htake : semTake w.heart.heartSem = some (w.heart.heartSem - 1) := if_pos hsem
  simp only [World.heartCallback, hpc, htake]
  rw [World.heartGoto, o.onHeart, World.heartSwitch, onHeart_heart, hm]
  exact (o.heartCheck _).trans (congrArg _ (o.onHeart w _))

/-- A step of the heartbeat thread finds the connection, ends an attempt or leaves the view. -/
theorem heartCallback (rand : Nat) : o.view (w.heartCallback rand) = o.view w ∨
    o.view (w.heartCallback rand) = o.revive .rf433 (o.view w) ∨
    w.heart.heartPc = .heartTake ∧ 0 < w.heart.heartSem ∧ w.heart.heartMode = .check := by
  unfold World.heartCallback
  split
  · split
    · exact .inl ((o.onHeart _ _).trans ((o.heartRequest _ 1).trans (o.onHeart w _)))
    · exact .inl (o.onHeart w _)
  · simp only [World.connectCheck]
    have hlog : o.view (w.log (.judged .rf433)) = o.view w := o.view_log _ _ rfl
    split
    · right; left
      rw [World.heartGoto, o.onHeart, World.setMode, o.onHeart, World.heartTimeStart, o.onHeart,
        World.radioRefresh, o.onHeart, o.view_revive, o.onHeart, World.fileOutput,
        o.view_log _ _ rfl, hlog]
    · exact .inl ((o.onHeart _ _).trans hlog)
  · next hpc =>
    split
    · next v hv =>
      rw [World.heartGoto, o.onHeart]
      unfold World.heartSwitch
      split
      · left
        simp only [World.heartSend]
        rw [o.onHeart, World.setMode, o.onHeart, World.heartTimeStart, o.onHeart, o.heartRequest,
          o.onHeart, o.onHeart]
      · next hm =>
        refine .inr (.inr ⟨hpc, ?_, hm⟩)
        rw [semTake_eq_some.1 hv]
        exact Nat.succ_pos v
      · left
        rw [o.heartRandtime, o.onHeart]
      · left
        rw [o.heartRandtime, o.onHeart]
    · exact .inl (o.onHeart w _)

theorem buttonLoop : o.view w.buttonLoop = o.view w :=
  o.onHeart w fun h => { h with buttonPc := .take (Radio.select w.heart.rfNow) }

/-- The end of a test. -/
theorem buttontestCallback_wait {k : Nat} (hpc : w.heart.buttonPc = .wait r k) :
    o.view w.buttontestCallback = o.attempt r k (w.info r).testreceived (o.view w) := by
  simp only [World.buttontestCallback, hpc]
  rw [o.buttonLoop, o.buttonFinish]

/-- The start of a test. -/
theorem buttontestCallback_take (hpc : w.heart.buttonPc = .take r) (hsem : 0 < w.heart.buttonSem) :
    o.view w.buttontestCallback = o.close (o.view w) := by
  have htake : semTake w.heart.buttonSem = some (w.heart.buttonSem - 1) := if_pos hsem
  have hreq : ∀ v : Nat, o.view (((w.onHeart fun h => { h with buttonSem := v }).buttonRequest
      w.heart.rfNow).receiverClose) = o.close (o.view w) := by
    intro v
    rw [o.view_close, o.buttonRequest, o.onHeart]
  simp only [World.buttontestCallback, hpc, htake]
  split
  · rw [World.buttonGoto, o.onHeart, hreq]
  · rw [o.buttonLoop, hreq]

/-- A step of the button thread starts a test, ends an attempt or leaves the view. -/
theorem buttontestCallback : o.view w.buttontestCallback = o.view w ∨
    (∃ r, w.heart.buttonPc = .take r ∧ 0 < w.heart.buttonSem) ∨
    ∃ r k, w.heart.buttonPc = .wait r k := by
  unfold World.buttontestCallback
  split
  · exact .inl (o.buttonLoop w)
  · next r hpc =>
    split
    · next v hv =>
      refine .inr (.inl ⟨r, hpc, ?_⟩)
      rw [semTake_eq_some.1 hv]
      exact Nat.succ_pos v
    · exact .inl (o.buttonLoop w)
  · next r k hpc => exact .inr (.inr ⟨r, k, hpc⟩)

/-! ## Invariants of the operations -/

section
variable {o : Observation β} {P : β → Prop} (hrevive : ∀ r b, P b → P (o.revive r b))
  (hoffline : ∀ r b, P b → P (o.offline r b)) (hjudge : ∀ r ok b, P b → P (o.judge r ok b))
include hrevive hoffline hjudge

theorem attempt_keeps (r : Radio) (k : Nat) (ok : Bool) {b : β} (h : P b) :
    P (o.attempt r k ok b) := by
  have hearly : P (if ok then o.revive r b else b) := by
    cases ok with
    | true => exact hrevive r b h
    | false => exact h
  match k with
  | 0 => exact hearly
  | 1 => exact hearly
  | 2 => exact hearly
  | 3 =>
    cases ok with
    | true => exact hjudge r true _ (hrevive r b h)
    | false => exact hjudge r false _ (hoffline r b h)
  | _ + 4 => exact h

/-- What the operations keep, the threads keep. -/
theorem heartCallback_keeps (w : World) (rand : Nat) (h : P (o.view w)) :
    P (o.view (w.heartCallback rand)) := by
  rcases o.heartCallback w rand with he | he | ⟨hpc, hsem, hm⟩
  · rw [he]
    exact h
  · rw [he]
    exact hrevive .rf433 _ h
  · rw [o.heartCallback_check w rand hpc hsem hm]
    exact attempt_keeps hrevive hoffline hjudge _ _ _ h

theorem buttontestCallback_keeps (hclose : ∀ b, P b → P (o.close b)) (w : World)
    (h : P (o.view w)) : P (o.view w.buttontestCallback) := by
  rcases o.buttontestCallback w with he | ⟨r, hpc, hsem⟩ | ⟨r, k, hpc⟩
  · rw [he]
    exact h
  · rw [o.buttontestCallback_take w r hpc hsem]
    exact hclose _ h
  · rw [o.buttontestCallback_wait w r hpc]
    exact attempt_keeps hrevive hoffline hjudge r k _ h

end

end Observation

end Spsi
