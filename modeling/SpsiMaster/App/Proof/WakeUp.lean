import SpsiMaster.App.Proof.Frame

/-!
# The wake-up of the heartbeat

Once connected, the heartbeat thread lives on a single wake-up that is either in `heart_sem` or in
the running `heart_timer`: each turn of `switch(heart_mode)` uses it up and makes the next one. A
check with a retry count above 3 has no case and makes none. Both threads count `retry` up; the
button thread does so two seconds after it has looked at it. Another turn that does not pay for the
wake-up it makes is the check of a connection request: the thread still makes one after the
connection, when it finds a token left in `connect_sem`.

`heartbeat_live_iff`: the wake-up is there along a schedule exactly when no failing button test of
case 0, 1 or 2 finds the retry count at 3 when it is over, and no such left-over connection request
is answered while `heart_sem` has a token.
-/

namespace Spsi

open Rtos CInt Run

/-- `connect_timer` has been stopped, by the first successful connection. -/
def Connected (w : World) : Prop := w.heart.connectTimer.armed = false

instance : DecidablePred Connected := fun _ => inferInstanceAs (Decidable (_ = _))

/-- The wake-ups of the heartbeat thread: the count of `heart_sem`, and the running timer. -/
def Heart.wakeUps (h : Heart) : Nat := h.heartSem + h.heartTimer.armed.toNat

/-- Connected and at a take, the heartbeat thread has exactly one wake-up; the retry counts are
those of the cases. -/
def HeartbeatLive (w : World) : Prop :=
  (Connected w → w.heart.heartPc ≠ .connectWait →
    w.heart.heartSem = 1 ∧ w.heart.heartTimer.armed = false ∨
      w.heart.heartSem = 0 ∧ w.heart.heartTimer.armed = true) ∧
  ∀ r, (w.info r).retry ≤ 3

/-- A failing test of case 0, 1 or 2 does not find the retry count at 3 when it is over. -/
def TestInRange (w : World) (a : Act) (_ : World) : Prop :=
  a = .button → match w.heart.buttonPc with
    | .wait r k => k ≤ 2 → (w.info r).testreceived = false → (w.info r).retry ≠ 3
    | _ => True

/-- A connection request made after the connection, for a token left in `connect_sem`, is not over
with an answer while `heart_sem` has a token. -/
def ReconnectInTurn (w : World) (a : Act) (_ : World) : Prop :=
  match a with
  | .heart _ => w.heart.heartPc = .connectWait → Connected w → (w.info .rf433).received = true →
      w.heart.heartSem = 0
  | _ => True

/-- The steps that keep the single wake-up. -/
structure KeepsWakeUp (w : World) (a : Act) (t : World) : Prop where
  test : TestInRange w a t
  reconnect : ReconnectInTurn w a t

instance : DecidablePred HeartbeatLive := fun _ => inferInstanceAs (Decidable (_ ∧ _))

instance (w : World) (a : Act) (t : World) : Decidable (TestInRange w a t) := by
  unfold TestInRange
  split <;> infer_instance

instance (w : World) (a : Act) (t : World) : Decidable (ReconnectInTurn w a t) := by
  unfold ReconnectInTurn
  split <;> infer_instance

instance (w : World) (a : Act) (t : World) : Decidable (KeepsWakeUp w a t) :=
  decidable_of_iff (TestInRange w a t ∧ ReconnectInTurn w a t)
    ⟨fun h => ⟨h.1, h.2⟩, fun h => ⟨h.1, h.2⟩⟩

/-- The invariant: one wake-up for a connected program, none before. -/
structure WakeUp (w : World) : Prop where
  exact : w.heart.wakeUps = (!w.heart.connectTimer.armed).toNat
  retry : ∀ r, (w.info r).retry ≤ 3

theorem WakeUp.live {w : World} (h : WakeUp w) : HeartbeatLive w := by
  refine ⟨fun hc _ => ?_, h.retry⟩
  have hw := h.exact
  rw [show w.heart.connectTimer.armed = false from hc, Heart.wakeUps] at hw
  cases ha : w.heart.heartTimer.armed with
  | false => exact .inl ⟨by simpa [ha] using hw, rfl⟩
  | true => exact .inr ⟨by simpa [ha] using hw, rfl⟩

theorem retry_update {info : Radio → RfInfo} {r : Radio} {i : RfInfo}
    (h : ∀ r, (info r).retry ≤ 3) (hi : i.retry ≤ 3) :
    ∀ r', (Function.update info r i r').retry ≤ 3 :=
  (Function.forall_update_iff info fun _ i => i.retry ≤ 3).2 ⟨hi, fun r' _ => h r'⟩

/-- A retry count that is not yet 3 can be counted up. -/
theorem retryIncrease_le {w : World} {r : Radio} (h : ∀ r, (w.info r).retry ≤ 3)
    (hr : (w.info r).retry ≠ 3) : ∀ r', ((w.retryIncrease r).info r').retry ≤ 3 := by
  have hle : (w.info r).retry ≤ 3 := h r
  have hu : u8 ((w.info r).retry + 1) = (w.info r).retry + 1 := u8_of_lt (by omega)
  apply retry_update h
  show u8 ((w.info r).retry + 1) ≤ 3
  omega

/-! ## The heartbeat makes its next wake-up

`w` is the state in which a turn of `switch(heart_mode)` starts, with the wake-up used up. -/

section
variable {w : World} {r : Radio}

/-- `switch(heart_mode)` touches neither `connect_timer` nor `connect_sem`. -/
theorem heartSwitch_connect (w : World) (rand : Nat) :
    (w.heartSwitch rand).heart.connectTimer = w.heart.connectTimer ∧
      (w.heartSwitch rand).heart.connectSem = w.heart.connectSem := by
  unfold World.heartSwitch
  split
  · simp [World.heartSend]
  · rw [World.heartCheck_eq, World.onHeart_heart]
    rcases (w.log (.judged w.heart.heartInfo)).checkCase_judged with ⟨_, _, _, _, he, -⟩ | ⟨he, -⟩
    · rw [he]
      exact ⟨rfl, rfl⟩
    · rw [he]
      exact ⟨rfl, rfl⟩
  · simp [World.heartRandtime]
  · simp [World.heartRandtime]

theorem heartAttempt_wakeUps {n : Nat} {fail : World → Radio → World}
    (hs : w.heart.heartSem = 0) (hf : (fail w r).heart.wakeUps = 1) :
    (World.heartAttempt n fail w r).heart.wakeUps = 1 := by
  unfold World.heartAttempt
  split
  · simp [Heart.wakeUps, hs]
  · exact hf

theorem heartFinal_wakeUps (hs : w.heart.heartSem = 0) (ha : w.heart.heartTimer.armed = false) :
    (w.heartFinal r).heart.wakeUps = 1 := by
  simp only [World.heartFinal]
  split
  · simp [Heart.wakeUps, hs]
  · simp [World.heartDeclare, Heart.wakeUps, hs, ha]

/-- A check makes one wake-up in each of its four cases. -/
theorem heartCheck_wakeUps (hs : w.heart.heartSem = 0) (ha : w.heart.heartTimer.armed = false) :
    w.heartCheck.heart.wakeUps =
      if (w.info w.heart.heartInfo).retry ≤ 3 then 1 else 0 := by
  simp only [World.heartCheck, World.onHeart_heart, World.log_info]
  split
  · next h => rw [h]; exact heartAttempt_wakeUps hs (by simp [Heart.wakeUps, hs, ha])
  · next h => rw [h]; exact heartAttempt_wakeUps hs (by simp [Heart.wakeUps, hs, ha])
  · next h => rw [h]; exact heartAttempt_wakeUps hs (by simp [Heart.wakeUps, hs])
  · next h => rw [h]; exact heartFinal_wakeUps hs ha
  · next h0 h1 h2 h3 =>
    simp only [imp_false] at h0 h1 h2 h3
    rw [if_neg (show ¬ (w.info w.heart.heartInfo).retry ≤ 3 by omega)]
    simp [Heart.wakeUps, hs, ha]

/-- So does every turn, unless it is a check without a case. -/
theorem heartSwitch_wakeUps (hs : w.heart.heartSem = 0) (ha : w.heart.heartTimer.armed = false)
    (rand : Nat) : (w.heartSwitch rand).heart.wakeUps =
      if w.heart.heartMode = .check ∧ 3 < (w.info w.heart.heartInfo).retry then 0 else 1 := by
  unfold World.heartSwitch
  split
  · next h => simp [h, World.heartSend, Heart.wakeUps, hs]
  · next h =>
    rw [heartCheck_wakeUps hs ha, h]
    by_cases hr : (w.info w.heart.heartInfo).retry ≤ 3
    · rw [if_pos hr, if_neg (by omega)]
    · rw [if_neg hr, if_pos ⟨rfl, by omega⟩]
  · next h => simp [h, World.heartRandtime, Heart.wakeUps, hs]
  · next h => simp [h, World.heartRandtime, Heart.wakeUps, hs]

theorem heartAttempt_retry {n : Nat} {fail : World → Radio → World}
    (h : ∀ r, (w.info r).retry ≤ 3) (hf : ∀ r', ((fail w r).info r').retry ≤ 3) :
    ∀ r', ((World.heartAttempt n fail w r).info r').retry ≤ 3 := by
  unfold World.heartAttempt
  split
  · simpa using retry_update h (Nat.zero_le 3)
  · exact hf

/-- A turn keeps the retry counts in range: a failing case below 3 counts up, case 3 resets. -/
theorem heartSwitch_retry (h : ∀ r, (w.info r).retry ≤ 3) (rand : Nat) :
    ∀ r, ((w.heartSwitch rand).info r).retry ≤ 3 := by
  unfold World.heartSwitch
  split
  · simpa [World.heartSend] using h
  · simp only [World.heartCheck, World.onHeart_info]
    split
    · next hr =>
      have hne : (w.info w.heart.heartInfo).retry ≠ 3 := by rw [← World.log_info, hr]; decide
      exact heartAttempt_retry h (retryIncrease_le h hne)
    · next hr =>
      have hne : (w.info w.heart.heartInfo).retry ≠ 3 := by rw [← World.log_info, hr]; decide
      exact heartAttempt_retry h (retryIncrease_le h hne)
    · next hr =>
      have hne : (w.info w.heart.heartInfo).retry ≠ 3 := by rw [← World.log_info, hr]; decide
      exact heartAttempt_retry h (retryIncrease_le h hne)
    · simp only [World.heartFinal]
      split
      · simpa using retry_update h (Nat.zero_le 3)
      · simpa [World.heartDeclare] using retry_update h (Nat.zero_le 3)
    · exact h
  · simpa [World.heartRandtime] using h
  · simpa [World.heartRandtime] using h

end

/-! ## One step -/

/-- A token in `heart_sem` is the only wake-up, and there is none before the connection. -/
theorem WakeUp.token {w : World} (h : WakeUp w) {v : Nat} (hv : w.heart.heartSem = v + 1) :
    Connected w ∧ w.heart.heartTimer.armed = false ∧ v = 0 := by
  have hw := h.exact
  rw [Heart.wakeUps, hv] at hw
  cases hc : w.heart.connectTimer.armed with
  | true => rw [hc] at hw; simp at hw
  | false =>
    rw [hc] at hw
    cases ha : w.heart.heartTimer.armed with
    | true => rw [ha] at hw; simp at hw
    | false =>
      rw [ha] at hw
      exact ⟨hc, rfl, by simpa using hw⟩

/-- The check of a connection request finds no token in `heart_sem`: there is no wake-up before the
connection, and after it the step is one of `ReconnectInTurn`. -/
theorem WakeUp.reconnect {w t : World} (h : WakeUp w) {rand : Nat}
    (hq : ReconnectInTurn w (.heart rand) t) (hpc : w.heart.heartPc = .connectWait)
    (hr : (w.info .rf433).received = true) : w.heart.heartSem = 0 := by
  cases hc : w.heart.connectTimer.armed with
  | true =>
    have hw := h.exact
    rw [Heart.wakeUps, hc] at hw
    exact Nat.eq_zero_of_add_eq_zero_right hw
  | false => exact hq hpc hc hr

/-- A step of the heartbeat thread makes the wake-up it uses up. -/
theorem heartCallback_wakeUps {w t : World} (h : WakeUp w) {rand : Nat}
    (hq : ReconnectInTurn w (.heart rand) t) :
    (w.heartCallback rand).heart.wakeUps =
      (!(w.heartCallback rand).heart.connectTimer.armed).toNat := by
  have hw := h.exact
  unfold World.heartCallback
  split
  · split
    · simpa [Heart.wakeUps] using hw
    · exact hw
  · next hpc =>
    simp only [World.connectCheck]
    split
    · next hr =>
      have h0 : w.heart.heartSem = 0 := h.reconnect hq hpc (by simpa using hr)
      simp [Heart.wakeUps, h0]
    · exact hw
  · split
    · next v hv =>
      obtain ⟨hcon, ha, rfl⟩ := h.token (semTake_eq_some.1 hv)
      have hc := (heartSwitch_connect (w.onHeart fun h => { h with heartSem := 0 }) rand).1
      have hs := @heartSwitch_wakeUps (w.onHeart fun h => { h with heartSem := 0 }) rfl ha rand
      have hr := h.retry w.heart.heartInfo
      simp only [World.onHeart_heart, World.onHeart_info] at hc hs
      rw [if_neg (by omega)] at hs
      simp only [World.heartGoto, World.onHeart_heart, hc, show w.heart.connectTimer.armed = false
        from hcon]
      rw [Heart.wakeUps] at hs ⊢
      exact hs
    · exact hw

/-- The retry counts after a step of the heartbeat thread. -/
theorem heartCallback_retry {w : World} (h : ∀ r, (w.info r).retry ≤ 3) (rand : Nat) :
    ∀ r, ((w.heartCallback rand).info r).retry ≤ 3 := by
  unfold World.heartCallback
  split
  · split
    · simpa using h
    · exact h
  · simp only [World.connectCheck]
    split
    · simpa using retry_update h (Nat.zero_le 3)
    · exact h
  · split
    · next v _ => exact @heartSwitch_retry (w.onHeart fun h => { h with heartSem := v }) h rand
    · exact h

/-- The retry counts after a test. -/
theorem buttonFinish_retry {w : World} {r : Radio} {k : Nat} (h : ∀ r, (w.info r).retry ≤ 3)
    (hq : k ≤ 2 → (w.info r).testreceived = false → (w.info r).retry ≠ 3) :
    ∀ r', ((w.buttonFinish r k).info r').retry ≤ 3 := by
  have hattempt : ∀ n, k = n → n ≤ 2 → ∀ r', ((World.buttonAttempt n w r).info r').retry ≤ 3 := by
    intro n hk hn
    unfold World.buttonAttempt
    split
    · simpa using retry_update h (Nat.zero_le 3)
    · next ht => exact retryIncrease_le h (hq (hk ▸ hn) (by simpa using ht))
  unfold World.buttonFinish
  split
  · exact hattempt 0 rfl (by omega)
  · exact hattempt 1 rfl (by omega)
  · exact hattempt 2 rfl (by omega)
  · simp only [World.buttonFinal]
    split
    · simpa using retry_update h (Nat.zero_le 3)
    · simpa [World.buttonDeclare] using retry_update h (Nat.zero_le 3)
  · exact h

theorem buttontestCallback_retry {w : World} (h : ∀ r, (w.info r).retry ≤ 3)
    (hq : TestInRange w .button w.buttontestCallback) :
    ∀ r, ((w.buttontestCallback).info r).retry ≤ 3 := by
  unfold World.buttontestCallback
  split
  · exact h
  · split
    · simp only
      split
      · simpa using h
      · simpa using h
    · exact h
  · next r k hpc =>
    have hq := hq rfl
    rw [hpc] at hq
    exact buttonFinish_retry h hq

theorem wakeUp_step {w t : World} {a : Act} (h : WakeUp w) (ht : w.step a = some t)
    (hq : KeepsWakeUp w a t) : WakeUp t := by
  have hw := h.exact
  cases step_case ht with
  | heart rand =>
    exact ⟨heartCallback_wakeUps h hq.reconnect, heartCallback_retry h.retry rand⟩
  | button =>
    obtain ⟨n, m, v, pc, hb, -⟩ := w.buttontestCallback_heart
    exact ⟨by rw [hb]; exact hw, buttontestCallback_retry h.retry hq.test⟩
  | press => exact ⟨hw, h.retry⟩
  | heartTimer ha =>
    -- the wake-up goes from the timer to the semaphore
    refine ⟨?_, h.retry⟩
    rw [Heart.wakeUps, ha] at hw
    have h0 : w.heart.heartSem = 0 := by
      cases hc : w.heart.connectTimer.armed with
      | true => rw [hc] at hw; simp at hw
      | false => rw [hc] at hw; simpa using hw
    simpa [World.heartTimerCallback, Heart.wakeUps, h0] using hw
  | connectTimer => exact ⟨hw, h.retry⟩
  | accept r rssi _ _ _ c d =>
    refine ⟨by rw [(World.accept_spec r w rssi c d).1]; exact hw, ?_⟩
    rw [(World.accept_spec r w rssi c d).2.1]
    exact retry_update h.retry (h.retry r)
  | warn =>
    refine ⟨by rw [w.warnCallback_heart]; exact hw, ?_⟩
    rw [w.warnCallback_info]
    exact h.retry
  | quiet _ _ _ hs =>
    refine ⟨by rw [hs.heart]; exact hw, ?_⟩
    rw [hs.info]
    exact h.retry

/-- Once connected the program stays connected, and `connect_sem` is not released again. -/
theorem connectSem_of_connected {w t : World} {a : Act} (hc : Connected w)
    (ht : w.step a = some t) : Connected t ∧ t.heart.connectSem ≤ w.heart.connectSem := by
  cases step_case ht with
  | heart rand =>
    unfold World.heartCallback
    split
    · split
      · next v hv =>
        have := semTake_eq_some.1 hv
        exact ⟨by simpa [Connected] using hc, by simp; omega⟩
      · exact ⟨hc, Nat.le_refl _⟩
    · simp only [World.connectCheck]
      split
      · simp [Connected]
      · exact ⟨hc, Nat.le_refl _⟩
    · split
      · next v _ =>
        obtain ⟨h1, h2⟩ := heartSwitch_connect (w.onHeart fun h => { h with heartSem := v }) rand
        exact ⟨(congrArg Timer.armed h1).trans hc, Nat.le_of_eq h2⟩
      · exact ⟨hc, Nat.le_refl _⟩
  | button =>
    obtain ⟨n, m, v, pc, hb, -⟩ := w.buttontestCallback_heart
    rw [Connected, hb]
    exact ⟨hc, Nat.le_refl _⟩
  | press => exact ⟨hc, Nat.le_refl _⟩
  | heartTimer => exact ⟨hc, Nat.le_refl _⟩
  | connectTimer ha => exact absurd (hc.symm.trans ha) (by decide)
  | accept r rssi _ _ _ c d =>
    rw [Connected, (World.accept_spec r w rssi c d).1]
    exact ⟨hc, Nat.le_refl _⟩
  | warn =>
    rw [Connected, w.warnCallback_heart]
    exact ⟨hc, Nat.le_refl _⟩
  | quiet _ _ _ hs =>
    rw [Connected, hs.heart]
    exact ⟨hc, Nat.le_refl _⟩

/-- A failing test that finds the count at 3 takes it to 4. -/
theorem test_break {w t : World} {a : Act} (ht : w.step a = some t)
    (hq : ¬ TestInRange w a t) : ¬ HeartbeatLive t := by
  rw [TestInRange, Classical.not_imp] at hq
  obtain ⟨rfl, hq⟩ := hq
  obtain rfl : w.buttontestCallback = t := Option.some.inj ht
  split at hq
  case h_2 => exact absurd trivial hq
  next r k hpc =>
  simp only [Classical.not_imp, not_not] at hq
  obtain ⟨hk, htest, hr⟩ := hq
  intro hl
  have h3 := hl.2 r
  have hfail : ∀ n, World.buttonAttempt n w r = w.retryIncrease r := by
    intro n
    rw [World.buttonAttempt, htest]
    rfl
  have hfin : w.buttonFinish r k = w.retryIncrease r := by
    match k, hk with
    | 0, _ => exact hfail 0
    | 1, _ => exact hfail 1
    | 2, _ => exact hfail 2
  have h4 : (w.buttontestCallback.info r).retry = 4 := by
    simp [World.buttontestCallback, hpc, hfin, hr, u8]
  omega

/-- An answered left-over connection request starts `heart_timer` beside the token. -/
theorem reconnect_break {w t : World} {a : Act} (ht : w.step a = some t)
    (hq : ¬ ReconnectInTurn w a t) : ¬ HeartbeatLive t := by
  unfold ReconnectInTurn at hq
  split at hq
  case h_2 => exact absurd trivial hq
  next rand =>
  obtain rfl : w.heartCallback rand = t := Option.some.inj ht
  simp only [Classical.not_imp] at hq
  obtain ⟨hpc, hc, hr, hs⟩ := hq
  intro hl
  have hafter : Connected (w.heartCallback rand) ∧
      (w.heartCallback rand).heart.heartPc ≠ .connectWait ∧
      (w.heartCallback rand).heart.heartSem = w.heart.heartSem ∧
      (w.heartCallback rand).heart.heartTimer.armed = true := by
    simp [World.heartCallback, hpc, World.connectCheck, hr, Connected]
  obtain ⟨hc', hpc', hs', ha'⟩ := hafter
  rcases hl.1 hc' hpc' with ⟨-, hoff⟩ | ⟨h0, -⟩
  · exact absurd (hoff.symm.trans ha') (by decide)
  · exact hs (hs'.symm.trans h0)

theorem wakeUp_init : WakeUp World.init := ⟨rfl, fun _ => Nat.zero_le 3⟩

/-- **The heartbeat never stalls** along the schedules in which no failing test of case 0, 1 or 2
finds the retry count at 3 and no left-over connection request is answered beside a token of
`heart_sem`, and along no other. -/
theorem heartbeat_live_iff (as : List Act) :
    Along World.step HeartbeatLive World.init as ↔ Steps World.step KeepsWakeUp World.init as := by
  refine along_iff_steps (fun _ h => h.live) (fun _ _ _ h ht hq => wakeUp_step h ht hq)
    (fun w a t _ ht hq => ?_) wakeUp_init as
  by_cases htest : TestInRange w a t
  · exact reconnect_break ht fun hr => hq ⟨htest, hr⟩
  · exact test_break ht htest

/-- The first connection: the request, the answer of the peer, the check. -/
def connectRun : List Act :=
  [.connectTimer, .heart 0, .rx .rf433 (-70) ⟨0, 0, 0, 0⟩ (peerFrame 0 1) 29, .heart 0]

/-- A turn of the heartbeat thread after its timer has fired. -/
def timedTurn : List Act := [.heartTimer, .heart 0, .heart 0]

/-- A left-over connection request answered before `heart_timer` has fired, and a heartbeat with its
answer. -/
def answeredRun : List Act :=
  [.connectTimer] ++ connectRun ++
    [.heart 0, .heart 0, .rx .rf433 (-70) ⟨0, 0, 0, 0⟩ (peerFrame 0 1) 29, .heart 0] ++
    timedTurn ++ [.rx .rf4068 (-70) ⟨0, 0, 0, 0⟩ (peerFrame 0 1) 29] ++ timedTurn

theorem heartbeat_live_answered : Along World.step HeartbeatLive World.init answeredRun :=
  (heartbeat_live_iff answeredRun).2 (by decide +kernel)

/-- No answer to three heartbeats, and a button test pressed before the third check: the test of
case 2 ends after the check has counted `retry` up to 3. -/
def overlapRun : List Act :=
  connectRun ++ [.button] ++ timedTurn ++ timedTurn ++ [.heart 0, .heart 0] ++ timedTurn ++
    timedTurn ++ [.heart 0, .heart 0] ++ timedTurn ++ [.press, .button] ++ timedTurn ++ [.button] ++
    timedTurn ++ timedTurn ++ timedTurn

/-- Two tokens of `connect_timer` before the first connection: the second request is answered after
`heart_timer` has fired. -/
def leftOverRun : List Act :=
  [.connectTimer, .connectTimer, .heart 0, .rx .rf433 (-70) ⟨0, 0, 0, 0⟩ (peerFrame 0 1) 29,
    .heart 0, .heart 0, .heart 0, .heartTimer,
    .rx .rf433 (-70) ⟨0, 0, 0, 0⟩ (peerFrame 0 1) 29, .heart 0]

/-- After the check with a retry count of 4 there is no wake-up left; after the second connection
there are two. -/
theorem heartbeat_stalls_overlap :
    ¬ Along World.step HeartbeatLive World.init overlapRun ∧
    (exec World.step World.init overlapRun).map (fun w =>
      (w.heart.wakeUps, (w.info .rf4068).retry)) = some (0, 4) ∧
    ¬ Along World.step HeartbeatLive World.init leftOverRun ∧
    (exec World.step World.init leftOverRun).map (fun w => w.heart.wakeUps) = some 2 := by
  decide +kernel

end Spsi
