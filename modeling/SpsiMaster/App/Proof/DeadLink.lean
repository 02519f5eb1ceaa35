import SpsiMaster.App.Proof.LinkStep

/-!
# Dead links are shown

Every step of the program does one of the operations of `Link` to its links, so `Link.Shows` is an
invariant under the conditions of the operations.

`deadLinks_shown`: along a schedule that keeps to these conditions (`LinksHandled`) a dead link is
shown as dead in every state without a pending event, and the PSI is when both are.
-/

namespace Spsi

open Run World

/-! ## The conditions -/

/-- The step `a` is a fourth attempt on `r` that fails. -/
def FailsAt (w : World) (r : Radio) : Act → Prop
  | .heart _ => w.heart.heartPc = .heartTake ∧ 0 < w.heart.heartSem ∧ w.heart.heartMode = .check ∧
    w.heart.heartInfo = r ∧ (w.info r).retry = 3 ∧ (w.info r).received = false
  | .button => w.heart.buttonPc = .wait r 3 ∧ (w.info r).testreceived = false
  | _ => False

/-- The conditions of `Link.Shows` on a step. A fourth attempt that fails without an event finds
its radio shown as lost or its event pending. A turn of `warn_callback` does not drop the event of
a dead 4068 behind the one of 433, unless it is shown as lost already. And when it handles an
offline event, the other radio is not dead with `alive` set. -/
structure LinksHandled (w : World) (a : Act) (_ : World) : Prop where
  silent : ∀ r, FailsAt w r a → (w.info r).alive = false → (w.info r).startup = true →
    w.event (.offline r) = true ∨ shownLost r w.hist = true
  dropped : a = .warn → w.event (.offline .rf433) = true → w.event (.offline .rf4068) = true →
    failed .rf4068 w.hist = true → shownLost .rf4068 w.hist = true
  stale : a = .warn → ∀ r, First w.event (.offline r) → (w.info r.other).alive = true →
    failed r.other w.hist = false

instance (e : RfEvent → Bool) (c : RfEvent) : Decidable (First e c) :=
  decidable_of_iff (e c = true ∧ (c = .offline .rf4068 → e (.offline .rf433) = false) ∧
      ∀ r, c = .online r → ∀ r', e (.offline r') = false)
    ⟨fun h => ⟨h.1, h.2.1, h.2.2⟩, fun h => ⟨h.1, h.2, h.3⟩⟩

instance (w : World) (r : Radio) : (a : Act) → Decidable (FailsAt w r a)
  | .heart _ => inferInstanceAs (Decidable (_ ∧ _ ∧ _ ∧ _ ∧ _ ∧ _))
  | .button => inferInstanceAs (Decidable (_ ∧ _))
  | .press | .heartTimer | .connectTimer | .rx _ _ _ _ _ | .warn | .psi | .psiPin | .psiTimer
  | .seg | .dequeue _ | .upload => inferInstanceAs (Decidable False)

instance (w : World) (a : Act) (t : World) : Decidable (LinksHandled w a t) :=
  decidable_of_iff
    ((∀ r, FailsAt w r a → (w.info r).alive = false → (w.info r).startup = true →
        w.event (.offline r) = true ∨ shownLost r w.hist = true) ∧
      (a = .warn → w.event (.offline .rf433) = true → w.event (.offline .rf4068) = true →
        failed .rf4068 w.hist = true → shownLost .rf4068 w.hist = true) ∧
      (a = .warn → ∀ r, First w.event (.offline r) → (w.info r.other).alive = true →
        failed r.other w.hist = false))
    ⟨fun h => ⟨h.1, h.2.1, h.2.2⟩, fun h => ⟨h.1, h.2, h.3⟩⟩

/-! ## Every step -/

theorem shows_heart {w : World} (h : w.link.Shows) {rand : Nat} {t : World}
    (hq : LinksHandled w (.heart rand) t) : (w.heartCallback rand).link.Shows := by
  rcases w.heartCallback_link rand with he | he | ⟨hpc, hsem, hm, he⟩
  · rw [he]
    exact h
  · rw [he]
    exact h.revive
  · rw [he]
    exact h.attempt fun hk hr => hq.silent _ ⟨hpc, hsem, hm, rfl, hk, hr⟩

theorem shows_button {w : World} (h : w.link.Shows) {t : World}
    (hq : LinksHandled w .button t) : w.buttontestCallback.link.Shows := by
  rcases w.buttontestCallback_link with he | ⟨r, k, hpc, he⟩
  · rw [he]
    exact h
  · rw [he]
    refine h.attempt fun hk hr => hq.silent r ⟨?_, hr⟩
    rw [hpc, hk]

theorem shows_warn {w t : World} (h : w.link.Shows) (hq : LinksHandled w .warn t) :
    w.warnCallback.link.Shows := by
  rcases w.warnCallback_first with ⟨-, he⟩ | ⟨c, hc, he⟩
  · rw [he]
    exact h
  · rw [he]
    cases c with
    | offline r =>
      rw [branch, warnOffline_link]
      refine h.showOffline (fun hother hf => ?_) (hq.stale rfl r hc)
      cases r with
      | rf433 => exact hq.dropped rfl hc.pending hother hf
      | rf4068 =>
        have hnone : w.event (.offline .rf433) = false := hc.offline rfl
        exact absurd (hother.symm.trans hnone) (by decide)
    | online r =>
      rw [branch, warnOnline_link]
      exact h.showOnline (hc.online r rfl) hc.pending

theorem shows_step {w t : World} {a : Act} (h : w.link.Shows) (hq : LinksHandled w a t)
    (ht : w.step a = some t) : t.link.Shows := by
  cases step_case ht with
  | heart rand => exact shows_heart h hq
  | button => exact shows_button h hq
  | press => exact h
  | heartTimer => exact h
  | connectTimer => exact h
  | accept r rssi _ _ _ c d =>
    rw [accept_link]
    exact h.accept
  | warn => exact shows_warn h hq
  | quiet _ _ _ hs =>
    rw [hs.link]
    exact h

theorem shows_init : World.init.link.Shows where
  led := fun _ h => nomatch h
  psi := fun h => nomatch (h .rf433).1
  online := fun _ h => nomatch h
  startup := fun _ h => nomatch h

/-! ## Along schedules -/

/-- `startup` of `r` is set, its latest fourth attempt has failed, and no frame of it has been
accepted since. -/
def DeadLink (w : World) (r : Radio) : Prop :=
  (w.info r).startup = true ∧ failed r w.hist = true

/-- With no event pending, a dead link is shown as dead, and the PSI as lost if both are. -/
def DeadShown (w : World) : Prop :=
  (∀ b, w.event b = false) → (∀ r, DeadLink w r → shownLost r w.hist = true) ∧
    ((∀ r, DeadLink w r) → w.psi.psiLost = true)

instance : DecidablePred DeadShown := fun w =>
  have : DecidablePred (DeadLink w) := fun _ => inferInstanceAs (Decidable (_ ∧ _))
  inferInstanceAs (Decidable (_ → _ ∧ _))

/-- **A dead link is shown as dead** along every schedule that keeps to `LinksHandled`. -/
theorem deadLinks_shown {as : List Act} (hq : Steps World.step LinksHandled World.init as) :
    Along World.step DeadShown World.init as := by
  have hstep : ∀ (w : World) a t, w.link.Shows → w.step a = some t → LinksHandled w a t →
      t.link.Shows := fun _ _ _ h ht hs => shows_step h hs ht
  have hinv : Along World.step (fun w => w.link.Shows) World.init as :=
    along_of_inv hstep shows_init hq
  refine hinv.mono fun w h hnone => ?_
  obtain ⟨hlost, hpsi⟩ := h.display hnone
  exact ⟨fun r hr => hlost r hr.2, fun hr => hpsi fun r => (hr r).2⟩

/-- Four tests without an answer. -/
def failedTests : List Act := (List.replicate 4 [.press, .button, .button]).flatten

/-- Both links fail, with a turn of `warn_callback` after each. -/
theorem deadLinks_shown_both : Along World.step DeadShown World.init
    ([.button] ++ failedTests ++ [.warn] ++ failedTests ++ [.warn]) :=
  deadLinks_shown (by decide +kernel)

/-- After the failure of 4068 a frame arrives, which shows its level, and 433 fails. The second
failure of 4068 raises no event. -/
theorem deadLink_notShown_frame_between : ¬ Along World.step DeadShown World.init
    ([.button] ++ failedTests ++
      [.warn, .rx .rf4068 (-70) ⟨0, 0, 0, 0⟩ (peerFrame 0 1) 29, .warn] ++ failedTests ++ [.warn] ++
      failedTests) := by
  decide +kernel

end Spsi
