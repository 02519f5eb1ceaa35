import SpsiMaster.App.World

/-!
# The links and their display

What the program knows of its two radio links, what it shows of them and the events in between, as
a state of its own; `failed` are the links that are dead. The operations are what a thread can do
to this state. `Link.Shows` is the invariant that makes a dead link a link shown as dead once all
events are handled; each operation keeps it on the conditions of its lemma.
-/

namespace Spsi

open Rtos

structure Link where
  alive : Radio → Bool
  startup : Radio → Bool
  /-- The latest fourth attempt has failed and no frame has been accepted since. -/
  failed : Radio → Bool
  /-- The lamps of the radio were last put into their lost mode. -/
  lost : Radio → Bool
  event : RfEvent → Bool
  psiLost : Bool

namespace Link

variable (l : Link) (r : Radio)

@[simps -fullyApplied] def accept : Link :=
  { l with
    failed := Function.update l.failed r false
    lost := Function.update l.lost r false
    event := eventSend l.event (.online r) }

@[simps -fullyApplied] def revive : Link :=
  { l with alive := Function.update l.alive r true, startup := Function.update l.startup r true }

@[simps -fullyApplied] def offline : Link :=
  { l with
    alive := Function.update l.alive r false
    startup := Function.update l.startup r (l.startup r || !l.alive r)
    event := if l.alive r = true ∨ l.startup r = false then eventSend l.event (.offline r)
      else l.event }

/-- The fourth attempt is judged. -/
@[simps -fullyApplied] def judge (ok : Bool) : Link :=
  { l with failed := Function.update l.failed r !ok }

/-- The end of an attempt, the fourth being number 3. -/
def attempt (k : Nat) (ok : Bool) : Link :=
  match k with
  | 0 | 1 | 2 => if ok then l.revive r else l
  | 3 => if ok then (l.revive r).judge r true else (l.offline r).judge r false
  | _ => l

@[simps -fullyApplied] def showOffline : Link :=
  { l with
    lost := Function.update l.lost r true
    event := fun _ => false
    psiLost := !l.alive r.other }

@[simps -fullyApplied] def showOnline : Link := { l with event := fun _ => false, psiLost := false }

/-! ## The invariant -/

/-- The radio is shown as lost, and it is not alive or its link is dead. -/
def Dark : Prop := l.lost r = true ∧ (l.alive r = false ∨ l.failed r = true)

/-- A dead link is shown as dead or its event is pending, and the same holds of the PSI when both
radios are dark; a pending frame is shown. -/
structure Shows : Prop where
  led : ∀ r, l.failed r = true → l.event (.offline r) = true ∨ l.lost r = true
  psi : (∀ r, l.Dark r) → l.psiLost = true ∨ ∃ r, l.event (.offline r) = true
  online : ∀ r, l.event (.online r) = true → l.lost r = false
  startup : ∀ r, l.alive r = true ∨ l.failed r = true → l.startup r = true

variable {l : Link} {r : Radio}

/-- With all events handled the display is right. -/
theorem Shows.display (h : l.Shows) (hnone : ∀ b, l.event b = false) :
    (∀ r, l.failed r = true → l.lost r = true) ∧
      ((∀ r, l.failed r = true) → l.psiLost = true) := by
  have hled : ∀ r, l.failed r = true → l.lost r = true := by
    intro r hr
    rcases h.led r hr with he | hl
    · rw [hnone] at he
      cases he
    · exact hl
  refine ⟨hled, fun hboth => ?_⟩
  rcases h.psi fun r => ⟨hled r (hboth r), .inr (hboth r)⟩ with hp | ⟨r, he⟩
  · exact hp
  · rw [hnone] at he
    cases he

theorem of_update_false {f : Radio → Bool} {r' : Radio}
    (h : Function.update f r false r' = true) : r' ≠ r ∧ f r' = true := by
  by_cases hr : r' = r
  · subst hr
    rw [Function.update_self] at h
    cases h
  · rw [Function.update_of_ne hr] at h
    exact ⟨hr, h⟩

theorem of_update_true {f : Radio → Bool} {r' : Radio}
    (h : Function.update f r true r' = true) : r' = r ∨ f r' = true := by
  by_cases hr : r' = r
  · exact .inl hr
  · rw [Function.update_of_ne hr] at h
    exact .inr h

theorem Shows.accept (h : l.Shows) : (l.accept r).Shows where
  led := by
    intro r' hf
    obtain ⟨hr, hf⟩ := of_update_false hf
    rcases h.led r' hf with he | hl
    · rw [accept_event]
      exact .inl (eventSend_eq_true.2 (.inr he))
    · exact .inr (by rw [accept_lost, Function.update_of_ne hr]; exact hl)
  psi := fun hd => absurd rfl (of_update_false (hd r).1).1
  online := by
    intro r' he
    by_cases hr : r' = r
    · subst hr
      exact Function.update_self ..
    · rw [accept_lost, Function.update_of_ne hr]
      rcases eventSend_eq_true.1 he with heq | he
      · exact absurd (RfEvent.online.inj heq) hr
      · exact h.online r' he
  startup := fun r' hf => h.startup r' (hf.imp_right fun hf => (of_update_false hf).2)

theorem Shows.revive (h : l.Shows) : (l.revive r).Shows where
  led := h.led
  psi := by
    intro hd
    apply h.psi
    intro r'
    obtain ⟨hlost, hr'⟩ := hd r'
    refine ⟨hlost, ?_⟩
    by_cases hr : r' = r
    · subst hr
      rw [revive_alive, Function.update_self] at hr'
      exact hr'.imp_left fun he => nomatch he
    · rw [revive_alive, Function.update_of_ne hr] at hr'
      exact hr'
  online := h.online
  startup := by
    intro r' hf
    by_cases hr : r' = r
    · subst hr
      exact Function.update_self ..
    · rw [revive_alive, Function.update_of_ne hr] at hf
      rw [revive_startup, Function.update_of_ne hr]
      exact h.startup r' hf

/-- A fourth attempt that succeeds. -/
theorem Shows.succeed (h : l.Shows) : (l.judge r true).Shows where
  led := fun r' hf => h.led r' (of_update_false hf).2
  psi := by
    intro hd
    apply h.psi
    intro r'
    obtain ⟨hlost, hr'⟩ := hd r'
    exact ⟨hlost, hr'.imp_right fun hf => (of_update_false hf).2⟩
  online := h.online
  startup := fun r' hf => h.startup r' (hf.imp_right fun hf => (of_update_false hf).2)

/-- A fourth attempt that fails and posts its event. -/
theorem Shows.raise (h : l.Shows) (hpost : l.alive r = true ∨ l.startup r = false) :
    ((l.offline r).judge r false).Shows := by
  have hevent : ((l.offline r).judge r false).event = eventSend l.event (.offline r) :=
    if_pos hpost
  have hsent : ((l.offline r).judge r false).event (.offline r) = true := by
    rw [hevent]
    exact eventSend_eq_true.2 (.inl rfl)
  refine ⟨fun r' hf => ?_, fun _ => .inr ⟨r, hsent⟩, fun r' he => ?_, fun r' hf => ?_⟩
  · rcases of_update_true hf with rfl | hf
    · exact .inl hsent
    · apply (h.led r' hf).imp_left
      intro he
      rw [hevent]
      exact eventSend_eq_true.2 (.inr he)
  · rw [hevent] at he
    rcases eventSend_eq_true.1 he with heq | he
    · cases heq
    · exact h.online r' he
  · rw [judge_startup, offline_startup]
    by_cases hr : r' = r
    · subst hr
      rw [Function.update_self]
      cases ha : l.alive r' with
      | true => rw [h.startup r' (.inl ha)]; rfl
      | false => exact Bool.or_true _
    · rw [Function.update_of_ne hr]
      apply h.startup r'
      rcases hf with ha | hf
      · exact .inl (of_update_false ha).2
      · exact .inr ((of_update_true hf).resolve_left hr)

/-- A fourth attempt that fails without an event: the radio must be shown as lost already, or be
about to be. -/
theorem Shows.silent (h : l.Shows) (halive : l.alive r = false) (hstartup : l.startup r = true)
    (hshown : l.event (.offline r) = true ∨ l.lost r = true) :
    ((l.offline r).judge r false).Shows := by
  -- nothing but `failed` changes
  have heq : (l.offline r).judge r false = l.judge r false := by
    have ha : Function.update l.alive r false = l.alive := by
      rw [← halive, Function.update_eq_self]
    have hs : Function.update l.startup r (l.startup r || !l.alive r) = l.startup := by
      rw [hstartup, Bool.true_or, ← hstartup, Function.update_eq_self]
    have hpost : ¬ (l.alive r = true ∨ l.startup r = false) := by
      rw [halive, hstartup]
      decide
    rw [judge, judge, offline, ha, hs, if_neg hpost]
  rw [heq]
  refine ⟨fun r' hf => ?_, fun hd => h.psi fun r' => ?_, h.online, fun r' hf => ?_⟩
  · rcases of_update_true hf with rfl | hf
    · exact hshown
    · exact h.led r' hf
  · obtain ⟨hlost, ha | hf⟩ := hd r'
    · exact ⟨hlost, .inl ha⟩
    · rcases of_update_true hf with rfl | hf
      · exact ⟨hlost, .inl halive⟩
      · exact ⟨hlost, .inr hf⟩
  · rcases hf with ha | hf
    · exact h.startup r' (.inl ha)
    · rcases of_update_true hf with rfl | hf
      · exact hstartup
      · exact h.startup r' (.inr hf)

theorem Shows.fail (h : l.Shows)
    (hsilent : l.alive r = false → l.startup r = true →
      l.event (.offline r) = true ∨ l.lost r = true) :
    ((l.offline r).judge r false).Shows := by
  by_cases hpost : l.alive r = true ∨ l.startup r = false
  · exact h.raise hpost
  · obtain ⟨halive, hstartup⟩ := not_or.1 hpost
    have halive : l.alive r = false := Bool.eq_false_iff.2 halive
    have hstartup : l.startup r = true := by simpa using hstartup
    exact h.silent halive hstartup (hsilent halive hstartup)

theorem Shows.attempt (h : l.Shows) {k : Nat} {ok : Bool}
    (hsilent : k = 3 → ok = false → l.alive r = false → l.startup r = true →
      l.event (.offline r) = true ∨ l.lost r = true) : (l.attempt r k ok).Shows := by
  have hearly : (if ok then l.revive r else l).Shows := by
    cases ok with
    | true => exact h.revive
    | false => exact h
  match k with
  | 0 => exact hearly
  | 1 => exact hearly
  | 2 => exact hearly
  | 3 =>
    cases ok with
    | true => exact h.revive.succeed
    | false => exact h.fail (hsilent rfl rfl)
  | _ + 4 => exact h

/-- The event of `r` is handled: the event of the other radio must not be needed any more, and the
other link must not be alive and dead. -/
theorem Shows.showOffline (h : l.Shows)
    (hdrop : l.event (.offline r.other) = true → l.failed r.other = true →
      l.lost r.other = true)
    (hstale : l.alive r.other = true → l.failed r.other = false) : (l.showOffline r).Shows where
  led := by
    intro r' hf
    right
    rcases Radio.eq_or_eq_other r r' with rfl | rfl
    · exact Function.update_self ..
    · rw [showOffline_lost, Function.update_of_ne r.other_ne]
      rcases h.led _ hf with he | hl
      · exact hdrop he hf
      · exact hl
  psi := by
    intro hd
    left
    rcases (hd r.other).2 with ha | hf
    · exact congrArg (!·) ha
    · cases ha : l.alive r.other with
      | true => exact absurd (hf.symm.trans (hstale ha)) (by decide)
      | false => exact congrArg (!·) ha
  online := fun _ he => nomatch he
  startup := h.startup

/-- The event of a frame of `r` is handled, with no other kind of event pending. -/
theorem Shows.showOnline (h : l.Shows) (hoff : ∀ r', l.event (.offline r') = false)
    (hon : l.event (.online r) = true) : l.showOnline.Shows where
  led := by
    intro r' hf
    right
    apply (h.led r' hf).resolve_left
    rw [hoff]
    decide
  psi := by
    intro hd
    have hlost := (hd r).1
    rw [showOnline_lost, h.online r hon] at hlost
    cases hlost
  online := fun _ he => nomatch he
  startup := h.startup

end Link

end Spsi
