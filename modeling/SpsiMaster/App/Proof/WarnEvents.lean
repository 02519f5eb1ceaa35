import SpsiMaster.App.Proof.LinkStep

/-!
# Pending events

`rf_event` collects the posts of the threads; `warn_callback` takes all its bits at once and then
executes the first branch of an `else if` chain. `warn_keepsEvents_iff`: no pending bit is lost
along a schedule exactly when no turn of the loop finds two of them.
-/

namespace Spsi

open Rtos Run

/-! ## Posts only add bits -/

/-- Every bit pending in `w` is pending in `w'`. -/
def Keeps (w w' : World) : Prop := ∀ b, w.event b = true → w'.event b = true

theorem Keeps.of_eq {w w' : World} (h : w'.event = w.event) : Keeps w w' := by
  intro b hb
  rw [h]
  exact hb

/-- The end of an attempt posts at most. -/
theorem Link.attempt_keeps {l : Link} {r : Radio} {k : Nat} {ok : Bool} {b : RfEvent}
    (h : l.event b = true) : (l.attempt r k ok).event b = true := by
  have hoffline : (l.offline r).event b = true := by
    rw [Link.offline_event]
    split
    · exact eventSend_eq_true.2 (.inr h)
    · exact h
  unfold Link.attempt
  split
  · split <;> exact h
  · split <;> exact h
  · split <;> exact h
  · split
    · exact h
    · exact hoffline
  · exact h

theorem Keeps.of_attempt {w t : World} {r : Radio} {k : Nat} {ok : Bool}
    (h : t.link = w.link.attempt r k ok) : Keeps w t := by
  intro b hb
  have hlink : t.link.event b = true := by
    rw [h]
    exact Link.attempt_keeps hb
  exact hlink

namespace World

/-- Apart from `warn_callback` nothing takes a bit. -/
theorem keeps_step {w t : World} {a : Act} (h : w.step a = some t) (ha : a ≠ .warn) :
    Keeps w t := by
  cases step_case h with
  | heart rand =>
    rcases w.heartCallback_link rand with he | he | ⟨-, -, -, he⟩
    · exact .of_eq (congrArg Link.event he)
    · exact .of_eq (congrArg Link.event he)
    · exact .of_attempt he
  | button =>
    rcases w.buttontestCallback_link with he | ⟨r, k, -, he⟩
    · exact .of_eq (congrArg Link.event he)
    · exact .of_attempt he
  | press => exact .of_eq rfl
  | heartTimer => exact .of_eq rfl
  | connectTimer => exact .of_eq rfl
  | accept r rssi _ _ _ c d =>
    intro b hb
    rw [(accept_spec r w rssi c d).2.2.1]
    exact eventSend_eq_true.2 (.inr hb)
  | warn => exact absurd rfl ha
  | quiet _ _ _ hq => exact .of_eq hq.event

end World

/-! ## The branches -/

/-- From `w` to `t` the branch of an event has been executed: it was entered, and its display
commands and its PSI and buzzer decision were made. -/
def BranchDone (w t : World) : RfEvent → Prop
  | .offline r =>
    .handled (.offline r) ∈ made w t ∧ .led (.rf r 1) ∈ made w t ∧
      (if (w.info r.other).alive then .psiLedResume else .psiLedLost) ∈ made w t ∧
      .led (.beepStart (if (w.info r.other).alive then 2 else 3)) ∈ made w t
  | .online r => .handled (.online r) ∈ made w t ∧ .psiLedResume ∈ made w t

instance (w t : World) : DecidablePred (BranchDone w t)
  | .offline _ => inferInstanceAs (Decidable (_ ∧ _))
  | .online _ => inferInstanceAs (Decidable (_ ∧ _))

namespace World

/-- An executed branch is done, and it is the only one that was entered. -/
theorem branch_done (w : World) (b : RfEvent) :
    BranchDone w (w.branch b) b ∧ ∀ c, .handled c ∈ made w (w.branch b) → c = b := by
  -- an output event is not the start of a branch
  have hout : ∀ {es : List Ev} {c : RfEvent}, (∀ e ∈ es, e.isOutput = true) →
      Ev.handled c ∉ es := fun hes hm => nomatch hes _ hm
  cases b with
  | offline r =>
    obtain ⟨es, hes, he⟩ := w.warnOffline_hist r
    have hc : made w (w.branch (.offline r)) = _ :=
      made_eq (he.trans (List.append_assoc (_ :: es) [_, _, _] w.hist).symm)
    refine ⟨?_, fun c hm => ?_⟩
    · simp only [BranchDone, hc]
      simp
    · rw [hc] at hm
      have hn := hout (c := c) hes
      cases ha : (w.info r.other).alive with
      | true => simpa [hn, ha] using hm
      | false => simpa [hn, ha] using hm
  | online r =>
    obtain ⟨es, hes, he⟩ := w.warnOnline_hist r
    have hc : made w (w.branch (.online r)) = _ :=
      made_eq (he.trans (List.append_assoc es [_, _] w.hist).symm)
    refine ⟨?_, fun c hm => ?_⟩
    · simp only [BranchDone, hc]
      simp
    · rw [hc] at hm
      have hn := hout (c := c) hes
      simpa [hn] using hm

end World

/-! ## Schedules -/

/-- A bit that is pending before the step is pending after it, or the step is a turn of
`warn_callback` that has executed its branch. -/
def EventsKept (w : World) (a : Act) (t : World) : Prop :=
  ∀ b, w.event b = true → t.event b = true ∨ a = .warn ∧ BranchDone w t b

instance (w : World) (a : Act) (t : World) : Decidable (EventsKept w a t) :=
  inferInstanceAs
    (Decidable (∀ b, w.event b = true → t.event b = true ∨ a = .warn ∧ BranchDone w t b))

/-- A turn of `warn_callback` finds at most one bit pending. -/
def OnePending (w : World) (a : Act) (_ : World) : Prop :=
  a = .warn → ∀ b c, w.event b = true → w.event c = true → b = c

theorem eventsKept_iff_onePending {w : World} {a : Act} {t : World} (ht : w.step a = some t) :
    EventsKept w a t ↔ OnePending w a t := by
  by_cases ha : a = .warn
  · subst ha
    obtain rfl : w.warnCallback = t := Option.some.inj ht
    rcases w.warnCallback_cases with ⟨hnone, -⟩ | ⟨c, hc, he⟩
    · refine ⟨fun _ _ b c hb _ => ?_, fun _ b hb => ?_⟩
      · exact absurd hb (by simp [hnone])
      · exact absurd hb (by simp [hnone])
    · have hcleared : ∀ b, w.warnCallback.event b = false := by
        intro b
        rw [he]
        cases c with
        | offline r => exact congrFun (World.warnOffline_output _ r).event b
        | online r => exact congrFun (World.warnOnline_output _ r).event b
      obtain ⟨hdone, honly⟩ :=
        World.branch_done { w with event := fun _ => false } c
      rw [← he] at hdone honly
      have hentered : ∀ b, w.event b = true → EventsKept w .warn w.warnCallback → b = c := by
        intro b hb hk
        rcases hk b hb with hp | ⟨-, hd⟩
        · rw [hcleared b] at hp
          cases hp
        · cases b with
          | offline r => exact honly _ hd.1
          | online r => exact honly _ hd.1
      refine ⟨fun hk _ b b' hb hb' => ?_, fun ho b hb => .inr ⟨rfl, ?_⟩⟩
      · rw [hentered b hb hk, hentered b' hb' hk]
      · rw [ho rfl b c hb hc]
        cases c with
        | offline r => exact hdone
        | online r => exact hdone
  · refine ⟨fun _ h => absurd h ha, fun _ b hb => .inl ?_⟩
    exact World.keeps_step ht ha b hb

/-- **No pending event is discarded** along a schedule, from any state, exactly when no turn of
`warn_callback` finds two events pending. -/
theorem warn_keepsEvents_iff (w : World) (as : List Act) :
    Steps World.step EventsKept w as ↔ Steps World.step OnePending w as :=
  steps_congr (fun _ _ _ => eventsKept_iff_onePending) w as

/-- A frame of each radio between two turns: the second event is dropped. -/
theorem warn_dropsEvent_two_frames :
    ¬ Steps World.step EventsKept World.init
      [.rx .rf433 (-70) ⟨0, 0, 0, 0⟩ (peerFrame 0 1) 29,
        .rx .rf4068 (-70) ⟨0, 0, 0, 0⟩ (peerFrame 0 1) 29, .warn] := by
  decide +kernel

end Spsi
