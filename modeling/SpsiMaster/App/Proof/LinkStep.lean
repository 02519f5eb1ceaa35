import SpsiMaster.App.Link
import SpsiMaster.App.Proof.Observe

/-!
# What the steps do to the links

`World.link` is the `Link` of a state of the program: the flags and the pending events as they are,
what is dead and what is shown by the history. Each step of a thread does one of the operations of
`Link` to it: `heartCallback_link`, `buttontestCallback_link`, `accept_link`, `warnOffline_link`,
`warnOnline_link`; the other steps leave it alone (`QuietStep.link`).
-/

namespace Spsi

open Rtos CInt World

/-! ## Failures and display modes in the history -/

/-- The fourth attempt on `r` has failed. -/
def Ev.isFailureOf (r : Radio) : Ev → Bool
  | .verdict r' ok => r' = r ∧ ok = false
  | _ => false

/-- The fourth attempt on `r` has succeeded, or a frame of `r` has been accepted. -/
def Ev.isLifeOf (r : Radio) : Ev → Bool
  | .verdict r' ok => r' = r ∧ ok = true
  | .accepted r' _ _ => r' = r
  | _ => false

/-- `led_rf433_start(1)`, `led_rf4068_start(1)`. -/
def Ev.isLostOf (r : Radio) : Ev → Bool
  | .led (.rf r' mode) => r' = r ∧ mode = 1
  | _ => false

def Ev.isOtherModeOf (r : Radio) : Ev → Bool
  | .led (.rf r' mode) => r' = r ∧ mode ≠ 1
  | _ => false

/-- The events the definitions below look at. -/
def Ev.isLink : Ev → Bool
  | .verdict _ _ | .accepted _ _ _ | .led (.rf _ _) => true
  | _ => false

/-- The latest fourth attempt on `r` has failed, and no frame of `r` has been accepted since. -/
def failed (r : Radio) (h : List Ev) : Bool := Hist.since (Ev.isFailureOf r) (Ev.isLifeOf r) h

/-- The lamps of `r` were last put into their lost mode. -/
def shownLost (r : Radio) (h : List Ev) : Bool :=
  Hist.since (Ev.isLostOf r) (Ev.isOtherModeOf r) h

/-- `h'` is `h` with events that are not looked at. -/
def NoLink (h h' : List Ev) : Prop := Hist.Extends (fun e => !e.isLink) h h'

theorem NoLink.failed {h h' : List Ev} (hx : NoLink h h') (r : Radio) :
    failed r h' = failed r h :=
  Hist.Extends.since hx (fun e he => by cases e <;> first | rfl | cases he)
    (fun e he => by cases e <;> first | rfl | cases he)

theorem NoLink.shownLost {h h' : List Ev} (hx : NoLink h h') (r : Radio) :
    shownLost r h' = shownLost r h := by
  refine Hist.Extends.since hx (fun e he => ?_) (fun e he => ?_)
  · cases e with
    | led c => cases c <;> first | rfl | cases he
    | _ => rfl
  · cases e with
    | led c => cases c <;> first | rfl | cases he
    | _ => rfl

theorem isOutput_noLink (e : Ev) (h : e.isOutput = true) : e.isLink = false := by
  cases e with
  | led c => cases c <;> first | rfl | cases h
  | _ => first | rfl | cases h

/-! ## The link of a state -/

def World.link (w : World) : Link where
  alive := fun r => (w.info r).alive
  startup := fun r => (w.info r).startup
  failed := fun r => failed r w.hist
  lost := fun r => shownLost r w.hist
  event := w.event
  psiLost := w.psi.psiLost

namespace World

variable (w : World) (r : Radio)

theorem link_eq {w t : World} (ha : ∀ r, (t.info r).alive = (w.info r).alive)
    (hs : ∀ r, (t.info r).startup = (w.info r).startup) (he : t.event = w.event)
    (hp : t.psi.psiLost = w.psi.psiLost) (hx : NoLink w.hist t.hist) : t.link = w.link := by
  simp only [link, ha, hs, he, hp, hx.failed, hx.shownLost]

theorem log_link {e : Ev} (he : e.isLink = false) : (w.log e).link = w.link :=
  link_eq (fun _ => rfl) (fun _ => rfl) rfl rfl (.cons (by rw [he]; rfl) (.refl _))

/-- An update of `rf_info` that leaves the two flags. -/
theorem onInfo_link {f : RfInfo → RfInfo} (ha : ∀ i, (f i).alive = i.alive)
    (hs : ∀ i, (f i).startup = i.startup) : (w.onInfo r f).link = w.link := by
  refine link_eq (fun r' => ?_) (fun r' => ?_) rfl rfl (.refl _)
  · exact field_update w r RfInfo.alive r' (ha _)
  · exact field_update w r RfInfo.startup r' (hs _)

/-- What an update of `rf_info` does to one of its flags. -/
theorem update_flag (f : RfInfo → Bool) (i : RfInfo) :
    (fun r' => f (Function.update w.info r i r')) =
      Function.update (fun r' => f (w.info r')) r (f i) := by
  funext r'
  by_cases hr : r' = r
  · subst hr
    rw [Function.update_self, Function.update_self]
  · rw [Function.update_of_ne hr, Function.update_of_ne hr]

theorem revive_link : (w.revive r).link = w.link.revive r := by
  have h : (w.revive r).link =
      (w.onInfo r fun i => { i with retry := 0, alive := true, startup := true }).link :=
    log_link _ rfl
  rw [h]
  simp only [link, onInfo_info, onInfo_event, onInfo_psi, onInfo_hist, update_flag, Link.revive]

theorem rfOffline_link : (w.rfOffline r).link = w.link.offline r := by
  have hx : NoLink w.hist (w.rfOffline r).hist := by
    rw [rfOffline_hist]
    split
    · exact .cons rfl (.refl _)
    · exact .refl _
  simp only [link, rfOffline_info, rfOffline_event, rfOffline_psi, hx.failed, hx.shownLost,
    update_flag, Link.offline]
  rfl

theorem verdict_link (ok : Bool) : (w.log (.verdict r ok)).link = w.link.judge r ok := by
  have hf : (fun r' => failed r' (.verdict r ok :: w.hist)) =
      Function.update (fun r' => failed r' w.hist) r !ok := by
    funext r'
    by_cases hr : r' = r
    · subst hr
      rw [Function.update_self]
      cases ok with
      | true => exact Hist.since_reset (by simp [Ev.isLifeOf]) _
      | false => exact Hist.since_mark (by simp [Ev.isLifeOf]) (by simp [Ev.isFailureOf]) _
    · rw [Function.update_of_ne hr]
      exact Hist.since_skip (by simp [Ev.isLifeOf, Ne.symm hr])
        (by simp [Ev.isFailureOf, Ne.symm hr]) _
  simp only [link, Link.judge, log_info, log_hist, log_event, log_psi, hf]
  rfl

end World

/-- The links as a view. -/
def links : Observation Link where
  view := World.link
  revive := fun r l => l.revive r
  offline := fun r l => l.offline r
  judge := fun r ok l => l.judge r ok
  close := fun l => l
  view_heart := fun w t hi he hp hx => by simp only [World.link, hi, he, hp, hx]
  view_info := fun w r f ha hs => w.onInfo_link r ha hs
  view_log := fun w e he => w.log_link (by cases e <;> first | rfl | cases he)
  view_revive := World.revive_link
  view_offline := World.rfOffline_link
  view_judge := World.verdict_link
  view_close := fun w => w.log_link rfl

theorem links_attempt (r : Radio) (k : Nat) (ok : Bool) (l : Link) :
    links.attempt r k ok l = l.attempt r k ok := by
  match k with
  | 0 => rfl
  | 1 => rfl
  | 2 => rfl
  | 3 => rfl
  | _ + 4 => rfl

namespace World

variable (w : World) (r : Radio)

/-! ## The threads -/

/-- A step of the heartbeat thread finds the connection, ends an attempt or leaves the links. -/
theorem heartCallback_link (rand : Nat) : (w.heartCallback rand).link = w.link ∨
    (w.heartCallback rand).link = w.link.revive .rf433 ∨
    w.heart.heartPc = .heartTake ∧ 0 < w.heart.heartSem ∧ w.heart.heartMode = .check ∧
      (w.heartCallback rand).link = w.link.attempt w.heart.heartInfo
        (w.info w.heart.heartInfo).retry (w.info w.heart.heartInfo).received := by
  rcases links.heartCallback w rand with he | he | ⟨hpc, hsem, hm⟩
  · exact .inl he
  · exact .inr (.inl he)
  · have he := links.heartCallback_check w rand hpc hsem hm
    rw [links_attempt] at he
    exact .inr (.inr ⟨hpc, hsem, hm, he⟩)

/-- A step of the button thread ends an attempt or leaves the links. -/
theorem buttontestCallback_link : w.buttontestCallback.link = w.link ∨
    ∃ r k, w.heart.buttonPc = .wait r k ∧
      w.buttontestCallback.link = w.link.attempt r k (w.info r).testreceived := by
  rcases links.buttontestCallback w with he | ⟨r, hpc, hsem⟩ | ⟨r, k, hpc⟩
  · exact .inl he
  · exact .inl (links.buttontestCallback_take w r hpc hsem)
  · have he := links.buttontestCallback_wait w r hpc
    rw [links_attempt] at he
    exact .inr ⟨r, k, hpc, he⟩

theorem accept_link (rssi c d : Int) :
    (accept r w rssi c d).link = w.link.accept r := by
  obtain ⟨-, hi, he, h', hx', hx⟩ := accept_spec r w rssi c d
  obtain ⟨hlevel, -⟩ := w.seg.rssiLevelSelect_mem r rssi
  have hafter : NoLink (.posted (.online r) :: .accepted r c d :: w.hist) h' :=
    Hist.Extends.avoid hx' isOutput_noLink
  have hf : ∀ r', failed r' (accept r w rssi c d).hist = failed r' (.accepted r c d :: w.hist) := by
    intro r'
    rw [hx]
    have hled : failed r' (.led (.rf r (w.seg.rssiLevelSelect r rssi).1) :: h') = failed r' h' :=
      Hist.since_skip rfl rfl _
    rw [hled, hafter.failed]
    exact Hist.since_skip rfl rfl _
  have hl : ∀ r', shownLost r' (accept r w rssi c d).hist =
      Function.update (fun r => shownLost r w.hist) r false r' := by
    intro r'
    rw [hx]
    by_cases hr : r' = r
    · subst hr
      rw [Function.update_self]
      have hmode : (w.seg.rssiLevelSelect r' rssi).1 ≠ 1 := by omega
      exact Hist.since_reset (by simp [Ev.isOtherModeOf, hmode]) _
    · have hled : shownLost r' (.led (.rf r (w.seg.rssiLevelSelect r rssi).1) :: h') =
          shownLost r' h' :=
        Hist.since_skip (by simp [Ev.isOtherModeOf, Ne.symm hr])
          (by simp [Ev.isLostOf, Ne.symm hr]) _
      rw [Function.update_of_ne hr, hled, hafter.shownLost]
      exact (Hist.since_skip rfl rfl _).trans (Hist.since_skip rfl rfl _)
  have hlife : ∀ r', failed r' (.accepted r c d :: w.hist) =
      Function.update (fun r => failed r w.hist) r false r' := by
    intro r'
    by_cases hr : r' = r
    · subst hr
      rw [Function.update_self]
      exact Hist.since_reset (by simp [Ev.isLifeOf]) _
    · rw [Function.update_of_ne hr]
      exact Hist.since_skip (by simp [Ev.isLifeOf, Ne.symm hr]) rfl _
  simp only [World.link, hf, hl, hlife, hi, he, w.accept_psiLost, update_flag, Link.accept]
  simp [acceptInfo]

theorem warnOffline_link :
    (({ w with event := fun _ => false } : World).warnOffline r).link = w.link.showOffline r := by
  have ho := ({ w with event := fun _ => false } : World).warnOffline_output r
  have hafter : NoLink (.led (.rf r 1) :: .handled (.offline r) :: w.hist)
      (({ w with event := fun _ => false } : World).warnOffline r).hist :=
    Hist.Extends.avoid ho.hist isOutput_noLink
  have hf : ∀ r', failed r' (({ w with event := fun _ => false } : World).warnOffline r).hist =
      failed r' w.hist := fun r' =>
    (hafter.failed r').trans ((Hist.since_skip rfl rfl _).trans (Hist.since_skip rfl rfl _))
  have hl : ∀ r', shownLost r' (({ w with event := fun _ => false } : World).warnOffline r).hist =
      Function.update (fun r => shownLost r w.hist) r true r' := by
    intro r'
    rw [hafter.shownLost]
    by_cases hr : r' = r
    · subst hr
      rw [Function.update_self]
      exact Hist.since_mark (by simp [Ev.isOtherModeOf]) (by simp [Ev.isLostOf]) _
    · rw [Function.update_of_ne hr]
      refine (Hist.since_skip ?_ ?_ _).trans (Hist.since_skip rfl rfl _)
      · simp [Ev.isOtherModeOf]
      · simp [Ev.isLostOf, Ne.symm hr]
  have hi : (({ w with event := fun _ => false } : World).warnOffline r).info = w.info := ho.info
  have he : (({ w with event := fun _ => false } : World).warnOffline r).event = fun _ => false :=
    ho.event
  simp only [World.link, hf, hl, hi, he, warnOffline_psiLost, Link.showOffline]

theorem warnOnline_link :
    (({ w with event := fun _ => false } : World).warnOnline r).link = w.link.showOnline := by
  have ho := ({ w with event := fun _ => false } : World).warnOnline_output r
  have hafter : NoLink (.handled (.online r) :: w.hist)
      (({ w with event := fun _ => false } : World).warnOnline r).hist :=
    Hist.Extends.avoid ho.hist isOutput_noLink
  have hf : ∀ r', failed r' (({ w with event := fun _ => false } : World).warnOnline r).hist =
      failed r' w.hist := fun r' => (hafter.failed r').trans (Hist.since_skip rfl rfl _)
  have hl : ∀ r', shownLost r' (({ w with event := fun _ => false } : World).warnOnline r).hist =
      shownLost r' w.hist := fun r' => (hafter.shownLost r').trans (Hist.since_skip rfl rfl _)
  have hi : (({ w with event := fun _ => false } : World).warnOnline r).info = w.info := ho.info
  have he : (({ w with event := fun _ => false } : World).warnOnline r).event = fun _ => false :=
    ho.event
  simp only [World.link, hf, hl, hi, he, warnOnline_psiLost, Link.showOnline]

end World

theorem QuietStep.link {w t : World} (h : QuietStep w t) : t.link = w.link :=
  link_eq (fun r => by rw [h.info]) (fun r => by rw [h.info]) h.event h.psiLost
    (Hist.Extends.avoid h.hist isOutput_noLink)

end Spsi
