import SpsiMaster.Button.AgileButton
import SpsiMaster.Rtos.Proof.TimerList

/-!
# What the button reports

`button_justified`: whatever the pin does and however late the passes of the thread are, a press is
reported only after it has been seen at every pass for the elimination time, a hold only after it
has been seen at every pass for the cycle time, and a click only for a release; the reports come as
`pressDown hold* pressUp click`.

`held_recognized`: a button that is held is reported as pressed, and as held, within a few passes of
these times.
-/

namespace Spsi

open Run CInt Rtos

/-! ## Justified reports -/

/-- No press is going on: nothing has been reported, or a click last. -/
def Closed (es : List (BtnEvent × Nat)) : Prop := ∀ e ∈ es.head?, e.1 = .click

/-- A press that was reported at `t` is going on, with holds since. -/
def Down (es : List (BtnEvent × Nat)) (t : Nat) : Prop :=
  ∃ rest, es.dropWhile (fun e => e.1 = .hold) = (.pressDown, t) :: rest

/-- The pin was active at every pass from `lo` on and before `hi`. -/
def ActiveFrom (ps : List Pass) (lo hi : Nat) : Prop :=
  ∀ p ∈ ps, lo ≤ p.time → p.time < hi → p.active = true

/-- Why a report was made at `n`, after the reports `older`. -/
def Justified (ps : List Pass) (older : List (BtnEvent × Nat)) (n : Nat) : BtnEvent → Prop
  | .pressDown => Closed older ∧ ∃ t₀ t₁, t₀ + 50 ≤ t₁ ∧ t₁ < n ∧ ⟨t₀, true⟩ ∈ ps ∧
      ⟨t₁, true⟩ ∈ ps ∧ ActiveFrom ps t₀ n
  | .hold => ∃ t, Down older t ∧ t + 3000 ≤ n ∧ ActiveFrom ps (t + 1) (n + 1)
  | .pressUp => ∃ t, Down older t ∧ ∃ p ∈ ps, p.active = false ∧ t < p.time ∧ p.time < n
  | .click => older.head? = some (.pressUp, n)

/-- Every report is justified by the passes. -/
def AllJustified (ps : List Pass) : List (BtnEvent × Nat) → Prop
  | [] => True
  | (e, n) :: es => Justified ps es n e ∧ AllJustified ps es

/-- A later pass does not make a report wrong. -/
theorem Justified.cons {ps : List Pass} {older : List (BtnEvent × Nat)} {n : Nat} {e : BtnEvent}
    (h : Justified ps older n e) {p : Pass} (hp : n < p.time) : Justified (p :: ps) older n e := by
  have hactive : ∀ {lo hi}, hi ≤ n + 1 → ActiveFrom ps lo hi → ActiveFrom (p :: ps) lo hi := by
    intro lo hi hle ha q hq h1 h2
    rcases List.mem_cons.1 hq with rfl | hq
    · omega
    · exact ha q hq h1 h2
  cases e with
  | pressDown =>
    obtain ⟨hc, t₀, t₁, h1, h2, h3, h4, h5⟩ := h
    exact ⟨hc, t₀, t₁, h1, h2, List.mem_cons_of_mem p h3, List.mem_cons_of_mem p h4,
      hactive (Nat.le_succ n) h5⟩
  | hold =>
    obtain ⟨t, h1, h2, h3⟩ := h
    exact ⟨t, h1, h2, hactive (Nat.le_refl _) h3⟩
  | pressUp =>
    obtain ⟨t, h1, q, h2, h3⟩ := h
    exact ⟨t, h1, q, List.mem_cons_of_mem p h2, h3⟩
  | click => exact h

theorem AllJustified.cons {ps : List Pass} {es : List (BtnEvent × Nat)} (h : AllJustified ps es)
    {p : Pass} (hp : ∀ e ∈ es, e.2 < p.time) : AllJustified (p :: ps) es := by
  induction es with
  | nil => trivial
  | cons e es ih =>
    exact ⟨h.1.cons (hp e List.mem_cons_self),
      ih h.2 fun e' he => hp e' (List.mem_cons_of_mem e he)⟩

/-! ## The states of the button -/

namespace ButtonRun

/-- What a state of the button says about the passes and the reports. -/
def Means (s : ButtonRun) : Prop :=
  match s.btn.state with
  | .nonePress => Closed s.events
  | .checkPress => Closed s.events ∧ ∃ t₀, s.btn.tickTimeout = (t₀ + 50) % tickPeriod ∧ t₀ ≤ s.now ∧
      ⟨t₀, true⟩ ∈ s.passes ∧ ActiveFrom s.passes t₀ (s.now + 1)
  | .pressDown => Closed s.events ∧ ∃ t₀ t₁, t₀ + 50 ≤ t₁ ∧ ⟨t₀, true⟩ ∈ s.passes ∧
      ⟨t₁, true⟩ ∈ s.passes ∧ ActiveFrom s.passes t₀ (s.now + 1)
  | .pressHold => ∃ t, Down s.events t ∧ s.btn.tickTimeout = t % tickPeriod ∧ t ≤ s.now ∧
      ActiveFrom s.passes (t + 1) (s.now + 1) ∧ (s.btn.prevHoldTime = 0 ∨ t + 3000 ≤ s.now)
  | .pressUp => ∃ t, Down s.events t ∧ ∃ p ∈ s.passes, p.active = false ∧ t < p.time

structure Inv (s : ButtonRun) : Prop where
  elimination : s.btn.eliminationTime = 50
  cycle : s.btn.holdCycleTime = 3000
  logic : s.btn.activeLogic = 0
  past : ∀ p ∈ s.passes, p.time ≤ s.now
  reported : ∀ e ∈ s.events, e.2 ≤ s.now
  justified : AllJustified s.passes s.events
  means : s.Means

variable {s : ButtonRun}

/-- One more pass that finds the pin active, or whose finding does not matter. -/
theorem Inv.activeFrom (h : s.Inv) {lo hi : Nat} (ha : ActiveFrom s.passes lo (s.now + 1))
    {p : Pass} (hp : p.active = true ∨ hi ≤ p.time) : ActiveFrom (p :: s.passes) lo hi := by
  intro q hq h1 h2
  rcases List.mem_cons.1 hq with rfl | hq
  · exact hp.resolve_right (by omega)
  · exact ha q hq h1 (Nat.lt_succ_of_le (h.past q hq))

/-- A deadline that has not come is not reached by the wrapped comparison either. -/
theorem le_of_notBefore {a b : Nat} (hb : b ≤ a + 50)
    (h : notBefore (a % tickPeriod) (b % tickPeriod) = true) : b ≤ a := by
  refine Nat.le_of_not_lt fun hlt => ?_
  have hsub : tickSub (a % tickPeriod) (b % tickPeriod) = a + tickPeriod - b :=
    Serial.sub_eq_of_lt hlt (by unfold tickPeriod; omega)
  have hsmall : tickSub (a % tickPeriod) (b % tickPeriod) < tickMax / 2 := of_decide_eq_true h
  rw [hsub] at hsmall
  unfold tickPeriod tickMax at hsmall
  omega

/-- `hold_time` is never more than the time since the press. -/
theorem holdTime_le {b : AgileBtn} {t now : Nat} (hb : b.tickTimeout = t % tickPeriod)
    (hle : t ≤ now) : (b.calHoldTime (now % tickPeriod)).holdTime ≤ now - t := by
  simp only [AgileBtn.calHoldTime, hb]
  unfold tickMax tickPeriod
  split
  · omega
  · omega

/-- The parts of the invariant that do not depend on the state of the button. -/
theorem Inv.pass (h : s.Inv) {b : AgileBtn} (p : Pass) (es : List (BtnEvent × Nat))
    (hlater : s.now < p.time) (he : b.eliminationTime = 50) (hc : b.holdCycleTime = 3000)
    (hl : b.activeLogic = 0) (htime : ∀ e ∈ es, e.2 = p.time)
    (hes : AllJustified (p :: s.passes) s.events → AllJustified (p :: s.passes) (es ++ s.events))
    (hm : Means { btn := b, now := p.time, passes := p :: s.passes, events := es ++ s.events }) :
    Inv { btn := b, now := p.time, passes := p :: s.passes, events := es ++ s.events } where
  elimination := he
  cycle := hc
  logic := hl
  past q hq := by
    rcases List.mem_cons.1 hq with rfl | hq
    · exact Nat.le_refl _
    · exact Nat.le_of_lt (Nat.lt_of_le_of_lt (h.past q hq) hlater)
  reported e hem := by
    rcases List.mem_append.1 hem with hem | hem
    · exact Nat.le_of_eq (htime e hem)
    · exact Nat.le_of_lt (Nat.lt_of_le_of_lt (h.reported e hem) hlater)
  justified := hes (h.justified.cons fun e hem => Nat.lt_of_le_of_lt (h.reported e hem) hlater)
  means := hm

theorem inv_step {t : ButtonRun} {a : BtnAct} (h : s.Inv) (ht : step s a = some t) : t.Inv := by
  simp only [step, Option.ite_none_right_eq_some, Option.some.injEq] at ht
  obtain ⟨hpos, rfl⟩ := ht
  have hlater : s.now < s.now + a.ticks := Nat.lt_add_of_pos_right hpos
  generalize hn : s.now + a.ticks = n at hlater ⊢
  have hlogic := h.logic
  have hmeans := h.means
  unfold Means at hmeans
  unfold AgileBtn.process
  cases hstate : s.btn.state with
  | nonePress =>
    rw [hstate] at hmeans
    simp only
    split
    · next hpin =>
      refine h.pass ⟨n, _⟩ [] hlater h.elimination h.cycle hlogic nofun id ?_
      refine ⟨hmeans, n, ?_, Nat.le_refl n, ?_, ?_⟩
      · simp only [h.elimination, Nat.mod_add_mod]
      · simp [hpin]
      · intro q hq h1 h2
        rcases List.mem_cons.1 hq with rfl | hq
        · simp [hpin]
        · have := h.past q hq
          omega
    · split
      · exact h.pass ⟨n, _⟩ [] hlater h.elimination h.cycle hlogic nofun id
          (by simp only [Means]; exact hmeans)
      · exact h.pass ⟨n, _⟩ [] hlater h.elimination h.cycle hlogic nofun id
          (by simp only [Means, hstate]; exact hmeans)
  | checkPress =>
    rw [hstate] at hmeans
    obtain ⟨hclosed, t₀, htick, hle, hmem, hactive⟩ := hmeans
    simp only
    split
    · next hpin =>
      have hactive' : ActiveFrom (⟨n, decide (a.pin = s.btn.activeLogic)⟩ :: s.passes) t₀ (n + 1) :=
        h.activeFrom hactive (.inl (by simp [hpin]))
      split
      · next hdue =>
        have h50 : t₀ + 50 ≤ n := le_of_notBefore (by omega) (by rw [← htick]; exact hdue)
        refine h.pass ⟨n, _⟩ [] hlater h.elimination h.cycle hlogic nofun id ?_
        exact ⟨hclosed, t₀, n, h50, List.mem_cons_of_mem _ hmem, by simp [hpin], hactive'⟩
      · refine h.pass ⟨n, _⟩ [] hlater h.elimination h.cycle hlogic nofun id ?_
        simp only [Means, hstate]
        exact ⟨hclosed, t₀, htick, by omega, List.mem_cons_of_mem _ hmem, hactive'⟩
    · exact h.pass ⟨n, _⟩ [] hlater h.elimination h.cycle hlogic nofun id hclosed
  | pressDown =>
    rw [hstate] at hmeans
    obtain ⟨hclosed, t₀, t₁, h50, hm₀, hm₁, hactive⟩ := hmeans
    have ht₁ : t₁ < n := Nat.lt_of_le_of_lt (h.past _ hm₁) hlater
    refine h.pass ⟨n, _⟩ [(.pressDown, n)] hlater h.elimination h.cycle hlogic
      (by simp) (fun hj => ⟨⟨hclosed, t₀, t₁, h50, ht₁, List.mem_cons_of_mem _ hm₀,
        List.mem_cons_of_mem _ hm₁, h.activeFrom hactive (.inr (Nat.le_refl n))⟩, hj⟩) ?_
    refine ⟨n, ⟨_, rfl⟩, rfl, Nat.le_refl n, ?_, .inl rfl⟩
    intro q hq h1 h2
    simp only at h2
    omega
  | pressHold =>
    rw [hstate] at hmeans
    obtain ⟨t, hdown, htick, hle, hactive, hprev⟩ := hmeans
    simp only
    split
    · next hpin =>
      have hactive' : ActiveFrom (⟨n, decide (a.pin = s.btn.activeLogic)⟩ :: s.passes) (t + 1)
          (n + 1) := h.activeFrom hactive (.inl (by simp [hpin]))
      have hhold := @holdTime_le s.btn t n htick (by omega)
      split
      · next hcycle =>
        have h3000 : t + 3000 ≤ n := by
          rcases hprev with hprev | hprev
          · have hsub : tickSub (s.btn.calHoldTime (n % tickPeriod)).holdTime 0 ≤
                (s.btn.calHoldTime (n % tickPeriod)).holdTime := by
              unfold tickSub Serial.sub
              rw [Nat.sub_zero, Nat.add_mod_right]
              exact Nat.mod_le _ _
            have hge : tickSub (s.btn.calHoldTime (n % tickPeriod)).holdTime 0 ≥ 3000 := by
              have hc := hcycle
              simp only [AgileBtn.calHoldTime, hprev, h.cycle] at hc ⊢
              exact hc
            omega
          · omega
        refine h.pass ⟨n, _⟩ [(.hold, n)] hlater h.elimination h.cycle hlogic
          (by simp) (fun hj => ⟨⟨t, hdown, h3000, hactive'⟩, hj⟩) ?_
        simp only [Means, AgileBtn.calHoldTime, hstate]
        exact ⟨t, hdown, htick, by omega, hactive', .inr h3000⟩
      · refine h.pass ⟨n, _⟩ [] hlater h.elimination h.cycle hlogic nofun id ?_
        simp only [Means, AgileBtn.calHoldTime, hstate]
        exact ⟨t, hdown, htick, by omega, hactive', hprev.imp_right fun hp => by omega⟩
    · next hpin =>
      refine h.pass ⟨n, _⟩ [] hlater h.elimination h.cycle hlogic nofun id ?_
      exact ⟨t, hdown, _, List.mem_cons_self, by simp [hpin], by simp only; omega⟩
  | pressUp =>
    rw [hstate] at hmeans
    obtain ⟨t, hdown, p, hp, hoff, hafter⟩ := hmeans
    have hpn : p.time < n := Nat.lt_of_le_of_lt (h.past p hp) hlater
    refine h.pass ⟨n, _⟩ [(.click, n), (.pressUp, n)] hlater h.elimination h.cycle
      hlogic (by simp) (fun hj => ⟨rfl, ⟨t, hdown, p, List.mem_cons_of_mem _ hp, hoff, hafter, hpn⟩,
        hj⟩) ?_
    intro e he
    cases he
    rfl

/-- After `button_init`, at any time. -/
def init (time : Nat) : ButtonRun := { btn := buttonInit (time % tickPeriod), now := time }

theorem inv_init (time : Nat) : (init time).Inv :=
  ⟨rfl, rfl, rfl, nofun, nofun, trivial, nofun⟩

/-- **Every report of the button is justified** by what the passes of its thread have seen, in every
run, over every wrap-around of the tick. -/
theorem button_justified (time : Nat) {as : List BtnAct} {s : ButtonRun}
    (he : exec step (init time) as = some s) : AllJustified s.passes s.events :=
  ((along_of_step (fun _ _ _ h ht => inv_step h ht) (inv_init time) as).last he).justified

/-- A bounce, a long press across tick 0, and the release. -/
def bounceAndPress : List BtnAct :=
  [⟨5, 0⟩, ⟨5, 1⟩, ⟨5, 0⟩, ⟨5, 0⟩, ⟨50, 0⟩, ⟨5, 0⟩, ⟨3000, 0⟩, ⟨5, 0⟩, ⟨5, 1⟩, ⟨5, 1⟩]

theorem button_justified_bounceAndPress :
    ∃ s, exec step (init 4294967000) bounceAndPress = some s ∧
      s.events = [(.click, 4294970090), (.pressUp, 4294970090), (.hold, 4294970080),
        (.pressDown, 4294967075)] ∧
      AllJustified s.passes s.events :=
  ⟨_, rfl, rfl, @button_justified 4294967000 bounceAndPress _ rfl⟩

/-! ## A button that is held -/

/-- With passes at most `g` ticks apart and the pin active, a hold is reported within `k` ticks, or
has been reported for this press; a press is reported before that. -/
def Within (g k : Nat) (s : ButtonRun) : Prop :=
  match s.btn.state with
  | .nonePress => 3051 + 3 * g ≤ k
  | .checkPress => ∃ m, s.btn.tickTimeout = m % tickPeriod ∧ s.now < m ∧ m ≤ s.now + 50 ∧
      m + 2 * g + 3001 ≤ s.now + k
  | .pressDown => 3001 + g ≤ k
  | .pressHold => (s.btn.prevHoldTime = 0 ∧ ∃ t, s.btn.tickTimeout = t % tickPeriod ∧ t ≤ s.now ∧
      s.now ≤ t + 3000 ∧ t + 3001 ≤ s.now + k) ∨ ∃ n, s.events.head? = some (.hold, n)
  | .pressUp => 3051 + 4 * g ≤ k

theorem Within.mono {g k k' : Nat} (h : Within g k s) (hk : k ≤ k') : Within g k' s := by
  unfold Within at h ⊢
  cases hstate : s.btn.state with
  | nonePress | pressDown | pressUp => rw [hstate] at h; exact Nat.le_trans h hk
  | checkPress =>
    rw [hstate] at h
    obtain ⟨m, h1, h2, h3, h4⟩ := h
    exact ⟨m, h1, h2, h3, by omega⟩
  | pressHold =>
    rw [hstate] at h
    exact h.imp_left fun ⟨h1, t, h2, h3, h4, h5⟩ => ⟨h1, t, h2, h3, h4, by omega⟩

section
variable {g k : Nat} (hg : g + 50 < tickMax / 2) {a : BtnAct} (hle : a.ticks ≤ g)
  {t : ButtonRun}
include hg hle

/-- A pass of a held button takes its ticks off the time that is left. -/
theorem within_active (hinv : s.Inv) (h : Within g k s) (ht : step s a = some t)
    (hpin : a.pin = 0) : Within g (k - a.ticks) t := by
  simp only [step, Option.ite_none_right_eq_some, Option.some.injEq] at ht
  obtain ⟨hpos, rfl⟩ := ht
  generalize hn : s.now + a.ticks = n
  have hactive : a.pin = s.btn.activeLogic := hpin.trans hinv.logic.symm
  have hlate : g < tickMax / 2 := Nat.lt_of_le_of_lt (Nat.le_add_right g 50) hg
  unfold Within at h
  unfold AgileBtn.process
  cases hstate : s.btn.state with
  | nonePress =>
    rw [hstate] at h
    simp only [if_pos hactive, Within, hinv.elimination]
    exact ⟨n + 50, by rw [Nat.mod_add_mod], by omega, by omega, by omega⟩
  | checkPress =>
    rw [hstate] at h
    obtain ⟨m, hm, h1, h2, h3⟩ := h
    have hdue : notBefore (n % tickPeriod) s.btn.tickTimeout = true ↔ m ≤ n := by
      rw [hm]
      exact SoftTimers.notBefore_iff (k := g + 50) hg (by omega) (by omega)
    simp only [if_pos hactive]
    split
    · next hd =>
      have hmn := hdue.1 hd
      simp only [Within]
      omega
    · next hd =>
      have hmn : ¬ m ≤ n := fun hle => hd (hdue.2 hle)
      simp only [Within, hstate]
      exact ⟨m, hm, by omega, by omega, by omega⟩
  | pressDown =>
    rw [hstate] at h
    simp only [Within]
    exact .inl ⟨trivial, n, rfl, Nat.le_refl n, by omega, by omega⟩
  | pressHold =>
    rw [hstate] at h
    simp only [if_pos hactive]
    rcases h with ⟨hprev, m, hm, h1, h2, h3⟩ | ⟨r, hr⟩
    · split
      · simp only [Within, AgileBtn.calHoldTime, hstate]
        exact .inr ⟨n, rfl⟩
      · next hcycle =>
        simp only [Within, AgileBtn.calHoldTime, hstate]
        refine .inl ⟨hprev, m, hm, by omega, ?_, ?_⟩
        all_goals
          -- the reading is one tick short when the tick has wrapped around
          simp only [AgileBtn.calHoldTime, hprev, hinv.cycle, hm] at hcycle
          unfold tickMax at hlate
          unfold tickSub Serial.sub tickMax tickPeriod at hcycle
          split at hcycle <;> omega
    · split
      · simp only [Within, AgileBtn.calHoldTime, hstate]
        exact .inr ⟨n, rfl⟩
      · simp only [Within, AgileBtn.calHoldTime, hstate]
        exact .inr ⟨r, hr⟩
  | pressUp =>
    rw [hstate] at h
    simp only [Within]
    omega

/-- Whatever the pin is, the times are those of the start afterwards. -/
theorem within_pass (hinv : s.Inv) (h : Within g (3051 + 4 * g) s) (ht : step s a = some t) :
    Within g (3051 + 4 * g) t := by
  by_cases hpin : a.pin = 0
  · exact (within_active hg hle hinv h ht hpin).mono (Nat.sub_le _ _)
  · have hoff : ¬ a.pin = s.btn.activeLogic := fun h => hpin (h.trans hinv.logic)
    simp only [step, Option.ite_none_right_eq_some, Option.some.injEq] at ht
    obtain ⟨hpos, rfl⟩ := ht
    unfold AgileBtn.process
    cases hstate : s.btn.state with
    | nonePress =>
      simp only [if_neg hoff]
      split
      · simp only [Within]
        omega
      · simp only [Within, hstate]
        omega
    | checkPress =>
      simp only [if_neg hoff, Within]
      omega
    | pressDown =>
      simp only [Within]
      exact .inl ⟨trivial, _, rfl, Nat.le_refl _, by omega, by omega⟩
    | pressHold =>
      simp only [if_neg hoff, Within]
      omega
    | pressUp =>
      simp only [Within]
      omega

end

/-- The ticks of a schedule. -/
def span : List BtnAct → Nat
  | [] => 0
  | a :: as => a.ticks + span as

theorem within_held {g k : Nat} (hg : g + 50 < tickMax / 2) {as : List BtnAct} {t : ButtonRun}
    (hgap : ∀ a ∈ as, a.ticks ≤ g) (hheld : ∀ a ∈ as, a.pin = 0) (hinv : s.Inv) (h : Within g k s)
    (he : exec step s as = some t) : Within g (k - span as) t := by
  induction as generalizing s k with
  | nil => cases he; exact h
  | cons a as ih =>
    obtain ⟨u, hu, he⟩ := Option.bind_eq_some_iff.1 he
    have hstep := within_active hg (hgap a List.mem_cons_self) hinv h hu
      (hheld a List.mem_cons_self)
    have hrest := ih (fun b hb => hgap b (List.mem_cons_of_mem a hb))
      (fun b hb => hheld b (List.mem_cons_of_mem a hb)) (inv_step hinv hu) hstep he
    rwa [Nat.sub_sub] at hrest

/-- **A button that is held is recognized.** In every run with passes at most `g` ticks apart,
whatever the pin did before: after `51 + 4 * g` ticks of holding the button is down, and after
`3051 + 4 * g` ticks the last report is a hold. -/
theorem held_recognized (time : Nat) {g : Nat} (hg : g + 50 < tickMax / 2) {as bs : List BtnAct}
    {t : ButtonRun} (he : exec step (init time) (as ++ bs) = some t)
    (hgap : ∀ a ∈ as ++ bs, a.ticks ≤ g) (hheld : ∀ a ∈ bs, a.pin = 0) :
    (51 + 4 * g ≤ span bs → t.btn.state = .pressHold) ∧
      (3051 + 4 * g ≤ span bs → ∃ n, t.events.head? = some (.hold, n)) := by
  rw [exec_append] at he
  obtain ⟨s, hs, he⟩ := Option.bind_eq_some_iff.1 he
  have hinv : Along step (fun s => s.Inv ∧ Within g (3051 + 4 * g) s) (init time) as := by
    refine along_of_inv (Q := fun _ a _ => a.ticks ≤ g)
      (fun s a t h ht ha => ⟨inv_step h.1 ht, within_pass hg ha h.1 h.2 ht⟩)
      ⟨inv_init time, ?_⟩ (steps_of_forall (fun a ha => hgap a (List.mem_append_left bs ha)) _)
    simp only [Within, init, buttonInit, AgileBtn.start]
    omega
  obtain ⟨hi, hw⟩ := hinv.last hs
  have hend := within_held hg (fun a ha => hgap a (List.mem_append_right as ha)) hheld hi hw he
  unfold Within at hend
  refine ⟨fun hspan => ?_, fun hspan => ?_⟩
  · cases hstate : t.btn.state with
    | pressHold => rfl
    | nonePress | pressDown | pressUp => rw [hstate] at hend; simp only at hend; omega
    | checkPress =>
      rw [hstate] at hend
      obtain ⟨m, -, h1, h2, h3⟩ := hend
      omega
  · cases hstate : t.btn.state with
    | pressHold =>
      rw [hstate] at hend
      refine hend.resolve_left fun ⟨_, m, _, h1, h2, h3⟩ => ?_
      omega
    | nonePress | pressDown | pressUp => rw [hstate] at hend; simp only at hend; omega
    | checkPress =>
      rw [hstate] at hend
      obtain ⟨m, -, h1, h2, h3⟩ := hend
      omega

/-- Passes every 300 ticks, after a bounce and with the tick wrapping around. -/
theorem held_recognized_slow :
    ∃ t, exec step (init 4294967000) ([⟨5, 0⟩, ⟨5, 1⟩] ++ List.replicate 15 ⟨300, 0⟩) = some t ∧
      (51 + 4 * 300 ≤ span (List.replicate 15 ⟨300, 0⟩) → t.btn.state = .pressHold) ∧
      (3051 + 4 * 300 ≤ span (List.replicate 15 ⟨300, 0⟩) →
        ∃ n, t.events.head? = some (.hold, n)) :=
  ⟨_, rfl, @held_recognized 4294967000 300 (by decide) [⟨5, 0⟩, ⟨5, 1⟩]
    (List.replicate 15 ⟨300, 0⟩) _ rfl (by decide) (by decide)⟩

end ButtonRun

end Spsi
