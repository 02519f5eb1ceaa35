import Mathlib.Data.List.TakeWhile
import SpsiMaster.Lamp.AgileLed

/-!
# What a pattern ends with

`AgileLed.final` is the level that an object has once it is inactive, if nobody calls
`agile_led_on`, `agile_led_off`, `agile_led_start`, `agile_led_stop` or `agile_led_set_light_mode`
for it any more: the rest of its loops is played without the delays.

`process_worked`: a call of `agile_led_process` does not change it, whatever the tick, whatever the
patterns and the loop counts. `process_enough`: the restarts of its traversal come to an end.
-/

namespace Spsi

/-! ## Playing a pattern -/

/-- The level after the entries from index `i` on; an entry 0 switches nothing. -/
def play : Nat → List UInt32 → Bool → Bool
  | _, [], b => b
  | i, ms :: rest, b => play (i + 1) rest (if ms = 0 then b else i % 2 ≠ 0)

/-- A pattern that is played again ends the same. -/
theorem play_play (i : Nat) (xs : List UInt32) (b : Bool) :
    play i xs (play i xs b) = play i xs b := by
  have hconst : ∀ (xs : List UInt32) i, (∃ c, ∀ b, play i xs b = c) ∨ ∀ b, play i xs b = b := by
    intro xs
    induction xs with
    | nil => exact fun _ => .inr fun _ => rfl
    | cons ms xs ih =>
      intro i
      by_cases hms : ms = 0
      · simpa only [play, hms, if_true] using ih (i + 1)
      · exact .inl ⟨play (i + 1) xs (i % 2 ≠ 0), fun b => by rw [play, if_neg hms]⟩
  rcases hconst xs i with ⟨c, hc⟩ | hid
  · rw [hc, hc]
  · rw [hid, hid]

theorem play_zeros {zs : List UInt32} (hz : ∀ ms ∈ zs, ms = 0) (i : Nat) (xs : List UInt32)
    (b : Bool) : play i (zs ++ xs) b = play (i + zs.length) xs b := by
  induction zs generalizing i with
  | nil => rfl
  | cons ms zs ih =>
    rw [List.cons_append, play, if_pos (hz ms List.mem_cons_self),
      ih (fun ms h => hz ms (List.mem_cons_of_mem _ h)), List.length_cons]
    congr 1
    omega

namespace AgileLed

variable (l : AgileLed)

/-- The rest of the loop that is running. -/
def rest : Bool := play l.arrIndex (l.lightArr.drop l.arrIndex) l.lit

/-- The level at the end; the loops after the first start at index 1. -/
def final : Bool :=
  if l.active = false ∨ l.loopCnt = 0 then l.lit
  else if l.loopCnt = 1 then l.rest
  else play 1 (l.lightArr.drop 1) l.rest

theorem final_inactive (h : l.active = false) : l.final = l.lit := if_pos (.inl h)

/-- The entries from `skip` on are those from `arr_index` on without the leading zeros. -/
theorem drop_skip : l.lightArr.drop l.skip =
    (l.lightArr.drop l.arrIndex).dropWhile fun ms => ms = 0 := by
  rw [skip, ← List.drop_drop]
  generalize l.lightArr.drop l.arrIndex = xs
  induction xs with
  | nil => rfl
  | cons ms xs ih =>
    by_cases hms : ms = 0
    · simpa [hms] using ih
    · simp [hms]

theorem play_skip (b : Bool) : play l.arrIndex (l.lightArr.drop l.arrIndex) b =
    play l.skip (l.lightArr.drop l.skip) b := by
  have hz : ∀ ms ∈ (l.lightArr.drop l.arrIndex).takeWhile fun ms => ms = 0, ms = 0 :=
    fun ms h => by simpa using List.mem_takeWhile_imp h
  have hplay := play_zeros hz l.arrIndex (l.lightArr.drop l.skip) b
  rwa [drop_skip, List.takeWhile_append_dropWhile, ← drop_skip] at hplay

theorem skip_ne_zero {ms : UInt32} (h : l.lightArr[l.skip]? = some ms) : ms ≠ 0 := by
  have hhead : ((l.lightArr.drop l.arrIndex).dropWhile fun ms => ms = 0).head? = some ms := by
    rw [← drop_skip, List.head?_drop, h]
  have hnot := List.head?_dropWhile_not (fun ms : UInt32 => decide (ms = 0))
    (l.lightArr.drop l.arrIndex)
  rw [hhead] at hnot
  simpa using hnot

variable {l}

theorem final_active (ha : l.active = true) (hc : l.loopCnt ≠ 0) : l.final =
    if l.loopCnt = 1 then l.rest else play 1 (l.lightArr.drop 1) l.rest :=
  if_neg fun h => h.elim (by rw [ha]; decide) hc

/-- At the start of a loop after the first. -/
theorem final_loop (ha : l.active = true) (hc : l.loopCnt ≠ 0) (hi : l.arrIndex = 1) :
    l.final = play 1 (l.lightArr.drop 1) l.lit := by
  rw [final_active ha hc, rest, hi]
  split
  · rfl
  · exact play_play 1 _ _

/-- A visit switches as the pattern says. -/
theorem visit_final (now : UInt32) (ha : l.active = true) (hc : l.loopCnt ≠ 0) :
    (l.visit now).final = l.final := by
  unfold visit
  split
  · split
    · next ms hms =>
      obtain ⟨hlt, he⟩ := List.getElem?_eq_some_iff.1 hms
      have hrest : l.rest = play (l.skip + 1) (l.lightArr.drop (l.skip + 1))
          (l.skip % 2 ≠ 0) := by
        rw [rest, play_skip, List.drop_eq_getElem_cons hlt, play, he,
          if_neg (l.skip_ne_zero hms)]
      rw [final_active ha hc, hrest]
      exact final_active ha hc
    · next hnone =>
      have hrest : l.rest = l.lit := by
        rw [rest, play_skip, List.drop_eq_nil_of_le (List.getElem?_eq_none_iff.1 hnone), play]
      rw [final_active ha hc, hrest]
      by_cases h1 : l.loopCnt = 1
      · rw [if_pos h1]
        exact if_pos (.inr (by simp [h1]))
      · rw [if_neg h1]
        -- one loop less to go, and the next one starts at index 1
        have hc' : (if 0 < l.loopCnt then l.loopCnt - 1 else l.loopCnt) ≠ 0 := by
          split <;> omega
        let l' : AgileLed := { l with
          arrIndex := 1, loopCnt := if 0 < l.loopCnt then l.loopCnt - 1 else l.loopCnt }
        exact final_loop (l := l') ha hc' rfl
  · rfl

@[simp] theorem visit_active (now : UInt32) : (l.visit now).active = l.active := by
  unfold visit
  split
  · split <;> rfl
  · rfl

@[simp] theorem visit_lightArr (now : UInt32) : (l.visit now).lightArr = l.lightArr := by
  unfold visit
  split
  · split <;> rfl
  · rfl

@[simp] theorem visit_loopInit (now : UInt32) : (l.visit now).loopInit = l.loopInit := by
  unfold visit
  split
  · split <;> rfl
  · rfl

end AgileLed

/-! ## The list of the active objects -/

namespace AgileLeds

variable {ι : Type*} {e : AgileLeds ι}

variable [DecidableEq ι]

theorem Listed.update (h : e.Listed) (i : ι) {f : AgileLed → AgileLed}
    (hf : (f (e.led i)).active = (e.led i).active) : (e.update i f).Listed where
  nodup := h.nodup
  active := fun j => by
    by_cases hj : j = i
    · subst hj
      rw [update_led, Function.update_self, hf]
      exact h.active j
    · rw [update_led, Function.update_of_ne hj]
      exact h.active j

theorem Listed.stop (h : e.Listed) (i : ι) : (e.stop i).Listed := by
  unfold AgileLeds.stop
  split
  · refine ⟨h.nodup.erase i, fun j => ?_⟩
    by_cases hj : j = i
    · subst hj
      simp [h.nodup.mem_erase_iff]
    · dsimp only
      rw [Function.update_of_ne hj, h.nodup.mem_erase_iff, ← h.active j]
      exact ⟨fun hm => hm.2, fun hm => ⟨hj, hm⟩⟩
  · exact h

theorem Listed.start (h : e.Listed) (i : ι) (now : UInt32) : (e.start i now).Listed := by
  unfold AgileLeds.start
  split
  · exact h
  · next ha =>
    split
    · exact h
    · have hnot : i ∉ e.slist := fun hm => ha ((h.active i).1 hm)
      refine ⟨List.nodup_append.2 ⟨h.nodup, List.nodup_singleton i, fun a hm b hb => ?_⟩,
        fun j => ?_⟩
      · rintro rfl
        exact hnot (List.mem_singleton.1 hb ▸ hm)
      · dsimp only
        rw [List.mem_append, List.mem_singleton]
        by_cases hj : j = i
        · subst hj
          simp
        · rw [Function.update_of_ne hj, ← h.active j]
          exact ⟨fun hm => hm.resolve_right hj, .inl⟩

/-! ## A call of `agile_led_process` -/

/-- What every visit of an active object and every stop of a finished one keeps, a pass keeps. -/
theorem pass_induct {P : ι → AgileLed → Prop} {now : UInt32}
    (hvisit : ∀ i l, l.active = true → l.loopCnt ≠ 0 → P i l → P i (l.visit now))
    (hstop : ∀ i l, l.loopCnt = 0 → P i l → P i { l with active := false })
    {is : List ι} (h : e.Listed) (hi : ∀ i ∈ is, i ∈ e.slist) (hP : ∀ i, P i (e.led i)) :
    (e.pass now is).1.Listed ∧ ∀ i, P i ((e.pass now is).1.led i) := by
  induction is generalizing e with
  | nil => exact ⟨h, hP⟩
  | cons i is ih =>
    have ha : (e.led i).active = true := (h.active i).1 (hi i List.mem_cons_self)
    rw [pass]
    split
    · next hc =>
      refine ⟨h.stop i, fun j => ?_⟩
      by_cases hj : j = i
      · subst hj
        rw [stop_self]
        exact hstop j _ hc (hP j)
      · rw [stop_other hj]
        exact hP j
    · next hc =>
      refine ih (h.update i (AgileLed.visit_active now))
        (fun j hj => hi j (List.mem_cons_of_mem i hj)) fun j => ?_
      rw [update_led]
      by_cases hj : j = i
      · subst hj
        rw [Function.update_self]
        exact hvisit j _ ha hc (hP j)
      · rw [Function.update_of_ne hj]
        exact hP j

/-- The rule of a call of `agile_led_process`. -/
theorem process_induct {P : ι → AgileLed → Prop} {now : UInt32}
    (hvisit : ∀ i l, l.active = true → l.loopCnt ≠ 0 → P i l → P i (l.visit now))
    (hstop : ∀ i l, l.loopCnt = 0 → P i l → P i { l with active := false })
    (h : e.Listed) (hP : ∀ i, P i (e.led i)) :
    (e.process now).Listed ∧ ∀ i, P i ((e.process now).led i) := by
  have hpasses : ∀ (n : Nat) {e : AgileLeds ι}, e.Listed → (∀ i, P i (e.led i)) →
      (e.passes now n).Listed ∧ ∀ i, P i ((e.passes now n).led i) := by
    intro n
    induction n with
    | zero => exact fun h hP => ⟨h, hP⟩
    | succ n ih =>
      intro e h hP
      obtain ⟨hl, hp⟩ := pass_induct hvisit hstop h (fun i hi => hi) hP
      rw [passes]
      split
      · next e' he =>
        rw [he] at hl hp
        exact ih hl hp
      · next e' he =>
        rw [he] at hl hp
        exact ⟨hl, hp⟩
  exact hpasses _ h hP

theorem process_listed (h : e.Listed) (now : UInt32) : (e.process now).Listed :=
  (process_induct (P := fun _ _ => True) (fun _ _ _ _ _ => trivial) (fun _ _ _ _ => trivial) h
    fun _ => trivial).1

/-- What a call of `agile_led_process` does to an object: it does not change what the object ends
with, nor its pattern; the object may become inactive. -/
structure Worked (l l' : AgileLed) : Prop where
  final : l'.final = l.final
  lightArr : l'.lightArr = l.lightArr
  loopInit : l'.loopInit = l.loopInit
  active : l'.active = true → l.active = true

theorem process_worked (h : e.Listed) (now : UInt32) (i : ι) :
    Worked (e.led i) ((e.process now).led i) := by
  refine (process_induct (P := fun i l => Worked (e.led i) l) ?_ ?_ h
    fun _ => ⟨rfl, rfl, rfl, fun ha => ha⟩).2 i
  · intro i l ha hc hw
    exact ⟨(AgileLed.visit_final now ha hc).trans hw.final,
      (AgileLed.visit_lightArr now).trans hw.lightArr,
      (AgileLed.visit_loopInit now).trans hw.loopInit, fun _ => hw.active ha⟩
  · intro i l hc hw
    refine ⟨?_, hw.lightArr, hw.loopInit, fun ha => nomatch ha⟩
    rw [AgileLed.final_inactive _ rfl, ← hw.final]
    exact (if_pos (.inr hc)).symm

/-- A pass that has to restart has stopped an object. -/
theorem pass_shorter (now : UInt32) {is : List ι} (h : e.Listed) (hi : ∀ i ∈ is, i ∈ e.slist)
    (hn : (e.pass now is).2 = true) : (e.pass now is).1.slist.length < e.slist.length := by
  induction is generalizing e with
  | nil => cases hn
  | cons i is ih =>
    have hmem : i ∈ e.slist := hi i List.mem_cons_self
    rw [pass] at hn ⊢
    split
    · rw [AgileLeds.stop, if_pos ((h.active i).1 hmem)]
      dsimp only
      rw [List.length_erase_of_mem hmem]
      have : 0 < e.slist.length := List.length_pos_of_mem hmem
      omega
    · next hc =>
      rw [if_neg hc] at hn
      exact ih (h.update i (AgileLed.visit_active now))
        (fun j hj => hi j (List.mem_cons_of_mem i hj)) hn

/-- **The traversal comes to an end**: more passes than objects in the list change nothing. -/
theorem process_enough (h : e.Listed) (now : UInt32) {n : Nat} (hn : e.slist.length < n) :
    e.passes now n = e.process now := by
  have hmore : ∀ (m k : Nat) {e : AgileLeds ι}, e.Listed → e.slist.length < m →
      e.slist.length < k → e.passes now m = e.passes now k := by
    intro m
    induction m with
    | zero => exact fun k e _ hm => absurd hm (Nat.not_lt_zero _)
    | succ m ih =>
      intro k e h hm hk
      cases k with
      | zero => exact absurd hk (Nat.not_lt_zero _)
      | succ k =>
        have hlisted : (e.pass now e.slist).1.Listed := (pass_induct (P := fun _ _ => True)
          (fun _ _ _ _ _ => trivial) (fun _ _ _ _ => trivial) h (fun i hi => hi)
          fun _ => trivial).1
        have hshort := pass_shorter now h fun i hi => hi
        rw [passes, passes]
        split
        · next e' he =>
          rw [he] at hlisted hshort
          have hlt := hshort rfl
          dsimp only at hlt
          exact ih k hlisted (by omega) (by omega)
        · rfl
  exact hmore n _ h hn (Nat.lt_succ_self _)

end AgileLeds

end Spsi
