import Mathlib.Data.List.Basic

/-!
# Event histories

A history is the list of the events of a run, newest first. `since p q h`: an event in `p` has
happened after the newest event in `q`. `Separated p q h`: between any two events in `p` there is
one in `q`. `Extends c old new`: `new` has only events in `c` on top of `old`; `fresh old new` are
these events. `countSince p q h` is how many events in `p` have happened after the newest event in
`q`.
-/

namespace Hist

variable {ε : Type*} {p q : ε → Bool}

/-- Some event in `p` is newer than every event in `q`. -/
def since (p q : ε → Bool) : List ε → Bool
  | [] => false
  | e :: h => !q e && (p e || since p q h)

theorem since_cons (e : ε) (h : List ε) :
    since p q (e :: h) = (!q e && (p e || since p q h)) := rfl

@[simp] theorem since_reset {e : ε} (he : q e = true) (h : List ε) :
    since p q (e :: h) = false := by
  simp [since, he]

@[simp] theorem since_mark {e : ε} (hq : q e = false) (hp : p e = true) (h : List ε) :
    since p q (e :: h) = true := by simp [since, hp, hq]

@[simp] theorem since_skip {e : ε} (hq : q e = false) (hp : p e = false) (h : List ε) :
    since p q (e :: h) = since p q h := by simp [since, hp, hq]

/-- Events in neither set do not matter. -/
theorem since_append {es : List ε} (hes : ∀ e ∈ es, p e = false ∧ q e = false) (h : List ε) :
    since p q (es ++ h) = since p q h := by
  induction es with
  | nil => rfl
  | cons e es ih =>
    obtain ⟨hp, hq⟩ := hes e List.mem_cons_self
    rw [List.cons_append, since_skip hq hp, ih fun e' he' => hes e' (List.mem_cons_of_mem _ he')]

/-- If the newest event with a key has the key `k`, only the events with this key matter. -/
theorem since_newest {κ : Type*} {key : ε → Option κ} {k : κ} {q' : ε → Bool}
    (hq : ∀ e, q e = (key e).isSome) (hq' : ∀ e, q' e = true ↔ key e = some k) {h : List ε}
    (hk : h.findSome? key = some k) : since p q h = since p q' h := by
  induction h with
  | nil => rfl
  | cons e h ih =>
    rw [List.findSome?_cons] at hk
    cases he : key e with
    | some k' =>
      rw [he] at hk
      have hreset : q' e = true := (hq' e).2 (he.trans hk)
      rw [since_reset (by rw [hq, he]; rfl), since_reset hreset]
    | none =>
      rw [he] at hk
      have hskip : q' e = false := Bool.eq_false_iff.2 fun ht => by
        rw [(hq' e).1 ht] at he
        cases he
      rw [since_cons, since_cons, hskip, hq, he, ih hk]
      rfl

theorem since_filterMap {τ : Type*} {f : ε → Option τ} {p q : τ → Bool} (h : List ε) :
    since p q (h.filterMap f) = since (fun e => (f e).any p) (fun e => (f e).any q) h := by
  induction h with
  | nil => rfl
  | cons e h ih =>
    rw [List.filterMap_cons, since_cons]
    cases he : f e with
    | none => exact ih
    | some x => rw [since_cons, ih]; rfl

/-! ## Counting -/

/-- The number of events in `p` that are newer than every event in `q`. -/
def countSince (p q : ε → Bool) (h : List ε) : Nat := (h.takeWhile fun e => !q e).countP p

@[simp] theorem countSince_nil : countSince p q [] = 0 := rfl

theorem countSince_reset {e : ε} (hq : q e = true) (h : List ε) : countSince p q (e :: h) = 0 := by
  rw [countSince, List.takeWhile_cons_of_neg (by simp [hq])]
  rfl

theorem countSince_mark {e : ε} (hq : q e = false) (hp : p e = true) (h : List ε) :
    countSince p q (e :: h) = countSince p q h + 1 := by
  rw [countSince, List.takeWhile_cons_of_pos (by simp [hq]), List.countP_cons_of_pos hp]
  rfl

/-! ## Separation -/

/-- No event in `p` follows another without an event in `q` in between. -/
def Separated (p q : ε → Bool) : List ε → Prop
  | [] => True
  | e :: h => (p e = true → since p q h = false) ∧ Separated p q h

/-- An event that is hidden by newer ones has an event in `q` among them. -/
theorem exists_of_not_since {b : ε} (hp : p b = true) (hq : q b = false) {ys zs : List ε}
    (h : since p q (ys ++ b :: zs) = false) : ∃ e ∈ ys, q e = true := by
  induction ys with
  | nil =>
    rw [List.nil_append, since_mark hq hp] at h
    cases h
  | cons y ys ih =>
    cases hy : q y with
    | true => exact ⟨y, List.mem_cons_self, hy⟩
    | false =>
      rw [List.cons_append, since_cons, hy, Bool.not_false, Bool.true_and,
        Bool.or_eq_false_iff] at h
      obtain ⟨e, he, hqe⟩ := ih h.2
      exact ⟨e, List.mem_cons_of_mem y he, hqe⟩

/-- Between any two events in `p` there is one in `q`. -/
theorem Separated.between {h xs ys zs : List ε} {a b : ε} (hs : Separated p q h)
    (he : h = xs ++ a :: (ys ++ b :: zs)) (ha : p a = true) (hb : p b = true)
    (hq : q b = false) : ∃ e ∈ ys, q e = true := by
  subst he
  induction xs with
  | nil => exact exists_of_not_since hb hq (hs.1 ha)
  | cons x xs ih => exact ih hs.2

theorem separated_filterMap {τ : Type*} {f : ε → Option τ} {p q : τ → Bool} {h : List ε}
    (hs : Separated p q (h.filterMap f)) :
    Separated (fun e => (f e).any p) (fun e => (f e).any q) h := by
  induction h with
  | nil => trivial
  | cons e h ih =>
    rw [List.filterMap_cons] at hs
    cases he : f e with
    | none =>
      rw [he] at hs
      refine ⟨fun hp => ?_, ih hs⟩
      simp only [he] at hp
      cases hp
    | some x =>
      rw [he] at hs
      refine ⟨fun hp => ?_, ih hs.2⟩
      simp only [he] at hp
      rw [← since_filterMap]
      exact hs.1 hp

/-! ## Extensions -/

/-- `h'` is `h` with newer events in `c`. -/
def Extends (c : ε → Bool) (h h' : List ε) : Prop := ∃ es, h' = es ++ h ∧ ∀ e ∈ es, c e = true

namespace Extends

variable {c d : ε → Bool} {h h' h'' : List ε}

theorem refl (h : List ε) : Extends c h h := ⟨[], rfl, fun _ he => nomatch he⟩

theorem cons {e : ε} (he : c e = true) (hx : Extends c h h') : Extends c h (e :: h') := by
  obtain ⟨es, rfl, hes⟩ := hx
  refine ⟨e :: es, rfl, fun x hx => ?_⟩
  rcases List.mem_cons.1 hx with rfl | hx
  · exact he
  · exact hes x hx

theorem trans (hx : Extends c h h') (hx' : Extends c h' h'') : Extends c h h'' := by
  obtain ⟨es, rfl, hes⟩ := hx
  obtain ⟨es', rfl, hes'⟩ := hx'
  refine ⟨es' ++ es, (List.append_assoc _ _ _).symm, fun e he => ?_⟩
  rcases List.mem_append.1 he with he | he
  · exact hes' e he
  · exact hes e he

theorem mono (hx : Extends c h h') (hcd : ∀ e, c e = true → d e = true) : Extends d h h' := by
  obtain ⟨es, he, hes⟩ := hx
  exact ⟨es, he, fun e hm => hcd e (hes e hm)⟩

/-- An extension that avoids the class `d`. -/
theorem avoid (hx : Extends c h h') (hcd : ∀ e, c e = true → d e = false) :
    Extends (fun e => !d e) h h' :=
  hx.mono fun e he => by rw [hcd e he]; rfl

/-- An extension by events in neither class. -/
theorem since (hx : Extends c h h') (hp : ∀ e, c e = true → p e = false)
    (hq : ∀ e, c e = true → q e = false) : Hist.since p q h' = Hist.since p q h := by
  obtain ⟨es, rfl, hes⟩ := hx
  exact since_append (fun e he => ⟨hp e (hes e he), hq e (hes e he)⟩) h

theorem findSome? {τ : Type*} (hx : Extends c h h') {f : ε → Option τ}
    (hf : ∀ e, c e = true → f e = none) : h'.findSome? f = h.findSome? f := by
  obtain ⟨es, rfl, hes⟩ := hx
  rw [List.findSome?_append, List.findSome?_eq_none_iff.2 fun e he => hf e (hes e he)]
  rfl

end Extends

/-- The events of `new` after those of `old`. -/
def fresh (old new : List ε) : List ε := new.take (new.length - old.length)

@[simp] theorem fresh_append (es old : List ε) : fresh old (es ++ old) = es := by
  simp [fresh]

/-- The events of an extension are in its class. -/
theorem mem_fresh {c : ε → Bool} {old new : List ε} (h : Extends c old new) :
    ∀ e ∈ fresh old new, c e = true := by
  obtain ⟨es, rfl, hes⟩ := h
  rw [fresh_append]
  exact hes

end Hist
