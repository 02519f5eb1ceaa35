import SpsiMaster.Rtos.Proof.HeapBlocks

/-!
# The operations of the heap

`Blocks h bs`: the blocks of the heap are `bs`, no two free ones are neighbours, `lfree` is the
first free one and `used_mem` the length of the used ones. Each operation of `rt-thread/src/mem.c`
has one theorem here: what it returns, which blocks there are afterwards, and that the data of the
blocks that stay used is kept.
-/

namespace Rtos

open ByteMem Tiling

/-- The invariant of the heap. -/
structure Blocks (h : Heap) (bs : Tiles Bool) : Prop extends Tiled h bs where
  sep : Sep bs
  lfree : h.lfree = h.heapPtr + first bs
  usedMem : h.usedMem = marked bs
  maxMem : h.usedMem ≤ h.maxMem
  room : 12 ≤ h.memSizeAligned

/-- The heap is where it was. -/
structure SameArea (h h' : Heap) : Prop where
  heapPtr : h'.heapPtr = h.heapPtr
  memSizeAligned : h'.memSizeAligned = h.memSizeAligned

section
variable {h h' : Heap} {bs l₁ l₂ rest : Tiles Bool} {n c size fuel : Nat} {u : Bool}

theorem SameArea.heapEnd (hs : SameArea h h') : h'.heapEnd = h.heapEnd := by
  rw [Heap.heapEnd, Heap.heapEnd, hs.heapPtr, hs.memSizeAligned]

theorem SameArea.trans {h'' : Heap} (hs : SameArea h h') (hs' : SameArea h' h'') :
    SameArea h h'' :=
  ⟨hs'.heapPtr.trans hs.heapPtr, hs'.memSizeAligned.trans hs.memSizeAligned⟩

theorem Tiled.of_mem (ht : Tiled h bs) (hm : h'.mem = h.mem) (hs : SameArea h h') :
    Tiled h' bs where
  links := by rw [hm, hs.heapPtr]; exact ht.links
  fin := by rw [hm, hs.heapEnd, hs.memSizeAligned]; exact ht.fin
  len := by rw [hs.memSizeAligned]; exact ht.len
  size := ht.size
  aligned := by rw [hs.heapPtr]; exact ht.aligned
  bound := by rw [hs.heapEnd]; exact ht.bound

theorem Tiled.length_lt (ht : Tiled h (l₁ ++ l₂)) : l₂.length < h.fuel := by
  have hl := length_mul_le (l := l₁ ++ l₂) fun t hm => (ht.size t hm).1
  rw [ht.len, List.length_append] at hl
  simp only [Heap.fuel]
  omega

theorem Tiled.four_dvd_left (ht : Tiled h (l₁ ++ l₂)) : 4 ∣ Tiling.len l₁ :=
  dvd_len fun t hm => (ht.size t (List.mem_append_left _ hm)).2

/-- Two tilings have the same used blocks. -/
def SameUsed (bs bs' : Tiles Bool) : Prop := ∀ q n, At 0 bs q (n, true) ↔ At 0 bs' q (n, true)

theorem SameUsed.inData {bs' : Tiles Bool} {hp i : Nat} (hu : SameUsed bs bs')
    (hi : InData hp bs i) : InData hp bs' i := by
  obtain ⟨q, n, hq, hi⟩ := hi
  exact ⟨q, n, (hu q n).1 hq, hi⟩

theorem Frame.of_sameUsed {bs' : Tiles Bool} (hf : Frame h h' bs) (hu : SameUsed bs' bs) :
    Frame h h' bs' := fun i hi => hf i (hu.inData hi)

theorem sameUsed_split {k : Nat} (hk : k ≤ n) :
    SameUsed (l₁ ++ (k, false) :: (n - k, false) :: l₂) (l₁ ++ (n, false) :: l₂) := fun q m => by
  simp [Nat.add_assoc, Nat.add_sub_cancel' hk]

/-! ## Allocation -/

/-- The walk from a block to the first free one behind it. -/
theorem Tiled.lfreeAdvance (ht : Tiled h (l₁ ++ l₂)) (hf : l₂.length < fuel) :
    h.lfreeAdvance fuel (h.heapPtr + Tiling.len l₁) =
      some (h.heapPtr + (Tiling.len l₁ + first l₂)) := by
  induction l₂ generalizing l₁ fuel with
  | nil =>
    obtain ⟨f, rfl⟩ := Nat.exists_eq_succ_of_ne_zero (by omega : fuel ≠ 0)
    have hend : h.heapPtr + Tiling.len l₁ = h.heapEnd := by
      have hl := ht.len
      simp only [List.append_nil] at hl
      simp only [Heap.heapEnd, sizeofStructMem]
      omega
    rw [Heap.lfreeAdvance, if_neg fun hc => hc.2 hend]
    rfl
  | cons t l ih =>
    obtain ⟨n, u⟩ := t
    obtain ⟨f, rfl⟩ := Nat.exists_eq_succ_of_ne_zero (by omega : fuel ≠ 0)
    obtain ⟨hn, -, hend, -⟩ := ht.bounds
    simp only at hn hend
    have hu : h.used (h.heapPtr + Tiling.len l₁) = u.toNat := ht.hdr.used
    have hx : h.next (h.heapPtr + Tiling.len l₁) = Tiling.len l₁ + n := ht.hdr.next
    rw [Heap.lfreeAdvance, hu, hx]
    cases u with
    | false => simp [first]
    | true =>
      have hih := @ih (l₁ ++ [(n, true)]) f (by simpa using ht) (by simpa using hf)
      rw [if_pos ⟨by decide, by omega⟩]
      simp only [len_append, len_cons, len_nil, Nat.add_zero] at hih
      rw [hih, first, Nat.add_assoc]

/-- What an allocation of `size` bytes makes of a free block of length `n` in front of `l₂`: a used
block of length `c` in front of `rest`. -/
inductive Carve (n size : Nat) (l₂ : Tiles Bool) : Nat → Tiles Bool → Prop where
  | split (h : size + 28 ≤ n - 16) :
    Carve n size l₂ (size + 16) ((n - (size + 16), false) :: l₂)
  | whole (h : n - 16 < size + 28) : Carve n size l₂ n l₂

theorem Carve.size_le (hc : Carve n size l₂ c rest) (hn : size ≤ n - 16) (h16 : 16 ≤ n) :
    size + 16 ≤ c ∧ c ≤ n := by
  cases hc <;> omega

theorem Carve.sameUsed (l₁ : Tiles Bool) (hc : Carve n size l₂ c rest) (h16 : 16 ≤ n) :
    SameUsed (l₁ ++ (n, false) :: l₂) (l₁ ++ (c, false) :: rest) := fun q m => by
  cases hc with
  | split h => exact (sameUsed_split (by omega) q m).symm
  | whole => exact Iff.rfl

theorem mallocCarve_spec (hb : Blocks h (l₁ ++ (n, false) :: l₂)) (hs : 12 ≤ size)
    (hd : 4 ∣ size) (hn : size ≤ n - 16) : ∃ c rest m, Carve n size l₂ c rest ∧
      h.mallocCarve (Tiling.len l₁) size = ({ h with
        mem := store m (h.heapPtr + Tiling.len l₁ + 2) 2 1 } : Heap).account c ∧
      Tiled { h with mem := m } (l₁ ++ (c, false) :: rest) ∧
      Frame h { h with mem := m } (l₁ ++ (n, false) :: l₂) := by
  obtain ⟨h20, hdn, hend, hsize⟩ := hb.bounds
  have hbd := hb.bound
  simp only at h20 hdn hend hsize
  have hx : h.next (h.heapPtr + Tiling.len l₁) = Tiling.len l₁ + n := hb.hdr.next
  have hroom : sizeSub (Tiling.len l₁ + n) (Tiling.len l₁ + 16) = n - 16 := by
    rw [sizeSub_eq (by omega) (by omega)]
    omega
  simp only [Heap.mallocCarve, hx, sizeofStructMem, minSize, hroom]
  split
  · next hge =>
    obtain ⟨m, hm, ht, hf⟩ := hb.splitBlock (k := size + 16) (by omega) (by omega)
      (Nat.dvd_add hd (by decide))
    refine ⟨_, _, m, .split (by omega), ?_, ht,
      hf.of_sameUsed fun q k => (sameUsed_split (by omega) q k).symm⟩
    rw [Nat.add_assoc, Nat.add_comm 16, hm]
    rfl
  · next hlt =>
    refine ⟨_, _, h.mem, .whole (by omega), ?_, hb.toTiled, fun _ _ => rfl⟩
    rw [sizeSub_eq (by omega) (by omega), Nat.add_sub_cancel_left]
    rfl

theorem mallocTake_spec (self : Option (List UInt8)) (hb : Blocks h (l₁ ++ (n, false) :: l₂))
    (hs : 12 ≤ size) (hd : 4 ∣ size) (hn : size ≤ n - 16) : ∃ c rest h', Carve n size l₂ c rest ∧
      h.mallocTake self (Tiling.len l₁) size = some (h.heapPtr + Tiling.len l₁ + 16, h') ∧
      Blocks h' (l₁ ++ (c, true) :: rest) ∧ SameArea h h' ∧
      Frame h h' (l₁ ++ (n, false) :: l₂) := by
  obtain ⟨h20, hdn, hend, hsize⟩ := hb.bounds
  have hbd := hb.bound
  simp only at h20 hdn hend hsize
  obtain ⟨c, rest, m, hc, hcarve, ht, hf⟩ := mallocCarve_spec hb hs hd hn
  have hcn := hc.size_le hn (by omega)
  have hpos : ∀ t ∈ l₁, 0 < t.1 := fun t hm => by
    have := (hb.size t (by simp [hm])).1
    omega
  generalize hname : self.getD (Printf.ascii "NONE") = name
  obtain ⟨ht', hf'⟩ := ht.markMem true name
  have hmarked : marked (l₁ ++ (c, true) :: rest) = marked (l₁ ++ (n, false) :: l₂) + c := by
    cases hc <;> simp only [marked_append, marked] <;> omega
  have hle := marked_le (l₁ ++ (c, true) :: rest)
  rw [ht'.len] at hle
  have hused : (h.usedMem + c) % sizePeriod = marked (l₁ ++ (c, true) :: rest) := by
    rw [hb.usedMem, hmarked]
    exact Nat.mod_eq_of_lt (by simp only [sizePeriod]; simp only at hle; omega)
  obtain ⟨h₁, hh₁⟩ : ∃ h₁ : Heap, h₁ = { h with
      mem := markMem m (h.heapPtr + Tiling.len l₁) 1 name
      usedMem := marked (l₁ ++ (c, true) :: rest)
      maxMem := if h.maxMem < marked (l₁ ++ (c, true) :: rest) then
        marked (l₁ ++ (c, true) :: rest) else h.maxMem } := ⟨_, rfl⟩
  have ht₁ : Tiled h₁ (l₁ ++ (c, true) :: rest) := hh₁ ▸ ht'.of_mem rfl ⟨rfl, rfl⟩
  -- the free block behind the new one, if `lfree` was the new one
  have hadv : (if h.heapPtr + Tiling.len l₁ = h₁.lfree then
      h₁.lfreeAdvance h₁.fuel h₁.lfree else some h₁.lfree) =
        some (h.heapPtr + first (l₁ ++ (c, true) :: rest)) := by
    have hl : h₁.lfree = h.heapPtr + first l₁ := by
      rw [hh₁, ← first_append_false]
      exact hb.lfree
    rw [hl, first_append hpos]
    split
    · next heq =>
      have hp : h₁.heapPtr = h.heapPtr := by rw [hh₁]
      rw [if_pos (by omega), ← heq, ← hp]
      exact ht₁.lfreeAdvance ht₁.length_lt
    · next hne => rw [if_neg (by omega)]
  have h4 := Nat.dvd_add hb.aligned hb.four_dvd_left
  refine ⟨c, rest, { h₁ with lfree := h.heapPtr + first (l₁ ++ (c, true) :: rest) }, hc, ?_, ?_,
    ?_, fun i hi => ?_⟩
  · have hmk : ((h.mallocCarve (Tiling.len l₁) size).setMagic (h.heapPtr + Tiling.len l₁)
        heapMagic).setname (h.heapPtr + Tiling.len l₁) name = h₁ := by
      rw [hcarve, hh₁]
      simp only [Heap.account, Heap.setMagic, Heap.setname, hused]
      rfl
    have he : h₁.heapEnd = h.heapEnd := by rw [hh₁]; rfl
    simp only [Heap.mallocTake, hname, hmk, hadv, Option.bind_some, sizeofStructMem, he]
    rw [if_pos ⟨by omega, by omega, by omega⟩]
  · have hm := hb.maxMem
    refine ⟨ht₁.of_mem rfl ⟨rfl, rfl⟩, ?_, ?_, by rw [hh₁], ?_, by rw [hh₁]; exact hb.room⟩
    · have hsep := sep_append_cons.1 hb.sep
      refine sep_append_cons.2 ⟨hsep.1, ?_, .inl rfl⟩
      cases hc with
      | whole => exact hsep.2.1
      | split =>
        obtain hno | hend := hsep.2.2
        · cases hno
        · exact sep_cons.2 ⟨hsep.2.1, .inr hend.2⟩
    · rw [hh₁]
    · rw [hh₁]
      simp only
      split <;> omega
  · rw [hh₁]
    exact ⟨rfl, rfl⟩
  · rw [hh₁]
    exact (hf' false i ((hc.sameUsed l₁ (by omega)).inData hi)).trans (hf i hi)

/-- The bytes that `rt_malloc` looks for. -/
def allocSize (size : Nat) : Nat := if rtAlign size < 12 then 12 else rtAlign size

/-- The free block of length `n` at `p` is one that `rt_malloc` would take for `size` bytes. The
search ends at `mem_size_aligned - size`: a block that ends with the heap must be larger. -/
def Fits (h : Heap) (size p n : Nat) : Prop :=
  allocSize size ≤ n - 16 ∧ p + allocSize size < h.memSizeAligned

theorem mallocLoop_spec (self : Option (List UInt8)) (hb : Blocks h (l₁ ++ l₂))
    (hsize : size ≤ h.memSizeAligned) (hf : l₂.length < fuel) :
    (h.mallocLoop self size fuel (Tiling.len l₁) = some (0, h) ∧
      ∀ p n, At (Tiling.len l₁) l₂ p (n, false) → size ≤ n - 16 → h.memSizeAligned ≤ p + size) ∨
    ∃ l n l', l₂ = l ++ (n, false) :: l' ∧ size ≤ n - 16 ∧
      Tiling.len (l₁ ++ l) + size < h.memSizeAligned ∧ (∀ t ∈ l, t.2 = false → t.1 - 16 < size) ∧
      h.mallocLoop self size fuel (Tiling.len l₁) =
        h.mallocTake self (Tiling.len (l₁ ++ l)) size := by
  have hbd := hb.bound
  simp only [Heap.heapEnd, sizeofStructMem] at hbd
  have hsub : sizeSub h.memSizeAligned size = h.memSizeAligned - size :=
    sizeSub_eq hsize (by omega)
  induction l₂ generalizing l₁ fuel with
  | nil =>
    obtain ⟨f, rfl⟩ := Nat.exists_eq_succ_of_ne_zero (by omega : fuel ≠ 0)
    have hl := hb.len
    simp only [List.append_nil] at hl
    refine .inl ⟨?_, fun _ _ hat => hat.elim⟩
    rw [Heap.mallocLoop, hsub, if_neg (by omega)]
  | cons t l ih =>
    obtain ⟨n, u⟩ := t
    obtain ⟨f, rfl⟩ := Nat.exists_eq_succ_of_ne_zero (by omega : fuel ≠ 0)
    obtain ⟨h20, -, hend, -⟩ := hb.bounds
    simp only [Heap.heapEnd, sizeofStructMem] at h20 hend
    have hu : h.used (h.heapPtr + Tiling.len l₁) = u.toNat := hb.hdr.used
    have hx : h.next (h.heapPtr + Tiling.len l₁) = Tiling.len l₁ + n := hb.hdr.next
    have hroom : sizeSub (Tiling.len l₁ + n) (Tiling.len l₁ + 16) = n - 16 := by
      rw [sizeSub_eq (by omega) (by omega)]
      omega
    simp only [Heap.mallocLoop, hsub, hu, hx, sizeofStructMem, hroom]
    split
    · next hlt =>
      split
      · next hfit =>
        cases u with
        | true => exact absurd hfit.1 (by decide)
        | false => exact .inr ⟨[], n, l, rfl, hfit.2, by simp; omega, by simp, by simp⟩
      · next hno =>
        have hno' : u = false → n - 16 < size := fun hu => by
          subst hu
          simpa using hno
        have hih := @ih (l₁ ++ [(n, u)]) f (by simpa using hb) (by simpa using hf)
        simp only [len_append, len_cons, len_nil, Nat.add_zero] at hih
        obtain ⟨he, hall⟩ | ⟨l₀, k, l', rfl, hk, hp, hall, he⟩ := hih
        · refine .inl ⟨he, fun p k hat hk => ?_⟩
          obtain ⟨rfl, heq⟩ | hat := hat
          · cases heq
            have hn := hno' rfl
            omega
          · exact hall p k hat hk
        · refine .inr ⟨(n, u) :: l₀, k, l', rfl, hk, ?_, ?_, ?_⟩
          · simpa [Nat.add_assoc] using hp
          · exact fun t ht => by
              obtain rfl | ht := List.mem_cons.1 ht
              · exact hno'
              · exact hall t ht
          · rw [he]
            simp [Nat.add_assoc]
    · next hge =>
      refine .inl ⟨rfl, fun p k hat _ => ?_⟩
      have hbounds := hat.bounds
      omega

/-- `rt_malloc` fails, and then no free block fits, or it carves the first one that fits. -/
theorem rtMalloc_spec (hb : Blocks h bs) (self : Option (List UInt8)) (size : Nat) :
    (h.rtMalloc self size = some (0, h) ∧
      (size = 0 ∨ ∀ p n, At 0 bs p (n, false) → ¬ Fits h size p n)) ∨
    ∃ l₁ n l₂ c rest h', size ≠ 0 ∧ bs = l₁ ++ (n, false) :: l₂ ∧ Fits h size (Tiling.len l₁) n ∧
      (∀ t ∈ l₁, t.2 = false → t.1 - 16 < allocSize size) ∧ Carve n (allocSize size) l₂ c rest ∧
      h.rtMalloc self size = some (h.heapPtr + Tiling.len l₁ + 16, h') ∧
      Blocks h' (l₁ ++ (c, true) :: rest) ∧ SameArea h h' ∧ Frame h h' bs := by
  have hroom := hb.room
  by_cases hs : size = 0
  · exact .inl ⟨by rw [Heap.rtMalloc, if_pos hs], .inl hs⟩
  by_cases hbig : rtAlign size > h.memSizeAligned
  · refine .inl ⟨by rw [Heap.rtMalloc, if_neg hs, if_pos hbig], .inr fun p n _ hfit => ?_⟩
    have hp := hfit.2
    rw [allocSize, if_neg (by omega)] at hp
    omega
  have hd : 4 ∣ allocSize size := by
    rw [allocSize]
    split
    · decide
    · exact four_dvd_rtAlign size
  have h12 : 12 ≤ allocSize size ∧ allocSize size ≤ h.memSizeAligned := by
    rw [allocSize]
    split <;> omega
  have hm : h.rtMalloc self size = h.mallocLoop self (allocSize size) h.fuel (first bs) := by
    simp only [Heap.rtMalloc, if_neg hs, if_neg hbig, hb.lfree, Nat.add_sub_cancel_left, minSize]
    rfl
  obtain ⟨l₁, l₂, rfl, hfirst, hused⟩ := exists_append_of_first bs
  have hnone : ∀ p n, ¬ At 0 l₁ p (n, false) := fun p n hat => by
    cases hused _ hat.mem
  rw [hm, hfirst]
  obtain ⟨he, hall⟩ | ⟨l, n, l', rfl, hn, hp, hall, he⟩ :=
    mallocLoop_spec self hb h12.2 hb.length_lt
  · refine .inl ⟨he, .inr fun p n hat hfit => ?_⟩
    obtain hat | hat := at_append.1 hat
    · exact hnone p n hat
    · rw [Nat.zero_add] at hat
      exact Nat.not_le_of_lt hfit.2 (hall p n hat hfit.1)
  · rw [← List.append_assoc] at hb
    obtain ⟨c, rest, h', hc, ht, hb', hsame, hframe⟩ := mallocTake_spec self hb h12.1 hd hn
    refine .inr ⟨l₁ ++ l, n, l', c, rest, h', hs, by simp, ⟨hn, hp⟩, fun t ht => ?_, hc,
      he.trans ht, hb', hsame, by simpa using hframe⟩
    obtain ht | ht := List.mem_append.1 ht
    · intro hf
      cases hf.symm.trans (hused t ht)
    · exact hall t ht

/-! ## Release -/

theorem plugForward_spec (ht : Tiled h (l₁ ++ (n, false) :: l₂)) (hsep : Sep l₂)
    (hl : h.lfree = h.heapPtr + first l₁) : ∃ m k l,
      h.plugForward (h.heapPtr + Tiling.len l₁) = { h with mem := m } ∧
      Tiled { h with mem := m } (l₁ ++ (k, false) :: l) ∧ Sep l ∧ (∀ t ∈ l.head?, t.2 = true) ∧
      marked l = marked l₂ ∧ SameUsed (l₁ ++ (k, false) :: l) (l₁ ++ (n, false) :: l₂) ∧
      Frame h { h with mem := m } (l₁ ++ (k, false) :: l) := by
  obtain ⟨h20, -, hend, -⟩ := ht.bounds
  simp only at h20 hend
  have hx : h.next (h.heapPtr + Tiling.len l₁) = Tiling.len l₁ + n := ht.hdr.next
  cases l₂ with
  | nil =>
    refine ⟨h.mem, n, [], ?_, ht, hsep, by simp, rfl, fun _ _ => Iff.rfl, fun _ _ => rfl⟩
    simp only [len_nil] at hend
    rw [Heap.plugForward, hx, if_neg fun hc => hc.2.2 (by omega)]
  | cons t l =>
    obtain ⟨k, u⟩ := t
    have ht' : Tiled h ((l₁ ++ [(n, false)]) ++ (k, u) :: l) := by simpa using ht
    obtain ⟨hk, -, -, -⟩ := ht'.bounds
    have hh := ht'.hdr
    simp only [len_append, len_cons, len_nil, Nat.add_zero, Nat.add_assoc (Tiling.len l₁)]
      at hk hh hend
    have hu : h.used (h.heapPtr + (Tiling.len l₁ + n)) = u.toNat := hh.used
    cases u with
    | true =>
      refine ⟨h.mem, n, (k, true) :: l, ?_, ht, hsep, by simp, rfl, fun _ _ => Iff.rfl,
        fun _ _ => rfl⟩
      rw [Heap.plugForward, hx, if_neg fun hc => Nat.one_ne_zero (hu.symm.trans hc.2.1)]
    | false =>
      obtain ⟨htm, hf⟩ := ht.merge
      have hsep := sep_cons.1 hsep
      have hle := first_le l₁
      have hsame : SameUsed (l₁ ++ (n + k, false) :: l) (l₁ ++ (n, false) :: (k, false) :: l) :=
        fun q m => by simp [Nat.add_assoc]
      refine ⟨_, n + k, l, ?_, htm, hsep.1, ?_, rfl, hsame, hf.of_sameUsed hsame⟩
      · have hxx : load (store h.mem (h.heapPtr + Tiling.len l₁ + 4) 4 (Tiling.len l₁ + (n + k)))
            (h.heapPtr + (Tiling.len l₁ + n) + 4) 4 = Tiling.len l₁ + (n + k) :=
          (load_store_of_disjoint (by omega)).trans hh.next
        rw [Heap.plugForward, hx, if_pos ⟨by omega, hu, by omega⟩]
        simp only [Heap.setNext, Heap.setPrev, Heap.next, hl]
        rw [if_neg (by omega), hh.next, hxx, Nat.add_sub_cancel_left]
        rfl
      · obtain hno | hno := hsep.2
        · cases hno
        · exact hno

theorem plugBackward_spec (ht : Tiled h (l₁ ++ (n, false) :: l₂)) (hsep : Sep l₁ ∧ Sep l₂)
    (hhead : ∀ t ∈ l₂.head?, t.2 = true) (hl : h.lfree = h.heapPtr + first l₁) : ∃ m bs,
      h.plugBackward (h.heapPtr + Tiling.len l₁) = { h with mem := m } ∧
      Tiled { h with mem := m } bs ∧ Sep bs ∧ first bs = first l₁ ∧
      marked bs = marked l₁ + marked l₂ ∧ SameUsed bs (l₁ ++ (n, false) :: l₂) ∧
      Frame h { h with mem := m } bs := by
  obtain ⟨h20, -, hend, -⟩ := ht.bounds
  simp only at h20 hend
  have hpv := ht.prev
  obtain rfl | ⟨l, t, rfl⟩ := List.eq_nil_or_concat' l₁
  · refine ⟨h.mem, (n, false) :: l₂, ?_, ht, ?_, rfl, by simp [marked], fun _ _ => Iff.rfl,
      fun _ _ => rfl⟩
    · simp only [lastAt] at hpv
      rw [Heap.plugBackward, hpv, if_neg fun hc => hc.1 rfl]
    · exact sep_cons.2 ⟨hsep.2, .inr hhead⟩
  · obtain ⟨k, u⟩ := t
    have ht' : Tiled h (l ++ (k, u) :: (n, false) :: l₂) := by simpa using ht
    obtain ⟨hk, -, -, -⟩ := ht'.bounds
    have hx := ht.hdr.next
    simp only [lastAt_append, lastAt, Nat.zero_add, len_append, len_cons, len_nil, Nat.add_zero]
      at hk hpv hx ⊢
    have hu : h.used (h.heapPtr + Tiling.len l) = u.toNat := ht'.hdr.used
    cases u with
    | true =>
      refine ⟨h.mem, l ++ [(k, true)] ++ (n, false) :: l₂, ?_, ht, ?_, first_append_false, ?_,
        fun _ _ => Iff.rfl, fun _ _ => rfl⟩
      · rw [Heap.plugBackward, hpv, if_neg fun hc => Nat.one_ne_zero (hu.symm.trans hc.2)]
      · exact sep_append_cons.2 ⟨hsep.1, hsep.2, .inr ⟨by simp, hhead⟩⟩
      · simp [marked, Nat.add_assoc]
    | false =>
      obtain ⟨htm, hf⟩ := ht'.merge
      have hsep' := sep_append_cons.1 hsep.1
      have hle := first_le l
      rw [first_append_false] at hl ⊢
      have hsame : SameUsed (l ++ (k + n, false) :: l₂) (l ++ [(k, false)] ++ (n, false) :: l₂) :=
        fun q m => by simp [Nat.add_assoc]
      refine ⟨_, l ++ (k + n, false) :: l₂, ?_, htm, ?_, first_append_false, by simp [marked],
        hsame, hf.of_sameUsed (by simpa using hsame)⟩
      · have hxx : load (store h.mem (h.heapPtr + Tiling.len l + 4) 4 (Tiling.len l + (k + n)))
            (h.heapPtr + (Tiling.len l + k) + 4) 4 = Tiling.len l + (k + n) := by
          rw [load_store_of_disjoint (by omega), hx, Nat.add_assoc]
        rw [Heap.plugBackward, hpv, if_pos ⟨by omega, hu⟩]
        simp only [Heap.setNext, Heap.setPrev, Heap.next, hl]
        rw [if_neg (by omega), hx, Nat.add_assoc (Tiling.len l), hxx, Nat.add_sub_cancel_left]
        rfl
      · obtain hno | hno := hsep'.2.2
        · cases hno
        · exact sep_append_cons.2 ⟨hsep'.1, hsep.2, .inr ⟨hno.1, hhead⟩⟩

theorem plugHoles_spec (ht : Tiled h (l₁ ++ (n, false) :: l₂)) (hsep : Sep l₁ ∧ Sep l₂)
    (hl : h.lfree = h.heapPtr + first l₁) : ∃ m bs,
      h.plugHoles (h.heapPtr + Tiling.len l₁) = some { h with mem := m } ∧
      Tiled { h with mem := m } bs ∧ Sep bs ∧ first bs = first l₁ ∧
      marked bs = marked l₁ + marked l₂ ∧ SameUsed bs (l₁ ++ (n, false) :: l₂) ∧
      Frame h { h with mem := m } bs := by
  obtain ⟨h20, -, hend, -⟩ := ht.bounds
  simp only at h20 hend
  have hu : h.used (h.heapPtr + Tiling.len l₁) = 0 := ht.hdr.used
  obtain ⟨m, k, l, he, ht', hl', hhead, hmark, hsame, hf⟩ := plugForward_spec ht hsep.2 hl
  obtain ⟨m', bs, he', ht'', hbs, hfirst, hmark', hsame', hf'⟩ :=
    plugBackward_spec ht' ⟨hsep.1, hl'⟩ hhead hl
  refine ⟨m', bs, ?_, ht'', hbs, hfirst, by rw [hmark', hmark],
    fun q n => (hsame' q n).trans (hsame q n), fun i hi => ?_⟩
  · rw [Heap.plugHoles, if_pos ⟨Nat.le_add_right _ _, by omega, hu⟩, he]
    exact congrArg some he'
  · exact (hf' i hi).trans (hf i (hsame'.inData hi))

/-- `rt_free` of a used block makes it free. -/
theorem rtFree_spec (hb : Blocks h (l₁ ++ (n, true) :: l₂)) : ∃ h' bs,
    h.rtFree (h.heapPtr + Tiling.len l₁ + 16) = some h' ∧ Blocks h' bs ∧
      SameUsed bs (l₁ ++ (n, false) :: l₂) ∧ SameArea h h' ∧ Frame h h' bs := by
  obtain ⟨h20, -, hend, -⟩ := hb.bounds
  have hbd := hb.bound
  have h4 := Nat.dvd_add hb.aligned hb.four_dvd_left
  have hle := marked_le (l₁ ++ (n, true) :: l₂)
  have hmax := hb.maxMem
  have hum := hb.usedMem
  have hend' := hend
  rw [hb.len] at hle
  simp only [marked_append, marked, Heap.heapEnd, sizeofStructMem] at h20 hend hle hum hbd
  obtain ⟨hsep₁, hsep₂, -⟩ := sep_append_cons.1 hb.sep
  obtain ⟨ht, hf⟩ := hb.markMem false (Printf.ascii "    ")
  have hpos : ∀ t ∈ l₁, 0 < t.1 := fun t hm => by
    have := (hb.size t (by simp [hm])).1
    omega
  obtain ⟨h₁, hh₁⟩ : ∃ h₁ : Heap, h₁ = { h with
      mem := markMem h.mem (h.heapPtr + Tiling.len l₁) 0 (Printf.ascii "    ")
      lfree := h.heapPtr + first l₁
      usedMem := marked l₁ + marked l₂ } := ⟨_, rfl⟩
  have hp₁ : h₁.heapPtr = h.heapPtr := by rw [hh₁]
  have ht₁ : Tiled h₁ (l₁ ++ (n, false) :: l₂) := hh₁ ▸ ht.of_mem rfl ⟨rfl, rfl⟩
  obtain ⟨m, bs, he, ht', hbs, hfirst, hmark, hsame, hf'⟩ :=
    plugHoles_spec ht₁ ⟨hsep₁, hsep₂⟩ (by rw [hh₁])
  refine ⟨_, bs, ?_, ⟨ht', hbs, ?_, ?_, ?_, ?_⟩, hsame, ⟨?_, ?_⟩, fun i hi => ?_⟩
  · have hmem : sizeSub (h.heapPtr + Tiling.len l₁ + 16) 16 = h.heapPtr + Tiling.len l₁ := by
      rw [sizeSub_eq (by omega) (by omega)]
      omega
    have hptr : sizeSub (h.heapPtr + Tiling.len l₁) h.heapPtr = Tiling.len l₁ := by
      rw [sizeSub_eq (by omega) (by omega)]
      omega
    have hlen : sizeSub (Tiling.len l₁ + n) (Tiling.len l₁) = n := by
      rw [sizeSub_eq (by omega) (by omega)]
      omega
    have hsub : sizeSub h.usedMem n = marked l₁ + marked l₂ := by
      rw [sizeSub_eq (by omega) (by omega)]
      omega
    have hu : h.used (h.heapPtr + Tiling.len l₁) = 1 := hb.hdr.used
    have hg : h.magic (h.heapPtr + Tiling.len l₁) = heapMagic := hb.hdr.magic
    have hx : load (markMem h.mem (h.heapPtr + Tiling.len l₁) 0 (Printf.ascii "    "))
        (h.heapPtr + Tiling.len l₁ + 4) 4 = Tiling.len l₁ + n := ht.hdr.next
    have hlf : (if h.heapPtr + Tiling.len l₁ < h.lfree then h.heapPtr + Tiling.len l₁
        else h.lfree) = h.heapPtr + first l₁ := by
      have hfl := first_le l₁
      rw [hb.lfree, first_append hpos, first]
      split <;> split <;> omega
    simp only [Heap.rtFree, sizeofStructMem, hmem]
    rw [if_neg (by omega), if_pos ⟨by omega, by omega, by rw [hend']; omega⟩,
      if_pos ⟨by omega, hg⟩, ← he, hp₁]
    have hrec : ({ h with
        mem := markMem h.mem (h.heapPtr + Tiling.len l₁) 0 (Printf.ascii "    ")
        lfree := if h.heapPtr + Tiling.len l₁ < h.lfree then h.heapPtr + Tiling.len l₁ else h.lfree
        usedMem := sizeSub h.usedMem (sizeSub (load (markMem h.mem (h.heapPtr + Tiling.len l₁) 0
          (Printf.ascii "    ")) (h.heapPtr + Tiling.len l₁ + 4) 4)
          (sizeSub (h.heapPtr + Tiling.len l₁) h.heapPtr)) } : Heap) = h₁ := by
      rw [hlf, hx, hptr, hlen, hsub, hh₁]
    exact congrArg (fun g => Heap.plugHoles g (h.heapPtr + Tiling.len l₁)) hrec
  · rw [hfirst, hh₁]
  · rw [hmark, hh₁]
  · rw [hh₁]
    simp only
    omega
  · rw [hh₁]
    exact hb.room
  · rw [hh₁]
  · rw [hh₁]
  · rw [hf' i (hp₁ ▸ hi), hh₁]
    exact hf false i (hsame.inData hi)

/-! ## A smaller size -/

theorem reallocShrink_spec {newsize : Nat} (hb : Blocks h (l₁ ++ (n, true) :: l₂))
    (hd : 4 ∣ newsize) (hpos : 0 < newsize) (hlt : newsize + 28 < n - 16) : ∃ h' bs,
    h.reallocShrink (Tiling.len l₁) (n - 16) newsize = some h' ∧ Blocks h' bs ∧
      SameUsed bs (l₁ ++ (newsize + 16, true) :: (n - (newsize + 16), false) :: l₂) ∧
      SameArea h h' ∧ Frame h h' bs := by
  obtain ⟨h20, hdn, hend, -⟩ := hb.bounds
  have hbd := hb.bound
  have hle := marked_le (l₁ ++ (n, true) :: l₂)
  have hmax := hb.maxMem
  have hum := hb.usedMem
  rw [hb.len] at hle
  simp only [marked_append, marked, Heap.heapEnd, sizeofStructMem] at h20 hdn hend hle hum hbd
  obtain ⟨hsep₁, hsep₂, -⟩ := sep_append_cons.1 hb.sep
  have hpos₁ : ∀ t ∈ l₁, 0 < t.1 := fun t hm => by
    have := (hb.size t (by simp [hm])).1
    omega
  have ht₀ : Tiled { h with usedMem := marked l₁ + (newsize + 16) + marked l₂ }
      (l₁ ++ (n, true) :: l₂) := hb.of_mem rfl ⟨rfl, rfl⟩
  obtain ⟨m, he, ht, hf⟩ := ht₀.splitBlock (k := newsize + 16) (by omega) (by omega)
    (Nat.dvd_add hd (by decide))
  obtain ⟨h₁, hh₁⟩ : ∃ h₁ : Heap, h₁ = { h with
      mem := m
      lfree := h.heapPtr + first (l₁ ++ [(newsize + 16, true)])
      usedMem := marked l₁ + (newsize + 16) + marked l₂ } := ⟨_, rfl⟩
  have hp₁ : h₁.heapPtr = h.heapPtr := by rw [hh₁]
  have ht₁ : Tiled h₁ ((l₁ ++ [(newsize + 16, true)]) ++ (n - (newsize + 16), false) :: l₂) := by
    rw [List.append_assoc]
    exact hh₁ ▸ ht.of_mem rfl ⟨rfl, rfl⟩
  have hsep : Sep (l₁ ++ [(newsize + 16, true)]) := sep_append_cons.2 ⟨hsep₁, .nil, .inl rfl⟩
  obtain ⟨m', bs, hplug, ht', hbs, hfirst, hmark, hsame, hf'⟩ :=
    plugHoles_spec ht₁ ⟨hsep, hsep₂⟩ (by rw [hh₁])
  have hsame' : SameUsed bs (l₁ ++ (newsize + 16, true) :: (n - (newsize + 16), false) :: l₂) := by
    simpa using hsame
  refine ⟨_, bs, ?_, ⟨ht', hbs, ?_, ?_, ?_, ?_⟩, hsame', ⟨?_, ?_⟩, fun i hi => ?_⟩
  · have hsub : sizeSub h.usedMem (sizeSub (n - 16) newsize) =
        marked l₁ + (newsize + 16) + marked l₂ := by
      rw [sizeSub_eq (a := n - 16) (by omega) (by omega), sizeSub_eq (by omega) (by omega)]
      omega
    have hlf : (if h.heapPtr + (Tiling.len l₁ + (newsize + 16)) < h.lfree then
        h.heapPtr + (Tiling.len l₁ + (newsize + 16)) else h.lfree) =
        h.heapPtr + first (l₁ ++ [(newsize + 16, true)]) := by
      have hfl := first_le l₁
      rw [hb.lfree, first_append hpos₁, first_append hpos₁, first, first, first]
      split <;> split <;> omega
    have hq : Tiling.len l₁ + 16 + newsize = Tiling.len l₁ + (newsize + 16) := by omega
    have hrec : ({ h with
        mem := m
        lfree := if h.heapPtr + (Tiling.len l₁ + (newsize + 16)) < h.lfree then
          h.heapPtr + (Tiling.len l₁ + (newsize + 16)) else h.lfree
        usedMem := marked l₁ + (newsize + 16) + marked l₂ } : Heap) = h₁ := by
      rw [hlf, hh₁]
    simp only [Heap.reallocShrink, hsub, sizeofStructMem, hq, he, hrec]
    rw [← hplug, hp₁]
    simp
  · rw [hfirst, hh₁]
  · rw [hmark, hh₁]
    simp [marked]
  · rw [hh₁]
    simp only
    omega
  · rw [hh₁]
    exact hb.room
  · rw [hh₁]
  · rw [hh₁]
  · rw [hf' i (hp₁ ▸ hi), hh₁]
    exact hf i (hsame'.inData hi)

/-! ## The used blocks -/

/-- The used blocks when one is used that was free. -/
theorem used_head {q m : Nat} : At 0 (l₁ ++ (n, true) :: rest) q (m, true) ↔
    At 0 (l₁ ++ (n, false) :: rest) q (m, true) ∨ q = Tiling.len l₁ ∧ m = n := by
  simp only [at_append, at_cons, Prod.mk.injEq, Bool.true_eq_false, and_false, and_true,
    false_or, Nat.zero_add]
  tauto

theorem rtMalloc_used (hb : Blocks h bs) (self : Option (List UInt8)) (size : Nat) :
    h.rtMalloc self size = some (0, h) ∨
    ∃ p c h' bs', size ≠ 0 ∧ h.rtMalloc self size = some (h.heapPtr + p + 16, h') ∧
      Blocks h' bs' ∧ SameArea h h' ∧ Frame h h' bs ∧ allocSize size + 16 ≤ c ∧
      (∀ m, ¬ At 0 bs p (m, true)) ∧
      ∀ q m, At 0 bs' q (m, true) ↔ At 0 bs q (m, true) ∨ q = p ∧ m = c := by
  obtain ⟨he, -⟩ | ⟨l₁, n, l₂, c, rest, h', hs, rfl, hfit, -, hc, he, hb', hsame, hf⟩ :=
    rtMalloc_spec hb self size
  · exact .inl he
  · have h20 := (hb.size (n, false) (by simp)).1
    have hn := hfit.1
    simp only at h20
    refine .inr ⟨Tiling.len l₁, c, h', _, hs, he, hb', hsame, hf, (hc.size_le hn (by omega)).1,
      fun m hm => ?_, fun q m => ?_⟩
    · obtain ⟨-, heq⟩ | hd | hd := hm.disjoint (t := (n, false)) (q := Tiling.len l₁) (by simp)
      · cases heq
      · have hm20 := (hb.size _ hm.mem).1
        omega
      · simp only at hd
        omega
    · rw [hc.sameUsed l₁ (by omega) q m, used_head]

/-- The used blocks when one becomes free. -/
theorem Tiled.used_freed (ht : Tiled h (l₁ ++ (n, true) :: l₂)) (q m : Nat) :
    At 0 (l₁ ++ (n, false) :: l₂) q (m, true) ↔
      At 0 (l₁ ++ (n, true) :: l₂) q (m, true) ∧ q ≠ Tiling.len l₁ := by
  have h20 := (ht.size (n, true) (by simp)).1
  constructor
  · intro hq
    have hq' : At 0 (l₁ ++ (n, true) :: l₂) q (m, true) := by
      simp only [at_append, at_cons] at hq ⊢
      obtain hq | ⟨-, heq⟩ | hq := hq
      · exact .inl hq
      · cases heq
      · exact .inr (.inr hq)
    refine ⟨hq', ?_⟩
    rintro rfl
    obtain ⟨-, heq⟩ | hd | hd := hq.disjoint (t := (n, false)) (q := Tiling.len l₁) (by simp)
    · cases heq
    · have hm20 := (ht.size _ hq'.mem).1
      omega
    · simp only at h20 hd
      omega
  · rintro ⟨hq, hne⟩
    simp only [at_append, at_cons, Nat.zero_add] at hq ⊢
    obtain hq | ⟨heq, -⟩ | hq := hq
    · exact .inl hq
    · exact absurd heq hne
    · exact .inr (.inr hq)

theorem rtFree_used {p : Nat} (hb : Blocks h bs) (hat : At 0 bs p (n, true)) : ∃ h' bs',
    h.rtFree (h.heapPtr + p + 16) = some h' ∧ Blocks h' bs' ∧ SameArea h h' ∧ Frame h h' bs' ∧
      ∀ q m, At 0 bs' q (m, true) ↔ At 0 bs q (m, true) ∧ q ≠ p := by
  obtain ⟨l₁, l₂, rfl, rfl⟩ := at_iff_append.1 hat
  rw [Nat.zero_add]
  obtain ⟨h', bs', he, hb', hsame, harea, hf⟩ := rtFree_spec hb
  exact ⟨h', bs', he, hb', harea, hf, fun q m => (hsame q m).trans (hb.used_freed q m)⟩

/-- The owner of a block writes into it. -/
theorem Blocks.write {p : Nat} (k : Nat) (data : List UInt8) (hb : Blocks h bs)
    (hat : At 0 bs p (n, true)) (hlen : k + data.length ≤ n - 16) :
    Blocks { h with mem := write h.mem (h.heapPtr + p + 16 + k) data } bs := by
  have hbounds := hat.bounds
  have hlen' := hb.len
  have h20 := (hb.size _ hat.mem).1
  simp only at hbounds h20
  refine ⟨⟨hb.links.congr fun i hi => write_outside ?_, hb.fin.congr fun i h1 _ =>
    write_outside ?_, hb.len, hb.size, hb.aligned, hb.bound⟩, hb.sep, hb.lfree, hb.usedMem,
    hb.maxMem, hb.room⟩
  · obtain ⟨q, t, hq, h1, h2⟩ := hi
    have ht := hb.sixteen_le t hq.mem
    obtain ⟨rfl, rfl⟩ | hd | hd := hat.disjoint hq
    · omega
    · simp only at hd
      omega
    · omega
  · simp only [Heap.heapEnd, sizeofStructMem] at h1
    omega

/-- The block at `p` of length `n` has become the one at `p'` of length `c`: the data of the others
is kept, and that of the block up to the size `k`. -/
structure Moved (h h' : Heap) (bs bs' : Tiles Bool) (p n p' c k : Nat) : Prop where
  blocks : Blocks h' bs'
  area : SameArea h h'
  room : k + 16 ≤ c
  fresh : ∀ m, At 0 bs p' (m, true) → p' = p
  used : ∀ q m, At 0 bs' q (m, true) ↔ At 0 bs q (m, true) ∧ q ≠ p ∨ q = p' ∧ m = c
  others : ∀ q m, At 0 bs q (m, true) → q ≠ p → ∀ i, i < m - 16 →
    h'.mem (h.heapPtr + q + 16 + i) = h.mem (h.heapPtr + q + 16 + i)
  data : ∀ i, i < n - 16 → i < k →
    h'.mem (h.heapPtr + p' + 16 + i) = h.mem (h.heapPtr + p + 16 + i)

theorem Blocks.used_unique {p m : Nat} (hb : Blocks h bs) (hat : At 0 bs p (n, true))
    (hm : At 0 bs p (m, true)) : m = n := by
  have h1 := (hb.size _ hat.mem).1
  have h2 := (hb.size _ hm.mem).1
  obtain ⟨-, heq⟩ | hd | hd := hm.disjoint hat
  · exact congrArg Prod.fst heq
  · simp only at h2 hd
    omega
  · simp only at h1 hd
    omega

/-- The block stays where it is. -/
theorem Moved.of_frame {p k : Nat} {bs' : Tiles Bool}
    (hb : Blocks h' bs') (harea : SameArea h h') (hk : k + 16 ≤ c)
    (hu : ∀ q m, At 0 bs' q (m, true) ↔ At 0 bs q (m, true) ∧ q ≠ p ∨ q = p ∧ m = c)
    (hf : Frame h h' bs') : Moved h h' bs bs' p n p c k where
  blocks := hb
  area := harea
  room := hk
  fresh _ _ := rfl
  used := hu
  others q m hq hne i hi := hf _ ⟨q, m, (hu q m).2 (.inl ⟨hq, hne⟩), by omega, by omega⟩
  data i _ hi := hf _ ⟨p, c, (hu p c).2 (.inr ⟨rfl, rfl⟩), by omega, by omega⟩

theorem reallocMove_spec {p k : Nat} (hb : Blocks h bs) (hat : At 0 bs p (n, true))
    (self : Option (List UInt8)) (hk : rtAlign k = k) :
    h.reallocMove self (h.heapPtr + p + 16) (n - 16) k = some (0, h) ∨
    ∃ p' c h' bs', h.reallocMove self (h.heapPtr + p + 16) (n - 16) k =
      some (h.heapPtr + p' + 16, h') ∧ Moved h h' bs bs' p n p' c k := by
  obtain he | ⟨p', c, h₁, bs₁, -, he, hb₁, harea, hf, hc, hfresh, hu⟩ := rtMalloc_used hb self k
  · exact .inl (by simp [Heap.reallocMove, he])
  have hkc : k + 16 ≤ c := by
    rw [allocSize, hk] at hc
    split at hc <;> omega
  have hat₁ : At 0 bs₁ p (n, true) := (hu p n).2 (.inl hat)
  have hat' : At 0 bs₁ p' (c, true) := (hu p' c).2 (.inr ⟨rfl, rfl⟩)
  have hne : p' ≠ p := fun heq => hfresh n (heq ▸ hat)
  obtain ⟨len, hlen⟩ : ∃ len, (if n - 16 < k then n - 16 else k) = len := ⟨_, rfl⟩
  have hle : len ≤ k ∧ len ≤ n - 16 := by
    rw [← hlen]
    split <;> omega
  have hlen' : (ByteMem.read h₁.mem (h.heapPtr + p + 16) len).length = len := length_read
  obtain ⟨h₂, hh₂⟩ : ∃ h₂ : Heap, h₂ = { h₁ with
      mem := ByteMem.write h₁.mem (h.heapPtr + p' + 16)
        (ByteMem.read h₁.mem (h.heapPtr + p + 16) len) } := ⟨_, rfl⟩
  have hp₂ : h₂.heapPtr = h.heapPtr := hh₂ ▸ harea.heapPtr
  have hb₂ : Blocks h₂ bs₁ := by
    rw [hh₂, ← harea.heapPtr]
    exact hb₁.write 0 _ hat' (by rw [length_read]; omega)
  obtain ⟨h₃, bs₃, hfree, hb₃, harea₃, hf₃, hu₃⟩ := rtFree_used hb₂ hat₁
  rw [hp₂] at hfree
  have hused : ∀ q m, At 0 bs₃ q (m, true) ↔ At 0 bs q (m, true) ∧ q ≠ p ∨ q = p' ∧ m = c := by
    intro q m
    rw [hu₃ q m, hu q m]
    constructor
    · rintro ⟨hq | hq, hqp⟩
      · exact .inl ⟨hq, hqp⟩
      · exact .inr hq
    · rintro (⟨hq, hqp⟩ | ⟨rfl, rfl⟩)
      · exact ⟨.inl hq, hqp⟩
      · exact ⟨.inr ⟨rfl, rfl⟩, hne⟩
  refine .inr ⟨p', c, h₃, bs₃, ?_, hb₃, ⟨?_, ?_⟩, hkc, fun m hm => absurd hm (hfresh m), hused,
    fun q m hq hqp i hi => ?_, fun i hn hi => ?_⟩
  · simp only [Heap.reallocMove, he, Option.bind_some, hlen, ← hh₂]
    rw [if_pos (by omega), hfree]
    rfl
  · exact harea₃.heapPtr.trans hp₂
  · exact harea₃.memSizeAligned.trans (hh₂ ▸ harea.memSizeAligned)
  · -- the copy goes to another block
    have hq₁ : At 0 bs₁ q (m, true) := (hu q m).2 (.inl hq)
    have hkept : h₃.mem (h.heapPtr + q + 16 + i) = h₂.mem (h.heapPtr + q + 16 + i) :=
      hf₃ _ ⟨q, m, (hused q m).2 (.inl ⟨hq, hqp⟩), by omega, by omega⟩
    rw [hkept, ← hf _ ⟨q, m, hq, by omega, by omega⟩, hh₂]
    refine write_outside ?_
    obtain ⟨rfl, -⟩ | hd | hd := hq₁.disjoint hat'
    · exact absurd hq (hfresh m)
    · simp only at hd
      omega
    · simp only at hd
      omega
  · have hil : i < len := by
      rw [← hlen]
      split <;> omega
    have hkept : h₃.mem (h.heapPtr + p' + 16 + i) = h₂.mem (h.heapPtr + p' + 16 + i) :=
      hf₃ _ ⟨p', c, (hused p' c).2 (.inr ⟨rfl, rfl⟩), by omega, by omega⟩
    rw [hkept, ← hf (h.heapPtr + p + 16 + i) ⟨p, n, hat, by omega, by omega⟩, hh₂]
    refine (write_inside (by omega)).trans ?_
    simp [ByteMem.read]

theorem rtAlign_rtAlign (k : Nat) : rtAlign (rtAlign k) = rtAlign k :=
  rtAlign_of_dvd (four_dvd_rtAlign k) (rtAlign_lt k)

/-- `rt_realloc` of the null pointer is `rt_malloc`. -/
theorem rtRealloc_null (self : Option (List UInt8)) (newsize : Nat) :
    h.rtRealloc self 0 newsize = h.rtMalloc self (rtAlign newsize) := by
  simp only [Heap.rtRealloc, Heap.rtMalloc, Heap.rtFree, rtAlign_rtAlign, if_true]
  by_cases h0 : rtAlign newsize = 0
  · simp [h0]
  · rw [if_neg h0, if_neg h0]
    split <;> rfl

theorem rtRealloc_used {p : Nat} (hb : Blocks h bs) (hat : At 0 bs p (n, true))
    (self : Option (List UInt8)) (newsize : Nat) :
    (rtAlign newsize ≠ 0 ∧ h.rtRealloc self (h.heapPtr + p + 16) newsize = some (0, h)) ∨
    (rtAlign newsize = 0 ∧ h.rtRealloc self (h.heapPtr + p + 16) newsize =
      (h.rtFree (h.heapPtr + p + 16)).map fun h' => (0, h')) ∨
    (rtAlign newsize ≠ 0 ∧ ∃ p' c h' bs', h.rtRealloc self (h.heapPtr + p + 16) newsize =
      some (h.heapPtr + p' + 16, h') ∧ Moved h h' bs bs' p n p' c (rtAlign newsize)) := by
  obtain ⟨k, hk⟩ : ∃ k, rtAlign newsize = k := ⟨_, rfl⟩
  have hkk : rtAlign k = k := hk ▸ rtAlign_rtAlign newsize
  have hk4 : 4 ∣ k := hk ▸ four_dvd_rtAlign newsize
  rw [Heap.rtRealloc, hk]
  by_cases hbig : k > h.memSizeAligned
  · exact .inl ⟨by omega, if_pos hbig⟩
  simp only [if_neg hbig]
  by_cases h0 : k = 0
  · exact .inr (.inl ⟨h0, if_pos h0⟩)
  have hbd := hb.bound
  have hbounds := hat.bounds
  have h20 := (hb.size _ hat.mem).1
  rw [hb.len] at hbounds
  simp only [Heap.heapEnd, sizeofStructMem] at hbounds hbd h20
  have hmem : sizeSub (h.heapPtr + p + 16) 16 = h.heapPtr + p := by
    rw [sizeSub_eq (by omega) (by omega)]
    omega
  have hptr : sizeSub (h.heapPtr + p) h.heapPtr = p := by
    rw [sizeSub_eq (by omega) (by omega)]
    omega
  obtain ⟨l₁, l₂, rfl, hp⟩ := at_iff_append.1 hat
  rw [Nat.zero_add] at hp
  subst hp
  have hx : h.next (h.heapPtr + Tiling.len l₁) = Tiling.len l₁ + n := hb.hdr.next
  have hsize : sizeSub (Tiling.len l₁ + n) (Tiling.len l₁ + 16) = n - 16 := by
    rw [sizeSub_eq (by omega) (by omega)]
    omega
  simp only [if_neg h0, sizeofStructMem, hmem, hptr, hx, hsize, minSize]
  rw [if_neg (by omega), if_neg (by simp only [Heap.heapEnd, sizeofStructMem]; omega)]
  split
  · next heq =>
    refine .inr (.inr ⟨h0, _, n, h, _, rfl, .of_frame hb ⟨rfl, rfl⟩ (by omega) (fun q m => ?_)
      fun _ _ => rfl⟩)
    constructor
    · intro hq
      by_cases hqp : q = Tiling.len l₁
      · exact .inr ⟨hqp, hb.used_unique hat (hqp ▸ hq)⟩
      · exact .inl ⟨hq, hqp⟩
    · rintro (⟨hq, -⟩ | ⟨rfl, rfl⟩)
      · exact hq
      · exact hat
  · split
    · next hlt =>
      obtain ⟨h', bs', he, hb', hsame, harea, hf⟩ := reallocShrink_spec hb hk4 (by omega) (by omega)
      refine .inr (.inr ⟨h0, _, k + 16, h', bs', by rw [he]; rfl, .of_frame hb' harea
        (by omega) (fun q m => ?_) hf⟩)
      rw [hsame q m, ← hb.used_freed q m, ← sameUsed_split (k := k + 16) (by omega) q m,
        used_head]
    · obtain he | ⟨p', c, h', bs', he, hm⟩ := reallocMove_spec hb hat self hkk
      · exact .inl ⟨h0, he⟩
      · exact .inr (.inr ⟨h0, p', c, h', bs', he, hm⟩)

end

end Rtos
