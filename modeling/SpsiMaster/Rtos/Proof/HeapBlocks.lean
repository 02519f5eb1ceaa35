import SpsiMaster.Lib.Tiling
import SpsiMaster.Rtos.Mem

/-!
# The blocks of the heap

`Tiled h bs`: the headers in the memory of `h` link up the blocks `bs`, tiles of the heap with
their lengths, headers included, and whether they are used. `Blocks h bs` is the invariant of the
heap: besides, no two free blocks are neighbours, `lfree` is the first free block and `used_mem`
the length of the used ones. The theorems here say what each operation does to the blocks, and
that it changes headers only (`Frame`).
-/

namespace Rtos

open ByteMem Tiling

/-! ## Arithmetic -/

theorem sizeSub_eq {a b : Nat} (hle : b ≤ a) (ha : a < 4294967296) : sizeSub a b = a - b := by
  simp only [sizeSub, sizePeriod]
  omega

theorem rtAlign_of_dvd {n : Nat} (hd : 4 ∣ n) (hn : n < 4294967296) : rtAlign n = n := by
  obtain ⟨k, rfl⟩ := hd
  simp only [rtAlign, sizePeriod]
  omega

theorem four_dvd_rtAlign (n : Nat) : 4 ∣ rtAlign n := Nat.dvd_mul_left _ _

theorem rtAlign_lt (n : Nat) : rtAlign n < 4294967296 := by
  simp only [rtAlign, sizePeriod]
  omega

/-- The size is rounded up, but for the last three sizes, which become zero. -/
theorem rtAlign_eq {n : Nat} (hn : n < 4294967296) :
    n ≤ rtAlign n ∧ rtAlign n < n + 4 ∨ 4294967296 - 3 ≤ n ∧ rtAlign n = 0 := by
  simp only [rtAlign, sizePeriod]
  omega

/-! ## Headers -/

/-- The header at address `a`, but for `prev` and the thread name. -/
structure Hdr (m : Mem) (a used next : Nat) : Prop where
  magic : load m a 2 = heapMagic
  used : load m (a + 2) 2 = used
  next : load m (a + 4) 4 = next

theorem Hdr.congr {m m' : Mem} {a u n : Nat} (h : Hdr m a u n)
    (hm : ∀ i, a ≤ i → i < a + 16 → m' i = m i) : Hdr m' a u n where
  magic := (load_congr fun i h1 h2 => hm i h1 (by omega)).trans h.magic
  used := (load_congr fun i h1 h2 => hm i (by omega) (by omega)).trans h.used
  next := (load_congr fun i h1 h2 => hm i (by omega) (by omega)).trans h.next

/-- `prev` of this or of another header is written. -/
theorem Hdr.setPrev {m : Mem} {a u n b v : Nat} (h : Hdr m a u n)
    (hb : b = a ∨ b + 16 ≤ a ∨ a + 16 ≤ b) : Hdr (store m (b + 8) 4 v) a u n where
  magic := (load_store_of_disjoint (by omega)).trans h.magic
  used := (load_store_of_disjoint (by omega)).trans h.used
  next := (load_store_of_disjoint (by omega)).trans h.next

/-- The headers of the blocks `l`, which begin at position `p` behind a block at `pv`. -/
def Links (m : Mem) (hp : Nat) : Nat → Nat → Tiles Bool → Prop
  | _, _, [] => True
  | pv, p, (n, u) :: l =>
    Hdr m (hp + p) u.toNat (p + n) ∧ load m (hp + p + 8) 4 = pv ∧ Links m hp p (p + n) l

/-- The position of the last block. -/
def lastAt (pv p : Nat) : Tiles Bool → Nat
  | [] => pv
  | t :: l => lastAt p (p + t.1) l

section
variable {m m' : Mem} {hp p pv q v : Nat} {l l₁ l₂ : Tiles Bool} {t : Nat × Bool}

@[simp] theorem lastAt_append :
    lastAt pv p (l₁ ++ l₂) = lastAt (lastAt pv p l₁) (p + len l₁) l₂ := by
  induction l₁ generalizing pv p with
  | nil => simp [lastAt]
  | cons t l ih => simp [lastAt, ih, Nat.add_assoc]

theorem links_append : Links m hp pv p (l₁ ++ l₂) ↔
    Links m hp pv p l₁ ∧ Links m hp (lastAt pv p l₁) (p + len l₁) l₂ := by
  induction l₁ generalizing pv p with
  | nil => simp [Links, lastAt]
  | cons t l ih => simp [Links, lastAt, ih, Nat.add_assoc, and_assoc]

/-- `i` is the address of a byte of a header of `l`, which begins at position `p`. -/
def InHeader (hp p : Nat) (l : Tiles Bool) (i : Nat) : Prop :=
  ∃ q t, At p l q t ∧ hp + q ≤ i ∧ i < hp + q + 16

theorem InHeader.bounds {i : Nat} (h : InHeader hp p l i)
    (hlen : ∀ t ∈ l, 16 ≤ t.1) : hp + p ≤ i ∧ i < hp + p + len l := by
  obtain ⟨q, t, ht, h1, h2⟩ := h
  have hb := ht.bounds
  have ht := hlen t ht.mem
  omega

theorem Links.congr (h : Links m hp pv p l) (hm : ∀ i, InHeader hp p l i → m' i = m i) :
    Links m' hp pv p l := by
  induction l generalizing pv p with
  | nil => trivial
  | cons t l ih =>
    obtain ⟨hh, hpv, hl⟩ := h
    have hin : ∀ i, hp + p ≤ i → i < hp + p + 16 → m' i = m i := fun i h1 h2 =>
      hm i ⟨p, t, .inl ⟨rfl, rfl⟩, h1, h2⟩
    refine ⟨hh.congr hin, ?_, ih hl ?_⟩
    · exact (load_congr fun i h1 h2 => hin i (by omega) (by omega)).trans hpv
    · rintro i ⟨q, s, hs, h1, h2⟩
      exact hm i ⟨q, s, .inr hs, h1, h2⟩

/-- The blocks of a range are linked up as before if its bytes are the same. -/
theorem Links.congr_range (h : Links m hp pv p l) (hlen : ∀ t ∈ l, 16 ≤ t.1)
    (hm : ∀ i, hp + p ≤ i → i < hp + p + len l → m' i = m i) : Links m' hp pv p l :=
  h.congr fun i hi => hm i (hi.bounds hlen).1 (hi.bounds hlen).2

/-- `prev` of the first block is written. -/
theorem Links.relink (h : Links m hp pv p l) (hlen : ∀ t ∈ l, 16 ≤ t.1)
    (hv : v < 4294967296) : Links (store m (hp + p + 8) 4 v) hp v p l := by
  cases l with
  | nil => trivial
  | cons t l =>
    obtain ⟨hh, -, hl⟩ := h
    have ht := hlen t List.mem_cons_self
    refine ⟨hh.setPrev (.inl rfl), load_store hv, ?_⟩
    exact hl.congr_range (fun s hs => hlen s (List.mem_cons_of_mem _ hs)) fun i h1 _ =>
      store_outside (by omega)

end

/-! ## Tilings of the heap -/

/-- The headers link up the blocks `bs`, which fill the heap up to the header of `heap_end`. -/
structure Tiled (h : Heap) (bs : Tiles Bool) : Prop where
  links : Links h.mem h.heapPtr 0 0 bs
  fin : Hdr h.mem h.heapEnd 1 (h.memSizeAligned + 16)
  len : len bs = h.memSizeAligned + 16
  size : ∀ t ∈ bs, 20 ≤ t.1 ∧ 4 ∣ t.1
  aligned : 4 ∣ h.heapPtr
  bound : h.heapEnd + 16 ≤ 4294967296

/-- `i` is the address of a data byte of a used block. -/
def InData (hp : Nat) (bs : Tiles Bool) (i : Nat) : Prop :=
  ∃ p n, At 0 bs p (n, true) ∧ hp + p + 16 ≤ i ∧ i < hp + p + n

/-- The data of the used blocks of `bs` is kept. -/
def Frame (h h' : Heap) (bs : Tiles Bool) : Prop :=
  ∀ i, InData h.heapPtr bs i → h'.mem i = h.mem i

section
variable {h : Heap} {bs l l₁ l₂ : Tiles Bool} {n k p : Nat} {u : Bool} {t : Nat × Bool} {m : Mem}

theorem Tiled.sixteen_le (ht : Tiled h bs) : ∀ t ∈ bs, 16 ≤ t.1 := fun t hm =>
  Nat.le_trans (by decide) (ht.size t hm).1

theorem Tiled.hdr (ht : Tiled h (l₁ ++ t :: l₂)) :
    Hdr h.mem (h.heapPtr + Tiling.len l₁) t.2.toNat (Tiling.len l₁ + t.1) := by
  have hl := (links_append.1 ht.links).2.1
  rwa [Nat.zero_add] at hl

theorem Tiled.prev (ht : Tiled h (l₁ ++ t :: l₂)) :
    h.prev (h.heapPtr + Tiling.len l₁) = lastAt 0 0 l₁ := by
  have hl := (links_append.1 ht.links).2.2.1
  rwa [Nat.zero_add] at hl

theorem Tiled.links_left (ht : Tiled h (l₁ ++ t :: l₂)) : Links h.mem h.heapPtr 0 0 l₁ :=
  (links_append.1 ht.links).1

theorem Tiled.links_right (ht : Tiled h (l₁ ++ t :: l₂)) :
    Links h.mem h.heapPtr (Tiling.len l₁) (Tiling.len l₁ + t.1) l₂ := by
  have hl := (links_append.1 ht.links).2.2.2
  rwa [Nat.zero_add] at hl

/-- A block, what is behind it, and the address of `heap_end`. -/
theorem Tiled.bounds (ht : Tiled h (l₁ ++ t :: l₂)) :
    20 ≤ t.1 ∧ 4 ∣ t.1 ∧ h.heapEnd = h.heapPtr + (Tiling.len l₁ + t.1 + Tiling.len l₂) ∧
      h.memSizeAligned + 16 = Tiling.len l₁ + t.1 + Tiling.len l₂ := by
  have hs := ht.size t (by simp)
  have hl := ht.len
  simp only [len_append, len_cons] at hl
  simp only [Heap.heapEnd, sizeofStructMem]
  omega

/-- Data lies outside of every header. -/
theorem InData.not_header {hp i : Nat} (l₁ : Tiles Bool) (hi : InData hp (l₁ ++ t :: l₂) i)
    (ht : 16 ≤ t.1) : i < hp + len l₁ ∨ hp + len l₁ + 16 ≤ i := by
  obtain ⟨q, n, hq, h1, h2⟩ := hi
  have hat : At 0 (l₁ ++ t :: l₂) (len l₁) t := by simp
  obtain ⟨rfl, rfl⟩ | hd | hd := hq.disjoint hat
  · exact .inr h1
  · simp only at hd
    omega
  · omega

theorem InData.lt {hp i : Nat} (hi : InData hp bs i) : i < hp + len bs := by
  obtain ⟨q, n, hq, -, h2⟩ := hi
  have hb := hq.bounds
  simp only at hb
  omega

/-- A tiling is rebuilt from its parts. -/
theorem Tiled.intro {m : Mem} (ht : Tiled h (l₁ ++ t :: l₂))
    (hl : Links m h.heapPtr 0 0 (l₁ ++ l))
    (hfin : Hdr m h.heapEnd 1 (h.memSizeAligned + 16))
    (hlen : Tiling.len l = t.1 + Tiling.len l₂) (hsize : ∀ t ∈ l, 20 ≤ t.1 ∧ 4 ∣ t.1) :
    Tiled { h with mem := m } (l₁ ++ l) where
  links := hl
  fin := hfin
  len := by rw [len_append, hlen, ← len_cons, ← len_append]; exact ht.len
  size s hs := by
    obtain hs | hs := List.mem_append.1 hs
    · exact ht.size s (List.mem_append_left _ hs)
    · exact hsize s hs
  aligned := ht.aligned
  bound := ht.bound

/-- The blocks behind a block that now begins at `v`, and the header of `heap_end`. -/
theorem Tiled.relink (ht : Tiled h (l₁ ++ t :: l₂)) {v : Nat}
    (hm : ∀ i, h.heapPtr + (Tiling.len l₁ + t.1) ≤ i → m i = h.mem i) (hv : v < 4294967296) :
    Links (store m (h.heapPtr + (Tiling.len l₁ + t.1) + 8) 4 v) h.heapPtr v
        (Tiling.len l₁ + t.1) l₂ ∧
      Hdr (store m (h.heapPtr + (Tiling.len l₁ + t.1) + 8) 4 v) h.heapEnd 1
        (h.memSizeAligned + 16) := by
  obtain ⟨-, -, hend, -⟩ := ht.bounds
  have h16 : ∀ t ∈ l₂, 16 ≤ t.1 := fun s hs => ht.sixteen_le s (by simp [hs])
  have hfin : Hdr m h.heapEnd 1 (h.memSizeAligned + 16) :=
    ht.fin.congr fun i h1 _ => hm i (by omega)
  refine ⟨(ht.links_right.congr_range h16 fun i h1 _ => hm i h1).relink h16 hv, hfin.setPrev ?_⟩
  cases l₂ with
  | nil => exact .inl hend.symm
  | cons s l =>
    have hs := h16 s List.mem_cons_self
    simp only [len_cons] at hend
    exact .inr (.inl (by omega))

/-! ## Splitting a block -/

/-- The bytes of a thread name. -/
theorem length_name (name : List UInt8) :
    ((name ++ List.replicate 4 32).take 4).length = 4 := by
  simp

/-- The memory after `splitBlock` but for the block behind: the block at `a` gets a header for its
rest at `b`. -/
def splitMem (m : Mem) (a b p q next : Nat) : Mem :=
  let m := store (store (store (store m b 2 heapMagic) (b + 2) 2 0) (b + 4) 4 next) (b + 8) 4 p
  store (write m (b + 12) ((Printf.ascii "    " ++ List.replicate 4 32).take 4)) (a + 4) 4 q

theorem splitMem_outside {a b p q next i : Nat} (ha : i < a ∨ a + 16 ≤ i)
    (hb : i < b ∨ b + 16 ≤ i) : splitMem m a b p q next i = m i := by
  have hn := length_name (Printf.ascii "    ")
  simp only [splitMem]
  rw [store_outside (by omega), write_outside (by omega), store_outside (by omega),
    store_outside (by omega), store_outside (by omega), store_outside (by omega)]

theorem splitMem_rest {a b p q next : Nat} (hab : a + 16 ≤ b) (hnext : next < 4294967296)
    (hp : p < 4294967296) : Hdr (splitMem m a b p q next) b 0 next ∧
      load (splitMem m a b p q next) (b + 8) 4 = p := by
  have hn := length_name (Printf.ascii "    ")
  refine ⟨⟨?_, ?_, ?_⟩, ?_⟩ <;> simp only [splitMem]
  · simp (disch := omega) only [load_store_of_disjoint, load_write_of_disjoint]
    exact load_store (by decide)
  · simp (disch := omega) only [load_store_of_disjoint, load_write_of_disjoint]
    exact load_store (by decide)
  · simp (disch := omega) only [load_store_of_disjoint, load_write_of_disjoint]
    exact load_store hnext
  · simp (disch := omega) only [load_store_of_disjoint, load_write_of_disjoint]
    exact load_store hp

theorem splitMem_block {a b p q next v w : Nat} (hh : Hdr m a v w) (hab : a + 16 ≤ b)
    (hq : q < 4294967296) : Hdr (splitMem m a b p q next) a v q ∧
      load (splitMem m a b p q next) (a + 8) 4 = load m (a + 8) 4 := by
  have hn := length_name (Printf.ascii "    ")
  refine ⟨⟨?_, ?_, load_store hq⟩, ?_⟩ <;> simp only [splitMem]
  · simp (disch := omega) only [load_store_of_disjoint, load_write_of_disjoint]
    exact hh.magic
  · simp (disch := omega) only [load_store_of_disjoint, load_write_of_disjoint]
    exact hh.used
  · simp (disch := omega) only [load_store_of_disjoint, load_write_of_disjoint]

theorem splitBlock_eq {p q next v : Nat} (hh : Hdr h.mem (h.heapPtr + p) v next) (hpq : p + 16 ≤ q)
    (hp : p < 4294967296) : h.splitBlock p q = { h with
      mem := if next ≠ h.memSizeAligned + 16 then
          store (splitMem h.mem (h.heapPtr + p) (h.heapPtr + q) p q next) (h.heapPtr + next + 8) 4 q
        else splitMem h.mem (h.heapPtr + p) (h.heapPtr + q) p q next } := by
  have hnext : next < 4294967296 := hh.next ▸ load_lt
  have hold : load (store (store h.mem (h.heapPtr + q) 2 heapMagic) (h.heapPtr + q + 2) 2 0)
      (h.heapPtr + p + 4) 4 = next := by
    rw [load_store_of_disjoint (by omega), load_store_of_disjoint (by omega), hh.next]
  have hnew : load (splitMem h.mem (h.heapPtr + p) (h.heapPtr + q) p q next)
      (h.heapPtr + q + 4) 4 = next := (splitMem_rest (by omega) hnext hp).1.next
  simp only [splitMem] at hnew
  simp only [Heap.splitBlock, Heap.setMagic, Heap.setUsed, Heap.setNext, Heap.setPrev,
    Heap.setname, Heap.next, hold, hnew, sizeofStructMem, splitMem]
  split <;> rfl

/-- `splitBlock` cuts a block into two. -/
theorem Tiled.splitBlock (ht : Tiled h (l₁ ++ (n, u) :: l₂)) (hk : 20 ≤ k) (hkn : k + 20 ≤ n)
    (hd : 4 ∣ k) : ∃ m, h.splitBlock (Tiling.len l₁) (Tiling.len l₁ + k) = { h with mem := m } ∧
      Tiled { h with mem := m } (l₁ ++ (k, u) :: (n - k, false) :: l₂) ∧
      Frame h { h with mem := m } (l₁ ++ (k, u) :: (n - k, false) :: l₂) := by
  obtain ⟨hn, hdn, hend, hsize⟩ := ht.bounds
  have hb := ht.bound
  have hnk : Tiling.len l₁ + k + (n - k) = Tiling.len l₁ + n := by omega
  simp only at hn hdn hend hsize
  rw [splitBlock_eq ht.hdr (by omega) (by omega)]
  generalize hM : splitMem h.mem (h.heapPtr + Tiling.len l₁) (h.heapPtr + (Tiling.len l₁ + k))
    (Tiling.len l₁) (Tiling.len l₁ + k) (Tiling.len l₁ + n) = M
  have hout : ∀ i, (i < h.heapPtr + Tiling.len l₁ ∨ h.heapPtr + Tiling.len l₁ + 16 ≤ i) →
      (i < h.heapPtr + (Tiling.len l₁ + k) ∨ h.heapPtr + (Tiling.len l₁ + k) + 16 ≤ i) →
      M i = h.mem i := fun i h1 h2 => hM ▸ splitMem_outside h1 h2
  obtain ⟨hblk, hpv⟩ := hM ▸ @splitMem_block h.mem (h.heapPtr + Tiling.len l₁)
    (h.heapPtr + (Tiling.len l₁ + k)) (Tiling.len l₁) (Tiling.len l₁ + k) (Tiling.len l₁ + n) _ _
    ht.hdr (by omega) (by omega)
  obtain ⟨hrest, hpv'⟩ := hM ▸ @splitMem_rest h.mem (h.heapPtr + Tiling.len l₁)
    (h.heapPtr + (Tiling.len l₁ + k)) (Tiling.len l₁) (Tiling.len l₁ + k) (Tiling.len l₁ + n)
    (by omega) (by omega) (by omega)
  obtain ⟨M', hif, hl, hfin, hM'⟩ : ∃ M', (if Tiling.len l₁ + n ≠ h.memSizeAligned + 16 then
      store M (h.heapPtr + (Tiling.len l₁ + n) + 8) 4 (Tiling.len l₁ + k) else M) = M' ∧
      Links M' h.heapPtr (Tiling.len l₁ + k) (Tiling.len l₁ + n) l₂ ∧
      Hdr M' h.heapEnd 1 (h.memSizeAligned + 16) ∧
      ∀ i, (i < h.heapPtr + (Tiling.len l₁ + n) ∨ h.heapPtr + (Tiling.len l₁ + n) + 16 ≤ i ∨
        l₂ = []) → M' i = M i := by
    cases l₂ with
    | nil =>
      simp only [len_nil] at hend hsize
      exact ⟨M, if_neg (by omega), trivial,
        ht.fin.congr fun i h1 _ => hout i (by omega) (by omega), fun _ _ => rfl⟩
    | cons s l =>
      have hs := (ht.size s (by simp)).1
      simp only [len_cons] at hend hsize
      obtain ⟨h1, h2⟩ := @Tiled.relink h l₁ (s :: l) (n, u) M ht (Tiling.len l₁ + k)
        (fun i h1 => hout i (by omega) (by omega)) (by omega)
      exact ⟨_, if_pos (by omega), h1, h2, fun i hi => store_outside (by simp at hi; omega)⟩
  have hlow : ∀ i, i < h.heapPtr + (Tiling.len l₁ + n) → M' i = M i := fun i hi => hM' i (.inl hi)
  refine ⟨M', by rw [hif], ht.intro (links_append.2 ⟨?_, ?_, ?_, ?_, ?_, ?_⟩) hfin ?_ ?_, ?_⟩
  · exact ht.links_left.congr_range (fun t hm => ht.sixteen_le t (by simp [hm])) fun i _ h2 => by
      rw [hlow i (by omega), hout i (by omega) (by omega)]
  · rw [Nat.zero_add]
    exact hblk.congr fun i _ h2 => hlow i (by omega)
  · rw [Nat.zero_add, ← ht.prev, Heap.prev, ← hpv]
    exact load_congr fun i _ h2 => hlow i (by omega)
  · rw [Nat.zero_add, hnk]
    exact hrest.congr fun i _ h2 => hlow i (by omega)
  · rw [Nat.zero_add]
    exact (load_congr fun i _ h2 => hlow i (by omega)).trans hpv'
  · rw [Nat.zero_add, hnk]
    exact hl
  · simp only [len_cons]
    omega
  · intro t hm
    obtain rfl | hm := List.mem_cons.1 hm
    · exact ⟨hk, hd⟩
    · obtain rfl | hm := List.mem_cons.1 hm
      · exact ⟨by omega, (Nat.dvd_sub hdn hd)⟩
      · exact ht.size t (by simp [hm])
  · intro i hi
    have h1 := hi.not_header l₁ (by simp only; omega)
    have h2 := InData.not_header (l₁ ++ [(k, u)]) (by simpa using hi) (by simp only; omega)
    simp only [len_append, len_cons, len_nil, Nat.add_zero] at h2
    refine (hM' i ?_).trans (hout i h1 h2)
    cases l₂ with
    | nil => exact .inr (.inr rfl)
    | cons s l =>
      have h3 := InData.not_header (l₁ ++ [(k, u), (n - k, false)]) (by simpa using hi)
        (ht.sixteen_le s (by simp))
      simp only [len_append, len_cons, len_nil, Nat.add_zero,
        Nat.add_sub_cancel' (by omega : k ≤ n)] at h3
      omega

/-! ## Merging blocks -/

/-- The block at `p` takes over the one that ends at `q`. -/
def mergeMem (m : Mem) (hp p q : Nat) : Mem := store (store m (hp + p + 4) 4 q) (hp + q + 8) 4 p

theorem Tiled.merge (ht : Tiled h (l₁ ++ (n, u) :: (k, false) :: l₂)) :
    Tiled { h with mem := mergeMem h.mem h.heapPtr (Tiling.len l₁) (Tiling.len l₁ + (n + k)) }
        (l₁ ++ (n + k, u) :: l₂) ∧
      Frame h { h with
          mem := mergeMem h.mem h.heapPtr (Tiling.len l₁) (Tiling.len l₁ + (n + k)) }
        (l₁ ++ (n, u) :: (k, false) :: l₂) := by
  obtain ⟨hn, hdn, hend, hsize⟩ := ht.bounds
  have ht' : Tiled h ((l₁ ++ [(n, u)]) ++ (k, false) :: l₂) := by simpa using ht
  obtain ⟨hk, hdk, -, -⟩ := ht'.bounds
  have hb := ht.bound
  simp only [len_cons] at hn hdn hend hsize hk hdk
  obtain ⟨hl, hfin⟩ := @Tiled.relink h _ l₂ _ (store h.mem (h.heapPtr + Tiling.len l₁ + 4) 4
    (Tiling.len l₁ + (n + k))) ht' (Tiling.len l₁)
    (fun i h1 => store_outside (by simp at h1; omega)) (by omega)
  simp only [len_append, len_cons, len_nil, Nat.add_zero, Nat.add_assoc (Tiling.len l₁)] at hl hfin
  have hout : ∀ i, (i < h.heapPtr + Tiling.len l₁ ∨ h.heapPtr + Tiling.len l₁ + 16 ≤ i) →
      i < h.heapPtr + (Tiling.len l₁ + (n + k)) →
      mergeMem h.mem h.heapPtr (Tiling.len l₁) (Tiling.len l₁ + (n + k)) i = h.mem i :=
    fun i h1 h2 => by rw [mergeMem, store_outside (by omega), store_outside (by omega)]
  refine ⟨ht.intro (links_append.2 ⟨?_, ⟨?_, ?_, ?_⟩, ?_, ?_⟩) hfin ?_ ?_, ?_⟩
  · exact ht.links_left.congr_range (fun t hm => ht.sixteen_le t (by simp [hm])) fun i _ h2 =>
      hout i (by omega) (by omega)
  · rw [Nat.zero_add, mergeMem, load_store_of_disjoint (by omega),
      load_store_of_disjoint (by omega)]
    exact ht.hdr.magic
  · rw [Nat.zero_add, mergeMem, load_store_of_disjoint (by omega),
      load_store_of_disjoint (by omega)]
    exact ht.hdr.used
  · rw [Nat.zero_add, mergeMem, load_store_of_disjoint (by omega)]
    exact load_store (by omega)
  · rw [Nat.zero_add, mergeMem, load_store_of_disjoint (by omega),
      load_store_of_disjoint (by omega)]
    exact ht.prev
  · rw [Nat.zero_add]
    exact hl
  · simp only [len_cons]
    omega
  · intro t hm
    obtain rfl | hm := List.mem_cons.1 hm
    · exact ⟨by simp only; omega, Nat.dvd_add hdn hdk⟩
    · exact ht.size t (by simp [hm])
  · intro i hi
    have h1 := hi.not_header l₁ (by simp only; omega)
    have hlt := hi.lt
    refine (store_outside ?_).trans (store_outside (by omega))
    cases l₂ with
    | nil =>
      simp only [len_append, len_cons, len_nil] at hlt
      omega
    | cons s l =>
      have h3 := InData.not_header (l₁ ++ [(n, u), (k, false)]) (by simpa using hi)
        (ht.sixteen_le s (by simp))
      simp only [len_append, len_cons, len_nil, Nat.add_zero] at h3
      omega

/-! ## Marking a block -/

/-- The header of one block is written, with the same length. -/
theorem Tiled.mark {v : Bool} (ht : Tiled h (l₁ ++ (n, u) :: l₂))
    (hh : Hdr m (h.heapPtr + Tiling.len l₁) v.toNat (Tiling.len l₁ + n))
    (hpv : load m (h.heapPtr + Tiling.len l₁ + 8) 4 =
      load h.mem (h.heapPtr + Tiling.len l₁ + 8) 4)
    (hout : ∀ i, (i < h.heapPtr + Tiling.len l₁ ∨ h.heapPtr + Tiling.len l₁ + 16 ≤ i) →
      m i = h.mem i) : Tiled { h with mem := m } (l₁ ++ (n, v) :: l₂) := by
  obtain ⟨hn, hdn, hend, -⟩ := ht.bounds
  simp only at hn hdn hend
  refine ht.intro (links_append.2 ⟨?_, ?_, ?_, ?_⟩) ?_ rfl ?_
  · exact ht.links_left.congr_range (fun t hm => ht.sixteen_le t (by simp [hm])) fun i _ h2 =>
      hout i (by omega)
  · rwa [Nat.zero_add]
  · rw [Nat.zero_add, hpv]
    exact ht.prev
  · rw [Nat.zero_add]
    exact ht.links_right.congr_range (fun t hm => ht.sixteen_le t (by simp [hm])) fun i h1 _ =>
      hout i (by simp only at h1; omega)
  · exact ht.fin.congr fun i h1 _ => hout i (by omega)
  · intro t hm
    obtain rfl | hm := List.mem_cons.1 hm
    · exact ⟨hn, hdn⟩
    · exact ht.size t (by simp [hm])

theorem Frame.of_header (hn : 16 ≤ n)
    (hout : ∀ i, (i < h.heapPtr + Tiling.len l₁ ∨ h.heapPtr + Tiling.len l₁ + 16 ≤ i) →
      m i = h.mem i) : Frame h { h with mem := m } (l₁ ++ (n, u) :: l₂) :=
  fun i hi => hout i (hi.not_header l₁ hn)

/-- A header with a new flag, magic number and thread name. -/
def markMem (m : Mem) (a v : Nat) (name : List UInt8) : Mem :=
  write (store (store m (a + 2) 2 v) a 2 heapMagic) (a + 12)
    ((name ++ List.replicate 4 32).take 4)

theorem markMem_outside {a v i : Nat} {name : List UInt8} (hi : i < a ∨ a + 16 ≤ i) :
    markMem m a v name i = m i := by
  have hn := length_name name
  rw [markMem, write_outside (by omega), store_outside (by omega), store_outside (by omega)]

theorem markMem_hdr {a v w next : Nat} {name : List UInt8} (hh : Hdr m a w next)
    (hv : v < 65536) : Hdr (markMem m a v name) a v next ∧
      load (markMem m a v name) (a + 8) 4 = load m (a + 8) 4 := by
  have hn := length_name name
  refine ⟨⟨?_, ?_, ?_⟩, ?_⟩ <;> simp only [markMem]
  · rw [load_write_of_disjoint (by omega)]
    exact load_store (by decide)
  · rw [load_write_of_disjoint (by omega), load_store_of_disjoint (by omega)]
    exact load_store hv
  · simp (disch := omega) only [load_store_of_disjoint, load_write_of_disjoint]
    exact hh.next
  · simp (disch := omega) only [load_store_of_disjoint, load_write_of_disjoint]

theorem Tiled.markMem (ht : Tiled h (l₁ ++ (n, u) :: l₂)) (v : Bool) (name : List UInt8) :
    Tiled { h with mem := markMem h.mem (h.heapPtr + Tiling.len l₁) v.toNat name }
        (l₁ ++ (n, v) :: l₂) ∧
      ∀ w, Frame h { h with mem := markMem h.mem (h.heapPtr + Tiling.len l₁) v.toNat name }
        (l₁ ++ (n, w) :: l₂) := by
  obtain ⟨hh, hpv⟩ := @markMem_hdr _ _ v.toNat _ _ name ht.hdr (by cases v <;> decide)
  have hn := ht.sixteen_le (n, u) (by simp)
  exact ⟨ht.mark hh hpv fun i hi => markMem_outside hi,
    fun w => .of_header hn fun i hi => markMem_outside hi⟩

end

end Rtos
