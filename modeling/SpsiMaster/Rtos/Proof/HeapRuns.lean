import SpsiMaster.Lib.Run
import SpsiMaster.Rtos.Proof.HeapOps

/-!
# Runs of the heap

The threads that use the heap: each allocation has an owner, who knows its address and the bytes
written to it, writes into it, and gives it back. In every run the allocations are apart from each
other, keep their bytes, and no call hangs (`heap_sound`); `rt_malloc` takes the first block that
fits (`rtMalloc_firstFit`); the list of the shell command is a tiling of the heap that agrees with
the allocations (`memtrace_books`), and when nothing is allocated the heap is one free block again
(`heap_restored`).
-/

namespace Rtos

open ByteMem Tiling Run

/-! ## Initialisation -/

theorem rtSystemHeapInit_spec {m : Mem} {beginAddr endAddr : Nat} {h : Heap}
    (hinit : Heap.rtSystemHeapInit m beginAddr endAddr = some h) (hend : endAddr < 4294967296)
    (hroom : 12 ≤ h.memSizeAligned) :
    Blocks h [(h.memSizeAligned + 16, false)] ∧ h.heapPtr = rtAlign beginAddr ∧
      h.heapEnd + 16 = rtAlignDown endAddr := by
  simp only [Heap.rtSystemHeapInit, sizeofStructMem] at hinit
  split at hinit
  · next hc =>
    have hd : 4 ∣ rtAlign beginAddr := four_dvd_rtAlign _
    have hd' : 4 ∣ rtAlignDown endAddr := Nat.dvd_mul_left _ _
    have hle : rtAlignDown endAddr ≤ endAddr := Nat.div_mul_le_self _ _
    have hn := length_name (Printf.ascii "INIT")
    obtain ⟨b, hb⟩ : ∃ b, rtAlign beginAddr = b := ⟨_, rfl⟩
    obtain ⟨e, he⟩ : ∃ e, rtAlignDown endAddr = e := ⟨_, rfl⟩
    obtain ⟨s, hs⟩ : ∃ s, e - b - 2 * 16 = s := ⟨_, rfl⟩
    rw [hb, he, hs] at hinit
    rw [hb, he] at hc
    rw [hb] at hd
    rw [he] at hd' hle
    cases hinit
    simp only [Heap.setMagic, Heap.setUsed, Heap.setNext, Heap.setPrev, Heap.setname,
      Heap.heapEnd, sizeofStructMem] at hroom ⊢
    refine ⟨⟨⟨⟨⟨?_, ?_, ?_⟩, ?_, trivial⟩, ⟨?_, ?_, ?_⟩, rfl, ?_, hd, ?_⟩, ?_, rfl, rfl,
      Nat.le_refl _, hroom⟩, hb.symm, ?_⟩
    · simp (disch := omega) only [load_store_of_disjoint, load_write_of_disjoint]
      exact load_store (by decide)
    · simp (disch := omega) only [load_store_of_disjoint, load_write_of_disjoint]
      exact load_store (by decide)
    · simp (disch := omega) only [load_store_of_disjoint, load_write_of_disjoint, Nat.add_zero]
      rw [load_store (by omega), Nat.zero_add]
    · simp (disch := omega) only [load_store_of_disjoint, load_write_of_disjoint, Nat.add_zero]
      exact load_store (by decide)
    · simp (disch := omega) only [Heap.heapEnd, sizeofStructMem, load_store_of_disjoint,
        load_write_of_disjoint]
      exact load_store (by decide)
    · simp (disch := omega) only [Heap.heapEnd, sizeofStructMem, load_store_of_disjoint,
        load_write_of_disjoint]
      exact load_store (by decide)
    · simp (disch := omega) only [Heap.heapEnd, sizeofStructMem, load_store_of_disjoint,
        load_write_of_disjoint]
      exact load_store (by omega)
    · intro t ht
      obtain rfl := List.mem_singleton.1 ht
      simp only
      omega
    · simp only [Heap.heapEnd, sizeofStructMem]
      omega
    · exact .singleton _
    · omega
  · cases hinit

/-! ## The users of the heap -/

/-- An allocation as its owner sees it: the address, and what each byte is known to be. -/
structure Alloc where
  addr : Nat
  data : List (Option UInt8)
  deriving DecidableEq

/-- The first `k` bytes, and nothing known of bytes that are new. -/
def resize (data : List (Option UInt8)) (k : Nat) : List (Option UInt8) :=
  data.take k ++ List.replicate (k - data.length) none

/-- The heap and the allocations that are held. -/
structure HeapUsers where
  heap : Heap
  live : List Alloc

/-- A call of the heap by a thread with the name `self`, or a write of a byte. -/
inductive HeapAct where
  | malloc (self : Option (List UInt8)) (size : UInt32)
  | calloc (self : Option (List UInt8)) (count size : UInt32)
  | realloc (self : Option (List UInt8)) (rmem : Nat) (newsize : UInt32)
  | free (rmem : Nat)
  | store (rmem i : Nat) (b : UInt8)

namespace HeapUsers

/-- What a holder gives back or passes on is the null pointer or one of the allocations; a write
stays in one; the sizes that `rt_calloc` multiplies are not within three bytes of the end of the
address space, where `RT_ALIGN` gives zero. -/
def Allowed (s : HeapUsers) : HeapAct → Prop
  | .malloc _ _ => True
  | .calloc _ count size => count.toNat * size.toNat % sizePeriod + 3 < sizePeriod
  | .realloc _ r _ | .free r => r = 0 ∨ ∃ o ∈ s.live, o.addr = r
  | .store r i _ => ∃ o ∈ s.live, o.addr = r ∧ i < o.data.length

instance (s : HeapUsers) : (a : HeapAct) → Decidable (s.Allowed a)
  | .malloc _ _ => .isTrue trivial
  | .calloc _ _ _ => inferInstanceAs (Decidable (_ < _))
  | .realloc _ _ _ | .free _ => inferInstanceAs (Decidable (_ ∨ _))
  | .store _ _ _ => inferInstanceAs (Decidable (∃ o ∈ s.live, _))

/-- The allocations but the one at `r`. -/
def without (s : HeapUsers) (r : Nat) : List Alloc := s.live.filter fun o => o.addr ≠ r

/-- What is known of the allocation at `r`. -/
def dataAt (s : HeapUsers) (r : Nat) : List (Option UInt8) :=
  ((s.live.find? fun o => o.addr = r).map (·.data)).getD []

/-- A call has returned the address `p`. -/
def receive (live : List Alloc) (data : List (Option UInt8)) (r : Nat × Heap) : HeapUsers :=
  ⟨r.2, if r.1 = 0 then live else ⟨r.1, data⟩ :: live⟩

/-- `rt_realloc` has returned for the allocation at `r` and `k` bytes. When it fails the allocation
stays as it is; with no bytes it is given back. -/
def reallocated (s : HeapUsers) (r k : Nat) (x : Nat × Heap) : HeapUsers :=
  if x.1 = 0 ∧ k ≠ 0 then ⟨x.2, s.live⟩ else receive (s.without r) (resize (s.dataAt r) k) x

/-- An action of a holder. -/
def perform (s : HeapUsers) : HeapAct → Option HeapUsers
  | .malloc self size =>
    (s.heap.rtMalloc self size.toNat).map
      (receive s.live (List.replicate (rtAlign size.toNat) none))
  | .calloc self count size =>
    (s.heap.rtCalloc self count.toNat size.toNat).map
      (receive s.live (List.replicate (count.toNat * size.toNat % sizePeriod) (some 0)))
  | .realloc self r newsize =>
    (s.heap.rtRealloc self r newsize.toNat).map (s.reallocated r (rtAlign newsize.toNat))
  | .free r => (s.heap.rtFree r).map fun h => ⟨h, s.without r⟩
  | .store r i b => some {
      heap := { s.heap with mem := write s.heap.mem (r + i) [b] }
      live := s.live.map fun o =>
        if o.addr = r then { o with data := o.data.set i (some b) } else o }

def step (s : HeapUsers) (a : HeapAct) : Option HeapUsers :=
  if s.Allowed a then s.perform a else none

end HeapUsers

/-! ## The allocations are the used blocks -/

/-- The allocation is a used block of `bs`, with room for its bytes, and they are in it. -/
structure Holds (h : Heap) (bs : Tiles Bool) (o : Alloc) : Prop where
  block : ∃ p n, At 0 bs p (n, true) ∧ o.addr = h.heapPtr + p + 16 ∧ o.data.length + 16 ≤ n
  data : ∀ i b, o.data[i]? = some (some b) → h.mem (o.addr + i) = b

/-- Each used block has one holder. -/
structure Owned (s : HeapUsers) (bs : Tiles Bool) : Prop where
  blocks : Blocks s.heap bs
  holds : ∀ o ∈ s.live, Holds s.heap bs o
  owner : ∀ p n, At 0 bs p (n, true) → ∃ o ∈ s.live, o.addr = s.heap.heapPtr + p + 16
  nodup : s.live.Pairwise fun o o' => o.addr ≠ o'.addr

section
variable {s : HeapUsers} {h h' : Heap} {bs bs' : Tiles Bool} {o : Alloc} {p n c k : Nat}
  {live : List Alloc} {data : List (Option UInt8)}

/-- An allocation is kept with its block and its bytes. -/
theorem Holds.keep (ho : Holds h bs o) (harea : SameArea h h')
    (hk : ∀ q m, At 0 bs q (m, true) → o.addr = h.heapPtr + q + 16 → At 0 bs' q (m, true) ∧
      ∀ i, i < m - 16 → h'.mem (h.heapPtr + q + 16 + i) = h.mem (h.heapPtr + q + 16 + i)) :
    Holds h' bs' o := by
  obtain ⟨⟨p, n, hat, haddr, hlen⟩, hdata⟩ := ho
  obtain ⟨hat', hmem⟩ := hk p n hat haddr
  refine ⟨⟨p, n, hat', by rw [harea.heapPtr, haddr], hlen⟩, fun i b hi => ?_⟩
  have hil : i < o.data.length := (List.getElem?_eq_some_iff.1 hi).1
  rw [← hdata i b hi, haddr]
  exact hmem i (by omega)

/-- One more allocation. -/
theorem Owned.cons (hb : Blocks h bs) (hat : At 0 bs p (c, true)) (hlen : data.length + 16 ≤ c)
    (hdata : ∀ i b, data[i]? = some (some b) → h.mem (h.heapPtr + p + 16 + i) = b)
    (hholds : ∀ o ∈ live, Holds h bs o ∧ o.addr ≠ h.heapPtr + p + 16)
    (howner : ∀ q m, At 0 bs q (m, true) → q ≠ p → ∃ o ∈ live, o.addr = h.heapPtr + q + 16)
    (hnodup : live.Pairwise fun o o' => o.addr ≠ o'.addr) :
    Owned ⟨h, ⟨h.heapPtr + p + 16, data⟩ :: live⟩ bs where
  blocks := hb
  holds o ho := by
    obtain rfl | ho := List.mem_cons.1 ho
    · exact ⟨⟨p, c, hat, rfl, hlen⟩, hdata⟩
    · exact (hholds o ho).1
  owner q m hq := by
    by_cases hqp : q = p
    · exact ⟨_, List.mem_cons_self, by rw [hqp]⟩
    · obtain ⟨o, ho, ha⟩ := howner q m hq hqp
      exact ⟨o, List.mem_cons_of_mem _ ho, ha⟩
  nodup := List.pairwise_cons.2 ⟨fun o ho => (hholds o ho).2.symm, hnodup⟩

theorem Owned.addr_ne_zero (hO : Owned s bs) (ho : o ∈ s.live) : o.addr ≠ 0 := by
  obtain ⟨p, n, -, ha, -⟩ := (hO.holds o ho).block
  omega

theorem mem_without {r : Nat} : o ∈ s.without r ↔ o ∈ s.live ∧ o.addr ≠ r := by
  simp [HeapUsers.without]

theorem Owned.nodup_without (hO : Owned s bs) (r : Nat) :
    (s.without r).Pairwise fun o o' => o.addr ≠ o'.addr := hO.nodup.filter _

theorem Owned.without_zero (hO : Owned s bs) : s.without 0 = s.live :=
  List.filter_eq_self.2 fun _ ho => decide_eq_true (hO.addr_ne_zero ho)

theorem Owned.dataAt_zero (hO : Owned s bs) : s.dataAt 0 = [] := by
  have hnone : s.live.find? (fun o => o.addr = 0) = none :=
    List.find?_eq_none.2 fun o ho => by simpa using hO.addr_ne_zero ho
  rw [HeapUsers.dataAt, hnone]
  rfl

/-- An allocation is found by its address. -/
theorem Owned.dataAt (hO : Owned s bs) (ho : o ∈ s.live) : s.dataAt o.addr = o.data := by
  have hsome : (s.live.find? fun o' => o'.addr = o.addr) = some o := by
    obtain ⟨l₁, l₂, hl⟩ := List.append_of_mem ho
    have hnodup := hO.nodup
    rw [hl] at hnodup ⊢
    have hlt := (List.pairwise_append.1 hnodup).2.2
    rw [List.find?_append, List.find?_eq_none.2 fun o' ho' => by
      simpa using hlt o' ho' o List.mem_cons_self]
    simp
  rw [HeapUsers.dataAt, hsome]
  rfl

/-! ## The steps -/

/-- The block of an allocation, and that no other one has it. -/
theorem Owned.block (hO : Owned s bs) (ho : o ∈ s.live) : ∃ p n, At 0 bs p (n, true) ∧
    o.addr = s.heap.heapPtr + p + 16 ∧ o.data.length + 16 ≤ n :=
  (hO.holds o ho).block

theorem Owned.malloc (hO : Owned s bs) (data : List (Option UInt8)) (self : Option (List UInt8))
    (size : Nat) (hlen : data.length ≤ allocSize size)
    (hdata : ∀ (i : Nat) (b : UInt8), data[i]? ≠ some (some b)) :
    ∃ t bs', (s.heap.rtMalloc self size).map (HeapUsers.receive s.live data) = some t ∧
      Owned t bs' ∧ SameArea s.heap t.heap := by
  obtain he | ⟨p, c, h', bs', -, he, hb, harea, hf, hc, hfresh, hu⟩ :=
    rtMalloc_used hO.blocks self size
  · exact ⟨s, bs, by rw [he]; rfl, hO, ⟨rfl, rfl⟩⟩
  · refine ⟨_, bs', by rw [he]; rfl, ?_, harea⟩
    simp only [HeapUsers.receive]
    rw [if_neg (by omega), ← harea.heapPtr]
    refine .cons hb ((hu p c).2 (.inr ⟨rfl, rfl⟩)) (by omega)
      (fun i b hi => absurd hi (hdata i b)) (fun o ho => ⟨?_, ?_⟩) (fun q m hq hqp => ?_) hO.nodup
    · exact (hO.holds o ho).keep harea fun q m hq _ => ⟨(hu q m).2 (.inl hq), fun i hi =>
        hf _ ⟨q, m, hq, by omega, by omega⟩⟩
    · obtain ⟨q, m, hq, ha, -⟩ := hO.block ho
      rw [harea.heapPtr, ha]
      intro heq
      exact hfresh m ((by omega : q = p) ▸ hq)
    · obtain hq | ⟨hqp', -⟩ := (hu q m).1 hq
      · rw [harea.heapPtr]
        exact hO.owner q m hq
      · exact absurd hqp' hqp

theorem Owned.free (hO : Owned s bs) {r : Nat} (hr : r = 0 ∨ ∃ o ∈ s.live, o.addr = r) :
    ∃ h' bs', s.heap.rtFree r = some h' ∧ Owned ⟨h', s.without r⟩ bs' ∧ SameArea s.heap h' := by
  obtain rfl | ⟨o, ho, rfl⟩ := hr
  · refine ⟨s.heap, bs, by simp [Heap.rtFree], ?_, ⟨rfl, rfl⟩⟩
    rw [hO.without_zero]
    exact hO
  · obtain ⟨p, n, hat, haddr, -⟩ := hO.block ho
    obtain ⟨h', bs', he, hb, harea, hf, hu⟩ := rtFree_used hO.blocks hat
    refine ⟨h', bs', by rw [haddr, he], ⟨hb, fun o' ho' => ?_, fun q m hq => ?_,
      hO.nodup_without _⟩, harea⟩
    · obtain ⟨ho', hne⟩ := mem_without.1 ho'
      refine (hO.holds o' ho').keep harea fun q m hq ha => ?_
      have hq' := (hu q m).2 ⟨hq, fun heq => hne (by rw [ha, haddr, heq])⟩
      exact ⟨hq', fun i hi => hf _ ⟨q, m, hq', by omega, by omega⟩⟩
    · obtain ⟨hq, hqp⟩ := (hu q m).1 hq
      obtain ⟨o', ho', ha⟩ := hO.owner q m hq
      exact ⟨o', mem_without.2 ⟨ho', by omega⟩, by simp only [harea.heapPtr, ha]⟩

theorem allocSize_ge (size : Nat) : rtAlign size ≤ allocSize size := by
  rw [allocSize]
  split <;> omega

theorem getElem?_replicate_none (i : Nat) (b : UInt8) :
    (List.replicate k (none : Option UInt8))[i]? ≠ some (some b) := by
  simp [List.getElem?_replicate]

theorem getElem?_resize {i : Nat} {b : UInt8} (hi : (resize data k)[i]? = some (some b)) :
    i < k ∧ data[i]? = some (some b) := by
  rw [resize, List.getElem?_append] at hi
  split at hi
  · next hlt =>
    rw [List.length_take] at hlt
    rw [List.getElem?_take_of_lt (by omega)] at hi
    exact ⟨by omega, hi⟩
  · exact absurd hi (getElem?_replicate_none _ b)

theorem length_resize : (resize data k).length = k := by
  rw [resize, List.length_append, List.length_take, List.length_replicate]
  omega

theorem Owned.realloc (hO : Owned s bs) (self : Option (List UInt8)) {r : Nat} (newsize : Nat)
    (hr : r = 0 ∨ ∃ o ∈ s.live, o.addr = r) : ∃ t bs',
    (s.heap.rtRealloc self r newsize).map (s.reallocated r (rtAlign newsize)) = some t ∧
      Owned t bs' ∧ SameArea s.heap t.heap := by
  obtain rfl | ⟨o, ho, rfl⟩ := hr
  · have hfun : s.reallocated 0 (rtAlign newsize) =
        HeapUsers.receive s.live (List.replicate (rtAlign newsize) none) := by
      funext ⟨p, h⟩
      rw [HeapUsers.reallocated, hO.without_zero, hO.dataAt_zero]
      simp only [resize, HeapUsers.receive, List.take_nil, List.length_nil, Nat.sub_zero,
        List.nil_append]
      split
      · next hp => rw [if_pos hp.1]
      · rfl
    rw [rtRealloc_null]
    obtain ⟨t, bs', he, ht⟩ := hO.malloc (List.replicate (rtAlign newsize) none) self
      (rtAlign newsize) (by
        rw [List.length_replicate]
        have hge := allocSize_ge (rtAlign newsize)
        rwa [rtAlign_rtAlign] at hge) getElem?_replicate_none
    exact ⟨t, bs', hfun ▸ he, ht⟩
  · obtain ⟨p, n, hat, haddr, hlen⟩ := hO.block ho
    rw [haddr]
    obtain ⟨h0, he⟩ | ⟨h0, he⟩ | ⟨h0, p', c, h', bs', he, hm⟩ :=
      rtRealloc_used hO.blocks hat self newsize
    · exact ⟨s, bs, by rw [he, Option.map_some, HeapUsers.reallocated, if_pos ⟨rfl, h0⟩], hO,
        ⟨rfl, rfl⟩⟩
    · obtain ⟨h', bs', hfree, hO', harea⟩ := hO.free (.inr ⟨o, ho, rfl⟩)
      rw [haddr] at hfree hO'
      refine ⟨_, bs', by rw [he, hfree, Option.map_some, Option.map_some, HeapUsers.reallocated,
        if_neg fun hc => hc.2 h0], ?_, harea⟩
      exact hO'
    · refine ⟨_, bs', by rw [he, Option.map_some, HeapUsers.reallocated,
        if_neg fun hc => by simp at hc], ?_, hm.area⟩
      have hdata : s.dataAt (s.heap.heapPtr + p + 16) = o.data := by rw [← haddr, hO.dataAt ho]
      have hpp : s.heap.heapPtr = h'.heapPtr := hm.area.heapPtr.symm
      rw [hdata, HeapUsers.receive, if_neg (by simp), hpp]
      refine .cons hm.blocks ((hm.used p' c).2 (.inr ⟨rfl, rfl⟩)) (length_resize ▸ hm.room)
        (fun i b hi => ?_) (fun o' ho' => ?_) (fun q m hq hqp => ?_) (hO.nodup_without _)
      · obtain ⟨hik, hi⟩ := getElem?_resize hi
        have hil : i < o.data.length := (List.getElem?_eq_some_iff.1 hi).1
        rw [← hpp, hm.data i (by omega) hik, ← haddr]
        exact (hO.holds o ho).data i b hi
      · obtain ⟨ho', hne⟩ := mem_without.1 ho'
        rw [← hpp] at hne
        refine ⟨(hO.holds o' ho').keep hm.area fun q m hq ha => ?_, fun heq => ?_⟩
        · have hqp : q ≠ p := fun heq => hne (by rw [ha, heq])
          exact ⟨(hm.used q m).2 (.inl ⟨hq, hqp⟩), hm.others q m hq hqp⟩
        · obtain ⟨q, m, hq, ha, -⟩ := hO.block ho'
          simp only at heq
          have hqp : q = p' := by omega
          have hqp' := hm.fresh m (hqp ▸ hq)
          exact hne (by omega)
      · obtain ⟨hq, hqp'⟩ | ⟨hqp', -⟩ := (hm.used q m).1 hq
        · obtain ⟨o', ho', ha⟩ := hO.owner q m hq
          exact ⟨o', mem_without.2 ⟨ho', by omega⟩, by rw [← hpp, ha]⟩
        · exact absurd hqp' hqp

theorem Owned.calloc (hO : Owned s bs) (self : Option (List UInt8)) (count size : Nat)
    (hsize : count * size % sizePeriod + 3 < sizePeriod) : ∃ t bs',
    (s.heap.rtCalloc self count size).map
      (HeapUsers.receive s.live (List.replicate (count * size % sizePeriod) (some 0))) = some t ∧
      Owned t bs' ∧ SameArea s.heap t.heap := by
  obtain ⟨k, hk⟩ : ∃ k, count * size % sizePeriod = k := ⟨_, rfl⟩
  rw [Heap.rtCalloc, hk]
  rw [hk] at hsize
  simp only [sizePeriod] at hsize
  have hkk : k ≤ rtAlign k := by
    obtain hle | hbad := rtAlign_eq (n := k) (by omega)
    · exact hle.1
    · omega
  have hge := allocSize_ge k
  obtain he | ⟨p, c, h', bs', -, he, hb, harea, hf, hc, hfresh, hu⟩ :=
    rtMalloc_used hO.blocks self k
  · exact ⟨s, bs, by rw [he]; rfl, hO, ⟨rfl, rfl⟩⟩
  · have hat : At 0 bs' p (c, true) := (hu p c).2 (.inr ⟨rfl, rfl⟩)
    have hb' := hb.write 0 (List.replicate k 0) hat (by
      rw [List.length_replicate]
      omega)
    have hne : s.heap.heapPtr + p + 16 ≠ 0 := by omega
    refine ⟨_, bs', by simp only [he, Option.map_some, if_pos hne]; rfl, ?_,
      ⟨harea.heapPtr, harea.memSizeAligned⟩⟩
    simp only [HeapUsers.receive]
    rw [if_neg (by omega), ← harea.heapPtr]
    refine .cons hb' hat (by rw [List.length_replicate]; omega) (fun i b hi => ?_)
      (fun o ho => ⟨?_, ?_⟩) (fun q m hq hqp => ?_) hO.nodup
    · rw [List.getElem?_replicate] at hi
      split at hi
      · next hlt =>
        cases hi
        exact (write_inside (by rwa [List.length_replicate])).trans (by simp)
      · cases hi
    · refine (hO.holds o ho).keep ⟨harea.heapPtr, harea.memSizeAligned⟩ fun q m hq _ =>
        ⟨(hu q m).2 (.inl hq), fun i hi => ?_⟩
      refine (write_outside ?_).trans (hf _ ⟨q, m, hq, by omega, by omega⟩)
      rw [harea.heapPtr, List.length_replicate]
      obtain ⟨rfl, -⟩ | hd | hd := ((hu q m).2 (.inl hq)).disjoint hat
      · exact absurd hq (hfresh m)
      · simp only at hd
        omega
      · simp only at hd
        omega
    · obtain ⟨q, m, hq, ha, -⟩ := hO.block ho
      rw [harea.heapPtr, ha]
      intro heq
      exact hfresh m ((by omega : q = p) ▸ hq)
    · obtain hq | ⟨hqp', -⟩ := (hu q m).1 hq
      · rw [harea.heapPtr]
        exact hO.owner q m hq
      · exact absurd hqp' hqp

theorem Owned.store (hO : Owned s bs) {r i : Nat} {b : UInt8}
    (hr : ∃ o ∈ s.live, o.addr = r ∧ i < o.data.length) :
    ∃ t, s.perform (.store r i b) = some t ∧ Owned t bs ∧ SameArea s.heap t.heap := by
  obtain ⟨o₀, ho₀, rfl, hi⟩ := hr
  obtain ⟨p, n, hat, haddr, hlen⟩ := hO.block ho₀
  have hb := hO.blocks.write i [b] hat (by simp only [List.length_singleton]; omega)
  rw [← haddr] at hb
  refine ⟨_, rfl, ⟨hb, fun o' ho' => ?_, fun q m hq => ?_, ?_⟩, ⟨rfl, rfl⟩⟩
  · obtain ⟨o, ho, rfl⟩ := List.mem_map.1 ho'
    obtain ⟨⟨q, m, hq, ha, hlen'⟩, hdata⟩ := hO.holds o ho
    by_cases haddr' : o.addr = o₀.addr
    · rw [if_pos haddr']
      refine ⟨⟨q, m, hq, ha, by simpa using hlen'⟩, fun j c hj => ?_⟩
      simp only at hj ⊢
      by_cases hij : i = j
      · subst hij
        have hil : i < o.data.length := by
          simpa using (List.getElem?_eq_some_iff.1 hj).1
        rw [List.getElem?_set_self hil] at hj
        cases hj
        rw [haddr']
        exact @write_inside _ _ 0 [b] Nat.one_pos
      · rw [List.getElem?_set_ne hij] at hj
        rw [write_outside (by simp only [List.length_singleton]; omega)]
        exact hdata j c hj
    · rw [if_neg haddr']
      refine ⟨⟨q, m, hq, ha, hlen'⟩, fun j c hj => ?_⟩
      have hjl : j < o.data.length := (List.getElem?_eq_some_iff.1 hj).1
      rw [← hdata j c hj]
      refine write_outside ?_
      rw [List.length_singleton]
      obtain ⟨rfl, -⟩ | hd | hd := hq.disjoint hat
      · exact absurd (ha.trans haddr.symm) haddr'
      · simp only at hd
        omega
      · simp only at hd
        omega
  · obtain ⟨o, ho, ha⟩ := hO.owner q m hq
    exact ⟨_, List.mem_map.2 ⟨o, ho, rfl⟩, by split <;> exact ha⟩
  · refine List.pairwise_map.2 (hO.nodup.imp fun {o o'} hne => ?_)
    split <;> split <;> exact hne

/-- Every action that a holder may take returns and keeps the invariant. -/
theorem Owned.perform (hO : Owned s bs) {a : HeapAct} (ha : s.Allowed a) :
    ∃ t bs', s.perform a = some t ∧ Owned t bs' ∧ SameArea s.heap t.heap := by
  cases a with
  | malloc self size =>
    exact hO.malloc _ self size.toNat (by rw [List.length_replicate]; exact allocSize_ge _)
      getElem?_replicate_none
  | calloc self count size => exact hO.calloc self _ _ ha
  | realloc self r newsize => exact hO.realloc self _ ha
  | free r =>
    obtain ⟨h', bs', he, ht⟩ := hO.free ha
    exact ⟨_, bs', by simp only [HeapUsers.perform, he]; rfl, ht⟩
  | store r i b =>
    obtain ⟨t, he, ht⟩ := hO.store (b := b) ha
    exact ⟨t, bs, he, ht⟩

end

/-- What the runs of the heap keep. -/
def HeapUsers.Inv (h : Heap) (s : HeapUsers) : Prop := (∃ bs, Owned s bs) ∧ SameArea h s.heap

section
variable {m : Mem} {beginAddr endAddr : Nat} {h : Heap} {s t : HeapUsers}

theorem HeapUsers.inv_step (hs : s.Inv h) {a : HeapAct} (he : s.step a = some t) : t.Inv h := by
  obtain ⟨⟨bs, hO⟩, harea⟩ := hs
  rw [HeapUsers.step] at he
  split at he
  · next ha =>
    obtain ⟨t', bs', he', ht, harea'⟩ := hO.perform ha
    cases he'.symm.trans he
    exact ⟨⟨bs', ht⟩, harea.trans harea'⟩
  · cases he

/-- What follows from the invariant holds in every state of every run. -/
theorem heap_run {P : HeapUsers → Prop}
    (hinit : Heap.rtSystemHeapInit m beginAddr endAddr = some h) (hend : endAddr < 4294967296)
    (hroom : 12 ≤ h.memSizeAligned) (hP : ∀ s bs, Owned s bs → SameArea h s.heap → P s)
    (as : List HeapAct) : Along HeapUsers.step P ⟨h, []⟩ as := by
  have hstart : HeapUsers.Inv h ⟨h, []⟩ :=
    ⟨⟨_, (rtSystemHeapInit_spec hinit hend hroom).1, by simp, fun p n hat => by simp at hat, .nil⟩,
      ⟨rfl, rfl⟩⟩
  refine (along_of_step (fun _ _ _ hs ht => HeapUsers.inv_step hs ht) hstart as).mono ?_
  rintro s ⟨⟨bs, hO⟩, harea⟩
  exact hP s bs hO harea

/-! ## Allocations are sound -/

/-- The allocations lie in the memory from `beginAddr` to `endAddr`, apart from each other with room
for a header in between, hold the bytes written to them, and every call returns. -/
structure HeapUsers.Sound (beginAddr endAddr : Nat) (s : HeapUsers) : Prop where
  inside : ∀ o ∈ s.live, o.addr % 4 = 0 ∧ beginAddr + 16 ≤ o.addr ∧
    o.addr + o.data.length + 16 ≤ endAddr
  apart : s.live.Pairwise fun o o' => o.addr + o.data.length + 16 ≤ o'.addr ∨
    o'.addr + o'.data.length + 16 ≤ o.addr
  data : ∀ o ∈ s.live, ∀ i b, o.data[i]? = some (some b) → s.heap.mem (o.addr + i) = b
  returns : ∀ a, s.Allowed a → (s.step a).isSome

theorem Owned.sound {bs : Tiles Bool} (hO : Owned s bs) (harea : SameArea h s.heap)
    (hb : beginAddr ≤ h.heapPtr) (he : h.heapEnd + 16 ≤ endAddr) :
    s.Sound beginAddr endAddr := by
  refine ⟨fun o ho => ?_, ?_, fun o ho => (hO.holds o ho).data, fun a ha => ?_⟩
  · obtain ⟨p, n, hat, haddr, hlen⟩ := hO.block ho
    obtain ⟨l₁, l₂, rfl, hp⟩ := at_iff_append.1 hat
    rw [Nat.zero_add] at hp
    subst hp
    have h4 := Nat.dvd_add hO.blocks.aligned hO.blocks.four_dvd_left
    obtain ⟨-, -, hend, -⟩ := hO.blocks.bounds
    have hp := harea.heapPtr
    have hhe := harea.heapEnd
    simp only at hend
    omega
  · refine hO.nodup.imp_of_mem fun {o o'} ho ho' hne => ?_
    obtain ⟨p, n, hat, haddr, hlen⟩ := hO.block ho
    obtain ⟨q, k, hat', haddr', hlen'⟩ := hO.block ho'
    obtain ⟨rfl, -⟩ | hd | hd := hat.disjoint hat'
    · exact absurd (haddr.trans haddr'.symm) hne
    · simp only at hd
      omega
    · simp only at hd
      omega
  · obtain ⟨t, bs', hp, -, -⟩ := hO.perform ha
    rw [HeapUsers.step, if_pos ha, hp]
    rfl

/-- **Allocations are sound.** In every run from `rt_system_heap_init` on a range of memory, with
holders that keep to their allocations, the allocations are aligned, inside the range and apart from
each other, keep the bytes their holders have written through all calls, and every call returns. -/
theorem heap_sound (hinit : Heap.rtSystemHeapInit m beginAddr endAddr = some h)
    (hbegin : beginAddr + 3 < 4294967296) (hend : endAddr < 4294967296)
    (hroom : 12 ≤ h.memSizeAligned) (as : List HeapAct) :
    Along HeapUsers.step (HeapUsers.Sound beginAddr endAddr) ⟨h, []⟩ as := by
  obtain ⟨-, hp, he⟩ := rtSystemHeapInit_spec hinit hend hroom
  have hb : beginAddr ≤ h.heapPtr := by
    rw [hp]
    obtain hle | hbad := rtAlign_eq (n := beginAddr) (by omega)
    · exact hle.1
    · omega
  have he' : h.heapEnd + 16 ≤ endAddr := he ▸ Nat.div_mul_le_self _ _
  exact heap_run hinit hend hroom (fun s bs hO harea => hO.sound harea hb he') as

end

/-- A range of 400 bytes that is not aligned, and a run that fills it up. -/
def smallRun : List HeapAct :=
  [.malloc none 10, .store 4116 9 7, .calloc none 5 20, .realloc none 4116 40, .free 4144,
    .malloc none 4000, .realloc none 4260 0]

theorem heap_sound_small : ∃ h, Heap.rtSystemHeapInit (fun _ => 0) 4097 4500 = some h ∧
    Along HeapUsers.step (HeapUsers.Sound 4097 4500) ⟨h, []⟩ smallRun :=
  ⟨_, rfl, heap_sound rfl (by decide) (by decide) (by decide) _⟩

/-! ## The list of the blocks -/

/-- The blocks with their positions, when the first one is at `b`. -/
def places : Nat → Tiles Bool → List (Nat × Nat × Bool)
  | _, [] => []
  | b, (n, u) :: l => (b, n, u) :: places (b + n) l

section
variable {h : Heap} {bs l l₁ l₂ : Tiles Bool} {b n p fuel : Nat} {u : Bool}

theorem places_append : places b (l₁ ++ l₂) = places b l₁ ++ places (b + Tiling.len l₁) l₂ := by
  induction l₁ generalizing b with
  | nil => rfl
  | cons t l ih => simp [places, ih, Nat.add_assoc]

theorem mem_places : (p, n, u) ∈ places b l ↔ At b l p (n, u) := by
  induction l generalizing b with
  | nil => simp [places]
  | cons t l ih =>
    obtain ⟨k, v⟩ := t
    simp [places, ih]

theorem toInt_eq {k : Nat} (hk : k < 2147483648) : Heap.toInt k = k := by
  have hn : (UInt32.ofNat k).toNat = k := UInt32.toNat_ofNat_of_lt' (by
    rw [UInt32.size]
    omega)
  rw [Heap.toInt, CInt.i32_of_lt (by omega), hn]

/-- The walk over the blocks from one of them on. -/
theorem Tiled.memtraceLoop (ht : Tiled h (l₁ ++ l₂)) (hf : l₂.length < fuel) :
    h.memtraceLoop fuel (h.heapPtr + Tiling.len l₁) = some (places (Tiling.len l₁) l₂) := by
  induction l₂ generalizing l₁ fuel with
  | nil =>
    obtain ⟨f, rfl⟩ := Nat.exists_eq_succ_of_ne_zero (by omega : fuel ≠ 0)
    have hl := ht.len
    simp only [List.append_nil] at hl
    rw [Heap.memtraceLoop, if_pos (by simp only [Heap.heapEnd, sizeofStructMem]; omega)]
    rfl
  | cons t l ih =>
    obtain ⟨n, u⟩ := t
    obtain ⟨f, rfl⟩ := Nat.exists_eq_succ_of_ne_zero (by omega : fuel ≠ 0)
    obtain ⟨hn, -, hend, -⟩ := ht.bounds
    have hbd := ht.bound
    simp only at hn hend
    have hu : h.used (h.heapPtr + Tiling.len l₁) = u.toNat := ht.hdr.used
    have hx : h.next (h.heapPtr + Tiling.len l₁) = Tiling.len l₁ + n := ht.hdr.next
    have hpos : sizeSub (h.heapPtr + Tiling.len l₁) h.heapPtr = Tiling.len l₁ := by
      rw [sizeSub_eq (by omega) (by omega)]
      omega
    have hsize : sizeSub (Tiling.len l₁ + n) (Tiling.len l₁) = n := by
      rw [sizeSub_eq (by omega) (by omega)]
      omega
    have hih := @ih (l₁ ++ [(n, u)]) f (by simpa using ht) (by simpa using hf)
    simp only [len_append, len_cons, len_nil, Nat.add_zero] at hih
    rw [Heap.memtraceLoop, if_neg (by omega)]
    simp only [hpos, hx, hsize, hu, hih, Option.map_some, places]
    cases u <;> rfl

theorem Tiled.memcheckLoop (ht : Tiled h (l₁ ++ l₂)) (hf : l₂.length < fuel)
    (hsize : h.memSizeAligned < 2147483648) :
    h.memcheckLoop fuel (h.heapPtr + Tiling.len l₁) = some false := by
  induction l₂ generalizing l₁ fuel with
  | nil =>
    obtain ⟨f, rfl⟩ := Nat.exists_eq_succ_of_ne_zero (by omega : fuel ≠ 0)
    have hl := ht.len
    simp only [List.append_nil] at hl
    rw [Heap.memcheckLoop, if_pos (by simp only [Heap.heapEnd, sizeofStructMem]; omega)]
  | cons t l ih =>
    obtain ⟨n, u⟩ := t
    obtain ⟨f, rfl⟩ := Nat.exists_eq_succ_of_ne_zero (by omega : fuel ≠ 0)
    obtain ⟨hn, -, hend, htotal⟩ := ht.bounds
    have hbd := ht.bound
    simp only at hn hend htotal
    have hu : h.used (h.heapPtr + Tiling.len l₁) = u.toNat := ht.hdr.used
    have hg : h.magic (h.heapPtr + Tiling.len l₁) = heapMagic := ht.hdr.magic
    have hx : h.next (h.heapPtr + Tiling.len l₁) = Tiling.len l₁ + n := ht.hdr.next
    have hpos : sizeSub (h.heapPtr + Tiling.len l₁) h.heapPtr = Tiling.len l₁ := by
      rw [sizeSub_eq (by omega) (by omega)]
      omega
    have hih := @ih (l₁ ++ [(n, u)]) f (by simpa using ht) (by simpa using hf)
    simp only [len_append, len_cons, len_nil, Nat.add_zero] at hih
    have hu1 : u.toNat = 0 ∨ u.toNat = 1 := by cases u <;> simp
    rw [Heap.memcheckLoop, if_neg (by omega)]
    simp only [hpos, hx, hu, hg, toInt_eq hsize, toInt_eq (by omega : Tiling.len l₁ < 2147483648)]
    rw [if_neg (by omega), hih]

theorem Tiled.memtrace (ht : Tiled h bs) : h.memtrace = some (places 0 bs) :=
  @Tiled.memtraceLoop h [] bs h.fuel ht (@Tiled.length_lt h [] bs ht)

theorem Tiled.memcheck (ht : Tiled h bs) (hsize : h.memSizeAligned < 2147483648) :
    h.memcheck = some false :=
  @Tiled.memcheckLoop h [] bs h.fuel ht (@Tiled.length_lt h [] bs ht) hsize

instance (size p n : Nat) : Decidable (Fits h size p n) := inferInstanceAs (Decidable (_ ∧ _))

/-- `rt_malloc` would take the block of the list for `size` bytes. -/
def suits (h : Heap) (size : Nat) (b : Nat × Nat × Bool) : Bool :=
  !b.2.2 && decide (size ≠ 0 ∧ Fits h size b.1 b.2.1)

/-- The address that `rt_malloc` returns is that of the first block of the list that suits, the null
pointer if there is none. -/
def FirstFit (h : Heap) (self : Option (List UInt8)) (size : Nat) : Prop :=
  ∃ l h', h.memtrace = some l ∧
    h.rtMalloc self size =
      some (((l.find? (suits h size)).elim 0 fun b => h.heapPtr + b.1 + 16), h')

theorem Blocks.firstFit (hb : Blocks h bs) (self : Option (List UInt8)) (size : Nat) :
    FirstFit h self size := by
  obtain ⟨he, hnone⟩ | ⟨l₁, n, l₂, c, rest, h', hs, rfl, hfit, hall, -, he, -⟩ :=
    rtMalloc_spec hb self size
  · have hf : (places 0 bs).find? (suits h size) = none := by
      refine List.find?_eq_none.2 fun b hm => ?_
      obtain ⟨p, n, u⟩ := b
      have hat := mem_places.1 hm
      cases u with
      | true => simp [suits]
      | false =>
        simp only [suits, Bool.not_false, Bool.true_and, decide_eq_true_eq]
        rintro ⟨hs, hfit⟩
        obtain hz | hno := hnone
        · exact hs hz
        · exact hno p n hat hfit
    exact ⟨_, h, hb.memtrace, by rw [hf]; exact he⟩
  · have hf : (places 0 (l₁ ++ (n, false) :: l₂)).find? (suits h size) =
        some (Tiling.len l₁, n, false) := by
      have hfront : (places 0 l₁).find? (suits h size) = none := by
        refine List.find?_eq_none.2 fun b hm => ?_
        obtain ⟨p, k, u⟩ := b
        cases u with
        | true => simp [suits]
        | false =>
          have hk := hall (k, false) (mem_places.1 hm).mem rfl
          simp only [suits, Bool.not_false, Bool.true_and, decide_eq_true_eq]
          rintro ⟨-, hfit'⟩
          exact Nat.not_le_of_lt hk hfit'.1
      rw [places_append, List.find?_append, hfront, Nat.zero_add]
      simp [places, suits, hs, hfit]
    exact ⟨_, h', hb.memtrace, by rw [hf]; exact he⟩

/-- The list of the blocks agrees with the statistics and with the allocations. -/
structure HeapUsers.Books (s : HeapUsers) : Prop where
  quiet : s.heap.memcheck = some false
  list : ∃ bs, s.heap.memtrace = some (places 0 bs) ∧ Tiling.len bs = s.heap.memSizeAligned + 16 ∧
    Sep bs ∧ marked bs = s.heap.usedMem ∧ s.heap.usedMem ≤ s.heap.maxMem ∧
    ∀ p, (∃ n, At 0 bs p (n, true)) ↔ ∃ o ∈ s.live, o.addr = s.heap.heapPtr + p + 16

theorem Owned.books {s : HeapUsers} (hO : Owned s bs) (hsize : s.heap.memSizeAligned < 2147483648) :
    s.Books := by
  refine ⟨hO.blocks.memcheck hsize, bs, hO.blocks.memtrace, hO.blocks.len, hO.blocks.sep,
    hO.blocks.usedMem.symm, hO.blocks.maxMem, fun p => ⟨?_, ?_⟩⟩
  · rintro ⟨n, hat⟩
    exact hO.owner p n hat
  · rintro ⟨o, ho, ha⟩
    obtain ⟨q, n, hat, ha', -⟩ := hO.block ho
    exact ⟨n, (by omega : q = p) ▸ hat⟩

/-- The heap is one free block, and the statistics say so. -/
def HeapUsers.Restored (s : HeapUsers) : Prop :=
  s.heap.memtrace = some [(0, s.heap.memSizeAligned + 16, false)] ∧ s.heap.usedMem = 0 ∧
    s.heap.lfree = s.heap.heapPtr

theorem Owned.restored {s : HeapUsers} (hO : Owned s bs) (hlive : s.live = []) : s.Restored := by
  have hall : ∀ t ∈ bs, t.2 = false := by
    rintro ⟨n, u⟩ ht
    cases u with
    | false => rfl
    | true =>
      obtain ⟨p, hat⟩ := exists_at_of_mem ht 0
      obtain ⟨o, ho, -⟩ := hO.owner p n hat
      exact absurd ho (hlive ▸ List.not_mem_nil)
  have hne : bs ≠ [] := by
    rintro rfl
    have hl := hO.blocks.len
    simp only [len_nil] at hl
    omega
  have hbs := hO.blocks.sep.eq_singleton hall hne
  rw [hO.blocks.len] at hbs
  subst hbs
  exact ⟨hO.blocks.memtrace, hO.blocks.usedMem, hO.blocks.lfree⟩

end

section
variable {m : Mem} {beginAddr endAddr : Nat} {h : Heap}

/-- **First fit.** In every run, whatever is asked for next, `rt_malloc` returns the first block of
the list that is free, large enough and does not end exactly with the heap, and the null pointer if
there is no such block. -/
theorem rtMalloc_firstFit (hinit : Heap.rtSystemHeapInit m beginAddr endAddr = some h)
    (hend : endAddr < 4294967296) (hroom : 12 ≤ h.memSizeAligned) (as : List HeapAct) :
    Along HeapUsers.step (fun s => ∀ self size, FirstFit s.heap self size) ⟨h, []⟩ as :=
  heap_run hinit hend hroom (fun _ _ hO _ self size => hO.blocks.firstFit self size) as

theorem rtMalloc_firstFit_small : ∃ h, Heap.rtSystemHeapInit (fun _ => 0) 4097 4500 = some h ∧
    Along HeapUsers.step (fun s => ∀ self size, FirstFit s.heap self size) ⟨h, []⟩ smallRun :=
  ⟨_, rfl, @rtMalloc_firstFit (fun _ => 0) 4097 4500 _ rfl (by decide) (by decide) _⟩

/-- **The books agree.** In every run `memcheck` has nothing to report, and `memtrace` lists blocks
that fill the heap, no two neighbours free, as long in total as `used_mem` says for the used ones,
and used exactly where an allocation is held. -/
theorem memtrace_books (hinit : Heap.rtSystemHeapInit m beginAddr endAddr = some h)
    (hend : endAddr < 4294967296) (hroom : 12 ≤ h.memSizeAligned)
    (hsize : h.memSizeAligned < 2147483648) (as : List HeapAct) :
    Along HeapUsers.step HeapUsers.Books ⟨h, []⟩ as :=
  heap_run hinit hend hroom (fun _ _ hO harea => hO.books (harea.memSizeAligned ▸ hsize)) as

theorem memtrace_books_small : ∃ h, Heap.rtSystemHeapInit (fun _ => 0) 4097 4500 = some h ∧
    Along HeapUsers.step HeapUsers.Books ⟨h, []⟩ smallRun :=
  ⟨_, rfl, @memtrace_books (fun _ => 0) 4097 4500 _ rfl (by decide) (by decide) (by decide) _⟩

/-- **Nothing leaks.** Whenever in a run all allocations have been given back, in whatever order,
the heap is the one free block it was at first. -/
theorem heap_restored (hinit : Heap.rtSystemHeapInit m beginAddr endAddr = some h)
    (hend : endAddr < 4294967296) (hroom : 12 ≤ h.memSizeAligned) (as : List HeapAct) :
    Along HeapUsers.step (fun s => s.live = [] → s.Restored) ⟨h, []⟩ as :=
  heap_run hinit hend hroom (fun _ _ hO _ hlive => hO.restored hlive) as

theorem heap_restored_small : ∃ h, Heap.rtSystemHeapInit (fun _ => 0) 4097 4500 = some h ∧
    Along HeapUsers.step (fun s => s.live = [] → s.Restored) ⟨h, []⟩ smallRun :=
  ⟨_, rfl, @heap_restored (fun _ => 0) 4097 4500 _ rfl (by decide) (by decide) _⟩

end

end Rtos
