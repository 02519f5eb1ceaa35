import SpsiMaster.App.System
import SpsiMaster.Radio.Receive

/-!
# The reception buffer

The FIFO is a sequence of chunks: a head with a command and a length, and a body of that length.
`ReceiveData` stores the payload of every data chunk from `RXBuff[0]` on, so the buffer holds what
the payloads leave on top of each other while `RxLen` is the length of the last one.

`inBuffer_iff`: the accesses stay in `RXBuff` exactly if no payload is longer than 64 bytes and no
single byte follows a payload with an `S` in its second place.
-/

namespace Spsi

open CInt

/-! ## Chunks -/

structure Chunk where
  command : Nat
  body : List UInt8
  deriving DecidableEq

/-- The head of a chunk: its command, the length of its body and what follows. -/
def chunkHead (f : Fifo UInt8) : Nat × Nat × Fifo UInt8 :=
  let n := ((f.pop.1 &&& 0xE0) >>> 5).toNat
  if n = 7 then ((f.pop.1 &&& 0x1F).toNat, f.pop.2.pop.1.toNat, f.pop.2.pop.2)
  else ((f.pop.1 &&& 0x1F).toNat, n, f.pop.2)

def nextChunk (f : Fifo UInt8) : Chunk × Fifo UInt8 :=
  let (command, n, f) := chunkHead f
  (⟨command, (f.take n).1⟩, (f.take n).2)

/-- The chunks of a FIFO, `n` at most. -/
def chunks : Nat → Fifo UInt8 → List Chunk
  | 0, _ => []
  | n + 1, f => if f.items ≠ [] then (nextChunk f).1 :: chunks n (nextChunk f).2 else []

/-- The bytes of a data chunk after its flags; an empty chunk has no flags. -/
def Chunk.payload (c : Chunk) : Option (List UInt8) :=
  if c.command = fifocmdData then c.body.tail? else none

def payloads (f : Fifo UInt8) : List (List UInt8) :=
  (chunks f.items.length f).filterMap Chunk.payload

/-- A payload of one byte comes last, and the newest payload before it with a second byte has an
`S` there. -/
def LeavesS (ps : List (List UInt8)) : Prop :=
  ∃ old p mid b, ps = old ++ p :: (mid ++ [[b]]) ∧ p[1]? = some 83 ∧ ∀ q ∈ mid, q.length ≤ 1

/-! ## A turn of the loop -/

namespace Ax5043

variable (dev : Ax5043)

/-- What a chunk does to the buffer: a payload `p` is stored from index 0 on. -/
structure Stores (dev dev' : Ax5043) (p : Option (List UInt8)) : Prop where
  rxLen : dev'.rxLen = (p.map List.length).getD dev.rxLen
  second : dev'.rxBuff[1] = ((p.bind fun p => p[1]?).getD dev.rxBuff[1])
  writes : ∀ i, i ∈ dev'.writes ↔ i ∈ dev.writes ∨ ∃ q ∈ p, i < q.length

theorem Stores.skip (n : Nat) : Stores dev (dev.skip n) none :=
  ⟨rfl, rfl, fun _ => by simp [Ax5043.skip]⟩

/-- The transfer reads `n` bytes from the FIFO and stores them at `i` and up. -/
theorem spiReadFrom_spec (i n : Nat) :
    (dev.spiReadFrom i n).fifo = (dev.fifo.take n).2 ∧
    (∀ j, j < 64 → (dev.spiReadFrom i n).rxBuff[j]? =
      if i ≤ j ∧ j < i + n then (dev.fifo.take n).1[j - i]? else dev.rxBuff[j]?) ∧
    ∀ j, j ∈ (dev.spiReadFrom i n).writes ↔ j ∈ dev.writes ∨ i ≤ j ∧ j < i + n := by
  induction n generalizing dev i with
  | zero =>
    refine ⟨rfl, fun j _ => ?_, fun j => ?_⟩
    · rw [if_neg (by omega)]
      rfl
    · refine ⟨.inl, fun h => h.elim id fun hj => ?_⟩
      omega
  | succ n ih =>
    obtain ⟨hf, hb, hw⟩ := ih (dev.readFifo.2.store i dev.readFifo.1) (i + 1)
    refine ⟨hf, fun j hj => ?_, fun j => ?_⟩
    · rw [spiReadFrom, hb j hj, Fifo.take_succ]
      by_cases hij : j = i
      · subst hij
        rw [if_neg (by omega), if_pos (by omega), Nat.sub_self]
        simp [store, readFifo, hj]
      · by_cases hr : i ≤ j ∧ j < i + (n + 1)
        · obtain ⟨k, hk⟩ : ∃ k, j - i = k + 1 := ⟨j - i - 1, by omega⟩
          rw [if_pos (by omega), if_pos hr, hk, show j - (i + 1) = k by omega]
          rfl
        · rw [if_neg (by omega), if_neg hr]
          simp [store, readFifo, Ne.symm hij]
    · rw [spiReadFrom, hw j, store]
      simp only [List.mem_cons, readFifo]
      by_cases hj : j ∈ dev.writes
      · simp [hj]
      · simp only [hj, or_false, false_or]
        omega

/-- What has been read stands in front of what the buffer held behind it. -/
theorem toList_spiReadData {n : Nat} (hn : n ≤ 64) : (dev.spiReadData n).rxBuff.toList =
    (dev.fifo.take n).1 ++ dev.rxBuff.toList.drop n := by
  obtain ⟨-, hb, -⟩ := dev.spiReadFrom_spec 0 n
  have hlen := dev.fifo.length_take n
  refine List.ext_getElem? fun j => ?_
  by_cases hj : j < 64
  · have hbj := hb j hj
    rw [← Vector.getElem?_toList, ← Vector.getElem?_toList] at hbj
    refine hbj.trans ?_
    by_cases hjn : j < n
    · rw [if_pos (by omega), Nat.sub_zero, List.getElem?_append_left (by omega)]
    · rw [if_neg (by omega), List.getElem?_append_right (by omega), List.getElem?_drop, hlen,
        Nat.add_sub_cancel' (Nat.not_lt.1 hjn)]
  · rw [List.getElem?_eq_none (by simpa using hj), List.getElem?_eq_none (by simp; omega)]

/-- A chunk is read to its end and its payload is stored, whatever its command. -/
theorem receiveCommand_spec (c n : Nat) :
    (dev.receiveCommand c n).fifo = (dev.fifo.take n).2 ∧
      Stores dev (dev.receiveCommand c n) (Chunk.payload ⟨c, (dev.fifo.take n).1⟩) := by
  have hskip : (dev.skip n).fifo = (dev.fifo.take n).2 ∧ Stores dev (dev.skip n) none :=
    ⟨rfl, .skip dev n⟩
  unfold receiveCommand
  split
  · cases n with
    | zero => exact hskip
    | succ k =>
      obtain ⟨hf, hb, hw⟩ := (dev.skip 1).spiReadFrom_spec 0 k
      have hlen := dev.fifo.pop.2.length_take k
      refine ⟨hf, ?_, ?_, fun i => ?_⟩
      · exact hlen.symm
      · have hb1 := hb 1 (by decide)
        by_cases hk : 1 < k
        · rw [if_pos ⟨Nat.zero_le 1, by omega⟩] at hb1
          have hp : ((dev.fifo.pop.2.take k).1)[1]? = some _ :=
            List.getElem?_eq_getElem (by rw [hlen]; exact hk)
          have hb1' := hb1.trans hp
          refine Option.some.inj (hb1'.trans ?_)
          exact congrArg some (congrArg (fun o : Option UInt8 => o.getD dev.rxBuff[1]) hp).symm
        · rw [if_neg (by omega)] at hb1
          have hp : ((dev.fifo.pop.2.take k).1)[1]? = none :=
            List.getElem?_eq_none (by rw [hlen]; omega)
          refine (Option.some.inj hb1).trans ?_
          exact (congrArg (fun o : Option UInt8 => o.getD dev.rxBuff[1]) hp).symm
      · have hin : (∃ q ∈ Chunk.payload ⟨fifocmdData, (dev.fifo.take (k + 1)).1⟩, i < q.length) ↔
            i < k := by
          simp [Chunk.payload, Fifo.take_succ, hlen]
        have hwi := hw i
        simp only [Nat.zero_le, true_and, Nat.zero_add] at hwi
        exact hwi.trans (or_congr_right hin.symm)
  · split
    · exact hskip
    · next h3 =>
      obtain rfl : n = 3 := Decidable.not_not.1 h3
      exact hskip
  · split
    · exact hskip
    · next h1 =>
      obtain rfl : n = 1 := Decidable.not_not.1 h1
      exact ⟨rfl, rfl, rfl, hskip.2.writes⟩
  · split
    · exact hskip
    · next h3 =>
      obtain rfl : n = 3 := Decidable.not_not.1 h3
      exact hskip
  · cases n with
    | zero => exact hskip
    | succ k => exact ⟨rfl, rfl, rfl, hskip.2.writes⟩
  · next hdata _ _ _ _ =>
    have hnone : Chunk.payload ⟨c, (dev.fifo.take n).1⟩ = none := if_neg hdata
    rw [hnone]
    exact hskip

theorem receiveChunk_eq : dev.receiveChunk =
    ({ dev with fifo := (chunkHead dev.fifo).2.2 } : Ax5043).receiveCommand (chunkHead dev.fifo).1
      (chunkHead dev.fifo).2.1 := by
  simp only [receiveChunk, chunkHead, readFifo]
  by_cases h : ((dev.fifo.pop.1 &&& 0xE0) >>> 5).toNat = 7
  · simp only [h, if_true]
  · simp only [h, if_false]

/-- A turn of the loop takes the next chunk. -/
theorem receiveChunk_spec : dev.receiveChunk.fifo = (nextChunk dev.fifo).2 ∧
    Stores dev dev.receiveChunk (nextChunk dev.fifo).1.payload := by
  obtain ⟨hf, hl, hs, hw⟩ := receiveCommand_spec { dev with fifo := (chunkHead dev.fifo).2.2 }
    (chunkHead dev.fifo).1 (chunkHead dev.fifo).2.1
  rw [receiveChunk_eq]
  exact ⟨hf, hl, hs, hw⟩

/-- A chunk has a head, so a FIFO that is not empty gets shorter. -/
theorem length_nextChunk {f : Fifo UInt8} (h : f.items ≠ []) :
    (nextChunk f).2.items.length < f.items.length := by
  have hpos := List.length_pos_of_ne_nil h
  simp only [nextChunk, chunkHead]
  split
  · rw [Fifo.length_items_take, Fifo.length_pop, Fifo.length_pop]
    omega
  · rw [Fifo.length_items_take, Fifo.length_pop]
    omega

/-! ## The loop -/

end Ax5043

/-- `RxLen` after the payloads. -/
def lastLength (ps : List (List UInt8)) (n : Nat) : Nat := ps.foldl (fun _ p => p.length) n

/-- `RXBuff[1]` after the payloads. -/
def secondByte (ps : List (List UInt8)) (b : UInt8) : UInt8 :=
  ps.foldl (fun b p => p[1]?.getD b) b

namespace Ax5043

theorem receiveLoop_spec (n : Nat) (dev : Ax5043) :
    let ps := (chunks n dev.fifo).filterMap Chunk.payload
    (receiveLoop n dev).rxLen = lastLength ps dev.rxLen ∧
    (receiveLoop n dev).rxBuff[1] = secondByte ps dev.rxBuff[1] ∧
    ∀ i, i ∈ (receiveLoop n dev).writes ↔ i ∈ dev.writes ∨ ∃ p ∈ ps, i < p.length := by
  induction n generalizing dev with
  | zero => exact ⟨rfl, rfl, fun _ => by simp [receiveLoop, chunks]⟩
  | succ n ih =>
    unfold receiveLoop chunks
    split
    · obtain ⟨hf, hl, hs, hw⟩ := dev.receiveChunk_spec
      obtain ⟨ihl, ihs, ihw⟩ := ih dev.receiveChunk
      rw [hf] at ihl ihs ihw
      simp only [List.filterMap_cons]
      cases hp : (nextChunk dev.fifo).1.payload with
      | none =>
        simp only [hp, Option.map_none, Option.bind_none, Option.getD_none, Option.not_mem_none,
          false_and, exists_false, or_false] at hl hs hw
        refine ⟨by rw [ihl, hl], by rw [ihs, hs], fun i => by rw [ihw, hw]⟩
      | some p =>
        simp only [hp, Option.map_some, Option.bind_some, Option.getD_some, Option.mem_def,
          Option.some.injEq, exists_eq_left'] at hl hs hw
        refine ⟨by rw [ihl, hl]; rfl, by rw [ihs, hs]; rfl, fun i => ?_⟩
        rw [ihw, hw, or_assoc]
        simp only [List.mem_cons, or_and_right, exists_or, exists_eq_left]
    · exact ⟨rfl, rfl, fun _ => by simp⟩

/-- The loop ends because the FIFO is empty. -/
theorem receiveLoop_fifo (n : Nat) (dev : Ax5043) (h : dev.fifo.items.length ≤ n) :
    (receiveLoop n dev).fifo.items = [] := by
  induction n generalizing dev with
  | zero => exact List.eq_nil_of_length_eq_zero (Nat.le_zero.1 h)
  | succ n ih =>
    unfold receiveLoop
    split
    · next hne =>
      have hlt := length_nextChunk hne
      apply ih
      rw [dev.receiveChunk_spec.1]
      omega
    · next he => exact Decidable.not_not.1 he

theorem receiveData_fifo (dev : Ax5043) : dev.receiveData.fifo.items = [] :=
  receiveLoop_fifo _ _ (Nat.le_refl _)

end Ax5043

/-! ## The accesses -/

/-- All accesses of a reception are in `RXBuff`: the stores of `SpiReadData`, and the tests of the
callback if it is called. -/
structure InBuffer (dev : Ax5043) : Prop where
  stores : ∀ i ∈ dev.receiveData.writes, i ≤ 63
  tests : dev.receiveData.rxLen ≠ 0 →
    ∀ i ∈ dev.receiveData.packet.indices dev.receiveData.rxLen, 0 ≤ i ∧ i ≤ 63

theorem lastLength_concat (ps : List (List UInt8)) (p : List UInt8) (n : Nat) :
    lastLength (ps ++ [p]) n = p.length := by
  rw [lastLength, List.foldl_append]
  rfl

/-- The second byte is the one of the newest payload that has one. -/
theorem secondByte_eq {ps : List (List UInt8)} {b c : UInt8} : secondByte ps b = c ↔
    (∃ old p new, ps = old ++ p :: new ∧ p[1]? = some c ∧ ∀ q ∈ new, q.length ≤ 1) ∨
      b = c ∧ ∀ q ∈ ps, q.length ≤ 1 := by
  induction ps generalizing b with
  | nil => simp [secondByte]
  | cons p ps ih =>
    have hfold : secondByte (p :: ps) b = secondByte ps (p[1]?.getD b) := rfl
    rw [hfold, ih]
    constructor
    · rintro (⟨old, q, new, rfl, hq, hnew⟩ | ⟨hb, hps⟩)
      · exact .inl ⟨p :: old, q, new, rfl, hq, hnew⟩
      · cases hp : p[1]? with
        | some d =>
          rw [hp, Option.getD_some] at hb
          exact .inl ⟨[], p, ps, rfl, hp.trans (congrArg some hb), hps⟩
        | none =>
          rw [hp, Option.getD_none] at hb
          refine .inr ⟨hb, fun q hq => ?_⟩
          rcases List.mem_cons.1 hq with rfl | hq
          · exact List.getElem?_eq_none_iff.1 hp
          · exact hps q hq
    · rintro (⟨old, q, new, he, hq, hnew⟩ | ⟨hb, hps⟩)
      · cases old with
        | nil =>
          obtain ⟨rfl, rfl⟩ := List.cons.inj he
          exact .inr ⟨by rw [hq, Option.getD_some], hnew⟩
        | cons x old =>
          obtain ⟨rfl, rfl⟩ := List.cons.inj he
          exact .inl ⟨old, q, new, rfl, hq, hnew⟩
      · have hp : p[1]? = none := List.getElem?_eq_none (hps p List.mem_cons_self)
        exact .inr ⟨by rw [hp, Option.getD_none, hb], fun q hq => hps q (List.mem_cons_of_mem _ hq)⟩

theorem leavesS_iff {ps : List (List UInt8)} :
    LeavesS ps ↔ lastLength ps 0 = 1 ∧ secondByte ps 0 = 83 := by
  have hzero : ¬ ((0 : UInt8) = 83 ∧ ∀ q ∈ ps, q.length ≤ 1) := fun h => absurd h.1 (by decide)
  rw [secondByte_eq, or_iff_left hzero]
  constructor
  · rintro ⟨old, p, mid, b, rfl, hp, hmid⟩
    refine ⟨?_, old, p, mid ++ [[b]], rfl, hp, fun q hq => ?_⟩
    · rw [← List.cons_append, ← List.append_assoc, lastLength_concat]
      rfl
    · rcases List.mem_append.1 hq with hq | hq
      · exact hmid q hq
      · rw [List.mem_singleton.1 hq]
        exact Nat.le_refl 1
  · rintro ⟨hlast, old, p, new, rfl, hp, hnew⟩
    rcases List.eq_nil_or_concat new with rfl | ⟨mid, q, rfl⟩
    · rw [lastLength_concat] at hlast
      rw [List.getElem?_eq_none (by omega)] at hp
      cases hp
    · rw [List.concat_eq_append] at hlast hnew ⊢
      rw [← List.cons_append, ← List.append_assoc, lastLength_concat] at hlast
      obtain ⟨b, rfl⟩ := List.length_eq_one_iff.1 hlast
      exact ⟨old, p, mid, b, rfl, hp, fun x hx => hnew x (List.mem_append_left _ hx)⟩

/-! ## The exact condition -/

section
variable (dev : Ax5043)

/-- What a reception leaves, by the payloads. -/
theorem receiveData_spec :
    dev.receiveData.rxLen = lastLength (payloads dev.fifo) 0 ∧
    dev.receiveData.packet.read 1 = secondByte (payloads dev.fifo) 0 ∧
    ∀ i, i ∈ dev.receiveData.writes ↔ ∃ p ∈ payloads dev.fifo, i < p.length := by
  obtain ⟨hl, hs, hw⟩ := Ax5043.receiveLoop_spec dev.fifo.items.length
    { dev with ubRssi := 0, rxLen := 0, rxBuff := Vector.replicate 64 0, writes := [] }
  refine ⟨hl, ?_, fun i => (hw i).trans ?_⟩
  · refine Eq.trans ?_ hs
    simp [Ax5043.packet, RxBuffer.read, Ax5043.receiveData]
  · simp [payloads]

/-- The tests of a callback are in the buffer, unless it is called for a single byte and finds an
`S` behind it. -/
theorem indices_le {b : RxBuffer} {rxLen : Nat} (h0 : rxLen ≠ 0) (h64 : rxLen ≤ 64) :
    (∀ i ∈ b.indices rxLen, 0 ≤ i ∧ i ≤ 63) ↔ ¬ (rxLen = 1 ∧ b.read 1 = 83) := by
  have hclose : ((u8OfInt ((rxLen : Int) - 1) : Nat) : Int) - 1 = (rxLen : Int) - 2 := by
    unfold u8OfInt
    omega
  unfold RxBuffer.indices
  split
  · next h1 =>
    rw [hclose]
    constructor
    · rintro hi ⟨rfl, -⟩
      exact absurd (hi _ (List.mem_cons_of_mem _ List.mem_cons_self)).1 (by decide)
    · intro hno i hi
      have hne : rxLen ≠ 1 := fun h => hno ⟨h, h1⟩
      rcases List.mem_cons.1 hi with rfl | hi
      · decide
      · rw [List.mem_singleton.1 hi]
        omega
  · next h1 =>
    refine ⟨fun _ h => h1 h.2, fun _ i hi => ?_⟩
    rw [List.mem_singleton.1 hi]
    decide

/-- **Reception stays inside its buffer** exactly for the FIFOs without a payload of more than 64
bytes in which no single byte comes last and uncovers an `S`. -/
theorem inBuffer_iff : InBuffer dev ↔
    (∀ p ∈ payloads dev.fifo, p.length ≤ 64) ∧ ¬ LeavesS (payloads dev.fifo) := by
  obtain ⟨hl, hs, hw⟩ := receiveData_spec dev
  have hlast : (∀ p ∈ payloads dev.fifo, p.length ≤ 64) → dev.receiveData.rxLen ≤ 64 := by
    intro hps
    rw [hl]
    rcases List.eq_nil_or_concat (payloads dev.fifo) with he | ⟨ps, p, he⟩
    · rw [he]
      exact Nat.zero_le 64
    · rw [List.concat_eq_append] at he
      rw [he, lastLength_concat]
      exact hps p (by rw [he]; exact List.mem_append_right _ List.mem_cons_self)
  rw [leavesS_iff, ← hl, ← hs]
  constructor
  · intro h
    have hps : ∀ p ∈ payloads dev.fifo, p.length ≤ 64 := fun p hp => Nat.le_of_not_lt fun hlong =>
      absurd (h.stores 64 ((hw 64).2 ⟨p, hp, hlong⟩)) (by decide)
    refine ⟨hps, fun hleft => ?_⟩
    have h0 : dev.receiveData.rxLen ≠ 0 := by omega
    exact (indices_le h0 (hlast hps)).1 (h.tests h0) hleft
  · rintro ⟨hps, hno⟩
    refine ⟨fun i hi => ?_, fun h0 => (indices_le h0 (hlast hps)).2 hno⟩
    obtain ⟨p, hp, hip⟩ := (hw i).1 hi
    have := hps p hp
    omega

end

/-- A device whose FIFO is about to be drained. -/
def Ax5043.ofFifo (items : List UInt8) : Ax5043 :=
  ⟨⟨items, fun _ => 0⟩, 0, 0, 0, Vector.replicate 64 0, 0, 0xFF, []⟩

/-- A chunk with a length byte of 66 holds one byte more than `RXBuff`. -/
theorem inBuffer_long : ¬ InBuffer (.ofFifo (0xE1 :: 66 :: List.replicate 66 0)) := by
  rintro ⟨hstores, -⟩
  exact absurd (hstores 64) (by decide +kernel)

/-! ## The byte in front of the buffer -/

namespace Ax5043

theorem spiReadFrom_txLen (dev : Ax5043) (b : UInt8) (i n : Nat) :
    ({ dev with txLen := b } : Ax5043).spiReadFrom i n =
      { dev.spiReadFrom i n with txLen := b } := by
  induction n generalizing dev i with
  | zero => rfl
  | succ n ih => exact ih (dev.readFifo.2.store i dev.readFifo.1) (i + 1)

theorem receiveCommand_txLen (dev : Ax5043) (b : UInt8) (c n : Nat) :
    ({ dev with txLen := b } : Ax5043).receiveCommand c n =
      { dev.receiveCommand c n with txLen := b } := by
  unfold receiveCommand
  split
  · cases n with
    | zero => rfl
    | succ k =>
      have hread := (dev.skip 1).spiReadFrom_txLen b 0 k
      exact congrArg (fun d : Ax5043 =>
        ({ d with rxLen := k, irqMask0 := d.irqMask0 &&& 0xFE } : Ax5043)) hread
  · split <;> rfl
  · split <;> rfl
  · split <;> rfl
  · split <;> rfl
  · rfl

theorem receiveLoop_txLen (n : Nat) (dev : Ax5043) (b : UInt8) :
    receiveLoop n { dev with txLen := b } = { receiveLoop n dev with txLen := b } := by
  induction n generalizing dev with
  | zero => rfl
  | succ n ih =>
    have hchunk : ({ dev with txLen := b } : Ax5043).receiveChunk =
        { dev.receiveChunk with txLen := b } := by
      rw [receiveChunk_eq, receiveChunk_eq]
      exact receiveCommand_txLen { dev with fifo := (chunkHead dev.fifo).2.2 } b _ _
    unfold receiveLoop
    rw [hchunk]
    by_cases hne : dev.fifo.items ≠ []
    · rw [if_pos hne, if_pos hne]
      exact ih _
    · rw [if_neg hne, if_neg hne]

/-- A reception inside the buffer does not depend on what is in front of it. -/
theorem receiveTask_txLen {dev : Ax5043} (h : InBuffer dev) (b : UInt8) (r : Radio)
    (stack : Message) (w : World) :
    receiveTask r stack w { dev with txLen := b } = receiveTask r stack w dev := by
  have hdata : ({ dev with txLen := b } : Ax5043).receiveData =
      { dev.receiveData with txLen := b } :=
    receiveLoop_txLen dev.fifo.items.length
      { dev with ubRssi := 0, rxLen := 0, rxBuff := Vector.replicate 64 0, writes := [] } b
  simp only [receiveTask, hdata]
  split
  · next h0 =>
    apply World.rxCallback_congr
    · rfl
    · intro i hi
      have hnn : ¬ i < 0 := by
        have := (h.tests h0 i hi).1
        omega
      rw [RxBuffer.read, RxBuffer.read, if_neg hnn, if_neg hnn]
      rfl
  · rfl

/-- What a radio task does with a reception is one of the steps of the program. -/
theorem receiveTask_step (dev : Ax5043) (r : Radio) (stack : Message) (w : World) :
    receiveTask r stack w dev = w ∨ ∃ rssi rxBuffer rxLen,
      w.step (.rx r rssi stack rxBuffer rxLen) = some (receiveTask r stack w dev) := by
  simp only [receiveTask]
  split
  · next h0 => exact .inr ⟨_, _, _, if_pos h0⟩
  · exact .inl rfl

end Ax5043

end Spsi
