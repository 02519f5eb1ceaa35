import Mathlib.Logic.Function.Iterate
import SpsiMaster.Lib.Newest
import SpsiMaster.Radio.Proof.ReceiveBuf

/-!
# The chunks of the FIFO

The receive FIFO of a chip that works holds whole chunks, one behind the other. `ReceiveData` takes
one chunk in every turn of its loop (`turns_fifo`), so it reads every head where a head is, and what
it leaves are the payload of the newest data chunk and the value of the newest RSSI chunk
(`receiveData_chunks`).

The callback is called once, behind the loop. `rxTask_packets_iff`: it is called for every packet
exactly if there is at most one, and no further RSSI chunk with another value behind it.
-/

namespace Spsi

open CInt Newest

/-! ## Chunks as bytes -/

/-- A chunk with its length in the three upper bits of the head, or, if it is long, in a byte
behind the head. -/
structure WireChunk extends Chunk where
  long : Bool
  command_lt : command < 32
  length_le : body.length ≤ if long then 255 else 6

namespace WireChunk

def head (c : WireChunk) : List UInt8 :=
  if c.long then [UInt8.ofNat (c.command + 32 * 7), UInt8.ofNat c.body.length]
  else [UInt8.ofNat (c.command + 32 * c.body.length)]

def encode (c : WireChunk) : List UInt8 := c.head ++ c.body

def encodeAll (cs : List WireChunk) : List UInt8 := cs.flatMap encode

theorem encodeAll_cons (c : WireChunk) (cs : List WireChunk) :
    encodeAll (c :: cs) = c.encode ++ encodeAll cs := rfl

/-- The fields of a head. -/
theorem head_fields {c n : Nat} (hc : c < 32) (hn : n < 8) :
    ((UInt8.ofNat (c + 32 * n) &&& 0xE0) >>> 5).toNat = n ∧
      (UInt8.ofNat (c + 32 * n) &&& 0x1F).toNat = c := by
  have hall : ∀ (c : Fin 32) (n : Fin 8),
      ((UInt8.ofNat (c + 32 * n) &&& 0xE0) >>> 5).toNat = n ∧
        (UInt8.ofNat (c + 32 * n) &&& 0x1F).toNat = c := by
    decide +kernel
  exact hall ⟨c, hc⟩ ⟨n, hn⟩

/-- The head of a chunk in front of `rest`. -/
theorem chunkHead_encode (c : WireChunk) (rest : List UInt8) (idle : Nat → UInt8) :
    chunkHead ⟨c.encode ++ rest, idle⟩ = (c.command, c.body.length, ⟨c.body ++ rest, idle⟩) := by
  have hle := c.length_le
  unfold encode head
  split at hle
  · next hlong =>
    obtain ⟨hn, hc⟩ := head_fields c.command_lt (by decide : 7 < 8)
    have hlen : (UInt8.ofNat c.body.length).toNat = c.body.length := by
      rw [UInt8.toNat_ofNat']
      omega
    rw [if_pos hlong]
    simp only [chunkHead, Fifo.pop, List.cons_append, List.nil_append, hn, hc, hlen, if_true]
  · next hlong =>
    obtain ⟨hn, hc⟩ := head_fields c.command_lt (by omega : c.body.length < 8)
    have h7 : c.body.length ≠ 7 := by omega
    rw [if_neg hlong]
    simp only [chunkHead, Fifo.pop, List.cons_append, List.nil_append, hn, hc, if_neg h7]

/-- The chunk that stands in front is the next one. -/
theorem nextChunk_encode (c : WireChunk) (rest : List UInt8) (idle : Nat → UInt8) :
    nextChunk ⟨c.encode ++ rest, idle⟩ = (c.toChunk, ⟨rest, idle⟩) := by
  simp only [nextChunk, chunkHead_encode, Fifo.take_append]

theorem encode_ne_nil (c : WireChunk) : c.encode ≠ [] := by
  unfold encode head
  split <;> exact List.cons_ne_nil _ _

theorem length_encode_pos (c : WireChunk) : 0 < c.encode.length :=
  List.length_pos_of_ne_nil c.encode_ne_nil

/-- Every chunk has a head. -/
theorem length_le_encodeAll (cs : List WireChunk) : cs.length ≤ (encodeAll cs).length := by
  induction cs with
  | nil => exact Nat.le_refl 0
  | cons c cs ih =>
    have hpos := c.length_encode_pos
    rw [encodeAll_cons, List.length_append, List.length_cons]
    omega

theorem encodeAll_append (cs cs' : List WireChunk) :
    encodeAll (cs ++ cs') = encodeAll cs ++ encodeAll cs' := List.flatMap_append

end WireChunk

open WireChunk

/-! ## What a reception leaves -/

/-- The value of an RSSI chunk; one of another length has none. -/
def Chunk.rssi (c : Chunk) : Option UInt8 :=
  if c.command = fifocmdRssi ∧ c.body.length = 1 then c.body.head? else none

/-- The payload and the RSSI that `ReceiveData` keeps. -/
structure Received where
  payload : List UInt8 := []
  rssi : Int := 0

/-- A chunk replaces what it has a newer value of. -/
def Received.step (offset : Int) (s : Received) (c : Chunk) : Received where
  payload := c.payload.getD s.payload
  rssi := (c.rssi.map fun b => i8 b - offset).getD s.rssi

/-- The newest payload and the newest RSSI are kept. -/
theorem foldl_step (offset : Int) (cs : List Chunk) (s : Received) :
    cs.foldl (Received.step offset) s =
      { payload := (newest Chunk.payload cs).getD s.payload
        rssi := ((newest Chunk.rssi cs).map fun b => i8 b - offset).getD s.rssi } := by
  rw [← foldl_getD, ← newest_map, ← foldl_getD]
  induction cs generalizing s with
  | nil => rfl
  | cons c cs ih => exact ih (s.step offset c)

/-- The device holds a payload and an RSSI, the payload at the front of `RXBuff`. -/
structure Ax5043.Keeps (dev : Ax5043) (s : Received) : Prop where
  rxLen : dev.rxLen = s.payload.length
  rxBuff : dev.rxBuff.toList.take dev.rxLen = s.payload
  rssi : dev.ubRssi = s.rssi

namespace Ax5043

variable (dev : Ax5043)

theorem spiReadFrom_rssi (i n : Nat) : (dev.spiReadFrom i n).ubRssi = dev.ubRssi ∧
    (dev.spiReadFrom i n).rssiOffset = dev.rssiOffset := by
  induction n generalizing dev i with
  | zero => exact ⟨rfl, rfl⟩
  | succ n ih => exact ih (dev.readFifo.2.store i dev.readFifo.1) (i + 1)

/-- The transfer puts what it reads to the front of the buffer. -/
theorem take_spiReadData {n : Nat} (hn : n ≤ 64) :
    (dev.spiReadData n).rxBuff.toList.take n = (dev.fifo.take n).1 := by
  rw [dev.toList_spiReadData hn, List.take_left' (dev.fifo.length_take n)]

/-- A chunk is kept, whatever its command. -/
theorem receiveCommand_keeps {s : Received} (h : Keeps dev s) (c n : Nat)
    (hp : ∀ p ∈ Chunk.payload ⟨c, (dev.fifo.take n).1⟩, p.length ≤ 64) :
    Keeps (dev.receiveCommand c n) (s.step dev.rssiOffset ⟨c, (dev.fifo.take n).1⟩) ∧
      (dev.receiveCommand c n).rssiOffset = dev.rssiOffset := by
  have hlen := dev.fifo.length_take n
  -- a chunk that is neither data nor an RSSI of one byte
  have hskip : Chunk.payload ⟨c, (dev.fifo.take n).1⟩ = none →
      Chunk.rssi ⟨c, (dev.fifo.take n).1⟩ = none → ∀ dev' : Ax5043, dev'.rxLen = dev.rxLen →
      dev'.rxBuff = dev.rxBuff → dev'.ubRssi = dev.ubRssi → dev'.rssiOffset = dev.rssiOffset →
      Keeps dev' (s.step dev.rssiOffset ⟨c, (dev.fifo.take n).1⟩) ∧
        dev'.rssiOffset = dev.rssiOffset := by
    intro hpayload hrssi dev' hl hb hr ho
    refine ⟨⟨?_, ?_, ?_⟩, ho⟩
    · rw [hl, Received.step, hpayload]
      exact h.rxLen
    · rw [hl, hb, Received.step, hpayload]
      exact h.rxBuff
    · rw [hr, Received.step, hrssi]
      exact h.rssi
  unfold receiveCommand
  split
  · cases n with
    | zero => exact hskip rfl rfl _ rfl rfl rfl rfl
    | succ k =>
      have hk : (dev.fifo.pop.2.take k).1.length = k := dev.fifo.pop.2.length_take k
      have hk64 : k ≤ 64 := by
        rw [← hk]
        exact hp _ rfl
      obtain ⟨hr, ho⟩ := (dev.skip 1).spiReadFrom_rssi 0 k
      refine ⟨⟨hk.symm, ?_, ?_⟩, ho⟩
      · exact (dev.skip 1).take_spiReadData hk64
      · exact hr.trans h.rssi
  · split
    · exact hskip rfl rfl _ rfl rfl rfl rfl
    · exact hskip rfl rfl _ rfl rfl rfl rfl
  · split
    · next h1 =>
      exact hskip rfl (if_neg fun hc => h1 (hlen.symm.trans hc.2)) _ rfl rfl rfl rfl
    · next h1 =>
      obtain rfl : n = 1 := Decidable.not_not.1 h1
      exact ⟨⟨h.rxLen, h.rxBuff, rfl⟩, rfl⟩
  · split
    · exact hskip rfl rfl _ rfl rfl rfl rfl
    · exact hskip rfl rfl _ rfl rfl rfl rfl
  · split
    · exact hskip rfl rfl _ rfl rfl rfl rfl
    · exact hskip rfl rfl _ rfl rfl rfl rfl
  · next hdata _ hrssi _ _ =>
    exact hskip (if_neg hdata) (if_neg fun hc => hrssi hc.1) _ rfl rfl rfl rfl

/-! ## The loop -/

/-- A turn of the loop takes the chunk in front. -/
theorem receiveChunk_encode {dev : Ax5043} {c : WireChunk} {rest : List UInt8}
    {idle : Nat → UInt8} (h : dev.fifo = ⟨c.encode ++ rest, idle⟩) :
    dev.receiveChunk.fifo = ⟨rest, idle⟩ := by
  rw [dev.receiveChunk_spec.1, h, nextChunk_encode]

/-- A turn of the loop keeps what the chunk in front has. -/
theorem Keeps.receiveChunk {dev : Ax5043} {s : Received} (h : Keeps dev s) {c : WireChunk}
    {rest : List UInt8} {idle : Nat → UInt8} (hfifo : dev.fifo = ⟨c.encode ++ rest, idle⟩)
    (hp : ∀ p ∈ c.payload, p.length ≤ 64) :
    Keeps dev.receiveChunk (s.step dev.rssiOffset c.toChunk) ∧
      dev.receiveChunk.rssiOffset = dev.rssiOffset := by
  have htake : (({ dev with fifo := ⟨c.body ++ rest, idle⟩ } : Ax5043).fifo.take
      c.body.length).1 = c.body := congrArg Prod.fst (Fifo.take_append c.body rest idle)
  have hkeeps : Keeps { dev with fifo := ⟨c.body ++ rest, idle⟩ } s :=
    ⟨h.rxLen, h.rxBuff, h.rssi⟩
  have hcommand := receiveCommand_keeps _ hkeeps c.command c.body.length (by rw [htake]; exact hp)
  rw [htake] at hcommand
  rw [receiveChunk_eq, hfifo, chunkHead_encode]
  exact hcommand

/-- The loop with as many turns as there are chunks. -/
theorem turns_keeps {cs : List WireChunk} {rest : List UInt8} {idle : Nat → UInt8}
    (hp : ∀ c ∈ cs, ∀ p ∈ c.payload, p.length ≤ 64) {dev : Ax5043} {s : Received}
    (h : Keeps dev s) (hfifo : dev.fifo = ⟨encodeAll cs ++ rest, idle⟩) :
    (receiveChunk^[cs.length] dev).fifo = ⟨rest, idle⟩ ∧
      Keeps (receiveChunk^[cs.length] dev)
        ((cs.map WireChunk.toChunk).foldl (Received.step dev.rssiOffset) s) := by
  induction cs generalizing dev s with
  | nil => exact ⟨hfifo, h⟩
  | cons c cs ih =>
    rw [encodeAll_cons, List.append_assoc] at hfifo
    obtain ⟨hkeeps, hoffset⟩ := h.receiveChunk hfifo (hp c List.mem_cons_self)
    have hrest := ih (fun c' hc' => hp c' (List.mem_cons_of_mem _ hc')) hkeeps
      (receiveChunk_encode hfifo)
    rw [hoffset] at hrest
    exact hrest

/-- The loop ends behind the last chunk. -/
theorem receiveLoop_turns {cs : List WireChunk} {idle : Nat → UInt8} {dev : Ax5043}
    (hfifo : dev.fifo = ⟨encodeAll cs, idle⟩) {fuel : Nat} (hfuel : cs.length ≤ fuel) :
    receiveLoop fuel dev = receiveChunk^[cs.length] dev := by
  induction cs generalizing dev fuel with
  | nil =>
    cases fuel with
    | zero => rfl
    | succ fuel =>
      rw [receiveLoop, if_neg (by rw [hfifo]; exact not_not_intro rfl)]
      rfl
  | cons c cs ih =>
    obtain ⟨f, rfl⟩ : ∃ f, fuel = f + 1 := ⟨fuel - 1, by rw [List.length_cons] at hfuel; omega⟩
    have hne : dev.fifo.items ≠ [] := by
      rw [hfifo, encodeAll_cons]
      exact List.append_ne_nil_of_left_ne_nil c.encode_ne_nil _
    rw [receiveLoop, if_pos hne, ih (receiveChunk_encode hfifo) (Nat.le_of_succ_le_succ hfuel)]
    rfl

/-- `ReceiveData` up to its loop. -/
def cleared (dev : Ax5043) : Ax5043 :=
  { dev with ubRssi := 0, rxLen := 0, rxBuff := Vector.replicate 64 0, writes := [] }

theorem cleared_keeps (dev : Ax5043) : Keeps dev.cleared {} := ⟨rfl, rfl, rfl⟩

end Ax5043

/-- The payload of the newest data chunk that is not empty. -/
def lastPayload (cs : List WireChunk) : List UInt8 :=
  (newest (fun c : WireChunk => c.payload) cs).getD []

/-- The value of the newest RSSI chunk. -/
def lastRssiByte (cs : List WireChunk) : Option UInt8 := newest (fun c : WireChunk => c.rssi) cs

/-- The newest RSSI. -/
def lastRssi (offset : Int) (cs : List WireChunk) : Int :=
  ((lastRssiByte cs).map fun b => i8 b - offset).getD 0

/-- `ReceiveData` has read the chunks `cs` off the FIFO, one in a turn, and has kept the newest
payload and the newest RSSI. -/
structure InStep (dev : Ax5043) (cs : List WireChunk) : Prop where
  /-- Before every turn the FIFO holds the chunks that have not had their turn. -/
  boundary : ∀ j ≤ cs.length, (Ax5043.receiveChunk^[j] dev.cleared).fifo =
    ⟨WireChunk.encodeAll (cs.drop j), dev.fifo.idle⟩
  /-- The loop ends by itself. -/
  ends : ∀ fuel ≥ cs.length, Ax5043.receiveLoop fuel dev.cleared = dev.receiveData
  empty : dev.receiveData.fifo = ⟨[], dev.fifo.idle⟩
  rxLen : dev.receiveData.rxLen = (lastPayload cs).length
  rxBuff : dev.receiveData.rxBuff.toList.take dev.receiveData.rxLen = lastPayload cs
  rssi : dev.receiveData.ubRssi = lastRssi dev.rssiOffset cs

/-- **The parser stays in step** with a FIFO of whole chunks. -/
theorem receiveData_chunks {dev : Ax5043} {cs : List WireChunk}
    (hfifo : dev.fifo.items = WireChunk.encodeAll cs)
    (hp : ∀ c ∈ cs, ∀ p ∈ c.payload, p.length ≤ 64) : InStep dev cs := by
  have hcleared : dev.cleared.fifo = ⟨encodeAll cs, dev.fifo.idle⟩ := by
    rw [← hfifo]
    rfl
  have hfuel : cs.length ≤ dev.fifo.items.length := hfifo ▸ length_le_encodeAll cs
  have hloop : dev.receiveData = Ax5043.receiveChunk^[cs.length] dev.cleared :=
    Ax5043.receiveLoop_turns hcleared hfuel
  obtain ⟨hempty, hkeeps⟩ := @Ax5043.turns_keeps cs [] _ hp _ _ dev.cleared_keeps
    (by rw [List.append_nil]; exact hcleared)
  rw [← hloop] at hempty hkeeps
  simp only [foldl_step, newest, List.filterMap_map] at hkeeps
  refine ⟨fun j hj => ?_, fun fuel hf => ?_, hempty, hkeeps.rxLen, hkeeps.rxBuff, hkeeps.rssi⟩
  · have hsplit : dev.cleared.fifo =
        ⟨encodeAll (cs.take j) ++ encodeAll (cs.drop j), dev.fifo.idle⟩ := by
      rw [← encodeAll_append, List.take_append_drop, hcleared]
    have hturns := (Ax5043.turns_keeps (fun c hc => hp c (List.mem_of_mem_take hc))
      dev.cleared_keeps hsplit).1
    rwa [List.length_take_of_le hj] at hturns
  · rw [hloop]
    exact Ax5043.receiveLoop_turns hcleared hf

/-- An RSSI, a data chunk with a length byte, and chunks whose lengths their commands do not
have. -/
theorem receiveData_chunks_mixed : InStep
    (.ofFifo [0x31, 0xC8, 0xE1, 3, 3, 83, 123, 0x51, 1, 2, 0x55, 7, 8, 0x11, 0x47, 9, 9])
    [⟨⟨fifocmdRssi, [0xC8]⟩, false, by decide, by decide⟩,
      ⟨⟨fifocmdData, [3, 83, 123]⟩, true, by decide, by decide⟩,
      ⟨⟨fifocmdRssi, [1, 2]⟩, false, by decide, by decide⟩,
      ⟨⟨fifocmdAntrssi, [7, 8]⟩, false, by decide, by decide⟩,
      ⟨⟨fifocmdRssi, []⟩, false, by decide, by decide⟩,
      ⟨⟨7, [9, 9]⟩, false, by decide, by decide⟩] :=
  receiveData_chunks (by decide) (by decide)

/-! ## The packets that reach the callback -/

/-- What the callback is called with, oldest call first: the RSSI and the packet. -/
def Ax5043.handed (dev : Ax5043) : List (Int × List UInt8) :=
  dev.rxTask (fun rssi b rxLen calls => calls ++ [(rssi, b.bytes.take rxLen)]) []

/-- Chunks that bring the packets `ps`, each with its RSSI. A packet is a data chunk; its RSSI is
the first RSSI chunk behind it, which comes before the next packet. -/
inductive Brings : List WireChunk → List (List UInt8 × UInt8) → Prop
  | nil : Brings [] []
  | other {c : WireChunk} {cs : List WireChunk} {ps : List (List UInt8 × UInt8)} :
      c.command ≠ fifocmdData → Brings cs ps → Brings (c :: cs) ps
  | packet {d r : WireChunk} {mid cs : List WireChunk} {ps : List (List UInt8 × UInt8)}
      {p : List UInt8} {b : UInt8} :
      d.payload = some p → 1 ≤ p.length → p.length ≤ 64 →
      (∀ c ∈ mid, c.command ≠ fifocmdData ∧ c.rssi = none) → r.rssi = some b →
      Brings cs ps → Brings (d :: (mid ++ r :: cs)) ((p, b) :: ps)

theorem Chunk.payload_of_ne {c : Chunk} (h : c.command ≠ fifocmdData) : c.payload = none :=
  if_neg h

theorem Chunk.payload_of_rssi {c : Chunk} {b : UInt8} (h : c.rssi = some b) : c.payload = none := by
  unfold Chunk.rssi at h
  split at h
  · next hc => exact payload_of_ne (by rw [hc.1]; decide)
  · cases h

namespace Brings

variable {cs : List WireChunk} {ps : List (List UInt8 × UInt8)}

/-- The payloads are the packets. -/
theorem payloads (h : Brings cs ps) : cs.filterMap (fun c => c.payload) = ps.map Prod.fst := by
  induction h with
  | nil => rfl
  | other hc _ ih =>
    simp only [List.filterMap_cons, Chunk.payload_of_ne hc]
    exact ih
  | @packet d r mid cs ps p b hd _ _ hmid hr _ ih =>
    have hnone : mid.filterMap (fun c => c.payload) = [] :=
      List.filterMap_eq_nil_iff.2 fun c hc => Chunk.payload_of_ne (hmid c hc).1
    simp only [List.filterMap_cons, List.filterMap_append, hd, hnone, List.nil_append,
      Chunk.payload_of_rssi hr, List.map_cons]
    rw [ih]

/-- The RSSI of a packet is among the RSSI chunks. -/
theorem mem_rssi (h : Brings cs ps) : ∀ q ∈ ps, q.2 ∈ cs.filterMap fun c => c.rssi := by
  induction h with
  | nil => exact fun q hq => absurd hq List.not_mem_nil
  | @other c cs ps _ _ ih =>
    intro q hq
    obtain ⟨c', hc', hb⟩ := List.mem_filterMap.1 (ih q hq)
    exact List.mem_filterMap.2 ⟨c', List.mem_cons_of_mem _ hc', hb⟩
  | @packet d r mid cs ps p b _ _ _ _ hr _ ih =>
    intro q hq
    rcases List.mem_cons.1 hq with rfl | hq
    · exact List.mem_filterMap.2 ⟨r, by simp, hr⟩
    · obtain ⟨c, hc, hb⟩ := List.mem_filterMap.1 (ih q hq)
      exact List.mem_filterMap.2 ⟨c, by simp [hc], hb⟩

theorem length_payload (h : Brings cs ps) : ∀ q ∈ ps, 1 ≤ q.1.length ∧ q.1.length ≤ 64 := by
  induction h with
  | nil => exact fun q hq => absurd hq List.not_mem_nil
  | other _ _ ih => exact ih
  | packet _ h1 h64 _ _ _ ih =>
    intro q hq
    rcases List.mem_cons.1 hq with rfl | hq
    · exact ⟨h1, h64⟩
    · exact ih q hq

theorem payload_le (h : Brings cs ps) : ∀ c ∈ cs, ∀ p ∈ c.payload, p.length ≤ 64 := by
  intro c hc p hp
  have hmem : p ∈ ps.map Prod.fst := h.payloads ▸ List.mem_filterMap.2 ⟨c, hc, hp⟩
  obtain ⟨q, hq, rfl⟩ := List.mem_map.1 hmem
  exact (h.length_payload q hq).2

/-- The last packet is what a reception leaves. -/
theorem lastPayload_eq (h : Brings cs ps) :
    lastPayload cs = ((ps.map Prod.fst).getLast?).getD [] := by
  rw [lastPayload, newest, h.payloads]

end Brings

/-- The callback is called once at most, for the newest payload and with the newest RSSI. -/
theorem handed_eq {dev : Ax5043} {cs : List WireChunk} (h : InStep dev cs) :
    dev.handed = if lastPayload cs = [] then []
      else [(lastRssi dev.rssiOffset cs, lastPayload cs)] := by
  simp only [Ax5043.handed, Ax5043.rxTask, Ax5043.packet]
  rw [h.rxBuff, h.rxLen, h.rssi]
  by_cases he : lastPayload cs = []
  · rw [if_pos he, he]
    rfl
  · have hne : (lastPayload cs).length ≠ 0 := fun h0 => he (List.eq_nil_of_length_eq_zero h0)
    rw [if_neg he, if_pos hne]
    rfl

theorem i8_inj {a b : UInt8} (h : i8 a = i8 b) : a = b := by
  have ha := a.toNat_lt
  have hb := b.toNat_lt
  rw [← UInt8.toNat_inj]
  unfold i8 at h
  split at h <;> split at h <;> omega

/-- **Every packet reaches the callback**, with its RSSI, exactly if there is at most one and the
newest RSSI has its value. -/
theorem rxTask_packets_iff {dev : Ax5043} {cs : List WireChunk}
    {ps : List (List UInt8 × UInt8)} (h : Brings cs ps)
    (hfifo : dev.fifo.items = WireChunk.encodeAll cs) :
    dev.handed = ps.map (fun q => (i8 q.2 - dev.rssiOffset, q.1)) ↔
      ps.length ≤ 1 ∧ ∀ q ∈ ps, lastRssiByte cs = some q.2 := by
  rw [handed_eq (receiveData_chunks hfifo h.payload_le), h.lastPayload_eq]
  match ps, h with
  | [], _ => simp
  | [(p, b)], h =>
    have hp : p ≠ [] := List.ne_nil_of_length_pos (h.length_payload _ List.mem_cons_self).1
    obtain ⟨c, hc, hb⟩ := List.mem_filterMap.1 (h.mem_rssi _ List.mem_cons_self)
    have hsome : lastRssiByte cs ≠ none := by
      intro hnone
      rw [newest_eq_none.1 hnone c hc] at hb
      cases hb
    obtain ⟨b', hb'⟩ := Option.ne_none_iff_exists'.1 hsome
    have hlast : lastRssi dev.rssiOffset cs = i8 b' - dev.rssiOffset := by
      rw [lastRssi, hb', Option.map_some, Option.getD_some]
    have hbyte : i8 b' - dev.rssiOffset = i8 b - dev.rssiOffset ↔ b' = b :=
      ⟨fun he => i8_inj (by omega), fun he => by rw [he]⟩
    rw [hlast]
    simp [hp, hb', hbyte]
  | q :: q' :: ps, h =>
    have hlen : ∀ l : List (Int × List UInt8), l.length ≤ 1 →
        l ≠ (q :: q' :: ps).map (fun q => (i8 q.2 - dev.rssiOffset, q.1)) := by
      intro l hl he
      rw [he, List.length_map, List.length_cons, List.length_cons] at hl
      omega
    have hlong : ¬ (q :: q' :: ps).length ≤ 1 := by
      rw [List.length_cons, List.length_cons]
      omega
    refine iff_of_false (hlen _ ?_) fun hle => hlong hle.1
    split
    · exact Nat.zero_le 1
    · exact Nat.le_refl 1

/-- A packet of two bytes with its RSSI. -/
def packetChunks (b : UInt8) : List WireChunk :=
  [⟨⟨fifocmdData, [3, 83, b]⟩, false, of_decide_eq_true rfl, of_decide_eq_true rfl⟩,
    ⟨⟨fifocmdRssi, [0xC8]⟩, false, by decide, by decide⟩]

/-- The usual FIFO: one packet. -/
theorem rxTask_packets_iff_one :
    (Ax5043.ofFifo [0x61, 3, 83, 65, 0x31, 0xC8]).handed = [(-56, [83, 65])] ↔
      [([83, 65], 0xC8)].length ≤ 1 ∧
        ∀ q ∈ [(([83, 65] : List UInt8), (0xC8 : UInt8))],
          lastRssiByte (packetChunks 65) = some q.2 :=
  @rxTask_packets_iff _ (packetChunks 65) _
    (@Brings.packet _ _ [] _ _ _ _ rfl (by decide) (by decide) (by decide) rfl .nil) (by decide)

/-- Of two packets that wait in the FIFO the older one is lost. -/
theorem rxTask_two_packets :
    let ps : List (List UInt8 × UInt8) := [([83, 65], 0xC8), ([83, 66], 0xC8)]
    let cs := packetChunks 65 ++ packetChunks 66
    let dev := Ax5043.ofFifo (WireChunk.encodeAll cs)
    Brings cs ps ∧ dev.handed = [(-56, [83, 66])] ∧
      dev.handed ≠ ps.map fun q => (i8 q.2 - dev.rssiOffset, q.1) :=
  ⟨@Brings.packet _ _ [] _ _ _ _ rfl (by decide) (by decide) (by decide) rfl
    (@Brings.packet _ _ [] _ _ _ _ rfl (by decide) (by decide) (by decide) rfl .nil),
    by decide, by decide⟩

end Spsi
