import SpsiMaster.Radio.Transmit

/-!
# The transmit FIFO

`TransmitData` writes a packet piece by piece, and looks at the free space before each piece. When
the space is short it commits what it has written and runs on into the end of the packet
(`fifocommit:`), so the packet is reported sent. A packet of less than 11 bytes takes the same way.

`reported_written_iff`: a packet is written before it is reported sent exactly if the space is
there at every look and the packet has 11 bytes at least.
-/

namespace Spsi

open Run

namespace Transmitter

/-! ## Pieces -/

/-- The free space that turn `i` of the loop sees. -/
def room (dev : Transmitter) (i : Nat) : UInt8 :=
  if dev.reads .fifofree1 i ≠ 0 then 0xff else dev.reads .fifofree0 i

/-- What is written with one look at the free space, and the space that is asked for. -/
structure Piece where
  need : UInt8
  bytes : List UInt8
  /-- The preamble bits in it. -/
  bits : Nat := 0

/-- The whole bytes of a preamble of `len` bits, repeated by the chip. -/
def repeatPieces (dev : Transmitter) (len : UInt8) : List Piece :=
  if len / 8 ≠ 0 then
    [⟨4, [0x62, dev.config.preambleFlags, len / 8, dev.config.preambleByte], 8 * (len / 8).toNat⟩]
  else []

/-- A byte with the bits that are left over. -/
def tailPieces (dev : Transmitter) (bits : UInt8) : List Piece :=
  if bits ≠ 0 then
    [⟨4, [0x41, 0x1C, stopBit (dev.reads .pktaddrcfg 0) dev.config.preambleByte bits], bits.toNat⟩]
  else []

def preamblePieces (dev : Transmitter) : List Piece :=
  dev.repeatPieces dev.config.preambleLen ++ dev.tailPieces (dev.config.preambleLen % 8)

/-- The pieces after the preamble: the sync word and, if the code writes it at all, the packet. -/
def body (dev : Transmitter) : List Piece :=
  ⟨15, syncChunk dev.config, 0⟩ :: if dev.txLen < 11 then [] else [⟨0, dev.packetChunk, 0⟩]

/-- The pieces that are written before the space is short. -/
def sent (room : Nat → UInt8) : List Piece → List UInt8
  | [] => []
  | p :: ps => if room 0 < p.need then [] else p.bytes ++ sent (fun i => room (i + 1)) ps

/-- Whole bytes and left over bits are the preamble. -/
theorem preamblePieces_bits (dev : Transmitter) :
    (dev.preamblePieces.map Piece.bits).sum = dev.config.preambleLen.toNat := by
  have hrepeat : ∀ len, ((dev.repeatPieces len).map Piece.bits).sum = 8 * (len / 8).toNat := by
    intro len
    unfold repeatPieces
    split
    · rfl
    · next h => rw [not_not.1 h]; rfl
  have htail : ∀ bits, ((dev.tailPieces bits).map Piece.bits).sum = bits.toNat := by
    intro bits
    unfold tailPieces
    split
    · rfl
    · next h => rw [not_not.1 h]; rfl
  rw [preamblePieces, List.map_append, List.sum_append, hrepeat, htail, UInt8.toNat_div,
    UInt8.toNat_mod]
  exact Nat.div_add_mod _ 8

theorem preamblePieces_need (dev : Transmitter) : ∀ p ∈ dev.preamblePieces, p.need = 4 := by
  intro p hp
  rcases List.mem_append.1 hp with hp | hp
  · unfold repeatPieces at hp
    split at hp
    · rw [List.mem_singleton.1 hp]
    · cases hp
  · unfold tailPieces at hp
    split at hp
    · rw [List.mem_singleton.1 hp]
    · cases hp

theorem preamblePieces_bytes (dev : Transmitter) : ∀ p ∈ dev.preamblePieces, p.bytes ≠ [] := by
  intro p hp
  rcases List.mem_append.1 hp with hp | hp
  · unfold repeatPieces at hp
    split at hp
    · rw [List.mem_singleton.1 hp]
      exact List.cons_ne_nil _ _
    · cases hp
  · unfold tailPieces at hp
    split at hp
    · rw [List.mem_singleton.1 hp]
      exact List.cons_ne_nil _ _
    · cases hp

theorem length_sent_le (room : Nat → UInt8) (ps : List Piece) :
    (sent room ps).length ≤ (ps.flatMap Piece.bytes).length := by
  induction ps generalizing room with
  | nil => exact Nat.le_refl 0
  | cons p ps ih =>
    rw [sent, List.flatMap_cons]
    split
    · exact Nat.zero_le _
    · simpa using ih fun i => room (i + 1)

/-- Everything is written exactly if the space is there at every look. -/
theorem sent_eq_iff {room : Nat → UInt8} {ps : List Piece} (hne : ∀ p ∈ ps, p.bytes ≠ []) :
    sent room ps = ps.flatMap Piece.bytes ↔ ∀ i p, ps[i]? = some p → p.need ≤ room i := by
  induction ps generalizing room with
  | nil => exact ⟨fun _ _ _ h => (nomatch h), fun _ => rfl⟩
  | cons p ps ih =>
    have ih := @ih (fun i => room (i + 1)) fun q hq => hne q (List.mem_cons_of_mem _ hq)
    rw [sent, List.flatMap_cons]
    split
    · next hr =>
      refine ⟨fun h => ?_, fun h => ?_⟩
      · exact absurd (List.append_eq_nil_iff.1 h.symm).1 (hne p List.mem_cons_self)
      · exact absurd (h 0 p rfl) (UInt8.not_le.2 hr)
    · next hr =>
      rw [List.append_cancel_left_eq, ih]
      refine ⟨fun h i q hq => ?_, fun h i q hq => h (i + 1) q hq⟩
      cases i with
      | zero =>
        obtain rfl : p = q := Option.some.inj hq
        exact UInt8.not_lt.1 hr
      | succ i => exact h i q hq

/-! ## Turns of the loop -/

/-- The device after a look at the free space. -/
def polled (dev : Transmitter) : Transmitter := ((dev.read .fifofree0).2.read .fifofree1).2

theorem polled_room (dev : Transmitter) (i : Nat) : dev.polled.room i = dev.room (i + 1) := by
  simp [polled, room, read]

theorem polled_reads (dev : Transmitter) (r : Reg) (h0 : r ≠ .fifofree0) (h1 : r ≠ .fifofree1) :
    dev.polled.reads r = dev.reads r := by
  simp [polled, read, h0, h1]

theorem turn_eq (dev : Transmitter) : dev.turn =
    match dev.ubRFState with
    | .txLongpreamble => dev.polled.longpreamble (dev.room 0)
    | .txShortpreamble => dev.polled.shortpreamble (dev.room 0)
    | .txPacket => dev.polled.packet
    | _ => .done dev.polled := by
  have hfree : (if (dev.read .fifofree0).2.reads .fifofree1 0 ≠ 0 then 0xff
      else dev.reads .fifofree0 0) = dev.room 0 := by simp [read, room]
  rw [← hfree]
  rfl

/-- A sync word is sent: `FRAMING` reads 0x26, there is a sync word and nothing in front of it. -/
structure Syncs (dev : Transmitter) : Prop where
  framing : ∀ i, dev.reads .framing i = 0x26
  synclen : dev.config.framingSynclen ≠ 0
  appendbits : dev.config.preambleAppendbits = 0

theorem Syncs.of_eq {dev d : Transmitter} (hs : dev.Syncs)
    (hframing : d.reads .framing = dev.reads .framing) (hconfig : d.config = dev.config) :
    d.Syncs where
  framing := by
    rw [hframing]
    exact hs.framing
  synclen := by
    rw [hconfig]
    exact hs.synclen
  appendbits := by
    rw [hconfig]
    exact hs.appendbits

/-- From here on the call writes the pieces `ps` as far as the space goes, and reports the packet
sent. -/
def Writes (dev : Transmitter) (ps : List Piece) : Prop :=
  ∀ turns, ps.length < turns → ∃ dev', dev.transmitData turns = some dev' ∧
    dev'.ubRFState = .txWaitdone ∧ dev'.fifo = dev.fifo ++ sent dev.room ps

/-- The call ends without another piece. -/
theorem Writes.nil {dev dev' : Transmitter} (h : dev.turn = .done dev')
    (hs : dev'.ubRFState = .txWaitdone) (hf : dev'.fifo = dev.fifo) : Writes dev [] := by
  intro turns ht
  obtain ⟨n, rfl⟩ := Nat.exists_eq_succ_of_ne_zero (Nat.ne_of_gt ht)
  exact ⟨dev', by rw [transmitData, h], hs, by rw [hf]; exact (List.append_nil _).symm⟩

/-- A piece is written in a turn, or the space is short and the call ends. -/
theorem Writes.cons {dev : Transmitter} {p : Piece} {ps : List Piece}
    (hshort : dev.room 0 < p.need →
      ∃ dev', dev.turn = .done dev' ∧ dev'.ubRFState = .txWaitdone ∧ dev'.fifo = dev.fifo)
    (hnext : ¬ dev.room 0 < p.need → ∃ dev', dev.turn = .again dev' ∧
      dev'.fifo = dev.fifo ++ p.bytes ∧ (∀ i, dev'.room i = dev.room (i + 1)) ∧
      Writes dev' ps) : Writes dev (p :: ps) := by
  intro turns ht
  obtain ⟨n, rfl⟩ : ∃ n, turns = n + 1 := ⟨turns - 1, by omega⟩
  rw [sent]
  by_cases hr : dev.room 0 < p.need
  · obtain ⟨dev', h, hs, hf⟩ := hshort hr
    rw [if_pos hr, List.append_nil]
    exact ⟨dev', by rw [transmitData, h], hs, hf⟩
  · obtain ⟨dev', h, hf, hroom, hw⟩ := hnext hr
    obtain ⟨dev'', he, hs, hf'⟩ := hw n (by simpa using ht)
    refine ⟨dev'', by rw [transmitData, h]; exact he, hs, ?_⟩
    rw [hf', hf, if_neg hr, List.append_assoc, funext hroom]

theorem writes_packet {dev : Transmitter} (h : dev.ubRFState = .txPacket) :
    Writes dev (if dev.txLen < 11 then [] else [⟨0, dev.packetChunk, 0⟩]) := by
  have hturn : dev.turn = dev.polled.packet := by rw [turn_eq, h]
  have hlen : dev.polled.txLen = dev.txLen := rfl
  rw [packet, hlen] at hturn
  split
  · next hl =>
    rw [if_pos hl] at hturn
    exact .nil hturn rfl rfl
  · next hl =>
    rw [if_neg hl] at hturn
    intro turns ht
    obtain ⟨n, rfl⟩ : ∃ n, turns = n + 1 := ⟨turns - 1, by omega⟩
    refine ⟨_, by rw [transmitData, hturn]; rfl, rfl, ?_⟩
    have hroom : ¬ dev.room 0 < 0 := by simp
    simp only [sent, if_neg hroom, List.append_nil]
    rfl

theorem writes_body {dev : Transmitter} (hs : dev.Syncs) (h : dev.ubRFState = .txShortpreamble)
    (hcnt : dev.txbufferCnt = 0) : Writes dev dev.body := by
  have hturn : dev.turn = dev.polled.shortpreamble (dev.room 0) := by rw [turn_eq, h]
  have hcnt' : dev.polled.txbufferCnt = 0 := hcnt
  rw [shortpreamble, if_pos hcnt'] at hturn
  refine .cons (fun hr => ?_) fun hr => ?_
  · rw [if_pos hr] at hturn
    exact ⟨_, hturn, rfl, rfl⟩
  · have happend : ¬ dev.polled.config.preambleAppendbits ≠ 0 := not_not.2 hs.appendbits
    have hframing : (dev.polled.read .framing).1 = 0x26 :=
      (congrFun (dev.polled_reads .framing nofun nofun) 0).trans (hs.framing 0)
    simp only [if_neg hr, if_neg happend, hframing] at hturn
    rw [if_pos ⟨by decide, hs.synclen⟩] at hturn
    obtain ⟨d, hd, hfifo, hstate, hroom, hlen, hchunk⟩ : ∃ d, dev.turn = .again d ∧
        d.fifo = dev.fifo ++ syncChunk dev.config ∧ d.ubRFState = .txPacket ∧
        (∀ i, d.room i = dev.polled.room i) ∧ d.txLen = dev.txLen ∧
        d.packetChunk = dev.packetChunk :=
      ⟨_, hturn, by simp [read, write, polled], rfl, fun i => by simp [room, read, write],
        by simp [read, write, polled], by simp [packetChunk, read, write, polled]⟩
    refine ⟨d, hd, hfifo, fun i => ?_, ?_⟩
    · rw [hroom, polled_room]
    · have hw := writes_packet hstate
      rw [hlen, hchunk] at hw
      exact hw

/-! ## The preamble -/

/-- The count of whole bytes, as the code computes it. -/
theorem cnt_bytes (n : UInt8) : (if n.toUInt32 < 255 * 8 then (n.toUInt32 >>> 3).toUInt8 else 255) =
    n / 8 := by
  have hn := n.toNat_lt
  have hlt : n.toUInt32 < 255 * 8 := by
    rw [UInt32.lt_iff_toNat_lt]
    simp
    omega
  rw [if_pos hlt]
  apply UInt8.toNat_inj.1
  simp [UInt32.toNat_shiftRight, Nat.shiftRight_eq_div_pow]
  omega

/-- What is left after the whole bytes. -/
theorem cnt_rest (n : UInt8) : n.toUInt32 - ((n / 8).toUInt32 <<< 3) = (n % 8).toUInt32 := by
  have hn := n.toNat_lt
  apply UInt32.toNat_inj.1
  simp [UInt32.toNat_sub, UInt32.toNat_shiftLeft, Nat.shiftLeft_eq]
  omega

theorem cnt_ne_zero {n : UInt8} (h : n ≠ 0) : ¬ n.toUInt32 = 0 := by
  intro h0
  have := congrArg UInt32.toUInt8 h0
  simp at this
  exact h this

/-- A turn on a preamble that is not finished. -/
theorem turn_preamble {dev : Transmitter} (h : dev.ubRFState = .txShortpreamble) {n : UInt8}
    (hn : n ≠ 0) (hcnt : dev.txbufferCnt = n.toUInt32) :
    dev.turn = dev.polled.preamble (dev.room 0) := by
  have hcnt0 : ¬ dev.polled.txbufferCnt = 0 := by
    rw [show dev.polled.txbufferCnt = _ from hcnt]
    exact cnt_ne_zero hn
  rw [turn_eq, h]
  exact if_neg hcnt0

/-- The bits that are left over and what comes after them. -/
theorem writes_tail {dev : Transmitter} (hs : dev.Syncs) (h : dev.ubRFState = .txShortpreamble)
    {bits : UInt8} (hbits : bits < 8) (hcnt : dev.txbufferCnt = bits.toUInt32) :
    Writes dev (dev.tailPieces bits ++ dev.body) := by
  unfold tailPieces
  split
  · next hne =>
    have hturn := turn_preamble h hne hcnt
    have hcnt' : dev.polled.txbufferCnt = bits.toUInt32 := hcnt
    have hcount : bits / 8 = 0 := by grind
    rw [preamble] at hturn
    refine .cons (fun hr => ?_) fun hr => ?_
    · rw [if_pos hr] at hturn
      exact ⟨_, hturn, rfl, rfl⟩
    · simp only [if_neg hr, hcnt', cnt_bytes, hcount, ne_eq, not_true_eq_false, if_false] at hturn
      obtain ⟨d, hd, hfifo, hstate, hleft, hroom, hframing, hconfig, hbody⟩ :
          ∃ d, dev.turn = .again d ∧ d.fifo = dev.fifo ++ [0x41, 0x1C,
            stopBit (dev.polled.read .pktaddrcfg).1 dev.config.preambleByte bits] ∧
          d.ubRFState = .txShortpreamble ∧ d.txbufferCnt = 0 ∧
          (∀ i, d.room i = dev.polled.room i) ∧ d.reads .framing = dev.reads .framing ∧
          d.config = dev.config ∧ d.body = dev.body :=
        ⟨_, hturn, by simp [read, write, polled], h, by simp [read, write],
          fun i => by simp [room, read, write], by simp [read, write, polled],
          by simp [read, write, polled], by simp [body, packetChunk, read, write, polled]⟩
      refine ⟨d, hd, hfifo, fun i => ?_, ?_⟩
      · rw [hroom, polled_room]
      · have hw := writes_body (hs.of_eq hframing hconfig) hstate hleft
        rw [hbody] at hw
        exact hw
  · next hzero =>
    have hcnt0 : dev.txbufferCnt = 0 := by
      rw [hcnt, not_not.1 hzero]
      rfl
    exact writes_body hs h hcnt0

theorem writes_repeat {dev : Transmitter} (hs : dev.Syncs) (h : dev.ubRFState = .txShortpreamble)
    {len : UInt8} (hcnt : dev.txbufferCnt = len.toUInt32) :
    Writes dev (dev.repeatPieces len ++ (dev.tailPieces (len % 8) ++ dev.body)) := by
  unfold repeatPieces
  split
  · next hne =>
    have hn : len ≠ 0 := by
      rintro rfl
      exact hne rfl
    have hturn := turn_preamble h hn hcnt
    have hcnt' : dev.polled.txbufferCnt = len.toUInt32 := hcnt
    rw [preamble] at hturn
    refine .cons (fun hr => ?_) fun hr => ?_
    · rw [if_pos hr] at hturn
      exact ⟨_, hturn, rfl, rfl⟩
    · simp only [if_neg hr, hcnt', cnt_bytes, if_pos hne] at hturn
      obtain ⟨d, hd, hfifo, hstate, hleft, hreads, hconfig, hbody⟩ : ∃ d, dev.turn = .again d ∧
          d.fifo = dev.fifo ++ [0x62, dev.config.preambleFlags, len / 8, dev.config.preambleByte] ∧
          d.ubRFState = .txShortpreamble ∧ d.txbufferCnt = (len % 8).toUInt32 ∧
          d.reads = dev.polled.reads ∧ d.config = dev.config ∧ d.body = dev.body :=
        ⟨_, hturn, rfl, h, cnt_rest len, rfl, rfl, rfl⟩
      have hsame : ∀ r, r ≠ .fifofree0 → r ≠ .fifofree1 → d.reads r = dev.reads r := by
        intro r h0 h1
        rw [hreads, dev.polled_reads r h0 h1]
      have hsyncs : d.Syncs := hs.of_eq (hsame .framing nofun nofun) hconfig
      have hlt : len % 8 < 8 := by grind
      have hw : Writes d (d.tailPieces (len % 8) ++ d.body) := writes_tail hsyncs hstate hlt hleft
      refine ⟨d, hd, hfifo, fun i => ?_, ?_⟩
      · rw [← polled_room, room, room, hreads]
      · rw [hbody, tailPieces, hsame .pktaddrcfg nofun nofun, hconfig] at hw
        exact hw
  · next hzero =>
    have hlt : len < 8 := by grind
    have hmod : len % 8 = len := by grind
    rw [hmod]
    exact writes_tail hs h hlt hcnt

/-- A call in `trxstate_tx_longpreamble` with no long preamble to send. -/
theorem writes_longpreamble {dev : Transmitter} (hs : dev.Syncs)
    (h : dev.ubRFState = .txLongpreamble) (hcnt : dev.txbufferCnt = 0) :
    Writes dev (dev.preamblePieces ++ dev.body) := by
  have hturn : dev.turn = turn { dev with
      ubRFState := .txShortpreamble, txbufferCnt := dev.config.preambleLen.toUInt32 } := by
    rw [turn_eq, h, turn_eq]
    exact if_pos hcnt
  have hw := @writes_repeat { dev with
    ubRFState := .txShortpreamble, txbufferCnt := dev.config.preambleLen.toUInt32 }
    ⟨hs.framing, hs.synclen, hs.appendbits⟩ rfl dev.config.preambleLen rfl
  rw [← List.append_assoc] at hw
  intro turns ht
  obtain ⟨n, rfl⟩ : ∃ n, turns = n + 1 := ⟨turns - 1, by omega⟩
  rw [transmitData, hturn]
  exact hw (n + 1) ht

end Transmitter

/-! ## Packets -/

open Transmitter

/-- The states in which the radio task calls `TransmitData` on an interrupt. -/
def RfState.fills : RfState → Bool
  | .txLongpreamble | .txShortpreamble | .txPacket => true
  | _ => false

/-- The calls of `TransmitData` on interrupts, each with a bound on its turns. -/
def fifoFreeStep : Step Transmitter Nat := fun dev turns =>
  if dev.ubRFState.fills then dev.transmitData turns else none

/-- From `base` on the preamble, the sync word and the packet have been written, each once and in
this order; the preamble has its bits. -/
def Written (base dev : Transmitter) : Prop :=
  dev.fifo = base.fifo ++ (base.preamblePieces.flatMap Piece.bytes ++ syncChunk base.config ++
    base.packetChunk) ∧
  (base.preamblePieces.map Piece.bits).sum = base.config.preambleLen.toNat

/-- A packet that is reported sent has been written, any other is still being written. -/
def ReportedWritten (base dev : Transmitter) : Prop :=
  if dev.ubRFState = .txWaitdone then Written base dev else dev.ubRFState.fills = true

/-- The free space is there at every look: 4 bytes for a piece of the preamble, 15 for the sync
word. -/
def HasRoom (dev : Transmitter) : Prop :=
  (∀ i < dev.preamblePieces.length, 4 ≤ dev.room i) ∧ 15 ≤ dev.room dev.preamblePieces.length

section
variable {dev : Transmitter} (hlen : ¬ dev.txLen < 11)
include hlen

theorem body_eq : dev.body = [⟨15, syncChunk dev.config, 0⟩, ⟨0, dev.packetChunk, 0⟩] := by
  rw [body, if_neg hlen]

theorem pieces_bytes : ∀ p ∈ dev.preamblePieces ++ dev.body, p.bytes ≠ [] := by
  intro p hp
  rcases List.mem_append.1 hp with hp | hp
  · exact preamblePieces_bytes dev p hp
  · rw [body_eq hlen] at hp
    rcases List.mem_cons.1 hp with rfl | hp
    · exact List.cons_ne_nil _ _
    · rw [List.mem_singleton.1 hp]
      exact List.cons_ne_nil _ _

/-- The space that the pieces need, one by one. -/
theorem pieces_need_iff : (∀ i p, (dev.preamblePieces ++ dev.body)[i]? = some p →
    p.need ≤ dev.room i) ↔ HasRoom dev := by
  refine ⟨fun h => ⟨fun i hi => ?_, ?_⟩, fun h i p hp => ?_⟩
  · have hget := List.getElem?_eq_getElem hi
    have hneed := h i _ ((List.getElem?_append_left hi).trans hget)
    rwa [preamblePieces_need dev _ (List.getElem_mem hi)] at hneed
  · refine h _ ⟨15, syncChunk dev.config, 0⟩ ?_
    rw [List.getElem?_append_right (Nat.le_refl _), Nat.sub_self, body_eq hlen]
    rfl
  · by_cases hi : i < dev.preamblePieces.length
    · rw [List.getElem?_append_left hi] at hp
      rw [preamblePieces_need dev p (List.mem_of_getElem? hp)]
      exact h.1 i hi
    · obtain ⟨k, rfl⟩ := Nat.exists_eq_add_of_le (Nat.not_lt.1 hi)
      rw [List.getElem?_append_right (Nat.le_add_right _ k), Nat.add_sub_cancel_left,
        body_eq hlen] at hp
      match k with
      | 0 =>
        obtain rfl : _ = p := Option.some.inj hp
        exact h.2
      | 1 =>
        obtain rfl : _ = p := Option.some.inj hp
        exact UInt8.zero_le
      | _ + 2 => cases hp

end

/-- What is written is the whole packet exactly if the space is there and the code does not skip
the packet. -/
theorem sent_whole_iff (dev : Transmitter) :
    sent dev.room (dev.preamblePieces ++ dev.body) =
      dev.preamblePieces.flatMap Piece.bytes ++ syncChunk dev.config ++ dev.packetChunk ↔
    HasRoom dev ∧ 11 ≤ dev.txLen := by
  by_cases hlen : dev.txLen < 11
  · -- the packet is missing, so there is less of it
    refine ⟨fun h => ?_, fun h => absurd hlen (UInt8.not_lt.2 h.2)⟩
    have hle := length_sent_le dev.room (dev.preamblePieces ++ dev.body)
    rw [h, body, if_pos hlen] at hle
    simp [packetChunk] at hle
  · have hall : (dev.preamblePieces ++ dev.body).flatMap Piece.bytes =
        dev.preamblePieces.flatMap Piece.bytes ++ syncChunk dev.config ++ dev.packetChunk := by
      simp [body_eq hlen]
    rw [← hall, sent_eq_iff (pieces_bytes hlen), pieces_need_iff hlen,
      and_iff_left (UInt8.not_lt.1 hlen)]

/-- A call that ends has had enough turns. -/
theorem transmitData_unique {dev d d' : Transmitter} {m n : Nat}
    (h : dev.transmitData m = some d) (h' : dev.transmitData n = some d') : d = d' := by
  induction m generalizing dev n with
  | zero => cases h
  | succ m ih =>
    cases n with
    | zero => cases h'
    | succ n =>
      rw [transmitData] at h h'
      cases ht : dev.turn with
      | again dev' =>
        rw [ht] at h h'
        exact ih h h'
      | done dev' =>
        rw [ht] at h h'
        exact Option.some.inj (h.symm.trans h')

/-- The device at the first call of `TransmitData`. -/
theorem Transmitter.xtalReady_spec (dev : Transmitter) :
    dev.xtalReady.ubRFState = .txLongpreamble ∧ dev.xtalReady.txbufferCnt = dev.txbufferCnt ∧
    dev.xtalReady.txLen = dev.txLen ∧ dev.xtalReady.config = dev.config ∧
    dev.xtalReady.reads .framing = dev.reads .framing := by
  by_cases h : dev.reads .modulation 0 &&& 0x0F = 9 <;>
    simp [Transmitter.xtalReady, Transmitter.read, Transmitter.write, h]

/-- **A packet is not reported sent before it is written** exactly if the free space is there at
every look of `TransmitData` and the packet has at least 10 bytes. -/
theorem reported_written_iff (dev : Transmitter) (buf : List UInt8) {length : UInt8}
    (hlength : length ≤ 63) (hframing : ∀ i, dev.reads .framing i = 0x26)
    (hsynclen : dev.config.framingSynclen ≠ 0) (happend : dev.config.preambleAppendbits = 0) :
    (∀ as, Along fifoFreeStep (ReportedWritten (dev.normalSend buf length).xtalReady)
      (dev.normalSend buf length).xtalReady as) ↔
    HasRoom (dev.normalSend buf length).xtalReady ∧ 10 ≤ length := by
  generalize hbase : (dev.normalSend buf length).xtalReady = base
  have hstart : base.ubRFState = .txLongpreamble ∧ base.txbufferCnt = 0 ∧
      base.txLen = length + 1 ∧ base.Syncs := by
    obtain ⟨hs, hc, hl, hconfig, hreads⟩ := (dev.normalSend buf length).xtalReady_spec
    rw [hbase] at hs hc hl hconfig hreads
    have hsent : (dev.normalSend buf length).Syncs :=
      ⟨fun i => by simpa [normalSend, transmitPacketTask, Transmitter.read] using hframing i,
        hsynclen, happend⟩
    exact ⟨hs, hc, hl, hsent.of_eq hreads hconfig⟩
  obtain ⟨hstate, hcnt, hlen, hsyncs⟩ := hstart
  have hlen' : 11 ≤ base.txLen ↔ 10 ≤ length := by
    rw [hlen]
    grind
  have hw : Writes base (base.preamblePieces ++ base.body) := writes_longpreamble hsyncs hstate hcnt
  rw [← hlen', ← sent_whole_iff]
  have hfills : base.ubRFState.fills = true := by rw [hstate]; rfl
  refine ⟨fun h => ?_, fun h as => ?_⟩
  · obtain ⟨d, hd, hdone, hfifo⟩ := hw _ (Nat.lt_succ_self _)
    have hstep : fifoFreeStep base _ = some d := (if_pos hfills).trans hd
    have hreported := ((h [_]).2 d hstep).head
    rw [ReportedWritten, if_pos hdone] at hreported
    exact List.append_cancel_left (hfifo.symm.trans hreported.1)
  · have hhere : ReportedWritten base base := by
      rw [ReportedWritten, if_neg (by rw [hstate]; decide)]
      exact hfills
    cases as with
    | nil => exact hhere
    | cons n as =>
      refine ⟨hhere, fun d hd => ?_⟩
      obtain ⟨d', hd', hdone, hfifo⟩ := hw _ (Nat.lt_succ_self _)
      obtain rfl : d' = d := transmitData_unique hd' ((if_pos hfills).symm.trans hd)
      have hthere : ReportedWritten base d' := by
        rw [ReportedWritten, if_pos hdone]
        exact ⟨by rw [hfifo, h], preamblePieces_bits base⟩
      cases as with
      | nil => exact hthere
      | cons m as =>
        refine ⟨hthere, fun e he => ?_⟩
        rw [fifoFreeStep, if_neg (by rw [hdone]; decide)] at he
        cases he

/-- A chip with free space at every look. -/
def roomyReads : Reg → Nat → UInt8
  | .fifofree1, _ => 1
  | .framing, _ => 0x26
  | _, _ => 0

/-- A packet of 28 bytes is written when the FIFO is empty. -/
theorem reported_written_roomy :
    Along fifoFreeStep (ReportedWritten (normalSend { reads := roomyReads } [83] 28).xtalReady)
      (normalSend { reads := roomyReads } [83] 28).xtalReady [4] :=
  (@reported_written_iff { reads := roomyReads } [83] 28 (by decide) (fun _ => rfl) (by decide)
    rfl).2 ⟨⟨fun _ _ => show (4 : UInt8) ≤ 255 by decide, show (15 : UInt8) ≤ 255 by decide⟩,
      by decide⟩ [4]

/-- A FIFO with three free bytes, of which the preamble would take four. -/
def fullReads : Reg → Nat → UInt8
  | .fifofree0, _ => 3
  | .framing, _ => 0x26
  | _, _ => 0

/-- The FIFO is full at the first look: the packet is reported sent and nothing has been written. -/
theorem reported_unwritten_full : ¬ ∀ as,
    Along fifoFreeStep (ReportedWritten (normalSend { reads := fullReads } [83] 28).xtalReady)
      (normalSend { reads := fullReads } [83] 28).xtalReady as := by
  intro h
  have hd := ((h [1]).2 _ rfl).head
  rw [ReportedWritten, if_pos rfl] at hd
  have hlength := congrArg List.length hd.1
  revert hlength
  decide

end Spsi
