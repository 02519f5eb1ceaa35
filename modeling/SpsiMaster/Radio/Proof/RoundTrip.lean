import SpsiMaster.Radio.Proof.FrameGrammar
import SpsiMaster.Radio.Proof.ReceiveBuf
import SpsiMaster.Radio.Proof.Transmission

/-!
# A frame from node to node

`rf_433_send` prints a frame, `transmit_packet_task` puts it behind a length byte in `TXBuff`,
`TransmitData` writes it as one chunk; `ReceiveData` takes the chunk apart and the callback reads
the frame. The offsets of the six layers fit: the length byte of the sender is the byte 0 of the
receiver, and its NUL is the byte that `RxLen - 1` leaves out.

`frame_roundTrips`: in every state of the sending radio a frame comes back as it was printed. The
sender is the peer, which runs the same code with the letter `S`.
-/

namespace Spsi

open CInt Scanf Printf Run

/-! ## The text of a frame -/

section
variable {f : UInt32} {m : Slot}

/-- Eight digits are enough for an id. -/
theorem length_idText {id : UInt32} (h : id ≤ 99999999) : (zeroPadded 8 (i32 id)).length = 8 := by
  have hlt : id.toNat ≤ 99999999 := h
  rw [i32_of_lt (by omega)]
  exact length_zeroPadded (by decide) (by omega)

/-- Two digits are enough for a command and for its data. -/
theorem length_valueText {c : UInt8} (h : c ≤ 99) : (zeroPadded 2 c.toNat).length = 2 := by
  have hlt : c.toNat ≤ 99 := h
  exact length_zeroPadded (by decide) (by omega)

theorem numeral_idText {id : UInt32} (h : id ≤ 99999999) :
    numeral (zeroPadded 8 (i32 id)) = some (id.toNat : Int) := by
  have hlt : id.toNat ≤ 99999999 := h
  rw [numeral_zeroPadded, i32_of_lt (by omega)]

/-- The frame without its closing letter. -/
theorem frameText_concat (tag : UInt8) (hf : f ≤ 99999999) (ht : m.targetId ≤ 99999999)
    (hc : m.command ≤ 99) (hd : m.data ≤ 99) :
    ∃ front, frameText tag f m = tag :: (front ++ [tag]) ∧ front.length = 25 := by
  refine ⟨123 :: (zeroPadded 8 (i32 m.targetId) ++ 44 :: (zeroPadded 8 (i32 f) ++
    44 :: (zeroPadded 2 m.command.toNat ++ 44 :: (zeroPadded 2 m.data.toNat ++ [125])))), ?_, ?_⟩
  · simp [frameText]
  · simp [length_idText ht, length_idText hf, length_valueText hc, length_valueText hd]

/-- `sscanf` reads the four numbers of a frame. -/
theorem scan_frameText (hf : f ≤ 99999999) (ht : m.targetId ≤ 99999999) (stack : Message) :
    stack.sscanf (frameText 83 f m) =
      ⟨m.targetId.toNat, f.toNat, m.command.toNat, m.data.toNat⟩ := by
  have hself : f.toNat ≤ 99999999 := hf
  have htarget : m.targetId.toNat ≤ 99999999 := ht
  have hcommand := m.command.toNat_lt
  have hdata := m.data.toNat_lt
  have hscan := scan_frame (numeral_idText ht) (numeral_idText hf)
    (numeral_zeroPadded 2 m.command.toNat) (numeral_zeroPadded 2 m.data.toNat) []
  rw [List.append_nil] at hscan
  simp only [Message.sscanf, frameText, hscan, List.getD_cons_zero, List.getD_cons_succ]
  rw [clampLong_of_inLong (by unfold InLong; omega), clampLong_of_inLong (by unfold InLong; omega),
    clampLong_of_inLong (by unfold InLong; omega), clampLong_of_inLong (by unfold InLong; omega)]

/-- A frame is a C string. -/
theorem frameText_ne_zero (hf : f ≤ 99999999) (ht : m.targetId ≤ 99999999) :
    ∀ x ∈ frameText 83 f m, x ≠ 0 := by
  have h1 := numeral_ne_zero (numeral_idText ht)
  have h2 := numeral_ne_zero (numeral_idText hf)
  have h3 := numeral_ne_zero (numeral_zeroPadded 2 m.command.toNat)
  have h4 := numeral_ne_zero (numeral_zeroPadded 2 m.data.toNat)
  intro x hx
  simp only [frameText, List.mem_cons, List.mem_append, List.not_mem_nil, or_false] at hx
  rcases hx with rfl | rfl | hx | rfl | hx | rfl | hx | rfl | hx | rfl | rfl
  · decide
  · decide
  · exact h1 x hx
  · decide
  · exact h2 x hx
  · decide
  · exact h3 x hx
  · decide
  · exact h4 x hx
  · decide
  · decide

end

/-! ## The sender -/

/-- `TXBuff` is zero behind the packets that the program sends. -/
def Clear (dev : Transmitter) : Prop := ∀ i (h : i < 64), 29 ≤ i → dev.txBuff[i] = 0

/-- A send puts 28 bytes behind their length. -/
theorem normalSend_getElem (dev : Transmitter) (buf : List UInt8) {i : Nat} (hi : i < 64) :
    (dev.normalSend buf 28).txBuff[i] =
      if i = 0 then 29 else if i ≤ 28 then buf.getD (i - 1) 0 else dev.txBuff[i] := by
  have hbuff : (dev.normalSend buf 28).txBuff = Vector.ofFn fun i : Fin 64 =>
      if i.val = 0 then 29 else if i.val ≤ 28 then buf.getD (i.val - 1) 0 else dev.txBuff[i] := rfl
  rw [hbuff, Vector.getElem_ofFn]
  rfl

theorem clear_normalSend {dev : Transmitter} (h : Clear dev) (buf : List UInt8) :
    Clear (dev.normalSend buf 28) := by
  intro i hi hle
  rw [normalSend_getElem, if_neg (by omega), if_neg (by omega)]
  exact h i hi hle

theorem normalSend_toList {dev : Transmitter} (h : Clear dev) {buf : List UInt8}
    (hbuf : buf.length = 28) :
    (dev.normalSend buf 28).txBuff.toList = 29 :: buf ++ List.replicate 35 0 := by
  refine List.ext_getElem (by simp [hbuf]) fun i h1 h2 => ?_
  have hi : i < 64 := by simpa using h1
  rw [Vector.getElem_toList, normalSend_getElem _ _ hi]
  cases i with
  | zero => rfl
  | succ k =>
    simp only [List.cons_append, List.getElem_cons_succ, Nat.add_sub_cancel, Nat.succ_ne_zero,
      if_false]
    by_cases hk : k < buf.length
    · rw [if_pos (by omega), List.getElem_append_left hk, List.getD_eq_getElem?_getD,
        List.getElem?_eq_getElem hk, Option.getD_some]
    · rw [if_neg (by omega), List.getElem_append_right (Nat.not_lt.1 hk), List.getElem_replicate]
      exact h _ hi (by omega)

/-- The device in the outcome of a turn. -/
def Transmitter.Turn.dev : Transmitter.Turn → Transmitter
  | .again dev => dev
  | .done dev => dev

namespace Transmitter

theorem preamble_txBuff (dev : Transmitter) (n : UInt8) :
    (dev.preamble n).dev.txBuff = dev.txBuff := by
  simp only [preamble]
  split
  · rfl
  · generalize (if dev.txbufferCnt < 255 * 8 then (dev.txbufferCnt >>> 3).toUInt8 else 255) = cnt
    split <;> rfl

theorem shortpreamble_txBuff (dev : Transmitter) (n : UInt8) :
    (dev.shortpreamble n).dev.txBuff = dev.txBuff := by
  simp only [shortpreamble]
  split
  · split
    · rfl
    · by_cases hbits : dev.config.preambleAppendbits ≠ 0
      · simp only [if_pos hbits]
        split
        · rfl
        · exact preamble_txBuff _ n
      · simp only [if_neg hbits]
        split
        · rfl
        · exact preamble_txBuff _ n
  · exact preamble_txBuff dev n

theorem longpreamble_txBuff (dev : Transmitter) (n : UInt8) :
    (dev.longpreamble n).dev.txBuff = dev.txBuff := by
  simp only [longpreamble]
  split
  · exact shortpreamble_txBuff _ n
  · split <;> rfl

theorem turn_txBuff (dev : Transmitter) : dev.turn.dev.txBuff = dev.txBuff := by
  simp only [turn]
  split
  · exact longpreamble_txBuff _ _
  · exact shortpreamble_txBuff _ _
  · unfold packet
    split <;> rfl
  · rfl

theorem xtalReady_txBuff (dev : Transmitter) : dev.xtalReady.txBuff = dev.txBuff := by
  simp only [xtalReady]
  split <;> rfl

/-- Filling the FIFO does not change the packet. -/
theorem transmitData_txBuff {dev d : Transmitter} {turns : Nat}
    (h : dev.transmitData turns = some d) : d.txBuff = dev.txBuff := by
  induction turns generalizing dev with
  | zero => cases h
  | succ n ih =>
    have hturn := dev.turn_txBuff
    rw [transmitData] at h
    cases ht : dev.turn with
    | again dev' =>
      rw [ht] at h hturn
      exact (ih h).trans hturn
    | done dev' =>
      rw [ht] at h hturn
      cases h
      exact hturn

end Transmitter

theorem clear_step {tag : UInt8} {f : UInt32} {t u : RadioTask} {a : RadioAct} (h : Clear t.dev)
    (hu : radioStep tag f t a = some u) : Clear u.dev := by
  have htransmit : ∀ {dev : Transmitter} {turns : Nat}, dev.txBuff = t.dev.txBuff →
      (dev.transmitData turns).map (fun dev => { t with dev }) = some u → Clear u.dev := by
    intro dev turns hdev hmap
    obtain ⟨d, hd, rfl⟩ := Option.map_eq_some_iff.1 hmap
    have hbuff : d.txBuff = t.dev.txBuff := (Transmitter.transmitData_txBuff hd).trans hdev
    unfold Clear
    rw [hbuff]
    exact h
  cases a with
  | send m =>
    cases hu
    exact clear_normalSend h _
  | sendTimer =>
    simp only [radioStep, Option.ite_none_right_eq_some, Option.some.injEq] at hu
    obtain ⟨-, rfl⟩ := hu
    unfold RadioTask.sendTimerCallback
    split
    · exact h
    · exact h
  | irq turns =>
    simp only [radioStep, RadioTask.irq] at hu
    split at hu
    case h_5 => exact htransmit (Transmitter.xtalReady_txBuff t.dev) hu
    case h_6 | h_7 | h_8 => exact htransmit rfl hu
    case h_9 =>
      split at hu
      · cases hu
        exact h
      · cases hu
        exact h
    all_goals
      cases hu
      exact h

/-! ## The receiver -/

namespace Ax5043

/-- Nothing is left to do with an empty FIFO. -/
theorem receiveLoop_nil {dev : Ax5043} (h : dev.fifo.items = []) (n : Nat) :
    receiveLoop n dev = dev := by
  cases n with
  | zero => rfl
  | succ n => rw [receiveLoop, if_neg (by rw [h]; exact not_not_intro rfl)]

/-- The transfer of a payload that is all there is in the FIFO. -/
theorem spiReadData_payload {dev : Ax5043} {p : List UInt8} (hp : p.length ≤ 64)
    (hfifo : dev.fifo.items = p) :
    (dev.spiReadData p.length).fifo.items = [] ∧
      (dev.spiReadData p.length).rxBuff.toList = p ++ dev.rxBuff.toList.drop p.length := by
  have hfifo : dev.fifo = ⟨p ++ [], dev.fifo.idle⟩ := by rw [List.append_nil, ← hfifo]
  have htake : dev.fifo.take p.length = (p, ⟨[], dev.fifo.idle⟩) := by
    rw [hfifo]
    exact Fifo.take_append p [] dev.fifo.idle
  have hf := (dev.spiReadFrom_spec 0 p.length).1
  have hb := dev.toList_spiReadData hp
  rw [htake] at hf hb
  exact ⟨congrArg Fifo.items hf, hb⟩

section
variable {dev : Ax5043} {p : List UInt8} {flags : UInt8}

/-- A data chunk with a length byte, as `TransmitData` writes it. -/
theorem receiveChunk_payload (hp : p.length ≤ 64)
    (hfifo : dev.fifo.items = 0xE1 :: UInt8.ofNat (1 + p.length) :: flags :: p) :
    dev.receiveChunk.fifo.items = [] ∧ dev.receiveChunk.rxLen = p.length ∧
      dev.receiveChunk.rxBuff.toList = p ++ dev.rxBuff.toList.drop p.length := by
  have hlen : (UInt8.ofNat (1 + p.length)).toNat = 1 + p.length := by
    rw [UInt8.toNat_ofNat']
    omega
  have hhead : chunkHead dev.fifo = (fifocmdData, 1 + p.length, ⟨flags :: p, dev.fifo.idle⟩) := by
    simp only [chunkHead, Fifo.pop, hfifo, hlen]
    rfl
  rw [receiveChunk_eq, hhead]
  simp only [receiveCommand, receiveDataChunk]
  rw [if_neg (by omega), Nat.add_sub_cancel_left]
  obtain ⟨hf, hb⟩ := @spiReadData_payload
    (({ dev with fifo := ⟨flags :: p, dev.fifo.idle⟩ } : Ax5043).skip 1) p hp rfl
  exact ⟨hf, rfl, hb⟩

/-- A FIFO that holds such a chunk alone. -/
theorem receiveData_payload (hp : p.length ≤ 64)
    (hfifo : dev.fifo.items = 0xE1 :: UInt8.ofNat (1 + p.length) :: flags :: p) :
    dev.receiveData.rxLen = p.length ∧
      dev.receiveData.rxBuff.toList = p ++ List.replicate (64 - p.length) 0 := by
  have hloop : dev.receiveData = receiveLoop (p.length + 2) (receiveChunk
      { dev with ubRssi := 0, rxLen := 0, rxBuff := Vector.replicate 64 0, writes := [] }) := by
    simp [receiveData, hfifo, receiveLoop]
  obtain ⟨hf, hl, hb⟩ := @receiveChunk_payload
    { dev with ubRssi := 0, rxLen := 0, rxBuff := Vector.replicate 64 0, writes := [] } p flags hp
    hfifo
  rw [hloop, receiveLoop_nil hf]
  refine ⟨hl, hb.trans ?_⟩
  rw [Vector.toList_replicate, List.drop_replicate]

end

end Ax5043

section
variable {f : UInt32} {m : Slot} {b : RxBuffer} {rest : List UInt8}

/-- The C string of a packet that holds a frame behind its length. -/
theorem string_frame (hf : f ≤ 99999999) (ht : m.targetId ≤ 99999999)
    (hb : b.bytes = 29 :: (frameText 83 f m ++ 0 :: rest)) : b.string = frameText 83 f m := by
  have hne : ∀ x ∈ frameText 83 f m, (x != 0) = true := fun x hx => by
    simpa using frameText_ne_zero hf ht x hx
  rw [RxBuffer.string, hb, List.drop_succ_cons, List.drop_zero, List.takeWhile_append_of_pos hne,
    List.takeWhile_cons_of_neg (by decide), List.append_nil]

/-- A packet that holds a frame is accepted by the node it is meant for, from the node it
expects. -/
theorem rxCallback_frame (hf : f ≤ 99999999) (ht : m.targetId ≤ 99999999) (hc : m.command ≤ 99)
    (hd : m.data ≤ 99) (hb : b.bytes = 29 :: (frameText 83 f m ++ 0 :: rest)) (r : Radio)
    (stack : Message) (w : World) (rssi : Int) : World.rxCallback r stack w rssi b 29 =
      if m.targetId = w.selfId ∧ f = w.targetId then
        World.accept r w rssi m.command.toNat m.data.toNat
      else w := by
  obtain ⟨front, hfront, hlen⟩ := frameText_concat 83 hf ht hc hd
  have hopen : b.read 1 = 83 := by
    rw [RxBuffer.read, if_neg (by decide), hb, hfront]
    rfl
  have hclose : b.read 27 = 83 := by
    rw [RxBuffer.read, if_neg (by decide), hb, hfront]
    simp [hlen]
  have hid : ∀ i id : UInt32, longEqU32 i.toNat id = true ↔ i = id := by
    intro i id
    have := i.toNat_lt
    rw [longEqU32, beq_iff_eq, ← UInt32.toNat_inj]
    omega
  have hlen : u8OfInt (((29 : Nat) : Int) - 1) = 28 := rfl
  rw [World.rxCallback_eq, if_pos hopen, hlen]
  simp only [World.solve, string_frame hf ht hb, scan_frameText hf ht, hid]
  exact if_pos hclose

end

/-! ## From node to node -/

/-- A packet of 10 bytes or more is written in one turn. -/
theorem transmitData_packet {dev : Transmitter} (h : dev.ubRFState = .txPacket)
    (hlen : ¬ dev.txLen < 11) :
    ∃ d, dev.transmitData 1 = some d ∧ d.fifo = dev.fifo ++ dev.packetChunk := by
  have hturn : dev.turn =
      .done { dev.polled.write dev.packetChunk with ubRFState := .txWaitdone } := by
    rw [Transmitter.turn_eq, h]
    exact if_neg hlen
  exact ⟨_, by rw [Transmitter.transmitData, hturn], rfl⟩

/-- What a radio in the state `t` sends for `m` arrives at any node: the packet is written as one
chunk; a node whose FIFO holds this chunk gets the buffer of the sender, reads the four numbers
and accepts them exactly if it is the one they are meant for and expects this sender. -/
def RoundTrips (r : Radio) (f : UInt32) (m : Slot) (t : RadioTask) : Prop :=
  let sent := (t.send 83 f m).dev
  ∀ dev : Transmitter, dev.ubRFState = .txPacket → dev.txBuff = sent.txBuff →
    dev.txLen = sent.txLen → ∃ chunk d, dev.transmitData 1 = some d ∧ d.fifo = dev.fifo ++ chunk ∧
      ∀ rx : Ax5043, rx.fifo.items = chunk →
        rx.receiveData.rxLen = 29 ∧ rx.receiveData.rxBuff = sent.txBuff ∧
        ∀ (stack : Message) (w : World),
          stack.sscanf rx.receiveData.packet.string =
            ⟨m.targetId.toNat, f.toNat, m.command.toNat, m.data.toNat⟩ ∧
          Ax5043.receiveTask r stack w rx = if m.targetId = w.selfId ∧ f = w.targetId then
            World.accept r w rx.receiveData.ubRssi m.command.toNat m.data.toNat else w

/-- **A frame comes back as it was printed**, in every state of the sending radio. -/
theorem frame_roundTrips (r : Radio) {f : UInt32} {m : Slot} (hf : f ≤ 99999999)
    (ht : m.targetId ≤ 99999999) (hc : m.command ≤ 99) (hd : m.data ≤ 99) (config : TxConfig)
    (reads : Reg → Nat → UInt8) (as : List RadioAct) :
    Along (radioStep 83 f) (RoundTrips r f m) (.start config reads) as := by
  have hclear : Clear (RadioTask.start config reads).dev := fun i h _ => by
    simp [RadioTask.start]
  have halong : Along (radioStep 83 f) (fun t => Clear t.dev) (.start config reads) as :=
    along_of_step (fun _ _ _ => clear_step) hclear as
  refine halong.mono fun t h dev hstate hbuff hlen => ?_
  obtain ⟨front, hfront, hfrontlen⟩ := frameText_concat 83 hf ht hc hd
  have htext : (frameText 83 f m ++ [0]).length = 28 := by simp [hfront, hfrontlen]
  have hsent : (t.send 83 f m).dev.txBuff.toList =
      29 :: (frameText 83 f m ++ [0]) ++ List.replicate 35 0 := normalSend_toList h htext
  -- the 29 bytes of the packet are all that is not zero
  have htake : dev.txBuff.toList.take 29 = 29 :: (frameText 83 f m ++ [0]) := by
    rw [hbuff, hsent]
    exact List.take_left' (by simp [htext])
  have hchunk : dev.packetChunk = 0xE1 :: 30 :: 3 :: (29 :: (frameText 83 f m ++ [0])) := by
    rw [Transmitter.packetChunk, hlen]
    exact congrArg (fun l => 0xE1 :: 30 :: 3 :: l) htake
  obtain ⟨d, hd', hfifo⟩ := transmitData_packet hstate (by rw [hlen]; exact of_decide_eq_false rfl)
  refine ⟨_, d, hd', hfifo, fun rx hrx => ?_⟩
  have hp : (29 :: (frameText 83 f m ++ [0])).length = 29 := by rw [List.length_cons, htext]
  obtain ⟨hrxLen, hrxBuff⟩ := @Ax5043.receiveData_payload rx (29 :: (frameText 83 f m ++ [0])) 3
    (by rw [hp]; decide) (by rw [hrx, hchunk, hp]; rfl)
  rw [hp] at hrxLen hrxBuff
  have hbytes : rx.receiveData.packet.bytes =
      29 :: (frameText 83 f m ++ 0 :: List.replicate 35 0) := by
    rw [Ax5043.packet, hrxBuff]
    simp
  refine ⟨hrxLen, ?_, fun stack w => ⟨?_, ?_⟩⟩
  · rw [← Vector.toList_inj, hrxBuff, hsent]
  · rw [string_frame hf ht hbytes, scan_frameText hf ht]
  · rw [Ax5043.receiveTask, hrxLen]
    exact rxCallback_frame hf ht hc hd hbytes r stack w _

/-- An answer of the peer on 433, after an earlier one whose end was not signalled. -/
theorem frame_roundTrips_answer :
    Along (radioStep 83 60000000) (RoundTrips .rf433 60000000 ⟨50000000, 0, 1⟩)
      (.start .init fun _ _ => 0) [.send ⟨50000000, 1, 0⟩, .sendTimer] :=
  frame_roundTrips .rf433 (by decide) (by decide) (by decide) (by decide) _ _ _

end Spsi
