import SpsiMaster.App.Psi
import SpsiMaster.Lib.Scanf

/-!
# Received frames

`radio/Radio_Decoder.c`. `Solve_433` and `Solve_4068` are the same code on the variables of their
radio, `solve` at each radio. What the stack held in the place of `Rx_message` is a parameter, as
the callbacks leave it uninitialised.
-/

namespace Spsi

open CInt

/-- The number of a radio: 433 is 1 in `rf_now` and `rf_write`. -/
def Radio.number : Radio → Nat
  | .rf433 => 1
  | .rf4068 => 0

@[simp] theorem Radio.select_number (r : Radio) : Radio.select r.number = r := by cases r <;> rfl

theorem Radio.number_select {n : Nat} (h : n ≤ 1) : (Radio.select n).number = n := by
  rcases Nat.le_one_iff_eq_zero_or_eq_one.1 h with rfl | rfl
  · rfl
  · rfl

/-- The buffer a callback gets, as memory: the bytes from `rx_buffer` on, and the one before. -/
structure RxBuffer where
  before : UInt8 := 0
  bytes : List UInt8
  deriving DecidableEq

namespace RxBuffer

/-- `rx_buffer[i]`. -/
def read (b : RxBuffer) (i : Int) : UInt8 := if i < 0 then b.before else b.bytes.getD i.toNat 0

/-- The C string at `&rx_buffer[1]`. -/
def string (b : RxBuffer) : List UInt8 := (b.bytes.drop 1).takeWhile fun c => c != 0

end RxBuffer

/-- The packet of the peer with the frame `S{50000000,60000000,0c,0d}S`, for digits `c` and `d`;
its `RxLen` is 29. -/
def peerFrame (c d : UInt8) : RxBuffer where
  bytes := [29, 83, 123, 53, 48, 48, 48, 48, 48, 48, 48, 44, 54, 48, 48, 48, 48, 48, 48, 48, 44,
    48, 48 + c, 44, 48, 48 + d, 125, 83, 0]

/-- The fields of `Message` that are used. -/
structure Message where
  targetId : Int
  fromId : Int
  command : Int
  data : Int
  deriving DecidableEq

/-- `"S{%ld,%ld,%d,%d}S"`. -/
def frameFormat : List Scanf.Directive :=
  [.lit 83, .lit 123, .int, .lit 44, .int, .lit 44, .int, .lit 44, .int, .lit 125, .lit 83]

/-- `sscanf` stores the values it converts, in order, and leaves the other fields. -/
def Message.sscanf (m : Message) (text : List UInt8) : Message :=
  let vs := Scanf.scan frameFormat text
  { targetId := vs.getD 0 m.targetId
    fromId := vs.getD 1 m.fromId
    command := vs.getD 2 m.command
    data := vs.getD 3 m.data }

namespace World

/-- The `switch(Rx_message.Command)`. -/
def solveCommand (r : Radio) (w : World) (rssi command data : Int) : World :=
  if command = 0 then w.valveControl (u8OfInt data)
  else if command = 1 then
    ((w.onInfo r fun i => { i with testreceived := true }).receiverBlink
      (u8OfInt data)).valveControl (u8OfInt data)
  else if command = 2 then (w.valveControl (u8OfInt data)).rfWrite r.number rssi
  else w

/-- What `Solve_433` does once the ids are right. -/
def accept (r : Radio) (w : World) (rssi command data : Int) : World :=
  let w := (w.log (.accepted r command data)).post (.online r)
  let level := w.seg.rssiLevelSelect r rssi
  let w := (w.onSeg fun _ => level.2).onInfo r fun i =>
    { i with received := true, rssi := rssi, rssiLevel := level.1 }
  let w := solveCommand r w rssi command data
  w.ledRfStart r (w.info r).rssiLevel

def solve (r : Radio) (stack : Message) (w : World) (rssi : Int) (rxBuffer : RxBuffer)
    (rxLen : Nat) : World :=
  if rxBuffer.read ((rxLen : Int) - 1) = 83 then
    let m := stack.sscanf rxBuffer.string
    if longEqU32 m.targetId w.selfId ∧ longEqU32 m.fromId w.targetId then
      accept r w rssi m.command m.data
    else w
  else w

def solve433 : Message → World → Int → RxBuffer → Nat → World := solve .rf433
def solve4068 : Message → World → Int → RxBuffer → Nat → World := solve .rf4068

/-- `rf433_rx_callback`, `rf4068_rx_callback`. -/
def rxCallback (r : Radio) (stack : Message) (w : World) (rssi : Int) (rxBuffer : RxBuffer)
    (rxLen : Nat) : World :=
  if rxBuffer.read 1 = 83 then
    match r with
    | .rf433 => solve433 stack w rssi rxBuffer (u8OfInt ((rxLen : Int) - 1))
    | .rf4068 => solve4068 stack w rssi rxBuffer (u8OfInt ((rxLen : Int) - 1))
  else w

/-! ## What a received frame changes -/

theorem rxCallback_eq (r : Radio) (stack : Message) (w : World) (rssi : Int)
    (rxBuffer : RxBuffer) (rxLen : Nat) : rxCallback r stack w rssi rxBuffer rxLen =
      if rxBuffer.read 1 = 83 then
        solve r stack w rssi rxBuffer (u8OfInt ((rxLen : Int) - 1))
      else w := by cases r <;> rfl

/-- A call of a callback leaves everything alone or accepts a frame. -/
theorem rxCallback_cases (r : Radio) (stack : Message) (w : World) (rssi : Int)
    (rxBuffer : RxBuffer) (rxLen : Nat) : rxCallback r stack w rssi rxBuffer rxLen = w ∨
      ∃ c d, rxCallback r stack w rssi rxBuffer rxLen = accept r w rssi c d := by
  rw [rxCallback_eq]
  split
  · simp only [solve]
    split
    · split
      · exact .inr ⟨_, _, rfl⟩
      · exact .inl rfl
    · exact .inl rfl
  · exact .inl rfl

end World

namespace OutputStep

theorem rfWrite (w : World) (rfSelect : Nat) (rssi : Int) :
    OutputStep w (w.rfWrite rfSelect rssi) := by
  unfold World.rfWrite
  split
  · exact log w rfl
  · exact log w rfl

end OutputStep

namespace World

/-- Apart from its output, a command only sets `testreceived`. -/
theorem solveCommand_output (r : Radio) (w : World) (rssi c d : Int) :
    OutputStep (if c = 1 then w.onInfo r fun i => { i with testreceived := true } else w)
      (solveCommand r w rssi c d) := by
  unfold solveCommand
  by_cases h0 : c = 0
  · subst h0
    exact .valveControl w _
  · by_cases h1 : c = 1
    · subst h1
      exact (OutputStep.log _ rfl).trans (.valveControl _ _)
    · rw [if_neg h0, if_neg h1, if_neg h1]
      split
      · exact (OutputStep.valveControl w _).trans (.rfWrite _ _ _)
      · exact .refl w

/-- The `rf_info` of a radio after an accepted frame. -/
def acceptInfo (w : World) (r : Radio) (rssi c : Int) (i : RfInfo) : RfInfo :=
  { i with
    received := true
    rssi := rssi
    rssiLevel := (w.seg.rssiLevelSelect r rssi).1
    testreceived := if c = 1 then true else i.testreceived }

/-- The effect of an accepted frame on the state the threads share. -/
theorem accept_spec (r : Radio) (w : World) (rssi c d : Int) :
    (accept r w rssi c d).heart = w.heart ∧
    (accept r w rssi c d).info = Function.update w.info r (w.acceptInfo r rssi c (w.info r)) ∧
    (accept r w rssi c d).event = Rtos.eventSend w.event (.online r) ∧
    ∃ h, Hist.Extends Ev.isOutput (.posted (.online r) :: .accepted r c d :: w.hist) h ∧
      (accept r w rssi c d).hist = .led (.rf r (w.seg.rssiLevelSelect r rssi).1) :: h := by
  obtain ⟨hl, hu⟩ := w.seg.rssiLevelSelect_mem r rssi
  simp only [accept]
  generalize hw : (((w.log (.accepted r c d)).post (.online r)).onSeg _).onInfo r _ = w₁
  have ho : OutputStep _ (solveCommand r w₁ rssi c d) := solveCommand_output r w₁ rssi c d
  have hi : (solveCommand r w₁ rssi c d).info =
      Function.update w.info r (w.acceptInfo r rssi c (w.info r)) := by
    rw [ho.info, ← hw]
    split
    · next hc => simp [acceptInfo, hc]
    · next hc => simp [acceptInfo, hc]
  have hlevel : ((solveCommand r w₁ rssi c d).info r).rssiLevel =
      (w.seg.rssiLevelSelect r rssi).1 := by
    rw [hi, Function.update_self]
    rfl
  have hx : Hist.Extends Ev.isOutput (.posted (.online r) :: .accepted r c d :: w.hist)
      (solveCommand r w₁ rssi c d).hist := by
    have hx := ho.hist
    rw [← hw] at hx ⊢
    split at hx
    · exact hx
    · exact hx
  rw [hlevel, ledRfStart, if_pos ⟨by omega, hu⟩]
  refine ⟨?_, hi, ?_, _, hx, rfl⟩
  · rw [log_heart, ho.heart, ← hw]
    split <;> rfl
  · rw [log_event, ho.event, ← hw]
    split <;> rfl

end World

end Spsi
