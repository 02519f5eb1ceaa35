import SpsiMaster.Lib.Fifo
import SpsiMaster.Radio.Decoder

/-!
# Reception

`ReceiveData` of `radio/Radio_Common.c` drains the receive FIFO of an AX5043 chunk by chunk, and
the radio tasks give what it leaves in `RXBuff` to the callbacks of `Radio_Decoder.c`. The two
radios share the code.

`Ax5043.writes` is a ghost: the indices of `RXBuff` that `SpiReadData` has written to in the
current call. A write outside of `RXBuff` changes nothing else in the model.
-/

namespace Spsi

open CInt

-- AX5043.h
@[match_pattern] abbrev fifocmdData : Nat := 0x01
@[match_pattern] abbrev fifocmdTimer : Nat := 0x10
@[match_pattern] abbrev fifocmdRssi : Nat := 0x11
@[match_pattern] abbrev fifocmdRffreqoffs : Nat := 0x13
@[match_pattern] abbrev fifocmdAntrssi : Nat := 0x15

/-- The parts of `struct ax5043` and of the registers that reception uses. In the structure
`TxLen` is right in front of `RXBuff`. -/
structure Ax5043 where
  fifo : Fifo UInt8
  ubRssi : Int
  /-- `config->axradio_phy_rssioffset`. -/
  rssiOffset : Int
  txLen : UInt8
  rxBuff : Vector UInt8 64
  rxLen : Nat
  irqMask0 : UInt8
  writes : List Nat

namespace Ax5043

/-- `SpiReadSingleAddressRegister(dev, REG_AX5043_FIFODATA)`. -/
def readFifo (dev : Ax5043) : UInt8 × Ax5043 :=
  (dev.fifo.pop.1, { dev with fifo := dev.fifo.pop.2 })

/-- `n` reads of `REG_AX5043_FIFODATA` whose values are not used. -/
def skip (dev : Ax5043) (n : Nat) : Ax5043 := { dev with fifo := (dev.fifo.take n).2 }

def store (dev : Ax5043) (i : Nat) (b : UInt8) : Ax5043 :=
  { dev with rxBuff := dev.rxBuff.setIfInBounds i b, writes := i :: dev.writes }

/-- The transfer of `SpiReadData` into `RXBuff`, from index `i` on. -/
def spiReadFrom (dev : Ax5043) (i : Nat) : Nat → Ax5043
  | 0 => dev
  | n + 1 => spiReadFrom (dev.readFifo.2.store i dev.readFifo.1) (i + 1) n

/-- `SpiReadData(dev, dev->RXBuff, length)`. -/
def spiReadData (dev : Ax5043) (length : Nat) : Ax5043 := dev.spiReadFrom 0 length

/-- `case AX5043_FIFOCMD_DATA`; the first byte are the flags. -/
def receiveDataChunk (dev : Ax5043) (dataLen : Nat) : Ax5043 :=
  if dataLen = 0 then dev
  else
    let dev := { (dev.skip 1).spiReadData (dataLen - 1) with rxLen := dataLen - 1 }
    { dev with irqMask0 := dev.irqMask0 &&& 0xFE }

/-- The `switch(ubTemCom)`. `dropchunk` reads the rest of a chunk. -/
def receiveCommand (dev : Ax5043) (command dataLen : Nat) : Ax5043 :=
  match command with
  | fifocmdData => dev.receiveDataChunk dataLen
  | fifocmdRffreqoffs => if dataLen ≠ 3 then dev.skip dataLen else dev.skip 3
  | fifocmdRssi =>
    if dataLen ≠ 1 then dev.skip dataLen
    else
      let (r, dev) := dev.readFifo
      { dev with ubRssi := i8 r - dev.rssiOffset }
  | fifocmdTimer => if dataLen ≠ 3 then dev.skip dataLen else dev.skip 3
  | fifocmdAntrssi => if dataLen = 0 then dev else (dev.skip 1).skip (dataLen - 1)
  | _ => dev.skip dataLen

/-- One turn of the loop. -/
def receiveChunk (dev : Ax5043) : Ax5043 :=
  let (temCom, dev) := dev.readFifo
  let dataLen := ((temCom &&& 0xE0) >>> 5).toNat
  if dataLen = 7 then
    let (length, dev) := dev.readFifo
    dev.receiveCommand (temCom &&& 0x1F).toNat length.toNat
  else dev.receiveCommand (temCom &&& 0x1F).toNat dataLen

/-- `while (SpiReadSingleAddressRegister(dev, REG_AX5043_IRQREQUEST0) & 0x01)`. -/
def receiveLoop : Nat → Ax5043 → Ax5043
  | 0, dev => dev
  | fuel + 1, dev => if dev.fifo.items ≠ [] then receiveLoop fuel dev.receiveChunk else dev

/-- Every turn reads an entry, so there is one turn at most for each (`receiveData_fifo`). -/
def receiveData (dev : Ax5043) : Ax5043 :=
  receiveLoop dev.fifo.items.length
    { dev with ubRssi := 0, rxLen := 0, rxBuff := Vector.replicate 64 0, writes := [] }

/-- `RXBuff` as the callbacks get it. -/
def packet (dev : Ax5043) : RxBuffer := ⟨dev.txLen, dev.rxBuff.toList⟩

/-- `case trxstate_rx` of `rf_433_task_callback` and `rf_4068_task_callback`. -/
def receiveTask (r : Radio) (stack : Message) (w : World) (dev : Ax5043) : World :=
  let dev := dev.receiveData
  if dev.rxLen ≠ 0 then World.rxCallback r stack w dev.ubRssi dev.packet dev.rxLen else w

/-- The same for any callback: it gets `ubRssi`, `RXBuff` and `RxLen`. -/
def rxTask {σ : Type*} (callback : Int → RxBuffer → Nat → σ → σ) (dev : Ax5043) (s : σ) : σ :=
  let dev := dev.receiveData
  if dev.rxLen ≠ 0 then callback dev.ubRssi dev.packet dev.rxLen s else s

theorem receiveTask_eq (r : Radio) (stack : Message) (w : World) (dev : Ax5043) :
    receiveTask r stack w dev =
      rxTask (fun rssi b rxLen w => World.rxCallback r stack w rssi b rxLen) dev w := rfl

end Ax5043

/-! ## The bytes a callback looks at -/

/-- The indices at which a callback and the function it calls test `rx_buffer`. -/
def RxBuffer.indices (b : RxBuffer) (rxLen : Nat) : List Int :=
  if b.read 1 = 83 then [1, (u8OfInt ((rxLen : Int) - 1) : Int) - 1] else [1]

/-- A callback depends on a packet by these bytes and its C string only. -/
theorem World.rxCallback_congr {r : Radio} {stack : Message} {w : World} {rssi : Int}
    {b b' : RxBuffer} {rxLen : Nat} (hs : b'.string = b.string)
    (hi : ∀ i ∈ b.indices rxLen, b'.read i = b.read i) :
    rxCallback r stack w rssi b' rxLen = rxCallback r stack w rssi b rxLen := by
  unfold RxBuffer.indices at hi
  rw [rxCallback_eq, rxCallback_eq]
  split at hi
  · next h1 =>
    have hfirst : b'.read 1 = 83 := (hi 1 List.mem_cons_self).trans h1
    have hlast := hi _ (List.mem_cons_of_mem _ List.mem_cons_self)
    rw [if_pos hfirst, if_pos h1]
    simp only [solve, hlast, hs]
  · next h1 =>
    have hfirst : ¬ b'.read 1 = 83 := fun h => h1 ((hi 1 List.mem_cons_self).symm.trans h)
    rw [if_neg hfirst, if_neg h1]

end Spsi
