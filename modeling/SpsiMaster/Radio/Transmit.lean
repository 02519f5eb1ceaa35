import SpsiMaster.Lib.Printf
import SpsiMaster.Radio.Encoder
import SpsiMaster.Rtos.Ipc

/-!
# Transmission

The path of a frame to the air: `rf_433_send` of `radio/Radio_Encoder.c` prints it, `Normal_send`
of `radio/Radio_Common.c` takes it over into `TXBuff`, and `TransmitData`, which the radio task of
`radio/Radio_433.c` calls on the interrupts of the chip, writes it to the transmit FIFO. The radio
task of `radio/Radio_4068.c` is the same code on its own device.

Of the writes to the chip those to `FIFODATA` are kept, in `Transmitter.fifo`. What a read of a
register returns is not up to the program: `Transmitter.reads` holds, for every register, the
values of its further reads.
-/

namespace Spsi

open Rtos CInt Printf

/-! ## Devices -/

/-- The values of `ubRFState` (`AX5043.h`). -/
inductive RfState where
  | off
  | rx
  | rxwor
  | waitXtal
  | xtalReady
  | pllRanging
  | pllRangingDone
  | pllSettling
  | pllSettled
  | txXtalwait
  | txLongpreamble
  | txShortpreamble
  | txPacket
  | txWaitdone
  | txcwXtalwait
  | txstreamXtalwait
  | txstream
  deriving DecidableEq

/-- The registers that transmission reads. -/
inductive Reg where
  | fifofree0
  | fifofree1
  | framing
  | pktaddrcfg
  | modulation
  | radioeventreq0
  | radiostate
  | powstickystat
  deriving DecidableEq

/-- The parts of `struct ax5043_config` that transmission uses. -/
structure TxConfig where
  preambleLen : UInt8
  preambleByte : UInt8
  preambleFlags : UInt8
  preambleAppendbits : UInt8
  preambleAppendpattern : UInt8
  framingSynclen : UInt8
  framingSyncflags : UInt8
  framingSyncword : List UInt8
  deriving DecidableEq

/-- `rf_433_config_init`, and with the same values `rf_4068_config_init`. -/
def TxConfig.init : TxConfig where
  preambleLen := 32
  preambleByte := 0x55
  preambleFlags := 0x38
  preambleAppendbits := 0
  preambleAppendpattern := 0
  framingSynclen := 32
  framingSyncflags := 0x38
  framingSyncword := [0xcc, 0xaa, 0xcc, 0xaa]

/-- The parts of `struct ax5043` that transmission uses, and the chip. -/
structure Transmitter where
  config : TxConfig := .init
  ubRFState : RfState := .rx
  txBuff : Vector UInt8 64 := Vector.replicate 64 0
  txLen : UInt8 := 0
  txbufferCnt : UInt32 := 0
  reads : Reg → Nat → UInt8 := fun _ _ => 0
  fifo : List UInt8 := []

namespace Transmitter

/-- `SpiReadSingleAddressRegister`, `SpiReadLongAddressRegister`. -/
def read (dev : Transmitter) (r : Reg) : UInt8 × Transmitter :=
  (dev.reads r 0, { dev with reads := Function.update dev.reads r fun n => dev.reads r (n + 1) })

/-- Writes to `FIFODATA`. -/
def write (dev : Transmitter) (bs : List UInt8) : Transmitter := { dev with fifo := dev.fifo ++ bs }

/-! ## The transmit FIFO -/

/-- A byte with the first `bits` bits of a pattern and a stop bit behind them, most significant
bit first if `PKTADDRCFG` says so. -/
def stopBit (pktaddrcfg byte bits : UInt8) : UInt8 :=
  let n := bits.toNat
  if pktaddrcfg &&& 0x80 ≠ 0 then
    UInt8.ofNat ((byte.toNat &&& (0xFF <<< (8 - n))) ||| (0x80 >>> n))
  else UInt8.ofNat ((byte.toNat &&& (0xFF >>> (8 - n))) ||| (0x01 <<< n))

/-- The outcome of a turn of the loop of `TransmitData`: another turn, or the end of the call. -/
inductive Turn where
  | again (dev : Transmitter)
  | done (dev : Transmitter)

/-- `pktend:`. The commit does not change what has been written. -/
def pktend (dev : Transmitter) : Turn := .done { dev with ubRFState := .txWaitdone }

/-- `fifocommit:`, which runs on into `pktend:`. -/
def fifocommit (dev : Transmitter) : Turn := dev.pktend

/-- The second half of `trxstate_tx_shortpreamble`: preamble bytes, or the bits that are left. -/
def preamble (dev : Transmitter) (freeCnt : UInt8) : Turn :=
  if freeCnt < 4 then dev.fifocommit
  else
    let cnt := if dev.txbufferCnt < 255 * 8 then (dev.txbufferCnt >>> 3).toUInt8 else 255
    if cnt ≠ 0 then
      .again ({ dev with txbufferCnt := dev.txbufferCnt - (cnt.toUInt32 <<< 3) }.write
        [0x62, dev.config.preambleFlags, cnt, dev.config.preambleByte])
    else
      let bits := dev.txbufferCnt.toUInt8
      let (cfg, dev) := { dev with txbufferCnt := 0 }.read .pktaddrcfg
      .again (dev.write [0x41, 0x1C, stopBit cfg dev.config.preambleByte bits])

/-- The chunk with the sync word. -/
def syncChunk (config : TxConfig) : List UInt8 :=
  let lenByte := (config.framingSynclen + 7) >>> 3
  let i : UInt8 := if config.framingSynclen &&& 0x07 ≠ 0 then 0x04 else 0
  ((0x01 : UInt8) ||| ((lenByte + 1) <<< 5)) :: (config.framingSyncflags ||| i) ::
    (List.range lenByte.toNat).map fun i => config.framingSyncword.getD i 0

/-- `case trxstate_tx_shortpreamble`. -/
def shortpreamble (dev : Transmitter) (freeCnt : UInt8) : Turn :=
  if dev.txbufferCnt = 0 then
    if freeCnt < 15 then dev.fifocommit
    else
      let dev :=
        if dev.config.preambleAppendbits ≠ 0 then
          let (cfg, dev) := dev.read .pktaddrcfg
          dev.write [0x41, 0x1C,
            stopBit cfg dev.config.preambleAppendpattern dev.config.preambleAppendbits]
        else dev
      let (framing, dev) := dev.read .framing
      if framing &&& 0x0E = 0x06 ∧ dev.config.framingSynclen ≠ 0 then
        .again { dev.write (syncChunk dev.config) with ubRFState := .txPacket }
      else dev.preamble freeCnt
  else dev.preamble freeCnt

/-- `case trxstate_tx_longpreamble`. -/
def longpreamble (dev : Transmitter) (freeCnt : UInt8) : Turn :=
  if dev.txbufferCnt = 0 then
    { dev with
      ubRFState := .txShortpreamble
      txbufferCnt := dev.config.preambleLen.toUInt32 }.shortpreamble freeCnt
  else if freeCnt < 4 then dev.fifocommit
  else
    let cnt := if dev.txbufferCnt < 7 then dev.txbufferCnt.toUInt8 else 7
    .again ({ dev with txbufferCnt := dev.txbufferCnt - cnt.toUInt32 }.write
      [0x62, 0x38, cnt <<< 5, 0x55])

/-- The chunk with the packet. -/
def packetChunk (dev : Transmitter) : List UInt8 :=
  0xE1 :: (1 + dev.txLen) :: 3 :: dev.txBuff.toList.take dev.txLen.toNat

/-- `case trxstate_tx_packet`. -/
def packet (dev : Transmitter) : Turn :=
  if dev.txLen < 11 then dev.fifocommit else (dev.write dev.packetChunk).pktend

/-- A turn of the loop of `TransmitData`. -/
def turn (dev : Transmitter) : Turn :=
  let (free0, dev) := dev.read .fifofree0
  let (free1, dev) := dev.read .fifofree1
  let freeCnt := if free1 ≠ 0 then 0xff else free0
  match dev.ubRFState with
  | .txLongpreamble => dev.longpreamble freeCnt
  | .txShortpreamble => dev.shortpreamble freeCnt
  | .txPacket => dev.packet
  | _ => .done dev

/-- `TransmitData`, if its loop ends within `turns` turns. -/
def transmitData : Nat → Transmitter → Option Transmitter
  | 0, _ => none
  | turns + 1, dev =>
    match dev.turn with
    | .again dev => transmitData turns dev
    | .done dev => some dev

/-! ## Sending -/

/-- `transmit_packet_task`; a `memcpy` past the end of `TXBuff` is not looked at. -/
def transmitPacketTask (dev : Transmitter) (buf : List UInt8) (length : UInt8) : Transmitter :=
  let txLen := length + 1
  let txBuff := Vector.ofFn fun i : Fin 64 =>
    if i.val = 0 then txLen
    else if i.val ≤ length.toNat then buf.getD (i.val - 1) 0
    else dev.txBuff[i]
  ({ dev with txLen, txBuff, ubRFState := .txXtalwait }.read .powstickystat).2

/-- `Normal_send`. -/
def normalSend (dev : Transmitter) (buf : List UInt8) (length : UInt8) : Transmitter :=
  { dev with txbufferCnt := 0 }.transmitPacketTask buf length

/-- `case trxstate_tx_xtalwait` of `rf_433_task_callback`, up to its call of `TransmitData`. -/
def xtalReady (dev : Transmitter) : Transmitter :=
  let (_, dev) := dev.read .radioeventreq0
  let (modulation, dev) := { dev with fifo := [], ubRFState := .txLongpreamble }.read .modulation
  if modulation &&& 0x0F = 9 then dev.write [0xE1, 2, 0x01, 0x11] else dev

end Transmitter

/-- The frame of a message, between two letters `tag`: `"M{%08ld,%08ld,%02d,%02d}M"`. -/
def frameText (tag : UInt8) (selfId : UInt32) (m : Slot) : List UInt8 :=
  tag :: 123 :: (zeroPadded 8 (i32 m.targetId) ++ 44 :: (zeroPadded 8 (i32 selfId) ++
    44 :: (zeroPadded 2 m.command.toNat ++ 44 :: (zeroPadded 2 m.data.toNat ++ [125, tag]))))

/-! ## The radio task -/

/-- A device with its send timer. -/
structure RadioTask where
  dev : Transmitter
  sendTimer : Timer := { initTick := 1000 }

namespace RadioTask

/-- `rf_433_send`, `rf_4068_send`; the letter is `M`. -/
def send (tag : UInt8) (selfId : UInt32) (t : RadioTask) (m : Slot) : RadioTask where
  dev := t.dev.normalSend (frameText tag selfId m ++ [0]) 28
  sendTimer := t.sendTimer.start

/-- `rf_restart`. -/
def restart (t : RadioTask) : RadioTask := { t with dev.ubRFState := .rx }

/-- `rf_433_send_timer_callback`, `rf_4068_send_timer_callback`. -/
def sendTimerCallback (t : RadioTask) : RadioTask :=
  if t.dev.ubRFState ≠ .rx then t.restart else t

/-- `rf_433_task_callback`, `rf_4068_task_callback`, on an interrupt. In a transmit state
`TransmitData` ends within `turns` turns. Reception leaves the device in `trxstate_rx`. -/
def irq (t : RadioTask) (turns : Nat) : Option RadioTask :=
  match t.dev.ubRFState with
  | .rx => some t
  | .waitXtal => some { t with dev.ubRFState := .xtalReady }
  | .pllRanging => some { t with dev.ubRFState := .pllRangingDone }
  | .pllSettling => some { t with dev.ubRFState := .pllSettled }
  | .txXtalwait => (t.dev.xtalReady.transmitData turns).map fun dev => { t with dev }
  | .txLongpreamble | .txShortpreamble | .txPacket =>
    (t.dev.transmitData turns).map fun dev => { t with dev }
  | .txWaitdone =>
    let (_, dev) := t.dev.read .radioeventreq0
    let (radiostate, dev) := dev.read .radiostate
    let t := { dev, sendTimer := t.sendTimer.stop }
    if radiostate ≠ 0 then some t else some t.restart
  | _ => some t

end RadioTask

/-- An interrupt, a send of the dequeue thread with the timer started behind it, an expiry of the
send timer. -/
inductive RadioAct where
  | irq (turns : Nat)
  | send (m : Slot)
  | sendTimer
  deriving DecidableEq

/-- The atomic steps of a radio of the node `selfId`. -/
def radioStep (tag : UInt8) (selfId : UInt32) : Run.Step RadioTask RadioAct
  | t, .irq turns => t.irq turns
  | t, .send m => some (t.send tag selfId m)
  | t, .sendTimer =>
    if t.sendTimer.armed then some { t with sendTimer := t.sendTimer.expire }.sendTimerCallback
    else none

/-- A radio after its start-up; `reads` is what its registers will return. -/
def RadioTask.start (config : TxConfig) (reads : Reg → Nat → UInt8) : RadioTask :=
  { dev := { config, reads } }

end Spsi
