import Mathlib.Algebra.Group.Nat.Defs
import Mathlib.Tactic.Common
import SpsiMaster.Lib.Newest

/-!
# The registers of the chip

An AX5043 as a map from addresses to bytes that is written and read over SPI, with the functions of
`radio/Radio_Drv.c` as the bytes they send, and `InitAx5043REG` of `radio/Radio_Common.c`.
-/

namespace Spsi

open Newest

-- AX5043.h
abbrev regPinfuncirq : UInt8 := 0x24
abbrev regPktlenoffset : UInt16 := 0x202
abbrev regPktstoreflags : UInt16 := 0x232

/-- The contents of the registers by address. -/
abbrev Registers := UInt16 → UInt8

/-! ## SPI -/

/-- The header of a transfer as the chip reads it: whether it writes, the address, and what
follows. Bit 7 is set for a write; if the three bits below are set, the address has 12 bits and
goes on in a second byte. -/
def spiHeader : List UInt8 → Option (Bool × UInt16 × List UInt8)
  | [] => none
  | h :: bytes =>
    if h &&& 0x70 = 0x70 then
      match bytes with
      | [] => none
      | a :: bytes =>
        some (decide (h &&& 0x80 ≠ 0), ((h &&& 0x0F).toUInt16 <<< 8) ||| a.toUInt16, bytes)
    else some (decide (h &&& 0x80 ≠ 0), (h &&& 0x7F).toUInt16, bytes)

/-- The two header bytes of a long address; `mode` are the upper four bits. -/
def longHeader (mode addr : UInt16) : List UInt8 :=
  let ubAddr := addr ||| mode
  [((ubAddr &&& 0xFF00) >>> 8).toUInt8, (ubAddr &&& 0x00FF).toUInt8]

namespace Registers

variable (regs : Registers)

/-- `rt_spi_send_then_send`, with one byte of data. -/
def sendThenSend (header : List UInt8) (data : UInt8) : Registers :=
  match spiHeader (header ++ [data]) with
  | some (true, addr, [d]) => Function.update regs addr d
  | _ => regs

/-- `rt_spi_send_then_recv`, of one byte. -/
def sendThenRecv (header : List UInt8) : UInt8 :=
  match spiHeader header with
  | some (false, addr, []) => regs addr
  | _ => 0

def spiWriteSingleAddressRegister (addr data : UInt8) : Registers :=
  regs.sendThenSend [addr ||| 0x80] data

def spiWriteLongAddressRegister (addr : UInt16) (data : UInt8) : Registers :=
  regs.sendThenSend (longHeader 0xF000 addr) data

def spiReadLongAddressRegister (addr : UInt16) : UInt8 :=
  regs.sendThenRecv (longHeader 0x7000 addr)

/-- `InitAx5043REG`. The value of an entry is handed on as a `uint8_t`. -/
def initAx5043Reg (regValue : Vector (UInt16 × UInt16) 126) : Registers :=
  -- for (i = 0; i < 125; i++)
  let regs := (regValue.toList.take 125).foldl
    (fun regs e => regs.spiWriteLongAddressRegister e.1 e.2.toUInt8) regs
  let regs := regs.spiWriteLongAddressRegister regPktlenoffset
    (regs.spiReadLongAddressRegister regPktlenoffset)
  let regs := regs.spiWriteSingleAddressRegister regPinfuncirq 0x03
  regs.spiWriteLongAddressRegister regPktstoreflags 0x15

end Registers

/-- `set_registers_433`. -/
def setRegisters433 : Vector (UInt16 × UInt16) 126 :=
  #v[
    (0x010, 0x08), (0x011, 0x00), (0x012, 0x26), (0x021, 0x02), (0x022, 0x82), (0x023, 0x02),
    (0x025, 0x01), (0x026, 0x07), (0x06E, 0x01), (0x100, 0x00), (0x101, 0xFC), (0x102, 0x44),
    (0x103, 0x00), (0x104, 0x9F), (0x105, 0x50), (0x106, 0x00), (0x107, 0x00), (0x108, 0x00),
    (0x109, 0x80), (0x10A, 0x02), (0x10B, 0x31), (0x10C, 0x03), (0x10D, 0x66), (0x10E, 0xFC),
    (0x10F, 0x9A), (0x115, 0x00), (0x117, 0xF4), (0x120, 0xE8), (0x121, 0x84), (0x124, 0x9A),
    (0x125, 0x94), (0x126, 0xC3), (0x127, 0x0F), (0x128, 0x1F), (0x129, 0x0B), (0x12A, 0x0B),
    (0x12B, 0x06), (0x12C, 0x00), (0x12D, 0x00), (0x12F, 0x00), (0x130, 0xE8), (0x131, 0x84),
    (0x132, 0x00), (0x133, 0x00), (0x134, 0x98), (0x135, 0x93), (0x136, 0xC3), (0x137, 0x0F),
    (0x138, 0x1F), (0x139, 0x0B), (0x13A, 0x0B), (0x13B, 0x06), (0x13C, 0x00), (0x13D, 0xEF),
    (0x13E, 0x16), (0x13F, 0x00), (0x150, 0xFF), (0x151, 0x84), (0x152, 0x00), (0x153, 0x00),
    (0x154, 0x97), (0x155, 0x92), (0x156, 0xC3), (0x157, 0x0F), (0x158, 0x1F), (0x159, 0x0D),
    (0x15A, 0x0D), (0x15B, 0x06), (0x15C, 0x00), (0x15D, 0xEF), (0x15E, 0x16), (0x15F, 0x00),
    (0x160, 0x00), (0x161, 0x00), (0x162, 0x02), (0x163, 0x04), (0x164, 0x05), (0x165, 0x00),
    (0x166, 0x01), (0x167, 0x83), (0x16A, 0x07), (0x16B, 0x00), (0x180, 0x99), (0x183, 0x04),
    (0x188, 0x0F), (0x189, 0x77), (0x200, 0x01), (0x201, 0x80), (0x202, 0x00), (0x203, 0xC8),
    (0x210, 0xAA), (0x211, 0xCC), (0x212, 0xAA), (0x213, 0xCC), (0x214, 0x1F), (0x216, 0x1F),
    (0x218, 0x55), (0x219, 0x55), (0x21C, 0x8A), (0x21E, 0x0A), (0x220, 0x3E), (0x221, 0x31),
    (0x223, 0x3E), (0x224, 0x31), (0x225, 0x00), (0x226, 0x7F), (0x228, 0x03), (0x22A, 0x35),
    (0x22D, 0xDD), (0x22F, 0x00), (0x230, 0x0D), (0x233, 0x20), (0x330, 0x00), (0x331, 0x00),
    (0x332, 0x00), (0xF0D, 0x03), (0xF10, 0x04), (0xF11, 0x00), (0xF1C, 0x07), (0xF21, 0x68),
    (0xF22, 0xFF), (0xF23, 0x84), (0xF26, 0x98), (0xF34, 0x28), (0xF35, 0x11), (0xF44, 0x25)]

/-! ## What the transfers do -/

/-- The header of a long address, in numbers. -/
theorem longHeader_eq {mode addr : UInt16} {m : Nat} (hm : m < 16)
    (hmode : mode.toNat = 2 ^ 12 * m) (haddr : addr < 0x1000) :
    longHeader mode addr =
      [UInt8.ofNat (16 * m + addr.toNat / 256), UInt8.ofNat (addr.toNat % 256)] := by
  have hlt : addr.toNat < 2 ^ 12 := UInt16.lt_iff_toNat_lt.1 haddr
  have hor : (addr ||| mode).toNat = 2 ^ 12 * m + addr.toNat := by
    rw [UInt16.toNat_or, Nat.or_comm, hmode]
    exact (Nat.two_pow_add_eq_or_of_lt hlt m).symm
  have hhigh : (((addr ||| mode) &&& 0xFF00) >>> 8).toUInt8 =
      UInt8.ofNat (16 * m + addr.toNat / 256) := by
    have hdiv : ((2 ^ 12 * m + addr.toNat) &&& 0xFF00) >>> 8 = 16 * m + addr.toNat / 256 := by
      rw [Nat.shiftRight_and_distrib, Nat.shiftRight_eq_div_pow]
      refine (Nat.and_two_pow_sub_one_eq_mod _ 8).trans ?_
      omega
    rw [← UInt8.toNat_inj, UInt16.toNat_toUInt8, UInt16.toNat_shiftRight, UInt16.toNat_and, hor,
      UInt8.toNat_ofNat']
    exact congrArg (· % 256) hdiv
  have hlow : ((addr ||| mode) &&& 0x00FF).toUInt8 = UInt8.ofNat (addr.toNat % 256) := by
    have hmod : (2 ^ 12 * m + addr.toNat) &&& 0x00FF = addr.toNat % 256 := by
      refine (Nat.and_two_pow_sub_one_eq_mod _ 8).trans ?_
      omega
    rw [← UInt8.toNat_inj, UInt16.toNat_toUInt8, UInt16.toNat_and, hor, UInt8.toNat_ofNat']
    exact congrArg (· % 256) hmod
  simp only [longHeader, hhigh, hlow]

/-- The chip reads a long address as it was meant. -/
theorem spiHeader_long {addr : UInt16} (haddr : addr < 0x1000) (data : List UInt8) :
    spiHeader (longHeader 0xF000 addr ++ data) = some (true, addr, data) ∧
      spiHeader (longHeader 0x7000 addr ++ data) = some (false, addr, data) := by
  have hlt : addr.toNat < 4096 := UInt16.lt_iff_toNat_lt.1 haddr
  -- the upper byte by the four bits of the address that are in it
  have hall : ∀ k : Fin 16,
      (UInt8.ofNat (16 * 15 + k) &&& 0x70 = 0x70 ∧ UInt8.ofNat (16 * 15 + k) &&& 0x80 ≠ 0 ∧
        (UInt8.ofNat (16 * 15 + k) &&& 0x0F).toUInt16 <<< 8 = UInt16.ofNat (2 ^ 8 * k)) ∧
      UInt8.ofNat (16 * 7 + k) &&& 0x70 = 0x70 ∧ UInt8.ofNat (16 * 7 + k) &&& 0x80 = 0 ∧
        (UInt8.ofNat (16 * 7 + k) &&& 0x0F).toUInt16 <<< 8 = UInt16.ofNat (2 ^ 8 * k) := by
    decide
  have hjoin : UInt16.ofNat (2 ^ 8 * (addr.toNat / 256)) |||
      (UInt8.ofNat (addr.toNat % 256)).toUInt16 = addr := by
    have hmod : addr.toNat % 256 < 2 ^ 8 := Nat.mod_lt _ (by decide)
    have hor := Nat.two_pow_add_eq_or_of_lt hmod (addr.toNat / 256)
    have hhigh : 2 ^ 8 * (addr.toNat / 256) % 2 ^ 16 = 2 ^ 8 * (addr.toNat / 256) :=
      Nat.mod_eq_of_lt (by omega)
    rw [← UInt16.toNat_inj, UInt16.toNat_or, UInt16.toNat_ofNat', UInt8.toNat_toUInt16,
      UInt8.toNat_ofNat', Nat.mod_eq_of_lt hmod, hhigh, ← hor]
    exact Nat.div_add_mod addr.toNat 256
  obtain ⟨⟨hw1, hw2, hw3⟩, hr1, hr2, hr3⟩ := hall ⟨addr.toNat / 256, by omega⟩
  constructor
  · rw [longHeader_eq (by decide : 15 < 16) rfl haddr]
    simp only [spiHeader, List.cons_append, List.nil_append, hw1, hw3, hjoin, if_true]
    rw [decide_eq_true hw2]
  · rw [longHeader_eq (by decide : 7 < 16) rfl haddr]
    simp only [spiHeader, List.cons_append, List.nil_append, hr1, hr3, hjoin, if_true]
    rw [decide_eq_false (not_not_intro hr2)]

/-- The short form of an address. -/
theorem spiHeader_single {addr : UInt8} (haddr : addr < 0x70) (data : List UInt8) :
    spiHeader ((addr ||| 0x80) :: data) = some (true, addr.toUInt16, data) := by
  have hlt : addr.toNat < 112 := UInt8.lt_iff_toNat_lt.1 haddr
  have hall : ∀ a : Fin 112, ¬ (UInt8.ofNat a ||| 0x80) &&& 0x70 = 0x70 ∧
      (UInt8.ofNat a ||| 0x80) &&& 0x80 ≠ 0 ∧
        (UInt8.ofNat a ||| 0x80) &&& 0x7F = UInt8.ofNat a := by
    decide
  obtain ⟨h1, h2, h3⟩ := hall ⟨addr.toNat, hlt⟩
  rw [UInt8.ofNat_toNat] at h1 h2 h3
  simp only [spiHeader, if_neg h1, h3, decide_eq_true h2]

namespace Registers

variable (regs : Registers)

theorem spiWriteLong_eq {addr : UInt16} (haddr : addr < 0x1000) (data : UInt8) :
    regs.spiWriteLongAddressRegister addr data = Function.update regs addr data := by
  simp only [spiWriteLongAddressRegister, sendThenSend, (spiHeader_long haddr [data]).1]

theorem spiWriteSingle_eq {addr : UInt8} (haddr : addr < 0x70) (data : UInt8) :
    regs.spiWriteSingleAddressRegister addr data = Function.update regs addr.toUInt16 data := by
  simp only [spiWriteSingleAddressRegister, sendThenSend, List.cons_append, List.nil_append,
    spiHeader_single haddr]

theorem spiReadLong_eq {addr : UInt16} (haddr : addr < 0x1000) :
    regs.spiReadLongAddressRegister addr = regs addr := by
  have hheader := (spiHeader_long haddr []).2
  rw [List.append_nil] at hheader
  simp only [spiReadLongAddressRegister, sendThenRecv, hheader]

/-- **The two forms of an address** mean the same register where both exist. -/
theorem spiWriteSingle_eq_long {addr : UInt8} (haddr : addr < 0x70) (data : UInt8) :
    regs.spiWriteSingleAddressRegister addr data =
      regs.spiWriteLongAddressRegister addr.toUInt16 data := by
  have hlt : addr.toNat < 112 := UInt8.lt_iff_toNat_lt.1 haddr
  have hlong : addr.toUInt16 < 0x1000 := UInt16.lt_iff_toNat_lt.2 (by simp; omega)
  rw [spiWriteSingle_eq regs haddr, spiWriteLong_eq regs hlong]

end Registers

end Spsi
