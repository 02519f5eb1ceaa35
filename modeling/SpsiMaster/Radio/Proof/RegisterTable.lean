import SpsiMaster.Radio.Registers

/-!
# The register table

`InitAx5043REG` writes the first 125 of the 126 entries of its table (`initAx5043Reg_eq`). The
registers hold the whole table exactly if the last entry does not matter
(`initAx5043Reg_reaches_iff`); the last entry of the table for 433 MHz does.
-/

namespace Spsi

open Newest

/-- The entries of a table as writes of bytes. -/
def tableEntries (regValue : Vector (UInt16 × UInt16) 126) : List (UInt16 × UInt8) :=
  regValue.toList.map fun e => (e.1, e.2.toUInt8)

/-- The registers that `InitAx5043REG` sets after the table. -/
def Overridden (addr : UInt16) : Prop := addr = regPinfuncirq.toUInt16 ∨ addr = regPktstoreflags

/-- The whole table has reached the chip, whose registers were `old` before. -/
structure TableReaches (regValue : Vector (UInt16 × UInt16) 126) (old new : Registers) : Prop where
  pinfuncirq : new regPinfuncirq.toUInt16 = 0x03
  pktstoreflags : new regPktstoreflags = 0x15
  /-- A register of the table holds the value of its last occurrence. -/
  table : ∀ addr data, ¬ Overridden addr → lastWrite (tableEntries regValue) addr = some data →
    new addr = data
  others : ∀ addr, ¬ Overridden addr → lastWrite (tableEntries regValue) addr = none →
    new addr = old addr

namespace Registers

/-- The loop over the entries. -/
theorem foldl_spiWriteLong {es : List (UInt16 × UInt16)} (h : ∀ e ∈ es, e.1 < 0x1000)
    (regs : Registers) :
    es.foldl (fun regs e => regs.spiWriteLongAddressRegister e.1 e.2.toUInt8) regs =
      writes regs (es.map fun e => (e.1, e.2.toUInt8)) := by
  induction es generalizing regs with
  | nil => rfl
  | cons e es ih =>
    rw [List.foldl_cons, ih fun e' he' => h e' (List.mem_cons_of_mem _ he'),
      regs.spiWriteLong_eq (h e List.mem_cons_self)]
    rfl

section
variable {regValue : Vector (UInt16 × UInt16) 126}

/-- The first 125 entries, then the two registers behind the loop; what is read from
`PKTLENOFFSET` is written back. -/
theorem initAx5043Reg_eq (h : ∀ e ∈ regValue.toList, e.1 < 0x1000) (regs : Registers) :
    regs.initAx5043Reg regValue =
      Function.update (Function.update (writes regs ((tableEntries regValue).take 125))
        regPinfuncirq.toUInt16 0x03) regPktstoreflags 0x15 := by
  have htake : ∀ e ∈ regValue.toList.take 125, e.1 < 0x1000 := fun e he =>
    h e (List.mem_of_mem_take he)
  have hloop := foldl_spiWriteLong htake regs
  have hlen : regPktlenoffset < 0x1000 := by decide
  have hflags : regPktstoreflags < 0x1000 := by decide
  simp only [initAx5043Reg, hloop, spiReadLong_eq _ hlen, spiWriteLong_eq _ hlen,
    Function.update_eq_self, spiWriteSingle_eq _ (by decide : regPinfuncirq < 0x70),
    spiWriteLong_eq _ hflags, tableEntries, List.map_take]

theorem tableEntries_eq (regValue : Vector (UInt16 × UInt16) 126) : tableEntries regValue =
    (tableEntries regValue).take 125 ++ [(regValue[125].1, regValue[125].2.toUInt8)] := by
  have hlen : (tableEntries regValue).length = 126 := by simp [tableEntries]
  have hlast : (tableEntries regValue)[125] = (regValue[125].1, regValue[125].2.toUInt8) := by
    simp [tableEntries]
  rw [← hlast, ← List.take_succ_eq_append_getElem, List.take_of_length_le (by omega)]

/-- A register that is not set behind the loop. -/
theorem initAx5043Reg_apply (h : ∀ e ∈ regValue.toList, e.1 < 0x1000) (regs : Registers)
    {addr : UInt16} (haddr : ¬ Overridden addr) : regs.initAx5043Reg regValue addr =
      (lastWrite ((tableEntries regValue).take 125) addr).getD (regs addr) := by
  obtain ⟨hirq, hflags⟩ := not_or.1 haddr
  rw [initAx5043Reg_eq h, Function.update_of_ne hflags, Function.update_of_ne hirq, writes_apply]

/-- **The whole table reaches the chip** exactly if its last entry is for a register that is set
afterwards, or has the value that the register has without it. -/
theorem initAx5043Reg_reaches_iff (h : ∀ e ∈ regValue.toList, e.1 < 0x1000) (regs : Registers) :
    TableReaches regValue regs (regs.initAx5043Reg regValue) ↔
      Overridden regValue[125].1 ∨
        (lastWrite ((tableEntries regValue).take 125) regValue[125].1).getD
          (regs regValue[125].1) = regValue[125].2.toUInt8 := by
  have hlast : ∀ addr, lastWrite (tableEntries regValue) addr =
      if regValue[125].1 = addr then some regValue[125].2.toUInt8
      else lastWrite ((tableEntries regValue).take 125) addr := by
    intro addr
    rw [tableEntries_eq, lastWrite_concat, ← tableEntries_eq]
  constructor
  · intro hr
    refine Classical.or_iff_not_imp_left.2 fun hover => ?_
    rw [← initAx5043Reg_apply h regs hover]
    exact hr.table _ _ hover ((hlast _).trans (if_pos rfl))
  · intro hcond
    -- the last entry leaves nothing to write
    have happly : ∀ addr, ¬ Overridden addr → regs.initAx5043Reg regValue addr =
        (lastWrite (tableEntries regValue) addr).getD (regs addr) := by
      intro addr hover
      rw [initAx5043Reg_apply h regs hover, hlast]
      split
      · next ha =>
        subst ha
        exact hcond.resolve_left hover
      · rfl
    refine ⟨?_, ?_, fun addr data hover hd => ?_, fun addr hover hd => ?_⟩
    · rw [initAx5043Reg_eq h]
      rfl
    · rw [initAx5043Reg_eq h]
      rfl
    · rw [happly addr hover, hd, Option.getD_some]
    · rw [happly addr hover, hd, Option.getD_none]

end

theorem setRegisters433_lt : ∀ e ∈ setRegisters433.toList, e.1 < 0x1000 := by
  have hall : (setRegisters433.toList.all fun e => decide (e.1 < 0x1000)) = true := by
    decide +kernel
  exact fun e he => of_decide_eq_true (List.all_eq_true.1 hall e he)

/-- The table for 433 MHz reaches a chip whose register `0xF44` happens to hold its value. -/
theorem initAx5043Reg_reaches_433 :
    TableReaches setRegisters433 (fun _ => 0x25)
      (Registers.initAx5043Reg (fun _ => 0x25) setRegisters433) :=
  (initAx5043Reg_reaches_iff setRegisters433_lt fun _ => 0x25).2 (.inr (by decide +kernel))

/-- On a chip after a reset with zeros, register `0xF44` does not get its value `0x25`. -/
theorem initAx5043Reg_misses_433 : ¬ TableReaches setRegisters433 (fun _ => 0)
    (Registers.initAx5043Reg (fun _ => 0) setRegisters433) := by
  intro h
  have hover : ¬ Overridden 0xF44 := by
    unfold Overridden
    decide
  have hentry : lastWrite (tableEntries setRegisters433) 0xF44 = some 0x25 := by decide +kernel
  have hreg : Registers.initAx5043Reg (fun _ => 0) setRegisters433 0xF44 = 0 := by decide +kernel
  exact absurd (hreg.symm.trans (h.table _ _ hover hentry)) (by decide)

end Registers

end Spsi
