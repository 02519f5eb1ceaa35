import Mathlib.Algebra.Group.Nat.Defs
import Mathlib.Tactic.Common

/-!
# Flash partitions

`packages/fal-v0.5.0/src/fal_partition.c` on the tables of `applications/fal_cfg.h`: a partition is
a range of a flash device, and its functions hand an access on to the driver of the device at the
offset of the partition. All that is known of a driver is that it changes nothing outside of the
range it is called for.
-/

namespace Spsi

/-! ## Devices -/

/-- `stm32f4_onchip_flash` and `nor_flash0`. -/
inductive FlashDev where
  | stm32f4Onchip
  | norFlash0
  deriving DecidableEq

def FlashDev.name : FlashDev → String
  | stm32f4Onchip => "stm32_onchip"
  | norFlash0 => "norflash0"

/-- `FAL_FLASH_DEV_TABLE`. -/
def deviceTable : List FlashDev := [.stm32f4Onchip, .norFlash0]

/-- `strncmp(s, t, FAL_DEV_NAME_MAX) == 0`. -/
def sameName (s t : String) : Bool := s.toList.take 24 = t.toList.take 24

def falFlashDeviceFind (name : String) : Option FlashDev :=
  deviceTable.find? fun dev => sameName name dev.name

/-- The bytes of a device by offset. -/
abbrev Contents := Nat → UInt8

/-- The operations of a driver: the value they return and the bytes they leave. `buf` is what a
buffer points to. -/
structure FlashOps where
  write : (offset : Nat) → (buf : Nat → UInt8) → (size : Nat) → Contents → Int × Contents
  erase : (offset size : Nat) → Contents → Int × Contents
  write_outside : ∀ {offset : Nat} {buf : Nat → UInt8} {size : Nat} {m : Contents} {i : Nat},
    i < offset ∨ offset + size ≤ i → (write offset buf size m).2 i = m i
  erase_outside : ∀ {offset size : Nat} {m : Contents} {i : Nat},
    i < offset ∨ offset + size ≤ i → (erase offset size m).2 i = m i

/-- The devices with what is on them. -/
abbrev Flash := FlashDev → Contents

/-! ## Partitions -/

structure Partition where
  name : String
  flashName : String
  offset : UInt32
  len : UInt32
  deriving DecidableEq

def app : Partition := ⟨"app", "stm32_onchip", 256 * 1024, 256 * 1024⟩
def easyflash : Partition := ⟨"easyflash", "norflash0", 0, 1024 * 1024⟩
def filesystem : Partition := ⟨"filesystem", "norflash0", 1 * 1024 * 1024, 14 * 1024 * 1024⟩
def download : Partition := ⟨"download", "norflash0", 14 * 1024 * 1024, 2 * 1024 * 1024⟩

/-- `FAL_PART_TABLE`. -/
def falPartTable : List Partition := [app, easyflash, filesystem, download]

section
variable (ops : FlashDev → FlashOps) (part : Partition) (addr : UInt32) (size : UInt32)
  (flash : Flash)

/-- `fal_partition_read`: the bytes that are read, if it does not fail. -/
def falPartitionRead : Option (List UInt8) :=
  if addr + size > part.len then none
  else
    (falFlashDeviceFind part.flashName).map fun dev =>
      (List.range size.toNat).map fun i => flash dev ((part.offset + addr).toNat + i)

/-- The range check, the search for the device, and its operation, which gets the device and the
offset on it. -/
def falPartitionAccess (op : FlashDev → Nat → Contents → Int × Contents) : Int × Flash :=
  if addr + size > part.len then (-1, flash)
  else
    match falFlashDeviceFind part.flashName with
    | none => (-1, flash)
    | some dev =>
      let (ret, m) := op dev (part.offset + addr).toNat (flash dev)
      (ret, Function.update flash dev m)

/-- `fal_partition_write`. -/
def falPartitionWrite (buf : Nat → UInt8) : Int × Flash :=
  falPartitionAccess part addr size flash fun dev offset => (ops dev).write offset buf size.toNat

/-- `fal_partition_erase`. -/
def falPartitionErase : Int × Flash :=
  falPartitionAccess part addr size flash fun dev offset => (ops dev).erase offset size.toNat

end

/-- A NOR flash: a write clears bits, an erase sets them. -/
def norOps : FlashOps where
  write offset buf size m :=
    (size, fun i => if offset ≤ i ∧ i < offset + size then m i &&& buf (i - offset) else m i)
  erase offset size m := (size, fun i => if offset ≤ i ∧ i < offset + size then 0xFF else m i)
  write_outside h := if_neg fun hin => by omega
  erase_outside h := if_neg fun hin => by omega

end Spsi
