import SpsiMaster.Flash.Partition

/-!
# Partitions on one device

An access to one partition leaves another one alone exactly if it stays clear of its bytes. In
`FAL_PART_TABLE` the ranges of `filesystem` and `download` have one MiB in common, the last one of
the former and the first one of the latter (`access_undisturbed_iff`).
-/

namespace Spsi

/-- A call of `fal_partition_write` or `fal_partition_erase`, apart from the data. -/
inductive FalOp where
  | write (addr size : UInt32)
  | erase (addr size : UInt32)
  deriving DecidableEq

namespace FalOp

def addr : FalOp → UInt32
  | write addr _ => addr
  | erase addr _ => addr

def size : FalOp → UInt32
  | write _ size => size
  | erase _ size => size

/-- What a call leaves on the devices. -/
def run (op : FalOp) (ops : FlashDev → FlashOps) (part : Partition) (buf : Nat → UInt8)
    (flash : Flash) : Flash :=
  match op with
  | write addr size => (falPartitionWrite ops part addr size flash buf).2
  | erase addr size => (falPartitionErase ops part addr size flash).2

/-- The access is within the partition; an erase is one of whole blocks. -/
def InRange (op : FalOp) (part : Partition) : Prop :=
  op.addr.toNat + op.size.toNat ≤ part.len.toNat ∧
    match op with
    | write _ _ => True
    | erase addr size => 4096 ∣ addr.toNat ∧ 4096 ∣ size.toNat

end FalOp

/-- Every byte that can be read through a partition. -/
def SameBytes (part : Partition) (flash flash' : Flash) : Prop :=
  ∀ addr : UInt32, addr < part.len →
    falPartitionRead part addr 1 flash' = falPartitionRead part addr 1 flash

/-- No call of `op` on `part` changes a byte of `other`, whatever is written, with any driver. -/
def Undisturbed (op : FalOp) (part other : Partition) : Prop :=
  ∀ ops buf flash, SameBytes other flash (op.run ops part buf flash)

/-! ## One access -/

/-- A partition is in the range of its device that an offset of 32 bits can name. -/
def Partition.Fits (part : Partition) : Prop := part.offset.toNat + part.len.toNat < 2 ^ 32

section
variable {part : Partition} {addr size : UInt32} {flash : Flash}

theorem not_outOfRange (h : addr.toNat + size.toNat ≤ part.len.toNat) :
    ¬ addr + size > part.len := by
  have hlen := part.len.toNat_lt
  rw [gt_iff_lt, UInt32.lt_iff_toNat_lt, UInt32.toNat_add, Nat.mod_eq_of_lt (by omega)]
  omega

/-- An offset on the device. -/
theorem toNat_offset_add (hfits : part.Fits) (h : addr.toNat ≤ part.len.toNat) :
    (part.offset + addr).toNat = part.offset.toNat + addr.toNat := by
  unfold Partition.Fits at hfits
  rw [UInt32.toNat_add, Nat.mod_eq_of_lt (by omega)]

/-- Reading a byte of a partition. -/
theorem falPartitionRead_one {dev : FlashDev} (hfits : part.Fits)
    (hdev : falFlashDeviceFind part.flashName = some dev) (haddr : addr < part.len) :
    falPartitionRead part addr 1 flash = some [flash dev (part.offset.toNat + addr.toNat)] := by
  have hlt := UInt32.lt_iff_toNat_lt.1 haddr
  have hone : (1 : UInt32).toNat = 1 := rfl
  rw [falPartitionRead, if_neg (not_outOfRange (by omega)), hdev,
    toNat_offset_add hfits (Nat.le_of_lt hlt)]
  rfl

/-- An access in range gets through to the driver. -/
theorem falPartitionAccess_eq {dev : FlashDev} (hfits : part.Fits)
    (hdev : falFlashDeviceFind part.flashName = some dev)
    (h : addr.toNat + size.toNat ≤ part.len.toNat)
    (op : FlashDev → Nat → Contents → Int × Contents) :
    falPartitionAccess part addr size flash op =
      ((op dev (part.offset.toNat + addr.toNat) (flash dev)).1,
        Function.update flash dev (op dev (part.offset.toNat + addr.toNat) (flash dev)).2) := by
  unfold falPartitionAccess
  rw [if_neg (not_outOfRange h), hdev,
    toNat_offset_add hfits (Nat.le_trans (Nat.le_add_right _ _) h)]

end

namespace FalOp

/-- What the driver leaves on the device. -/
def change (op : FalOp) (ops : FlashOps) (buf : Nat → UInt8) (offset : Nat) (m : Contents) :
    Contents :=
  match op with
  | write _ size => (ops.write offset buf size.toNat m).2
  | erase _ size => (ops.erase offset size.toNat m).2

theorem change_outside {op : FalOp} {ops : FlashOps} {buf : Nat → UInt8} {offset i : Nat}
    {m : Contents} (h : i < offset ∨ offset + op.size.toNat ≤ i) :
    op.change ops buf offset m i = m i := by
  cases op with
  | write addr size => exact ops.write_outside h
  | erase addr size => exact ops.erase_outside h

/-- A NOR flash can change every byte of the range. -/
theorem change_norOps {op : FalOp} {offset i : Nat} (hlo : offset ≤ i)
    (hhi : i < offset + op.size.toNat) :
    ∃ (buf : Nat → UInt8) (m : Contents), op.change norOps buf offset m i ≠ m i := by
  cases op with
  | write addr size =>
    refine ⟨fun _ => 0, fun _ => 0xFF, fun he => ?_⟩
    have hand : (0xFF : UInt8) &&& 0 = 0xFF := (if_pos ⟨hlo, hhi⟩).symm.trans he
    exact absurd hand (by decide)
  | erase addr size =>
    refine ⟨fun _ => 0, fun _ => 0, fun he => ?_⟩
    have hones : (0xFF : UInt8) = 0 := (if_pos ⟨hlo, hhi⟩).symm.trans he
    exact absurd hones (by decide)

theorem run_eq {op : FalOp} {part : Partition} {dev : FlashDev} (hfits : part.Fits)
    (hdev : falFlashDeviceFind part.flashName = some dev) (h : op.InRange part)
    (ops : FlashDev → FlashOps) (buf : Nat → UInt8) (flash : Flash) :
    op.run ops part buf flash = Function.update flash dev
      (op.change (ops dev) buf (part.offset.toNat + op.addr.toNat) (flash dev)) := by
  cases op with
  | write addr size => exact congrArg Prod.snd (falPartitionAccess_eq hfits hdev h.1 _)
  | erase addr size => exact congrArg Prod.snd (falPartitionAccess_eq hfits hdev h.1 _)

/-- The access has no byte in common with the other partition. -/
def Clear (op : FalOp) (part other : Partition) : Prop :=
  op.size = 0 ∨
    part.offset.toNat + op.addr.toNat + op.size.toNat ≤ other.offset.toNat ∨
    other.offset.toNat + other.len.toNat ≤ part.offset.toNat + op.addr.toNat

end FalOp

section
variable {op : FalOp} {part other : Partition} {dev : FlashDev}

/-- **Two partitions of a device**: what matters is whether the access is clear of the other
one. -/
theorem undisturbed_iff_clear (hfits : part.Fits) (hfits' : other.Fits)
    (hdev : falFlashDeviceFind part.flashName = some dev)
    (hdev' : falFlashDeviceFind other.flashName = some dev) (hpos : 0 < other.len)
    (h : op.InRange part) : Undisturbed op part other ↔ op.Clear part other := by
  constructor
  · intro hu
    refine Classical.byContradiction fun hclear => ?_
    obtain ⟨hsize, hends⟩ := not_or.1 hclear
    obtain ⟨hend, hend'⟩ := not_or.1 hends
    have hsize' : op.size.toNat ≠ 0 := fun h0 => hsize (UInt32.toNat_inj.1 h0)
    have hpos' : 0 < other.len.toNat := UInt32.lt_iff_toNat_lt.1 hpos
    have hlen := other.len.toNat_lt
    -- the first common byte
    obtain ⟨a, ha, hlo, hhi⟩ : ∃ a < other.len.toNat,
        part.offset.toNat + op.addr.toNat ≤ other.offset.toNat + a ∧
          other.offset.toNat + a < part.offset.toNat + op.addr.toNat + op.size.toNat :=
      ⟨part.offset.toNat + op.addr.toNat - other.offset.toNat, by omega, by omega, by omega⟩
    have htoNat : (UInt32.ofNat a).toNat = a := by
      rw [UInt32.toNat_ofNat', Nat.mod_eq_of_lt (by omega)]
    have haddr : UInt32.ofNat a < other.len := UInt32.lt_iff_toNat_lt.2 (by omega)
    obtain ⟨buf, m, hchange⟩ := FalOp.change_norOps hlo hhi
    have hsame := hu (fun _ => norOps) buf (fun _ => m) (UInt32.ofNat a) haddr
    rw [falPartitionRead_one hfits' hdev' haddr, falPartitionRead_one hfits' hdev' haddr,
      FalOp.run_eq hfits hdev h, Function.update_self, htoNat] at hsame
    exact hchange (List.cons.inj (Option.some.inj hsame)).1
  · intro hclear ops buf flash addr haddr
    have hlt := UInt32.lt_iff_toNat_lt.1 haddr
    rw [falPartitionRead_one hfits' hdev' haddr, falPartitionRead_one hfits' hdev' haddr,
      FalOp.run_eq hfits hdev h, Function.update_self]
    rw [FalOp.change_outside]
    rcases hclear with h0 | hend | hend
    · rw [h0]
      have hzero : (0 : UInt32).toNat = 0 := rfl
      omega
    · exact .inr (by omega)
    · exact .inl (by omega)

end

/-! ## The table -/

/-- The access is not one in the MiB that `filesystem` and `download` have in common. -/
def FalOp.KeepsOff (op : FalOp) (part other : Partition) : Prop :=
  op.size = 0 ∨
    (part = filesystem → other = download → op.addr.toNat + op.size.toNat ≤ 13 * 2 ^ 20) ∧
      (part = download → other = filesystem → 2 ^ 20 ≤ op.addr.toNat)

theorem falPartTable_spec : ∀ part ∈ falPartTable,
    part.offset.toNat + part.len.toNat < 2 ^ 32 ∧ 0 < part.len ∧
      (falFlashDeviceFind part.flashName).isSome := by
  decide

theorem falPartTable_pairs : ∀ part ∈ falPartTable, ∀ other ∈ falPartTable, part ≠ other →
    part.flashName = other.flashName → (part, other) ∈
      [(easyflash, filesystem), (filesystem, easyflash), (easyflash, download),
        (download, easyflash), (filesystem, download), (download, filesystem)] := by
  decide

section
variable {op : FalOp} {part other : Partition}

theorem clear_iff_keepsOff (hpart : part ∈ falPartTable) (hother : other ∈ falPartTable)
    (hne : part ≠ other) (hdev : part.flashName = other.flashName) (h : op.InRange part) :
    op.Clear part other ↔ op.KeepsOff part other := by
  have hrange := h.1
  have heasy : easyflash.offset.toNat = 0 ∧ easyflash.len.toNat = 2 ^ 20 := by decide
  have hfile : filesystem.offset.toNat = 2 ^ 20 ∧ filesystem.len.toNat = 14 * 2 ^ 20 := by decide
  have hdown : download.offset.toNat = 14 * 2 ^ 20 ∧ download.len.toNat = 2 * 2 ^ 20 := by decide
  have hpairs := falPartTable_pairs part hpart other hother hne hdev
  refine or_congr_right ?_
  simp only [List.mem_cons, List.not_mem_nil, or_false, Prod.mk.injEq] at hpairs
  rcases hpairs with ⟨rfl, rfl⟩ | ⟨rfl, rfl⟩ | ⟨rfl, rfl⟩ | ⟨rfl, rfl⟩ | ⟨rfl, rfl⟩ | ⟨rfl, rfl⟩
  · exact iff_of_true (by omega)
      ⟨fun hp _ => absurd hp (by decide), fun hp _ => absurd hp (by decide)⟩
  · exact iff_of_true (by omega)
      ⟨fun _ ho => absurd ho (by decide), fun hp _ => absurd hp (by decide)⟩
  · exact iff_of_true (by omega)
      ⟨fun hp _ => absurd hp (by decide), fun hp _ => absurd hp (by decide)⟩
  · exact iff_of_true (by omega)
      ⟨fun hp _ => absurd hp (by decide), fun _ ho => absurd ho (by decide)⟩
  · constructor
    · exact fun hclear => ⟨fun _ _ => by omega, fun hp _ => absurd hp (by decide)⟩
    · intro hkeeps
      have hle := hkeeps.1 rfl rfl
      omega
  · constructor
    · exact fun hclear => ⟨fun hp _ => absurd hp (by decide), fun _ _ => by omega⟩
    · intro hkeeps
      have hle := hkeeps.2 rfl rfl
      omega

/-- **Partitions do not disturb each other** exactly as long as no access is one in the last MiB of
`filesystem` or the first MiB of `download`. -/
theorem access_undisturbed_iff (hpart : part ∈ falPartTable) (hother : other ∈ falPartTable)
    (hne : part ≠ other) (hdev : part.flashName = other.flashName) (h : op.InRange part) :
    Undisturbed op part other ↔ op.KeepsOff part other := by
  obtain ⟨hfits, -, hfind⟩ := falPartTable_spec part hpart
  obtain ⟨hfits', hpos, -⟩ := falPartTable_spec other hother
  obtain ⟨dev, hsome⟩ := Option.isSome_iff_exists.1 hfind
  rw [undisturbed_iff_clear hfits hfits' hsome (hdev ▸ hsome) hpos h]
  exact clear_iff_keepsOff hpart hother hne hdev h

end

/-- The file system erases its last block below 13 MiB, next to the first block of `download`. -/
theorem access_undisturbed_download :
    Undisturbed (.erase (13 * 1024 * 1024 - 4096) 4096) filesystem download := by
  have hiff : Undisturbed (.erase (13 * 1024 * 1024 - 4096) 4096) filesystem download ↔
      (FalOp.erase (13 * 1024 * 1024 - 4096) 4096).KeepsOff filesystem download :=
    access_undisturbed_iff (by decide) (by decide) (by decide) rfl ⟨by decide, by decide⟩
  exact hiff.2 (.inr ⟨fun _ _ => by decide, fun hp => absurd hp (by decide)⟩)

/-- The file system erases its block at 13 MiB, and with it the first block of `download`. -/
theorem access_disturbed_download :
    filesystem ∈ falPartTable ∧ download ∈ falPartTable ∧ filesystem ≠ download ∧
      filesystem.flashName = download.flashName ∧
      (FalOp.erase (13 * 1024 * 1024) 4096).InRange filesystem ∧
      ¬ Undisturbed (.erase (13 * 1024 * 1024) 4096) filesystem download := by
  refine ⟨by decide, by decide, by decide, rfl, ⟨by decide, by decide⟩, fun hu => ?_⟩
  have hsame := hu (fun _ => norOps) (fun _ => 0) (fun _ _ => 0) 0 (by decide)
  exact absurd hsame (by decide)

end Spsi
