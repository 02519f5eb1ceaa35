import SpsiMaster.Lib.ByteMem
import SpsiMaster.Lib.CInt
import SpsiMaster.Lib.Printf
import SpsiMaster.Lib.Serial

/-!
# The system heap

`rt-thread/src/mem.c` on a 32-bit machine with `RT_USING_MEMTRACE`, over the bytes of the memory.
A pointer is an address, a `struct heap_mem *` the address of a header; `next` and `prev` in a
header count from `heap_ptr`. What `heap_sem` protects is one step. A function that never returns,
in a loop or in `rt_assert_handler`, gives `none`.
-/

namespace Rtos

open ByteMem

/-! ## Sizes -/

def heapMagic : Nat := 0x1ea0

/-- `SIZEOF_STRUCT_MEM`: two half words, two words and the thread name. -/
abbrev sizeofStructMem : Nat := 16

/-- `MIN_SIZE`, and `MIN_SIZE_ALIGNED`. -/
abbrev minSize : Nat := 12

/-- The period of `rt_size_t`. -/
abbrev sizePeriod : Nat := 4294967296

/-- The difference of two values of type `rt_size_t`. -/
def sizeSub (a b : Nat) : Nat := (a + sizePeriod - b) % sizePeriod

/-- `RT_ALIGN(size, RT_ALIGN_SIZE)`. -/
def rtAlign (size : Nat) : Nat := (size + 3) % sizePeriod / 4 * 4

/-- `RT_ALIGN_DOWN(size, RT_ALIGN_SIZE)`. -/
def rtAlignDown (size : Nat) : Nat := size / 4 * 4

/-! ## The heap -/

/-- The memory and the static variables of the heap. `heapEnd` is set once. -/
structure Heap where
  mem : Mem
  heapPtr : Nat
  memSizeAligned : Nat
  lfree : Nat
  usedMem : Nat
  maxMem : Nat

namespace Heap

def heapEnd (h : Heap) : Nat := h.heapPtr + (h.memSizeAligned + sizeofStructMem)

/-! ### `struct heap_mem` -/

def magic (h : Heap) (p : Nat) : Nat := load h.mem p 2
def used (h : Heap) (p : Nat) : Nat := load h.mem (p + 2) 2
def next (h : Heap) (p : Nat) : Nat := load h.mem (p + 4) 4
def prev (h : Heap) (p : Nat) : Nat := load h.mem (p + 8) 4

def setMagic (h : Heap) (p v : Nat) : Heap := { h with mem := store h.mem p 2 v }
def setUsed (h : Heap) (p v : Nat) : Heap := { h with mem := store h.mem (p + 2) 2 v }
def setNext (h : Heap) (p v : Nat) : Heap := { h with mem := store h.mem (p + 4) 4 v }
def setPrev (h : Heap) (p v : Nat) : Heap := { h with mem := store h.mem (p + 8) 4 v }

/-- `rt_mem_setname`: the first characters of the name, filled up with blanks. -/
def setname (h : Heap) (p : Nat) (name : List UInt8) : Heap :=
  { h with mem := write h.mem (p + 12) ((name ++ List.replicate 4 32).take 4) }

/-! ### Initialisation -/

/-- `rt_system_heap_init`; `none` where it prints the error. -/
def rtSystemHeapInit (m : Mem) (beginAddr endAddr : Nat) : Option Heap :=
  let beginAlign := rtAlign beginAddr
  let endAlign := rtAlignDown endAddr
  if endAlign > 2 * sizeofStructMem ∧ endAlign - 2 * sizeofStructMem ≥ beginAlign then
    let size := endAlign - beginAlign - 2 * sizeofStructMem
    let h : Heap := ⟨m, beginAlign, size, beginAlign, 0, 0⟩
    let mem := h.heapPtr
    let h := (((h.setMagic mem heapMagic).setNext mem (size + sizeofStructMem)).setPrev mem 0)
      |>.setUsed mem 0
    let h := h.setname mem (Printf.ascii "INIT")
    let e := h.heapEnd
    let h := (((h.setMagic e heapMagic).setUsed e 1).setNext e (size + sizeofStructMem))
      |>.setPrev e (size + sizeofStructMem)
    some (h.setname e (Printf.ascii "INIT"))
  else none

/-! ### Holes -/

/-- `plug_holes`, forward. -/
def plugForward (h : Heap) (mem : Nat) : Heap :=
  let nmem := h.heapPtr + h.next mem
  if mem ≠ nmem ∧ h.used nmem = 0 ∧ nmem ≠ h.heapEnd then
    let h := { h with lfree := if h.lfree = nmem then mem else h.lfree }
    let h := h.setNext mem (h.next nmem)
    h.setPrev (h.heapPtr + h.next nmem) (mem - h.heapPtr)
  else h

/-- `plug_holes`, backward. -/
def plugBackward (h : Heap) (mem : Nat) : Heap :=
  let pmem := h.heapPtr + h.prev mem
  if pmem ≠ mem ∧ h.used pmem = 0 then
    let h := { h with lfree := if h.lfree = mem then pmem else h.lfree }
    let h := h.setNext pmem (h.next mem)
    h.setPrev (h.heapPtr + h.next mem) (pmem - h.heapPtr)
  else h

def plugHoles (h : Heap) (mem : Nat) : Option Heap :=
  if h.heapPtr ≤ mem ∧ mem < h.heapEnd ∧ h.used mem = 0 then
    some ((h.plugForward mem).plugBackward mem)
  else none

/-! ### Allocation -/

/-- More rounds than any walk over the blocks takes. -/
def fuel (h : Heap) : Nat := h.memSizeAligned + 1

/-- `used_mem += size` with the new `max_mem`. -/
def account (h : Heap) (size : Nat) : Heap :=
  let usedMem := (h.usedMem + size) % sizePeriod
  { h with usedMem := usedMem, maxMem := if h.maxMem < usedMem then usedMem else h.maxMem }

/-- A new free block at `ptr2`, between the block at `ptr` and the one behind it. -/
def splitBlock (h : Heap) (ptr ptr2 : Nat) : Heap :=
  let mem := h.heapPtr + ptr
  let mem2 := h.heapPtr + ptr2
  let h := (h.setMagic mem2 heapMagic).setUsed mem2 0
  let h := (h.setNext mem2 (h.next mem)).setPrev mem2 ptr
  let h := h.setname mem2 (Printf.ascii "    ")
  let h := h.setNext mem ptr2
  if h.next mem2 ≠ h.memSizeAligned + sizeofStructMem then
    h.setPrev (h.heapPtr + h.next mem2) ptr2
  else h

/-- `rt_malloc` with the block it has found: split a large block, take a small one whole. -/
def mallocCarve (h : Heap) (ptr size : Nat) : Heap :=
  let mem := h.heapPtr + ptr
  if sizeSub (h.next mem) (ptr + sizeofStructMem) ≥ size + sizeofStructMem + minSize then
    ((h.splitBlock ptr (ptr + sizeofStructMem + size)).setUsed mem 1).account
      (size + sizeofStructMem)
  else (h.setUsed mem 1).account (sizeSub (h.next mem) ptr)

/-- `while (lfree->used && lfree != heap_end) lfree = &heap_ptr[lfree->next]`. -/
def lfreeAdvance (h : Heap) : Nat → Nat → Option Nat
  | 0, _ => none
  | fuel + 1, lfree =>
    if h.used lfree ≠ 0 ∧ lfree ≠ h.heapEnd then
      lfreeAdvance h fuel (h.heapPtr + h.next lfree)
    else some lfree

/-- `rt_malloc` with the block it has found. -/
def mallocTake (h : Heap) (self : Option (List UInt8)) (ptr size : Nat) : Option (Nat × Heap) :=
  let mem := h.heapPtr + ptr
  let h := (h.mallocCarve ptr size).setMagic mem heapMagic
  let h := h.setname mem (self.getD (Printf.ascii "NONE"))
  (if mem = h.lfree then lfreeAdvance h h.fuel h.lfree else some h.lfree).bind fun lfree =>
    if mem + sizeofStructMem + size ≤ h.heapEnd ∧ (mem + sizeofStructMem) % 4 = 0 ∧ mem % 4 = 0 then
      some (mem + sizeofStructMem, { h with lfree := lfree })
    else none

/-- The search of `rt_malloc`. -/
def mallocLoop (h : Heap) (self : Option (List UInt8)) (size : Nat) :
    Nat → Nat → Option (Nat × Heap)
  | 0, _ => none
  | fuel + 1, ptr =>
    if ptr < sizeSub h.memSizeAligned size then
      let mem := h.heapPtr + ptr
      if h.used mem = 0 ∧ sizeSub (h.next mem) (ptr + sizeofStructMem) ≥ size then
        h.mallocTake self ptr size
      else mallocLoop h self size fuel (h.next mem)
    else some (0, h)

/-- `rt_malloc` in a thread with the name `self`, if there is one. -/
def rtMalloc (h : Heap) (self : Option (List UInt8)) (size : Nat) : Option (Nat × Heap) :=
  if size = 0 then some (0, h)
  else
    let size := rtAlign size
    if size > h.memSizeAligned then some (0, h)
    else
      let size := if size < minSize then minSize else size
      h.mallocLoop self size h.fuel (h.lfree - h.heapPtr)

/-- `rt_calloc`. -/
def rtCalloc (h : Heap) (self : Option (List UInt8)) (count size : Nat) : Option (Nat × Heap) :=
  (h.rtMalloc self (count * size % sizePeriod)).map fun (p, h) =>
    if p ≠ 0 then
      (p, { h with mem := write h.mem p (List.replicate (count * size % sizePeriod) 0) })
    else (p, h)

/-! ### Release -/

/-- `rt_free`. The assertions leave no address to the check for an illegal one. -/
def rtFree (h : Heap) (rmem : Nat) : Option Heap :=
  if rmem = 0 then some h
  else if rmem % 4 = 0 ∧ h.heapPtr ≤ rmem ∧ rmem < h.heapEnd then
    let mem := sizeSub rmem sizeofStructMem
    if h.used mem ≠ 0 ∧ h.magic mem = heapMagic then
      let h := ((h.setUsed mem 0).setMagic mem heapMagic).setname mem (Printf.ascii "    ")
      let h := { h with
        lfree := if mem < h.lfree then mem else h.lfree
        usedMem := sizeSub h.usedMem (sizeSub (h.next mem) (sizeSub mem h.heapPtr)) }
      h.plugHoles mem
    else none
  else none

/-- `rt_realloc` for a smaller size: the rest of the block becomes free. -/
def reallocShrink (h : Heap) (ptr size newsize : Nat) : Option Heap :=
  let h := { h with usedMem := sizeSub h.usedMem (sizeSub size newsize) }
  let ptr2 := ptr + sizeofStructMem + newsize
  let h := h.splitBlock ptr ptr2
  let mem2 := h.heapPtr + ptr2
  let h := { h with lfree := if mem2 < h.lfree then mem2 else h.lfree }
  h.plugHoles mem2

/-- `rt_realloc` by a new block. -/
def reallocMove (h : Heap) (self : Option (List UInt8)) (rmem size newsize : Nat) :
    Option (Nat × Heap) :=
  (h.rtMalloc self newsize).bind fun (nmem, h) =>
    if nmem ≠ 0 then
      let n := if size < newsize then size else newsize
      let h := { h with mem := write h.mem nmem (read h.mem rmem n) }
      (h.rtFree rmem).map fun h => (nmem, h)
    else some (nmem, h)

/-- `rt_realloc`. -/
def rtRealloc (h : Heap) (self : Option (List UInt8)) (rmem newsize : Nat) :
    Option (Nat × Heap) :=
  let newsize := rtAlign newsize
  if newsize > h.memSizeAligned then some (0, h)
  else if newsize = 0 then (h.rtFree rmem).map fun h => (0, h)
  else if rmem = 0 then h.rtMalloc self newsize
  else if rmem < h.heapPtr ∨ rmem ≥ h.heapEnd then some (rmem, h)
  else
    let mem := sizeSub rmem sizeofStructMem
    let ptr := sizeSub mem h.heapPtr
    let size := sizeSub (h.next mem) (ptr + sizeofStructMem)
    if size = newsize then some (rmem, h)
    else if newsize + sizeofStructMem + minSize < size then
      (h.reallocShrink ptr size newsize).map fun h => (rmem, h)
    else h.reallocMove self rmem size newsize

/-! ### The shell commands -/

/-- A C `int` with the bits of an `rt_ubase_t`. -/
def toInt (n : Nat) : Int := CInt.i32 (UInt32.ofNat n)

/-- The loop of `memcheck` from the header `mem` on: does it leave by `__exit`? -/
def memcheckLoop (h : Heap) : Nat → Nat → Option Bool
  | 0, _ => none
  | fuel + 1, mem =>
    if mem = h.heapEnd then some false
    else
      let position := toInt (sizeSub mem h.heapPtr)
      if position < 0 ∨ position > toInt h.memSizeAligned ∨ h.magic mem ≠ heapMagic ∨
          h.used mem ≠ 0 ∧ h.used mem ≠ 1 then some true
      else memcheckLoop h fuel (h.heapPtr + h.next mem)

/-- `memcheck`: does it print "Memory block wrong"? -/
def memcheck (h : Heap) : Option Bool := h.memcheckLoop h.fuel h.heapPtr

/-- The blocks on the walk of `memtrace`: the position, the size with the header, and whether the
block is used. -/
def memtraceLoop (h : Heap) : Nat → Nat → Option (List (Nat × Nat × Bool))
  | 0, _ => none
  | fuel + 1, mem =>
    if mem = h.heapEnd then some []
    else
      let position := sizeSub mem h.heapPtr
      (memtraceLoop h fuel (h.heapPtr + h.next mem)).map fun l =>
        (position, sizeSub (h.next mem) position, h.used mem ≠ 0) :: l

def memtrace (h : Heap) : Option (List (Nat × Nat × Bool)) := h.memtraceLoop h.fuel h.heapPtr

end Heap

end Rtos
