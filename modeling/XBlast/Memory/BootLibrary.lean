import XBlast.Foundation.BlockTable
import XBlast.Foundation.ByteImage

/-!
# The memory manager

`malloc` and `free` of `BootLibrary.c` manage sectors of `0x4000` bytes. The first sector of the
managed memory is a table with one byte for each sector: zero for a free one, `AA` for a block of
one sector, `FE DC BA B8` for a block of four, and `BB CC FF .. FF CC BB` for a longer one.
`t_malloc` takes the first run of free sectors it finds and `t_free` recognises a block by its
marks. `malloc` asks for `0x200` bytes more than the caller, keeps the address of the block and a
magic number in front of the pointer it returns, and `free` finds the block there.

The table and the blocks are in the same memory, a byte for every address. `Heap` is that memory
with the allocations that were made and not yet freed.
-/

set_option autoImplicit false
set_option relaxedAutoImplicit false

namespace XBlast.Memory

open Foundation

def memoryManagerStart : UInt32 := 0x01A00000

def memoryManagerEnd : UInt32 := 0x02FFFFFF

/-- The table with every sector free but the first, which the table itself occupies. -/
def memoryManagementInitialization (start : UInt32) (memory : Bytes) : Bytes :=
  Function.update (fill memory start.toNat 0x4000 0x00) start.toNat 0xFF

section

/-! `start` is the value of `MemoryManagerStartAddress`. -/

variable (start : UInt32)

/-- The entry of the table for a sector. -/
def memsmall (memory : Bytes) (index : ℕ) : UInt8 := memory (start.toNat + index)

/-- The first of the counters `1` to `0x3FF` from which `needed` sectors are free. -/
def findFree (needed : ℕ) (memory : Bytes) : Option ℕ :=
  (List.range' 1 0x3FF).find? fun counter ↦
    ∀ blockcount < needed, memsmall start memory (counter + blockcount) = 0

/-- Marks the first run of free sectors and returns its address, or `0` if there is none. -/
def takeSectors (needed : ℕ) (marked : ℕ → Bytes) (memory : Bytes) :
    UInt32 × Bytes :=
  match findFree start needed memory with
  | some counter => (start + UInt32.ofNat (counter * 0x4000), marked (start.toNat + counter))
  | none => (0, memory)

/-- The marks of a block of more than four sectors, written at an address of the table. -/
def markLarge (needsectory : ℕ) (memory : Bytes) (entry : ℕ) : Bytes :=
  let filled := fill memory entry needsectory 0xFF
  let first := Function.update (Function.update filled (entry + 0) 0xBB) (entry + 1) 0xCC
  Function.update (Function.update first (entry + (needsectory - 2)) 0xCC)
    (entry + (needsectory - 1)) 0xBB

variable (size : UInt32)

/-- The number of sectors that the third kind of block takes. -/
def needSectors : ℕ := (((size &&& 0xFFFFC000) + 0x4000) / 0x4000).toNat

variable (memory : Bytes)

def tMalloc : UInt32 × Bytes :=
  if size < 0x4000 + 1 then
    takeSectors start 1 (fun entry ↦ Function.update memory entry 0xAA) memory
  else if size < 0x10000 + 1 then
    takeSectors start 4 (fun entry ↦ overlay memory entry 4 (listImage [0xFE, 0xDC, 0xBA, 0xB8]))
      memory
  else if size < 5 * 1024 * 1024 + 1 then
    takeSectors start (needSectors size) (markLarge (needSectors size) memory) memory
  else
    (0, memory)

/-- The loop of `t_free` over a large block: `remaining` turns from `counter` on. -/
def clearLarge : ℕ → ℕ → Bytes → Bytes
  | 0, _, memory => memory
  | remaining + 1, counter, memory =>
    if memsmall start memory counter = 0xCC ∧ memsmall start memory (counter + 1) = 0xBB then
      Function.update (Function.update memory (start.toNat + counter) 0)
        (start.toNat + (counter + 1)) 0
    else
      clearLarge remaining (counter + 1) (Function.update memory (start.toNat + counter) 0)

def tFree (pointer : UInt32) (memory : Bytes) : Bytes :=
  let offset := pointer - start
  if offset &&& 0xFFFFC000 = offset then
    let temp := (offset / 0x4000).toNat
    if memsmall start memory temp = 0xAA then
      Function.update memory (start.toNat + temp) 0
    else if bytesAt memory (start.toNat + temp) 4 = [0xFE, 0xDC, 0xBA, 0xB8] then
      fill memory (start.toNat + temp) 4 0
    else if bytesAt memory (start.toNat + temp) 4 = [0xBB, 0xCC, 0xFF, 0xFF] then
      clearLarge start (0x400 - temp) temp memory
    else
      memory
  else
    memory

/-- A 32-bit word stored at an address. -/
def storeWord (address : ℕ) (value : UInt32) : Bytes :=
  overlay memory address 4 (byteOf32 value)

/-- What `malloc` asks `t_malloc` for. -/
def requestSize : UInt32 := (size + 0x200) &&& 0xFFFFFF00

/-- The pointer that `malloc` returns for a block. -/
def userPointer (block : UInt32) : UInt32 := (block + 0x100) &&& 0xFFFFFF00

/-- The pointer returned and the memory with the two words in front of it. They are written even
if there was no block. -/
def malloc : UInt32 × Bytes :=
  let found := tMalloc start (requestSize size) memory
  let pointer := userPointer found.1
  (pointer, storeWord (storeWord found.2 (pointer - 8).toNat found.1) (pointer - 4).toNat 0x1234567)

def free (pointer : UInt32) (memory : Bytes) : Bytes :=
  if pointer = 0 then
    memory
  else if littleEndian32 memory (pointer - 4).toNat ≠ 0x1234567 then
    memory
  else
    tFree start (littleEndian32 memory (pointer - 8).toNat) memory

end

/-! ### Heaps -/

/-- A pointer that `malloc` returned and the size it was asked for. -/
structure Allocation where
  pointer : UInt32
  size : UInt32
  deriving DecidableEq, Repr

/-- The memory and the allocations that are live in it. -/
structure Heap where
  memory : Bytes
  live : List Allocation

def Heap.initial (memory : Bytes) : Heap :=
  { memory := memoryManagementInitialization memoryManagerStart memory, live := [] }

end XBlast.Memory
