import XBlast.Memory.BootLibrary

/-!
# The blocks of the memory manager

What `t_malloc` and `t_free` do to the table, for one request and one block. A request decides how
many sectors are taken and which marks they get (`block_cases`), and `t_malloc` writes these marks
over a run of free sectors (`tMalloc_eq`). `t_free` knows a block by its marks. It clears the blocks
of one and of four sectors. A block of five sectors has no mark for the third pattern to match, and
of a longer one only the part before the end of the searched table is cleared unless its end marks
are found there (`tFree_eq`).
-/

set_option autoImplicit false
set_option relaxedAutoImplicit false

namespace XBlast.Memory

open Foundation Function

/-! ### Sizes -/

variable {size request : UInt32} {memory : Bytes}

/-- The largest request that `t_malloc` takes. -/
def maxBlock : UInt32 := 5 * 1024 * 1024

theorem memoryManagerStart_toNat : memoryManagerStart.toNat = 0x01A00000 := rfl

theorem toNat_land_FFFFFF00 (value : UInt32) :
    (value &&& 0xFFFFFF00).toNat = 0x100 * (value.toNat / 0x100) := by
  have hmask : (0xFF : UInt32).toNat = 2 ^ 8 - 1 := rfl
  have hcomplement : (0xFFFFFF00 : UInt32) = ~~~0xFF := by decide
  rw [hcomplement]
  exact alignDown_toNat value 0xFF hmask (by decide)

theorem toNat_land_FFFFC000 (value : UInt32) :
    (value &&& 0xFFFFC000).toNat = 0x4000 * (value.toNat / 0x4000) := by
  have hmask : (0x3FFF : UInt32).toNat = 2 ^ 14 - 1 := rfl
  have hcomplement : (0xFFFFC000 : UInt32) = ~~~0x3FFF := by decide
  rw [hcomplement]
  exact alignDown_toNat value 0x3FFF hmask (by decide)

theorem toNat_add_of_lt {value other : UInt32} (hsum : value.toNat + other.toNat < 2 ^ 32) :
    (value + other).toNat = value.toNat + other.toNat := by
  rw [UInt32.toNat_add, Nat.mod_eq_of_lt hsum]

theorem request_toNat_le (hrequest : request ≤ maxBlock) : request.toNat ≤ 0x500000 :=
  UInt32.le_iff_toNat_le.mp hrequest

theorem requestSize_toNat (hsize : size.toNat + 0x200 < 2 ^ 32) :
    (requestSize size).toNat = 0x100 * ((size.toNat + 0x200) / 0x100) := by
  have hextra : (0x200 : UInt32).toNat = 0x200 := rfl
  rw [requestSize, toNat_land_FFFFFF00, toNat_add_of_lt (by omega), hextra]

theorem needSectors_eq (hrequest : request ≤ maxBlock) :
    needSectors request = request.toNat / 0x4000 + 1 := by
  have hbound := request_toNat_le hrequest
  have hsector : (0x4000 : UInt32).toNat = 0x4000 := rfl
  rw [needSectors, UInt32.toNat_div, toNat_add_of_lt (by rw [toNat_land_FFFFC000]; omega),
    toNat_land_FFFFC000, hsector]
  omega

/-! ### The block for a request -/

/-- The marks of a block of more than four sectors. -/
def largeMark (sectors : ℕ) : Bytes :=
  update (update (update (update (fun _ ↦ 0xFF) 0 0xBB) 1 0xCC)
    (sectors - 2) 0xCC) (sectors - 1) 0xBB

/-- The number of sectors that `t_malloc` takes for a request. -/
def blockSectors (request : UInt32) : ℕ :=
  if request < 0x4000 + 1 then 1
  else if request < 0x10000 + 1 then 4
  else needSectors request

/-- The marks that `t_malloc` gives them. -/
def blockMark (request : UInt32) : Bytes :=
  if request < 0x4000 + 1 then fun _ ↦ 0xAA
  else if request < 0x10000 + 1 then listImage [0xFE, 0xDC, 0xBA, 0xB8]
  else largeMark (needSectors request)

variable {sectors : ℕ}

theorem markLarge_eq (hsectors : 2 ≤ sectors) (entry : ℕ) :
    markLarge sectors memory entry = overlay memory entry sectors (largeMark sectors) := by
  simp only [markLarge, fill]
  rw [update_overlay (by omega), update_overlay (by omega), update_overlay (by omega),
    update_overlay (by omega)]
  rfl

theorem largeMark_ne_zero (sectors offset : ℕ) : largeMark sectors offset ≠ 0 := by
  simp only [largeMark, update_apply]
  split_ifs <;> decide

theorem lt_small_iff : request < 0x4000 + 1 ↔ request.toNat ≤ 0x4000 :=
  UInt32.lt_iff_toNat_lt.trans Nat.lt_succ_iff

theorem lt_medium_iff : request < 0x10000 + 1 ↔ request.toNat ≤ 0x10000 :=
  UInt32.lt_iff_toNat_lt.trans Nat.lt_succ_iff

theorem lt_large_iff : request < 5 * 1024 * 1024 + 1 ↔ request.toNat ≤ 0x500000 :=
  UInt32.lt_iff_toNat_lt.trans Nat.lt_succ_iff

/-- The three kinds of block: the request they are for, their length and their marks. -/
theorem block_cases (hrequest : request ≤ maxBlock) :
    (request.toNat ≤ 0x4000 ∧ blockSectors request = 1 ∧ blockMark request = fun _ ↦ 0xAA) ∨
    (0x4000 < request.toNat ∧ request.toNat ≤ 0x10000 ∧ blockSectors request = 4 ∧
      blockMark request = listImage [0xFE, 0xDC, 0xBA, 0xB8]) ∨
    (0x10000 < request.toNat ∧ blockSectors request = request.toNat / 0x4000 + 1 ∧
      blockMark request = largeMark (request.toNat / 0x4000 + 1)) := by
  rw [blockSectors, blockMark, needSectors_eq hrequest]
  by_cases hsmall : request < 0x4000 + 1
  · exact .inl ⟨lt_small_iff.mp hsmall, if_pos hsmall, if_pos hsmall⟩
  · have habove := Nat.lt_of_not_le (mt lt_small_iff.mpr hsmall)
    rw [if_neg hsmall, if_neg hsmall]
    by_cases hmedium : request < 0x10000 + 1
    · exact .inr (.inl ⟨habove, lt_medium_iff.mp hmedium, if_pos hmedium, if_pos hmedium⟩)
    · exact .inr (.inr ⟨Nat.lt_of_not_le (mt lt_medium_iff.mpr hmedium), if_neg hmedium,
        if_neg hmedium⟩)

/-- A block has room for its request, and at most 321 sectors. -/
theorem blockSectors_bounds (hrequest : request ≤ maxBlock) :
    0 < blockSectors request ∧ request.toNat ≤ 0x4000 * blockSectors request ∧
      blockSectors request ≤ 0x141 := by
  have hbound := request_toNat_le hrequest
  obtain ⟨hsize, hsectors, -⟩ | ⟨-, hsize, hsectors, -⟩ | ⟨hsize, hsectors, -⟩ :=
    block_cases hrequest
  all_goals
    rw [hsectors]
    omega

variable {offset : ℕ}

theorem blockMark_ne_zero (hrequest : request ≤ maxBlock)
    (hoffset : offset < blockSectors request) : blockMark request offset ≠ 0 := by
  obtain ⟨-, -, hmark⟩ | ⟨-, -, hsectors, hmark⟩ | ⟨-, -, hmark⟩ := block_cases hrequest
  · rw [hmark]
    exact (by decide : (0xAA : UInt8) ≠ 0)
  · rw [hsectors] at hoffset
    rw [hmark]
    obtain rfl | rfl | rfl | rfl : offset = 0 ∨ offset = 1 ∨ offset = 2 ∨ offset = 3 := by omega
    all_goals decide
  · rw [hmark]
    exact largeMark_ne_zero _ offset

/-! ### Taking sectors -/

/-- A search that succeeds returns a counter of the loop with a free run behind it. -/
theorem takeSectors_cases (start : UInt32) (needed : ℕ) (marked : ℕ → Bytes)
    (memory : Bytes) :
    (∃ sector, 1 ≤ sector ∧ sector < 0x400 ∧
      (∀ offset < needed, memsmall start memory (sector + offset) = 0) ∧
      takeSectors start needed marked memory =
        (start + UInt32.ofNat (sector * 0x4000), marked (start.toNat + sector))) ∨
    takeSectors start needed marked memory = (0, memory) := by
  cases hfind : findFree start needed memory with
  | none => exact .inr (by rw [takeSectors, hfind])
  | some sector =>
    have hmem := List.mem_range'_1.mp (List.mem_of_find?_eq_some hfind)
    have hfree := List.find?_some hfind
    exact .inl ⟨sector, hmem.1, by omega, of_decide_eq_true hfree, by
      rw [takeSectors, hfind]⟩

/-- `t_malloc` takes the sectors of the block for its request and marks them. -/
theorem tMalloc_eq (start : UInt32) (hrequest : request ≤ maxBlock) (memory : Bytes) :
    tMalloc start request memory = takeSectors start (blockSectors request)
      (fun entry ↦ overlay memory entry (blockSectors request) (blockMark request)) memory := by
  obtain ⟨hsize, hsectors, hmark⟩ | ⟨habove, hsize, hsectors, hmark⟩ | ⟨habove, hsectors, hmark⟩ :=
    block_cases hrequest
  · rw [hsectors, hmark, tMalloc, if_pos (lt_small_iff.mpr hsize)]
    simp only [update_eq_overlay]
  · rw [hsectors, hmark, tMalloc, if_neg (mt lt_small_iff.mp (Nat.not_le_of_lt habove)),
      if_pos (lt_medium_iff.mpr hsize)]
  · have hlarge := request_toNat_le hrequest
    rw [hsectors, hmark, tMalloc, if_neg (mt lt_small_iff.mp (by omega)),
      if_neg (mt lt_medium_iff.mp (by omega)), if_pos (lt_large_iff.mpr hlarge),
      needSectors_eq hrequest]
    congr 1
    funext entry
    exact markLarge_eq (by omega) entry

/-! ### Giving sectors back -/

theorem largeMark_zero (hsectors : 5 ≤ sectors) : largeMark sectors 0 = 0xBB := by
  rw [largeMark, update_of_ne (by omega), update_of_ne (by omega)]
  rfl

theorem largeMark_one (hsectors : 5 ≤ sectors) : largeMark sectors 1 = 0xCC := by
  rw [largeMark, update_of_ne (by omega), update_of_ne (by omega), update_self]

theorem largeMark_inner (hlow : 2 ≤ offset) (hhigh : offset + 2 < sectors) :
    largeMark sectors offset = 0xFF := by
  rw [largeMark, update_of_ne (by omega), update_of_ne (by omega),
    update_of_ne (by omega), update_of_ne (by omega)]

theorem largeMark_end (hend : offset + 2 = sectors) :
    largeMark sectors offset = 0xCC ∧ largeMark sectors (offset + 1) = 0xBB := by
  have hoffset : offset = sectors - 2 := by omega
  have hlast : offset + 1 = sectors - 1 := by omega
  rw [largeMark, hlast, update_self, update_of_ne (by omega), hoffset, update_self]
  exact ⟨rfl, rfl⟩

/-- The end marks of a large block stand at its end and nowhere before. -/
theorem largeMark_not_end (hsectors : 5 ≤ sectors) (hoffset : offset + 2 < sectors) :
    ¬(largeMark sectors offset = 0xCC ∧ largeMark sectors (offset + 1) = 0xBB) := by
  rintro ⟨hfirst, hsecond⟩
  obtain rfl | rfl | hinner : offset = 0 ∨ offset = 1 ∨ 2 ≤ offset := by omega
  · rw [largeMark_zero hsectors] at hfirst
    exact absurd hfirst (by decide)
  · rw [largeMark_inner (by decide) (by omega)] at hsecond
    exact absurd hsecond (by decide)
  · rw [largeMark_inner hinner hoffset] at hfirst
    exact absurd hfirst (by decide)

theorem fill_update_succ (memory : Bytes) (address length : ℕ) :
    fill (update memory address 0) (address + 1) length 0 =
      fill memory address (length + 1) 0 := by
  rw [fill, update_eq_overlay, overlay_append fun _ _ ↦ rfl, add_comm 1 length]
  rfl

/-- From anywhere in a large block, the loop of `t_free` clears the rest of the block if it gets to
the end marks, and otherwise one entry with each turn. -/
theorem clearLarge_eq (start : UInt32) (sector sectors : ℕ) (hsectors : 5 ≤ sectors)
    (remaining counter : ℕ) (memory : Bytes) (hlow : sector ≤ counter)
    (hhigh : counter + 2 ≤ sector + sectors)
    (hmarked : ∀ offset < sectors, counter ≤ sector + offset →
      memsmall start memory (sector + offset) = largeMark sectors offset) :
    clearLarge start remaining counter memory =
      fill memory (start.toNat + counter)
        (if sector + sectors ≤ counter + remaining + 1 then sector + sectors - counter
          else remaining) 0 := by
  induction remaining generalizing counter memory with
  | zero =>
    rw [if_neg (by omega)]
    funext address
    exact (fill_outside (by omega)).symm
  | succ remaining ih =>
    obtain ⟨offset, rfl⟩ := Nat.exists_eq_add_of_le hlow
    have hfirst := hmarked offset (by omega) (Nat.le_refl _)
    have hsecond := hmarked (offset + 1) (by omega) (by omega)
    rw [← add_assoc] at hsecond
    rw [clearLarge, hfirst, hsecond]
    by_cases hend : offset + 2 = sectors
    · rw [if_pos (largeMark_end hend), if_pos (by omega)]
      have hlength : sector + sectors - (sector + offset) = 1 + 1 := by omega
      rw [hlength, ← fill_update_succ, ← fill_update_succ]
      funext address
      exact (fill_outside (by omega)).symm
    · have hnext : start.toNat + (sector + offset + 1) = start.toNat + (sector + offset) + 1 :=
        rfl
      rw [if_neg (largeMark_not_end hsectors (by omega)), ih _ _ (by omega) (by omega), hnext,
        fill_update_succ]
      · congr 1
        split_ifs
        all_goals omega
      · intro later hlater hcounter
        rw [memsmall, update_of_ne (by omega)]
        exact hmarked later hlater (by omega)

/-- The four entries that `t_free` compares with the patterns. -/
theorem bytesAt_entries {start : UInt32} {sector : ℕ} {mark : Bytes}
    (hmarked : ∀ offset < 4, memsmall start memory (sector + offset) = mark offset) :
    bytesAt memory (start.toNat + sector) 4 = [mark 0, mark 1, mark 2, mark 3] := by
  have hentry : ∀ offset < 4, memory (start.toNat + sector + offset) = mark offset :=
    fun offset hoffset ↦ by rw [add_assoc]; exact hmarked offset hoffset
  simp only [bytesAt, List.range, List.range.loop, List.map, hentry 0 (by decide),
    hentry 1 (by decide), hentry 2 (by decide), hentry 3 (by decide)]

/-- What an entry of a block holds after `t_free`. -/
def freedMark (request : UInt32) (sector offset : ℕ) : UInt8 :=
  if blockSectors request ≤ 4 then 0
  else if blockSectors request = 5 then blockMark request offset
  else if sector + blockSectors request ≤ 0x401 ∨ sector + offset < 0x400 then 0
  else blockMark request offset

variable {pointer : UInt32}

/-- `t_free` of a marked block rewrites the entries of the block and nothing else. -/
theorem tFree_eq (hrequest : request ≤ maxBlock) {sector : ℕ} (hsector : sector < 0x400)
    (hmarked : ∀ offset < blockSectors request,
      memsmall memoryManagerStart memory (sector + offset) = blockMark request offset)
    (hpointer : pointer.toNat = 0x01A00000 + 0x4000 * sector) :
    tFree memoryManagerStart pointer memory =
      overlay memory (0x01A00000 + sector) (blockSectors request) (freedMark request sector) := by
  have hstart := memoryManagerStart_toNat
  have hoffset : (pointer - memoryManagerStart).toNat = 0x4000 * sector := by
    rw [UInt32.toNat_sub_of_le _ _ (UInt32.le_iff_toNat_le.mpr (by omega)), hpointer, hstart]
    omega
  have haligned : (pointer - memoryManagerStart) &&& 0xFFFFC000 = pointer - memoryManagerStart := by
    apply UInt32.toNat_inj.mp
    rw [toNat_land_FFFFC000, hoffset]
    omega
  have htemp : ((pointer - memoryManagerStart) / 0x4000).toNat = sector := by
    rw [UInt32.toNat_div, hoffset]
    exact Nat.mul_div_cancel_left sector (by decide)
  have hfirst := hmarked 0 (blockSectors_bounds hrequest).1
  rw [add_zero] at hfirst
  rw [tFree]
  dsimp only
  rw [if_pos haligned, htemp, hfirst]
  have hfreed (hfew : blockSectors request ≤ 4) : freedMark request sector = fun _ ↦ 0 :=
    funext fun _ ↦ if_pos hfew
  obtain ⟨-, hsectors, hmark⟩ | ⟨-, -, hsectors, hmark⟩ | ⟨habove, hsectors, hmark⟩ :=
    block_cases hrequest
  · rw [hmark, if_pos rfl, hfreed (by omega), hsectors, update_eq_overlay, hstart]
  · have hentries := bytesAt_entries fun offset hlt ↦ hmarked offset (by omega)
    rw [hentries, hmark, if_neg (by decide), if_pos (by decide), hfreed (by omega), hsectors,
      hstart]
    rfl
  · have hentries := bytesAt_entries fun offset hlt ↦ hmarked offset (by omega)
    have hlarge : 5 ≤ blockSectors request := by omega
    have hmarks : ∀ offset < blockSectors request, memory (0x01A00000 + sector + offset) =
        largeMark (blockSectors request) offset := by
      intro offset hlt
      rw [add_assoc, hsectors, ← hmark]
      exact hmarked offset hlt
    rw [← hsectors] at hmark
    rw [hentries, hmark, largeMark_zero hlarge, largeMark_one hlarge,
      largeMark_inner (by decide) (by omega), if_neg (by decide), if_neg (by simp)]
    by_cases hfive : blockSectors request = 5
    · have hthird : largeMark (blockSectors request) 3 = 0xCC := (largeMark_end (by omega)).1
      rw [hthird, if_neg (by decide)]
      refine eq_overlay (fun offset hlt ↦ ?_) fun _ _ ↦ rfl
      rw [freedMark, if_neg (by omega), if_pos hfive, hmark]
      exact hmarks offset hlt
    · rw [largeMark_inner (by decide) (by omega), if_pos rfl,
        clearLarge_eq memoryManagerStart sector (blockSectors request) hlarge _ _ memory
          (Nat.le_refl sector) (by omega)
          (fun offset hlt _ ↦ (hmarked offset hlt).trans (by rw [hmark])), hstart]
      refine eq_overlay (fun offset hlt ↦ ?_) fun address houtside ↦ fill_outside ?_
      · have hmany : ¬blockSectors request ≤ 4 := by omega
        rw [freedMark, if_neg hmany, if_neg hfive]
        by_cases hcleared : sector + blockSectors request ≤ 0x401 ∨ sector + offset < 0x400
        · rw [if_pos hcleared]
          refine fill_inside (by omega) ?_
          split_ifs
          all_goals omega
        · have hbehind : ¬sector + blockSectors request ≤ sector + (0x400 - sector) + 1 := by omega
          rw [if_neg hcleared, hmark, if_neg hbehind, fill_outside (by omega)]
          exact hmarks offset hlt
      · split_ifs
        all_goals omega

/-! ### Allocations -/

/-- The first sector of an allocation. -/
def Allocation.sector (allocation : Allocation) : ℕ :=
  (allocation.pointer.toNat - 0x01A00000) / 0x4000

/-- The entries of the table that belong to an allocation. -/
def Allocation.block (allocation : Allocation) : Block UInt8 :=
  { start := allocation.sector
    length := blockSectors (requestSize allocation.size)
    mark := blockMark (requestSize allocation.size) }

/-- What the memory holds for a live allocation of any size: the marks of its block, and the address
of the block and the magic number in front of its pointer. -/
structure Allocation.Held (memory : Bytes) (allocation : Allocation) : Prop where
  request_le : requestSize allocation.size ≤ maxBlock
  sector_pos : 1 ≤ allocation.sector
  sector_lt : allocation.sector < 0x400
  pointer_eq : allocation.pointer.toNat = 0x01A00000 + 0x4000 * allocation.sector + 0x100
  marked : allocation.block.Marked (memsmall memoryManagerStart memory)
  header_block : littleEndian32 memory (allocation.pointer.toNat - 8) =
    UInt32.ofNat (0x01A00000 + 0x4000 * allocation.sector)
  header_magic : littleEndian32 memory (allocation.pointer.toNat - 4) = 0x1234567

variable {address : ℕ}

namespace Allocation

variable {allocation other : Allocation} {changed : Bytes}

/-- The bytes whose change could harm a live allocation: its entries of the table and the two words
in front of its pointer. -/
def Metadata (allocation : Allocation) (address : ℕ) : Prop :=
  (0x01A00000 + allocation.sector ≤ address ∧
    address < 0x01A00000 + (allocation.sector + allocation.block.length)) ∨
  (allocation.pointer.toNat - 8 ≤ address ∧ address < allocation.pointer.toNat)

theorem Held.congr (hheld : allocation.Held memory)
    (hsame : ∀ address, allocation.Metadata address → changed address = memory address) :
    allocation.Held changed := by
  have hpointer := hheld.pointer_eq
  refine { hheld with marked := ?_, header_block := ?_, header_magic := ?_ }
  · refine hheld.marked.congr fun offset hoffset ↦ hsame _ (.inl ?_)
    rw [memoryManagerStart_toNat]
    show _ ≤ 0x01A00000 + (allocation.sector + offset) ∧
      0x01A00000 + (allocation.sector + offset) < _
    omega
  · rw [← hheld.header_block]
    exact littleEndian32_congr fun index hindex ↦ hsame _ (.inr (by omega))
  · rw [← hheld.header_magic]
    exact littleEndian32_congr fun index hindex ↦ hsame _ (.inr (by omega))

/-- The block of an allocation has no more than 321 sectors, and none of its marks is zero. -/
theorem Held.visible (hheld : allocation.Held memory) :
    allocation.block.Visible 0 ∧ allocation.block.length ≤ 0x141 := by
  have hbounds := blockSectors_bounds hheld.request_le
  exact ⟨⟨hbounds.1, fun _ hoffset ↦ blockMark_ne_zero hheld.request_le hoffset⟩, hbounds.2.2⟩

/-- The sectors of an allocation, the first of which starts with the two words. -/
def Occupies (allocation : Allocation) (address : ℕ) : Prop :=
  0x01A00000 + 0x4000 * allocation.sector ≤ address ∧
    address < 0x01A00000 + 0x4000 * (allocation.sector + allocation.block.length)

theorem apart_iff : allocation.block.Apart other.block ↔
    allocation.sector + allocation.block.length ≤ other.sector ∨
      other.sector + other.block.length ≤ allocation.sector :=
  Iff.rfl

/-- Allocations whose blocks are apart share no byte. -/
theorem not_occupies_of_apart (hapart : allocation.block.Apart other.block)
    (hoccupies : allocation.Occupies address) : ¬other.Occupies address := by
  rintro ⟨hlow, hhigh⟩
  obtain ⟨hlow', hhigh'⟩ := hoccupies
  rw [apart_iff] at hapart
  omega

/-- The metadata and the sectors of an allocation hold no metadata of an allocation apart from it:
entries of the table differ, the sectors do not overlap, and they are behind the table. -/
theorem Held.not_metadata (hheld : allocation.Held memory) (hother : other.Held changed)
    (hapart : allocation.block.Apart other.block)
    (howns : allocation.Metadata address ∨ allocation.Occupies address) :
    ¬other.Metadata address := by
  have hpointer := hheld.pointer_eq
  have hlt := hheld.sector_lt
  have hpos := hheld.sector_pos
  have hlength := hheld.visible
  have hpointer' := hother.pointer_eq
  have hlt' := hother.sector_lt
  have hpos' := hother.sector_pos
  have hlength' := hother.visible
  obtain ⟨hlow, hhigh⟩ | hoccupies : (0x01A00000 + allocation.sector ≤ address ∧
      address < 0x01A00000 + (allocation.sector + allocation.block.length)) ∨
      allocation.Occupies address := by
    obtain (hentry | hword) | hoccupies := howns
    · exact .inl hentry
    · have hnonempty := hlength.1.1
      exact .inr ⟨by omega, by omega⟩
    · exact .inr hoccupies
  · rintro (⟨hlow', hhigh'⟩ | ⟨hlow', -⟩)
    · rw [apart_iff] at hapart
      omega
    · omega
  · rintro (⟨-, hhigh'⟩ | ⟨hlow', hhigh'⟩)
    · have hbehind := hoccupies.1
      omega
    · have hnonempty := hlength'.1.1
      exact not_occupies_of_apart hapart hoccupies ⟨by omega, by omega⟩

end Allocation

/-! ### The two words in front of a pointer -/

theorem littleEndian32_storeWord (memory : Bytes) (address : ℕ) (value : UInt32) :
    littleEndian32 (storeWord memory address value) address = value :=
  littleEndian32_eq fun _ hindex ↦ overlay_add hindex

theorem storeWord_outside {address other : ℕ} {value : UInt32}
    (houtside : other < address ∨ address + 4 ≤ other) :
    storeWord memory address value other = memory other :=
  overlay_outside houtside

theorem toNat_sub_eight (hpointer : 8 ≤ pointer.toNat) :
    (pointer - 8).toNat = pointer.toNat - 8 :=
  UInt32.toNat_sub_of_le pointer 8 (UInt32.le_iff_toNat_le.mpr hpointer)

theorem toNat_sub_four (hpointer : 4 ≤ pointer.toNat) :
    (pointer - 4).toNat = pointer.toNat - 4 :=
  UInt32.toNat_sub_of_le pointer 4 (UInt32.le_iff_toNat_le.mpr hpointer)

/-- The memory after `malloc` took a block from `sector` on: marks and two words. -/
def placed (sector : ℕ) (size : UInt32) (memory : Bytes) : Bytes :=
  let marked := overlay memory (0x01A00000 + sector) (blockSectors (requestSize size))
    (blockMark (requestSize size))
  storeWord (storeWord marked (0x01A00000 + 0x4000 * sector + 0xF8)
    (UInt32.ofNat (0x01A00000 + 0x4000 * sector))) (0x01A00000 + 0x4000 * sector + 0xFC) 0x1234567

/-- The allocation that `malloc` makes from `sector` on. -/
def placedAt (sector : ℕ) (size : UInt32) : Allocation :=
  { pointer := UInt32.ofNat (0x01A00000 + 0x4000 * sector + 0x100), size := size }

section

variable {sector : ℕ}

theorem placedAt_pointer (size : UInt32) (hlt : sector < 0x400) :
    (placedAt sector size).pointer.toNat = 0x01A00000 + 0x4000 * sector + 0x100 := by
  rw [placedAt, UInt32.toNat_ofNat']
  omega

theorem placedAt_sector (size : UInt32) (hlt : sector < 0x400) :
    (placedAt sector size).sector = sector := by
  rw [Allocation.sector, placedAt_pointer size hlt]
  omega

theorem placedAt_metadata (hlt : sector < 0x400) :
    (placedAt sector size).Metadata address ↔
      (0x01A00000 + sector ≤ address ∧
        address < 0x01A00000 + (sector + blockSectors (requestSize size))) ∨
      (0x01A00000 + 0x4000 * sector + 0xF8 ≤ address ∧
        address < 0x01A00000 + 0x4000 * sector + 0x100) := by
  rw [Allocation.Metadata, placedAt_pointer size hlt, placedAt_sector size hlt]
  rfl

/-- Placing a block changes only its metadata. -/
theorem placed_outside (hlt : sector < 0x400)
    (houtside : ¬(placedAt sector size).Metadata address) :
    placed sector size memory address = memory address := by
  rw [placedAt_metadata hlt] at houtside
  rw [placed, storeWord_outside (by omega), storeWord_outside (by omega),
    overlay_outside (by omega)]

theorem placed_held (memory : Bytes) (hrequest : requestSize size ≤ maxBlock)
    (hpos : 1 ≤ sector) (hlt : sector < 0x400) :
    (placedAt sector size).Held (placed sector size memory) := by
  have hlength := blockSectors_bounds hrequest
  have hpointer := placedAt_pointer size hlt
  have hsector := placedAt_sector size hlt
  refine ⟨hrequest, by rwa [hsector], by rwa [hsector], by rw [hpointer, hsector], ?_, ?_, ?_⟩
  · intro offset hoffset
    change offset < blockSectors (requestSize size) at hoffset
    show placed sector size memory (0x01A00000 + ((placedAt sector size).sector + offset)) =
      blockMark (requestSize size) offset
    rw [hsector, placed, storeWord_outside (by omega), storeWord_outside (by omega),
      ← add_assoc, overlay_add hoffset]
  · rw [hpointer, hsector, placed]
    refine (littleEndian32_congr fun index hindex ↦ storeWord_outside (by omega)).trans ?_
    exact littleEndian32_storeWord _ _ _
  · rw [hpointer]
    exact littleEndian32_storeWord _ _ _

end

/-! ### What the calls do -/

/-- The memory after a `malloc` that got no block: the two words are written in front of the address
`0x100`. -/
def misplaced (memory : Bytes) : Bytes :=
  storeWord (storeWord memory 0xF8 0) 0xFC 0x1234567

theorem misplaced_outside (haddress : 0x100 ≤ address) :
    misplaced memory address = memory address := by
  rw [misplaced, storeWord_outside (by omega), storeWord_outside (by omega)]

theorem malloc_of_tMalloc_zero (hnone : tMalloc memoryManagerStart (requestSize size) memory =
    (0, memory)) : malloc memoryManagerStart size memory = (0x100, misplaced memory) := by
  have hpointer : userPointer 0 = 0x100 := by decide
  have hminus8 : (0x100 - 8 : UInt32).toNat = 0xF8 := by decide
  have hminus4 : (0x100 - 4 : UInt32).toNat = 0xFC := by decide
  simp only [malloc, hnone, hpointer, hminus8, hminus4, misplaced]

/-- `malloc` makes an allocation over free sectors, or it finds no block and still returns an
address. -/
theorem malloc_cases (size : UInt32) (memory : Bytes) :
    (requestSize size ≤ maxBlock ∧ ∃ sector, 1 ≤ sector ∧ sector < 0x400 ∧
      (∀ offset < blockSectors (requestSize size),
        memsmall memoryManagerStart memory (sector + offset) = 0) ∧
      (tMalloc memoryManagerStart (requestSize size) memory).1 ≠ 0 ∧
      malloc memoryManagerStart size memory =
        ((placedAt sector size).pointer, placed sector size memory)) ∨
    (tMalloc memoryManagerStart (requestSize size) memory = (0, memory) ∧
      malloc memoryManagerStart size memory = (0x100, misplaced memory)) := by
  have hstart := memoryManagerStart_toNat
  by_cases hrequest : requestSize size ≤ maxBlock
  · obtain ⟨sector, hpos, hlt, hfree, htaken⟩ | hnone := takeSectors_cases memoryManagerStart
      (blockSectors (requestSize size)) (fun entry ↦ overlay memory entry
        (blockSectors (requestSize size)) (blockMark (requestSize size))) memory
    · rw [← tMalloc_eq memoryManagerStart hrequest] at htaken
      have hblock : memoryManagerStart + UInt32.ofNat (sector * 0x4000) =
          UInt32.ofNat (0x01A00000 + 0x4000 * sector) := by
        apply UInt32.toNat_inj.mp
        rw [UInt32.toNat_add, hstart, UInt32.toNat_ofNat', UInt32.toNat_ofNat']
        omega
      have hblockNat : (UInt32.ofNat (0x01A00000 + 0x4000 * sector)).toNat =
          0x01A00000 + 0x4000 * sector := by
        rw [UInt32.toNat_ofNat']
        omega
      have hpointer : userPointer (UInt32.ofNat (0x01A00000 + 0x4000 * sector)) =
          (placedAt sector size).pointer := by
        have hextra : (0x100 : UInt32).toNat = 0x100 := rfl
        apply UInt32.toNat_inj.mp
        rw [userPointer, toNat_land_FFFFFF00, toNat_add_of_lt (by omega), hextra,
          placedAt_pointer size hlt, hblockNat]
        omega
      have hpointerNat := placedAt_pointer size hlt
      refine .inl ⟨hrequest, sector, hpos, hlt, hfree, ?_, ?_⟩
      · intro hzero
        rw [htaken, hblock] at hzero
        have hblockZero := hblockNat.symm.trans (congrArg UInt32.toNat hzero)
        rw [UInt32.toNat_zero] at hblockZero
        omega
      · rw [malloc, htaken, hblock, hpointer, toNat_sub_eight (by omega),
          toNat_sub_four (by omega), hpointerNat, hstart]
        rfl
    · rw [← tMalloc_eq memoryManagerStart hrequest] at hnone
      exact .inr ⟨hnone, malloc_of_tMalloc_zero hnone⟩
  · have hnone : tMalloc memoryManagerStart (requestSize size) memory = (0, memory) := by
      have habove : ¬(requestSize size).toNat ≤ 0x500000 := fun hle ↦
        hrequest (UInt32.le_iff_toNat_le.mpr hle)
      rw [tMalloc, if_neg (mt lt_small_iff.mp (by omega)), if_neg (mt lt_medium_iff.mp (by omega)),
        if_neg (mt lt_large_iff.mp habove)]
    exact .inr ⟨hnone, malloc_of_tMalloc_zero hnone⟩

/-- `free` of an allocation rewrites the entries of its block and nothing else. -/
theorem free_eq {allocation : Allocation} (hheld : allocation.Held memory) :
    free memoryManagerStart allocation.pointer memory =
      overlay memory (0x01A00000 + allocation.sector) allocation.block.length
        (freedMark (requestSize allocation.size) allocation.sector) := by
  have hpointer := hheld.pointer_eq
  have hlt := hheld.sector_lt
  have hnonzero : allocation.pointer ≠ 0 := by
    intro hzero
    rw [hzero, UInt32.toNat_zero] at hpointer
    omega
  have hmagic : ¬littleEndian32 memory (allocation.pointer - 4).toNat ≠ 0x1234567 := by
    rw [toNat_sub_four (by omega), hheld.header_magic]
    exact not_not.mpr rfl
  rw [free, if_neg hnonzero, if_neg hmagic, toNat_sub_eight (by omega), hheld.header_block]
  refine tFree_eq hheld.request_le hlt hheld.marked ?_
  rw [UInt32.toNat_ofNat']
  omega

/-- `free` changes only the metadata of the allocation it is given. -/
theorem free_outside {allocation : Allocation} (hheld : allocation.Held memory)
    (houtside : ¬allocation.Metadata address) :
    free memoryManagerStart allocation.pointer memory address = memory address := by
  have hentry : ¬(0x01A00000 + allocation.sector ≤ address ∧
      address < 0x01A00000 + (allocation.sector + allocation.block.length)) :=
    fun hinside ↦ houtside (.inl hinside)
  rw [free_eq hheld, overlay_outside (by omega)]

end XBlast.Memory
