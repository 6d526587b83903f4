import XBlast.Memory.Reuse

/-!
# Running out of memory

`malloc` does not look at what `t_malloc` returned. Without a block it computes its pointer from the
address zero, so that it writes its two words in front of the address `0x100` and returns that
address, which callers do not take for a failure. The sum with `0x200` and the product in `calloc`
are those of 32-bit numbers, and a size for which they wrap gets a small block. `malloc` never
returns a null pointer (`malloc_ne_null`), so both functions keep their promise exactly for the
sizes for which there is a block (`outOfMemory_reported_iff`).
-/

set_option autoImplicit false
set_option relaxedAutoImplicit false

namespace XBlast.Memory

open Foundation

/-- The pointer that `malloc` gives for the product of the sizes and the memory with as many zeros
from it on. -/
def calloc (start nmemb size : UInt32) (memory : Bytes) : UInt32 × Bytes :=
  let result := malloc start (nmemb * size) memory
  (result.1, fill result.2 result.1.toNat (nmemb * size).toNat 0x00)

/-- There is a block for `size` bytes, as an exact number: the request with the `0x200` bytes is not
larger than the largest block, and as many sectors as `t_malloc` takes for it are free, one after
the other from one of the sectors at which blocks start. -/
def HasBlock (memory : Bytes) (size : ℕ) : Prop :=
  let request := 0x100 * ((size + 0x200) / 0x100)
  request ≤ 0x500000 ∧ ∃ sector, 1 ≤ sector ∧ sector < 0x400 ∧
    ∀ offset < blockSectors (UInt32.ofNat request),
      memsmall memoryManagerStart memory (sector + offset) = 0

/-- Without a block, `malloc` returns a null pointer and writes nothing. -/
def MallocReports (memory : Bytes) (size : UInt32) : Prop :=
  ¬HasBlock memory size.toNat → malloc memoryManagerStart size memory = (0, memory)

/-- `calloc` returns a null pointer and writes nothing, or it returns a block that is apart from the
live ones, has room for the product of the sizes and holds zeros there. -/
def CallocReports (heap : Heap) (nmemb size : UInt32) : Prop :=
  let result := calloc memoryManagerStart nmemb size heap.memory
  let allocation : Allocation := ⟨result.1, nmemb * size⟩
  result = (0, heap.memory) ∨
    allocation.Held result.2 ∧
      (∀ other ∈ heap.live, other.block.Apart allocation.block) ∧
      nmemb.toNat * size.toNat + 0x100 ≤ 0x4000 * allocation.block.length ∧
      ∀ index < nmemb.toNat * size.toNat, result.2 (result.1.toNat + index) = 0

variable {memory : Bytes} {heap : Heap} {nmemb size : UInt32}

theorem malloc_ne_null (size : UInt32) (memory : Bytes) :
    (malloc memoryManagerStart size memory).1 ≠ 0 := by
  obtain ⟨-, sector, -, hlt, -, -, hmalloc⟩ | ⟨-, hmalloc⟩ := malloc_cases size memory
  · rw [hmalloc]
    intro hzero
    have hpointer := placedAt_pointer size hlt
    rw [show (placedAt sector size).pointer = 0 from hzero, UInt32.toNat_zero] at hpointer
    omega
  · rw [hmalloc]
    exact (by decide : (0x100 : UInt32) ≠ 0)

theorem mallocReports_iff : MallocReports memory size ↔ HasBlock memory size.toNat := by
  constructor
  · intro hreports
    by_contra hblock
    exact malloc_ne_null size memory (congrArg Prod.fst (hreports hblock))
  · intro hblock hnone
    exact absurd hblock hnone

/-- A search finds a run of free sectors if there is one. -/
theorem takeSectors_ne_zero {needed sector : ℕ} (hpos : 1 ≤ sector) (hlt : sector < 0x400)
    (hfree : ∀ offset < needed, memsmall memoryManagerStart memory (sector + offset) = 0)
    (marked : ℕ → Bytes) : (takeSectors memoryManagerStart needed marked memory).1 ≠ 0 := by
  cases hfind : findFree memoryManagerStart needed memory with
  | none =>
    have hnone := List.find?_eq_none.mp hfind sector (List.mem_range'_1.mpr ⟨hpos, by omega⟩)
    exact absurd (decide_eq_true hfree) hnone
  | some found =>
    have hmem := List.mem_range'_1.mp (List.mem_of_find?_eq_some hfind)
    rw [takeSectors, hfind]
    intro hzero
    have hsum := congrArg UInt32.toNat hzero
    rw [UInt32.toNat_add, memoryManagerStart_toNat, UInt32.toNat_ofNat', UInt32.toNat_zero] at hsum
    omega

/-- There is a block just in case that the request does not wrap and `t_malloc` finds one. -/
theorem hasBlock_iff : HasBlock memory size.toNat ↔ size.toNat + 0x200 < 2 ^ 32 ∧
    (tMalloc memoryManagerStart (requestSize size) memory).1 ≠ 0 := by
  have hrequest (hsize : size.toNat + 0x200 < 2 ^ 32) :
      UInt32.ofNat (0x100 * ((size.toNat + 0x200) / 0x100)) = requestSize size := by
    rw [← requestSize_toNat hsize, UInt32.ofNat_toNat]
  constructor
  · rintro ⟨hle, sector, hpos, hlt, hfree⟩
    have hsize : size.toNat + 0x200 < 2 ^ 32 := by omega
    have hbound : requestSize size ≤ maxBlock :=
      UInt32.le_iff_toNat_le.mpr (by rw [requestSize_toNat hsize]; exact hle)
    rw [hrequest hsize] at hfree
    rw [tMalloc_eq memoryManagerStart hbound]
    exact ⟨hsize, takeSectors_ne_zero hpos hlt hfree _⟩
  · rintro ⟨hsize, hfound⟩
    obtain ⟨hbound, sector, hpos, hlt, hfree, -⟩ | ⟨hnone, -⟩ := malloc_cases size memory
    · refine ⟨?_, sector, hpos, hlt, ?_⟩
      · rw [← requestSize_toNat hsize]
        exact request_toNat_le hbound
      · rw [hrequest hsize]
        exact hfree
    · exact absurd (congrArg Prod.fst hnone) hfound

/-- A block for the exact product is found by a request for the product of the numbers. -/
theorem hasBlock_mul_iff : HasBlock memory (nmemb.toNat * size.toNat) ↔
    nmemb.toNat * size.toNat + 0x200 < 2 ^ 32 ∧
      (tMalloc memoryManagerStart (requestSize (nmemb * size)) memory).1 ≠ 0 := by
  by_cases hproduct : nmemb.toNat * size.toNat + 0x200 < 2 ^ 32
  · have hmul : (nmemb * size).toNat = nmemb.toNat * size.toNat := by
      rw [UInt32.toNat_mul, Nat.mod_eq_of_lt (by omega)]
    rw [← hmul]
    exact hasBlock_iff
  · refine iff_of_false (fun hblock ↦ ?_) fun hfound ↦ hproduct hfound.1
    have hle := hblock.1
    omega

/-- A block that is found for sizes that do not wrap is what `calloc` promises. -/
theorem callocReports_of_found {history : List Allocation}
    (htracked : Heap.Tracked (heap, history))
    (hproduct : nmemb.toNat * size.toNat + 0x200 < 2 ^ 32)
    (hfound : (tMalloc memoryManagerStart (requestSize (nmemb * size)) heap.memory).1 ≠ 0) :
    CallocReports heap nmemb size := by
  have hmul : (nmemb * size).toNat = nmemb.toNat * size.toNat := by
    rw [UInt32.toNat_mul, Nat.mod_eq_of_lt (by omega)]
  have hrequestNat := requestSize_toNat (hmul ▸ hproduct)
  rw [hmul] at hrequestNat
  obtain ⟨hrequest, sector, hpos, hlt, hfree, -, hmalloc⟩ | ⟨hnone, -⟩ :=
    malloc_cases (nmemb * size) heap.memory
  · have hplaced := placed_held heap.memory hrequest hpos hlt
    have hpointer := placedAt_pointer (nmemb * size) hlt
    have hbounds := blockSectors_bounds hrequest
    have hlength : (placedAt sector (nmemb * size)).block.length =
        blockSectors (requestSize (nmemb * size)) := rfl
    rw [CallocReports, calloc, hmalloc]
    dsimp only
    change _ ∨ (placedAt sector (nmemb * size)).Held _ ∧ (∀ other ∈ heap.live,
      other.block.Apart (placedAt sector (nmemb * size)).block) ∧ _ ≤ 0x4000 *
        (placedAt sector (nmemb * size)).block.length ∧ _
    refine .inr ⟨?_, fun other hmem ↦ ?_, by omega, fun index hindex ↦ ?_⟩
    · refine hplaced.congr fun address hmetadata ↦ fill_outside ?_
      rw [placedAt_metadata hlt] at hmetadata
      omega
    · exact htracked.apart_placedAt hrequest hlt hfree hmem
    · exact fill_inside (Nat.le_add_right _ _) (by omega)
  · exact absurd (congrArg Prod.fst hnone) hfound

/-- A promise that is kept was kept with a block and without wrapping. -/
theorem found_of_callocReports (hreports : CallocReports heap nmemb size) :
    nmemb.toNat * size.toNat + 0x200 < 2 ^ 32 ∧
      (tMalloc memoryManagerStart (requestSize (nmemb * size)) heap.memory).1 ≠ 0 := by
  obtain hnull | ⟨hheld, -, hroom, -⟩ := hreports
  · exact absurd (congrArg Prod.fst hnull) (malloc_ne_null (nmemb * size) heap.memory)
  · have hlength := hheld.visible.2
    refine ⟨by omega, fun hnone ↦ ?_⟩
    obtain ⟨-, -, -, -, -, hfound, -⟩ | ⟨-, hmalloc⟩ := malloc_cases (nmemb * size) heap.memory
    · exact hfound hnone
    · have hpointer := hheld.pointer_eq
      have hsmall : (calloc memoryManagerStart nmemb size heap.memory).1.toNat = 0x100 :=
        congrArg (fun result ↦ result.1.toNat) hmalloc
      dsimp only at hpointer
      omega

/-- **Out of memory.** In every state that calls lead to, `malloc` keeps its promise to report a
lack of memory just in case that there is a block, so that there is nothing to report. `calloc`
keeps its promise just in case that there is a block for the exact product. -/
theorem outOfMemory_reported_iff (memory : Bytes) (calls : List HeapCall) :
    let heap := (Heap.record memory calls).1
    (∀ size, MallocReports heap.memory size ↔ HasBlock heap.memory size.toNat) ∧
    ∀ nmemb size, CallocReports heap nmemb size ↔
      HasBlock heap.memory (nmemb.toNat * size.toNat) := by
  intro heap
  have htracked : Heap.Tracked (heap, (Heap.record memory calls).2) :=
    Heap.tracked_record memory calls
  refine ⟨fun size ↦ mallocReports_iff, fun nmemb size ↦ ?_⟩
  rw [hasBlock_mul_iff]
  exact ⟨found_of_callocReports, fun hfound ↦ callocReports_of_found htracked hfound.1 hfound.2⟩

/-- A `calloc` of a hundred bytes on a new heap. -/
theorem calloc_reports_hundred : CallocReports (Heap.initial fun _ ↦ 0) 1 100 :=
  ((outOfMemory_reported_iff (fun _ ↦ 0) []).2 1 100).mpr
    ⟨by decide, 1, by decide, by decide, by decide +kernel⟩

/-- There is no block for two gigabytes. The address `0x100` is returned, with the magic number in
front of it. A `calloc` for four gigabytes returns the first block, of one sector. -/
theorem huge_requests_accepted :
    ¬HasBlock (Heap.initial fun _ ↦ 0).memory (0x7FFFFFFF : UInt32).toNat ∧
    (malloc memoryManagerStart 0x7FFFFFFF (Heap.initial fun _ ↦ 0).memory).1 = 0x100 ∧
    (malloc memoryManagerStart 0x7FFFFFFF (Heap.initial fun _ ↦ 0).memory).2 0xFC = 0x67 ∧
    (calloc memoryManagerStart 0x10000 0x10000 (Heap.initial fun _ ↦ 0).memory).1 =
      0x01A04100 := by
  refine ⟨fun hblock ↦ ?_, by decide +kernel, by decide +kernel, by decide +kernel⟩
  exact absurd hblock.1 (by decide)

end XBlast.Memory
