import Mathlib.Data.List.Pairwise
import XBlast.Foundation.Iteration
import XBlast.Memory.Blocks

/-!
# Freed memory

A block that is freed should be free again. `t_free` gives back every block that it recognises as a
whole, and these are the blocks of one and four sectors and the larger ones with six sectors or more
whose end marks are in the part of the table that is searched (`Allocation.Recognised`). The entries
of a block that is not recognised stay marked: no later `malloc` takes them and no later `free`
reaches them. So the table is free after all allocations were freed exactly if each of them was
recognised (`free_malloc_restores_iff`).
-/

set_option autoImplicit false
set_option relaxedAutoImplicit false

namespace XBlast.Memory

open Foundation List Function

/-! ### Runs of a program -/

/-- What a program does with its heap, for requests of any size. -/
inductive HeapCall
  | malloc (size : UInt32)
  | free (pointer : UInt32)
  | write (address : ℕ) (value : UInt8)

/-- The bytes of its sectors that an allocation gives to the caller. -/
def Allocation.Owns (allocation : Allocation) (address : ℕ) : Prop :=
  allocation.pointer.toNat ≤ address ∧
    address < 0x01A00000 + 0x4000 * (allocation.sector + allocation.block.length)

instance (allocation : Allocation) : DecidablePred allocation.Owns :=
  fun _ ↦ inferInstanceAs (Decidable (_ ∧ _))

/-- The allocation that a call makes, if any. A `malloc` for which `t_malloc` found no space makes
none. -/
def Heap.made (heap : Heap) : HeapCall → List Allocation
  | .malloc size =>
    if (tMalloc memoryManagerStart (requestSize size) heap.memory).1 = 0 then []
    else [⟨(Memory.malloc memoryManagerStart size heap.memory).1, size⟩]
  | _ => []

/-- The heap after a call. Only pointers of live allocations are freed, and only the bytes that they
own are written. -/
def Heap.call (heap : Heap) : HeapCall → Heap
  | .malloc size =>
    { memory := (Memory.malloc memoryManagerStart size heap.memory).2
      live := heap.made (.malloc size) ++ heap.live }
  | .free pointer =>
    if ∃ allocation ∈ heap.live, allocation.pointer = pointer then
      { memory := Memory.free memoryManagerStart pointer heap.memory
        live := heap.live.filter fun allocation ↦ allocation.pointer ≠ pointer }
    else
      heap
  | .write address value =>
    if ∃ allocation ∈ heap.live, allocation.Owns address then
      { heap with memory := Function.update heap.memory address value }
    else
      heap

/-- The heap after some calls and all allocations that they made. -/
def Heap.record (memory : Bytes) (calls : List HeapCall) : Heap × List Allocation :=
  calls.foldl (fun run call ↦ (run.1.call call, run.1.made call ++ run.2)) (Heap.initial memory, [])

/-! ### Blocks that are recognised -/

/-- The blocks that `t_free` gives back as a whole. -/
def Allocation.Recognised (allocation : Allocation) : Prop :=
  allocation.block.length ≤ 4 ∨
    6 ≤ allocation.block.length ∧ allocation.sector + allocation.block.length ≤ 0x401

instance (allocation : Allocation) : Decidable allocation.Recognised :=
  inferInstanceAs (Decidable (_ ∨ _))

/-- The table has the same entries. -/
def SameTable (memory other : Bytes) : Prop :=
  ∀ cell < 0x4000, memsmall memoryManagerStart memory cell = memsmall memoryManagerStart other cell

/-- Every sector but the first is free. -/
def ArenaFree (memory : Bytes) : Prop :=
  ∀ cell < 0x4000, memsmall memoryManagerStart memory cell = if cell = 0 then 0xFF else 0

variable {memory : Bytes} {allocation other : Allocation}

/-- What an entry of an allocation's block holds after `free`. -/
theorem freedMark_eq (allocation : Allocation) (offset : ℕ) :
    freedMark (requestSize allocation.size) allocation.sector offset =
      if allocation.block.length ≤ 4 then 0
      else if allocation.block.length = 5 then allocation.block.mark offset
      else if allocation.sector + allocation.block.length ≤ 0x401 ∨
          allocation.sector + offset < 0x400 then 0
      else allocation.block.mark offset :=
  rfl

theorem freedMark_of_recognised (hrecognised : allocation.Recognised) (offset : ℕ) :
    freedMark (requestSize allocation.size) allocation.sector offset = 0 := by
  rw [freedMark_eq]
  obtain hsmall | ⟨hlarge, hend⟩ := hrecognised
  · exact if_pos hsmall
  · have hmany : ¬allocation.block.length ≤ 4 := by omega
    have hfive : allocation.block.length ≠ 5 := by omega
    rw [if_neg hmany, if_neg hfive, if_pos (.inl hend)]

/-- The last entry of a block that is not recognised stays marked. -/
theorem freedMark_last (hheld : allocation.Held memory) (hunknown : ¬allocation.Recognised) :
    freedMark (requestSize allocation.size) allocation.sector
      (allocation.block.length - 1) ≠ 0 := by
  have hpositive := hheld.visible.1.1
  have hmark := hheld.visible.1.2 (allocation.block.length - 1) (by omega)
  rw [Allocation.Recognised, not_or, not_and] at hunknown
  obtain ⟨hmany, hend⟩ := hunknown
  rw [freedMark_eq, if_neg hmany]
  by_cases hfive : allocation.block.length = 5
  · rwa [if_pos hfive]
  · have hbehind := hend (by omega)
    have hkept : ¬(allocation.sector + allocation.block.length ≤ 0x401 ∨
        allocation.sector + (allocation.block.length - 1) < 0x400) := by omega
    rwa [if_neg hfive, if_neg hkept]

/-! ### The table after a call -/

theorem memsmall_free (hheld : allocation.Held memory) (cell : ℕ)
    (houtside : ¬allocation.block.Contains cell) :
    memsmall memoryManagerStart (free memoryManagerStart allocation.pointer memory) cell =
      memsmall memoryManagerStart memory cell := by
  have hcell : ¬(allocation.sector ≤ cell ∧ cell < allocation.sector + allocation.block.length) :=
    houtside
  rw [memsmall, free_eq hheld, memoryManagerStart_toNat, overlay_outside (by omega)]
  rfl

theorem memsmall_free_add (hheld : allocation.Held memory) {offset : ℕ}
    (hoffset : offset < allocation.block.length) :
    memsmall memoryManagerStart (free memoryManagerStart allocation.pointer memory)
        (allocation.sector + offset) =
      freedMark (requestSize allocation.size) allocation.sector offset := by
  rw [memsmall, free_eq hheld, memoryManagerStart_toNat, ← add_assoc, overlay_add hoffset]

theorem memsmall_placed {size : UInt32} {sector cell : ℕ} (hlt : sector < 0x400)
    (hpos : 1 ≤ sector) (hcell : cell < 0x4000)
    (houtside : ¬(placedAt sector size).block.Contains cell) :
    memsmall memoryManagerStart (placed sector size memory) cell =
      memsmall memoryManagerStart memory cell := by
  refine placed_outside hlt ?_
  have hblock : ¬((placedAt sector size).sector ≤ cell ∧
      cell < (placedAt sector size).sector + (placedAt sector size).block.length) := houtside
  rw [placedAt_sector size hlt] at hblock
  rw [placedAt_metadata hlt, memoryManagerStart_toNat]
  have hlength : (placedAt sector size).block.length = blockSectors (requestSize size) := rfl
  omega

/-- The entries of a block over free sectors. -/
theorem placedAt_free {size : UInt32} {sector offset : ℕ} (hlt : sector < 0x400)
    (hfree : ∀ offset < blockSectors (requestSize size),
      memsmall memoryManagerStart memory (sector + offset) = 0)
    (hoffset : offset < (placedAt sector size).block.length) :
    memsmall memoryManagerStart memory ((placedAt sector size).block.start + offset) = 0 := by
  change memsmall _ _ ((placedAt sector size).sector + offset) = 0
  rw [placedAt_sector size hlt]
  exact hfree offset hoffset

/-- Freeing a new allocation restores the table just in case that its block is recognised. -/
theorem sameTable_free_malloc_iff (memory : Bytes) {size : UInt32}
    (hfound : (tMalloc memoryManagerStart (requestSize size) memory).1 ≠ 0) :
    SameTable (free memoryManagerStart (malloc memoryManagerStart size memory).1
        (malloc memoryManagerStart size memory).2) memory ↔
      Allocation.Recognised ⟨(malloc memoryManagerStart size memory).1, size⟩ := by
  obtain ⟨hrequest, sector, hpos, hlt, hfree, -, hmalloc⟩ | ⟨hnone, -⟩ := malloc_cases size memory
  · rw [hmalloc]
    change SameTable (free memoryManagerStart (placedAt sector size).pointer _) memory ↔
      (placedAt sector size).Recognised
    have hheld := placed_held memory hrequest hpos hlt
    have hsector := placedAt_sector size hlt
    constructor
    · intro hsame
      by_contra hunknown
      have hpositive := hheld.visible.1.1
      have hlength := hheld.visible.2
      have hcell := hsame
        ((placedAt sector size).sector + ((placedAt sector size).block.length - 1)) (by omega)
      have hlast : (placedAt sector size).block.length - 1 < blockSectors (requestSize size) :=
        Nat.sub_lt hpositive Nat.one_pos
      rw [memsmall_free_add hheld (by omega), hsector, hfree _ hlast] at hcell
      have hmark := freedMark_last hheld hunknown
      rw [hsector] at hmark
      exact hmark hcell
    · intro hrecognised cell hcell
      by_cases hinside : (placedAt sector size).block.Contains cell
      · obtain ⟨offset, rfl⟩ := Nat.exists_eq_add_of_le hinside.1
        have hoffset : offset < (placedAt sector size).block.length :=
          Nat.lt_of_add_lt_add_left hinside.2
        change memsmall _ _ ((placedAt sector size).sector + offset) =
          memsmall _ _ ((placedAt sector size).sector + offset)
        rw [memsmall_free_add hheld hoffset, freedMark_of_recognised hrecognised, hsector,
          hfree offset hoffset]
      · rw [memsmall_free hheld cell hinside, memsmall_placed hlt hpos hcell hinside]
  · exact absurd (congrArg Prod.fst hnone) hfound

/-! ### The invariant of a run -/

/-- An entry of the table is marked and belongs to no live allocation. -/
def Heap.Leaked (heap : Heap) : Prop :=
  ∃ cell, 0 < cell ∧ cell < 0x4000 ∧ memsmall memoryManagerStart heap.memory cell ≠ 0 ∧
    ∀ allocation ∈ heap.live, ¬allocation.block.Contains cell

/-- What is known of a heap and the allocations made so far. While all of them are recognised, only
the sectors of live allocations are marked. One that is not recognised is live, or it has left a
mark behind. -/
structure Heap.Tracked (run : Heap × List Allocation) : Prop where
  held : ∀ allocation ∈ run.1.live, allocation.Held run.1.memory
  apart : run.1.live.Pairwise fun first second ↦ first.block.Apart second.block
  recorded : ∀ allocation ∈ run.1.live, allocation ∈ run.2
  reserved : memsmall memoryManagerStart run.1.memory 0 = 0xFF
  free : (∀ allocation ∈ run.2, allocation.Recognised) → ∀ cell, 0 < cell → cell < 0x4000 →
    (∀ allocation ∈ run.1.live, ¬allocation.block.Contains cell) →
      memsmall memoryManagerStart run.1.memory cell = 0
  leaked : ∀ allocation ∈ run.2, ¬allocation.Recognised →
    allocation ∈ run.1.live ∨ run.1.Leaked

namespace Heap

variable {heap : Heap} {history : List Allocation}

theorem arenaFree_initial (memory : Bytes) : ArenaFree (Heap.initial memory).memory := by
  intro cell hcell
  change Function.update (fill memory memoryManagerStart.toNat 0x4000 0x00)
    memoryManagerStart.toNat 0xFF (memoryManagerStart.toNat + cell) = _
  by_cases hzero : cell = 0
  · rw [if_pos hzero, hzero, add_zero, update_self]
  · rw [if_neg hzero, update_of_ne (by omega), fill_inside (by omega) (by omega)]

theorem tracked_initial (memory : Bytes) : Tracked (Heap.initial memory, []) where
  held := nofun
  apart := List.Pairwise.nil
  recorded := nofun
  reserved := arenaFree_initial memory 0 (by decide)
  free := by
    intro _ cell hpos hcell _
    exact (arenaFree_initial memory cell hcell).trans (if_neg hpos.ne')
  leaked := nofun

section

variable (htracked : Tracked (heap, history))

include htracked

/-- A change of the memory beside the table and the metadata of the live allocations. -/
theorem Tracked.of_same {changed : Bytes}
    (htable : SameTable changed heap.memory)
    (hmetadata : ∀ allocation ∈ heap.live, ∀ address, allocation.Metadata address →
      changed address = heap.memory address) :
    Tracked ({ heap with memory := changed }, history) where
  held := fun allocation hmem ↦ (htracked.held allocation hmem).congr (hmetadata allocation hmem)
  apart := htracked.apart
  recorded := htracked.recorded
  reserved := (htable 0 (by decide)).trans htracked.reserved
  free := fun hall cell hpos hcell hlive ↦
    (htable cell hcell).trans (htracked.free hall cell hpos hcell hlive)
  leaked := by
    intro allocation hmem hunknown
    refine (htracked.leaked allocation hmem hunknown).imp_right ?_
    rintro ⟨cell, hpos, hcell, hmarked, hlive⟩
    exact ⟨cell, hpos, hcell, (htable cell hcell).symm ▸ hmarked, hlive⟩

/-- A new block over free sectors is apart from every live one. -/
theorem Tracked.apart_placedAt {size : UInt32} {sector : ℕ} (hrequest : requestSize size ≤ maxBlock)
    (hlt : sector < 0x400) (hfree : ∀ offset < blockSectors (requestSize size),
      memsmall memoryManagerStart heap.memory (sector + offset) = 0)
    (hallocation : allocation ∈ heap.live) :
    allocation.block.Apart (placedAt sector size).block :=
  Block.apart_of_free (htracked.held allocation hallocation).marked
    (htracked.held allocation hallocation).visible.1 (blockSectors_bounds hrequest).1
    fun _ hoffset ↦ placedAt_free hlt hfree hoffset

theorem Tracked.malloc (size : UInt32) :
    Tracked (heap.call (.malloc size), heap.made (.malloc size) ++ history) := by
  rw [call, made]
  obtain ⟨hrequest, sector, hpos, hlt, hfree, hfound, hmalloc⟩ | ⟨hnone, hmalloc⟩ :=
    malloc_cases size heap.memory
  · rw [hmalloc, if_neg hfound]
    have hplaced := placed_held heap.memory hrequest hpos hlt
    have hsector := placedAt_sector size hlt
    have hapart : ∀ allocation ∈ heap.live,
        allocation.block.Apart (placedAt sector size).block := fun allocation hmem ↦
      htracked.apart_placedAt hrequest hlt hfree hmem
    refine ⟨fun allocation hmem ↦ ?_, ?_, fun allocation hmem ↦ ?_, ?_, ?_, ?_⟩
    · obtain rfl | hmem := mem_cons.mp hmem
      · exact hplaced
      · refine (htracked.held allocation hmem).congr fun address hmetadata ↦ placed_outside hlt ?_
        exact (htracked.held allocation hmem).not_metadata hplaced (hapart allocation hmem)
          (.inl hmetadata)
    · exact pairwise_cons.mpr
        ⟨fun allocation hmem ↦ (hapart allocation hmem).symm, htracked.apart⟩
    · obtain rfl | hmem := mem_cons.mp hmem
      · exact mem_cons_self
      · exact mem_cons_of_mem _ (htracked.recorded allocation hmem)
    · refine (memsmall_placed hlt hpos (by decide) fun hinside ↦ ?_).trans htracked.reserved
      have hstart : (placedAt sector size).sector ≤ 0 := hinside.1
      omega
    · intro hall cell hcellpos hcell hlive
      obtain ⟨-, hall⟩ := forall_mem_cons.mp hall
      obtain ⟨houtside, hlive⟩ := forall_mem_cons.mp hlive
      exact (memsmall_placed hlt hpos hcell houtside).trans
        (htracked.free hall cell hcellpos hcell hlive)
    · intro allocation hmem hunknown
      obtain rfl | hmem := mem_cons.mp hmem
      · exact .inl mem_cons_self
      · obtain hlive | ⟨cell, hcellpos, hcell, hmarked, hlive⟩ :=
          htracked.leaked allocation hmem hunknown
        · exact .inl (mem_cons_of_mem _ hlive)
        · -- a marked entry is not in the new block, which was free
          have houtside : ¬(placedAt sector size).block.Contains cell := by
            intro hinside
            obtain ⟨offset, rfl⟩ := Nat.exists_eq_add_of_le hinside.1
            exact hmarked (placedAt_free hlt hfree (Nat.lt_of_add_lt_add_left hinside.2))
          refine .inr ⟨cell, hcellpos, hcell, ?_, forall_mem_cons.mpr ⟨houtside, hlive⟩⟩
          rwa [memsmall_placed hlt hpos hcell houtside]
  · rw [hmalloc, if_pos (congrArg Prod.fst hnone)]
    refine htracked.of_same (fun cell hcell ↦ misplaced_outside ?_)
      fun allocation hmem address hmetadata ↦ misplaced_outside ?_
    · rw [memoryManagerStart_toNat]
      omega
    · have hpointer := (htracked.held allocation hmem).pointer_eq
      obtain ⟨hlow, -⟩ | ⟨hlow, -⟩ := hmetadata
      · omega
      · omega

section

variable (hallocation : allocation ∈ heap.live)

include hallocation

/-- Different live allocations have blocks that are apart. -/
theorem Tracked.apart_of_ne (hother : other ∈ heap.live) (hne : other ≠ allocation) :
    other.block.Apart allocation.block := by
  have hsymm : Std.Symm fun first second : Allocation ↦ first.block.Apart second.block :=
    ⟨fun _ _ hapart ↦ hapart.symm⟩
  exact htracked.apart.forall hother hallocation hne

/-- Live allocations with one pointer are the same. -/
theorem Tracked.eq_of_pointer (hother : other ∈ heap.live)
    (hpointer : other.pointer = allocation.pointer) : other = allocation := by
  by_contra hne
  have hsector : other.sector = allocation.sector := by
    rw [Allocation.sector, Allocation.sector, hpointer]
  have hlength := (htracked.held allocation hallocation).visible.1.1
  have hlength' := (htracked.held other hother).visible.1.1
  have hapart := Allocation.apart_iff.mp (htracked.apart_of_ne hallocation hother hne)
  omega

theorem Tracked.free_live :
    Tracked (⟨Memory.free memoryManagerStart allocation.pointer heap.memory,
      heap.live.filter fun other ↦ other.pointer ≠ allocation.pointer⟩, history) := by
  have hheld := htracked.held allocation hallocation
  have hkept : ∀ other ∈ heap.live.filter (fun other ↦ other.pointer ≠ allocation.pointer),
      other ∈ heap.live ∧ other ≠ allocation := by
    intro other hmem
    obtain ⟨hmem, hpointer⟩ := mem_filter.mp hmem
    exact ⟨hmem, ne_of_apply_ne Allocation.pointer (of_decide_eq_true hpointer)⟩
  have hsplit : ∀ other ∈ heap.live, other = allocation ∨
      other ∈ heap.live.filter fun other ↦ other.pointer ≠ allocation.pointer := by
    intro other hmem
    by_cases hpointer : other.pointer = allocation.pointer
    · exact .inl (htracked.eq_of_pointer hallocation hmem hpointer)
    · exact .inr (mem_filter.mpr ⟨hmem, decide_eq_true hpointer⟩)
  refine ⟨fun other hmem ↦ ?_, htracked.apart.filter _,
    fun other hmem ↦ htracked.recorded other (hkept other hmem).1, ?_, ?_, ?_⟩
  · obtain ⟨hmem, hne⟩ := hkept other hmem
    refine (htracked.held other hmem).congr fun address hmetadata ↦ free_outside hheld ?_
    exact (htracked.held other hmem).not_metadata hheld
      (htracked.apart_of_ne hallocation hmem hne) (.inl hmetadata)
  · refine (memsmall_free hheld 0 fun hinside ↦ ?_).trans htracked.reserved
    have hstart : allocation.sector ≤ 0 := hinside.1
    have hpos := hheld.sector_pos
    omega
  · intro hall cell hpos hcell hlive
    by_cases hinside : allocation.block.Contains cell
    · obtain ⟨offset, rfl⟩ := Nat.exists_eq_add_of_le hinside.1
      have hrecognised := hall allocation (htracked.recorded allocation hallocation)
      exact (memsmall_free_add hheld (Nat.lt_of_add_lt_add_left hinside.2)).trans
        (freedMark_of_recognised hrecognised offset)
    · refine (memsmall_free hheld cell hinside).trans (htracked.free hall cell hpos hcell ?_)
      intro other hmem
      obtain rfl | hmem := hsplit other hmem
      · exact hinside
      · exact hlive other hmem
  · intro other hmem hunknown
    obtain hmem | ⟨cell, hpos, hcell, hmarked, hlive⟩ := htracked.leaked other hmem hunknown
    · obtain rfl | hmem := hsplit other hmem
      · -- the last entry of the freed block stays behind
        have hpositive := hheld.visible.1.1
        have hlength := hheld.visible.2
        have hsector := hheld.sector_lt
        have hfirst := hheld.sector_pos
        refine .inr ⟨other.sector + (other.block.length - 1), by omega, by omega, ?_, ?_⟩
        · change memsmall _ (Memory.free _ other.pointer heap.memory) _ ≠ 0
          rw [memsmall_free_add hheld (by omega)]
          exact freedMark_last hheld hunknown
        · intro later hlater
          obtain ⟨hlater, hne⟩ := hkept later hlater
          rintro ⟨hlow, hhigh⟩
          change later.sector ≤ _ at hlow
          change _ < later.sector + later.block.length at hhigh
          have hapart := Allocation.apart_iff.mp (htracked.apart_of_ne hallocation hlater hne)
          omega
      · exact .inl hmem
    · refine .inr ⟨cell, hpos, hcell, ?_, fun later hlater ↦ hlive later (hkept later hlater).1⟩
      rwa [memsmall_free hheld cell (hlive allocation hallocation)]

theorem Tracked.write {address : ℕ} (howns : allocation.Owns address) (value : UInt8) :
    Tracked ({ heap with memory := Function.update heap.memory address value }, history) := by
  have hheld := htracked.held allocation hallocation
  have hpointer := hheld.pointer_eq
  have hpos := hheld.sector_pos
  have hlow := howns.1
  refine htracked.of_same (fun cell hcell ↦ update_of_ne ?_ _ _)
    fun other hother place hmetadata ↦ update_of_ne (fun hsame ↦ ?_) _ _
  · rw [memoryManagerStart_toNat]
    omega
  · rw [hsame] at hmetadata
    by_cases hown : other = allocation
    · subst hown
      have hlength := hheld.visible.2
      obtain ⟨-, hhigh⟩ | ⟨-, hhigh⟩ := hmetadata
      · omega
      · omega
    · exact hheld.not_metadata (htracked.held other hother)
        (htracked.apart_of_ne hallocation hother hown).symm
        (.inr ⟨by omega, howns.2⟩) hmetadata

end

/-- Every call keeps track of the heap. -/
theorem Tracked.call (call : HeapCall) :
    Tracked (heap.call call, heap.made call ++ history) := by
  cases call with
  | malloc size => exact htracked.malloc size
  | free pointer =>
    rw [Heap.call]
    split_ifs with hlive
    · obtain ⟨allocation, hallocation, rfl⟩ := hlive
      exact htracked.free_live hallocation
    · exact htracked
  | write address value =>
    rw [Heap.call]
    split_ifs with howned
    · obtain ⟨allocation, hallocation, howns⟩ := howned
      exact htracked.write hallocation howns value
    · exact htracked

end

theorem tracked_record (memory : Bytes) (calls : List HeapCall) :
    Tracked (record memory calls) := by
  have hstep : ∀ (run : Heap × List Allocation) (call : HeapCall), Tracked run →
      Tracked (run.1.call call, run.1.made call ++ run.2) :=
    fun _ call htracked ↦ htracked.call call
  exact foldl_invariant hstep (tracked_initial memory) calls

/-- When every allocation was freed, the table is free just in case that all were recognised. -/
theorem Tracked.arenaFree_iff (htracked : Tracked (heap, history)) (hlive : heap.live = []) :
    ArenaFree heap.memory ↔ ∀ allocation ∈ history, allocation.Recognised := by
  have hnone : ∀ cell, ∀ allocation ∈ heap.live, ¬allocation.block.Contains cell := by
    intro cell allocation hmem
    rw [hlive] at hmem
    exact nomatch hmem
  constructor
  · intro hfree allocation hmem
    by_contra hunknown
    obtain hmem | ⟨cell, hpos, hcell, hmarked, -⟩ := htracked.leaked allocation hmem hunknown
    · rw [show (heap, history).1.live = [] from hlive] at hmem
      exact nomatch hmem
    · exact hmarked ((hfree cell hcell).trans (if_neg hpos.ne'))
  · intro hall cell hcell
    by_cases hzero : cell = 0
    · rw [if_pos hzero, hzero]
      exact htracked.reserved
    · rw [if_neg hzero]
      exact htracked.free hall cell (Nat.pos_of_ne_zero hzero) hcell (hnone cell)

end Heap

/-- **Freed memory.** In every state that calls of `malloc`, of `free` for live pointers and writes
to owned bytes lead to, and for every size for which `t_malloc` succeeds, freeing the new allocation
restores the table just in case that its block is recognised. After calls that leave no allocation
live, the table is free just in case that all of them were recognised. -/
theorem free_malloc_restores_iff (memory : Bytes) (calls : List HeapCall) :
    let run := Heap.record memory calls
    (∀ size, (tMalloc memoryManagerStart (requestSize size) run.1.memory).1 ≠ 0 →
      (SameTable (free memoryManagerStart (malloc memoryManagerStart size run.1.memory).1
          (malloc memoryManagerStart size run.1.memory).2) run.1.memory ↔
        Allocation.Recognised ⟨(malloc memoryManagerStart size run.1.memory).1, size⟩)) ∧
    (run.1.live = [] →
      (ArenaFree run.1.memory ↔ ∀ allocation ∈ run.2, allocation.Recognised)) := by
  intro run
  have htracked : Heap.Tracked (run.1, run.2) := Heap.tracked_record memory calls
  exact ⟨fun size hfound ↦ sameTable_free_malloc_iff run.1.memory hfound, htracked.arenaFree_iff⟩

/-- One sector is given back. -/
theorem small_block_restored :
    (tMalloc memoryManagerStart (requestSize 100) (Heap.initial fun _ ↦ 0).memory).1 ≠ 0 ∧
      SameTable (free memoryManagerStart
          (malloc memoryManagerStart 100 (Heap.initial fun _ ↦ 0).memory).1
          (malloc memoryManagerStart 100 (Heap.initial fun _ ↦ 0).memory).2)
        (Heap.initial fun _ ↦ 0).memory := by
  have hfound : (tMalloc memoryManagerStart (requestSize 100)
      (Heap.initial fun _ ↦ 0).memory).1 ≠ 0 := by decide +kernel
  refine ⟨hfound, ((free_malloc_restores_iff (fun _ ↦ 0) []).1 100 hfound).mpr (.inl ?_)⟩
  decide +kernel

/-- Five sectors stay marked after they were freed. -/
theorem five_sectors_kept :
    (tMalloc memoryManagerStart (requestSize 0x10000) (Heap.initial fun _ ↦ 0).memory).1 ≠ 0 ∧
      memsmall memoryManagerStart (Heap.initial fun _ ↦ 0).memory 1 = 0 ∧
      memsmall memoryManagerStart (free memoryManagerStart
          (malloc memoryManagerStart 0x10000 (Heap.initial fun _ ↦ 0).memory).1
          (malloc memoryManagerStart 0x10000 (Heap.initial fun _ ↦ 0).memory).2) 1 = 0xBB := by
  decide +kernel

end XBlast.Memory
