import XBlast.Memory.Reuse

/-!
# Allocations stay apart

Every sector of a block carries a nonzero mark, so the free sectors that `t_malloc` takes belong to
no live allocation, and `t_free` rewrites only entries of the block it was given. Both are part of
`Heap.Tracked`, which every run keeps. When no request exceeds the sizes of `t_malloc`, a block has
room for its allocation, and `allocator_separation` states what follows for the pointers and the
bytes of the callers.
-/

set_option autoImplicit false
set_option relaxedAutoImplicit false

namespace XBlast.Memory

open Foundation List

/-- The largest size for which `malloc` stays within the sizes of `t_malloc`. -/
def maxRequest : UInt32 := 5 * 1024 * 1024 - 0x200

/-- A call that requests no more than the largest block. -/
def HeapCall.Bounded : HeapCall → Prop
  | .malloc size => size ≤ maxRequest
  | _ => True

/-- The bytes that belong to the caller. -/
def Allocation.User (allocation : Allocation) (address : ℕ) : Prop :=
  allocation.pointer.toNat ≤ address ∧
    address < allocation.pointer.toNat + allocation.size.toNat

/-! ### Allocations of bounded size -/

section

variable {allocation : Allocation} {memory : Bytes} (hheld : allocation.Held memory)
  (hsize : allocation.size ≤ maxRequest)

include hheld hsize

/-- An allocation with its two words fits into the sectors of its block. -/
theorem Allocation.Held.fits :
    allocation.size.toNat + 0x100 < 0x4000 * allocation.block.length := by
  have hbound : allocation.size.toNat ≤ 0x4FFE00 := UInt32.le_iff_toNat_le.mp hsize
  have hrequest := requestSize_toNat (show allocation.size.toNat + 0x200 < 2 ^ 32 by omega)
  have hsectors := blockSectors_bounds hheld.request_le
  have hlength : allocation.block.length = blockSectors (requestSize allocation.size) := rfl
  omega

theorem Allocation.Held.occupies_of_user {address : ℕ} (huser : allocation.User address) :
    allocation.Occupies address := by
  have hpointer := hheld.pointer_eq
  have hfits := hheld.fits hsize
  obtain ⟨hlow, hhigh⟩ := huser
  exact ⟨by omega, by omega⟩

end

/-! ### Runs of bounded calls -/

namespace Heap

/-- An allocation was made by a call for its size. -/
theorem malloc_mem_of_recorded (memory : Bytes) (calls : List HeapCall) :
    ∀ allocation ∈ (record memory calls).2, HeapCall.malloc allocation.size ∈ calls := by
  induction calls using List.reverseRecOn with
  | nil =>
    intro allocation hmem
    cases hmem
  | append_singleton calls call ih =>
    intro allocation hmem
    rw [record, foldl_append] at hmem
    obtain hmade | hmem := mem_append.mp hmem
    · cases call with
      | malloc size =>
        rw [made] at hmade
        split_ifs at hmade
        · cases hmade
        · rw [mem_singleton.mp hmade]
          exact mem_append_right _ mem_cons_self
      | free | write => cases hmade
    · exact mem_append_left _ (ih allocation hmem)

section

variable {heap : Heap} {history : List Allocation} {allocation : Allocation} {address : ℕ}
  (htracked : Tracked (heap, history)) (hallocation : allocation ∈ heap.live)
  (hsize : allocation.size ≤ maxRequest) (huser : allocation.User address)

include htracked hallocation hsize huser

/-- `malloc` leaves the bytes of every live allocation alone. -/
theorem Tracked.malloc_unchanged (size : UInt32) :
    (heap.call (.malloc size)).memory address = heap.memory address := by
  have hheld := htracked.held allocation hallocation
  rw [Heap.call]
  obtain ⟨hrequest, sector, hpos, hlt, hfree, -, hmalloc⟩ | ⟨-, hmalloc⟩ :=
    malloc_cases size heap.memory
  · rw [hmalloc]
    exact placed_outside hlt (hheld.not_metadata (placed_held heap.memory hrequest hpos hlt)
      (htracked.apart_placedAt hrequest hlt hfree hallocation)
      (.inr (hheld.occupies_of_user hsize huser)))
  · rw [hmalloc]
    have hpointer := hheld.pointer_eq
    have hlow := huser.1
    exact misplaced_outside (by omega)

/-- `free` leaves the bytes of every other live allocation alone. -/
theorem Tracked.free_unchanged {freed : Allocation} (hfreed : freed ∈ heap.live)
    (hpointer : allocation.pointer ≠ freed.pointer) :
    (heap.call (.free freed.pointer)).memory address = heap.memory address := by
  have hheld := htracked.held allocation hallocation
  have hother := htracked.held freed hfreed
  rw [Heap.call, if_pos ⟨freed, hfreed, rfl⟩]
  exact free_outside hother (hheld.not_metadata hother
    (htracked.apart_of_ne hfreed hallocation (ne_of_apply_ne Allocation.pointer hpointer))
    (.inr (hheld.occupies_of_user hsize huser)))

end

end Heap

/-- **Allocator separation.** After any bounded calls of `malloc`, calls of `free` for live pointers
and writes to owned bytes on an initialised heap, every live pointer is a multiple of `0x100`, the
bytes of the live allocations with the two words in front of them lie between the table and the end
of the managed memory and are pairwise disjoint, and no further `malloc` or `free` changes a byte of
another live allocation. -/
theorem allocator_separation (memory : Bytes) (calls : List {call : HeapCall // call.Bounded}) :
    let heap := (Heap.record memory (calls.map Subtype.val)).1
    (∀ allocation ∈ heap.live,
      allocation.pointer.toNat % 0x100 = 0 ∧
      memoryManagerStart.toNat + 0x4000 ≤ allocation.pointer.toNat - 8 ∧
      allocation.pointer.toNat + allocation.size.toNat ≤ memoryManagerEnd.toNat) ∧
    (heap.live.Pairwise fun first second ↦
      first.pointer.toNat + first.size.toNat ≤ second.pointer.toNat - 8 ∨
      second.pointer.toNat + second.size.toNat ≤ first.pointer.toNat - 8) ∧
    (∀ size, ∀ allocation ∈ heap.live, ∀ address, allocation.User address →
      (heap.call (.malloc size)).memory address = heap.memory address) ∧
    (∀ freed ∈ heap.live, ∀ allocation ∈ heap.live, allocation.pointer ≠ freed.pointer →
      ∀ address, allocation.User address →
        (heap.call (.free freed.pointer)).memory address = heap.memory address) := by
  intro heap
  have htracked : Heap.Tracked (heap, _) := Heap.tracked_record memory (calls.map Subtype.val)
  have hsize : ∀ allocation ∈ heap.live, allocation.size ≤ maxRequest := by
    intro allocation hmem
    obtain ⟨call, -, hcall⟩ := mem_map.mp
      (Heap.malloc_mem_of_recorded memory _ allocation (htracked.recorded allocation hmem))
    have hbounded := call.property
    rwa [hcall] at hbounded
  refine ⟨fun allocation hmem ↦ ?_, ?_, fun size allocation hmem address huser ↦
    htracked.malloc_unchanged hmem (hsize allocation hmem) huser size, fun freed hfreed allocation
      hmem hpointer address huser ↦
    htracked.free_unchanged hmem (hsize allocation hmem) huser hfreed hpointer⟩
  · have hheld := htracked.held allocation hmem
    have hpointer := hheld.pointer_eq
    have hpos := hheld.sector_pos
    have hlt := hheld.sector_lt
    have hlength := hheld.visible.2
    have hfits := hheld.fits (hsize allocation hmem)
    have hend : memoryManagerEnd.toNat = 0x02FFFFFF := rfl
    rw [memoryManagerStart_toNat, hend]
    omega
  · refine htracked.apart.imp_of_mem fun {first second} hfirst hsecond hapart ↦ ?_
    have hpointer := (htracked.held first hfirst).pointer_eq
    have hfits := (htracked.held first hfirst).fits (hsize first hfirst)
    have hpointer' := (htracked.held second hsecond).pointer_eq
    have hfits' := (htracked.held second hsecond).fits (hsize second hsecond)
    rw [Allocation.apart_iff] at hapart
    omega

end XBlast.Memory
