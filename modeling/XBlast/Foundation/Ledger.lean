import Mathlib.Data.List.Nodup

/-!
# Ledgers of allocated blocks

A ledger numbers the blocks of memory in the order in which they are handed out and counts how often
each one is given back. A number stands for one allocation and is not used again, so that a block
which is given back twice, or never, can be told from the others.

`Ledger.Owes` says which of the blocks handed out since a point in time are still to be given back,
all others having been given back once. The list of these blocks grows with an allocation and
shrinks with a release (`Ledger.Owes.alloc`, `Ledger.Owes.freeAll`), and the books are balanced when
it is empty (`Ledger.Owes.balanced_iff`).

Nothing here depends on a particular program.
-/

set_option autoImplicit false
set_option relaxedAutoImplicit false

namespace XBlast.Foundation

open List

/-- The number of the next block, and how often each block has been given back. A block that has not
been handed out cannot be given back. -/
structure Ledger where
  next : ℕ
  frees : ℕ → ℕ
  unissued : ∀ block, next ≤ block → frees block = 0

namespace Ledger

/-- No block has been handed out. -/
def empty : Ledger := ⟨0, fun _ ↦ 0, fun _ _ ↦ rfl⟩

variable (ledger : Ledger)

/-- The ledger after an allocation. The block is the one with the number `next` of before. -/
def alloc : Ledger where
  next := ledger.next + 1
  frees := ledger.frees
  unissued block hblock := ledger.unissued block (Nat.le_of_succ_le hblock)

def free (block : ℕ) : Ledger where
  next := ledger.next
  frees other := ledger.frees other + if other = block ∧ block < ledger.next then 1 else 0
  unissued other hother := by
    rw [ledger.unissued other hother, if_neg]
    rintro ⟨rfl, hissued⟩
    exact Nat.not_lt.mpr hother hissued

def freeAll (blocks : List ℕ) : Ledger := blocks.foldl free ledger

/-- Every block handed out since `start` has been given back exactly once. -/
def Balanced (start : ℕ) : Prop :=
  ∀ block, start ≤ block → block < ledger.next → ledger.frees block = 1

/-- Of the blocks handed out since `start`, those of the list have not been given back, and every
other one has been given back exactly once. -/
structure Owes (ledger : Ledger) (start : ℕ) (blocks : List ℕ) : Prop where
  start_le : start ≤ ledger.next
  nodup : blocks.Nodup
  issued : ∀ block ∈ blocks, start ≤ block ∧ block < ledger.next
  frees_eq : ∀ block, start ≤ block →
    ledger.frees block = if block < ledger.next ∧ block ∉ blocks then 1 else 0

variable {ledger : Ledger} {start : ℕ} {blocks others : List ℕ}

/-- Nothing is owed at the point in time from which on the blocks are counted. -/
theorem owes_nil (ledger : Ledger) : ledger.Owes ledger.next [] where
  start_le := Nat.le_refl _
  nodup := nodup_nil
  issued _ hmem := nomatch hmem
  frees_eq block hblock := by
    rw [ledger.unissued block hblock, if_neg fun h ↦ Nat.not_lt.mpr hblock h.1]

/-- The order in which the blocks are listed does not matter. -/
theorem Owes.perm (howes : ledger.Owes start blocks) (hperm : blocks.Perm others) :
    ledger.Owes start others where
  start_le := howes.start_le
  nodup := hperm.nodup_iff.mp howes.nodup
  issued block hmem := howes.issued block (hperm.mem_iff.mpr hmem)
  frees_eq block hblock := by
    rw [howes.frees_eq block hblock]
    exact if_congr (and_congr_right' (not_congr hperm.mem_iff)) rfl rfl

/-- An allocated block is to be given back. -/
theorem Owes.alloc (howes : ledger.Owes start blocks) :
    ledger.alloc.Owes start (ledger.next :: blocks) where
  start_le := Nat.le_trans howes.start_le (Nat.le_succ _)
  nodup := nodup_cons.mpr
    ⟨fun hmem ↦ Nat.lt_irrefl _ (howes.issued _ hmem).2, howes.nodup⟩
  issued block hmem := by
    obtain rfl | hmem := mem_cons.mp hmem
    · exact ⟨howes.start_le, Nat.lt_succ_self _⟩
    · exact (howes.issued block hmem).imp_right Nat.lt_succ_of_lt
  frees_eq block hblock := by
    change ledger.frees block = _
    rw [howes.frees_eq block hblock]
    refine if_congr ?_ rfl rfl
    change _ ↔ block < ledger.next + 1 ∧ _
    rw [mem_cons, not_or, Nat.lt_succ_iff_lt_or_eq]
    constructor
    · exact fun h ↦ ⟨.inl h.1, Nat.ne_of_lt h.1, h.2⟩
    · exact fun h ↦ ⟨h.1.resolve_right h.2.1, h.2.2⟩

/-- A block that is given back is no longer owed. -/
theorem Owes.free {block : ℕ} (howes : ledger.Owes start (block :: blocks)) :
    (ledger.free block).Owes start blocks where
  start_le := howes.start_le
  nodup := (nodup_cons.mp howes.nodup).2
  issued other hmem := howes.issued other (mem_cons_of_mem block hmem)
  frees_eq other hother := by
    have hbefore := howes.frees_eq other hother
    have hissued := (howes.issued block mem_cons_self).2
    change ledger.frees other + (if other = block ∧ block < ledger.next then 1 else 0) = _
    by_cases hsame : other = block
    · subst hsame
      have hnodup := (nodup_cons.mp howes.nodup).1
      rw [if_neg fun h ↦ h.2 mem_cons_self] at hbefore
      rw [hbefore, if_pos ⟨rfl, hissued⟩, if_pos ⟨hissued, hnodup⟩]
    · rw [if_neg fun h ↦ hsame h.1, Nat.add_zero, hbefore]
      refine if_congr (and_congr_right' (not_congr ?_)) rfl rfl
      rw [mem_cons, or_iff_right hsame]

theorem Owes.freeAll (howes : ledger.Owes start (blocks ++ others)) :
    (ledger.freeAll blocks).Owes start others := by
  induction blocks generalizing ledger with
  | nil => exact howes
  | cons block blocks ih => exact ih howes.free

/-- The books are balanced just in case that nothing is owed. -/
theorem Owes.balanced_iff (howes : ledger.Owes start blocks) :
    ledger.Balanced start ↔ blocks = [] := by
  constructor
  · intro hbalanced
    refine eq_nil_iff_forall_not_mem.mpr fun block hmem ↦ ?_
    obtain ⟨hstart, hnext⟩ := howes.issued block hmem
    have hone := hbalanced block hstart hnext
    rw [howes.frees_eq block hstart, if_neg fun h ↦ h.2 hmem] at hone
    exact Nat.zero_ne_one hone
  · rintro rfl block hstart hnext
    rw [howes.frees_eq block hstart, if_pos ⟨hnext, not_mem_nil⟩]

end Ledger

end XBlast.Foundation
