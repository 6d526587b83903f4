import Mathlib.Tactic.Common

/-!
# Tables that mark the cells of blocks

An allocator with a table gives out blocks of consecutive cells and writes a mark into every cell
of a block. When no mark is the value of a free cell, a run of free cells cannot overlap a marked
block (`Block.apart_of_free`), and a change to one block's cells leaves every block apart from it
marked (`Block.Marked.congr`).

Nothing here depends on a particular program.
-/

set_option autoImplicit false
set_option relaxedAutoImplicit false

namespace XBlast.Foundation

variable {α : Type*}

/-- A run of cells of a table and the mark that belongs into each. -/
structure Block (α : Type*) where
  start : ℕ
  length : ℕ
  mark : ℕ → α

namespace Block

variable {block other : Block α} {table changed : ℕ → α} {free : α}

/-- The cells of a block hold its marks. -/
def Marked (table : ℕ → α) (block : Block α) : Prop :=
  ∀ offset < block.length, table (block.start + offset) = block.mark offset

/-- No mark of the block looks like a free cell. -/
def Visible (free : α) (block : Block α) : Prop :=
  0 < block.length ∧ ∀ offset < block.length, block.mark offset ≠ free

/-- A cell of the block. -/
def Contains (block : Block α) (cell : ℕ) : Prop :=
  block.start ≤ cell ∧ cell < block.start + block.length

/-- The blocks share no cell. -/
def Apart (block other : Block α) : Prop :=
  block.start + block.length ≤ other.start ∨ other.start + other.length ≤ block.start

theorem Apart.symm (hapart : block.Apart other) : other.Apart block :=
  Or.symm hapart

/-- A block whose cells did not change is still marked. -/
theorem Marked.congr (hmarked : block.Marked table)
    (hsame : ∀ offset < block.length,
      changed (block.start + offset) = table (block.start + offset)) :
    block.Marked changed := by
  intro offset hoffset
  rw [hsame offset hoffset, hmarked offset hoffset]

/-- A run of free cells is apart from every marked block. -/
theorem apart_of_free (hmarked : block.Marked table) (hvisible : block.Visible free)
    (hpositive : 0 < other.length)
    (hfree : ∀ offset < other.length, table (other.start + offset) = free) :
    block.Apart other := by
  by_contra hoverlap
  rw [Apart, not_or] at hoverlap
  -- The later of the two starts is a cell of both.
  obtain hlater | hlater := Nat.le_total block.start other.start
  · obtain ⟨offset, hoffset⟩ := Nat.exists_eq_add_of_le hlater
    refine hvisible.2 offset (by omega) ?_
    rw [← hmarked offset (by omega), ← hoffset]
    exact hfree 0 hpositive
  · obtain ⟨offset, hoffset⟩ := Nat.exists_eq_add_of_le hlater
    refine hvisible.2 0 hvisible.1 ?_
    rw [← hmarked 0 hvisible.1, Nat.add_zero, hoffset]
    exact hfree offset (by omega)

end Block

end XBlast.Foundation
