import Mathlib.Data.List.Perm.Basic
import Mathlib.Data.List.ReduceOption

/-!
# Tables with holes

A table is a list of optional values: a value that is taken out leaves a hole, and a new value goes
to a hole or to the end. `List.reduceOption` gives the values of a table in order. As a collection
they change by the one value only, in whatever place it is (`reduceOption_place_perm`,
`reduceOption_clear_perm`). When the values have different keys, taking out the value with a key is
the same as dropping all values with this key (`filter_key_perm`). Reading a table from a place on
passes the holes (`reduceOption_drop_of_holes`).

Nothing here depends on a particular program.
-/

set_option autoImplicit false
set_option relaxedAutoImplicit false

namespace XBlast.Foundation

open List

variable {α κ : Type*}

/-- The table with a value in a place, which may be the one behind the last. -/
def place (slots : List (Option α)) (slot : ℕ) (value : α) : List (Option α) :=
  if slot < slots.length then slots.set slot (some value) else slots ++ [some value]

variable {slots : List (Option α)} {slot : ℕ} {value : α}

theorem length_place (hslot : slot ≤ slots.length) :
    (place slots slot value).length = max slots.length (slot + 1) := by
  rw [place]
  split_ifs with hinside
  · rw [length_set]
    omega
  · rw [length_append, length_singleton]
    omega

theorem getElem?_place (hslot : slot ≤ slots.length) (index : ℕ) :
    (place slots slot value)[index]? =
      if index = slot then some (some value) else slots[index]? := by
  rw [place]
  split_ifs with hinside hsame hsame
  · rw [hsame, getElem?_set_self hinside]
  · rw [getElem?_set_ne (Ne.symm hsame)]
  · have hend : slot = slots.length := by omega
    rw [hsame, hend, getElem?_append_right (Nat.le_refl _), Nat.sub_self]
    rfl
  · by_cases hindex : index < slots.length
    · rw [getElem?_append_left hindex]
    · rw [getElem?_eq_none (by rw [length_append, length_singleton]; omega),
        getElem?_eq_none (Nat.not_lt.mp hindex)]

theorem reduceOption_set_perm (hslot : slot < slots.length) (new : Option α) :
    (slots.set slot new).reduceOption.Perm (new.toList ++ (slots.eraseIdx slot).reduceOption) := by
  have hset := (set_perm_cons_eraseIdx hslot new).filterMap id
  cases new with
  | none | some => exact hset

/-- The values of a table, those of one place first. -/
theorem reduceOption_perm {old : Option α} (hold : slots[slot]? = some old) :
    slots.reduceOption.Perm (old.toList ++ (slots.eraseIdx slot).reduceOption) := by
  obtain ⟨hinside, rfl⟩ := List.getElem?_eq_some_iff.mp hold
  have hset := reduceOption_set_perm hinside slots[slot]
  rwa [set_getElem_self] at hset

/-- A table with a hole has room for another value. -/
theorem length_place_of_hole (hslot : slot ≤ slots.length)
    (hhole : slot < slots.length → slots[slot]? = some none)
    (hfull : slot = slots.length → none ∉ slots) :
    (place slots slot value).length = max slots.length (slots.reduceOption.length + 1) := by
  rw [length_place hslot]
  rcases Nat.lt_or_eq_of_le hslot with hinside | hend
  · have hfewer := reduceOption_length_lt_iff.mpr (mem_of_getElem? (hhole hinside))
    omega
  · have hmore := reduceOption_length_lt_iff.not.mpr (hfull hend)
    have hle := reduceOption_length_le slots
    omega

/-- A value that is put in a hole or at the end is added to the values. -/
theorem reduceOption_place_perm (hhole : slot < slots.length → slots[slot]? = some none) :
    (place slots slot value).reduceOption.Perm (value :: slots.reduceOption) := by
  rw [place]
  split_ifs with hinside
  · exact (reduceOption_set_perm hinside (some value)).trans
      ((reduceOption_perm (hhole hinside)).symm.cons value)
  · rw [reduceOption_append]
    exact perm_append_singleton value slots.reduceOption

/-- A value that is taken out is missing from the values. -/
theorem reduceOption_clear_perm (hvalue : slots[slot]? = some (some value)) :
    slots.reduceOption.Perm (value :: (slots.set slot none).reduceOption) := by
  have hinside : slot < slots.length := (List.getElem?_eq_some_iff.mp hvalue).1
  exact (reduceOption_perm hvalue).trans
    ((reduceOption_set_perm hinside (none : Option α)).symm.cons value)

/-- Holes are passed when the values are read in order. -/
theorem reduceOption_drop_of_holes {last : ℕ} (hle : slot ≤ last)
    (hholes : ∀ index, slot ≤ index → index < last → slots[index]? = some none) :
    (slots.drop slot).reduceOption = (slots.drop last).reduceOption := by
  induction hle with
  | refl => rfl
  | step hle ih =>
    rename_i last
    obtain ⟨hinside, hnone⟩ := List.getElem?_eq_some_iff.mp (hholes last hle (Nat.lt_succ_self _))
    rw [ih fun index hlow hhigh ↦ hholes index hlow (Nat.lt_succ_of_lt hhigh),
      drop_eq_getElem_cons hinside, hnone, reduceOption_cons_of_none]

theorem reduceOption_drop_of_some (hvalue : slots[slot]? = some (some value)) :
    (slots.drop slot).reduceOption = value :: (slots.drop (slot + 1)).reduceOption := by
  obtain ⟨hinside, hsome⟩ := List.getElem?_eq_some_iff.mp hvalue
  rw [drop_eq_getElem_cons hinside, hsome, reduceOption_cons_of_some]

theorem reduceOption_drop_of_none (hnone : slots[slot]? = none) :
    (slots.drop slot).reduceOption = [] := by
  rw [drop_eq_nil_of_le (getElem?_eq_none_iff.mp hnone), reduceOption_nil]

/-- The values with other keys are what is left without the value. -/
theorem filter_key_perm [DecidableEq κ] {key : α → κ} {values rest : List α}
    (hperm : values.Perm (value :: rest)) (hnodup : (values.map key).Nodup) :
    (values.filter fun other ↦ key other ≠ key value).Perm rest := by
  have hkeys := (hperm.map key).nodup_iff.mp hnodup
  rw [map_cons, nodup_cons] at hkeys
  have hfilter := hperm.filter fun other ↦ key other ≠ key value
  have hrest : rest.filter (fun other ↦ key other ≠ key value) = rest := by
    refine filter_eq_self.mpr fun other hother ↦ decide_eq_true fun heq ↦ hkeys.1 ?_
    rw [← heq]
    exact mem_map_of_mem hother
  rwa [filter_cons_of_neg (by simp), hrest] at hfilter

end XBlast.Foundation
