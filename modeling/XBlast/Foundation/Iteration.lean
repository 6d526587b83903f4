import Mathlib.Data.List.Basic
import Mathlib.Data.List.Induction
import Mathlib.Order.WellFounded

/-!
# Runs of a deterministic step

A run of a machine is an iterate of its step function. An invariant of the step holds along every
run, by `Function.Iterate.rec`. `exists_iterate_of_measure` is the other half: a run that always
makes progress towards a goal reaches it.

A run driven by operations is a fold. When only some operations can change whether a property
holds, `foldl_last_change` finds the one that decides it: the last of them.
-/

set_option autoImplicit false
set_option relaxedAutoImplicit false

namespace XBlast.Foundation

open List

section

variable {α β : Type*} [Preorder β] [WellFoundedLT β] {start : α}

/-- A run reaches its goal when every step before it keeps an invariant and lowers a measure. -/
theorem exists_iterate_of_measure (step : α → α) (invariant goal : α → Prop) (measure : α → β)
    (hstep : ∀ state, invariant state → ¬ goal state →
      invariant (step state) ∧ measure (step state) < measure state)
    (hstart : invariant start) :
    ∃ count, invariant (step^[count] start) ∧ goal (step^[count] start) := by
  induction hmeasure : measure start using WellFoundedLT.induction generalizing start with
  | ind bound ih =>
    by_cases hgoal : goal start
    · exact ⟨0, hstart, hgoal⟩
    · obtain ⟨hnext, hlower⟩ := hstep start hstart hgoal
      obtain ⟨count, hcount⟩ := ih (measure (step start)) (hmeasure ▸ hlower) hnext rfl
      exact ⟨count + 1, hcount⟩

end

section

variable {σ ο : Type*} {step : σ → ο → σ} {invariant : σ → Prop}

theorem foldl_invariant (hinvariant : ∀ state op, invariant state → invariant (step state op))
    {start : σ} (hstart : invariant start) (ops : List ο) : invariant (ops.foldl step start) :=
  List.foldlRecOn ops step hstart fun state hstate op _ ↦ hinvariant state op hstate

/-- A property that did not hold at first and that only some operations can change holds after a
run if and only if the last of those operations made it hold. -/
theorem foldl_last_change (property : σ → Prop) (changes : ο → Prop)
    (hinvariant : ∀ state op, invariant state → invariant (step state op))
    (hkeep : ∀ state op, invariant state → ¬changes op →
      (property (step state op) ↔ property state))
    {start : σ} (hstart : invariant start) (hnot : ¬property start) (ops : List ο) :
    property (ops.foldl step start) ↔ ∃ before op after, ops = before ++ op :: after ∧
      changes op ∧ (∀ later ∈ after, ¬changes later) ∧
      property (step (before.foldl step start) op) := by
  induction ops using List.reverseRecOn with
  | nil => exact iff_of_false hnot (by simp)
  | append_singleton ops last ih =>
    have hreached := foldl_invariant hinvariant hstart ops
    rw [foldl_append, foldl_cons, foldl_nil]
    constructor
    · intro hproperty
      by_cases hlast : changes last
      · exact ⟨ops, last, [], rfl, hlast, by simp, hproperty⟩
      · rw [hkeep _ last hreached hlast, ih] at hproperty
        obtain ⟨before, op, after, rfl, hop, hafter, hchanged⟩ := hproperty
        refine ⟨before, op, after ++ [last], by simp, hop, fun later hlater ↦ ?_, hchanged⟩
        obtain hlater | hlater := mem_append.mp hlater
        · exact hafter later hlater
        · exact mem_singleton.mp hlater ▸ hlast
    · rintro ⟨before, op, after, hsplit, hop, hafter, hchanged⟩
      obtain rfl | ⟨after, final, rfl⟩ := eq_nil_or_concat' after
      · obtain ⟨rfl, hlast⟩ := append_inj' hsplit rfl
        exact singleton_inj.mp hlast ▸ hchanged
      · rw [← cons_append, ← append_assoc] at hsplit
        obtain ⟨rfl, hlast⟩ := append_inj' hsplit rfl
        obtain rfl := singleton_inj.mp hlast
        rw [hkeep _ last hreached (hafter last (by simp)), ih]
        exact ⟨before, op, after, rfl, hop, fun later hlater ↦
          hafter later (mem_append_left _ hlater), hchanged⟩

end

end XBlast.Foundation
