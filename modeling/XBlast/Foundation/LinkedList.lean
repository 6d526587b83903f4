import Mathlib.Data.List.Nodup

/-!
# Linked lists in memory

A linked list is kept by a count and pointers to its first and last node, and each node has a
pointer to the next one. A loop over the list follows these pointers as often as the count says
(`LinkedList.walk`). `LinkedList.Holds` says that the nodes are those of a given sequence, that the
chain of pointers ends behind the last of them, and that the count is their number. It is kept when
a node is added at the end or when the content of a node is changed (`LinkedList.Holds.append`,
`LinkedList.Holds.modify`), and under it a loop sees the nodes of the sequence one after the other
(`LinkedList.Holds.walk_eq`).

Nothing here depends on a particular program.
-/

set_option autoImplicit false
set_option relaxedAutoImplicit false

namespace XBlast.Foundation

open List Function

structure Node (α : Type*) where
  value : α
  next : Option ℕ

/-- The count, the pointers to the first and the last node, and the nodes by their addresses. -/
structure LinkedList (α : Type*) where
  count : ℕ
  first : Option ℕ
  last : Option ℕ
  node : ℕ → Option (Node α)

namespace LinkedList

variable {α : Type*}

def empty : LinkedList α := ⟨0, none, none, fun _ ↦ none⟩

/-- The nodes that are seen from a pointer on, at most `count` of them. -/
def follow (node : ℕ → Option (Node α)) : ℕ → Option ℕ → List (ℕ × α)
  | 0, _ => []
  | _ + 1, none => []
  | count + 1, some address =>
    match node address with
    | none => []
    | some cell => (address, cell.value) :: follow node count cell.next

variable (list : LinkedList α)

/-- The nodes that a loop over the list sees. -/
def walk : List (ℕ × α) := follow list.node list.count list.first

/-- The nodes after the next pointer of one of them has been set. -/
def link (node : ℕ → Option (Node α)) (last : Option ℕ) (address : ℕ) : ℕ → Option (Node α) :=
  fun other ↦
    if last = some other then (node other).map fun cell ↦ { cell with next := some address }
    else node other

/-- The list with a new node at its end. `isFirst` is the outcome of the test for an empty list. -/
def append (isFirst : Bool) (address : ℕ) (value : α) : LinkedList α where
  count := list.count + 1
  first := if isFirst then some address else list.first
  last := some address
  node := update (if isFirst then list.node else link list.node list.last address) address
    (some ⟨value, none⟩)

/-- The list with the content of one node changed. -/
def modify (address : ℕ) (change : α → α) : LinkedList α :=
  { list with
    node := update list.node address
      ((list.node address).map fun cell ↦ { cell with value := change cell.value }) }

/-- The pointers from `start` on lead to the nodes one after the other, and to nothing behind the
last. -/
def Linked (node : ℕ → Option (Node α)) : Option ℕ → List (ℕ × α) → Prop
  | start, [] => start = none
  | start, (address, value) :: items =>
    start = some address ∧ ∃ next, node address = some ⟨value, next⟩ ∧ Linked node next items

/-- The list has the given nodes. -/
structure Holds (list : LinkedList α) (items : List (ℕ × α)) : Prop where
  linked : Linked list.node list.first items
  count_eq : list.count = items.length
  last_eq : list.last = items.getLast?.map Prod.fst
  nodup : (items.map Prod.fst).Nodup

theorem holds_empty : (empty : LinkedList α).Holds [] := ⟨rfl, rfl, rfl, nodup_nil⟩

variable {list : LinkedList α} {items : List (ℕ × α)} {node other : ℕ → Option (Node α)}
  {start : Option ℕ} {address : ℕ} {value : α}

theorem Linked.follow_eq (hlinked : Linked node start items) :
    follow node items.length start = items := by
  induction items generalizing start with
  | nil => rfl
  | cons item items ih =>
    obtain ⟨rfl, next, hnode, hnext⟩ := hlinked
    rw [length_cons, follow, hnode]
    dsimp only
    rw [ih hnext]

/-- A loop over the list sees its nodes. -/
theorem Holds.walk_eq (hholds : list.Holds items) : list.walk = items := by
  rw [walk, hholds.count_eq, hholds.linked.follow_eq]

theorem Holds.first_eq_none_iff (hholds : list.Holds items) : list.first = none ↔ items = [] := by
  cases items with
  | nil => exact iff_of_true hholds.linked rfl
  | cons item items =>
    have hfirst := hholds.linked.1
    rw [hfirst]
    exact iff_of_false (Option.some_ne_none _) (cons_ne_nil _ _)

/-- The chain goes on to a node that is linked behind its last one. -/
theorem Linked.link (hlinked : Linked node start items) (hne : items ≠ [])
    (hnodup : (items.map Prod.fst).Nodup) (hfresh : ∀ item ∈ items, item.1 ≠ address) (value : α) :
    Linked (update (link node (items.getLast?.map Prod.fst) address) address
      (some ⟨value, none⟩)) start (items ++ [(address, value)]) := by
  induction items generalizing start with
  | nil => exact absurd rfl hne
  | cons item items ih =>
    obtain ⟨hstart, next, hnode, hnext⟩ := hlinked
    have hother : item.1 ≠ address := hfresh item mem_cons_self
    rw [map_cons, nodup_cons] at hnodup
    cases items with
    | nil =>
      refine ⟨hstart, some address, ?_, rfl, none, update_self _ _ _, rfl⟩
      rw [update_of_ne hother]
      change LinkedList.link node (some item.1) address item.1 = _
      rw [LinkedList.link, if_pos rfl, hnode]
      rfl
    | cons following items =>
      have hlast : ((item :: following :: items).getLast?.map Prod.fst) =
          (following :: items).getLast?.map Prod.fst := by
        rw [getLast?_cons_cons]
      have hnotLast : (following :: items).getLast?.map Prod.fst ≠ some item.1 := by
        intro hsame
        obtain ⟨final, hfinal, hfst⟩ := Option.map_eq_some_iff.mp hsame
        exact hnodup.1 (hfst ▸ mem_map_of_mem (mem_of_getLast? hfinal))
      rw [hlast]
      refine ⟨hstart, next, ?_, ?_⟩
      · rw [update_of_ne hother, LinkedList.link, if_neg hnotLast, hnode]
      · exact ih hnext (cons_ne_nil _ _) hnodup.2
          fun later hlater ↦ hfresh later (mem_cons_of_mem item hlater)

/-- A node with a new address is added at the end. -/
theorem Holds.append (hholds : list.Holds items) {isFirst : Bool}
    (hfirst : isFirst = true ↔ items = []) (hfresh : ∀ item ∈ items, item.1 ≠ address)
    (value : α) : (list.append isFirst address value).Holds (items ++ [(address, value)]) where
  linked := by
    rw [LinkedList.append]
    cases hcase : isFirst with
    | true =>
      obtain rfl := hfirst.mp hcase
      exact ⟨rfl, none, update_self _ _ _, rfl⟩
    | false =>
      have hne : items ≠ [] := fun hnil ↦ Bool.false_ne_true (hcase ▸ hfirst.mpr hnil)
      have hlinked := hholds.linked.link hne hholds.nodup hfresh value
      rwa [← hholds.last_eq] at hlinked
  count_eq := by
    rw [length_append, ← hholds.count_eq]
    rfl
  last_eq := by
    rw [getLast?_append]
    rfl
  nodup := by
    rw [map_append, nodup_append]
    refine ⟨hholds.nodup, nodup_singleton _, ?_⟩
    intro first hmem second hsecond
    obtain ⟨item, hitem, rfl⟩ := mem_map.mp hmem
    rw [mem_singleton.mp hsecond]
    exact hfresh item hitem

/-- The sequence with the content at one address changed. -/
def modifyAt (address : ℕ) (change : α → α) (items : List (ℕ × α)) : List (ℕ × α) :=
  items.map fun item ↦ if item.1 = address then (item.1, change item.2) else item

@[simp] theorem map_fst_modifyAt (address : ℕ) (change : α → α) (items : List (ℕ × α)) :
    (modifyAt address change items).map Prod.fst = items.map Prod.fst := by
  rw [modifyAt, map_map]
  refine map_congr_left fun item _ ↦ ?_
  rw [comp_apply]
  split_ifs <;> rfl

theorem modifyAt_of_not_mem {address : ℕ} (hmem : address ∉ items.map Prod.fst) (change : α → α) :
    modifyAt address change items = items := by
  rw [modifyAt]
  conv_rhs => rw [← map_id items]
  refine map_congr_left fun item hitem ↦ if_neg ?_
  rintro rfl
  exact hmem (mem_map_of_mem hitem)

theorem Linked.modify (hlinked : Linked node start items) (change : α → α) :
    Linked (update node address
      ((node address).map fun cell ↦ { cell with value := change cell.value })) start
        (modifyAt address change items) := by
  induction items generalizing start with
  | nil => exact hlinked
  | cons item items ih =>
    obtain ⟨hstart, next, hnode, hnext⟩ := hlinked
    rw [modifyAt, map_cons]
    by_cases hsame : item.1 = address
    · rw [if_pos hsame]
      refine ⟨hstart, next, ?_, ih hnext⟩
      rw [← hsame, update_self, hnode]
      rfl
    · rw [if_neg hsame]
      refine ⟨hstart, next, ?_, ih hnext⟩
      rw [update_of_ne hsame, hnode]

/-- The content of a node is changed. -/
theorem Holds.modify (hholds : list.Holds items) (address : ℕ) (change : α → α) :
    (list.modify address change).Holds (modifyAt address change items) where
  linked := hholds.linked.modify change
  count_eq := by
    rw [modifyAt, length_map, ← hholds.count_eq]
    rfl
  last_eq := by
    rw [← getLast?_map, map_fst_modifyAt, getLast?_map]
    exact hholds.last_eq
  nodup := by
    rw [map_fst_modifyAt]
    exact hholds.nodup

end LinkedList

end XBlast.Foundation
