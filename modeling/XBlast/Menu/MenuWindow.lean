import Mathlib.Data.List.Basic

/-!
# The window of a menu

A menu shows some of its items, from `firstVisibleMenuItem` on. Their number is a variable of the
file, which every menu sets when it is drawn; the search for the last visible item relies on it. As
a menu is drawn again whenever an item function has returned, the variable has the number of the
menu itself at each press, and the selected item is always shown (`selected_mem_shown`).
-/

set_option autoImplicit false
set_option relaxedAutoImplicit false

namespace XBlast.Menu

/-! ### The code -/

/-- A menu with its items, of which only the flag `noSelect` is of interest. An item is named by its
place, so that the links lead to the next larger and the next smaller number. -/
structure TextMenu where
  noSelect : List Bool
  visibleCount : ℕ
  nonempty : noSelect ≠ []

/-- The window of a menu and the variable of the file. -/
structure MenuState where
  firstVisibleMenuItem : ℕ
  selectedMenuItem : ℕ
  visibleCount : ℕ

namespace TextMenu

variable (menu : TextMenu)

/-- The number of items that a menu shows. -/
def window : ℕ := if menu.visibleCount = 0 then 10 else menu.visibleCount

variable (state : MenuState)

def textMenuDraw : MenuState := { state with visibleCount := menu.window }

/-- The items that have been drawn last. -/
def shown : List ℕ :=
  (List.range' state.firstVisibleMenuItem state.visibleCount).filter (· < menu.noSelect.length)

/-- The menu is opened without a preselected item. -/
def start (stale : ℕ) : MenuState := menu.textMenuDraw ⟨0, 0, stale⟩

/-- The item that is reached by following a number of links, at most the last one. -/
def follow : ℕ → ℕ → ℕ
  | 0, item => item
  | count + 1, item => if item + 1 < menu.noSelect.length then follow count (item + 1) else item

/-- A press of a button. An item function leaves in the variable what the menus have set that it has
opened. -/
inductive Press
  | up
  | down
  | function (visibleCount : ℕ)

def press : Press → MenuState
  | .up =>
    let ⟨first, selected, visibleCount⟩ := state
    if 0 < selected then
      menu.textMenuDraw ⟨if first = selected then selected - 1 else first, selected - 1,
        visibleCount⟩
    else state
  | .down =>
    let ⟨first, selected, visibleCount⟩ := state
    if menu.noSelect[selected + 1]? = some false then
      let lastVisibleMenuItem := menu.follow (visibleCount - 1) first
      menu.textMenuDraw ⟨if selected = lastVisibleMenuItem then first + 1 else first, selected + 1,
        visibleCount⟩
    else state
  | .function visibleCount => menu.textMenuDraw { state with visibleCount := visibleCount }

/-! ### The selected item -/

structure Sound (state : MenuState) : Prop where
  visibleCount : state.visibleCount = menu.window
  first_le : state.firstVisibleMenuItem ≤ state.selectedMenuItem
  selected_lt : state.selectedMenuItem < state.firstVisibleMenuItem + menu.window
  inside : state.selectedMenuItem < menu.noSelect.length

theorem window_pos : 0 < menu.window := by
  rw [window]
  split_ifs with hzero
  · decide
  · exact Nat.pos_of_ne_zero hzero

variable {menu}

/-- A menu that is drawn with the selected item inside its window. -/
theorem sound_textMenuDraw {first selected visibleCount : ℕ} (hfirst : first ≤ selected)
    (hselected : selected < first + menu.window) (hinside : selected < menu.noSelect.length) :
    menu.Sound (menu.textMenuDraw ⟨first, selected, visibleCount⟩) :=
  ⟨rfl, hfirst, hselected, hinside⟩

theorem sound_start (stale : ℕ) : menu.Sound (menu.start stale) :=
  sound_textMenuDraw (Nat.le_refl 0) (Nat.lt_add_of_pos_right menu.window_pos)
    (List.length_pos_iff.mpr menu.nonempty)

theorem follow_of_lt {count item : ℕ} (hinside : item + count < menu.noSelect.length) :
    menu.follow count item = item + count := by
  induction count generalizing item with
  | zero => rfl
  | succ count ih =>
    rw [follow, if_pos (by omega), ih (by omega)]
    omega

theorem Sound.press {state : MenuState} (hsound : menu.Sound state) (button : Press) :
    menu.Sound (menu.press state button) := by
  have hwindow := menu.window_pos
  obtain ⟨first, selected, visibleCount⟩ := state
  obtain ⟨hcount, hfirst, hselected, hinside⟩ := id hsound
  dsimp only at hcount hfirst hselected hinside
  cases button with
  | up =>
    rw [TextMenu.press]
    split_ifs with hprevious heq
    · exact sound_textMenuDraw (Nat.le_refl _) (by omega) (by omega)
    · exact sound_textMenuDraw (by omega) (by omega) (by omega)
    · exact hsound
  | down =>
    rw [TextMenu.press]
    dsimp only
    split_ifs with hnext hlast
    · obtain ⟨hnext, -⟩ := List.getElem?_eq_some_iff.mp hnext
      exact sound_textMenuDraw (by omega) (by omega) hnext
    · obtain ⟨hnext, -⟩ := List.getElem?_eq_some_iff.mp hnext
      -- the bottom of the window would have been found
      have hbottom : selected ≠ first + (visibleCount - 1) := fun heq ↦
        hlast (heq.trans (follow_of_lt (by omega)).symm)
      exact sound_textMenuDraw (by omega) (by omega) hnext
    · exact hsound
  | function => exact sound_textMenuDraw hfirst hselected hinside

theorem Sound.foldl {state : MenuState} (hsound : menu.Sound state) (presses : List Press) :
    menu.Sound (presses.foldl menu.press state) := by
  induction presses generalizing state with
  | nil => exact hsound
  | cons button presses ih => exact ih (hsound.press button)

end TextMenu

/-- After every sequence of presses the selected item is among the items that are shown. -/
theorem selected_mem_shown (menu : TextMenu) (stale : ℕ) (presses : List TextMenu.Press) :
    (presses.foldl menu.press (menu.start stale)).selectedMenuItem ∈
      menu.shown (presses.foldl menu.press (menu.start stale)) := by
  obtain ⟨hcount, hfirst, hselected, hinside⟩ := (TextMenu.sound_start stale).foldl presses
  refine List.mem_filter.mpr ⟨List.mem_range'_1.mpr ⟨hfirst, ?_⟩, decide_eq_true hinside⟩
  rw [hcount]
  exact hselected

end XBlast.Menu
