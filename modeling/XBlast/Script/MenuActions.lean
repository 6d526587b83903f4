import XBlast.Foundation.Ledger
import XBlast.Script.LineSteps
import XBlast.Script.SaveToFlash

/-!
# What the script actions leave behind

The menu opens a script in one of the two slots of `FileHandleArray`, reads it to a buffer, trims it
and tests, runs or saves it. `trimScript` gives the buffer back and leaves another one in its place.
A file of size zero is left open by all three actions. A file that is not read completely is left
open by `testScriptFromHDD` and by `saveScriptToFlash`, which keeps the buffer too.

Every call of a sequence leaves the slots as they were and no buffer behind just in case that all
slots are taken before, so that nothing is opened, or that each file is missing or is neither empty
nor, for the two actions, read incompletely (`eachReleases_iff`).

What the file system answers is part of a call. The segments that `trimScript` allocates and gives
back are not counted.
-/

set_option autoImplicit false
set_option relaxedAutoImplicit false

namespace XBlast.Script

open Foundation Flash Option Function

/-! ### Files -/

/-- Half of `FF_FS_LOCK`. -/
def maxOpenFileCount : ℕ := 2

/-- An existing file: what a buffer of its size holds after `f_read`, and the number of bytes that
were read, or nothing when reading has failed. -/
structure StoredFile where
  buffer : Text
  bytesRead : Option UInt32

/-- The slots that are in use, the blocks of memory, and the settings. -/
structure FileState where
  fileHandleArray : Fin maxOpenFileCount → Option StoredFile
  ledger : Ledger
  settings : LPCmodSettings

variable (state : FileState) (answer : Option StoredFile)

namespace FileState

/-- The first slot that is not in use. -/
def unusedSlot : Option (Fin maxOpenFileCount) :=
  (List.finRange maxOpenFileCount).find? fun slot ↦ (state.fileHandleArray slot).isNone

def setSlot (slot : Fin maxOpenFileCount) (file : Option StoredFile) : FileState :=
  { state with fileHandleArray := Function.update state.fileHandleArray slot file }

/-- The handle is one less than the number that is returned, which is zero when there is none. -/
def fatxopen (state : FileState) : Option (Fin maxOpenFileCount) × FileState :=
  match state.unusedSlot with
  | none => (none, state)
  | some slot =>
    match answer with
    | none => (none, state.setSlot slot none)
    | some file => (some slot, state.setSlot slot (some file))

/-- An open file is closed. -/
def fatxclose (handle : Fin maxOpenFileCount) : FileState :=
  state.setSlot handle none

/-- The bytes read, the number `-1` being compared as an unsigned one. -/
def fatxread (file : StoredFile) : ℕ := (file.bytesRead.map UInt32.toNat).getD 0xFFFFFFFF

/-- The handle of a script and the file, the size of which is returned. -/
def openScript (state : FileState) : Option (Fin maxOpenFileCount × StoredFile) × FileState :=
  let (handle, state) := state.fatxopen answer
  (handle.bind fun slot ↦ (state.fileHandleArray slot).map fun file ↦ (slot, file), state)

def malloc : FileState := { state with ledger := state.ledger.alloc }

def free (state : FileState) (block : ℕ) : FileState :=
  { state with ledger := state.ledger.free block }

/-! ### The actions -/

/-- The result and the state. There is none where `trimScript` has none. -/
def testScriptFromHDD (state : FileState) : Option (Int32 × FileState) :=
  match state.openScript answer with
  | (none, state) => some (-1, state)
  | (some (handle, file), state) =>
    let size := file.buffer.length
    if size = 0 then some (-1, state)
    else
      let fileBuf := state.ledger.next
      let state := state.malloc
      if fatxread file ≠ size then some (-1, state.free fileBuf)
      else
        (trimScript file.buffer).map fun (_, newSize) ↦
          let state := state.free fileBuf
          let newBuf := state.ledger.next
          let state := (state.malloc.fatxclose handle).free newBuf
          (if 0 < newSize ∧ newSize ≤ size then 1 else 0, state)

/-- The state after a script has been run. There is none where `trimScript` has none or the script
does not come to an end within the fuel. -/
def loadRunScriptWithParams {μ : Type} (host : ScriptHost μ) (param : List Int32) (machine : μ)
    (compareBuf : Packed 100) (fuel : ℕ) (answer : Option StoredFile) (state : FileState) :
    Option FileState :=
  match state.openScript answer with
  | (none, state) => some state
  | (some (handle, file), state) =>
    let size := file.buffer.length
    if size = 0 then some state
    else
      let fileBuf := state.ledger.next
      let state := state.malloc
      if fatxread file ≠ size then some ((state.fatxclose handle).free fileBuf)
      else
        (trimScript file.buffer).bind fun (script, newSize) ↦
          let state := state.free fileBuf
          let newBuf := state.ledger.next
          let state := state.malloc.fatxclose handle
          if 0 < newSize ∧ newSize ≤ size then
            (runScript host script param machine compareBuf fuel).map fun _ ↦ state.free newBuf
          else some (state.free newBuf)

/-- The state after a script has been saved, with the settings as they are after the copy. -/
def saveScriptToFlash (answer : Option StoredFile) (state : FileState) : Option FileState :=
  match state.openScript answer with
  | (none, state) => some state
  | (some (handle, file), state) =>
    let size := file.buffer.length
    if size = 0 then some state
    else
      let fileBuf := state.ledger.next
      let state := state.malloc
      if fatxread file ≠ size then some state
      else
        (Script.saveScriptToFlash state.settings (some file.buffer) true true).map
          fun settings ↦
            let state := state.free fileBuf
            let newBuf := state.ledger.next
            { (state.malloc.fatxclose handle).free newBuf with settings := settings }

end FileState

/-! ### Calls -/

/-- A call of one of the actions, with what a script that is run finds. -/
inductive ScriptCall (μ : Type)
  | test
  | load (param : List Int32) (machine : μ) (compareBuf : Packed 100) (fuel : ℕ)
  | save

variable {μ : Type}

variable (host : ScriptHost μ)

def ScriptCall.perform (call : ScriptCall μ) (answer : Option StoredFile) (state : FileState) :
    Option FileState :=
  match call with
  | .test => (state.testScriptFromHDD answer).map Prod.snd
  | .load param machine compareBuf fuel =>
    state.loadRunScriptWithParams host param machine compareBuf fuel answer
  | .save => state.saveScriptToFlash answer

/-- The state after calls one after the other, each with the answer of the file system. -/
def performCalls (calls : List (ScriptCall μ × Option StoredFile)) (state : FileState) :
    Option FileState :=
  calls.foldlM (fun state call ↦ call.1.perform host call.2 state) state

/-- Every slot is in use if it was before, and every block allocated in between has been given back
exactly once. -/
def Released (before after : FileState) : Prop :=
  (∀ slot, (after.fileHandleArray slot).isSome = (before.fileHandleArray slot).isSome) ∧
    after.ledger.Balanced before.ledger.next

/-- After each call that returns, its file and its buffer have been released. -/
def EachReleases (host : ScriptHost μ) :
    List (ScriptCall μ × Option StoredFile) → FileState → Prop
  | [], _ => True
  | call :: calls, state =>
    ∀ after, call.1.perform host call.2 state = some after →
      Released state after ∧ EachReleases host calls after

def ScriptCall.isLoad : ScriptCall μ → Bool
  | .load _ _ _ _ => true
  | .test | .save => false

/-- The file is missing, or it is not empty and a call that does not run it reads it completely. -/
def ScriptCall.Closes (call : ScriptCall μ) : Option StoredFile → Prop
  | none => True
  | some file => file.buffer.length ≠ 0 ∧
      (call.isLoad = true ∨ FileState.fatxread file = file.buffer.length)

/-- All slots are in use. -/
def FileState.IsFull : Prop :=
  ∀ slot, (state.fileHandleArray slot).isSome = true

/-! ### One call -/

section

variable {state after : FileState} {slot : Fin maxOpenFileCount} {file : StoredFile}

theorem FileState.unusedSlot_eq_none_iff : state.unusedSlot = none ↔ state.IsFull := by
  rw [FileState.unusedSlot, List.find?_eq_none, FileState.IsFull]
  simp only [List.mem_finRange, true_implies, isNone_iff_eq_none, isSome_iff_ne_none,
    ne_eq]

theorem FileState.eq_none_of_unusedSlot (hslot : state.unusedSlot = some slot) :
    state.fileHandleArray slot = none := by
  have hnone := List.find?_some hslot
  exact isNone_iff_eq_none.mp hnone

/-- Nothing is opened without an unused slot or without a file. -/
theorem FileState.openScript_none {answer : Option StoredFile}
    (hnone : state.IsFull ∨ answer = none) : state.openScript answer = (none, state) := by
  rw [FileState.openScript, FileState.fatxopen]
  cases hslot : state.unusedSlot with
  | none => rfl
  | some slot =>
    have hfree := FileState.eq_none_of_unusedSlot hslot
    obtain hfull | rfl := hnone
    · exact absurd (FileState.unusedSlot_eq_none_iff.mpr hfull) (by rw [hslot]; simp)
    · dsimp only
      rw [FileState.setSlot, ← hfree, update_eq_self]
      rfl

theorem FileState.openScript_some (hslot : state.unusedSlot = some slot) (file : StoredFile) :
    state.openScript (some file) = (some (slot, file), state.setSlot slot (some file)) := by
  rw [FileState.openScript, FileState.fatxopen, hslot]
  simp only [FileState.setSlot, bind_some, update_self, map_some]

theorem released_refl (state : FileState) : Released state state :=
  ⟨fun _ ↦ rfl, (state.ledger.owes_nil.balanced_iff).mpr rfl⟩

/-- A slot that was unused and is in use is not released. -/
theorem not_released_of_open (hslot : state.unusedSlot = some slot)
    (hopen : after.fileHandleArray = (state.setSlot slot (some file)).fileHandleArray) :
    ¬Released state after := by
  intro hreleased
  have hsame := hreleased.1 slot
  rw [hopen, FileState.eq_none_of_unusedSlot hslot] at hsame
  simp [FileState.setSlot] at hsame

/-- A file that is closed leaves the slots as they were. -/
theorem FileState.fileHandleArray_closed (hslot : state.unusedSlot = some slot) :
    ((state.setSlot slot (some file)).setSlot slot none).fileHandleArray =
      state.fileHandleArray := by
  rw [FileState.setSlot, FileState.setSlot]
  rw [update_idem, ← FileState.eq_none_of_unusedSlot hslot, update_eq_self]

/-- The buffer and the one that `trimScript` leaves in its place have been given back. -/
theorem owes_trimmed (ledger : Ledger) :
    ((ledger.alloc.free ledger.next).alloc.free (ledger.next + 1)).Owes ledger.next [] :=
  ledger.owes_nil.alloc.free.alloc.free

theorem released_of_closed (hslot : state.unusedSlot = some slot)
    (hclosed : after.fileHandleArray =
      ((state.setSlot slot (some file)).setSlot slot none).fileHandleArray)
    (howes : after.ledger.Owes state.ledger.next []) : Released state after := by
  rw [FileState.fileHandleArray_closed hslot] at hclosed
  exact ⟨fun _ ↦ by rw [hclosed], howes.balanced_iff.mpr rfl⟩

variable (host : ScriptHost μ) (call : ScriptCall μ)

/-- A call that opens a file releases it just in case that it is a closing one. -/
theorem ScriptCall.released_iff_of_opened (hslot : state.unusedSlot = some slot)
    (hperform : call.perform host (some file) state = some after) :
    Released state after ↔ call.Closes (some file) := by
  have howes := owes_trimmed state.ledger
  cases call with
  | test =>
    rw [ScriptCall.perform, FileState.testScriptFromHDD,
      FileState.openScript_some hslot] at hperform
    dsimp only at hperform
    rw [ScriptCall.Closes]
    split_ifs at hperform with hsize hread
    · obtain rfl := some.inj hperform
      exact iff_of_false (not_released_of_open hslot rfl) fun h ↦ h.1 hsize
    · obtain rfl := some.inj hperform
      exact iff_of_false (not_released_of_open hslot rfl) fun h ↦
        hread (h.2.resolve_left Bool.false_ne_true)
    · rw [map_map] at hperform
      obtain ⟨trimmed, -, rfl⟩ := map_eq_some_iff.mp hperform
      exact iff_of_true (released_of_closed hslot rfl howes) ⟨hsize, .inr (not_not.mp hread)⟩
  | load param machine compareBuf fuel =>
    rw [ScriptCall.perform, FileState.loadRunScriptWithParams,
      FileState.openScript_some hslot] at hperform
    dsimp only at hperform
    split_ifs at hperform with hsize hread
    · obtain rfl := some.inj hperform
      exact iff_of_false (not_released_of_open hslot rfl) fun h ↦ h.1 hsize
    · obtain rfl := some.inj hperform
      exact iff_of_true (released_of_closed hslot rfl state.ledger.owes_nil.alloc.free)
        ⟨hsize, .inl rfl⟩
    · obtain ⟨trimmed, -, hrun⟩ := bind_eq_some_iff.mp hperform
      refine iff_of_true ?_ ⟨hsize, .inl rfl⟩
      split_ifs at hrun
      · obtain ⟨trace, -, rfl⟩ := map_eq_some_iff.mp hrun
        exact released_of_closed hslot rfl howes
      · obtain rfl := some.inj hrun
        exact released_of_closed hslot rfl howes
  | save =>
    rw [ScriptCall.perform, FileState.saveScriptToFlash,
      FileState.openScript_some hslot] at hperform
    dsimp only at hperform
    split_ifs at hperform with hsize hread
    · obtain rfl := some.inj hperform
      exact iff_of_false (not_released_of_open hslot rfl) fun h ↦ h.1 hsize
    · obtain rfl := some.inj hperform
      exact iff_of_false (not_released_of_open hslot rfl) fun h ↦
        hread (h.2.resolve_left Bool.false_ne_true)
    · obtain ⟨settings, -, rfl⟩ := map_eq_some_iff.mp hperform
      exact iff_of_true (released_of_closed hslot rfl howes) ⟨hsize, .inr (not_not.mp hread)⟩

/-- A call that opens nothing leaves the state as it was. -/
theorem ScriptCall.perform_of_unopened {answer : Option StoredFile}
    (hnone : state.IsFull ∨ answer = none) : call.perform host answer state = some state := by
  cases call with
  | test =>
    rw [ScriptCall.perform, FileState.testScriptFromHDD, FileState.openScript_none hnone]
    rfl
  | load param machine compareBuf fuel =>
    rw [ScriptCall.perform, FileState.loadRunScriptWithParams, FileState.openScript_none hnone]
  | save => rw [ScriptCall.perform, FileState.saveScriptToFlash, FileState.openScript_none hnone]

theorem ScriptCall.released_iff {answer : Option StoredFile}
    (hperform : call.perform host answer state = some after) :
    Released state after ↔ state.IsFull ∨ call.Closes answer := by
  by_cases hfull : state.IsFull
  · rw [ScriptCall.perform_of_unopened host call (.inl hfull)] at hperform
    obtain rfl := some.inj hperform
    exact iff_of_true (released_refl state) (.inl hfull)
  · rw [or_iff_right hfull]
    cases answer with
    | none =>
      rw [ScriptCall.perform_of_unopened host call (.inr rfl)] at hperform
      obtain rfl := some.inj hperform
      exact iff_of_true (released_refl state) trivial
    | some file =>
      obtain ⟨slot, hslot⟩ := ne_none_iff_exists'.mp
        (mt FileState.unusedSlot_eq_none_iff.mp hfull)
      exact call.released_iff_of_opened host hslot hperform

theorem Released.isFull_iff (hreleased : Released state after) : after.IsFull ↔ state.IsFull :=
  forall_congr' fun slot ↦ by rw [hreleased.1 slot]

end

/-! ### Sequences of calls -/

/-- In a sequence of calls that all return, each call releases its file and its buffer just in case
that all slots are in use from the start, or that each file is missing or is closed and freed. -/
theorem eachReleases_iff (calls : List (ScriptCall μ × Option StoredFile))
    (state final : FileState) (hcalls : performCalls host calls state = some final) :
    EachReleases host calls state ↔ state.IsFull ∨ ∀ call ∈ calls, call.1.Closes call.2 := by
  induction calls generalizing state with
  | nil => exact iff_of_true trivial (.inr nofun)
  | cons call calls ih =>
    rw [performCalls, List.foldlM_cons] at hcalls
    obtain ⟨after, hperform, hrest⟩ := bind_eq_some_iff.mp hcalls
    have hrest := ih after hrest
    have hreleased := call.1.released_iff host hperform
    have heach : EachReleases host (call :: calls) state ↔
        Released state after ∧ EachReleases host calls after := by
      rw [EachReleases, hperform]
      exact ⟨fun h ↦ h after rfl, fun h other hother ↦ some.inj hother ▸ h⟩
    rw [heach, List.forall_mem_cons, hrest]
    constructor
    · rintro ⟨hfirst, hlater⟩
      rw [hfirst.isFull_iff] at hlater
      obtain hfull | hcloses := hreleased.mp hfirst
      · exact .inl hfull
      · exact hlater.imp_right fun hcalls ↦ ⟨hcloses, hcalls⟩
    · intro hcloses
      have hfirst := hreleased.mpr (hcloses.imp_right And.left)
      rw [hfirst.isFull_iff]
      exact ⟨hfirst, hcloses.imp_right And.right⟩

/-- No file is open and nothing has been allocated. -/
def closedState : FileState := ⟨fun _ ↦ none, .empty, ⟨fun _ ↦ 0⟩⟩

/-- A script of one line that is read completely. -/
def resetFile : StoredFile := ⟨ascii "LCDR\n", some 5⟩

def emptyFile : StoredFile := ⟨[], some 0⟩

theorem eachReleases_resetFile :
    EachReleases idleHost [(.test, some resetFile), (.save, none)] closedState := by
  have hcalls : (performCalls idleHost [(.test, some resetFile), (.save, none)]
      closedState).isSome = true := by decide
  obtain ⟨final, hfinal⟩ := isSome_iff_exists.mp hcalls
  refine (eachReleases_iff idleHost _ closedState final hfinal).mpr (.inr ?_)
  simp only [List.forall_mem_cons]
  exact ⟨⟨by decide, .inr rfl⟩, trivial, nofun⟩

/-- Two tests of an empty file take both slots, and no script can be opened any more. -/
theorem emptyFile_exhausts_slots :
    (performCalls idleHost [(.test, some emptyFile), (.test, some emptyFile)] closedState).map
      (fun state ↦ (state.fatxopen (some resetFile)).1) = some none := by
  decide

end XBlast.Script
