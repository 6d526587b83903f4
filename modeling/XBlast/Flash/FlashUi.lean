import XBlast.Flash.Requests

/-!
# The flash user interface

The part of 'FlashUi.c' that drives a settings save: the loop of `SaveXBlastOSSettings` shows the
progress of the job, frees the machine at the end of it and asks the user whether to go on after a
failure. What is shown and the answers of the user are not part of the state; an answer is an
argument.
-/

set_option autoImplicit false
set_option relaxedAutoImplicit false

namespace XBlast.FlashUi

open Flash Option

variable {σ : Type*} {device : FlashLowLevel σ} {state : FlashState σ}

/-- Whether the error that is shown is critical. An update of the operating system restarts the
console instead. -/
def flashPrintResult (mustRestart : Bool) (state : FlashState σ) : Option Bool :=
  if mustRestart then none
  else some (state.flashErrorCode = .failedErase || state.flashErrorCode = .failedProgram)

section

variable (device)

/-- The interface between two calls of the state machine. The answer `confirm` is that of the
dialog 'Settings not saved. Continue anyway?', where `true` means not to continue. -/
def executeFlashDriverUI (mustRestart confirm : Bool) (state : FlashState σ) :
    Option (Bool × FlashState σ) :=
  match state.currentFlashTask with
  | .writeBios =>
    if state.currentFlashOp = .completed ∨ state.currentFlashOp = .error then
      (flashPrintResult mustRestart state).map fun _ ↦ (true, freeFlashFSM device state)
    else some (true, state)
  | .writeSettings =>
    if state.currentFlashOp = .completed then some (true, freeFlashFSM device state)
    else if state.currentFlashOp = .error then
      (flashPrintResult mustRestart state).map fun isCritical ↦
        (!isCritical && !confirm, freeFlashFSM device state)
    else some (true, state)
  | _ => some (true, state)

/-- The loop of `saveXBlastOSSettings`; it gives nothing when the rounds are used up or when the
console restarts. -/
def saveLoop (device : FlashLowLevel σ) (mustRestart confirm : Bool) :
    ℕ → Bool → FlashState σ → Option (Bool × FlashState σ)
  | 0, _, _ => none
  | rounds + 1, resultSuccess, state =>
    if state.currentFlashOp = .idle then some (resultSuccess, state)
    else
      (executeFlashDriverUI device mustRestart confirm state).bind fun (success, shown) ↦
        saveLoop device mustRestart confirm rounds success (executeFlashFSM device shown)

def selectOSBank (state : FlashState σ) : FlashState σ :=
  { state with chip := device.switchOSBank .osBank state.chip }

/-- The loop that runs a job to its end, which is that of a save without its answer. -/
def blockExecuteFlashJob (mustRestart confirm : Bool) (rounds : ℕ) (state : FlashState σ) :
    Option (FlashState σ) :=
  (saveLoop device mustRestart confirm rounds true state).map fun ended ↦
    selectOSBank device ended.2

def saveXBlastOSSettings (hardware : Hardware) (mustRestart confirm : Bool) (rounds : ℕ)
    (state : FlashState σ) : Option (Bool × FlashState σ) :=
  if state.lpcmodSettings = state.lpcmodSettingsOrigFromFlash then some (true, state)
  else if hardware.isXBlastOnTSOP then some (true, state)
  else if hardware.isXBlastCompatible = false ∧ hardware.isXBE then some (true, state)
  else
    saveLoop device mustRestart confirm rounds false
      (Flash.saveXBlastOSSettings device hardware (selectOSBank device state))

end

/-! ### The loop -/

theorem executeFlashDriverUI_open (mustRestart confirm : Bool)
    (hopen : ¬ state.Ended) :
    executeFlashDriverUI device mustRestart confirm state = some (true, state) := by
  rw [not_or] at hopen
  unfold executeFlashDriverUI
  split
  · rw [if_neg (not_or.mpr hopen)]
  · rw [if_neg hopen.1, if_neg hopen.2]
  · rfl

/-- At the end of a settings save the machine is freed. -/
theorem executeFlashDriverUI_ended {mustRestart confirm : Bool} {success : Bool}
    {shown : FlashState σ} (htask : state.currentFlashTask = .writeSettings)
    (hended : state.Ended)
    (hshown : executeFlashDriverUI device mustRestart confirm state = some (success, shown)) :
    shown = freeFlashFSM device state := by
  simp only [executeFlashDriverUI, htask] at hshown
  rcases hended with hcompleted | herror
  · rw [if_pos hcompleted] at hshown
    exact (congrArg Prod.snd (some.inj hshown)).symm
  · have hopen : ¬ state.currentFlashOp = .completed := by simp [herror]
    rw [if_neg hopen, if_pos herror] at hshown
    obtain ⟨isCritical, _, hpair⟩ := map_eq_some_iff.mp hshown
    exact (congrArg Prod.snd hpair).symm

/-- The loop on a settings save returns after the end of the job, with the machine freed. -/
theorem saveLoop_some {mustRestart confirm : Bool} {rounds : ℕ} {resultSuccess success : Bool}
    {after : FlashState σ} (htask : state.currentFlashTask = .writeSettings)
    (hactive : state.currentFlashOp ≠ .idle)
    (hloop : saveLoop device mustRestart confirm rounds resultSuccess state =
      some (success, after)) :
    ∃ calls, let ended := (executeFlashFSM device)^[calls] state
      ended.Ended ∧
        after = freeFlashFSM device ended := by
  induction rounds generalizing state resultSuccess with
  | zero => cases hloop
  | succ rounds ih =>
    rw [saveLoop, if_neg hactive] at hloop
    obtain ⟨⟨shownSuccess, shown⟩, hshown, hrest⟩ := bind_eq_some_iff.mp hloop
    by_cases hended : state.Ended
    · refine ⟨0, hended, ?_⟩
      rw [executeFlashDriverUI_ended htask hended hshown] at hrest
      have hfreed : executeFlashFSM device (freeFlashFSM device state) =
          freeFlashFSM device state := rfl
      simp only [hfreed] at hrest
      cases rounds with
      | zero => cases hrest
      | succ rounds => exact (congrArg Prod.snd (some.inj hrest)).symm
    · rw [executeFlashDriverUI_open mustRestart confirm hended] at hshown
      cases hshown
      obtain ⟨calls, hcalls⟩ := ih ((executeFlashFSM_task device state).trans htask)
        (executeFlashFSM_ne_idle hactive) hrest
      exact ⟨calls + 1, hcalls⟩

/-- A job that ends lets the loop return. -/
theorem exists_saveLoop_some (confirm : Bool) {calls : ℕ}
    (htask : state.currentFlashTask = .writeSettings) (hactive : state.currentFlashOp ≠ .idle)
    (hended : ((executeFlashFSM device)^[calls] state).Ended) (resultSuccess : Bool) :
    ∃ rounds success, saveLoop device false confirm rounds resultSuccess state =
      some (success, freeFlashFSM device ((executeFlashFSM device)^[calls] state)) := by
  induction calls generalizing state resultSuccess with
  | zero =>
    obtain ⟨success, hshown⟩ : ∃ success,
        executeFlashDriverUI device false confirm state =
          some (success, freeFlashFSM device state) := by
      simp only [executeFlashDriverUI, htask]
      split_ifs with hcompleted herror
      · exact ⟨true, rfl⟩
      · exact ⟨_, rfl⟩
      · exact absurd hended (not_or.mpr ⟨hcompleted, herror⟩)
    refine ⟨2, success, ?_⟩
    rw [saveLoop, if_neg hactive, hshown]
    rfl
  | succ calls ih =>
    rw [Function.iterate_succ_apply] at hended ⊢
    by_cases hnow : state.Ended
    · have hfixed : executeFlashFSM device state = state := by
        rcases hnow with hop | hop
        · exact executeFlashFSM_completed hop
        · exact executeFlashFSM_error hop
      rw [hfixed] at hended ⊢
      exact ih htask hactive hended resultSuccess
    · obtain ⟨rounds, success, hrest⟩ := ih ((executeFlashFSM_task device state).trans htask)
        (executeFlashFSM_ne_idle hactive) hended true
      refine ⟨rounds + 1, success, ?_⟩
      rw [saveLoop, if_neg hactive, executeFlashDriverUI_open false confirm hnow]
      exact hrest

/-- The loop never returns when the request was refused, since a refused request has no task. -/
theorem saveLoop_refused (mustRestart confirm : Bool) (rounds : ℕ) (resultSuccess : Bool)
    (htask : state.currentFlashTask = .noTask) (hop : state.currentFlashOp = .error) :
    saveLoop device mustRestart confirm rounds resultSuccess state = none := by
  induction rounds generalizing resultSuccess with
  | zero => rfl
  | succ rounds ih =>
    have hshown : executeFlashDriverUI device mustRestart confirm state = some (true, state) := by
      simp only [executeFlashDriverUI, htask]
    have hactive : state.currentFlashOp ≠ .idle := by simp [hop]
    rw [saveLoop, if_neg hactive, hshown, bind_some]
    simp only [executeFlashFSM_error hop]
    exact ih true

end XBlast.FlashUi
