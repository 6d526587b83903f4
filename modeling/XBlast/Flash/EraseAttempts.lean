import XBlast.Flash.QuietChip
import XBlast.Flash.Requests

/-!
# Erase commands for one byte

The erase phase gives a byte up only after a command during which the chip was hardly busy: then
it goes on to the next method, and after the last method it ends in `failedErase`. There are three
methods, so a byte gets at most three commands as long as no command that kept the chip busy for
three polls leaves the byte unprogrammable (`erasesAtByte_le_three`). Such a command is given again
as it is, and the count of busy polls is not reset between the two. Nothing bounds these
repetitions: the chip `wornChip 3` is erased for ever.
-/

set_option autoImplicit false
set_option relaxedAutoImplicit false

namespace XBlast.Flash

open Foundation

variable {σ : Type*} {device : FlashLowLevel σ} {state : FlashState σ}

/-! ### Counting at a byte -/

section

variable (device)

/-- A call gives an erase command to the chip. -/
def givesErase (state : FlashState σ) : Bool :=
  match stepCommand device state with
  | some (.erase _ _) => true
  | _ => false

/-- A call finds a ready chip whose byte is not programmable after an erase command, although the
chip was busy for at least three polls at this byte. -/
def staysWorn (state : FlashState σ) : Bool :=
  !(device.deviceIsBusy state.chip).1 && !(pollChip device state).writable device &&
    !state.firstEraseTry && 3 ≤ state.eraseBusyCount

/-- The machine stays in the erase phase, at the same byte. -/
def StaysAtByte (before after : FlashState σ) : Prop :=
  after.currentFlashOp = .eraseInProgress ∧ after.currentAddr = before.currentAddr

instance (before after : FlashState σ) : Decidable (StaysAtByte before after) :=
  inferInstanceAs (Decidable (_ ∧ _))

/-- The erase commands among the next calls of the state machine, up to the one with which it
leaves the byte that it erases. -/
def erasesAtByte (device : FlashLowLevel σ) : ℕ → FlashState σ → ℕ
  | 0, _ => 0
  | calls + 1, state =>
    if state.currentFlashOp = .eraseInProgress then
      (if givesErase device state then 1 else 0) +
        if StaysAtByte state (executeFlashFSM device state) then
          erasesAtByte device calls (executeFlashFSM device state)
        else 0
    else 0

end

/-! ### The commands that are not repetitions -/

/-- The erase commands that can still be given for a byte without a repetition: one for each
method that was not tried. -/
def FlashState.freshErases (state : FlashState σ) : ℕ :=
  2 - state.eraseSequenceMethod.rank + if state.firstEraseTry then 1 else 0

theorem FlashState.freshErases_le (state : FlashState σ) : state.freshErases ≤ 3 := by
  unfold FlashState.freshErases
  split_ifs <;> omega

theorem givesErase_of_busy (hbusy : (device.deviceIsBusy state.chip).1 = true) :
    givesErase device state = false := by
  rw [givesErase, stepCommand, if_pos hbusy]

section

variable (hop : state.currentFlashOp = .eraseInProgress)

include hop

theorem givesErase_of_writable (hwritable : (pollChip device state).writable device = true) :
    givesErase device state = false := by
  rw [givesErase, stepCommand]
  split_ifs with hbusy
  · rfl
  · have hnone : readyCommand device (pollChip device state) = none := by
      simp only [readyCommand, pollChip, hop]
      exact if_pos hwritable
    rw [hnone]

/-- A call that stays at a byte and repeats no command uses up one for each that it gives. -/
theorem freshErases_step (hstays : StaysAtByte state (executeFlashFSM device state))
    (hnever : staysWorn device state = false) :
    (if givesErase device state then 1 else 0) + (executeFlashFSM device state).freshErases ≤
      state.freshErases := by
  by_cases hbusy : (device.deviceIsBusy state.chip).1 = true
  · rw [givesErase_of_busy hbusy, executeFlashFSM_erase hop, if_pos hbusy]
    exact (Nat.zero_add state.freshErases).le
  · have hready := Bool.eq_false_of_not_eq_true hbusy
    rw [executeFlashFSM_erase hop, if_neg hbusy] at hstays ⊢
    have houtcome := executeErase_outcome device (pollChip device state)
    generalize executeErase device (pollChip device state) = after at houtcome hstays ⊢
    have hone : (if givesErase device state then 1 else 0) ≤ 1 := by split_ifs <;> omega
    cases houtcome with
    | skip hwritable =>
      -- a byte that needs no erase is left
      exfalso
      unfold skipErase at hstays
      split_ifs at hstays with hend
      · cases hstays.1
      · exact absurd hstays.2 (Nat.succ_ne_self _)
    | erase hwritable hran =>
      cases hfirst : state.firstEraseTry with
      | true =>
        have hstart : state.freshErases = 2 - state.eraseSequenceMethod.rank + 1 := by
          simp [FlashState.freshErases, hfirst]
        have hused : (eraseCurrent device (pollChip device state)).freshErases =
            2 - state.eraseSequenceMethod.rank := by
          simp [FlashState.freshErases, eraseCurrent, pollChip]
        omega
      | false =>
        -- the chip was busy for three polls, and the command would be a repetition
        have hcount : 3 ≤ state.eraseBusyCount :=
          UInt32.not_lt.mp fun hless ↦ hran ⟨hfirst, hless⟩
        simp [staysWorn, hready, hwritable, hfirst, hcount] at hnever
    | switch hwritable hran method hrank =>
      by_cases htask : (pollChip device state).currentFlashTask = .writeSettings
      · rw [switchEraseMethod, if_pos htask] at hstays
        cases hstays.1
      · have hle := method.rank_le
        have hstart : state.freshErases = 2 - state.eraseSequenceMethod.rank := by
          have hfirst : state.firstEraseTry = false := hran.1
          simp [FlashState.freshErases, hfirst]
        have hused : (switchEraseMethod device method (pollChip device state)).freshErases =
            2 - method.rank := by
          rw [switchEraseMethod, if_neg htask]
          simp [FlashState.freshErases, eraseCurrent]
        change state.eraseSequenceMethod.rank < method.rank at hrank
        omega
    | giveUp _ _ _ => cases hstays.1

/-- A call that leaves the byte gives no erase command. -/
theorem givesErase_of_leaves (hleaves : ¬ StaysAtByte state (executeFlashFSM device state)) :
    givesErase device state = false := by
  by_cases hbusy : (device.deviceIsBusy state.chip).1 = true
  · exact givesErase_of_busy hbusy
  · have hquiet (hwritable : (pollChip device state).writable device = false)
        (hnever : (pollChip device state).NeverRan)
        (hnone : escalateCommand (pollChip device state) = none) :
        givesErase device state = false := by
      have hready : readyCommand device (pollChip device state) = none := by
        unfold readyCommand
        split
        · exact (if_neg (ne_true_of_eq_false hwritable)).trans ((if_pos hnever).trans hnone)
        · rename_i hwrite
          simp [pollChip, hop] at hwrite
        · rfl
      rw [givesErase, stepCommand, if_neg hbusy, hready]
    rw [executeFlashFSM_erase hop, if_neg hbusy] at hleaves
    have houtcome := executeErase_outcome device (pollChip device state)
    generalize executeErase device (pollChip device state) = after at houtcome hleaves
    cases houtcome with
    | skip hwritable => exact givesErase_of_writable hop hwritable
    | erase _ _ => exact absurd ⟨hop, rfl⟩ hleaves
    | switch hwritable hnever method _ =>
      by_cases htask : (pollChip device state).currentFlashTask = .writeSettings
      · exact hquiet hwritable hnever (escalateCommand_settings htask)
      · rw [switchEraseMethod, if_neg htask] at hleaves
        exact absurd ⟨hop, rfl⟩ hleaves
    | giveUp hwritable hnever hmethod =>
      exact hquiet hwritable hnever (escalateCommand_chip hmethod)

end

/-- Without repetitions, each method that was not tried gives one command. -/
theorem erasesAtByte_le (calls : ℕ) (state : FlashState σ)
    (hnever : ∀ count < calls,
      ((executeFlashFSM device)^[count] state).currentFlashOp = .eraseInProgress →
      ((executeFlashFSM device)^[count] state).currentAddr = state.currentAddr →
        staysWorn device ((executeFlashFSM device)^[count] state) = false) :
    erasesAtByte device calls state ≤ state.freshErases := by
  induction calls generalizing state with
  | zero => exact Nat.zero_le _
  | succ calls ih =>
    rw [erasesAtByte]
    by_cases hop : state.currentFlashOp = .eraseInProgress
    · rw [if_pos hop]
      by_cases hstays : StaysAtByte state (executeFlashFSM device state)
      · rw [if_pos hstays]
        have hstep := freshErases_step hop hstays (hnever 0 (Nat.succ_pos calls) hop rfl)
        have hrest := ih (executeFlashFSM device state) fun count hcount hlater haddr ↦
          hnever (count + 1) (Nat.succ_lt_succ hcount) hlater (haddr.trans hstays.2)
        omega
      · rw [if_neg hstays, givesErase_of_leaves hop hstays]
        exact Nat.zero_le _
    · rw [if_neg hop]
      exact Nat.zero_le _

/-- **Erase attempts.** Whatever the chip does and wherever the machine starts, it gives at most
three erase commands for a byte before it leaves it, if every erase command that keeps the chip busy
for three polls makes the byte programmable: no poll of the erase phase at this address is one of
those that repeat a command. -/
theorem erasesAtByte_le_three (device : FlashLowLevel σ) (calls : ℕ) (state : FlashState σ)
    (hnever : ∀ count < calls,
      ((executeFlashFSM device)^[count] state).currentFlashOp = .eraseInProgress →
      ((executeFlashFSM device)^[count] state).currentAddr = state.currentAddr →
        staysWorn device ((executeFlashFSM device)^[count] state) = false) :
    erasesAtByte device calls state ≤ 3 :=
  (erasesAtByte_le calls state hnever).trans state.freshErases_le

/-- Every poll that finds a worn byte repeats a command. -/
theorem givesErase_of_staysWorn (hop : state.currentFlashOp = .eraseInProgress)
    (hworn : staysWorn device state = true) : givesErase device state = true := by
  simp only [staysWorn, Bool.and_eq_true, Bool.not_eq_true', decide_eq_true_eq] at hworn
  obtain ⟨⟨⟨hready, hwritable⟩, hfirst⟩, hcount⟩ := hworn
  have hcommand : readyCommand device (pollChip device state) =
      some (.erase state.eraseSequenceMethod state.address) := by
    have hran : ¬ (pollChip device state).NeverRan :=
      fun hnever ↦ UInt32.not_lt.mpr hcount hnever.2
    unfold readyCommand
    split
    · exact (if_neg (ne_true_of_eq_false hwritable)).trans (if_neg hran)
    · rename_i hwrite
      simp [pollChip, hop] at hwrite
    · rename_i herase _
      exact absurd hop herase
  rw [givesErase, stepCommand, if_neg (ne_true_of_eq_false hready), hcommand]

/-! ### A worn chip -/

/-- A chip of zeros that cannot be erased. The first erase command makes it busy for some polls,
later ones do not; the state is the number of busy polls to come. -/
def wornChip (polls : ℕ) : FlashLowLevel (Option ℕ) where
  readDevice := fun chip ↦ (some ⟨0x40000, true⟩, chip)
  deviceIsBusy := fun chip ↦ (chip.getD 0 ≠ 0, chip.map (· - 1))
  readByte := fun _ _ ↦ 0
  writeByte := fun _ _ chip ↦ chip
  inititiateSectorErase := fun _ chip ↦ some (chip.getD polls)
  inititiateBlockErase := fun _ chip ↦ some (chip.getD polls)
  inititiateChipErase := fun chip ↦ some (chip.getD polls)
  switchOSBank := fun _ chip ↦ chip

/-- The state after the first calls for an image of 256KB that is written to a worn chip. -/
def wornState (polls calls : ℕ) : FlashState (Option ℕ) :=
  (executeFlashFSM (wornChip polls))^[calls] (xblastUserBankFlash (wornChip polls) (fun _ ↦ 0xFF)
    (256 * 1024) 0 .bank256 (flashInit (wornChip polls)
      (bootState (populateSettingsStructWithDefault plainHardware) none)))

/-- A chip that is busy for two polls only gets one command of each method. -/
theorem wornChip_erased_three_times :
    ((wornState 2 1).currentFlashOp = .eraseInProgress ∧
      erasesAtByte (wornChip 2) 7 (wornState 2 1) = 3 ∧
      ((wornState 2 8).currentFlashOp, (wornState 2 8).flashErrorCode) = (.error, .failedErase)) ∧
    erasesAtByte (wornChip 2) 7 (wornState 2 1) ≤ 3 :=
  ⟨by decide +kernel, erasesAtByte_le_three (wornChip 2) 7 (wornState 2 1) (by decide +kernel)⟩

/-- The erase phase on a worn chip that is no longer busy. -/
structure ErasesForever (state : FlashState (Option ℕ)) : Prop where
  op : state.currentFlashOp = .eraseInProgress
  chip : state.chip = some 0
  byte : state.biosBuffer state.currentAddr = 0xFF
  first : state.firstEraseTry = false
  busyCount : state.eraseBusyCount = 3

variable {worn : FlashState (Option ℕ)}

theorem wornChip_initiateErase (method : EraseSequenceMethod) (address : ℕ) (chip : Option ℕ) :
    (wornChip 3).initiateErase method address chip = some (chip.getD 3) := by
  cases method <;> rfl

section

variable (hworn : ErasesForever worn)

include hworn

theorem ErasesForever.writable : (pollChip (wornChip 3) worn).writable (wornChip 3) = false := by
  change canWrite 0 (worn.biosBuffer worn.currentAddr) = false
  rw [hworn.byte]
  decide

theorem ErasesForever.ready : ((wornChip 3).deviceIsBusy worn.chip).1 = false := by
  rw [hworn.chip]
  rfl

theorem ErasesForever.staysWorn : Flash.staysWorn (wornChip 3) worn = true := by
  rw [Flash.staysWorn, hworn.ready, hworn.writable, hworn.first, hworn.busyCount]
  rfl

theorem ErasesForever.step :
    ErasesForever (executeFlashFSM (wornChip 3) worn) ∧
      StaysAtByte worn (executeFlashFSM (wornChip 3) worn) := by
  have hran : ¬ (pollChip (wornChip 3) worn).NeverRan := by
    intro hnever
    have hcount : worn.eraseBusyCount < 3 := hnever.2
    rw [hworn.busyCount] at hcount
    exact absurd hcount (by decide)
  rw [executeFlashFSM_erase hworn.op, if_neg (ne_true_of_eq_false hworn.ready)]
  have houtcome := executeErase_outcome (wornChip 3) (pollChip (wornChip 3) worn)
  generalize executeErase (wornChip 3) (pollChip (wornChip 3) worn) = after at houtcome ⊢
  cases houtcome with
  | skip hwritable => exact absurd hwritable (ne_true_of_eq_false hworn.writable)
  | erase _ _ =>
    refine ⟨⟨hworn.op, ?_, hworn.byte, rfl, hworn.busyCount⟩, hworn.op, rfl⟩
    change (wornChip 3).initiateErase _ _ ((wornChip 3).deviceIsBusy worn.chip).2 = some 0
    rw [wornChip_initiateErase, hworn.chip]
    rfl
  | switch _ hnever | giveUp _ hnever => exact absurd hnever hran

theorem ErasesForever.erasesAtByte (calls : ℕ) :
    Flash.erasesAtByte (wornChip 3) calls worn = calls := by
  induction calls generalizing worn with
  | zero => rfl
  | succ calls ih =>
    obtain ⟨hnext, hstays⟩ := hworn.step
    rw [Flash.erasesAtByte, if_pos hworn.op, if_pos hstays,
      if_pos (givesErase_of_staysWorn hworn.op hworn.staysWorn)]
    rw [ih hnext, add_comm]

end

/-- The write of an image of 256KB to the worn chip. After five calls it erases the first byte in
every call and never leaves it. -/
theorem wornChip_erases_forever :
    Reachable (wornChip 3) plainHardware (fun _ _ ↦ 0) (wornState 3 5) ∧
      ∀ calls, Flash.erasesAtByte (wornChip 3) calls (wornState 3 5) = calls := by
  have hrequest : Reachable (wornChip 3) plainHardware (fun _ _ ↦ 0) (wornState 3 0) :=
    (Reachable.init _).call (.xblastUserBankFlash (fun _ ↦ 0xFF) (256 * 1024) 0 .bank256)
  have hnow : ErasesForever (wornState 3 5) := by
    constructor
    all_goals decide +kernel
  exact ⟨((((hrequest.call .executeFlashFSM).call .executeFlashFSM).call .executeFlashFSM).call
    .executeFlashFSM).call .executeFlashFSM, hnow.erasesAtByte⟩

end XBlast.Flash
