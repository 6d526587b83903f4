import XBlast.Flash.QuietChip
import XBlast.Flash.Requests

/-!
# Programming never sets a bit

A NOR cell can be programmed from 1 to 0 only. The erase phase looks at each byte once and never
goes back, although erase commands may hit bytes that it has passed, at once or while the chip is
busy. They only set such bytes to `0xFF`, over which every byte can be programmed: so every byte
behind the erase phase stays programmable (`Programmable`), also when a settings save reads a
larger range back and starts over.
-/

set_option autoImplicit false
set_option relaxedAutoImplicit false

namespace XBlast.Flash

open Foundation

variable {σ : Type*} {device : FlashLowLevel σ} {state : FlashState σ}

/-! ### The chips -/

/-- Each byte is as it was or erased. -/
def Raised (before after : Bytes) : Prop :=
  ∀ position, after position = before position ∨ after position = 0xFF

/-- A chip with a current content, which it shows when it is ready. An erase command sets any
bytes to `0xFF`, at once or at any poll after it, and programming a byte changes no other byte. -/
structure ErasingFlash (device : FlashLowLevel σ) where
  content : σ → Bytes
  ready : σ → Prop
  readByte_eq : ∀ chip, ready chip → ∀ address,
    device.readByte chip address = content chip address
  poll : ∀ chip, Raised (content chip) (content (device.deviceIsBusy chip).2)
  poll_ready : ∀ chip, (device.deviceIsBusy chip).1 = false →
    ready (device.deviceIsBusy chip).2
  erase : ∀ chip, ready chip → ∀ method address,
    Raised (content chip) (content (device.initiateErase method address chip))
  writeByte_other : ∀ chip, ready chip → ∀ byte address position, position ≠ address →
    content (device.writeByte byte address chip) position = content chip position

/-- A chip whose erase commands take effect at once. -/
def NorFlash.erasingFlash (flash : NorFlash device) : ErasingFlash device where
  content := flash.content
  ready := flash.ready
  readByte_eq := flash.readByte_eq
  poll := fun chip position ↦ .inl (congrFun (flash.poll_content chip) position)
  poll_ready := flash.poll_ready
  erase := flash.erase_content
  writeByte_other := flash.writeByte_other

/-- The states that the calls reach when no bank is switched under a running job. -/
inductive ReachableOnBank (device : FlashLowLevel σ) (hardware : Hardware)
    (md5 : Digest 16) : FlashState σ → Prop
  | init (state : FlashState σ) : ReachableOnBank device hardware md5 (flashInit device state)
  | call {state : FlashState σ} (hbefore : ReachableOnBank device hardware md5 state)
      (call : FlashCall)
      (hbank : ∀ bank, call = .switchOSBank bank → state.currentFlashOp = .idle) :
      ReachableOnBank device hardware md5 (call.perform device hardware md5 state)

theorem ReachableOnBank.iterate {hardware : Hardware} {md5 : Digest 16}
    (hstate : ReachableOnBank device hardware md5 state) (calls : ℕ) :
    ReachableOnBank device hardware md5 ((executeFlashFSM device)^[calls] state) :=
  Function.Iterate.rec (ReachableOnBank device hardware md5) hstate
    (fun _ hbefore ↦ hbefore.call .executeFlashFSM fun _ hcall ↦ by cases hcall) calls

theorem ReachableOnBank.reachable {hardware : Hardware} {md5 : Digest 16}
    (hstate : ReachableOnBank device hardware md5 state) : Reachable device hardware md5 state := by
  induction hstate with
  | init state => exact .init state
  | call _ call _ ih => exact .call ih call

/-! ### The invariant -/

/-- Every byte of the buffer with a certain index can be programmed over a content. -/
def WritableWhere (content : Bytes) (state : FlashState σ) (indices : ℕ → Prop) : Prop :=
  ∀ index, indices index →
    canWrite (content (state.startingOffset + index)) (state.biosBuffer index) = true

/-- The bytes that the erase phase has passed can be programmed, and so can those that the write
phase has yet to come to. -/
structure Programmable (content : Bytes) (state : FlashState σ) : Prop where
  pending : state.currentFlashOp = .pendingOp → state.currentAddr = 0
  erase : state.currentFlashOp = .eraseInProgress →
    WritableWhere content state fun index ↦ index < state.currentAddr
  write : state.currentFlashOp = .writeInProgress →
    WritableWhere content state fun index ↦
      state.currentAddr ≤ index ∧ index < state.biosBufferSize

theorem canWrite_raised {before after : Bytes} (hraised : Raised before after)
    {position : ℕ} {byte : UInt8} (hwritable : canWrite (before position) byte = true) :
    canWrite (after position) byte = true := by
  rcases hraised position with hsame | herased
  · rw [hsame, hwritable]
  · rw [herased, canWrite_erased]

theorem WritableWhere.raised {before after : Bytes} {indices : ℕ → Prop}
    (hwritable : WritableWhere before state indices) (hraised : Raised before after) :
    WritableWhere after state indices :=
  fun index hindex ↦ canWrite_raised hraised (hwritable index hindex)

variable {content : Bytes}

/-- A state in which no job waits and neither of the two phases runs. -/
theorem Programmable.of_op (op : FlashOp) (hop : state.currentFlashOp = op)
    (hother : op ∉ [FlashOp.pendingOp, .eraseInProgress, .writeInProgress]) :
    Programmable content state := by
  subst hop
  simp only [List.mem_cons, List.not_mem_nil, or_false, not_or] at hother
  exact ⟨fun hop ↦ absurd hop hother.1, fun hop ↦ absurd hop hother.2.1,
    fun hop ↦ absurd hop hother.2.2⟩

/-- The erase phase. -/
theorem Programmable.of_erase (hop : state.currentFlashOp = .eraseInProgress)
    (hwritable : WritableWhere content state fun index ↦ index < state.currentAddr) :
    Programmable content state :=
  ⟨fun hpending ↦ by simp [hop] at hpending, fun _ ↦ hwritable,
    fun hwrite ↦ by simp [hop] at hwrite⟩

/-- The write phase. -/
theorem Programmable.of_write (hop : state.currentFlashOp = .writeInProgress)
    (hwritable : WritableWhere content state fun index ↦
      state.currentAddr ≤ index ∧ index < state.biosBufferSize) : Programmable content state :=
  ⟨fun hpending ↦ by simp [hop] at hpending, fun herase ↦ by simp [hop] at herase,
    fun _ ↦ hwritable⟩

section

variable (flash : ErasingFlash device)

theorem executeErase_programmable (hop : state.currentFlashOp = .eraseInProgress)
    (hready : flash.ready state.chip)
    (hwritable : WritableWhere (flash.content state.chip) state
      fun index ↦ index < state.currentAddr) :
    Programmable (flash.content (executeErase device state).chip)
      (executeErase device state) := by
  have houtcome := executeErase_outcome device state
  generalize executeErase device state = after at houtcome ⊢
  cases houtcome with
  | skip hbyte =>
    -- the byte just read joins those behind the phase
    rw [FlashState.writable, flash.readByte_eq _ hready] at hbyte
    have hnext : WritableWhere (flash.content state.chip) state
        fun index ↦ index < state.currentAddr + 1 := by
      intro index hindex
      rcases Nat.lt_succ_iff_lt_or_eq.mp hindex with hbefore | rfl
      · exact hwritable index hbefore
      · exact hbyte
    unfold skipErase
    split_ifs with hend
    · exact .of_write rfl fun index hindex ↦ hnext index (lt_of_lt_of_le hindex.2 hend)
    · exact .of_erase hop hnext
  | erase _ _ =>
    exact .of_erase hop (hwritable.raised (flash.erase _ hready _ state.address))
  | switch _ _ method _ =>
    unfold switchEraseMethod
    split_ifs with htask
    · exact .of_op .readInProgress rfl (by decide)
    · exact .of_erase hop (hwritable.raised (flash.erase _ hready method state.address))
  | giveUp _ _ _ => exact .of_op .error rfl (by decide)

theorem executeWrite_programmable (hop : state.currentFlashOp = .writeInProgress)
    (hready : flash.ready state.chip)
    (hwritable : WritableWhere (flash.content state.chip) state fun index ↦
      state.currentAddr ≤ index ∧ index < state.biosBufferSize) :
    Programmable (flash.content (executeWrite device state).chip)
      (executeWrite device state) := by
  unfold executeWrite
  split_ifs with hend hdiffers
  · exact .of_op .verifyInProgress rfl (by decide)
  · refine .of_write hop fun index hindex ↦ ?_
    have hlater : state.startingOffset + index ≠ state.address := by
      rw [FlashState.address]
      have := hindex.1
      simp only at this
      omega
    rw [flash.writeByte_other _ hready _ _ _ hlater]
    exact hwritable index ⟨Nat.le_of_succ_le hindex.1, hindex.2⟩
  · exact .of_write hop fun index hindex ↦
      hwritable index ⟨Nat.le_of_succ_le hindex.1, hindex.2⟩

/-- After the read phase, the erase phase starts over. -/
theorem executeRead_programmable (content : Bytes)
    (hop : state.currentFlashOp = .readInProgress) :
    Programmable content (executeRead device state) := by
  obtain hread | hdone | ⟨herase, hzero, -⟩ := executeRead_op device state hop
  · exact .of_op .readInProgress hread (by decide)
  · exact .of_op .completed hdone (by decide)
  · exact .of_erase herase (hzero ▸ nofun)

theorem executeFlashFSM_programmable
    (hstate : Programmable (flash.content state.chip) state) :
    Programmable (flash.content (executeFlashFSM device state).chip)
      (executeFlashFSM device state) := by
  have hpoll := flash.poll state.chip
  have hready (hbusy : ¬ (device.deviceIsBusy state.chip).1 = true) :
      flash.ready (device.deviceIsBusy state.chip).2 :=
    flash.poll_ready state.chip (Bool.eq_false_of_not_eq_true hbusy)
  have houtcome := executeFlashFSM_outcome device state
  generalize executeFlashFSM device state = after at houtcome ⊢
  cases houtcome with
  | rest => exact hstate
  | startErase hop _ =>
    refine .of_erase rfl fun index hindex ↦ ?_
    rw [hstate.pending hop] at hindex
    exact absurd hindex index.not_lt_zero
  | startRead => exact .of_op .readInProgress rfl (by decide)
  | busyErase hop _ => exact .of_erase hop ((hstate.erase hop).raised hpoll)
  | busy hop _ =>
    obtain hop | hop | hop := hop
    · exact .of_write hop ((hstate.write hop).raised hpoll)
    · exact .of_op .verifyInProgress hop (by decide)
    · exact .of_op .readInProgress hop (by decide)
  | erase hop hfree =>
    exact executeErase_programmable flash hop (hready hfree) ((hstate.erase hop).raised hpoll)
  | write hop hfree =>
    exact executeWrite_programmable flash hop (hready hfree) ((hstate.write hop).raised hpoll)
  | verify hop _ =>
    unfold executeVerify
    split_ifs with hend hsame
    · exact .of_op .completed rfl (by decide)
    · exact .of_op .verifyInProgress hop (by decide)
    · exact .of_op .error rfl (by decide)
  | read hop _ => exact executeRead_programmable _ hop

end

/-! ### Every state -/

variable {hardware : Hardware} {md5 : Digest 16}

theorem ReachableOnBank.programmable (flash : ErasingFlash device)
    (hstate : ReachableOnBank device hardware md5 state) :
    Programmable (flash.content state.chip) state := by
  induction hstate with
  | init state => exact .of_op .idle rfl (by decide)
  | @call before hbefore call hbank ih =>
    rcases call.perform_cases before with rfl | ⟨bank, rfl⟩ | houtcome
    · exact executeFlashFSM_programmable flash ih
    · exact .of_op .idle (hbank bank rfl) (by decide)
    · generalize call.perform device hardware md5 before = after at houtcome ⊢
      cases houtcome with
      | freed hop | refused _ hop => exact .of_op .idle hop (by decide)
      | ended hop =>
        rcases hop with hop | hop
        · exact .of_op .completed hop (by decide)
        · exact .of_op .error hop (by decide)
      | start hidle hop haddr _ =>
        refine ⟨fun _ ↦ haddr.trans (hbefore.reachable.idle_currentAddr hidle),
          fun herase ↦ ?_, fun hwrite ↦ ?_⟩
        · simp [hop] at herase
        · simp [hop] at hwrite
      | keep _ _ _ => exact ⟨ih.pending, ih.erase, ih.write⟩

/-- The write phase programs the byte of the buffer at the current address. -/
theorem stepCommand_write {byte : UInt8} {address : ℕ}
    (hcommand : stepCommand device state = some (.write byte address)) :
    state.currentFlashOp = .writeInProgress ∧ state.currentAddr < state.biosBufferSize ∧
      byte = state.biosBuffer state.currentAddr ∧ address = state.address := by
  rcases stepCommand_some hcommand with ⟨_, hwrite, hop, hinside⟩ | ⟨_, herase, _⟩
  · refine ⟨hop, hinside, ?_, (FlashCommand.write.inj hwrite).2⟩
    simp only [stepCommand, readyCommand, pollChip, hop] at hcommand
    split_ifs at hcommand with hbusy hend hdiffers
    exact (FlashCommand.write.inj (Option.some.inj hcommand)).1.symm
  · cases herase

/-- The write phase starts at the first byte. -/
theorem currentAddr_of_enters_write (hop : state.currentFlashOp = .eraseInProgress)
    (hwrite : (executeFlashFSM device state).currentFlashOp = .writeInProgress) :
    (executeFlashFSM device state).currentAddr = 0 := by
  rw [executeFlashFSM_erase hop] at hwrite ⊢
  split_ifs at hwrite ⊢ with hbusy
  · cases hop.symm.trans hwrite
  · obtain hsame | ⟨-, hzero⟩ | ⟨hread, -⟩ | ⟨herror, -⟩ :=
      executeErase_phase device (pollChip device state) hop
    · cases hsame.symm.trans hwrite
    · exact hzero
    · cases hread.symm.trans hwrite
    · cases herror.symm.trans hwrite

/-- A call leaves the chip alone, or polls it and gives it one command or none. Every byte that it
programs can be programmed over the byte that the flash then holds. When the erase phase ends, this
is so for all bytes of the range. -/
theorem programs_only_writable (flash : ErasingFlash device)
    (hstate : ReachableOnBank device hardware md5 state) :
    ((stepCommand device state = none ∧ (executeFlashFSM device state).chip = state.chip) ∨
      (executeFlashFSM device state).chip =
        performOption device (stepCommand device state) (device.deviceIsBusy state.chip).2) ∧
    (∀ byte address, stepCommand device state = some (.write byte address) →
      canWrite (flash.content (device.deviceIsBusy state.chip).2 address) byte = true) ∧
    (state.currentFlashOp = .eraseInProgress →
      (executeFlashFSM device state).currentFlashOp = .writeInProgress →
      ∀ index < (executeFlashFSM device state).biosBufferSize,
        canWrite (flash.content (executeFlashFSM device state).chip
            ((executeFlashFSM device state).startingOffset + index))
          ((executeFlashFSM device state).biosBuffer index) = true) := by
  have hprogrammable := hstate.programmable flash
  refine ⟨executeFlashFSM_chip device state, ?_, ?_⟩
  · intro byte address hcommand
    obtain ⟨hop, hinside, rfl, rfl⟩ := stepCommand_write hcommand
    exact (hprogrammable.write hop).raised (flash.poll state.chip) state.currentAddr
      ⟨le_rfl, hinside⟩
  · intro herase hwrite index hindex
    refine (executeFlashFSM_programmable flash hprogrammable).write hwrite index ⟨?_, hindex⟩
    rw [currentAddr_of_enters_write herase hwrite]
    exact Nat.zero_le index

/-- An image of 256 bytes on a chip of zeros: after the erase command and a look at each byte the
first byte is programmed over `0xFF`. -/
theorem programs_only_writable_erased :
    let device := quietChip ⟨256, true⟩ fun _ ↦ true
    let start := flashInit device
      (bootState (populateSettingsStructWithDefault plainHardware) fun _ ↦ 0)
    let now := (executeFlashFSM device)^[258]
      (xblastUserBankFlash device (fun _ ↦ 0xA5) 256 0 .noBank start)
    stepCommand device now = some (.write 0xA5 0) ∧ canWrite (now.chip 0) 0xA5 = true := by
  intro device start now
  have hstart : ReachableOnBank device plainHardware (fun _ _ ↦ 0) start := .init _
  have hrequest : ReachableOnBank device plainHardware (fun _ _ ↦ 0)
      (xblastUserBankFlash device (fun _ ↦ 0xA5) 256 0 .noBank start) :=
    hstart.call (.xblastUserBankFlash (fun _ ↦ 0xA5) 256 0 .noBank) fun _ hcall ↦ by cases hcall
  have hnow : ReachableOnBank device plainHardware (fun _ _ ↦ 0) now :=
    hrequest.iterate 258
  have hcommand : stepCommand device now = some (.write 0xA5 0) := by decide +kernel
  clear_value now
  exact ⟨hcommand, (programs_only_writable
    (quietFlash ⟨256, true⟩ fun _ ↦ true).erasingFlash hnow).2.1 _ _ hcommand⟩

end XBlast.Flash
