import Mathlib.Tactic.Ring
import XBlast.Flash.BiosJob

/-!
# The table of flash devices and the images they accept

`FlashLowLevel_ReadDevice` finds a device in the table of 'flashtypes.h' by its two identification
bytes. Its length bounds the images that `Flash_WriteBios` accepts, and `mirrorimage` doubles an
accepted image until it reaches the size of the bank. The result has the size of the bank exactly
for the images that a power of two divides it into (`writeBios_fillsTarget_iff`).
-/

set_option autoImplicit false
set_option relaxedAutoImplicit false

namespace XBlast.Flash

open Foundation

variable {σ : Type*} {device : FlashLowLevel σ} {state : FlashState σ}

/-! ### The table -/

/-- An entry of the table, without the description of the device. -/
structure KnownFlashEntry where
  manufacturerId : UInt8
  deviceId : UInt8
  lengthInBytes : ℕ
  support4KBErase : Bool
  deriving DecidableEq, Repr

/-- Devices of one manufacturer, each with its second identification byte and its length. -/
def knownDevices (manufacturerId : UInt8) (support4KBErase : Bool) (devices : List (UInt8 × ℕ)) :
    List KnownFlashEntry :=
  devices.map fun (deviceId, lengthInBytes) ↦
    ⟨manufacturerId, deviceId, lengthInBytes, support4KBErase⟩

/-- The entries in the order of the source. The last one ends the search. -/
def aknownflashtypesDefault : List KnownFlashEntry :=
  knownDevices 0x01 false [
    (0x0c, 0x80000), (0x0f, 0x80000), (0x23, 0x80000), (0x34, 0x40000), (0x37, 0x100000),
    (0x38, 0x100000), (0x3b, 0x40000), (0x3e, 0x100000), (0x40, 0x40000), (0x4a, 0x100000),
    (0x4f, 0x80000), (0x51, 0x40000), (0x57, 0x40000), (0x58, 0x100000), (0x5b, 0x100000),
    (0x77, 0x80000), (0x7b, 0x80000), (0xa4, 0x80000), (0xab, 0x80000), (0xad, 0x100000),
    (0xb0, 0x40000), (0xb5, 0x80000), (0xb6, 0x80000), (0xb9, 0x80000), (0xba, 0x80000),
    (0xbf, 0x40000), (0xc2, 0x40000), (0xc4, 0x100000), (0xcb, 0x100000), (0xd5, 0x100000),
    (0xd6, 0x100000), (0xda, 0x100000)] ++
  knownDevices 0x04 false [
    (0x0c, 0x80000), (0x0f, 0x80000), (0x23, 0x80000), (0x34, 0x40000), (0x37, 0x100000),
    (0x38, 0x100000), (0x3b, 0x40000), (0x3e, 0x100000), (0x40, 0x40000), (0x4a, 0x100000),
    (0x51, 0x40000), (0x57, 0x40000), (0x58, 0x100000), (0x5b, 0x100000), (0x77, 0x80000),
    (0x7b, 0x80000), (0xa4, 0x80000), (0xab, 0x80000), (0xb0, 0x40000), (0xb5, 0x80000),
    (0xb6, 0x80000), (0xb9, 0x80000), (0xba, 0x80000), (0xbf, 0x40000), (0xc2, 0x40000),
    (0xcb, 0x100000), (0xd5, 0x100000), (0xd6, 0x100000), (0xda, 0x100000)] ++
  knownDevices 0x20 false [
    (0x34, 0x40000), (0x58, 0x100000), (0xb0, 0x40000), (0xd3, 0x40000), (0xd4, 0x40000),
    (0xd5, 0x80000), (0xd6, 0x80000), (0xe2, 0x80000), (0xec, 0x100000), (0xf1, 0x100000)] ++
  knownDevices 0x37 false [
    (0x0d, 0x40000), (0x0e, 0x100000), (0x1a, 0x100000), (0x31, 0x80000), (0x34, 0x80000),
    (0x86, 0x80000), (0x8c, 0x40000), (0x8f, 0x100000), (0x92, 0x80000), (0x9b, 0x100000),
    (0xb0, 0x80000), (0xb5, 0x80000)] ++
  knownDevices 0x89 false [
    (0xa2, 0x100000), (0xa6, 0x100000)] ++
  knownDevices 0xad false [
    (0x23, 0x80000), (0x58, 0x100000), (0x5b, 0x100000), (0xa4, 0x80000), (0xab, 0x80000),
    (0xb0, 0x40000), (0xb9, 0x80000), (0xba, 0x80000), (0xd5, 0x100000), (0xd6, 0x100000),
    (0xda, 0x100000)] ++
  knownDevices 0xb0 false [
    (0x4b, 0x100000), (0x4c, 0x100000), (0x4d, 0x100000), (0xc9, 0x100000), (0xcf, 0x100000),
    (0xec, 0x100000), (0xed, 0x100000)] ++
  knownDevices 0xbf false [
    (0x10, 0x40000), (0x12, 0x40000), (0x13, 0x80000), (0x14, 0x80000)] ++
  knownDevices 0xbf true [
    (0x1b, 0x60000), (0x1c, 0x60000), (0x51, 0x80000), (0x52, 0x40000), (0x57, 0x40000),
    (0x5a, 0x100000), (0x5b, 0x100000), (0x4c, 0x100000), (0x60, 0x80000), (0x61, 0x40000),
    (0xb6, 0x40000), (0xb7, 0x80000), (0xd6, 0x40000), (0xd7, 0x80000), (0xd8, 0x100000)] ++
  knownDevices 0xc2 false [
    (0x23, 0x80000), (0x34, 0x40000), (0x36, 0x40000), (0x37, 0x40000), (0x37, 0x100000),
    (0x38, 0x100000), (0x3e, 0x100000), (0x45, 0x80000), (0x46, 0x80000), (0x4f, 0x80000),
    (0x51, 0x40000), (0x57, 0x40000), (0x58, 0x100000), (0x5b, 0x100000), (0xa4, 0x80000),
    (0xab, 0x80000), (0xb0, 0x40000), (0xb5, 0x80000), (0xb6, 0x80000), (0xb9, 0x80000),
    (0xba, 0x80000), (0xd5, 0x100000), (0xd6, 0x100000), (0xda, 0x100000)] ++
  knownDevices 0xda false [
    (0x0b, 0x40000), (0x3d, 0x80000), (0x45, 0x40000), (0x46, 0x40000), (0x8c, 0x40000),
    (0xb0, 0x40000), (0xb5, 0x40000), (0xb6, 0x80000)] ++
  [⟨0, 0, 0, false⟩]

/-- The search for the device with two identification bytes. -/
def matchDevice (manufacturerId deviceId : UInt8) : Option KnownFlashType :=
  ((aknownflashtypesDefault.takeWhile fun entry ↦ entry.deviceId != 0).find? fun entry ↦
      entry.manufacturerId == manufacturerId && entry.deviceId == deviceId).map fun entry ↦
    ⟨entry.lengthInBytes, entry.support4KBErase⟩

/-- A device whose identification is looked up in the table. -/
def LookedUp (device : FlashLowLevel σ) : Prop :=
  ∀ chip known, (device.readDevice chip).1 = some known →
    ∃ manufacturerId deviceId, matchDevice manufacturerId deviceId = some known

/-- The lengths in the table. -/
theorem matchDevice_length {manufacturerId deviceId : UInt8} {known : KnownFlashType}
    (hmatch : matchDevice manufacturerId deviceId = some known) :
    known.lengthInBytes ∈ [0x40000, 0x60000, 0x80000, 0x100000] := by
  have hall : ∀ entry ∈ aknownflashtypesDefault.takeWhile fun entry ↦ entry.deviceId != 0,
      entry.lengthInBytes ∈ [0x40000, 0x60000, 0x80000, 0x100000] := by decide +kernel
  obtain ⟨entry, hfind, rfl⟩ := Option.map_eq_some_iff.mp hmatch
  exact hall entry (List.mem_of_find?_eq_some hfind)

theorem LookedUp.length_bounds (hdevice : LookedUp device) {chip : σ} {known : KnownFlashType}
    (hanswer : (device.readDevice chip).1 = some known) :
    0x40000 ≤ known.lengthInBytes ∧ known.lengthInBytes ≤ 0x100000 := by
  obtain ⟨_, _, hmatch⟩ := hdevice chip known hanswer
  have hlength := matchDevice_length hmatch
  simp only [List.mem_cons, List.not_mem_nil, or_false] at hlength
  omega

/-- The device 0x51 of manufacturer 0xbf. -/
theorem quietChip_lookedUp : LookedUp workingChip := by
  intro chip known hanswer
  refine ⟨0xbf, 0x51, ?_⟩
  have hknown : some ⟨0x80000, true⟩ = some known := hanswer
  rw [← hknown]
  decide +kernel

/-! ### The size of a mirrored image -/

/-- The loop only doubles. -/
theorem mirrorLoop_size_pow (targetSize rounds : ℕ) (buffer : Bytes) (size : ℕ) :
    ∃ doublings, (mirrorLoop targetSize rounds buffer size).2 = size * 2 ^ doublings := by
  refine @mirrorLoop_rec targetSize (fun _ filled ↦ ∃ doublings, filled = size * 2 ^ doublings)
    ?_ rounds buffer size ⟨0, (mul_one size).symm⟩
  rintro _ _ ⟨doublings, rfl⟩
  exact ⟨doublings + 1, by rw [pow_succ]; ring⟩

/-- The loop stops at the target when it comes to it. -/
theorem mirrorLoop_size_eq (doublings rounds : ℕ) (buffer : Bytes) {size : ℕ}
    (hsize : 0 < size) (hrounds : doublings ≤ rounds) :
    (mirrorLoop (size * 2 ^ doublings) rounds buffer size).2 = size * 2 ^ doublings := by
  induction doublings generalizing rounds buffer size with
  | zero => rw [mirrorLoop_of_le rounds buffer (by simp), pow_zero, mul_one]
  | succ doublings ih =>
    obtain ⟨fewer, rfl⟩ : ∃ fewer, rounds = fewer + 1 := ⟨rounds - 1, by omega⟩
    have htarget : size * 2 ^ (doublings + 1) = (size + size) * 2 ^ doublings := by ring
    have hshort : size < size * 2 ^ (doublings + 1) :=
      (Nat.lt_mul_iff_one_lt_right hsize).mpr (Nat.one_lt_two_pow (Nat.succ_ne_zero doublings))
    rw [mirrorLoop, if_pos hshort, htarget]
    exact ih fewer _ (by omega) (by omega)

/-! ### Accepted images -/

/-- A pending write has the size of its bank, which fits the buffer, and consists of copies of an
image of whole banks that is not larger. -/
structure FillsTarget (buf : Bytes) (size : ℕ) (bank : FlashBank) (pending : FlashState σ) :
    Prop where
  nonempty : 0 < size
  multiple : 256 * 1024 ∣ size
  le_target : size ≤ mirrorTargetSize pending.flashType bank
  filled : pending.biosBufferSize = mirrorTargetSize pending.flashType bank
  fits : pending.biosBufferSize ≤ 1024 * 1024
  mirrored : ∀ index < pending.biosBufferSize, pending.biosBuffer index = buf (index % size)

/-- The size check accepts every multiple of 256 bytes up to the length of the device. -/
theorem checkImageSize_iff {flashType : KnownFlashType} {size : ℕ} :
    checkImageSize flashType size = .noError ↔
      0 < size ∧ size ≤ flashType.lengthInBytes ∧ 256 ∣ size := by
  unfold checkImageSize
  rw [Nat.dvd_iff_mod_eq_zero]
  split_ifs with hbounds hmultiple
  · simp [hbounds]
    omega
  · simp [hbounds]
    omega
  · simp
    omega

theorem mirrorTargetSize_le {flashType : KnownFlashType}
    (hlength : flashType.lengthInBytes ≤ 0x100000) (bank : FlashBank) :
    mirrorTargetSize flashType bank ≤ 1024 * 1024 := by
  cases bank <;> simp only [mirrorTargetSize] <;> omega

/-- Whatever image a request on an idle machine accepts fills its bank, exactly if each image that
the size check lets pass is a multiple of 256KB and gives the size of the bank by doubling. -/
theorem writeBios_fillsTarget_iff (hdevice : LookedUp device) (buf : Bytes)
    (size offset : ℕ) (bank : FlashBank) (hidle : state.currentFlashOp = .idle) :
    ((writeBios device buf size offset bank state).1 = .noError →
      FillsTarget buf size bank (writeBios device buf size offset bank state).2) ↔
    ∀ known, (device.readDevice state.chip).1 = some known → 0 < size →
      size ≤ known.lengthInBytes → 256 ∣ size →
      256 * 1024 ∣ size ∧ ∃ doublings, mirrorTargetSize known bank = size * 2 ^ doublings := by
  constructor
  · intro hfills known hanswer hpos hle hdvd
    have heq := writeBios_eq buf offset bank hidle hanswer
      (checkImageSize_iff.mpr ⟨hpos, hle, hdvd⟩)
    rw [heq] at hfills
    have htarget := hfills rfl
    refine ⟨htarget.multiple, ?_⟩
    rw [show mirrorTargetSize known bank = _ from htarget.filled.symm]
    exact mirrorLoop_size_pow _ _ _ _
  · intro hcondition haccepted
    rcases writeBios_cases buf size offset bank hidle with
      ⟨known, hanswer, hvalid, heq⟩ | ⟨-, code, _, _, _, hrefused, heq⟩
    · obtain ⟨hpos, hle, hdvd⟩ := checkImageSize_iff.mp hvalid
      obtain ⟨hmultiple, doublings, htarget⟩ := hcondition known hanswer hpos hle hdvd
      rw [heq]
      have hfilled : (pendingWrite device state known buf size offset bank).biosBufferSize =
          mirrorTargetSize known bank := by
        change (mirrorLoop (mirrorTargetSize known bank) (mirrorTargetSize known bank) _ size).2 =
          mirrorTargetSize known bank
        rw [htarget]
        refine mirrorLoop_size_eq doublings _ _ hpos ?_
        exact Nat.lt_two_pow_self.le.trans (Nat.le_mul_of_pos_left _ hpos)
      refine ⟨hpos, hmultiple, ?_, hfilled, ?_, (pendingWrite_mirrored device state known buf offset
        bank hpos).1⟩
      · change size ≤ mirrorTargetSize known bank
        rw [htarget]
        exact Nat.le_mul_of_pos_right size (Nat.two_pow_pos doublings)
      · rw [hfilled]
        exact mirrorTargetSize_le (hdevice.length_bounds hanswer).2 bank
    · rw [heq] at haccepted
      exact absurd haccepted hrefused

/-- An image of 256KB for the first bank of 512KB. -/
theorem writeBios_fillsTarget_twice :
    let device := workingChip
    let start := bootState (populateSettingsStructWithDefault plainHardware) fun _ ↦ 0
    FillsTarget floorImage (256 * 1024) .bank512
      (writeBios device floorImage (256 * 1024) 0 .bank512 start).2 := by
  intro device start
  have hidle : start.currentFlashOp = .idle := rfl
  refine (writeBios_fillsTarget_iff quietChip_lookedUp floorImage (256 * 1024) 0 .bank512
    hidle).mpr ?_ rfl
  intro known hanswer _ _ _
  exact ⟨dvd_refl _, 1, rfl⟩

/-- An image of 768KB is accepted for a device of 1MB. Its two copies are larger than the device
and than the buffer. -/
theorem writeBios_overfills :
    let device := quietChip ⟨0x100000, true⟩ fun _ ↦ true
    let start := bootState (populateSettingsStructWithDefault plainHardware) fun _ ↦ 0
    let written := writeBios device (fun _ ↦ 0) 0xC0000 0 .noBank start
    matchDevice 0xbf 0x5a = some ⟨0x100000, true⟩ ∧ start.currentFlashOp = .idle ∧
      written.1 = .noError ∧ written.2.biosBufferSize = 0x180000 ∧
      ¬ FillsTarget (fun _ ↦ 0) 0xC0000 .noBank written.2 := by
  intro device start written
  have hsize : written.2.biosBufferSize = 0x180000 := by decide +kernel
  refine ⟨by decide +kernel, rfl, by decide +kernel, hsize, fun hfills ↦ ?_⟩
  have hfits := hfills.fits
  rw [hsize] at hfits
  exact absurd hfits (by decide)

end XBlast.Flash
