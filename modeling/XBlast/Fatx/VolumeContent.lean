import XBlast.Fatx.MountSpec

/-!
# The volume behind the window

The filesystem object holds one sector in its window, and a changed window is written back only
when another sector is loaded. `volumeContent` is the disk with the changed window laid over it, and
`Shows` says that a state stands for a volume with this content: loading and writing back sectors
keep it, and a store to the window changes the content at the place of the window. What is proved
about the FAT and the directories is proved about this content.
-/

set_option autoImplicit false
set_option relaxedAutoImplicit false

namespace XBlast.Fatx

open Foundation Disk Program

variable {δ : Type} {io : DiskIo δ}

/-- Stores bytes to the window and marks it as changed. -/
def storeWindow (offset length : ℕ) (patch : Bytes) : VolumeM δ Unit :=
  modifyFs fun fs ↦ { fs with win := overlay fs.win offset length patch, wflag := true }

/-- The content of the disk of a volume, as the functions behind the window see it. -/
def volumeContent (device : BlockDevice io) (pdrv : Drive) (state : VolumeState δ) : Bytes :=
  if state.fs.wflag then
    overlay (diskContent device pdrv state) (512 * state.fs.winsect.toNat) 512 state.fs.win
  else diskContent device pdrv state

/-- A filesystem object with the window of another one. -/
def FatFs.withWindow (fs other : FatFs) : FatFs :=
  { fs with wflag := other.wflag, winsect := other.winsect, win := other.win }

/-- A state stands for a volume with this filesystem object, but for its window, and with this
content. -/
structure Shows (device : BlockDevice io) (pdrv : Drive) (fs : FatFs) (content : Bytes)
    (state : VolumeState δ) : Prop where
  object : state.fs = fs.withWindow state.fs
  bytes : volumeContent device pdrv state = content
  window : ∀ index < 512, state.fs.win index = content (512 * state.fs.winsect.toNat + index)

section

variable {device : BlockDevice io} {pdrv : Drive} {fs : FatFs} {content : Bytes}
  {state : VolumeState δ}

section

variable (hshows : Shows device pdrv fs content state)

include hshows

/-- A part of the filesystem object that does not depend on the window. -/
theorem Shows.part {β : Type} (part : FatFs → β)
    (hpart : ∀ fs other : FatFs, part (fs.withWindow other) = part fs) :
    part state.fs = part fs := by
  rw [hshows.object, hpart]

theorem Shows.nFatent : state.fs.nFatent = fs.nFatent :=
  hshows.part FatFs.nFatent fun _ _ ↦ rfl

theorem Shows.lastClst : state.fs.lastClst = fs.lastClst :=
  hshows.part FatFs.lastClst fun _ _ ↦ rfl

theorem Shows.fsTypex : state.fs.fsTypex = fs.fsTypex :=
  hshows.part FatFs.fsTypex fun _ _ ↦ rfl

theorem Shows.fatbase : state.fs.fatbase = fs.fatbase :=
  hshows.part FatFs.fatbase fun _ _ ↦ rfl

end

/-- Outside of the window the content is on the disk. -/
theorem volumeContent_outside {address : ℕ}
    (houtside : address < 512 * state.fs.winsect.toNat ∨
      512 * state.fs.winsect.toNat + 512 ≤ address) :
    volumeContent device pdrv state address = diskContent device pdrv state address := by
  rw [volumeContent]
  split_ifs
  · exact overlay_outside houtside
  · rfl

/-- A state of which the filesystem object was changed, but not its window. -/
theorem Shows.modify (hshows : Shows device pdrv fs content state) {change : FatFs → FatFs}
    (hchange : ∀ fs other : FatFs,
      change (fs.withWindow other) = (change fs).withWindow other) :
    Shows device pdrv (change fs) content { state with fs := change state.fs } := by
  have hobject : change state.fs = (change fs).withWindow state.fs := by
    rw [hshows.object]
    exact hchange fs state.fs
  have hcontent := hshows.bytes
  refine ⟨?_, ?_, ?_⟩
  · rw [hobject]
    rfl
  · rw [volumeContent] at hcontent ⊢
    rw [hobject]
    exact hcontent
  · rw [hobject]
    exact hshows.window

/-- The window is stored to: the content changes at its place. -/
theorem storeWindow_shows (hshows : Shows device pdrv fs content state) {offset length : ℕ}
    (hlength : offset + length ≤ 512) (patch : Bytes) :
    (storeWindow offset length patch).wp
      (fun _ after ↦ Shows device pdrv fs
        (overlay content (512 * state.fs.winsect.toNat + offset) length patch) after ∧
        after.fs.winsect = state.fs.winsect)
      (fun _ _ ↦ False) state := by
  have hwindow (index : ℕ) (hindex : index < 512) :
      overlay state.fs.win offset length patch index =
        overlay content (512 * state.fs.winsect.toNat + offset) length patch
          (512 * state.fs.winsect.toNat + index) :=
    overlay_shift (hshows.window index hindex)
  rw [storeWindow, modifyFs, wp_modify]
  refine ⟨⟨?_, ?_, hwindow⟩, rfl⟩
  · exact congrArg (fun fs : FatFs ↦ { fs with
      wflag := true, win := overlay state.fs.win offset length patch }) hshows.object
  · funext address
    by_cases hinside : 512 * state.fs.winsect.toNat ≤ address ∧
        address < 512 * state.fs.winsect.toNat + 512
    · obtain ⟨index, rfl⟩ := Nat.exists_eq_add_of_le hinside.1
      refine Eq.trans ?_ (hwindow index (by omega))
      exact overlay_add (by omega)
    · refine (volumeContent_outside (by
        change address < 512 * state.fs.winsect.toNat ∨
          512 * state.fs.winsect.toNat + 512 ≤ address
        omega)).trans ?_
      rw [overlay_outside (by omega), ← hshows.bytes, volumeContent_outside (by omega)]
      rfl

variable (hsound : ¬ device.faulty)

include hsound in
/-- The window is written back, to one copy of the FAT only. -/
theorem syncWindow_shows (hshows : Shows device pdrv fs content state) (hfats : fs.nFats ≠ 2) :
    (syncWindow io pdrv).wp
      (fun _ after ↦ Shows device pdrv fs content after ∧ after.fs.wflag = false ∧
        after.fs.winsect = state.fs.winsect)
      (fun _ _ ↦ False) state := by
  rw [syncWindow, wp_bind, wp_gets, wp_ite]
  constructor
  · intro hdirty
    have hcontent := hshows.bytes
    have hnFats : state.fs.nFats = fs.nFats := hshows.part (fun fs ↦ fs.nFats) fun _ _ ↦ rfl
    rw [volumeContent, if_pos hdirty] at hcontent
    rw [wp_bind, onDisk, wp_onPart]
    refine wp_mono (onDrive_diskWrite_spec device pdrv state.system state.fs.win
      (show state.fs.winsect.toNat + 1 ≤ 2 ^ 32 from state.fs.winsect.toNat_lt)) ?_ ?_
    · intro _ system hchange
      rw [wp_bind, modifyFs, wp_modify, wp_ite]
      refine ⟨fun hboth ↦ absurd (hnFats.symm.trans hboth.2) hfats, fun _ ↦ ?_⟩
      refine ⟨⟨?_, ?_, hshows.window⟩, rfl, rfl⟩
      · exact congrArg (fun fs : FatFs ↦ { fs with wflag := false }) hshows.object
      · exact hchange.content.trans hcontent
    · rintro _ _ ⟨_, hfaulty, _⟩
      exact absurd hfaulty hsound
  · intro hclean
    exact ⟨hshows, Bool.eq_false_iff.mpr hclean, rfl⟩

include hsound in
/-- A sector is loaded: the window holds it and the content is the same. -/
theorem moveWindow_shows (hshows : Shows device pdrv fs content state) (hfats : fs.nFats ≠ 2)
    (sector : UInt32) :
    (moveWindow io pdrv sector).wp
      (fun _ after ↦ Shows device pdrv fs content after ∧ after.fs.winsect = sector)
      (fun _ _ ↦ False) state := by
  rw [moveWindow, wp_bind, wp_gets, wp_ite]
  constructor
  · intro hsame
    exact ⟨hshows, hsame.symm⟩
  · intro _
    rw [wp_bind]
    refine wp_safe (syncWindow_shows hsound hshows hfats) ?_
    rintro _ synced ⟨hsynced, hclean, _⟩
    have hcontent := hsynced.bytes
    rw [volumeContent, if_neg (by rw [hclean]; decide)] at hcontent
    rw [wp_bind, wp_modifyOnError, onDisk, wp_onPart]
    refine wp_mono (onDrive_diskRead_spec device pdrv synced.system sector) ?_ ?_
    · rintro data system ⟨hchange, hdata⟩
      have hread := hchange.content.trans hcontent
      refine ⟨⟨?_, ?_, fun index hindex ↦ ?_⟩, rfl⟩
      · exact congrArg (fun fs : FatFs ↦ { fs with win := data, winsect := sector }) hsynced.object
      · refine Eq.trans (if_neg ?_) hread
        change ¬ synced.fs.wflag = true
        rw [hclean]
        decide
      · exact (hdata index hindex).trans (congrFun hcontent _)
    · rintro _ _ ⟨_, hfaulty, _⟩
      exact absurd hfaulty hsound

/-- The bytes of a loaded sector. -/
theorem Shows.window_eq (hshows : Shows device pdrv fs content state) {sector : UInt32}
    (hwinsect : state.fs.winsect = sector) {offset length : ℕ} (hlength : offset + length ≤ 512)
    (index : ℕ) (hindex : index < length) :
    state.fs.win (offset + index) = content (512 * sector.toNat + offset + index) := by
  rw [hshows.window (offset + index) (by omega), hwinsect, add_assoc]

end

end XBlast.Fatx
