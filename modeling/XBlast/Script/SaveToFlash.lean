import XBlast.Flash.Settings
import XBlast.Script.TrimSize

/-!
# Saving the boot script

`saveScriptToFlash` trims a script file and copies it to the settings, from where it is written to
the flash. The copy is left out if the same script is there already. For scripts of one size this
is decided by `memcmp(..) == true`, which asks whether the result of the comparison is one: any
other difference is taken for equality (`saveScriptToFlash_stores_iff`).
-/

set_option autoImplicit false
set_option relaxedAutoImplicit false

namespace XBlast.Script

open Foundation Flash List

/-! ### The code -/

/-- The size of `scriptData`, from offset 795 to the checksum. -/
def scriptSavedInFlashMaxSizeInBytes : ℕ := 3041

variable (settings : LPCmodSettings)

def scriptSize : ℕ := (littleEndian16 settings.image 793).toNat

/-- The first bytes of the saved script. -/
def scriptData (count : ℕ) : List UInt8 :=
  settings.bytes.bytes 795 count

/-- The settings with a new size and new first bytes of the script. -/
def storeScript (newSize : ℕ) (fileBuf : Text) : LPCmodSettings :=
  ⟨(settings.bytes.write 793 [UInt8.ofNat newSize, UInt8.ofNat (newSize / 0x100)]).write 795
    fileBuf⟩

/-- The settings after the call. `file` is what is found under the name, and the flags say whether
there was memory for it and whether it was read to its end. There is no result where `trimScript`
has none. The last comparison is with the number one. -/
def saveScriptToFlash (file : Option Text) (allocated complete : Bool) : Option LPCmodSettings :=
  match file with
  | none => some settings
  | some file =>
    if file.length = 0 ∨ allocated = false ∨ complete = false then some settings
    else
      (trimScript file).map fun (fileBuf, newSize) ↦
        if 0 < newSize ∧ newSize ≤ file.length ∧ newSize ≤ scriptSavedInFlashMaxSizeInBytes then
          let compareSize :=
            if newSize < scriptSize settings then newSize else scriptSize settings
          if scriptSize settings ≠ newSize ∨
              memcmp (scriptData settings compareSize) (fileBuf.take compareSize) = 1 then
            storeScript settings newSize fileBuf
          else settings
        else settings

/-! ### What is stored -/

/-- The size that `trimScript` returns is that of its buffer. -/
theorem length_eq_of_trimScript {file script : Text} {newSize : ℕ}
    (htrim : trimScript file = some (script, newSize)) : script.length = newSize := by
  rw [trimScript] at htrim
  dsimp only at htrim
  split_ifs at htrim
  obtain ⟨rfl, rfl⟩ := Prod.mk.inj (Option.some.inj htrim)
  exact length_flatten_lineBuffers _

section

variable {settings : LPCmodSettings} {script : Text}

theorem scriptSize_storeScript (hsize : script.length ≤ scriptSavedInFlashMaxSizeInBytes) :
    scriptSize (storeScript settings script.length script) = script.length := by
  rw [scriptSavedInFlashMaxSizeInBytes] at hsize
  have hbyte (index : ℕ) (hindex : index < 2) :
      (storeScript settings script.length script).image (793 + index) =
        listImage [UInt8.ofNat script.length, UInt8.ofNat (script.length / 0x100)] index := by
    rw [storeScript, LPCmodSettings.image, Packed.image_write _ _ (by omega),
      overlay_outside (by omega), Packed.image_write _ _ (by omega),
      overlay_add (by simpa using hindex)]
  have hlow := hbyte 0 (by decide)
  have hhigh := hbyte 1 (by decide)
  simp only [listImage, getD_cons_zero, getD_cons_succ, add_zero] at hlow hhigh
  rw [scriptSize, littleEndian16, hlow, hhigh, UInt8.toNat_ofNat', UInt8.toNat_ofNat',
    UInt16.toNat_ofNat']
  omega

theorem scriptData_storeScript (hsize : script.length ≤ scriptSavedInFlashMaxSizeInBytes) :
    scriptData (storeScript settings script.length script) script.length = script := by
  rw [scriptSavedInFlashMaxSizeInBytes] at hsize
  exact Packed.bytes_write _ rfl (by omega)

/-- The script is in the settings, or it is too large and nothing is changed. -/
def Stores (settings after : LPCmodSettings) (script : Text) : Prop :=
  if script.length ≤ scriptSavedInFlashMaxSizeInBytes then
    scriptSize after = script.length ∧ scriptData after script.length = script
  else after = settings

/-- The first byte in which two scripts differ is larger by one in the old one. -/
def FirstLargerByOne (old new : Text) : Prop :=
  ∃ common byte other rest restNew,
    old = common ++ byte :: rest ∧ new = common ++ other :: restNew ∧
      byte.toNat = other.toNat + 1

/-- A file that is read completely and trimmed to a script of positive size, at most that of the
file, is saved just in case that the script is too large, has another size than the one before, is
the one before, or differs from it first in a byte that was larger by one. -/
theorem saveScriptToFlash_stores_iff {file : Text} {newSize : ℕ}
    (htrim : trimScript file = some (script, newSize)) (hpositive : 0 < newSize)
    (hsize : newSize ≤ file.length) :
    ∃ after, saveScriptToFlash settings (some file) true true = some after ∧
      (Stores settings after script ↔
        scriptSavedInFlashMaxSizeInBytes < script.length ∨ scriptSize settings ≠ script.length ∨
          scriptData settings script.length = script ∨
          FirstLargerByOne (scriptData settings script.length) script) := by
  have hread : ¬(file.length = 0 ∨ true = false ∨ true = false) := by
    rintro (hempty | htrue | htrue)
    · omega
    · exact absurd htrue (by decide)
    · exact absurd htrue (by decide)
  obtain rfl := length_eq_of_trimScript htrim
  rw [saveScriptToFlash]
  dsimp only
  rw [if_neg hread, htrim, Option.map_some]
  refine ⟨_, rfl, ?_⟩
  by_cases hfits : script.length ≤ scriptSavedInFlashMaxSizeInBytes
  · rw [Stores, if_pos hfits, if_pos ⟨hpositive, hsize, hfits⟩]
    dsimp only
    by_cases hsame : scriptSize settings = script.length
    · have hfirst : memcmp (scriptData settings script.length) script = 1 ↔
          FirstLargerByOne (scriptData settings script.length) script := memcmp_eq_one_iff _ _
      rw [hsame, if_neg (lt_irrefl _), take_length]
      by_cases hone : memcmp (scriptData settings script.length) script = 1
      · rw [if_pos (.inr hone)]
        refine iff_of_true ⟨scriptSize_storeScript hfits, scriptData_storeScript hfits⟩ ?_
        exact .inr (.inr (.inr (hfirst.mp hone)))
      · rw [if_neg (not_or.mpr ⟨not_not_intro rfl, hone⟩), hsame, and_iff_right rfl]
        constructor
        · intro hdata
          exact .inr (.inr (.inl hdata))
        · rintro (hlarge | hother | hdata | hlarger)
          · exact absurd hfits (not_le.mpr hlarge)
          · exact absurd rfl hother
          · exact hdata
          · exact absurd (hfirst.mpr hlarger) hone
    · rw [if_pos (.inl hsame)]
      refine iff_of_true ⟨scriptSize_storeScript hfits, scriptData_storeScript hfits⟩ ?_
      exact .inr (.inl hsame)
  · rw [Stores, if_neg hfits, if_neg fun h ↦ hfits h.2.2]
    exact iff_of_true rfl (.inl (not_le.mp hfits))

end

/-- Settings whose saved script is `LED(RED)`. -/
def redScript : LPCmodSettings := storeScript ⟨fun _ ↦ 0⟩ 9 (ascii "LED(RED)\x00")

theorem redScript_replaced_by_longer :
    ∃ after, saveScriptToFlash redScript (some (ascii "LED(GREEN)\n")) true true = some after ∧
      Stores redScript after (ascii "LED(GREEN)\x00") := by
  have htrim : trimScript (ascii "LED(GREEN)\n") = some (ascii "LED(GREEN)\x00", 11) := by decide
  obtain ⟨after, hsave, hstores⟩ :=
    @saveScriptToFlash_stores_iff redScript _ _ _ htrim (by decide) (by decide)
  exact ⟨after, hsave, hstores.mpr (.inr (.inl (by decide +kernel)))⟩

/-- A script of the same size is not saved, although it is another one. -/
theorem redScript_kept :
    scriptSize redScript = 9 ∧
      trimScript (ascii "LED(OFF)\n") = some (ascii "LED(OFF)\x00", 9) ∧
      (saveScriptToFlash redScript (some (ascii "LED(OFF)\n")) true true).map
        (fun after ↦ scriptData after 9) = some (ascii "LED(RED)\x00") := by
  decide +kernel

end XBlast.Script
