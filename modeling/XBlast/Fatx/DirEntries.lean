import XBlast.Fatx.DirWalk

/-!
# Finding, making and deleting entries

What `dir_find`, `dir_alloc`, `dir_register`, `dir_remove` and `dir_read` do to any table, whatever
its entries are. Each of the searches ends at the first entry of some kind, and nothing before that
entry is of this kind: `FoundAt` and `MissingFrom` for the search for a name, `FreeAt` for the
search for a free entry. All of them end within the limit of 4096 entries.
-/

set_option autoImplicit false
set_option relaxedAutoImplicit false

namespace XBlast.Fatx

open Foundation Disk Program DirTable

variable {δ : Type}

/-! ### The kinds of entries -/

/-- An entry that ends the search for a name. -/
def EndsTable (entry : Bytes) : Prop :=
  entry Dirx.nameLgth ≠ ddem ∧
    (fatxFilenameMax < (entry Dirx.nameLgth).toNat ∨ entry Dirx.nameLgth = 0)

/-- An entry that the search for a name passes. -/
structure Passes (fnx : List UInt8) (entry : Bytes) : Prop where
  goesOn : ¬ EndsTable entry
  differs : nameMatches fnx entry = false

/-- The search for a name ends with success. -/
structure FoundAt (table : DirTable) (fnx : List UInt8) (slot : ℕ) : Prop where
  lt : slot < table.count
  before : ∀ index < slot, Passes fnx (table.entry index)
  found : nameMatches fnx (table.entry slot) = true

/-- The search for a name ends without success. -/
structure MissingFrom (table : DirTable) (fnx : List UInt8) (slot : ℕ) : Prop where
  le : slot ≤ table.count
  before : ∀ index < slot, Passes fnx (table.entry index)
  ends : slot = table.count ∨ EndsTable (table.entry slot)

/-- The first free entry. -/
structure FreeAt (table : DirTable) (slot : ℕ) : Prop where
  lt : slot < table.count
  before : ∀ index < slot, isFree (table.entry index) = false
  free : isFree (table.entry slot) = true

/-- The table with the entry of a new name. -/
def DirTable.register (table : DirTable) {slot : ℕ} (hfree : FreeAt table slot) (dp : Dir) :
    DirTable :=
  table.store hfree.lt (le_refl (0 + 64))
    (newEntry (UInt8.ofNat (registeredLength dp)) dp.fnx)

/-- The table without an entry. -/
def DirTable.remove (table : DirTable) {slot : ℕ} (hslot : slot < table.count) : DirTable :=
  table.store hslot (show Dirx.nameLgth + 1 ≤ 64 by decide) fun _ ↦ ddem

section

variable {table : DirTable} {slot other index : ℕ}

variable (hfree : FreeAt table slot)

theorem register_lt (dp : Dir) : slot < (table.register hfree dp).count :=
  hfree.lt

theorem register_entry (dp : Dir) (hindex : index < 64) :
    (table.register hfree dp).entry slot index =
      newEntry (UInt8.ofNat (registeredLength dp)) dp.fnx index := by
  rw [register, store_entry]
  exact overlay_inside (Nat.zero_le index) (by omega)

theorem register_entry_of_ne (dp : Dir) (hother : other < table.count) (hne : other ≠ slot)
    (hindex : index < 64) : (table.register hfree dp).entry other index = table.entry other index :=
  store_entry_of_ne hfree.lt _ _ hother hne hindex

theorem register_changes (dp : Dir) : table.Changes (table.register hfree dp) :=
  store_changes hfree.lt _ _

variable (hslot : slot < table.count)

theorem remove_length : (table.remove hslot).entry slot Dirx.nameLgth = ddem := by
  rw [remove, store_entry]
  exact overlay_inside le_rfl (by decide)

theorem remove_entry_of_ne (hother : other < table.count) (hne : other ≠ slot)
    (hindex : index < 64) : (table.remove hslot).entry other index = table.entry other index :=
  store_entry_of_ne hslot _ _ hother hne hindex

theorem remove_changes : table.Changes (table.remove hslot) :=
  store_changes hslot _ _

end

section

variable {entry other : Bytes}

section

variable (hsame : ∀ index < 64, entry index = other index)

include hsame

theorem nameMatches_congr (fnx : List UInt8) : nameMatches fnx entry = nameMatches fnx other := by
  have hlength := hsame Dirx.nameLgth (by decide)
  have hattr := hsame Dirx.attr (by decide)
  rw [nameMatches, nameMatches, hlength, hattr]
  by_cases hshort : (other Dirx.nameLgth).toNat ≤ fatxFilenameMax
  · have hbytes : bytesAt entry Dirx.name (other Dirx.nameLgth).toNat =
        bytesAt other Dirx.name (other Dirx.nameLgth).toNat := by
      refine bytesAt_congr fun index hindex ↦ hsame _ ?_
      rw [fatxFilenameMax] at hshort
      rw [Dirx.name]
      omega
    rw [hbytes]
  · simp [hshort]

theorem isFree_congr : isFree entry = isFree other := by
  rw [isFree, isFree, hsame Dirx.nameLgth (by decide), hsame Dirx.name (by decide)]

theorem isShown_congr (vol : Bool) : isShown vol entry = isShown vol other := by
  rw [isShown, isShown, hsame Dirx.nameLgth (by decide), hsame Dirx.attr (by decide)]

end

theorem nameMatches_deleted {fnx : List UInt8} (hdeleted : entry Dirx.nameLgth = ddem) :
    nameMatches fnx entry = false := by
  have hlong : ¬ ddem.toNat ≤ fatxFilenameMax := by decide
  rw [nameMatches, hdeleted]
  simp [hlong]

end

theorem wp_ifNoFile {found : FResult} {program : DirM δ Unit}
    {ok : Unit → DirState δ → Prop} {error : FResult → DirState δ → Prop} {state : DirState δ}
    (hprogram : program.wp (fun _ after ↦ error found after) (fun code after ↦
      (code = .noFile → ok () after) ∧ (code ≠ .noFile → error code after)) state) :
    (ifNoFile found program).wp ok error state := by
  rw [Program.wp] at hprogram
  rw [Program.wp, ifNoFile]
  rcases hrun : program state with ⟨code | value, after⟩
  · rw [hrun] at hprogram
    cases code with
    | noFile => exact hprogram.1 rfl
    | _ => exact hprogram.2 (by decide)
  · rw [hrun] at hprogram
    exact hprogram

section

variable {io : DiskIo δ} {device : BlockDevice io} (hsound : ¬ device.faulty) {pdrv : Drive}
  {dp : Dir} {table : DirTable} {slot : ℕ} {state : DirState δ}

include hsound

/-! ### Finding a name -/

theorem dirFindLoop_spec (turns : ℕ) (hturns : table.count ≤ slot + turns)
    (hslot : slot < table.count) (hbefore : ∀ index < slot, Passes dp.fnx (table.entry index))
    (hheld : table.Held device pdrv dp state) (hat : AtSlot table slot state.dp) :
    (dirFindLoop io pdrv turns).wp
      (fun _ after ↦ table.Held device pdrv dp after ∧
        ∃ found, FoundAt table dp.fnx found ∧ LoadedAt table found after ∧
          after.dp.attr = table.entry found Dirx.attr &&& 0x3F)
      (fun code after ↦ code = .noFile ∧ table.Held device pdrv dp after ∧
        ∃ last, MissingFrom table dp.fnx last) state := by
  induction turns generalizing slot state with
  | zero => omega
  | succ turns ih =>
    -- An entry that is passed: the search goes on with the next one, or the table is over.
    have hpass (loaded : DirState δ) (hpasses : Passes dp.fnx (table.entry slot))
        (hheld : table.Held device pdrv dp loaded) (hat : AtSlot table slot loaded.dp) :
        (dirNext io pdrv false >>= fun _ ↦ dirFindLoop io pdrv turns).wp
          (fun _ after ↦ table.Held device pdrv dp after ∧
            ∃ found, FoundAt table dp.fnx found ∧ LoadedAt table found after ∧
        after.dp.attr = table.entry found Dirx.attr &&& 0x3F)
          (fun code after ↦ code = .noFile ∧ table.Held device pdrv dp after ∧
            ∃ last, MissingFrom table dp.fnx last) loaded := by
      have hmore : ∀ index < slot + 1, Passes dp.fnx (table.entry index) := by
        intro index hindex
        rcases Nat.lt_succ_iff_lt_or_eq.mp hindex with hlt | rfl
        · exact hbefore index hlt
        · exact hpasses
      rw [wp_bind]
      refine wp_mono (dirNext_spec hsound false hslot hheld hat) ?_ ?_
      · rintro _ moved ⟨next, -, -, hsame, hnext, hmoved, hmovedAt⟩
        obtain rfl := hsame rfl
        exact ih (by omega) hnext hmore hmoved hmovedAt
      · rintro code moved ⟨-, hend⟩
        obtain ⟨hcode, hcount, hmoved, -⟩ := hend rfl
        exact ⟨hcode, hmoved, slot + 1, le_of_eq hcount, hmore, .inl hcount⟩
    rw [dirFindLoop, wp_bind]
    refine wp_safe (loadEntry_spec hsound hslot hheld hat) ?_
    rintro entry loaded ⟨hloaded, hdp, hwinsect, -, hentry⟩
    have hlength := hentry Dirx.nameLgth (by decide)
    rw [← hdp] at hat
    rw [hlength, wp_ite]
    refine ⟨fun hdeleted ↦ hpass loaded ⟨fun hends ↦ hends.1 hdeleted,
      nameMatches_deleted hdeleted⟩ hloaded hat, fun hused ↦ ?_⟩
    rw [wp_ite]
    refine ⟨fun hends ↦ ⟨rfl, hloaded, slot, le_of_lt hslot, hbefore, .inr ⟨hused, hends⟩⟩,
      fun hgoes ↦ ?_⟩
    have hmatches : nameMatches loaded.dp.fnx entry = nameMatches dp.fnx (table.entry slot) := by
      rw [hloaded.fnx, nameMatches_congr hentry]
    rw [wp_bind, wp_gets, wp_bind, modifyDir, wp_modify, hmatches, wp_ite]
    refine ⟨fun hmatch ↦ ⟨hloaded.withDir rfl rfl rfl, slot, ⟨hslot, hbefore, hmatch⟩,
      ⟨⟨⟨hat.dptr, hat.clust⟩, hat.sect⟩, hwinsect⟩,
      congrArg (fun byte ↦ byte &&& 0x3F) (hentry Dirx.attr (by decide))⟩, fun hdiffers ↦ ?_⟩
    exact hpass _ ⟨fun hends ↦ hgoes hends.2, Bool.eq_false_iff.mpr hdiffers⟩
      (hloaded.withDir rfl rfl rfl) ⟨⟨hat.dptr, hat.clust⟩, hat.sect⟩

/-- `dir_find` ends at the first entry with the name, or where the table ends for it. -/
theorem dirFind_spec (hheld : table.Held device pdrv dp state) :
    (dirFind io pdrv).wp
      (fun _ after ↦ table.Held device pdrv dp after ∧
        ∃ found, FoundAt table dp.fnx found ∧ LoadedAt table found after ∧
          after.dp.attr = table.entry found Dirx.attr &&& 0x3F)
      (fun code after ↦ code = .noFile ∧ table.Held device pdrv dp after ∧
        ∃ last, MissingFrom table dp.fnx last) state := by
  rw [dirFind, wp_bind]
  refine wp_safe (dirSdi_spec hheld) ?_
  rintro _ first ⟨hfirst, hat⟩
  exact dirFindLoop_spec hsound 4096 (le_trans (min_le_right _ _) (by decide))
    table.count_pos (nofun) hfirst hat

/-! ### A free entry -/

theorem dirAllocLoop_spec (turns : ℕ) (hturns : 4096 ≤ slot + turns) (hslot : slot < table.count)
    (hbefore : ∀ index < slot, isFree (table.entry index) = false)
    (hheld : table.Held device pdrv dp state) (hat : AtSlot table slot state.dp) :
    (dirAllocLoop io pdrv 1 turns 0).wp
      (fun _ after ↦ ∃ next free, table.Grows next ∧ table.UsesLast next free ∧ slot ≤ free ∧
        FreeAt next free ∧ next.Held device pdrv dp after ∧ AtSlot next free after.dp)
      (fun code _ ↦ code ≠ .timeout) state := by
  induction turns generalizing table slot state with
  | zero =>
    have hlimit := (slot_lt hslot).2
    omega
  | succ turns ih =>
    rw [dirAllocLoop, wp_bind]
    refine wp_safe (loadEntry_spec hsound hslot hheld hat) ?_
    rintro entry loaded ⟨hloaded, hdp, -, -, hentry⟩
    rw [← hdp] at hat
    rw [isFree_congr hentry, wp_ite]
    refine ⟨fun hfree ↦ ?_, fun hused ↦ ?_⟩
    · exact ⟨table, slot, .refl table, .inl rfl, le_refl slot, ⟨hslot, hbefore, hfree⟩,
        hloaded, hat⟩
    rw [wp_bind]
    refine wp_mono (dirNext_spec hsound true hslot hloaded hat) ?_
      fun _ _ hnone ↦ hnone.1
    rintro _ moved ⟨next, hgrows, huses, -, hnext, hmoved, hmovedAt⟩
    have hmore : ∀ index < slot + 1, isFree (next.entry index) = false := by
      intro index hindex
      rw [isFree_congr (hgrows.kept index (by omega))]
      rcases Nat.lt_succ_iff_lt_or_eq.mp hindex with hlt | rfl
      · exact hbefore index hlt
      · exact Bool.eq_false_iff.mpr hused
    refine wp_mono (ih (by omega) hnext hmore hmoved hmovedAt) ?_ fun _ _ hcode ↦ hcode
    rintro _ after ⟨last, free, hlast, huses', hle, hfree, hafter⟩
    exact ⟨last, free, hgrows.trans hlast, hgrows.usesLast huses hle huses',
      Nat.le_of_succ_le hle, hfree, hafter⟩

/-- `dir_alloc` takes the first free entry, if need be of another cluster. -/
theorem dirAlloc_spec (hheld : table.Held device pdrv dp state) :
    (dirAlloc io pdrv 1).wp
      (fun _ after ↦ ∃ next free, table.Grows next ∧ table.UsesLast next free ∧
        FreeAt next free ∧ next.Held device pdrv dp after ∧ AtSlot next free after.dp)
      (fun code _ ↦ code ≠ .timeout) state := by
  rw [dirAlloc, wp_mapError, wp_bind]
  refine wp_safe (dirSdi_spec hheld) ?_
  rintro _ first ⟨hfirst, hat⟩
  refine wp_mono (dirAllocLoop_spec hsound 4096 (by omega) table.count_pos
    (nofun) hfirst hat) ?_ ?_
  · rintro _ after ⟨next, free, hgrows, huses, -, hfree, hafter⟩
    exact ⟨next, free, hgrows, huses, hfree, hafter⟩
  intro code _ hcode
  split_ifs
  · decide
  · exact hcode

omit hsound

/-! ### Storing to an entry -/

/-- A store to the loaded entry. -/
theorem storeEntry_spec (hslot : slot < table.count) (hheld : table.Held device pdrv dp state)
    (hloaded : LoadedAt table slot state) {offset length : ℕ} (hlength : offset + length ≤ 64)
    (patch : Bytes) :
    (onVolume (storeWindow (state.dp.offset + offset) length patch)).wp
      (fun _ after ↦ (table.store hslot hlength patch).Held device pdrv dp after ∧
        LoadedAt (table.store hslot hlength patch) slot after ∧ after.dp = state.dp)
      (fun _ _ ↦ False) state := by
  have hplace := hloaded.offset_eq hslot
  rw [onVolume, wp_onPart]
  refine wp_safe (storeWindow_shows hheld.shows (by omega) patch) ?_
  rintro _ stored ⟨hstored, hwinsect⟩
  rw [hloaded.winsect, hplace, ← add_assoc, ← address_eq hslot] at hstored
  exact ⟨⟨hstored, hheld.start, hheld.sclust, hheld.fnx, hheld.nsxFlag⟩,
    ⟨⟨⟨hloaded.dptr, hloaded.clust⟩, hloaded.sect⟩, hwinsect.trans hloaded.winsect⟩, rfl⟩

include hsound

/-- `dir_register` stores the new entry to the first free one. -/
theorem dirRegister_spec (hheld : table.Held device pdrv dp state)
    (hlength : registeredLength dp ≤ fatxFilenameMax) :
    (dirRegister io pdrv).wp
      (fun _ after ↦ ∃ (next : DirTable) (free : ℕ) (hfree : FreeAt next free), table.Grows next ∧
        table.UsesLast next free ∧ (next.register hfree dp).Held device pdrv dp after ∧
        LoadedAt (next.register hfree dp) free after)
      (fun code _ ↦ code ≠ .timeout) state := by
  rw [dirRegister, wp_bind]
  refine wp_mono (dirAlloc_spec hsound hheld) ?_ fun _ _ hcode ↦ hcode
  rintro _ allocated ⟨next, free, hgrows, huses, hfree, hallocated, hat⟩
  rw [wp_bind]
  refine wp_safe (loadEntry_spec hsound hfree.lt hallocated hat) ?_
  rintro entry loaded ⟨hloaded, hdp, hwinsect, -, -⟩
  have hsame : registeredLength loaded.dp = registeredLength dp := by
    rw [registeredLength, registeredLength, hloaded.fnx, hloaded.nsxFlag]
  rw [← hdp] at hat
  rw [wp_bind, wp_gets]
  rw [hsame, hloaded.fnx, if_neg (not_lt.mpr hlength)]
  refine wp_safe
    (storeEntry_spec hfree.lt hloaded ⟨hat, hwinsect⟩ (le_refl (0 + 64)) _) ?_
  rintro _ stored ⟨hstored, hat, -⟩
  exact ⟨next, free, hfree, hgrows, huses, hstored, hat⟩

/-- `dir_remove` marks the current entry as deleted. -/
theorem dirRemove_spec (hslot : slot < table.count) (hheld : table.Held device pdrv dp state)
    (hat : AtSlot table slot state.dp) :
    (dirRemove io pdrv).wp
      (fun _ after ↦ (table.remove hslot).Held device pdrv dp after)
      (fun _ _ ↦ False) state := by
  rw [dirRemove, wp_bind]
  refine wp_safe (loadEntry_spec hsound hslot hheld hat) ?_
  rintro entry loaded ⟨hloaded, hdp, hwinsect, -, -⟩
  rw [← hdp] at hat
  rw [wp_bind, wp_gets]
  exact wp_safe (storeEntry_spec hslot hloaded ⟨hat, hwinsect⟩ _ _)
    (fun _ _ hstored ↦ hstored.1)

/-! ### Reading entries -/

/-- An entry that `dir_read` passes. -/
structure Hidden (vol : Bool) (entry : Bytes) : Prop where
  goesOn : entry Dirx.nameLgth ≠ 0xFF
  hidden : isShown vol entry = false

/-- The first entry that is shown, from an entry on. -/
structure ShownFrom (table : DirTable) (vol : Bool) (slot shown : ℕ) : Prop where
  le : slot ≤ shown
  lt : shown < table.count
  before : ∀ index, slot ≤ index → index < shown → Hidden vol (table.entry index)
  goesOn : table.entry shown Dirx.nameLgth ≠ 0xFF
  shown : isShown vol (table.entry shown) = true

/-- No entry is shown, from an entry on. -/
structure NothingFrom (table : DirTable) (vol : Bool) (slot last : ℕ) : Prop where
  le : slot ≤ last
  last_le : last ≤ table.count
  before : ∀ index, slot ≤ index → index < last → Hidden vol (table.entry index)
  ends : last = table.count ∨ table.entry last Dirx.nameLgth = 0xFF

theorem dirReadLoop_spec (vol : Bool) (turns : ℕ) (hturns : table.count ≤ slot + turns)
    (hslot : slot < table.count) (hheld : table.Held device pdrv dp state)
    (hat : AtSlot table slot state.dp) :
    (dirReadLoop io pdrv vol turns).wp
      (fun _ after ↦ table.Held device pdrv dp after ∧ ∃ shown, ShownFrom table vol slot shown ∧
        AtSlot table shown after.dp ∧ ∀ index < 64, after.entry index = table.entry shown index)
      (fun code after ↦ code = .noFile ∧ table.Held device pdrv dp after ∧
        (∃ last, NothingFrom table vol slot last) ∧
        ∃ stopped < table.count, OnSlot table stopped after.dp) state := by
  induction turns generalizing slot state with
  | zero => omega
  | succ turns ih =>
    rw [dirReadLoop, wp_bind]
    refine wp_safe (loadEntry_spec hsound hslot hheld hat) ?_
    rintro entry loaded ⟨hloaded, hdp, -, rfl, hentry⟩
    have hlength := hentry Dirx.nameLgth (by decide)
    rw [← hdp] at hat
    rw [wp_bind, wp_stopIf, hlength]
    refine ⟨fun hends ↦ ⟨rfl, hloaded, ⟨slot, le_refl slot, le_of_lt hslot,
      fun _ hle hlt ↦ absurd hlt (not_lt.mpr hle), .inr hends⟩, slot, hslot, hat.toOnSlot⟩,
      fun hgoes ↦ ?_⟩
    rw [wp_bind, modifyDir, wp_modify, isShown_congr hentry, wp_ite]
    refine ⟨fun hshown ↦ ⟨hloaded.withDir rfl rfl rfl, slot, ⟨le_refl slot, hslot,
      fun _ hle hlt ↦ absurd hlt (not_lt.mpr hle), hgoes, hshown⟩,
      ⟨⟨hat.dptr, hat.clust⟩, hat.sect⟩, hentry⟩, fun hhidden ↦ ?_⟩
    have hfirst : Hidden vol (table.entry slot) := ⟨hgoes, Bool.eq_false_iff.mpr hhidden⟩
    -- What is hidden from the next entry on and this entry are hidden together.
    have hmore {last : ℕ}
        (hrest : ∀ index, slot + 1 ≤ index → index < last → Hidden vol (table.entry index)) :
        ∀ index, slot ≤ index → index < last → Hidden vol (table.entry index) := by
      intro index hle hlt
      rcases lt_or_eq_of_le hle with hbehind | rfl
      · exact hrest index hbehind hlt
      · exact hfirst
    rw [wp_bind]
    refine wp_mono (dirNext_spec hsound false hslot (hloaded.withDir rfl rfl rfl)
      ⟨⟨hat.dptr, hat.clust⟩, hat.sect⟩) ?_ ?_
    · rintro _ moved ⟨next, -, -, hsame, hnext, hmoved, hmovedAt⟩
      obtain rfl := hsame rfl
      rw [wp_bind, wp_gets, hmovedAt.sect, if_neg (sector_ne_zero hnext)]
      refine wp_mono (ih (by omega) hnext hmoved hmovedAt) ?_ ?_
      · rintro _ after ⟨hafter, shown, hshown, hshownAt⟩
        exact ⟨hafter, shown, ⟨Nat.le_of_succ_le hshown.le, hshown.lt, hmore hshown.before,
          hshown.goesOn, hshown.shown⟩, hshownAt⟩
      · rintro code after ⟨hcode, hafter, ⟨last, hlast⟩, hstopped⟩
        exact ⟨hcode, hafter, ⟨last, Nat.le_of_succ_le hlast.le, hlast.last_le,
          hmore hlast.before, hlast.ends⟩, hstopped⟩
    · rintro code moved ⟨-, hend⟩
      obtain ⟨hcode, hcount, hmoved, hon, -⟩ := hend rfl
      refine ⟨hcode, hmoved, ⟨slot + 1, Nat.le_succ slot, le_of_eq hcount,
        hmore fun _ hle hlt ↦ absurd hlt (not_lt.mpr hle), .inl hcount⟩, slot, hslot, hon⟩

/-- `dir_read` goes to the first entry that is shown. Without one the object has no sector. -/
theorem dirRead_spec (vol : Bool) (hslot : slot < table.count)
    (hheld : table.Held device pdrv dp state) (hat : AtSlot table slot state.dp) :
    (dirRead io pdrv vol).wp
      (fun _ after ↦ table.Held device pdrv dp after ∧ ∃ shown, ShownFrom table vol slot shown ∧
        AtSlot table shown after.dp ∧ ∀ index < 64, after.entry index = table.entry shown index)
      (fun code after ↦ code = .noFile ∧ table.Held device pdrv dp after ∧
        (∃ last, NothingFrom table vol slot last) ∧ after.dp.sect = 0 ∧
        ∃ stopped < table.count, OnSlot table stopped after.dp) state := by
  rw [dirRead, wp_modifyOnError, wp_bind, wp_gets, wp_bind, wp_stopIf, hat.sect]
  refine ⟨fun hzero ↦ absurd hzero (sector_ne_zero hslot), fun _ ↦ ?_⟩
  refine wp_mono (dirReadLoop_spec hsound vol 4096
    (le_trans (min_le_right _ _) (Nat.le_add_left _ _)) hslot hheld hat)
    (fun _ _ hshown ↦ hshown) ?_
  rintro code after ⟨hcode, hafter, hnothing, stopped, hstopped, hon⟩
  exact ⟨hcode, hafter.withDir rfl rfl rfl, hnothing, rfl, stopped, hstopped,
    ⟨hon.dptr, hon.clust⟩⟩

end

end XBlast.Fatx
