import XBlast.Fatx.PathWalk

/-!
# New directories

`f_mkdir` gives a new directory a cluster of zeros and enters it in the directory that the path
leads to (`fMkdir_spec`). The clusters that change on the way are those of this directory or were
free (`Takes`), so every other directory is left alone.

The entry of the new directory need not be found again. `dir_find` stops at an entry whose name has
the length zero, and `dir_alloc` passes it unless the first character of its name is zero as well.
The entry is found if no such entry is before it and if the name does not start with the mark of
deleted entries (`Made.found_iff`).
-/

set_option autoImplicit false
set_option relaxedAutoImplicit false

namespace XBlast.Fatx

open Foundation Disk Program List DirTable

variable {δ : Type}

/-! ### Clusters that are taken -/

/-- A change of a volume in some clusters, each of which was one of `base` or free before. -/
structure Takes (base owned : List UInt32) (fs : FatFs) (content : Bytes) (fs' : FatFs)
    (content' : Bytes) : Prop extends Leaves owned fs content fs' content' where
  taken : ∀ clst ∈ owned, clst ∈ base ∨ FreeCluster fs content clst

section

variable {base owned more : List UInt32} {fs fs' last : FatFs} {content content' final : Bytes}

theorem Takes.trans (hfatx : IsFatxFs fs) (hfirst : Takes base owned fs content fs' content')
    (hsecond : Takes owned more fs' content' last final) :
    Takes base (owned ++ more) fs content last final := by
  refine ⟨(hfirst.mono fun _ ↦ mem_append_left more).trans
    (hsecond.mono fun _ ↦ mem_append_right owned), fun clst hclst ↦ ?_⟩
  by_cases howned : clst ∈ owned
  · exact hfirst.taken clst howned
  · have hmore := (mem_append.mp hclst).resolve_left howned
    have hfree := (hsecond.taken clst hmore).resolve_left howned
    exact .inr ((hfirst.free_iff hfatx howned).mp hfree)

theorem DirTable.Changes.takes {table next : DirTable} (hchanges : table.Changes next)
    (hbase : ∀ clst ∈ table.clusters, clst ∈ base) :
    Takes base next.clusters table.fs table.content next.fs next.content :=
  ⟨hchanges.leaves, fun clst hclst ↦ (hchanges.taken clst hclst).imp_left (hbase clst)⟩

end

/-! ### A cluster of zeros -/

section

variable {parent : DirTable} {dcl : UInt32}

/-- The content of the volume with a new chain, which is one cluster of zeros. -/
def DirTable.newContent (parent : DirTable) (dcl : UInt32) : Bytes :=
  fill (linkedContent parent.fs parent.content 0 dcl) (512 * (clst2sect parent.fs dcl).toNat)
    (512 * parent.fs.csize.toNat) 0

section

variable (hfree : FreeCluster parent.fs parent.content dcl)

include hfree

theorem fatValue_newContent {clst : UInt32} (hclst : Accepted parent.fs clst) :
    fatValue parent.fs (parent.newContent dcl) clst =
      fatValue parent.fs (setFatValue parent.fs parent.content dcl 0xFFFFFFFF) clst := by
  refine fatValue_congr fun index hindex ↦ fill_outside ?_
  have hapart := parent.geometry.fatApart dcl clst hfree.accepted hclst
  omega

/-- The new cluster is the end of its chain. -/
theorem newContent_last :
    parent.fs.nFatent.toNat ≤ (fatValue parent.fs (parent.newContent dcl) dcl).toNat := by
  rw [fatValue_newContent hfree hfree.accepted, fatValue_setFatValue_self]
  refine le_trans (nFatent_le_fatMask parent.chain.last) (le_of_eq ?_)
  rw [fatMask]
  split_ifs
  · rfl
  · rfl

theorem newContent_leaves :
    Leaves [dcl] parent.fs parent.content (parent.fs.takeCluster dcl) (parent.newContent dcl) := by
  refine ⟨rfl, fun clst hclst hother index hindex ↦ ?_, fun clst hclst hother ↦ ?_⟩
  · have hapart := parent.geometry.apart _ _ hclst hfree.accepted
      fun heq ↦ hother (mem_singleton.mpr heq)
    have hfat := parent.geometry.fatApart _ _ hclst hfree.accepted
    rw [newContent, fill_outside (by omega), linkedContent, if_pos rfl,
      setFatValue_outside (by omega)]
  · rw [fatValue_newContent hfree hclst,
      fatValue_setFatValue_of_ne fun heq ↦ hother (mem_singleton.mpr heq)]

end

/-- The table of a new directory. -/
def DirTable.newTable (parent : DirTable) (hfree : FreeCluster parent.fs parent.content dcl) :
    DirTable where
  fs := parent.fs.takeCluster dcl
  content := parent.newContent dcl
  clusters := [dcl]
  geometry := parent.geometry_takeCluster dcl
  chain :=
    ⟨Nat.zero_lt_one, forall_mem_singleton.mpr hfree.accepted, nodup_singleton dcl,
      fun _ hindex ↦ absurd (Nat.lt_of_succ_lt_succ hindex) (Nat.not_lt_zero _),
      newContent_last hfree⟩

variable (hfree : FreeCluster parent.fs parent.content dcl)

theorem newTable_zero {slot : ℕ} (hslot : slot < (parent.newTable hfree).count) {index : ℕ}
    (hindex : index < 64) : (parent.newTable hfree).entry slot index = 0 := by
  have hcluster := mem_singleton.mp (cluster_mem hslot)
  have hinside := (parent.newTable hfree).address_inside slot
  rw [hcluster] at hinside
  change 512 * (clst2sect parent.fs dcl).toNat ≤ _ ∧ _ ≤
    512 * ((clst2sect parent.fs dcl).toNat + parent.fs.csize.toNat) at hinside
  exact fill_inside (by omega) (by omega)

/-- The directory above, on the volume with the table of the new one. -/
def DirTable.beside (parent : DirTable) (hfree : FreeCluster parent.fs parent.content dcl) :
    DirTable :=
  parent.carry (newContent_leaves hfree) fun _ hclst hmem ↦
    hfree.not_mem (mem_singleton.mp hmem ▸ hclst)

theorem DirTable.beside_agrees : parent.Agrees (parent.beside hfree) :=
  carry_agrees _ _

end

/-! ### The entry of a new directory -/

section

variable {table : DirTable} {slot other index : ℕ} (hslot : slot < table.count) (dcl : UInt32)

/-- The table after an entry was given the time, the cluster and the attribute of a directory. -/
def DirTable.describe (table : DirTable) {slot : ℕ} (hslot : slot < table.count) (dcl : UInt32) :
    DirTable :=
  ((table.store hslot (show Dirx.modTime + 4 ≤ 64 by decide) (byteOf32 fatxTime)).store
    (store_lt hslot _ _) (show Dirx.fstClus + 4 ≤ 64 by decide) (byteOf32 dcl)).store
    (store_lt (store_lt hslot _ _) _ _) (show Dirx.attr + 1 ≤ 64 by decide) fun _ ↦ amDir

theorem describe_lt : slot < (table.describe hslot dcl).count :=
  hslot

theorem describe_changes : table.Changes (table.describe hslot dcl) :=
  ((store_changes hslot _ _).trans (store_changes (store_lt hslot _ _) _ _)).trans
    (store_changes (store_lt (store_lt hslot _ _) _ _) _ _)

theorem describe_attr : (table.describe hslot dcl).entry slot Dirx.attr = amDir := by
  rw [describe, store_entry, overlay_inside le_rfl (Nat.lt_succ_self _)]

theorem describe_clust : ldClust ((table.describe hslot dcl).entry slot) = dcl := by
  refine littleEndian32_eq fun index hindex ↦ ?_
  have houtside : Dirx.attr + 1 ≤ Dirx.fstClus + index := by
    rw [Dirx.attr, Dirx.fstClus]
    omega
  rw [describe, store_entry, overlay_outside (.inr houtside), store_entry, overlay_add hindex]

theorem describe_name (hindex : index < Dirx.fstClus) (hattr : index ≠ Dirx.attr) :
    (table.describe hslot dcl).entry slot index = table.entry slot index := by
  have hbefore : index < Dirx.modTime := lt_trans hindex (by decide)
  rw [describe, store_entry, overlay_outside (by omega), store_entry,
    overlay_outside (.inl hindex), store_entry, overlay_outside (.inl hbefore)]

theorem describe_entry_of_ne (hother : other < table.count) (hne : other ≠ slot)
    (hindex : index < 64) :
    (table.describe hslot dcl).entry other index = table.entry other index := by
  rw [describe, store_entry_of_ne _ _ _ ?_ hne hindex, store_entry_of_ne _ _ _ ?_ hne hindex,
    store_entry_of_ne _ _ _ hother hne hindex]
  · exact hother
  · exact hother

end

/-- An entry of a table is that of another directory of the volume. -/
structure Subdir (parent child : DirTable) (slot : ℕ) : Prop where
  fs : child.fs = parent.fs
  content : child.content = parent.content
  apart : ∀ clst ∈ parent.clusters, clst ∉ child.clusters
  lt : slot < parent.count
  attr : parent.entry slot Dirx.attr = amDir
  clust : ldClust (parent.entry slot) = child.clusters.getD 0 0
  two_le : 2 ≤ (child.clusters.getD 0 0).toNat

/-- What `f_mkdir` has made of the directory `parent`: the directory `made` with an entry for the
new directory `child`, at the first place that was free. -/
structure Made (parent : DirTable) (name : List UInt8) (made child : DirTable) (slot : ℕ) : Prop
    extends Subdir made child slot where
  valid : ValidName name
  start : made.clusters.getD 0 0 = parent.clusters.getD 0 0
  single : child.clusters.length = 1
  zero : ∀ index < child.count, ∀ byte < 64, child.entry index byte = 0
  le : slot ≤ parent.count
  kept : ∀ index < slot, ∀ byte < 64, made.entry index byte = parent.entry index byte
  used : ∀ index < slot, isFree (parent.entry index) = false
  free : slot < parent.count → isFree (parent.entry slot) = true
  named : ¬ StartsDeleted name → NamedEntry name (made.entry slot)
  marked : StartsDeleted name → made.entry slot Dirx.nameLgth = 0
  missing : ∃ last, MissingFrom parent (storedName (paddedName name)) last
  takes : ∃ owned, (∀ clst ∈ child.clusters, clst ∈ owned) ∧
    Takes parent.clusters owned parent.fs parent.content made.fs made.content

section

variable {parent next : DirTable} {name : List UInt8} {dcl : UInt32} {slot : ℕ} {dp : Dir}

/-- The directory above with the entry of the new one. -/
def DirTable.enter (next : DirTable) (hslot : FreeAt next slot) (dp : Dir) (dcl : UInt32) :
    DirTable :=
  (next.register hslot dp).describe (register_lt hslot dp) dcl

section

variable (hfree : FreeCluster parent.fs parent.content dcl)
  (hgrows : (parent.beside hfree).Grows next) (hslot : FreeAt next slot) (dp : Dir)

include hfree hgrows hslot

theorem enter_changes :
    (parent.beside hfree).Changes (next.enter hslot dp dcl) :=
  (hgrows.toChanges.trans (register_changes hslot dp)).trans (describe_changes _ dcl)

theorem enter_apart :
    ∀ clst ∈ (parent.newTable hfree).clusters, clst ∉ (next.enter hslot dp dcl).clusters := by
  refine forall_mem_singleton.mpr fun hmem ↦ ?_
  rcases (enter_changes hfree hgrows hslot dp).taken dcl hmem with hold | hnew
  · exact hfree.not_mem hold
  · exact (@FreeCluster.not_mem (parent.newTable hfree) dcl hnew) (mem_singleton.mpr rfl)

end

/-- The table of the new directory, on the volume that `f_mkdir` leaves. -/
def DirTable.entered (hfree : FreeCluster parent.fs parent.content dcl)
    (hgrows : (parent.beside hfree).Grows next) (hslot : FreeAt next slot) (dp : Dir) : DirTable :=
  (parent.newTable hfree).carry (enter_changes hfree hgrows hslot dp).leaves
    (enter_apart hfree hgrows hslot dp)

variable (hfree : FreeCluster parent.fs parent.content dcl)
  (hgrows : (parent.beside hfree).Grows next) (hslot : FreeAt next slot)

include hgrows

/-- The entries of the directory above are as they were. -/
theorem grown_entry {index byte : ℕ} (hindex : index < parent.count) (hbyte : byte < 64) :
    next.entry index byte = parent.entry index byte := by
  have hagrees := parent.beside_agrees hfree
  exact (hgrows.kept index (hagrees.count ▸ hindex) byte hbyte).trans
    (hagrees.entry index hindex byte hbyte)

include hslot

/-- The new entry is at the first place that was free, or behind the last one. -/
theorem free_le : slot ≤ parent.count := by
  have hcount := (parent.beside_agrees hfree).count
  have hlt := hslot.lt
  by_contra hbehind
  have hzero := hgrows.zero parent.count (by omega) (le_of_eq hcount) Dirx.name (by decide)
  have hused := hslot.before parent.count (by omega)
  rw [isFree, hzero] at hused
  exact absurd hused (by simp)

theorem enter_entry (dp : Dir) {index byte : ℕ} (hindex : index < slot)
    (hbyte : byte < 64) : (next.enter hslot dp dcl).entry index byte = parent.entry index byte := by
  have hlt := hslot.lt
  have hle := free_le hfree hgrows hslot
  rw [enter, describe_entry_of_ne _ _ (show index < (next.register hslot dp).count from
      lt_trans hindex hlt) (ne_of_lt hindex) hbyte,
    register_entry_of_ne hslot dp (lt_trans hindex hlt) (ne_of_lt hindex) hbyte]
  exact grown_entry hfree hgrows (by omega) hbyte

theorem enter_made (hname : dp.HasName name)
    (hmissing : ∃ last, MissingFrom parent (storedName (paddedName name)) last) :
    Made parent name (next.enter hslot dp dcl) (entered hfree hgrows hslot dp) slot := by
  have hagrees : (parent.newTable hfree).Agrees (entered hfree hgrows hslot dp) := carry_agrees _ _
  have hchanges := enter_changes hfree hgrows hslot dp
  have hsame {index : ℕ} (hindex : index < parent.count) (byte : ℕ) (hbyte : byte < 64) :
      next.entry index byte = parent.entry index byte :=
    grown_entry hfree hgrows hindex hbyte
  have hle := free_le hfree hgrows hslot
  have hregistered {byte : ℕ} (hbyte : byte < Dirx.fstClus) (hattr : byte ≠ Dirx.attr) :
      (next.enter hslot dp dcl).entry slot byte =
        newEntry (UInt8.ofNat (registeredLength dp)) dp.fnx byte :=
    (describe_name _ dcl hbyte hattr).trans
      (register_entry hslot dp (lt_trans hbyte (by decide)))
  refine
    { fs := carry_fs _ _
      content := carry_content _ _
      apart := fun clst hclst hmem ↦ enter_apart hfree hgrows hslot dp clst hmem hclst
      lt := describe_lt _ dcl
      attr := describe_attr _ dcl
      clust := describe_clust _ dcl
      two_le := hfree.two_le
      valid := hname.valid
      start := hchanges.start
      single := rfl
      zero := fun index hindex byte hbyte ↦ ?_
      le := hle
      kept := fun index hindex byte hbyte ↦ enter_entry hfree hgrows hslot dp hindex hbyte
      used := fun index hindex ↦ ?_
      free := fun hinside ↦ ?_
      named := fun hunmarked ↦ ?_
      marked := fun hmarked ↦ ?_
      missing := hmissing
      takes := ⟨dcl :: parent.clusters ++ (next.enter hslot dp dcl).clusters, ?_, ?_⟩ }
  · exact (hagrees.entry index (hagrees.count ▸ hindex) byte hbyte).trans
      (newTable_zero hfree (hagrees.count ▸ hindex) hbyte)
  · rw [← isFree_congr (hsame (lt_of_lt_of_le hindex hle))]
    exact hslot.before index hindex
  · rw [← isFree_congr (hsame hinside)]
    exact hslot.free
  · have hlength : registeredLength dp = name.length :=
      (registeredLength_eq hname).trans (if_neg hunmarked)
    have hnew := namedEntry_newEntry hname.valid hunmarked
    rw [← hlength, ← hname.fnx] at hnew
    refine hnew.of_name (fun byte ↦ hregistered) ?_
    rw [enter, describe_attr]
    decide
  · have hlength : registeredLength dp = 0 := (registeredLength_eq hname).trans (if_pos hmarked)
    rw [hregistered (by decide) (by decide), hlength]
    rfl
  · exact forall_mem_singleton.mpr mem_cons_self
  · have htaken : Takes parent.clusters (dcl :: parent.clusters) parent.fs parent.content
        (parent.beside hfree).fs (parent.beside hfree).content := by
      refine ⟨(newContent_leaves hfree).mono fun clst hclst ↦ ?_, fun clst hclst ↦ ?_⟩
      · exact mem_singleton.mp hclst ▸ mem_cons_self
      · rcases mem_cons.mp hclst with rfl | hold
        · exact .inr hfree
        · exact .inl hold
    exact htaken.trans parent.geometry.fatx
      (hchanges.takes fun clst ↦ mem_cons_of_mem dcl)

end

/-! ### Finding the new directory -/

/-- An entry at which `dir_find` stops is before every one that `dir_alloc` takes. -/
def DirTable.HidesNew (table : DirTable) : Prop :=
  ∃ slot < table.count, EndsTable (table.entry slot) ∧
    ∀ index ≤ slot, isFree (table.entry index) = false

section

variable {parent made child : DirTable} {name : List UInt8} {slot : ℕ}

section

variable (hmade : Made parent name made child slot)

include hmade

theorem Made.same {index : ℕ} (hindex : index < slot) (byte : ℕ) (hbyte : byte < 64) :
    parent.entry index byte = made.entry index byte :=
  (hmade.kept index hindex byte hbyte).symm

/-- No entry before the new one has its name. -/
theorem Made.le_found {found : ℕ} (hfound : FoundAt made (storedName (paddedName name)) found) :
    slot ≤ found := by
  by_contra hlt
  have hbefore (index : ℕ) (hindex : index ≤ found) : index < slot := by omega
  obtain ⟨last, hmissing⟩ := hmade.missing
  have hold : FoundAt parent (storedName (paddedName name)) found := by
    refine ⟨lt_of_lt_of_le (hbefore found le_rfl) hmade.le, fun index hindex ↦
      (hfound.before index hindex).congr (hmade.kept index (hbefore index (le_of_lt hindex))), ?_⟩
    rw [nameMatches_congr (hmade.same (hbefore found le_rfl))]
    exact hfound.found
  exact hold.not_missing hmissing

theorem Made.slot_lt_of_hides {index : ℕ} (hindex : index < parent.count)
    (hused : ∀ other ≤ index, isFree (parent.entry other) = false) : index < slot := by
  by_contra hle
  have hfree := hmade.free (by omega)
  rw [hused slot (by omega)] at hfree
  cases hfree

theorem Made.found (hunmarked : ¬ StartsDeleted name) (hopen : ¬ parent.HidesNew) :
    FoundAt made (storedName (paddedName name)) slot := by
  have hgoesOn (index : ℕ) (hindex : index < slot) : ¬ EndsTable (parent.entry index) :=
    fun hends ↦ hopen ⟨index, lt_of_lt_of_le hindex hmade.le, hends,
      fun other hother ↦ hmade.used other (lt_of_le_of_lt hother hindex)⟩
  obtain ⟨last, hmissing⟩ := hmade.missing
  have hlast : slot ≤ last := by
    by_contra hlt
    have hends := hmissing.ends.resolve_left (by have := hmade.le; omega)
    exact hgoesOn last (by omega) hends
  refine ⟨hmade.lt, fun index hindex ↦ ?_, ?_⟩
  · exact (hmissing.before index (lt_of_lt_of_le hindex hlast)).congr (hmade.same hindex)
  · exact ((hmade.named hunmarked).nameMatches_iff hmade.valid).mpr rfl

theorem Made.found_iff :
    (∃ found, FoundAt made (storedName (paddedName name)) found) ↔
      ¬ StartsDeleted name ∧ ¬ parent.HidesNew := by
  constructor
  · rintro ⟨found, hfound⟩
    have hle := hmade.le_found hfound
    refine ⟨fun hmarked ↦ ?_, ?_⟩
    · have hends : EndsTable (made.entry slot) := by
        rw [EndsTable, hmade.marked hmarked]
        decide
      rcases lt_or_eq_of_le hle with hlt | rfl
      · exact (hfound.before slot hlt).goesOn hends
      · have hmatches := hfound.found
        rw [hends.nameMatches] at hmatches
        cases hmatches
    · rintro ⟨index, hindex, hends, hused⟩
      have hlt := hmade.slot_lt_of_hides hindex hused
      exact (hfound.before index (lt_of_lt_of_le hlt hle)).goesOn
        ((endsTable_congr (hmade.same hlt)).mp hends)
  · rintro ⟨hunmarked, hopen⟩
    exact ⟨slot, hmade.found hunmarked hopen⟩

end

end

/-! ### `f_mkdir` -/

section

variable {io : DiskIo δ} {device : BlockDevice io} (hsound : ¬ device.faulty) {pdrv : Drive}
  {parent : DirTable} {target : UInt32} {name : List UInt8} {above : List UInt32} {dcl : UInt32}
  {dp : Dir} {state : DirState δ}

/-- There was no cluster for the table. -/
theorem makeTable_stops {ok : Unit → DirState δ → Prop} (state : DirState δ)
    (hdcl : dcl = 0 ∨ dcl = 1) : (makeTable io pdrv dcl).wp ok (fun _ _ ↦ True) state := by
  rw [makeTable, wp_bind, wp_stopIf]
  refine ⟨fun _ ↦ trivial, fun hzero ↦ ?_⟩
  rw [wp_bind, wp_stopIf]
  exact ⟨fun _ ↦ trivial, fun hone ↦ absurd (hdcl.resolve_left hzero) hone⟩

include hsound

theorem makeTable_spec (hfree : FreeCluster parent.fs parent.content dcl)
    (hheld : parent.Held device pdrv dp state)
    (hlength : registeredLength dp ≤ fatxFilenameMax) {created : VolumeState δ}
    (hshows : Shows device pdrv (parent.fs.takeCluster dcl)
      (linkedContent parent.fs parent.content 0 dcl) created) :
    (makeTable io pdrv dcl).wp
      (fun _ after ↦ ∃ (next : DirTable) (slot : ℕ) (hslot : FreeAt next slot),
        (parent.beside hfree).Grows next ∧ (next.register hslot dp).Held device pdrv dp after ∧
        LoadedAt (next.register hslot dp) slot after)
      (fun _ _ ↦ True) { state with volume := created } := by
  rw [makeTable]
  simp only [wp_bind, wp_stopIf]
  refine ⟨fun _ ↦ trivial, fun _ ↦ ⟨fun _ ↦ trivial, fun _ ↦ ⟨fun _ ↦ trivial, fun _ ↦ ?_⟩⟩⟩
  rw [onVolume, wp_onPart]
  refine wp_mono (syncWindow_shows hsound hshows parent.geometry.nFats) ?_
    fun _ _ _ ↦ trivial
  rintro _ synced ⟨hsynced, -⟩
  rw [wp_bind, onVolume, wp_onPart]
  refine wp_mono (dirClear_spec hsound hsynced parent.geometry.nFats parent.csize_pos
    (parent.geometry.bound dcl hfree.accepted)) ?_ fun _ _ _ ↦ trivial
  intro _ cleared hcleared
  have hbeside : (parent.beside hfree).Held device pdrv dp { state with volume := cleared } :=
    ⟨hcleared, hheld.start, hheld.sclust, hheld.fnx, hheld.nsxFlag⟩
  refine wp_mono (dirRegister_spec hsound hbeside hlength) ?_ fun _ _ _ ↦ trivial
  rintro _ after ⟨next, slot, hslot, hgrows, -, hafter, hloaded⟩
  exact ⟨next, slot, hslot, hgrows, hafter, hloaded⟩

/-- The entry is completed and written. -/
theorem describe_spec {table : DirTable} {slot : ℕ} (hslot : slot < table.count)
    (hheld : table.Held device pdrv dp state) (hloaded : LoadedAt table slot state) :
    (onVolume (storeWindow (state.dp.offset + Dirx.modTime) 4 (byteOf32 fatxTime)) >>= fun _ ↦
      onVolume (storeWindow (state.dp.offset + Dirx.fstClus) 4 (byteOf32 dcl)) >>= fun _ ↦
      onVolume (storeWindow (state.dp.offset + Dirx.attr) 1 fun _ ↦ amDir) >>= fun _ ↦
      onVolume (syncFs io pdrv)).wp
      (fun _ after ↦ (table.describe hslot dcl).Held device pdrv dp after ∧
        LoadedAt (table.describe hslot dcl) slot after)
      (fun _ _ ↦ False) state := by
  rw [wp_bind]
  refine wp_safe (storeEntry_spec hslot hheld hloaded (by decide) _) ?_
  rintro _ timed ⟨hheldTimed, hloadedTimed, hdpTimed⟩
  rw [wp_bind, ← hdpTimed]
  refine wp_safe (storeEntry_spec (store_lt hslot _ _) hheldTimed hloadedTimed
    (by decide) _) ?_
  rintro _ placed ⟨hheldPlaced, hloadedPlaced, hdpPlaced⟩
  rw [wp_bind, ← hdpPlaced]
  refine wp_safe (storeEntry_spec (store_lt (store_lt hslot _ _) _ _)
    hheldPlaced hloadedPlaced (by decide) _) ?_
  rintro _ marked ⟨hheldMarked, hloadedMarked, -⟩
  rw [onVolume, wp_onPart]
  refine wp_safe (syncFs_spec hsound table.geometry.nFats hheldMarked.shows) ?_
  rintro _ synced ⟨hsynced, hwinsect⟩
  exact ⟨hheldMarked.withVolume hsynced,
    ⟨hloadedMarked.toAtSlot, hwinsect.trans hloadedMarked.winsect⟩⟩

/-- `f_mkdir` makes a directory in the one that the path leads to. -/
theorem fMkdir_spec {cdir : UInt32} {path : List UInt8}
    (hleads : Leads parent target name (pathStart cdir path) (path.dropWhile isSeparator) above)
    (hshows : Shows device pdrv parent.fs parent.content state.volume) :
    (fMkdir io pdrv cdir path).wp
      (fun _ after ↦ ∃ made child slot, Made parent name made child slot ∧
        made.Held device pdrv after.dp after ∧ LoadedAt made slot after ∧ after.dp.sclust = target)
      (fun _ _ ↦ True) state := by
  rw [fMkdir, wp_bind]
  refine wp_ifNoFile (wp_mono (followPath_spec hsound hleads hshows)
    (fun _ _ _ ↦ trivial) ?_)
  rintro _ missed ⟨-, hname, hsclust, hheld, last, hmissing⟩
  refine ⟨fun _ ↦ ?_, fun _ ↦ trivial⟩
  rw [hname.fnx] at hmissing
  have hfirst := (parent.geometry.fatx.accepted_iff _).mp parent.first_accepted
  rw [wp_bind, onVolume, wp_onPart]
  refine wp_safe (createChain_spec hsound parent.geometry.fatx parent.geometry.nFats
    (show (0 : UInt32).toNat < _ from Nat.zero_lt_of_lt hfirst.2) (by omega)
    (fun hzero ↦ absurd rfl hzero) hheld.shows) ?_
  rintro dcl created ⟨fs', content', hcreated, hafter⟩
  cases hcreated with
  | full =>
    rw [wp_bind, wp_modifyOnError]
    exact makeTable_stops _ (.inl rfl)
  | broken | lost =>
    rw [wp_bind, wp_modifyOnError]
    exact makeTable_stops _ (.inr rfl)
  | linked dcl hcounted hfree hclst =>
    rw [wp_bind, wp_modifyOnError]
    refine wp_mono (makeTable_spec hsound hfree hheld (registeredLength_le hname) hafter)
      ?_ fun _ _ _ ↦ trivial
    rintro _ entered ⟨next, slot, hslot, hgrows, hentered, hloaded⟩
    rw [wp_bind, wp_gets]
    refine wp_safe (describe_spec hsound (register_lt hslot _) hentered hloaded) ?_
    rintro _ after ⟨hmade, hfinal⟩
    exact ⟨next.enter hslot missed.dp dcl, _, slot,
      enter_made hfree hgrows hslot hname ⟨last, hmissing⟩, hmade.self, hfinal,
      hmade.sclust.trans hsclust⟩

end

end XBlast.Fatx
