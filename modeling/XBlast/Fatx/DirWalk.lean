import XBlast.Fatx.DirTable

/-!
# Walking through a directory

What the functions do that move a directory object: `dir_sdi` goes to the first entry
(`dirSdi_spec`) and `dir_next` to the next one (`dirNext_spec`). `DirTable.Held` is what all of them
keep: the volume has the content of the table, and the object still belongs to its directory and has
its name.
-/

set_option autoImplicit false
set_option relaxedAutoImplicit false

namespace XBlast.Fatx

open Foundation Disk Program DirTable

variable {δ : Type}

/-- A state shows a table, and its directory object is one of this directory with the name of
`dp`. -/
structure DirTable.Held {io : DiskIo δ} (device : BlockDevice io) (pdrv : Drive) (dp : Dir)
    (table : DirTable) (state : DirState δ) : Prop where
  shows : Shows device pdrv table.fs table.content state.volume
  start : dp.startCluster table.fs = table.clusters.getD 0 0
  sclust : state.dp.sclust = dp.sclust
  fnx : state.dp.fnx = dp.fnx
  nsxFlag : state.dp.nsxFlag = dp.nsxFlag

variable {volume : VolumeState δ} {slot : ℕ}

section

variable {io : DiskIo δ} {device : BlockDevice io} {pdrv : Drive} {dp : Dir} {table : DirTable}
  {state : DirState δ}

/-- The object may move as long as it stays in its directory and keeps its name. -/
theorem DirTable.Held.withDir (hheld : table.Held device pdrv dp state) {changed : Dir}
    (hsclust : changed.sclust = state.dp.sclust) (hfnx : changed.fnx = state.dp.fnx)
    (hnsxFlag : changed.nsxFlag = state.dp.nsxFlag) :
    table.Held device pdrv dp { state with dp := changed } :=
  ⟨hheld.shows, hheld.start, hsclust.trans hheld.sclust, hfnx.trans hheld.fnx,
    hnsxFlag.trans hheld.nsxFlag⟩

/-- The window may hold another sector. -/
theorem DirTable.Held.withVolume (hheld : table.Held device pdrv dp state)
    (hshows : Shows device pdrv table.fs table.content volume) :
    table.Held device pdrv dp { state with volume := volume } :=
  ⟨hshows, hheld.start, hheld.sclust, hheld.fnx, hheld.nsxFlag⟩

theorem DirTable.first_accepted (table : DirTable) :
    Accepted table.fs (table.clusters.getD 0 0) := by
  rw [List.getD_eq_getElem _ _ table.chain.length_pos]
  exact table.chain.accepted _ (List.getElem_mem _)

theorem DirTable.first_ne_zero (table : DirTable) : table.clusters.getD 0 0 ≠ 0 := by
  intro hzero
  have hlow := ((table.geometry.fatx.accepted_iff _).mp table.first_accepted).1
  rw [hzero] at hlow
  exact absurd hlow (by decide)

theorem DirTable.Held.startCluster_eq (hheld : table.Held device pdrv dp state) :
    state.dp.startCluster state.volume.fs = table.clusters.getD 0 0 := by
  have hdirbase : state.volume.fs.dirbase = table.fs.dirbase :=
    hheld.shows.part FatFs.dirbase fun _ _ ↦ rfl
  rw [← hheld.start, Dir.startCluster, Dir.startCluster, rootOr, rootOr, hheld.sclust,
    hdirbase]

/-- `dir_sdi` goes to the first entry. -/
theorem dirSdi_spec (hheld : table.Held device pdrv dp state) :
    (dirSdi io pdrv 0).wp
      (fun _ after ↦ table.Held device pdrv dp after ∧ AtSlot table 0 after.dp)
      (fun _ _ ↦ False) state := by
  have hstart := hheld.startCluster_eq
  have hfirst := table.first_ne_zero
  have hsector : clst2sect state.volume.fs (table.clusters.getD 0 0) =
      clst2sect table.fs (table.clusters.getD 0 0) :=
    hheld.shows.part (fun fs ↦ clst2sect fs (table.clusters.getD 0 0)) fun _ _ ↦ rfl
  have hvalid := table.geometry.valid _ table.first_accepted
  have hcluster : table.cluster 0 = table.clusters.getD 0 0 := by
    rw [DirTable.cluster, Nat.zero_div]
  have hobject : Dir.startCluster state.volume.fs { state.dp with dptr := 0 } =
      table.clusters.getD 0 0 := hstart
  have hnone : (0 / (state.volume.fs.csize.toUInt32 * 512)).toNat = 0 := by
    rw [UInt32.toNat_div]
    exact Nat.zero_div _
  have hfront : (0 % (state.volume.fs.csize.toUInt32 * 512)) / 512 = 0 := by
    apply UInt32.toNat_inj.mp
    rw [UInt32.toNat_div, UInt32.toNat_mod, UInt32.toNat_zero, Nat.zero_mod, Nat.zero_div]
  simp only [dirSdi, modifyDir, onVolume, followChain, wp_bind, wp_stopIf, wp_modify, wp_gets,
    wp_onPart, wp_pure, id_eq, hobject, if_neg hfirst, hnone, hsector, hfront]
  refine ⟨by decide, fun _ ↦ ⟨fun hboth ↦ hfirst hboth.1, fun _ ↦ ⟨hvalid, fun _ ↦ ?_⟩⟩⟩
  refine ⟨hheld.withDir rfl rfl rfl, ⟨rfl, hcluster.symm⟩, ?_⟩
  rw [DirTable.sector, hcluster, Nat.zero_mod, Nat.zero_div]
  rfl

/-- The place of an entry in the window. -/
theorem AtSlot.offset_eq (hslot : slot < table.count) {dp : Dir} (hat : AtSlot table slot dp) :
    dp.offset = 64 * (slot % 8) := by
  have hlimit := (slot_lt hslot).2
  rw [Dir.offset, hat.dptr, UInt32.toNat_mod, UInt32.toNat_ofNat_of_lt'
    (show 64 * slot < 2 ^ 32 by omega), show (512 : UInt32).toNat = 512 from rfl]
  omega

/-- A directory object points to an entry, and the sector of the entry is in the window. -/
structure LoadedAt (table : DirTable) (slot : ℕ) (state : DirState δ) : Prop
    extends AtSlot table slot state.dp where
  winsect : state.volume.fs.winsect = table.sector slot

theorem LoadedAt.entry_eq (hloaded : LoadedAt table slot state) (hslot : slot < table.count)
    (hshows : Shows device pdrv table.fs table.content state.volume) (index : ℕ)
    (hindex : index < 64) : state.entry index = table.entry slot index := by
  rw [DirState.entry, hloaded.offset_eq hslot,
    hshows.window_eq hloaded.winsect (show 64 * (slot % 8) + 64 ≤ 512 by omega) index hindex,
    DirTable.entry, address_eq hslot]

/-- The sector of an entry is loaded. -/
theorem loadEntry_spec (hsound : ¬ device.faulty) (hslot : slot < table.count)
    (hheld : table.Held device pdrv dp state) (hat : AtSlot table slot state.dp) :
    (loadEntry io pdrv).wp
      (fun entry after ↦ table.Held device pdrv dp after ∧ after.dp = state.dp ∧
        after.volume.fs.winsect = table.sector slot ∧ entry = after.entry ∧
        ∀ index < 64, entry index = table.entry slot index)
      (fun _ _ ↦ False) state := by
  rw [loadEntry, wp_bind, wp_gets, wp_bind, onVolume, wp_onPart]
  refine wp_safe (moveWindow_shows hsound hheld.shows table.geometry.nFats _) ?_
  rintro _ loaded ⟨hloaded, hwinsect⟩
  have hsector : loaded.fs.winsect = table.sector slot := hwinsect.trans hat.sect
  have hat' : LoadedAt table slot { state with volume := loaded } := ⟨hat, hsector⟩
  exact ⟨hheld.withVolume hloaded, rfl, hsector, rfl, hat'.entry_eq hslot hloaded⟩

/-! ### Another cluster -/

/-- `dir_clear` fills a cluster with zeros. -/
theorem dirClear_spec (hsound : ¬ device.faulty) {fs : FatFs} {content : Bytes}
    (hshows : Shows device pdrv fs content volume) (hfats : fs.nFats ≠ 2) {clst : UInt32}
    (hpos : 0 < fs.csize.toNat) (hbound : (clst2sect fs clst).toNat + fs.csize.toNat ≤ 2 ^ 32) :
    (dirClear io pdrv clst).wp
      (fun _ after ↦ Shows device pdrv fs
        (fill content (512 * (clst2sect fs clst).toNat) (512 * fs.csize.toNat) 0) after)
      (fun _ _ ↦ False) volume := by
  rw [dirClear, wp_bind]
  refine wp_safe (syncWindow_shows hsound hshows hfats) ?_
  rintro _ synced ⟨hsynced, hclean, -⟩
  have hcontent : diskContent device pdrv synced = content := by
    have hbytes := hsynced.bytes
    rwa [volumeContent, if_neg (by rw [hclean]; decide)] at hbytes
  have hsect : clst2sect synced.fs clst = clst2sect fs clst :=
    hsynced.part (fun fs ↦ clst2sect fs clst) fun _ _ ↦ rfl
  have hcsize : synced.fs.csize = fs.csize := hsynced.part FatFs.csize fun _ _ ↦ rfl
  rw [wp_bind, wp_gets, hsect, hcsize, wp_bind, modifyFs, wp_modify]
  -- The window keeps its zeros, and the disk has them up to the sector that comes next.
  refine wp_safe (wp_forRange (fun index after ↦
    after.fs = { synced.fs with winsect := clst2sect fs clst, win := fun _ ↦ 0 } ∧
      diskContent device pdrv after = fill content (512 * (clst2sect fs clst).toNat)
        (512 * index) 0) ?_ ?_) ?_
  · refine ⟨rfl, hcontent.trans (funext fun address ↦ ?_)⟩
    rw [fill_outside (by omega)]
  · rintro index before - hindex ⟨hfs, hbefore⟩
    have hsector : (clst2sect fs clst + UInt32.ofNat index).toNat =
        (clst2sect fs clst).toNat + index := by
      rw [UInt32.toNat_add, UInt32.toNat_ofNat_of_lt' (show index < 2 ^ 32 by omega),
        Nat.mod_eq_of_lt (by omega)]
    rw [onDisk, wp_onPart]
    refine wp_mono (onDrive_diskWrite_spec device pdrv before.system (fun _ ↦ 0)
      (show (clst2sect fs clst + UInt32.ofNat index).toNat + 1 ≤ 2 ^ 32 from UInt32.toNat_lt _))
      ?_ ?_
    · intro _ system hchange
      refine ⟨hfs, hchange.content.trans ?_⟩
      rw [show device.content (before.system.drive pdrv) = _ from hbefore, hsector]
      exact overlay_sector content (fun _ ↦ 0) (clst2sect fs clst).toNat index
    · rintro _ _ ⟨-, hfaulty, -⟩
      exact hsound hfaulty
  · rintro _ after ⟨hfs, hafter⟩
    rw [zero_add] at hafter
    refine ⟨?_, ?_, fun index hindex ↦ ?_⟩
    · rw [hfs]
      exact congrArg (fun fs' : FatFs ↦
        { fs' with winsect := clst2sect fs clst, win := fun _ ↦ 0 }) hsynced.object
    · rw [volumeContent, hfs]
      exact (if_neg (by rw [hclean]; decide)).trans hafter
    · have hwin : after.fs.win index = 0 := by rw [hfs]
      have hwinsect : after.fs.winsect = clst2sect fs clst := by rw [hfs]
      rw [hwin, hwinsect, fill_inside (by omega) (by omega)]

/-- A directory is stretched by a cluster of zeros, unless no cluster is free or the directory ends
with the first cluster of the volume. -/
theorem stretchTable_spec (hsound : ¬ device.faulty)
    (hshows : Shows device pdrv table.fs table.content volume) :
    (stretchTable io pdrv table.lastCluster).wp
      (fun ncl after ↦ ∃ hfree : FreeCluster table.fs table.content ncl,
        Shows device pdrv (table.stretched hfree).fs (table.stretched hfree).content after)
      (fun code _ ↦ code ≠ .timeout) volume := by
  obtain ⟨hlow, hhigh⟩ := (table.geometry.fatx.accepted_iff _).mp table.lastCluster_accepted
  rw [stretchTable, wp_bind]
  refine wp_safe (createChain_spec hsound table.geometry.fatx table.geometry.nFats hhigh
    (by omega) (fun _ ↦ table.chain.last) hshows) ?_
  rintro ncl created ⟨fs', content', hcreated, hafter⟩
  simp only [wp_bind, wp_stopIf]
  refine ⟨fun _ ↦ by decide, fun hfull ↦ ⟨fun _ ↦ by decide, fun hbroken ↦
    ⟨fun _ ↦ by decide, fun _ ↦ ?_⟩⟩⟩
  cases hcreated with
  | full => exact absurd rfl hfull
  | broken | lost => exact absurd rfl hbroken
  | linked ncl hcounted hfree hclst =>
    refine wp_safe (dirClear_spec hsound hafter table.geometry.nFats table.csize_pos
      (table.geometry.bound ncl hfree.accepted)) ?_
    exact fun _ after hcleared ↦ ⟨hfree, hcleared⟩

/-! ### The next entry -/

/-- What is left when there is no next entry. Only a directory that may not be stretched has come to
its end then. -/
def NoNextEntry (device : BlockDevice io) (pdrv : Drive) (dp : Dir) (table : DirTable)
    (stretch : Bool) (slot : ℕ) (code : FResult) (after : DirState δ) : Prop :=
  code ≠ .timeout ∧ (stretch = false → code = .noFile ∧ slot + 1 = table.count ∧
    table.Held device pdrv dp after ∧ OnSlot table slot after.dp ∧ after.dp.sect = 0)

/-- The object of a directory that has grown. -/
theorem DirTable.Grows.held {next : DirTable} (hgrows : table.Grows next)
    (hheld : table.Held device pdrv dp state)
    (hshows : Shows device pdrv next.fs next.content volume) :
    next.Held device pdrv dp { state with volume := volume } := by
  refine ⟨hshows, ?_, hheld.sclust, hheld.fnx, hheld.nsxFlag⟩
  rw [hgrows.start, ← hheld.start, Dir.startCluster, Dir.startCluster, rootOr, rootOr,
    hgrows.leaves.dirbase]

/-- A cluster was added only if an entry is in it. -/
def DirTable.UsesLast (table next : DirTable) (slot : ℕ) : Prop :=
  next.clusters.length = table.clusters.length ∨
    table.slotsPerCluster * (next.clusters.length - 1) ≤ slot

theorem DirTable.Grows.usesLast {next last : DirTable} {slot free : ℕ} (hgrows : table.Grows next)
    (hnext : table.UsesLast next slot) (hle : slot ≤ free) (hlast : next.UsesLast last free) :
    table.UsesLast last free := by
  rw [DirTable.UsesLast, hgrows.slots] at hlast
  rcases hlast with hsame | huses
  · rw [DirTable.UsesLast, hsame]
    exact hnext.imp_right fun huses ↦ le_trans huses hle
  · exact .inr huses

theorem endOfTable_spec {stretch : Bool} {α : Type} {ok : α → DirState δ → Prop}
    (hend : stretch = false → slot + 1 = table.count) (hheld : table.Held device pdrv dp state)
    (hon : OnSlot table slot state.dp) :
    (endOfTable : DirM δ α).wp ok
      (NoNextEntry device pdrv dp table stretch slot) state :=
  ⟨by decide, fun hstretch ↦ ⟨rfl, hend hstretch, hheld.withDir rfl rfl rfl,
    ⟨hon.dptr, hon.clust⟩, rfl⟩⟩

section

variable (hsound : ¬ device.faulty) (stretch : Bool) (hslot : slot < table.count)

include hsound hslot

theorem dirNextCluster_spec (hcluster : (slot + 1) % table.slotsPerCluster = 0)
    (hlimit : slot + 1 < 4096) (hheld : table.Held device pdrv dp state)
    (hon : OnSlot table slot state.dp) :
    (dirNextCluster io pdrv stretch (table.cluster slot)).wp
      (fun clst after ↦ ∃ next : DirTable, table.Grows next ∧ table.UsesLast next (slot + 1) ∧
        (stretch = false → next = table) ∧ slot + 1 < next.count ∧
        next.Held device pdrv dp after ∧ clst = next.cluster (slot + 1))
      (NoNextEntry device pdrv dp table stretch slot) state := by
  have hlength := cluster_lt hslot
  have haccepted := DirTable.accepted hslot
  obtain ⟨hlow, hhigh⟩ := (table.geometry.fatx.accepted_iff _).mp haccepted
  rw [dirNextCluster, wp_bind, onVolume, wp_onPart]
  refine wp_safe
    (getFat_shows hsound table.geometry.fatx table.geometry.nFats hheld.shows _) ?_
  rintro clst read ⟨hclst, hread⟩
  rw [fatStatus_of_lt table.geometry.fatx _ hlow hhigh] at hclst
  have hkept : table.Held device pdrv dp { state with volume := read } := hheld.withVolume hread
  simp only [wp_bind, wp_gets, wp_stopIf, hread.nFatent]
  have hvalue : 2 ≤ clst.toNat ∧ (table.fs.nFatent ≤ clst ↔
      ¬ slot / table.slotsPerCluster + 1 < table.clusters.length) := by
    rw [UInt32.le_iff_toNat_le, hclst]
    by_cases hnext : slot / table.slotsPerCluster + 1 < table.clusters.length
    · obtain ⟨hchain, htwo⟩ := table.chain.next _ hnext
      have hmem : table.clusters.getD (slot / table.slotsPerCluster + 1) 0 ∈ table.clusters := by
        rw [List.getD_eq_getElem _ _ hnext]
        exact List.getElem_mem hnext
      have hless := ((table.geometry.fatx.accepted_iff _).mp (table.chain.accepted _ hmem)).2
      rw [DirTable.cluster, hchain]
      exact ⟨htwo, iff_of_false (not_le.mpr hless) (not_not.mpr hnext)⟩
    · have hlast := table.chain.last
      rw [← DirTable.lastCluster, ← cluster_eq_lastCluster hslot hnext] at hlast
      exact ⟨le_trans (by omega) hlast, iff_of_true hlast hnext⟩
  refine ⟨fun hsmall ↦ ?_, fun _ ↦ ⟨fun hfailed ↦ ?_, fun _ ↦ ?_⟩⟩
  · rw [UInt32.le_iff_toNat_le] at hsmall
    exact absurd (le_trans hvalue.1 hsmall) (by decide)
  · exact absurd (hclst.symm.trans hfailed) (fatValue_ne_diskErr _ _ _)
  rw [wp_ite, hvalue.2]
  constructor
  · intro hend
    rw [wp_ite]
    constructor
    · intro hstretch
      rw [onVolume, wp_onPart, cluster_eq_lastCluster hslot hend]
      refine wp_mono (stretchTable_spec hsound hread) ?_
        fun _ _ hcode ↦ ⟨hcode, fun hfalse ↦ absurd (hstretch.symm.trans hfalse) (by decide)⟩
      rintro ncl after ⟨hfree, hafter⟩
      have hgrows := stretched_grows hfree
      have hinside : slot + 1 < (table.stretched hfree).count := by
        refine (@DirTable.succ_lt_iff (table.stretched hfree) slot hcluster hlimit).mpr ?_
        change slot / table.slotsPerCluster + 1 < (table.clusters ++ [ncl]).length
        rw [List.length_append, List.length_singleton]
        exact Nat.succ_lt_succ hlength
      refine ⟨_, hgrows, .inr ?_, fun hfalse ↦ absurd (hstretch.symm.trans hfalse) (by decide),
        hinside, hgrows.held hkept hafter, ?_⟩
      · change table.slotsPerCluster * ((table.clusters ++ [ncl]).length - 1) ≤ slot + 1
        rw [List.length_append, List.length_singleton, Nat.add_sub_cancel]
        exact slots_le_of_last hcluster hend
      rw [(@DirTable.succ_new (table.stretched hfree) slot hcluster).1]
      change ncl = (table.clusters ++ [ncl]).getD (slot / table.slotsPerCluster + 1) 0
      rw [List.getD_append_right _ _ _ _ (not_lt.mp hend),
        Nat.sub_eq_zero_of_le (Nat.succ_le_of_lt hlength)]
      rfl
    · intro _
      refine endOfTable_spec (fun _ ↦ ?_) hkept hon
      have hcount := (succ_lt_iff hcluster hlimit).not.mpr hend
      omega
  · intro hnext
    rw [not_not] at hnext
    refine ⟨table, .refl table, .inl rfl, fun _ ↦ rfl,
      (succ_lt_iff hcluster hlimit).mpr hnext, hkept, ?_⟩
    rw [hclst, (succ_new hcluster).1]
    exact (table.chain.next _ hnext).1

/-- `dir_next` goes to the next entry. An object without the sector of its entry gets one if the
next entry is in another cluster only. -/
theorem dirNext_of_onSlot (hheld : table.Held device pdrv dp state)
    (hon : OnSlot table slot state.dp) :
    (dirNext io pdrv stretch).wp
      (fun _ after ↦ ∃ next : DirTable, table.Grows next ∧ table.UsesLast next (slot + 1) ∧
        (stretch = false → next = table) ∧ slot + 1 < next.count ∧
        next.Held device pdrv dp after ∧
        (state.dp.sect = table.sector slot → AtSlot next (slot + 1) after.dp))
      (NoNextEntry device pdrv dp table stretch slot) state := by
  have hlimit := (slot_lt hslot).2
  have hcsize : state.volume.fs.csize = table.fs.csize :=
    hheld.shows.part FatFs.csize fun _ _ ↦ rfl
  have hsectors : clst2sect state.volume.fs = clst2sect table.fs :=
    hheld.shows.part clst2sect fun _ _ ↦ rfl
  have hnonzero : table.cluster slot ≠ 0 := by
    intro hzero
    have hlow := ((table.geometry.fatx.accepted_iff _).mp (DirTable.accepted hslot)).1
    rw [hzero] at hlow
    exact absurd hlow (by decide)
  rw [dirNext, wp_bind, wp_gets, id_eq, hon.dptr, offset_succ, hon.clust,
    wp_bind, wp_ite, offset_mod_eq_zero_iff hlimit]
  constructor
  · intro hsector
    simp only [dirNextSector, modifyDir, wp_bind, wp_modify, if_neg hnonzero, hcsize, hsectors]
    rw [wp_ite, limit_le_offset_iff hlimit]
    refine ⟨fun hend ↦ endOfTable_spec (fun _ ↦ ?_) (hheld.withDir rfl rfl rfl)
      ⟨hon.dptr, hon.clust⟩, fun hmore ↦ ?_⟩
    · rw [DirTable.count] at hslot ⊢
      omega
    rw [wp_ite, offset_cluster_iff hlimit table hsector]
    constructor
    · intro hcluster
      rw [wp_bind]
      refine wp_mono (dirNextCluster_spec hsound stretch hslot hcluster (by omega)
        (hheld.withDir rfl rfl rfl) ⟨hon.dptr, hon.clust⟩) ?_ fun _ _ hnone ↦ hnone
      rintro clst after ⟨next, hgrows, huses, hsame, hinside, hafter, hclst⟩
      refine ⟨next, hgrows, huses, hsame, hinside, hafter.withDir rfl rfl rfl,
        fun _ ↦ ⟨⟨rfl, hclst⟩, ?_⟩⟩
      rw [(succ_new (hgrows.slots ▸ hcluster)).2, hgrows.leaves.sectors, ← hclst]
    · intro hcluster
      obtain ⟨hsame, hnext⟩ := succ_cluster hsector hcluster
      refine ⟨table, .refl table, .inl rfl, fun _ ↦ rfl, succ_lt hslot hcluster,
        hheld.withDir rfl rfl rfl, fun hsect ↦ ⟨⟨rfl, hon.clust.trans hsame.symm⟩, ?_⟩⟩
      rw [hnext, ← hsect]
  · intro hsector
    obtain ⟨hsame, hnext⟩ := @DirTable.succ_sector table slot hsector
    exact ⟨table, .refl table, .inl rfl, fun _ ↦ rfl,
      succ_lt hslot (table.mod_slots_ne_zero hsector), hheld.withDir rfl rfl rfl,
      fun hsect ↦ ⟨⟨rfl, hon.clust.trans hsame.symm⟩, hsect.trans hnext.symm⟩⟩

theorem dirNext_spec (hheld : table.Held device pdrv dp state) (hat : AtSlot table slot state.dp) :
    (dirNext io pdrv stretch).wp
      (fun _ after ↦ ∃ next : DirTable, table.Grows next ∧ table.UsesLast next (slot + 1) ∧
        (stretch = false → next = table) ∧ slot + 1 < next.count ∧
        next.Held device pdrv dp after ∧
        AtSlot next (slot + 1) after.dp)
      (NoNextEntry device pdrv dp table stretch slot) state := by
  refine wp_mono (dirNext_of_onSlot hsound stretch hslot hheld hat.toOnSlot) ?_
    fun _ _ hnone ↦ hnone
  rintro _ after ⟨next, hgrows, huses, hsame, hnext, hafter, hmoved⟩
  exact ⟨next, hgrows, huses, hsame, hnext, hafter, hmoved hat.sect⟩

end

end

end XBlast.Fatx
