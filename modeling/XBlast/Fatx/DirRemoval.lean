import XBlast.Fatx.NewDirectory

/-!
# Removing directories

`f_unlink` removes a directory if `dir_read` finds nothing in it. `dir_read` takes an entry for the
end of the table if its length is 0xFF, and `dir_clear` fills a new table with zeros: so it finds
an entry that was never used, and a directory is only taken for empty if each of its entries was
used and deleted (`DirRun.allDeleted_iff`).
-/

set_option autoImplicit false
set_option relaxedAutoImplicit false

namespace XBlast.Fatx

open Foundation Disk Program List DirTable

variable {δ : Type}

/-! ### Tables in which `dir_read` finds nothing -/

/-- An entry as the operations leave it in a table of zeros: deleted, or with a length that a name
can have and no attributes. -/
def PlainEntry (entry : Bytes) : Prop :=
  entry Dirx.nameLgth = ddem ∨
    (entry Dirx.nameLgth).toNat ≤ fatxFilenameMax ∧ entry Dirx.attr = 0

/-- Every entry of a table is deleted. -/
def DirTable.AllDeleted (table : DirTable) : Prop :=
  table.Every fun entry ↦ entry Dirx.nameLgth = ddem

section

variable {entry : Bytes}

theorem plainEntry_kept : KeptByOps PlainEntry where
  congr := fun hplain hsame ↦ by
    rw [PlainEntry, ← hsame Dirx.nameLgth (by decide), ← hsame Dirx.attr (by decide)]
    exact hplain
  zero := fun hzero ↦ by
    right
    rw [hzero Dirx.nameLgth (by decide), hzero Dirx.attr (by decide)]
    decide
  new := fun {dp name} hname ↦ by
    have hle := registeredLength_le hname
    refine .inr ⟨?_, rfl⟩
    change (UInt8.ofNat (registeredLength dp)).toNat ≤ fatxFilenameMax
    rwa [UInt8.toNat_ofNat_of_lt' (lt_of_le_of_lt hle (by decide))]
  deleted := .inl

theorem PlainEntry.goesOn (hplain : PlainEntry entry) : entry Dirx.nameLgth ≠ 0xFF := by
  intro hmark
  rcases hplain with hdeleted | ⟨hle, -⟩
  · rw [hmark] at hdeleted
    exact absurd hdeleted (by decide)
  · rw [hmark] at hle
    exact absurd hle (by decide)

theorem PlainEntry.shown_iff (hplain : PlainEntry entry) :
    isShown false entry = true ↔ entry Dirx.nameLgth ≠ ddem := by
  rw [isShown, decide_eq_true_iff]
  constructor
  · exact fun hshown ↦ hshown.1
  · intro hlive
    obtain ⟨hle, hattr⟩ := hplain.resolve_left hlive
    refine ⟨hlive, fun hdot ↦ ?_, ?_⟩
    · rw [hdot] at hle
      exact absurd hle (by decide)
    · rw [hattr]
      decide

end

/-! ### Entries of marked names -/

/-- An entry that is not in use and cannot be taken: the length of its name is zero, and the name is
not. -/
def StubEntry (entry : Bytes) : Prop :=
  entry Dirx.nameLgth = 0 ∧ isFree entry = false

section

variable {op : DirOp} {history : List DirOp} {table next final : DirTable} {path : List UInt8}

theorem StubEntry.congr {entry other : Bytes} (hstub : StubEntry entry)
    (hsame : ∀ index < 64, entry index = other index) : StubEntry other :=
  ⟨hsame Dirx.nameLgth (by decide) ▸ hstub.1, isFree_congr hsame ▸ hstub.2⟩

theorem stubEntry_newEntry {dp : Dir} {name : List UInt8} (hname : dp.HasName name)
    (hmark : StartsDeleted name) :
    StubEntry (newEntry (UInt8.ofNat (registeredLength dp)) dp.fnx) := by
  have hpadded : StartsDeleted (paddedName name) := by
    rw [StartsDeleted, paddedName, head?_append, hmark]
    rfl
  rw [registeredLength_eq hname, if_pos hmark, hname.fnx, storedName_of_startsDeleted hpadded]
  exact ⟨rfl, rfl⟩

/-- The entry of a marked name stays. -/
theorem DirStep.stub (hstep : DirStep op table next)
    (hstub : ∃ slot < table.count, StubEntry (table.entry slot)) :
    ∃ slot < next.count, StubEntry (next.entry slot) := by
  obtain ⟨slot, hslot, hentry⟩ := hstub
  cases hstep with
  | @create path rest last dp _ grown free stop hpath hname hmissing hgrows huses hfree =>
    have hgrown : slot < grown.count := lt_of_lt_of_le hslot hgrows.count
    have hkept := hentry.congr fun index hindex ↦ (hgrows.kept slot hslot index hindex).symm
    have hne : slot ≠ free := by
      rintro rfl
      exact Bool.false_ne_true (hkept.2.symm.trans hfree.free)
    exact ⟨slot, hgrown, hkept.congr fun index hindex ↦
      (register_entry_of_ne hfree dp hgrown hne hindex).symm⟩
  | @remove path dp _ found hname hfound =>
    have hne : slot ≠ found := by
      rintro rfl
      have hmatches := hfound.found
      rw [nameMatches_of_length (.inl hentry.1)] at hmatches
      exact Bool.false_ne_true hmatches
    exact ⟨slot, hslot, hentry.congr fun index hindex ↦
      (remove_entry_of_ne hfound.lt hslot hne hindex).symm⟩

theorem DirStep.stub_of_create (hstep : DirStep (.create path) table next)
    (hmark : StartsDeleted (segment path)) :
    ∃ slot < next.count, StubEntry (next.entry slot) := by
  cases hstep with
  | @create _ rest last dp _ grown free stop hpath hname hmissing hgrows huses hfree =>
    exact ⟨free, register_lt hfree dp, (stubEntry_newEntry hname hmark).congr
      fun index hindex ↦ (register_entry hfree dp hindex).symm⟩

theorem DirRun.stub (hrun : DirRun history table final)
    (hstub : (∃ slot < table.count, StubEntry (table.entry slot)) ∨
      ∃ path, DirOp.create path ∈ history ∧ StartsDeleted (segment path)) :
    ∃ slot < final.count, StubEntry (final.entry slot) := by
  induction hrun with
  | nil table =>
    refine hstub.resolve_right ?_
    rintro ⟨_, hmem, -⟩
    exact not_mem_nil hmem
  | cons hstep _ ih =>
    apply ih
    rcases hstub with hnow | ⟨path, hmem, hmark⟩
    · exact .inl (hstep.stub hnow)
    · rcases mem_cons.mp hmem with rfl | hrest
      · exact .inl (hstep.stub_of_create hmark)
      · exact .inr ⟨path, hrest, hmark⟩

end

/-! ### Directories that are taken for empty -/

section

variable {history : List DirOp} {table final : DirTable} {slots : List (Option (List UInt8))}
  {live : List (List UInt8)}

/-- Every place of the table was used, and no name is left. -/
theorem DirTable.Consistent.allDeleted_iff (hconsistent : table.Consistent slots live) :
    table.AllDeleted ↔ slots.length = table.count ∧ live = [] := by
  obtain ⟨⟨hle, hholds⟩, hperm, -⟩ := hconsistent
  constructor
  · intro hdeleted
    have hhole (slot : ℕ) (hslot : slot < table.count) : slots[slot]? = some none := by
      have hslotHolds := hholds slot hslot
      rcases hslots : slots[slot]? with _ | _ | name
      · rw [hslots] at hslotHolds
        have hends := hslotHolds.ends
        exact absurd (hdeleted slot hslot) hends.1
      · rfl
      · rw [hslots] at hslotHolds
        exact absurd (hdeleted slot hslot) (NamedEntry.length_ne hslotHolds (.inl (by decide)))
    have hholes : slots.reduceOption = [] := by
      refine (reduceOption_eq_nil_iff slots).mpr
        ⟨slots.length, eq_replicate_iff.mpr ⟨rfl, fun content hcontent ↦ ?_⟩⟩
      obtain ⟨slot, hslot, rfl⟩ := mem_iff_getElem.mp hcontent
      have hnone := hhole slot (lt_of_lt_of_le hslot hle)
      rwa [getElem?_eq_getElem hslot, Option.some_inj] at hnone
    refine ⟨le_antisymm hle (not_lt.mp fun hlt ↦ ?_), (hholes ▸ hperm).nil_eq.symm⟩
    have hnone := hhole slots.length hlt
    rw [getElem?_eq_none le_rfl] at hnone
    cases hnone
  · rintro ⟨hlength, rfl⟩ slot hslot
    obtain ⟨number, hslots⟩ := (reduceOption_eq_nil_iff slots).mp hperm.eq_nil
    have hslotHolds := hholds slot hslot
    rw [← hlength, hslots, length_replicate] at hslot
    rw [hslots, getElem?_replicate, if_pos hslot] at hslotHolds
    exact hslotHolds

/-- A table that has no more clusters than it needs is full exactly if the number of places in use
fills them. -/
theorem DirTable.Tight.eq_count_iff {used : ℕ} (htight : table.Tight used)
    (hle : used ≤ table.count) :
    used = table.count ↔ used ≠ 0 ∧ table.slotsPerCluster ∣ used := by
  have hpos := table.count_pos
  constructor
  · rintro rfl
    refine ⟨by omega, ?_⟩
    rw [count]
    rcases Nat.le_total (table.slotsPerCluster * table.clusters.length) 4096 with hfew | hmany
    · rw [min_eq_left hfew]
      exact Nat.dvd_mul_right _ _
    · rw [min_eq_right hmany]
      exact table.slots_dvd
  · rintro ⟨hused, turns, rfl⟩
    rw [count] at hle ⊢
    have hturns : table.clusters.length ≤ turns := by
      rcases htight with hsingle | hmore
      · rw [hsingle]
        exact pos_of_ne_zero (Nat.ne_zero_of_mul_ne_zero_right hused)
      · have := Nat.lt_of_mul_lt_mul_left hmore
        omega
    have := Nat.mul_le_mul_left table.slotsPerCluster hturns
    omega

/-- After any operations in a new directory, each of its entries is deleted exactly if no name is
left and the names that were there at the same time have filled its clusters. -/
theorem DirRun.allDeleted_iff (hrun : DirRun history table final)
    (hzero : ∀ slot < table.count, ∀ index < 64, table.entry slot index = 0)
    (hsingle : table.clusters.length = 1) :
    final.AllDeleted ↔ liveNames history = [] ∧ mostNames [] history ≠ 0 ∧
      table.slotsPerCluster ∣ mostNames [] history := by
  have hblank : table.Blank := .inl hzero
  by_cases hmarked : ∃ path, DirOp.create path ∈ history ∧ StartsDeleted (segment path)
  · obtain ⟨slot, hslot, hstub⟩ := hrun.stub (.inr hmarked)
    obtain ⟨path, hpath, hmark⟩ := hmarked
    have hlive : segment path ∈ liveNames history :=
      marked_mem_apply hmark (hrun.findsNoMark hblank.findsNoMark).2 (.inr ⟨path, hpath, rfl⟩)
    constructor
    · intro hdeleted
      have hlength : final.entry slot Dirx.nameLgth = ddem := hdeleted slot hslot
      rw [hstub.1] at hlength
      exact absurd hlength (by decide)
    · rintro ⟨hnone, -⟩
      rw [hnone] at hlive
      exact nomatch hlive
  · have hhistory (path : List UInt8) (hpath : DirOp.create path ∈ history) :
        ¬ StartsDeleted (segment path) := fun hmark ↦ hmarked ⟨path, hpath, hmark⟩
    obtain ⟨slots, hconsistent, hlength, htight⟩ := hrun.consistent hhistory hblank.consistent
    rw [length_nil, Nat.zero_max] at hlength
    have hfull := (htight (.inl hsingle)).eq_count_iff hconsistent.lists.length_le
    rw [hlength, hrun.changes.slots] at hfull
    rw [hconsistent.allDeleted_iff, hlength, hfull, and_comm]
    rfl

end

/-! ### `f_unlink` -/

section

variable {parent child next : DirTable} {slot : ℕ}

variable (hsubdir : Subdir parent child slot)

/-- The directory above is left alone by what happens in a directory. -/
theorem Subdir.apart_next (hsubdir : Subdir parent child slot) (hchanges : child.Changes next) :
    ∀ clst ∈ parent.clusters, clst ∉ next.clusters := by
  intro clst hclst hnext
  rcases hchanges.taken clst hnext with hold | hfree
  · exact hsubdir.apart clst hclst hold
  · rw [hsubdir.fs, hsubdir.content] at hfree
    exact hfree.not_mem hclst

theorem Subdir.leaves (hsubdir : Subdir parent child slot) (hchanges : child.Changes next) :
    Leaves next.clusters parent.fs parent.content next.fs next.content := by
  rw [← hsubdir.fs, ← hsubdir.content]
  exact hchanges.leaves

variable (hchanges : child.Changes next)

/-- The directory above, after a change in the directory. -/
def Subdir.parentOf : DirTable :=
  parent.carry (hsubdir.leaves hchanges) (hsubdir.apart_next hchanges)

theorem Subdir.parentOf_agrees : parent.Agrees (hsubdir.parentOf hchanges) :=
  carry_agrees _ _

theorem Subdir.change : Subdir (hsubdir.parentOf hchanges) next slot := by
  have hagrees := hsubdir.parentOf_agrees hchanges
  refine ⟨(carry_fs _ _).symm, (carry_content _ _).symm,
    hsubdir.apart_next hchanges, hagrees.count ▸ hsubdir.lt, ?_, ?_, ?_⟩
  · rw [hagrees.entry slot hsubdir.lt _ (by decide)]
    exact hsubdir.attr
  · rw [ldClust_congr (hagrees.entry slot hsubdir.lt), hchanges.start]
    exact hsubdir.clust
  · rw [hchanges.start]
    exact hsubdir.two_le

end

/-- What is expected of `f_unlink` for a directory with the first cluster `dcl` and some live
entries: it removes an empty directory and frees its chain, and refuses every other one and leaves
the volume as it is. -/
structure RemovesIfEmpty {io : DiskIo δ} (device : BlockDevice io) (pdrv : Drive) (cdir : UInt32)
    (files : List (UInt32 × UInt32)) (path : List UInt8) (live : List (List UInt8)) (dcl : UInt32)
    (state : DirState δ) : Prop where
  removes : live = [] → ∃ after, fUnlink io pdrv cdir files path state = (.ok (), after) ∧
    ∃ clusters, DirChain state.volume.fs (volumeContent device pdrv state.volume) clusters ∧
      clusters.getD 0 0 = dcl ∧ ∀ clst ∈ clusters,
        fatValue after.volume.fs (volumeContent device pdrv after.volume) clst = 0
  refuses : live ≠ [] → ∃ after, fUnlink io pdrv cdir files path state = (.error .denied, after) ∧
    volumeContent device pdrv after.volume = volumeContent device pdrv state.volume

section

variable {io : DiskIo δ} {device : BlockDevice io} {pdrv : Drive} {fs : FatFs}
  {content : Bytes} {state : VolumeState δ}

theorem Shows.layout (hshows : Shows device pdrv fs content state) :
    state.fs.layout = fs.layout :=
  hshows.part FatFs.layout fun _ _ ↦ rfl

theorem Shows.leaves (hshows : Shows device pdrv fs content state) :
    Leaves [] fs content state.fs (volumeContent device pdrv state) := by
  rw [hshows.bytes]
  exact ⟨hshows.layout, fun _ _ _ _ _ ↦ rfl, fun _ _ _ ↦ rfl⟩

end

section

variable {io : DiskIo δ} {device : BlockDevice io} (hsound : ¬ device.faulty) {pdrv : Drive}
  {parent child : DirTable} {target : UInt32} {name : List UInt8} {above : List UInt32}
  {slot : ℕ} {cdir : UInt32} {path : List UInt8} {files : List (UInt32 × UInt32)}
  {state : DirState δ}

include hsound

/-- `f_unlink` takes a directory for empty if each of its entries is deleted. -/
theorem expectEmpty_spec (dp : Dir) {dclst : UInt32} (hdclst : dclst = child.clusters.getD 0 0)
    (hplain : child.Every PlainEntry)
    (hshows : Shows device pdrv child.fs child.content state.volume) :
    (expectEmpty io pdrv dp dclst).wp
      (fun _ after ↦ child.AllDeleted ∧ after.dp = state.dp ∧
        Shows device pdrv child.fs child.content after.volume)
      (fun code after ↦ code = .denied ∧ ¬ child.AllDeleted ∧
        Shows device pdrv child.fs child.content after.volume) state := by
  have hheld : child.Held device pdrv { dp with sclust := dclst }
      { state with dp := { dp with sclust := dclst } } := by
    refine ⟨hshows, ?_, rfl, rfl, rfl⟩
    rw [Dir.startCluster, hdclst]
    exact if_neg child.first_ne_zero
  rw [expectEmpty, onDir, wp_onPart, wp_bind]
  refine wp_safe (dirSdi_spec hheld) ?_
  rintro _ opened ⟨hopened, hat⟩
  refine wp_ifNoFile (wp_mono
    (dirRead_spec hsound false child.count_pos hopened hat) ?_ ?_)
  · rintro _ read ⟨hread, shown, hshown, -⟩
    refine ⟨rfl, fun hdeleted ↦ ?_, hread.shows⟩
    exact ((hplain shown hshown.lt).shown_iff.mp hshown.shown) (hdeleted shown hshown.lt)
  · rintro code read ⟨rfl, hread, ⟨last, hnothing⟩, -⟩
    refine ⟨fun _ ↦ ⟨fun index hindex ↦ ?_, rfl, hread.shows⟩, fun hcode ↦ absurd rfl hcode⟩
    have hlast : last = child.count := by
      by_contra hne
      have hinside := lt_of_le_of_ne hnothing.last_le hne
      exact (hplain last hinside).goesOn (hnothing.ends.resolve_left hne)
    have hhidden := (hnothing.before index (Nat.zero_le _) (hlast ▸ hindex)).hidden
    by_contra hlive
    rw [(hplain index hindex).shown_iff.mpr hlive] at hhidden
    cases hhidden

/-- The entry of an empty directory is deleted and its clusters are freed. -/
theorem removeDirectory_spec (hsubdir : Subdir parent child slot)
    (hheld : parent.Held device pdrv state.dp state) (hat : AtSlot parent slot state.dp) :
    (dirRemove io pdrv >>= fun _ ↦
      (if child.clusters.getD 0 0 ≠ 0
        then onVolume (removeChain io pdrv (child.clusters.getD 0 0) 0) else pure ()) >>= fun _ ↦
      onVolume (syncFs io pdrv)).wp
      (fun _ after ↦ after.volume.fs.layout = parent.fs.layout ∧ ∀ clst ∈ child.clusters,
        fatValue parent.fs (volumeContent device pdrv after.volume) clst = 0)
      (fun _ _ ↦ False) state := by
  rw [wp_bind]
  refine wp_safe (dirRemove_spec hsound hsubdir.lt hheld hat) ?_
  intro _ removed hremoved
  have hleaves := (remove_changes hsubdir.lt).leaves
  rw [← hsubdir.fs, ← hsubdir.content] at hleaves
  have hchain := child.chain.carry hleaves fun clst hclst hmem ↦ hsubdir.apart clst hmem hclst
  have hgeometry := (parent.remove hsubdir.lt).geometry
  rw [if_pos child.first_ne_zero, wp_bind, onVolume, wp_onPart]
  refine wp_safe (removeChain_spec hsound hgeometry hchain hsubdir.two_le hremoved.shows)
    ?_
  rintro _ freed ⟨fs', content', hfreed, hchanged, hzero⟩
  have hfats : fs'.nFats ≠ 2 := (hgeometry.of_layout hchanged.layout).nFats
  rw [onVolume, wp_onPart]
  refine wp_safe (syncFs_spec hsound hfats hfreed) ?_
  rintro _ after ⟨hafter, -⟩
  rw [hafter.bytes]
  exact ⟨hafter.layout.trans hchanged.layout, hzero⟩

section

variable
  (hleads : Leads parent target name (pathStart cdir path) (path.dropWhile isSeparator) above)
  (hshows : Shows device pdrv parent.fs parent.content state.volume)

include hleads hshows

section

variable (hsubdir : Subdir parent child slot)
  (hfound : FoundAt parent (storedName (paddedName name)) slot)
  (hplain : child.Every PlainEntry) (hfiles : (target, UInt32.ofNat (64 * slot)) ∉ files)
  (hcdir : child.clusters.getD 0 0 ≠ cdir)

include hsubdir hfound hplain hfiles hcdir

/-- `f_unlink` of a directory whose entry is found. -/
theorem fUnlink_spec :
    (fUnlink io pdrv cdir files path).wp
      (fun _ after ↦ child.AllDeleted ∧ after.volume.fs.layout = parent.fs.layout ∧
        ∀ clst ∈ child.clusters,
          fatValue parent.fs (volumeContent device pdrv after.volume) clst = 0)
      (fun code after ↦ code = .denied ∧ ¬ child.AllDeleted ∧
        Shows device pdrv parent.fs parent.content after.volume) state := by
  rw [fUnlink, wp_bind]
  refine wp_mono (followPath_spec hsound hleads hshows) ?_ ?_
  · rintro _ named ⟨hflag, other, hother⟩
    have hsame : other = slot := hother.found.unique (hother.named.fnx ▸ hfound)
    subst hsame
    have hattr : named.dp.attr = amDir := by
      rw [hother.attr, hsubdir.attr]
      rfl
    have hdclst : ldClust named.entry = child.clusters.getD 0 0 :=
      (ldClust_congr (hother.loaded.entry_eq hfound.lt hother.held.shows)).trans hsubdir.clust
    have hchild : Shows device pdrv child.fs child.content named.volume := by
      rw [hsubdir.fs, hsubdir.content]
      exact hother.held.shows
    rw [wp_bind, chkLock, wp_bind, wp_gets, wp_stopIf]
    refine ⟨fun hlocked ↦ ?_, fun _ ↦ ?_⟩
    · rw [hother.target, hother.loaded.dptr] at hlocked
      exact absurd hlocked hfiles
    rw [wp_bind, wp_gets, id_eq, wp_bind, wp_stopIf, hflag, hattr, hdclst]
    refine ⟨fun hnoname ↦ absurd (show nsLast &&& nsNoname = 0 by decide) hnoname, fun _ ↦ ?_⟩
    rw [wp_bind, wp_stopIf]
    refine ⟨fun hreadOnly ↦ absurd (show amDir &&& amRdo = 0 by decide) hreadOnly, fun _ ↦ ?_⟩
    rw [wp_bind, if_pos (show amDir &&& amDir ≠ 0 by decide), if_neg hcdir]
    refine wp_mono (expectEmpty_spec hsound named.dp rfl hplain hchild) ?_ ?_
    · rintro _ tested ⟨hdeleted, hdp, htested⟩
      rw [hsubdir.fs, hsubdir.content] at htested
      have hheld : parent.Held device pdrv tested.dp tested := by
        rw [hdp]
        exact ⟨htested, hother.held.start, congrArg _ hdp, congrArg _ hdp, congrArg _ hdp⟩
      refine wp_safe (removeDirectory_spec hsound hsubdir hheld (hdp ▸ hother.loaded.toAtSlot))
        ?_
      exact fun _ after hafter ↦ ⟨hdeleted, hafter⟩
    · rintro code tested ⟨hcode, hlive, htested⟩
      rw [hsubdir.fs, hsubdir.content] at htested
      exact ⟨hcode, hlive, htested⟩
  · rintro code missed ⟨-, hmissing⟩
    obtain ⟨last, hlast⟩ := hmissing.missing
    rw [hmissing.named.fnx] at hlast
    exact (hfound.not_missing hlast).elim

/-- The expectation is met if `f_unlink` takes the directory for empty whenever it is. -/
theorem removesIfEmpty_iff {live : List (List UInt8)} {full : Prop} {dcl : UInt32}
    (hdcl : dcl = child.clusters.getD 0 0) (hdeleted : child.AllDeleted ↔ live = [] ∧ full) :
    RemovesIfEmpty device pdrv cdir files path live dcl state ↔ live ≠ [] ∨ full := by
  have hunlink := fUnlink_spec hsound hleads hshows hsubdir hfound hplain hfiles hcdir
  rcases hrun : fUnlink io pdrv cdir files path state with ⟨code | ⟨⟩, after⟩
  · obtain ⟨rfl, hlive, hafter⟩ := wp_error hunlink hrun
    rw [hdeleted] at hlive
    constructor
    · intro hremoves
      by_contra hnot
      obtain ⟨_, hok, -⟩ := hremoves.removes (not_not.mp (not_or.mp hnot).1)
      rw [hrun] at hok
      cases hok
    · intro hfull
      refine ⟨fun hempty ↦ ?_, fun _ ↦ ⟨after, hrun, hafter.bytes.trans hshows.bytes.symm⟩⟩
      exact absurd ⟨hempty, hfull.resolve_left fun hne ↦ hne hempty⟩ hlive
  · obtain ⟨hall, hlayout, hzero⟩ := wp_ok hunlink hrun
    obtain ⟨hempty, hfull⟩ := hdeleted.mp hall
    refine ⟨fun _ ↦ .inr hfull, fun _ ↦ ⟨fun _ ↦ ?_, fun hne ↦ absurd hempty hne⟩⟩
    have hleaves := hshows.leaves
    rw [← hsubdir.fs, ← hsubdir.content] at hleaves
    refine ⟨after, hrun, child.clusters, child.chain.carry hleaves fun _ _ ↦ not_mem_nil,
      hdcl.symm, fun clst hclst ↦ ?_⟩
    have hvalue : fatValue after.volume.fs = fatValue parent.fs :=
      part_of_layout hlayout fatValue fun _ ↦ rfl
    rw [hvalue]
    exact hzero clst hclst

end

/-- `f_unlink` of a directory whose entry is not found. -/
theorem fUnlink_missing (hnone : ∀ found, ¬ FoundAt parent (storedName (paddedName name)) found) :
    (fUnlink io pdrv cdir files path).wp (fun _ _ ↦ False) (fun code _ ↦ code = .noFile) state := by
  rw [fUnlink, wp_bind]
  refine wp_mono (followPath_spec hsound hleads hshows) ?_ fun _ _ hmissed ↦ hmissed.1
  rintro _ named ⟨-, found, hfound⟩
  exact (hnone found (hfound.named.fnx ▸ hfound.found)).elim

end

end

/-! ### Directories that were made -/

section

variable {parent made child final : DirTable} {name : List UInt8} {slot : ℕ}
  {history : List DirOp}

section

variable (hmade : Made parent name made child slot)

include hmade

theorem Made.slots : child.slotsPerCluster = parent.slotsPerCluster := by
  obtain ⟨owned, -, htakes⟩ := hmade.takes
  rw [DirTable.slotsPerCluster, hmade.fs, htakes.csize]
  rfl

theorem Made.plain (hrun : DirRun history child final) : final.Every PlainEntry :=
  hrun.every plainEntry_kept fun index hindex ↦ plainEntry_kept.zero (hmade.zero index hindex)

/-- A path to the new directory still leads there after changes in this directory. -/
theorem Made.leads (hchanges : child.Changes final) {target sclust : UInt32} {path : List UInt8}
    {above : List UInt32} (hleads : Leads parent target name sclust path above)
    (habove : ∀ clst ∈ above, clst ∉ parent.clusters) :
    Leads (hmade.parentOf hchanges) target name sclust path above := by
  obtain ⟨owned, howned, htakes⟩ := hmade.takes
  have hafter := hchanges.takes howned
  rw [hmade.fs, hmade.content] at hafter
  have hall := htakes.trans parent.geometry.fatx hafter
  refine hleads.transfer hall.toLeaves hmade.start fun clst hclst hmem ↦ ?_
  exact (hall.taken clst hmem).elim (habove clst hclst) (hleads.not_free hclst)

end

end

/-- A directory was made by `f_mkdir` and any entries were created and deleted in it. Then
`f_unlink` removes it if it is empty, and refuses to if it is not, exactly under three conditions:
its name does not start with the character 0xE5, no entry hides it, and it is not empty or the
names that were in it at the same time have filled its clusters. -/
theorem fUnlink_made_iff {io : DiskIo δ} (device : BlockDevice io) (hsound : ¬ device.faulty)
    (pdrv : Drive) (parent : DirTable) (target : UInt32) (name : List UInt8) (start : DirState δ)
    (hshows : Shows device pdrv parent.fs parent.content start.volume)
    (origin : UInt32) (newPath : List UInt8) (passed : List UInt32)
    (hnew : Leads parent target name (pathStart origin newPath) (newPath.dropWhile isSeparator)
      passed)
    (made : DirState δ) (hmade : fMkdir io pdrv origin newPath start = (.ok (), made))
    (history : List DirOp) (used : DirState δ)
    (hrun : performAll io pdrv history
      { made with dp := { made.dp with sclust := ldClust made.entry } } = (.ok (), used))
    (cdir : UInt32) (path : List UInt8) (above : List UInt32)
    (hleads : Leads parent target name (pathStart cdir path) (path.dropWhile isSeparator) above)
    (habove : ∀ clst ∈ above, clst ∉ parent.clusters) (hcdir : ldClust made.entry ≠ cdir)
    (files : List (UInt32 × UInt32)) (hfiles : (made.dp.sclust, made.dp.dptr) ∉ files) :
    RemovesIfEmpty device pdrv cdir files path (liveNames history) (ldClust made.entry) used ↔
      ¬ StartsDeleted name ∧ ¬ parent.HidesNew ∧ (liveNames history ≠ [] ∨
        mostNames [] history ≠ 0 ∧ parent.slotsPerCluster ∣ mostNames [] history) := by
  obtain ⟨table, child, slot, htable, hheld, hloaded, htarget⟩ :=
    wp_ok (fMkdir_spec hsound hnew hshows) hmade
  have hdcl : ldClust made.entry = child.clusters.getD 0 0 :=
    (ldClust_congr (hloaded.entry_eq htable.lt hheld.shows)).trans htable.clust
  have hchild : child.Held device pdrv { made.dp with sclust := ldClust made.entry }
      { made with dp := { made.dp with sclust := ldClust made.entry } } := by
    refine ⟨?_, ?_, rfl, rfl, rfl⟩
    · rw [htable.fs, htable.content]
      exact hheld.shows
    · rw [Dir.startCluster, hdcl]
      exact if_neg child.first_ne_zero
  obtain ⟨final, hfinal, hused⟩ := wp_ok (performAll_spec hsound history hchild) hrun
  have hsubdir := htable.change hfinal.changes
  have hpath := htable.leads hfinal.changes hleads habove
  have hagrees := htable.parentOf_agrees hfinal.changes
  have hvolume := hused.shows
  rw [hsubdir.fs, hsubdir.content] at hvolume
  have hdeleted := hfinal.allDeleted_iff htable.zero htable.single
  rw [htable.slots] at hdeleted
  rw [← hfinal.changes.start] at hdcl
  by_cases hfound : ¬ StartsDeleted name ∧ ¬ parent.HidesNew
  · have hslot := (htable.found hfound.1 hfound.2).agree hagrees
    rw [htarget, hloaded.dptr] at hfiles
    rw [removesIfEmpty_iff hsound hpath hvolume hsubdir hslot (htable.plain hfinal) hfiles
      (hdcl ▸ hcdir) hdcl hdeleted]
    exact ⟨fun hfull ↦ ⟨hfound.1, hfound.2, hfull⟩, fun hall ↦ hall.2.2⟩
  · have hnone (found : ℕ) :
        ¬ FoundAt (htable.parentOf hfinal.changes) (storedName (paddedName name)) found :=
      fun hslot ↦ hfound (htable.found_iff.mp ⟨found, hslot.agree hagrees.symm⟩)
    have hmissing : (fUnlink io pdrv cdir files path).wp _ _ used :=
      fUnlink_missing hsound hpath hvolume hnone
    refine ⟨fun hremoves ↦ ?_, fun hall ↦ absurd ⟨hall.1, hall.2.1⟩ hfound⟩
    exfalso
    by_cases hlive : liveNames history = []
    · obtain ⟨after, hok, -⟩ := hremoves.removes hlive
      exact wp_ok hmissing hok
    · obtain ⟨after, hdenied, -⟩ := hremoves.refuses hlive
      exact absurd (wp_error hmissing hdenied) (by decide)

theorem smallTable_opens : ¬ smallTable.HidesNew := by
  rintro ⟨slot, hslot, -, hused⟩
  have hfree : isFree (smallTable.entry slot) = true := by
    rw [isFree, decide_eq_true_eq]
    rcases smallTable_blank with hzero | hmark
    · exact .inr (hzero slot hslot Dirx.name (by decide))
    · left
      rw [hmark slot hslot Dirx.nameLgth (by decide)]
      decide
  exact absurd hfree (by rw [hused slot le_rfl]; decide)

theorem smallTable_leads :
    Leads smallTable 0 (ascii "A") (pathStart 0 (ascii "A"))
      ((ascii "A").dropWhile isSeparator) [] :=
  .last ⟨⟨by decide, by decide, by decide⟩, by decide, 0, rfl, rfl⟩ rfl rfl

/-- A directory with an entry is not removed. -/
theorem smallRoot_removesIfEmpty : ∃ made used,
    fMkdir ramDisk .master 0 (ascii "A") smallRoot = (.ok (), made) ∧
      performAll ramDisk .master [.create (ascii "x")]
        { made with dp := { made.dp with sclust := ldClust made.entry } } = (.ok (), used) ∧
      RemovesIfEmpty ramDevice .master 0 [] (ascii "A") [ascii "x"] (ldClust made.entry) used := by
  have hmade : fMkdir ramDisk .master 0 (ascii "A") smallRoot = (.ok (), _) :=
    run_eq_of_isOk (by decide +kernel)
  refine ⟨_, _, hmade, run_eq_of_isOk (by decide +kernel), ?_⟩
  refine (fUnlink_made_iff ramDevice id .master smallTable 0 (ascii "A") smallRoot
    smallTable_held.shows 0 (ascii "A") [] smallTable_leads _ hmade [.create (ascii "x")] _
    (run_eq_of_isOk (by decide +kernel)) 0 (ascii "A") [] smallTable_leads
    (nofun) (by decide +kernel) [] not_mem_nil).mpr ?_
  exact ⟨by decide, smallTable_opens, .inl (by decide)⟩

/-- The small volume after `f_mkdir` of the directory "A", with this directory opened. -/
def smallMade : DirState RamDisk :=
  let made := (fMkdir ramDisk .master 0 (ascii "A") smallRoot).2
  { made with dp := { made.dp with sclust := ldClust made.entry } }

/-- A new directory without entries is not removed: the code is that of a directory in use. -/
theorem smallRoot_not_removesIfEmpty : ∃ made used,
    fMkdir ramDisk .master 0 (ascii "A") smallRoot = (.ok (), made) ∧
      performAll ramDisk .master []
        { made with dp := { made.dp with sclust := ldClust made.entry } } = (.ok (), used) ∧
      ¬ RemovesIfEmpty ramDevice .master 0 [] (ascii "A") (liveNames []) (ldClust made.entry)
        used := by
  refine ⟨_, _, run_eq_of_isOk (by decide +kernel), rfl, fun hremoves ↦ ?_⟩
  obtain ⟨after, hok, -⟩ := hremoves.removes rfl
  have hdenied : (fUnlink ramDisk .master 0 [] (ascii "A") smallMade).1.isOk = false := by
    decide +kernel
  rw [smallMade, hok] at hdenied
  cases hdenied

end XBlast.Fatx
