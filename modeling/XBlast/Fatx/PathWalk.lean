import XBlast.Fatx.DirMap
import XBlast.Fatx.Paths

/-!
# Following a path

`Leads` says that a path leads to a name in a directory, through other directories of the same
volume. `follow_path` then looks for the name in that directory (`followPath_spec`). A path still
leads there when the volume was changed in other clusters than those of the directories above
(`Leads.transfer`).

`remove_chain` sets the entries of a chain in the FAT to zero (`removeChain_spec`).
-/

set_option autoImplicit false
set_option relaxedAutoImplicit false

namespace XBlast.Fatx

open Foundation Disk Program List DirTable

variable {δ : Type}

/-! ### A directory that was left alone -/

section

variable {owned clusters : List UInt32} {fs fs' : FatFs} {content content' : Bytes}

theorem DirChain.carry (hchain : DirChain fs content clusters)
    (hleaves : Leaves owned fs content fs' content') (hapart : ∀ clst ∈ clusters, clst ∉ owned) :
    DirChain fs' content' clusters := by
  obtain ⟨hpos, haccepted, hnodup, hnext, hlast⟩ := hchain.congr fun clst hclst ↦
    hleaves.entries clst (hchain.accepted clst hclst) (hapart clst hclst)
  refine ⟨hpos, ?_, hnodup, ?_, ?_⟩
  · rw [hleaves.accepted]
    exact haccepted
  · rw [hleaves.fatValue]
    exact hnext
  · rw [hleaves.fatValue, hleaves.nFatent]
    exact hlast

variable {table : DirTable} {slot : ℕ} {fnx : List UInt8}

/-- A directory on another state of its volume, in which its clusters were left alone. -/
def DirTable.carry (table : DirTable) (hleaves : Leaves owned table.fs table.content fs' content')
    (hapart : ∀ clst ∈ table.clusters, clst ∉ owned) : DirTable where
  fs := fs'
  content := content'
  clusters := table.clusters
  geometry := table.geometry.of_layout hleaves.layout
  chain := table.chain.carry hleaves hapart

variable (hleaves : Leaves owned table.fs table.content fs' content')
  (hapart : ∀ clst ∈ table.clusters, clst ∉ owned)

theorem carry_fs : (table.carry hleaves hapart).fs = fs' :=
  rfl

theorem carry_content : (table.carry hleaves hapart).content = content' :=
  rfl

/-- Two tables have the same entries. -/
structure DirTable.Agrees (table other : DirTable) : Prop where
  count : other.count = table.count
  entry : ∀ slot < table.count, ∀ index < 64, other.entry slot index = table.entry slot index

theorem DirTable.carry_agrees : table.Agrees (table.carry hleaves hapart) := by
  have hslots : (table.carry hleaves hapart).slotsPerCluster = table.slotsPerCluster :=
    congrArg (fun csize : UInt16 ↦ 8 * csize.toNat) hleaves.csize
  refine ⟨?_, fun slot hslot index hindex ↦ ?_⟩
  · rw [count, count, hslots]
    rfl
  · have hcluster : (table.carry hleaves hapart).cluster slot = table.cluster slot := by
      rw [cluster, cluster, hslots]
      rfl
    have hinside := Nat.mod_lt slot table.slots_pos
    have hbytes := hleaves.bytes _ (accepted hslot) (hapart _ (cluster_mem hslot))
      (64 * (slot % table.slotsPerCluster) + index) (by
        rw [slotsPerCluster] at hinside ⊢
        omega)
    change content' ((table.carry hleaves hapart).address slot + index) =
      table.content (table.address slot + index)
    rw [address, address, hcluster, hslots, add_assoc, add_assoc]
    change content' (512 * (clst2sect fs' (table.cluster slot)).toNat + _) = _
    rw [hleaves.sectors]
    exact hbytes

theorem DirTable.Agrees.symm {other : DirTable} (hagrees : table.Agrees other) :
    other.Agrees table :=
  ⟨hagrees.count.symm, fun slot hslot index hindex ↦
    (hagrees.entry slot (hagrees.count ▸ hslot) index hindex).symm⟩

theorem endsTable_congr {entry other : Bytes}
    (hsame : ∀ index < 64, entry index = other index) : EndsTable entry ↔ EndsTable other := by
  rw [EndsTable, EndsTable, hsame Dirx.nameLgth (by decide)]

theorem Passes.congr {entry other : Bytes} (hpasses : Passes fnx entry)
    (hsame : ∀ index < 64, entry index = other index) : Passes fnx other :=
  ⟨(endsTable_congr hsame).not.mp hpasses.goesOn, nameMatches_congr hsame fnx ▸ hpasses.differs⟩

variable {other : DirTable} (hagrees : table.Agrees other)

include hagrees

theorem FoundAt.agree (hfound : FoundAt table fnx slot) : FoundAt other fnx slot := by
  have hsame (index : ℕ) (hindex : index ≤ slot) (byte : ℕ) (hbyte : byte < 64) :
      table.entry index byte = other.entry index byte :=
    (hagrees.entry index (lt_of_le_of_lt hindex hfound.lt) byte hbyte).symm
  refine ⟨hagrees.count ▸ hfound.lt, fun index hindex ↦
    (hfound.before index hindex).congr (hsame index (le_of_lt hindex)), ?_⟩
  rw [← nameMatches_congr (hsame slot le_rfl)]
  exact hfound.found

end

/-! ### Paths that lead to a directory -/

/-- A path from the directory `sclust` leads to a name in `parent`, which is the directory `target`.
The clusters of the directories above are listed. -/
inductive Leads (parent : DirTable) (target : UInt32) (name : List UInt8) :
    UInt32 → List UInt8 → List UInt32 → Prop
  | last {path rest : List UInt8} (hpath : Segments path true rest) (hname : name = segment path)
      (hstart : rootOr parent.fs target = parent.clusters.getD 0 0) :
      Leads parent target name target path []
  | through {sclust : UInt32} {path rest : List UInt8} {above : List UInt32} (table : DirTable)
      (slot : ℕ) (hfs : table.fs = parent.fs) (hcontent : table.content = parent.content)
      (hpath : Segments path false rest)
      (hstart : rootOr table.fs sclust = table.clusters.getD 0 0)
      (hfound : FoundAt table (storedName (paddedName (segment path))) slot)
      (hdir : table.entry slot Dirx.attr &&& amDir ≠ 0)
      (hrest : Leads parent target name (ldClust (table.entry slot)) rest above) :
      Leads parent target name sclust path (table.clusters ++ above)

theorem ldClust_congr {entry other : Bytes} (hsame : ∀ index < 64, entry index = other index) :
    ldClust entry = ldClust other :=
  littleEndian32_congr fun index hindex ↦ hsame _ (by rw [Dirx.fstClus]; omega)

variable {target sclust : UInt32} {name path : List UInt8}

/-- A path leads to the same directory as long as the directories above are left alone. -/
theorem Leads.transfer {parent other : DirTable} {above owned : List UInt32}
    (hleads : Leads parent target name sclust path above)
    (hleaves : Leaves owned parent.fs parent.content other.fs other.content)
    (hfirst : other.clusters.getD 0 0 = parent.clusters.getD 0 0)
    (hapart : ∀ clst ∈ above, clst ∉ owned) : Leads other target name sclust path above := by
  induction hleads with
  | last hpath hname hstart =>
    refine .last hpath hname ?_
    rw [hfirst, ← hstart, rootOr, rootOr, hleaves.dirbase]
  | @through sclust path rest above table slot hfs hcontent hpath hstart hfound hdir hrest ih =>
    have hleaves' : Leaves owned table.fs table.content other.fs other.content := by
      rw [hfs, hcontent]
      exact hleaves
    have htable (clst : UInt32) (hclst : clst ∈ table.clusters) : clst ∉ owned :=
      hapart clst (mem_append_left above hclst)
    have hagrees := DirTable.carry_agrees hleaves' htable
    have hsame := hagrees.entry slot hfound.lt
    refine .through (table.carry hleaves' htable) slot rfl rfl hpath ?_ (hfound.agree hagrees) ?_
      ?_
    · rw [rootOr] at hstart ⊢
      exact hleaves'.dirbase ▸ hstart
    · rw [hsame _ (by decide)]
      exact hdir
    · rw [ldClust_congr hsame]
      exact ih fun clst hclst ↦ hapart clst (mem_append_right _ hclst)

/-- The clusters of the directories above are in use. -/
theorem Leads.not_free {parent : DirTable} {above : List UInt32}
    (hleads : Leads parent target name sclust path above) {clst : UInt32} (hclst : clst ∈ above) :
    ¬ FreeCluster parent.fs parent.content clst := by
  induction hleads with
  | last _ _ _ => exact nomatch hclst
  | through table slot hfs hcontent _ _ _ _ _ ih =>
    intro hfree
    rcases mem_append.mp hclst with hhere | hrest
    · rw [← hfs, ← hcontent] at hfree
      exact hfree.not_mem hhere
    · exact ih hrest hfree

/-! ### The end of a path -/

section

variable {table : DirTable} {fnx : List UInt8} {slot other : ℕ}

theorem FoundAt.not_passes (hfound : FoundAt table fnx slot) : ¬ Passes fnx (table.entry slot) :=
  fun hpasses ↦ Bool.false_ne_true (hpasses.differs.symm.trans hfound.found)

theorem FoundAt.unique (hfound : FoundAt table fnx slot) (hother : FoundAt table fnx other) :
    slot = other := by
  rcases Nat.lt_trichotomy slot other with hlt | heq | hgt
  · exact (hfound.not_passes (hother.before slot hlt)).elim
  · exact heq
  · exact (hother.not_passes (hfound.before other hgt)).elim

theorem EndsTable.nameMatches {entry : Bytes} (hends : EndsTable entry) :
    nameMatches fnx entry = false :=
  nameMatches_of_length hends.2.symm

theorem FoundAt.not_missing (hfound : FoundAt table fnx slot)
    (hmissing : MissingFrom table fnx other) : False := by
  rcases Nat.lt_trichotomy slot other with hlt | heq | hgt
  · exact hfound.not_passes (hmissing.before slot hlt)
  · have hends := hmissing.ends.resolve_left (heq ▸ ne_of_lt hfound.lt)
    have hmatches := hfound.found
    rw [heq, hends.nameMatches] at hmatches
    cases hmatches
  · have hends := hmissing.ends.resolve_left (ne_of_lt (lt_trans hgt hfound.lt))
    exact (hfound.before other hgt).goesOn hends

end

/-- The object is at the entry with a name. -/
structure NameFound {io : DiskIo δ} (device : BlockDevice io) (pdrv : Drive) (parent : DirTable)
    (target : UInt32) (name : List UInt8) (slot : ℕ) (after : DirState δ) : Prop where
  named : after.dp.HasName name
  target : after.dp.sclust = target
  held : parent.Held device pdrv after.dp after
  found : FoundAt parent after.dp.fnx slot
  loaded : LoadedAt parent slot after
  attr : after.dp.attr = parent.entry slot Dirx.attr &&& 0x3F

/-- The directory has no entry with the name of the object. -/
structure NameMissing {io : DiskIo δ} (device : BlockDevice io) (pdrv : Drive) (parent : DirTable)
    (target : UInt32) (name : List UInt8) (after : DirState δ) : Prop where
  named : after.dp.HasName name
  target : after.dp.sclust = target
  held : parent.Held device pdrv after.dp after
  missing : ∃ last, MissingFrom parent after.dp.fnx last

theorem copySegment_length {path sfn taken rest : List UInt8} {c : UInt8}
    (hcopy : copySegment path taken = .ok (sfn, c, rest)) : rest.length ≤ path.length - 1 := by
  induction path generalizing taken with
  | nil =>
    cases hcopy
    exact Nat.zero_le _
  | cons first path ih =>
    rw [copySegment] at hcopy
    split_ifs at hcopy
    · cases hcopy
      exact le_refl _
    · cases hcopy
      exact length_dropWhile_le _ _
    · exact (ih hcopy).trans (Nat.sub_le _ _)

theorem Segments.length_lt {path rest : List UInt8} {last : Bool}
    (hsegments : Segments path last rest) : rest.length < path.length := by
  obtain ⟨c, hcopy, -⟩ := hsegments.copied
  have hle := copySegment_length hcopy
  have hpos : path ≠ [] := by
    rintro rfl
    exact hsegments.valid.ne_nil rfl
  have := length_pos_of_ne_nil hpos
  omega

theorem Segments.not_origin {path rest : List UInt8} {last : Bool}
    (hsegments : Segments path last rest) : isOrigin path = false := by
  cases path with
  | nil => exact absurd rfl hsegments.valid.ne_nil
  | cons first path =>
    rw [isOrigin, head?_cons, Option.all_some, decide_eq_false_iff_not]
    intro hlow
    exact hsegments.valid.ne_nil (segment_cons_of_ends (.inl hlow))

theorem Leads.segments {parent : DirTable} {above : List UInt32}
    (hleads : Leads parent target name sclust path above) :
    ∃ last rest, Segments path last rest := by
  cases hleads with
  | last hpath _ _ => exact ⟨true, _, hpath⟩
  | through _ _ _ _ hpath _ _ _ _ => exact ⟨false, _, hpath⟩

section

variable {io : DiskIo δ} {device : BlockDevice io} (hsound : ¬ device.faulty) {pdrv : Drive}
  {parent : DirTable} {target : UInt32} {name : List UInt8} {above : List UInt32}
  {state : DirState δ}

include hsound

/-- One segment of a path: `dir_find` in the directory that the object is at. -/
theorem segment_spec {table : DirTable} {path rest : List UInt8} {last : Bool}
    (hpath : Segments path last rest)
    (hshows : Shows device pdrv table.fs table.content state.volume)
    (hstart : rootOr table.fs state.dp.sclust = table.clusters.getD 0 0) :
    (dirFind io pdrv).wp
      (fun _ after ↦ ∃ slot, NameFound device pdrv table state.dp.sclust (segment path) slot after ∧
        after.dp.nsxFlag = if last then nsLast else 0)
      (fun code after ↦ code = .noFile ∧
        NameMissing device pdrv table state.dp.sclust (segment path) after)
      { state with dp := state.dp.withName (segment path) last } := by
  have hheld : table.Held device pdrv (state.dp.withName (segment path) last)
      { state with dp := state.dp.withName (segment path) last } :=
    ⟨hshows, hstart, rfl, rfl, rfl⟩
  have hnamed {after : DirState δ}
      (hafter : table.Held device pdrv (state.dp.withName (segment path) last) after) :
      after.dp.HasName (segment path) := by
    obtain ⟨hvalid, hfnx, hflag⟩ := state.dp.hasName_withName hpath.valid last
    exact ⟨hvalid, hafter.fnx.trans hfnx, hafter.nsxFlag ▸ hflag⟩
  refine wp_mono (dirFind_spec hsound hheld) ?_ ?_
  · rintro _ after ⟨hafter, slot, hfound, hloaded, hattr⟩
    refine ⟨slot, ⟨hnamed hafter, hafter.sclust, hafter.self, ?_, hloaded, hattr⟩, hafter.nsxFlag⟩
    rw [hafter.fnx]
    exact hfound
  · rintro code after ⟨hcode, hafter, missing, hmissing⟩
    refine ⟨hcode, hnamed hafter, hafter.sclust, hafter.self, missing, ?_⟩
    rw [hafter.fnx]
    exact hmissing

theorem followLoop_spec {sclust : UInt32} {path : List UInt8}
    (hleads : Leads parent target name sclust path above) {turns : ℕ}
    (hturns : path.length < turns)
    (hshows : Shows device pdrv parent.fs parent.content state.volume)
    (hsclust : state.dp.sclust = sclust) :
    (followLoop io pdrv turns path).wp
      (fun _ after ↦ after.dp.nsxFlag = nsLast ∧
        ∃ slot, NameFound device pdrv parent target name slot after)
      (fun code after ↦ code = .noFile ∧ NameMissing device pdrv parent target name after)
      state := by
  induction hleads generalizing turns state with
  | @last path rest hpath hname hstart =>
    obtain ⟨turns, rfl⟩ := Nat.exists_eq_add_one_of_ne_zero (Nat.ne_zero_of_lt hturns)
    rw [followLoop, wp_bind_of_ok (hpath.createName state), wp_bind, wp_gets, wp_bind, wp_mapError]
    refine wp_mono (segment_spec hsound hpath hshows (hsclust ▸ hstart)) ?_ ?_
    · rintro _ after ⟨slot, hfound, hflag⟩
      rw [hsclust, ← hname] at hfound
      refine (wp_ite _ _).mpr ⟨fun _ ↦ ⟨hflag, slot, hfound⟩, fun hlast ↦ ?_⟩
      exact (hlast (show nsLast &&& nsLast ≠ 0 by decide)).elim
    · rintro code after ⟨rfl, hmissing⟩
      rw [hsclust, ← hname] at hmissing
      exact ⟨if_neg fun hlast ↦ absurd hlast.2 (show ¬ nsLast &&& nsLast = 0 by decide), hmissing⟩
  | @through sclust path rest above table slot hfs hcontent hpath hstart hfound hdir hrest ih =>
    obtain ⟨turns, rfl⟩ := Nat.exists_eq_add_one_of_ne_zero (Nat.ne_zero_of_lt hturns)
    rw [followLoop, wp_bind_of_ok (hpath.createName state), wp_bind, wp_gets, wp_bind, wp_mapError]
    have hshows' : Shows device pdrv table.fs table.content state.volume := by
      rw [hfs, hcontent]
      exact hshows
    refine wp_mono (segment_spec hsound hpath hshows' (hsclust ▸ hstart)) ?_ ?_
    · rintro _ after ⟨other, hother, -⟩
      have hsame : other = slot := hother.found.unique (hother.named.fnx ▸ hfound)
      subst hsame
      have hlow : after.dp.attr &&& amDir ≠ 0 := by
        rw [hother.attr, UInt8.and_assoc]
        exact hdir
      have hcluster : ldClust after.entry = ldClust (table.entry other) :=
        ldClust_congr (hother.loaded.entry_eq hfound.lt hother.held.shows)
      have hnext : Shows device pdrv parent.fs parent.content after.volume := by
        rw [← hfs, ← hcontent]
        exact hother.held.shows
      have hrestLength := hpath.length_lt
      refine (wp_ite _ _).mpr
        ⟨fun hlast ↦ absurd (show 0 &&& nsLast = 0 by decide) hlast, fun _ ↦ ?_⟩
      rw [wp_bind, wp_gets, id_eq, if_neg hlow, wp_bind, modifyDir, wp_modify]
      exact ih (by omega) hnext hcluster
    · rintro code after ⟨-, hmissing⟩
      obtain ⟨last, hlast⟩ := hmissing.missing
      rw [hmissing.named.fnx] at hlast
      exact (hfound.not_missing hlast).elim

/-- `follow_path` looks for the name in the directory that the path leads to. -/
theorem followPath_spec {cdir : UInt32} {path : List UInt8}
    (hleads : Leads parent target name (pathStart cdir path) (path.dropWhile isSeparator) above)
    (hshows : Shows device pdrv parent.fs parent.content state.volume) :
    (followPath io pdrv cdir path).wp
      (fun _ after ↦ after.dp.nsxFlag = nsLast ∧
        ∃ slot, NameFound device pdrv parent target name slot after)
      (fun code after ↦ code = .noFile ∧ NameMissing device pdrv parent target name after)
      state := by
  obtain ⟨last, rest, hsegments⟩ := hleads.segments
  have horigin : ¬ isOrigin (path.dropWhile isSeparator) = true :=
    Bool.not_eq_true _ ▸ hsegments.not_origin
  rw [followPath, wp_bind, modifyDir, wp_modify]
  exact (wp_ite _ _).mpr ⟨fun hempty ↦ absurd hempty horigin,
    fun _ ↦ followLoop_spec hsound hleads (Nat.lt_succ_self _) hshows rfl⟩

end

/-! ### Chains that are given back -/

theorem FatFs.giveCluster_layout (fs : FatFs) : fs.giveCluster.layout = fs.layout := by
  rw [giveCluster]
  split_ifs
  · rfl
  · rfl

theorem FatFs.giveCluster_withWindow (fs other : FatFs) :
    (fs.withWindow other).giveCluster = fs.giveCluster.withWindow other := by
  rw [giveCluster, giveCluster, apply_ite fun fs : FatFs ↦ fs.withWindow other]
  rfl

section

variable {fs : FatFs} {content : Bytes} {clst next : UInt32} {clusters : List UInt32}

/-- A cluster is free. -/
theorem giveCluster_leaves (hgeometry : DirGeometry fs) (hclst : Accepted fs clst) :
    Leaves [clst] fs content fs.giveCluster (setFatValue fs content clst 0) := by
  refine ⟨fs.giveCluster_layout, fun other hother _ index hindex ↦ setFatValue_outside ?_,
    fun other _ hne ↦ fatValue_setFatValue_of_ne fun heq ↦ hne (mem_singleton.mpr heq)⟩
  have hapart := hgeometry.fatApart other clst hother hclst
  omega

theorem DirChain.tail (hchain : DirChain fs content (clst :: next :: clusters)) :
    DirChain fs content (next :: clusters) where
  length_pos := Nat.succ_pos _
  accepted := fun other hother ↦ hchain.accepted other (mem_cons_of_mem clst hother)
  nodup := hchain.nodup.of_cons
  next := fun index hindex ↦ hchain.next (index + 1) (Nat.succ_lt_succ hindex)
  last := hchain.last

theorem DirChain.head_value (hchain : DirChain fs content (clst :: next :: clusters)) :
    fatValue fs content clst = next ∧ 2 ≤ next.toNat :=
  hchain.next 0 (Nat.succ_lt_succ (Nat.succ_pos _))

theorem DirChain.length_le (hfatx : IsFatxFs fs) (hchain : DirChain fs content clusters) :
    clusters.length ≤ fs.nFatent.toNat := by
  have hnodup : (clusters.map UInt32.toNat).Nodup :=
    hchain.nodup.map fun _ _ heq ↦ UInt32.toNat_inj.mp heq
  have hsubset : clusters.map UInt32.toNat ⊆ List.range fs.nFatent.toNat := by
    intro number hnumber
    obtain ⟨clst, hclst, rfl⟩ := mem_map.mp hnumber
    exact mem_range.mpr ((hfatx.accepted_iff clst).mp (hchain.accepted clst hclst)).2
  have hlength := (hnodup.subperm hsubset).length_le
  rwa [length_map, length_range] at hlength

/-- The clusters of a chain are free, and nothing else has changed. -/
structure Freed (clusters : List UInt32) (fs : FatFs) (content : Bytes) (fs' : FatFs)
    (content' : Bytes) : Prop where
  leaves : Leaves clusters fs content fs' content'
  free : ∀ clst ∈ clusters, fatValue fs content' clst = 0

variable {io : DiskIo δ} {device : BlockDevice io} (hsound : ¬ device.faulty) {pdrv : Drive}
  {state : VolumeState δ}

include hsound

/-- One turn of the loop of `remove_chain`. -/
theorem removeChainLoop_succ (hgeometry : DirGeometry fs) (hclst : 2 ≤ clst.toNat)
    (hlt : clst.toNat < fs.nFatent.toNat) (hvalue : 2 ≤ (fatValue fs content clst).toNat)
    (turns : ℕ) {ok : Unit → VolumeState δ → Prop}
    (hshows : Shows device pdrv fs content state)
    (hrest : ∀ after, Shows device pdrv fs.giveCluster (setFatValue fs content clst 0) after →
      (if fatValue fs content clst < fs.nFatent
        then removeChainLoop io pdrv turns (fatValue fs content clst) else pure ()).wp ok
        (fun _ _ ↦ False) after) :
    (removeChainLoop io pdrv (turns + 1) clst).wp ok (fun _ _ ↦ False) state := by
  rw [removeChainLoop, wp_bind]
  refine wp_safe (getFat_shows hsound hgeometry.fatx hgeometry.nFats hshows clst) ?_
  rintro _ read ⟨rfl, hread⟩
  rw [fatStatus_of_lt hgeometry.fatx content (by omega) hlt, wp_ite]
  refine ⟨fun hzero ↦ ?_, fun _ ↦ ?_⟩
  · rw [hzero] at hvalue
    exact absurd hvalue (by decide)
  rw [wp_bind, wp_stopIf]
  refine ⟨fun hone ↦ ?_, fun _ ↦ ?_⟩
  · rw [hone] at hvalue
    exact absurd hvalue (by decide)
  rw [wp_bind, wp_stopIf]
  refine ⟨fun hfailed ↦ fatValue_ne_diskErr fs content clst hfailed, fun _ ↦ ?_⟩
  rw [wp_bind]
  refine wp_mono (putFat_shows hsound hgeometry.fatx hgeometry.nFats hread clst 0) ?_ ?_
  · rintro _ put ⟨-, hput⟩
    have hgiven := hput.modify FatFs.giveCluster_withWindow
    have hnFatent : put.fs.giveCluster.nFatent = fs.nFatent :=
      hgiven.nFatent.trans
        (part_of_layout fs.giveCluster_layout FatFs.nFatent fun _ ↦ rfl)
    rw [wp_bind, modifyFs, wp_modify, wp_bind, wp_gets, hnFatent]
    exact hrest _ hgiven
  · rintro _ _ ⟨-, hinvalid, -⟩
    rw [UInt32.lt_iff_toNat_lt, UInt32.le_iff_toNat_le] at hinvalid
    have : (2 : UInt32).toNat = 2 := rfl
    omega

theorem removeChainLoop_spec (hgeometry : DirGeometry fs)
    (hchain : DirChain fs content (clst :: clusters)) (hclst : 2 ≤ clst.toNat) {turns : ℕ}
    (hturns : clusters.length < turns) (hshows : Shows device pdrv fs content state) :
    (removeChainLoop io pdrv turns clst).wp
      (fun _ after ↦ ∃ fs' content', Shows device pdrv fs' content' after ∧
        Freed (clst :: clusters) fs content fs' content')
      (fun _ _ ↦ False) state := by
  induction clusters generalizing clst turns state fs content with
  | nil =>
    obtain ⟨turns, rfl⟩ := Nat.exists_eq_add_one_of_ne_zero (Nat.ne_zero_of_lt hturns)
    have haccepted := hchain.accepted clst (mem_singleton.mpr rfl)
    have hlt := ((hgeometry.fatx.accepted_iff clst).mp haccepted).2
    have hlast : fs.nFatent.toNat ≤ (fatValue fs content clst).toNat := hchain.last
    refine removeChainLoop_succ hsound hgeometry hclst hlt (by omega) turns hshows
      fun after hafter ↦ ?_
    rw [if_neg (UInt32.not_lt.mpr (UInt32.le_iff_toNat_le.mpr hlast))]
    refine ⟨_, _, hafter, giveCluster_leaves hgeometry haccepted,
      forall_mem_singleton.mpr ?_⟩
    rw [fatValue_setFatValue_self, UInt32.zero_and]
  | cons next clusters ih =>
    obtain ⟨turns, rfl⟩ := Nat.exists_eq_add_one_of_ne_zero (Nat.ne_zero_of_lt hturns)
    have haccepted := hchain.accepted clst mem_cons_self
    have hlt := ((hgeometry.fatx.accepted_iff clst).mp haccepted).2
    have hnextLt := ((hgeometry.fatx.accepted_iff next).mp
      (hchain.accepted next (mem_cons_of_mem clst mem_cons_self))).2
    obtain ⟨hvalue, hnext⟩ := hchain.head_value
    have hleaves : Leaves [clst] fs content fs.giveCluster (setFatValue fs content clst 0) :=
      giveCluster_leaves hgeometry haccepted
    have hapart : clst ∉ next :: clusters := (nodup_cons.mp hchain.nodup).1
    have htail := hchain.tail.carry hleaves fun other hother hmem ↦
      hapart (mem_singleton.mp hmem ▸ hother)
    refine removeChainLoop_succ hsound hgeometry hclst hlt (hvalue ▸ hnext) turns hshows
      fun after hafter ↦ ?_
    rw [hvalue, if_pos (UInt32.lt_iff_toNat_lt.mpr hnextLt)]
    refine wp_safe (ih (hgeometry.of_layout hleaves.layout) htail hnext
      (Nat.lt_of_succ_lt_succ hturns) hafter) ?_
    rintro _ final ⟨fs', content', hfinal, hrest, hzero⟩
    rw [hleaves.fatValue] at hzero
    have hfirst : fatValue fs content' clst = 0 := by
      have hkept := hrest.entries clst (hleaves.accepted ▸ haccepted) hapart
      rw [hleaves.fatValue] at hkept
      rw [hkept, fatValue_setFatValue_self, UInt32.zero_and]
    exact ⟨fs', content', hfinal,
      (hleaves.mono fun other hother ↦ mem_singleton.mp hother ▸ mem_cons_self).trans
        (hrest.mono fun _ hother ↦ mem_cons_of_mem clst hother),
      forall_mem_cons.mpr ⟨hfirst, hzero⟩⟩

/-- `remove_chain` frees the clusters of a chain and leaves everything else alone. -/
theorem removeChain_spec (hgeometry : DirGeometry fs) (hchain : DirChain fs content clusters)
    (hfirst : 2 ≤ (clusters.getD 0 0).toNat) (hshows : Shows device pdrv fs content state) :
    (removeChain io pdrv (clusters.getD 0 0) 0).wp
      (fun _ after ↦ ∃ fs' content', Shows device pdrv fs' content' after ∧
        Freed clusters fs content fs' content')
      (fun _ _ ↦ False) state := by
  cases clusters with
  | nil => exact absurd hchain.length_pos (lt_irrefl 0)
  | cons clst clusters =>
    have hlt := ((hgeometry.fatx.accepted_iff clst).mp
      (hchain.accepted clst mem_cons_self)).2
    rw [removeChain, wp_bind, wp_gets, hshows.nFatent, wp_bind, wp_stopIf]
    refine ⟨fun hinvalid ↦ ?_, fun _ ↦ ?_⟩
    · rw [UInt32.lt_iff_toNat_lt, UInt32.le_iff_toNat_le] at hinvalid
      exact absurd hinvalid (not_or.mpr ⟨not_lt.mpr hfirst, not_le.mpr hlt⟩)
    · exact removeChainLoop_spec hsound hgeometry hchain hfirst
        (lt_of_lt_of_le (Nat.lt_succ_self _) ((hchain.length_le hgeometry.fatx).trans
          (Nat.le_succ _))) hshows

/-- `sync_fs` changes nothing that the volume shows. -/
theorem syncFs_spec (hfats : fs.nFats ≠ 2) (hshows : Shows device pdrv fs content state) :
    (syncFs io pdrv).wp
      (fun _ after ↦ Shows device pdrv fs content after ∧ after.fs.winsect = state.fs.winsect)
      (fun _ _ ↦ False) state := by
  rw [syncFs, wp_bind]
  refine wp_safe (syncWindow_shows hsound hshows hfats) ?_
  rintro _ synced ⟨hsynced, hclean, hwinsect⟩
  rw [onDisk, wp_onPart]
  refine wp_mono (onDrive_diskSync_spec device pdrv synced.system) ?_ ?_
  · intro _ system hchange
    refine ⟨⟨hsynced.object, ?_, hsynced.window⟩, hwinsect⟩
    have hcontent := hsynced.bytes
    rw [volumeContent, if_neg (by rw [hclean]; decide)] at hcontent
    refine Eq.trans (if_neg ?_) (hchange.content.trans hcontent)
    rw [hclean]
    decide
  · rintro _ _ ⟨-, hfaulty, -⟩
    exact hsound hfaulty

end

end XBlast.Fatx
