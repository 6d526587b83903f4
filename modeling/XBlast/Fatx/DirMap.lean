import XBlast.Fatx.DirNames

/-!
# A directory as a map

A directory should behave as a map of names that ignores their case. `DirOp` are the operations on
it: an entry is made for a name that `dir_find` does not find, and an entry that `dir_find` finds is
deleted. `liveNames` is the abstract meaning of a history of them, the names that were made and not
deleted since.

From a table without names the directory behaves so after a history exactly if no name was made that
starts with the character 0xE5 (`directory_behavesAsMap_iff`). The entry of such a name has the
length zero. It is never found, it cannot be deleted, and it hides all names behind it.
-/

set_option autoImplicit false
set_option relaxedAutoImplicit false

namespace XBlast.Fatx

open Foundation Disk Program List DirTable

variable {δ : Type}

/-! ### Histories -/

/-- An operation on a directory, with the path whose segment is the name. -/
inductive DirOp where
  | create (path : List UInt8)
  | remove (path : List UInt8)
  deriving DecidableEq

def DirOp.perform (io : DiskIo δ) (pdrv : Drive) : DirOp → DirM δ Unit
  | .create path => do
      let _ ← createName path
      ifNoFile .exist (dirFind io pdrv)
      dirRegister io pdrv
  | .remove path => do
      let _ ← createName path
      dirFind io pdrv
      dirRemove io pdrv

def performAll (io : DiskIo δ) (pdrv : Drive) : List DirOp → DirM δ Unit
  | [] => pure ()
  | op :: history => do
      op.perform io pdrv
      performAll io pdrv history

/-- What an operation does to the names of the map. -/
def DirOp.apply (live : List (List UInt8)) : DirOp → List (List UInt8)
  | .create path => segment path :: live
  | .remove path => live.filter fun name ↦ upper name ≠ upper (segment path)

/-- The names that were made and not deleted since. -/
def liveNames (history : List DirOp) : List (List UInt8) := history.foldl DirOp.apply []

/-- A directory behaves as the map with these names: `dir_find` finds exactly them, and reading the
directory gives each of them once. -/
structure BehavesAsMap (io : DiskIo δ) (pdrv : Drive) (live : List (List UInt8))
    (state : DirState δ) : Prop where
  find : ∀ path rest named, createName path state = (.ok rest, named) →
    ((∃ after, dirFind io pdrv named = (.ok (), after)) ↔ upper (segment path) ∈ live.map upper)
  list : ∃ names after, listDirectory io pdrv state = (.ok names, after) ∧ names.Perm live

/-- A table without names: it is filled with zeros or with 0xFF. -/
def DirTable.Blank (table : DirTable) : Prop :=
  (∀ slot < table.count, ∀ index < 64, table.entry slot index = 0) ∨
    ∀ slot < table.count, ∀ index < 64, table.entry slot index = 0xFF

/-! ### What the operations do to a table -/

/-- What an operation that succeeds does to the table of its directory. -/
inductive DirStep : DirOp → DirTable → DirTable → Prop
  | create {path rest : List UInt8} {final : Bool} {dp : Dir} {table next : DirTable}
      {free last : ℕ} (hpath : Segments path final rest) (hname : dp.HasName (segment path))
      (hmissing : MissingFrom table dp.fnx last) (hgrows : table.Grows next)
      (huses : table.UsesLast next free) (hfree : FreeAt next free) :
      DirStep (.create path) table (next.register hfree dp)
  | remove {path : List UInt8} {dp : Dir} {table : DirTable} {slot : ℕ}
      (hname : dp.HasName (segment path)) (hfound : FoundAt table dp.fnx slot) :
      DirStep (.remove path) table (table.remove hfound.lt)

/-- What a history of operations does to a table. -/
inductive DirRun : List DirOp → DirTable → DirTable → Prop
  | nil (table : DirTable) : DirRun [] table table
  | cons {op : DirOp} {history : List DirOp} {table next final : DirTable}
      (hstep : DirStep op table next) (hrest : DirRun history next final) :
      DirRun (op :: history) table final

section

variable {io : DiskIo δ} {device : BlockDevice io} {pdrv : Drive} {dp : Dir} {table : DirTable}
  {state : DirState δ}

theorem DirTable.Held.self (hheld : table.Held device pdrv dp state) :
    table.Held device pdrv state.dp state := by
  refine ⟨hheld.shows, ?_, rfl, rfl, rfl⟩
  rw [← hheld.start, Dir.startCluster, Dir.startCluster, hheld.sclust]

/-- The object after `create_name`. -/
theorem DirTable.Held.named (hheld : table.Held device pdrv dp state) (name : List UInt8)
    (last : Bool) :
    table.Held device pdrv (state.dp.withName name last)
      { state with dp := state.dp.withName name last } :=
  ⟨hheld.shows, hheld.self.start, rfl, rfl, rfl⟩

variable (hsound : ¬ device.faulty)

include hsound

theorem perform_spec (op : DirOp) (hheld : table.Held device pdrv dp state) :
    (op.perform io pdrv).wp
      (fun _ after ↦ ∃ next, DirStep op table next ∧ next.Held device pdrv after.dp after)
      (fun _ _ ↦ True) state := by
  cases op with
  | create path =>
    rw [DirOp.perform, wp_bind]
    refine wp_mono (createName_spec path state) ?_ fun _ _ _ ↦ trivial
    rintro rest _ ⟨final, hpath, rfl⟩
    have hname := state.dp.hasName_withName hpath.valid final
    rw [wp_bind]
    refine wp_ifNoFile (wp_mono (dirFind_spec hsound (hheld.named _ final))
      (fun _ _ _ ↦ trivial) ?_)
    rintro _ missed ⟨-, hmissed, last, hmissing⟩
    refine ⟨fun _ ↦ ?_, fun _ ↦ trivial⟩
    refine wp_mono (dirRegister_spec hsound hmissed (registeredLength_le hname)) ?_
      fun _ _ _ ↦ trivial
    rintro _ after ⟨next, free, hfree, hgrows, huses, hafter, -⟩
    exact ⟨_, .create hpath hname hmissing hgrows huses hfree, hafter.self⟩
  | remove path =>
    rw [DirOp.perform, wp_bind]
    refine wp_mono (createName_spec path state) ?_ fun _ _ _ ↦ trivial
    rintro rest _ ⟨final, hpath, rfl⟩
    rw [wp_bind]
    refine wp_mono (dirFind_spec hsound (hheld.named _ final)) ?_ fun _ _ _ ↦ trivial
    rintro _ found ⟨hheldFound, slot, hfound, hat, -⟩
    refine wp_mono (dirRemove_spec hsound hfound.lt hheldFound hat.toAtSlot) ?_
      fun _ _ _ ↦ trivial
    exact fun _ after hafter ↦
      ⟨_, .remove (state.dp.hasName_withName hpath.valid final) hfound, hafter.self⟩

theorem performAll_spec (history : List DirOp) (hheld : table.Held device pdrv state.dp state) :
    (performAll io pdrv history).wp
      (fun _ after ↦ ∃ final, DirRun history table final ∧ final.Held device pdrv after.dp after)
      (fun _ _ ↦ True) state := by
  induction history generalizing table state with
  | nil => exact ⟨table, .nil table, hheld⟩
  | cons op history ih =>
    rw [performAll, wp_bind]
    refine wp_mono (perform_spec hsound op hheld) ?_ fun _ _ _ ↦ trivial
    rintro _ next ⟨nextTable, hstep, hnext⟩
    refine wp_mono (ih hnext) ?_ fun _ _ _ ↦ trivial
    rintro _ after ⟨final, hrun, hafter⟩
    exact ⟨final, .cons hstep hrun, hafter⟩

end

section

variable {op : DirOp} {history : List DirOp} {table next final : DirTable}
  {slots : List (Option (List UInt8))} {live : List (List UInt8)}

/-! ### Histories without marked names -/

/-- The names of a directory are those of the map, and all differ. -/
structure DirTable.Consistent (table : DirTable) (slots : List (Option (List UInt8)))
    (live : List (List UInt8)) : Prop where
  lists : table.Lists slots
  perm : slots.reduceOption.Perm live
  nodup : (live.map upper).Nodup

theorem DirTable.Blank.consistent (hblank : table.Blank) : table.Consistent [] [] := by
  refine ⟨⟨Nat.zero_le _, fun slot hslot ↦ ?_⟩, .refl _, nodup_nil⟩
  rw [getElem?_nil]
  rcases hblank with hzero | hmark
  · exact .inl ⟨hzero slot hslot _ (by decide), hzero slot hslot _ (by decide),
      hzero slot hslot _ (by decide)⟩
  · exact .inr (hmark slot hslot _ (by decide))

theorem DirTable.Consistent.length_le (hconsistent : table.Consistent slots live) :
    live.length ≤ slots.length := by
  rw [← hconsistent.perm.length_eq]
  exact reduceOption_length_le slots

/-- One operation acts on the names of the directory as on those of the map. The directory gets
another entry only if it has no hole, and another cluster only for that entry. -/
theorem DirStep.consistent (hstep : DirStep op table next)
    (hop : ∀ path, op = .create path → ¬ StartsDeleted (segment path))
    (hconsistent : table.Consistent slots live) :
    ∃ slots', next.Consistent slots' (op.apply live) ∧
      slots'.length = max slots.length (op.apply live).length ∧
      (next.clusters.length = table.clusters.length ∨
        table.slotsPerCluster * (next.clusters.length - 1) < slots'.length) := by
  have hlive := hconsistent.length_le
  obtain ⟨hlists, hperm, hnodup⟩ := hconsistent
  cases hstep with
  | @create path rest last dp _ grown free stop hpath hname hmissing hgrows huses hfree =>
    have hunmarked := hop path rfl
    have hgrown := hlists.grow hgrows
    obtain ⟨hle, hhole, hfull⟩ := hgrown.free hfree
    rw [hname.fnx] at hmissing
    refine ⟨_, ⟨hgrown.register hfree hname hunmarked,
      (reduceOption_place_perm hhole).trans (hperm.cons _), ?_⟩, ?_, ?_⟩
    · rw [DirOp.apply, map_cons, nodup_cons]
      refine ⟨fun hmem ↦ ?_, hnodup⟩
      obtain ⟨other, hother, hupper⟩ := mem_map.mp hmem
      exact hlists.missing hname.valid hmissing (hperm.mem_iff.mpr hother) hupper
    · rw [length_place_of_hole hle hhole hfull, hperm.length_eq]
      rfl
    · refine huses.imp_right fun hplace ↦ lt_of_le_of_lt hplace ?_
      rw [length_place hle]
      omega
  | @remove path dp _ slot hname hfound =>
    rw [hname.fnx] at hfound
    obtain ⟨other, hother, hupper⟩ := hlists.found hname.valid hfound
    have hrest := filter_key_perm (hperm.symm.trans (reduceOption_clear_perm hother)) hnodup
    rw [hupper] at hrest
    refine ⟨_, ⟨hlists.remove hfound.lt (List.getElem?_eq_some_iff.mp hother).1, hrest.symm,
      hnodup.sublist (filter_sublist.map upper)⟩, ?_, .inl rfl⟩
    have hfewer := length_filter_le (fun name ↦ upper name ≠ upper (segment path)) live
    rw [length_set, DirOp.apply]
    omega

/-- The most names that are live at a time. -/
def mostNames : List (List UInt8) → List DirOp → ℕ
  | live, [] => live.length
  | live, op :: history => max live.length (mostNames (op.apply live) history)

theorem length_le_mostNames (live : List (List UInt8)) (history : List DirOp) :
    live.length ≤ mostNames live history := by
  cases history with
  | nil => exact le_refl _
  | cons op history => exact le_max_left _ _

/-- A directory has no cluster behind its first one but for an entry that was used. -/
def DirTable.Tight (table : DirTable) (used : ℕ) : Prop :=
  table.clusters.length = 1 ∨ table.slotsPerCluster * (table.clusters.length - 1) < used

theorem DirStep.changes (hstep : DirStep op table next) : table.Changes next := by
  cases hstep with
  | create hpath hname hmissing hgrows huses hfree =>
    exact hgrows.toChanges.trans (register_changes hfree _)
  | remove hname hfound => exact remove_changes hfound.lt

theorem DirRun.changes (hrun : DirRun history table final) : table.Changes final := by
  induction hrun with
  | nil table => exact .refl table
  | cons hstep _ ih => exact hstep.changes.trans ih

/-- A history acts on the names of the directory as on those of the map. -/
theorem DirRun.consistent (hrun : DirRun history table final)
    (hhistory : ∀ path, DirOp.create path ∈ history → ¬ StartsDeleted (segment path))
    (hconsistent : table.Consistent slots live) :
    ∃ slots', final.Consistent slots' (history.foldl DirOp.apply live) ∧
      slots'.length = max slots.length (mostNames live history) ∧
      (table.Tight slots.length → final.Tight slots'.length) := by
  induction hrun generalizing slots live with
  | nil table =>
    have hle := hconsistent.length_le
    refine ⟨slots, hconsistent, ?_, id⟩
    rw [mostNames]
    omega
  | @cons op history table next final hstep hrest ih =>
    have hle := hconsistent.length_le
    obtain ⟨slots', hnext, hlength, hclusters⟩ := hstep.consistent
      (fun path hop ↦ hhistory path (hop ▸ mem_cons_self)) hconsistent
    obtain ⟨last, hlast, hlastLength, hlastTight⟩ :=
      ih (fun path hpath ↦ hhistory path (mem_cons_of_mem op hpath)) hnext
    have hmost := length_le_mostNames (op.apply live) history
    refine ⟨last, hlast, ?_, fun htight ↦ hlastTight ?_⟩
    · rw [mostNames]
      omega
    · rw [DirTable.Tight, hstep.changes.slots]
      rcases hclusters with hsame | hmore
      · rw [hsame]
        exact htight.imp_right fun hused ↦ by omega
      · exact .inr hmore

/-! ### Properties of all entries -/

/-- A property of entries that creating and deleting entries keeps. -/
structure KeptByOps (holds : Bytes → Prop) : Prop where
  congr : ∀ {entry other : Bytes}, holds entry → (∀ index < 64, entry index = other index) →
    holds other
  zero : ∀ {entry : Bytes}, (∀ index < 64, entry index = 0) → holds entry
  new : ∀ {dp : Dir} {name : List UInt8}, dp.HasName name →
    holds (newEntry (UInt8.ofNat (registeredLength dp)) dp.fnx)
  deleted : ∀ {entry : Bytes}, entry Dirx.nameLgth = ddem → holds entry

/-- Every entry of a table has a property. -/
def DirTable.Every (table : DirTable) (holds : Bytes → Prop) : Prop :=
  ∀ slot < table.count, holds (table.entry slot)

section

variable {holds : Bytes → Prop} (hkept : KeptByOps holds)

include hkept

theorem DirTable.Every.grow (hevery : table.Every holds) (hgrows : table.Grows next) :
    next.Every holds := by
  intro slot hslot
  by_cases hold : slot < table.count
  · exact hkept.congr (hevery slot hold) fun index hindex ↦
      (hgrows.kept slot hold index hindex).symm
  · exact hkept.zero (hgrows.zero slot hslot (not_lt.mp hold))

theorem DirStep.every (hstep : DirStep op table next) (hevery : table.Every holds) :
    next.Every holds := by
  cases hstep with
  | @create path rest last dp _ grown free stop hpath hname hmissing hgrows huses hfree =>
    intro slot hslot
    by_cases hsame : slot = free
    · rw [hsame]
      exact hkept.congr (hkept.new hname) fun index hindex ↦
        (register_entry hfree dp hindex).symm
    · exact hkept.congr (hevery.grow hkept hgrows slot hslot) fun index hindex ↦
        (register_entry_of_ne hfree dp hslot hsame hindex).symm
  | @remove path dp _ found hname hfound =>
    intro slot hslot
    by_cases hsame : slot = found
    · rw [hsame]
      exact hkept.deleted (remove_length hfound.lt)
    · exact hkept.congr (hevery slot hslot) fun index hindex ↦
        (remove_entry_of_ne hfound.lt hslot hsame hindex).symm

theorem DirRun.every (hrun : DirRun history table final) (hevery : table.Every holds) :
    final.Every holds := by
  induction hrun with
  | nil table => exact hevery
  | cons hstep _ ih => exact ih (hstep.every hkept hevery)

end

/-! ### Histories with a marked name -/

/-- No name that starts with the mark is found. -/
def DirTable.FindsNoMark (table : DirTable) : Prop :=
  ∀ slot < table.count, ∀ name, ValidName name → StartsDeleted name →
    nameMatches (storedName (paddedName name)) (table.entry slot) = false

theorem nameMatches_of_length {fnx : List UInt8} {entry : Bytes}
    (hlength : entry Dirx.nameLgth = 0 ∨ fatxFilenameMax < (entry Dirx.nameLgth).toNat) :
    nameMatches fnx entry = false := by
  rw [nameMatches, decide_eq_false_iff_not]
  rintro ⟨-, hpos, hle, -⟩
  rcases hlength with hzero | hlong
  · rw [hzero] at hpos
    exact absurd hpos (by decide)
  · exact absurd hle (not_le.mpr hlong)

theorem DirTable.Blank.findsNoMark (hblank : table.Blank) : table.FindsNoMark := by
  intro slot hslot name _ _
  apply nameMatches_of_length
  rcases hblank with hzero | hmark
  · exact .inl (hzero slot hslot _ (by decide))
  · rw [hmark slot hslot _ (by decide)]
    exact .inr (by decide)

/-- The entry of a new name is not one that a search for a marked name ends at. -/
theorem nameMatches_newEntry {dp : Dir} {name marked : List UInt8} (hname : dp.HasName name)
    (hmarked : ValidName marked) (hmark : StartsDeleted marked) :
    nameMatches (storedName (paddedName marked))
      (newEntry (UInt8.ofNat (registeredLength dp)) dp.fnx) = false := by
  rw [registeredLength_eq hname]
  split_ifs with hdeleted
  · exact nameMatches_of_length (.inl rfl)
  · rw [hname.fnx, Bool.eq_false_iff,
      ne_eq, (namedEntry_newEntry hname.valid hdeleted).nameMatches_iff hmarked]
    exact upper_ne_of_startsDeleted hdeleted hmark

/-- The operations that succeed in a directory in which no marked name is found: `create_name`
accepts the name of a new entry, and no marked name is deleted. -/
def DirOp.Possible : DirOp → Prop
  | .create path => ∃ last rest, Segments path last rest
  | .remove path => ¬ StartsDeleted (segment path)

theorem findsNoMark_kept : KeptByOps fun entry ↦ ∀ name, ValidName name → StartsDeleted name →
    nameMatches (storedName (paddedName name)) entry = false where
  congr := fun hentry hsame name hname hmark ↦
    (nameMatches_congr hsame _).symm.trans (hentry name hname hmark)
  zero := fun hzero _ _ _ ↦ nameMatches_of_length (.inl (hzero _ (by decide)))
  new := fun hname _ hmarked hmark ↦ nameMatches_newEntry hname hmarked hmark
  deleted := fun hdeleted _ _ _ ↦ nameMatches_deleted hdeleted

theorem DirTable.FindsNoMark.possible (hfinds : table.FindsNoMark) (hstep : DirStep op table next) :
    op.Possible := by
  cases hstep with
  | create hpath _ _ _ _ _ => exact ⟨_, _, hpath⟩
  | remove hname hfound =>
    intro hmark
    have hmatches := hfound.found
    rw [hname.fnx, hfinds _ hfound.lt _ hname.valid hmark] at hmatches
    exact Bool.false_ne_true hmatches

theorem DirRun.findsNoMark (hrun : DirRun history table final) (hfinds : table.FindsNoMark) :
    final.FindsNoMark ∧ ∀ op ∈ history, op.Possible := by
  refine ⟨hrun.every findsNoMark_kept hfinds, ?_⟩
  induction hrun with
  | nil table => exact nofun
  | cons hstep _ ih =>
    exact forall_mem_cons.mpr
      ⟨hfinds.possible hstep, ih (hstep.every findsNoMark_kept hfinds)⟩

/-- A marked name stays in the map, since it cannot be deleted. -/
theorem marked_mem_apply {name : List UInt8} (hmark : StartsDeleted name)
    (hpossible : ∀ op ∈ history, op.Possible)
    (hname : name ∈ live ∨ ∃ path, DirOp.create path ∈ history ∧ segment path = name) :
    name ∈ history.foldl DirOp.apply live := by
  induction history generalizing live with
  | nil =>
    rcases hname with hlive | ⟨_, hmem, -⟩
    · exact hlive
    · exact nomatch hmem
  | cons op history ih =>
    obtain ⟨hop, hhistory⟩ := forall_mem_cons.mp hpossible
    refine ih hhistory ?_
    rcases hname with hlive | ⟨path, hmem, hsegment⟩
    · left
      cases op with
      | create path => exact mem_cons_of_mem _ hlive
      | remove path =>
        exact mem_filter.mpr
          ⟨hlive, decide_eq_true (upper_ne_of_startsDeleted hop hmark).symm⟩
    · rcases mem_cons.mp hmem with hfirst | hrest
      · left
        rw [← hfirst, DirOp.apply, hsegment]
        exact mem_cons_self
      · exact .inr ⟨path, hrest, hsegment⟩

end

/-! ### The directory and the map -/

section

variable {io : DiskIo δ} {device : BlockDevice io} (hsound : ¬ device.faulty) {pdrv : Drive}
  {table : DirTable} {state : DirState δ} {slots : List (Option (List UInt8))}
  {live : List (List UInt8)}

include hsound

/-- A directory with the names of the map behaves as the map. -/
theorem DirTable.Consistent.behavesAsMap (hconsistent : table.Consistent slots live)
    (hheld : table.Held device pdrv state.dp state) : BehavesAsMap io pdrv live state := by
  obtain ⟨hlists, hperm, -⟩ := hconsistent
  refine ⟨fun path rest named hnamed ↦ ?_, ?_⟩
  · obtain ⟨final, hpath, rfl⟩ := wp_ok (createName_spec path state) hnamed
    have hname := state.dp.hasName_withName hpath.valid final
    have hfind : (dirFind io pdrv).wp _ _ _ :=
      dirFind_spec hsound (hheld.named (segment path) final)
    rw [hname.fnx] at hfind
    constructor
    · rintro ⟨after, hrun⟩
      obtain ⟨-, slot, hfound, -⟩ := wp_ok hfind hrun
      obtain ⟨found, hslot, hupper⟩ := hlists.found hname.valid hfound
      have hmem : found ∈ slots.reduceOption :=
        reduceOption_mem_iff.mpr (mem_of_getElem? hslot)
      rw [← hupper]
      exact mem_map_of_mem (hperm.mem_iff.mp hmem)
    · intro hmem
      obtain ⟨other, hother, hupper⟩ := mem_map.mp hmem
      rcases hrun : dirFind io pdrv
        { state with dp := state.dp.withName (segment path) final } with ⟨code | value, after⟩
      · obtain ⟨-, -, last, hmissing⟩ := wp_error hfind hrun
        exact absurd hupper (hlists.missing hname.valid hmissing (hperm.mem_iff.mpr hother))
      · exact ⟨after, rfl⟩
  · have hlist : (listDirectory io pdrv).wp _ _ state := listDirectory_spec hsound hlists hheld
    obtain ⟨names, after, hrun, hnames⟩ := exists_ok hlist
    exact ⟨names, after, hrun, hnames ▸ hperm⟩

theorem DirTable.FindsNoMark.dirFind_fails (hfinds : table.FindsNoMark)
    (hheld : table.Held device pdrv state.dp state) {name : List UInt8}
    (hname : state.dp.HasName name) (hmark : StartsDeleted name) (after : DirState δ) :
    dirFind io pdrv state ≠ (.ok (), after) := by
  intro hrun
  obtain ⟨-, slot, hfound, -⟩ := wp_ok (dirFind_spec hsound hheld) hrun
  have hmatches := hfound.found
  rw [hname.fnx, hfinds slot hfound.lt name hname.valid hmark] at hmatches
  exact Bool.false_ne_true hmatches

end

/-- From a table without live entries, and after any operations that succeed, the directory behaves
as a map of names that ignores their case exactly if none of the names that were made starts with
the character 0xE5. -/
theorem directory_behavesAsMap_iff {io : DiskIo δ} (device : BlockDevice io)
    (hsound : ¬ device.faulty) (pdrv : Drive) (table : DirTable) (state final : DirState δ)
    (hheld : table.Held device pdrv state.dp state) (hblank : table.Blank) (history : List DirOp)
    (hrun : performAll io pdrv history state = (.ok (), final)) :
    BehavesAsMap io pdrv (liveNames history) final ↔
      ∀ path, DirOp.create path ∈ history → ¬ StartsDeleted (segment path) := by
  obtain ⟨last, hlast, hfinal⟩ := wp_ok (performAll_spec hsound history hheld) hrun
  constructor
  · intro hmap path hpath hmark
    obtain ⟨hfinds, hpossible⟩ := hlast.findsNoMark hblank.findsNoMark
    have hlive : segment path ∈ liveNames history :=
      marked_mem_apply hmark hpossible (.inr ⟨path, hpath, rfl⟩)
    obtain ⟨whole, rest, hsegments⟩ := hpossible _ hpath
    obtain ⟨after, hfound⟩ := (hmap.find path rest _ (hsegments.createName final)).mpr
      (mem_map_of_mem hlive)
    exact hfinds.dirFind_fails hsound (hfinal.named _ whole)
      (final.dp.hasName_withName hsegments.valid whole) hmark after hfound
  · intro hhistory
    obtain ⟨slots, hconsistent, -⟩ := hlast.consistent hhistory hblank.consistent
    exact hconsistent.behavesAsMap hsound hfinal

/-! ### The root directory of a small volume -/

/-- The root directory of the small volume. -/
def smallRoot : DirState RamDisk where
  dp :=
    { sclust := 0
      attr := 0
      dptr := 0
      clust := 0
      sect := 0
      fnx := []
      nsxFlag := 0 }
  volume := smallVolume

theorem smallVolume_dirGeometry : DirGeometry smallVolume.fs := by
  refine dirGeometry_of_layout rfl (by decide) ⟨5, by decide, rfl⟩ (fun clst hclst ↦ ?_)
    (by decide) fun clst hclst ↦ ?_
  · rcases smallVolume_accepted hclst with rfl | rfl | rfl | rfl <;> rfl
  · rcases smallVolume_accepted hclst with rfl | rfl | rfl | rfl <;> decide

/-- The root directory has the first cluster. -/
def smallTable : DirTable where
  fs := smallVolume.fs
  content := volumeContent ramDevice .master smallVolume
  clusters := [1]
  geometry := smallVolume_dirGeometry
  chain :=
    { length_pos := by decide
      accepted := forall_mem_singleton.mpr
        ((smallVolume_mounted.fatx.accepted_iff 1).mpr (by decide))
      nodup := nodup_singleton 1
      next := fun index hindex ↦ absurd hindex (by simp)
      last := by decide +kernel }

theorem smallTable_held : smallTable.Held ramDevice .master smallRoot.dp smallRoot :=
  ⟨smallVolume_mounted.shows, rfl, rfl, rfl, rfl⟩

theorem smallTable_blank : smallTable.Blank := by
  left
  intro slot hslot index hindex
  have hplace := smallTable.address_inside slot
  have hcluster : smallTable.cluster slot = 1 := by
    have hmem := cluster_mem hslot
    exact mem_singleton.mp hmem
  rw [hcluster] at hplace
  change 512 * 1040 ≤ smallTable.address slot ∧ _ at hplace
  refine writeFields_outside (forall_mem_singleton.mpr (.inr ?_))
  change 512 * 1032 + 6 ≤ smallTable.address slot + index
  omega

/-- Names that differ in their case are the same. -/
theorem smallRoot_behavesAsMap : ∃ final,
    performAll ramDisk .master [.create (ascii "A"), .create (ascii "b"), .remove (ascii "a")]
      smallRoot = (.ok (), final) ∧ BehavesAsMap ramDisk .master [ascii "b"] final := by
  have hrun : performAll ramDisk .master
      [.create (ascii "A"), .create (ascii "b"), .remove (ascii "a")] smallRoot = (.ok (), _) :=
    run_eq_of_isOk (by decide +kernel)
  refine ⟨_, hrun, ?_⟩
  refine (directory_behavesAsMap_iff ramDevice id .master smallTable smallRoot _ smallTable_held
    smallTable_blank _ hrun).mpr ?_
  intro path hpath
  simp only [mem_cons, DirOp.create.injEq, reduceCtorEq, not_mem_nil, or_false] at hpath
  rcases hpath with rfl | rfl
  · decide
  · decide

/-- A name of the single character 0xE5 is entered with success and is not found. -/
theorem smallRoot_not_behavesAsMap : ∃ final,
    performAll ramDisk .master [.create [0xE5]] smallRoot = (.ok (), final) ∧
      ¬ BehavesAsMap ramDisk .master (liveNames [.create [0xE5]]) final := by
  refine ⟨_, run_eq_of_isOk (by decide +kernel), fun hmap ↦ ?_⟩
  obtain ⟨after, hfound⟩ := (hmap.find [0xE5] [] (createName [0xE5] _).2 rfl).mpr (by decide)
  have hmissing : (dirFind ramDisk .master (createName [0xE5]
      (performAll ramDisk .master [.create [0xE5]] smallRoot).2).2).1.isOk = false := by
    decide +kernel
  rw [hfound] at hmissing
  cases hmissing

end XBlast.Fatx
