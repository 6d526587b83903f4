import XBlast.Fatx.DirEntries
import XBlast.Foundation.Slots

/-!
# The names in a directory

`create_name` takes a segment of a path into a directory object, where it is padded to 42
characters. A first character that equals the mark of a deleted entry is replaced, and
`dir_register`, which counts the characters from the blank on, enters such a name with the length
zero (`registeredLength_eq`).

`DirTable.Lists` says which names a table holds: every entry up to some place has a name or is
deleted, and all entries behind it were never used. The functions of the directory keep this, as
long as no name starts with the mark: a new name goes to the first hole of the table or behind its
end (`DirTable.Lists.register`), and a deleted one leaves a hole (`DirTable.Lists.remove`).
-/

set_option autoImplicit false
set_option relaxedAutoImplicit false

namespace XBlast.Fatx

open Foundation Disk Program List UInt8

variable {δ : Type}

/-! ### The segment of a path -/

/-- A character that ends a segment. -/
def endsSegment (c : UInt8) : Bool := c < 0x20 ∨ c = 0xFF ∨ isSeparator c = true

/-- The first segment of a path. -/
def segment (path : List UInt8) : List UInt8 := path.takeWhile fun c ↦ !endsSegment c

/-- A name that fits in an entry. -/
structure ValidName (name : List UInt8) : Prop where
  ne_nil : name ≠ []
  length_le : name.length ≤ fatxFilenameMax
  characters : ∀ c ∈ name, 0x20 ≤ c ∧ c ≠ 0xFF

section

variable {path : List UInt8} {first : UInt8}

theorem segment_cons_of_ends (hends : first < 0x20 ∨ first = 0xFF ∨ isSeparator first = true) :
    segment (first :: path) = [] :=
  takeWhile_cons_of_neg (by simp [endsSegment, hends])

theorem segment_cons_of_goes (hgoes : ¬ (first < 0x20 ∨ first = 0xFF ∨ isSeparator first = true)) :
    segment (first :: path) = first :: segment path :=
  takeWhile_cons_of_pos (by simp [endsSegment, hgoes])

/-- The loop of `create_name` copies the segment, which is not too long. -/
theorem copySegment_ok {sfn taken rest : List UInt8} {c : UInt8}
    (hcopy : copySegment path taken = .ok (sfn, c, rest)) :
    sfn = taken ++ segment path ∧
      (taken.length ≤ fatxFilenameMax → sfn.length ≤ fatxFilenameMax) := by
  induction path generalizing taken with
  | nil =>
    cases hcopy
    exact ⟨(append_nil _).symm, id⟩
  | cons first path ih =>
    rw [copySegment] at hcopy
    split_ifs at hcopy with hends hseparator hlong hillegal
    · rw [segment_cons_of_ends (hends.imp_right .inl), append_nil]
      cases hcopy
      exact ⟨rfl, id⟩
    · rw [segment_cons_of_ends (.inr (.inr hseparator)), append_nil]
      cases hcopy
      exact ⟨rfl, id⟩
    · rw [segment_cons_of_goes fun hstop ↦ (or_assoc.mpr hstop).elim hends hseparator]
      obtain ⟨hsfn, hlength⟩ := ih hcopy
      rw [append_assoc] at hsfn
      refine ⟨hsfn, fun _ ↦ hlength ?_⟩
      rw [length_append, length_singleton]
      omega

end

theorem segment_characters {path : List UInt8} {c : UInt8} (hc : c ∈ segment path) :
    0x20 ≤ c ∧ c ≠ 0xFF := by
  have hgoes := @List.mem_takeWhile_imp _ (fun c ↦ !endsSegment c) path c hc
  rw [Bool.not_eq_true', endsSegment, decide_eq_false_iff_not, not_or, not_or, UInt8.not_lt]
    at hgoes
  exact ⟨hgoes.1, hgoes.2.1⟩

/-- A directory object has a name. -/
structure Dir.HasName (dp : Dir) (name : List UInt8) : Prop where
  valid : ValidName name
  fnx : dp.fnx = storedName (paddedName name)
  nsxFlag : dp.nsxFlag < 0x20

/-- The object with another name. -/
def Dir.withName (dp : Dir) (name : List UInt8) (last : Bool) : Dir :=
  { dp with
    fnx := storedName (paddedName name)
    nsxFlag := if last then nsLast else 0 }

theorem Dir.hasName_withName {name : List UInt8} (hname : ValidName name) (dp : Dir) (last : Bool) :
    (dp.withName name last).HasName name := by
  refine ⟨hname, rfl, ?_⟩
  change (if last = true then nsLast else 0) < 0x20
  split_ifs
  · decide
  · decide

/-- `create_name` accepts the first segment of a path. It is the last one or it is followed by the
rest of the path. -/
structure Segments (path : List UInt8) (last : Bool) (rest : List UInt8) : Prop where
  valid : ValidName (segment path)
  dots : ¬ (segment path = ascii "." ∨ segment path = ascii "..")
  copied : ∃ c, copySegment path [] = .ok (segment path, c, rest) ∧
    last = decide (c ≤ 0x20 ∨ c = 0xFF)

/-- `create_name` gives the object the first segment of the path as its name. -/
theorem createName_spec (path : List UInt8) (state : DirState δ) :
    (createName path).wp
      (fun rest after ↦ ∃ last, Segments path last rest ∧
        after = { state with dp := state.dp.withName (segment path) last })
      (fun _ _ ↦ True) state := by
  rw [createName, wp_bind]
  refine wp_ofExcept ?_ fun _ _ ↦ trivial
  rintro ⟨sfn, c, rest⟩ hcopy
  obtain ⟨hsegment, hlength⟩ := copySegment_ok hcopy
  rw [nil_append] at hsegment
  subst hsegment
  simp only [wp_ite, wp_bind, modifyDir, wp_modify]
  refine ⟨fun _ ↦ trivial, fun hdots ↦ ⟨fun _ ↦ trivial, fun hempty ↦ ?_⟩⟩
  refine ⟨decide (c ≤ 0x20 ∨ c = 0xFF), ⟨⟨hempty, hlength (Nat.zero_le _),
    fun _ ↦ segment_characters⟩, hdots, c, hcopy, rfl⟩, ?_⟩
  simp only [Dir.withName, decide_eq_true_eq]

theorem Segments.createName {path rest : List UInt8} {last : Bool}
    (hsegments : Segments path last rest) (state : DirState δ) :
    createName path state =
      (.ok rest, { state with dp := state.dp.withName (segment path) last }) := by
  obtain ⟨c, hcopy, rfl⟩ := hsegments.copied
  have hcopied : Program.ofExcept (copySegment path []) state =
      (.ok (segment path, c, rest), state) := by
    rw [hcopy, Program.ofExcept]
  rw [Fatx.createName, Program.bind_of_ok hcopied]
  dsimp only
  rw [if_neg hsegments.dots, if_neg hsegments.valid.ne_nil]
  simp only [Dir.withName, decide_eq_true_eq]
  rfl

/-! ### The name in a directory object -/

/-- A name in upper case, as names are compared. -/
def upper (name : List UInt8) : List UInt8 := name.map toupper

/-- A name whose first character equals the mark of a deleted entry. -/
def StartsDeleted (name : List UInt8) : Prop := name.head? = some ddem

instance (name : List UInt8) : Decidable (StartsDeleted name) :=
  inferInstanceAs (Decidable (name.head? = some ddem))

variable {sought : List UInt8}

section

variable {name : List UInt8}

theorem storedName_of_not (hname : ¬ StartsDeleted name) : storedName name = name := by
  cases name with
  | nil => rfl
  | cons c name =>
    rw [storedName, if_neg]
    exact fun hc ↦ hname (congrArg some hc)

theorem storedName_of_startsDeleted (hname : StartsDeleted name) :
    storedName name = rddem :: name.tail := by
  cases name with
  | nil => cases hname
  | cons c name =>
    rw [storedName, if_pos (Option.some.inj hname)]
    rfl

theorem length_storedName (name : List UInt8) : (storedName name).length = name.length := by
  cases name with
  | nil | cons => rfl

theorem storedName_paddedName (hname : name ≠ []) :
    storedName (paddedName name) =
      storedName name ++ List.replicate (fatxFilenameMax - name.length) 0xFF := by
  cases name with
  | nil => exact absurd rfl hname
  | cons c name => rfl

theorem storedName_characters (hname : ValidName name) {c : UInt8} (hc : c ∈ storedName name) :
    c ≠ 0xFF ∧ c ≠ 0 := by
  have hvalid (c : UInt8) (hc : c ∈ name) : c ≠ 0xFF ∧ c ≠ 0 := by
    obtain ⟨hlow, hhigh⟩ := hname.characters c hc
    refine ⟨hhigh, ?_⟩
    rintro rfl
    exact absurd hlow (by decide)
  by_cases hmark : StartsDeleted name
  · rw [storedName_of_startsDeleted hmark] at hc
    rcases mem_cons.mp hc with rfl | hrest
    · decide
    · exact hvalid c (mem_of_mem_tail hrest)
  · rw [storedName_of_not hmark] at hc
    exact hvalid c hc

/-- `dir_find` counts all characters of the name. -/
theorem searchedLength_eq (hname : ValidName name) :
    searchedLength (storedName (paddedName name)) = name.length := by
  rw [searchedLength, storedName_paddedName hname.ne_nil, takeWhile_append_of_pos
    fun c hc ↦ decide_eq_true (storedName_characters hname hc)]
  simp [length_storedName]

/-- The padding and the flag behind a name are not counted. -/
theorem takeWhile_padding {flag : UInt8} (hflag : flag < 0x20) (count : ℕ) :
    (List.replicate count 0xFF ++ [flag]).takeWhile (fun c ↦ 0x20 ≤ c ∧ c ≠ 0xFF) = [] := by
  cases count with
  | zero => simp [UInt8.not_le.mpr hflag]
  | succ count => simp [replicate_succ]

/-- `dir_register` counts no character of a name with the mark. -/
theorem registeredLength_eq {dp : Dir} (hname : dp.HasName name) :
    registeredLength dp = if StartsDeleted name then 0 else name.length := by
  rw [registeredLength, hname.fnx, storedName_paddedName hname.valid.ne_nil, append_assoc]
  split_ifs with hmark
  · rw [storedName_of_startsDeleted hmark]
    rfl
  · rw [storedName_of_not hmark, takeWhile_append_of_pos
      fun c hc ↦ decide_eq_true (hname.valid.characters c hc), takeWhile_padding hname.nsxFlag,
      append_nil]

theorem registeredLength_le {dp : Dir} (hname : dp.HasName name) :
    registeredLength dp ≤ fatxFilenameMax := by
  rw [registeredLength_eq hname]
  split_ifs
  · exact Nat.zero_le _
  · exact hname.valid.length_le

/-- No other character has one of the two marks as its upper case. -/
theorem eq_of_toupper_eq : ∀ c : UInt8,
    (toupper c = ddem → c = ddem) ∧ (toupper c = rddem → c = rddem) :=
  forall_byte (by decide +kernel)

theorem upper_ne_of_startsDeleted {marked : List UInt8} (hname : ¬ StartsDeleted name)
    (hmarked : StartsDeleted marked) : upper name ≠ upper marked := by
  intro hupper
  have hsought : marked = ddem :: marked.tail := (cons_head?_tail hmarked).symm
  rw [hsought] at hupper
  obtain ⟨c, rest, rfl, hc, -⟩ := map_eq_cons_iff.mp hupper
  exact hname (congrArg some ((eq_of_toupper_eq c).1 hc))

/-- A name with the mark is never taken for one without it. -/
theorem upper_storedName_iff (hname : ValidName name) (hunmarked : ¬ StartsDeleted name) :
    upper name = upper (storedName sought) ↔ upper name = upper sought := by
  by_cases hmark : StartsDeleted sought
  · refine iff_of_false (fun hupper ↦ ?_) (upper_ne_of_startsDeleted hunmarked hmark)
    rw [storedName_of_startsDeleted hmark] at hupper
    obtain ⟨c, rest, rfl, hc, -⟩ := map_eq_cons_iff.mp hupper
    have hlow := (hname.characters c mem_cons_self).1
    rw [(eq_of_toupper_eq c).2 hc] at hlow
    exact absurd hlow (by decide)
  · rw [storedName_of_not hmark]

end

/-! ### The entry of a name -/

/-- An entry with a name. -/
structure NamedEntry (name : List UInt8) (entry : Bytes) : Prop where
  valid : ValidName name
  unmarked : ¬ StartsDeleted name
  length : (entry Dirx.nameLgth).toNat = name.length
  attr : entry Dirx.attr &&& 0x08 = 0
  bytes : bytesAt entry Dirx.name name.length = name

/-- An entry that was never used, in a table that was filled with zeros or with 0xFF. -/
def Fresh (entry : Bytes) : Prop :=
  (entry Dirx.nameLgth = 0 ∧ entry Dirx.attr = 0 ∧ entry Dirx.name = 0) ∨
    entry Dirx.nameLgth = 0xFF

section

variable {name : List UInt8} {entry other : Bytes}

section

variable (hentry : NamedEntry name entry)

include hentry

/-- A name in an entry depends on the bytes before the cluster, and of the attributes on one bit. -/
theorem NamedEntry.of_name
    (hsame : ∀ index < Dirx.fstClus, index ≠ Dirx.attr → other index = entry index)
    (hattr : other Dirx.attr &&& 0x08 = 0) : NamedEntry name other := by
  have hle := hentry.valid.length_le
  refine ⟨hentry.valid, hentry.unmarked, ?_, hattr, ?_⟩
  · rw [hsame _ (by decide) (by decide)]
    exact hentry.length
  · rw [bytesAt_congr fun index hindex ↦ hsame _ ?_ ?_]
    · exact hentry.bytes
    · rw [fatxFilenameMax] at hle
      rw [Dirx.name, Dirx.fstClus]
      omega
    · rw [Dirx.name, Dirx.attr]
      omega

theorem NamedEntry.congr (hsame : ∀ index < 64, entry index = other index) :
    NamedEntry name other :=
  hentry.of_name (fun index hindex _ ↦ (hsame index (hindex.trans (by decide))).symm)
    (hsame Dirx.attr (by decide) ▸ hentry.attr)

theorem NamedEntry.nameMatches_iff (hsought : ValidName sought) :
    nameMatches (storedName (paddedName sought)) entry = true ↔ upper name = upper sought := by
  have hpos : 0 < name.length := length_pos_of_ne_nil hentry.valid.ne_nil
  rw [← upper_storedName_iff hentry.valid hentry.unmarked, nameMatches, decide_eq_true_eq,
    searchedLength_eq hsought, hentry.length, hentry.bytes, storedName_paddedName hsought.ne_nil]
  constructor
  · rintro ⟨-, -, -, hlength, hupper⟩
    rwa [take_left' ((length_storedName sought).trans hlength)] at hupper
  · intro hupper
    have hlength : name.length = (storedName sought).length := by
      have hlengths := congrArg List.length hupper
      rwa [upper, upper, length_map, length_map] at hlengths
    refine ⟨hentry.attr, hpos, hentry.valid.length_le, ?_, ?_⟩
    · rw [hlength, length_storedName]
    · rw [take_left' hlength.symm]
      exact hupper

theorem NamedEntry.firstCharacter :
    0x20 ≤ entry Dirx.name := by
  obtain ⟨c, rest, rfl⟩ := exists_cons_of_ne_nil hentry.valid.ne_nil
  have hbytes := hentry.bytes
  rw [length_cons, bytesAt, range_succ_eq_map, map_cons] at hbytes
  rw [show entry Dirx.name = c from (List.cons.inj hbytes).1]
  exact (hentry.valid.characters c mem_cons_self).1

theorem NamedEntry.not_free : isFree entry = false := by
  have hlow := hentry.firstCharacter
  rw [isFree, decide_eq_false_iff_not, not_or, hentry.length]
  refine ⟨not_lt.mpr hentry.valid.length_le, fun hzero ↦ ?_⟩
  rw [hzero] at hlow
  exact absurd hlow (by decide)

theorem NamedEntry.length_ne {mark : UInt8} (hmark : fatxFilenameMax < mark.toNat ∨ mark = 0) :
    entry Dirx.nameLgth ≠ mark := by
  rintro rfl
  have hle := hentry.valid.length_le
  have hpos : 0 < name.length := length_pos_of_ne_nil hentry.valid.ne_nil
  rw [← hentry.length] at hle hpos
  rcases hmark with hlong | hzero
  · exact absurd hle (not_le.mpr hlong)
  · rw [hzero] at hpos
    exact absurd hpos (by decide)

theorem NamedEntry.shown : isShown false entry = true := by
  have hattr : ∀ attr : UInt8, attr &&& 0x08 = 0 →
      attr &&& 0x3F ≠ 0x0F ∧ attr &&& 0x3F &&& 0xDF ≠ 0x08 := forall_byte (by decide +kernel)
  obtain ⟨hlong, hlabel⟩ := hattr _ hentry.attr
  rw [isShown, decide_eq_true_eq]
  exact ⟨hentry.length_ne (.inl (by decide)), hentry.length_ne (.inl (by decide)), hlong,
    decide_eq_false hlabel⟩

theorem NamedEntry.not_ends : ¬ EndsTable entry := by
  rintro ⟨-, hlong | hzero⟩
  · rw [hentry.length] at hlong
    exact absurd hentry.valid.length_le (not_le.mpr hlong)
  · exact hentry.length_ne (.inr rfl) hzero

end

theorem Fresh.free (hfresh : Fresh entry) : isFree entry = true := by
  rw [isFree, decide_eq_true_eq]
  rcases hfresh with ⟨-, -, hzero⟩ | hmark
  · exact .inr hzero
  · rw [hmark]
    exact .inl (by decide)

theorem Fresh.ends (hfresh : Fresh entry) : EndsTable entry := by
  rcases hfresh with ⟨hzero, -⟩ | hmark
  · rw [EndsTable, hzero]
    decide
  · rw [EndsTable, hmark]
    decide

theorem isFree_deleted (hdeleted : entry Dirx.nameLgth = ddem) : isFree entry = true := by
  rw [isFree, decide_eq_true_eq, hdeleted]
  exact .inl (by decide)

/-- The entry that `dir_register` makes for a name without the mark. -/
theorem namedEntry_newEntry (hname : ValidName name) (hunmarked : ¬ StartsDeleted name) :
    NamedEntry name (newEntry (UInt8.ofNat name.length) (storedName (paddedName name))) := by
  have hle := hname.length_le
  rw [fatxFilenameMax] at hle
  rw [storedName_paddedName hname.ne_nil, storedName_of_not hunmarked]
  refine ⟨hname, hunmarked, ?_, ?_, ?_⟩
  · exact toNat_ofNat_of_lt' (show name.length < 2 ^ 8 by omega)
  · change (0 : UInt8) &&& 0x08 = 0
    decide
  · rw [newEntry, cons_append, cons_append, append_assoc]
    exact bytesAt_listImage [UInt8.ofNat name.length, 0] name _

end

/-! ### The names of a table -/

/-- What is at a place of a table: a name, a deleted entry or an entry that was never used. -/
def SlotHolds (entry : Bytes) : Option (Option (List UInt8)) → Prop
  | some (some name) => NamedEntry name entry
  | some none => entry Dirx.nameLgth = ddem
  | none => Fresh entry

/-- A table holds names, with holes between them. -/
structure DirTable.Lists (table : DirTable) (slots : List (Option (List UInt8))) : Prop where
  length_le : slots.length ≤ table.count
  holds : ∀ slot < table.count, SlotHolds (table.entry slot) slots[slot]?

theorem SlotHolds.congr {entry other : Bytes} {content : Option (Option (List UInt8))}
    (hholds : SlotHolds entry content) (hsame : ∀ index < 64, entry index = other index) :
    SlotHolds other content := by
  rcases content with _ | _ | name
  · rw [SlotHolds, Fresh, ← hsame _ (by decide), ← hsame _ (by decide), ← hsame _ (by decide)]
    exact hholds
  · rw [SlotHolds, ← hsame _ (by decide)]
    exact hholds
  · exact NamedEntry.congr hholds hsame

section

variable {table : DirTable} {slots : List (Option (List UInt8))}

section

variable (hlists : table.Lists slots)

include hlists

/-- A new cluster adds entries that were never used. -/
theorem DirTable.Lists.grow {next : DirTable} (hgrows : table.Grows next) : next.Lists slots := by
  refine ⟨le_trans hlists.length_le hgrows.count, fun slot hslot ↦ ?_⟩
  by_cases hold : slot < table.count
  · exact (hlists.holds slot hold).congr fun index hindex ↦
      (hgrows.kept slot hold index hindex).symm
  · have hzero := hgrows.zero slot hslot (not_lt.mp hold)
    have hle := hlists.length_le
    rw [getElem?_eq_none (by omega)]
    exact .inl ⟨hzero _ (by decide), hzero _ (by decide), hzero _ (by decide)⟩

variable {slot : ℕ}

/-- The entry that is found has the name. -/
theorem DirTable.Lists.found (hsought : ValidName sought)
    (hfound : FoundAt table (storedName (paddedName sought)) slot) :
    ∃ name, slots[slot]? = some (some name) ∧ upper name = upper sought := by
  have hholds := hlists.holds slot hfound.lt
  have hmatch := hfound.found
  rcases hslot : slots[slot]? with _ | _ | name
  · rw [hslot] at hholds
    rcases hholds with ⟨hzero, -⟩ | hmark
    · rw [nameMatches, decide_eq_true_eq, hzero] at hmatch
      exact absurd hmatch.2.1 (by decide)
    · rw [nameMatches, decide_eq_true_eq, hmark] at hmatch
      exact absurd hmatch.2.2.1 (by decide)
  · rw [hslot] at hholds
    rw [nameMatches_deleted hholds] at hmatch
    cases hmatch
  · rw [hslot] at hholds
    exact ⟨name, rfl, (NamedEntry.nameMatches_iff hholds hsought).mp hmatch⟩

/-- A search without success has passed all names. -/
theorem DirTable.Lists.missing (hsought : ValidName sought) {last : ℕ}
    (hmissing : MissingFrom table (storedName (paddedName sought)) last) {name : List UInt8}
    (hname : name ∈ slots.reduceOption) : upper name ≠ upper sought := by
  intro hupper
  obtain ⟨slot, hslot⟩ := mem_iff_getElem?.mp (reduceOption_mem_iff.mp hname)
  have hlength := (List.getElem?_eq_some_iff.mp hslot).1
  have hinside : slot < table.count := lt_of_lt_of_le hlength hlists.length_le
  have hholds := hlists.holds slot hinside
  rw [hslot] at hholds
  have hbefore : slot < last := by
    rcases hmissing.ends with hcount | hends
    · omega
    · by_contra hbehind
      have hlast : last < table.count := by omega
      have hlastUsed : last < slots.length := by omega
      have hused := hlists.holds last hlast
      rw [getElem?_eq_getElem hlastUsed] at hused
      rcases hcontent : slots[last] with _ | other
      · rw [hcontent] at hused
        exact hends.1 hused
      · rw [hcontent] at hused
        exact NamedEntry.not_ends hused hends
  have hdiffers := (hmissing.before slot hbefore).differs
  rw [(NamedEntry.nameMatches_iff hholds hsought).mpr hupper] at hdiffers
  cases hdiffers

/-- The first free entry is a hole or the first one that was never used. -/
theorem DirTable.Lists.free (hfree : FreeAt table slot) :
    slot ≤ slots.length ∧ (slot < slots.length → slots[slot]? = some none) ∧
      (slot = slots.length → none ∉ slots) := by
  refine ⟨?_, fun hlength ↦ ?_, fun hend hmem ↦ ?_⟩
  · by_contra hbehind
    have hinside : slots.length < table.count := lt_trans (not_le.mp hbehind) hfree.lt
    have hfresh := hlists.holds slots.length hinside
    rw [getElem?_eq_none le_rfl] at hfresh
    have hused := hfree.before slots.length (not_le.mp hbehind)
    rw [Fresh.free hfresh] at hused
    cases hused
  · have hholds := hlists.holds slot hfree.lt
    rw [getElem?_eq_getElem hlength] at hholds ⊢
    rcases hcontent : slots[slot] with _ | name
    · rfl
    · rw [hcontent] at hholds
      have hused := NamedEntry.not_free hholds
      rw [hfree.free] at hused
      cases hused
  · obtain ⟨hole, hhole⟩ := mem_iff_getElem?.mp hmem
    have hbefore : hole < slot := hend ▸ (List.getElem?_eq_some_iff.mp hhole).1
    have hholds := hlists.holds hole (lt_trans hbefore hfree.lt)
    rw [hhole] at hholds
    have hused := hfree.before hole hbefore
    rw [isFree_deleted hholds] at hused
    cases hused

/-- A new name is put at the first free place. -/
theorem DirTable.Lists.register (hfree : FreeAt table slot) {dp : Dir} {name : List UInt8}
    (hname : dp.HasName name) (hunmarked : ¬ StartsDeleted name) :
    (table.register hfree dp).Lists (place slots slot name) := by
  obtain ⟨hle, -⟩ := hlists.free hfree
  have hcount : slots.length ≤ (table.register hfree dp).count := hlists.length_le
  have hlt : slot < (table.register hfree dp).count := hfree.lt
  refine ⟨?_, fun other hother ↦ ?_⟩
  · rw [length_place hle]
    omega
  · rw [getElem?_place hle]
    split_ifs with hsame
    · rw [hsame]
      refine (namedEntry_newEntry hname.valid hunmarked).congr fun index hindex ↦ ?_
      rw [register_entry hfree dp hindex, registeredLength_eq hname, if_neg hunmarked, hname.fnx]
    · exact (hlists.holds other hother).congr fun index hindex ↦
        (register_entry_of_ne hfree dp hother hsame hindex).symm

/-- A deleted name leaves a hole. -/
theorem DirTable.Lists.remove (hslot : slot < table.count) (hused : slot < slots.length) :
    (table.remove hslot).Lists (slots.set slot none) := by
  refine ⟨?_, fun other hother ↦ ?_⟩
  · rw [length_set]
    exact hlists.length_le
  · by_cases hsame : other = slot
    · rw [hsame, getElem?_set_self hused]
      exact remove_length hslot
    · rw [getElem?_set_ne (Ne.symm hsame)]
      exact (hlists.holds other hother).congr fun index hindex ↦
        (remove_entry_of_ne hslot hother hsame hindex).symm

/-! ### Reading the names -/

/-- An entry that `dir_read` passes is a deleted one. -/
theorem DirTable.Lists.hidden (hslot : slot < table.count)
    (hhidden : Hidden false (table.entry slot)) : slots[slot]? = some none := by
  have hholds := hlists.holds slot hslot
  rcases hcontent : slots[slot]? with _ | _ | name
  · rw [hcontent] at hholds
    rcases hholds with ⟨hzero, hattr, -⟩ | hmark
    · have hshown := hhidden.hidden
      rw [isShown, hzero, hattr] at hshown
      exact absurd hshown (by decide)
    · exact absurd hmark hhidden.goesOn
  · rfl
  · rw [hcontent] at hholds
    have hshown := hhidden.hidden
    rw [NamedEntry.shown hholds] at hshown
    cases hshown

/-- Where `dir_read` stops there are no more names. -/
theorem DirTable.Lists.ended {vol : Bool} {slot last : ℕ}
    (hnothing : NothingFrom table vol slot last) : slots[last]? = none := by
  have hlength := hlists.length_le
  rcases hnothing.ends with hcount | hmark
  · exact getElem?_eq_none (by omega)
  · by_cases hlast : last < table.count
    · have hholds := hlists.holds last hlast
      rcases hcontent : slots[last]? with _ | _ | name
      · rfl
      · rw [hcontent, SlotHolds, hmark] at hholds
        exact absurd hholds (by decide)
      · rw [hcontent] at hholds
        exact absurd hmark (NamedEntry.length_ne hholds (.inl (by decide)))
    · exact getElem?_eq_none (by omega)

end

/-- Where the next entry is read: at an entry, or at the end of the table, where the object has no
sector. -/
def ReadsFrom (table : DirTable) (slot : ℕ) (dp : Dir) : Prop :=
  (slot < table.count ∧ AtSlot table slot dp) ∨
    (slot = table.count ∧ dp.sect = 0 ∧ ∃ stopped < table.count, OnSlot table stopped dp)

end

theorem wp_ignoreNoFile {program : DirM δ Unit}
    {ok : Unit → DirState δ → Prop} {error : FResult → DirState δ → Prop} {state : DirState δ}
    (hprogram : program.wp ok (fun code after ↦ (code = .noFile → ok () after) ∧
      (code ≠ .noFile → error code after)) state) :
    (ignoreNoFile program).wp ok error state := by
  rw [Program.wp] at hprogram
  rw [Program.wp, ignoreNoFile]
  rcases hrun : program state with ⟨code | value, after⟩
  · rw [hrun] at hprogram
    by_cases hcode : code = .noFile
    · rw [hcode]
      exact hprogram.1 hcode
    · have hother := hprogram.2 hcode
      cases code with
      | noFile => exact absurd rfl hcode
      | _ => exact hother
  · rw [hrun] at hprogram
    exact hprogram

/-- The name of a loaded entry. -/
theorem entryName_eq {state : DirState δ} (hsect : state.dp.sect ≠ 0) {name : List UInt8}
    (hentry : NamedEntry name state.entry) : entryName state = name := by
  rw [entryName, if_neg hsect]
  dsimp only
  rw [if_neg (hentry.length_ne (.inl (by decide))), hentry.length, hentry.bytes]
  refine cString_eq_self fun c hc ↦ ?_
  rintro rfl
  exact absurd (hentry.valid.characters 0 hc).1 (by decide)

section

variable {io : DiskIo δ} {device : BlockDevice io} (hsound : ¬ device.faulty) {pdrv : Drive}
  {dp : Dir} {table : DirTable} {slots : List (Option (List UInt8))} {slot : ℕ}
  {state : DirState δ}

/-- What `f_readdir` returns: the first name from an entry on, or an empty name if there is none. -/
inductive NameRead (device : BlockDevice io) (pdrv : Drive) (dp : Dir) (table : DirTable)
    (slots : List (Option (List UInt8))) (slot : ℕ) : List UInt8 → DirState δ → Prop
  | name {name : List UInt8} {shown : ℕ} {after : DirState δ} (hname : name ≠ [])
      (hle : slot ≤ shown)
      (hrest : (slots.drop slot).reduceOption = name :: (slots.drop (shown + 1)).reduceOption)
      (hheld : table.Held device pdrv dp after) (hreads : ReadsFrom table (shown + 1) after.dp) :
      NameRead device pdrv dp table slots slot name after
  | nothing {after : DirState δ} (hrest : (slots.drop slot).reduceOption = []) :
      NameRead device pdrv dp table slots slot [] after

include hsound

/-- Moving on never fails, whether or not there is a next entry. -/
theorem moveOn_spec (hslot : slot < table.count) (hheld : table.Held device pdrv dp state)
    (hon : OnSlot table slot state.dp) :
    (ignoreNoFile (dirNext io pdrv false)).wp
      (fun _ after ↦ table.Held device pdrv dp after ∧
        (state.dp.sect = table.sector slot → ReadsFrom table (slot + 1) after.dp))
      (fun _ _ ↦ False) state := by
  refine wp_ignoreNoFile (wp_mono (dirNext_of_onSlot hsound false hslot hheld hon) ?_ ?_)
  · rintro _ after ⟨next, -, -, hsame, hnext, hafter, hat⟩
    obtain rfl := hsame rfl
    exact ⟨hafter, fun hsect ↦ .inl ⟨hnext, hat hsect⟩⟩
  · rintro code after ⟨-, hend⟩
    obtain ⟨hcode, hcount, hafter, honAfter, hsect⟩ := hend rfl
    exact ⟨fun _ ↦ ⟨hafter, fun _ ↦ .inr ⟨hcount, hsect, slot, hslot, honAfter⟩⟩,
      fun hother ↦ absurd hcode hother⟩

/-- Reading at the end of the table, or where it ends for `dir_read`. -/
theorem readNothing_spec (hheld : table.Held device pdrv dp state) (hsect : state.dp.sect = 0)
    (hon : ∃ stopped < table.count, OnSlot table stopped state.dp)
    (hrest : (slots.drop slot).reduceOption = []) :
    (Program.gets entryName >>= fun fname ↦ ignoreNoFile (dirNext io pdrv false) >>=
      fun _ ↦ pure fname).wp (NameRead device pdrv dp table slots slot) (fun _ _ ↦ False)
        state := by
  obtain ⟨stopped, hstopped, hon⟩ := hon
  have hname : entryName state = [] := if_pos hsect
  rw [wp_bind, wp_gets, hname, wp_bind]
  exact wp_safe (moveOn_spec hsound hstopped hheld hon)
    (fun _ _ _ ↦ .nothing hrest)

theorem fReaddir_spec (hlists : table.Lists slots) (hheld : table.Held device pdrv dp state)
    (hreads : ReadsFrom table slot state.dp) :
    (fReaddir io pdrv).wp (NameRead device pdrv dp table slots slot) (fun _ _ ↦ False) state := by
  rw [fReaddir, wp_bind]
  rcases hreads with ⟨hslot, hat⟩ | ⟨hend, hsect, hstopped⟩
  · have hholes {last : ℕ} (hlast : last ≤ table.count)
        (hhidden : ∀ index, slot ≤ index → index < last → Hidden false (table.entry index)) :
        ∀ index, slot ≤ index → index < last → slots[index]? = some none :=
      fun index hlow hhigh ↦ hlists.hidden (by omega) (hhidden index hlow hhigh)
    refine wp_ignoreNoFile (wp_mono (dirRead_spec hsound false hslot hheld hat) ?_ ?_)
    · rintro _ read ⟨hread, shown, hshown, hshownAt, hentry⟩
      have hpassed := reduceOption_drop_of_holes hshown.le
        (hholes (le_of_lt hshown.lt) hshown.before)
      have hholds := (hlists.holds shown hshown.lt).congr fun index hindex ↦
        (hentry index hindex).symm
      have hsect : read.dp.sect ≠ 0 := by
        rw [hshownAt.sect]
        exact DirTable.sector_ne_zero hshown.lt
      rw [wp_bind, wp_gets, wp_bind]
      refine wp_safe (moveOn_spec hsound hshown.lt hread hshownAt.toOnSlot) ?_
      rintro _ moved ⟨hmoved, hreads⟩
      rcases hcontent : slots[shown]? with _ | _ | name
      · -- An entry of zeros is shown with an empty name.
        rw [hcontent] at hholds
        have hempty : entryName read = [] := by
          rcases hholds with ⟨hzero, -⟩ | hmark
          · rw [entryName, if_neg hsect]
            rw [hzero]
            rfl
          · rw [hentry _ (by decide)] at hmark
            exact absurd hmark hshown.goesOn
        rw [hempty]
        exact .nothing (hpassed.trans (reduceOption_drop_of_none hcontent))
      · rw [hcontent] at hholds
        have hdeleted : table.entry shown Dirx.nameLgth = ddem := by
          rw [← hentry _ (by decide)]
          exact hholds
        have hvisible := hshown.shown
        rw [isShown, hdeleted] at hvisible
        simp at hvisible
      · rw [hcontent] at hholds
        have hname : entryName read = name := entryName_eq hsect hholds
        rw [hname]
        exact .name (NamedEntry.valid hholds).ne_nil hshown.le
          (hpassed.trans (reduceOption_drop_of_some hcontent)) hmoved (hreads hshownAt.sect)
    · rintro code read ⟨hcode, hread, ⟨last, hlast⟩, hsect, hstopped⟩
      refine ⟨fun _ ↦ readNothing_spec hsound hread hsect hstopped ?_,
        fun hother ↦ absurd hcode hother⟩
      have hpassed := reduceOption_drop_of_holes hlast.le (hholes hlast.last_le hlast.before)
      exact hpassed.trans (reduceOption_drop_of_none (hlists.ended hlast))
  · have hnothing : (slots.drop slot).reduceOption = [] := by
      have hlength := hlists.length_le
      exact reduceOption_drop_of_none (getElem?_eq_none (by omega))
    refine wp_ignoreNoFile ?_
    rw [dirRead, wp_modifyOnError, wp_bind, wp_gets, wp_bind, wp_stopIf]
    refine ⟨fun _ ↦ ⟨fun _ ↦ ?_, fun hother ↦ absurd rfl hother⟩,
      fun hother ↦ absurd hsect hother⟩
    obtain ⟨stopped, hinside, hon⟩ := hstopped
    exact readNothing_spec hsound (hheld.withDir rfl rfl rfl) rfl
      ⟨stopped, hinside, ⟨hon.dptr, hon.clust⟩⟩ hnothing

/-- Reading goes through all names that are left. -/
theorem readNames_spec (hlists : table.Lists slots) (turns : ℕ)
    (hturns : table.count < slot + turns) (hheld : table.Held device pdrv dp state)
    (hreads : ReadsFrom table slot state.dp) :
    (readNames io pdrv turns).wp (fun names _ ↦ names = (slots.drop slot).reduceOption)
      (fun _ _ ↦ False) state := by
  induction turns generalizing slot state with
  | zero =>
    have hle : slot ≤ table.count :=
      hreads.elim (fun hat ↦ le_of_lt hat.1) fun hend ↦ le_of_eq hend.1
    omega
  | succ turns ih =>
    rw [readNames, wp_bind]
    refine wp_safe (fReaddir_spec hsound hlists hheld hreads) ?_
    intro fname after hread
    cases hread with
    | name hname hle hrest hafter hmore =>
      rw [if_neg hname, wp_bind, hrest]
      exact wp_safe (ih (by omega) hafter hmore)
        (fun _ _ hnames ↦ congrArg (List.cons fname) hnames)
    | nothing hrest =>
      rw [if_pos rfl, hrest]
      rfl

/-- Reading a directory gives its names in the order of its table. -/
theorem listDirectory_spec (hlists : table.Lists slots) (hheld : table.Held device pdrv dp state) :
    (listDirectory io pdrv).wp (fun names _ ↦ names = slots.reduceOption) (fun _ _ ↦ False)
      state := by
  rw [listDirectory, wp_bind]
  refine wp_safe (dirSdi_spec hheld) ?_
  rintro _ first ⟨hfirst, hat⟩
  have hlimit : table.count < 0 + 4097 := by
    rw [DirTable.count]
    omega
  exact readNames_spec hsound hlists 4097 hlimit hfirst (.inl ⟨table.count_pos, hat⟩)

end

end XBlast.Fatx
